import CellMachine.Host.Call
import CellMachine.Main
import CellMachine.Peripheral.Probe
import CellMachine.Text.Hex
import CellMachine.Proofs.Allocator.Records
import CellMachine.Proofs.Allocator.Plan
import CellMachine.Proofs.Allocator.Lending
import CellMachine.Proofs.Allocator.Returning
import CellMachine.Proofs.Allocator.Census
import CellMachine.Proofs.Allocator.Leases
import CellMachine.Proofs.Allocator.Clients
import CellMachine.Proofs.Allocator.FirstFit
import CellMachine.Proofs.Allocator.Merging
import CellMachine.Proofs.Carver
import CellMachine.Proofs.Processor
import CellMachine.Proofs.Tenants
import CellMachine.Proofs.Process.Deferral
import CellMachine.Proofs.Process.Lifecycle
import CellMachine.Proofs.Process.Release
import CellMachine.Proofs.Codec
import CellMachine.Proofs.Image
import CellMachine.Proofs.Balance
import CellMachine.Proofs.Execution
import CellMachine.Proofs.Host.Evolution
import CellMachine.Proofs.Allocators
import CellMachine.Proofs.Placement
import CellMachine.Proofs.Rounds
import CellMachine.Proofs.Host.Runs
import CellMachine.Proofs.Host.Finished
import CellMachine.Proofs.Host.AfterEnd
import CellMachine.Proofs.Linking
import CellMachine.Proofs.Addressing
import CellMachine.Proofs.Allocator.Guard
import CellMachine.Proofs.Allocator.SecondReturn
import CellMachine.Proofs.Creation
import CellMachine.Proofs.Items
import CellMachine.Proofs.Truncation
import CellMachine.Proofs.Host.Turns
import CellMachine.Proofs.Dispatch
import CellMachine.Proofs.Faults
import CellMachine.Proofs.Host.Noticed
import CellMachine.Proofs.Host.Faulted
import CellMachine.Proofs.Aliasing
import CellMachine.Proofs.Paths
import CellMachine.Proofs.Joining.Watch
import CellMachine.Proofs.Joining.Reported
import CellMachine.Proofs.Allocator.Careful
import CellMachine.Proofs.Allocator.Bounds
import CellMachine.Proofs.Windows.Exact
