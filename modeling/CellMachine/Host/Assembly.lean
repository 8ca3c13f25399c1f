import CellMachine.Host.Lifecycle
import CellMachine.Peripheral.Console

/-!
# Putting machines together

A machine is built from four parts, asked for in a fixed order; the first part that cannot be had is
reported. A standard machine checks its configuration first and has a console.
-/

namespace CellMachine.Host

/-- Where the windows of a new machine come from. -/
inductive MemorySource where
  /-- An existing pool, which becomes one free run. -/
  | pool (pool : Nat)
  /-- What the configuration says. -/
  | configured

/-- What a machine is to be built from. -/
structure Blueprint where
  config : Config
  /-- A part that is not supplied. -/
  missing : Option Part := none
  memory : MemorySource := .configured
  firmware : Firmware
  storage : Storage
  watchdogMs : Nat := 1000

/-- Builds the allocator of a machine. -/
def buildAllocator (b : Blueprint) : HostM Allocator := fun h =>
  let built := match b.memory with
    | .pool pool => Allocator.ofPool h.store pool
    | .configured => Carver.allocatorFor h.store b.config
  match built with
  | .ok (allocator, store) => .ok allocator { h with store }
  | .error _ => .error (.error (.missingPart .memory)) h

/-- Builds a machine; its number. -/
def build (b : Blueprint) : HostM Nat := do
  if b.missing = some .processor then refuse (.missingPart .processor)
  if b.missing = some .memory then refuse (.missingPart .memory)
  let allocator ← buildAllocator b
  if b.missing = some .firmware then refuse (.missingPart .firmware)
  if b.missing = some .storage then refuse (.missingPart .storage)
  let parts : Parts := ⟨allocator, b.config.layout, b.firmware, b.storage⟩
  let h ← get
  set { h with machines := h.machines.push { parts := some parts, watchdogMs := b.watchdogMs } }
  pure h.machines.size

/-- The parts asked for when a machine was built with the given outcome. -/
def asked : Except Fault Nat → List Part
  | .error (.error (.missingPart part)) =>
    Machine.partOrder.take (Machine.partOrder.findIdx (· = part) + 1)
  | _ => Machine.partOrder

/-- The firmware of a standard machine. -/
def standardFirmware (stream : Nat) : Firmware := .ofPeripherals [Console.peripheral stream]

/-- Builds a standard machine that prints to `stream` and reads files with `read`. -/
def buildStandard (c : Config) (stream : Nat) (read : String → Except IoError (List UInt8)) :
    HostM Nat := do
  let config ← accept c.validated
  build
    { config
      firmware := standardFirmware stream
      storage := .directory config.storageRoot read
      watchdogMs := config.watchdogMs }

end CellMachine.Host
