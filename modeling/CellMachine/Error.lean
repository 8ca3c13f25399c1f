import CellMachine.Text.Numeral

/-!
# Errors

Every way an operation can be refused, as causes; the wording stands in the `message` functions and
nowhere else. A `Fault` is how an operation ends without a value: with an `Error` for the caller,
or by a crash, which the calling thread does not survive (broken allocation records, a host
function that gives up).
-/

namespace CellMachine

open Text

/-- What can go wrong at a byte stream or a file. -/
inductive IoError where
  /-- The input ended inside a fixed width item. -/
  | endOfBuffer
  /-- The input ended inside the body of a text. -/
  | endOfText
  /-- A text announced a negative length. -/
  | negativeLength (length : Int)
  /-- A text is not UTF-8 from byte `index` on; `width` is the number of bytes that can no longer
  become a character, none when the bytes end inside a character. -/
  | badUtf8 (index : Nat) (width : Option Nat)
  /-- A text is too long for its length field. -/
  | textTooLong
  | noSuchFile
  | notADirectory
  | isADirectory
  /-- A path, or a name in it, is longer than the file system takes. -/
  | nameTooLong
  /-- A path holds the character NUL. -/
  | nulInPath
  /-- The stream refuses every write. -/
  | brokenStream
  deriving DecidableEq, Repr

/-- The families of stream and file errors. -/
inductive IoError.Kind where
  | unexpectedEof
  | invalidData
  | invalidInput
  | notFound
  | notADirectory
  | isADirectory
  | invalidFilename
  | other
  deriving DecidableEq, Repr

namespace IoError

/-- The family an error belongs to. -/
def kind : IoError → Kind
  | endOfBuffer => .unexpectedEof
  | endOfText => .unexpectedEof
  | negativeLength _ => .invalidData
  | badUtf8 _ _ => .invalidData
  | textTooLong => .invalidInput
  | noSuchFile => .notFound
  | notADirectory => .notADirectory
  | isADirectory => .isADirectory
  | nameTooLong => .invalidFilename
  | nulInPath => .invalidInput
  | brokenStream => .other

/-- The name of a family. -/
def Kind.name : Kind → String
  | unexpectedEof => "UnexpectedEof"
  | invalidData => "InvalidData"
  | invalidInput => "InvalidInput"
  | notFound => "NotFound"
  | notADirectory => "NotADirectory"
  | isADirectory => "IsADirectory"
  | invalidFilename => "InvalidFilename"
  | other => "Other"

/-- The wording of a stream or file error. -/
def message : IoError → String
  | endOfBuffer => "failed to fill whole buffer"
  | endOfText => "unexpected end of file"
  | negativeLength length => s!"negative string length {length}"
  | badUtf8 index (some width) => s!"invalid utf-8 sequence of {width} bytes from index {index}"
  | badUtf8 index none => s!"incomplete utf-8 byte sequence from index {index}"
  | textTooLong => "string too long"
  | noSuchFile => "No such file or directory (os error 2)"
  | notADirectory => "Not a directory (os error 20)"
  | isADirectory => "Is a directory (os error 21)"
  | nameTooLong => "File name too long (os error 36)"
  | nulInPath => "file name contained an unexpected NUL byte"
  | brokenStream => "console is broken"

end IoError

/-- A request that its arguments rule out. -/
inductive Misuse where
  | windowExceedsPool (start length cells : Nat)
  | absentPool
  | negativeStart (start : Int)
  | negativeLength (length : Int)
  | offsetExceedsSegment (offset : Nat)
  | poolBelowMinimumBytes (bytes : Nat)
  | poolBelowMinimumCells (cells : Nat)
  | poolTooLarge
  | nonPositiveSize (size : Int)
  | freeKind
  | foreignWindow
  | notAnAllocation
  | noRunRecord (head length : Nat)
  | alreadyFree (head : Nat)
  | segmentTooLarge (kind : String) (cells : Nat)
  | cannotStart (id : Int) (state : String)
  | foreignProcess (id : Int)
  | peripheralInstalled (name : String)
  | tooManyPeripherals
  | noFileName
  | processEnded (state : String)
  /-- A refusal worded by the host. -/
  | refused (reason : String)
  deriving DecidableEq, Repr

/-- The wording of a refused request. -/
def Misuse.message : Misuse → String
  | windowExceedsPool start length cells =>
    s!"start({start}) + length({length}) exceeds pool of {cells} cells"
  | absentPool => "pool is absent"
  | negativeStart start => s!"start({start}) is negative"
  | negativeLength length => s!"length({length}) is negative"
  | offsetExceedsSegment offset => s!"offset {offset} does not fit a segment of 1048576 cells"
  | poolBelowMinimumBytes bytes => s!"pool size {bytes} is below the minimum of 24 bytes"
  | poolBelowMinimumCells cells => s!"pool of {cells} cells is below the minimum of 3 cells"
  | poolTooLarge => "pool exceeds the addressable cell count"
  | nonPositiveSize size => s!"allocation size must be positive, got {size}"
  | freeKind => "cannot allocate with kind 'Free'"
  | foreignWindow => "view does not belong to this allocator"
  | notAnAllocation => "view does not start at an allocation"
  | noRunRecord head length => s!"no run record at {head} covers a view of {length} cells"
  | alreadyFree head => s!"run at {head} is already free"
  | segmentTooLarge kind cells =>
    s!"{kind} segment of {cells} cells exceeds the addressable 1048576"
  | cannotStart id state => s!"process {id} cannot start from {state}"
  | foreignProcess id => s!"process {id} belongs to another machine"
  | peripheralInstalled name => s!"peripheral '{name}' is already installed"
  | tooManyPeripherals => "too many peripherals"
  | noFileName => "module path has no file name"
  | processEnded state => s!"process ended {state}"
  | refused reason => reason

/-- What is wrong with a compiled image. -/
inductive ImageDefect where
  | shortHeader
  | badMagic (magic : UInt32)
  | unsupportedVersion (version : Nat)
  | negativeInstructionCount (count : Int)
  | negativeGlobalCount (count : Int)
  | unknownTag (tag : UInt8)
  | trailingBytes (count : Nat)
  | tooManyEntries (count : Nat)
  deriving DecidableEq, Repr

/-- The wording of an image defect. -/
def ImageDefect.message : ImageDefect → String
  | shortHeader => "stream is shorter than the header"
  | badMagic magic => "bad magic 0x" ++ hexUpper 8 magic.toNat
  | unsupportedVersion version => s!"unsupported version {version}"
  | negativeInstructionCount count => s!"negative instruction count {count}"
  | negativeGlobalCount count => s!"negative global count {count}"
  | unknownTag tag => "unknown global tag " ++ Nat.repr tag.toNat
  | trailingBytes count => s!"{count} trailing bytes"
  | tooManyEntries count => s!"{count} entries do not fit"

/-- What is wrong with a machine configuration. -/
inductive ConfigDefect where
  | smallPool
  | emptySegment
  | wideSegment
  | manyRegisters
  deriving DecidableEq, Repr

/-- The wording of a configuration defect. -/
def ConfigDefect.message : ConfigDefect → String
  | smallPool => "pool_size is below the minimum of 24 bytes"
  | emptySegment => "segment sizes must be > 0"
  | wideSegment => "segments must fit the 20 bit address offset"
  | manyRegisters => "register_count must be addressable by a one byte operand"

/-- The four parts a machine is built from. -/
inductive Part where
  | processor
  | memory
  | firmware
  | storage
  deriving DecidableEq, Repr

/-- The name of a part. -/
def Part.name : Part → String
  | processor => "processor"
  | memory => "memory"
  | firmware => "firmware"
  | storage => "storage"

/-- Everything that is reported to a caller. -/
inductive Error where
  | invalidArgument (misuse : Misuse)
  | outOfRange (index length : Nat)
  | outOfMemory (requested : Nat)
  | missingPart (part : Part)
  | disposed
  | addressing (address : UInt32)
  | scriptNotFound (name : String)
  | invalidImage (defect : ImageDefect)
  | invalidInstruction (opcode : UInt8)
  | invalidBranch (target : Int) (length : Nat)
  | unknownFunction (id : Int)
  | watchdog (elapsedMs thresholdMs : Nat)
  | crashed (thread : String)
  | invalidConfig (defect : ConfigDefect)
  | io (error : IoError)
  deriving DecidableEq, Repr

/-- The name under which errors of one cause are counted. -/
def Error.name : Error → String
  | invalidArgument _ => "InvalidArgument"
  | outOfRange _ _ => "OutOfRange"
  | outOfMemory _ => "OutOfMemory"
  | missingPart _ => "MissingPart"
  | disposed => "Disposed"
  | addressing _ => "AddressingError"
  | scriptNotFound _ => "ScriptNotFound"
  | invalidImage _ => "InvalidModule"
  | invalidInstruction _ => "InvalidInstruction"
  | invalidBranch _ _ => "InvalidBranch"
  | unknownFunction _ => "UnknownPeripheralFunction"
  | watchdog _ _ => "Watchdog"
  | crashed _ => "Panicked"
  | invalidConfig _ => "InvalidConfig"
  | io _ => "Io"

/-- The wording of an error. -/
def Error.message : Error → String
  | invalidArgument misuse => "invalid argument: " ++ misuse.message
  | outOfRange index length => s!"index {index} is out of range for a view of length {length}"
  | outOfMemory requested => s!"out of memory: no free run can hold {requested} cells"
  | missingPart part => "machine part '" ++ part.name ++ "' is missing"
  | disposed => "object has been disposed"
  | addressing address =>
    "address 0x" ++ hexUpper 8 address.toNat ++ " does not select a known segment"
  | scriptNotFound name => s!"script '{name}' was not found"
  | invalidImage defect => "invalid module: " ++ defect.message
  | invalidInstruction opcode => "invalid instruction opcode 0x" ++ hexUpper 2 opcode.toNat
  | invalidBranch target length =>
    s!"branch target {target} is outside a program of {length} instructions"
  | unknownFunction id => s!"unknown peripheral function id {id}"
  | watchdog elapsed threshold =>
    s!"watchdog expired after {elapsed}ms (threshold {threshold}ms)"
  | crashed thread => s!"thread '{thread}' panicked"
  | invalidConfig defect => "invalid configuration: " ++ defect.message
  | io error => "io error: " ++ error.message

/-- How an operation ends without a value. -/
inductive Fault where
  /-- The caller is told why. -/
  | error (cause : Error)
  /-- The calling thread does not survive. -/
  | crash
  deriving DecidableEq, Repr

/-- A refused request as an error. -/
def Error.misuse (m : Misuse) : Error := .invalidArgument m

end CellMachine
