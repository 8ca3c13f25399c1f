import CellMachine.Error
import CellMachine.Storage.Path

/-!
# Storage

Where a machine loads images from: a table in memory, by name, or a directory of files. A file's
path is the name seen from the root directory, with the usual extension when it has none.
-/

namespace CellMachine

/-- The source of images. -/
inductive Storage where
  /-- Images by name; newer entries come first. -/
  | table (images : List (String × List UInt8))
  /-- Files below a root directory, with the way to read one. -/
  | directory (root : String) (read : String → Except IoError (List UInt8))

namespace Storage

/-- The extension of image files. -/
def imageExtension : String := "brm"

/-- The path of an image below a root directory. -/
def resolve (root name : String) : String :=
  let full := Path.join root name
  match (Path.fileName? full).bind Path.extension? with
  | some _ => full
  | none => Path.withExtension full imageExtension

/-- The bytes of an image. -/
def load (s : Storage) (name : String) : Except Error (List UInt8) :=
  match s with
  | .table images =>
    match images.lookup name with
    | some bytes => .ok bytes
    | none => .error (.scriptNotFound name)
  | .directory root read =>
    let full := resolve root name
    match read full with
    | .ok bytes => .ok bytes
    | .error .noSuchFile => .error (.scriptNotFound full)
    | .error e => .error (.io e)

/-- Adds an image to a table. -/
def insert (s : Storage) (name : String) (bytes : List UInt8) : Storage :=
  match s with
  | .table images => .table ((name, bytes) :: images)
  | s => s

/-- Forgets the images of a table. -/
def dispose (s : Storage) : Storage :=
  match s with
  | .table _ => .table []
  | s => s

end Storage

end CellMachine
