import CellMachine.Error
import CellMachine.Storage.Path

/-!
# Trees of files

Files and directories around a working directory, kept in memory. A directory exists when it was put
there or something lies below it, and so do the directories above the working directory. Going
through a file or into a directory that does not exist is refused, and so is a name that is too long
once the way has led to it. Below the root that absolute paths start at there is nothing.

A place is known by the names that lead to it from the working directory; a step up that leaves the
working directory behind is written as two dots in front of them.
-/

namespace CellMachine

/-- Files and directories by the names that lead to them. -/
structure FileTree where
  /-- Paths with the bytes of a file, or with none for a directory; newer entries come first. -/
  entries : List (List String × Option (List UInt8)) := []
  deriving Repr

namespace FileTree

/-- What a path leads to. -/
inductive Node where
  | file (bytes : List UInt8)
  | directory
  deriving DecidableEq, Repr

/-- Whether one list of names starts with another. -/
def startsWith : (front names : List String) → Bool
  | [], _ => true
  | _, [] => false
  | a :: front, b :: names => a = b && startsWith front names

/-- Whether names lead to the working directory or to one above it. -/
def isAncestor (names : List String) : Bool := names.all (· = "..")

/-- The names that lead to the parent directory. -/
def parentOf (names : List String) : List String :=
  if isAncestor names then names ++ [".."] else names.dropLast

/-- What lies at the end of a list of names. -/
def node? (t : FileTree) (names : List String) : Option Node :=
  match t.entries.lookup names with
  | some (some bytes) => some (.file bytes)
  | some none => some .directory
  | none =>
    if isAncestor names || t.entries.any fun e => startsWith names e.1 then some .directory
    else none

/-- A place reached on the way along a path: one known by its names, or the root. -/
inductive Place where
  | named (names : List String)
  | root
  deriving DecidableEq, Repr

/-- What lies at a place. -/
def at? (t : FileTree) : Place → Option Node
  | .named names => t.node? names
  | .root => some .directory

/-- The name that a piece of a path is, unless it is too long for one. -/
def nameOf (piece : List Char) : Except IoError String :=
  let name := String.ofList piece
  if name.utf8ByteSize ≤ Path.nameLimit then .ok name else .error .nameTooLong

/-- Goes along the pieces of a path. Every place that is left has to be a directory. -/
def walk (t : FileTree) : Place → List (List Char) → Except IoError Place
  | place, [] => .ok place
  | place, piece :: rest =>
    match t.at? place with
    | none => .error .noSuchFile
    | some (.file _) => .error .notADirectory
    | some .directory =>
      if piece = [] ∨ piece = ['.'] then t.walk place rest
      else if piece = ['.', '.'] then
        match place with
        | .named names => t.walk (.named (parentOf names)) rest
        | .root => t.walk .root rest
      else
        match nameOf piece, place with
        | .error e, _ => .error e
        | .ok name, .named names => t.walk (.named (names ++ [name])) rest
        | .ok _, .root => .error .noSuchFile

/-- Where a path starts. -/
def startOf (path : String) : Place := if Path.isAbsolute path then .root else .named []

/-- What is wrong with a path whatever the tree holds. -/
def defect? (path : String) : Option IoError :=
  if Path.hasNul path then some .nulInPath
  else if Path.pathLimit < path.utf8ByteSize then some .nameTooLong
  else if path = "" then some .noSuchFile
  else none

/-- The bytes of the file at a path. -/
def read (t : FileTree) (path : String) : Except IoError (List UInt8) :=
  match defect? path with
  | some e => .error e
  | none =>
    match t.walk (startOf path) (Path.pieces path.toList) with
    | .error e => .error e
    | .ok place =>
      match t.at? place with
      | none => .error .noSuchFile
      | some (.file bytes) => .ok bytes
      | some .directory => .error .isADirectory

/-- The pieces of a path without the slashes at its end, and whether there were any. -/
def trimmed (path : String) : List (List Char) × Bool :=
  let pieces := Path.pieces path.toList
  let kept := (pieces.reverse.dropWhile (· = [])).reverse
  (kept, kept.length ≠ pieces.length)

/-- The tree with a file written at a path; its directory has to exist. -/
def write (t : FileTree) (path : String) (bytes : List UInt8) : Except IoError FileTree :=
  match defect? path with
  | some e => .error e
  | none =>
    let (pieces, slash) := trimmed path
    let last := pieces.getLast?.getD []
    match t.walk (startOf path) pieces.dropLast with
    | .error e => .error e
    | .ok place =>
      match t.at? place with
      | none => .error .noSuchFile
      | some (.file _) => .error .notADirectory
      | some .directory =>
        if slash ∨ last = ['.'] ∨ last = ['.', '.'] then .error .isADirectory
        else
          match nameOf last, place with
          | .error e, _ => .error e
          | .ok _, .root => .error .noSuchFile
          | .ok name, .named names =>
            let target := names ++ [name]
            match t.node? target with
            | some .directory => .error .isADirectory
            | _ => .ok ⟨(target, some bytes) :: t.entries⟩

/-- Where the components of a relative path lead from a list of names, and the directories that
were left again on the way. -/
def follow : List String → List Path.Component → List String × List (List String)
  | names, [] => (names, [])
  | names, .normal name :: rest => follow (names ++ [name]) rest
  | names, .parent :: rest =>
    let (target, left) := follow (parentOf names) rest
    (target, names :: left)
  | names, _ :: rest => follow names rest

/-- The tree with a file or, for a path that ends in a slash, a directory put at a relative path;
the directories on the way come into being. -/
def put (t : FileTree) (path : String) (bytes : List UInt8) : FileTree :=
  let (names, left) := follow [] (Path.components path)
  let content := if path.toList.getLast? = some '/' then none else some bytes
  ⟨(names, content) :: (left.map fun names => (names, none)) ++ t.entries⟩

end FileTree

end CellMachine
