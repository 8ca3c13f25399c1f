/-!
# File paths

A path is text with slashes. Its components are what is left when empty pieces and dots that stand
for the same directory are dropped; a slash at the front is a component of its own, and so is a dot
at the front of a relative path. The last component is the file name unless it is one of these or a
step to the parent.
-/

namespace CellMachine.Path

/-- One step of a path. -/
inductive Component where
  /-- The slash at the front. -/
  | root
  /-- The dot at the front. -/
  | current
  /-- A step to the parent directory. -/
  | parent
  | normal (name : String)
  deriving DecidableEq, Repr

/-- The pieces of a text between slashes. -/
def pieces : List Char → List (List Char)
  | [] => [[]]
  | c :: rest =>
    match pieces rest with
    | [] => [[]]
    | first :: others => if c = '/' then [] :: first :: others else (c :: first) :: others

/-- The component that a piece inside a path stands for, if any. -/
def component? (piece : List Char) : Option Component :=
  if piece = [] ∨ piece = ['.'] then none
  else if piece = ['.', '.'] then some .parent
  else some (.normal (String.ofList piece))

/-- The most bytes that one name in a path may have. -/
def nameLimit : Nat := 255

/-- The most bytes that a whole path may have. -/
def pathLimit : Nat := 4095

/-- Whether a path holds the character NUL, which ends a path for the system. -/
def hasNul (path : String) : Bool := path.toList.any (·.toNat = 0)

/-- Whether a path starts at the root. -/
def isAbsolute (path : String) : Bool := path.toList.head? = some '/'

/-- The components of a path. -/
def components (path : String) : List Component :=
  let ps := pieces path.toList
  let inner := ps.filterMap component?
  if isAbsolute path then .root :: inner
  else if ps.head? = some ['.'] then .current :: inner
  else inner

/-- The file name of a path. -/
def fileName? (path : String) : Option String :=
  match (components path).getLast? with
  | some (.normal name) => some name
  | _ => none

/-- What follows the last dot of a file name, the dot at its front not counted. -/
def extension? (name : String) : Option String :=
  let reversed := name.toList.reverse
  let after := reversed.takeWhile (· ≠ '.')
  match reversed.dropWhile (· ≠ '.') with
  | [] => none
  | [_] => none
  | _ :: _ :: _ => if name = ".." then none else some (String.ofList after.reverse)

/-- A reversed path without the slashes and dots at its end that mean nothing. -/
def trimReversed : List Char → List Char
  | '/' :: rest => trimReversed rest
  | '.' :: '/' :: rest => trimReversed rest
  | other => other

/-- A path without the slashes and dots at its end that mean nothing. -/
def trimmed (path : String) : String := String.ofList (trimReversed path.toList.reverse).reverse

/-- `path` as seen from the directory `base`: an absolute path replaces it. -/
def join (base path : String) : String :=
  if isAbsolute path then path
  else if base = "" then path
  else if base.toList.getLast? = some '/' then base ++ path
  else base ++ "/" ++ path

/-- The path with an extension after its file name; unchanged when it has no file name. -/
def withExtension (path extension : String) : String :=
  match fileName? path with
  | some _ => trimmed path ++ "." ++ extension
  | none => path

/-- The directory of a path that has a file name. -/
def parent (path : String) : String :=
  let above := ((trimmed path).toList.reverse.dropWhile (· ≠ '/'))
  let text := String.ofList (trimReversed above).reverse
  if text = "" ∧ isAbsolute path then "/" else text

end CellMachine.Path
