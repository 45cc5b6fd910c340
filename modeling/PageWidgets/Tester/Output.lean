import PageWidgets.Text.Split

/-! Files that a report is written to: why one cannot be created or filled. A path is followed name by name, and
    the first name that leads nowhere decides; what stands where is known for some paths only, and nothing
    stands anywhere else. -/

namespace PageWidgets
namespace Tester

/-- Why a file cannot be created, or filled. -/
inductive OutputFault where
  | noFolder
  | notFolder
  | isFolder
  | longName
  | full
  | other (text : String)
  deriving DecidableEq, Repr

namespace OutputFault

/-- The message of the system on a fault. -/
def cause : OutputFault → String
  | .noFolder => "No such file or directory (os error 2)"
  | .notFolder => "Not a directory (os error 20)"
  | .isFolder => "Is a directory (os error 21)"
  | .longName => "File name too long (os error 36)"
  | .full => "No space left on device (os error 28)"
  | .other text => text

/-- The messages on a fault, the outermost first. A file that is full was created before. -/
def messages (f : OutputFault) (path : String) : List String :=
  if f = .full then [f.cause] else ["failed to create " ++ path, f.cause]

end OutputFault

namespace Output

/-! ### Places -/

/-- What stands at a place: a folder, a file, or a file that takes nothing. -/
inductive Standing where
  | folder
  | file
  | fullFile
  deriving DecidableEq, Repr

/-- A place, by the names that lead to it from the root or from the working folder. Only names at the front can
    be `..`, and none is when the way starts at the root. -/
structure Place where
  atRoot : Bool
  names : List String
  deriving DecidableEq, Repr

namespace Place

/-- The folder around a place. The root has none around it. -/
def up (p : Place) : Place :=
  if p.names.all (· = "..") then if p.atRoot then p else { p with names := ".." :: p.names }
  else { p with names := p.names.dropLast }

/-- The place with a name in a folder. -/
def down (p : Place) (name : String) : Place := { p with names := p.names ++ [name] }

end Place

/-- The names on a path. -/
def pathNames (path : String) : List String := ((Text.split '/' path.toList).map String.ofList).filter (· ≠ "")

/-- Where a path starts. -/
def pathStart (path : String) : Place := ⟨path.toList.head? = some '/', []⟩

/-- What stands at a place. The root, the working folder and the folders above it are always there. -/
def standing? (known : List (String × Standing)) (p : Place) : Option Standing :=
  if p.names.all (· = "..") then some .folder
  else (known.find? fun (path, _) => p = ⟨(pathStart path).atRoot, pathNames path⟩).map (·.2)

/-! ### Paths -/

/-- The most bytes of a name. -/
def nameLimit : Nat := 255

/-- The most bytes of a path. -/
def pathLimit : Nat := 4095

/-- The folder that a name leads to from a folder. -/
def enter (known : List (String × Standing)) (p : Place) (name : String) : Except OutputFault Place :=
  if name = "." then .ok p
  else if name = ".." then .ok p.up
  else if nameLimit < name.utf8ByteSize then .error .longName
  else
    match standing? known (p.down name) with
    | none => .error .noFolder
    | some .folder => .ok (p.down name)
    | some _ => .error .notFolder

/-- The file that a name leads to from a folder, whether it is there or not. -/
def fileAt (known : List (String × Standing)) (p : Place) (name : String) : Except OutputFault Place :=
  if name = "." ∨ name = ".." then .error .isFolder
  else if nameLimit < name.utf8ByteSize then .error .longName
  else if standing? known (p.down name) = some .folder then .error .isFolder
  else .ok (p.down name)

/-- The place of a file that can be created at a path. A path with a slash at its end means a folder. -/
def place (known : List (String × Standing)) (path : String) : Except OutputFault Place :=
  if path.isEmpty then .error .noFolder
  else if path.toList.contains '\x00' then .error (.other "file name contained an unexpected NUL byte")
  else if pathLimit < path.utf8ByteSize then .error .longName
  else
    match (pathNames path).dropLast.foldlM (enter known) (pathStart path) with
    | .error f => .error f
    | .ok folder =>
      match (pathNames path).getLast? with
      | none => .error .isFolder
      | some name => if path.toList.getLast? = some '/' then .error .isFolder else fileAt known folder name

/-- Accepts a path at which a file can be created. -/
def check (known : List (String × Standing)) (path : String) : Except OutputFault Unit :=
  (place known path).map fun _ => ()

/-- Accepts a path at which a file can be created and filled. -/
def checkFilled (known : List (String × Standing)) (path : String) : Except OutputFault Unit :=
  match place known path with
  | .error f => .error f
  | .ok p => if standing? known p = some .fullFile then .error .full else .ok ()

end Output
end Tester
end PageWidgets
