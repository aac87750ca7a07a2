import CircuitCompiler.Text.Bytes
import CircuitCompiler.Text.PathName

/-!
# File trees

A file tree is the state of the files a run reads and writes: directories and files under a root,
found by the elements of their paths. Names are looked up step by step, so a step through a missing
directory or through a file fails even where the cleaned name would not.
-/

namespace CircuitCompiler

/-- Why a file operation failed. -/
inductive FileFault where
  | missing
  | notDirectory
  | isDirectory
  deriving DecidableEq, Repr, Inhabited

/-- The system's wording of a fault. -/
def FileFault.text : FileFault → String
  | missing => "no such file or directory"
  | notDirectory => "not a directory"
  | isDirectory => "is a directory"

/-- A failed operation on a path. -/
structure FileError where
  operation : String
  path : String
  fault : FileFault
  deriving DecidableEq, Repr, Inhabited

/-- The error in one line. -/
def FileError.text (e : FileError) : String := e.operation ++ " " ++ e.path ++ ": " ++ e.fault.text

/-- What a path can lead to. -/
inductive FileNode where
  | dir
  | file (content : Bytes)
  deriving DecidableEq, Repr, Inhabited

/-- Directories and files by the elements of their absolute paths, with the directory in which
relative names start. The root exists always. -/
structure FileTree where
  cwd : List String
  entries : List (List String × FileNode)
  deriving DecidableEq, Repr, Inhabited

namespace FileTree

/-- The absolute name of the directory in which relative names start. -/
def cwdName (t : FileTree) : String := PathName.ofElements true t.cwd

/-- The node at a place. -/
def node? (t : FileTree) (place : List String) : Option FileNode :=
  if place.isEmpty then some .dir else t.entries.lookup place

/-- Follows the pieces of a name; every place but the last must be a directory. -/
def walk (t : FileTree) : List String → List String → Except FileFault (List String)
  | place, [] => .ok place
  | place, piece :: rest =>
    match t.node? place with
    | none => .error .missing
    | some (.file _) => .error .notDirectory
    | some .dir =>
      if piece == "" || piece == "." then walk t place rest
      else if piece == ".." then walk t place.dropLast rest
      else walk t (place ++ [piece]) rest

/-- The place a name leads to, whether or not something is there. -/
def locate (t : FileTree) (name : String) : Except FileFault (List String) :=
  if name == "" then .error .missing
  else t.walk (if PathName.isAbsolute name then [] else t.cwd) (PathName.pieces name)

/-- The node a name leads to. -/
def find (t : FileTree) (name : String) : Except FileFault FileNode := do
  match t.node? (← t.locate name) with
  | some n => .ok n
  | none => .error .missing

/-- The node a name leads to, or the error of asking for it. -/
def stat (t : FileTree) (name : String) : Except FileError FileNode :=
  match t.find name with
  | .ok n => .ok n
  | .error f => .error ⟨"stat", name, f⟩

/-- Whether a name leads to a directory. -/
def isDirectory (t : FileTree) (name : String) : Bool :=
  match t.find name with
  | .ok .dir => true
  | _ => false

/-- Whether a name leads anywhere. -/
def exists? (t : FileTree) (name : String) : Bool := (t.find name).toBool

/-- The bytes of a file. -/
def read (t : FileTree) (name : String) : Except FileError Bytes :=
  match t.find name with
  | .ok (.file content) => .ok content
  | .ok .dir => .error ⟨"read", name, .isDirectory⟩
  | .error f => .error ⟨"open", name, f⟩

/-- The tree with a node at a place, whatever was there. -/
def put (t : FileTree) (place : List String) (n : FileNode) : FileTree :=
  { t with entries := (t.entries.filter fun e => e.1 != place) ++ [(place, n)] }

/-- Writes a file into an existing directory. -/
def write (t : FileTree) (name : String) (content : Bytes) : Except FileError FileTree :=
  match t.locate name with
  | .error f => .error ⟨"open", name, f⟩
  | .ok place =>
    match t.node? place, t.node? place.dropLast with
    | some .dir, _ => .error ⟨"open", name, .isDirectory⟩
    | _, some .dir => .ok (t.put place (.file content))
    | _, some (.file _) => .error ⟨"open", name, .notDirectory⟩
    | _, none => .error ⟨"open", name, .missing⟩

/-- The non-empty fronts of a list, shortest first. -/
def fronts : List String → List (List String)
  | [] => []
  | x :: rest => [x] :: (fronts rest).map (x :: ·)

/-- The tree with all directories up to a place; nothing there may be a file. -/
def putDirs (t : FileTree) (place : List String) : FileTree :=
  (fronts place).foldl (fun t p => if (t.node? p).isSome then t else t.put p .dir) t

/-- Makes the directories on the way along the pieces of a name, from a place that the pieces `done`
led to. The error names the part of the way that is a file. -/
def makeDirsFrom (t : FileTree) (place done : List String) : List String → Except FileError FileTree
  | [] => .ok t
  | piece :: rest =>
    let done := done ++ [piece]
    if piece == "" || piece == "." then makeDirsFrom t place done rest
    else if piece == ".." then makeDirsFrom t place.dropLast done rest
    else
      let next := place ++ [piece]
      match t.node? next with
      | some (.file _) => .error ⟨"mkdir", String.intercalate "/" done, .notDirectory⟩
      | some .dir => makeDirsFrom t next done rest
      | none => makeDirsFrom (t.put next .dir) next done rest

/-- Makes a directory and those above it. -/
def makeDirs (t : FileTree) (name : String) : Except FileError FileTree :=
  if name == "" then .error ⟨"mkdir", name, .missing⟩
  else t.makeDirsFrom (if PathName.isAbsolute name then [] else t.cwd) [] (PathName.pieces name)

/-- Adds a file with the directories above it. -/
def plant (t : FileTree) (place : List String) (content : Bytes) : FileTree :=
  (t.putDirs place.dropLast).put place (.file content)

/-- Removes a place with everything below it. -/
def remove (t : FileTree) (place : List String) : FileTree :=
  { t with entries := t.entries.filter fun e => !place.isPrefixOf e.1 }

/-- The files below a place, each with the elements that lead to it from there. -/
def filesBelow (t : FileTree) (place : List String) : List (List String × Bytes) :=
  t.entries.filterMap fun e =>
    match e.2 with
    | .file content =>
      if place.isPrefixOf e.1 && place.length < e.1.length then
        some (e.1.drop place.length, content)
      else none
    | .dir => none

end FileTree
end CircuitCompiler
