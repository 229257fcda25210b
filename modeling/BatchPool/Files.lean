import BatchPool.Failure
import BatchPool.Json.Input

/-!
# Files

The part of a file system that a run can see.

* `FileOps`: what a program may do with files, in any monad.
* `FileTree`: a small tree of directories, files and devices, for runs without a disk. Paths are
  resolved component by component; `FileTree.ops` are the operations on it.
-/

namespace BatchPool

/-- What a program may do with files. `H` is what an open file is known by. -/
structure FileOps (m : Type → Type) (H : Type) where
  /-- Opens a file for reading. -/
  openFile : String → m (Except OsError H)
  /-- The bytes that a file serves, and whether it fails behind them. -/
  contents : H → m (Bytes × Ending)
  /-- Opens a file for writing, empty. -/
  create : String → m (Except OsError H)
  /-- Writes at the end of a file. -/
  append : H → Bytes → m (Except OsError Unit)
  /-- The standard output. -/
  standardOutput : H

/-- A device: one that takes everything and is empty, one that is always full, and the standard
output. -/
inductive Device where
  | null
  | full
  | output
  deriving Repr, DecidableEq

/-- What stands at a path. -/
inductive Node where
  | directory
  | file (content : Bytes)
  | device (d : Device)
  deriving Repr, DecidableEq

/-- Directories, files and devices by their absolute paths, and what was written to the standard
output. Relative paths start in `workingDirectory`. -/
structure FileTree where
  nodes : List (List String × Node)
  workingDirectory : List String := []
  output : Bytes := []
  deriving Repr

namespace FileTree

/-- The devices and directories that are always there. -/
def base : FileTree where
  nodes := [
    ([], .directory), (["dev"], .directory), (["tmp"], .directory), (["etc"], .directory),
    (["proc"], .directory), (["usr"], .directory), (["root"], .directory), (["home"], .directory),
    (["dev", "null"], .device .null), (["dev", "full"], .device .full),
    (["dev", "stdout"], .device .output)]

/-- What stands at a path. -/
def find? (t : FileTree) (path : List String) : Option Node := t.nodes.lookup path

/-- The tree with a node at a path. -/
def put (t : FileTree) (path : List String) (node : Node) : FileTree :=
  { t with nodes := (path, node) :: t.nodes.filter fun p => p.1 ≠ path }

/-- Walks one component further: a directory has to be there. -/
def step (t : FileTree) (path : List String) (component : String) :
    Except OsError (List String) :=
  match t.find? path with
  | none => .error .notFound
  | some .directory =>
    if component = "" ∨ component = "." then .ok path
    else if component = ".." then .ok path.dropLast
    else .ok (path ++ [component])
  | some _ => .error .notDirectory

/-- Walks along components. -/
def walk (t : FileTree) (path : List String) : List String → Except OsError (List String)
  | [] => .ok path
  | c :: cs =>
    match t.step path c with
    | .error e => .error e
    | .ok path => walk t path cs

/-- The absolute path that a text names. The last component need not be there. -/
def resolve (t : FileTree) (text : String) : Except OsError (List String) :=
  if text = "" then .error .notFound
  else
    match text.splitOn "/" with
    | "" :: rest => t.walk [] rest
    | components => t.walk t.workingDirectory components

/-- Opens a path for reading. -/
def openFile (t : FileTree) (text : String) : Except OsError (List String) :=
  match t.resolve text with
  | .error e => .error e
  | .ok path =>
    match t.find? path with
    | none => .error .notFound
    | some _ => .ok path

/-- The bytes that a path serves. A directory fails at once. -/
def contents (t : FileTree) (path : List String) : Bytes × Ending :=
  match t.find? path with
  | some (.file bytes) => (bytes, .closed)
  | some .directory => ([], .broken OsError.isDirectory.message)
  | some (.device .full) => ([0], .closed)
  | _ => ([], .closed)

/-- A path without the slashes at its end. -/
def withoutSlashes (text : String) : String :=
  String.ofList (text.toList.reverse.dropWhile (· = '/')).reverse

/-- Opens a path for writing, empty. A slash at its end says that a directory is meant. -/
def create (t : FileTree) (text : String) : Except OsError (List String × FileTree) :=
  let bare := withoutSlashes text
  match t.resolve (if bare = "" then text else bare) with
  | .error e => .error e
  | .ok path =>
    if bare ≠ text then .error .isDirectory
    else
      match t.find? path with
      | some .directory => .error .isDirectory
      | some (.device _) => .ok (path, t)
      | some (.file _) => .ok (path, t.put path (.file []))
      | none => .ok (path, t.put path (.file []))

/-- Writes at the end of what stands at a path. -/
def append (t : FileTree) (path : List String) (bytes : Bytes) : Except OsError FileTree :=
  match t.find? path with
  | some (.file old) => .ok (t.put path (.file (old ++ bytes)))
  | some (.device .full) => if bytes = [] then .ok t else .error .noSpace
  | some (.device .output) => .ok { t with output := t.output ++ bytes }
  | _ => .ok t

/-- The operations on a tree. -/
def ops : FileOps (StateM FileTree) (List String) where
  openFile text := do return (← get).openFile text
  contents path := do return (← get).contents path
  create text := do
    match (← get).create text with
    | .error e => return .error e
    | .ok (path, t) => set t; return .ok path
  append path bytes := do
    match (← get).append path bytes with
    | .error e => return .error e
    | .ok t => set t; return .ok ()
  standardOutput := ["dev", "stdout"]

end FileTree

end BatchPool
