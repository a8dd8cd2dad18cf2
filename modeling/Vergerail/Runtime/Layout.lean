import Mathlib.Data.BitVec
import Vergerail.Error
import Vergerail.Lib.Checked

/-!
# The file set of a runtime package

`verify_exact_file_set` and `verify_secure_permissions` of `src/runtime.rs`, over a tree of
filesystem entries. Paths are the names on the way from the package's root; what the code
knows as a path is the root followed by them.
-/

namespace Vergerail

open Lib (orFault refuse)

/-! ## The filesystem -/

/-- A filesystem entry with its mode. -/
inductive FsNode where
  | file (mode : BitVec 32)
  | symlink (mode : BitVec 32)
  /-- A socket, a pipe or a device. -/
  | other (mode : BitVec 32)
  /-- A directory, with its entries in the order in which they are listed. -/
  | directory (mode : BitVec 32) (entries : List (String × FsNode))

namespace FsNode

def mode : FsNode → BitVec 32
  | file mode | symlink mode | other mode | directory mode _ => mode

/-- The entry at a path. -/
def find : FsNode → List String → Option FsNode
  | node, [] => some node
  | directory _ entries, name :: path =>
    match entries.lookup name with
    | some node => node.find path
    | none => none
  | _, _ :: _ => none

/-- The entries of the directory at a path: `fs::read_dir`. -/
def readDir (root : FsNode) (path : List String) : Option (List (String × FsNode)) :=
  match root.find path with
  | some (directory _ entries) => some entries
  | _ => none

/-- No directory has two entries of one name. -/
inductive WellNamed : FsNode → Prop
  | file (mode : BitVec 32) : WellNamed (file mode)
  | symlink (mode : BitVec 32) : WellNamed (symlink mode)
  | other (mode : BitVec 32) : WellNamed (other mode)
  | directory {mode : BitVec 32} {entries : List (String × FsNode)}
      (distinct : (entries.map Prod.fst).Nodup) (named : ∀ entry ∈ entries, WellNamed entry.2) :
      WellNamed (directory mode entries)

end FsNode

/-- A directory and everything below it. -/
structure FileTree where
  mode : BitVec 32
  entries : List (String × FsNode)
  named : (FsNode.directory mode entries).WellNamed

/-- The directory of a tree. -/
def FileTree.root (tree : FileTree) : FsNode := .directory tree.mode tree.entries

/-! ## The lock -/

/-- A path that `validate_relative_path` accepts: normal components only. -/
structure RelativePath where
  components : List String
  nonempty : components ≠ []
  normal : ∀ name ∈ components, name ∉ ["", ".", ".."] ∧ '/' ∉ name.toList

/-- The artifact paths of a `RuntimeLock`: no two are the same. -/
structure ArtifactPaths where
  paths : List RelativePath
  distinct : (paths.map (·.components)).Nodup

/-- What the verification of a package works with. -/
structure PackageLayout where
  /-- Where the package is. -/
  place : String
  tree : FileTree
  artifacts : ArtifactPaths
  /-- What the `n`-th checkpoint finds in `VerificationControl::cancelled`. -/
  cancelled : Nat → Bool

namespace PackageLayout

/-- A path below the root, as an error shows it. -/
def display (path : List String) : String := "/".intercalate path

/-- `expected_files`. -/
def expectedFiles (layout : PackageLayout) : List (List String) :=
  layout.artifacts.paths.map (·.components)

/-- The inner loop over the parents of an artifact: the path and its parents are inserted. -/
def insertParents (directories : List (List String)) (current : List String) :
    List (List String) :=
  if current = [] then directories
  else insertParents (current :: directories) current.dropLast
termination_by current.length
decreasing_by
  have := List.length_pos_iff.mpr ‹current ≠ []›
  rw [List.length_dropLast]
  omega

/-- `expected_directories`. -/
def expectedDirectories (layout : PackageLayout) : List (List String) :=
  layout.artifacts.paths.foldl
    (fun directories path => insertParents directories path.components.dropLast)
    [["bin"], ["codex-path"], ["codex-resources"]]

/-- A failure of `verify_exact_file_set`. -/
def layoutError (message : String) : Error := Error.new .runtimeVerification "runtime.layout" message

/-- A failure of `verify_secure_permissions`. -/
def permissionsError (message : String) : Error :=
  Error.new .runtimeVerification "runtime.permissions" message

/-- A path, as the code has it. -/
def fullPath (layout : PackageLayout) (path : List String) : String :=
  display (layout.place :: path)

/-- `verify_secure_permissions`. -/
def verifySecurePermissions (layout : PackageLayout) (path : List String) (executable : Bool) :
    Result Unit := do
  let node ← orFault (layout.tree.root.find path) (permissionsError "No such file or directory")
  refuse (node.mode &&& 0o022 ≠ 0)
    (permissionsError (layout.fullPath path ++ " is writable by group or others"))
  refuse (executable && node.mode &&& 0o111 = 0)
    (permissionsError (layout.fullPath path ++ " is not executable"))

/-- The variables of the loop, and which directories it has taken from the list. -/
structure Walk where
  observedFiles : List (List String)
  observedDirectories : List (List String)
  /-- `pending`, the top first. -/
  pending : List (List String)
  checkpoints : Nat
  visited : List (List String)

/-- `VerificationControl::checkpoint`. -/
def checkpoint (layout : PackageLayout) (walk : Walk) : Result Walk := do
  refuse (layout.cancelled walk.checkpoints) (Error.timeout "runtime.layout" 0)
  pure { walk with checkpoints := walk.checkpoints + 1 }

/-- One pass of the loop over the entries of a directory. -/
def visitEntry (layout : PackageLayout) (directory : List String) (walk : Walk)
    (entry : String × FsNode) : Result Walk := do
  let walk ← checkpoint layout walk
  let relative := directory ++ [entry.1]
  match entry.2 with
  | .symlink _ =>
      .error (layoutError ("symbolic links are not accepted: " ++ display relative))
  | .directory _ _ => do
      refuse (relative ∉ layout.expectedDirectories)
        (layoutError ("unexpected runtime directory: " ++ display relative))
      verifySecurePermissions layout relative false
      pure { walk with
        observedDirectories := relative :: walk.observedDirectories
        pending := relative :: walk.pending }
  | .other _ => .error (layoutError ("unsupported filesystem entry: " ++ display relative))
  | .file _ => do
      refuse (relative ∉ layout.expectedFiles)
        (layoutError ("unexpected runtime file: " ++ display relative))
      pure { walk with observedFiles := relative :: walk.observedFiles }

/-- One pass of the loop over `pending`. -/
def visitDirectory (layout : PackageLayout) (walk : Walk) (directory : List String)
    (pending : List (List String)) : Result Walk := do
  let walk ← checkpoint layout
    { walk with pending := pending, visited := directory :: walk.visited }
  let entries ← orFault (layout.tree.root.readDir directory)
    (layoutError ("cannot read " ++ layout.fullPath directory ++ ": Not a directory"))
  entries.foldlM (visitEntry layout directory) walk

/-- The loop over `pending`; none where it does not end in so many passes. -/
def walkFrom (layout : PackageLayout) : Nat → Walk → Option (Result Walk)
  | 0, _ => none
  | fuel + 1, walk =>
    match walk.pending with
    | [] => some (.ok walk)
    | directory :: pending =>
      match visitDirectory layout walk directory pending with
      | .error error => some (.error error)
      | .ok walk => walkFrom layout fuel walk

/-- The loop starts with the root of the package. -/
def start : Walk where
  observedFiles := []
  observedDirectories := []
  pending := [[]]
  checkpoints := 0
  visited := []

/-- `==` of two sets. -/
def sameSet (observed expected : List (List String)) : Bool :=
  observed.all (fun path => path ∈ expected) && expected.all (fun path => path ∈ observed)

/-- The expected paths that were not observed. -/
def missing (observed expected : List (List String)) : String :=
  ", ".intercalate ((expected.filter (fun path => path ∉ observed)).map display)

/-- The comparison after the loop. -/
def compare (layout : PackageLayout) (walk : Walk) : Result Unit := do
  refuse (!sameSet walk.observedFiles layout.expectedFiles)
    (layoutError ("runtime package is missing locked files: "
      ++ missing walk.observedFiles layout.expectedFiles))
  refuse (!sameSet walk.observedDirectories layout.expectedDirectories)
    (layoutError ("runtime package is missing locked directories: "
      ++ missing walk.observedDirectories layout.expectedDirectories))

/-- `verify_exact_file_set`, in so many passes. -/
def verifyExactFileSet (layout : PackageLayout) (fuel : Nat) : Option (Result Unit) :=
  (walkFrom layout fuel start).map (fun walked => do layout.compare (← walked))

end PackageLayout

end Vergerail
