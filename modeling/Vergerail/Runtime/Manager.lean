import Mathlib.Data.Finset.Card
import Mathlib.Data.Finset.Lattice.Basic
import Vergerail.Lib.Machine

/-!
# Resolvers on one runtime cache

`runtime/manager.rs`: `RuntimeResolver::resolve` without an explicit root and without
system discovery, run by any number of processes on one cache root. Each filesystem
operation is one step, and a run is any interleaving of the processes' steps. The
installation lock is a file lock: it is held as long as the open file is, so it is released
when `install_managed` returns and when its process dies.

A directory is known by its inode, which a rename keeps. Of its contents only the regular
files of the package are kept: the directories between them are created with their files
and removed with them.
-/

namespace Vergerail

open Lib

/-! ## The cache -/

/-- An entry of the downloaded archive. -/
structure ArchiveEntry (Artifact : Type) where
  /-- The path below the archive's prefix; no path without the prefix. -/
  relative : Option Artifact
  isFile : Bool

/-- `PinnedRuntime`: the artifacts of the package and the contents of the one archive that
passes the digest check of the download. -/
structure PinnedRuntime (Artifact : Type) where
  artifacts : List Artifact
  archive : List (ArchiveEntry Artifact)
  /-- `codex-package.json` -/
  manifest : Artifact
  /-- `bin/codex` -/
  entrypoint : Artifact

/-- A directory that holds a package or a part of one. -/
structure PackageDirectory (Artifact : Type) where
  inode : Nat
  /-- The artifacts whose bytes are all written. -/
  whole : Finset Artifact
  /-- The artifacts that were created and are not written to their end. -/
  partly : Finset Artifact

namespace PackageDirectory

variable {Artifact : Type} [DecidableEq Artifact]

/-- The files in the directory. -/
def files (d : PackageDirectory Artifact) : Finset Artifact := d.whole ∪ d.partly

/-- Every artifact of the package is extracted to its end. -/
def Complete (pinned : PinnedRuntime Artifact) (d : PackageDirectory Artifact) : Prop :=
  d.whole = pinned.artifacts.toFinset ∧ d.partly = ∅

/-- `create_new` -/
def create (d : PackageDirectory Artifact) (artifact : Artifact) : PackageDirectory Artifact :=
  { d with partly := insert artifact d.partly }

/-- `io::copy` and `sync_all` -/
def write (d : PackageDirectory Artifact) (artifact : Artifact) : PackageDirectory Artifact :=
  { d with whole := insert artifact d.whole, partly := d.partly.erase artifact }

def unlink (d : PackageDirectory Artifact) (artifact : Artifact) : PackageDirectory Artifact :=
  { d with whole := d.whole.erase artifact, partly := d.partly.erase artifact }

end PackageDirectory

/-- The cache root. A temporary artifact is named by its process id and the time, here in
one number. -/
structure RuntimeCache (Artifact : Type) where
  /-- What the managed final root names. -/
  finalRoot : Option (PackageDirectory Artifact)
  /-- The staging directories. -/
  staging : List (Nat × PackageDirectory Artifact)
  /-- The downloaded archives. -/
  archives : List Nat
  nextInode : Nat

/-! ## The operations of one resolver -/

/-- `remove_path`, before its next operation. -/
inductive Removal where
  /-- `symlink_metadata` -/
  | inspecting
  /-- `remove_dir_all` opens the directory. -/
  | opening
  /-- `remove_dir_all` removes what is in the directory it opened, and last the name. -/
  | emptying (inode : Nat)
  deriving DecidableEq

/-- `RuntimePackage::verify`, before its next operation. Its part before the launch is
`verify_filesystem`. -/
inductive Verification (Artifact : Type) where
  | inspecting
  /-- `verify_exact_file_set` still has to meet these artifacts on its walk. -/
  | listing (unseen : List Artifact)
  /-- These artifacts are still to be hashed. -/
  | hashing (left : List Artifact)
  | manifest
  /-- `verify_version_with_timeout` -/
  | launching

inductive DownloadPolicy where
  | never
  | ifMissing
  deriving DecidableEq

inductive RuntimeOrigin where
  | managedCache
  | downloaded
  deriving DecidableEq

/-- Where a call of `resolve` stands, before its next operation. -/
inductive ResolveStage (Artifact : Type) where
  /-- The managed root is to be inspected. -/
  | inspectingCache
  | verifyingCache (verification : Verification Artifact)
  /-- `install_managed`: the lock file is to be opened, then locked. -/
  | openingLock
  | locking
  | cleaningStale
  | inspectingRoot
  | verifyingLocked (verification : Verification Artifact)
  | removingInvalid (removal : Removal)
  | naming
  /-- `download_archive` -/
  | creatingArchive (unique : Nat)
  | receiving (unique : Nat)
  /-- `extract_runtime` -/
  | preparing (unique : Nat)
  | extracting (unique : Nat) (entries : List (ArchiveEntry Artifact))
    (extracted : Finset Artifact)
  | writing (unique : Nat) (relative : Artifact) (entries : List (ArchiveEntry Artifact))
    (extracted : Finset Artifact)
  | committing (unique : Nat)
  /-- `cleanup_installation_attempt`, with whether all succeeded so far. -/
  | clearingArchive (unique : Nat) (outcome : Bool)
  | clearingStaging (unique : Nat) (outcome : Bool)
  /-- The package `install_managed` returned is verified. -/
  | verifyingResult (verification : Verification Artifact) (installed : Bool)
  /-- `cleanup_failed_managed_verification` -/
  | discarding (removal : Removal)
  | returned (origin : RuntimeOrigin)
  | failed
  /-- The process died. -/
  | crashed

/-- Whether the open lock file is locked in this stage. -/
def ResolveStage.holdsLock {Artifact : Type} : ResolveStage Artifact → Bool
  | cleaningStale | inspectingRoot | verifyingLocked _ | removingInvalid _ | naming
  | creatingArchive _ | receiving _ | preparing _ | extracting _ _ _ | writing _ _ _ _
  | committing _ | clearingArchive _ _ | clearingStaging _ _ => true
  | _ => false

/-- How the next operation of a resolver goes. -/
inductive ResolveEvent (Artifact : Type) where
  /-- The operation is carried out on the cache as it is. -/
  | proceed
  /-- The operation fails. -/
  | fault
  /-- The version probe fails as `runtime.version`. -/
  | versionFault
  /-- The clock is read. -/
  | named (unique : Nat)
  /-- A removal unlinks a file of the directory it opened. -/
  | unlink (artifact : Artifact)
  /-- A cleanup unlinks an archive, a file of a staging directory or the directory. -/
  | unlinkArchive (unique : Nat)
  | unlinkStaged (unique : Nat) (artifact : Artifact)
  | removeStaged (unique : Nat)
  | crash
  deriving DecidableEq

section Operations

variable {Artifact : Type} [DecidableEq Artifact]

namespace RuntimeCache

def staged (cache : RuntimeCache Artifact) (unique : Nat) : Option (PackageDirectory Artifact) :=
  cache.staging.lookup unique

/-- Changes the directory with this name. -/
def updateStaged (cache : RuntimeCache Artifact) (unique : Nat)
    (change : PackageDirectory Artifact → PackageDirectory Artifact) : RuntimeCache Artifact :=
  { cache with
    staging := cache.staging.map fun s => if s.1 = unique then (s.1, change s.2) else s }

def eraseStaged (cache : RuntimeCache Artifact) (unique : Nat) : RuntimeCache Artifact :=
  { cache with staging := cache.staging.filter fun s => s.1 ≠ unique }

/-- `create_private_directory` of a staging root. -/
def createStaged (cache : RuntimeCache Artifact) (unique : Nat) : RuntimeCache Artifact :=
  if (cache.staged unique).isSome then cache
  else
    { cache with
      staging := (unique, { inode := cache.nextInode, whole := ∅, partly := ∅ }) :: cache.staging
      nextInode := cache.nextInode + 1 }

/-- `unlinkat` in a directory that was opened as the final root. -/
def unlink (cache : RuntimeCache Artifact) (inode : Nat) (artifact : Artifact) :
    RuntimeCache Artifact :=
  { cache with
    finalRoot := cache.finalRoot.map fun r => if r.inode = inode then r.unlink artifact else r }

/-- `fs::rename` of a staging directory to the final root. A directory may replace an empty
one only. -/
def rename (cache : RuntimeCache Artifact) (unique : Nat) : Option (RuntimeCache Artifact) :=
  match cache.staged unique with
  | none => none
  | some d =>
    if cache.finalRoot.all fun r => r.files = ∅ then
      some { cache.eraseStaged unique with finalRoot := some d }
    else none

end RuntimeCache

/-- What follows an operation of a verification or of a removal. -/
inductive Progress (σ : Type) where
  | more (next : σ)
  | ok
  /-- The error, by whether its operation is `runtime.version`. -/
  | error (version : Bool)

/-- An operation that is done, fails, or is not the one that happens. -/
def attempt {α : Type} (event : ResolveEvent Artifact) (done failed other : α) : α :=
  match event with
  | .proceed => done
  | .fault => failed
  | _ => other

namespace Verification

/-- Whether the next operation of the verification passes on this root. -/
def Passes (pinned : PinnedRuntime Artifact) (root : Option (PackageDirectory Artifact)) :
    Verification Artifact → Bool
  | inspecting => root.isSome
  | listing [] => true
  | listing (artifact :: _) => root.any fun r => artifact ∈ r.files
  | hashing [] => true
  | hashing (artifact :: _) => root.any fun r => artifact ∈ r.whole
  | manifest => root.any fun r => pinned.manifest ∈ r.whole
  | launching => root.any fun r => pinned.entrypoint ∈ r.whole

/-- What follows an operation that passed. -/
def next (pinned : PinnedRuntime Artifact) (probes : Bool) :
    Verification Artifact → Progress (Verification Artifact)
  | inspecting => .more (listing pinned.artifacts)
  | listing [] => .more (hashing pinned.artifacts)
  | listing (_ :: unseen) => .more (listing unseen)
  | hashing [] => .more manifest
  | hashing (_ :: left) => .more (hashing left)
  | manifest => if probes then .more launching else .ok
  | launching => .ok

/-- The entrypoint is only launched by the version probe. -/
def launches : Verification Artifact → Bool
  | launching => true
  | _ => false

/-- The next operation of `RuntimePackage::verify`, or of `verify_filesystem`, which does not
probe the version. -/
def advance (pinned : PinnedRuntime Artifact) (root : Option (PackageDirectory Artifact))
    (probes : Bool) (v : Verification Artifact) (event : ResolveEvent Artifact) :
    Progress (Verification Artifact) :=
  match event with
  | .proceed => if v.Passes pinned root then v.next pinned probes else .error v.launches
  | .fault => .error false
  | .versionFault => if v.launches then .error true else .more v
  | _ => .more v

end Verification

/-- The next operation of `remove_path` on the final root. -/
def Removal.advance (cache : RuntimeCache Artifact) (removal : Removal)
    (event : ResolveEvent Artifact) : Progress Removal × RuntimeCache Artifact :=
  match removal, event with
  | _, .fault => (.error false, cache)
  | .inspecting, .proceed =>
    (if cache.finalRoot.isSome then .more .opening else .error false, cache)
  | .opening, .proceed =>
    match cache.finalRoot with
    | some r => (.more (.emptying r.inode), cache)
    | none => (.error false, cache)
  | .emptying inode, .unlink artifact => (.more (.emptying inode), cache.unlink inode artifact)
  -- A name that is gone when it is to be removed last is no error.
  | .emptying _, .proceed =>
    if cache.finalRoot.all fun r => r.files = ∅ then (.ok, { cache with finalRoot := none })
    else (.error false, cache)
  | removal, _ => (.more removal, cache)

/-- One round of the loop of `extract_runtime` over the archive's entries, and what follows
the loop. -/
def extractEntry (pinned : PinnedRuntime Artifact) (cache : RuntimeCache Artifact)
    (unique : Nat) (entries : List (ArchiveEntry Artifact)) (extracted : Finset Artifact) :
    ResolveStage Artifact × RuntimeCache Artifact :=
  match entries with
  | [] =>
    if extracted.card = pinned.artifacts.toFinset.card then (.committing unique, cache)
    else (.clearingArchive unique false, cache)
  | entry :: entries =>
    match entry.relative with
    | none => (.extracting unique entries extracted, cache)
    | some relative =>
      if relative ∉ pinned.artifacts then (.extracting unique entries extracted, cache)
      else if entry.isFile = false ∨ relative ∈ extracted then
        (.clearingArchive unique false, cache)
      else if (cache.staged unique).any fun d => relative ∉ d.files then
        (.writing unique relative entries (insert relative extracted),
          cache.updateStaged unique fun d => d.create relative)
      else (.clearingArchive unique false, cache)

/-- What `resolve` does without a usable cached package. -/
def afterCache (policy : DownloadPolicy) : ResolveStage Artifact :=
  if policy = .never then .failed else .openingLock

/-- What `install_managed` returns once its attempt is cleaned up. -/
def afterAttempt (outcome : Bool) : ResolveStage Artifact :=
  if outcome then .verifyingResult .inspecting true else .failed

/-- A resolver's next operation. `free` is whether nobody holds the installation lock. -/
def ResolveStage.advance (pinned : PinnedRuntime Artifact) (policy : DownloadPolicy)
    (free : Bool) (stage : ResolveStage Artifact) (cache : RuntimeCache Artifact)
    (event : ResolveEvent Artifact) : ResolveStage Artifact × RuntimeCache Artifact :=
  match stage with
  | .inspectingCache =>
    attempt event
      (if cache.finalRoot.isSome then .verifyingCache .inspecting else afterCache policy, cache)
      (.failed, cache) (stage, cache)
  | .verifyingCache v =>
    match v.advance pinned cache.finalRoot true event with
    | .more v => (.verifyingCache v, cache)
    | .ok => (.returned .managedCache, cache)
    | .error true => (.failed, cache)
    | .error false => (afterCache policy, cache)
  | .openingLock => attempt event (.locking, cache) (.failed, cache) (stage, cache)
  | .locking =>
    attempt event (if free then .cleaningStale else stage, cache) (.failed, cache) (stage, cache)
  | .cleaningStale =>
    match event with
    | .unlinkArchive unique =>
      (stage, { cache with archives := cache.archives.filter fun u => u ≠ unique })
    | .unlinkStaged unique artifact =>
      (stage, cache.updateStaged unique fun d => d.unlink artifact)
    | .removeStaged unique =>
      (stage, if (cache.staged unique).all fun d => d.files = ∅ then cache.eraseStaged unique
        else cache)
    | event =>
      attempt event
        (if cache.staging = [] ∧ cache.archives = [] then .inspectingRoot else stage, cache)
        (.failed, cache) (stage, cache)
  | .inspectingRoot =>
    attempt event
      (if cache.finalRoot.isSome then .verifyingLocked .inspecting else .naming, cache)
      (.failed, cache) (stage, cache)
  | .verifyingLocked v =>
    match v.advance pinned cache.finalRoot false event with
    | .more v => (.verifyingLocked v, cache)
    | .ok => (.verifyingResult .inspecting false, cache)
    | .error _ => (.removingInvalid .inspecting, cache)
  | .removingInvalid removal =>
    match removal.advance cache event with
    | (.more removal, cache) => (.removingInvalid removal, cache)
    | (.ok, cache) => (.naming, cache)
    | (.error _, cache) => (.failed, cache)
  | .naming =>
    match event with
    | .named unique => (.creatingArchive unique, cache)
    | .fault => (.failed, cache)
    | _ => (stage, cache)
  | .creatingArchive unique =>
    attempt event
      (if unique ∈ cache.archives then (.clearingArchive unique false, cache)
        else (.receiving unique, { cache with archives := unique :: cache.archives }))
      (.clearingArchive unique false, cache) (stage, cache)
  | .receiving unique =>
    attempt event (.preparing unique, cache) (.clearingArchive unique false, cache) (stage, cache)
  | .preparing unique =>
    attempt event (.extracting unique pinned.archive ∅, cache.createStaged unique)
      (.clearingArchive unique false, cache) (stage, cache)
  | .extracting unique entries extracted =>
    attempt event (extractEntry pinned cache unique entries extracted)
      (.clearingArchive unique false, cache) (stage, cache)
  | .writing unique relative entries extracted =>
    attempt event
      (.extracting unique entries extracted, cache.updateStaged unique fun d => d.write relative)
      (.clearingArchive unique false, cache) (stage, cache)
  | .committing unique =>
    attempt event
      (match cache.rename unique with
        | some cache => (.clearingArchive unique true, cache)
        | none => (.clearingArchive unique false, cache))
      (.clearingArchive unique false, cache) (stage, cache)
  | .clearingArchive unique outcome =>
    attempt event
      (.clearingStaging unique outcome,
        { cache with archives := cache.archives.filter fun u => u ≠ unique })
      (.clearingStaging unique false, cache) (stage, cache)
  | .clearingStaging unique outcome =>
    match event with
    | .unlinkStaged other artifact =>
      (stage, if other = unique then cache.updateStaged unique fun d => d.unlink artifact
        else cache)
    | event =>
      attempt event
        (if (cache.staged unique).all fun d => d.files = ∅ then
            (afterAttempt outcome, cache.eraseStaged unique)
          else (stage, cache))
        (.failed, cache) (stage, cache)
  | .verifyingResult v installed =>
    match v.advance pinned cache.finalRoot true event with
    | .more v => (.verifyingResult v installed, cache)
    | .ok => (.returned (if installed then .downloaded else .managedCache), cache)
    | .error true => (.failed, cache)
    | .error false => (.discarding .inspecting, cache)
  | .discarding removal =>
    match removal.advance cache event with
    | (.more removal, cache) => (.discarding removal, cache)
    | (_, cache) => (.failed, cache)
  | .returned _ | .failed | .crashed => (stage, cache)

end Operations

/-! ## All resolvers -/

/-- What the resolvers are started with. -/
structure ManagerEnv (Artifact : Type) where
  pinned : PinnedRuntime Artifact
  policy : Nat → DownloadPolicy

/-- The resolvers on one cache root, by number. -/
structure ManagerWorld (Artifact : Type) where
  cache : RuntimeCache Artifact
  /-- Who holds the installation lock. -/
  lock : Option Nat
  stages : Nat → ResolveStage Artifact
  /-- History: the root whose verification under the lock failed for this resolver. -/
  foundInvalid : Nat → Option Nat

namespace ManagerWorld

variable {Artifact : Type} [DecidableEq Artifact]

/-- Nothing is installed and every resolver is about to start. -/
def init : ManagerWorld Artifact where
  cache := { finalRoot := none, staging := [], archives := [], nextInode := 0 }
  lock := none
  stages _ := .inspectingCache
  foundInvalid _ := none

/-- A process that dies does nothing more; one that returned is not a resolver any more. -/
def crash : ResolveStage Artifact → ResolveStage Artifact
  | .returned origin => .returned origin
  | .failed => .failed
  | _ => .crashed

/-- What the resolver's step leads to. -/
def moved (env : ManagerEnv Artifact) (w : ManagerWorld Artifact) (p : Nat)
    (event : ResolveEvent Artifact) : ResolveStage Artifact × RuntimeCache Artifact :=
  if event = .crash then (crash (w.stages p), w.cache)
  else (w.stages p).advance env.pinned (env.policy p) w.lock.isNone w.cache event

/-- The lock after a resolver moved: its open lock file lives as long as it is inside
`install_managed`. -/
def lockAfter (lock : Option Nat) (p : Nat) (after : ResolveStage Artifact) : Option Nat :=
  if after.holdsLock then some p else if lock = some p then none else lock

/-- The root that a resolver found invalid under the lock, after it moved. -/
def foundAfter (found : Option Nat) (root : Option (PackageDirectory Artifact))
    (before after : ResolveStage Artifact) : Option Nat :=
  match before, after with
  | .verifyingLocked _, .removingInvalid _ => root.map fun r => r.inode
  | _, _ => found

/-- One operation of one resolver. -/
def step (env : ManagerEnv Artifact) (w : ManagerWorld Artifact)
    (label : Nat × ResolveEvent Artifact) : ManagerWorld Artifact :=
  let moved := w.moved env label.1 label.2
  { cache := moved.2
    lock := lockAfter w.lock label.1 moved.1
    stages := Function.update w.stages label.1 moved.1
    foundInvalid := Function.update w.foundInvalid label.1
      (foundAfter (w.foundInvalid label.1) w.cache.finalRoot (w.stages label.1) moved.1) }

end ManagerWorld

/-- All interleavings of the resolvers. -/
def managerMachine {Artifact : Type} [DecidableEq Artifact] (env : ManagerEnv Artifact) :
    Machine (ManagerWorld Artifact) (Nat × ResolveEvent Artifact) where
  init := .init
  step := ManagerWorld.step env

end Vergerail
