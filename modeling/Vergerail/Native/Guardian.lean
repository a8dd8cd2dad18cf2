import Mathlib.Data.List.Basic

/-!
# The guardian's teardown

`src/native/vergerail_guardian.c`: the observation of the leader, the scan of its private
process group, the signals, and the teardown that is built from them.

The operating system moves between any two system calls. A `Turn` is what happens right
before one call: any number of forks and exits, and, for a call that kills, who outlives
it. A run of the guardian against a list of turns is one interleaving; when the list is
used up nothing more happens. The calls are atomic, and none fails for a reason of its own:
`getpgid` knows no dead leader, and `killpg` knows no empty group.
-/

namespace Vergerail

/-- `pid_t`. -/
abbrev Pid := Nat

/-- `si_code` and `si_status` of a dead leader. -/
inductive LeaderEnd where
  | exited (code : Nat)
  | killed (signal : Nat)
  deriving DecidableEq, Repr

/-- The leader and its private process group. -/
structure Group where
  leader : Pid
  /-- How the leader ended. -/
  leaderEnd : Option LeaderEnd
  /-- The other live members. -/
  members : List Pid
  apart : leader ∉ members
  deriving DecidableEq

/-- What a process of the group can do. -/
inductive Move where
  | leaderForks (child : Pid)
  | memberForks (parent child : Pid)
  | memberExits (pid : Pid)
  | leaderExits (how : LeaderEnd)
  deriving DecidableEq

/-- What happens right before a system call. -/
structure Turn where
  moves : List Move
  /-- The members that outlive a kill. -/
  survivors : List Pid
  /-- The leader outlives a kill. -/
  leaderSurvives : Bool
  deriving DecidableEq

namespace Group

/-- A new process joins the group. -/
def join (g : Group) (child : Pid) (h : child ≠ g.leader) : Group :=
  { g with members := child :: g.members, apart := by simp [h.symm, g.apart] }

/-- One move; a process that is not alive makes none, and a new pid is new. -/
def move (g : Group) : Move → Group
  | .leaderForks child =>
      if h : child ≠ g.leader then
        if g.leaderEnd = none ∧ child ∉ g.members then g.join child h else g
      else g
  | .memberForks parent child =>
      if h : child ≠ g.leader then
        if parent ∈ g.members ∧ child ∉ g.members then g.join child h else g
      else g
  | .memberExits pid =>
      { g with
        members := g.members.filter (· ≠ pid)
        apart := fun h => g.apart (List.mem_of_mem_filter h) }
  | .leaderExits how => if g.leaderEnd = none then { g with leaderEnd := some how } else g

def moves (g : Group) (ms : List Move) : Group := ms.foldl move g

/-- The processes that join the group in some moves, oldest first. -/
def joins (g : Group) : List Move → List Pid
  | [] => []
  | m :: ms => (g.move m).members.filter (· ∉ g.members) ++ (g.move m).joins ms

/-- The group after some turns in which nobody kills. -/
def after (g : Group) (turns : List Turn) : Group := turns.foldl (fun g turn => g.moves turn.moves) g

/-- `SIGKILL` reaches every live process of the group. -/
def kill (g : Group) (turn : Turn) : Group :=
  { g with
    members := g.members.filter (· ∈ turn.survivors)
    apart := fun h => g.apart (List.mem_of_mem_filter h)
    leaderEnd :=
      if g.leaderEnd = none ∧ turn.leaderSurvives = false then some (.killed 9) else g.leaderEnd }

end Group

/-- The `errno` values that the guardian looks at or sets. -/
inductive Errno where
  | none
  | esrch
  | eperm
  | eagain
  | etimedout
  | echild
  deriving DecidableEq, Repr

inductive Signal where
  | sigterm
  | sigkill
  deriving DecidableEq, Repr

/-- The system calls that the contract is about. -/
inductive Call where
  /-- `waitid`, which saw the leader dead or not. -/
  | observed (exited : Bool)
  /-- `proc_listpgrppids`, which saw another member or not. -/
  | scanned (other : Bool)
  /-- `killpg`; the leader was reaped before or not. -/
  | signalled (signal : Signal) (reaped : Bool)
  /-- `waitpid` reaped the leader. -/
  | reaped
  deriving DecidableEq, Repr

/-- What befell the other members of the group. -/
inductive Incident where
  /-- A new process joined the group. -/
  | joined (child : Pid)
  /-- A scan met these other members. -/
  | met (others : List Pid)
  /-- `SIGKILL` was sent to the group, and these other members outlived it. -/
  | killed (survivors : List Pid)
  deriving DecidableEq, Repr

/-- The worker that has the leader in custody. -/
structure Custody where
  group : Group
  /-- The leader was waited for; until then it stays a zombie. -/
  reaped : Bool
  /-- What will happen before each of the next system calls. -/
  schedule : List Turn
  /-- What `status` points to. -/
  status : Nat
  errno : Errno
  /-- History: the system calls, oldest first. -/
  log : List Call
  /-- History: what befell the other members, oldest first. -/
  incidents : List Incident

/-- `MAX_GROUP_MEMBERS`. -/
def maxGroupMembers : Nat := 4096

/-- `SCAN_ATTEMPTS`. -/
def scanAttempts : Nat := 24

/-- `EXIT_GUARDIAN_FAILURE`. -/
def exitGuardianFailure : Nat := 70

/-- The wait status of a dead process. -/
def LeaderEnd.status : LeaderEnd → Nat
  | exited code => code % 256 * 256
  | killed signal => signal % 128

namespace Custody

/-- Takes the leader and its group into custody. -/
def start (group : Group) (schedule : List Turn) : Custody where
  group := group
  reaped := false
  schedule := schedule
  status := 0
  errno := .none
  log := []
  incidents := []

/-- The turn before the next system call. -/
def turn (c : Custody) : Turn := c.schedule.headD ⟨[], [], false⟩

/-- Who joins the group before the next system call. -/
def joined (c : Custody) : List Incident := (c.group.joins c.turn.moves).map .joined

/-- The others move; then it is the guardian's turn. -/
def enter (c : Custody) : Custody :=
  { c with
    group := c.group.moves c.turn.moves
    schedule := c.schedule.tail
    incidents := c.incidents ++ c.joined }

def record (c : Custody) (call : Call) : Custody := { c with log := c.log ++ [call] }

def note (c : Custody) (incident : Incident) : Custody :=
  { c with incidents := c.incidents ++ [incident] }

/-- `observe_leader`; what it returns is `*exited`. -/
def observeLeader (c : Custody) : Custody × Bool :=
  let c := c.enter
  match c.group.leaderEnd with
  | none => (c.record (.observed false), false)
  | some how => ({ c with status := how.status }.record (.observed true), true)

/-- `proc_listpgrppids` fills the buffer as far as it goes. -/
def listpgrppids (c : Custody) : List Pid :=
  (c.group.leader :: c.group.members).take maxGroupMembers

/-- `group_has_no_other_member`; what it returns is `*has_other`. -/
def groupHasNoOtherMember (c : Custody) : Custody × Bool :=
  let c := c.enter
  let hasOther := c.listpgrppids.any (fun pid => pid ≠ c.group.leader)
  let others := c.listpgrppids.filter (fun pid => pid ≠ c.group.leader)
  ((c.record (.scanned hasOther)).note (.met others), hasOther)

/-- `getpgid`; a dead leader has no group. -/
def getpgid (c : Custody) : Custody × Option Pid :=
  let c := c.enter
  match c.group.leaderEnd with
  | none => (c, some c.group.leader)
  | some _ => ({ c with errno := .esrch }, none)

/-- `killpg`. A process that is asked to terminate does so in a move of its own. -/
def killpg (c : Custody) (signal : Signal) : Custody × Int :=
  let turn := c.turn
  let c := c.enter.record (.signalled signal c.reaped)
  if c.group.leaderEnd ≠ none ∧ c.group.members = [] then ({ c with errno := .esrch }, -1)
  else
    match signal with
    | .sigterm => (c, 0)
    | .sigkill =>
      let group := c.group.kill turn
      ({ c with group }.note (.killed group.members), 0)

/-- `killpg(..) < 0 && errno != ESRCH`. -/
def killpgChecked (c : Custody) (signal : Signal) : Custody × Int :=
  let (c, result) := c.killpg signal
  if result < 0 ∧ c.errno ≠ .esrch then (c, -1) else (c, 0)

/-- `signal_private_group`. -/
def signalPrivateGroup (c : Custody) (signal : Signal) (leaderExited : Bool) : Custody × Int :=
  match c.getpgid with
  | (c, none) =>
    if c.errno ≠ .esrch then (c, -1)
    else if leaderExited = false then ({ c with errno := .esrch }, -1)
    else
      let (c, hasOther) := c.groupHasNoOtherMember
      if hasOther then c.killpgChecked signal else (c, 0)
  | (c, some group) =>
    if group ≠ c.group.leader then ({ c with errno := .eperm }, -1) else c.killpgChecked signal

/-- The loop of `wait_for_leader_exit`; the sleeps are part of the next turn. -/
def awaitExit : Nat → Custody → Custody × Int
  | 0, c => ({ c with errno := .etimedout }, 1)
  | attempts + 1, c =>
    match c.observeLeader with
    | (c, true) => (c, 0)
    | (c, false) => awaitExit attempts c

/-- `wait_for_leader_exit`. -/
def waitForLeaderExit (c : Custody) (forceKill : Bool) : Custody × Int :=
  match c.observeLeader with
  | (c, true) => (c, 0)
  | (c, false) =>
    let (c, result) := c.signalPrivateGroup (if forceKill then .sigkill else .sigterm) false
    if result < 0 then (c, -1) else awaitExit scanAttempts c

/-- The rounds of `terminate_private_group`. -/
def rounds : Nat → Custody → Custody × Int
  | 0, c => ({ c with errno := .etimedout }, -1)
  | attempts + 1, c =>
    match c.observeLeader with
    | (c, false) => ({ c with errno := .eagain }, -1)
    | (c, true) =>
      match c.groupHasNoOtherMember with
      | (c, true) =>
        let (c, result) := c.signalPrivateGroup .sigkill true
        if result < 0 then (c, -1) else rounds attempts c
      | (c, false) =>
        match c.groupHasNoOtherMember with
        | (c, false) =>
          match c.observeLeader with
          | (c, false) => ({ c with errno := if c.errno = .none then .eagain else c.errno }, -1)
          | (c, true) => (c, 0)
        | (c, true) =>
          let (c, result) := c.signalPrivateGroup .sigkill true
          if result < 0 then (c, -1) else rounds attempts c

/-- `terminate_private_group`. -/
def terminatePrivateGroup (c : Custody) : Custody × Int :=
  let (c, result) := c.waitForLeaderExit false
  if result < 0 then (c, -1)
  else if 0 < result then
    let (c, result) := c.waitForLeaderExit true
    if result ≠ 0 then (c, -1) else rounds scanAttempts c
  else rounds scanAttempts c

/-- `reap_leader`. -/
def reapLeader (c : Custody) : Custody × Int :=
  let c := c.enter
  if c.reaped then ({ c with errno := .echild }, -1)
  else
    match c.group.leaderEnd with
    | none => ({ c with errno := .eagain }, -1)
    | some how =>
        ({ c with reaped := true, status := how.status }.record .reaped, 0)

/-- What `run_worker` returns for the status of its leader. -/
def exitStatus (c : Custody) : Nat :=
  if c.status % 128 = 0 then c.status / 256 % 256 else 128 + c.status % 128

end Custody

end Vergerail
