import Vergerail.Runtime.Manager

/-!
# Who creates and who removes the managed root

Only the holder of the installation lock renames a staging directory, and only after the
stale ones are gone, so what it renames is what it extracted. Under the lock a root is
removed only after its verification failed there. What is left is
`cleanup_failed_managed_verification`, which removes the root after the lock was released:
a run keeps the discipline exactly when no step of that removal takes anything.
-/

namespace Vergerail

open Lib

variable {Artifact : Type}

/-! ## One operation -/

/-- Nothing is named by the final root that was not named by it before. -/
def RootWithin (now before : Option (PackageDirectory Artifact)) : Prop :=
  ∀ r, now = some r → ∃ earlier, before = some earlier ∧ earlier.inode = r.inode

theorem RootWithin.refl (root : Option (PackageDirectory Artifact)) : RootWithin root root :=
  fun r h => ⟨r, h, rfl⟩

theorem rootWithin_none (root : Option (PackageDirectory Artifact)) : RootWithin none root := by
  intro r h
  cases h

theorem RootWithin.eq_none {now : Option (PackageDirectory Artifact)} (h : RootWithin now none) :
    now = none := by
  cases now with
  | none => rfl
  | some r =>
      obtain ⟨earlier, hearlier, _⟩ := h r rfl
      cases hearlier

/-- What holds of every way an operation can go holds of how it goes. -/
theorem attempt_cases {α : Type} {P : α → Prop} {event : ResolveEvent Artifact}
    {done failed other : α} (hdone : event = .proceed → P done) (hfailed : P failed)
    (hother : P other) : P (attempt event done failed other) := by
  unfold attempt
  split
  · exact hdone rfl
  · exact hfailed
  · exact hother

section Staging

variable {cache : RuntimeCache Artifact} {unique : Nat} {d : PackageDirectory Artifact}

theorem staged_of_staging (h : cache.staging = [(unique, d)]) : cache.staged unique = some d := by
  simp [RuntimeCache.staged, h]

theorem staging_updateStaged (h : cache.staging = [(unique, d)])
    (change : PackageDirectory Artifact → PackageDirectory Artifact) :
    (cache.updateStaged unique change).staging = [(unique, change d)] := by
  simp [RuntimeCache.updateStaged, h]

theorem staging_createStaged (h : cache.staging = []) :
    (cache.createStaged unique).staging =
      [(unique, { inode := cache.nextInode, whole := ∅, partly := ∅ })] := by
  simp [RuntimeCache.createStaged, RuntimeCache.staged, h]

theorem finalRoot_createStaged : (cache.createStaged unique).finalRoot = cache.finalRoot := by
  unfold RuntimeCache.createStaged
  split <;> rfl

end Staging

variable [DecidableEq Artifact]

theorem PackageDirectory.unlink_eq_self {d : PackageDirectory Artifact} {artifact : Artifact} :
    d.unlink artifact = d ↔ artifact ∉ d.files := by
  constructor
  · intro h hmem
    have hfiles : artifact ∈ (d.unlink artifact).files := by rw [h]; exact hmem
    simp [PackageDirectory.files, PackageDirectory.unlink] at hfiles
  · intro h
    simp only [PackageDirectory.files, Finset.mem_union, not_or] at h
    unfold PackageDirectory.unlink
    rw [Finset.erase_eq_of_notMem h.1, Finset.erase_eq_of_notMem h.2]

namespace Removal

/-- The next operation of the removal takes a file or the name of the root away. -/
def Takes (removal : Removal) (cache : RuntimeCache Artifact) (event : ResolveEvent Artifact) :
    Prop :=
  match removal, event, cache.finalRoot with
  | emptying inode, .unlink artifact, some r => r.inode = inode ∧ artifact ∈ r.files
  | emptying _, .proceed, some r => r.files = ∅
  | _, _, _ => False

theorem Takes.ne_crash {removal : Removal} {cache : RuntimeCache Artifact}
    {event : ResolveEvent Artifact} (h : removal.Takes cache event) : event ≠ .crash := by
  rintro rfl
  cases removal <;> exact h

theorem Takes.exists_root {removal : Removal} {cache : RuntimeCache Artifact}
    {event : ResolveEvent Artifact} (h : removal.Takes cache event) :
    ∃ r, cache.finalRoot = some r := by
  cases hroot : cache.finalRoot with
  | some r => exact ⟨r, rfl⟩
  | none =>
      unfold Takes at h
      rw [hroot] at h
      split at h <;> simp_all

/-- How a removal changes the cache. -/
theorem advance_cache (removal : Removal) (cache : RuntimeCache Artifact)
    (event : ResolveEvent Artifact) :
    (removal.advance cache event).2 = cache ∨
      (∃ inode artifact, removal = emptying inode ∧ event = .unlink artifact ∧
        (removal.advance cache event).2 = cache.unlink inode artifact) ∨
      (∃ inode, removal = emptying inode ∧ event = .proceed ∧
        (cache.finalRoot.all fun r => r.files = ∅) = true ∧
        (removal.advance cache event).2 = { cache with finalRoot := none }) := by
  cases removal with
  | inspecting => left; cases event <;> rfl
  | opening =>
      left
      cases event with
      | proceed => cases hroot : cache.finalRoot <;> simp [advance, hroot]
      | _ => rfl
  | emptying inode =>
      cases event with
      | unlink artifact => exact .inr (.inl ⟨inode, artifact, rfl, rfl, rfl⟩)
      | proceed =>
          by_cases hempty : (cache.finalRoot.all fun r => r.files = ∅) = true
          · exact .inr (.inr ⟨inode, rfl, rfl, hempty, by simp only [advance, if_pos hempty]⟩)
          · left
            simp only [advance, if_neg hempty]
      | _ => left; rfl

theorem staging_advance (removal : Removal) (cache : RuntimeCache Artifact)
    (event : ResolveEvent Artifact) :
    (removal.advance cache event).2.staging = cache.staging := by
  rcases removal.advance_cache cache event with h | ⟨_, _, _, _, h⟩ | ⟨_, _, _, _, h⟩
  · rw [h]
  · rw [h]
    rfl
  · rw [h]

theorem within_advance (removal : Removal) (cache : RuntimeCache Artifact)
    (event : ResolveEvent Artifact) :
    RootWithin (removal.advance cache event).2.finalRoot cache.finalRoot := by
  rcases removal.advance_cache cache event with h | ⟨inode, artifact, _, _, h⟩ | ⟨_, _, _, _, h⟩
  · rw [h]
    exact .refl _
  · rw [h]
    intro r hr
    obtain ⟨earlier, hearlier, rfl⟩ := Option.map_eq_some_iff.mp hr
    refine ⟨earlier, hearlier, ?_⟩
    split <;> rfl
  · rw [h]
    exact rootWithin_none _

/-- A removal that succeeds leaves no root. -/
theorem finalRoot_of_ok {removal : Removal} {cache : RuntimeCache Artifact}
    {event : ResolveEvent Artifact} (h : (removal.advance cache event).1 = .ok) :
    (removal.advance cache event).2.finalRoot = none := by
  rcases removal.advance_cache cache event with hcache | ⟨_, _, rfl, rfl, _⟩ | ⟨_, _, _, _, hcache⟩
  · revert h
    cases removal with
    | inspecting =>
        cases event <;> simp [advance]
        split
        · simp
        · simp
    | opening =>
        cases event <;> simp [advance]
        cases cache.finalRoot with
        | none => simp
        | some r => simp
    | emptying inode =>
        cases event <;> simp [advance]
        split <;> simp
  · cases h
  · rw [hcache]

/-- Unlinking takes something when the opened directory is the root and has the file. -/
theorem unlink_ne_iff {inode : Nat} {artifact : Artifact} {cache : RuntimeCache Artifact} :
    (cache.unlink inode artifact).finalRoot ≠ cache.finalRoot ↔
      (emptying inode).Takes cache (.unlink artifact) := by
  unfold Takes RuntimeCache.unlink
  cases hroot : cache.finalRoot with
  | none => simp
  | some r =>
      by_cases hinode : r.inode = inode
      · simp [hinode, PackageDirectory.unlink_eq_self]
      · simp [hinode]

/-- The name is taken when it names an empty directory. -/
theorem remove_ne_iff {inode : Nat} {cache : RuntimeCache Artifact} :
    ((emptying inode).advance cache .proceed).2.finalRoot ≠ cache.finalRoot ↔
      (emptying inode).Takes cache .proceed := by
  unfold Takes advance
  cases hroot : cache.finalRoot with
  | none => simp
  | some r =>
      by_cases hempty : r.files = ∅
      · simp [hempty]
      · simp [hempty, hroot]

theorem finalRoot_advance_ne_iff (removal : Removal) (cache : RuntimeCache Artifact)
    (event : ResolveEvent Artifact) :
    (removal.advance cache event).2.finalRoot ≠ cache.finalRoot ↔ removal.Takes cache event := by
  cases removal with
  | inspecting =>
      have hsame : (inspecting.advance cache event).2 = cache := by cases event <;> rfl
      simp [hsame, Takes]
  | opening =>
      have hsame : (opening.advance cache event).2 = cache := by
        rcases opening.advance_cache cache event with h | ⟨_, _, h, _⟩ | ⟨_, h, _⟩
        · exact h
        · cases h
        · cases h
      simp [hsame, Takes]
  | emptying inode =>
      cases event with
      | unlink artifact => exact unlink_ne_iff
      | proceed => exact remove_ne_iff
      | _ => simp [advance, Takes]

end Removal

/-! ## What a stage promises -/

/-- What a resolver inside the lock may rely on, by where it stands. Outside the lock it may
rely on nothing. -/
def StageInv (pinned : PinnedRuntime Artifact) (cache : RuntimeCache Artifact)
    (found : Option Nat) : ResolveStage Artifact → Prop
  | .inspectingRoot | .verifyingLocked _ => cache.staging = []
  -- Whatever root is left is the one whose verification failed.
  | .removingInvalid _ =>
    cache.staging = [] ∧ ∀ r, cache.finalRoot = some r → found = some r.inode
  | .naming | .creatingArchive _ | .receiving _ | .preparing _ =>
    cache.staging = [] ∧ cache.finalRoot = none
  -- The one staging directory holds what the loop extracted and no more.
  | .extracting unique _ extracted =>
    cache.finalRoot = none ∧ extracted ⊆ pinned.artifacts.toFinset ∧
      ∃ inode, cache.staging = [(unique, { inode, whole := extracted, partly := ∅ })]
  | .writing unique relative _ extracted =>
    cache.finalRoot = none ∧ extracted ⊆ pinned.artifacts.toFinset ∧ relative ∈ extracted ∧
      ∃ inode, cache.staging =
        [(unique, { inode, whole := extracted.erase relative, partly := {relative} })]
  | .committing unique =>
    cache.finalRoot = none ∧ ∃ d : PackageDirectory Artifact,
      d.Complete pinned ∧ cache.staging = [(unique, d)]
  | _ => True

variable {pinned : PinnedRuntime Artifact} {cache cache' : RuntimeCache Artifact}
  {found : Option Nat} {stage : ResolveStage Artifact}

theorem stageInv_of_unlocked (h : stage.holdsLock = false) : StageInv pinned cache found stage := by
  cases stage with
  | inspectingCache | verifyingCache | openingLock | locking | verifyingResult | discarding
  | returned | failed | crashed => trivial
  | _ => cases h

/-- What a stage promises outlives what the other resolvers can do meanwhile. -/
theorem StageInv.frame (h : StageInv pinned cache found stage)
    (hstaging : cache'.staging = cache.staging)
    (hroot : RootWithin cache'.finalRoot cache.finalRoot) : StageInv pinned cache' found stage := by
  have hnone : cache.finalRoot = none → cache'.finalRoot = none := by
    intro hbefore
    rw [hbefore] at hroot
    exact hroot.eq_none
  cases stage with
  | inspectingRoot | verifyingLocked => exact hstaging.trans h
  | removingInvalid removal =>
      refine ⟨hstaging.trans h.1, ?_⟩
      intro r hr
      obtain ⟨earlier, hearlier, hinode⟩ := hroot r hr
      rw [← hinode]
      exact h.2 earlier hearlier
  | naming | creatingArchive | receiving | preparing => exact ⟨hstaging.trans h.1, hnone h.2⟩
  | extracting unique entries extracted =>
      obtain ⟨hbefore, hsub, inode, hdir⟩ := h
      exact ⟨hnone hbefore, hsub, inode, hstaging.trans hdir⟩
  | writing unique relative entries extracted =>
      obtain ⟨hbefore, hsub, hmem, inode, hdir⟩ := h
      exact ⟨hnone hbefore, hsub, hmem, inode, hstaging.trans hdir⟩
  | committing unique =>
      obtain ⟨hbefore, d, hcomplete, hdir⟩ := h
      exact ⟨hnone hbefore, d, hcomplete, hstaging.trans hdir⟩
  | _ => trivial

/-- What the stage a resolver moved to promises. -/
def Kept (pinned : PinnedRuntime Artifact) (cache : RuntimeCache Artifact) (found : Option Nat)
    (before : ResolveStage Artifact) (moved : ResolveStage Artifact × RuntimeCache Artifact) :
    Prop :=
  StageInv pinned moved.2 (ManagerWorld.foundAfter found cache.finalRoot before moved.1) moved.1

/-! ## The extraction -/

section Extraction

variable {unique : Nat} {d : PackageDirectory Artifact}

/-- A staging directory that may be renamed becomes the final root. -/
theorem rename_eq (h : cache.staged unique = some d) (hroot : cache.finalRoot = none) :
    cache.rename unique = some { cache.eraseStaged unique with finalRoot := some d } := by
  simp [RuntimeCache.rename, h, hroot]

variable {entries : List (ArchiveEntry Artifact)} {extracted : Finset Artifact}

/-- One round of the extraction keeps the staging directory what was extracted. After the
last round the extracted artifacts are all of them, since they are as many. -/
theorem kept_extractEntry
    (h : StageInv pinned cache found (.extracting unique entries extracted)) :
    Kept pinned cache found (.extracting unique entries extracted)
      (extractEntry pinned cache unique entries extracted) := by
  obtain ⟨hroot, hsub, inode, hdir⟩ := h
  unfold extractEntry
  cases entries with
  | nil =>
      dsimp only
      split
      · rename_i hcard
        have hall : extracted = pinned.artifacts.toFinset :=
          Finset.eq_of_subset_of_card_le hsub hcard.ge
        exact ⟨hroot, _, ⟨hall, rfl⟩, hdir⟩
      · trivial
  | cons entry entries =>
      dsimp only
      split
      · exact ⟨hroot, hsub, inode, hdir⟩
      · rename_i relative _
        split
        · exact ⟨hroot, hsub, inode, hdir⟩
        · rename_i hexpected
          have hexpected : relative ∈ pinned.artifacts := not_not.mp hexpected
          split
          · trivial
          · rename_i hfresh
            have hfresh : relative ∉ extracted := fun hmem => hfresh (.inr hmem)
            split
            · refine ⟨hroot, ?_, Finset.mem_insert_self _ _, inode, ?_⟩
              · exact Finset.insert_subset (List.mem_toFinset.mpr hexpected) hsub
              · rw [staging_updateStaged hdir, Finset.erase_insert hfresh]
                rfl
            · trivial

theorem finalRoot_extractEntry :
    (extractEntry pinned cache unique entries extracted).2.finalRoot = cache.finalRoot := by
  unfold extractEntry
  cases entries with
  | nil =>
      dsimp only
      split <;> rfl
  | cons entry entries =>
      dsimp only
      split
      · rfl
      · split_ifs <;> rfl

theorem kept_write {relative : Artifact}
    (h : StageInv pinned cache found (.writing unique relative entries extracted)) :
    Kept pinned cache found (.writing unique relative entries extracted)
      (.extracting unique entries extracted,
        cache.updateStaged unique fun d => d.write relative) := by
  obtain ⟨hroot, hsub, hmem, inode, hdir⟩ := h
  refine ⟨hroot, hsub, inode, ?_⟩
  rw [staging_updateStaged hdir]
  simp [PackageDirectory.write, Finset.insert_erase hmem]

end Extraction

/-! ## The next operation of a resolver -/

section Advance

variable {policy : DownloadPolicy} {free : Bool} {event : ResolveEvent Artifact}

theorem advance_discarding (removal : Removal) :
    ((ResolveStage.discarding removal).advance pinned policy free cache event).2 =
      (removal.advance cache event).2 := by
  simp only [ResolveStage.advance]
  split <;> simp_all

/-- Outside the lock only the removal of a root that failed its verification touches the
cache. -/
theorem advance_unlocked (h : stage.holdsLock = false) :
    (stage.advance pinned policy free cache event).2 = cache ∨
      ∃ removal, stage = .discarding removal ∧
        (stage.advance pinned policy free cache event).2 = (removal.advance cache event).2 := by
  cases stage with
  | discarding removal => exact .inr ⟨removal, rfl, advance_discarding removal⟩
  | inspectingCache | openingLock | locking =>
      left
      exact attempt_cases
        (P := fun m : ResolveStage Artifact × RuntimeCache Artifact => m.2 = cache)
        (fun _ => rfl) rfl rfl
  | verifyingCache v | verifyingResult v =>
      left
      simp only [ResolveStage.advance]
      split <;> rfl
  | returned | failed | crashed => exact .inl rfl
  | _ => cases h

omit [DecidableEq Artifact] in
theorem holdsLock_afterCache : (afterCache policy : ResolveStage Artifact).holdsLock = false := by
  unfold afterCache
  split <;> rfl

/-- Who does not hold the lock takes it only when it is free, and does nothing else then. -/
theorem holdsLock_advance (h : stage.holdsLock = false) :
    (stage.advance pinned policy free cache event).1.holdsLock = false ∨
      free = true ∧ (stage.advance pinned policy free cache event).1 = .cleaningStale := by
  cases stage with
  | locking =>
      cases event with
      | proceed =>
          cases free with
          | true => exact .inr ⟨rfl, rfl⟩
          | false => exact .inl rfl
      | _ => exact .inl rfl
  | inspectingCache =>
      left
      refine attempt_cases
        (P := fun m : ResolveStage Artifact × RuntimeCache Artifact => m.1.holdsLock = false)
        (fun _ => ?_) rfl rfl
      split
      · rfl
      · exact holdsLock_afterCache
  | openingLock =>
      left
      exact attempt_cases
        (P := fun m : ResolveStage Artifact × RuntimeCache Artifact => m.1.holdsLock = false)
        (fun _ => rfl) rfl rfl
  | verifyingCache v =>
      left
      simp only [ResolveStage.advance]
      split
      · rfl
      · rfl
      · rfl
      · exact holdsLock_afterCache
  | verifyingResult v =>
      left
      simp only [ResolveStage.advance]
      split <;> rfl
  | discarding removal =>
      left
      simp only [ResolveStage.advance]
      split <;> rfl
  | returned | failed | crashed => exact .inl rfl
  | _ => cases h

omit [DecidableEq Artifact] in
theorem afterCache_ne_discarding {removal : Removal} :
    (afterCache policy : ResolveStage Artifact) ≠ .discarding removal := by
  unfold afterCache
  split <;> exact fun h => by cases h

/-- The removal without the lock follows a failed verification of the result. -/
theorem discarding_advance {removal : Removal}
    (h : (stage.advance pinned policy free cache event).1 = .discarding removal) :
    (∃ earlier, stage = .discarding earlier) ∨ ∃ v installed,
      stage = .verifyingResult v installed ∧
        v.advance pinned cache.finalRoot true event = .error false := by
  have hattempt : ∀ done failed other : ResolveStage Artifact × RuntimeCache Artifact,
      (event = .proceed → done.1 ≠ .discarding removal) → failed.1 ≠ .discarding removal →
      other.1 ≠ .discarding removal → (attempt event done failed other).1 ≠ .discarding removal :=
    fun _ _ _ => attempt_cases
      (P := fun m : ResolveStage Artifact × RuntimeCache Artifact => m.1 ≠ .discarding removal)
  cases stage with
  | discarding earlier => exact .inl ⟨earlier, rfl⟩
  | verifyingResult v installed =>
      simp only [ResolveStage.advance] at h
      split at h
      · cases h
      · cases h
      · cases h
      · exact .inr ⟨v, installed, rfl, by assumption⟩
  | verifyingCache v =>
      simp only [ResolveStage.advance] at h
      split at h
      · cases h
      · cases h
      · cases h
      · exact absurd h afterCache_ne_discarding
  | verifyingLocked v | removingInvalid removal =>
      simp only [ResolveStage.advance] at h
      split at h <;> cases h
  | inspectingCache =>
      refine absurd h (hattempt _ _ _ (fun _ => ?_) (fun h => by cases h) (fun h => by cases h))
      dsimp only
      split
      · exact fun h => by cases h
      · exact afterCache_ne_discarding
  | openingLock | receiving | preparing | writing | clearingArchive =>
      exact absurd h (hattempt _ _ _ (fun _ h => by cases h) (fun h => by cases h)
        (fun h => by cases h))
  | locking | inspectingRoot =>
      refine absurd h (hattempt _ _ _ (fun _ => ?_) (fun h => by cases h) (fun h => by cases h))
      dsimp only
      split <;> exact fun h => by cases h
  | creatingArchive =>
      refine absurd h (hattempt _ _ _ (fun _ => ?_) (fun h => by cases h) (fun h => by cases h))
      split <;> exact fun h => by cases h
  | extracting unique entries extracted =>
      refine absurd h (hattempt _ _ _ (fun _ => ?_) (fun h => by cases h) (fun h => by cases h))
      unfold extractEntry
      split
      · split <;> exact fun h => by cases h
      · split
        · exact fun h => by cases h
        · split_ifs <;> exact fun h => by cases h
  | committing unique =>
      refine absurd h (hattempt _ _ _ (fun _ => ?_) (fun h => by cases h) (fun h => by cases h))
      split <;> exact fun h => by cases h
  | cleaningStale =>
      cases event with
      | proceed =>
          simp only [ResolveStage.advance, attempt] at h
          split at h <;> cases h
      | _ => cases h
  | naming => cases event <;> cases h
  | clearingStaging unique outcome =>
      cases event with
      | proceed =>
          simp only [ResolveStage.advance, attempt] at h
          split at h
          · unfold afterAttempt at h
            split at h <;> cases h
          · cases h
      | _ => cases h
  | returned | failed | crashed => cases h

/-- How the final root changes: a removal takes of it, or a rename makes it. -/
theorem advance_finalRoot :
    (stage.advance pinned policy free cache event).2.finalRoot = cache.finalRoot ∨
      (∃ removal, (stage = .removingInvalid removal ∨ stage = .discarding removal) ∧
        (stage.advance pinned policy free cache event).2 = (removal.advance cache event).2) ∨
      (∃ unique renamed, stage = .committing unique ∧ cache.rename unique = some renamed ∧
        (stage.advance pinned policy free cache event).2 = renamed) := by
  cases stage with
  | discarding removal => exact .inr (.inl ⟨removal, .inr rfl, advance_discarding removal⟩)
  | removingInvalid removal =>
      refine .inr (.inl ⟨removal, .inl rfl, ?_⟩)
      simp only [ResolveStage.advance]
      split <;> simp_all
  | committing unique =>
      cases hrename : cache.rename unique with
      | none =>
          left
          simp only [ResolveStage.advance, hrename]
          cases event <;> rfl
      | some renamed =>
          simp only [ResolveStage.advance, hrename]
          cases event with
          | proceed => exact .inr (.inr ⟨unique, renamed, rfl, hrename, rfl⟩)
          | _ => exact .inl rfl
  | verifyingCache v | verifyingLocked v | verifyingResult v =>
      left
      simp only [ResolveStage.advance]
      split <;> rfl
  | inspectingCache | openingLock | locking | inspectingRoot | receiving | writing
  | clearingArchive =>
      left
      exact attempt_cases
        (P := fun m : ResolveStage Artifact × RuntimeCache Artifact =>
          m.2.finalRoot = cache.finalRoot) (fun _ => rfl) rfl rfl
  | cleaningStale =>
      left
      cases event with
      | removeStaged unique =>
          simp only [ResolveStage.advance]
          split <;> rfl
      | _ => rfl
  | naming =>
      left
      cases event <;> rfl
  | creatingArchive unique =>
      left
      refine attempt_cases
        (P := fun m : ResolveStage Artifact × RuntimeCache Artifact =>
          m.2.finalRoot = cache.finalRoot) (fun _ => ?_) rfl rfl
      split <;> rfl
  | preparing unique =>
      left
      exact attempt_cases
        (P := fun m : ResolveStage Artifact × RuntimeCache Artifact =>
          m.2.finalRoot = cache.finalRoot) (fun _ => finalRoot_createStaged) rfl rfl
  | extracting unique entries extracted =>
      left
      exact attempt_cases
        (P := fun m : ResolveStage Artifact × RuntimeCache Artifact =>
          m.2.finalRoot = cache.finalRoot) (fun _ => finalRoot_extractEntry) rfl rfl
  | clearingStaging unique outcome =>
      left
      cases event with
      | unlinkStaged other artifact =>
          simp only [ResolveStage.advance]
          split <;> rfl
      | proceed =>
          simp only [ResolveStage.advance, attempt]
          split <;> rfl
      | _ => rfl
  | returned | failed | crashed => exact .inl rfl

/-- The removal under the lock keeps what is left of the root, and its success leaves
nothing. -/
theorem kept_removal {removal : Removal}
    (h : StageInv pinned cache found (.removingInvalid removal)) :
    Kept pinned cache found (.removingInvalid removal)
      ((ResolveStage.removingInvalid removal).advance pinned policy free cache event) := by
  have hstaging := removal.staging_advance cache event
  have hafter := h.frame hstaging (removal.within_advance cache event)
  simp only [ResolveStage.advance]
  split
  · rename_i next after hadvance
    rw [hadvance] at hafter
    exact hafter
  · rename_i after hadvance
    have hgone : after.finalRoot = none := by
      have hok := Removal.finalRoot_of_ok (congrArg Prod.fst hadvance)
      rwa [hadvance] at hok
    rw [hadvance] at hstaging
    exact ⟨hstaging.trans h.1, hgone⟩
  · trivial

/-- Every operation keeps what the stages promise. -/
theorem kept_advance (h : StageInv pinned cache found stage) :
    Kept pinned cache found stage (stage.advance pinned policy free cache event) := by
  cases hlocked : stage.holdsLock with
  | false =>
      have hmove : (stage.advance pinned policy free cache event).1.holdsLock = false ∨
          free = true ∧ (stage.advance pinned policy free cache event).1 = .cleaningStale :=
        holdsLock_advance hlocked
      rcases hmove with hout | ⟨_, hstale⟩
      · exact stageInv_of_unlocked hout
      · unfold Kept
        rw [hstale]
        trivial
  | true =>
      cases stage with
      | cleaningStale =>
          cases event with
          | proceed =>
              simp only [ResolveStage.advance, attempt]
              split
              · rename_i hclean
                exact hclean.1
              · trivial
          | _ => trivial
      | inspectingRoot =>
          refine attempt_cases (fun _ => ?_) trivial h
          split
          · exact h
          · rename_i hroot
            exact ⟨h, by simpa using hroot⟩
      | verifyingLocked v =>
          simp only [ResolveStage.advance]
          split
          · exact h
          · trivial
          · refine ⟨h, ?_⟩
            intro r hr
            simp only at hr
            simp [ManagerWorld.foundAfter, hr]
      | removingInvalid removal => exact kept_removal h
      | naming =>
          cases event with
          | fault => trivial
          | _ => exact h
      | creatingArchive unique =>
          refine attempt_cases (fun _ => ?_) trivial h
          split
          · trivial
          · exact h
      | receiving unique => exact attempt_cases (fun _ => h) trivial h
      | preparing unique =>
          refine attempt_cases (fun _ => ?_) trivial h
          exact ⟨finalRoot_createStaged.trans h.2, Finset.empty_subset _, _,
            staging_createStaged h.1⟩
      | extracting unique entries extracted =>
          exact attempt_cases (fun _ => kept_extractEntry h) trivial h
      | writing unique relative entries extracted =>
          exact attempt_cases (fun _ => kept_write h) trivial h
      | committing unique =>
          refine attempt_cases (fun _ => ?_) trivial h
          split <;> trivial
      | clearingArchive unique outcome => exact attempt_cases (fun _ => trivial) trivial trivial
      | clearingStaging unique outcome =>
          cases event with
          | proceed =>
              simp only [ResolveStage.advance, attempt]
              split
              · cases outcome <;> trivial
              · trivial
          | _ => trivial
      | _ => cases hlocked

end Advance

/-! ## Every run -/

/-- What holds of the resolvers in every run. -/
structure ManagerInv (env : ManagerEnv Artifact) (w : ManagerWorld Artifact) : Prop where
  /-- The lock is held by the resolver that is inside it. -/
  holder : ∀ p, (w.stages p).holdsLock = true ↔ w.lock = some p
  /-- Every stage's promise is kept. -/
  promise : ∀ p, StageInv env.pinned w.cache (w.foundInvalid p) (w.stages p)

/-- The step takes something of the root away in `cleanup_failed_managed_verification`. -/
def Discards (w : ManagerWorld Artifact) (label : Nat × ResolveEvent Artifact) : Prop :=
  ∃ removal, w.stages label.1 = .discarding removal ∧ removal.Takes w.cache label.2

/-- The package that `install_managed` returned fails its verification, and not as
`runtime.version`. -/
def FailsResult (env : ManagerEnv Artifact) (w : ManagerWorld Artifact)
    (label : Nat × ResolveEvent Artifact) : Prop :=
  ∃ v installed, w.stages label.1 = .verifyingResult v installed ∧
    v.advance env.pinned w.cache.finalRoot true label.2 = .error false

/-- Nobody is in `cleanup_failed_managed_verification`. -/
def NoneDiscards (w : ManagerWorld Artifact) : Prop :=
  ∀ p removal, w.stages p ≠ .discarding removal

/-- A step creates and removes the managed root only as it is meant to. -/
structure StepSafe (env : ManagerEnv Artifact) (w : ManagerWorld Artifact)
    (label : Nat × ResolveEvent Artifact) : Prop where
  /-- A root that was not there is a completely extracted staging directory, which the
  holder of the lock renames. -/
  created : ∀ d, (w.step env label).cache.finalRoot = some d →
    (∀ r, w.cache.finalRoot = some r → r.inode ≠ d.inode) →
      w.lock = some label.1 ∧ d.Complete env.pinned ∧
        ∃ unique, w.stages label.1 = .committing unique ∧ w.cache.staged unique = some d ∧
          (w.step env label).cache.staged unique = none
  /-- A root of which anything goes was found invalid by the holder of the lock, who
  removes it. -/
  removed : ∀ r, w.cache.finalRoot = some r → (w.step env label).cache.finalRoot ≠ some r →
    w.lock = some label.1 ∧ w.foundInvalid label.1 = some r.inode

section Steps

variable {env : ManagerEnv Artifact} {w : ManagerWorld Artifact} {p : Nat}
  {event : ResolveEvent Artifact}

theorem managerInv_init : ManagerInv env (ManagerWorld.init : ManagerWorld Artifact) where
  holder := by
    intro p
    simp [ManagerWorld.init, ResolveStage.holdsLock]
  promise := fun _ => trivial

omit [DecidableEq Artifact] in
theorem holdsLock_crash (stage : ResolveStage Artifact) :
    (ManagerWorld.crash stage).holdsLock = false := by
  cases stage <;> rfl

theorem moved_of_ne (h : event ≠ .crash) :
    w.moved env p event =
      (w.stages p).advance env.pinned (env.policy p) w.lock.isNone w.cache event := if_neg h

theorem moved_crash : w.moved env p .crash = (ManagerWorld.crash (w.stages p), w.cache) := rfl

/-- Who does not hold the lock moves into it only when nobody holds it. -/
theorem holdsLock_moved (h : (w.stages p).holdsLock = false)
    (hin : (w.moved env p event).1.holdsLock = true) : w.lock = none := by
  by_cases hcrash : event = .crash
  · subst hcrash
    rw [moved_crash, holdsLock_crash] at hin
    cases hin
  · rw [moved_of_ne hcrash] at hin
    rcases holdsLock_advance h with hout | ⟨hfree, _⟩
    · rw [hout] at hin
      cases hin
    · exact Option.isNone_iff_eq_none.mp hfree

/-- Who does not hold the lock leaves the staging directories, and names no new root. -/
theorem frame_moved (h : (w.stages p).holdsLock = false) :
    (w.moved env p event).2.staging = w.cache.staging ∧
      RootWithin (w.moved env p event).2.finalRoot w.cache.finalRoot := by
  by_cases hcrash : event = .crash
  · subst hcrash
    exact ⟨rfl, .refl _⟩
  · rw [moved_of_ne hcrash]
    rcases advance_unlocked h with hsame | ⟨removal, _, hremoval⟩
    · rw [hsame]
      exact ⟨rfl, .refl _⟩
    · rw [hremoval]
      exact ⟨removal.staging_advance _ _, removal.within_advance _ _⟩

theorem kept_moved (h : StageInv env.pinned w.cache (w.foundInvalid p) (w.stages p)) :
    Kept env.pinned w.cache (w.foundInvalid p) (w.stages p) (w.moved env p event) := by
  by_cases hcrash : event = .crash
  · subst hcrash
    exact stageInv_of_unlocked (holdsLock_crash _)
  · rw [moved_of_ne hcrash]
    exact kept_advance h

omit [DecidableEq Artifact] in
/-- The mover holds the lock afterwards exactly when it is inside. -/
theorem lockAfter_self {lock : Option Nat} {after : ResolveStage Artifact} :
    after.holdsLock = true ↔ ManagerWorld.lockAfter lock p after = some p := by
  unfold ManagerWorld.lockAfter
  cases hafter : after.holdsLock with
  | true => simp
  | false =>
      by_cases hlock : lock = some p
      · simp [hlock]
      · simp [hlock]

omit [DecidableEq Artifact] in
/-- Someone else holds the lock afterwards exactly when they held it and the mover did not
get it. -/
theorem lockAfter_other {lock : Option Nat} {after : ResolveStage Artifact} {q : Nat}
    (hne : q ≠ p) :
    ManagerWorld.lockAfter lock p after = some q ↔ lock = some q ∧ after.holdsLock = false := by
  have hswap : p ≠ q := fun h => hne h.symm
  unfold ManagerWorld.lockAfter
  cases hafter : after.holdsLock with
  | true => simp [hswap]
  | false =>
      by_cases hlock : lock = some p
      · simp [hlock, hswap]
      · simp [hlock]

/-- While someone else holds the lock a resolver is outside. -/
theorem ManagerInv.outside (h : ManagerInv env w) {q : Nat} (hlock : w.lock = some q)
    (hne : q ≠ p) : (w.stages p).holdsLock = false := by
  cases hp : (w.stages p).holdsLock with
  | false => rfl
  | true =>
      have hheld := (h.holder p).mp hp
      rw [hlock] at hheld
      exact absurd (Option.some.inj hheld) hne

/-- **The step lemma.** -/
theorem managerInv_step (h : ManagerInv env w) : ManagerInv env (w.step env (p, event)) where
  holder := by
    intro q
    by_cases hq : q = p
    · subst hq
      simp only [ManagerWorld.step, Function.update_self]
      exact lockAfter_self
    · simp only [ManagerWorld.step, Function.update_of_ne hq]
      rw [lockAfter_other hq, h.holder q]
      refine ⟨fun hlock => ⟨hlock, ?_⟩, fun hlock => hlock.1⟩
      -- While `q` holds the lock `p` is outside, and cannot get in.
      cases hin : (w.moved env p event).1.holdsLock with
      | false => rfl
      | true =>
          rw [holdsLock_moved (h.outside hlock hq) hin] at hlock
          cases hlock
  promise := by
    intro q
    by_cases hq : q = p
    · subst hq
      simp only [ManagerWorld.step, Function.update_self]
      exact kept_moved (h.promise q)
    · simp only [ManagerWorld.step, Function.update_of_ne hq]
      cases hin : (w.stages q).holdsLock with
      | false => exact stageInv_of_unlocked hin
      | true =>
          have hout := h.outside ((h.holder q).mp hin) hq
          exact (h.promise q).frame (frame_moved hout).1 (frame_moved hout).2

/-- The root after a step names what it named, or less of it under a removal, or what the
mover renames. -/
theorem finalRoot_moved (env : ManagerEnv Artifact) (w : ManagerWorld Artifact) (p : Nat)
    (event : ResolveEvent Artifact) :
    (w.moved env p event).2.finalRoot = w.cache.finalRoot ∨
      (∃ removal, (w.stages p = .removingInvalid removal ∨ w.stages p = .discarding removal) ∧
        (w.moved env p event).2 = (removal.advance w.cache event).2) ∨
      (∃ unique renamed, w.stages p = .committing unique ∧
        w.cache.rename unique = some renamed ∧ (w.moved env p event).2 = renamed) := by
  by_cases hcrash : event = .crash
  · subst hcrash
    exact .inl rfl
  · rw [moved_of_ne hcrash]
    exact advance_finalRoot

/-- What a committing resolver renames is complete, and there is nothing in its way. -/
theorem rename_of_committing {unique : Nat} {renamed : RuntimeCache Artifact}
    (h : ManagerInv env w) (hstage : w.stages p = .committing unique)
    (hrename : w.cache.rename unique = some renamed) :
    w.lock = some p ∧ w.cache.finalRoot = none ∧ ∃ d, d.Complete env.pinned ∧
      w.cache.staged unique = some d ∧ renamed.finalRoot = some d ∧
        renamed.staged unique = none := by
  have hpromise := h.promise p
  rw [hstage] at hpromise
  obtain ⟨hroot, d, hcomplete, hdir⟩ := hpromise
  have hlock : w.lock = some p := (h.holder p).mp (by rw [hstage]; rfl)
  rw [rename_eq (staged_of_staging hdir) hroot] at hrename
  obtain rfl := Option.some.inj hrename
  refine ⟨hlock, hroot, d, hcomplete, staged_of_staging hdir, rfl, ?_⟩
  simp [RuntimeCache.staged, RuntimeCache.eraseStaged, hdir]

theorem created_of_inv (h : ManagerInv env w) {d : PackageDirectory Artifact}
    (hafter : (w.step env (p, event)).cache.finalRoot = some d)
    (hnew : ∀ r, w.cache.finalRoot = some r → r.inode ≠ d.inode) :
    w.lock = some p ∧ d.Complete env.pinned ∧
      ∃ unique, w.stages p = .committing unique ∧ w.cache.staged unique = some d ∧
        (w.step env (p, event)).cache.staged unique = none := by
  change (w.moved env p event).2.finalRoot = some d at hafter
  change _ ∧ _ ∧ ∃ unique, _ ∧ _ ∧ (w.moved env p event).2.staged unique = none
  rcases finalRoot_moved env w p event with
    hsame | ⟨removal, _, hmoved⟩ | ⟨unique, renamed, hstage, hrename, hmoved⟩
  · exact absurd rfl (hnew d (hsame.symm.trans hafter))
  · -- A removal leaves the directory it takes from.
    rw [hmoved] at hafter
    obtain ⟨earlier, hearlier, hinode⟩ := removal.within_advance w.cache event d hafter
    exact absurd hinode (hnew earlier hearlier)
  · obtain ⟨hlock, _, d', hcomplete, hstaged, hroot, hgone⟩ :=
      rename_of_committing h hstage hrename
    rw [hmoved, hroot] at hafter
    obtain rfl := Option.some.inj hafter
    exact ⟨hlock, hcomplete, unique, hstage, hstaged, hmoved ▸ hgone⟩

theorem removed_of_inv (h : ManagerInv env w) (hkeeps : ¬ Discards w (p, event))
    {r : PackageDirectory Artifact} (hr : w.cache.finalRoot = some r)
    (hne : (w.step env (p, event)).cache.finalRoot ≠ some r) :
    w.lock = some p ∧ w.foundInvalid p = some r.inode := by
  change (w.moved env p event).2.finalRoot ≠ some r at hne
  rcases finalRoot_moved env w p event with
    hsame | ⟨removal, hstage | hstage, hmoved⟩ | ⟨unique, renamed, hstage, hrename, _⟩
  · exact absurd (hsame.trans hr) hne
  · have hpromise := h.promise p
    rw [hstage] at hpromise
    exact ⟨(h.holder p).mp (by rw [hstage]; rfl), hpromise.2 r hr⟩
  · rw [hmoved, ← hr] at hne
    exact absurd ⟨removal, hstage, (removal.finalRoot_advance_ne_iff _ _).mp hne⟩ hkeeps
  · rw [(rename_of_committing h hstage hrename).2.1] at hr
    cases hr

/-- The removal after the lock was released is not what a root is removed by. -/
theorem not_stepSafe_of_discards (h : ManagerInv env w) (hdiscards : Discards w (p, event)) :
    ¬ StepSafe env w (p, event) := by
  obtain ⟨removal, hstage, htakes⟩ := hdiscards
  intro hsafe
  have hchanged : (w.step env (p, event)).cache.finalRoot ≠ w.cache.finalRoot := by
    change (w.moved env p event).2.finalRoot ≠ _
    rw [moved_of_ne htakes.ne_crash, hstage, advance_discarding]
    exact (removal.finalRoot_advance_ne_iff _ _).mpr htakes
  obtain ⟨r, hr⟩ := htakes.exists_root
  rw [hr] at hchanged
  have hheld := (h.holder p).mpr (hsafe.removed r hr hchanged).1
  rw [hstage] at hheld
  cases hheld

theorem stepSafe_iff (h : ManagerInv env w) :
    StepSafe env w (p, event) ↔ ¬ Discards w (p, event) := by
  constructor
  · intro hsafe hdiscards
    exact not_stepSafe_of_discards h hdiscards hsafe
  · intro hkeeps
    exact ⟨fun _ hafter hnew => created_of_inv h hafter hnew,
      fun _ hr hne => removed_of_inv h hkeeps hr hne⟩

/-- As long as every result passes, nobody removes it. -/
theorem noneDiscards_step (h : NoneDiscards w) (hresult : ¬ FailsResult env w (p, event)) :
    NoneDiscards (w.step env (p, event)) := by
  intro q removal hq
  by_cases hself : q = p
  · subst hself
    simp only [ManagerWorld.step, Function.update_self] at hq
    by_cases hcrash : event = .crash
    · subst hcrash
      rw [moved_crash] at hq
      cases hstage : w.stages q <;> rw [hstage] at hq <;> cases hq
    · rw [moved_of_ne hcrash] at hq
      rcases discarding_advance hq with ⟨earlier, hearlier⟩ | hfails
      · exact h q earlier hearlier
      · exact hresult hfails
  · simp only [ManagerWorld.step, Function.update_of_ne hself] at hq
    exact h q removal hq

end Steps

/-- **The managed root is handled as it is meant to be exactly as long as no resolver takes
anything of it in `cleanup_failed_managed_verification`.** For any number of resolvers and
any interleaving of their operations, failures and deaths. -/
theorem managedRoot_safe_iff (env : ManagerEnv Artifact)
    (labels : List (Nat × ResolveEvent Artifact)) :
    (managerMachine env).Respects (StepSafe env) .init labels ↔
      (managerMachine env).Respects (fun w label => ¬ Discards w label) .init labels := by
  refine Machine.respects_congr (P := ManagerInv env) ?_ managerInv_init labels
  intro w label h
  exact ⟨stepSafe_iff h, managerInv_step h⟩

/-- **Where no verification of a result fails other than as `runtime.version`, every step
handles the managed root as it is meant to.** That every process sees its files as they are is
enough for it. -/
theorem managedRoot_safe_of_results (env : ManagerEnv Artifact)
    {labels : List (Nat × ResolveEvent Artifact)}
    (h : (managerMachine env).Respects (fun w label => ¬ FailsResult env w label) .init labels) :
    (managerMachine env).Respects (StepSafe env) .init labels := by
  refine h.imp (P := fun w => ManagerInv env w ∧ NoneDiscards w) ?_
    ⟨managerInv_init, fun _ _ heq => by cases heq⟩
  intro w label hw hresult
  refine ⟨(stepSafe_iff hw.1).mpr ?_, managerInv_step hw.1, noneDiscards_step hw.2 hresult⟩
  rintro ⟨removal, hstage, _⟩
  exact hw.2 label.1 removal hstage

/-! ## A returned root that is taken away -/

/-- A package of one artifact. -/
def soloEnv : ManagerEnv Nat where
  pinned := {
    artifacts := [0], archive := [{ relative := some 0, isFile := true }]
    manifest := 0, entrypoint := 0 }
  policy _ := .ifMissing

/-- Both resolvers find no package; the first installs it and returns it. The second then
finds it valid under the lock, and fails to inspect it once more after that. -/
def takenAway : List (Nat × ResolveEvent Nat) :=
  [(1, .proceed)] ++
    (List.replicate 5 (0, .proceed) ++ (0, .named 7) :: List.replicate 16 (0, .proceed)) ++
    (List.replicate 10 (1, .proceed) ++ [(1, .fault), (1, .proceed), (1, .proceed)])

/-- The root one resolver returned is emptied by another that found it valid under the lock
and holds the lock no more. -/
theorem managedRoot_taken_away :
    ((managerMachine soloEnv).run takenAway).stages 0 = .returned .downloaded ∧
      ((managerMachine soloEnv).run takenAway).stages 1 = .discarding (.emptying 0) ∧
      ¬ ∀ labels : List (Nat × ResolveEvent Nat),
        (managerMachine soloEnv).Respects (StepSafe soloEnv) .init labels := by
  refine ⟨rfl, rfl, ?_⟩
  intro hall
  have hrun := hall (takenAway ++ [(1, .unlink 0)])
  have hsafe : StepSafe soloEnv ((managerMachine soloEnv).run takenAway) (1, .unlink 0) :=
    hrun.of_append.1
  have hroot : ((managerMachine soloEnv).run takenAway).cache.finalRoot =
      some { inode := 0, whole := {0}, partly := ∅ } := rfl
  have hne : (((managerMachine soloEnv).run takenAway).step soloEnv
      (1, .unlink 0)).cache.finalRoot ≠ some { inode := 0, whole := {0}, partly := ∅ } := by
    intro h
    have hwhole := congrArg (Option.map fun r => r.whole) h
    exact absurd (Option.some.inj hwhole) (by decide)
  cases (hsafe.removed _ hroot hne).1

end Vergerail
