import Vergerail.Session.Registry
import Vergerail.Proof.RouteOps

/-!
# One terminal result per run, and the first cause in it

A run ends once. What an operation does to the end of a run is one of five
things, whatever the operation: nothing, registering the next run, changing a
live route without ending it, publishing a result, or removing a route that has
nothing left to say. `EntryStep` lists the five; every registry operation is one
of them (`entryStep_apply`), and `TInv` is read off them one by one.

While a route is live its failure history and its `pending_failure` are the same
thing, so whatever publishes its result reports the first failure.
-/

namespace Vergerail

open Lib

/-- A published result reports a failure that was pending. -/
def Reports (pending : Option Error) (result : Result RunResult) : Prop :=
  ∀ error, pending = some error → ∃ error', result = .error error' ∧ error'.SameCause error

/-- Two states of a run's cells agree on the end of the run. -/
structure SameEnd (a b : RunShared) : Prop where
  value : b.terminal.value = a.terminal.value
  control : b.control = a.control
  receivers : a.terminal.receivers = 0 → b.terminal.receivers = 0

theorem SameEnd.refl (a : RunShared) : SameEnd a a := ⟨rfl, rfl, id⟩

namespace RunSlot

/-- What an operation can do to the end of a thread's runs. -/
inductive EntryStep (slot slot' : RunSlot) : Prop where
  /-- The route is untouched. -/
  | idle : slot'.route = slot.route → slot'.active = slot.active →
      slot'.registered = slot.registered → (∀ n, SameEnd (slot.cells n) (slot'.cells n)) →
      EntryStep slot slot'
  /-- The thread gets its next run. -/
  | registered (eventCapacity maximumOutputBytes : Nat) : slot.route = none →
      slot'.route = some (freshRoute slot.registered maximumOutputBytes) →
      slot'.active = true → slot'.registered = slot.registered + 1 →
      slot'.cells = Function.update slot.cells slot.registered (freshShared eventCapacity) →
      EntryStep slot slot'
  /-- A live route stays live, and keeps its turn and its first failure. -/
  | kept {route route' : RunRoute} {shared : RunShared} : slot.route = some route →
      route.phase.isTerminal = false → slot' = slot.store route' shared →
      route'.phase.isTerminal = false → route'.run = route.run →
      SameEnd (slot.cells route.run) shared →
      (route.pendingFailure = none ∨ route'.pendingFailure = route.pendingFailure) →
      (route'.phase.turnId = none → route.phase.turnId = none) → EntryStep slot slot'
  /-- A live route ends with a result. It stays in the map only to be acknowledged. -/
  | published {route : RunRoute} {result : Result RunResult} : slot.route = some route →
      route.phase.isTerminal = false → slot'.active = false →
      slot'.registered = slot.registered →
      slot'.cells = Function.update slot.cells route.run
        ((slot.cells route.run).publish result) →
      (∀ route', slot'.route = some route' → route'.run = route.run
        ∧ route'.phase.isTerminal = true ∧ route.phase.turnId = none
        ∧ (route'.pendingFailure = none ∨ route'.pendingFailure = route.pendingFailure)) →
      (Reports route.pendingFailure result
        ∨ ∃ route', slot'.route = some route' ∧ route'.phase.turnId = none) →
      EntryStep slot slot'
  /-- A route leaves the map with nothing to publish. -/
  | removed {route : RunRoute} {shared : RunShared} : slot.route = some route →
      slot'.route = none → slot'.active = false → slot'.registered = slot.registered →
      slot'.cells = Function.update slot.cells route.run shared →
      shared.terminal.value = (slot.cells route.run).terminal.value →
      shared.control.providerTerminalObserved = true → EntryStep slot slot'

end RunSlot

/-- The joint invariant of a thread's entry and its history. -/
structure TInv (slot : RunSlot) (recorded : Nat → Option Error) (acknowledged : Nat → Bool) :
    Prop where
  /-- The route in the map is that of the latest run. -/
  owner : ∀ route, slot.route = some route → route.run + 1 = slot.registered
  /-- A live route has published nothing. -/
  live : ∀ route, slot.route = some route → route.phase.isTerminal = false →
    (slot.cells route.run).terminal.value = none ∧ slot.active = true
      ∧ (slot.cells route.run).control.providerTerminalObserved = false
  /-- A route that waits for its acknowledgement has published, if anybody listens. -/
  ended : ∀ route, slot.route = some route → route.phase.isTerminal = true →
    slot.active = false ∧ (slot.cells route.run).control.providerTerminalObserved = true
      ∧ ((slot.cells route.run).terminal.value.isSome
        ∨ (slot.cells route.run).terminal.receivers = 0)
  /-- Without a route the session is idle. -/
  vacant : slot.route = none → slot.active = false
  /-- A run whose route is gone has its terminal observed. -/
  past : ∀ n, n < slot.registered → (∀ route, slot.route = some route → route.run ≠ n) →
    (slot.cells n).control.providerTerminalObserved = true
  /-- A run to come has no history. -/
  fresh : ∀ n, slot.registered ≤ n → recorded n = none ∧ acknowledged n = false
  /-- The failure a live route has pending is the first one recorded. -/
  pending : ∀ route, slot.route = some route →
    recorded route.run = route.pendingFailure
      ∨ (route.phase.isTerminal = true ∧ route.pendingFailure = none)
  /-- A route that knows no turn was not acknowledged. -/
  unacknowledged : ∀ route, slot.route = some route → route.phase.turnId = none →
    acknowledged route.run = false
  /-- What was published reports the first failure, unless no turn ever existed. -/
  reported : ∀ n result, (slot.cells n).terminal.value = some result →
    Reports (recorded n) result
      ∨ (acknowledged n = false
        ∧ ∀ route, slot.route = some route → route.run = n → route.phase.turnId = none)

theorem tInv_init (threadId : String) :
    TInv (RunSlot.vacant threadId) (fun _ => none) (fun _ => false) where
  owner := by intro route h; cases h
  live := by intro route h; cases h
  ended := by intro route h; cases h
  vacant := fun _ => rfl
  past := by intro n h; exact absurd h (Nat.not_lt_zero n)
  fresh := fun _ _ => ⟨rfl, rfl⟩
  pending := by intro route h; cases h
  unacknowledged := by intro route h; cases h
  reported := by intro n result h; cases h

/-! ## One operation -/

section EntryStep

variable {slot slot' : RunSlot} {recorded : Nat → Option Error} {acknowledged : Nat → Bool}

theorem noteFailure_of_none (h : slot.route = none) :
    RegistryWorld.noteFailure recorded slot = recorded := by
  unfold RegistryWorld.noteFailure; rw [h]

theorem noteFailure_of_route {route : RunRoute} (h : slot.route = some route) :
    RegistryWorld.noteFailure recorded slot
      = Function.update recorded route.run ((recorded route.run).or route.pendingFailure) := by
  unfold RegistryWorld.noteFailure; rw [h]

/-- A route whose failure is already on record adds nothing to it. -/
theorem noteFailure_eq {route : RunRoute} (h : slot.route = some route)
    (hp : recorded route.run = route.pendingFailure ∨ route.pendingFailure = none) :
    RegistryWorld.noteFailure recorded slot = recorded := by
  have hor : (recorded route.run).or route.pendingFailure = recorded route.run := by
    rcases hp with hp | hp
    · rw [hp]; cases route.pendingFailure <;> rfl
    · rw [hp]; cases recorded route.run <;> rfl
  rw [noteFailure_of_route h, hor, Function.update_eq_self]

/-- The failure of a live route is on record as it stands. -/
theorem TInv.pending_of_live (h : TInv slot recorded acknowledged) {route : RunRoute}
    (hroute : slot.route = some route) (hlive : route.phase.isTerminal = false) :
    recorded route.run = route.pendingFailure := by
  rcases h.pending route hroute with hp | ⟨ht, _⟩
  · exact hp
  · rw [hlive] at ht; cases ht

/-- A run other than the route's has left the map. -/
theorem TInv.past_of_ne (h : TInv slot recorded acknowledged) {route : RunRoute}
    (hroute : slot.route = some route) {n : Nat} (hn : n < slot.registered)
    (hne : n ≠ route.run) : (slot.cells n).control.providerTerminalObserved = true := by
  refine h.past n hn ?_
  intro r hr heq
  rw [hroute] at hr; cases hr
  exact hne heq.symm

/-- An operation that leaves the routes alone. -/
theorem tInv_idle (h : TInv slot recorded acknowledged) (hroute : slot'.route = slot.route)
    (hactive : slot'.active = slot.active) (hreg : slot'.registered = slot.registered)
    (hcells : ∀ n, SameEnd (slot.cells n) (slot'.cells n)) :
    TInv slot' (RegistryWorld.noteFailure recorded slot') acknowledged := by
  have hrec : RegistryWorld.noteFailure recorded slot' = recorded := by
    cases hr : slot.route with
    | none => exact noteFailure_of_none (hroute.trans hr)
    | some route =>
        refine noteFailure_eq (hroute.trans hr) ?_
        rcases h.pending route hr with hp | ⟨_, hp⟩
        · exact Or.inl hp
        · exact Or.inr hp
  rw [hrec]
  constructor
  · intro route hr
    rw [hroute] at hr; rw [hreg]
    exact h.owner route hr
  · intro route hr ht
    rw [hroute] at hr
    rw [(hcells _).value, (hcells _).control, hactive]
    exact h.live route hr ht
  · intro route hr ht
    rw [hroute] at hr
    obtain ⟨h1, h2, h3⟩ := h.ended route hr ht
    rw [(hcells _).value, (hcells _).control, hactive]
    refine ⟨h1, h2, ?_⟩
    rcases h3 with h3 | h3
    · exact Or.inl h3
    · exact Or.inr ((hcells _).receivers h3)
  · intro hr
    rw [hroute] at hr; rw [hactive]
    exact h.vacant hr
  · intro n hn hr
    rw [hreg] at hn; rw [hroute] at hr; rw [(hcells n).control]
    exact h.past n hn hr
  · intro n hn
    rw [hreg] at hn
    exact h.fresh n hn
  · intro route hr
    rw [hroute] at hr
    exact h.pending route hr
  · intro route hr
    rw [hroute] at hr
    exact h.unacknowledged route hr
  · intro n result hv
    rw [(hcells n).value] at hv; rw [hroute]
    exact h.reported n result hv

/-- The next run starts with nothing recorded and nothing published. -/
theorem tInv_registered (h : TInv slot recorded acknowledged) {cap bytes : Nat}
    (hnone : slot.route = none)
    (hroute : slot'.route = some (RunSlot.freshRoute slot.registered bytes))
    (hactive : slot'.active = true) (hreg : slot'.registered = slot.registered + 1)
    (hcells : slot'.cells
      = Function.update slot.cells slot.registered (RunSlot.freshShared cap)) :
    TInv slot' (RegistryWorld.noteFailure recorded slot') acknowledged := by
  obtain ⟨hrecorded, hack⟩ := h.fresh slot.registered (Nat.le_refl _)
  have hother : ∀ n, n ≠ slot.registered → slot'.cells n = slot.cells n := by
    intro n hn
    rw [hcells, Function.update_of_ne hn]
  have hself : slot'.cells slot.registered = RunSlot.freshShared cap := by
    rw [hcells, Function.update_self]
  rw [noteFailure_eq hroute (Or.inr rfl)]
  constructor
  · intro route hr
    rw [hroute] at hr; cases hr
    exact hreg.symm
  · intro route hr _
    rw [hroute] at hr; cases hr
    refine ⟨?_, hactive, ?_⟩
    · exact congrArg (fun shared => shared.terminal.value) hself
    · have hcontrol := congrArg (fun shared => shared.control.providerTerminalObserved) hself
      exact hcontrol.trans RunControl.new_providerTerminalObserved
  · intro route hr ht
    rw [hroute] at hr; cases hr; cases ht
  · intro hr
    rw [hroute] at hr; cases hr
  · intro n hn hr
    have hne : n ≠ slot.registered := fun heq => hr _ hroute heq.symm
    rw [hother n hne]
    refine h.past n (by omega) ?_
    intro route hr'
    rw [hnone] at hr'; cases hr'
  · intro n hn
    exact h.fresh n (by omega)
  · intro route hr
    rw [hroute] at hr; cases hr
    exact Or.inl hrecorded
  · intro route hr _
    rw [hroute] at hr; cases hr
    exact hack
  · intro n result hv
    by_cases hn : n = slot.registered
    · subst hn
      rw [hself] at hv; cases hv
    · rw [hother n hn] at hv
      rcases h.reported n result hv with hrep | ⟨hacked, _⟩
      · exact Or.inl hrep
      · refine Or.inr ⟨hacked, ?_⟩
        intro route hr hrun
        rw [hroute] at hr; cases hr
        exact absurd hrun.symm hn

/-- A live route that stays live keeps its own history. -/
theorem tInv_kept (h : TInv slot recorded acknowledged) {route route' : RunRoute}
    {shared : RunShared} (hroute : slot.route = some route)
    (hlive : route.phase.isTerminal = false) (hlive' : route'.phase.isTerminal = false)
    (hrun : route'.run = route.run) (hsame : SameEnd (slot.cells route.run) shared)
    (hpend : route.pendingFailure = none ∨ route'.pendingFailure = route.pendingFailure)
    (hturn : route'.phase.turnId = none → route.phase.turnId = none) :
    TInv (slot.store route' shared)
      (RegistryWorld.noteFailure recorded (slot.store route' shared)) acknowledged := by
  obtain ⟨hvalue, hactive, hobs⟩ := h.live route hroute hlive
  have hpending := h.pending_of_live hroute hlive
  have hnote : RegistryWorld.noteFailure recorded (slot.store route' shared)
      = Function.update recorded route'.run
          ((recorded route'.run).or route'.pendingFailure) := noteFailure_of_route rfl
  rw [hrun] at hnote
  have hself : RegistryWorld.noteFailure recorded (slot.store route' shared) route.run
      = route'.pendingFailure := by
    rw [hnote, Function.update_self, hpending]
    rcases hpend with hp | hp
    · rw [hp, Option.none_or]
    · rw [hp]; cases route.pendingFailure <;> rfl
  have hother : ∀ n, n ≠ route.run →
      RegistryWorld.noteFailure recorded (slot.store route' shared) n = recorded n := by
    intro n hn
    rw [hnote, Function.update_of_ne hn]
  have hcells : (slot.store route' shared).cells route.run = shared := by
    rw [← hrun]; exact RunSlot.store_cells_self ..
  have hcellsNe : ∀ n, n ≠ route.run → (slot.store route' shared).cells n = slot.cells n := by
    intro n hn
    exact RunSlot.store_cells_of_ne _ _ _ (by rw [hrun]; exact hn)
  constructor
  · intro r hr
    cases hr
    rw [hrun]; exact h.owner route hroute
  · intro r hr _
    cases hr
    rw [hrun, hcells, hsame.value, hsame.control]
    exact ⟨hvalue, hactive, hobs⟩
  · intro r hr ht
    cases hr
    rw [hlive'] at ht; cases ht
  · intro hr; cases hr
  · intro n hn hr
    have hne : n ≠ route.run := by
      intro heq
      exact hr route' rfl (hrun.trans heq.symm)
    rw [hcellsNe n hne]
    exact h.past_of_ne hroute hn hne
  · intro n hn
    have howner := h.owner route hroute
    rw [RunSlot.store_registered] at hn
    obtain ⟨h1, h2⟩ := h.fresh n hn
    exact ⟨(hother n (by omega)).trans h1, h2⟩
  · intro r hr
    cases hr
    rw [hrun]
    exact Or.inl hself
  · intro r hr ht
    cases hr
    rw [hrun]
    exact h.unacknowledged route hroute (hturn ht)
  · intro n result hv
    by_cases hn : n = route.run
    · subst hn
      rw [hcells, hsame.value, hvalue] at hv
      cases hv
    · rw [hcellsNe n hn] at hv
      rw [hother n hn]
      rcases h.reported n result hv with hrep | ⟨hack, _⟩
      · exact Or.inl hrep
      · refine Or.inr ⟨hack, ?_⟩
        intro r hr heq
        cases hr
        exact absurd (heq.symm.trans hrun) hn

/-- A live route that ends leaves its result behind. -/
theorem tInv_published (h : TInv slot recorded acknowledged) {route : RunRoute}
    {result : Result RunResult} (hroute : slot.route = some route)
    (hlive : route.phase.isTerminal = false) (hidle : slot'.active = false)
    (hreg : slot'.registered = slot.registered)
    (hcells : slot'.cells = Function.update slot.cells route.run
      ((slot.cells route.run).publish result))
    (hafter : ∀ route', slot'.route = some route' → route'.run = route.run
      ∧ route'.phase.isTerminal = true ∧ route.phase.turnId = none
      ∧ (route'.pendingFailure = none ∨ route'.pendingFailure = route.pendingFailure))
    (hreports : Reports route.pendingFailure result
      ∨ ∃ route', slot'.route = some route' ∧ route'.phase.turnId = none) :
    TInv slot' (RegistryWorld.noteFailure recorded slot') acknowledged := by
  obtain ⟨hvalue, hactive, hobs⟩ := h.live route hroute hlive
  have hpending := h.pending_of_live hroute hlive
  -- the route that is left, if any, has no failure that is not on record
  have hrec : RegistryWorld.noteFailure recorded slot' = recorded := by
    cases hcase : slot'.route with
    | none => exact noteFailure_of_none hcase
    | some route' =>
        obtain ⟨hrun, _, _, hp⟩ := hafter route' hcase
        refine noteFailure_eq hcase ?_
        rcases hp with hp | hp
        · exact Or.inr hp
        · exact Or.inl (by rw [hrun, hp]; exact hpending)
  have hself : slot'.cells route.run = (slot.cells route.run).publish result := by
    rw [hcells, Function.update_self]
  have hother : ∀ n, n ≠ route.run → slot'.cells n = slot.cells n := by
    intro n hn
    rw [hcells, Function.update_of_ne hn]
  have hmarked : (slot'.cells route.run).control.providerTerminalObserved = true := by
    rw [hself]; exact RunControl.markProviderTerminal_observed _
  rw [hrec]
  constructor
  · intro r hr
    obtain ⟨hrun, _⟩ := hafter r hr
    rw [hrun, hreg]; exact h.owner route hroute
  · intro r hr ht
    obtain ⟨_, hterm, _⟩ := hafter r hr
    rw [hterm] at ht; cases ht
  · intro r hr _
    obtain ⟨hrun, _⟩ := hafter r hr
    rw [hrun]
    refine ⟨hidle, hmarked, ?_⟩
    rw [hself]
    by_cases hrecv : (slot.cells route.run).terminal.receivers = 0
    · exact Or.inr ((Watch.send_receivers _ _).trans hrecv)
    · refine Or.inl ?_
      have hsent := Watch.send_value hrecv (some result)
      exact (congrArg Option.isSome hsent).trans rfl
  · intro _; exact hidle
  · intro n hn hr
    rw [hreg] at hn
    by_cases hne : n = route.run
    · rw [hne]; exact hmarked
    · rw [hother n hne]
      exact h.past_of_ne hroute hn hne
  · intro n hn
    rw [hreg] at hn
    exact h.fresh n hn
  · intro r hr
    obtain ⟨hrun, hterm, _, hp⟩ := hafter r hr
    rcases hp with hp | hp
    · exact Or.inr ⟨hterm, hp⟩
    · exact Or.inl (by rw [hrun, hp]; exact hpending)
  · intro r hr _
    obtain ⟨hrun, _, hturn, _⟩ := hafter r hr
    rw [hrun]; exact h.unacknowledged route hroute hturn
  · intro n res hv
    by_cases hne : n = route.run
    · subst hne
      rw [hself] at hv
      have hsent : (slot.cells route.run).terminal.value = some res
          ∨ some result = some res := by
        rcases Watch.send_value_cases (slot.cells route.run).terminal (some result)
          with heq | heq
        · exact Or.inl (heq.symm.trans hv)
        · exact Or.inr (heq.symm.trans hv)
      rcases hsent with hold | hnew
      · rw [hvalue] at hold; cases hold
      · cases hnew
        rcases hreports with hrep | ⟨route', hkept, hnoTurn⟩
        · exact Or.inl (by rw [hpending]; exact hrep)
        · obtain ⟨hrun, _, hturn, _⟩ := hafter route' hkept
          refine Or.inr ⟨h.unacknowledged route hroute hturn, ?_⟩
          intro r hr _
          rw [hkept] at hr; cases hr
          exact hnoTurn
    · rw [hother n hne] at hv
      rcases h.reported n res hv with hrep | ⟨hack, _⟩
      · exact Or.inl hrep
      · refine Or.inr ⟨hack, ?_⟩
        intro r hr heq
        obtain ⟨hrun, _⟩ := hafter r hr
        exact absurd (heq.symm.trans hrun) hne

/-- Removing a route that publishes nothing keeps what its run published before. -/
theorem tInv_removed (h : TInv slot recorded acknowledged) {route : RunRoute}
    {shared : RunShared} (hroute : slot.route = some route) (hnone : slot'.route = none)
    (hidle : slot'.active = false) (hreg : slot'.registered = slot.registered)
    (hcells : slot'.cells = Function.update slot.cells route.run shared)
    (hvalue : shared.terminal.value = (slot.cells route.run).terminal.value)
    (hobs : shared.control.providerTerminalObserved = true) :
    TInv slot' (RegistryWorld.noteFailure recorded slot') acknowledged := by
  have hself : slot'.cells route.run = shared := by
    rw [hcells, Function.update_self]
  have hother : ∀ n, n ≠ route.run → slot'.cells n = slot.cells n := by
    intro n hn
    rw [hcells, Function.update_of_ne hn]
  have hvalues : ∀ n, (slot'.cells n).terminal.value = (slot.cells n).terminal.value := by
    intro n
    by_cases hne : n = route.run
    · rw [hne, hself, hvalue]
    · rw [hother n hne]
  rw [noteFailure_of_none hnone]
  constructor
  · intro r hr
    rw [hnone] at hr; cases hr
  · intro r hr
    rw [hnone] at hr; cases hr
  · intro r hr
    rw [hnone] at hr; cases hr
  · intro _; exact hidle
  · intro n hn _
    rw [hreg] at hn
    by_cases hne : n = route.run
    · rw [hne, hself]; exact hobs
    · rw [hother n hne]
      exact h.past_of_ne hroute hn hne
  · intro n hn
    rw [hreg] at hn
    exact h.fresh n hn
  · intro r hr
    rw [hnone] at hr; cases hr
  · intro r hr
    rw [hnone] at hr; cases hr
  · intro n res hv
    rw [hvalues n] at hv
    rcases h.reported n res hv with hrep | ⟨hack, _⟩
    · exact Or.inl hrep
    · refine Or.inr ⟨hack, ?_⟩
      intro r hr
      rw [hnone] at hr; cases hr

/-- **Every kind of entry step keeps the invariant.** -/
theorem tInv_entryStep (h : TInv slot recorded acknowledged) (hs : slot.EntryStep slot') :
    TInv slot' (RegistryWorld.noteFailure recorded slot') acknowledged := by
  cases hs with
  | idle hroute hactive hreg hcells => exact tInv_idle h hroute hactive hreg hcells
  | registered cap bytes hnone hroute hactive hreg hcells =>
      exact tInv_registered h hnone hroute hactive hreg hcells
  | kept hroute hlive heq hlive' hrun hsame hpend hturn =>
      subst heq
      exact tInv_kept h hroute hlive hlive' hrun hsame hpend hturn
  | published hroute hlive hidle hreg hcells hafter hreports =>
      exact tInv_published h hroute hlive hidle hreg hcells hafter hreports
  | removed hroute hnone hidle hreg hcells hvalue hobs =>
      exact tInv_removed h hroute hnone hidle hreg hcells hvalue hobs

/-- Registrations are only ever added. -/
theorem RunSlot.EntryStep.registered_le (hs : slot.EntryStep slot') :
    slot.registered ≤ slot'.registered := by
  cases hs with
  | idle _ _ hreg _ => omega
  | registered _ _ _ _ _ hreg _ => omega
  | kept _ _ heq _ _ _ _ _ => subst heq; exact Nat.le_refl _
  | published _ _ _ hreg _ _ _ => omega
  | removed _ _ _ hreg _ _ _ => omega

/-- A published value survives every kind of entry step. -/
theorem value_entryStep (h : TInv slot recorded acknowledged) (hs : slot.EntryStep slot')
    {n : Nat} (hn : n < slot.registered) {result : Result RunResult}
    (hv : (slot.cells n).terminal.value = some result) :
    (slot'.cells n).terminal.value = some result := by
  -- a live route has published nothing, so its run is not `n`
  have hne : ∀ route, slot.route = some route → route.phase.isTerminal = false →
      n ≠ route.run := by
    rintro route hroute hlive rfl
    rw [(h.live route hroute hlive).1] at hv; cases hv
  cases hs with
  | idle _ _ _ hcells => rw [(hcells n).value]; exact hv
  | registered cap bytes hnone _ _ _ hcells =>
      rw [hcells, Function.update_of_ne (by omega)]; exact hv
  | kept hroute hlive heq _ hrun _ _ _ =>
      subst heq
      rw [RunSlot.store_cells_of_ne _ _ _ (by rw [hrun]; exact hne _ hroute hlive)]
      exact hv
  | published hroute hlive _ _ hcells _ _ =>
      rw [hcells, Function.update_of_ne (hne _ hroute hlive)]; exact hv
  | @removed route shared hroute _ _ _ hcells hvalue _ =>
      rw [hcells]
      by_cases hn' : n = route.run
      · subst hn'
        rw [Function.update_self, hvalue]; exact hv
      · rw [Function.update_of_ne hn']; exact hv

end EntryStep

/-! ## The registry operations -/

section Operations

variable {slot : RunSlot} {recorded : Nat → Option Error} {acknowledged : Nat → Bool}

/-- Writing a live route back as a live route. -/
theorem entryStep_keep {route route' : RunRoute} (hroute : slot.route = some route)
    (hlive : route.phase.isTerminal = false) (hlive' : route'.phase.isTerminal = false)
    (hrun : route'.run = route.run)
    (hpend : route.pendingFailure = none ∨ route'.pendingFailure = route.pendingFailure)
    (hturn : route'.phase.turnId = none → route.phase.turnId = none) :
    slot.EntryStep (slot.store route' (slot.cells route.run)) :=
  .kept hroute hlive rfl hlive' hrun (.refl _) hpend hturn

theorem entryStep_refl (slot : RunSlot) : slot.EntryStep slot :=
  .idle rfl rfl rfl (fun _ => .refl _)

theorem entryStep_startRun (slot : RunSlot) (cap bytes : Nat) :
    slot.EntryStep (slot.startRun cap bytes).2 := by
  unfold RunSlot.startRun
  by_cases hactive : slot.active = true
  · rw [if_pos hactive]; exact entryStep_refl slot
  · rw [if_neg hactive]
    unfold RunSlot.register
    cases hroute : slot.route with
    | none => exact .registered cap bytes hroute rfl rfl rfl rfl
    | some route =>
        refine .idle hroute.symm ?_ rfl (fun _ => .refl _)
        exact (by simpa using hactive : slot.active = false).symm

/-- Rewriting the cells of a run without touching its end. -/
theorem entryStep_updateCells {run : Nat} {shared : RunShared}
    (h : SameEnd (slot.cells run) shared) : slot.EntryStep (slot.updateCells run shared) := by
  refine .idle rfl rfl rfl ?_
  intro n
  unfold RunSlot.updateCells
  dsimp only
  by_cases hn : n = run
  · subst hn
    rw [Function.update_self]; exact h
  · rw [Function.update_of_ne hn]; exact .refl _

/-- Publishing a terminal that reports what was pending. -/
theorem entryStep_publishTerminal {route : RunRoute} {turnId : String}
    {result : Result RunResult} (hroute : slot.route = some route)
    (hlive : route.phase.isTerminal = false) (hr : Reports route.pendingFailure result) :
    slot.EntryStep (slot.publishTerminal route turnId result) := by
  unfold RunSlot.publishTerminal
  dsimp only
  cases hphase : route.phase with
  | starting _ =>
      refine .published hroute hlive rfl rfl rfl ?_ (Or.inl hr)
      intro route' hr'
      cases hr'
      exact ⟨rfl, rfl, by rw [hphase]; rfl, Or.inl rfl⟩
  | replaying _ _ =>
      refine .published hroute hlive rfl rfl rfl ?_ (Or.inl hr)
      intro route' hr'; cases hr'
  | active _ =>
      refine .published hroute hlive rfl rfl rfl ?_ (Or.inl hr)
      intro route' hr'; cases hr'
  | terminalBeforeStart _ =>
      rw [hphase] at hlive; cases hlive

/-- Routing an event can only keep a route as it is or record a failure. -/
theorem entryStep_routeEvent (slot : RunSlot) (observed : Option String)
    (sourceMethod : String) (event : Event) (defer : Bool) (cap : Nat) :
    slot.EntryStep (slot.routeEvent observed sourceMethod event defer cap).2 := by
  cases hroute : slot.route with
  | none => rw [RunSlot.routeEvent_of_none hroute]; exact entryStep_refl slot
  | some route =>
      obtain ⟨outcome, route', shared', heq, hspec⟩ :=
        RunSlot.routeEvent_of_route hroute observed sourceMethod event defer cap
      rw [heq]
      rcases hspec.kept (RunPhase.deferred_of_ite defer) with ⟨h1, h2⟩ | ⟨ht, hp, hrun, ⟨queue', hphase⟩, hterm, hctrl⟩
      · rw [h1, h2, RunSlot.store_self hroute]; exact entryStep_refl slot
      · refine .kept hroute ht rfl ?_ hrun ⟨by rw [hterm], hctrl, ?_⟩ (Or.inl hp) ?_
        · rw [hphase, RunPhase.setDeferred_isTerminal]; exact ht
        · rw [hterm]; exact id
        · rw [hphase, RunPhase.setDeferred_turnId]; exact id

/-- A provider terminal is deferred, ignored, or ends the run with what was pending first. -/
theorem entryStep_routeTerminal (slot : RunSlot) (completion : TurnCompletion) (params : Json)
    (defer : Bool) (cap : Nat) :
    slot.EntryStep (slot.routeTerminal completion params defer cap).2 := by
  cases hroute : slot.route with
  | none => rw [RunSlot.routeTerminal_of_none hroute]; exact entryStep_refl slot
  | some route =>
      have hspec := RunSlot.routeTerminal_of_route hroute completion params defer cap
      have hqueue : ∀ waiting, (if defer && route.pendingFailure.isNone then route.phase.deferred
          else none) = some waiting → route.phase.deferred = some waiting :=
        RunPhase.deferred_of_ite (defer && route.pendingFailure.isNone)
      generalize (if defer && route.pendingFailure.isNone then route.phase.deferred else none)
        = queue at hspec hqueue
      cases hrouted : slot.routeTerminal completion params defer cap with
      | mk outcome slot' =>
      rw [hrouted] at hspec
      cases hspec with
      | duplicate _ => exact entryStep_refl _
      | mismatch _ _ _ => exact entryStep_refl _
      | deferred hq _ =>
          have ht := RunPhase.isTerminal_of_deferred (hqueue _ hq)
          refine entryStep_keep hroute ht ?_ rfl (Or.inr rfl) ?_
          · exact (RunPhase.setDeferred_isTerminal ..).trans ht
          · intro hturn; rwa [RunPhase.setDeferred_turnId] at hturn
      | mismatchFull hq _ _ _ =>
          have ht := RunPhase.isTerminal_of_deferred (hqueue _ hq)
          refine entryStep_keep hroute ht ?_ rfl (Or.inr rfl) ?_
          · exact (RunPhase.setDeferred_isTerminal ..).trans ht
          · intro hturn; rwa [RunPhase.setDeferred_turnId] at hturn
      | completed ht _ _ =>
          refine entryStep_publishTerminal hroute ht ?_
          intro error he
          refine ⟨error, ?_, .refl error⟩
          unfold RunSlot.terminalResult
          rw [he, Option.some_or]

theorem entryStep_acknowledgeStart (h : TInv slot recorded acknowledged) (turnId : String) :
    slot.EntryStep (slot.acknowledgeStart turnId).2 := by
  unfold RunSlot.acknowledgeStart
  cases hroute : slot.route with
  | none => exact entryStep_refl slot
  | some route =>
      -- a route that ended is removed with its cells as they are
      have hremove : route.phase.isTerminal = true →
          slot.EntryStep { slot with route := none } := by
        intro ht
        obtain ⟨hidle, hobs, _⟩ := h.ended route hroute ht
        refine .removed hroute rfl hidle rfl ?_ rfl hobs
        exact (Function.update_eq_self ..).symm
      dsimp only
      cases hphase : route.phase with
      | starting deferred =>
          refine entryStep_keep hroute (by rw [hphase]; rfl) rfl rfl (Or.inr rfl) ?_
          intro hturn; cases hturn
      | terminalBeforeStart expected =>
          cases expected with
          | none => exact hremove (by rw [hphase]; rfl)
          | some expected =>
              dsimp only
              by_cases hne : expected ≠ turnId
              · rw [if_pos hne]; exact entryStep_refl slot
              · rw [if_neg hne]; exact hremove (by rw [hphase]; rfl)
      | replaying _ _ => exact entryStep_refl slot
      | active _ => exact entryStep_refl slot

theorem entryStep_replayTransition (slot : RunSlot) (turnId : String) :
    slot.EntryStep (slot.replayTransition turnId).2 := by
  unfold RunSlot.replayTransition
  cases hroute : slot.route with
  | none => exact entryStep_refl slot
  | some route =>
      dsimp only
      cases hphase : route.phase with
      | starting _ => exact entryStep_refl slot
      | active _ => exact entryStep_refl slot
      | terminalBeforeStart _ => exact entryStep_refl slot
      | replaying activeTurn deferred =>
          have ht : route.phase.isTerminal = false := by rw [hphase]; rfl
          dsimp only
          by_cases hturn : activeTurn = turnId
          · rw [if_pos hturn]
            by_cases hempty : deferred.isEmpty = true
            · rw [if_pos hempty]
              refine entryStep_keep hroute ht rfl rfl (Or.inr rfl) ?_
              intro hnone; cases hnone
            · rw [if_neg hempty]
              refine entryStep_keep hroute ht rfl rfl (Or.inr rfl) ?_
              intro hnone; cases hnone
          · rw [if_neg hturn]; exact entryStep_refl slot

/-- A failed request ends a run that has no turn yet. -/
theorem entryStep_failBeforeStart (slot : RunSlot) (error : Error) :
    slot.EntryStep (slot.failBeforeStart error).2 := by
  unfold RunSlot.failBeforeStart
  cases hroute : slot.route with
  | none => exact entryStep_refl slot
  | some route =>
      dsimp only
      cases hphase : route.phase with
      | terminalBeforeStart _ => exact entryStep_refl slot
      | replaying _ _ => exact entryStep_refl slot
      | active _ => exact entryStep_refl slot
      | starting _ =>
          refine .published hroute (by rw [hphase]; rfl) rfl rfl rfl ?_ (Or.inr ⟨_, rfl, rfl⟩)
          intro route' hr
          cases hr
          exact ⟨rfl, rfl, by rw [hphase]; rfl, Or.inr rfl⟩

theorem entryStep_failActive (slot : RunSlot) (turnId : String) (control : Nat)
    (error : Error) : slot.EntryStep (slot.failActive turnId control error).2 := by
  unfold RunSlot.failActive
  cases hroute : slot.route with
  | none => exact entryStep_refl slot
  | some route =>
      dsimp only
      by_cases hskip : (route.phase.isTerminal || route.phase.turnId ≠ some turnId
          || route.run ≠ control || route.pendingFailure.isSome) = true
      · rw [if_pos hskip]; exact entryStep_refl slot
      · rw [if_neg hskip]
        simp only [Bool.or_eq_true, decide_eq_true_eq, not_or, Option.isSome_iff_ne_none,
          Bool.not_eq_true, Classical.not_not] at hskip
        obtain ⟨⟨⟨ht, _⟩, _⟩, hp⟩ := hskip
        exact entryStep_keep hroute ht ht rfl (Or.inl hp) id

theorem entryStep_cancelRegistered (slot : RunSlot) :
    slot.EntryStep slot.cancelRegistered.2 := by
  unfold RunSlot.cancelRegistered
  cases hroute : slot.route with
  | none => exact entryStep_refl slot
  | some route =>
      have hobs : ∀ shared : RunShared,
          shared.observeTerminal.control.providerTerminalObserved = true := by
        intro shared; exact RunControl.markProviderTerminal_observed _
      dsimp only
      by_cases ht : route.phase.isTerminal = true
      · rw [if_pos ht]
        exact .removed hroute rfl rfl rfl rfl rfl (hobs _)
      · rw [if_neg ht]
        have ht' : route.phase.isTerminal = false := by simpa using ht
        cases hturn : route.phase.turnId with
        | some turnId => exact .kept hroute ht' rfl ht' rfl ⟨rfl, rfl, id⟩ (Or.inr rfl) id
        | none => exact .removed hroute rfl rfl rfl rfl rfl (hobs _)

/-- A lost connection ends a live route with its first failure, and removes any route. -/
theorem entryStep_failAll (h : TInv slot recorded acknowledged) (error : Error) :
    slot.EntryStep (slot.failAll error) := by
  unfold RunSlot.failAll
  cases hroute : slot.route with
  | none => exact entryStep_refl slot
  | some route =>
      dsimp only
      by_cases ht : route.phase.isTerminal = true
      · obtain ⟨_, _, hpub⟩ := h.ended route hroute ht
        refine .removed hroute rfl rfl rfl rfl ?_ ?_
        · split
          · rename_i hnone
            rcases hpub with hpub | hpub
            · have hnone' : (slot.cells route.run).terminal.value.isNone = true := hnone
              rw [Option.isNone_iff_eq_none] at hnone'
              rw [hnone'] at hpub; cases hpub
            · have hsend : ∀ value, (slot.cells route.run).terminal.send value
                  = (slot.cells route.run).terminal := by
                intro value
                unfold Watch.send; rw [if_pos hpub]
              exact congrArg Watch.value (hsend _)
          · rfl
        · split <;> exact RunControl.markProviderTerminal_observed _
      · have ht' : route.phase.isTerminal = false := by simpa using ht
        obtain ⟨hvalue, _, _⟩ := h.live route hroute ht'
        have hnone : (slot.cells route.run).observeTerminal.terminal.value.isNone = true := by
          have : (slot.cells route.run).observeTerminal.terminal.value = none := hvalue
          rw [this]; rfl
        rw [if_pos hnone]
        refine .published hroute ht' rfl rfl rfl ?_ (Or.inl ?_)
        · intro route' hr; cases hr
        · intro primary hp
          rw [hp]
          exact ⟨_, rfl, Error.sameCause_withRelatedError ..⟩

/-- **Every operation is one of the entry steps.** -/
theorem entryStep_apply (h : TInv slot recorded acknowledged) (op : RegistryOp) :
    slot.EntryStep (slot.apply op) := by
  cases op with
  | register cap bytes => exact entryStep_startRun slot cap bytes
  | routeEvent observed sourceMethod event defer cap =>
      exact entryStep_routeEvent slot observed sourceMethod event defer cap
  | routeTerminal completion params defer cap =>
      exact entryStep_routeTerminal slot completion params defer cap
  | acknowledgeStart turnId => exact entryStep_acknowledgeStart h turnId
  | replayTransition turnId => exact entryStep_replayTransition slot turnId
  | failBeforeStart error => exact entryStep_failBeforeStart slot error
  | failActive turnId control error => exact entryStep_failActive slot turnId control error
  | cancelRegistered => exact entryStep_cancelRegistered slot
  | failAll error => exact entryStep_failAll h error
  | abandon run => exact entryStep_updateCells ⟨rfl, rfl, id⟩
  | dropChannels run =>
      refine entryStep_updateCells ⟨rfl, rfl, ?_⟩
      intro hzero
      have hdrop : (slot.cells run).terminal.receivers - 1 = 0 := by omega
      exact hdrop

end Operations

/-! ## Every run of operations -/

/-- The invariant of a world. -/
def TerminalInv (w : RegistryWorld) : Prop := TInv w.slot w.recorded w.acknowledged

/-- Accepting an acknowledgement makes a run's history binding. -/
theorem TInv.acknowledge {slot : RunSlot} {recorded : Nat → Option Error}
    {acknowledged : Nat → Bool} (h : TInv slot recorded acknowledged) {run : Nat}
    (hrun : run < slot.registered)
    (hturn : ∀ route, slot.route = some route → route.run = run → route.phase.turnId ≠ none)
    (hrep : ∀ result, (slot.cells run).terminal.value = some result →
      Reports (recorded run) result) :
    TInv slot recorded (Function.update acknowledged run true) := by
  refine { h with fresh := ?_, unacknowledged := ?_, reported := ?_ }
  · intro n hn
    rw [Function.update_of_ne (by omega)]
    exact h.fresh n hn
  · intro route hr hnone
    have hne : route.run ≠ run := fun heq => hturn route hr heq hnone
    rw [Function.update_of_ne hne]
    exact h.unacknowledged route hr hnone
  · intro n result hv
    by_cases hn : n = run
    · subst hn
      exact Or.inl (hrep result hv)
    · rw [Function.update_of_ne hn]
      exact h.reported n result hv

/-- What an accepted acknowledgement says about the route, before and after. -/
theorem acknowledges_some {slot : RunSlot} {turnId : String} {run : Nat}
    (h : slot.acknowledges turnId = some run) :
    ∃ route, slot.route = some route ∧ route.run = run
      ∧ ((∃ route', (slot.acknowledgeStart turnId).2 = slot.store route' (slot.cells run)
            ∧ route.phase.isTerminal = false ∧ route'.run = run ∧ route'.phase.turnId ≠ none)
        ∨ ((slot.acknowledgeStart turnId).2 = { slot with route := none }
            ∧ route.phase.turnId ≠ none)) := by
  unfold RunSlot.acknowledges at h
  cases hroute : slot.route with
  | none => rw [hroute] at h; cases h
  | some route =>
      rw [hroute] at h
      unfold RunSlot.acknowledgeStart at h ⊢
      rw [hroute] at h ⊢
      dsimp only at h ⊢
      cases hphase : route.phase with
      | starting deferred =>
          rw [hphase] at h
          cases h
          exact ⟨route, rfl, rfl, Or.inl ⟨_, rfl, by rw [hphase]; rfl, rfl, by simp [RunPhase.turnId]⟩⟩
      | terminalBeforeStart expected =>
          have hturn : route.phase.turnId = expected := by rw [hphase]; rfl
          rw [hphase] at h
          cases expected with
          | none => dsimp only at h; rw [hturn] at h; cases h
          | some expected =>
              dsimp only at h ⊢
              by_cases hne : expected ≠ turnId
              · rw [if_pos hne] at h; cases h
              · rw [if_neg hne] at h ⊢
                dsimp only at h
                rw [hturn] at h
                cases h
                exact ⟨route, rfl, rfl, Or.inr ⟨rfl, by rw [hphase]; simp [RunPhase.turnId]⟩⟩
      | replaying _ _ => rw [hphase] at h; cases h
      | active _ => rw [hphase] at h; cases h

theorem terminalInv_init (threadId : String) : TerminalInv (registryMachine threadId).init :=
  tInv_init threadId

/-- **Every operation keeps the invariant.** -/
theorem terminalInv_step {w : RegistryWorld} (h : TerminalInv w) (op : RegistryOp) :
    TerminalInv (w.act op) := by
  have hstep := tInv_entryStep h (entryStep_apply h op)
  unfold TerminalInv RegistryWorld.act
  cases op with
  | acknowledgeStart turnId =>
      dsimp only
      cases hack : w.slot.acknowledges turnId with
      | none => exact hstep
      | some run =>
          obtain ⟨route, hroute, hrun, hcase⟩ := acknowledges_some hack
          have howner := h.owner route hroute
          have hslot : w.slot.apply (.acknowledgeStart turnId)
              = (w.slot.acknowledgeStart turnId).2 := rfl
          rw [hslot] at hstep ⊢
          rcases hcase with ⟨route', heq, hlive, hrun', hturn⟩ | ⟨heq, hturn⟩
          · rw [heq] at hstep ⊢
            refine hstep.acknowledge ?_ ?_ ?_
            · rw [RunSlot.store_registered]; omega
            · intro r hr _
              cases hr
              exact hturn
            · intro result hv
              obtain ⟨hnone, _⟩ := h.live route hroute hlive
              rw [← hrun', RunSlot.store_cells_self, hrun', ← hrun, hnone] at hv
              cases hv
          · rw [heq, noteFailure_of_none rfl] at hstep
            rw [heq, noteFailure_of_none rfl]
            refine hstep.acknowledge ?_ ?_ ?_
            · have hlt : run < w.slot.registered := by omega
              exact hlt
            · intro r hr; cases hr
            · intro result hv
              rcases h.reported run result hv with hrep | ⟨_, hnone⟩
              · exact hrep
              · exact absurd (hnone route hroute hrun) hturn
  | _ => exact hstep

/-- **The invariant holds after every sequence of operations.** -/
theorem terminalInv_run (threadId : String) (ops : List RegistryOp) :
    TerminalInv ((registryMachine threadId).run ops) :=
  (Machine.reachable_run ops).invariant (terminalInv_init threadId)
    (fun _ op _ h _ => terminalInv_step h op)

/-- What was published stays published, whatever operations follow. -/
theorem value_runFrom (threadId : String) {w : RegistryWorld} (h : TerminalInv w) {n : Nat}
    (hn : n < w.slot.registered) {result : Result RunResult}
    (hv : (w.slot.cells n).terminal.value = some result) (ops : List RegistryOp) :
    ((((registryMachine threadId).runFrom w ops).slot.cells n).terminal.value) = some result := by
  induction ops generalizing w with
  | nil => exact hv
  | cons op ops ih =>
      have hs := entryStep_apply h op
      refine ih (terminalInv_step h op) ?_ (value_entryStep h hs hn hv)
      have hmono : w.slot.registered ≤ (w.slot.apply op).registered := hs.registered_le
      have hreg : (w.act op).slot.registered = (w.slot.apply op).registered := rfl
      rw [show ((registryMachine threadId).step w op) = w.act op from rfl, hreg]
      omega

/--
**A run ends once, with its first cause.** After any sequence of registry
operations on a thread: what a run published stays as it is whatever follows; a
registered route in a non-terminal phase has an empty watch, `active` set and no
provider terminal; a run that published or lost its route has its provider
terminal observed, and `active` is clear until the thread registers another run;
and an acknowledged run with a recorded failure publishes an error of the kind
and operation of the first one.
-/
theorem terminal_published_once (threadId : String) (ops : List RegistryOp) :
    let w := (registryMachine threadId).run ops
    (∀ n result, n < w.slot.registered → (w.slot.cells n).terminal.value = some result →
      ∀ more, ((((registryMachine threadId).run (ops ++ more)).slot.cells n).terminal.value)
        = some result)
    ∧ (∀ route, w.slot.route = some route → route.phase.isTerminal = false →
        (w.slot.cells route.run).terminal.value = none ∧ w.slot.active = true
          ∧ (w.slot.cells route.run).control.providerTerminalObserved = false)
    ∧ (∀ n, n < w.slot.registered →
        ((w.slot.cells n).terminal.value.isSome
          ∨ ∀ route, w.slot.route = some route → route.run ≠ n) →
        (w.slot.cells n).control.providerTerminalObserved = true
          ∧ (n + 1 = w.slot.registered → w.slot.active = false))
    ∧ (∀ n error result, w.recorded n = some error → w.acknowledged n = true →
        (w.slot.cells n).terminal.value = some result →
        ∃ error', result = .error error' ∧ error'.SameCause error) := by
  intro w
  have h : TerminalInv w := terminalInv_run threadId ops
  refine ⟨?_, h.live, ?_, ?_⟩
  · intro n result hn hv more
    unfold Machine.run
    rw [Machine.runFrom_append]
    exact value_runFrom threadId h hn hv more
  · intro n hn hend
    cases hroute : w.slot.route with
    | none =>
        refine ⟨h.past n hn ?_, fun _ => h.vacant hroute⟩
        intro route hr
        rw [hroute] at hr; cases hr
    | some route =>
        have howner := h.owner route hroute
        by_cases hne : route.run = n
        · have ht : route.phase.isTerminal = true := by
            rcases hend with hv | hgone
            · by_contra hlive
              have hlive' : route.phase.isTerminal = false := by simpa using hlive
              obtain ⟨hnone, _⟩ := h.live route hroute hlive'
              rw [hne] at hnone
              rw [hnone] at hv; cases hv
            · exact absurd hne (hgone route hroute)
          obtain ⟨hidle, hobs, _⟩ := h.ended route hroute ht
          rw [hne] at hobs
          exact ⟨hobs, fun _ => hidle⟩
        · refine ⟨h.past_of_ne hroute hn (Ne.symm hne), ?_⟩
          intro hlast
          omega
  · intro n error result hrec hack hv
    rcases h.reported n result hv with hrep | ⟨hunack, _⟩
    · exact hrep error hrec
    · rw [hunack] at hack; cases hack

end Vergerail
