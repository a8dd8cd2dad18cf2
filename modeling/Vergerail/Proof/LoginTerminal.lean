import Vergerail.Account
import Mathlib.Data.List.Nodup

/-!
# The first login result wins and reaches every waiter

`LoginInv` has two halves. The first is about waiters: an id is stored at one place,
under a login without a result, and was sent nothing yet. The second is about the
cache of early completions: the order lists exactly the cached ids, none of them is
registered, and the cache is bounded.

The rest are runs: a result stays, a waiter that is stored is answered with it, and a
cached completion waits for its registration as long as fewer than the capacity of
other completions push against it.
-/

namespace Vergerail

open Lib

/-- The invariant of a login registry. -/
structure LoginInv (w : LoginWorld) : Prop where
  sorted : SortedMap.Sorted w.state.active
  /-- A login with a result stores no waiter. -/
  settled : ∀ id entry, w.state.entry id = some entry → entry.terminal.isSome →
    entry.waiters = []
  /-- No waiter is stored twice. -/
  nodup : ∀ id entry, w.state.entry id = some entry → entry.waiters.Nodup
  apart : ∀ id id' entry entry' n, w.state.entry id = some entry →
    w.state.entry id' = some entry' → n ∈ entry.waiters → n ∈ entry'.waiters → id = id'
  /-- Waiter ids are handed out in increasing order. -/
  fresh : ∀ id entry n, w.state.entry id = some entry → n ∈ entry.waiters →
    n < w.state.nextWaiterId
  spent : ∀ d ∈ w.delivered, d.1 < w.state.nextWaiterId
  /-- A stored waiter was sent nothing. -/
  waiting : ∀ id entry n, w.state.entry id = some entry → n ∈ entry.waiters →
    ∀ d ∈ w.delivered, d.1 ≠ n
  /-- No waiter was sent two results. -/
  once : (w.delivered.map Prod.fst).Nodup
  /-- The order lists the cached ids. -/
  order : (SortedMap.keys w.state.earlyCompleted).Perm w.state.earlyOrder
  distinct : w.state.earlyOrder.Nodup
  bounded : w.state.earlyOrder.length ≤ earlyLoginCompletionCapacity
  /-- A registered login has no early completion. -/
  disjoint : ∀ id, (w.state.entry id).isSome → id ∉ w.state.earlyOrder

namespace LoginInv

variable {w : LoginWorld}

/-- An id is cached exactly if the order lists it. -/
theorem mem_order (h : LoginInv w) (id : String) :
    id ∈ w.state.earlyOrder ↔ (w.state.earlyCompleted.lookup id).isSome := by
  rw [← h.order.mem_iff]
  exact SortedMap.mem_keys_iff

theorem length_cache (h : LoginInv w) :
    w.state.earlyCompleted.length = w.state.earlyOrder.length := by
  rw [← h.order.length_eq]
  exact (List.length_map ..).symm

theorem init : LoginInv loginMachine.init where
  sorted := List.Pairwise.nil
  settled := by intro id entry h; cases h
  nodup := by intro id entry h; cases h
  apart := by intro id id' entry entry' n h; cases h
  fresh := by intro id entry n h; cases h
  spent := by intro d h; cases h
  waiting := by intro id entry n h; cases h
  once := List.nodup_nil
  order := List.Perm.refl _
  distinct := List.nodup_nil
  bounded := Nat.zero_le _
  disjoint := by intro id h; cases h

/-! ## One entry changes -/

/-- An entry takes the place of one, and waiters of it may be sent something. -/
theorem set_entry (h : LoginInv w) (new : LoginEntry) (sends : LoginSends) {id : String}
    {old : LoginEntry} {next : Nat} (hold : w.state.entry id = some old)
    (hnext : w.state.nextWaiterId ≤ next)
    (hsettled : new.terminal.isSome → new.waiters = [])
    (hnodup : new.waiters.Nodup)
    (hnew : ∀ n ∈ new.waiters, n ∈ old.waiters ∨ w.state.nextWaiterId ≤ n ∧ n < next)
    (hsends : ∀ d ∈ sends, d.1 ∈ old.waiters ∧ d.1 ∉ new.waiters)
    (honce : (sends.map Prod.fst).Nodup) :
    LoginInv {
      state := { w.state with
        nextWaiterId := next
        active := SortedMap.insert id new w.state.active }
      delivered := w.delivered ++ sends } := by
  have hentry : ∀ id', (SortedMap.insert id new w.state.active).lookup id'
      = if id' = id then some new else w.state.entry id' :=
    fun id' => SortedMap.lookup_insert id id' new w.state.active
  -- whoever is stored now was stored before, or is new
  have hstored : ∀ id' entry n, (SortedMap.insert id new w.state.active).lookup id' = some entry →
      n ∈ entry.waiters → (∃ entry', w.state.entry id' = some entry' ∧ n ∈ entry'.waiters)
        ∨ (id' = id ∧ w.state.nextWaiterId ≤ n ∧ n < next) := by
    intro id' entry n hlookup hmem
    rw [hentry] at hlookup
    split at hlookup
    · rename_i hid
      obtain rfl := Option.some.inj hlookup
      rcases hnew n hmem with hin | hrange
      · exact Or.inl ⟨old, hid ▸ hold, hin⟩
      · exact Or.inr ⟨hid, hrange⟩
    · exact Or.inl ⟨entry, hlookup, hmem⟩
  constructor
  · exact SortedMap.sorted_insert id new h.sorted
  · intro id' entry hlookup hterminal
    have hlookup' := (hentry id').symm.trans hlookup
    split at hlookup'
    · obtain rfl := Option.some.inj hlookup'
      exact hsettled hterminal
    · exact h.settled id' entry hlookup' hterminal
  · intro id' entry hlookup
    have hlookup' := (hentry id').symm.trans hlookup
    split at hlookup'
    · obtain rfl := Option.some.inj hlookup'
      exact hnodup
    · exact h.nodup id' entry hlookup'
  · intro id₁ id₂ e₁ e₂ n hl₁ hl₂ hm₁ hm₂
    rcases hstored id₁ e₁ n hl₁ hm₁ with ⟨o₁, ho₁, hin₁⟩ | ⟨h₁, hr₁⟩
    · rcases hstored id₂ e₂ n hl₂ hm₂ with ⟨o₂, ho₂, hin₂⟩ | ⟨_, hr₂⟩
      · exact h.apart id₁ id₂ o₁ o₂ n ho₁ ho₂ hin₁ hin₂
      · have := h.fresh id₁ o₁ n ho₁ hin₁
        omega
    · rcases hstored id₂ e₂ n hl₂ hm₂ with ⟨o₂, ho₂, hin₂⟩ | ⟨h₂, _⟩
      · have := h.fresh id₂ o₂ n ho₂ hin₂
        omega
      · rw [h₁, h₂]
  · intro id' entry n hlookup hmem
    rcases hstored id' entry n hlookup hmem with ⟨o, ho, hin⟩ | ⟨_, hrange⟩
    · exact Nat.lt_of_lt_of_le (h.fresh id' o n ho hin) hnext
    · exact hrange.2
  · intro d hd
    rcases List.mem_append.mp hd with hd | hd
    · exact Nat.lt_of_lt_of_le (h.spent d hd) hnext
    · exact Nat.lt_of_lt_of_le (h.fresh id old d.1 hold (hsends d hd).1) hnext
  · intro id' entry n hlookup hmem d hd heq
    rcases List.mem_append.mp hd with hd | hd
    · rcases hstored id' entry n hlookup hmem with ⟨o, ho, hin⟩ | ⟨_, hrange⟩
      · exact h.waiting id' o n ho hin d hd heq
      · have := h.spent d hd
        omega
    · obtain ⟨hin, hout⟩ := hsends d hd
      have hlookup' := (hentry id').symm.trans hlookup
      split at hlookup'
      · obtain rfl := Option.some.inj hlookup'
        exact hout (heq ▸ hmem)
      · rename_i hne
        exact hne (h.apart id' id entry old n hlookup' hold hmem (heq ▸ hin))
  · rw [List.map_append, List.nodup_append]
    refine ⟨h.once, honce, ?_⟩
    intro n hn n' hn' heq
    obtain ⟨d, hd, rfl⟩ := List.mem_map.mp hn
    obtain ⟨d', hd', rfl⟩ := List.mem_map.mp hn'
    exact h.waiting id old d'.1 hold (hsends d' hd').1 d hd heq
  · exact h.order
  · exact h.distinct
  · exact h.bounded
  · intro id' hsome
    have hsome' : (if id' = id then some new else w.state.entry id').isSome := by
      rw [← hentry]; exact hsome
    split at hsome'
    · rename_i hid
      exact h.disjoint id' (by rw [hid, hold]; rfl)
    · exact h.disjoint id' hsome'

/-- Nobody waits differently, and the cache changes within its bounds. -/
theorem set_cache (h : LoginInv w) {active : List (String × LoginEntry)}
    {early : List (String × Result Unit)} {order : List String}
    (hsorted : SortedMap.Sorted active)
    (hactive : ∀ id entry, active.lookup id = some entry →
      w.state.entry id = some entry ∨ entry.waiters = [])
    (horder : (SortedMap.keys early).Perm order) (hdistinct : order.Nodup)
    (hbounded : order.length ≤ earlyLoginCompletionCapacity)
    (hdisjoint : ∀ id, (active.lookup id).isSome → id ∉ order) :
    LoginInv { w with state := { w.state with
      active := active, earlyCompleted := early, earlyOrder := order } } := by
  have hstored : ∀ id entry n, active.lookup id = some entry → n ∈ entry.waiters →
      w.state.entry id = some entry := by
    intro id entry n hlookup hmem
    rcases hactive id entry hlookup with hsame | hnil
    · exact hsame
    · rw [hnil] at hmem; cases hmem
  constructor
  · exact hsorted
  · intro id entry hlookup hterminal
    rcases hactive id entry hlookup with hsame | hnil
    · exact h.settled id entry hsame hterminal
    · exact hnil
  · intro id entry hlookup
    rcases hactive id entry hlookup with hsame | hnil
    · exact h.nodup id entry hsame
    · rw [hnil]; exact List.nodup_nil
  · intro id id' entry entry' n hl hl' hm hm'
    exact h.apart id id' entry entry' n (hstored id entry n hl hm) (hstored id' entry' n hl' hm')
      hm hm'
  · intro id entry n hl hm
    exact h.fresh id entry n (hstored id entry n hl hm) hm
  · exact h.spent
  · intro id entry n hl hm
    exact h.waiting id entry n (hstored id entry n hl hm) hm
  · exact h.once
  · exact horder
  · exact hdistinct
  · exact hbounded
  · exact hdisjoint

/-! ## One operation -/

theorem register (h : LoginInv w) (id : String) : LoginInv (w.act (.register id)) := by
  unfold LoginWorld.act LoginState.register
  dsimp only
  cases hentry : w.state.entry id with
  | some entry => exact h
  | none =>
      have hfilter : (if (w.state.earlyCompleted.lookup id).isSome
          then w.state.earlyOrder.filter (fun candidate => candidate ≠ id)
          else w.state.earlyOrder) = w.state.earlyOrder.filter (fun candidate => candidate ≠ id) := by
        split
        · rfl
        · rename_i hnone
          refine (List.filter_eq_self.mpr ?_).symm
          intro candidate hmem
          have hne : candidate ≠ id := fun heq => hnone ((h.mem_order id).mp (heq ▸ hmem))
          simpa using hne
      dsimp only
      rw [hfilter]
      refine h.set_cache (SortedMap.sorted_insert id _ h.sorted) ?_ ?_ (h.distinct.filter _)
        ((List.length_filter_le ..).trans h.bounded) ?_
      · intro id' entry hlookup
        rw [SortedMap.lookup_insert] at hlookup
        split at hlookup
        · obtain rfl := Option.some.inj hlookup
          exact Or.inr rfl
        · exact Or.inl hlookup
      · rw [SortedMap.keys_erase]
        exact h.order.filter _
      · intro id' hsome hmem
        obtain ⟨hin, hne⟩ := List.mem_filter.mp hmem
        have hne' : id' ≠ id := by simpa using hne
        rw [SortedMap.lookup_insert_ne hne'] at hsome
        exact h.disjoint id' hsome hin

theorem wait (h : LoginInv w) (id : String) : LoginInv (w.act (.wait id)) := by
  unfold LoginWorld.act LoginState.wait
  dsimp only
  cases hentry : w.state.entry id with
  | none => exact h
  | some entry =>
      dsimp only
      cases hterminal : entry.terminal with
      | some result => exact h
      | none =>
          dsimp only
          split
          · exact h
          · have hnew : w.state.nextWaiterId ∉ entry.waiters := by
              intro hmem
              have := h.fresh id entry _ hentry hmem
              omega
            have hset := h.set_entry ⟨none, entry.waiters.insert w.state.nextWaiterId⟩ [] hentry (Nat.le_succ _) ?_ ?_ ?_ ?_ List.nodup_nil
            · rw [List.append_nil] at hset
              exact hset
            · intro hsome; cases hsome
            · exact (h.nodup id entry hentry).insert
            · intro n hn
              rcases List.mem_insert_iff.mp hn with rfl | hn
              · exact Or.inr ⟨Nat.le_refl _, Nat.lt_succ_self _⟩
              · exact Or.inl hn
            · intro d hd; cases hd

theorem removeWaiter (h : LoginInv w) (id : String) (n : Nat) :
    LoginInv (w.act (.removeWaiter id n)) := by
  unfold LoginWorld.act LoginState.removeWaiter
  dsimp only
  cases hentry : w.state.entry id with
  | none => exact h
  | some entry =>
      have hset := h.set_entry { entry with waiters := entry.waiters.filter (fun m => m ≠ n) } []
        hentry (Nat.le_refl _) ?_ ?_ ?_ ?_ List.nodup_nil
      · rw [List.append_nil] at hset
        exact hset
      · intro hsome
        rw [h.settled id entry hentry hsome]
        rfl
      · exact (h.nodup id entry hentry).filter _
      · intro m hm
        exact Or.inl (List.mem_filter.mp hm).1
      · intro d hd; cases hd

theorem release (h : LoginInv w) (id : String) : LoginInv (w.act (.release id)) := by
  have hlookup : ∀ id' entry, (SortedMap.erase id w.state.active).lookup id' = some entry →
      w.state.entry id' = some entry := by
    intro id' entry hlookup
    by_cases hid : id' = id
    · subst hid
      rw [SortedMap.lookup_erase_self] at hlookup; cases hlookup
    · rw [SortedMap.lookup_erase_ne hid] at hlookup
      exact hlookup
  refine h.set_cache (SortedMap.sorted_erase id h.sorted) ?_ ?_ (h.distinct.filter _)
    ((List.length_filter_le ..).trans h.bounded) ?_
  · intro id' entry hl
    exact Or.inl (hlookup id' entry hl)
  · rw [SortedMap.keys_erase]
    exact h.order.filter _
  · intro id' hsome hmem
    obtain ⟨entry, hentry⟩ := Option.isSome_iff_exists.mp hsome
    exact h.disjoint id' (by rw [hlookup id' entry hentry]; rfl) (List.mem_filter.mp hmem).1

/-- Making room in the cache drops at most its oldest completion. -/
theorem expireEarly_spec (h : LoginInv w) : ∃ early order,
    w.state.expireEarly = { w.state with earlyCompleted := early, earlyOrder := order }
    ∧ (SortedMap.keys early).Perm order ∧ order.Sublist w.state.earlyOrder
    ∧ order.length + 1 ≤ earlyLoginCompletionCapacity := by
  have hlength := h.length_cache
  have hbounded := h.bounded
  have hperm := h.order
  have hdistinct := h.distinct
  unfold LoginState.expireEarly
  cases horder : w.state.earlyOrder with
  | nil =>
      rw [horder] at hperm
      refine ⟨w.state.earlyCompleted, [], ?_, hperm, List.Sublist.refl _, by decide⟩
      show w.state = _
      rw [← horder]
  | cons expired rest =>
      rw [horder, List.length_cons] at hlength hbounded
      rw [horder] at hperm hdistinct
      dsimp only
      split
      · have hnotin : expired ∉ rest := (List.nodup_cons.mp hdistinct).1
        have hrest : (expired :: rest).filter (fun candidate => candidate ≠ expired) = rest := by
          rw [List.filter_cons_of_neg (by simp)]
          refine List.filter_eq_self.mpr ?_
          intro candidate hmem
          have hne : candidate ≠ expired := fun heq => hnotin (heq ▸ hmem)
          simpa using hne
        refine ⟨_, rest, rfl, ?_, List.sublist_cons_self _ _, hbounded⟩
        have hfilter := hperm.filter (fun candidate => candidate ≠ expired)
        rw [hrest] at hfilter
        rw [SortedMap.keys_erase]
        exact hfilter
      · rename_i hroom
        refine ⟨w.state.earlyCompleted, expired :: rest, ?_, hperm, List.Sublist.refl _, ?_⟩
        · rw [← horder]
        · rw [List.length_cons]
          omega

/-- The cache takes a completion of a login that is not registered. -/
theorem cacheEarly (h : LoginInv w) {id : String} (hid : w.state.entry id = none)
    (result : Result Unit) :
    LoginInv { w with state := w.state.cacheEarlyLoginResult id result } := by
  unfold LoginState.cacheEarlyLoginResult
  split
  · exact h
  · rename_i hnew
    have hnotin : id ∉ w.state.earlyOrder := fun hmem => hnew ((h.mem_order id).mp hmem)
    obtain ⟨early, order, heq, hperm, hsub, hroom⟩ := h.expireEarly_spec
    rw [heq]
    refine h.set_cache h.sorted (fun _ _ hlookup => Or.inl hlookup) ?_ ?_ ?_ ?_
    · have hkey : id ∉ SortedMap.keys early := by
        rw [hperm.mem_iff]
        exact fun hmem => hnotin (hsub.mem hmem)
      exact (SortedMap.keys_insert_perm result hkey).trans
        ((hperm.cons id).trans (List.perm_append_singleton id _).symm)
    · rw [List.nodup_append]
      refine ⟨h.distinct.sublist hsub, List.nodup_singleton _, ?_⟩
      intro a ha b hb hab
      have hb' : b = id := by simpa using hb
      exact hnotin (hb' ▸ hab ▸ hsub.mem ha)
    · rw [List.length_append]
      exact hroom
    · intro id' hsome hmem
      rcases List.mem_append.mp hmem with hmem | hmem
      · exact h.disjoint id' hsome (hsub.mem hmem)
      · have hid' : id' = id := by simpa using hmem
        have hentry : w.state.active.lookup id' = none := hid' ▸ hid
        rw [hentry] at hsome
        cases hsome

theorem complete (h : LoginInv w) (id : String) (result : Result Unit) :
    LoginInv (w.act (.complete id result)) := by
  unfold LoginWorld.act LoginState.complete
  dsimp only
  cases hentry : w.state.entry id with
  | none =>
      rw [List.append_nil]
      exact h.cacheEarly hentry result
  | some entry =>
      dsimp only
      split
      · rw [List.append_nil]
        exact h
      · have hfst : (entry.waiters.map (fun n => (n, result))).map Prod.fst = entry.waiters := by
          rw [List.map_map]
          exact List.map_id _
        refine h.set_entry ⟨some result, []⟩ (entry.waiters.map (fun n => (n, result))) hentry
          (Nat.le_refl _) (fun _ => rfl) List.nodup_nil ?_ ?_ ?_
        · intro n hn; cases hn
        · intro d hd
          obtain ⟨n, hn, rfl⟩ := List.mem_map.mp hd
          exact ⟨hn, List.not_mem_nil⟩
        · rw [hfst]
          exact h.nodup id entry hentry

/-- The waiters of all logins. -/
theorem mem_waiters (h : LoginInv w) {n : Nat} :
    n ∈ w.state.active.flatMap (fun p => p.2.waiters)
      ↔ ∃ id entry, w.state.entry id = some entry ∧ n ∈ entry.waiters := by
  rw [List.mem_flatMap]
  constructor
  · rintro ⟨⟨id, entry⟩, hmem, hn⟩
    exact ⟨id, entry, SortedMap.lookup_of_mem h.sorted hmem, hn⟩
  · rintro ⟨id, entry, hentry, hn⟩
    exact ⟨(id, entry), SortedMap.mem_of_lookup hentry, hn⟩

theorem nodup_waiters (h : LoginInv w) :
    (w.state.active.flatMap (fun p => p.2.waiters)).Nodup := by
  rw [List.nodup_flatMap]
  constructor
  · intro p hp
    exact h.nodup p.1 p.2 (SortedMap.lookup_of_mem h.sorted hp)
  · refine List.Pairwise.imp_of_mem ?_ h.sorted
    intro p q hp hq hlt n hn hn'
    have heq := h.apart p.1 q.1 p.2 q.2 n (SortedMap.lookup_of_mem h.sorted hp)
      (SortedMap.lookup_of_mem h.sorted hq) hn hn'
    exact absurd heq (ne_of_lt hlt)

theorem failActive (h : LoginInv w) (error : Error) : LoginInv (w.act (.failActive error)) := by
  have hentry : ∀ id, (SortedMap.map (LoginState.failEntry error) w.state.active).lookup id
      = (w.state.entry id).map (LoginState.failEntry error) :=
    fun id => SortedMap.lookup_map _ _ id
  have hempty : ∀ id entry,
      (SortedMap.map (LoginState.failEntry error) w.state.active).lookup id = some entry →
      entry.waiters = [] := by
    intro id entry hlookup
    rw [hentry] at hlookup
    obtain ⟨old, _, rfl⟩ := Option.map_eq_some_iff.mp hlookup
    rfl
  have hset := h.set_cache (SortedMap.sorted_map (LoginState.failEntry error) h.sorted)
    (fun id entry hlookup => Or.inr (hempty id entry hlookup)) h.order h.distinct h.bounded (by
      intro id hsome
      rw [hentry, Option.isSome_map] at hsome
      exact h.disjoint id hsome)
  have hfst : ((w.state.active.flatMap (fun p => p.2.waiters)).map
      (fun n => (n, (.error error : Result Unit)))).map Prod.fst
      = w.state.active.flatMap (fun p => p.2.waiters) := by
    rw [List.map_map]
    exact List.map_id _
  -- nobody is stored any more, so only what was sent has to be looked at
  refine ⟨hset.sorted, hset.settled, hset.nodup, hset.apart, hset.fresh, ?_, ?_, ?_, hset.order,
    hset.distinct, hset.bounded, hset.disjoint⟩
  · intro d hd
    rcases List.mem_append.mp hd with hd | hd
    · exact h.spent d hd
    · obtain ⟨n, hn, rfl⟩ := List.mem_map.mp hd
      obtain ⟨id, entry, hlookup, hin⟩ := h.mem_waiters.mp hn
      exact h.fresh id entry n hlookup hin
  · intro id entry n hlookup hmem
    rw [hempty id entry hlookup] at hmem
    cases hmem
  · show ((w.delivered ++ (w.state.failActive error).1).map Prod.fst).Nodup
    unfold LoginState.failActive
    rw [List.map_append, hfst, List.nodup_append]
    refine ⟨h.once, h.nodup_waiters, ?_⟩
    intro n hn n' hn' heq
    obtain ⟨d, hd, rfl⟩ := List.mem_map.mp hn
    obtain ⟨id, entry, hlookup, hin⟩ := h.mem_waiters.mp hn'
    exact h.waiting id entry n' hlookup hin d hd heq

/-- **Every operation keeps the invariant.** -/
theorem step (h : LoginInv w) (op : LoginOp) : LoginInv (w.act op) := by
  cases op with
  | register id => exact h.register id
  | wait id => exact h.wait id
  | removeWaiter id n => exact h.removeWaiter id n
  | complete id result => exact h.complete id result
  | failActive error => exact h.failActive error
  | release id => exact h.release id

theorem runFrom (h : LoginInv w) (ops : List LoginOp) : LoginInv (loginMachine.runFrom w ops) := by
  induction ops generalizing w with
  | nil => exact h
  | cons op ops ih => exact ih (h.step op)

theorem reachable (h : loginMachine.Reachable Machine.Free w) : LoginInv w :=
  h.invariant init (fun _ op _ hw _ => hw.step op)

end LoginInv

/-! ## What an operation does to one entry -/

namespace LoginState

variable {s : LoginState} {id : String} {entry : LoginEntry}

theorem entry_register (h : s.entry id = some entry) (id' : String) :
    (s.register id').2.entry id = some entry := by
  unfold register
  cases hentry : s.entry id' with
  | some _ => exact h
  | none =>
      have hne : id ≠ id' := by rintro rfl; rw [hentry] at h; cases h
      exact (SortedMap.lookup_insert_ne hne _ _).trans h

/-- Waiting adds at most the new waiter. -/
theorem entry_wait (h : s.entry id = some entry) (id' : String) :
    ∃ waiters, (s.wait id').2.entry id = some { entry with waiters }
      ∧ ∀ n ∈ entry.waiters, n ∈ waiters := by
  have hsame : ∃ waiters, s.entry id = some { entry with waiters }
      ∧ ∀ n ∈ entry.waiters, n ∈ waiters := ⟨entry.waiters, h, fun _ hn => hn⟩
  unfold wait
  cases hentry : s.entry id' with
  | none => exact hsame
  | some other =>
      dsimp only
      cases hterminal : other.terminal with
      | some _ => exact hsame
      | none =>
          dsimp only
          split
          · exact hsame
          · by_cases hid : id = id'
            · subst hid
              rw [h] at hentry
              obtain rfl := Option.some.inj hentry
              refine ⟨entry.waiters.insert s.nextWaiterId, ?_, ?_⟩
              · refine (SortedMap.lookup_insert_self ..).trans ?_
                rw [hterminal]
              · intro n hn
                exact List.mem_insert_of_mem hn
            · exact ⟨entry.waiters, (SortedMap.lookup_insert_ne hid _ _).trans h, fun _ hn => hn⟩

/-- Removing a waiter removes no other. -/
theorem entry_removeWaiter (h : s.entry id = some entry) (id' : String) (m : Nat) :
    ∃ waiters, (s.removeWaiter id' m).entry id = some { entry with waiters }
      ∧ ∀ n ∈ entry.waiters, (id = id' ∧ n = m) ∨ n ∈ waiters := by
  unfold removeWaiter
  cases hentry : s.entry id' with
  | none => exact ⟨entry.waiters, h, fun _ hn => Or.inr hn⟩
  | some other =>
      by_cases hid : id = id'
      · subst hid
        rw [h] at hentry
        obtain rfl := Option.some.inj hentry
        refine ⟨_, SortedMap.lookup_insert_self .., ?_⟩
        intro n hn
        by_cases hm : n = m
        · exact Or.inl ⟨rfl, hm⟩
        · exact Or.inr (List.mem_filter.mpr ⟨hn, by simpa using hm⟩)
      · exact ⟨entry.waiters, (SortedMap.lookup_insert_ne hid _ _).trans h, fun _ hn => Or.inr hn⟩

theorem active_cacheEarlyLoginResult (s : LoginState) (id' : String) (result : Result Unit) :
    (s.cacheEarlyLoginResult id' result).active = s.active := by
  unfold cacheEarlyLoginResult
  split
  · rfl
  · show s.expireEarly.active = s.active
    unfold expireEarly
    split
    · split <;> rfl
    · rfl

/-- Completing a login settles it, once. -/
theorem complete_of_none (h : s.entry id = some entry) (hnone : entry.terminal = none)
    (result : Result Unit) :
    s.complete id result = (entry.waiters.map (fun n => (n, result)),
      { s with active := SortedMap.insert id ⟨some result, []⟩ s.active }) := by
  unfold complete
  rw [h]
  dsimp only
  rw [hnone]
  rfl

theorem complete_of_some (h : s.entry id = some entry) (hsome : entry.terminal.isSome)
    (result : Result Unit) : s.complete id result = ([], s) := by
  unfold complete
  rw [h]
  dsimp only
  rw [if_pos hsome]

theorem complete_of_vacant (h : s.entry id = none) (result : Result Unit) :
    s.complete id result = ([], s.cacheEarlyLoginResult id result) := by
  unfold complete
  rw [h]

theorem entry_complete_ne {id' : String} (hne : id ≠ id') (result : Result Unit) :
    (s.complete id' result).2.entry id = s.entry id := by
  cases hentry : s.entry id' with
  | none =>
      rw [complete_of_vacant hentry]
      exact congrArg (List.lookup id) (active_cacheEarlyLoginResult s id' result)
  | some other =>
      by_cases hsome : other.terminal.isSome
      · rw [complete_of_some hentry hsome]
      · rw [complete_of_none hentry (by simpa using hsome)]
        exact SortedMap.lookup_insert_ne hne _ _

theorem entry_failActive (s : LoginState) (id : String) (error : Error) :
    (s.failActive error).2.entry id = (s.entry id).map (failEntry error) :=
  SortedMap.lookup_map _ _ id

theorem entry_release_ne {id' : String} (hne : id ≠ id') :
    (s.release id').entry id = s.entry id := SortedMap.lookup_erase_ne hne _

end LoginState

/-! ## Runs -/

namespace LoginWorld

/-- A registered login has this result. -/
def Terminal (w : LoginWorld) (id : String) (result : Result Unit) : Prop :=
  ∃ entry, w.state.entry id = some entry ∧ entry.terminal = some result

/-- A waiter is stored under a login without a result. -/
def Waiting (w : LoginWorld) (id : String) (n : Nat) : Prop :=
  ∃ entry, w.state.entry id = some entry ∧ entry.terminal = none ∧ n ∈ entry.waiters

/-- A waiter was sent the result of its login. -/
def Answered (w : LoginWorld) (id : String) (n : Nat) : Prop :=
  ∃ result, w.Terminal id result ∧ (n, result) ∈ w.delivered

variable {w : LoginWorld} {id : String}

theorem delivered_act (w : LoginWorld) (op : LoginOp) :
    w.delivered <+: (w.act op).delivered := by
  cases op with
  | complete id result => exact List.prefix_append _ _
  | failActive error => exact List.prefix_append _ _
  | _ => exact List.prefix_rfl

theorem delivered_runFrom (w : LoginWorld) (ops : List LoginOp) :
    w.delivered <+: (loginMachine.runFrom w ops).delivered := by
  induction ops generalizing w with
  | nil => exact List.prefix_rfl
  | cons op ops ih => exact (delivered_act w op).trans (ih _)

/-- A result is never replaced while its login stays registered. -/
theorem Terminal.act {result : Result Unit} (h : w.Terminal id result) {op : LoginOp}
    (hop : op ≠ .release id) : (w.act op).Terminal id result := by
  obtain ⟨entry, hentry, hterminal⟩ := h
  cases op with
  | register id' => exact ⟨entry, LoginState.entry_register hentry id', hterminal⟩
  | wait id' =>
      obtain ⟨waiters, hwait, _⟩ := LoginState.entry_wait hentry id'
      exact ⟨_, hwait, hterminal⟩
  | removeWaiter id' m =>
      obtain ⟨waiters, hremove, _⟩ := LoginState.entry_removeWaiter hentry id' m
      exact ⟨_, hremove, hterminal⟩
  | complete id' result' =>
      refine ⟨entry, ?_, hterminal⟩
      by_cases hid : id = id'
      · subst hid
        have hcomplete := LoginState.complete_of_some hentry (by rw [hterminal]; rfl) result'
        exact (congrArg (fun p => p.2.entry id) hcomplete).trans hentry
      · exact (LoginState.entry_complete_ne hid result').trans hentry
  | failActive error =>
      refine ⟨_, (LoginState.entry_failActive w.state id error).trans
        (congrArg _ hentry), ?_⟩
      show (if entry.terminal.isNone then _ else entry.terminal) = some result
      rw [hterminal]
      rfl
  | release id' =>
      have hne : id ≠ id' := by rintro rfl; exact hop rfl
      exact ⟨entry, (LoginState.entry_release_ne hne).trans hentry, hterminal⟩

theorem Terminal.runFrom {result : Result Unit} (h : w.Terminal id result) {ops : List LoginOp}
    (hops : .release id ∉ ops) : (loginMachine.runFrom w ops).Terminal id result := by
  induction ops generalizing w with
  | nil => exact h
  | cons op ops ih =>
      rw [List.mem_cons, not_or] at hops
      exact ih (h.act (Ne.symm hops.1)) hops.2

/-- A stored waiter stays stored, or gets the result of its login in the very step that
gives the login one. -/
theorem Waiting.act {n : Nat} (h : w.Waiting id n) {op : LoginOp} (hop : op ≠ .release id)
    (hremove : op ≠ .removeWaiter id n) :
    (w.act op).Waiting id n ∨ (w.act op).Answered id n := by
  obtain ⟨entry, hentry, hterminal, hmem⟩ := h
  cases op with
  | register id' => exact Or.inl ⟨entry, LoginState.entry_register hentry id', hterminal, hmem⟩
  | wait id' =>
      obtain ⟨waiters, hwait, hkept⟩ := LoginState.entry_wait hentry id'
      exact Or.inl ⟨_, hwait, hterminal, hkept n hmem⟩
  | removeWaiter id' m =>
      obtain ⟨waiters, hremoved, hkept⟩ := LoginState.entry_removeWaiter hentry id' m
      rcases hkept n hmem with ⟨rfl, rfl⟩ | hin
      · exact absurd rfl hremove
      · exact Or.inl ⟨_, hremoved, hterminal, hin⟩
  | complete id' result =>
      by_cases hid : id = id'
      · subst hid
        have hcomplete := LoginState.complete_of_none hentry hterminal result
        refine Or.inr ⟨result, ⟨⟨some result, []⟩, ?_, rfl⟩, ?_⟩
        · exact (congrArg (fun p => p.2.entry id) hcomplete).trans
            (SortedMap.lookup_insert_self ..)
        · refine List.mem_append_right _ ?_
          rw [hcomplete]
          exact List.mem_map.mpr ⟨n, hmem, rfl⟩
      · exact Or.inl ⟨entry, (LoginState.entry_complete_ne hid result).trans hentry, hterminal,
          hmem⟩
  | failActive error =>
      refine Or.inr ⟨.error error, ⟨_, (LoginState.entry_failActive w.state id error).trans
        (congrArg _ hentry), ?_⟩, ?_⟩
      · show (if entry.terminal.isNone then _ else entry.terminal) = _
        rw [hterminal]
        rfl
      · refine List.mem_append_right _ (List.mem_map.mpr ⟨n, ?_, rfl⟩)
        exact List.mem_flatMap.mpr ⟨(id, entry), SortedMap.mem_of_lookup hentry, hmem⟩
  | release id' =>
      have hne : id ≠ id' := by rintro rfl; exact hop rfl
      exact Or.inl ⟨entry, (LoginState.entry_release_ne hne).trans hentry, hterminal, hmem⟩

theorem Answered.act {n : Nat} (h : w.Answered id n) {op : LoginOp} (hop : op ≠ .release id) :
    (w.act op).Answered id n := by
  obtain ⟨result, hterminal, hmem⟩ := h
  exact ⟨result, hterminal.act hop, (delivered_act w op).subset hmem⟩

/-- `wait` stores the waiter it returns. -/
theorem waiting_wait {n : Nat} (h : (w.state.wait id).1 = .ok (.pending n)) :
    (w.act (.wait id)).Waiting id n := by
  unfold Waiting LoginWorld.act
  unfold LoginState.wait at h ⊢
  cases hentry : w.state.entry id with
  | none => rw [hentry] at h; cases h
  | some entry =>
      simp only [hentry] at h ⊢
      cases hterminal : entry.terminal with
      | some result => rw [hterminal] at h; cases h
      | none =>
          simp only [hterminal] at h ⊢
          split at h
          · cases h
          · rename_i hroom
            rw [if_neg hroom]
            cases h
            exact ⟨_, SortedMap.lookup_insert_self .., rfl, List.mem_insert_self⟩

theorem waiting_or_answered_runFrom {n : Nat} (h : w.Waiting id n ∨ w.Answered id n)
    {ops : List LoginOp} (hops : .release id ∉ ops) (hremove : .removeWaiter id n ∉ ops) :
    (loginMachine.runFrom w ops).Waiting id n ∨ (loginMachine.runFrom w ops).Answered id n := by
  induction ops generalizing w with
  | nil => exact h
  | cons op ops ih =>
      rw [List.mem_cons, not_or] at hops hremove
      refine ih ?_ hops.2 hremove.2
      rcases h with hwaiting | hanswered
      · exact hwaiting.act (Ne.symm hops.1) (Ne.symm hremove.1)
      · exact Or.inr (hanswered.act (Ne.symm hops.1))

/-- What a waiter was sent is all it is ever sent. -/
theorem received_of_mem (h : LoginInv w) {n : Nat} {result : Result Unit}
    (hmem : (n, result) ∈ w.delivered) : w.received n = [result] := by
  unfold received
  have honce := h.once
  generalize w.delivered = delivered at hmem honce
  induction delivered with
  | nil => cases hmem
  | cons d rest ih =>
      rw [List.map_cons, List.nodup_cons] at honce
      rcases List.mem_cons.mp hmem with rfl | hmem
      · have hnone : rest.filter (fun d => d.1 = n) = [] := by
          rw [List.filter_eq_nil_iff]
          intro d hd hn
          have hn' : d.1 = n := by simpa using hn
          exact honce.1 (List.mem_map.mpr ⟨d, hd, hn'⟩)
        rw [List.filter_cons_of_pos (by simp), hnone]
        rfl
      · have hne : d.1 ≠ n := fun hd => honce.1 (List.mem_map.mpr ⟨(n, result), hmem, hd.symm⟩)
        rw [List.filter_cons_of_neg (by simpa using hne)]
        exact ih hmem honce.2

/-! ## Completions that come before their registration -/

/-- A completion of another login that is not registered. -/
def pushesAgainst (id : String) (w : LoginWorld) : LoginOp → Bool
  | .complete other _ => other ≠ id && (w.state.entry other).isNone
  | _ => false

/-- How many completions of other unregistered logins arrive in a run. -/
def otherCompletions (id : String) : LoginWorld → List LoginOp → Nat
  | _, [] => 0
  | w, op :: ops =>
      (if pushesAgainst id w op then 1 else 0) + otherCompletions id (w.act op) ops

/-- A completion is cached, with at most `behind` others behind it. -/
structure Cached (w : LoginWorld) (id : String) (result : Result Unit) (behind : Nat) :
    Prop where
  vacant : w.state.entry id = none
  held : w.state.earlyCompleted.lookup id = some result
  place : ∃ before after, w.state.earlyOrder = before ++ id :: after ∧ after.length ≤ behind

theorem Cached.mono {result : Result Unit} {k k' : Nat} (h : w.Cached id result k)
    (hk : k ≤ k') : w.Cached id result k' := by
  obtain ⟨before, after, horder, hafter⟩ := h.place
  exact ⟨h.vacant, h.held, before, after, horder, hafter.trans hk⟩

/-- Taking another id out of the order leaves a completion at its place. -/
theorem Cached.filter {result : Result Unit} {k : Nat} (h : w.Cached id result k)
    {other : String} (hne : id ≠ other) :
    ∃ before after, w.state.earlyOrder.filter (fun candidate => candidate ≠ other)
      = before ++ id :: after ∧ after.length ≤ k := by
  obtain ⟨before, after, horder, hafter⟩ := h.place
  refine ⟨before.filter (fun candidate => candidate ≠ other),
    after.filter (fun candidate => candidate ≠ other), ?_,
    (List.length_filter_le ..).trans hafter⟩
  rw [horder, List.filter_append, List.filter_cons_of_pos (by simpa using hne)]

/-- Another completion is cached behind this one; it pushes it out only as the last of
capacity many. -/
theorem Cached.cacheEarly {result : Result Unit} {k : Nat} (h : w.Cached id result k)
    (hw : LoginInv w) (hk : k + 1 < earlyLoginCompletionCapacity) {other : String}
    (hne : other ≠ id) (result' : Result Unit) :
    Cached { w with state := w.state.cacheEarlyLoginResult other result' } id result (k + 1) := by
  have hvacant : (w.state.cacheEarlyLoginResult other result').entry id = none :=
    (congrArg (List.lookup id)
      (LoginState.active_cacheEarlyLoginResult w.state other result')).trans h.vacant
  obtain ⟨before, after, horder, hafter⟩ := h.place
  unfold LoginState.cacheEarlyLoginResult at hvacant ⊢
  split
  · rename_i hcached
    rw [if_pos hcached] at hvacant
    exact ⟨hvacant, h.held, before, after, horder, by omega⟩
  · rename_i hcached
    rw [if_neg hcached] at hvacant
    -- the oldest completion goes only from a full cache, and then it is not this one
    have hkept : w.state.expireEarly.earlyCompleted.lookup id = some result
        ∧ ∃ before', w.state.expireEarly.earlyOrder = before' ++ id :: after := by
      unfold LoginState.expireEarly
      cases before with
      | nil =>
          have hlength := hw.length_cache
          rw [horder, List.nil_append, List.length_cons] at hlength
          rw [horder, List.nil_append]
          dsimp only
          rw [if_neg (by omega)]
          exact ⟨h.held, [], by rw [horder]⟩
      | cons expired before =>
          rw [horder, List.cons_append]
          dsimp only
          split
          · have hdistinct := horder ▸ hw.distinct
            rw [List.cons_append, List.nodup_cons] at hdistinct
            have hne' : id ≠ expired := by
              rintro rfl
              exact hdistinct.1 (List.mem_append_right _ List.mem_cons_self)
            exact ⟨(SortedMap.lookup_erase_ne hne' _).trans h.held, before, rfl⟩
          · exact ⟨h.held, expired :: before, horder⟩
    obtain ⟨hlookup, before', horder'⟩ := hkept
    refine ⟨hvacant, (SortedMap.lookup_insert_ne (Ne.symm hne) _ _).trans hlookup, before',
      after ++ [other], ?_, ?_⟩
    · show w.state.expireEarly.earlyOrder ++ [other] = _
      rw [horder', List.append_assoc, List.cons_append]
    · rw [List.length_append, List.length_singleton]
      omega

/-- An operation on another login leaves the entry of this one vacant. -/
theorem vacant_wait (h : w.state.entry id = none) (id' : String) :
    (w.state.wait id').2.entry id = none
      ∧ (w.state.wait id').2.earlyCompleted = w.state.earlyCompleted
      ∧ (w.state.wait id').2.earlyOrder = w.state.earlyOrder := by
  unfold LoginState.wait
  cases hentry : w.state.entry id' with
  | none => exact ⟨h, rfl, rfl⟩
  | some entry =>
      have hne : id ≠ id' := by rintro rfl; rw [h] at hentry; cases hentry
      dsimp only
      split
      · exact ⟨h, rfl, rfl⟩
      · split
        · exact ⟨h, rfl, rfl⟩
        · exact ⟨(SortedMap.lookup_insert_ne hne _ _).trans h, rfl, rfl⟩

theorem vacant_removeWaiter (h : w.state.entry id = none) (id' : String) (n : Nat) :
    (w.state.removeWaiter id' n).entry id = none
      ∧ (w.state.removeWaiter id' n).earlyCompleted = w.state.earlyCompleted
      ∧ (w.state.removeWaiter id' n).earlyOrder = w.state.earlyOrder := by
  unfold LoginState.removeWaiter
  cases hentry : w.state.entry id' with
  | none => exact ⟨h, rfl, rfl⟩
  | some entry =>
      have hne : id ≠ id' := by rintro rfl; rw [h] at hentry; cases hentry
      exact ⟨(SortedMap.lookup_insert_ne hne _ _).trans h, rfl, rfl⟩

/-- A cached completion stays cached, with at most one more behind it. -/
theorem Cached.act {result : Result Unit} {k : Nat} (h : w.Cached id result k)
    (hw : LoginInv w) {op : LoginOp} (hrelease : op ≠ .release id) (hregister : op ≠ .register id)
    (hk : k + (if pushesAgainst id w op then 1 else 0) < earlyLoginCompletionCapacity) :
    (w.act op).Cached id result (k + if pushesAgainst id w op then 1 else 0) := by
  have hquiet : ∀ w' : LoginWorld, w'.state.entry id = none →
      w'.state.earlyCompleted = w.state.earlyCompleted →
      w'.state.earlyOrder = w.state.earlyOrder → w'.Cached id result k := by
    intro w' hvacant hearly horder
    exact ⟨hvacant, by rw [hearly]; exact h.held, by rw [horder]; exact h.place⟩
  cases op with
  | register other =>
      have hne : id ≠ other := by rintro rfl; exact hregister rfl
      show LoginWorld.Cached { w with state := (w.state.register other).2 } id result (k + 0)
      unfold LoginState.register
      cases hentry : w.state.entry other with
      | some entry => exact h
      | none =>
          refine ⟨(SortedMap.lookup_insert_ne hne _ _).trans h.vacant,
            (SortedMap.lookup_erase_ne hne _).trans h.held, ?_⟩
          dsimp only
          split
          · exact h.filter hne
          · exact h.place
  | wait other =>
      obtain ⟨h1, h2, h3⟩ := vacant_wait h.vacant other
      exact hquiet _ h1 h2 h3
  | removeWaiter other n =>
      obtain ⟨h1, h2, h3⟩ := vacant_removeWaiter h.vacant other n
      exact hquiet _ h1 h2 h3
  | failActive error =>
      refine hquiet _ ?_ rfl rfl
      exact (LoginState.entry_failActive w.state id error).trans (by rw [h.vacant]; rfl)
  | release other =>
      have hne : id ≠ other := by rintro rfl; exact hrelease rfl
      exact ⟨(LoginState.entry_release_ne hne).trans h.vacant,
        (SortedMap.lookup_erase_ne hne _).trans h.held, h.filter hne⟩
  | complete other result' =>
      cases hentry : w.state.entry other with
      | some entry =>
          -- a registered login's result goes to its entry, the cache is not touched
          have hpush : pushesAgainst id w (.complete other result') = false := by
            simp [pushesAgainst, hentry]
          rw [hpush]
          have hne : id ≠ other := by rintro rfl; rw [h.vacant] at hentry; cases hentry
          refine hquiet _ ((LoginState.entry_complete_ne hne result').trans h.vacant) ?_ ?_
          · show (w.state.complete other result').2.earlyCompleted = _
            by_cases hsome : entry.terminal.isSome
            · rw [LoginState.complete_of_some hentry hsome]
            · rw [LoginState.complete_of_none hentry (by simpa using hsome)]
          · show (w.state.complete other result').2.earlyOrder = _
            by_cases hsome : entry.terminal.isSome
            · rw [LoginState.complete_of_some hentry hsome]
            · rw [LoginState.complete_of_none hentry (by simpa using hsome)]
      | none =>
          have hstate : (w.act (.complete other result')).state
              = w.state.cacheEarlyLoginResult other result' :=
            congrArg Prod.snd (LoginState.complete_of_vacant hentry result')
          by_cases hid : other = id
          · -- of two early completions of one login the first stays
            subst hid
            have hpush : pushesAgainst other w (.complete other result') = false := by
              simp [pushesAgainst]
            rw [hpush]
            have hsame : w.state.cacheEarlyLoginResult other result' = w.state := by
              unfold LoginState.cacheEarlyLoginResult
              rw [h.held]
              rfl
            rw [hsame] at hstate
            exact hquiet _ (by rw [hstate]; exact h.vacant) (by rw [hstate]) (by rw [hstate])
          · have hpush : pushesAgainst id w (.complete other result') = true := by
              simp [pushesAgainst, hentry, hid]
            rw [hpush, if_pos rfl] at hk ⊢
            obtain ⟨h1, h2, h3⟩ := h.cacheEarly hw hk hid result'
            exact ⟨by rw [hstate]; exact h1, by rw [hstate]; exact h2, by rw [hstate]; exact h3⟩

theorem Cached.runFrom {result : Result Unit} {k : Nat} (h : w.Cached id result k)
    (hw : LoginInv w) {ops : List LoginOp} (hrelease : .release id ∉ ops)
    (hregister : .register id ∉ ops)
    (hk : k + otherCompletions id w ops < earlyLoginCompletionCapacity) :
    (loginMachine.runFrom w ops).Cached id result (k + otherCompletions id w ops) := by
  induction ops generalizing w k with
  | nil => exact h
  | cons op ops ih =>
      rw [List.mem_cons, not_or] at hrelease hregister
      unfold otherCompletions at hk ⊢
      have hact := h.act hw (Ne.symm hrelease.1) (Ne.symm hregister.1) (by omega)
      have hrest := ih hact (hw.step op) hrelease.2 hregister.2 (by omega)
      rw [Nat.add_assoc] at hrest
      exact hrest

/-- The first completion of a login that is not registered. -/
theorem cached_complete (hvacant : w.state.entry id = none)
    (hnew : w.state.earlyCompleted.lookup id = none) (result : Result Unit) :
    (w.act (.complete id result)).Cached id result 0 := by
  have hstate : (w.act (.complete id result)).state = w.state.cacheEarlyLoginResult id result :=
    congrArg Prod.snd (LoginState.complete_of_vacant hvacant result)
  have hcache : w.state.cacheEarlyLoginResult id result = { w.state.expireEarly with
      earlyOrder := w.state.expireEarly.earlyOrder ++ [id]
      earlyCompleted := SortedMap.insert id result w.state.expireEarly.earlyCompleted } := by
    unfold LoginState.cacheEarlyLoginResult
    rw [hnew]
    rfl
  refine ⟨?_, ?_, ?_⟩
  · rw [hstate]
    exact (congrArg (List.lookup id)
      (LoginState.active_cacheEarlyLoginResult w.state id result)).trans hvacant
  · rw [hstate, hcache]
    exact SortedMap.lookup_insert_self ..
  · exact ⟨w.state.expireEarly.earlyOrder, [], by rw [hstate, hcache], Nat.le_refl _⟩

/-- Registering a login delivers its cached completion. -/
theorem Cached.register {result : Result Unit} {k : Nat} (h : w.Cached id result k) :
    (w.state.register id).1 = true
      ∧ (w.state.register id).2.entry id = some ⟨some result, []⟩ := by
  unfold LoginState.register
  rw [h.vacant]
  refine ⟨rfl, (SortedMap.lookup_insert_self ..).trans ?_⟩
  rw [h.held]

end LoginWorld

open LoginWorld

/--
**The first login result wins and reaches every waiter.** In every reachable state of
a login registry:
a result stays as long as its login stays registered, and is what every later wait
returns; a login with a result stores no waiter; a waiter that `wait` has stored and
that is not removed has been sent nothing while its login has no result, exactly that
result once it has one, and nothing more whatever follows; the first completion that
comes before its registration is delivered by it, unless the login is released or the
capacity of completions of other unregistered logins come in between; and the order of
the cache lists the cached ids, once each, at most the capacity, none of them
registered.
-/
theorem login_terminal_first_wins {w : LoginWorld} (h : loginMachine.Reachable Machine.Free w) :
    (∀ id result ops, w.Terminal id result → .release id ∉ ops →
      let w' := loginMachine.runFrom w ops
      w'.Terminal id result ∧ (w'.state.wait id).1 = .ok (.completed result))
    ∧ (∀ id entry, w.state.entry id = some entry → entry.terminal.isSome → entry.waiters = [])
    ∧ (∀ id n ops, (w.state.wait id).1 = .ok (.pending n) → .release id ∉ ops →
        .removeWaiter id n ∉ ops →
        let w' := loginMachine.runFrom (w.act (.wait id)) ops
        ∃ entry, w'.state.entry id = some entry
          ∧ (entry.terminal = none → w'.received n = [])
          ∧ ∀ result, entry.terminal = some result → ∀ more,
              (loginMachine.runFrom w' more).received n = [result])
    ∧ (∀ id result ops, w.state.entry id = none → w.state.earlyCompleted.lookup id = none →
        .release id ∉ ops → .register id ∉ ops →
        let completed := w.act (.complete id result)
        otherCompletions id completed ops < earlyLoginCompletionCapacity →
        let w' := loginMachine.runFrom completed ops
        (w'.state.register id).1 = true
          ∧ (w'.state.register id).2.entry id = some ⟨some result, []⟩)
    ∧ w.state.earlyOrder.Nodup
    ∧ (∀ id, id ∈ w.state.earlyOrder ↔ (w.state.earlyCompleted.lookup id).isSome)
    ∧ w.state.earlyOrder.length ≤ earlyLoginCompletionCapacity
    ∧ ∀ id, (w.state.entry id).isSome → id ∉ w.state.earlyOrder := by
  have hw := LoginInv.reachable h
  refine ⟨?_, hw.settled, ?_, ?_, hw.distinct, hw.mem_order, hw.bounded, hw.disjoint⟩
  · intro id result ops hterminal hops
    have hlater := hterminal.runFrom hops
    refine ⟨hlater, ?_⟩
    obtain ⟨entry, hentry, hresult⟩ := hlater
    unfold LoginState.wait
    rw [hentry]
    dsimp only
    rw [hresult]
  · intro id n ops hwait hrelease hremove
    have hstored : (w.act (.wait id)).Waiting id n := waiting_wait hwait
    have hinv := (hw.step (.wait id)).runFrom ops
    rcases waiting_or_answered_runFrom (Or.inl hstored) hrelease hremove with
      ⟨entry, hentry, hnone, hmem⟩ | ⟨result, ⟨entry, hentry, hresult⟩, hmem⟩
    · refine ⟨entry, hentry, ?_, ?_⟩
      · intro _
        have hsilent := hinv.waiting id entry n hentry hmem
        unfold received
        rw [List.filter_eq_nil_iff.mpr (fun d hd hn => hsilent d hd (by simpa using hn))]
        rfl
      · intro result hresult
        rw [hnone] at hresult; cases hresult
    · refine ⟨entry, hentry, ?_, ?_⟩
      · intro hnone
        rw [hnone] at hresult; cases hresult
      · intro result' hresult' more
        rw [hresult] at hresult'
        obtain rfl := Option.some.inj hresult'
        exact received_of_mem (hinv.runFrom more) ((delivered_runFrom _ more).subset hmem)
  · intro id result ops hvacant hnew hrelease hregister completed hcount
    have hcached := (cached_complete hvacant hnew result).runFrom (hw.step _) hrelease hregister
      (by rw [Nat.zero_add]; exact hcount)
    exact hcached.register

/-- Two waiters, one of which gives up, a completion before its registration, and a lost
connection after both. -/
theorem login_terminal_first_wins_cancelled :
    let cancelled : Result Unit := .error (Error.new .authentication "account.login.wait"
      "managed ChatGPT login was canceled or is no longer active")
    let lost : Error := Error.new .disconnected "rpc" "connection closed"
    let w := loginMachine.run [.register "a", .wait "a", .complete "b" (.ok ())]
    let w' := loginMachine.runFrom (w.act (.wait "a"))
      [.removeWaiter "a" 1, .complete "a" cancelled, .complete "a" (.ok ()), .failActive lost]
    w'.received 2 = [cancelled]
      ∧ ((w.act (.wait "a")).state.register "b").2.entry "b" = some ⟨some (.ok ()), []⟩ := by
  intro cancelled lost w w'
  have hreach : loginMachine.Reachable Machine.Free w := Machine.reachable_run _
  obtain ⟨_, _, hwaiter, _⟩ := login_terminal_first_wins hreach
  obtain ⟨entry, hentry, _, hreceived⟩ := hwaiter "a" 2
    [.removeWaiter "a" 1, .complete "a" cancelled, .complete "a" (.ok ()), .failActive lost] rfl
    (by simp) (by simp)
  obtain ⟨_, _, _, hearly, _⟩ := login_terminal_first_wins
    (Machine.reachable_run [.register "a", .wait "a"] : loginMachine.Reachable Machine.Free _)
  refine ⟨?_, (hearly "b" (.ok ()) [.wait "a"] rfl rfl (by simp) (by simp) (by decide)).2⟩
  cases hentry
  exact hreceived cancelled rfl []

end Vergerail
