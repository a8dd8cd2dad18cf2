import Mathlib

/-!
# Sorted maps

An ordered map as the list of its members in increasing key order, with the lookup of
the core library. `insert` and `erase` change what `lookup` says at one key; a map over
the values with a function that may fail keeps the keys.
-/

namespace Lib.SortedMap

/-! ## Maps that may fail -/

section Effect

variable {α β ε : Type}

/-- A list is mapped successfully exactly if every element is. -/
theorem mapM_ok_iff {f : α → Except ε β} {l : List α} {l' : List β} :
    l.mapM f = .ok l' ↔ List.Forall₂ (fun a b => f a = .ok b) l l' := by
  induction l generalizing l' with
  | nil =>
      rw [List.mapM_nil, List.forall₂_nil_left_iff]
      constructor
      · intro h; cases h; rfl
      · intro h; rw [h]; rfl
  | cons a l ih =>
      rw [List.mapM_cons]
      cases hf : f a with
      | error e =>
          constructor
          · intro h; cases h
          · intro h
            cases h with
            | cons hb _ => rw [hf] at hb; cases hb
      | ok b =>
          cases hl : l.mapM f with
          | error e =>
              constructor
              · intro h; cases h
              · intro h
                cases h with
                | cons _ hrest => rw [ih.mpr hrest] at hl; cases hl
          | ok bs =>
              constructor
              · intro h; cases h; exact .cons hf (ih.mp hl)
              · intro h
                cases h with
                | cons hb hrest =>
                    rw [hf] at hb
                    rw [ih.mpr hrest] at hl
                    cases hb; cases hl; rfl

/-- Every element is mapped if each one alone is. -/
theorem mapM_ok_of_forall {f : α → Except ε β} {l : List α}
    (h : ∀ a ∈ l, ∃ b, f a = .ok b) : ∃ l', l.mapM f = .ok l' := by
  induction l with
  | nil => exact ⟨[], rfl⟩
  | cons a l ih =>
      obtain ⟨b, hb⟩ := h a List.mem_cons_self
      obtain ⟨bs, hbs⟩ := ih (fun x hx => h x (List.mem_cons_of_mem _ hx))
      exact ⟨b :: bs, mapM_ok_iff.mpr (.cons hb (mapM_ok_iff.mp hbs))⟩

/-- A list of fixed points is one. -/
theorem mapM_ok_self {f : α → Except ε α} {l : List α} (h : ∀ a ∈ l, f a = .ok a) :
    l.mapM f = .ok l := mapM_ok_iff.mpr (List.forall₂_same.mpr h)

/-- Every element of a related list comes from one. -/
theorem mem_of_forall₂ {R : α → β → Prop} {l : List α} {l' : List β}
    (h : List.Forall₂ R l l') {b : β} (hb : b ∈ l') : ∃ a ∈ l, R a b := by
  induction h with
  | nil => cases hb
  | @cons a _ l _ ha _ ih =>
      rcases List.mem_cons.mp hb with rfl | hb
      · exact ⟨a, List.mem_cons_self, ha⟩
      · obtain ⟨a', ha', hr⟩ := ih hb
        exact ⟨a', List.mem_cons_of_mem _ ha', hr⟩

/-- Every element afterwards comes from one. -/
theorem mem_mapM {f : α → Except ε β} {l : List α} {l' : List β} (h : l.mapM f = .ok l')
    {b : β} (hb : b ∈ l') : ∃ a ∈ l, f a = .ok b := mem_of_forall₂ (mapM_ok_iff.mp h) hb

theorem mapM_congr {f g : α → Except ε β} {l : List α} (h : ∀ a ∈ l, f a = g a) :
    l.mapM f = l.mapM g := by
  induction l with
  | nil => rfl
  | cons a l ih =>
      rw [List.mapM_cons, List.mapM_cons, h a List.mem_cons_self,
        ih (fun x hx => h x (List.mem_cons_of_mem _ hx))]

end Effect

/-! ## Members -/

section Members

variable {κ α : Type}

def keys (m : List (κ × α)) : List κ := m.map Prod.fst

@[simp] theorem keys_nil : keys ([] : List (κ × α)) = [] := rfl

@[simp] theorem keys_cons (p : κ × α) (m : List (κ × α)) : keys (p :: m) = p.1 :: keys m := rfl

section Lookup

variable [DecidableEq κ]

theorem lookup_cons_self (k : κ) (v : α) (m : List (κ × α)) :
    ((k, v) :: m).lookup k = some v := by
  rw [List.lookup_cons, beq_self_eq_true]

theorem lookup_cons_ne {k k' : κ} (h : k' ≠ k) (v : α) (m : List (κ × α)) :
    ((k, v) :: m).lookup k' = m.lookup k' := by
  rw [List.lookup_cons, beq_eq_false_iff_ne.mpr h]

theorem mem_of_lookup {k : κ} {v : α} {m : List (κ × α)} (h : m.lookup k = some v) :
    (k, v) ∈ m := by
  obtain ⟨l₁, l₂, rfl, -⟩ := List.lookup_eq_some_iff.mp h
  exact List.mem_append_right _ List.mem_cons_self

/-- The members are the lookups, where no key occurs twice. -/
theorem lookup_of_nodup {k : κ} {v : α} {m : List (κ × α)} (hm : (keys m).Nodup)
    (h : (k, v) ∈ m) : m.lookup k = some v := by
  induction m with
  | nil => cases h
  | cons p m ih =>
      obtain ⟨hp, hrest⟩ := List.nodup_cons.mp hm
      rcases List.mem_cons.mp h with rfl | h
      · exact lookup_cons_self k v m
      · have hne : k ≠ p.1 := fun heq => hp (heq ▸ List.mem_map_of_mem h)
        rw [lookup_cons_ne hne]
        exact ih hrest h

theorem mem_keys_iff {k : κ} {m : List (κ × α)} : k ∈ keys m ↔ (m.lookup k).isSome := by
  rw [List.lookup_isSome_iff]
  constructor
  · intro h
    obtain ⟨p, hp, rfl⟩ := List.mem_map.mp h
    exact ⟨p, hp, beq_self_eq_true _⟩
  · intro ⟨p, hp, hk⟩
    exact List.mem_map.mpr ⟨p, hp, (beq_iff_eq.mp hk).symm⟩

/-- The lookups of the keys, in any order of the keys, are the members. -/
theorem map_lookup_perm {m : List (κ × α)} (hm : (keys m).Nodup) {ks : List κ} (hks : ks.Nodup)
    (h : ∀ k, k ∈ ks ↔ k ∈ keys m) (missing : α) :
    (ks.map (fun k => (k, (m.lookup k).getD missing))).Perm m := by
  have hkeys : ks.Perm (keys m) := (List.perm_ext_iff_of_nodup hks hm).mpr h
  have hself : (keys m).map (fun k => (k, (m.lookup k).getD missing)) = m := by
    rw [keys, List.map_map]
    refine (List.map_congr_left (fun p hp => ?_)).trans (List.map_id m)
    rw [Function.comp_apply, lookup_of_nodup hm hp, Option.getD_some, id_eq]
  exact (hkeys.map _).trans (by rw [hself])

theorem lookup_eq_none_of_not_mem {k : κ} {m : List (κ × α)} (h : k ∉ keys m) :
    m.lookup k = none := by
  rw [mem_keys_iff] at h
  exact Option.not_isSome_iff_eq_none.mp h

/-- Rewrites every value. -/
def map {β : Type} (f : α → β) (m : List (κ × α)) : List (κ × β) := m.map (fun p => (p.1, f p.2))

theorem lookup_map {β : Type} (f : α → β) (m : List (κ × α)) (k : κ) :
    (map f m).lookup k = (m.lookup k).map f := by
  induction m with
  | nil => rfl
  | cons p m ih =>
      obtain ⟨j, w⟩ := p
      unfold map at ih ⊢
      rw [List.map_cons]
      by_cases hk : k = j
      · rw [hk, lookup_cons_self, lookup_cons_self]; rfl
      · rw [lookup_cons_ne hk, lookup_cons_ne hk, ih]

end Lookup

variable [LinearOrder κ]

/-- The members stand in strictly increasing key order. -/
def Sorted (m : List (κ × α)) : Prop := m.Pairwise (fun a b => a.1 < b.1)

/-- The value of the key becomes `v`; a new key takes its place in the order. -/
def insert (k : κ) (v : α) : List (κ × α) → List (κ × α)
  | [] => [(k, v)]
  | (k', v') :: m =>
    if k = k' then (k, v) :: m
    else if k < k' then (k, v) :: (k', v') :: m
    else (k', v') :: insert k v m

/-- The value of the key becomes `v` unless it has one. -/
def insertNew (k : κ) (v : α) (m : List (κ × α)) : List (κ × α) :=
  if (m.lookup k).isSome then m else insert k v m

def erase (k : κ) (m : List (κ × α)) : List (κ × α) := m.filter (fun p => p.1 ≠ k)

theorem keys_nodup {m : List (κ × α)} (h : Sorted m) : (keys m).Nodup :=
  List.pairwise_map.mpr (h.imp (fun hlt => ne_of_lt hlt))

theorem sorted_iff_keys {m : List (κ × α)} : Sorted m ↔ (keys m).Pairwise (· < ·) :=
  List.pairwise_map.symm

/-- A map is sorted by the keys it shows. -/
theorem sorted_of_keys (ks : List κ) (hks : ks.Pairwise (· < ·)) {m : List (κ × α)}
    (h : keys m = ks) : Sorted m := sorted_iff_keys.mpr (h ▸ hks)

theorem lookup_of_mem {k : κ} {v : α} {m : List (κ × α)} (hm : Sorted m) (h : (k, v) ∈ m) :
    m.lookup k = some v := lookup_of_nodup (keys_nodup hm) h

/-! ## Insertion and removal -/

theorem lookup_insert_self (k : κ) (v : α) (m : List (κ × α)) :
    (insert k v m).lookup k = some v := by
  induction m with
  | nil => exact lookup_cons_self k v []
  | cons p m ih =>
      unfold insert
      split
      · exact lookup_cons_self k v m
      · split
        · exact lookup_cons_self k v _
        · rename_i hne _
          rw [lookup_cons_ne hne]
          exact ih

theorem lookup_insert_ne {k k' : κ} (h : k' ≠ k) (v : α) (m : List (κ × α)) :
    (insert k v m).lookup k' = m.lookup k' := by
  induction m with
  | nil => exact lookup_cons_ne h v []
  | cons p m ih =>
      obtain ⟨j, w⟩ := p
      unfold insert
      split
      · rename_i heq
        rw [lookup_cons_ne h, lookup_cons_ne (heq ▸ h)]
      · split
        · exact lookup_cons_ne h v _
        · by_cases hj : k' = j
          · rw [hj, lookup_cons_self, lookup_cons_self]
          · rw [lookup_cons_ne hj, lookup_cons_ne hj, ih]

theorem lookup_insert (k k' : κ) (v : α) (m : List (κ × α)) :
    (insert k v m).lookup k' = if k' = k then some v else m.lookup k' := by
  by_cases h : k' = k
  · rw [if_pos h, h]; exact lookup_insert_self k v m
  · rw [if_neg h]; exact lookup_insert_ne h v m

theorem mem_insert {k : κ} {v : α} {m : List (κ × α)} {p : κ × α} (h : p ∈ insert k v m) :
    p = (k, v) ∨ p ∈ m := by
  induction m with
  | nil => exact .inl (List.mem_singleton.mp h)
  | cons q m ih =>
      unfold insert at h
      split at h
      · rcases List.mem_cons.mp h with h | h
        · exact .inl h
        · exact .inr (List.mem_cons_of_mem _ h)
      · split at h
        · exact List.mem_cons.mp h
        · rcases List.mem_cons.mp h with h | h
          · exact .inr (h ▸ List.mem_cons_self)
          · exact (ih h).imp_right (List.mem_cons_of_mem _)

theorem sorted_insert (k : κ) (v : α) {m : List (κ × α)} (hm : Sorted m) :
    Sorted (insert k v m) := by
  induction m with
  | nil => exact List.pairwise_singleton _ _
  | cons p m ih =>
      obtain ⟨hp, hrest⟩ := List.pairwise_cons.mp hm
      unfold insert
      split
      · rename_i heq
        exact List.pairwise_cons.mpr ⟨fun q hq => heq ▸ hp q hq, hrest⟩
      · split
        · rename_i hlt
          refine List.pairwise_cons.mpr ⟨fun q hq => ?_, hm⟩
          rcases List.mem_cons.mp hq with rfl | hq
          · exact hlt
          · exact lt_trans hlt (hp q hq)
        · rename_i hne hnlt
          refine List.pairwise_cons.mpr ⟨fun q hq => ?_, ih hrest⟩
          rcases mem_insert hq with rfl | hq
          · exact lt_of_le_of_ne (not_lt.mp hnlt) (Ne.symm hne)
          · exact hp q hq

/-- Writing back what is there changes nothing. -/
theorem insert_of_lookup {k : κ} {v : α} {m : List (κ × α)} (hm : Sorted m)
    (h : m.lookup k = some v) : insert k v m = m := by
  induction m with
  | nil => cases h
  | cons p m ih =>
      obtain ⟨hp, hrest⟩ := List.pairwise_cons.mp hm
      obtain ⟨j, w⟩ := p
      unfold insert
      by_cases hk : k = j
      · subst hk
        rw [lookup_cons_self] at h
        rw [if_pos rfl, Option.some.inj h]
      · rw [lookup_cons_ne hk] at h
        have hlt : j < k := hp _ (mem_of_lookup h)
        rw [if_neg hk, if_neg (lt_asymm hlt), ih hrest h]

theorem lookup_insertNew_ne {k k' : κ} (h : k' ≠ k) (v : α) (m : List (κ × α)) :
    (insertNew k v m).lookup k' = m.lookup k' := by
  unfold insertNew
  split
  · rfl
  · exact lookup_insert_ne h v m

theorem lookup_insertNew_self (k : κ) (v : α) (m : List (κ × α)) :
    (insertNew k v m).lookup k = some ((m.lookup k).getD v) := by
  unfold insertNew
  cases hk : m.lookup k with
  | none => exact lookup_insert_self k v m
  | some w => exact hk

theorem insertNew_of_lookup {k : κ} {v w : α} {m : List (κ × α)} (h : m.lookup k = some w) :
    insertNew k v m = m := by
  unfold insertNew
  rw [h]
  rfl

theorem mem_insertNew {k : κ} {v : α} {m : List (κ × α)} {p : κ × α}
    (h : p ∈ insertNew k v m) : p = (k, v) ∨ p ∈ m := by
  unfold insertNew at h
  split at h
  · exact .inr h
  · exact mem_insert h

theorem sorted_insertNew (k : κ) (v : α) {m : List (κ × α)} (hm : Sorted m) :
    Sorted (insertNew k v m) := by
  unfold insertNew
  split
  · exact hm
  · exact sorted_insert k v hm

theorem lookup_erase_self (k : κ) (m : List (κ × α)) : (erase k m).lookup k = none := by
  rw [List.lookup_eq_none_iff]
  intro p hp
  have hne : p.1 ≠ k := by simpa using (List.mem_filter.mp hp).2
  exact bne_iff_ne.mpr (Ne.symm hne)

theorem lookup_erase_ne {k k' : κ} (h : k' ≠ k) (m : List (κ × α)) :
    (erase k m).lookup k' = m.lookup k' := by
  induction m with
  | nil => rfl
  | cons p m ih =>
      obtain ⟨j, w⟩ := p
      unfold erase at ih ⊢
      by_cases hj : j = k
      · rw [List.filter_cons_of_neg (by simp [hj]), ih, lookup_cons_ne (hj ▸ h)]
      · rw [List.filter_cons_of_pos (by simp [hj])]
        by_cases hk : k' = j
        · rw [hk, lookup_cons_self, lookup_cons_self]
        · rw [lookup_cons_ne hk, lookup_cons_ne hk, ih]

theorem mem_of_mem_erase {k : κ} {m : List (κ × α)} {p : κ × α} (h : p ∈ erase k m) : p ∈ m :=
  (List.mem_filter.mp h).1

theorem sorted_erase (k : κ) {m : List (κ × α)} (hm : Sorted m) : Sorted (erase k m) :=
  List.Pairwise.filter _ hm

theorem keys_erase (k : κ) (m : List (κ × α)) :
    keys (erase k m) = (keys m).filter (fun k' => k' ≠ k) := by
  unfold keys erase
  rw [List.filter_map]
  rfl

/-- A new key joins the others. -/
theorem keys_insert_perm {k : κ} (v : α) {m : List (κ × α)} (h : k ∉ keys m) :
    (keys (insert k v m)).Perm (k :: keys m) := by
  induction m with
  | nil => exact List.Perm.refl _
  | cons p m ih =>
      obtain ⟨j, w⟩ := p
      rw [keys_cons, List.mem_cons, not_or] at h
      unfold insert
      rw [if_neg h.1]
      split
      · exact List.Perm.refl _
      · exact ((ih h.2).cons j).trans (List.Perm.swap k j (keys m))

theorem sorted_map {β : Type} (f : α → β) {m : List (κ × α)} (hm : Sorted m) :
    Sorted (map f m) := List.pairwise_map.mpr hm

end Members

/-! ## A map over the values -/

section Values

variable {κ α β ε : Type}

/-- Every value in key order, with its key at hand. -/
def mapValues (f : κ → α → Except ε β) (m : List (κ × α)) : Except ε (List (κ × β)) :=
  m.mapM (fun p => (f p.1 p.2).map (fun b => (p.1, b)))

theorem map_pair_ok_iff {x : Except ε β} {k : κ} {q : κ × β} :
    x.map (fun b => (k, b)) = .ok q ↔ q.1 = k ∧ x = .ok q.2 := by
  obtain ⟨j, b⟩ := q
  cases x with
  | error e =>
      constructor
      · intro h; cases h
      · intro ⟨_, h⟩; cases h
  | ok b' =>
      constructor
      · intro h; cases h; exact ⟨rfl, rfl⟩
      · intro ⟨hk, h⟩; cases h; rw [← hk]; rfl

theorem mapValues_congr {f g : κ → α → Except ε β} {m : List (κ × α)}
    (h : ∀ p ∈ m, f p.1 p.2 = g p.1 p.2) : mapValues f m = mapValues g m :=
  mapM_congr (fun p hp => by rw [h p hp])

theorem mapValues_ok_iff {f : κ → α → Except ε β} {m : List (κ × α)} {m' : List (κ × β)} :
    mapValues f m = .ok m' ↔
      List.Forall₂ (fun p q => q.1 = p.1 ∧ f p.1 p.2 = .ok q.2) m m' := by
  unfold mapValues
  rw [mapM_ok_iff]
  simp only [map_pair_ok_iff]

theorem mapValues_ok_of_forall {f : κ → α → Except ε β} {m : List (κ × α)}
    (h : ∀ p ∈ m, ∃ b, f p.1 p.2 = .ok b) : ∃ m', mapValues f m = .ok m' := by
  refine mapM_ok_of_forall (fun p hp => ?_)
  obtain ⟨b, hb⟩ := h p hp
  exact ⟨(p.1, b), map_pair_ok_iff.mpr ⟨rfl, hb⟩⟩

theorem mapValues_self {f : κ → α → Except ε α} {m : List (κ × α)}
    (h : ∀ p ∈ m, f p.1 p.2 = .ok p.2) : mapValues f m = .ok m :=
  mapM_ok_self (fun p hp => map_pair_ok_iff.mpr ⟨rfl, h p hp⟩)

/-- Every member afterwards comes from one with its key. -/
theorem mem_mapValues {f : κ → α → Except ε β} {m : List (κ × α)} {m' : List (κ × β)}
    (h : mapValues f m = .ok m') {q : κ × β} (hq : q ∈ m') :
    ∃ p ∈ m, q.1 = p.1 ∧ f p.1 p.2 = .ok q.2 := by
  obtain ⟨p, hp, hf⟩ := mem_mapM h hq
  exact ⟨p, hp, map_pair_ok_iff.mp hf⟩

theorem keys_mapValues {f : κ → α → Except ε β} {m : List (κ × α)} {m' : List (κ × β)}
    (h : mapValues f m = .ok m') : keys m' = keys m := by
  have hall := mapValues_ok_iff.mp h
  clear h
  induction hall with
  | nil => rfl
  | cons hp _ ih => rw [keys_cons, keys_cons, hp.1, ih]

/-- A map onto itself leaves every value alone. -/
theorem mapValues_fixed {f : κ → α → Except ε α} {m : List (κ × α)}
    (h : mapValues f m = .ok m) : ∀ p ∈ m, f p.1 p.2 = .ok p.2 := by
  have hall := mapValues_ok_iff.mp h
  intro p hp
  exact (List.forall₂_same.mp hall p hp).2

variable [LinearOrder κ]

theorem sorted_mapValues {f : κ → α → Except ε β} {m : List (κ × α)} {m' : List (κ × β)}
    (h : mapValues f m = .ok m') (hm : Sorted m) : Sorted m' :=
  sorted_iff_keys.mpr (keys_mapValues h ▸ sorted_iff_keys.mp hm)

/-- What stands at a key afterwards is the image of what stood there. -/
theorem lookup_mapValues {f : κ → α → Except ε β} {m : List (κ × α)} {m' : List (κ × β)}
    (h : mapValues f m = .ok m') (k : κ) :
    (m.lookup k = none ∧ m'.lookup k = none) ∨
      ∃ a b, m.lookup k = some a ∧ m'.lookup k = some b ∧ f k a = .ok b := by
  have hall := mapValues_ok_iff.mp h
  clear h
  induction hall with
  | nil => exact .inl ⟨rfl, rfl⟩
  | @cons p q m m' hp _ ih =>
      obtain ⟨j, a⟩ := p
      obtain ⟨j', b⟩ := q
      obtain ⟨rfl, hf⟩ := hp
      by_cases hk : k = j'
      · subst hk
        exact .inr ⟨a, b, lookup_cons_self k a m, lookup_cons_self k b m', hf⟩
      · rw [lookup_cons_ne hk, lookup_cons_ne hk]
        exact ih

theorem mapValues_image {f : κ → α → Except ε β} {m : List (κ × α)} {m' : List (κ × β)}
    (h : mapValues f m = .ok m') {k : κ} {a : α} (ha : m.lookup k = some a) :
    ∃ b, m'.lookup k = some b ∧ f k a = .ok b := by
  rcases lookup_mapValues h k with ⟨hnone, -⟩ | ⟨a', b, ha', hb, hf⟩
  · rw [ha] at hnone; cases hnone
  · rw [ha] at ha'
    cases ha'
    exact ⟨b, hb, hf⟩

theorem mapValues_preimage {f : κ → α → Except ε β} {m : List (κ × α)} {m' : List (κ × β)}
    (h : mapValues f m = .ok m') {k : κ} {b : β} (hb : m'.lookup k = some b) :
    ∃ a, m.lookup k = some a ∧ f k a = .ok b := by
  rcases lookup_mapValues h k with ⟨-, hnone⟩ | ⟨a, b', ha, hb', hf⟩
  · rw [hb] at hnone; cases hnone
  · rw [hb] at hb'
    cases hb'
    exact ⟨a, ha, hf⟩

end Values

/-! ## Choosing among the entries -/

section Collect

variable {κ α β : Type}

/-- Keeps the entries that `f` gives a value. -/
def collect (f : κ → α → Option β) (m : List (κ × α)) : List (κ × β) :=
  m.filterMap (fun p => (f p.1 p.2).map (fun b => (p.1, b)))

theorem mem_collect {f : κ → α → Option β} {m : List (κ × α)} {q : κ × β} :
    q ∈ collect f m ↔ ∃ a, (q.1, a) ∈ m ∧ f q.1 a = some q.2 := by
  unfold collect
  rw [List.mem_filterMap]
  constructor
  · rintro ⟨p, hp, hq⟩
    obtain ⟨b, hb, rfl⟩ := Option.map_eq_some_iff.mp hq
    exact ⟨p.2, hp, hb⟩
  · rintro ⟨a, ha, hq⟩
    exact ⟨(q.1, a), ha, by rw [hq]; rfl⟩

variable [LinearOrder κ]

theorem sorted_collect (f : κ → α → Option β) {m : List (κ × α)} (hm : Sorted m) :
    Sorted (collect f m) := by
  refine List.Pairwise.filterMap _ ?_ hm
  intro p p' hlt q hq q' hq'
  obtain ⟨b, -, rfl⟩ := Option.map_eq_some_iff.mp hq
  obtain ⟨b', -, rfl⟩ := Option.map_eq_some_iff.mp hq'
  exact hlt

theorem lookup_collect (f : κ → α → Option β) {m : List (κ × α)} (hm : Sorted m)
    (k : κ) : (collect f m).lookup k = (m.lookup k).bind (f k) := by
  have hsorted := sorted_collect f hm
  cases hk : (collect f m).lookup k with
  | some b =>
      obtain ⟨a, ha, hb⟩ := mem_collect.mp (mem_of_lookup hk)
      rw [lookup_of_mem hm ha]
      exact hb.symm
  | none =>
      cases ha : m.lookup k with
      | none => rfl
      | some a =>
          cases hb : f k a with
          | none => rw [Option.bind_some, hb]
          | some b =>
              have hmem : (k, b) ∈ collect f m := mem_collect.mpr ⟨a, mem_of_lookup ha, hb⟩
              rw [lookup_of_mem hsorted hmem] at hk
              cases hk

/-- What can be chosen for every entry can be chosen for all of them at once. -/
theorem exists_collect {R : κ → α → Option β → Prop} {m : List (κ × α)} (hm : Sorted m)
    (h : ∀ k a, m.lookup k = some a → ∃ o, R k a o) :
    ∃ l : List (κ × β), Sorted l ∧ (∀ k, m.lookup k = none → l.lookup k = none) ∧
      ∀ k a, m.lookup k = some a → R k a (l.lookup k) := by
  have hchoice : ∀ k a, ∃ o, m.lookup k = some a → R k a o := by
    intro k a
    by_cases ha : m.lookup k = some a
    · obtain ⟨o, ho⟩ := h k a ha
      exact ⟨o, fun _ => ho⟩
    · exact ⟨none, fun ha' => absurd ha' ha⟩
  choose f hf using hchoice
  refine ⟨collect f m, sorted_collect f hm, fun k hk => ?_, fun k a ha => ?_⟩
  · rw [lookup_collect f hm, hk]
    rfl
  · rw [lookup_collect f hm, ha]
    exact hf k a ha

end Collect

end Lib.SortedMap
