import Mathlib.Tactic.SplitIfs
import Vergerail.Bin.NativeSchema

/-!
# The walk over a schema

`reach` bounds the recursion of `close_native_object_schemas`, so the walk has the
equations of the source: an object is closed and then its values, an array is walked,
anything else is left alone. `closeObject_cases` says what closing one object does, and
`close_self_iff` which values the walk leaves unchanged.
-/

namespace Vergerail

open UpagentProvider (ProviderResult failure)
open Lib.SortedMap

namespace Json

def isScalar : Json → Bool
  | array _ => false
  | object _ => false
  | _ => true

/-- `P` holds of the members of every object in the value. -/
inductive Everywhere (P : List (String × Json) → Prop) : Json → Prop
  | scalar {v : Json} : v.isScalar = true → Everywhere P v
  | array {items : List Json} : (∀ w ∈ items, Everywhere P w) → Everywhere P (.array items)
  | object {m : List (String × Json)} :
      P m → (∀ p ∈ m, Everywhere P p.2) → Everywhere P (.object m)

/-- The objects of the value are maps sorted by key. -/
abbrev Ordered : Json → Prop := Everywhere Sorted

theorem Everywhere.items {P : List (String × Json) → Prop} {items : List Json}
    (h : Everywhere P (.array items)) : ∀ w ∈ items, Everywhere P w := by
  cases h with
  | scalar hs => cases hs
  | array hitems => exact hitems

theorem Everywhere.here {P : List (String × Json) → Prop} {m : List (String × Json)}
    (h : Everywhere P (.object m)) : P m := by
  cases h with
  | scalar hs => cases hs
  | object hm _ => exact hm

theorem Everywhere.members {P : List (String × Json) → Prop} {m : List (String × Json)}
    (h : Everywhere P (.object m)) : ∀ p ∈ m, Everywhere P p.2 := by
  cases h with
  | scalar hs => cases hs
  | object _ hmembers => exact hmembers

theorem Everywhere.strings {P : List (String × Json) → Prop} (names : List String) :
    Everywhere P (.array (names.map .string)) := by
  refine .array (fun w hw => ?_)
  obtain ⟨name, -, rfl⟩ := List.mem_map.mp hw
  exact .scalar rfl

end Json

namespace NativeSchema

/-! ## Reach -/

theorem reachItems_le_iff {items : List Json} {b : Nat} :
    reachItems items ≤ b ↔ ∀ v ∈ items, reach v ≤ b := by
  induction items with
  | nil => simp [reachItems]
  | cons v items ih =>
      rw [reachItems, Nat.max_le, ih, List.forall_mem_cons]

theorem reachMembers_le_iff {m : Members} {b : Nat} :
    reachMembers m ≤ b ↔
      ∀ p ∈ m, reach p.2 + (if p.1 = "properties" then 6 else 0) ≤ b := by
  induction m with
  | nil => simp [reachMembers]
  | cons p m ih =>
      obtain ⟨name, value⟩ := p
      rw [reachMembers, Nat.max_le, ih, List.forall_mem_cons]

theorem reach_item {v : Json} {items : List Json} (h : v ∈ items) :
    reach v < reach (.array items) := by
  have hle := reachItems_le_iff.mp (Nat.le_refl (reachItems items)) v h
  rw [reach]
  omega

theorem reach_member {p : String × Json} {m : Members} (h : p ∈ m) :
    reach p.2 + (if p.1 = "properties" then 6 else 0) + 2 ≤ reach (.object m) := by
  have hle := reachMembers_le_iff.mp (Nat.le_refl (reachMembers m)) p h
  rw [reach]
  omega

theorem reach_object_le_iff {m : Members} {b : Nat} :
    reach (.object m) ≤ b + 2 ↔
      ∀ p ∈ m, reach p.2 + (if p.1 = "properties" then 6 else 0) ≤ b := by
  rw [reach, ← reachMembers_le_iff]
  omega

theorem reach_strings (names : List String) : reach (.array (names.map .string)) ≤ 1 := by
  have hle : reachItems (names.map .string) ≤ 0 := by
    refine reachItems_le_iff.mpr (fun v hv => ?_)
    obtain ⟨name, -, rfl⟩ := List.mem_map.mp hv
    exact Nat.le_refl _
  rw [reach]
  omega

theorem reach_lookup {k : String} {v : Json} {m : Members} {b : Nat}
    (hv : m.lookup k = some v) (hm : reach (.object m) ≤ b + 2) : reach v ≤ b := by
  have hle := reach_object_le_iff.mp hm _ (mem_of_lookup hv)
  exact Nat.le_trans (Nat.le_add_right _ _) hle

/-- A value put under a key other than `properties` counts with its own reach. -/
theorem reach_insert {k : String} {v : Json} {m : Members} {b : Nat} (hk : k ≠ "properties")
    (hv : reach v ≤ b) (hm : reach (.object m) ≤ b + 2) : reach (.object (insert k v m)) ≤ b + 2 := by
  refine reach_object_le_iff.mpr (fun p hp => ?_)
  rcases mem_insert hp with rfl | hp
  · rw [if_neg hk]; exact hv
  · exact reach_object_le_iff.mp hm p hp

theorem reach_insertNew {k : String} {v : Json} {m : Members} {b : Nat} (hk : k ≠ "properties")
    (hv : reach v ≤ b) (hm : reach (.object m) ≤ b + 2) :
    reach (.object (insertNew k v m)) ≤ b + 2 := by
  unfold insertNew
  split
  · exact hm
  · exact reach_insert hk hv hm

theorem reach_erase {k : String} {m : Members} {b : Nat} (hm : reach (.object m) ≤ b + 2) :
    reach (.object (erase k m)) ≤ b + 2 :=
  reach_object_le_iff.mpr (fun p hp => reach_object_le_iff.mp hm p (mem_of_mem_erase hp))

/-! ## What a schema looks up -/

/-- A constant that passes is a scalar. -/
theorem checkConst_scalar {m : Members} {c : Json} {kind : String}
    (h : checkConst m c = .ok kind) : nativeJsonType c = some kind := by
  unfold checkConst at h
  cases hc : nativeJsonType c with
  | none => rw [hc] at h; cases h
  | some kind' =>
      rw [hc] at h
      dsimp only at h
      cases hv : validateConstEnumMembership m c with
      | error e => rw [hv] at h; cases h
      | ok u =>
          rw [hv] at h
          dsimp only at h
          cases ht : m.lookup "type" with
          | none => rw [ht] at h; cases h; rfl
          | some t =>
              rw [ht] at h
              dsimp only at h
              split_ifs at h with hincl
              · cases h; rfl
              · cases h

theorem reach_of_nativeJsonType {c : Json} {kind : String} (h : nativeJsonType c = some kind) :
    reach c = 0 := by
  cases c with
  | null => rfl
  | bool b => rfl
  | number text => rfl
  | string s => rfl
  | array items => cases h
  | object m => cases h

theorem reach_enumWithNull {m : Members} {b : Nat} (hm : reach (.object m) ≤ b + 2) :
    reach (.object (enumWithNull m)) ≤ b + 2 := by
  unfold enumWithNull
  split
  · rename_i values henum
    split
    · exact hm
    · have hvalues := reach_lookup henum hm
      refine reach_insert (by decide) ?_ hm
      rw [reach] at hvalues ⊢
      have hall : reachItems (values ++ [.null]) ≤ reachItems values := by
        refine reachItems_le_iff.mpr (fun v hv => ?_)
        rcases List.mem_append.mp hv with hv | hv
        · exact reachItems_le_iff.mp (Nat.le_refl _) v hv
        · rw [List.mem_singleton.mp hv]; exact Nat.zero_le _
      omega
  · exact hm

theorem reach_orNull (v : Json) : reach (orNull v) ≤ reach v + 5 := by
  simp only [orNull, reach, reachMembers, reachItems]
  have h1 : ("anyOf" = "properties") = False := by decide
  have h2 : ("type" = "properties") = False := by decide
  simp only [h1, h2, if_false]
  omega

theorem reach_typeWithNull (t : Json) : reach (typeWithNull t) ≤ reach t + 1 := by
  cases t with
  | string s => exact Nat.le_refl _
  | array types =>
      simp only [typeWithNull]
      split_ifs
      · exact Nat.le_succ _
      · have hall : reachItems (types ++ [.string "null"]) ≤ reachItems types := by
          refine reachItems_le_iff.mpr (fun v hv => ?_)
          rcases List.mem_append.mp hv with hv | hv
          · exact reachItems_le_iff.mp (Nat.le_refl _) v hv
          · rw [List.mem_singleton.mp hv]; exact Nat.zero_le _
        simp only [reach]
        omega
  | null => exact Nat.le_succ _
  | bool b => exact Nat.le_succ _
  | number text => exact Nat.le_succ _
  | object m => exact Nat.le_succ _

theorem reach_constAsEnum {m m' : Members} {b : Nat} (h : constAsEnum m = .ok m')
    (hm : reach (.object m) ≤ b + 2) : reach (.object m') ≤ (b + 1) + 2 := by
  unfold constAsEnum at h
  split at h
  · cases h; omega
  · rename_i c hconst
    split at h
    · cases h
    · rename_i kind hcheck
      cases h
      have hc := reach_of_nativeJsonType (checkConst_scalar hcheck)
      have henum : reach (.array (c :: (if kind = "null" then [] else [.null]))) ≤ b + 1 := by
        split_ifs
        · simp only [reach, reachItems, hc]; omega
        · simp only [reach, reachItems, hc]; omega
      refine reach_insert (by decide) henum (reach_erase ?_)
      exact reach_insertNew (by decide) (Nat.zero_le _) (reach_erase (by omega))

theorem reach_objectOrNull {m : Members} {b : Nat} (hm : reach (.object m) ≤ b + 2) :
    reach (objectOrNull m) ≤ b + 7 := by
  unfold objectOrNull
  split
  · rename_i t ht
    have ht' := reach_lookup ht hm
    split_ifs
    · exact Nat.le_trans (reach_enumWithNull hm) (by omega)
    · omega
    · have htype := reach_typeWithNull t
      have hins : reach (.object (insert "type" (typeWithNull t) m)) ≤ (b + 1) + 2 :=
        reach_insert (by decide) (by omega) (by omega)
      exact Nat.le_trans (reach_enumWithNull hins) (by omega)
  · split_ifs
    · omega
    · exact Nat.le_trans (reach_orNull _) (by omega)

/-- A property that becomes nullable grows by a constant. -/
theorem reach_nullable {v u : Json} (h : makeNativePropertyNullable v = .ok u) :
    reach u ≤ reach v + 6 := by
  cases v with
  | object m =>
      simp only [makeNativePropertyNullable] at h
      cases hc : constAsEnum m with
      | error e => rw [hc] at h; cases h
      | ok m' =>
          rw [hc] at h
          cases h
          have hm : reach (.object m) = reachMembers m + 2 := by rw [reach, Nat.add_comm]
          have hm' := reach_constAsEnum hc (Nat.le_of_eq hm)
          have hobject := reach_objectOrNull hm'
          omega
  | null => cases h; exact Nat.le_trans (reach_orNull _) (Nat.le_succ _)
  | bool b => cases h; exact Nat.le_trans (reach_orNull _) (Nat.le_succ _)
  | number text => cases h; exact Nat.le_trans (reach_orNull _) (Nat.le_succ _)
  | string s => cases h; exact Nat.le_trans (reach_orNull _) (Nat.le_succ _)
  | array items => cases h; exact Nat.le_trans (reach_orNull _) (Nat.le_succ _)

/-! ## Closing one object -/

theorem kind_ne_object {c : Json} {kind : String} (h : nativeJsonType c = some kind) :
    kind ≠ "object" := by
  cases c with
  | null => cases h; decide
  | bool b => cases h; decide
  | number text =>
      simp only [nativeJsonType] at h
      split_ifs at h
      · cases h; decide
      · cases h; decide
  | string s => cases h; decide
  | array items => cases h
  | object m => cases h

theorem normalize_cases {m n : Members} (h : normalizeNativeConstType m = .ok n) :
    (m.lookup "const" = none ∧ n = m) ∨
      ∃ c kind, m.lookup "const" = some c ∧ checkConst m c = .ok kind ∧
        n = insertNew "type" (.string kind) m := by
  unfold normalizeNativeConstType at h
  split at h
  · rename_i hc; cases h; exact .inl ⟨hc, rfl⟩
  · rename_i c hc
    split at h
    · cases h
    · rename_i kind hkind
      cases h
      exact .inr ⟨c, kind, hc, hkind, rfl⟩

theorem closeProperties_cases {existing : List String} {m n : Members}
    (h : closeProperties existing m = .ok n) :
    (∃ ps ps', m.lookup "properties" = some (.object ps) ∧
        mapValues (closeProperty existing) ps = .ok ps' ∧
        n = insert "properties" (.object ps') m) ∨
      ((∀ ps, m.lookup "properties" ≠ some (.object ps)) ∧ n = m) := by
  unfold closeProperties at h
  split at h
  · rename_i ps hps
    split at h
    · cases h
    · rename_i ps' hps'
      cases h
      exact .inl ⟨ps, ps', hps, hps', rfl⟩
  · rename_i hnone
    cases h
    exact .inr ⟨hnone, rfl⟩

theorem closeObjectSchema_cases {m n : Members} (h : closeObjectSchema m = .ok n) :
    ∃ existing closed, isOpen m = false ∧ existingRequired m = .ok existing ∧
      (∀ name ∈ existing, name ∈ propertyNames m) ∧
      closeProperties existing (insert "additionalProperties" (.bool false) m) = .ok closed ∧
      n = insert "required" (.array ((propertyNames m).map .string)) closed := by
  unfold closeObjectSchema at h
  split_ifs at h with hopen
  · cases h
  · split at h
    · cases h
    · rename_i existing hexisting
      split_ifs at h with hundeclared
      · cases h
      · split at h
        · cases h
        · rename_i closed hclosed
          cases h
          refine ⟨existing, closed, by simpa using hopen, hexisting, ?_, hclosed, rfl⟩
          intro name hname
          have hall : ∀ x ∈ existing, x ∈ propertyNames m := by simpa using hundeclared
          exact hall name hname

/-- The properties before and after the object that declares them is closed. -/
def PropertiesClosed (existing : List String) (m n : Members) : Prop :=
  (∃ ps ps', m.lookup "properties" = some (.object ps) ∧
      mapValues (closeProperty existing) ps = .ok ps' ∧
      n.lookup "properties" = some (.object ps')) ∨
    ((∀ ps, m.lookup "properties" ≠ some (.object ps)) ∧
      n.lookup "properties" = m.lookup "properties")

/-- What `closeObject` makes of an object. -/
structure Closed (m n : Members) : Prop where
  other : ∀ k, k ∉ ["additionalProperties", "properties", "required", "type"] →
    n.lookup k = m.lookup k
  type : ∀ t, m.lookup "type" = some t → n.lookup "type" = some t
  typeNew : m.lookup "type" = none →
    n.lookup "type" = none ∨ ∃ kind, kind ≠ "object" ∧ n.lookup "type" = some (.string kind)
  const : ∀ c, m.lookup "const" = some c → ∃ kind, checkConst m c = .ok kind ∧
    n.lookup "type" = some ((m.lookup "type").getD (.string kind))
  untouched : isObjectSchema m = false →
    ∀ k, k ≠ "type" → n.lookup k = m.lookup k
  shut : isObjectSchema m = true → n.lookup "additionalProperties" = some (.bool false) ∧
    n.lookup "required" = some (.array ((propertyNames m).map .string))
  notOpen : isObjectSchema m = true → isOpen m = false
  properties : ∃ existing, existingRequired m = .ok existing ∧
    (∀ name ∈ existing, name ∈ propertyNames m) ∧ PropertiesClosed existing m n
  sorted : Sorted m → Sorted n

theorem isObjectSchema_iff {m : Members} :
    isObjectSchema m = true ↔ (∃ t, m.lookup "type" = some t ∧ typeNamesObject t = true) ∨
      (m.lookup "properties").isSome = true ∨ (m.lookup "required").isSome = true := by
  unfold isObjectSchema
  rw [Bool.or_eq_true, Bool.or_eq_true, Option.any_eq_true]
  exact or_assoc

theorem isObjectSchema_congr {m n : Members}
    (htype : (n.lookup "type").any typeNamesObject = (m.lookup "type").any typeNamesObject)
    (hother : ∀ k, k ≠ "type" → n.lookup k = m.lookup k) :
    isObjectSchema n = isObjectSchema m := by
  unfold isObjectSchema
  rw [htype, hother "properties" (by decide), hother "required" (by decide)]

/-- What `normalize_native_const_type` makes of an object: at most a type is new. -/
structure Typed (m n : Members) : Prop where
  other : ∀ k, k ≠ "type" → n.lookup k = m.lookup k
  type : ∀ t, m.lookup "type" = some t → n.lookup "type" = some t
  typeNew : m.lookup "type" = none →
    n.lookup "type" = none ∨ ∃ kind, kind ≠ "object" ∧ n.lookup "type" = some (.string kind)
  const : ∀ c, m.lookup "const" = some c → ∃ kind, checkConst m c = .ok kind ∧
    n.lookup "type" = some ((m.lookup "type").getD (.string kind))
  sorted : Sorted m → Sorted n

theorem normalize_typed {m n : Members} (h : normalizeNativeConstType m = .ok n) : Typed m n := by
  obtain ⟨hconst, rfl⟩ | ⟨c, kind, hconst, hcheck, rfl⟩ := normalize_cases h
  · exact {
      other := fun _ _ => rfl
      type := fun _ ht => ht
      typeNew := fun ht => .inl ht
      const := fun c hc => by rw [hconst] at hc; cases hc
      sorted := fun hm => hm }
  · exact {
      other := fun k hk => lookup_insertNew_ne hk _ _
      type := fun t ht => by rw [lookup_insertNew_self, ht]; rfl
      typeNew := fun ht => .inr ⟨kind, kind_ne_object (checkConst_scalar hcheck), by
        rw [lookup_insertNew_self, ht]; rfl⟩
      const := fun c' hc' => by
        rw [hconst] at hc'
        cases hc'
        exact ⟨kind, hcheck, lookup_insertNew_self _ _ _⟩
      sorted := fun hm => sorted_insertNew _ _ hm }

theorem Typed.isObjectSchema {m n : Members} (h : Typed m n) :
    isObjectSchema n = NativeSchema.isObjectSchema m := by
  refine isObjectSchema_congr ?_ h.other
  cases ht : m.lookup "type" with
  | some t => rw [h.type t ht]
  | none =>
      rcases h.typeNew ht with hnone | ⟨kind, hkind, hsome⟩
      · rw [hnone]
      · rw [hsome]
        exact beq_eq_false_iff_ne.mpr hkind

theorem Typed.propertyNames {m n : Members} (h : Typed m n) :
    propertyNames n = NativeSchema.propertyNames m := by
  unfold NativeSchema.propertyNames
  rw [h.other "properties" (by decide)]

theorem Typed.isOpen {m n : Members} (h : Typed m n) : isOpen n = NativeSchema.isOpen m := by
  unfold NativeSchema.isOpen
  rw [h.other "additionalProperties" (by decide)]

theorem Typed.existingRequired {m n : Members} (h : Typed m n) :
    existingRequired n = NativeSchema.existingRequired m := by
  unfold NativeSchema.existingRequired
  rw [h.other "required" (by decide)]

theorem propertiesClosed_of_ok {existing : List String} {m n : Members}
    (h : closeProperties existing (insert "additionalProperties" (.bool false) m) = .ok n) :
    PropertiesClosed existing m n := by
  have hprops : (insert "additionalProperties" (Json.bool false) m).lookup "properties" =
      m.lookup "properties" := lookup_insert_ne (by decide) _ _
  obtain ⟨ps, ps', hps, hps', rfl⟩ | ⟨hnone, rfl⟩ := closeProperties_cases h
  · exact .inl ⟨ps, ps', hprops ▸ hps, hps', lookup_insert_self _ _ _⟩
  · exact .inr ⟨fun ps => hprops ▸ hnone ps, hprops⟩

theorem closeProperties_other {existing : List String} {m n : Members}
    (h : closeProperties existing m = .ok n) {k : String} (hk : k ≠ "properties") :
    n.lookup k = m.lookup k := by
  obtain ⟨ps, ps', -, -, rfl⟩ | ⟨-, rfl⟩ := closeProperties_cases h
  · exact lookup_insert_ne hk _ _
  · rfl

theorem closeProperties_sorted {existing : List String} {m n : Members}
    (h : closeProperties existing m = .ok n) (hm : Sorted m) : Sorted n := by
  obtain ⟨ps, ps', -, -, rfl⟩ | ⟨-, rfl⟩ := closeProperties_cases h
  · exact sorted_insert _ _ hm
  · exact hm

theorem propertiesClosed_refl {m : Members} (hplain : isObjectSchema m = false) :
    existingRequired m = .ok [] ∧ PropertiesClosed [] m m := by
  have hkeys : ¬((m.lookup "properties").isSome = true ∨ (m.lookup "required").isSome = true) := by
    intro hsome
    rw [isObjectSchema_iff.mpr (.inr hsome)] at hplain
    cases hplain
  have hprops := Option.not_isSome_iff_eq_none.mp (fun h => hkeys (.inl h))
  have hreq := Option.not_isSome_iff_eq_none.mp (fun h => hkeys (.inr h))
  constructor
  · unfold existingRequired; rw [hreq]
  · exact .inr ⟨fun ps => by rw [hprops]; exact (Option.some_ne_none _).symm, rfl⟩

/-- **What closing one object does.** -/
theorem closeObject_closed {m n : Members} (h : closeObject m = .ok n) : Closed m n := by
  unfold closeObject at h
  split at h
  · cases h
  · rename_i m₁ hm₁
    have ht := normalize_typed hm₁
    split_ifs at h with hschema
    · -- an object schema: every keyword but three keeps its value
      obtain ⟨existing, closed, hopen, hexisting, hdeclared, hclosed, rfl⟩ :=
        closeObjectSchema_cases h
      have hkeep : ∀ k, k ≠ "additionalProperties" → k ≠ "properties" → k ≠ "required" →
          (insert "required" (Json.array ((propertyNames m₁).map .string)) closed).lookup k =
            m₁.lookup k := by
        intro k h1 h2 h3
        rw [lookup_insert_ne h3, closeProperties_other hclosed h2, lookup_insert_ne h1]
      have htype := hkeep "type" (by decide) (by decide) (by decide)
      exact {
        other := by
          intro k hk
          simp only [List.mem_cons, List.not_mem_nil, or_false, not_or] at hk
          rw [hkeep k hk.1 hk.2.1 hk.2.2.1, ht.other k hk.2.2.2]
        type := fun t h' => htype.trans (ht.type t h')
        typeNew := fun h' => htype ▸ ht.typeNew h'
        const := fun c hc => htype ▸ ht.const c hc
        untouched := fun hm => by rw [← ht.isObjectSchema, hschema] at hm; cases hm
        shut := by
          intro _
          rw [lookup_insert_ne (by decide), closeProperties_other hclosed (by decide),
            lookup_insert_self, lookup_insert_self, ht.propertyNames]
          exact ⟨rfl, rfl⟩
        notOpen := fun _ => ht.isOpen ▸ hopen
        properties := by
          refine ⟨existing, ht.existingRequired ▸ hexisting, ht.propertyNames ▸ hdeclared, ?_⟩
          have hpc := propertiesClosed_of_ok hclosed
          unfold PropertiesClosed at hpc ⊢
          rw [lookup_insert_ne (by decide), ← ht.other "properties" (by decide)]
          exact hpc
        sorted := fun hm =>
          sorted_insert _ _ (closeProperties_sorted hclosed (sorted_insert _ _ (ht.sorted hm))) }
    · cases h
      have hplain : isObjectSchema m = false := by
        rw [← ht.isObjectSchema]
        exact Bool.eq_false_iff.mpr hschema
      exact {
        other := by
          intro k hk
          simp only [List.mem_cons, List.not_mem_nil, or_false, not_or] at hk
          exact ht.other k hk.2.2.2
        type := ht.type
        typeNew := ht.typeNew
        const := ht.const
        untouched := fun _ => ht.other
        shut := fun hm => by rw [hplain] at hm; cases hm
        notOpen := fun hm => by rw [hplain] at hm; cases hm
        properties := by
          obtain ⟨hexisting, hpc⟩ := propertiesClosed_refl hplain
          refine ⟨[], hexisting, fun _ hname => absurd hname List.not_mem_nil, ?_⟩
          unfold PropertiesClosed at hpc ⊢
          rw [ht.other "properties" (by decide)]
          exact hpc
        sorted := ht.sorted }

/-! ## The equations of the walk -/

theorem reach_closeProperty {existing : List String} {name : String} {w u : Json}
    (h : closeProperty existing name w = .ok u) : reach u ≤ reach w + 6 := by
  unfold closeProperty at h
  split_ifs at h
  · cases h; exact Nat.le_add_right _ _
  · exact reach_nullable h

theorem reach_properties {existing : List String} {ps ps' : Members}
    (h : mapValues (closeProperty existing) ps = .ok ps') :
    reach (.object ps') ≤ reach (.object ps) + 6 := by
  have hps : reach (.object ps) = reachMembers ps + 2 := by rw [reach, Nat.add_comm]
  have hall : reach (.object ps') ≤ (reachMembers ps + 6) + 2 := by
    refine reach_object_le_iff.mpr (fun q hq => ?_)
    obtain ⟨p, hp, hkey, hf⟩ := mem_mapValues h hq
    have hp' := reachMembers_le_iff.mp (Nat.le_refl _) p hp
    have hf' := reach_closeProperty hf
    rw [hkey]
    omega
  omega

/-- Every value of a closed object is nearer to the leaves than the object was. -/
theorem reach_closeObject {m n : Members} (h : closeObject m = .ok n) :
    ∀ p ∈ n, reach p.2 < reach (.object m) := by
  have hm : reach (.object m) = reachMembers m + 2 := by rw [reach, Nat.add_comm]
  suffices hle : ∀ p ∈ n, reach p.2 ≤ reachMembers m + 1 by
    intro p hp
    have hp' := hle p hp
    omega
  have hbase : ∀ p ∈ m, reach p.2 ≤ reachMembers m + 1 := by
    intro p hp
    have hp' := reach_member hp
    omega
  have hinsert : ∀ {l : Members} (k : String) (v : Json),
      (∀ p ∈ l, reach p.2 ≤ reachMembers m + 1) → reach v ≤ reachMembers m + 1 →
      ∀ p ∈ insert k v l, reach p.2 ≤ reachMembers m + 1 := by
    intro l k v hl hv p hp
    rcases mem_insert hp with rfl | hp
    · exact hv
    · exact hl p hp
  have hscalar : ∀ v : Json, reach v = 0 → reach v ≤ reachMembers m + 1 := fun v hv => by omega
  unfold closeObject at h
  split at h
  · cases h
  · rename_i m₁ hm₁
    have htyped : ∀ p ∈ m₁, reach p.2 ≤ reachMembers m + 1 := by
      obtain ⟨-, rfl⟩ | ⟨c, kind, -, -, rfl⟩ := normalize_cases hm₁
      · exact hbase
      · intro p hp
        rcases mem_insertNew hp with rfl | hp
        · exact Nat.zero_le _
        · exact hbase p hp
    split_ifs at h
    · obtain ⟨existing, closed, -, -, -, hclosed, rfl⟩ := closeObjectSchema_cases h
      have hshut := hinsert "additionalProperties" (.bool false) htyped (Nat.zero_le _)
      have hreq : reach (.array ((propertyNames m₁).map .string)) ≤ reachMembers m + 1 :=
        Nat.le_trans (reach_strings _) (Nat.le_add_left _ _)
      obtain ⟨ps, ps', hps, hps', rfl⟩ | ⟨-, rfl⟩ := closeProperties_cases hclosed
      · refine hinsert _ _ (hinsert _ _ hshut ?_) hreq
        rw [lookup_insert_ne (by decide), (normalize_typed hm₁).other _ (by decide)] at hps
        have hmember := reach_member (mem_of_lookup hps)
        have hgrown := reach_properties hps'
        simp only [if_true] at hmember
        omega
      · exact hinsert _ _ hshut hreq
    · cases h
      exact htyped

theorem closeToDepth_object {depth : Nat} {m n : Members} (h : closeObject m = .ok n) :
    closeToDepth (depth + 1) (.object m) =
      (mapValues (fun _ child => closeToDepth depth child) n).map .object := by
  simp only [closeToDepth, h]

/-- The walk does not depend on the depth allowed, once it is enough. -/
theorem closeToDepth_eq {d e : Nat} {v : Json} (hd : reach v ≤ d) (he : reach v ≤ e) :
    closeToDepth d v = closeToDepth e v := by
  induction d generalizing e v with
  | zero =>
      cases v with
      | object m => simp only [reach] at hd; omega
      | array items => simp only [reach] at hd; omega
      | _ => cases e <;> rfl
  | succ d ih =>
      cases v with
      | object m =>
          cases e with
          | zero => simp only [reach] at he; omega
          | succ e =>
              cases hn : closeObject m with
              | error err => simp only [closeToDepth, hn]
              | ok n =>
                  have hreach := reach_closeObject hn
                  rw [closeToDepth_object hn, closeToDepth_object hn]
                  refine congrArg _ (mapValues_congr (fun p hp => ?_))
                  have hp' := hreach p hp
                  exact ih (by omega) (by omega)
      | array items =>
          cases e with
          | zero => simp only [reach] at he; omega
          | succ e =>
              simp only [closeToDepth]
              refine congrArg _ (mapM_congr (fun w hw => ?_))
              have hw' := reach_item hw
              exact ih (by omega) (by omega)
      | _ => cases e <;> rfl

/-- The source's recursion at an object. -/
theorem close_object (m : Members) :
    closeNativeObjectSchemas (.object m) =
      match closeObject m with
      | .error e => .error e
      | .ok n => (mapValues (fun _ child => closeNativeObjectSchemas child) n).map .object := by
  have hm : reach (.object m) = (reachMembers m + 1) + 1 := by rw [reach]; omega
  unfold closeNativeObjectSchemas
  rw [hm]
  cases hn : closeObject m with
  | error e => simp only [closeToDepth, hn]
  | ok n =>
      rw [closeToDepth_object hn]
      refine congrArg _ (mapValues_congr (fun p hp => ?_))
      have hp' := reach_closeObject hn p hp
      exact closeToDepth_eq (by omega) (Nat.le_refl _)

/-- The source's recursion at an array. -/
theorem close_array (items : List Json) :
    closeNativeObjectSchemas (.array items) =
      (items.mapM closeNativeObjectSchemas).map .array := by
  have hitems : reach (.array items) = reachItems items + 1 := by rw [reach, Nat.add_comm]
  unfold closeNativeObjectSchemas
  rw [hitems]
  simp only [closeToDepth]
  refine congrArg _ (mapM_congr (fun w hw => ?_))
  have hw' := reach_item hw
  exact closeToDepth_eq (by omega) (Nat.le_refl _)

theorem map_ok_iff {α β ε : Type} {x : Except ε α} {f : α → β} {b : β} :
    x.map f = .ok b ↔ ∃ a, x = .ok a ∧ b = f a := by
  cases x with
  | error e =>
      constructor
      · intro h; cases h
      · intro ⟨a, h, _⟩; cases h
  | ok a =>
      constructor
      · intro h; cases h; exact ⟨a, rfl, rfl⟩
      · intro ⟨a', h, hb⟩; cases h; rw [hb]; rfl

theorem close_object_ok {m : Members} {out : Json} :
    closeNativeObjectSchemas (.object m) = .ok out ↔
      ∃ n m', closeObject m = .ok n ∧
        mapValues (fun _ child => closeNativeObjectSchemas child) n = .ok m' ∧
        out = .object m' := by
  rw [close_object]
  cases hn : closeObject m with
  | error e =>
      constructor
      · intro h; cases h
      · intro ⟨n, m', h, _⟩; cases h
  | ok n =>
      constructor
      · intro h
        obtain ⟨m', hm', hout⟩ := map_ok_iff.mp h
        exact ⟨n, m', rfl, hm', hout⟩
      · intro ⟨n', m', h, hm', hout⟩
        cases h
        exact map_ok_iff.mpr ⟨m', hm', hout⟩

theorem close_array_ok {items : List Json} {out : Json} :
    closeNativeObjectSchemas (.array items) = .ok out ↔
      ∃ items', items.mapM closeNativeObjectSchemas = .ok items' ∧ out = .array items' := by
  rw [close_array]
  exact map_ok_iff

/-! ## Values the walk leaves alone -/

theorem close_scalar {v : Json} (h : v.isScalar = true) : closeNativeObjectSchemas v = .ok v := by
  cases v with
  | array items => cases h
  | object m => cases h
  | _ => rfl

/-- Closing the object changes nothing: a constant is consistent and has its type, an
object schema is closed and requires its properties. -/
structure Settled (m : Members) : Prop where
  const : ∀ c, m.lookup "const" = some c →
    (∃ kind, checkConst m c = .ok kind) ∧ (m.lookup "type").isSome = true
  shut : isObjectSchema m = true → m.lookup "additionalProperties" = some (.bool false) ∧
    m.lookup "required" = some (.array ((propertyNames m).map .string))

theorem mapM_requiredEntry_strings (names : List String) :
    (names.map Json.string).mapM requiredEntry = .ok names := by
  refine mapM_ok_iff.mpr ?_
  induction names with
  | nil => exact .nil
  | cons name names ih => exact .cons rfl ih

theorem existingRequired_of_strings {m : Members} {names : List String}
    (h : m.lookup "required" = some (.array (names.map .string))) :
    existingRequired m = .ok names := by
  unfold existingRequired
  rw [h]
  exact mapM_requiredEntry_strings names

theorem closeProperties_self {m : Members} (hm : Sorted m) :
    closeProperties (propertyNames m) m = .ok m := by
  unfold closeProperties
  split
  · rename_i ps hps
    have hself : mapValues (closeProperty (propertyNames m)) ps = .ok ps := by
      refine mapValues_self (fun p hp => ?_)
      have hname : p.1 ∈ propertyNames m := by
        unfold propertyNames
        rw [hps]
        exact List.mem_map_of_mem hp
      unfold closeProperty
      rw [if_pos hname]
    rw [hself]
    dsimp only
    rw [insert_of_lookup hm hps]
  · rfl

theorem Settled.closeObject {m : Members} (h : Settled m) (hm : Sorted m) :
    closeObject m = .ok m := by
  have hnormal : normalizeNativeConstType m = .ok m := by
    unfold normalizeNativeConstType
    split
    · rfl
    · rename_i c hc
      obtain ⟨⟨kind, hkind⟩, htype⟩ := h.const c hc
      obtain ⟨t, ht⟩ := Option.isSome_iff_exists.mp htype
      rw [hkind]
      dsimp only
      rw [insertNew_of_lookup ht]
  unfold NativeSchema.closeObject
  rw [hnormal]
  dsimp only
  split_ifs with hschema
  · obtain ⟨hadditional, hrequired⟩ := h.shut hschema
    have hopen : isOpen m = false := by unfold isOpen; rw [hadditional]
    have hall : (propertyNames m).any (fun name => !(propertyNames m).contains name) = false := by
      simp
    unfold closeObjectSchema
    rw [hopen, if_neg Bool.false_ne_true, existingRequired_of_strings hrequired]
    dsimp only
    rw [hall, if_neg Bool.false_ne_true, insert_of_lookup hm hadditional, closeProperties_self hm]
    dsimp only
    rw [insert_of_lookup hm hrequired]
  · rfl

/-- Every object in the value is settled. -/
abbrev Quiet : Json → Prop := Json.Everywhere Settled

theorem Quiet.close {v : Json} (h : Quiet v) (hv : v.Ordered) :
    closeNativeObjectSchemas v = .ok v := by
  induction h with
  | scalar hs => exact close_scalar hs
  | array _ ih =>
      exact close_array_ok.mpr ⟨_, mapM_ok_self (fun w hw => ih w hw (hv.items w hw)), rfl⟩
  | object hsettled _ ih =>
      exact close_object_ok.mpr ⟨_, _, hsettled.closeObject hv.here,
        mapValues_self (fun p hp => ih p hp (hv.members p hp)), rfl⟩

/-! ## A walked object is settled -/

theorem asStr_close {v w : Json} (h : closeNativeObjectSchemas v = .ok w) : w.asStr = v.asStr := by
  cases v with
  | array items =>
      obtain ⟨items', -, rfl⟩ := close_array_ok.mp h
      rfl
  | object m =>
      obtain ⟨n, m', -, -, rfl⟩ := close_object_ok.mp h
      rfl
  | _ => cases h; rfl

/-- The strings of an array are those of the array walked. -/
theorem any_asStr_close {items items' : List Json}
    (h : items.mapM closeNativeObjectSchemas = .ok items') (f : Option String → Bool) :
    items'.any (fun v => f v.asStr) = items.any (fun v => f v.asStr) := by
  have hall := mapM_ok_iff.mp h
  clear h
  induction hall with
  | nil => rfl
  | cons hv _ ih => rw [List.any_cons, List.any_cons, asStr_close hv, ih]

theorem any_filterMap_asStr (items : List Json) (f : String → Bool) :
    (items.filterMap Json.asStr).any f = items.any (fun v => v.asStr.any f) := by
  induction items with
  | nil => rfl
  | cons v items ih =>
      rw [List.any_cons, ← ih]
      cases hv : v.asStr with
      | none => rw [List.filterMap_cons_none hv]; rfl
      | some s => rw [List.filterMap_cons_some hv]; rfl

theorem typeNamesObject_close {t t' : Json} (h : closeNativeObjectSchemas t = .ok t') :
    typeNamesObject t' = typeNamesObject t := by
  cases t with
  | array items =>
      obtain ⟨items', hitems, rfl⟩ := close_array_ok.mp h
      exact any_asStr_close hitems (fun s => s == some "object")
  | object m =>
      obtain ⟨n, m', -, -, rfl⟩ := close_object_ok.mp h
      rfl
  | _ => cases h; rfl

theorem nativeTypeIncludes_close {t t' : Json} (h : closeNativeObjectSchemas t = .ok t')
    (kind : String) : nativeTypeIncludes t' kind = nativeTypeIncludes t kind := by
  cases t with
  | array items =>
      obtain ⟨items', hitems, rfl⟩ := close_array_ok.mp h
      simp only [nativeTypeIncludes, any_filterMap_asStr]
      exact any_asStr_close hitems (fun s => s.any (fun k => nativeTypePairIsCompatible k kind))
  | object m =>
      obtain ⟨n, m', -, -, rfl⟩ := close_object_ok.mp h
      rfl
  | _ => cases h; rfl

theorem nativeTypePairIsCompatible_self (kind : String) :
    nativeTypePairIsCompatible kind kind = true := by
  unfold nativeTypePairIsCompatible
  rw [beq_self_eq_true, Bool.true_or]

/-- What a constant is checked against: the enumeration and the type. -/
theorem checkConst_eq_ok_iff {m : Members} {c : Json} {kind : String} :
    checkConst m c = .ok kind ↔ nativeJsonType c = some kind ∧
      validateConstEnumMembership m c = .ok () ∧
      ∀ t, m.lookup "type" = some t → nativeTypeIncludes t kind = true := by
  constructor
  · intro h
    have hkind := checkConst_scalar h
    unfold checkConst at h
    rw [hkind] at h
    dsimp only at h
    cases hv : validateConstEnumMembership m c with
    | error e => rw [hv] at h; cases h
    | ok u =>
        rw [hv] at h
        refine ⟨hkind, rfl, fun t ht => ?_⟩
        rw [ht] at h
        dsimp only at h
        split_ifs at h with hincl
        · exact hincl
        · cases h
  · intro ⟨hkind, hv, ht⟩
    unfold checkConst
    rw [hkind, hv]
    dsimp only
    cases htype : m.lookup "type" with
    | none => rfl
    | some t =>
        dsimp only
        rw [if_pos (ht t htype)]

theorem validateConstEnumMembership_congr {m n : Members} {c : Json}
    (h : n.lookup "enum" = m.lookup "enum") :
    validateConstEnumMembership n c = validateConstEnumMembership m c := by
  unfold validateConstEnumMembership
  rw [h]

theorem Closed.isObjectSchema {m n : Members} (h : Closed m n) :
    isObjectSchema n = NativeSchema.isObjectSchema m := by
  cases hm : NativeSchema.isObjectSchema m with
  | true =>
      refine isObjectSchema_iff.mpr (.inr (.inr ?_))
      rw [(h.shut hm).2]
      rfl
  | false =>
      rw [← hm]
      refine isObjectSchema_congr ?_ (h.untouched hm)
      cases ht : m.lookup "type" with
      | some t => rw [h.type t ht]
      | none =>
          rcases h.typeNew ht with hnone | ⟨kind, hkind, hsome⟩
          · rw [hnone]
          · rw [hsome]
            exact beq_eq_false_iff_ne.mpr hkind

theorem scalar_of_nativeJsonType {c : Json} {kind : String} (h : nativeJsonType c = some kind) :
    c.isScalar = true := by
  cases c with
  | array items => cases h
  | object m => cases h
  | _ => rfl

section Walked

variable {n m' : Members}
  (hw : mapValues (fun _ child => closeNativeObjectSchemas child) n = .ok m')
include hw

theorem walked_isObjectSchema : isObjectSchema m' = isObjectSchema n := by
  have hsome : ∀ k, (m'.lookup k).isSome = (n.lookup k).isSome := by
    intro k
    rcases lookup_mapValues hw k with ⟨h, h'⟩ | ⟨a, b, h, h', -⟩
    · rw [h, h']
    · rw [h, h']; rfl
  have htype : (m'.lookup "type").any typeNamesObject = (n.lookup "type").any typeNamesObject := by
    rcases lookup_mapValues hw "type" with ⟨h, h'⟩ | ⟨a, b, h, h', hab⟩
    · rw [h, h']
    · rw [h, h']
      exact typeNamesObject_close hab
  unfold isObjectSchema
  rw [htype, hsome, hsome]

/-- A value that the walk leaves alone stands where it stood. -/
theorem walked_lookup {k : String} {v : Json} (hv : n.lookup k = some v)
    (hself : closeNativeObjectSchemas v = .ok v) : m'.lookup k = some v := by
  obtain ⟨v', hv', hclose⟩ := mapValues_image hw hv
  rw [hself] at hclose
  cases hclose
  exact hv'

/-- An object that was closed and whose values were walked is settled, when its
enumeration and the names of its properties came through. -/
theorem walked_settled {m : Members} (hc : Closed m n)
    (henum : m'.lookup "enum" = n.lookup "enum") (hnames : propertyNames m' = propertyNames m) :
    Settled m' where
  const c hconst := by
    obtain ⟨c₀, hc₀, hclose⟩ := mapValues_preimage hw hconst
    rw [hc.other "const" (by decide)] at hc₀
    obtain ⟨kind, hcheck, htype⟩ := hc.const c₀ hc₀
    obtain ⟨hkind, hvalid, hincludes⟩ := checkConst_eq_ok_iff.mp hcheck
    rw [close_scalar (scalar_of_nativeJsonType hkind)] at hclose
    cases hclose
    obtain ⟨t', ht', hclose⟩ := mapValues_image hw htype
    have hvalid' : validateConstEnumMembership m' c = .ok () := by
      rw [validateConstEnumMembership_congr (henum.trans (hc.other "enum" (by decide)))]
      exact hvalid
    refine ⟨⟨kind, checkConst_eq_ok_iff.mpr ⟨hkind, hvalid', fun t ht => ?_⟩⟩, by rw [ht']; rfl⟩
    rw [ht'] at ht
    cases ht
    rw [nativeTypeIncludes_close hclose]
    cases htype₀ : m.lookup "type" with
    | none => exact nativeTypePairIsCompatible_self kind
    | some t₀ => exact hincludes t₀ htype₀
  shut hschema := by
    rw [walked_isObjectSchema hw, hc.isObjectSchema] at hschema
    obtain ⟨hadditional, hrequired⟩ := hc.shut hschema
    have hstrings : closeNativeObjectSchemas (.array ((propertyNames m).map .string)) =
        .ok (.array ((propertyNames m).map .string)) :=
      Quiet.close (Json.Everywhere.strings _) (Json.Everywhere.strings _)
    refine ⟨walked_lookup hw hadditional (close_scalar rfl), ?_⟩
    rw [hnames]
    exact walked_lookup hw hrequired hstrings

end Walked

/-- What the walk leaves alone consists of settled objects. -/
theorem quiet_of_close {v : Json} (hv : v.Ordered) (h : closeNativeObjectSchemas v = .ok v) :
    Quiet v := by
  induction hv with
  | scalar hs => exact .scalar hs
  | array _ ih =>
      obtain ⟨items', hitems, heq⟩ := close_array_ok.mp h
      cases heq
      have hall := List.forall₂_same.mp (mapM_ok_iff.mp hitems)
      exact .array (fun w hw => ih w hw (hall w hw))
  | @object m hsorted _ ih =>
      obtain ⟨n, m', hn, hm', heq⟩ := close_object_ok.mp h
      cases heq
      have hclosed := closeObject_closed hn
      have hsettled : Settled m :=
        walked_settled hm' hclosed (hclosed.other "enum" (by decide)).symm rfl
      rw [hsettled.closeObject hsorted] at hn
      cases hn
      exact .object hsettled (fun p hp => ih p hp (mapValues_fixed hm' p hp))

/-! ## The maps stay sorted -/

theorem ordered_insert {k : String} {v : Json} {m : Members} (hm : (Json.object m).Ordered)
    (hv : v.Ordered) : (Json.object (insert k v m)).Ordered := by
  refine .object (sorted_insert k v hm.here) (fun p hp => ?_)
  rcases mem_insert hp with rfl | hp
  · exact hv
  · exact hm.members p hp

theorem ordered_insertNew {k : String} {v : Json} {m : Members} (hm : (Json.object m).Ordered)
    (hv : v.Ordered) : (Json.object (insertNew k v m)).Ordered := by
  unfold insertNew
  split
  · exact hm
  · exact ordered_insert hm hv

theorem ordered_erase {k : String} {m : Members} (hm : (Json.object m).Ordered) :
    (Json.object (erase k m)).Ordered :=
  .object (sorted_erase k hm.here) (fun p hp => hm.members p (mem_of_mem_erase hp))

theorem ordered_lookup {k : String} {v : Json} {m : Members} (hm : (Json.object m).Ordered)
    (hv : m.lookup k = some v) : v.Ordered := hm.members _ (mem_of_lookup hv)

theorem ordered_snoc {items : List Json} {v : Json} (hitems : (Json.array items).Ordered)
    (hv : v.Ordered) : (Json.array (items ++ [v])).Ordered := by
  refine .array (fun w hw => ?_)
  rcases List.mem_append.mp hw with hw | hw
  · exact hitems.items w hw
  · rw [List.mem_singleton.mp hw]; exact hv

theorem ordered_enumWithNull {m : Members} (hm : (Json.object m).Ordered) :
    (Json.object (enumWithNull m)).Ordered := by
  unfold enumWithNull
  split
  · rename_i values henum
    split_ifs
    · exact hm
    · exact ordered_insert hm (ordered_snoc (ordered_lookup hm henum) (.scalar rfl))
  · exact hm

theorem ordered_typeWithNull {t : Json} (ht : t.Ordered) : (typeWithNull t).Ordered := by
  cases t with
  | array types =>
      simp only [typeWithNull]
      split_ifs
      · exact ht
      · exact ordered_snoc ht (.scalar rfl)
  | string s => exact Json.Everywhere.strings [s, "null"]
  | _ => exact ht

theorem ordered_orNull {v : Json} (hv : v.Ordered) : (orNull v).Ordered := by
  have hnull : (Json.object [("type", .string "null")]).Ordered := by
    refine .object (List.pairwise_singleton _ _) (fun p hp => ?_)
    rw [List.mem_singleton.mp hp]
    exact .scalar rfl
  refine .object (List.pairwise_singleton _ _) (fun p hp => ?_)
  rw [List.mem_singleton.mp hp]
  exact .array (List.forall_mem_cons.mpr ⟨hv, List.forall_mem_singleton.mpr hnull⟩)

theorem ordered_constAsEnum {m m' : Members} (h : constAsEnum m = .ok m')
    (hm : (Json.object m).Ordered) : (Json.object m').Ordered := by
  unfold constAsEnum at h
  split at h
  · cases h; exact hm
  · rename_i c hc
    split at h
    · cases h
    · rename_i kind hcheck
      cases h
      have hvalues : (Json.array (c :: (if kind = "null" then [] else [.null]))).Ordered := by
        refine .array (List.forall_mem_cons.mpr ⟨ordered_lookup hm hc, fun w hw => ?_⟩)
        split_ifs at hw
        · cases hw
        · rw [List.mem_singleton.mp hw]; exact .scalar rfl
      exact ordered_insert
        (ordered_erase (ordered_insertNew (ordered_erase hm) (.scalar rfl))) hvalues

theorem ordered_objectOrNull {m : Members} (hm : (Json.object m).Ordered) :
    (objectOrNull m).Ordered := by
  unfold objectOrNull
  split
  · rename_i t ht
    split_ifs
    · exact ordered_enumWithNull hm
    · exact hm
    · exact ordered_enumWithNull
        (ordered_insert hm (ordered_typeWithNull (ordered_lookup hm ht)))
  · split_ifs
    · exact hm
    · exact ordered_orNull hm

theorem ordered_nullable {w u : Json} (h : makeNativePropertyNullable w = .ok u)
    (hw : w.Ordered) : u.Ordered := by
  cases w with
  | object m =>
      obtain ⟨m', hm', rfl⟩ := map_ok_iff.mp h
      exact ordered_objectOrNull (ordered_constAsEnum hm' hw)
  | _ => cases h; exact ordered_orNull hw

theorem ordered_closeObject {m n : Members} (h : closeObject m = .ok n)
    (hm : (Json.object m).Ordered) : (Json.object n).Ordered := by
  unfold closeObject at h
  split at h
  · cases h
  · rename_i m₁ hm₁
    have htyped : (Json.object m₁).Ordered := by
      obtain ⟨-, rfl⟩ | ⟨c, kind, -, -, rfl⟩ := normalize_cases hm₁
      · exact hm
      · exact ordered_insertNew hm (.scalar rfl)
    split_ifs at h
    · obtain ⟨existing, closed, -, -, -, hclosed, rfl⟩ := closeObjectSchema_cases h
      have hshut := ordered_insert (k := "additionalProperties") (v := .bool false) htyped
        (.scalar rfl)
      refine ordered_insert ?_ (Json.Everywhere.strings _)
      obtain ⟨ps, ps', hps, hps', rfl⟩ | ⟨-, rfl⟩ := closeProperties_cases hclosed
      · have hordered := ordered_lookup hshut hps
        refine ordered_insert hshut (.object (sorted_mapValues hps' hordered.here) ?_)
        intro q hq
        obtain ⟨p, hp, -, hf⟩ := mem_mapValues hps' hq
        unfold closeProperty at hf
        split_ifs at hf
        · rw [← Except.ok.inj hf]; exact hordered.members p hp
        · exact ordered_nullable hf (hordered.members p hp)
      · exact hshut
    · cases h
      exact htyped

theorem ordered_close {v out : Json} (h : closeNativeObjectSchemas v = .ok out)
    (hv : v.Ordered) : out.Ordered := by
  induction hr : reach v using Nat.strongRecOn generalizing v out with
  | ind r ih =>
      subst hr
      cases v with
      | array items =>
          obtain ⟨items', hitems, rfl⟩ := close_array_ok.mp h
          refine .array (fun w' hw' => ?_)
          obtain ⟨w, hw, hclose⟩ := mem_mapM hitems hw'
          exact ih _ (reach_item hw) hclose (hv.items w hw) rfl
      | object m =>
          obtain ⟨n, m', hn, hm', rfl⟩ := close_object_ok.mp h
          have hordered := ordered_closeObject hn hv
          refine .object (sorted_mapValues hm' hordered.here) (fun q hq => ?_)
          obtain ⟨p, hp, -, hclose⟩ := mem_mapValues hm' hq
          exact ih _ (reach_closeObject hn p hp) hclose (hordered.members p hp) rfl
      | _ => cases h; exact hv

end NativeSchema

end Vergerail
