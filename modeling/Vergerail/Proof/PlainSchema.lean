import Vergerail.Proof.SchemaWalk

/-!
# Plain schemas

What the output schema should be, read by position: the root, the values of a map of
properties and whatever else stands under a keyword are schemas; a map of properties is
not one, and what stands under `enum`, `const` and `default` is data. `Strict` relates a
schema to its strict form this way.

The walk visits the maps of properties and the data as if they were schemas. `Plain` says
that it finds nothing there: no property is called `const`, `properties` or `required`,
and the objects of the data are settled already. What the walk makes of a plain schema is
plain again.
-/

namespace Vergerail

open Lib.SortedMap

namespace Json

def isObject : Json → Bool
  | object _ => true
  | _ => false

end Json

namespace NativeSchema

/-- What stands under the keyword is neither data nor a map of properties. -/
def SchemaKey (k : String) (w : Json) : Prop :=
  k ∉ ["const", "default", "enum"] ∧ (k = "properties" → w.isObject = false)

/-- A JSON Schema is an object or a truth value. -/
def isSchema : Json → Bool
  | .object _ => true
  | .bool _ => true
  | _ => false

/-- Every schema of the value, by position, passes the checks of `closeObject`, and the
properties it declares are schemas. -/
inductive Admissible : Json → Prop
  | scalar {v : Json} : v.isScalar = true → Admissible v
  | array {items : List Json} : (∀ w ∈ items, Admissible w) → Admissible (.array items)
  | object {m n : Members} : closeObject m = .ok n →
      (∀ k w, n.lookup k = some w → SchemaKey k w → Admissible w) →
      (∀ ps name w, n.lookup "properties" = some (.object ps) → ps.lookup name = some w →
        isSchema w = true) →
      (∀ ps name w, n.lookup "properties" = some (.object ps) → ps.lookup name = some w →
        Admissible w) →
      Admissible (.object m)

/-- The strict form of a schema, by position. -/
inductive Strict : Json → Json → Prop
  | scalar {v : Json} : v.isScalar = true → Strict v v
  | array {items items' : List Json} : items'.length = items.length →
      (∀ (i : Nat) (w w' : Json), items[i]? = some w → items'[i]? = some w' → Strict w w') →
      Strict (.array items) (.array items')
  | object {m m' : Members} :
      -- no keyword comes or goes beside those of the strict form and a constant's type
      (∀ k, k ∉ ["additionalProperties", "required", "type"] →
        (m'.lookup k).isSome = (m.lookup k).isSome) →
      isObjectSchema m' = isObjectSchema m →
      (isObjectSchema m' = true →
        m'.lookup "additionalProperties" = some (.bool false) ∧
        m'.lookup "required" = some (.array ((propertyNames m').map .string)) ∧
        (propertyNames m').Nodup) →
      propertyNames m' = propertyNames m →
      (∀ k ∈ ["const", "default", "enum"], m'.lookup k = m.lookup k) →
      -- a property that is not required is nullable
      (∀ ps ps' existing name w w' u, m.lookup "properties" = some (.object ps) →
        m'.lookup "properties" = some (.object ps') → existingRequired m = .ok existing →
        ps.lookup name = some w → ps'.lookup name = some w' →
        closeProperty existing name w = .ok u → Strict u w') →
      (∀ k w w', (isObjectSchema m = true → k ∉ ["additionalProperties", "required"]) →
        m.lookup k = some w → m'.lookup k = some w' → SchemaKey k w → Strict w w') →
      Strict (.object m) (.object m')

/-- The names of the properties are no keywords to the walk. -/
def NamesInert (m : Members) : Prop :=
  ∀ ps existing, m.lookup "properties" = some (.object ps) → existingRequired m = .ok existing →
    (∀ name ∈ ["const", "properties", "required"], name ∉ keys ps) ∧
    ("type" ∈ existing → (ps.lookup "type").any typeNamesObject = false)

/-- The data of the schema is settled. The enumeration of an optional constant is not
kept. -/
def DataQuiet (optional : Bool) (m : Members) : Prop :=
  (∀ w, m.lookup "default" = some w → Quiet w) ∧
  (∀ w, m.lookup "enum" = some w →
    (optional = true ∧ (m.lookup "const").isSome = true) ∨ Quiet w)

/-- The walk finds schemas only where schemas stand. `optional` is for the schema of a
property that is not required. -/
inductive Plain : Bool → Json → Prop
  | scalar {optional : Bool} {v : Json} : v.isScalar = true → Plain optional v
  | array {optional : Bool} {items : List Json} :
      (∀ w ∈ items, Plain false w) → Plain optional (.array items)
  | object {optional : Bool} {m : Members} : NamesInert m → DataQuiet optional m →
      (∀ ps existing name w, m.lookup "properties" = some (.object ps) →
        existingRequired m = .ok existing → ps.lookup name = some w →
        Plain (decide (name ∉ existing)) w) →
      (∀ k w, m.lookup k = some w → SchemaKey k w → Plain false w) →
      Plain optional (.object m)

/-! ## Reading a schema by position -/

theorem Plain.names {optional : Bool} {m : Members} (h : Plain optional (.object m)) :
    NamesInert m := by
  cases h with
  | scalar hs => cases hs
  | object hnames _ _ _ => exact hnames

theorem Plain.data {optional : Bool} {m : Members} (h : Plain optional (.object m)) :
    DataQuiet optional m := by
  cases h with
  | scalar hs => cases hs
  | object _ hdata _ _ => exact hdata

theorem Plain.property {optional : Bool} {m ps : Members} {existing : List String}
    {name : String} {w : Json} (h : Plain optional (.object m))
    (hps : m.lookup "properties" = some (.object ps)) (he : existingRequired m = .ok existing)
    (hw : ps.lookup name = some w) : Plain (decide (name ∉ existing)) w := by
  cases h with
  | scalar hs => cases hs
  | object _ _ hproperty _ => exact hproperty ps existing name w hps he hw

theorem Plain.child {optional : Bool} {m : Members} {k : String} {w : Json}
    (h : Plain optional (.object m)) (hw : m.lookup k = some w) (hk : SchemaKey k w) :
    Plain false w := by
  cases h with
  | scalar hs => cases hs
  | object _ _ _ hchild => exact hchild k w hw hk

theorem Plain.items {optional : Bool} {items : List Json} (h : Plain optional (.array items)) :
    ∀ w ∈ items, Plain false w := by
  cases h with
  | scalar hs => cases hs
  | array hitems => exact hitems

theorem Plain.strings (names : List String) : Plain false (.array (names.map .string)) := by
  refine .array (fun w hw => ?_)
  obtain ⟨name, -, rfl⟩ := List.mem_map.mp hw
  exact .scalar rfl

theorem Admissible.items {items : List Json} (h : Admissible (.array items)) :
    ∀ w ∈ items, Admissible w := by
  cases h with
  | scalar hs => cases hs
  | array hitems => exact hitems

/-! ## A property that becomes nullable -/

/-- What `Plain` reads of a schema. -/
theorem plain_congr {a b : Bool} {m n : Members} (h : Plain a (.object m))
    (hproperties : n.lookup "properties" = m.lookup "properties")
    (hrequired : n.lookup "required" = m.lookup "required")
    (hdata : DataQuiet a m → DataQuiet b n)
    (hchild : ∀ k w, n.lookup k = some w → SchemaKey k w → k ≠ "properties" → k ≠ "required" →
      m.lookup k = some w ∨ Plain false w) :
    Plain b (.object n) := by
  have hexisting : existingRequired n = existingRequired m := by
    unfold existingRequired
    rw [hrequired]
  refine .object ?_ (hdata h.data) ?_ ?_
  · intro ps existing hps he
    exact h.names ps existing (hproperties ▸ hps) (hexisting ▸ he)
  · intro ps existing name w hps he hw
    exact h.property (hproperties ▸ hps) (hexisting ▸ he) hw
  · intro k w hw hk
    by_cases hprops : k = "properties"
    · subst hprops
      exact h.child (hproperties ▸ hw) hk
    · by_cases hreq : k = "required"
      · subst hreq
        exact h.child (hrequired ▸ hw) hk
      · rcases hchild k w hw hk hprops hreq with hm | hplain
        · exact h.child hm hk
        · exact hplain

theorem quiet_snoc_iff {values : List Json} :
    Quiet (.array (values ++ [.null])) ↔ Quiet (.array values) := by
  constructor
  · intro h
    exact .array (fun w hw => h.items w (List.mem_append_left _ hw))
  · intro h
    refine .array (fun w hw => ?_)
    rcases List.mem_append.mp hw with hw | hw
    · exact h.items w hw
    · rw [List.mem_singleton.mp hw]; exact .scalar rfl

theorem enumWithNull_ne {m : Members} {k : String} (hk : k ≠ "enum") :
    (enumWithNull m).lookup k = m.lookup k := by
  unfold enumWithNull
  split
  · split_ifs
    · rfl
    · exact lookup_insert_ne hk _ _
  · rfl

theorem enumWithNull_enum (m : Members) :
    (enumWithNull m).lookup "enum" = m.lookup "enum" ∨
      ∃ values, m.lookup "enum" = some (.array values) ∧
        (enumWithNull m).lookup "enum" = some (.array (values ++ [.null])) := by
  unfold enumWithNull
  split
  · rename_i values henum
    split_ifs
    · exact .inl rfl
    · exact .inr ⟨values, henum, lookup_insert_self _ _ _⟩
  · exact .inl rfl

/-- Unless the schema is that of an optional constant, all of its data counts. -/
theorem dataQuiet_iff {optional : Bool} {m : Members}
    (h : ¬(optional = true ∧ (m.lookup "const").isSome = true)) :
    DataQuiet optional m ↔ (∀ w, m.lookup "default" = some w → Quiet w) ∧
      (∀ w, m.lookup "enum" = some w → Quiet w) := by
  unfold DataQuiet
  simp only [h, false_or]

theorem dataQuiet_false_iff {m : Members} :
    DataQuiet false m ↔ (∀ w, m.lookup "default" = some w → Quiet w) ∧
      (∀ w, m.lookup "enum" = some w → Quiet w) :=
  dataQuiet_iff (fun h => Bool.false_ne_true h.1)

theorem dataQuiet_enumWithNull_iff {m : Members} :
    DataQuiet false (enumWithNull m) ↔ DataQuiet false m := by
  have hdefault : (enumWithNull m).lookup "default" = m.lookup "default" :=
    enumWithNull_ne (by decide)
  have henum : (∀ w, (enumWithNull m).lookup "enum" = some w → Quiet w) ↔
      ∀ w, m.lookup "enum" = some w → Quiet w := by
    rcases enumWithNull_enum m with hsame | ⟨values, hold, hnew⟩
    · rw [hsame]
    · rw [hold, hnew]
      constructor
      · intro h w hw; cases hw; exact quiet_snoc_iff.mp (h _ rfl)
      · intro h w hw; cases hw; exact quiet_snoc_iff.mpr (h _ rfl)
  rw [dataQuiet_false_iff, dataQuiet_false_iff, hdefault, henum]

theorem schemaKey_ne_enum {k : String} {w : Json} (h : SchemaKey k w) : k ≠ "enum" := by
  rintro rfl
  exact h.1 (by decide)

theorem schemaKey_ne_const {k : String} {w : Json} (h : SchemaKey k w) : k ≠ "const" := by
  rintro rfl
  exact h.1 (by decide)

theorem plain_enumWithNull_iff {m : Members} :
    Plain false (.object (enumWithNull m)) ↔ Plain false (.object m) := by
  constructor
  · intro h
    refine plain_congr h (enumWithNull_ne (by decide)).symm (enumWithNull_ne (by decide)).symm
      dataQuiet_enumWithNull_iff.mp (fun k w hw hk _ _ => .inl ?_)
    rw [enumWithNull_ne (schemaKey_ne_enum hk)]
    exact hw
  · intro h
    refine plain_congr h (enumWithNull_ne (by decide)) (enumWithNull_ne (by decide))
      dataQuiet_enumWithNull_iff.mpr (fun k w hw hk _ _ => .inl ?_)
    rw [← enumWithNull_ne (schemaKey_ne_enum hk)]
    exact hw

theorem plain_snoc_iff {items : List Json} {v : Json} (hv : Plain false v) :
    Plain false (.array (items ++ [v])) ↔ Plain false (.array items) := by
  constructor
  · intro h
    exact .array (fun w hw => h.items w (List.mem_append_left _ hw))
  · intro h
    refine .array (fun w hw => ?_)
    rcases List.mem_append.mp hw with hw | hw
    · exact h.items w hw
    · rw [List.mem_singleton.mp hw]; exact hv

theorem plain_typeWithNull_iff {t : Json} : Plain false (typeWithNull t) ↔ Plain false t := by
  cases t with
  | string s => exact ⟨fun _ => .scalar rfl, fun _ => Plain.strings [s, "null"]⟩
  | array types =>
      simp only [typeWithNull]
      split_ifs
      · exact Iff.rfl
      · exact plain_snoc_iff (.scalar rfl)
  | _ => exact Iff.rfl

theorem schemaKey_type (w : Json) : SchemaKey "type" w :=
  ⟨by decide, fun h => absurd h (by decide)⟩

theorem dataQuiet_insert_type {m : Members} {t : Json} :
    DataQuiet false (insert "type" t m) ↔ DataQuiet false m := by
  rw [dataQuiet_false_iff, dataQuiet_false_iff, lookup_insert_ne (by decide),
    lookup_insert_ne (by decide)]

theorem plain_insert_type_iff {m : Members} {t t' : Json} (ht : m.lookup "type" = some t)
    (hiff : Plain false t' ↔ Plain false t) :
    Plain false (.object (insert "type" t' m)) ↔ Plain false (.object m) := by
  constructor
  · intro h
    refine plain_congr h (lookup_insert_ne (by decide) _ _).symm
      (lookup_insert_ne (by decide) _ _).symm dataQuiet_insert_type.mp (fun k w hw hk _ _ => ?_)
    by_cases htype : k = "type"
    · subst htype
      rw [ht] at hw
      cases hw
      exact .inr (hiff.mp (h.child (lookup_insert_self _ _ _) (schemaKey_type _)))
    · rw [lookup_insert_ne htype]
      exact .inl hw
  · intro h
    refine plain_congr h (lookup_insert_ne (by decide) _ _)
      (lookup_insert_ne (by decide) _ _) dataQuiet_insert_type.mpr (fun k w hw hk _ _ => ?_)
    by_cases htype : k = "type"
    · subst htype
      rw [lookup_insert_self] at hw
      cases hw
      exact .inr (hiff.mpr (h.child ht (schemaKey_type _)))
    · rw [lookup_insert_ne htype] at hw
      exact .inl hw

/-- An object without data and properties is plain if its values are. -/
theorem plain_of_values {optional : Bool} {m : Members}
    (hkeys : ∀ k ∈ ["properties", "default", "enum"], k ∉ keys m)
    (h : ∀ p ∈ m, Plain false p.2) : Plain optional (.object m) := by
  have hnone : ∀ k ∈ ["properties", "default", "enum"], m.lookup k = none :=
    fun k hk => lookup_eq_none_of_not_mem (hkeys k hk)
  refine .object ?_ ⟨?_, ?_⟩ ?_ (fun k w hw _ => h _ (mem_of_lookup hw))
  · intro ps existing hps
    rw [hnone _ (by decide)] at hps
    cases hps
  · intro w hw
    rw [hnone _ (by decide)] at hw
    cases hw
  · intro w hw
    rw [hnone _ (by decide)] at hw
    cases hw
  · intro ps existing name w hps
    rw [hnone _ (by decide)] at hps
    cases hps

theorem plain_orNull_iff {v : Json} : Plain false (orNull v) ↔ Plain false v := by
  have hanyOf : ∀ w, SchemaKey "anyOf" w := fun w => ⟨by decide, fun h => absurd h (by decide)⟩
  constructor
  · intro h
    exact (h.child (lookup_cons_self _ _ _) (hanyOf _)).items v List.mem_cons_self
  · intro h
    have hnull : Plain false (.object [("type", .string "null")]) :=
      plain_of_values (by decide) (List.forall_mem_singleton.mpr (.scalar rfl))
    have hvariants : Plain false (.array [v, .object [("type", .string "null")]]) :=
      .array (List.forall_mem_cons.mpr ⟨h, List.forall_mem_singleton.mpr hnull⟩)
    exact plain_of_values (by simp [keys]) (List.forall_mem_singleton.mpr hvariants)

theorem plain_objectOrNull_iff {m : Members} :
    Plain false (objectOrNull m) ↔ Plain false (.object m) := by
  unfold objectOrNull
  split
  · rename_i t ht
    split_ifs
    · exact plain_enumWithNull_iff
    · exact Iff.rfl
    · exact plain_enumWithNull_iff.trans (plain_insert_type_iff ht plain_typeWithNull_iff)
  · split_ifs
    · exact Iff.rfl
    · exact plain_orNull_iff

/-- What becomes of the keywords of an optional constant. -/
theorem constAsEnum_cases {m m' : Members} (h : constAsEnum m = .ok m') :
    (m.lookup "const" = none ∧ m' = m) ∨
      ∃ c kind, m.lookup "const" = some c ∧ nativeJsonType c = some kind ∧
        m'.lookup "const" = none ∧
        m'.lookup "enum" = some (.array (c :: (if kind = "null" then [] else [.null]))) ∧
        m'.lookup "type" = some ((m.lookup "type").getD (.string kind)) ∧
        ∀ k, k ∉ ["const", "enum", "type"] → m'.lookup k = m.lookup k := by
  unfold constAsEnum at h
  split at h
  · rename_i hc
    cases h
    exact .inl ⟨hc, rfl⟩
  · rename_i c hc
    split at h
    · cases h
    · rename_i kind hcheck
      cases h
      refine .inr ⟨c, kind, hc, checkConst_scalar hcheck, ?_, lookup_insert_self _ _ _, ?_, ?_⟩
      · rw [lookup_insert_ne (by decide), lookup_erase_ne (by decide),
          lookup_insertNew_ne (by decide), lookup_erase_self]
      · rw [lookup_insert_ne (by decide), lookup_erase_ne (by decide), lookup_insertNew_self,
          lookup_erase_ne (by decide)]
      · intro k hk
        simp only [List.mem_cons, List.not_mem_nil, or_false, not_or] at hk
        rw [lookup_insert_ne hk.2.1, lookup_erase_ne hk.2.1, lookup_insertNew_ne hk.2.2,
          lookup_erase_ne hk.1]

theorem plain_constAsEnum_iff {m m' : Members} (h : constAsEnum m = .ok m') :
    Plain false (.object m') ↔ Plain true (.object m) := by
  obtain ⟨hconst, rfl⟩ | ⟨c, kind, hconst, hkind, hconst', henum, htype, hother⟩ :=
    constAsEnum_cases h
  · have hdata : DataQuiet false m' ↔ DataQuiet true m' := by
      rw [dataQuiet_false_iff, dataQuiet_iff (by rw [hconst]; exact fun h => Bool.false_ne_true h.2)]
    constructor
    · intro hplain
      exact plain_congr hplain rfl rfl hdata.mp (fun k w hw _ _ _ => .inl hw)
    · intro hplain
      exact plain_congr hplain rfl rfl hdata.mpr (fun k w hw _ _ _ => .inl hw)
  · have hdefault : m'.lookup "default" = m.lookup "default" := hother _ (by decide)
    have hsome : (m.lookup "const").isSome = true := by rw [hconst]; rfl
    constructor
    · intro hplain
      refine plain_congr hplain (hother _ (by decide)).symm (hother _ (by decide)).symm ?_ ?_
      · intro hdata
        exact ⟨fun w hw => hdata.1 w (hdefault ▸ hw), fun w _ => .inl ⟨rfl, hsome⟩⟩
      · intro k w hw hk _ _
        by_cases ht : k = "type"
        · subst ht
          rw [hw] at htype
          exact .inl htype
        · refine .inl ((hother k ?_).trans hw)
          simp only [List.mem_cons, List.not_mem_nil, or_false, not_or]
          exact ⟨schemaKey_ne_const hk, schemaKey_ne_enum hk, ht⟩
    · intro hplain
      refine plain_congr hplain (hother _ (by decide)) (hother _ (by decide)) ?_ ?_
      · intro hdata
        refine ⟨fun w hw => hdata.1 w (hdefault ▸ hw), fun w hw => .inr ?_⟩
        rw [henum] at hw
        cases hw
        refine .array (List.forall_mem_cons.mpr
          ⟨.scalar (scalar_of_nativeJsonType hkind), fun w hw => ?_⟩)
        split_ifs at hw
        · cases hw
        · rw [List.mem_singleton.mp hw]; exact .scalar rfl
      · intro k w hw hk _ _
        by_cases ht : k = "type"
        · subst ht
          rw [htype] at hw
          cases htype' : m.lookup "type" with
          | none => rw [htype'] at hw; cases hw; exact .inr (.scalar rfl)
          | some t => rw [htype'] at hw; exact .inl hw
        · refine .inl ((hother k ?_).symm.trans hw)
          simp only [List.mem_cons, List.not_mem_nil, or_false, not_or]
          exact ⟨schemaKey_ne_const hk, schemaKey_ne_enum hk, ht⟩

/-- A property that becomes nullable stays plain, and was. -/
theorem plain_nullable_iff {w u : Json} (h : makeNativePropertyNullable w = .ok u) :
    Plain false u ↔ Plain true w := by
  cases w with
  | object m =>
      obtain ⟨m', hm', rfl⟩ := map_ok_iff.mp h
      exact plain_objectOrNull_iff.trans (plain_constAsEnum_iff hm')
  | array items =>
      cases h
      exact plain_orNull_iff.trans ⟨fun hp => .array hp.items, fun hp => .array hp.items⟩
  | _ =>
      cases h
      exact plain_orNull_iff.trans ⟨fun _ => .scalar rfl, fun _ => .scalar rfl⟩

theorem plain_closeProperty_iff {existing : List String} {name : String} {w u : Json}
    (h : closeProperty existing name w = .ok u) :
    Plain false u ↔ Plain (decide (name ∉ existing)) w := by
  unfold closeProperty at h
  split_ifs at h with hname
  · cases h
    rw [decide_eq_false (not_not_intro hname)]
  · rw [decide_eq_true hname]
    exact plain_nullable_iff h

/-! ## A plain schema, closed -/

theorem nullable_isObject {w u : Json} (h : makeNativePropertyNullable w = .ok u) :
    ∃ m, u = .object m := by
  cases w with
  | object m =>
      obtain ⟨m', -, rfl⟩ := map_ok_iff.mp h
      unfold objectOrNull
      split
      · split_ifs
        · exact ⟨_, rfl⟩
        · exact ⟨_, rfl⟩
        · exact ⟨_, rfl⟩
      · split_ifs
        · exact ⟨_, rfl⟩
        · exact ⟨_, rfl⟩
  | _ => cases h; exact ⟨_, rfl⟩

/-- The walk leaves the object alone and only visits its values. -/
def NoKeywords (m : Members) : Prop := m.lookup "const" = none ∧ isObjectSchema m = false

theorem NoKeywords.settled {m : Members} (h : NoKeywords m) : Settled m where
  const c hc := by rw [h.1] at hc; cases hc
  shut hschema := by rw [h.2] at hschema; cases hschema

theorem walked_noKeywords {n m' : Members}
    (hw : mapValues (fun _ child => closeNativeObjectSchemas child) n = .ok m')
    (h : NoKeywords n) : NoKeywords m' := by
  refine ⟨?_, (walked_isObjectSchema hw).trans h.2⟩
  rcases lookup_mapValues hw "const" with ⟨-, hnone⟩ | ⟨c, c', hc, -, -⟩
  · exact hnone
  · rw [h.1] at hc; cases hc

theorem names_noKeywords {m ps ps' : Members} {existing : List String} (h : NamesInert m)
    (hps : m.lookup "properties" = some (.object ps)) (he : existingRequired m = .ok existing)
    (hmap : mapValues (closeProperty existing) ps = .ok ps') : NoKeywords ps' := by
  obtain ⟨hnames, htype⟩ := h ps existing hps he
  have hkeys := keys_mapValues hmap
  have habsent : ∀ name ∈ ["const", "properties", "required"], ps'.lookup name = none := by
    intro name hname
    exact lookup_eq_none_of_not_mem (hkeys ▸ hnames name hname)
  have htype' : (ps'.lookup "type").any typeNamesObject = false := by
    rcases lookup_mapValues hmap "type" with ⟨-, hnone⟩ | ⟨t, t', ht, ht', hclose⟩
    · rw [hnone]; rfl
    · rw [ht']
      unfold closeProperty at hclose
      split_ifs at hclose with hreq
      · cases hclose
        have hinert := htype hreq
        rw [ht] at hinert
        exact hinert
      · obtain ⟨u, rfl⟩ := nullable_isObject hclose
        rfl
  refine ⟨habsent "const" (by decide), ?_⟩
  unfold isObjectSchema
  rw [htype', habsent "properties" (by decide), habsent "required" (by decide)]
  rfl

/-- A schema stands where it stood, unless the strict form has a value of its own. -/
theorem closed_lookup {m n : Members} (hc : Closed m n) {k : String} {w : Json}
    (hkey : isObjectSchema m = true → k ∉ ["additionalProperties", "required"])
    (hl : m.lookup k = some w) (hk : SchemaKey k w) : n.lookup k = some w := by
  by_cases htype : k = "type"
  · subst htype
    exact hc.type w hl
  · cases hschema : isObjectSchema m with
    | false => rw [hc.untouched hschema k htype]; exact hl
    | true =>
        by_cases hprops : k = "properties"
        · subst hprops
          obtain ⟨existing, -, -, hpc⟩ := hc.properties
          rcases hpc with ⟨ps, ps', hps, -, -⟩ | ⟨-, hsame⟩
          · rw [hl] at hps
            cases hps
            have hobject := hk.2 rfl
            cases hobject
          · rw [hsame]; exact hl
        · have hkey' := hkey hschema
          rw [hc.other k ?_]
          · exact hl
          · simp only [List.mem_cons, List.not_mem_nil, or_false, not_or] at hkey' ⊢
            exact ⟨hkey'.1, hprops, hkey'.2, htype⟩

/-- What the walk meets under a closed schema: maps of properties without keywords,
settled data, and plain schemas. -/
structure PlainChildren (n : Members) : Prop where
  names : ∀ ps, n.lookup "properties" = some (.object ps) → NoKeywords ps
  property : ∀ ps name w, n.lookup "properties" = some (.object ps) → ps.lookup name = some w →
    Plain false w
  data : ∀ k ∈ ["const", "default", "enum"], ∀ w, n.lookup k = some w → Quiet w
  child : ∀ k w, n.lookup k = some w → SchemaKey k w → Plain false w

theorem closed_plain {m n : Members} (hc : Closed m n) (h : Plain false (.object m)) :
    PlainChildren n := by
  obtain ⟨existing, he, -, hpc⟩ := hc.properties
  exact {
    names := by
      intro ps' hps'
      rcases hpc with ⟨ps, qs, hps, hmap, hqs⟩ | ⟨hnone, hsame⟩
      · rw [hqs] at hps'
        cases hps'
        exact names_noKeywords h.names hps he hmap
      · rw [hsame] at hps'
        exact absurd hps' (hnone ps')
    property := by
      intro ps' name u hps' hu
      rcases hpc with ⟨ps, qs, hps, hmap, hqs⟩ | ⟨hnone, hsame⟩
      · rw [hqs] at hps'
        cases hps'
        obtain ⟨w, hw, hclose⟩ := mapValues_preimage hmap hu
        exact (plain_closeProperty_iff hclose).mpr (h.property hps he hw)
      · rw [hsame] at hps'
        exact absurd hps' (hnone ps')
    data := by
      intro k hk w hw
      simp only [List.mem_cons, List.not_mem_nil, or_false] at hk
      obtain ⟨hdefault, henum⟩ := dataQuiet_false_iff.mp h.data
      rcases hk with rfl | rfl | rfl
      · rw [hc.other _ (by decide)] at hw
        obtain ⟨kind, hcheck, -⟩ := hc.const w hw
        exact .scalar (scalar_of_nativeJsonType (checkConst_scalar hcheck))
      · rw [hc.other _ (by decide)] at hw
        exact hdefault w hw
      · rw [hc.other _ (by decide)] at hw
        exact henum w hw
    child := by
      intro k w hw hk
      by_cases hkey : k ∈ ["additionalProperties", "properties", "required", "type"]
      · by_cases htype : k = "type"
        · subst htype
          cases ht : m.lookup "type" with
          | some t =>
              rw [hc.type t ht] at hw
              cases hw
              exact h.child ht hk
          | none =>
              rcases hc.typeNew ht with hnone | ⟨kind, -, hsome⟩
              · rw [hnone] at hw; cases hw
              · rw [hsome] at hw; cases hw; exact .scalar rfl
        · cases hschema : isObjectSchema m with
          | false =>
              rw [hc.untouched hschema k htype] at hw
              exact h.child hw hk
          | true =>
              obtain ⟨hadditional, hrequired⟩ := hc.shut hschema
              simp only [List.mem_cons, List.not_mem_nil, or_false] at hkey
              rcases hkey with rfl | rfl | rfl | rfl
              · rw [hadditional] at hw; cases hw; exact .scalar rfl
              · rcases hpc with ⟨ps, qs, hps, hmap, hqs⟩ | ⟨-, hsame⟩
                · rw [hqs] at hw
                  cases hw
                  have hobject := hk.2 rfl
                  cases hobject
                · rw [hsame] at hw
                  exact h.child hw hk
              · rw [hrequired] at hw; cases hw; exact Plain.strings _
              · exact absurd rfl htype
      · rw [hc.other k hkey] at hw
        exact h.child hw hk }

theorem propertyNames_of_none {m : Members}
    (h : ∀ ps, m.lookup "properties" ≠ some (.object ps)) : propertyNames m = [] := by
  unfold propertyNames
  split
  · rename_i ps hps
    exact absurd hps (h ps)
  · rfl

/-- Closing an object does not write its data. -/
theorem data_not_strict : ∀ k ∈ ["const", "default", "enum"],
    k ∉ ["additionalProperties", "properties", "required", "type"] := by decide

theorem key_cases (k : String) (w : Json) :
    k ∈ ["const", "default", "enum"] ∨ (k = "properties" ∧ ∃ ps, w = .object ps) ∨
      SchemaKey k w := by
  by_cases hdata : k ∈ ["const", "default", "enum"]
  · exact .inl hdata
  · by_cases hprops : k = "properties" ∧ ∃ ps, w = .object ps
    · exact .inr (.inl hprops)
    · refine .inr (.inr ⟨hdata, fun hk => ?_⟩)
      cases w with
      | object ps => exact absurd ⟨hk, ps, rfl⟩ hprops
      | _ => rfl

/-- The walk over a map of properties visits the properties. -/
theorem close_names_ok {ps : Members} (h : NoKeywords ps) (hps : Sorted ps) {out : Json} :
    closeNativeObjectSchemas (.object ps) = .ok out ↔
      ∃ ps', mapValues (fun _ child => closeNativeObjectSchemas child) ps = .ok ps' ∧
        out = .object ps' := by
  rw [close_object_ok, h.settled.closeObject hps]
  constructor
  · intro ⟨n, ps', hn, hps', hout⟩
    cases hn
    exact ⟨ps', hps', hout⟩
  · intro ⟨ps', hps', hout⟩
    exact ⟨ps, ps', rfl, hps', hout⟩

section Step

variable {m n : Members} (hn : closeObject m = .ok n) (hm : (Json.object m).Ordered)
  (hp : PlainChildren n)
include hn hm hp

/-- One step of acceptance. -/
theorem accepted_step
    (ih : ∀ w, reach w < reach (.object m) → w.Ordered → Plain false w → Admissible w →
      ∃ out, closeNativeObjectSchemas w = .ok out)
    (ha : Admissible (.object m)) : ∃ out, closeNativeObjectSchemas (.object m) = .ok out := by
  have hordered := ordered_closeObject hn hm
  have hreach := reach_closeObject hn
  cases ha with
  | scalar hs => cases hs
  | object hn' hchild _ hproperty =>
      rw [hn] at hn'
      cases hn'
      have hall : ∀ p ∈ n, ∃ b, closeNativeObjectSchemas p.2 = .ok b := by
        intro p hmem
        obtain ⟨k, w⟩ := p
        have hw := lookup_of_mem hordered.here hmem
        have hwo := hordered.members _ hmem
        rcases key_cases k w with hdata | ⟨rfl, ps, rfl⟩ | hk
        · exact ⟨w, (hp.data k hdata w hw).close hwo⟩
        · have hvalues : ∀ q ∈ ps, ∃ b, closeNativeObjectSchemas q.2 = .ok b := by
            intro q hq
            have hlookup := lookup_of_mem hwo.here hq
            have hq' : reach q.2 < reach (.object m) := by
              have h1 := reach_member hq
              have h2 := hreach _ hmem
              dsimp only at h2
              omega
            exact ih _ hq' (hwo.members q hq) (hp.property ps q.1 q.2 hw hlookup)
              (hproperty ps q.1 q.2 hw hlookup)
          obtain ⟨ps', hps'⟩ : ∃ ps', mapValues (fun _ w => closeNativeObjectSchemas w) ps = .ok ps' :=
            mapValues_ok_of_forall hvalues
          exact ⟨_, (close_names_ok (hp.names ps hw) hwo.here).mpr ⟨ps', hps', rfl⟩⟩
        · exact ih w (hreach _ hmem) hwo (hp.child k w hw hk) (hchild k w hw hk)
      obtain ⟨m', hm'⟩ : ∃ m', mapValues (fun _ w => closeNativeObjectSchemas w) n = .ok m' :=
        mapValues_ok_of_forall hall
      exact ⟨_, close_object_ok.mpr ⟨n, m', hn, hm', rfl⟩⟩

variable {m' : Members}
  (hw : mapValues (fun _ child => closeNativeObjectSchemas child) n = .ok m')
include hw

theorem data_step {k : String} (hk : k ∈ ["const", "default", "enum"]) :
    m'.lookup k = n.lookup k := by
  rcases lookup_mapValues hw k with ⟨hnone, hnone'⟩ | ⟨w, w', hl, hl', hclose⟩
  · rw [hnone, hnone']
  · have hordered := ordered_lookup (ordered_closeObject hn hm) hl
    rw [(hp.data k hk w hl).close hordered] at hclose
    cases hclose
    rw [hl, hl']

/-- The properties of a plain schema, walked. -/
theorem property_step {ps : Members} (hps : n.lookup "properties" = some (.object ps)) :
    ∃ ps', mapValues (fun _ child => closeNativeObjectSchemas child) ps = .ok ps' ∧
      m'.lookup "properties" = some (.object ps') := by
  obtain ⟨w', hw', hclose⟩ := mapValues_image hw hps
  have hsorted := (ordered_lookup (ordered_closeObject hn hm) hps).here
  obtain ⟨ps', hps', rfl⟩ := (close_names_ok (hp.names ps hps) hsorted).mp hclose
  exact ⟨ps', hps', hw'⟩

theorem names_step : propertyNames m' = propertyNames m := by
  obtain ⟨existing, -, -, hpc⟩ := (closeObject_closed hn).properties
  rcases hpc with ⟨ps, ps', hps, hmap, hps'⟩ | ⟨hnone, hsame⟩
  · obtain ⟨ps'', hmap', hps''⟩ := property_step hn hm hp hw hps'
    unfold propertyNames
    rw [hps, hps'']
    exact (keys_mapValues hmap').trans (keys_mapValues hmap)
  · have hnone' : ∀ ps, m'.lookup "properties" ≠ some (.object ps) := by
      intro ps hps
      obtain ⟨w, hwl, hclose⟩ := mapValues_preimage hw hps
      cases w with
      | object qs => exact hnone qs (hsame ▸ hwl)
      | array items =>
          obtain ⟨items', -, heq⟩ := close_array_ok.mp hclose
          cases heq
      | _ => cases hclose
    rw [propertyNames_of_none hnone', propertyNames_of_none hnone]

theorem settled_step : Settled m' :=
  walked_settled hw (closeObject_closed hn) (data_step hn hm hp hw (by decide))
    (names_step hn hm hp hw)

/-- One step of idempotence: what the walk leaves is settled everywhere. -/
theorem quiet_step
    (ih : ∀ w, reach w < reach (.object m) → w.Ordered → Plain false w →
      ∀ w', closeNativeObjectSchemas w = .ok w' → Quiet w') : Quiet (.object m') := by
  have hordered := ordered_closeObject hn hm
  have hreach := reach_closeObject hn
  refine .object (settled_step hn hm hp hw) (fun q hq => ?_)
  obtain ⟨p, hmem, -, hclose⟩ := mem_mapValues hw hq
  obtain ⟨k, w⟩ := p
  have hl := lookup_of_mem hordered.here hmem
  have hwo := hordered.members _ hmem
  rcases key_cases k w with hdata | ⟨rfl, ps, rfl⟩ | hk
  · have hquiet := hp.data k hdata w hl
    rw [hquiet.close hwo] at hclose
    rw [← Except.ok.inj hclose]
    exact hquiet
  · obtain ⟨ps', hps', hq'⟩ := (close_names_ok (hp.names ps hl) hwo.here).mp hclose
    rw [hq']
    refine .object (walked_noKeywords hps' (hp.names ps hl)).settled (fun r hr => ?_)
    obtain ⟨p, hp', -, hclose'⟩ := mem_mapValues hps' hr
    have hp'' : reach p.2 < reach (.object m) := by
      have h1 := reach_member hp'
      have h2 := hreach _ hmem
      dsimp only at h2
      omega
    exact ih _ hp'' (hwo.members p hp')
      (hp.property ps p.1 p.2 hl (lookup_of_mem hwo.here hp')) _ hclose'
  · exact ih w (hreach _ hmem) hwo (hp.child k w hl hk) _ hclose

/-- One step of the strict form. -/
theorem strict_step
    (ih : ∀ w, reach w < reach (.object m) → w.Ordered → Plain false w →
      ∀ w', closeNativeObjectSchemas w = .ok w' → Strict w w') :
    Strict (.object m) (.object m') := by
  have hordered := ordered_closeObject hn hm
  have hreach := reach_closeObject hn
  have hc := closeObject_closed hn
  have hwalk : ∀ k w w', n.lookup k = some w → m'.lookup k = some w' → SchemaKey k w →
      Strict w w' := by
    intro k w w' hl hl' hk
    obtain ⟨w'', hl'', hclose⟩ := mapValues_image hw hl
    rw [hl'] at hl''
    cases hl''
    exact ih w (hreach _ (mem_of_lookup hl)) (ordered_lookup hordered hl) (hp.child k w hl hk) _
      hclose
  obtain ⟨existing, he, -, hpc⟩ := hc.properties
  refine .object ?_ ?_ ?_ (names_step hn hm hp hw) ?_ ?_ ?_
  · intro k hk
    have hwalked : (m'.lookup k).isSome = (n.lookup k).isSome := by
      rcases lookup_mapValues hw k with ⟨h, h'⟩ | ⟨a, b, h, h', -⟩
      · rw [h, h']
      · rw [h, h']; rfl
    rw [hwalked]
    by_cases hprops : k = "properties"
    · subst hprops
      rcases hpc with ⟨ps, ps', hps, -, hps'⟩ | ⟨-, hsame⟩
      · rw [hps, hps']; rfl
      · rw [hsame]
    · rw [hc.other k ?_]
      simp only [List.mem_cons, List.not_mem_nil, or_false, not_or] at hk ⊢
      exact ⟨hk.1, hprops, hk.2.1, hk.2.2⟩
  · exact (walked_isObjectSchema hw).trans hc.isObjectSchema
  · intro hschema
    obtain ⟨hadditional, hrequired⟩ := (settled_step hn hm hp hw).shut hschema
    refine ⟨hadditional, hrequired, ?_⟩
    unfold propertyNames
    split
    · rename_i ps' hps'
      obtain ⟨w, hl, hclose⟩ := mapValues_preimage hw hps'
      exact keys_nodup (ordered_close hclose (ordered_lookup hordered hl)).here
    · exact List.nodup_nil
  · intro k hk
    rw [data_step hn hm hp hw hk, hc.other k (data_not_strict k hk)]
  · intro ps ps'' existing' name w w' u hps hps'' he' hl hl' hu
    rw [he] at he'
    cases he'
    rcases hpc with ⟨qs, ps', hqs, hmap, hps'⟩ | ⟨hnone, -⟩
    · rw [hps] at hqs
      cases hqs
      obtain ⟨u', hu', hclose⟩ := mapValues_image hmap hl
      rw [hu] at hclose
      cases hclose
      obtain ⟨qs'', hmap', hqs''⟩ := property_step hn hm hp hw hps'
      rw [hps''] at hqs''
      cases hqs''
      obtain ⟨w'', hl'', hclose'⟩ := mapValues_image hmap' hu'
      rw [hl'] at hl''
      cases hl''
      have hpso := ordered_lookup hordered hps'
      have hu'' : reach u < reach (.object m) := by
        have h1 := reach_member (mem_of_lookup hu')
        have h2 := hreach _ (mem_of_lookup hps')
        dsimp only at h1 h2
        omega
      exact ih u hu'' (ordered_lookup hpso hu') (hp.property ps' name u hps' hu') _ hclose'
    · exact absurd hps (hnone ps)
  · intro k w w' hkey hl hl' hk
    exact hwalk k w w' (closed_lookup hc hkey hl hk) hl' hk

end Step

end NativeSchema

end Vergerail
