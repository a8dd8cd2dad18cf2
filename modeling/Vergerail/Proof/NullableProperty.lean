import Vergerail.Proof.NormalForm
import Vergerail.Proof.SchemaValidator

/-!
# A property that becomes nullable

`make_native_property_nullable` says the same as before of every value but `null`, whatever
keywords stand in the property. That it admits `null` depends on them: a property that has a
type is left with the variants of its `anyOf`, whether or not they refuse `null`. So it does
where no `anyOf` stands beside another keyword (`Regular`).
-/

namespace Vergerail

open Lib.SortedMap

namespace NativeSchema

/-! ## Equal scalars -/

theorem equal_null_iff {v : Json} : primitiveSchemaValuesEqual v .null = true ↔ v = .null := by
  constructor
  · intro h
    cases v with
    | null => rfl
    | _ => cases h
  · rintro rfl
    rfl

theorem typeName_null_iff {v : Json} : v.typeName = "null" ↔ v = .null := by
  constructor
  · intro h
    cases v with
    | null => rfl
    | number text =>
        simp only [Json.typeName] at h
        split_ifs at h
        · exact absurd h (by decide)
        · exact absurd h (by decide)
    | _ => exact absurd h (by simp [Json.typeName])
  · rintro rfl
    rfl

/-- Only scalars are equal. -/
theorem scalar_of_equal {v c : Json} (h : primitiveSchemaValuesEqual v c = true) :
    v.isScalar = true := by
  cases v with
  | array items => cases c <;> cases h
  | object m => cases c <;> cases h
  | _ => rfl

theorem numberIsIntegral_congr {a b : String} (h : numericSchemaValuesEqual a b = true) :
    numberIsIntegral a = numberIsIntegral b := by
  have hcanonical : canonicalDecimal a = canonicalDecimal b := beq_iff_eq.mp h
  unfold numberIsIntegral
  rw [hcanonical]

/-- Equal scalars have one type. -/
theorem typeName_of_equal {v c : Json} {kind : String}
    (h : primitiveSchemaValuesEqual v c = true) (hc : nativeJsonType c = some kind) :
    v.typeName = kind := by
  cases c with
  | null => cases equal_null_iff.mp h; exact Option.some.inj hc
  | bool b =>
      cases v with
      | bool b' => exact Option.some.inj hc
      | _ => cases h
  | string s =>
      cases v with
      | string s' => exact Option.some.inj hc
      | _ => cases h
  | number text =>
      cases v with
      | number text' =>
          simp only [Json.typeName, numberIsIntegral_congr h]
          exact Option.some.inj hc
      | _ => cases h
  | array items => cases hc
  | object m => cases hc

/-- What equals the same scalar is equal. -/
theorem equal_of_equal {v w c : Json} (hv : primitiveSchemaValuesEqual v c = true)
    (hw : primitiveSchemaValuesEqual w c = true) : primitiveSchemaValuesEqual v w = true := by
  cases c with
  | null =>
      cases equal_null_iff.mp hv
      cases equal_null_iff.mp hw
      rfl
  | bool b =>
      cases v with
      | bool a =>
          cases w with
          | bool a' =>
              rw [primitiveSchemaValuesEqual, beq_iff_eq] at hv hw ⊢
              rw [hv, hw]
          | _ => cases hw
      | _ => cases hv
  | string s =>
      cases v with
      | string a =>
          cases w with
          | string a' =>
              rw [primitiveSchemaValuesEqual, beq_iff_eq] at hv hw ⊢
              rw [hv, hw]
          | _ => cases hw
      | _ => cases hv
  | number text =>
      cases v with
      | number a =>
          cases w with
          | number a' =>
              rw [primitiveSchemaValuesEqual, numericSchemaValuesEqual, beq_iff_eq] at hv hw ⊢
              rw [hv, hw]
          | _ => cases hw
      | _ => cases hv
  | array items => cases v <;> cases hv
  | object m => cases v <;> cases hv

/-! ## A nullable property -/

section Nullable

variable {closed : Bool} {m n m' : Members} {v w u : Json}

/-- A schema that says something else of types, constants and enumerations only. -/
theorem Says.congr (h : Says closed m v)
    (htype : ∀ t, n.lookup "type" = some t → nativeTypeIncludes t v.typeName = true)
    (hconst : n.lookup "const" = m.lookup "const")
    (henum : ∀ values, n.lookup "enum" = some (.array values) →
      ∃ w ∈ values, primitiveSchemaValuesEqual v w = true)
    (hproperties : n.lookup "properties" = m.lookup "properties")
    (hrequired : n.lookup "required" = m.lookup "required")
    (hschema : isObjectSchema n = isObjectSchema m) : Says closed n v where
  type := htype
  const c hc := h.const c (hconst ▸ hc)
  enum := henum
  required ms names hv hnames := by
    have hsame : existingRequired n = existingRequired m := by
      unfold existingRequired
      rw [hrequired]
    exact h.required ms names hv (hsame ▸ hnames)
  declared hc hs ms name hv hname := by
    have hsame : propertyNames n = propertyNames m := by
      unfold propertyNames
      rw [hproperties]
    rw [hsame]
    exact h.declared hc (hschema ▸ hs) ms name hv hname

/-- Of a scalar only its type, constant and enumeration say anything. -/
theorem says_of_scalar (hv : v.isScalar = true)
    (htype : ∀ t, n.lookup "type" = some t → nativeTypeIncludes t v.typeName = true)
    (hconst : ∀ c, n.lookup "const" = some c → primitiveSchemaValuesEqual v c = true)
    (henum : ∀ values, n.lookup "enum" = some (.array values) →
      ∃ w ∈ values, primitiveSchemaValuesEqual v w = true) : Says closed n v where
  type := htype
  const := hconst
  enum := henum
  required ms names hobject := by rw [hobject] at hv; cases hv
  declared _ _ ms name hobject := by rw [hobject] at hv; cases hv

theorem isObjectSchema_enumWithNull (m : Members) :
    isObjectSchema (enumWithNull m) = isObjectSchema m := by
  unfold isObjectSchema
  rw [enumWithNull_ne (by decide), enumWithNull_ne (by decide), enumWithNull_ne (by decide)]

theorem enumWithNull_other (m : Members) :
    ∀ k ∈ ["properties", "additionalProperties", "items", "anyOf"],
      (enumWithNull m).lookup k = m.lookup k := by
  intro k hk
  refine enumWithNull_ne ?_
  rintro rfl
  exact absurd hk (by decide)

/-- An enumeration that is given `null` admits what it did. -/
theorem enumWithNull_widens (h : Valid closed (.object m) v) :
    Valid closed (.object (enumWithNull m)) v := by
  refine h.of_keywords (h.keywords.congr (fun t ht => ?_) (enumWithNull_ne (by decide)) ?_
    (enumWithNull_ne (by decide)) (enumWithNull_ne (by decide))
    (isObjectSchema_enumWithNull m)) (enumWithNull_other m)
  · exact h.keywords.type t ((enumWithNull_ne (by decide)).symm.trans ht)
  · intro values hvalues
    rcases enumWithNull_enum m with hsame | ⟨before, hbefore, hafter⟩
    · exact h.keywords.enum values (hsame.symm.trans hvalues)
    · rw [hafter] at hvalues
      cases hvalues
      obtain ⟨w, hw, heq⟩ := h.keywords.enum before hbefore
      exact ⟨w, List.mem_append_left _ hw, heq⟩

/-- Nothing else is admitted but `null`. -/
theorem enumWithNull_same (hne : v ≠ .null) (h : Valid closed (.object (enumWithNull m)) v) :
    Valid closed (.object m) v := by
  refine h.of_keywords (h.keywords.congr (fun t ht => ?_) (enumWithNull_ne (by decide)).symm ?_
    (enumWithNull_ne (by decide)).symm (enumWithNull_ne (by decide)).symm
    (isObjectSchema_enumWithNull m).symm) (fun k hk => (enumWithNull_other m k hk).symm)
  · exact h.keywords.type t ((enumWithNull_ne (by decide)).trans ht)
  · intro values hvalues
    rcases enumWithNull_enum m with hsame | ⟨before, hbefore, hafter⟩
    · exact h.keywords.enum values (hsame.trans hvalues)
    · rw [hbefore] at hvalues
      cases hvalues
      obtain ⟨w, hw, heq⟩ := h.keywords.enum _ hafter
      rcases List.mem_append.mp hw with hw | hw
      · exact ⟨w, hw, heq⟩
      · rw [List.mem_singleton.mp hw] at heq
        exact absurd (equal_null_iff.mp heq) hne

theorem includes_typeWithNull {t : Json} {kind : String}
    (h : nativeTypeIncludes t kind = true) : nativeTypeIncludes (typeWithNull t) kind = true := by
  cases t with
  | string s =>
      simp only [nativeTypeIncludes] at h
      simp only [typeWithNull, nativeTypeIncludes, List.filterMap_cons, List.filterMap_nil,
        Json.asStr, List.any_cons, h, Bool.true_or]
  | array types =>
      simp only [typeWithNull]
      split_ifs
      · exact h
      · simp only [nativeTypeIncludes, List.filterMap_append, List.any_append] at h ⊢
        rw [h, Bool.true_or]
  | _ => cases h

theorem typeWithNull_includes {t : Json} {kind : String} (hkind : kind ≠ "null")
    (h : nativeTypeIncludes (typeWithNull t) kind = true) : nativeTypeIncludes t kind = true := by
  have hnull : nativeTypePairIsCompatible "null" kind = false := by
    simp [nativeTypePairIsCompatible, Ne.symm hkind]
  cases t with
  | string s =>
      simp only [typeWithNull, nativeTypeIncludes, List.filterMap_cons, List.filterMap_nil,
        Json.asStr, List.any_cons, List.any_nil, hnull, Bool.or_false] at h
      exact h
  | array types =>
      simp only [typeWithNull] at h
      split_ifs at h
      · exact h
      · simp only [nativeTypeIncludes, List.filterMap_append, List.any_append, List.filterMap_cons,
          List.filterMap_nil, Json.asStr, List.any_cons, List.any_nil, hnull,
          Bool.or_false] at h ⊢
        exact h
  | _ => cases h

theorem typeNamesObject_typeWithNull (t : Json) :
    typeNamesObject (typeWithNull t) = typeNamesObject t := by
  cases t with
  | string s => simp [typeWithNull, typeNamesObject, Json.asStr]
  | array types =>
      simp only [typeWithNull]
      split_ifs
      · rfl
      · simp [typeNamesObject, Json.asStr]
  | _ => rfl

/-- A type that is given `null` changes nothing else of the object. -/
theorem typed_congr {t : Json} (ht : m.lookup "type" = some t) :
    isObjectSchema (insert "type" (typeWithNull t) m) = isObjectSchema m ∧
      ∀ k, k ≠ "type" → (insert "type" (typeWithNull t) m).lookup k = m.lookup k := by
  have hother : ∀ k, k ≠ "type" →
      (insert "type" (typeWithNull t) m).lookup k = m.lookup k :=
    fun k hk => lookup_insert_ne hk _ _
  refine ⟨isObjectSchema_congr ?_ hother, hother⟩
  rw [lookup_insert_self, ht]
  exact typeNamesObject_typeWithNull t

theorem other_of_ne_type {k : String}
    (hk : k ∈ ["properties", "additionalProperties", "items", "anyOf"]) : k ≠ "type" := by
  rintro rfl
  exact absurd hk (by decide)

theorem typed_widens {t : Json} (ht : m.lookup "type" = some t)
    (h : Valid closed (.object m) v) :
    Valid closed (.object (insert "type" (typeWithNull t) m)) v := by
  obtain ⟨hschema, hother⟩ := typed_congr ht
  refine h.of_keywords (h.keywords.congr (fun t' ht' => ?_) (hother _ (by decide))
    (fun values hv => ?_)
    (hother _ (by decide)) (hother _ (by decide)) hschema)
    (fun k hk => hother k (other_of_ne_type hk))
  · rw [lookup_insert_self] at ht'
    cases ht'
    exact includes_typeWithNull (h.keywords.type t ht)
  · exact h.keywords.enum values ((hother _ (by decide)).symm.trans hv)

theorem typed_same {t : Json} (ht : m.lookup "type" = some t) (hne : v ≠ .null)
    (h : Valid closed (.object (insert "type" (typeWithNull t) m)) v) :
    Valid closed (.object m) v := by
  obtain ⟨hschema, hother⟩ := typed_congr ht
  refine h.of_keywords (h.keywords.congr (fun t' ht' => ?_) (hother _ (by decide)).symm
    (fun values hv => ?_) (hother _ (by decide)).symm (hother _ (by decide)).symm hschema.symm)
    (fun k hk => (hother k (other_of_ne_type hk)).symm)
  · rw [ht] at ht'
    cases ht'
    refine typeWithNull_includes (fun hnull => hne (typeName_null_iff.mp hnull)) ?_
    exact h.keywords.type _ (lookup_insert_self _ _ _)
  · exact h.keywords.enum values ((hother _ (by decide)).trans hv)

/-- The schema, or `null`. -/
theorem orNull_iff : Valid closed (orNull w) v ↔ Valid closed w v ∨ v = .null := by
  have hvariants : ([("anyOf", .array [w, .object [("type", .string "null")]])] : Members).lookup
      "anyOf" = some (.array [w, .object [("type", .string "null")]]) := lookup_cons_self _ _ _
  constructor
  · intro h
    obtain ⟨x, hx, hvalid⟩ := h.variant hvariants
    rcases List.mem_cons.mp hx with rfl | hx
    · exact .inl hvalid
    · rw [List.mem_singleton.mp hx] at hvalid
      have htype := hvalid.keywords.type _ (lookup_cons_self _ _ _)
      refine .inr (typeName_null_iff.mp ?_)
      simp only [nativeTypeIncludes, nativeTypePairIsCompatible, Bool.or_eq_true,
        Bool.and_eq_true, beq_iff_eq] at htype
      rcases htype with htype | htype
      · exact htype.symm
      · exact absurd htype.1 (by decide)
  · intro h
    have hnone : ∀ k, k ≠ "anyOf" →
        ([("anyOf", .array [w, .object [("type", .string "null")]])] : Members).lookup k
          = none := fun k hk => (lookup_cons_ne hk _ _).trans rfl
    have hkeywords : Says closed [("anyOf", .array [w, .object [("type", .string "null")]])] v := by
      refine ⟨fun t ht => ?_, fun c hc => ?_, fun values henum => ?_, fun ms names _ hnames => ?_,
        fun _ hschema => ?_⟩
      · rw [hnone _ (by decide)] at ht; cases ht
      · rw [hnone _ (by decide)] at hc; cases hc
      · rw [hnone _ (by decide)] at henum; cases henum
      · unfold existingRequired at hnames
        rw [hnone _ (by decide)] at hnames
        cases hnames
        exact fun name hname => by cases hname
      · have hplain : isObjectSchema [("anyOf", .array [w, .object [("type", .string "null")]])]
            = false := by
          unfold isObjectSchema
          rw [hnone _ (by decide), hnone _ (by decide), hnone _ (by decide)]
          rfl
        rw [hplain] at hschema
        cases hschema
    refine valid_object hkeywords ?_ ?_ ?_ ?_
    · intro ps ms name x y hps
      rw [hnone _ (by decide)] at hps
      cases hps
    · intro a ms name y ha
      rw [hnone _ (by decide)] at ha
      cases ha
    · intro s us hs
      rw [hnone _ (by decide)] at hs
      cases hs
    · intro variants hvs
      rw [hvariants] at hvs
      cases hvs
      rcases h with h | rfl
      · exact ⟨w, List.mem_cons_self, h⟩
      · refine ⟨_, List.mem_cons_of_mem _ List.mem_cons_self, valid_of_scalar rfl ?_ ?_⟩
        · refine says_of_scalar rfl (fun t ht => ?_) (fun c hc => ?_) (fun values hv => ?_)
          · cases ht; rfl
          · cases hc
          · cases hv
        · intro variants hv
          cases hv

theorem objectOrNull_widens (h : Valid closed (.object m) v) :
    Valid closed (objectOrNull m) v := by
  unfold objectOrNull
  split
  · rename_i t ht
    split_ifs
    · exact enumWithNull_widens h
    · exact h
    · exact enumWithNull_widens (typed_widens ht h)
  · split_ifs
    · exact h
    · exact orNull_iff.mpr (.inl h)

theorem objectOrNull_same (hne : v ≠ .null) (h : Valid closed (objectOrNull m) v) :
    Valid closed (.object m) v := by
  unfold objectOrNull at h
  split at h
  · rename_i t ht
    split_ifs at h
    · exact enumWithNull_same hne h
    · exact h
    · exact typed_same ht hne (enumWithNull_same hne h)
  · split_ifs at h
    · exact h
    · exact (orNull_iff.mp h).resolve_right hne

/-- A constant that passed its checks is among the enumerated values. -/
theorem constAsEnum_checked {c : Json} (h : constAsEnum m = .ok m')
    (hc : m.lookup "const" = some c) :
    ∃ kind, nativeJsonType c = some kind ∧
      (∀ values, m.lookup "enum" = some (.array values) →
        ∃ w ∈ values, primitiveSchemaValuesEqual w c = true) := by
  unfold constAsEnum at h
  rw [hc] at h
  dsimp only at h
  split at h
  · cases h
  · rename_i kind hcheck
    obtain ⟨hkind, hmember, -⟩ := checkConst_eq_ok_iff.mp hcheck
    refine ⟨kind, hkind, fun values hvalues => ?_⟩
    unfold validateConstEnumMembership at hmember
    rw [lookup_erase_ne (by decide), hvalues] at hmember
    dsimp only at hmember
    split_ifs at hmember with hany
    · exact List.any_eq_true.mp hany
    · cases hmember

theorem constAsEnum_widens (h : constAsEnum m = .ok m') (hv : Valid closed (.object m) v) :
    Valid closed (.object m') v := by
  obtain ⟨-, rfl⟩ | ⟨c, kind, hconst, hkind, hnone, henum, htype, hother⟩ := constAsEnum_cases h
  · exact hv
  · have heq := hv.keywords.const c hconst
    refine valid_of_scalar (scalar_of_equal heq) (says_of_scalar (scalar_of_equal heq)
      (fun t ht => ?_) (fun c' hc' => ?_) (fun values hvalues => ?_)) (fun variants hvs => ?_)
    · rw [htype] at ht
      cases hbefore : m.lookup "type" with
      | some before =>
          rw [hbefore] at ht
          cases ht
          exact hv.keywords.type _ hbefore
      | none =>
          rw [hbefore] at ht
          cases ht
          rw [typeName_of_equal heq hkind]
          exact nativeTypePairIsCompatible_self kind
    · rw [hnone] at hc'
      cases hc'
    · rw [henum] at hvalues
      cases hvalues
      exact ⟨c, List.mem_cons_self, heq⟩
    · exact hv.variant ((hother "anyOf" (by decide)).symm.trans hvs)

theorem constAsEnum_same (h : constAsEnum m = .ok m') (hne : v ≠ .null)
    (hv : Valid closed (.object m') v) : Valid closed (.object m) v := by
  obtain ⟨-, rfl⟩ | ⟨c, kind, hconst, hkind, hnone, henum, htype, hother⟩ := constAsEnum_cases h
  · exact hv
  · -- of the constant and `null` it is the constant
    have heq : primitiveSchemaValuesEqual v c = true := by
      obtain ⟨x, hx, heq⟩ := hv.keywords.enum _ henum
      rcases List.mem_cons.mp hx with rfl | hx
      · exact heq
      · split_ifs at hx
        · cases hx
        · rw [List.mem_singleton.mp hx] at heq
          exact absurd (equal_null_iff.mp heq) hne
    obtain ⟨-, -, hmember⟩ := constAsEnum_checked h hconst
    refine valid_of_scalar (scalar_of_equal heq) (says_of_scalar (scalar_of_equal heq)
      (fun t ht => ?_) (fun c' hc' => ?_) (fun values hvalues => ?_)) (fun variants hvs => ?_)
    · rw [ht] at htype
      exact hv.keywords.type t htype
    · rw [hconst] at hc'
      cases hc'
      exact heq
    · obtain ⟨x, hx, hxc⟩ := hmember values hvalues
      exact ⟨x, hx, equal_of_equal heq hxc⟩
    · exact hv.variant ((hother "anyOf" (by decide)).trans hvs)

/-- **A property that becomes nullable admits what it did.** -/
theorem nullable_widens (h : makeNativePropertyNullable w = .ok u) (hv : Valid closed w v) :
    Valid closed u v := by
  cases w with
  | object m =>
      obtain ⟨m', hm', rfl⟩ := map_ok_iff.mp h
      exact objectOrNull_widens (constAsEnum_widens hm' hv)
  | _ => cases h; exact orNull_iff.mpr (.inl hv)

/-- **It changes nothing for values other than `null`.** -/
theorem nullable_same (h : makeNativePropertyNullable w = .ok u) (hne : v ≠ .null)
    (hv : Valid closed u v) : Valid closed w v := by
  cases w with
  | object m =>
      obtain ⟨m', hm', rfl⟩ := map_ok_iff.mp h
      exact constAsEnum_same hm' hne (objectOrNull_same hne hv)
  | _ => cases h; exact (orNull_iff.mp hv).resolve_right hne

end Nullable

/-! ## Regular schemas -/

/-- What `type` may say: a name, or a list of names. -/
def namesTypes : Json → Bool
  | .string _ => true
  | .array types => types.all (fun value => value.asStr.isSome)
  | _ => false

/-- The keywords that may not stand beside `anyOf`. -/
def besideAnyOf : List String :=
  ["additionalProperties", "const", "enum", "items", "properties", "required", "type"]

/-- What is asked of the keywords of an object. -/
structure RegularHere (m : Members) : Prop where
  type : ∀ t, m.lookup "type" = some t → namesTypes t = true
  enum : ∀ e, m.lookup "enum" = some e →
    ∃ values, e = .array values ∧ ∀ w ∈ values, w.isScalar = true
  alone : (m.lookup "anyOf").isSome = true → ∀ k ∈ besideAnyOf, m.lookup k = none
  /-- A variant that is called the null type admits `null`. -/
  nullVariant : ∀ variants w, m.lookup "anyOf" = some (.array variants) → w ∈ variants →
    (w.get "type").bind Json.asStr = some "null" → Valid true w .null

/-- A schema whose keywords are regular at every position. -/
inductive Regular : Json → Prop
  | bool {b : Bool} : Regular (.bool b)
  | object {m : Members} : RegularHere m →
      (∀ ps name w, m.lookup "properties" = some (.object ps) → ps.lookup name = some w →
        Regular w) →
      (∀ a, m.lookup "additionalProperties" = some a → Regular a) →
      (∀ s, m.lookup "items" = some s → Regular s) →
      (∀ variants w, m.lookup "anyOf" = some (.array variants) → w ∈ variants → Regular w) →
      Regular (.object m)

section Regularity

variable {m n m' : Members} {w u : Json}

theorem Regular.here (h : Regular (.object m)) : RegularHere m := by
  cases h with
  | object hhere _ _ _ _ => exact hhere

theorem Regular.property (h : Regular (.object m)) {ps : Members} {name : String}
    (hps : m.lookup "properties" = some (.object ps)) (hw : ps.lookup name = some w) :
    Regular w := by
  cases h with
  | object _ hproperty _ _ _ => exact hproperty ps name w hps hw

theorem Regular.additional (h : Regular (.object m)) {a : Json}
    (ha : m.lookup "additionalProperties" = some a) : Regular a := by
  cases h with
  | object _ _ hadditional _ _ => exact hadditional a ha

theorem Regular.items (h : Regular (.object m)) {s : Json} (hs : m.lookup "items" = some s) :
    Regular s := by
  cases h with
  | object _ _ _ hitems _ => exact hitems s hs

theorem Regular.variant (h : Regular (.object m)) {variants : List Json}
    (hvs : m.lookup "anyOf" = some (.array variants)) (hw : w ∈ variants) : Regular w := by
  cases h with
  | object _ _ _ _ hvariant => exact hvariant variants w hvs hw

/-- A schema without variants. -/
theorem regular_of_no_anyOf (hanyOf : m.lookup "anyOf" = none)
    (htype : ∀ t, m.lookup "type" = some t → namesTypes t = true)
    (henum : ∀ e, m.lookup "enum" = some e →
      ∃ values, e = .array values ∧ ∀ w ∈ values, w.isScalar = true)
    (hproperty : ∀ ps name w, m.lookup "properties" = some (.object ps) →
      ps.lookup name = some w → Regular w)
    (hadditional : ∀ a, m.lookup "additionalProperties" = some a → Regular a)
    (hitems : ∀ s, m.lookup "items" = some s → Regular s) : Regular (.object m) := by
  refine .object ⟨htype, henum, fun hsome => ?_, fun variants w hvs => ?_⟩ hproperty hadditional
    hitems (fun variants w hvs => ?_)
  · rw [hanyOf] at hsome
    cases hsome
  · rw [hanyOf] at hvs
    cases hvs
  · rw [hanyOf] at hvs
    cases hvs

/-- Other types and enumerations, beside no variants. -/
theorem Regular.congr (h : Regular (.object m))
    (hother : ∀ k ∈ ["properties", "additionalProperties", "items", "anyOf"],
      n.lookup k = m.lookup k)
    (hanyOf : m.lookup "anyOf" = none)
    (htype : ∀ t, n.lookup "type" = some t → namesTypes t = true)
    (henum : ∀ e, n.lookup "enum" = some e →
      ∃ values, e = .array values ∧ ∀ w ∈ values, w.isScalar = true) :
    Regular (.object n) := by
  refine regular_of_no_anyOf ((hother _ (by decide)).trans hanyOf) htype henum ?_ ?_ ?_
  · exact fun ps name w hps hw => h.property ((hother "properties" (by decide)) ▸ hps) hw
  · exact fun a ha => h.additional ((hother "additionalProperties" (by decide)) ▸ ha)
  · exact fun s hs => h.items ((hother "items" (by decide)) ▸ hs)

/-- What has one of the other keywords has no variants. -/
theorem RegularHere.no_anyOf (h : RegularHere m) {k : String} (hk : k ∈ besideAnyOf)
    (hsome : (m.lookup k).isSome = true) : m.lookup "anyOf" = none := by
  by_contra hne
  rw [h.alone (Option.isSome_iff_ne_none.mpr hne) k hk] at hsome
  cases hsome

theorem namesTypes_typeWithNull {t : Json} (h : namesTypes t = true) :
    namesTypes (typeWithNull t) = true := by
  cases t with
  | string s => rfl
  | array types =>
      simp only [typeWithNull]
      split_ifs
      · exact h
      · simp only [namesTypes, List.all_append, Bool.and_eq_true] at h ⊢
        exact ⟨h, rfl⟩
  | _ => exact h

theorem enumWithNull_scalars (h : RegularHere m) :
    ∀ e, (enumWithNull m).lookup "enum" = some e →
      ∃ values, e = .array values ∧ ∀ w ∈ values, w.isScalar = true := by
  intro e he
  rcases enumWithNull_enum m with hsame | ⟨before, hbefore, hafter⟩
  · exact h.enum e (hsame.symm.trans he)
  · rw [hafter] at he
    cases he
    obtain ⟨values, heq, hscalars⟩ := h.enum _ hbefore
    cases heq
    refine ⟨_, rfl, fun w hw => ?_⟩
    rcases List.mem_append.mp hw with hw | hw
    · exact hscalars w hw
    · rw [List.mem_singleton.mp hw]
      rfl

theorem regular_orNull (hw : Regular w) (hname : (w.get "type").bind Json.asStr ≠ some "null") :
    Regular (orNull w) := by
  have hnull : Regular (.object [("type", .string "null")]) := by
    refine regular_of_no_anyOf rfl (fun t ht => ?_) (fun e he => ?_) (fun ps name x hps => ?_)
      (fun a ha => ?_) (fun s hs => ?_)
    · cases ht; rfl
    · cases he
    · cases hps
    · cases ha
    · cases hs
  have hvalid : Valid true (.object [("type", .string "null")]) .null :=
    valid_of_scalar rfl (says_of_scalar rfl (fun t ht => by cases ht; rfl)
      (fun c hc => by cases hc) (fun values hv => by cases hv)) (fun variants hv => by cases hv)
  refine .object ⟨fun t ht => ?_, fun e he => ?_, fun _ k hk => ?_, fun variants x hvs hx hn => ?_⟩
    (fun ps name x hps => ?_) (fun a ha => ?_) (fun s hs => ?_) (fun variants x hvs hx => ?_)
  · cases ht
  · cases he
  · refine (lookup_cons_ne (fun heq => ?_) _ _).trans rfl
    rw [heq] at hk
    exact absurd hk (by decide)
  · cases hvs
    rcases List.mem_cons.mp hx with rfl | hx
    · exact absurd hn hname
    · rw [List.mem_singleton.mp hx]
      exact hvalid
  · cases hps
  · cases ha
  · cases hs
  · cases hvs
    rcases List.mem_cons.mp hx with rfl | hx
    · exact hw
    · rw [List.mem_singleton.mp hx]
      exact hnull

theorem regular_constAsEnum (h : constAsEnum m = .ok m') (hr : Regular (.object m)) :
    Regular (.object m') := by
  obtain ⟨-, rfl⟩ | ⟨c, kind, hconst, hkind, -, henum, htype, hother⟩ := constAsEnum_cases h
  · exact hr
  · refine hr.congr (fun k hk => hother k ?_) (hr.here.no_anyOf (k := "const") (by decide) ?_)
      (fun t ht => ?_) (fun e he => ?_)
    · revert k
      decide
    · rw [hconst]
      rfl
    · rw [htype] at ht
      cases hbefore : m.lookup "type" with
      | some before => rw [hbefore] at ht; cases ht; exact hr.here.type _ hbefore
      | none => rw [hbefore] at ht; cases ht; rfl
    · rw [henum] at he
      cases he
      refine ⟨_, rfl, fun w hw => ?_⟩
      rcases List.mem_cons.mp hw with rfl | hw
      · exact scalar_of_nativeJsonType hkind
      · split_ifs at hw
        · cases hw
        · rw [List.mem_singleton.mp hw]
          rfl

theorem regular_objectOrNull (hr : Regular (.object m)) : Regular (objectOrNull m) := by
  unfold objectOrNull
  split
  · rename_i t ht
    have hanyOf := hr.here.no_anyOf (k := "type") (by decide) (by rw [ht]; rfl)
    split_ifs
    · refine hr.congr (enumWithNull_other m) hanyOf (fun t' ht' => ?_)
        (enumWithNull_scalars hr.here)
      exact hr.here.type t' ((enumWithNull_ne (by decide)).symm.trans ht')
    · exact hr
    · have htyped : Regular (.object (insert "type" (typeWithNull t) m)) := by
        obtain ⟨-, hother⟩ := typed_congr ht
        refine hr.congr (fun k hk => hother k (other_of_ne_type hk)) hanyOf (fun t' ht' => ?_)
          (fun e he => hr.here.enum e ((hother _ (by decide)).symm.trans he))
        rw [lookup_insert_self] at ht'
        cases ht'
        exact namesTypes_typeWithNull (hr.here.type t ht)
      refine htyped.congr (enumWithNull_other _) ?_ (fun t' ht' => ?_)
        (enumWithNull_scalars htyped.here)
      · exact (lookup_insert_ne (by decide) _ _).trans hanyOf
      · exact htyped.here.type t' ((enumWithNull_ne (by decide)).symm.trans ht')
  · rename_i htype
    split_ifs
    · exact hr
    · refine regular_orNull hr ?_
      simp only [Json.get, htype, Option.bind_none]
      simp

/-- A regular property stays regular. -/
theorem regular_nullable (h : makeNativePropertyNullable w = .ok u) (hr : Regular w) :
    Regular u := by
  cases w with
  | object m =>
      obtain ⟨m', hm', rfl⟩ := map_ok_iff.mp h
      exact regular_objectOrNull (regular_constAsEnum hm' hr)
  | bool b => cases h; exact regular_orNull hr (by simp [Json.get])
  | _ => cases hr

theorem includes_null_of_names {t : Json} (h : typeNamesNull t = true) :
    nativeTypeIncludes t "null" = true := by
  cases t with
  | string s =>
      simp only [typeNamesNull, beq_iff_eq] at h
      rw [h]
      rfl
  | array types =>
      simp only [typeNamesNull, List.any_eq_true, beq_iff_eq] at h
      obtain ⟨x, hx, hname⟩ := h
      simp only [nativeTypeIncludes, List.any_eq_true]
      exact ⟨"null", List.mem_filterMap.mpr ⟨x, hx, hname⟩, rfl⟩
  | _ => cases h

theorem typeWithNull_null {t : Json} (h : namesTypes t = true) :
    nativeTypeIncludes (typeWithNull t) "null" = true := by
  refine includes_null_of_names ?_
  cases t with
  | string s => simp [typeWithNull, typeNamesNull, Json.asStr]
  | array types =>
      simp only [typeWithNull]
      split_ifs with hnull
      · exact hnull
      · simp [typeNamesNull, Json.asStr]
  | _ => cases h

/-- An enumeration that was given `null` has it. -/
theorem enumWithNull_null (m : Members) : ∀ values,
    (enumWithNull m).lookup "enum" = some (.array values) →
      ∃ w ∈ values, primitiveSchemaValuesEqual .null w = true := by
  intro values hvalues
  unfold enumWithNull at hvalues
  split at hvalues
  · rename_i before hbefore
    split_ifs at hvalues with hany
    · rw [hbefore] at hvalues
      cases hvalues
      obtain ⟨w, hw, hnull⟩ := List.any_eq_true.mp hany
      refine ⟨w, hw, ?_⟩
      cases w with
      | null => rfl
      | _ => cases hnull
    · rw [lookup_insert_self] at hvalues
      cases hvalues
      exact ⟨.null, List.mem_append_right _ List.mem_cons_self, rfl⟩
  · rename_i hno
    exact absurd hvalues (hno values)

/-- `null` under a type that names it, an enumeration that has it and no constant. -/
theorem valid_null (htype : ∀ t, m.lookup "type" = some t → nativeTypeIncludes t "null" = true)
    (hconst : m.lookup "const" = none)
    (henum : ∀ values, m.lookup "enum" = some (.array values) →
      ∃ w ∈ values, primitiveSchemaValuesEqual .null w = true)
    (hvariant : ∀ variants, m.lookup "anyOf" = some (.array variants) →
      ∃ w ∈ variants, Valid true w .null) : Valid true (.object m) .null := by
  refine valid_of_scalar rfl (says_of_scalar rfl htype (fun c hc => ?_) henum) hvariant
  rw [hconst] at hc
  cases hc

theorem objectOrNull_admits_null (hr : Regular (.object m)) (hconst : m.lookup "const" = none) :
    Valid true (objectOrNull m) .null := by
  have hnone : ∀ {l : Members}, l.lookup "anyOf" = none → ∀ variants,
      l.lookup "anyOf" = some (.array variants) → ∃ w ∈ variants, Valid true w .null := by
    intro l hl variants hvs
    rw [hl] at hvs
    cases hvs
  unfold objectOrNull
  split
  · rename_i t ht
    have hanyOf := hr.here.no_anyOf (k := "type") (by decide) (by rw [ht]; rfl)
    split_ifs with hnames hany
    · refine valid_null (fun t' ht' => ?_) ((enumWithNull_ne (by decide)).trans hconst)
        (enumWithNull_null m) (hnone ((enumWithNull_ne (by decide)).trans hanyOf))
      rw [enumWithNull_ne (by decide), ht] at ht'
      cases ht'
      exact includes_null_of_names hnames
    · unfold anyOfNamesNull at hany
      rw [hanyOf] at hany
      cases hany
    · refine valid_null (fun t' ht' => ?_) ?_ (enumWithNull_null _) (hnone ?_)
      · rw [enumWithNull_ne (by decide), lookup_insert_self] at ht'
        cases ht'
        exact typeWithNull_null (hr.here.type t ht)
      · rw [enumWithNull_ne (by decide), lookup_insert_ne (by decide)]
        exact hconst
      · rw [enumWithNull_ne (by decide), lookup_insert_ne (by decide)]
        exact hanyOf
  · rename_i htype
    split_ifs with hany
    · -- a variant is the null type
      unfold anyOfNamesNull at hany
      split at hany
      · rename_i variants hvs
        obtain ⟨w, hw, hname⟩ := List.any_eq_true.mp hany
        refine valid_null (fun t ht => ?_) hconst (fun values hvalues => ?_) (fun vs hvs' => ?_)
        · rw [htype] at ht
          cases ht
        · rw [hr.here.alone (by rw [hvs]; rfl) "enum" (by decide)] at hvalues
          cases hvalues
        · rw [hvs] at hvs'
          cases hvs'
          exact ⟨w, hw, hr.here.nullVariant variants w hvs hw (by simpa using hname)⟩
      · cases hany
    · exact orNull_iff.mpr (.inr rfl)

/-- **A regular property that becomes nullable admits `null`.** -/
theorem nullable_admits_null (h : makeNativePropertyNullable w = .ok u) (hr : Regular w) :
    Valid true u .null := by
  cases w with
  | object m =>
      obtain ⟨m', hm', rfl⟩ := map_ok_iff.mp h
      refine objectOrNull_admits_null (regular_constAsEnum hm' hr) ?_
      obtain ⟨hconst, rfl⟩ | ⟨c, kind, -, -, hnone, -⟩ := constAsEnum_cases hm'
      · exact hconst
      · exact hnone
  | bool b => cases h; exact orNull_iff.mpr (.inr rfl)
  | _ => cases hr

end Regularity

/-- **A property that becomes nullable changes for `null` only, and if it is regular it
admits what it did and `null`.** -/
theorem nullable_exact {w u : Json} (h : makeNativePropertyNullable w = .ok u) :
    (∀ closed v, v ≠ .null → (Valid closed u v ↔ Valid closed w v)) ∧
      (Regular w → ∀ v, Valid true u v ↔ Valid true w v ∨ v = .null) := by
  refine ⟨fun closed v hne => ⟨nullable_same h hne, nullable_widens h⟩, fun hr v => ⟨?_, ?_⟩⟩
  · intro hv
    by_cases hnull : v = .null
    · exact .inr hnull
    · exact .inl (nullable_same h hnull hv)
  · rintro (hv | rfl)
    · exact nullable_widens h hv
    · exact nullable_admits_null h hr

/-- A constant that may be left out. -/
theorem optional_constant_exact :
    Valid true (.object [("enum", .array [.string "fast", .null]),
        ("type", .array [.string "string", .string "null"])]) .null ∧
      ¬Valid true (.object [("enum", .array [.string "fast", .null]),
        ("type", .array [.string "string", .string "null"])]) (.string "slow") := by
  have hregular : Regular (.object [("const", .string "fast")]) := by
    refine regular_of_no_anyOf rfl (fun t ht => ?_) (fun e he => ?_) (fun ps name x hps => ?_)
      (fun a ha => ?_) (fun s hs => ?_)
    · cases ht
    · cases he
    · cases hps
    · cases ha
    · cases hs
  have hexact := (nullable_exact (w := .object [("const", .string "fast")]) (by rfl)).2 hregular
  refine ⟨(hexact .null).mpr (.inr rfl), fun hslow => ?_⟩
  rcases (hexact (.string "slow")).mp hslow with hvalid | hnull
  · exact absurd (hvalid.keywords.const _ rfl) (by decide)
  · cases hnull

end NativeSchema

end Vergerail
