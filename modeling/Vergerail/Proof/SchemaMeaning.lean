import Vergerail.Lib.Appended
import Vergerail.Proof.NullableProperty

/-!
# What the strict form means

A value of the strict form, without the members that are null for want of a value, is one
of the advertised schema. A value of the advertised schema, with null for every member that
is missing, is one of the strict form (`Preserves`).

The walk is followed with the value: a declared member goes with its property, any other
with `additionalProperties`, an item with `items`, and a variant of `anyOf` with the whole
value. What the value needs pruned or filled in stands in the members, since no other
keyword stands beside `anyOf`.
-/

namespace Vergerail

open Lib
open Lib.SortedMap

namespace Json

theorem Prunes.typeName {v u : Json} (h : Prunes v u) : v.typeName = u.typeName := by
  cases h with
  | scalar _ => rfl
  | array _ => rfl
  | object _ _ _ => rfl

/-- What is pruned to a scalar is that scalar. -/
theorem Prunes.to_scalar {v u : Json} (h : Prunes v u) (hu : u.isScalar = true) : v = u := by
  cases h with
  | scalar _ => rfl
  | array _ => cases hu
  | object _ _ _ => cases hu

theorem ordered_of_lookup {ns : List (String × Json)} (hs : Sorted ns)
    (h : ∀ name u, ns.lookup name = some u → u.Ordered) : (Json.object ns).Ordered :=
  .object hs (fun p hp => h p.1 p.2 (lookup_of_mem hs hp))

end Json

namespace NativeSchema

/-- The strict form admits what the schema did, up to members that are null. -/
structure Preserves (schema native : Json) : Prop where
  sound : ∀ v : Json, v.Ordered → Valid false native v →
    ∃ u, u.Ordered ∧ Json.Prunes v u ∧ Valid true schema u
  complete : ∀ v : Json, v.Ordered → Valid true schema v →
    ∃ u, u.Ordered ∧ Json.Prunes u v ∧ Valid false native u

theorem mem_propertyNames {m : Members} {name : String} :
    name ∈ propertyNames m ↔
      ∃ ps w, m.lookup "properties" = some (.object ps) ∧ ps.lookup name = some w := by
  unfold propertyNames
  constructor
  · intro h
    split at h
    · rename_i ps hps
      obtain ⟨w, hw⟩ := Option.isSome_iff_exists.mp (mem_keys_iff.mp h)
      exact ⟨ps, w, hps, hw⟩
    · cases h
  · rintro ⟨ps, w, hps, hw⟩
    rw [hps]
    exact mem_keys_iff.mpr (by rw [hw]; rfl)

/-- An object without a constant and a type is not given one. -/
theorem closed_type_none {m n : Members} (h : closeObject m = .ok n)
    (hconst : m.lookup "const" = none) (htype : m.lookup "type" = none) :
    n.lookup "type" = none := by
  unfold closeObject at h
  split at h
  · cases h
  · rename_i m₁ hm₁
    have hsame : m₁ = m := by
      obtain ⟨-, hsame⟩ | ⟨c, kind, hc, -, -⟩ := normalize_cases hm₁
      · exact hsame
      · rw [hconst] at hc
        cases hc
    subst hsame
    split_ifs at h
    · obtain ⟨existing, closed, -, -, -, hclosed, rfl⟩ := closeObjectSchema_cases h
      rw [lookup_insert_ne (by decide), closeProperties_other hclosed (by decide),
        lookup_insert_ne (by decide)]
      exact htype
    · cases h
      exact htype

/-- Where the other keywords are absent, the variants of `anyOf` decide. -/
theorem valid_bare {closed : Bool} {m : Members} {v : Json}
    (hbare : ∀ k ∈ besideAnyOf, m.lookup k = none)
    (hvariant : ∀ variants, m.lookup "anyOf" = some (.array variants) →
      ∃ w ∈ variants, Valid closed w v) : Valid closed (.object m) v := by
  have hno : ∀ {k : String} {w : Json}, k ∈ besideAnyOf → m.lookup k ≠ some w := by
    intro k w hk h
    rw [hbare k hk] at h
    cases h
  refine valid_object ⟨?_, ?_, ?_, ?_, ?_⟩ ?_ ?_ ?_ hvariant
  · exact fun t ht => absurd ht (hno (by decide))
  · exact fun c hc => absurd hc (hno (by decide))
  · exact fun values hvalues => absurd hvalues (hno (by decide))
  · intro ms names _ hnames name hname
    unfold existingRequired at hnames
    rw [hbare "required" (by decide)] at hnames
    cases hnames
    cases hname
  · intro _ hschema
    rcases isObjectSchema_iff.mp hschema with ⟨t, ht, -⟩ | h | h
    · exact absurd ht (hno (by decide))
    · rw [hbare "properties" (by decide)] at h
      cases h
    · rw [hbare "required" (by decide)] at h
      cases h
  · exact fun ps ms name w u hps => absurd hps (hno (by decide))
  · exact fun a ms name u ha => absurd ha (hno (by decide))
  · exact fun s us hs => absurd hs (hno (by decide))

section Step

variable {m n m' : Members} (hn : closeObject m = .ok n) (hm : (Json.object m).Ordered)
  (hp : PlainChildren n)
  (hw : mapValues (fun _ child => closeNativeObjectSchemas child) n = .ok m')
include hn hw

/-! ## What the keywords say before and after -/

/-- The type that a constant is given is its own. -/
theorem type_step {v : Json}
    (hconst : ∀ c, m.lookup "const" = some c → primitiveSchemaValuesEqual v c = true) :
    (∀ t, m'.lookup "type" = some t → nativeTypeIncludes t v.typeName = true) ↔
      ∀ t, m.lookup "type" = some t → nativeTypeIncludes t v.typeName = true := by
  have hc := closeObject_closed hn
  constructor
  · intro h t ht
    obtain ⟨t', ht', hclose⟩ := mapValues_image hw (hc.type t ht)
    rw [← nativeTypeIncludes_close hclose]
    exact h t' ht'
  · intro h t' ht'
    obtain ⟨t, ht, hclose⟩ := mapValues_preimage hw ht'
    rw [nativeTypeIncludes_close hclose]
    cases hbefore : m.lookup "type" with
    | some before =>
        rw [hc.type before hbefore] at ht
        cases ht
        exact h _ hbefore
    | none =>
        cases hcm : m.lookup "const" with
        | none =>
            rw [closed_type_none hn hcm hbefore] at ht
            cases ht
        | some c =>
            obtain ⟨kind, hcheck, htype⟩ := hc.const c hcm
            rw [hbefore, ht] at htype
            cases htype
            rw [typeName_of_equal (hconst c hcm) (checkConst_scalar hcheck)]
            exact nativeTypePairIsCompatible_self kind

theorem schema_step : isObjectSchema m' = isObjectSchema m :=
  (walked_isObjectSchema hw).trans (closeObject_closed hn).isObjectSchema

/-- Beside `anyOf` the walk puts nothing. -/
theorem bare_step (hbare : ∀ k ∈ besideAnyOf, m.lookup k = none) :
    ∀ k ∈ besideAnyOf, m'.lookup k = none := by
  have hc := closeObject_closed hn
  have hschema : isObjectSchema m = false := by
    unfold isObjectSchema
    rw [hbare "type" (by decide), hbare "properties" (by decide), hbare "required" (by decide)]
    rfl
  have hnone : ∀ k ∈ besideAnyOf, n.lookup k = none := by
    intro k hk
    by_cases htype : k = "type"
    · subst htype
      exact closed_type_none hn (hbare "const" (by decide)) (hbare "type" hk)
    · rw [hc.untouched hschema k htype]
      exact hbare k hk
  intro k hk
  rcases lookup_mapValues hw k with ⟨-, h⟩ | ⟨a, b, ha, -, -⟩
  · exact h
  · rw [hnone k hk] at ha
    cases ha

/-- The variants of the strict form come from those of the schema. -/
theorem variants_back {variants' : List Json} (hvs : m'.lookup "anyOf" = some (.array variants')) :
    ∃ variants, m.lookup "anyOf" = some (.array variants) := by
  obtain ⟨w, hl, hclose⟩ := mapValues_preimage hw hvs
  rw [(closeObject_closed hn).other _ (by decide)] at hl
  cases w with
  | array variants => exact ⟨variants, hl⟩
  | object members =>
      obtain ⟨_, _, -, -, heq⟩ := close_object_ok.mp hclose
      cases heq
  | _ => cases hclose

include hm hp

theorem const_step : m'.lookup "const" = m.lookup "const" :=
  (data_step hn hm hp hw (by decide)).trans ((closeObject_closed hn).other _ (by decide))

theorem enum_step : m'.lookup "enum" = m.lookup "enum" :=
  (data_step hn hm hp hw (by decide)).trans ((closeObject_closed hn).other _ (by decide))

/-- Every declared property is required. -/
theorem required_step :
    existingRequired m' = .ok (if isObjectSchema m then propertyNames m else []) := by
  cases hschema : isObjectSchema m with
  | true =>
      have hshut := (settled_step hn hm hp hw).shut
        ((schema_step hn hw).trans hschema)
      rw [existingRequired_of_strings hshut.2, names_step hn hm hp hw]
      rfl
  | false =>
      have hnone : m'.lookup "required" = none := by
        have hbefore := (closeObject_closed hn).untouched hschema "required" (by decide)
        have hplain : m.lookup "required" = none := by
          by_contra hne
          have hsome : isObjectSchema m = true := isObjectSchema_iff.mpr
            (.inr (.inr (Option.isSome_iff_ne_none.mpr hne)))
          rw [hschema] at hsome
          cases hsome
        rcases lookup_mapValues hw "required" with ⟨-, hnone⟩ | ⟨a, b, ha, -, -⟩
        · exact hnone
        · rw [hbefore, hplain] at ha
          cases ha
      unfold existingRequired
      rw [hnone]
      rfl

/-- What the strict form says by itself, the schema says of the value pruned. -/
theorem says_down {v u : Json} (hprunes : Json.Prunes v u) (h : Says false m' v)
    (hrequired : ∀ ms names, u = .object ms → existingRequired m = .ok names →
      ∀ name ∈ names, (ms.lookup name).isSome = true)
    (hdeclared : isObjectSchema m = true → ∀ ms name, u = .object ms →
      (ms.lookup name).isSome = true → name ∈ propertyNames m) : Says true m u := by
  have hconst : ∀ c, m.lookup "const" = some c → primitiveSchemaValuesEqual u c = true := by
    intro c hc
    have heq := h.const c ((const_step hn hm hp hw).trans hc)
    rw [hprunes.of_scalar (scalar_of_equal heq)]
    exact heq
  refine ⟨?_, hconst, fun values hvalues => ?_, hrequired, fun _ => hdeclared⟩
  · refine (type_step hn hw hconst).mp (fun t ht => ?_)
    rw [← hprunes.typeName]
    exact h.type t ht
  · obtain ⟨w, hmem, heq⟩ := h.enum values ((enum_step hn hm hp hw).trans hvalues)
    refine ⟨w, hmem, ?_⟩
    rw [hprunes.of_scalar (scalar_of_equal heq)]
    exact heq

/-- What the schema says by itself, the strict form says of the value filled in. -/
theorem says_up {v u : Json} (hprunes : Json.Prunes u v) (h : Says true m v)
    (hrequired : isObjectSchema m = true → ∀ ms, u = .object ms →
      ∀ name ∈ propertyNames m, (ms.lookup name).isSome = true) : Says false m' u := by
  have hconst : ∀ c, m.lookup "const" = some c → primitiveSchemaValuesEqual u c = true := by
    intro c hc
    have heq := h.const c hc
    rw [hprunes.to_scalar (scalar_of_equal heq)]
    exact heq
  refine ⟨?_, fun c hc => ?_, fun values hvalues => ?_, fun ms names hu hnames => ?_,
    fun hc => ?_⟩
  · refine (type_step hn hw hconst).mpr (fun t ht => ?_)
    rw [hprunes.typeName]
    exact h.type t ht
  · exact hconst c ((const_step hn hm hp hw).symm.trans hc)
  · obtain ⟨w, hmem, heq⟩ := h.enum values ((enum_step hn hm hp hw).symm.trans hvalues)
    refine ⟨w, hmem, ?_⟩
    rw [hprunes.to_scalar (scalar_of_equal heq)]
    exact heq
  · rw [required_step hn hm hp hw] at hnames
    cases hnames
    split_ifs with hschema
    · exact hrequired hschema ms hu
    · exact fun name hname => by cases hname
  · cases hc

/-! ## Where the walk leads -/

/-- A schema under a keyword, and its strict form. -/
theorem child_pair {k : String} {w : Json} (hl : n.lookup k = some w) (hk : SchemaKey k w) :
    ∃ w', m'.lookup k = some w' ∧ closeNativeObjectSchemas w = .ok w' ∧
      reach w < reach (.object m) ∧ w.Ordered ∧ Plain false w := by
  obtain ⟨w', hl', hclose⟩ := mapValues_image hw hl
  exact ⟨w', hl', hclose, reach_closeObject hn _ (mem_of_lookup hl),
    ordered_lookup (ordered_closeObject hn hm) hl, hp.child k w hl hk⟩

/-- A declared property, and its strict form. -/
theorem property_pair {existing : List String} (he : existingRequired m = .ok existing)
    {ps : Members} {name : String} {w : Json} (hps : m.lookup "properties" = some (.object ps))
    (hl : ps.lookup name = some w) :
    ∃ ps'' w'' p, m'.lookup "properties" = some (.object ps'') ∧ ps''.lookup name = some w'' ∧
      closeProperty existing name w = .ok p ∧ closeNativeObjectSchemas p = .ok w'' ∧
      reach p < reach (.object m) ∧ p.Ordered ∧ Plain false p := by
  obtain ⟨existing', he', -, hpc⟩ := (closeObject_closed hn).properties
  rw [he] at he'
  cases he'
  rcases hpc with ⟨qs, ps', hqs, hmap, hps'⟩ | ⟨hnone, -⟩
  · rw [hps] at hqs
    cases hqs
    obtain ⟨p, hp', hclose⟩ := mapValues_image hmap hl
    obtain ⟨ps'', hmap', hps''⟩ := property_step hn hm hp hw hps'
    obtain ⟨w'', hw'', hclose'⟩ := mapValues_image hmap' hp'
    have hordered := ordered_lookup (ordered_closeObject hn hm) hps'
    have hreach : reach p < reach (.object m) := by
      have h1 := reach_member (mem_of_lookup hp')
      have h2 := reach_closeObject hn _ (mem_of_lookup hps')
      dsimp only at h1 h2
      omega
    exact ⟨ps'', w'', p, hps'', hw'', hclose, hclose', hreach, ordered_lookup hordered hp',
      hp.property ps' name p hps' hp'⟩
  · exact absurd hps (hnone ps)

/-- Other members are admitted by a schema that is no object schema only. -/
theorem additional_pair (hschema : isObjectSchema m = false) {x : Json}
    (hx : m.lookup "additionalProperties" = some x) :
    ∃ x', m'.lookup "additionalProperties" = some x' ∧ closeNativeObjectSchemas x = .ok x' ∧
      reach x < reach (.object m) ∧ x.Ordered ∧ Plain false x := by
  refine child_pair hn hm hp hw ?_ ⟨by decide, fun h => absurd h (by decide)⟩
  rw [(closeObject_closed hn).untouched hschema _ (by decide)]
  exact hx

/-- The variants of `anyOf`, and their strict forms. -/
theorem variants_pair {variants : List Json} (hvs : m.lookup "anyOf" = some (.array variants)) :
    ∃ variants', m'.lookup "anyOf" = some (.array variants') ∧
      variants.mapM closeNativeObjectSchemas = .ok variants' ∧
      ∀ w ∈ variants, reach w < reach (.object m) ∧ w.Ordered ∧ Plain false w := by
  have hl : n.lookup "anyOf" = some (.array variants) := by
    rw [(closeObject_closed hn).other _ (by decide)]
    exact hvs
  obtain ⟨out, hl', hclose, hreach, hordered, hplain⟩ :=
    child_pair hn hm hp hw hl ⟨by decide, fun h => absurd h (by decide)⟩
  obtain ⟨variants', hmap, rfl⟩ := close_array_ok.mp hclose
  refine ⟨variants', hl', hmap, fun w hmem => ⟨?_, hordered.items w hmem, hplain.items w hmem⟩⟩
  exact Nat.lt_trans (reach_item hmem) hreach

/-! ## One object -/

variable (hr : Regular (.object m))
  (ih : ∀ w w', reach w < reach (.object m) → w.Ordered → Plain false w → Regular w →
    closeNativeObjectSchemas w = .ok w' → Preserves w w')
include hr ih

/-- A declared property, nullable unless it is required, is preserved. -/
theorem property_preserves {existing : List String} (he : existingRequired m = .ok existing)
    {name : String} (hname : name ∈ propertyNames m) :
    ∃ ps w ps' w' p, m.lookup "properties" = some (.object ps) ∧ ps.lookup name = some w ∧
      m'.lookup "properties" = some (.object ps') ∧ ps'.lookup name = some w' ∧
      closeProperty existing name w = .ok p ∧ Regular w ∧ Preserves p w' := by
  obtain ⟨ps, w, hps, hl⟩ := mem_propertyNames.mp hname
  obtain ⟨ps', w', p, hps', hl', hp', hclose, hreach, hordered, hplain⟩ :=
    property_pair hn hm hp hw he hps hl
  have hregular := hr.property hps hl
  refine ⟨ps, w, ps', w', p, hps, hl, hps', hl', hp', hregular, ?_⟩
  refine ih p w' hreach hordered hplain ?_ hclose
  unfold closeProperty at hp'
  split_ifs at hp'
  · cases hp'
    exact hregular
  · exact regular_nullable hp' hregular

/-- What becomes of a member of a value of the strict form. -/
structure MemberKept (m : Members) (existing : List String) (name : String) (v : Json)
    (kept : Option Json) : Prop where
  dropped : kept = none → v = .null ∧ name ∉ existing
  pruned : ∀ u, kept = some u → u.Ordered ∧ Json.Prunes v u
  declared : isObjectSchema m = true → name ∈ propertyNames m
  property : ∀ u ps w, kept = some u → m.lookup "properties" = some (.object ps) →
    ps.lookup name = some w → Valid true w u
  additional : ∀ u a, kept = some u → m.lookup "additionalProperties" = some a →
    name ∉ propertyNames m → Valid true a u

theorem member_sound {existing : List String} (he : existingRequired m = .ok existing)
    {vs : Members} (hvalid : Valid false (.object m') (.object vs)) {name : String} {v : Json}
    (hv : vs.lookup name = some v) (hordered : v.Ordered) :
    ∃ kept, MemberKept m existing name v kept := by
  by_cases hname : name ∈ propertyNames m
  · obtain ⟨ps, w, ps', w', p, hps, hl, hps', hl', hclose, -, hpreserves⟩ :=
      property_preserves hn hm hp hw hr ih he hname
    obtain ⟨u, hu, hprunes, hvalidu⟩ :=
      hpreserves.sound v hordered (hvalid.property hps' rfl hl' hv)
    have hkeep : Valid true w u → MemberKept m existing name v (some u) := by
      intro hwu
      refine ⟨fun h => absurd h (Option.some_ne_none _), fun u' h => ?_, fun _ => hname,
        fun u' qs w₁ h hqs hw₁ => ?_, fun u' a h _ hnot => absurd hname hnot⟩
      · cases h
        exact ⟨hu, hprunes⟩
      · cases h
        rw [hps] at hqs
        cases hqs
        rw [hl] at hw₁
        cases hw₁
        exact hwu
    unfold closeProperty at hclose
    split_ifs at hclose with hrequired
    · cases hclose
      exact ⟨some u, hkeep hvalidu⟩
    · by_cases hnull : u = .null
      · -- the member stood for a missing value
        subst hnull
        refine ⟨none, fun _ => ⟨hprunes.to_null, hrequired⟩, fun u' h => ?_, fun _ => hname,
          fun u' qs w₁ h => ?_, fun u' a h => ?_⟩
        · cases h
        · cases h
        · cases h
      · exact ⟨some u, hkeep (nullable_same hclose hnull hvalidu)⟩
  · have hundeclared : ∀ ps w, m.lookup "properties" = some (.object ps) →
        ps.lookup name ≠ some w := by
      intro ps w hps hl
      exact hname (mem_propertyNames.mpr ⟨ps, w, hps, hl⟩)
    have hnames : name ∉ propertyNames m' := by
      rw [names_step hn hm hp hw]
      exact hname
    cases hschema : isObjectSchema m with
    | true =>
        have hshut := (settled_step hn hm hp hw).shut ((schema_step hn hw).trans hschema)
        have hfalse := hvalid.additional hshut.1 rfl hv hnames
        exact absurd (valid_bool_iff.mp hfalse) (by decide)
    | false =>
        cases hx : m.lookup "additionalProperties" with
        | none =>
            refine ⟨some v, fun h => ?_, fun u h => ?_, fun h => ?_, fun u ps w h hps hl => ?_,
              fun u a h ha => ?_⟩
            · cases h
            · cases h
              exact ⟨hordered, Json.Prunes.refl v⟩
            · rw [hschema] at h
              cases h
            · exact absurd hl (hundeclared ps w hps)
            · rw [hx] at ha
              cases ha
        | some x =>
            obtain ⟨x', hx', hclose, hreach, hxo, hxp⟩ :=
              additional_pair hn hm hp hw hschema hx
            obtain ⟨u, hu, hprunes, hvalidu⟩ :=
              (ih x x' hreach hxo hxp (hr.additional hx) hclose).sound v hordered
                (hvalid.additional hx' rfl hv hnames)
            refine ⟨some u, fun h => ?_, fun u' h => ?_, fun h => ?_, fun u' ps w h hps hl => ?_,
              fun u' a h ha _ => ?_⟩
            · cases h
            · cases h
              exact ⟨hu, hprunes⟩
            · rw [hschema] at h
              cases h
            · exact absurd hl (hundeclared ps w hps)
            · cases h
              rw [hx] at ha
              cases ha
              exact hvalidu

/-- An object of the strict form, pruned. -/
theorem object_sound (hno : ∀ variants, m.lookup "anyOf" ≠ some (.array variants)) {vs : Members}
    (hordered : (Json.object vs).Ordered) (hvalid : Valid false (.object m') (.object vs)) :
    ∃ u, u.Ordered ∧ Json.Prunes (.object vs) u ∧ Valid true (.object m) u := by
  obtain ⟨existing, he, hdeclared, -⟩ := (closeObject_closed hn).properties
  obtain ⟨us, hsorted, hnone, hkept⟩ := exists_collect (R := MemberKept m existing) hordered.here
    (fun name v hv => member_sound hn hm hp hw hr ih he hvalid hv (ordered_lookup hordered hv))
  have hback : ∀ name u, us.lookup name = some u →
      ∃ v, vs.lookup name = some v ∧ MemberKept m existing name v (some u) := by
    intro name u hu
    cases hv : vs.lookup name with
    | none =>
        rw [hnone name hv] at hu
        cases hu
    | some v => exact ⟨v, rfl, hu ▸ hkept name v hv⟩
  have hprunes : Json.Prunes (.object vs) (.object us) := by
    refine .object hnone (fun name v hv hu => ?_) (fun name v u hv hu => ?_)
    · exact ((hkept name v hv).dropped hu).1
    · exact ((hkept name v hv).pruned u hu).2
  refine ⟨.object us, Json.ordered_of_lookup hsorted (fun name u hu => ?_), hprunes, ?_⟩
  · obtain ⟨v, -, hk⟩ := hback name u hu
    exact (hk.pruned u rfl).1
  · refine valid_object (says_down hn hm hp hw hprunes hvalid.keywords ?_ ?_) ?_ ?_ ?_ ?_
    · intro ms names hms hnames name hname
      cases hms
      rw [he] at hnames
      cases hnames
      have hschema : isObjectSchema m = true := by
        obtain ⟨ps, w, hps, -⟩ := mem_propertyNames.mp (hdeclared name hname)
        exact isObjectSchema_iff.mpr (.inr (.inl (by rw [hps]; rfl)))
      have hrequired := required_step hn hm hp hw
      rw [if_pos hschema] at hrequired
      obtain ⟨v, hv⟩ := Option.isSome_iff_exists.mp
        (hvalid.keywords.required vs _ rfl hrequired name (hdeclared name hname))
      by_contra hmissing
      exact ((hkept name v hv).dropped (Option.not_isSome_iff_eq_none.mp hmissing)).2 hname
    · intro hschema ms name hms hsome
      cases hms
      obtain ⟨u, hu⟩ := Option.isSome_iff_exists.mp hsome
      obtain ⟨v, -, hk⟩ := hback name u hu
      exact hk.declared hschema
    · intro ps ms name w u hps hms hl hu
      cases hms
      obtain ⟨v, -, hk⟩ := hback name u hu
      exact hk.property u ps w rfl hps hl
    · intro a ms name u ha hms hu hname
      cases hms
      obtain ⟨v, -, hk⟩ := hback name u hu
      exact hk.additional u a rfl ha hname
    · intro s us' hs hms
      cases hms
    · intro variants hvs
      exact absurd hvs (hno variants)

/-- What is put for a declared property of a value of the schema. -/
structure MemberFilled (m' : Members) (name : String) (v : Option Json) (u : Json) : Prop where
  ordered : u.Ordered
  kept : ∀ v', v = some v' → Json.Prunes u v'
  missing : v = none → u = .null
  property : ∀ ps w, m'.lookup "properties" = some (.object ps) → ps.lookup name = some w →
    Valid false w u

theorem member_complete {existing : List String} (he : existingRequired m = .ok existing)
    {vs : Members} (hordered : (Json.object vs).Ordered)
    (hvalid : Valid true (.object m) (.object vs)) {name : String}
    (hname : name ∈ propertyNames m) : ∃ u, MemberFilled m' name (vs.lookup name) u := by
  obtain ⟨ps, w, ps', w', p, hps, hl, hps', hl', hclose, hregular, hpreserves⟩ :=
    property_preserves hn hm hp hw hr ih he hname
  have hfill : ∀ v u, u.Ordered → Valid false w' u → (∀ v', vs.lookup name = some v' → v' = v) →
      Json.Prunes u v → (vs.lookup name = none → u = .null) →
      MemberFilled m' name (vs.lookup name) u := by
    intro v u hu hvalidu hv hprunes hmissing
    refine ⟨hu, fun v' hv' => hv v' hv' ▸ hprunes, hmissing, fun qs w₁ hqs hw₁ => ?_⟩
    rw [hps'] at hqs
    cases hqs
    rw [hl'] at hw₁
    cases hw₁
    exact hvalidu
  cases hv : vs.lookup name with
  | some v =>
      have hvalidv : Valid true p v := by
        have hwv := hvalid.property hps rfl hl hv
        unfold closeProperty at hclose
        split_ifs at hclose
        · cases hclose
          exact hwv
        · exact nullable_widens hclose hwv
      obtain ⟨u, hu, hprunes, hvalidu⟩ :=
        hpreserves.complete v (ordered_lookup hordered hv) hvalidv
      refine ⟨u, hv ▸ hfill v u hu hvalidu (fun v' hv' => ?_) hprunes (fun h => ?_)⟩
      · rw [hv] at hv'
        exact (Option.some.inj hv').symm
      · rw [hv] at h
        cases h
  | none =>
      -- the property is not required, so that it has become nullable
      have hrequired : name ∉ existing := by
        intro hmem
        have hsome := hvalid.keywords.required vs existing rfl he name hmem
        rw [hv] at hsome
        cases hsome
      unfold closeProperty at hclose
      rw [if_neg hrequired] at hclose
      obtain ⟨u, hu, hprunes, hvalidu⟩ :=
        hpreserves.complete .null (.scalar rfl) (nullable_admits_null hclose hregular)
      refine ⟨u, hv ▸ hfill .null u hu hvalidu (fun v' hv' => ?_) hprunes
        (fun _ => hprunes.to_null)⟩
      rw [hv] at hv'
      cases hv'

/-- An object of the schema, with null for every declared property that is missing. -/
theorem object_complete_declared (hschema : isObjectSchema m = true)
    (hno : ∀ variants, m.lookup "anyOf" ≠ some (.array variants)) {vs : Members}
    (hordered : (Json.object vs).Ordered) (hvalid : Valid true (.object m) (.object vs)) :
    ∃ u, u.Ordered ∧ Json.Prunes u (.object vs) ∧ Valid false (.object m') u := by
  obtain ⟨existing, he, -, -⟩ := (closeObject_closed hn).properties
  obtain ⟨ps, hps, hdeclared⟩ : ∃ ps : Members, Sorted ps ∧
      ∀ name, name ∈ propertyNames m ↔ ∃ w, ps.lookup name = some w := by
    by_cases hobject : ∃ ps, m.lookup "properties" = some (.object ps)
    · obtain ⟨ps, hps⟩ := hobject
      refine ⟨ps, (ordered_lookup hm hps).here, fun name => ?_⟩
      rw [mem_propertyNames, hps]
      simp
    · refine ⟨[], List.Pairwise.nil, fun name => ?_⟩
      rw [propertyNames_of_none (fun ps hps => hobject ⟨ps, hps⟩)]
      simp
  obtain ⟨us, hsorted, hnone, hfilled⟩ := exists_collect
    (R := fun name _ o => ∃ u, o = some u ∧ MemberFilled m' name (vs.lookup name) u) hps
    (fun name w hl => by
      obtain ⟨u, hu⟩ := member_complete hn hm hp hw hr ih he hordered hvalid
        ((hdeclared name).mpr ⟨w, hl⟩)
      exact ⟨some u, u, rfl, hu⟩)
  have hmember : ∀ name, name ∈ propertyNames m →
      ∃ u, us.lookup name = some u ∧ MemberFilled m' name (vs.lookup name) u := by
    intro name hname
    obtain ⟨w, hl⟩ := (hdeclared name).mp hname
    exact hfilled name w hl
  have hback : ∀ name u, us.lookup name = some u →
      name ∈ propertyNames m ∧ MemberFilled m' name (vs.lookup name) u := by
    intro name u hu
    have hname : name ∈ propertyNames m := by
      by_contra hnot
      cases hl : ps.lookup name with
      | none =>
          rw [hnone name hl] at hu
          cases hu
      | some w => exact hnot ((hdeclared name).mpr ⟨w, hl⟩)
    obtain ⟨u', hu', hk⟩ := hmember name hname
    rw [hu] at hu'
    cases hu'
    exact ⟨hname, hk⟩
  have hprunes : Json.Prunes (.object us) (.object vs) := by
    refine .object (fun name hu => ?_) (fun name u hu hv => ?_) (fun name u v hu hv => ?_)
    · by_contra hv
      have hname := hvalid.keywords.declared rfl hschema vs name rfl
        (Option.isSome_iff_ne_none.mpr hv)
      obtain ⟨u, hu', -⟩ := hmember name hname
      rw [hu] at hu'
      cases hu'
    · exact (hback name u hu).2.missing hv
    · exact (hback name u hu).2.kept v hv
  refine ⟨.object us, Json.ordered_of_lookup hsorted (fun name u hu => (hback name u hu).2.ordered),
    hprunes, ?_⟩
  refine valid_object (says_up hn hm hp hw hprunes hvalid.keywords ?_) ?_ ?_ ?_ ?_
  · intro _ ms hms name hname
    cases hms
    obtain ⟨u, hu, -⟩ := hmember name hname
    rw [hu]
    rfl
  · intro qs ms name w u hqs hms hl hu
    cases hms
    exact (hback name u hu).2.property qs w hqs hl
  · intro a ms name u _ hms hu hname
    cases hms
    rw [names_step hn hm hp hw] at hname
    exact absurd (hback name u hu).1 hname
  · intro s us' hs hms
    cases hms
  · intro variants' hvs
    obtain ⟨variants, hvs'⟩ := variants_back hn hw hvs
    exact absurd hvs' (hno variants)

/-- An object of a schema that is no object schema: its members are its own. -/
theorem object_complete_open (hschema : isObjectSchema m = false)
    (hno : ∀ variants, m.lookup "anyOf" ≠ some (.array variants)) {vs : Members}
    (hordered : (Json.object vs).Ordered) (hvalid : Valid true (.object m) (.object vs)) :
    ∃ u, u.Ordered ∧ Json.Prunes u (.object vs) ∧ Valid false (.object m') u := by
  have hproperties : m.lookup "properties" = none := by
    by_contra hne
    have htrue : isObjectSchema m = true :=
      isObjectSchema_iff.mpr (.inr (.inl (Option.isSome_iff_ne_none.mpr hne)))
    rw [hschema] at htrue
    cases htrue
  have hundeclared : ∀ name, name ∉ propertyNames m := by
    intro name hname
    obtain ⟨ps, w, hps, -⟩ := mem_propertyNames.mp hname
    rw [hproperties] at hps
    cases hps
  have hchoose : ∀ name v, vs.lookup name = some v → ∃ o u, o = some u ∧ u.Ordered ∧
      Json.Prunes u v ∧ ∀ a, m'.lookup "additionalProperties" = some a → Valid false a u := by
    intro name v hv
    have hvo := ordered_lookup hordered hv
    cases hx : m.lookup "additionalProperties" with
    | none =>
        refine ⟨some v, v, rfl, hvo, Json.Prunes.refl v, fun a ha => ?_⟩
        obtain ⟨x, hx', -⟩ := mapValues_preimage hw ha
        rw [(closeObject_closed hn).untouched hschema _ (by decide), hx] at hx'
        cases hx'
    | some x =>
        obtain ⟨x', hx', hclose, hreach, hxo, hxp⟩ := additional_pair hn hm hp hw hschema hx
        obtain ⟨u, hu, hprunes, hvalidu⟩ :=
          (ih x x' hreach hxo hxp (hr.additional hx) hclose).complete v hvo
            (hvalid.additional hx rfl hv (hundeclared name))
        refine ⟨some u, u, rfl, hu, hprunes, fun a ha => ?_⟩
        rw [hx'] at ha
        cases ha
        exact hvalidu
  obtain ⟨us, hsorted, hnone, hkept⟩ := exists_collect hordered.here hchoose
  have hback : ∀ name u, us.lookup name = some u → ∃ v, vs.lookup name = some v ∧ u.Ordered ∧
      Json.Prunes u v ∧ ∀ a, m'.lookup "additionalProperties" = some a → Valid false a u := by
    intro name u hu
    cases hv : vs.lookup name with
    | none =>
        rw [hnone name hv] at hu
        cases hu
    | some v =>
        obtain ⟨u', hu', hk⟩ := hkept name v hv
        rw [hu] at hu'
        cases hu'
        exact ⟨v, rfl, hk⟩
  have hprunes : Json.Prunes (.object us) (.object vs) := by
    refine .object (fun name hu => ?_) (fun name u hu hv => ?_) (fun name u v hu hv => ?_)
    · by_contra hne
      obtain ⟨v, hv⟩ := Option.ne_none_iff_exists'.mp hne
      obtain ⟨u, hu', -⟩ := hkept name v hv
      rw [hu] at hu'
      cases hu'
    · obtain ⟨v, hv', -⟩ := hback name u hu
      rw [hv] at hv'
      cases hv'
    · obtain ⟨v', hv', -, hprunes, -⟩ := hback name u hu
      rw [hv] at hv'
      cases hv'
      exact hprunes
  refine ⟨.object us, Json.ordered_of_lookup hsorted (fun name u hu => ?_), hprunes, ?_⟩
  · obtain ⟨_, -, hu', -, -⟩ := hback name u hu
    exact hu'
  · refine valid_object (says_up hn hm hp hw hprunes hvalid.keywords (fun h => ?_)) ?_ ?_ ?_ ?_
    · rw [hschema] at h
      cases h
    · intro qs ms name w u hqs
      obtain ⟨x, hx, -⟩ := mapValues_preimage hw hqs
      rw [(closeObject_closed hn).untouched hschema _ (by decide), hproperties] at hx
      cases hx
    · intro a ms name u ha hms hu _
      cases hms
      obtain ⟨_, -, -, -, hadditional⟩ := hback name u hu
      exact hadditional a ha
    · intro s us' hs hms
      cases hms
    · intro variants' hvs
      obtain ⟨variants, hvs'⟩ := variants_back hn hw hvs
      exact absurd hvs' (hno variants)

/-! ## Arrays and variants -/

/-- The items before and after. -/
theorem items_preserves {s : Json} (hs : m.lookup "items" = some s) :
    ∃ s', m'.lookup "items" = some s' ∧ Preserves s s' := by
  have hl : n.lookup "items" = some s := by
    rw [(closeObject_closed hn).other _ (by decide)]
    exact hs
  obtain ⟨s', hl', hclose, hreach, hordered, hplain⟩ :=
    child_pair hn hm hp hw hl ⟨by decide, fun h => absurd h (by decide)⟩
  exact ⟨s', hl', ih s s' hreach hordered hplain (hr.items hs) hclose⟩

theorem array_sound (hno : ∀ variants, m.lookup "anyOf" ≠ some (.array variants))
    {vs : List Json} (hordered : (Json.array vs).Ordered)
    (hvalid : Valid false (.object m') (.array vs)) :
    ∃ u, u.Ordered ∧ Json.Prunes (.array vs) u ∧ Valid true (.object m) u := by
  obtain ⟨us, hall⟩ : ∃ us, List.Forall₂ (fun v u : Json => u.Ordered ∧ Json.Prunes v u ∧
      ∀ s, m.lookup "items" = some s → Valid true s u) vs us := by
    refine exists_forall₂_iff.mpr (fun v hv => ?_)
    cases hs : m.lookup "items" with
    | none =>
        exact ⟨v, hordered.items v hv, Json.Prunes.refl v, fun s h => absurd h (by simp)⟩
    | some s =>
        obtain ⟨s', hs', hpreserves⟩ := items_preserves hn hm hp hw hr ih hs
        obtain ⟨u, hu, hprunes, hvalidu⟩ :=
          hpreserves.sound v (hordered.items v hv) (hvalid.items hs' rfl v hv)
        refine ⟨u, hu, hprunes, fun s₁ h => ?_⟩
        cases h
        exact hvalidu
  have hprunes : Json.Prunes (.array vs) (.array us) :=
    .array (hall.imp (fun _ _ h => h.2.1))
  refine ⟨.array us, .array (fun u hu => ?_), hprunes, ?_⟩
  · obtain ⟨v, -, h⟩ := mem_of_forall₂ hall hu
    exact h.1
  · refine valid_object (says_down hn hm hp hw hprunes hvalid.keywords ?_ ?_) ?_ ?_ ?_ ?_
    · intro ms names hms
      cases hms
    · intro _ ms name hms
      cases hms
    · intro ps ms name w u _ hms
      cases hms
    · intro a ms name u _ hms
      cases hms
    · intro s us' hs hms u hu
      cases hms
      obtain ⟨v, -, h⟩ := mem_of_forall₂ hall hu
      exact h.2.2 s hs
    · intro variants hvs
      exact absurd hvs (hno variants)

theorem array_complete (hno : ∀ variants, m.lookup "anyOf" ≠ some (.array variants))
    {vs : List Json} (hordered : (Json.array vs).Ordered)
    (hvalid : Valid true (.object m) (.array vs)) :
    ∃ u, u.Ordered ∧ Json.Prunes u (.array vs) ∧ Valid false (.object m') u := by
  obtain ⟨us, hall⟩ : ∃ us, List.Forall₂ (fun v u : Json => u.Ordered ∧ Json.Prunes u v ∧
      ∀ s', m'.lookup "items" = some s' → Valid false s' u) vs us := by
    refine exists_forall₂_iff.mpr (fun v hv => ?_)
    cases hs : m.lookup "items" with
    | none =>
        refine ⟨v, hordered.items v hv, Json.Prunes.refl v, fun s' h => ?_⟩
        obtain ⟨s, hs', -⟩ := mapValues_preimage hw h
        rw [(closeObject_closed hn).other _ (by decide), hs] at hs'
        cases hs'
    | some s =>
        obtain ⟨s', hs', hpreserves⟩ := items_preserves hn hm hp hw hr ih hs
        obtain ⟨u, hu, hprunes, hvalidu⟩ :=
          hpreserves.complete v (hordered.items v hv) (hvalid.items hs rfl v hv)
        refine ⟨u, hu, hprunes, fun s₁ h => ?_⟩
        rw [hs'] at h
        cases h
        exact hvalidu
  have hprunes : Json.Prunes (.array us) (.array vs) :=
    .array (hall.imp (fun _ _ h => h.2.1)).flip
  refine ⟨.array us, .array (fun u hu => ?_), hprunes, ?_⟩
  · obtain ⟨v, -, h⟩ := mem_of_forall₂ hall hu
    exact h.1
  · refine valid_object (says_up hn hm hp hw hprunes hvalid.keywords ?_) ?_ ?_ ?_ ?_
    · intro _ ms hms
      cases hms
    · intro ps ms name w u _ hms
      cases hms
    · intro a ms name u _ hms
      cases hms
    · intro s us' hs hms u hu
      cases hms
      obtain ⟨v, -, h⟩ := mem_of_forall₂ hall hu
      exact h.2.2 s hs
    · intro variants' hvs
      obtain ⟨variants, hvs'⟩ := variants_back hn hw hvs
      exact absurd hvs' (hno variants)

/-- The variants are preserved one by one. -/
theorem variants_preserves {variants : List Json}
    (hvs : m.lookup "anyOf" = some (.array variants)) : Preserves (.object m) (.object m') := by
  obtain ⟨variants', hvs', hmap, hall⟩ := variants_pair hn hm hp hw hvs
  have hbare := hr.here.alone (by rw [hvs]; rfl)
  have hchild : ∀ w ∈ variants, ∀ w', closeNativeObjectSchemas w = .ok w' → Preserves w w' := by
    intro w hw' w' hclose
    obtain ⟨hreach, hordered, hplain⟩ := hall w hw'
    exact ih w w' hreach hordered hplain (hr.variant hvs hw') hclose
  constructor
  · intro v hv hvalid
    obtain ⟨w', hw', hvalidw⟩ := hvalid.variant hvs'
    obtain ⟨w, hmem, hclose⟩ := mem_mapM hmap hw'
    obtain ⟨u, hu, hprunes, hvalidu⟩ := (hchild w hmem w' hclose).sound v hv hvalidw
    refine ⟨u, hu, hprunes, valid_bare hbare (fun vs h => ?_)⟩
    rw [hvs] at h
    cases h
    exact ⟨w, hmem, hvalidu⟩
  · intro v hv hvalid
    obtain ⟨w, hmem, hvalidw⟩ := hvalid.variant hvs
    obtain ⟨w', hw', hclose⟩ := mem_of_forall₂ (mapM_ok_iff.mp hmap).flip hmem
    obtain ⟨u, hu, hprunes, hvalidu⟩ := (hchild w hmem w' hclose).complete v hv hvalidw
    refine ⟨u, hu, hprunes, valid_bare (bare_step hn hw hbare) (fun vs h => ?_)⟩
    rw [hvs'] at h
    cases h
    exact ⟨w', hw', hvalidu⟩

/-- One object of the schema. -/
theorem object_preserves : Preserves (.object m) (.object m') := by
  by_cases hany : ∃ variants, m.lookup "anyOf" = some (.array variants)
  · obtain ⟨variants, hvs⟩ := hany
    exact variants_preserves hn hm hp hw hr ih hvs
  · have hno : ∀ variants, m.lookup "anyOf" ≠ some (.array variants) :=
      fun variants hvs => hany ⟨variants, hvs⟩
    have hscalar : ∀ v : Json, v.isScalar = true →
        (Valid false (.object m') v ↔ Valid true (.object m) v) := by
      intro v hv
      constructor
      · intro hvalid
        refine valid_of_scalar hv
          (says_down hn hm hp hw (Json.Prunes.refl v) hvalid.keywords ?_ ?_) (fun vs h => ?_)
        · rintro ms names rfl
          cases hv
        · rintro _ ms name rfl
          cases hv
        · exact absurd h (hno vs)
      · intro hvalid
        refine valid_of_scalar hv
          (says_up hn hm hp hw (Json.Prunes.refl v) hvalid.keywords ?_) (fun vs h => ?_)
        · rintro _ ms rfl
          cases hv
        · obtain ⟨variants, hvs⟩ := variants_back hn hw h
          exact absurd hvs (hno variants)
    constructor
    · intro v hv hvalid
      cases v with
      | object vs => exact object_sound hn hm hp hw hr ih hno hv hvalid
      | array vs => exact array_sound hn hm hp hw hr ih hno hv hvalid
      | _ => exact ⟨_, hv, Json.Prunes.refl _, (hscalar _ rfl).mp hvalid⟩
    · intro v hv hvalid
      cases v with
      | object vs =>
          cases hschema : isObjectSchema m with
          | true => exact object_complete_declared hn hm hp hw hr ih hschema hno hv hvalid
          | false => exact object_complete_open hn hm hp hw hr ih hschema hno hv hvalid
      | array vs => exact array_complete hn hm hp hw hr ih hno hv hvalid
      | _ => exact ⟨_, hv, Json.Prunes.refl _, (hscalar _ rfl).mpr hvalid⟩

end Step

/-- **The strict form of a plain and regular schema means what the schema did.** -/
theorem preserves_of_regular {v out : Json} (hv : v.Ordered) (hp : Plain false v)
    (hr : Regular v) (h : closeNativeObjectSchemas v = .ok out) : Preserves v out := by
  induction hreach : reach v using Nat.strongRecOn generalizing v out with
  | ind r ih =>
      subst hreach
      cases v with
      | object m =>
          obtain ⟨n, m', hn, hw, rfl⟩ := close_object_ok.mp h
          refine object_preserves hn hv (closed_plain (closeObject_closed hn) hp) hw hr ?_
          intro w w' hlt hordered hplain hregular hclose
          exact ih _ hlt hordered hplain hregular hclose rfl
      | bool b =>
          rw [close_scalar rfl] at h
          cases h
          refine ⟨fun u hu hvalid => ?_, fun u hu hvalid => ?_⟩
          · exact ⟨u, hu, Json.Prunes.refl u, valid_bool_iff.mpr (valid_bool_iff.mp hvalid)⟩
          · exact ⟨u, hu, Json.Prunes.refl u, valid_bool_iff.mpr (valid_bool_iff.mp hvalid)⟩
      | _ => cases hr

/-! ## The output schema -/

theorem regular_strictObject {required : List String} {properties : Members}
    (h : ∀ name w, properties.lookup name = some w → Regular w) :
    Regular (strictObject required properties) := by
  refine regular_of_no_anyOf rfl (fun t ht => ?_) (fun e he => ?_) (fun ps name w hps hw => ?_)
    (fun a ha => ?_) (fun s hs => ?_)
  · cases ht
    rfl
  · cases he
  · cases hps
    exact h name w hw
  · cases ha
    exact .bool
  · cases hs

theorem regular_boundedString (maximum : Nat) : Regular (boundedString maximum) := by
  refine regular_of_no_anyOf rfl (fun t ht => ?_) (fun e he => ?_) (fun ps name w hps => ?_)
    (fun a ha => ?_) (fun s hs => ?_)
  · cases ht
    rfl
  · cases he
  · cases hps
  · cases ha
  · cases hs

theorem regular_toolCallsSchema {tool : ProviderTool} (h : Regular tool.inputSchema) :
    Regular (toolCallsSchema tool) := by
  have hcall : Regular (strictObject ["id", "arguments"]
      [("arguments", tool.inputSchema), ("id", boundedString maxToolCallIdBytes)]) := by
    refine regular_strictObject (fun name w hw => ?_)
    rcases List.mem_cons.mp (mem_of_lookup hw) with heq | hmem
    · cases heq
      exact h
    · cases List.mem_singleton.mp hmem
      exact regular_boundedString _
  refine regular_of_no_anyOf rfl (fun t ht => ?_) (fun e he => ?_) (fun ps name w hps => ?_)
    (fun a ha => ?_) (fun s hs => ?_)
  · cases ht
    rfl
  · cases he
  · cases hps
  · cases ha
  · cases hs
    exact hcall

theorem regular_advertisedSchema {tools : List ProviderTool}
    (h : ∀ tool ∈ tools, Regular tool.inputSchema) : Regular (advertisedSchema tools) := by
  unfold advertisedSchema
  split_ifs
  · refine regular_strictObject (fun name w hw => ?_)
    cases List.mem_singleton.mp (mem_of_lookup hw)
    exact regular_boundedString _
  · refine regular_strictObject (fun name w hw => ?_)
    rcases List.mem_cons.mp (mem_of_lookup hw) with heq | hmem
    · cases heq
      exact regular_boundedString _
    · cases List.mem_singleton.mp hmem
      refine regular_strictObject (fun name w hw => ?_)
      obtain ⟨tool, htool, -, hvalue⟩ := mem_toolProperties (mem_of_lookup hw)
      dsimp only at hvalue
      rw [hvalue]
      exact regular_toolCallsSchema (h tool htool)

/-- **What the output schema admits is what was advertised.** -/
theorem output_schema_preserves {tools : List ProviderTool} {out : Json}
    (hordered : ∀ tool ∈ tools, tool.inputSchema.Ordered)
    (hplain : Plain false (advertisedSchema tools))
    (hregular : ∀ tool ∈ tools, Regular tool.inputSchema)
    (hout : modelOutputSchema tools = .ok out) : Preserves (advertisedSchema tools) out :=
  preserves_of_regular (ordered_advertisedSchema hordered) hplain
    (regular_advertisedSchema hregular) hout

/-- A tool whose mode may be left out. -/
def inspectAsset : ProviderTool where
  name := "inspect_asset"
  inputSchema := strictObject ["path"]
    [("mode", .object [("enum", .array [.string "fast", .string "slow"]),
        ("type", .string "string")]),
      ("path", .object [("type", .string "string")])]

theorem optional_mode_preserved :
    ∃ out, modelOutputSchema [inspectAsset] = .ok out ∧
      Preserves (advertisedSchema [inspectAsset]) out := by
  have hpath : ∀ {p}, p ∈ [("type", Json.string "string")] → p.2.isScalar = true := by
    intro p hp
    cases List.mem_singleton.mp hp
    rfl
  have hordered : inspectAsset.inputSchema.Ordered := by
    refine ordered_strictObject (.object (sorted_of_keys ["mode", "path"] (by decide) rfl) ?_)
    simp only [List.forall_mem_cons, List.not_mem_nil, false_imp_iff, implies_true, and_true]
    refine ⟨.object (sorted_of_keys ["enum", "type"] (by decide) rfl) ?_,
      .object (List.pairwise_singleton _ _) (fun p hp => .scalar (hpath hp))⟩
    simp only [List.forall_mem_cons, List.not_mem_nil, false_imp_iff, implies_true, and_true]
    exact ⟨Json.Everywhere.strings ["fast", "slow"], .scalar rfl⟩
  have hmode : Plain true (.object [("enum", .array [.string "fast", .string "slow"]),
      ("type", .string "string")]) := by
    refine .object (fun ps existing hps => ?_) ⟨fun w hw => ?_, fun w hw => ?_⟩
      (fun ps existing name w hps => ?_) (fun k w hw hk => ?_)
    · cases hps
    · cases hw
    · cases hw
      exact .inr (Json.Everywhere.strings ["fast", "slow"])
    · cases hps
    · rw [lookup_cons_ne (schemaKey_ne_enum hk)] at hw
      cases List.mem_singleton.mp (mem_of_lookup hw)
      exact .scalar rfl
  have hplain : Plain false inspectAsset.inputSchema := by
    refine .object (fun ps existing hps he => ?_) ⟨fun w hw => ?_, fun w hw => ?_⟩
      (fun ps existing name w hps he hw => ?_) (fun k w hw hk => ?_)
    · cases hps
      exact ⟨by decide, fun _ => rfl⟩
    · cases hw
    · cases hw
    · cases hps
      cases he
      rcases List.mem_cons.mp (mem_of_lookup hw) with heq | hmem
      · cases heq
        exact hmode
      · cases List.mem_singleton.mp hmem
        exact plain_of_values (by decide) (fun p hp => .scalar (hpath hp))
    · rcases List.mem_cons.mp (mem_of_lookup hw) with heq | hmem
      · cases heq
        exact .scalar rfl
      · simp only [List.mem_cons, List.not_mem_nil, or_false, Prod.mk.injEq] at hmem
        rcases hmem with ⟨rfl, rfl⟩ | ⟨rfl, rfl⟩ | ⟨rfl, rfl⟩
        · have hobject := hk.2 rfl
          cases hobject
        · exact Plain.strings ["path"]
        · exact .scalar rfl
  have hregular : Regular inspectAsset.inputSchema := by
    refine regular_strictObject (fun name w hw => ?_)
    rcases List.mem_cons.mp (mem_of_lookup hw) with heq | hmem
    · cases heq
      refine regular_of_no_anyOf rfl (fun t ht => ?_) (fun e he => ?_) (fun ps name w hps => ?_)
        (fun a ha => ?_) (fun s hs => ?_)
      · cases ht
        rfl
      · cases he
        exact ⟨_, rfl, by decide⟩
      · cases hps
      · cases ha
      · cases hs
    · cases List.mem_singleton.mp hmem
      refine regular_of_no_anyOf rfl (fun t ht => ?_) (fun e he => ?_) (fun ps name w hps => ?_)
        (fun a ha => ?_) (fun s hs => ?_)
      · cases ht
        rfl
      · cases he
      · cases hps
      · cases ha
      · cases hs
  have hok : (modelOutputSchema [inspectAsset]).toBool = true := by decide +kernel
  cases hout : modelOutputSchema [inspectAsset] with
  | error e =>
      rw [hout] at hok
      cases hok
  | ok out =>
      refine ⟨out, rfl, output_schema_preserves (List.forall_mem_singleton.mpr hordered) ?_
        (List.forall_mem_singleton.mpr hregular) hout⟩
      exact plain_advertisedSchema (List.forall_mem_singleton.mpr (by decide))
        (List.forall_mem_singleton.mpr hplain)

end NativeSchema

end Vergerail
