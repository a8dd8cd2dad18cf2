import Mathlib.Data.List.Forall2
import Vergerail.Proof.SchemaWalk

/-!
# A reference validator

What the keywords `type`, `const`, `enum`, `required`, `properties`,
`additionalProperties`, `items` and `anyOf` say about a value. Scalars compare as the
provider compares constants; no other keyword says anything.

`closed` is for the reading of the strict form: an object schema admits only the members
it declares. `Prunes` is what the strict form may change about a value: a member that is
null may be there or not.
-/

namespace Vergerail

open Lib.SortedMap

namespace Json

/-- The type of a value, as `type` names it. -/
def typeName : Json → String
  | .null => "null"
  | .bool _ => "boolean"
  | .number text => if NativeSchema.numberIsIntegral text then "integer" else "number"
  | .string _ => "string"
  | .array _ => "array"
  | .object _ => "object"

/-- The second value is the first without some members that are null, at any depth. -/
inductive Prunes : Json → Json → Prop
  | scalar {v : Json} : v.isScalar = true → Prunes v v
  | array {vs us : List Json} : List.Forall₂ Prunes vs us → Prunes (.array vs) (.array us)
  | object {ms ns : List (String × Json)} :
      (∀ name, ms.lookup name = none → ns.lookup name = none) →
      (∀ name v, ms.lookup name = some v → ns.lookup name = none → v = .null) →
      (∀ name v u, ms.lookup name = some v → ns.lookup name = some u → Prunes v u) →
      Prunes (.object ms) (.object ns)

theorem Prunes.refl (v : Json) : Prunes v v := by
  induction hr : NativeSchema.reach v using Nat.strongRecOn generalizing v with
  | ind r ih =>
      subst hr
      cases v with
      | array items =>
          refine .array (List.forall₂_same.mpr (fun w hw => ?_))
          exact ih _ (NativeSchema.reach_item hw) w rfl
      | object ms =>
          refine .object (fun _ h => h) (fun _ v hv hnone => ?_) (fun _ v u hv hu => ?_)
          · rw [hv] at hnone
            cases hnone
          · rw [hv] at hu
            cases hu
            have hlt := NativeSchema.reach_member (mem_of_lookup hv)
            exact ih _ (by dsimp only at hlt; omega) v rfl
      | _ => exact .scalar rfl

/-- A scalar is pruned to itself. -/
theorem Prunes.of_scalar {v u : Json} (h : Prunes v u) (hv : v.isScalar = true) : u = v := by
  cases h with
  | scalar _ => rfl
  | array _ => cases hv
  | object _ _ _ => cases hv

/-- What is pruned to null is null. -/
theorem Prunes.to_null {v : Json} (h : Prunes v .null) : v = .null := by
  cases h with
  | scalar _ => rfl

end Json

namespace NativeSchema

/-- What the keywords of an object say about a value by themselves. -/
structure Says (closed : Bool) (m : Members) (v : Json) : Prop where
  type : ∀ t, m.lookup "type" = some t → nativeTypeIncludes t v.typeName = true
  const : ∀ c, m.lookup "const" = some c → primitiveSchemaValuesEqual v c = true
  enum : ∀ values, m.lookup "enum" = some (.array values) →
    ∃ w ∈ values, primitiveSchemaValuesEqual v w = true
  required : ∀ ms names, v = .object ms → existingRequired m = .ok names →
    ∀ name ∈ names, (ms.lookup name).isSome = true
  declared : closed = true → isObjectSchema m = true → ∀ ms name, v = .object ms →
    (ms.lookup name).isSome = true → name ∈ propertyNames m

/-- The value is valid against the schema. -/
inductive Valid (closed : Bool) : Json → Json → Prop
  | always {v : Json} : Valid closed (.bool true) v
  | object {m : Members} {v : Json} (choice : Json) : Says closed m v →
      (∀ ps ms name w u, m.lookup "properties" = some (.object ps) → v = .object ms →
        ps.lookup name = some w → ms.lookup name = some u → Valid closed w u) →
      (∀ a ms name u, m.lookup "additionalProperties" = some a → v = .object ms →
        ms.lookup name = some u → name ∉ propertyNames m → Valid closed a u) →
      (∀ s us u, m.lookup "items" = some s → v = .array us → u ∈ us → Valid closed s u) →
      -- one of the variants of `anyOf`
      (∀ variants, m.lookup "anyOf" = some (.array variants) → choice ∈ variants) →
      (∀ variants, m.lookup "anyOf" = some (.array variants) → Valid closed choice v) →
      Valid closed (.object m) v

section Reading

variable {closed : Bool} {m : Members} {v : Json}

theorem Valid.keywords (h : Valid closed (.object m) v) : Says closed m v := by
  cases h with
  | object _ hkeywords _ _ _ _ _ => exact hkeywords

theorem Valid.property (h : Valid closed (.object m) v) {ps ms : Members} {name : String}
    {w u : Json} (hps : m.lookup "properties" = some (.object ps)) (hv : v = .object ms)
    (hw : ps.lookup name = some w) (hu : ms.lookup name = some u) : Valid closed w u := by
  cases h with
  | object _ _ hproperty _ _ _ _ => exact hproperty ps ms name w u hps hv hw hu

theorem Valid.additional (h : Valid closed (.object m) v) {a u : Json} {ms : Members}
    {name : String} (ha : m.lookup "additionalProperties" = some a) (hv : v = .object ms)
    (hu : ms.lookup name = some u) (hname : name ∉ propertyNames m) : Valid closed a u := by
  cases h with
  | object _ _ _ hadditional _ _ _ => exact hadditional a ms name u ha hv hu hname

theorem Valid.items (h : Valid closed (.object m) v) {s : Json} {us : List Json}
    (hs : m.lookup "items" = some s) (hv : v = .array us) : ∀ u ∈ us, Valid closed s u := by
  cases h with
  | object _ _ _ _ hitems _ _ => exact fun u hu => hitems s us u hs hv hu

theorem Valid.variant (h : Valid closed (.object m) v) {variants : List Json}
    (hvariants : m.lookup "anyOf" = some (.array variants)) :
    ∃ w ∈ variants, Valid closed w v := by
  cases h with
  | object choice _ _ _ _ hmem hvalid => exact ⟨choice, hmem _ hvariants, hvalid _ hvariants⟩

theorem valid_object (hkeywords : Says closed m v)
    (hproperty : ∀ ps ms name w u, m.lookup "properties" = some (.object ps) → v = .object ms →
      ps.lookup name = some w → ms.lookup name = some u → Valid closed w u)
    (hadditional : ∀ a ms name u, m.lookup "additionalProperties" = some a → v = .object ms →
      ms.lookup name = some u → name ∉ propertyNames m → Valid closed a u)
    (hitems : ∀ s us, m.lookup "items" = some s → v = .array us → ∀ u ∈ us, Valid closed s u)
    (hvariant : ∀ variants, m.lookup "anyOf" = some (.array variants) →
      ∃ w ∈ variants, Valid closed w v) : Valid closed (.object m) v := by
  have hitems' : ∀ s us u, m.lookup "items" = some s → v = .array us → u ∈ us →
      Valid closed s u := fun s us u hs hv hu => hitems s us hs hv u hu
  by_cases hany : ∃ variants, m.lookup "anyOf" = some (.array variants)
  · obtain ⟨variants, hvariants⟩ := hany
    obtain ⟨w, hw, hvalid⟩ := hvariant variants hvariants
    refine .object w hkeywords hproperty hadditional hitems' (fun vs hvs => ?_) (fun _ _ => hvalid)
    rw [hvariants] at hvs
    cases hvs
    exact hw
  · exact .object .null hkeywords hproperty hadditional hitems'
      (fun vs hvs => absurd ⟨vs, hvs⟩ hany) (fun vs hvs => absurd ⟨vs, hvs⟩ hany)

/-- A truth value says all or nothing. -/
theorem valid_bool_iff {b : Bool} : Valid closed (.bool b) v ↔ b = true := by
  constructor
  · intro h
    cases h with
    | always => rfl
  · rintro rfl
    exact .always

/-- Objects that differ in their types, constants and enumerations only. -/
theorem Valid.of_keywords {n : Members} (h : Valid closed (.object m) v)
    (hkeywords : Says closed n v)
    (hother : ∀ k ∈ ["properties", "additionalProperties", "items", "anyOf"],
      n.lookup k = m.lookup k) : Valid closed (.object n) v := by
  have hnames : propertyNames n = propertyNames m := by
    unfold propertyNames
    rw [hother "properties" (by decide)]
  refine valid_object hkeywords ?_ ?_ ?_ ?_
  · intro ps ms name w u hps hv hw hu
    exact h.property ((hother "properties" (by decide)) ▸ hps) hv hw hu
  · intro a ms name u ha hv hu hname
    exact h.additional ((hother "additionalProperties" (by decide)) ▸ ha) hv hu (hnames ▸ hname)
  · intro s us hs hv
    exact h.items ((hother "items" (by decide)) ▸ hs) hv
  · intro variants hvariants
    exact h.variant ((hother "anyOf" (by decide)) ▸ hvariants)

/-- Of a scalar only the keywords by themselves and the variants say anything. -/
theorem valid_of_scalar (hs : v.isScalar = true) (hkeywords : Says closed m v)
    (hvariant : ∀ variants, m.lookup "anyOf" = some (.array variants) →
      ∃ w ∈ variants, Valid closed w v) : Valid closed (.object m) v := by
  refine valid_object hkeywords ?_ ?_ ?_ hvariant
  · rintro ps ms name w u - rfl
    cases hs
  · rintro a ms name u - rfl
    cases hs
  · rintro s us - rfl
    cases hs

end Reading

end NativeSchema

end Vergerail
