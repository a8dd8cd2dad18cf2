import Vergerail.Runtime.Schema

/-!
# Canonical JSON is canonical

What is written for a value is the plain text of the value with the members of every object
in the order of their keys. A plain text is read back, so it determines the sorted value; and
the sorted value determines the value up to the order of the members, since sorting only
reorders them and answers the same for every reordering.
-/

namespace Vergerail

open Lib

namespace Json

/-! ## Values up to the order of members -/

mutual

/-- Equal up to the order of object members at every depth. -/
inductive SameValue : Json → Json → Prop
  | null : SameValue .null .null
  | bool (b : Bool) : SameValue (.bool b) (.bool b)
  | number (text : String) : SameValue (.number text) (.number text)
  | string (s : String) : SameValue (.string s) (.string s)
  | array {items items' : List Json} : SameItems items items' →
      SameValue (.array items) (.array items')
  | object {members middle members' : List (String × Json)} : SameMembers members middle →
      middle.Perm members' → SameValue (.object members) (.object members')

/-- The items are the same one by one. -/
inductive SameItems : List Json → List Json → Prop
  | nil : SameItems [] []
  | cons {item item' : Json} {items items' : List Json} : SameValue item item' →
      SameItems items items' → SameItems (item :: items) (item' :: items')

/-- The members have the same keys, and the same values one by one. -/
inductive SameMembers : List (String × Json) → List (String × Json) → Prop
  | nil : SameMembers [] []
  | cons {key : String} {value value' : Json} {members members' : List (String × Json)} :
      SameValue value value' → SameMembers members members' →
      SameMembers ((key, value) :: members) ((key, value') :: members')

end

/-! ## The sorted value -/

mutual

/-- The value with the members of every object in the order of their keys. -/
def sorted : Json → Json
  | array items => array (sortedItems items)
  | object members => object (KeyOrder.ordered null (sortedMembers members))
  | null => null
  | bool b => bool b
  | number text => number text
  | string s => string s

def sortedItems : List Json → List Json
  | [] => []
  | item :: items => sorted item :: sortedItems items

def sortedMembers : List (String × Json) → List (String × Json)
  | [] => []
  | (key, value) :: members => (key, sorted value) :: sortedMembers members

end

theorem sortedItems_eq (items : List Json) : sortedItems items = items.map sorted := by
  induction items with
  | nil => rfl
  | cons item items ih => rw [sortedItems, ih, List.map_cons]

theorem sortedMembers_eq (members : List (String × Json)) :
    sortedMembers members = SortedMap.map sorted members := by
  induction members with
  | nil => rfl
  | cons member members ih =>
      obtain ⟨key, value⟩ := member
      rw [sortedMembers, ih]
      rfl

theorem canonicalItems_eq (items : List Json) :
    canonicalItems items = items.map canonicalChars := by
  induction items with
  | nil => rfl
  | cons item items ih => rw [canonicalItems, ih, List.map_cons]

theorem canonicalMembers_eq (members : List (String × Json)) :
    canonicalMembers members = SortedMap.map canonicalChars members := by
  induction members with
  | nil => rfl
  | cons member members ih =>
      obtain ⟨key, value⟩ := member
      rw [canonicalMembers, ih]
      rfl

theorem keys_map {α β : Type} (f : α → β) (members : List (String × α)) :
    SortedMap.keys (SortedMap.map f members) = SortedMap.keys members := by
  unfold SortedMap.keys SortedMap.map
  rw [List.map_map]
  rfl

/-! ## What is written -/

theorem commaSeparated_cons (text next : List Char) (texts : List (List Char)) :
    commaSeparated (text :: next :: texts) = text ++ ',' :: commaSeparated (next :: texts) := by
  unfold commaSeparated
  rw [List.intercalate_cons_cons]
  simp

theorem itemsChars_eq (items : List Json) :
    itemsChars items = commaSeparated (items.map chars) := by
  induction items with
  | nil => rfl
  | cons item items ih =>
      cases items with
      | nil => rw [itemsChars, List.map_singleton]; simp [commaSeparated]
      | cons next items =>
          rw [itemsChars_more, ih]
          simp only [List.map_cons]
          rw [commaSeparated_cons]

theorem membersChars_eq (members : List (String × Json)) :
    membersChars members =
      commaSeparated (members.map (fun member => quoted member.1 ++ ':' :: chars member.2)) := by
  induction members with
  | nil => rfl
  | cons member members ih =>
      obtain ⟨key, value⟩ := member
      cases members with
      | nil => rw [membersChars, List.map_singleton]; simp [commaSeparated]
      | cons next members =>
          rw [membersChars_more, ih]
          simp only [List.map_cons]
          rw [commaSeparated_cons]
          simp

/-- **What is written is the text of the sorted value.** -/
theorem canonicalChars_eq {value : Json} (h : value.UniqueKeys) :
    value.canonicalChars = value.sorted.chars := by
  induction h with
  | null => rw [canonicalChars, sorted]
  | bool b => rw [canonicalChars, sorted]
  | number text => rw [canonicalChars, sorted]
  | string s => rw [canonicalChars, sorted]
  | @array items _ ih =>
      rw [canonicalChars, sorted, chars, itemsChars_eq, canonicalItems_eq, sortedItems_eq,
        List.map_map, List.map_congr_left ih]
      rfl
  | @object members hkeys _ ih =>
      rw [canonicalChars, sorted, chars, membersChars_eq, canonicalMembers_eq, sortedMembers_eq]
      unfold KeyOrder.ordered
      have hsorted : KeyOrder.sortedKeys (SortedMap.map canonicalChars members)
          = KeyOrder.sortedKeys (SortedMap.map sorted members) := by
        refine KeyOrder.sortedKeys_eq ?_
        rw [keys_map, keys_map]
      rw [hsorted, List.map_map]
      congr 3
      refine List.map_congr_left fun key hkey => ?_
      have hmem := (KeyOrder.sortedKeys_perm _).subset hkey
      rw [keys_map] at hmem
      obtain ⟨value, hlookup⟩ := Option.isSome_iff_exists.mp (SortedMap.mem_keys_iff.mp hmem)
      rw [Function.comp_apply, SortedMap.lookup_map, SortedMap.lookup_map, hlookup]
      change _ ++ ':' :: canonicalChars value = _ ++ ':' :: (sorted value).chars
      rw [ih (key, value) (SortedMap.mem_of_lookup hlookup)]

/-- The numbers stay numbers. -/
theorem numbersOk_sorted {value : Json} (h : value.UniqueKeys) (hnumbers : value.NumbersOk) :
    value.sorted.NumbersOk := by
  induction h with
  | null => rw [sorted]; exact .null
  | bool b => rw [sorted]; exact .bool b
  | number text => rwa [sorted]
  | string s => rw [sorted]; exact .string s
  | array _ ih =>
      cases hnumbers with
      | array hitems =>
          rw [sorted, sortedItems_eq]
          refine .array fun item hitem => ?_
          obtain ⟨item, hmem, rfl⟩ := List.mem_map.mp hitem
          exact ih item hmem (hitems item hmem)
  | object hkeys _ ih =>
      cases hnumbers with
      | object hmembers =>
          rw [sorted, sortedMembers_eq]
          refine .object fun member hmember => ?_
          have hmem := KeyOrder.mem_of_mem_ordered (by rw [keys_map]; exact hkeys) hmember
          obtain ⟨source, hsource, rfl⟩ := List.mem_map.mp hmem
          exact ih source hsource (hmembers source hsource)

/-! ## Sorting and the order of members -/

/-- Values that are the same are sorted into one. -/
theorem sorted_eq_of_same {value value' : Json} (h : SameValue value value') :
    value.UniqueKeys → value.sorted = value'.sorted := by
  refine @SameValue.rec (fun value value' _ => value.UniqueKeys → value.sorted = value'.sorted)
    (fun items items' _ => (∀ item ∈ items, item.UniqueKeys) →
      items.map sorted = items'.map sorted)
    (fun members members' _ => (∀ member ∈ members, member.2.UniqueKeys) →
      SortedMap.map sorted members = SortedMap.map sorted members')
    ?null ?bool ?number ?string ?array ?object ?noItem ?item ?noMember ?member value value' h
  case null => exact fun _ => rfl
  case bool => exact fun _ _ => rfl
  case number => exact fun _ _ => rfl
  case string => exact fun _ _ => rfl
  case array =>
    intro items items' _ ih hunique
    cases hunique with
    | array hitems => rw [sorted, sorted, sortedItems_eq, sortedItems_eq, ih hitems]
  case object =>
    intro members middle members' _ hperm ih hunique
    cases hunique with
    | object hkeys hmembers =>
        have hmiddle : (SortedMap.keys (SortedMap.map sorted middle)).Nodup := by
          rw [← ih hmembers, keys_map]
          exact hkeys
        rw [sorted, sorted, sortedMembers_eq, sortedMembers_eq, ih hmembers]
        exact congrArg object (KeyOrder.ordered_eq_of_perm hmiddle (hperm.map _))
  case noItem => exact fun _ => rfl
  case item =>
    intro item item' items items' _ _ ih ih' hunique
    obtain ⟨hitem, hitems⟩ := List.forall_mem_cons.mp hunique
    rw [List.map_cons, List.map_cons, ih hitem, ih' hitems]
  case noMember => exact fun _ => rfl
  case member =>
    intro key value value' members members' _ _ ih ih' hunique
    obtain ⟨hvalue, hmembers⟩ := List.forall_mem_cons.mp hunique
    change (key, value.sorted) :: SortedMap.map sorted members
      = (key, value'.sorted) :: SortedMap.map sorted members'
    rw [ih hvalue, ih' hmembers]

theorem sameItems_of_map_eq {items items' : List Json}
    (ih : ∀ item ∈ items, ∀ item', item'.UniqueKeys → item.sorted = item'.sorted →
      SameValue item item')
    (hunique : ∀ item' ∈ items', item'.UniqueKeys) (h : items.map sorted = items'.map sorted) :
    SameItems items items' := by
  induction items generalizing items' with
  | nil =>
      rw [List.map_nil] at h
      rw [List.map_eq_nil_iff.mp h.symm]
      exact .nil
  | cons item items ihItems =>
      cases items' with
      | nil => cases h
      | cons item' items' =>
          obtain ⟨hhead, htail⟩ := List.cons.inj h
          obtain ⟨hitem', hitems'⟩ := List.forall_mem_cons.mp hunique
          obtain ⟨ihItem, ihRest⟩ := List.forall_mem_cons.mp ih
          exact .cons (ihItem item' hitem' hhead) (ihItems ihRest hitems' htail)

theorem sameMembers_of_map_eq {members members' : List (String × Json)}
    (ih : ∀ member ∈ members, ∀ value', value'.UniqueKeys → member.2.sorted = value'.sorted →
      SameValue member.2 value')
    (hunique : ∀ member' ∈ members', member'.2.UniqueKeys)
    (h : SortedMap.map sorted members = SortedMap.map sorted members') :
    SameMembers members members' := by
  induction members generalizing members' with
  | nil =>
      rw [List.map_eq_nil_iff.mp h.symm]
      exact .nil
  | cons member members ihMembers =>
      cases members' with
      | nil => cases h
      | cons member' members' =>
          obtain ⟨key, value⟩ := member
          obtain ⟨key', value'⟩ := member'
          obtain ⟨hhead, htail⟩ := List.cons.inj h
          obtain ⟨rfl, hvalue⟩ := Prod.mk.inj hhead
          obtain ⟨hvalue', hmembers'⟩ := List.forall_mem_cons.mp hunique
          obtain ⟨ihValue, ihRest⟩ := List.forall_mem_cons.mp ih
          exact .cons (ihValue value' hvalue' hvalue) (ihMembers ihRest hmembers' htail)

/-- Values that are sorted into one are the same. -/
theorem same_of_sorted_eq {value value' : Json} (h : value.UniqueKeys) (h' : value'.UniqueKeys)
    (heq : value.sorted = value'.sorted) : SameValue value value' := by
  induction h generalizing value' with
  | null =>
      cases h' <;> simp only [sorted, reduceCtorEq] at heq
      exact .null
  | bool b =>
      cases h' <;> simp only [sorted, reduceCtorEq, bool.injEq] at heq
      rw [heq]
      exact .bool _
  | number text =>
      cases h' <;> simp only [sorted, reduceCtorEq, number.injEq] at heq
      rw [heq]
      exact .number _
  | string s =>
      cases h' <;> simp only [sorted, reduceCtorEq, string.injEq] at heq
      rw [heq]
      exact .string _
  | array _ ih =>
      cases h' <;> simp only [sorted, reduceCtorEq, array.injEq] at heq
      rename_i hitems'
      rw [sortedItems_eq, sortedItems_eq] at heq
      exact .array (sameItems_of_map_eq (fun item hitem item' => ih item hitem) hitems' heq)
  | @object members hkeys _ ih =>
      cases h' <;> simp only [sorted, reduceCtorEq, object.injEq] at heq
      rename_i members' hkeys' hmembers'
      rw [sortedMembers_eq, sortedMembers_eq] at heq
      have hperm := KeyOrder.perm_of_ordered_eq (by rw [keys_map]; exact hkeys)
        (by rw [keys_map]; exact hkeys') heq
      obtain ⟨middle, hmiddle, hmap⟩ := KeyOrder.exists_perm_of_map_perm hperm
      refine .object (sameMembers_of_map_eq (fun member hmember value' => ih member hmember) ?_
        hmap) hmiddle
      exact fun member hmember => hmembers' member (hmiddle.subset hmember)

end Json

/-! ## The bytes and the digest -/

open Json

theorem writeCanonicalJson_eq (value : SchemaValue) :
    value.json.writeCanonicalJson = value.json.sorted.toBytes := by
  unfold writeCanonicalJson
  rw [canonicalChars_eq value.unique]
  rfl

/-- A text is known by its bytes. -/
theorem text_of_bytes {a b : String} (h : a.toUTF8.data.toList = b.toUTF8.data.toList) : a = b := by
  have hdata : a.toUTF8 = b.toUTF8 := ByteArray.ext (Array.toList_inj.mp h)
  exact String.toByteArray_inj.mp hdata

/-- **The same bytes are written for the same values only.** -/
theorem writeCanonicalJson_iff (left right : SchemaValue) :
    left.json.writeCanonicalJson = right.json.writeCanonicalJson ↔
      SameValue left.json right.json := by
  rw [writeCanonicalJson_eq, writeCanonicalJson_eq]
  constructor
  · intro h
    have htext : left.json.sorted.toText = right.json.sorted.toText := text_of_bytes h
    have hleft := read_toText (numbersOk_sorted left.unique left.numbers)
    rw [htext, read_toText (numbersOk_sorted right.unique right.numbers)] at hleft
    exact same_of_sorted_eq left.unique right.unique (Option.some.inj hleft).symm
  · intro h
    rw [sorted_eq_of_same h left.unique]

/-- **Canonical JSON is canonical.** The bytes are those of the value up to the order of its
members. So the digest depends on the value only, and where it does not collide it tells two
values apart. -/
theorem canonical_json_identifies :
    (∀ left right : SchemaValue, left.json.writeCanonicalJson = right.json.writeCanonicalJson ↔
      SameValue left.json right.json) ∧
    ∀ (env : SchemaEnv) (a b : List UInt8) (left right : SchemaValue),
      env.fromSlice a = .ok left → env.fromSlice b = .ok right →
      (SameValue left.json right.json → canonicalJsonSha256 env a = canonicalJsonSha256 env b) ∧
      ((env.hashBytes left.json.writeCanonicalJson = env.hashBytes right.json.writeCanonicalJson →
          left.json.writeCanonicalJson = right.json.writeCanonicalJson) →
        canonicalJsonSha256 env a = canonicalJsonSha256 env b →
        SameValue left.json right.json) := by
  refine ⟨writeCanonicalJson_iff, ?_⟩
  intro env a b left right ha hb
  have hleft : canonicalJsonSha256 env a = .ok (env.hashBytes left.json.writeCanonicalJson) := by
    rw [canonicalJsonSha256, ha]
  have hright : canonicalJsonSha256 env b = .ok (env.hashBytes right.json.writeCanonicalJson) := by
    rw [canonicalJsonSha256, hb]
  rw [hleft, hright]
  constructor
  · intro h
    rw [(writeCanonicalJson_iff left right).mpr h]
  · intro hcollision h
    exact (writeCanonicalJson_iff left right).mp (hcollision (Except.ok.inj h))

/-- The members of `{"a":3,"b":5}`, forwards and backwards. -/
def forwards : SchemaValue where
  json := .object [("a", .number "3"), ("b", .number "5")]
  unique := by
    refine .object (by decide) fun member hmember => ?_
    rcases List.mem_pair.mp hmember with rfl | rfl <;> exact .number _
  numbers := by
    refine .object fun member hmember => ?_
    rcases List.mem_pair.mp hmember with rfl | rfl <;> exact .number (by decide)

def backwards : SchemaValue where
  json := .object [("b", .number "5"), ("a", .number "3")]
  unique := by
    refine .object (by decide) fun member hmember => ?_
    rcases List.mem_pair.mp hmember with rfl | rfl <;> exact .number _
  numbers := by
    refine .object fun member hmember => ?_
    rcases List.mem_pair.mp hmember with rfl | rfl <;> exact .number (by decide)

/-- A parser and a digest that know the two documents. -/
def twoDocuments : SchemaEnv where
  fromSlice bytes :=
    if bytes = "\x7b\"a\":3,\"b\":5\x7d".toUTF8.data.toList then .ok forwards
    else if bytes = "\x7b\"b\":5,\"a\":3\x7d".toUTF8.data.toList then .ok backwards
    else .error "unknown"
  hashBytes bytes :=
    if bytes = "\x7b\"a\":3,\"b\":5\x7d".toUTF8.data.toList then
      "37e34eabc9ca2fb59c665d412a97352d15aba5f075f31bd67f13006d81dc6930"
    else ""

theorem forwards_written :
    forwards.json.writeCanonicalJson = "\x7b\"a\":3,\"b\":5\x7d".toUTF8.data.toList := by
  have hkeys : KeyOrder.sortedKeys (canonicalMembers [("a", number "3"), ("b", number "5")])
      = ["a", "b"] := List.mergeSort_of_pairwise (by decide)
  have hchars : forwards.json.canonicalChars = "\x7b\"a\":3,\"b\":5\x7d".toList := by
    unfold forwards
    rw [canonicalChars]
    rw [hkeys, String.toList_ofList]
    rfl
  rw [writeCanonicalJson, hchars, String.ofList_toList]

theorem backwards_ne : ¬ "\x7b\"b\":5,\"a\":3\x7d".toUTF8.data.toList
    = "\x7b\"a\":3,\"b\":5\x7d".toUTF8.data.toList := by decide
/-- The two documents have one digest, and where it does not collide they are one value. -/
theorem canonical_json_identifies_reordered :
    canonicalJsonSha256 twoDocuments "\x7b\"b\":5,\"a\":3\x7d".toUTF8.data.toList
        = .ok "37e34eabc9ca2fb59c665d412a97352d15aba5f075f31bd67f13006d81dc6930" ∧
      SameValue forwards.json backwards.json := by
  have hforwards : twoDocuments.fromSlice "\x7b\"a\":3,\"b\":5\x7d".toUTF8.data.toList
      = .ok forwards := by
    dsimp only [twoDocuments]
    rw [if_pos rfl]
  have hbackwards : twoDocuments.fromSlice "\x7b\"b\":5,\"a\":3\x7d".toUTF8.data.toList
      = .ok backwards := by
    dsimp only [twoDocuments]
    rw [if_neg backwards_ne, if_pos rfl]
  have hsame : SameValue forwards.json backwards.json :=
    .object (.cons (.number _) (.cons (.number _) .nil)) (List.Perm.swap _ _ _)
  have hwritten := (canonical_json_identifies.1 forwards backwards).mpr hsame
  obtain ⟨hdigest, hidentify⟩ := canonical_json_identifies.2 twoDocuments _ _ forwards backwards
    hforwards hbackwards
  have hone : canonicalJsonSha256 twoDocuments "\x7b\"a\":3,\"b\":5\x7d".toUTF8.data.toList
      = .ok "37e34eabc9ca2fb59c665d412a97352d15aba5f075f31bd67f13006d81dc6930" := by
    rw [canonicalJsonSha256, hforwards]
    dsimp only
    rw [forwards_written]
    dsimp only [twoDocuments]
    rw [if_pos rfl]
  exact ⟨(hdigest hsame).symm.trans hone, hidentify (fun _ => hwritten) (hdigest hsame)⟩

end Vergerail
