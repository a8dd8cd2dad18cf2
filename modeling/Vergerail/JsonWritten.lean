import Mathlib.Algebra.BigOperators.Group.List.Basic
import Vergerail.JsonText
import Vergerail.Private.Process
import Vergerail.Lib.CharBoundary

/-!
# JSON texts of a value in general

A value has many texts: a writer is free to escape what it likes, and to choose the order of
the members of an object. What is fixed here is that there is no white space, that a number
is written as `serde_json` prints it, and how many bytes of a text a byte of a string may
take. That bounds the length of every such text.
-/

namespace Vergerail

namespace Json

/-- A string literal: every character is written in some way that is not longer than the
expansion allows for its bytes. -/
def WrittenString (expansion : Nat) (s : String) (out : List UInt8) : Prop :=
  ∃ pieces : List (List UInt8),
    List.Forall₂ (fun (c : Char) piece => piece.length ≤ expansion * c.utf8Size) s.toList pieces ∧
      out = 0x22 :: (pieces.flatten ++ [0x22])

mutual

/-- The texts of a value. -/
inductive Written (expansion : Nat) : Json → List UInt8 → Prop
  | null : Written expansion .null (toBytes .null)
  | bool (b : Bool) : Written expansion (.bool b) (toBytes (.bool b))
  | number (text : String) : Written expansion (.number text) (toBytes (.number text))
  | string {s : String} {out : List UInt8} : WrittenString expansion s out →
      Written expansion (.string s) out
  | array {items : List Json} {out : List UInt8} : WrittenItems expansion items out →
      Written expansion (.array items) (0x5b :: (out ++ [0x5d]))
  | object {members members' : List (String × Json)} {out : List UInt8} :
      members.Perm members' → WrittenMembers expansion members' out →
      Written expansion (.object members) (0x7b :: (out ++ [0x7d]))

/-- The texts of the items of an array. -/
inductive WrittenItems (expansion : Nat) : List Json → List UInt8 → Prop
  | nil : WrittenItems expansion [] []
  | one {item : Json} {out : List UInt8} : Written expansion item out →
      WrittenItems expansion [item] out
  | more {item next : Json} {items : List Json} {out out' : List UInt8} :
      Written expansion item out → WrittenItems expansion (next :: items) out' →
      WrittenItems expansion (item :: next :: items) (out ++ 0x2c :: out')

/-- The texts of the members of an object. -/
inductive WrittenMembers (expansion : Nat) : List (String × Json) → List UInt8 → Prop
  | nil : WrittenMembers expansion [] []
  | one {key : String} {value : Json} {name out : List UInt8} :
      WrittenString expansion key name → Written expansion value out →
      WrittenMembers expansion [(key, value)] (name ++ 0x3a :: out)
  | more {key : String} {value : Json} {next : String × Json} {members : List (String × Json)}
      {name out out' : List UInt8} :
      WrittenString expansion key name → Written expansion value out →
      WrittenMembers expansion (next :: members) out' →
      WrittenMembers expansion ((key, value) :: next :: members)
        (name ++ 0x3a :: (out ++ 0x2c :: out'))

end

/-! ## The length of a text -/

mutual

/-- A bound on the length of the texts of a value, with a comma behind every item. -/
def widest (expansion : Nat) : Json → Nat
  | null => 4
  | bool _ => 5
  | number text => text.utf8ByteSize
  | string s => 2 + expansion * s.utf8ByteSize
  | array items => 2 + itemsWidest expansion items
  | object members => 2 + membersWidest expansion members

def itemsWidest (expansion : Nat) : List Json → Nat
  | [] => 0
  | item :: items => item.widest expansion + 1 + itemsWidest expansion items

def membersWidest (expansion : Nat) : List (String × Json) → Nat
  | [] => 0
  | (key, value) :: members =>
      2 + expansion * key.utf8ByteSize + 1 + value.widest expansion + 1
        + membersWidest expansion members

end

variable {expansion : Nat}

theorem length_writtenString {s : String} {out : List UInt8} (h : WrittenString expansion s out) :
    out.length ≤ 2 + expansion * s.utf8ByteSize := by
  obtain ⟨pieces, hpieces, rfl⟩ := h
  have hflat : ∀ {cs : List Char} {pieces : List (List UInt8)},
      List.Forall₂ (fun (c : Char) piece => piece.length ≤ expansion * c.utf8Size) cs pieces →
      pieces.flatten.length ≤ expansion * Lib.utf8Bytes cs := by
    intro cs pieces hall
    induction hall with
    | nil => exact Nat.zero_le _
    | cons hpiece _ ih =>
        rw [List.flatten_cons, List.length_append, Lib.utf8Bytes_cons, Nat.mul_add]
        omega
  have hbody := hflat hpieces
  rw [Lib.utf8Bytes_toList] at hbody
  rw [List.length_cons, List.length_append, List.length_singleton]
  omega

theorem membersWidest_eq (members : List (String × Json)) :
    membersWidest expansion members = (members.map (fun member =>
      2 + expansion * member.1.utf8ByteSize + 1 + member.2.widest expansion + 1)).sum := by
  induction members with
  | nil => rfl
  | cons member members ih =>
      obtain ⟨key, value⟩ := member
      rw [membersWidest, ih, List.map_cons, List.sum_cons]

/-- The order of the members does not matter. -/
theorem membersWidest_perm {members members' : List (String × Json)}
    (h : members.Perm members') :
    membersWidest expansion members' = membersWidest expansion members := by
  rw [membersWidest_eq, membersWidest_eq]
  exact (h.map _).sum_nat.symm

theorem length_scalar (text : String) : (toBytes (.number text)).length = text.utf8ByteSize := by
  change (String.ofList (chars (.number text))).utf8ByteSize = _
  rw [chars, String.ofList_toList]

/-- **The length of a text.** The induction goes over the values, the items and the members
together. -/
theorem length_written {value : Json} {out : List UInt8} (h : Written expansion value out) :
    out.length ≤ value.widest expansion := by
  refine @Written.rec expansion (fun value out _ => out.length ≤ value.widest expansion)
    (fun items out _ => out.length ≤ itemsWidest expansion items)
    (fun members out _ => out.length ≤ membersWidest expansion members)
    ?null ?bool ?number ?string ?array ?object ?noItem ?oneItem ?moreItems ?noMember ?oneMember
    ?moreMembers value out h
  case null => exact Nat.le_refl 4
  case bool =>
    intro b
    change _ ≤ 5
    cases b <;> decide
  case number => exact fun text => Nat.le_of_eq (length_scalar text)
  case string => exact fun hs => length_writtenString hs
  case array =>
    intro items out _ ih
    rw [widest, List.length_cons, List.length_append, List.length_singleton]
    omega
  case object =>
    intro members members' out hperm _ ih
    rw [membersWidest_perm hperm] at ih
    rw [widest, List.length_cons, List.length_append, List.length_singleton]
    omega
  case noItem => exact Nat.zero_le _
  case oneItem =>
    intro item out _ ih
    rw [itemsWidest, itemsWidest]
    omega
  case moreItems =>
    intro item next items out out' _ _ ih ih'
    rw [itemsWidest, List.length_append, List.length_cons]
    omega
  case noMember => exact Nat.zero_le _
  case oneMember =>
    intro key value name out hname _ ih
    have := length_writtenString hname
    rw [membersWidest, membersWidest, List.length_append, List.length_cons]
    omega
  case moreMembers =>
    intro key value next members name out out' hname _ _ ih ih'
    have := length_writtenString hname
    rw [membersWidest, List.length_append, List.length_cons, List.length_append,
      List.length_cons]
    omega

/-! ## The text that `serde_json` writes -/

theorem utf8Size_le_charBytes (c : Char) : c.utf8Size ≤ charBytes c := by
  unfold charBytes
  split
  · rename_i hshort
    simp only [List.mem_cons, List.not_mem_nil, or_false] at hshort
    rcases hshort with rfl | rfl | rfl | rfl | rfl | rfl | rfl <;> decide
  · split
    · have := c.utf8Size_le_four
      omega
    · exact Nat.le_refl _

theorem utf8ByteSize_le_stringBytes (s : String) : 2 + s.utf8ByteSize ≤ stringBytes s := by
  have hsum : ∀ cs : List Char, Lib.utf8Bytes cs ≤ (cs.map charBytes).sum := by
    intro cs
    induction cs with
    | nil => exact Nat.zero_le _
    | cons c cs ih =>
        have := utf8Size_le_charBytes c
        rw [Lib.utf8Bytes_cons, List.map_cons, List.sum_cons]
        omega
  have := hsum s.toList
  rw [Lib.utf8Bytes_toList] at this
  unfold stringBytes
  omega

mutual

/-- No text is longer than the one that `serde_json` writes by more than the expansion. -/
theorem widest_le (hexpansion : 2 ≤ expansion) (value : Json) :
    value.widest expansion ≤ expansion * value.encodedBytes := by
  cases value with
  | null => rw [widest, encodedBytes]; omega
  | bool b => cases b <;> rw [widest, encodedBytes] <;> omega
  | number text => rw [widest, encodedBytes]; exact Nat.le_mul_of_pos_left _ (by omega)
  | string s =>
      have := Nat.mul_le_mul_left expansion (utf8ByteSize_le_stringBytes s)
      rw [Nat.mul_add] at this
      rw [widest, encodedBytes]
      omega
  | array items =>
      have := itemsWidest_le hexpansion items
      rw [widest, encodedBytes, Nat.mul_add]
      omega
  | object members =>
      have := membersWidest_le hexpansion members
      rw [widest, encodedBytes, Nat.mul_add]
      omega

theorem itemsWidest_le (hexpansion : 2 ≤ expansion) (items : List Json) :
    itemsWidest expansion items ≤ expansion * itemsBytes items + 1 := by
  match items with
  | [] => exact Nat.zero_le _
  | [item] =>
      have := widest_le hexpansion item
      rw [itemsWidest, itemsWidest, itemsBytes]
      omega
  | item :: next :: items =>
      have := widest_le hexpansion item
      have := itemsWidest_le hexpansion (next :: items)
      rw [itemsWidest, itemsBytes, Nat.mul_add, Nat.mul_add]
      omega

theorem membersWidest_le (hexpansion : 2 ≤ expansion) (members : List (String × Json)) :
    membersWidest expansion members ≤ expansion * membersBytes members + 1 := by
  match members with
  | [] => exact Nat.zero_le _
  | [(key, value)] =>
      have := widest_le hexpansion value
      have hkey := Nat.mul_le_mul_left expansion (utf8ByteSize_le_stringBytes key)
      rw [Nat.mul_add] at hkey
      rw [membersWidest, membersWidest, membersBytes, Nat.mul_add, Nat.mul_add]
      omega
  | (key, value) :: next :: members =>
      have := widest_le hexpansion value
      have := membersWidest_le hexpansion (next :: members)
      have hkey := Nat.mul_le_mul_left expansion (utf8ByteSize_le_stringBytes key)
      rw [Nat.mul_add] at hkey
      rw [membersWidest, membersBytes, Nat.mul_add, Nat.mul_add, Nat.mul_add, Nat.mul_add]
      omega

end

end Json

end Vergerail
