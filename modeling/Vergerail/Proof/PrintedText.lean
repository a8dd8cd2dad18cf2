import Vergerail.JsonRead
import Vergerail.JsonWritten
import Vergerail.Lib.CharBoundary
import Vergerail.Proof.WireRoundTrip

/-!
# The text of a frame

What the wire relies on, for the text that `serde_json` writes: its length is the length
that the size checks count, no byte of it is a control character, and so it is one line
without a carriage return, which the parser reads back. It is one of the texts of the value
that take at most six bytes for a byte of a string.
-/

namespace Vergerail

open JsonLinesReader

namespace Json

open Lib

/-! ## The length -/

/-- A digit is a character of one byte, and no control character. -/
theorem hexDigit_plain (n : Nat) : (hexDigit n).utf8Size = 1 ∧ 0x20 ≤ (hexDigit n).toNat := by
  rcases Nat.lt_or_ge n 16 with hlt | hge
  · interval_cases n <;> decide
  · have hzero : hexDigit n = '0' := List.getD_eq_default _ _ hge
    rw [hzero]
    decide

theorem utf8Bytes_escapeChar (c : Char) : utf8Bytes (escapeChar c) = charBytes c := by
  have hdigit : ∀ n, (hexDigit n).utf8Size = 1 := fun n => (hexDigit_plain n).1
  have hnamed : c.toNat = 8 → c = '\x08' := fun h => Char.toNat_inj.mp h
  have hfeed : c.toNat = 12 → c = '\x0c' := fun h => Char.toNat_inj.mp h
  unfold escapeChar
  by_cases hshort : c ∈ ['"', '\\', '\x08', '\t', '\n', '\x0c', '\r']
  · rw [charBytes, if_pos hshort]
    simp only [List.mem_cons, List.not_mem_nil, or_false] at hshort
    rcases hshort with rfl | rfl | rfl | rfl | rfl | rfl | rfl <;> rfl
  · rw [charBytes, if_neg hshort]
    simp only [List.mem_cons, List.not_mem_nil, or_false, not_or] at hshort
    obtain ⟨h₁, h₂, h₃, h₄, h₅, h₆, h₇⟩ := hshort
    rw [if_neg h₁, if_neg h₂, if_neg h₅, if_neg h₇, if_neg h₄, if_neg (fun h => h₃ (hnamed h)),
      if_neg (fun h => h₆ (hfeed h))]
    split_ifs
    · simp only [utf8Bytes_cons, utf8Bytes_nil, hdigit]
      rfl
    · rfl

theorem utf8Bytes_quoted (s : String) : utf8Bytes (quoted s) = stringBytes s := by
  have hbody : ∀ cs : List Char,
      utf8Bytes (cs.flatMap escapeChar) = (cs.map charBytes).sum := by
    intro cs
    induction cs with
    | nil => rfl
    | cons c cs ih =>
        rw [List.flatMap_cons, utf8Bytes_append, utf8Bytes_escapeChar, ih, List.map_cons,
          List.sum_cons]
  have hquote : '"'.utf8Size = 1 := by decide
  rw [quoted, utf8Bytes_cons, utf8Bytes_append, hbody, utf8Bytes_cons, utf8Bytes_nil, hquote,
    stringBytes]
  omega

mutual

/-- The length that the size checks count is the length of the text. -/
theorem encodedBytes_eq (value : Json) : value.encodedBytes = utf8Bytes value.chars := by
  have hmarks : '['.utf8Size = 1 ∧ ']'.utf8Size = 1 ∧ '\x7b'.utf8Size = 1 ∧ '\x7d'.utf8Size = 1 :=
    by decide
  match value with
  | .null => rw [encodedBytes, chars]; rfl
  | .bool true => rw [encodedBytes, chars]; rfl
  | .bool false => rw [encodedBytes, chars]; rfl
  | .number text => rw [encodedBytes, chars, utf8Bytes_toList]
  | .string s => rw [encodedBytes, chars, utf8Bytes_quoted]
  | .array items =>
      rw [encodedBytes, chars, utf8Bytes_cons, utf8Bytes_append, utf8Bytes_cons, utf8Bytes_nil,
        itemsBytes_eq items, hmarks.1, hmarks.2.1]
      omega
  | .object members =>
      rw [encodedBytes, chars, utf8Bytes_cons, utf8Bytes_append, utf8Bytes_cons, utf8Bytes_nil,
        membersBytes_eq members, hmarks.2.2.1, hmarks.2.2.2]
      omega

theorem itemsBytes_eq (items : List Json) : itemsBytes items = utf8Bytes (itemsChars items) := by
  have hcomma : ','.utf8Size = 1 := by decide
  match items with
  | [] => rw [itemsBytes, itemsChars]; rfl
  | [item] => rw [itemsBytes, itemsChars, encodedBytes_eq item]
  | item :: next :: items =>
      rw [itemsBytes, itemsChars_more, utf8Bytes_append, utf8Bytes_cons, encodedBytes_eq item,
        itemsBytes_eq (next :: items), hcomma]
      omega

theorem membersBytes_eq (members : List (String × Json)) :
    membersBytes members = utf8Bytes (membersChars members) := by
  have hmarks : ':'.utf8Size = 1 ∧ ','.utf8Size = 1 := by decide
  match members with
  | [] => rw [membersBytes, membersChars]; rfl
  | [(key, value)] =>
      rw [membersBytes, membersChars, utf8Bytes_append, utf8Bytes_cons, utf8Bytes_quoted,
        encodedBytes_eq value, hmarks.1]
      omega
  | (key, value) :: next :: members =>
      rw [membersBytes, membersChars_more, utf8Bytes_append, utf8Bytes_cons, utf8Bytes_append,
        utf8Bytes_cons, utf8Bytes_quoted, encodedBytes_eq value,
        membersBytes_eq (next :: members), hmarks.1, hmarks.2]
      omega

end

/-- The length of the bytes of a text. -/
theorem length_toVec (value : Json) : value.toBytes.length = value.encodedBytes := by
  rw [encodedBytes_eq, toBytes, Array.length_toList]
  exact utf8ByteSize_ofChars value.chars

theorem toBytes_eq (value : Json) : value.toBytes = value.chars.flatMap String.utf8EncodeChar := by
  rw [toBytes, toText, String.toUTF8_eq_toByteArray, String.toByteArray_ofList, List.utf8Encode,
    List.toList_data_toByteArray]

/-! ## One of the texts of a value -/

section Written

variable {expansion : Nat}

theorem charBytes_le (hexpansion : 6 ≤ expansion) (c : Char) :
    charBytes c ≤ expansion * c.utf8Size := by
  have hpos := c.utf8Size_pos
  have hwide : 6 * c.utf8Size ≤ expansion * c.utf8Size := Nat.mul_le_mul_right _ hexpansion
  unfold charBytes
  split_ifs <;> omega

theorem written_quoted (hexpansion : 6 ≤ expansion) (s : String) :
    WrittenString expansion s ((quoted s).flatMap String.utf8EncodeChar) := by
  refine ⟨s.toList.map (fun c => (escapeChar c).flatMap String.utf8EncodeChar), ?_, ?_⟩
  · rw [List.forall₂_map_right_iff, List.forall₂_same]
    intro c _
    have hlength : ((escapeChar c).flatMap String.utf8EncodeChar).length = charBytes c := by
      rw [List.length_flatMap, ← utf8Bytes_escapeChar, utf8Bytes]
      simp only [String.length_utf8EncodeChar]
    rw [hlength]
    exact charBytes_le hexpansion c
  · have hquote : String.utf8EncodeChar '"' = [0x22] := by decide
    rw [quoted, List.flatMap_cons, List.flatMap_append, List.flatMap_cons, List.flatMap_nil, hquote,
      List.flatMap_assoc, List.flatMap_def (l := s.toList)]
    rfl

mutual

theorem written_chars (hexpansion : 6 ≤ expansion) (value : Json) :
    Written expansion value (value.chars.flatMap String.utf8EncodeChar) := by
  have hmarks : String.utf8EncodeChar '[' = [0x5b] ∧ String.utf8EncodeChar ']' = [0x5d] ∧
      String.utf8EncodeChar '\x7b' = [0x7b] ∧ String.utf8EncodeChar '\x7d' = [0x7d] := by decide
  match value with
  | .null => exact toBytes_eq .null ▸ .null
  | .bool b => exact toBytes_eq (.bool b) ▸ .bool b
  | .number text => exact toBytes_eq (.number text) ▸ .number text
  | .string s =>
      rw [chars]
      exact .string (written_quoted hexpansion s)
  | .array items =>
      rw [chars, List.flatMap_cons, List.flatMap_append, List.flatMap_singleton, hmarks.1,
        hmarks.2.1]
      exact .array (written_items hexpansion items)
  | .object members =>
      rw [chars, List.flatMap_cons, List.flatMap_append, List.flatMap_singleton, hmarks.2.2.1,
        hmarks.2.2.2]
      exact .object (List.Perm.refl _) (written_members hexpansion members)

theorem written_items (hexpansion : 6 ≤ expansion) (items : List Json) :
    WrittenItems expansion items ((itemsChars items).flatMap String.utf8EncodeChar) := by
  have hcomma : String.utf8EncodeChar ',' = [0x2c] := by decide
  match items with
  | [] => exact .nil
  | [item] =>
      rw [itemsChars]
      exact .one (written_chars hexpansion item)
  | item :: next :: items =>
      rw [itemsChars_more, List.flatMap_append, List.flatMap_cons, hcomma]
      exact .more (written_chars hexpansion item) (written_items hexpansion (next :: items))

theorem written_members (hexpansion : 6 ≤ expansion) (members : List (String × Json)) :
    WrittenMembers expansion members ((membersChars members).flatMap String.utf8EncodeChar) := by
  have hmarks : String.utf8EncodeChar ':' = [0x3a] ∧ String.utf8EncodeChar ',' = [0x2c] := by decide
  match members with
  | [] => exact .nil
  | [(key, value)] =>
      rw [membersChars, List.flatMap_append, List.flatMap_cons, hmarks.1]
      exact .one (written_quoted hexpansion key) (written_chars hexpansion value)
  | (key, value) :: next :: members =>
      rw [membersChars_more, List.flatMap_append, List.flatMap_cons, List.flatMap_append,
        List.flatMap_cons, hmarks.1, hmarks.2]
      exact .more (written_quoted hexpansion key) (written_chars hexpansion value)
        (written_members hexpansion (next :: members))

end

/-- The text that `serde_json` writes is one of the texts of the value. -/
theorem written_toBytes (hexpansion : 6 ≤ expansion) (value : Json) :
    Written expansion value value.toBytes := by
  rw [toBytes_eq]
  exact written_chars hexpansion value

end Written

/-! ## No control characters -/

/-- No character is a control character. -/
def Printable (cs : List Char) : Prop := ∀ c ∈ cs, 0x20 ≤ c.toNat

theorem printable_cons {c : Char} {cs : List Char} (hc : 0x20 ≤ c.toNat) (h : Printable cs) :
    Printable (c :: cs) := by
  intro d hd
  rcases List.mem_cons.mp hd with rfl | hd
  · exact hc
  · exact h d hd

theorem printable_append {cs ds : List Char} (h : Printable cs) (h' : Printable ds) :
    Printable (cs ++ ds) := by
  intro c hc
  rcases List.mem_append.mp hc with hc | hc
  · exact h c hc
  · exact h' c hc

theorem printable_nil : Printable [] := fun _ h => absurd h List.not_mem_nil

theorem printable_escapeChar (c : Char) : Printable (escapeChar c) := by
  have hdigit : ∀ n, 0x20 ≤ (hexDigit n).toNat := fun n => (hexDigit_plain n).2
  have hpair : ∀ d : Char, 0x20 ≤ d.toNat → Printable ['\\', d] := by
    intro d hd
    exact printable_cons (by decide) (printable_cons hd printable_nil)
  unfold escapeChar
  split_ifs with _ _ _ _ _ _ _ hcontrol
  · exact hpair _ (by decide)
  · exact hpair _ (by decide)
  · exact hpair _ (by decide)
  · exact hpair _ (by decide)
  · exact hpair _ (by decide)
  · exact hpair _ (by decide)
  · exact hpair _ (by decide)
  · refine printable_cons (by decide) (printable_cons (by decide) (printable_cons (by decide)
      (printable_cons (by decide) ?_)))
    exact printable_cons (hdigit _) (printable_cons (hdigit _) printable_nil)
  · exact printable_cons (Nat.le_of_not_lt hcontrol) printable_nil

theorem printable_quoted (s : String) : Printable (quoted s) := by
  have hbody : Printable (s.toList.flatMap escapeChar) := by
    intro c hc
    obtain ⟨d, -, hd⟩ := List.mem_flatMap.mp hc
    exact printable_escapeChar d c hd
  unfold quoted
  refine printable_cons (by decide) (printable_append hbody ?_)
  exact printable_cons (by decide) printable_nil

theorem printable_number {text : String} (h : isNumberText text.toList = true) :
    Printable text.toList := by
  obtain ⟨hchars, -⟩ := Bool.and_eq_true_iff.mp h
  intro c hc
  have hnumber := List.all_eq_true.mp hchars c hc
  rw [isNumberChar, Bool.or_eq_true, isDigitChar, decide_eq_true_eq, decide_eq_true_eq] at hnumber
  rcases hnumber with ⟨hdigit, -⟩ | hmark
  · exact Nat.le_trans (by decide : 0x20 ≤ '0'.toNat) hdigit
  · have hall : ∀ d ∈ ['-', '+', '.', 'e', 'E'], 0x20 ≤ d.toNat := by simp
    exact hall c hmark

mutual

theorem printable_chars (value : Json) (h : value.NumbersOk) : Printable value.chars := by
  match value, h with
  | .null, _ => rw [chars]; exact (by simp : ∀ c ∈ ['n', 'u', 'l', 'l'], 0x20 ≤ c.toNat)
  | .bool true, _ => rw [chars]; exact (by simp : ∀ c ∈ ['t', 'r', 'u', 'e'], 0x20 ≤ c.toNat)
  | .bool false, _ =>
      rw [chars]
      exact (by simp : ∀ c ∈ ['f', 'a', 'l', 's', 'e'], 0x20 ≤ c.toNat)
  | .number text, .number h => rw [chars]; exact printable_number h
  | .string s, _ => rw [chars]; exact printable_quoted s
  | .array items, .array h =>
      rw [chars]
      refine printable_cons (by decide) (printable_append (printable_items items h) ?_)
      exact printable_cons (by decide) printable_nil
  | .object members, .object h =>
      rw [chars]
      refine printable_cons (by decide) (printable_append (printable_members members h) ?_)
      exact printable_cons (by decide) printable_nil

theorem printable_items (items : List Json) (h : ∀ item ∈ items, item.NumbersOk) :
    Printable (itemsChars items) := by
  match items with
  | [] => rw [itemsChars]; exact printable_nil
  | [item] => rw [itemsChars]; exact printable_chars item (h item List.mem_cons_self)
  | item :: next :: items =>
      rw [itemsChars_more]
      refine printable_append (printable_chars item (h item List.mem_cons_self)) ?_
      refine printable_cons (by decide) (printable_items (next :: items) (fun v hv => ?_))
      exact h v (List.mem_cons_of_mem _ hv)

theorem printable_members (members : List (String × Json))
    (h : ∀ member ∈ members, member.2.NumbersOk) : Printable (membersChars members) := by
  match members with
  | [] => rw [membersChars]; exact printable_nil
  | [(key, value)] =>
      rw [membersChars]
      refine printable_append (printable_quoted key) (printable_cons (by decide) ?_)
      exact printable_chars value (h (key, value) List.mem_cons_self)
  | (key, value) :: next :: members =>
      rw [membersChars_more]
      refine printable_append (printable_quoted key) (printable_cons (by decide) ?_)
      refine printable_append (printable_chars value (h (key, value) List.mem_cons_self)) ?_
      refine printable_cons (by decide) (printable_members (next :: members) (fun v hv => ?_))
      exact h v (List.mem_cons_of_mem _ hv)

end

/-- No byte of a character but a control character is one. -/
theorem utf8EncodeChar_printable {c : Char} (h : 0x20 ≤ c.toNat) :
    ∀ b ∈ String.utf8EncodeChar c, 0x20 ≤ b.toNat := by
  have hval : 0x20 ≤ c.val.toNat := h
  intro b hb
  unfold String.utf8EncodeChar at hb
  dsimp only at hb
  split_ifs at hb
  · rw [List.mem_singleton.mp hb, UInt8.toNat_ofNat']
    omega
  · simp only [List.mem_cons, List.not_mem_nil, or_false] at hb
    rcases hb with rfl | rfl <;> rw [UInt8.toNat_ofNat'] <;> omega
  · simp only [List.mem_cons, List.not_mem_nil, or_false] at hb
    rcases hb with rfl | rfl | rfl <;> rw [UInt8.toNat_ofNat'] <;> omega
  · simp only [List.mem_cons, List.not_mem_nil, or_false] at hb
    rcases hb with rfl | rfl | rfl | rfl <;> rw [UInt8.toNat_ofNat'] <;> omega

theorem toBytes_printable {value : Json} (h : value.NumbersOk) :
    ∀ b ∈ value.toBytes, 0x20 ≤ b.toNat := by
  have hprintable := printable_chars value h
  intro b hb
  rw [toBytes_eq] at hb
  obtain ⟨c, hc, hb⟩ := List.mem_flatMap.mp hb
  exact utf8EncodeChar_printable (hprintable c hc) b hb

end Json

/-! ## What the wire relies on -/

/-- `serde_json::to_vec`. -/
def serdeToVec (value : Json) : Except String (List UInt8) := .ok value.toBytes

/-- A value whose text the parser reads back is printed as the wire needs it. -/
theorem printed_of_read {fromStr : String → Except String Json} {value : Json}
    (h : value.NumbersOk) (hread : fromStr value.toText = .ok value) :
    Printed serdeToVec fromStr value where
  line bytes hbytes := by
    cases hbytes
    have hprintable := Json.toBytes_printable h
    refine ⟨fun hlf => absurd (hprintable lf hlf) (by decide), fun hcr => ?_⟩
    exact absurd (hprintable cr hcr) (by decide)
  something hnil := by
    have hempty : value.toBytes = [] := Except.ok.inj hnil
    have hlength := value.length_toVec
    rw [hempty, Json.encodedBytes_eq] at hlength
    obtain ⟨c, cs, hchars, -⟩ := Json.chars_cons h
    rw [hchars, Lib.utf8Bytes_cons] at hlength
    have hpos := c.utf8Size_pos
    simp only [List.length_nil] at hlength
    omega
  undone bytes hbytes := by
    cases hbytes
    exact ⟨_, fromUtf8_toBytes value, hread⟩

/-- The encoder takes a frame that the size check of a send lets pass. -/
theorem encode_of_fits {value : Json} {maxFrameBytes : Nat}
    (h : value.encodedBytes ≤ maxFrameBytes) :
    EncodedFrame.encode serdeToVec value maxFrameBytes = .ok ⟨value.toBytes ++ [lf]⟩ := by
  refine encode_ok.mpr ⟨value.toBytes, rfl, ?_, rfl⟩
  rw [value.length_toVec]
  exact h

end Vergerail
