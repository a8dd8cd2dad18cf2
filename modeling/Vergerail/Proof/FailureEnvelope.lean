import Vergerail.JsonRead
import Vergerail.Proof.CredentialHidden

/-!
# The envelope of a failure

The message of a failure is bounded in bytes, the envelope around it in bytes of JSON. Most
characters are written as they are, or with a backslash before them, but a control character
takes six bytes. Where the two bounds disagree the envelope gives way, and with it the code and
the request.
-/

namespace Vergerail

namespace UpagentProvider

open Lib

/-! ## The size of an envelope -/

/-- The bytes of a text inside a string literal. -/
def escapedBytes (s : String) : Nat := textBytes (s.toList.flatMap Json.escapeChar)

/-- The bytes of a Boolean. -/
def boolBytes (b : Bool) : Nat := if b then 4 else 5

@[simp] theorem textBytes_nil : textBytes [] = 0 := rfl

@[simp] theorem textBytes_cons (c : Char) (cs : List Char) :
    textBytes (c :: cs) = c.utf8Size + textBytes cs := by
  rw [textBytes, textBytes, List.map_cons, List.sum_cons]

theorem textBytes_quoted (s : String) : textBytes (Json.quoted s) = escapedBytes s + 2 := by
  have hquote : '"'.utf8Size = 1 := by decide
  rw [Json.quoted, textBytes_cons, textBytes_append, textBytes_cons, textBytes_nil, hquote,
    escapedBytes]
  omega

theorem textBytes_string (s : String) : textBytes (Json.string s).chars = escapedBytes s + 2 := by
  rw [Json.chars, textBytes_quoted]

theorem textBytes_bool (b : Bool) : textBytes (Json.bool b).chars = boolBytes b := by
  cases b with
  | true =>
      rw [Json.chars]
      decide
  | false =>
      rw [Json.chars]
      decide

theorem textBytes_object (members : List (String × Json)) :
    textBytes (Json.object members).chars = textBytes (Json.membersChars members) + 2 := by
  have hbraces : '\x7b'.utf8Size = 1 ∧ '\x7d'.utf8Size = 1 := by decide
  rw [Json.chars, textBytes_cons, textBytes_append, textBytes_cons, textBytes_nil, hbraces.1,
    hbraces.2]
  omega

theorem textBytes_member (name : String) (value : Json) :
    textBytes (Json.membersChars [(name, value)]) =
      escapedBytes name + textBytes value.chars + 3 := by
  have hcolon : ':'.utf8Size = 1 := by decide
  rw [Json.membersChars, textBytes_append, textBytes_cons, textBytes_quoted, hcolon]
  omega

theorem textBytes_members (name : String) (value : Json) (next : String × Json)
    (members : List (String × Json)) :
    textBytes (Json.membersChars ((name, value) :: next :: members)) =
      escapedBytes name + textBytes value.chars + textBytes (Json.membersChars (next :: members))
        + 4 := by
  have hmarks : ':'.utf8Size = 1 ∧ ','.utf8Size = 1 := by decide
  rw [Json.membersChars_more, textBytes_append, textBytes_cons, textBytes_append, textBytes_cons,
    textBytes_quoted, hmarks.1, hmarks.2]
  omega

theorem length_toBytes (v : Json) : v.toBytes.length = textBytes v.chars := by
  rw [Json.toBytes, Array.length_toList]
  exact utf8ByteSize_ofList v.chars

/-- The bytes of the envelope around a failure. -/
theorem length_failureResponse (requestId code message : String) (retryable : Bool) :
    (FailureResponse.toJson {
      schemaVersion := protocolVersion
      requestId := requestId
      ok := false
      error := {
        code := code
        message := message
        retryable := retryable } }).toBytes.length =
      escapedBytes requestId + escapedBytes code + escapedBytes message + boolBytes retryable
        + 91 := by
  have hnames : escapedBytes "schemaVersion" = 13 ∧ escapedBytes "requestId" = 9 ∧
      escapedBytes "ok" = 2 ∧ escapedBytes "error" = 5 ∧ escapedBytes "code" = 4 ∧
      escapedBytes "message" = 7 ∧ escapedBytes "retryable" = 9 := by decide +kernel
  have hversion : textBytes (Json.number (toString protocolVersion)).chars = 1 := by
    rw [Json.chars]
    decide +kernel
  have hok : boolBytes false = 5 := rfl
  obtain ⟨h₁, h₂, h₃, h₄, h₅, h₆, h₇⟩ := hnames
  rw [length_toBytes, FailureResponse.toJson]
  simp only [textBytes_object, textBytes_members, textBytes_member, textBytes_string,
    textBytes_bool, hversion, hok, h₁, h₂, h₃, h₄, h₅, h₆, h₇]
  omega

/-! ## What an envelope says -/

/-- The bytes are valid JSON with this value. -/
def Denotes (bytes : List UInt8) (v : Json) : Prop :=
  ∃ text : String, text.toUTF8.data.toList = bytes ∧ Json.read text = some v

theorem denotes_toBytes {v : Json} (h : v.NumbersOk) : Denotes v.toBytes v :=
  ⟨v.toText, rfl, Json.read_toText h⟩

/-- Bytes have one value. -/
theorem Denotes.unique {bytes : List UInt8} {v v' : Json} (h : Denotes bytes v)
    (h' : Denotes bytes v') : v = v' := by
  obtain ⟨text, hbytes, hread⟩ := h
  obtain ⟨text', hbytes', hread'⟩ := h'
  have hsame : text.toUTF8 = text'.toUTF8 :=
    ByteArray.ext (Array.toList_inj.mp (hbytes.trans hbytes'.symm))
  have htext : text = text' := String.toByteArray_inj.mp hsame
  rw [htext, hread'] at hread
  exact (Option.some.inj hread).symm

theorem numbersOk_failureResponse {r : FailureResponse} (h : r.schemaVersion = protocolVersion) :
    r.toJson.NumbersOk := by
  have hversion : Json.isNumberText (toString protocolVersion).toList = true := by decide +kernel
  rw [FailureResponse.toJson, h]
  refine .object ?_
  simp only [List.forall_mem_cons]
  refine ⟨.number hversion, .string _, .bool _, .object ?_, by simp⟩
  simp only [List.forall_mem_cons]
  exact ⟨.string _, .string _, .bool _, by simp⟩

theorem get_requestId (r : FailureResponse) :
    r.toJson.get "requestId" = some (.string r.requestId) := by
  rw [FailureResponse.toJson, Json.get]
  simp [List.lookup]

theorem pointer_code (r : FailureResponse) :
    r.toJson.pointer ["error", "code"] = some (.string r.error.code) := by
  rw [FailureResponse.toJson]
  simp [Json.pointer, Json.get, List.lookup]

/-- The envelope is bounded and carries this code and this request. -/
def Carries (response : List UInt8) (code requestId : String) : Prop :=
  response.length ≤ maxFailureResponseBytes ∧ ∃ v, Denotes response v ∧
    v.pointer ["error", "code"] = some (.string code) ∧
    v.get "requestId" = some (.string requestId)

/-- A request id that `validate_request` accepts. -/
theorem validateRequestIdentity_ok {schemaVersion : Nat} {requestId : String} {u : Unit}
    (h : validateRequestIdentity schemaVersion requestId = .ok u) :
    requestId ≠ "" ∧ requestId.utf8ByteSize ≤ 128 := by
  obtain ⟨_, hnamed, hshort⟩ := bind_ok.mp h
  rw [refuse_ok, Bool.or_eq_false_iff, Bool.or_eq_false_iff] at hnamed
  rw [refuse_ok, decide_eq_false_iff_not, Nat.not_lt] at hshort
  refine ⟨?_, hshort⟩
  rintro rfl
  have htrim := hnamed.1.2
  rw [trimIsEmpty, String.toList_empty, List.all_nil] at htrim
  cases htrim

theorem truncateUtf8_of_le {value : String} {maximum : Nat} (h : value.utf8ByteSize ≤ maximum) :
    truncateUtf8 value maximum = value := if_pos h

/-- What is kept of a message by `failure` and by `encode_failure_response` after it. -/
def keptMessage (message : String) : String :=
  boundedRedactedMessage (boundedRedactedMessage message)

/-- The bytes of the envelope that carries a failure. -/
def envelopeBytes (code message : String) (retryable : Bool) (requestId : String) : Nat :=
  escapedBytes requestId + escapedBytes code + escapedBytes (keptMessage message)
    + boolBytes retryable + 91

section Encode

variable {schemaVersion : Nat} {requestId : String}

theorem length_encode (hid : validateRequestIdentity schemaVersion requestId = .ok ())
    (code message : String) (retryable : Bool) :
    (failureResponse (failure code message retryable) requestId).toJson.toBytes.length =
      envelopeBytes code message retryable requestId := by
  rw [failureResponse, truncateUtf8_of_le (validateRequestIdentity_ok hid).2, failure]
  dsimp only
  rw [length_failureResponse, envelopeBytes, keptMessage]

theorem length_oversized : oversizedResponse.toJson.toBytes.length ≤ maxFailureResponseBytes := by
  have hlength := length_failureResponse "" "provider_failed"
    "provider failure response exceeded its bounded envelope" false
  have hfixed : escapedBytes "" + escapedBytes "provider_failed" + escapedBytes
      "provider failure response exceeded its bounded envelope" + boolBytes false + 91
        ≤ maxFailureResponseBytes := by decide +kernel
  rw [← hlength] at hfixed
  exact hfixed

/-- Whatever is encoded is bounded and valid JSON. -/
theorem encode_bounded (error : ProviderFailure) (requestId : String) :
    (encodeFailureResponse error requestId).length ≤ maxFailureResponseBytes ∧
      ∃ v, Denotes (encodeFailureResponse error requestId) v := by
  rw [encodeFailureResponse]
  split
  · rename_i hfits
    exact ⟨hfits, _, denotes_toBytes
      (numbersOk_failureResponse (r := failureResponse error requestId) rfl)⟩
  · exact ⟨length_oversized, _, denotes_toBytes
      (numbersOk_failureResponse (r := oversizedResponse) rfl)⟩

theorem carries_iff (hid : validateRequestIdentity schemaVersion requestId = .ok ())
    (code message : String) (retryable : Bool) :
    Carries (encodeFailureResponse (failure code message retryable) requestId) code requestId ↔
      envelopeBytes code message retryable requestId ≤ maxFailureResponseBytes := by
  obtain ⟨hnamed, hshort⟩ := validateRequestIdentity_ok hid
  have hbytes := length_encode hid code message retryable
  have hresponse := denotes_toBytes (numbersOk_failureResponse
    (r := failureResponse (failure code message retryable) requestId) rfl)
  rw [encodeFailureResponse, hbytes]
  by_cases hfits : envelopeBytes code message retryable requestId ≤ maxFailureResponseBytes
  · rw [if_pos hfits]
    refine ⟨fun _ => hfits, fun _ => ⟨hbytes ▸ hfits, _, hresponse, pointer_code _, ?_⟩⟩
    rw [get_requestId, failureResponse, truncateUtf8_of_le hshort]
  · rw [if_neg hfits]
    refine ⟨?_, fun h => absurd h hfits⟩
    rintro ⟨_, v, hv, _, hrequest⟩
    -- the envelope that is sent instead names no request
    have hoversized := denotes_toBytes (numbersOk_failureResponse (r := oversizedResponse) rfl)
    rw [hv.unique hoversized, get_requestId] at hrequest
    exact absurd (Json.string.inj (Option.some.inj hrequest)).symm hnamed

/-- **A failure keeps its code and its request if and only if its envelope fits.** In any case
what is sent is bounded and valid JSON. -/
theorem failure_envelope_iff (hid : validateRequestIdentity schemaVersion requestId = .ok ())
    (code message : String) (retryable : Bool) :
    ((encodeFailureResponse (failure code message retryable) requestId).length ≤
        maxFailureResponseBytes ∧
      ∃ v, Denotes (encodeFailureResponse (failure code message retryable) requestId) v) ∧
    (Carries (encodeFailureResponse (failure code message retryable) requestId) code requestId ↔
      envelopeBytes code message retryable requestId ≤ maxFailureResponseBytes) :=
  ⟨encode_bounded _ _, carries_iff hid code message retryable⟩

/-- A timeout of the first request. -/
theorem failure_envelope_first :
    Carries (encodeFailureResponse (failure "timeout" "provider deadline expired" false)
      "request-1") "timeout" "request-1" := by
  have hid : validateRequestIdentity 2 "request-1" = .ok () := rfl
  exact (failure_envelope_iff hid "timeout" "provider deadline expired" false).2.mpr
    (by decide +kernel)

end Encode

/-! ## Control characters -/

/-- The characters that are written as a number. -/
def isLongEscape (c : Char) : Bool :=
  c.toNat < 0x20 && c ∉ ['\n', '\r', '\t'] && c.toNat ≠ 8 && c.toNat ≠ 12

theorem hexDigit_size {n : Nat} (h : n < 16) : (Json.hexDigit n).utf8Size = 1 := by
  interval_cases n <;> decide

/-- A character takes at most two bytes for one, or six as a number. -/
theorem textBytes_escapeChar (c : Char) :
    textBytes (Json.escapeChar c) ≤ 2 * c.utf8Size + if isLongEscape c then 4 else 0 := by
  have hpos := c.utf8Size_pos
  have hshort : ∀ d, d.utf8Size = 1 → textBytes ['\\', d] ≤
      2 * c.utf8Size + if isLongEscape c then 4 else 0 := by
    intro d hd
    have hbackslash : '\\'.utf8Size = 1 := by decide
    rw [textBytes_cons, textBytes_cons, textBytes_nil, hbackslash, hd]
    omega
  unfold Json.escapeChar
  by_cases hquote : c = '"'
  · rw [if_pos hquote]
    exact hshort _ (by decide)
  rw [if_neg hquote]
  by_cases hbackslash : c = '\\'
  · rw [if_pos hbackslash]
    exact hshort _ (by decide)
  rw [if_neg hbackslash]
  by_cases hnewline : c = '\n'
  · rw [if_pos hnewline]
    exact hshort _ (by decide)
  rw [if_neg hnewline]
  by_cases hreturn : c = '\r'
  · rw [if_pos hreturn]
    exact hshort _ (by decide)
  rw [if_neg hreturn]
  by_cases htab : c = '\t'
  · rw [if_pos htab]
    exact hshort _ (by decide)
  rw [if_neg htab]
  by_cases hback : c.toNat = 8
  · rw [if_pos hback]
    exact hshort _ (by decide)
  rw [if_neg hback]
  by_cases hfeed : c.toNat = 12
  · rw [if_pos hfeed]
    exact hshort _ (by decide)
  rw [if_neg hfeed]
  by_cases hcontrol : c.toNat < 0x20
  · have hlong : isLongEscape c = true := by
      simp [isLongEscape, hcontrol, hnewline, hreturn, htab, hback, hfeed]
    have hmarks : '\\'.utf8Size = 1 ∧ 'u'.utf8Size = 1 ∧ '0'.utf8Size = 1 := by decide
    have hhigh := hexDigit_size (n := c.toNat / 16) (by omega)
    have hlow := hexDigit_size (n := c.toNat % 16) (by omega)
    rw [if_pos hcontrol, hlong, if_pos rfl]
    simp only [textBytes_cons, textBytes_nil, hmarks, hhigh, hlow]
    omega
  · rw [if_neg hcontrol, textBytes_cons, textBytes_nil]
    omega

/-- The bytes of a text in a string literal, from its own bytes and its control characters. -/
theorem escaped_le (cs : List Char) :
    textBytes (cs.flatMap Json.escapeChar) ≤ 2 * textBytes cs + 4 * cs.countP isLongEscape := by
  induction cs with
  | nil => exact Nat.le_refl 0
  | cons c cs ih =>
      have hc := textBytes_escapeChar c
      rw [List.flatMap_cons, textBytes_append, textBytes_cons, List.countP_cons]
      cases hlong : isLongEscape c with
      | true =>
          rw [hlong, if_pos rfl] at hc
          rw [if_pos rfl]
          omega
      | false =>
          rw [hlong, if_neg Bool.false_ne_true] at hc
          rw [if_neg Bool.false_ne_true]
          omega

theorem countP_le_textBytes (cs : List Char) (f : Char → Bool) : cs.countP f ≤ textBytes cs := by
  induction cs with
  | nil => exact Nat.le_refl 0
  | cons c cs ih =>
      have hpos := c.utf8Size_pos
      rw [List.countP_cons, textBytes_cons]
      split <;> omega

theorem truncateChars_prefix (maximum : Nat) (cs : List Char) :
    truncateChars maximum cs <+: cs ∧ textBytes (truncateChars maximum cs) ≤ maximum := by
  induction cs generalizing maximum with
  | nil => exact ⟨List.prefix_rfl, Nat.zero_le _⟩
  | cons c cs ih =>
      rw [truncateChars]
      split
      · rename_i hfits
        obtain ⟨hpre, hbytes⟩ := ih (maximum - c.utf8Size)
        refine ⟨List.cons_prefix_cons.mpr ⟨rfl, hpre⟩, ?_⟩
        rw [textBytes_cons]
        omega
      · exact ⟨List.nil_prefix, Nat.zero_le _⟩

theorem countP_runAll_le {f : Char → Bool} (hmask : "<redacted>".toList.countP f = 0)
    (cs : List Char) : (runAll credentialPasses cs).countP f ≤ cs.countP f := by
  have hall : ∀ (later : List (Masking Char)), later ⊆ credentialPasses → ∀ cs : List Char,
      (runAll later cs).countP f ≤ cs.countP f := by
    intro later
    induction later with
    | nil => exact fun _ cs => Nat.le_refl _
    | cons p later ih =>
        intro hlater cs
        obtain ⟨hp, hrest⟩ := List.cons_subset.mp hlater
        obtain ⟨marker, h, _, rfl⟩ := mem_credentialPasses.mp hp
        have hrun := Masking.countP_run_le (p := credentialPass marker h) hmask cs
        exact (ih hrest _).trans hrun
  exact hall credentialPasses (List.Subset.refl _) cs

/-- A message keeps at most 4 KiB, and no control characters but its own. -/
theorem boundedRedactedMessage_size (message : String) :
    textBytes (boundedRedactedMessage message).toList ≤ maxFailureMessageBytes ∧
      (boundedRedactedMessage message).toList.countP isLongEscape ≤
        message.toList.countP isLongEscape := by
  have hmask : "<redacted>".toList.countP isLongEscape = 0 := by decide +kernel
  have hkept := boundedRedactedMessage_ofList message.toList
  rw [String.ofList_toList] at hkept
  obtain ⟨hpre, hbytes⟩ := truncateChars_prefix maxFailureMessageBytes
    (runAll credentialPasses message.toList)
  rw [hkept, String.toList_ofList]
  exact ⟨hbytes, hpre.sublist.countP_le.trans (countP_runAll_le hmask message.toList)⟩

/-- **A message with few control characters is never relabelled.** -/
theorem failure_envelope_of_few_controls {schemaVersion : Nat} {requestId code message : String}
    (hid : validateRequestIdentity schemaVersion requestId = .ok ()) (retryable : Bool)
    (hfew : escapedBytes code + 4 * message.toList.countP isLongEscape ≤ 7328) :
    Carries (encodeFailureResponse (failure code message retryable) requestId) code
      requestId := by
  rw [carries_iff hid, envelopeBytes, maxFailureResponseBytes]
  have hrequest : escapedBytes requestId ≤ 768 := by
    have hescaped := escaped_le requestId.toList
    have hcontrols := countP_le_textBytes requestId.toList isLongEscape
    have hbytes := (validateRequestIdentity_ok hid).2
    rw [← String.ofList_toList (s := requestId), utf8ByteSize_ofList] at hbytes
    rw [escapedBytes]
    omega
  obtain ⟨_, hcontrols⟩ := boundedRedactedMessage_size message
  obtain ⟨hbytes, hcontrols'⟩ := boundedRedactedMessage_size (boundedRedactedMessage message)
  have hescaped := escaped_le (keptMessage message).toList
  rw [keptMessage] at hescaped ⊢
  rw [maxFailureMessageBytes] at hbytes
  have hbool : boolBytes retryable ≤ 5 := by cases retryable <;> decide
  have hmessage : escapedBytes (boundedRedactedMessage (boundedRedactedMessage message)) ≤
      2 * 4096 + 4 * message.toList.countP isLongEscape := by
    rw [escapedBytes]
    omega
  omega

/-! ## A message of control characters -/

theorem textBytes_replicate (n : Nat) (c : Char) :
    textBytes (List.replicate n c) = n * c.utf8Size := by
  induction n with
  | zero => rw [Nat.zero_mul]; rfl
  | succ n ih => rw [List.replicate_succ, textBytes_cons, ih, Nat.succ_mul, Nat.add_comm]

theorem textBytes_flatMap_replicate (f : Char → List Char) (n : Nat) (c : Char) :
    textBytes ((List.replicate n c).flatMap f) = n * textBytes (f c) := by
  induction n with
  | zero => rw [Nat.zero_mul]; rfl
  | succ n ih =>
      rw [List.replicate_succ, List.flatMap_cons, textBytes_append, ih, Nat.succ_mul, Nat.add_comm]

/-- A message of so many start-of-heading characters. -/
def controlMessage (n : Nat) : String := String.ofList (List.replicate n (Char.ofNat 1))

theorem marker_breaks : ∀ marker ∈ markers, ∃ c ∈ marker.toList, c = '=' ∨ c = ' ' := by
  have hall : ∀ cs ∈ markerChars, cs.contains '=' ∨ cs.contains ' ' := by decide +kernel
  intro marker hmarker
  rcases forall_markers hall marker hmarker with hequals | hblank
  · exact ⟨'=', List.contains_iff_mem.mp hequals, Or.inl rfl⟩
  · exact ⟨' ', List.contains_iff_mem.mp hblank, Or.inr rfl⟩

/-- A text without blanks and equals signs has no marker. -/
theorem runAll_of_plain {cs : List Char} (h : ∀ c ∈ cs, c ≠ '=' ∧ c ≠ ' ') :
    runAll credentialPasses cs = cs := by
  have hall : ∀ (later : List (Masking Char)), later ⊆ credentialPasses →
      runAll later cs = cs := by
    intro later
    induction later with
    | nil => exact fun _ => rfl
    | cons p later ih =>
        intro hlater
        obtain ⟨hp, hrest⟩ := List.cons_subset.mp hlater
        obtain ⟨marker, hne, hmarker, rfl⟩ := mem_credentialPasses.mp hp
        have hrun : (credentialPass marker hne).run cs = cs := by
          refine Masking.run_none (Masking.split_eq_none_iff.mpr ?_)
          rintro ⟨l, q, r, rfl, hq⟩
          obtain ⟨d, hd, hbreak⟩ := marker_breaks marker hmarker
          have hmap : q.map Char.toLower = marker.toList := hq
          rw [← hmap] at hd
          obtain ⟨c, hc, hlower⟩ := List.mem_map.mp hd
          obtain ⟨hequals, hblank⟩ := h c (by simp [hc])
          rcases hbreak with rfl | rfl
          · exact hequals (toLower_eq_of_lt hlower (by decide))
          · exact hblank (toLower_eq_of_lt hlower (by decide))
        simp only [runAll, List.foldl_cons]
        rw [hrun]
        exact ih hrest
  exact hall credentialPasses (List.Subset.refl _)

theorem keptMessage_controlMessage {n : Nat} (h : n ≤ 4096) :
    keptMessage (controlMessage n) = controlMessage n := by
  have hbounded : boundedRedactedMessage (controlMessage n) = controlMessage n := by
    have hplain : ∀ c ∈ List.replicate n (Char.ofNat 1), c ≠ '=' ∧ c ≠ ' ' := by
      intro c hc
      rw [List.eq_of_mem_replicate hc]
      decide
    have hone : (Char.ofNat 1).utf8Size = 1 := by decide
    have hbytes : textBytes (List.replicate n (Char.ofNat 1)) ≤ maxFailureMessageBytes := by
      rw [textBytes_replicate, hone, maxFailureMessageBytes]
      omega
    rw [controlMessage, boundedRedactedMessage_ofList, runAll_of_plain hplain,
      truncateChars_of_le hbytes]
  rw [keptMessage, hbounded, hbounded]

theorem escapedBytes_controlMessage (n : Nat) : escapedBytes (controlMessage n) = n * 6 := by
  have hsix : textBytes (Json.escapeChar (Char.ofNat 1)) = 6 := by decide
  rw [escapedBytes, controlMessage, String.toList_ofList, textBytes_flatMap_replicate, hsix]

/-- An uncertain outcome reported with control characters loses its code and its request. -/
theorem failure_relabelled : validateRequestIdentity 2 "request-1" = .ok () ∧
    ¬Carries (encodeFailureResponse (failure "resolution_required" (controlMessage 2800) false)
      "request-1") "resolution_required" "request-1" := by
  have hid : validateRequestIdentity 2 "request-1" = .ok () := rfl
  refine ⟨hid, ?_⟩
  rw [carries_iff hid, envelopeBytes, keptMessage_controlMessage (by omega),
    escapedBytes_controlMessage, maxFailureResponseBytes]
  omega

end UpagentProvider

end Vergerail
