import Vergerail.JsonText
import Vergerail.Private.Wire
import Vergerail.Proof.Decimal
import Vergerail.Proof.Framing

/-!
# The wire format round-trips

The encoder's limit does not count the newline it appends, and the reader's limit does not
count the newline it finds; a frame at the limit passes both. A line that holds no carriage
return loses nothing when one is stripped. So every frame that the encoder wrote is read as
one line and its value, wherever the bytes were cut, and the classifier then reads back the
message that the value was built from.

The classifier looks at which keys a frame has before it looks at what they hold, and each
of the four kinds has keys of its own.
-/

namespace Vergerail

open Lib

/-! ## What was sent -/

/-- A message handed to one of the builders. -/
inductive WireMessage where
  | request (id : Nat) (method : String) (params : Json)
  | notification (method : String) (params : Json)
  | success (id : RpcId) (result : Json)
  | failure (id : RpcId) (code : Int) (message : String)

/-- The range of an `RpcId`. -/
def RpcId.InRange : RpcId → Prop
  | number n => InI64 n
  | string _ => True

namespace WireMessage

/-- What the builder makes of it. -/
def toValue : WireMessage → Json
  | request id method params => wireRequest id method params
  | notification method params => wireNotification method params
  | success id result => wireSuccess id result
  | failure id code message => wireFailure id code message

/-- The values that the builder's types and the protocol leave: a request counts its ids up
to the largest `i64`, and a method has a name. -/
def Valid : WireMessage → Prop
  | request id method _ => id < 2 ^ 63 ∧ method ≠ ""
  | notification method _ => method ≠ ""
  | success id _ => id.InRange
  | failure id code _ => id.InRange ∧ InI64 code

/-- What the other side is to make of it. -/
def incoming : WireMessage → Incoming
  | request id method params => .request (.number id) method params
  | notification method params => .notification method params
  | success id result => .success id result
  | failure id code message => .failure id code message

end WireMessage

/-! ## The classifier reads back what was built -/

section Classifier

theorem parseId_toValue {id : RpcId} (h : id.InRange) : parseId id.toValue = .ok id := by
  cases id with
  | number n =>
      have hn : (RpcId.number n).toValue.asI64 = some n := asI64_toString h
      rw [parseId, hn]
  | string s => rfl

theorem asNonEmptyStr_string {s : String} (h : s ≠ "") :
    (Json.string s).asNonEmptyStr = some s := by
  have hs : (!s.isEmpty) = true := by
    rw [Bool.not_eq_true', ← Bool.not_eq_true, String.isEmpty_iff]
    exact h
  rw [Json.asNonEmptyStr, Json.asStr, Option.filter_some, if_pos hs]

theorem parse_wireRequest {id : Nat} {method : String} (params : Json) (hid : id < 2 ^ 63)
    (hmethod : method ≠ "") :
    wireParse (wireRequest id method params) = .ok (.request (.number id) method params) := by
  have hnumber : parseId (.number (toString id)) = .ok (.number id) := by
    rw [parseId, asI64_natCast hid]
  have hid : parseIdField (wireRequest id method params) = .ok (some (.number id)) := by
    rw [parseIdField, show (wireRequest id method params).get "id" = some (.number (toString id))
      from rfl]
    exact bind_ok.mpr ⟨_, hnumber, rfl⟩
  rw [wireParse, hid]
  simp [wireRequest, Json.asObject, Json.get, List.lookup, orFault, refuse, bind, Except.bind,
    pure, Except.pure, asNonEmptyStr_string hmethod]

theorem parse_wireNotification {method : String} (params : Json) (hmethod : method ≠ "") :
    wireParse (wireNotification method params) = .ok (.notification method params) := by
  cases params <;>
    simp [wireParse, parseIdField, wireNotification, Json.asObject, Json.get, List.lookup, orFault,
      refuse, bind, Except.bind, pure, Except.pure, asNonEmptyStr_string hmethod]

theorem parse_wireSuccess {id : RpcId} (result : Json) (hid : id.InRange) :
    wireParse (wireSuccess id result) = .ok (.success id result) := by
  have hid : parseIdField (wireSuccess id result) = .ok (some id) := by
    rw [parseIdField, show (wireSuccess id result).get "id" = some id.toValue from rfl]
    exact bind_ok.mpr ⟨_, parseId_toValue hid, rfl⟩
  rw [wireParse, hid]
  simp [wireSuccess, parseResponse, Json.asObject, Json.get, List.lookup, orFault, refuse, bind,
    Except.bind]

theorem parse_wireFailure {id : RpcId} {code : Int} (message : String) (hid : id.InRange)
    (hcode : InI64 code) :
    wireParse (wireFailure id code message) = .ok (.failure id code message) := by
  have hid : parseIdField (wireFailure id code message) = .ok (some id) := by
    rw [parseIdField, show (wireFailure id code message).get "id" = some id.toValue from rfl]
    exact bind_ok.mpr ⟨_, parseId_toValue hid, rfl⟩
  have herror : parseResponseError (.object [("code", .number (toString code)),
      ("message", .string message)]) = .ok (code, message) := by
    refine bind_ok.mpr ⟨_, rfl, bind_ok.mpr ⟨code, ?_, rfl⟩⟩
    exact orFault_ok.mpr (asI64_toString hcode)
  have hresponse : parseResponse id (wireFailure id code message)
      = .ok (.failure id code message) := bind_ok.mpr ⟨_, herror, rfl⟩
  rw [wireParse, hid]
  exact hresponse

/-- **What was built is read back.** -/
theorem parse_toValue {sent : WireMessage} (h : sent.Valid) :
    wireParse sent.toValue = .ok sent.incoming := by
  cases sent with
  | request id method params => exact parse_wireRequest params h.1 h.2
  | notification method params => exact parse_wireNotification params h
  | success id result => exact parse_wireSuccess result h
  | failure id code message => exact parse_wireFailure message h.1 h.2

end Classifier

/-! ## The kinds of frames -/

section Kinds

/-- The four kinds of messages. -/
inductive FrameKind where
  | request
  | notification
  | success
  | failure
  deriving DecidableEq, Repr

def Incoming.kind : Incoming → FrameKind
  | request _ _ _ => .request
  | notification _ _ => .notification
  | success _ _ => .success
  | failure _ _ _ => .failure

/-- The object has the key. -/
def Json.has (value : Json) (key : String) : Bool := (value.get key).isSome

/-- The one kind of message that a frame with these keys can be. -/
def kindOf (value : Json) : Option FrameKind :=
  match value.has "id", value.has "method", value.has "result", value.has "error" with
  | true, true, false, false => some .request
  | false, true, false, false => some .notification
  | true, false, true, false => some .success
  | true, false, false, true => some .failure
  | _, _, _, _ => none

theorem parseIdField_ok {value : Json} {id : Option RpcId} (h : parseIdField value = .ok id) :
    value.has "id" = id.isSome := by
  rw [parseIdField] at h
  rw [Json.has]
  cases hid : value.get "id" with
  | none =>
      rw [hid] at h
      cases h
      rfl
  | some found =>
      rw [hid] at h
      obtain ⟨_, _, h⟩ := bind_ok.mp h
      cases h
      rfl

theorem parseResponse_ok {id : RpcId} {value : Json} {incoming : Incoming}
    (h : parseResponse id value = .ok incoming) :
    (incoming.kind = .success ∧ value.has "result" = true ∧ value.has "error" = false)
      ∨ (incoming.kind = .failure ∧ value.has "result" = false ∧ value.has "error" = true) := by
  rw [parseResponse] at h
  rw [Json.has, Json.has]
  cases hresult : value.get "result" with
  | none =>
      cases herror : value.get "error" with
      | none =>
          rw [hresult, herror] at h
          cases h
      | some error =>
          rw [hresult, herror] at h
          obtain ⟨_, _, h⟩ := bind_ok.mp h
          cases h
          exact Or.inr ⟨rfl, rfl, rfl⟩
  | some result =>
      cases herror : value.get "error" with
      | none =>
          rw [hresult, herror] at h
          cases h
          exact Or.inl ⟨rfl, rfl, rfl⟩
      | some error =>
          rw [hresult, herror] at h
          cases h

/-- **A frame that is accepted has the keys of its kind.** -/
theorem parse_ok_kind {value : Json} {incoming : Incoming} (h : wireParse value = .ok incoming) :
    kindOf value = some incoming.kind := by
  obtain ⟨_, _, h⟩ := bind_ok.mp h
  obtain ⟨id, hid, h⟩ := bind_ok.mp h
  obtain ⟨_, hnamed, h⟩ := bind_ok.mp h
  obtain ⟨_, halone, h⟩ := bind_ok.mp h
  rw [refuse_ok] at hnamed halone
  have hid := parseIdField_ok hid
  rw [kindOf, hid]
  cases hmethod : (value.get "method").bind Json.asNonEmptyStr with
  | some method =>
      rw [hmethod, Option.isSome_some, Bool.true_and, Bool.or_eq_false_iff] at halone
      have hhas : value.has "method" = true := by
        obtain ⟨found, hfound, _⟩ := Option.bind_eq_some_iff.mp hmethod
        rw [Json.has, hfound]
        rfl
      rw [hhas, Json.has, Json.has, halone.1, halone.2]
      rw [hmethod] at h
      cases id with
      | some id =>
          cases h
          rfl
      | none =>
          cases h
          rfl
  | none =>
      rw [hmethod, Option.isNone_none, Bool.and_true] at hnamed
      have hhas : value.has "method" = false := hnamed
      rw [hhas]
      rw [hmethod] at h
      cases id with
      | some id =>
          rcases parseResponse_ok h with ⟨hkind, hresult, herror⟩ | ⟨hkind, hresult, herror⟩
          · rw [hresult, herror, hkind]
            rfl
          · rw [hresult, herror, hkind]
            rfl
      | none => cases h

/-- A frame whose keys are those of no kind is refused. -/
theorem parse_refuses {value : Json} (h : kindOf value = none) :
    ∃ error, wireParse value = .error error := by
  cases hparse : wireParse value with
  | error error => exact ⟨error, rfl⟩
  | ok incoming =>
      rw [parse_ok_kind hparse] at h
      cases h

end Kinds

/-! ## The bytes in between -/

section Bytes

open JsonLinesReader

variable {toVec : Json → Except String (List UInt8)} {fromStr : String → Except String Json}
  {maxFrameBytes : Nat}

/-- What the JSON library promises of a value: it prints it, if at all, as a line without a
carriage return, and its parser undoes the print. -/
structure Printed (toVec : Json → Except String (List UInt8))
    (fromStr : String → Except String Json) (value : Json) : Prop where
  line : ∀ bytes, toVec value = .ok bytes → lf ∉ bytes ∧ cr ∉ bytes
  something : toVec value ≠ .ok []
  undone : ∀ bytes, toVec value = .ok bytes →
    ∃ text, fromUtf8 bytes = some text ∧ fromStr text = .ok value

theorem encode_ok {value : Json} {frame : EncodedFrame} :
    EncodedFrame.encode toVec value maxFrameBytes = .ok frame ↔
      ∃ bytes, toVec value = .ok bytes ∧ bytes.length ≤ maxFrameBytes ∧
        frame.bytes = bytes ++ [lf] := by
  rw [EncodedFrame.encode]
  cases hbytes : toVec value with
  | error error => simp
  | ok bytes =>
      dsimp only
      by_cases hlong : bytes.length > maxFrameBytes
      · rw [if_pos hlong]
        constructor
        · intro h
          cases h
        · rintro ⟨_, heq, hle, _⟩
          cases heq
          omega
      · rw [if_neg hlong]
        constructor
        · intro h
          cases h
          exact ⟨bytes, rfl, by omega, rfl⟩
        · rintro ⟨_, heq, _, hframe⟩
          cases heq
          cases frame
          exact congrArg Except.ok (congrArg EncodedFrame.mk hframe.symm)

/-- A printed line within the limit is read as its value. -/
theorem frameValue_printed {value : Json} {bytes : List UInt8}
    (hprinted : Printed toVec fromStr value) (hbytes : toVec value = .ok bytes)
    (hlength : bytes.length ≤ maxFrameBytes) :
    frameValue fromStr maxFrameBytes bytes = some value := by
  have hcr := (hprinted.line bytes hbytes).2
  have hstrip : stripCr bytes = bytes := by
    rw [stripCr, if_neg]
    intro hlast
    exact hcr (List.mem_of_getLast? hlast)
  have hne : bytes ≠ [] := by
    intro hnil
    rw [hnil] at hbytes
    exact hprinted.something hbytes
  obtain ⟨text, htext, hvalue⟩ := hprinted.undone bytes hbytes
  have hparse : parseFrame fromStr bytes = .ok value := by
    rw [parseFrame, htext]
    dsimp only
    rw [hvalue]
  rw [frameValue, hstrip, if_pos ⟨hlength, hne⟩, hparse]
  rfl

/-- **The stream of the encoded frames means their values**, and then whatever follows. -/
theorem reference_frames {values : List Json} {frames : List EncodedFrame}
    (hprinted : ∀ value ∈ values, Printed toVec fromStr value)
    (hframes : values.mapM (fun value => EncodedFrame.encode toVec value maxFrameBytes)
      = .ok frames) (rest : List UInt8) :
    reference fromStr maxFrameBytes (frames.flatMap (·.bytes) ++ rest)
      = values.map .value ++ reference fromStr maxFrameBytes rest := by
  induction values generalizing frames with
  | nil =>
      cases hframes
      rfl
  | cons value values ih =>
      rw [List.mapM_cons] at hframes
      obtain ⟨frame, hframe, hframes⟩ := bind_ok.mp hframes
      obtain ⟨later, hlater, hframes⟩ := bind_ok.mp hframes
      cases hframes
      obtain ⟨bytes, hbytes, hlength, hline⟩ := encode_ok.mp hframe
      have hhead := hprinted value List.mem_cons_self
      have htail := ih (fun v hv => hprinted v (List.mem_cons_of_mem _ hv)) hlater
      have hlf := (hhead.line bytes hbytes).1
      rw [List.flatMap_cons, hline, List.append_assoc, List.append_assoc, List.singleton_append,
        reference_line maxFrameBytes hlf, frameValue_printed hhead hbytes hlength]
      dsimp only
      rw [htail]
      rfl

/-! ## Deliveries -/

/-- What reading and then classifying a frame brings. -/
inductive Delivery where
  | message (incoming : Incoming)
  | refused (error : Error)
  | failure
  | finished

def deliver : Outcome → Delivery
  | .value value =>
    match wireParse value with
    | .ok incoming => .message incoming
    | .error error => .refused error
  | .failure => .failure
  | .finished => .finished

/-- What repeated calls of `next`, each followed by `parse`, bring, up to the first failure
to read or the end. -/
def Delivers (fromStr : String → Except String Json) (reader : JsonLinesReader) (chunks : Chunks)
    (deliveries : List Delivery) : Prop :=
  ∃ outcomes, Reads fromStr reader chunks outcomes ∧ deliveries = outcomes.map deliver

/-- What is delivered is what the bytes mean. -/
theorem delivers_iff {stream : Chunks} (hstream : ∀ chunk ∈ stream, chunk ≠ [])
    (deliveries : List Delivery) :
    Delivers fromStr (new maxFrameBytes) stream deliveries ↔
      deliveries = (reference fromStr maxFrameBytes stream.flatten).map deliver := by
  have hnew := within_new maxFrameBytes hstream
  constructor
  · rintro ⟨outcomes, hreads, rfl⟩
    rw [reads_reference hreads hnew]
    rfl
  · intro h
    obtain ⟨outcomes, hreads⟩ := reads_total fromStr hnew
    have hmeans : outcomes = reference fromStr maxFrameBytes stream.flatten :=
      reads_reference hreads hnew
    exact ⟨outcomes, hreads, by rw [h, hmeans]⟩

theorem deliver_toValue {sent : WireMessage} (h : sent.Valid) :
    deliver (.value sent.toValue) = .message sent.incoming := by
  rw [deliver, parse_toValue h]

/--
**The wire format round-trips.**

Whatever messages the builders made and the encoder accepted, the concatenated frames, cut
into non-empty chunks in any way, deliver exactly these messages in order and then the end.
And a frame that the classifier accepts has the keys of one kind of message, the kind it is
read as: a method beside a result or an error is refused, and so is a frame without a method
that has both a result and an error, or neither.
-/
theorem wire_round_trips (toVec : Json → Except String (List UInt8))
    (fromStr : String → Except String Json) :
    (∀ (maxFrameBytes : Nat) (messages : List WireMessage) (frames : List EncodedFrame)
        (stream : Chunks),
      (∀ sent ∈ messages, sent.Valid) →
      (∀ sent ∈ messages, Printed toVec fromStr sent.toValue) →
      messages.mapM (fun sent => EncodedFrame.encode toVec sent.toValue maxFrameBytes)
        = .ok frames →
      (∀ chunk ∈ stream, chunk ≠ []) → stream.flatten = frames.flatMap (·.bytes) →
      ∀ deliveries, Delivers fromStr (new maxFrameBytes) stream deliveries ↔
        deliveries = messages.map (fun sent => .message sent.incoming) ++ [.finished])
      ∧ (∀ value incoming, wireParse value = .ok incoming → kindOf value = some incoming.kind)
      ∧ (∀ value : Json, value.has "method" = true →
        value.has "result" = true ∨ value.has "error" = true →
        ∃ error, wireParse value = .error error)
      ∧ ∀ value : Json, value.has "method" = false → value.has "result" = value.has "error" →
        ∃ error, wireParse value = .error error := by
  refine ⟨?_, fun value incoming h => parse_ok_kind h, ?_, ?_⟩
  · intro maxFrameBytes messages frames stream hvalid hprinted hframes hstream hbytes deliveries
    have hvalues : (messages.map WireMessage.toValue).mapM
        (fun value => EncodedFrame.encode toVec value maxFrameBytes) = .ok frames := by
      rw [List.mapM_map]
      exact hframes
    have hmeans := reference_frames (by simpa using hprinted) hvalues []
    rw [List.append_nil, reference_tail maxFrameBytes List.not_mem_nil, if_pos rfl] at hmeans
    rw [delivers_iff hstream, hbytes, hmeans, List.map_append, List.map_map, List.map_map]
    have hdelivered : messages.map ((deliver ∘ .value) ∘ WireMessage.toValue)
        = messages.map (fun sent => .message sent.incoming) :=
      List.map_congr_left (fun sent hsent => deliver_toValue (hvalid sent hsent))
    rw [hdelivered]
    rfl
  · intro value hmethod hboth
    refine parse_refuses ?_
    rcases hboth with h | h <;> rw [kindOf, hmethod, h] <;> split <;> simp_all
  · intro value hmethod hsame
    refine parse_refuses ?_
    rw [kindOf, hmethod, hsame]
    split <;> simp_all

/-- The bytes of a text read as it. -/
theorem fromUtf8_toBytes (value : Json) : fromUtf8 value.toBytes = some value.toText := by
  have hbytes : (⟨value.toBytes.toArray⟩ : ByteArray) = value.toText.toUTF8 := rfl
  have hvalid : value.toText.toUTF8.IsValidUTF8 := value.toText.isValidUTF8
  rw [fromUtf8, String.fromUTF8?, hbytes, dif_pos hvalid]
  rfl

/-- A request at the limit and a notification, cut inside the request and before the last
newline; and a method beside a result. -/
theorem wire_round_trips_ping :
    Delivers (fun text =>
        if text = (wireRequest 7 "ping" .null).toText then .ok (wireRequest 7 "ping" .null)
        else if text = (wireNotification "done" .null).toText then
          .ok (wireNotification "done" .null)
        else .error "expected value at line 1 column 1")
      (new 38)
      [(wireRequest 7 "ping" .null).toBytes.take 20,
        (wireRequest 7 "ping" .null).toBytes.drop 20
          ++ lf :: (wireNotification "done" .null).toBytes,
        [lf]]
      [.message (.request (.number 7) "ping" .null), .message (.notification "done" .null),
        .finished]
      ∧ ∃ error,
        wireParse (.object [("method", .string "ping"), ("result", .null)]) = .error error := by
  let messages : List WireMessage := [.request 7 "ping" .null, .notification "done" .null]
  have htrips := wire_round_trips (fun value => .ok value.toBytes) (fun text =>
    if text = (wireRequest 7 "ping" .null).toText then .ok (wireRequest 7 "ping" .null)
    else if text = (wireNotification "done" .null).toText then
      .ok (wireNotification "done" .null)
    else .error "expected value at line 1 column 1")
  have hline : ∀ sent ∈ messages, lf ∉ sent.toValue.toBytes ∧ cr ∉ sent.toValue.toBytes
      ∧ sent.toValue.toBytes ≠ [] := by decide +kernel
  refine ⟨(htrips.1 38 messages [⟨(wireRequest 7 "ping" .null).toBytes ++ [lf]⟩,
    ⟨(wireNotification "done" .null).toBytes ++ [lf]⟩] _ ?_ ?_ (by decide +kernel)
    (by decide +kernel) (by decide +kernel) _).mpr rfl, htrips.2.2.1 _ rfl (Or.inl rfl)⟩
  · intro sent hsent
    rcases List.mem_cons.mp hsent with rfl | hsent
    · exact ⟨by decide, by decide⟩
    · rw [List.mem_singleton.mp hsent]
      exact (by decide : "done" ≠ "")
  · intro sent hsent
    constructor
    · rintro _ ⟨rfl⟩
      exact ⟨(hline sent hsent).1, (hline sent hsent).2.1⟩
    · intro hnil
      exact (hline sent hsent).2.2 (Except.ok.inj hnil)
    · rintro _ ⟨rfl⟩
      refine ⟨_, fromUtf8_toBytes _, ?_⟩
      rcases List.mem_cons.mp hsent with rfl | hsent
      · exact if_pos rfl
      · rw [List.mem_singleton.mp hsent]
        exact (if_neg (by decide +kernel)).trans (if_pos rfl)

end Bytes

end Vergerail
