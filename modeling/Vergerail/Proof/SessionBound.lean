import Vergerail.Proof.PrintedText
import Vergerail.Proof.ToolCalls

/-!
# The byte bound of a model session

An answer that passes the checks has a bounded text, at most 64 tools and calls with bounded
names and ids, and bounded arguments all together. A text of it is longer than these by the
expansion of the strings and by what stands around them: at most 6 bytes more for a tool, 79
for a call and 92 for the body, which the wrapper bytes and the headroom of the bound cover.
-/

namespace Vergerail.UpagentPrompt

open Lib UpagentProvider

/-! ## What an accepted answer is -/

/-- Flattening finds every tool once, so no two have the same name. -/
theorem flattenTools_nodup {tools : List ProviderTool}
    {state after : NativeToolCalls × List ProviderToolCall}
    (h : tools.foldlM flattenTool state = .ok after) :
    (tools.map (·.name)).Nodup ∧
      ∀ tool ∈ tools, tool.name ∈ SortedMap.keys state.1.entries := by
  induction tools generalizing state with
  | nil => exact ⟨List.nodup_nil, fun tool htool => nomatch htool⟩
  | cons tool tools ih =>
      rw [List.foldlM_cons, bind_ok] at h
      obtain ⟨middle, hstep, h⟩ := h
      obtain ⟨calls, hcalls, hstep⟩ := bind_ok.mp hstep
      obtain ⟨pushed, _, hstep⟩ := bind_ok.mp hstep
      cases hstep
      rw [orFault_ok] at hcalls
      obtain ⟨hunique, hkeys⟩ := ih h
      have hkept : ∀ other ∈ tools, other.name ∈ SortedMap.keys state.1.entries ∧
          other.name ≠ tool.name := by
        intro other hother
        have hkey := hkeys other hother
        unfold NativeToolCalls.erase at hkey
        rw [SortedMap.mem_keys_iff] at hkey ⊢
        have hne : other.name ≠ tool.name := by
          intro heq
          rw [heq, SortedMap.lookup_erase_self] at hkey
          cases hkey
        rw [SortedMap.lookup_erase_ne hne] at hkey
        exact ⟨hkey, hne⟩
      refine ⟨List.nodup_cons.mpr ⟨?_, hunique⟩, ?_⟩
      · intro hmem
        obtain ⟨other, hother, heq⟩ := List.mem_map.mp hmem
        exact (hkept other hother).2 heq
      · intro other hother
        rcases List.mem_cons.mp hother with rfl | hother
        · rw [SortedMap.mem_keys_iff, hcalls]
          rfl
        · exact (hkept other hother).1

/-- The sizes of an answer that is taken. -/
structure AnswerBounded (grouped : NativeToolCalls) : Prop where
  tools : grouped.entries.length ≤ maxTools
  names : ∀ entry ∈ grouped.entries, entry.1.utf8ByteSize ≤ maxToolNameBytes
  count : grouped.calls.length ≤ NativeSchema.maxToolCalls
  ids : ∀ call ∈ grouped.calls, call.id.utf8ByteSize ≤ NativeSchema.maxToolCallIdBytes
  aggregate : (grouped.calls.map (·.arguments.encodedBytes)).sum ≤ maxToolArgumentsBytes

variable {tools : List ProviderTool} {grouped : NativeToolCalls} {calls : List ProviderToolCall}

theorem answerBounded_of_checked (htools : tools.length ≤ maxTools)
    (hnames : ∀ tool ∈ tools, tool.name.utf8ByteSize ≤ maxToolNameBytes)
    (hflatten : flattenNativeToolCalls grouped tools = .ok calls)
    (hreturned : validateReturnedTools tools calls = .ok ()) : AnswerBounded grouped := by
  have hunique : (tools.map (·.name)).Nodup := by
    obtain ⟨after, hloop, _⟩ := bind_ok.mp hflatten
    exact (flattenTools_nodup hloop).1
  obtain ⟨hkeys, rfl, hcount⟩ := (flattenNativeToolCalls_ok_iff hunique).mp hflatten
  obtain ⟨_, hsound⟩ := validateReturnedTools_ok_iff.mp hreturned
  have hperm := flattened_perm hunique hkeys
  have hentries := SortedMap.keys_nodup grouped.sorted
  constructor
  · have hsub : SortedMap.keys grouped.entries ⊆ tools.map (·.name) :=
      fun name hname => (hkeys name).mp hname
    have hle := (List.subperm_of_subset hentries hsub).length_le
    rw [SortedMap.keys, List.length_map, List.length_map] at hle
    omega
  · intro entry hentry
    obtain ⟨tool, htool, heq⟩ := List.mem_map.mp ((hkeys entry.1).mp (List.mem_map_of_mem hentry))
    rw [← heq]
    exact hnames tool htool
  · have hcalls : grouped.namedCalls.length = grouped.calls.length := by
      have hunits : grouped.namedCalls.map (fun _ => ()) = grouped.calls.map (fun _ => ()) :=
        map_namedCalls _ _ (fun _ _ => rfl)
      simpa using congrArg List.length hunits
    have hlength := hperm.length_eq
    omega
  · intro call hcall
    obtain ⟨tool, htool, hmem⟩ := (mem_calls_iff hkeys).mp hcall
    have hflat : call.named tool.name ∈ flattened grouped tools :=
      List.mem_flatMap.mpr ⟨tool, htool, List.mem_map_of_mem hmem⟩
    exact (hsound.sound _ hflat).id.bounded
  · have hsum : ((flattened grouped tools).map (·.arguments.encodedBytes)).sum =
        (grouped.calls.map (·.arguments.encodedBytes)).sum := by
      rw [← map_namedCalls (·.arguments.encodedBytes) _ (fun _ _ => rfl)]
      exact (hperm.map _).sum_nat
    have haggregate := hsound.aggregate
    dsimp only at haggregate
    omega

/-! ## The length of its texts -/

open Json

theorem length_names : "text".utf8ByteSize = 4 ∧ "toolCalls".utf8ByteSize = 9 ∧
    "id".utf8ByteSize = 2 ∧ "arguments".utf8ByteSize = 9 := by decide

/-- A call, with the comma behind it. -/
theorem callWidest_le {call : NativeToolCall}
    (hid : call.id.utf8ByteSize ≤ NativeSchema.maxToolCallIdBytes) :
    call.toJson.widest jsonStringMaxExpansion + 1 ≤ 1231 + 6 * call.arguments.encodedBytes := by
  obtain ⟨_, _, hidName, hargumentsName⟩ := length_names
  have harguments : call.arguments.widest jsonStringMaxExpansion ≤
      jsonStringMaxExpansion * call.arguments.encodedBytes := widest_le (by decide) call.arguments
  unfold NativeToolCall.toJson
  unfold NativeSchema.maxToolCallIdBytes at hid
  unfold jsonStringMaxExpansion at harguments ⊢
  rw [widest, membersWidest, membersWidest, membersWidest, widest, hidName, hargumentsName]
  omega

theorem callsWidest_le {calls : List NativeToolCall}
    (hids : ∀ call ∈ calls, call.id.utf8ByteSize ≤ NativeSchema.maxToolCallIdBytes) :
    itemsWidest jsonStringMaxExpansion (calls.map NativeToolCall.toJson)
      ≤ 1231 * calls.length + 6 * (calls.map (·.arguments.encodedBytes)).sum := by
  induction calls with
  | nil => exact Nat.zero_le _
  | cons call calls ih =>
      obtain ⟨hid, hids⟩ := List.forall_mem_cons.mp hids
      have hcall := callWidest_le hid
      have hrest := ih hids
      rw [List.map_cons, itemsWidest, List.length_cons, List.map_cons, List.sum_cons]
      omega

theorem entriesWidest_le {entries : List (String × List NativeToolCall)}
    (hnames : ∀ entry ∈ entries, entry.1.utf8ByteSize ≤ maxToolNameBytes)
    (hids : ∀ call ∈ entries.flatMap (·.2),
      call.id.utf8ByteSize ≤ NativeSchema.maxToolCallIdBytes) :
    membersWidest jsonStringMaxExpansion (entries.map (fun entry =>
        (entry.1, Json.array (entry.2.map NativeToolCall.toJson))))
      ≤ 966 * entries.length + 1231 * (entries.flatMap (·.2)).length
        + 6 * ((entries.flatMap (·.2)).map (·.arguments.encodedBytes)).sum := by
  induction entries with
  | nil => exact Nat.zero_le _
  | cons entry entries ih =>
      obtain ⟨name, calls⟩ := entry
      obtain ⟨hname, hnames⟩ := List.forall_mem_cons.mp hnames
      rw [List.flatMap_cons] at hids ⊢
      have hcalls : itemsWidest jsonStringMaxExpansion (calls.map NativeToolCall.toJson) ≤ _ :=
        callsWidest_le (fun call hcall => hids call (List.mem_append_left _ hcall))
      have hrest := ih hnames (fun call hcall => hids call (List.mem_append_right _ hcall))
      dsimp only at hname ⊢
      unfold maxToolNameBytes at hname
      rw [List.map_cons, membersWidest, widest, List.length_cons, List.length_append,
        List.map_append, List.sum_append]
      have hexpansion : jsonStringMaxExpansion * name.utf8ByteSize = 6 * name.utf8ByteSize := rfl
      dsimp only
      omega

/-- What surrounds the text and the calls takes at most 92 bytes. -/
theorem bodyWidest_le {answer : String} (h : AnswerBounded grouped) :
    (ModelResponseBody.tool answer grouped).toJson.widest jsonStringMaxExpansion
      ≤ 92 + 6 * answer.utf8ByteSize + 64 * 966 + 64 * 1231 + 6 * maxToolArgumentsBytes := by
  obtain ⟨htext, htoolCalls, _, _⟩ := length_names
  have hentries := entriesWidest_le h.names h.ids
  have htools := h.tools
  have hcount := h.count
  have haggregate := h.aggregate
  unfold maxTools at htools
  unfold NativeSchema.maxToolCalls at hcount
  unfold NativeToolCalls.calls at hcount haggregate
  unfold ModelResponseBody.toJson NativeToolCalls.toJson
  dsimp only
  rw [widest, membersWidest, membersWidest, membersWidest, widest, widest, htext, htoolCalls]
  have hexpansion : jsonStringMaxExpansion * answer.utf8ByteSize = 6 * answer.utf8ByteSize := rfl
  have hsix : jsonStringMaxExpansion = 6 := rfl
  omega

theorem textWidest_le (answer : String) :
    (ModelResponseBody.text answer).toJson.widest jsonStringMaxExpansion
      ≤ 92 + 6 * answer.utf8ByteSize := by
  obtain ⟨htext, _, _, _⟩ := length_names
  unfold ModelResponseBody.toJson
  dsimp only
  rw [widest, membersWidest, membersWidest, widest, htext]
  unfold jsonStringMaxExpansion
  omega

/-! ## The bound -/

/-- For every allowed text the sums and products are in range, and below the frame. -/
theorem modelSessionBytes_eq {maximumResponseBytes : Nat} (h : maximumResponseBytes ≤ maxTextBytes) :
    modelSessionBytes maximumResponseBytes =
      jsonStringMaxExpansion * (maximumResponseBytes + maxToolArgumentsBytes +
        NativeSchema.maxToolCalls * (NativeSchema.maxToolCallIdBytes + maxToolNameBytes)) +
      NativeSchema.maxToolCalls * modelToolCallWrapperBytes + modelResponseHeadroomBytes := by
  unfold maxTextBytes at h
  simp only [modelSessionBytes, saturatingAdd, saturatingMul, jsonStringMaxExpansion,
    maxToolArgumentsBytes, NativeSchema.maxToolCalls, NativeSchema.maxToolCallIdBytes,
    maxToolNameBytes, modelToolCallWrapperBytes, modelResponseHeadroomBytes,
    maxModelSessionBytes, usizeMax]
  omega

/-- What is checked of the text and the calls. -/
theorem taken_checks {maximumResponseBytes : Nat} {answer : String × List ProviderToolCall}
    {taken : String × List ProviderToolCall}
    (h : (do
      let taken ← pure answer
      refuse (taken.1.utf8ByteSize > maximumResponseBytes
          || taken.2.length > NativeSchema.maxToolCalls)
        (resourceLimit "structured model response exceeded the configured bound")
      validateReturnedTools tools taken.2
      pure taken : ProviderResult (String × List ProviderToolCall)) = .ok taken) :
    answer.1.utf8ByteSize ≤ maximumResponseBytes ∧
      validateReturnedTools tools answer.2 = .ok () := by
  obtain ⟨_, hpure, h⟩ := bind_ok.mp h
  cases hpure
  obtain ⟨_, hsize, h⟩ := bind_ok.mp h
  obtain ⟨_, hreturned, _⟩ := bind_ok.mp h
  rw [refuse_ok, Bool.or_eq_false_iff, decide_eq_false_iff_not, not_lt] at hsize
  exact ⟨hsize.1, hreturned⟩

/-- **The byte bound of a session** covers every text of every answer that is taken, and for
every allowed text it is below the largest frame, with no sum or product saturated. -/
theorem model_session_bytes_covers (maximumResponseBytes : Nat) (tools : List ProviderTool)
    (body : ModelResponseBody) (taken : String × List ProviderToolCall)
    (hmaximum : maximumResponseBytes ≤ maxTextBytes) (htools : tools.length ≤ maxTools)
    (hnames : ∀ tool ∈ tools, tool.name.utf8ByteSize ≤ maxToolNameBytes)
    (htaken : takeModelAnswer maximumResponseBytes tools body = .ok taken) :
    (∀ out, Json.Written jsonStringMaxExpansion body.toJson out →
      out.length ≤ modelSessionBytes maximumResponseBytes) ∧
    modelSessionBytes maximumResponseBytes ≤ maxModelSessionBytes ∧
    modelSessionBytes maximumResponseBytes =
      jsonStringMaxExpansion * (maximumResponseBytes + maxToolArgumentsBytes +
        NativeSchema.maxToolCalls * (NativeSchema.maxToolCallIdBytes + maxToolNameBytes)) +
      NativeSchema.maxToolCalls * modelToolCallWrapperBytes + modelResponseHeadroomBytes := by
  have hvalue : modelSessionBytes maximumResponseBytes =
      6 * (maximumResponseBytes + 1048576 + 64 * (192 + 160)) + 64 * 128 + 262144 :=
    modelSessionBytes_eq hmaximum
  refine ⟨?_, ?_, modelSessionBytes_eq hmaximum⟩
  · intro out hout
    have hlength := length_written hout
    cases body with
    | text answer =>
        obtain ⟨_, _, htaken⟩ := bind_ok.mp htaken
        have htext : answer.utf8ByteSize ≤ maximumResponseBytes := (taken_checks htaken).1
        have hwidest := textWidest_le answer
        omega
    | tool answer grouped =>
        obtain ⟨_, _, htaken⟩ := bind_ok.mp htaken
        obtain ⟨calls, hflatten, htaken⟩ := bind_ok.mp htaken
        obtain ⟨hsize, hreturned⟩ := taken_checks htaken
        have htext : answer.utf8ByteSize ≤ maximumResponseBytes := hsize
        have hwidest : _ ≤ 92 + 6 * answer.utf8ByteSize + 64 * 966 + 64 * 1231 + 6 * 1048576 :=
          bodyWidest_le (answerBounded_of_checked htools hnames hflatten hreturned)
        omega
  · have hframe : maxModelSessionBytes = 67108864 := rfl
    unfold maxTextBytes at hmaximum
    omega

/-- An answer with a call of each of two tools, as `serde_json` writes it. -/
theorem model_session_bytes_covers_test :
    (ModelResponseBody.tool "done" testCalls).toJson.toBytes.length ≤ modelSessionBytes 4 :=
  (model_session_bytes_covers 4 testTools (.tool "done" testCalls)
    ("done", flattened testCalls testTools) (by decide) (by decide) (by decide) rfl).1 _
    (Json.written_toBytes (Nat.le_refl 6) _)

end Vergerail.UpagentPrompt
