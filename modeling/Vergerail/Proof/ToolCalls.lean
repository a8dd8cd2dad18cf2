import Vergerail.Bin.UpagentTools

/-!
# The tool calls of an answer survive flattening

The map is emptied tool by tool while the list grows, and the limits are checked in two
places. What holds between: the list so far is made of the calls of the tools gone through,
the map holds the others, and no limit is exceeded. At the end the list is the map, in the
order of the tools.
-/

namespace Vergerail.UpagentPrompt

open Lib UpagentProvider

/-! ## What an answer must look like -/

namespace NativeToolCalls

/-- The calls of a tool. -/
def callsOf (grouped : NativeToolCalls) (name : String) : List NativeToolCall :=
  (grouped.entries.lookup name).getD []

/-- All calls of the map. -/
def calls (grouped : NativeToolCalls) : List NativeToolCall := grouped.entries.flatMap (·.2)

/-- All calls of the map, each with the name of its tool. -/
def namedCalls (grouped : NativeToolCalls) : List ProviderToolCall :=
  grouped.entries.flatMap (fun entry => entry.2.map (·.named entry.1))

end NativeToolCalls

/-- The calls in the order of the tools. -/
def flattened (grouped : NativeToolCalls) (tools : List ProviderTool) : List ProviderToolCall :=
  tools.flatMap (fun tool => (grouped.callsOf tool.name).map (·.named tool.name))

/-- A text of one byte at least, of `maximum` at most, and without a NUL. -/
structure BoundedText (value : String) (maximum : Nat) : Prop where
  nonempty : value ≠ ""
  bounded : value.utf8ByteSize ≤ maximum
  noNul : holdsNul value = false

/-- A call that can be executed. -/
structure CallSound (call : NativeToolCall) : Prop where
  id : BoundedText call.id NativeSchema.maxToolCallIdBytes
  object : ∃ members, call.arguments = .object members
  bounded : call.arguments.encodedBytes ≤ maxToolArgumentBytes

/-- **The answer names the advertised tools and no others, and its calls are sound, told
apart by their ids and within the limits.** -/
structure CallsSound (grouped : NativeToolCalls) (tools : List ProviderTool) : Prop where
  keys : ∀ name, name ∈ SortedMap.keys grouped.entries ↔ name ∈ tools.map (·.name)
  count : grouped.calls.length ≤ NativeSchema.maxToolCalls
  unique : (grouped.calls.map (·.id)).Nodup
  sound : ∀ call ∈ grouped.calls, CallSound call
  aggregate : (grouped.calls.map (·.arguments.encodedBytes)).sum ≤ maxToolArgumentsBytes

/-! ## The advertised tools -/

theorem validateBoundedText_ok {value label : String} {maximum : Nat} {u : Unit} :
    validateBoundedText value label maximum = .ok u ↔ BoundedText value maximum := by
  rw [validateBoundedText, refuse_ok]
  simp only [Bool.or_eq_false_iff, decide_eq_false_iff_not, gt_iff_lt, not_lt]
  constructor
  · rintro ⟨⟨hne, hbound⟩, hnul⟩
    exact ⟨by simpa using hne, hbound, hnul⟩
  · intro h
    exact ⟨⟨by simpa using h.nonempty, h.bounded⟩, h.noNul⟩

/-- The names seen so far are the tools' names, each bounded and none twice. -/
structure ToolsNamed (tools : List ProviderTool) (names : List String) : Prop where
  seen : ∀ name, name ∈ names ↔ name ∈ tools.map (·.name)
  unique : (tools.map (·.name)).Nodup
  bounded : ∀ tool ∈ tools, BoundedText tool.name maxToolNameBytes

theorem ToolsNamed.step {tools : List ProviderTool} {names names' : List String}
    {tool : ProviderTool} (h : ToolsNamed tools names) (hstep : validateTool names tool = .ok names') :
    ToolsNamed (tools ++ [tool]) names' := by
  obtain ⟨_, hname, hstep⟩ := bind_ok.mp hstep
  obtain ⟨_, _, hstep⟩ := bind_ok.mp hstep
  obtain ⟨_, _, hstep⟩ := bind_ok.mp hstep
  obtain ⟨_, _, hstep⟩ := bind_ok.mp hstep
  obtain ⟨_, hnew, hstep⟩ := bind_ok.mp hstep
  cases hstep
  rw [refuse_ok, decide_eq_false_iff_not, h.seen] at hnew
  constructor
  · intro name
    rw [List.mem_cons, h.seen, List.map_append, List.mem_append, List.map_singleton,
      List.mem_singleton, or_comm]
  · rw [List.map_append, List.map_singleton]
    exact List.Nodup.append h.unique (List.nodup_singleton _) (by simpa using hnew)
  · intro other hother
    rcases List.mem_append.mp hother with hother | hother
    · exact h.bounded other hother
    · rw [List.mem_singleton.mp hother]
      exact validateBoundedText_ok.mp hname

/-- Accepted tools have bounded names, and no two the same. -/
theorem validateTools_ok {tools : List ProviderTool} {names : List String}
    (h : tools.foldlM validateTool [] = .ok names) : ToolsNamed tools names := by
  have hstart : ToolsNamed [] [] := ⟨by simp, by simp, by simp⟩
  exact foldlM_ok (P := ToolsNamed) (fun _ _ _ _ hseen hstep => hseen.step hstep) hstart h

/-! ## Flattening -/

theorem pushToolCalls_ok_iff {name : String} {calls : List NativeToolCall}
    {before after : List ProviderToolCall} (hbefore : before.length ≤ NativeSchema.maxToolCalls) :
    calls.foldlM (pushToolCall name) before = .ok after ↔
      after = before ++ calls.map (·.named name) ∧ after.length ≤ NativeSchema.maxToolCalls := by
  induction calls generalizing before with
  | nil =>
      rw [List.foldlM_nil, List.map_nil, List.append_nil]
      constructor
      · intro h
        cases h
        exact ⟨rfl, hbefore⟩
      · rintro ⟨rfl, _⟩
        rfl
  | cons call calls ih =>
      rw [List.foldlM_cons, bind_ok, List.map_cons, List.append_cons]
      constructor
      · rintro ⟨next, hnext, h⟩
        obtain ⟨_, hlimit, hnext⟩ := bind_ok.mp hnext
        cases hnext
        rw [refuse_ok, decide_eq_false_iff_not, not_lt] at hlimit
        exact (ih hlimit).mp h
      · rintro ⟨hafter, hlength⟩
        have hlimit : (before ++ [call.named name]).length ≤ NativeSchema.maxToolCalls := by
          rw [hafter, List.length_append] at hlength
          omega
        refine ⟨before ++ [call.named name], bind_ok.mpr ⟨(), ?_, rfl⟩, (ih hlimit).mpr
          ⟨hafter, hlength⟩⟩
        rw [refuse_ok, decide_eq_false_iff_not, not_lt]
        exact hlimit

theorem NativeToolCalls.ext {grouped other : NativeToolCalls}
    (h : grouped.entries = other.entries) : grouped = other := by
  cases grouped
  cases other
  cases h
  rfl

theorem flattenTool_ok_iff {grouped rest : NativeToolCalls}
    {before after : List ProviderToolCall} {tool : ProviderTool}
    (hbefore : before.length ≤ NativeSchema.maxToolCalls) :
    flattenTool (grouped, before) tool = .ok (rest, after) ↔
      tool.name ∈ SortedMap.keys grouped.entries ∧ rest = grouped.erase tool.name ∧
      after = before ++ (grouped.callsOf tool.name).map (·.named tool.name) ∧
      after.length ≤ NativeSchema.maxToolCalls := by
  rw [flattenTool, bind_ok, SortedMap.mem_keys_iff, NativeToolCalls.callsOf]
  constructor
  · rintro ⟨calls, hcalls, h⟩
    obtain ⟨pushed, hpushed, h⟩ := bind_ok.mp h
    cases h
    rw [orFault_ok] at hcalls
    obtain ⟨hafter, hlength⟩ := (pushToolCalls_ok_iff hbefore).mp hpushed
    rw [hcalls]
    exact ⟨rfl, rfl, hafter, hlength⟩
  · rintro ⟨hkey, rfl, hafter, hlength⟩
    obtain ⟨calls, hcalls⟩ := Option.isSome_iff_exists.mp hkey
    rw [hcalls, Option.getD_some] at hafter
    refine ⟨calls, orFault_ok.mpr hcalls, ?_⟩
    exact bind_ok.mpr ⟨after, (pushToolCalls_ok_iff hbefore).mpr ⟨hafter, hlength⟩, rfl⟩

/-- Taking a tool's calls away leaves those of the others. -/
theorem callsOf_erase {grouped : NativeToolCalls} {name other : String} (h : other ≠ name) :
    (grouped.erase name).callsOf other = grouped.callsOf other := by
  rw [NativeToolCalls.callsOf, NativeToolCalls.erase, SortedMap.lookup_erase_ne h,
    NativeToolCalls.callsOf]

theorem flattened_erase {grouped : NativeToolCalls} {name : String} {tools : List ProviderTool}
    (h : name ∉ tools.map (·.name)) :
    flattened (grouped.erase name) tools = flattened grouped tools := by
  refine List.flatMap_congr (fun tool htool => ?_)
  have hne : tool.name ≠ name := fun heq => h (heq ▸ List.mem_map_of_mem htool)
  rw [callsOf_erase hne]

/-- The loop over the tools: it ends well if every tool has its key and the limit holds, and
it has then moved the calls of the tools from the map to the list. -/
theorem flattenTools_ok_iff {tools : List ProviderTool} (hunique : (tools.map (·.name)).Nodup)
    {grouped rest : NativeToolCalls} {before after : List ProviderToolCall}
    (hbefore : before.length ≤ NativeSchema.maxToolCalls) :
    tools.foldlM flattenTool (grouped, before) = .ok (rest, after) ↔
      (∀ tool ∈ tools, tool.name ∈ SortedMap.keys grouped.entries) ∧
      rest.entries = grouped.entries.filter (fun entry => entry.1 ∉ tools.map (·.name)) ∧
      after = before ++ flattened grouped tools ∧ after.length ≤ NativeSchema.maxToolCalls := by
  induction tools generalizing grouped before with
  | nil =>
      rw [List.foldlM_nil, flattened, List.flatMap_nil, List.append_nil]
      simp only [List.map_nil, List.not_mem_nil, not_false_eq_true, decide_true, List.filter_true]
      constructor
      · intro h
        cases h
        exact ⟨by simp, rfl, rfl, hbefore⟩
      · rintro ⟨_, hrest, rfl, _⟩
        rw [NativeToolCalls.ext hrest]
        rfl
  | cons tool tools ih =>
      obtain ⟨hfresh, hunique⟩ := List.nodup_cons.mp hunique
      have hkeys : ∀ other ∈ tools, other.name ∈ SortedMap.keys (grouped.erase tool.name).entries ↔
          other.name ∈ SortedMap.keys grouped.entries := by
        intro other hother
        have hne : other.name ≠ tool.name :=
          fun heq => hfresh (List.mem_map.mpr ⟨other, hother, heq⟩)
        rw [SortedMap.mem_keys_iff, SortedMap.mem_keys_iff, NativeToolCalls.erase,
          SortedMap.lookup_erase_ne hne]
      have hfilter : (grouped.erase tool.name).entries.filter
            (fun entry => entry.1 ∉ tools.map (·.name)) =
          grouped.entries.filter (fun entry => entry.1 ∉ (tool :: tools).map (·.name)) := by
        simp only [NativeToolCalls.erase, SortedMap.erase, List.filter_filter]
        refine List.filter_congr (fun entry _ => ?_)
        simp only [List.map_cons, List.mem_cons, not_or, Bool.decide_and, Bool.and_comm]
      rw [List.foldlM_cons, bind_ok, List.forall_mem_cons, ← hfilter]
      constructor
      · rintro ⟨⟨middle, pushed⟩, hstep, h⟩
        obtain ⟨hkey, rfl, rfl, hlength⟩ := (flattenTool_ok_iff hbefore).mp hstep
        obtain ⟨hothers, hrest, hafter, hlength⟩ := (ih hunique hlength).mp h
        refine ⟨⟨hkey, fun other hother => (hkeys other hother).mp (hothers other hother)⟩, hrest,
          ?_, hlength⟩
        rw [hafter, flattened_erase hfresh, flattened, flattened, List.flatMap_cons,
          List.append_assoc]
      · rintro ⟨⟨hkey, hothers⟩, hrest, hafter, hlength⟩
        rw [flattened, List.flatMap_cons, ← List.append_assoc, ← flattened,
          ← flattened_erase hfresh] at hafter
        have hpushed : (before ++ (grouped.callsOf tool.name).map (·.named tool.name)).length
            ≤ NativeSchema.maxToolCalls := by
          rw [hafter, List.length_append] at hlength
          omega
        exact ⟨(grouped.erase tool.name, _),
          (flattenTool_ok_iff hbefore).mpr ⟨hkey, rfl, rfl, hpushed⟩,
          (ih hunique hpushed).mpr ⟨fun other hother => (hkeys other hother).mpr
            (hothers other hother), hrest, hafter, hlength⟩⟩

/-- **Flattening succeeds if the keys are the tools and the limit holds**, and yields the
calls in the order of the tools. -/
theorem flattenNativeToolCalls_ok_iff {grouped : NativeToolCalls} {tools : List ProviderTool}
    (hunique : (tools.map (·.name)).Nodup) {calls : List ProviderToolCall} :
    flattenNativeToolCalls grouped tools = .ok calls ↔
      (∀ name, name ∈ SortedMap.keys grouped.entries ↔ name ∈ tools.map (·.name)) ∧
      calls = flattened grouped tools ∧ calls.length ≤ NativeSchema.maxToolCalls := by
  have hempty : ([] : List ProviderToolCall).length ≤ NativeSchema.maxToolCalls := Nat.zero_le _
  rw [flattenNativeToolCalls, bind_ok]
  constructor
  · rintro ⟨⟨rest, pushed⟩, hloop, h⟩
    obtain ⟨_, hrest, h⟩ := bind_ok.mp h
    cases h
    obtain ⟨htools, hentries, hcalls, hlength⟩ := (flattenTools_ok_iff hunique hempty).mp hloop
    rw [refuse_ok, Bool.not_eq_false', List.isEmpty_iff, hentries, List.filter_eq_nil_iff] at hrest
    refine ⟨fun name => ⟨?_, ?_⟩, hcalls, hlength⟩
    · intro hname
      obtain ⟨entry, hentry, rfl⟩ := List.mem_map.mp hname
      simpa using hrest entry hentry
    · intro hname
      obtain ⟨tool, htool, rfl⟩ := List.mem_map.mp hname
      exact htools tool htool
  · rintro ⟨hkeys, hcalls, hlength⟩
    have hnone : grouped.entries.filter (fun entry => entry.1 ∉ tools.map (·.name)) = [] := by
      rw [List.filter_eq_nil_iff]
      intro entry hentry
      simpa using (hkeys entry.1).mp (List.mem_map_of_mem hentry)
    refine ⟨(⟨[], List.Pairwise.nil⟩, calls), (flattenTools_ok_iff hunique hempty).mpr
      ⟨fun tool htool => (hkeys tool.name).mpr (List.mem_map_of_mem htool), hnone.symm, hcalls,
        hlength⟩, ?_⟩
    exact bind_ok.mpr ⟨(), refuse_ok.mpr rfl, rfl⟩

/-! ## The checks of the list -/

/-- A call that passes `validate_tool_call`. -/
structure ReturnedCallSound (call : ProviderToolCall) : Prop where
  id : BoundedText call.id NativeSchema.maxToolCallIdBytes
  name : BoundedText call.name maxToolNameBytes
  object : ∃ members, call.arguments = .object members
  bounded : call.arguments.encodedBytes ≤ maxToolArgumentBytes

theorem validateToolCall_ok {call : ProviderToolCall} {u : Unit} :
    validateToolCall call = .ok u ↔ ReturnedCallSound call := by
  simp only [validateToolCall, bind_ok, validateBoundedText_ok, refuse_ok,
    decide_eq_false_iff_not, gt_iff_lt, not_lt, exists_const]
  constructor
  · rintro ⟨hid, hname, hisObject, hbound⟩
    refine ⟨hid, hname, ?_, hbound⟩
    cases harguments : call.arguments with
    | object members => exact ⟨members, rfl⟩
    | _ =>
        rw [harguments] at hisObject
        cases hisObject
  · rintro ⟨hid, hname, ⟨members, hobject⟩, hbound⟩
    refine ⟨hid, hname, ?_, hbound⟩
    rw [hobject]

/-- The calls and what was seen before them pass the checks of the loop. -/
structure ReturnedSound (tools : List ProviderTool) (seen : SeenCalls)
    (calls : List ProviderToolCall) : Prop where
  sound : ∀ call ∈ calls, ReturnedCallSound call
  advertised : ∀ call ∈ calls, call.name ∈ tools.map (·.name)
  fresh : ∀ call ∈ calls, call.id ∉ seen.ids
  unique : (calls.map (·.id)).Nodup
  aggregate : seen.argumentBytes + (calls.map (·.arguments.encodedBytes)).sum
    ≤ maxToolArgumentsBytes

theorem checkReturnedCall_ok_iff {tools : List ProviderTool} {seen seen' : SeenCalls}
    {call : ProviderToolCall} :
    checkReturnedCall tools seen call = .ok seen' ↔
      ReturnedCallSound call ∧ call.name ∈ tools.map (·.name) ∧ call.id ∉ seen.ids ∧
      seen.argumentBytes + call.arguments.encodedBytes ≤ maxToolArgumentsBytes ∧
      seen' = { argumentBytes := seen.argumentBytes + call.arguments.encodedBytes,
                ids := call.id :: seen.ids } := by
  constructor
  · intro h
    obtain ⟨_, hcall, h⟩ := bind_ok.mp h
    obtain ⟨_, _, h⟩ := bind_ok.mp h
    obtain ⟨_, hlimit, h⟩ := bind_ok.mp h
    obtain ⟨_, hname, h⟩ := bind_ok.mp h
    obtain ⟨_, hid, h⟩ := bind_ok.mp h
    cases h
    rw [refuse_ok, decide_eq_false_iff_not] at hlimit hname hid
    exact ⟨validateToolCall_ok.mp hcall, not_not.mp hname, hid, not_lt.mp hlimit, rfl⟩
  · rintro ⟨hcall, hname, hid, hlimit, rfl⟩
    -- far below the largest `usize`
    have husize : ¬seen.argumentBytes + call.arguments.encodedBytes > usizeMax := by
      simp only [maxToolArgumentsBytes, usizeMax] at hlimit ⊢
      omega
    refine bind_ok.mpr ⟨(), validateToolCall_ok.mpr hcall, ?_⟩
    refine bind_ok.mpr ⟨(), refuse_ok.mpr (decide_eq_false husize), ?_⟩
    refine bind_ok.mpr ⟨(), refuse_ok.mpr (decide_eq_false (not_lt.mpr hlimit)), ?_⟩
    refine bind_ok.mpr ⟨(), refuse_ok.mpr (decide_eq_false (not_not.mpr hname)), ?_⟩
    exact bind_ok.mpr ⟨(), refuse_ok.mpr (decide_eq_false hid), rfl⟩

theorem checkReturnedCalls_ok_iff {tools : List ProviderTool} {seen : SeenCalls}
    {calls : List ProviderToolCall} (hseen : seen.argumentBytes ≤ maxToolArgumentsBytes) :
    (∃ seen', calls.foldlM (checkReturnedCall tools) seen = .ok seen') ↔
      ReturnedSound tools seen calls := by
  induction calls generalizing seen with
  | nil =>
      refine ⟨fun _ => ⟨by simp, by simp, by simp, by simp, by simpa using hseen⟩, fun _ => ?_⟩
      exact ⟨seen, rfl⟩
  | cons call calls ih =>
      simp only [List.foldlM_cons, bind_ok, checkReturnedCall_ok_iff]
      constructor
      · rintro ⟨last, _, ⟨hcall, hname, hid, hlimit, rfl⟩, h⟩
        obtain ⟨hsound, hadvertised, hfresh, hunique, haggregate⟩ := (ih hlimit).mp ⟨last, h⟩
        constructor
        · exact List.forall_mem_cons.mpr ⟨hcall, hsound⟩
        · exact List.forall_mem_cons.mpr ⟨hname, hadvertised⟩
        · refine List.forall_mem_cons.mpr ⟨hid, fun other hother hmem => ?_⟩
          exact hfresh other hother (List.mem_cons_of_mem _ hmem)
        · refine List.nodup_cons.mpr ⟨fun hmem => ?_, hunique⟩
          obtain ⟨other, hother, heq⟩ := List.mem_map.mp hmem
          exact hfresh other hother (heq ▸ List.mem_cons_self)
        · rw [List.map_cons, List.sum_cons]
          dsimp only at haggregate
          omega
      · rintro ⟨hsound, hadvertised, hfresh, hunique, haggregate⟩
        obtain ⟨hcall, hsound⟩ := List.forall_mem_cons.mp hsound
        obtain ⟨hname, hadvertised⟩ := List.forall_mem_cons.mp hadvertised
        obtain ⟨hid, hfresh⟩ := List.forall_mem_cons.mp hfresh
        obtain ⟨hnew, hunique⟩ := List.nodup_cons.mp hunique
        rw [List.map_cons, List.sum_cons] at haggregate
        have hlimit : seen.argumentBytes + call.arguments.encodedBytes ≤ maxToolArgumentsBytes := by
          omega
        have hrest : ReturnedSound tools
            { argumentBytes := seen.argumentBytes + call.arguments.encodedBytes,
              ids := call.id :: seen.ids } calls := by
          refine ⟨hsound, hadvertised, ?_, hunique, by dsimp only; omega⟩
          intro other hother hmem
          rcases List.mem_cons.mp hmem with heq | hmem
          · exact hnew (List.mem_map.mpr ⟨other, hother, heq⟩)
          · exact hfresh other hother hmem
        obtain ⟨last, hlast⟩ := (ih hlimit).mpr hrest
        exact ⟨last, _, ⟨hcall, hname, hid, hlimit, rfl⟩, hlast⟩

theorem validateReturnedTools_ok_iff {tools : List ProviderTool} {calls : List ProviderToolCall} :
    validateReturnedTools tools calls = .ok () ↔ calls.length ≤ NativeSchema.maxToolCalls ∧
      ReturnedSound tools { argumentBytes := 0, ids := [] } calls := by
  rw [← checkReturnedCalls_ok_iff (Nat.zero_le _), validateReturnedTools, bind_ok]
  simp only [refuse_ok, decide_eq_false_iff_not, gt_iff_lt, not_lt, exists_const]
  refine and_congr_right (fun _ => ?_)
  rw [bind_ok]
  exact exists_congr (fun seen => and_iff_left rfl)

/-! ## The answer -/

section Answer

variable {grouped : NativeToolCalls} {tools : List ProviderTool}

/-- Where the keys are the tools, the flat list is the map in another order. -/
theorem flattened_perm (hunique : (tools.map (·.name)).Nodup)
    (hkeys : ∀ name, name ∈ SortedMap.keys grouped.entries ↔ name ∈ tools.map (·.name)) :
    (flattened grouped tools).Perm grouped.namedCalls := by
  have hentries := SortedMap.map_lookup_perm (SortedMap.keys_nodup grouped.sorted) hunique
    (fun name => (hkeys name).symm) []
  have hflat : flattened grouped tools =
      ((tools.map (·.name)).map (fun name => (name, grouped.callsOf name))).flatMap
        (fun entry => entry.2.map (·.named entry.1)) := by
    rw [List.flatMap_map, List.flatMap_map]
    rfl
  rw [hflat]
  exact hentries.flatMap_right _

theorem map_namedCalls {α : Type} (f : ProviderToolCall → α) (g : NativeToolCall → α)
    (h : ∀ name call, f (NativeToolCall.named name call) = g call) :
    grouped.namedCalls.map f = grouped.calls.map g := by
  rw [NativeToolCalls.namedCalls, NativeToolCalls.calls, List.map_flatMap, List.map_flatMap]
  refine List.flatMap_congr (fun entry _ => ?_)
  rw [List.map_map]
  exact List.map_congr_left (fun call _ => h entry.1 call)

/-- Every call belongs to an advertised tool. -/
theorem mem_calls_iff {native : NativeToolCall}
    (hkeys : ∀ name, name ∈ SortedMap.keys grouped.entries ↔ name ∈ tools.map (·.name)) :
    native ∈ grouped.calls ↔ ∃ tool ∈ tools, native ∈ grouped.callsOf tool.name := by
  rw [NativeToolCalls.calls, List.mem_flatMap]
  constructor
  · rintro ⟨entry, hentry, hnative⟩
    obtain ⟨tool, htool, hname⟩ := List.mem_map.mp ((hkeys entry.1).mp (List.mem_map_of_mem hentry))
    refine ⟨tool, htool, ?_⟩
    rw [hname, NativeToolCalls.callsOf, SortedMap.lookup_of_mem grouped.sorted hentry]
    exact hnative
  · rintro ⟨tool, _, hnative⟩
    rw [NativeToolCalls.callsOf] at hnative
    cases hlookup : grouped.entries.lookup tool.name with
    | none =>
        rw [hlookup] at hnative
        cases hnative
    | some calls =>
        rw [hlookup] at hnative
        exact ⟨_, SortedMap.mem_of_lookup hlookup, hnative⟩

/-- The checks of the flat list are those of the answer. -/
theorem returnedSound_iff {names : List String} (htools : ToolsNamed tools names)
    (hkeys : ∀ name, name ∈ SortedMap.keys grouped.entries ↔ name ∈ tools.map (·.name)) :
    ((flattened grouped tools).length ≤ NativeSchema.maxToolCalls ∧
      ReturnedSound tools { argumentBytes := 0, ids := [] } (flattened grouped tools)) ↔
    CallsSound grouped tools := by
  have hperm := flattened_perm htools.unique hkeys
  have hlength : (flattened grouped tools).length = grouped.calls.length := by
    rw [hperm.length_eq, ← List.length_map (fun _ => ()),
      map_namedCalls _ (fun _ => ()) (fun _ _ => rfl), List.length_map]
  have hids : ((flattened grouped tools).map (·.id)).Perm (grouped.calls.map (·.id)) := by
    rw [← map_namedCalls (·.id) _ (fun _ _ => rfl)]
    exact hperm.map _
  have hbytes : ((flattened grouped tools).map (·.arguments.encodedBytes)).sum =
      (grouped.calls.map (·.arguments.encodedBytes)).sum := by
    rw [← map_namedCalls (·.arguments.encodedBytes) _ (fun _ _ => rfl)]
    exact (hperm.map _).sum_nat
  have hmem : ∀ call, call ∈ flattened grouped tools ↔
      ∃ tool ∈ tools, ∃ native ∈ grouped.callsOf tool.name, native.named tool.name = call := by
    intro call
    simp only [flattened, List.mem_flatMap, List.mem_map]
  have hcalls : ∀ native, native ∈ grouped.calls ↔
      ∃ tool ∈ tools, native ∈ grouped.callsOf tool.name := fun _ => mem_calls_iff hkeys
  constructor
  · rintro ⟨hcount, hsound⟩
    refine ⟨hkeys, hlength ▸ hcount, hids.nodup_iff.mp hsound.unique, ?_, ?_⟩
    · intro native hnative
      obtain ⟨tool, htool, hnative⟩ := (hcalls native).mp hnative
      have hcall := hsound.sound _ ((hmem _).mpr ⟨tool, htool, native, hnative, rfl⟩)
      exact ⟨hcall.id, hcall.object, hcall.bounded⟩
    · rw [← hbytes]
      simpa using hsound.aggregate
  · intro h
    refine ⟨hlength ▸ h.count, ?_, ?_, by simp, hids.nodup_iff.mpr h.unique, ?_⟩
    · intro call hcall
      obtain ⟨tool, htool, native, hnative, rfl⟩ := (hmem call).mp hcall
      have hnative := h.sound native ((hcalls native).mpr ⟨tool, htool, hnative⟩)
      exact ⟨hnative.id, htools.bounded tool htool, hnative.object, hnative.bounded⟩
    · intro call hcall
      obtain ⟨tool, htool, native, _, rfl⟩ := (hmem call).mp hcall
      exact List.mem_map_of_mem htool
    · rw [hbytes]
      simpa using h.aggregate

end Answer

/-- **Tool calls survive flattening**: the two checks pass exactly for a sound answer, and
what comes out are the calls of the map in the order of the tools, each once, with its id and
its arguments and under the name of its tool. -/
theorem tool_calls_flattened (grouped : NativeToolCalls) (tools : List ProviderTool)
    (names : List String) (htools : tools.foldlM validateTool [] = .ok names) :
    ((∃ calls, flattenNativeToolCalls grouped tools = .ok calls ∧
        validateReturnedTools tools calls = .ok ()) ↔ CallsSound grouped tools) ∧
    ∀ calls, flattenNativeToolCalls grouped tools = .ok calls →
      calls = flattened grouped tools ∧ calls.Perm grouped.namedCalls ∧
      calls.map (fun call => (call.name, call.id, call.arguments)) =
        tools.flatMap (fun tool => (grouped.callsOf tool.name).map
          (fun native => (tool.name, native.id, native.arguments))) := by
  have hnamed := validateTools_ok htools
  constructor
  · constructor
    · rintro ⟨calls, hflat, hreturned⟩
      obtain ⟨hkeys, rfl, _⟩ := (flattenNativeToolCalls_ok_iff hnamed.unique).mp hflat
      exact (returnedSound_iff hnamed hkeys).mp (validateReturnedTools_ok_iff.mp hreturned)
    · intro h
      have hreturned := (returnedSound_iff hnamed h.keys).mpr h
      exact ⟨_, (flattenNativeToolCalls_ok_iff hnamed.unique).mpr ⟨h.keys, rfl, hreturned.1⟩,
        validateReturnedTools_ok_iff.mpr hreturned⟩
  · intro calls hflat
    obtain ⟨hkeys, rfl, _⟩ := (flattenNativeToolCalls_ok_iff hnamed.unique).mp hflat
    refine ⟨rfl, flattened_perm hnamed.unique hkeys, ?_⟩
    rw [flattened, List.map_flatMap]
    exact List.flatMap_congr (fun tool _ => List.map_map)

/-- The tools of the source's test, in the order in which they are advertised. -/
def testTools : List ProviderTool :=
  ["z_tool", "a_tool"].map (fun name => {
    name := name
    description := name
    inputSchema := .object [("type", .string "object")]
    strict := true })

/-- One call of each. The map is in the order of the names. -/
def testCalls : NativeToolCalls where
  entries := [("a_tool", [{ id := "a-1", arguments := .object [] }]),
    ("z_tool", [{ id := "z-1", arguments := .object [] }])]
  sorted := SortedMap.sorted_of_keys ["a_tool", "z_tool"] (by decide +kernel) rfl

/-- The call of the tool that is advertised first comes first. -/
theorem tool_calls_flattened_test : CallsSound testCalls testTools ∧
    [("z_tool", "z-1", Json.object []), ("a_tool", "a-1", Json.object [])] =
      testTools.flatMap (fun tool => (testCalls.callsOf tool.name).map
        (fun native => (tool.name, native.id, native.arguments))) := by
  obtain ⟨hchecked, hflat⟩ := tool_calls_flattened testCalls testTools ["a_tool", "z_tool"] rfl
  have hcalls : flattenNativeToolCalls testCalls testTools =
      .ok (flattened testCalls testTools) := rfl
  exact ⟨hchecked.mp ⟨_, hcalls, rfl⟩, (hflat _ hcalls).2.2⟩

end Vergerail.UpagentPrompt
