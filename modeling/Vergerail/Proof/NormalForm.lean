import Vergerail.Proof.PlainSchema

/-!
# The native strict normal form

On admissible schemas the walk gives the strict form exactly when the schema is plain. The
schema that is advertised for a turn is plain exactly when the tools' own schemas are.
-/

namespace Vergerail

open Lib.SortedMap

namespace NativeSchema

/-! ## The strict form of a plain schema -/

theorem strict_items {items items' : List Json}
    (h : items.mapM closeNativeObjectSchemas = .ok items')
    (ih : ∀ w ∈ items, ∀ w', closeNativeObjectSchemas w = .ok w' → Strict w w') :
    Strict (.array items) (.array items') := by
  have hall := List.forall₂_iff_get.mp (mapM_ok_iff.mp h)
  refine .array hall.1.symm (fun i w w' hw hw' => ?_)
  obtain ⟨hi, rfl⟩ := List.getElem?_eq_some_iff.mp hw
  obtain ⟨hi', rfl⟩ := List.getElem?_eq_some_iff.mp hw'
  exact ih _ (List.getElem_mem hi) _ (hall.2 i hi hi')

theorem accepted_of_plain {v : Json} (hv : v.Ordered) (hp : Plain false v) (ha : Admissible v) :
    ∃ out, closeNativeObjectSchemas v = .ok out := by
  induction hr : reach v using Nat.strongRecOn generalizing v with
  | ind r ih =>
      subst hr
      cases v with
      | array items =>
          obtain ⟨items', hitems⟩ := mapM_ok_of_forall (fun w hw =>
            ih _ (reach_item hw) (hv.items w hw) (hp.items w hw) (ha.items w hw) rfl)
          exact ⟨_, close_array_ok.mpr ⟨items', hitems, rfl⟩⟩
      | object m =>
          have hn : ∃ n, closeObject m = .ok n := by
            cases ha with
            | scalar hs => cases hs
            | object hn _ _ _ => exact ⟨_, hn⟩
          obtain ⟨n, hn⟩ := hn
          exact accepted_step hn hv (closed_plain (closeObject_closed hn) hp)
            (fun w hw hwo hwp hwa => ih _ hw hwo hwp hwa rfl) ha
      | _ => exact ⟨_, close_scalar rfl⟩

theorem strict_of_plain {v out : Json} (hv : v.Ordered) (hp : Plain false v)
    (h : closeNativeObjectSchemas v = .ok out) : Strict v out := by
  induction hr : reach v using Nat.strongRecOn generalizing v out with
  | ind r ih =>
      subst hr
      cases v with
      | array items =>
          obtain ⟨items', hitems, rfl⟩ := close_array_ok.mp h
          exact strict_items hitems (fun w hw w' hclose =>
            ih _ (reach_item hw) (hv.items w hw) (hp.items w hw) hclose rfl)
      | object m =>
          obtain ⟨n, m', hn, hm', rfl⟩ := close_object_ok.mp h
          exact strict_step hn hv (closed_plain (closeObject_closed hn) hp) hm'
            (fun w hw hwo hwp w' hclose => ih _ hw hwo hwp hclose rfl)
      | _ => cases h; exact .scalar rfl

theorem quiet_of_plain {v out : Json} (hv : v.Ordered) (hp : Plain false v)
    (h : closeNativeObjectSchemas v = .ok out) : Quiet out := by
  induction hr : reach v using Nat.strongRecOn generalizing v out with
  | ind r ih =>
      subst hr
      cases v with
      | array items =>
          obtain ⟨items', hitems, rfl⟩ := close_array_ok.mp h
          refine .array (fun w' hw' => ?_)
          obtain ⟨w, hw, hclose⟩ := mem_mapM hitems hw'
          exact ih _ (reach_item hw) (hv.items w hw) (hp.items w hw) hclose rfl
      | object m =>
          obtain ⟨n, m', hn, hm', rfl⟩ := close_object_ok.mp h
          exact quiet_step hn hv (closed_plain (closeObject_closed hn) hp) hm'
            (fun w hw hwo hwp w' hclose => ih _ hw hwo hwp hclose rfl)
      | _ => cases h; exact .scalar rfl

/-! ## Only a plain schema has its strict form -/

/-- Closing a map of schemas adds no key only if none of its keys is a keyword. -/
theorem noKeywords_of_keys {ps n : Members} (h : closeObject ps = .ok n)
    (hkeys : keys n = keys ps)
    (hschemas : ∀ name w, ps.lookup name = some w → isSchema w = true) : NoKeywords ps := by
  have hc := closeObject_closed h
  have hold : ∀ k, (n.lookup k).isSome = true → ∃ w, ps.lookup k = some w := by
    intro k hk
    rw [← mem_keys_iff, hkeys, mem_keys_iff] at hk
    exact Option.isSome_iff_exists.mp hk
  constructor
  · cases hconst : ps.lookup "const" with
    | none => rfl
    | some c =>
        obtain ⟨kind, hcheck, htype⟩ := hc.const c hconst
        obtain ⟨hkind, -, hincludes⟩ := checkConst_eq_ok_iff.mp hcheck
        obtain ⟨t, ht⟩ := hold "type" (by rw [htype]; rfl)
        have hincl := hincludes t ht
        have hschema := hschemas _ _ ht
        cases t with
        | object _ => cases hincl
        | bool _ => cases hincl
        | _ => cases hschema
  · cases hplain : isObjectSchema ps with
    | false => rfl
    | true =>
        obtain ⟨r, hr⟩ := hold "required" (by rw [(hc.shut hplain).2]; rfl)
        obtain ⟨existing, he, -⟩ := hc.properties
        have hschema := hschemas _ _ hr
        unfold existingRequired at he
        rw [hr] at he
        cases r with
        | object _ => cases he
        | bool _ => cases he
        | _ => cases hschema

theorem NoKeywords.absent {m : Members} (h : NoKeywords m) {k : String}
    (hk : k ∈ ["const", "properties", "required"]) : k ∉ keys m := by
  rw [mem_keys_iff]
  intro hsome
  simp only [List.mem_cons, List.not_mem_nil, or_false] at hk
  rcases hk with rfl | rfl | rfl
  · rw [h.1] at hsome; cases hsome
  · have htrue := isObjectSchema_iff.mpr (.inr (.inl hsome))
    rw [h.2] at htrue
    cases htrue
  · have htrue := isObjectSchema_iff.mpr (.inr (.inr hsome))
    rw [h.2] at htrue
    cases htrue

theorem NoKeywords.type {m : Members} (h : NoKeywords m) {t : Json}
    (ht : m.lookup "type" = some t) : typeNamesObject t = false := by
  cases hname : typeNamesObject t with
  | false => rfl
  | true =>
      have htrue := isObjectSchema_iff.mpr (.inl ⟨t, ht, hname⟩)
      rw [h.2] at htrue
      cases htrue

theorem mapM_requiredEntry_ok {values : List Json} {names : List String}
    (h : values.mapM requiredEntry = .ok names) : values = names.map .string := by
  have hall := mapM_ok_iff.mp h
  clear h
  induction hall with
  | nil => rfl
  | @cons value _ _ _ hv _ ih =>
      cases value with
      | string s => cases hv; rw [List.map_cons, ih]
      | _ => cases hv

/-- The list of required names is a list of strings. -/
theorem plain_required {m : Members} {existing : List String} {w : Json}
    (h : existingRequired m = .ok existing) (hw : m.lookup "required" = some w) :
    Plain false w := by
  unfold existingRequired at h
  rw [hw] at h
  cases w with
  | array values =>
      rw [mapM_requiredEntry_ok h]
      exact Plain.strings _
  | _ => cases h

theorem plain_additional {m : Members} {w : Json} (h : isOpen m = false)
    (hw : m.lookup "additionalProperties" = some w) : Plain false w := by
  unfold isOpen at h
  rw [hw] at h
  cases w with
  | bool b => exact .scalar rfl
  | array _ => cases h
  | object _ => cases h
  | _ => exact .scalar rfl

/-- The properties of an admissible schema that came out with its own names are walked as
properties. -/
theorem names_of_strict {m n m' ps ps' : Members}
    (hw : mapValues (fun _ child => closeNativeObjectSchemas child) n = .ok m')
    (hnames : propertyNames m' = propertyNames m) (hps : m.lookup "properties" = some (.object ps))
    (hkeys : keys ps' = keys ps) (hps' : n.lookup "properties" = some (.object ps'))
    (hschemas : ∀ name w, ps'.lookup name = some w → isSchema w = true) : NoKeywords ps' := by
  obtain ⟨w, hwl, hclose⟩ := mapValues_image hw hps'
  obtain ⟨k, ps'', hk, hwalk, rfl⟩ := close_object_ok.mp hclose
  refine noKeywords_of_keys hk ?_ hschemas
  unfold propertyNames at hnames
  rw [hwl, hps] at hnames
  exact (keys_mapValues hwalk).symm.trans (hnames.trans hkeys.symm)

/-- **Only if.** A schema whose walk is its strict form is plain. -/
theorem plain_of_strict {v out : Json} (hv : v.Ordered) (ha : Admissible v)
    (h : closeNativeObjectSchemas v = .ok out) (hs : Strict v out) : Plain false v := by
  induction hr : reach v using Nat.strongRecOn generalizing v out with
  | ind r ih =>
      subst hr
      cases v with
      | array items =>
          obtain ⟨items', hitems, rfl⟩ := close_array_ok.mp h
          have hall := List.forall₂_iff_get.mp (mapM_ok_iff.mp hitems)
          cases hs with
          | scalar hsc => cases hsc
          | array _ hpointwise =>
              refine .array (fun w hw => ?_)
              obtain ⟨i, hi, rfl⟩ := List.getElem_of_mem hw
              have hi' : i < items'.length := hall.1 ▸ hi
              exact ih _ (reach_item hw) (hv.items _ hw) (ha.items _ hw) (hall.2 i hi hi')
                (hpointwise i _ _ (List.getElem?_eq_getElem hi) (List.getElem?_eq_getElem hi')) rfl
      | object m =>
          obtain ⟨n, m', hn, hw, rfl⟩ := close_object_ok.mp h
          have hc := closeObject_closed hn
          have hordered := ordered_closeObject hn hv
          have hreach := reach_closeObject hn
          obtain ⟨existing, he, -, hpc⟩ := hc.properties
          cases hs with
          | scalar hsc => cases hsc
          | object _ _ _ hnames hdata hproperty hchild =>
          cases ha with
          | scalar hsc => cases hsc
          | object hn' hachild haschema haproperty =>
          rw [hn] at hn'
          cases hn'
          -- the data that came through was left alone
          have hquiet : ∀ k ∈ ["const", "default", "enum"], ∀ w, m.lookup k = some w → Quiet w := by
            intro k hk w hl
            have hl' : n.lookup k = some w := (hc.other k (data_not_strict k hk)).trans hl
            obtain ⟨w', hw', hclose⟩ := mapValues_image hw hl'
            rw [hdata k hk, hl] at hw'
            cases hw'
            exact quiet_of_close (ordered_lookup hordered hl') hclose
          -- the maps of properties were left alone
          have hmaps : ∀ ps, m.lookup "properties" = some (.object ps) →
              ∃ ps' ps'', mapValues (closeProperty existing) ps = .ok ps' ∧ NoKeywords ps' ∧
                n.lookup "properties" = some (.object ps') ∧
                mapValues (fun _ child => closeNativeObjectSchemas child) ps' = .ok ps'' ∧
                m'.lookup "properties" = some (.object ps'') := by
            intro ps hps
            rcases hpc with ⟨qs, ps', hqs, hmap, hps'⟩ | ⟨hnone, -⟩
            · rw [hps] at hqs
              cases hqs
              have hinert := names_of_strict hw hnames hps (keys_mapValues hmap) hps'
                (fun name w hl => haschema ps' name w hps' hl)
              obtain ⟨w, hwl, hclose⟩ := mapValues_image hw hps'
              have hsorted := (ordered_lookup hordered hps').here
              obtain ⟨ps'', hps'', rfl⟩ := (close_names_ok hinert hsorted).mp hclose
              exact ⟨ps', ps'', hmap, hinert, hps', hps'', hwl⟩
            · exact absurd hps (hnone ps)
          refine .object ?_ ⟨hquiet _ (by decide), fun w hl => .inr (hquiet _ (by decide) w hl)⟩ ?_ ?_
          · intro ps existing' hps he'
            rw [he] at he'
            cases he'
            obtain ⟨ps', ps'', hmap, hinert, -, -, -⟩ := hmaps ps hps
            refine ⟨fun name hname => keys_mapValues hmap ▸ hinert.absent hname, fun htype => ?_⟩
            cases ht : ps.lookup "type" with
            | none => rfl
            | some t =>
                obtain ⟨t', ht', hclose⟩ := mapValues_image hmap ht
                unfold closeProperty at hclose
                rw [if_pos htype] at hclose
                cases hclose
                exact hinert.type ht'
          · intro ps existing' name w hps he' hl
            rw [he] at he'
            cases he'
            obtain ⟨ps', ps'', hmap, -, hps', hwalk, hps''⟩ := hmaps ps hps
            obtain ⟨u, hu, hclose⟩ := mapValues_image hmap hl
            obtain ⟨w', hw', hclose'⟩ := mapValues_image hwalk hu
            refine (plain_closeProperty_iff hclose).mp (ih _ ?_
              (ordered_lookup (ordered_lookup hordered hps') hu) (haproperty ps' name u hps' hu)
              hclose' (hproperty ps ps'' existing name w w' u hps hps'' he hl hw' hclose) rfl)
            have h1 := reach_member (mem_of_lookup hu)
            have h2 := hreach _ (mem_of_lookup hps')
            dsimp only at h1 h2
            omega
          · intro k w hl hk
            by_cases hkey : isObjectSchema m = true → k ∉ ["additionalProperties", "required"]
            · have hl' := closed_lookup hc hkey hl hk
              obtain ⟨w', hw', hclose⟩ := mapValues_image hw hl'
              exact ih _ (hreach _ (mem_of_lookup hl')) (ordered_lookup hordered hl')
                (hachild k w hl' hk) hclose (hchild k w w' hkey hl hw' hk) rfl
            · obtain ⟨hschema, hmem⟩ := Classical.not_imp.mp hkey
              simp only [List.mem_cons, List.not_mem_nil, or_false, not_not] at hmem
              rcases hmem with rfl | rfl
              · exact plain_additional (hc.notOpen hschema) hl
              · exact plain_required he hl
      | _ => exact .scalar rfl

/-! ## The output schema -/

/-- What is asked of the output schema of the tools: nothing admissible is refused, the
output is the strict form of what was advertised, and it closes to itself. -/
structure RightlyClosed (tools : List ProviderTool) : Prop where
  accepted : Admissible (advertisedSchema tools) → ∃ out, modelOutputSchema tools = .ok out
  strict : ∀ out, modelOutputSchema tools = .ok out → Strict (advertisedSchema tools) out
  idempotent : ∀ out, modelOutputSchema tools = .ok out →
    closeNativeObjectSchemas out = .ok out

theorem ordered_strings (names : List String) : (Json.array (names.map .string)).Ordered :=
  Json.Everywhere.strings names

theorem ordered_strictObject {required : List String} {properties : Members}
    (h : (Json.object properties).Ordered) : (strictObject required properties).Ordered := by
  refine .object (sorted_of_keys
    ["additionalProperties", "properties", "required", "type"] (by decide) rfl) ?_
  simp only [List.forall_mem_cons, List.not_mem_nil, false_imp_iff, implies_true, and_true]
  exact ⟨.scalar rfl, h, ordered_strings required, .scalar rfl⟩

theorem ordered_boundedString (maximum : Nat) : (boundedString maximum).Ordered := by
  refine .object (sorted_of_keys ["maxLength", "type"] (by decide) rfl) ?_
  simp only [List.forall_mem_cons, List.not_mem_nil, false_imp_iff, implies_true, and_true]
  exact ⟨.scalar rfl, .scalar rfl⟩

theorem ordered_toolCallsSchema {tool : ProviderTool} (h : tool.inputSchema.Ordered) :
    (toolCallsSchema tool).Ordered := by
  have hcall : (Json.object [("arguments", tool.inputSchema),
      ("id", boundedString maxToolCallIdBytes)]).Ordered := by
    refine .object (sorted_of_keys ["arguments", "id"] (by decide) rfl) ?_
    simp only [List.forall_mem_cons, List.not_mem_nil, false_imp_iff, implies_true, and_true]
    exact ⟨h, ordered_boundedString _⟩
  refine .object (sorted_of_keys ["items", "maxItems", "type"] (by decide) rfl) ?_
  simp only [List.forall_mem_cons, List.not_mem_nil, false_imp_iff, implies_true, and_true]
  exact ⟨ordered_strictObject hcall, .scalar rfl, .scalar rfl⟩

theorem ordered_toolProperties {tools : List ProviderTool}
    (h : ∀ tool ∈ tools, tool.inputSchema.Ordered) :
    (Json.object (toolProperties tools)).Ordered := by
  unfold toolProperties
  have hnil : (Json.object []).Ordered := .object List.Pairwise.nil (fun _ hp => by cases hp)
  generalize ([] : Members) = properties at hnil
  induction tools generalizing properties with
  | nil => exact hnil
  | cons tool tools ih =>
      obtain ⟨htool, htools⟩ := List.forall_mem_cons.mp h
      exact ih htools _ (ordered_insert hnil (ordered_toolCallsSchema htool))

theorem ordered_advertisedSchema {tools : List ProviderTool}
    (h : ∀ tool ∈ tools, tool.inputSchema.Ordered) : (advertisedSchema tools).Ordered := by
  unfold advertisedSchema
  split_ifs
  · refine ordered_strictObject (.object (sorted_of_keys ["text"] (by decide) rfl) ?_)
    simp only [List.forall_mem_cons, List.not_mem_nil, false_imp_iff, implies_true, and_true]
    exact ordered_boundedString _
  · refine ordered_strictObject (.object (sorted_of_keys ["text", "toolCalls"] (by decide) rfl) ?_)
    simp only [List.forall_mem_cons, List.not_mem_nil, false_imp_iff, implies_true, and_true]
    exact ⟨ordered_boundedString _, ordered_strictObject (ordered_toolProperties h)⟩

theorem mem_toolProperties {tools : List ProviderTool} {p : String × Json}
    (h : p ∈ toolProperties tools) :
    ∃ tool ∈ tools, p.1 = tool.name ∧ p.2 = toolCallsSchema tool := by
  have hall : ∀ (tools : List ProviderTool) (properties : Members),
      p ∈ tools.foldl (fun acc tool => insert tool.name (toolCallsSchema tool) acc) properties →
      p ∈ properties ∨ ∃ tool ∈ tools, p.1 = tool.name ∧ p.2 = toolCallsSchema tool := by
    intro tools
    induction tools with
    | nil => exact fun _ hp => .inl hp
    | cons tool tools ih =>
        intro properties hp
        rcases ih _ hp with hp | ⟨tool', htool', heq⟩
        · rcases mem_insert hp with rfl | hp
          · exact .inr ⟨tool, List.mem_cons_self, rfl, rfl⟩
          · exact .inl hp
        · exact .inr ⟨tool', List.mem_cons_of_mem _ htool', heq⟩
  rcases hall tools [] h with hp | htool
  · cases hp
  · exact htool

/-- A strict object is plain if its properties are, and are called nothing that the walk
reads as a keyword. -/
theorem plain_strictObject {optional : Bool} {required : List String} {properties : Members}
    (hnames : ∀ name ∈ ["const", "properties", "required"], name ∉ keys properties)
    (htype : ∀ t, properties.lookup "type" = some t → typeNamesObject t = false)
    (h : ∀ name w, properties.lookup name = some w → name ∈ required ∧ Plain false w) :
    Plain optional (strictObject required properties) := by
  have hexisting : ∀ existing, existingRequired
      [("additionalProperties", .bool false), ("properties", .object properties),
        ("required", .array (required.map .string)), ("type", .string "object")] = .ok existing →
      existing = required := by
    intro existing he
    have hread : existingRequired
        [("additionalProperties", .bool false), ("properties", .object properties),
          ("required", .array (required.map .string)), ("type", .string "object")] =
        .ok required := existingRequired_of_strings rfl
    rw [hread] at he
    exact (Except.ok.inj he).symm
  refine .object ?_ ⟨?_, ?_⟩ ?_ ?_
  · intro ps existing hps _
    cases hps
    refine ⟨hnames, fun _ => ?_⟩
    cases ht : properties.lookup "type" with
    | none => rfl
    | some t => exact htype t ht
  · intro w hw; cases hw
  · intro w hw; cases hw
  · intro ps existing name w hps he hw
    cases hps
    obtain ⟨hmem, hplain⟩ := h name w hw
    rw [hexisting existing he, decide_eq_false (not_not_intro hmem)]
    exact hplain
  · intro k w hw hk
    rcases List.mem_cons.mp (mem_of_lookup hw) with heq | hmem
    · cases heq; exact .scalar rfl
    · simp only [List.mem_cons, List.not_mem_nil, or_false, Prod.mk.injEq] at hmem
      rcases hmem with ⟨rfl, rfl⟩ | ⟨rfl, rfl⟩ | ⟨rfl, rfl⟩
      · have hobject := hk.2 rfl
        cases hobject
      · exact Plain.strings required
      · exact .scalar rfl

/-- Tools whose names are no keywords and whose schemas are plain give a plain schema. -/
theorem plain_advertisedSchema {tools : List ProviderTool}
    (hnames : ∀ tool ∈ tools, tool.name ∉ ["const", "properties", "required"])
    (hschemas : ∀ tool ∈ tools, Plain false tool.inputSchema) :
    Plain false (advertisedSchema tools) := by
  have hbounded : ∀ maximum, Plain false (boundedString maximum) := by
    intro maximum
    refine plain_of_values (by simp [keys]) ?_
    simp only [List.forall_mem_cons, List.not_mem_nil, false_imp_iff, implies_true, and_true]
    exact ⟨.scalar rfl, .scalar rfl⟩
  have hcalls : ∀ tool ∈ tools, Plain false (toolCallsSchema tool) := by
    intro tool htool
    have hcall : Plain false (strictObject ["id", "arguments"]
        [("arguments", tool.inputSchema), ("id", boundedString maxToolCallIdBytes)]) := by
      refine plain_strictObject (by simp [keys]) (fun t ht => ?_) (fun name w hw => ?_)
      · cases ht
      · rcases List.mem_cons.mp (mem_of_lookup hw) with heq | hmem
        · cases heq; exact ⟨by decide, hschemas tool htool⟩
        · cases List.mem_singleton.mp hmem; exact ⟨by decide, hbounded _⟩
    refine plain_of_values (by simp [keys]) ?_
    simp only [List.forall_mem_cons, List.not_mem_nil, false_imp_iff, implies_true, and_true]
    exact ⟨hcall, .scalar rfl, .scalar rfl⟩
  have htools : Plain false (strictObject (tools.map ProviderTool.name) (toolProperties tools)) := by
    refine plain_strictObject ?_ ?_ ?_
    · intro name hname hmem
      obtain ⟨p, hp, rfl⟩ := List.mem_map.mp hmem
      obtain ⟨tool, htool, hkey, -⟩ := mem_toolProperties hp
      exact hnames tool htool (hkey ▸ hname)
    · intro t ht
      obtain ⟨tool, -, -, hvalue⟩ := mem_toolProperties (mem_of_lookup ht)
      dsimp only at hvalue
      rw [hvalue]
      rfl
    · intro name w hw
      obtain ⟨tool, htool, hkey, hvalue⟩ := mem_toolProperties (mem_of_lookup hw)
      dsimp only at hkey hvalue
      rw [hkey, hvalue]
      exact ⟨List.mem_map_of_mem htool, hcalls tool htool⟩
  unfold advertisedSchema
  split_ifs
  · refine plain_strictObject (by simp [keys]) (fun t ht => by cases ht) (fun name w hw => ?_)
    cases List.mem_singleton.mp (mem_of_lookup hw)
    exact ⟨by decide, hbounded _⟩
  · refine plain_strictObject (by simp [keys]) (fun t ht => by cases ht) (fun name w hw => ?_)
    rcases List.mem_cons.mp (mem_of_lookup hw) with heq | hmem
    · cases heq; exact ⟨by decide, hbounded _⟩
    · cases List.mem_singleton.mp hmem; exact ⟨by decide, htools⟩

/-- **The output schema is the strict form of the advertised one if that is plain, and
only then if it is admissible.** -/
theorem output_schema_strict_iff (tools : List ProviderTool)
    (h : ∀ tool ∈ tools, tool.inputSchema.Ordered) :
    (Plain false (advertisedSchema tools) → RightlyClosed tools) ∧
      (Admissible (advertisedSchema tools) →
        (RightlyClosed tools ↔ Plain false (advertisedSchema tools))) := by
  have hordered := ordered_advertisedSchema h
  have hif : Plain false (advertisedSchema tools) → RightlyClosed tools := by
    intro hplain
    exact {
      accepted := accepted_of_plain hordered hplain
      strict := fun out hout => strict_of_plain hordered hplain hout
      idempotent := fun out hout =>
        (quiet_of_plain hordered hplain hout).close (ordered_close hout hordered) }
  refine ⟨hif, fun hadmissible => ⟨fun hright => ?_, hif⟩⟩
  obtain ⟨out, hout⟩ := hright.accepted hadmissible
  exact plain_of_strict hordered hadmissible hout (hright.strict out hout)

/-- The strict form of one tool with a required and declared property. -/
theorem output_schema_strict_inspect :
    RightlyClosed [⟨"inspect_asset",
      strictObject ["path"] [("path", .object [("type", .string "string")])]⟩] := by
  have hpath : Plain false (.object [("type", .string "string")]) :=
    plain_of_values (by decide) (List.forall_mem_singleton.mpr (.scalar rfl))
  have hschema : Plain false
      (strictObject ["path"] [("path", .object [("type", .string "string")])]) := by
    refine plain_strictObject (by decide) (fun t ht => by cases ht) (fun name w hw => ?_)
    cases List.mem_singleton.mp (mem_of_lookup hw)
    exact ⟨by decide, hpath⟩
  have hordered : (strictObject ["path"] [("path", .object [("type", .string "string")])]).Ordered := by
    refine ordered_strictObject (.object (List.pairwise_singleton _ _)
      (List.forall_mem_singleton.mpr (.object (List.pairwise_singleton _ _)
        (List.forall_mem_singleton.mpr (.scalar rfl)))))
  exact (output_schema_strict_iff _ (List.forall_mem_singleton.mpr hordered)).1
    (plain_advertisedSchema (List.forall_mem_singleton.mpr (by decide))
      (List.forall_mem_singleton.mpr hschema))

/-- A tool called `properties` makes a schema of the map of tools, whose output the walk
refuses. -/
theorem tool_called_properties :
    ¬RightlyClosed [⟨"properties", .object [("type", .string "object")]⟩] := by
  intro h
  have hbroken : (match modelOutputSchema [⟨"properties", .object [("type", .string "object")]⟩] with
      | .ok out =>
          match closeNativeObjectSchemas out with
          | .ok _ => false
          | .error _ => true
      | .error _ => false) = true := by decide +kernel
  cases hout : modelOutputSchema [⟨"properties", .object [("type", .string "object")]⟩] with
  | error e => rw [hout] at hbroken; cases hbroken
  | ok out =>
      rw [hout] at hbroken
      dsimp only at hbroken
      rw [h.idempotent out hout] at hbroken
      cases hbroken

end NativeSchema

end Vergerail
