import Vergerail.Proof.ContainedTree

/-!
# Hidden ancestors

A node is hidden in a state in one of four ways. The validator refuses a required section
or an exact text whose own node is hidden; it never looks at the nodes around it. So an
accepted program shows what is required exactly if no ancestor of it is hidden.
-/

namespace Vergerail.IfscTextProvider

open Lib

/-- An opacity at which nothing is seen. -/
inductive Transparent : Json → Prop where
  | number {value : Json} {n : Rat} (h : value.asF64 = some n) (hn : n ≤ 0) : Transparent value
  | text : Transparent (.string "0")

/-- The node is hidden in the state. -/
inductive Hidden (node : Json) (stateId : String) : Prop where
  | flag (h : node.get "hidden" = some (.bool true))
  | listed {states : String} (h : node.get "hiddenInState" = some (.string states))
      (hstate : stateId ∈ splitAsciiWhitespace states)
  | display {style : Json} (h : node.get "style" = some style)
      (hnone : style.get "display" = some (.string "none"))
  | opacity {style value : Json} (h : node.get "style" = some style)
      (hvalue : style.get "opacity" = some value) (hzero : Transparent value)

/-- The node is kept from assistive technology. -/
def AriaHidden (node : Json) : Prop := node.get "ariaHidden" = some (.bool true)

/-- No node with one of the ids is of the kind. -/
def NoneAmong (nodes : List Json) (kind : Json → Prop) (ids : List String) : Prop :=
  ∀ node ∈ nodes, ∀ id ∈ ids, node.get "id" = some (.string id) → ¬kind node

/-- The entries of a copy contract. -/
def CopyContract.exact : CopyContract → List ExactText
  | noReadableCopy => []
  | contractCopyOnly exact => exact

section Property

variable (nodes : List Json) (layout : Layout) (contract : RequestContract)

/-- **What is required is shown**: neither it nor an ancestor is hidden. -/
structure RequiredShown : Prop where
  sections : ∀ required ∈ contract.requiredSections, ∀ above,
    Lineage layout.parentOf required.elementId above →
    NoneAmong nodes (fun node => Hidden node contract.stateId ∨ AriaHidden node)
      (required.elementId :: above)
  copy : ∀ item ∈ contract.copyContract.exact, ∀ above,
    Lineage layout.parentOf item.elementId above →
    NoneAmong nodes (fun node => Hidden node contract.stateId) (item.elementId :: above)

/-- No hidden node stands above what is required. -/
structure NothingHiddenAbove : Prop where
  sections : ∀ required ∈ contract.requiredSections, ∀ above,
    Lineage layout.parentOf required.elementId above →
    NoneAmong nodes (fun node => Hidden node contract.stateId ∨ AriaHidden node) above
  copy : ∀ item ∈ contract.copyContract.exact, ∀ above,
    Lineage layout.parentOf item.elementId above →
    NoneAmong nodes (fun node => Hidden node contract.stateId) above

end Property

theorem noneAmong_cons {nodes : List Json} {kind : Json → Prop} {id : String}
    {ids : List String} :
    NoneAmong nodes kind (id :: ids) ↔ NoneAmong nodes kind [id] ∧ NoneAmong nodes kind ids := by
  simp only [NoneAmong, List.mem_cons, List.not_mem_nil, or_false, forall_eq_or_imp, forall_eq]
  constructor
  · intro h
    exact ⟨fun node hnode => (h node hnode).1, fun node hnode => (h node hnode).2⟩
  · intro hboth node hnode
    exact ⟨hboth.1 node hnode, hboth.2 node hnode⟩

/-! ## The code's reading of the fields -/

theorem asBool_eq {value : Json} {b : Bool} : value.asBool = some b ↔ value = .bool b := by
  cases value <;> simp [Json.asBool]

theorem asStr_eq {value : Json} {text : String} :
    value.asStr = some text ↔ value = .string text := by
  cases value <;> simp [Json.asStr]

theorem asObject_eq {value : Json} {members : List (String × Json)} :
    value.asObject = some members ↔ value = .object members := by
  cases value <;> simp [Json.asObject]

theorem opacityHides_iff {value : Json} : opacityHides value = true ↔ Transparent value := by
  cases value with
  | string text =>
      rw [opacityHides, decide_eq_true_eq]
      constructor
      · rintro rfl
        exact .text
      · intro h
        cases h with
        | number h _ => cases h
        | text => rfl
  | number text =>
      rw [opacityHides, Option.any_eq_true]
      · constructor
        · rintro ⟨n, hn, hle⟩
          exact .number hn (of_decide_eq_true hle)
        · intro h
          cases h with
          | number h hn => exact ⟨_, h, decide_eq_true hn⟩
      · intro _ h
        cases h
  | null | bool _ | array _ | object _ =>
      constructor
      · intro h; cases h
      · intro h
        cases h with
        | number h _ => cases h

theorem styleHides_iff {style : List (String × Json)} :
    styleHides style = true ↔ (Json.object style).get "display" = some (.string "none") ∨
      ∃ value, (Json.object style).get "opacity" = some value ∧ Transparent value := by
  simp only [styleHides, Bool.or_eq_true, decide_eq_true_eq, Option.any_eq_true,
    Option.bind_eq_some_iff, asStr_eq, exists_eq_right, opacityHides_iff, Json.get]

theorem nodeHiddenInState_iff {info : NodeInfo} {stateId : String} :
    nodeHiddenInState info stateId = true ↔ Hidden (.object info.object) stateId := by
  simp only [nodeHiddenInState, Bool.or_eq_true, decide_eq_true_eq, Option.any_eq_true,
    Option.bind_eq_some_iff, asBool_eq, asStr_eq, asObject_eq, exists_eq_right, styleHides_iff]
  constructor
  · rintro ((h | ⟨states, hstates, hmem⟩) | ⟨style, hstyle, hnone | ⟨value, hvalue, hzero⟩⟩)
    · exact .flag h
    · exact .listed hstates hmem
    · exact .display hstyle hnone
    · exact .opacity hstyle hvalue hzero
  · intro h
    cases h with
    | flag h => exact .inl (.inl h)
    | listed h hstate => exact .inl (.inr ⟨_, h, hstate⟩)
    | @display style h hnone =>
        cases style with
        | object style => exact .inr ⟨style, h, .inl hnone⟩
        | _ => cases hnone
    | @opacity style value h hvalue hzero =>
        cases style with
        | object style => exact .inr ⟨style, h, .inr ⟨value, hvalue, hzero⟩⟩
        | _ => cases hvalue

theorem isAriaHidden_iff {info : NodeInfo} :
    isAriaHidden info = true ↔ AriaHidden (.object info.object) := by
  simp only [isAriaHidden, AriaHidden, decide_eq_true_eq, Option.bind_eq_some_iff, asBool_eq,
    exists_eq_right, Json.get]

/-! ## The element itself -/

section Accepted

variable {nodes : List Json} {request : ProviderRequest} {contract : RequestContract}
  {census : Census}

/-- The node with an id is the entry the map has for it. -/
theorem CensusOf.object_of_id (hc : CensusOf nodes census) {node : Json} (hnode : node ∈ nodes)
    {id : String} (hid : node.get "id" = some (.string id)) {info : NodeInfo}
    (hinfo : census.byId.lookup id = some info) : node = .object info.object := by
  obtain ⟨entry, hentry, hread⟩ := SortedMap.mem_of_forall₂ hc.read.flip hnode
  have hplace := hread.place
  rw [placementOf, hid] at hplace
  simp only [Option.bind_eq_bind, Option.bind_some, Json.asStr, Option.bind_eq_some_iff,
    Option.pure_def, Option.some.injEq, Prod.mk.injEq] at hplace
  obtain ⟨_, _, _, _, rfl, _⟩ := hplace
  rw [hc.lookup hentry] at hinfo
  cases hinfo
  exact hread.object

/-- A required section is not hidden itself. -/
theorem NodesAccepted.section_shown (h : NodesAccepted nodes request contract census)
    {required : RequiredSection} (hmem : required ∈ contract.requiredSections) :
    NoneAmong nodes (fun node => Hidden node contract.stateId ∨ AriaHidden node)
      [required.elementId] := by
  intro node hnode id hid hget
  rw [List.mem_singleton.mp hid] at hget
  obtain ⟨info, hinfo, hcheck⟩ := bind_ok.mp (h.required required hmem)
  obtain ⟨_, _, hcheck⟩ := bind_ok.mp hcheck
  rw [orFault_ok] at hinfo
  rw [refuse_ok, Bool.or_eq_false_iff] at hcheck
  rw [h.counted.object_of_id hnode hget hinfo]
  dsimp only
  rw [← nodeHiddenInState_iff, ← isAriaHidden_iff, hcheck.1, hcheck.2]
  exact fun h => h.elim Bool.false_ne_true Bool.false_ne_true

/-- An exact text is not on a hidden node. -/
theorem NodesAccepted.copy_shown (h : NodesAccepted nodes request contract census)
    {item : ExactText} (hmem : item ∈ contract.copyContract.exact) :
    NoneAmong nodes (fun node => Hidden node contract.stateId) [item.elementId] := by
  intro node hnode id hid hget
  rw [List.mem_singleton.mp hid] at hget
  have hcopy := h.copy
  cases hcontract : contract.copyContract with
  | noReadableCopy => rw [hcontract] at hmem; cases hmem
  | contractCopyOnly exact' =>
      rw [hcontract] at hmem hcopy
      obtain ⟨_, _, hcopy⟩ := bind_ok.mp hcopy
      have hcheck := forM_ok hcopy item hmem
      rw [checkExact, refuse_ok, Bool.or_eq_false_iff] at hcheck
      obtain ⟨htext, hshown⟩ := hcheck
      cases hinfo : census.byId.lookup item.elementId with
      | none => simp [hinfo] at htext
      | some info =>
          rw [hinfo, Option.any_some] at hshown
          rw [h.counted.object_of_id hnode hget hinfo]
          dsimp only
          rw [← nodeHiddenInState_iff, hshown]
          exact Bool.false_ne_true

end Accepted

/-- **Accepted programs show what is required exactly where nothing above it is hidden.** -/
theorem accepted_program_shown_iff (env : ScreenEnv) (program : Json)
    (request : ProviderRequest) (contract : RequestContract)
    (h : validateProgram env program request contract = .ok ()) :
    ∃ nodes layout, program.get "nodes" = some (.array nodes) ∧
      layoutOf nodes = some layout ∧
      (RequiredShown nodes layout contract ↔ NothingHiddenAbove nodes layout contract) := by
  obtain ⟨nodes, census, hnodes, haccepted⟩ := validateProgram_ok h
  refine ⟨nodes, _, hnodes, haccepted.counted.layout, ?_⟩
  constructor
  · intro hshown
    exact {
      sections := fun required hmem above habove =>
        (noneAmong_cons.mp (hshown.sections required hmem above habove)).2
      copy := fun item hmem above habove =>
        (noneAmong_cons.mp (hshown.copy item hmem above habove)).2 }
  · intro habove
    exact {
      sections := fun required hmem above hlineage => noneAmong_cons.mpr
        ⟨haccepted.section_shown hmem, habove.sections required hmem above hlineage⟩
      copy := fun item hmem above hlineage => noneAmong_cons.mpr
        ⟨haccepted.copy_shown hmem, habove.copy item hmem above hlineage⟩ }

/-- The page around the button is not hidden. -/
theorem accepted_program_shown_iff_button :
    ∃ layout, layoutOf buttonNodes = some layout ∧
      RequiredShown buttonNodes layout homeContract := by
  obtain ⟨nodes, layout, hnodes, hlayout, hiff⟩ := accepted_program_shown_iff listOrder
    (screenOf buttonNodes) homeRequest homeContract buttonProgram_ok
  have hget : (screenOf buttonNodes).get "nodes" = some (.array buttonNodes) := rfl
  cases hget.symm.trans hnodes
  have hparents : (layoutOf buttonNodes).map (fun layout =>
      ["start-project", "hero"].map layout.parentOf) = some [some "hero", none] := by
    decide +kernel
  rw [hlayout, Option.map_some, Option.some.injEq] at hparents
  simp only [List.map_cons, List.map_nil, List.cons.injEq] at hparents
  have habove : Lineage layout.parentOf "start-project" ["hero"] :=
    .child hparents.1 (.root hparents.2.1)
  refine ⟨layout, hlayout, hiff.mpr ⟨?_, fun _ hitem => absurd hitem List.not_mem_nil⟩⟩
  intro required hrequired above hlineage
  rw [List.mem_singleton.mp hrequired] at hlineage
  rw [hlineage.unique habove]
  intro node hnode id hid hget
  rw [List.mem_singleton.mp hid] at hget
  rcases List.mem_pair.mp hnode with rfl | rfl
  · have hself : some (Json.string "start-project") = some (.string "hero") := hget
    rw [Option.some.injEq, Json.string.injEq] at hself
    exact absurd hself (by decide)
  · rintro ((h | h | h | h) | h)
    all_goals cases h

/-- A button in a section that is not displayed. -/
def undisplayedNodes : List Json :=
  [.object [("bounds", boundsJson "0" "0" "1440" "1024"), ("id", .string "hero"),
      ("tag", .string "main")],
    .object [("bounds", boundsJson "100" "200" "400" "300"), ("id", .string "panel"),
      ("parentId", .string "hero"), ("style", .object [("display", .string "none")]),
      ("tag", .string "section")],
    .object [("bounds", boundsJson "20" "100" "220" "64"), ("id", .string "start-project"),
      ("parentId", .string "panel"), ("primaryAction", .bool true), ("tag", .string "button")]]

theorem undisplayedProgram_ok :
    validateProgram listOrder (screenOf undisplayedNodes) homeRequest homeContract = .ok () :=
  screenOf_ok (by decide +kernel) (by decide) (ok_of_toBool (by decide +kernel))

/-- The button of an accepted program is inside a section with `display: none`. -/
theorem hidden_ancestor_accepted :
    ¬∀ (env : ScreenEnv) (program : Json) (request : ProviderRequest)
      (contract : RequestContract), validateProgram env program request contract = .ok () →
      ∀ nodes layout, program.get "nodes" = some (.array nodes) →
        layoutOf nodes = some layout → RequiredShown nodes layout contract := by
  intro h
  obtain ⟨layout, hlayout⟩ : ∃ layout, layoutOf undisplayedNodes = some layout :=
    Option.isSome_iff_exists.mp (by decide +kernel)
  have hparents : (layoutOf undisplayedNodes).map (fun layout =>
      ["start-project", "panel", "hero"].map layout.parentOf)
        = some [some "panel", some "hero", none] := by decide +kernel
  rw [hlayout, Option.map_some, Option.some.injEq] at hparents
  simp only [List.map_cons, List.map_nil, List.cons.injEq] at hparents
  have habove : Lineage layout.parentOf "start-project" ["panel", "hero"] :=
    .child hparents.1 (.child hparents.2.1 (.root hparents.2.2.1))
  have hshown := h listOrder _ homeRequest homeContract undisplayedProgram_ok _ layout rfl hlayout
  have hnone := hshown.sections _ List.mem_cons_self _ habove
  -- the second node is the panel
  exact hnone _ (List.mem_cons_of_mem _ List.mem_cons_self) "panel"
    (List.mem_cons_of_mem _ List.mem_cons_self) rfl (.inl (.display rfl rfl))

end Vergerail.IfscTextProvider
