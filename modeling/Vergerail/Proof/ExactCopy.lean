import Vergerail.Proof.HiddenAncestor

/-!
# Exact copy and the element it belongs to

The check of a copy contract asks two things: every text a node shows is one of the
contract's texts, and every element the contract names shows its own. Nothing asks a node
that the contract does not name whose text it shows. So a program keeps every text on its
own element exactly if no such node repeats one.
-/

namespace Vergerail.IfscTextProvider

open Lib

section Property

variable (nodes : List Json) (exact : List ExactText)

/-- The node shows this text, and there is something to read. -/
def Readable (node : Json) (text : String) : Prop :=
  node.get "text" = some (.string text) ∧ text ≠ ""

/-- The node is the element of the entry. -/
def IsElement (node : Json) (item : ExactText) : Prop :=
  node.get "id" = some (.string item.elementId)

/-- **Every text is on its own element**: what a node shows is assigned to it, and every
assigned text is there. -/
structure CopyAssigned : Prop where
  carried : ∀ node ∈ nodes, ∀ text, Readable node text →
    ∃ item ∈ exact, IsElement node item ∧ item.text = text
  present : ∀ item ∈ exact, ∃ node ∈ nodes,
    IsElement node item ∧ node.get "text" = some (.string item.text)

/-- No node without an entry of its own shows a text of the contract. -/
def NoStrayCopy : Prop :=
  ∀ node ∈ nodes, ∀ text, Readable node text → text ∈ exact.map (·.text) →
    ∃ item ∈ exact, IsElement node item

end Property

section Accepted

variable {nodes : List Json} {request : ProviderRequest} {contract : RequestContract}
  {census : Census} {exact : List ExactText}

theorem nodeText_eq {info : NodeInfo} {text : String} :
    nodeText info = some text ↔ (Json.object info.object).get "text" = some (.string text) := by
  simp only [nodeText, Option.bind_eq_some_iff, asStr_eq, exists_eq_right, Json.get]

theorem NodeRead.id {node : Json} {entry : String × NodeInfo} (h : NodeRead node entry) :
    node.get "id" = some (.string entry.1) := by
  have hplace := h.place
  simp only [placementOf, Option.bind_eq_bind, Option.bind_eq_some_iff, Option.pure_def,
    Option.some.injEq, Prod.mk.injEq, asStr_eq] at hplace
  obtain ⟨id, ⟨value, hvalue, rfl⟩, _, _, _, _, rfl, _⟩ := hplace
  exact hvalue

/-- Every node has its entry in the map. -/
theorem CensusOf.entry_of_mem (hc : CensusOf nodes census) {node : Json} (hnode : node ∈ nodes) :
    ∃ entry ∈ census.byId, NodeRead node entry :=
  SortedMap.mem_of_forall₂ hc.read.flip hnode

/-- Every entry in the map has its node. -/
theorem CensusOf.node_of_lookup (hc : CensusOf nodes census) {id : String} {info : NodeInfo}
    (h : census.byId.lookup id = some info) : ∃ node ∈ nodes, NodeRead node (id, info) :=
  SortedMap.mem_of_forall₂ hc.read (SortedMap.mem_of_lookup h)

/-- What the check of a contract with exact copy has found. -/
theorem validateCopyContract_ok {byId : List (String × NodeInfo)} {stateId : String}
    (h : validateCopyContract byId (.contractCopyOnly exact) stateId = .ok ()) :
    (∀ entry ∈ byId, ∀ text, nodeText entry.2 = some text → text ≠ "" →
      text ∈ exact.map (·.text)) ∧
    ∀ item ∈ exact, ∃ info, byId.lookup item.elementId = some info ∧
      nodeText info = some item.text := by
  obtain ⟨_, houtside, hexact⟩ := bind_ok.mp h
  rw [refuse_ok, List.any_eq_false] at houtside
  constructor
  · intro entry hentry text htext hne
    have hallowed := houtside entry hentry
    rw [htext, Option.any_some, Bool.and_eq_true, not_and, decide_eq_true_eq, not_not] at hallowed
    exact hallowed (by simpa using hne)
  · intro item hitem
    have hcheck := forM_ok hexact item hitem
    rw [checkExact, refuse_ok, Bool.or_eq_false_iff, decide_eq_false_iff_not, not_not] at hcheck
    obtain ⟨info, hinfo, htext⟩ := Option.bind_eq_some_iff.mp hcheck.1
    exact ⟨info, hinfo, htext⟩

/-- The element of an entry shows the entry's text, and no other. -/
theorem NodesAccepted.element_text (h : NodesAccepted nodes request contract census)
    (hcopy : contract.copyContract = .contractCopyOnly exact) {item : ExactText}
    (hitem : item ∈ exact) {node : Json} (hnode : node ∈ nodes) (helement : IsElement node item) :
    node.get "text" = some (.string item.text) := by
  have hchecked := h.copy
  rw [hcopy] at hchecked
  obtain ⟨info, hinfo, htext⟩ := (validateCopyContract_ok hchecked).2 item hitem
  rw [h.counted.object_of_id hnode helement hinfo]
  exact nodeText_eq.mp htext

theorem NodesAccepted.present (h : NodesAccepted nodes request contract census)
    (hcopy : contract.copyContract = .contractCopyOnly exact) {item : ExactText}
    (hitem : item ∈ exact) :
    ∃ node ∈ nodes, IsElement node item ∧ node.get "text" = some (.string item.text) := by
  have hchecked := h.copy
  rw [hcopy] at hchecked
  obtain ⟨info, hinfo, htext⟩ := (validateCopyContract_ok hchecked).2 item hitem
  obtain ⟨node, hnode, hread⟩ := h.counted.node_of_lookup hinfo
  exact ⟨node, hnode, hread.id, h.element_text hcopy hitem hnode hread.id⟩

/-- What a node shows is a text of the contract. -/
theorem NodesAccepted.text_mem (h : NodesAccepted nodes request contract census)
    (hcopy : contract.copyContract = .contractCopyOnly exact) {node : Json} (hnode : node ∈ nodes)
    {text : String} (hread : Readable node text) : text ∈ exact.map (·.text) := by
  have hchecked := h.copy
  rw [hcopy] at hchecked
  obtain ⟨entry, hentry, hnodeRead⟩ := h.counted.entry_of_mem hnode
  refine (validateCopyContract_ok hchecked).1 entry hentry text ?_ hread.2
  rw [nodeText_eq, ← hnodeRead.object]
  exact hread.1

end Accepted

/-- **Accepted programs keep exact copy on its own element exactly where no other node
repeats it.** -/
theorem accepted_copy_assigned_iff (env : ScreenEnv) (program : Json)
    (request : ProviderRequest) (contract : RequestContract) (exact : List ExactText)
    (hcopy : contract.copyContract = .contractCopyOnly exact)
    (h : validateProgram env program request contract = .ok ()) :
    ∃ nodes, program.get "nodes" = some (.array nodes) ∧
      (CopyAssigned nodes exact ↔ NoStrayCopy nodes exact) := by
  obtain ⟨nodes, census, hnodes, haccepted⟩ := validateProgram_ok h
  refine ⟨nodes, hnodes, ?_, ?_⟩
  · intro hassigned node hnode text hread _
    obtain ⟨item, hitem, helement, _⟩ := hassigned.carried node hnode text hread
    exact ⟨item, hitem, helement⟩
  · intro hstray
    refine ⟨?_, fun item hitem => haccepted.present hcopy hitem⟩
    intro node hnode text hread
    obtain ⟨item, hitem, helement⟩ :=
      hstray node hnode text hread (haccepted.text_mem hcopy hnode hread)
    refine ⟨item, hitem, helement, ?_⟩
    -- the node shows one text only
    have htext := haccepted.element_text hcopy hitem hnode helement
    rw [hread.1] at htext
    exact (Json.string.inj (Option.some.inj htext)).symm

/-! ## A text shown twice -/

/-- A request's profile with one exact text, for the button. -/
def startProfile : List (String × Json) :=
  [("copyContract", .object [
    ("exactText", .array [
      .object [("elementId", .string "start-project"), ("text", .string "Start")]]),
    ("mode", .string "contract-copy-only")])]

/-- The entries the profile is parsed to. -/
def startCopy : List ExactText := [{ elementId := "start-project", text := "Start" }]

theorem parse_startProfile :
    parseCopyContract startProfile = .ok (.contractCopyOnly startCopy) := by
  rfl

/-- The contract of the small program with that copy. -/
def startContract : RequestContract :=
  { homeContract with copyContract := .contractCopyOnly startCopy }

/-- A page with the button, which shows its text. -/
def startNodes : List Json :=
  [.object [("bounds", boundsJson "0" "0" "1440" "1024"), ("id", .string "hero"),
      ("tag", .string "main")],
    .object [("bounds", boundsJson "120" "300.5" "220" "64"), ("id", .string "start-project"),
      ("parentId", .string "hero"), ("primaryAction", .bool true), ("tag", .string "button"),
      ("text", .string "Start")]]

/-- A paragraph that the contract does not name, with the button's text. -/
def strayNode : Json :=
  .object [("bounds", boundsJson "120" "500" "220" "64"), ("id", .string "hero.echo"),
    ("parentId", .string "hero"), ("tag", .string "p"), ("text", .string "Start")]

theorem startProgram_ok :
    validateProgram listOrder (screenOf startNodes) homeRequest startContract = .ok () :=
  screenOf_ok' ⟨rfl, rfl, rfl⟩ (by decide +kernel) (by decide) (ok_of_toBool (by decide +kernel))

/-- The button is the only node that shows its text. -/
theorem accepted_copy_assigned_iff_start : CopyAssigned startNodes startCopy := by
  obtain ⟨nodes, hnodes, hiff⟩ := accepted_copy_assigned_iff listOrder (screenOf startNodes)
    homeRequest startContract startCopy rfl startProgram_ok
  have hget : (screenOf startNodes).get "nodes" = some (.array startNodes) := rfl
  cases hget.symm.trans hnodes
  refine hiff.mpr ?_
  intro node hnode text hread _
  rcases List.mem_pair.mp hnode with rfl | rfl
  · cases hread.1
  · exact ⟨_, List.mem_singleton_self _, rfl⟩

theorem strayProgram_ok :
    validateProgram listOrder (screenOf (startNodes ++ [strayNode])) homeRequest startContract
      = .ok () :=
  screenOf_ok' ⟨rfl, rfl, rfl⟩ (by decide +kernel) (by decide) (ok_of_toBool (by decide +kernel))

/-- The text of the button is accepted on a paragraph the contract does not name. -/
theorem stray_copy_accepted :
    ¬∀ (env : ScreenEnv) (program : Json) (request : ProviderRequest)
      (contract : RequestContract) (exact : List ExactText) (profile : List (String × Json)),
      parseCopyContract profile = .ok contract.copyContract →
      contract.copyContract = .contractCopyOnly exact →
      validateProgram env program request contract = .ok () →
      ∀ nodes, program.get "nodes" = some (.array nodes) → CopyAssigned nodes exact := by
  intro h
  have hassigned := h listOrder _ homeRequest startContract startCopy startProfile
    parse_startProfile rfl strayProgram_ok _ rfl
  have hread : Readable strayNode "Start" := ⟨rfl, by decide⟩
  obtain ⟨item, hitem, helement, _⟩ := hassigned.carried strayNode (by simp) "Start" hread
  rw [List.mem_singleton.mp hitem] at helement
  have hid : strayNode.get "id" = some (.string "hero.echo") := rfl
  rw [IsElement, hid, Option.some.injEq, Json.string.injEq] at helement
  exact absurd helement (by decide)

end Vergerail.IfscTextProvider
