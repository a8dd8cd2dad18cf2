import Vergerail.Bin.ScreenProgram
import Vergerail.Lib.SortedMap
import Vergerail.Proof.Decimal

/-!
# The nodes of an accepted program

The validator compares every node with its parent only, and counts steps to find a cycle.
What that amounts to: the nodes are a tree under the one root, and the rectangle of every
node, moved by the offsets of all its ancestors, lies inside the viewport. Conversely a
list of nodes that is such a tree is never refused for its shape, in whatever order it is
listed and the map yields it.

A layout is what a list of nodes says about places, read from the JSON without any check.
-/

namespace Vergerail.IfscTextProvider

open Lib

/-! ## Layouts -/

/-- Where a node says it is: its parent, and its bounds relative to it. -/
structure Placement where
  parent : Option String
  bounds : Bounds

/-- The nodes of a program by id, in order. -/
abbrev Layout := List (String × Placement)

/-- The four numbers of a `bounds` field. -/
def boundsOf (value : Json) : Option Bounds := do
  let x ← (value.get "x").bind Json.asF64
  let y ← (value.get "y").bind Json.asF64
  let width ← (value.get "width").bind Json.asF64
  let height ← (value.get "height").bind Json.asF64
  pure { x, y, width, height }

/-- The parent a node names, if it names one. -/
def parentField (node : Json) : Option (Option String) :=
  match node.get "parentId" with
  | none => some none
  | some value => value.asStr.map some

/-- The id and the placement of a node. -/
def placementOf (node : Json) : Option (String × Placement) := do
  let id ← (node.get "id").bind Json.asStr
  let parent ← parentField node
  let bounds ← (node.get "bounds").bind boundsOf
  pure (id, { parent, bounds })

/-- The layout of a list of nodes. -/
def layoutOf (nodes : List Json) : Option Layout := nodes.mapM placementOf

namespace Layout

/-- The parent of an id. -/
def parentOf (layout : Layout) (id : String) : Option String :=
  (layout.lookup id).bind (·.parent)

/-- The nodes that name no parent. -/
def roots (layout : Layout) : Layout := layout.filter (fun node => node.2.parent.isNone)

/-- A number of an id's bounds. -/
def measure (layout : Layout) (number : Bounds → Rat) (id : String) : Rat :=
  (layout.lookup id).elim 0 (fun placement => number placement.bounds)

/-- The rectangle of a node, moved by the offsets of its ancestors. -/
def absolute (layout : Layout) (node : String × Placement) (above : List String) : Bounds :=
  { node.2.bounds with
    x := node.2.bounds.x + (above.map (layout.measure (·.x))).sum
    y := node.2.bounds.y + (above.map (layout.measure (·.y))).sum }

end Layout

/-- A rectangle of positive size inside an area. -/
structure Inside (bounds : Bounds) (width height : Rat) : Prop where
  positiveWidth : 0 < bounds.width
  positiveHeight : 0 < bounds.height
  left : 0 ≤ bounds.x
  top : 0 ≤ bounds.y
  right : bounds.x + bounds.width ≤ width
  bottom : bounds.y + bounds.height ≤ height

/-- **The layout is a tree inside the viewport.** -/
structure Contained (layout : Layout) (width height : Rat) : Prop where
  /-- Ids are unique. -/
  unique : (layout.map (·.1)).Nodup
  /-- There is one root, every node reaches it in fewer steps than there are nodes, and
  its absolute rectangle is inside. -/
  tree : ∃ root, layout.roots = [root] ∧
    ∀ node ∈ layout, ∃ above, Lineage layout.parentOf node.1 above ∧
      (node.1 :: above).getLast? = some root.1 ∧ above.length < layout.length ∧
      Inside (layout.absolute node above) width height

/-- A tree whose root covers the viewport and whose nodes lie inside their parents. -/
structure WellPlaced (layout : Layout) (width height : Rat) : Prop where
  unique : (layout.map (·.1)).Nodup
  root : ∃ root, layout.roots = [root] ∧
    root.2.bounds = { x := 0, y := 0, width := width, height := height }
  /-- Every node is below a root: following the parents ends. -/
  tree : ∀ node ∈ layout, ∃ above, Lineage layout.parentOf node.1 above
  /-- Every parent exists, and the node is inside it. -/
  fits : ∀ node ∈ layout, ∀ p, node.2.parent = some p → ∃ parent ∈ layout, parent.1 = p ∧
    0 ≤ node.2.bounds.x ∧ 0 ≤ node.2.bounds.y ∧
    node.2.bounds.x + node.2.bounds.width ≤ parent.2.bounds.width ∧
    node.2.bounds.y + node.2.bounds.height ≤ parent.2.bounds.height

/-- The failures about the shape of the tree: its root, its parents, its bounds, a cycle. -/
def ProgramFault.isShape : ProgramFault → Bool
  | .rootCount | .rootViewport | .parentMissing _ _ | .escapesParent _ | .parentCycle _ => true
  | _ => false

/-! ## What a check that passes says -/

theorem exactObject_ok {value : Json} {label : String} {allowed required : List String}
    {object : List (String × Json)} (h : exactObject value label allowed required = .ok object) :
    value = .object object := by
  obtain ⟨members, hmembers, h⟩ := bind_ok.mp h
  rw [orFault_ok] at hmembers
  split at h
  · cases h
  · split at h
    · cases h
    · cases h
      cases value <;> cases hmembers
      rfl

theorem parseBounds_ok {value : Json} {id : String} {bounds : Bounds}
    (h : parseBounds value id = .ok bounds) :
    boundsOf value = some bounds ∧ 0 < bounds.width ∧ 0 < bounds.height := by
  obtain ⟨object, hobject, h⟩ := bind_ok.mp h
  obtain ⟨x, hx, h⟩ := bind_ok.mp h
  obtain ⟨y, hy, h⟩ := bind_ok.mp h
  obtain ⟨width, hwidth, h⟩ := bind_ok.mp h
  obtain ⟨height, hheight, h⟩ := bind_ok.mp h
  obtain ⟨_, hpositive, h⟩ := bind_ok.mp h
  cases h
  rw [exactObject_ok hobject]
  rw [boundsNumber, orFault_ok] at hx hy hwidth hheight
  simp only [refuse_ok, Bool.or_eq_false_iff, decide_eq_false_iff_not, not_le] at hpositive
  refine ⟨?_, hpositive.1, hpositive.2⟩
  simp only [boundsOf, Json.get, hx, hy, hwidth, hheight, Option.bind_eq_bind, Option.bind_some,
    Option.pure_def]

theorem readParentId_ok {object : List (String × Json)} {id : String} {parentId : Option String}
    (h : readParentId object id = .ok parentId) :
    parentField (.object object) = some parentId := by
  rw [readParentId] at h
  rw [parentField, Json.get]
  cases hfield : object.lookup "parentId" with
  | none =>
      rw [hfield] at h
      cases h
      rfl
  | some value =>
      rw [hfield] at h
      obtain ⟨text, htext, h⟩ := bind_ok.mp h
      cases h
      rw [orFault_ok, Option.filter_eq_some_iff] at htext
      dsimp only
      rw [htext.1, Option.map_some]

/-! ## The census -/

/-- Where the entry of a node is. -/
def NodeInfo.placement (info : NodeInfo) : Placement where
  parent := info.parentId
  bounds := info.bounds

/-- The layout the map stands for. -/
def placements (byId : List (String × NodeInfo)) : Layout :=
  SortedMap.map NodeInfo.placement byId

/-- What the first loop has found out about a node it accepts. -/
structure NodeRead (node : Json) (entry : String × NodeInfo) : Prop where
  object : node = .object entry.2.object
  place : placementOf node = some (entry.1, entry.2.placement)
  positiveWidth : 0 < entry.2.bounds.width
  positiveHeight : 0 < entry.2.bounds.height

theorem readNode_ok {census census' : Census} {node : Json}
    (h : readNode census node = .ok census') :
    ∃ entry, NodeRead node entry ∧ census.byId.lookup entry.1 = none ∧
      census'.byId = census.byId ++ [entry] ∧
      census'.roots = census.roots ++ if entry.2.parentId = none then [entry.1] else [] := by
  obtain ⟨object, hobject, h⟩ := bind_ok.mp h
  obtain ⟨id, hid, h⟩ := bind_ok.mp h
  obtain ⟨_, hnew, h⟩ := bind_ok.mp h
  obtain ⟨parentId, hparent, h⟩ := bind_ok.mp h
  obtain ⟨tag, _, h⟩ := bind_ok.mp h
  obtain ⟨value, hvalue, h⟩ := bind_ok.mp h
  obtain ⟨bounds, hbounds, h⟩ := bind_ok.mp h
  obtain ⟨_, _, h⟩ := bind_ok.mp h
  obtain ⟨_, _, h⟩ := bind_ok.mp h
  cases h
  obtain rfl := exactObject_ok hobject
  rw [orFault_ok, Option.filter_eq_some_iff] at hid
  rw [refuse_ok, Option.isSome_eq_false_iff, Option.isNone_iff_eq_none] at hnew
  rw [orFault_ok] at hvalue
  obtain ⟨hread, hwidth, hheight⟩ := parseBounds_ok hbounds
  refine ⟨(id, { object, parentId, bounds, tag }), ⟨rfl, ?_, hwidth, hheight⟩, hnew, rfl, ?_⟩
  · simp only [placementOf, readParentId_ok hparent, Json.get, hid.1, hvalue, hread,
      Option.bind_eq_bind, Option.bind_some, Option.pure_def, NodeInfo.placement]
  · dsimp only
    split
    · rfl
    · rw [List.append_nil]

/-- The entries of the map that name no parent, by id. -/
def rootIds (byId : List (String × NodeInfo)) : List String :=
  (byId.filter (fun entry => entry.2.parentId.isNone)).map (·.1)

theorem rootIds_append (byId : List (String × NodeInfo)) (entry : String × NodeInfo) :
    rootIds (byId ++ [entry])
      = rootIds byId ++ if entry.2.parentId = none then [entry.1] else [] := by
  rw [rootIds, List.filter_append, List.map_append, ← rootIds]
  cases h : entry.2.parentId <;> simp [h]

/-- What the census of a list of nodes has gone through. -/
structure CensusOf (nodes : List Json) (census : Census) : Prop where
  read : List.Forall₂ NodeRead nodes census.byId
  unique : (census.byId.map (·.1)).Nodup
  roots : census.roots = rootIds census.byId

theorem CensusOf.step {seen : List Json} {census census' : Census} {node : Json}
    (hc : CensusOf seen census) (h : readNode census node = .ok census') :
    CensusOf (seen ++ [node]) census' := by
  obtain ⟨entry, hread, hnew, hbyId, hroots⟩ := readNode_ok h
  constructor
  · rw [hbyId]
    exact List.rel_append hc.read (.cons hread .nil)
  · rw [hbyId, List.map_append]
    have hkey : entry.1 ∉ SortedMap.keys census.byId := by
      rw [SortedMap.mem_keys_iff, hnew]
      exact Bool.false_ne_true
    refine List.nodup_append.mpr ⟨hc.unique, List.nodup_singleton _, ?_⟩
    intro a ha b hb hab
    rw [hab, List.mem_singleton.mp hb] at ha
    exact hkey ha
  · rw [hroots, hbyId, rootIds_append, hc.roots]

theorem censusOf_empty : CensusOf [] { byId := [], roots := [], primaryActions := 0 } where
  read := .nil
  unique := List.nodup_nil
  roots := rfl

/-- **What the first loop yields.** -/
theorem readNodes_ok {nodes : List Json} {census : Census}
    (h : nodes.foldlM readNode { byId := [], roots := [], primaryActions := 0 } = .ok census) :
    CensusOf nodes census :=
  foldlM_ok (P := CensusOf) (fun _ _ _ _ hc hnode => hc.step hnode) censusOf_empty h

theorem CensusOf.layout {nodes : List Json} {census : Census} (hc : CensusOf nodes census) :
    layoutOf nodes = some (placements census.byId) := by
  have hread := hc.read
  rw [layoutOf]
  generalize census.byId = byId at hread ⊢
  clear hc
  induction hread with
  | nil => rfl
  | cons hnode _ ih =>
      rw [List.mapM_cons, hnode.place]
      simp only [Option.bind_eq_bind, Option.bind_some, Option.pure_def]
      rw [ih]
      rfl

theorem CensusOf.lookup {nodes : List Json} {census : Census} (hc : CensusOf nodes census)
    {entry : String × NodeInfo} (hmem : entry ∈ census.byId) :
    census.byId.lookup entry.1 = some entry.2 := SortedMap.lookup_of_nodup hc.unique hmem

theorem parentOf_placements (byId : List (String × NodeInfo)) :
    (placements byId).parentOf = parentOf byId := by
  funext id
  rw [Layout.parentOf, placements, SortedMap.lookup_map, parentOf]
  cases byId.lookup id <;> rfl

theorem measure_placements {byId : List (String × NodeInfo)} {id : String} {info : NodeInfo}
    (h : byId.lookup id = some info) (number : Bounds → Rat) :
    (placements byId).measure number id = number info.bounds := by
  rw [Layout.measure, placements, SortedMap.lookup_map, h]
  rfl

theorem roots_placements (byId : List (String × NodeInfo)) :
    (placements byId).roots = placements (byId.filter (fun entry => entry.2.parentId.isNone)) :=
  List.filter_map

/-! ## The checks of an accepted program -/

/-- What `validate_nodes` has checked where it accepts. -/
structure NodesAccepted (nodes : List Json) (request : ProviderRequest)
    (contract : RequestContract) (census : Census) : Prop where
  counted : CensusOf nodes census
  root : checkRoot census request.output = .ok ()
  placed : ∀ entry ∈ census.byId, checkPlacement census.byId entry = .ok ()
  required : ∀ required ∈ contract.requiredSections,
    checkRequired census.byId contract.stateId required = .ok ()
  copy : validateCopyContract census.byId contract.copyContract contract.stateId = .ok ()

theorem validateNodes_ok {env : ScreenEnv} {nodes : List Json} {request : ProviderRequest}
    {contract : RequestContract} (h : validateNodes env nodes request contract = .ok ()) :
    ∃ census, NodesAccepted nodes request contract census := by
  obtain ⟨census, hcensus, h⟩ := bind_ok.mp h
  obtain ⟨_, hroot, h⟩ := bind_ok.mp h
  obtain ⟨_, hplaced, h⟩ := bind_ok.mp h
  obtain ⟨_, hrequired, h⟩ := bind_ok.mp h
  obtain ⟨_, _, hcopy⟩ := bind_ok.mp h
  refine ⟨census, readNodes_ok hcensus, hroot, ?_, forM_ok hrequired, hcopy⟩
  -- every entry is visited, whatever the order of the map
  intro entry hentry
  exact forM_ok hplaced entry ((env.hashOrder_perm census.byId).mem_iff.mpr hentry)

theorem checkProgram_ok {env : ScreenEnv} {program : Json} {request : ProviderRequest}
    {contract : RequestContract} (h : checkProgram env program request contract = .ok ()) :
    ∃ nodes, program.get "nodes" = some (.array nodes) ∧
      validateNodes env nodes request contract = .ok () := by
  obtain ⟨_, _, h⟩ := bind_ok.mp h
  obtain ⟨object, hobject, h⟩ := bind_ok.mp h
  obtain ⟨_, _, h⟩ := bind_ok.mp h
  obtain ⟨_, _, h⟩ := bind_ok.mp h
  obtain ⟨_, _, h⟩ := bind_ok.mp h
  obtain ⟨_, _, h⟩ := bind_ok.mp h
  obtain ⟨_, _, h⟩ := bind_ok.mp h
  obtain ⟨_, _, h⟩ := bind_ok.mp h
  obtain ⟨_, _, h⟩ := bind_ok.mp h
  obtain ⟨_, _, h⟩ := bind_ok.mp h
  obtain ⟨nodes, hnodes, h⟩ := bind_ok.mp h
  rw [orFault_ok, Option.filter_eq_some_iff] at hnodes
  refine ⟨nodes, ?_, h⟩
  rw [exactObject_ok hobject, Json.get]
  obtain ⟨value, hvalue, harray⟩ := Option.bind_eq_some_iff.mp hnodes.1
  rw [hvalue]
  cases value <;> cases harray
  rfl

theorem validateProgram_ok {env : ScreenEnv} {program : Json} {request : ProviderRequest}
    {contract : RequestContract} (h : validateProgram env program request contract = .ok ()) :
    ∃ nodes census, program.get "nodes" = some (.array nodes) ∧
      NodesAccepted nodes request contract census := by
  rw [validateProgram] at h
  cases hcheck : checkProgram env program request contract with
  | error fault => rw [hcheck] at h; cases h
  | ok u =>
      obtain ⟨nodes, hnodes, hvalid⟩ := checkProgram_ok hcheck
      obtain ⟨census, haccepted⟩ := validateNodes_ok hvalid
      exact ⟨nodes, census, hnodes, haccepted⟩

/-- A node is inside its parent. -/
structure Fits (bounds parent : Bounds) : Prop where
  left : 0 ≤ bounds.x
  top : 0 ≤ bounds.y
  right : bounds.x + bounds.width ≤ parent.width
  bottom : bounds.y + bounds.height ≤ parent.height

theorem checkParent_ok {byId : List (String × NodeInfo)} {id p : String} {node : NodeInfo}
    (h : checkParent byId id node = .ok ()) (hp : node.parentId = some p) :
    ∃ parent, byId.lookup p = some parent ∧ Fits node.bounds parent.bounds := by
  rw [checkParent, hp] at h
  obtain ⟨parent, hparent, h⟩ := bind_ok.mp h
  rw [orFault_ok] at hparent
  simp only [refuse_ok, Bool.or_eq_false_iff, decide_eq_false_iff_not, not_lt, gt_iff_lt] at h
  exact ⟨parent, hparent, h.1.1.1, h.1.1.2, h.1.2, h.2⟩

theorem checkPlacement_ok {byId : List (String × NodeInfo)} {entry : String × NodeInfo}
    (h : checkPlacement byId entry = .ok ()) :
    checkParent byId entry.1 entry.2 = .ok () ∧
      ∃ above, Lineage (parentOf byId) entry.1 above ∧ above.length < byId.length := by
  obtain ⟨_, hparent, h⟩ := bind_ok.mp h
  rw [refuse_ok, Bool.not_eq_false'] at h
  exact ⟨hparent, (climbs_iff _).mp h⟩

theorem checkRoot_ok {census : Census} {output : OutputSpec}
    (h : checkRoot census output = .ok ()) :
    ∃ id, census.roots = [id] ∧ ∀ root, census.byId.lookup id = some root →
      root.bounds = { x := 0, y := 0, width := output.width, height := output.height } := by
  rw [checkRoot] at h
  split at h
  · rename_i id hroots
    refine ⟨id, hroots, ?_⟩
    intro root hroot
    rw [hroot] at h
    simp only [refuse_ok, Bool.or_eq_false_iff, decide_eq_false_iff_not, not_not] at h
    obtain ⟨⟨⟨hx, hy⟩, hwidth⟩, hheight⟩ := h
    exact Bounds.ext hx hy hwidth hheight
  · cases h

/-! ## Accepted programs are contained trees -/

section Accepted

variable {nodes : List Json} {request : ProviderRequest} {contract : RequestContract}
  {census : Census}

/-- Every node lies inside its parent. -/
theorem NodesAccepted.fits (h : NodesAccepted nodes request contract census) {id p : String}
    (hp : parentOf census.byId id = some p) :
    ∃ info parent, census.byId.lookup id = some info ∧ census.byId.lookup p = some parent ∧
      Fits info.bounds parent.bounds := by
  obtain ⟨info, hinfo, hparent⟩ := Option.bind_eq_some_iff.mp hp
  obtain ⟨hcheck, _⟩ := checkPlacement_ok (h.placed _ (SortedMap.mem_of_lookup hinfo))
  obtain ⟨parent, hlookup, hfits⟩ := checkParent_ok hcheck hparent
  exact ⟨info, parent, hinfo, hlookup, hfits⟩

/-- The root of an accepted program is an entry without a parent, and covers the viewport. -/
theorem NodesAccepted.exists_root (h : NodesAccepted nodes request contract census) :
    ∃ root, census.byId.filter (fun entry => entry.2.parentId.isNone) = [root] ∧
      census.byId.lookup root.1 = some root.2 ∧
      root.2.bounds = { x := 0, y := 0, width := request.output.width,
                        height := request.output.height } := by
  obtain ⟨id, hroots, hcover⟩ := checkRoot_ok h.root
  rw [h.counted.roots, rootIds] at hroots
  obtain ⟨root, hfilter, rfl⟩ := List.map_eq_singleton_iff.mp hroots
  have hmem : root ∈ census.byId :=
    List.mem_of_mem_filter (hfilter ▸ List.mem_singleton_self root)
  have hlookup := h.counted.lookup hmem
  exact ⟨root, hfilter, hlookup, hcover root.2 hlookup⟩

/-- The last ancestor of a node is the root. -/
theorem NodesAccepted.last_eq (h : NodesAccepted nodes request contract census)
    {root : String × NodeInfo}
    (hroot : census.byId.filter (fun entry => entry.2.parentId.isNone) = [root])
    {entry : String × NodeInfo} (hmem : entry ∈ census.byId) {above : List String}
    (habove : Lineage (parentOf census.byId) entry.1 above) :
    (entry.1 :: above).getLast? = some root.1 := by
  obtain ⟨last, hlast, hnone⟩ := habove.exists_last
  have hkey : ∀ id ∈ entry.1 :: above, id ∈ SortedMap.keys census.byId := by
    refine habove.forall_mem (List.mem_map_of_mem hmem) ?_
    intro id p _ hp
    obtain ⟨_, parent, _, hparent, _⟩ := h.fits hp
    rw [SortedMap.mem_keys_iff, hparent]
    rfl
  obtain ⟨found, hfound, rfl⟩ := List.mem_map.mp (hkey last (List.mem_of_getLast? hlast))
  rw [parentOf, h.counted.lookup hfound, Option.bind_some] at hnone
  have : found ∈ [root] := by
    rw [← hroot]
    exact List.mem_filter.mpr ⟨hfound, by rw [hnone]; rfl⟩
  rw [hlast, List.mem_singleton.mp this]

/-- One axis of the absolute rectangle: where the offset and the size fit from a node to
its parent, they fit from the node to the root. -/
theorem NodesAccepted.axis (h : NodesAccepted nodes request contract census)
    {offset size : Bounds → Rat}
    (hfit : ∀ b p, Fits b p → 0 ≤ offset b ∧ offset b + size b ≤ size p)
    {entry root : String × NodeInfo} (hmem : entry ∈ census.byId) {above : List String}
    (habove : Lineage (parentOf census.byId) entry.1 above)
    (hlast : (entry.1 :: above).getLast? = some root.1)
    (hroot : census.byId.lookup root.1 = some root.2) (hzero : offset root.2.bounds = 0) :
    0 ≤ offset entry.2.bounds + (above.map ((placements census.byId).measure offset)).sum ∧
      offset entry.2.bounds + (above.map ((placements census.byId).measure offset)).sum
        + size entry.2.bounds ≤ size root.2.bounds := by
  have hentry := h.counted.lookup hmem
  rw [← measure_placements hentry offset, ← measure_placements hentry size,
    ← measure_placements hroot size]
  refine habove.within ?_ hlast (by rw [measure_placements hroot, hzero])
  intro id p hp
  obtain ⟨info, parent, hinfo, hparent, hfits⟩ := h.fits hp
  rw [measure_placements hinfo, measure_placements hinfo, measure_placements hparent]
  exact hfit _ _ hfits

/-- **An accepted list of nodes is a tree inside the viewport.** -/
theorem NodesAccepted.contained (h : NodesAccepted nodes request contract census) :
    Contained (placements census.byId) request.output.width request.output.height where
  unique := by
    have := h.counted.unique
    rw [placements, SortedMap.map, List.map_map]
    exact this
  tree := by
    obtain ⟨root, hroot, hlookup, hcover⟩ := h.exists_root
    refine ⟨(root.1, root.2.placement), by rw [roots_placements, hroot]; rfl, ?_⟩
    intro node hnode
    obtain ⟨entry, hentry, rfl⟩ := List.mem_map.mp hnode
    obtain ⟨_, above, habove, hlength⟩ := checkPlacement_ok (h.placed entry hentry)
    have hlast := h.last_eq hroot hentry habove
    rw [parentOf_placements]
    refine ⟨above, habove, hlast, by rwa [placements, SortedMap.map, List.length_map], ?_⟩
    obtain ⟨_, _, hread⟩ := SortedMap.mem_of_forall₂ h.counted.read hentry
    have hx := h.axis (fun _ _ hfits => ⟨hfits.left, hfits.right⟩) hentry habove hlast
      hlookup (by rw [hcover])
    have hy := h.axis (fun _ _ hfits => ⟨hfits.top, hfits.bottom⟩) hentry habove hlast
      hlookup (by rw [hcover])
    rw [hcover] at hx hy
    exact {
      positiveWidth := hread.positiveWidth
      positiveHeight := hread.positiveHeight
      left := hx.1
      top := hy.1
      right := hx.2
      bottom := hy.2 }

end Accepted

/-! ## A contained tree is not refused for its shape -/

/-- A check that does not fail for the shape of the tree. -/
structure ShapeFree {α : Type} (x : Checked α) : Prop where
  free : ∀ fault, x = .error fault → fault.isShape = false

section ShapeFree

variable {α β : Type}

theorem shapeFree_ok (a : α) : ShapeFree (.ok a : Checked α) := ⟨fun _ h => by cases h⟩

theorem shapeFree_error {fault : ProgramFault} (h : fault.isShape = false) :
    ShapeFree (.error fault : Checked α) := ⟨fun _ heq => by cases heq; exact h⟩

theorem ShapeFree.bind {x : Checked α} {f : α → Checked β} (hx : ShapeFree x)
    (hf : ∀ a, x = .ok a → ShapeFree (f a)) : ShapeFree (x >>= f) := by
  cases x with
  | ok a => exact hf a rfl
  | error fault => exact shapeFree_error (hx.free fault rfl)

theorem shapeFree_orFault {found : Option α} {fault : ProgramFault}
    (h : fault.isShape = false) : ShapeFree (orFault found fault) := by
  cases found with
  | none => exact shapeFree_error h
  | some a => exact shapeFree_ok a

theorem shapeFree_refuse {wrong : Bool} {fault : ProgramFault} (h : fault.isShape = false) :
    ShapeFree (refuse wrong fault) := by
  cases wrong with
  | false => exact shapeFree_ok ()
  | true => exact shapeFree_error h

theorem shapeFree_forM {l : List α} {f : α → Checked Unit} (h : ∀ a ∈ l, ShapeFree (f a)) :
    ShapeFree (l.forM f) := by
  induction l with
  | nil => exact shapeFree_ok ()
  | cons a l ih =>
      exact (h a List.mem_cons_self).bind
        (fun _ _ => ih (fun b hb => h b (List.mem_cons_of_mem _ hb)))

theorem shapeFree_foldlM {f : β → α → Checked β} (h : ∀ b a, ShapeFree (f b a)) (l : List α)
    (b : β) : ShapeFree (l.foldlM f b) := by
  induction l generalizing b with
  | nil => exact shapeFree_ok b
  | cons a l ih => exact (h b a).bind (fun b' _ => ih b')

end ShapeFree

theorem shapeFree_exactObject (value : Json) (label : String) (allowed required : List String) :
    ShapeFree (exactObject value label allowed required) := by
  refine (shapeFree_orFault rfl).bind (fun object _ => ?_)
  split
  · exact shapeFree_error rfl
  · split
    · exact shapeFree_error rfl
    · exact shapeFree_ok object

theorem shapeFree_parseBounds (value : Json) (id : String) :
    ShapeFree (parseBounds value id) := by
  refine (shapeFree_exactObject _ _ _ _).bind (fun object _ => ?_)
  refine (shapeFree_orFault rfl).bind (fun x _ => ?_)
  refine (shapeFree_orFault rfl).bind (fun y _ => ?_)
  refine (shapeFree_orFault rfl).bind (fun width _ => ?_)
  refine (shapeFree_orFault rfl).bind (fun height _ => ?_)
  exact (shapeFree_refuse rfl).bind (fun _ _ => shapeFree_ok _)

theorem shapeFree_validateStyle (value : Json) (id : String) :
    ShapeFree (validateStyle value id) :=
  (shapeFree_exactObject _ _ _ _).bind
    (fun _ _ => shapeFree_forM (fun _ _ => shapeFree_refuse rfl))

theorem shapeFree_booleanField (object : List (String × Json)) (id key : String) :
    ShapeFree (booleanField object id key) := by
  unfold booleanField
  split
  · exact shapeFree_ok ()
  · exact shapeFree_refuse rfl

theorem shapeFree_lineField (object : List (String × Json)) (id key : String)
    (maximum : Nat) : ShapeFree (lineField object id key maximum) := by
  unfold lineField
  split
  · exact shapeFree_ok ()
  · exact (shapeFree_orFault rfl).bind (fun _ _ => shapeFree_refuse rfl)

theorem shapeFree_textField (object : List (String × Json)) (id : String) :
    ShapeFree (textField object id) := by
  unfold textField
  split
  · exact shapeFree_ok ()
  · exact (shapeFree_orFault rfl).bind (fun _ _ => shapeFree_refuse rfl)

theorem shapeFree_validateOptionalNodeFields (object : List (String × Json)) (id : String) :
    ShapeFree (validateOptionalNodeFields object id) := by
  refine (shapeFree_refuse rfl).bind (fun _ _ => ?_)
  refine (shapeFree_forM (fun key _ => shapeFree_booleanField object id key)).bind
    (fun _ _ => ?_)
  refine (shapeFree_forM (fun field _ => shapeFree_lineField object id field.1 field.2)).bind
    (fun _ _ => ?_)
  refine (shapeFree_textField object id).bind (fun _ _ => ?_)
  split
  · exact shapeFree_ok ()
  · exact shapeFree_validateStyle _ id

theorem shapeFree_readParentId (object : List (String × Json)) (id : String) :
    ShapeFree (readParentId object id) := by
  unfold readParentId
  split
  · exact shapeFree_ok none
  · exact (shapeFree_orFault rfl).bind (fun _ _ => shapeFree_ok _)

theorem shapeFree_readNode (census : Census) (node : Json) :
    ShapeFree (readNode census node) := by
  refine (shapeFree_exactObject _ _ _ _).bind (fun object _ => ?_)
  refine (shapeFree_orFault rfl).bind (fun id _ => ?_)
  refine (shapeFree_refuse rfl).bind (fun _ _ => ?_)
  refine (shapeFree_readParentId object id).bind (fun parentId _ => ?_)
  refine (shapeFree_orFault rfl).bind (fun tag _ => ?_)
  refine (shapeFree_orFault rfl).bind (fun value _ => ?_)
  refine (shapeFree_parseBounds value id).bind (fun bounds _ => ?_)
  refine (shapeFree_validateOptionalNodeFields object id).bind (fun _ _ => ?_)
  exact (shapeFree_refuse rfl).bind (fun _ _ => shapeFree_ok _)

theorem shapeFree_checkRequired (byId : List (String × NodeInfo)) (stateId : String)
    (required : RequiredSection) : ShapeFree (checkRequired byId stateId required) :=
  (shapeFree_orFault rfl).bind (fun _ _ =>
    (shapeFree_refuse rfl).bind (fun _ _ => shapeFree_refuse rfl))

theorem shapeFree_validateCopyContract (byId : List (String × NodeInfo))
    (contract : CopyContract) (stateId : String) :
    ShapeFree (validateCopyContract byId contract stateId) := by
  cases contract with
  | noReadableCopy => exact shapeFree_refuse rfl
  | contractCopyOnly exact' =>
      exact (shapeFree_refuse rfl).bind
        (fun _ _ => shapeFree_forM (fun _ _ => shapeFree_refuse rfl))

section WellPlaced

variable {byId : List (String × NodeInfo)} {width height : Rat}

/-- The one root of a well placed list covers the viewport. -/
theorem WellPlaced.checkRoot (h : WellPlaced (placements byId) width height)
    {nodes : List Json} {census : Census} (hc : CensusOf nodes census)
    (hbyId : census.byId = byId) {output : OutputSpec} (hwidth : width = output.width)
    (hheight : height = output.height) :
    IfscTextProvider.checkRoot census output = .ok () := by
  obtain ⟨root, hroot, hcover⟩ := h.root
  rw [roots_placements, placements] at hroot
  obtain ⟨entry, hentry, rfl⟩ := List.map_eq_singleton_iff.mp hroot
  have hmem : entry ∈ census.byId := by
    rw [hbyId]
    exact List.mem_of_mem_filter (hentry ▸ List.mem_singleton_self entry)
  have hroots : census.roots = [entry.1] := by
    rw [hc.roots, rootIds, hbyId, hentry]
    rfl
  rw [IfscTextProvider.checkRoot, hroots]
  dsimp only
  rw [hc.lookup hmem]
  dsimp only
  have hbounds : entry.2.bounds = { x := 0, y := 0, width, height } := hcover
  rw [hbounds, hwidth, hheight, refuse_ok]
  simp

/-- A node of a well placed list passes. -/
theorem WellPlaced.checkPlacement (h : WellPlaced (placements byId) width height)
    {entry : String × NodeInfo} (hmem : entry ∈ byId) :
    IfscTextProvider.checkPlacement byId entry = .ok () := by
  have hplace : (entry.1, entry.2.placement) ∈ placements byId := List.mem_map_of_mem hmem
  have hkeys : (SortedMap.keys byId).Nodup := by
    have := h.unique
    rwa [placements, SortedMap.map, List.map_map] at this
  refine bind_ok.mpr ⟨(), ?_, ?_⟩
  · rw [checkParent]
    cases hp : entry.2.parentId with
    | none => rfl
    | some p =>
        obtain ⟨_, hparent, rfl, hx, hy, hright, hbottom⟩ := h.fits _ hplace p hp
        obtain ⟨parent, hin, rfl⟩ := List.mem_map.mp hparent
        dsimp only
        rw [SortedMap.lookup_of_nodup hkeys hin]
        refine bind_ok.mpr ⟨parent.2, rfl, ?_⟩
        simp only [refuse_ok, Bool.or_eq_false_iff, decide_eq_false_iff_not, not_lt, gt_iff_lt]
        exact ⟨⟨⟨hx, hy⟩, hright⟩, hbottom⟩
  · obtain ⟨above, habove⟩ := h.tree _ hplace
    rw [refuse_ok, Bool.not_eq_false', climbs_iff]
    rw [parentOf_placements] at habove
    refine ⟨above, habove, ?_⟩
    rw [← List.length_map (fun entry : String × NodeInfo => entry.1)]
    refine habove.length_lt (List.mem_map_of_mem hmem) ?_
    -- parents are keys, so the lineage stays among the ids
    intro b p hb hp
    obtain ⟨info, hinfo, hparent⟩ := Option.bind_eq_some_iff.mp hp
    have hplace := List.mem_map_of_mem (f := fun e : String × NodeInfo => (e.1, e.2.placement))
      (SortedMap.mem_of_lookup hinfo)
    obtain ⟨_, hin, rfl, _⟩ := h.fits _ hplace p hparent
    obtain ⟨parent, hkey, rfl⟩ := List.mem_map.mp hin
    exact List.mem_map_of_mem hkey

end WellPlaced

/-- **A tree inside the viewport is not refused for its shape.** -/
theorem WellPlaced.shapeFree {env : ScreenEnv} {nodes : List Json} {layout : Layout}
    {request : ProviderRequest} {contract : RequestContract}
    (hlayout : layoutOf nodes = some layout)
    (h : WellPlaced layout request.output.width request.output.height) :
    ShapeFree (validateNodes env nodes request contract) := by
  refine (shapeFree_foldlM shapeFree_readNode nodes _).bind (fun census hcensus => ?_)
  have hc : CensusOf nodes census := readNodes_ok hcensus
  rw [hc.layout] at hlayout
  cases hlayout
  rw [h.checkRoot hc rfl rfl rfl]
  have hplaced : ∀ entry ∈ env.hashOrder census.byId,
      ShapeFree (IfscTextProvider.checkPlacement census.byId entry) := by
    intro entry hentry
    rw [h.checkPlacement ((env.hashOrder_perm census.byId).mem_iff.mp hentry)]
    exact shapeFree_ok ()
  refine (shapeFree_forM hplaced).bind (fun _ _ => ?_)
  refine (shapeFree_forM (fun required _ => shapeFree_checkRequired _ _ required)).bind
    (fun _ _ => ?_)
  exact (shapeFree_refuse rfl).bind (fun _ _ => shapeFree_validateCopyContract _ _ _)

/-- **Accepted programs are contained trees**, and a contained tree is never refused for
its root, a missing parent, its bounds or a cycle, in whatever order it is listed and the
map yields it. -/
theorem accepted_program_contained (env : ScreenEnv) (request : ProviderRequest)
    (contract : RequestContract) :
    (∀ program, validateProgram env program request contract = .ok () →
      ∃ nodes layout, program.get "nodes" = some (.array nodes) ∧
        layoutOf nodes = some layout ∧
        Contained layout request.output.width request.output.height) ∧
    (∀ nodes layout, layoutOf nodes = some layout →
      WellPlaced layout request.output.width request.output.height →
      ∀ fault, validateNodes env nodes request contract = .error fault →
        fault.isShape = false) := by
  constructor
  · intro program h
    obtain ⟨nodes, census, hnodes, haccepted⟩ := validateProgram_ok h
    exact ⟨nodes, _, hnodes, haccepted.counted.layout, haccepted.contained⟩
  · intro nodes layout hlayout h fault hfault
    exact (h.shapeFree hlayout).free fault hfault

/-! ## A small program -/

/-- The `bounds` of a node. -/
def boundsJson (x y width height : String) : Json :=
  .object [("height", .number height), ("width", .number width), ("x", .number x),
    ("y", .number y)]

/-- The viewport of the source's tests. -/
def homeViewport : List (String × Json) :=
  [("deviceScaleFactor", .number "1"), ("height", .number "1024"), ("width", .number "1440")]

/-- The program of the source's tests, with other nodes. -/
def screenOf (nodes : List Json) : Json :=
  .object [("behavior", .object [("actions", .array [])]), ("fitViewport", .bool true),
    ("initialState", .string "default"), ("nodes", .array nodes),
    ("route", .string "/candidate/screen.home/default"), ("schemaVersion", .number "1"),
    ("screenId", .string "screen.home"), ("viewport", .object homeViewport)]

def homeRequest : ProviderRequest where
  output := { width := 1440, height := 1024 }
  constraints := { maximumNodes := 128, maximumProgramBytes := 262144 }

/-- A contract with one required button. -/
def homeContract : RequestContract where
  screenId := "screen.home"
  stateId := "default"
  deviceScaleFactor := 1
  requiredSections := [{ elementId := "start-project", kind := "button" }]
  copyContract := .noReadableCopy

/-- A map that yields its entries as they were inserted. -/
def listOrder : ScreenEnv where
  hashOrder := id
  hashOrder_perm := fun _ => List.Perm.refl _

theorem exactObject_of {object : List (String × Json)} {label : String}
    {allowed required : List String}
    (hallowed : (object.map (·.1)).find? (fun key => key ∉ allowed) = none)
    (hrequired : required.find? (fun key => (object.lookup key).isNone) = none) :
    exactObject (.object object) label allowed required = .ok object := by
  refine bind_ok.mpr ⟨object, rfl, ?_⟩
  rw [hallowed]
  dsimp only
  rw [hrequired]

/-- The fields of `screenOf`. -/
def screenFields (nodes : List Json) : List (String × Json) :=
  [("behavior", .object [("actions", .array [])]), ("fitViewport", .bool true),
    ("initialState", .string "default"), ("nodes", .array nodes),
    ("route", .string "/candidate/screen.home/default"), ("schemaVersion", .number "1"),
    ("screenId", .string "screen.home"), ("viewport", .object homeViewport)]

section

variable (nodes : List Json)

theorem screenFields_schemaVersion :
    (screenFields nodes).lookup "schemaVersion" = some (.number "1") := by
  simp [screenFields, List.lookup]

theorem screenFields_screenId :
    (screenFields nodes).lookup "screenId" = some (.string "screen.home") := by
  simp [screenFields, List.lookup]

theorem screenFields_initialState :
    (screenFields nodes).lookup "initialState" = some (.string "default") := by
  simp [screenFields, List.lookup]

theorem screenFields_fitViewport :
    (screenFields nodes).lookup "fitViewport" = some (.bool true) := by
  simp [screenFields, List.lookup]

theorem screenFields_route :
    (screenFields nodes).lookup "route" = some (.string "/candidate/screen.home/default") := by
  simp [screenFields, List.lookup]

theorem screenFields_exact :
    exactObject (.object (screenFields nodes)) "program"
      ["schemaVersion", "screenId", "route", "language", "viewport", "initialState",
        "fitViewport", "nodes", "behavior"]
      ["schemaVersion", "screenId", "route", "viewport", "initialState", "fitViewport",
        "nodes", "behavior"] = .ok (screenFields nodes) :=
  exactObject_of (by simp [screenFields]) (by simp [screenFields, List.lookup])

end

/-- Only the nodes decide about such a program, whatever the contract requires of them. -/
theorem screenOf_ok' {nodes : List Json} {contract : RequestContract}
    (hhome : contract.screenId = "screen.home" ∧ contract.stateId = "default" ∧
      contract.deviceScaleFactor = 1)
    (hbytes : (screenOf nodes).encodedBytes ≤ 262144)
    (hsize : 0 < nodes.length ∧ nodes.length ≤ 128)
    (h : validateNodes listOrder nodes homeRequest contract = .ok ()) :
    validateProgram listOrder (screenOf nodes) homeRequest contract = .ok () := by
  obtain ⟨hscreen, hstate, hfactor⟩ := hhome
  have hone : (Json.number "1").asU64 = some 1 := asU64_literal (by decide +kernel) (by decide)
  have hwidth : (Json.number "1440").asU64 = some 1440 :=
    asU64_literal (by decide +kernel) (by decide)
  have hheight : (Json.number "1024").asU64 = some 1024 :=
    asU64_literal (by decide +kernel) (by decide)
  have hscale : (Json.number "1").asF64 = some 1 := by decide +kernel
  have hcheck : checkProgram listOrder (screenOf nodes) homeRequest contract = .ok () := by
    unfold checkProgram
    refine bind_ok.mpr ⟨(), refuse_ok.mpr (decide_eq_false (Nat.not_lt.mpr hbytes)), ?_⟩
    refine bind_ok.mpr ⟨screenFields nodes, screenFields_exact nodes, ?_⟩
    refine bind_ok.mpr ⟨(), refuse_ok.mpr ?_, ?_⟩
    · rw [screenFields_schemaVersion, screenFields_screenId, screenFields_initialState,
        screenFields_fitViewport]
      simp [Json.asStr, Json.asBool, hone, hscreen, hstate]
    refine bind_ok.mpr ⟨(), refuse_ok.mpr ?_, ?_⟩
    · rw [screenFields_route]
      simp [Json.asStr, hscreen, hstate]
    refine bind_ok.mpr ⟨(), refuse_ok.mpr (by simp [screenFields, List.lookup]), ?_⟩
    refine bind_ok.mpr ⟨.object homeViewport,
      orFault_ok.mpr (by simp [screenFields, List.lookup]), ?_⟩
    refine bind_ok.mpr ⟨(), bind_ok.mpr ⟨homeViewport, ?_, refuse_ok.mpr ?_⟩, ?_⟩
    · exact exactObject_of (by simp [homeViewport]) (by simp [homeViewport, List.lookup])
    · simp [homeViewport, List.lookup, hscale, hwidth, hheight, hfactor, homeRequest]
    refine bind_ok.mpr ⟨.object [("actions", .array [])], orFault_ok.mpr ?_, ?_⟩
    · simp [screenFields]
    refine bind_ok.mpr ⟨_, exactObject_of (by simp) (by simp [List.lookup]), ?_⟩
    refine bind_ok.mpr ⟨(), refuse_ok.mpr (by simp [List.lookup, Json.asArray]), ?_⟩
    refine bind_ok.mpr ⟨nodes, orFault_ok.mpr ?_, h⟩
    rw [Option.filter_eq_some_iff]
    refine ⟨by simp [screenFields, List.lookup, Json.asArray], ?_⟩
    obtain ⟨hpos, hmax⟩ := hsize
    simp only [homeRequest, Bool.and_eq_true, Bool.not_eq_true', List.isEmpty_eq_false_iff]
    exact ⟨List.ne_nil_of_length_pos hpos, decide_eq_true hmax⟩
  rw [validateProgram, hcheck]
  rfl

theorem screenOf_ok {nodes : List Json} (hbytes : (screenOf nodes).encodedBytes ≤ 262144)
    (hsize : 0 < nodes.length ∧ nodes.length ≤ 128)
    (h : validateNodes listOrder nodes homeRequest homeContract = .ok ()) :
    validateProgram listOrder (screenOf nodes) homeRequest homeContract = .ok () :=
  screenOf_ok' ⟨rfl, rfl, rfl⟩ hbytes hsize h

theorem ok_of_toBool {x : Checked Unit} (h : x.toBool = true) : x = .ok () := by
  cases x with
  | ok u => rfl
  | error fault => cases h

/-- A button listed before the page it is on. -/
def buttonNodes : List Json :=
  [.object [("bounds", boundsJson "120" "300.5" "220" "64"), ("id", .string "start-project"),
      ("parentId", .string "hero"), ("primaryAction", .bool true), ("tag", .string "button")],
    .object [("bounds", boundsJson "0" "0" "1440" "1024"), ("id", .string "hero"),
      ("tag", .string "main")]]

theorem buttonProgram_ok :
    validateProgram listOrder (screenOf buttonNodes) homeRequest homeContract = .ok () :=
  screenOf_ok (by decide +kernel) (by decide) (ok_of_toBool (by decide +kernel))

theorem accepted_program_contained_button :
    ∃ nodes layout, (screenOf buttonNodes).get "nodes" = some (.array nodes) ∧
      layoutOf nodes = some layout ∧ Contained layout 1440 1024 :=
  (accepted_program_contained listOrder homeRequest homeContract).1 _ buttonProgram_ok

end Vergerail.IfscTextProvider
