import Vergerail.Lib.Appended
import Vergerail.Lib.Checked
import Vergerail.Private.Protocol

/-!
# What an audit of a turn says

The audit reads a history once and answers with four lists, or refuses. The two questions
about it have one answer each: what a history must look like for the audit to answer, and
that its lists are then the turn's items, every item in the list of its type and none
twice, missing or out of order.

The loop over the items appends to the four lists. So the lemmas speak of what is appended
between two audits, and the empty audit comes last.
-/

namespace Vergerail

open Lib

/-! ## The shape of a history -/

/-- The field is a string, and not the empty one. -/
def Json.HasText (value : Json) (field text : String) : Prop :=
  value.get field = some (.string text) ∧ text ≠ ""

/-- The items of a type. -/
def ofType (itemType : String) (items : List Json) : List Json :=
  items.filter (fun item => item.name "type" = some itemType)

/-- The items with none of the three types an audit decodes. -/
def ofOtherType (items : List Json) : List Json :=
  items.filter (fun item =>
    item.name "type" ∉ [some "commandExecution", some "fileChange", some "imageGeneration"])

/-- Every item has its own name and a type, and can be decoded if its type says so. -/
structure ItemsSound (items : List Json) : Prop where
  typed : ∀ item ∈ items, ∃ itemType, item.HasText "type" itemType
  named : ∀ item ∈ items, ∃ id, item.HasText "id" id
  distinct : items.Pairwise (fun item other => item.get "id" ≠ other.get "id")
  commands : ∀ item ∈ ofType "commandExecution" items, ∃ command,
    commandFromItem item = .ok command
  fileChanges : ∀ item ∈ ofType "fileChange" items, ∃ change,
    fileChangeFromItem item = .ok change
  imageGenerations : ∀ item ∈ ofType "imageGeneration" items, ∃ image,
    imageGenerationFromItem item = .ok image

/-- A completed turn, all of whose items are there. -/
structure TurnComplete (turn : Json) (items : List Json) : Prop where
  status : turn.get "status" = some (.string "completed")
  full : turn.get "itemsView" = none ∨ turn.get "itemsView" = some (.string "full")
  items : turn.get "items" = some (.array items)

/-- **The history of the thread holds the turn once, complete, with these items.** -/
structure Auditable (response : Json) (threadId turnId : String) (items : List Json) : Prop where
  turns : ∃ thread turns turn, response.get "thread" = some thread ∧
    thread.HasText "id" threadId ∧ thread.get "turns" = some (.array turns) ∧
    (∀ turn ∈ turns, ∃ id, turn.HasText "id" id) ∧
    turns.filter (fun turn => turn.name "id" = some turnId) = [turn] ∧ TurnComplete turn items
  sound : ItemsSound items

/-- **The audit is the items of the turn, sorted by type**: each list holds, in order, what
the items of its type are decoded to. -/
structure Partitioned (turnId : String) (items : List Json) (audit : TurnAudit) : Prop where
  turnId : audit.turnId = turnId
  commands : List.Forall₂ (fun item command => commandFromItem item = .ok command)
    (ofType "commandExecution" items) audit.commands
  fileChanges : List.Forall₂ (fun item change => fileChangeFromItem item = .ok change)
    (ofType "fileChange" items) audit.fileChanges
  imageGenerations : List.Forall₂ (fun item image => imageGenerationFromItem item = .ok image)
    (ofType "imageGeneration" items) audit.imageGenerations
  others : List.Forall₂ (fun item itemType => item.HasText "type" itemType)
    (ofOtherType items) audit.otherItemTypes
  total : audit.commands.length + audit.fileChanges.length + audit.imageGenerations.length
    + audit.otherItemTypes.length = items.length

/-! ## Names -/

theorem name_eq_some {value : Json} {field text : String} :
    value.name field = some text ↔ value.HasText field text := by
  rw [Json.name, Json.HasText, Option.bind_eq_some_iff]
  constructor
  · rintro ⟨found, hfound, htext⟩
    rw [Json.asNonEmptyStr, Option.filter_eq_some_iff] at htext
    obtain ⟨hstring, hne⟩ := htext
    cases found <;> cases hstring
    exact ⟨hfound, by simpa using hne⟩
  · rintro ⟨hfound, hne⟩
    exact ⟨_, hfound, Option.filter_eq_some_iff.mpr ⟨rfl, by simpa using hne⟩⟩

theorem not_hasText_of_name {value : Json} {field : String} (h : value.name field = none) :
    ¬∃ text, value.HasText field text := by
  rintro ⟨text, htext⟩
  rw [name_eq_some.mpr htext] at h
  cases h

/-! ## The loop over the items -/

/-- What the items add to an audit. -/
structure Added (items : List Json) (before after : TurnAudit) : Prop where
  turnId : after.turnId = before.turnId
  commands : Appended (fun item command => commandFromItem item = .ok command)
    (ofType "commandExecution" items) before.commands after.commands
  fileChanges : Appended (fun item change => fileChangeFromItem item = .ok change)
    (ofType "fileChange" items) before.fileChanges after.fileChanges
  imageGenerations : Appended (fun item image => imageGenerationFromItem item = .ok image)
    (ofType "imageGeneration" items) before.imageGenerations after.imageGenerations
  others : Appended (fun item itemType => item.HasText "type" itemType)
    (ofOtherType items) before.otherItemTypes after.otherItemTypes

/-- Two audits with the same lists are the same. -/
theorem audit_ext {audit other : TurnAudit} (hturn : audit.turnId = other.turnId)
    (hcommands : audit.commands = other.commands)
    (hchanges : audit.fileChanges = other.fileChanges)
    (himages : audit.imageGenerations = other.imageGenerations)
    (hothers : audit.otherItemTypes = other.otherItemTypes) : audit = other := by
  cases audit
  cases other
  cases hturn
  cases hcommands
  cases hchanges
  cases himages
  cases hothers
  rfl

theorem added_nil {before after : TurnAudit} : Added [] before after ↔ after = before := by
  constructor
  · intro h
    exact audit_ext h.turnId (appended_nil.mp h.commands) (appended_nil.mp h.fileChanges)
      (appended_nil.mp h.imageGenerations) (appended_nil.mp h.others)
  · rintro rfl
    exact ⟨rfl, appended_nil.mpr rfl, appended_nil.mpr rfl, appended_nil.mpr rfl,
      appended_nil.mpr rfl⟩

theorem ofType_append (itemType : String) (items items' : List Json) :
    ofType itemType (items ++ items') = ofType itemType items ++ ofType itemType items' :=
  List.filter_append ..

theorem ofOtherType_append (items items' : List Json) :
    ofOtherType (items ++ items') = ofOtherType items ++ ofOtherType items' :=
  List.filter_append ..

theorem added_append {items items' : List Json} {before after : TurnAudit} :
    Added (items ++ items') before after ↔
      ∃ middle, Added items before middle ∧ Added items' middle after := by
  constructor
  · rintro ⟨hturn, hcommands, hchanges, himages, hothers⟩
    rw [ofType_append, appended_append] at hcommands hchanges himages
    rw [ofOtherType_append, appended_append] at hothers
    obtain ⟨commands, hcommands, hcommands'⟩ := hcommands
    obtain ⟨changes, hchanges, hchanges'⟩ := hchanges
    obtain ⟨images, himages, himages'⟩ := himages
    obtain ⟨others, hothers, hothers'⟩ := hothers
    exact ⟨⟨before.turnId, commands, changes, images, others⟩,
      ⟨rfl, hcommands, hchanges, himages, hothers⟩,
      ⟨hturn, hcommands', hchanges', himages', hothers'⟩⟩
  · rintro ⟨middle, h, h'⟩
    constructor
    · rw [h'.turnId, h.turnId]
    · rw [ofType_append, appended_append]
      exact ⟨_, h.commands, h'.commands⟩
    · rw [ofType_append, appended_append]
      exact ⟨_, h.fileChanges, h'.fileChanges⟩
    · rw [ofType_append, appended_append]
      exact ⟨_, h.imageGenerations, h'.imageGenerations⟩
    · rw [ofOtherType_append, appended_append]
      exact ⟨_, h.others, h'.others⟩

theorem ofType_singleton {item : Json} {found itemType : String}
    (htype : item.name "type" = some found) :
    ofType itemType [item] = if found = itemType then [item] else [] := by
  simp [ofType, List.filter_cons, htype]

theorem ofOtherType_singleton {item : Json} {found : String}
    (htype : item.name "type" = some found) :
    ofOtherType [item] =
      if found = "commandExecution" ∨ found = "fileChange" ∨ found = "imageGeneration" then []
      else [item] := by
  simp only [ofOtherType, List.filter_cons, htype, List.filter_nil, List.mem_cons,
    Option.some.injEq, List.not_mem_nil, or_false, decide_eq_true_eq, ite_not]

/-- An item goes into the list of its type, decoded, and leaves the others as they are. -/
theorem push_ok_iff {before after : TurnAudit} {item : Json} {itemType : String}
    (htype : item.name "type" = some itemType) :
    before.push itemType item = .ok after ↔ Added [item] before after := by
  have htext := name_eq_some.mp htype
  constructor
  · intro h
    unfold TurnAudit.push at h
    split at h
    · obtain ⟨command, hdecoded, hafter⟩ := bind_ok.mp h
      cases hafter
      constructor <;> simp [ofType_singleton htype, ofOtherType_singleton htype, appended_nil,
        appended_singleton, hdecoded]
    · obtain ⟨change, hdecoded, hafter⟩ := bind_ok.mp h
      cases hafter
      constructor <;> simp [ofType_singleton htype, ofOtherType_singleton htype, appended_nil,
        appended_singleton, hdecoded]
    · obtain ⟨image, hdecoded, hafter⟩ := bind_ok.mp h
      cases hafter
      constructor <;> simp [ofType_singleton htype, ofOtherType_singleton htype, appended_nil,
        appended_singleton, hdecoded]
    · rename_i hcommand hchange himage
      have hcommand : itemType ≠ "commandExecution" := hcommand
      have hchange : itemType ≠ "fileChange" := hchange
      have himage : itemType ≠ "imageGeneration" := himage
      cases h
      constructor <;> simp [ofType_singleton htype, ofOtherType_singleton htype, appended_nil,
        appended_singleton, htext, hcommand, hchange, himage]
  · rintro ⟨hturn, hcommands, hchanges, himages, hothers⟩
    rw [ofType_singleton htype] at hcommands hchanges himages
    rw [ofOtherType_singleton htype] at hothers
    unfold TurnAudit.push
    split
    · simp only [reduceIte, String.reduceEq, true_or, appended_nil, appended_singleton]
        at hcommands hchanges himages hothers
      obtain ⟨command, hdecoded, hcommands⟩ := hcommands
      have hafter : after = { before with commands := before.commands ++ [command] } :=
        audit_ext hturn hcommands hchanges himages hothers
      rw [hafter]
      exact bind_ok.mpr ⟨command, hdecoded, rfl⟩
    · simp only [reduceIte, String.reduceEq, true_or, or_true, appended_nil, appended_singleton]
        at hcommands hchanges himages hothers
      obtain ⟨change, hdecoded, hchanges⟩ := hchanges
      have hafter : after = { before with fileChanges := before.fileChanges ++ [change] } :=
        audit_ext hturn hcommands hchanges himages hothers
      rw [hafter]
      exact bind_ok.mpr ⟨change, hdecoded, rfl⟩
    · simp only [reduceIte, String.reduceEq, or_true, appended_nil, appended_singleton]
        at hcommands hchanges himages hothers
      obtain ⟨image, hdecoded, himages⟩ := himages
      have hafter : after = { before with imageGenerations := before.imageGenerations ++ [image] } :=
        audit_ext hturn hcommands hchanges himages hothers
      rw [hafter]
      exact bind_ok.mpr ⟨image, hdecoded, rfl⟩
    · rename_i hcommand hchange himage
      have hcommand : itemType ≠ "commandExecution" := hcommand
      have hchange : itemType ≠ "fileChange" := hchange
      have himage : itemType ≠ "imageGeneration" := himage
      simp only [hcommand, hchange, himage, reduceIte, or_self, appended_nil,
        appended_singleton] at hcommands hchanges himages hothers
      obtain ⟨found, hfound, hothers⟩ := hothers
      have hsame : found = itemType := by
        have heq := hfound.1.symm.trans htext.1
        exact Json.string.inj (Option.some.inj heq)
      have hafter : after = { before with
          otherItemTypes := before.otherItemTypes ++ [itemType] } :=
        audit_ext hturn hcommands hchanges himages (hsame ▸ hothers)
      rw [hafter]

/-- Every item has a type and a name of its own, and none of the names in `itemIds`. -/
structure NamedApart (itemIds : List String) (items : List Json) : Prop where
  typed : ∀ item ∈ items, ∃ itemType, item.HasText "type" itemType
  named : ∀ item ∈ items, ∃ id, item.HasText "id" id
  distinct : items.Pairwise (fun item other => item.get "id" ≠ other.get "id")
  apart : ∀ item ∈ items, ∀ id ∈ itemIds, item.get "id" ≠ some (.string id)

theorem namedApart_nil (itemIds : List String) : NamedApart itemIds [] := by
  constructor <;> simp

theorem namedApart_cons {itemIds : List String} {item : Json} {items : List Json}
    {itemType id : String} (htype : item.HasText "type" itemType) (hid : item.HasText "id" id) :
    NamedApart itemIds (item :: items) ↔ id ∉ itemIds ∧ NamedApart (id :: itemIds) items := by
  constructor
  · rintro ⟨htyped, hnamed, hdistinct, hapart⟩
    obtain ⟨hfirst, hrest⟩ := List.pairwise_cons.mp hdistinct
    refine ⟨fun hmem => hapart item List.mem_cons_self id hmem hid.1,
      fun other hother => htyped other (List.mem_cons_of_mem _ hother),
      fun other hother => hnamed other (List.mem_cons_of_mem _ hother), hrest, ?_⟩
    intro other hother seen hseen
    rcases List.mem_cons.mp hseen with rfl | hseen
    · rw [← hid.1]
      exact (hfirst other hother).symm
    · exact hapart other (List.mem_cons_of_mem _ hother) seen hseen
  · rintro ⟨hfresh, htyped, hnamed, hdistinct, hapart⟩
    constructor
    · exact List.forall_mem_cons.mpr ⟨⟨itemType, htype⟩, htyped⟩
    · exact List.forall_mem_cons.mpr ⟨⟨id, hid⟩, hnamed⟩
    · refine List.pairwise_cons.mpr ⟨?_, hdistinct⟩
      intro other hother
      rw [hid.1]
      exact (hapart other hother id List.mem_cons_self).symm
    · refine List.forall_mem_cons.mpr ⟨?_, ?_⟩
      · intro seen hseen heq
        rw [hid.1, Option.some.injEq, Json.string.injEq] at heq
        exact hfresh (heq ▸ hseen)
      · intro other hother seen hseen
        exact hapart other hother seen (List.mem_cons_of_mem _ hseen)

/-- **The loop answers if every item has a type and its own name, and can be decoded; it
has then added the items to the audit.** -/
theorem auditItems_ok_iff {target : String} {turnIndex itemIndex : Nat} {items : List Json}
    {itemIds : List String} {before after : TurnAudit} :
    auditItems target turnIndex itemIndex items itemIds before = .ok after ↔
      NamedApart itemIds items ∧ Added items before after := by
  induction items generalizing itemIndex itemIds before with
  | nil =>
      rw [auditItems, added_nil, Except.ok.injEq]
      exact ⟨fun h => ⟨namedApart_nil _, h.symm⟩, fun h => h.2.symm⟩
  | cons item items ih =>
      constructor
      · intro h
        rw [auditItems] at h
        split at h
        · cases h
        · rename_i itemType htype
          split at h
          · cases h
          · rename_i id hid
            split at h
            · cases h
            · rename_i hfresh
              split at h
              · cases h
              · rename_i middle hpush
                obtain ⟨hnamed, hadded⟩ := ih.mp h
                refine ⟨(namedApart_cons (name_eq_some.mp htype) (name_eq_some.mp hid)).mpr
                  ⟨hfresh, hnamed⟩, ?_⟩
                have hboth : Added ([item] ++ items) before after :=
                  added_append.mpr ⟨middle, (push_ok_iff htype).mp hpush, hadded⟩
                exact hboth
      · rintro ⟨hnamed, hadded⟩
        obtain ⟨itemType, htype⟩ := hnamed.typed item List.mem_cons_self
        obtain ⟨id, hid⟩ := hnamed.named item List.mem_cons_self
        obtain ⟨hfresh, hnamed⟩ := (namedApart_cons htype hid).mp hnamed
        have hboth : Added ([item] ++ items) before after := hadded
        obtain ⟨middle, hitem, hadded⟩ := added_append.mp hboth
        have htype := name_eq_some.mpr htype
        rw [auditItems, htype, name_eq_some.mpr hid]
        dsimp only
        rw [if_neg hfresh, (push_ok_iff htype).mpr hitem]
        exact ih.mpr ⟨hnamed, hadded⟩

/-! ## The turn -/

/-- With a target found already, the loop only makes sure that there is no other. -/
theorem findTargetTurn_some_iff {target : String} {index : Nat} {turns : List Json}
    {found : Nat × Json} {result : Option (Nat × Json)} :
    findTargetTurn target index turns (some found) = .ok result ↔
      (∀ turn ∈ turns, ∃ id, turn.HasText "id" id) ∧
      turns.filter (fun turn => turn.name "id" = some target) = [] ∧ result = some found := by
  induction turns generalizing index with
  | nil => simp [findTargetTurn, eq_comm]
  | cons turn turns ih =>
      rw [findTargetTurn, List.forall_mem_cons]
      cases hid : turn.name "id" with
      | none =>
          have hnone : ¬∃ id, turn.HasText "id" id := not_hasText_of_name hid
          simp [hnone]
      | some id =>
          dsimp only
          by_cases htarget : id = target
          · rw [if_pos htarget, Option.isSome_some, if_pos rfl,
              List.filter_cons_of_pos (by rw [hid, htarget]; exact decide_eq_true rfl)]
            simp
          · rw [if_neg htarget, ih,
              List.filter_cons_of_neg (by rw [hid]; simpa using htarget)]
            have hsome : ∃ id, turn.HasText "id" id := ⟨id, name_eq_some.mp hid⟩
            simp only [hsome, true_and]

/-- The loop finds a target if every turn has a name and one turn that of the target. -/
theorem findTargetTurn_none_iff {target : String} {index : Nat} {turns : List Json} {turn : Json} :
    (∃ turnIndex, findTargetTurn target index turns none = .ok (some (turnIndex, turn))) ↔
      (∀ turn ∈ turns, ∃ id, turn.HasText "id" id) ∧
      turns.filter (fun turn => turn.name "id" = some target) = [turn] := by
  induction turns generalizing index with
  | nil => simp [findTargetTurn]
  | cons head turns ih =>
      rw [findTargetTurn, List.forall_mem_cons]
      cases hid : head.name "id" with
      | none =>
          have hnone : ¬∃ id, head.HasText "id" id := not_hasText_of_name hid
          simp [hnone]
      | some id =>
          dsimp only
          have hsome : ∃ id, head.HasText "id" id := ⟨id, name_eq_some.mp hid⟩
          simp only [hsome, true_and]
          by_cases htarget : id = target
          · rw [if_pos htarget, Option.isSome_none, if_neg Bool.false_ne_true,
              List.filter_cons_of_pos (by rw [hid, htarget]; exact decide_eq_true rfl),
              List.cons.injEq]
            -- the head is the target, so the rest must not hold another
            simp only [findTargetTurn_some_iff, Option.some.injEq, Prod.mk.injEq]
            constructor
            · rintro ⟨_, hnamed, hrest, _, rfl⟩
              exact ⟨hnamed, rfl, hrest⟩
            · rintro ⟨hnamed, rfl, hrest⟩
              exact ⟨index, hnamed, hrest, rfl, rfl⟩
          · rw [if_neg htarget, ih,
              List.filter_cons_of_neg (by rw [hid]; simpa using htarget)]

theorem targetTurnRefusal_none_iff {target : String} {turnIndex : Nat} {turn : Json} :
    targetTurnRefusal target turnIndex turn = none ↔
      turn.get "status" = some (.string "completed") ∧
      (turn.get "itemsView" = none ∨ turn.get "itemsView" = some (.string "full")) := by
  constructor
  · intro h
    unfold targetTurnRefusal at h
    split at h
    · rename_i hstatus
      refine ⟨Json.string_iff.mp hstatus, ?_⟩
      split at h
      · rename_i hview
        exact .inl hview
      · rename_i hview
        exact .inr hview
      · cases h
      · cases h
    · cases h
    · cases h
  · rintro ⟨hstatus, hview⟩
    rw [← Json.string_iff] at hstatus
    unfold targetTurnRefusal
    rw [hstatus]
    rcases hview with hview | hview
    · rw [hview]
      rfl
    · rw [hview]
      rfl

theorem requiredNonEmptyString_ok_iff {value : Json} {field operation text : String} :
    requiredNonEmptyString value field operation = .ok text ↔ value.HasText field text := by
  rw [← name_eq_some, Json.name, requiredNonEmptyString]
  cases (value.get field).bind Json.asNonEmptyStr <;> simp

/-- What the audit goes through before it answers. -/
theorem turnAudit_ok_iff {response : Json} {threadId turnId : String} {audit : TurnAudit} :
    turnAudit response threadId turnId = .ok audit ↔
      ∃ thread turns turnIndex turn items, response.get "thread" = some thread ∧
        thread.HasText "id" threadId ∧ thread.get "turns" = some (.array turns) ∧
        findTargetTurn turnId 0 turns none = .ok (some (turnIndex, turn)) ∧
        targetTurnRefusal turnId turnIndex turn = none ∧
        turn.get "items" = some (.array items) ∧
        auditItems turnId turnIndex 0 items [] (.empty turnId) = .ok audit := by
  constructor
  · intro h
    unfold turnAudit at h
    split at h
    · cases h
    · rename_i thread hthread
      split at h
      · cases h
      · rename_i observed hobserved
        split at h
        · cases h
        · rename_i hsame
          split at h
          · cases h
          · rename_i turns hturns
            split at h
            · cases h
            · cases h
            · rename_i turnIndex turn hfind
              split at h
              · cases h
              · rename_i hrefusal
                split at h
                · cases h
                · rename_i items hitems
                  rw [requiredNonEmptyString_ok_iff, not_not.mp hsame] at hobserved
                  exact ⟨thread, turns, turnIndex, turn, items, hthread, hobserved,
                    Json.array_iff.mp hturns, hfind, hrefusal, Json.array_iff.mp hitems, h⟩
  · rintro ⟨thread, turns, turnIndex, turn, items, hthread, hid, hturns, hfind, hrefusal, hitems,
      haudit⟩
    have hid : requiredNonEmptyString thread "id" "thread.read" = .ok threadId :=
      requiredNonEmptyString_ok_iff.mpr hid
    rw [← Json.array_iff] at hturns hitems
    unfold turnAudit
    rw [hthread]
    dsimp only
    rw [hid]
    dsimp only
    rw [if_neg (not_not.mpr rfl), hturns]
    dsimp only
    rw [hfind]
    dsimp only
    rw [hrefusal, hitems]
    exact haudit

/-! ## The audit -/

/-- Every item is of one of the three types, or of another. -/
theorem length_ofType_singleton (item : Json) :
    (ofType "commandExecution" [item]).length + (ofType "fileChange" [item]).length
      + (ofType "imageGeneration" [item]).length + (ofOtherType [item]).length = 1 := by
  cases htype : item.name "type" with
  | none => simp [ofType, ofOtherType, htype]
  | some found =>
      rw [ofType_singleton htype, ofType_singleton htype, ofType_singleton htype,
        ofOtherType_singleton htype]
      by_cases hcommand : found = "commandExecution"
      · simp [hcommand]
      · by_cases hchange : found = "fileChange"
        · simp [hchange]
        · by_cases himage : found = "imageGeneration"
          · simp [himage]
          · simp [hcommand, hchange, himage]

theorem length_ofType (items : List Json) :
    (ofType "commandExecution" items).length + (ofType "fileChange" items).length
      + (ofType "imageGeneration" items).length + (ofOtherType items).length = items.length := by
  induction items with
  | nil => rfl
  | cons item items ih =>
      have hone := length_ofType_singleton item
      rw [← List.singleton_append]
      simp only [ofType_append, ofOtherType_append, List.length_append, List.length_singleton]
      omega

/-- What the items add to the empty audit is its partition. -/
theorem added_empty_iff {turnId : String} {items : List Json} {audit : TurnAudit} :
    Added items (.empty turnId) audit ↔ Partitioned turnId items audit := by
  constructor
  · rintro ⟨hturn, hcommands, hchanges, himages, hothers⟩
    have hcommands := appended_from_nil.mp hcommands
    have hchanges := appended_from_nil.mp hchanges
    have himages := appended_from_nil.mp himages
    have hothers := appended_from_nil.mp hothers
    refine ⟨hturn, hcommands, hchanges, himages, hothers, ?_⟩
    rw [← hcommands.length_eq, ← hchanges.length_eq, ← himages.length_eq, ← hothers.length_eq]
    exact length_ofType items
  · intro h
    exact ⟨h.turnId, appended_from_nil.mpr h.commands, appended_from_nil.mpr h.fileChanges,
      appended_from_nil.mpr h.imageGenerations, appended_from_nil.mpr h.others⟩

/-- Sound items have a partition. -/
theorem ItemsSound.exists_partitioned {items : List Json} (h : ItemsSound items)
    (turnId : String) : ∃ audit, Partitioned turnId items audit := by
  have hother : ∀ item ∈ ofOtherType items, ∃ itemType, item.HasText "type" itemType :=
    fun item hitem => h.typed item (List.mem_of_mem_filter hitem)
  obtain ⟨commands, hcommands⟩ := exists_forall₂_iff.mpr h.commands
  obtain ⟨changes, hchanges⟩ := exists_forall₂_iff.mpr h.fileChanges
  obtain ⟨images, himages⟩ := exists_forall₂_iff.mpr h.imageGenerations
  obtain ⟨others, hothers⟩ := exists_forall₂_iff.mpr hother
  exact ⟨⟨turnId, commands, changes, images, others⟩, added_empty_iff.mp
    ⟨rfl, appended_from_nil.mpr hcommands, appended_from_nil.mpr hchanges,
      appended_from_nil.mpr himages, appended_from_nil.mpr hothers⟩⟩

/-- Items apart from each other, with a partition, are sound. -/
theorem itemsSound_iff (turnId : String) {items : List Json} :
    (NamedApart [] items ∧ ∃ audit, Partitioned turnId items audit) ↔ ItemsSound items := by
  constructor
  · rintro ⟨hnamed, audit, haudit⟩
    exact ⟨hnamed.typed, hnamed.named, hnamed.distinct,
      exists_forall₂_iff.mp ⟨_, haudit.commands⟩, exists_forall₂_iff.mp ⟨_, haudit.fileChanges⟩,
      exists_forall₂_iff.mp ⟨_, haudit.imageGenerations⟩⟩
  · intro h
    exact ⟨⟨h.typed, h.named, h.distinct, by simp⟩, h.exists_partitioned turnId⟩

/-- The audit answers with the partition of the items of an auditable turn. -/
theorem turnAudit_eq_ok_iff {response : Json} {threadId turnId : String} {audit : TurnAudit} :
    turnAudit response threadId turnId = .ok audit ↔
      ∃ items, Auditable response threadId turnId items ∧ Partitioned turnId items audit := by
  rw [turnAudit_ok_iff]
  constructor
  · rintro ⟨thread, turns, turnIndex, turn, items, hthread, hid, hturns, hfind, hrefusal, hitems,
      haudit⟩
    obtain ⟨hnames, hone⟩ := findTargetTurn_none_iff.mp ⟨turnIndex, hfind⟩
    obtain ⟨hstatus, hview⟩ := targetTurnRefusal_none_iff.mp hrefusal
    obtain ⟨hnamed, hadded⟩ := auditItems_ok_iff.mp haudit
    have hpartition := added_empty_iff.mp hadded
    exact ⟨items, ⟨⟨thread, turns, turn, hthread, hid, hturns, hnames, hone,
      ⟨hstatus, hview, hitems⟩⟩, (itemsSound_iff turnId).mp ⟨hnamed, audit, hpartition⟩⟩, hpartition⟩
  · rintro ⟨items, ⟨⟨thread, turns, turn, hthread, hid, hturns, hnames, hone, hturn⟩, hsound⟩,
      hpartition⟩
    have hfound : ∃ turnIndex, findTargetTurn turnId 0 turns none = .ok (some (turnIndex, turn)) :=
      findTargetTurn_none_iff.mpr ⟨hnames, hone⟩
    obtain ⟨turnIndex, hfind⟩ := hfound
    refine ⟨thread, turns, turnIndex, turn, items, hthread, hid, hturns, hfind,
      targetTurnRefusal_none_iff.mpr ⟨hturn.status, hturn.full⟩, hturn.items, ?_⟩
    exact auditItems_ok_iff.mpr ⟨((itemsSound_iff turnId).mpr hsound).1,
      added_empty_iff.mpr hpartition⟩

/-- **The audit of a turn is exact**: it answers exactly for an auditable turn, and its
answer is the turn's items, partitioned by type in their order. -/
theorem turn_audit_exact (response : Json) (threadId turnId : String) :
    ((∃ audit, turnAudit response threadId turnId = .ok audit) ↔
      ∃ items, Auditable response threadId turnId items) ∧
    ∀ audit, turnAudit response threadId turnId = .ok audit ↔
      ∃ items, Auditable response threadId turnId items ∧ Partitioned turnId items audit := by
  refine ⟨?_, fun audit => turnAudit_eq_ok_iff⟩
  constructor
  · rintro ⟨audit, h⟩
    obtain ⟨items, hauditable, _⟩ := turnAudit_eq_ok_iff.mp h
    exact ⟨items, hauditable⟩
  · rintro ⟨items, hauditable⟩
    obtain ⟨audit, haudit⟩ := hauditable.sound.exists_partitioned turnId
    exact ⟨audit, turnAudit_eq_ok_iff.mpr ⟨items, hauditable, haudit⟩⟩

end Vergerail
