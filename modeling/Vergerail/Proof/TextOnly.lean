import Vergerail.Bin.IfscTextProvider

/-!
# What a text-only success says about its turns

The provider looks at a turn twice: at its live events, and at the persisted items once
it completed. Each look leaves violations on record, and a program is handed out only
when there are none. So a success says exactly as much as the two looks see, and the
second one does not see everything: the audit sorts the items into four lists, and the
provider reads three of them. An `imageGeneration` item goes into the fourth, and the
images of the run result are not read either.

The raw history stands beside the code's reading of it: `persistedItems` are the items
in the answer itself, whatever list the audit puts them in.
-/

namespace Vergerail

namespace IfscTextProvider

/-! ## The boundary, in terms of what the session answered -/

/-- The live events that are no effect. -/
inductive TextOnlyEvent : Event → Prop
  | started : TextOnlyEvent .started
  | textDelta (delta : String) : TextOnlyEvent (.textDelta delta)
  | usageUpdated (usage : Usage) : TextOnlyEvent (.usageUpdated usage)
  | unknown {method : String}
      (h : method ∈ ["thread/status/changed", "item/started", "item/completed",
        "turn/diff/updated"]) : TextOnlyEvent (.unknown method)

/-- The stream shows no effect up to the terminal that carries `result`. -/
inductive TextOnlyLive : List (Result Event) → RunResult → Prop
  | completed (result : RunResult) (rest : List (Result Event)) :
      TextOnlyLive (.ok (.completed result) :: rest) result
  | event {event : Event} {events : List (Result Event)} {result : RunResult} :
      TextOnlyEvent event → TextOnlyLive events result → TextOnlyLive (.ok event :: events) result

/-- The item types that are no effect. -/
def TextOnlyItem (itemType : String) : Prop :=
  itemType ∈ ["userMessage", "hookPrompt", "agentMessage", "plan", "reasoning",
    "contextCompaction"]

/-- The turns of a `thread/read` answer. -/
def persistedTurns (response : Json) : List Json :=
  (((response.get "thread").bind (·.get "turns")).bind Json.asArray).getD []

/-- The items of one persisted turn. -/
def itemsOf (turn : Json) : List Json := ((turn.get "items").bind Json.asArray).getD []

/-- The items a `thread/read` answer holds for a turn. -/
def persistedItems (response : Json) (turnId : String) : List Json :=
  ((persistedTurns response).filter (fun turn => turn.name "id" = some turnId)).flatMap itemsOf

/-- Every persisted item of the turn has a type that `P` allows. -/
def ItemsAre (P : String → Prop) (response : Json) (turnId : String) : Prop :=
  ∀ item ∈ persistedItems response turnId, ∃ itemType, item.name "type" = some itemType ∧ P itemType

/-- The turn stayed inside the text-only boundary. -/
def TextOnlyTurn (turn : TurnAnswers) : Prop :=
  ∃ result response, TextOnlyLive turn.events result ∧ result.imageGenerations = [] ∧
    turn.read = .ok response ∧ ItemsAre TextOnlyItem response result.turnId

/-- Nothing but a generated image can speak against the turn. -/
structure TextOrImageTurn (threadId : String) (turn : TurnAnswers) (result : RunResult) :
    Prop where
  started : turn.start = .ok ()
  live : TextOnlyLive turn.events result
  named : trimIsEmpty result.turnId = false
  /-- The persisted turn can be decoded. -/
  audited : ∃ response, turn.read = .ok response ∧
    (∃ audit, turnAudit response threadId result.turnId = .ok audit) ∧
    ItemsAre (fun itemType => TextOnlyItem itemType ∨ itemType = "imageGeneration") response
      result.turnId

/-- No generated image, neither in the run result nor in the persisted turn. -/
def NoImage (turn : TurnAnswers) (result : RunResult) : Prop :=
  result.imageGenerations = [] ∧ ∀ response, turn.read = .ok response →
    ∀ item ∈ persistedItems response result.turnId, item.name "type" ≠ some "imageGeneration"

/-- The turns of a request whose turns can only be faulted for an image: each but the
last answers a program that is refused, the last one a program that is accepted. -/
inductive Accepting (env : ProviderEnv) (session : Nat → String → TurnAnswers) :
    Nat → Nat → String → List (TurnAnswers × RunResult) → Prop
  | last {remaining attempt : Nat} {prompt : String} {result : RunResult} {program : Json} :
      TextOrImageTurn env.threadId (session attempt prompt) result →
      result.status = .completed → candidate env result.text = .ok program →
      Accepting env session (remaining + 1) attempt prompt [(session attempt prompt, result)]
  | again {remaining attempt : Nat} {prompt : String} {result : RunResult}
      {failure : ProviderFailure} {turns : List (TurnAnswers × RunResult)} :
      TextOrImageTurn env.threadId (session attempt prompt) result →
      result.status = .completed → candidate env result.text = .error failure →
      attempt + 1 < maxModelAttempts →
      Accepting env session remaining (attempt + 1) (correctionPrompt failure) turns →
      Accepting env session (remaining + 1) attempt prompt
        ((session attempt prompt, result) :: turns)

/-! ## The record of violations -/

theorem recordViolation_ne_nil (violations : List String) (evidence : String) :
    recordViolation violations evidence ≠ [] := by
  unfold recordViolation
  split
  · simp
  · rename_i h
    rintro rfl
    simp at h

theorem liveViolation_none_iff {event : Event} :
    liveViolation event = none ↔ TextOnlyEvent event := by
  constructor
  · intro h
    rcases event with _ | _ | _ | _ | _ | _ | _ | _ | _ | method | _ | _ <;>
      simp only [liveViolation, reduceCtorEq] at h
    · exact .started
    · exact .textDelta _
    · exact .usageUpdated _
    · refine .unknown ?_
      by_cases hm : allowedUnknown method
      · simpa [allowedUnknown] using hm
      · simp [hm] at h
  · intro h
    rcases h with _ | _ | _ | hm
    · rfl
    · rfl
    · rfl
    · simp only [liveViolation, ite_eq_left_iff]
      intro hn
      exact absurd (by simpa [allowedUnknown] using hm) hn

/-- Recording leaves the record empty only when there was nothing to record. -/
theorem recordLive_eq_nil {violations : List String} {event : Event} :
    recordLive violations event = [] ↔ violations = [] ∧ TextOnlyEvent event := by
  rw [← liveViolation_none_iff]
  unfold recordLive
  cases h : liveViolation event with
  | none => simp
  | some evidence => simp [recordViolation_ne_nil]

/-- The loop ends with an empty record exactly when the stream shows no effect. -/
theorem watch_nil_iff (deny : ApprovalEvent → Result Unit) (events : List (Result Event))
    (violations : List String) (result : RunResult) :
    watch deny events violations = .ok (result, []) ↔
      violations = [] ∧ TextOnlyLive events result := by
  fun_induction watch deny events violations with
  | case1 violations =>
    refine ⟨fun h => by simp at h, ?_⟩
    rintro ⟨-, h⟩
    cases h
  | case2 violations error events =>
    refine ⟨fun h => by simp at h, ?_⟩
    rintro ⟨-, h⟩
    cases h
  | case3 events violations result' =>
    constructor
    · intro h
      simp only [Except.ok.injEq, Prod.mk.injEq] at h
      obtain ⟨rfl, rfl⟩ := h
      exact ⟨rfl, .completed _ _⟩
    · rintro ⟨rfl, h⟩
      cases h with
      | completed => rfl
      | event he _ => cases he
  | case4 events violations error =>
    refine ⟨fun h => by simp at h, ?_⟩
    rintro ⟨-, h⟩
    cases h with
    | event he _ => cases he
  | case5 events violations request error hdeny =>
    refine ⟨fun h => by simp at h, ?_⟩
    rintro ⟨-, h⟩
    cases h with
    | event he _ => cases he
  | case6 events violations request _ hdeny ih =>
    rw [ih, recordLive_eq_nil]
    constructor
    · rintro ⟨⟨-, he⟩, -⟩
      cases he
    · rintro ⟨-, h⟩
      cases h with
      | event he _ => cases he
  | case7 events violations event hcompleted hfailed happroval ih =>
    rw [ih, recordLive_eq_nil]
    constructor
    · rintro ⟨⟨hv, he⟩, hlive⟩
      exact ⟨hv, .event he hlive⟩
    · rintro ⟨hv, h⟩
      cases h with
      | completed => exact absurd rfl (hcompleted _)
      | event he hlive => exact ⟨⟨hv, he⟩, hlive⟩

/-! ## The audit against the raw history -/

/-- The three item types the audit keeps a list of their own for. -/
def Sorted (itemType : String) : Prop :=
  itemType = "commandExecution" ∨ itemType = "fileChange" ∨ itemType = "imageGeneration"

/-- What one item adds to the lists the provider reads. -/
theorem push_ok {audit audit' : TurnAudit} {itemType : String} {item : Json}
    (h : audit.push itemType item = .ok audit') :
    audit'.turnId = audit.turnId ∧
      (audit'.commands = [] ↔ audit.commands = [] ∧ itemType ≠ "commandExecution") ∧
      (audit'.fileChanges = [] ↔ audit.fileChanges = [] ∧ itemType ≠ "fileChange") ∧
      (∀ t, t ∈ audit'.otherItemTypes ↔
        t ∈ audit.otherItemTypes ∨ t = itemType ∧ ¬ Sorted itemType) := by
  unfold TurnAudit.push at h
  split at h
  · cases hc : commandFromItem item with
    | error error => rw [hc] at h; simp [bind, Except.bind] at h
    | ok summary =>
      rw [hc] at h
      simp only [bind, Except.bind, pure, Except.pure, Except.ok.injEq] at h
      subst h
      simp [Sorted]
  · cases hc : fileChangeFromItem item with
    | error error => rw [hc] at h; simp [bind, Except.bind] at h
    | ok summary =>
      rw [hc] at h
      simp only [bind, Except.bind, pure, Except.pure, Except.ok.injEq] at h
      subst h
      simp [Sorted]
  · cases hc : imageGenerationFromItem item with
    | error error => rw [hc] at h; simp [bind, Except.bind] at h
    | ok summary =>
      rw [hc] at h
      simp only [bind, Except.bind, pure, Except.pure, Except.ok.injEq] at h
      subst h
      simp [Sorted]
  · rename_i hcommand hfile himage
    simp only [Except.ok.injEq] at h
    subst h
    have hcommand : itemType ≠ "commandExecution" := hcommand
    have hfile : itemType ≠ "fileChange" := hfile
    have himage : itemType ≠ "imageGeneration" := himage
    simp [Sorted, hcommand, hfile, himage]

/-- The audit is tied to the raw items: every item has a type, and the lists the
provider reads are empty, or hold allowed types only, exactly when the items say so. -/
structure Audited (items : List Json) (before after : TurnAudit) : Prop where
  turnId : after.turnId = before.turnId
  typed : ∀ item ∈ items, ∃ itemType, item.name "type" = some itemType
  commands : after.commands = [] ↔
    before.commands = [] ∧ ∀ item ∈ items, item.name "type" ≠ some "commandExecution"
  fileChanges : after.fileChanges = [] ↔
    before.fileChanges = [] ∧ ∀ item ∈ items, item.name "type" ≠ some "fileChange"
  others : ∀ t, t ∈ after.otherItemTypes ↔
    t ∈ before.otherItemTypes ∨ ∃ item ∈ items, item.name "type" = some t ∧ ¬ Sorted t

theorem auditItems_ok {target : String} {turnIndex : Nat} {items : List Json} :
    ∀ {itemIndex : Nat} {itemIds : List String} {before after : TurnAudit},
      auditItems target turnIndex itemIndex items itemIds before = .ok after →
      Audited items before after := by
  induction items with
  | nil =>
    intro itemIndex itemIds before after h
    simp only [auditItems, Except.ok.injEq] at h
    subst h
    exact ⟨rfl, by simp, by simp, by simp, by simp⟩
  | cons item items ih =>
    intro itemIndex itemIds before after h
    unfold auditItems at h
    split at h
    · cases h
    · rename_i itemType htype
      split at h
      · cases h
      · split at h
        · cases h
        · split at h
          · cases h
          · rename_i pushed hpush
            obtain ⟨hid, hcommands, hfiles, hothers⟩ := push_ok hpush
            have hrest := ih h
            refine ⟨hrest.turnId.trans hid, ?_, ?_, ?_, ?_⟩
            · intro other hother
              rcases List.mem_cons.mp hother with rfl | hother
              · exact ⟨itemType, htype⟩
              · exact hrest.typed other hother
            · rw [hrest.commands, hcommands]
              simp only [List.forall_mem_cons, htype, ne_eq, Option.some.injEq]
              tauto
            · rw [hrest.fileChanges, hfiles]
              simp only [List.forall_mem_cons, htype, ne_eq, Option.some.injEq]
              tauto
            · intro t
              rw [hrest.others, hothers]
              simp only [List.exists_mem_cons_iff, htype, Option.some.injEq]
              constructor
              · rintro ((hb | ⟨rfl, hs⟩) | ho)
                · exact .inl hb
                · exact .inr (.inl ⟨rfl, hs⟩)
                · exact .inr (.inr ho)
              · rintro (hb | ⟨rfl, hs⟩ | ho)
                · exact .inl (.inl hb)
                · exact .inl (.inr ⟨rfl, hs⟩)
                · exact .inr ho

/-- The turn the loop finds is the only one with the target's id. -/
theorem findTargetTurn_ok {target : String} {turns : List Json} :
    ∀ {index : Nat} {found : Option (Nat × Json)} {turnIndex : Nat} {turn : Json},
      findTargetTurn target index turns found = .ok (some (turnIndex, turn)) →
      (found.map Prod.snd).toList ++ turns.filter (fun turn => turn.name "id" = some target)
        = [turn] := by
  induction turns with
  | nil =>
    intro index found turnIndex turn h
    simp only [findTargetTurn, Except.ok.injEq] at h
    subst h
    rfl
  | cons head turns ih =>
    intro index found turnIndex turn h
    unfold findTargetTurn at h
    split at h
    · cases h
    · rename_i turnId hid
      split at h
      · rename_i heq
        split at h
        · cases h
        · rename_i hfound
          have hnone : found = none := by simpa using hfound
          have hrest := ih h
          rw [List.filter_cons_of_pos (by simp [hid, heq])]
          subst hnone
          exact hrest
      · rename_i hne
        rw [List.filter_cons_of_neg (by simpa [hid] using hne)]
        exact ih h

/-- A decoded audit speaks about the raw items of its turn. -/
theorem turnAudit_ok {response : Json} {threadId turnId : String} {audit : TurnAudit}
    (h : turnAudit response threadId turnId = .ok audit) :
    Audited (persistedItems response turnId) (.empty turnId) audit := by
  unfold turnAudit at h
  split at h
  · cases h
  · rename_i thread hthread
    split at h
    · cases h
    · split at h
      · cases h
      · split at h
        · cases h
        · rename_i turns hturns
          split at h
          · cases h
          · cases h
          · rename_i turnIndex turn hfind
            split at h
            · cases h
            · split at h
              · cases h
              · rename_i items hitems
                have hone : turns.filter (fun turn => turn.name "id" = some turnId) = [turn] :=
                  findTargetTurn_ok hfind
                have hpersisted : persistedTurns response = turns := by
                  simp [persistedTurns, hthread, hturns]
                have hraw : persistedItems response turnId = items := by
                  rw [persistedItems, hpersisted, hone]
                  simp [itemsOf, hitems]
                rw [hraw]
                exact auditItems_ok h

/-- What the provider finds wrong with an audit is what the raw items show, images apart. -/
theorem auditViolations_nil_iff {audit : TurnAudit} {items : List Json} {turnId : String}
    (h : Audited items (.empty turnId) audit) (violations : List String) :
    auditViolations audit turnId violations = [] ↔ violations = [] ∧
      ∀ item ∈ items, ∃ itemType, item.name "type" = some itemType ∧
        (TextOnlyItem itemType ∨ itemType = "imageGeneration") := by
  have hfold : ∀ (types : List String) (record : List String),
      types.foldl (fun record itemType => if allowedItemType itemType then record
        else recordViolation record ("history-item:" ++ itemType)) record = [] ↔
      record = [] ∧ ∀ t ∈ types, allowedItemType t := by
    intro types
    induction types with
    | nil => simp
    | cons t types ih =>
      intro record
      rw [List.foldl_cons, ih]
      by_cases ht : allowedItemType t
      · simp [ht]
      · simp [ht, recordViolation_ne_nil]
  have hturn : audit.turnId = turnId := h.turnId
  have hcommands : audit.commands = [] ↔
      ∀ item ∈ items, item.name "type" ≠ some "commandExecution" := by
    simpa [TurnAudit.empty] using h.commands
  have hfiles : audit.fileChanges = [] ↔
      ∀ item ∈ items, item.name "type" ≠ some "fileChange" := by
    simpa [TurnAudit.empty] using h.fileChanges
  have hothers : ∀ t, t ∈ audit.otherItemTypes ↔
      ∃ item ∈ items, item.name "type" = some t ∧ ¬ Sorted t := by
    simpa [TurnAudit.empty] using h.others
  have hstep : auditViolations audit turnId violations = [] ↔ violations = [] ∧
      audit.commands = [] ∧ audit.fileChanges = [] ∧ ∀ t ∈ audit.otherItemTypes,
        allowedItemType t := by
    unfold auditViolations
    rw [hfold]
    by_cases hc : audit.commands = [] <;> by_cases hf : audit.fileChanges = [] <;>
      simp [hturn, hc, hf, recordViolation_ne_nil]
  rw [hstep, hcommands, hfiles]
  refine and_congr_right fun _ => ⟨?_, ?_⟩
  · rintro ⟨hcommand, hfile, hother⟩ item hitem
    obtain ⟨itemType, htype⟩ := h.typed item hitem
    refine ⟨itemType, htype, ?_⟩
    by_cases hsorted : Sorted itemType
    · rcases hsorted with rfl | rfl | rfl
      · exact absurd htype (hcommand item hitem)
      · exact absurd htype (hfile item hitem)
      · exact .inr rfl
    · have hallowed := hother itemType ((hothers itemType).mpr ⟨item, hitem, htype, hsorted⟩)
      exact .inl (by simpa [allowedItemType, TextOnlyItem] using hallowed)
  · intro hall
    have hnot : ∀ {item : Json} {t : String}, item ∈ items → item.name "type" = some t →
        ¬ TextOnlyItem t → t = "imageGeneration" := by
      intro item t hitem htype hno
      obtain ⟨itemType, htype', hkind⟩ := hall item hitem
      rw [htype] at htype'
      obtain rfl := Option.some.inj htype'
      exact hkind.resolve_left hno
    refine ⟨fun item hitem htype => ?_, fun item hitem htype => ?_, fun t ht => ?_⟩
    · exact absurd (hnot hitem htype (by simp [TextOnlyItem])) (by decide)
    · exact absurd (hnot hitem htype (by simp [TextOnlyItem])) (by decide)
    · obtain ⟨item, hitem, htype, hsorted⟩ := (hothers t).mp ht
      by_cases htext : TextOnlyItem t
      · simpa [allowedItemType, TextOnlyItem] using htext
      · exact absurd (.inr (.inr (hnot hitem htype htext))) hsorted

/-! ## One turn -/

/-- A turn leaves no violation exactly when only an image can speak against it. -/
theorem runAuditedTurn_nil_iff {threadId : String} {turn : TurnAnswers} {result : RunResult} :
    runAuditedTurn threadId turn = .ok (result, []) ↔ TextOrImageTurn threadId turn result := by
  constructor
  · intro h
    unfold runAuditedTurn at h
    split at h
    · cases h
    · rename_i hstart
      split at h
      · cases h
      · rename_i watched violations hwatch
        split at h
        · cases h
        · rename_i audit haudit
          simp only [Except.ok.injEq, Prod.mk.injEq] at h
          obtain ⟨rfl, hnil⟩ := h
          unfold auditTurn at haudit
          split at haudit
          · cases haudit
          · rename_i hnamed
            split at haudit
            · cases haudit
            · rename_i response hread
              obtain ⟨rfl, hitems⟩ :=
                (auditViolations_nil_iff (turnAudit_ok haudit) violations).mp hnil
              have hlive := ((watch_nil_iff turn.deny turn.events [] watched).mp hwatch).2
              exact ⟨hstart, hlive, by simpa using hnamed, response, hread, ⟨audit, haudit⟩, hitems⟩
  · rintro ⟨hstart, hlive, hnamed, response, hread, ⟨audit, haudit⟩, hitems⟩
    have hwatch := (watch_nil_iff turn.deny turn.events [] result).mpr ⟨rfl, hlive⟩
    have hnil := (auditViolations_nil_iff (turnAudit_ok haudit) []).mpr ⟨rfl, hitems⟩
    simp [runAuditedTurn, hstart, hwatch, auditTurn, hnamed, hread, haudit, hnil]

/-- An image is the only thing the provider does not look at. -/
theorem TextOrImageTurn.textOnly_iff {threadId : String} {turn : TurnAnswers}
    {result : RunResult} (h : TextOrImageTurn threadId turn result) :
    TextOnlyTurn turn ↔ NoImage turn result := by
  have hunique : ∀ {events : List (Result Event)} {a b : RunResult},
      TextOnlyLive events a → TextOnlyLive events b → a = b := by
    intro events a b ha
    induction ha with
    | completed result rest =>
      intro hb
      cases hb with
      | completed => rfl
      | event he _ => cases he
    | event he _ ih =>
      intro hb
      cases hb with
      | completed => cases he
      | event _ hb => exact ih hb
  obtain ⟨response, hread, -, hitems⟩ := h.audited
  constructor
  · rintro ⟨result', response', hlive, hnone, hread', htext⟩
    obtain rfl := hunique h.live hlive
    refine ⟨hnone, fun other hother item hitem htype => ?_⟩
    rw [hread'] at hother
    obtain rfl := Except.ok.inj hother
    obtain ⟨itemType, htype', hkind⟩ := htext item hitem
    rw [htype] at htype'
    obtain rfl := Option.some.inj htype'
    simp [TextOnlyItem] at hkind
  · rintro ⟨hnone, himage⟩
    refine ⟨result, response, h.live, hnone, hread, fun item hitem => ?_⟩
    obtain ⟨itemType, htype, hkind⟩ := hitems item hitem
    refine ⟨itemType, htype, hkind.resolve_right ?_⟩
    rintro rfl
    exact himage response hread item hitem htype

/-! ## The attempt loop -/

variable {env : ProviderEnv} {session : Nat → String → TurnAnswers}

/-- A pass hands out a program exactly when the turn and its program are accepted. -/
theorem attemptTurn_ok_iff {attempt : Nat} {turn : TurnAnswers} :
    (∃ envelope, attemptTurn env attempt turn = .done (.ok envelope)) ↔
      ∃ result program, TextOrImageTurn env.threadId turn result ∧ result.status = .completed ∧
        candidate env result.text = .ok program := by
  constructor
  · rintro ⟨envelope, h⟩
    unfold attemptTurn at h
    split at h
    · simp at h
    · rename_i result violations hrun
      by_cases hnil : violations = []
      · subst hnil
        by_cases hstatus : result.status = .completed
        · cases hcandidate : candidate env result.text with
          | ok program =>
            exact ⟨result, program, runAuditedTurn_nil_iff.mp hrun, hstatus, hcandidate⟩
          | error failure =>
            simp only [List.isEmpty_nil, Bool.not_true, Bool.false_eq_true, if_false, ne_eq,
              hstatus, not_true_eq_false, hcandidate] at h
            split at h <;> simp at h
        · simp [hstatus] at h
      · simp [hnil] at h
  · rintro ⟨result, program, hturn, hstatus, hcandidate⟩
    have hrun := runAuditedTurn_nil_iff.mpr hturn
    simp [attemptTurn, hrun, hstatus, hcandidate]

/-- A pass asks for a correction exactly when the turn is accepted and its program is not. -/
theorem attemptTurn_again_iff {attempt : Nat} {turn : TurnAnswers} {prompt : String} :
    attemptTurn env attempt turn = .again prompt ↔
      ∃ result failure, TextOrImageTurn env.threadId turn result ∧ result.status = .completed ∧
        candidate env result.text = .error failure ∧ attempt + 1 < maxModelAttempts ∧
        prompt = correctionPrompt failure := by
  constructor
  · intro h
    unfold attemptTurn at h
    split at h
    · simp at h
    · rename_i result violations hrun
      by_cases hnil : violations = []
      · subst hnil
        by_cases hstatus : result.status = .completed
        · cases hcandidate : candidate env result.text with
          | ok program => simp [hstatus, hcandidate] at h
          | error failure =>
            by_cases hmore : attempt + 1 < maxModelAttempts
            · simp only [List.isEmpty_nil, Bool.not_true, Bool.false_eq_true, if_false, ne_eq,
                hstatus, not_true_eq_false, hcandidate, hmore, if_true, Attempt.again.injEq] at h
              exact ⟨result, failure, runAuditedTurn_nil_iff.mp hrun, hstatus, hcandidate, hmore,
                h.symm⟩
            · simp [hstatus, hcandidate, hmore] at h
        · simp [hstatus] at h
      · simp [hnil] at h
  · rintro ⟨result, failure, hturn, hstatus, hcandidate, hmore, rfl⟩
    have hrun := runAuditedTurn_nil_iff.mpr hturn
    simp [attemptTurn, hrun, hstatus, hcandidate, hmore]

/-- Accepted turns are the turns of a success, in order. -/
theorem Accepting.attempts {remaining attempt : Nat} {prompt : String}
    {turns : List (TurnAnswers × RunResult)}
    (h : Accepting env session remaining attempt prompt turns) :
    (∃ envelope, attempts env session remaining attempt prompt = .ok envelope) ∧
      attemptedTurns env session remaining attempt prompt = turns.map Prod.fst ∧
      ∀ p ∈ turns, TextOrImageTurn env.threadId p.1 p.2 := by
  induction h with
  | @last remaining attempt prompt result program hturn hstatus hcandidate =>
    have hturn' : ∃ envelope,
        attemptTurn env attempt (session attempt prompt) = .done (.ok envelope) :=
      attemptTurn_ok_iff.mpr ⟨result, program, hturn, hstatus, hcandidate⟩
    obtain ⟨envelope, hdone⟩ := hturn'
    refine ⟨⟨envelope, ?_⟩, ?_, ?_⟩
    · simp [IfscTextProvider.attempts, hdone]
    · simp [attemptedTurns, hdone]
    · intro p hp
      obtain rfl := List.mem_singleton.mp hp
      exact hturn
  | @again remaining attempt prompt result failure turns hturn hstatus hcandidate hmore _ ih =>
    have hagain := attemptTurn_again_iff.mpr ⟨result, failure, hturn, hstatus, hcandidate, hmore, rfl⟩
    obtain ⟨⟨envelope, hok⟩, hruns, hall⟩ := ih
    refine ⟨⟨envelope, ?_⟩, ?_, ?_⟩
    · simp [IfscTextProvider.attempts, hagain, hok]
    · simp [attemptedTurns, hagain, hruns]
    · intro p hp
      rcases List.mem_cons.mp hp with rfl | hp
      · exact hturn
      · exact hall p hp

/-- The turns of a success are accepted turns. -/
theorem accepting_of_attempts {remaining : Nat} :
    ∀ {attempt : Nat} {prompt : String} {envelope : SuccessEnvelope},
      attempts env session remaining attempt prompt = .ok envelope →
      ∃ turns, Accepting env session remaining attempt prompt turns := by
  induction remaining with
  | zero =>
    intro attempt prompt envelope h
    simp [attempts] at h
  | succ remaining ih =>
    intro attempt prompt envelope h
    unfold attempts at h
    split at h
    · rename_i result hdone
      subst h
      obtain ⟨result, program, hturn, hstatus, hcandidate⟩ := attemptTurn_ok_iff.mp ⟨envelope, hdone⟩
      exact ⟨_, .last hturn hstatus hcandidate⟩
    · rename_i next hagain
      obtain ⟨result, failure, hturn, hstatus, hcandidate, hmore, rfl⟩ :=
        attemptTurn_again_iff.mp hagain
      obtain ⟨turns, hturns⟩ := ih h
      exact ⟨_, .again hturn hstatus hcandidate hmore hturns⟩

/-- **The text-only boundary holds exactly when no image passes with accepted turns.** -/
theorem text_only_boundary_iff (env : ProviderEnv) (session : Nat → String → TurnAnswers)
    (prompt : String) :
    (∀ envelope, generateValidatedProgram env session prompt = .ok envelope →
      ∀ turn ∈ turnsRun env session prompt, TextOnlyTurn turn) ↔
    ∀ turns, Accepting env session maxModelAttempts 0 prompt turns →
      ∀ p ∈ turns, NoImage p.1 p.2 := by
  constructor
  · intro h turns hturns p hp
    obtain ⟨⟨envelope, hok⟩, hruns, hall⟩ := hturns.attempts
    have hmem : p.1 ∈ turnsRun env session prompt := by
      rw [turnsRun, hruns]
      exact List.mem_map_of_mem hp
    exact (hall p hp).textOnly_iff.mp (h envelope hok p.1 hmem)
  · intro h envelope hok turn hturn
    obtain ⟨turns, hturns⟩ := accepting_of_attempts hok
    obtain ⟨-, hruns, hall⟩ := hturns.attempts
    rw [turnsRun, hruns] at hturn
    obtain ⟨p, hp, rfl⟩ := List.mem_map.mp hturn
    exact (hall p hp).textOnly_iff.mpr (h turns hturns p hp)

/-- A first turn that hands out a program is the only one. -/
theorem first_attempt_done {turn : TurnAnswers} {prompt : String} {envelope : SuccessEnvelope}
    (h : attemptTurn env 0 turn = .done (.ok envelope)) :
    generateValidatedProgram env (fun _ _ => turn) prompt = .ok envelope ∧
      turnsRun env (fun _ _ => turn) prompt = [turn] := by
  constructor
  · rw [generateValidatedProgram, maxModelAttempts, attempts, h]
  · rw [turnsRun, maxModelAttempts, attemptedTurns, h]

/-! ## An image in the persisted turn -/

/-- A response whose program the validator accepts, as a model writes it. -/
def homeScreen : String :=
  "\x7b\"schemaVersion\":1,\"screenId\":\"screen.home\",\"route\":\"/candidate/screen.home/default\"," ++
  "\"language\":\"en\",\"viewport\":\x7b\"width\":1440,\"height\":1024,\"deviceScaleFactor\":1\x7d," ++
  "\"initialState\":\"default\",\"fitViewport\":true,\"nodes\":[\x7b\"id\":\"hero\",\"tag\":\"main\"," ++
  "\"bounds\":\x7b\"x\":0,\"y\":0,\"width\":1440,\"height\":1024\x7d\x7d],\"behavior\":\x7b\"actions\":[]\x7d\x7d"

/-- The program in `homeScreen`. -/
def homeProgram : Json :=
  .object [("behavior", .object [("actions", .array [])]), ("fitViewport", .bool true),
    ("initialState", .string "default"), ("language", .string "en"),
    ("nodes", .array [.object [("bounds", .object [("height", .number "1024"),
      ("width", .number "1440"), ("x", .number "0"), ("y", .number "0")]),
      ("id", .string "hero"), ("tag", .string "main")]]),
    ("route", .string "/candidate/screen.home/default"), ("schemaVersion", .number "1"),
    ("screenId", .string "screen.home"),
    ("viewport", .object [("deviceScaleFactor", .number "1"), ("height", .number "1024"),
      ("width", .number "1440")])]

/-- A request for `screen.home` without required sections, on a model that answers
`homeScreen`. -/
def homeEnv : ProviderEnv where
  threadId := "thread"
  idempotencyKey := "test-request-0001"
  fromStr text := if text = homeScreen then some homeProgram else none
  validateProgram _ := .ok ()

/-- A persisted turn with an answer and a generated image. -/
def imageHistory : Json :=
  .object [("thread", .object [("id", .string "thread"), ("turns", .array [
    .object [("id", .string "turn"), ("status", .string "completed"), ("items", .array [
      .object [("type", .string "agentMessage"), ("id", .string "item-1")],
      .object [("type", .string "imageGeneration"), ("id", .string "item-2"),
        ("status", .string "completed"), ("result", .string "")]])]])])]

/-- A turn that shows nothing live and has `imageHistory`. -/
def imageTurn : TurnAnswers where
  start := .ok ()
  events := [.ok .started, .ok (.completed {
    threadId := "thread", turnId := "turn", text := homeScreen, status := .completed,
    usage := none, imageGenerations := [] })]
  deny _ := .ok ()
  read := .ok imageHistory

/-- A text without white space at its ends is not trimmed. -/
theorem trim_of_ends {text : String} {first last : Char} (hfirst : text.toList.head? = some first)
    (hlast : text.toList.getLast? = some last) (hfirst' : charIsWhitespace first = false)
    (hlast' : charIsWhitespace last = false) : trim text = text := by
  have hkept : ∀ (cs : List Char) (c : Char), cs.head? = some c → charIsWhitespace c = false →
      cs.dropWhile charIsWhitespace = cs := by
    intro cs c hhead hc
    obtain ⟨tail, rfl⟩ := List.head?_eq_some_iff.mp hhead
    exact List.dropWhile_cons_of_neg (by rw [hc]; exact Bool.false_ne_true)
  rw [trim, hkept _ _ hfirst hfirst', hkept _ last (by rw [List.head?_reverse, hlast]) hlast',
    List.reverse_reverse, String.ofList_toList]

theorem head?_append {s t : String} {c : Char} (h : s.toList.head? = some c) :
    (s ++ t).toList.head? = some c := by
  rw [String.toList_append, List.head?_append, h, Option.some_or]

theorem getLast?_append {s t : String} {c : Char} (h : t.toList.getLast? = some c) :
    (s ++ t).toList.getLast? = some c := by
  rw [String.toList_append, List.getLast?_append, h, Option.some_or]

theorem homeEnv_fromStr (text : String) :
    homeEnv.fromStr text = if text = homeScreen then some homeProgram else none := rfl

/-- The model's answer is accepted. -/
theorem candidate_homeScreen : candidate homeEnv homeScreen = .ok homeProgram := by
  have htrim : trim homeScreen = homeScreen :=
    trim_of_ends (head?_append (head?_append (head?_append (c := '\x7b') (by decide +kernel))))
      (getLast?_append (c := '\x7d') (by decide +kernel)) (by decide) (by decide)
  rw [candidate, htrim, homeEnv_fromStr, if_pos rfl]
  rfl

/-- The result of `imageTurn`. -/
def imageResult : RunResult where
  threadId := "thread"
  turnId := "turn"
  text := homeScreen
  status := .completed
  usage := none
  imageGenerations := []

/-- Nothing but the image can speak against `imageTurn`. -/
theorem imageTurn_accepted : TextOrImageTurn homeEnv.threadId imageTurn imageResult := by
  have haudit : (turnAudit imageHistory "thread" "turn").toBool = true := by decide +kernel
  constructor
  · rfl
  · exact .event .started (.completed imageResult [])
  · decide +kernel
  · refine ⟨imageHistory, rfl, ?_, ?_⟩
    · cases h : turnAudit imageHistory "thread" "turn" with
      | ok audit => exact ⟨audit, h⟩
      | error error => rw [h] at haudit; cases haudit
    · simp [ItemsAre, TextOnlyItem, imageResult, persistedItems, persistedTurns, itemsOf,
        imageHistory, Json.get, Json.asArray, Json.name, Json.asNonEmptyStr, Json.asStr,
        List.lookup]

/-- The provider hands out a program for a turn that generated an image. -/
theorem image_passes_as_text :
    (∃ envelope, generateValidatedProgram homeEnv (fun _ _ => imageTurn) "prompt" = .ok envelope) ∧
      ∃ turn ∈ turnsRun homeEnv (fun _ _ => imageTurn) "prompt", ¬ TextOnlyTurn turn := by
  obtain ⟨envelope, hdone⟩ := attemptTurn_ok_iff.mpr
    ⟨imageResult, homeProgram, imageTurn_accepted, rfl, candidate_homeScreen⟩
  obtain ⟨hok, hruns⟩ := @first_attempt_done homeEnv imageTurn "prompt" envelope hdone
  refine ⟨⟨envelope, hok⟩, imageTurn, ?_, ?_⟩
  · rw [hruns]
    exact List.mem_singleton_self imageTurn
  · rintro ⟨result, response, hlive, -, hread, hitems⟩
    obtain rfl := Except.ok.inj hread
    have hturn : result.turnId = "turn" := by
      cases hlive with
      | event _ hlive =>
        cases hlive with
        | completed => rfl
        | event he _ => cases he
    rw [hturn] at hitems
    obtain ⟨itemType, htype, hkind⟩ := hitems (.object [("type", .string "imageGeneration"),
      ("id", .string "item-2"), ("status", .string "completed"), ("result", .string "")])
      (by simp [persistedItems, persistedTurns, itemsOf, imageHistory, Json.get, Json.asArray,
        Json.name, Json.asNonEmptyStr, Json.asStr, List.lookup])
    obtain rfl := Option.some.inj htype
    simp [TextOnlyItem] at hkind

end IfscTextProvider

end Vergerail
