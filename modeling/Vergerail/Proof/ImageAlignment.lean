import Vergerail.Bin.UpagentPrompt
import Vergerail.Lib.SortedMap
import Vergerail.Proof.Decimal

/-!
# Images sent and images referenced

The observations of an accepted turn are the image parts of its messages, one each. They
are staged in one order, and the prompt refers to them by their position in it. Messages
of the system and the developer are rendered by their `content` alone: an image among
their parts is staged and sent, and no entry of the prompt refers to it.

A site is an image part with its message, the place of that message in the transcript and
its own place among the parts.
-/

namespace Vergerail.UpagentPrompt

open Lib UpagentProvider

/-! ## What the prompt refers to -/

/-- An entry for an image: the message of the transcript, the part, and the entry. -/
structure Entry where
  rank : Nat
  part : Nat
  value : Json

/-- The entries among the parts of a message, from a part on. -/
def partEntries (rank : Nat) : Nat → List Json → List Entry
  | _, [] => []
  | part, value :: values =>
    if (value.get "type").bind Json.asStr = some "imageObservation" then
      { rank, part, value } :: partEntries rank (part + 1) values
    else partEntries rank (part + 1) values

/-- The entries of a message of the transcript. -/
def messageEntries (rank : Nat) (message : Json) : List Entry :=
  partEntries rank 0 (((message.get "contentParts").bind Json.asArray).getD [])

/-- The entries of a transcript, from a message on. -/
def transcriptEntries : Nat → List Json → List Entry
  | _, [] => []
  | rank, message :: messages =>
    messageEntries rank message ++ transcriptEntries (rank + 1) messages

/-- The entries of a prompt. -/
def promptEntries (envelope : Json) : List Entry :=
  transcriptEntries 0 (((envelope.get "messages").bind Json.asArray).getD [])

/-- The observation an entry names. -/
def Entry.index (entry : Entry) : Option Nat :=
  (entry.value.get "observationIndex").bind Json.asU64

/-- The entries of a prompt that name an observation. -/
def entriesNaming (envelope : Json) (index : Nat) : List Entry :=
  (promptEntries envelope).filter (fun entry => entry.index = some index)

/-- The image at a place. -/
def imageAt (messages : List ProviderMessage) (place : Nat × Nat) :
    Option ProviderImageObservation :=
  ((messages[place.1]?).bind (fun message => message.contentParts[place.2]?)).bind
    ProviderContentPart.image?

/-- How many messages of the transcript precede a message. -/
def transcriptIndex (messages : List ProviderMessage) (message : Nat) : Nat :=
  ((messages.take message).filter (fun message => !message.role.isInstruction)).length

/-- The images among the inputs of a turn, in order. -/
def localImages (inputs : List TurnInput) : List (String × Option ImageDetail) :=
  inputs.filterMap (fun input => match input with
    | .text _ => none
    | .localImage path detail => some (path, detail))

/-- **What is sent is what is referenced.** The places list the images in the order in
which they are sent. -/
structure Aligned (codecs : Codecs) (request : ProviderRequest) (turn : PreparedTurn)
    (places : List (Nat × Nat)) : Prop where
  /-- The observations are the image parts, one each. -/
  observed : (request.observations.map (·.place)).Perm places
  nodup : places.Nodup
  images : ∀ place, place ∈ places ↔ (imageAt request.messages place).isSome
  /-- One image is sent for every place, with its bytes and its detail. -/
  count : (localImages turn.inputs).length = places.length
  sent : ∀ (i : Nat) (place : Nat × Nat), places[i]? = some place → ∃ observation image bytes path,
    observation ∈ request.observations ∧ observation.place = place ∧
    imageAt request.messages place = some image ∧
    codecs.decodeBase64 observation.base64 = .ok bytes ∧
    (localImages turn.inputs)[i]? = some (path, some (imageDetail image.detail)) ∧
    turn.files.lookup path = some bytes
  /-- One entry names it, at its place and with what its part says. -/
  referenced : ∀ (i : Nat) (place : Nat × Nat) (image : ProviderImageObservation), places[i]? = some place →
    imageAt request.messages place = some image →
    entriesNaming turn.rendered.envelope i
      = [{ rank := transcriptIndex request.messages place.1
           part := place.2, value := imageEntry i image }]
  /-- No entry names anything else. -/
  only : ∀ entry ∈ promptEntries turn.rendered.envelope,
    ∃ i < places.length, entry.index = some i

/-- No message of the system or the developer has an image among its parts. -/
def NoInstructionImages (messages : List ProviderMessage) : Prop :=
  ∀ message ∈ messages, message.role.isInstruction = true →
    ∀ part ∈ message.contentParts, part.image? = none

/-! ## Sites -/

/-- An image part, and where it is. -/
structure Site where
  message : Nat
  rank : Nat
  part : Nat
  image : ProviderImageObservation

def Site.place (site : Site) : Nat × Nat := (site.message, site.part)

/-- The site of a content part, if it is an image. -/
def siteOf (message rank : Nat) (part : ProviderContentPart × Nat) : Option Site :=
  part.1.image?.map (fun image => { message, rank, part := part.2, image })

/-- The sites among the parts of a message. -/
def partSites (message rank : Nat) (contents : List ProviderContentPart) : List Site :=
  contents.zipIdx.filterMap (siteOf message rank)

/-- The rank of the message after one with a role. -/
def nextRank (role : ProviderMessageRole) (rank : Nat) : Nat :=
  if role.isInstruction then rank else rank + 1

/-- The sites of a conversation, from a message on. -/
def sitesFrom : Nat → Nat → List ProviderMessage → List Site
  | _, _, [] => []
  | index, rank, message :: messages =>
    partSites index rank message.contentParts
      ++ sitesFrom (index + 1) (nextRank message.role rank) messages

/-- The sites of the messages that are part of the transcript. -/
def renderedFrom : Nat → Nat → List ProviderMessage → List Site
  | _, _, [] => []
  | index, rank, message :: messages =>
    (if message.role.isInstruction then [] else partSites index rank message.contentParts)
      ++ renderedFrom (index + 1) (nextRank message.role rank) messages

section Sites

variable {index rank part : Nat} {messages : List ProviderMessage} {site : Site}

theorem siteOf_eq {content : ProviderContentPart × Nat} :
    siteOf index rank content = some site ↔ site.message = index ∧ site.rank = rank ∧
      site.part = content.2 ∧ content.1.image? = some site.image := by
  rw [siteOf, Option.map_eq_some_iff]
  constructor
  · rintro ⟨image, himage, rfl⟩
    exact ⟨rfl, rfl, rfl, himage⟩
  · rintro ⟨rfl, rfl, hpart, himage⟩
    exact ⟨site.image, himage, by rw [← hpart]⟩

theorem mem_partSites {contents : List ProviderContentPart} :
    site ∈ partSites index rank contents ↔ site.message = index ∧ site.rank = rank ∧
      (contents[site.part]?).bind ProviderContentPart.image? = some site.image := by
  simp only [partSites, List.mem_filterMap, siteOf_eq, List.mem_zipIdx_iff_getElem?,
    Option.bind_eq_some_iff]
  constructor
  · rintro ⟨content, hcontent, hm, hr, hpart, himage⟩
    exact ⟨hm, hr, content.1, hpart ▸ hcontent, himage⟩
  · rintro ⟨hm, hr, content, hcontent, himage⟩
    exact ⟨(content, site.part), hcontent, hm, hr, rfl, himage⟩

/-- The parts of a message are numbered upwards. -/
theorem nodup_partSites (index rank : Nat) (contents : List ProviderContentPart) :
    ((partSites index rank contents).map Site.place).Nodup := by
  have hnumbers : (contents.zipIdx.map Prod.snd).Nodup := by
    rw [List.zipIdx_map_snd]
    exact List.nodup_range'
  rw [List.Nodup, List.pairwise_map] at hnumbers
  rw [List.Nodup, List.pairwise_map, partSites, List.pairwise_filterMap]
  refine hnumbers.imp ?_
  intro a b hne site hsite site' hsite' heq
  obtain ⟨_, _, hpart, _⟩ := siteOf_eq.mp hsite
  obtain ⟨_, _, hpart', _⟩ := siteOf_eq.mp hsite'
  rw [← hpart, ← hpart'] at hne
  exact hne (congrArg Prod.snd heq)

theorem image_partSites (index rank : Nat) (contents : List ProviderContentPart) :
    (partSites index rank contents).map Site.image
      = contents.filterMap ProviderContentPart.image? := by
  have hsite : (fun content => (siteOf index rank content).map Site.image)
      = ProviderContentPart.image? ∘ Prod.fst := by
    funext content
    rw [siteOf, Option.map_map, Function.comp_apply]
    exact Option.map_id'
  rw [partSites, List.map_filterMap, hsite, ← List.filterMap_map, List.zipIdx_map_fst]

theorem transcriptIndex_succ (message : ProviderMessage) (later rank : Nat) :
    rank + transcriptIndex (message :: messages) (later + 1)
      = nextRank message.role rank + transcriptIndex messages later := by
  rw [transcriptIndex, transcriptIndex, nextRank, List.take_succ_cons, List.filter_cons]
  cases message.role.isInstruction with
  | true => rfl
  | false =>
      simp only [Bool.not_false, if_true, List.length_cons, Bool.false_eq_true, if_false]
      omega

/-- **The sites are the image parts**, with their rank. -/
theorem mem_sitesFrom : site ∈ sitesFrom index rank messages ↔ ∃ later,
    site.message = index + later ∧ site.rank = rank + transcriptIndex messages later ∧
      imageAt messages (later, site.part) = some site.image := by
  induction messages generalizing index rank with
  | nil => simp [sitesFrom, imageAt]
  | cons message messages ih =>
      rw [sitesFrom, List.mem_append, mem_partSites, ih]
      constructor
      · rintro (⟨hm, hr, himage⟩ | ⟨later, hm, hr, himage⟩)
        · exact ⟨0, hm, hr, himage⟩
        · refine ⟨later + 1, by omega, ?_, himage⟩
          rw [hr, transcriptIndex_succ]
      · rintro ⟨later, hm, hr, himage⟩
        cases later with
        | zero => exact .inl ⟨hm, hr, himage⟩
        | succ later =>
            refine .inr ⟨later, by omega, ?_, himage⟩
            rw [hr, transcriptIndex_succ]

theorem mem_place_sitesFrom (messages : List ProviderMessage) (place : Nat × Nat) :
    place ∈ (sitesFrom 0 0 messages).map Site.place ↔ (imageAt messages place).isSome := by
  rw [List.mem_map, Option.isSome_iff_exists]
  constructor
  · rintro ⟨site, hsite, rfl⟩
    obtain ⟨later, hm, _, himage⟩ := mem_sitesFrom.mp hsite
    rw [Nat.zero_add] at hm
    exact ⟨site.image, by rw [Site.place, hm]; exact himage⟩
  · rintro ⟨image, himage⟩
    exact ⟨⟨place.1, 0 + transcriptIndex messages place.1, place.2, image⟩,
      mem_sitesFrom.mpr ⟨place.1, (Nat.zero_add _).symm, rfl, himage⟩, rfl⟩

theorem nodup_sitesFrom (index rank : Nat) (messages : List ProviderMessage) :
    ((sitesFrom index rank messages).map Site.place).Nodup := by
  induction messages generalizing index rank with
  | nil => exact List.nodup_nil
  | cons message messages ih =>
      rw [sitesFrom, List.map_append]
      refine List.nodup_append.mpr ⟨nodup_partSites _ _ _, ih _ _, ?_⟩
      -- the later sites belong to later messages
      intro place hplace place' hplace' heq
      obtain ⟨site, hsite, rfl⟩ := List.mem_map.mp hplace
      obtain ⟨site', hsite', rfl⟩ := List.mem_map.mp hplace'
      have hm := (mem_partSites.mp hsite).1
      obtain ⟨later, hm', _⟩ := mem_sitesFrom.mp hsite'
      have : site.message = site'.message := congrArg Prod.fst heq
      omega

theorem image_sitesFrom (index rank : Nat) (messages : List ProviderMessage) :
    (sitesFrom index rank messages).map Site.image = imagePartsOf messages := by
  induction messages generalizing index rank with
  | nil => rfl
  | cons message messages ih =>
      rw [sitesFrom, List.map_append, image_partSites, ih, imagePartsOf, imagePartsOf,
        List.flatMap_cons, List.filterMap_append]

/-- A rendered site is a site of a message that is no instruction. -/
theorem mem_renderedFrom (h : site ∈ renderedFrom index rank messages) :
    site ∈ sitesFrom index rank messages ∧ ∃ later message,
      site.message = index + later ∧ messages[later]? = some message ∧
        message.role.isInstruction = false := by
  induction messages generalizing index rank with
  | nil => cases h
  | cons message messages ih =>
      rw [renderedFrom] at h
      rcases List.mem_append.mp h with h | h
      · cases hrole : message.role.isInstruction with
        | true => rw [hrole] at h; cases h
        | false =>
            rw [hrole, if_neg Bool.false_ne_true] at h
            exact ⟨List.mem_append_left _ h, 0, message, (mem_partSites.mp h).1, rfl, hrole⟩
      · obtain ⟨hsite, later, found, hm, hfound, hrole⟩ := ih h
        exact ⟨List.mem_append_right _ hsite, later + 1, found, by omega, hfound, hrole⟩

theorem renderedFrom_sublist (index rank : Nat) (messages : List ProviderMessage) :
    (renderedFrom index rank messages).Sublist (sitesFrom index rank messages) := by
  induction messages generalizing index rank with
  | nil => exact List.Sublist.slnil
  | cons message messages ih =>
      rw [renderedFrom, sitesFrom]
      refine List.Sublist.append ?_ (ih _ _)
      split
      · exact List.nil_sublist _
      · exact List.Sublist.refl _

/-- Without images in instructions every site is rendered. -/
theorem renderedFrom_eq (index rank : Nat) (h : NoInstructionImages messages) :
    renderedFrom index rank messages = sitesFrom index rank messages := by
  induction messages generalizing index rank with
  | nil => rfl
  | cons message messages ih =>
      rw [renderedFrom, sitesFrom,
        ih _ _ (fun later hlater => h later (List.mem_cons_of_mem _ hlater))]
      cases hrole : message.role.isInstruction with
      | false => rfl
      | true =>
          have hnone : partSites index rank message.contentParts = [] := by
            rw [← List.map_eq_nil_iff, image_partSites, List.filterMap_eq_nil_iff]
            exact h message List.mem_cons_self hrole
          rw [if_pos rfl, hnone]

end Sites

/-! ## The observations -/

section Observations

variable {codecs : Codecs} {messages : List ProviderMessage} {request : ProviderRequest}

theorem resolve_ok {observation : ProviderObservation} {image : ProviderImageObservation} :
    resolve messages observation = .ok image ↔
      imageAt messages observation.place = some image := by
  simp only [resolve, bind_ok, orFault_ok, imageAt, ProviderObservation.place,
    Option.bind_eq_some_iff]
  constructor
  · rintro ⟨message, hmessage, part, hpart, himage⟩
    exact ⟨part, ⟨message, hmessage, hpart⟩, himage⟩
  · rintro ⟨part, ⟨message, hmessage, hpart⟩, himage⟩
    exact ⟨message, hmessage, part, hpart, himage⟩

theorem decodeObservation_ok {observation : ProviderObservation} {bytes : List UInt8}
    (h : decodeObservation codecs observation = .ok bytes) :
    codecs.decodeBase64 observation.base64 = .ok bytes := by
  rw [decodeObservation] at h
  split at h
  · rename_i found hfound
    cases h
    exact hfound
  · cases h

/-- What the loop of `validate_observations` has found out. -/
structure ObservedOf (messages : List ProviderMessage) (seen : List ProviderObservation)
    (observed : Observed) : Prop where
  identities : ∀ place, place ∈ observed.identities ↔ place ∈ seen.map (·.place)
  nodup : (seen.map (·.place)).Nodup
  resolved : ∀ observation ∈ seen, (imageAt messages observation.place).isSome

theorem ObservedOf.step {seen : List ProviderObservation} {observed observed' : Observed}
    {observation : ProviderObservation} (hseen : ObservedOf messages seen observed)
    (h : validateObservation codecs messages observed observation = .ok observed') :
    ObservedOf messages (seen ++ [observation]) observed' := by
  obtain ⟨image, himage, h⟩ := bind_ok.mp h
  obtain ⟨_, hnew, h⟩ := bind_ok.mp h
  obtain ⟨_, _, h⟩ := bind_ok.mp h
  obtain ⟨_, _, h⟩ := bind_ok.mp h
  obtain ⟨_, _, h⟩ := bind_ok.mp h
  obtain ⟨_, _, h⟩ := bind_ok.mp h
  obtain ⟨_, _, h⟩ := bind_ok.mp h
  obtain ⟨_, _, h⟩ := bind_ok.mp h
  obtain ⟨_, _, h⟩ := bind_ok.mp h
  obtain ⟨_, _, h⟩ := bind_ok.mp h
  obtain ⟨_, _, h⟩ := bind_ok.mp h
  cases h
  rw [refuse_ok, decide_eq_false_iff_not, hseen.identities] at hnew
  rw [resolve_ok] at himage
  constructor
  · intro place
    rw [List.map_append, List.mem_append, List.mem_cons, hseen.identities]
    exact ⟨fun h => h.elim (fun h => .inr (List.mem_singleton.mpr h)) .inl,
      fun h => h.elim .inr (fun h => .inl (List.mem_singleton.mp h))⟩
  · rw [List.map_append]
    refine List.nodup_append.mpr ⟨hseen.nodup, List.nodup_singleton _, ?_⟩
    intro place hplace place' hplace' heq
    rw [heq, List.mem_singleton.mp hplace'] at hplace
    exact hnew hplace
  · intro found hfound
    rcases List.mem_append.mp hfound with hfound | hfound
    · exact hseen.resolved found hfound
    · rw [List.mem_singleton.mp hfound, himage]
      rfl

/-- **The observations of an accepted turn are its image parts.** -/
theorem validateObservations_ok (h : validateObservations codecs request = .ok ()) :
    (request.observations.map (·.place)).Perm
        ((sitesFrom 0 0 request.messages).map Site.place) ∧
      request.observations.length ≤ 16 := by
  obtain ⟨_, hbound, h⟩ := bind_ok.mp h
  obtain ⟨_, hcount, h⟩ := bind_ok.mp h
  obtain ⟨observed, hloop, _⟩ := bind_ok.mp h
  rw [refuse_ok, decide_eq_false_iff_not, Nat.not_lt] at hbound
  rw [refuse_ok, decide_eq_false_iff_not, not_not, ← image_sitesFrom 0 0, List.length_map]
    at hcount
  have hnone : ObservedOf request.messages [] { aggregateBytes := 0, identities := [] } :=
    { identities := fun _ => Iff.rfl
      nodup := List.nodup_nil
      resolved := fun _ h => by cases h }
  have hseen : ObservedOf request.messages request.observations observed :=
    foldlM_ok (P := ObservedOf request.messages) (fun _ _ _ _ hs hstep => hs.step hstep)
      hnone hloop
  refine ⟨?_, hbound⟩
  -- distinct places of image parts, and as many as there are image parts
  have hsub : (request.observations.map (·.place)).Subperm
      ((sitesFrom 0 0 request.messages).map Site.place) := by
    refine List.subperm_of_subset hseen.nodup ?_
    intro place hplace
    obtain ⟨observation, hobservation, rfl⟩ := List.mem_map.mp hplace
    exact (mem_place_sitesFrom _ _).mpr (hseen.resolved observation hobservation)
  refine hsub.perm_of_length_le ?_
  rw [List.length_map, List.length_map, hcount]

/-- What the second reading of an observation yields. -/
structure ReadAs (codecs : Codecs) (messages : List ProviderMessage)
    (observation : ProviderObservation) (validated : ValidatedObservation) : Prop where
  place : validated.place = observation.place
  image : ∃ image, imageAt messages observation.place = some image ∧
    validated.detail = image.detail
  bytes : codecs.decodeBase64 observation.base64 = .ok validated.bytes

theorem validatedObservation_ok {observation : ProviderObservation}
    {validated : ValidatedObservation}
    (h : validatedObservation codecs messages observation = .ok validated) :
    ReadAs codecs messages observation validated := by
  obtain ⟨image, himage, h⟩ := bind_ok.mp h
  obtain ⟨bytes, hbytes, h⟩ := bind_ok.mp h
  cases h
  exact {
    place := rfl
    image := ⟨image, resolve_ok.mp himage, rfl⟩
    bytes := decodeObservation_ok hbytes }

theorem place_of_read {observations : List ProviderObservation}
    {validated : List ValidatedObservation}
    (h : List.Forall₂ (fun o v => validatedObservation codecs messages o = .ok v) observations
      validated) : validated.map (·.place) = observations.map (·.place) := by
  induction h with
  | nil => rfl
  | cons hfirst _ ih =>
      rw [List.map_cons, List.map_cons, (validatedObservation_ok hfirst).place, ih]

/-- The observations in the order of their places. -/
theorem validatedObservations_ok {validated : List ValidatedObservation}
    (h : validatedObservations codecs request = .ok validated) :
    validateObservations codecs request = .ok () ∧
      validated.map (·.place)
        = (request.observations.map (·.place)).insertionSort placeLe ∧
      ∀ v ∈ validated, ∃ observation ∈ request.observations,
        ReadAs codecs request.messages observation v := by
  obtain ⟨_, hvalid, h⟩ := bind_ok.mp h
  obtain ⟨read, hread, h⟩ := bind_ok.mp h
  cases h
  have hall := SortedMap.mapM_ok_iff.mp hread
  refine ⟨hvalid, ?_, ?_⟩
  · rw [← place_of_read hall]
    exact List.map_insertionSort
      (fun a b : ValidatedObservation => placeLe a.place b.place) placeLe _ _
      (fun _ _ _ _ => Iff.rfl)
  · intro v hv
    rw [List.mem_insertionSort] at hv
    obtain ⟨observation, hobservation, hok⟩ := SortedMap.mem_of_forall₂ hall hv
    exact ⟨observation, hobservation, validatedObservation_ok hok⟩

end Observations

/-! ## The staged files -/

/-- A staged entry with the bytes of its file stands for an observation. -/
structure StagedAs (observation : ValidatedObservation)
    (staged : StagedObservation × List UInt8) : Prop where
  place : staged.1.place = observation.place
  detail : staged.1.detail = observation.detail
  bytes : staged.2 = observation.bytes

/-- The file of a staged entry. -/
def fileOf (staged : StagedObservation × List UInt8) : String × List UInt8 :=
  (staged.1.path, staged.2)

/-- A staging holds an entry and a file for every observation, in their order, and no two
files have one path. -/
structure StagingOf (observations : List ValidatedObservation) (staging : ObservationStaging)
    (staged : List (StagedObservation × List UInt8)) : Prop where
  same : List.Forall₂ StagedAs observations staged
  entries : staging.entries = staged.map Prod.fst
  files : staging.files = staged.map fileOf
  paths : (SortedMap.keys staging.files).Nodup

theorem stageFrom_ok {host : Host} {root : String} {index : Nat}
    {staging staging' : ObservationStaging} {observations seen : List ValidatedObservation}
    {staged : List (StagedObservation × List UInt8)} (hs : StagingOf seen staging staged)
    (h : stageFrom host root index staging observations = .ok staging') :
    ∃ staged', StagingOf (seen ++ observations) staging' staged' := by
  induction observations generalizing index staging seen staged with
  | nil =>
      cases h
      rw [List.append_nil]
      exact ⟨staged, hs⟩
  | cons observation observations ih =>
      rw [stageFrom] at h
      obtain ⟨_, hnew, h⟩ := bind_ok.mp h
      rw [refuse_ok, ← Bool.not_eq_true, ← SortedMap.mem_keys_iff] at hnew
      split at h
      · cases h
      · rw [← List.singleton_append, ← List.append_assoc]
        let entry : StagedObservation := {
          messageIndex := observation.messageIndex, partIndex := observation.partIndex
          detail := observation.detail, path := stagedPath root index }
        suffices hs' : StagingOf (seen ++ [observation]) _ (staged ++ [(entry, observation.bytes)])
          from ih hs' h
        constructor
        · exact List.rel_append hs.same (.cons ⟨rfl, rfl, rfl⟩ .nil)
        · rw [hs.entries, List.map_append]
          rfl
        · rw [hs.files, List.map_append]
          rfl
        · rw [SortedMap.keys, List.map_append]
          refine List.nodup_append.mpr ⟨hs.paths, List.nodup_singleton _, ?_⟩
          intro path hpath path' hpath' heq
          rw [heq, List.mem_singleton.mp hpath'] at hpath
          exact hnew hpath

theorem stagingOf_empty : StagingOf [] { entries := [], files := [] } [] where
  same := .nil
  entries := rfl
  files := rfl
  paths := List.nodup_nil

theorem finishWithStagingCleanup_error {α : Type} {host : Host} {error : ProviderFailure}
    {value : α} : finishWithStagingCleanup host (.error error) ≠ .ok value := by
  intro h
  unfold finishWithStagingCleanup at h
  split at h <;> cases h
  contradiction

theorem create_ok {host : Host} {observations : List ValidatedObservation}
    {root : Option String} {staging : ObservationStaging}
    (h : ObservationStaging.create host observations root = .ok staging) :
    ∃ staged, StagingOf observations staging staged := by
  rw [ObservationStaging.create] at h
  split at h
  · rename_i hempty
    obtain ⟨_, _, h⟩ := bind_ok.mp h
    cases h
    rw [List.isEmpty_iff.mp hempty]
    exact ⟨[], stagingOf_empty⟩
  · obtain ⟨path, _, h⟩ := bind_ok.mp h
    obtain ⟨_, _, h⟩ := bind_ok.mp h
    split at h
    · rename_i found hfound
      cases h
      exact stageFrom_ok stagingOf_empty hfound
    · exact absurd h finishWithStagingCleanup_error

theorem StagingOf.places {observations : List ValidatedObservation}
    {staging : ObservationStaging} {staged : List (StagedObservation × List UInt8)}
    (hs : StagingOf observations staging staged) :
    staging.entries.map (·.place) = observations.map (·.place) := by
  have hsame := hs.same
  rw [hs.entries]
  clear hs
  induction hsame with
  | nil => rfl
  | cons hfirst _ ih => rw [List.map_cons, List.map_cons, List.map_cons, hfirst.place, ih]

/-- The entry at an index, with its observation and its file. -/
theorem StagingOf.at_index {observations : List ValidatedObservation}
    {staging : ObservationStaging} {staged : List (StagedObservation × List UInt8)}
    (hs : StagingOf observations staging staged) {i : Nat} {observation : ValidatedObservation}
    (hi : observations[i]? = some observation) :
    ∃ entry, staging.entries[i]? = some entry ∧ entry.place = observation.place ∧
      entry.detail = observation.detail ∧
      staging.files.lookup entry.path = some observation.bytes := by
  obtain ⟨hlen, hat⟩ := List.forall₂_iff_get.mp hs.same
  obtain ⟨hlt, rfl⟩ := List.getElem?_eq_some_iff.mp hi
  have hpair := hat i hlt (hlen ▸ hlt)
  refine ⟨(staged.get ⟨i, hlen ▸ hlt⟩).1, ?_, hpair.place, hpair.detail, ?_⟩
  · rw [hs.entries, List.getElem?_map, List.getElem?_eq_getElem (hlen ▸ hlt)]
    rfl
  · refine SortedMap.lookup_of_nodup hs.paths ?_
    rw [hs.files]
    refine List.mem_map.mpr ⟨_, List.get_mem staged ⟨i, hlen ▸ hlt⟩, ?_⟩
    rw [fileOf, hpair.bytes]
    rfl

/-! ## The rendered entries -/

/-- The position of a place in a list of places. -/
def indexOf (places : List (Nat × Nat)) (place : Nat × Nat) : Option Nat :=
  places.findIdx? (fun found => found = place)

theorem indexOf_eq {places : List (Nat × Nat)} (hnodup : places.Nodup) {place : Nat × Nat}
    {i : Nat} : indexOf places place = some i ↔ places[i]? = some place := by
  rw [indexOf, List.findIdx?_eq_some_iff_getElem, List.getElem?_eq_some_iff]
  constructor
  · rintro ⟨hlt, hi, _⟩
    exact ⟨hlt, of_decide_eq_true hi⟩
  · rintro ⟨hlt, hi⟩
    refine ⟨hlt, decide_eq_true hi, ?_⟩
    intro j hj hsame
    have hat : places[j] = places[i] := (of_decide_eq_true hsame).trans hi.symm
    exact absurd ((hnodup.getElem_inj_iff).mp hat) (Nat.ne_of_lt hj)

/-- The entry that a site is rendered as. -/
def entryFor (places : List (Nat × Nat)) (site : Site) : Entry where
  rank := site.rank
  part := site.part
  value := imageEntry ((indexOf places site.place).getD 0) site.image

section Rendering

variable {observations : List StagedObservation} {index rank part : Nat}

theorem findIdx?_place (observations : List StagedObservation) (index part : Nat) :
    observations.findIdx? (fun observation =>
        observation.messageIndex = index && observation.partIndex = part)
      = indexOf (observations.map (·.place)) (index, part) := by
  rw [indexOf, List.findIdx?_map]
  congr 1
  funext observation
  rw [Function.comp_apply, StagedObservation.place, ← Bool.decide_and]
  exact decide_eq_decide.mpr (by rw [Prod.mk.injEq])

theorem type_imageEntry (i : Nat) (image : ProviderImageObservation) :
    ((imageEntry i image).get "type").bind Json.asStr = some "imageObservation" := by
  simp [imageEntry, Json.get, List.lookup, Json.asStr]

theorem index_imageEntry {i : Nat} (hi : i < 2 ^ 64) (image : ProviderImageObservation) :
    ((imageEntry i image).get "observationIndex").bind Json.asU64 = some i := by
  have hget : (imageEntry i image).get "observationIndex" = some (.number (toString i)) := by
    simp [imageEntry, Json.get, List.lookup]
  rw [hget, Option.bind_some, asU64_toString hi]

/-- The entries among the rendered parts are the rendered sites. -/
theorem renderParts_ok (rank : Nat) {contents : List ProviderContentPart} {values : List Json}
    (h : renderParts observations index part contents = .ok values) :
    partEntries rank part values
        = ((contents.zipIdx part).filterMap (siteOf index rank)).map
            (entryFor (observations.map (·.place))) ∧
      (∀ site ∈ (contents.zipIdx part).filterMap (siteOf index rank),
        (indexOf (observations.map (·.place)) site.place).isSome) ∧
      values.isEmpty = contents.isEmpty := by
  induction contents generalizing part values with
  | nil =>
      cases h
      exact ⟨rfl, (by simp), rfl⟩
  | cons content contents ih =>
      obtain ⟨entry, hentry, h⟩ := bind_ok.mp h
      obtain ⟨entries, hentries, h⟩ := bind_ok.mp h
      cases h
      obtain ⟨hrest, hsome, _⟩ := ih hentries
      rw [List.zipIdx_cons, partEntries]
      cases content with
      | text text =>
          cases hentry
          rw [List.filterMap_cons_none rfl, if_neg (by simp [Json.get, List.lookup, Json.asStr])]
          exact ⟨hrest, hsome, rfl⟩
      | imageObservation image =>
          obtain ⟨i, hi, hentry⟩ := bind_ok.mp hentry
          cases hentry
          rw [orFault_ok, findIdx?_place] at hi
          have hsite : siteOf index rank (.imageObservation image, part)
              = some { message := index, rank, part, image } := rfl
          rw [List.filterMap_cons_some hsite, if_pos (type_imageEntry i image), List.map_cons,
            hrest]
          refine ⟨?_, ?_, rfl⟩
          · congr 1
            simp only [entryFor, Site.place, hi, Option.getD_some]
          · intro site hsite
            rcases List.mem_cons.mp hsite with rfl | hsite
            · rw [Site.place, hi]
              rfl
            · exact hsome site hsite

theorem renderPromptMessage_ok (rank : Nat) {message : ProviderMessage} {value : Json}
    (h : renderPromptMessage index message observations = .ok value) :
    messageEntries rank value
        = (partSites index rank message.contentParts).map
            (entryFor (observations.map (·.place))) ∧
      ∀ site ∈ partSites index rank message.contentParts,
        (indexOf (observations.map (·.place)) site.place).isSome := by
  obtain ⟨parts, hparts, h⟩ := bind_ok.mp h
  obtain ⟨hentries, hsome, hempty⟩ := renderParts_ok rank hparts
  refine ⟨?_, hsome⟩
  split at h
  · -- no part is rendered, and none is left in the message
    rename_i hnone
    cases h
    rw [hempty, List.isEmpty_iff] at hnone
    simp [messageEntries, ProviderMessage.toValue, hnone, Json.get, List.lookup, Json.asArray,
      partEntries, partSites]
  · cases h
    rw [messageEntries, Json.get, SortedMap.lookup_insert_self]
    exact hentries

/-- **The entries of a transcript are its sites.** -/
theorem renderTranscript_ok (rank : Nat) {messages : List ProviderMessage} {values : List Json}
    (h : renderTranscript observations index messages = .ok values) :
    transcriptEntries rank values
        = (renderedFrom index rank messages).map (entryFor (observations.map (·.place))) ∧
      ∀ site ∈ renderedFrom index rank messages,
        (indexOf (observations.map (·.place)) site.place).isSome := by
  induction messages generalizing index rank values with
  | nil =>
      cases h
      exact ⟨rfl, by simp [renderedFrom]⟩
  | cons message messages ih =>
      rw [renderTranscript] at h
      rw [renderedFrom]
      cases hrole : message.role.isInstruction with
      | true =>
          rw [hrole, if_pos rfl] at h
          rw [if_pos rfl, nextRank, hrole, if_pos rfl, List.nil_append]
          exact ih rank h
      | false =>
          rw [hrole, if_neg Bool.false_ne_true] at h
          obtain ⟨value, hvalue, h⟩ := bind_ok.mp h
          obtain ⟨rest, hrest, h⟩ := bind_ok.mp h
          cases h
          obtain ⟨hfirst, hsome⟩ := renderPromptMessage_ok rank hvalue
          obtain ⟨hlater, hsome'⟩ := ih (rank + 1) hrest
          rw [if_neg Bool.false_ne_true, nextRank, hrole, if_neg Bool.false_ne_true,
            List.map_append, transcriptEntries, hfirst, hlater]
          refine ⟨rfl, ?_⟩
          intro site hsite
          exact (List.mem_append.mp hsite).elim (hsome site) (hsome' site)

end Rendering

/-! ## The prepared turn -/

theorem filter_key {α β : Type} [DecidableEq β] {f : α → β} {l : List α} {x : α}
    (hnodup : (l.map f).Nodup) (hx : x ∈ l) : l.filter (fun a => f a = f x) = [x] := by
  induction l with
  | nil => cases hx
  | cons a l ih =>
      obtain ⟨ha, hl⟩ := List.nodup_cons.mp hnodup
      rcases List.mem_cons.mp hx with rfl | hx
      · rw [List.filter_cons, if_pos (decide_eq_true rfl)]
        congr 1
        refine List.filter_eq_nil_iff.mpr ?_
        intro b hb hsame
        exact ha (of_decide_eq_true hsame ▸ List.mem_map_of_mem hb)
      · have hne : f a ≠ f x := fun h => ha (h ▸ List.mem_map_of_mem hx)
        rw [List.filter_cons_of_neg (by simpa using hne)]
        exact ih hl hx

/-- What a prepared turn was made of. -/
structure PreparedFrom (codecs : Codecs) (request : ProviderRequest) (turn : PreparedTurn)
    (validated : List ValidatedObservation) (staging : ObservationStaging) : Prop where
  read : validatedObservations codecs request = .ok validated
  staged : ∃ staged, StagingOf validated staging staged
  rendered : renderModelPrompt request staging.entries = .ok turn.rendered
  inputs : turn.inputs = .text turn.rendered.prompt :: staging.entries.map (fun entry =>
    .localImage entry.path (some (imageDetail entry.detail)))
  files : turn.files = staging.files

theorem prepareTurn_ok {codecs : Codecs} {host : Host} {request : ProviderRequest}
    {turn : PreparedTurn} (h : prepareTurn codecs host request = .ok turn) :
    ∃ validated staging, PreparedFrom codecs request turn validated staging := by
  obtain ⟨validated, hvalidated, h⟩ := bind_ok.mp h
  obtain ⟨staging, hstaging, h⟩ := bind_ok.mp h
  dsimp only at h
  split at h
  · rename_i found hfound
    cases h
    obtain ⟨rendered, hrendered, hfound⟩ := bind_ok.mp hfound
    obtain ⟨_, _, hfound⟩ := bind_ok.mp hfound
    obtain ⟨_, _, hfound⟩ := bind_ok.mp hfound
    split at hfound
    · cases hfound
    · cases hfound
      exact ⟨validated, staging, hvalidated, create_ok hstaging, hrendered, rfl, rfl⟩
  · exact absurd h finishWithStagingCleanup_error

section Prepared

variable {codecs : Codecs} {request : ProviderRequest} {turn : PreparedTurn}
  {validated : List ValidatedObservation} {staging : ObservationStaging}

/-- The places are sorted from those of the observations. -/
theorem PreparedFrom.places_eq (h : PreparedFrom codecs request turn validated staging) :
    staging.entries.map (·.place)
      = (request.observations.map (·.place)).insertionSort placeLe := by
  obtain ⟨staged, hstaged⟩ := h.staged
  rw [hstaged.places]
  exact (validatedObservations_ok h.read).2.1

theorem PreparedFrom.observed (h : PreparedFrom codecs request turn validated staging) :
    (request.observations.map (·.place)).Perm (staging.entries.map (·.place)) := by
  rw [h.places_eq]
  exact (List.perm_insertionSort placeLe _).symm

theorem PreparedFrom.sites (h : PreparedFrom codecs request turn validated staging) :
    (staging.entries.map (·.place)).Perm ((sitesFrom 0 0 request.messages).map Site.place) :=
  h.observed.symm.trans (validateObservations_ok (validatedObservations_ok h.read).1).1

theorem PreparedFrom.nodup (h : PreparedFrom codecs request turn validated staging) :
    (staging.entries.map (·.place)).Nodup :=
  h.sites.nodup_iff.mpr (nodup_sitesFrom 0 0 request.messages)

theorem PreparedFrom.length_le (h : PreparedFrom codecs request turn validated staging) :
    (staging.entries.map (·.place)).length ≤ 16 := by
  rw [← h.observed.length_eq, List.length_map]
  exact (validateObservations_ok (validatedObservations_ok h.read).1).2

theorem PreparedFrom.mem_places (h : PreparedFrom codecs request turn validated staging)
    (place : Nat × Nat) : place ∈ staging.entries.map (·.place) ↔
      (imageAt request.messages place).isSome := by
  rw [h.sites.mem_iff]
  exact mem_place_sitesFrom request.messages place

theorem PreparedFrom.localImages_eq (h : PreparedFrom codecs request turn validated staging) :
    localImages turn.inputs
      = staging.entries.map (fun entry => (entry.path, some (imageDetail entry.detail))) := by
  rw [h.inputs, localImages, List.filterMap_cons_none rfl, List.filterMap_map]
  exact congrFun List.filterMap_eq_map staging.entries

/-- The entries of the prompt are the rendered sites, which all have an index. -/
theorem PreparedFrom.entries (h : PreparedFrom codecs request turn validated staging) :
    promptEntries turn.rendered.envelope
        = (renderedFrom 0 0 request.messages).map (entryFor (staging.entries.map (·.place))) ∧
      ∀ site ∈ renderedFrom 0 0 request.messages, ∃ i < staging.entries.length,
        (staging.entries.map (·.place))[i]? = some site.place ∧
          (entryFor (staging.entries.map (·.place)) site).index = some i := by
  obtain ⟨transcript, htranscript, hrendered⟩ := bind_ok.mp h.rendered
  obtain ⟨hentries, hsome⟩ := renderTranscript_ok 0 htranscript
  have hget : (turn.rendered.envelope.get "messages").bind Json.asArray = some transcript := by
    rw [← Except.ok.inj hrendered]
    simp [Json.get, List.lookup, Json.asArray]
  refine ⟨by rw [promptEntries, hget]; exact hentries, ?_⟩
  intro site hsite
  obtain ⟨i, hi⟩ := Option.isSome_iff_exists.mp (hsome site hsite)
  have hat := (indexOf_eq h.nodup).mp hi
  obtain ⟨hlt, _⟩ := List.getElem?_eq_some_iff.mp hat
  have hbound := h.length_le
  refine ⟨i, by rwa [List.length_map] at hlt, hat, ?_⟩
  rw [Entry.index, entryFor, hi, Option.getD_some]
  exact index_imageEntry (by omega) site.image

/-- The images of a prepared turn are sent in the order of their places. -/
theorem PreparedFrom.sent (h : PreparedFrom codecs request turn validated staging) {i : Nat}
    {place : Nat × Nat} (hi : (staging.entries.map (·.place))[i]? = some place) :
    ∃ observation image bytes path,
      observation ∈ request.observations ∧ observation.place = place ∧
      imageAt request.messages place = some image ∧
      codecs.decodeBase64 observation.base64 = .ok bytes ∧
      (localImages turn.inputs)[i]? = some (path, some (imageDetail image.detail)) ∧
      turn.files.lookup path = some bytes := by
  obtain ⟨staged, hstaged⟩ := h.staged
  obtain ⟨_, _, hread⟩ := validatedObservations_ok h.read
  rw [hstaged.places, List.getElem?_map, Option.map_eq_some_iff] at hi
  obtain ⟨v, hv, rfl⟩ := hi
  obtain ⟨entry, hentry, _, hdetail, hfile⟩ := hstaged.at_index hv
  obtain ⟨observation, hobservation, hreadAs⟩ := hread v (List.mem_of_getElem? hv)
  obtain ⟨image, himage, hsame⟩ := hreadAs.image
  refine ⟨observation, image, v.bytes, entry.path, hobservation, hreadAs.place.symm, ?_,
    hreadAs.bytes, ?_, ?_⟩
  · rw [hreadAs.place]
    exact himage
  · rw [h.localImages_eq, List.getElem?_map, hentry, Option.map_some, hdetail, hsame]
  · rw [h.files, hfile]

/-- An entry that names an index belongs to the site at that index. -/
theorem PreparedFrom.index_iff (h : PreparedFrom codecs request turn validated staging)
    {site : Site} (hsite : site ∈ renderedFrom 0 0 request.messages) (site' : Site) {i : Nat}
    (hi : (staging.entries.map (·.place))[i]? = some site'.place) :
    (entryFor (staging.entries.map (·.place)) site).index = some i ↔
      site.place = site'.place := by
  obtain ⟨j, _, hat, hindex⟩ := h.entries.2 site hsite
  rw [hindex]
  constructor
  · intro hij
    cases hij
    rw [hat] at hi
    exact Option.some.inj hi
  · intro hsame
    rw [← hsame] at hi
    obtain ⟨hj, hjat⟩ := List.getElem?_eq_some_iff.mp hat
    obtain ⟨hi', hiat⟩ := List.getElem?_eq_some_iff.mp hi
    exact congrArg some (h.nodup.getElem_inj_iff.mp (hjat.trans hiat.symm))

/-- Without images in instructions, one entry names an index, at its place. -/
theorem PreparedFrom.referenced (h : PreparedFrom codecs request turn validated staging)
    (hnone : NoInstructionImages request.messages) {i : Nat} {place : Nat × Nat}
    {image : ProviderImageObservation}
    (hi : (staging.entries.map (·.place))[i]? = some place)
    (himage : imageAt request.messages place = some image) :
    entriesNaming turn.rendered.envelope i
      = [{ rank := transcriptIndex request.messages place.1
           part := place.2, value := imageEntry i image }] := by
  let site : Site :=
    { message := place.1, rank := 0 + transcriptIndex request.messages place.1
      part := place.2, image }
  have hsite : site ∈ sitesFrom 0 0 request.messages :=
    mem_sitesFrom.mpr ⟨place.1, (Nat.zero_add _).symm, rfl, himage⟩
  have hrendered := renderedFrom_eq 0 0 hnone
  rw [entriesNaming, h.entries.1, List.filter_map]
  have hfilter : (renderedFrom 0 0 request.messages).filter
      ((fun entry : Entry => decide (entry.index = some i))
        ∘ entryFor (staging.entries.map (·.place))) = [site] := by
    rw [← filter_key (nodup_sitesFrom 0 0 request.messages) hsite, ← hrendered]
    refine List.filter_congr ?_
    intro found hfound
    exact decide_eq_decide.mpr (h.index_iff hfound site hi)
  rw [hfilter, List.map_singleton, entryFor]
  have hindex : indexOf (staging.entries.map (·.place)) site.place = some i :=
    (indexOf_eq h.nodup).mpr hi
  rw [hindex, Option.getD_some]
  simp [site]

/-- Every index has an entry of its own, so the rendered sites are as many as all. -/
theorem Aligned.length_le {places : List (Nat × Nat)}
    (haligned : Aligned codecs request turn places)
    (h : PreparedFrom codecs request turn validated staging) :
    (sitesFrom 0 0 request.messages).length
      ≤ (renderedFrom 0 0 request.messages).length := by
  have hplaces : (sitesFrom 0 0 request.messages).length = places.length := by
    rw [← haligned.observed.length_eq, h.observed.length_eq, h.sites.length_eq,
      List.length_map]
  have hentries : (promptEntries turn.rendered.envelope).length
      = (renderedFrom 0 0 request.messages).length := by
    rw [h.entries.1, List.length_map]
  rw [hplaces, ← hentries]
  have hsub : (List.range places.length).map some
      ⊆ (promptEntries turn.rendered.envelope).map Entry.index := by
    intro index hindex
    obtain ⟨i, hi, rfl⟩ := List.mem_map.mp hindex
    obtain ⟨place, hplace⟩ : ∃ place, places[i]? = some place :=
      ⟨_, List.getElem?_eq_getElem (List.mem_range.mp hi)⟩
    obtain ⟨image, himage⟩ := Option.isSome_iff_exists.mp
      ((haligned.images _).mp (List.mem_of_getElem? hplace))
    have hentry := List.mem_filter.mp
      ((haligned.referenced i _ image hplace himage).symm ▸ List.mem_singleton_self _)
    exact List.mem_map.mpr ⟨_, hentry.1, of_decide_eq_true hentry.2⟩
  have hnodup : ((List.range places.length).map some).Nodup :=
    List.nodup_range.map (Option.some_injective Nat)
  have hlength := (List.subperm_of_subset hnodup hsub).length_le
  rwa [List.length_map, List.length_range, List.length_map] at hlength

/-- **Aligned exactly without images in instructions.** -/
theorem PreparedFrom.aligned_iff (h : PreparedFrom codecs request turn validated staging) :
    (∃ places, Aligned codecs request turn places) ↔ NoInstructionImages request.messages := by
  constructor
  · rintro ⟨places, haligned⟩ message hmessage hrole part hpart
    by_contra himage
    obtain ⟨image, himage⟩ := Option.ne_none_iff_exists'.mp himage
    obtain ⟨m, hm⟩ := List.mem_iff_getElem?.mp hmessage
    obtain ⟨p, hp⟩ := List.mem_iff_getElem?.mp hpart
    have hat : imageAt request.messages (m, p) = some image := by
      rw [imageAt, hm, Option.bind_some, hp, Option.bind_some, himage]
    -- every index has an entry, so every site is rendered, also this one
    have hall := (renderedFrom_sublist 0 0 request.messages).eq_of_length_le
      (haligned.length_le h)
    have hsite : (⟨m, 0 + transcriptIndex request.messages m, p, image⟩ : Site)
        ∈ renderedFrom 0 0 request.messages := by
      rw [hall]
      exact mem_sitesFrom.mpr ⟨m, (Nat.zero_add m).symm, rfl, hat⟩
    obtain ⟨_, later, found, hlater, hfound, hrole'⟩ := mem_renderedFrom hsite
    have hsame : m = later := hlater.trans (Nat.zero_add later)
    rw [← hsame, hm] at hfound
    cases hfound
    rw [hrole] at hrole'
    cases hrole'
  · intro hnone
    have hrendered := renderedFrom_eq 0 0 hnone
    refine ⟨staging.entries.map (·.place), ?_⟩
    exact {
      observed := h.observed
      nodup := h.nodup
      images := h.mem_places
      count := by rw [h.localImages_eq, List.length_map, List.length_map]
      sent := fun i place hi => h.sent hi
      referenced := fun i place image hi himage => h.referenced hnone hi himage
      only := by
        intro entry hentry
        rw [h.entries.1] at hentry
        obtain ⟨site, hsite, rfl⟩ := List.mem_map.mp hentry
        obtain ⟨i, hi, _, hindex⟩ := h.entries.2 site hsite
        exact ⟨i, by rwa [List.length_map], hindex⟩ }

end Prepared

/-! ## Locations stay out of the prompt -/

/-- An image part without the location of its artifact. -/
def ProviderImageObservation.unlocated (image : ProviderImageObservation) :
    ProviderImageObservation :=
  { image with artifact := { image.artifact with id := "", relativePath := "" } }

def ProviderContentPart.unlocated : ProviderContentPart → ProviderContentPart
  | .text value => .text value
  | .imageObservation image => .imageObservation image.unlocated

def ProviderMessage.unlocated (message : ProviderMessage) : ProviderMessage :=
  { message with contentParts := message.contentParts.map ProviderContentPart.unlocated }

/-- A request without its staging root and the locations of its artifacts. -/
def ProviderRequest.unlocated (request : ProviderRequest) : ProviderRequest :=
  { request with
    messages := request.messages.map ProviderMessage.unlocated
    stagingRoot := none }

section Unlocated

variable {observations observations' : List StagedObservation} {index part : Nat}

theorem renderPart_unlocated
    (hplaces : observations.map (·.place) = observations'.map (·.place))
    (content : ProviderContentPart) :
    renderPart observations index part content
      = renderPart observations' index part content.unlocated := by
  cases content with
  | text text => rfl
  | imageObservation image =>
      rw [ProviderContentPart.unlocated, renderPart, renderPart, findIdx?_place,
        findIdx?_place, hplaces]
      rfl

theorem renderParts_unlocated
    (hplaces : observations.map (·.place) = observations'.map (·.place))
    (contents : List ProviderContentPart) :
    renderParts observations index part contents
      = renderParts observations' index part (contents.map ProviderContentPart.unlocated) := by
  induction contents generalizing part with
  | nil => rfl
  | cons content contents ih =>
      rw [List.map_cons, renderParts, renderParts, renderPart_unlocated hplaces, ih]

/-- The rendered parts take the place of the encoded ones. -/
theorem insert_contentParts (value : Json) (message : ProviderMessage) :
    SortedMap.insert "contentParts" value message.toValue
      = SortedMap.insert "contentParts" value message.unlocated.toValue := by
  have hreplaced : ∀ (content parts : Json) (rest : List (String × Json)),
      SortedMap.insert "contentParts" value
          (("content", content) :: ("contentParts", parts) :: rest)
        = ("content", content) :: ("contentParts", value) :: rest := by
    intro content parts rest
    rw [SortedMap.insert, if_neg (by decide), if_neg (by decide), SortedMap.insert, if_pos rfl]
  rw [ProviderMessage.toValue, ProviderMessage.toValue, hreplaced, hreplaced]
  rfl

/-- A message whose parts are rendered shows nothing of their encoding. -/
theorem renderedValue_unlocated (message : ProviderMessage) {parts : List Json}
    (hempty : parts.isEmpty = message.contentParts.isEmpty) :
    (if parts.isEmpty then Json.object message.toValue
      else .object (SortedMap.insert "contentParts" (.array parts) message.toValue))
      = (if parts.isEmpty then Json.object message.unlocated.toValue
        else .object (SortedMap.insert "contentParts" (.array parts)
          message.unlocated.toValue)) := by
  split
  · rename_i hnone
    rw [hempty, List.isEmpty_iff] at hnone
    rw [ProviderMessage.toValue, ProviderMessage.toValue, ProviderMessage.unlocated, hnone]
    rfl
  · rw [insert_contentParts]

theorem renderPromptMessage_unlocated
    (hplaces : observations.map (·.place) = observations'.map (·.place))
    (message : ProviderMessage) :
    renderPromptMessage index message observations
      = renderPromptMessage index message.unlocated observations' := by
  have hparts : renderParts observations index 0 message.contentParts
      = renderParts observations' index 0 message.unlocated.contentParts :=
    renderParts_unlocated hplaces message.contentParts
  rw [renderPromptMessage, renderPromptMessage, ← hparts]
  cases hrendered : renderParts observations index 0 message.contentParts with
  | error fault => rfl
  | ok parts =>
      have hvalue := renderedValue_unlocated message (renderParts_ok 0 hrendered).2.2
      have hok := congrArg (fun value => (Except.ok value : ProviderResult Json)) hvalue
      rw [apply_ite Except.ok, apply_ite Except.ok] at hok
      exact hok

theorem renderTranscript_unlocated
    (hplaces : observations.map (·.place) = observations'.map (·.place))
    (messages : List ProviderMessage) :
    renderTranscript observations index messages
      = renderTranscript observations' index (messages.map ProviderMessage.unlocated) := by
  induction messages generalizing index with
  | nil => rfl
  | cons message messages ih =>
      have hrole : message.unlocated.role = message.role := rfl
      rw [List.map_cons, renderTranscript, renderTranscript, hrole,
        renderPromptMessage_unlocated hplaces, ih]

theorem instructions_unlocated (messages : List ProviderMessage) (role : ProviderMessageRole) :
    instructions (messages.map ProviderMessage.unlocated) role = instructions messages role := by
  have hcontents : ((messages.map ProviderMessage.unlocated).filter
      (fun message => message.role = role)).map (·.content)
        = (messages.filter (fun message => message.role = role)).map (·.content) := by
    rw [List.filter_map, List.map_map]
    rfl
  rw [instructions, hcontents, instructions]

theorem renderModelPrompt_unlocated (request : ProviderRequest)
    (hplaces : observations.map (·.place) = observations'.map (·.place)) :
    renderModelPrompt request observations
      = renderModelPrompt request.unlocated observations' := by
  rw [renderModelPrompt, renderModelPrompt, renderTranscript_unlocated hplaces]
  simp only [ProviderRequest.unlocated, instructions_unlocated]

end Unlocated

theorem validateRequest_ok {codecs : Codecs} {check : StagingCheck}
    {request accepted : ProviderRequest}
    (h : validateRequest codecs check request = .ok accepted) :
    validateObservations codecs request = .ok () := by
  obtain ⟨_, _, h⟩ := bind_ok.mp h
  obtain ⟨_, _, h⟩ := bind_ok.mp h
  obtain ⟨_, _, h⟩ := bind_ok.mp h
  obtain ⟨_, _, h⟩ := bind_ok.mp h
  obtain ⟨_, _, h⟩ := bind_ok.mp h
  obtain ⟨_, _, h⟩ := bind_ok.mp h
  obtain ⟨_, _, h⟩ := bind_ok.mp h
  obtain ⟨_, _, h⟩ := bind_ok.mp h
  obtain ⟨_, hobservations, _⟩ := bind_ok.mp h
  exact hobservations

/-- A PNG of one transparent pixel. -/
def pixel : List UInt8 :=
  [137, 80, 78, 71, 13, 10, 26, 10, 0, 0, 0, 13, 73, 72, 68, 82, 0, 0, 0, 1, 0, 0, 0, 1, 8, 6,
    0, 0, 0, 31, 21, 196, 137, 0, 0, 0, 11, 73, 68, 65, 84, 120, 156, 99, 96, 0, 2, 0, 0, 5, 0,
    1, 122, 94, 171, 63, 0, 0, 0, 0, 73, 69, 78, 68, 174, 66, 96, 130]

def pixelBase64 : String :=
  "iVBORw0KGgoAAAANSUhEUgAAAAEAAAABCAYAAAAfFcSJAAAAC0lEQVR4nGNgAAIAAAUAAXpeqz8AAAAASUVORK5CYII="

def pixelDigest : String := "43739c566e26fd7cb88f69d3864ea34740372f5ee99acac169e090beffbce5c6"

/-- Decoding, digest and data of the pixel. -/
def pixelCodecs : Codecs where
  decodeBase64 text := if text = pixelBase64 then .ok pixel else .error "Invalid padding"
  sha256Hex bytes := if bytes = pixel then pixelDigest else ""
  inflate data :=
    if data = [120, 156, 99, 96, 0, 2, 0, 0, 5, 0, 1] then
      { bytes := [0, 0, 0, 0, 0], corrupt := false }
    else { bytes := [], corrupt := true }

/-- A host that does what it is asked. -/
def obligingHost : Host where
  check _ := .ok ()
  write _ := none
  alreadyExists := "File exists (os error 17)"
  cleanup := .ok ()
  remaining := 60000
  session := .ok ()

/-- A message with the pixel among its parts. -/
def pixelMessage (role : ProviderMessageRole) : ProviderMessage where
  role
  content := "Look at this."
  contentParts := [.text "Look at this.", .imageObservation {
    artifact := {
      id := "artifact-1", sha256 := pixelDigest, mediaType := "image/png"
      byteLength := 68, relativePath := "images/pixel.png" }
    role := .full, detail := .high, caption := some "a pixel" }]
  toolCalls := []
  toolCallId := none
  toolName := none
  isError := false

/-- A turn whose one message shows the pixel. -/
def pixelRequest (role : ProviderMessageRole) : ProviderRequest where
  schemaVersion := 2
  requestId := "request-1"
  operation := .modelTurn
  messages := [pixelMessage role]
  observations := [{
    messageIndex := 0, partIndex := 1, mediaType := "image/png", sha256 := pixelDigest
    width := 1, height := 1, role := .full, base64 := pixelBase64 }]
  stagingRoot := some "/tmp/vergerail-upagent-request-1"
  tools := []
  timeoutMs := 60000
  maximumResponseBytes := 65536
  prompt := none
  imageOptions := none

/-- A request that is accepted is passed on as it is. -/
theorem validateRequest_self {codecs : Codecs} {check : StagingCheck}
    {request : ProviderRequest}
    (h : (validateRequest codecs check request).toBool = true) :
    validateRequest codecs check request = .ok request := by
  cases hresult : validateRequest codecs check request with
  | error failure => rw [hresult] at h; cases h
  | ok accepted =>
      obtain ⟨_, _, hrest⟩ := bind_ok.mp hresult
      obtain ⟨_, _, hrest⟩ := bind_ok.mp hrest
      obtain ⟨_, _, hrest⟩ := bind_ok.mp hrest
      obtain ⟨_, _, hrest⟩ := bind_ok.mp hrest
      obtain ⟨_, _, hrest⟩ := bind_ok.mp hrest
      obtain ⟨_, _, hrest⟩ := bind_ok.mp hrest
      obtain ⟨_, _, hrest⟩ := bind_ok.mp hrest
      obtain ⟨_, _, hrest⟩ := bind_ok.mp hrest
      obtain ⟨_, _, hrest⟩ := bind_ok.mp hrest
      obtain ⟨_, _, hrest⟩ := bind_ok.mp hrest
      split at hrest
      · cases hrest
        rfl
      · obtain ⟨_, _, hrest⟩ := bind_ok.mp hrest
        obtain ⟨_, _, hrest⟩ := bind_ok.mp hrest
        cases hrest
        rfl

theorem pixelRequest_ok (role : ProviderMessageRole) (h : role = .user ∨ role = .system) :
    validateRequest pixelCodecs obligingHost.check (pixelRequest role)
      = .ok (pixelRequest role) := by
  rcases h with rfl | rfl
  · exact validateRequest_self (by decide +kernel)
  · exact validateRequest_self (by decide +kernel)

theorem prepareTurn_pixel (role : ProviderMessageRole) (h : role = .user ∨ role = .system) :
    ∃ turn, prepareTurn pixelCodecs obligingHost (pixelRequest role) = .ok turn := by
  have hok : (prepareTurn pixelCodecs obligingHost (pixelRequest role)).toBool = true := by
    rcases h with rfl | rfl
    · decide +kernel
    · decide +kernel
  cases hturn : prepareTurn pixelCodecs obligingHost (pixelRequest role) with
  | error failure => rw [hturn] at hok; cases hok
  | ok turn => exact ⟨turn, rfl⟩

end Vergerail.UpagentPrompt
