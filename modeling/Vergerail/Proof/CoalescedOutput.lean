import Vergerail.Lib.Latest
import Vergerail.Proof.RunStage

/-!
# What the queue does to the retained output

The events that wait for the acknowledgement go through the coalescing queue; the retained
output is the fold over what reaches the channel. Text and usage do not notice the queue.
The images do: the queue keeps the latest state of an image where the image was last seen,
the result promises the order in which the images were first seen. `FirstSeenOrder` says
that the two orders agree on what was queued.
-/

namespace Vergerail

open Lib

/-- The images of a sequence of events. -/
def imagesOf (events : List Event) : List ImageGeneration := events.filterMap Event.image

/-- The events that carry no image. -/
def plainOf (events : List Event) : List Event := events.filter (fun event => event.image.isNone)

/-- What the deferred queue holds once these events waited in it. -/
def coalesceEvents (events : List Event) : List Event :=
  events.foldl (Coalesce.push Event.imageId) []

/-- Nothing retained yet. -/
def RetainedOutput.empty : RetainedOutput := ⟨"", none, []⟩

/-- What a run retains of a sequence of events. -/
def retained (events : List Event) : RetainedOutput := events.foldl RetainedOutput.add .empty

/-- The latest state of each image, in the order in which the images were first seen. -/
def latestImages (events : List Event) : List ImageGeneration :=
  Latest.latest (·.id) (imagesOf events)

/-- The images were last seen in the order in which they were first seen. -/
def FirstSeenOrder (events : List Event) : Prop :=
  ((imagesOf events).map (·.id)).dedup = ((imagesOf events).map (·.id)).eraseDups

instance (events : List Event) : Decidable (FirstSeenOrder events) :=
  inferInstanceAs (Decidable (_ = _))

section Retained

theorem foldl_add_images (events : List Event) (output : RetainedOutput) :
    (events.foldl RetainedOutput.add output).imageGenerations
      = (imagesOf events).foldl (upsert (·.id)) output.imageGenerations := by
  unfold imagesOf
  induction events generalizing output with
  | nil => rfl
  | cons event events ih =>
      rw [List.foldl_cons, ih]
      cases event with
      | imageGeneration image => rfl
      | _ => rfl

/-- The retained images are the latest states in first-seen order. -/
theorem retained_images (events : List Event) :
    (retained events).imageGenerations = latestImages events := by
  unfold retained latestImages
  rw [foldl_add_images]
  exact Latest.foldl_upsert (imagesOf events)

/-- Text and usage come from the events that carry no image. -/
theorem foldl_add_plain (events : List Event) {output output' : RetainedOutput}
    (htext : output.text = output'.text) (husage : output.usage = output'.usage) :
    (events.foldl RetainedOutput.add output).text
        = ((plainOf events).foldl RetainedOutput.add output').text
      ∧ (events.foldl RetainedOutput.add output).usage
        = ((plainOf events).foldl RetainedOutput.add output').usage := by
  unfold plainOf
  induction events generalizing output output' with
  | nil => exact ⟨htext, husage⟩
  | cons event events ih =>
      cases hevent : event with
      | imageGeneration image =>
          rw [List.filter_cons_of_neg (by simp [Event.image])]
          exact ih htext husage
      | textDelta delta =>
          rw [List.filter_cons_of_pos rfl]
          exact ih (congrArg (· ++ delta) htext) husage
      | usageUpdated usage =>
          rw [List.filter_cons_of_pos rfl]
          exact ih htext rfl
      | _ =>
          rw [List.filter_cons_of_pos rfl]
          exact ih htext husage

theorem coalesceEvents_concat (events : List Event) (event : Event) :
    coalesceEvents (events ++ [event])
      = Coalesce.push Event.imageId (coalesceEvents events) event := by
  unfold coalesceEvents
  rw [List.foldl_append]; rfl

/-- Taking the events of an image out takes the image out. -/
theorem imagesOf_filter (events : List Event) (imageId : String) :
    imagesOf (events.filter (fun event => event.imageId ≠ some imageId))
      = (imagesOf events).filter (fun image => image.id ≠ imageId) := by
  unfold imagesOf
  induction events with
  | nil => rfl
  | cons event events ih =>
      cases himage : event.image with
      | none =>
          have hid : event.imageId = none := by unfold Event.imageId; rw [himage]; rfl
          rw [List.filter_cons_of_pos (by simp [hid]), List.filterMap_cons_none himage,
            List.filterMap_cons_none himage, ih]
      | some image =>
          have hid : event.imageId = some image.id := by unfold Event.imageId; rw [himage]; rfl
          rw [List.filterMap_cons_some himage]
          by_cases hsame : image.id = imageId
          · rw [List.filter_cons_of_neg (by simp [hid, hsame]),
              List.filter_cons_of_neg (by simp [hsame]), ih]
          · rw [List.filter_cons_of_pos (by simp [hid, hsame]),
              List.filter_cons_of_pos (by simp [hsame]), List.filterMap_cons_some himage, ih]

/-- The queue holds the latest state of each image. -/
theorem imagesOf_coalesceEvents (events : List Event) :
    imagesOf (coalesceEvents events) = Latest.coalesced (·.id) (imagesOf events) := by
  induction events using List.reverseRecOn with
  | nil => rfl
  | append_singleton events event ih =>
      have happend : ∀ front : List Event,
          imagesOf (front ++ [event]) = imagesOf front ++ event.image.toList := by
        intro front
        unfold imagesOf
        rw [List.filterMap_append]
        cases himage : event.image with
        | none => rw [List.filterMap_cons_none himage]; rfl
        | some image => rw [List.filterMap_cons_some himage]; rfl
      rw [coalesceEvents_concat, happend]
      unfold Coalesce.push
      rw [happend]
      unfold Coalesce.retainOthers Event.imageId
      cases event.image with
      | none =>
          rw [Option.toList_none, List.append_nil, List.append_nil]
          exact ih
      | some image =>
          rw [Option.toList_some, Latest.coalesced_concat, ← ih, ← imagesOf_filter]
          rfl

/-- The queue leaves everything else alone. -/
theorem plainOf_coalesceEvents (events : List Event) :
    plainOf (coalesceEvents events) = plainOf events := by
  induction events using List.reverseRecOn with
  | nil => rfl
  | append_singleton events event ih =>
      have hretain : plainOf (Coalesce.retainOthers Event.imageId event (coalesceEvents events))
          = plainOf (coalesceEvents events) := by
        unfold plainOf Coalesce.retainOthers
        cases event.imageId with
        | none => rfl
        | some imageId =>
            dsimp only
            rw [List.filter_filter]
            refine List.filter_congr ?_
            intro other _
            unfold Event.imageId
            cases other.image <;> simp
      rw [coalesceEvents_concat]
      unfold Coalesce.push
      unfold plainOf at ih hretain ⊢
      rw [List.filter_append, List.filter_append, hretain, ih]

/-- **What the position of the acknowledgement does to the retained output.** Nothing to
the text and the usage, and to the images nothing exactly if they keep their order. -/
theorem retained_coalesced (front rest : List Event) :
    (retained (coalesceEvents front ++ rest)).text = (retained (front ++ rest)).text
      ∧ (retained (coalesceEvents front ++ rest)).usage = (retained (front ++ rest)).usage
      ∧ ((retained (coalesceEvents front ++ rest)).imageGenerations = latestImages (front ++ rest)
        ↔ FirstSeenOrder front) := by
  have hplain : plainOf (coalesceEvents front ++ rest) = plainOf (front ++ rest) := by
    have hfront := plainOf_coalesceEvents front
    unfold plainOf at hfront ⊢
    rw [List.filter_append, List.filter_append, hfront]
  have hfold : ∀ events : List Event,
      (retained events).text = (retained (plainOf events)).text
        ∧ (retained events).usage = (retained (plainOf events)).usage :=
    fun events => foldl_add_plain events rfl rfl
  have hqueued := hfold (coalesceEvents front ++ rest)
  have hdirect := hfold (front ++ rest)
  rw [hplain] at hqueued
  refine ⟨hqueued.1.trans hdirect.1.symm, hqueued.2.trans hdirect.2.symm, ?_⟩
  rw [retained_images]
  unfold latestImages FirstSeenOrder
  have hsplit : ∀ front rest : List Event, imagesOf (front ++ rest)
      = imagesOf front ++ imagesOf rest := fun _ _ => List.filterMap_append
  rw [hsplit, hsplit, imagesOf_coalesceEvents]
  exact Latest.latest_coalesced_append (imagesOf front) (imagesOf rest)

theorem foldl_concat (front rest : List Event) :
    rest.foldl (fun events event => events ++ [event]) front = front ++ rest := by
  induction rest generalizing front with
  | nil => exact (List.append_nil front).symm
  | cons event rest ih => rw [List.foldl_cons, ih, List.append_assoc]; rfl

theorem coalesceEvents_length_le (events : List Event) :
    (coalesceEvents events).length ≤ events.length := by
  induction events using List.reverseRecOn with
  | nil => exact Nat.le_refl 0
  | append_singleton events event ih =>
      have hretain : (Coalesce.retainOthers Event.imageId event (coalesceEvents events)).length
          ≤ (coalesceEvents events).length := by
        unfold Coalesce.retainOthers
        cases event.imageId with
        | none => exact Nat.le_refl _
        | some imageId => exact List.length_filter_le ..
      rw [coalesceEvents_concat]
      unfold Coalesce.push
      rw [List.length_append, List.length_append, List.length_singleton]
      omega

end Retained

end Vergerail
