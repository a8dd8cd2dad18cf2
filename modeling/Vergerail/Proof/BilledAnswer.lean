import Vergerail.Bin.UpagentProvider

/-!
# A billed image against the answer of the provider

The endpoint charges for an image once it answered, or may have. From then on the
caller must learn one of three things: the image, that the outcome is to be resolved, or
that a valid image was over its own cap.

The operation phase keeps that on its own. What can spoil it is the shutdown: the match
that combines the phases prefers the failure of the shutdown to a successful operation,
and the codes of a shutdown failure say nothing about the image. A quiet teardown is
one whose failure, if there is one, happens to be classified as unresolved.
-/

namespace Vergerail

namespace UpagentProvider

variable {Model : Type} {answers : Answers Model} {request : ProviderRequest}

/-- The operation reached `Codex::generate_image`, and what came of it is billed. -/
def Billed (answers : Answers Model) (request : ProviderRequest) : Prop :=
  answers.clock = true ∧ answers.runtime = .ok () ∧ answers.connect = .ok () ∧
    answers.remainingAtOperation ≠ 0 ∧
    ∃ prompt, request.prompt = some prompt ∧
      (answers.generateImage (directImageRequest request prompt)).billed = true

/-- `Codex::generate_image` answers a lost result with `OutcomeUnknown`. -/
def LostIsUnknown (answers : Answers Model) : Prop :=
  ∀ direct error, (answers.generateImage direct).billed = true →
    (answers.generateImage direct).result = .error error → error.kind = .outcomeUnknown

/-- The image that `Codex::generate_image` answered passes `provider_image_from_response`. -/
def Fits (answers : Answers Model) (request : ProviderRequest) : Prop :=
  ∃ prompt generated image, request.prompt = some prompt ∧
    (answers.generateImage (directImageRequest request prompt)).result = .ok generated ∧
    providerImageFromResponse generated request.maximumResponseBytes = .ok image

/-- The image that `Codex::generate_image` answered is refused there. -/
def OverCap (answers : Answers Model) (request : ProviderRequest) : Prop :=
  ∃ prompt generated error, request.prompt = some prompt ∧
    (answers.generateImage (directImageRequest request prompt)).result = .ok generated ∧
    providerImageFromResponse generated request.maximumResponseBytes = .error error

/-- The answer does not hide a billed image. -/
def Truthful (answers : Answers Model) (request : ProviderRequest) : Prop :=
  (∃ response, asyncRunRequest answers request = .ok (.image response)) ∨
    ∃ error, asyncRunRequest answers request = .error error ∧
      (error.code = "resolution_required" ∨
        error.code = "resource_limit" ∧ OverCap answers request)

/-- The kinds that are classified as unresolved. -/
def Unresolved (kind : ErrorKind) : Prop :=
  kind = .outcomeUnknown ∨ kind = .disconnected ∨ kind = .consumerLagged

/-- The shutdown starts before the deadline and ends in what is left of it, without an
error or with one that is classified as unresolved. -/
def QuietTeardown (answers : Answers Model) : Prop :=
  answers.remainingAtShutdown ≠ 0 ∧
    ∃ result, answers.shutdown answers.remainingAtShutdown = some result ∧
      ∀ error, result = .error error → Unresolved error.kind

/-! ## The phases -/

theorem classify_eq_resolution_iff (kind : ErrorKind) :
    classify kind = "resolution_required" ↔ Unresolved kind := by
  cases kind <;> simp [classify, Unresolved]

@[simp] theorem failure_code (code message : String) (retryable : Bool) :
    (failure code message retryable).code = code := rfl

/-- A refused image is refused with a resource limit. -/
theorem providerImage_error {generated : DirectImageResponse} {cap : Nat}
    {error : ProviderFailure} (h : providerImageFromResponse generated cap = .error error) :
    error.code = "resource_limit" := by
  unfold providerImageFromResponse at h
  split at h
  · exact Except.error.inj h ▸ rfl
  · split at h
    · exact Except.error.inj h ▸ rfl
    · cases h

/-- A billed request that got as far as its two phases. -/
theorem asyncRunRequest_of_billed (h : Billed answers request) :
    asyncRunRequest answers request
      = combine (runOperation answers request) (runShutdown answers) := by
  obtain ⟨hclock, hruntime, hconnect, -⟩ := h
  simp [asyncRunRequest, hclock, hruntime, hconnect]

/-- What the operation phase of a billed image request answers: the image, or a failure
that tells the truth about it. -/
theorem runOperation_of_billed (himage : request.operation = .imageGenerate)
    (hlost : LostIsUnknown answers) (h : Billed answers request) :
    (Fits answers request ∧ ∃ response, runOperation answers request = .ok (.image response)) ∨
      (¬ Fits answers request ∧ ∃ error, runOperation answers request = .error error ∧
        (error.code = "resolution_required" ∨
          error.code = "resource_limit" ∧ OverCap answers request)) := by
  obtain ⟨-, -, -, hleft, prompt, hprompt, hbilled⟩ := h
  have hrun : runOperation answers request = runImageGeneration answers request := by
    simp [runOperation, remainingProviderTimeout, hleft, himage]
  rw [hrun]
  cases hresult : (answers.generateImage (directImageRequest request prompt)).result with
  | error error =>
    have hkind := hlost _ error hbilled hresult
    refine .inr ⟨?_, classifyVergerailError error, ?_, .inl ?_⟩
    · rintro ⟨prompt', generated, image, hprompt', hok, -⟩
      rw [hprompt] at hprompt'
      obtain rfl := Option.some.inj hprompt'
      rw [hresult] at hok
      cases hok
    · simp [runImageGeneration, hprompt, hresult]
    · simp [classifyVergerailError, classify, hkind]
  | ok generated =>
    cases himg : providerImageFromResponse generated request.maximumResponseBytes with
    | error error =>
      have hcode := providerImage_error himg
      refine .inr ⟨?_, error, ?_, .inr ⟨hcode, prompt, generated, error, hprompt, hresult,
        himg⟩⟩
      · rintro ⟨prompt', generated', image, hprompt', hok, hfits⟩
        rw [hprompt] at hprompt'
        obtain rfl := Option.some.inj hprompt'
        rw [hresult] at hok
        obtain rfl := Except.ok.inj hok
        rw [himg] at hfits
        cases hfits
      · simp [runImageGeneration, hprompt, hresult, himg]
    | ok image =>
      refine .inl ⟨⟨prompt, generated, image, hprompt, hresult, himg⟩, ?_⟩
      simp [runImageGeneration, hprompt, hresult, himg]

/-- A shutdown that is not quiet fails with a code of its own. -/
theorem runShutdown_spec :
    (QuietTeardown answers ∧ (runShutdown answers = .ok () ∨
      ∃ error, runShutdown answers = .error error ∧ error.code = "resolution_required")) ∨
    (¬ QuietTeardown answers ∧ ∃ error, runShutdown answers = .error error ∧
      error.code ≠ "resolution_required" ∧ error.code ≠ "resource_limit") := by
  by_cases hleft : answers.remainingAtShutdown = 0
  · refine .inr ⟨fun h => h.1 hleft, ?_⟩
    simp only [runShutdown, remainingProviderTimeout, hleft, if_true]
    cases answers.shutdown providerTeardownBudget with
    | none => exact ⟨_, rfl, by simp, by simp⟩
    | some result =>
      cases result with
      | ok _ => exact ⟨_, rfl, by simp, by simp⟩
      | error error => exact ⟨_, rfl, by simp, by simp⟩
  · simp only [runShutdown, remainingProviderTimeout, hleft, if_false]
    cases hanswer : answers.shutdown answers.remainingAtShutdown with
    | none =>
      refine .inr ⟨?_, _, rfl, by simp, by simp⟩
      rintro ⟨-, result, hresult, -⟩
      rw [hanswer] at hresult
      cases hresult
    | some result =>
      cases result with
      | ok _ =>
        refine .inl ⟨⟨hleft, _, hanswer, ?_⟩, .inl rfl⟩
        rintro error ⟨⟩
      | error error =>
        have hcode : (classifyVergerailError error).code = classify error.kind := rfl
        by_cases hkind : Unresolved error.kind
        · refine .inl ⟨⟨hleft, _, hanswer, ?_⟩, .inr ⟨_, rfl, ?_⟩⟩
          · rintro error' ⟨⟩
            exact hkind
          · rw [hcode, classify_eq_resolution_iff]
            exact hkind
        · refine .inr ⟨?_, _, rfl, ?_, ?_⟩
          · rintro ⟨-, result, hresult, hquiet⟩
            rw [hanswer] at hresult
            obtain rfl := Option.some.inj hresult
            exact hkind (hquiet error rfl)
          · rw [hcode, ne_eq, classify_eq_resolution_iff]
            exact hkind
          · rw [hcode]
            cases error.kind <;> simp [classify]

/-- **A billed image is told truthfully exactly when it is lost, over the cap, or followed
by a quiet teardown.** -/
theorem billed_image_truthful_iff (answers : Answers Model) (request : ProviderRequest)
    (himage : request.operation = .imageGenerate) (hlost : LostIsUnknown answers) :
    (Billed answers request → Truthful answers request) ↔
      (Billed answers request → Fits answers request → QuietTeardown answers) := by
  refine forall_congr' fun hbilled => ?_
  unfold Truthful
  rw [asyncRunRequest_of_billed hbilled]
  rcases runOperation_of_billed himage hlost hbilled with ⟨hfits, response, hop⟩ |
      ⟨hfits, error, hop, htruth⟩
  · simp only [hop, hfits, forall_const]
    rcases @runShutdown_spec Model answers with ⟨hquiet, hdown | ⟨error, hdown, hcode⟩⟩ |
        ⟨hquiet, error, hdown, hcode, hlimit⟩
    · simp [combine, hdown, hquiet]
    · simp [combine, hdown, hquiet, hcode]
    · simp [combine, hdown, hquiet, hcode, hlimit]
  · simp only [hfits, false_imp_iff, iff_true, hop]
    refine .inr ?_
    cases runShutdown answers with
    | ok _ => exact ⟨error, rfl, htruth⟩
    | error shutdownError =>
      refine ⟨_, rfl, ?_⟩
      rw [failure_code]
      exact htruth

/-! ## A paid image and an expired deadline -/

/-- A request for an image. -/
def squarePng : ProviderRequest where
  requestId := "request-1"
  operation := .imageGenerate
  timeoutMs := 1000
  maximumResponseBytes := 1024
  prompt := some "make a square png"
  imageOptions := none

/-- A PNG of one pixel. -/
def onePixel : DirectImageResponse where
  base64 := "iVBORw0KGgoAAAANSUhEUgAAAAEAAAABCAYAAAAfFcSJAAAADUlEQVR42mNkYPhfDwAChwGA60e6kgAAAABJRU5ErkJggg=="
  mediaType := "image/png"
  byteLength := 70
  width := 1
  height := 1
  transparentBackground := none
  alphaCapable := true

/-- The endpoint answers the image, and `remainingAtShutdown` is left then. -/
def paid (remainingAtShutdown : Nat) : Answers Unit where
  clock := true
  runtime := .ok ()
  connect := .ok ()
  remainingAtOperation := 900
  modelTurn _ := none
  generateImage _ := ⟨.ok onePixel, true⟩
  remainingAtShutdown
  shutdown _ := some (.ok ())

theorem billed_paid (remaining : Nat) : Billed (paid remaining) squarePng :=
  ⟨rfl, rfl, rfl, by simp [paid], "make a square png", rfl, rfl⟩

theorem lostIsUnknown_paid (remaining : Nat) : LostIsUnknown (paid remaining) := by
  intro direct error _ h
  cases h

/-- With time left the paid image is told truthfully. -/
theorem billed_image_truthful_in_time : Truthful (paid 100) squarePng :=
  (billed_image_truthful_iff (paid 100) squarePng rfl (lostIsUnknown_paid 100)).mpr
    (fun _ _ => ⟨by simp [paid], .ok (), rfl, fun _ h => by cases h⟩) (billed_paid 100)

/-- After the deadline a paid image is answered with a timeout, although the teardown
succeeds. -/
theorem paid_image_reported_as_timeout :
    LostIsUnknown (paid 0) ∧ Billed (paid 0) squarePng ∧
      (∃ error, asyncRunRequest (paid 0) squarePng = .error error ∧ error.code = "timeout") ∧
      ¬ Truthful (paid 0) squarePng := by
  have htimeout : asyncRunRequest (paid 0) squarePng =
      .error (failure "timeout" "provider deadline expired" false) := rfl
  refine ⟨lostIsUnknown_paid 0, billed_paid 0, ⟨_, htimeout, rfl⟩, ?_⟩
  rintro (⟨response, h⟩ | ⟨error, h, hcode⟩)
  · rw [htimeout] at h
    cases h
  · rw [htimeout] at h
    obtain rfl := Except.error.inj h
    rcases hcode with hcode | ⟨hcode, -⟩ <;> simp at hcode

end UpagentProvider

end Vergerail
