import Professord.Inference.Budget
import Professord.Worker.RunJob

/-!
# Overflow — the reason that a failing job is left with

Every failing exit of `inference_chat` and `inference_complete` stores `context_overflow` or
`backend_error`; `jobOverflows` says from the inputs alone which exits are the former.
-/

namespace Professord

open CText

variable {σ χ ω : Type}

/-! ## Prompts that do not fit -/

section Conditions

variable (L : Llama σ χ) (eng : Engine) (fuel : Nat) (params : SampleParams) (env : RunEnv)

/-- The prompt has too many tokens, leaves no room for an answer, or finds no room in the KV
memory (a result 1 of `llama_decode`). -/
def promptOverflows (prompt : Bytes) (ctx : σ) : Prop :=
  let nRequired := (L.tokenize (cstr prompt) 0).1
  nRequired ≠ 0 ∧ tokenBufferSize nRequired ≥ eng.nCtx ∨
    ∃ t, promptTokens L eng env prompt = some t ∧
      (maxGen eng params t.1 ≤ 0 ∨
        (decodePrompt L eng.nBatch t.2 t.1 fuel 0 (L.memoryClear ctx) []).ended = some 1)

/-- The rendered messages are over the limit; the fallback from a template is not checked. -/
def renderedTooLong (messages : List ChatMessage) (allocs : Allocs) : Prop :=
  if eng.useChatmlFallback = true then
    allocs.chatml = true ∧ wrap32 (chatmlText messages).length > profMaxPromptBytes
  else
    allocs.messages = true ∧
      (L.applyTemplate (messages.map fun m => (m.role.text, m.content.text)) 0).1 >
        profMaxPromptBytes

def jobOverflows (job : WorkerJob) (ctx : σ) : Prop :=
  -- only a non-streaming job needs a response buffer first
  (job.stream = true ∨ env.allocs.response = true) ∧
    match job.type with
    | .chat =>
        renderedTooLong L eng (job.chatReq.messages.getD []) env.allocs ∨
          ∃ text, renderChat L eng (job.chatReq.messages.getD []) env.allocs = .prompt text ∧
            promptOverflows L eng fuel job.params env text ctx
    | .completion => promptOverflows L eng fuel job.params env job.compReq.prompt.text ctx

end Conditions

/-- The reason of a failure that is an overflow exactly if `P`. -/
def ReasonFor (P : Prop) (reason : FinishReason) : Prop :=
  P ∧ reason = .contextOverflow ∨ ¬ P ∧ reason = .backendError

/-- Rendering fails for a reason that is an overflow exactly if `P`, and not at all if `P` does not
let it. -/
def Rendered.ReasonFor (P : Prop) : Rendered → Prop
  | .failed reason => Professord.ReasonFor P reason
  | .prompt _ => ¬ P

theorem ReasonFor.congr {P Q : Prop} {reason : FinishReason} (h : ReasonFor P reason)
    (hPQ : P ↔ Q) : ReasonFor Q reason := by
  rwa [ReasonFor, ← hPQ]

/-! ## The exits of `inference_complete` -/

section Exits

variable (L : Llama σ χ) (eng : Engine) (fuel : Nat) (params : SampleParams) (env : RunEnv)
  (cb : TokenCallback ω)

/-- Once the prompt is decoded, only a missing sampler chain is a failure. -/
theorem runGeneration_reason (nPrompt : Int) (rcs : List Int) (ctx : σ) (user : ω) {rc : Int}
    (hret : (runGeneration L eng params env cb nPrompt rcs ctx user).ret = some rc)
    (hrc : rc ≠ 0) :
    (runGeneration L eng params env cb nPrompt rcs ctx user).finish = .backendError := by
  unfold runGeneration at hret ⊢
  split
  · rfl
  · next hchain =>
      rw [if_neg hchain] at hret
      exact absurd (Option.some.inj hret).symm hrc

theorem runPrompt_reason (nPrompt : Int) (tokens : List Token) (ctx : σ) (user : ω) {rc : Int}
    (hret : (runPrompt L eng fuel params env cb nPrompt tokens ctx user).ret = some rc)
    (hrc : rc ≠ 0) :
    ReasonFor ((decodePrompt L eng.nBatch tokens nPrompt fuel 0 ctx []).ended = some 1)
      (runPrompt L eng fuel params env cb nPrompt tokens ctx user).finish := by
  unfold runPrompt at hret ⊢
  simp only at hret ⊢
  cases hended : (decodePrompt L eng.nBatch tokens nPrompt fuel 0 ctx []).ended with
  | none => simp [hended] at hret
  | some code =>
      simp only [hended] at hret ⊢
      -- zero goes on to the generation; of the other results 1 is "no KV slot"
      by_cases hcode : code = 0
      · rw [if_neg (not_not.2 hcode)] at hret ⊢
        refine .inr ⟨?_, runGeneration_reason L eng params env cb nPrompt _ _ user hret hrc⟩
        simp [hcode]
      · rw [if_pos hcode]
        by_cases hone : code = 1
        · exact .inl ⟨by rw [hone], by simp [Outcome.fail, hone]⟩
        · exact .inr ⟨by simpa using hone, by simp [Outcome.fail, hone]⟩

theorem inferenceComplete_reason (prompt : Bytes) (ctx : σ) (user : ω) {rc : Int}
    (hret : (inferenceComplete L eng fuel params env cb prompt ctx user).ret = some rc)
    (hrc : rc ≠ 0) :
    ReasonFor (promptOverflows L eng fuel params env prompt ctx)
      (inferenceComplete L eng fuel params env cb prompt ctx user).finish := by
  unfold promptOverflows promptTokens
  unfold inferenceComplete at hret ⊢
  simp only at hret ⊢
  -- the exits in the order of the source
  by_cases hempty : (L.tokenize (cstr prompt) 0).1 = 0
  · exact .inr ⟨by simp [hempty], by simp [hempty, Outcome.fail]⟩
  · simp only [hempty, if_false] at hret ⊢
    by_cases hmany : tokenBufferSize (L.tokenize (cstr prompt) 0).1 ≥ eng.nCtx
    · exact .inl ⟨.inl ⟨hempty, hmany⟩, by simp [hmany, Outcome.fail]⟩
    · simp only [hmany, if_false] at hret ⊢
      by_cases halloc : (!env.allocs.tokens) = true
      · exact .inr ⟨by simp [halloc], by simp [halloc, Outcome.fail]⟩
      · simp only [halloc, Bool.false_eq_true, if_false] at hret ⊢
        by_cases hfail : (L.tokenize (cstr prompt)
            (tokenBufferSize (L.tokenize (cstr prompt) 0).1)).1 < 0
        · exact .inr ⟨by simp [hfail], by simp [hfail, Outcome.fail]⟩
        · simp only [hfail, if_false] at hret ⊢
          by_cases hroom : maxGen eng params (L.tokenize (cstr prompt)
              (tokenBufferSize (L.tokenize (cstr prompt) 0).1)).1 ≤ 0
          · exact .inl ⟨.inr ⟨_, rfl, .inl hroom⟩, by simp [hroom, Outcome.fail]⟩
          · simp only [hroom, if_false] at hret ⊢
            refine (runPrompt_reason L eng fuel params env cb _ _ _ user hret hrc).congr ?_
            simp [hroom]

/-! ## The exits of `inference_chat` -/

theorem renderChatml_prompt {messages : List ChatMessage} {allocs : Allocs} {text : Bytes}
    (h : renderChatml messages allocs = .prompt text) :
    allocs.chatml = true ∧ text = chatmlText messages := by
  unfold renderChatml at h
  cases halloc : allocs.chatml with
  | false => simp [halloc, buildChatmlPrompt] at h
  | true =>
      rw [halloc, buildChatmlPrompt_eq] at h
      simp only at h
      split at h <;> cases h
      exact ⟨rfl, rfl⟩

/-- The limit on a rendered prompt of `flen` bytes. -/
theorem limited_reason {P : Prop} (hP : P) (flen : Int) (text : Bytes) :
    (if flen > profMaxPromptBytes then .failed .contextOverflow else Rendered.prompt text).ReasonFor
      (P ∧ flen > profMaxPromptBytes) := by
  by_cases hlong : flen > profMaxPromptBytes
  · rw [if_pos hlong]
    exact .inl ⟨⟨hP, hlong⟩, rfl⟩
  · rw [if_neg hlong]
    exact fun h => hlong h.2

/-- Rendering reports an overflow exactly if what it renders is over the limit. -/
theorem renderChat_reason (messages : List ChatMessage) (allocs : Allocs) :
    (renderChat L eng messages allocs).ReasonFor (renderedTooLong L eng messages allocs) := by
  have hlimit : (0 : Int) ≤ (profMaxPromptBytes : Int) := Int.natCast_nonneg profMaxPromptBytes
  unfold renderChat renderedTooLong
  by_cases hfallback : eng.useChatmlFallback = true
  · rw [if_pos hfallback, if_pos hfallback]
    cases hrender : renderChatml messages allocs with
    | failed reason =>
        refine .inr ⟨?_, renderChatml_failed hrender⟩
        rintro ⟨halloc, hlong⟩
        -- a text over the limit is not empty, so it is not this exit
        have hpos : wrap32 (chatmlText messages).length ≠ 0 := by
          intro hzero
          rw [hzero] at hlong
          exact absurd hlong (not_lt.2 hlimit)
        rw [renderChatml, halloc, buildChatmlPrompt_eq] at hrender
        simp only [if_neg hpos] at hrender
        cases hrender
    | prompt text =>
        have hchatml := renderChatml_prompt hrender
        rw [← hchatml.2]
        exact limited_reason hchatml.1 _ text
  · rw [if_neg hfallback, if_neg hfallback]
    by_cases hmsgs : (!allocs.messages) = true
    · rw [if_pos hmsgs]
      refine .inr ⟨fun h => ?_, rfl⟩
      simp [h.1] at hmsgs
    · have halloc : allocs.messages = true := by simpa using hmsgs
      rw [if_neg hmsgs]
      simp only [halloc, true_and]
      by_cases hnone : (L.applyTemplate (messages.map fun m => (m.role.text, m.content.text)) 0).1 ≤ 0
      · have hshort : ¬ (L.applyTemplate (messages.map fun m => (m.role.text, m.content.text)) 0).1 >
            profMaxPromptBytes := not_lt.2 (le_trans hnone hlimit)
        rw [if_pos hnone]
        cases hrender : renderChatml messages allocs with
        | failed reason => exact .inr ⟨hshort, renderChatml_failed hrender⟩
        | prompt text => exact hshort
      · rw [if_neg hnone]
        by_cases hlong : (L.applyTemplate (messages.map fun m => (m.role.text, m.content.text)) 0).1 >
            profMaxPromptBytes
        · rw [if_pos hlong]
          exact .inl ⟨hlong, rfl⟩
        · rw [if_neg hlong]
          by_cases hformatted : (!allocs.formatted) = true
          · rw [if_pos hformatted]
            exact .inr ⟨hlong, rfl⟩
          · rw [if_neg hformatted]
            split
            · exact .inr ⟨hlong, rfl⟩
            · exact hlong

/-! ## Jobs -/

theorem inferJob_reason (job : WorkerJob) (ctx : σ) (user : ω) {rc : Int}
    (hret : (inferJob L eng fuel env cb job ctx user).ret = some rc) (hrc : rc ≠ 0)
    (hbuffer : job.stream = true ∨ env.allocs.response = true) :
    ReasonFor (jobOverflows L eng fuel env job ctx)
      (inferJob L eng fuel env cb job ctx user).finish := by
  unfold jobOverflows
  unfold inferJob at hret ⊢
  cases htype : job.type with
  | completion =>
      simp only [htype] at hret ⊢
      refine (inferenceComplete_reason L eng fuel _ env cb _ ctx user hret hrc).congr ?_
      simp only [hbuffer, true_and]
  | chat =>
      simp only [htype, inferenceChat] at hret ⊢
      have hrendered := renderChat_reason L eng (job.chatReq.messages.getD []) env.allocs
      cases hrender : renderChat L eng (job.chatReq.messages.getD []) env.allocs with
      | failed reason =>
          simp only [hrender] at hrendered ⊢
          refine hrendered.congr ?_
          simp [hbuffer]
      | prompt text =>
          rw [hrender] at hrendered
          have hfits : ¬ renderedTooLong L eng (job.chatReq.messages.getD []) env.allocs := hrendered
          simp only [hrender] at hret ⊢
          refine (inferenceComplete_reason L eng fuel _ env cb _ ctx user hret hrc).congr ?_
          simp [hbuffer, hfits]

/-- A run that fails leaves a reason that is an overflow exactly if `P`, and the state `ERROR`. -/
def JobRun.Reasoned (P : Prop) (r : JobRun σ) : Prop :=
  ∀ rc, r.rc = some rc → rc ≠ 0 → ReasonFor P r.job.finishReason ∧ r.job.state = .error

theorem JobRun.reasoned_ofOutcome {P : Prop} (job : WorkerJob) (written : List Bytes)
    {o : Outcome σ ω} (h : ∀ rc, o.ret = some rc → rc ≠ 0 → ReasonFor P o.finish) :
    (JobRun.ofOutcome job written o).Reasoned P := by
  intro rc hret hrc
  have hended : o.ret = some rc := hret
  refine ⟨h rc hended hrc, ?_⟩
  simp [ofOutcome, hended, JobState.ofRc, hrc]

theorem runJob_reasoned (job : WorkerJob) (ctx : σ) :
    (runJob L eng fuel env job ctx).Reasoned (jobOverflows L eng fuel env job ctx) := by
  cases hstream : job.stream with
  | true =>
      rw [runJob_stream L eng fuel env ctx hstream]
      refine JobRun.reasoned_ofOutcome _ _ fun rc hret hrc => ?_
      exact inferJob_reason L eng fuel env _ { job with state := .running } ctx _ hret hrc
        (.inl hstream)
  | false =>
      cases hbuffer : env.allocs.response with
      | false =>
          rw [runJob_noBuffer L eng fuel env ctx hstream hbuffer]
          -- the buffer is missing before inference is called
          have hnot : ¬ jobOverflows L eng fuel env job ctx := by
            rintro ⟨h | h, _⟩
            · exact Bool.noConfusion (hstream.symm.trans h)
            · exact Bool.noConfusion (hbuffer.symm.trans h)
          exact fun rc _ _ => ⟨.inr ⟨hnot, rfl⟩, rfl⟩
      | true =>
          rw [runJob_buffer L eng fuel env ctx hstream hbuffer]
          refine JobRun.reasoned_ofOutcome _ _ fun rc hret hrc => ?_
          exact inferJob_reason L eng fuel env _
            { job with state := .running, response := accumInit job.params.maxTokens _ } ctx _ hret
            hrc (.inr hbuffer)

end Exits

end Professord
