import Professord.Worker.RunJob

/-!
# Failure — which failures of `llama_decode` are reported

A failure while the prompt is processed makes inference return -1, which the worker turns into
`ERROR` and the event loop into an error reply.  A failure after a generated token only ends the
generation loop: inference returns 0 and the job is `DONE`.
-/

namespace Professord

open CText

variable {σ χ ω : Type}

/-! ## What inference returns -/

/-- How the return code relates to the results of `llama_decode`. -/
structure Outcome.Codes (o : Outcome σ ω) : Prop where
  prompt : (∃ rc ∈ o.promptRcs, rc ≠ 0) → o.ret = some (-1)
  token : (∃ rc ∈ o.tokenRcs, rc ≠ 0) → o.ret = some 0

section Codes

variable (L : Llama σ χ) (eng : Engine) (fuel : Nat) (params : SampleParams) (env : RunEnv)
  (cb : TokenCallback ω)

theorem Outcome.codes_fail (ctx : σ) (user : ω) (n : Int) (rcs : List Int)
    (reason : FinishReason) : (Outcome.fail ctx user n rcs reason).Codes :=
  ⟨fun _ => rfl, by simp [Outcome.fail]⟩

theorem runGeneration_codes (nPrompt : Int) {rcs : List Int} (hrcs : ∀ rc ∈ rcs, rc = 0) (ctx : σ)
    (user : ω) : (runGeneration L eng params env cb nPrompt rcs ctx user).Codes := by
  unfold runGeneration
  split
  · exact Outcome.codes_fail ctx user nPrompt rcs .backendError
  · refine ⟨?_, fun _ => rfl⟩
    rintro ⟨rc, hmem, hrc⟩
    exact absurd (hrcs rc hmem) hrc

theorem runPrompt_codes (nPrompt : Int) (tokens : List Token) (ctx : σ) (user : ω) :
    (runPrompt L eng fuel params env cb nPrompt tokens ctx user).Codes := by
  have hrcs := decodePrompt_rcs L eng.nBatch tokens nPrompt fuel 0 ctx (List.forall_mem_nil _)
  unfold runPrompt
  simp only
  split
  · next hended =>
      rw [hended] at hrcs
      rcases hrcs with ⟨hzero, _⟩ | ⟨rc, _, hrc⟩
      · refine ⟨?_, by simp⟩
        rintro ⟨rc, hmem, hrc⟩
        exact absurd (hzero rc hmem) hrc
      · cases hrc
  · next rc hended =>
      split
      · exact Outcome.codes_fail _ user nPrompt _ _
      -- the loop ended with 0, so all its results are 0
      · next hzero =>
          rw [hended] at hrcs
          rcases hrcs with ⟨hall, _⟩ | ⟨rc', hne, hrc⟩
          · exact runGeneration_codes L eng params env cb nPrompt hall _ user
          · cases hrc
            exact absurd (not_not.1 hzero) hne

theorem inferenceComplete_codes (prompt : Bytes) (ctx : σ) (user : ω) :
    (inferenceComplete L eng fuel params env cb prompt ctx user).Codes := by
  rcases inferenceComplete_cases L eng fuel params env cb prompt ctx user with
    ⟨n, reason, heq⟩ | ⟨nPrompt, tokens, heq⟩
  · rw [heq]
    exact Outcome.codes_fail _ user n [] reason
  · rw [heq]
    exact runPrompt_codes L eng fuel params env cb nPrompt tokens _ user

theorem inferJob_codes (job : WorkerJob) (ctx : σ) (user : ω) :
    (inferJob L eng fuel env cb job ctx user).Codes := by
  unfold inferJob
  split
  · unfold inferenceChat
    split
    · exact ⟨fun _ => rfl, by simp⟩
    · exact inferenceComplete_codes L eng fuel _ env cb _ ctx user
  · exact inferenceComplete_codes L eng fuel _ env cb _ ctx user

end Codes

/-! ## What the client is told -/

/-- The two error replies of a finished non-streaming job. -/
def errorReplies : List Reply :=
  [errorReply 400 "Prompt too long for context window" "invalid_request",
    errorReply 500 "Inference failed" "backend_error"]

theorem finalReply_error (job : WorkerJob) : finalReply job .error ∈ errorReplies := by
  unfold finalReply errorReplies
  split
  · simp
  · simp

/-- A failed `llama_decode` makes inference return -1, the job end in `ERROR` and a non-streaming
client get an error reply. -/
def FailureReported (r : JobRun σ) : Prop :=
  (∃ rc ∈ r.promptRcs ++ r.tokenRcs, rc ≠ 0) →
    r.rc = some (-1) ∧ r.job.state = .error ∧
      (r.job.stream = false → finalReply r.job r.job.state ∈ errorReplies)

theorem JobRun.failureReported_ofOutcome (job : WorkerJob) (written : List Bytes)
    {o : Outcome σ ω} (h : o.Codes) :
    FailureReported (JobRun.ofOutcome job written o) ↔ ∀ rc ∈ o.tokenRcs, rc = 0 := by
  constructor
  · intro hreported rc hmem
    by_contra hrc
    have hzero : o.ret = some 0 := h.token ⟨rc, hmem, hrc⟩
    have hfailed : o.ret = some (-1) := (hreported ⟨rc, List.mem_append_right _ hmem, hrc⟩).1
    cases hzero.symm.trans hfailed
  · rintro htoken ⟨rc, hmem, hrc⟩
    -- only a failure in the prompt is left
    have hprompt : rc ∈ o.promptRcs := by
      rcases List.mem_append.1 hmem with hp | ht
      · exact hp
      · exact absurd (htoken rc ht) hrc
    have hfailed : o.ret = some (-1) := h.prompt ⟨rc, hprompt, hrc⟩
    have hstate : (JobRun.ofOutcome job written o).job.state = .error := by
      simp [ofOutcome, hfailed, JobState.ofRc]
    exact ⟨hfailed, hstate, fun _ => hstate ▸ finalReply_error _⟩

/-- A run reports the failures of `llama_decode` exactly if none of them comes after a generated
token. -/
theorem failureReported_iff (L : Llama σ χ) (eng : Engine) (fuel : Nat) (env : RunEnv)
    (job : WorkerJob) (ctx : σ) :
    FailureReported (runJob L eng fuel env job ctx) ↔
      ∀ rc ∈ (runJob L eng fuel env job ctx).tokenRcs, rc = 0 := by
  unfold runJob
  simp only
  split
  · exact JobRun.failureReported_ofOutcome _ _ (inferJob_codes L eng fuel env _ _ ctx _)
  · split
    · simp [FailureReported]
    · exact JobRun.failureReported_ofOutcome _ _ (inferJob_codes L eng fuel env _ _ ctx _)

namespace Sample

/-- Decodes the prompt, but not the token that it generates. -/
def failsAfterToken : Llama Ctx Unit :=
  byteModel (fun _ => 97) fun seq => if seq.length = 1 then 0 else 2

def plainJob : WorkerJob :=
  { workerJobInit with
    type := .completion
    compReq := { (default : CompletionRequest) with prompt := CBuf.snprintf (ascii "x") }
    params := { (default : SampleParams) with maxTokens := 16 } }

end Sample

/-- The reply to a failure after a generated token is a 200. -/
theorem not_failureReported :
    ¬ ∀ (L : Llama Sample.Ctx Unit) (eng : Engine) (fuel : Nat) (env : RunEnv) (job : WorkerJob)
        (ctx : Sample.Ctx), FailureReported (runJob L eng fuel env job ctx) := by
  intro hall
  have hreply := (hall Sample.failsAfterToken Sample.engine 2 Sample.calm Sample.plainJob default
    (by decide)).2.2 rfl
  revert hreply
  decide

end Professord
