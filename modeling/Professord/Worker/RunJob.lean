import Professord.Inference.Chat
import Professord.Server.Reply

/-!
# RunJob — one iteration of `worker_thread_func`, by itself

What the worker does with the job it has taken, up to the store of the final state, when the rest
of the server is reduced to the surroundings `RunEnv`.
-/

namespace Professord

open CText

/-! ## Token callbacks -/

/-- `stream_token_cb`: `ring_write` blocks until there is room or the job is cancelled, so all
that the run sees of the ring is whether the token was accepted. -/
def streamTokenCb (env : RunEnv) : TokenCallback (List Bytes) := fun i text written =>
  if env.cbCancelled i then (-1, written) else (0, written ++ [text])

/-- `accum_token_cb` -/
def accumCb (env : RunEnv) : TokenCallback AccumBuf := fun i text buf =>
  accumTokenCb buf text (env.cbCancelled i) false (env.allocs.growth i)

/-- Once it does not wait, `ring_write` accepts a token exactly if the job is not cancelled. -/
theorem ringWrite_settled {r : TokenRing} {text : Bytes} {cancel shutdown : Bool}
    (h : ringWrite r text cancel shutdown ≠ .waits) :
    (∃ r', ringWrite r text cancel shutdown = .stored r') ↔ (cancel || shutdown) = false := by
  unfold ringWrite at h ⊢
  cases cancel <;> cases shutdown <;> cases hfull : r.slots.isFull <;> simp_all

/-! ## The run -/

variable {σ χ ω : Type}

/-- The call of `inference_chat` or `inference_complete` for a job. -/
def inferJob (L : Llama σ χ) (eng : Engine) (fuel : Nat) (env : RunEnv) (cb : TokenCallback ω)
    (job : WorkerJob) (ctx : σ) (user : ω) : Outcome σ ω :=
  match job.type with
  | .chat =>
      inferenceChat L eng fuel job.params env cb (job.chatReq.messages.getD []) job.promptTokens
        job.completionTokens ctx user
  | .completion =>
      inferenceComplete L eng fuel job.params env cb job.compReq.prompt.text ctx user

/-- The job and the engine after a run, and what happened in it. -/
structure JobRun (σ : Type) where
  job : WorkerJob
  ctx : σ
  /-- `rc`, or `none` while inference has not ended -/
  rc : Option Int
  /-- the tokens accepted by the ring -/
  written : List Bytes
  pieces : List Bytes
  passed : List Bytes
  promptRcs : List Int
  tokenRcs : List Int

/-- Store what inference returned; once it has ended, also the final state. -/
def JobRun.ofOutcome (job : WorkerJob) (written : List Bytes) (o : Outcome σ ω) : JobRun σ where
  job :=
    { job with
      finishReason := o.finish
      promptTokens := o.promptTokens
      completionTokens := o.completionTokens
      ring := { job.ring with done := job.ring.done || (job.stream && o.ret.isSome) }
      state :=
        match o.ret with
        | none => .running
        | some rc => .ofRc rc }
  ctx := o.ctx
  rc := o.ret
  written := written
  pieces := o.pieces
  passed := o.passed
  promptRcs := o.promptRcs
  tokenRcs := o.tokenRcs

def runJob (L : Llama σ χ) (eng : Engine) (fuel : Nat) (env : RunEnv) (job : WorkerJob)
    (ctx : σ) : JobRun σ :=
  let job := { job with state := .running }
  if job.stream then
    let o := inferJob L eng fuel env (streamTokenCb env) job ctx []
    .ofOutcome job o.user o
  else
    let response := accumInit job.params.maxTokens env.allocs.response
    let job := { job with response := response }
    match response.buf with
    | none =>
        { job := { job with finishReason := .backendError, state := .ofRc (-1) }
          ctx := ctx
          rc := some (-1)
          written := []
          pieces := []
          passed := []
          promptRcs := []
          tokenRcs := [] }
    | some _ =>
        let o := inferJob L eng fuel env (accumCb env) job ctx response
        .ofOutcome { job with response := o.user } [] o

section Branches

variable (L : Llama σ χ) (eng : Engine) (fuel : Nat) (env : RunEnv) (ctx : σ) {job : WorkerJob}

theorem runJob_stream (h : job.stream = true) :
    let o := inferJob L eng fuel env (streamTokenCb env) { job with state := .running } ctx []
    runJob L eng fuel env job ctx = .ofOutcome { job with state := .running } o.user o :=
  if_pos h

/-- `malloc` of the response buffer fails. -/
theorem runJob_noBuffer (hplain : job.stream = false) (hmalloc : env.allocs.response = false) :
    runJob L eng fuel env job ctx =
      { job :=
          { job with
            response := accumInit job.params.maxTokens false
            finishReason := .backendError
            state := .ofRc (-1) }
        ctx := ctx
        rc := some (-1)
        written := []
        pieces := []
        passed := []
        promptRcs := []
        tokenRcs := [] } := by
  unfold runJob
  rw [if_neg (by simp [hplain]), hmalloc]
  rfl

theorem runJob_buffer (hplain : job.stream = false) (hmalloc : env.allocs.response = true) :
    let response := accumInit job.params.maxTokens true
    let o := inferJob L eng fuel env (accumCb env)
      { job with state := .running, response := response } ctx response
    runJob L eng fuel env job ctx =
      .ofOutcome { job with state := .running, response := o.user } [] o := by
  unfold runJob
  rw [if_neg (by simp [hplain]), hmalloc]
  rfl

end Branches

/-- The engine after a history of jobs. -/
def engineAfter (L : Llama σ χ) (eng : Engine) (fuel : Nat) (history : List (RunEnv × WorkerJob))
    (ctx : σ) : σ :=
  history.foldl (fun ctx run => (runJob L eng fuel run.1 run.2 ctx).ctx) ctx

end Professord
