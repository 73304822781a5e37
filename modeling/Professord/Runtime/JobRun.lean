import Mathlib.Logic.Relation
import Professord.Runtime.System
import Professord.Worker.RunJob

/-!
# JobRun — the sequential run of a job is a run of the worker thread

`WorkerThread` lets inference do anything between two accesses to the job; `runJob` says what it
does.  For a non-streaming job whose flags do not change meanwhile, the record that `runJob`
computes is the one that the worker's steps lead to.
-/

namespace Professord

open GuardedSystem

variable {σ χ ω : Type}

/-! ## What inference does to the data of its callback -/

/-- The data of the callback is only changed by calls of the callback. -/
abbrev CallbackSteps (cb : TokenCallback ω) : ω → ω → Prop :=
  Relation.ReflTransGen fun u u' => ∃ i text, u' = (cb i text u).2

section Callback

variable (L : Llama σ χ) (eng : Engine) (fuel : Nat) (params : SampleParams) (env : RunEnv)
  (cb : TokenCallback ω)

theorem passToken_callback (i : Nat) (token : Token) (piece : Bytes) (g : GenState σ χ ω) :
    (passToken L cb i token piece g).2.user = (cb i piece g.user).2 := by
  unfold passToken
  simp only
  split
  · rfl
  · split <;> rfl

theorem genStep_callback (i : Nat) (g : GenState σ χ ω) :
    CallbackSteps cb g.user (genStep L params env cb i g).2.user := by
  rcases genStep_cases i g with ⟨reason, chain, hcase⟩ | ⟨token, chain, piece, hcase⟩
  · rw [hcase]
  · rcases hcase with ⟨_, _, hcase⟩ | ⟨_, hcase⟩
    · rw [hcase]
      exact .refl
    · rw [hcase, passToken_callback]
      exact .single ⟨i, piece, rfl⟩

theorem generate_callback (n i : Nat) (g : GenState σ χ ω) :
    CallbackSteps cb g.user (generate L params env cb n i g).2.user := by
  refine generate_rule (P := fun g' => CallbackSteps cb g.user g'.user)
    (Q := fun _ g' => CallbackSteps cb g.user g'.user) ?_ ?_ (fun _ h => h) n i .refl
  · intro i g₁ g₂ h hs
    have hstep := genStep_callback L params env cb i g₁
    rw [hs] at hstep
    exact h.trans hstep
  · intro i g₁ reason g₂ h hs
    have hstep := genStep_callback L params env cb i g₁
    rw [hs] at hstep
    exact h.trans hstep

theorem inferenceComplete_callback (prompt : Bytes) (ctx : σ) (user : ω) :
    CallbackSteps cb user (inferenceComplete L eng fuel params env cb prompt ctx user).user := by
  rcases inferenceComplete_cases L eng fuel params env cb prompt ctx user with
    ⟨n, reason, heq⟩ | ⟨nPrompt, tokens, heq⟩
  · rw [heq]
    exact .refl
  · rw [heq]
    unfold runPrompt
    simp only
    split
    · exact .refl
    · split
      · exact .refl
      · unfold runGeneration
        split
        · exact .refl
        · exact generate_callback L params env cb _ 0 (genStart L params _ user)

theorem inferJob_callback (job : WorkerJob) (ctx : σ) (user : ω) :
    CallbackSteps cb user (inferJob L eng fuel env cb job ctx user).user := by
  unfold inferJob
  split
  · unfold inferenceChat
    split
    · exact .refl
    · exact inferenceComplete_callback L eng fuel _ env cb _ ctx user
  · exact inferenceComplete_callback L eng fuel _ env cb _ ctx user

end Callback

/-! ## The worker's steps -/

/-- Steps of the worker alone. -/
abbrev WorkerSteps : State → State → Prop :=
  Relation.ReflTransGen fun s s' => ∃ ch, s.workerStep ch = some s'

theorem WorkerSteps.reachable {srv : Server} {s s' : State} (h : WorkerSteps s s')
    (hr : (system srv).Reachable Free s) : (system srv).Reachable Free s' := by
  induction h with
  | refl => exact hr
  | tail _ hs ih =>
      rcases hs with ⟨ch, hs⟩
      exact ih.step (a := .worker ch) trivial hs

/-- The worker is generating for a non-streaming job `j` whose record is `job`. -/
structure Generating (s : State) (j : JobId) (job : WorkerJob) (shutdown : Bool) : Prop where
  worker : s.worker = .generating j 0
  record : s.jobs j = job
  plain : job.stream = false
  shutdown : s.shutdownRequested = shutdown

namespace Generating

variable {s : State} {j : JobId} {job : WorkerJob} {shutdown : Bool}

/-- One call of `accum_token_cb`. -/
theorem piece (h : Generating s j job shutdown) {env : RunEnv}
    (hflag : ∀ i, env.cbCancelled i = (job.cancel || shutdown)) (i : Nat) (text : Bytes) :
    ∃ s', WorkerSteps s s' ∧
      Generating s' j { job with response := (accumCb env i text job.response).2 } shutdown := by
  have hplain : (s.jobs j).stream = false := by
    rw [h.record]
    exact h.plain
  have hcb : accumCb env i text job.response =
      accumTokenCb job.response text job.cancel shutdown (env.allocs.growth i) := by
    simp [accumCb, accumTokenCb, hflag]
  have hstep : s.workerStep (.piece text (env.allocs.growth i)) =
      some (((s.touch j).updJob j fun r =>
        { r with response := (accumTokenCb r.response text r.cancel s.shutdownRequested
            (env.allocs.growth i)).2 }).goWorker (.generating j 0)) := by
    simp [State.workerStep, h.worker, hplain]
  refine ⟨_, .single ⟨_, hstep⟩, rfl, ?_, h.plain, ?_⟩
  · simp [h.record, h.shutdown, hcb]
  · simpa using h.shutdown

/-- All calls of `accum_token_cb` that inference makes. -/
theorem pieces (h : Generating s j job shutdown) {env : RunEnv}
    (hflag : ∀ i, env.cbCancelled i = (job.cancel || shutdown)) {buf : AccumBuf}
    (hbuf : CallbackSteps (accumCb env) job.response buf) :
    ∃ s', WorkerSteps s s' ∧ Generating s' j { job with response := buf } shutdown := by
  induction hbuf with
  | refl => exact ⟨s, .refl, h⟩
  | tail _ hcb ih =>
      rcases hcb with ⟨i, text, rfl⟩
      rcases ih with ⟨s₁, hs₁, hg₁⟩
      rcases hg₁.piece hflag i text with ⟨s₂, hs₂, hg₂⟩
      exact ⟨s₂, hs₁.trans hs₂, hg₂⟩

/-- Inference writes its results and returns, and the worker stores the final state. -/
theorem finish (h : Generating s j job shutdown) (reason : FinishReason) (pt ct rc : Int) :
    ∃ s', WorkerSteps s s' ∧ s'.worker = .logDelivery j ∧
      s'.jobs j =
        { job with
          finishReason := reason
          promptTokens := pt
          completionTokens := ct
          state := .ofRc rc } := by
  have hplain : (s.jobs j).stream = false := by
    rw [h.record]
    exact h.plain
  -- the out-parameters, the return, and the store under the mutex
  let s₁ := ((s.touch j).updJob j fun r =>
    { r with finishReason := reason, promptTokens := pt, completionTokens := ct }).goWorker
      (.generating j 0)
  have hinfer : s.workerStep (.infer reason pt ct) = some s₁ := by
    simp [State.workerStep, h.worker, s₁]
  have hret : s₁.workerStep (.ret rc) = some ((s₁.touch j).goWorker (.storeState j rc)) := by
    simp [State.workerStep, s₁, hplain]
  let s₂ := (s₁.touch j).goWorker (.storeState j rc)
  have hstore : s₂.workerStep .go = some (((s₂.touch j).updJob j fun r =>
      { r with state := JobState.ofRc rc }).goWorker (.logDelivery j)) := by
    simp [State.workerStep, s₂]
  refine ⟨_, .tail (.tail (.single ⟨_, hinfer⟩) ⟨_, hret⟩) ⟨_, hstore⟩, rfl, ?_⟩
  simp [s₂, s₁, h.record]

end Generating

/-! ## The run -/

/-- The ring of a non-streaming job stays as it is. -/
theorem JobRun.ofOutcome_job {job : WorkerJob} (hplain : job.stream = false)
    (written : List Bytes) {o : Outcome σ ω} {rc : Int} (hret : o.ret = some rc) :
    (JobRun.ofOutcome job written o).job =
      { job with
        finishReason := o.finish
        promptTokens := o.promptTokens
        completionTokens := o.completionTokens
        state := .ofRc rc } := by
  have hdone : (job.ring.done || (job.stream && o.ret.isSome)) = job.ring.done := by
    rw [hplain, Bool.false_and, Bool.or_false]
  simp only [JobRun.ofOutcome, hdone]
  rw [hret]

section Run

variable (L : Llama σ χ) (eng : Engine) (fuel : Nat) (env : RunEnv) (ctx : σ)

/-- The worker's steps lead to the record that the sequential run computes. -/
theorem runJob_workerSteps {s : State} {j : JobId} {rc : Int} (hw : s.worker = .setRunning j)
    (hplain : (s.jobs j).stream = false)
    (hflag : ∀ i, env.cbCancelled i = ((s.jobs j).cancel || s.shutdownRequested))
    (hrc : (runJob L eng fuel env (s.jobs j) ctx).rc = some rc) :
    ∃ s', WorkerSteps s s' ∧ s'.worker = .logDelivery j ∧
      s'.jobs j = (runJob L eng fuel env (s.jobs j) ctx).job := by
  let s₁ := ((s.touch j).updJob j fun r => { r with state := .running }).goWorker (.dispatch j)
  have hrun : s.workerStep .go = some s₁ := by
    simp [State.workerStep, hw, s₁]
  cases hmalloc : env.allocs.response with
  | false =>
      let s₂ := ((s₁.touch j).updJob j fun r =>
        { r with
          response := accumInit r.params.maxTokens false
          finishReason := .backendError }).goWorker (.storeState j (-1))
      have hfail : s₁.workerStep .mallocFails = some s₂ := by
        simp [State.workerStep, s₁, s₂, hplain]
      have hstore : s₂.workerStep .go = some (((s₂.touch j).updJob j fun r =>
          { r with state := JobState.ofRc (-1) }).goWorker (.logDelivery j)) := by
        simp [State.workerStep, s₂]
      refine ⟨_, .tail (.tail (.single ⟨_, hrun⟩) ⟨_, hfail⟩) ⟨_, hstore⟩, rfl, ?_⟩
      rw [runJob_noBuffer L eng fuel env ctx hplain hmalloc]
      simp [s₂, s₁]
  | true =>
      rw [runJob_buffer L eng fuel env ctx hplain hmalloc] at hrc ⊢
      let response := accumInit (s.jobs j).params.maxTokens true
      let job : WorkerJob := { s.jobs j with state := .running, response := response }
      let s₂ := ((s₁.touch j).updJob j fun r =>
        { r with response := accumInit r.params.maxTokens true }).goWorker (.generating j 0)
      have hdispatch : s₁.workerStep .go = some s₂ := by
        simp [State.workerStep, s₁, s₂, hplain]
      have hgen : Generating s₂ j job s.shutdownRequested := by
        refine ⟨rfl, ?_, hplain, rfl⟩
        simp [s₂, s₁, job, response]
      -- the tokens, in the order in which inference hands them to the callback
      have hcalls := inferJob_callback L eng fuel env (accumCb env) job ctx response
      rcases hgen.pieces hflag hcalls with ⟨s₃, hs₃, hg₃⟩
      let o := inferJob L eng fuel env (accumCb env) job ctx response
      have hret : o.ret = some rc := hrc
      rcases hg₃.finish o.finish o.promptTokens o.completionTokens rc with ⟨s₄, hs₄, hw₄, hj₄⟩
      have hpath : WorkerSteps s s₂ := .tail (.single ⟨_, hrun⟩) ⟨_, hdispatch⟩
      refine ⟨s₄, (hpath.trans hs₃).trans hs₄, hw₄, ?_⟩
      have hplain₃ : ({ job with response := o.user } : WorkerJob).stream = false := hplain
      rw [hj₄]
      exact (JobRun.ofOutcome_job hplain₃ [] hret).symm

/-- What `runJob` computes is a state that the running server reaches. -/
theorem runJob_reachable {srv : Server} {s : State} {j : JobId} {rc : Int}
    (hr : (system srv).Reachable Free s) (hw : s.worker = .setRunning j)
    (hplain : (s.jobs j).stream = false)
    (hflag : ∀ i, env.cbCancelled i = ((s.jobs j).cancel || s.shutdownRequested))
    (hrc : (runJob L eng fuel env (s.jobs j) ctx).rc = some rc) :
    ∃ s', (system srv).Reachable Free s' ∧ s'.worker = .logDelivery j ∧
      s'.jobs j = (runJob L eng fuel env (s.jobs j) ctx).job := by
  rcases runJob_workerSteps L eng fuel env ctx hw hplain hflag hrc with ⟨s', hsteps, hw', hj'⟩
  exact ⟨s', hsteps.reachable hr, hw', hj'⟩

end Run

end Professord
