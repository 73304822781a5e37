import Professord.Runtime.Wakeups
import Professord.Worker.Failure
import Professord.Worker.Overflow

/-!
# ErrorReport — what the client of a failed job is told

The non-streaming branch of `drain_stream_ring` turns `JOB_STATE_ERROR` into the documented error;
the streaming branch has sent its 200 header before the job was run, and closes the stream of a
failed job like that of any other.  Without the text of the error, `send_error` sends a plain 500.
-/

namespace Professord

open GuardedSystem CText

/-! ## The documented error -/

/-- The connection and the job whose last reply or chunk the handler sends in its next step. -/
def MainPc.finalises : MainPc → Option (ConnId × JobId)
  | .drainReply c j _ | .drainFinal c j => some (c, j)
  | _ => none

/-- Job `j` has ended in `JOB_STATE_ERROR`, or the worker is about to store that. -/
def State.failed (s : State) (j : JobId) : Prop :=
  (s.jobs j).state = .error ∨ ∃ rc, rc ≠ 0 ∧ s.worker = .storeState j rc

/-- `invalid_request` for a prompt that is too long, otherwise `backend_error`. -/
def documentedError (reason : FinishReason) : Reply :=
  if reason = .contextOverflow then
    errorReply 400 "Prompt too long for context window" "invalid_request"
  else
    errorReply 500 "Inference failed" "backend_error"

def Stats.errors (st : Stats) : List Int :=
  [st.err400, st.err401, st.err405, st.err503, st.err500]

/-- A step sends the documented error for job `j` on connection `c`, and counts it. -/
structure ErrorReported (s s' : State) (c : ConnId) (j : JobId) : Prop where
  reply : (s'.conns c).replies =
    (s.conns c).replies ++ [documentedError (s.jobs j).finishReason]
  counter : s'.stats.errors =
    (countError (documentedError (s.jobs j).finishReason).status s.stats).errors

/-- If the step finalises a failed job, it reports the error. -/
def reportsErrors (srv : Server) (s : State) (a : Action) : Prop :=
  ∀ s' env c j, s.act srv a = some s' → a = .main (.go env) → s.main.finalises = some (c, j) →
    s.failed j → ErrorReported s s' c j

/-- If the step finalises a failed job, that is not streaming, and the text of its error is made. -/
def failsPlain (s : State) (a : Action) : Prop :=
  ∀ env c j, a = .main (.go env) → s.main.finalises = some (c, j) → s.failed j →
    (s.jobs j).stream = false ∧ env.texts.error = true

theorem finalReply_failed {job : WorkerJob} {jstate : JobState} (h : jstate = .error) :
    finalReply job jstate = documentedError job.finishReason := by
  unfold finalReply documentedError
  by_cases hover : job.finishReason = .contextOverflow
  · simp [h, hover]
  · simp [h, hover]

theorem sentReply_documentedError (texts : JsonTexts) (reason : FinishReason) :
    sentReply texts (documentedError reason) =
      if texts.error then documentedError reason else ⟨500, .text "Internal error"⟩ := by
  unfold documentedError
  split <;> rfl

theorem countSent_documentedError (texts : JsonTexts) (reason : FinishReason) (st : Stats) :
    countSent texts (documentedError reason) st = countError (documentedError reason).status st := by
  unfold documentedError
  split <;> rfl

theorem documentedError_ne_text (reason : FinishReason) (status : Nat) (text : String) :
    (⟨status, .text text⟩ : Reply) ≠ documentedError reason := by
  unfold documentedError
  split <;> simp [errorReply]

/-! ## The state that the handler has loaded -/

/-- What `drain_stream_ring` has loaded is the state of the job. -/
def Loaded (s : State) : Prop :=
  ∀ c j jstate, s.main = .drainReply c j jstate →
    (s.jobs j).state = jstate ∧ jstate.isBusy = false

namespace State

variable {srv : Server} {s s' : State} {j : JobId}

theorem workerStep_state {ch : WorkerChoice} (h : s.workerStep ch = some s') :
    (s'.jobs j).state = (s.jobs j).state ∨ s.worker.stage = .busy j := by
  revert h
  fun_cases workerStep s ch <;> intro h <;> cases h
  case case4 k hpc =>
    by_cases hj : j = k
    · exact .inr (by simp [hpc, hj])
    · exact .inl (by simp [hj])
  case case22 k rc hpc =>
    by_cases hj : j = k
    · exact .inr (by simp [hpc, hj])
    · exact .inl (by simp [hj])
  all_goals
    left
    simp [leaveJob, freeJob, mgWakeup]
  all_goals
    split <;> simp_all

theorem mainGo_drainReply {env : HandlerEnv} {c : ConnId} {jstate : JobState}
    (h : s.mainGo srv env = some s') (hpc : s'.main = .drainReply c j jstate) :
    (s'.jobs j).state = jstate ∧ jstate.isBusy = false := by
  revert h
  fun_cases mainGo s srv env <;> intro h <;> cases h
  case case1 caller k hk =>
    rcases busyLoaded_main (s.touch k) caller (s.jobs k).state.isBusy env.texts with
      hmain | ⟨d, type, body, _, hmain⟩ <;>
      simp [hmain] at hpc
  case case2 d type body hd =>
    rcases allocJob_main s srv d type body env with hmain | hmain <;> simp [hmain] at hpc
  case case11 c k hk hdone =>
    simp only [goMain_main, MainPc.drainReply.injEq] at hpc
    obtain ⟨rfl, rfl, rfl⟩ := hpc
    exact ⟨rfl, by simpa using hdone⟩
  case case13 c k hk batch next =>
    simp only [goMain_main, next] at hpc
    split at hpc <;> cases hpc
  all_goals simp at hpc

end State

namespace Loaded

variable {srv : Server} {s s' : State} {a : Action}

theorem init : Loaded State.init := by
  intro c j jstate hpc
  simp [State.init] at hpc

theorem step (h : Loaded s) (hsound : Sound s) (hs : s.act srv a = some s') : Loaded s' := by
  intro c j jstate hpc
  cases a with
  | signal =>
      simp [State.act] at hs
      subst hs
      exact h c j jstate hpc
  | worker ch =>
      rw [(State.worker_frame hs).main] at hpc
      rcases h c j jstate hpc with ⟨hstate, hover⟩
      rcases State.workerStep_state (j := j) hs with hsame | hbusy
      · exact ⟨hsame.trans hstate, hover⟩
      · -- the state is stored before it is loaded as final
        have hrunning := (hsound.inv.busy j hbusy).2
        simp [jobFace, hstate, hover] at hrunning
  | main ch =>
      rcases State.mainStep_cases hs with ⟨env, rfl, hgo⟩ | ⟨hpoll, hev⟩
      · exact State.mainGo_drainReply hgo hpc
      · exact absurd (hev.frame hpoll).drains (by simp [hpc, MainPc.drains])

theorem of_reachable {G : State → Action → Prop} (h : (system srv).Reachable G s) : Loaded s :=
  h.invariant init fun _ _ _ hr hloaded _ hs => hloaded.step (Sound.of_reachable hr) hs

end Loaded

/-! ## One step -/

section Step

variable {srv : Server} {s s' : State} {env : HandlerEnv} {c : ConnId} {j : JobId}

/-- A failed job that does not stream is finalised with the error, if its text is made. -/
theorem drainReply_reported_iff {jstate : JobState} (hsound : Sound s) (hloaded : Loaded s)
    (hpc : s.main = .drainReply c j jstate) (hfailed : s.failed j)
    (hs : s.mainGo srv env = some s') : ErrorReported s s' c j ↔ env.texts.error = true := by
  have hplain := hsound.paths.main j false (by simp [hpc, MainPc.drains])
  have hleft := (hsound.wake.served c j (.inr (by simp [hpc])) hplain).1
  have hstate : jstate = .error := by
    rcases hfailed with herror | ⟨rc, _, hworker⟩
    · exact (hloaded c j jstate hpc).1.symm.trans herror
    · -- the worker has left the job
      have hrun := (hsound.inv.worker j (by simp [hworker])).2.2
      exact absurd (hrun.symm.trans hleft) (by simp)
  simp [State.mainGo, hpc] at hs
  subst hs
  have hreply := @finalReply_failed (s.jobs j) _ hstate
  have hsent := sentReply_documentedError env.texts (s.jobs j).finishReason
  have hcounted := countSent_documentedError env.texts (s.jobs j).finishReason s.stats
  constructor
  · rintro ⟨hreplies, _⟩
    simp only [State.finalizeReply, State.sendResult_eq, hreply, hsent] at hreplies
    cases herror : env.texts.error with
    | true => rfl
    | false => simp [State.freeJob, herror, documentedError_ne_text] at hreplies
  · intro herror
    constructor
    · simp [State.finalizeReply, State.freeJob, hreply, hsent, herror]
    · simp [State.finalizeReply, State.freeJob, hreply, hcounted, countInference, Stats.errors]

/-- The stream of a failed job ends without a reply. -/
theorem not_reported_of_drainFinal (hpc : s.main = .drainFinal c j)
    (hs : s.mainGo srv env = some s') : ¬ ErrorReported s s' c j := by
  intro hreported
  have hreply := hreported.reply
  simp [State.mainGo, hpc] at hs
  subst hs
  simp [State.finalizeStream, State.sendEvents, State.freeJob] at hreply

theorem reportsErrors_iff {a : Action} (hsound : Sound s) (hloaded : Loaded s)
    (hs : s.act srv a = some s') : reportsErrors srv s a ↔ failsPlain s a := by
  constructor
  · rintro hreports env c j rfl hpc hfailed
    have hreported := hreports s' env c j hs rfl hpc hfailed
    cases hmain : s.main <;> simp [hmain, MainPc.finalises] at hpc
    · obtain ⟨rfl, rfl⟩ := hpc
      have htext := (drainReply_reported_iff hsound hloaded hmain hfailed hs).1 hreported
      exact ⟨hsound.paths.main _ false (by simp [hmain, MainPc.drains]), htext⟩
    · obtain ⟨rfl, rfl⟩ := hpc
      exact absurd hreported (not_reported_of_drainFinal hmain hs)
  · rintro hplain s₁ env c j hs₁ rfl hpc hfailed
    obtain ⟨hstream, htext⟩ := hplain env c j rfl hpc hfailed
    cases hmain : s.main <;> simp [hmain, MainPc.finalises] at hpc
    · obtain ⟨rfl, rfl⟩ := hpc
      exact (drainReply_reported_iff hsound hloaded hmain hfailed hs₁).2 htext
    · obtain ⟨rfl, rfl⟩ := hpc
      rename_i k
      have hstreaming := hsound.paths.main k true (by simp [hmain, MainPc.drains])
      exact absurd (hstream.symm.trans hstreaming) (by simp)

end Step

/-! ## Every run -/

/-- A failing run of inference leaves `context_overflow` exactly if the job overflows; what the
worker has left is finalised, or a wakeup for it is on its way; and a run reports the error of every
failed job that it finalises exactly if none of these jobs is streaming and the texts of the errors
are made. -/
theorem errors_reported_iff {σ χ : Type} (L : Llama σ χ) (eng : Engine) (fuel : Nat)
    (srv : Server) :
    (∀ env job ctx,
      (runJob L eng fuel env job ctx).Reasoned (jobOverflows L eng fuel env job ctx)) ∧
    (∀ s, (system srv).Reachable Free s → ∀ j, (s.conns (s.home j)).isOpen = true →
      (s.log j).left = true → s.finalised j ∨ s.noticed j) ∧
    ∀ as, (system srv).AllSteps (reportsErrors srv) State.init as ↔
      (system srv).AllSteps failsPlain State.init as := by
  refine ⟨runJob_reasoned L eng fuel, fun s hr j => finalised_or_noticed_of_left hr, ?_⟩
  intro as
  refine allSteps_congr (I := fun s => (system srv).Reachable Free s) ?_ ?_ as State.init .init
  · exact fun s a s' hr hs => .step hr trivial hs
  · intro s a s' hr hs
    exact reportsErrors_iff (Sound.of_reachable hr) (Loaded.of_reachable hr) hs

namespace Sample

/-- A streaming request whose prompt is too long. -/
def overlongStream : List Action :=
  [connect, post 0 streamBody, main, main, main, main, work, work, work,
    .worker (.infer .contextOverflow 0 0), .worker (.ret (-1)), work, work, work, work, work, work,
    work, .main (.wakeup 0), main, main, main, main]

theorem overlongStream_replays :
    ((system server).runGuarded Free State.init overlongStream).isSome = true := by
  decide

def afterOverlongStream : State :=
  ((system server).runGuarded Free State.init overlongStream).get overlongStream_replays

theorem afterOverlongStream_finalises :
    afterOverlongStream.main = .drainFinal 0 0 ∧
      (afterOverlongStream.jobs 0).state = .error := by
  decide

end Sample

/-- The stream of a job that failed ends like any other, without an error reply. -/
theorem not_errors_reported :
    ¬ ∀ (srv : Server) (as : List Action),
      (system srv).AllSteps (reportsErrors srv) State.init as := by
  intro hall
  rcases Sample.afterOverlongStream_finalises with ⟨hpc, hstate⟩
  have hs : Sample.afterOverlongStream.mainGo Sample.server {} =
      some ((Sample.afterOverlongStream.finalizeStream 0 0 {}).goMain .poll) := by
    simp [State.mainGo, hpc]
  have hreports : reportsErrors Sample.server Sample.afterOverlongStream Sample.main :=
    (hall Sample.server (Sample.overlongStream ++ [Sample.main])).after _
      (Option.some_get Sample.overlongStream_replays).symm hs
  have hfinal : Sample.afterOverlongStream.main.finalises = some (0, 0) := by
    simp [hpc, MainPc.finalises]
  exact not_reported_of_drainFinal hpc hs (hreports _ {} 0 0 hs rfl hfinal (.inl hstate))

end Professord
