import Professord.Runtime.StreamFlow
import Professord.Runtime.Departure

/-!
# Results — what the worker publishes of a job

The fields of a job that its reply is made of are not atomic: the worker writes them while it runs
the job, and the event loop reads them once it sees the job's final state, or the mark at the end
of its stream.  From then on nobody writes them (`Published`).
-/

namespace Professord

open GuardedSystem Lifecycle

/-! ## The result of a job -/

/-- The fields of a job that its final reply and its statistics are made of. -/
structure JobResult where
  type : JobType
  requestId : CBuf profIdMax
  modelId : CBuf profModelMax
  stream : Bool
  finishReason : FinishReason
  promptTokens : Int
  completionTokens : Int
  response : AccumBuf

def WorkerJob.result (job : WorkerJob) : JobResult where
  type := job.type
  requestId := job.requestId
  modelId := job.modelId
  stream := job.stream
  finishReason := job.finishReason
  promptTokens := job.promptTokens
  completionTokens := job.completionTokens
  response := job.response

/-- The worker has run job `j` and has left the code that writes its result. -/
structure Published (s : State) (j : JobId) : Prop where
  ended : s.streamOver j
  issued : j < s.nextJob

/-- The result of `j` is as it was, and so are the tokens of its stream. -/
structure ResultKept (s s' : State) (j : JobId) : Prop where
  result : (s'.jobs j).result = (s.jobs j).result
  written : (s'.log j).written = (s.log j).written

theorem ResultKept.trans {s s' s'' : State} {j : JobId} (h : ResultKept s s' j)
    (h' : ResultKept s' s'' j) : ResultKept s s'' j where
  result := h'.result.trans h.result
  written := h'.written.trans h.written

/-- Its final state has been stored, or the end of its stream marked. -/
def State.settled (s : State) (j : JobId) : Prop :=
  (s.jobs j).state.isBusy = false ∨ (s.jobs j).ring.done = true

/-! ## Steps that write no result -/

namespace State

variable {srv : Server} {s s' : State} {j : JobId}

theorem workerStep_result {ch : WorkerChoice} (h : s.workerStep ch = some s')
    (hj : s.worker.writes ≠ some j) : ResultKept s s' j := by
  revert h
  fun_cases workerStep s ch <;> intro h <;> cases h
  all_goals
    constructor <;> simp_all [WorkerPc.writes, WorkerJob.result, leaveJob, freeJob, mgWakeup]
  all_goals
    split <;> simp_all

theorem workerSubmit_result (s : State) (j k : JobId) : ResultKept s (s.workerSubmit k).2 j := by
  unfold workerSubmit
  cases hslot : s.currentJob with
  | none => constructor <;> simp [installJob, WorkerJob.result] <;> split <;> simp
  | some i =>
      cases hbusy : (s.jobs i).state.isBusy with
      | true => constructor <;> simp [hbusy]
      | false => constructor <;> simp [hbusy, installJob, WorkerJob.result] <;> split <;> simp

theorem allocJob_result {c : ConnId} {type : JobType} {body : Bytes} {env : HandlerEnv}
    (h : j ≠ s.nextJob) : ResultKept s (s.allocJob srv c type body env) j := by
  unfold allocJob
  split
  · constructor <;> simp
  · cases srv.buildJob c type body env.requestId <;> constructor <;>
      simp [freeJob, h]

theorem mainGo_result {env : HandlerEnv} (h : s.mainGo srv env = some s') (hj : j < s.nextJob) :
    ResultKept s s' j := by
  revert h
  fun_cases mainGo s srv env <;> intro h <;> cases h
  case case1 caller k hpc =>
    cases caller <;> cases (s.jobs k).state.isBusy <;> constructor <;>
      simp [busyLoaded]
  case case2 => exact allocJob_result (Nat.ne_of_lt hj)
  case case3 c k hpc hacc =>
    have hkept := workerSubmit_result s j k
    exact ⟨hkept.result, hkept.written⟩
  case case4 c k hpc hacc =>
    have hkept := workerSubmit_result s j k
    constructor <;> simp [freeJob, hkept.result, hkept.written]
    split <;> simp [hkept.written]
  all_goals
    constructor <;>
      simp [WorkerJob.result, freeJob, sendEvents, finalizeReply, finalizeStream]
  all_goals
    split <;> simp_all

/-- Only the worker writes the result of an allocated job. -/
theorem act_result {a : Action} (h : s.act srv a = some s') (hj : j < s.nextJob)
    (hworker : s.worker.writes ≠ some j) : ResultKept s s' j := by
  cases a with
  | signal =>
      cases h
      exact ⟨rfl, rfl⟩
  | worker ch => exact workerStep_result h hworker
  | main ch =>
      rcases mainStep_cases h with ⟨env, rfl, hgo⟩ | ⟨hpoll, hevent⟩
      · exact mainGo_result hgo hj
      · have hev := hevent.frame hpoll
        exact ⟨by rw [hev.jobs], by rw [hev.log]⟩

theorem act_writes {a : Action} (h : s.act srv a = some s') (hj : s'.worker.writes = some j) :
    s.worker.writes = some j ∨ s.worker = .waiting ∧ s.currentJob = some j := by
  cases a with
  | signal =>
      cases h
      exact .inl hj
  | worker ch => exact workerStep_writes h hj
  | main ch => exact .inl (mainStep_worker h ▸ hj)

theorem act_started {a : Action} (hsound : Sound s) (h : s.act srv a = some s') (j : JobId) :
    (s.log j).started ≤ (s'.log j).started := by
  rcases hsound.moves h with ⟨_, hface⟩ | ⟨m, _, hstep⟩
  · exact Nat.le_of_eq (congrArg (fun o => (o.job j).started) hface).symm
  · exact hstep.started_le

end State

/-! ## Whole runs -/

namespace Published

variable {srv : Server} {s s' : State} {j : JobId}

theorem of_settled (hsound : Sound s)
    (hwriting : s.worker.writes = some j → (s.jobs j).ring.done = false) (h : s.settled j) :
    Published s j := by
  have hover := hsound.streamOver_of_writing hwriting h.symm
  refine ⟨hover, ?_⟩
  -- what has been started has been accepted
  have haccepted : (s.log j).accepted = true := by
    by_contra hacc
    exact hover.1 (hsound.inv.unaccepted j (Bool.eq_false_iff.2 hacc)).1
  exact State.lt_nextJob_of_accepted hsound haccepted

theorem step (h : Published s j) (hsound : Sound s) {a : Action} (hs : s.act srv a = some s') :
    Published s' j ∧ ResultKept s s' j := by
  refine ⟨⟨?_, (State.home_of_step hsound hs h.issued).1⟩, ?_⟩
  · exact hsound.streamOver_kept h.ended (State.act_started hsound hs j) (State.act_writes hs)
  · exact State.act_result hs h.issued h.ended.2

theorem run (h : Published s j) (hr : (system srv).Reachable Free s) {as : List Action} {t : State}
    (hrun : (system srv).runGuarded Free s as = some t) : ResultKept s t j := by
  have hall : (system srv).Reachable Free t ∧ Published t j ∧ ResultKept s t j := by
    refine runGuarded_invariant (P := fun t => (system srv).Reachable Free t ∧ Published t j ∧
      ResultKept s t j) ?_ ⟨hr, h, rfl, rfl⟩ hrun
    rintro u a u' ⟨hu, hpub, hkept⟩ hg hs
    rcases hpub.step (Sound.of_reachable hu) hs with ⟨hpub', hkept'⟩
    exact ⟨.step hu hg hs, hpub', hkept.trans hkept'⟩
  exact hall.2.2

end Published

/-- No data race on a result: when the event loop has decided to send the final reply of a job, the
worker has left the code that writes what the reply says; and once the final state of a job has
been stored, or the end of its stream marked, no step of any thread changes its result. -/
theorem result_published (srv : Server) {s : State} (hr : (system srv).Reachable Free s) :
    (∀ c j, s.main.stage = .finalizing c j → Published s j) ∧
    ∀ j, s.settled j → ∀ as t, (system srv).runGuarded Free s as = some t → ResultKept s t j := by
  have hsound := Sound.of_reachable hr
  have hpublished : ∀ j, s.settled j → Published s j := fun j =>
    Published.of_settled hsound (Attended.of_reachable hr).writing
  constructor
  · intro c j hstage
    rcases hsound.inv.finalizing c j hstage with hfinal | ⟨_, hdone⟩
    · exact hpublished j (.inl (by simpa [jobFace] using hfinal))
    · exact hpublished j (.inr hdone)
  · exact fun j hsettled as t hrun => (hpublished j hsettled).run hr hrun

namespace Sample

/-- The run of `streamedTokens` up to its last step, which sends the final chunk. -/
def beforeFinalChunk : List Action :=
  streamedTokens.dropLast

theorem beforeFinalChunk_replays :
    ((system server).runGuarded Free State.init beforeFinalChunk).isSome = true := by
  decide

def atFinalChunk : State :=
  ((system server).runGuarded Free State.init beforeFinalChunk).get beforeFinalChunk_replays

theorem finalChunk_replays :
    ((system server).runGuarded Free atFinalChunk [main]).isSome = true := by
  decide

theorem result_published_atFinalChunk :
    Published atFinalChunk 0 ∧
      ResultKept atFinalChunk
        (((system server).runGuarded Free atFinalChunk [main]).get finalChunk_replays) 0 := by
  have hr : (system server).Reachable Free atFinalChunk :=
    reachable_of_isSome beforeFinalChunk_replays
  rcases result_published server hr with ⟨hpublished, hkept⟩
  exact ⟨hpublished 0 0 rfl, hkept 0 (.inr (by decide)) [main] _ (Option.some_get _).symm⟩

end Sample

end Professord
