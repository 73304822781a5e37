import Professord.Runtime.Refinement

/-!
# StreamFlow — what a streaming client gets

The ring is a queue between `ring_write` and `drain_stream_ring`: until the final chunk, the token
chunks sent followed by the texts still in the ring are the tokens written (`Flow`).  The final
chunk closes the stream; `drainsBeforeFinal` is the condition on the schedule under which the ring
is then empty.
-/

namespace Professord

open GuardedSystem Lifecycle CText

/-! ## Program points of a stream -/

/-- The job that the worker may still write tokens of. -/
def WorkerPc.writes : WorkerPc → Option JobId
  | .setRunning j | .dispatch j | .generating j _ | .cbEmptyTest j _ _ | .cbRingWrite j _ _ _
  | .cbTestMgr j _ _ | .cbWakeup j => some j
  | _ => none

/-- The job whose stream `drain_stream_ring` has decided to end. -/
def MainPc.ends : MainPc → Option JobId
  | .drainState _ j true | .drainFinal _ j => some j
  | _ => none

theorem WorkerPc.stage_of_writes {pc : WorkerPc} {j : JobId} (h : pc.writes = some j) :
    pc.stage = .busy j := by
  cases pc <;> simp_all [writes]

/-! ## Steps that do not concern the stream of a job -/

/-- The stream of job `j` is as it was. -/
structure StreamKept (s s' : State) (j : JobId) : Prop where
  ring : (s'.jobs j).ring = (s.jobs j).ring
  written : (s'.log j).written = (s.log j).written
  sent : (s'.log j).sent = (s.log j).sent
  frees : (s.log j).frees ≤ (s'.log j).frees
  started : (s.log j).started ≤ (s'.log j).started
  nextJob : s.nextJob ≤ s'.nextJob

namespace State

variable {srv : Server} {s s' : State} {j : JobId}

theorem workerStep_kept {ch : WorkerChoice} (h : s.workerStep ch = some s')
    (hwrite : ∀ wake text e, s.worker ≠ .cbRingWrite j wake text e)
    (hdone : ∀ rc, s.worker ≠ .ringDone j rc) : StreamKept s s' j := by
  revert h
  fun_cases workerStep s ch <;> intro h <;> cases h
  case case17 k wake text e hpc ring hwr =>
    have hne : j ≠ k := fun heq => hwrite wake text e (heq ▸ hpc)
    constructor <;> simp [hne]
  case case21 k rc hpc =>
    have hne : j ≠ k := fun heq => hdone rc (heq ▸ hpc)
    constructor <;> simp [hne]
  all_goals
    constructor <;> simp [leaveJob, freeJob, mgWakeup]
  all_goals
    split <;> simp_all

theorem workerStep_writes {ch : WorkerChoice} (h : s.workerStep ch = some s')
    (hj : s'.worker.writes = some j) :
    s.worker.writes = some j ∨ s.worker = .waiting ∧ s.currentJob = some j := by
  revert h
  fun_cases workerStep s ch <;> intro h <;> cases h <;>
    simp_all [goWorker, leaveJob, WorkerPc.writes]

theorem workerSubmit_kept (s : State) (j k : JobId) : StreamKept s (s.workerSubmit k).2 j := by
  unfold workerSubmit
  cases hslot : s.currentJob with
  | none => constructor <;> simp [installJob] <;> split <;> simp
  | some i =>
      cases hbusy : (s.jobs i).state.isBusy with
      | true => constructor <;> simp [hbusy]
      | false => constructor <;> simp [hbusy, installJob] <;> split <;> simp

theorem allocJob_kept {c : ConnId} {type : JobType} {body : Bytes} {env : HandlerEnv}
    (h : j ≠ s.nextJob) : StreamKept s (s.allocJob srv c type body env) j := by
  unfold allocJob
  split
  · constructor <;> simp
  · cases srv.buildJob c type body env.requestId <;> constructor <;>
      simp [freeJob, h]

theorem mainGo_kept {env : HandlerEnv} (h : s.mainGo srv env = some s')
    (hdrains : s.main.drains ≠ some (j, true))
    (hnew : ∀ c type body, s.main = .alloc c type body → j ≠ s.nextJob) : StreamKept s s' j := by
  revert h
  fun_cases mainGo s srv env <;> intro h <;> cases h
  case case1 caller k hpc =>
    cases caller <;> cases (s.jobs k).state.isBusy <;> constructor <;>
      simp [busyLoaded]
  case case2 hpc => exact allocJob_kept (hnew _ _ _ hpc)
  case case3 c k hpc hacc =>
    rcases workerSubmit_kept s j k with ⟨hring, hwritten, hsent, hfrees, hstarted, hnext⟩
    exact ⟨hring, hwritten, hsent, hfrees, hstarted, hnext⟩
  case case4 c k hpc hacc =>
    rcases workerSubmit_kept s j k with ⟨hring, hwritten, hsent, hfrees, hstarted, hnext⟩
    constructor <;> simp [freeJob, hring, hnext]
    all_goals
      split <;> simp_all
    exact Nat.le_succ_of_le hfrees
  -- the two steps that take tokens or free the job of a stream are of another job
  case case13 c k hpc batch next =>
    have hne : j ≠ k := fun heq => hdrains (by simp [hpc, MainPc.drains, heq])
    constructor <;> simp [sendEvents, hne]
  case case17 c k hpc =>
    have hne : j ≠ k := fun heq => hdrains (by simp [hpc, MainPc.drains, heq])
    constructor <;> simp [sendEvents, finalizeStream, freeJob, hne]
  all_goals
    constructor <;> simp [freeJob, finalizeReply]
  all_goals
    split <;> simp_all

theorem mainGo_ends {env : HandlerEnv} (h : s.mainGo srv env = some s')
    (hj : s'.main.ends = some j) : s.main.drains = some (j, true) := by
  revert h
  fun_cases mainGo s srv env <;> intro h <;> cases h
  case case1 caller k hpc =>
    rcases busyLoaded_main (s.touch k) caller (s.jobs k).state.isBusy env.texts with
      hmain | ⟨c, type, body, _, hmain⟩ <;>
      simp [hmain, MainPc.ends] at hj
  case case2 c type body hpc =>
    rcases allocJob_main s srv c type body env with hmain | hmain <;>
      simp [hmain, MainPc.ends] at hj
  -- a batch does not end a stream: it is followed by another or by the test of `done`
  case case13 c k hpc batch next =>
    have hnext : next.ends = none := by
      simp only [next]
      split <;> rfl
    simp [hnext] at hj
  all_goals simp_all [MainPc.ends, MainPc.drains]
  split at hj <;> simp_all

theorem EventFrame.kept (h : EventFrame s s') (j : JobId) : StreamKept s s' j := by
  constructor <;> simp [h.jobs, h.log, h.nextJob]

end State

/-! ## The invariant of a stream -/

/-- The chunk of a written token. -/
def tokenChunk (text : Bytes) : SseEvent :=
  .token (slotText text).text

/-- The final chunk and its `[DONE]`. -/
def closing (finish : FinishReason) : List SseEvent :=
  [.final finish, .done]

/-- The worker has started job `j` and writes no more tokens of it. -/
def State.streamOver (s : State) (j : JobId) : Prop :=
  (s.log j).started ≠ 0 ∧ s.worker.writes ≠ some j

/-- Some of the written tokens have been taken out of the ring and sent, the others wait. -/
def State.StreamOpen (s : State) (j : JobId) : Prop :=
  ∃ taken, taken ++ (s.jobs j).ring.texts = (s.log j).written.map (fun t => (slotText t).text) ∧
    (s.log j).sent = taken.map .token

/-- All written tokens have been sent, then the end of the stream. -/
def State.StreamClosed (s : State) (j : JobId) : Prop :=
  0 < (s.log j).frees ∧ s.streamOver j ∧
    ∃ job texts, (s.log j).sent = (s.log j).written.map tokenChunk ++ finalEvents job texts

structure Flow (s : State) (j : JobId) : Prop where
  fresh : s.nextJob ≤ j → (s.log j).written = [] ∧ (s.log j).sent = []
  writing : s.worker.writes = some j → (s.jobs j).ring.done = false
  stream : s.StreamOpen j ∨ s.StreamClosed j
  ends : s.main.ends = some j → (s.jobs j).ring.texts = [] ∧ s.streamOver j

theorem Flow.init (j : JobId) : Flow State.init j where
  fresh := fun _ => ⟨rfl, rfl⟩
  writing := by simp [State.init, WorkerPc.writes]
  stream := .inl ⟨[], by simp [State.init, workerJobInit, JobLog.fresh]⟩
  ends := by simp [State.init, MainPc.ends]

/-! ## The life cycle of the job behind a stream -/

namespace Sound

variable {s s' : State} {j : JobId}

theorem unstarted_of_waiting (h : Sound s) (hworker : s.worker = .waiting)
    (hslot : s.currentJob = some j) : (s.log j).started = 0 := by
  simpa [hworker, jobFace] using (h.inv.slot j hslot).2.2

/-- A job whose final state is stored, or whose stream is marked, is over. -/
theorem streamOver_of_writing (h : Sound s)
    (hwriting : s.worker.writes = some j → (s.jobs j).ring.done = false)
    (hd : (s.jobs j).ring.done = true ∨ (s.jobs j).state.isBusy = false) : s.streamOver j := by
  constructor
  · intro hstarted
    -- a job that has not been started is neither done nor final
    have hun := h.inv.unstarted j hstarted
    simp only [State.face_job, jobFace] at hun
    rcases hd with hdone | hfinal
    · simp [hdone] at hun
    · simp [hfinal] at hun
  · intro hwrites
    rcases hd with hdone | hfinal
    · simp [hwriting hwrites] at hdone
    -- the worker writes only before it stores the final state
    · have hbusy := (h.inv.busy j (WorkerPc.stage_of_writes hwrites)).2
      simp [jobFace, hfinal] at hbusy

theorem streamOver_of_settled (h : Sound s) (hflow : Flow s j)
    (hd : (s.jobs j).ring.done = true ∨ (s.jobs j).state.isBusy = false) : s.streamOver j :=
  h.streamOver_of_writing hflow.writing hd

theorem streamOver_kept (h : Sound s) (hover : s.streamOver j)
    (hstarted : (s.log j).started ≤ (s'.log j).started)
    (hwrites : s'.worker.writes = some j →
      s.worker.writes = some j ∨ s.worker = .waiting ∧ s.currentJob = some j) :
    s'.streamOver j := by
  constructor
  · intro hzero
    exact hover.1 (Nat.le_zero.1 (hzero ▸ hstarted))
  · intro hw
    rcases hwrites hw with hold | ⟨hworker, hslot⟩
    · exact hover.2 hold
    · exact hover.1 (h.unstarted_of_waiting hworker hslot)

/-- While `drain_stream_ring` handles a job, the job is not freed. -/
theorem unfreed_of_drains {b : Bool} (h : Sound s) (hj : s.main.drains = some (j, b)) :
    (s.log j).frees = 0 := by
  rcases MainPc.stage_of_drains hj with ⟨c, hstage⟩
  have hheld := (h.inv.serving c j (.inr hstage)).1
  exact (h.inv.held c j hheld).2.1

theorem issued_of_drains {b : Bool} (h : Sound s) (hj : s.main.drains = some (j, b)) :
    j < s.nextJob := by
  simpa [jobFace, Nat.blt_eq] using h.allocated_of_drains hj

theorem issued_of_streams (h : Sound s) (hj : s.worker.streams = some j) : j < s.nextJob := by
  simpa [jobFace, Nat.blt_eq] using h.allocated_of_streams hj

end Sound

/-! ## One step -/

namespace Flow

variable {srv : Server} {s s' : State} {j : JobId}

theorem of_kept (h : Flow s j) (hsound : Sound s) (hk : StreamKept s s' j)
    (hwrites : s'.worker.writes = some j →
      s.worker.writes = some j ∨ s.worker = .waiting ∧ s.currentJob = some j)
    (hends : s'.main.ends = some j → s.main.ends = some j) : Flow s' j where
  fresh hj := by
    rw [hk.written, hk.sent]
    exact h.fresh (Nat.le_trans hk.nextJob hj)
  writing hw := by
    rw [hk.ring]
    rcases hwrites hw with hold | ⟨hworker, hslot⟩
    · exact h.writing hold
    · exact (hsound.inv.unstarted j (hsound.unstarted_of_waiting hworker hslot)).1
  stream := by
    rcases h.stream with ⟨taken, htexts, hsent⟩ | ⟨hfrees, hover, job, texts, hsent⟩
    · exact .inl ⟨taken, by rw [hk.ring, hk.written, htexts], by rw [hk.sent, hsent]⟩
    · refine .inr ⟨Nat.lt_of_lt_of_le hfrees hk.frees, ?_, job, texts, ?_⟩
      · exact hsound.streamOver_kept hover hk.started hwrites
      · rw [hk.sent, hk.written, hsent]
  ends he := by
    rcases h.ends (hends he) with ⟨htexts, hover⟩
    exact ⟨by rw [hk.ring, htexts], hsound.streamOver_kept hover hk.started hwrites⟩

/-- The stream of a job that the worker writes or the event loop drains is open. -/
theorem openOf (h : Flow s j)
    (hj : s.worker.writes = some j ∨ (s.log j).frees = 0) : s.StreamOpen j := by
  rcases h.stream with hopen | ⟨hfrees, hover, _⟩
  · exact hopen
  · rcases hj with hwrites | hzero
    · exact absurd hwrites hover.2
    · exact absurd hfrees (by simp [hzero])

theorem ringWrite_step (h : Flow s j) (hsound : Sound s) {ch : WorkerChoice} {wake : Nat}
    {text : Bytes} {wasEmpty : Bool} (hpc : s.worker = .cbRingWrite j wake text wasEmpty)
    (hs : s.workerStep ch = some s') : Flow s' j := by
  have hwrites : s.worker.writes = some j := by simp [hpc, WorkerPc.writes]
  have hends : s'.main.ends = some j → s.main.ends = some j := by
    rw [(State.worker_frame hs).main]
    exact id
  rcases State.workerStep_of_cbRingWrite hs hpc with rfl | ⟨ring, hwr, rfl⟩
  · exact h.of_kept hsound ⟨rfl, rfl, rfl, Nat.le_refl _, Nat.le_refl _, Nat.le_refl _⟩
      (fun _ => .inl hwrites) hends
  · rcases ringWrite_stored hwr with ⟨htexts, hdone, _⟩
    -- the token goes behind what waits; what has been taken stays
    rcases h.openOf (.inl hwrites) with ⟨taken, hqueue, hsent⟩
    have hissued : j < s.nextJob :=
      hsound.issued_of_streams (by simp [hpc, WorkerPc.streams])
    constructor
    · exact fun hj => absurd hissued (Nat.not_lt.2 hj)
    · simpa [hdone] using fun _ => h.writing hwrites
    · refine .inl ⟨taken, ?_, ?_⟩
      · simp [htexts, ← hqueue]
      · simpa using hsent
    · intro he
      exact absurd hwrites (h.ends (hends he)).2.2

theorem ringDone_step (h : Flow s j) (hsound : Sound s) {ch : WorkerChoice} {rc : Int}
    (hpc : s.worker = .ringDone j rc) (hs : s.workerStep ch = some s') : Flow s' j := by
  have hissued : j < s.nextJob :=
    hsound.issued_of_streams (by simp [hpc, WorkerPc.streams])
  cases ch <;> simp [State.workerStep, hpc] at hs
  subst hs
  -- the flag does not touch the texts
  have htexts : ∀ r : TokenRing, ({ r with done := true } : TokenRing).texts = r.texts :=
    fun _ => rfl
  constructor
  · exact fun hj => absurd hissued (Nat.not_lt.2 hj)
  · simp [WorkerPc.writes]
  · rcases h.stream with ⟨taken, hqueue, hsent⟩ | ⟨hfrees, hover, hclosed⟩
    · exact .inl ⟨taken, by simpa [htexts] using hqueue, by simpa using hsent⟩
    · exact .inr ⟨hfrees, ⟨hover.1, by simp [WorkerPc.writes]⟩, hclosed⟩
  · intro he
    rcases h.ends he with ⟨hempty, hover⟩
    exact ⟨by simpa [htexts] using hempty, hover.1, by simp [WorkerPc.writes]⟩

theorem worker_step (h : Flow s j) (hsound : Sound s) {ch : WorkerChoice}
    (hs : s.workerStep ch = some s') : Flow s' j := by
  by_cases hwrite : ∃ wake text e, s.worker = .cbRingWrite j wake text e
  · rcases hwrite with ⟨wake, text, e, hpc⟩
    exact h.ringWrite_step hsound hpc hs
  · by_cases hdone : ∃ rc, s.worker = .ringDone j rc
    · rcases hdone with ⟨rc, hpc⟩
      exact h.ringDone_step hsound hpc hs
    · have hkept := State.workerStep_kept (j := j) hs
        (fun wake text e hpc => hwrite ⟨wake, text, e, hpc⟩) (fun rc hpc => hdone ⟨rc, hpc⟩)
      refine h.of_kept hsound hkept (State.workerStep_writes hs) ?_
      rw [(State.worker_frame hs).main]
      exact id

/-- The new job gets an empty ring. -/
theorem alloc_step (h : Flow s j) (hsound : Sound s) {env : HandlerEnv} {c : ConnId}
    {type : JobType} {body : Bytes} (hpc : s.main = .alloc c type body) (hj : j = s.nextJob)
    (hs : s.mainGo srv env = some s') : Flow s' j := by
  have hends : s'.main.ends ≠ some j := fun he => by
    simpa [hpc, MainPc.drains] using State.mainGo_ends hs he
  have hworker := State.mainGo_worker hs
  simp [State.mainGo, hpc] at hs
  cases hjob : srv.buildJob c type body env.requestId with
  | none =>
      have hkept : StreamKept s (s.allocJob srv c type body env) j := by
        unfold State.allocJob
        split <;> constructor <;> simp [hjob, State.freeJob, hj]
      subst hs
      exact h.of_kept hsound hkept (fun hw => .inl (hworker ▸ hw)) (fun he => absurd he hends)
  | some job =>
      cases hcalloc : env.callocOk with
      | false =>
          have hkept : StreamKept s (s.allocJob srv c type body env) j := by
            constructor <;> simp [State.allocJob, hcalloc]
          subst hs
          exact h.of_kept hsound hkept (fun hw => .inl (hworker ▸ hw)) (fun he => absurd he hends)
      | true =>
          -- nothing has been written or sent under the new id
          have hring : job.ring = TokenRing.init := by
            unfold Server.buildJob at hjob
            cases type <;> rcases Option.map_eq_some_iff.1 hjob with ⟨req, _, rfl⟩ <;> rfl
          have hfresh := h.fresh (Nat.le_of_eq hj.symm)
          simp [State.allocJob, hcalloc, hjob] at hs
          subst hs
          constructor
          · intro hle
            exact absurd (Nat.lt_succ_self _) (Nat.not_lt.2 (hj ▸ hle))
          · simp [hj, hring, TokenRing.init]
          · exact .inl ⟨[], by simp [hj, hring, hj ▸ hfresh.1], by simp [hfresh.2]⟩
          · exact fun he => absurd he hends

theorem drainBatch_step (h : Flow s j) (hsound : Sound s) {env : HandlerEnv} {c : ConnId}
    (hpc : s.main = .drainBatch c j) (hs : s.mainGo srv env = some s') : Flow s' j := by
  have hdrains : s.main.drains = some (j, true) := by simp [hpc, MainPc.drains]
  have hissued := hsound.issued_of_drains hdrains
  have hnot : s.main.ends ≠ some j := by simp [hpc, MainPc.ends]
  -- what the batch takes out of the ring is what it sends
  rcases h.openOf (.inr (hsound.unfreed_of_drains hdrains)) with ⟨taken, hqueue, hsent⟩
  rcases drainBatch_spec (s.jobs j).ring with ⟨hbatch, hdone⟩
  simp [State.mainGo, hpc] at hs
  subst hs
  constructor
  · exact fun hj => absurd hissued (Nat.not_lt.2 hj)
  · simpa [State.sendEvents, hdone] using h.writing
  · refine .inl ⟨taken ++ (drainBatch (s.jobs j).ring).1, ?_, ?_⟩
    · simp [State.sendEvents, ← hqueue, ← hbatch]
    · simp [State.sendEvents, hsent]
  · intro he
    split at he <;> simp [MainPc.ends] at he

theorem drainDone_step (h : Flow s j) (hsound : Sound s) {env : HandlerEnv} {c : ConnId}
    (hpc : s.main = .drainDone c j) (hs : s.mainGo srv env = some s') : Flow s' j := by
  simp [State.mainGo, hpc] at hs
  subst hs
  refine ⟨h.fresh, h.writing, h.stream, ?_⟩
  intro he
  cases hd : (s.jobs j).ring.done && (s.jobs j).ring.isEmpty with
  | false => simp [hd, MainPc.ends] at he
  | true =>
      -- the worker marks the ring behind its last token, and it is empty now
      have hboth : (s.jobs j).ring.done = true ∧ (s.jobs j).ring.isEmpty = true := by
        simpa using hd
      exact ⟨(TokenRing.isEmpty_iff _).1 hboth.2, hsound.streamOver_of_settled h (.inl hboth.1)⟩

theorem drainState_step (h : Flow s j) (hsound : Sound s) {env : HandlerEnv} {c : ConnId}
    {done : Bool} (hpc : s.main = .drainState c j done)
    (hg : done = true ∨ (s.jobs j).state.isBusy = true ∨ (s.jobs j).ring.isEmpty = true)
    (hs : s.mainGo srv env = some s') : Flow s' j := by
  cases done with
  | true =>
      simp [State.mainGo, hpc] at hs
      subst hs
      exact ⟨h.fresh, h.writing, h.stream, fun _ => h.ends (by simp [hpc, MainPc.ends])⟩
  | false =>
      cases hbusy : (s.jobs j).state.isBusy with
      | true =>
          simp [State.mainGo, hpc, hbusy] at hs
          subst hs
          exact ⟨h.fresh, h.writing, h.stream, by simp [MainPc.ends]⟩
      | false =>
          -- here the guard is needed: the state is final, the ring may not be empty
          have hempty : (s.jobs j).ring.isEmpty = true := by simpa [hbusy] using hg
          simp [State.mainGo, hpc, hbusy] at hs
          subst hs
          refine ⟨h.fresh, h.writing, h.stream, fun _ => ?_⟩
          exact ⟨(TokenRing.isEmpty_iff _).1 hempty, hsound.streamOver_of_settled h (.inr hbusy)⟩

/-- The final chunk goes out behind everything that was written. -/
theorem drainFinal_step (h : Flow s j) (hsound : Sound s) {env : HandlerEnv} {c : ConnId}
    (hpc : s.main = .drainFinal c j) (hs : s.mainGo srv env = some s') : Flow s' j := by
  have hdrains : s.main.drains = some (j, true) := by simp [hpc, MainPc.drains]
  have hissued := hsound.issued_of_drains hdrains
  rcases h.ends (by simp [hpc, MainPc.ends]) with ⟨hempty, hover⟩
  rcases h.openOf (.inr (hsound.unfreed_of_drains hdrains)) with ⟨taken, hqueue, hsent⟩
  -- with the ring empty, everything written has been taken and sent
  have hall : (s.log j).sent = (s.log j).written.map tokenChunk := by
    calc (s.log j).sent = taken.map .token := hsent
      _ = ((s.log j).written.map fun t => (slotText t).text).map .token := by
          rw [← hqueue, hempty, List.append_nil]
      _ = (s.log j).written.map tokenChunk := by
          rw [List.map_map]
          rfl
  simp [State.mainGo, hpc] at hs
  subst hs
  constructor
  · intro hj
    simp only [State.finalizeStream, State.freeJob, State.sendEvents, State.goMain_nextJob,
      State.updConn_nextJob, State.updLog_nextJob, State.touch_nextJob] at hj
    exact absurd hissued (Nat.not_lt.2 hj)
  · simpa [State.finalizeStream, State.freeJob, State.sendEvents] using h.writing
  · refine .inr ⟨?_, ?_, s.jobs j, env.texts, ?_⟩
    · simp [State.finalizeStream, State.freeJob, State.sendEvents]
    · simpa [State.streamOver, State.finalizeStream, State.freeJob, State.sendEvents] using hover
    · simp [State.finalizeStream, State.freeJob, State.sendEvents, hall]
  · simp [MainPc.ends]

end Flow

/-! ## Every run -/

/-- The state of a job is not loaded as final while tokens of it wait in the ring: none came
between the last batch and this load. -/
def drainsBeforeFinal (s : State) (a : Action) : Bool :=
  match a, s.main with
  | .main (.go _), .drainState _ j false => (s.jobs j).state.isBusy || (s.jobs j).ring.isEmpty
  | _, _ => true

namespace Flow

variable {srv : Server} {s s' : State} {j : JobId}

theorem handler_step (h : Flow s j) (hsound : Sound s) {env : HandlerEnv}
    (hg : drainsBeforeFinal s (.main (.go env)) = true) (hs : s.mainGo srv env = some s') :
    Flow s' j := by
  by_cases hdrains : s.main.drains = some (j, true)
  · cases hpc : s.main <;> simp [hpc, MainPc.drains] at hdrains <;> subst hdrains
    · exact h.drainBatch_step hsound hpc hs
    · exact h.drainDone_step hsound hpc hs
    -- the only step that the guard is about
    · rename_i done
      refine h.drainState_step hsound hpc ?_ hs
      cases done <;> simp_all [drainsBeforeFinal]
    · exact h.drainFinal_step hsound hpc hs
  · by_cases halloc : j = s.nextJob ∧ ∃ c type body, s.main = .alloc c type body
    · rcases halloc with ⟨hj, c, type, body, hpc⟩
      exact h.alloc_step hsound hpc hj hs
    · have hkept := State.mainGo_kept hs hdrains
        fun c type body hpc hj => halloc ⟨hj, c, type, body, hpc⟩
      refine h.of_kept hsound hkept ?_ ?_
      · exact fun hw => .inl (State.mainGo_worker hs ▸ hw)
      · exact fun he => absurd (State.mainGo_ends hs he) hdrains

theorem step (h : Flow s j) (hsound : Sound s) {a : Action} (hg : drainsBeforeFinal s a = true)
    (hs : s.act srv a = some s') : Flow s' j := by
  cases a with
  | signal =>
      simp [State.act] at hs
      subst hs
      exact ⟨h.fresh, h.writing, h.stream, h.ends⟩
  | worker ch => exact h.worker_step hsound hs
  | main ch =>
      rcases State.mainStep_cases hs with ⟨env, rfl, hgo⟩ | ⟨hpoll, hevent⟩
      · exact h.handler_step hsound hg hgo
      · have hev := hevent.frame hpoll
        refine h.of_kept hsound (hev.kept j) ?_ ?_
        · exact fun hw => .inl (hev.worker ▸ hw)
        · intro he
          have hdrains := hev.drains
          cases hpc : s'.main <;> simp_all [MainPc.ends, MainPc.drains]

theorem of_reachable (h : (system srv).Reachable (fun s a => drainsBeforeFinal s a = true) s) :
    Flow s j :=
  h.invariant (P := fun s => Flow s j) (Flow.init j)
    fun _ _ _ hr hflow hg hs => hflow.step (Sound.of_reachable hr) hg hs

end Flow

theorem tokenChunk_eq {text : Bytes} (hnul : 0 ∉ text) (hlen : text.length < tokenTextMax) :
    tokenChunk text = .token text := by
  have hfit : text.length ≤ tokenTextMax - 1 := Nat.le_sub_one_of_lt hlen
  rw [tokenChunk, slotText_text, cstr_of_zero_notMem hnul, List.take_of_length_le hfit]

/-- Along runs in which the event loop loads no final state over a ring that is not empty, a
stream that got its final chunk got every written token, in order and once, and then one `[DONE]`;
and tokens that fit a slot arrive as they were written. -/
theorem stream_complete (srv : Server) {s : State}
    (h : (system srv).Reachable (fun s a => drainsBeforeFinal s a = true) s) {j : JobId}
    {finish : FinishReason} (hfinal : .final finish ∈ (s.log j).sent) :
    (s.log j).sent = (s.log j).written.map tokenChunk ++ closing finish ∧
      ((∀ t ∈ (s.log j).written, 0 ∉ t ∧ t.length < tokenTextMax) →
        (s.log j).sent = (s.log j).written.map .token ++ closing finish) := by
  have hclosed : (s.log j).sent = (s.log j).written.map tokenChunk ++ closing finish := by
    rcases (Flow.of_reachable h (j := j)).stream with
      ⟨taken, _, hsent⟩ | ⟨_, _, job, texts, hsent⟩
    · -- an open stream has no final chunk
      simp [hsent] at hfinal
    -- a closed stream has one final chunk at most, so it is this one
    · have hsame : texts.reply = true ∧ finish = job.finishReason := by
        cases hmade : texts.reply with
        | false => simp [hsent, tokenChunk, finalEvents, hmade] at hfinal
        | true => simpa [hsent, tokenChunk, finalEvents, hmade] using hfinal
      rw [hsent, finalEvents, if_pos hsame.1, closing, hsame.2]
  refine ⟨hclosed, ?_⟩
  intro hfit
  rw [hclosed, List.map_congr_left fun t ht => tokenChunk_eq (hfit t ht).1 (hfit t ht).2]

namespace Sample

/-- A client gets "a" while the job runs and "b" after it has ended. -/
def streamedTokens : List Action :=
  [connect, post 0 streamBody, main, main, main, main, work, work, work,
    .worker (.piece (ascii "a") true), work, work, work, work,
    .main (.wakeup 0), main, main, main, main,
    .worker (.piece (ascii "b") true), work, work, work, work, .worker (.ret 0), work,
    .main (.wakeup 0), main, main, main, main, main]

theorem streamedTokens_replays :
    ((system server).runGuarded (fun s a => drainsBeforeFinal s a = true) State.init
      streamedTokens).isSome = true := by
  decide

def afterStreamedTokens : State :=
  ((system server).runGuarded (fun s a => drainsBeforeFinal s a = true) State.init
    streamedTokens).get streamedTokens_replays

theorem stream_complete_streamedTokens :
    (afterStreamedTokens.log 0).sent =
      (afterStreamedTokens.log 0).written.map .token ++ closing .unset := by
  have hr : (system server).Reachable (fun s a => drainsBeforeFinal s a = true)
      afterStreamedTokens := reachable_of_isSome streamedTokens_replays
  exact (stream_complete server hr (j := 0) (by decide)).2 (by decide)

/-- "b" is written after the last batch, and the job ends before its state is loaded. -/
def lostToken : List Action :=
  [connect, post 0 streamBody, main, main, main, main, work, work, work,
    .worker (.piece (ascii "a") true), work, work, work, work,
    .main (.wakeup 0), main, main, main,
    .worker (.piece (ascii "b") true), work, work, work, work, .worker (.ret 0), work, work,
    main, main]

theorem lostToken_replays :
    ((system server).runGuarded Free State.init lostToken).isSome = true := by
  decide

end Sample

theorem not_stream_complete :
    ¬ ∀ (srv : Server) (s : State), (system srv).Reachable Free s →
      (∀ c < s.nextConn, (s.conns c).isOpen = true) →
        ∀ (j : JobId) (finish : FinishReason), .final finish ∈ (s.log j).sent →
          (s.log j).sent = (s.log j).written.map tokenChunk ++ closing finish := by
  intro hall
  have hlost := hall Sample.server _ (reachable_of_isSome Sample.lostToken_replays) (by decide) 0
    .unset (by decide)
  revert hlost
  decide

end Professord
