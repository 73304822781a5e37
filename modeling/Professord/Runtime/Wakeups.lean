import Professord.Runtime.Connections
import Professord.Runtime.Ownership
import Professord.Runtime.StreamFlow

/-!
# Wakeups — no producer waits for a wakeup that does not come

The worker wakes the event loop for the first token in an empty ring and for every eighth, and once
more when it leaves the job.  The ring holds at most the tokens that `tokens_since_wake` counts
(`Attended.buffered`), unless a wakeup is in flight or the event loop is about to take a batch; and
what the worker has left is noticed (`Lifecycle.Noticed`).
-/

namespace Professord

open GuardedSystem Lifecycle CText

/-! ## Program points -/

/-- The job in whose `stream_token_cb` the worker is. -/
def WorkerPc.inCallback : WorkerPc → Option JobId
  | .cbEmptyTest j _ _ | .cbRingWrite j _ _ _ | .cbTestMgr j _ _ | .cbWakeup j => some j
  | _ => none

/-- How many tokens the worker may have written since its last wakeup. -/
def WorkerPc.sinceWake : WorkerPc → Nat
  | .generating _ wake | .cbEmptyTest _ wake _ | .cbRingWrite _ wake _ _ | .cbTestMgr _ wake _ =>
      wake
  | .cbWakeup _ => tokenRingSize - 1
  | .ringDone _ _ | .storeState _ _ | .logDelivery _ | .clearCurrent _ | .testOrphaned _
  | .freeOrphan _ | .testMgr _ | .finalWakeup _ => 7
  | .waiting | .setRunning _ | .dispatch _ | .exited => 0

/-- The bound that the wakeup for every eighth token keeps. -/
def WorkerPc.sinceWakeMax : WorkerPc → Nat
  | .cbTestMgr _ _ _ => 8
  | .cbWakeup _ => tokenRingSize - 1
  | _ => 7

/-- The connection and the job for which `drain_stream_ring` is running. -/
def MainPc.handles : MainPc → Option (ConnId × JobId)
  | .drainTest c j | .drainLoad c j | .drainReply c j _ | .drainBatch c j | .drainDone c j
  | .drainState c j _ | .drainFinal c j => some (c, j)
  | _ => none

/-- The job of which `drain_stream_ring` will take another batch. -/
def MainPc.takes : MainPc → Option JobId
  | .drainTest _ j | .drainBatch _ j => some j
  | _ => none

theorem MainPc.handles_of_stage {pc : MainPc} {c : ConnId} {j : JobId}
    (h : pc.stage = .serving c j ∨ pc.stage = .finalizing c j) : pc.handles = some (c, j) := by
  cases pc with
  | busyLoad caller k => cases caller <;> simp at h
  | drainState d k done => cases done <;> simp_all [handles]
  | _ => simp_all [handles]

namespace State

variable (s : State)

/-- The connection that job `j` came on. -/
def home (j : JobId) : ConnId :=
  (s.jobs j).wakeupId

/-- A wakeup for the connection of `j` is in flight, or being handled for `j`. -/
def noticed (j : JobId) : Prop :=
  s.home j ∈ s.wakeups ∨ s.main.handles = some (s.home j, j)

instance (j : JobId) : Decidable (s.noticed j) :=
  inferInstanceAs (Decidable (_ ∨ _))

/-- The event loop has sent the final reply for `j` and freed it; orphans are freed unsent. -/
def finalised (j : JobId) : Prop :=
  (s.log j).frees = 1 ∧ (s.jobs j).orphaned = false

end State

/-! ## What the worker has left is noticed -/

/-- What holds in every state that the server reaches, of jobs that are over. -/
theorem endInv_of_reachable {srv : Server} {s : State} (h : (system srv).Reachable Free s) :
    EndInv s.face := by
  refine (lifecycle srv).invariant (fun _ _ => True) Sound.initial_face.endInv ?_ ?_ h
  · intro s m o' hr hend _ hs
    have hsound := Sound.of_reachable hr
    exact hend.step hsound.wake hsound.inv hs
  · exact fun _ _ _ _ _ _ => trivial

/-! ## What a step does to the record of a job -/

/-- The fields of job `j` that only its allocation and `MG_EV_CLOSE` write. -/
structure RecordKept (s s' : State) (j : JobId) : Prop where
  home : s'.home j = s.home j
  stream : (s'.jobs j).stream = (s.jobs j).stream
  mgr : (s'.jobs j).mgr = (s.jobs j).mgr

namespace State

variable {srv : Server} {s s' : State} {j : JobId}

theorem workerStep_record {ch : WorkerChoice} (h : s.workerStep ch = some s') :
    RecordKept s s' j := by
  revert h
  fun_cases workerStep s ch <;> intro h <;> cases h
  all_goals
    constructor <;> simp [home, leaveJob, freeJob, mgWakeup]
  all_goals
    split <;> simp_all

theorem workerSubmit_record (s : State) (j k : JobId) : RecordKept s (s.workerSubmit k).2 j := by
  unfold workerSubmit
  cases hslot : s.currentJob with
  | none => constructor <;> simp [home, installJob] <;> split <;> simp_all
  | some i =>
      cases hbusy : (s.jobs i).state.isBusy with
      | true => constructor <;> simp [home, hbusy]
      | false => constructor <;> simp [home, hbusy, installJob] <;> split <;> simp_all

theorem allocJob_record {c : ConnId} {type : JobType} {body : Bytes} {env : HandlerEnv}
    (h : j ≠ s.nextJob) : RecordKept s (s.allocJob srv c type body env) j := by
  unfold allocJob
  split
  · constructor <;> simp [home]
  · cases srv.buildJob c type body env.requestId <;> constructor <;>
      simp [home, freeJob, h]

theorem mainGo_record {env : HandlerEnv} (h : s.mainGo srv env = some s')
    (hnew : ∀ c type body, s.main = .alloc c type body → j ≠ s.nextJob)
    (hclose : ∀ c, s.main ≠ .closeMgr c j) : RecordKept s s' j := by
  revert h
  fun_cases mainGo s srv env <;> intro h <;> cases h
  case case1 caller k hpc =>
    cases caller <;> cases (s.jobs k).state.isBusy <;> constructor <;>
      simp [home, busyLoaded]
  case case2 hpc => exact allocJob_record (hnew _ _ _ hpc)
  case case3 c k hpc hacc =>
    rcases workerSubmit_record s j k with ⟨hhome, hstream, hmgr⟩
    exact ⟨hhome, hstream, hmgr⟩
  case case4 c k hpc hacc =>
    rcases workerSubmit_record s j k with ⟨hhome, hstream, hmgr⟩
    simp only [home] at hhome
    constructor <;> simp [home, freeJob, hhome, hstream, hmgr]
  case case19 c k hpc =>
    have hne : j ≠ k := fun heq => hclose c (heq ▸ hpc)
    constructor <;> simp [home, hne]
  all_goals
    constructor <;> simp [home, sendEvents, freeJob, finalizeReply, finalizeStream]
  all_goals
    split <;> simp_all

theorem EventFrame.record (h : EventFrame s s') (j : JobId) : RecordKept s s' j := by
  constructor <;> simp [home, h.jobs]

end State

/-! ## The counter and the ring -/

structure Attended (s : State) (j : JobId) : Prop where
  mgr : (s.log j).accepted = true ∨ (∃ c, s.main = .submit c j) →
    (s.conns (s.home j)).isOpen = true → (s.jobs j).mgr = true
  unstarted : (s.log j).started = 0 → (s.jobs j).ring.texts = []
  plain : (s.jobs j).stream = false → (s.jobs j).ring.texts = []
  writing : s.worker.writes = some j → (s.jobs j).ring.done = false
  counter : s.worker.job = some j → (s.jobs j).mgr = true →
    s.worker.sinceWake ≤ s.worker.sinceWakeMax
  buffered : s.worker.job = some j → (s.log j).frees = 0 →
    (s.conns (s.home j)).isOpen = true → s.home j ∉ s.wakeups → s.main.takes ≠ some j →
      (s.jobs j).ring.texts.length ≤ s.worker.sinceWake

theorem Attended.init (j : JobId) : Attended State.init j := by
  constructor <;> simp [State.init, workerJobInit, JobLog.fresh, WorkerPc.writes, WorkerPc.job]

namespace State

variable {srv : Server} {s s' : State} {j : JobId}

/-- The worker only adds to the log of a job. -/
theorem workerStep_log {ch : WorkerChoice} (h : s.workerStep ch = some s') :
    (s'.log j).accepted = (s.log j).accepted ∧ (s.log j).started ≤ (s'.log j).started ∧
      (s.log j).frees ≤ (s'.log j).frees := by
  revert h
  fun_cases workerStep s ch <;> intro h <;> cases h
  all_goals
    refine ⟨?_, ?_, ?_⟩ <;> simp [leaveJob, freeJob, mgWakeup]
  all_goals
    split <;> simp_all

theorem workerStep_wakeups {ch : WorkerChoice} {c : ConnId} (h : s.workerStep ch = some s')
    (hc : c ∈ s.wakeups) : c ∈ s'.wakeups := by
  revert h
  fun_cases workerStep s ch <;> intro h <;> cases h <;> simp [leaveJob, freeJob, mgWakeup, hc]
  all_goals
    split <;> simp [hc]

/-- Only `ring_write` changes what waits in a ring. -/
theorem workerStep_texts {ch : WorkerChoice} (h : s.workerStep ch = some s')
    (hwrite : ∀ wake text e, s.worker ≠ .cbRingWrite j wake text e) :
    (s'.jobs j).ring.texts = (s.jobs j).ring.texts := by
  -- `ring_done` writes the ring as well, but not its texts
  by_cases hdone : ∃ rc, s.worker = .ringDone j rc
  · rcases hdone with ⟨rc, hpc⟩
    cases ch <;> simp [workerStep, hpc] at h
    subst h
    simp [TokenRing.texts]
  · rw [(workerStep_kept h hwrite fun rc hpc => hdone ⟨rc, hpc⟩).ring]

/-- Only the end of a job marks its ring as done. -/
theorem workerStep_done {ch : WorkerChoice} (h : s.workerStep ch = some s')
    (hdone : ∀ rc, s.worker ≠ .ringDone j rc) :
    (s'.jobs j).ring.done = (s.jobs j).ring.done := by
  by_cases hwrite : ∃ wake text e, s.worker = .cbRingWrite j wake text e
  · rcases hwrite with ⟨wake, text, e, hpc⟩
    rcases workerStep_of_cbRingWrite h hpc with rfl | ⟨ring, hwr, rfl⟩
    · rfl
    · simp [(ringWrite_stored hwr).2.1]
  · rw [(workerStep_kept h (fun wake text e hpc => hwrite ⟨wake, text, e, hpc⟩) hdone).ring]

theorem workerStep_job {ch : WorkerChoice} (h : s.workerStep ch = some s')
    (hj : s'.worker.job = some j) :
    s.worker.job = some j ∨ s.worker = .waiting ∧ s.currentJob = some j := by
  revert h
  fun_cases workerStep s ch <;> intro h <;> cases h <;>
    simp_all [goWorker, leaveJob, WorkerPc.job]

/-- Every eighth token makes the worker send a wakeup. -/
theorem workerStep_counter {ch : WorkerChoice} (h : s.workerStep ch = some s')
    (hj : s'.worker.job = some j) (hmgr : (s.jobs j).mgr = true)
    (hcounter : s.worker.job = some j → s.worker.sinceWake ≤ s.worker.sinceWakeMax) :
    s'.worker.sinceWake ≤ s'.worker.sinceWakeMax := by
  revert h
  fun_cases workerStep s ch <;> intro h <;> cases h
  case case17 k wake text wasEmpty hpc ring hstored =>
    -- the token in the ring is counted
    obtain rfl : k = j := by simpa [WorkerPc.job] using hj
    have hle := hcounter (by simp [hpc, WorkerPc.job])
    simp only [hpc, WorkerPc.sinceWake, WorkerPc.sinceWakeMax] at hle
    simp only [goWorker, WorkerPc.sinceWake, WorkerPc.sinceWakeMax]
    omega
  case case19 k wake e hpc hno =>
    -- no wakeup: it is the first or an eighth token of no ring, or the manager is gone
    obtain rfl : k = j := by simpa [WorkerPc.job] using hj
    simp only [hmgr, Bool.true_and, Bool.or_eq_true, decide_eq_true_eq, not_or] at hno
    simp only [goWorker, WorkerPc.sinceWake, WorkerPc.sinceWakeMax]
    omega
  all_goals
    simp_all [goWorker, leaveJob, WorkerPc.job, WorkerPc.sinceWake, WorkerPc.sinceWakeMax]

/-- Only a wakeup takes the counter back. -/
theorem workerStep_sinceWake {ch : WorkerChoice} (h : s.workerStep ch = some s')
    (hj : s'.worker.job = some j) (hmgr : (s.jobs j).mgr = true)
    (hcounter : s.worker.job = some j → s.worker.sinceWake ≤ s.worker.sinceWakeMax)
    (hquiet : s.home j ∉ s'.wakeups) : s.worker.sinceWake ≤ s'.worker.sinceWake := by
  revert h
  fun_cases workerStep s ch <;> intro h <;> cases h
  -- the counter is dropped when the generation returns: 7 bounds it
  case case12 k wake rc hpc hstream =>
    obtain rfl : k = j := by simpa [WorkerPc.job] using hj
    simpa [hpc, WorkerPc.job, WorkerPc.sinceWake, WorkerPc.sinceWakeMax] using hcounter
  case case13 k wake rc hpc hstream =>
    obtain rfl : k = j := by simpa [WorkerPc.job] using hj
    simpa [hpc, WorkerPc.job, WorkerPc.sinceWake, WorkerPc.sinceWakeMax] using hcounter
  -- the wakeup that `wake` counts up to is being sent
  case case18 k wake e hpc hyes =>
    obtain rfl : k = j := by simpa [WorkerPc.job] using hj
    have hwake : wake ≤ 8 := by
      simpa [hpc, WorkerPc.job, WorkerPc.sinceWake, WorkerPc.sinceWakeMax] using hcounter
    simp only [hpc, goWorker, WorkerPc.sinceWake, tokenRingSize]
    omega
  all_goals
    simp_all [goWorker, leaveJob, mgWakeup, home, WorkerPc.job, WorkerPc.sinceWake]

/-- The worker puts no more into the ring than it counts, or sends a wakeup. -/
theorem workerStep_buffered {ch : WorkerChoice} (h : s.workerStep ch = some s')
    (hj : s'.worker.job = some j) (hmgr : (s.jobs j).mgr = true)
    (hcounter : s.worker.job = some j → s.worker.sinceWake ≤ s.worker.sinceWakeMax)
    (hquiet : s.home j ∉ s'.wakeups)
    (hbuffered : (s.jobs j).ring.texts.length ≤ s.worker.sinceWake) :
    (s'.jobs j).ring.texts.length ≤ s'.worker.sinceWake := by
  by_cases hwrite : ∃ wake text e, s.worker = .cbRingWrite j wake text e
  · rcases hwrite with ⟨wake, text, e, hpc⟩
    rcases workerStep_of_cbRingWrite h hpc with rfl | ⟨ring, hwr, rfl⟩
    · simpa [hpc, WorkerPc.sinceWake] using hbuffered
    · simpa [hpc, WorkerPc.sinceWake, (ringWrite_stored hwr).1] using hbuffered
  · calc (s'.jobs j).ring.texts.length
        = (s.jobs j).ring.texts.length := by
          rw [workerStep_texts h fun wake text e hpc => hwrite ⟨wake, text, e, hpc⟩]
      _ ≤ s.worker.sinceWake := hbuffered
      _ ≤ s'.worker.sinceWake := workerStep_sinceWake h hj hmgr hcounter hquiet

end State

namespace Attended

variable {srv : Server} {s s' : State} {j : JobId}

/-- While its connection is open, the worker's job has its manager. -/
theorem mgr_of_open (h : Attended s j) (hsound : Sound s) (hj : s.worker.job = some j)
    (hopen : (s.conns (s.home j)).isOpen = true) : (s.jobs j).mgr = true := by
  have hrun := hsound.inv.worker j ((WorkerPc.stage_job _).trans hj)
  exact h.mgr (.inl hrun.1) hopen

theorem worker_step (h : Attended s j) (hsound : Sound s) {ch : WorkerChoice}
    (hs : s.workerStep ch = some s') : Attended s' j := by
  have hrecord := State.workerStep_record (j := j) hs
  have hmain := (State.worker_frame hs).main
  have hconns := (State.worker_frame hs).conns
  rcases State.workerStep_log (j := j) hs with ⟨haccepted, hstarted, hfrees⟩
  constructor
  case mgr =>
    rw [haccepted, hmain, hconns, hrecord.home, hrecord.mgr]
    exact h.mgr
  -- a job that is not started is not the worker's, and nobody else writes its ring
  case unstarted =>
    intro hzero
    have hnot : (s.log j).started = 0 := Nat.le_zero.1 (hzero ▸ hstarted)
    rw [State.workerStep_texts hs, h.unstarted hnot]
    intro wake text e hpc
    have hrun := (hsound.inv.worker j (by simp [hpc])).2.1
    exact absurd hrun (by simp [jobFace, hnot])
  -- only a streaming job is written to
  case plain =>
    rw [hrecord.stream]
    intro hplain
    rw [State.workerStep_texts hs, h.plain hplain]
    intro wake text e hpc
    have hstream := hsound.paths.worker j (by simp [hpc, WorkerPc.streams])
    simp [hplain] at hstream
  case writing =>
    intro hwrites
    have hnot : ∀ rc, s.worker ≠ .ringDone j rc := by
      intro rc hpc
      rcases State.workerStep_writes hs hwrites with hw | ⟨hw, _⟩ <;>
        simp [hpc, WorkerPc.writes] at hw
    rw [State.workerStep_done hs hnot]
    rcases State.workerStep_writes hs hwrites with hw | ⟨hw, hslot⟩
    · exact h.writing hw
    · exact (hsound.inv.unstarted j (hsound.unstarted_of_waiting hw hslot)).1
  case counter =>
    intro hj hmgr
    rw [hrecord.mgr] at hmgr
    exact State.workerStep_counter hs hj hmgr fun hw => h.counter hw hmgr
  case buffered =>
    intro hj hzero hopen hquiet htakes
    rw [hconns, hrecord.home] at hopen
    rw [hrecord.home] at hquiet
    rw [hmain] at htakes
    have hlive : (s.log j).frees = 0 := Nat.le_zero.1 (hzero ▸ hfrees)
    -- the worker takes no wakeup out of flight
    have hbefore : s.home j ∉ s.wakeups := fun hc => hquiet (State.workerStep_wakeups hs hc)
    rcases State.workerStep_job hs hj with hw | ⟨hw, hslot⟩
    -- its own job: the ring grows with the counter
    · have hmgr := h.mgr_of_open hsound hw hopen
      exact State.workerStep_buffered hs hj hmgr (fun hw => h.counter hw hmgr) hquiet
        (h.buffered hw hlive hopen hbefore htakes)
    · -- a job that is only taken now has nothing in its ring
      have hempty := h.unstarted (hsound.unstarted_of_waiting hw hslot)
      rw [State.workerStep_texts hs (by simp [hw]), hempty]
      exact Nat.zero_le _

end Attended

/-! ## The handlers of the main thread -/

/-- What a step of a handler that does not allocate job `j` leaves of its log and of the wakeups. -/
structure HandlerKept (s s' : State) (j : JobId) : Prop where
  started : (s'.log j).started = (s.log j).started
  frees : (s.log j).frees ≤ (s'.log j).frees
  accepted : (s'.log j).accepted = true → (s.log j).accepted = true ∨ ∃ c, s.main = .submit c j
  wakeups : s'.wakeups = s.wakeups

namespace State

variable {srv : Server} {s s' : State} {j : JobId}

theorem workerSubmit_handler (s : State) (j k : JobId) :
    ((s.workerSubmit k).2.log j).started = (s.log j).started ∧
      ((s.workerSubmit k).2.log j).frees = (s.log j).frees ∧
        (s.workerSubmit k).2.wakeups = s.wakeups ∧
          (j ≠ k → ((s.workerSubmit k).2.log j).accepted = (s.log j).accepted) := by
  unfold workerSubmit
  cases hslot : s.currentJob with
  | none =>
      refine ⟨?_, ?_, ?_, ?_⟩ <;> simp [installJob]
      all_goals
        split <;> simp_all
  | some i =>
      cases hbusy : (s.jobs i).state.isBusy with
      | true => simp [hbusy]
      | false =>
          refine ⟨?_, ?_, ?_, ?_⟩ <;> simp [hbusy, installJob]
          all_goals
            split <;> simp_all

theorem mainGo_handler {env : HandlerEnv} (h : s.mainGo srv env = some s') :
    HandlerKept s s' j := by
  revert h
  fun_cases mainGo s srv env <;> intro h <;> cases h
  case case1 caller k hpc =>
    cases caller <;> cases (s.jobs k).state.isBusy <;> constructor <;>
      simp +contextual [busyLoaded]
  case case2 c type body hpc =>
    unfold allocJob
    split
    · constructor <;> simp +contextual
    · cases srv.buildJob c type body env.requestId
      · constructor <;> simp +contextual [freeJob]
        all_goals
          split <;> simp_all
      · constructor <;> simp +contextual
  case case3 c k hpc hacc =>
    rcases workerSubmit_handler s j k with ⟨hstarted, hfrees, hwakeups, haccepted⟩
    refine ⟨hstarted, hfrees.ge, ?_, hwakeups⟩
    intro hnow
    by_cases hj : j = k
    · exact .inr ⟨c, hj ▸ hpc⟩
    · exact .inl (haccepted hj ▸ hnow)
  case case4 c k hpc hacc =>
    rcases workerSubmit_handler s j k with ⟨hstarted, hfrees, hwakeups, haccepted⟩
    by_cases hj : j = k
    · constructor <;> simp [freeJob, hj, hpc]
      all_goals simp_all
    · constructor <;> simp [freeJob, hj, hpc]
      all_goals simp_all
  all_goals
    constructor <;>
      simp +contextual [sendEvents, freeJob, finalizeReply, finalizeStream]
  all_goals
    split <;> simp_all

theorem mainGo_ring {env : HandlerEnv} (h : s.mainGo srv env = some s')
    (hnew : ∀ c type body, s.main = .alloc c type body → j ≠ s.nextJob)
    (hbatch : ∀ c, s.main ≠ .drainBatch c j) : (s'.jobs j).ring = (s.jobs j).ring := by
  by_cases hdrains : s.main.drains = some (j, true)
  · revert h
    fun_cases mainGo s srv env <;> intro h <;> cases h <;> simp_all [MainPc.drains]
    all_goals
      simp [finalizeStream, sendEvents, freeJob]
  · exact (mainGo_kept h hdrains hnew).ring

theorem buildJob_ring {c : ConnId} {type : JobType} {body : Bytes} {requestId : CBuf profIdMax}
    {job : WorkerJob} (h : srv.buildJob c type body requestId = some job) :
    job.mgr = true ∧ job.ring = TokenRing.init := by
  unfold Server.buildJob at h
  cases type <;> rcases Option.map_eq_some_iff.1 h with ⟨req, _, rfl⟩ <;> exact ⟨rfl, rfl⟩

/-- The record under the new id is unused, or that of the job about to be submitted. -/
theorem allocJob_job (s : State) (srv : Server) (c : ConnId) (type : JobType) (body : Bytes)
    (env : HandlerEnv) :
    ((s.allocJob srv c type body env).jobs s.nextJob = s.jobs s.nextJob ∧
        (s.allocJob srv c type body env).main = .poll) ∨
      ((s.allocJob srv c type body env).jobs s.nextJob).mgr = true ∧
        ((s.allocJob srv c type body env).jobs s.nextJob).ring = TokenRing.init := by
  unfold allocJob
  split
  · exact .inl ⟨by simp, rfl⟩
  · cases hjob : srv.buildJob c type body env.requestId with
    | none => exact .inl ⟨by simp [freeJob], rfl⟩
    | some job => exact .inr (by simpa using buildJob_ring hjob)

/-- A job is about to be submitted only when it has just been allocated. -/
theorem mainGo_submit {env : HandlerEnv} {c : ConnId} (h : s.mainGo srv env = some s')
    (hpc : s'.main = .submit c j) :
    j = s.nextJob ∧ ∃ d type body, s.main = .alloc d type body := by
  revert h
  fun_cases mainGo s srv env <;> intro h <;> cases h
  case case1 caller k hk =>
    rcases busyLoaded_main (s.touch k) caller (s.jobs k).state.isBusy env.texts with
      hmain | ⟨d, type, body, _, hmain⟩ <;>
      simp [hmain] at hpc
  case case2 d type body hd =>
    rcases allocJob_main s srv d type body env with hmain | hmain
    · simp [hmain] at hpc
    · simp only [hmain, MainPc.submit.injEq] at hpc
      exact ⟨hpc.2.symm, d, type, body, hd⟩
  case case13 c k hk batch next =>
    simp only [goMain_main, next] at hpc
    split at hpc <;> cases hpc
  all_goals simp at hpc

/-- The event loop goes on taking batches until one is not full. -/
theorem mainGo_takes {env : HandlerEnv} (h : s.mainGo srv env = some s')
    (hbatch : ∀ c, s.main ≠ .drainBatch c j) (htakes : s'.main.takes ≠ some j) :
    s.main.takes ≠ some j ∨ (s.jobs j).stream = false := by
  revert h
  fun_cases mainGo s srv env <;> intro h <;> cases h
  case case9 c k hpc hplain =>
    rcases eq_or_ne k j with rfl | hne
    · exact .inr (by simpa using hplain)
    · exact .inl (by simp [hpc, MainPc.takes, hne])
  all_goals simp_all [MainPc.takes]

/-- The next step of the handler writes neither the record of job `j` nor its ring. -/
structure LeavesJob (s : State) (j : JobId) : Prop where
  new : ∀ c type body, s.main = .alloc c type body → j ≠ s.nextJob
  close : ∀ c, s.main ≠ .closeMgr c j
  batch : ∀ c, s.main ≠ .drainBatch c j

/-- Three steps of a handler write the record of a job or its ring. -/
theorem writesJob_cases (s : State) (j : JobId) :
    (j = s.nextJob ∧ ∃ c type body, s.main = .alloc c type body) ∨ (∃ c, s.main = .closeMgr c j) ∨
      (∃ c, s.main = .drainBatch c j) ∨ s.LeavesJob j := by
  by_cases hnew : j = s.nextJob ∧ ∃ c type body, s.main = .alloc c type body
  · exact .inl hnew
  · by_cases hclose : ∃ c, s.main = .closeMgr c j
    · exact .inr (.inl hclose)
    · by_cases hbatch : ∃ c, s.main = .drainBatch c j
      · exact .inr (.inr (.inl hbatch))
      · refine .inr (.inr (.inr ⟨?_, ?_, ?_⟩))
        · exact fun c type body hpc hj => hnew ⟨hj, c, type, body, hpc⟩
        · exact fun c hpc => hclose ⟨c, hpc⟩
        · exact fun c hpc => hbatch ⟨c, hpc⟩

end State

namespace Attended

variable {srv : Server} {s s' : State} {j : JobId}

theorem handler_quiet (h : Attended s j) {env : HandlerEnv} (hs : s.mainGo srv env = some s')
    (hleaves : s.LeavesJob j) : Attended s' j := by
  have hrecord := State.mainGo_record hs hleaves.new hleaves.close
  have hkept := State.mainGo_handler (j := j) hs
  have hring := State.mainGo_ring hs hleaves.new hleaves.batch
  have hworker := State.mainGo_worker hs
  have hopened := (State.mainGo_conns hs).isOpen (s.home j)
  constructor
  case mgr =>
    rw [hrecord.home, hopened, hrecord.mgr]
    rintro (haccepted | ⟨c, hpc⟩) hopen
    · rcases hkept.accepted haccepted with hold | hsubmit
      · exact h.mgr (.inl hold) hopen
      · exact h.mgr (.inr hsubmit) hopen
    · rcases State.mainGo_submit hs hpc with ⟨hj, d, type, body, halloc⟩
      exact absurd hj (hleaves.new d type body halloc)
  case unstarted =>
    rw [hkept.started, hring]
    exact h.unstarted
  case plain =>
    rw [hrecord.stream, hring]
    exact h.plain
  case writing =>
    rw [hworker, hring]
    exact h.writing
  case counter =>
    rw [hworker, hrecord.mgr]
    exact h.counter
  case buffered =>
    rw [hworker, hrecord.home, hopened, hkept.wakeups, hring]
    intro hj hzero hopen hquiet htakes
    have hlive : (s.log j).frees = 0 := Nat.le_zero.1 (hzero ▸ hkept.frees)
    rcases State.mainGo_takes hs hleaves.batch htakes with hnot | hplain
    · exact h.buffered hj hlive hopen hquiet hnot
    · rw [h.plain hplain]
      exact Nat.zero_le _

/-- Taking a batch that is not full leaves an empty ring. -/
theorem batch_step (h : Attended s j) (hsound : Sound s) {env : HandlerEnv} {c : ConnId}
    (hpc : s.main = .drainBatch c j) (hs : s.mainGo srv env = some s') : Attended s' j := by
  have hstream := hsound.paths.main j true (by simp [hpc, MainPc.drains])
  have hworker := State.mainGo_worker hs
  -- the batch and what stays are together what waited
  rcases drainBatch_spec (s.jobs j).ring with ⟨htexts, hdone⟩
  simp [State.mainGo, hpc] at hs
  subst hs
  constructor
  case mgr =>
    rintro (haccepted | ⟨d, hsubmit⟩) hopen
    · simp [State.sendEvents, State.home] at haccepted hopen ⊢
      exact h.mgr (.inl haccepted) hopen
    · simp only [State.goMain_main] at hsubmit
      split at hsubmit <;> cases hsubmit
  case unstarted =>
    intro hzero
    have hnil := h.unstarted (by simpa [State.sendEvents] using hzero)
    simp [State.sendEvents, hnil] at htexts ⊢
    exact htexts.2
  case plain => simp [State.sendEvents, hstream]
  case writing => simpa [State.sendEvents, hdone] using h.writing
  case counter => simpa [State.sendEvents] using h.counter
  case buffered =>
    intro _ _ _ _ htakes
    -- a full batch makes the loop take another, so this one was short
    have hshort : (drainBatch (s.jobs j).ring).1.length ≠ drainBatchMax := by
      intro hfull
      simp [hfull, MainPc.takes] at htakes
    simp [State.sendEvents, drainBatch_short hshort]

/-- `MG_EV_CLOSE` runs for the connection that the job came on. -/
theorem closed_of_closeMgr (hsound : Sound s) {c : ConnId} (hpc : s.main = .closeMgr c j) :
    (s.conns (s.home j)).isOpen = false := by
  have hclosing := hsound.inv.closing c j (by simp [hpc])
  have hhome : s.home j = c := (hsound.inv.held c j hclosing.1).2.2.2.1
  rw [hhome]
  exact hclosing.2

/-- The manager pointer is cleared once the connection is closed. -/
theorem closeMgr_step (h : Attended s j) (hsound : Sound s) {env : HandlerEnv} {c : ConnId}
    (hpc : s.main = .closeMgr c j) (hs : s.mainGo srv env = some s') : Attended s' j := by
  have hclosed := closed_of_closeMgr hsound hpc
  simp [State.mainGo, hpc] at hs
  subst hs
  constructor
  case mgr =>
    intro _ hopen
    simp [State.home] at hopen
    simp [State.home, hopen] at hclosed
  case unstarted => simpa using h.unstarted
  case plain => simpa using h.plain
  case writing => simpa using h.writing
  case counter => simp
  case buffered =>
    intro _ _ hopen
    simp [State.home] at hopen
    simp [State.home, hopen] at hclosed

/-- The new job has its manager and an empty ring. -/
theorem alloc_step (h : Attended s j) (hsound : Sound s) {env : HandlerEnv} {c : ConnId}
    {type : JobType} {body : Bytes} (hpc : s.main = .alloc c type body) (hj : j = s.nextJob)
    (hs : s.mainGo srv env = some s') : Attended s' j := by
  have hworker := State.mainGo_worker hs
  have hkept := State.mainGo_handler (j := j) hs
  have hun := hsound.inv.unallocated j (by simp [jobFace, Bool.eq_false_iff, hj])
  have hfresh := hsound.inv.unaccepted j hun.1
  -- the id is new, so neither the worker nor the ring knows it
  have hidle : s'.worker.job ≠ some j := by
    rw [hworker]
    intro hw
    have hrun := hsound.inv.worker j ((WorkerPc.stage_job _).trans hw)
    exact absurd (hun.1.symm.trans hrun.1) (by simp)
  have hunaccepted : (s'.log j).accepted ≠ true := by
    intro haccepted
    rcases hkept.accepted haccepted with hold | ⟨d, hsubmit⟩
    · exact absurd (hun.1.symm.trans hold) (by simp)
    · simp [hpc] at hsubmit
  have hwrites : s'.worker.writes ≠ some j := by
    intro hw
    have hstage := WorkerPc.stage_of_writes hw
    exact hidle ((WorkerPc.stage_job _).symm.trans (by rw [hstage]; rfl))
  have hunstarted := h.unstarted hfresh.1
  simp [State.mainGo, hpc] at hs
  subst hs
  have hrecord := State.allocJob_job s srv c type body env
  rw [← hj] at hrecord
  have hempty : ((s.allocJob srv c type body env).jobs j).ring.texts = [] := by
    rcases hrecord with ⟨hsame, _⟩ | ⟨_, hring⟩
    · rw [hsame, hunstarted]
    · rw [hring, TokenRing.texts_init]
  constructor
  case mgr =>
    rintro (haccepted | ⟨d, hsubmit⟩) _
    · exact absurd haccepted hunaccepted
    · rcases hrecord with ⟨_, hpoll⟩ | ⟨hmgr, _⟩
      · simp [hpoll] at hsubmit
      · exact hmgr
  case unstarted => exact fun _ => hempty
  case plain => exact fun _ => hempty
  case writing => exact fun hw => absurd hw hwrites
  case counter => exact fun hw => absurd hw hidle
  case buffered => exact fun hw => absurd hw hidle

theorem handler_step (h : Attended s j) (hsound : Sound s) {env : HandlerEnv}
    (hs : s.mainGo srv env = some s') : Attended s' j := by
  rcases s.writesJob_cases j with ⟨hj, c, type, body, hpc⟩ | ⟨c, hpc⟩ | ⟨c, hpc⟩ | hleaves
  · exact h.alloc_step hsound hpc hj hs
  · exact h.closeMgr_step hsound hpc hs
  · exact h.batch_step hsound hpc hs
  · exact h.handler_quiet hs hleaves

end Attended

/-! ## Events -/

namespace State

variable {srv : Server} {s s' : State} {ch : MainChoice}

theorem busyRead_quiet (s : State) (caller : BusyCaller) :
    (∀ c j, (s.busyRead caller).main ≠ .submit c j) ∧ (s.busyRead caller).wakeups = s.wakeups := by
  cases hslot : s.currentJob <;> cases caller <;> simp [busyRead, hslot]

theorem evHttp_quiet (s : State) (srv : Server) (c : ConnId) (hm : HttpMessage)
    (texts : JsonTexts) (hpoll : s.main = .poll) :
    (∀ d j, (s.evHttp srv c hm texts).main ≠ .submit d j) ∧
      (s.evHttp srv c hm texts).wakeups = s.wakeups := by
  unfold evHttp
  split
  case h_6 => exact busyRead_quiet s _
  all_goals simp [hpoll]

/-- A wakeup is taken out of flight by the handler of its connection. -/
theorem EventStep.quiet (h : s.EventStep srv ch s') (hpoll : s.main = .poll) :
    (∀ c j, s'.main ≠ .submit c j) ∧
      ∀ c j, (s.conns c).isOpen = true → (s.conns c).fnData = some j → c ∈ s.wakeups →
        c ∈ s'.wakeups ∨ s'.main = .drainTest c j := by
  cases h with
  | accept _ =>
      unfold evAccept
      split <;> simp +contextual [updConn, hpoll]
  | @http c hm texts _ _ =>
      rcases evHttp_quiet s srv c hm texts hpoll with ⟨hsubmit, hwakeups⟩
      exact ⟨hsubmit, fun d j _ _ hd => .inl (hwakeups ▸ hd)⟩
  | @drop c _ _ hgone =>
      refine ⟨by simp [hpoll], fun d i hopen hdata hd => ?_⟩
      by_cases heq : d = c
      · subst heq
        rcases hgone with hclosed | hnone
        · simp [hclosed] at hopen
        · simp [hnone] at hdata
      · exact .inl ((List.mem_erase_of_ne heq).2 hd)
  | @serve c j _ _ _ hdata =>
      refine ⟨by simp, fun d i _ hdata' hd => ?_⟩
      by_cases heq : d = c
      · subst heq
        rw [hdata] at hdata'
        cases hdata'
        exact .inr rfl
      · exact .inl ((List.mem_erase_of_ne heq).2 hd)
  | closeFree _ _ => exact ⟨by simp [evClose, hpoll], fun _ _ _ _ hd => .inl hd⟩
  | closeBegin _ _ => exact ⟨by simp, fun _ _ _ _ hd => .inl hd⟩
  | report _ =>
      rcases busyRead_quiet s .report with ⟨hsubmit, hwakeups⟩
      exact ⟨hsubmit, fun c j _ _ hc => .inl (hwakeups ▸ hc)⟩
  | leave _ _ => exact ⟨by simp [hpoll], fun _ _ _ _ hd => .inl hd⟩

end State

/-! ## Every run -/

/-- The connection of an accepted job does not open again. -/
theorem State.isOpen_of_step {srv : Server} {s s' : State} {a : Action} {j : JobId}
    (hsound : Sound s) (hs : s.act srv a = some s') (haccepted : (s.log j).accepted = true)
    (hopen : (s'.conns (s.home j)).isOpen = true) : (s.conns (s.home j)).isOpen = true := by
  have hused := hsound.wake.homeUsed j haccepted
  rcases hsound.moves hs with ⟨_, hface⟩ | ⟨m, _, hstep⟩
  · exact (congrArg (fun o => o.isOpen (s.home j)) hface).symm.trans hopen
  · rcases hstep.isOpen_of hopen with hold | hunused
    · exact hold
    · exact absurd (hused.symm.trans hunused) (by simp)

namespace Attended

variable {srv : Server} {s s' : State} {j : JobId}

theorem event_step (h : Attended s j) (hsound : Sound s) (hend : EndInv s.face)
    {ch : MainChoice} (hs : s.mainStep srv ch = some s') (hpoll : s.main = .poll)
    (hevent : s.EventStep srv ch s') : Attended s' j := by
  have hev := hevent.frame hpoll
  rcases hevent.quiet hpoll with ⟨hsubmit, hwakeups⟩
  have hhome : s'.home j = s.home j := by rw [State.home, hev.jobs, State.home]
  -- the connection of an accepted job does not open again
  have hopened : (s.log j).accepted = true → (s'.conns (s.home j)).isOpen = true →
      (s.conns (s.home j)).isOpen = true :=
    fun haccepted => State.isOpen_of_step hsound (a := .main ch) hs haccepted
  constructor
  case mgr =>
    rw [hhome, hev.jobs, hev.log]
    rintro (haccepted | ⟨c, hpc⟩) hopen
    · exact h.mgr (.inl haccepted) (hopened haccepted hopen)
    · exact absurd hpc (hsubmit c j)
  case unstarted =>
    rw [hev.jobs, hev.log]
    exact h.unstarted
  case plain =>
    rw [hev.jobs]
    exact h.plain
  case writing =>
    rw [hev.worker, hev.jobs]
    exact h.writing
  case counter =>
    rw [hev.worker, hev.jobs]
    exact h.counter
  case buffered =>
    rw [hhome, hev.worker, hev.jobs, hev.log]
    intro hj hzero hopen hquiet htakes
    have hrun := hsound.inv.worker j ((WorkerPc.stage_job _).trans hj)
    have hbefore := hopened hrun.1 hopen
    have hnow : s.main.takes ≠ some j := by simp [hev.poll, MainPc.takes]
    -- the wakeup of the worker's job is not dropped: its connection is open and has the job
    have hattached : (s.conns (s.home j)).fnData = some j := by
      rcases hend.attached j hrun.1 hzero hbefore with hheld | hloop
      · exact hheld
      · simp [hev.poll] at hloop
    refine h.buffered hj hzero hbefore ?_ hnow
    intro hflight
    rcases hwakeups _ j hbefore hattached hflight with hstill | hdrain
    · exact hquiet hstill
    · simp [hdrain, MainPc.takes] at htakes

theorem step (h : Attended s j) (hsound : Sound s) (hend : EndInv s.face) {a : Action}
    (hs : s.act srv a = some s') : Attended s' j := by
  cases a with
  | signal =>
      simp [State.act] at hs
      subst hs
      exact ⟨h.mgr, h.unstarted, h.plain, h.writing, h.counter, h.buffered⟩
  | worker ch => exact h.worker_step hsound hs
  | main ch =>
      rcases State.mainStep_cases hs with ⟨env, rfl, hgo⟩ | ⟨hpoll, hev⟩
      · exact h.handler_step hsound hgo
      · exact h.event_step hsound hend hs hpoll hev

theorem of_reachable (h : (system srv).Reachable Free s) : Attended s j :=
  h.invariant (P := fun s => Attended s j) (Attended.init j)
    fun _ _ _ hr hattended _ hs =>
      hattended.step (Sound.of_reachable hr) (endInv_of_reachable hr) hs

end Attended

/-! ## What the worker has left -/

namespace State

variable {srv : Server} {s : State}

theorem workerMove_leave {j : JobId} (h : s.workerMove = some (.leave j)) :
    s.worker.job = some j ∧ (s.jobs j).mgr = false := by
  revert h
  fun_cases workerMove s <;> grind [workerMove, Option.map_eq_some_iff, WorkerPc.job]

theorem workerMove_attentive {m : Move JobId ConnId} (hleave : ∀ j, m ≠ .leave j)
    (h : s.workerMove = some m) : Attentive s.face m := by
  cases m with
  | leave j => exact absurd rfl (hleave j)
  | rest c j =>
      revert h
      fun_cases workerMove s <;> grind [workerMove, Option.map_eq_some_iff]
  | drop c =>
      revert h
      fun_cases workerMove s <;> grind [workerMove, Option.map_eq_some_iff]
  | _ => trivial

theorem mainMove_attentive {ch : MainChoice} {m : Move JobId ConnId}
    (h : s.mainMove srv ch = some m) : Attentive s.face m := by
  cases m with
  | leave j =>
      cases ch with
      | go env =>
          simp only [mainMove] at h
          revert h
          fun_cases handlerMove s srv env <;> grind [handlerMove]
      | _ => grind [mainMove, Option.map_eq_some_iff]
  | rest c j =>
      cases ch with
      | go env =>
          simp only [mainMove] at h
          revert h
          fun_cases handlerMove s srv env <;> grind [handlerMove, Attentive, face_job, jobFace]
      | _ => grind [mainMove, Option.map_eq_some_iff]
  | drop c =>
      cases ch with
      | go env =>
          simp only [mainMove] at h
          revert h
          fun_cases handlerMove s srv env <;> grind [handlerMove]
      | wakeup d =>
          -- only a message for a connection that is closed or has no job is dropped
          intro hopen
          cases hdata : (s.conns d).fnData with
          | none => grind [mainMove, face_held]
          | some j => grind [mainMove, face_isOpen]
      | _ => grind [mainMove, Option.map_eq_some_iff]
  | _ => trivial

end State

/-- The worker leaves without a wakeup only when the manager pointer is gone. -/
theorem attentive_of_move {srv : Server} {s : State} {a : Action} {m : Move JobId ConnId}
    (hattended : ∀ j, Attended s j) (hsound : Sound s) (hm : s.move srv a = some m) :
    Attentive s.face m := by
  cases a with
  | signal => cases hm
  | main ch => exact State.mainMove_attentive hm
  | worker ch =>
      by_cases hleave : ∃ j, m = .leave j
      · rcases hleave with ⟨j, rfl⟩
        rcases State.workerMove_leave hm with ⟨hj, hmgr⟩
        -- an open connection would have kept the manager pointer
        change (s.conns (s.home j)).isOpen = false
        rw [Bool.eq_false_iff]
        intro hopen
        exact absurd ((hattended j).mgr_of_open hsound hj hopen) (by simp [hmgr])
      · exact State.workerMove_attentive (fun j heq => hleave ⟨j, heq⟩) hm

theorem noticed_of_reachable {srv : Server} {s : State} (h : (system srv).Reachable Free s) :
    Noticed s.face := by
  refine (lifecycle srv).invariant Attentive Sound.initial_face.noticed ?_ ?_ h
  · intro s m o' hr hnoticed hg hs
    have hsound := Sound.of_reachable hr
    exact hnoticed.step (endInv_of_reachable hr) hsound.wake hsound.inv hg hs
  · intro s a m hr _ hm
    exact attentive_of_move (fun j => Attended.of_reachable hr) (Sound.of_reachable hr) hm

/-! ## No stuck producer, no lost final wakeup -/

section Reached

variable {srv : Server} {s : State} {j : JobId}

theorem noticed_of_takes (hsound : Sound s) (htakes : s.main.takes = some j) : s.noticed j := by
  have hserving : ∃ c, s.main.stage = .serving c j ∧ s.main.handles = some (c, j) := by
    cases hpc : s.main <;> simp_all [MainPc.takes, MainPc.handles]
  rcases hserving with ⟨c, hstage, hhandles⟩
  -- the connection being served is the one that the job came on
  have hheld := (hsound.inv.serving c j (.inr (.inl hstage))).1
  have hhome : s.home j = c := (hsound.inv.held c j hheld).2.2.2.1
  exact .inr (hhome ▸ hhandles)

/-- The job that the worker writes tokens of is not freed. -/
theorem unfreed_of_writes (hsound : Sound s) (hend : EndInv s.face) (hattended : Attended s j)
    (hwrites : s.worker.writes = some j) : (s.log j).frees = 0 := by
  have hstage := WorkerPc.stage_of_writes hwrites
  have hbusy := (hsound.inv.busy j hstage).2
  have hrun := hsound.inv.worker j (by simp only [State.face_worker, hstage]; rfl)
  by_contra hfreed
  rcases hend.freed j hrun.1 hfreed with hfinal | hdone
  · exact absurd (hbusy.symm.trans hfinal) (by simp)
  · exact absurd (hattended.writing hwrites) (by simpa [jobFace] using hdone)

/-- Without a wakeup, and with no batch to come, at most 7 tokens wait for the worker's job. -/
theorem ring_le_seven (hsound : Sound s) (hattended : Attended s j) (hj : s.worker.job = some j)
    (hcallback : ∀ wake e, s.worker ≠ .cbTestMgr j wake e) (hwakeup : s.worker ≠ .cbWakeup j)
    (hfrees : (s.log j).frees = 0) (hopen : (s.conns (s.home j)).isOpen = true)
    (hquiet : s.home j ∉ s.wakeups) (htakes : s.main.takes ≠ some j) :
    (s.jobs j).ring.texts.length ≤ 7 := by
  have hmgr := hattended.mgr_of_open hsound hj hopen
  have hmax : s.worker.sinceWakeMax = 7 := by
    cases hpc : s.worker <;> simp_all [WorkerPc.sinceWakeMax, WorkerPc.job]
  calc (s.jobs j).ring.texts.length
      ≤ s.worker.sinceWake := hattended.buffered hj hfrees hopen hquiet htakes
    _ ≤ s.worker.sinceWakeMax := hattended.counter hj hmgr
    _ = 7 := hmax

theorem finalised_or_noticed_of_left (h : (system srv).Reachable Free s)
    (hopen : (s.conns (s.home j)).isOpen = true) (hleft : (s.log j).left = true) :
    s.finalised j ∨ s.noticed j := by
  have hsound := Sound.of_reachable h
  rcases Nat.eq_zero_or_pos (s.log j).frees with hzero | hpos
  · right
    rcases noticed_of_reachable h j hleft hzero hopen with hflight | hloop
    · exact .inl (List.count_pos_iff.1 hflight)
    · exact .inr (MainPc.handles_of_stage hloop)
  · left
    refine ⟨Nat.le_antisymm (hsound.inv.once j) hpos, ?_⟩
    -- orphans are only made of jobs whose connection is closed
    rw [Bool.eq_false_iff]
    intro horphaned
    have hclosed : (s.conns (s.home j)).isOpen = false :=
      (endInv_of_reachable h).orphaned j horphaned
    simp [hopen] at hclosed

end Reached

/-- On a connection that stays open: when the worker waits on a full ring, a wakeup is in flight, or
it is being handled and another batch will be taken; outside the callback, with no such wakeup, at
most 7 tokens wait; and a job that the worker has left is finalised or about to be. -/
theorem no_lost_wakeup (srv : Server) {s : State} (h : (system srv).Reachable Free s) {j : JobId}
    (hopen : (s.conns (s.home j)).isOpen = true) :
    (∀ wake text e, s.worker = .cbRingWrite j wake text e →
      ringWrite (s.jobs j).ring text (s.jobs j).cancel s.shutdownRequested = .waits →
        s.noticed j ∧ (s.home j ∈ s.wakeups ∨ s.main.takes = some j)) ∧
    (s.worker.inCallback ≠ some j → (s.log j).frees = 0 → ¬ s.noticed j →
      (s.jobs j).ring.texts.length ≤ 7) ∧
    ((s.log j).left = true → s.finalised j ∨ s.noticed j) := by
  have hsound := Sound.of_reachable h
  have hend := endInv_of_reachable h
  have hattended := Attended.of_reachable (j := j) h
  refine ⟨?_, ?_, finalised_or_noticed_of_left h hopen⟩
  · intro wake text e hpc hwaits
    have hfrees := unfreed_of_writes hsound hend hattended (by simp [hpc, WorkerPc.writes])
    have hcoming : s.home j ∈ s.wakeups ∨ s.main.takes = some j := by
      by_contra hnone
      rw [not_or] at hnone
      have hfew := ring_le_seven hsound hattended (by simp [hpc, WorkerPc.job]) (by simp [hpc])
        (by simp [hpc]) hfrees hopen hnone.1 hnone.2
      -- the producer waits on a full ring, and seven tokens do not fill it
      rw [ringWrite_waits hwaits] at hfew
      simp at hfew
    exact ⟨hcoming.elim .inl (noticed_of_takes hsound), hcoming⟩
  · intro hcallback hfrees hquiet
    -- not started, the worker's job, or left by it
    rcases hsound.inv.started j with hzero | ⟨_, hworker | hleft⟩
    · simp [hattended.unstarted hzero]
    · have hj : s.worker.job = some j := (WorkerPc.stage_job _).symm.trans hworker
      refine ring_le_seven hsound hattended hj ?_ ?_ hfrees hopen (fun hc => hquiet (.inl hc))
        fun htakes => hquiet (noticed_of_takes hsound htakes)
      · exact fun wake e hpc => hcallback (by simp [hpc, WorkerPc.inCallback])
      · exact fun hpc => hcallback (by simp [hpc, WorkerPc.inCallback])
    · rcases finalised_or_noticed_of_left h hopen hleft with hfinal | hnoticed
      · exact absurd hfinal.1 (by simp [hfrees])
      · exact absurd hnoticed hquiet

namespace Sample

/-- The second token finds a ring that is not empty, and is stored after it has been drained: no
wakeup is sent for it. -/
def unseenToken : List Action :=
  [connect, post 0 streamBody, main, main, main, main, work, work, work,
    .worker (.piece (ascii "a") true), work, work, work, work,
    .worker (.piece (ascii "b") true), work,
    .main (.wakeup 0), main, main, main, main, work, work]

theorem unseenToken_replays :
    ((system server).runGuarded Free State.init unseenToken).isSome = true := by
  decide

def afterUnseenToken : State :=
  ((system server).runGuarded Free State.init unseenToken).get unseenToken_replays

theorem no_lost_wakeup_unseenToken :
    (afterUnseenToken.jobs 0).ring.texts ≠ [] ∧
      (afterUnseenToken.jobs 0).ring.texts.length ≤ 7 := by
  have hr : (system server).Reachable Free afterUnseenToken :=
    reachable_of_isSome unseenToken_replays
  refine ⟨by decide, ?_⟩
  exact (no_lost_wakeup server hr (j := 0) (by decide)).2.1 (by decide) (by decide) (by decide)

end Sample

end Professord
