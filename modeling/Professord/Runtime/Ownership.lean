import Professord.Runtime.Access

/-!
# Ownership — accepted jobs are run, freed once and not touched afterwards

What `Professord.Lifecycle.Conditions` says of the life cycle, for the server.  Each of the three
guarantees fails in one window between two steps of the threads:

- `submitsBetweenJobs` : `worker_submit` finds no finished job in `current_job`,
- `freesWhenAlone` : a job is freed only when the other thread has dropped its pointer,
- `orphansBeforeTest` : a job is marked `orphaned` only while the worker will still test the mark.

Each guard is a condition on the state in which the step is taken; the runs after each result
show what happens otherwise.
-/

namespace Professord

open GuardedSystem Lifecycle CText

/-! ## Which step makes a move -/

namespace State

variable {srv : Server} {s : State} {a : Action}

theorem workerMove_settles {m : Move JobId ConnId} (h : s.workerMove = some m) :
    m.settles = false := by
  revert h
  fun_cases workerMove s <;> grind [workerMove, Option.map_eq_some_iff, Move.settles]

theorem handlerMove_settles {m : Move JobId ConnId} {env : HandlerEnv}
    (h : s.handlerMove srv env = some m) (hm : m.settles = true) :
    (∃ c j, m = .accept c j ∧ s.main = .submit c j) ∨
      (∃ c j, m = .finalize c j ∧ ((∃ st, s.main = .drainReply c j st) ∨ s.main = .drainFinal c j)) ∨
      ∃ c j, m = .orphan c j ∧ s.main = .closeOrphan c j := by
  revert h
  fun_cases handlerMove s srv env <;> grind [handlerMove, Move.settles]

/-- A job is handed over or freed by the event loop at three program points. -/
theorem move_settles {m : Move JobId ConnId} (h : s.move srv a = some m)
    (hm : m.settles = true) :
    (∃ env, a = .main (.go env)) ∧
      ((∃ c j, m = .accept c j ∧ s.main = .submit c j) ∨
        (∃ c j, m = .finalize c j ∧
          ((∃ st, s.main = .drainReply c j st) ∨ s.main = .drainFinal c j)) ∨
        ∃ c j, m = .orphan c j ∧ s.main = .closeOrphan c j) := by
  cases a with
  | signal => cases h
  | worker ch => simp [workerMove_settles h] at hm
  | main ch =>
      cases ch with
      | go env => exact ⟨⟨env, rfl⟩, handlerMove_settles h hm⟩
      | _ =>
          simp only [move] at h
          grind [mainMove, Option.map_eq_some_iff, Move.settles]

theorem workerMove_dispose {j : JobId} (h : s.workerMove = some (.dispose j)) :
    s.worker = .freeOrphan j := by
  revert h
  fun_cases workerMove s <;> grind [workerMove, Option.map_eq_some_iff]

theorem mainMove_ne_dispose {j : JobId} {ch : MainChoice} :
    s.mainMove srv ch ≠ some (.dispose j) := by
  cases ch with
  | go env =>
      simp only [mainMove]
      fun_cases handlerMove s srv env <;> grind [handlerMove]
  | _ => grind [mainMove, Option.map_eq_some_iff]

end State

/-! ## Accepted jobs are started -/

/-- `worker_submit` is not called while `current_job` is a finished job. -/
def submitsBetweenJobs (s : State) (a : Action) : Bool :=
  match a, s.main, s.currentJob with
  | .main (.go _), .submit _ _, some k => (s.jobs k).state.isBusy
  | _, _, _ => true

theorem acceptsWhenEmpty_of_submitsBetweenJobs {srv : Server} {s : State} {a : Action}
    {m : Move JobId ConnId} (hg : submitsBetweenJobs s a = true) (hm : s.move srv a = some m) :
    AcceptsWhenEmpty s.face m := by
  cases m with
  | accept c j =>
      rcases State.move_settles hm rfl with ⟨⟨env, rfl⟩, hpc⟩
      have hmain : s.main = .submit c j := by simpa using hpc
      cases hslot : s.currentJob with
      | none => exact hslot
      | some k =>
          -- a busy job in the slot is what makes `worker_submit` refuse
          have hbusy : (s.jobs k).state.isBusy = true := by
            simpa [submitsBetweenJobs, hmain, hslot] using hg
          simp [State.move, State.mainMove, State.handlerMove, hmain, State.workerSubmit, hslot,
            hbusy] at hm
  | _ => trivial

/-- Along runs in which `worker_submit` never finds a finished job in `current_job`, an accepted
job is either still `current_job` or was started exactly once. -/
theorem accepted_started_once (srv : Server) {s : State}
    (h : (system srv).Reachable (fun s a => submitsBetweenJobs s a = true) s) {j : JobId}
    (hacc : (s.log j).accepted = true) :
    ((s.log j).started = 0 ∧ s.currentJob = some j) ∨ (s.log j).started = 1 := by
  -- the life cycle's invariant, carried over by the refinement
  have hhanded : Handed s.face := by
    refine (lifecycle srv).invariant AcceptsWhenEmpty Sound.initial_face.handed ?_ ?_ h
    · intro s m o' hr hhanded hga hs
      exact hhanded.step (Sound.of_reachable hr).inv hga hs
    · intro s a m _ hg hm
      exact acceptsWhenEmpty_of_submitsBetweenJobs hg hm
  -- a job is never started twice, whatever the schedule
  rcases (Sound.of_reachable h).inv.started j with hzero | ⟨hone, _⟩
  · exact .inl ⟨hzero, hhanded.pending j hacc hzero⟩
  · exact .inr hone

namespace Sample

/-- Two requests, the second one after the first job has been finished and cleared. -/
def twoJobs : List Action :=
  [connect, connect, post 0 plainBody, main, main, main, main,
    work, work, work, .worker (.ret 0), work, work, work,
    post 1 plainBody, main, main, main, main]

theorem twoJobs_replays :
    ((system server).runGuarded (fun s a => submitsBetweenJobs s a = true) State.init
      twoJobs).isSome = true := by
  decide

def afterTwoJobs : State :=
  ((system server).runGuarded (fun s a => submitsBetweenJobs s a = true) State.init twoJobs).get
    twoJobs_replays

/-- The first job has been started once; the second one has not been started, and is in the slot. -/
theorem accepted_started_once_twoJobs :
    (afterTwoJobs.log 0).started = 1 ∧
      (afterTwoJobs.log 1).started = 0 ∧ afterTwoJobs.currentJob = some 1 := by
  have hreach := reachable_of_isSome twoJobs_replays
  constructor
  · refine (accepted_started_once server hreach (j := 0) (by decide)).resolve_left ?_
    exact fun hwaits => absurd hwaits.2 (by decide)
  · refine (accepted_started_once server hreach (j := 1) (by decide)).resolve_right ?_
    decide

/-- The second request arrives when the first job is `DONE` but not yet cleared. -/
def overwrittenJob : List Action :=
  [connect, connect, post 0 plainBody, main, main, main, main,
    work, work, work, .worker (.ret 0), work,
    post 1 plainBody, main, main, main, main, main, work, work]

theorem overwrittenJob_replays :
    ((system server).runGuarded Free State.init overwrittenJob).isSome = true := by
  decide

end Sample

/-- The worker's clearing of `current_job` loses the job that was accepted just before. -/
theorem not_accepted_started_once :
    ¬ ∀ (srv : Server) (s : State), (system srv).Reachable Free s → s.running = true →
      ∀ j, (s.log j).accepted = true → (s.log j).started = 0 → s.currentJob = some j := by
  intro hall
  have hlost := hall Sample.server _ (reachable_of_isSome Sample.overwrittenJob_replays)
    (by decide) 1 (by decide) (by decide)
  revert hlost
  decide

/-! ## No access after a free -/

/-- A streaming job is finalised after the worker has let go of it, and the worker does not free
an orphan that `worker_is_busy` is about to read. -/
def freesWhenAlone (s : State) (a : Action) : Bool :=
  match a with
  | .main (.go _) =>
      match s.main with
      | .drainFinal _ j => s.worker.job != some j
      | _ => true
  | .worker _ =>
      match s.worker, s.main with
      | .freeOrphan j, .busyLoad _ k => j != k
      | _, _ => true
  | _ => true

theorem freesWhenAlone_face {srv : Server} {s : State} {a : Action} {m : Move JobId ConnId}
    (hsound : Sound s) (hg : freesWhenAlone s a = true) (hm : s.move srv a = some m) :
    FreesWhenAlone s.face m := by
  cases m with
  | finalize c j =>
      rcases State.move_settles hm rfl with ⟨⟨env, rfl⟩, hpc⟩
      intro hstream hworker
      have hmain : (∃ st, s.main = .drainReply c j st) ∨ s.main = .drainFinal c j := by
        simpa using hpc
      rcases hmain with ⟨st, hmain⟩ | hmain
      -- a job that does not stream is answered after its final state
      · have hplain := hsound.paths.main j false (by simp [hmain, MainPc.drains])
        simp [jobFace, hplain] at hstream
      · have hheld : s.worker.job = some j := (WorkerPc.stage_job _).symm.trans hworker
        simp [freesWhenAlone, hmain, hheld] at hg
  | dispose j =>
      intro c hloop
      -- between reading the slot and the job's state, the worker must not free the job
      have hpeek : ∃ caller, s.main = .busyLoad caller j := by
        have hstage : s.main.stage = .peeking c j := hloop
        cases hpc : s.main with
        | busyLoad caller k =>
            cases caller <;> simp [hpc] at hstage <;> exact ⟨_, by rw [hstage.2]⟩
        | drainState c k done => cases done <;> simp [hpc] at hstage
        | _ => simp [hpc] at hstage
      rcases hpeek with ⟨caller, hmain⟩
      cases a with
      | signal => cases hm
      | worker ch =>
          have hpc := State.workerMove_dispose hm
          simp [freesWhenAlone, hpc, hmain] at hg
      | main ch => exact State.mainMove_ne_dispose hm
  | _ => trivial

/-- Along runs in which no job is freed under the other thread's pointer, no step accesses a
freed job, and no job is freed twice. -/
theorem no_use_after_free (srv : Server) {s : State}
    (h : (system srv).Reachable (fun s a => freesWhenAlone s a = true) s) :
    s.useAfterFree = false ∧ ∀ j, (s.log j).frees ≤ 1 := by
  refine ⟨?_, (Sound.of_reachable h).inv.once⟩
  have halive : ∀ {t : State}, (system srv).Reachable (fun s a => freesWhenAlone s a = true) t →
      Alive t.face := by
    intro t ht
    refine (lifecycle srv).invariant FreesWhenAlone Sound.initial_face.alive ?_ ?_ ht
    · intro s m o' hr halive hga hs
      have hsound := Sound.of_reachable hr
      exact halive.step hsound.inv hsound.wake hga hs
    · intro s a m hr hg hm
      exact freesWhenAlone_face (Sound.of_reachable hr) hg hm
  refine h.invariant (P := fun s => s.useAfterFree = false) rfl ?_
  intro s a s' hr hclean hg hs
  have hsound := Sound.of_reachable hr
  -- a use after free is an access to a freed job in this step
  cases huse : s'.useAfterFree with
  | false => rfl
  | true =>
      rcases State.act_access hs huse with hold | ⟨j, hj, hfreed⟩
      · simp [hclean] at hold
      -- the job is one that a thread may reach, or the one being allocated
      · have hzero : (s.log j).frees = 0 := by
          rcases hj with hreach | rfl
          · exact (halive hr).frees_eq_zero hsound.inv hreach
          · exact (hsound.inv.unallocated s.nextJob (by simp [jobFace, Bool.eq_false_iff])).2
        simp [State.freed, hzero] at hfreed

namespace Sample

/-- A streaming request that runs to its end while another client connects and leaves. -/
def streamedJob : List Action :=
  [connect, connect, post 0 streamBody, main, main, main, main,
    work, work, work, .worker (.piece (ascii "a") true), work, work, work, work,
    .main (.wakeup 0), main, main, main, main, .main (.close 1),
    .worker (.ret 0), work, work, work, work, work, work, work,
    .main (.wakeup 0), main, main, main, main, main]

theorem streamedJob_replays :
    ((system server).runGuarded (fun s a => freesWhenAlone s a = true) State.init
      streamedJob).isSome = true := by
  decide

def afterStreamedJob : State :=
  ((system server).runGuarded (fun s a => freesWhenAlone s a = true) State.init streamedJob).get
    streamedJob_replays

theorem no_use_after_free_streamedJob :
    afterStreamedJob.useAfterFree = false ∧ ∀ j, (afterStreamedJob.log j).frees ≤ 1 :=
  no_use_after_free server (reachable_of_isSome streamedJob_replays)

/-- The event loop finalises the stream on `ring.done`, before the worker stores `DONE`. -/
def finalizedEarly : List Action :=
  [connect, post 0 streamBody, main, main, main, main,
    work, work, work, .worker (.piece (ascii "a") true), work, work, work, work,
    .worker (.ret 0), work,
    .main (.wakeup 0), main, main, main, main, main, work]

theorem finalizedEarly_replays :
    ((system server).runGuarded Free State.init finalizedEarly).isSome = true := by
  decide

end Sample

theorem not_no_use_after_free :
    ¬ ∀ (srv : Server) (s : State), (system srv).Reachable Free s →
      s.useAfterFree = false ∧ ∀ j, (s.log j).frees ≤ 1 := by
  intro hall
  have hclean := (hall Sample.server _ (reachable_of_isSome Sample.finalizedEarly_replays)).1
  revert hclean
  decide

/-! ## No job leaks -/

/-- The worker has not yet tested `orphaned` of job `j`, and will. -/
def State.workerWillTest (s : State) (j : JobId) : Bool :=
  match s.worker with
  | .freeOrphan _ | .testMgr _ | .finalWakeup _ | .waiting | .exited =>
      s.currentJob == some j && (s.log j).started == 0
  | .testOrphaned k => k == j || (s.currentJob == some j && (s.log j).started == 0)
  | pc => pc.job == some j

/-- A connection is not closed between the worker's test of `orphaned` and the final drain. -/
def orphansBeforeTest (s : State) (a : Action) : Bool :=
  match a, s.main with
  | .main (.go _), .closeOrphan _ j => s.workerWillTest j
  | _, _ => true

theorem willTest_of_workerWillTest {s : State} {j : JobId} (h : s.workerWillTest j = true) :
    s.face.willTest j := by
  cases hpc : s.worker <;>
    simp [State.workerWillTest, hpc, WorkerPc.job] at h <;>
    simp [Protocol.willTest, hpc, jobFace, h]

theorem orphansBeforeTest_face {srv : Server} {s : State} {a : Action} {m : Move JobId ConnId}
    (hg : orphansBeforeTest s a = true) (hm : s.move srv a = some m) :
    OrphansBeforeTest s.face m := by
  cases m with
  | orphan c j =>
      rcases State.move_settles hm rfl with ⟨⟨env, rfl⟩, hpc⟩
      have hmain : s.main = .closeOrphan c j := by simpa using hpc
      exact willTest_of_workerWillTest (by simpa [orphansBeforeTest, hmain] using hg)
  | _ => trivial

theorem owned_of_reachable {srv : Server} {s : State}
    (h : (system srv).Reachable (fun s a => orphansBeforeTest s a = true) s) : Owned s.face := by
  refine (lifecycle srv).invariant OrphansBeforeTest Sound.initial_face.owned ?_ ?_ h
  · intro s m o' hr howned hga hs
    exact howned.step (Sound.of_reachable hr).inv hga hs
  · intro s a m _ hg hm
    exact orphansBeforeTest_face hg hm

/-- Along runs in which a connection only closes while the worker will still test `orphaned`,
whenever the worker waits with nothing to do and no event is handled, a job that is not freed is
the `fn_data` of an open connection; and the jobs of closed connections are freed exactly once. -/
theorem unfreed_jobs_are_attached (srv : Server) {s : State}
    (h : (system srv).Reachable (fun s a => orphansBeforeTest s a = true) s)
    (hworker : s.worker = .waiting) (hslot : s.currentJob = none) (hmain : s.main = .poll)
    {j : JobId} (hj : j < s.nextJob) :
    ((s.log j).frees = 0 → ∃ c, (s.conns c).isOpen = true ∧ (s.conns c).fnData = some j) ∧
      ((s.jobs j).orphaned = true → (s.log j).frees = 1) := by
  have hinv := (Sound.of_reachable h).inv
  have howned := owned_of_reachable h
  have hheld : (s.log j).frees = 0 → ∃ c, s.face.held c = some j ∧ s.face.isOpen c = true :=
    howned.held_of_idle hinv (by simp [hworker]) hslot (by simp [hmain])
      (by simpa [jobFace, Nat.blt_eq] using hj)
  constructor
  · intro hfrees
    rcases hheld hfrees with ⟨c, hdata, hopen⟩
    exact ⟨c, hopen, hdata⟩
  · intro horphaned
    have honce : (s.log j).frees ≤ 1 := hinv.once j
    have hfreed : (s.log j).frees ≠ 0 := by
      intro hfrees
      -- the job of an open connection is not orphaned
      rcases hheld hfrees with ⟨c, hdata, _⟩
      have hnot : (s.jobs j).orphaned = false := (hinv.held c j hdata).2.2.1
      simp [hnot] at horphaned
    omega

namespace Sample

/-- One client leaves while its job runs, another one keeps its finished job. -/
def leavingClient : List Action :=
  [connect, connect, post 0 plainBody, main, main, main, main, work, work,
    .main (.close 0), main, main, main, work, .worker (.ret 0), work, work, work, work, work,
    post 1 plainBody, main, main, main, main, work, work, work, .worker (.ret 0),
    work, work, work, work, work, work]

theorem leavingClient_replays :
    ((system server).runGuarded (fun s a => orphansBeforeTest s a = true) State.init
      leavingClient).isSome = true := by
  decide

def afterLeavingClient : State :=
  ((system server).runGuarded (fun s a => orphansBeforeTest s a = true) State.init
    leavingClient).get leavingClient_replays

theorem afterLeavingClient_idle :
    afterLeavingClient.worker = .waiting ∧ afterLeavingClient.currentJob = none ∧
      afterLeavingClient.main = .poll ∧ afterLeavingClient.nextJob = 2 ∧
      (afterLeavingClient.log 1).frees = 0 ∧ (afterLeavingClient.jobs 0).orphaned = true := by
  decide

theorem unfreed_jobs_are_attached_leavingClient :
    (∃ c, (afterLeavingClient.conns c).isOpen = true ∧
      (afterLeavingClient.conns c).fnData = some 1) ∧ (afterLeavingClient.log 0).frees = 1 := by
  rcases afterLeavingClient_idle with ⟨hworker, hslot, hmain, hnext, hfrees, horphaned⟩
  have hr : (system server).Reachable (fun s a => orphansBeforeTest s a = true)
      afterLeavingClient := reachable_of_isSome leavingClient_replays
  have hjobs : ∀ j : JobId, j < 2 → j < afterLeavingClient.nextJob := fun _ hj => hnext ▸ hj
  exact ⟨(unfreed_jobs_are_attached server hr hworker hslot hmain (hjobs 1 (by decide))).1 hfrees,
    (unfreed_jobs_are_attached server hr hworker hslot hmain (hjobs 0 (by decide))).2 horphaned⟩

/-- The client leaves after the worker has tested `orphaned` and before the final wakeup. -/
def lateLeaver : List Action :=
  [connect, post 0 plainBody, main, main, main, main,
    work, work, work, .worker (.ret 0), work, work, work, work,
    .main (.close 0), main, main, main, work]

theorem lateLeaver_replays :
    ((system server).runGuarded Free State.init lateLeaver).isSome = true := by
  decide

end Sample

theorem not_unfreed_jobs_are_attached :
    ¬ ∀ (srv : Server) (s : State), (system srv).Reachable Free s → s.worker = .waiting →
      s.currentJob = none → s.running = true → s.main = .poll → s.wakeups = [] →
        ∀ j < s.nextJob, (s.log j).frees = 0 →
          ∃ c, (s.conns c).isOpen = true ∧ (s.conns c).fnData = some j := by
  intro hall
  have hr := reachable_of_isSome Sample.lateLeaver_replays
  rcases hall Sample.server _ hr (by decide) (by decide) (by decide) (by decide) (by decide) 0
    (by decide) (by decide) with ⟨c, _, hdata⟩
  -- an attached job is not marked, and this one is
  have hunmarked := ((Sound.of_reachable hr).inv.held c 0 hdata).2.2.1
  revert hunmarked
  decide

end Professord
