import Professord.Runtime.Ownership
import Professord.Runtime.Wakeups

/-!
# Shutdown — `mg_mgr_free` before the worker has stopped

`main` frees the manager, then cancels and joins the worker.  The worker tests `job->mgr` in one
step and calls `mg_wakeup` in another, and leaves its loop whatever is in `current_job`;
`stopsCleanly` names the schedules on which neither does any harm.
-/

namespace Professord

open GuardedSystem Lifecycle CText

/-! ## The condition on the schedule -/

/-- The job for which the worker has decided to call `mg_wakeup`. -/
def WorkerPc.notifies : WorkerPc → Option JobId
  | .cbWakeup j | .finalWakeup j => some j
  | _ => none

/-- `server_destroy` is over: the main thread deals with the worker. -/
def MainPc.stops : MainPc → Bool
  | .workerCancel | .workerDestroy | .workerJoin | .finished => true
  | _ => false

/-- The manager does not go away between the worker's test of it and the call of `mg_wakeup`, nor
does the test succeed while it goes; the worker leaves its loop with `current_job` empty; and no job
is orphaned that the worker will not look at again. -/
def stopsCleanly (s : State) (a : Action) : Bool :=
  orphansBeforeTest s a &&
    match a with
    | .main .leave => s.worker.notifies == none
    | .main (.go _) =>
        match s.main with
        | .closeMgr _ j => s.worker.notifies != some j
        | _ => true
    | .worker _ =>
        match s.worker with
        | .waiting => s.running || s.currentJob == none
        | .cbTestMgr j wake wasEmpty =>
            !(s.destroying && ((s.jobs j).mgr && (wasEmpty || decide (wake ≥ 8))))
        | .testMgr j => !(s.destroying && (s.jobs j).mgr)
        | _ => true
    | _ => true

/-! ## The manager -/

/-- No bad call has been made, and none is about to be. -/
structure Quiet (s : State) : Prop where
  clean : s.badWakeup = false
  notifies : ∀ j, s.worker.notifies = some j → (s.jobs j).mgr = true ∧ s.destroying = false

namespace State

variable {srv : Server} {s s' : State}

theorem workerStep_badWakeup {ch : WorkerChoice} (h : s.workerStep ch = some s') :
    s'.badWakeup = s.badWakeup ∨ ∃ j, s.worker.notifies = some j ∧
      s'.badWakeup = (s.badWakeup || !(s.jobs j).mgr || s.destroying) := by
  revert h
  fun_cases workerStep s ch <;> intro h <;> cases h
  -- the two calls of `mg_wakeup`
  case case20 j hpc => exact .inr ⟨j, by simp [hpc, WorkerPc.notifies], rfl⟩
  case case30 j hpc => exact .inr ⟨j, by simp [hpc, WorkerPc.notifies], rfl⟩
  all_goals exact .inl (by simp only [leaveJob, freeJob, touch, updJob, updLog, goWorker])

/-- The worker decides to call `mg_wakeup` only when the manager is there to stay. -/
theorem workerStep_notifies {ch : WorkerChoice} {j : JobId} (h : s.workerStep ch = some s')
    (hg : stopsCleanly s (.worker ch) = true) (hj : s'.worker.notifies = some j) :
    (s.jobs j).mgr = true ∧ s.destroying = false := by
  simp only [stopsCleanly, Bool.and_eq_true] at hg
  revert h
  fun_cases workerStep s ch <;> intro h <;> cases h
  case case18 k wake e hpc hyes =>
    obtain rfl : k = j := by simpa [WorkerPc.notifies] using hj
    -- the callback has found the manager, and the guard says that it is not going away
    have hgone := hg.2
    simp only [hpc, hyes, Bool.and_true, Bool.not_eq_true'] at hgone
    exact ⟨(Bool.and_eq_true_iff.1 hyes).1, hgone⟩
  case case28 k hpc hmgr =>
    obtain rfl : k = j := by simpa [WorkerPc.notifies] using hj
    simpa [hpc, hmgr] using hg.2
  all_goals simp [leaveJob, WorkerPc.notifies] at hj

theorem mainGo_stop {env : HandlerEnv} (h : s.mainGo srv env = some s') :
    s'.badWakeup = s.badWakeup ∧ s'.destroying = s.destroying := by
  revert h
  fun_cases mainGo s srv env <;> intro h <;> cases h <;>
    simp [freeJob, sendEvents, finalizeReply, finalizeStream]

theorem busyRead_stop (s : State) (caller : BusyCaller) :
    (s.busyRead caller).badWakeup = s.badWakeup ∧
      (s.busyRead caller).destroying = s.destroying ∧
        (s.busyRead caller).running = s.running ∧
          (s.busyRead caller).currentJob = s.currentJob ∧
            (s.busyRead caller).main.stops = false := by
  cases hslot : s.currentJob <;> cases caller <;> simp [busyRead, hslot, MainPc.stops]

/-- An event leaves the worker's side alone, and only `leave` begins `mg_mgr_free`. -/
theorem EventStep.stop {ch : MainChoice} (h : s.EventStep srv ch s') (hpc : s.main = .poll) :
    s'.badWakeup = s.badWakeup ∧ (s'.destroying = s.destroying ∨ ch = .leave) ∧
      s'.running = s.running ∧ s'.currentJob = s.currentJob ∧ s'.main.stops = false := by
  have hpoll : s.main.stops = false := by simp [hpc, MainPc.stops]
  cases h with
  | accept _ =>
      unfold evAccept
      split <;> exact ⟨rfl, .inl rfl, rfl, rfl, hpoll⟩
  | @http c hm texts _ _ =>
      unfold evHttp
      split
      case h_6 =>
        rcases busyRead_stop s (.request c _ hm.body) with ⟨hbad, hdestroying, hrest⟩
        exact ⟨hbad, .inl hdestroying, hrest⟩
      all_goals simp [hpoll]
  | drop _ _ _ => exact ⟨rfl, .inl rfl, rfl, rfl, hpoll⟩
  | serve _ _ _ _ => exact ⟨rfl, .inl rfl, rfl, rfl, rfl⟩
  | closeFree _ _ => exact ⟨rfl, .inl rfl, rfl, rfl, hpoll⟩
  | closeBegin _ _ => exact ⟨rfl, .inl rfl, rfl, rfl, rfl⟩
  | report _ =>
      rcases busyRead_stop s .report with ⟨hbad, hdestroying, hrest⟩
      exact ⟨hbad, .inl hdestroying, hrest⟩
  | leave _ _ => exact ⟨rfl, .inr rfl, rfl, rfl, hpoll⟩

end State

namespace Quiet

variable {srv : Server} {s s' : State} {a : Action}

theorem init : Quiet State.init where
  clean := rfl
  notifies := by simp [State.init, WorkerPc.notifies]

theorem worker_step (h : Quiet s) {ch : WorkerChoice} (hg : stopsCleanly s (.worker ch) = true)
    (hs : s.workerStep ch = some s') : Quiet s' := by
  have hdestroying := (State.worker_frame hs).destroying
  constructor
  · rcases State.workerStep_badWakeup hs with hsame | ⟨j, hj, hcall⟩
    · rw [hsame]
      exact h.clean
    -- the call is of the manager that was there when it was tested
    · rcases h.notifies j hj with ⟨hmgr, hthere⟩
      rw [hcall, h.clean, hmgr, hthere]
      rfl
  · intro j hj
    rw [(State.workerStep_record (j := j) hs).mgr, hdestroying]
    exact State.workerStep_notifies hs hg hj

theorem main_step (h : Quiet s) (hsound : Sound s) {ch : MainChoice}
    (hg : stopsCleanly s (.main ch) = true) (hs : s.mainStep srv ch = some s') : Quiet s' := by
  simp only [stopsCleanly, Bool.and_eq_true] at hg
  have hworker := State.mainStep_worker hs
  rcases State.mainStep_cases hs with ⟨env, rfl, hgo⟩ | ⟨hpoll, hevent⟩
  · rcases State.mainGo_stop hgo with ⟨hbad, hdestroying⟩
    refine ⟨hbad.trans h.clean, ?_⟩
    intro j hj
    rw [hworker] at hj
    rcases h.notifies j hj with ⟨hmgr, hthere⟩
    refine ⟨?_, hdestroying.trans hthere⟩
    have hjob : s.worker.job = some j := by
      cases hpc : s.worker <;> simp_all [WorkerPc.notifies, WorkerPc.job]
    rw [(State.mainGo_record (j := j) hgo ?_ ?_).mgr]
    · exact hmgr
    · -- the worker's job is not the one that is being allocated
      rintro c type body _ rfl
      have hrun := hsound.inv.worker _ ((WorkerPc.stage_job _).trans hjob)
      have hissued := hsound.inv.allocated_of_accepted hrun.1
      simp [jobFace] at hissued
    -- nor does `MG_EV_CLOSE` clear its manager now
    · intro c hpc
      simp [hpc, hj] at hg
  · have hev := hevent.frame hpoll
    rcases hevent.stop hpoll with ⟨hbad, hdestroying, _⟩
    refine ⟨hbad.trans h.clean, ?_⟩
    intro j hj
    rw [hworker] at hj
    rcases h.notifies j hj with ⟨hmgr, hthere⟩
    refine ⟨by rw [hev.jobs]; exact hmgr, ?_⟩
    rcases hdestroying with hsame | rfl
    · exact hsame.trans hthere
    · simp [hj] at hg

theorem step (h : Quiet s) (hsound : Sound s) (hg : stopsCleanly s a = true)
    (hs : s.act srv a = some s') : Quiet s' := by
  cases a with
  | signal =>
      simp [State.act] at hs
      subst hs
      exact ⟨h.clean, h.notifies⟩
  | worker ch => exact h.worker_step hg hs
  | main ch => exact h.main_step hsound hg hs

end Quiet

/-! ## The end of both threads -/

/-- The main thread stops the worker when all connections are closed, and the worker has stopped
with nothing left to do. -/
structure Stopping (s : State) : Prop where
  closed : s.main.stops = true → s.noOpenConn = true
  running : s.running = false → s.main = .workerJoin ∨ s.main = .finished
  exited : s.worker = .exited → s.running = false ∧ s.currentJob = none
  finished : s.main = .finished → s.worker = .exited

theorem ConnsKept.noOpenConn {s s' : State} (h : ConnsKept s s') :
    s'.noOpenConn = s.noOpenConn := by
  simp only [State.noOpenConn, h.nextConn, h.isOpen]

namespace State

variable {srv : Server} {s s' : State}

theorem workerStep_exits {ch : WorkerChoice} (h : s.workerStep ch = some s') :
    s.worker ≠ .exited ∧
      (s'.worker = .exited → s.worker = .waiting ∧ s.running = false ∧
        s'.currentJob = s.currentJob) := by
  revert h
  fun_cases workerStep s ch <;> intro h <;> cases h <;>
    simp_all [leaveJob, freeJob, mgWakeup]

/-- Before the main thread stops the worker, it only stops serving. -/
theorem mainGo_serving {env : HandlerEnv} (h : s.mainGo srv env = some s')
    (hserving : s.main.stops = false) :
    s'.running = s.running ∧ s'.main ≠ .finished ∧
      (s'.main.stops = true → s.noOpenConn = true) := by
  have hnot : ∀ {pc : MainPc}, pc.stops = false → pc ≠ .finished := by
    rintro _ hpc rfl
    simp [MainPc.stops] at hpc
  revert h
  fun_cases mainGo s srv env <;> intro h <;> cases h
  case case1 caller j hpc =>
    rcases busyLoaded_main (s.touch j) caller (s.jobs j).state.isBusy env.texts with
      hmain | ⟨c, type, body, _, hmain⟩ <;>
      simp [hmain, MainPc.stops]
  case case2 c type body hpc =>
    rcases allocJob_main s srv c type body env with hmain | hmain <;> simp [hmain, MainPc.stops]
  case case13 c j hpc batch next =>
    have hstops : next.stops = false := by
      simp only [next]
      split <;> rfl
    exact ⟨rfl, hnot hstops, by simp [hstops]⟩
  all_goals
    simp_all [freeJob, sendEvents, finalizeReply, finalizeStream,
      MainPc.stops]

end State

namespace Stopping

variable {srv : Server} {s s' : State} {a : Action}

theorem init : Stopping State.init where
  closed := by simp [State.init, MainPc.stops]
  running := by simp [State.init]
  exited := by simp [State.init]
  finished := by simp [State.init]

theorem worker_step (h : Stopping s) {ch : WorkerChoice}
    (hg : stopsCleanly s (.worker ch) = true) (hs : s.workerStep ch = some s') : Stopping s' := by
  rcases State.workerStep_exits hs with ⟨hnot, hexits⟩
  have hframe := State.worker_frame hs
  have hmain := hframe.main
  have hrunning := hframe.running
  constructor
  · rw [hmain, hframe.conns_kept.noOpenConn]
    exact h.closed
  · rw [hmain, hrunning]
    exact h.running
  · intro hpc
    rcases hexits hpc with ⟨hwaiting, hstopped, hslot⟩
    rw [hrunning, hslot]
    refine ⟨hstopped, ?_⟩
    -- the guard: the worker does not leave its loop with a job in the slot
    simpa [stopsCleanly, hwaiting, hstopped] using (Bool.and_eq_true_iff.1 hg).2
  · rw [hmain]
    exact fun hpc => absurd (h.finished hpc) hnot

theorem handler_step (h : Stopping s) {env : HandlerEnv} (hs : s.mainGo srv env = some s') :
    Stopping s' := by
  have hworker := State.mainGo_worker hs
  have hclosed := (State.mainGo_conns hs).noOpenConn
  cases hstops : s.main.stops with
  | false =>
      rcases State.mainGo_serving hs hstops with ⟨hrunning, hnot, hleaves⟩
      -- `running` is cleared by `worker_destroy`, and that is not reached yet
      have hup : s.running = true := by
        by_contra hdown
        rcases h.running (by simpa using hdown) with hpc | hpc <;>
          simp [hpc, MainPc.stops] at hstops
      constructor
      · rw [hclosed]
        exact hleaves
      · simp [hrunning, hup]
      · rw [hworker]
        intro hpc
        simp [(h.exited hpc).1] at hup
      · exact fun hpc => absurd hpc hnot
  | true =>
      have hopen := h.closed hstops
      cases hpc : s.main <;> simp [hpc, MainPc.stops] at hstops
      case workerCancel =>
        have hup : s.running = true := by
          by_contra hdown
          rcases h.running (by simpa using hdown) with heq | heq <;> simp [hpc] at heq
        have hbusy : s.worker ≠ .exited := fun heq => by simp [(h.exited heq).1] at hup
        simp only [State.mainGo, hpc] at hs
        cases hslot : s.currentJob <;> simp [hslot] at hs <;> subst hs
        · exact ⟨fun _ => hopen, by simp [hup], fun heq => absurd heq hbusy, by simp⟩
        · exact ⟨fun _ => hopen, by simp [hup], fun heq => absurd heq hbusy, by simp⟩
      case workerDestroy =>
        simp [State.mainGo, hpc] at hs
        subst hs
        exact ⟨fun _ => hopen, by simp, fun heq => ⟨rfl, (h.exited heq).2⟩, by simp⟩
      case workerJoin =>
        -- `pthread_join` returns when the worker has
        by_cases hexited : s.worker = .exited <;> simp [State.mainGo, hpc, hexited] at hs
        subst hs
        exact ⟨fun _ => hopen, by simp, fun heq => h.exited heq, fun _ => hexited⟩
      case finished => simp [State.mainGo, hpc] at hs

theorem step (h : Stopping s) (hg : stopsCleanly s a = true) (hs : s.act srv a = some s') :
    Stopping s' := by
  cases a with
  | signal =>
      simp [State.act] at hs
      subst hs
      exact ⟨h.closed, h.running, h.exited, h.finished⟩
  | worker ch => exact h.worker_step hg hs
  | main ch =>
      rcases State.mainStep_cases hs with ⟨env, rfl, hgo⟩ | ⟨hpoll, hevent⟩
      · exact h.handler_step hgo
      · have hev := hevent.frame hpoll
        rcases hevent.stop hpoll with ⟨_, _, hrunning, hslot, hstops⟩
        have hup : s.running = true := by
          by_contra hdown
          rcases h.running (by simpa using hdown) with heq | heq <;> simp [hev.poll] at heq
        constructor
        · simp [hstops]
        · simp [hrunning, hup]
        · rw [hev.worker, hrunning, hslot]
          exact h.exited
        · intro hpc
          simp [hpc, MainPc.stops] at hstops

end Stopping

/-! ## Every run -/

/-- Along runs that stop cleanly, `mg_wakeup` is only called with a manager that is not being freed,
and when `worker_destroy` has returned, every accepted job has been freed exactly once. -/
theorem clean_shutdown (srv : Server) {s : State}
    (h : (system srv).Reachable (fun s a => stopsCleanly s a = true) s) :
    s.badWakeup = false ∧
      (s.main = .finished → ∀ j, (s.log j).accepted = true → (s.log j).frees = 1) := by
  have hquiet : Quiet s := h.invariant Quiet.init fun _ _ _ hr hq hg hs =>
    hq.step (Sound.of_reachable hr) hg hs
  have hstopping : Stopping s := h.invariant Stopping.init fun _ _ _ _ hst hg hs => hst.step hg hs
  refine ⟨hquiet.clean, ?_⟩
  intro hpc j haccepted
  have hsound := Sound.of_reachable h
  have howned : Owned s.face :=
    owned_of_reachable (h.mono fun s a hg => (Bool.and_eq_true_iff.1 hg).1)
  have hexited := hstopping.finished hpc
  have hslot := (hstopping.exited hexited).2
  have hfreed : (s.log j).frees ≠ 0 := by
    intro hzero
    have hallocated := hsound.inv.allocated_of_accepted haccepted
    -- an unfreed job has an owner, and at the end none of the four is left
    rcases howned j hallocated hzero with hl | hl | hheld | ⟨_, htest | htest⟩
    · simp [hpc] at hl
    · simp [hpc] at hl
    · rcases hsound.inv.heldOpen _ j hheld with hopen | hclosing
      · -- `mg_mgr_free` has closed every connection
        have hclosed := hstopping.closed (by simp [hpc, MainPc.stops])
        have hused := hsound.inv.openUsed _ hopen
        simp only [State.noOpenConn, List.all_eq_true, List.mem_range] at hclosed
        have hnot := hclosed _ (by simpa using hused)
        exact absurd hopen (by simpa using hnot)
      · simp [hpc] at hclosing
    · simp [Protocol.willTest, hexited, hslot] at htest
    · simp [hexited] at htest
  have honce : (s.log j).frees ≤ 1 := hsound.inv.once j
  omega

namespace Sample

/-- A job runs to its end and is answered; then the signal comes, and both threads stop. -/
def quietStop : List Action :=
  [connect, post 0 plainBody, main, main, main, main,
    work, work, work, .worker (.ret 0), work, work, work, work, work, work,
    .main (.wakeup 0), main, main, main,
    .signal, .main .leave, .main (.close 0), main, main, main, work, main]

theorem quietStop_replays :
    ((system server).runGuarded (fun s a => stopsCleanly s a = true) State.init
      quietStop).isSome = true := by
  decide

def afterQuietStop : State :=
  ((system server).runGuarded (fun s a => stopsCleanly s a = true) State.init quietStop).get
    quietStop_replays

theorem clean_shutdown_quietStop :
    afterQuietStop.badWakeup = false ∧ (afterQuietStop.log 0).frees = 1 := by
  have hr : (system server).Reachable (fun s a => stopsCleanly s a = true) afterQuietStop :=
    reachable_of_isSome quietStop_replays
  have hclean := clean_shutdown server hr
  exact ⟨hclean.1, hclean.2 (by decide) 0 (by decide)⟩

/-- A job has been accepted when the signal comes, and the worker leaves its loop without it. -/
def abandonedJob : List Action :=
  [connect, post 0 plainBody, main, main, main, main,
    .signal, .main .leave, .main (.close 0), main, main, main, main, main, main, work, main]

theorem abandonedJob_replays :
    ((system server).runGuarded Free State.init abandonedJob).isSome = true := by
  decide

/-- The worker has tested the manager when the main thread begins to free it. -/
def lateWakeup : List Action :=
  [connect, post 0 plainBody, main, main, main, main,
    work, work, work, .worker (.ret 0), work, work, work, work, work,
    .signal, .main .leave, work]

theorem lateWakeup_replays :
    ((system server).runGuarded Free State.init lateWakeup).isSome = true := by
  decide

end Sample

/-- Both halves fail: a late wakeup, and a job that nobody frees. -/
theorem not_clean_shutdown :
    (¬ ∀ (srv : Server) (s : State), (system srv).Reachable Free s → s.badWakeup = false) ∧
      ¬ ∀ (srv : Server) (s : State), (system srv).Reachable Free s → s.main = .finished →
        ∀ j, (s.log j).accepted = true → (s.log j).frees = 1 := by
  constructor
  · intro hall
    have hclean := hall Sample.server _ (reachable_of_isSome Sample.lateWakeup_replays)
    revert hclean
    decide
  · intro hall
    have hfreed := hall Sample.server _ (reachable_of_isSome Sample.abandonedJob_replays)
      (by decide) 0 (by decide)
    revert hfreed
    decide

end Professord
