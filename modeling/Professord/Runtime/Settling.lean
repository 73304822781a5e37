import Professord.Lib.RankedRuns
import Professord.Runtime.Departure
import Professord.Runtime.Shutdown

/-!
# Settling — nothing runs for ever, and nothing gets stuck

Without new requests, every step of the two threads uses up some of what is left to do
(`State.stepsLeft`), except for the texts that inference hands to the callback.  A state in which
neither thread can go on is one in which all that was started has been answered; and after
`g_shutdown_requested` it is the end of both threads.
-/

namespace Professord

open GuardedSystem CText

/-! ## The kinds of steps -/

/-- Inference writes its results or calls the callback. -/
def Action.infers : Action → Bool
  | .worker (.infer _ _ _) | .worker (.piece _ _) => true
  | _ => false

/-- The threads go on, and a wakeup is delivered. -/
def Action.continues : Action → Bool
  | .worker _ | .main (.go _) | .main (.wakeup _) => true
  | _ => false

/-- The same with the events of the shutdown: `server_run` returns, and connections close. -/
def Action.windsUp (a : Action) : Bool :=
  a.continues ||
    match a with
    | .main .leave | .main (.close _) => true
    | _ => false

theorem Action.windsUp_of_continues {a : Action} (h : a.continues = true) : a.windsUp = true := by
  simp [windsUp, h]

/-! ## What is left to do -/

/-- What a wakeup in flight can make the event loop do: drain a full ring. -/
abbrev wakeupSteps : Nat := 261

/-- What a close event can make it do. -/
abbrev closeSteps : Nat := 4

/-- What a job in `current_job` makes the worker do, but for the texts of its stream. -/
abbrev slotSteps : Nat := 272

def WorkerPc.stepsLeft : WorkerPc → Nat
  | .exited => 0
  | .waiting => 1
  | .freeOrphan _ => 2
  | .finalWakeup _ => 2 + wakeupSteps
  | .testMgr _ => 3 + wakeupSteps
  | .testOrphaned _ => 4 + wakeupSteps
  | .clearCurrent _ => 5 + wakeupSteps
  | .logDelivery _ => 6 + wakeupSteps
  | .storeState _ _ => 7 + wakeupSteps
  | .ringDone _ _ => 8 + wakeupSteps
  | .generating _ _ => 9 + wakeupSteps
  | .dispatch _ => 10 + wakeupSteps
  | .setRunning _ => 11 + wakeupSteps
  | .cbWakeup _ => 10 + 2 * wakeupSteps
  | .cbTestMgr _ _ _ => 11 + 2 * wakeupSteps
  | .cbRingWrite _ _ _ _ => 13 + 2 * wakeupSteps
  | .cbEmptyTest _ _ _ => 14 + 2 * wakeupSteps

/-- What a call of the callback adds to what the worker has left to do. -/
abbrev callbackSteps : Nat := 6 + wakeupSteps

def MainPc.stepsLeft : MainPc → Nat
  | .finished => 0
  | .workerJoin => 1
  | .workerDestroy => 2
  | .workerCancel => 3
  | .poll => 4
  | .drainFinal _ _ | .drainReply _ _ _ | .sendHeaders _ _ | .closeOrphan _ _ => 5
  | .drainState _ _ _ | .drainLoad _ _ | .storeFnData _ _ | .closeMgr _ _ => 6
  | .drainDone _ _ | .closeCancel _ _ => 7
  | .drainBatch _ _ => 8
  | .drainTest _ _ => 9
  | .submit _ _ => 7 + slotSteps
  | .alloc _ _ _ => 8 + slotSteps
  | .busyLoad _ _ => 9 + slotSteps

/-- The worker will look at `current_job` before it clears it. -/
def WorkerPc.looksAtSlot : WorkerPc → Bool
  | .waiting | .testOrphaned _ | .freeOrphan _ | .testMgr _ | .finalWakeup _ => true
  | _ => false

namespace State

variable (s : State)

/-- The job in `current_job`, if the worker will take it. -/
def slotLeft : Nat :=
  if s.currentJob.isSome && s.worker.looksAtSlot then slotSteps else 0

/-- The tokens that the event loop is about to take. -/
def takesLeft : Nat :=
  match s.main.takes with
  | some j => (s.jobs j).ring.texts.length
  | none => 0

/-- What the threads can still do without new requests and new texts. -/
def stepsLeft : Nat :=
  s.worker.stepsLeft + s.slotLeft + s.main.stepsLeft + s.takesLeft +
    wakeupSteps * s.wakeups.length + closeSteps * (s.openConns fun _ => true).card +
      if s.destroying then 0 else 1

end State

/-! ## The steps of the worker -/

/-- What a step of inference is credited with. -/
def Action.credit (a : Action) : Nat :=
  if a.infers then callbackSteps else 0

namespace State

variable {srv : Server} {s s' : State}

/-- What the worker's steps use up. -/
def workerLeft (s : State) : Nat :=
  s.worker.stepsLeft + s.slotLeft + wakeupSteps * s.wakeups.length

theorem takesLeft_congr (hmain : s'.main.takes = s.main.takes)
    (htexts : ∀ j, s.main.takes = some j → (s'.jobs j).ring.texts = (s.jobs j).ring.texts) :
    s'.takesLeft = s.takesLeft := by
  unfold takesLeft
  rw [hmain]
  cases htakes : s.main.takes with
  | none => rfl
  | some j => exact congrArg List.length (htexts j htakes)

/-- `mg_wakeup` sends one message at most. -/
theorem length_mgWakeup (s : State) (j : JobId) :
    (s.mgWakeup j).wakeups.length ≤ s.wakeups.length + 1 := by
  cases hmgr : (s.jobs j).mgr <;> simp [mgWakeup, hmgr]

/-- Outside of `ring_write` the worker uses up what it has left. -/
theorem workerStep_workerLeft {ch : WorkerChoice} (h : s.workerStep ch = some s')
    (hwrite : ∀ j wake text e, s.worker ≠ .cbRingWrite j wake text e) :
    s'.workerLeft + 1 ≤ s.workerLeft + (Action.worker ch).credit := by
  have hsent : ∀ j, (s.mgWakeup j).wakeups.length ≤ s.wakeups.length + 1 := s.length_mgWakeup
  revert h
  fun_cases workerStep s ch <;> intro h <;> cases h
  case case16 j wake text e hpc hwr => exact absurd hpc (hwrite j wake text e)
  case case17 j wake text e hpc ring hwr => exact absurd hpc (hwrite j wake text e)
  case case20 j hpc =>
    have hslot : (s.mgWakeup j).currentJob = s.currentJob := rfl
    have := hsent j
    simp [workerLeft, slotLeft, hpc, hslot, WorkerPc.stepsLeft, WorkerPc.looksAtSlot, wakeupSteps]
    omega
  case case30 j hpc =>
    have hslot : (s.mgWakeup j).currentJob = s.currentJob := rfl
    have := hsent j
    simp [workerLeft, slotLeft, leaveJob, hpc, hslot, WorkerPc.stepsLeft, WorkerPc.looksAtSlot,
      wakeupSteps]
    omega
  all_goals
    simp_all [workerLeft, slotLeft, leaveJob, freeJob, WorkerPc.stepsLeft, WorkerPc.looksAtSlot,
      Action.credit, Action.infers, wakeupSteps, slotSteps, callbackSteps]
  all_goals omega

theorem takesLeft_worker {ch : WorkerChoice} (h : s.workerStep ch = some s')
    (hwrite : ∀ j wake text e, s.worker ≠ .cbRingWrite j wake text e) :
    s'.takesLeft = s.takesLeft :=
  takesLeft_congr (congrArg MainPc.takes (worker_frame h).main) fun j _ =>
    workerStep_texts h (hwrite j)

/-- A step of the worker adds at most one token to those that the event loop is about to take. -/
theorem workerStep_left {ch : WorkerChoice} (h : s.workerStep ch = some s') :
    s'.workerLeft + s'.takesLeft + 1 ≤
      s.workerLeft + s.takesLeft + (Action.worker ch).credit := by
  by_cases hwrite : ∃ j wake text e, s.worker = .cbRingWrite j wake text e
  · rcases hwrite with ⟨j, wake, text, e, hpc⟩
    rcases workerStep_of_cbRingWrite h hpc with rfl | ⟨ring, hwr, rfl⟩
    · have htakes : ((s.touch j).goWorker (.generating j wake)).takesLeft = s.takesLeft := rfl
      rw [htakes]
      simp [workerLeft, slotLeft, hpc, WorkerPc.stepsLeft, WorkerPc.looksAtSlot, wakeupSteps]
      omega
    · have hone : (((s.touch j).updJob j fun r => { r with ring := ring }).updLog j fun l =>
          { l with written := l.written ++ [text] }).takesLeft ≤ s.takesLeft + 1 := by
        unfold takesLeft
        cases htakes : s.main.takes with
        | none => simp [htakes]
        | some k =>
            by_cases hk : k = j <;> simp [htakes, hk, (ringWrite_stored hwr).1]
      have hgo : ∀ (t : State) pc, (t.goWorker pc).takesLeft = t.takesLeft := fun _ _ => rfl
      rw [hgo]
      simp [workerLeft, slotLeft, hpc, WorkerPc.stepsLeft, WorkerPc.looksAtSlot, wakeupSteps]
      omega
  · have hnot : ∀ j wake text e, s.worker ≠ .cbRingWrite j wake text e :=
      fun j wake text e hpc => hwrite ⟨j, wake, text, e, hpc⟩
    rw [takesLeft_worker h hnot]
    have := workerStep_workerLeft h hnot
    omega

/-- Every step of the worker uses up some of what is left, or is credited. -/
theorem worker_stepsLeft {ch : WorkerChoice} (h : s.workerStep ch = some s') :
    s'.stepsLeft + 1 ≤ s.stepsLeft + (Action.worker ch).credit := by
  have hframe := worker_frame h
  have hopen : s'.openConns (fun _ => true) = s.openConns fun _ => true := by
    simp only [openConns, hframe.nextConn, hframe.conns]
  have hleft := workerStep_left h
  simp only [stepsLeft, hframe.main, hframe.destroying, hopen]
  simp only [workerLeft] at hleft
  omega

/-! ## The steps of the main thread -/

theorem slotLeft_le (s : State) : s.slotLeft ≤ slotSteps := by
  unfold slotLeft
  split
  · exact Nat.le_refl _
  · exact Nat.zero_le _

/-- Only `worker_submit` writes `current_job`. -/
theorem mainGo_slot {env : HandlerEnv} (h : s.mainGo srv env = some s') :
    s'.currentJob = s.currentJob ∨
      ∃ c j, s.main = .submit c j ∧ s'.main = .storeFnData c j := by
  revert h
  fun_cases mainGo s srv env <;> intro h <;> cases h
  case case3 c j hpc hacc => exact .inr ⟨c, j, hpc, rfl⟩
  all_goals left
  case case4 c j hpc hacc =>
    unfold workerSubmit at hacc ⊢
    cases hslot : s.currentJob with
    | none => simp [hslot] at hacc
    | some k =>
        cases hbusy : (s.jobs k).state.isBusy <;>
          simp_all [freeJob]
  case case1 caller j hpc =>
    cases caller <;> cases (s.jobs j).state.isBusy <;> simp [busyLoaded]
  case case2 c type body hpc =>
    unfold allocJob
    split
    · rfl
    · cases srv.buildJob c type body env.requestId <;> rfl
  all_goals
    simp [freeJob, sendEvents, finalizeReply, finalizeStream]

/-- A step of a handler uses up what is left, and a full batch as many tokens as it takes. -/
theorem mainGo_main {env : HandlerEnv} (h : s.mainGo srv env = some s')
    (hsubmit : ∀ c j, s.main ≠ .submit c j) :
    s'.main.stepsLeft + s'.takesLeft + 1 ≤ s.main.stepsLeft + s.takesLeft := by
  revert h
  fun_cases mainGo s srv env <;> intro h <;> cases h
  case case1 caller j hpc =>
    rcases busyLoaded_main (s.touch j) caller (s.jobs j).state.isBusy env.texts with
      hmain | ⟨c, type, body, _, hmain⟩ <;>
      simp [takesLeft, hmain, hpc, MainPc.takes, MainPc.stepsLeft, slotSteps]
  case case2 c type body hpc =>
    rcases allocJob_main s srv c type body env with hmain | hmain <;>
      simp [takesLeft, hmain, hpc, MainPc.takes, MainPc.stepsLeft, slotSteps]
  case case3 c j hpc hacc => exact absurd hpc (hsubmit c j)
  case case4 c j hpc hacc => exact absurd hpc (hsubmit c j)
  case case13 c j hpc batch next =>
    have hlength : batch.1.length + batch.2.texts.length = (s.jobs j).ring.texts.length := by
      rw [← List.length_append, (drainBatch_spec _).1]
    have hbefore : s.takesLeft = (s.jobs j).ring.texts.length := by
      simp [takesLeft, hpc, MainPc.takes]
    rw [hbefore]
    by_cases hfull : batch.1.length = drainBatchMax
    · have hnext : next = .drainBatch c j := if_pos hfull
      simp [hnext, hpc, takesLeft, MainPc.takes, MainPc.stepsLeft, sendEvents]
      rw [← hlength, hfull]
      simp only [drainBatchMax]
      omega
    · have hnext : next = .drainDone c j := if_neg hfull
      simp [hnext, hpc, takesLeft, MainPc.takes, MainPc.stepsLeft]
  all_goals
    simp_all [takesLeft, MainPc.takes, MainPc.stepsLeft]
  all_goals omega

/-- A step of a handler uses up what is left, `worker_submit` that a job can be put into the
slot. -/
theorem mainGo_left {env : HandlerEnv} (h : s.mainGo srv env = some s') :
    s'.main.stepsLeft + s'.takesLeft + s'.slotLeft + 1 ≤
      s.main.stepsLeft + s.takesLeft + s.slotLeft := by
  by_cases hsubmit : ∃ c j, s.main = .submit c j
  · rcases hsubmit with ⟨c, j, hpc⟩
    have hslot := s'.slotLeft_le
    have hnext : s'.main = .storeFnData c j ∨ s'.main = .poll := by
      revert h
      simp only [mainGo, hpc]
      split <;> intro h <;> cases h
      · exact .inl rfl
      · exact .inr rfl
    rcases hnext with hnext | hnext <;>
      simp [takesLeft, hpc, hnext, MainPc.takes, MainPc.stepsLeft]
    all_goals
      simp only [slotSteps] at hslot ⊢
      omega
  · have hslot : s'.slotLeft = s.slotLeft := by
      rcases mainGo_slot h with hsame | ⟨c, j, hpc, _⟩
      · simp only [slotLeft, hsame, mainGo_worker h]
      · exact absurd ⟨c, j, hpc⟩ hsubmit
    have := mainGo_main h fun c j hpc => hsubmit ⟨c, j, hpc⟩
    omega

theorem ConnsKept.openConns (h : ConnsKept s s') :
    s'.openConns (fun _ => true) = s.openConns fun _ => true := by
  simp only [State.openConns, h.nextConn, h.isOpen]

/-- Every step of a handler uses up some of what is left. -/
theorem handler_stepsLeft {env : HandlerEnv} (h : s.mainGo srv env = some s') :
    s'.stepsLeft + 1 ≤ s.stepsLeft := by
  have hleft := mainGo_left h
  simp only [stepsLeft, mainGo_worker h, (mainGo_handler h (j := 0)).wakeups, (mainGo_stop h).2,
    ConnsKept.openConns (mainGo_conns h)]
  omega

/-- The books of open connections after a close. -/
theorem card_evClose (hinv : ConnInv s) {c : ConnId} (hopen : (s.conns c).isOpen = true) :
    ((s.evClose c).openConns fun _ => true).card + 1 = (s.openConns fun _ => true).card := by
  have hmem : c ∈ s.openConns fun _ => true := mem_openConns.2 ⟨hinv.openUsed c hopen, hopen, rfl⟩
  rw [openConns_evClose c _ fun _ => rfl]
  exact Finset.card_erase_add_one hmem

theorem stepsLeft_evClose (hinv : ConnInv s) {c : ConnId} (hopen : (s.conns c).isOpen = true) :
    (s.evClose c).stepsLeft + closeSteps = s.stepsLeft := by
  have heq : (s.evClose c).stepsLeft =
      s.worker.stepsLeft + s.slotLeft + s.main.stepsLeft + s.takesLeft +
        wakeupSteps * s.wakeups.length +
          closeSteps * ((s.evClose c).openConns fun _ => true).card +
            if s.destroying then 0 else 1 := rfl
  rw [heq, stepsLeft, ← card_evClose hinv hopen]
  simp only [closeSteps]
  omega

/-- So does every event that is no request and no new client. -/
theorem event_stepsLeft (hinv : ConnInv s) {ch : MainChoice} (h : s.EventStep srv ch s')
    (hpoll : s.main = .poll) (hch : (Action.main ch).windsUp = true) :
    s'.stepsLeft + 1 ≤ s.stepsLeft := by
  have hidle : s.takesLeft = 0 := by simp [takesLeft, hpoll, MainPc.takes]
  cases h with
  | accept _ => simp [Action.windsUp, Action.continues] at hch
  | http _ _ => simp [Action.windsUp, Action.continues] at hch
  | report _ => simp [Action.windsUp, Action.continues] at hch
  | @drop c _ hsent _ =>
      have hless := List.length_erase_of_mem hsent
      have hpos := List.length_pos_of_mem hsent
      simp only [stepsLeft, slotLeft, takesLeft, openConns]
      simp only [wakeupSteps]
      omega
  | @serve c j _ hsent _ _ =>
      have hless := List.length_erase_of_mem hsent
      have hpos := List.length_pos_of_mem hsent
      -- a ring is never fuller than what a wakeup is counted for
      have hring : (s.jobs j).ring.texts.length ≤ tokenRingSize - 1 :=
        (s.jobs j).ring.length_texts_le
      simp only [stepsLeft, slotLeft, hidle, openConns, hpoll, goMain_main, goMain_worker,
        goMain_wakeups, goMain_currentJob, goMain_destroying, goMain_conns, goMain_nextConn,
        MainPc.stepsLeft]
      simp only [takesLeft, goMain_main, goMain_jobs, MainPc.takes, wakeupSteps, tokenRingSize]
        at hring ⊢
      omega
  | @closeFree c hopen _ =>
      have hclosed := stepsLeft_evClose hinv hopen
      simp only [closeSteps] at hclosed
      omega
  | @closeBegin c j hopen _ =>
      have hclosed := stepsLeft_evClose hinv hopen
      have hgo : ((s.evClose c).goMain (.closeCancel c j)).stepsLeft =
          (s.evClose c).stepsLeft + 3 := by
        have hmain : (s.evClose c).main = .poll := hpoll
        have htakes : (s.evClose c).takesLeft = 0 := hidle
        simp only [stepsLeft, htakes, hmain, slotLeft, openConns, goMain_main, goMain_worker,
          goMain_wakeups, goMain_currentJob, goMain_destroying, goMain_conns, goMain_nextConn,
          MainPc.stepsLeft]
        simp only [takesLeft, goMain_main, MainPc.takes]
        omega
      simp only [closeSteps] at hclosed
      omega
  | leave hserving _ =>
      simp only [stepsLeft, slotLeft, takesLeft, openConns, hserving]
      simp

/-- Every step that is no request and no new client uses up some of what is left, but for the
texts of inference. -/
theorem act_stepsLeft (hinv : ConnInv s) {a : Action} (ha : a.windsUp = true)
    (h : s.act srv a = some s') : s'.stepsLeft + 1 ≤ s.stepsLeft + a.credit := by
  cases a with
  | signal => simp [Action.windsUp, Action.continues] at ha
  | worker ch => exact worker_stepsLeft h
  | main ch =>
      rcases mainStep_cases h with ⟨env, rfl, hgo⟩ | ⟨hpoll, hev⟩
      · exact Nat.le_add_right_of_le (handler_stepsLeft hgo)
      · exact Nat.le_add_right_of_le (event_stepsLeft hinv hev hpoll ha)

end State

/-! ## Who cannot go on -/

namespace State

variable {srv : Server} {s s' : State}

/-- The worker waits for a job or for room in the ring, or has left its loop. -/
theorem worker_of_stuck (h : ∀ ch, s.workerStep ch = none) :
    s.worker = .exited ∨ (s.worker = .waiting ∧ s.running = true ∧ s.currentJob = none) ∨
      ∃ j wake text e, s.worker = .cbRingWrite j wake text e ∧
        ringWrite (s.jobs j).ring text (s.jobs j).cancel s.shutdownRequested = .waits := by
  have hgo := h .go
  cases hpc : s.worker with
  | exited => exact .inl rfl
  | waiting =>
      refine .inr (.inl ⟨rfl, ?_⟩)
      simp only [workerStep, hpc] at hgo
      cases hrunning : s.running <;> cases hslot : s.currentJob <;> simp_all
  | cbRingWrite j wake text e =>
      refine .inr (.inr ⟨j, wake, text, e, rfl, ?_⟩)
      simp only [workerStep, hpc] at hgo
      cases hwr : ringWrite (s.jobs j).ring text (s.jobs j).cancel s.shutdownRequested <;>
        simp_all
  | generating j wake =>
      have hret := h (.ret 0)
      cases hstream : (s.jobs j).stream <;> simp [workerStep, hpc, hstream] at hret
  | dispatch j => cases hstream : (s.jobs j).stream <;> simp [workerStep, hpc, hstream] at hgo
  | cbTestMgr j wake e =>
      simp only [workerStep, hpc] at hgo
      split at hgo <;> cases hgo
  | testOrphaned j =>
      cases horphaned : (s.jobs j).orphaned <;> simp [workerStep, hpc, horphaned] at hgo
  | testMgr j => cases hmgr : (s.jobs j).mgr <;> simp [workerStep, hpc, hmgr] at hgo
  | _ => simp [workerStep, hpc] at hgo

/-- The main thread waits for events or for the end of the worker, or has ended. -/
theorem main_of_stuck (h : s.mainGo srv {} = none) :
    s.main = .poll ∧ (s.destroying = true → s.noOpenConn = false) ∨
      s.main = .workerJoin ∧ s.worker ≠ .exited ∨ s.main = .finished := by
  revert h
  fun_cases mainGo s srv {} <;> intro h <;> simp_all

end State

/-! ## The stages of the shutdown -/

/-- How far the shutdown has come, whatever the schedule. -/
structure Winding (s : State) : Prop where
  stops : s.main.stops = true → s.destroying = true
  requested : s.destroying = true → s.shutdownRequested = true
  running : s.running = false ↔ s.main = .workerJoin ∨ s.main = .finished
  exited : s.worker = .exited → s.running = false
  finished : s.main = .finished → s.worker = .exited

namespace State

variable {srv : Server} {s s' : State}

theorem workerStep_requested {ch : WorkerChoice} (h : s.workerStep ch = some s') :
    s'.shutdownRequested = s.shutdownRequested := by
  revert h
  fun_cases workerStep s ch <;> intro h <;> cases h <;> simp [leaveJob, freeJob, mgWakeup]

theorem mainGo_requested {env : HandlerEnv} (h : s.mainGo srv env = some s') :
    s'.shutdownRequested = s.shutdownRequested := by
  revert h
  fun_cases mainGo s srv env <;> intro h <;> cases h
  case case1 caller j hpc =>
    cases caller <;> cases (s.jobs j).state.isBusy <;> simp [busyLoaded]
  case case2 c type body hpc =>
    unfold allocJob
    split
    · rfl
    · cases srv.buildJob c type body env.requestId <;> rfl
  case case3 | case4 =>
    simp only [goMain_shutdownRequested, sendError, sendReply, freeJob, updLog_shutdownRequested,
      updConn_shutdownRequested, touch_shutdownRequested]
    unfold workerSubmit
    split
    · split <;> rfl
    · rfl
  all_goals
    simp [freeJob, sendEvents, finalizeReply, finalizeStream]

/-- The main thread begins to stop the worker when `mg_mgr_free` is over. -/
theorem mainGo_stops {env : HandlerEnv} (h : s.mainGo srv env = some s')
    (hserving : s.main.stops = false) (hstops : s'.main.stops = true) :
    s.destroying = true ∧ s'.main = .workerCancel := by
  revert h
  fun_cases mainGo s srv env <;> intro h <;> cases h
  case case1 caller j hpc =>
    rcases busyLoaded_main (s.touch j) caller (s.jobs j).state.isBusy env.texts with
      hmain | ⟨c, type, body, _, hmain⟩ <;>
      simp [hmain, MainPc.stops] at hstops
  case case2 c type body hpc =>
    rcases allocJob_main s srv c type body env with hmain | hmain <;>
      simp [hmain, MainPc.stops] at hstops
  case case13 c j hpc batch next =>
    have hnext : next.stops = false := by
      simp only [next]
      split <;> rfl
    simp [hnext] at hstops
  all_goals
    simp_all [MainPc.stops]

/-- An event asks for no shutdown, and leads to no stage of one. -/
theorem EventStep.requested {ch : MainChoice} (h : s.EventStep srv ch s') :
    s'.shutdownRequested = s.shutdownRequested ∧
      (s'.destroying = true → s.destroying = true ∨ s.shutdownRequested = true) := by
  cases h with
  | accept _ =>
      unfold evAccept
      split <;> exact ⟨rfl, .inl⟩
  | http _ _ =>
      unfold evHttp
      split
      case h_6 => cases hslot : s.currentJob <;> simp +contextual [busyRead, hslot]
      all_goals simp +contextual
  | report _ => cases hslot : s.currentJob <;> simp +contextual [busyRead, hslot]
  | leave _ hrequested => exact ⟨rfl, fun _ => .inr hrequested⟩
  | _ => exact ⟨rfl, .inl⟩

end State

namespace Winding

variable {srv : Server} {s s' : State} {a : Action}

theorem init : Winding State.init := by
  constructor <;> simp [State.init, MainPc.stops]

theorem worker_step (h : Winding s) {ch : WorkerChoice} (hs : s.workerStep ch = some s') :
    Winding s' := by
  rcases State.workerStep_exits hs with ⟨hnot, hexits⟩
  have hframe := State.worker_frame hs
  constructor
  · rw [hframe.main, hframe.destroying]
    exact h.stops
  · rw [hframe.destroying, State.workerStep_requested hs]
    exact h.requested
  · rw [hframe.main, hframe.running]
    exact h.running
  · rw [hframe.running]
    exact fun hpc => (hexits hpc).2.1
  · rw [hframe.main]
    exact fun hpc => absurd (h.finished hpc) hnot

/-- The main thread is serving, or waits for close events. -/
theorem running_of_serving (h : Winding s) (hstops : s.main.stops = false) :
    s.running = true ∧ s.worker ≠ .exited := by
  have hup : s.running = true := by
    by_contra hdown
    rcases h.running.1 (by simpa using hdown) with hpc | hpc <;> simp [hpc, MainPc.stops] at hstops
  exact ⟨hup, fun hpc => by simp [h.exited hpc] at hup⟩

theorem handler_step (h : Winding s) {env : HandlerEnv} (hs : s.mainGo srv env = some s') :
    Winding s' := by
  have hworker := State.mainGo_worker hs
  have hrequested : s'.destroying = true → s'.shutdownRequested = true := by
    rw [(State.mainGo_stop hs).2, State.mainGo_requested hs]
    exact h.requested
  cases hstops : s.main.stops with
  | false =>
      have hrunning := (State.mainGo_serving hs hstops).1
      rcases h.running_of_serving hstops with ⟨hup, hbusy⟩
      -- the first stage leaves the worker running
      have hnot : s'.main ≠ .workerJoin ∧ s'.main ≠ .finished := by
        constructor <;> intro hpc <;>
          simp [(State.mainGo_stops hs hstops (by simp [hpc, MainPc.stops])).2] at hpc
      constructor
      · rw [(State.mainGo_stop hs).2]
        exact fun hnow => (State.mainGo_stops hs hstops hnow).1
      · exact hrequested
      · simp [hrunning, hup, hnot]
      · rw [hworker]
        exact fun hpc => absurd hpc hbusy
      · exact fun hpc => absurd hpc hnot.2
  | true =>
      have hdestroying : s'.destroying = true := (State.mainGo_stop hs).2.trans (h.stops hstops)
      cases hpc : s.main <;> simp [hpc, MainPc.stops] at hstops
      case workerCancel =>
        have hup : s.running = true := by
          by_contra hdown
          rcases h.running.1 (by simpa using hdown) with heq | heq <;> simp [hpc] at heq
        have hbusy : s.worker ≠ .exited := fun heq => by simp [h.exited heq] at hup
        have hnext : s'.main = .workerDestroy ∧ s'.running = s.running := by
          simp only [State.mainGo, hpc] at hs
          cases hslot : s.currentJob <;> simp [hslot] at hs <;> subst hs <;> exact ⟨rfl, rfl⟩
        refine ⟨fun _ => hdestroying, hrequested, ?_, ?_, ?_⟩
        · simp [hnext, hup]
        · exact fun heq => absurd (hworker.symm.trans heq) hbusy
        · simp [hnext]
      case workerDestroy =>
        simp only [State.mainGo, hpc, Option.some.injEq] at hs
        subst hs
        exact ⟨fun _ => hdestroying, hrequested, by simp, fun _ => rfl, by simp⟩
      case workerJoin =>
        -- `pthread_join` returns when the worker has
        by_cases hexited : s.worker = .exited <;> simp [State.mainGo, hpc, hexited] at hs
        subst hs
        have hdown : s.running = false := h.running.2 (.inl hpc)
        exact ⟨fun _ => hdestroying, hrequested, by simp [hdown], fun _ => hdown, fun _ => hexited⟩
      case finished => simp [State.mainGo, hpc] at hs

theorem event_step (h : Winding s) {ch : MainChoice} (hpoll : s.main = .poll)
    (hevent : s.EventStep srv ch s') : Winding s' := by
  have hev := hevent.frame hpoll
  rcases hevent.stop hpoll with ⟨_, hdestroying, hrunning, _, hstops⟩
  rcases hevent.requested with ⟨hsame, hasked⟩
  rcases h.running_of_serving (by simp [hpoll, MainPc.stops]) with ⟨hup, hbusy⟩
  constructor
  · simp [hstops]
  · rw [hsame]
    exact fun hnow => (hasked hnow).elim h.requested id
  · have hnot : s'.main ≠ .workerJoin ∧ s'.main ≠ .finished := by
      constructor <;> intro hpc <;> simp [hpc, MainPc.stops] at hstops
    simp [hrunning, hup, hnot]
  · rw [hev.worker]
    exact fun hpc => absurd hpc hbusy
  · intro hpc
    simp [hpc, MainPc.stops] at hstops

theorem step (h : Winding s) (hs : s.act srv a = some s') : Winding s' := by
  cases a with
  | signal =>
      cases hs
      exact ⟨h.stops, fun _ => rfl, h.running, h.exited, h.finished⟩
  | worker ch => exact h.worker_step hs
  | main ch =>
      rcases State.mainStep_cases hs with ⟨env, rfl, hgo⟩ | ⟨hpoll, hev⟩
      · exact h.handler_step hgo
      · exact h.event_step hpoll hev

theorem of_reachable (h : (system srv).Reachable Free s) : Winding s :=
  h.invariant Winding.init fun _ _ _ _ hwinding _ hs => hwinding.step hs

end Winding

/-! ## States at rest -/

theorem flags_of_waits {r : TokenRing} {text : Bytes} {cancel shutdown : Bool}
    (h : ringWrite r text cancel shutdown = .waits) : cancel = false ∧ shutdown = false := by
  unfold ringWrite at h
  cases cancel <;> cases shutdown <;> simp_all

/-- Neither thread has anything to do before the next request: what was started for a client that
is still there has been answered. -/
structure Settled (s : State) : Prop where
  worker : s.worker = .waiting ∧ s.currentJob = none ∨ s.worker = .exited
  main : s.main = .poll ∨ s.main = .finished
  wakeups : s.destroying = false → s.wakeups = []
  answered : s.destroying = false → ∀ j, (s.log j).started ≠ 0 →
    (s.conns (s.home j)).isOpen = true → s.finalised j

section Rest

variable {srv : Server} {s : State}

/-- The main thread at rest; the worker is not waited for in vain. -/
theorem main_of_atRest (hwinding : Winding s) (h : (system srv).AtRest Action.continues s) :
    (s.main = .poll ∧ (s.destroying = true → s.noOpenConn = false)) ∨
      s.main = .workerJoin ∧ s.running = false ∧ s.worker ≠ .exited ∨
        s.main = .finished ∧ s.worker = .exited := by
  rcases State.main_of_stuck (h (.main (.go {})) rfl) with hpoll | ⟨hjoin, hbusy⟩ | hfinished
  · exact .inl hpoll
  · exact .inr (.inl ⟨hjoin, hwinding.running.2 (.inl hjoin), hbusy⟩)
  · exact .inr (.inr ⟨hfinished, hwinding.finished hfinished⟩)

/-- No message is left for an event loop at rest. -/
theorem wakeups_of_atRest (h : (system srv).AtRest Action.continues s) (hpoll : s.main = .poll)
    (hserving : s.destroying = false) : s.wakeups = [] := by
  rw [List.eq_nil_iff_forall_not_mem]
  intro c hc
  have hnone : s.mainStep srv (.wakeup c) = none := h (.main (.wakeup c)) rfl
  simp only [State.mainStep, hpoll, hserving, hc, and_self, if_true] at hnone
  split at hnone <;> cases hnone

/-- A producer is not left waiting: its client empties the ring, or has gone and cancelled it. -/
theorem not_waits_of_atRest (hr : (system srv).Reachable Free s)
    (h : (system srv).AtRest Action.continues s) {j : JobId} {wake : Nat} {text : Bytes}
    {e : Bool} (hpc : s.worker = .cbRingWrite j wake text e) :
    ringWrite (s.jobs j).ring text (s.jobs j).cancel s.shutdownRequested ≠ .waits := by
  intro hwaits
  have hsound := Sound.of_reachable hr
  have hwinding := Winding.of_reachable hr
  rcases flags_of_waits hwaits with ⟨hcancel, hrequested⟩
  have hserving : s.destroying = false := by
    rw [Bool.eq_false_iff]
    exact fun hnow => by simp [hwinding.requested hnow] at hrequested
  have hpoll : s.main = .poll := by
    rcases main_of_atRest hwinding h with ⟨hpoll, _⟩ | ⟨hmain, _⟩ | ⟨hmain, _⟩
    · exact hpoll
    · simp [hwinding.stops (by simp [hmain, MainPc.stops])] at hserving
    · simp [hwinding.stops (by simp [hmain, MainPc.stops])] at hserving
  have hjob := hsound.inv.worker j (by simp [hpc])
  have hfrees := unfreed_of_writes hsound (endInv_of_reachable hr) (Attended.of_reachable hr)
    (j := j) (by simp [hpc, WorkerPc.writes])
  cases hopen : (s.conns (s.home j)).isOpen with
  | false =>
      have hcut := CancelsDeparted.of_reachable hr (j := j) hjob.1 hfrees
        ⟨hopen, by simp [hpoll]⟩
      simp [hcancel] at hcut
  | true =>
      rcases ((no_lost_wakeup srv hr hopen).1 wake text e hpc hwaits).1 with hflight | hhandles
      · simp [wakeups_of_atRest h hpoll hserving] at hflight
      · simp [hpoll, MainPc.handles] at hhandles

/-- Where neither thread can go on, all that was started has been answered. -/
theorem settled_of_atRest (hr : (system srv).Reachable Free s)
    (h : (system srv).AtRest Action.continues s) : Settled s := by
  have hsound := Sound.of_reachable hr
  have hwinding := Winding.of_reachable hr
  have hworker : s.worker = .waiting ∧ s.running = true ∧ s.currentJob = none ∨
      s.worker = .exited := by
    rcases State.worker_of_stuck fun ch => h (.worker ch) rfl with
      hexited | hwaiting | ⟨j, wake, text, e, hpc, hwaits⟩
    · exact .inr hexited
    · exact .inl hwaiting
    · exact absurd hwaits (not_waits_of_atRest hr h hpc)
  have hmain : s.main = .poll ∨ s.main = .finished := by
    rcases main_of_atRest hwinding h with ⟨hpoll, _⟩ | ⟨_, hdown, hbusy⟩ | ⟨hfinished, _⟩
    · exact .inl hpoll
    · -- a worker that has been told to stop does not wait for a job
      rcases hworker with ⟨_, hup, _⟩ | hexited
      · simp [hdown] at hup
      · exact absurd hexited hbusy
    · exact .inr hfinished
  have hwakeups : s.destroying = false → s.wakeups = [] := by
    intro hserving
    rcases hmain with hpoll | hfinished
    · exact wakeups_of_atRest h hpoll hserving
    · simp [hwinding.stops (by simp [hfinished, MainPc.stops])] at hserving
  refine ⟨hworker.imp_left fun hw => ⟨hw.1, hw.2.2⟩, hmain, hwakeups, ?_⟩
  intro hserving j hstarted hopen
  have hleft : (s.log j).left = true := by
    rcases hsound.inv.started j with hzero | ⟨_, hjob | hleft⟩
    · exact absurd hzero hstarted
    · rcases hworker with ⟨hpc, _⟩ | hpc <;> simp [hpc] at hjob
    · exact hleft
  rcases finalised_or_noticed_of_left hr hopen hleft with hfinal | hflight | hhandles
  · exact hfinal
  · simp [hwakeups hserving] at hflight
  · rcases hmain with hpc | hpc <;> simp [hpc, MainPc.handles] at hhandles

/-- At the end of a shutdown both threads have ended. -/
theorem ended_of_atRest (hr : (system srv).Reachable Free s) (hrequested : s.shutdownRequested = true)
    (h : (system srv).AtRest Action.windsUp s) : s.main = .finished ∧ s.worker = .exited := by
  have hwinding := Winding.of_reachable hr
  have hsettled := settled_of_atRest hr (h.mono fun _ => Action.windsUp_of_continues)
  rcases hsettled.main with hpoll | hfinished
  · -- `server_run` returns, and an open connection gets its close event
    have hdestroying : s.destroying = true := by
      by_contra hserving
      have hnone : s.mainStep srv .leave = none := h (.main .leave) rfl
      simp [State.mainStep, hpoll, hserving, hrequested] at hnone
    have hsome : s.noOpenConn = false := by
      rcases main_of_atRest hwinding (h.mono fun _ => Action.windsUp_of_continues) with
        ⟨_, hopen⟩ | ⟨hmain, _⟩ | ⟨hmain, _⟩
      · exact hopen hdestroying
      · simp [hpoll] at hmain
      · simp [hpoll] at hmain
    obtain ⟨c, _, hopen⟩ : ∃ c < s.nextConn, (s.conns c).isOpen = true := by
      simpa [State.noOpenConn] using hsome
    have hnone : s.mainStep srv (.close c) = none := h (.main (.close c)) rfl
    simp only [State.mainStep, hpoll, hopen, and_self, if_true] at hnone
    split at hnone <;> cases hnone
  · exact ⟨hfinished, hwinding.finished hfinished⟩

end Rest

/-! ## Every run -/

theorem connInv_of_reachable {srv : Server} {s : State} (hr : (system srv).Reachable Free s) :
    ConnInv s :=
  hr.invariant ConnInv.init fun _ _ _ _ hinv _ hs => hinv.step hs

/-- Nobody takes a request to shut down back. -/
theorem requested_of_run {srv : Server} {s t : State} {as : List Action}
    (hrequested : s.shutdownRequested = true)
    (hrun : (system srv).runGuarded Free s as = some t) : t.shutdownRequested = true := by
  refine runGuarded_invariant (P := fun u => u.shutdownRequested = true) ?_ hrequested hrun
  intro u a u' hu _ hs
  cases a with
  | signal =>
      cases hs
      rfl
  | worker ch => exact (State.workerStep_requested hs).trans hu
  | main ch =>
      rcases State.mainStep_cases hs with ⟨env, rfl, hgo⟩ | ⟨_, hev⟩
      · exact (State.mainGo_requested hgo).trans hu
      · exact hev.requested.1.trans hu

/-- Inference that could go on could also return. -/
theorem exists_quiet_step {srv : Server} {s : State} {kind : Action → Bool}
    (hret : kind (.worker (.ret 0)) = true) (h : ¬ (system srv).AtRest kind s) :
    ∃ a, (kind a && !a.infers) = true ∧ ((system srv).step s a).isSome = true := by
  simp only [AtRest, not_forall] at h
  obtain ⟨a, ha, hs⟩ := h
  obtain ⟨s', hs'⟩ := Option.ne_none_iff_exists'.1 hs
  by_cases hinfers : a.infers = true
  · obtain ⟨j, wake, hpc⟩ : ∃ j wake, s.worker = .generating j wake := by
      unfold Action.infers at hinfers
      split at hinfers
      case h_3 => cases hinfers
      all_goals
        have hstep : s.workerStep _ = some s' := hs'
        cases hpc : s.worker <;> simp [State.workerStep, hpc] at hstep
        exact ⟨_, _, rfl⟩
    refine ⟨.worker (.ret 0), by simp [hret, Action.infers], ?_⟩
    have hstep : (system srv).step s (.worker (.ret 0)) = s.workerStep (.ret 0) := rfl
    rw [hstep]
    cases hstream : (s.jobs j).stream <;> simp [State.workerStep, hpc, hstream]
  · exact ⟨a, by simp [ha, hinfers], by simp [hs']⟩

section Bound

variable {srv : Server} {s : State} {kind : Action → Bool}

/-- Steps of a kind that winds up bound the length of a run. -/
theorem length_le_of_windsUp (hinv : ConnInv s) (hkind : ∀ a, kind a = true → a.windsUp = true)
    {as : List Action} {t : State} (has : ∀ a ∈ as, kind a = true)
    (hrun : (system srv).runGuarded Free s as = some t) :
    t.stepsLeft + as.length ≤ s.stepsLeft + callbackSteps * as.countP Action.infers := by
  have hsum : (as.map Action.credit).sum = callbackSteps * as.countP Action.infers := by
    clear has hrun
    induction as with
    | nil => rfl
    | cons a as ih =>
        cases hinfers : a.infers <;> simp [Action.credit, hinfers, ih, Nat.mul_add, Nat.add_comm]
  have hlength := length_le_of_credit (P := ConnInv) State.stepsLeft
    (fun _ _ _ hinv hs => hinv.step hs)
    (fun _ _ _ hinv ha hs => State.act_stepsLeft hinv (hkind _ ha) hs) hinv has hrun
  rwa [hsum] at hlength

/-- A run without new texts leads to rest. -/
theorem exists_rest_of_windsUp (hinv : ConnInv s)
    (hkind : ∀ a, kind a = true → a.windsUp = true) (hret : kind (.worker (.ret 0)) = true) :
    ∃ as t, (∀ a ∈ as, (kind a && !a.infers) = true) ∧ as.length ≤ s.stepsLeft ∧
      (system srv).runGuarded Free s as = some t ∧ (system srv).AtRest kind t := by
  refine exists_run_to_rest (P := ConnInv) State.stepsLeft (fun a => kind a && !a.infers)
    (fun _ _ _ hinv hs => hinv.step hs) (fun u a u' hinv ha hs => ?_)
    (fun u _ hu => exists_quiet_step hret hu) s hinv
  rw [Bool.and_eq_true, Bool.not_eq_true'] at ha
  have hless := State.act_stepsLeft hinv (hkind a ha.1) hs
  rwa [Action.credit, ha.2] at hless

end Bound

/-- Between two requests the threads come to rest: they make no more than `stepsLeft` steps, and
`callbackSteps` for every text of inference; the run that ends exists; and where no thread can go
on, everything that was started has been answered. -/
theorem runs_settle (srv : Server) {s : State} (hr : (system srv).Reachable Free s) :
    (∀ as t, (∀ a ∈ as, a.continues = true) → (system srv).runGuarded Free s as = some t →
      t.stepsLeft + as.length ≤ s.stepsLeft + callbackSteps * as.countP Action.infers) ∧
    (∃ as t, (∀ a ∈ as, (a.continues && !a.infers) = true) ∧ as.length ≤ s.stepsLeft ∧
      (system srv).runGuarded Free s as = some t ∧ (system srv).AtRest Action.continues t) ∧
    ∀ as t, (system srv).runGuarded Free s as = some t →
      (system srv).AtRest Action.continues t → Settled t :=
  ⟨fun _ _ has hrun => length_le_of_windsUp (connInv_of_reachable hr)
      (fun _ => Action.windsUp_of_continues) has hrun,
    exists_rest_of_windsUp (connInv_of_reachable hr) (fun _ => Action.windsUp_of_continues) rfl,
    fun _ _ hrun hrest => settled_of_atRest (hr.of_runGuarded hrun) hrest⟩

/-- After `g_shutdown_requested` the events of the shutdown end both threads. -/
theorem shutdown_completes (srv : Server) {s : State} (hr : (system srv).Reachable Free s)
    (hrequested : s.shutdownRequested = true) :
    (∀ as t, (∀ a ∈ as, a.windsUp = true) → (system srv).runGuarded Free s as = some t →
      t.stepsLeft + as.length ≤ s.stepsLeft + callbackSteps * as.countP Action.infers) ∧
    (∃ as t, (∀ a ∈ as, (a.windsUp && !a.infers) = true) ∧ as.length ≤ s.stepsLeft ∧
      (system srv).runGuarded Free s as = some t ∧ (system srv).AtRest Action.windsUp t) ∧
    ∀ as t, (system srv).runGuarded Free s as = some t →
      (system srv).AtRest Action.windsUp t → t.main = .finished ∧ t.worker = .exited :=
  ⟨fun _ _ has hrun => length_le_of_windsUp (connInv_of_reachable hr) (fun _ => id) has hrun,
    exists_rest_of_windsUp (connInv_of_reachable hr) (fun _ => id) rfl,
    fun _ _ hrun hrest => ended_of_atRest (hr.of_runGuarded hrun) (requested_of_run hrequested hrun) hrest⟩

namespace Sample

/-- The stream that its client has left comes to rest. -/
theorem runs_settle_walksOut :
    (∃ as t, as.length ≤ afterWalksOut.stepsLeft ∧
      (system server).runGuarded Free afterWalksOut as = some t ∧ Settled t) ∧
    goesOn.length ≤ afterWalksOut.stepsLeft + callbackSteps := by
  have hr : (system server).Reachable Free afterWalksOut := reachable_of_isSome walksOut_replays
  rcases runs_settle server hr with ⟨hbound, ⟨as, t, _, hlength, hrun, hrest⟩, hsettled⟩
  refine ⟨⟨as, t, hlength, hrun, hsettled as t hrun hrest⟩, ?_⟩
  have hgoes : ((system server).runGuarded Free afterWalksOut goesOn).isSome = true := by decide
  obtain ⟨u, hu⟩ := Option.isSome_iff_exists.1 hgoes
  have hless := hbound goesOn u (by decide) hu
  have hone : goesOn.countP Action.infers = 1 := by decide
  rw [hone] at hless
  omega

def signalled : List Action :=
  walksOut ++ [.signal]

theorem signalled_replays :
    ((system server).runGuarded Free State.init signalled).isSome = true := by
  decide

def afterSignalled : State :=
  ((system server).runGuarded Free State.init signalled).get signalled_replays

theorem shutdown_completes_signalled :
    ∃ as t, as.length ≤ afterSignalled.stepsLeft ∧
      (system server).runGuarded Free afterSignalled as = some t ∧
        t.main = .finished ∧ t.worker = .exited := by
  have hr : (system server).Reachable Free afterSignalled := reachable_of_isSome signalled_replays
  rcases shutdown_completes server hr (by decide) with
    ⟨_, ⟨as, t, _, hlength, hrun, hrest⟩, hended⟩
  exact ⟨as, t, hlength, hrun, hended as t hrun hrest⟩

end Sample

end Professord
