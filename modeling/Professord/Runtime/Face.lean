import Professord.Lifecycle.Conditions
import Professord.Runtime.System

/-!
# Face — the job life cycle of a state of the server

`State.face` forgets everything but the life cycle of the jobs, and `State.move` is the move of
`Lifecycle.Protocol` that a step of a thread makes, if any.  The lemmas here compute the face of
every updated state; that each step is its move is `Professord.Runtime.Refinement`.
-/

namespace Professord

open Lifecycle

/-! ## The abstraction -/

@[simp] def WorkerPc.stage : WorkerPc → WorkerStage JobId
  | .waiting => .idle
  | .setRunning j | .dispatch j | .generating j _ | .cbEmptyTest j _ _ | .cbRingWrite j _ _ _
  | .cbTestMgr j _ _ | .cbWakeup j | .ringDone j _ | .storeState j _ => .busy j
  | .logDelivery j | .clearCurrent j => .window j
  | .testOrphaned j => .cleared j
  | .freeOrphan j => .disposing j
  | .testMgr j | .finalWakeup j => .leaving j
  | .exited => .gone

@[simp] def MainPc.stage : MainPc → LoopStage JobId ConnId
  | .busyLoad (.request c _ _) j => .peeking (some c) j
  | .busyLoad .report j => .peeking none j
  | .alloc c _ _ => .requesting c
  | .submit c j => .preparing c j
  | .storeFnData c j => .attaching c j
  | .sendHeaders c j => .attached c j
  | .drainTest c j | .drainLoad c j | .drainBatch c j | .drainDone c j | .drainState c j false =>
      .serving c j
  | .drainReply c j _ | .drainState c j true | .drainFinal c j => .finalizing c j
  | .closeCancel c j | .closeMgr c j | .closeOrphan c j => .closing c j
  | .poll | .workerCancel | .workerDestroy | .workerJoin | .finished => .idle

theorem WorkerPc.stage_job (pc : WorkerPc) : pc.stage.job = pc.job := by
  cases pc <;> rfl

theorem MainPc.stage_job (pc : MainPc) : pc.stage.job = pc.job := by
  cases pc with
  | busyLoad caller j => cases caller <;> rfl
  | drainState c j done => cases done <;> rfl
  | _ => rfl

def jobFace (allocated : Bool) (r : WorkerJob) (l : JobLog) : JobFace ConnId where
  allocated := allocated
  accepted := l.accepted
  started := l.started
  stream := r.stream
  done := r.ring.done
  final := !r.state.isBusy
  orphaned := r.orphaned
  left := l.left
  frees := l.frees
  home := r.wakeupId

def State.face (s : State) : Protocol JobId ConnId where
  slot := s.currentJob
  worker := s.worker.stage
  loop := s.main.stage
  job j := jobFace (Nat.blt j s.nextJob) (s.jobs j) (s.log j)
  held c := (s.conns c).fnData
  used c := Nat.blt c s.nextConn
  isOpen c := (s.conns c).isOpen
  draining c := (s.conns c).isDraining
  inFlight c := s.wakeups.count c

/-- The move that a step of the worker makes. -/
def State.workerMove (s : State) : Option (Move JobId ConnId) :=
  match s.worker with
  | .waiting => if s.running then s.currentJob.map .take else some .exit
  | .setRunning j => some (.run j)
  | .cbWakeup j => if (s.jobs j).mgr then some (.notify j) else none
  | .ringDone j _ => some (.markDone j)
  | .storeState j _ => some (.finish j)
  | .clearCurrent j => some (.clear j)
  | .testOrphaned j => some (.test j)
  | .freeOrphan j => some (.dispose j)
  | .testMgr j => if (s.jobs j).mgr then none else some (.leave j)
  | .finalWakeup j => some (if (s.jobs j).mgr then .notifyLeave j else .leave j)
  | _ => none

/-- The move that a step inside a handler makes. -/
def State.handlerMove (s : State) (srv : Server) (env : HandlerEnv) :
    Option (Move JobId ConnId) :=
  match s.main with
  | .busyLoad .report j => some (.peeked none j false)
  | .busyLoad (.request c _ _) j => some (.peeked (some c) j (!(s.jobs j).state.isBusy))
  | .alloc c type body =>
      if !env.callocOk then
        some (.giveUp c)
      else if (srv.buildJob c type body env.requestId).isSome then
        some (.allocate c s.nextJob)
      else
        some (.discard c s.nextJob)
  | .submit c j => some (if (s.workerSubmit j).1 then .accept c j else .refuse c j)
  | .storeFnData c j => some (.attach c j)
  | .sendHeaders c j => some (.settle c j)
  | .drainLoad c j => some (if (s.jobs j).state.isBusy then .rest c j else .decide c j)
  | .drainDone c j =>
      if (s.jobs j).ring.done && (s.jobs j).ring.isEmpty then some (.decide c j) else none
  | .drainState c j false => some (if (s.jobs j).state.isBusy then .rest c j else .decide c j)
  | .drainReply c j _ | .drainFinal c j => some (.finalize c j)
  | .closeOrphan c j => some (.orphan c j)
  | _ => none

/-- The move that the main thread makes. -/
def State.mainMove (s : State) (srv : Server) : MainChoice → Option (Move JobId ConnId)
  | .go env => s.handlerMove srv env
  | .accept _ => some (.connect s.nextConn)
  | .http c hm _ =>
      match evHttpMsg srv.mg srv.cfg hm, s.currentJob with
      | .inference _, some j => some (.peek (some c) j)
      | .inference _, none => some (.request c)
      | _, _ => none
  | .wakeup c =>
      match (s.conns c).isOpen, (s.conns c).fnData with
      | true, some j => some (.serve c j)
      | _, _ => some (.drop c)
  | .close c =>
      match (s.conns c).fnData with
      | none => some (.closeFree c)
      | some j => some (.closeBegin c j)
  | .report => s.currentJob.map (.peek none)
  | .leave => none

def State.move (srv : Server) (s : State) : Action → Option (Move JobId ConnId)
  | .signal => none
  | .worker _ => s.workerMove
  | .main ch => s.mainMove srv ch


/-! ## Faces of updated states -/

namespace State

@[simp] theorem face_slot (s : State) : s.face.slot = s.currentJob := rfl

@[simp] theorem face_worker (s : State) : s.face.worker = s.worker.stage := rfl

@[simp] theorem face_loop (s : State) : s.face.loop = s.main.stage := rfl

@[simp] theorem face_job (s : State) (j : JobId) :
    s.face.job j = jobFace (Nat.blt j s.nextJob) (s.jobs j) (s.log j) := rfl

@[simp] theorem face_held (s : State) (c : ConnId) : s.face.held c = (s.conns c).fnData := rfl

@[simp] theorem face_used (s : State) (c : ConnId) : s.face.used c = Nat.blt c s.nextConn := rfl

@[simp] theorem face_isOpen (s : State) (c : ConnId) : s.face.isOpen c = (s.conns c).isOpen := rfl

@[simp] theorem face_draining (s : State) (c : ConnId) :
    s.face.draining c = (s.conns c).isDraining := rfl

@[simp] theorem face_inFlight (s : State) (c : ConnId) :
    s.face.inFlight c = s.wakeups.count c := rfl

@[simp] theorem face_touch (s : State) (j : JobId) : (s.touch j).face = s.face := rfl

@[simp] theorem face_goWorker (s : State) (pc : WorkerPc) :
    (s.goWorker pc).face = { s.face with worker := pc.stage } := rfl

@[simp] theorem face_goMain (s : State) (pc : MainPc) :
    (s.goMain pc).face = { s.face with loop := pc.stage } := rfl

theorem face_updJob {s : State} {j : JobId} {f : WorkerJob → WorkerJob}
    {g : JobFace ConnId → JobFace ConnId}
    (h : ∀ a l, jobFace a (f (s.jobs j)) l = g (jobFace a (s.jobs j) l)) :
    (s.updJob j f).face = s.face.setJob j g := by
  have hjob : (s.updJob j f).face.job = (s.face.setJob j g).job := by
    funext k
    by_cases hk : k = j
    · subst hk
      simp [face, updJob, h]
    · simp [face, updJob, hk]
  exact Protocol.ext rfl rfl rfl hjob rfl rfl rfl rfl rfl

theorem face_updLog {s : State} {j : JobId} {f : JobLog → JobLog}
    {g : JobFace ConnId → JobFace ConnId}
    (h : ∀ a r, jobFace a r (f (s.log j)) = g (jobFace a r (s.log j))) :
    (s.updLog j f).face = s.face.setJob j g := by
  have hjob : (s.updLog j f).face.job = (s.face.setJob j g).job := by
    funext k
    by_cases hk : k = j
    · subst hk
      simp [face, updLog, h]
    · simp [face, updLog, hk]
  exact Protocol.ext rfl rfl rfl hjob rfl rfl rfl rfl rfl

/-- An update of fields that the life cycle does not see. -/
theorem face_updJob_same {s : State} {j : JobId} {f : WorkerJob → WorkerJob}
    (h : ∀ a l, jobFace a (f (s.jobs j)) l = jobFace a (s.jobs j) l) :
    (s.updJob j f).face = s.face := by
  rw [face_updJob (g := id) h, Protocol.setJob_self _ _ _ rfl]

theorem face_updLog_same {s : State} {j : JobId} {f : JobLog → JobLog}
    (h : ∀ a r, jobFace a r (f (s.log j)) = jobFace a r (s.log j)) :
    (s.updLog j f).face = s.face := by
  rw [face_updLog (g := id) h, Protocol.setJob_self _ _ _ rfl]

theorem face_updConn (s : State) (c : ConnId) (f : Conn → Conn) :
    (s.updConn c f).face =
      { s.face with
        held := Function.update s.face.held c (f (s.conns c)).fnData
        isOpen := Function.update s.face.isOpen c (f (s.conns c)).isOpen
        draining := Function.update s.face.draining c (f (s.conns c)).isDraining } := by
  have hupd : ∀ {β : Type} (p : Conn → β), (fun k => p ((s.updConn c f).conns k)) =
      Function.update (fun k => p (s.conns k)) c (p (f (s.conns c))) := by
    intro β p
    funext k
    by_cases hk : k = c
    · subst hk
      simp [updConn]
    · simp [updConn, hk]
  exact Protocol.ext rfl rfl rfl rfl (hupd Conn.fnData) rfl (hupd Conn.isOpen)
    (hupd Conn.isDraining) rfl

theorem face_setData (s : State) (c : ConnId) (d : Option JobId) :
    (s.updConn c fun k => { k with fnData := d }).face =
      { s.face with held := Function.update s.face.held c d } := by
  rw [face_updConn, ← face_isOpen, ← face_draining, Function.update_eq_self,
    Function.update_eq_self]

theorem face_drain (s : State) (c : ConnId) :
    (s.updConn c fun k => { k with fnData := none, isDraining := true }).face =
      { s.face with
        held := Function.update s.face.held c none
        draining := Function.update s.face.draining c true } := by
  rw [face_updConn, ← face_isOpen, Function.update_eq_self]

theorem face_updConn_same {s : State} {c : ConnId} {f : Conn → Conn}
    (hdata : (f (s.conns c)).fnData = (s.conns c).fnData)
    (hopen : (f (s.conns c)).isOpen = (s.conns c).isOpen)
    (hdraining : (f (s.conns c)).isDraining = (s.conns c).isDraining) :
    (s.updConn c f).face = s.face := by
  rw [face_updConn, hdata, hopen, hdraining]
  simp only [← face_held, ← face_isOpen, ← face_draining, Function.update_eq_self]

@[simp] theorem face_sendReply (s : State) (c : ConnId) (r : Reply) :
    (s.sendReply c r).face = s.face :=
  face_updConn_same (s := s) (f := fun k => { k with replies := k.replies ++ [r] }) rfl rfl rfl

theorem face_stats (s : State) (st : Stats) : { s with stats := st }.face = s.face :=
  rfl

@[simp] theorem face_sendError (s : State) (texts : JsonTexts) (c : ConnId) (status : Nat)
    (message type : String) : (s.sendError texts c status message type).face = s.face :=
  face_sendReply { s with stats := countError status s.stats } c _

theorem face_freeJob (s : State) (j : JobId) :
    (s.freeJob j).face = s.face.setJob j fun f => { f with frees := f.frees + 1 } :=
  face_updLog fun _ _ => rfl

theorem face_leaveJob (s : State) (j : JobId) :
    (s.leaveJob j).face =
      { s.face.setJob j (fun f => { f with left := true }) with worker := .idle } := by
  rw [leaveJob, face_goWorker, face_updLog (g := fun f => { f with left := true }) fun _ _ => rfl]
  rfl

theorem face_mgWakeup (s : State) (j : JobId) (h : (s.jobs j).mgr = true) :
    (s.mgWakeup j).face =
      { s.face with
        inFlight := Function.update s.face.inFlight (s.jobs j).wakeupId
          (s.face.inFlight (s.jobs j).wakeupId + 1) } := by
  have hflight : (s.mgWakeup j).face.inFlight = Function.update s.face.inFlight (s.jobs j).wakeupId
          (s.face.inFlight (s.jobs j).wakeupId + 1) := by
    funext c
    by_cases hc : c = (s.jobs j).wakeupId
    · subst hc
      simp [face, mgWakeup, h]
    · have hne : ¬ (s.jobs j).wakeupId = c := fun heq => hc heq.symm
      simp [face, mgWakeup, h, hc, hne]
  exact Protocol.ext rfl rfl rfl rfl rfl rfl rfl rfl hflight

theorem face_mgWakeup_null (s : State) (j : JobId) (h : (s.jobs j).mgr = false) :
    (s.mgWakeup j).face = s.face := by
  simp [face, mgWakeup, h, touch]

/-- A step inside one stage of the worker. -/
theorem face_goWorker_of {t : State} {pc : WorkerPc} {o : Protocol JobId ConnId}
    (hface : t.face = o) (hstage : pc.stage = o.worker) : (t.goWorker pc).face = o := by
  rw [face_goWorker, hface, hstage]

/-- A step inside one stage of the event loop. -/
theorem face_goMain_of {t : State} {pc : MainPc} {o : Protocol JobId ConnId}
    (hface : t.face = o) (hstage : pc.stage = o.loop) : (t.goMain pc).face = o := by
  rw [face_goMain, hface, hstage]

theorem blt_succ (k n : Nat) : Nat.blt k (n + 1) = if k = n then true else Nat.blt k n := by
  by_cases hk : k = n
  · simp [hk, Nat.blt_eq]
  · rw [if_neg hk, Bool.eq_iff_iff, Nat.blt_eq, Nat.blt_eq, Nat.lt_succ_iff_lt_or_eq,
      or_iff_left hk]

theorem face_issueJob (s : State) (st : Stats) :
    { s with nextJob := s.nextJob + 1, stats := st }.face =
      s.face.setJob s.nextJob fun f => { f with allocated := true } := by
  have hjob : ∀ k, { s with nextJob := s.nextJob + 1, stats := st }.face.job k =
      (s.face.setJob s.nextJob fun f => { f with allocated := true }).job k := by
    intro k
    by_cases hk : k = s.nextJob
    · simp [jobFace, blt_succ, hk]
    · simp [jobFace, blt_succ, hk]
  exact Protocol.ext rfl rfl rfl (funext hjob) rfl rfl rfl rfl rfl

@[simp] theorem face_sendEvents (s : State) (j : JobId) (es : List SseEvent) :
    (s.sendEvents j es).face = s.face :=
  face_updLog_same fun _ _ => rfl

theorem face_finalizeReply (s : State) (c : ConnId) (j : JobId) (jstate : JobState)
    (env : HandlerEnv) :
    (s.finalizeReply c j jstate env).face =
      { s.face.setJob j (fun f => { f with frees := f.frees + 1 }) with
        held := Function.update s.face.held c none } := by
  have hface : ∀ r st st', { { s with stats := st }.sendReply c r with stats := st' }.face =
      s.face := fun r st _ => face_sendReply { s with stats := st } c r
  rw [finalizeReply, face_setData, face_freeJob, sendResult_eq, hface]
  rfl

theorem face_finalizeStream (s : State) (c : ConnId) (j : JobId) (env : HandlerEnv) :
    (s.finalizeStream c j env).face =
      { s.face.setJob j (fun f => { f with frees := f.frees + 1 }) with
        held := Function.update s.face.held c none
        draining := Function.update s.face.draining c true } := by
  have hface : ∀ es st, { s.sendEvents j es with stats := st }.face = s.face :=
    fun _ _ => face_sendEvents s j _
  rw [finalizeStream, face_drain, face_freeJob, hface]
  rfl

theorem face_installJob (s : State) (j : JobId) :
    (s.installJob j).face =
      { s.face.setJob j (fun f => { f with accepted := true, final := false }) with
        slot := some j } := by
  rw [installJob, face_updLog (g := fun f => { f with accepted := true }) fun _ _ => rfl,
    face_updJob (g := fun f => { f with final := false }) fun _ _ => rfl, Protocol.setJob_setJob]
  rfl

/-- The connection record that `MG_EV_ACCEPT` leaves, whatever the counters. -/
theorem face_connect (s : State) (conn : Conn) (active : Nat) (st : Stats)
    (hdata : conn.fnData = none) (hopen : conn.isOpen = true) (hdrain : conn.isDraining = false) :
    { s.updConn s.nextConn fun _ => conn with
      nextConn := s.nextConn + 1
      activeConnections := active
      stats := st }.face =
    { s.face with
      held := Function.update s.face.held s.nextConn none
      used := Function.update s.face.used s.nextConn true
      isOpen := Function.update s.face.isOpen s.nextConn true
      draining := Function.update s.face.draining s.nextConn false } := by
  have hupd := face_updConn s s.nextConn fun _ => conn
  rw [hdata, hopen, hdrain] at hupd
  have hused : ∀ c, Nat.blt c (s.nextConn + 1) = Function.update s.face.used s.nextConn true c := by
    intro c
    rw [blt_succ, Function.update_apply]
    rfl
  have hheld := congrArg Protocol.held hupd
  have hopened := congrArg Protocol.isOpen hupd
  have hdraining := congrArg Protocol.draining hupd
  exact Protocol.ext rfl rfl rfl rfl hheld (funext hused) hopened hdraining rfl

theorem face_evClose (s : State) (c : ConnId) :
    (s.evClose c).face = { s.face with isOpen := Function.update s.face.isOpen c false } := by
  have hupd := face_updConn s c fun k => { k with isOpen := false }
  rw [← face_held, ← face_draining, Function.update_eq_self, Function.update_eq_self] at hupd
  exact hupd

theorem face_takeWakeup (s : State) (c : ConnId) :
    { s with wakeups := s.wakeups.erase c }.face =
      { s.face with
        inFlight := Function.update s.face.inFlight c (s.face.inFlight c - 1) } := by
  have hflight : ∀ k, (s.wakeups.erase c).count k =
      Function.update s.face.inFlight c (s.face.inFlight c - 1) k := by
    intro k
    by_cases hk : k = c
    · subst hk
      simp
    · simp [hk, List.count_erase_of_ne hk]
  exact Protocol.ext rfl rfl rfl rfl rfl rfl rfl rfl (funext hflight)

end State

end Professord
