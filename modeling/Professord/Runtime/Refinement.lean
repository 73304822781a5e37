import Professord.Runtime.Face

/-!
# Refinement — the running server refines the job life cycle

Every step of a thread is at most one move of `Lifecycle.Protocol` between the faces
(`lifecycle`); what the life cycle yields for every schedule is collected in `Sound`.
-/

namespace Professord

open Lifecycle

/-! ## Streaming and non-streaming branches -/

/-- The job in whose streaming callback, or at whose ring, the worker is. -/
def WorkerPc.streams : WorkerPc → Option JobId
  | .cbEmptyTest j _ _ | .cbRingWrite j _ _ _ | .cbTestMgr j _ _ | .cbWakeup j | .ringDone j _ =>
      some j
  | _ => none

/-- The job that `drain_stream_ring` handles, and whether in its streaming branch. -/
def MainPc.drains : MainPc → Option (JobId × Bool)
  | .drainLoad _ j | .drainReply _ j _ => some (j, false)
  | .drainBatch _ j | .drainDone _ j | .drainState _ j _ | .drainFinal _ j => some (j, true)
  | _ => none

theorem WorkerPc.stage_of_streams {pc : WorkerPc} {j : JobId} (h : pc.streams = some j) :
    pc.stage = .busy j := by
  cases pc <;> simp_all [streams]

theorem MainPc.stage_of_drains {pc : MainPc} {j : JobId} {b : Bool}
    (h : pc.drains = some (j, b)) : ∃ c, pc.stage = .serving c j ∨ pc.stage = .finalizing c j := by
  cases pc with
  | drainState c k done => cases done <;> simp_all [drains]
  | _ => simp_all [drains]

structure StreamPaths (s : State) : Prop where
  worker : ∀ j, s.worker.streams = some j → (s.jobs j).stream = true
  main : ∀ j b, s.main.drains = some (j, b) → (s.jobs j).stream = b

namespace State

/-- What a step labelled `l` does to the life cycle. -/
def Moves (s s' : State) (l : Option (Move JobId ConnId)) : Prop :=
  (l = none ∧ s'.face = s.face) ∨ ∃ m, l = some m ∧ Step s.face m s'.face

theorem Moves.silent {s s' : State} {l : Option (Move JobId ConnId)} (hl : l = none)
    (hface : s'.face = s.face) : s.Moves s' l :=
  .inl ⟨hl, hface⟩

theorem Moves.move {s s' : State} {l : Option (Move JobId ConnId)} {m : Move JobId ConnId}
    {o : Protocol JobId ConnId} (hl : l = some m) (hs : Step s.face m o) (hface : s'.face = o) :
    s.Moves s' l :=
  .inr ⟨m, hl, hface ▸ hs⟩

/-! ## The worker's steps -/

theorem workerStep_moves {s s' : State} {ch : WorkerChoice}
    (hstream : ∀ j, s.worker = .cbWakeup j → (s.jobs j).stream = true)
    (h : s.workerStep ch = some s') : s.Moves s' s.workerMove := by
  cases hpc : s.worker with
  | waiting =>
      cases ch <;> simp [workerStep, hpc] at h
      by_cases hrun : s.running = true
      · cases hslot : s.currentJob with
        | none => simp [hrun, hslot] at h
        -- `worker_thread_main` takes the job and marks it as started
        | some j =>
            simp [hrun, hslot] at h
            subst h
            refine .move (m := .take j) ?_ (Step.take (by simp [hpc]) hslot) ?_
            · simp [workerMove, hpc, hrun, hslot]
            · rw [face_goWorker, face_updLog (g := fun f => { f with started := f.started + 1 })
                fun _ _ => rfl]
              rfl
      · simp [hrun] at h
        subst h
        refine .move (m := .exit) ?_ (Step.exit (by simp [hpc])) rfl
        simp [workerMove, hpc, hrun]
  | setRunning j =>
      cases ch <;> simp [workerStep, hpc] at h
      subst h
      refine .move (m := .run j) ?_ (Step.run (by simp [hpc])) ?_
      · simp [workerMove, hpc]
      · exact face_goWorker_of (face_updJob fun _ _ => rfl) (by simp [hpc])
  | dispatch j =>
      have hnone : s.workerMove = none := by simp [workerMove, hpc]
      refine .silent hnone ?_
      by_cases hs : (s.jobs j).stream = true
      · cases ch <;> simp [workerStep, hpc, hs] at h
        subst h
        exact face_goWorker_of rfl (by simp [hpc])
      · cases ch <;> simp [workerStep, hpc, hs] at h <;> subst h
        · exact face_goWorker_of (face_updJob_same fun _ _ => rfl) (by simp [hpc])
        · exact face_goWorker_of (face_updJob_same fun _ _ => rfl) (by simp [hpc])
  | generating j wake =>
      have hnone : s.workerMove = none := by simp [workerMove, hpc]
      refine .silent hnone ?_
      cases ch with
      | go => simp [workerStep, hpc] at h
      | mallocFails => simp [workerStep, hpc] at h
      | infer finish pt ct =>
          simp [workerStep, hpc] at h
          subst h
          exact face_goWorker_of (face_updJob_same fun _ _ => rfl) (by simp [hpc])
      | piece text reallocOk =>
          by_cases hs : (s.jobs j).stream = true <;> simp [workerStep, hpc, hs] at h <;> subst h
          · exact face_goWorker_of rfl (by simp [hpc])
          · exact face_goWorker_of (face_updJob_same fun _ _ => rfl) (by simp [hpc])
      | ret rc =>
          by_cases hs : (s.jobs j).stream = true <;> simp [workerStep, hpc, hs] at h <;> subst h
          · exact face_goWorker_of rfl (by simp [hpc])
          · exact face_goWorker_of rfl (by simp [hpc])
  | cbEmptyTest j wake text =>
      cases ch <;> simp [workerStep, hpc] at h
      subst h
      exact .silent (by simp [workerMove, hpc]) (face_goWorker_of rfl (by simp [hpc]))
  | cbRingWrite j wake text wasEmpty =>
      have hnone : s.workerMove = none := by simp [workerMove, hpc]
      refine .silent hnone ?_
      rcases workerStep_of_cbRingWrite h hpc with rfl | ⟨ring, hwr, rfl⟩
      · exact face_goWorker_of rfl (by simp [hpc])
      · -- the face shows of a ring only whether it is done
        have hdone := (ringWrite_stored hwr).2.1
        refine face_goWorker_of ((face_updLog_same fun _ _ => rfl).trans ?_) (by simp [hpc])
        exact face_updJob_same fun a l => by simp [jobFace, touch, hdone]
  | cbTestMgr j wake wasEmpty =>
      have hnone : s.workerMove = none := by simp [workerMove, hpc]
      refine .silent hnone ?_
      cases ch <;> simp [workerStep, hpc] at h
      split at h <;> cases h <;> exact face_goWorker_of rfl (by simp [hpc])
  | cbWakeup j =>
      cases ch <;> simp [workerStep, hpc] at h
      subst h
      -- `mg_wakeup` is a move only if there is a manager to wake
      cases hmgr : (s.jobs j).mgr with
      | true =>
          refine .move (m := .notify j) ?_ (Step.notify (by simp [hpc]) (hstream j hpc)) ?_
          · simp [workerMove, hpc, hmgr]
          · exact face_goWorker_of (face_mgWakeup s j hmgr) (by simp [hpc])
      | false =>
          refine .silent (by simp [workerMove, hpc, hmgr]) ?_
          exact face_goWorker_of (face_mgWakeup_null s j hmgr) (by simp [hpc])
  | ringDone j rc =>
      cases ch <;> simp [workerStep, hpc] at h
      subst h
      refine .move (m := .markDone j) ?_ (Step.markDone (by simp [hpc])) ?_
      · simp [workerMove, hpc]
      · exact face_goWorker_of (face_updJob fun _ _ => rfl) (by simp [hpc])
  | storeState j rc =>
      cases ch <;> simp [workerStep, hpc] at h
      subst h
      refine .move (m := .finish j) ?_ (Step.finish (by simp [hpc])) ?_
      · simp [workerMove, hpc]
      · rw [face_goWorker, face_updJob (g := fun f => { f with final := true })
          fun _ _ => by simp [jobFace]]
        rfl
  | logDelivery j =>
      cases ch <;> simp [workerStep, hpc] at h
      subst h
      exact .silent (by simp [workerMove, hpc]) (face_goWorker_of rfl (by simp [hpc]))
  | clearCurrent j =>
      cases ch <;> simp [workerStep, hpc] at h
      subst h
      refine .move (m := .clear j) ?_ (Step.clear (by simp [hpc])) rfl
      simp [workerMove, hpc]
  | testOrphaned j =>
      cases ch <;> simp [workerStep, hpc] at h
      have hlabel : s.workerMove = some (.test j) := by simp [workerMove, hpc]
      cases ho : (s.jobs j).orphaned with
      | true =>
          simp [ho] at h
          subst h
          exact .move hlabel (Step.testOrphaned (by simp [hpc]) ho) rfl
      | false =>
          simp [ho] at h
          subst h
          exact .move hlabel (Step.testAttached (by simp [hpc]) ho) rfl
  | freeOrphan j =>
      cases ch <;> simp [workerStep, hpc] at h
      subst h
      refine .move (m := .dispose j) ?_ (Step.dispose (by simp [hpc])) ?_
      · simp [workerMove, hpc]
      · rw [face_leaveJob, face_freeJob, Protocol.setJob_setJob]
  | testMgr j =>
      cases ch <;> simp [workerStep, hpc] at h
      cases hmgr : (s.jobs j).mgr with
      | true =>
          simp [hmgr] at h
          subst h
          exact .silent (by simp [workerMove, hpc, hmgr]) (face_goWorker_of rfl (by simp [hpc]))
      | false =>
          simp [hmgr] at h
          subst h
          refine .move (m := .leave j) ?_ (Step.leave (by simp [hpc])) ?_
          · simp [workerMove, hpc, hmgr]
          · exact face_leaveJob s j
  | finalWakeup j =>
      cases ch <;> simp [workerStep, hpc] at h
      subst h
      cases hmgr : (s.jobs j).mgr with
      -- the last wakeup and leaving the job are one move
      | true =>
          refine .move (m := .notifyLeave j) ?_ (Step.notifyLeave (by simp [hpc])) ?_
          · simp [workerMove, hpc, hmgr]
          · rw [face_leaveJob, face_mgWakeup s j hmgr]
            rfl
      | false =>
          refine .move (m := .leave j) ?_ (Step.leave (by simp [hpc])) ?_
          · simp [workerMove, hpc, hmgr]
          · rw [face_leaveJob, face_mgWakeup_null s j hmgr]
  | exited => cases ch <;> simp [workerStep, hpc] at h

/-! ## The main thread's steps -/

theorem buildJob_fresh {srv : Server} {c : ConnId} {type : JobType} {body : Bytes}
    {requestId : CBuf profIdMax} {job : WorkerJob}
    (h : srv.buildJob c type body requestId = some job) :
    job.ring.done = false ∧ job.state = .idle ∧ job.orphaned = false ∧ job.wakeupId = c := by
  cases type with
  | chat =>
      rcases Option.map_eq_some_iff.1 h with ⟨req, _, rfl⟩
      exact ⟨rfl, rfl, rfl, rfl⟩
  | completion =>
      rcases Option.map_eq_some_iff.1 h with ⟨req, _, rfl⟩
      exact ⟨rfl, rfl, rfl, rfl⟩

theorem allocJob_moves {s : State} {srv : Server} {c : ConnId} {type : JobType} {body : Bytes}
    {env : HandlerEnv} (hpc : s.main = .alloc c type body) :
    s.Moves (s.allocJob srv c type body env) (s.handlerMove srv env) := by
  have hloop : s.face.loop = .requesting c := by simp [hpc]
  -- the ids from `nextJob` on are unused
  have hnew : (s.face.job s.nextJob).allocated = false := by
    simp [jobFace, Bool.eq_false_iff, Nat.blt_eq]
  cases hcalloc : env.callocOk with
  | false =>
      refine .move (m := .giveUp c) ?_ (Step.giveUp hloop) ?_
      · simp [handlerMove, hpc, hcalloc]
      · simp [allocJob, hcalloc]
  | true =>
      cases hjob : srv.buildJob c type body env.requestId with
      | none =>
          -- the body does not parse: the job is freed at once
          refine .move (m := .discard c s.nextJob) ?_ (Step.discard hloop hnew) ?_
          · simp [handlerMove, hpc, hcalloc, hjob]
          · simp only [allocJob, hcalloc, hjob, Bool.not_true, Bool.false_eq_true, if_false,
              face_goMain, face_sendError, face_freeJob, face_issueJob, Protocol.setJob_setJob]
            rfl
      | some job =>
          have hfresh := buildJob_fresh hjob
          let fresh : JobFace ConnId → JobFace ConnId := fun f =>
            { f with
              stream := job.stream
              done := false
              final := false
              orphaned := false
              home := c }
          refine .move (m := .allocate c s.nextJob) ?_ (Step.allocate job.stream hloop hnew) ?_
          · simp [handlerMove, hpc, hcalloc, hjob]
          · simp only [allocJob, hcalloc, hjob, Bool.not_true, Bool.false_eq_true, if_false]
            rw [face_goMain, face_updJob (g := fresh) fun a l => by simp [jobFace, hfresh, JobState.isBusy, fresh],
              face_issueJob, Protocol.setJob_setJob]
            rfl

theorem submit_moves {s : State} {srv : Server} {c : ConnId} {j : JobId} {env : HandlerEnv}
    {s' : State} (hpc : s.main = .submit c j) (h : s.mainGo srv env = some s') :
    s.Moves s' (s.handlerMove srv env) := by
  have hloop : s.face.loop = .preparing c j := by simp [hpc]
  cases hacc : (s.workerSubmit j).1 with
  | true =>
      simp [mainGo, hpc, hacc] at h
      subst h
      have hlabel : s.handlerMove srv env = some (.accept c j) := by
        simp [handlerMove, hpc, hacc]
      -- `worker_submit` has accepted, so a job in the slot is no longer busy
      have hfinal : ∀ k, s.face.slot = some k → (s.face.job k).final = true := by
        intro k hk
        have hslot : s.currentJob = some k := hk
        cases hbusy : (s.jobs k).state.isBusy with
        | false => simp [jobFace, hbusy]
        -- a busy slot refuses
        | true => simp [workerSubmit, hslot, hbusy] at hacc
      have hface : (s.workerSubmit j).2.face = (s.installJob j).face := by
        cases hslot : s.currentJob with
        | none => simp [workerSubmit, hslot]
        | some k =>
            have hnot : (s.jobs k).state.isBusy = false := by
              simpa [jobFace] using hfinal k hslot
            simp [workerSubmit, hslot, hnot, face_installJob]
      refine .move hlabel (Step.accept hloop hfinal) ?_
      rw [face_goMain, hface, face_installJob]
      rfl
  | false =>
      simp [mainGo, hpc, hacc] at h
      subst h
      have hlabel : s.handlerMove srv env = some (.refuse c j) := by
        simp [handlerMove, hpc, hacc]
      have hface : (s.workerSubmit j).2.face = s.face := by
        cases hslot : s.currentJob with
        | none => simp [workerSubmit, hslot] at hacc
        | some k =>
            cases hbusy : (s.jobs k).state.isBusy with
            | false => simp [workerSubmit, hslot, hbusy] at hacc
            | true => simp [workerSubmit, hslot, hbusy]
      refine .move hlabel (Step.refuse hloop) ?_
      rw [face_goMain, face_sendError, face_freeJob, hface]
      rfl

theorem handler_moves {s : State} {srv : Server} {env : HandlerEnv} {s' : State}
    (hstream : ∀ j b, s.main.drains = some (j, b) → (s.jobs j).stream = b)
    (h : s.mainGo srv env = some s') : s.Moves s' (s.handlerMove srv env) := by
  cases hpc : s.main with
  | poll =>
      have hnone : s.handlerMove srv env = none := by simp [handlerMove, hpc]
      by_cases hd : s.destroying = true ∧ s.noOpenConn = true <;> simp [mainGo, hpc, hd] at h
      subst h
      exact .silent hnone (face_goMain_of rfl (by simp [hpc]))
  | busyLoad caller j =>
      simp [mainGo, hpc] at h
      subst h
      cases caller with
      | report =>
          refine .move (m := .peeked none j false) ?_ (Step.peekedStop (by simp [hpc])) rfl
          simp [handlerMove, hpc]
      | request c type body =>
          cases hbusy : (s.jobs j).state.isBusy with
          | true =>
              refine .move (m := .peeked (some c) j false) ?_ (Step.peekedStop (by simp [hpc])) ?_
              · simp [handlerMove, hpc, hbusy]
              · simp [busyLoaded]
          | false =>
              refine .move (m := .peeked (some c) j true) ?_ (Step.peekedProceed (by simp [hpc])) ?_
              · simp [handlerMove, hpc, hbusy]
              · simp [busyLoaded]
  | alloc c type body =>
      simp [mainGo, hpc] at h
      subst h
      exact allocJob_moves hpc
  | submit c j => exact submit_moves hpc h
  | storeFnData c j =>
      simp [mainGo, hpc] at h
      subst h
      refine .move (m := .attach c j) ?_ (Step.attach (by simp [hpc])) ?_
      · simp [handlerMove, hpc]
      · rw [face_goMain, face_setData]
        rfl
  | sendHeaders c j =>
      have hlabel : s.handlerMove srv env = some (.settle c j) := by simp [handlerMove, hpc]
      refine .move hlabel (Step.settle (by simp [hpc])) ?_
      by_cases hs : (s.jobs j).stream = true <;> simp [mainGo, hpc, hs] at h <;> subst h
      · rw [face_goMain, face_updConn_same rfl rfl rfl]
        rfl
      · rfl
  | drainTest c j =>
      have hnone : s.handlerMove srv env = none := by simp [handlerMove, hpc]
      refine .silent hnone ?_
      by_cases hs : (s.jobs j).stream = true <;> simp [mainGo, hpc, hs] at h <;> subst h
      · exact face_goMain_of rfl (by simp [hpc])
      · exact face_goMain_of rfl (by simp [hpc])
  | drainLoad c j =>
      cases hbusy : (s.jobs j).state.isBusy with
      | true =>
          simp [mainGo, hpc, hbusy] at h
          subst h
          refine .move (m := .rest c j) ?_ (Step.rest (by simp [hpc])) rfl
          simp [handlerMove, hpc, hbusy]
      | false =>
          simp [mainGo, hpc, hbusy] at h
          subst h
          refine .move (m := .decide c j) ?_ (Step.decide (by simp [hpc]) (.inl ?_)) rfl
          · simp [handlerMove, hpc, hbusy]
          · simp [jobFace, hbusy]
  | drainReply c j jstate =>
      simp [mainGo, hpc] at h
      subst h
      -- only a job that does not stream is answered here
      have hreply : (s.jobs j).stream = false := hstream j false (by simp [MainPc.drains, hpc])
      refine .move (m := .finalize c j) ?_ (Step.finalize (by simp [hpc])) ?_
      · simp [handlerMove, hpc]
      · rw [face_goMain, face_finalizeReply]
        simp [jobFace, hreply]
        exact (Function.update_eq_self c s.face.draining).symm
  | drainBatch c j =>
      simp [mainGo, hpc] at h
      subst h
      refine .silent (by simp [handlerMove, hpc]) ?_
      refine face_goMain_of ?_ ?_
      · rw [face_sendEvents]
        exact face_updJob_same fun a l => by simp [jobFace, touch, (drainBatch_spec _).2]
      · split <;> simp [hpc]
  | drainDone c j =>
      have hs : (s.jobs j).stream = true := hstream j true (by simp [MainPc.drains, hpc])
      simp [mainGo, hpc] at h
      subst h
      -- the end of the stream is decided once the ring is done and drained
      by_cases hd : (s.jobs j).ring.done = true ∧ (s.jobs j).ring.isEmpty = true
      · refine .move (m := .decide c j) ?_ (Step.decide (by simp [hpc]) (.inr ⟨hs, hd.1⟩)) ?_
        · simp [handlerMove, hpc, hd]
        · simp [hd]
      · refine .silent (by simp [handlerMove, hpc, hd]) (face_goMain_of rfl ?_)
        have hnot : ((s.jobs j).ring.done && (s.jobs j).ring.isEmpty) = false := by
          simpa using hd
        simp [hpc, hnot]
  -- what the done flag has not decided, the state of the job does
  | drainState c j done =>
      cases done with
      | true =>
          simp [mainGo, hpc] at h
          subst h
          exact .silent (by simp [handlerMove, hpc]) (face_goMain_of rfl (by simp [hpc]))
      | false =>
          cases hbusy : (s.jobs j).state.isBusy with
          | true =>
              simp [mainGo, hpc, hbusy] at h
              subst h
              refine .move (m := .rest c j) ?_ (Step.rest (by simp [hpc])) rfl
              simp [handlerMove, hpc, hbusy]
          | false =>
              simp [mainGo, hpc, hbusy] at h
              subst h
              refine .move (m := .decide c j) ?_ (Step.decide (by simp [hpc]) (.inl ?_)) rfl
              · simp [handlerMove, hpc, hbusy]
              · simp [jobFace, hbusy]
  | drainFinal c j =>
      have hs : (s.jobs j).stream = true := hstream j true (by simp [MainPc.drains, hpc])
      simp [mainGo, hpc] at h
      subst h
      refine .move (m := .finalize c j) ?_ (Step.finalize (by simp [hpc])) ?_
      · simp [handlerMove, hpc]
      · rw [face_goMain, face_finalizeStream]
        simp [jobFace, hs]
  | closeCancel c j =>
      simp [mainGo, hpc] at h
      subst h
      refine .silent (by simp [handlerMove, hpc]) ?_
      exact face_goMain_of (face_updJob_same fun _ _ => rfl) (by simp [hpc])
  | closeMgr c j =>
      simp [mainGo, hpc] at h
      subst h
      refine .silent (by simp [handlerMove, hpc]) ?_
      exact face_goMain_of (face_updJob_same fun _ _ => rfl) (by simp [hpc])
  | closeOrphan c j =>
      simp [mainGo, hpc] at h
      subst h
      refine .move (m := .orphan c j) ?_ (Step.orphan (by simp [hpc])) ?_
      · simp [handlerMove, hpc]
      · rw [face_goMain, face_setData, face_updJob (g := fun f => { f with orphaned := true })
          fun _ _ => rfl]
        rfl
  | workerCancel =>
      have hnone : s.handlerMove srv env = none := by simp [handlerMove, hpc]
      refine .silent hnone ?_
      cases hslot : s.currentJob with
      | none =>
          simp [mainGo, hpc, hslot] at h
          subst h
          exact face_goMain_of rfl (by simp [hpc])
      | some j =>
          simp [mainGo, hpc, hslot] at h
          subst h
          exact face_goMain_of (face_updJob_same fun _ _ => rfl) (by simp [hpc])
  | workerDestroy =>
      simp [mainGo, hpc] at h
      subst h
      refine .silent (by simp [handlerMove, hpc]) ?_
      exact face_goMain_of (by simp [face, hpc]) (by simp [hpc])
  | workerJoin =>
      by_cases hexit : s.worker = .exited <;> simp [mainGo, hpc, hexit] at h
      subst h
      exact .silent (by simp [handlerMove, hpc]) (face_goMain_of rfl (by simp [hpc]))
  | finished => simp [mainGo, hpc] at h

theorem evAccept_moves {s : State} (cfg : Config) (peer : Bytes) (hpc : s.main = .poll) :
    s.Moves (s.evAccept cfg peer) (some (.connect s.nextConn)) := by
  have hnew : s.face.used s.nextConn = false := by
    simp [Bool.eq_false_iff, Nat.blt_eq]
  refine .move rfl (Step.connect (by simp [hpc]) hnew) ?_
  unfold evAccept
  split
  · exact face_connect s _ _ _ rfl rfl rfl
  · exact face_connect s _ _ _ rfl rfl rfl

theorem evHttp_moves {s : State} {srv : Server} {c : ConnId} {hm : HttpMessage}
    {texts : JsonTexts} (hpc : s.main = .poll) (hc : s.canReceive c = true) :
    s.Moves (s.evHttp srv c hm texts) (s.mainMove srv (.http c hm texts)) := by
  have hloop : s.face.loop = .idle := by simp [hpc]
  have hready : s.face.ready c := by
    simp [canReceive] at hc
    exact ⟨hc.1.1.1, hc.1.2, hc.2⟩
  cases hroute : evHttpMsg srv.mg srv.cfg hm with
  | inference type =>
      cases hslot : s.currentJob with
      | none =>
          refine .move (m := .request c) ?_ (Step.request hloop hslot hready) ?_
          · simp [mainMove, hroute, hslot]
          · simp [evHttp, hroute, busyRead, hslot]
      | some j =>
          refine .move (m := .peek (some c) j) ?_ (Step.peekRequest hloop hslot hready) ?_
          · simp [mainMove, hroute, hslot]
          · simp [evHttp, hroute, busyRead, hslot]
  | _ =>
      refine .silent (by simp [mainMove, hroute]) ?_
      simp only [evHttp, hroute, face_sendError, face_sendReply, face_stats, sendJson_eq]

theorem EventStep.moves {s : State} {srv : Server} {ch : MainChoice} {s' : State}
    (h : s.EventStep srv ch s') (hpc : s.main = .poll) : s.Moves s' (s.mainMove srv ch) := by
  have hloop : s.face.loop = .idle := by simp [hpc]
  cases h with
  | accept _ => exact evAccept_moves srv.cfg _ hpc
  | http _ hready => exact evHttp_moves hpc hready
  | @drop c _ hsent hgone =>
      have hflight : 0 < s.face.inFlight c := by simpa using List.count_pos_iff.2 hsent
      refine .move (m := .drop c) ?_ (Step.drop hloop hflight) (face_takeWakeup s c)
      rcases hgone with hopen | hdata
      · simp [mainMove, hopen]
      · cases hopen : (s.conns c).isOpen <;> simp [mainMove, hdata, hopen]
  | @serve c j _ hsent hopen hdata =>
      have hflight : 0 < s.face.inFlight c := by simpa using List.count_pos_iff.2 hsent
      refine .move (m := .serve c j) ?_ (Step.serve hloop hflight hopen hdata) ?_
      · simp [mainMove, hopen, hdata]
      · rw [face_goMain, face_takeWakeup]
        rfl
  | @closeFree c hopen hdata =>
      refine .move (m := .closeFree c) ?_ (Step.closeFree hloop hopen hdata) (face_evClose s c)
      simp [mainMove, hdata]
  | @closeBegin c j hopen hdata =>
      refine .move (m := .closeBegin c j) ?_ (Step.closeBegin hloop hopen hdata) ?_
      · simp [mainMove, hdata]
      · rw [face_goMain, face_evClose]
        rfl
  | report _ =>
      cases hslot : s.currentJob with
      | none =>
          refine .silent (by simp [mainMove, hslot]) ?_
          simp only [busyRead, hslot]
          exact face_goMain_of (by simp [face, hslot]) (by simp [hpc])
      | some j =>
          refine .move (m := .peek none j) ?_ (Step.peekReport hloop hslot) ?_
          · simp [mainMove, hslot]
          · simp [busyRead, hslot]
  | leave _ _ => exact .silent rfl (by simp [face, hpc])

theorem mainStep_moves {s : State} {srv : Server} {ch : MainChoice} {s' : State}
    (hstream : ∀ j b, s.main.drains = some (j, b) → (s.jobs j).stream = b)
    (h : s.mainStep srv ch = some s') : s.Moves s' (s.mainMove srv ch) := by
  rcases mainStep_cases h with ⟨env, rfl, hgo⟩ | ⟨hpoll, hev⟩
  · exact handler_moves hstream hgo
  · exact hev.moves hpoll

/-! ## What a step leaves alone -/

/-- The worker writes its jobs, the slot and the wakeups, nothing on the event loop's side. -/
structure WorkerFrame (s s' : State) : Prop where
  main : s'.main = s.main
  conns : s'.conns = s.conns
  nextConn : s'.nextConn = s.nextConn
  active : s'.activeConnections = s.activeConnections
  stats : s'.stats = s.stats
  running : s'.running = s.running
  destroying : s'.destroying = s.destroying

theorem worker_frame {s s' : State} {ch : WorkerChoice} (h : s.workerStep ch = some s') :
    WorkerFrame s s' := by
  revert h
  fun_cases workerStep s ch <;> intro h <;> cases h
  all_goals
    constructor <;> simp only [leaveJob, freeJob, mgWakeup, touch, updJob, updLog, goWorker]

/-- An event of `mg_mgr_poll` only starts a handler: jobs and their logs stay. -/
structure EventFrame (s s' : State) : Prop where
  poll : s.main = .poll
  drains : s'.main.drains = none
  worker : s'.worker = s.worker
  jobs : s'.jobs = s.jobs
  log : s'.log = s.log
  nextJob : s'.nextJob = s.nextJob
  useAfterFree : s'.useAfterFree = s.useAfterFree

theorem busyRead_frame {s : State} (caller : BusyCaller) (h : s.main = .poll) :
    EventFrame s (s.busyRead caller) := by
  cases hslot : s.currentJob <;> cases caller <;> simp only [busyRead, hslot] <;>
    exact ⟨h, by simp [goMain, MainPc.drains], by rfl, by rfl, by rfl, by rfl, by rfl⟩

theorem evHttp_frame {s : State} (srv : Server) (c : ConnId) (hm : HttpMessage)
    (texts : JsonTexts) (h : s.main = .poll) : EventFrame s (s.evHttp srv c hm texts) := by
  unfold evHttp
  split
  case h_6 => exact busyRead_frame _ h
  case h_4 | h_5 =>
    rw [sendJson_eq]
    exact ⟨h, by simp [h, MainPc.drains], by rfl, by rfl, by rfl, by rfl, by rfl⟩
  all_goals
    exact ⟨h, by simp [h, MainPc.drains], by rfl, by rfl, by rfl, by rfl, by rfl⟩

theorem evAccept_frame {s : State} (cfg : Config) (peer : Bytes) (h : s.main = .poll) :
    EventFrame s (s.evAccept cfg peer) := by
  unfold evAccept
  split <;>
    exact ⟨h, by simp [updConn, h, MainPc.drains], by rfl, by rfl, by rfl, by rfl, by rfl⟩

theorem EventStep.frame {s s' : State} {srv : Server} {ch : MainChoice}
    (h : s.EventStep srv ch s') (hpoll : s.main = .poll) : EventFrame s s' := by
  have hnone : s.main.drains = none := by simp [hpoll, MainPc.drains]
  cases h with
  | accept _ => exact evAccept_frame srv.cfg _ hpoll
  | http _ _ => exact evHttp_frame srv _ _ _ hpoll
  | drop _ _ _ => exact ⟨hpoll, hnone, rfl, rfl, rfl, rfl, rfl⟩
  | serve _ _ _ _ => exact ⟨hpoll, rfl, rfl, rfl, rfl, rfl, rfl⟩
  | closeFree _ _ => exact ⟨hpoll, hnone, rfl, rfl, rfl, rfl, rfl⟩
  | closeBegin _ _ => exact ⟨hpoll, rfl, rfl, rfl, rfl, rfl, rfl⟩
  | report _ => exact busyRead_frame .report hpoll
  | leave _ _ => exact ⟨hpoll, hnone, rfl, rfl, rfl, rfl, rfl⟩

/-! The three functions that the first steps of a handler call keep to the main thread's side. -/

section Handlers

variable (s : State)

@[simp] theorem busyLoaded_frame (caller : BusyCaller) (busy : Bool) (texts : JsonTexts) :
    (s.busyLoaded caller busy texts).worker = s.worker ∧
      (s.busyLoaded caller busy texts).running = s.running ∧
        (s.busyLoaded caller busy texts).destroying = s.destroying ∧
          (s.busyLoaded caller busy texts).badWakeup = s.badWakeup ∧
            (s.busyLoaded caller busy texts).useAfterFree = s.useAfterFree := by
  cases caller <;> cases busy <;> exact ⟨rfl, rfl, rfl, rfl, rfl⟩

theorem busyLoaded_main (caller : BusyCaller) (busy : Bool) (texts : JsonTexts) :
    (s.busyLoaded caller busy texts).main = .poll ∨
      ∃ c type body, caller = .request c type body ∧
        (s.busyLoaded caller busy texts).main = .alloc c type body := by
  cases caller with
  | report => exact .inl rfl
  | request c type body =>
      cases busy with
      | false => exact .inr ⟨c, type, body, rfl, rfl⟩
      | true => exact .inl rfl

@[simp] theorem allocJob_frame (srv : Server) (c : ConnId) (type : JobType) (body : Bytes)
    (env : HandlerEnv) :
    (s.allocJob srv c type body env).worker = s.worker ∧
      (s.allocJob srv c type body env).running = s.running ∧
        (s.allocJob srv c type body env).destroying = s.destroying ∧
          (s.allocJob srv c type body env).badWakeup = s.badWakeup := by
  unfold allocJob
  split
  · exact ⟨rfl, rfl, rfl, rfl⟩
  · cases srv.buildJob c type body env.requestId <;> exact ⟨rfl, rfl, rfl, rfl⟩

theorem allocJob_main (srv : Server) (c : ConnId) (type : JobType) (body : Bytes)
    (env : HandlerEnv) :
    (s.allocJob srv c type body env).main = .poll ∨
      (s.allocJob srv c type body env).main = .submit c s.nextJob := by
  unfold allocJob
  split
  · exact .inl rfl
  · cases srv.buildJob c type body env.requestId with
    | none => exact .inl rfl
    | some job => exact .inr rfl

/-- `worker_submit` only writes the slot and the job. -/
@[simp] theorem workerSubmit_frame (j : JobId) :
    (s.workerSubmit j).2.worker = s.worker ∧ (s.workerSubmit j).2.conns = s.conns ∧
      (s.workerSubmit j).2.stats = s.stats ∧ (s.workerSubmit j).2.running = s.running ∧
        (s.workerSubmit j).2.destroying = s.destroying ∧
          (s.workerSubmit j).2.badWakeup = s.badWakeup := by
  unfold workerSubmit
  split
  · split <;> exact ⟨rfl, rfl, rfl, rfl, rfl, rfl⟩
  · exact ⟨rfl, rfl, rfl, rfl, rfl, rfl⟩

end Handlers

theorem mainGo_worker {s s' : State} {srv : Server} {env : HandlerEnv}
    (h : s.mainGo srv env = some s') : s'.worker = s.worker := by
  revert h
  fun_cases mainGo s srv env <;> intro h <;> cases h <;>
    simp [freeJob, sendEvents, finalizeReply, finalizeStream]

theorem mainStep_worker {s s' : State} {srv : Server} {ch : MainChoice}
    (h : s.mainStep srv ch = some s') : s'.worker = s.worker := by
  rcases mainStep_cases h with ⟨env, _, hgo⟩ | ⟨hpoll, hev⟩
  · exact mainGo_worker hgo
  · exact (hev.frame hpoll).worker

end State

/-! ## Every schedule -/

/-- What holds in every state that the server reaches. -/
structure Sound (s : State) : Prop where
  inv : Inv s.face
  wake : WakeInv s.face
  paths : StreamPaths s

namespace Sound

variable {srv : Server} {s s' : State} {a : Action}

theorem initial_face : State.init.face.Initial := by
  constructor <;>
    simp [State.face, State.init, jobFace, JobLog.fresh, workerJobInit, JobState.isBusy,
      TokenRing.init, Conn.unused, Bool.eq_false_iff, Nat.blt_eq]

theorem init : Sound State.init where
  inv := initial_face.inv
  wake := initial_face.wakeInv
  paths := ⟨by simp [State.init, WorkerPc.streams], by simp [State.init, MainPc.drains]⟩

/-- Every step is its move. -/
theorem moves (h : Sound s) (hs : s.act srv a = some s') : s.Moves s' (s.move srv a) := by
  cases a with
  | signal =>
      simp [State.act] at hs
      subst hs
      exact .silent rfl rfl
  | worker ch =>
      refine State.workerStep_moves (fun j hpc => h.paths.worker j ?_) hs
      simp [hpc, WorkerPc.streams]
  | main ch => exact State.mainStep_moves h.paths.main hs

theorem allocated_of_streams (h : Sound s) {j : JobId} (hj : s.worker.streams = some j) :
    (s.face.job j).allocated = true := by
  have hstage : s.face.worker.job = some j := by
    rw [State.face_worker, WorkerPc.stage_of_streams hj]
    rfl
  exact h.inv.allocated_of_accepted (h.inv.worker j hstage).1

theorem allocated_of_drains (h : Sound s) {j : JobId} {b : Bool}
    (hj : s.main.drains = some (j, b)) : (s.face.job j).allocated = true := by
  rcases MainPc.stage_of_drains hj with ⟨c, hstage⟩
  have hheld := (h.inv.serving c j (.inr hstage)).1
  exact h.inv.allocated_of_accepted (h.inv.held c j hheld).1

/-- Once allocated, a job is streaming or not for good. -/
theorem stream_eq (h : Sound s) (hs : s.act srv a = some s') {j : JobId}
    (hj : (s.face.job j).allocated = true) : (s'.jobs j).stream = (s.jobs j).stream := by
  rcases h.moves hs with ⟨_, hface⟩ | ⟨m, _, hstep⟩
  · exact congrArg (fun o => (o.job j).stream) hface
  · exact hstep.stream_eq hj

theorem workerStep_streams {ch : WorkerChoice} (hs : s.workerStep ch = some s') {j : JobId}
    (hj : s'.worker.streams = some j) :
    s.worker.streams = some j ∨ s.worker.stage.job = some j ∧ (s.jobs j).stream = true := by
  revert hs
  fun_cases State.workerStep s ch <;> intro hs <;> cases hs
  all_goals simp_all [State.goWorker, State.leaveJob, WorkerPc.streams]

theorem mainGo_drains {env : HandlerEnv} (hs : s.mainGo srv env = some s') {j : JobId} {b : Bool}
    (hj : s'.main.drains = some (j, b)) :
    s.main.drains = some (j, b) ∨ (∃ c, s.main.stage = .serving c j) ∧ (s.jobs j).stream = b := by
  revert hs
  fun_cases State.mainGo s srv env <;> intro hs <;> cases hs
  case case1 caller k hpc =>
    rcases State.busyLoaded_main (s.touch k) caller (s.jobs k).state.isBusy env.texts with
      hmain | ⟨c, type, body, _, hmain⟩ <;>
      simp [hmain, MainPc.drains] at hj
  case case2 c type body hpc =>
    rcases State.allocJob_main s srv c type body env with hmain | hmain <;>
      simp [hmain, MainPc.drains] at hj
  case case13 c k hpc batch next =>
    have hnext : next.drains = some (k, true) := by
      simp only [next]
      split <;> rfl
    have hsame : some (k, true) = some (j, b) := hnext.symm.trans hj
    exact .inl (by simpa [hpc, MainPc.drains] using hsame)
  all_goals simp only [State.goMain_main, MainPc.drains, Option.some.injEq, Prod.mk.injEq,
    reduceCtorEq] at hj
  all_goals
    rcases hj with ⟨rfl, rfl⟩
    rename_i hpc _
    simp_all [MainPc.drains]

theorem streamPaths_step (h : Sound s) (hs : s.act srv a = some s') : StreamPaths s' := by
  cases a with
  | signal =>
      simp [State.act] at hs
      subst hs
      exact ⟨h.paths.worker, h.paths.main⟩
  | worker ch =>
      constructor
      · intro j hj
        rcases workerStep_streams hs hj with hold | ⟨hstage, hstream⟩
        · rw [h.stream_eq (a := .worker ch) hs (h.allocated_of_streams hold)]
          exact h.paths.worker j hold
        · have hacc := (h.inv.worker j hstage).1
          rw [h.stream_eq (a := .worker ch) hs (h.inv.allocated_of_accepted hacc)]
          exact hstream
      · intro j b hj
        rw [(State.worker_frame hs).main] at hj
        rw [h.stream_eq (a := .worker ch) hs (h.allocated_of_drains hj)]
        exact h.paths.main j b hj
  | main ch =>
      constructor
      · intro j hj
        rw [State.mainStep_worker hs] at hj
        rw [h.stream_eq (a := .main ch) hs (h.allocated_of_streams hj)]
        exact h.paths.worker j hj
      · intro j b hj
        rcases State.mainStep_cases hs with ⟨env, _, hgo⟩ | ⟨hpoll, hev⟩
        · rcases mainGo_drains hgo hj with hold | ⟨⟨c, hstage⟩, hstream⟩
          · rw [h.stream_eq (a := .main ch) hs (h.allocated_of_drains hold)]
            exact h.paths.main j b hold
          · have hheld := (h.inv.serving c j (.inr (.inl hstage))).1
            have halloc := h.inv.allocated_of_accepted (h.inv.held c j hheld).1
            rw [h.stream_eq (a := .main ch) hs halloc]
            exact hstream
        · simp [(hev.frame hpoll).drains] at hj

theorem step (h : Sound s) (hs : s.act srv a = some s') : Sound s' where
  inv := by
    rcases h.moves hs with ⟨_, hface⟩ | ⟨m, _, hstep⟩
    · exact hface ▸ h.inv
    · exact h.inv.step hstep
  wake := by
    rcases h.moves hs with ⟨_, hface⟩ | ⟨m, _, hstep⟩
    · exact hface ▸ h.wake
    · exact h.wake.step h.inv hstep
  paths := h.streamPaths_step hs

theorem of_reachable {G : State → Action → Prop} (h : (system srv).Reachable G s) : Sound s :=
  h.invariant init fun _ _ _ _ hsound _ hs => hsound.step hs

end Sound

/-- The server refines the job life cycle. -/
def lifecycle (srv : Server) : (system srv).Refinement (Lifecycle.Step (J := JobId) (C := ConnId)) where
  abs := State.face
  label := State.move srv
  sound _ _ _ hr hs := (Sound.of_reachable hr).moves hs

end Professord
