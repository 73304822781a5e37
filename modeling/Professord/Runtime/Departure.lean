import Professord.Runtime.ErrorCounts
import Professord.Runtime.Wakeups

/-!
# Departure — what happens when a client leaves

A close event sets the cancel flag of the job that its connection is waiting for, and nothing is
sent on a connection that is closed.
-/

namespace Professord

open GuardedSystem Lifecycle

/-! ## The job of a client that has left is cancelled -/

/-- The connection of the job has been closed, and the close event has got past the flag. -/
def State.departed (s : State) (j : JobId) : Prop :=
  (s.conns (s.home j)).isOpen = false ∧ ∀ c, s.main ≠ .closeCancel c j

def CancelsDeparted (s : State) (j : JobId) : Prop :=
  (s.log j).accepted = true → (s.log j).frees = 0 → s.departed j → (s.jobs j).cancel = true

namespace State

variable {srv : Server} {s s' : State} {j : JobId}

theorem workerStep_cancel {ch : WorkerChoice} (h : s.workerStep ch = some s') :
    (s'.jobs j).cancel = (s.jobs j).cancel := by
  revert h
  fun_cases workerStep s ch <;> intro h <;> cases h <;> simp [leaveJob, freeJob, mgWakeup]
  all_goals
    split <;> simp_all

theorem workerSubmit_cancel (s : State) {j k : JobId} (hj : j ≠ k) :
    ((s.workerSubmit k).2.jobs j).cancel = (s.jobs j).cancel := by
  unfold workerSubmit
  cases hslot : s.currentJob with
  | none => simp [installJob, hj]
  | some i => cases hbusy : (s.jobs i).state.isBusy <;> simp [hbusy, installJob, hj]

/-- A handler clears the flag of a job only when it submits it, or builds its record. -/
theorem mainGo_cancel {env : HandlerEnv} (h : s.mainGo srv env = some s')
    (hnew : ∀ c type body, s.main = .alloc c type body → j ≠ s.nextJob)
    (hsubmit : ∀ c, s.main ≠ .submit c j) :
    (s.jobs j).cancel = true ∨ (∃ c, s.main = .closeCancel c j) → (s'.jobs j).cancel = true := by
  revert h
  fun_cases mainGo s srv env <;> intro h <;> cases h
  case case1 caller k hpc =>
    cases caller <;> cases (s.jobs k).state.isBusy <;> simp [busyLoaded, hpc]
  case case2 c type body hpc =>
    have hj := hnew c type body hpc
    unfold allocJob
    split
    · simp [hpc]
    · cases srv.buildJob c type body env.requestId <;>
        simp [freeJob, hpc, hj]
  case case3 c k hpc hacc =>
    have hj : j ≠ k := fun heq => hsubmit c (heq ▸ hpc)
    simpa [hpc] using fun h => (workerSubmit_cancel s hj).trans h
  case case4 c k hpc hacc =>
    have hj : j ≠ k := fun heq => hsubmit c (heq ▸ hpc)
    simpa [freeJob, hpc] using fun h => (workerSubmit_cancel s hj).trans h
  all_goals
    simp_all [freeJob, sendEvents, finalizeReply, finalizeStream]
  all_goals
    split <;> grind

/-- A job that has been built keeps its connection. -/
theorem home_of_step {a : Action} (hsound : Sound s) (hs : s.act srv a = some s')
    (hj : j < s.nextJob) : j < s'.nextJob ∧ s'.home j = s.home j := by
  have halloc : (s.face.job j).allocated = true := Nat.blt_eq.mpr hj
  have hkept : (s'.face.job j).allocated = true ∧ (s'.face.job j).home = (s.face.job j).home := by
    rcases hsound.moves hs with ⟨_, hface⟩ | ⟨m, _, hstep⟩
    · rw [hface]
      exact ⟨halloc, rfl⟩
    · exact hstep.allocated_of halloc
  exact ⟨Nat.blt_eq.mp hkept.1, hkept.2⟩

/-- A connection that has been closed stays closed. -/
theorem closed_of_step {a : Action} {c : ConnId} (hsound : Sound s) (hs : s.act srv a = some s')
    (hused : c < s.nextConn) (hclosed : (s.conns c).isOpen = false) :
    c < s'.nextConn ∧ (s'.conns c).isOpen = false := by
  have hgiven : s.face.used c = true := Nat.blt_eq.mpr hused
  have hkept : s'.face.used c = true ∧ ¬ s'.face.isOpen c = true := by
    rcases hsound.moves hs with ⟨_, hface⟩ | ⟨m, _, hstep⟩
    · rw [hface]
      exact ⟨hgiven, by simp [hclosed]⟩
    · refine ⟨hstep.used_of hgiven, fun hopen => ?_⟩
      rcases hstep.isOpen_of hopen with hbefore | hunused
      · simp [hclosed] at hbefore
      · exact absurd (hgiven.symm.trans hunused) (by simp)
  exact ⟨Nat.blt_eq.mp hkept.1, Bool.eq_false_iff.2 hkept.2⟩

theorem lt_nextJob_of_accepted (hsound : Sound s) (hacc : (s.log j).accepted = true) :
    j < s.nextJob := by
  have halloc := hsound.inv.allocated_of_accepted (j := j) hacc
  simpa [jobFace, Nat.blt_eq] using halloc

/-- A connection with a job is closed by its close event, which goes for the job's flag. -/
theorem EventStep.closeCancel {ch : MainChoice} {c : ConnId} (h : s.EventStep srv ch s')
    (hopen : (s.conns c).isOpen = true) (hdata : (s.conns c).fnData = some j)
    (hclosed : (s'.conns c).isOpen = false) : s'.main = .closeCancel c j := by
  have hkept : ConnsKept s s' → False := fun hk => by
    rw [hk.isOpen, hopen] at hclosed
    cases hclosed
  cases h with
  | @accept peer _ =>
      rcases s.evAccept_adds srv.cfg peer with ⟨k, hadds, _⟩
      rw [hadds.conns] at hclosed
      by_cases hc : c = s.nextConn
      · simp [hc, hadds.isOpen] at hclosed
      · simp [hc, hopen] at hclosed
  | @http d hm texts _ _ => exact (hkept (evHttp_conns s srv d hm texts)).elim
  | drop _ _ _ => exact (hkept ⟨rfl, rfl, fun _ => rfl⟩).elim
  | serve _ _ _ _ => exact (hkept ⟨rfl, rfl, fun _ => rfl⟩).elim
  | @closeFree d _ hnone =>
      by_cases hc : c = d
      · rw [hc, hnone] at hdata
        cases hdata
      · simp [evClose, hc, hopen] at hclosed
  | @closeBegin d k _ hsome =>
      by_cases hc : c = d
      · subst hc
        rw [hdata] at hsome
        cases hsome
        rfl
      · simp [evClose, hc, hopen] at hclosed
  | report _ => exact (hkept (busyRead_conns s .report)).elim
  | leave _ _ => exact (hkept ⟨rfl, rfl, fun _ => rfl⟩).elim

end State

namespace CancelsDeparted

variable {srv : Server} {s s' : State} {j : JobId}

theorem init (j : JobId) : CancelsDeparted State.init j := by
  intro haccepted
  cases haccepted

theorem worker_step (h : CancelsDeparted s j) {ch : WorkerChoice}
    (hs : s.workerStep ch = some s') : CancelsDeparted s' j := by
  have hframe := State.worker_frame hs
  have hhome := (State.workerStep_record (j := j) hs).home
  rcases State.workerStep_log (j := j) hs with ⟨haccepted, _, hfrees⟩
  intro hacc hzero hdeparted
  rw [State.workerStep_cancel hs]
  refine h (haccepted ▸ hacc) (Nat.le_zero.1 (hzero ▸ hfrees)) ?_
  simpa only [State.departed, hframe.main, hframe.conns, hhome] using hdeparted

/-- The connection for which a job is built or submitted is open. -/
theorem open_of_submit (hsound : Sound s) {c : ConnId} (hpc : s.main = .submit c j) :
    (s.conns (s.home j)).isOpen = true := by
  rcases hsound.inv.preparing c j (by simp [hpc]) with ⟨hready, _, _, _, hhome⟩
  have heq : s.home j = c := hhome
  exact heq ▸ hready.1

theorem handler_step (h : CancelsDeparted s j) (hsound : Sound s) {env : HandlerEnv}
    (hs : s.mainGo srv env = some s') : CancelsDeparted s' j := by
  have hkept := State.mainGo_handler (j := j) hs
  have hconns := State.mainGo_conns hs
  intro hacc hzero ⟨hclosed, _⟩
  -- a job is submitted while its client is there
  by_cases hsubmit : ∃ c, s.main = .submit c j
  · rcases hsubmit with ⟨c, hpc⟩
    have hrecord := State.mainGo_record (j := j) hs (by simp [hpc]) (by simp [hpc])
    rw [hrecord.home, hconns.isOpen, open_of_submit hsound hpc] at hclosed
    cases hclosed
  have hnot : ∀ c, s.main ≠ .submit c j := fun c hpc => hsubmit ⟨c, hpc⟩
  have hbefore : (s.log j).accepted = true :=
    (hkept.accepted hacc).resolve_right hsubmit
  have hnew : ∀ c type body, s.main = .alloc c type body → j ≠ s.nextJob :=
    fun _ _ _ _ => Nat.ne_of_lt (State.lt_nextJob_of_accepted hsound hbefore)
  refine State.mainGo_cancel hs hnew hnot ?_
  by_cases hcancel : ∃ c, s.main = .closeCancel c j
  · exact .inr hcancel
  · left
    refine h hbefore (Nat.le_zero.1 (hzero ▸ hkept.frees)) ⟨?_, fun c hpc => hcancel ⟨c, hpc⟩⟩
    have hhome := (State.home_of_step hsound (a := .main (.go env)) hs
      (State.lt_nextJob_of_accepted hsound hbefore)).2
    rw [← hconns.isOpen, ← hhome]
    exact hclosed

/-- The close event of a job's connection goes for its flag. -/
theorem event_step (h : CancelsDeparted s j) (hend : EndInv s.face)
    {ch : MainChoice} (hpoll : s.main = .poll) (hevent : s.EventStep srv ch s') :
    CancelsDeparted s' j := by
  have hev := hevent.frame hpoll
  have hhome : s'.home j = s.home j := by rw [State.home, hev.jobs, State.home]
  rintro hacc hzero ⟨hclosed, hpc⟩
  rw [hev.log] at hacc hzero
  rw [hhome] at hclosed
  rw [hev.jobs]
  refine h hacc hzero ⟨?_, by simp [hpoll]⟩
  rw [Bool.eq_false_iff]
  intro hopen
  -- the job is attached, and its connection is the one that has been closed
  have hattached : (s.conns (s.home j)).fnData = some j := by
    rcases hend.attached j hacc hzero hopen with hheld | hloop
    · exact hheld
    · simp [hpoll] at hloop
  exact hpc _ (hevent.closeCancel hopen hattached hclosed)

theorem step (h : CancelsDeparted s j) (hsound : Sound s) (hend : EndInv s.face) {a : Action}
    (hs : s.act srv a = some s') : CancelsDeparted s' j := by
  cases a with
  | signal =>
      cases hs
      exact h
  | worker ch => exact h.worker_step hs
  | main ch =>
      rcases State.mainStep_cases hs with ⟨env, rfl, hgo⟩ | ⟨hpoll, hev⟩
      · exact h.handler_step hsound hgo
      · exact h.event_step hend hpoll hev

theorem of_reachable (h : (system srv).Reachable Free s) : CancelsDeparted s j :=
  Reachable.invariant (P := fun s => CancelsDeparted s j) (CancelsDeparted.init j) (fun _ _ _ hr hcancels _ hs =>
    hcancels.step (Sound.of_reachable hr) (endInv_of_reachable hr) hs) h

end CancelsDeparted

/-! ## Nothing is sent on a closed connection -/

/-- What the client of connection `c` has been sent: replies, and the events of its jobs. -/
structure SentKept (s s' : State) (c : ConnId) : Prop where
  replies : (s'.conns c).replies = (s.conns c).replies
  headers : (s'.conns c).headersSent = (s.conns c).headersSent
  events : ∀ j < s.nextJob, s.home j = c → (s'.log j).sent = (s.log j).sent

namespace State

variable {srv : Server} {s s' : State} {c : ConnId}

/-- A handler writes the record of its own connection only. -/
theorem mainGo_aside {env : HandlerEnv} (h : s.mainGo srv env = some s')
    (hc : s.main.conn ≠ some c) : s'.conns c = s.conns c := by
  revert h
  fun_cases mainGo s srv env <;> intro h <;> cases h
  case case1 caller k hpc =>
    cases caller with
    | report => cases (s.jobs k).state.isBusy <;> simp [busyLoaded]
    | request d type body =>
        have hd : c ≠ d := fun heq => hc (by simp [hpc, MainPc.conn, heq])
        cases (s.jobs k).state.isBusy <;> simp [busyLoaded, hd]
  case case2 d type body hpc =>
    have hd : c ≠ d := fun heq => hc (by simp [hpc, MainPc.conn, heq])
    unfold allocJob
    split
    · simp [hd]
    · cases srv.buildJob d type body env.requestId <;>
        simp [freeJob, hd]
  all_goals
    simp_all [MainPc.conn, freeJob, sendEvents, finalizeReply,
      finalizeStream]
  all_goals
    grind

theorem workerStep_sent {ch : WorkerChoice} (h : s.workerStep ch = some s') : SentKept s s' c := by
  have hconns := (worker_frame h).conns
  refine ⟨by rw [hconns], by rw [hconns], fun j _ _ => ?_⟩
  revert h
  fun_cases workerStep s ch <;> intro h <;> cases h <;> simp [leaveJob, freeJob, mgWakeup]
  all_goals
    split <;> simp_all

theorem workerSubmit_sent (s : State) (j k : JobId) :
    ((s.workerSubmit k).2.log j).sent = (s.log j).sent := by
  unfold workerSubmit
  cases hslot : s.currentJob with
  | none => simp [installJob]; split <;> simp_all
  | some i =>
      cases hbusy : (s.jobs i).state.isBusy <;> simp [hbusy, installJob]
      split <;> simp_all

/-- Events are sent for the job that is drained. -/
theorem mainGo_sent {env : HandlerEnv} {j : JobId} (h : s.mainGo srv env = some s')
    (hbatch : ∀ c, s.main ≠ .drainBatch c j) (hfinal : ∀ c, s.main ≠ .drainFinal c j) :
    (s'.log j).sent = (s.log j).sent := by
  revert h
  fun_cases mainGo s srv env <;> intro h <;> cases h
  case case1 caller k hpc =>
    cases caller <;> cases (s.jobs k).state.isBusy <;> simp [busyLoaded]
  case case2 d type body hpc =>
    unfold allocJob
    split
    · simp
    · cases srv.buildJob d type body env.requestId <;>
        simp [freeJob]
      split <;> simp_all
  case case3 d k hpc hacc => simp [workerSubmit_sent]
  case case4 d k hpc hacc =>
    simp [freeJob]
    split <;> simp_all [workerSubmit_sent]
  all_goals
    simp_all [freeJob, sendEvents, finalizeReply, finalizeStream]
  all_goals
    grind

/-- The connection of a handler is open, but for that of a close event. -/
theorem open_of_conn (hsound : Sound s) (hc : s.main.conn = some c) :
    (s.conns c).isOpen = true ∨
      ∃ j, s.main = .closeCancel c j ∨ s.main = .closeMgr c j ∨ s.main = .closeOrphan c j := by
  have hready : ∀ {d : ConnId}, s.face.ready d → (s.conns d).isOpen = true := fun h => h.1
  have hserving : ∀ {d : ConnId} {j : JobId},
      s.main.stage = .attached d j ∨ s.main.stage = .serving d j ∨ s.main.stage = .finalizing d j →
        (s.conns d).isOpen = true := fun h => (hsound.inv.serving _ _ h).2
  cases hpc : s.main with
  | busyLoad caller j =>
      cases caller with
      | request d type body =>
          obtain rfl : d = c := by simpa [hpc, MainPc.conn] using hc
          exact .inl (hready (hsound.inv.peeking d j (by simp [hpc])))
      | report => simp [hpc, MainPc.conn] at hc
  | alloc d type body =>
      obtain rfl : d = c := by simpa [hpc, MainPc.conn] using hc
      exact .inl (hready (hsound.inv.requesting d (by simp [hpc])))
  | submit d j =>
      obtain rfl : d = c := by simpa [hpc, MainPc.conn] using hc
      exact .inl (hready (hsound.inv.preparing d j (by simp [hpc])).1)
  | storeFnData d j =>
      obtain rfl : d = c := by simpa [hpc, MainPc.conn] using hc
      exact .inl (hready (hsound.inv.attaching d j (by simp [hpc])).1)
  | drainState d j done =>
      obtain rfl : d = c := by simpa [hpc, MainPc.conn] using hc
      cases done <;> exact .inl (hserving (j := j) (by simp [hpc]))
  | closeCancel d j | closeMgr d j | closeOrphan d j =>
      obtain rfl : d = c := by simpa [hpc, MainPc.conn] using hc
      exact .inr ⟨j, by simp⟩
  | sendHeaders d j | drainTest d j | drainLoad d j | drainReply d j _ | drainBatch d j
  | drainDone d j | drainFinal d j =>
      obtain rfl : d = c := by simpa [hpc, MainPc.conn] using hc
      exact .inl (hserving (j := j) (by simp [hpc]))
  | _ => simp [hpc, MainPc.conn] at hc

/-- A job is drained on its connection, while that is open. -/
theorem open_of_drains (hsound : Sound s) {d : ConnId} {j : JobId}
    (hstage : s.main.stage = .serving d j ∨ s.main.stage = .finalizing d j) :
    (s.conns (s.home j)).isOpen = true := by
  have hserving := hsound.inv.serving d j (.inr hstage)
  have hhome : s.home j = d := (hsound.inv.held d j hserving.1).2.2.2.1
  exact hhome ▸ hserving.2

/-- The handlers of a client that has left send nothing. -/
theorem mainGo_closed (hsound : Sound s) {env : HandlerEnv} (h : s.mainGo srv env = some s')
    (hclosed : (s.conns c).isOpen = false) : SentKept s s' c := by
  have hevents : ∀ j < s.nextJob, s.home j = c → (s'.log j).sent = (s.log j).sent := by
    rintro j - rfl
    refine mainGo_sent h (fun d hpc => ?_) fun d hpc => ?_
    · exact absurd (open_of_drains hsound (d := d) (j := j) (by simp [hpc])) (by simp [hclosed])
    · exact absurd (open_of_drains hsound (d := d) (j := j) (by simp [hpc])) (by simp [hclosed])
  by_cases hc : s.main.conn = some c
  · rcases open_of_conn hsound hc with hopen | ⟨j, hpc | hpc | hpc⟩
    · simp [hclosed] at hopen
    all_goals
      simp only [mainGo, hpc, Option.some.injEq] at h
      subst h
      exact ⟨by simp, by simp, hevents⟩
  · have hkept := mainGo_aside h hc
    exact ⟨by rw [hkept], by rw [hkept], hevents⟩

/-- Of the events, only a request sends something, and that on a connection that is open. -/
theorem EventStep.closed {ch : MainChoice} (hev : s.EventStep srv ch s') (hpoll : s.main = .poll)
    (hclosed : (s.conns c).isOpen = false) (hused : c < s.nextConn) : SentKept s s' c := by
  have hlog := (hev.frame hpoll).log
  have hevents : ∀ j < s.nextJob, s.home j = c → (s'.log j).sent = (s.log j).sent :=
    fun j _ _ => by rw [hlog]
  have hkept : (s'.conns c = s.conns c) → SentKept s s' c :=
    fun heq => ⟨by rw [heq], by rw [heq], hevents⟩
  cases hev with
  | @accept peer _ =>
      rcases s.evAccept_adds srv.cfg peer with ⟨k, hadds, _⟩
      exact hkept (by rw [hadds.conns, if_neg (Nat.ne_of_lt hused)])
  | @http d hm _ _ hready =>
      have hd : c ≠ d := by
        rintro rfl
        simp [canReceive, hclosed] at hready
      refine hkept ?_
      unfold evHttp
      split
      case h_6 => cases hslot : s.currentJob <;> simp [busyRead, hslot]
      all_goals simp [hd]
  | drop _ _ _ => exact hkept rfl
  | serve _ _ _ _ => exact hkept rfl
  | @closeFree d hopen _ =>
      refine ⟨?_, ?_, hevents⟩ <;> simp [evClose] <;> split <;> simp_all
  | @closeBegin d j hopen _ =>
      refine ⟨?_, ?_, hevents⟩ <;> simp [evClose] <;> split <;> simp_all
  | report _ => exact hkept (by cases hslot : s.currentJob <;> simp [busyRead, hslot])
  | leave _ _ => exact hkept rfl

end State

namespace SentKept

variable {srv : Server} {s s' t : State} {a : Action} {c : ConnId}

theorem step (hsound : Sound s) (hs : s.act srv a = some s')
    (hclosed : (s.conns c).isOpen = false) (hused : c < s.nextConn) : SentKept s s' c := by
  cases a with
  | signal =>
      cases hs
      exact ⟨rfl, rfl, fun _ _ _ => rfl⟩
  | worker ch => exact State.workerStep_sent hs
  | main ch =>
      rcases State.mainStep_cases hs with ⟨env, rfl, hgo⟩ | ⟨hpoll, hev⟩
      · exact State.mainGo_closed hsound hgo hclosed
      · exact hev.closed hpoll hclosed hused

theorem trans (h : SentKept s s' c) (h' : SentKept s' t c)
    (hjobs : ∀ j < s.nextJob, j < s'.nextJob ∧ s'.home j = s.home j) : SentKept s t c where
  replies := h'.replies.trans h.replies
  headers := h'.headers.trans h.headers
  events j hj hhome := by
    obtain ⟨hstill, hsame⟩ := hjobs j hj
    exact (h'.events j hstill (hsame.trans hhome)).trans (h.events j hj hhome)

/-- What the client of a closed connection has been sent stays what it is. -/
theorem run (hr : (system srv).Reachable Free s) (hclosed : (s.conns c).isOpen = false)
    (hused : c < s.nextConn) {as : List Action}
    (hrun : (system srv).runGuarded Free s as = some t) : SentKept s t c := by
  have hkept : ((system srv).Reachable Free t ∧ c < t.nextConn ∧ (t.conns c).isOpen = false) ∧
      (∀ j < s.nextJob, j < t.nextJob ∧ t.home j = s.home j) ∧ SentKept s t c := by
    refine runGuarded_invariant (P := fun t => ((system srv).Reachable Free t ∧ c < t.nextConn ∧
      (t.conns c).isOpen = false) ∧ (∀ j < s.nextJob, j < t.nextJob ∧ t.home j = s.home j) ∧
        SentKept s t c) ?_ ?_ hrun
    · rintro u a u' ⟨⟨hru, husedu, hclosedu⟩, hjobs, hsent⟩ hg hs
      have hsound := Sound.of_reachable hru
      refine ⟨⟨hru.step hg hs, State.closed_of_step hsound hs husedu hclosedu⟩, ?_, ?_⟩
      · intro j hj
        obtain ⟨hlt, hsame⟩ := hjobs j hj
        obtain ⟨hlt', hsame'⟩ := State.home_of_step hsound hs hlt
        exact ⟨hlt', hsame'.trans hsame⟩
      · exact hsent.trans (SentKept.step hsound hs hclosedu husedu) hjobs
    · exact ⟨⟨hr, hused, hclosed⟩, fun j hj => ⟨hj, rfl⟩, ⟨rfl, rfl, fun _ _ _ => rfl⟩⟩
  exact hkept.2.2

end SentKept

/-! ## Every run -/

/-- A client that has left has its job cancelled, and whatever the threads do from then on, nothing
more is sent to it. -/
theorem departed_client (srv : Server) {s : State} (h : (system srv).Reachable Free s) :
    (∀ j, (s.log j).accepted = true → (s.log j).frees = 0 → s.departed j →
      (s.jobs j).cancel = true) ∧
    ∀ c < s.nextConn, (s.conns c).isOpen = false →
      ∀ as t, (system srv).runGuarded Free s as = some t → SentKept s t c :=
  ⟨fun _ => CancelsDeparted.of_reachable h, fun _ hused hclosed _ _ hrun =>
    SentKept.run h hclosed hused hrun⟩

namespace Sample

open CText

/-- The client of a stream leaves when a token waits in the ring. -/
def walksOut : List Action :=
  [connect, post 0 streamBody, main, main, main, main, work, work, work,
    .worker (.piece (ascii "a") true), work, work, .main (.close 0), main]

theorem walksOut_replays :
    ((system server).runGuarded Free State.init walksOut).isSome = true := by
  decide

def afterWalksOut : State :=
  ((system server).runGuarded Free State.init walksOut).get walksOut_replays

/-- The handler ends, and the worker goes on until its next token is refused. -/
def goesOn : List Action :=
  [main, main, work, .worker (.piece (ascii "b") true), work, work, .worker (.ret 0)]

theorem departed_client_walksOut :
    (afterWalksOut.jobs 0).cancel = true ∧
      ∃ t, (system server).runGuarded Free afterWalksOut goesOn = some t ∧
        (t.log 0).sent = [] := by
  have hr : (system server).Reachable Free afterWalksOut := reachable_of_isSome walksOut_replays
  rcases departed_client server hr with ⟨hcancel, hsent⟩
  refine ⟨hcancel 0 (by decide) (by decide) ⟨by decide, ?_⟩, ?_⟩
  · have hpc : afterWalksOut.main = .closeMgr 0 0 := by decide
    simp [hpc]
  · have hrun : ((system server).runGuarded Free afterWalksOut goesOn).isSome = true := by decide
    obtain ⟨t, ht⟩ := Option.isSome_iff_exists.1 hrun
    have hempty : (afterWalksOut.log 0).sent = [] := by decide
    exact ⟨t, ht, ((hsent 0 (by decide) (by decide) _ t ht).events 0 (by decide)
      (by decide)).trans hempty⟩

end Sample

end Professord
