import Professord.Runtime.Settling

/-!
# Answers — every request is answered once

An answer is a whole reply or the head of an event stream.  A request that has not been answered is
either in the hands of `submit_inference_job` or attached to its connection as a job that does not
stream; there is at most one on a connection, since mongoose delivers the next message only after
the answer.  A stream that has been begun stays attached to its connection until its end is sent.
-/

namespace Professord

open GuardedSystem Lifecycle

/-! ## Answers and requests -/

/-- The replies that the client has been sent, and the stream that has been begun. -/
def Conn.answers (k : Conn) : Nat :=
  k.replies.length + if k.headersSent then 1 else 0

/-- The connection whose request `submit_inference_job` is handling. -/
def MainPc.asks : MainPc → Option ConnId
  | .busyLoad (.request c _ _) _ | .alloc c _ _ | .submit c _ | .storeFnData c _
  | .sendHeaders c _ => some c
  | _ => none

/-- A job that does not stream is attached to the connection. -/
def State.waitsForReply (s : State) (c : ConnId) : Bool :=
  match (s.conns c).fnData with
  | some j => !(s.jobs j).stream
  | none => false

/-- The client has made a request that has not been answered. -/
def State.owes (s : State) (c : ConnId) : Bool :=
  s.main.asks == some c || s.waitsForReply c

/-- The client of job `j` has been sent the end of its stream. -/
def State.streamEnded (s : State) (j : JobId) : Prop :=
  ∃ job texts, finalEvents job texts <:+: (s.log j).sent

/-- A stream on connection `c` has come to its end. -/
def State.hasEnded (s : State) (c : ConnId) : Prop :=
  ∃ j < s.nextJob, s.home j = c ∧ s.streamEnded j

/-- What has been or will be sent. -/
def State.due (s : State) (c : ConnId) : Nat :=
  (s.conns c).answers + (s.owes c).toNat

/-- A message on connection `c`. -/
def Action.asks (c : ConnId) : Action → Bool
  | .main (.http d _ _) => d == c
  | _ => false

theorem MainPc.conn_of_asks {pc : MainPc} {c : ConnId} (h : pc.asks = some c) :
    pc.conn = some c := by
  cases pc with
  | busyLoad caller j => cases caller <;> simp_all [asks, conn]
  | _ => simp_all [asks, conn]

namespace State

variable {s s' : State} {c : ConnId}

theorem waitsForReply_of_none (h : (s.conns c).fnData = none) : s.waitsForReply c = false := by
  simp [waitsForReply, h]

theorem waitsForReply_of_some {j : JobId} (h : (s.conns c).fnData = some j) :
    s.waitsForReply c = !(s.jobs j).stream := by
  simp [waitsForReply, h]

theorem owes_of_asks (h : s.main.asks = some c) : s.owes c = true := by
  simp [owes, h]

theorem owes_of_not_asks (h : s.main.asks ≠ some c) : s.owes c = s.waitsForReply c := by
  simp [owes, h]

end State

/-! ## What a handler does to its connection -/

/-- A step of a handler as connection `c` sees it. -/
inductive ConnStep (s s' : State) (c : ConnId) : Prop
  | same (hconn : s'.conns c = s.conns c) (hasks : s'.main.asks = some c ↔ s.main.asks = some c)
  | reply (r : Reply) (hconn : s'.conns c =
      { s.conns c with replies := (s.conns c).replies ++ [r], fnData := none })
      (howes : s.owes c = true) (hasks : s'.main.asks ≠ some c)
  | attach (j : JobId) (hconn : s'.conns c = { s.conns c with fnData := some j })
      (hasks : s.main.asks = some c) (hasks' : s'.main.asks = some c)
  | head (hconn : s'.conns c = { s.conns c with headersSent := true })
      (hasks : s.main.asks = some c) (hasks' : s'.main.asks ≠ some c)
      (hstream : ∃ j, (s.conns c).fnData = some j ∧ (s.jobs j).stream = true)
  | wait (hconn : s'.conns c = s.conns c) (hasks : s.main.asks = some c)
      (hasks' : s'.main.asks ≠ some c) (hwaits : s.waitsForReply c = true)
  | final (hconn : s'.conns c = { s.conns c with fnData := none, isDraining := true })
      (hasks : s.main.asks ≠ some c) (hasks' : s'.main.asks ≠ some c)
      (hstream : s.waitsForReply c = false) (hended : s'.hasEnded c)
  | leave (hconn : s'.conns c = { s.conns c with fnData := none })
      (hclosed : (s.conns c).isOpen = false) (hdata : (s.conns c).fnData.isSome = true)
      (hasks : s.main.asks ≠ some c) (hasks' : s'.main.asks ≠ some c)

namespace State

variable {srv : Server} {s s' : State} {c : ConnId}

/-- What has been sent of a stream stays sent. -/
theorem sent_of_step {a : Action} {j : JobId} (hs : s.act srv a = some s') (hj : j < s.nextJob) :
    (s.log j).sent <+: (s'.log j).sent := by
  cases a with
  | signal =>
      cases hs
      exact List.prefix_refl _
  | worker ch => rw [(workerStep_sent (c := s.home j) hs).events j hj rfl]
  | main ch =>
      rcases mainStep_cases hs with ⟨env, rfl, hgo⟩ | ⟨hpoll, hev⟩
      · by_cases hbatch : ∃ d, s.main = .drainBatch d j
        · obtain ⟨d, hpc⟩ := hbatch
          simp only [mainGo, hpc, Option.some.injEq] at hgo
          subst hgo
          simp [sendEvents]
        · by_cases hfinal : ∃ d, s.main = .drainFinal d j
          · obtain ⟨d, hpc⟩ := hfinal
            simp only [mainGo, hpc, Option.some.injEq] at hgo
            subst hgo
            simp [finalizeStream, sendEvents, freeJob]
          · rw [mainGo_sent hgo (fun d hd => hbatch ⟨d, hd⟩) fun d hd => hfinal ⟨d, hd⟩]
      · rw [(hev.frame hpoll).log]

theorem hasEnded_of_step {a : Action} (hsound : Sound s) (hs : s.act srv a = some s')
    (h : s.hasEnded c) : s'.hasEnded c := by
  obtain ⟨j, hj, hhome, job, texts, hended⟩ := h
  obtain ⟨hj', hhome'⟩ := home_of_step hsound hs hj
  exact ⟨j, hj', hhome'.trans hhome, job, texts, hended.trans (sent_of_step hs hj).isInfix⟩

/-- The final branch of `drain_stream_ring` ends the stream. -/
theorem hasEnded_finalizeStream {j : JobId} (env : HandlerEnv) (hissued : j < s.nextJob)
    (hhome : s.home j = c) : ((s.finalizeStream c j env).goMain .poll).hasEnded c := by
  have hsent : (((s.finalizeStream c j env).goMain .poll).log j).sent =
      (s.log j).sent ++ finalEvents (s.jobs j) env.texts := by
    simp [finalizeStream, sendEvents, freeJob]
  refine ⟨j, ?_, ?_, s.jobs j, env.texts, ?_⟩
  · simpa [finalizeStream, sendEvents, freeJob] using hissued
  · simpa [home, finalizeStream, sendEvents, freeJob] using hhome
  · rw [hsent]
    exact (List.suffix_append _ _).isInfix

/-- `submit_inference_job` turns the request of `c` down. -/
theorem connStep_sendError {t : State} (hasks : s.main.asks = some c)
    (hdata : (s.conns c).fnData = none) (hconn : t.conns c = s.conns c) (texts : JsonTexts)
    (status : Nat) (message type : String) :
    ConnStep s ((t.sendError texts c status message type).goMain .poll) c := by
  refine .reply (sentError texts status message type) ?_ (owes_of_asks hasks) (by simp [MainPc.asks])
  simp [hconn, ← hdata]

/-- A handler on `c` is one of the steps above. -/
theorem mainGo_connStep (hsound : Sound s) {env : HandlerEnv} (h : s.mainGo srv env = some s')
    (hc : s.main.conn = some c) : ConnStep s s' c := by
  have hnone : s.face.ready c → (s.conns c).fnData = none := fun hready => hready.2.2
  have hheld : ∀ j, s.main.stage = .attached c j ∨ s.main.stage = .serving c j ∨
      s.main.stage = .finalizing c j → (s.conns c).fnData = some j :=
    fun j hstage => (hsound.inv.serving c j hstage).1
  revert h
  fun_cases mainGo s srv env <;> intro h <;> cases h
  case case1 caller j hpc =>
    cases caller with
    | report => simp [hpc, MainPc.conn] at hc
    | request d type body =>
        obtain rfl : d = c := by simpa [hpc, MainPc.conn] using hc
        have hdata := hnone (hsound.inv.peeking d j (by simp [hpc]))
        have hasks : s.main.asks = some d := by simp [hpc, MainPc.asks]
        cases (s.jobs j).state.isBusy with
        | false => exact .same rfl ⟨fun _ => hasks, fun _ => rfl⟩
        | true =>
            have hconn : (s.touch j).conns d = s.conns d := by simp
            exact connStep_sendError hasks hdata hconn env.texts 503 _ _
  case case2 d type body hpc =>
    obtain rfl : d = c := by simpa [hpc, MainPc.conn] using hc
    have hdata := hnone (hsound.inv.requesting d (by simp [hpc]))
    have hasks : s.main.asks = some d := by simp [hpc, MainPc.asks]
    unfold allocJob
    split
    · exact connStep_sendError hasks hdata rfl env.texts 500 _ _
    · cases srv.buildJob d type body env.requestId with
      | none =>
          exact connStep_sendError hasks hdata (by simp [freeJob]) env.texts 400 _ _
      | some job => exact .same rfl ⟨fun _ => hasks, fun _ => rfl⟩
  case case3 d j hpc _ =>
    obtain rfl : d = c := by simpa [hpc, MainPc.conn] using hc
    have hasks : s.main.asks = some d := by simp [hpc, MainPc.asks]
    exact .same (by simp) ⟨fun _ => hasks, fun _ => rfl⟩
  case case4 d j hpc _ =>
    obtain rfl : d = c := by simpa [hpc, MainPc.conn] using hc
    have hdata := hnone (hsound.inv.preparing d j (by simp [hpc])).1
    have hasks : s.main.asks = some d := by simp [hpc, MainPc.asks]
    exact connStep_sendError hasks hdata (by simp [freeJob]) env.texts 503 _ _
  case case5 d j hpc =>
    obtain rfl : d = c := by simpa [hpc, MainPc.conn] using hc
    exact .attach j (by simp) (by simp [hpc, MainPc.asks]) (by simp [MainPc.asks])
  case case6 d j hpc hstream =>
    obtain rfl : d = c := by simpa [hpc, MainPc.conn] using hc
    exact .head (by simp) (by simp [hpc, MainPc.asks]) (by simp [MainPc.asks])
      ⟨j, hheld j (by simp [hpc]), hstream⟩
  case case7 d j hpc hstream =>
    obtain rfl : d = c := by simpa [hpc, MainPc.conn] using hc
    refine .wait rfl (by simp [hpc, MainPc.asks]) (by simp [MainPc.asks]) ?_
    rw [waitsForReply_of_some (hheld j (by simp [hpc]))]
    simpa using hstream
  case case12 d j jstate hpc =>
    obtain rfl : d = c := by simpa [hpc, MainPc.conn] using hc
    have hwaits : s.waitsForReply d = true := by
      rw [waitsForReply_of_some (hheld j (by simp [hpc])),
        hsound.paths.main j false (by simp [hpc, MainPc.drains])]
      rfl
    refine .reply (sentReply env.texts (finalReply (s.jobs j) jstate)) ?_ (by simp [owes, hwaits])
      (by simp [MainPc.asks])
    simp [finalizeReply, freeJob]
  case case17 d j hpc =>
    obtain rfl : d = c := by simpa [hpc, MainPc.conn] using hc
    have hdata := hheld j (by simp [hpc])
    have hissued : j < s.nextJob :=
      hsound.issued_of_drains (b := true) (by simp [hpc, MainPc.drains])
    have hhome : s.home j = d := (hsound.inv.held d j hdata).2.2.2.1
    refine .final (by simp [finalizeStream, sendEvents, freeJob]) (by simp [hpc, MainPc.asks])
      (by simp [MainPc.asks]) ?_ (hasEnded_finalizeStream env hissued hhome)
    rw [waitsForReply_of_some hdata, hsound.paths.main j true (by simp [hpc, MainPc.drains])]
    rfl
  case case20 d j hpc =>
    obtain rfl : d = c := by simpa [hpc, MainPc.conn] using hc
    have hclosing := hsound.inv.closing d j (by simp [hpc])
    have hdata : (s.conns d).fnData = some j := hclosing.1
    exact .leave (by simp) hclosing.2 (by simp [hdata]) (by simp [hpc, MainPc.asks])
      (by simp [MainPc.asks])
  case case13 d j hpc batch next =>
    have hnext : next.asks = none := by
      simp only [next]
      split <;> rfl
    have hbefore : s.main.asks = none := by simp [hpc, MainPc.asks]
    exact .same (by simp [sendEvents]) (by rw [hbefore, goMain_main, hnext])
  all_goals
    exact .same (by simp) (by simp [*, MainPc.asks])

/-- A handler on another connection does nothing to `c`. -/
theorem mainGo_other {env : HandlerEnv} (h : s.mainGo srv env = some s')
    (hc : s.main.conn ≠ some c) : ConnStep s s' c := by
  refine .same (mainGo_aside h hc) ⟨fun hasks => ?_, fun hasks => ?_⟩
  · exact absurd (mainGo_conn h (MainPc.conn_of_asks hasks)) hc
  · exact absurd (MainPc.conn_of_asks hasks) hc

/-- Whether a job of an attached request streams is settled. -/
theorem waitsForReply_congr {a : Action} (hsound : Sound s) (hs : s.act srv a = some s')
    (hdata : (s'.conns c).fnData = (s.conns c).fnData) : s'.waitsForReply c = s.waitsForReply c := by
  unfold waitsForReply
  rw [hdata]
  cases hjob : (s.conns c).fnData with
  | none => rfl
  | some j =>
      have hacc := (hsound.inv.held c j hjob).1
      exact congrArg not (hsound.stream_eq hs (hsound.inv.allocated_of_accepted hacc))

end State

/-! ## What an event does to a connection -/

/-- An event of the idle main thread as connection `c` sees it. -/
inductive ConnEvent (s : State) (a : Action) (s' : State) (c : ConnId) : Prop
  | same (hask : a.asks c = false) (hconn : s'.conns c = s.conns c)
      (hasks : s'.main.asks ≠ some c)
  | new (hask : a.asks c = false) (hc : c = s.nextConn) (hnext : s'.nextConn = s.nextConn + 1)
      (hanswers : (s'.conns c).answers = 0) (hdata : (s'.conns c).fnData = none)
      (hdraining : (s'.conns c).isDraining = false) (hasks : s'.main.asks ≠ some c)
  | answered (r : Reply) (hask : a.asks c = true) (hready : s.canReceive c = true)
      (hconn : s'.conns c = { s.conns c with replies := (s.conns c).replies ++ [r] })
      (hasks : s'.main.asks ≠ some c)
  | begun (hask : a.asks c = true) (hready : s.canReceive c = true)
      (hconn : s'.conns c = s.conns c) (hasks : s'.main.asks = some c)
  | closed (hask : a.asks c = false) (hconn : s'.conns c = { s.conns c with isOpen := false })
      (hasks : s'.main.asks ≠ some c)

namespace State

variable {srv : Server} {s s' : State} {c : ConnId}

theorem evAccept_connEvent (hpoll : s.main = .poll) (peer : Bytes) :
    ConnEvent s (.main (.accept peer)) (s.evAccept srv.cfg peer) c := by
  have hidle : (s.evAccept srv.cfg peer).main.asks = none := by
    have hmain : (s.evAccept srv.cfg peer).main = s.main := by
      unfold evAccept
      split <;> rfl
    simp [hmain, hpoll, MainPc.asks]
  by_cases hc : c = s.nextConn
  · refine .new rfl hc ?_ ?_ ?_ ?_ (by simp [hidle])
    all_goals
      unfold evAccept
      split <;> simp [hc, Conn.unused, Conn.answers]
  · refine .same rfl ?_ (by simp [hidle])
    unfold evAccept
    split <;> simp [hc]

theorem evHttp_connEvent (hpoll : s.main = .poll) {d : ConnId} (hready : s.canReceive d = true)
    (hm : HttpMessage) (texts : JsonTexts) :
    ConnEvent s (.main (.http d hm texts)) (s.evHttp srv d hm texts) c := by
  have hidle : s.main.asks = none := by simp [hpoll, MainPc.asks]
  by_cases hc : d = c
  · subst hc
    have hreplied : ∀ (r : Reply) (t : State), t.conns = (s.sendReply d r).conns →
        t.main = s.main → ConnEvent s (.main (.http d hm texts)) t d := by
      intro r t hconns hmain
      refine .answered r (by simp [Action.asks]) hready ?_ (by simp [hmain, hidle])
      simp [hconns]
    unfold evHttp
    split
    case h_6 =>
      refine .begun (by simp [Action.asks]) hready ?_ ?_ <;>
        cases hslot : s.currentJob <;> simp [busyRead, hslot, MainPc.asks]
    case h_4 | h_5 =>
      rw [sendJson_eq]
      exact hreplied _ _ rfl rfl
    all_goals exact hreplied _ _ rfl rfl
  · have hask : (Action.main (.http d hm texts)).asks c = false := by simpa [Action.asks] using hc
    have hne : c ≠ d := fun heq => hc heq.symm
    unfold evHttp
    split
    case h_6 =>
      refine .same hask ?_ ?_ <;>
        cases hslot : s.currentJob <;> simp [busyRead, hslot, MainPc.asks, hc]
    all_goals
      refine .same hask ?_ ?_ <;> simp [hne, hidle]

theorem EventStep.connEvent {ch : MainChoice} (h : s.EventStep srv ch s') (hpoll : s.main = .poll) :
    ConnEvent s (.main ch) s' c := by
  have hidle : s.main.asks = none := by simp [hpoll, MainPc.asks]
  cases h with
  | accept _ => exact evAccept_connEvent hpoll _
  | http _ hready => exact evHttp_connEvent hpoll hready _ _
  | drop _ _ _ | leave _ _ => exact .same rfl rfl (by simp [hidle])
  | serve _ _ _ _ => exact .same rfl rfl (by simp [MainPc.asks])
  | @closeFree d _ _ =>
      by_cases hc : c = d
      · subst hc
        exact .closed rfl (by simp [evClose]) (by simp [evClose, hidle])
      · exact .same rfl (by simp [evClose, hc]) (by simp [evClose, hidle])
  | @closeBegin d j _ _ =>
      by_cases hc : c = d
      · subst hc
        exact .closed rfl (by simp [evClose]) (by simp [MainPc.asks])
      · exact .same rfl (by simp [evClose, hc]) (by simp [MainPc.asks])
  | report _ =>
      refine .same rfl ?_ ?_ <;>
        cases hslot : s.currentJob <;> simp [busyRead, hslot, MainPc.asks]

end State

/-! ## Nothing is sent before a request, and no stream begins twice -/

structure AnswerInv (s : State) (c : ConnId) : Prop where
  fresh : s.nextConn ≤ c → s.conns c = Conn.unused
  heads : (s.conns c).headersSent = true → s.main.asks ≠ some c ∧
    ((s.conns c).isOpen = false ∨ (s.conns c).isDraining = true ∨
      ∃ j, (s.conns c).fnData = some j ∧ (s.jobs j).stream = true)

/-- The connection has not been closed. -/
def State.live (s : State) (c : ConnId) : Prop :=
  (s.conns c).isOpen = true ∨ s.nextConn ≤ c

namespace AnswerInv

variable {srv : Server} {s s' : State} {a : Action} {c : ConnId}

theorem init (c : ConnId) : AnswerInv State.init c where
  fresh _ := rfl
  heads h := by simp [State.init, Conn.unused] at h

/-- A client that can make a request has not been sent a head. -/
theorem headers_of_canReceive (h : AnswerInv s c) (hready : s.canReceive c = true) :
    (s.conns c).headersSent = false := by
  simp only [State.canReceive, Bool.and_eq_true, Bool.not_eq_true', beq_iff_eq] at hready
  obtain ⟨⟨⟨hopen, _⟩, hdraining⟩, hdata⟩ := hready
  rw [Bool.eq_false_iff]
  intro hsent
  rcases (h.heads hsent).2 with hclosed | hdrains | ⟨j, hjob, _⟩
  · simp [hopen] at hclosed
  · simp [hdraining] at hdrains
  · simp [hdata] at hjob

/-- A step that leaves the connection alone. -/
theorem of_same (h : AnswerInv s c) (hsound : Sound s) (hs : s.act srv a = some s')
    (hnext : s.nextConn ≤ s'.nextConn) (hconn : s'.conns c = s.conns c)
    (hasks : (s.conns c).headersSent = true → s'.main.asks ≠ some c) : AnswerInv s' c where
  fresh hc := by
    rw [hconn]
    exact h.fresh (Nat.le_trans hnext hc)
  heads hsent := by
    rw [hconn] at hsent ⊢
    refine ⟨hasks hsent, (h.heads hsent).2.imp id (Or.imp id ?_)⟩
    rintro ⟨j, hjob, hstream⟩
    have hacc := (hsound.inv.held c j hjob).1
    exact ⟨j, hjob, (hsound.stream_eq hs (hsound.inv.allocated_of_accepted hacc)).trans hstream⟩

/-- A step of the handler of the connection. -/
theorem connStep (h : AnswerInv s c) (hsound : Sound s) (hused : c < s.nextConn)
    (hs : s.act srv a = some s') (hnext : s'.nextConn = s.nextConn) (hstep : ConnStep s s' c) :
    AnswerInv s' c := by
  have hfresh : ¬ s'.nextConn ≤ c := hnext ▸ Nat.not_le.2 hused
  cases hstep with
  | same hconn hasks =>
      exact h.of_same hsound hs hnext.ge hconn fun hsent hnow => (h.heads hsent).1 (hasks.1 hnow)
  | reply r hconn howes hasks =>
      refine ⟨fun hc => absurd hc hfresh, fun hsent => ⟨hasks, ?_⟩⟩
      rw [hconn] at hsent ⊢
      rcases h.heads hsent with ⟨hnot, hclosed | hdrains | ⟨j, hjob, hstream⟩⟩
      · exact .inl hclosed
      · exact .inr (.inl hdrains)
      · -- a stream is not waited for as a reply
        rw [State.owes_of_not_asks hnot, State.waitsForReply_of_some hjob, hstream] at howes
        cases howes
  | attach j hconn hasks hasks' =>
      refine ⟨fun hc => absurd hc hfresh, fun hsent => ?_⟩
      rw [hconn] at hsent
      exact absurd hasks (h.heads hsent).1
  | head hconn hasks hasks' hstream =>
      obtain ⟨j, hjob, hstream⟩ := hstream
      refine ⟨fun hc => absurd hc hfresh, fun _ => ⟨hasks', .inr (.inr ⟨j, by simp [hconn, hjob], ?_⟩)⟩⟩
      have hacc := (hsound.inv.held c j hjob).1
      exact (hsound.stream_eq hs (hsound.inv.allocated_of_accepted hacc)).trans hstream
  | wait hconn hasks hasks' hwaits =>
      exact h.of_same hsound hs hnext.ge hconn fun _ => hasks'
  | final hconn hasks hasks' hstream _ =>
      exact ⟨fun hc => absurd hc hfresh, fun _ => ⟨hasks', .inr (.inl (by simp [hconn]))⟩⟩
  | leave hconn hclosed hdata hasks hasks' =>
      exact ⟨fun hc => absurd hc hfresh, fun _ => ⟨hasks', .inl (by simp [hconn, hclosed])⟩⟩

/-- An event of the idle main thread. -/
theorem connEvent (h : AnswerInv s c) (hsound : Sound s) (hconns : ConnInv s)
    (hs : s.act srv a = some s') (hev : ConnEvent s a s' c) : AnswerInv s' c := by
  have hnext : s.nextConn ≤ s'.nextConn := State.act_nextConn hs
  have hused : s.canReceive c = true → ¬ s'.nextConn ≤ c := fun hready hc =>
    Nat.not_le.2 (hconns.openUsed c (State.isOpen_of_canReceive hready)) (Nat.le_trans hnext hc)
  cases hev with
  | same hask hconn hasks => exact h.of_same hsound hs hnext hconn fun _ => hasks
  | new hask hc hcount hanswers hdata _ hasks =>
      refine ⟨fun hle => ?_, fun hsent => ?_⟩
      · rw [hcount, hc] at hle
        exact absurd hle (Nat.not_succ_le_self _)
      · simp [Conn.answers, hsent] at hanswers
  | answered r hask hready hconn hasks =>
      refine ⟨fun hc => absurd hc (hused hready), fun hsent => ?_⟩
      rw [hconn] at hsent
      exact absurd hsent (by simp [h.headers_of_canReceive hready])
  | begun hask hready hconn hasks =>
      refine ⟨fun hc => absurd hc (hused hready), fun hsent => ?_⟩
      rw [hconn] at hsent
      exact absurd hsent (by simp [h.headers_of_canReceive hready])
  | closed hask hconn hasks =>
      refine ⟨fun hc => ?_, fun _ => ⟨hasks, .inl (by simp [hconn])⟩⟩
      simp [hconn, h.fresh (Nat.le_trans hnext hc), Conn.unused]

theorem step (h : AnswerInv s c) (hsound : Sound s) (hhandler : HandlerInv s)
    (hs : s.act srv a = some s') : AnswerInv s' c := by
  cases a with
  | signal =>
      cases hs
      exact ⟨h.fresh, h.heads⟩
  | worker ch =>
      have hframe := State.worker_frame hs
      refine h.of_same (a := .worker ch) hsound hs hframe.nextConn.ge (by rw [hframe.conns]) fun hsent => ?_
      rw [hframe.main]
      exact (h.heads hsent).1
  | main ch =>
      rcases State.mainStep_cases hs with ⟨env, rfl, hgo⟩ | ⟨hpoll, hev⟩
      · have hnext := (State.mainGo_conns hgo).nextConn
        by_cases hc : s.main.conn = some c
        · exact h.connStep hsound (hhandler.main c hc) hs hnext (State.mainGo_connStep hsound hgo hc)
        · refine h.of_same hsound hs hnext.ge (State.mainGo_aside hgo hc) fun _ hasks => ?_
          exact hc (State.mainGo_conn hgo (MainPc.conn_of_asks hasks))
      · exact h.connEvent hsound hhandler.conns hs (hev.connEvent hpoll)

end AnswerInv

/-! ## A stream that is drained has ended -/

/-- Mongoose is told to close the connection once everything is sent, and the stream has ended. -/
def DrainedEnded (s : State) (c : ConnId) : Prop :=
  (s.conns c).isDraining = true → s.hasEnded c

namespace DrainedEnded

variable {srv : Server} {s s' : State} {a : Action} {c : ConnId}

theorem init (c : ConnId) : DrainedEnded State.init c := by
  intro h
  simp [State.init, Conn.unused] at h

theorem of_same (h : DrainedEnded s c) (hsound : Sound s) (hs : s.act srv a = some s')
    (hsame : (s'.conns c).isDraining = (s.conns c).isDraining) : DrainedEnded s' c := by
  intro hdraining
  rw [hsame] at hdraining
  exact State.hasEnded_of_step hsound hs (h hdraining)

theorem connStep (h : DrainedEnded s c) (hsound : Sound s) (hs : s.act srv a = some s')
    (hstep : ConnStep s s' c) : DrainedEnded s' c := by
  cases hstep with
  | final hconn hasks hasks' hstream hended => exact fun _ => hended
  | same hconn hasks => exact h.of_same hsound hs (by rw [hconn])
  | reply r hconn howes hasks => exact h.of_same hsound hs (by rw [hconn])
  | attach j hconn hasks hasks' => exact h.of_same hsound hs (by rw [hconn])
  | head hconn hasks hasks' hstream => exact h.of_same hsound hs (by rw [hconn])
  | wait hconn hasks hasks' hwaits => exact h.of_same hsound hs (by rw [hconn])
  | leave hconn hclosed hdata hasks hasks' => exact h.of_same hsound hs (by rw [hconn])

theorem connEvent (h : DrainedEnded s c) (hsound : Sound s) (hs : s.act srv a = some s')
    (hev : ConnEvent s a s' c) : DrainedEnded s' c := by
  cases hev with
  | new hask hc hcount hanswers hdata hdraining hasks =>
      intro hdrains
      simp [hdraining] at hdrains
  | same hask hconn hasks => exact h.of_same hsound hs (by rw [hconn])
  | answered r hask hready hconn hasks => exact h.of_same hsound hs (by rw [hconn])
  | begun hask hready hconn hasks => exact h.of_same hsound hs (by rw [hconn])
  | closed hask hconn hasks => exact h.of_same hsound hs (by rw [hconn])

theorem step (h : DrainedEnded s c) (hsound : Sound s) (hs : s.act srv a = some s') :
    DrainedEnded s' c := by
  cases a with
  | signal => exact h.of_same (a := .signal) hsound hs (by cases hs; rfl)
  | worker ch =>
      exact h.of_same (a := .worker ch) hsound hs (by rw [(State.worker_frame hs).conns])
  | main ch =>
      rcases State.mainStep_cases hs with ⟨env, rfl, hgo⟩ | ⟨hpoll, hev⟩
      · by_cases hc : s.main.conn = some c
        · exact h.connStep hsound hs (State.mainGo_connStep hsound hgo hc)
        · exact h.of_same hsound hs (by rw [State.mainGo_aside hgo hc])
      · exact h.connEvent hsound hs (hev.connEvent hpoll)

end DrainedEnded

/-! ## What is due -/

namespace State

variable {srv : Server} {s s' : State} {a : Action} {c : ConnId}

/-- A step of a handler sends what was due; only a closed connection loses it. -/
theorem due_connStep (hinv : AnswerInv s c) (hsound : Sound s) (hs : s.act srv a = some s')
    (hstep : ConnStep s s' c) :
    s'.due c = s.due c ∨ ¬ s.live c ∧ s'.due c ≤ s.due c := by
  have hkept := fun hdata => waitsForReply_congr (c := c) hsound hs hdata
  cases hstep with
  | same hconn hasks =>
      left
      have howes : s'.owes c = s.owes c := by
        have hbeq : (s'.main.asks == some c) = (s.main.asks == some c) := by
          rw [Bool.eq_iff_iff]
          simpa using hasks
        rw [owes, owes, hkept (by rw [hconn]), hbeq]
      rw [due, due, hconn, howes]
  | reply r hconn howes hasks =>
      left
      have hnone : s'.waitsForReply c = false := waitsForReply_of_none (by rw [hconn])
      rw [due, due, owes_of_not_asks hasks, hnone, howes, hconn]
      simp [Conn.answers]
      omega
  | attach j hconn hasks hasks' =>
      left
      rw [due, due, owes_of_asks hasks, owes_of_asks hasks', hconn]
      rfl
  | head hconn hasks hasks' hstream =>
      left
      obtain ⟨j, hjob, hstream⟩ := hstream
      have hsent : (s.conns c).headersSent = false := by
        rw [Bool.eq_false_iff]
        exact fun hsent => (hinv.heads hsent).1 hasks
      have hnone : s'.waitsForReply c = false := by
        rw [hkept (by rw [hconn]), waitsForReply_of_some hjob, hstream]
        rfl
      rw [due, due, owes_of_asks hasks, owes_of_not_asks hasks', hnone, hconn]
      simp [Conn.answers, hsent]
  | wait hconn hasks hasks' hwaits =>
      left
      rw [due, due, owes_of_asks hasks, owes_of_not_asks hasks', hkept (by rw [hconn]), hwaits,
        hconn]
  | final hconn hasks hasks' hstream _ =>
      left
      have hnone : s'.waitsForReply c = false := waitsForReply_of_none (by rw [hconn])
      rw [due, due, owes_of_not_asks hasks, owes_of_not_asks hasks', hnone, hstream, hconn]
      rfl
  | leave hconn hclosed hdata hasks hasks' =>
      right
      have hnone : s'.waitsForReply c = false := waitsForReply_of_none (by rw [hconn])
      refine ⟨?_, ?_⟩
      · rintro (hopen | hunused)
        · simp [hclosed] at hopen
        · simp [hinv.fresh hunused, Conn.unused] at hdata
      rw [due, due, owes_of_not_asks hasks', hnone, hconn]
      simp [Conn.answers]

/-- A message makes one answer due. -/
theorem due_connEvent (hinv : AnswerInv s c) (hsound : Sound s) (hs : s.act srv a = some s')
    (hpoll : s.main = .poll) (hev : ConnEvent s a s' c) :
    s'.due c = s.due c + (a.asks c).toNat := by
  have hidle : s.main.asks ≠ some c := by simp [hpoll, MainPc.asks]
  have hkept := fun hdata => waitsForReply_congr (c := c) hsound hs hdata
  have hready : s.canReceive c = true → s.waitsForReply c = false := by
    intro hready
    simp only [canReceive, Bool.and_eq_true, beq_iff_eq] at hready
    exact waitsForReply_of_none hready.2
  cases hev with
  | same hask hconn hasks =>
      rw [due, due, owes_of_not_asks hidle, owes_of_not_asks hasks, hkept (by rw [hconn]), hconn,
        hask]
      rfl
  | new hask hc hcount hanswers hdata _ hasks =>
      have hfresh := hinv.fresh hc.ge
      have hnone : s.waitsForReply c = false := waitsForReply_of_none (by rw [hfresh]; rfl)
      rw [due, due, owes_of_not_asks hidle, owes_of_not_asks hasks, waitsForReply_of_none hdata,
        hnone, hanswers, hfresh, hask]
      rfl
  | answered r hask hcan hconn hasks =>
      rw [due, due, owes_of_not_asks hidle, owes_of_not_asks hasks, hkept (by rw [hconn]),
        hready hcan, hconn, hask]
      simp [Conn.answers]
      omega
  | begun hask hcan hconn hasks =>
      rw [due, due, owes_of_not_asks hidle, owes_of_asks hasks, hready hcan, hconn, hask]
      rfl
  | closed hask hconn hasks =>
      rw [due, due, owes_of_not_asks hidle, owes_of_not_asks hasks, hkept (by rw [hconn]), hconn,
        hask]
      rfl

/-- What a step adds to what is due. -/
theorem due_step (hinv : AnswerInv s c) (hsound : Sound s) (hs : s.act srv a = some s') :
    s'.due c = s.due c + (a.asks c).toNat ∨
      ¬ s.live c ∧ s'.due c ≤ s.due c + (a.asks c).toNat := by
  cases a with
  | signal =>
      cases hs
      exact .inl rfl
  | worker ch =>
      have hframe := worker_frame hs
      left
      rw [due, due, owes, owes, waitsForReply_congr hsound (a := .worker ch) hs (by rw [hframe.conns]),
        hframe.conns, hframe.main]
      rfl
  | main ch =>
      rcases mainStep_cases hs with ⟨env, rfl, hgo⟩ | ⟨hpoll, hev⟩
      · refine due_connStep hinv hsound hs ?_
        by_cases hc : s.main.conn = some c
        · exact mainGo_connStep hsound hgo hc
        · exact mainGo_other hgo hc
      · exact .inl (due_connEvent hinv hsound hs hpoll (hev.connEvent hpoll))

/-- A connection that has been closed stays so. -/
theorem live_of_step (hsound : Sound s) (hs : s.act srv a = some s') (hlive : s'.live c) :
    s.live c := by
  by_contra hdead
  simp only [live, not_or, Bool.not_eq_true, Nat.not_le] at hdead
  obtain ⟨hused, hclosed⟩ := closed_of_step hsound hs hdead.2 hdead.1
  rcases hlive with hopen | hunused
  · simp [hclosed] at hopen
  · exact absurd hunused (Nat.not_le.2 hused)

end State

/-! ## Every run -/

/-- The messages of a client against what it has been sent and is owed. -/
structure Accounted (srv : Server) (c : ConnId) (as : List Action) (s : State) : Prop where
  reachable : (system srv).Reachable Free s
  handler : HandlerInv s
  inv : AnswerInv s c
  ended : DrainedEnded s c
  atMost : s.due c ≤ as.countP (Action.asks c)
  exact_of_live : s.live c → s.due c = as.countP (Action.asks c)

namespace Accounted

variable {srv : Server} {s s' : State} {a : Action} {c : ConnId} {as : List Action}

theorem init (srv : Server) (c : ConnId) : Accounted srv c [] State.init where
  reachable := .init
  handler := HandlerInv.init
  inv := AnswerInv.init c
  ended := DrainedEnded.init c
  atMost := Nat.le_refl _
  exact_of_live _ := rfl

theorem step (h : Accounted srv c as s) (hs : s.act srv a = some s') :
    Accounted srv c (as ++ [a]) s' := by
  have hsound := Sound.of_reachable h.reachable
  have hcount : (as ++ [a]).countP (Action.asks c) =
      as.countP (Action.asks c) + (a.asks c).toNat := by
    rw [List.countP_append, List.countP_singleton]
    cases a.asks c <;> rfl
  have hatMost := h.atMost
  refine ⟨h.reachable.step trivial hs, h.handler.step hs, h.inv.step hsound h.handler hs,
    h.ended.step hsound hs, ?_, ?_⟩
  · rcases State.due_step (c := c) h.inv hsound hs with hdue | ⟨_, hdue⟩ <;> omega
  · intro hlive
    have hbefore := State.live_of_step hsound hs hlive
    have hexact := h.exact_of_live hbefore
    rcases State.due_step (c := c) h.inv hsound hs with hdue | ⟨hdead, _⟩
    · omega
    · exact absurd hbefore hdead

theorem of_run {t : State} (hrun : (system srv).runGuarded Free State.init as = some t) :
    Accounted srv c as t := by
  have h := runGuarded_history (P := fun past s => Accounted srv c past s)
    (fun _ _ _ _ h _ hs => h.step hs) (init srv c) hrun
  simpa using h

end Accounted

/-- The replies and begun streams of a client and the one that it is owed are as many as its
requests, as long as it is connected, and never more; and a stream that has been begun is attached to
its connection or has ended. -/
theorem answered_once (srv : Server) {as : List Action} {t : State}
    (hrun : (system srv).runGuarded Free State.init as = some t) (c : ConnId) :
    (t.conns c).answers + (t.owes c).toNat ≤ as.countP (Action.asks c) ∧
      ((t.conns c).isOpen = true →
        (t.conns c).answers + (t.owes c).toNat = as.countP (Action.asks c) ∧
          ((t.conns c).headersSent = true → t.hasEnded c ∨
            ∃ j, (t.conns c).fnData = some j ∧ (t.jobs j).stream = true)) := by
  have h := Accounted.of_run (c := c) hrun
  refine ⟨h.atMost, fun hopen => ⟨h.exact_of_live (.inl hopen), fun hsent => ?_⟩⟩
  rcases (h.inv.heads hsent).2 with hclosed | hdrains | hattached
  · simp [hopen] at hclosed
  · exact .inl (h.ended hdrains)
  · exact .inr hattached

/-! ## At rest -/

section Rest

variable {srv : Server} {s : State}

/-- An idle server is at rest. -/
theorem atRest_of_idle (hworker : s.worker = .waiting) (hrunning : s.running = true)
    (hslot : s.currentJob = none) (hpoll : s.main = .poll) (hserving : s.destroying = false)
    (hwakeups : s.wakeups = []) : (system srv).AtRest Action.continues s := by
  intro a ha
  cases a with
  | signal => cases ha
  | worker ch =>
      have hnone : s.workerStep ch = none := by
        cases ch <;> simp [State.workerStep, hworker, hrunning, hslot]
      exact hnone
  | main ch =>
      have hnone : s.mainStep srv ch = none := by
        cases ch with
        | go env => simp [State.mainStep, State.mainGo, hpoll, hserving]
        | wakeup c => simp [State.mainStep, hwakeups]
        | _ => simp [Action.continues] at ha
      exact hnone

/-- Where the threads are at rest, the worker of a server that is up waits for a job. -/
theorem waiting_of_atRest (hr : (system srv).Reachable Free s)
    (hrest : (system srv).AtRest Action.continues s) (hserving : s.destroying = false) :
    s.main = .poll ∧ s.worker = .waiting ∧ s.currentJob = none := by
  have hwinding := Winding.of_reachable hr
  have hsettled := settled_of_atRest hr hrest
  have hpoll : s.main = .poll := by
    rcases hsettled.main with hpoll | hfinished
    · exact hpoll
    · simp [hwinding.stops (by simp [hfinished, MainPc.stops])] at hserving
  rcases hsettled.worker with hwaiting | hexited
  · exact ⟨hpoll, hwaiting⟩
  · rcases hwinding.running.1 (hwinding.exited hexited) with hmain | hmain <;>
      simp [hpoll] at hmain

/-- A client that is left waiting waits for a job that was taken out of `current_job` before it
was started. -/
theorem unstarted_of_atRest (hr : (system srv).Reachable Free s)
    (hrest : (system srv).AtRest Action.continues s) (hserving : s.destroying = false)
    {c : ConnId} (hopen : (s.conns c).isOpen = true) {j : JobId}
    (hdata : (s.conns c).fnData = some j) :
    (s.log j).accepted = true ∧ (s.log j).started = 0 ∧ s.currentJob = none := by
  have hheld := (Sound.of_reachable hr).inv.held c j hdata
  have hhome : s.home j = c := hheld.2.2.2.1
  refine ⟨hheld.1, ?_, (waiting_of_atRest hr hrest hserving).2.2⟩
  by_contra hstarted
  have hfinal := (settled_of_atRest hr hrest).answered hserving j hstarted (hhome ▸ hopen)
  have hfrees : (s.log j).frees = 0 := hheld.2.1
  have hone := hfinal.1
  simp [hfrees] at hone

end Rest

/-- When the threads have come to rest, every connected client has as many answers as it has made
requests, and every stream is over, but for the clients whose job was overwritten in
`current_job`; and no client is left waiting if `worker_submit` never found a finished job there. -/
theorem all_answered (srv : Server) {as : List Action} {t : State}
    (hrun : (system srv).runGuarded Free State.init as = some t)
    (hrest : (system srv).AtRest Action.continues t) (hserving : t.destroying = false) {c : ConnId}
    (hopen : (t.conns c).isOpen = true) :
    ((t.conns c).fnData = none → (t.conns c).answers = as.countP (Action.asks c) ∧
      ((t.conns c).headersSent = true → t.hasEnded c)) ∧
    (∀ j, (t.conns c).fnData = some j →
      (t.log j).accepted = true ∧ (t.log j).started = 0 ∧ t.currentJob = none) ∧
    ((system srv).Reachable (fun s a => submitsBetweenJobs s a = true) t →
      (t.conns c).fnData = none) := by
  have hr := Reachable.of_runGuarded .init hrun
  refine ⟨fun hnone => ?_, fun j => unstarted_of_atRest hr hrest hserving hopen, fun hguarded => ?_⟩
  · have hpoll := (waiting_of_atRest hr hrest hserving).1
    have howes : t.owes c = false := by
      rw [State.owes_of_not_asks (by simp [hpoll, MainPc.asks]),
        State.waitsForReply_of_none hnone]
    obtain ⟨hcount, hstream⟩ := (answered_once srv hrun c).2 hopen
    refine ⟨by simpa [howes] using hcount, fun hsent => ?_⟩
    rcases hstream hsent with hended | ⟨j, hattached, _⟩
    · exact hended
    · simp [hnone] at hattached
  · cases hdata : (t.conns c).fnData with
    | none => rfl
    | some j =>
        obtain ⟨hacc, hzero, hslot⟩ := unstarted_of_atRest hr hrest hserving hopen hdata
        rcases accepted_started_once srv hguarded hacc with ⟨_, hsome⟩ | hone
        · simp [hslot] at hsome
        · simp [hzero] at hone

namespace Sample

/-- A plain request is answered. -/
def askOnce : List Action :=
  [connect, post 0 plainBody, main, main, main, main, work, work, work, .worker (.ret 0),
    work, work, work, work, work, work, .main (.wakeup 0), main, main, main]

theorem askOnce_replays :
    ((system server).runGuarded (fun s a => submitsBetweenJobs s a = true) State.init
      askOnce).isSome = true := by
  decide

theorem askOnce_isSome :
    ((system server).runGuarded Free State.init askOnce).isSome = true := by
  decide

def afterAskOnce : State :=
  ((system server).runGuarded Free State.init askOnce).get askOnce_isSome

theorem all_answered_askOnce :
    (afterAskOnce.conns 0).fnData = none ∧ (afterAskOnce.conns 0).answers = 1 := by
  have hrun : (system server).runGuarded Free State.init askOnce = some afterAskOnce :=
    (Option.some_get _).symm
  have hrest : (system server).AtRest Action.continues afterAskOnce :=
    atRest_of_idle (by decide) (by decide) (by decide) (by decide) (by decide) (by decide)
  rcases all_answered server hrun hrest (by decide) (c := 0) (by decide) with ⟨hexact, _, hguarded⟩
  have hnone := hguarded (reachable_of_isSome askOnce_replays)
  have hone : askOnce.countP (Action.asks 0) = 1 := by decide
  exact ⟨hnone, (hexact hnone).1.trans hone⟩

/-- The next request waits for the worker. -/
def askTwice : List Action :=
  askOnce ++ [post 0 plainBody, main, main, main, main]

theorem askTwice_isSome :
    ((system server).runGuarded Free State.init askTwice).isSome = true := by
  decide

def afterAskTwice : State :=
  ((system server).runGuarded Free State.init askTwice).get askTwice_isSome

theorem answered_once_askTwice :
    (afterAskTwice.conns 0).answers + (afterAskTwice.owes 0).toNat = 2 := by
  have hrun : (system server).runGuarded Free State.init askTwice = some afterAskTwice :=
    (Option.some_get _).symm
  have htwo : askTwice.countP (Action.asks 0) = 2 := by decide
  exact ((answered_once server hrun 0).2 (by decide)).1.trans htwo

end Sample

end Professord
