import Mathlib.Data.Finset.Card
import Mathlib.Data.Finset.Range
import Professord.Runtime.Refinement

/-!
# Connections — the counter of `MG_EV_ACCEPT` and `MG_EV_CLOSE`

`active_connections` counts the open connections that passed the ACL, and bounds the connections
that are not being closed.  A close decrements the counter whether or not the connection was
counted; `closesCounted` says that it was, or that the clamp at zero hides the difference.
-/

namespace Professord

open GuardedSystem CText

/-! ## What the counter should count -/

def State.openConns (s : State) (p : Conn → Bool) : Finset ConnId :=
  {c ∈ Finset.range s.nextConn | (s.conns c).isOpen && p (s.conns c)}

structure ConnectionsCounted (s : State) : Prop where
  active : s.activeConnections = (s.openConns Conn.admitted).card
  limit : (s.openConns fun k => !k.isClosing).card ≤ profMaxConnections

/-- The records of connections agree with what mongoose has given out. -/
structure ConnInv (s : State) : Prop where
  openUsed : ∀ c, (s.conns c).isOpen = true → c < s.nextConn
  admitted : ∀ c, (s.conns c).isOpen = true → (s.conns c).isClosing = false →
    (s.conns c).admitted = true

/-- A close is of a connection that was counted, or finds the counter at zero. -/
def closesCounted (s : State) (a : Action) : Bool :=
  match a with
  | .main (.close c) => (s.conns c).admitted || s.activeConnections == 0
  | _ => true

/-! ## Steps that are no accept and no close -/

/-- What the accounting reads of a connection. -/
def Conn.standing (k : Conn) : Bool × Bool × Bool :=
  (k.isOpen, k.isClosing, k.admitted)

/-- The connections and their counter are as they were. -/
structure ConnsKept (s s' : State) : Prop where
  nextConn : s'.nextConn = s.nextConn
  active : s'.activeConnections = s.activeConnections
  standing : ∀ c, (s'.conns c).standing = (s.conns c).standing

namespace ConnsKept

variable {s s' : State}

theorem trans {s'' : State} (h : ConnsKept s s') (h' : ConnsKept s' s'') : ConnsKept s s'' where
  nextConn := h'.nextConn.trans h.nextConn
  active := h'.active.trans h.active
  standing c := (h'.standing c).trans (h.standing c)

theorem symm (h : ConnsKept s s') : ConnsKept s' s :=
  ⟨h.nextConn.symm, h.active.symm, fun c => (h.standing c).symm⟩

theorem updConn (s : State) (c : ConnId) {f : Conn → Conn}
    (h : ∀ k, (f k).standing = k.standing) : ConnsKept s (s.updConn c f) where
  nextConn := rfl
  active := rfl
  standing k := by
    simp only [State.updConn_conns]
    split
    · exact h _
    · rfl

theorem sendReply (s : State) (c : ConnId) (r : Reply) : ConnsKept s (s.sendReply c r) :=
  (updConn s c (f := fun k => { k with replies := k.replies ++ [r] }) fun _ => rfl).trans
    ⟨rfl, rfl, fun _ => rfl⟩

theorem sendError (s : State) (texts : JsonTexts) (c : ConnId) (status : Nat)
    (message type : String) : ConnsKept s (s.sendError texts c status message type) := by
  have hcount : ConnsKept s { s with stats := countError status s.stats } :=
    ⟨rfl, rfl, fun _ => rfl⟩
  exact hcount.trans (sendReply _ c (sentError texts status message type))

theorem isOpen (h : ConnsKept s s') (c : ConnId) : (s'.conns c).isOpen = (s.conns c).isOpen :=
  congrArg Prod.fst (h.standing c)

theorem isClosing (h : ConnsKept s s') (c : ConnId) :
    (s'.conns c).isClosing = (s.conns c).isClosing :=
  congrArg (fun k => k.2.1) (h.standing c)

theorem admitted (h : ConnsKept s s') (c : ConnId) :
    (s'.conns c).admitted = (s.conns c).admitted :=
  congrArg (fun k => k.2.2) (h.standing c)

theorem inv (h : ConnsKept s s') (hinv : ConnInv s) : ConnInv s' where
  openUsed c := by simpa [h.isOpen, h.nextConn] using hinv.openUsed c
  admitted c := by simpa [h.isOpen, h.isClosing, h.admitted] using hinv.admitted c

theorem counted (h : ConnsKept s s') (hc : ConnectionsCounted s) : ConnectionsCounted s' where
  active := by simpa [State.openConns, h.nextConn, h.active, h.isOpen, h.admitted] using hc.active
  limit := by simpa [State.openConns, h.nextConn, h.isOpen, h.isClosing] using hc.limit

end ConnsKept

namespace State

variable {srv : Server} {s s' : State}

theorem WorkerFrame.conns_kept (h : WorkerFrame s s') : ConnsKept s s' where
  nextConn := h.nextConn
  active := h.active
  standing c := by rw [h.conns]

theorem busyRead_conns (s : State) (caller : BusyCaller) : ConnsKept s (s.busyRead caller) := by
  cases hslot : s.currentJob <;> cases caller <;> simp only [busyRead, hslot] <;>
    exact ⟨rfl, rfl, fun _ => rfl⟩

theorem busyLoaded_conns (s : State) (caller : BusyCaller) (busy : Bool) (texts : JsonTexts) :
    ConnsKept s (s.busyLoaded caller busy texts) := by
  cases caller <;> cases busy
  case request.true c type body =>
    exact (ConnsKept.sendError s texts c _ _ _).trans ⟨rfl, rfl, fun _ => rfl⟩
  all_goals exact ⟨rfl, rfl, fun _ => rfl⟩

theorem allocJob_conns {c : ConnId} {type : JobType} {body : Bytes} {env : HandlerEnv} :
    ConnsKept s (s.allocJob srv c type body env) := by
  unfold allocJob
  split
  · exact (ConnsKept.sendError s env.texts c _ _ _).trans ⟨rfl, rfl, fun _ => rfl⟩
  · cases srv.buildJob c type body env.requestId with
    | none =>
        refine ⟨rfl, rfl, fun k => ?_⟩
        by_cases hk : k = c <;> simp [freeJob, Conn.standing, hk]
    | some job => exact ⟨rfl, rfl, fun _ => rfl⟩

theorem workerSubmit_conns (s : State) (j : JobId) : ConnsKept s (s.workerSubmit j).2 := by
  unfold workerSubmit
  split
  · split <;> exact ⟨rfl, rfl, fun _ => rfl⟩
  · exact ⟨rfl, rfl, fun _ => rfl⟩

theorem finalizeReply_conns (s : State) (c : ConnId) (j : JobId) (jstate : JobState)
    (env : HandlerEnv) : ConnsKept s (s.finalizeReply c j jstate env) := by
  constructor
  case standing =>
    intro k
    by_cases hk : k = c <;> simp [finalizeReply, freeJob, Conn.standing, hk]
  all_goals simp [finalizeReply, freeJob]

theorem finalizeStream_conns (s : State) (c : ConnId) (j : JobId) (env : HandlerEnv) :
    ConnsKept s (s.finalizeStream c j env) := by
  constructor
  case standing =>
    intro k
    by_cases hk : k = c <;> simp [finalizeStream, sendEvents, freeJob, Conn.standing, hk]
  all_goals simp [finalizeStream, sendEvents, freeJob]

theorem mainGo_conns {env : HandlerEnv} (h : s.mainGo srv env = some s') : ConnsKept s s' := by
  have hgo : ∀ {t : State} {pc : MainPc}, ConnsKept s t → ConnsKept s (t.goMain pc) :=
    fun ht => ht.trans ⟨rfl, rfl, fun _ => rfl⟩
  have htouch : ∀ j, ConnsKept s (s.touch j) := fun _ => ⟨rfl, rfl, fun _ => rfl⟩
  revert h
  fun_cases mainGo s srv env <;> intro h <;> cases h
  case case1 caller k hpc => exact (htouch k).trans (busyLoaded_conns _ caller _ _)
  case case2 => exact allocJob_conns
  case case3 c k hpc hacc => exact hgo (workerSubmit_conns s k)
  case case4 c k hpc hacc =>
    have hfree : ConnsKept s ((s.workerSubmit k).2.freeJob k) :=
      (workerSubmit_conns s k).trans ⟨rfl, rfl, fun _ => rfl⟩
    exact hgo (hfree.trans (ConnsKept.sendError _ env.texts c _ _ _))
  -- the steps that write a record of a connection write its job or its replies
  case case5 c k hpc => exact hgo (ConnsKept.updConn s c fun _ => rfl)
  case case6 c k hpc hstream =>
    exact hgo ((htouch k).trans (ConnsKept.updConn _ c fun _ => rfl))
  case case12 c k jstate hpc => exact hgo (finalizeReply_conns s c k jstate _)
  case case17 c k hpc => exact hgo (finalizeStream_conns s c k _)
  case case20 c k hpc =>
    have hmark : ConnsKept s ((s.touch k).updJob k fun r => { r with orphaned := true }) :=
      ⟨rfl, rfl, fun _ => rfl⟩
    exact hgo (hmark.trans (ConnsKept.updConn _ c fun _ => rfl))
  all_goals exact ⟨rfl, rfl, fun _ => rfl⟩

theorem evHttp_conns (s : State) (srv : Server) (c : ConnId) (hm : HttpMessage)
    (texts : JsonTexts) : ConnsKept s (s.evHttp srv c hm texts) := by
  have hsend : ∀ {t : State} (r : Reply), ConnsKept s t → ConnsKept s (t.sendReply c r) :=
    fun r ht => ht.trans (ConnsKept.sendReply _ c r)
  unfold evHttp
  split
  case h_1 => exact ConnsKept.sendError s texts c _ _ _
  case h_6 => exact busyRead_conns s _
  case h_4 | h_5 =>
    rw [sendJson_eq]
    exact hsend _ ⟨rfl, rfl, fun _ => rfl⟩
  all_goals exact hsend _ ⟨rfl, rfl, fun _ => rfl⟩

/-- Only accepts and closes touch the accounting. -/
theorem act_conns {a : Action} (h : s.act srv a = some s')
    (haccept : ∀ peer, a ≠ .main (.accept peer)) (hclose : ∀ c, a ≠ .main (.close c)) :
    ConnsKept s s' := by
  cases a with
  | signal =>
      cases h
      exact ⟨rfl, rfl, fun _ => rfl⟩
  | worker ch => exact (worker_frame h).conns_kept
  | main ch =>
      rcases mainStep_cases h with ⟨env, rfl, hgo⟩ | ⟨_, hev⟩
      · exact mainGo_conns hgo
      · cases hev with
        | accept _ => exact absurd rfl (haccept _)
        | http _ _ => exact evHttp_conns s srv _ _ _
        | drop _ _ _ => exact ⟨rfl, rfl, fun _ => rfl⟩
        | serve _ _ _ _ => exact ⟨rfl, rfl, fun _ => rfl⟩
        | closeFree _ _ => exact absurd rfl (hclose _)
        | closeBegin _ _ => exact absurd rfl (hclose _)
        | report _ => exact busyRead_conns s .report
        | leave _ _ => exact ⟨rfl, rfl, fun _ => rfl⟩

/-! ## Accepts and closes -/

theorem mem_openConns {p : Conn → Bool} {c : ConnId} :
    c ∈ s.openConns p ↔ c < s.nextConn ∧ (s.conns c).isOpen = true ∧ p (s.conns c) = true := by
  simp [openConns]

/-- A new connection `k` in the books. -/
structure Adds (s s' : State) (k : Conn) : Prop where
  nextConn : s'.nextConn = s.nextConn + 1
  conns : ∀ c, s'.conns c = if c = s.nextConn then k else s.conns c
  isOpen : k.isOpen = true

theorem Adds.openConns {k : Conn} (h : Adds s s' k) (p : Conn → Bool) :
    s'.openConns p =
      if p k = true then insert s.nextConn (s.openConns p) else s.openConns p := by
  ext c
  by_cases hc : c = s.nextConn
  · cases hp : p k <;> simp [mem_openConns, h.nextConn, h.conns, h.isOpen, hc, hp]
  · -- the other records are as they were
    have hlt : c < s.nextConn + 1 ↔ c < s.nextConn := by
      rw [Nat.lt_succ_iff_lt_or_eq, or_iff_left hc]
    cases hp : p k <;> simp [mem_openConns, h.nextConn, h.conns, hc, hlt]

theorem Adds.card {k : Conn} (h : Adds s s' k) (p : Conn → Bool) :
    (s'.openConns p).card = (s.openConns p).card + if p k = true then 1 else 0 := by
  rw [h.openConns]
  have hnew : s.nextConn ∉ s.openConns p := by simp [mem_openConns]
  split
  · exact Finset.card_insert_of_notMem hnew
  · rfl

theorem Adds.inv {k : Conn} (h : Adds s s' k) (hinv : ConnInv s)
    (hk : k.isClosing = false → k.admitted = true) : ConnInv s' where
  openUsed c := by
    rw [h.conns, h.nextConn]
    split
    · next heq => exact fun _ => heq ▸ Nat.lt_succ_self _
    · exact fun hopen => Nat.lt_succ_of_lt (hinv.openUsed c hopen)
  admitted c := by
    rw [h.conns]
    split
    · exact fun _ => hk
    · exact hinv.admitted c

/-- The books after a close of `c`. -/
theorem openConns_evClose (c : ConnId) (p : Conn → Bool)
    (hp : ∀ k : Conn, p { k with isOpen := false } = p k) :
    (s.evClose c).openConns p = (s.openConns p).erase c := by
  ext d
  by_cases hd : d = c <;> simp [mem_openConns, evClose, hd, hp]

theorem evClose_inv {c : ConnId} (hinv : ConnInv s) : ConnInv (s.evClose c) where
  openUsed d := by
    by_cases hd : d = c
    · simp [evClose, hd]
    · simpa [evClose, hd] using hinv.openUsed d
  admitted d := by
    by_cases hd : d = c
    · simp [evClose, hd]
    · simpa [evClose, hd] using hinv.admitted d

/-- The record that `MG_EV_ACCEPT` leaves, and what it does to the counter. -/
theorem evAccept_adds (s : State) (cfg : Config) (peer : Bytes) :
    ∃ k, Adds s (s.evAccept cfg peer) k ∧
      ((k.admitted = false ∧ k.isClosing = true ∧
          (s.evAccept cfg peer).activeConnections = s.activeConnections) ∨
        (k.admitted = true ∧
          k.isClosing = decide (s.activeConnections + 1 > profMaxConnections) ∧
          (s.evAccept cfg peer).activeConnections = s.activeConnections + 1)) := by
  unfold evAccept
  split
  · exact ⟨_, ⟨rfl, fun c => by rfl, rfl⟩, .inl ⟨rfl, rfl, rfl⟩⟩
  · exact ⟨_, ⟨rfl, fun c => by rfl, rfl⟩, .inr ⟨rfl, rfl, rfl⟩⟩

end State

/-! ## One step -/

namespace ConnInv

variable {srv : Server} {s s' : State} {a : Action}

theorem init : ConnInv State.init := by
  constructor <;> simp [State.init, Conn.unused]

theorem accept (h : ConnInv s) (cfg : Config) (peer : Bytes) : ConnInv (s.evAccept cfg peer) := by
  rcases s.evAccept_adds cfg peer with ⟨k, hadds, ⟨_, hclosing, _⟩ | ⟨hadmitted, _, _⟩⟩
  · exact hadds.inv h fun hopen => by simp [hclosing] at hopen
  · exact hadds.inv h fun _ => hadmitted

/-- A close event, followed by the cancelling of a job or not. -/
theorem act_close {c : ConnId} (hs : s.act srv (.main (.close c)) = some s') :
    (s.conns c).isOpen = true ∧ ConnsKept (s.evClose c) s' := by
  rw [State.act_main] at hs
  rcases State.mainStep_cases hs with ⟨env, hgo, _⟩ | ⟨_, hev⟩
  · cases hgo
  · cases hev with
    | closeFree hopen _ => exact ⟨hopen, rfl, rfl, fun _ => rfl⟩
    | closeBegin hopen _ => exact ⟨hopen, rfl, rfl, fun _ => rfl⟩

theorem act_accept {peer : Bytes} (hs : s.act srv (.main (.accept peer)) = some s') :
    s' = s.evAccept srv.cfg peer := by
  rw [State.act_main] at hs
  rcases State.mainStep_cases hs with ⟨env, hgo, _⟩ | ⟨_, hev⟩
  · cases hgo
  · cases hev
    rfl

theorem step (h : ConnInv s) (hs : s.act srv a = some s') : ConnInv s' := by
  by_cases haccept : ∃ peer, a = .main (.accept peer)
  · rcases haccept with ⟨peer, rfl⟩
    rw [act_accept hs]
    exact h.accept srv.cfg peer
  · by_cases hclose : ∃ c, a = .main (.close c)
    · rcases hclose with ⟨c, rfl⟩
      exact (act_close hs).2.inv (State.evClose_inv h)
    · exact (State.act_conns hs (fun peer ha => haccept ⟨peer, ha⟩)
        fun c ha => hclose ⟨c, ha⟩).inv h

end ConnInv

namespace ConnectionsCounted

variable {srv : Server} {s s' : State} {a : Action}

theorem init : ConnectionsCounted State.init := by
  constructor <;> decide

theorem accept (h : ConnectionsCounted s) (hinv : ConnInv s) (cfg : Config) (peer : Bytes) :
    ConnectionsCounted (s.evAccept cfg peer) := by
  have hinv' := hinv.accept cfg peer
  rcases s.evAccept_adds cfg peer with ⟨k, hadds, hk⟩
  have hadmitted := hadds.card Conn.admitted
  have hlimit := hadds.card fun k => !k.isClosing
  rcases hk with ⟨hrejected, hclosing, hactive⟩ | ⟨hcounted, hclosing, hactive⟩
  · constructor
    · simpa [hactive, hadmitted, hrejected] using h.active
    · simpa [hlimit, hclosing] using h.limit
  · have hcard : (s.evAccept cfg peer).activeConnections =
        ((s.evAccept cfg peer).openConns Conn.admitted).card := by
      simpa [hactive, hadmitted, hcounted] using h.active
    refine ⟨hcard, ?_⟩
    by_cases hover : s.activeConnections + 1 > profMaxConnections
    · have hdropped : k.isClosing = true := by simpa [hclosing] using hover
      simpa [hlimit, hdropped] using h.limit
    · -- the connections that are not being closed were all counted
      have hsub : ((s.evAccept cfg peer).openConns fun k => !k.isClosing) ⊆
          (s.evAccept cfg peer).openConns Conn.admitted := by
        intro c hc
        rcases State.mem_openConns.1 hc with ⟨hlt, hopen, hnot⟩
        exact State.mem_openConns.2 ⟨hlt, hopen, hinv'.admitted c hopen (by simpa using hnot)⟩
      calc ((s.evAccept cfg peer).openConns fun k => !k.isClosing).card
          ≤ ((s.evAccept cfg peer).openConns Conn.admitted).card := Finset.card_le_card hsub
        _ = s.activeConnections + 1 := hcard.symm.trans hactive
        _ ≤ profMaxConnections := Nat.le_of_not_lt hover

/-- The counter after a close, and what it should be. -/
theorem close_active (h : ConnectionsCounted s) (hinv : ConnInv s) {c : ConnId}
    (hopen : (s.conns c).isOpen = true) :
    (s.evClose c).activeConnections = ((s.evClose c).openConns Conn.admitted).card ↔
      (s.conns c).admitted = true ∨ s.activeConnections = 0 := by
  have hcounter : (s.evClose c).activeConnections = s.activeConnections - 1 := by
    simp only [State.evClose]
    split <;> omega
  rw [hcounter, State.openConns_evClose c _ fun _ => rfl]
  cases hadmitted : (s.conns c).admitted with
  | true =>
      have hmem : c ∈ s.openConns Conn.admitted :=
        State.mem_openConns.2 ⟨hinv.openUsed c hopen, hopen, hadmitted⟩
      simp [Finset.card_erase_of_mem hmem, h.active]
  | false =>
      have hnot : c ∉ s.openConns Conn.admitted := by simp [State.mem_openConns, hadmitted]
      rw [Finset.erase_eq_of_notMem hnot, ← h.active]
      simp only [Bool.false_eq_true, false_or]
      omega

theorem close_limit (h : ConnectionsCounted s) (c : ConnId) :
    ((s.evClose c).openConns fun k => !k.isClosing).card ≤ profMaxConnections := by
  calc ((s.evClose c).openConns fun k => !k.isClosing).card
      = ((s.openConns fun k => !k.isClosing).erase c).card := by
        rw [State.openConns_evClose c _ fun _ => rfl]
    _ ≤ (s.openConns fun k => !k.isClosing).card := Finset.card_erase_le
    _ ≤ profMaxConnections := h.limit

/-- A step keeps the counter right exactly if it meets the guard. -/
theorem step_iff (h : ConnectionsCounted s) (hinv : ConnInv s) (hs : s.act srv a = some s') :
    ConnectionsCounted s' ↔ closesCounted s a = true := by
  by_cases haccept : ∃ peer, a = .main (.accept peer)
  · rcases haccept with ⟨peer, rfl⟩
    rw [ConnInv.act_accept hs]
    exact ⟨fun _ => rfl, fun _ => h.accept hinv srv.cfg peer⟩
  · by_cases hclose : ∃ c, a = .main (.close c)
    · rcases hclose with ⟨c, rfl⟩
      rcases ConnInv.act_close hs with ⟨hopen, hkept⟩
      have hiff := h.close_active hinv hopen
      have hguard : closesCounted s (.main (.close c)) = true ↔
          (s.conns c).admitted = true ∨ s.activeConnections = 0 := by
        simp [closesCounted]
      rw [hguard, ← hiff]
      exact ⟨fun hc => (hkept.symm.counted hc).active,
        fun hactive => hkept.counted ⟨hactive, h.close_limit c⟩⟩
    · have hkept := State.act_conns hs (fun peer ha => haccept ⟨peer, ha⟩)
        fun c ha => hclose ⟨c, ha⟩
      refine ⟨fun _ => ?_, fun _ => hkept.counted h⟩
      cases a with
      | main ch =>
          cases ch with
          | close c => exact absurd ⟨c, rfl⟩ hclose
          | _ => rfl
      | _ => rfl

end ConnectionsCounted

/-- A run keeps the counter and the limit right in all its states exactly if each of its closes
is of a counted connection or finds the counter at zero. -/
theorem connections_counted_iff (srv : Server) (as : List Action) :
    (system srv).AllStates ConnectionsCounted State.init as ↔
      (system srv).AllSteps (fun s a => closesCounted s a = true) State.init as :=
  allStates_iff_allSteps (I := ConnInv) (fun _ _ _ hinv hs => hinv.step hs)
    (fun _ _ _ hinv h hg hs => (h.step_iff hinv hs).2 hg)
    (fun _ _ _ hinv h hg hs h' => hg ((h.step_iff hinv hs).1 h'))
    as State.init ConnInv.init ConnectionsCounted.init

namespace Sample

/-- Only one peer is on the list. -/
def aclServer : Server :=
  { server with
    cfg :=
      { (default : Config) with
        acl := [CBuf.snprintf (ascii "10.0.0.1")]
        acl_bounded := by decide } }

/-- The rejected connection is closed while the admitted one stays open. -/
def rejectedClose : List Action :=
  [connect, .main (.accept (ascii "10.0.0.2")), .main (.close 1)]

theorem rejectedClose_replays :
    ((system aclServer).runGuarded Free State.init rejectedClose).isSome = true := by
  decide

end Sample

theorem not_connections_counted :
    ¬ ∀ (srv : Server) (s : State), (system srv).Reachable Free s → ConnectionsCounted s := by
  intro hall
  have hactive := (hall Sample.aclServer _ (reachable_of_isSome Sample.rejectedClose_replays)).active
  revert hactive
  decide

end Professord
