import Mathlib.Algebra.BigOperators.Group.Finset.Basic
import Professord.Runtime.Connections
import Professord.Server.Answer

/-!
# ErrorCounts — the error counters and the error replies

Each call of `send_error` increments one counter of `stats_t`, chosen by its status in a `switch`,
before the text of the reply is made.  The counters that `stats_to_json` prints are compared with the
error replies that the connections have been sent.  They differ where the `switch` has no case for
the status, and where `error_to_json` returns `NULL` and a plain 500 is sent instead.
-/

namespace Professord

open GuardedSystem CText

/-! ## What the counters should count -/

/-- The object `"errors"` of `stats_to_json`. -/
structure ErrorStats where
  badRequest : Int
  unauthorized : Int
  methodNotAllowed : Int
  serverBusy : Int
  backendError : Int
  deriving DecidableEq

def statsErrors (st : Stats) : ErrorStats where
  badRequest := st.err400
  unauthorized := st.err401
  methodNotAllowed := st.err405
  serverBusy := st.err503
  backendError := st.err500

/-- The status of an error reply. -/
def Reply.errorStatus (r : Reply) : Option Nat :=
  match r.body with
  | .error _ _ _ | .text _ => some r.status
  | _ => none

/-- How many error replies with that status the connection has been sent. -/
def Conn.errorsSent (k : Conn) (status : Nat) : Nat :=
  k.replies.countP fun r => r.errorStatus = some status

/-- How many error replies with that status have been sent. -/
def State.errorsSent (s : State) (status : Nat) : Nat :=
  ∑ c ∈ Finset.range s.nextConn, (s.conns c).errorsSent status

/-- Each error counter is the number of error replies with its status. -/
def ErrorsCounted (s : State) : Prop :=
  statsErrors s.stats =
    { badRequest := s.errorsSent 400
      unauthorized := s.errorsSent 401
      methodNotAllowed := s.errorsSent 405
      serverBusy := s.errorsSent 503
      backendError := s.errorsSent 500 }

instance (s : State) : Decidable (ErrorsCounted s) :=
  inferInstanceAs (Decidable (_ = _))

/-- The cases of the `switch`. -/
def ownStatuses : List Nat :=
  [400, 401, 405, 503]

/-- The counter that a status is counted under; the default branch counts a 500. -/
def counterOf (status : Nat) : Nat :=
  if status ∈ ownStatuses then status else 500

/-- The status that `send_error` sends. -/
def sentStatus (texts : JsonTexts) (status : Nat) : Nat :=
  if texts.error then status else 500

theorem errorStatus_sentError (texts : JsonTexts) (status : Nat) (message type : String) :
    (sentError texts status message type).errorStatus = some (sentStatus texts status) := by
  unfold sentError sentStatus
  split <;> rfl

/-! ## Steps that send an error and steps that do not -/

/-- No error is sent, and none counted. -/
structure ErrorsKept (s s' : State) : Prop where
  nextConn : s'.nextConn = s.nextConn
  sent : ∀ c, (s'.conns c).errorsSent = (s.conns c).errorsSent
  errors : statsErrors s'.stats = statsErrors s.stats

/-- `send_error` is called with the status, on `c`. -/
structure ErrorSent (s s' : State) (c : ConnId) (texts : JsonTexts) (status : Nat) : Prop where
  nextConn : s'.nextConn = s.nextConn
  sent : ∀ k, (s'.conns k).errorsSent = fun n =>
    (s.conns k).errorsSent n + if k = c ∧ n = sentStatus texts status then 1 else 0
  errors : statsErrors s'.stats = statsErrors (countError status s.stats)

theorem Conn.errorsSent_append {k k' : Conn} {r : Reply} (h : k'.replies = k.replies ++ [r])
    (status : Nat) :
    k'.errorsSent status = k.errorsSent status + if r.errorStatus = some status then 1 else 0 := by
  simp [Conn.errorsSent, h, List.countP_append, List.countP_singleton]

theorem Conn.errorsSent_congr {k k' : Conn} (h : k'.replies = k.replies) :
    k'.errorsSent = k.errorsSent := by
  funext status
  rw [Conn.errorsSent, Conn.errorsSent, h]

section Steps

variable {s s' : State}

namespace ErrorsKept

theorem trans {s'' : State} (h : ErrorsKept s s') (h' : ErrorsKept s' s'') : ErrorsKept s s'' where
  nextConn := h'.nextConn.trans h.nextConn
  sent c := (h'.sent c).trans (h.sent c)
  errors := h'.errors.trans h.errors

theorem goMain (h : ErrorsKept s s') (pc : MainPc) : ErrorsKept s (s'.goMain pc) :=
  h.trans ⟨rfl, fun _ => rfl, rfl⟩

theorem updConn (h : ErrorsKept s s') (c : ConnId) {f : Conn → Conn}
    (hf : ∀ k, (f k).replies = k.replies) : ErrorsKept s (s'.updConn c f) := by
  refine h.trans ⟨rfl, fun k => ?_, rfl⟩
  simp only [State.updConn_conns]
  split
  · exact Conn.errorsSent_congr (hf _)
  · rfl

/-- A reply that is no error. -/
theorem sendReply (s : State) (c : ConnId) {r : Reply} (hr : r.errorStatus = none) :
    ErrorsKept s (s.sendReply c r) := by
  refine ⟨rfl, fun k => ?_, rfl⟩
  funext status
  by_cases hk : k = c
  · have happend : ((s.sendReply c r).conns k).replies = (s.conns k).replies ++ [r] := by simp [hk]
    rw [Conn.errorsSent_append happend, hr]
    rfl
  · simp [hk]

theorem errorsSent (h : ErrorsKept s s') (status : Nat) :
    s'.errorsSent status = s.errorsSent status := by
  unfold State.errorsSent
  rw [h.nextConn]
  exact Finset.sum_congr rfl fun c _ => congrFun (h.sent c) status

theorem counted (h : ErrorsKept s s') : ErrorsCounted s' ↔ ErrorsCounted s := by
  unfold ErrorsCounted
  simp only [h.errors, h.errorsSent]

end ErrorsKept

/-- What a call of `send_error` does to the error counters depends on these only. -/
theorem statsErrors_countError {st st' : Stats} (h : statsErrors st = statsErrors st')
    (status : Nat) :
    statsErrors (countError status st) = statsErrors (countError status st') := by
  simp only [statsErrors, ErrorStats.mk.injEq] at h
  obtain ⟨h400, h401, h405, h503, h500⟩ := h
  unfold countError
  split <;> simp [statsErrors, h400, h401, h405, h503, h500]

namespace ErrorSent

variable {c : ConnId} {texts : JsonTexts} {status : Nat}

theorem trans (h : ErrorSent s s' c texts status) {s'' : State} (h' : ErrorsKept s' s'') :
    ErrorSent s s'' c texts status where
  nextConn := h'.nextConn.trans h.nextConn
  sent k := (h'.sent k).trans (h.sent k)
  errors := h'.errors.trans h.errors

theorem after {s₀ : State} (h : ErrorSent s s' c texts status) (h₀ : ErrorsKept s₀ s) :
    ErrorSent s₀ s' c texts status where
  nextConn := h.nextConn.trans h₀.nextConn
  sent k := by rw [h.sent, h₀.sent]
  errors := h.errors.trans (statsErrors_countError h₀.errors status)

theorem sendError (s : State) (texts : JsonTexts) (c : ConnId) (status : Nat)
    (message type : String) :
    ErrorSent s (s.sendError texts c status message type) c texts status := by
  refine ⟨rfl, fun k => ?_, rfl⟩
  funext n
  by_cases hk : k = c
  · have happend : ((s.sendError texts c status message type).conns k).replies =
        (s.conns k).replies ++ [sentError texts status message type] := by simp [hk]
    rw [Conn.errorsSent_append happend, errorStatus_sentError]
    simp [hk, eq_comm]
  · simp [hk]

theorem errorsSent (h : ErrorSent s s' c texts status) (hc : c < s.nextConn) (n : Nat) :
    s'.errorsSent n = s.errorsSent n + if n = sentStatus texts status then 1 else 0 := by
  have hmem : c ∈ Finset.range s.nextConn := Finset.mem_range.2 hc
  -- the other connections have been sent nothing
  have hrest : ∀ k ∈ (Finset.range s.nextConn).erase c,
      (s'.conns k).errorsSent n = (s.conns k).errorsSent n := by
    intro k hk
    simp [h.sent, Finset.ne_of_mem_erase hk]
  have hthis : (s'.conns c).errorsSent n =
      (s.conns c).errorsSent n + if n = sentStatus texts status then 1 else 0 := by
    simp [h.sent]
  unfold State.errorsSent
  rw [h.nextConn, ← Finset.add_sum_erase _ _ hmem, ← Finset.add_sum_erase _ _ hmem,
    Finset.sum_congr rfl hrest, hthis, Nat.add_right_comm]

/-- The counters stay right exactly if the status is counted as the one that is sent. -/
theorem counted (h : ErrorSent s s' c texts status) (hc : c < s.nextConn)
    (hcounted : ErrorsCounted s) :
    ErrorsCounted s' ↔ counterOf status = sentStatus texts status := by
  unfold ErrorsCounted at hcounted ⊢
  simp only [statsErrors, ErrorStats.mk.injEq] at hcounted
  obtain ⟨h400, h401, h405, h503, h500⟩ := hcounted
  -- both sides change by what this one call adds
  rw [h.errors]
  simp only [h.errorsSent hc]
  generalize sentStatus texts status = n
  unfold countError
  split
  case h_5 hne400 hne401 hne405 hne503 =>
    have hother : counterOf status = 500 := by
      simp [counterOf, ownStatuses, show status ≠ 400 from hne400, show status ≠ 401 from hne401,
        show status ≠ 405 from hne405, show status ≠ 503 from hne503]
    rw [hother]
    simp only [statsErrors, h400, h401, h405, h503, h500, ErrorStats.mk.injEq]
    grind
  all_goals
    simp only [counterOf, ownStatuses, statsErrors, h400, h401, h405, h503, h500,
      ErrorStats.mk.injEq]
    grind

end ErrorSent

/-- A status with a case of its own is counted right if it is sent, any other one if it is a 500 or
becomes one. -/
theorem counterOf_eq_sentStatus_iff {texts : JsonTexts} {status : Nat} :
    counterOf status = sentStatus texts status ↔
      (texts.error = true → status ∈ ownStatuses ∨ status = 500) ∧
        (texts.error = false → status ∉ ownStatuses) := by
  have hown : 500 ∉ ownStatuses := by decide
  unfold counterOf sentStatus
  by_cases hstatus : status ∈ ownStatuses
  · have hne : status ≠ 500 := fun heq => hown (heq ▸ hstatus)
    cases herror : texts.error <;> simp [hstatus, hne]
  · cases herror : texts.error <;> simp [hstatus, eq_comm]

/-- The connection whose handler the main thread is in. -/
def MainPc.conn : MainPc → Option ConnId
  | .busyLoad (.request c _ _) _ | .alloc c _ _ | .submit c _ | .storeFnData c _
  | .sendHeaders c _ | .drainTest c _ | .drainLoad c _ | .drainReply c _ _ | .drainBatch c _
  | .drainDone c _ | .drainState c _ _ | .drainFinal c _ | .closeCancel c _ | .closeMgr c _
  | .closeOrphan c _ => some c
  | .busyLoad .report _ | .poll | .workerCancel | .workerDestroy | .workerJoin | .finished => none

/-- One of the URIs of `ev_handler`. -/
def isServed (mg : Mongoose) (hm : HttpMessage) : Bool :=
  isHealth mg hm || isWhatIf mg hm || mg.matches? hm.uri (ascii "/v1/stats") ||
    mg.matches? hm.uri (ascii "/v1/models") ||
    mg.matches? hm.uri (ascii "/v1/chat/completions") ||
    mg.matches? hm.uri (ascii "/v1/completions")

/-- The request passes the size check and the key check, and its URI is not served. -/
structure Unrouted (mg : Mongoose) (cfg : Config) (hm : HttpMessage) : Prop where
  passes : PassesChecks mg cfg hm
  uri : isServed mg hm = false

/-- The URI is served, but not with the method. -/
def wrongMethod (mg : Mongoose) (hm : HttpMessage) : Bool :=
  if isWhatIf mg hm || isHealth mg hm || mg.matches? hm.uri (ascii "/v1/stats") then
    false
  else if mg.matches? hm.uri (ascii "/v1/models") then
    hm.method ≠ ascii "GET"
  else
    (mg.matches? hm.uri (ascii "/v1/chat/completions") ||
      mg.matches? hm.uri (ascii "/v1/completions")) && hm.method ≠ ascii "POST"

/-- The request fails a check, or asks with the wrong method. -/
def TurnedDown (mg : Mongoose) (cfg : Config) (hm : HttpMessage) : Prop :=
  ¬ PassesChecks mg cfg hm ∨ wrongMethod mg hm = true

theorem passesChecks_iff {mg : Mongoose} {cfg : Config} {hm : HttpMessage} :
    PassesChecks mg cfg hm ↔ ¬ hm.body.length > profMaxBodyBytes ∧
      ¬ (!isHealth mg hm && !isWhatIf mg hm && checkAuth mg hm cfg ≠ 0) = true := by
  constructor
  · rintro ⟨hsize, hauth⟩
    refine ⟨Nat.not_lt.2 hsize, ?_⟩
    rcases hauth with hhealth | hwhatif | hkey <;> simp_all
  · rintro ⟨hsize, hauth⟩
    refine ⟨Nat.le_of_not_lt hsize, ?_⟩
    cases hhealth : isHealth mg hm <;> cases hwhatif : isWhatIf mg hm <;> simp_all

/-- The statuses of the routing: a refused request gets one with a case in the `switch`, one that is
not served a 404. -/
theorem evHttpMsg_status {mg : Mongoose} {cfg : Config} {hm : HttpMessage} :
    match evHttpMsg mg cfg hm with
    | .error status _ _ => (status ∈ ownStatuses ↔ TurnedDown mg cfg hm) ∧
        (status ∈ ownStatuses ∨ status = 500 ↔ ¬ Unrouted mg cfg hm)
    | _ => ¬ TurnedDown mg cfg hm ∧ ¬ Unrouted mg cfg hm := by
  have hunrouted : ∀ h : PassesChecks mg cfg hm,
      (Unrouted mg cfg hm ↔ isServed mg hm = false) := fun h => ⟨fun hu => hu.uri, fun hu => ⟨h, hu⟩⟩
  fun_cases evHttpMsg mg cfg hm
  case case1 hsize =>
    have hfails : ¬ PassesChecks mg cfg hm := fun hp => (passesChecks_iff.1 hp).1 hsize
    exact ⟨iff_of_true (by decide) (.inl hfails),
      iff_of_true (by decide) fun hu => hfails hu.passes⟩
  case case2 hsize hauth =>
    have hfails : ¬ PassesChecks mg cfg hm := fun hp => (passesChecks_iff.1 hp).2 hauth
    exact ⟨iff_of_true (by decide) (.inl hfails),
      iff_of_true (by decide) fun hu => hfails hu.passes⟩
  -- behind the checks only the URI and the method decide
  all_goals
    have hpasses : PassesChecks mg cfg hm := passesChecks_iff.2 ⟨‹_›, ‹_›⟩
    simp_all [TurnedDown, wrongMethod, isServed, ownStatuses]

end Steps

/-! ## The connection of the handler -/

/-- The main thread handles a connection that mongoose has given out. -/
structure HandlerInv (s : State) : Prop where
  conns : ConnInv s
  main : ∀ c, s.main.conn = some c → c < s.nextConn

namespace State

variable {srv : Server} {s s' : State}

theorem mainGo_conn {env : HandlerEnv} (h : s.mainGo srv env = some s') {c : ConnId}
    (hc : s'.main.conn = some c) : s.main.conn = some c := by
  revert h
  fun_cases mainGo s srv env <;> intro h <;> cases h
  case case1 caller k hpc =>
    rcases busyLoaded_main (s.touch k) caller (s.jobs k).state.isBusy env.texts with
      hmain | ⟨d, type, body, rfl, hmain⟩
    · simp [hmain, MainPc.conn] at hc
    · rw [hmain] at hc
      rw [hpc]
      exact hc
  case case2 d type body hpc =>
    rw [hpc]
    rcases allocJob_main s srv d type body env with hmain | hmain
    · simp [hmain, MainPc.conn] at hc
    · rw [hmain] at hc
      exact hc
  case case13 c k hpc batch next =>
    simp only [goMain_main, next] at hc
    rw [hpc]
    split at hc <;> exact hc
  all_goals
    first
    | cases hc; done
    | rw [‹s.main = _›]; exact hc

theorem busyRead_conn (s : State) (caller : BusyCaller) {c : ConnId}
    (hc : (s.busyRead caller).main.conn = some c) : ∃ type body, caller = .request c type body := by
  cases hslot : s.currentJob <;> cases caller <;> simp_all [busyRead, MainPc.conn]

theorem evHttp_conn (s : State) (hnone : s.main.conn = none) (srv : Server) (c : ConnId)
    (hm : HttpMessage) (texts : JsonTexts) {d : ConnId}
    (hd : (s.evHttp srv c hm texts).main.conn = some d) : d = c := by
  revert hd
  unfold evHttp
  split
  case h_6 =>
    intro hd
    rcases busyRead_conn s _ hd with ⟨type, body, hcaller⟩
    cases hcaller
    rfl
  all_goals simp [hnone]

theorem isOpen_of_canReceive {c : ConnId} (h : s.canReceive c = true) :
    (s.conns c).isOpen = true := by
  simp only [canReceive, Bool.and_eq_true] at h
  exact h.1.1.1

/-- An event starts a handler on an open connection, or none. -/
theorem EventStep.conn {ch : MainChoice} (h : s.EventStep srv ch s') (hpoll : s.main = .poll)
    {c : ConnId} (hc : s'.main.conn = some c) : (s.conns c).isOpen = true := by
  have hnone : s.main.conn = none := by simp [hpoll, MainPc.conn]
  cases h with
  | accept _ =>
      rw [show (s.evAccept srv.cfg _).main = s.main by unfold evAccept; split <;> rfl] at hc
      simp [hnone] at hc
  | @http d hm texts _ hready =>
      rw [evHttp_conn s hnone srv d hm texts hc]
      exact isOpen_of_canReceive hready
  | drop _ _ _ => simp [hnone] at hc
  | serve _ _ hopen _ =>
      cases hc
      exact hopen
  | closeFree _ _ => simp [evClose, hnone] at hc
  | closeBegin hopen _ =>
      cases hc
      exact hopen
  | report _ =>
      rcases busyRead_conn s _ hc with ⟨_, _, hcaller⟩
      cases hcaller
  | leave _ _ => simp [hnone] at hc

/-- The ids of connections are given out in order. -/
theorem act_nextConn {a : Action} (h : s.act srv a = some s') : s.nextConn ≤ s'.nextConn := by
  by_cases haccept : ∃ peer, a = .main (.accept peer)
  · rcases haccept with ⟨peer, rfl⟩
    rcases s.evAccept_adds srv.cfg peer with ⟨k, hadds, _⟩
    rw [ConnInv.act_accept h, hadds.nextConn]
    exact Nat.le_succ _
  · by_cases hclose : ∃ c, a = .main (.close c)
    · rcases hclose with ⟨c, rfl⟩
      exact Nat.le_of_eq (ConnInv.act_close h).2.nextConn.symm
    · have hkept := act_conns h (fun peer ha => haccept ⟨peer, ha⟩) fun c ha => hclose ⟨c, ha⟩
      exact Nat.le_of_eq hkept.nextConn.symm

end State

namespace HandlerInv

variable {srv : Server} {s s' : State} {a : Action}

theorem init : HandlerInv State.init where
  conns := ConnInv.init
  main c hc := by simp [State.init, MainPc.conn] at hc

theorem step (h : HandlerInv s) (hs : s.act srv a = some s') : HandlerInv s' := by
  refine ⟨h.conns.step hs, fun c hc => ?_⟩
  cases a with
  | signal =>
      cases hs
      exact h.main c hc
  | worker ch =>
      have hframe := State.worker_frame hs
      rw [hframe.nextConn]
      exact h.main c (hframe.main ▸ hc)
  | main ch =>
      rcases State.mainStep_cases hs with ⟨env, rfl, hgo⟩ | ⟨hpoll, hev⟩
      · rw [(State.mainGo_conns hgo).nextConn]
        exact h.main c (State.mainGo_conn hgo hc)
      · have hopen := hev.conn hpoll hc
        exact Nat.lt_of_lt_of_le (h.conns.openUsed c hopen) (State.act_nextConn hs)

end HandlerInv

/-! ## One step -/

namespace State

variable {srv : Server} {s s' : State}

theorem WorkerFrame.errors_kept (h : WorkerFrame s s') : ErrorsKept s s' where
  nextConn := h.nextConn
  sent c := by rw [h.conns]
  errors := by rw [h.stats]

theorem busyRead_errors (s : State) (caller : BusyCaller) : ErrorsKept s (s.busyRead caller) := by
  cases hslot : s.currentJob <;> cases caller <;> simp only [busyRead, hslot] <;>
    exact ⟨rfl, fun _ => rfl, rfl⟩

theorem evAccept_counted (s : State) (cfg : Config) (peer : Bytes) :
    ErrorsCounted (s.evAccept cfg peer) ↔ ErrorsCounted s := by
  have hnew : ∀ status, (s.evAccept cfg peer).errorsSent status = s.errorsSent status := by
    intro status
    have hnext : (s.evAccept cfg peer).nextConn = s.nextConn + 1 := by
      unfold evAccept
      split <;> rfl
    have hreplies : ∀ c, ((s.evAccept cfg peer).conns c).replies =
        if c = s.nextConn then [] else (s.conns c).replies := by
      intro c
      unfold evAccept
      split <;> simp only [updConn_conns] <;> split <;> rfl
    have hold : ∀ c ∈ Finset.range s.nextConn,
        ((s.evAccept cfg peer).conns c).errorsSent status = (s.conns c).errorsSent status := by
      intro c hc
      refine congrFun (Conn.errorsSent_congr ?_) status
      rw [hreplies, if_neg (Nat.ne_of_lt (Finset.mem_range.1 hc))]
    unfold errorsSent
    -- the new connection has been sent nothing
    rw [hnext, Finset.sum_range_succ, Finset.sum_congr rfl hold]
    simp [Conn.errorsSent, hreplies]
  have herrors : statsErrors (s.evAccept cfg peer).stats = statsErrors s.stats := by
    unfold evAccept
    split <;> rfl
  unfold ErrorsCounted
  simp only [hnew, herrors]

theorem evClose_errors (s : State) (c : ConnId) : ErrorsKept s (s.evClose c) := by
  refine ⟨rfl, fun k => Conn.errorsSent_congr ?_, rfl⟩
  by_cases hk : k = c <;> simp [evClose, hk]

theorem workerSubmit_errors (s : State) (j : JobId) : ErrorsKept s (s.workerSubmit j).2 := by
  unfold workerSubmit
  split
  · split <;> exact ⟨rfl, fun _ => rfl, rfl⟩
  · exact ⟨rfl, fun _ => rfl, rfl⟩

/-- A reply is sent, or in its place a 500. -/
theorem sendJson_errors (s : State) (texts : JsonTexts) (c : ConnId) {r : Reply}
    (hr : r.errorStatus = none) :
    ErrorsKept s (s.sendJson texts c r) ∨ ErrorSent s (s.sendJson texts c r) c texts 500 := by
  unfold sendJson
  split
  · exact .inl (ErrorsKept.sendReply s c hr)
  · exact .inr (ErrorSent.sendError s texts c 500 _ _)

end State

/-! ## Which calls of `send_error` there are -/

/-- The texts that are made in the step. -/
def Action.texts : Action → JsonTexts
  | .main (.http _ _ texts) => texts
  | .main (.go env) => env.texts
  | _ => {}

/-- The step is a request that is answered with 404. -/
def unrouted (srv : Server) (a : Action) : Prop :=
  ∃ c hm texts, a = .main (.http c hm texts) ∧ Unrouted srv.mg srv.cfg hm

/-- The step answers with a 400, 401, 405 or 503: the request is refused, the worker is busy, the
body is no request, or the prompt was too long. -/
def State.refuses (srv : Server) (s : State) : Action → Prop
  | .main (.http _ hm _) => TurnedDown srv.mg srv.cfg hm
  | .main (.go env) =>
      match s.main with
      | .busyLoad (.request _ _ _) j => (s.jobs j).state.isBusy = true
      | .alloc c type body =>
          env.callocOk = true ∧ srv.buildJob c type body env.requestId = none
      | .submit _ _ => ∃ k, s.currentJob = some k ∧ (s.jobs k).state.isBusy = true
      | .drainReply _ j jstate =>
          jstate = .error ∧ (s.jobs j).finishReason = .contextOverflow
      | _ => False
  | _ => False

/-- What a step has to do with `send_error`. -/
inductive ErrorCall (srv : Server) (s s' : State) (a : Action) : Prop
  | none (hkept : ErrorsKept s s') (hunrouted : ¬ unrouted srv a) (hrefuses : ¬ s.refuses srv a)
  | called (c : ConnId) (status : Nat) (hc : c < s.nextConn)
      (hsent : ErrorSent s s' c a.texts status) (hown : status ∈ ownStatuses ↔ s.refuses srv a)
      (hcase : status ∈ ownStatuses ∨ status = 500 ↔ ¬ unrouted srv a)

namespace State

variable {srv : Server} {s s' : State}

theorem not_unrouted_go (env : HandlerEnv) : ¬ unrouted srv (.main (.go env)) := by
  rintro ⟨c, hm, texts, heq, _⟩
  cases heq

/-- A step of a handler that calls `send_error` with a status of the `switch`. -/
theorem errorCall_refuses {env : HandlerEnv} {c : ConnId} (hc : c < s.nextConn) {t : State}
    (ht : ErrorsKept s t) {status : Nat} (hstatus : status ∈ ownStatuses)
    (hrefuses : s.refuses srv (.main (.go env))) (message type : String) :
    ErrorCall srv s ((t.sendError env.texts c status message type).goMain .poll)
      (.main (.go env)) := by
  have hsent := (ErrorSent.sendError t env.texts c status message type).after ht
  exact .called c status hc (hsent.trans ⟨rfl, fun _ => rfl, rfl⟩) (iff_of_true hstatus hrefuses)
    (iff_of_true (.inl hstatus) (not_unrouted_go env))

/-- A step of a handler that calls `send_error` with 500. -/
theorem errorCall_failed {env : HandlerEnv} {c : ConnId} (hc : c < s.nextConn)
    (hsent : ErrorSent s s' c env.texts 500) (hrefuses : ¬ s.refuses srv (.main (.go env))) :
    ErrorCall srv s s' (.main (.go env)) :=
  .called c 500 hc hsent (iff_of_false (by decide) hrefuses)
    (iff_of_true (.inr rfl) (not_unrouted_go env))

theorem evHttp_errorCall {c : ConnId} (hc : c < s.nextConn) (hm : HttpMessage)
    (texts : JsonTexts) :
    ErrorCall srv s (s.evHttp srv c hm texts) (.main (.http c hm texts)) := by
  have hunrouted : unrouted srv (.main (.http c hm texts)) ↔ Unrouted srv.mg srv.cfg hm := by
    constructor
    · rintro ⟨c', hm', texts', heq, hu⟩
      cases heq
      exact hu
    · exact fun hu => ⟨c, hm, texts, rfl, hu⟩
  have hstatus := @evHttpMsg_status srv.mg srv.cfg hm
  have hkept : ∀ {t : State}, ErrorsKept s t → ¬ TurnedDown srv.mg srv.cfg hm →
      ¬ Unrouted srv.mg srv.cfg hm → ErrorCall srv s t (.main (.http c hm texts)) :=
    fun ht hrefused hu => .none ht (hunrouted.not.2 hu) hrefused
  have hjson : ∀ {t : State} (body : Body), (Reply.mk 200 body).errorStatus = none →
      ErrorsKept s t → ¬ TurnedDown srv.mg srv.cfg hm → ¬ Unrouted srv.mg srv.cfg hm →
        ErrorCall srv s (t.sendJson texts c ⟨200, body⟩) (.main (.http c hm texts)) := by
    intro t body hbody ht hrefused hu
    rcases sendJson_errors t texts c hbody with hsame | hsent
    · exact hkept (ht.trans hsame) hrefused hu
    · exact .called c 500 hc (hsent.after ht) (iff_of_false (by decide) hrefused)
        (iff_of_true (.inr rfl) (hunrouted.not.2 hu))
  unfold evHttp
  cases hroute : evHttpMsg srv.mg srv.cfg hm with
  | error status message type =>
      rw [hroute] at hstatus
      exact .called c status hc (ErrorSent.sendError s texts c status message type) hstatus.1
        (hstatus.2.trans hunrouted.not.symm)
  | inference type =>
      rw [hroute] at hstatus
      exact hkept (busyRead_errors s _) hstatus.1 hstatus.2
  | whatIf =>
      rw [hroute] at hstatus
      exact hkept (ErrorsKept.sendReply s c rfl) hstatus.1 hstatus.2
  | health =>
      rw [hroute] at hstatus
      have hcount : ErrorsKept s { s with
          stats := { s.stats with reqHealth := s.stats.reqHealth + 1 } } := ⟨rfl, fun _ => rfl, rfl⟩
      exact hkept (hcount.trans (ErrorsKept.sendReply _ c rfl)) hstatus.1 hstatus.2
  | stats =>
      rw [hroute] at hstatus
      exact hjson .stats rfl ⟨rfl, fun _ => rfl, rfl⟩ hstatus.1 hstatus.2
  | models =>
      rw [hroute] at hstatus
      exact hjson (.models srv.modelId) rfl ⟨rfl, fun _ => rfl, rfl⟩ hstatus.1 hstatus.2

theorem allocJob_errorCall {c : ConnId} {type : JobType} {body : Bytes} {env : HandlerEnv}
    (hpc : s.main = .alloc c type body) (hc : c < s.nextConn) :
    ErrorCall srv s (s.allocJob srv c type body env) (.main (.go env)) := by
  have hrefuses : s.refuses srv (.main (.go env)) ↔
      env.callocOk = true ∧ srv.buildJob c type body env.requestId = none := by
    simp [refuses, hpc]
  have hcount : statsErrors (countRequest type s.stats) = statsErrors s.stats := by
    cases type <;> rfl
  unfold allocJob
  cases halloc : env.callocOk with
  | false =>
      have hsent := ErrorSent.sendError s env.texts c 500 "Internal error" "backend_error"
      exact errorCall_failed hc (hsent.trans ⟨rfl, fun _ => rfl, rfl⟩) (by simp [hrefuses, halloc])
  | true =>
      simp only [Bool.not_true, Bool.false_eq_true, if_false]
      cases hjob : srv.buildJob c type body env.requestId with
      | none =>
          -- the job is freed before the reply
          let t : State :=
            { s with nextJob := s.nextJob + 1, stats := countRequest type s.stats }.freeJob s.nextJob
          have hfree : ErrorsKept s t := ⟨rfl, fun _ => rfl, hcount⟩
          exact errorCall_refuses hc hfree (by decide) (hrefuses.2 ⟨halloc, hjob⟩) _ _
      | some job =>
          exact .none ⟨rfl, fun _ => rfl, hcount⟩ (not_unrouted_go env) (by simp [hrefuses, hjob])

theorem finalReply_cases (job : WorkerJob) (jstate : JobState) :
    (jstate = .error ∧ job.finishReason = .contextOverflow ∧
        finalReply job jstate =
          errorReply 400 "Prompt too long for context window" "invalid_request") ∨
      ¬ (jstate = .error ∧ job.finishReason = .contextOverflow) ∧
        (finalReply job jstate = errorReply 500 "Inference failed" "backend_error" ∨
          (finalReply job jstate).errorStatus = none) := by
  unfold finalReply
  by_cases hstate : jstate = .error
  · by_cases hover : job.finishReason = .contextOverflow <;> simp [hstate, hover]
  · -- a reply with a result is no error
    cases htype : job.type <;> simp [hstate, Reply.errorStatus]

theorem sendResult_error (s : State) (texts : JsonTexts) (c : ConnId) (status : Nat)
    (message type : String) :
    s.sendResult texts c (errorReply status message type) =
      s.sendError texts c status message type :=
  rfl

theorem sendResult_errors (s : State) (texts : JsonTexts) (c : ConnId) {r : Reply}
    (hr : r.errorStatus = none) :
    ErrorsKept s (s.sendResult texts c r) ∨ ErrorSent s (s.sendResult texts c r) c texts 500 := by
  have hjson : s.sendResult texts c r = s.sendJson texts c r := by
    unfold sendResult
    cases hbody : r.body <;> simp_all [Reply.errorStatus]
  rw [hjson]
  exact sendJson_errors s texts c hr

theorem drainReply_errorCall {c : ConnId} {j : JobId} {jstate : JobState} {env : HandlerEnv}
    (hpc : s.main = .drainReply c j jstate) (hc : c < s.nextConn) :
    ErrorCall srv s ((s.finalizeReply c j jstate env).goMain .poll) (.main (.go env)) := by
  have hrefuses : s.refuses srv (.main (.go env)) ↔
      jstate = .error ∧ (s.jobs j).finishReason = .contextOverflow := by
    simp [refuses, hpc]
  have hrest : ErrorsKept (s.sendResult env.texts c (finalReply (s.jobs j) jstate))
      ((s.finalizeReply c j jstate env).goMain .poll) := by
    constructor
    case sent =>
      intro k
      refine Conn.errorsSent_congr ?_
      by_cases hk : k = c <;> simp [finalizeReply, freeJob, hk]
    all_goals simp [finalizeReply, freeJob, statsErrors, countInference]
  rcases finalReply_cases (s.jobs j) jstate with
    ⟨hstate, hover, hreply⟩ | ⟨hnot, hreply | hnone⟩
  · rw [hreply, sendResult_error] at hrest
    have hsent := ErrorSent.sendError s env.texts c 400 "Prompt too long for context window"
      "invalid_request"
    exact .called c 400 hc (hsent.trans hrest)
      (iff_of_true (by decide) (hrefuses.2 ⟨hstate, hover⟩))
      (iff_of_true (.inl (by decide)) (not_unrouted_go env))
  · rw [hreply, sendResult_error] at hrest
    have hsent := ErrorSent.sendError s env.texts c 500 "Inference failed" "backend_error"
    exact errorCall_failed hc (hsent.trans hrest) (hrefuses.not.2 hnot)
  · rcases sendResult_errors s env.texts c hnone with hkept | hsent
    · exact .none (hkept.trans hrest) (not_unrouted_go env) (hrefuses.not.2 hnot)
    · exact errorCall_failed hc (hsent.trans hrest) (hrefuses.not.2 hnot)

theorem workerSubmit_refuses_iff (s : State) (j : JobId) :
    (s.workerSubmit j).1 = false ↔ ∃ k, s.currentJob = some k ∧ (s.jobs k).state.isBusy = true := by
  unfold workerSubmit
  cases hslot : s.currentJob with
  | none => simp
  | some k => cases hbusy : (s.jobs k).state.isBusy <;> simp [hbusy]

/-- A step of a handler calls `send_error` at most once. -/
theorem mainGo_errorCall {env : HandlerEnv} (h : s.mainGo srv env = some s')
    (hconn : ∀ c, s.main.conn = some c → c < s.nextConn) :
    ErrorCall srv s s' (.main (.go env)) := by
  have htouch : ∀ j, ErrorsKept s (s.touch j) := fun _ => ⟨rfl, fun _ => rfl, rfl⟩
  have hroute := @not_unrouted_go srv env
  revert h
  fun_cases mainGo s srv env <;> intro h <;> cases h
  case case1 caller k hpc =>
    cases caller with
    | report => exact .none ⟨rfl, fun _ => rfl, rfl⟩ hroute (by simp [refuses, hpc])
    | request c type body =>
        cases hbusy : (s.jobs k).state.isBusy with
        | false => exact .none ⟨rfl, fun _ => rfl, rfl⟩ hroute (by simp [refuses, hpc, hbusy])
        | true =>
            exact errorCall_refuses (hconn c (by rw [hpc]; rfl)) (htouch k) (by decide)
              (by simp [refuses, hpc, hbusy]) _ _
  case case2 c type body hpc => exact allocJob_errorCall hpc (hconn c (by rw [hpc]; rfl))
  case case3 c k hpc hacc =>
    have hnot : ¬ s.refuses srv (.main (.go env)) := by
      simp only [refuses, hpc, ← workerSubmit_refuses_iff s k, hacc]
      simp
    exact .none ((workerSubmit_errors s k).goMain _) hroute hnot
  case case4 c k hpc hacc =>
    have hfree : ErrorsKept s ((s.workerSubmit k).2.freeJob k) :=
      (workerSubmit_errors s k).trans ⟨rfl, fun _ => rfl, rfl⟩
    have hrefuses : s.refuses srv (.main (.go env)) := by
      simp only [refuses, hpc, ← workerSubmit_refuses_iff s k]
      simpa using hacc
    exact errorCall_refuses (hconn c (by rw [hpc]; rfl)) hfree (by decide) hrefuses _ _
  case case5 c k hpc =>
    have hkept : ErrorsKept s s := ⟨rfl, fun _ => rfl, rfl⟩
    exact .none ((hkept.updConn c fun _ => by rfl).goMain _) hroute (by simp [refuses, hpc])
  case case6 c k hpc hstream =>
    exact .none (((htouch k).updConn c fun _ => by rfl).goMain _) hroute (by simp [refuses, hpc])
  case case12 c k jstate hpc => exact drainReply_errorCall hpc (hconn c (by rw [hpc]; rfl))
  case case17 c k hpc =>
    have hfinal : ErrorsKept s (s.finalizeStream c k env) := by
      constructor
      case sent =>
        intro d
        refine Conn.errorsSent_congr ?_
        by_cases hd : d = c <;> simp [finalizeStream, sendEvents, freeJob, hd]
      all_goals simp [finalizeStream, sendEvents, freeJob, statsErrors, countInference]
    exact .none (hfinal.goMain _) hroute (by simp [refuses, hpc])
  case case20 c k hpc =>
    have hmark : ErrorsKept s ((s.touch k).updJob k fun r => { r with orphaned := true }) :=
      ⟨rfl, fun _ => rfl, rfl⟩
    exact .none ((hmark.updConn c fun _ => by rfl).goMain _) hroute (by simp [refuses, hpc])
  all_goals exact .none ⟨rfl, fun _ => rfl, rfl⟩ hroute (by simp [refuses, *])

end State

/-- In the step, `send_error` counts the status that it sends: a 404 becomes a 500 for want of a
text, a status of the `switch` does not. -/
def countsSentStatus (srv : Server) (s : State) (a : Action) : Prop :=
  (unrouted srv a → a.texts.error = false) ∧ (s.refuses srv a → a.texts.error = true)

theorem ErrorsCounted.init : ErrorsCounted State.init := by
  decide

/-- A step with at most one call of `send_error` keeps the counters right exactly if the call counts
what it sends. -/
theorem ErrorCall.counted_iff {srv : Server} {s s' : State} {a : Action}
    (h : ErrorCall srv s s' a) (hcounted : ErrorsCounted s) :
    ErrorsCounted s' ↔ countsSentStatus srv s a := by
  cases h with
  | none hkept hunrouted hrefuses =>
      exact iff_of_true (hkept.counted.2 hcounted)
        ⟨fun hu => absurd hu hunrouted, fun hr => absurd hr hrefuses⟩
  | called c status hc hsent hown hcase =>
      rw [hsent.counted hc hcounted, counterOf_eq_sentStatus_iff, hcase, hown]
      unfold countsSentStatus
      cases a.texts.error <;> simp

theorem ErrorsCounted.step_iff {srv : Server} {s s' : State} {a : Action} (h : ErrorsCounted s)
    (hinv : HandlerInv s) (hs : s.act srv a = some s') :
    ErrorsCounted s' ↔ countsSentStatus srv s a := by
  have hquiet : ∀ {b : Action}, ¬ unrouted srv b → ¬ s.refuses srv b → countsSentStatus srv s b :=
    fun hu hr => ⟨fun h => absurd h hu, fun h => absurd h hr⟩
  cases a with
  | signal =>
      cases hs
      exact iff_of_true h (hquiet (by rintro ⟨_, _, _, heq, _⟩; cases heq) id)
  | worker ch =>
      exact iff_of_true ((State.worker_frame hs).errors_kept.counted.2 h)
        (hquiet (by rintro ⟨_, _, _, heq, _⟩; cases heq) id)
  | main ch =>
      rcases State.mainStep_cases hs with ⟨env, rfl, hgo⟩ | ⟨_, hev⟩
      · exact (State.mainGo_errorCall hgo hinv.main).counted_iff h
      · by_cases hhttp : ∃ c hm texts, ch = .http c hm texts
        · rcases hhttp with ⟨c, hm, texts, rfl⟩
          obtain ⟨_, hready, rfl⟩ := State.act_http hs
          have hc := hinv.conns.openUsed c (State.isOpen_of_canReceive hready)
          exact (State.evHttp_errorCall hc hm texts).counted_iff h
        · have hnot : ¬ unrouted srv (.main ch) := by
            rintro ⟨c, hm, texts, heq, _⟩
            cases heq
            exact hhttp ⟨c, hm, texts, rfl⟩
          cases hev with
          | accept _ => exact iff_of_true ((s.evAccept_counted srv.cfg _).2 h) (hquiet hnot id)
          | http _ _ => exact absurd ⟨_, _, _, rfl⟩ hhttp
          | drop _ _ _ => exact iff_of_true h (hquiet hnot id)
          | serve _ _ _ _ => exact iff_of_true h (hquiet hnot id)
          | closeFree _ _ => exact iff_of_true ((s.evClose_errors _).counted.2 h) (hquiet hnot id)
          | closeBegin _ _ =>
              exact iff_of_true (((s.evClose_errors _).goMain _).counted.2 h) (hquiet hnot id)
          | report _ => exact iff_of_true ((s.busyRead_errors .report).counted.2 h) (hquiet hnot id)
          | leave _ _ => exact iff_of_true h (hquiet hnot id)

/-- Along a run the counters agree with the replies in all states exactly if each call of
`send_error` counts the status that it sends. -/
theorem errors_counted_iff (srv : Server) (as : List Action) :
    (system srv).AllStates ErrorsCounted State.init as ↔
      (system srv).AllSteps (countsSentStatus srv) State.init as :=
  allStates_iff_allSteps (I := HandlerInv) (fun _ _ _ hinv hs => hinv.step hs)
    (fun _ _ _ hinv h hr hs => (h.step_iff hinv hs).2 hr)
    (fun _ _ _ hinv h hr hs h' => hr ((h.step_iff hinv hs).1 h'))
    as State.init HandlerInv.init ErrorsCounted.init

namespace Sample

/-- `GET /favicon.ico` -/
def unknownUri : List Action :=
  [connect,
    .main (.http 0
      { method := ascii "GET", uri := ascii "/favicon.ico", headers := [], body := [] })]

theorem unknownUri_replays :
    ((system server).runGuarded Free State.init unknownUri).isSome = true := by
  decide

end Sample

/-- The 404 is counted as a backend error. -/
theorem not_errors_counted :
    ¬ ∀ (srv : Server) (s : State), (system srv).Reachable Free s → ErrorsCounted s := by
  intro hall
  have hcounted := hall Sample.server _ (reachable_of_isSome Sample.unknownUri_replays)
  revert hcounted
  decide

end Professord
