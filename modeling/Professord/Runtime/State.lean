import Professord.Inference.Params
import Professord.Server.Http
import Professord.Server.Reply
import Mathlib.Tactic.Simps.Basic

/-!
# State — the running server

The two threads are program counters into `worker_thread_func` and into the event loop; one step
of a thread is one mutex section or one access to a field that both threads use.  Jobs are never
reused as addresses, so freeing is a ghost count in `JobLog` and every access to a job goes
through `touch`, which records an access after a free.
-/

namespace Professord

/-! ## Program counters -/

/-- Where the worker thread is.  `wake` is `tokens_since_wake`. -/
inductive WorkerPc
  | waiting
  | setRunning (j : JobId)
  | dispatch (j : JobId)
  | generating (j : JobId) (wake : Nat)
  | cbEmptyTest (j : JobId) (wake : Nat) (text : Bytes)
  | cbRingWrite (j : JobId) (wake : Nat) (text : Bytes) (wasEmpty : Bool)
  | cbTestMgr (j : JobId) (wake : Nat) (wasEmpty : Bool)
  | cbWakeup (j : JobId)
  | ringDone (j : JobId) (rc : Int)
  | storeState (j : JobId) (rc : Int)
  | logDelivery (j : JobId)
  | clearCurrent (j : JobId)
  | testOrphaned (j : JobId)
  | freeOrphan (j : JobId)
  | testMgr (j : JobId)
  | finalWakeup (j : JobId)
  | exited
  deriving DecidableEq, Repr

/-- The job that the worker holds. -/
def WorkerPc.job : WorkerPc → Option JobId
  | .setRunning j | .dispatch j | .generating j _ | .cbEmptyTest j _ _ | .cbRingWrite j _ _ _
  | .cbTestMgr j _ _ | .cbWakeup j | .ringDone j _ | .storeState j _ | .logDelivery j
  | .clearCurrent j | .testOrphaned j | .freeOrphan j | .testMgr j | .finalWakeup j => some j
  | .waiting | .exited => none

/-- Who called `worker_is_busy`: a request on a connection, or `server_run` for its statistics. -/
inductive BusyCaller
  | request (c : ConnId) (type : JobType) (body : Bytes)
  | report
  deriving DecidableEq, Repr

/-- Where the main thread is.  `poll` is between two events of `mg_mgr_poll`. -/
inductive MainPc
  | poll
  | busyLoad (caller : BusyCaller) (j : JobId)
  | alloc (c : ConnId) (type : JobType) (body : Bytes)
  | submit (c : ConnId) (j : JobId)
  | storeFnData (c : ConnId) (j : JobId)
  | sendHeaders (c : ConnId) (j : JobId)
  | drainTest (c : ConnId) (j : JobId)
  | drainLoad (c : ConnId) (j : JobId)
  | drainReply (c : ConnId) (j : JobId) (jstate : JobState)
  | drainBatch (c : ConnId) (j : JobId)
  | drainDone (c : ConnId) (j : JobId)
  | drainState (c : ConnId) (j : JobId) (done : Bool)
  | drainFinal (c : ConnId) (j : JobId)
  | closeCancel (c : ConnId) (j : JobId)
  | closeMgr (c : ConnId) (j : JobId)
  | closeOrphan (c : ConnId) (j : JobId)
  | workerCancel
  | workerDestroy
  | workerJoin
  | finished
  deriving DecidableEq, Repr

/-- The job whose handler the main thread is in. -/
def MainPc.job : MainPc → Option JobId
  | .busyLoad _ j | .submit _ j | .storeFnData _ j | .sendHeaders _ j | .drainTest _ j
  | .drainLoad _ j | .drainReply _ j _ | .drainBatch _ j | .drainDone _ j | .drainState _ j _
  | .drainFinal _ j | .closeCancel _ j | .closeMgr _ j | .closeOrphan _ j => some j
  | .poll | .alloc _ _ _ | .workerCancel | .workerDestroy | .workerJoin | .finished => none

/-! ## Connections and ghost logs -/

structure Conn where
  isOpen : Bool
  isClosing : Bool
  isDraining : Bool
  /-- ghost: the connection passed the ACL test of `MG_EV_ACCEPT` -/
  admitted : Bool
  /-- `((conn_data_t *)c->fn_data)->job` -/
  fnData : Option JobId
  headersSent : Bool
  /-- ghost: the replies sent so far -/
  replies : List Reply

/-- A connection id that mongoose has not given out. -/
def Conn.unused : Conn :=
  ⟨false, false, false, false, none, false, []⟩

/-- What has happened to a job so far (ghost). -/
structure JobLog where
  /-- `worker_submit` returned 0 -/
  accepted : Bool
  /-- how often the worker took it from `current_job` -/
  started : Nat
  /-- the worker has made its last access -/
  left : Bool
  frees : Nat
  /-- the token texts that `ring_write` accepted -/
  written : List Bytes
  /-- the events sent to the client -/
  sent : List SseEvent
  deriving DecidableEq, Repr

def JobLog.fresh : JobLog :=
  ⟨false, 0, false, 0, [], []⟩

/-! ## The state -/

structure State where
  currentJob : Option JobId
  running : Bool
  jobs : JobId → WorkerJob
  nextJob : JobId
  conns : ConnId → Conn
  nextConn : ConnId
  /-- `mg_wakeup` messages in flight -/
  wakeups : List ConnId
  activeConnections : Nat
  stats : Stats
  shutdownRequested : Bool
  /-- `mg_mgr_free` has begun -/
  destroying : Bool
  worker : WorkerPc
  main : MainPc
  log : JobId → JobLog
  useAfterFree : Bool
  /-- `mg_wakeup` was called with a null manager or after `mg_mgr_free` had begun -/
  badWakeup : Bool

/-- After `worker_init` and `server_init`. -/
def State.init : State where
  currentJob := none
  running := true
  jobs := fun _ => workerJobInit
  nextJob := 0
  conns := fun _ => Conn.unused
  nextConn := 0
  wakeups := []
  activeConnections := 0
  stats := {}
  shutdownRequested := false
  destroying := false
  worker := .waiting
  main := .poll
  log := fun _ => JobLog.fresh
  useAfterFree := false
  badWakeup := false

namespace State

variable (s : State)

def freed (j : JobId) : Bool :=
  decide (0 < (s.log j).frees)

/-- An access to a field of job `j`. -/
@[simps]
def touch (j : JobId) : State :=
  { s with useAfterFree := s.useAfterFree || s.freed j }

@[simps]
def updJob (j : JobId) (f : WorkerJob → WorkerJob) : State :=
  { s with jobs := fun k => if k = j then f (s.jobs k) else s.jobs k }

@[simps]
def updLog (j : JobId) (f : JobLog → JobLog) : State :=
  { s with log := fun k => if k = j then f (s.log k) else s.log k }

@[simps]
def updConn (c : ConnId) (f : Conn → Conn) : State :=
  { s with conns := fun k => if k = c then f (s.conns k) else s.conns k }

@[simps]
def goWorker (pc : WorkerPc) : State :=
  { s with worker := pc }

@[simps]
def goMain (pc : MainPc) : State :=
  { s with main := pc }

/-- `worker_job_free(job); free(job);` -/
def freeJob (j : JobId) : State :=
  (s.touch j).updLog j fun l => { l with frees := l.frees + 1 }

/-- `mg_http_reply` -/
@[simps!]
def sendReply (c : ConnId) (r : Reply) : State :=
  s.updConn c fun k => { k with replies := k.replies ++ [r] }

/-- `mg_wakeup(job->mgr, job->wakeup_id, NULL, 0)`, where the manager pointer is read again. -/
def mgWakeup (j : JobId) : State :=
  { s.touch j with
    wakeups := if (s.jobs j).mgr then s.wakeups ++ [(s.jobs j).wakeupId] else s.wakeups
    badWakeup := s.badWakeup || !(s.jobs j).mgr || s.destroying }

end State

end Professord
