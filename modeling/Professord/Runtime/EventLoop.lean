import Professord.Runtime.State

/-!
# EventLoop — the steps of the main thread (`server.c`, `main.c`)

Events are handled one after the other; a handler is a sequence of steps between which the worker
may run.  After `g_shutdown_requested` the main thread leaves `server_run` and goes through
`server_destroy` (one close event per open connection), `worker_cancel` and `worker_destroy`.
-/

namespace Professord

/-- The parts of the program that requests depend on and that do not change while it runs. -/
structure Server where
  cfg : Config
  mg : Mongoose
  modelId : CBuf profModelMax
  parseChat : Bytes → Option ChatRequest
  parseCompletion : Bytes → Option CompletionRequest

/-- What the environment decides for one step of a handler. -/
structure HandlerEnv where
  callocOk : Bool := true
  latencyMs : Int := 0
  requestId : CBuf profIdMax := default
  texts : JsonTexts := {}
  deriving DecidableEq, Repr

inductive MainChoice
  | go (env : HandlerEnv)
  | accept (peer : Bytes)
  | http (c : ConnId) (hm : HttpMessage) (texts : JsonTexts := {})
  | wakeup (c : ConnId)
  | close (c : ConnId)
  /-- `server_run` updates `stats->generating` -/
  | report
  /-- `server_run` returns and `mg_mgr_free` begins -/
  | leave
  deriving DecidableEq, Repr

/-- The job that `submit_inference_job` builds from a parsed request, if it parses. -/
def Server.buildJob (srv : Server) (c : ConnId) (type : JobType) (body : Bytes)
    (requestId : CBuf profIdMax) : Option WorkerJob :=
  let job : WorkerJob :=
    { workerJobInit with
      type := type
      mgr := true
      wakeupId := c
      requestId := requestId
      modelId := srv.modelId }
  match type with
  | .chat =>
      (srv.parseChat body).map fun req =>
        { job with
          chatReq := req
          stream := req.stream
          params := inferenceResolveParams srv.cfg req }
  | .completion =>
      (srv.parseCompletion body).map fun req =>
        { job with
          compReq := req
          stream := req.stream
          params := inferenceResolveParamsCompletion srv.cfg req }

/-- `req_chat` or `req_completion` -/
def countRequest (type : JobType) (st : Stats) : Stats :=
  match type with
  | .chat => { st with reqChat := st.reqChat + 1 }
  | .completion => { st with reqCompletion := st.reqCompletion + 1 }

/-- The end of a streaming reply; without its text the final chunk is left out. -/
def finalEvents (job : WorkerJob) (texts : JsonTexts) : List SseEvent :=
  if texts.reply then [.final job.finishReason, .done] else [.done]

namespace State

variable (s : State)

/-- The status is counted before the text is made. -/
@[simps!]
def sendError (texts : JsonTexts) (c : ConnId) (status : Nat) (message type : String) : State :=
  { s with stats := countError status s.stats }.sendReply c (sentError texts status message type)

/-- A reply whose text is made with cJSON. -/
def sendJson (texts : JsonTexts) (c : ConnId) (r : Reply) : State :=
  if texts.reply then
    s.sendReply c r
  else
    s.sendError texts c 500 "Internal error" "backend_error"

/-- The reply of a finished job. -/
def sendResult (texts : JsonTexts) (c : ConnId) (r : Reply) : State :=
  match r.body with
  | .error status message type => s.sendError texts c status message type
  | _ => s.sendJson texts c r

@[simp] theorem sendJson_eq (texts : JsonTexts) (c : ConnId) (r : Reply) :
    s.sendJson texts c r =
      { s with stats := if texts.reply then s.stats else countError 500 s.stats }.sendReply c
        (if texts.reply then r else sentError texts 500 "Internal error" "backend_error") := by
  unfold sendJson
  cases texts.reply <;> rfl

@[simp] theorem sendResult_eq (texts : JsonTexts) (c : ConnId) (r : Reply) :
    s.sendResult texts c r =
      { s with stats := countSent texts r s.stats }.sendReply c (sentReply texts r) := by
  unfold sendResult sendJson countSent sentReply
  cases r.body with
  | error status message type => rfl
  | _ => cases texts.reply <;> rfl

/-! ## Accept and close -/

def evAccept (cfg : Config) (peer : Bytes) : State :=
  let c := s.nextConn
  let conn : Conn := { Conn.unused with isOpen := true }
  if cfg.acl ≠ [] ∧ aclAllows cfg.acl peer = false then
    -- dropped before the counter is incremented
    { s.updConn c fun _ => { conn with isClosing := true } with
      nextConn := c + 1
      stats := { s.stats with connectionsRejected := s.stats.connectionsRejected + 1 } }
  else
    let active := s.activeConnections + 1
    let overLimit := decide (active > profMaxConnections)
    -- over the limit the connection is counted all the same
    { s.updConn c fun _ => { conn with admitted := true, isClosing := overLimit } with
      nextConn := c + 1
      activeConnections := active
      stats :=
        { s.stats with
          connectionsTotal := s.stats.connectionsTotal + 1
          connectionsActive := active
          connectionsRejected := s.stats.connectionsRejected + if overLimit then 1 else 0 } }

/-- The accounting of `MG_EV_CLOSE`. -/
def evClose (c : ConnId) : State :=
  let active := if s.activeConnections > 0 then s.activeConnections - 1 else s.activeConnections
  { s.updConn c fun k => { k with isOpen := false } with
    activeConnections := active
    stats := { s.stats with connectionsActive := active } }

def noOpenConn : Bool :=
  (List.range s.nextConn).all fun c => !(s.conns c).isOpen

/-! ## HTTP messages -/

/-- mongoose delivers an HTTP message on `c`: it is open and has no unfinished reply. -/
def canReceive (c : ConnId) : Bool :=
  (s.conns c).isOpen && !(s.conns c).isClosing && !(s.conns c).isDraining &&
    (s.conns c).fnData == none

/-- The first access of a handler that calls `worker_is_busy`: read `w->current_job`. -/
def busyRead (caller : BusyCaller) : State :=
  match s.currentJob, caller with
  | some j, _ => s.goMain (.busyLoad caller j)
  | none, .request c type body => s.goMain (.alloc c type body)
  | none, .report => { s with stats := { s.stats with generating := false } }.goMain .poll

/-- `worker_is_busy` has read the state of job `j`. -/
def busyLoaded (caller : BusyCaller) (busy : Bool) (texts : JsonTexts) : State :=
  match caller with
  | .report => { s with stats := { s.stats with generating := busy } }.goMain .poll
  | .request c type body =>
      if busy then
        (s.sendError texts c 503 "Server busy, try again" "server_busy").goMain .poll
      else
        s.goMain (.alloc c type body)

def evHttp (srv : Server) (c : ConnId) (hm : HttpMessage) (texts : JsonTexts) : State :=
  match evHttpMsg srv.mg srv.cfg hm with
  | .error status message type => s.sendError texts c status message type
  | .whatIf => s.sendReply c ⟨200, .whatIf⟩
  | .health =>
      { s with stats := { s.stats with reqHealth := s.stats.reqHealth + 1 } }.sendReply c
        ⟨200, .health⟩
  | .stats => s.sendJson texts c ⟨200, .stats⟩
  | .models =>
      { s with stats := { s.stats with reqModels := s.stats.reqModels + 1 } }.sendJson texts c
        ⟨200, .models srv.modelId⟩
  | .inference type => s.busyRead (.request c type hm.body)

/-- `calloc` up to the parse of the request. -/
def allocJob (srv : Server) (c : ConnId) (type : JobType) (body : Bytes) (env : HandlerEnv) : State :=
  if !env.callocOk then
    (s.sendError env.texts c 500 "Internal error" "backend_error").goMain .poll
  else
    let j := s.nextJob
    -- the request is counted before it is parsed
    let s := { s with nextJob := j + 1, stats := countRequest type s.stats }
    match srv.buildJob c type body env.requestId with
    | none =>
        -- the job is freed without having been seen by the worker
        ((s.freeJob j).sendError env.texts c 400 "Invalid request body" "invalid_json").goMain
          .poll
    | some job => (s.updJob j fun _ => job).goMain (.submit c j)

/-- The section of `worker_submit` that installs the job. -/
def installJob (j : JobId) : State :=
  ({ s.touch j with currentJob := some j }.updJob j fun r =>
    { r with state := .idle, cancel := false }).updLog j fun l => { l with accepted := true }

/-- `worker_submit`: `false` means that the worker still has an unfinished job. -/
def workerSubmit (j : JobId) : Bool × State :=
  match s.currentJob with
  | some k =>
      if (s.jobs k).state.isBusy then
        (false, s.touch k)
      else
        -- a finished job in the slot is overwritten
        (true, (s.touch k).installJob j)
  | none => (true, s.installJob j)

/-! ## Draining -/

def sendEvents (j : JobId) (es : List SseEvent) : State :=
  s.updLog j fun l => { l with sent := l.sent ++ es }

/-- The non-streaming branch of `drain_stream_ring` once the job is finished. -/
def finalizeReply (c : ConnId) (j : JobId) (jstate : JobState) (env : HandlerEnv) : State :=
  let job := s.jobs j
  let s := s.sendResult env.texts c (finalReply job jstate)
  let s := { s with stats := countInference job env.latencyMs s.stats }
  (s.freeJob j).updConn c fun k => { k with fnData := none }

def finalizeStream (c : ConnId) (j : JobId) (env : HandlerEnv) : State :=
  let job := s.jobs j
  let s := s.sendEvents j (finalEvents job env.texts)
  let st := countInference job env.latencyMs s.stats
  let s := { s with stats := { st with reqStream := st.reqStream + 1 } }
  (s.freeJob j).updConn c fun k => { k with fnData := none, isDraining := true }

/-! ## The step function of the thread -/

def mainGo (srv : Server) (env : HandlerEnv) : Option State :=
  match s.main with
  | .busyLoad caller j =>
      some ((s.touch j).busyLoaded caller (s.jobs j).state.isBusy env.texts)
  | .alloc c type body => some (s.allocJob srv c type body env)
  | .submit c j =>
      if (s.workerSubmit j).1 then
        some ((s.workerSubmit j).2.goMain (.storeFnData c j))
      else
        some ((((s.workerSubmit j).2.freeJob j).sendError env.texts c 503
          "Server busy, try again" "server_busy").goMain .poll)
  | .storeFnData c j =>
      some ((s.updConn c fun k => { k with fnData := some j }).goMain (.sendHeaders c j))
  | .sendHeaders c j =>
      if (s.jobs j).stream then
        some (((s.touch j).updConn c fun k => { k with headersSent := true }).goMain .poll)
      else
        some ((s.touch j).goMain .poll)
  | .drainTest c j =>
      if (s.jobs j).stream then
        some ((s.touch j).goMain (.drainBatch c j))
      else
        some ((s.touch j).goMain (.drainLoad c j))
  | .drainLoad c j =>
      if (s.jobs j).state.isBusy then
        some ((s.touch j).goMain .poll)
      else
        some ((s.touch j).goMain (.drainReply c j (s.jobs j).state))
  | .drainReply c j jstate =>
      some ((s.finalizeReply c j jstate env).goMain .poll)
  | .drainBatch c j =>
      let batch := Professord.drainBatch (s.jobs j).ring
      -- keep draining while the batches are full
      let next := if batch.1.length = drainBatchMax then .drainBatch c j else .drainDone c j
      some ((((s.touch j).updJob j fun r => { r with ring := batch.2 }).sendEvents j
        (batch.1.map .token)).goMain next)
  | .drainDone c j =>
      some ((s.touch j).goMain
        (.drainState c j ((s.jobs j).ring.done && (s.jobs j).ring.isEmpty)))
  -- the state is loaded after the ring has been unlocked
  | .drainState c j done =>
      if done || !(s.jobs j).state.isBusy then
        some ((s.touch j).goMain (.drainFinal c j))
      else
        some ((s.touch j).goMain .poll)
  | .drainFinal c j =>
      some ((s.finalizeStream c j env).goMain .poll)
  | .closeCancel c j =>
      some (((s.touch j).updJob j fun r => { r with cancel := true }).goMain (.closeMgr c j))
  | .closeMgr c j =>
      some (((s.touch j).updJob j fun r => { r with mgr := false }).goMain (.closeOrphan c j))
  | .closeOrphan c j =>
      some ((((s.touch j).updJob j fun r => { r with orphaned := true }).updConn c fun k =>
        { k with fnData := none }).goMain .poll)
  | .workerCancel =>
      match s.currentJob with
      | none => some (s.goMain .workerDestroy)
      | some j =>
          some (((s.touch j).updJob j fun r => { r with cancel := true }).goMain .workerDestroy)
  | .workerDestroy => some ({ s with running := false }.goMain .workerJoin)
  | .workerJoin => if s.worker = .exited then some (s.goMain .finished) else none
  -- `mg_mgr_free` has closed every connection, `main` goes on with the worker
  | .poll => if s.destroying && s.noOpenConn then some (s.goMain .workerCancel) else none
  | .finished => none

def mainStep (srv : Server) : MainChoice → Option State
  | .go env => s.mainGo srv env
  | .accept peer =>
      if s.main = .poll ∧ s.destroying = false then some (s.evAccept srv.cfg peer) else none
  | .http c hm texts =>
      if s.main = .poll ∧ s.destroying = false ∧ s.canReceive c = true then
        some (s.evHttp srv c hm texts)
      else
        none
  | .wakeup c =>
      if s.main = .poll ∧ s.destroying = false ∧ c ∈ s.wakeups then
        let s := { s with wakeups := s.wakeups.erase c }
        -- a message for a connection without a job is ignored
        match (s.conns c).isOpen, (s.conns c).fnData with
        | true, some j => some (s.goMain (.drainTest c j))
        | _, _ => some s
      else
        none
  | .close c =>
      if s.main = .poll ∧ (s.conns c).isOpen = true then
        match (s.conns c).fnData with
        | none => some (s.evClose c)
        | some j => some ((s.evClose c).goMain (.closeCancel c j))
      else
        none
  | .report =>
      if s.main = .poll ∧ s.destroying = false then some (s.busyRead .report) else none
  | .leave =>
      if s.main = .poll ∧ s.destroying = false ∧ s.shutdownRequested = true then
        some { s with destroying := true }
      else
        none

/-! ## The events -/

/-- What an event does to the state, and what it requires besides an idle main thread. -/
inductive EventStep (srv : Server) : MainChoice → State → Prop
  | accept {peer : Bytes} (hserving : s.destroying = false) :
      EventStep srv (.accept peer) (s.evAccept srv.cfg peer)
  | http {c : ConnId} {hm : HttpMessage} {texts : JsonTexts} (hserving : s.destroying = false)
      (hready : s.canReceive c = true) :
      EventStep srv (.http c hm texts) (s.evHttp srv c hm texts)
  /-- nobody is served by the message -/
  | drop {c : ConnId} (hserving : s.destroying = false) (hsent : c ∈ s.wakeups)
      (hgone : (s.conns c).isOpen = false ∨ (s.conns c).fnData = none) :
      EventStep srv (.wakeup c) { s with wakeups := s.wakeups.erase c }
  | serve {c : ConnId} {j : JobId} (hserving : s.destroying = false) (hsent : c ∈ s.wakeups)
      (hopen : (s.conns c).isOpen = true) (hdata : (s.conns c).fnData = some j) :
      EventStep srv (.wakeup c) ({ s with wakeups := s.wakeups.erase c }.goMain (.drainTest c j))
  | closeFree {c : ConnId} (hopen : (s.conns c).isOpen = true)
      (hdata : (s.conns c).fnData = none) : EventStep srv (.close c) (s.evClose c)
  | closeBegin {c : ConnId} {j : JobId} (hopen : (s.conns c).isOpen = true)
      (hdata : (s.conns c).fnData = some j) :
      EventStep srv (.close c) ((s.evClose c).goMain (.closeCancel c j))
  | report (hserving : s.destroying = false) : EventStep srv .report (s.busyRead .report)
  | leave (hserving : s.destroying = false) (hrequested : s.shutdownRequested = true) :
      EventStep srv .leave { s with destroying := true }

variable {s} in
/-- A step of the main thread continues a handler, or is an event of the idle thread. -/
theorem mainStep_cases {srv : Server} {ch : MainChoice} {s' : State}
    (h : s.mainStep srv ch = some s') :
    (∃ env, ch = .go env ∧ s.mainGo srv env = some s') ∨
      s.main = .poll ∧ s.EventStep srv ch s' := by
  cases ch with
  | go env => exact .inl ⟨env, rfl, h⟩
  | accept peer =>
      obtain ⟨⟨hpoll, hserving⟩, hnext⟩ := Option.ite_none_right_eq_some.1 h
      cases hnext
      exact .inr ⟨hpoll, .accept hserving⟩
  | http c hm texts =>
      obtain ⟨⟨hpoll, hserving, hready⟩, hnext⟩ := Option.ite_none_right_eq_some.1 h
      cases hnext
      exact .inr ⟨hpoll, .http hserving hready⟩
  | wakeup c =>
      obtain ⟨⟨hpoll, hserving, hsent⟩, hnext⟩ := Option.ite_none_right_eq_some.1 h
      refine .inr ⟨hpoll, ?_⟩
      cases hopen : (s.conns c).isOpen with
      | false =>
          simp only [hopen, Option.some.injEq] at hnext
          exact hnext ▸ .drop hserving hsent (.inl hopen)
      | true =>
          cases hdata : (s.conns c).fnData with
          | none =>
              simp only [hopen, hdata, Option.some.injEq] at hnext
              exact hnext ▸ .drop hserving hsent (.inr hdata)
          | some j =>
              simp only [hopen, hdata, Option.some.injEq] at hnext
              exact hnext ▸ .serve hserving hsent hopen hdata
  | close c =>
      obtain ⟨⟨hpoll, hopen⟩, hnext⟩ := Option.ite_none_right_eq_some.1 h
      refine .inr ⟨hpoll, ?_⟩
      cases hdata : (s.conns c).fnData with
      | none =>
          simp only [hdata, Option.some.injEq] at hnext
          exact hnext ▸ .closeFree hopen hdata
      | some j =>
          simp only [hdata, Option.some.injEq] at hnext
          exact hnext ▸ .closeBegin hopen hdata
  | report =>
      obtain ⟨⟨hpoll, hserving⟩, hnext⟩ := Option.ite_none_right_eq_some.1 h
      cases hnext
      exact .inr ⟨hpoll, .report hserving⟩
  | leave =>
      obtain ⟨⟨hpoll, hserving, hrequested⟩, hnext⟩ := Option.ite_none_right_eq_some.1 h
      cases hnext
      exact .inr ⟨hpoll, .leave hserving hrequested⟩

end State

end Professord
