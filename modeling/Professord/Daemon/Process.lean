import Professord.Inference.Resources

/-!
# Process — `main` from the first resource to the last

What `main` takes on its way up and gives back on its way down or where a step fails, with the
worker thread beside it from `pthread_create` to `pthread_join`.  The PID file is a matter of its
own, and so are the jobs with their rings, which wander between the threads, and what the worker does
with the manager.
-/

namespace Professord

open CText ResourceEvent

/-! ## The parts of `main` -/

/-- What the configuration asks for, and how the steps end. -/
structure Startup where
  logLevel : Nat
  /-- a log file is configured -/
  logPath : Bool
  isatty : Bool
  daemonize : Bool
  aclCount : Nat
  fopen : Bool
  logMutexInit : Bool
  modelLoad : Bool
  contextInit : Bool
  chatTemplate : Bool
  /-- `daemon_daemonize`, as the process sees it that goes on -/
  daemonized : Bool
  pidfile : Bool
  workerMutexInit : Bool
  workerCondInit : Bool
  threadCreate : Bool
  httpListen : Bool

variable (o : Startup) (lg : Logger)

def loggerInitTrace : Option Logger × Trace :=
  if o.logPath && !o.fopen then
    (none, [])
  else
    let opened : Trace := if o.logPath then [.acquire .logFile] else []
    if !o.logMutexInit then
      (none, opened ++ if o.logPath then [.release .logFile] else [])
    else
      (some (loggerInit o.logLevel o.logPath false o.isatty), opened ++ [.acquire .logMutex])

def enableSyslogTrace : Trace :=
  [.use .logMutex] ++ (if !lg.useSyslog then [.acquire .syslog] else []) ++ [.use .logMutex]

def loggerDestroyTrace : Trace :=
  (if lg.logFile then [.release .logFile] else []) ++
    (if lg.useSyslog then [.release .syslog] else []) ++ [.release .logMutex]

def printBannerTrace : Trace :=
  (List.replicate 6 LogLevel.info).flatMap lg.trace

def inferenceInitTrace : Bool × Trace :=
  let started := [.acquire .backend] ++ lg.trace .info
  if !o.modelLoad then
    (false, started ++ lg.trace .fatal ++ [.release .backend])
  else
    let loaded := started ++ [.acquire .model, .use .model, .use .model]
    if !o.contextInit then
      (false, loaded ++ lg.trace .fatal ++ [.release .model, .release .backend])
    else
      (true, loaded ++ [.acquire .context, .use .model] ++
        lg.trace (if o.chatTemplate then .info else .warn) ++ lg.trace .info ++ [.use .context])

def inferenceDestroyTrace : Trace :=
  [.release .context, .release .model, .release .backend]

def workerInitTrace : Bool × Trace :=
  if !o.workerMutexInit then
    (false, [])
  else if !o.workerCondInit then
    (false, [.acquire .workerMutex, .release .workerMutex])
  else if !o.threadCreate then
    (false, [.acquire .workerMutex, .acquire .workerCond, .release .workerCond,
      .release .workerMutex])
  else
    (true, [.acquire .workerMutex, .acquire .workerCond, .acquire .workerThread])

def workerCancelTrace : Trace :=
  [.use .workerMutex, .use .workerMutex]

/-- `worker_destroy` up to `pthread_join`. -/
def workerStopTrace : Trace :=
  [.use .workerMutex, .use .workerCond, .use .workerMutex]

/-- `worker_destroy` from `pthread_join` on. -/
def workerJoinTrace : Trace :=
  [.release .workerThread, .release .workerCond, .release .workerMutex]

/-! ### The server -/

def serverInitTrace : Bool × Trace :=
  let opened : Trace := [.acquire .manager, .use .manager, .use .manager]
  if !o.httpListen then
    (false, opened ++ lg.trace .fatal)
  else
    (true, opened ++ lg.trace .info ++
      if o.aclCount > 0 then (List.replicate (o.aclCount + 1) LogLevel.info).flatMap lg.trace
      else [])

/-- What an event handler does, in any number and order. -/
inductive HandlerAct
  | mongoose
  | submit
  | busy
  | log (level : LogLevel)

def HandlerAct.trace : HandlerAct → Trace
  | .mongoose => [.use .manager]
  | .submit => [.use .workerMutex, .use .workerCond, .use .workerMutex]
  | .busy => [.use .workerMutex, .use .workerMutex]
  | .log level => lg.trace level

/-- `mg_mgr_poll` with its handlers, and whether the statistics are due behind it. -/
structure Poll where
  handlers : List HandlerAct
  report : Bool

def Poll.trace (poll : Poll) : Trace :=
  [.use .manager] ++ poll.handlers.flatMap (HandlerAct.trace lg) ++
    if poll.report then lg.trace .info else []

/-- `mg_mgr_free` closes all connections first. -/
def serverDestroyTrace (closing : List HandlerAct) : Trace :=
  closing.flatMap (HandlerAct.trace lg) ++ [.release .manager]

/-! ### `main` -/

/-- `main` may return before there is a worker thread; otherwise `beside` is what it does while
there is one. -/
inductive MainTrace
  | returned (tr : Trace)
  | served (lg : Logger) (before beside after : Trace)

/-- What `main` does beside the worker once the address is bound. -/
def servingTrace (polls : List Poll) (closing : List HandlerAct) : Trace :=
  lg.sinks ++ polls.flatMap (Poll.trace lg) ++ lg.trace .info ++ serverDestroyTrace lg closing ++
    workerCancelTrace ++ workerStopTrace

/-- `main` from step 10 on. -/
def mainTraceFromWorker (before : Trace) (polls : List Poll) (closing : List HandlerAct) :
    MainTrace :=
  match workerInitTrace o with
  | (false, tr) =>
      .returned (before ++ tr ++ lg.trace .fatal ++ inferenceDestroyTrace ++ loggerDestroyTrace lg)
  | (true, tr) =>
      match serverInitTrace o lg with
      | (false, tr') =>
          .served lg (before ++ tr) (tr' ++ lg.trace .fatal ++ workerStopTrace)
            (workerJoinTrace ++ inferenceDestroyTrace ++ loggerDestroyTrace lg)
      | (true, tr') =>
          .served lg (before ++ tr) (tr' ++ servingTrace lg polls closing)
            (workerJoinTrace ++ inferenceDestroyTrace ++ lg.trace .info ++ loggerDestroyTrace lg)

/-- `main` from step 6 on; what comes before takes nothing. -/
def mainTrace (polls : List Poll) (closing : List HandlerAct) : MainTrace :=
  match loggerInitTrace o with
  | (none, tr) => .returned tr
  | (some lg, tr) =>
      let tr := tr ++ printBannerTrace lg ++ lg.trace .info
      match inferenceInitTrace o lg with
      | (false, tr') => .returned (tr ++ tr' ++ lg.trace .fatal ++ loggerDestroyTrace lg)
      | (true, tr') =>
          if o.daemonize then
            if !o.daemonized then
              .returned (tr ++ tr' ++ lg.trace .info ++ lg.trace .fatal ++ inferenceDestroyTrace ++
                loggerDestroyTrace lg)
            else
              mainTraceFromWorker o lg.toSyslog
                (tr ++ tr' ++ lg.trace .info ++ enableSyslogTrace lg ++
                  if o.pidfile then [] else lg.toSyslog.trace .warn) polls closing
          else
            mainTraceFromWorker o lg (tr ++ tr') polls closing

/-- The events of the process: those of the worker come anywhere between its creation and the
join. -/
inductive MainTrace.Runs (worker : Logger → Trace) : MainTrace → Trace → Prop
  | returned (tr : Trace) : Runs worker (.returned tr) tr
  | served {lg : Logger} {before beside after tr : Trace} (h : Merge beside (worker lg) tr) :
      Runs worker (.served lg before beside after) (before ++ tr ++ after)

/-! ## What is held -/

def mainClaims : Claims Resource where
  own := {.logFile, .logMutex, .syslog, .backend, .model, .context, .workerMutex, .workerCond,
    .workerThread, .manager}
  shared := ∅
  ignored := ∅

/-- What `main` claims beside the worker. -/
def besideClaims : Claims Resource where
  own := {.manager}
  shared := {.logFile, .logMutex, .syslog, .workerMutex, .workerCond}
  ignored := ∅

/-- The claims of both threads. -/
def processClaims : Claims Resource where
  own := mainClaims.own ∪ workerClaims.own
  shared := besideClaims.shared ∪ workerClaims.shared
  ignored := workerClaims.ignored

/-- What the logger holds, on top of `S`. -/
def Logger.on (lg : Logger) (S : Finset Resource) : Finset Resource :=
  let S := insert .logMutex S
  let S := if lg.useSyslog then insert .syslog S else S
  if lg.logFile then insert .logFile S else S

def engineOn (S : Finset Resource) : Finset Resource :=
  insert .context (insert .model (insert .backend S))

def workerOn (S : Finset Resource) : Finset Resource :=
  insert .workerThread (insert .workerCond (insert .workerMutex S))

/-- What is left of the process: nothing, but for the manager of a server that could not listen. -/
def leftOver (o : Startup) : Finset Resource :=
  if o.httpListen then ∅ else {.manager}

variable {o lg} {S : Finset Resource}

theorem Logger.mem_on {r : Resource} : r ∈ lg.on S ↔
    r ∈ S ∨ r = .logMutex ∨ lg.useSyslog = true ∧ r = .syslog ∨
      lg.logFile = true ∧ r = .logFile := by
  rcases lg with ⟨level, file, stderr, syslog, color⟩
  cases file <;> cases syslog <;> simp [Logger.on] <;> tauto

theorem Logger.open_on (lg : Logger) (S : Finset Resource) : lg.Open (lg.on S) where
  mutex := Logger.mem_on.2 (.inr (.inl rfl))
  syslog hon := Logger.mem_on.2 (.inr (.inr (.inl ⟨hon, rfl⟩)))
  file hon := Logger.mem_on.2 (.inr (.inr (.inr ⟨hon, rfl⟩)))

/-- The logger leaves everything else alone. -/
theorem Logger.not_mem_on {r : Resource} (hr : r ∉ ({.logFile, .logMutex, .syslog} : Finset _))
    (hS : r ∉ S) : r ∉ lg.on S := by
  simp only [Finset.mem_insert, Finset.mem_singleton, not_or] at hr
  rw [Logger.mem_on]
  tauto

theorem Logger.Open.engineOn (h : lg.Open S) : lg.Open (engineOn S) :=
  ((h.insert .backend).insert .model).insert .context

theorem Logger.Open.workerOn (h : lg.Open S) : lg.Open (workerOn S) :=
  ((h.insert .workerMutex).insert .workerCond).insert .workerThread

/-- A line of `main`'s for the log. -/
theorem Logger.Open.log (h : lg.Open S) (level : LogLevel) :
    Traces mainClaims S (lg.trace level) S :=
  lg.traces_trace (by decide) h level

/-- The same while there is a worker. -/
theorem Logger.Open.logBeside (h : lg.Open S) (level : LogLevel) :
    Traces besideClaims S (lg.trace level) S :=
  lg.traces_trace (by decide) h level

/-! ## The parts of `main` are in order -/

theorem traces_loggerInit_none {tr : Trace} (h : loggerInitTrace o = (none, tr)) :
    Traces mainClaims ∅ tr ∅ := by
  unfold loggerInitTrace at h
  split_ifs at h <;> cases h
  · exact .nil _ _
  · exact .cons_acquire (by decide) (by decide) (.pop (by decide) (by decide) (.nil _ _))
  · exact .nil _ _

theorem traces_loggerInit_some {tr : Trace} (h : loggerInitTrace o = (some lg, tr)) :
    Traces mainClaims ∅ tr (lg.on ∅) ∧ lg.useSyslog = false := by
  have hfile : Traces mainClaims ∅ [.acquire .logFile] {.logFile} :=
    .acquire (by decide) (by decide)
  have hmutex (S : Finset Resource) (hS : .logMutex ∉ S) :
      Traces mainClaims S [.acquire .logMutex] (insert .logMutex S) :=
    .acquire (by decide) hS
  cases hpath : o.logPath <;> cases hopen : o.fopen <;> cases hinit : o.logMutexInit <;>
    simp only [loggerInitTrace, hpath, hopen, hinit] at h <;> cases h
  · exact ⟨hmutex ∅ (by decide), rfl⟩
  · exact ⟨hmutex ∅ (by decide), rfl⟩
  · refine ⟨hfile.append ?_, rfl⟩
    have hon : (loggerInit o.logLevel true false o.isatty).on ∅ =
        insert .logMutex {.logFile} :=
      Finset.insert_comm Resource.logFile .logMutex ∅
    rw [hon]
    exact hmutex _ (by decide)

theorem traces_loggerDestroy (hS : Disjoint S {.logFile, .logMutex, .syslog}) :
    Traces mainClaims (lg.on S) (loggerDestroyTrace lg) S := by
  simp only [Finset.disjoint_insert_right, Finset.disjoint_singleton_right] at hS
  obtain ⟨hfile, hmutex, hsyslog⟩ := hS
  have hlast : Traces mainClaims (insert .logMutex S) [.release .logMutex] S :=
    .pop (by decide) hmutex (.nil _ S)
  rcases lg with ⟨level, file, stderr, syslog, color⟩
  cases file <;> cases syslog
  · exact hlast
  · exact .pop (by decide) (by simp [hsyslog]) hlast
  · exact .pop (by decide) (by simp [hfile]) hlast
  · exact .pop (by decide) (by simp [hfile]) (.pop (by decide) (by simp [hsyslog]) hlast)

theorem traces_printBanner (h : lg.Open S) : Traces mainClaims S (printBannerTrace lg) S :=
  .flatMap fun level _ => h.log level

/-- The switch to syslog of a logger that has not used it. -/
theorem traces_enableSyslog (hoff : lg.useSyslog = false) :
    Traces mainClaims (engineOn (lg.on ∅)) (enableSyslogTrace lg) (engineOn (lg.toSyslog.on ∅)) := by
  have hmutex : ∀ {S : Finset Resource}, .logMutex ∈ S →
      Traces mainClaims S [.use .logMutex] S := fun hS => .use (by decide) hS
  have hon : insert .syslog (engineOn (lg.on ∅)) = engineOn (lg.toSyslog.on ∅) := by
    ext r
    simp only [engineOn, Finset.mem_insert, Logger.mem_on, Logger.toSyslog, hoff]
    tauto
  have hfree : .syslog ∉ engineOn (lg.on ∅) := by
    simp [engineOn, Logger.mem_on, hoff]
  have hopen := (lg.open_on ∅).engineOn
  rw [enableSyslogTrace, hoff, ← hon]
  exact ((hmutex hopen.mutex).append (.acquire (by decide) hfree)).append
    (hmutex (hopen.insert .syslog).mutex)

/-- `inference_init` up to the context. -/
theorem traces_modelLoad (hopen : lg.Open S) (hbackend : .backend ∉ S) (hmodel : .model ∉ S) :
    Traces mainClaims S ([.acquire .backend] ++ lg.trace .info ++
      [.acquire .model, .use .model, .use .model]) (insert .model (insert .backend S)) := by
  have huse : Traces mainClaims (insert .model (insert .backend S)) [.use .model]
      (insert .model (insert .backend S)) := .use (by decide) (Finset.mem_insert_self _ _)
  refine .append (.append (.acquire (by decide) hbackend) ((hopen.insert .backend).log .info)) ?_
  exact .cons_acquire (by decide) (by simp [hmodel]) (huse.append huse)

theorem traces_inferenceInit_false {tr : Trace} (h : inferenceInitTrace o lg = (false, tr))
    (hopen : lg.Open S) (hbackend : .backend ∉ S) (hmodel : .model ∉ S) :
    Traces mainClaims S tr S := by
  have hfail : Traces mainClaims (insert .backend S) [.release .backend] S :=
    .pop (by decide) hbackend (.nil _ S)
  have hopen' := hopen.insert .backend
  unfold inferenceInitTrace at h
  dsimp only at h
  split_ifs at h <;> cases h
  · exact (((Traces.acquire (by decide) hbackend).append (hopen'.log .info)).append
      (hopen'.log .fatal)).append hfail
  · exact ((traces_modelLoad hopen hbackend hmodel).append
      ((hopen'.insert .model).log .fatal)).append (.pop (by decide) (by simp [hmodel]) hfail)

theorem traces_inferenceInit_true {tr : Trace} (h : inferenceInitTrace o lg = (true, tr))
    (hopen : lg.Open S) (hbackend : .backend ∉ S) (hmodel : .model ∉ S) (hcontext : .context ∉ S) :
    Traces mainClaims S tr (engineOn S) := by
  have hopen' := hopen.engineOn
  have hmodel' : Traces mainClaims (engineOn S) [.use .model] (engineOn S) :=
    .use (by decide) (by simp [engineOn])
  have hcontext' : Traces mainClaims (engineOn S) [.use .context] (engineOn S) :=
    .use (by decide) (by simp [engineOn])
  unfold inferenceInitTrace at h
  dsimp only at h
  split_ifs at h <;> cases h
  all_goals
    exact ((((traces_modelLoad hopen hbackend hmodel).append
      (.cons_acquire (by decide) (by simp [hcontext]) hmodel')).append (hopen'.log _)).append
        (hopen'.log .info)).append hcontext'

theorem traces_inferenceDestroy (hbackend : .backend ∉ S) (hmodel : .model ∉ S)
    (hcontext : .context ∉ S) :
    Traces mainClaims (engineOn S) inferenceDestroyTrace S :=
  .pop (by decide) (by simp [hcontext]) (.pop (by decide) (by simp [hmodel])
    (.pop (by decide) hbackend (.nil _ S)))

theorem traces_workerInit_false {tr : Trace} (h : workerInitTrace o = (false, tr))
    (hmutex : .workerMutex ∉ S) (hcond : .workerCond ∉ S) : Traces mainClaims S tr S := by
  unfold workerInitTrace at h
  split_ifs at h <;> cases h
  · exact .nil _ S
  · exact .cons_acquire (by decide) hmutex (.pop (by decide) hmutex (.nil _ S))
  · exact .cons_acquire (by decide) hmutex (.cons_acquire (by decide) (by simp [hcond])
      (.pop (by decide) (by simp [hcond]) (.pop (by decide) hmutex (.nil _ S))))

theorem traces_workerInit_true {tr : Trace} (h : workerInitTrace o = (true, tr))
    (hmutex : .workerMutex ∉ S) (hcond : .workerCond ∉ S) (hthread : .workerThread ∉ S) :
    Traces mainClaims S tr (workerOn S) := by
  unfold workerInitTrace at h
  split_ifs at h <;> cases h
  exact .cons_acquire (by decide) hmutex (.cons_acquire (by decide) (by simp [hcond])
    (.acquire (by decide) (by simp [hthread])))

theorem traces_workerJoin (hmutex : .workerMutex ∉ S) (hcond : .workerCond ∉ S)
    (hthread : .workerThread ∉ S) : Traces mainClaims (workerOn S) workerJoinTrace S :=
  .pop (by decide) (by simp [hthread]) (.pop (by decide) (by simp [hcond])
    (.pop (by decide) hmutex (.nil _ S)))

/-! ## Beside the worker -/

/-- What the main thread needs as long as there is a worker. -/
structure Attending (lg : Logger) (S : Finset Resource) : Prop extends lg.Open S where
  workerMutex : .workerMutex ∈ S
  workerCond : .workerCond ∈ S

theorem Attending.insert (h : Attending lg S) (r : Resource) : Attending lg (insert r S) where
  toOpen := h.toOpen.insert r
  workerMutex := Finset.mem_insert_of_mem h.workerMutex
  workerCond := Finset.mem_insert_of_mem h.workerCond

theorem Attending.lock (h : Attending lg S) : Traces besideClaims S [.use .workerMutex] S :=
  .use (by decide) h.workerMutex

theorem Attending.stop (h : Attending lg S) : Traces besideClaims S workerStopTrace S :=
  h.lock.append (.cons_use (by decide) h.workerCond h.lock)

theorem traces_serverInit {listens : Bool} {tr : Trace}
    (h : serverInitTrace o lg = (listens, tr)) (hopen : lg.Open S) (hmanager : .manager ∉ S) :
    o.httpListen = listens ∧ Traces besideClaims S tr (insert .manager S) := by
  have hopen' := hopen.insert .manager
  have huse : Traces besideClaims (insert .manager S) [.use .manager] (insert .manager S) :=
    .use (by decide) (Finset.mem_insert_self _ _)
  have hopened : Traces besideClaims S [.acquire .manager, .use .manager, .use .manager]
      (insert .manager S) := .cons_acquire (by decide) hmanager (huse.append huse)
  unfold serverInitTrace at h
  dsimp only at h
  cases hlisten : o.httpListen <;> simp only [hlisten] at h <;> cases h
  · exact ⟨rfl, hopened.append (hopen'.logBeside .fatal)⟩
  · refine ⟨rfl, (hopened.append (hopen'.logBeside .info)).append ?_⟩
    exact .ite (fun _ => .flatMap fun level _ => hopen'.logBeside level) fun _ => .nil _ _

theorem Attending.handlerAct (h : Attending lg S) (hmanager : .manager ∈ S) (act : HandlerAct) :
    Traces besideClaims S (act.trace lg) S := by
  cases act with
  | mongoose => exact .use (by decide) hmanager
  | submit => exact h.stop
  | busy => exact h.lock.append h.lock
  | log level => exact h.toOpen.logBeside level

theorem Attending.poll (h : Attending lg S) (hmanager : .manager ∈ S) (poll : Poll) :
    Traces besideClaims S (poll.trace lg) S :=
  .append (.append (.use (by decide) hmanager) (.flatMap fun act _ => h.handlerAct hmanager act))
    (.ite (fun _ => h.toOpen.logBeside .info) fun _ => .nil _ S)

/-- From the bound address to the join: the manager is freed. -/
theorem traces_serving (h : Attending lg S) (hmanager : .manager ∉ S) (polls : List Poll)
    (closing : List HandlerAct) :
    Traces besideClaims (insert .manager S) (servingTrace lg polls closing) S := by
  have h' := h.insert .manager
  have hheld : .manager ∈ insert Resource.manager S := Finset.mem_insert_self _ _
  have hsinks : Traces besideClaims (insert .manager S) lg.sinks (insert .manager S) :=
    lg.traces_sinks (by decide) h'.toOpen
  have hpolls : Traces besideClaims (insert .manager S) (polls.flatMap (Poll.trace lg))
      (insert .manager S) := .flatMap fun poll _ => h'.poll hheld poll
  have hdestroy : Traces besideClaims (insert .manager S) (serverDestroyTrace lg closing) S :=
    .append (.flatMap fun act _ => h'.handlerAct hheld act)
      (.pop (by decide) hmanager (.nil _ S))
  exact ((((hsinks.append hpolls).append (h'.toOpen.logBeside .info)).append hdestroy).append
    (h.lock.append h.lock)).append h.stop

/-! ## The whole process -/

/-- `main` is in order: from nothing to what is left over, if the worker gives back all it takes. -/
def MainTrace.InOrder (left : Finset Resource) : MainTrace → Prop
  | .returned tr => Traces mainClaims ∅ tr ∅
  | .served lg before beside after =>
      ∃ S, Traces mainClaims ∅ before (workerOn (engineOn (lg.on ∅))) ∧
        Traces besideClaims (workerOn (engineOn (lg.on ∅))) beside S ∧
        Traces mainClaims S after left

section Down

variable {left : Finset Resource} (hleft : left ⊆ {.manager}) {r : Resource}

include hleft

theorem not_mem_loggerOn (hr : r ∉ ({.logFile, .logMutex, .syslog, .manager} : Finset Resource)) :
    r ∉ lg.on left := by
  simp only [Finset.mem_insert, Finset.mem_singleton, not_or] at hr
  refine lg.not_mem_on (by simp [hr]) fun hmem => ?_
  exact hr.2.2.2 (Finset.mem_singleton.1 (hleft hmem))

theorem not_mem_engineOn (hr : r ∉ ({.logFile, .logMutex, .syslog, .manager, .backend, .model,
    .context} : Finset Resource)) : r ∉ engineOn (lg.on left) := by
  simp only [Finset.mem_insert, Finset.mem_singleton, not_or] at hr
  simp only [engineOn, Finset.mem_insert, hr, false_or]
  exact not_mem_loggerOn hleft (by simp [hr])

theorem traces_workerDown :
    Traces mainClaims (workerOn (engineOn (lg.on left))) workerJoinTrace (engineOn (lg.on left)) :=
  traces_workerJoin (not_mem_engineOn hleft (by decide)) (not_mem_engineOn hleft (by decide))
    (not_mem_engineOn hleft (by decide))

theorem traces_engineDown :
    Traces mainClaims (engineOn (lg.on left)) inferenceDestroyTrace (lg.on left) :=
  traces_inferenceDestroy (not_mem_loggerOn hleft (by decide)) (not_mem_loggerOn hleft (by decide))
    (not_mem_loggerOn hleft (by decide))

theorem traces_loggerDown : Traces mainClaims (lg.on left) (loggerDestroyTrace lg) left := by
  refine traces_loggerDestroy ?_
  rw [Finset.disjoint_left]
  intro r hr hmem
  rw [Finset.mem_singleton.1 (hleft hr)] at hmem
  exact absurd hmem (by decide)

end Down

theorem insert_manager (lg : Logger) :
    insert Resource.manager (workerOn (engineOn (lg.on ∅))) =
      workerOn (engineOn (lg.on {.manager})) := by
  ext r
  simp only [workerOn, engineOn, Finset.mem_insert, Logger.mem_on, Finset.mem_singleton]
  tauto

/-- `main` from the start of the worker thread on, with the model loaded. -/
theorem inOrder_fromWorker {before : Trace}
    (h : Traces mainClaims ∅ before (engineOn (lg.on ∅))) (polls : List Poll)
    (closing : List HandlerAct) :
    (mainTraceFromWorker o lg before polls closing).InOrder (leftOver o) := by
  have hopen := (lg.open_on ∅).engineOn
  have hnone : (∅ : Finset Resource) ⊆ {.manager} := Finset.empty_subset _
  have hfree : ∀ r, r ∉ ({.logFile, .logMutex, .syslog, .manager, .backend, .model, .context} :
      Finset Resource) → r ∉ engineOn (lg.on ∅) := fun r => not_mem_engineOn hnone
  have hattending : Attending lg (workerOn (engineOn (lg.on ∅))) :=
    ⟨hopen.workerOn, by simp [workerOn], by simp [workerOn]⟩
  have hmanager : .manager ∉ workerOn (engineOn (lg.on ∅)) := by
    have hlogger := lg.not_mem_on (r := .manager) (by decide) (Finset.notMem_empty _)
    simpa [workerOn, engineOn] using hlogger
  unfold mainTraceFromWorker
  rcases hworker : workerInitTrace o with ⟨_ | _, tr⟩
  · -- the worker thread could not be started
    have hfailed := traces_workerInit_false hworker (hfree _ (by decide)) (hfree _ (by decide))
    exact (((h.append hfailed).append (hopen.log .fatal)).append
      (traces_engineDown hnone)).append (traces_loggerDown hnone)
  · have hall := traces_workerInit_true hworker (hfree _ (by decide)) (hfree _ (by decide))
      (hfree _ (by decide))
    rcases hserver : serverInitTrace o lg with ⟨_ | _, tr'⟩ <;>
      obtain ⟨hlisten, htr'⟩ := traces_serverInit hserver hattending.toOpen hmanager
    · -- the address could not be bound, and the manager is not freed
      have hall' := Finset.Subset.refl {Resource.manager}
      have hattending' := hattending.insert .manager
      rw [leftOver, hlisten, if_neg (by decide)]
      refine ⟨_, h.append hall,
        (htr'.append (hattending'.toOpen.logBeside .fatal)).append hattending'.stop, ?_⟩
      rw [insert_manager]
      exact ((traces_workerDown hall').append (traces_engineDown hall')).append
        (traces_loggerDown hall')
    · rw [leftOver, hlisten, if_pos rfl]
      refine ⟨_, h.append hall, htr'.append (traces_serving hattending hmanager polls closing), ?_⟩
      exact (((traces_workerDown hnone).append (traces_engineDown hnone)).append
        ((lg.open_on ∅).log .info)).append (traces_loggerDown hnone)

theorem inOrder_main (o : Startup) (polls : List Poll) (closing : List HandlerAct) :
    (mainTrace o polls closing).InOrder (leftOver o) := by
  have hnone : (∅ : Finset Resource) ⊆ {.manager} := Finset.empty_subset _
  unfold mainTrace
  rcases hlogger : loggerInitTrace o with ⟨_ | lg, tr⟩
  · exact traces_loggerInit_none hlogger
  · obtain ⟨hinit, hoff⟩ := traces_loggerInit_some hlogger
    have hopen := lg.open_on ∅
    have hup := (hinit.append (traces_printBanner hopen)).append (hopen.log .info)
    have hfree : ∀ r, r ∉ ({.logFile, .logMutex, .syslog, .manager} : Finset Resource) →
        r ∉ lg.on ∅ := fun r => not_mem_loggerOn hnone
    dsimp only
    rcases hengine : inferenceInitTrace o lg with ⟨_ | _, tr'⟩
    · have hfailed := traces_inferenceInit_false hengine hopen (hfree _ (by decide))
        (hfree _ (by decide))
      exact ((hup.append hfailed).append (hopen.log .fatal)).append (traces_loggerDown hnone)
    · have hup' := hup.append (traces_inferenceInit_true hengine hopen (hfree _ (by decide))
        (hfree _ (by decide)) (hfree _ (by decide)))
      have hopen' := hopen.engineOn
      dsimp only
      by_cases hdaemonize : o.daemonize = true
      · rw [if_pos hdaemonize]
        have hasked := hup'.append (hopen'.log .info)
        by_cases hfailed : (!o.daemonized) = true
        · rw [if_pos hfailed]
          exact ((hasked.append (hopen'.log .fatal)).append (traces_engineDown hnone)).append
            (traces_loggerDown hnone)
        · rw [if_neg hfailed]
          have hsyslog := (lg.toSyslog.open_on ∅).engineOn
          refine inOrder_fromWorker ((hasked.append (traces_enableSyslog hoff)).append ?_) polls
            closing
          exact .ite (fun _ => .nil _ _) fun _ => hsyslog.log .warn
      · rw [if_neg hdaemonize]
        exact inOrder_fromWorker hup' polls closing

/-- Whatever fails on the way up, and whatever jobs the worker runs beside the server: everything
the process takes, but for the manager, is in use only between being taken and being given back, and
is given back exactly once. -/
theorem everything_given_back {σ χ : Type} {L : Llama σ χ} {count : Bytes → Nat}
    (htok : L.CountsTokens count) {eng : Engine} (hbatch : 1 ≤ eng.nBatch) {fuel : Nat}
    (hfuel : eng.nCtx ≤ fuel) (o : Startup) (polls : List Poll) (closing : List HandlerAct)
    (lastWaits : Nat) (runs : List WorkerRun) (ctx : σ) {tr : Trace}
    (h : (mainTrace o polls closing).Runs
      (fun lg => workerTrace lg L eng fuel lastWaits runs ctx) tr)
    (r : Resource) (hr : r ≠ .manager) : Sessions r tr := by
  have horder := inOrder_main o polls closing
  have hleft : r ∉ leftOver o := by
    unfold leftOver
    split
    · exact Finset.notMem_empty r
    · exact fun hmem => hr (Finset.mem_singleton.1 hmem)
  have hcounted : r ∉ processClaims.ignored := fun hmem => hr (Finset.mem_singleton.1 hmem)
  generalize mainTrace o polls closing = m at h horder
  cases h with
  | returned tr =>
      exact horder.sessions (Finset.notMem_empty r) (Finset.notMem_empty r) (Finset.notMem_empty r)
  | @served lg before beside after tr hmerge =>
      obtain ⟨S, hbefore, hbeside, hafter⟩ := horder
      have hworker : Traces workerClaims (workerOn (engineOn (lg.on ∅)))
          (workerTrace lg L eng fuel lastWaits runs ctx) (workerOn (engineOn (lg.on ∅))) := by
        have hready : Ready lg (workerOn (engineOn (lg.on ∅))) :=
          ⟨(lg.open_on ∅).engineOn.workerOn, by simp [workerOn, engineOn],
            by simp [workerOn, engineOn]⟩
        have hfree : ∀ r ∈ workerClaims.own, r ∉ workerOn (engineOn (lg.on ∅)) := by
          intro r hr
          have hengine : r ∉ engineOn (lg.on ∅) :=
            not_mem_engineOn (Finset.empty_subset _) (by revert r; decide)
          simp only [workerOn, Finset.mem_insert, not_or]
          refine ⟨?_, ?_, ?_, hengine⟩ <;> rintro rfl <;> exact absurd hr (by decide)
        have hidle : Idle (workerOn (engineOn (lg.on ∅))) :=
          ⟨hfree _ (by decide), hfree _ (by decide), hfree _ (by decide), hfree _ (by decide)⟩
        exact traces_worker htok hbatch hfuel hready hidle (by simp [workerOn]) (by simp [workerOn])
          lastWaits runs ctx
      have hboth := hbeside.beside hworker (by decide) (by decide) hmerge
      have hwhole : Traces processClaims ∅ (before ++ tr ++ after) (leftOver o) :=
        ((hbefore.mono (by decide) (by decide) (by decide)).append
          (hboth.mono (by decide) (by decide) (by decide))).append
            (hafter.mono (by decide) (by decide) (by decide))
      exact hwhole.sessions hcounted (Finset.notMem_empty r) hleft

namespace Sample

/-- A daemon with a log file, and everything works. -/
def launch : Startup where
  logLevel := 2
  logPath := true
  isatty := false
  daemonize := true
  aclCount := 0
  fopen := true
  logMutexInit := true
  modelLoad := true
  contextInit := true
  chatTemplate := false
  daemonized := true
  pidfile := true
  workerMutexInit := true
  workerCondInit := true
  threadCreate := true
  httpListen := true

/-- The worker runs one job. -/
def oneRun : List WorkerRun :=
  [{ waits := 1, env := calm, job := jobFor (ascii "x"), wakes := fun _ => false,
     orphaned := false, mgr := true }]

def launchWorker (lg : Logger) : Trace :=
  workerTrace lg saysHi engine 4096 1 oneRun default

/-- The token block is taken and given back by the one job. -/
theorem everything_given_back_oneRun :
    ∃ tr, (mainTrace launch [⟨[.mongoose, .submit], true⟩] [.log .warn]).Runs launchWorker tr ∧
      Sessions .tokens tr ∧ .acquire .tokens ∈ tr := by
  have hruns : (mainTrace launch [⟨[.mongoose, .submit], true⟩] [.log .warn]).Runs launchWorker _ :=
    .served (Merge.inTurn _ _)
  refine ⟨_, hruns, ?_, ?_⟩
  · exact everything_given_back (byteModel_countsTokens _ _) (by decide) (by decide) launch _ _ 1
      oneRun default hruns .tokens (by decide)
  · have htaken : .acquire .tokens ∈ launchWorker (loggerInit 2 true false false).toSyslog := by
      decide +kernel
    exact List.mem_append_left _ (List.mem_append_right _ (List.mem_append_right _ htaken))

end Sample

end Professord
