import Professord.Runtime.Connections

/-!
# RequestTotal — the request total of `stats_report`

The total adds `req_chat`, `req_completion` and `req_stream`.  The first two are counted when a
request has been admitted and allocated, the third when a streaming reply has been finalised, so
that a finished streaming request is in the total twice.
-/

namespace Professord

open GuardedSystem CText

/-! ## What the total should count -/

/-- `req_total` -/
def Stats.reqTotal (st : Stats) : Int :=
  st.reqChat + st.reqCompletion + st.reqStream

/-- The request has been admitted and its job is not yet allocated. -/
def MainPc.allocates : MainPc → Bool
  | .alloc _ _ _ => true
  | _ => false

/-- A step at which `submit_inference_job` finds the worker free. -/
def admits (s : State) (_ : Action) (s' : State) : Bool :=
  !s.main.allocates && s'.main.allocates

/-- A step at which a streaming reply is finalised. -/
def streamEnds (s : State) (a : Action) : Bool :=
  match a, s.main with
  | .main (.go _), .drainFinal _ _ => true
  | _, _ => false

/-- A step at which a `calloc` of `submit_inference_job` fails. -/
def allocFails (s : State) (a : Action) : Bool :=
  match a, s.main with
  | .main (.go env), .alloc _ _ _ => !env.callocOk
  | _, _ => false

/-- The step neither ends a streaming reply nor fails to allocate a job. -/
def countsOnce (s : State) (a : Action) : Bool :=
  !streamEnds s a && !allocFails s a

def indicator (b : Bool) : Int :=
  if b then 1 else 0

@[simp] theorem indicator_true : indicator true = 1 :=
  rfl

@[simp] theorem indicator_false : indicator false = 0 :=
  rfl

/-- How many requests a run has admitted. -/
def admissions (srv : Server) (as : List Action) : Int :=
  (system srv).sumSteps (fun s a s' => indicator (admits s a s')) State.init as

/-- The main thread is between two events, and every job has ended or been freed. -/
structure State.Quiescent (s : State) : Prop where
  poll : s.main = .poll
  jobs : ∀ j < s.nextJob, 0 < (s.log j).frees ∨ (s.jobs j).state.isBusy = false

instance (s : State) : Decidable s.Quiescent :=
  decidable_of_iff
    (s.main = .poll ∧ ∀ j < s.nextJob, 0 < (s.log j).frees ∨ (s.jobs j).state.isBusy = false)
    ⟨fun h => ⟨h.1, h.2⟩, fun h => ⟨h.poll, h.jobs⟩⟩

/-! ## One step -/

/-- The total together with the request that is admitted but not yet counted. -/
def State.counted (s : State) : Int :=
  s.stats.reqTotal + indicator s.main.allocates

/-- What a step changes of `counted`. -/
def countedChange (s : State) (a : Action) (s' : State) : Int :=
  indicator (admits s a s') + indicator (streamEnds s a) - indicator (allocFails s a)

@[simp] theorem reqTotal_countError (status : Nat) (st : Stats) :
    (countError status st).reqTotal = st.reqTotal := by
  unfold countError
  split <;> rfl

@[simp] theorem reqTotal_countSent (texts : JsonTexts) (r : Reply) (st : Stats) :
    (countSent texts r st).reqTotal = st.reqTotal := by
  unfold countSent
  split
  · exact reqTotal_countError _ st
  · split
    · rfl
    · exact reqTotal_countError 500 st

@[simp] theorem reqTotal_countInference (job : WorkerJob) (latency : Int) (st : Stats) :
    (countInference job latency st).reqTotal = st.reqTotal :=
  rfl

@[simp] theorem reqTotal_generating (st : Stats) (b : Bool) :
    ({ st with generating := b } : Stats).reqTotal = st.reqTotal :=
  rfl

@[simp] theorem reqTotal_reqStream (st : Stats) :
    ({ st with reqStream := st.reqStream + 1 } : Stats).reqTotal = st.reqTotal + 1 := by
  simp only [Stats.reqTotal]
  omega

theorem reqTotal_countRequest (type : JobType) (st : Stats) :
    (countRequest type st).reqTotal = st.reqTotal + 1 := by
  cases type <;> simp only [countRequest, Stats.reqTotal] <;> omega

namespace State

variable {srv : Server} {s s' : State}

/-- A step that is neither an admission nor one of the two others, and counts nothing. -/
theorem counted_of_kept {a : Action} (htotal : s'.stats.reqTotal = s.stats.reqTotal)
    (hmain : s'.main.allocates = s.main.allocates) (hplain : countsOnce s a = true) :
    s'.counted = s.counted + countedChange s a s' := by
  simp only [countsOnce, Bool.and_eq_true, Bool.not_eq_true'] at hplain
  have hadmits : admits s a s' = false := by simp [admits, hmain]
  simp [counted, countedChange, htotal, hmain, hadmits, hplain.1, hplain.2]

/-- Only the steps of a handler are not plain. -/
theorem countsOnce_of_poll {a : Action} (h : s.main = .poll) : countsOnce s a = true := by
  simp [countsOnce, streamEnds, allocFails, h]

theorem busyRead_counted {a : Action} (h : s.main = .poll) (caller : BusyCaller) :
    (s.busyRead caller).counted = s.counted + countedChange s a (s.busyRead caller) := by
  cases hslot : s.currentJob <;> cases caller <;>
    simp [busyRead, hslot, h, counted, countedChange, admits, streamEnds, allocFails,
      MainPc.allocates]

theorem allocJob_counted {c : ConnId} {type : JobType} {body : Bytes} {env : HandlerEnv}
    (h : s.main = .alloc c type body) :
    (s.allocJob srv c type body env).counted =
      s.counted + countedChange s (.main (.go env)) (s.allocJob srv c type body env) := by
  cases hok : env.callocOk with
  | false =>
      simp [allocJob, hok, h, counted, countedChange, admits, streamEnds, allocFails,
        MainPc.allocates]
  | true =>
      cases hjob : srv.buildJob c type body env.requestId <;>
        simp [allocJob, hok, hjob, h, counted, countedChange, admits, streamEnds, allocFails,
          MainPc.allocates, freeJob, reqTotal_countRequest]

theorem mainGo_counted {env : HandlerEnv} (h : s.mainGo srv env = some s') :
    s'.counted = s.counted + countedChange s (.main (.go env)) s' := by
  revert h
  fun_cases mainGo s srv env <;> intro h <;> cases h
  case case1 caller k hpc =>
    cases caller <;> cases hbusy : (s.jobs k).state.isBusy <;>
      simp [busyLoaded, hpc, counted, countedChange, admits, streamEnds, allocFails,
        MainPc.allocates]
  case case2 c type body hpc => exact allocJob_counted hpc
  case case17 c k hpc =>
    simp [finalizeStream, sendEvents, freeJob, hpc, counted, countedChange, admits, streamEnds,
      allocFails, MainPc.allocates]
  case case13 c k hpc batch next =>
    have hnext : next.allocates = false := by
      simp only [next]
      split <;> rfl
    refine counted_of_kept rfl ?_ ?_
    · simpa [hpc, MainPc.allocates] using hnext
    · simp [countsOnce, streamEnds, allocFails, hpc]
  all_goals
    have hpc := ‹s.main = _›
    refine counted_of_kept ?_ ?_ ?_
    · simp [finalizeReply, freeJob]
    · simp [hpc, MainPc.allocates]
    · simp [countsOnce, streamEnds, allocFails, hpc]

/-- Every step changes the total as the requests that it admits and finalises, but for the streams
that are counted again and the allocations that fail. -/
theorem act_counted {a : Action} (h : s.act srv a = some s') :
    s'.counted = s.counted + countedChange s a s' := by
  cases a with
  | signal =>
      cases h
      exact counted_of_kept rfl rfl (by simp [countsOnce, streamEnds, allocFails])
  | worker ch =>
      have hframe := worker_frame h
      refine counted_of_kept (by rw [hframe.stats]) (by rw [hframe.main]) ?_
      simp [countsOnce, streamEnds, allocFails]
  | main ch =>
      rcases mainStep_cases h with ⟨env, rfl, hgo⟩ | ⟨hpoll, hev⟩
      · exact mainGo_counted hgo
      · have hplain : countsOnce s (.main ch) = true := countsOnce_of_poll hpoll
        have hallocates : s.main.allocates = false := by simp [hpoll, MainPc.allocates]
        cases hev with
        | accept _ =>
            refine counted_of_kept ?_ ?_ hplain
            · unfold evAccept
              split <;> rfl
            · unfold evAccept
              split <;> rfl
        | http _ _ =>
            unfold evHttp
            split
            case h_6 => exact busyRead_counted hpoll _
            case h_4 | h_5 =>
              rw [sendJson_eq]
              refine counted_of_kept ?_ rfl hplain
              simp only [sendReply_stats]
              split
              · rfl
              · exact reqTotal_countError 500 _
            case h_1 => exact counted_of_kept (by simp) rfl hplain
            all_goals exact counted_of_kept rfl rfl hplain
        | drop _ _ _ => exact counted_of_kept rfl rfl hplain
        | serve _ _ _ _ => exact counted_of_kept rfl hallocates.symm hplain
        | closeFree _ _ => exact counted_of_kept rfl rfl hplain
        | closeBegin _ _ => exact counted_of_kept rfl hallocates.symm hplain
        | report _ => exact busyRead_counted hpoll .report
        | leave _ _ => exact counted_of_kept rfl rfl hplain

end State

/-! ## Whole runs -/

/-- The total exceeds the admitted requests by the streams that have ended, and falls short of them
by the allocations that have failed. -/
theorem reqTotal_eq (srv : Server) {as : List Action} {s : State}
    (hrun : (system srv).runGuarded Free State.init as = some s) (hpoll : s.main = .poll) :
    s.stats.reqTotal +
        (system srv).sumSteps (fun s a _ => indicator (allocFails s a)) State.init as =
      admissions srv as +
        (system srv).sumSteps (fun s a _ => indicator (streamEnds s a)) State.init as := by
  have hchange : ∀ s a s', Free s a → (system srv).step s a = some s' →
      s'.counted = s.counted + countedChange s a s' :=
    fun s a s' _ hs => State.act_counted hs
  have hcounted := sumSteps_eq hchange as hrun
  have hsplit : ∀ s a s', countedChange s a s' + indicator (allocFails s a) =
      indicator (admits s a s') + indicator (streamEnds s a) := by
    intro s a s'
    unfold countedChange
    omega
  have htotal : s.stats.reqTotal = (system srv).sumSteps countedChange State.init as := by
    simpa [State.counted, hpoll, MainPc.allocates, State.init, Stats.reqTotal] using hcounted
  rw [htotal, admissions, ← sumSteps_add, ← sumSteps_add]
  simp only [hsplit]

/-- A run that ends no stream and in which every allocation succeeds has counted the requests that
it admitted, each once. -/
theorem request_total_once (srv : Server) {as : List Action} {s : State}
    (hrun : (system srv).runGuarded (fun s a => countsOnce s a = true) State.init as = some s)
    (hquiet : s.Quiescent) : s.stats.reqTotal = admissions srv as := by
  have hchange : ∀ s a s', countsOnce s a = true → (system srv).step s a = some s' →
      s'.counted = s.counted + indicator (admits s a s') := by
    intro s a s' honce hs
    simp only [countsOnce, Bool.and_eq_true, Bool.not_eq_true'] at honce
    simpa [countedChange, honce.1, honce.2] using State.act_counted hs
  have hcounted := sumSteps_eq hchange as hrun
  simpa [State.counted, hquiet.poll, MainPc.allocates, State.init, Stats.reqTotal, admissions]
    using hcounted

namespace Sample

/-- A request without streaming, from its arrival to its reply. -/
def plainRequest : List Action :=
  [connect, post 0 plainBody, main, main, main, main, work, work, work, .worker (.ret 0), work,
    work, work, work, work, work, .main (.wakeup 0), main, main, main]

theorem plainRequest_replays :
    ((system server).runGuarded (fun s a => countsOnce s a = true) State.init
      plainRequest).isSome = true := by
  decide

def afterPlainRequest : State :=
  ((system server).runGuarded (fun s a => countsOnce s a = true) State.init plainRequest).get
    plainRequest_replays

theorem request_total_once_plainRequest :
    afterPlainRequest.stats.reqTotal = admissions server plainRequest ∧
      admissions server plainRequest = 1 :=
  ⟨request_total_once server (Option.some_get _).symm (by decide), by decide⟩

/-- The same request with streaming. -/
def streamedRequest : List Action :=
  [connect, post 0 streamBody, main, main, main, main, work, work, work, .worker (.ret 0), work,
    work, work, work, work, work, work, .main (.wakeup 0), main, main, main, main, main]

theorem streamedRequest_replays :
    ((system server).runGuarded Free State.init streamedRequest).isSome = true := by
  decide

def afterStreamedRequest : State :=
  ((system server).runGuarded Free State.init streamedRequest).get streamedRequest_replays

end Sample

/-- The streamed request is counted at its submission and again at its end. -/
theorem not_request_total_once :
    ¬ ∀ (srv : Server) (as : List Action) (s : State),
        (system srv).runGuarded Free State.init as = some s → s.Quiescent →
          s.stats.reqTotal = admissions srv as := by
  intro hall
  have htotal := hall Sample.server Sample.streamedRequest Sample.afterStreamedRequest
    (Option.some_get _).symm (by decide)
  revert htotal
  decide

end Professord
