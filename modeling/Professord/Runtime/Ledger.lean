import Professord.Runtime.Answers
import Professord.Runtime.RequestTotal
import Professord.Runtime.Results
import Mathlib.Algebra.BigOperators.Group.Finset.Basic
import Mathlib.Data.Finset.Option

/-!
# Ledger — the inference statistics say what happened

`drain_stream_ring` adds up the jobs it reports, their tokens and their streams in counters that
nothing else ties to the jobs.  The counters are at any time the sums over the jobs that have been
reported, each once, of what their records say (`State.ledger`); and every request that was counted
has a job.
-/

namespace Professord

open GuardedSystem Lifecycle

/-! ## The counters and the jobs -/

/-- The counters that are updated when a job is reported. -/
@[ext] structure Books where
  inferences : Int
  prompt : Int
  completion : Int
  streams : Int

def Stats.books (st : Stats) : Books where
  inferences := st.inferencesTotal
  prompt := st.tokensPromptTotal
  completion := st.tokensCompletionTotal
  streams := st.reqStream

/-- The books with one more job in them. -/
def Books.add (b : Books) (r : JobResult) : Books where
  inferences := b.inferences + 1
  prompt := b.prompt + r.promptTokens
  completion := b.completion + r.completionTokens
  streams := b.streams + indicator r.stream

namespace State

variable (s : State)

/-- The client has been sent the final reply of the job. -/
def reported (j : JobId) : Prop :=
  (s.log j).accepted = true ∧ s.finalised j

instance (j : JobId) : Decidable (s.reported j) :=
  decidable_of_iff ((s.log j).accepted = true ∧ (s.log j).frees = 1 ∧ (s.jobs j).orphaned = false)
    Iff.rfl

def reportedJobs : Finset JobId :=
  (Finset.range s.nextJob).filter s.reported

/-- What the records of the reported jobs add up to. -/
def ledger : Books where
  inferences := s.reportedJobs.card
  prompt := ∑ j ∈ s.reportedJobs, (s.jobs j).result.promptTokens
  completion := ∑ j ∈ s.reportedJobs, (s.jobs j).result.completionTokens
  streams := ∑ j ∈ s.reportedJobs, indicator (s.jobs j).result.stream

/-- The job that a step reports. -/
def reports (a : Action) : Option JobId :=
  match a, s.main with
  | .main (.go _), .drainReply _ j _ => some j
  | .main (.go _), .drainFinal _ j => some j
  | _, _ => none

end State

/-! ## What a step books -/

@[simp] theorem books_countError (status : Nat) (st : Stats) :
    (countError status st).books = st.books := by
  unfold countError
  split <;> rfl

@[simp] theorem books_countSent (texts : JsonTexts) (r : Reply) (st : Stats) :
    (countSent texts r st).books = st.books := by
  unfold countSent
  split
  · exact books_countError _ st
  · split
    · rfl
    · exact books_countError 500 st

@[simp] theorem books_countRequest (type : JobType) (st : Stats) :
    (countRequest type st).books = st.books := by
  cases type <;> rfl

@[simp] theorem books_generating (st : Stats) (b : Bool) :
    ({ st with generating := b } : Stats).books = st.books :=
  rfl

namespace State

variable {srv : Server} {s s' : State}

theorem busyRead_books (s : State) (caller : BusyCaller) :
    (s.busyRead caller).stats.books = s.stats.books := by
  cases hslot : s.currentJob <;> cases caller <;> simp [busyRead, hslot]

theorem evHttp_books (s : State) (srv : Server) (c : ConnId) (hm : HttpMessage)
    (texts : JsonTexts) : (s.evHttp srv c hm texts).stats.books = s.stats.books := by
  unfold evHttp
  split
  case h_1 => exact books_countError _ _
  case h_6 => exact busyRead_books s _
  case h_4 | h_5 =>
    simp only [sendJson_eq, sendReply_stats]
    split
    · rfl
    · exact books_countError 500 _
  all_goals rfl

theorem EventStep.books {ch : MainChoice} (h : s.EventStep srv ch s') :
    s'.stats.books = s.stats.books := by
  cases h with
  | accept _ =>
      unfold evAccept
      split <;> rfl
  | http _ _ => exact evHttp_books _ _ _ _ _
  | report _ => exact busyRead_books _ _
  | _ => rfl

/-- Besides the two steps that report a job, a handler books nothing. -/
theorem mainGo_books {env : HandlerEnv} (h : s.mainGo srv env = some s')
    (hreports : s.reports (.main (.go env)) = none) : s'.stats.books = s.stats.books := by
  revert h
  fun_cases mainGo s srv env <;> intro h <;> cases h
  case case1 caller k hpc =>
    cases caller <;> cases (s.jobs k).state.isBusy <;> simp [busyLoaded]
  case case2 c type body hpc =>
    unfold allocJob
    split
    · simp
    · cases srv.buildJob c type body env.requestId <;> simp [freeJob]
  case case4 c k hpc hacc => simp [freeJob]
  case case12 c k jstate hpc => simp [reports, hpc] at hreports
  case case17 c k hpc => simp [reports, hpc] at hreports
  all_goals simp [sendEvents]

/-- A reported job is booked with its result. -/
theorem mainGo_books_add (hsound : Sound s) {env : HandlerEnv} (h : s.mainGo srv env = some s')
    {j : JobId} (hreports : s.reports (.main (.go env)) = some j) :
    s'.stats.books = s.stats.books.add (s.jobs j).result := by
  revert hreports
  cases hpc : s.main <;> intro hreports <;> simp only [reports, hpc, reduceCtorEq] at hreports
  case drainReply c k jstate =>
    cases hreports
    have hplain := hsound.paths.main j false (by simp [hpc, MainPc.drains])
    simp only [mainGo, hpc, Option.some.injEq] at h
    subst h
    have hbooks := books_countSent env.texts (finalReply (s.jobs j) jstate) s.stats
    simp only [Stats.books, Books.mk.injEq] at hbooks
    simp [finalizeReply, freeJob, countInference, Stats.books, Books.add,
      WorkerJob.result, hplain, hbooks]
  case drainFinal c k =>
    cases hreports
    have hstream := hsound.paths.main j true (by simp [hpc, MainPc.drains])
    simp only [mainGo, hpc, Option.some.injEq] at h
    subst h
    simp [finalizeStream, sendEvents, freeJob, countInference, Stats.books, Books.add,
      WorkerJob.result, hstream]

theorem act_books (hsound : Sound s) {a : Action} (h : s.act srv a = some s') :
    s'.stats.books =
      match s.reports a with
      | some j => s.stats.books.add (s.jobs j).result
      | none => s.stats.books := by
  cases a with
  | signal =>
      cases h
      rfl
  | worker ch =>
      have hnone : s.reports (.worker ch) = none := by
        unfold reports
        rfl
      rw [hnone, (worker_frame h).stats]
  | main ch =>
      rcases mainStep_cases h with ⟨env, rfl, hgo⟩ | ⟨hpoll, hevent⟩
      · cases hreports : s.reports (.main (.go env)) with
        | none => exact mainGo_books hgo hreports
        | some j => exact mainGo_books_add hsound hgo hreports
      · have hnone : s.reports (.main ch) = none := by simp [reports, hpoll]
        rw [hnone, hevent.books]

end State

/-! ## What a step adds to the ledger -/

namespace State

variable {srv : Server} {s s' : State} {a : Action} {j : JobId}

theorem move_finalize_iff (s : State) (srv : Server) (a : Action) (j : JobId) :
    (∃ c, s.move srv a = some (.finalize c j)) ↔ s.reports a = some j := by
  cases a with
  | signal => simp [move, reports]
  | worker ch =>
      have hmove : ∀ c, s.workerMove ≠ some (.finalize c j) := by
        intro c
        unfold workerMove
        split <;> simp
        all_goals split <;> simp
      simpa [move, reports] using hmove
  | main ch =>
      cases ch with
      | go env =>
          cases hpc : s.main with
          | busyLoad caller k => cases caller <;> simp [move, mainMove, handlerMove, reports, hpc]
          | drainState c k done =>
              cases done <;> simp [move, mainMove, handlerMove, reports, hpc]
              intro d
              split_ifs <;> simp
          | alloc _ _ _ | submit _ _ | drainLoad _ _ =>
              simp only [move, mainMove, handlerMove, reports, hpc, reduceCtorEq, iff_false,
                not_exists]
              intro d
              split_ifs <;> simp
          | _ => simp [move, mainMove, handlerMove, reports, hpc]
      -- an event begins a handler, it ends none
      | _ =>
          simp [move, mainMove, reports]
          all_goals
            intro d
            split <;> simp

theorem reported_act (hsound : Sound s) (hs : s.act srv a = some s') (j : JobId) :
    s'.reported j ↔ s.reported j ∨ s.reports a = some j := by
  have hface : ∀ t : State, t.reported j ↔ (t.face.job j).reported := fun _ => Iff.rfl
  rw [hface, hface, ← move_finalize_iff s srv]
  rcases hsound.moves hs with ⟨hlabel, hsame⟩ | ⟨m, hlabel, hstep⟩
  · simp [hlabel, hsame]
  · rw [hstep.reported_iff hsound.inv, hlabel]
    simp

theorem mem_reportedJobs (hsound : Sound s) : j ∈ s.reportedJobs ↔ s.reported j := by
  simp only [reportedJobs, Finset.mem_filter, Finset.mem_range, and_iff_right_iff_imp]
  exact fun h => lt_nextJob_of_accepted hsound h.1

theorem stage_of_reports (h : s.reports a = some j) : ∃ c, s.main.stage = .finalizing c j := by
  unfold reports at h
  split at h <;> simp_all [MainPc.stage]

/-- The result of a reported job, and of the job that is reported next, is published. -/
theorem published_of_reported (hr : (system srv).Reachable Free s)
    (h : s.reported j ∨ s.reports a = some j) : Published s j := by
  have hsound := Sound.of_reachable hr
  rcases h with ⟨haccepted, hfrees, _⟩ | hreports
  · have hfreed : (s.face.job j).frees ≠ 0 := by simp [jobFace, hfrees]
    refine Published.of_settled hsound (Attended.of_reachable hr).writing ?_
    simpa [jobFace, settled] using (endInv_of_reachable hr).freed j haccepted hfreed
  · obtain ⟨c, hstage⟩ := stage_of_reports hreports
    exact (result_published srv hr).1 c j hstage

theorem reportedJobs_act (hsound : Sound s) (hs : s.act srv a = some s') :
    s'.reportedJobs = s.reportedJobs ∪ (s.reports a).toFinset := by
  ext j
  rw [mem_reportedJobs (hsound.step hs), Finset.mem_union, mem_reportedJobs hsound,
    reported_act hsound hs, Option.mem_toFinset, Option.mem_def]

/-- No job is reported twice. -/
theorem notMem_of_reports (hsound : Sound s) (h : s.reports a = some j) : j ∉ s.reportedJobs := by
  rw [mem_reportedJobs hsound]
  rintro ⟨_, hfrees, _⟩
  obtain ⟨c, hstage⟩ := stage_of_reports h
  have hheld := (hsound.inv.serving c j (.inr (.inr hstage))).1
  have hzero : (s.log j).frees = 0 := (hsound.inv.held c j hheld).2.1
  simp [hzero] at hfrees

/-- A sum over the results of the reported jobs grows by the job that is reported. -/
theorem sum_act (hr : (system srv).Reachable Free s) (hs : s.act srv a = some s')
    (f : JobResult → Int) :
    ∑ j ∈ s'.reportedJobs, f (s'.jobs j).result =
      ∑ j ∈ s.reportedJobs, f (s.jobs j).result +
        match s.reports a with
        | some j => f (s.jobs j).result
        | none => 0 := by
  have hsound := Sound.of_reachable hr
  have hkept : ∀ j ∈ s'.reportedJobs, f (s'.jobs j).result = f (s.jobs j).result := by
    intro j hj
    rw [mem_reportedJobs (hsound.step hs), reported_act hsound hs] at hj
    have hpublished := published_of_reported hr hj
    rw [(act_result hs hpublished.issued hpublished.ended.2).result]
  rw [Finset.sum_congr rfl hkept, reportedJobs_act hsound hs]
  cases hreports : s.reports a with
  | none => simp
  | some j =>
      have hdisjoint : Disjoint s.reportedJobs (some j).toFinset := by
        simpa using notMem_of_reports hsound hreports
      rw [Finset.sum_union hdisjoint]
      simp

theorem ledger_act (hr : (system srv).Reachable Free s) (hs : s.act srv a = some s') :
    s'.ledger =
      match s.reports a with
      | some j => s.ledger.add (s.jobs j).result
      | none => s.ledger := by
  have hsum := sum_act hr hs
  have hcard : (s'.reportedJobs.card : Int) = s.reportedJobs.card +
      match s.reports a with
      | some _ => 1
      | none => 0 := by
    simpa using hsum fun _ => 1
  cases hreports : s.reports a <;>
    simp [ledger, Books.add, hcard, hsum (·.promptTokens), hsum (·.completionTokens),
      hsum fun r => indicator r.stream, hreports]

end State

/-! ## Whole runs -/

/-- On every run: the inference counters are the sums over the jobs that have been reported, each
once, of the results they were reported with; and where the threads have come to rest, every job
that was run for a client who stayed has been reported. -/
theorem inference_ledger (srv : Server) {s : State} (hr : (system srv).Reachable Free s) :
    s.stats.books = s.ledger ∧
    ((system srv).AtRest Action.continues s → s.destroying = false →
      ∀ j, (s.log j).started ≠ 0 → (s.conns (s.home j)).isOpen = true → s.reported j) := by
  constructor
  · refine hr.invariant (P := fun s => s.stats.books = s.ledger) rfl ?_
    intro u a u' hu hbooks _ hs
    rw [State.act_books (Sound.of_reachable hu) hs, State.ledger_act hu hs, hbooks]
  · intro hrest hserving j hstarted hopen
    have haccepted : (s.log j).accepted = true := by
      by_contra hacc
      exact hstarted ((Sound.of_reachable hr).inv.unaccepted j (Bool.eq_false_iff.2 hacc)).1
    exact ⟨haccepted, (settled_of_atRest hr hrest).answered hserving j hstarted hopen⟩

namespace Sample

/-- The plain request is in the books when the server is at rest again. -/
theorem inference_ledger_askOnce :
    afterAskOnce.stats.books = afterAskOnce.ledger ∧ afterAskOnce.reported 0 := by
  have hr : (system server).Reachable Free afterAskOnce := reachable_of_isSome askOnce_isSome
  have hrest : (system server).AtRest Action.continues afterAskOnce :=
    atRest_of_idle (by decide) (by decide) (by decide) (by decide) (by decide) (by decide)
  rcases inference_ledger server hr with ⟨hbooks, hreported⟩
  exact ⟨hbooks, hreported hrest (by decide) 0 (by decide) (by decide)⟩

end Sample

end Professord
