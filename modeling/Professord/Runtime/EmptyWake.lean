import Professord.Runtime.Wakeups

/-!
# EmptyWake — the wakeup for the first token in an empty ring

`stream_token_cb` tests whether the ring is empty in one locked section and stores the token in
another.  A batch that the event loop takes in between can empty a ring that was not seen to be
empty.  `Spared` excludes just that, and then every token that is stored in an empty ring makes the
worker send a wakeup.
-/

namespace Professord

open GuardedSystem Lifecycle CText

/-! ## The rule -/

/-- The job whose event loop the worker is going to wake before it leaves the callback. -/
def WorkerPc.wakesFor : WorkerPc → Option JobId
  | .cbTestMgr j wake wasEmpty => if wasEmpty || decide (wake ≥ 8) then some j else none
  | .cbWakeup j => some j
  | _ => none

/-- Before the worker leaves the call of `stream_token_cb` that it is in, it calls `mg_wakeup` for
the connection of `j`: so it is on every way to a state outside of the call, as long as the
connection is open. -/
def WakesBeforeReturn (srv : Server) (s : State) (j : JobId) : Prop :=
  ∀ as t, (system srv).runGuarded Free s as = some t →
    (system srv).AllStates (fun v => (v.conns (v.home j)).isOpen = true) s as →
    t.worker.inCallback ≠ some j →
      ∃ before after u v, as = before ++ .worker .go :: after ∧
        (system srv).AllStates (fun v => v.worker.inCallback = some j) s before ∧
        (system srv).runGuarded Free s before = some u ∧ u.act srv (.worker .go) = some v ∧
        v.wakeups = u.wakeups ++ [u.home j]

/-- A token that is stored in an empty ring wakes the event loop, and so a ring that is not empty
has a wakeup in flight or being handled, outside of the callback. -/
structure EmptyWakes (srv : Server) (s : State) (j : JobId) : Prop where
  issued : ∀ wake text wasEmpty ring s', s.worker = .cbRingWrite j wake text wasEmpty →
    (s.jobs j).ring.texts = [] →
    ringWrite (s.jobs j).ring text (s.jobs j).cancel s.shutdownRequested = .stored ring →
    s.act srv (.worker .go) = some s' → WakesBeforeReturn srv s' j
  noticed : (s.conns (s.home j)).isOpen = true → (s.log j).frees = 0 →
    s.worker.inCallback ≠ some j → (s.jobs j).ring.texts ≠ [] → s.noticed j

/-- The batch takes the last token of a ring that the worker has seen not to be empty, and the token
that the worker is about to store is not an eighth one. -/
def spoils (s : State) (a : Action) : Bool :=
  match a, s.main, s.worker with
  | .main (.go _), .drainBatch _ j, .cbRingWrite k wake _ false =>
      decide (j = k ∧ wake + 1 < 8) && (drainBatch (s.jobs j).ring).2.isEmpty
  | _, _, _ => false

def Spared (s : State) (a : Action) : Prop :=
  spoils s a = false

instance (s : State) (a : Action) : Decidable (Spared s a) :=
  inferInstanceAs (Decidable (_ = _))

/-! ## What keeps the ring noticed -/

structure Roused (s : State) (j : JobId) : Prop where
  seen : ∀ wake text wasEmpty, s.worker = .cbRingWrite j wake text wasEmpty →
    wasEmpty = true ∨ (s.jobs j).ring.texts ≠ [] ∨ 8 ≤ wake + 1
  roused : (s.conns (s.home j)).isOpen = true → (s.log j).frees = 0 →
    (s.jobs j).ring.texts ≠ [] →
      s.home j ∈ s.wakeups ∨ s.main.takes = some j ∨ s.worker.wakesFor = some j

theorem Roused.init (j : JobId) : Roused State.init j := by
  constructor <;> simp [State.init, workerJobInit]

theorem WorkerPc.inCallback_of_wakesFor {pc : WorkerPc} {j : JobId} (h : pc.wakesFor = some j) :
    pc.inCallback = some j := by
  cases pc with
  | cbTestMgr k wake e =>
      simp only [wakesFor] at h
      split_ifs at h
      exact h
  | cbWakeup k => exact h
  | _ => cases h

theorem WorkerPc.job_of_inCallback {pc : WorkerPc} {j : JobId} (h : pc.inCallback = some j) :
    pc.job = some j := by
  cases pc <;> simp_all [inCallback, WorkerPc.job]

namespace State

variable {srv : Server} {s s' : State} {j : JobId}

/-- The worker is about to store a token only after it has tested the ring. -/
theorem workerStep_cbRingWrite {ch : WorkerChoice} {wake : Nat} {text : Bytes} {e : Bool}
    (h : s.workerStep ch = some s') (hpc : s'.worker = .cbRingWrite j wake text e) :
    s.worker = .cbEmptyTest j wake text ∧ e = (s.jobs j).ring.isEmpty ∧ s'.jobs = s.jobs := by
  revert h
  fun_cases workerStep s ch <;> intro h <;> cases h <;> simp_all [goWorker, leaveJob]
  case case14 =>
    obtain ⟨rfl, rfl, rfl, rfl⟩ := hpc
    exact ⟨rfl, rfl⟩

/-- While the connection is open, the worker goes from a wakeup that is due to its sending. -/
theorem workerStep_wakesFor {ch : WorkerChoice} (h : s.workerStep ch = some s')
    (hwakes : s.worker.wakesFor = some j) (hmgr : (s.jobs j).mgr = true) :
    s'.worker.wakesFor = some j ∨
      s.worker = .cbWakeup j ∧ ch = .go ∧ s'.wakeups = s.wakeups ++ [s.home j] := by
  cases hpc : s.worker with
  | cbTestMgr k wake e =>
      rw [hpc, WorkerPc.wakesFor] at hwakes
      split_ifs at hwakes with hdue
      obtain rfl := Option.some.inj hwakes
      cases ch <;> simp [workerStep, hpc, hmgr] at h
      have hnext : e = true ∨ 8 ≤ wake := by simpa using hdue
      rw [if_pos hnext] at h
      obtain rfl := Option.some.inj h
      exact .inl rfl
  | cbWakeup k =>
      rw [hpc] at hwakes
      obtain rfl := Option.some.inj hwakes
      cases ch <;> simp [workerStep, hpc] at h
      subst h
      exact .inr ⟨rfl, rfl, by simp [mgWakeup, hmgr, home]⟩
  | _ => simp [hpc, WorkerPc.wakesFor] at hwakes

end State

namespace Roused

variable {srv : Server} {s s' : State} {j : JobId}

/-- A job with tokens in its ring was accepted. -/
theorem accepted_of_texts (hattended : Attended s j) (hsound : Sound s)
    (htexts : (s.jobs j).ring.texts ≠ []) : (s.log j).accepted = true := by
  by_contra hnot
  have hfresh := hsound.inv.unaccepted j (Bool.eq_false_iff.2 hnot)
  exact htexts (hattended.unstarted hfresh.1)

theorem worker_step (h : Roused s j) (hattended : Attended s j) (hsound : Sound s)
    {ch : WorkerChoice} (hs : s.workerStep ch = some s') : Roused s' j := by
  have hrecord := State.workerStep_record (j := j) hs
  have hmain := (State.worker_frame hs).main
  have hconns := (State.worker_frame hs).conns
  rcases State.workerStep_log (j := j) hs with ⟨_, _, hfrees⟩
  constructor
  case seen =>
    -- the ring was tested in the step before
    intro wake text e hpc
    rcases State.workerStep_cbRingWrite hs hpc with ⟨_, he, hjobs⟩
    by_cases hempty : (s.jobs j).ring.isEmpty = true
    · exact .inl (he.trans hempty)
    · refine .inr (.inl ?_)
      rw [hjobs]
      exact fun hnil => hempty ((TokenRing.isEmpty_iff _).2 hnil)
  case roused =>
    rw [hconns, hrecord.home, hmain]
    intro hopen hzero htexts
    have hlive : (s.log j).frees = 0 := Nat.le_zero.1 (hzero ▸ hfrees)
    by_cases hwrite : ∃ wake text e, s.worker = .cbRingWrite j wake text e
    · rcases hwrite with ⟨wake, text, e, hpc⟩
      have hseen := h.seen wake text e hpc
      have hroused := h.roused hopen hlive
      rcases State.workerStep_of_cbRingWrite hs hpc with rfl | ⟨ring, hwr, rfl⟩
      · simpa [hpc, WorkerPc.wakesFor] using hroused htexts
      -- the token is the first, or an eighth one, or it joins tokens that are noticed
      · rcases hseen with he | hwaiting | height
        · simp [WorkerPc.wakesFor, he]
        · have hbefore := hroused hwaiting
          simp only [hpc, WorkerPc.wakesFor, reduceCtorEq, or_false] at hbefore
          rcases hbefore with hflight | htakes
          · exact .inl hflight
          · exact .inr (.inl htakes)
        · simp [WorkerPc.wakesFor, height]
    · rw [State.workerStep_texts hs fun wake text e hpc => hwrite ⟨wake, text, e, hpc⟩] at htexts
      rcases h.roused hopen hlive htexts with hflight | htakes | hwakes
      · exact .inl (State.workerStep_wakeups hs hflight)
      · exact .inr (.inl htakes)
      · have hj := WorkerPc.job_of_inCallback (WorkerPc.inCallback_of_wakesFor hwakes)
        have hmgr := hattended.mgr_of_open hsound hj hopen
        rcases State.workerStep_wakesFor hs hwakes hmgr with hstill | ⟨_, _, hsent⟩
        · exact .inr (.inr hstill)
        · refine .inl ?_
          rw [hsent]
          exact List.mem_append_right _ List.mem_cons_self

theorem handler_quiet (h : Roused s j) (hattended : Attended s j) {env : HandlerEnv}
    (hs : s.mainGo srv env = some s') (hleaves : s.LeavesJob j) : Roused s' j := by
  have hrecord := State.mainGo_record hs hleaves.new hleaves.close
  have hkept := State.mainGo_handler (j := j) hs
  have hring := State.mainGo_ring hs hleaves.new hleaves.batch
  have hworker := State.mainGo_worker hs
  have hopened := (State.mainGo_conns hs).isOpen (s.home j)
  constructor
  case seen =>
    rw [hworker, hring]
    exact h.seen
  case roused =>
    rw [hrecord.home, hopened, hworker, hring, hkept.wakeups]
    intro hopen hzero htexts
    have hlive : (s.log j).frees = 0 := Nat.le_zero.1 (hzero ▸ hkept.frees)
    rcases h.roused hopen hlive htexts with hflight | htakes | hwakes
    · exact .inl hflight
    · -- the handler goes on taking batches
      refine .inr (.inl ?_)
      by_contra hover
      rcases State.mainGo_takes hs hleaves.batch hover with hnot | hplain
      · exact hnot htakes
      · exact htexts (hattended.plain hplain)
    · exact .inr (.inr hwakes)

/-- Taking a batch that is not full leaves an empty ring; a spared one is not taken between a test
that found tokens and the store. -/
theorem batch_step {env : HandlerEnv} {c : ConnId}
    (hpc : s.main = .drainBatch c j) (hspared : Spared s (.main (.go env)))
    (hs : s.mainGo srv env = some s') : Roused s' j := by
  have hworker := State.mainGo_worker hs
  have hring : (s'.jobs j).ring = (drainBatch (s.jobs j).ring).2 := by
    simp [State.mainGo, hpc] at hs
    subst hs
    simp [State.sendEvents]
  have htakes : (drainBatch (s.jobs j).ring).1.length = drainBatchMax →
      s'.main.takes = some j := by
    intro hfull
    simp [State.mainGo, hpc] at hs
    subst hs
    simp [hfull, MainPc.takes]
  constructor
  case seen =>
    rw [hworker, hring]
    intro wake text e hw
    by_contra hnone
    rw [not_or, not_or, not_not] at hnone
    obtain rfl : e = false := Bool.eq_false_iff.2 hnone.1
    have hempty : (drainBatch (s.jobs j).ring).2.isEmpty = true :=
      (TokenRing.isEmpty_iff _).2 hnone.2.1
    have hfew : wake + 1 < 8 := Nat.lt_of_not_le hnone.2.2
    simp [Spared, spoils, hpc, hw, hempty, hfew] at hspared
  case roused =>
    intro _ _ htexts
    rw [hring] at htexts
    by_cases hfull : (drainBatch (s.jobs j).ring).1.length = drainBatchMax
    · exact .inr (.inl (htakes hfull))
    · exact absurd (drainBatch_short hfull) htexts

/-- The manager pointer is cleared once the connection is closed. -/
theorem closeMgr_step (h : Roused s j) (hsound : Sound s) {env : HandlerEnv} {c : ConnId}
    (hpc : s.main = .closeMgr c j) (hs : s.mainGo srv env = some s') : Roused s' j := by
  have hclosed := Attended.closed_of_closeMgr hsound hpc
  simp [State.mainGo, hpc] at hs
  subst hs
  constructor
  case seen => simpa using h.seen
  case roused =>
    intro hopen
    simp [State.home] at hopen
    simp [State.home, hopen] at hclosed

/-- The new job has an empty ring and is not the worker's. -/
theorem alloc_step (hattended : Attended s j) (hsound : Sound s) {env : HandlerEnv} {c : ConnId}
    {type : JobType} {body : Bytes} (hpc : s.main = .alloc c type body) (hj : j = s.nextJob)
    (hs : s.mainGo srv env = some s') : Roused s' j := by
  have hnext := hattended.alloc_step hsound hpc hj hs
  have hworker := State.mainGo_worker hs
  have hun := hsound.inv.unallocated j (by simp [jobFace, Bool.eq_false_iff, hj])
  have hunstarted : (s'.log j).started = 0 := by
    rw [(State.mainGo_handler (j := j) hs).started]
    exact (hsound.inv.unaccepted j hun.1).1
  have hempty : (s'.jobs j).ring.texts = [] := hnext.unstarted hunstarted
  constructor
  case seen =>
    rw [hworker]
    intro wake text e hw
    have hrun := hsound.inv.worker j (by simp [hw])
    exact absurd (hun.1.symm.trans hrun.1) (by simp)
  case roused => exact fun _ _ htexts => absurd hempty htexts

theorem handler_step (h : Roused s j) (hattended : Attended s j) (hsound : Sound s)
    {env : HandlerEnv} (hspared : Spared s (.main (.go env)))
    (hs : s.mainGo srv env = some s') : Roused s' j := by
  rcases s.writesJob_cases j with ⟨hj, c, type, body, hpc⟩ | ⟨c, hpc⟩ | ⟨c, hpc⟩ | hleaves
  · exact alloc_step hattended hsound hpc hj hs
  · exact h.closeMgr_step hsound hpc hs
  · exact batch_step hpc hspared hs
  · exact h.handler_quiet hattended hs hleaves

theorem event_step (h : Roused s j) (hattended : Attended s j) (hsound : Sound s)
    (hend : EndInv s.face) {ch : MainChoice} (hs : s.mainStep srv ch = some s')
    (hpoll : s.main = .poll) (hevent : s.EventStep srv ch s') : Roused s' j := by
  have hev := hevent.frame hpoll
  rcases hevent.quiet hpoll with ⟨_, hwakeups⟩
  have hhome : s'.home j = s.home j := by rw [State.home, hev.jobs, State.home]
  constructor
  case seen =>
    rw [hev.worker, hev.jobs]
    exact h.seen
  case roused =>
    rw [hhome, hev.worker, hev.jobs, hev.log]
    intro hopen hzero htexts
    have haccepted := accepted_of_texts hattended hsound htexts
    have hbefore := State.isOpen_of_step hsound (a := .main ch) hs haccepted hopen
    have hattached : (s.conns (s.home j)).fnData = some j := by
      rcases hend.attached j haccepted hzero hbefore with hheld | hloop
      · exact hheld
      · simp [hev.poll] at hloop
    rcases h.roused hbefore hzero htexts with hflight | htakes | hwakes
    · rcases hwakeups _ j hbefore hattached hflight with hstill | hdrain
      · exact .inl hstill
      · exact .inr (.inl (by simp [hdrain, MainPc.takes]))
    · simp [hev.poll, MainPc.takes] at htakes
    · exact .inr (.inr hwakes)

theorem step (h : Roused s j) (hattended : Attended s j) (hsound : Sound s)
    (hend : EndInv s.face) {a : Action} (hspared : Spared s a) (hs : s.act srv a = some s') :
    Roused s' j := by
  cases a with
  | signal =>
      simp [State.act] at hs
      subst hs
      exact ⟨h.seen, h.roused⟩
  | worker ch => exact h.worker_step hattended hsound hs
  | main ch =>
      rcases State.mainStep_cases hs with ⟨env, rfl, hgo⟩ | ⟨hpoll, hev⟩
      · exact h.handler_step hattended hsound hspared hgo
      · exact h.event_step hattended hsound hend hs hpoll hev

theorem of_reachable (h : (system srv).Reachable Spared s) : Roused s j :=
  h.invariant (P := fun s => Roused s j) (Roused.init j)
    fun _ _ _ hr hroused hspared hs =>
      hroused.step (Attended.of_reachable hr.free) (Sound.of_reachable hr.free)
        (endInv_of_reachable hr.free) hspared hs

end Roused

/-! ## Every call -/

section Calls

variable {srv : Server} {s : State} {j : JobId}

/-- A wakeup that is due is sent before the worker leaves the call. -/
theorem wakesBeforeReturn_of_wakesFor (h : (system srv).Reachable Free s)
    (hwakes : s.worker.wakesFor = some j) : WakesBeforeReturn srv s j := by
  intro as
  induction as generalizing s with
  | nil =>
      intro t hrun _ hout
      cases hrun
      exact absurd (WorkerPc.inCallback_of_wakesFor hwakes) hout
  | cons a as ih =>
      rintro t hrun ⟨hopen, hrest⟩ hout
      have hin := WorkerPc.inCallback_of_wakesFor hwakes
      obtain ⟨_, s₁, hnext, hrun₁⟩ := exists_of_runGuarded_cons hrun
      have hs : s.act srv a = some s₁ := hnext
      have hr₁ : (system srv).Reachable Free s₁ := .step h trivial hnext
      -- a step after which the wakeup is still due is put in front
      have hcons : s₁.worker.wakesFor = some j → ∃ before after u v,
          a :: as = before ++ .worker .go :: after ∧
          (system srv).AllStates (fun v => v.worker.inCallback = some j) s before ∧
          (system srv).runGuarded Free s before = some u ∧ u.act srv (.worker .go) = some v ∧
          v.wakeups = u.wakeups ++ [u.home j] := by
        intro hdue
        obtain ⟨before, after, u, v, has, hcall, hu, hv, hsent⟩ :=
          ih hr₁ hdue t hrun₁ (hrest s₁ hnext) hout
        refine ⟨a :: before, after, u, v, by rw [has, List.cons_append], ⟨hin, ?_⟩, ?_, hv, hsent⟩
        · intro s₂ hs₂
          obtain rfl : s₁ = s₂ := Option.some.inj (hnext.symm.trans hs₂)
          exact hcall
        · simpa [runGuarded, Free, hnext] using hu
      cases a with
      | signal =>
          simp [State.act] at hs
          subst hs
          exact hcons hwakes
      | main ch =>
          have hworker : s₁.worker = s.worker := State.mainStep_worker hs
          exact hcons (hworker ▸ hwakes)
      | worker ch =>
          have hmgr := (Attended.of_reachable h).mgr_of_open (Sound.of_reachable h)
            (WorkerPc.job_of_inCallback hin) hopen
          rcases State.workerStep_wakesFor hs hwakes hmgr with hdue | ⟨_, rfl, hsent⟩
          · exact hcons hdue
          · exact ⟨[], as, s, s₁, rfl, hin, rfl, hs, hsent⟩

end Calls

/-- In every run in which no batch takes the last token of a ring between the test of the worker and
its store, each token that is stored in an empty ring makes its call send a wakeup, and outside of
the callback a ring that is not empty is noticed. -/
theorem empty_wakes (srv : Server) {s : State} (h : (system srv).Reachable Spared s) (j : JobId) :
    EmptyWakes srv s j := by
  have hroused := Roused.of_reachable (j := j) h
  constructor
  · intro wake text e ring s' hpc hempty hstored hs
    have hstep : (system srv).step s (.worker .go) = some s' := hs
    have hr' : (system srv).Reachable Free s' := .step h.free trivial hstep
    refine wakesBeforeReturn_of_wakesFor hr' ?_
    simp [State.act, State.workerStep, hpc, hstored] at hs
    subst hs
    rcases hroused.seen wake text e hpc with he | hwaiting | height
    · simp [WorkerPc.wakesFor, he]
    · exact absurd hempty hwaiting
    · simp [WorkerPc.wakesFor, height]
  · intro hopen hzero hout htexts
    rcases hroused.roused hopen hzero htexts with hflight | htakes | hwakes
    · exact .inl hflight
    · exact noticed_of_takes (Sound.of_reachable h.free) htakes
    · exact absurd (WorkerPc.inCallback_of_wakesFor hwakes) hout

namespace Sample

/-- The worker has stored the first token and sent the wakeup for it. -/
def firstToken : List Action :=
  [connect, post 0 streamBody, main, main, main, main, work, work, work,
    .worker (.piece (ascii "a") true), work, work, work, work]

theorem firstToken_replays :
    ((system server).runGuarded Spared State.init firstToken).isSome = true := by
  decide

def afterFirstToken : State :=
  ((system server).runGuarded Spared State.init firstToken).get firstToken_replays

theorem empty_wakes_firstToken :
    (afterFirstToken.jobs 0).ring.texts ≠ [] ∧ afterFirstToken.noticed 0 := by
  have hr : (system server).Reachable Spared afterFirstToken :=
    reachable_of_isSome firstToken_replays
  have htexts : (afterFirstToken.jobs 0).ring.texts ≠ [] := by decide
  exact ⟨htexts, (empty_wakes server hr 0).noticed (by decide) (by decide) (by decide) htexts⟩

end Sample

/-- The second token is stored in a ring that a batch has emptied after the test. -/
theorem not_empty_wakes :
    ∃ s, (system Sample.server).Reachable Free s ∧ ¬ EmptyWakes Sample.server s 0 := by
  have hr : (system Sample.server).Reachable Free Sample.afterUnseenToken :=
    reachable_of_isSome Sample.unseenToken_replays
  refine ⟨Sample.afterUnseenToken, hr, fun h => ?_⟩
  -- its call has returned, and nobody is told
  have hnoticed := h.noticed (by decide) (by decide) (by decide) (by decide)
  exact absurd hnoticed (by decide)

end Professord
