import Professord.Lifecycle.Invariant

/-!
# Conditions — what the schedule must avoid, and what then holds

Each guarantee of the life cycle holds on the schedules that avoid one kind of move:

- `AcceptsWhenEmpty` : a job is accepted only into an empty slot; then none is lost (`Handed`),
- `FreesWhenAlone` : a job is freed only when the other party has dropped its pointer; then no
  pointer is to a freed job (`Alive`),
- `OrphansBeforeTest` : a job is orphaned only while the worker will still see the mark; then every
  job has an owner (`Owned`),
- `Attentive` : no notification is left out or thrown away while its client is there; then a job
  that the worker has left is over or will be looked at (`Noticed`).
-/

namespace Lifecycle

variable {J C : Type*}

def AcceptsWhenEmpty (o : Protocol J C) : Move J C → Prop
  | .accept _ _ => o.slot = none
  | _ => True

def FreesWhenAlone (o : Protocol J C) : Move J C → Prop
  | .finalize _ j => (o.job j).stream = true → o.worker.job ≠ some j
  | .dispose j => ∀ c, o.loop ≠ .peeking c j
  | _ => True

def OrphansBeforeTest (o : Protocol J C) : Move J C → Prop
  | .orphan _ j => o.willTest j
  | _ => True

def Attentive (o : Protocol J C) : Move J C → Prop
  | .leave j => o.isOpen (o.job j).home = false
  | .rest _ j => (o.job j).final = false
  | .drop c => o.isOpen c = true → o.held c = none
  | _ => True

/-- An accepted job that the worker has not started is in the slot. -/
structure Handed (o : Protocol J C) : Prop where
  pending : ∀ j, (o.job j).accepted = true → (o.job j).started = 0 → o.slot = some j
  window : ∀ j, o.worker = .window j → o.slot = some j

/-- The worker's jobs and the event loop's pointer are to jobs that are not freed. -/
structure Alive (o : Protocol J C) : Prop where
  unfinished : ∀ j, (o.job j).accepted = true → (o.job j).left = false → (o.job j).frees = 0
  peeking : ∀ c j, o.loop = .peeking c j → (o.job j).frees = 0

/-- A job that is not freed has someone who will free it. -/
def Owned (o : Protocol J C) : Prop :=
  ∀ j, (o.job j).allocated = true → (o.job j).frees = 0 →
    o.loop = .preparing (o.job j).home j ∨ o.loop = .attaching (o.job j).home j ∨
      o.held (o.job j).home = some j ∨
        (o.job j).orphaned = true ∧ (o.willTest j ∨ o.worker = .disposing j)

/-- What the worker has left is freed, or a notification for it is in flight or being handled. -/
def Noticed (o : Protocol J C) : Prop :=
  ∀ j, (o.job j).left = true → (o.job j).frees = 0 → o.isOpen (o.job j).home = true →
    0 < o.inFlight (o.job j).home ∨ o.loop = .serving (o.job j).home j ∨
      o.loop = .finalizing (o.job j).home j

/-- A job in the slot is finished: the slot can be taken. -/
def Protocol.slotDone (o : Protocol J C) : Prop :=
  ∀ j, o.slot = some j → (o.job j).final = true

namespace Protocol.Initial

variable {o : Protocol J C}

theorem handed (h : o.Initial) : Handed o := by
  constructor
  · intro j hacc
    simp [(h.job j).2.1] at hacc
  · intro j hw
    simp [h.worker] at hw

theorem alive (h : o.Initial) : Alive o := by
  constructor
  · intro j hacc
    simp [(h.job j).2.1] at hacc
  · intro c j hl
    simp [h.loop] at hl

theorem owned (h : o.Initial) : Owned o := by
  intro j halloc
  simp [(h.job j).1] at halloc

theorem noticed (h : o.Initial) : Noticed o := by
  intro j hleft
  simp [(h.job j).2.2.2.2.2.2.1] at hleft

end Protocol.Initial

/-- With the invariants, no party has a pointer to a freed job. -/
theorem Alive.frees_eq_zero {o : Protocol J C} {j : J} (ha : Alive o) (h : Inv o)
    (hj : o.reaches j) : (o.job j).frees = 0 := by
  rcases hj with hworker | hloop | hslot
  · have hrun := h.worker j hworker
    exact ha.unfinished j hrun.1 hrun.2.2
  · cases hl : o.loop with
    | idle => simp [hl] at hloop
    | requesting c => simp [hl] at hloop
    | peeking c k =>
        obtain rfl : k = j := by simpa [hl] using hloop
        exact ha.peeking c k hl
    | preparing c k =>
        obtain rfl : k = j := by simpa [hl] using hloop
        exact (h.preparing c k hl).2.2.2.1
    | attaching c k =>
        obtain rfl : k = j := by simpa [hl] using hloop
        exact (h.attaching c k hl).2.2.1
    | attached c k =>
        obtain rfl : k = j := by simpa [hl] using hloop
        exact (h.held c k (h.serving c k (.inl hl)).1).2.1
    | serving c k =>
        obtain rfl : k = j := by simpa [hl] using hloop
        exact (h.held c k (h.serving c k (.inr (.inl hl))).1).2.1
    | finalizing c k =>
        obtain rfl : k = j := by simpa [hl] using hloop
        exact (h.held c k (h.serving c k (.inr (.inr hl))).1).2.1
    | closing c k =>
        obtain rfl : k = j := by simpa [hl] using hloop
        exact (h.held c k (h.closing c k hl).1).2.1
  · have hwait := h.slot j hslot
    exact ha.unfinished j hwait.1 hwait.2.1

/-- With both parties idle and the slot empty, only connections own jobs. -/
theorem Owned.held_of_idle {o : Protocol J C} {j : J} (ho : Owned o) (h : Inv o)
    (hworker : o.worker = .idle) (hslot : o.slot = none) (hloop : o.loop = .idle)
    (halloc : (o.job j).allocated = true) (hfrees : (o.job j).frees = 0) :
    ∃ c, o.held c = some j ∧ o.isOpen c = true := by
  rcases ho j halloc hfrees with hl | hl | hheld | ⟨_, htest⟩
  · simp [hloop] at hl
  · simp [hloop] at hl
  · refine ⟨_, hheld, ?_⟩
    simpa [hloop] using h.heldOpen _ j hheld
  · simp [Protocol.willTest, hworker, hslot] at htest

variable [DecidableEq J] [DecidableEq C]
variable {o o' : Protocol J C} {m : Move J C}

attribute [local grind =] Function.update_apply
attribute [local grind] Protocol.ready Protocol.willTest

theorem Handed.pending_step (hh : Handed o) (h : Inv o) (hg : AcceptsWhenEmpty o m)
    (hs : Step o m o') :
    ∀ j, (o'.job j).accepted = true → (o'.job j).started = 0 → o'.slot = some j := by
  have hpending := hh.pending
  cases hs with
  | @clear j hw =>
      -- the slot that is cleared holds the job that was just run
      have hslot := hh.window j hw
      have hrun := h.worker j (by simp [hw])
      grind -linarith
  | accept hl hfinal =>
      simp only [AcceptsWhenEmpty] at hg
      grind -linarith
  | _ => grind -linarith

theorem Handed.window_step (hh : Handed o) (h : Inv o) (hg : AcceptsWhenEmpty o m)
    (hs : Step o m o') : ∀ j, o'.worker = .window j → o'.slot = some j := by
  have hwindow := hh.window
  have hbusy := h.busy
  cases hs with
  | accept hl hfinal =>
      simp only [AcceptsWhenEmpty] at hg
      grind -linarith
  | _ => grind -linarith

theorem Handed.step (hh : Handed o) (h : Inv o) (hg : AcceptsWhenEmpty o m)
    (hs : Step o m o') : Handed o' :=
  ⟨hh.pending_step h hg hs, hh.window_step h hg hs⟩

theorem Alive.unfinished_step (ha : Alive o) (h : Inv o) (hw : WakeInv o)
    (hg : FreesWhenAlone o m) (hs : Step o m o') :
    ∀ j, (o'.job j).accepted = true → (o'.job j).left = false → (o'.job j).frees = 0 := by
  have hun := ha.unfinished
  cases hs with
  | discard hl hj =>
      have hnew := h.unallocated _ hj
      grind -linarith
  | refuse hl =>
      have hprep := h.preparing _ _ hl
      grind -linarith
  | accept hl hfinal =>
      have hprep := h.preparing _ _ hl
      grind -linarith
  | @finalize c j hl =>
      -- a non-streaming job has been left; a streaming one was started, and the worker is not on it
      have hserved := hw.served c j (.inr hl)
      have hover := h.finalizing c j hl
      have hstarted := h.started j
      have hfresh := h.unstarted j
      simp only [FreesWhenAlone] at hg
      grind -linarith
  | _ => grind -linarith

theorem Alive.peeking_step (ha : Alive o) (h : Inv o) (hg : FreesWhenAlone o m)
    (hs : Step o m o') : ∀ c j, o'.loop = .peeking c j → (o'.job j).frees = 0 := by
  have hun := ha.unfinished
  have hpeek := ha.peeking
  cases hs with
  | dispose hd =>
      simp only [FreesWhenAlone] at hg
      grind -linarith
  | peekRequest hl hslot hc =>
      have hwait := h.slot _ hslot
      grind -linarith
  | peekReport hl hslot =>
      have hwait := h.slot _ hslot
      grind -linarith
  | _ => grind -linarith

theorem Alive.step (ha : Alive o) (h : Inv o) (hw : WakeInv o) (hg : FreesWhenAlone o m)
    (hs : Step o m o') : Alive o' :=
  ⟨ha.unfinished_step h hw hg hs, ha.peeking_step h hg hs⟩

/-- Once the worker is going to test the mark of an accepted job, it does. -/
theorem Protocol.willTest.step {j : J} (ht : o.willTest j) (h : Inv o)
    (horphan : (o.job j).orphaned = true) (hs : Step o m o') :
    o'.willTest j ∨ o'.worker = .disposing j := by
  have hslot := h.slot
  have hbusy := h.busy
  have hworker := h.worker
  have hun := h.unstarted
  cases hs <;> grind -linarith

/-- An orphan that the worker is going to test stays with it. -/
theorem Protocol.willTest.owned_step {j : J} (ht : o.willTest j) (h : Inv o)
    (horphan : (o.job j).orphaned = true) (hs : Step o m o') :
    (o'.job j).orphaned = true ∧ (o'.willTest j ∨ o'.worker = .disposing j) := by
  refine ⟨?_, ht.step h horphan hs⟩
  have hun := h.unallocated
  have hacc := h.unaccepted j
  cases hs <;> grind -linarith

theorem Owned.step (ho : Owned o) (h : Inv o) (hg : OrphansBeforeTest o m)
    (hs : Step o m o') : Owned o' := by
  intro j halloc hfrees
  by_cases htest : (o.job j).orphaned = true ∧ o.willTest j
  · exact .inr (.inr (.inr (htest.2.owned_step h htest.1 hs)))
  · have hown := ho j
    have hacc := h.unaccepted j
    cases hs with
    | connect hl hu =>
        have hopen := h.heldOpen
        have hused := h.openUsed
        grind -linarith
    | refuse hl =>
        have hprep := h.preparing _ _ hl
        grind -linarith
    | accept hl hfinal =>
        have hprep := h.preparing _ _ hl
        grind -linarith
    | attach hl =>
        have hatt := h.attaching _ _ hl
        grind -linarith
    | finalize hl =>
        have hserving := h.serving _ _ (.inr (.inr hl))
        grind -linarith
    | orphan hl =>
        -- the connection hands its job to the worker, which has still to look at the mark
        have hclosing := h.closing _ _ hl
        have hheld := h.held _ _ hclosing.1
        simp only [OrphansBeforeTest] at hg
        grind -linarith
    | _ => grind -linarith

theorem Noticed.step (hn : Noticed o) (he : EndInv o) (hw : WakeInv o) (h : Inv o)
    (hg : Attentive o m) (hs : Step o m o') : Noticed o' := by
  intro j hleft hfrees hopen
  have hnoticed := hn j
  have hattached := he.attached j
  have hworker := h.worker
  cases hs with
  | connect hl hu =>
      -- a new connection is nobody's home
      have hused := hw.homeUsed j
      have hacc := h.unaccepted j
      have hun := h.unstarted j
      grind -linarith
  | @allocate c i _ hl hj =>
      have hnew := h.unallocated i hj
      have hfresh := h.unaccepted i
      have hun := h.unstarted i
      grind -linarith
  | rest hl =>
      -- the worker has stored the final state of what it left
      have hfinal := he.started j
      have hun := h.unstarted j
      simp only [Attentive] at hg
      grind -linarith
  | drop hl hf =>
      have hacc := h.unaccepted j
      have hun := h.unstarted j
      simp only [Attentive] at hg
      grind -linarith
  | serve hl hf ho hh =>
      have hacc := h.unaccepted j
      have hun := h.unstarted j
      grind -linarith
  | leave hl =>
      simp only [Attentive] at hg
      grind -linarith
  | _ => grind -linarith

/-- An allocated job stays allocated, for its connection. -/
theorem Step.allocated_of {j : J} (hs : Step o m o') (halloc : (o.job j).allocated = true) :
    (o'.job j).allocated = true ∧ (o'.job j).home = (o.job j).home := by
  cases hs <;> grind -linarith

theorem Step.started_le {j : J} (hs : Step o m o') :
    (o.job j).started ≤ (o'.job j).started := by
  cases hs <;> grind -linarith

/-- The event loop has sent the final reply of the job and freed it. -/
def JobFace.reported (f : JobFace C) : Prop :=
  f.accepted = true ∧ f.frees = 1 ∧ f.orphaned = false

/-- Only the event loop's last move reports a job, and it does so for good. -/
theorem Step.reported_iff (h : Inv o) (hs : Step o m o') (j : J) :
    (o'.job j).reported ↔ (o.job j).reported ∨ ∃ c, m = .finalize c j := by
  have hun := h.unallocated
  have hacc := h.unaccepted
  unfold JobFace.reported
  cases hs with
  | dispose hw =>
      have horphan := h.disposing _ hw
      grind -linarith
  | refuse hl =>
      have hprep := h.preparing _ _ hl
      grind -linarith
  | accept hl _ =>
      have hprep := h.preparing _ _ hl
      grind -linarith
  | @finalize c k hl =>
      have hheld := h.held _ _ (h.serving _ _ (.inr (.inr hl))).1
      by_cases hj : j = k
      · subst hj
        simp [hheld.1, hheld.2.1, hheld.2.2.1]
      · simp [hj, Ne.symm hj]
  | orphan hl =>
      have hheld := h.held _ _ (h.closing _ _ hl).1
      grind -linarith
  | _ => grind -linarith

theorem Step.used_of {c : C} (hs : Step o m o') (hused : o.used c = true) : o'.used c = true := by
  cases hs <;> grind -linarith

/-- A connection that was given out does not open again. -/
theorem Step.isOpen_of {c : C} (hs : Step o m o') (hopen : o'.isOpen c = true) :
    o.isOpen c = true ∨ o.used c = false := by
  cases hs <;> grind -linarith

/-- Only the event loop fills the slot. -/
theorem Step.slot_eq_or_none (hm : ∀ c j, m ≠ .accept c j) (hs : Step o m o') :
    o'.slot = o.slot ∨ o'.slot = none := by
  cases hs with
  | accept hl hfinal => exact absurd rfl (hm _ _)
  | clear hw => exact .inr rfl
  | _ => exact .inl rfl

theorem Protocol.slotDone.step (hd : o.slotDone) (h : Inv o) (hm : ∀ c j, m ≠ .accept c j)
    (hs : Step o m o') : o'.slotDone := by
  have hslot := h.slot
  have hbusy := h.busy
  have hun := h.unaccepted
  have hstart := h.unstarted
  unfold Protocol.slotDone at hd ⊢
  cases hs with
  | accept hl hfinal => exact absurd rfl (hm _ _)
  | allocate stream hl hj =>
      have hfresh := h.unallocated _ hj
      grind -linarith
  | _ => grind -linarith

end Lifecycle
