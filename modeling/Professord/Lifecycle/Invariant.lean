import Professord.Lifecycle.Protocol

/-!
# Invariant — what holds of the job life cycle on every schedule

- `JobInv` : the worker's side, how the marks of a job, the slot and the worker's stage fit,
- `LoopInv` : the event loop's side, what it may assume of the job it handles,
- `FreeInv` : no job is freed twice,
- `WakeInv` : which notifications can be in flight to a connection,
- `EndInv` : what is known of a job once it has been started, freed or orphaned.

Each field has a step lemma naming the facts it rests on; `Inv.step` and `WakeInv.step` collect
them.
-/

namespace Lifecycle

variable {J C : Type*}

/-! ## The invariants -/

structure JobInv (o : Protocol J C) : Prop where
  unallocated : ∀ j, (o.job j).allocated = false →
    (o.job j).accepted = false ∧ (o.job j).frees = 0
  unaccepted : ∀ j, (o.job j).accepted = false →
    (o.job j).started = 0 ∧ (o.job j).orphaned = false
  unstarted : ∀ j, (o.job j).started = 0 →
    (o.job j).done = false ∧ (o.job j).final = false ∧ (o.job j).left = false
  started : ∀ j, (o.job j).started = 0 ∨
    (o.job j).started = 1 ∧ (o.worker.job = some j ∨ (o.job j).left = true)
  slot : ∀ j, o.slot = some j → (o.job j).accepted = true ∧ (o.job j).left = false ∧
    ((o.job j).started = 0 ∨ o.worker = .busy j ∨ o.worker = .window j)
  worker : ∀ j, o.worker.job = some j →
    (o.job j).accepted = true ∧ (o.job j).started = 1 ∧ (o.job j).left = false
  busy : ∀ j, o.worker = .busy j → o.slot = some j ∧ (o.job j).final = false
  disposing : ∀ j, o.worker = .disposing j → (o.job j).orphaned = true

structure LoopInv (o : Protocol J C) : Prop where
  held : ∀ c j, o.held c = some j →
    (o.job j).accepted = true ∧ (o.job j).frees = 0 ∧ (o.job j).orphaned = false ∧
      (o.job j).home = c ∧ o.draining c = false
  heldOpen : ∀ c j, o.held c = some j → o.isOpen c = true ∨ o.loop = .closing c j
  openUsed : ∀ c, o.isOpen c = true → o.used c = true
  peeking : ∀ c j, o.loop = .peeking (some c) j → o.ready c
  requesting : ∀ c, o.loop = .requesting c → o.ready c
  preparing : ∀ c j, o.loop = .preparing c j →
    o.ready c ∧ (o.job j).allocated = true ∧ (o.job j).accepted = false ∧
      (o.job j).frees = 0 ∧ (o.job j).home = c
  attaching : ∀ c j, o.loop = .attaching c j →
    o.ready c ∧ (o.job j).accepted = true ∧ (o.job j).frees = 0 ∧
      (o.job j).orphaned = false ∧ (o.job j).home = c
  serving : ∀ c j, o.loop = .attached c j ∨ o.loop = .serving c j ∨ o.loop = .finalizing c j →
    o.held c = some j ∧ o.isOpen c = true
  finalizing : ∀ c j, o.loop = .finalizing c j →
    (o.job j).final = true ∨ (o.job j).stream = true ∧ (o.job j).done = true
  closing : ∀ c j, o.loop = .closing c j → o.held c = some j ∧ o.isOpen c = false

structure FreeInv (o : Protocol J C) : Prop where
  orphaned : ∀ j, (o.job j).orphaned = true → (o.job j).left = false → (o.job j).frees = 0
  once : ∀ j, (o.job j).frees ≤ 1

structure Inv (o : Protocol J C) : Prop extends JobInv o, LoopInv o, FreeInv o

/-- A non-streaming job is only served once the worker has left it: the one notification that its
connection can get is the last thing the worker does. -/
structure WakeInv (o : Protocol J C) : Prop where
  homeUsed : ∀ j, (o.job j).accepted = true → o.used (o.job j).home = true
  unusedQuiet : ∀ c, o.used c = false → o.inFlight c = 0
  unfinished : ∀ c j, (o.job j).accepted = true → (o.job j).left = false →
    (o.job j).home = c → o.isOpen c = true → o.draining c = false →
      o.held c = some j ∨ o.loop = .attaching c j
  quiet : ∀ c, o.ready c → (∀ j, o.loop ≠ .attaching c j) → o.inFlight c = 0
  single : ∀ c j, o.held c = some j ∨ o.loop = .attaching c j → o.isOpen c = true →
    (o.job j).stream = false →
      o.inFlight c = 0 ∨ (o.job j).left = true ∧ o.inFlight c = 1
  served : ∀ c j, o.loop = .serving c j ∨ o.loop = .finalizing c j →
    (o.job j).stream = false → (o.job j).left = true ∧ o.inFlight c = 0

/-- A job that was started is run or finished, one that was freed is over, and on an open connection
a job that is not freed is attached. -/
structure EndInv (o : Protocol J C) : Prop where
  started : ∀ j, (o.job j).started ≠ 0 → o.worker = .busy j ∨ (o.job j).final = true
  freed : ∀ j, (o.job j).accepted = true → (o.job j).frees ≠ 0 →
    (o.job j).final = true ∨ (o.job j).done = true
  attached : ∀ j, (o.job j).accepted = true → (o.job j).frees = 0 →
    o.isOpen (o.job j).home = true →
      o.held (o.job j).home = some j ∨ o.loop = .attaching (o.job j).home j
  orphaned : ∀ j, (o.job j).orphaned = true → o.isOpen (o.job j).home = false

theorem JobInv.allocated_of_accepted {o : Protocol J C} (h : JobInv o) {j : J}
    (hacc : (o.job j).accepted = true) : (o.job j).allocated = true := by
  cases halloc : (o.job j).allocated with
  | true => rfl
  | false => simp [(h.unallocated j halloc).1] at hacc

namespace Protocol.Initial

variable {o : Protocol J C}

theorem inv (h : o.Initial) : Inv o := by
  rcases h with ⟨hslot, hworker, hloop, hjob, hheld, hopen, hflight⟩
  constructor <;> constructor <;> simp_all

theorem wakeInv (h : o.Initial) : WakeInv o := by
  rcases h with ⟨hslot, hworker, hloop, hjob, hheld, hopen, hflight⟩
  constructor <;> simp_all

theorem endInv (h : o.Initial) : EndInv o := by
  rcases h with ⟨hslot, hworker, hloop, hjob, hheld, hopen, hflight⟩
  constructor <;> simp_all

end Protocol.Initial

variable [DecidableEq J] [DecidableEq C]
variable {o o' : Protocol J C} {m : Move J C}

attribute [local grind =] Function.update_apply
attribute [local grind] Protocol.ready

/-! ## One move: the worker's side -/

namespace Inv

theorem unallocated_step (h : Inv o) (hs : Step o m o') : ∀ j, (o'.job j).allocated = false →
    (o'.job j).accepted = false ∧ (o'.job j).frees = 0 := by
  have hun := h.unallocated
  cases hs with
  -- what is freed or accepted was allocated before
  | @dispose j hw =>
      have hrun := h.worker j (by simp [hw])
      grind -linarith
  | refuse hl =>
      have hprep := h.preparing _ _ hl
      grind -linarith
  | accept hl _ =>
      have hprep := h.preparing _ _ hl
      grind -linarith
  | finalize hl =>
      have hheld := h.held _ _ (h.serving _ _ (.inr (.inr hl))).1
      grind -linarith
  | _ => grind -linarith

theorem unaccepted_step (h : Inv o) (hs : Step o m o') : ∀ j, (o'.job j).accepted = false →
    (o'.job j).started = 0 ∧ (o'.job j).orphaned = false := by
  have hun := h.unaccepted
  cases hs with
  | take _ hslot =>
      have htaken := h.slot _ hslot
      grind -linarith
  | orphan hl =>
      have hheld := h.held _ _ (h.closing _ _ hl).1
      grind -linarith
  | _ => grind -linarith

theorem unstarted_step (h : Inv o) (hs : Step o m o') : ∀ j, (o'.job j).started = 0 →
    (o'.job j).done = false ∧ (o'.job j).final = false ∧ (o'.job j).left = false := by
  have hun := h.unstarted
  have hworker := h.worker
  cases hs <;> grind -linarith

theorem started_step (h : Inv o) (hs : Step o m o') : ∀ j, (o'.job j).started = 0 ∨
    (o'.job j).started = 1 ∧ (o'.worker.job = some j ∨ (o'.job j).left = true) := by
  have hstarted := h.started
  cases hs with
  | @take j hw hslot =>
      -- an idle worker has not started the job in the slot
      have hfresh : (o.job j).started = 0 := by
        simpa [hw] using (h.slot j hslot).2.2
      grind -linarith
  | _ => grind -linarith

theorem slot_step (h : Inv o) (hs : Step o m o') : ∀ j, o'.slot = some j →
    (o'.job j).accepted = true ∧ (o'.job j).left = false ∧
      ((o'.job j).started = 0 ∨ o'.worker = .busy j ∨ o'.worker = .window j) := by
  have hslot := h.slot
  have hworker := h.worker
  cases hs with
  | @accept c j hl _ =>
      have hnew := (h.preparing c j hl).2.2.1
      have hstarted := (h.unaccepted j hnew).1
      have hleft := (h.unstarted j hstarted).2.2
      grind -linarith
  | _ => grind -linarith

theorem worker_step (h : Inv o) (hs : Step o m o') : ∀ j, o'.worker.job = some j →
    (o'.job j).accepted = true ∧ (o'.job j).started = 1 ∧ (o'.job j).left = false := by
  have hslot := h.slot
  have hworker := h.worker
  cases hs <;> grind -linarith

theorem busy_step (h : Inv o) (hs : Step o m o') :
    ∀ j, o'.worker = .busy j → o'.slot = some j ∧ (o'.job j).final = false := by
  have hslot := h.slot
  have hbusy := h.busy
  have hun := h.unstarted
  -- `accept` does not replace a job that is still busy: its final state is not stored yet
  cases hs <;> grind -linarith

theorem disposing_step (h : Inv o) (hs : Step o m o') :
    ∀ j, o'.worker = .disposing j → (o'.job j).orphaned = true := by
  have hdisp := h.disposing
  have hworker := h.worker
  have hun := h.unallocated
  cases hs <;> grind -linarith

/-! ## One move: the event loop's side -/

theorem held_step (h : Inv o) (hs : Step o m o') : ∀ c j, o'.held c = some j →
    (o'.job j).accepted = true ∧ (o'.job j).frees = 0 ∧ (o'.job j).orphaned = false ∧
      (o'.job j).home = c ∧ o'.draining c = false := by
  have hheld := h.held
  cases hs with
  | allocate _ hl hj =>
      have hnew := h.unallocated _ hj
      grind -linarith
  | discard hl hj =>
      have hnew := h.unallocated _ hj
      grind -linarith
  | dispose hw =>
      -- the worker only frees orphans, and no connection holds one
      have horphan := h.disposing _ hw
      grind -linarith
  | refuse hl =>
      have hprep := h.preparing _ _ hl
      grind -linarith
  | accept hl _ =>
      have hprep := h.preparing _ _ hl
      grind -linarith
  | attach hl =>
      have hatt := h.attaching _ _ hl
      grind -linarith
  | finalize hl =>
      -- a job is held by its home connection only
      have hserving := h.serving _ _ (.inr (.inr hl))
      grind -linarith
  | orphan hl =>
      have hclosing := h.closing _ _ hl
      grind -linarith
  | _ => grind -linarith

theorem heldOpen_step (h : Inv o) (hs : Step o m o') :
    ∀ c j, o'.held c = some j → o'.isOpen c = true ∨ o'.loop = .closing c j := by
  have hopen := h.heldOpen
  cases hs with
  | attach hl =>
      have hatt := h.attaching _ _ hl
      grind -linarith
  | _ => grind -linarith

theorem openUsed_step (h : Inv o) (hs : Step o m o') :
    ∀ c, o'.isOpen c = true → o'.used c = true := by
  have hused := h.openUsed
  cases hs <;> grind -linarith

theorem peeking_step (h : Inv o) (hs : Step o m o') :
    ∀ c j, o'.loop = .peeking (some c) j → o'.ready c := by
  have hpeek := h.peeking
  cases hs <;> grind -linarith

theorem requesting_step (h : Inv o) (hs : Step o m o') :
    ∀ c, o'.loop = .requesting c → o'.ready c := by
  have hreq := h.requesting
  have hpeek := h.peeking
  cases hs <;> grind -linarith

theorem preparing_step (h : Inv o) (hs : Step o m o') : ∀ c j, o'.loop = .preparing c j →
    o'.ready c ∧ (o'.job j).allocated = true ∧ (o'.job j).accepted = false ∧
      (o'.job j).frees = 0 ∧ (o'.job j).home = c := by
  have hprep := h.preparing
  cases hs with
  | @dispose j hw =>
      -- the worker's job was accepted
      have hrun := h.worker j (by simp [hw])
      grind -linarith
  | allocate _ hl hj =>
      have hreq := h.requesting _ hl
      have hnew := h.unallocated _ hj
      grind -linarith
  | _ => grind -linarith

theorem attaching_step (h : Inv o) (hs : Step o m o') : ∀ c j, o'.loop = .attaching c j →
    o'.ready c ∧ (o'.job j).accepted = true ∧ (o'.job j).frees = 0 ∧
      (o'.job j).orphaned = false ∧ (o'.job j).home = c := by
  have hatt := h.attaching
  cases hs with
  | dispose hw =>
      have horphan := h.disposing _ hw
      grind -linarith
  | @accept c j hl _ =>
      have hprep := h.preparing c j hl
      have hnew := h.unaccepted j hprep.2.2.1
      grind -linarith
  | _ => grind -linarith

theorem serving_step (h : Inv o) (hs : Step o m o') : ∀ c j,
    o'.loop = .attached c j ∨ o'.loop = .serving c j ∨ o'.loop = .finalizing c j →
      o'.held c = some j ∧ o'.isOpen c = true := by
  have hserving := h.serving
  cases hs with
  | attach hl =>
      have hatt := h.attaching _ _ hl
      grind -linarith
  | _ => grind -linarith

theorem finalizing_step (h : Inv o) (hs : Step o m o') : ∀ c j, o'.loop = .finalizing c j →
    (o'.job j).final = true ∨ (o'.job j).stream = true ∧ (o'.job j).done = true := by
  have hfin := h.finalizing
  have hbusy := h.busy
  cases hs <;> grind -linarith

theorem closing_step (h : Inv o) (hs : Step o m o') :
    ∀ c j, o'.loop = .closing c j → o'.held c = some j ∧ o'.isOpen c = false := by
  have hclosing := h.closing
  cases hs <;> grind -linarith

/-! ## One move: frees -/

theorem orphaned_step (h : Inv o) (hs : Step o m o') :
    ∀ j, (o'.job j).orphaned = true → (o'.job j).left = false → (o'.job j).frees = 0 := by
  have horphan := h.orphaned
  have hun := h.unallocated
  have hacc := h.unaccepted
  cases hs with
  | refuse hl =>
      have hprep := h.preparing _ _ hl
      grind -linarith
  | finalize hl =>
      -- what the event loop frees is attached, so not an orphan
      have hheld := h.held _ _ (h.serving _ _ (.inr (.inr hl))).1
      grind -linarith
  | orphan hl =>
      have hheld := h.held _ _ (h.closing _ _ hl).1
      grind -linarith
  | _ => grind -linarith

theorem once_step (h : Inv o) (hs : Step o m o') : ∀ j, (o'.job j).frees ≤ 1 := by
  have honce := h.once
  cases hs with
  | @dispose j hw =>
      have hleft := (h.worker j (by simp [hw])).2.2
      have hzero := h.orphaned j (h.disposing j hw) hleft
      grind -linarith
  | discard hl hj =>
      have hzero := (h.unallocated _ hj).2
      grind -linarith
  | refuse hl =>
      have hzero := (h.preparing _ _ hl).2.2.2.1
      grind -linarith
  | finalize hl =>
      have hzero := (h.held _ _ (h.serving _ _ (.inr (.inr hl))).1).2.1
      grind -linarith
  | _ => grind -linarith

/-- Every move keeps the invariant. -/
theorem step (h : Inv o) (hs : Step o m o') : Inv o' where
  unallocated := h.unallocated_step hs
  unaccepted := h.unaccepted_step hs
  unstarted := h.unstarted_step hs
  started := h.started_step hs
  slot := h.slot_step hs
  worker := h.worker_step hs
  busy := h.busy_step hs
  disposing := h.disposing_step hs
  held := h.held_step hs
  heldOpen := h.heldOpen_step hs
  openUsed := h.openUsed_step hs
  peeking := h.peeking_step hs
  requesting := h.requesting_step hs
  preparing := h.preparing_step hs
  attaching := h.attaching_step hs
  serving := h.serving_step hs
  finalizing := h.finalizing_step hs
  closing := h.closing_step hs
  orphaned := h.orphaned_step hs
  once := h.once_step hs

end Inv

/-! ## One move: notifications -/

namespace WakeInv

theorem homeUsed_step (hw : WakeInv o) (h : Inv o) (hs : Step o m o') :
    ∀ j, (o'.job j).accepted = true → o'.used (o'.job j).home = true := by
  have hused := hw.homeUsed
  cases hs with
  | allocate _ hl hj =>
      have hnew := h.unallocated _ hj
      grind -linarith
  | accept hl _ =>
      have hprep := h.preparing _ _ hl
      have hopen := h.openUsed
      grind -linarith
  | _ => grind -linarith

theorem unusedQuiet_step (hw : WakeInv o) (h : Inv o) (hs : Step o m o') :
    ∀ c, o'.used c = false → o'.inFlight c = 0 := by
  have hquiet := hw.unusedQuiet
  cases hs with
  | @notify j hbusy _ =>
      have hused := hw.homeUsed j (h.worker j (by simp [hbusy])).1
      grind -linarith
  | @notifyLeave j hl =>
      have hused := hw.homeUsed j (h.worker j (by simp [hl])).1
      grind -linarith
  | _ => grind -linarith

theorem unfinished_step (hw : WakeInv o) (h : Inv o) (hs : Step o m o') :
    ∀ c j, (o'.job j).accepted = true → (o'.job j).left = false →
      (o'.job j).home = c → o'.isOpen c = true → o'.draining c = false →
        o'.held c = some j ∨ o'.loop = .attaching c j := by
  have hun := hw.unfinished
  cases hs with
  | connect hl hu =>
      -- a new connection is nobody's home
      have hused := hw.homeUsed
      grind -linarith
  | allocate _ hl hj =>
      have hnew := h.unallocated _ hj
      grind -linarith
  | accept hl _ =>
      have hprep := h.preparing _ _ hl
      grind -linarith
  | attach hl =>
      have hatt := h.attaching _ _ hl
      grind -linarith
  | finalize hl =>
      -- after a streaming job the connection drains; any other job has been left
      have hserved := hw.served _ _ (.inr hl)
      have hserving := h.serving _ _ (.inr (.inr hl))
      have hheld := h.held
      grind -linarith
  | orphan hl =>
      have hclosing := h.closing _ _ hl
      grind -linarith
  | _ => grind -linarith

theorem quiet_step (hw : WakeInv o) (h : Inv o) (hs : Step o m o') :
    ∀ c, o'.ready c → (∀ j, o'.loop ≠ .attaching c j) → o'.inFlight c = 0 := by
  have hquiet := hw.quiet
  cases hs with
  -- the connection of the job that the worker has is not ready
  | @notify j hbusy _ =>
      have hrun := h.worker j (by simp [hbusy])
      have hown := hw.unfinished _ j hrun.1 hrun.2.2 rfl
      grind -linarith
  | @notifyLeave j hl =>
      have hrun := h.worker j (by simp [hl])
      have hown := hw.unfinished _ j hrun.1 hrun.2.2 rfl
      grind -linarith
  | connect hl hu =>
      have hnew := hw.unusedQuiet _ hu
      grind -linarith
  | accept hl _ =>
      have hprep := h.preparing _ _ hl
      grind -linarith
  | finalize hl =>
      have hserved := hw.served _ _ (.inr hl)
      grind -linarith
  | orphan hl =>
      have hclosing := h.closing _ _ hl
      grind -linarith
  | _ => grind -linarith

theorem single_step (hw : WakeInv o) (h : Inv o) (hs : Step o m o') :
    ∀ c j, o'.held c = some j ∨ o'.loop = .attaching c j → o'.isOpen c = true →
      (o'.job j).stream = false →
        o'.inFlight c = 0 ∨ (o'.job j).left = true ∧ o'.inFlight c = 1 := by
  have hsingle := hw.single
  cases hs with
  | @notify j hbusy hstream =>
      -- the worker streams, and its connection serves no other job
      have hrun := h.worker j (by simp [hbusy])
      have hown := hw.unfinished _ j hrun.1 hrun.2.2 rfl
      have hheld := h.held
      have hatt := h.attaching
      grind -linarith
  | @notifyLeave j hl =>
      -- the job is left in the same step
      have hrun := h.worker j (by simp [hl])
      have hown := hw.unfinished _ j hrun.1 hrun.2.2 rfl
      have hheld := h.held
      have hatt := h.attaching
      grind -linarith
  | allocate _ hl hj =>
      have hnew := h.unallocated _ hj
      have hheld := h.held
      grind -linarith
  | accept hl _ =>
      -- nothing is in flight to a connection that brings a request
      have hprep := h.preparing _ _ hl
      have hquiet := hw.quiet
      have hheld := h.held
      grind -linarith
  | finalize hl =>
      have hserving := h.serving _ _ (.inr (.inr hl))
      have hheld := h.held
      grind -linarith
  | _ => grind -linarith

theorem served_step (hw : WakeInv o) (h : Inv o) (hs : Step o m o') :
    ∀ c j, o'.loop = .serving c j ∨ o'.loop = .finalizing c j →
      (o'.job j).stream = false → (o'.job j).left = true ∧ o'.inFlight c = 0 := by
  have hserved := hw.served
  cases hs with
  | @notify j hbusy hstream =>
      intro c k hl hk
      have hrun := h.worker j (by simp [hbusy])
      have hne : (o.job j).home ≠ c := by
        intro hhome
        have hatc := h.serving c k (.inr hl)
        have hheld := h.held c k hatc.1
        have hown := hw.unfinished c j hrun.1 hrun.2.2 hhome hatc.2 hheld.2.2.2.2
        grind -linarith
      simpa [Function.update_of_ne hne.symm] using hserved c k hl hk
  | @notifyLeave j hl =>
      have hrun := h.worker j (by simp [hl])
      have hown := hw.unfinished _ j hrun.1 hrun.2.2 rfl
      have hserving := h.serving
      have hheld := h.held
      grind -linarith
  | serve hl hf ho hh =>
      -- the notification just consumed was the only one, sent as the worker left
      have hsingle := hw.single _ _ (.inl hh) ho
      grind -linarith
  | _ => grind -linarith

theorem step (hw : WakeInv o) (h : Inv o) (hs : Step o m o') : WakeInv o' where
  homeUsed := hw.homeUsed_step h hs
  unusedQuiet := hw.unusedQuiet_step h hs
  unfinished := hw.unfinished_step h hs
  quiet := hw.quiet_step h hs
  single := hw.single_step h hs
  served := hw.served_step h hs

end WakeInv

/-! ## One move: the end of a job -/

namespace EndInv

theorem started_step (he : EndInv o) (h : Inv o) (hs : Step o m o') :
    ∀ j, (o'.job j).started ≠ 0 → o'.worker = .busy j ∨ (o'.job j).final = true := by
  have hstarted := he.started
  cases hs with
  | allocate _ hl hj =>
      have hnew := h.unallocated _ hj
      have hfresh := h.unaccepted
      grind -linarith
  | accept hl _ =>
      -- the state is reset before the job has been started
      have hprep := h.preparing _ _ hl
      have hfresh := h.unaccepted
      grind -linarith
  | _ => grind -linarith

theorem freed_step (he : EndInv o) (h : Inv o) (hs : Step o m o') :
    ∀ j, (o'.job j).accepted = true → (o'.job j).frees ≠ 0 →
      (o'.job j).final = true ∨ (o'.job j).done = true := by
  have hfreed := he.freed
  have hbusy := h.busy
  cases hs with
  | @dispose j hw =>
      -- the worker has stored the final state of what it frees
      have hrun := h.worker j (by simp [hw])
      have hfinal := he.started j
      grind -linarith
  | allocate _ hl hj =>
      have hnew := h.unallocated _ hj
      grind -linarith
  | discard hl hj =>
      have hnew := h.unallocated _ hj
      grind -linarith
  | refuse hl =>
      have hprep := h.preparing _ _ hl
      grind -linarith
  | accept hl _ =>
      have hprep := h.preparing _ _ hl
      grind -linarith
  | finalize hl =>
      have hover := h.finalizing _ _ hl
      grind -linarith
  | _ => grind -linarith

theorem attached_step (he : EndInv o) (hw : WakeInv o) (h : Inv o) (hs : Step o m o') :
    ∀ j, (o'.job j).accepted = true → (o'.job j).frees = 0 →
      o'.isOpen (o'.job j).home = true →
        o'.held (o'.job j).home = some j ∨ o'.loop = .attaching (o'.job j).home j := by
  have hattached := he.attached
  cases hs with
  | connect hl hu =>
      -- a new connection is nobody's home
      have hused := hw.homeUsed
      grind -linarith
  | allocate _ hl hj =>
      have hnew := h.unallocated _ hj
      grind -linarith
  | accept hl _ =>
      have hprep := h.preparing _ _ hl
      grind -linarith
  | attach hl =>
      have hatt := h.attaching _ _ hl
      grind -linarith
  | finalize hl =>
      have hserving := h.serving _ _ (.inr (.inr hl))
      grind -linarith
  | orphan hl =>
      have hclosing := h.closing _ _ hl
      grind -linarith
  | _ => grind -linarith

theorem orphaned_step (he : EndInv o) (hw : WakeInv o) (h : Inv o) (hs : Step o m o') :
    ∀ j, (o'.job j).orphaned = true → o'.isOpen (o'.job j).home = false := by
  have horphaned := he.orphaned
  cases hs with
  | connect hl hu =>
      have hused := hw.homeUsed
      have hun := h.unaccepted
      grind -linarith
  | orphan hl =>
      have hclosing := h.closing _ _ hl
      have hheld := h.held _ _ hclosing.1
      grind -linarith
  | _ => grind -linarith

theorem step (he : EndInv o) (hw : WakeInv o) (h : Inv o) (hs : Step o m o') : EndInv o' where
  started := he.started_step h hs
  freed := he.freed_step h hs
  attached := he.attached_step hw h hs
  orphaned := he.orphaned_step hw h hs

end EndInv

end Lifecycle
