import Mathlib.Logic.Function.Basic
import Mathlib.Logic.Relation

/-!
# Protocol — who may touch a job, and when

The abstract job life cycle of a server with one event loop and one worker: a job is allocated for
a connection, put into the worker's single slot, run, and freed by exactly one of the two sides.
Connections and jobs are arbitrary types; replies, tokens and counters do not appear.

`Step o m o'` says that the parties can make move `m`.  The invariants here (`Inv`) hold without
any assumption on the schedule; what needs an assumption is in the modules that build on this one.
-/

namespace Lifecycle

variable {J C : Type*}

/-! ## Stages of the two parties -/

/-- The worker: from taking a job to its last access to it. -/
inductive WorkerStage (J : Type*)
  | idle
  /-- running the job, its final state not yet stored -/
  | busy (j : J)
  /-- final state stored, slot not yet cleared -/
  | window (j : J)
  /-- slot cleared, orphan mark not yet tested -/
  | cleared (j : J)
  /-- saw the orphan mark: about to free -/
  | disposing (j : J)
  /-- saw no orphan mark: about to notify -/
  | leaving (j : J)
  | gone

@[simp, grind] def WorkerStage.job : WorkerStage J → Option J
  | .busy j | .window j | .cleared j | .disposing j | .leaving j => some j
  | .idle | .gone => none

/-- The event loop: the handler it is in. -/
inductive LoopStage (J C : Type*)
  | idle
  /-- holds a pointer read from the slot, for a request on a connection or for itself -/
  | peeking (c : Option C) (j : J)
  | requesting (c : C)
  /-- allocated, not yet submitted -/
  | preparing (c : C) (j : J)
  /-- submitted, not yet attached to its connection -/
  | attaching (c : C) (j : J)
  /-- attached, request handler not yet left -/
  | attached (c : C) (j : J)
  | serving (c : C) (j : J)
  /-- decided to send the final reply and free -/
  | finalizing (c : C) (j : J)
  | closing (c : C) (j : J)

@[simp, grind] def LoopStage.job : LoopStage J C → Option J
  | .peeking _ j | .preparing _ j | .attaching _ j | .attached _ j | .serving _ j
  | .finalizing _ j | .closing _ j => some j
  | .idle | .requesting _ => none

/-! ## State -/

@[ext] structure JobFace (C : Type*) where
  allocated : Bool
  accepted : Bool
  /-- how often the worker took it -/
  started : Nat
  stream : Bool
  /-- end of stream marked by the worker -/
  done : Bool
  /-- final state stored by the worker -/
  final : Bool
  orphaned : Bool
  /-- the worker has made its last access -/
  left : Bool
  frees : Nat
  home : C

@[ext] structure Protocol (J C : Type*) where
  slot : Option J
  worker : WorkerStage J
  loop : LoopStage J C
  job : J → JobFace C
  /-- the job attached to a connection -/
  held : C → Option J
  used : C → Bool
  isOpen : C → Bool
  draining : C → Bool
  /-- notifications in flight to a connection -/
  inFlight : C → Nat

/-- A connection that can bring a new request. -/
def Protocol.ready (o : Protocol J C) (c : C) : Prop :=
  o.isOpen c = true ∧ o.draining c = false ∧ o.held c = none

/-- A party has a pointer to the job: the worker, the event loop, or whoever reads the slot. -/
def Protocol.reaches (o : Protocol J C) (j : J) : Prop :=
  o.worker.job = some j ∨ o.loop.job = some j ∨ o.slot = some j

/-- The worker has yet to test the orphan mark of the job. -/
def Protocol.willTest (o : Protocol J C) (j : J) : Prop :=
  o.worker = .busy j ∨ o.worker = .window j ∨ o.worker = .cleared j ∨
    (o.slot = some j ∧ (o.job j).started = 0 ∧ ∀ k, o.worker ≠ .window k)

/-! ## Moves -/

inductive Move (J C : Type*)
  | take (j : J)
  | run (j : J)
  | markDone (j : J)
  | notify (j : J)
  | finish (j : J)
  | clear (j : J)
  | test (j : J)
  | dispose (j : J)
  | leave (j : J)
  | notifyLeave (j : J)
  | exit
  | connect (c : C)
  | peek (c : Option C) (j : J)
  | peeked (c : Option C) (j : J) (proceed : Bool)
  | request (c : C)
  | giveUp (c : C)
  | allocate (c : C) (j : J)
  | discard (c : C) (j : J)
  | refuse (c : C) (j : J)
  | accept (c : C) (j : J)
  | attach (c : C) (j : J)
  | settle (c : C) (j : J)
  | drop (c : C)
  | serve (c : C) (j : J)
  | rest (c : C) (j : J)
  | decide (c : C) (j : J)
  | finalize (c : C) (j : J)
  | closeFree (c : C)
  | closeBegin (c : C) (j : J)
  | orphan (c : C) (j : J)

/-- The moves that hand a job to another owner or free it, in the event loop. -/
def Move.settles : Move J C → Bool
  | .accept _ _ | .finalize _ _ | .orphan _ _ => true
  | _ => false

variable [DecidableEq J]

namespace Protocol

def setJob (o : Protocol J C) (j : J) (f : JobFace C → JobFace C) : Protocol J C :=
  { o with job := Function.update o.job j (f (o.job j)) }

@[simp, grind =] theorem setJob_job (o : Protocol J C) (j k : J) (f : JobFace C → JobFace C) :
    (o.setJob j f).job k = if k = j then f (o.job j) else o.job k := by
  simp [setJob, Function.update_apply]

theorem setJob_self (o : Protocol J C) (j : J) (f : JobFace C → JobFace C)
    (h : f (o.job j) = o.job j) : o.setJob j f = o := by
  simp [setJob, h]

theorem setJob_setJob (o : Protocol J C) (j : J) (f g : JobFace C → JobFace C) :
    (o.setJob j f).setJob j g = o.setJob j fun x => g (f x) := by
  simp [setJob]

@[simp, grind =] theorem setJob_slot (o : Protocol J C) (j : J) (f : JobFace C → JobFace C) :
    (o.setJob j f).slot = o.slot := rfl

@[simp, grind =] theorem setJob_worker (o : Protocol J C) (j : J) (f : JobFace C → JobFace C) :
    (o.setJob j f).worker = o.worker := rfl

@[simp, grind =] theorem setJob_loop (o : Protocol J C) (j : J) (f : JobFace C → JobFace C) :
    (o.setJob j f).loop = o.loop := rfl

@[simp, grind =] theorem setJob_held (o : Protocol J C) (j : J) (f : JobFace C → JobFace C)
    (c : C) : (o.setJob j f).held c = o.held c := rfl

@[simp, grind =] theorem setJob_used (o : Protocol J C) (j : J) (f : JobFace C → JobFace C)
    (c : C) : (o.setJob j f).used c = o.used c := rfl

@[simp, grind =] theorem setJob_isOpen (o : Protocol J C) (j : J) (f : JobFace C → JobFace C)
    (c : C) : (o.setJob j f).isOpen c = o.isOpen c := rfl

@[simp, grind =] theorem setJob_draining (o : Protocol J C) (j : J)
    (f : JobFace C → JobFace C) (c : C) : (o.setJob j f).draining c = o.draining c := rfl

@[simp, grind =] theorem setJob_inFlight (o : Protocol J C) (j : J)
    (f : JobFace C → JobFace C) (c : C) : (o.setJob j f).inFlight c = o.inFlight c := rfl

end Protocol

variable [DecidableEq C]

open Protocol

inductive Step : Protocol J C → Move J C → Protocol J C → Prop where
  | take {o : Protocol J C} {j : J} (hw : o.worker = .idle) (hs : o.slot = some j) :
      Step o (.take j)
        { o.setJob j (fun f => { f with started := f.started + 1 }) with worker := .busy j }
  | run {o : Protocol J C} {j : J} (hw : o.worker = .busy j) :
      Step o (.run j) (o.setJob j fun f => { f with final := false })
  | markDone {o : Protocol J C} {j : J} (hw : o.worker = .busy j) :
      Step o (.markDone j) (o.setJob j fun f => { f with done := true })
  | notify {o : Protocol J C} {j : J} (hw : o.worker = .busy j)
      (hstream : (o.job j).stream = true) :
      Step o (.notify j)
        { o with
          inFlight := Function.update o.inFlight (o.job j).home (o.inFlight (o.job j).home + 1) }
  | finish {o : Protocol J C} {j : J} (hw : o.worker = .busy j) :
      Step o (.finish j)
        { o.setJob j (fun f => { f with final := true }) with worker := .window j }
  | clear {o : Protocol J C} {j : J} (hw : o.worker = .window j) :
      Step o (.clear j) { o with slot := none, worker := .cleared j }
  | testOrphaned {o : Protocol J C} {j : J} (hw : o.worker = .cleared j)
      (ho : (o.job j).orphaned = true) :
      Step o (.test j) { o with worker := .disposing j }
  | testAttached {o : Protocol J C} {j : J} (hw : o.worker = .cleared j)
      (ho : (o.job j).orphaned = false) :
      Step o (.test j) { o with worker := .leaving j }
  | dispose {o : Protocol J C} {j : J} (hw : o.worker = .disposing j) :
      Step o (.dispose j)
        { o.setJob j (fun f => { f with frees := f.frees + 1, left := true }) with
          worker := .idle }
  | leave {o : Protocol J C} {j : J} (hw : o.worker = .leaving j) :
      Step o (.leave j)
        { o.setJob j (fun f => { f with left := true }) with worker := .idle }
  | notifyLeave {o : Protocol J C} {j : J} (hw : o.worker = .leaving j) :
      Step o (.notifyLeave j)
        { o.setJob j (fun f => { f with left := true }) with
          worker := .idle
          inFlight := Function.update o.inFlight (o.job j).home (o.inFlight (o.job j).home + 1) }
  | exit {o : Protocol J C} (hw : o.worker = .idle) :
      Step o .exit { o with worker := .gone }
  | connect {o : Protocol J C} {c : C} (hl : o.loop = .idle) (hu : o.used c = false) :
      Step o (.connect c)
        { o with
          held := Function.update o.held c none
          used := Function.update o.used c true
          isOpen := Function.update o.isOpen c true
          draining := Function.update o.draining c false }
  | peekRequest {o : Protocol J C} {c : C} {j : J} (hl : o.loop = .idle) (hs : o.slot = some j)
      (hc : o.ready c) :
      Step o (.peek (some c) j) { o with loop := .peeking (some c) j }
  | peekReport {o : Protocol J C} {j : J} (hl : o.loop = .idle) (hs : o.slot = some j) :
      Step o (.peek none j) { o with loop := .peeking none j }
  | peekedStop {o : Protocol J C} {c : Option C} {j : J} (hl : o.loop = .peeking c j) :
      Step o (.peeked c j false) { o with loop := .idle }
  | peekedProceed {o : Protocol J C} {c : C} {j : J} (hl : o.loop = .peeking (some c) j) :
      Step o (.peeked (some c) j true) { o with loop := .requesting c }
  | request {o : Protocol J C} {c : C} (hl : o.loop = .idle) (hs : o.slot = none)
      (hc : o.ready c) :
      Step o (.request c) { o with loop := .requesting c }
  | giveUp {o : Protocol J C} {c : C} (hl : o.loop = .requesting c) :
      Step o (.giveUp c) { o with loop := .idle }
  | allocate {o : Protocol J C} {c : C} {j : J} (stream : Bool) (hl : o.loop = .requesting c)
      (hj : (o.job j).allocated = false) :
      Step o (.allocate c j)
        { o.setJob j (fun f =>
            { f with
              allocated := true
              stream := stream
              done := false
              final := false
              orphaned := false
              home := c }) with
          loop := .preparing c j }
  | discard {o : Protocol J C} {c : C} {j : J} (hl : o.loop = .requesting c)
      (hj : (o.job j).allocated = false) :
      Step o (.discard c j)
        { o.setJob j (fun f => { f with allocated := true, frees := f.frees + 1 }) with
          loop := .idle }
  | refuse {o : Protocol J C} {c : C} {j : J} (hl : o.loop = .preparing c j) :
      Step o (.refuse c j)
        { o.setJob j (fun f => { f with frees := f.frees + 1 }) with loop := .idle }
  | accept {o : Protocol J C} {c : C} {j : J} (hl : o.loop = .preparing c j)
      (hs : ∀ k, o.slot = some k → (o.job k).final = true) :
      Step o (.accept c j)
        { o.setJob j (fun f => { f with accepted := true, final := false }) with
          slot := some j
          loop := .attaching c j }
  | attach {o : Protocol J C} {c : C} {j : J} (hl : o.loop = .attaching c j) :
      Step o (.attach c j)
        { o with
          held := Function.update o.held c (some j)
          loop := .attached c j }
  | settle {o : Protocol J C} {c : C} {j : J} (hl : o.loop = .attached c j) :
      Step o (.settle c j) { o with loop := .idle }
  | drop {o : Protocol J C} {c : C} (hl : o.loop = .idle) (hf : 0 < o.inFlight c) :
      Step o (.drop c) { o with inFlight := Function.update o.inFlight c (o.inFlight c - 1) }
  | serve {o : Protocol J C} {c : C} {j : J} (hl : o.loop = .idle) (hf : 0 < o.inFlight c)
      (ho : o.isOpen c = true) (hh : o.held c = some j) :
      Step o (.serve c j)
        { o with
          inFlight := Function.update o.inFlight c (o.inFlight c - 1)
          loop := .serving c j }
  | rest {o : Protocol J C} {c : C} {j : J} (hl : o.loop = .serving c j) :
      Step o (.rest c j) { o with loop := .idle }
  | decide {o : Protocol J C} {c : C} {j : J} (hl : o.loop = .serving c j)
      (hd : (o.job j).final = true ∨ (o.job j).stream = true ∧ (o.job j).done = true) :
      Step o (.decide c j) { o with loop := .finalizing c j }
  | finalize {o : Protocol J C} {c : C} {j : J} (hl : o.loop = .finalizing c j) :
      Step o (.finalize c j)
        { o.setJob j (fun f => { f with frees := f.frees + 1 }) with
          held := Function.update o.held c none
          draining := Function.update o.draining c (o.draining c || (o.job j).stream)
          loop := .idle }
  | closeFree {o : Protocol J C} {c : C} (hl : o.loop = .idle) (ho : o.isOpen c = true)
      (hh : o.held c = none) :
      Step o (.closeFree c) { o with isOpen := Function.update o.isOpen c false }
  | closeBegin {o : Protocol J C} {c : C} {j : J} (hl : o.loop = .idle)
      (ho : o.isOpen c = true) (hh : o.held c = some j) :
      Step o (.closeBegin c j)
        { o with
          isOpen := Function.update o.isOpen c false
          loop := .closing c j }
  | orphan {o : Protocol J C} {c : C} {j : J} (hl : o.loop = .closing c j) :
      Step o (.orphan c j)
        { o.setJob j (fun f => { f with orphaned := true }) with
          held := Function.update o.held c none
          loop := .idle }

/-- Once allocated, a job is streaming or not for good. -/
theorem Step.stream_eq {o o' : Protocol J C} {m : Move J C} (hs : Step o m o') {j : J}
    (hj : (o.job j).allocated = true) : (o'.job j).stream = (o.job j).stream := by
  cases hs <;> grind -linarith

/-- Nothing allocated, nothing connected, both parties idle. -/
structure Protocol.Initial (o : Protocol J C) : Prop where
  slot : o.slot = none
  worker : o.worker = .idle
  loop : o.loop = .idle
  job : ∀ j, (o.job j).allocated = false ∧ (o.job j).accepted = false ∧ (o.job j).started = 0 ∧
    (o.job j).done = false ∧ (o.job j).final = false ∧ (o.job j).orphaned = false ∧
    (o.job j).left = false ∧ (o.job j).frees = 0
  held : ∀ c, o.held c = none
  isOpen : ∀ c, o.isOpen c = false
  inFlight : ∀ c, o.inFlight c = 0

end Lifecycle
