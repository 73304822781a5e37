import Mathlib.Logic.Function.Basic
import Professord.Lib.GuardedSystem

/-!
# LockedObject — calls under one lock

Any number of threads make calls on a shared object.  A call takes the lock, makes its steps one at
a time, each of which may read something from outside, and gives the lock back; some calls return
without taking the lock at all.

- `Serial` : what calls leave that are made one after the other,
- `serial_of_reachable` : what the threads leave is what the calls leave one after the other, in the
  order in which they took the lock,
- `calls_of_thread` : in that order each thread has made its calls, each once,
- `Ends` : how a call ends, whatever it reads; its rules go from step to step.
-/

/-- An object in `σ` with calls in `κ`; `γ` is how far a call has come, `ι` what it reads. -/
structure LockedObject (σ ι κ γ : Type*) where
  init : σ
  /-- calls that return without taking the lock -/
  skips : κ → Bool
  enter : κ → γ
  step : γ → σ → ι → γ × σ
  finished : γ → Bool

namespace LockedObject

/-- A call that has taken the lock, and what its steps have read so far. -/
structure Entry (θ ι κ : Type*) where
  thread : θ
  call : κ
  reads : List ι

/-- The calls that wait for the lock, the one that holds it, and those that have given it back. -/
structure State (θ σ ι κ γ : Type*) where
  object : σ
  pending : θ → Option κ
  holder : Option (Entry θ ι κ × γ)
  past : List (Entry θ ι κ)

inductive Action (θ ι κ : Type*)
  | call (t : θ) (k : κ)
  | lock (t : θ)
  | step (x : ι)
  | unlock

variable {θ σ ι κ γ : Type*}

def State.initial (o : σ) : State θ σ ι κ γ :=
  ⟨o, fun _ => none, none, []⟩

/-- The calls that have taken the lock, in this order. -/
def State.order (s : State θ σ ι κ γ) : List (Entry θ ι κ) :=
  s.past ++ (s.holder.map Prod.fst).toList

variable (O : LockedObject σ ι κ γ)

/-- The steps of a call that reads `xs`. -/
def perform (c : γ × σ) (xs : List ι) : γ × σ :=
  xs.foldl (fun c x => O.step c.1 c.2 x) c

/-- The call of an entry, made on the object `o`. -/
def run (e : Entry θ ι κ) (o : σ) : γ × σ :=
  O.perform (O.enter e.call, o) e.reads

/-- The calls, made one after the other from beginning to end, leave the object. -/
inductive Serial : List (Entry θ ι κ) → σ → Prop
  | nil : Serial [] O.init
  | snoc {es : List (Entry θ ι κ)} {o : σ} (e : Entry θ ι κ) (h : Serial es o)
      (hend : O.finished (O.run e o).1 = true) : Serial (es ++ [e]) (O.run e o).2

/-! ## Rules for a single call -/

/-- Going on from `c`, after it has read `past`, a call that comes to its end does so with `Q`. -/
def Ends (O : LockedObject σ ι κ γ) (past : List ι) (c : γ × σ)
    (Q : List ι → γ × σ → Prop) : Prop :=
  ∀ xs, O.finished (O.perform c xs).1 = true → Q (past ++ xs) (O.perform c xs)

/-- A call that has come to its end stays there. -/
def Rests (O : LockedObject σ ι κ γ) : Prop :=
  ∀ c o x, O.finished c = true → O.step c o x = (c, o)

section Rules

variable {O} {past : List ι} {c : γ × σ} {Q R : List ι → γ × σ → Prop}

theorem Rests.perform (hrests : O.Rests) (hend : O.finished c.1 = true) (xs : List ι) :
    O.perform c xs = c := by
  induction xs with
  | nil => rfl
  | cons x xs ih =>
      have hstep : O.step c.1 c.2 x = c := hrests c.1 c.2 x hend
      have hcons : O.perform c (x :: xs) = O.perform (O.step c.1 c.2 x) xs := rfl
      rw [hcons, hstep, ih]

theorem Ends.done (hrests : O.Rests) (hend : O.finished c.1 = true)
    (hQ : ∀ xs, Q (past ++ xs) c) : O.Ends past c Q := by
  intro xs _
  rw [hrests.perform hend xs]
  exact hQ xs

theorem Ends.next (hmore : O.finished c.1 = false)
    (hstep : ∀ x, O.Ends (past ++ [x]) (O.step c.1 c.2 x) Q) : O.Ends past c Q := by
  intro xs hend
  cases xs with
  | nil => exact absurd hend (by simp [perform, hmore])
  | cons x xs =>
      have hnext := hstep x xs hend
      rw [List.append_assoc] at hnext
      exact hnext

theorem Ends.mono (h : O.Ends past c Q) (himp : ∀ xs c', Q (past ++ xs) c' → R (past ++ xs) c') :
    O.Ends past c R :=
  fun xs hend => himp xs _ (h xs hend)

theorem Ends.run {e : Entry θ ι κ} {o : σ} (h : O.Ends [] (O.enter e.call, o) Q)
    (hend : O.finished (O.run e o).1 = true) : Q e.reads (O.run e o) :=
  h e.reads hend

end Rules

variable [DecidableEq θ]

def act (s : State θ σ ι κ γ) : Action θ ι κ → Option (State θ σ ι κ γ)
  | .call t k =>
      if (s.pending t).isSome || (s.holder.any fun h => h.1.thread = t) then none
      else if O.skips k then some s
      else some { s with pending := Function.update s.pending t (some k) }
  | .lock t =>
      match s.holder, s.pending t with
      | none, some k =>
          some { s with
            pending := Function.update s.pending t none
            holder := some (⟨t, k, []⟩, O.enter k) }
      | _, _ => none
  | .step x =>
      match s.holder with
      | some (e, c) =>
          if O.finished c then none
          else
            some { s with
              object := (O.step c s.object x).2
              holder := some ({ e with reads := e.reads ++ [x] }, (O.step c s.object x).1) }
      | none => none
  | .unlock =>
      match s.holder with
      | some (e, c) =>
          if O.finished c then some { s with holder := none, past := s.past ++ [e] } else none
      | none => none

def system : GuardedSystem (State θ σ ι κ γ) (Action θ ι κ) where
  init := .initial O.init
  step := O.act

open GuardedSystem

/-! ## The calls are atomic -/

theorem perform_append (c : γ × σ) (xs ys : List ι) :
    O.perform c (xs ++ ys) = O.perform (O.perform c xs) ys :=
  List.foldl_append

/-- The call that holds the lock is somewhere between its first and its last step. -/
def Atomic (s : State θ σ ι κ γ) : Prop :=
  ∃ o, O.Serial s.past o ∧
    match s.holder with
    | none => s.object = o
    | some (e, c) => (c, s.object) = O.run e o

variable {O}

theorem Atomic.step {s s' : State θ σ ι κ γ} {a : Action θ ι κ} (h : O.Atomic s)
    (hs : O.act s a = some s') : O.Atomic s' := by
  rcases h with ⟨o, hserial, hholder⟩
  revert hs
  fun_cases act O s a <;> intro hs <;> cases hs
  case case2 => exact ⟨o, hserial, hholder⟩
  case case3 => exact ⟨o, hserial, hholder⟩
  case case4 t k hpending hnone =>
    rw [hnone] at hholder
    exact ⟨o, hserial, by rw [hholder]; rfl⟩
  case case7 x e c hsome hnext =>
    rw [hsome] at hholder
    refine ⟨o, hserial, ?_⟩
    simp only [run, perform_append]
    rw [← run, ← hholder]
    rfl
  case case9 e c hsome hend =>
    rw [hsome] at hholder
    have hcode : c = (O.run e o).1 := congrArg Prod.fst hholder
    have hobject : s.object = (O.run e o).2 := congrArg Prod.snd hholder
    exact ⟨_, hserial.snoc e (hcode ▸ hend), hobject⟩

theorem atomic_of_reachable {s : State θ σ ι κ γ} (h : O.system.Reachable Free s) : O.Atomic s :=
  h.invariant (P := O.Atomic) ⟨O.init, .nil, rfl⟩ fun _ _ _ _ hatomic _ hs => hatomic.step hs

/-- Between two calls, the object is as the calls leave it one after the other. -/
theorem serial_of_reachable {s : State θ σ ι κ γ} (h : O.system.Reachable Free s)
    (hfree : s.holder = none) : O.Serial s.past s.object := by
  rcases atomic_of_reachable h with ⟨o, hserial, hobject⟩
  rw [hfree] at hobject
  rwa [hobject]

/-! ## The calls of a thread -/

/-- The calls of a thread that take the lock. -/
def calls (O : LockedObject σ ι κ γ) (t : θ) (as : List (Action θ ι κ)) : List κ :=
  as.filterMap fun
    | .call u k => if u = t ∧ O.skips k = false then some k else none
    | _ => none

/-- What a thread has called, and what it waits for. -/
def State.called (s : State θ σ ι κ γ) (t : θ) : List κ :=
  (s.order.filter fun e => e.thread = t).map Entry.call ++ (s.pending t).toList

theorem calls_append (t : θ) (as bs : List (Action θ ι κ)) :
    O.calls t (as ++ bs) = O.calls t as ++ O.calls t bs :=
  List.filterMap_append

theorem called_step {s s' : State θ σ ι κ γ} {a : Action θ ι κ} (hs : O.act s a = some s')
    (t : θ) : s'.called t = s.called t ++ O.calls t [a] := by
  revert hs
  fun_cases act O s a <;> intro hs <;> cases hs
  case case2 u k hfree hskips => simp [calls, hskips]
  case case3 u k hfree hskips =>
    by_cases hu : u = t
    · subst hu
      have hnone : s.pending u = none := by
        simp only [Bool.or_eq_true, not_or, Option.not_isSome_iff_eq_none] at hfree
        exact hfree.1
      simp [State.called, State.order, calls, hskips, hnone]
    · simp [State.called, State.order, calls, hu, Ne.symm hu]
  case case4 u k hpending hnone =>
    by_cases hu : u = t
    · subst hu
      simp [State.called, State.order, calls, hnone, hpending]
    · simp [State.called, State.order, calls, hnone, hu, Ne.symm hu]
  case case7 x e c hsome hnext =>
    by_cases he : e.thread = t <;> simp [State.called, State.order, calls, hsome, he]
  case case9 e c hsome hend => simp [State.called, State.order, calls, hsome]

/-- What a thread has called is in the order in which the calls took the lock, each once, but for
the call that still waits for it. -/
theorem calls_of_thread {as : List (Action θ ι κ)} {s : State θ σ ι κ γ}
    (hrun : O.system.runGuarded Free O.system.init as = some s) (t : θ) :
    s.called t = O.calls t as := by
  have hinit : O.system.init.called t = O.calls t ([] : List (Action θ ι κ)) := rfl
  have hall : s.called t = O.calls t ([] ++ as) := by
    refine runGuarded_history (P := fun past u => u.called t = O.calls t past) ?_ hinit hrun
    intro past u a u' hpast _ hs
    rw [called_step hs, hpast, calls_append]
  exact hall

end LockedObject
