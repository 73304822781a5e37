import Mathlib.Logic.Relation

/-!
# GuardedSystem — executable transition systems and their guarded runs

A system is an initial state together with an *executable* partial step: `step s a = none` says
that action `a` is not enabled in `s`.  Safety is often conditional on the schedule, so
reachability carries a guard `G` on the steps that a run may take:

- `Reachable G s` : `s` is reached by enabled steps that all meet `G`,
- `runGuarded` : replay of a concrete list of actions,
- `Reachable.invariant`, `runGuarded_invariant` : the induction rules,
- `runGuarded_rank` : a rank that bounds how many steps of a kind a run has,
- `Refinement` : the steps are moves of an abstract system, whose invariants are pulled back,
- `allStates_iff_allSteps` : when a guard is *exactly* what keeps a property true along runs,
- `sumSteps` : what the steps of a run add up to, and `sumSteps_eq` for a potential that accounts
  for it.
-/

structure GuardedSystem (σ α : Type*) where
  init : σ
  step : σ → α → Option σ

namespace GuardedSystem

variable {σ α τ : Type*} (S : GuardedSystem σ α)

/-! ## Replaying a list of actions -/

/-- Replay that stops at the first step which is not enabled or does not meet the guard. -/
def runGuarded (G : σ → α → Prop) [∀ s a, Decidable (G s a)] (s : σ) : List α → Option σ
  | [] => some s
  | a :: as =>
      if G s a then
        match S.step s a with
        | some s' => runGuarded G s' as
        | none => none
      else
        none

/-! ## Reachability under a guard -/

inductive Reachable (G : σ → α → Prop) : σ → Prop where
  | init : Reachable G S.init
  | step {s s' : σ} {a : α} :
      Reachable G s → G s a → S.step s a = some s' → Reachable G s'

/-- The guard of an unrestricted run. -/
def Free : σ → α → Prop := fun _ _ => True

instance : ∀ (s : σ) (a : α), Decidable (Free s a) := fun _ _ => .isTrue trivial

variable {S}

theorem Reachable.mono {G G' : σ → α → Prop} {s : σ}
    (hG : ∀ s a, G s a → G' s a) (h : S.Reachable G s) : S.Reachable G' s := by
  induction h with
  | init => exact .init
  | step _ hg hs ih => exact .step ih (hG _ _ hg) hs

theorem Reachable.free {G : σ → α → Prop} {s : σ} (h : S.Reachable G s) : S.Reachable Free s :=
  h.mono fun _ _ _ => trivial

/-- A property that holds initially and is preserved by every step meeting the guard holds in
every state that guarded runs reach. -/
theorem Reachable.invariant {G : σ → α → Prop} {P : σ → Prop} {s : σ}
    (hinit : P S.init)
    (hstep : ∀ s a s', S.Reachable G s → P s → G s a → S.step s a = some s' → P s')
    (h : S.Reachable G s) : P s := by
  induction h with
  | init => exact hinit
  | step hr hg hs ih => exact hstep _ _ _ hr ih hg hs

section Replay

variable {G : σ → α → Prop}

/-- A replay that succeeds takes its first step, and the others from there. -/
theorem exists_of_runGuarded_cons [∀ s a, Decidable (G s a)] {s t : σ} {a : α} {as : List α}
    (h : S.runGuarded G s (a :: as) = some t) :
    G s a ∧ ∃ s', S.step s a = some s' ∧ S.runGuarded G s' as = some t := by
  by_cases hg : G s a
  · cases hs : S.step s a with
    | none => simp [runGuarded, hg, hs] at h
    | some s' => exact ⟨hg, s', rfl, by simpa [runGuarded, hg, hs] using h⟩
  · simp [runGuarded, hg] at h

/-- What every step keeps, a replay keeps, from any state on. -/
theorem runGuarded_invariant [∀ s a, Decidable (G s a)] {P : σ → Prop}
    (hstep : ∀ s a s', P s → G s a → S.step s a = some s' → P s') {as : List α} :
    ∀ {s t : σ}, P s → S.runGuarded G s as = some t → P t := by
  induction as with
  | nil =>
      intro s t hP hrun
      cases hrun
      exact hP
  | cons a as ih =>
      intro s t hP hrun
      obtain ⟨hg, s', hs, hrest⟩ := exists_of_runGuarded_cons hrun
      exact ih (hstep s a s' hP hg hs) hrest

/-- A relation between the steps taken and the state, which every step extends, holds after a
replay. -/
theorem runGuarded_history [∀ s a, Decidable (G s a)] {P : List α → σ → Prop}
    (hstep : ∀ past s a s', P past s → G s a → S.step s a = some s' → P (past ++ [a]) s')
    {as : List α} :
    ∀ {past : List α} {s t : σ}, P past s → S.runGuarded G s as = some t → P (past ++ as) t := by
  induction as with
  | nil =>
      intro past s t hP hrun
      cases hrun
      rwa [List.append_nil]
  | cons a as ih =>
      intro past s t hP hrun
      obtain ⟨hg, s', hs, hrest⟩ := exists_of_runGuarded_cons hrun
      have hlater := ih (hstep past s a s' hP hg hs) hrest
      rwa [List.append_assoc, List.singleton_append] at hlater

theorem Reachable.of_runGuarded [∀ s a, Decidable (G s a)] {as : List α} {s s' : σ}
    (h : S.Reachable G s) (hrun : S.runGuarded G s as = some s') : S.Reachable G s' :=
  runGuarded_invariant (fun _ _ _ hr hg hs => .step hr hg hs) h hrun

/-- If every counted step uses up some of the rank and no step adds to it, the rank bounds the
number of the counted steps of a replay. -/
theorem runGuarded_rank [∀ s a, Decidable (G s a)] {P : σ → Prop} {rank : σ → Nat}
    {counted : α → Bool} (hkeep : ∀ s a s', P s → G s a → S.step s a = some s' → P s')
    (hrank : ∀ s a s', P s → G s a → S.step s a = some s' →
      rank s' + (if counted a then 1 else 0) ≤ rank s) {as : List α} :
    ∀ {s t : σ}, P s → S.runGuarded G s as = some t → rank t + as.countP counted ≤ rank s := by
  induction as with
  | nil =>
      intro s t _ hrun
      cases hrun
      exact Nat.le_refl _
  | cons a as ih =>
      intro s t hP hrun
      obtain ⟨hg, s', hs, hrest⟩ := exists_of_runGuarded_cons hrun
      have hnow := hrank s a s' hP hg hs
      have hlater := ih (hkeep s a s' hP hg hs) hrest
      rw [List.countP_cons]
      omega

/-- The end of a successful guarded replay is reachable. -/
theorem reachable_of_isSome [∀ s a, Decidable (G s a)] {as : List α}
    (h : (S.runGuarded G S.init as).isSome) :
    S.Reachable G ((S.runGuarded G S.init as).get h) :=
  Reachable.of_runGuarded .init (Option.some_get h).symm

end Replay

/-! ## Refinement -/

/-- Each step of `S` is at most one labelled move of the abstract relation `R`. -/
structure Refinement (S : GuardedSystem σ α) {μ : Type*} (R : τ → μ → τ → Prop) where
  abs : σ → τ
  label : σ → α → Option μ
  sound : ∀ s a s', S.Reachable Free s → S.step s a = some s' →
    (label s a = none ∧ abs s' = abs s) ∨ ∃ m, label s a = some m ∧ R (abs s) m (abs s')

/-- An invariant of the moves that meet `Ga` holds of the abstraction of every state that is
reached by steps meeting `G`, if the guard `G` says `Ga` of the label. -/
theorem Refinement.invariant {μ : Type*} {R : τ → μ → τ → Prop} (F : Refinement S R)
    (Ga : τ → μ → Prop) {P : τ → Prop} {G : σ → α → Prop} {s : σ}
    (hinit : P (F.abs S.init))
    (hmove : ∀ s m o', S.Reachable G s → P (F.abs s) → Ga (F.abs s) m → R (F.abs s) m o' → P o')
    (hguard : ∀ s a m, S.Reachable G s → G s a → F.label s a = some m → Ga (F.abs s) m)
    (h : S.Reachable G s) : P (F.abs s) := by
  induction h with
  | init => exact hinit
  -- a step without a label leaves the abstraction as it is
  | @step s s' a hr hg hs ih =>
      rcases F.sound s a s' hr.free hs with ⟨_, hsame⟩ | ⟨m, hlabel, hmoved⟩
      · exact hsame ▸ ih
      · exact hmove s m _ hr ih (hguard s a m hr hg hlabel) hmoved

/-! ## Guards that are exact along runs -/

variable (S)

/-- `P` holds in every state that the replay of the actions passes through. -/
def AllStates (P : σ → Prop) : σ → List α → Prop
  | s, [] => P s
  | s, a :: as => P s ∧ ∀ s', S.step s a = some s' → AllStates P s' as

/-- `Q` holds at every enabled step of the replay of the actions. -/
def AllSteps (Q : σ → α → Prop) : σ → List α → Prop
  | _, [] => True
  | s, a :: as => ∀ s', S.step s a = some s' → Q s a ∧ AllSteps Q s' as

variable {S}

/-- When steps meeting `Q` keep `P` and steps not meeting `Q` destroy it, `P` holds all along a
run exactly if all its steps meet `Q`.  `I` is an invariant of unrestricted steps. -/
theorem allStates_iff_allSteps {I P : σ → Prop} {Q : σ → α → Prop}
    (hI : ∀ s a s', I s → S.step s a = some s' → I s')
    (hkeep : ∀ s a s', I s → P s → Q s a → S.step s a = some s' → P s')
    (hbreak : ∀ s a s', I s → P s → ¬ Q s a → S.step s a = some s' → ¬ P s')
    (as : List α) :
    ∀ s, I s → P s → (S.AllStates P s as ↔ S.AllSteps Q s as) := by
  induction as with
  | nil =>
      intro s _ hP
      simp [AllStates, AllSteps, hP]
  | cons a as ih =>
      intro s hIs hP
      constructor
      -- the first step that does not meet `Q` would break `P` in the next state
      · rintro ⟨_, hrest⟩ s' hs
        by_cases hQ : Q s a
        · have hP' := hkeep s a s' hIs hP hQ hs
          exact ⟨hQ, (ih s' (hI s a s' hIs hs) hP').1 (hrest s' hs)⟩
        · have hrest' := hrest s' hs
          have hP' : P s' := by
            cases as with
            | nil => exact hrest'
            | cons b bs => exact hrest'.1
          exact absurd hP' (hbreak s a s' hIs hP hQ hs)
      · intro hall
        refine ⟨hP, ?_⟩
        intro s' hs
        rcases hall s' hs with ⟨hQ, hrest⟩
        exact (ih s' (hI s a s' hIs hs) (hkeep s a s' hIs hP hQ hs)).2 hrest

/-- Properties of steps that agree on the states that keep `I` agree along runs. -/
theorem allSteps_congr {I : σ → Prop} {Q Q' : σ → α → Prop}
    (hI : ∀ s a s', I s → S.step s a = some s' → I s')
    (hQ : ∀ s a s', I s → S.step s a = some s' → (Q s a ↔ Q' s a)) (as : List α) :
    ∀ s, I s → (S.AllSteps Q s as ↔ S.AllSteps Q' s as) := by
  induction as with
  | nil => exact fun _ _ => Iff.rfl
  | cons a as ih =>
      intro s hIs
      simp only [AllSteps]
      refine forall_congr' fun s' => imp_congr_right fun hs => ?_
      exact and_congr (hQ s a s' hIs hs) (ih s' (hI s a s' hIs hs))

/-- What holds at all steps holds at the step after a replay. -/
theorem AllSteps.after {Q : σ → α → Prop} {a : α} {t t' : σ} (as : List α) :
    ∀ {s : σ}, S.AllSteps Q s (as ++ [a]) → S.runGuarded Free s as = some t →
      S.step t a = some t' → Q t a := by
  induction as with
  | nil =>
      intro s hall hrun hs
      cases hrun
      exact (hall t' hs).1
  | cons b as ih =>
      intro s hall hrun hs
      obtain ⟨_, s₁, hb, hrest⟩ := exists_of_runGuarded_cons hrun
      exact ih (hall s₁ hb).2 hrest hs

/-! ## Sums along runs -/

variable (S)

/-- The sum of the weights of the enabled steps of a replay. -/
def sumSteps (w : σ → α → σ → Int) : σ → List α → Int
  | _, [] => 0
  | s, a :: as =>
      match S.step s a with
      | some s' => w s a s' + sumSteps w s' as
      | none => 0

variable {S}

theorem sumSteps_cons {w : σ → α → σ → Int} {s s' : σ} {a : α} (as : List α)
    (hs : S.step s a = some s') : S.sumSteps w s (a :: as) = w s a s' + S.sumSteps w s' as := by
  simp [sumSteps, hs]

theorem sumSteps_add (w w' : σ → α → σ → Int) (as : List α) :
    ∀ s, S.sumSteps (fun s a s' => w s a s' + w' s a s') s as =
      S.sumSteps w s as + S.sumSteps w' s as := by
  induction as with
  | nil => exact fun _ => rfl
  | cons a as ih =>
      intro s
      cases hs : S.step s a with
      | none => simp [sumSteps, hs]
      | some s' =>
          rw [sumSteps_cons as hs, sumSteps_cons as hs, sumSteps_cons as hs, ih s']
          omega

/-- A potential whose change is the weight of the step has changed by the sum of the weights. -/
theorem sumSteps_eq {G : σ → α → Prop} [∀ s a, Decidable (G s a)] {f : σ → Int}
    {w : σ → α → σ → Int}
    (hstep : ∀ s a s', G s a → S.step s a = some s' → f s' = f s + w s a s') (as : List α) :
    ∀ {s t : σ}, S.runGuarded G s as = some t → f t = f s + S.sumSteps w s as := by
  induction as with
  | nil =>
      intro s t hrun
      cases hrun
      simp [sumSteps]
  | cons a as ih =>
      intro s t hrun
      obtain ⟨hg, s', hs, hrest⟩ := exists_of_runGuarded_cons hrun
      rw [sumSteps_cons as hs, ih hrest, hstep s a s' hg hs]
      omega

end GuardedSystem
