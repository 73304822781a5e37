import Mathlib.Algebra.BigOperators.Group.List.Basic
import Mathlib.Algebra.GroupWithZero.Nat
import Professord.Lib.GuardedSystem

/-!
# RankedRuns — runs that use up a rank

A rank that every step of a kind uses up, but for what some steps are credited with, bounds the
runs made of such steps; and when only a state at rest has no step that uses up the rank, every
state can be run to rest.

- `AtRest` : no action of a kind is enabled,
- `length_le_of_credit` : how long a run can be,
- `exists_run_to_rest` : a run that ends, and how long it is.
-/

namespace GuardedSystem

variable {σ α : Type*} {S : GuardedSystem σ α}

/-- No action of the kind is enabled. -/
def AtRest (S : GuardedSystem σ α) (kind : α → Bool) (s : σ) : Prop :=
  ∀ a, kind a = true → S.step s a = none

theorem AtRest.mono {kind kind' : α → Bool} {s : σ}
    (hkind : ∀ a, kind a = true → kind' a = true) (h : S.AtRest kind' s) : S.AtRest kind s :=
  fun a ha => h a (hkind a ha)

/-- A run of the kind is no longer than the rank of its first state and the credit of its steps. -/
theorem length_le_of_credit {P : σ → Prop} (rank : σ → Nat) {credit : α → Nat} {kind : α → Bool}
    (hkeep : ∀ s a s', P s → S.step s a = some s' → P s')
    (hstep : ∀ s a s', P s → kind a = true → S.step s a = some s' →
      rank s' + 1 ≤ rank s + credit a) {as : List α} :
    ∀ {s t : σ}, P s → (∀ a ∈ as, kind a = true) → S.runGuarded Free s as = some t →
      rank t + as.length ≤ rank s + (as.map credit).sum := by
  induction as with
  | nil =>
      intro s t _ _ hrun
      cases hrun
      exact Nat.le_refl _
  | cons a as ih =>
      intro s t hP hkind hrun
      obtain ⟨_, s', hs, hrest⟩ := exists_of_runGuarded_cons hrun
      have hnow := hstep s a s' hP (hkind a List.mem_cons_self) hs
      have hlater :=
        ih (hkeep s a s' hP hs) (fun b hb => hkind b (List.mem_cons_of_mem a hb)) hrest
      rw [List.length_cons, List.map_cons, List.sum_cons]
      omega

/-- If a state that is not at rest has a step that uses up some of the rank, a run of such steps
leads to rest. -/
theorem exists_run_to_rest {P : σ → Prop} (rank : σ → Nat) {kind : α → Bool} (uses : α → Bool)
    (hkeep : ∀ s a s', P s → S.step s a = some s' → P s')
    (hrank : ∀ s a s', P s → uses a = true → S.step s a = some s' → rank s' + 1 ≤ rank s)
    (hmoves : ∀ s, P s → ¬ S.AtRest kind s → ∃ a, uses a = true ∧ (S.step s a).isSome = true)
    (s : σ) (hP : P s) :
    ∃ as t, (∀ a ∈ as, uses a = true) ∧ as.length ≤ rank s ∧
      S.runGuarded Free s as = some t ∧ S.AtRest kind t := by
  -- on the rank, of which every step leaves less
  induction hn : rank s using Nat.strongRecOn generalizing s with
  | ind n ih =>
      by_cases hrest : S.AtRest kind s
      · exact ⟨[], s, by simp, Nat.zero_le _, rfl, hrest⟩
      · obtain ⟨a, ha, hsome⟩ := hmoves s hP hrest
        obtain ⟨s', hs⟩ := Option.isSome_iff_exists.1 hsome
        have hless := hrank s a s' hP ha hs
        obtain ⟨as, t, huses, hlength, hrun, hend⟩ :=
          ih (rank s') (by omega) s' (hkeep s a s' hP hs) rfl
        refine ⟨a :: as, t, ?_, ?_, ?_, hend⟩
        · intro b hb
          rcases List.mem_cons.1 hb with rfl | hb
          · exact ha
          · exact huses b hb
        · rw [List.length_cons]
          omega
        · simp [runGuarded, Free, hs, hrun]

end GuardedSystem
