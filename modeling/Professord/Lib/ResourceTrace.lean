import Mathlib.Data.Finset.Basic

/-!
# ResourceTrace — what a program takes, uses and gives back

A trace lists when a resource is acquired, used and released.  `Traces F S tr S'` is a triple about
it: with `S` held, nothing is acquired that is held, nothing is used or released that is not, and
`S'` is held at the end.  `F` says which resources the code may acquire and release itself, and which
ones it may only use, so that two threads with disjoint claims can be put side by side; nothing is
said about the resources that `F` ignores.

- `Traces.append`, `Traces.flatMap`, … : the rules for code in sequence,
- `Traces.beside` : the rule for a second thread that gives back all that it takes,
- `Traces.sessions` : a trace that starts and ends with nothing is made of sessions.
-/

inductive ResourceEvent (ρ : Type*)
  | acquire (r : ρ)
  | use (r : ρ)
  | release (r : ρ)
  deriving DecidableEq

namespace ResourceEvent

variable {ρ : Type*}

def resource : ResourceEvent ρ → ρ
  | .acquire r => r
  | .use r => r
  | .release r => r

/-- The claims of a piece of code. -/
structure Claims (ρ : Type*) where
  own : Finset ρ
  shared : Finset ρ
  /-- not accounted for -/
  ignored : Finset ρ

def Claims.allows (F : Claims ρ) : ResourceEvent ρ → Prop
  | .use r => r ∈ F.own ∨ r ∈ F.shared
  | e => e.resource ∈ F.own

theorem Claims.uses_of_not_own {F : Claims ρ} {r : ρ} {e : ResourceEvent ρ} (h : F.allows e)
    (hown : r ∉ F.own) (he : e.resource = r) : e = .use r := by
  subst he
  cases e with
  | acquire r => exact absurd h hown
  | use r => rfl
  | release r => exact absurd h hown

theorem Claims.ne_of_not_mem {F : Claims ρ} {r : ρ} {e : ResourceEvent ρ} (h : F.allows e)
    (hown : r ∉ F.own) (hshared : r ∉ F.shared) : e.resource ≠ r := by
  intro he
  have huse := uses_of_not_own h hown he
  subst huse
  exact h.elim hown hshared

variable [DecidableEq ρ]

/-- The event, seen by someone who watches `r`; `none` is a misuse. -/
def follow (r : ρ) (held : Bool) (e : ResourceEvent ρ) : Option Bool :=
  if e.resource ≠ r then some held
  else
    match e, held with
    | .acquire _, false => some true
    | .use _, true => some true
    | .release _, true => some false
    | _, _ => none

def watch (r : ρ) (held : Bool) (tr : List (ResourceEvent ρ)) : Option Bool :=
  tr.foldlM (follow r) held

/-- What is acquired, used a number of times, and released. -/
def session (r : ρ) (n : Nat) : List (ResourceEvent ρ) :=
  .acquire r :: (List.replicate n (.use r) ++ [.release r])

/-- The events about `r` are sessions, one after the other. -/
def Sessions (r : ρ) (tr : List (ResourceEvent ρ)) : Prop :=
  ∃ ns : List Nat, (tr.filter fun e => e.resource = r) = ns.flatMap (session r)

structure Traces (F : Claims ρ) (S : Finset ρ) (tr : List (ResourceEvent ρ)) (S' : Finset ρ) :
    Prop where
  allowed : ∀ e ∈ tr, e.resource ∉ F.ignored → F.allows e
  followed : ∀ r ∉ F.ignored, watch r (decide (r ∈ S)) tr = some (decide (r ∈ S'))

variable {F G : Claims ρ} {S S' S'' : Finset ρ} {t u w : List (ResourceEvent ρ)} {r : ρ}

@[simp] theorem watch_nil (r : ρ) (held : Bool) : watch r held [] = some held :=
  rfl

theorem watch_cons (r : ρ) (held : Bool) (e : ResourceEvent ρ) (tr : List (ResourceEvent ρ)) :
    watch r held (e :: tr) = (follow r held e).bind fun held => watch r held tr :=
  rfl

theorem watch_append (r : ρ) (held : Bool) (t u : List (ResourceEvent ρ)) :
    watch r held (t ++ u) = (watch r held t).bind fun held => watch r held u :=
  List.foldlM_append

theorem follow_of_ne {e : ResourceEvent ρ} (h : e.resource ≠ r) (held : Bool) :
    follow r held e = some held :=
  if_pos h

theorem watch_of_ne (h : ∀ e ∈ t, e.resource ≠ r) (held : Bool) : watch r held t = some held := by
  induction t with
  | nil => rfl
  | cons e t ih =>
      rw [watch_cons, follow_of_ne (h e List.mem_cons_self), Option.bind_some]
      exact ih fun e he => h e (List.mem_cons_of_mem _ he)

/-! ## Code in sequence -/

namespace Traces

theorem nil (F : Claims ρ) (S : Finset ρ) : Traces F S [] S :=
  ⟨fun _ h => absurd h List.not_mem_nil, fun _ _ => rfl⟩

theorem append (ht : Traces F S t S') (hu : Traces F S' u S'') : Traces F S (t ++ u) S'' where
  allowed e he := (List.mem_append.1 he).elim (ht.allowed e) (hu.allowed e)
  followed r hr := by rw [watch_append, ht.followed r hr, Option.bind_some, hu.followed r hr]

theorem acquire (hown : r ∈ F.own) (hfree : r ∉ S) : Traces F S [.acquire r] (insert r S) where
  allowed e he _ := by
    rw [List.mem_singleton.1 he]
    exact hown
  followed q _ := by
    by_cases hq : r = q
    · subst hq
      simp [watch, follow, resource, hfree]
    · simp [watch, follow, resource, hq, Ne.symm hq]

theorem use (hclaim : r ∈ F.own ∨ r ∈ F.shared) (hheld : r ∈ S) : Traces F S [.use r] S where
  allowed e he _ := by
    rw [List.mem_singleton.1 he]
    exact hclaim
  followed q _ := by
    by_cases hq : r = q
    · subst hq
      simp [watch, follow, resource, hheld]
    · simp [watch, follow, resource, hq]

theorem release (hown : r ∈ F.own) (hheld : r ∈ S) : Traces F S [.release r] (S.erase r) where
  allowed e he _ := by
    rw [List.mem_singleton.1 he]
    exact hown
  followed q _ := by
    by_cases hq : r = q
    · subst hq
      simp [watch, follow, resource, hheld]
    · simp [watch, follow, resource, hq, Ne.symm hq]

/-- A resource that is ignored may be used in any way. -/
theorem ignore {e : ResourceEvent ρ} (he : e.resource ∈ F.ignored) : Traces F S [e] S where
  allowed e' he' hnot := by
    rw [List.mem_singleton.1 he'] at hnot
    exact absurd he hnot
  followed q hq := by
    refine watch_of_ne (fun e' he' heq => ?_) _
    rw [List.mem_singleton.1 he'] at heq
    exact hq (heq ▸ he)

theorem cons_acquire (hown : r ∈ F.own) (hfree : r ∉ S) (h : Traces F (insert r S) t S') :
    Traces F S (.acquire r :: t) S' :=
  (acquire hown hfree).append h

theorem cons_use (hclaim : r ∈ F.own ∨ r ∈ F.shared) (hheld : r ∈ S) (h : Traces F S t S') :
    Traces F S (.use r :: t) S' :=
  (use hclaim hheld).append h

theorem cons_release (hown : r ∈ F.own) (hheld : r ∈ S) (h : Traces F (S.erase r) t S') :
    Traces F S (.release r :: t) S' :=
  (release hown hheld).append h

/-- The last thing that was taken is given back first. -/
theorem pop (hown : r ∈ F.own) (hfree : r ∉ S) (h : Traces F S t S') :
    Traces F (insert r S) (.release r :: t) S' := by
  refine cons_release hown (Finset.mem_insert_self r S) ?_
  rwa [Finset.erase_insert hfree]

/-- Code that takes `r`, does something with it, and gives it back. -/
theorem scope (hown : r ∈ F.own) (hfree : r ∉ S) (h : Traces F (insert r S) t (insert r S)) :
    Traces F S (.acquire r :: (t ++ [.release r])) S :=
  cons_acquire hown hfree (h.append (pop hown hfree (nil F S)))

/-- A loop that leaves everything held as it was. -/
theorem flatMap {α : Type*} {l : List α} {f : α → List (ResourceEvent ρ)}
    (h : ∀ a ∈ l, Traces F S (f a) S) : Traces F S (l.flatMap f) S := by
  induction l with
  | nil => exact nil F S
  | cons a l ih =>
      rw [List.flatMap_cons]
      exact (h a List.mem_cons_self).append (ih fun b hb => h b (List.mem_cons_of_mem _ hb))

theorem ite {p : Prop} [Decidable p] (ht : p → Traces F S t S') (hu : ¬ p → Traces F S u S') :
    Traces F S (if p then t else u) S' := by
  split
  · next hp => exact ht hp
  · next hp => exact hu hp

/-- More may be claimed than is needed. -/
theorem mono (hown : F.own ⊆ G.own) (hshared : F.shared ⊆ G.shared)
    (hignored : F.ignored ⊆ G.ignored) (h : Traces F S t S') : Traces G S t S' where
  allowed e he hnot := by
    have hallowed := h.allowed e he fun hmem => hnot (hignored hmem)
    cases e with
    | acquire r => exact hown hallowed
    | use r => exact hallowed.imp (fun hr => hown hr) fun hr => hshared hr
    | release r => exact hown hallowed
  followed r hr := h.followed r fun hmem => hr (hignored hmem)

end Traces

/-! ## Two threads -/

/-- `w` has the events of `t` and those of `u`, each in their order. -/
inductive Merge {α : Type*} : List α → List α → List α → Prop
  | nil : Merge [] [] []
  | left (a : α) {t u w : List α} (h : Merge t u w) : Merge (a :: t) u (a :: w)
  | right (a : α) {t u w : List α} (h : Merge t u w) : Merge t (a :: u) (a :: w)

theorem Merge.mem {α : Type*} {t u w : List α} (h : Merge t u w) {a : α} (ha : a ∈ w) :
    a ∈ t ∨ a ∈ u := by
  induction h with
  | nil => cases ha
  | left b _ ih =>
      rcases List.mem_cons.1 ha with rfl | ha
      · exact .inl List.mem_cons_self
      · exact (ih ha).imp (List.mem_cons_of_mem _) id
  | right b _ ih =>
      rcases List.mem_cons.1 ha with rfl | ha
      · exact .inr List.mem_cons_self
      · exact (ih ha).imp id (List.mem_cons_of_mem _)

/-- The first thread runs to its end before the second one. -/
theorem Merge.inTurn {α : Type*} (t u : List α) : Merge t u (t ++ u) := by
  induction t with
  | nil =>
      induction u with
      | nil => exact .nil
      | cons a u ih => exact .right a ih
  | cons a t ih => exact .left a ih

/-- Who watches a resource that `u` leaves alone sees `t`. -/
theorem watch_merge_left (h : Merge t u w) (hquiet : ∀ e ∈ u, e.resource ≠ r) (held : Bool) :
    watch r held w = watch r held t := by
  induction h generalizing held with
  | nil => rfl
  | left e _ ih =>
      rw [watch_cons, watch_cons]
      exact congrArg _ (funext fun held => ih hquiet held)
  | right e _ ih =>
      rw [watch_cons, follow_of_ne (hquiet e List.mem_cons_self), Option.bind_some]
      exact ih (fun e he => hquiet e (List.mem_cons_of_mem _ he)) held

theorem Merge.symm {α : Type*} {t u w : List α} (h : Merge t u w) : Merge u t w := by
  induction h with
  | nil => exact .nil
  | left a _ ih => exact .right a ih
  | right a _ ih => exact .left a ih

/-- Uses of what is held are no misuse. -/
theorem watch_of_uses (h : ∀ e ∈ t, e.resource = r → e = .use r) : watch r true t = some true := by
  induction t with
  | nil => rfl
  | cons e t ih =>
      have hrest := ih fun e he => h e (List.mem_cons_of_mem _ he)
      by_cases he : e.resource = r
      · rw [watch_cons, h e List.mem_cons_self he]
        simpa [follow, resource] using hrest
      · rw [watch_cons, follow_of_ne he, Option.bind_some]
        exact hrest

/-- What is not held is not used. -/
theorem ne_of_watch_uses {b : Bool} (h : ∀ e ∈ t, e.resource = r → e = .use r)
    (hwatch : watch r false t = some b) : ∀ e ∈ t, e.resource ≠ r := by
  induction t with
  | nil => exact fun _ he => absurd he List.not_mem_nil
  | cons e t ih =>
      have hne : e.resource ≠ r := by
        intro he
        rw [watch_cons, h e List.mem_cons_self he] at hwatch
        simp [follow, resource] at hwatch
      rw [watch_cons, follow_of_ne hne, Option.bind_some] at hwatch
      intro e' he'
      rcases List.mem_cons.1 he' with rfl | he'
      · exact hne
      · exact ih (fun e he => h e (List.mem_cons_of_mem _ he)) hwatch e' he'

/-- Beside a thread that gives back all that it takes, and whose claims do not conflict, code does
what it does alone. -/
theorem Traces.beside (ht : Traces F S t S') (hu : Traces G S u S)
    (hown : Disjoint F.own (G.own ∪ G.shared)) (hshared : Disjoint G.own F.shared)
    (hw : Merge t u w) :
    Traces ⟨F.own ∪ G.own, F.shared ∪ G.shared, F.ignored ∪ G.ignored⟩ S w S' where
  allowed e he hnot := by
    rcases hw.mem he with he | he
    · exact (ht.mono Finset.subset_union_left Finset.subset_union_left
        Finset.subset_union_left).allowed e he hnot
    · exact (hu.mono Finset.subset_union_right Finset.subset_union_right
        Finset.subset_union_right).allowed e he hnot
  followed r hr := by
    rw [Finset.mem_union, not_or] at hr
    obtain ⟨hrF, hrG⟩ := hr
    rw [Finset.disjoint_left] at hown hshared
    -- what an event about `r` is allowed to be in either thread
    have hleft : ∀ e ∈ t, e.resource = r → F.allows e :=
      fun e he heq => ht.allowed e he (heq ▸ hrF)
    have hright : ∀ e ∈ u, e.resource = r → G.allows e :=
      fun e he heq => hu.allowed e he (heq ▸ hrG)
    by_cases hF : r ∈ F.own
    · -- the other thread leaves `r` alone
      have hG := hown hF
      rw [Finset.mem_union, not_or] at hG
      have hquiet : ∀ e ∈ u, e.resource ≠ r :=
        fun e he heq => Claims.ne_of_not_mem (hright e he heq) hG.1 hG.2 heq
      rw [watch_merge_left hw hquiet]
      exact ht.followed r hrF
    · have huses : ∀ e ∈ t, e.resource = r → e = .use r :=
        fun e he heq => Claims.uses_of_not_own (hleft e he heq) hF heq
      by_cases hS : r ∈ S
      · -- `t` only uses `r`, so that it is still held
        have hS' : decide (r ∈ S') = true := by
          have hsame := ht.followed r hrF
          rw [decide_eq_true hS, watch_of_uses huses] at hsame
          exact (Option.some.inj hsame).symm
        rw [hS']
        by_cases hG : r ∈ G.own
        · have hquiet : ∀ e ∈ t, e.resource ≠ r :=
            fun e he heq => Claims.ne_of_not_mem (hleft e he heq) hF (hshared hG) heq
          rw [watch_merge_left hw.symm hquiet, hu.followed r hrG, decide_eq_true hS]
        · rw [decide_eq_true hS]
          refine watch_of_uses fun e he heq => ?_
          rcases hw.mem he with he | he
          · exact huses e he heq
          · exact Claims.uses_of_not_own (hright e he heq) hG heq
      · have hquiet : ∀ e ∈ t, e.resource ≠ r := by
          have hwatch := ht.followed r hrF
          rw [decide_eq_false hS] at hwatch
          exact ne_of_watch_uses huses hwatch
        have hS' : decide (r ∈ S') = decide (r ∈ S) := by
          have hsame := ht.followed r hrF
          rw [watch_of_ne hquiet] at hsame
          exact (Option.some.inj hsame).symm
        rw [watch_merge_left hw.symm hquiet, hu.followed r hrG, hS']

/-! ## Sessions -/

theorem filter_of_watch {held : Bool} (h : watch r held t = some false) :
    ∃ (n : Nat) (ns : List Nat), (t.filter fun e => e.resource = r) =
      (if held then List.replicate n (.use r) ++ [.release r] else []) ++
        ns.flatMap (session r) := by
  induction t generalizing held with
  | nil =>
      cases Option.some.inj h
      exact ⟨0, [], rfl⟩
  | cons e t ih =>
      by_cases he : e.resource = r
      · rw [watch_cons] at h
        obtain ⟨held', hfollow, hrest⟩ := Option.bind_eq_some_iff.1 h
        obtain ⟨n, ns, hfilter⟩ := ih hrest
        rw [List.filter_cons_of_pos (by simpa using he), hfilter]
        subst he
        cases e with
        | acquire r =>
            -- a new session is opened
            cases held <;> simp [follow, resource] at hfollow
            subst hfollow
            exact ⟨0, n :: ns, by simp [session, resource]⟩
        | use r =>
            cases held <;> simp [follow, resource] at hfollow
            subst hfollow
            exact ⟨n + 1, ns, by simp [resource, List.replicate_succ]⟩
        | release r =>
            cases held <;> simp [follow, resource] at hfollow
            subst hfollow
            exact ⟨0, ns, by simp [resource]⟩
      · rw [watch_cons, follow_of_ne he, Option.bind_some] at h
        rw [List.filter_cons_of_neg (by simpa using he)]
        exact ih h

/-- From nothing to nothing, every resource that is not ignored is acquired, used and released in turn. -/
theorem Traces.sessions (h : Traces F S t S') (hr : r ∉ F.ignored) (hS : r ∉ S) (hS' : r ∉ S') :
    Sessions r t := by
  have hwatch := h.followed r hr
  rw [decide_eq_false hS, decide_eq_false hS'] at hwatch
  obtain ⟨_, ns, hns⟩ := filter_of_watch hwatch
  exact ⟨ns, hns⟩

end ResourceEvent
