import Mathlib.Data.List.Nodup

/-!
# AllocLog — what a piece of C code allocates and releases

Addresses are handed out in order and `released` lists those given to `free`, so a double free is
a repetition in that list.  `Grown h h' live` is the rule for a stretch of code: of the blocks
handed out since `h` exactly those in `live` have not been released.
-/

structure AllocLog where
  next : Nat
  released : List Nat

namespace AllocLog

def init : AllocLog :=
  ⟨0, []⟩

def alloc (h : AllocLog) : Nat × AllocLog :=
  (h.next, { h with next := h.next + 1 })

def free (h : AllocLog) (p : Nat) : AllocLog :=
  { h with released := h.released ++ [p] }

/-- Nothing has been released twice or before it was handed out. -/
structure Sound (h : AllocLog) : Prop where
  once : h.released.Nodup
  issued : ∀ p ∈ h.released, p < h.next

/-- What has been handed out since `h`, and is not released, is exactly `live`. -/
structure Grown (h h' : AllocLog) (live : List Nat) : Prop where
  sound : h'.Sound
  le : h.next ≤ h'.next
  live_issued : ∀ p ∈ live, h.next ≤ p ∧ p < h'.next
  live_unreleased : ∀ p ∈ live, p ∉ h'.released
  rest_released : ∀ p, h.next ≤ p → p < h'.next → p ∉ live → p ∈ h'.released

variable {h h' : AllocLog} {live : List Nat}

theorem sound_init : init.Sound :=
  ⟨List.nodup_nil, by simp [init]⟩

theorem Grown.refl (hs : h.Sound) : Grown h h [] :=
  ⟨hs, Nat.le_refl _, by simp, by simp, by omega⟩

/-- A new block is live. -/
theorem Grown.alloc (hg : Grown h h' live) : Grown h h'.alloc.2 (h'.next :: live) where
  sound := ⟨hg.sound.once, fun p hp => Nat.lt_succ_of_lt (hg.sound.issued p hp)⟩
  le := Nat.le_succ_of_le hg.le
  live_issued p hp := by
    rcases List.mem_cons.1 hp with rfl | hp
    · exact ⟨hg.le, Nat.lt_succ_self _⟩
    · exact ⟨(hg.live_issued p hp).1, Nat.lt_succ_of_lt (hg.live_issued p hp).2⟩
  live_unreleased p hp hrel := by
    rcases List.mem_cons.1 hp with rfl | hp
    · exact Nat.lt_irrefl _ (hg.sound.issued _ hrel)
    · exact hg.live_unreleased p hp hrel
  rest_released p hlo hhi hp := by
    -- a block that is not live is not the new one, so it was there before
    have hne : p ≠ h'.next := fun heq => hp (heq ▸ List.mem_cons_self)
    have hlt : p < h'.next + 1 := hhi
    exact hg.rest_released p hlo (by omega) fun hmem => hp (List.mem_cons_of_mem _ hmem)

/-- Releasing a live block leaves the others live. -/
theorem Grown.free {p : Nat} (hg : Grown h h' live) (hp : p ∈ live) (rest : List Nat)
    (hrest : ∀ q, q ∈ rest ↔ q ∈ live ∧ q ≠ p) : Grown h (h'.free p) rest where
  sound := by
    refine ⟨?_, ?_⟩
    -- a live block has not been released, so releasing it adds no repetition
    · have hnew := hg.live_unreleased p hp
      refine List.nodup_append.2 ⟨hg.sound.once,
        List.nodup_cons.2 ⟨List.not_mem_nil, List.nodup_nil⟩, ?_⟩
      intro a ha b hb heq
      exact hnew (List.mem_singleton.1 hb ▸ heq ▸ ha)
    · intro q hq
      rcases List.mem_append.1 hq with hq | hq
      · exact hg.sound.issued q hq
      · rw [List.mem_singleton.1 hq]
        exact (hg.live_issued p hp).2
  le := hg.le
  live_issued q hq := hg.live_issued q ((hrest q).1 hq).1
  live_unreleased q hq hrel := by
    rcases List.mem_append.1 hrel with hrel | hrel
    · exact hg.live_unreleased q ((hrest q).1 hq).1 hrel
    · exact ((hrest q).1 hq).2 (List.mem_singleton.1 hrel)
  rest_released q hlo hhi hq := by
    by_cases heq : q = p
    · exact List.mem_append_right _ (List.mem_singleton.2 heq)
    · exact List.mem_append_left _
        (hg.rest_released q hlo hhi fun hmem => hq ((hrest q).2 ⟨hmem, heq⟩))

/-- Releasing the only live block. -/
theorem Grown.free_only {p : Nat} (hg : Grown h h' [p]) : Grown h (h'.free p) [] :=
  hg.free List.mem_cons_self [] fun q => by simp

/-- With nothing live every block of the stretch has been released. -/
theorem Grown.released_all (hg : Grown h h' []) {p : Nat} (hlo : h.next ≤ p) (hhi : p < h'.next) :
    p ∈ h'.released :=
  hg.rest_released p hlo hhi List.not_mem_nil

end AllocLog
