import Mathlib.Algebra.Group.Fin.Basic
import Mathlib.Data.List.Range
import Mathlib.Tactic.Abel

/-!
# CircularBuffer — a bounded FIFO in a fixed array

`n + 1` slots with a write index `head` and a read index `tail`; one slot always stays free, so
`head = tail` means empty and `head + 1 = tail` (modulo the size) means full.  `contents` reads
the buffer as a queue, and every operation is characterised by what it does to that queue.
-/

structure CircularBuffer (α : Type*) (n : Nat) where
  slots : Fin (n + 1) → α
  head : Fin (n + 1)
  tail : Fin (n + 1)

namespace CircularBuffer

open Fin.NatCast

variable {α : Type*} {n : Nat}

/-! ## Operations -/

def init (x : α) : CircularBuffer α n :=
  ⟨fun _ => x, 0, 0⟩

def isFull (r : CircularBuffer α n) : Bool :=
  r.head + 1 == r.tail

def isEmpty (r : CircularBuffer α n) : Bool :=
  r.head == r.tail

/-- Store at `head` and advance it; the caller has checked that the buffer is not full. -/
def push (r : CircularBuffer α n) (x : α) : CircularBuffer α n :=
  { r with
    slots := fun i => if i = r.head then x else r.slots i
    head := r.head + 1 }

/-- Take at most `k` elements, oldest first. -/
def popUpTo : Nat → CircularBuffer α n → List α × CircularBuffer α n
  | 0, r => ([], r)
  | k + 1, r =>
      if r.isEmpty then
        ([], r)
      else
        let rest := popUpTo k { r with tail := r.tail + 1 }
        (r.slots r.tail :: rest.1, rest.2)

/-! ## The queue it represents -/

/-- How many elements wait in the buffer. -/
def count (r : CircularBuffer α n) : Nat :=
  (r.head - r.tail).val

def contents (r : CircularBuffer α n) : List α :=
  (List.range r.count).map fun i : Nat => r.slots (r.tail + (i : Fin (n + 1)))

theorem count_lt (r : CircularBuffer α n) : r.count < n + 1 :=
  (r.head - r.tail).isLt

@[simp] theorem length_contents (r : CircularBuffer α n) : r.contents.length = r.count := by
  simp [contents]

theorem isEmpty_iff (r : CircularBuffer α n) : r.isEmpty = true ↔ r.contents = [] := by
  rw [← List.length_eq_zero_iff, length_contents, count]
  simp [isEmpty, sub_eq_zero]

@[simp] theorem contents_init (x : α) : (init x : CircularBuffer α n).contents = [] := by
  simp [contents, count, init]

/-- Below the fill level, offset `i` from `tail` does not wrap around to `head`. -/
theorem tail_add_ne_head (r : CircularBuffer α n) {i : Nat} (hi : i < r.count) :
    r.tail + (i : Fin (n + 1)) ≠ r.head := by
  intro h
  have hval : (i : Fin (n + 1)).val = i := by
    have := r.count_lt
    exact Fin.val_cast_of_lt (by omega)
  have : (i : Fin (n + 1)) = r.head - r.tail := by
    rw [← h]; abel
  rw [count, ← this, hval] at hi
  exact Nat.lt_irrefl i hi

theorem tail_add_count (r : CircularBuffer α n) :
    r.tail + (r.count : Fin (n + 1)) = r.head := by
  have : (r.count : Fin (n + 1)) = r.head - r.tail := by
    simp [count]
  rw [this]; abel

theorem count_of_isFull {r : CircularBuffer α n} (h : r.isFull = true) : r.count = n := by
  have htail : r.head + 1 = r.tail := by simpa [isFull] using h
  have hlast : r.head - r.tail + 1 = 0 := by
    rw [← htail]; abel
  have heq : r.head - r.tail = Fin.last n := by
    apply add_right_cancel (b := 1)
    rw [hlast, Fin.last_add_one]
  rw [count, heq]
  rfl

theorem count_push (r : CircularBuffer α n) (x : α) (h : r.isFull = false) :
    (r.push x).count = r.count + 1 := by
  have hne : r.head + 1 ≠ r.tail := by simpa [isFull] using h
  have hlast : r.head - r.tail ≠ Fin.last n := by
    intro hl
    apply hne
    have : r.head - r.tail + 1 = 0 := by rw [hl]; exact Fin.last_add_one n
    have : r.head + 1 - r.tail = 0 := by rw [← this]; abel
    exact sub_eq_zero.1 this
  have hsub : r.head + 1 - r.tail = (r.head - r.tail) + 1 := by abel
  simp only [count, push, hsub]
  exact Fin.val_add_one_of_lt (Fin.lt_last_iff_ne_last.2 hlast)

theorem contents_push (r : CircularBuffer α n) (x : α) (h : r.isFull = false) :
    (r.push x).contents = r.contents ++ [x] := by
  simp only [contents, count_push r x h, List.range_succ, List.map_append, List.map_cons,
    List.map_nil]
  congr 1
  · refine List.map_congr_left ?_
    intro i hi
    have hi' : i < r.count := List.mem_range.1 hi
    simp only [push, if_neg (tail_add_ne_head r hi')]
  · simp only [push, tail_add_count, if_true]

/-- Reading one element removes the head of the queue. -/
theorem contents_pop (r : CircularBuffer α n) (h : r.isEmpty = false) :
    r.contents = r.slots r.tail :: { r with tail := r.tail + 1 }.contents := by
  have hne : r.head ≠ r.tail := by simpa [isEmpty] using h
  have hpos : r.count ≠ 0 := by
    simpa [count, sub_eq_zero] using hne
  have hcount : ({ r with tail := r.tail + 1 } : CircularBuffer α n).count + 1 = r.count := by
    have hsub : r.head - (r.tail + 1) = r.head - r.tail - 1 := by abel
    have hval : (r.head - r.tail - 1).val = (r.head - r.tail).val - 1 :=
      Fin.val_sub_one_of_ne_zero (by simpa [sub_eq_zero] using hne)
    simp only [count, hsub, hval]
    simp only [count] at hpos
    omega
  simp only [contents, ← hcount, List.range_succ_eq_map, List.map_cons, List.map_map]
  refine congrArg₂ _ (by simp) (List.map_congr_left ?_)
  intro i _
  have hcast : ((i + 1 : Nat) : Fin (n + 1)) = 1 + (i : Fin (n + 1)) := by
    push_cast; abel
  simp only [Function.comp_apply, Nat.succ_eq_add_one, hcast, ← add_assoc]

theorem popUpTo_spec (k : Nat) (r : CircularBuffer α n) :
    (r.popUpTo k).1 = r.contents.take k ∧ (r.popUpTo k).2.contents = r.contents.drop k := by
  induction k generalizing r with
  | zero => simp [popUpTo]
  | succ k ih =>
      cases h : r.isEmpty with
      | true =>
          have hnil : r.contents = [] := (isEmpty_iff r).1 h
          simp [popUpTo, h, hnil]
      | false =>
          rcases ih { r with tail := r.tail + 1 } with ⟨htake, hdrop⟩
          rw [contents_pop r h]
          simp [popUpTo, h, htake, hdrop]

end CircularBuffer
