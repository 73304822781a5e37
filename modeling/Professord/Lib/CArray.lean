import Professord.Lib.CText

/-!
# CArray — an array whose block accesses are checked

`load` and `store` are `memcpy` from and into an array `a[n]`, with the offset and the length as
the C code computes them; an access that is not inside the array has no outcome.  `front k` is
what a program that keeps a fill level `k` sees of the array, and `snprintfAt` appends a text
there with its terminator.
-/

structure CArray (α : Type*) (n : Nat) where
  cells : List α
  size : cells.length = n

namespace CArray

variable {α : Type*} {n : Nat}

/-- `memset` -/
def fill (x : α) : CArray α n :=
  ⟨List.replicate n x, List.length_replicate⟩

def load (a : CArray α n) (off len : Int) : Option (List α) :=
  if 0 ≤ off ∧ 0 ≤ len ∧ off + len ≤ n then
    some ((a.cells.drop off.toNat).take len.toNat)
  else
    none

def store (a : CArray α n) (off : Int) (src : List α) : Option (CArray α n) :=
  if h : 0 ≤ off ∧ off + src.length ≤ n then
    some
      { cells := a.cells.take off.toNat ++ src ++ a.cells.drop (off.toNat + src.length)
        size := by
          have hsize := a.size
          simp only [List.length_append, List.length_take, List.length_drop]
          omega }
  else
    none

def front (a : CArray α n) (k : Nat) : List α :=
  a.cells.take k

theorem length_front (a : CArray α n) {k : Nat} (h : k ≤ n) : (a.front k).length = k := by
  have hsize := a.size
  simp only [front, List.length_take]
  omega

/-- A block that ends at the fill level is the end of the front. -/
theorem load_front (a : CArray α n) (off len : Nat) (h : off + len ≤ n) :
    a.load off len = some ((a.front (off + len)).drop off) := by
  have hin : (0 : Int) ≤ off ∧ (0 : Int) ≤ len ∧ (off : Int) + len ≤ n := by omega
  rw [load, if_pos hin, front, List.drop_take]
  simp only [Int.toNat_natCast, Nat.add_sub_cancel_left]

/-- Storing a block at the fill level appends it to the front and leaves the front before it. -/
theorem store_front (a : CArray α n) (off : Nat) (src : List α) (h : off + src.length ≤ n) :
    ∃ b, a.store off src = some b ∧ b.front (off + src.length) = a.front off ++ src ∧
      b.front off = a.front off := by
  have hin : (0 : Int) ≤ off ∧ (off : Int) + src.length ≤ n := by omega
  have hsize := a.size
  have hlen : (a.cells.take off).length = off := by
    rw [List.length_take]
    omega
  refine ⟨_, by rw [store, dif_pos hin], ?_, ?_⟩
  · simp only [front, Int.toNat_natCast]
    rw [List.take_append_of_le_length, List.take_of_length_le]
    · simp only [List.length_append, hlen, Nat.le_refl]
    · simp only [List.length_append, hlen, Nat.le_refl]
  · simp only [front, Int.toNat_natCast, List.append_assoc]
    rw [List.take_append_of_le_length (Nat.le_of_eq hlen.symm),
      List.take_of_length_le (Nat.le_of_eq hlen)]

/-! ## Text -/

/-- `snprintf(a + pos, n - pos, ..)` with the text that its format gives, and `pos` behind it. -/
def snprintfAt (a : CArray UInt8 n) (pos : Nat) (text : Bytes) :
    Option (CArray UInt8 n × Nat) :=
  let room := n - pos
  if room = 0 then
    some (a, pos + text.length)
  else
    (a.store pos (text.take (room - 1) ++ [0])).map fun b => (b, pos + text.length)

/-- A text that fits with its terminator is stored in full. -/
theorem snprintfAt_front (a : CArray UInt8 n) (pos : Nat) (text : Bytes)
    (h : pos + text.length < n) :
    ∃ b, a.snprintfAt pos text = some (b, pos + text.length) ∧
      b.front (pos + text.length) = a.front pos ++ text ∧
      b.front (pos + text.length + 1) = a.front pos ++ text ++ [0] := by
  have hroom : ¬ n - pos = 0 := by omega
  have hfits : text.take (n - pos - 1) = text := List.take_of_length_le (by omega)
  have hlen : (text ++ [0]).length = text.length + 1 := List.length_append
  rcases a.store_front pos (text ++ [0]) (by omega) with ⟨b, hstore, hfront, _⟩
  rw [hlen, ← Nat.add_assoc] at hfront
  refine ⟨b, ?_, ?_, by rw [hfront, List.append_assoc]⟩
  · rw [snprintfAt, if_neg hroom, hfits, hstore, Option.map_some]
  · have htake : b.front (pos + text.length) =
        (b.front (pos + text.length + 1)).take (pos + text.length) := by
      rw [front, front, List.take_take, Nat.min_eq_left (Nat.le_succ _)]
    have hleft : (a.front pos ++ text).length = pos + text.length := by
      rw [List.length_append, length_front _ (by omega)]
    rw [htake, hfront, ← List.append_assoc, List.take_append_of_le_length (Nat.le_of_eq hleft.symm),
      List.take_of_length_le (Nat.le_of_eq hleft)]

/-- The array starts with the string of a terminated front. -/
theorem cstr_of_front {a : CArray UInt8 n} {k : Nat} {text : Bytes}
    (h : a.front k = text ++ [0]) :
    0 ∈ a.cells ∧ CText.cstr a.cells = CText.cstr text := by
  have hcells : a.cells = text ++ 0 :: a.cells.drop k := by
    rw [← List.singleton_append, ← List.append_assoc, ← h]
    exact (List.take_append_drop k a.cells).symm
  refine ⟨by rw [hcells]; simp, ?_⟩
  rw [hcells, CText.cstr, CText.cstr, List.takeWhile_append]
  split
  · next hall =>
      have hself : text.takeWhile (· ≠ 0) = text :=
        (List.takeWhile_prefix _).eq_of_length hall
      rw [hself, List.takeWhile_cons_of_neg (by simp), List.append_nil]
  · rfl

/-- Terminating the text of a front. -/
theorem store_terminator (a : CArray UInt8 n) (off : Nat) (h : off < n) :
    ∃ b, a.store off [0] = some b ∧ 0 ∈ b.cells ∧
      CText.cstr b.cells = CText.cstr (a.front off) := by
  rcases a.store_front off [0] h with ⟨b, hstore, hfront, _⟩
  exact ⟨b, hstore, cstr_of_front hfront⟩

/-- Texts appended one after another. -/
theorem snprintfAt_foldlM {β : Type*} (f : β → Bytes) (xs : List β) (a : CArray UInt8 n)
    (pos : Nat) (h : pos + (xs.flatMap f).length < n) :
    ∃ b, xs.foldlM (fun s x => s.1.snprintfAt s.2 (f x)) (a, pos) =
        some (b, pos + (xs.flatMap f).length) ∧
      b.front (pos + (xs.flatMap f).length) = a.front pos ++ xs.flatMap f := by
  induction xs generalizing a pos with
  | nil => exact ⟨a, rfl, (List.append_nil _).symm⟩
  | cons x xs ih =>
      simp only [List.flatMap_cons, List.length_append] at h ⊢
      rcases a.snprintfAt_front pos (f x) (by omega) with ⟨b, hprint, hfront, _⟩
      rcases ih b (pos + (f x).length) (by omega) with ⟨c, hrest, hlast⟩
      refine ⟨c, ?_, ?_⟩
      · rw [List.foldlM_cons, hprint, ← Nat.add_assoc]
        exact hrest
      · rw [← Nat.add_assoc, hlast, hfront, List.append_assoc]

end CArray
