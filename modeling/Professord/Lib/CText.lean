import Mathlib.Algebra.GroupWithZero.Nat
import Mathlib.Data.List.TakeDrop

/-!
# CText — byte strings as C sees them

Text is a list of bytes.  `cstr b` is the NUL-terminated string that starts the buffer `b`
(what `strlen`, `strcmp` and `"%s"` see), `CBuf n` is the text a `char[n]` field holds, and
`CBuf.snprintf` is `snprintf(dst, sizeof(dst), "%s", src)`.
-/

abbrev Bytes := List UInt8

namespace CText

/-- The bytes of an ASCII literal. -/
def ascii (s : String) : Bytes :=
  s.toList.map fun c => c.toNat.toUInt8

/-- `tolower` of the C locale. -/
def toLower (b : UInt8) : UInt8 :=
  if 65 ≤ b ∧ b ≤ 90 then b + 32 else b

def cstr (b : Bytes) : Bytes :=
  b.takeWhile (· ≠ 0)

theorem zero_notMem_cstr (b : Bytes) : 0 ∉ cstr b := by
  intro h
  have hall := List.all_takeWhile (l := b) (p := (· ≠ 0))
  simpa using List.all_eq_true.1 hall 0 h

theorem cstr_of_zero_notMem {b : Bytes} (h : 0 ∉ b) : cstr b = b := by
  induction b with
  | nil => rfl
  | cons x xs ih =>
      have hx : x ≠ 0 := fun hx => h (hx ▸ List.mem_cons_self)
      have hxs : 0 ∉ xs := fun hxs => h (List.mem_cons_of_mem _ hxs)
      simpa [cstr, hx] using ih hxs

/-- A terminated string reads as itself. -/
theorem cstr_terminated {b : Bytes} (h : 0 ∉ b) : cstr (b ++ [0]) = b := by
  induction b with
  | nil => rfl
  | cons x xs ih =>
      have hx : x ≠ 0 := fun hx => h (hx ▸ List.mem_cons_self)
      have hxs : 0 ∉ xs := fun hxs => h (List.mem_cons_of_mem _ hxs)
      simpa [cstr, hx] using ih hxs

end CText

open CText

/-- The text of a `char[n]` field: it fits with its terminator and contains no NUL. -/
structure CBuf (n : Nat) where
  text : Bytes
  fits : text.length < n
  noNul : 0 ∉ text
  deriving DecidableEq, Repr

namespace CBuf

variable {n : Nat}

@[ext] theorem ext {a b : CBuf n} (h : a.text = b.text) : a = b := by
  cases a; cases b; cases h; rfl

def empty [NeZero n] : CBuf n :=
  ⟨[], Nat.pos_of_ne_zero (NeZero.ne n), by simp⟩

instance [NeZero n] : Inhabited (CBuf n) := ⟨empty⟩

def snprintf [NeZero n] (src : Bytes) : CBuf n where
  text := (cstr src).take (n - 1)
  fits := by
    have hn : 0 < n := Nat.pos_of_ne_zero (NeZero.ne n)
    have := List.length_take_le (n - 1) (cstr src)
    omega
  noNul := fun h => zero_notMem_cstr src (List.mem_of_mem_take h)

/-- A string that fits its field is stored in full. -/
theorem snprintf_text [NeZero n] {src : Bytes} (hnul : 0 ∉ src) (hlen : src.length < n) :
    (snprintf src : CBuf n).text = src := by
  have hcstr : cstr src = src := cstr_of_zero_notMem hnul
  simp only [snprintf, hcstr]
  exact List.take_of_length_le (by omega)

end CBuf
