import Mathlib.Data.Nat.Digits.Lemmas
import Professord.Lib.CText

/-!
# Numeral — numbers written in digits

Reading a run of digits, and the decimal text that `printf` gives for `%lld`.
-/

namespace Numeral

def hexDigit (b : UInt8) : Option Nat :=
  if 48 ≤ b ∧ b ≤ 57 then some (b - 48).toNat
  else if 65 ≤ b ∧ b ≤ 70 then some (b - 55).toNat
  else if 97 ≤ b ∧ b ≤ 102 then some (b - 87).toNat
  else none

def isDigit (base : Nat) (b : UInt8) : Bool :=
  match hexDigit b with
  | some d => decide (d < base)
  | none => false

/-- The number that a run of digits stands for. -/
def digitsValue (base : Nat) (digits : Bytes) : Nat :=
  digits.foldl (fun n b => n * base + (hexDigit b).getD 0) 0

/-- The byte of a decimal digit. -/
def decimalDigit (d : Nat) : UInt8 :=
  (48 + d).toUInt8

def decimalNat (n : Nat) : Bytes :=
  if n = 0 then [48] else ((Nat.digits 10 n).map decimalDigit).reverse

/-- `%lld` -/
def decimal (z : Int) : Bytes :=
  if z < 0 then 45 :: decimalNat z.natAbs else decimalNat z.natAbs

theorem hexDigit_decimalDigit {d : Nat} (h : d < 10) : hexDigit (decimalDigit d) = some d := by
  have hall : ∀ d : Fin 10, hexDigit (decimalDigit d) = some d.val := by decide
  exact hall ⟨d, h⟩

/-- `digitsValue` reads from the most significant digit on, `Nat.ofDigits` from the least. -/
theorem digitsValue_reverse {ds : List Nat} (h : ∀ d ∈ ds, d < 10) :
    digitsValue 10 (ds.map decimalDigit).reverse = Nat.ofDigits 10 ds := by
  induction ds with
  | nil => rfl
  | cons d ds ih =>
      have hd := hexDigit_decimalDigit (h d List.mem_cons_self)
      have hrest := ih fun x hx => h x (List.mem_cons_of_mem _ hx)
      simp only [digitsValue, List.foldl_reverse] at hrest
      simp only [digitsValue, List.map_cons, List.reverse_cons, List.foldl_append,
        List.foldl_cons, List.foldl_nil, List.foldl_reverse, hrest, hd, Option.getD_some,
        Nat.ofDigits_cons]
      simp [Nat.mul_comm, Nat.add_comm]

/-- The digits that are printed read as the number. -/
theorem digitsValue_decimalNat (n : Nat) : digitsValue 10 (decimalNat n) = n := by
  unfold decimalNat
  split_ifs with hn
  · rw [hn]
    rfl
  · rw [digitsValue_reverse fun d hd => Nat.digits_lt_base (by decide) hd, Nat.ofDigits_digits]

theorem decimalNat_isDigit {n : Nat} {b : UInt8} (h : b ∈ decimalNat n) :
    isDigit 10 b = true := by
  unfold decimalNat at h
  split_ifs at h with hn
  · obtain rfl := List.mem_singleton.1 h
    decide
  · rcases List.mem_map.1 (List.mem_reverse.1 h) with ⟨d, hd, rfl⟩
    have hlt : d < 10 := Nat.digits_lt_base (by decide) hd
    simp [isDigit, hexDigit_decimalDigit hlt, hlt]

theorem zero_notMem_decimalNat (n : Nat) : 0 ∉ decimalNat n := by
  intro h
  have hdigit := decimalNat_isDigit h
  revert hdigit
  decide

theorem exists_of_mem_decimalNat {n : Nat} {b : UInt8} (h : b ∈ decimalNat n) :
    ∃ d : Fin 10, b = decimalDigit d := by
  unfold decimalNat at h
  split_ifs at h
  · exact ⟨0, List.mem_singleton.1 h⟩
  · rcases List.mem_map.1 (List.mem_reverse.1 h) with ⟨d, hd, rfl⟩
    exact ⟨⟨d, Nat.digits_lt_base (by decide) hd⟩, rfl⟩

theorem decimalNat_length {n k : Nat} (h : n < 10 ^ k) (hk : 0 < k) :
    (decimalNat n).length ≤ k := by
  unfold decimalNat
  split_ifs
  · exact hk
  · simpa using (Nat.digits_length_le_iff (by decide) n).2 h

theorem decimal_natCast (n : Nat) : decimal n = decimalNat n := by
  unfold decimal
  rw [if_neg (by omega), Int.natAbs_natCast]

/-- Only the number zero is printed with a leading zero. -/
theorem decimalNat_head {n : Nat} : ∃ b ds, decimalNat n = b :: ds ∧ (b = 48 → ds = []) := by
  unfold decimalNat
  split_ifs with hn
  · exact ⟨48, [], rfl, fun _ => rfl⟩
  · have hne : Nat.digits 10 n ≠ [] := Nat.digits_ne_nil_iff_ne_zero.2 hn
    have hlast := Nat.getLast_digit_ne_zero 10 hn
    have hlt : (Nat.digits 10 n).getLast hne < 10 :=
      Nat.digits_lt_base (by decide) (List.getLast_mem hne)
    rw [← List.dropLast_append_getLast hne]
    refine ⟨decimalDigit ((Nat.digits 10 n).getLast hne),
      ((Nat.digits 10 n).dropLast.map decimalDigit).reverse, by simp, ?_⟩
    intro hzero
    have hback := hexDigit_decimalDigit hlt
    rw [hzero] at hback
    exact absurd (Option.some.inj hback).symm hlast

end Numeral
