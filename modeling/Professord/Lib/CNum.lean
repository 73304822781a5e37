import Mathlib.Data.Int.Log
import Mathlib.Data.Rat.Floor

/-!
# CNum — C numbers with their own arithmetic

`wrap32 x` is the `int32_t` that an exact integer result is reduced to, and `CFloat` a `float` or
`double` as an exact value, an infinity or NaN with C's ordered comparisons (false whenever NaN
takes part).  `roundBinary` is the IEEE rounding of an exact value to a binary format.
-/

/-- Reduction modulo `2^32` to the signed range. -/
def wrap32 (x : Int) : Int :=
  x.bmod (2 ^ 32)

/-- An `int32_t` can hold the value. -/
def InInt32 (x : Int) : Prop :=
  -2 ^ 31 ≤ x ∧ x < 2 ^ 31

theorem wrap32_of_inInt32 {x : Int} (h : InInt32 x) : wrap32 x = x := by
  obtain ⟨hlo, hhi⟩ := h
  exact Int.bmod_eq_of_le (by omega) (by omega)

inductive CFloat
  | nan
  | negInf
  | fin (q : ℚ)
  | posInf
  deriving DecidableEq

namespace CFloat

instance : Inhabited CFloat := ⟨.fin 0⟩

/-- `a < b` -/
def lt : CFloat → CFloat → Bool
  | .nan, _ => false
  | _, .nan => false
  | .negInf, .negInf => false
  | .negInf, _ => true
  | .posInf, _ => false
  | .fin _, .negInf => false
  | .fin a, .fin b => a < b
  | .fin _, .posInf => true

/-- `a == b` -/
def eq : CFloat → CFloat → Bool
  | .nan, _ => false
  | a, b => a == b

/-- `a <= b` -/
def le (a b : CFloat) : Bool :=
  lt a b || eq a b

/-- Finite and in `[lo, hi]`. -/
def Within (lo hi : ℚ) : CFloat → Prop
  | .fin q => lo ≤ q ∧ q ≤ hi
  | .nan | .negInf | .posInf => False

/-- Finite and in `(lo, hi]`. -/
def WithinAbove (lo hi : ℚ) : CFloat → Prop
  | .fin q => lo < q ∧ q ≤ hi
  | .nan | .negInf | .posInf => False

theorem lt_fin {a b : ℚ} : lt (.fin a) (.fin b) = true ↔ a < b := by
  simp [lt]

end CFloat

/-! ## Rounding -/

/-- The nearest integer, ties to even. -/
def roundEven (q : ℚ) : Int :=
  let low := ⌊q⌋
  let rest := q - low
  if rest < 1 / 2 then low
  else if 1 / 2 < rest then low + 1
  else if low % 2 = 0 then low
  else low + 1

/-- Round to a binary format with `prec` significant bits and exponents from `emin` to `emax`. -/
def roundBinary (prec : Nat) (emin emax : Int) (q : ℚ) : CFloat :=
  if q = 0 then
    .fin 0
  else
    -- below the smallest normal number the spacing stays constant
    let exponent := max (Int.log 2 |q|) emin
    let ulp : ℚ := 2 ^ (exponent - (prec - 1))
    let rounded := roundEven (q / ulp) * ulp
    if 2 ^ (emax + 1) ≤ |rounded| then
      if q < 0 then .negInf else .posInf
    else
      .fin rounded

theorem roundEven_intCast (z : Int) : roundEven (z : ℚ) = z := by
  simp [roundEven]

/-- An integer with no more bits than the significand is not rounded. -/
theorem roundBinary_intCast {prec : Nat} {emin emax : Int} {z : Int} (hz : |z| < 2 ^ prec)
    (hmin : emin ≤ 0) (hmax : (prec : Int) ≤ emax + 1) :
    roundBinary prec emin emax z = .fin z := by
  by_cases hzero : z = 0
  · simp [roundBinary, hzero]
  have habs : (1 : ℚ) ≤ |(z : ℚ)| := by exact_mod_cast Int.one_le_abs hzero
  have hpos : (0 : ℚ) < |(z : ℚ)| := by linarith
  have hlt : |(z : ℚ)| < 2 ^ (prec : Int) := by
    rw [zpow_natCast]
    exact_mod_cast hz
  have hlow : 0 ≤ Int.log 2 |(z : ℚ)| := by
    rw [← Int.zpow_le_iff_le_log (by norm_num) hpos]
    simpa using habs
  have hhigh : Int.log 2 |(z : ℚ)| < prec := by
    rw [← Int.lt_zpow_iff_log_lt (by norm_num) hpos]
    exact_mod_cast hlt
  -- the unit in the last place divides every integer
  obtain ⟨k, hk⟩ : ∃ k : Nat, Int.log 2 |(z : ℚ)| - (prec - 1) = -(k : Int) :=
    ⟨(prec - 1 - Int.log 2 |(z : ℚ)|).toNat, by omega⟩
  have hscaled : (z : ℚ) / 2 ^ (-(k : Int)) = ((z * 2 ^ k : Int) : ℚ) := by
    rw [zpow_neg, div_inv_eq_mul, zpow_natCast]
    push_cast
    rfl
  have hback : ((z * 2 ^ k : Int) : ℚ) * 2 ^ (-(k : Int)) = z := by
    rw [← hscaled]
    exact div_mul_cancel₀ _ (zpow_ne_zero _ (by norm_num))
  have hfits : ¬ (2 : ℚ) ^ (emax + 1) ≤ |(z : ℚ)| :=
    not_le.2 (lt_of_lt_of_le hlt (zpow_le_zpow_right₀ (by norm_num) hmax))
  have hne : (z : ℚ) ≠ 0 := by exact_mod_cast hzero
  simp only [roundBinary, if_neg hne, max_eq_left (hmin.trans hlow), hk, hscaled,
    roundEven_intCast, hback, if_neg hfits]

/-- The `double` nearest to an exact value. -/
def roundDouble : ℚ → CFloat :=
  roundBinary 53 (-1022) 1023

theorem roundDouble_intCast {z : Int} (hz : |z| < 2 ^ 53) : roundDouble z = .fin z :=
  roundBinary_intCast hz (by norm_num) (by norm_num)

namespace CFloat

/-- `(float)v` -/
def toFloat : CFloat → CFloat
  | .fin q => roundBinary 24 (-126) 127 q
  | v => v

/-- `(int32_t)v`: truncation, where C leaves open what a value out of range gives. -/
def toInt32 (outOfRange : CFloat → Int) : CFloat → Int
  | .fin q =>
      let t := if 0 ≤ q then ⌊q⌋ else ⌈q⌉
      if -2 ^ 31 ≤ t ∧ t < 2 ^ 31 then t else outOfRange (.fin q)
  | v => outOfRange v

end CFloat
