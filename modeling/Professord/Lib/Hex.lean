import Professord.Lib.Numeral

/-!
# Hex — bytes as hexadecimal text, and words as bytes

`%02x` for each byte of a block, and the bytes of a machine word as they lie in memory.
-/

namespace Hex

open Numeral

/-! ## Text -/

def digit (d : Nat) : UInt8 :=
  if d < 10 then (48 + d).toUInt8 else (87 + d).toUInt8

/-- `%02x` -/
def byteText (b : UInt8) : Bytes :=
  [digit (b.toNat / 16), digit (b.toNat % 16)]

def text (bytes : Bytes) : Bytes :=
  bytes.flatMap byteText

/-- Read pairs of digits. -/
def read : Bytes → Option Bytes
  | [] => some []
  | [_] => none
  | a :: b :: rest => do
      let high ← hexDigit a
      let low ← hexDigit b
      let bytes ← read rest
      some ((16 * high + low).toUInt8 :: bytes)

/-- A lower-case digit. -/
def isDigitByte (b : UInt8) : Bool :=
  decide (48 ≤ b) && decide (b ≤ 57) || decide (97 ≤ b) && decide (b ≤ 102)

theorem hexDigit_digit {d : Nat} (h : d < 16) : hexDigit (digit d) = some d := by
  have hall : ∀ d : Fin 16, hexDigit (digit d) = some d.val := by decide
  exact hall ⟨d, h⟩

theorem isDigitByte_digit {d : Nat} (h : d < 16) : isDigitByte (digit d) = true := by
  have hall : ∀ d : Fin 16, isDigitByte (digit d) = true := by decide
  exact hall ⟨d, h⟩

theorem text_cons (b : UInt8) (bytes : Bytes) :
    text (b :: bytes) = digit (b.toNat / 16) :: digit (b.toNat % 16) :: text bytes :=
  rfl

/-- What is written reads as it was. -/
theorem read_text (bytes : Bytes) : read (text bytes) = some bytes := by
  induction bytes with
  | nil => rfl
  | cons b bytes ih =>
      have hb : b.toNat < 256 := b.toNat_lt
      have hwhole : 16 * (b.toNat / 16) + b.toNat % 16 = b.toNat := Nat.div_add_mod _ _
      rw [text_cons, read, hexDigit_digit (by omega), hexDigit_digit (by omega), ih]
      simp only [Option.bind_eq_bind, Option.bind_some, hwhole, Nat.toUInt8, UInt8.ofNat_toNat]

theorem text_injective : Function.Injective text := by
  intro bytes bytes' h
  have hread := congrArg read h
  rw [read_text, read_text] at hread
  exact Option.some.inj hread

theorem length_text (bytes : Bytes) : (text bytes).length = 2 * bytes.length := by
  induction bytes with
  | nil => rfl
  | cons b bytes ih =>
      rw [text_cons, List.length_cons, List.length_cons, ih, List.length_cons]
      omega

theorem isDigitByte_of_mem {bytes : Bytes} {b : UInt8} (h : b ∈ text bytes) :
    isDigitByte b = true := by
  obtain ⟨c, -, hb⟩ := List.mem_flatMap.1 h
  have hc : c.toNat < 256 := c.toNat_lt
  simp only [byteText, List.mem_cons, List.not_mem_nil, or_false] at hb
  rcases hb with rfl | rfl
  · exact isDigitByte_digit (by omega)
  · exact isDigitByte_digit (by omega)

/-! ## Words -/

/-- The low `n` bytes of a word, the lowest first. -/
def littleEndian : Nat → Int → Bytes
  | 0, _ => []
  | n + 1, z => (z % 256).toNat.toUInt8 :: littleEndian n (z / 256)

theorem length_littleEndian (n : Nat) (z : Int) : (littleEndian n z).length = n := by
  induction n generalizing z with
  | zero => rfl
  | succ n ih => rw [littleEndian, List.length_cons, ih]

theorem take_littleEndian {k n : Nat} (h : k ≤ n) (z : Int) :
    (littleEndian n z).take k = littleEndian k z := by
  induction k generalizing n z with
  | zero => rfl
  | succ k ih =>
      obtain ⟨m, rfl⟩ : ∃ m, n = m + 1 := ⟨n - 1, by omega⟩
      rw [littleEndian, List.take_succ_cons, ih (by omega), littleEndian]

theorem emod_mul {q : Int} (hq : 0 < q) (x : Int) :
    x % (256 * q) = x % 256 + 256 * (x / 256 % q) := by
  have hlow := Int.emod_add_mul_ediv x 256
  have hhigh := Int.emod_add_mul_ediv (x / 256) q
  have hpos := Int.emod_nonneg (x / 256) (Int.ne_of_gt hq)
  have hlt := Int.emod_lt_of_pos (x / 256) hq
  have hunique := (Int.ediv_emod_unique (a := x) (b := 256 * q) (q := x / 256 / q)
    (r := x % 256 + 256 * (x / 256 % q)) (by omega)).2 ⟨?_, by omega, by omega⟩
  · exact hunique.2
  · calc x % 256 + 256 * (x / 256 % q) + 256 * q * (x / 256 / q)
        = x % 256 + 256 * (x / 256 % q + q * (x / 256 / q)) := by ring
      _ = x := by rw [hhigh, hlow]

/-- The bytes tell the words of one residue apart from the others. -/
theorem littleEndian_eq_iff (n : Nat) (z w : Int) :
    littleEndian n z = littleEndian n w ↔ z % 256 ^ n = w % 256 ^ n := by
  induction n generalizing z w with
  | zero => simp [littleEndian]
  | succ n ih =>
      have hlow : (z % 256).toNat.toUInt8 = (w % 256).toNat.toUInt8 ↔ z % 256 = w % 256 := by
        rw [← UInt8.toNat_inj]
        simp only [Nat.toUInt8, UInt8.toNat_ofNat']
        omega
      have hsplit : ∀ x : Int, x % 256 ^ (n + 1) = x % 256 + 256 * (x / 256 % 256 ^ n) := by
        intro x
        rw [Int.pow_succ', emod_mul (Int.pow_pos (by decide))]
      rw [littleEndian, littleEndian, List.cons.injEq, hlow, ih, hsplit z, hsplit w]
      omega

end Hex
