import Professord.Lib.Json
import Professord.Lib.Numeral

/-!
# JsonText — JSON as bytes

`decode` reads a JSON text: the grammar of RFC 8259 over bytes, where bytes from 0x80 on stand for
themselves in strings and numbers become the nearest `double`.  `scanString` reads the rest of a
string literal up to its closing quote; `Plain` texts are those that it gives back unchanged.
-/

namespace JsonText

open CText Numeral

/-! ## String literals -/

def hex4 (a b c d : UInt8) : Option Nat := do
  let a ← hexDigit a
  let b ← hexDigit b
  let c ← hexDigit c
  let d ← hexDigit d
  return ((a * 16 + b) * 16 + c) * 16 + d

/-- The UTF-8 encoding of a code point. -/
def utf8 (cp : Nat) : Bytes :=
  if cp < 0x80 then [cp.toUInt8]
  else if cp < 0x800 then [(0xC0 + cp / 0x40).toUInt8, (0x80 + cp % 0x40).toUInt8]
  else if cp < 0x10000 then
    [(0xE0 + cp / 0x1000).toUInt8, (0x80 + cp / 0x40 % 0x40).toUInt8, (0x80 + cp % 0x40).toUInt8]
  else
    [(0xF0 + cp / 0x40000).toUInt8, (0x80 + cp / 0x1000 % 0x40).toUInt8,
      (0x80 + cp / 0x40 % 0x40).toUInt8, (0x80 + cp % 0x40).toUInt8]

def simpleEscape (b : UInt8) : Option UInt8 :=
  match b with
  | 34 => some 34
  | 92 => some 92
  | 47 => some 47
  | 98 => some 8
  | 102 => some 12
  | 110 => some 10
  | 114 => some 13
  | 116 => some 9
  | _ => none

/-- What an escape stands for, behind its backslash. -/
def scanEscape : Bytes → Option (Bytes × Bytes)
  | 117 :: a :: b :: c :: d :: rest =>
      match hex4 a b c d with
      | none => none
      | some u =>
          if 0xD800 ≤ u ∧ u < 0xDC00 then
            -- a surrogate pair
            match rest with
            | 92 :: 117 :: e :: f :: g :: h :: rest =>
                match hex4 e f g h with
                | none => none
                | some v =>
                    if 0xDC00 ≤ v ∧ v < 0xE000 then
                      some (utf8 (0x10000 + (u - 0xD800) * 0x400 + (v - 0xDC00)), rest)
                    else
                      none
            | _ => none
          else if 0xDC00 ≤ u ∧ u < 0xE000 then
            none
          else
            some (utf8 u, rest)
  | b :: rest => (simpleEscape b).map fun x => ([x], rest)
  | [] => none

/-- The text up to the closing quote, and what follows that; `fuel` is the length left. -/
def scanChars : Nat → Bytes → Option (Bytes × Bytes)
  | 0, _ => none
  | _, [] => none
  | fuel + 1, b :: rest =>
      if b = 34 then
        some ([], rest)
      else if b = 92 then
        match scanEscape rest with
        | none => none
        | some (out, rest) => (scanChars fuel rest).map fun r => (out ++ r.1, r.2)
      else if b < 32 then
        none
      else
        (scanChars fuel rest).map fun r => (b :: r.1, r.2)

def scanString (text : Bytes) : Option (Bytes × Bytes) :=
  scanChars text.length text

/-- A byte that stands for itself in a string literal. -/
def plainByte (b : UInt8) : Bool :=
  b != 34 && b != 92 && decide (32 ≤ b)

def Plain (text : Bytes) : Prop :=
  ∀ b ∈ text, plainByte b = true

instance (text : Bytes) : Decidable (Plain text) :=
  List.decidableBAll _ text

/-! ### What a scan consumes -/

theorem length_utf8_le (cp : Nat) : (utf8 cp).length ≤ 4 := by
  unfold utf8
  split_ifs <;> simp

theorem hexDigit_ne_quote {b : UInt8} {v : Nat} (h : hexDigit b = some v) : b ≠ 34 := by
  rintro rfl
  simp [hexDigit] at h

/-- Hexadecimal digits are no quotes. -/
theorem hex4_noQuote {a b c d : UInt8} {v : Nat} (h : hex4 a b c d = some v) :
    34 ∉ [a, b, c, d] := by
  simp only [hex4, Option.bind_eq_bind, Option.bind_eq_some_iff] at h
  rcases h with ⟨_, ha, _, hb, _, hc, _, hd, _⟩
  simp [(hexDigit_ne_quote ha).symm, (hexDigit_ne_quote hb).symm, (hexDigit_ne_quote hc).symm,
    (hexDigit_ne_quote hd).symm]

/-- An escape is longer than what it stands for, and has a quote in it only as `\"`. -/
theorem scanEscape_spec {text out rest : Bytes} (h : scanEscape text = some (out, rest)) :
    ∃ e, text = e ++ rest ∧ e ≠ [] ∧ out.length ≤ e.length ∧ (34 ∈ e → e = [34] ∧ out = [34]) := by
  revert h
  fun_cases scanEscape text <;> intro h
  -- a surrogate pair, a single `\u`, and the one-letter escapes, of which `\"` is the quote
  case case3 a b c d u hu hhigh e f g i tail v hv hlow =>
    simp only [Option.some.injEq, Prod.mk.injEq] at h
    have hlen := length_utf8_le (0x10000 + (u - 0xD800) * 0x400 + (v - 0xDC00))
    refine ⟨[117, a, b, c, d, 92, 117, e, f, g, i], by simp [h.2], by simp, ?_, ?_⟩
    · rw [← h.1]
      exact Nat.le_trans hlen (by simp)
    · have hab := hex4_noQuote hu
      have hef := hex4_noQuote hv
      simp only [List.mem_cons, List.not_mem_nil, or_false, not_or] at hab hef
      simp [hab, hef]
  case case7 a b c d tail u hu hhigh hlow =>
    simp only [Option.some.injEq, Prod.mk.injEq] at h
    have hlen := length_utf8_le u
    refine ⟨[117, a, b, c, d], by simp [h.2], by simp, ?_, ?_⟩
    · rw [← h.1]
      exact Nat.le_trans hlen (by simp)
    · have hab := hex4_noQuote hu
      simp only [List.mem_cons, List.not_mem_nil, or_false, not_or] at hab
      simp [hab]
  case case8 b tail hne =>
    rcases Option.map_eq_some_iff.1 h with ⟨x, hx, heq⟩
    cases heq
    refine ⟨[b], rfl, by simp, by simp, ?_⟩
    intro hquote
    obtain rfl : 34 = b := by simpa using hquote
    simpa [simpleEscape] using hx.symm
  all_goals cases h

/-- What a scan consumes: no less than it gives back, and as much only if nothing was escaped; and
a quote inside is given back further in front. -/
structure Consumes (text s rest c : Bytes) : Prop where
  text : text = c ++ 34 :: rest
  length : s.length ≤ c.length
  plain : s.length = c.length → s = c ∧ Plain c
  quote : ∀ c₁ c₂, c = c₁ ++ 34 :: c₂ → ∃ s₁ s₂, s = s₁ ++ 34 :: s₂ ∧ s₁.length < c₁.length

theorem Consumes.nil (rest : Bytes) : Consumes (34 :: rest) [] rest [] where
  text := rfl
  length := Nat.le_refl _
  plain := fun _ => ⟨rfl, by simp [Plain]⟩
  quote := by simp

theorem Consumes.cons {text s rest c : Bytes} {b : UInt8} (h : Consumes text s rest c)
    (hb : plainByte b = true) : Consumes (b :: text) (b :: s) rest (b :: c) where
  text := by rw [h.text, List.cons_append]
  length := Nat.succ_le_succ h.length
  plain hlen := by
    rcases h.plain (Nat.succ.inj hlen) with ⟨rfl, hplain⟩
    exact ⟨rfl, by simpa [Plain, hb] using hplain⟩
  quote c₁ c₂ heq := by
    cases c₁ with
    | nil =>
        obtain ⟨rfl, _⟩ := List.cons.inj heq
        simp [plainByte] at hb
    | cons x c₁ =>
        obtain ⟨rfl, htail⟩ := List.cons.inj heq
        rcases h.quote c₁ c₂ htail with ⟨s₁, s₂, rfl, hlt⟩
        exact ⟨b :: s₁, s₂, rfl, Nat.succ_lt_succ hlt⟩

theorem Consumes.escape {tail s rest c e out : Bytes} (h : Consumes tail s rest c)
    (hlen : out.length ≤ e.length) (hquote : 34 ∈ e → e = [34] ∧ out = [34]) :
    Consumes (92 :: (e ++ tail)) (out ++ s) rest (92 :: e ++ c) where
  text := by simp [h.text]
  length := by
    have hle := h.length
    simp only [List.length_append, List.length_cons]
    omega
  plain heq := by
    -- an escape is longer than what it stands for
    have hle := h.length
    simp only [List.length_append, List.length_cons] at heq
    omega
  quote c₁ c₂ heq := by
    rcases List.append_eq_append_iff.1 heq with ⟨a, hc₁, hc⟩ | ⟨a, he, hc⟩
    · -- behind the escape
      rcases h.quote a c₂ hc with ⟨s₁, s₂, rfl, hlt⟩
      refine ⟨out ++ s₁, s₂, by simp, ?_⟩
      rw [hc₁]
      simp only [List.length_append, List.length_cons]
      omega
    · cases a with
      | nil =>
          rcases h.quote [] c₂ hc.symm with ⟨s₁, _, _, hlt⟩
          simp at hlt
      | cons x a =>
          -- in the escape, which is then `\"`
          obtain ⟨rfl, _⟩ := List.cons.inj hc
          have hmem : 34 ∈ 92 :: e := he ▸ List.mem_append_right _ List.mem_cons_self
          rcases hquote (by simpa using hmem) with ⟨rfl, rfl⟩
          refine ⟨[], s, rfl, ?_⟩
          cases c₁ with
          | nil => simp at he
          | cons y c₁ => simp

theorem scanChars_consumes (fuel : Nat) {text s rest : Bytes}
    (h : scanChars fuel text = some (s, rest)) : ∃ c, Consumes text s rest c := by
  induction fuel generalizing text s with
  | zero => simp [scanChars] at h
  | succ fuel ih =>
      cases text with
      | nil => simp [scanChars] at h
      | cons b tail =>
          unfold scanChars at h
          split_ifs at h with hquote hescape hcontrol
          · cases h
            exact ⟨[], hquote ▸ Consumes.nil _⟩
          -- an escape, then the rest of the string
          · cases hscan : scanEscape tail with
            | none => simp [hscan] at h
            | some r =>
                rcases r with ⟨out, tail'⟩
                simp only [hscan, Option.map_eq_some_iff] at h
                rcases h with ⟨⟨s', rest'⟩, hrest, heq⟩
                cases heq
                rcases ih hrest with ⟨c, hc⟩
                rcases scanEscape_spec hscan with ⟨e, rfl, _, hlen, hin⟩
                exact ⟨_, hescape ▸ hc.escape hlen hin⟩
          · rcases Option.map_eq_some_iff.1 h with ⟨⟨s', rest'⟩, hrest, heq⟩
            cases heq
            rcases ih hrest with ⟨c, hc⟩
            -- neither quote, backslash nor control: the byte stands for itself
            have hplain : plainByte b = true := by
              simp [plainByte, hquote, hescape, UInt8.not_lt.1 hcontrol]
            exact ⟨_, hc.cons hplain⟩

/-- Fuel for the length of the text is enough. -/
theorem scanChars_fuel {text : Bytes} {f g : Nat} (hf : text.length ≤ f) (hg : text.length ≤ g) :
    scanChars f text = scanChars g text := by
  induction f generalizing g text with
  | zero =>
      obtain rfl := List.length_eq_zero_iff.1 (Nat.le_zero.1 hf)
      cases g <;> rfl
  | succ f ih =>
      cases text with
      | nil => cases g <;> rfl
      | cons b tail =>
          cases g with
          | zero => simp at hg
          | succ g =>
              have hf' : tail.length ≤ f := Nat.le_of_succ_le_succ hf
              have hg' : tail.length ≤ g := Nat.le_of_succ_le_succ hg
              unfold scanChars
              split_ifs
              · rfl
              · cases hscan : scanEscape tail with
                | none => rfl
                | some r =>
                    -- the escape itself has consumed something
                    rcases scanEscape_spec hscan with ⟨e, htail, _, _, _⟩
                    have hle : r.2.length ≤ tail.length := by
                      rw [htail, List.length_append]
                      exact Nat.le_add_left _ _
                    simp only [ih (Nat.le_trans hle hf') (Nat.le_trans hle hg')]
              · rfl
              · rw [ih hf' hg']

@[simp] theorem scanString_quote (rest : Bytes) : scanString (34 :: rest) = some ([], rest) := by
  simp [scanString, scanChars]

theorem scanString_plain {b : UInt8} (h : plainByte b = true) (rest : Bytes) :
    scanString (b :: rest) = (scanString rest).map fun r => (b :: r.1, r.2) := by
  simp only [plainByte, Bool.and_eq_true, bne_iff_ne, decide_eq_true_eq] at h
  simp [scanString, scanChars, h.1.1, h.1.2, UInt8.not_lt.2 h.2]

theorem scanString_escape {text out rest : Bytes} (h : scanEscape text = some (out, rest)) :
    scanString (92 :: text) = (scanString rest).map fun r => (out ++ r.1, r.2) := by
  rcases scanEscape_spec h with ⟨e, rfl, _, _, _⟩
  -- the fuel of the longer text does as well
  have hfuel : scanChars (e ++ rest).length rest = scanString rest :=
    scanChars_fuel (by simp) (Nat.le_refl _)
  rw [← hfuel]
  simp [scanString, scanChars, h]

/-! ### Texts that read as themselves -/

/-- A plain text behind which the closing quote stands reads as itself. -/
theorem scanString_of_plain {text : Bytes} (h : Plain text) (rest : Bytes) :
    scanString (text ++ 34 :: rest) = some (text, rest) := by
  induction text with
  | nil => exact scanString_quote rest
  | cons b text ih =>
      have hb := h b List.mem_cons_self
      have htext : Plain text := fun x hx => h x (List.mem_cons_of_mem _ hx)
      rw [List.cons_append, scanString_plain hb, ih htext]
      rfl

/-- No other text does: what stands for `text` would go on behind the quote after `text`, and each
quote in it would have been given back further in front. -/
theorem plain_of_scanString {text rest r : Bytes}
    (h : scanString (text ++ 34 :: rest) = some (text, r)) : Plain text := by
  rcases scanChars_consumes _ h with ⟨c, hc⟩
  rcases Nat.lt_or_eq_of_le hc.length with hlt | heq
  · exfalso
    obtain ⟨c', hc'⟩ : ∃ c', c = text ++ 34 :: c' := by
      have htext := hc.text
      rcases List.append_eq_append_iff.1 htext with ⟨a, ha, htail⟩ | ⟨a, ha, htail⟩
      · cases a with
        | nil => simp [ha] at hlt
        | cons x a =>
            obtain ⟨rfl, _⟩ := List.cons.inj htail
            exact ⟨a, ha⟩
      · rw [ha, List.length_append] at hlt
        omega
    -- the first quote in `c` cannot exist
    have hnone : ∀ n c₁ c₂, c₁.length = n → n ≤ text.length → c ≠ c₁ ++ 34 :: c₂ := by
      intro n
      induction n using Nat.strong_induction_on with
      | _ n ih =>
          intro c₁ c₂ hn hle hsplit
          rcases hc.quote c₁ c₂ hsplit with ⟨s₁, s₂, hs, hless⟩
          refine ih s₁.length (hn ▸ hless) s₁ (s₂ ++ 34 :: c') rfl (by omega) ?_
          rw [hc', hs]
          simp
    exact hnone text.length text c' rfl (Nat.le_refl _) hc'
  · rcases hc.plain heq with ⟨rfl, hplain⟩
    exact hplain

/-! ## Numbers -/

/-- The digits behind a decimal point, if there is one. -/
def scanFraction : Bytes → Option (Bytes × Bytes)
  | 46 :: rest =>
      match rest.span (isDigit 10) with
      | ([], _) => none
      | (digits, rest) => some (digits, rest)
  | rest => some ([], rest)

def scanExponent : Bytes → Option (Int × Bytes)
  | [] => some (0, [])
  | b :: rest =>
      if b = 101 ∨ b = 69 then
        let signed : Int × Bytes :=
          match rest with
          | 43 :: rest => (1, rest)
          | 45 :: rest => (-1, rest)
          | rest => (1, rest)
        match signed.2.span (isDigit 10) with
        | ([], _) => none
        | (digits, rest) => some (signed.1 * digitsValue 10 digits, rest)
      else
        some (0, b :: rest)

/-- A number without its sign; it has no leading zeros. -/
def scanUnsigned (text : Bytes) : Option (ℚ × Bytes) :=
  match text.span (isDigit 10) with
  | ([], _) => none
  | (48 :: _ :: _, _) => none
  | (digits, rest) => do
      let (fraction, rest) ← scanFraction rest
      let (exponent, rest) ← scanExponent rest
      return (digitsValue 10 (digits ++ fraction) * 10 ^ (exponent - fraction.length), rest)

def scanNumber : Bytes → Option (ℚ × Bytes)
  | 45 :: rest => (scanUnsigned rest).map fun r => (-r.1, r.2)
  | text => scanUnsigned text

theorem span_digits {digits : Bytes} {b : UInt8} (hdigits : ∀ x ∈ digits, isDigit 10 x = true)
    (hb : isDigit 10 b = false) (rest : Bytes) :
    (digits ++ b :: rest).span (isDigit 10) = (digits, b :: rest) := by
  rw [List.span_eq_takeWhile_dropWhile, List.takeWhile_append_of_pos hdigits,
    List.dropWhile_append_of_pos hdigits]
  simp [hb]

/-- A byte behind a value in an array or an object. -/
def Delimits (b : UInt8) : Prop :=
  b = 44 ∨ b = 93 ∨ b = 125

theorem scanFraction_delimited {b : UInt8} (hb : Delimits b) (rest : Bytes) :
    scanFraction (b :: rest) = some ([], b :: rest) := by
  rcases hb with rfl | rfl | rfl <;> rfl

theorem scanExponent_delimited {b : UInt8} (hb : Delimits b) (rest : Bytes) :
    scanExponent (b :: rest) = some (0, b :: rest) := by
  rcases hb with rfl | rfl | rfl <;> rfl

/-- A natural number in front of a delimiter reads as itself. -/
theorem scanUnsigned_delimited (n : Nat) {b : UInt8} (hb : Delimits b) (rest : Bytes) :
    scanUnsigned (decimalNat n ++ b :: rest) = some ((n : ℚ), b :: rest) := by
  rcases decimalNat_head (n := n) with ⟨c, ds, hhead, hzero⟩
  have hdigit : isDigit 10 b = false := by
    rcases hb with rfl | rfl | rfl <;> decide
  have hspan := span_digits (fun x hx => decimalNat_isDigit (n := n) hx) hdigit rest
  have hvalue := digitsValue_decimalNat n
  unfold scanUnsigned
  rw [hspan, hhead]
  rw [hhead] at hvalue
  split
  · next heq => cases heq
  · next heq =>
      -- a leading zero is the whole number
      obtain ⟨hds, _⟩ := Prod.mk.inj heq
      obtain ⟨hb, htail⟩ := List.cons.inj hds
      rw [hzero hb] at htail
      cases htail
  · next heq =>
      cases heq
      simp [scanFraction_delimited hb, scanExponent_delimited hb, hvalue]

theorem scanNumber_delimited (z : Int) {b : UInt8} (hb : Delimits b) (rest : Bytes) :
    scanNumber (decimal z ++ b :: rest) = some ((z : ℚ), b :: rest) := by
  unfold decimal
  split_ifs with hneg
  · have habs : ((z.natAbs : ℚ)) = -(z : ℚ) := by
      have hcast : ((z.natAbs : Int) : ℚ) = -(z : ℚ) := by
        rw [Int.ofNat_natAbs_of_nonpos (Int.le_of_lt hneg)]
        simp
      simpa using hcast
    simp [scanNumber, scanUnsigned_delimited _ hb, habs]
  · have habs : ((z.natAbs : ℚ)) = (z : ℚ) := by
      have hcast : ((z.natAbs : Int) : ℚ) = (z : ℚ) := by
        rw [Int.natAbs_of_nonneg (Int.not_lt.1 hneg)]
      simpa using hcast
    rcases decimalNat_head (n := z.natAbs) with ⟨c, ds, hhead, _⟩
    -- a digit is no sign
    have hc : c ≠ 45 := by
      rintro rfl
      have hmem : 45 ∈ decimalNat z.natAbs := hhead ▸ List.mem_cons_self
      exact absurd (decimalNat_isDigit hmem) (by decide)
    have hsame : scanNumber (decimalNat z.natAbs ++ b :: rest)
        = scanUnsigned (decimalNat z.natAbs ++ b :: rest) := by
      rw [hhead, List.cons_append, scanNumber]
      simpa using hc
    rw [hsame, scanUnsigned_delimited _ hb, habs]

/-! ## Values -/

def isSpace (b : UInt8) : Bool :=
  b == 32 || b == 9 || b == 10 || b == 13

def skipSpace (text : Bytes) : Bytes :=
  text.dropWhile isSpace

/-- A value that is neither an object nor an array. -/
def parseScalar : Bytes → Option (Json × Bytes)
  | 34 :: rest => (scanString rest).map fun r => (.string r.1, r.2)
  | 110 :: 117 :: 108 :: 108 :: rest => some (.null, rest)
  | 116 :: 114 :: 117 :: 101 :: rest => some (.bool true, rest)
  | 102 :: 97 :: 108 :: 115 :: 101 :: rest => some (.bool false, rest)
  | text => (scanNumber text).map fun r => (.number (roundDouble r.1), r.2)

mutual

/-- `fuel` bounds the calls; each of them has a byte of its own. -/
def parseValue : Nat → Bytes → Option (Json × Bytes)
  | 0, _ => none
  | fuel + 1, text =>
      match skipSpace text with
      | 123 :: rest =>
          match skipSpace rest with
          | 125 :: rest => some (.object [], rest)
          | rest => (parseMembers fuel rest).map fun r => (.object r.1, r.2)
      | 91 :: rest =>
          match skipSpace rest with
          | 93 :: rest => some (.array [], rest)
          | rest => (parseItems fuel rest).map fun r => (.array r.1, r.2)
      | rest => parseScalar rest

/-- The members of an object and its closing brace. -/
def parseMembers : Nat → Bytes → Option (List (Bytes × Json) × Bytes)
  | 0, _ => none
  | fuel + 1, text =>
      match skipSpace text with
      | 34 :: rest =>
          match scanString rest with
          | none => none
          | some (key, rest) =>
              match skipSpace rest with
              | 58 :: rest =>
                  match parseValue fuel rest with
                  | none => none
                  | some (value, rest) =>
                      match skipSpace rest with
                      | 44 :: rest =>
                          (parseMembers fuel rest).map fun r => ((key, value) :: r.1, r.2)
                      | 125 :: rest => some ([(key, value)], rest)
                      | _ => none
              | _ => none
      | _ => none

/-- The items of an array and its closing bracket. -/
def parseItems : Nat → Bytes → Option (List Json × Bytes)
  | 0, _ => none
  | fuel + 1, text =>
      match parseValue fuel text with
      | none => none
      | some (value, rest) =>
          match skipSpace rest with
          | 44 :: rest => (parseItems fuel rest).map fun r => (value :: r.1, r.2)
          | 93 :: rest => some ([value], rest)
          | _ => none

end

/-- The value that a JSON text stands for. -/
def decode (text : Bytes) : Option Json :=
  match parseValue (text.length + 1) text with
  | some (value, rest) => if skipSpace rest = [] then some value else none
  | none => none

/-! ### Reading what was written -/

section Written

variable {fuel : Nat} {key text rest : Bytes} {value : Json}

theorem parseValue_string (fuel : Nat) (text : Bytes) :
    parseValue (fuel + 1) (34 :: text) = (scanString text).map fun r => (.string r.1, r.2) := by
  simp [parseValue, skipSpace, isSpace, parseScalar]

theorem parseValue_plain (hplain : Plain text) (fuel : Nat) (rest : Bytes) :
    parseValue (fuel + 1) (34 :: (text ++ 34 :: rest)) = some (.string text, rest) := by
  rw [parseValue_string, scanString_of_plain hplain]
  rfl

theorem parseValue_null (fuel : Nat) (rest : Bytes) :
    parseValue (fuel + 1) (110 :: 117 :: 108 :: 108 :: rest) = some (.null, rest) := by
  simp [parseValue, skipSpace, isSpace, parseScalar]

theorem parseValue_number {b : UInt8} (h : b = 45 ∨ isDigit 10 b = true) (text : Bytes) :
    parseValue (fuel + 1) (b :: text) =
      (scanNumber (b :: text)).map fun r => (.number (roundDouble r.1), r.2) := by
  have hne : ∀ x : UInt8, x ≠ 45 → isDigit 10 x = false → b ≠ x := by
    rintro x hx hdigit rfl
    rcases h with rfl | h
    · exact hx rfl
    · rw [hdigit] at h
      cases h
  have hspace : isSpace b = false := by
    simp [isSpace, hne 32 (by decide) (by decide), hne 9 (by decide) (by decide),
      hne 10 (by decide) (by decide), hne 13 (by decide) (by decide)]
  have h123 : b ≠ 123 := hne 123 (by decide) (by decide)
  have h91 : b ≠ 91 := hne 91 (by decide) (by decide)
  have h34 : b ≠ 34 := hne 34 (by decide) (by decide)
  have h110 : b ≠ 110 := hne 110 (by decide) (by decide)
  have h116 : b ≠ 116 := hne 116 (by decide) (by decide)
  have h102 : b ≠ 102 := hne 102 (by decide) (by decide)
  simp [parseValue, skipSpace, hspace, parseScalar, h123, h91, h34, h110, h116, h102]

theorem decimal_head (z : Int) :
    ∃ b ds, decimal z = b :: ds ∧ (b = 45 ∨ isDigit 10 b = true) := by
  unfold decimal
  split_ifs
  · exact ⟨45, _, rfl, .inl rfl⟩
  · rcases decimalNat_head (n := z.natAbs) with ⟨b, ds, hhead, _⟩
    exact ⟨b, ds, hhead, .inr (decimalNat_isDigit (hhead ▸ List.mem_cons_self))⟩

theorem parseValue_decimal (fuel : Nat) (z : Int) (rest : Bytes) :
    parseValue (fuel + 1) (decimal z ++ 44 :: rest) =
      some (.number (roundDouble z), 44 :: rest) := by
  rcases decimal_head z with ⟨b, ds, hhead, hb⟩
  have hscan := scanNumber_delimited z (.inl rfl) rest
  rw [hhead, List.cons_append] at hscan ⊢
  rw [parseValue_number hb, hscan]
  rfl

theorem parseValue_object (fuel : Nat) (text : Bytes) :
    parseValue (fuel + 1) (123 :: 34 :: text) =
      (parseMembers fuel (34 :: text)).map fun r => (.object r.1, r.2) := by
  simp [parseValue, skipSpace, isSpace]

theorem parseValue_array (fuel : Nat) (text : Bytes) :
    parseValue (fuel + 1) (91 :: 123 :: text) =
      (parseItems fuel (123 :: text)).map fun r => (.array r.1, r.2) := by
  simp [parseValue, skipSpace, isSpace]

theorem parseItems_last (h : parseValue fuel text = some (value, 93 :: rest)) :
    parseItems (fuel + 1) text = some ([value], rest) := by
  simp [parseItems, h, skipSpace, isSpace]

/-- A member whose key is plain. -/
theorem parseMembers_cons (hkey : Plain key) (fuel : Nat) (text : Bytes) :
    parseMembers (fuel + 1) (34 :: (key ++ 34 :: 58 :: text)) =
      match parseValue fuel text with
      | none => none
      | some (value, rest) =>
          match skipSpace rest with
          | 44 :: rest => (parseMembers fuel rest).map fun r => ((key, value) :: r.1, r.2)
          | 125 :: rest => some ([(key, value)], rest)
          | _ => none := by
  have hquote : ∀ tail, skipSpace (34 :: tail) = 34 :: tail := fun _ => rfl
  have hcolon : ∀ tail, skipSpace (58 :: tail) = 58 :: tail := fun _ => rfl
  rw [parseMembers, hquote]
  simp only [scanString_of_plain hkey, hcolon]

theorem parseMembers_more (hkey : Plain key)
    (h : parseValue fuel text = some (value, 44 :: rest)) :
    parseMembers (fuel + 1) (34 :: (key ++ 34 :: 58 :: text)) =
      (parseMembers fuel rest).map fun r => ((key, value) :: r.1, r.2) := by
  rw [parseMembers_cons hkey, h]
  rfl

theorem parseMembers_last (hkey : Plain key)
    (h : parseValue fuel text = some (value, 125 :: rest)) :
    parseMembers (fuel + 1) (34 :: (key ++ 34 :: 58 :: text)) = some ([(key, value)], rest) := by
  rw [parseMembers_cons hkey, h]
  rfl

/-- The first member that was read is the one that stands first. -/
theorem parseMembers_head {members : List (Bytes × Json)} (hkey : Plain key)
    (h : parseMembers (fuel + 1) (34 :: (key ++ 34 :: 58 :: text)) = some (members, rest)) :
    ∃ value behind tail, parseValue fuel text = some (value, behind) ∧
      members = (key, value) :: tail := by
  rw [parseMembers_cons hkey] at h
  cases hvalue : parseValue fuel text with
  | none => simp [hvalue] at h
  | some r =>
      rcases r with ⟨value, behind⟩
      simp only [hvalue] at h
      split at h
      · rcases Option.map_eq_some_iff.1 h with ⟨r, _, heq⟩
        cases heq
        exact ⟨value, behind, r.1, rfl, rfl⟩
      · cases h
        exact ⟨value, behind, [], rfl, rfl⟩
      · cases h

end Written

/-! ## Escaping -/

/-- The character behind the backslash for the bytes that have one. -/
def escapeLetter (b : UInt8) : Option UInt8 :=
  match b with
  | 8 => some 98
  | 12 => some 102
  | 10 => some 110
  | 13 => some 114
  | 9 => some 116
  | 92 => some 92
  | 34 => some 34
  | _ => none

def hexOf (d : Nat) : UInt8 :=
  if d < 10 then (48 + d).toUInt8 else (87 + d).toUInt8

def escapeByte (b : UInt8) : Bytes :=
  match escapeLetter b with
  | some letter => [92, letter]
  | none => if b < 32 then [92, 117, 48, 48, hexOf (b.toNat / 16), hexOf (b.toNat % 16)] else [b]

/-- A text as it stands in a string literal. -/
def escapeJson (text : Bytes) : Bytes :=
  text.flatMap escapeByte

theorem scanEscape_letter {b letter : UInt8} (h : escapeLetter b = some letter) (rest : Bytes) :
    scanEscape (letter :: rest) = some ([b], rest) := by
  revert h
  fun_cases escapeLetter b <;> intro h <;> cases h <;> rfl

theorem scanEscape_control {b : UInt8} (h : b < 32) (rest : Bytes) :
    scanEscape (117 :: 48 :: 48 :: hexOf (b.toNat / 16) :: hexOf (b.toNat % 16) :: rest) =
      some ([b], rest) := by
  have hhex : ∀ n : Fin 32, hex4 48 48 (hexOf (n.val / 16)) (hexOf (n.val % 16)) = some n.val := by
    decide
  have hlt : b.toNat < 32 := by simpa [UInt8.lt_iff_toNat_lt] using h
  have hb := hhex ⟨b.toNat, hlt⟩
  have hhigh : ¬ (0xD800 ≤ b.toNat ∧ b.toNat < 0xDC00) := by omega
  have hlow : ¬ (0xDC00 ≤ b.toNat ∧ b.toNat < 0xE000) := by omega
  have hascii : b.toNat < 0x80 := by omega
  simp only [scanEscape, hb, if_neg hhigh, if_neg hlow, utf8, if_pos hascii]
  simp

theorem scanString_escapeByte (b : UInt8) (rest : Bytes) :
    scanString (escapeByte b ++ rest) = (scanString rest).map fun r => (b :: r.1, r.2) := by
  unfold escapeByte
  cases hletter : escapeLetter b with
  | some letter => exact scanString_escape (scanEscape_letter hletter rest)
  | none =>
      dsimp only
      split_ifs with hcontrol
      · exact scanString_escape (scanEscape_control hcontrol rest)
      · have hquote : b ≠ 34 := by
          rintro rfl
          cases hletter
        have hslash : b ≠ 92 := by
          rintro rfl
          cases hletter
        have hplain : plainByte b = true := by
          simp [plainByte, hquote, hslash, UInt8.not_lt.1 hcontrol]
        exact scanString_plain hplain rest

/-- An escaped text is read back. -/
theorem scanString_escapeJson (text rest : Bytes) :
    scanString (escapeJson text ++ 34 :: rest) = some (text, rest) := by
  induction text with
  | nil => exact scanString_quote rest
  | cons b text ih =>
      have hcons : escapeJson (b :: text) ++ 34 :: rest =
          escapeByte b ++ (escapeJson text ++ 34 :: rest) := by
        simp [escapeJson]
      rw [hcons, scanString_escapeByte, ih]
      rfl

end JsonText
