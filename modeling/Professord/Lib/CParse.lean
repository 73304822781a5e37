import Mathlib.Data.List.DropRight
import Professord.Lib.CNum
import Professord.Lib.Numeral

/-!
# CParse — C library functions that read text

`isspace`, `strtol` and `strtof` in the C locale, with a 64-bit `long` and IEEE `float`, and
`strtok_r` and `fgets` as the lists that their repeated calls give.
-/

namespace CParse

open CText Numeral

def isspace (b : UInt8) : Bool :=
  b == 32 || decide (9 ≤ b ∧ b ≤ 13)

/-- A text without the blanks around it. -/
def strip (text : Bytes) : Bytes :=
  (text.dropWhile isspace).rdropWhile isspace

/-- The bytes of a text that are no blanks. -/
def ink (text : Bytes) : Bytes :=
  text.filter fun b => !isspace b

/-! ## Numbers -/

/-- An optional sign; `true` is minus. -/
def scanSign : Bytes → Bool × Bytes
  | 45 :: rest => (true, rest)
  | 43 :: rest => (false, rest)
  | rest => (false, rest)

/-- `strtol(text, NULL, 10)`, which saturates. -/
def strtol (text : Bytes) : Int :=
  let (negative, rest) := scanSign (text.dropWhile isspace)
  let magnitude : Int := digitsValue 10 (rest.takeWhile (isDigit 10))
  if negative then max (-2 ^ 63) (-magnitude) else min (2 ^ 63 - 1) magnitude

/-- The decimal text of an integer, blanks around it apart: an optional sign and digits. -/
def DecimalText (text : Bytes) (n : Int) : Prop :=
  ∃ digits : Bytes, digits ≠ [] ∧ (∀ b ∈ digits, isDigit 10 b = true) ∧
    ((strip text = digits ∨ strip text = 43 :: digits) ∧ n = digitsValue 10 digits ∨
      strip text = 45 :: digits ∧ n = -digitsValue 10 digits)

/-- `(int32_t)strtol(text, NULL, 10)` -/
def strtol32 (text : Bytes) : Int :=
  wrap32 (strtol text)

/-- Digits with an optional point; there must be a digit. -/
def scanMantissa (base : Nat) (text : Bytes) : Option (ℚ × Bytes) :=
  let whole := text.takeWhile (isDigit base)
  let (fraction, rest) :=
    match text.dropWhile (isDigit base) with
    | 46 :: rest => (rest.takeWhile (isDigit base), rest.dropWhile (isDigit base))
    | rest => ([], rest)
  if whole ++ fraction = [] then
    none
  else
    some (digitsValue base (whole ++ fraction) / base ^ fraction.length, rest)

/-- The exponent behind its letter, 0 if there is none. -/
def scanPower (lower upper : UInt8) : Bytes → Int
  | [] => 0
  | b :: rest =>
      if b = lower ∨ b = upper then
        let (negative, rest) := scanSign rest
        let magnitude : Int := digitsValue 10 (rest.takeWhile (isDigit 10))
        if negative then -magnitude else magnitude
      else
        0

def startsWithWord (word : String) (text : Bytes) : Bool :=
  (ascii word).isPrefixOf (text.map toLower)

/-- The exact value of a hexadecimal number behind its `0x`, which needs a digit. -/
def scanHex : Bytes → Option ℚ
  | 48 :: b :: rest =>
      if b = 120 ∨ b = 88 then
        (scanMantissa 16 rest).map fun r => r.1 * 2 ^ scanPower 112 80 r.2
      else
        none
  | _ => none

def scanDecimal (text : Bytes) : ℚ :=
  match scanMantissa 10 text with
  | some (mantissa, rest) => mantissa * 10 ^ scanPower 101 69 rest
  | none => 0

/-- `strtof(text, NULL)`, rounded to nearest; the sign of zero and of NaN is left out. -/
def strtof (text : Bytes) : CFloat :=
  let (negative, rest) := scanSign (text.dropWhile isspace)
  if startsWithWord "inf" rest then
    if negative then .negInf else .posInf
  else if startsWithWord "nan" rest then
    .nan
  else
    let magnitude := (scanHex rest).getD (scanDecimal rest)
    CFloat.toFloat (.fin (if negative then -magnitude else magnitude))

/-! ## Tokens and lines -/

/-- The tokens that `strtok_r` gives one after another. -/
def strtok (sep : UInt8) (text : Bytes) : List Bytes :=
  (text.splitOn sep).filter (· ≠ [])

/-- The lines that `fgets` reads into a buffer with `room` bytes for text: up to a newline, and no
more than fits.  `left` is what the current line still has room for, `line` what it has, backwards. -/
def fgetsLines (room : Nat) : Nat → Bytes → Bytes → List Bytes
  | _, line, [] => if line = [] then [] else [line.reverse]
  | left, line, b :: rest =>
      if b = 10 ∨ left ≤ 1 then
        (b :: line).reverse :: fgetsLines room room [] rest
      else
        fgetsLines room (left - 1) (b :: line) rest

/-! ## What they give -/

section Blanks

variable {b : UInt8} {text : Bytes}

@[simp] theorem strip_nil : strip [] = [] := rfl

theorem strip_cons_of_isspace (h : isspace b = true) (text : Bytes) :
    strip (b :: text) = strip text := by
  simp [strip, h]

theorem strip_cons_of_not_isspace (h : isspace b = false) (text : Bytes) :
    strip (b :: text) = (b :: text).rdropWhile isspace := by
  simp [strip, h]

/-- Trimming on the right stops at a byte that is no blank. -/
theorem rdropWhile_append_cons (h : isspace b = false) (front back : Bytes) :
    (front ++ b :: back).rdropWhile isspace = front ++ b :: back.rdropWhile isspace := by
  induction back using List.reverseRecOn with
  | nil => simp [List.rdropWhile_concat_neg, h]
  | append_singleton back x ih =>
      have hassoc : front ++ b :: (back ++ [x]) = (front ++ b :: back) ++ [x] := by simp
      rw [hassoc]
      by_cases hx : isspace x = true
      · rw [List.rdropWhile_concat_pos _ _ _ hx, ih, List.rdropWhile_concat_pos _ _ _ hx]
      · rw [List.rdropWhile_concat_neg _ _ _ hx, List.rdropWhile_concat_neg _ _ _ hx, hassoc]

theorem strip_append_blank (h : isspace b = true) (text : Bytes) :
    strip (text ++ [b]) = strip text := by
  unfold strip
  -- a text of blanks is stripped away whole, with or without one more
  by_cases hall : ∀ x ∈ text, isspace x = true
  · rw [List.dropWhile_append_of_pos hall, List.dropWhile_eq_nil_iff.2 hall]
    simp [h]
  · have hne : text.dropWhile isspace ≠ [] := fun hnil => hall (List.dropWhile_eq_nil_iff.1 hnil)
    rw [List.dropWhile_append, if_neg (by simpa using hne), List.rdropWhile_concat_pos _ _ _ h]

theorem strip_rdropWhile (text : Bytes) : strip (text.rdropWhile isspace) = strip text := by
  induction text using List.reverseRecOn with
  | nil => rfl
  | append_singleton text x ih =>
      by_cases hx : isspace x = true
      · rw [List.rdropWhile_concat_pos _ _ _ hx, ih, strip_append_blank hx]
      · rw [List.rdropWhile_concat_neg _ _ _ hx]

theorem strip_of_forall (h : ∀ x ∈ text, isspace x = false) : strip text = text := by
  cases text with
  | nil => rfl
  | cons b text =>
      rw [strip_cons_of_not_isspace (h b List.mem_cons_self), List.rdropWhile_eq_self_iff]
      intro hne
      simpa using h _ (List.getLast_mem hne)

theorem mem_of_mem_strip {x : UInt8} (h : x ∈ strip text) : x ∈ text :=
  (List.dropWhile_sublist _).subset ((List.rdropWhile_prefix _ _).subset h)

theorem ink_nil : ink [] = [] := rfl

theorem ink_append (front back : Bytes) : ink (front ++ back) = ink front ++ ink back :=
  List.filter_append _ _

theorem ink_eq_nil_iff : ink text = [] ↔ ∀ x ∈ text, isspace x = true := by
  simp [ink, List.filter_eq_nil_iff]

theorem strip_append_of_ink (h : ink text = []) (front : Bytes) :
    strip (front ++ text) = strip front := by
  induction text using List.reverseRecOn with
  | nil => rw [List.append_nil]
  | append_singleton text x ih =>
      rw [ink_append, List.append_eq_nil_iff] at h
      have hx : isspace x = true := ink_eq_nil_iff.1 h.2 x List.mem_cons_self
      rw [← List.append_assoc, strip_append_blank hx, ih h.1]

theorem append_strip_of_ink (h : ink text = []) (back : Bytes) :
    strip (text ++ back) = strip back := by
  induction text with
  | nil => rfl
  | cons x text ih =>
      have hblank := ink_eq_nil_iff.1 h
      rw [List.cons_append, strip_cons_of_isspace (hblank x List.mem_cons_self),
        ih (ink_eq_nil_iff.2 fun y hy => hblank y (List.mem_cons_of_mem _ hy))]

theorem ink_strip (text : Bytes) : ink (strip text) = ink text := by
  have hdrop : ∀ l : Bytes, ink (l.dropWhile isspace) = ink l := by
    intro l
    induction l with
    | nil => rfl
    | cons b l ih =>
        by_cases hb : isspace b = true
        · rw [List.dropWhile_cons_of_pos hb, ih]
          simp [ink, hb]
        · rw [List.dropWhile_cons_of_neg hb]
  have hreverse : ∀ l : Bytes, ink l.reverse = (ink l).reverse := fun l => List.filter_reverse
  rw [strip, List.rdropWhile, hreverse, hdrop, hreverse, hdrop, List.reverse_reverse]

theorem strip_eq_nil_iff : strip text = [] ↔ ink text = [] := by
  constructor
  · intro h
    rw [← ink_strip, h, ink_nil]
  · intro h
    simpa using strip_append_of_ink h []

end Blanks

section Numbers

theorem takeWhile_append_stop {p : UInt8 → Bool} {front rest : Bytes}
    (hfront : ∀ b ∈ front, p b = true) (hrest : ∀ b ∈ rest.head?, p b = false) :
    (front ++ rest).takeWhile p = front := by
  rw [List.takeWhile_append_of_pos hfront]
  cases rest with
  | nil => simp
  | cons b rest => simp [hrest b (by simp)]

/-- Digits have no sign. -/
theorem scanSign_of_isDigit {digits : Bytes} (hne : digits ≠ [])
    (hdigits : ∀ b ∈ digits, isDigit 10 b = true) (rest : Bytes) :
    scanSign (digits ++ rest) = (false, digits ++ rest) := by
  cases digits with
  | nil => exact absurd rfl hne
  | cons b ds =>
      have hb := hdigits b List.mem_cons_self
      rw [List.cons_append]
      unfold scanSign
      split
      · next heq =>
          rw [(List.cons.inj heq).1] at hb
          exact absurd hb (by decide)
      · next heq =>
          rw [(List.cons.inj heq).1] at hb
          exact absurd hb (by decide)
      · rfl

/-- A decimal text stands for one integer. -/
theorem DecimalText.unique {text : Bytes} {n m : Int} (hn : DecimalText text n)
    (hm : DecimalText text m) : n = m := by
  obtain ⟨digits, -, hdigits, hsign⟩ := hn
  obtain ⟨digits', -, hdigits', hsign'⟩ := hm
  have hplus : ∀ {l : Bytes}, (∀ b ∈ l, isDigit 10 b = true) → ∀ t, l ≠ 43 :: t := by
    rintro l hl t rfl
    exact absurd (hl 43 List.mem_cons_self) (by decide)
  have hminus : ∀ {l : Bytes}, (∀ b ∈ l, isDigit 10 b = true) → ∀ t, l ≠ 45 :: t := by
    rintro l hl t rfl
    exact absurd (hl 45 List.mem_cons_self) (by decide)
  rcases hsign with ⟨htext | htext, rfl⟩ | ⟨htext, rfl⟩ <;>
    rcases hsign' with ⟨htext' | htext', rfl⟩ | ⟨htext', rfl⟩
  · rw [← htext, ← htext']
  · exact absurd (htext.symm.trans htext') (hplus hdigits _)
  · exact absurd (htext.symm.trans htext') (hminus hdigits _)
  · exact absurd (htext'.symm.trans htext) (hplus hdigits' _)
  · rw [(List.cons.inj (htext.symm.trans htext')).2]
  · exact absurd (List.cons.inj (htext.symm.trans htext')).1 (by decide)
  · exact absurd (htext'.symm.trans htext) (hminus hdigits' _)
  · exact absurd (List.cons.inj (htext.symm.trans htext')).1 (by decide)
  · rw [(List.cons.inj (htext.symm.trans htext')).2]

/-- The decimal text of a number is read up to the first byte that is no digit. -/
theorem strtol_decimal {n : Nat} (h : n < 2 ^ 63) {rest : Bytes}
    (hrest : ∀ b ∈ rest.head?, isDigit 10 b = false) : strtol (decimal n ++ rest) = n := by
  rcases @decimalNat_head n with ⟨b, ds, htext, _⟩
  have hdigits : ∀ x ∈ b :: ds, isDigit 10 x = true :=
    fun x hx => decimalNat_isDigit (htext ▸ hx)
  have hb : isspace b = false := by
    have hall : ∀ d : Fin 10, isspace (decimalDigit d) = false := by decide
    rcases exists_of_mem_decimalNat (htext ▸ List.mem_cons_self) with ⟨d, rfl⟩
    exact hall d
  -- there is no blank and no sign before the digits
  have hsign : scanSign (b :: (ds ++ rest)) = (false, b :: (ds ++ rest)) :=
    scanSign_of_isDigit (List.cons_ne_nil b ds) hdigits rest
  have hblank : (b :: (ds ++ rest)).dropWhile isspace = b :: (ds ++ rest) :=
    List.dropWhile_cons_of_neg (by simp [hb])
  have htake : (b :: (ds ++ rest)).takeWhile (isDigit 10) = b :: ds :=
    takeWhile_append_stop hdigits hrest
  have hvalue : digitsValue 10 (b :: ds) = n := htext ▸ digitsValue_decimalNat n
  -- below `2 ^ 63` the value is not cut off
  have hlt : (n : Int) < 2 ^ 63 := by exact_mod_cast h
  rw [decimal_natCast, htext, List.cons_append, strtol, hblank, hsign]
  simp only [htake, hvalue, Bool.false_eq_true, if_false]
  omega

end Numbers

theorem mem_of_mem_splitOn {sep x : UInt8} {text piece : Bytes} (hpiece : piece ∈ text.splitOn sep)
    (hx : x ∈ piece) : x ∈ text := by
  induction text generalizing piece with
  | nil =>
      obtain rfl : piece = [] := by simpa using hpiece
      cases hx
  | cons y text ih =>
      rw [List.splitOn_cons_eq_if_modifyHead] at hpiece
      split_ifs at hpiece
      · rcases List.mem_cons.1 hpiece with rfl | hpiece
        · cases hx
        · exact List.mem_cons_of_mem _ (ih hpiece hx)
      · cases hsplit : text.splitOn sep with
        | nil => exact absurd hsplit (List.splitOn_ne_nil _ _)
        | cons first pieces =>
            rw [hsplit, List.modifyHead_cons] at hpiece
            rcases List.mem_cons.1 hpiece with rfl | hpiece
            · rcases List.mem_cons.1 hx with rfl | hx
              · exact List.mem_cons_self
              · exact List.mem_cons_of_mem _ (ih (hsplit ▸ List.mem_cons_self) hx)
            · exact List.mem_cons_of_mem _ (ih (hsplit ▸ List.mem_cons_of_mem _ hpiece) hx)

theorem sep_notMem_of_mem_splitOn {sep : UInt8} {text piece : Bytes}
    (hpiece : piece ∈ text.splitOn sep) : sep ∉ piece := by
  induction text generalizing piece with
  | nil =>
      obtain rfl : piece = [] := by simpa using hpiece
      simp
  | cons y text ih =>
      rw [List.splitOn_cons_eq_if_modifyHead] at hpiece
      split_ifs at hpiece with hy
      · rcases List.mem_cons.1 hpiece with rfl | hpiece
        · simp
        · exact ih hpiece
      · cases hsplit : text.splitOn sep with
        | nil => exact absurd hsplit (List.splitOn_ne_nil _ _)
        | cons first pieces =>
            rw [hsplit, List.modifyHead_cons] at hpiece
            rcases List.mem_cons.1 hpiece with rfl | hpiece
            · have hfirst := ih (hsplit ▸ List.mem_cons_self)
              have hne : sep ≠ y := fun h => hy (by simp [h])
              simp [hne, hfirst]
            · exact ih (hsplit ▸ List.mem_cons_of_mem _ hpiece)

theorem fgetsLines_cons (room left : Nat) (line : Bytes) (b : UInt8) (rest : Bytes) :
    fgetsLines room left line (b :: rest) =
      if b = 10 ∨ left ≤ 1 then (b :: line).reverse :: fgetsLines room room [] rest
      else fgetsLines room (left - 1) (b :: line) rest :=
  rfl

/-- The pieces that are read make up the text. -/
theorem flatten_fgetsLines (room left : Nat) (line content : Bytes) :
    (fgetsLines room left line content).flatten = line.reverse ++ content := by
  induction content generalizing left line with
  | nil =>
      unfold fgetsLines
      split_ifs with hnil
      · simp [hnil]
      · simp
  | cons b rest ih =>
      rw [fgetsLines_cons]
      split_ifs
      · simp [ih]
      · simp [ih]

/-- As long as there is room, a line without a newline is read as it is. -/
theorem fgetsLines_of_length_le {room left : Nat} {line content : Bytes}
    (hnewline : 10 ∉ content) (hlen : content.length ≤ left) (hne : line.reverse ++ content ≠ []) :
    fgetsLines room left line content = [line.reverse ++ content] := by
  induction content generalizing left line with
  | nil =>
      have hline : line ≠ [] := by simpa using hne
      simp [fgetsLines, hline]
  | cons b rest ih =>
      rw [List.mem_cons, not_or] at hnewline
      rw [List.length_cons] at hlen
      rw [fgetsLines_cons]
      by_cases hfull : left ≤ 1
      · -- nothing is left behind the byte that fills the buffer
        obtain rfl : rest = [] := List.length_eq_zero_iff.1 (by omega)
        rw [if_pos (.inr hfull)]
        simp [fgetsLines]
      · have hgo : ¬ (b = 10 ∨ left ≤ 1) := fun h => h.elim (Ne.symm hnewline.1) hfull
        rw [if_neg hgo, ih hnewline.2 (by omega) (by simp)]
        simp

section Entries

variable {E : Type*} {entry : Bytes → Option E} {room : Nat}

/-- Reading on in the middle of a line: the rest of the line is read first, and then each other
line from an empty buffer. -/
theorem filterMap_fgetsLines_rest (hempty : entry [] = none)
    (hnewline : ∀ l, entry (l ++ [10]) = entry l) {left : Nat} {line content first : Bytes}
    {others : List Bytes} (hsplit : content.splitOn 10 = first :: others) :
    (fgetsLines room left line content).filterMap entry =
      (fgetsLines room left line first).filterMap entry ++
        others.flatMap fun l => (fgetsLines room room [] l).filterMap entry := by
  induction content generalizing left line first others with
  | nil =>
      obtain ⟨rfl, rfl⟩ : [] = first ∧ [] = others := by simpa using hsplit
      simp
  | cons b rest ih =>
      rw [List.splitOn_cons_eq_if_modifyHead] at hsplit
      cases hrest : rest.splitOn 10 with
      | nil => exact absurd hrest (List.splitOn_ne_nil _ _)
      | cons next others' =>
          rw [hrest] at hsplit
          by_cases hnl : b = 10
          · -- the line ends here, with its newline in the buffer
            subst hnl
            obtain ⟨rfl, rfl⟩ : [] = first ∧ next :: others' = others := by simpa using hsplit
            have hline : (fgetsLines room left line []).filterMap entry =
                (entry line.reverse).toList := by
              by_cases hnil : line = []
              · simp [fgetsLines, hnil, hempty]
              · cases hentry : entry line.reverse <;> simp [fgetsLines, hnil, hentry]
            have hfull : fgetsLines room left line (10 :: rest) =
                (line.reverse ++ [10]) :: fgetsLines room room [] rest := by
              simp [fgetsLines]
            rw [hline, hfull, List.filterMap_cons, hnewline, ih hrest, List.flatMap_cons]
            cases entry line.reverse <;> simp
          · obtain ⟨rfl, rfl⟩ : b :: next = first ∧ others' = others := by simpa [hnl] using hsplit
            rw [fgetsLines_cons, fgetsLines_cons]
            by_cases hfull : left ≤ 1
            · rw [if_pos (.inr hfull), if_pos (.inr hfull), List.filterMap_cons,
                List.filterMap_cons, ih hrest]
              cases entry (b :: line).reverse <;> simp
            · have hgo : ¬ (b = 10 ∨ left ≤ 1) := fun h => h.elim hnl hfull
              rw [if_neg hgo, if_neg hgo, ih hrest]

/-- Reading a text is reading its lines one by one: a newline and an empty piece apart, what is
taken from the pieces of the text is taken from the pieces of its lines. -/
theorem filterMap_fgetsLines (hempty : entry [] = none)
    (hnewline : ∀ l, entry (l ++ [10]) = entry l) (content : Bytes) :
    (fgetsLines room room [] content).filterMap entry =
      (content.splitOn 10).flatMap fun l => (fgetsLines room room [] l).filterMap entry := by
  cases hsplit : content.splitOn 10 with
  | nil => exact absurd hsplit (List.splitOn_ne_nil _ _)
  | cons first others =>
      rw [filterMap_fgetsLines_rest hempty hnewline hsplit, List.flatMap_cons]

end Entries

end CParse
