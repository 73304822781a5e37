import Professord.Lib.JsonText

/-!
# JsonPrint — values as compact JSON texts

`print` writes a value without blanks between its tokens, and `decode` reads it back
(`decode_print_object`); how numbers are written is a parameter.  A printed text has no control
characters, so that it is one line of whatever it is sent in.
-/

namespace JsonText

open CText Numeral

/-! ## Printing -/

mutual

/-- `number` writes a number. -/
def print (number : CFloat → Bytes) : Json → Bytes
  | .null => [110, 117, 108, 108]
  | .bool true => [116, 114, 117, 101]
  | .bool false => [102, 97, 108, 115, 101]
  | .number x => number x
  | .string s => 34 :: (escapeJson s ++ [34])
  | .array items => 91 :: printItems number items
  | .object members => 123 :: printMembers number members

/-- The items of an array and its closing bracket. -/
def printItems (number : CFloat → Bytes) : List Json → Bytes
  | [] => [93]
  | [v] => print number v ++ [93]
  | v :: w :: vs => print number v ++ 44 :: printItems number (w :: vs)

/-- The members of an object and its closing brace. -/
def printMembers (number : CFloat → Bytes) : List (Bytes × Json) → Bytes
  | [] => [125]
  | [(key, v)] => 34 :: (escapeJson key ++ 34 :: 58 :: (print number v ++ [125]))
  | (key, v) :: m :: ms =>
      34 :: (escapeJson key ++ 34 :: 58 :: (print number v ++ 44 :: printMembers number (m :: ms)))

end

/-- The text has no control characters. -/
def Visible (text : Bytes) : Prop :=
  ∀ b ∈ text, 32 ≤ b

instance (text : Bytes) : Decidable (Visible text) :=
  List.decidableBAll _ text

/-- The text reads as the number, wherever it stands in a value. -/
structure NumberText (text : Bytes) (x : CFloat) : Prop where
  head : ∃ b ds, text = b :: ds ∧ (b = 45 ∨ isDigit 10 b = true)
  reads : ∀ b rest, Delimits b → ∃ q, scanNumber (text ++ b :: rest) = some (q, b :: rest) ∧
    roundDouble q = x
  visible : Visible text

/-- Every number in the value is written so that it is read back. -/
inductive Printable (number : CFloat → Bytes) : Json → Prop
  | null : Printable number .null
  | bool (b : Bool) : Printable number (.bool b)
  | number (x : CFloat) (h : NumberText (number x) x) : Printable number (.number x)
  | string (s : Bytes) : Printable number (.string s)
  | array (items : List Json) (h : ∀ v ∈ items, Printable number v) :
      Printable number (.array items)
  | object (members : List (Bytes × Json)) (h : ∀ m ∈ members, Printable number m.2) :
      Printable number (.object members)

/-! ## Reading back -/

section Read

variable {number : CFloat → Bytes}

/-- A printed value begins with a byte that is no blank and closes nothing. -/
theorem print_head {v : Json} (h : Printable number v) :
    ∃ b ds, print number v = b :: ds ∧ isSpace b = false ∧ b ≠ 93 := by
  cases h with
  | null => exact ⟨_, _, by rw [print], by decide, by decide⟩
  | bool b => cases b <;> exact ⟨_, _, by rw [print], by decide, by decide⟩
  | number x hx =>
      rcases hx.head with ⟨b, ds, htext, hb⟩
      have hne : ∀ c : UInt8, c ≠ 45 → isDigit 10 c = false → b ≠ c := by
        rintro c hc hdigit rfl
        rcases hb with rfl | hb
        · exact hc rfl
        · simp [hdigit] at hb
      refine ⟨b, ds, by rw [print, htext], ?_, hne 93 (by decide) (by decide)⟩
      simp [isSpace, hne 32 (by decide) (by decide), hne 9 (by decide) (by decide),
        hne 10 (by decide) (by decide), hne 13 (by decide) (by decide)]
  | string s => exact ⟨_, _, by rw [print], by decide, by decide⟩
  | array items _ => exact ⟨_, _, by rw [print], by decide, by decide⟩
  | object members _ => exact ⟨_, _, by rw [print], by decide, by decide⟩

/-- What is printed for the value reads as the value in front of a delimiter. -/
def ReadsBack (number : CFloat → Bytes) (v : Json) : Prop :=
  ∀ fuel b rest, Delimits b → (print number v).length ≤ fuel →
    parseValue fuel (print number v ++ b :: rest) = some (v, b :: rest)

theorem parseItems_print {items : List Json} (hne : items ≠ [])
    (hreads : ∀ v ∈ items, ReadsBack number v) :
    ∀ fuel rest, (printItems number items).length ≤ fuel →
      parseItems fuel (printItems number items ++ rest) = some (items, rest) := by
  induction items with
  | nil => exact absurd rfl hne
  | cons v vs ih =>
      intro fuel rest hfuel
      cases vs with
      | nil =>
          rw [printItems] at hfuel ⊢
          obtain ⟨fuel, rfl⟩ : ∃ f, fuel = f + 1 := Nat.exists_eq_succ_of_ne_zero (by
            rintro rfl
            simp at hfuel)
          have hvalue := hreads v List.mem_cons_self fuel 93 rest (.inr (.inl rfl)) (by
            simp at hfuel
            exact hfuel)
          rw [List.append_assoc]
          exact parseItems_last hvalue
      | cons w vs =>
          rw [printItems] at hfuel ⊢
          obtain ⟨fuel, rfl⟩ : ∃ f, fuel = f + 1 := Nat.exists_eq_succ_of_ne_zero (by
            rintro rfl
            simp at hfuel)
          simp only [List.length_append, List.length_cons] at hfuel
          have hvalue := hreads v List.mem_cons_self fuel 44
            (printItems number (w :: vs) ++ rest) (.inl rfl) (by omega)
          have hrest := ih (by simp) (fun u hu => hreads u (List.mem_cons_of_mem v hu)) fuel rest
            (by omega)
          rw [List.append_assoc, List.cons_append, parseItems, hvalue]
          simp [skipSpace, isSpace, hrest]

/-- The last member is read with its key, whatever that is. -/
theorem parseMembers_escaped_last {fuel : Nat} (key : Bytes) {text rest : Bytes} {value : Json}
    (hvalue : parseValue fuel text = some (value, 125 :: rest)) :
    parseMembers (fuel + 1) (34 :: (escapeJson key ++ 34 :: 58 :: text)) =
      some ([(key, value)], rest) := by
  simp [parseMembers, skipSpace, isSpace, scanString_escapeJson, hvalue]

/-- A member in front of others. -/
theorem parseMembers_escaped_more {fuel : Nat} (key : Bytes) {text more rest : Bytes} {value : Json}
    {members : List (Bytes × Json)} (hvalue : parseValue fuel text = some (value, 44 :: more))
    (hmore : parseMembers fuel more = some (members, rest)) :
    parseMembers (fuel + 1) (34 :: (escapeJson key ++ 34 :: 58 :: text)) =
      some ((key, value) :: members, rest) := by
  simp [parseMembers, skipSpace, isSpace, scanString_escapeJson, hvalue, hmore]

theorem parseMembers_print {members : List (Bytes × Json)} (hne : members ≠ [])
    (hreads : ∀ m ∈ members, ReadsBack number m.2) :
    ∀ fuel rest, (printMembers number members).length ≤ fuel →
      parseMembers fuel (printMembers number members ++ rest) = some (members, rest) := by
  induction members with
  | nil => exact absurd rfl hne
  | cons m ms ih =>
      rcases m with ⟨key, v⟩
      intro fuel rest hfuel
      have hv : ReadsBack number v := hreads (key, v) List.mem_cons_self
      obtain ⟨fuel, rfl⟩ : ∃ f, fuel = f + 1 := Nat.exists_eq_succ_of_ne_zero (by
        rintro rfl
        cases ms <;> simp [printMembers] at hfuel)
      cases ms with
      | nil =>
          rw [printMembers] at hfuel ⊢
          simp only [List.length_append, List.length_cons] at hfuel
          have hvalue := hv fuel 125 rest (.inr (.inr rfl))
            (by omega)
          simp only [List.cons_append, List.append_assoc, List.nil_append]
          exact parseMembers_escaped_last key hvalue
      | cons w ms =>
          rw [printMembers] at hfuel ⊢
          simp only [List.length_append, List.length_cons] at hfuel
          have hvalue := hv fuel 44
            (printMembers number (w :: ms) ++ rest) (.inl rfl) (by omega)
          have hrest := ih (by simp) (fun u hu => hreads u (List.mem_cons_of_mem _ hu)) fuel rest
            (by omega)
          simp only [List.cons_append, List.append_assoc]
          exact parseMembers_escaped_more key hvalue hrest

/-- A printed array or object is read whatever follows it. -/
theorem parseValue_print_array {items : List Json}
    (hprint : ∀ v ∈ items, Printable number v) (hreads : ∀ v ∈ items, ReadsBack number v)
    (fuel : Nat) (rest : Bytes) (hfuel : (print number (.array items)).length ≤ fuel) :
    parseValue fuel (print number (.array items) ++ rest) = some (.array items, rest) := by
  rw [print] at hfuel ⊢
  obtain ⟨fuel, rfl⟩ : ∃ f, fuel = f + 1 := Nat.exists_eq_succ_of_ne_zero (by
    rintro rfl
    simp at hfuel)
  simp only [List.length_cons] at hfuel
  cases items with
  | nil => simp [printItems, parseValue, skipSpace, isSpace]
  | cons v vs =>
      have hitems := parseItems_print (by simp) hreads fuel rest (by omega)
      -- the first item does not close the array
      obtain ⟨b, ds, hhead, hspace, hclose⟩ :
          ∃ b ds, printItems number (v :: vs) = b :: ds ∧ isSpace b = false ∧ b ≠ 93 := by
        rcases print_head (hprint v List.mem_cons_self) with ⟨b, ds, hv, hspace, hclose⟩
        cases vs with
        | nil => exact ⟨b, ds ++ [93], by simp [printItems, hv], hspace, hclose⟩
        | cons w vs =>
            exact ⟨b, ds ++ 44 :: printItems number (w :: vs), by simp [printItems, hv], hspace,
              hclose⟩
      have hopen : ∀ tail, skipSpace (91 :: tail) = 91 :: tail := fun _ => rfl
      have hskip : skipSpace (b :: (ds ++ rest)) = b :: (ds ++ rest) := by simp [skipSpace, hspace]
      rw [hhead, List.cons_append] at hitems ⊢
      rw [List.cons_append, parseValue, hopen]
      simp only [hskip]
      split
      · next heq =>
          cases heq
          exact absurd rfl hclose
      · rw [hitems]
        rfl

theorem parseValue_print_object {members : List (Bytes × Json)}
    (hreads : ∀ m ∈ members, ReadsBack number m.2) (fuel : Nat) (rest : Bytes)
    (hfuel : (print number (.object members)).length ≤ fuel) :
    parseValue fuel (print number (.object members) ++ rest) = some (.object members, rest) := by
  rw [print] at hfuel ⊢
  obtain ⟨fuel, rfl⟩ : ∃ f, fuel = f + 1 := Nat.exists_eq_succ_of_ne_zero (by
    rintro rfl
    simp at hfuel)
  simp only [List.length_cons] at hfuel
  cases members with
  | nil => simp [printMembers, parseValue, skipSpace, isSpace]
  | cons m ms =>
      have hmembers := parseMembers_print (by simp) hreads fuel rest (by omega)
      obtain ⟨ds, hhead⟩ : ∃ ds, printMembers number (m :: ms) = 34 :: ds := by
        cases ms <;> exact ⟨_, by rw [printMembers]⟩
      rw [hhead, List.cons_append] at hmembers ⊢
      rw [List.cons_append, parseValue_object, hmembers]
      rfl

/-- A printable value reads back. -/
theorem readsBack_of_printable {v : Json} (h : Printable number v) : ReadsBack number v := by
  induction h with
  | null =>
      intro fuel b rest _ hfuel
      obtain ⟨fuel, rfl⟩ := Nat.exists_eq_succ_of_ne_zero (show fuel ≠ 0 by
        rintro rfl
        simp [print] at hfuel)
      rw [print]
      exact parseValue_null fuel _
  | bool v =>
      intro fuel b rest _ hfuel
      obtain ⟨fuel, rfl⟩ := Nat.exists_eq_succ_of_ne_zero (show fuel ≠ 0 by
        rintro rfl
        cases v <;> simp [print] at hfuel)
      cases v <;> simp [print, parseValue, skipSpace, isSpace, parseScalar]
  | number x hx =>
      intro fuel b rest hb hfuel
      rcases hx.head with ⟨c, ds, htext, hc⟩
      obtain ⟨q, hscan, hround⟩ := hx.reads b rest hb
      rw [print] at hfuel ⊢
      rw [htext] at hscan hfuel ⊢
      obtain ⟨fuel, rfl⟩ := Nat.exists_eq_succ_of_ne_zero (show fuel ≠ 0 by
        rintro rfl
        simp at hfuel)
      rw [List.cons_append] at hscan ⊢
      rw [parseValue_number hc, hscan, Option.map_some, hround]
  | string s =>
      intro fuel b rest _ hfuel
      obtain ⟨fuel, rfl⟩ := Nat.exists_eq_succ_of_ne_zero (show fuel ≠ 0 by
        rintro rfl
        simp [print] at hfuel)
      rw [print, List.cons_append, List.append_assoc, parseValue_string]
      simp [scanString_escapeJson]
  | array items hprint ih =>
      exact fun fuel b rest _ hfuel => parseValue_print_array hprint ih fuel (b :: rest) hfuel
  | object members _ ih =>
      exact fun fuel b rest _ hfuel => parseValue_print_object ih fuel (b :: rest) hfuel

/-- An object is decoded from its text. -/
theorem decode_print_object {members : List (Bytes × Json)}
    (h : Printable number (.object members)) :
    decode (print number (.object members)) = some (.object members) := by
  cases h with
  | object _ h =>
      have hread := parseValue_print_object (fun m hm => readsBack_of_printable (h m hm))
        ((print number (.object members)).length + 1) [] (Nat.le_succ _)
      rw [List.append_nil] at hread
      simp [decode, hread, skipSpace]

/-! ## No control characters -/

@[simp] theorem visible_nil : Visible [] := by
  simp [Visible]

@[simp] theorem visible_cons_iff (b : UInt8) (text : Bytes) :
    Visible (b :: text) ↔ 32 ≤ b ∧ Visible text :=
  List.forall_mem_cons

@[simp] theorem visible_append_iff (s t : Bytes) : Visible (s ++ t) ↔ Visible s ∧ Visible t :=
  List.forall_mem_append

theorem visible_hexDigit {b : UInt8} {v : Nat} (h : hexDigit b = some v) : 32 ≤ b := by
  unfold hexDigit at h
  split_ifs at h with hdigit hupper hlower
  · exact UInt8.le_trans (by decide) hdigit.1
  · exact UInt8.le_trans (by decide) hupper.1
  · exact UInt8.le_trans (by decide) hlower.1

theorem visible_hex4 {a b c d : UInt8} {v : Nat} (h : hex4 a b c d = some v) :
    Visible [a, b, c, d] := by
  simp only [hex4, Option.bind_eq_bind, Option.bind_eq_some_iff] at h
  rcases h with ⟨_, ha, _, hb, _, hc, _, hd, _⟩
  simp [visible_hexDigit ha, visible_hexDigit hb, visible_hexDigit hc, visible_hexDigit hd]

theorem visible_simpleEscape {b x : UInt8} (h : simpleEscape b = some x) : 32 ≤ b := by
  revert h
  fun_cases simpleEscape b <;> intro h <;> first | decide | cases h

/-- What an escape consumes has no control characters. -/
theorem visible_scanEscape {text out rest : Bytes} (h : scanEscape text = some (out, rest)) :
    ∃ e, text = e ++ rest ∧ Visible e := by
  revert h
  fun_cases scanEscape text <;> intro h
  case case3 a b c d u hu hhigh e f g i tail v hv hlow =>
    simp only [Option.some.injEq, Prod.mk.injEq] at h
    have hab := visible_hex4 hu
    have hef := visible_hex4 hv
    simp only [visible_cons_iff] at hab hef
    exact ⟨[117, a, b, c, d, 92, 117, e, f, g, i], by simp [h.2], by simp [hab, hef]⟩
  case case7 a b c d tail u hu hhigh hlow =>
    simp only [Option.some.injEq, Prod.mk.injEq] at h
    have hab := visible_hex4 hu
    simp only [visible_cons_iff] at hab
    exact ⟨[117, a, b, c, d], by simp [h.2], by simp [hab]⟩
  case case8 b tail hne =>
    rcases Option.map_eq_some_iff.1 h with ⟨x, hx, heq⟩
    cases heq
    exact ⟨[b], rfl, by simp [visible_simpleEscape hx]⟩
  all_goals cases h

/-- A string literal has no control characters up to its closing quote. -/
theorem visible_scanChars (fuel : Nat) {text s rest : Bytes}
    (h : scanChars fuel text = some (s, rest)) : ∃ c, text = c ++ 34 :: rest ∧ Visible c := by
  induction fuel generalizing text s with
  | zero => simp [scanChars] at h
  | succ fuel ih =>
      cases text with
      | nil => simp [scanChars] at h
      | cons b tail =>
          unfold scanChars at h
          split_ifs at h with hquote hescape hcontrol
          · cases h
            exact ⟨[], by simp [hquote], visible_nil⟩
          · cases hscan : scanEscape tail with
            | none => simp [hscan] at h
            | some r =>
                rcases r with ⟨out, tail'⟩
                simp only [hscan, Option.map_eq_some_iff] at h
                rcases h with ⟨⟨s', rest'⟩, hrest, heq⟩
                cases heq
                rcases ih hrest with ⟨c, rfl, hc⟩
                rcases visible_scanEscape hscan with ⟨e, rfl, he⟩
                exact ⟨92 :: (e ++ c), by simp [hescape], by simp [he, hc]⟩
          · rcases Option.map_eq_some_iff.1 h with ⟨⟨s', rest'⟩, hrest, heq⟩
            cases heq
            rcases ih hrest with ⟨c, rfl, hc⟩
            exact ⟨b :: c, by simp, by simpa [UInt8.not_lt.1 hcontrol] using hc⟩

theorem visible_of_scanString {text s rest : Bytes}
    (h : scanString (text ++ 34 :: rest) = some (s, rest)) : Visible text := by
  rcases visible_scanChars _ h with ⟨c, heq, hc⟩
  rw [List.append_cancel_right heq]
  exact hc

theorem visible_of_plain {text : Bytes} (h : Plain text) : Visible text := by
  intro b hb
  have hplain := h b hb
  simp only [plainByte, Bool.and_eq_true, decide_eq_true_eq] at hplain
  exact hplain.2

theorem visible_hexOf {d : Nat} (h : d < 16) : 32 ≤ hexOf d := by
  have hall : ∀ n : Fin 16, 32 ≤ hexOf n.val := by decide
  exact hall ⟨d, h⟩

theorem visible_escapeLetter {b letter : UInt8} (h : escapeLetter b = some letter) :
    32 ≤ letter := by
  revert h
  fun_cases escapeLetter b <;> intro h <;> cases h <;> decide

theorem visible_escapeByte (b : UInt8) : Visible (escapeByte b) := by
  unfold escapeByte
  cases hletter : escapeLetter b with
  | some letter => simp [visible_escapeLetter hletter]
  | none =>
      dsimp only
      split_ifs with hcontrol
      · have hlt : b.toNat < 32 := by simpa [UInt8.lt_iff_toNat_lt] using hcontrol
        simp [visible_hexOf (show b.toNat / 16 < 16 by omega),
          visible_hexOf (show b.toNat % 16 < 16 by omega)]
      · simpa using UInt8.not_lt.1 hcontrol

theorem visible_escapeJson (text : Bytes) : Visible (escapeJson text) := by
  intro x hx
  obtain ⟨b, _, hb⟩ := List.mem_flatMap.1 hx
  exact visible_escapeByte b x hb

theorem visible_printItems {items : List Json} (h : ∀ v ∈ items, Visible (print number v)) :
    Visible (printItems number items) := by
  induction items with
  | nil => simp [printItems]
  | cons v vs ih =>
      have hv := h v List.mem_cons_self
      have hvs := ih fun w hw => h w (List.mem_cons_of_mem v hw)
      cases vs <;> simp_all [printItems]

theorem visible_printMembers {members : List (Bytes × Json)}
    (h : ∀ m ∈ members, Visible (print number m.2)) : Visible (printMembers number members) := by
  induction members with
  | nil => simp [printMembers]
  | cons m ms ih =>
      rcases m with ⟨key, v⟩
      have hv := h (key, v) List.mem_cons_self
      have hms := ih fun w hw => h w (List.mem_cons_of_mem _ hw)
      have hkey := visible_escapeJson key
      cases ms <;> simp_all [printMembers]

/-- A printed value is one line. -/
theorem visible_print {v : Json} (h : Printable number v) : Visible (print number v) := by
  induction h with
  | null =>
      rw [print]
      decide
  | bool b =>
      cases b <;> rw [print] <;> decide
  | number x hx =>
      rw [print]
      exact hx.visible
  | string s => simp [print, visible_escapeJson]
  | array items _ ih => simp [print, visible_printItems ih]
  | object members _ ih => simp [print, visible_printMembers ih]

end Read

/-! ## Integers -/

/-- Integers of up to 15 digits in full, and whatever `other` makes of the rest. -/
def integerText (other : CFloat → Bytes) : CFloat → Bytes
  | .fin q => if q.den = 1 ∧ |q.num| < 10 ^ 15 then decimal q.num else other (.fin q)
  | x => other x

theorem visible_decimal (z : Int) : Visible (decimal z) := by
  have hdigit : ∀ b : UInt8, isDigit 10 b = true → 32 ≤ b := by
    intro b hb
    by_contra hlow
    have hlt : b.toNat < 32 := by simpa [UInt8.lt_iff_toNat_lt] using UInt8.not_le.1 hlow
    have hall : ∀ n : Fin 32, isDigit 10 n.val.toUInt8 = false := by decide
    have hfalse := hall ⟨b.toNat, hlt⟩
    simp [hb] at hfalse
  unfold decimal
  split_ifs
  · rw [visible_cons_iff]
    exact ⟨by decide, fun b hb => hdigit b (decimalNat_isDigit hb)⟩
  · exact fun b hb => hdigit b (decimalNat_isDigit hb)

/-- A short integer is read back as its `double`. -/
theorem numberText_integer (other : CFloat → Bytes) {z : Int} (hz : |z| < 10 ^ 15) :
    NumberText (integerText other (roundDouble z)) (roundDouble z) := by
  have hexact : roundDouble z = .fin z := roundDouble_intCast (lt_trans hz (by norm_num))
  have hshort : (z : ℚ).den = 1 ∧ |(z : ℚ).num| < 10 ^ 15 :=
    ⟨Rat.den_intCast z, by rwa [Rat.num_intCast]⟩
  have htext : integerText other (roundDouble z) = decimal z := by
    rw [hexact, integerText, if_pos hshort, Rat.num_intCast]
  rw [htext]
  exact ⟨decimal_head z, fun b rest hb => ⟨z, scanNumber_delimited z hb rest, rfl⟩,
    visible_decimal z⟩

end JsonText
