import Professord.Lib.CText

/-!
# Utf8 — texts that are cut into pieces

A byte string is a text if it encodes some list of characters.  A piece of a text is a text by
itself exactly if it starts and ends at the boundary of a character; the bytes that start a
character are `UInt8.IsUTF8FirstByte`, and no other byte of an encoded character is one of them.
-/

namespace Utf8

def Valid (text : Bytes) : Prop :=
  ∃ chars : List Char, text = chars.flatMap String.utf8EncodeChar

/-- Empty, or starting with the first byte of a character. -/
def AtBoundary (text : Bytes) : Prop :=
  ∀ b ∈ text.head?, b.IsUTF8FirstByte

instance (text : Bytes) : Decidable (AtBoundary text) :=
  match text with
  | [] => .isTrue (by simp [AtBoundary])
  | b :: _ => decidable_of_iff b.IsUTF8FirstByte (by simp [AtBoundary])

theorem Valid.nil : Valid [] :=
  ⟨[], rfl⟩

theorem Valid.cons (c : Char) {text : Bytes} (h : Valid text) :
    Valid (String.utf8EncodeChar c ++ text) := by
  rcases h with ⟨chars, rfl⟩
  exact ⟨c :: chars, rfl⟩

/-- Behind the first byte of a character there is none that starts one. -/
theorem not_atBoundary_tail {c : Char} {front back : Bytes}
    (h : String.utf8EncodeChar c = front ++ back) (hfront : front ≠ []) (hback : back ≠ []) :
    ¬ AtBoundary back := by
  cases back with
  | nil => exact absurd rfl hback
  | cons b back =>
      intro hb
      have hlt : front.length < (String.utf8EncodeChar c).length := by
        rw [h, List.length_append, List.length_cons]
        omega
      have hget : (String.utf8EncodeChar c)[front.length] = b := by
        simp only [h]
        rw [List.getElem_append_right (Nat.le_refl _)]
        simp
      have hfirst : (String.utf8EncodeChar c)[front.length].IsUTF8FirstByte :=
        hget ▸ hb b rfl
      have hzero := UInt8.isUTF8FirstByte_getElem_utf8EncodeChar.1 hfirst
      exact hfront (List.length_eq_zero_iff.1 hzero)

theorem Valid.atBoundary {text : Bytes} (h : Valid text) : AtBoundary text := by
  rcases h with ⟨chars, rfl⟩
  cases chars with
  | nil => simp [AtBoundary]
  | cons c chars =>
      have hpos : 0 < (String.utf8EncodeChar c).length := by
        rw [String.length_utf8EncodeChar]
        exact c.utf8Size_pos
      cases henc : String.utf8EncodeChar c with
      | nil => simp [henc] at hpos
      | cons b rest =>
          intro x hx
          obtain rfl : b = x := by simpa [henc] using hx
          have hfirst : (String.utf8EncodeChar c)[0].IsUTF8FirstByte :=
            UInt8.isUTF8FirstByte_getElem_utf8EncodeChar.2 rfl
          simpa only [henc, List.getElem_cons_zero] using hfirst

/-- A text cut at a boundary gives two texts. -/
theorem Valid.split {front back : Bytes} (h : Valid (front ++ back)) (hback : AtBoundary back) :
    Valid front ∧ Valid back := by
  rcases h with ⟨chars, heq⟩
  -- along the characters in front of the cut
  induction chars generalizing front with
  | nil =>
      rcases List.append_eq_nil_iff.1 heq with ⟨rfl, rfl⟩
      exact ⟨Valid.nil, Valid.nil⟩
  | cons c chars ih =>
      rw [List.flatMap_cons] at heq
      rcases List.append_eq_append_iff.1 heq with ⟨mid, henc, hrest⟩ | ⟨mid, hfront, hrest⟩
      · -- the cut is in this character, so it is at one of its ends
        by_cases hempty : front = []
        · subst hempty
          exact ⟨Valid.nil, c :: chars, heq⟩
        · by_cases hmid : mid = []
          · subst hmid
            rw [List.append_nil] at henc
            exact ⟨⟨[c], by simp [henc]⟩, chars, hrest⟩
          · have hstart : AtBoundary mid := by
              intro b hb
              refine hback b ?_
              rw [hrest, List.head?_append, Option.mem_def.1 hb]
              rfl
            exact absurd hstart (not_atBoundary_tail henc hempty hmid)
      · rcases ih hrest.symm with ⟨hvalid, hback⟩
        exact ⟨hfront ▸ hvalid.cons c, hback⟩

theorem atBoundary_flatten {pieces : List Bytes} (h : ∀ p ∈ pieces, AtBoundary p) :
    AtBoundary pieces.flatten := by
  induction pieces with
  | nil => simp [AtBoundary]
  | cons p pieces ih =>
      cases p with
      | nil => exact ih fun q hq => h q (List.mem_cons_of_mem _ hq)
      | cons b p =>
          intro x hx
          exact h (b :: p) List.mem_cons_self x hx

/-- The pieces of a text are texts exactly if each of them starts at a boundary. -/
theorem valid_pieces_iff {pieces : List Bytes} (h : Valid pieces.flatten) :
    (∀ p ∈ pieces, Valid p) ↔ ∀ p ∈ pieces, AtBoundary p := by
  constructor
  · exact fun hvalid p hp => (hvalid p hp).atBoundary
  · intro hbound
    induction pieces with
    | nil => simp
    | cons p pieces ih =>
        have hrest := fun q hq => hbound q (List.mem_cons_of_mem p hq)
        rw [List.flatten_cons] at h
        rcases h.split (atBoundary_flatten hrest) with ⟨hp, hpieces⟩
        exact List.forall_mem_cons.2 ⟨hp, ih hpieces hrest⟩

end Utf8
