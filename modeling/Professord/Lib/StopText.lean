import Mathlib.Data.List.DropRight
import Mathlib.Data.List.Infix

/-!
# StopText — stop strings in a text that arrives in pieces

A text is the concatenation of its pieces.  Two ways of cutting it at stop strings:

- `cutAtFirst stops t` : the whole text, cut just before the first place where a stop occurs,
- `beforeStop stops t ps` : the pieces that precede the first piece *after which* the text so far
  ends with a stop (what a generator that inspects its output after each piece passes on).

The generator only keeps the last `k` symbols; `suffix_rtake_iff` says why that is enough for
stops of length at most `k`, and `flatten_beforeStop_eq_cutAtFirst_iff` when the two cuts agree.
-/

namespace StopText

variable {α : Type*}

/-! ## A window on the end of a text -/

/-- The window over `l ++ p` only needs the window over `l`. -/
theorem rtake_append_rtake (k : Nat) (l p : List α) :
    (l.rtake k ++ p).rtake k = (l ++ p).rtake k := by
  simp only [List.rtake, List.length_append, List.length_drop, List.drop_append, List.drop_drop]
  congr 2 <;> omega

theorem length_rtake (k : Nat) (l : List α) : (l.rtake k).length = min k l.length := by
  simp only [List.rtake, List.length_drop]
  omega

theorem suffix_rtake_iff {k : Nat} {s l : List α} (h : s.length ≤ k) :
    s <:+ l.rtake k ↔ s <:+ l := by
  have hsub : l.rtake k <:+ l := List.drop_suffix _ _
  constructor
  · intro hs
    exact hs.trans hsub
  · intro hs
    refine List.suffix_of_suffix_length_le hs hsub ?_
    have := hs.length_le
    rw [length_rtake]
    omega

variable [DecidableEq α]

/-! ## Stops at the end of a text -/

/-- Some non-empty stop is a suffix of the text. -/
def endsWithAny (stops : List (List α)) (t : List α) : Bool :=
  stops.any fun s => s ≠ [] && s.isSuffixOf t

theorem endsWithAny_iff {stops : List (List α)} {t : List α} :
    endsWithAny stops t = true ↔ ∃ s ∈ stops, s ≠ [] ∧ s <:+ t := by
  simp [endsWithAny]

/-- The pieces before the first one after which the text (`t` so far) ends with a stop. -/
def beforeStop (stops : List (List α)) : List α → List (List α) → List (List α)
  | _, [] => []
  | t, p :: ps =>
      if endsWithAny stops (t ++ p) then [] else p :: beforeStop stops (t ++ p) ps

theorem beforeStop_isPrefix (stops : List (List α)) (t : List α) (ps : List (List α)) :
    beforeStop stops t ps <+: ps := by
  induction ps generalizing t with
  | nil => simp [beforeStop]
  | cons p ps ih =>
      cases h : endsWithAny stops (t ++ p) with
      | true => simp [beforeStop, h]
      | false => simpa [beforeStop, h] using ih (t ++ p)

/-- One more piece, when no piece so far completes a stop. -/
theorem beforeStop_concat {stops : List (List α)} {t p : List α} {ps : List (List α)}
    (h : beforeStop stops t ps = ps) :
    beforeStop stops t (ps ++ [p]) =
      if endsWithAny stops (t ++ ps.flatten ++ p) then ps else ps ++ [p] := by
  induction ps generalizing t with
  | nil => simp [beforeStop]
  | cons q ps ih =>
      cases hq : endsWithAny stops (t ++ q) with
      | true => simp [beforeStop, hq] at h
      | false =>
          have hps : beforeStop stops (t ++ q) ps = ps := by simpa [beforeStop, hq] using h
          simp only [List.cons_append, beforeStop, hq, Bool.false_eq_true, if_false, ih hps,
            List.flatten_cons, List.append_assoc]
          split <;> rfl

/-- Either no piece completes a stop and all pieces are passed on, or the text up to the end of
the next piece ends with a stop. -/
theorem beforeStop_eq_or (stops : List (List α)) (t : List α) (ps : List (List α)) :
    beforeStop stops t ps = ps ∨
      ∃ p rest, ps = beforeStop stops t ps ++ p :: rest ∧
        endsWithAny stops (t ++ (beforeStop stops t ps).flatten ++ p) = true := by
  induction ps generalizing t with
  | nil => exact .inl (by simp [beforeStop])
  | cons p ps ih =>
      cases h : endsWithAny stops (t ++ p) with
      | true =>
          refine .inr ⟨p, ps, ?_, ?_⟩
          · simp [beforeStop, h]
          · simp [beforeStop, h]
      | false =>
          rcases ih (t ++ p) with hall | ⟨q, rest, hps, hq⟩
          · exact .inl (by simp [beforeStop, h, hall])
          · refine .inr ⟨q, rest, ?_, ?_⟩
            · simpa [beforeStop, h] using hps
            · simpa [beforeStop, h, List.append_assoc] using hq

/-! ## Stops anywhere in a text -/

/-- The first index at which some non-empty stop occurs. -/
def firstOccurrence (stops : List (List α)) (t : List α) : Option Nat :=
  (List.range (t.length + 1)).find? fun i => stops.any fun s => s ≠ [] && s.isPrefixOf (t.drop i)

def cutAtFirst (stops : List (List α)) (t : List α) : List α :=
  match firstOccurrence stops t with
  | none => t
  | some i => t.take i

theorem firstOccurrence_lt {stops : List (List α)} {t : List α} {i : Nat}
    (h : firstOccurrence stops t = some i) : i < t.length := by
  have hi := List.find?_some h
  simp only [List.any_eq_true, Bool.and_eq_true, decide_eq_true_eq, List.isPrefixOf_iff_prefix] at hi
  rcases hi with ⟨s, _, hne, hpre⟩
  have hpos : 0 < s.length := List.length_pos_iff.2 hne
  have hle := hpre.length_le
  rw [List.length_drop] at hle
  omega

/-- A text that contains a stop has a first occurrence. -/
theorem firstOccurrence_ne_none {stops : List (List α)} {s t : List α}
    (hs : s ∈ stops) (hne : s ≠ []) (h : s <:+: t) : firstOccurrence stops t ≠ none := by
  rcases h with ⟨a, b, rfl⟩
  intro hnone
  have hmem : a.length ∈ List.range ((a ++ s ++ b).length + 1) := by
    rw [List.mem_range, List.length_append, List.length_append]
    omega
  have hall := List.find?_eq_none.1 hnone a.length hmem
  refine hall ?_
  simp only [List.any_eq_true, Bool.and_eq_true, decide_eq_true_eq, List.isPrefixOf_iff_prefix]
  exact ⟨s, hs, hne, by simp [List.append_assoc]⟩

theorem length_cutAtFirst {stops : List (List α)} {t : List α} {i : Nat}
    (h : firstOccurrence stops t = some i) : (cutAtFirst stops t).length = i := by
  have hlt := firstOccurrence_lt h
  simp only [cutAtFirst, h, List.length_take]
  omega

theorem cutAtFirst_isPrefix (stops : List (List α)) (t : List α) : cutAtFirst stops t <+: t := by
  unfold cutAtFirst
  cases firstOccurrence stops t with
  | none => exact List.prefix_refl t
  | some i => exact List.take_prefix i t

/-- If no stop occurs in the text, no piece completes one. -/
theorem beforeStop_eq_of_firstOccurrence {stops : List (List α)} {ps : List (List α)}
    (h : firstOccurrence stops ps.flatten = none) : beforeStop stops [] ps = ps := by
  rcases beforeStop_eq_or stops [] ps with hall | ⟨p, rest, hps, hend⟩
  · exact hall
  · rcases endsWithAny_iff.1 hend with ⟨s, hs, hne, hsuf⟩
    have hflat : ps.flatten = (beforeStop stops [] ps).flatten ++ p ++ rest.flatten := by
      conv_lhs => rw [hps]
      simp [List.append_assoc]
    have hinf : s <:+: ps.flatten := by
      rw [hflat]
      exact (List.nil_append _ ▸ hsuf.isInfix).trans (List.prefix_append _ _).isInfix
    exact absurd h (firstOccurrence_ne_none hs hne hinf)

/-- Looking at the end of the text after each piece cuts it exactly when no stop occurs at all or
the first occurrence starts where the pieces passed on end. -/
theorem flatten_beforeStop_eq_cutAtFirst_iff (stops : List (List α)) (ps : List (List α)) :
    (beforeStop stops [] ps).flatten = cutAtFirst stops ps.flatten ↔
      ∀ i, firstOccurrence stops ps.flatten = some i →
        i = (beforeStop stops [] ps).flatten.length := by
  constructor
  · intro heq i hi
    rw [heq, length_cutAtFirst hi]
  · intro hpos
    cases hocc : firstOccurrence stops ps.flatten with
    | none => simp [cutAtFirst, hocc, beforeStop_eq_of_firstOccurrence hocc]
    | some i =>
        have hpre : (beforeStop stops [] ps).flatten <+: ps.flatten := by
          rcases beforeStop_isPrefix stops [] ps with ⟨rest, hrest⟩
          exact ⟨rest.flatten, by rw [← List.flatten_append, hrest]⟩
        have hlen : (beforeStop stops [] ps).flatten.length = (cutAtFirst stops ps.flatten).length := by
          rw [length_cutAtFirst hocc, hpos i hocc]
        exact (List.prefix_of_prefix_length_le hpre (cutAtFirst_isPrefix stops _) hlen.le).eq_of_length hlen

end StopText
