import Mathlib.Data.List.Infix

/-!
# Delimited — texts with marks between their parts

A sequence of labelled parts is written as one text, each part behind the mark of its label, and no
part is escaped.  If no mark can begin inside another one, a text has just one cut at its marks
(`cut_unique`), and parts that contain marks themselves are read as several:

- `cut t` : the text before the first mark, and what follows each mark,
- `parts ps` : the parts `ps`, each one cut at the marks that it contains,
- `encode_eq_iff` : two sequences are written alike exactly if `parts` makes them equal.
-/

namespace Delimited

/-- A finite family of marks, none of which begins inside another or is the start of another. -/
structure Marks (ι α : Type*) where
  all : List ι
  text : ι → List α
  mem_all : ∀ i, i ∈ all
  text_ne_nil : ∀ i, text i ≠ []
  apart : ∀ i j k, k < (text i).length →
    (text i).drop k <+: text j ∨ text j <+: (text i).drop k → k = 0 ∧ i = j

namespace Marks

variable {ι α : Type*} [DecidableEq α] (M : Marks ι α)

/-! ## Cutting a text -/

/-- The mark that the text starts with. -/
def mark (t : List α) : Option ι :=
  M.all.find? fun i => (M.text i).isPrefixOf t

/-- `skip` symbols belong to the mark before. -/
def cutFrom : Nat → List α → List α × List (ι × List α)
  | _, [] => ([], [])
  | skip + 1, _ :: t => cutFrom skip t
  | 0, a :: t =>
      match M.mark (a :: t) with
      | some i =>
          let rest := cutFrom ((M.text i).length - 1) t
          ([], (i, rest.1) :: rest.2)
      | none =>
          let rest := cutFrom 0 t
          (a :: rest.1, rest.2)

def cut (t : List α) : List α × List (ι × List α) :=
  M.cutFrom 0 t

/-- The labelled parts as they are written. -/
def write (ps : List (ι × List α)) : List α :=
  ps.flatMap fun p => M.text p.1 ++ p.2

/-- The text contains no mark. -/
def Clean (t : List α) : Prop :=
  ∀ i, ¬ M.text i <:+: t

variable {M} {i j : ι} {a : α} {c t : List α}

theorem mark_eq_some_iff : M.mark t = some i ↔ M.text i <+: t := by
  constructor
  · intro h
    simpa using List.find?_some h
  · intro h
    have hsome : (M.mark t).isSome := by
      rw [mark, List.find?_isSome]
      exact ⟨i, M.mem_all i, by simpa using h⟩
    obtain ⟨j, hj⟩ := Option.isSome_iff_exists.1 hsome
    have hprefix : M.text j <+: t := by simpa using List.find?_some hj
    have hlen := List.length_pos_of_ne_nil (M.text_ne_nil i)
    obtain ⟨-, rfl⟩ := M.apart i j 0 hlen (List.prefix_or_prefix_of_prefix h hprefix)
    exact hj

theorem mark_append (i : ι) (t : List α) : M.mark (M.text i ++ t) = some i :=
  mark_eq_some_iff.2 (List.prefix_append _ _)

/-- A mark behind a text is not part of an earlier one. -/
theorem mark_append_mark (hc : c ≠ []) (i : ι) (t : List α) :
    M.mark (c ++ (M.text i ++ t)) = M.mark c := by
  apply Option.ext
  intro j
  rw [mark_eq_some_iff, mark_eq_some_iff]
  constructor
  · intro h
    rcases Nat.le_total (M.text j).length c.length with hle | hle
    · exact List.prefix_of_prefix_length_le h (List.prefix_append _ _) hle
    · -- otherwise the rest of this mark and the one behind start alike
      obtain ⟨y, hy⟩ := List.prefix_of_prefix_length_le (List.prefix_append c _) h hle
      rcases eq_or_ne y [] with rfl | hne
      · rw [← hy, List.append_nil]
      have hdrop : (M.text j).drop c.length = y := by rw [← hy, List.drop_left]
      have hyt : y <+: M.text i ++ t := by
        rw [← hy] at h
        exact (List.prefix_append_right_inj c).1 h
      have hlt : c.length < (M.text j).length := by
        have hpos := List.length_pos_of_ne_nil hne
        rw [← hy, List.length_append]
        omega
      have hzero := (M.apart j i c.length hlt (by
        rw [hdrop]
        exact List.prefix_or_prefix_of_prefix hyt (List.prefix_append _ _))).1
      exact absurd (List.eq_nil_of_length_eq_zero hzero) hc
  · intro h
    exact h.trans (List.prefix_append _ _)

theorem cutFrom_eq (k : Nat) (t : List α) : M.cutFrom k t = M.cut (t.drop k) := by
  induction k generalizing t with
  | zero => rfl
  | succ k ih =>
      cases t with
      | nil => simp [cut, cutFrom]
      | cons a t => simpa [cutFrom] using ih t

@[simp] theorem cut_nil : M.cut [] = ([], []) :=
  rfl

theorem cut_cons (h : M.mark (a :: t) = none) : M.cut (a :: t) = (a :: (M.cut t).1, (M.cut t).2) := by
  simp [cut, cutFrom, h]

theorem cut_mark (i : ι) (t : List α) :
    M.cut (M.text i ++ t) = ([], (i, (M.cut t).1) :: (M.cut t).2) := by
  have hmark := M.mark_append i t
  cases htext : M.text i with
  | nil => exact absurd htext (M.text_ne_nil i)
  | cons b d =>
      rw [htext, List.cons_append] at hmark
      have hlen : (M.text i).length - 1 = d.length := by simp [htext]
      have hrest : M.cutFrom ((M.text i).length - 1) (d ++ t) = M.cut t := by
        rw [cutFrom_eq, hlen, List.drop_left]
      rw [List.cons_append, cut, cutFrom, hmark]
      simp [hrest]

/-- A text is empty, or starts with a mark, or with a symbol that starts none. -/
theorem cut_induction {P : List α → Prop} (nil : P []) (mark : ∀ i t, P t → P (M.text i ++ t))
    (cons : ∀ a t, M.mark (a :: t) = none → P t → P (a :: t)) (t : List α) : P t := by
  induction hn : t.length using Nat.strong_induction_on generalizing t with
  | _ n ih =>
      cases t with
      | nil => exact nil
      | cons a t =>
          cases hmark : M.mark (a :: t) with
          | none => exact cons a t hmark (ih t.length (by simp [← hn]) t rfl)
          | some i =>
              obtain ⟨rest, hrest⟩ := mark_eq_some_iff.1 hmark
              have hpos := List.length_pos_of_ne_nil (M.text_ne_nil i)
              have hlen : rest.length < n := by
                rw [← hn, ← hrest, List.length_append]
                omega
              rw [← hrest]
              exact mark i rest (ih rest.length hlen rest rfl)

/-- A mark is a place to cut, whatever is around it. -/
theorem cut_append (c : List α) (i : ι) (t : List α) :
    M.cut (c ++ (M.text i ++ t)) =
      ((M.cut c).1, (M.cut c).2 ++ (i, (M.cut t).1) :: (M.cut t).2) := by
  induction c using cut_induction (M := M) with
  | nil => simp [cut_mark]
  | mark j c ih => simp [cut_mark, List.append_assoc, ih]
  | cons a c hmark ih =>
      have hmark' : M.mark (a :: (c ++ (M.text i ++ t))) = none := by
        rw [← List.cons_append, mark_append_mark (List.cons_ne_nil _ _), hmark]
      rw [List.cons_append, cut_cons hmark', cut_cons hmark, ih]

/-- The cut loses nothing. -/
theorem write_cut (t : List α) : (M.cut t).1 ++ M.write (M.cut t).2 = t := by
  induction t using cut_induction (M := M) with
  | nil => rfl
  | mark i t ih => simpa [cut_mark, write] using ih
  | cons a t hmark ih => simpa [cut_cons hmark] using ih

theorem clean_iff : M.Clean t ↔ (M.cut t).2 = [] := by
  constructor
  · intro h
    cases hcut : (M.cut t).2 with
    | nil => rfl
    | cons p ps =>
        refine absurd ?_ (h p.1)
        refine ⟨(M.cut t).1, p.2 ++ M.write ps, ?_⟩
        have hwrite := M.write_cut t
        simpa [hcut, write] using hwrite
  · rintro h i ⟨x, y, hxy⟩
    rw [← hxy, List.append_assoc, cut_append] at h
    simp at h

theorem Clean.cut (h : M.Clean t) : M.cut t = (t, []) := by
  have hnone := clean_iff.1 h
  have hwrite := M.write_cut t
  rw [hnone] at hwrite
  exact Prod.ext (by simpa [write] using hwrite) hnone

/-- Clean parts are found again. -/
theorem cut_write {ps : List (ι × List α)} (hc : M.Clean c) (hps : ∀ p ∈ ps, M.Clean p.2) :
    M.cut (c ++ M.write ps) = (c, ps) := by
  induction ps generalizing c with
  | nil => simpa [write] using hc.cut
  | cons p ps ih =>
      have hrest := ih (hps p List.mem_cons_self) fun q hq => hps q (List.mem_cons_of_mem _ hq)
      have hwrite : M.write (p :: ps) = M.text p.1 ++ (p.2 ++ M.write ps) := by simp [write]
      rw [hwrite, cut_append, hc.cut, hrest]
      rfl

theorem clean_nil : M.Clean ([] : List α) :=
  clean_iff.2 rfl

/-- The parts that a text is cut into contain no marks. -/
theorem clean_cut (t : List α) : M.Clean (M.cut t).1 ∧ ∀ p ∈ (M.cut t).2, M.Clean p.2 := by
  induction t using cut_induction (M := M) with
  | nil => exact ⟨clean_nil, by simp⟩
  | mark i t ih =>
      rw [cut_mark]
      refine ⟨clean_nil, ?_⟩
      rw [List.forall_mem_cons]
      exact ih
  | cons a t hmark ih =>
      rw [cut_cons hmark]
      refine ⟨fun i hinside => ?_, ih.2⟩
      rcases List.infix_cons_iff.1 hinside with hprefix | hlater
      · have hstart : M.text i <+: a :: t := by
          have hwhole : a :: (M.cut t).1 <+: a :: t := by
            rw [List.prefix_cons_inj]
            exact ⟨_, M.write_cut t⟩
          exact hprefix.trans hwhole
        rw [← mark_eq_some_iff, hmark] at hstart
        cases hstart
      · exact ih.1 i hlater

/-- There is one way to cut a text into parts without marks. -/
theorem cut_unique {ps : List (ι × List α)} :
    M.cut t = (c, ps) ↔ c ++ M.write ps = t ∧ M.Clean c ∧ ∀ p ∈ ps, M.Clean p.2 := by
  constructor
  · intro h
    have hclean := M.clean_cut t
    have hwrite := M.write_cut t
    rw [h] at hclean hwrite
    exact ⟨hwrite, hclean⟩
  · rintro ⟨rfl, hc, hps⟩
    exact cut_write hc hps

/-! ## Sequences of parts -/

variable (M)

/-- The parts, and the mark that ends the text. -/
def encode (ps : List (ι × List α)) (last : ι) : List α :=
  M.write ps ++ M.text last

/-- Each part is cut at the marks that it contains. -/
def parts (ps : List (ι × List α)) : List (ι × List α) :=
  ps.flatMap fun p => (p.1, (M.cut p.2).1) :: (M.cut p.2).2

variable {M}

theorem write_parts (ps : List (ι × List α)) : M.write (M.parts ps) = M.write ps := by
  induction ps with
  | nil => rfl
  | cons p ps ih =>
      have hp := M.write_cut p.2
      calc M.write (M.parts (p :: ps))
          = M.text p.1 ++ ((M.cut p.2).1 ++ M.write (M.cut p.2).2) ++ M.write (M.parts ps) := by
            simp [write, parts, List.append_assoc]
        _ = M.text p.1 ++ p.2 ++ M.write ps := by rw [hp, ih]
        _ = M.write (p :: ps) := by simp [write]

theorem clean_parts {ps : List (ι × List α)} : ∀ p ∈ M.parts ps, M.Clean p.2 := by
  intro p hp
  obtain ⟨q, -, hq⟩ := List.mem_flatMap.1 hp
  rcases List.mem_cons.1 hq with rfl | hq
  · exact (M.clean_cut q.2).1
  · exact (M.clean_cut q.2).2 p hq

theorem infix_of_mem_parts {ps : List (ι × List α)} {p : ι × List α} (hp : p ∈ M.parts ps) :
    ∃ q ∈ ps, p.2 <:+: q.2 := by
  obtain ⟨q, hq, hmem⟩ := List.mem_flatMap.1 hp
  have hwrite := M.write_cut q.2
  refine ⟨q, hq, ?_⟩
  rcases List.mem_cons.1 hmem with rfl | hlater
  · exact ⟨[], M.write (M.cut q.2).2, by simpa using hwrite⟩
  · obtain ⟨before, after, hsplit⟩ := List.append_of_mem hlater
    refine ⟨(M.cut q.2).1 ++ M.write before ++ M.text p.1, M.write after, ?_⟩
    rw [hsplit] at hwrite
    simpa [write, List.append_assoc] using hwrite

theorem parts_of_clean {ps : List (ι × List α)} (h : ∀ p ∈ ps, M.Clean p.2) : M.parts ps = ps := by
  induction ps with
  | nil => rfl
  | cons p ps ih =>
      have hrest := ih fun q hq => h q (List.mem_cons_of_mem _ hq)
      rw [parts] at hrest
      rw [parts, List.flatMap_cons, (h p List.mem_cons_self).cut, hrest]
      rfl

/-- The text tells the parts, once each is cut. -/
theorem cut_encode (ps : List (ι × List α)) (last : ι) :
    M.cut (M.encode ps last) = ([], M.parts ps ++ [(last, [])]) := by
  rw [cut_unique]
  refine ⟨?_, clean_nil, ?_⟩
  · have hwrite : M.write (M.parts ps ++ [(last, [])]) = M.write (M.parts ps) ++ M.text last := by
      simp [write]
    rw [List.nil_append, hwrite, write_parts, encode]
  · intro p hp
    rcases List.mem_append.1 hp with hp | hp
    · exact clean_parts p hp
    · obtain rfl := List.mem_singleton.1 hp
      exact clean_nil

theorem encode_eq_iff {ps qs : List (ι × List α)} {last : ι} :
    M.encode ps last = M.encode qs last ↔ M.parts ps = M.parts qs := by
  constructor
  · intro h
    have hcut := M.cut_encode ps last
    rw [h, cut_encode] at hcut
    exact (List.append_cancel_right (Prod.mk.inj hcut).2).symm
  · intro h
    rw [encode, encode, ← write_parts ps, h, write_parts]

end Marks

end Delimited
