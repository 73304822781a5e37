import Professord.Config.Load
import Professord.Config.Options

/-!
# WholeLines — the lines of the INI file (`config.c`)

The grammar of the file speaks of lines, but `config_load_file` reads pieces of at most 1023 bytes.
`settingsRead` lists what it hands to `set_config_field`, and `lineSetting` is what one line says.
-/

namespace Professord

open CText CParse

/-! ## Settings -/

/-- A key and its value. -/
abbrev Setting : Type :=
  Bytes × Bytes

/-- What a line says: the trimmed parts before and after its first `=`, nothing for a blank line, a
comment or a line without `=`. -/
def lineSetting (line : Bytes) : Option Setting :=
  let text := strip line
  if text = [] ∨ text.head? = some 35 ∨ text.head? = some 59 ∨ 61 ∉ text then
    none
  else
    some (strip (text.takeWhile (· ≠ 61)), strip ((text.dropWhile (· ≠ 61)).drop 1))

/-- The pieces in which `fgets` reads a text. -/
def pieces (text : Bytes) : List Bytes :=
  fgetsLines (lineMax - 1) (lineMax - 1) [] text

/-- What `entry` takes from the pieces of a text, each up to its first NUL. -/
def takenFrom {E : Type} (entry : Bytes → Option E) (text : Bytes) : List E :=
  (pieces text).filterMap fun piece => entry (cstr piece)

/-- The settings that are found in the pieces of a text. -/
def settingsRead (text : Bytes) : List Setting :=
  takenFrom lineSetting text

def Config.store (cfg : Config) (s : Setting) : Config :=
  setConfigField cfg s.1 s.2

/-- Cutting the line loses nothing of what `entry` takes from it: no piece of a line that says
nothing says something, and all that is no blank in another line is in one piece. -/
def KeptFor {E : Type} (entry : Bytes → Option E) (line : Bytes) : Prop :=
  (entry line = none ∧ ∀ piece ∈ pieces line, entry (cstr piece) = none) ∨
    (0 ∉ line ∧ ∃ piece ∈ pieces line, ink piece = ink line)

/-! ## The code reads settings -/

section Read

theorem trim_eq_strip (buf : Bytes) : trim buf = strip buf := by
  unfold trim strip
  cases hdrop : buf.dropWhile isspace with
  | nil => rfl
  | cons b rest =>
      have hb : isspace b = false := by
        have hhead := List.head?_dropWhile_not isspace buf
        simpa [hdrop] using hhead
      exact (rdropWhile_append_cons hb [] rest).symm

theorem loadLine_eq_store (cfg : Config) (line : Bytes) :
    loadLine cfg line = ((lineSetting (cstr line)).map cfg.store).getD cfg := by
  unfold loadLine lineSetting
  rw [trim_eq_strip]
  cases htext : strip (cstr line) with
  | nil => simp
  | cons b rest =>
      by_cases hcomment : b = 35 ∨ b = 59
      · rcases hcomment with rfl | rfl <;> simp
      · rw [not_or] at hcomment
        cases hdrop : (b :: rest).dropWhile (· ≠ 61) with
        | nil =>
            -- without `=` the line is skipped
            have hno : 61 ∉ b :: rest := fun hmem => by
              simpa using List.dropWhile_eq_nil_iff.1 hdrop 61 hmem
            have hskip : b :: rest = [] ∨ (b :: rest).head? = some 35 ∨
                (b :: rest).head? = some 59 ∨ 61 ∉ b :: rest := .inr (.inr (.inr hno))
            simp only [hcomment.1, hcomment.2, or_self, if_false, hdrop, if_pos hskip,
              Option.map_none, Option.getD_none]
        | cons e value =>
            -- the first `=` splits the line
            have hmem : 61 ∈ b :: rest := by
              by_contra hno
              have hnil : (b :: rest).dropWhile (· ≠ 61) = [] :=
                List.dropWhile_eq_nil_iff.2 fun x hx => by
                  have hne : x ≠ 61 := fun h => hno (h ▸ hx)
                  simpa using hne
              rw [hnil] at hdrop
              cases hdrop
            have hskip : ¬ (b :: rest = [] ∨ (b :: rest).head? = some 35 ∨
                (b :: rest).head? = some 59 ∨ 61 ∉ b :: rest) := by
              simp [hcomment, hmem]
            simp only [hcomment.1, hcomment.2, or_self, if_false, hdrop, if_neg hskip,
              trim_eq_strip, List.drop_succ_cons, List.drop_zero, Option.map_some,
              Option.getD_some, Config.store]

theorem configLoadFile_eq_store (cfg : Config) (content : Bytes) :
    configLoadFile cfg (some content) = ((settingsRead content).foldl Config.store cfg, 0) := by
  have hfold : ∀ (lines : List Bytes) (cfg : Config), lines.foldl loadLine cfg =
      (lines.filterMap fun line => lineSetting (cstr line)).foldl Config.store cfg := by
    intro lines
    induction lines with
    | nil => exact fun _ => rfl
    | cons line lines ih =>
        intro cfg
        rw [List.foldl_cons, loadLine_eq_store, ih]
        cases hsetting : lineSetting (cstr line) <;> simp [hsetting]
  rw [configLoadFile, hfold, settingsRead, takenFrom, pieces]

end Read

/-! ## One line -/

/-- What is taken from a line depends on the trimmed line, and comes from a line that is not
blank. -/
structure LineEntry {E : Type} (entry : Bytes → Option E) : Prop where
  empty : entry [] = none
  trimmed : ∀ {a b : Bytes}, strip a = strip b → entry a = entry b

section Line

variable {E : Type} {entry : Bytes → Option E} {line : Bytes}

theorem LineEntry.blank (h : LineEntry entry) (hline : ink line = []) : entry line = none := by
  have hsame : strip line = strip [] := strip_eq_nil_iff.2 hline
  rw [h.trimmed hsame, h.empty]

/-- A text of blanks says nothing, up to any NUL. -/
theorem LineEntry.blank_cstr (h : LineEntry entry) (hline : ink line = []) :
    entry (cstr line) = none :=
  h.blank (ink_eq_nil_iff.2 fun x hx =>
    ink_eq_nil_iff.1 hline x ((List.takeWhile_sublist _).subset hx))

/-- The newline that `fgets` leaves in the buffer says nothing. -/
theorem LineEntry.cstr_newline (h : LineEntry entry) (l : Bytes) :
    entry (cstr (l ++ [10])) = entry (cstr l) := by
  by_cases hnul : 0 ∈ l
  · -- what is behind the first NUL is not seen
    have hcut : ∀ front back : Bytes, cstr (front ++ 0 :: back) = cstr front := by
      intro front back
      induction front with
      | nil => rfl
      | cons x front ih =>
          rw [cstr, cstr, List.cons_append, List.takeWhile_cons, List.takeWhile_cons, ← cstr,
            ← cstr, ih]
    rcases List.append_of_mem hnul with ⟨front, back, rfl⟩
    rw [List.append_assoc, List.cons_append, hcut, hcut]
  · have hline : 0 ∉ l ++ [10] := by simpa using hnul
    have hblank : isspace 10 = true := rfl
    rw [cstr_of_zero_notMem hline, cstr_of_zero_notMem hnul]
    exact h.trimmed (strip_append_blank hblank l)

/-- What is taken from a text is what is taken from its lines. -/
theorem LineEntry.takenFrom_lines (h : LineEntry entry) (content : Bytes) :
    takenFrom entry content = (content.splitOn 10).flatMap (takenFrom entry) :=
  @filterMap_fgetsLines E (fun piece => entry (cstr piece)) _ h.empty h.cstr_newline content

/-- The line around one of its pieces. -/
theorem exists_of_mem_pieces {piece : Bytes} (h : piece ∈ pieces line) :
    ∃ before after : List Bytes, pieces line = before ++ piece :: after ∧
      line = before.flatten ++ (piece ++ after.flatten) := by
  obtain ⟨before, after, hpieces⟩ := List.append_of_mem h
  refine ⟨before, after, hpieces, ?_⟩
  have hflatten := flatten_fgetsLines (lineMax - 1) (lineMax - 1) [] line
  rw [List.reverse_nil, List.nil_append] at hflatten
  calc line
      = (pieces line).flatten := hflatten.symm
    _ = before.flatten ++ (piece ++ after.flatten) := by
        rw [hpieces, List.flatten_append, List.flatten_cons]

/-- If one piece has all the ink, the others have none. -/
theorem blank_around {before after : Bytes} {piece : Bytes}
    (h : ink (before ++ (piece ++ after)) = ink piece) : ink before = [] ∧ ink after = [] := by
  have hlen := congrArg List.length h
  rw [ink_append, ink_append, List.length_append, List.length_append] at hlen
  exact ⟨List.length_eq_zero_iff.1 (by omega), List.length_eq_zero_iff.1 (by omega)⟩

theorem ink_of_mem_flatten {texts : List Bytes} (h : ink texts.flatten = []) {text : Bytes}
    (htext : text ∈ texts) : ink text = [] :=
  ink_eq_nil_iff.2 fun x hx => ink_eq_nil_iff.1 h x (List.mem_flatten.2 ⟨text, htext, hx⟩)

theorem LineEntry.takenFrom_of_kept (h : LineEntry entry) (hkept : KeptFor entry line) :
    takenFrom entry line = (entry line).toList := by
  rcases hkept with ⟨hsilent, hpieces⟩ | ⟨hnul, piece, hpiece, hink⟩
  · rw [hsilent, Option.toList_none, takenFrom, List.filterMap_eq_nil_iff]
    exact hpieces
  · obtain ⟨before, after, hpieces, hline⟩ := exists_of_mem_pieces hpiece
    have hblank : ink before.flatten = [] ∧ ink after.flatten = [] :=
      blank_around (by rw [← hline, hink])
    have hsilent : ∀ texts : List Bytes, ink texts.flatten = [] →
        texts.filterMap (fun piece => entry (cstr piece)) = [] := fun texts htexts =>
      List.filterMap_eq_nil_iff.2 fun text htext => h.blank_cstr (ink_of_mem_flatten htexts htext)
    have hcstr : cstr piece = piece :=
      cstr_of_zero_notMem fun h0 => hnul (hline ▸ by simp [h0])
    have hsame : entry line = entry piece := by
      refine h.trimmed ?_
      rw [hline, append_strip_of_ink hblank.1, strip_append_of_ink hblank.2]
    rw [takenFrom, hpieces, List.filterMap_append, List.filterMap_cons, hsilent _ hblank.1,
      hsilent _ hblank.2, hcstr, hsame]
    cases entry piece <;> rfl

/-- A line that fits the buffer is kept. -/
theorem LineEntry.kept_of_length (h : LineEntry entry) (hnul : 0 ∉ line) (hnewline : 10 ∉ line)
    (hlen : line.length < lineMax) : KeptFor entry line := by
  by_cases hnil : line = []
  · subst hnil
    exact .inl ⟨h.empty, fun piece hpiece => by cases hpiece⟩
  · have hpieces : pieces line = [line] :=
      fgetsLines_of_length_le hnewline (Nat.le_of_lt_succ hlen) (by simpa using hnil)
    exact .inr ⟨hnul, line, by simp [hpieces], rfl⟩

/-- If all lines are kept, what is taken from the file is what its lines say. -/
theorem LineEntry.takenFrom_file (h : LineEntry entry) {content : Bytes}
    (hkept : ∀ line ∈ content.splitOn 10, KeptFor entry line) :
    takenFrom entry content = (content.splitOn 10).filterMap entry := by
  rw [h.takenFrom_lines, List.filterMap_eq_flatMap_toList]
  exact List.flatMap_congr fun line hline => h.takenFrom_of_kept (hkept line hline)

end Line

/-! ## Settings as what a line says -/

section Settings

variable {line : Bytes}

theorem lineEntry_lineSetting : LineEntry lineSetting where
  empty := rfl
  trimmed h := by simp only [lineSetting, h]

end Settings

end Professord
