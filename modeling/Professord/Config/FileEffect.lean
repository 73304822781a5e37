import Professord.Config.Layering

/-!
# FileEffect — the effect of the INI file (`config.c`)

The grammar of the file speaks of whole lines, and `config_load_file` reads pieces of them.
Two lists of occurrences do the same to every configuration if and only if they say the same, which
turns the comparison of the effects into one of the texts.
-/

namespace Professord

open CText CParse Layers

/-! ## What a list of occurrences does -/

section Effect

variable {es es' : List ConfigEntry}

end Effect

/-! ## Whole lines -/

/-- After trimming, the line starts with `#` or `;`. -/
def IsComment (line : Bytes) : Prop :=
  (strip line).head? = some 35 ∨ (strip line).head? = some 59

/-- The file is read by whole lines: it has the effect of its lines in order, a comment changes
nothing, and no line is read as two settings. -/
structure WholeLines (content : Bytes) : Prop where
  effect : ∀ cfg : Config, configLoadFile cfg (some content) =
    (((content.splitOn 10).filterMap lineSetting).foldl Config.store cfg, 0)
  comment : ∀ line ∈ content.splitOn 10, IsComment line → ∀ cfg : Config,
    (settingsRead line).foldl Config.store cfg = cfg
  single : ∀ line ∈ content.splitOn 10, (settingsRead line).length ≤ 1

section File

variable {content line : Bytes}

theorem lineSetting_of_isComment (h : IsComment line) : lineSetting line = none := by
  unfold lineSetting
  rcases h with h | h <;> simp [h]

/-- A file whose lines are kept is read by whole lines. -/
theorem wholeLines_of_kept (h : ∀ line ∈ content.splitOn 10, KeptFor lineSetting line) :
    WholeLines content where
  effect cfg := by
    have hread : settingsRead content = (content.splitOn 10).filterMap lineSetting :=
      lineEntry_lineSetting.takenFrom_file h
    rw [configLoadFile_eq_store, hread]
  comment line hline hcomment cfg := by
    have hread : settingsRead line = (lineSetting line).toList :=
      lineEntry_lineSetting.takenFrom_of_kept (h line hline)
    rw [hread, lineSetting_of_isComment hcomment]
    rfl
  single line hline := by
    have hread : settingsRead line = (lineSetting line).toList :=
      lineEntry_lineSetting.takenFrom_of_kept (h line hline)
    rw [hread]
    cases lineSetting line <;> simp

/-- So is a file whose lines fit the buffer. -/
theorem wholeLines_of_short (hnul : 0 ∉ content)
    (hlines : ∀ line ∈ content.splitOn 10, line.length < lineMax) : WholeLines content :=
  wholeLines_of_kept fun line hline =>
    lineEntry_lineSetting.kept_of_length (fun h => hnul (mem_of_mem_splitOn hline h))
      (sep_notMem_of_mem_splitOn hline) (hlines line hline)

end File

namespace Sample

end Sample

end Professord
