import Professord.Inference.Params
import Professord.Lib.StopText

/-!
# StopWindow — the rolling window of `inference_complete`

`stop_window` holds the last `PROF_STOP_LEN` bytes of the text; a stop string has fewer, so
looking for it at the end of the window is looking for it at the end of the text.
-/

namespace Professord

open StopText

/-- Append a piece to the window, dropping what no longer fits at the front. -/
def pushWindow (window piece : Bytes) : Bytes :=
  let maxWindow := profStopLen
  if piece.length > maxWindow then
    -- the piece alone exceeds the window: keep its tail
    piece.drop (piece.length - maxWindow)
  else if window.length + piece.length > maxWindow then
    -- shift the window to make room
    window.drop (window.length + piece.length - maxWindow) ++ piece
  else
    window ++ piece

theorem length_pushWindow_le {window : Bytes} (piece : Bytes) (h : window.length ≤ profStopLen) :
    (pushWindow window piece).length ≤ profStopLen := by
  unfold pushWindow
  simp only
  split
  · simp only [List.length_drop]
    omega
  · split
    · simp only [List.length_append, List.length_drop]
      omega
    · simp only [List.length_append]
      omega

/-- Check each stop sequence as suffix of the window. -/
def stopMatches (stop : StopList) (window : Bytes) : Bool :=
  stop.texts.any fun s =>
    decide (s.length > 0) && decide (s.length ≤ window.length) &&
      window.drop (window.length - s.length) == s

theorem pushWindow_eq (t piece : Bytes) :
    pushWindow (t.rtake profStopLen) piece = (t ++ piece).rtake profStopLen := by
  rw [← rtake_append_rtake]
  unfold pushWindow
  simp only
  split
  · next hlong =>
      have hdrop : (List.rtake t profStopLen ++ piece).length - profStopLen =
          (List.rtake t profStopLen).length + (piece.length - profStopLen) := by
        simp only [List.length_append]
        omega
      rw [List.rtake.eq_1 (List.rtake t profStopLen ++ piece), hdrop, List.drop_append]
      simp
  · next hfits =>
      split
      · next hover =>
          have hle : (List.rtake t profStopLen).length + piece.length - profStopLen ≤
              (List.rtake t profStopLen).length := by omega
          rw [List.rtake.eq_1 (List.rtake t profStopLen ++ piece), List.length_append,
            List.drop_append_of_le_length hle]
      · next hroom =>
          have hzero : (List.rtake t profStopLen ++ piece).length - profStopLen = 0 := by
            simp only [List.length_append]
            omega
          rw [List.rtake.eq_1 (List.rtake t profStopLen ++ piece), hzero, List.drop_zero]

/-- The window shows a stop string exactly if the text ends with one. -/
theorem stopMatches_eq (stop : StopList) (t : Bytes) :
    stopMatches stop (t.rtake profStopLen) = endsWithAny stop.texts t := by
  have hone : ∀ s ∈ stop.texts, (decide (s.length > 0) &&
      decide (s.length ≤ (t.rtake profStopLen).length) &&
      (t.rtake profStopLen).drop ((t.rtake profStopLen).length - s.length) == s) =
        (decide (s ≠ []) && s.isSuffixOf t) := by
    intro s hs
    have hlen : s.length ≤ profStopLen := by
      -- a stop string is stored in `PROF_STOP_LEN` bytes with its terminator
      rcases List.mem_map.1 hs with ⟨entry, _, rfl⟩
      exact entry.fits.le
    rw [Bool.eq_iff_iff]
    simp only [Bool.and_eq_true, decide_eq_true_eq, beq_iff_eq, List.isSuffixOf_iff_suffix,
      ← suffix_rtake_iff hlen (l := t), List.length_pos_iff, gt_iff_lt]
    constructor
    · rintro ⟨⟨hne, _⟩, heq⟩
      exact ⟨hne, heq ▸ List.drop_suffix _ _⟩
    · rintro ⟨hne, hsuf⟩
      exact ⟨⟨hne, hsuf.length_le⟩, (List.suffix_iff_eq_drop.1 hsuf).symm⟩
  unfold stopMatches endsWithAny
  rw [Bool.eq_iff_iff, List.any_eq_true, List.any_eq_true]
  exact exists_congr fun s => and_congr_right fun hs => by rw [hone s hs]

end Professord
