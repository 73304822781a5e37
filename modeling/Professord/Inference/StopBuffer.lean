import Professord.Inference.StopWindow
import Professord.Lib.CArray

/-!
# StopBuffer — the stop window as `inference_complete` keeps it in memory

`stop_window[PROF_STOP_LEN + 1]` with its length, moved and filled by `memmove` and `memcpy`.
Every copy and every comparison is checked against the array it touches, so a step in which an
index left `stop_window` or `piece` has no outcome.  The buffer refines the window of
`StopWindow`.
-/

namespace Professord

open StopText

/-- `char piece[256]` with the length that `llama_token_to_piece` returned, negative taken as 0;
what lies behind the text is whatever the stack held. -/
structure PieceBuf where
  cells : CArray UInt8 256
  len : Nat
  fits : len ≤ 255

def PieceBuf.text (piece : PieceBuf) : Bytes :=
  piece.cells.front piece.len

/-- `stop_window` and `stop_window_len` -/
structure StopBuffer where
  cells : CArray UInt8 (profStopLen + 1)
  len : Int

namespace StopBuffer

def init : StopBuffer :=
  ⟨.fill 0, 0⟩

/-- Shift the window to make room for `plen` bytes, if they do not fit behind it. -/
def makeRoom (w : StopBuffer) (plen : Int) : Option StopBuffer :=
  let maxWindow : Int := profStopLen
  if w.len + plen > maxWindow then do
    let shift := w.len + plen - maxWindow
    let kept ← w.cells.load shift (w.len - shift)
    let cells ← w.cells.store 0 kept
    some ⟨cells, w.len - shift⟩
  else
    some w

/-- `stop_window_len += plen` and the terminator behind it. -/
def advance (w : StopBuffer) (plen : Int) : Option StopBuffer := do
  let len := w.len + plen
  let cells ← w.cells.store len [0]
  some ⟨cells, len⟩

/-- Append the text of a piece to the window. -/
def push (w : StopBuffer) (piece : PieceBuf) : Option StopBuffer :=
  let pieceLen : Int := piece.len
  let maxWindow : Int := profStopLen
  if pieceLen > maxWindow then do
    -- the piece alone exceeds the window: keep only its tail
    let tail ← piece.cells.load (pieceLen - maxWindow) maxWindow
    let cells ← w.cells.store 0 tail
    advance ⟨cells, 0⟩ maxWindow
  else do
    let w ← w.makeRoom pieceLen
    let text ← piece.cells.load 0 pieceLen
    let cells ← w.cells.store w.len text
    advance ⟨cells, w.len⟩ pieceLen

/-- Is `stop` the end of the window? -/
def endsWith (w : StopBuffer) (stop : Bytes) : Option Bool :=
  let slen : Int := stop.length
  if slen > 0 ∧ slen ≤ w.len then
    (w.cells.load (w.len - slen) slen).map (· == stop)
  else
    some false

/-- Check each stop sequence as suffix of the window. -/
def fires (w : StopBuffer) : List Bytes → Option Bool
  | [] => some false
  | stop :: stops => do
      if ← w.endsWith stop then
        some true
      else
        w.fires stops

/-- The stop check of one iteration: the window after it, and does it end the generation? -/
def check (w : StopBuffer) (stop : StopList) (piece : PieceBuf) : Option (StopBuffer × Bool) :=
  if stop.entries.length > 0 then do
    let w ← w.push piece
    let found ← w.fires stop.texts
    some (w, found)
  else
    some (w, false)

/-- The window after a history of pieces. -/
def run (stop : StopList) (pieces : List PieceBuf) : Option StopBuffer :=
  pieces.foldlM (fun w piece => (w.check stop piece).map Prod.fst) init

/-- The text in the window. -/
def text (w : StopBuffer) : Bytes :=
  w.cells.front w.len.toNat

structure InRange (w : StopBuffer) : Prop where
  nonneg : 0 ≤ w.len
  le : w.len ≤ profStopLen

theorem inRange_init : init.InRange :=
  ⟨by decide, by decide⟩

theorem length_text {w : StopBuffer} (h : w.InRange) : w.text.length = w.len.toNat := by
  have hle := h.le
  exact CArray.length_front _ (by omega)

theorem length_pieceText (piece : PieceBuf) : piece.text.length = piece.len :=
  CArray.length_front _ (Nat.le_succ_of_le piece.fits)

/-- Appending text at the fill level and terminating it. -/
theorem store_advance (cells : CArray UInt8 (profStopLen + 1)) (off : Nat) (src : Bytes)
    (h : off + src.length ≤ profStopLen) :
    ∃ a w, cells.store off src = some a ∧ advance ⟨a, off⟩ src.length = some w ∧ w.InRange ∧
      w.text = cells.front off ++ src := by
  rcases cells.store_front off src (by omega) with ⟨a, hstore, hfront, _⟩
  rcases a.store_front (off + src.length) [0] (by simpa using h) with
    ⟨b, hterm, _, hkept⟩
  refine ⟨a, ⟨b, (off + src.length : Nat)⟩, hstore, ?_, ⟨Int.natCast_nonneg _, Int.ofNat_le.2 h⟩, ?_⟩
  · rw [advance]
    push_cast at hterm ⊢
    rw [hterm]
    rfl
  · exact hkept.trans hfront

/-- The room made is enough, and what is kept is the end of the window. -/
theorem makeRoom_eq {w : StopBuffer} (h : w.InRange) {plen : Nat} (hlen : plen ≤ profStopLen) :
    ∃ cells, ∃ len : Nat, w.makeRoom plen = some ⟨cells, len⟩ ∧ len + plen ≤ profStopLen ∧
      cells.front len = w.text.drop (w.text.length + plen - profStopLen) := by
  have hle := h.le
  obtain ⟨cells, len⟩ := w
  lift len to Nat using h.nonneg
  simp only at hle
  have htext := length_text h
  rw [htext]
  simp only [makeRoom, text, Int.toNat_natCast]
  -- the window moves down by as much as the piece would run over its end
  by_cases hover : (len : Int) + plen > profStopLen
  · have hshift : (len : Int) + plen - profStopLen = (len + plen - profStopLen : Nat) := by omega
    have hkeep : (len : Int) - ((len : Int) + plen - profStopLen) =
        (profStopLen - plen : Nat) := by omega
    rw [if_pos hover, hkeep, hshift, CArray.load_front _ _ _ (by omega)]
    -- source and destination of the `memmove` lie in the first `len` cells
    have hend : len + plen - profStopLen + (profStopLen - plen) = len := by omega
    have hsrc : ((cells.front len).drop (len + plen - profStopLen)).length =
        profStopLen - plen := by
      rw [List.length_drop, CArray.length_front _ (by omega)]
      omega
    rcases cells.store_front 0
      ((cells.front len).drop (len + plen - profStopLen)) (by omega) with
      ⟨moved, hstore, hfront, _⟩
    refine ⟨moved, profStopLen - plen, ?_, by omega, ?_⟩
    · rw [hend]
      simp only [Nat.cast_zero] at hstore
      simp only [Option.bind_eq_bind, Option.bind_some, hstore]
    · rw [Nat.zero_add, hsrc] at hfront
      exact hfront
  · refine ⟨cells, len, by rw [if_neg hover], by omega, ?_⟩
    have hzero : len + plen - profStopLen = 0 := by omega
    rw [hzero, List.drop_zero]

/-- Pushing a piece stays inside both arrays and is `pushWindow` on the text. -/
theorem push_eq {w : StopBuffer} (h : w.InRange) (piece : PieceBuf) :
    ∃ w', w.push piece = some w' ∧ w'.InRange ∧ w'.text = pushWindow w.text piece.text := by
  have hpiece := length_pieceText piece
  have hfits := piece.fits
  unfold push pushWindow
  -- a piece longer than the window replaces it by its own end
  by_cases hlong : piece.len > profStopLen
  · have hoff : (piece.len : Int) - profStopLen = (piece.len - profStopLen : Nat) := by omega
    have htail : piece.cells.load (piece.len - profStopLen) profStopLen =
        some (piece.text.drop (piece.len - profStopLen)) := by
      rw [hoff, CArray.load_front _ _ _ (by omega), Nat.sub_add_cancel hlong.le]
      rfl
    have hlen : (piece.text.drop (piece.len - profStopLen)).length = profStopLen := by
      rw [List.length_drop]
      omega
    rcases store_advance w.cells 0 (piece.text.drop (piece.len - profStopLen))
      (by omega) with ⟨cells, w', hstore, hadvance, hrange, htext⟩
    refine ⟨w', ?_, hrange, ?_⟩
    · rw [hlen] at hadvance
      rw [if_pos (Int.ofNat_lt.2 hlong), htail]
      simp only [Nat.cast_zero] at hstore hadvance
      simp only [Option.bind_eq_bind, Option.bind_some, hstore, hadvance]
    · rw [htext, hpiece, if_pos hlong]
      rfl
  · have hnot : ¬ (piece.len : Int) > profStopLen := by omega
    rcases makeRoom_eq h (Nat.le_of_not_lt hlong) with ⟨cells, len, hroom, hfit, hkept⟩
    have hload : piece.cells.load 0 piece.len = some piece.text := by
      have hfront := piece.cells.load_front 0 piece.len (by omega)
      rwa [Nat.zero_add] at hfront
    rcases store_advance cells len piece.text (by omega) with
      ⟨cells', w', hstore, hadvance, hrange, htext⟩
    refine ⟨w', ?_, hrange, ?_⟩
    · rw [hpiece] at hadvance
      rw [if_neg hnot, hroom]
      simp only [Option.bind_eq_bind, Option.bind_some, hload, hstore, hadvance]
    · rw [htext, hkept, hpiece, if_neg hlong]
      by_cases hover : w.text.length + piece.len > profStopLen
      · rw [if_pos hover]
      · have hzero : w.text.length + piece.len - profStopLen = 0 := by omega
        rw [if_neg hover, hzero, List.drop_zero]

/-- The comparison of one stop sequence stays inside the window. -/
theorem endsWith_eq {w : StopBuffer} (h : w.InRange) (stop : Bytes) :
    w.endsWith stop = some (decide (stop.length > 0) && decide (stop.length ≤ w.text.length) &&
      w.text.drop (w.text.length - stop.length) == stop) := by
  have hle := h.le
  obtain ⟨cells, len⟩ := w
  lift len to Nat using h.nonneg
  simp only at hle
  rw [length_text h]
  simp only [endsWith, text, Int.toNat_natCast]
  -- a longer stop sequence is not compared, so no index is negative
  by_cases hcond : stop.length > 0 ∧ stop.length ≤ len
  · have hoff : (len : Int) - stop.length = (len - stop.length : Nat) := by omega
    rw [if_pos (by omega), hoff, CArray.load_front _ _ _ (by omega), Nat.sub_add_cancel hcond.2]
    simp [hcond.1, hcond.2]
  · rw [if_neg (by omega)]
    have hfalse : (decide (stop.length > 0) && decide (stop.length ≤ len)) = false := by
      simpa using hcond
    rw [hfalse, Bool.false_and]

theorem fires_eq {w : StopBuffer} (h : w.InRange) (stops : List Bytes) :
    w.fires stops = some (stops.any fun s =>
      decide (s.length > 0) && decide (s.length ≤ w.text.length) &&
        w.text.drop (w.text.length - s.length) == s) := by
  induction stops with
  | nil => rfl
  | cons s stops ih =>
      rw [fires, endsWith_eq h, ih, List.any_cons]
      simp only [Option.bind_eq_bind, Option.bind_some]
      split
      · next htrue => rw [htrue, Bool.true_or]
      · next hfalse => rw [Bool.eq_false_of_not_eq_true hfalse, Bool.false_or]

/-- With a stop sequence, an iteration's check is that of the window over all the text. -/
theorem check_eq {stop : StopList} (hstop : stop.entries.length > 0) {w : StopBuffer}
    (h : w.InRange) {t : Bytes} (htext : w.text = t.rtake profStopLen) (piece : PieceBuf) :
    ∃ w', w.check stop piece = some (w', endsWithAny stop.texts (t ++ piece.text)) ∧
      w'.InRange ∧ w'.text = (t ++ piece.text).rtake profStopLen := by
  rcases push_eq h piece with ⟨w', hpush, hrange, hnew⟩
  rw [htext, pushWindow_eq] at hnew
  refine ⟨w', ?_, hrange, hnew⟩
  rw [check, if_pos hstop, hpush, ← stopMatches_eq, ← hnew, stopMatches, Option.bind_eq_bind,
    Option.bind_some, fires_eq hrange]
  rfl

/-- The text of a history of pieces. -/
def textOf (pieces : List PieceBuf) : Bytes :=
  (pieces.map PieceBuf.text).flatten

theorem run_concat (stop : StopList) (pieces : List PieceBuf) (piece : PieceBuf) :
    run stop (pieces ++ [piece]) =
      (run stop pieces).bind fun w => (w.check stop piece).map Prod.fst := by
  rw [run, List.foldlM_append]
  simp only [run, List.foldlM_cons, List.foldlM_nil, Option.bind_eq_bind, bind_pure]

/-- What the window shows after a history of pieces; without stop sequences it is not kept. -/
def Shows (stop : StopList) (t : Bytes) (w : StopBuffer) : Prop :=
  w.InRange ∧ w.text = if stop.entries = [] then [] else t.rtake profStopLen

theorem Shows.check {stop : StopList} {t : Bytes} {w : StopBuffer} (h : Shows stop t w)
    (piece : PieceBuf) :
    ∃ w', w.check stop piece = some (w', endsWithAny stop.texts (t ++ piece.text)) ∧
      Shows stop (t ++ piece.text) w' := by
  rcases h with ⟨hrange, htext⟩
  by_cases hnil : stop.entries = []
  · rw [if_pos hnil] at htext
    refine ⟨w, ?_, hrange, by rw [if_pos hnil, htext]⟩
    simp [StopBuffer.check, endsWithAny, StopList.texts, hnil]
  · rw [if_neg hnil] at htext
    rcases check_eq (List.length_pos_iff.2 hnil) hrange htext piece with
      ⟨w', hcheck, hrange', htext'⟩
    exact ⟨w', hcheck, hrange', by rw [if_neg hnil, htext']⟩

/-- Induction on the history, one piece at its end. -/
theorem run_shows (stop : StopList) (pieces : List PieceBuf) :
    ∃ w, run stop pieces = some w ∧ Shows stop (textOf pieces) w := by
  induction pieces using List.reverseRecOn with
  | nil =>
      refine ⟨init, rfl, inRange_init, ?_⟩
      have hnone : (textOf []).rtake profStopLen = [] := rfl
      rw [hnone, ite_self]
      rfl
  | append_singleton pieces piece ih =>
      rcases ih with ⟨w, hrun, hshows⟩
      rcases hshows.check piece with ⟨w', hcheck, hshows'⟩
      refine ⟨w', by rw [run_concat, hrun, Option.bind_some, hcheck]; rfl, ?_⟩
      simpa [textOf] using hshows'

end StopBuffer

/-- With a stop sequence the window holds the last `min 64 total` bytes of all pieces so far, and
without one it stays empty; no index leaves its array, and the check after the next piece fires
exactly if the text then ends with a non-empty stop sequence. -/
theorem stop_window_whole_text (stop : StopList) (pieces : List PieceBuf) :
    ∃ w, StopBuffer.run stop pieces = some w ∧ 0 ≤ w.len ∧ w.len ≤ profStopLen ∧
      w.len = w.text.length ∧
      w.text = (if stop.entries = [] then [] else
        (StopBuffer.textOf pieces).rtake (min profStopLen (StopBuffer.textOf pieces).length)) ∧
      ∀ piece, ∃ w' fired, w.check stop piece = some (w', fired) ∧
        (fired = true ↔ ∃ s ∈ stop.texts, s ≠ [] ∧
          s <:+ StopBuffer.textOf (pieces ++ [piece])) := by
  rcases StopBuffer.run_shows stop pieces with ⟨w, hrun, hshows⟩
  have hlen := StopBuffer.length_text hshows.1
  refine ⟨w, hrun, hshows.1.nonneg, hshows.1.le, ?_, ?_, ?_⟩
  · rw [hlen, Int.toNat_of_nonneg hshows.1.nonneg]
  · rw [hshows.2, List.rtake.eq_1 (StopBuffer.textOf pieces) (min _ _), List.rtake]
    congr 2
    omega
  · intro piece
    rcases hshows.check piece with ⟨w', hcheck, _⟩
    refine ⟨w', _, hcheck, ?_⟩
    rw [endsWithAny_iff]
    simp [StopBuffer.textOf]

namespace Sample

/-- The text `a`, in a `piece` array that was zero. -/
def letterPiece : PieceBuf where
  cells := ⟨97 :: List.replicate 255 0, by rw [List.length_cons, List.length_replicate]⟩
  len := 1
  fits := by decide

end Sample

/-- A request without stop sequences leaves the window empty. -/
theorem not_stop_window_whole_text :
    ¬ ∀ (stop : StopList) (pieces : List PieceBuf),
      ∃ w, StopBuffer.run stop pieces = some w ∧
        w.text = (StopBuffer.textOf pieces).rtake
          (min profStopLen (StopBuffer.textOf pieces).length) := by
  intro h
  rcases h default [Sample.letterPiece] with ⟨w, hrun, htext⟩
  have hinit : StopBuffer.run default [Sample.letterPiece] = some StopBuffer.init := rfl
  rw [hinit] at hrun
  cases hrun
  revert htext
  decide

end Professord
