import Professord.Lib.Utf8
import Professord.Worker.SameText

/-!
# StreamUtf8 — the texts of the streamed events

Every token text that `drain_stream_ring` takes out of the ring goes into a JSON document of its
own, so it has to be a text by itself.  The model's tokens are bytes of a text, and may end inside
a character; `ring_write` cuts them once more, at the size of a slot.
-/

namespace Professord

open CText Utf8

/-- A piece that goes into one event as it is: it starts at the boundary of a character and fits a
slot. -/
structure StreamsWhole (piece : Bytes) : Prop where
  boundary : AtBoundary piece
  noNul : 0 ∉ piece
  fits : piece.length ≤ 127

theorem slotText_eq_iff (piece : Bytes) :
    (slotText piece).text = piece ↔ 0 ∉ piece ∧ piece.length ≤ 127 := by
  constructor
  · intro h
    refine ⟨fun hnul => (slotText piece).noNul (h.symm ▸ hnul), ?_⟩
    have hfits := (slotText piece).fits
    rw [h] at hfits
    exact Nat.le_of_lt_succ hfits
  · rintro ⟨hnul, hlen⟩
    rw [slotText_text, cstr_of_zero_notMem hnul]
    exact List.take_of_length_le hlen

theorem slotText_prefix (piece : Bytes) : (slotText piece).text <+: piece := by
  rw [slotText_text]
  exact (List.take_prefix _ _).trans (List.takeWhile_prefix _)

/-- Whatever the schedule of the drains: for pieces that make a text together, every event has a
text of its own and the events make the same text together, exactly if each piece starts at the
boundary of a character, has no NUL and at most 127 bytes. -/
theorem streamed_utf8_iff {pieces : List Bytes} {ops : List RingOp} {r : TokenRing}
    {taken : List Bytes} (hvalid : Valid pieces.flatten) (hpieces : written ops = pieces)
    (hrun : ringRun TokenRing.init ops = some (r, taken)) (hempty : r.isEmpty = true) :
    ((∀ text ∈ taken, Valid text) ∧ taken.flatten = pieces.flatten) ↔
      ∀ p ∈ pieces, StreamsWhole p := by
  have htaken : taken = pieces.map fun p => (slotText p).text :=
    hpieces ▸ taken_of_ringRun hrun hempty
  have hwhole : taken.flatten = pieces.flatten ↔ ∀ p ∈ pieces, (slotText p).text = p := by
    rw [htaken]
    exact flatten_map_eq_iff slotText_prefix pieces
  constructor
  · rintro ⟨htexts, hflatten⟩ p hp
    -- nothing is lost, so the events have the pieces themselves
    have hsame := hwhole.1 hflatten
    have hself : taken = pieces := by
      rw [htaken, List.map_congr_left hsame, List.map_id']
    have hslot := (slotText_eq_iff p).1 (hsame p hp)
    exact ⟨(htexts p (hself ▸ hp)).atBoundary, hslot.1, hslot.2⟩
  · intro h
    have hsame : ∀ p ∈ pieces, (slotText p).text = p :=
      fun p hp => (slotText_eq_iff p).2 ⟨(h p hp).noNul, (h p hp).fits⟩
    refine ⟨?_, hwhole.2 hsame⟩
    rw [htaken, List.map_congr_left hsame, List.map_id']
    exact (valid_pieces_iff hvalid).2 fun p hp => (h p hp).boundary

namespace Sample

/-- Two characters of two bytes each, in two pieces. -/
def accents : List RingOp :=
  [.write [0xC3, 0xA9], .write [0xC3, 0xA8], .drain]

theorem accents_runs : ∃ r, ringRun TokenRing.init accents =
    some (r, [[0xC3, 0xA9], [0xC3, 0xA8]]) ∧ r.isEmpty = true :=
  ⟨_, rfl, by decide⟩

theorem streamed_utf8_iff_accents :
    Valid [0xC3, 0xA9] ∧ Valid [0xC3, 0xA8] := by
  rcases accents_runs with ⟨r, hrun, hempty⟩
  have hvalid : Valid (written accents).flatten := ⟨['é', 'è'], by decide⟩
  have hwhole : ∀ p ∈ written accents, StreamsWhole p := by
    intro p hp
    have hcases : p = [0xC3, 0xA9] ∨ p = [0xC3, 0xA8] := by simpa [written, accents] using hp
    rcases hcases with rfl | rfl <;> exact ⟨by decide, by decide, by decide⟩
  have htexts := ((streamed_utf8_iff hvalid rfl hrun hempty).2 hwhole).1
  exact ⟨htexts _ (by simp), htexts _ (by simp)⟩

end Sample

/-- A character that two pieces share. -/
theorem not_streamed_utf8 :
    ¬ ∀ (pieces : List Bytes) (ops : List RingOp) (r : TokenRing) (taken : List Bytes),
      (∀ p ∈ pieces, p.length ≤ 255) → Valid pieces.flatten → written ops = pieces →
      ringRun TokenRing.init ops = some (r, taken) → r.isEmpty = true →
      (∀ text ∈ taken, Valid text) ∧ taken.flatten = pieces.flatten := by
  intro h
  have htexts := (h [[0xC3], [0xA9]] [.write [0xC3], .write [0xA9], .drain] _ [[0xC3], [0xA9]]
    (by simp) ⟨['é'], by decide⟩ rfl rfl rfl).1
  exact absurd (htexts [0xA9] (by simp)).atBoundary (by decide)

end Professord
