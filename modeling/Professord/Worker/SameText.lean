import Professord.Server.Reply

/-!
# SameText — the streamed and the accumulated text of the same pieces

`accum_token_cb` appends the pieces to a buffer that grows (`AccumBuf.Holds`); `ring_write` stores
each of them in a slot of 128 bytes.  The two texts agree exactly if every piece fits a slot.
-/

namespace Professord

open CText

/-! ## The accumulated text -/

/-- The buffer holds the terminated text `t`. -/
structure AccumBuf.Holds (b : AccumBuf) (t : Bytes) : Prop where
  buf : b.buf = some (t ++ [0])
  len : b.len = t.length
  fits : t.length < b.cap
  bounded : b.cap ≤ profContentMax
  noNul : 0 ∉ t

namespace AccumBuf.Holds

variable {b : AccumBuf} {t : Bytes}

theorem text (h : b.Holds t) : b.text = t := by
  simp only [AccumBuf.text, h.buf]
  exact cstr_terminated h.noNul

theorem init (maxTokens : Int) : (accumInit maxTokens true).Holds [] where
  buf := rfl
  len := rfl
  fits := (responseCap_bounds maxTokens).1
  bounded := (responseCap_bounds maxTokens).2
  noNul := by simp

theorem append (h : b.Holds t) {piece : Bytes} {cap : Nat} (hnul : 0 ∉ piece)
    (hfits : (t ++ piece).length < cap) (hcap : cap ≤ profContentMax) :
    ({ b with cap := cap }.append piece).Holds (t ++ piece) where
  buf := by simp [AccumBuf.append, h.buf, h.len]
  len := by simp [AccumBuf.append, h.len]
  fits := by simpa [AccumBuf.append] using hfits
  bounded := by simpa [AccumBuf.append] using hcap
  noNul := by simp [h.noNul, hnul]

/-- Below the limit the callback accepts every piece. -/
theorem step (h : b.Holds t) {piece : Bytes} (hnul : 0 ∉ piece)
    (hlimit : (t ++ piece).length < profContentMax) :
    ∃ b', accumTokenCb b piece false false true = (0, b') ∧ b'.Holds (t ++ piece) := by
  have hlen : b.len + piece.length = (t ++ piece).length := by
    rw [h.len, List.length_append]
  unfold accumTokenCb
  simp only [Bool.or_self, Bool.false_eq_true, if_false, cstr_of_zero_notMem hnul, if_true, hlen]
  split
  · rcases grownCap_bounds b.cap hlimit with ⟨hroom, hcap⟩
    rw [if_neg (Nat.not_le.2 hroom)]
    exact ⟨_, rfl, h.append hnul hroom hcap⟩
  · next hroom =>
      exact ⟨_, rfl, h.append hnul (Nat.lt_of_not_le hroom) h.bounded⟩

end AccumBuf.Holds

/-- The buffer after the callback has been called with the pieces, if it accepts them all. -/
def accumRun (b : AccumBuf) : List Bytes → Option AccumBuf
  | [] => some b
  | piece :: pieces =>
      match accumTokenCb b piece false false true with
      | (0, b') => accumRun b' pieces
      | _ => none

theorem accumRun_holds {b : AccumBuf} {t : Bytes} {pieces : List Bytes} (h : b.Holds t)
    (hnul : ∀ p ∈ pieces, 0 ∉ p) (hlimit : (t ++ pieces.flatten).length < profContentMax) :
    ∃ b', accumRun b pieces = some b' ∧ b'.Holds (t ++ pieces.flatten) := by
  induction pieces generalizing b t with
  | nil => exact ⟨b, rfl, by simpa using h⟩
  | cons piece pieces ih =>
      have hfirst : (t ++ piece).length < profContentMax := by
        simp only [List.flatten_cons, List.length_append] at hlimit ⊢
        omega
      rcases h.step (hnul piece List.mem_cons_self) hfirst with ⟨b', hcb, hb'⟩
      have hrest : (t ++ piece ++ pieces.flatten).length < profContentMax := by
        simpa [List.append_assoc] using hlimit
      rcases ih hb' (fun p hp => hnul p (List.mem_cons_of_mem _ hp)) hrest with ⟨b'', hrun, hb''⟩
      refine ⟨b'', ?_, by simpa [List.append_assoc] using hb''⟩
      simp only [accumRun, hcb]
      exact hrun

/-- What the buffer holds is sent as the content. -/
theorem replyContent_holds {b : AccumBuf} {t : Bytes} (h : b.Holds t) {job : WorkerJob}
    (hjob : job.response = b) : (replyContent job).text = t := by
  have hlimit : t.length < profContentMax := Nat.lt_of_lt_of_le h.fits h.bounded
  unfold replyContent
  simp only [hjob, h.buf, h.len]
  split
  · simp only [CBuf.snprintf, cstr_terminated h.noNul]
    exact List.take_of_length_le (Nat.le_sub_one_of_lt hlimit)
  · next hempty =>
      have hnil : t = [] := List.length_eq_zero_iff.1 (Nat.eq_zero_of_not_pos hempty)
      rw [hnil]
      rfl

/-! ## The streamed text -/

/-- What happens at the ring of an uncancelled job. -/
inductive RingOp
  | write (text : Bytes)
  | drain
  deriving DecidableEq

/-- The token texts written, in order. -/
def written (ops : List RingOp) : List Bytes :=
  ops.filterMap fun op =>
    match op with
    | .write text => some text
    | .drain => none

/-- The ring after a schedule and the texts taken out, if no write meets a full ring. -/
def ringRun (r : TokenRing) : List RingOp → Option (TokenRing × List Bytes)
  | [] => some (r, [])
  | .write text :: ops =>
      match ringWrite r text false false with
      | .stored r' => ringRun r' ops
      | _ => none
  | .drain :: ops =>
      match ringRun (drainBatch r).2 ops with
      | some (r', taken) => some (r', (drainBatch r).1 ++ taken)
      | none => none

/-- The ring delivers the slots in the order written. -/
theorem ringRun_texts {r r' : TokenRing} {ops : List RingOp} {taken : List Bytes}
    (h : ringRun r ops = some (r', taken)) :
    r.texts ++ (written ops).map (fun t => (slotText t).text) = taken ++ r'.texts := by
  induction ops generalizing r taken with
  | nil =>
      cases h
      simp [written]
  | cons op ops ih =>
      cases op with
      | write text =>
          cases hwr : ringWrite r text false false with
          | stored r₁ =>
              have hrest := ih (by simpa [ringRun, hwr] using h)
              simpa [written, (ringWrite_stored hwr).1] using hrest
          | waits => simp [ringRun, hwr] at h
          | cancelled => simp [ringRun, hwr] at h
      | drain =>
          cases hrun : ringRun (drainBatch r).2 ops with
          | none => simp [ringRun, hrun] at h
          | some x =>
              simp only [ringRun, hrun, Option.some.injEq, Prod.mk.injEq] at h
              rcases h with ⟨rfl, rfl⟩
              have hrest := ih hrun
              -- what the batch took was in front of what the ring kept
              calc r.texts ++ (written ops).map (fun t => (slotText t).text)
                  = (drainBatch r).1 ++ ((drainBatch r).2.texts ++
                      (written ops).map fun t => (slotText t).text) := by
                    rw [← (drainBatch_spec r).1, List.append_assoc]
                _ = (drainBatch r).1 ++ (x.2 ++ x.1.texts) := by rw [hrest]
                _ = (drainBatch r).1 ++ x.2 ++ x.1.texts := (List.append_assoc _ _ _).symm

/-! ## Comparison -/

/-- A drained ring has delivered what was written, cut to a slot each. -/
theorem taken_of_ringRun {ops : List RingOp} {r : TokenRing} {taken : List Bytes}
    (hrun : ringRun TokenRing.init ops = some (r, taken)) (hempty : r.isEmpty = true) :
    taken = (written ops).map fun t => (slotText t).text := by
  have htexts := ringRun_texts hrun
  rw [(TokenRing.isEmpty_iff r).1 hempty, List.append_nil, TokenRing.texts_init,
    List.nil_append] at htexts
  exact htexts.symm

theorem length_flatten_map_le {f : Bytes → Bytes} (hf : ∀ p, f p <+: p) (ps : List Bytes) :
    (ps.map f).flatten.length ≤ ps.flatten.length := by
  induction ps with
  | nil => simp
  | cons p ps ih =>
      have hp := (hf p).length_le
      simp only [List.map_cons, List.flatten_cons, List.length_append]
      omega

/-- Cutting pieces changes their concatenation exactly if one of them is changed. -/
theorem flatten_map_eq_iff {f : Bytes → Bytes} (hf : ∀ p, f p <+: p) (ps : List Bytes) :
    (ps.map f).flatten = ps.flatten ↔ ∀ p ∈ ps, f p = p := by
  constructor
  · intro heq
    induction ps with
    | nil => simp
    | cons p ps ih =>
        have hlen := congrArg List.length heq
        have hfirst := (hf p).length_le
        have hrest := length_flatten_map_le hf ps
        simp only [List.map_cons, List.flatten_cons, List.length_append] at hlen
        -- the rest cannot make up for what this piece lost
        have hp : f p = p := (hf p).eq_of_length (by omega)
        have htail : (ps.map f).flatten = ps.flatten := by
          simpa [hp] using heq
        exact List.forall_mem_cons.2 ⟨hp, ih htail⟩
  · intro hsame
    rw [List.map_congr_left hsame, List.map_id']

theorem flatten_map_take_eq_iff (k : Nat) (ps : List Bytes) :
    (ps.map (List.take k)).flatten = ps.flatten ↔ ∀ p ∈ ps, p.length ≤ k := by
  rw [flatten_map_eq_iff (fun p => List.take_prefix k p)]
  simp only [List.take_eq_self_iff]

/-- For pieces without NUL that stay below the limit of the content, a non-streaming client gets
their concatenation; a streaming client, whatever the schedule of the drains, gets the same text
exactly if every piece has at most 127 bytes. -/
theorem same_text_iff (maxTokens : Int) {pieces : List Bytes} {ops : List RingOp} {r : TokenRing}
    {taken : List Bytes} (hnul : ∀ p ∈ pieces, 0 ∉ p)
    (hlimit : pieces.flatten.length < profContentMax) (hpieces : written ops = pieces)
    (hrun : ringRun TokenRing.init ops = some (r, taken)) (hempty : r.isEmpty = true) :
    ∃ b, accumRun (accumInit maxTokens true) pieces = some b ∧
      (∀ job : WorkerJob, job.response = b → (replyContent job).text = b.text) ∧
      (taken.flatten = b.text ↔ ∀ p ∈ pieces, p.length ≤ 127) := by
  rcases accumRun_holds (AccumBuf.Holds.init maxTokens) hnul (by simpa using hlimit) with
    ⟨b, haccum, hb⟩
  -- no piece has a NUL, so the slot cuts at its size only
  have htaken : taken = pieces.map (List.take 127) := by
    calc taken = pieces.map fun t => (slotText t).text :=
          hpieces ▸ taken_of_ringRun hrun hempty
      _ = pieces.map (List.take 127) := by
          refine List.map_congr_left fun p hp => ?_
          rw [slotText_text, cstr_of_zero_notMem (hnul p hp)]
          rfl
  refine ⟨b, haccum, fun job hjob => (replyContent_holds hb hjob).trans hb.text.symm, ?_⟩
  rw [hb.text, htaken, List.nil_append]
  exact flatten_map_take_eq_iff 127 pieces

namespace Sample

def greeting : List RingOp :=
  [.write (ascii "Good"), .write (ascii " news"), .drain, .write (ascii ", everyone"), .drain]

theorem greeting_runs : ∃ r, ringRun TokenRing.init greeting =
    some (r, [ascii "Good", ascii " news", ascii ", everyone"]) ∧ r.isEmpty = true :=
  ⟨_, rfl, by decide⟩

theorem same_text_iff_greeting :
    ∃ b, accumRun (accumInit 16 true) (written greeting) = some b ∧
      [ascii "Good", ascii " news", ascii ", everyone"].flatten = b.text := by
  rcases greeting_runs with ⟨r, hrun, hempty⟩
  have hnul : ∀ p ∈ written greeting, 0 ∉ p := by decide
  rcases same_text_iff 16 hnul (by decide) rfl hrun hempty with ⟨b, haccum, _, hiff⟩
  exact ⟨b, haccum, hiff.2 (by decide)⟩

/-- A piece that does not fit a slot. -/
def blanks : Bytes :=
  List.replicate 128 32

theorem single_runs (text : Bytes) : ∃ r, ringRun TokenRing.init [.write text, .drain] =
    some (r, [(slotText text).text]) ∧ r.isEmpty = true :=
  ⟨_, rfl, rfl⟩

end Sample

theorem not_same_text :
    ¬ ∀ (maxTokens : Int) (pieces : List Bytes) (ops : List RingOp) (r : TokenRing)
        (taken : List Bytes) (b : AccumBuf), (∀ p ∈ pieces, 0 ∉ p ∧ p.length ≤ 255) →
      pieces.flatten.length < profContentMax → written ops = pieces →
      ringRun TokenRing.init ops = some (r, taken) → r.isEmpty = true →
      accumRun (accumInit maxTokens true) pieces = some b → taken.flatten = b.text := by
  intro hall
  have hlen : Sample.blanks.length = 128 := List.length_replicate
  have hnul : ∀ p ∈ [Sample.blanks], 0 ∉ p := by simp [Sample.blanks]
  have hlimit : [Sample.blanks].flatten.length < profContentMax := by simp [hlen, profContentMax]
  rcases Sample.single_runs Sample.blanks with ⟨r, hrun, hempty⟩
  rcases accumRun_holds (AccumBuf.Holds.init 16) hnul hlimit with ⟨b, haccum, hb⟩
  have hsame := hall 16 [Sample.blanks] _ r _ b (by simp [hnul, hlen]) hlimit rfl hrun hempty haccum
  -- the slot is shorter than the piece
  have hslot := (slotText Sample.blanks).fits
  have htext : (slotText Sample.blanks).text = Sample.blanks := by simpa [hb.text] using hsame
  rw [htext, hlen] at hslot
  exact Nat.lt_irrefl _ hslot

end Professord
