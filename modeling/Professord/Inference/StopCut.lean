import Professord.Inference.Complete

/-!
# StopCut — what the callback gets of a text with stop sequences

`inference_complete` looks for a stop sequence at the end of the text after each piece, and then
withholds that piece: the pieces passed on are those before the first piece that completes a stop
sequence (`StopText.beforeStop`).  That is the text cut before the stop sequence exactly when the
first occurrence starts where a piece does and nothing else is in the way.
-/

namespace Professord

open StopText CText

variable {σ χ ω : Type} {L : Llama σ χ} {params : SampleParams} {env : RunEnv}
  {cb : TokenCallback ω}

/-- What a run may say of its pieces: which it passed on, and why it withheld one. -/
structure StopCut (stops : List Bytes) (finish : FinishReason) (pieces passed : List Bytes) :
    Prop where
  before : passed = beforeStop stops [] pieces
  withheld : passed ≠ pieces → finish = .stop ∧
    ∃ p, pieces = passed ++ [p] ∧ endsWithAny stops pieces.flatten = true

theorem StopCut.none (stops : List Bytes) (finish : FinishReason) : StopCut stops finish [] [] :=
  ⟨rfl, fun hne => absurd rfl hne⟩

/-- Nothing has been withheld so far, and the window shows the end of the text. -/
structure Unstopped (stop : StopList) (g : GenState σ χ ω) : Prop where
  passed : g.passed = g.pieces
  before : beforeStop stop.texts [] g.pieces = g.pieces
  window : 0 < stop.entries.length → g.window = g.pieces.flatten.rtake profStopLen

namespace Unstopped

variable {g : GenState σ χ ω}

theorem chain (h : Unstopped params.stop g) (chain : χ) :
    Unstopped params.stop { g with chain := chain } :=
  ⟨h.passed, h.before, h.window⟩

/-- The window after a text has been recorded shows a stop exactly if the text ends with one. -/
theorem matches_record (h : Unstopped params.stop g) (piece : Bytes)
    (hpos : 0 < params.stop.entries.length) :
    stopMatches params.stop (g.record params.stop piece).window =
      endsWithAny params.stop.texts (g.pieces.flatten ++ piece) := by
  have hwindow : (g.record params.stop piece).window =
      (g.pieces.flatten ++ piece).rtake profStopLen := by
    simp only [GenState.record, if_pos hpos, h.window hpos, pushWindow_eq]
  rw [hwindow, stopMatches_eq]

/-- Without stop sequences nothing ends with one. -/
theorem endsWithAny_record (h : Unstopped params.stop g) {piece : Bytes}
    (hmatch : 0 < params.stop.entries.length →
      stopMatches params.stop (g.record params.stop piece).window = false) :
    endsWithAny params.stop.texts (g.pieces.flatten ++ piece) = false := by
  rcases Nat.eq_zero_or_pos params.stop.entries.length with hzero | hpos
  · have hnil : params.stop.entries = [] := List.length_eq_zero_iff.1 hzero
    simp [endsWithAny, StopList.texts, hnil]
  · rw [← h.matches_record piece hpos]
    exact hmatch hpos

theorem stopped (h : Unstopped params.stop g) {piece : Bytes}
    (hpos : 0 < params.stop.entries.length)
    (hmatch : stopMatches params.stop (g.record params.stop piece).window = true) :
    StopCut params.stop.texts .stop (g.record params.stop piece).pieces
      (g.record params.stop piece).passed := by
  have hend : endsWithAny params.stop.texts (g.pieces.flatten ++ piece) = true := by
    rw [← h.matches_record piece hpos]
    exact hmatch
  constructor
  · simp [GenState.record, h.passed, beforeStop_concat h.before, hend]
  · intro _
    exact ⟨rfl, piece, by simp [GenState.record, h.passed], by simpa [GenState.record] using hend⟩

/-- A text that completes no stop sequence is passed on. -/
theorem passToken (h : Unstopped params.stop g) {piece : Bytes}
    (hmatch : 0 < params.stop.entries.length →
      stopMatches params.stop (g.record params.stop piece).window = false)
    {i : Nat} {token : Token} {r : Option FinishReason} {g' : GenState σ χ ω}
    (hs : Professord.passToken L cb i token piece (g.record params.stop piece) = (r, g')) :
    Unstopped params.stop g' := by
  have hend := h.endsWithAny_record hmatch
  have hkept : g'.pieces = g.pieces ++ [piece] ∧ g'.passed = g.passed ++ [piece] ∧
      g'.window = (g.record params.stop piece).window := by
    unfold Professord.passToken at hs
    simp only at hs
    split at hs
    · cases hs
      exact ⟨rfl, rfl, rfl⟩
    · split at hs <;> cases hs <;> exact ⟨rfl, rfl, rfl⟩
  rcases hkept with ⟨hpieces, hpassed, hwindow⟩
  constructor
  · rw [hpieces, hpassed, h.passed]
  · rw [hpieces, beforeStop_concat h.before]
    simp [hend]
  · intro hpos
    rw [hwindow, hpieces]
    simp only [GenState.record, if_pos hpos, h.window hpos, pushWindow_eq, List.flatten_append,
      List.flatten_cons, List.flatten_nil, List.append_nil]

theorem stopCut (h : Unstopped params.stop g) (finish : FinishReason) :
    StopCut params.stop.texts finish g.pieces g.passed :=
  ⟨h.passed.trans h.before.symm, fun hne => absurd h.passed hne⟩

end Unstopped

theorem generate_stopCut (n i : Nat) {g : GenState σ χ ω} (h : Unstopped params.stop g) :
    StopCut params.stop.texts (generate L params env cb n i g).1
      (generate L params env cb n i g).2.pieces (generate L params env cb n i g).2.passed := by
  refine generate_rule (Q := fun finish g => StopCut params.stop.texts finish g.pieces g.passed)
    ?_ ?_ (fun g hg => hg.stopCut .length) n i h
  · intro i g g' hg hs
    rcases genStep_cases i g with ⟨reason, chain, hcase⟩ | ⟨token, chain, piece, hcase⟩
    · cases hcase.symm.trans hs
    · rcases hcase with ⟨_, _, hcase⟩ | ⟨hmatch, hcase⟩
      · cases hcase.symm.trans hs
      -- only a text that was passed on lets the loop go on
      · exact (hg.chain chain).passToken hmatch (hcase.symm.trans hs)
  · intro i g reason g' hg hs
    rcases genStep_cases i g with ⟨reason', chain, hcase⟩ | ⟨token, chain, piece, hcase⟩
    · cases hcase.symm.trans hs
      exact (hg.chain chain).stopCut reason
    · rcases hcase with ⟨hmatch, hpos, hcase⟩ | ⟨hmatch, hcase⟩
      -- the text completes a stop sequence
      · cases hcase.symm.trans hs
        exact (hg.chain chain).stopped hpos hmatch
      -- the callback or `llama_decode` ended the loop behind a text that was passed on
      · exact ((hg.chain chain).passToken hmatch (hcase.symm.trans hs)).stopCut reason

/-! ## The whole run -/

theorem runGeneration_stopCut (eng : Engine) (nPrompt : Int) (rcs : List Int) (ctx : σ) (user : ω) :
    StopCut params.stop.texts
      (runGeneration L eng params env cb nPrompt rcs ctx user).finish
      (runGeneration L eng params env cb nPrompt rcs ctx user).pieces
      (runGeneration L eng params env cb nPrompt rcs ctx user).passed := by
  unfold runGeneration
  split
  · exact .none _ _
  · exact generate_stopCut _ 0 ⟨rfl, rfl, fun _ => rfl⟩

theorem runPrompt_stopCut (eng : Engine) (fuel : Nat) (nPrompt : Int) (tokens : List Token)
    (ctx : σ) (user : ω) :
    StopCut params.stop.texts
      (runPrompt L eng fuel params env cb nPrompt tokens ctx user).finish
      (runPrompt L eng fuel params env cb nPrompt tokens ctx user).pieces
      (runPrompt L eng fuel params env cb nPrompt tokens ctx user).passed := by
  unfold runPrompt
  simp only
  split
  · exact .none _ _
  · split
    · exact .none _ _
    · exact runGeneration_stopCut eng nPrompt _ _ user

theorem inferenceComplete_withheld (L : Llama σ χ) (eng : Engine) (fuel : Nat)
    (params : SampleParams) (env : RunEnv) (cb : TokenCallback ω) (prompt : Bytes) (ctx : σ)
    (user : ω) :
    let o := inferenceComplete L eng fuel params env cb prompt ctx user
    StopCut params.stop.texts o.finish o.pieces o.passed := by
  rcases inferenceComplete_cases L eng fuel params env cb prompt ctx user with
    ⟨n, reason, heq⟩ | ⟨nPrompt, tokens, heq⟩
  · rw [heq]
    exact .none _ reason
  · rw [heq]
    exact runPrompt_stopCut eng fuel nPrompt tokens _ user

/-- The pieces given to the callback are those before the first one after which the text ends
with a stop sequence, and that one is withheld as a whole.  It is the text cut before the first
occurrence exactly if no stop sequence occurs or the first one starts right behind them. -/
theorem inferenceComplete_stopCut (L : Llama σ χ) (eng : Engine) (fuel : Nat)
    (params : SampleParams) (env : RunEnv) (cb : TokenCallback ω) (prompt : Bytes) (ctx : σ)
    (user : ω) :
    let o := inferenceComplete L eng fuel params env cb prompt ctx user
    StopCut params.stop.texts o.finish o.pieces o.passed ∧
      (o.passed.flatten = cutAtFirst params.stop.texts o.pieces.flatten ↔
        ∀ i, firstOccurrence params.stop.texts o.pieces.flatten = some i →
          i = o.passed.flatten.length) := by
  intro o
  have hcut : StopCut params.stop.texts o.finish o.pieces o.passed :=
    inferenceComplete_withheld L eng fuel params env cb prompt ctx user
  refine ⟨hcut, ?_⟩
  rw [hcut.before]
  exact flatten_beforeStop_eq_cutAtFirst_iff params.stop.texts o.pieces

namespace Sample

/-- Says "ab" byte by byte after a prompt of one byte. -/
def saysAb : Llama Ctx Unit :=
  byteModel (fun seq => if seq.length = 1 then 97 else if seq.length = 2 then 98 else 0) fun _ => 0

def stopAtAb : SampleParams :=
  { (default : SampleParams) with
    maxTokens := 16
    stop := ⟨[CBuf.snprintf (ascii "ab")], by decide⟩ }

end Sample

/-- The stop sequence spans two pieces, and the first of them has been passed on. -/
theorem not_passed_eq_cutAtFirst :
    ¬ ∀ (L : Llama Sample.Ctx Unit) (eng : Engine) (fuel : Nat) (params : SampleParams)
        (env : RunEnv) (cb : TokenCallback Unit) (prompt : Bytes) (ctx : Sample.Ctx),
      (∀ s ∈ params.stop.texts, s ≠ []) →
        (inferenceComplete L eng fuel params env cb prompt ctx ()).passed.flatten =
          cutAtFirst params.stop.texts
            (inferenceComplete L eng fuel params env cb prompt ctx ()).pieces.flatten := by
  intro hall
  have hcut := hall Sample.saysAb Sample.engine 2 Sample.stopAtAb Sample.calm (fun _ _ u => (0, u))
    (ascii "x") default (by decide)
  revert hcut
  decide

end Professord
