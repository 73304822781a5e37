import Professord.Inference.Llama
import Professord.Inference.StopWindow

/-!
# Complete — `inference_complete`

The prompt loop runs on fuel: with `n_batch ≤ 0` it may go on for ever, and a run that has used up
its fuel is `running`.  The generation loop is bounded by `max_gen`.  Next to what the source
returns, a run records the pieces sampled, those given to the callback and the results of
`llama_decode`.
-/

namespace Professord

open CText

/-! ## The sampler chain -/

def samplers (p : SampleParams) : List Sampler :=
  if p.temperature.le (.fin 0) then
    [.greedy]
  else
    (if (CFloat.fin 1).lt p.repeatPenalty || !p.frequencyPenalty.eq (.fin 0) ||
        !p.presencePenalty.eq (.fin 0) then
      [.penalties 256 p.repeatPenalty p.frequencyPenalty p.presencePenalty]
    else
      []) ++
    [.topK p.topK, .topP p.topP 1, .temp p.temperature, .dist 0]

variable {σ χ ω : Type}

def buildChain (L : Llama σ χ) (p : SampleParams) : χ :=
  (samplers p).foldl L.chainAdd L.chainInit

/-! ## Process the prompt in batches -/

structure PromptRun (σ : Type) where
  ctx : σ
  rcs : List Int
  /-- the last result, or `none` while the loop has not ended -/
  ended : Option Int

/-- The size of the next chunk. -/
def promptChunk (nBatch nPrompt nProcessed : Int) : Int :=
  let chunk := nPrompt - nProcessed
  -- with `n_batch <= 0` there is no progress
  if chunk > nBatch then nBatch else chunk

def decodePrompt (L : Llama σ χ) (nBatch : Int) (tokens : List Token) (nPrompt : Int) :
    Nat → Int → σ → List Int → PromptRun σ
  | 0, _, ctx, rcs => ⟨ctx, rcs, none⟩
  | fuel + 1, nProcessed, ctx, rcs =>
      if nProcessed < nPrompt then
        let chunk := promptChunk nBatch nPrompt nProcessed
        let r := L.decode ctx ((tokens.drop nProcessed.toNat).take chunk.toNat)
        if r.1 ≠ 0 then
          ⟨r.2, rcs ++ [r.1], some r.1⟩
        else
          decodePrompt L nBatch tokens nPrompt fuel (nProcessed + chunk) r.2 (rcs ++ [r.1])
      else
        ⟨ctx, rcs, some 0⟩

/-! ## Generation loop -/

structure GenState (σ χ ω : Type) where
  ctx : σ
  chain : χ
  /-- the data of the callback -/
  user : ω
  window : Bytes
  nGenerated : Int
  pieces : List Bytes
  passed : List Bytes
  rcs : List Int

/-- A token callback: called in iteration `i` with a text, it returns a code. -/
abbrev TokenCallback (ω : Type) : Type := Nat → Bytes → ω → Int × ω

/-- The text of a sampled token. -/
def pieceText (L : Llama σ χ) (token : Token) : Bytes :=
  match L.tokenToPiece token with
  | none => []
  | some piece => piece.text

/-- Count a token and, if there are stop sequences, push its text into the window. -/
def GenState.record (g : GenState σ χ ω) (stop : StopList) (piece : Bytes) : GenState σ χ ω :=
  { g with
    nGenerated := g.nGenerated + 1
    pieces := g.pieces ++ [piece]
    window := if stop.entries.length > 0 then pushWindow g.window piece else g.window }

section Loop

variable (L : Llama σ χ) (params : SampleParams) (env : RunEnv) (cb : TokenCallback ω)

/-- The checks at the top of iteration `i`. -/
def abortReason (i : Nat) : Option FinishReason :=
  if env.shutdown i then
    some .abort
  else if env.cancel i then
    some .abort
  else if i % 32 = 0 ∧ env.elapsed i > params.maxInferenceSeconds then
    some .timeLimit
  else
    none

/-- From the callback to the end of iteration `i`. -/
def passToken (i : Nat) (token : Token) (piece : Bytes) (g : GenState σ χ ω) :
    Option FinishReason × GenState σ χ ω :=
  let r := cb i piece g.user
  let g := { g with user := r.2, passed := g.passed ++ [piece] }
  -- the callback asks to stop
  if r.1 ≠ 0 then
    (some .abort, g)
  else
    let d := L.decode g.ctx [token]
    let g := { g with ctx := d.2, rcs := g.rcs ++ [d.1] }
    -- a failure ends the loop with a reason, and the function still returns 0
    if d.1 ≠ 0 then (some .backendError, g) else (none, g)

/-- Iteration `i`: the reason to leave the loop, if any, and the state. -/
def genStep (i : Nat) (g : GenState σ χ ω) : Option FinishReason × GenState σ χ ω :=
  match abortReason params env i with
  | some reason => (some reason, g)
  | none =>
      let t := L.sample g.chain g.ctx
      let g := { g with chain := L.accept t.2 t.1 }
      if t.1 = L.eos then
        (some .stop, g)
      else
        let piece := pieceText L t.1
        let g := g.record params.stop piece
        -- the piece that completes a stop sequence is withheld
        if params.stop.entries.length > 0 ∧ stopMatches params.stop g.window then
          (some .stop, g)
        else
          passToken L cb i t.1 piece g

def generate : Nat → Nat → GenState σ χ ω → FinishReason × GenState σ χ ω
  | 0, _, g => (.length, g)
  | n + 1, i, g =>
      match genStep L params env cb i g with
      | (some reason, g') => (reason, g')
      | (none, g') => generate n (i + 1) g'

/-! ### Rules of the loop -/

variable {L params env cb}

/-- An iteration leaves the loop before it samples a text, or withholds the text that completes a
stop sequence, or passes the text on. -/
theorem genStep_cases (i : Nat) (g : GenState σ χ ω) :
    (∃ reason chain, genStep L params env cb i g = (some reason, { g with chain := chain })) ∨
    ∃ token chain piece,
      (stopMatches params.stop (({ g with chain := chain }).record params.stop piece).window = true ∧
        0 < params.stop.entries.length ∧
        genStep L params env cb i g =
          (some .stop, ({ g with chain := chain }).record params.stop piece)) ∨
      ((0 < params.stop.entries.length →
          stopMatches params.stop (({ g with chain := chain }).record params.stop piece).window =
            false) ∧
        genStep L params env cb i g =
          passToken L cb i token piece (({ g with chain := chain }).record params.stop piece)) := by
  unfold genStep
  cases abortReason params env i with
  | some reason => exact .inl ⟨reason, g.chain, rfl⟩
  | none =>
      simp only
      split
      · exact .inl ⟨.stop, _, rfl⟩
      · refine .inr ⟨(L.sample g.chain g.ctx).1,
          L.accept (L.sample g.chain g.ctx).2 (L.sample g.chain g.ctx).1,
          pieceText L (L.sample g.chain g.ctx).1, ?_⟩
        split
        -- the stop check comes before the callback, so the text is not passed on
        · next hstop => exact .inl ⟨hstop.2, hstop.1, rfl⟩
        · next hpass =>
            refine .inr ⟨fun hpos => ?_, rfl⟩
            rw [Bool.eq_false_iff]
            exact fun hmatch => hpass ⟨hpos, hmatch⟩

/-- The rule of the loop: an invariant that every iteration keeps when it goes on, and what
follows from it when an iteration, or the loop, ends. -/
theorem generate_rule {P : GenState σ χ ω → Prop} {Q : FinishReason → GenState σ χ ω → Prop}
    (hnext : ∀ i g g', P g → genStep L params env cb i g = (none, g') → P g')
    (hleave : ∀ i g reason g', P g → genStep L params env cb i g = (some reason, g') → Q reason g')
    (hend : ∀ g, P g → Q .length g) (n i : Nat) {g : GenState σ χ ω} (h : P g) :
    Q (generate L params env cb n i g).1 (generate L params env cb n i g).2 := by
  -- on the number of iterations left; `P` holds at the top of each of them
  induction n generalizing i g with
  | zero => exact hend g h
  | succ n ih =>
      unfold generate
      cases hstep : genStep L params env cb i g with
      | mk r g' =>
          cases r with
          | some reason => exact hleave i g reason g' h hstep
          | none => exact ih (i + 1) (hnext i g g' h hstep)

end Loop

/-! ## The function -/

/-- What a call of an inference function does. -/
structure Outcome (σ ω : Type) where
  /-- the return code, or `none` while the prompt loop has not ended -/
  ret : Option Int
  finish : FinishReason
  promptTokens : Int
  completionTokens : Int
  ctx : σ
  user : ω
  pieces : List Bytes := []
  passed : List Bytes := []
  promptRcs : List Int := []
  tokenRcs : List Int := []

/-- `snprintf(finish_reason, ..); return -1;` -/
def Outcome.fail (ctx : σ) (user : ω) (promptTokens : Int) (promptRcs : List Int)
    (reason : FinishReason) : Outcome σ ω where
  ret := some (-1)
  finish := reason
  promptTokens := promptTokens
  completionTokens := 0
  ctx := ctx
  user := user
  promptRcs := promptRcs

section Function

variable (L : Llama σ χ) (eng : Engine) (fuel : Nat) (params : SampleParams) (env : RunEnv)
  (cb : TokenCallback ω)

/-- `max_tokens` capped to the available context. -/
def maxGen (nPrompt : Int) : Int :=
  if wrap32 (nPrompt + params.maxTokens) > eng.nCtx then
    wrap32 (eng.nCtx - nPrompt)
  else
    params.maxTokens

/-- The size of the token buffer, from what `llama_tokenize` returns without one. -/
def tokenBufferSize (nRequired : Int) : Int :=
  if nRequired < 0 then wrap32 (-nRequired) else nRequired

/-- The state at the top of the generation loop. -/
def genStart (ctx : σ) (user : ω) : GenState σ χ ω where
  ctx := ctx
  chain := buildChain L params
  user := user
  window := []
  nGenerated := 0
  pieces := []
  passed := []
  rcs := []

/-- From the sampler chain to the end. -/
def runGeneration (nPrompt : Int) (promptRcs : List Int) (ctx : σ) (user : ω) : Outcome σ ω :=
  if !env.allocs.chain then
    .fail ctx user nPrompt promptRcs .backendError
  else
    let r := generate L params env cb (maxGen eng params nPrompt).toNat 0
      (genStart L params ctx user)
    { ret := some 0
      finish := r.1
      promptTokens := nPrompt
      completionTokens := r.2.nGenerated
      ctx := L.perfReset r.2.ctx
      user := r.2.user
      pieces := r.2.pieces
      passed := r.2.passed
      promptRcs := promptRcs
      tokenRcs := r.2.rcs }

/-- The prompt loop, and what follows it. -/
def runPrompt (nPrompt : Int) (tokens : List Token) (ctx : σ) (user : ω) : Outcome σ ω :=
  let p := decodePrompt L eng.nBatch tokens nPrompt fuel 0 ctx []
  match p.ended with
  | none =>
      { ret := none
        finish := .length
        promptTokens := nPrompt
        completionTokens := 0
        ctx := p.ctx
        user := user
        promptRcs := p.rcs }
  | some rc =>
      if rc ≠ 0 then
        .fail p.ctx user nPrompt p.rcs (if rc = 1 then .contextOverflow else .backendError)
      else
        runGeneration L eng params env cb nPrompt p.rcs p.ctx user

def inferenceComplete (prompt : Bytes) (ctx : σ) (user : ω) : Outcome σ ω :=
  let ctx := L.memoryClear ctx
  -- a first call without a buffer asks for the number of tokens
  let nRequired := (L.tokenize (cstr prompt) 0).1
  if nRequired = 0 then
    .fail ctx user 0 [] .backendError
  else
    let nTokens := tokenBufferSize nRequired
    if nTokens ≥ eng.nCtx then
      .fail ctx user 0 [] .contextOverflow
    else if !env.allocs.tokens then
      .fail ctx user 0 [] .backendError
    else
      let t := L.tokenize (cstr prompt) nTokens
      if t.1 < 0 then
        .fail ctx user 0 [] .backendError
      else if maxGen eng params t.1 ≤ 0 then
        .fail ctx user t.1 [] .contextOverflow
      else
        runPrompt L eng fuel params env cb t.1 t.2 ctx user

/-! ## The ways through the function -/

theorem inferenceComplete_cases (prompt : Bytes) (ctx : σ) (user : ω) :
    (∃ n reason, inferenceComplete L eng fuel params env cb prompt ctx user =
      .fail (L.memoryClear ctx) user n [] reason) ∨
    ∃ nPrompt tokens, inferenceComplete L eng fuel params env cb prompt ctx user =
      runPrompt L eng fuel params env cb nPrompt tokens (L.memoryClear ctx) user := by
  unfold inferenceComplete
  simp only
  split
  · exact .inl ⟨_, _, rfl⟩
  split
  · exact .inl ⟨_, _, rfl⟩
  split
  · exact .inl ⟨_, _, rfl⟩
  split
  · exact .inl ⟨_, _, rfl⟩
  split
  · exact .inl ⟨_, _, rfl⟩
  · exact .inr ⟨_, _, rfl⟩

end Function

section PromptLoop

variable (L : Llama σ χ) (nBatch : Int) (tokens : List Token) (nPrompt : Int)

/-- The results are all zero until the loop ends with another one. -/
theorem decodePrompt_rcs (fuel : Nat) (n : Int) (ctx : σ) {rcs : List Int}
    (h : ∀ rc ∈ rcs, rc = 0) :
    (∀ rc ∈ (decodePrompt L nBatch tokens nPrompt fuel n ctx rcs).rcs, rc = 0) ∧
        ((decodePrompt L nBatch tokens nPrompt fuel n ctx rcs).ended = none ∨
          (decodePrompt L nBatch tokens nPrompt fuel n ctx rcs).ended = some 0) ∨
      ∃ rc, rc ≠ 0 ∧ (decodePrompt L nBatch tokens nPrompt fuel n ctx rcs).ended = some rc := by
  induction fuel generalizing n ctx rcs with
  | zero => exact .inl ⟨h, .inl rfl⟩
  | succ fuel ih =>
      unfold decodePrompt
      simp only
      split
      · split
        · next hrc => exact .inr ⟨_, hrc, rfl⟩
        · next hrc =>
            -- the loop goes on, so the new result is zero as well
            refine ih _ _ ?_
            intro rc hmem
            rcases List.mem_append.1 hmem with hold | hnew
            · exact h rc hold
            · rw [List.mem_singleton.1 hnew]
              exact not_not.1 hrc
      · exact .inl ⟨h, .inr rfl⟩

/-- With a positive batch size the prompt loop ends. -/
theorem decodePrompt_ended (hbatch : 1 ≤ nBatch) (fuel : Nat) (n : Int) (ctx : σ)
    (rcs : List Int) (hpos : 0 < fuel) (hfuel : nPrompt - n < fuel) :
    (decodePrompt L nBatch tokens nPrompt fuel n ctx rcs).ended ≠ none := by
  induction fuel generalizing n ctx rcs with
  | zero => exact absurd hpos (Nat.lt_irrefl 0)
  | succ fuel ih =>
      unfold decodePrompt
      simp only
      split
      · next hmore =>
          -- each chunk has at least one token, so `n_prompt - n_processed` decreases
          have hchunk : 1 ≤ promptChunk nBatch nPrompt n := by
            unfold promptChunk
            simp only
            split <;> omega
          split
          · simp
          · exact ih _ _ _ (by omega) (by omega)
      · simp

end PromptLoop

end Professord
