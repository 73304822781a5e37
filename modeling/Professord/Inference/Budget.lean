import Professord.Inference.Complete
import Professord.Inference.ParamRange

/-!
# Budget — the context budget of a job

`n_ctx` and `max_tokens` may be as large as an `int32_t`, so the sum `n_prompt + max_gen` of the
cap can overflow.  As long as it does not, the cap is right, no other sum of `inference_complete`
overflows, and a job submits at most `n_ctx` tokens to `llama_decode`.
-/

namespace Professord

open CText

variable {σ χ ω : Type}

/-! ## What a call computes -/

section Sums

variable (L : Llama σ χ) (eng : Engine) (fuel : Nat) (params : SampleParams) (env : RunEnv)
  (cb : TokenCallback ω)

/-- The tokens of the prompt, if `inference_complete` gets as far as the cap of `max_tokens`. -/
def promptTokens (prompt : Bytes) : Option (Int × List Token) :=
  let nRequired := (L.tokenize (cstr prompt) 0).1
  if nRequired = 0 then
    none
  else
    let nTokens := tokenBufferSize nRequired
    if nTokens ≥ eng.nCtx then
      none
    else if !env.allocs.tokens then
      none
    else
      let t := L.tokenize (cstr prompt) nTokens
      if t.1 < 0 then none else some t

/-- The exact sum and difference of the cap. -/
def capSums (nPrompt : Int) : List Int :=
  (nPrompt + params.maxTokens) ::
    if wrap32 (nPrompt + params.maxTokens) > eng.nCtx then [eng.nCtx - nPrompt] else []

/-- One pass of the prompt loop, with the result of `llama_decode`. -/
structure PromptPass where
  nProcessed : Int
  chunk : Int
  rc : Int

/-- The passes of `decodePrompt`. -/
def promptPasses (nBatch : Int) (tokens : List Token) (nPrompt : Int) :
    Nat → Int → σ → List PromptPass
  | 0, _, _ => []
  | fuel + 1, nProcessed, ctx =>
      if nProcessed < nPrompt then
        let chunk := promptChunk nBatch nPrompt nProcessed
        let r := L.decode ctx ((tokens.drop nProcessed.toNat).take chunk.toNat)
        ⟨nProcessed, chunk, r.1⟩ ::
          if r.1 ≠ 0 then []
          else promptPasses nBatch tokens nPrompt fuel (nProcessed + chunk) r.2
      else
        []

/-- `n_prompt - n_processed` and, unless decoding fails, `n_processed + chunk` -/
def PromptPass.sums (nPrompt : Int) (p : PromptPass) : List Int :=
  (nPrompt - p.nProcessed) :: if p.rc ≠ 0 then [] else [p.nProcessed + p.chunk]

/-- `i + 1`, `n_generated + 1` and `stop_window_len + plen` of each iteration. -/
def genSums : Nat → Nat → GenState σ χ ω → List Int
  | 0, _, _ => []
  | n + 1, i, g =>
      let piece := pieceText L (L.sample g.chain g.ctx).1
      [(i : Int) + 1, g.nGenerated + 1, g.window.length + min piece.length profStopLen] ++
        match genStep L params env cb i g with
        | (some _, _) => []
        | (none, g') => genSums n (i + 1) g'

/-- The exact values of the sums and differences that a call of `inference_complete` forms of
`int32_t` values. -/
def int32Sums (prompt : Bytes) (ctx : σ) (user : ω) : List Int :=
  match promptTokens L eng env prompt with
  | none => []
  | some t =>
      capSums eng params t.1 ++
        if maxGen eng params t.1 ≤ 0 then
          []
        else
          let run := decodePrompt L eng.nBatch t.2 t.1 fuel 0 (L.memoryClear ctx) []
          (promptPasses L eng.nBatch t.2 t.1 fuel 0 (L.memoryClear ctx)).flatMap
              (PromptPass.sums t.1) ++
            if run.ended = some 0 ∧ env.allocs.chain = true then
              genSums L params env cb (maxGen eng params t.1).toNat 0
                (genStart L params run.ctx user)
            else
              []

/-- The tokens that a call submits to `llama_decode`. -/
def submitted (prompt : Bytes) (ctx : σ) (user : ω) : Int :=
  match promptTokens L eng env prompt with
  | none => 0
  | some t =>
      if maxGen eng params t.1 ≤ 0 then
        0
      else
        ((promptPasses L eng.nBatch t.2 t.1 fuel 0 (L.memoryClear ctx)).map PromptPass.chunk).sum +
          (inferenceComplete L eng fuel params env cb prompt ctx user).tokenRcs.length

/-- One call keeps to the context budget. -/
structure BudgetKept (prompt : Bytes) (ctx : σ) (user : ω) : Prop where
  sums : ∀ x ∈ int32Sums L eng fuel params env cb prompt ctx user, InInt32 x
  generation : ∀ t, promptTokens L eng env prompt = some t → 0 < maxGen eng params t.1 →
    1 ≤ maxGen eng params t.1 ∧ t.1 + maxGen eng params t.1 ≤ eng.nCtx
  submitted : submitted L eng fuel params env cb prompt ctx user ≤ eng.nCtx

end Sums

section Connections

variable {L : Llama σ χ} {eng : Engine} {fuel : Nat} {params : SampleParams} {env : RunEnv}
  {cb : TokenCallback ω}

theorem inferenceComplete_promptTokens (L : Llama σ χ) (eng : Engine) (fuel : Nat)
    (params : SampleParams) (env : RunEnv) (cb : TokenCallback ω) (prompt : Bytes) (ctx : σ) (user : ω) :
    match promptTokens L eng env prompt with
    | none => ∃ n reason, inferenceComplete L eng fuel params env cb prompt ctx user =
        .fail (L.memoryClear ctx) user n [] reason
    | some t => inferenceComplete L eng fuel params env cb prompt ctx user =
        if maxGen eng params t.1 ≤ 0 then
          .fail (L.memoryClear ctx) user t.1 [] .contextOverflow
        else
          runPrompt L eng fuel params env cb t.1 t.2 (L.memoryClear ctx) user := by
  unfold promptTokens inferenceComplete
  simp only
  split_ifs
  · exact ⟨_, _, rfl⟩
  · exact ⟨_, _, rfl⟩
  · exact ⟨_, _, rfl⟩
  · exact ⟨_, _, rfl⟩
  · next hcap => exact (if_pos hcap).symm
  · next hcap => exact (if_neg hcap).symm

end Connections

/-! ## Within the budget -/

section Budget

variable {L : Llama σ χ} {eng : Engine} {fuel : Nat} {params : SampleParams} {env : RunEnv}
  {cb : TokenCallback ω}

/-- Without overflow the cap is the smaller of `max_tokens` and the room that is left. -/
theorem maxGen_le {nPrompt : Int} (hprompt : 0 ≤ nPrompt) (hctx : 0 < eng.nCtx ∧ eng.nCtx < 2 ^ 31)
    (htokens : 0 < params.maxTokens) (hsum : nPrompt + params.maxTokens < 2 ^ 31) :
    nPrompt + maxGen eng params nPrompt ≤ eng.nCtx ∧
      maxGen eng params nPrompt ≤ params.maxTokens ∧ ∀ x ∈ capSums eng params nPrompt, InInt32 x := by
  have hadd : InInt32 (nPrompt + params.maxTokens) := ⟨by omega, hsum⟩
  have hsub : InInt32 (eng.nCtx - nPrompt) := ⟨by omega, by omega⟩
  unfold maxGen capSums
  rw [wrap32_of_inInt32 hadd, wrap32_of_inInt32 hsub]
  split
  · refine ⟨by omega, by omega, ?_⟩
    simp [hadd, hsub]
  · refine ⟨by omega, by omega, ?_⟩
    simp [hadd]

/-- The prompt loop stays between 0 and `n_prompt`: its sums fit, and its chunks add up to what is
left. -/
theorem promptPasses_budget (hempty : L.RejectsEmpty) (nBatch : Int) (tokens : List Token)
    {nPrompt : Int} (hprompt : nPrompt < 2 ^ 31) (fuel : Nat) (n : Int) (ctx : σ) (hn : 0 ≤ n)
    (hle : n ≤ nPrompt) :
    (∀ x ∈ (promptPasses L nBatch tokens nPrompt fuel n ctx).flatMap (PromptPass.sums nPrompt),
        InInt32 x) ∧
      ((promptPasses L nBatch tokens nPrompt fuel n ctx).map PromptPass.chunk).sum ≤ nPrompt - n := by
  induction fuel generalizing n ctx with
  | zero =>
      simp only [promptPasses, List.flatMap_nil, List.map_nil, List.sum_nil]
      exact ⟨by simp, by omega⟩
  | succ fuel ih =>
      unfold promptPasses
      simp only
      split
      case isFalse =>
        simp only [List.flatMap_nil, List.map_nil, List.sum_nil]
        exact ⟨by simp, by omega⟩
      case isTrue hmore =>
        have hchunk : promptChunk nBatch nPrompt n ≤ nPrompt - n := by
          unfold promptChunk
          simp only
          split <;> omega
        have hfirst : InInt32 (nPrompt - n) := ⟨by omega, by omega⟩
        split
        · -- decoding fails, and this was the last pass
          simp only [List.flatMap_cons, List.flatMap_nil, List.map_cons, List.map_nil]
          rename_i hrc
          refine ⟨?_, by simpa using hchunk⟩
          simp [PromptPass.sums, hrc, hfirst]
        · rename_i hrc
          -- the batch was not empty, so the chunk has at least one token
          have hpos : 1 ≤ promptChunk nBatch nPrompt n := by
            by_contra hnone
            have hzero : (promptChunk nBatch nPrompt n).toNat = 0 := by omega
            rw [hzero, List.take_zero] at hrc
            exact hrc (hempty ctx)
          obtain ⟨hsums, hleft⟩ := ih (n + promptChunk nBatch nPrompt n)
            (L.decode ctx ((tokens.drop n.toNat).take (promptChunk nBatch nPrompt n).toNat)).2
            (by omega) (by omega)
          have hsecond : InInt32 (n + promptChunk nBatch nPrompt n) := ⟨by omega, by omega⟩
          simp only [List.flatMap_cons, List.map_cons, List.sum_cons, List.mem_append]
          refine ⟨?_, by omega⟩
          rintro x (hx | hx)
          · simp only [PromptPass.sums, hrc, if_false, List.mem_cons, List.not_mem_nil,
              or_false] at hx
            rcases hx with rfl | rfl
            · exact hfirst
            · exact hsecond
          · exact hsums x hx

/-- What one iteration does to the counters. -/
structure Counted (g g' : GenState σ χ ω) : Prop where
  nGenerated : g'.nGenerated = g.nGenerated ∨ g'.nGenerated = g.nGenerated + 1
  window : g.window.length ≤ profStopLen → g'.window.length ≤ profStopLen
  rcs : g'.rcs.length ≤ g.rcs.length + 1

theorem counted_record (g : GenState σ χ ω) (stop : StopList) (piece : Bytes) (chain : χ) :
    Counted g (({ g with chain := chain }).record stop piece) where
  nGenerated := .inr rfl
  window h := by
    unfold GenState.record
    dsimp only
    split
    · exact length_pushWindow_le piece h
    · exact h
  rcs := Nat.le_succ _

theorem passToken_counted (L : Llama σ χ) (cb : TokenCallback ω) (i : Nat) (token : Token)
    (piece : Bytes) (g : GenState σ χ ω) :
    (passToken L cb i token piece g).2.nGenerated = g.nGenerated ∧
      (passToken L cb i token piece g).2.window = g.window ∧
      (passToken L cb i token piece g).2.rcs.length ≤ g.rcs.length + 1 := by
  unfold passToken
  simp only
  split
  · exact ⟨rfl, rfl, Nat.le_succ _⟩
  · split <;> exact ⟨rfl, rfl, by simp⟩

theorem genStep_counted (i : Nat) (g : GenState σ χ ω) :
    Counted g (genStep L params env cb i g).2 := by
  rcases genStep_cases i g with ⟨reason, chain, hstep⟩ | ⟨token, chain, piece, hstep⟩
  · rw [hstep]
    exact ⟨.inl rfl, id, Nat.le_succ _⟩
  · rcases hstep with ⟨_, _, hstep⟩ | ⟨_, hstep⟩
    · rw [hstep]
      exact counted_record g params.stop piece chain
    · rw [hstep]
      have hrecord := counted_record g params.stop piece chain
      obtain ⟨hgen, hwindow, hrcs⟩ := passToken_counted L cb i token piece
        (({ g with chain := chain }).record params.stop piece)
      refine ⟨hgen ▸ hrecord.nGenerated, fun h => hwindow ▸ hrecord.window h, hrcs⟩

theorem genSums_inInt32 (n i : Nat) (g : GenState σ χ ω) (hpos : 0 ≤ g.nGenerated)
    (hgen : g.nGenerated ≤ i) (hwindow : g.window.length ≤ profStopLen)
    (hbound : (i : Int) + n < 2 ^ 31) :
    ∀ x ∈ genSums L params env cb n i g, InInt32 x := by
  -- `n_generated ≤ i` is the invariant: an iteration adds at most 1 to either
  induction n generalizing i g with
  | zero => simp [genSums]
  | succ n ih =>
      unfold genSums
      simp only [List.cons_append, List.nil_append, List.mem_cons]
      rintro x (rfl | rfl | rfl | hx)
      · exact ⟨by omega, by omega⟩
      · exact ⟨by omega, by omega⟩
      -- the window has at most 64 bytes, and as many are pushed
      · have hstop : profStopLen = 64 := rfl
        exact ⟨by omega, by omega⟩
      · have hcounted : Counted g (genStep L params env cb i g).2 := genStep_counted i g
        cases hstep : genStep L params env cb i g with
        | mk r g' =>
            rw [hstep] at hx hcounted
            cases r with
            -- the loop has ended, and forms no further sum
            | some reason => exact absurd hx (by simp)
            | none =>
                have hnext : g'.nGenerated = g.nGenerated ∨ g'.nGenerated = g.nGenerated + 1 :=
                  hcounted.nGenerated
                refine ih (i + 1) g' (by omega) (by omega) (hcounted.window hwindow) (by omega) x hx

theorem generate_rcs (L : Llama σ χ) (params : SampleParams) (env : RunEnv) (cb : TokenCallback ω)
    (n i : Nat) (g : GenState σ χ ω) :
    (generate L params env cb n i g).2.rcs.length ≤ g.rcs.length + n := by
  induction n generalizing i g with
  | zero => exact Nat.le_refl _
  | succ n ih =>
      have hcounted : Counted g (genStep L params env cb i g).2 := genStep_counted i g
      unfold generate
      cases hstep : genStep L params env cb i g with
      | mk r g' =>
          rw [hstep] at hcounted
          have hrcs := hcounted.rcs
          cases r with
          | some reason => exact hrcs.trans (by omega)
          | none => exact (ih (i + 1) g').trans (by simp only at hrcs; omega)

/-- The generation loop decodes at most `max_gen` tokens. -/
theorem runPrompt_tokenRcs (L : Llama σ χ) (eng : Engine) (fuel : Nat) (params : SampleParams)
    (env : RunEnv) (cb : TokenCallback ω) (nPrompt : Int) (tokens : List Token) (ctx : σ) (user : ω) :
    ((runPrompt L eng fuel params env cb nPrompt tokens ctx user).tokenRcs.length : Int) ≤
      (maxGen eng params nPrompt).toNat := by
  have hnil : ∀ k : Nat, ((([] : List Int).length : Nat) : Int) ≤ k := fun k => by simp
  unfold runPrompt
  simp only
  split
  · exact hnil _
  · split
    · exact hnil _
    · unfold runGeneration
      split
      · exact hnil _
      · have hlen := generate_rcs L params env cb (maxGen eng params nPrompt).toNat 0
          (genStart L params (decodePrompt L eng.nBatch tokens nPrompt fuel 0 ctx []).ctx user)
        simp only [genStart, List.length_nil, Nat.zero_add] at hlen
        exact_mod_cast hlen

theorem promptTokens_nonneg {prompt : Bytes} {t : Int × List Token}
    (h : promptTokens L eng env prompt = some t) : 0 ≤ t.1 := by
  unfold promptTokens at h
  simp only at h
  split_ifs at h with hzero hctx halloc hneg
  cases h
  exact not_lt.1 hneg

theorem budgetKept_of_sum {prompt : Bytes} {ctx : σ} {user : ω} (hempty : L.RejectsEmpty)
    (hctx : 0 < eng.nCtx ∧ eng.nCtx < 2 ^ 31) (htokens : 0 < params.maxTokens)
    (hmax : params.maxTokens < 2 ^ 31)
    (hsum : ∀ t, promptTokens L eng env prompt = some t → t.1 + params.maxTokens < 2 ^ 31) :
    BudgetKept L eng fuel params env cb prompt ctx user := by
  have hway := inferenceComplete_promptTokens L eng fuel params env cb prompt ctx user
  cases ht : promptTokens L eng env prompt with
  | none =>
      refine ⟨by simp [int32Sums, ht], by simp [ht], ?_⟩
      simp only [submitted, ht]
      exact hctx.1.le
  | some t =>
      rw [ht] at hway
      have hprompt := promptTokens_nonneg ht
      have hfits : t.1 < 2 ^ 31 := by have := hsum t ht; omega
      -- the sum of the cap fits, so `max_gen` is what it should be
      obtain ⟨hroom, hle, hcap⟩ := maxGen_le hprompt hctx htokens (hsum t ht)
      obtain ⟨hpasses, hchunks⟩ := promptPasses_budget hempty eng.nBatch t.2 hfits fuel 0
        (L.memoryClear ctx) le_rfl hprompt
      refine ⟨?_, ?_, ?_⟩
      · simp only [int32Sums, ht, List.mem_append]
        rintro x (hx | hx)
        · exact hcap x hx
        · split at hx
          · exact absurd hx (by simp)
          · rcases List.mem_append.1 hx with hx | hx
            · exact hpasses x hx
            · split at hx
              -- `max_gen ≤ max_tokens` bounds the counters of the loop
              · exact genSums_inInt32 _ 0 _ (by simp [genStart]) (by simp [genStart])
                  (by simp [genStart]) (by omega) x hx
              · exact absurd hx (by simp)
      · intro t' ht' hpos
        cases ht'.symm.trans ht
        exact ⟨hpos, hroom⟩
      · simp only [submitted, ht]
        split
        · exact hctx.1.le
        · next hgen =>
            simp only [if_neg hgen] at hway
            -- at most `n_prompt` tokens of the prompt and `max_gen` generated ones
            have hrcs := runPrompt_tokenRcs L eng fuel params env cb t.1 t.2 (L.memoryClear ctx) user
            rw [hway]
            omega

/-- A call keeps to the context budget exactly when `n_prompt + max_tokens` does not overflow. -/
theorem context_budget_iff {cfg : Config} {chatml : Bool} {prompt : Bytes} {ctx : σ} {user : ω}
    (hempty : L.RejectsEmpty) (hvalid : configValidate cfg = 0) (hint : InInt32 cfg.nCtx)
    (hparams : (∃ req, params = inferenceResolveParams cfg req) ∨
      ∃ req, params = inferenceResolveParamsCompletion cfg req) :
    (∀ fuel, BudgetKept L (.ofConfig cfg chatml) fuel params env cb prompt ctx user) ↔
      ∀ t, promptTokens L (.ofConfig cfg chatml) env prompt = some t →
        t.1 + params.maxTokens < 2 ^ 31 := by
  have hcfg : cfg.Valid := configValidate_eq_zero_iff.1 hvalid
  have hrange : 1 ≤ params.maxTokens ∧ params.maxTokens ≤ cfg.nCtx := by
    rcases hparams with ⟨req, rfl⟩ | ⟨req, rfl⟩
    · exact resolveMaxTokens_range hcfg req.maxTokens
    · exact resolveMaxTokens_range hcfg req.maxTokens
  constructor
  · intro h t ht
    -- the sum of the cap is one that every call forms, whatever its fuel
    have hmem : t.1 + params.maxTokens ∈
        int32Sums L (.ofConfig cfg chatml) 0 params env cb prompt ctx user := by
      simp [int32Sums, ht, capSums]
    exact ((h 0).sums _ hmem).2
  · intro h fuel
    have hctx : 0 < (Engine.ofConfig cfg chatml).nCtx ∧ (Engine.ofConfig cfg chatml).nCtx < 2 ^ 31 :=
      ⟨hcfg.nCtx_pos, hint.2⟩
    exact budgetKept_of_sum hempty hctx (by omega) (by have := hint.2; omega) h

end Budget

/-! ### The largest context -/

namespace Sample

/-- A model whose first token ends the text. -/
def strictModel : Llama Ctx Unit :=
  let base := byteModel (fun _ => 0) fun _ => 0
  { base with decode := fun s batch => if batch = [] then (-1, s) else base.decode s batch }

theorem strictModel_rejectsEmpty : strictModel.RejectsEmpty := by
  intro s
  simp [strictModel]

def bigConfig : Config :=
  { config with nCtx := 2147483647, maxTokens := 2147483647 }

theorem bigConfig_valid : configValidate bigConfig = 0 := by decide

/-- The callback takes every text. -/
def takeAll : TokenCallback Unit :=
  fun _ _ user => (0, user)

theorem promptTokens_hi (cfg : Config) (h : 2 < cfg.nCtx) :
    promptTokens strictModel (.ofConfig cfg true) calm (ascii "hi") = some (2, [104, 105]) := by
  have hrequired : strictModel.tokenize (cstr (ascii "hi")) 0 = (-2, []) := by rfl
  have hsize : tokenBufferSize (-2) = 2 := by decide
  have htokens : strictModel.tokenize (cstr (ascii "hi")) 2 = (2, [104, 105]) := by rfl
  have hroom : ¬ (2 : Int) ≥ cfg.nCtx := by omega
  simp [promptTokens, hrequired, hsize, htokens, Engine.ofConfig, hroom, calm]

theorem context_budget_iff_hi :
    BudgetKept strictModel (.ofConfig config true) 1000
      (inferenceResolveParamsCompletion config promptRequest) calm takeAll (ascii "hi")
      (default : Ctx) () := by
  refine (context_budget_iff strictModel_rejectsEmpty config_valid ⟨by decide, by decide⟩
    (.inr ⟨promptRequest, rfl⟩)).2 ?_ 1000
  intro t ht
  rw [promptTokens_hi config (by decide)] at ht
  cases ht
  decide

end Sample

/-- `n_ctx = max_tokens = INT32_MAX` and a prompt of two tokens: the sum overflows. -/
theorem not_context_budget :
    ¬ ∀ (σ χ ω : Type) (L : Llama σ χ) (cfg : Config) (chatml : Bool) (params : SampleParams)
      (env : RunEnv) (cb : TokenCallback ω) (prompt : Bytes) (ctx : σ) (user : ω),
      L.RejectsEmpty → configValidate cfg = 0 → InInt32 cfg.nCtx →
      ((∃ req, params = inferenceResolveParams cfg req) ∨
        ∃ req, params = inferenceResolveParamsCompletion cfg req) →
      ∀ fuel, BudgetKept L (.ofConfig cfg chatml) fuel params env cb prompt ctx user := by
  intro h
  have hkept := h Sample.Ctx Unit Unit Sample.strictModel Sample.bigConfig true
    (inferenceResolveParamsCompletion Sample.bigConfig Sample.promptRequest) Sample.calm
    Sample.takeAll (ascii "hi") default () Sample.strictModel_rejectsEmpty Sample.bigConfig_valid
    ⟨by decide, by decide⟩ (.inr ⟨Sample.promptRequest, rfl⟩) 0
  have hmem : (2147483649 : Int) ∈ int32Sums Sample.strictModel (.ofConfig Sample.bigConfig true) 0
      (inferenceResolveParamsCompletion Sample.bigConfig Sample.promptRequest) Sample.calm
      Sample.takeAll (ascii "hi") default () := by
    simp only [int32Sums, Sample.promptTokens_hi Sample.bigConfig (by decide), capSums]
    exact List.mem_append_left _ List.mem_cons_self
  exact absurd (hkept.sums _ hmem).2 (by decide)

end Professord
