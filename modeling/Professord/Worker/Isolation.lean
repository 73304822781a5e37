import Professord.Worker.RunJob

/-!
# Isolation — a job does not see the jobs before it

Two runs of a request on two engines that earlier jobs have left in any state agree on all they
produce: `llama_memory_clear` makes the KV memories agree, the first chunk of the prompt then makes
the logits agree, and from there on every iteration of the generation loop agrees.
-/

namespace Professord

open CText

variable {σ χ ω K O : Type} {L : Llama σ χ} {kv : σ → K} {logits : σ → O}

/-! ## What remains when the engine is forgotten -/

def GenState.forget (g : GenState σ χ ω) : GenState Unit χ ω :=
  ⟨(), g.chain, g.user, g.window, g.nGenerated, g.pieces, g.passed, g.rcs⟩

def Outcome.forget (o : Outcome σ ω) : Outcome Unit ω :=
  ⟨o.ret, o.finish, o.promptTokens, o.completionTokens, (), o.user, o.pieces, o.passed,
    o.promptRcs, o.tokenRcs⟩

def JobRun.forget (r : JobRun σ) : JobRun Unit :=
  ⟨r.job, (), r.rc, r.written, r.pieces, r.passed, r.promptRcs, r.tokenRcs⟩

/-- Two engines on which `llama_decode` and the sampler give the same results. -/
structure EnginesAgree (kv : σ → K) (logits : σ → O) (s s' : σ) : Prop where
  kv : kv s = kv s'
  logits : logits s = logits s'

/-! ## Prompt -/

theorem decodePrompt_agree (hL : L.ReadsOnly kv logits) (nBatch : Int) (tokens : List Token)
    (nPrompt : Int) (fuel : Nat) (n : Int) {s s' : σ} (rcs : List Int) (h : kv s = kv s') :
    let p := decodePrompt L nBatch tokens nPrompt fuel n s rcs
    let p' := decodePrompt L nBatch tokens nPrompt fuel n s' rcs
    p.rcs = p'.rcs ∧ p.ended = p'.ended ∧ kv p.ctx = kv p'.ctx ∧
      (p.ended = some 0 → n < nPrompt ∨ logits s = logits s' → logits p.ctx = logits p'.ctx) := by
  induction fuel generalizing n s s' rcs with
  | zero => exact ⟨rfl, rfl, h, by simp [decodePrompt]⟩
  | succ fuel ih =>
      by_cases hmore : n < nPrompt
      · let batch := (tokens.drop n.toNat).take (promptChunk nBatch nPrompt n).toNat
        have hrc : (L.decode s batch).1 = (L.decode s' batch).1 := hL.decode_rc s s' batch h
        have hkv := hL.decode_kv s s' batch h
        by_cases hzero : (L.decode s batch).1 = 0
        · have hlogits := hL.decode_logits s s' batch h hzero
          have hrest := ih (n + promptChunk nBatch nPrompt n) (rcs ++ [(L.decode s' batch).1]) hkv
          simp only [decodePrompt, if_pos hmore, ← hrc, batch, hzero, ne_eq, not_true_eq_false,
            if_false] at hrest ⊢
          exact ⟨hrest.1, hrest.2.1, hrest.2.2.1, fun hend _ => hrest.2.2.2 hend (.inr hlogits)⟩
        · simp only [decodePrompt, if_pos hmore, ← hrc, batch, ne_eq, hzero, not_false_eq_true,
            if_true, true_and]
          exact ⟨hkv, fun hend => absurd (Option.some.inj hend) hzero⟩
      · simp only [decodePrompt, if_neg hmore, true_and]
        exact ⟨h, fun _ hor => hor.resolve_left hmore⟩

/-! ## Generation -/

section Loop

variable (params : SampleParams) (env : RunEnv) (cb : TokenCallback ω)

theorem passToken_agree (hL : L.ReadsOnly kv logits) (i : Nat) (token : Token) (piece : Bytes)
    {g g' : GenState σ χ ω} (hkv : kv g.ctx = kv g'.ctx) (hrest : g.forget = g'.forget) :
    (passToken L cb i token piece g).1 = (passToken L cb i token piece g').1 ∧
      (passToken L cb i token piece g).2.forget = (passToken L cb i token piece g').2.forget ∧
      ((passToken L cb i token piece g).1 = none →
        EnginesAgree kv logits (passToken L cb i token piece g).2.ctx
          (passToken L cb i token piece g').2.ctx) := by
  cases g with
  | mk s chain user window nGenerated pieces passed rcs =>
      cases g' with
      | mk s' chain' user' window' nGenerated' pieces' passed' rcs' =>
          simp only [GenState.forget, GenState.mk.injEq, true_and] at hrest
          rcases hrest with ⟨rfl, rfl, rfl, rfl, rfl, rfl, rfl⟩
          -- the same token is decoded onto the same KV memory, so with the same result
          have hrc := hL.decode_rc s s' [token] hkv
          unfold passToken
          simp only [hrc]
          split_ifs with hcb hdec
          · exact ⟨rfl, rfl, by simp⟩
          · exact ⟨rfl, rfl, by simp⟩
          · refine ⟨rfl, rfl, fun _ => ⟨hL.decode_kv s s' _ hkv, hL.decode_logits s s' _ hkv ?_⟩⟩
            exact hrc.trans (not_not.1 hdec)

/-- One iteration on engines that agree: the same decision and the same data, and if the loop goes
on the engines agree again. -/
theorem genStep_agree (hL : L.ReadsOnly kv logits) (i : Nat) {g g' : GenState σ χ ω}
    (hagree : EnginesAgree kv logits g.ctx g'.ctx) (hrest : g.forget = g'.forget) :
    (genStep L params env cb i g).1 = (genStep L params env cb i g').1 ∧
      (genStep L params env cb i g).2.forget = (genStep L params env cb i g').2.forget ∧
      ((genStep L params env cb i g).1 = none →
        EnginesAgree kv logits (genStep L params env cb i g).2.ctx
          (genStep L params env cb i g').2.ctx) := by
  cases g with
  | mk s chain user window nGenerated pieces passed rcs =>
      cases g' with
      | mk s' chain' user' window' nGenerated' pieces' passed' rcs' =>
          simp only [GenState.forget, GenState.mk.injEq, true_and] at hrest
          rcases hrest with ⟨rfl, rfl, rfl, rfl, rfl, rfl, rfl⟩
          -- equal logits give the same token and the same chain
          have hsample := hL.sample chain s s' hagree.logits
          unfold genStep
          cases abortReason params env i with
          | some reason => exact ⟨rfl, rfl, by simp⟩
          | none =>
              simp only [hsample, GenState.record]
              split_ifs with heos hpos hstop hstop
              all_goals
                first
                | exact ⟨rfl, rfl, by simp⟩
                | exact passToken_agree cb hL i _ _ hagree.kv rfl

theorem generate_agree (hL : L.ReadsOnly kv logits) (n i : Nat) {g g' : GenState σ χ ω}
    (hagree : EnginesAgree kv logits g.ctx g'.ctx) (hrest : g.forget = g'.forget) :
    (generate L params env cb n i g).1 = (generate L params env cb n i g').1 ∧
      (generate L params env cb n i g).2.forget = (generate L params env cb n i g').2.forget := by
  induction n generalizing i g g' with
  | zero => exact ⟨rfl, hrest⟩
  | succ n ih =>
      have hstep := genStep_agree params env cb hL i hagree hrest
      unfold generate
      cases hg : genStep L params env cb i g with
      | mk r g₁ =>
          cases hg' : genStep L params env cb i g' with
          | mk r' g₁' =>
              rw [hg, hg'] at hstep
              rcases hstep with ⟨rfl, hsame, hnext⟩
              cases r with
              | some reason => exact ⟨rfl, hsame⟩
              | none => exact ih (i + 1) (hnext rfl) hsame

end Loop

/-! ## The functions -/

section Functions

variable (eng : Engine) (fuel : Nat) (params : SampleParams) (env : RunEnv) (cb : TokenCallback ω)
  {s s' : σ}

theorem runGeneration_agree (hL : L.ReadsOnly kv logits) (nPrompt : Int) (rcs : List Int)
    (hagree : EnginesAgree kv logits s s') (user : ω) :
    (runGeneration L eng params env cb nPrompt rcs s user).forget =
      (runGeneration L eng params env cb nPrompt rcs s' user).forget := by
  have hstart : EnginesAgree kv logits (genStart L params s user).ctx
      (genStart L params s' user).ctx := hagree
  have hgen := generate_agree params env cb hL (maxGen eng params nPrompt).toNat 0 hstart rfl
  unfold runGeneration
  split_ifs
  · rfl
  · simp only [GenState.forget, GenState.mk.injEq, true_and] at hgen
    simp only [Outcome.forget, hgen]

/-- The first chunk of a prompt that is not empty makes the logits agree. -/
theorem runPrompt_agree (hL : L.ReadsOnly kv logits) {nPrompt : Int} (hpos : 0 < nPrompt)
    (tokens : List Token) (hkv : kv s = kv s') (user : ω) :
    (runPrompt L eng fuel params env cb nPrompt tokens s user).forget =
      (runPrompt L eng fuel params env cb nPrompt tokens s' user).forget := by
  rcases decodePrompt_agree hL eng.nBatch tokens nPrompt fuel 0 [] hkv with
    ⟨hrcs, hended, hctx, hlogits⟩
  unfold runPrompt
  simp only [← hended, ← hrcs]
  cases hend : (decodePrompt L eng.nBatch tokens nPrompt fuel 0 s []).ended with
  | none => rfl
  | some rc =>
      -- the generation is reached only behind a decoded prompt
      by_cases hrc : rc = 0
      · subst hrc
        exact runGeneration_agree eng params env cb hL nPrompt _ ⟨hctx, hlogits hend (.inl hpos)⟩ user
      · simp only [ne_eq, hrc, not_false_eq_true, if_true]
        rfl

/-- What the two calls of `llama_tokenize` promise of a prompt that gets through. -/
theorem Llama.CountsTokens.prompt {count : Bytes → Nat} (htok : L.CountsTokens count)
    {text : Bytes} {cap : Int} (hrequired : (L.tokenize text 0).1 ≠ 0)
    (hcount : 0 ≤ (L.tokenize text cap).1) :
    0 < (L.tokenize text cap).1 ∧ (L.tokenize text cap).1 ≤ cap := by
  have hfirst := htok text 0
  have hsecond := htok text cap
  split at hsecond <;> split at hfirst <;> omega

theorem inferenceComplete_agree (hL : L.ReadsOnly kv logits) {count : Bytes → Nat}
    (htok : L.CountsTokens count) (prompt : Bytes) (s s' : σ) (user : ω) :
    (inferenceComplete L eng fuel params env cb prompt s user).forget =
      (inferenceComplete L eng fuel params env cb prompt s' user).forget := by
  have hkv := hL.clear s s'
  unfold inferenceComplete
  simp only
  split_ifs with hrequired hover halloc hcount hroom
  · rfl
  · rfl
  · rfl
  · rfl
  · rfl
  · have hpos := (htok.prompt hrequired (Int.not_lt.1 hcount)).1
    exact runPrompt_agree eng fuel params env cb hL hpos _ hkv user

theorem inferJob_agree (hL : L.ReadsOnly kv logits) {count : Bytes → Nat}
    (htok : L.CountsTokens count) (job : WorkerJob) (s s' : σ) (user : ω) :
    (inferJob L eng fuel env cb job s user).forget =
      (inferJob L eng fuel env cb job s' user).forget := by
  unfold inferJob
  split
  · unfold inferenceChat
    split
    · rfl
    · exact inferenceComplete_agree eng fuel _ env cb hL htok _ s s' user
  · exact inferenceComplete_agree eng fuel _ env cb hL htok _ s s' user

/-- The job is made from what the engines agree on. -/
theorem JobRun.ofOutcome_agree {o o' : Outcome σ ω} (h : o.forget = o'.forget)
    (job : ω → WorkerJob) (written : ω → List Bytes) :
    (JobRun.ofOutcome (job o.user) (written o.user) o).forget =
      (JobRun.ofOutcome (job o'.user) (written o'.user) o').forget := by
  calc (JobRun.ofOutcome (job o.user) (written o.user) o).forget
      = (JobRun.ofOutcome (job o.forget.user) (written o.forget.user) o.forget).forget := rfl
    _ = (JobRun.ofOutcome (job o'.forget.user) (written o'.forget.user) o'.forget).forget := by
        rw [h]
    _ = (JobRun.ofOutcome (job o'.user) (written o'.user) o').forget := rfl

/-- A run of a job on two engines in any states. -/
theorem runJob_agree (hL : L.ReadsOnly kv logits) {count : Bytes → Nat}
    (htok : L.CountsTokens count) (job : WorkerJob) (s s' : σ) :
    (runJob L eng fuel env job s).forget = (runJob L eng fuel env job s').forget := by
  unfold runJob
  simp only
  split
  · exact JobRun.ofOutcome_agree (inferJob_agree eng fuel env _ hL htok _ s s' [])
      (fun _ => { job with state := .running }) id
  · split
    · rfl
    · exact JobRun.ofOutcome_agree (inferJob_agree eng fuel env _ hL htok _ s s' _)
        (fun buf => { job with state := .running, response := buf }) fun _ => []

/-! ## Surroundings without cancel, shutdown and timeout -/

variable {env₁ env₂ : RunEnv}

theorem abortReason_calm {env : RunEnv} (h : env.Calm params) (i : Nat) :
    abortReason params env i = none := by
  have htime : ¬ (i % 32 = 0 ∧ env.elapsed i > params.maxInferenceSeconds) :=
    fun hlate => Rat.not_lt.2 (h.elapsed i hlate.1) hlate.2
  simp only [abortReason, h.shutdown, h.cancel, if_neg htime, Bool.false_eq_true, if_false]

theorem generate_calm (h₁ : env₁.Calm params) (h₂ : env₂.Calm params) (n i : Nat)
    (g : GenState σ χ ω) : generate L params env₁ cb n i g = generate L params env₂ cb n i g := by
  induction n generalizing i g with
  | zero => rfl
  | succ n ih =>
      have hstep : genStep L params env₁ cb i g = genStep L params env₂ cb i g := by
        unfold genStep
        rw [abortReason_calm params h₁, abortReason_calm params h₂]
      unfold generate
      rw [hstep]
      split
      · rfl
      · exact ih (i + 1) _

theorem inferenceComplete_calm (h₁ : env₁.Calm params) (h₂ : env₂.Calm params)
    (halloc : env₁.allocs = env₂.allocs) (prompt : Bytes) (s : σ) (user : ω) :
    inferenceComplete L eng fuel params env₁ cb prompt s user =
      inferenceComplete L eng fuel params env₂ cb prompt s user := by
  simp only [inferenceComplete, runPrompt, runGeneration, halloc, generate_calm params cb h₁ h₂]

theorem inferJob_calm (job : WorkerJob) (h₁ : env₁.Calm job.params) (h₂ : env₂.Calm job.params)
    (halloc : env₁.allocs = env₂.allocs) (s : σ) (user : ω) :
    inferJob L eng fuel env₁ cb job s user = inferJob L eng fuel env₂ cb job s user := by
  simp only [inferJob, inferenceChat, halloc, inferenceComplete_calm eng fuel _ cb h₁ h₂ halloc]

theorem runJob_calm (job : WorkerJob) (h₁ : env₁.Calm job.params) (h₂ : env₂.Calm job.params)
    (halloc : env₁.allocs = env₂.allocs) (s : σ) :
    runJob L eng fuel env₁ job s = runJob L eng fuel env₂ job s := by
  -- the callbacks see of the surroundings only what a calm run never shows
  have hstream : streamTokenCb env₁ = streamTokenCb env₂ := by
    funext i text written
    simp [streamTokenCb, h₁.callback, h₂.callback]
  have haccum : accumCb env₁ = accumCb env₂ := by
    funext i text buf
    simp [accumCb, h₁.callback, h₂.callback, halloc]
  have hinfer : ∀ {ω : Type} (cb : TokenCallback ω) (state : JobState) (response : AccumBuf)
      (user : ω),
      inferJob L eng fuel env₁ cb { job with state := state, response := response } s user =
        inferJob L eng fuel env₂ cb { job with state := state, response := response } s user :=
    fun cb state response user => inferJob_calm eng fuel cb _ h₁ h₂ halloc s user
  simp only [runJob, halloc, hstream, haccum, hinfer]

/-! ## Every run returns -/

theorem runPrompt_returns {nPrompt : Int} (hbatch : 1 ≤ eng.nBatch) (hpos : 0 < nPrompt)
    (hfuel : nPrompt < fuel) (tokens : List Token) (s : σ) (user : ω) :
    (runPrompt L eng fuel params env cb nPrompt tokens s user).ret ≠ none := by
  have hended := decodePrompt_ended L eng.nBatch tokens nPrompt hbatch fuel 0 s [] (by omega)
    (by omega)
  unfold runPrompt
  simp only
  split
  · next hnone => exact absurd hnone hended
  · split
    · simp [Outcome.fail]
    · unfold runGeneration
      split <;> simp [Outcome.fail]

theorem inferenceComplete_returns {count : Bytes → Nat} (htok : L.CountsTokens count)
    (hbatch : 1 ≤ eng.nBatch) (hfuel : eng.nCtx ≤ fuel) (prompt : Bytes) (s : σ) (user : ω) :
    (inferenceComplete L eng fuel params env cb prompt s user).ret ≠ none := by
  unfold inferenceComplete
  simp only
  split_ifs with hrequired hover halloc hcount hroom
  · simp [Outcome.fail]
  · simp [Outcome.fail]
  · simp [Outcome.fail]
  · simp [Outcome.fail]
  · simp [Outcome.fail]
  -- the prompt has at most `n_ctx` tokens, so the fuel is enough
  · rcases htok.prompt hrequired (Int.not_lt.1 hcount) with ⟨hpos, hbound⟩
    exact runPrompt_returns eng fuel params env cb hbatch hpos (by omega) _ _ user

theorem runJob_returns {count : Bytes → Nat} (htok : L.CountsTokens count)
    (hbatch : 1 ≤ eng.nBatch) (hfuel : eng.nCtx ≤ fuel) (job : WorkerJob) (s : σ) :
    (runJob L eng fuel env job s).rc ≠ none := by
  have hinfer : ∀ {ω : Type} (cb : TokenCallback ω) (job : WorkerJob) (user : ω),
      (inferJob L eng fuel env cb job s user).ret ≠ none := by
    intro ω cb job user
    unfold inferJob
    split
    · unfold inferenceChat
      split
      · simp
      · exact inferenceComplete_returns eng fuel _ env cb htok hbatch hfuel _ s user
    · exact inferenceComplete_returns eng fuel _ env cb htok hbatch hfuel _ s user
  unfold runJob
  simp only
  split
  · exact hinfer _ _ _
  · split
    · simp
    · exact hinfer _ _ _

end Functions

/-- Whatever jobs an engine has run before, the same request gives the same pieces to the callback
and ends with the same record (finish reason, token counts, response and state), provided that no
cancel, shutdown or timeout disturbs it. -/
theorem next_job_same (hL : L.ReadsOnly kv logits) {count : Bytes → Nat}
    (htok : L.CountsTokens count) {eng : Engine} (hbatch : 1 ≤ eng.nBatch) {fuel : Nat}
    (hfuel : eng.nCtx ≤ fuel) {job : WorkerJob} {env₁ env₂ : RunEnv}
    (hcalm₁ : env₁.Calm job.params) (hcalm₂ : env₂.Calm job.params)
    (halloc : env₁.allocs = env₂.allocs) (history₁ history₂ : List (RunEnv × WorkerJob))
    (s₁ s₂ : σ) :
    let r₁ := runJob L eng fuel env₁ job (engineAfter L eng fuel history₁ s₁)
    let r₂ := runJob L eng fuel env₂ job (engineAfter L eng fuel history₂ s₂)
    r₁.rc ≠ none ∧ r₁.rc = r₂.rc ∧ r₁.passed = r₂.passed ∧ r₁.job = r₂.job := by
  intro r₁ r₂
  have hreturns : r₁.rc ≠ none := runJob_returns eng fuel env₁ htok hbatch hfuel job _
  have hsame : r₁.forget = r₂.forget := by
    simp only [r₁, r₂, runJob_calm eng fuel job hcalm₁ hcalm₂ halloc]
    exact runJob_agree eng fuel env₂ hL htok job _ _
  simp only [JobRun.forget, JobRun.mk.injEq] at hsame
  exact ⟨hreturns, hsame.2.2.1, hsame.2.2.2.2.2.1, hsame.1⟩

namespace Sample

/-- Says "hi" after a prompt of one byte; the byte "!" cannot be decoded. -/
def saysHi : Llama Ctx Unit :=
  byteModel (fun seq => if seq.length = 1 then 104 else if seq.length = 2 then 105 else 0)
    fun seq => if 33 ∈ seq then 1 else 0

def jobFor (prompt : Bytes) : WorkerJob :=
  { workerJobInit with
    type := .completion
    compReq := { (default : CompletionRequest) with prompt := CBuf.snprintf prompt }
    params := { (default : SampleParams) with maxTokens := 16 } }

theorem calm_calm : calm.Calm (jobFor (ascii "x")).params :=
  ⟨fun _ => rfl, fun _ => rfl, fun _ _ => Rat.le_refl, fun _ => rfl⟩

/-- After a job that failed, and on a fresh engine. -/
theorem next_job_same_afterFailure :
    (runJob saysHi engine 4096 calm (jobFor (ascii "x"))
        (engineAfter saysHi engine 4096 [(calm, jobFor (ascii "!"))] default)).passed =
      (runJob saysHi engine 4096 calm (jobFor (ascii "x")) default).passed :=
  (next_job_same (byteModel_readsOnly _ _) (byteModel_countsTokens _ _) (by decide) (by decide)
    calm_calm calm_calm rfl [(calm, jobFor (ascii "!"))] [] default default).2.2.1

end Sample

end Professord
