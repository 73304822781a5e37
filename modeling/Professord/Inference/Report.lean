import Professord.Inference.StopCut
import Professord.Worker.FinishReason

/-!
# Report — the token counts and the time limit

`usage` and the `time_limit` of a reply against what the generation loop did: the clock is looked at
in every 32nd iteration only.  Every text sampled is counted, and it is passed on and fed back to the
model unless it completes a stop sequence or the callback refuses it.
-/

namespace Professord

open CText

variable {σ χ ω : Type}

/-- What a run reports, the number of completion tokens and the reason, against the texts that it
has sampled. -/
structure Reported (budget : Nat) (params : SampleParams) (env : RunEnv) (completionTokens : Int)
    (finish : FinishReason) (pieces : List Bytes) : Prop where
  /-- every sampled text is counted -/
  counted : completionTokens = pieces.length
  /-- and there is room for it -/
  capped : pieces.length ≤ budget
  /-- the time limit is reported at a look at the clock, when it is over -/
  timeLimit : finish = .timeLimit →
    32 ∣ pieces.length ∧ params.maxInferenceSeconds < env.elapsed pieces.length
  /-- and each time the clock was looked at before, it was not -/
  inTime : ∀ j < pieces.length, j % 32 = 0 → env.elapsed j ≤ params.maxInferenceSeconds

/-- The callback refuses the last of the texts that it is called with. -/
def TokenCallback.Refuses (cb : TokenCallback ω) (start : ω) (passed : List Bytes) : Prop :=
  ∃ front text, passed = front ++ [text] ∧ (cb front.length text (cb.after 0 start front)).1 ≠ 0

/-- What is passed on is fed to the model, each text with a call of `llama_decode`, but for one that
the callback refuses, which ends the run. -/
structure FedBack (cb : TokenCallback ω) (start : ω) (finish : FinishReason) (passed : List Bytes)
    (rcs : List Int) : Prop where
  fed : ¬ cb.Refuses start passed → rcs.length = passed.length
  refused : cb.Refuses start passed → finish = .abort ∧ rcs.length + 1 = passed.length

/-- An account of every text that a run has sampled. -/
structure Outcome.Truthful (eng : Engine) (params : SampleParams) (env : RunEnv)
    (cb : TokenCallback ω) (start : ω) (o : Outcome σ ω) : Prop where
  counted : Reported (maxGen eng params o.promptTokens).toNat params env o.completionTokens o.finish
    o.pieces
  /-- every one is passed on, but for a text that completes a stop sequence -/
  passed : StopCut params.stop.texts o.finish o.pieces o.passed
  /-- and fed back, but for a text that the callback refuses -/
  fed : FedBack cb start o.finish o.passed o.tokenRcs

/-- The same of a job, whose callback is `stream_token_cb` or `accum_token_cb`. -/
structure JobRun.Truthful (eng : Engine) (env : RunEnv) (r : JobRun σ) : Prop where
  counted : Reported (maxGen eng r.job.params r.job.promptTokens).toNat r.job.params env
    r.job.completionTokens r.job.finishReason r.pieces
  passed : StopCut r.job.params.stop.texts r.job.finishReason r.pieces r.passed
  streamed : r.job.stream = true →
    FedBack (streamTokenCb env) [] r.job.finishReason r.passed r.tokenRcs
  collected : r.job.stream = false →
    FedBack (accumCb env) (accumInit r.job.params.maxTokens env.allocs.response) r.job.finishReason
      r.passed r.tokenRcs

/-! ## The counts -/

/-- Before iteration `i`. -/
structure Made (params : SampleParams) (env : RunEnv) (i : Nat) (g : GenState σ χ ω) : Prop where
  counted : g.nGenerated = i
  pieces : g.pieces.length = i
  inTime : ∀ j < i, j % 32 = 0 → env.elapsed j ≤ params.maxInferenceSeconds

/-- At the end of the loop. -/
abbrev GenState.Reported (budget : Nat) (params : SampleParams) (env : RunEnv)
    (reason : FinishReason) (g : GenState σ χ ω) : Prop :=
  Professord.Reported budget params env g.nGenerated reason g.pieces

section Loop

variable {L : Llama σ χ} {params : SampleParams} {env : RunEnv} {cb : TokenCallback ω}
  {budget i : Nat} {g : GenState σ χ ω}

theorem late_of_abortReason (h : abortReason params env i = some .timeLimit) :
    i % 32 = 0 ∧ params.maxInferenceSeconds < env.elapsed i := by
  unfold abortReason at h
  split_ifs at h with hshutdown hcancel hlate
  · cases h
  · cases h
  · exact hlate

theorem inTime_of_abortReason (h : abortReason params env i = none) (hi : i % 32 = 0) :
    env.elapsed i ≤ params.maxInferenceSeconds := by
  unfold abortReason at h
  split_ifs at h with hshutdown hcancel hlate
  exact not_lt.1 fun hgt => hlate ⟨hi, hgt⟩

theorem Made.start (ctx : σ) (user : ω) : Made params env 0 (genStart L params ctx user) :=
  ⟨rfl, rfl, fun _ h => absurd h (Nat.not_lt_zero _)⟩

/-- Leaving behind what has been sampled. -/
theorem Made.left (h : Made params env i g) (hi : i ≤ budget) {reason : FinishReason}
    (hreason : reason = .timeLimit → i % 32 = 0 ∧ params.maxInferenceSeconds < env.elapsed i) :
    g.Reported budget params env reason where
  counted := by rw [h.counted, h.pieces]
  capped := h.pieces.trans_le hi
  timeLimit htime := by
    rw [h.pieces]
    exact ⟨Nat.dvd_of_mod_eq_zero (hreason htime).1, (hreason htime).2⟩
  inTime := by
    rw [h.pieces]
    exact h.inTime

/-- A text is sampled, whatever becomes of it. -/
theorem Made.sampled (h : Made params env i g)
    (hlook : i % 32 = 0 → env.elapsed i ≤ params.maxInferenceSeconds) (chain : χ)
    (stop : StopList) (piece : Bytes) :
    Made params env (i + 1) (({ g with chain := chain }).record stop piece) where
  counted := by simp [GenState.record, h.counted]
  pieces := by simp [GenState.record, h.pieces]
  inTime j hj := by
    rcases Nat.lt_succ_iff_lt_or_eq.1 hj with hj | rfl
    · exact h.inTime j hj
    · exact hlook

/-- A text that is passed on: the loop goes on with it, or ends with it. -/
theorem Made.passToken (h : Made params env (i + 1) g) (hi : i < budget) (token : Token)
    (piece : Bytes) :
    (∃ g', passToken L cb i token piece g = (none, g') ∧ Made params env (i + 1) g') ∨
    ∃ reason g', passToken L cb i token piece g = (some reason, g') ∧
      g'.Reported budget params env reason := by
  unfold Professord.passToken
  dsimp only
  split_ifs with hcb hrc
  · exact .inr ⟨.abort, _, rfl, h.left hi fun habort => nomatch habort⟩
  · exact .inr ⟨.backendError, _, rfl, h.left hi fun herror => nomatch herror⟩
  · exact .inl ⟨_, rfl, h.counted, h.pieces, h.inTime⟩

theorem Made.genStep (h : Made params env i g) (hi : i < budget) :
    (∃ g', genStep L params env cb i g = (none, g') ∧ Made params env (i + 1) g') ∨
    ∃ reason g', genStep L params env cb i g = (some reason, g') ∧
      g'.Reported budget params env reason := by
  unfold Professord.genStep
  cases habort : abortReason params env i with
  | some reason =>
      have hleft := h.left hi.le fun htime => late_of_abortReason (htime ▸ habort)
      exact .inr ⟨reason, g, rfl, hleft⟩
  | none =>
      have hlook := inTime_of_abortReason habort
      dsimp only
      split_ifs with heos hstop
      · exact .inr ⟨.stop, _, rfl, h.left hi.le fun hreason => nomatch hreason⟩
      · have hsampled := h.sampled hlook (L.sample g.chain g.ctx).2 params.stop
          (pieceText L (L.sample g.chain g.ctx).1)
        exact .inr ⟨.stop, _, rfl, hsampled.left hi fun hreason => nomatch hreason⟩
      · exact (h.sampled hlook _ params.stop _).passToken hi _ _

variable (L cb) in
theorem Made.generate (h : Made params env i g) (n : Nat) (hbudget : budget = i + n) :
    (generate L params env cb n i g).2.Reported budget params env
      (generate L params env cb n i g).1 := by
  induction n generalizing i g with
  | zero => exact h.left (by omega) fun hlength => nomatch hlength
  | succ n ih =>
      unfold generate
      have hi : i < budget := by omega
      rcases Made.genStep h hi with ⟨g', hstep, hmade⟩ | ⟨reason, g', hstep, hcounted⟩
      · rw [hstep]
        exact ih hmade (by omega)
      · rw [hstep]
        exact hcounted

end Loop

section Function

variable (L : Llama σ χ) (eng : Engine) (fuel : Nat) (params : SampleParams) {env : RunEnv}
  (cb : TokenCallback ω)

/-- A run that has sampled nothing. -/
theorem reported_none (budget : Nat) {finish : FinishReason} (hfinish : finish ≠ .timeLimit) :
    Reported budget params env 0 finish [] where
  counted := rfl
  capped := Nat.zero_le budget
  timeLimit h := absurd h hfinish
  inTime _ h := absurd h (Nat.not_lt_zero _)

abbrev Outcome.Reported (eng : Engine) (params : SampleParams) (env : RunEnv) (o : Outcome σ ω) :
    Prop :=
  Professord.Reported (maxGen eng params o.promptTokens).toNat params env o.completionTokens o.finish
    o.pieces

theorem reported_fail (ctx : σ) (user : ω) (n : Int) (rcs : List Int) {reason : FinishReason}
    (hreason : reason ≠ .timeLimit) :
    (Outcome.fail ctx user n rcs reason).Reported eng params env :=
  reported_none params _ hreason

theorem runGeneration_reported (nPrompt : Int) (promptRcs : List Int) (ctx : σ) (user : ω) :
    (runGeneration L eng params env cb nPrompt promptRcs ctx user).Reported eng params env := by
  unfold runGeneration
  split
  · exact reported_fail eng params ctx user nPrompt promptRcs (by decide)
  · have hstart : Made params env 0 (genStart L params ctx user) := .start ctx user
    exact hstart.generate L cb (maxGen eng params nPrompt).toNat (Nat.zero_add _).symm

theorem runPrompt_reported (nPrompt : Int) (tokens : List Token) (ctx : σ) (user : ω) :
    (runPrompt L eng fuel params env cb nPrompt tokens ctx user).Reported eng params env := by
  unfold runPrompt
  dsimp only
  split
  · have hrunning : FinishReason.length ≠ .timeLimit := by decide
    exact reported_none params _ hrunning
  · split
    · refine reported_fail eng params _ user nPrompt _ ?_
      split <;> decide
    · exact runGeneration_reported L eng params cb nPrompt _ _ user

variable (env) in
/-- The ways through `inference_complete`, with the prompt tokens that each reports. -/
theorem inferenceComplete_ways (prompt : Bytes) (ctx : σ) (user : ω) :
    ∃ n,
      (n = 0 ∨
        n = (L.tokenize (cstr prompt) (tokenBufferSize (L.tokenize (cstr prompt) 0).1)).1) ∧
      ((∃ reason, reason ≠ .timeLimit ∧
          inferenceComplete L eng fuel params env cb prompt ctx user =
            .fail (L.memoryClear ctx) user n [] reason) ∨
        ∃ tokens, inferenceComplete L eng fuel params env cb prompt ctx user =
          runPrompt L eng fuel params env cb n tokens (L.memoryClear ctx) user) := by
  unfold inferenceComplete
  dsimp only
  split
  · exact ⟨0, .inl rfl, .inl ⟨.backendError, by decide, rfl⟩⟩
  split
  · exact ⟨0, .inl rfl, .inl ⟨.contextOverflow, by decide, rfl⟩⟩
  split
  · exact ⟨0, .inl rfl, .inl ⟨.backendError, by decide, rfl⟩⟩
  split
  · exact ⟨0, .inl rfl, .inl ⟨.backendError, by decide, rfl⟩⟩
  split
  · exact ⟨_, .inr rfl, .inl ⟨.contextOverflow, by decide, rfl⟩⟩
  · exact ⟨_, .inr rfl, .inr ⟨_, rfl⟩⟩

theorem inferenceComplete_reported (prompt : Bytes) (ctx : σ) (user : ω) :
    (inferenceComplete L eng fuel params env cb prompt ctx user).Reported eng params env := by
  rcases inferenceComplete_ways L eng fuel params env cb prompt ctx user with
    ⟨n, -, ⟨reason, hreason, hfail⟩ | ⟨tokens, hrun⟩⟩
  · rw [hfail]
    exact reported_fail eng params (L.memoryClear ctx) user n [] hreason
  · rw [hrun]
    exact runPrompt_reported L eng fuel params cb n tokens _ user

/-- A chat whose prompt cannot be rendered leaves the count of the job as it is. -/
theorem inferenceChat_reported (messages : List ChatMessage) (promptTokens : Int) (ctx : σ)
    (user : ω) :
    (inferenceChat L eng fuel params env cb messages promptTokens 0 ctx user).Reported eng params
      env := by
  unfold inferenceChat
  split
  · next reason hfailed =>
      have hreason : reason ≠ .timeLimit := by
        rcases renderChat_failed L eng hfailed with rfl | rfl
        · decide
        · decide
      exact reported_none params _ hreason
  · exact inferenceComplete_reported L eng fuel params cb _ ctx user

theorem inferenceChat_withheld (messages : List ChatMessage) (promptTokens completionTokens : Int)
    (ctx : σ) (user : ω) :
    let o := inferenceChat L eng fuel params env cb messages promptTokens completionTokens ctx user
    StopCut params.stop.texts o.finish o.pieces o.passed := by
  unfold inferenceChat
  split
  · exact .none _ _
  · exact inferenceComplete_withheld L eng fuel params env cb _ ctx user

end Function

/-! ## The texts fed back -/

section FedBack

variable {eng : Engine} {params : SampleParams} {env : RunEnv} {cb : TokenCallback ω} {start : ω}

theorem Completed.not_refuses {k : Nat} {passed : List Bytes} {rcs : List Int} {user : ω}
    (h : Completed env cb start k passed rcs user) : ¬ cb.Refuses start passed := by
  rintro ⟨front, text, hpassed, hno⟩
  exact hno (h.accepted front text [] hpassed)

theorem Completed.fedBack {k : Nat} {passed : List Bytes} {rcs : List Int} {user : ω}
    (h : Completed env cb start k passed rcs user) (finish : FinishReason) :
    FedBack cb start finish passed rcs where
  fed _ := h.length_rcs.trans h.count.symm
  refused hno := absurd hno h.not_refuses

theorem LoopEnd.fedBack {n : Nat} {finish : FinishReason} {passed : List Bytes} {rcs : List Int}
    {user : ω} (h : LoopEnd env cb start n finish passed rcs user) :
    FedBack cb start finish passed rcs := by
  cases h with
  | budget h => exact h.fedBack .length
  | flag h => exact h.fedBack .abort
  | other h => exact h.fedBack finish
  | @refused k front _ user text h _ _ hno =>
      have hrefuses : cb.Refuses start (front ++ [text]) :=
        ⟨front, text, rfl, by rw [h.count, ← h.data]; exact hno⟩
      refine ⟨fun hyes => absurd hrefuses hyes, fun _ => ⟨rfl, ?_⟩⟩
      rw [h.length_rcs, List.length_append, h.count, List.length_singleton]
  | @decode k front codes user text rc h hquiet hok _ =>
      -- the text has been accepted and fed back, although `llama_decode` has failed
      refine ⟨fun _ => ?_, fun hno => absurd hno (h.next hquiet hok).not_refuses⟩
      rw [List.length_append, List.length_append, h.length_rcs, h.count]
      rfl

theorem fedBack_nil (finish : FinishReason) : FedBack cb start finish [] [] where
  fed _ := rfl
  refused := fun ⟨front, text, hnil, _⟩ => by simp at hnil

theorem Outcome.Ended.fedBack {o : Outcome σ ω} (h : o.Ended eng params env cb start) :
    FedBack cb start o.finish o.passed o.tokenRcs := by
  cases h with
  | unreached _ _ hpassed hrcs =>
      rw [hpassed, hrcs]
      exact fedBack_nil o.finish
  | loop _ hend => exact hend.fedBack

end FedBack

/-! ## The job -/

section Job

variable (L : Llama σ χ) (eng : Engine) (fuel : Nat) (env : RunEnv)

theorem inferJob_truthful (cb : TokenCallback ω) (job : WorkerJob)
    (hfresh : job.completionTokens = 0) (ctx : σ) (user : ω) :
    (inferJob L eng fuel env cb job ctx user).Truthful eng job.params env cb user := by
  have hfed := (inferJob_ended L eng fuel env cb job ctx user).fedBack
  unfold inferJob at hfed ⊢
  cases htype : job.type with
  | completion =>
      rw [htype] at hfed
      constructor
      · exact inferenceComplete_reported L eng fuel job.params cb _ ctx user
      · exact inferenceComplete_withheld L eng fuel job.params env cb _ ctx user
      · exact hfed
  | chat =>
      rw [htype] at hfed
      constructor
      · dsimp only
        rw [hfresh]
        exact inferenceChat_reported L eng fuel job.params cb _ _ ctx user
      · exact inferenceChat_withheld L eng fuel job.params cb _ _ _ ctx user
      · exact hfed

theorem runJob_truthful {job : WorkerJob} (hfresh : job.completionTokens = 0) (ctx : σ) :
    (runJob L eng fuel env job ctx).Truthful eng env := by
  cases hstream : job.stream with
  | true =>
      have h := inferJob_truthful L eng fuel env (streamTokenCb env)
        { job with state := .running } hfresh ctx []
      rw [runJob_stream L eng fuel env ctx hstream]
      have hplain : ¬ job.stream = false := by simp [hstream]
      exact ⟨h.counted, h.passed, fun _ => h.fed, fun hno => absurd hno hplain⟩
  | false =>
      have hplain : ¬ job.stream = true := by simp [hstream]
      cases hmalloc : env.allocs.response with
      | false =>
          rw [runJob_noBuffer L eng fuel env ctx hstream hmalloc]
          have hreason : FinishReason.backendError ≠ .timeLimit := by decide
          refine ⟨?_, .none _ _, fun hyes => absurd hyes hplain, fun _ => fedBack_nil _⟩
          dsimp only
          rw [hfresh]
          exact reported_none job.params _ hreason
      | true =>
          have h := inferJob_truthful L eng fuel env (accumCb env)
            { job with state := .running, response := accumInit job.params.maxTokens true } hfresh
            ctx (accumInit job.params.maxTokens true)
          rw [runJob_buffer L eng fuel env ctx hstream hmalloc]
          refine ⟨h.counted, h.passed, fun hyes => absurd hyes hplain, fun _ => ?_⟩
          rw [hmalloc]
          exact h.fed

end Job

/-- If the clock has run out before iteration `k`, the next look at it ends the loop. -/
theorem Reported.length_lt {budget : Nat} {params : SampleParams} {env : RunEnv} {n : Int}
    {finish : FinishReason} {pieces : List Bytes} (h : Reported budget params env n finish pieces)
    (hclock : Monotone env.elapsed) {k : Nat}
    (hlate : params.maxInferenceSeconds < env.elapsed k) : pieces.length < k + 32 := by
  by_contra hmany
  -- the first multiple of 32 from `k` on
  have hlook := h.inTime ((k + 31) / 32 * 32) (by omega) (by omega)
  have hlater := hclock (show k ≤ (k + 31) / 32 * 32 by omega)
  exact absurd (hlate.trans_le hlater) (not_lt.2 hlook)

/-- The record of a job tells what inference has done for it: the completion tokens that a reply
states are the texts that were sampled, each of which is passed on unless the text then ends with a
stop sequence, and fed back unless the callback refuses it; and with a clock that does not run
backwards the time limit is kept to within 32 tokens. -/
theorem usage_truthful (L : Llama σ χ) (eng : Engine) (fuel : Nat) (env : RunEnv)
    {job : WorkerJob} (hfresh : job.completionTokens = 0) (ctx : σ) :
    (runJob L eng fuel env job ctx).Truthful eng env ∧
      (Monotone env.elapsed → ∀ k,
        (runJob L eng fuel env job ctx).job.params.maxInferenceSeconds < env.elapsed k →
          (runJob L eng fuel env job ctx).pieces.length < k + 32) := by
  have htruthful := runJob_truthful L eng fuel env hfresh ctx
  exact ⟨htruthful, fun hclock _ hlate => htruthful.counted.length_lt hclock hlate⟩

namespace Sample

def talks : Llama Ctx Unit :=
  byteModel (fun _ => 97) fun _ => 0

/-- One second for every token. -/
def slow : RunEnv :=
  { calm with elapsed := fun i => i }

def hastyJob : WorkerJob :=
  { workerJobInit with
    type := .completion
    compReq := { (default : CompletionRequest) with prompt := CBuf.snprintf (ascii "x") }
    params := { (default : SampleParams) with maxTokens := 300, maxInferenceSeconds := 10 } }

theorem monotone_slow : Monotone slow.elapsed := fun _ _ h => Nat.cast_le.2 h

theorem fresh_hastyJob : hastyJob.completionTokens = 0 := rfl

/-- Ten seconds are over before token 11. -/
theorem usage_truthful_slow :
    (runJob talks engine 4096 slow hastyJob default).job.finishReason = .timeLimit ∧
      (runJob talks engine 4096 slow hastyJob default).pieces.length < 11 + 32 :=
  ⟨by decide +kernel,
    (usage_truthful talks engine 4096 slow fresh_hastyJob default).2 monotone_slow 11 (by decide)⟩

end Sample

end Professord
