import Professord.Config.ValuesTaken
import Professord.Inference.Report
import Professord.Server.Serialize
import Professord.Worker.Isolation

/-!
# ClientText — what a client reads of what the model has said

From the texts sampled for a job, through the callback and the job record, to the body of the reply
or the tokens taken out of the ring.  Both ways cut a text: `accum_token_cb` at a NUL, and a slot of
the ring at 127 bytes as well.
-/

namespace Professord

open CText JsonText

variable {σ χ ω : Type}

/-! ## What a callback keeps -/

/-- The callback keeps the texts that it accepts; `Holds` tells how. -/
structure Collects (cb : TokenCallback ω) (Holds : List Bytes → ω → Prop) : Prop where
  accepts : ∀ i text {texts user}, Holds texts user → (cb i text user).1 = 0 →
    Holds (texts ++ [text]) (cb i text user).2
  refuses : ∀ i text {texts user}, Holds texts user → (cb i text user).1 ≠ 0 →
    Holds texts (cb i text user).2

theorem collects_stream (env : RunEnv) :
    Collects (streamTokenCb env) fun texts written => written = texts where
  accepts i text texts written h hok := by
    cases hflag : env.cbCancelled i with
    | true => simp [streamTokenCb, hflag] at hok
    | false => simp [streamTokenCb, hflag, h]
  refuses i text texts written h hno := by
    cases hflag : env.cbCancelled i with
    | true => simpa [streamTokenCb, hflag] using h
    | false => simp [streamTokenCb, hflag] at hno

/-- The text that a list of token texts makes in the response buffer, each up to its NUL. -/
def joined (texts : List Bytes) : Bytes :=
  (texts.map cstr).flatten

theorem collects_accum (env : RunEnv) :
    Collects (accumCb env) fun texts b => b.Holds (joined texts) where
  accepts i text texts b h hok := by
    rcases h.call text (env.cbCancelled i) false (env.allocs.growth i) with
      ⟨-, hcb⟩ | ⟨-, b', hcb, hb'⟩
    · rw [accumCb, hcb] at hok
      exact absurd (show (-1 : Int) = 0 from hok) (by decide)
    · rw [accumCb, hcb]
      simpa [joined] using hb'
  refuses i text texts b h hno := by
    rcases h.call text (env.cbCancelled i) false (env.allocs.growth i) with
      ⟨-, hcb⟩ | ⟨-, b', hcb, -⟩
    · rw [accumCb, hcb]
      exact h
    · rw [accumCb, hcb] at hno
      exact absurd rfl hno

/-- All texts passed on have been accepted, but for one that ends an aborted run. -/
def Accepted (finish : FinishReason) (passed accepted : List Bytes) : Prop :=
  passed = accepted ∨ finish = .abort ∧ ∃ last, passed = accepted ++ [last]

section Collects

variable {eng : Engine} {params : SampleParams} {env : RunEnv} {cb : TokenCallback ω}
  {Holds : List Bytes → ω → Prop} {start : ω}

theorem Completed.holds {k : Nat} {passed : List Bytes} {rcs : List Int} {user : ω}
    (h : Completed env cb start k passed rcs user) (hcb : Collects cb Holds)
    (hstart : Holds [] start) : Holds passed user := by
  have hfront : ∀ front back, passed = front ++ back → Holds front (cb.after 0 start front) := by
    intro front
    induction front using List.reverseRecOn with
    | nil => exact fun _ _ => hstart
    | append_singleton front text ih =>
        intro back hpassed
        rw [List.append_assoc] at hpassed
        rw [TokenCallback.after_append, Nat.zero_add]
        exact hcb.accepts front.length text (ih _ hpassed) (h.accepted front text back hpassed)
  rw [h.data]
  exact hfront passed [] (List.append_nil passed).symm

theorem LoopEnd.holds {n : Nat} {finish : FinishReason} {passed : List Bytes} {rcs : List Int}
    {user : ω} (h : LoopEnd env cb start n finish passed rcs user) (hcb : Collects cb Holds)
    (hstart : Holds [] start) :
    ∃ accepted, Holds accepted user ∧ Accepted finish passed accepted := by
  cases h with
  | budget h => exact ⟨_, h.holds hcb hstart, .inl rfl⟩
  | flag h => exact ⟨_, h.holds hcb hstart, .inl rfl⟩
  | other h => exact ⟨_, h.holds hcb hstart, .inl rfl⟩
  | refused h _ _ hno =>
      exact ⟨_, hcb.refuses _ _ (h.holds hcb hstart) hno, .inr ⟨rfl, _, rfl⟩⟩
  | decode h _ hok _ => exact ⟨_, hcb.accepts _ _ (h.holds hcb hstart) hok, .inl rfl⟩

/-- When inference has returned 0, the data of the callback holds the texts accepted. -/
theorem Outcome.Ended.holds {o : Outcome σ ω} (h : o.Ended eng params env cb start)
    (hret : o.ret = some 0) (hcb : Collects cb Holds) (hstart : Holds [] start) :
    ∃ accepted, Holds accepted o.user ∧ Accepted o.finish o.passed accepted := by
  cases h with
  | unreached hne => exact absurd hret hne
  | loop _ hend => exact hend.holds hcb hstart

end Collects

/-! ## The reply -/

/-- What a client is to read: the text, and how many tokens were sampled. -/
def generationView (created : Int) (job : WorkerJob) (text : Bytes) (sampled : Nat) : BodyView :=
  let usage : Usage := ⟨job.promptTokens, sampled, wrap32 (job.promptTokens + sampled)⟩
  match job.type with
  | .chat =>
      .chat created job.requestId.text job.modelId.text text (ascii job.finishReason.text) usage
  | .completion =>
      .completion created job.requestId.text job.modelId.text text (ascii job.finishReason.text)
        usage

/-- The client of a run gets the texts: one by one through the ring, each as its slot holds it, or
joined in the body of a reply. -/
structure ReadsGeneration (printUnformatted : Json → Bytes) (created : Int) (r : JobRun σ)
    (texts : List Bytes) : Prop where
  /-- they are those passed to the callback, but for one that ends an aborted run -/
  accepted : Accepted r.job.finishReason r.passed texts
  /-- and so those sampled, but for one that completes a stop sequence -/
  passed : StopCut r.job.params.stop.texts r.job.finishReason r.pieces r.passed
  /-- whatever the schedule of the drains -/
  stream : r.job.stream = true → ∀ {ops ring taken}, written ops = r.written →
    ringRun TokenRing.init ops = some (ring, taken) → ring.isEmpty = true →
      taken = texts.map fun text => (slotText text).text
  reply : r.job.stream = false →
    (finalReply r.job r.job.state).status = 200 ∧
      ∃ v, bodyToJson created (finalReply r.job r.job.state).body = some v ∧
        readBody (printUnformatted v) =
          some (generationView created r.job (joined texts) r.pieces.length)

section Reply

variable {printUnformatted : Json → Bytes} {created : Int}

/-- The final reply of a job that is done. -/
theorem readBody_finalReply (hprint : PrintsJson printUnformatted) (hcreated : |created| < 10 ^ 15)
    {job : WorkerJob} {sampled : Nat} (hstate : job.state = .done)
    (hprompt : InInt32 job.promptTokens) (hcount : job.completionTokens = sampled)
    (hsampled : InInt32 sampled) :
    (finalReply job job.state).status = 200 ∧
      ∃ v, bodyToJson created (finalReply job job.state).body = some v ∧
        readBody (printUnformatted v) =
          some (generationView created job (replyContent job).text sampled) := by
  have husage : replyUsage job =
      ⟨job.promptTokens, sampled, wrap32 (job.promptTokens + sampled)⟩ := by
    rw [replyUsage, hcount]
  have hfits : (replyUsage job).Fits := by
    rw [husage]
    exact ⟨hprompt, hsampled, ScalarOption.inInt32_wrap32 _⟩
  rw [hstate]
  cases htype : job.type with
  | chat =>
      let resp : ChatResponse :=
        ⟨job.requestId, job.modelId, replyContent job, job.finishReason, replyUsage job⟩
      have hreply : finalReply job .done = ⟨200, .chat resp⟩ := by simp [finalReply, htype, resp]
      rw [hreply]
      refine ⟨rfl, _, rfl, ?_⟩
      rw [readBody_print hprint hcreated (b := .chat resp) hfits rfl]
      simp [bodyView, generationView, htype, husage, resp]
  | completion =>
      let resp : CompletionResponse :=
        ⟨job.requestId, job.modelId, replyContent job, job.finishReason, replyUsage job⟩
      have hreply : finalReply job .done = ⟨200, .completion resp⟩ := by
        simp [finalReply, htype, resp]
      rw [hreply]
      refine ⟨rfl, _, rfl, ?_⟩
      rw [readBody_print hprint hcreated (b := .completion resp) hfits rfl]
      simp [bodyView, generationView, htype, husage, resp]

end Reply

/-! ## The counts -/

/-- `llama_tokenize` returns an `int32_t`. -/
def Llama.CountsInInt32 (L : Llama σ χ) : Prop :=
  ∀ text cap, InInt32 cap → InInt32 (L.tokenize text cap).1

section Counts

variable {L : Llama σ χ} {eng : Engine} {fuel : Nat} {params : SampleParams} {env : RunEnv}
  {cb : TokenCallback ω}

theorem inInt32_zero : InInt32 0 :=
  ⟨by decide, by decide⟩

theorem inInt32_maxGen (hmax : InInt32 params.maxTokens) (nPrompt : Int) :
    InInt32 (maxGen eng params nPrompt) := by
  unfold maxGen
  split_ifs
  · exact ScalarOption.inInt32_wrap32 _
  · exact hmax

theorem inInt32_tokenBufferSize {n : Int} (h : InInt32 n) : InInt32 (tokenBufferSize n) := by
  unfold tokenBufferSize
  split_ifs
  · exact ScalarOption.inInt32_wrap32 _
  · exact h

theorem runPrompt_promptTokens (nPrompt : Int) (tokens : List Token) (ctx : σ) (user : ω) :
    (runPrompt L eng fuel params env cb nPrompt tokens ctx user).promptTokens = nPrompt := by
  unfold runPrompt runGeneration
  dsimp only
  split
  · rfl
  · split
    · rfl
    · split
      · rfl
      · rfl

theorem inInt32_promptTokens (htok : L.CountsInInt32) (prompt : Bytes) (ctx : σ) (user : ω) :
    InInt32 (inferenceComplete L eng fuel params env cb prompt ctx user).promptTokens := by
  have hcap := inInt32_tokenBufferSize (htok (cstr prompt) 0 inInt32_zero)
  rcases inferenceComplete_ways L eng fuel params env cb prompt ctx user with
    ⟨n, hn, hway⟩
  have hint : InInt32 n := by
    rcases hn with rfl | rfl
    · exact inInt32_zero
    · exact htok _ _ hcap
  rcases hway with ⟨reason, -, hfail⟩ | ⟨tokens, hrun⟩
  · rw [hfail]
    exact hint
  · rw [hrun, runPrompt_promptTokens]
    exact hint

theorem inferJob_promptTokens (htok : L.CountsInInt32) (job : WorkerJob) (ctx : σ) (user : ω)
    (hok : (inferJob L eng fuel env cb job ctx user).ret = some 0) :
    InInt32 (inferJob L eng fuel env cb job ctx user).promptTokens := by
  unfold inferJob at hok ⊢
  cases htype : job.type with
  | completion => exact inInt32_promptTokens htok _ ctx user
  | chat =>
      rw [htype] at hok
      dsimp only at hok ⊢
      unfold inferenceChat at hok ⊢
      split at hok
      · exact absurd (Option.some.inj hok) (by decide)
      · exact inInt32_promptTokens htok _ ctx user

end Counts

/-! ## The run -/

section Run

variable {printUnformatted : Json → Bytes} {created : Int} {L : Llama σ χ} {eng : Engine}
  {fuel : Nat} {env : RunEnv} {job : WorkerJob} {ctx : σ}

/-- In a stream the texts are put into the ring, and taken out of it. -/
theorem readsGeneration_stream (hstream : job.stream = true) (hfresh : job.completionTokens = 0)
    (hok : (runJob L eng fuel env job ctx).rc = some 0) :
    ∃ texts, ReadsGeneration printUnformatted created (runJob L eng fuel env job ctx) texts := by
  have hpassed := (runJob_truthful L eng fuel env hfresh ctx).passed
  have hrun := runJob_stream L eng fuel env ctx hstream
  dsimp only at hrun
  rw [hrun] at hok hpassed ⊢
  rcases (inferJob_ended L eng fuel env (streamTokenCb env) { job with state := .running } ctx
    []).holds hok (collects_stream env) rfl with ⟨texts, hwritten, haccepted⟩
  have hplain : ¬ job.stream = false := by simp [hstream]
  refine ⟨texts, haccepted, hpassed, fun _ ops ring taken hops hring hempty => ?_,
    fun h => absurd h hplain⟩
  rw [taken_of_ringRun hring hempty, hops]
  exact congrArg (List.map fun text => (slotText text).text) hwritten

/-- The reply for what inference has left in the record and the response buffer. -/
theorem readsGeneration_ofOutcome (hprint : PrintsJson printUnformatted)
    (hcreated : |created| < 10 ^ 15) (start : WorkerJob) (hplain : start.stream = false)
    (hmax : InInt32 start.params.maxTokens) {o : Outcome σ AccumBuf} (hret : o.ret = some 0)
    (hprompt : InInt32 o.promptTokens)
    (htruthful : (JobRun.ofOutcome { start with response := o.user } [] o).Truthful eng env)
    {texts : List Bytes} (hbuffer : o.user.Holds (joined texts))
    (haccepted : Accepted o.finish o.passed texts) :
    ReadsGeneration printUnformatted created
      (JobRun.ofOutcome { start with response := o.user } [] o) texts where
  accepted := haccepted
  passed := htruthful.passed
  stream hstream := absurd hstream (by simp [JobRun.ofOutcome, hplain])
  reply _ := by
    have hstate : (JobRun.ofOutcome { start with response := o.user } [] o).job.state = .done := by
      simp [JobRun.ofOutcome, hret, JobState.ofRc]
    have hsampled : InInt32 o.pieces.length := by
      have hcapped : o.pieces.length ≤ (maxGen eng start.params o.promptTokens).toNat :=
        htruthful.counted.capped
      have hbudget : InInt32 (maxGen eng start.params o.promptTokens) := inInt32_maxGen hmax _
      unfold InInt32 at hbudget ⊢
      omega
    have hcontent :
        (replyContent (JobRun.ofOutcome { start with response := o.user } [] o).job).text =
          joined texts := replyContent_holds hbuffer rfl
    rw [← hcontent]
    exact readBody_finalReply hprint hcreated hstate hprompt htruthful.counted.counted hsampled

/-- Without a stream they are in the response buffer, and from there in the body. -/
theorem readsGeneration_reply (hprint : PrintsJson printUnformatted)
    (hcreated : |created| < 10 ^ 15) (htok : L.CountsInInt32)
    (hmax : InInt32 job.params.maxTokens) (hplain : job.stream = false)
    (hfresh : job.completionTokens = 0) (hok : (runJob L eng fuel env job ctx).rc = some 0) :
    ∃ texts, ReadsGeneration printUnformatted created (runJob L eng fuel env job ctx) texts := by
  have htruthful := runJob_truthful L eng fuel env hfresh ctx
  cases hmalloc : env.allocs.response with
  | false =>
      rw [runJob_noBuffer L eng fuel env ctx hplain hmalloc] at hok
      exact absurd (Option.some.inj hok) (by decide)
  | true =>
      have hrun := runJob_buffer L eng fuel env ctx hplain hmalloc
      dsimp only at hrun
      rw [hrun] at hok htruthful ⊢
      rcases (inferJob_ended L eng fuel env (accumCb env)
        { job with state := .running, response := accumInit job.params.maxTokens true } ctx
        (accumInit job.params.maxTokens true)).holds hok (collects_accum env)
        (AccumBuf.Holds.init job.params.maxTokens) with ⟨texts, hbuffer, haccepted⟩
      have hprompt := inferJob_promptTokens htok
        { job with state := .running, response := accumInit job.params.maxTokens true } ctx
        (accumInit job.params.maxTokens true) hok
      exact ⟨texts, readsGeneration_ofOutcome hprint hcreated
        { job with state := .running, response := accumInit job.params.maxTokens true }
        hplain hmax hok hprompt htruthful hbuffer haccepted⟩

end Run

/-- What a client reads is what the model has said: for a job that is done, the texts sampled, but
for one that completes a stop sequence and one that ends an aborted run, are what its client gets,
cut to a slot each as tokens of the stream, or joined up to a NUL each in the body of a reply, which
also states how many there were. -/
theorem client_reads_generation {printUnformatted : Json → Bytes}
    (hprint : PrintsJson printUnformatted) {created : Int} (hcreated : |created| < 10 ^ 15)
    {L : Llama σ χ} (htok : L.CountsInInt32) (eng : Engine) (fuel : Nat) (env : RunEnv)
    {job : WorkerJob} (hmax : InInt32 job.params.maxTokens) (hfresh : job.completionTokens = 0)
    (ctx : σ) (hok : (runJob L eng fuel env job ctx).rc = some 0) :
    ∃ texts, ReadsGeneration printUnformatted created (runJob L eng fuel env job ctx) texts := by
  cases hstream : job.stream with
  | true => exact readsGeneration_stream hstream hfresh hok
  | false => exact readsGeneration_reply hprint hcreated htok hmax hstream hfresh hok

namespace Sample

theorem saysHi_countsInInt32 : saysHi.CountsInInt32 := by
  intro text cap hcap
  have hlength : (0 : Int) ≤ text.length := Int.natCast_nonneg _
  unfold InInt32 at hcap ⊢
  simp only [saysHi, byteModel]
  split_ifs
  · dsimp only
    omega
  · dsimp only
    omega
  · decide

theorem saysHi_done :
    (runJob saysHi engine 4096 calm (jobFor (ascii "x")) default).rc = some 0 := by
  decide +kernel

/-- The client of `saysHi` reads "hi". -/
theorem client_reads_generation_saysHi :
    ∃ texts,
      ReadsGeneration printCompact 1700000000
        (runJob saysHi engine 4096 calm (jobFor (ascii "x")) default) texts ∧
      joined texts = ascii "hi" := by
  obtain ⟨texts, hreads⟩ := client_reads_generation (printsJson_print fun _ => ascii "null")
    (by decide : |(1700000000 : Int)| < 10 ^ 15) saysHi_countsInInt32 engine 4096 calm
    (show InInt32 (jobFor (ascii "x")).params.maxTokens from ⟨by decide, by decide⟩) rfl default
    saysHi_done
  refine ⟨texts, hreads, ?_⟩
  have hpassed : (runJob saysHi engine 4096 calm (jobFor (ascii "x")) default).passed =
      [ascii "h", ascii "i"] := by decide +kernel
  rcases hreads.accepted with hall | ⟨habort, -⟩
  · rw [← hall, hpassed]
    decide
  · exact absurd habort (by decide +kernel)

end Sample

end Professord
