import Professord.Lib.ResourceTrace
import Professord.Logger
import Professord.Worker.Isolation

/-!
# Resources — what a job takes, uses and gives back

The functions of `inference.c` and the worker thread once more, as the list of what they do with
blocks of memory, the sampler chain, the model, its context, the worker's mutex, the logger and the
manager of the event loop.  Every branch is taken where the model of the function's results takes it.
The manager is used by `mg_wakeup` whether it is still there or not, and is not accounted for.
-/

namespace Professord

open CText ResourceEvent

inductive Resource
  | logFile
  | logMutex
  | syslog
  | backend
  | model
  | context
  | workerMutex
  | workerCond
  | workerThread
  | manager
  | chatMsgs
  | formatted
  | tokens
  | chain
  deriving DecidableEq, Repr

abbrev Trace : Type :=
  List (ResourceEvent Resource)

/-- The number of a level, see `LogLevel.ofCode`. -/
def LogLevel.code : LogLevel → Nat
  | .trace => 0
  | .debug => 1
  | .info => 2
  | .warn => 3
  | .error => 4
  | .fatal => 5

/-- The sinks of a line that is not filtered out. -/
def Logger.sinks (lg : Logger) : Trace :=
  [.use .logMutex] ++ (if lg.useSyslog then [.use .syslog] else []) ++
    (if lg.logFile then [.use .logFile] else []) ++ [.use .logMutex]

/-- `LOG_INFO` and its like -/
def Logger.trace (lg : Logger) (level : LogLevel) : Trace :=
  if level.code < lg.level then [] else lg.sinks

variable {σ χ ω : Type}

/-! ## `inference_complete` -/

section Complete

variable (lg : Logger) (L : Llama σ χ) (eng : Engine) (fuel : Nat) (params : SampleParams)
  (env : RunEnv) (cb : TokenCallback ω) (cbTrace : Nat → Trace)

/-- The prompt loop, see `decodePrompt`. -/
def promptLoopTrace (tokens : List Token) (nPrompt : Int) : Nat → Int → σ → Trace
  | 0, _, _ => []
  | fuel + 1, nProcessed, ctx =>
      if nProcessed < nPrompt then
        let chunk := promptChunk eng.nBatch nPrompt nProcessed
        let r := L.decode ctx ((tokens.drop nProcessed.toNat).take chunk.toNat)
        [.use .tokens, .use .context] ++
          if r.1 ≠ 0 then lg.trace .error
          else promptLoopTrace tokens nPrompt fuel (nProcessed + chunk) r.2
      else
        []

/-- An iteration of the generation loop, see `genStep`; `cbTrace i` is what the callback does once it
has taken the text. -/
def genStepTrace (i : Nat) (g : GenState σ χ ω) : Trace :=
  match abortReason params env i with
  | some _ => []
  | none =>
      let t := L.sample g.chain g.ctx
      let g := { g with chain := L.accept t.2 t.1 }
      -- `llama_sampler_sample` and `llama_sampler_accept`
      [.use .chain, .use .context, .use .chain] ++
        if t.1 = L.eos then
          []
        else
          let piece := pieceText L t.1
          let g := g.record params.stop piece
          -- `llama_token_to_piece`
          [.use .model] ++
            if params.stop.entries.length > 0 ∧ stopMatches params.stop g.window then
              []
            else if (cb i piece g.user).1 ≠ 0 then
              []
            else
              cbTrace i ++ [.use .context] ++
                if (L.decode g.ctx [t.1]).1 ≠ 0 then lg.trace .error else []

def generateTrace : Nat → Nat → GenState σ χ ω → Trace
  | 0, _, _ => []
  | n + 1, i, g =>
      genStepTrace lg L params env cb cbTrace i g ++
        match genStep L params env cb i g with
        | (some _, _) => []
        | (none, g') => generateTrace n (i + 1) g'

/-- From the sampler chain to the end, see `runGeneration`. -/
def generationTrace (nPrompt : Int) (ctx : σ) (user : ω) : Trace :=
  if !env.allocs.chain then
    []
  else
    .acquire .chain ::
      (((samplers params).flatMap fun _ => [.use .chain]) ++ [.use .model] ++
        generateTrace lg L params env cb cbTrace (maxGen eng params nPrompt).toNat 0
          (genStart L params ctx user) ++
        [.use .context] ++ lg.trace .info ++ [.use .context] ++ [.release .chain])

/-- From the prompt loop to the end, see `runPrompt`. -/
def promptTrace (nPrompt : Int) (tokens : List Token) (ctx : σ) (user : ω) : Trace :=
  let p := decodePrompt L eng.nBatch tokens nPrompt fuel 0 ctx []
  promptLoopTrace lg L eng tokens nPrompt fuel 0 ctx ++
    match p.ended with
    | none => []
    | some rc =>
        .release .tokens ::
          if rc ≠ 0 then [] else generationTrace lg L eng params env cb cbTrace nPrompt p.ctx user

/-- `inference_complete`; `readPrompt` is a look at the prompt. -/
def inferenceCompleteTrace (readPrompt : Trace) (prompt : Bytes) (ctx : σ) (user : ω) : Trace :=
  let ctx := L.memoryClear ctx
  let nRequired := (L.tokenize (cstr prompt) 0).1
  [.use .context] ++ readPrompt ++ [.use .model] ++ readPrompt ++
    if nRequired = 0 then
      lg.trace .error
    else
      let nTokens := tokenBufferSize nRequired
      if nTokens ≥ eng.nCtx then
        lg.trace .warn
      else if !env.allocs.tokens then
        []
      else
        let t := L.tokenize (cstr prompt) nTokens
        .acquire .tokens :: ([.use .model] ++ readPrompt ++ [.use .tokens] ++
          if t.1 < 0 then
            lg.trace .error ++ [.release .tokens]
          else if maxGen eng params t.1 ≤ 0 then
            [.release .tokens]
          else
            promptTrace lg L eng fuel params env cb cbTrace t.1 t.2 ctx user)

/-! ## `inference_chat` -/

/-- From `build_chatml_prompt` on, with the check of the size or without. -/
def chatmlTrace (checked : Bool) (messages : List ChatMessage) (ctx : σ) (user : ω) : Trace :=
  if !env.allocs.chatml then
    []
  else
    let text := chatmlText messages
    let flen := wrap32 text.length
    .acquire .formatted :: ([.use .formatted] ++
      (if flen = 0 then
        []
      else if checked ∧ flen > profMaxPromptBytes then
        lg.trace .warn
      else
        inferenceCompleteTrace lg L eng fuel params env cb cbTrace [.use .formatted] text ctx user) ++
      [.release .formatted])

def inferenceChatTrace (messages : List ChatMessage) (ctx : σ) (user : ω) : Trace :=
  if eng.useChatmlFallback then
    chatmlTrace lg L eng fuel params env cb cbTrace true messages ctx user
  else if !env.allocs.messages then
    []
  else
    let chatMsgs := messages.map fun m => (m.role.text, m.content.text)
    let needed := (L.applyTemplate chatMsgs 0).1
    -- the fields are set, and llama.cpp reads them
    .acquire .chatMsgs :: .use .chatMsgs :: .use .chatMsgs ::
      if needed ≤ 0 then
        lg.trace .warn ++ .release .chatMsgs ::
          chatmlTrace lg L eng fuel params env cb cbTrace false messages ctx user
      else if needed > profMaxPromptBytes then
        lg.trace .warn ++ [.release .chatMsgs]
      else if !env.allocs.formatted then
        [.release .chatMsgs]
      else
        let actual := L.applyTemplate chatMsgs (needed + 1)
        .acquire .formatted :: .use .chatMsgs :: .use .formatted :: .release .chatMsgs ::
          if actual.1 ≤ 0 ∨ actual.1 > needed then
            lg.trace .error ++ [.release .formatted]
          else
            .use .formatted ::
              (inferenceCompleteTrace lg L eng fuel params env cb cbTrace [.use .formatted]
                (actual.2.take actual.1.toNat) ctx user ++ [.release .formatted])

end Complete

/-! ## The worker thread -/

section Worker

variable (lg : Logger) (L : Llama σ χ) (eng : Engine) (fuel : Nat)

/-- See `inferJob`. -/
def inferJobTrace (env : RunEnv) (cb : TokenCallback ω) (cbTrace : Nat → Trace) (job : WorkerJob)
    (ctx : σ) (user : ω) : Trace :=
  match job.type with
  | .chat =>
      inferenceChatTrace lg L eng fuel job.params env cb cbTrace (job.chatReq.messages.getD []) ctx user
  | .completion =>
      inferenceCompleteTrace lg L eng fuel job.params env cb cbTrace [] job.compReq.prompt.text ctx user

/-- `mg_wakeup`, if it is called. -/
def wakeupTrace (wakes : Bool) : Trace :=
  if wakes then [.use .manager] else []

/-- See `runJob`; the response buffer and the ring belong to the job.  `wakes i` says whether
`stream_token_cb` wakes the event loop in step `i`. -/
def runJobTrace (wakes : Nat → Bool) (env : RunEnv) (job : WorkerJob) (ctx : σ) : Trace :=
  let job := { job with state := .running }
  if job.stream then
    inferJobTrace lg L eng fuel env (streamTokenCb env) (fun i => wakeupTrace (wakes i)) job ctx []
  else
    let response := accumInit job.params.maxTokens env.allocs.response
    let job := { job with response := response }
    match response.buf with
    | none => []
    | some _ => inferJobTrace lg L eng fuel env (accumCb env) (fun _ => []) job ctx response

/-- A job of the worker thread: how often it had to wait for it, when it wakes the event loop, and
whether the client has gone when it ends. -/
structure WorkerRun where
  waits : Nat
  env : RunEnv
  job : WorkerJob
  wakes : Nat → Bool
  orphaned : Bool
  /-- `job->mgr` is set at the end -/
  mgr : Bool

/-- The wait for a job, under the mutex. -/
def awaitTrace (waits : Nat) : Trace :=
  [.use .workerMutex] ++ List.flatten (List.replicate waits [.use .workerCond, .use .workerMutex]) ++
    [.use .workerMutex]

/-- An iteration of `worker_thread_func` -/
def WorkerRun.trace (run : WorkerRun) (ctx : σ) : Trace :=
  let r := runJob L eng fuel run.env run.job ctx
  awaitTrace run.waits ++ runJobTrace lg L eng fuel run.wakes run.env run.job ctx ++
    (if r.rc = some 0 ∧ ascii "doomsday" <:+: run.job.modelId.text then lg.trace .info else []) ++
    lg.trace .info ++ [.use .workerMutex, .use .workerMutex] ++
    (if run.orphaned then lg.trace .info else wakeupTrace run.mgr)

/-- `worker_thread_func`, which leaves its loop after some waits more. -/
def workerTrace (lastWaits : Nat) : List WorkerRun → σ → Trace
  | [], _ => awaitTrace lastWaits
  | run :: runs, ctx =>
      run.trace lg L eng fuel ctx ++
        workerTrace lastWaits runs (runJob L eng fuel run.env run.job ctx).ctx

end Worker

/-! ## Everything is given back -/

/-- What belongs to the worker thread, and what it shares with the main thread. -/
def workerClaims : Claims Resource where
  own := {.chatMsgs, .formatted, .tokens, .chain}
  shared := {.logFile, .logMutex, .syslog, .model, .context, .workerMutex, .workerCond}
  ignored := {.manager}

/-- The logger can be used. -/
structure Logger.Open (lg : Logger) (S : Finset Resource) : Prop where
  mutex : .logMutex ∈ S
  syslog : lg.useSyslog = true → .syslog ∈ S
  file : lg.logFile = true → .logFile ∈ S

/-- What has to be there for inference. -/
structure Ready (lg : Logger) (S : Finset Resource) : Prop extends lg.Open S where
  model : .model ∈ S
  context : .context ∈ S

variable {lg : Logger} {S : Finset Resource}

theorem Logger.Open.insert (h : lg.Open S) (r : Resource) : lg.Open (insert r S) where
  mutex := Finset.mem_insert_of_mem h.mutex
  syslog hon := Finset.mem_insert_of_mem (h.syslog hon)
  file hon := Finset.mem_insert_of_mem (h.file hon)

theorem Ready.insert (h : Ready lg S) (r : Resource) : Ready lg (insert r S) where
  toOpen := h.toOpen.insert r
  model := Finset.mem_insert_of_mem h.model
  context := Finset.mem_insert_of_mem h.context

/-- Logging holds what it held. -/
theorem Logger.traces_sinks {F : Claims Resource}
    (hF : {.logFile, .logMutex, .syslog} ⊆ F.own ∪ F.shared) (h : lg.Open S) :
    Traces F S lg.sinks S := by
  have hclaim : ∀ r ∈ ({.logFile, .logMutex, .syslog} : Finset Resource),
      r ∈ F.own ∨ r ∈ F.shared := fun r hr => Finset.mem_union.1 (hF hr)
  have hmutex : Traces F S [.use .logMutex] S := .use (hclaim _ (by decide)) h.mutex
  have hsyslog : Traces F S (if lg.useSyslog then [.use .syslog] else []) S :=
    .ite (fun hon => .use (hclaim _ (by decide)) (h.syslog hon)) fun _ => .nil F S
  have hfile : Traces F S (if lg.logFile then [.use .logFile] else []) S :=
    .ite (fun hon => .use (hclaim _ (by decide)) (h.file hon)) fun _ => .nil F S
  exact ((hmutex.append hsyslog).append hfile).append hmutex

theorem Logger.traces_trace {F : Claims Resource}
    (hF : {.logFile, .logMutex, .syslog} ⊆ F.own ∪ F.shared) (h : lg.Open S) (level : LogLevel) :
    Traces F S (lg.trace level) S :=
  .ite (fun _ => .nil F S) fun _ => lg.traces_sinks hF h

section Job

variable {L : Llama σ χ} {eng : Engine} {fuel : Nat} {params : SampleParams} {env : RunEnv}
  {cb : TokenCallback ω} {cbTrace : Nat → Trace}

/-- A line of the worker's for the log. -/
theorem Ready.log (h : Ready lg S) (level : LogLevel) :
    Traces workerClaims S (lg.trace level) S :=
  lg.traces_trace (by decide) h.toOpen level

theorem Ready.useModel (h : Ready lg S) : Traces workerClaims S [.use .model] S :=
  .use (by decide) h.model

theorem Ready.useContext (h : Ready lg S) : Traces workerClaims S [.use .context] S :=
  .use (by decide) h.context

theorem traces_promptLoop (h : Ready lg S) (htokens : .tokens ∈ S) (tokens : List Token)
    (nPrompt : Int) (fuel : Nat) (n : Int) (ctx : σ) :
    Traces workerClaims S (promptLoopTrace lg L eng tokens nPrompt fuel n ctx) S := by
  induction fuel generalizing n ctx with
  | zero => exact .nil _ S
  | succ fuel ih =>
      refine .ite (fun _ => ?_) fun _ => .nil _ S
      refine .append (.cons_use (by decide) htokens h.useContext) ?_
      exact .ite (fun _ => h.log .error) fun _ => ih _ _

/-- A callback that only wakes the event loop. -/
def Wakes (cbTrace : Nat → Trace) : Prop :=
  ∀ i S, Traces workerClaims S (cbTrace i) S

theorem traces_wakeup (wakes : Bool) (S : Finset Resource) :
    Traces workerClaims S (wakeupTrace wakes) S :=
  .ite (fun _ => .ignore (by decide)) fun _ => .nil _ S

theorem traces_genStep (hcb : Wakes cbTrace) (h : Ready lg S) (hchain : .chain ∈ S) (i : Nat)
    (g : GenState σ χ ω) :
    Traces workerClaims S (genStepTrace lg L params env cb cbTrace i g) S := by
  have huse : Traces workerClaims S [.use .chain] S := .use (by decide) hchain
  unfold genStepTrace
  cases abortReason params env i with
  | some reason => exact .nil _ S
  | none =>
      refine .append ((huse.append h.useContext).append huse) ?_
      refine .ite (fun _ => .nil _ S) fun _ => .append h.useModel ?_
      refine .ite (fun _ => .nil _ S) fun _ => .ite (fun _ => .nil _ S) fun _ => ?_
      exact ((hcb i S).append h.useContext).append (.ite (fun _ => h.log .error) fun _ => .nil _ S)

theorem traces_generate (hcb : Wakes cbTrace) (h : Ready lg S) (hchain : .chain ∈ S) (n i : Nat)
    (g : GenState σ χ ω) :
    Traces workerClaims S (generateTrace lg L params env cb cbTrace n i g) S := by
  induction n generalizing i g with
  | zero => exact .nil _ S
  | succ n ih =>
      refine .append (traces_genStep hcb h hchain i g) ?_
      rcases genStep L params env cb i g with ⟨_ | reason, g'⟩
      · exact ih (i + 1) g'
      · exact .nil _ S

theorem traces_generation (hcb : Wakes cbTrace) (h : Ready lg S) (hchain : .chain ∉ S)
    (nPrompt : Int) (ctx : σ) (user : ω) :
    Traces workerClaims S (generationTrace lg L eng params env cb cbTrace nPrompt ctx user) S := by
  refine .ite (fun _ => .nil _ S) fun _ => .scope (by decide) hchain ?_
  have hready := h.insert .chain
  have hheld : .chain ∈ insert Resource.chain S := Finset.mem_insert_self _ _
  have hadds : Traces workerClaims (insert .chain S)
      ((samplers params).flatMap fun _ => [.use .chain]) (insert .chain S) :=
    .flatMap fun _ _ => .use (by decide) hheld
  exact ((((hadds.append hready.useModel).append (traces_generate hcb hready hheld _ _ _)).append
    hready.useContext).append (hready.log .info)).append hready.useContext

/-- `tokens` is given back once the prompt loop has ended. -/
theorem traces_prompt (hcb : Wakes cbTrace) (h : Ready lg S) (htokens : .tokens ∉ S)
    (hchain : .chain ∉ S) {nPrompt : Int} (hbatch : 1 ≤ eng.nBatch) (hpos : 0 < nPrompt)
    (hfuel : nPrompt < fuel)
    (tokens : List Token) (ctx : σ) (user : ω) :
    Traces workerClaims (insert .tokens S)
      (promptTrace lg L eng fuel params env cb cbTrace nPrompt tokens ctx user) S := by
  have hended := decodePrompt_ended L eng.nBatch tokens nPrompt hbatch fuel 0 ctx [] (by omega)
    (by omega)
  have hheld : .tokens ∈ insert Resource.tokens S := Finset.mem_insert_self _ _
  refine .append (traces_promptLoop (h.insert .tokens) hheld tokens nPrompt fuel 0 ctx) ?_
  split
  · next hnone => exact absurd hnone hended
  · refine .pop (by decide) htokens ?_
    exact .ite (fun _ => .nil _ S) fun _ => traces_generation hcb h hchain nPrompt _ user

/-- `inference_complete` gives back all that it takes, on every way through it. -/
theorem traces_inferenceComplete (hcb : Wakes cbTrace) {count : Bytes → Nat}
    (htok : L.CountsTokens count) (hbatch : 1 ≤ eng.nBatch) (hfuel : eng.nCtx ≤ fuel)
    (h : Ready lg S) (htokens : .tokens ∉ S)
    (hchain : .chain ∉ S) {readPrompt : Trace}
    (hread : ∀ r, Traces workerClaims (insert r S) readPrompt (insert r S)) (prompt : Bytes)
    (ctx : σ) (user : ω) :
    Traces workerClaims S
      (inferenceCompleteTrace lg L eng fuel params env cb cbTrace readPrompt prompt ctx user) S := by
  have hread' : Traces workerClaims S readPrompt S := by
    have hcontext := hread .context
    rwa [Finset.insert_eq_of_mem h.context] at hcontext
  refine .append (((h.useContext.append hread').append h.useModel).append hread') ?_
  refine Traces.ite (fun _ => h.log .error) fun hrequired => ?_
  refine Traces.ite (fun _ => h.log .warn) fun hover => ?_
  refine Traces.ite (fun _ => .nil _ S) fun halloc => ?_
  have hready := h.insert .tokens
  have hheld : .tokens ∈ insert Resource.tokens S := Finset.mem_insert_self _ _
  have hfree : Traces workerClaims (insert .tokens S) [.release .tokens] S :=
    .pop (by decide) htokens (.nil _ S)
  refine .cons_acquire (by decide) htokens (.append
    ((hready.useModel.append (hread .tokens)).append (.use (by decide) hheld)) ?_)
  refine Traces.ite (fun _ => (hready.log .error).append hfree) fun hcount => ?_
  refine Traces.ite (fun _ => hfree) fun hroom => ?_
  -- the prompt has at most `n_ctx` tokens, so the fuel is enough
  obtain ⟨hpos, hbound⟩ := htok.prompt hrequired (Int.not_lt.1 hcount)
  exact traces_prompt hcb h htokens hchain hbatch hpos (by omega) _ _ user

/-- The worker has taken nothing for itself. -/
structure Idle (S : Finset Resource) : Prop where
  chatMsgs : .chatMsgs ∉ S
  formatted : .formatted ∉ S
  tokens : .tokens ∉ S
  chain : .chain ∉ S

/-- A block that is held can be read. -/
theorem traces_readFormatted (hformatted : .formatted ∈ S) (r : Resource) :
    Traces workerClaims (insert r S) [.use .formatted] (insert r S) :=
  .use (by decide) (Finset.mem_insert_of_mem hformatted)

theorem traces_chatml (hcb : Wakes cbTrace) {count : Bytes → Nat} (htok : L.CountsTokens count)
    (hbatch : 1 ≤ eng.nBatch) (hfuel : eng.nCtx ≤ fuel) (h : Ready lg S) (hidle : Idle S)
    (checked : Bool) (messages : List ChatMessage) (ctx : σ) (user : ω) :
    Traces workerClaims S
      (chatmlTrace lg L eng fuel params env cb cbTrace checked messages ctx user) S := by
  have hready := h.insert .formatted
  have hheld : .formatted ∈ insert Resource.formatted S := Finset.mem_insert_self _ _
  refine .ite (fun _ => .nil _ S) fun _ => .scope (by decide) hidle.formatted ?_
  refine .append (.use (by decide) hheld) ?_
  refine .ite (fun _ => .nil _ _) fun _ => .ite (fun _ => hready.log .warn) fun _ => ?_
  exact traces_inferenceComplete hcb htok hbatch hfuel hready (by simp [hidle.tokens])
    (by simp [hidle.chain]) (traces_readFormatted hheld) _ ctx user

theorem traces_inferenceChat (hcb : Wakes cbTrace) {count : Bytes → Nat}
    (htok : L.CountsTokens count) (hbatch : 1 ≤ eng.nBatch) (hfuel : eng.nCtx ≤ fuel)
    (h : Ready lg S) (hidle : Idle S)
    (messages : List ChatMessage) (ctx : σ) (user : ω) :
    Traces workerClaims S
      (inferenceChatTrace lg L eng fuel params env cb cbTrace messages ctx user) S := by
  have hready := h.insert .chatMsgs
  have hheld : .chatMsgs ∈ insert Resource.chatMsgs S := Finset.mem_insert_self _ _
  have huse : Traces workerClaims (insert .chatMsgs S) [.use .chatMsgs] (insert .chatMsgs S) :=
    .use (by decide) hheld
  have hfree : Traces workerClaims (insert .chatMsgs S) [.release .chatMsgs] S :=
    .pop (by decide) hidle.chatMsgs (.nil _ S)
  refine Traces.ite (fun _ => traces_chatml hcb htok hbatch hfuel h hidle _ _ ctx user) fun _ => ?_
  refine .ite (fun _ => .nil _ S) fun _ => ?_
  refine .cons_acquire (by decide) hidle.chatMsgs (.append huse (.append huse ?_))
  refine .ite (fun _ => ?refused) fun _ => .ite (fun _ => (hready.log .warn).append hfree)
    fun _ => .ite (fun _ => hfree) fun _ => ?rendered
  case refused =>
    exact (hready.log .warn).append
      (hfree.append (traces_chatml hcb htok hbatch hfuel h hidle _ _ ctx user))
  case rendered =>
    -- `formatted` is taken while `chat_msgs` is still held
    have hfresh : .formatted ∉ insert Resource.chatMsgs S := by simp [hidle.formatted]
    have hboth : (insert Resource.formatted (insert Resource.chatMsgs S)).erase .chatMsgs =
        insert .formatted S := by
      rw [Finset.erase_insert_of_ne (by decide), Finset.erase_insert hidle.chatMsgs]
    have hready' := h.insert .formatted
    have hheld' : .formatted ∈ insert Resource.formatted S := Finset.mem_insert_self _ _
    have hfree' : Traces workerClaims (insert .formatted S) [.release .formatted] S :=
      .pop (by decide) hidle.formatted (.nil _ S)
    refine .cons_acquire (by decide) hfresh (.cons_use (by decide)
      (Finset.mem_insert_of_mem hheld) (.cons_use (by decide) (Finset.mem_insert_self _ _)
        (.cons_release (by decide) (Finset.mem_insert_of_mem hheld) ?_)))
    rw [hboth]
    refine .ite (fun _ => (hready'.log .error).append hfree') fun _ =>
      .cons_use (by decide) hheld' (.append ?_ hfree')
    exact traces_inferenceComplete hcb htok hbatch hfuel hready' (by simp [hidle.tokens])
      (by simp [hidle.chain]) (traces_readFormatted hheld') _ ctx user

theorem traces_inferJob (hcb : Wakes cbTrace) {count : Bytes → Nat} (htok : L.CountsTokens count)
    (hbatch : 1 ≤ eng.nBatch) (hfuel : eng.nCtx ≤ fuel) (h : Ready lg S) (hidle : Idle S)
    (job : WorkerJob) (ctx : σ) (user : ω) :
    Traces workerClaims S (inferJobTrace lg L eng fuel env cb cbTrace job ctx user) S := by
  unfold inferJobTrace
  cases job.type with
  | chat => exact traces_inferenceChat hcb htok hbatch hfuel h hidle _ ctx user
  | completion =>
      exact traces_inferenceComplete hcb htok hbatch hfuel h hidle.tokens hidle.chain
        (fun _ => .nil _ _) _ ctx user

variable (env) in
theorem traces_runJob {count : Bytes → Nat} (htok : L.CountsTokens count)
    (hbatch : 1 ≤ eng.nBatch) (hfuel : eng.nCtx ≤ fuel) (h : Ready lg S) (hidle : Idle S)
    (wakes : Nat → Bool) (job : WorkerJob) (ctx : σ) :
    Traces workerClaims S (runJobTrace lg L eng fuel wakes env job ctx) S := by
  have hwakes : Wakes fun i => wakeupTrace (wakes i) := fun i S => traces_wakeup (wakes i) S
  have hnever : Wakes fun _ => [] := fun _ S => .nil _ S
  refine .ite (fun _ => traces_inferJob hwakes htok hbatch hfuel h hidle _ ctx []) fun _ => ?_
  dsimp only
  split
  · exact .nil _ S
  · exact traces_inferJob hnever htok hbatch hfuel h hidle _ ctx _

end Job

section Worker

variable {L : Llama σ χ} {eng : Engine} {fuel : Nat}

theorem traces_await (hmutex : .workerMutex ∈ S) (hcond : .workerCond ∈ S) (waits : Nat) :
    Traces workerClaims S (awaitTrace waits) S := by
  have huse : Traces workerClaims S [.use .workerMutex] S := .use (by decide) hmutex
  refine (huse.append ?_).append huse
  rw [List.flatten_eq_flatMap]
  refine .flatMap fun part hpart => ?_
  rw [(List.mem_replicate.1 hpart).2]
  exact .cons_use (by decide) hcond huse

/-- One iteration leaves the worker with nothing that it has taken. -/
theorem traces_workerRun {count : Bytes → Nat} (htok : L.CountsTokens count)
    (hbatch : 1 ≤ eng.nBatch) (hfuel : eng.nCtx ≤ fuel) (h : Ready lg S) (hidle : Idle S)
    (hmutex : .workerMutex ∈ S) (hcond : .workerCond ∈ S) (run : WorkerRun) (ctx : σ) :
    Traces workerClaims S (run.trace lg L eng fuel ctx) S := by
  have huse : Traces workerClaims S [.use .workerMutex] S := .use (by decide) hmutex
  have hdoomsday : ∀ {p : Prop} [Decidable p],
      Traces workerClaims S (if p then lg.trace .info else []) S :=
    .ite (fun _ => h.log .info) fun _ => .nil _ S
  have hend : Traces workerClaims S
      (if run.orphaned then lg.trace .info else wakeupTrace run.mgr) S :=
    .ite (fun _ => h.log .info) fun _ => traces_wakeup run.mgr S
  have hwait := traces_await hmutex hcond run.waits
  have hjob := traces_runJob run.env htok hbatch hfuel h hidle run.wakes run.job ctx
  exact ((((hwait.append hjob).append hdoomsday).append (h.log .info)).append
    (huse.append huse)).append hend

theorem traces_worker {count : Bytes → Nat} (htok : L.CountsTokens count)
    (hbatch : 1 ≤ eng.nBatch) (hfuel : eng.nCtx ≤ fuel) (h : Ready lg S) (hidle : Idle S)
    (hmutex : .workerMutex ∈ S) (hcond : .workerCond ∈ S) (lastWaits : Nat)
    (runs : List WorkerRun) (ctx : σ) :
    Traces workerClaims S (workerTrace lg L eng fuel lastWaits runs ctx) S := by
  induction runs generalizing ctx with
  | nil => exact traces_await hmutex hcond lastWaits
  | cons run runs ih =>
      exact (traces_workerRun htok hbatch hfuel h hidle hmutex hcond run ctx).append (ih _)

end Worker

end Professord
