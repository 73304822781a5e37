import Professord.ApiTypes
import Professord.Worker.TokenRing

/-!
# Job — the job record and its accumulating callback (`worker_job_t`)

The record is shared between the event loop and the worker.  `mgr` is the manager pointer, of
which only "not null" matters; `response` is the buffer that `accum_token_cb` grows.
-/

namespace Professord

open CText

abbrev JobId : Type := Nat
abbrev ConnId : Type := Nat

inductive JobType
  | chat
  | completion
  deriving DecidableEq, Repr, Inhabited

inductive JobState
  | idle
  | running
  | done
  | error
  deriving DecidableEq, Repr

namespace JobState

/-- `IDLE` and `RUNNING` are the states in which a job counts as unfinished. -/
def isBusy (s : JobState) : Bool :=
  s == .idle || s == .running

/-- `(rc == 0) ? JOB_STATE_DONE : JOB_STATE_ERROR` -/
def ofRc (rc : Int) : JobState :=
  if rc = 0 then .done else .error

@[simp] theorem isBusy_ofRc (rc : Int) : (ofRc rc).isBusy = false := by
  unfold ofRc
  split <;> rfl

end JobState

/-! ## The response buffer of a non-streaming job -/

/-- `response_buf` (`none` is the null pointer; the bytes include the terminator),
`response_len` and `response_cap`. -/
structure AccumBuf where
  buf : Option Bytes
  len : Nat
  cap : Nat
  deriving DecidableEq, Repr, Inhabited

/-- The C string in the buffer. -/
def AccumBuf.text (b : AccumBuf) : Bytes :=
  match b.buf with
  | none => []
  | some bytes => cstr bytes

def responseCap (maxTokens : Int) : Nat :=
  let cap := if maxTokens > 0 then maxTokens.toNat * 16 else 8192
  let cap := if cap < 8192 then 8192 else cap
  if cap > profContentMax then profContentMax else cap

/-- The allocation of the response buffer in `worker_thread_func`. -/
def accumInit (maxTokens : Int) (mallocOk : Bool) : AccumBuf where
  buf := if mallocOk then some [0] else none
  len := 0
  cap := responseCap maxTokens

/-- `memcpy(buf + len, text, tlen); len += tlen; buf[len] = '\0'` -/
def AccumBuf.append (b : AccumBuf) (text : Bytes) : AccumBuf :=
  { b with
    buf := some ((b.buf.getD []).take b.len ++ text ++ [0])
    len := b.len + text.length }

/-- The new capacity for a text of length `len`. -/
def grownCap (cap len : Nat) : Nat :=
  let newCap := cap * 2
  let newCap := if newCap < len + 1 then len + 1 else newCap
  if newCap > profContentMax then profContentMax else newCap

/-- `accum_token_cb`; `reallocOk` is the outcome of the `realloc` it may make. -/
def accumTokenCb (b : AccumBuf) (tokenText : Bytes) (cancel shutdown reallocOk : Bool) :
    Int × AccumBuf :=
  if cancel || shutdown then
    (-1, b)
  else
    -- `strlen` and `memcpy` see the text up to its terminator
    let text := cstr tokenText
    let tlen := text.length
    if b.len + tlen ≥ b.cap then
      let newCap := grownCap b.cap (b.len + tlen)
      if b.len + tlen ≥ newCap then
        (-1, b) -- hit cap
      else if reallocOk then
        (0, { b with cap := newCap }.append text)
      else
        (-1, b)
    else
      (0, b.append text)

theorem responseCap_bounds (maxTokens : Int) :
    0 < responseCap maxTokens ∧ responseCap maxTokens ≤ profContentMax := by
  have hmax : profContentMax = 65536 := rfl
  unfold responseCap
  grind -linarith

/-- The new capacity has room for the text and its terminator, up to the limit. -/
theorem grownCap_bounds (cap : Nat) {len : Nat} (h : len < profContentMax) :
    len < grownCap cap len ∧ grownCap cap len ≤ profContentMax := by
  unfold grownCap
  grind -linarith

/-! ## The job -/

structure WorkerJob where
  type : JobType
  chatReq : ChatRequest
  compReq : CompletionRequest
  params : SampleParams
  requestId : CBuf profIdMax
  modelId : CBuf profModelMax
  stream : Bool
  cancel : Bool
  orphaned : Bool
  state : JobState
  finishReason : FinishReason
  promptTokens : Int
  completionTokens : Int
  ring : TokenRing
  response : AccumBuf
  mgr : Bool
  wakeupId : ConnId

/-- `worker_job_init`: everything zero. -/
def workerJobInit : WorkerJob where
  type := .chat
  chatReq := { (default : ChatRequest) with messages := none }
  compReq := default
  params := default
  requestId := default
  modelId := default
  stream := false
  cancel := false
  orphaned := false
  state := .idle
  finishReason := .unset
  promptTokens := 0
  completionTokens := 0
  ring := TokenRing.init
  response := ⟨none, 0, 0⟩
  mgr := false
  wakeupId := 0

instance : Inhabited WorkerJob := ⟨workerJobInit⟩

end Professord
