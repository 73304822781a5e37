import Professord.Worker.Job

/-!
# Reply — error replies, final replies and their counters (`server.c`)

`send_error` and the non-streaming branch of `drain_stream_ring`.  The `*_to_json` functions return
`NULL` when memory is out.
-/

namespace Professord

/-- The counter that `send_error` increments. -/
def countError (status : Nat) (st : Stats) : Stats :=
  match status with
  | 400 => { st with err400 := st.err400 + 1 }
  | 401 => { st with err401 := st.err401 + 1 }
  | 405 => { st with err405 := st.err405 + 1 }
  | 503 => { st with err503 := st.err503 + 1 }
  | _ => { st with err500 := st.err500 + 1 }

/-- Which JSON texts a handler gets: that of its reply or chunk, and that of `error_to_json`. -/
structure JsonTexts where
  reply : Bool := true
  error : Bool := true
  deriving DecidableEq, Repr

def errorReply (status : Nat) (message type : String) : Reply :=
  ⟨status, .error status message type⟩

/-- What `send_error` sends. -/
def sentError (texts : JsonTexts) (status : Nat) (message type : String) : Reply :=
  if texts.error then errorReply status message type else ⟨500, .text "Internal error"⟩

/-- The counters updated when a job is finalised. -/
def countInference (job : WorkerJob) (latency : Int) (st : Stats) : Stats :=
  { st with
    inferencesTotal := st.inferencesTotal + 1
    tokensPromptTotal := st.tokensPromptTotal + job.promptTokens
    tokensCompletionTotal := st.tokensCompletionTotal + job.completionTokens
    inferenceMsTotal := st.inferenceMsTotal + latency }

/-- The content of a final reply, `snprintf` into the 64 KiB field. -/
def replyContent (job : WorkerJob) : CBuf profContentMax :=
  match job.response.buf with
  | none => CBuf.empty
  -- an empty response leaves the zeroed field as it is
  | some bytes => if job.response.len > 0 then CBuf.snprintf bytes else CBuf.empty

def replyUsage (job : WorkerJob) : Usage where
  promptTokens := job.promptTokens
  completionTokens := job.completionTokens
  totalTokens := wrap32 (job.promptTokens + job.completionTokens)

/-- The reply of a finished non-streaming job in state `jstate`. -/
def finalReply (job : WorkerJob) (jstate : JobState) : Reply :=
  if jstate = .error && job.finishReason = .contextOverflow then
    errorReply 400 "Prompt too long for context window" "invalid_request"
  else if jstate = .error then
    errorReply 500 "Inference failed" "backend_error"
  else
    match job.type with
    | .chat =>
        ⟨200, .chat
          { id := job.requestId
            model := job.modelId
            content := replyContent job
            finishReason := job.finishReason
            usage := replyUsage job }⟩
    | .completion =>
        ⟨200, .completion
          { id := job.requestId
            model := job.modelId
            text := replyContent job
            finishReason := job.finishReason
            usage := replyUsage job }⟩

/-- What is sent for a reply: an error goes through `send_error`, and so does a failure to make the
text of another one. -/
def sentReply (texts : JsonTexts) (r : Reply) : Reply :=
  match r.body with
  | .error status message type => sentError texts status message type
  | _ => if texts.reply then r else sentError texts 500 "Internal error" "backend_error"

/-- The counter that is incremented for a reply, if any. -/
def countSent (texts : JsonTexts) (r : Reply) (st : Stats) : Stats :=
  match r.body with
  | .error status _ _ => countError status st
  | _ => if texts.reply then st else countError 500 st

end Professord
