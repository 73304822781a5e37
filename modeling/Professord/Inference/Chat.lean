import Professord.Inference.Complete

/-!
# Chat — `inference_chat`

Renders the messages with the model's template, or as ChatML, and completes the result.
-/

namespace Professord

open CText

/-! ## ChatML -/

def imStart : Bytes := ascii "<|im_start|>"

def imEnd : Bytes := ascii "<|im_end|>\n"

/-- `<|im_start|>role\ncontent<|im_end|>\n` -/
def chatmlMessage (m : ChatMessage) : Bytes :=
  imStart ++ m.role.text ++ ascii "\n" ++ m.content.text ++ imEnd

def chatmlText (messages : List ChatMessage) : Bytes :=
  messages.flatMap chatmlMessage ++ imStart ++ ascii "assistant\n"

/-- The size that `build_chatml_prompt` allocates, less the terminator. -/
def chatmlNeeded (messages : List ChatMessage) : Nat :=
  (messages.map fun m => 13 + m.role.text.length + 1 + m.content.text.length + 12 + 1).sum + 24

/-- `build_chatml_prompt`; `none` is the null pointer. -/
def buildChatmlPrompt (messages : List ChatMessage) (mallocOk : Bool) : Option Bytes :=
  if mallocOk then some ((chatmlText messages).take (chatmlNeeded messages)) else none

/-- The buffer is large enough. -/
theorem length_chatmlText_le (messages : List ChatMessage) :
    (chatmlText messages).length ≤ chatmlNeeded messages := by
  have hmsgs : (messages.flatMap chatmlMessage).length ≤
      (messages.map fun m => 13 + m.role.text.length + 1 + m.content.text.length + 12 + 1).sum := by
    induction messages with
    | nil => simp
    | cons m ms ih =>
        have hone : (chatmlMessage m).length = m.role.text.length + m.content.text.length + 24 := by
          have hstart : imStart.length = 12 := by decide
          have hend : imEnd.length = 11 := by decide
          have hnl : (ascii "\n").length = 1 := by decide
          simp only [chatmlMessage, List.length_append, hstart, hend, hnl]
          omega
        simp only [List.flatMap_cons, List.length_append, List.map_cons, List.sum_cons, hone]
        omega
  have htail : (imStart ++ ascii "assistant\n").length = 22 := by decide
  simp only [chatmlText, chatmlNeeded, List.append_assoc, List.length_append] at htail ⊢
  omega

theorem buildChatmlPrompt_eq (messages : List ChatMessage) :
    buildChatmlPrompt messages true = some (chatmlText messages) := by
  simp [buildChatmlPrompt, List.take_of_length_le (length_chatmlText_le messages)]

/-! ## Rendering -/

/-- The prompt, or the reason why there is none. -/
inductive Rendered
  | prompt (text : Bytes)
  | failed (reason : FinishReason)

variable {σ χ ω : Type}

/-- The fallback: `formatted` must be there and not empty. -/
def renderChatml (messages : List ChatMessage) (allocs : Allocs) : Rendered :=
  match buildChatmlPrompt messages allocs.chatml with
  | none => .failed .backendError
  | some text => if wrap32 text.length = 0 then .failed .backendError else .prompt text

theorem renderChatml_failed {messages : List ChatMessage} {allocs : Allocs}
    {reason : FinishReason} (h : renderChatml messages allocs = .failed reason) :
    reason = .backendError := by
  unfold renderChatml at h
  split at h
  · cases h
    rfl
  · split at h
    · cases h
      rfl
    · cases h

def renderChat (L : Llama σ χ) (eng : Engine) (messages : List ChatMessage)
    (allocs : Allocs) : Rendered :=
  if eng.useChatmlFallback then
    match renderChatml messages allocs with
    | .failed reason => .failed reason
    | .prompt text =>
        if wrap32 text.length > profMaxPromptBytes then .failed .contextOverflow else .prompt text
  else if !allocs.messages then
    .failed .backendError
  else
    let chatMsgs := messages.map fun m => (m.role.text, m.content.text)
    -- a first call without a buffer asks for the length
    let needed := (L.applyTemplate chatMsgs 0).1
    if needed ≤ 0 then
      -- the model's template cannot be applied
      renderChatml messages allocs
    else if needed > profMaxPromptBytes then
      .failed .contextOverflow
    else if !allocs.formatted then
      .failed .backendError
    else
      let actual := L.applyTemplate chatMsgs (needed + 1)
      if actual.1 ≤ 0 ∨ actual.1 > needed then
        .failed .backendError
      else
        .prompt (actual.2.take actual.1.toNat)

/-- `promptTokens` and `completionTokens` are the values of the out-parameters at the call. -/
def inferenceChat (L : Llama σ χ) (eng : Engine) (fuel : Nat) (params : SampleParams)
    (env : RunEnv) (cb : TokenCallback ω) (messages : List ChatMessage)
    (promptTokens completionTokens : Int) (ctx : σ) (user : ω) : Outcome σ ω :=
  match renderChat L eng messages env.allocs with
  | .failed reason =>
      { ret := some (-1)
        finish := reason
        promptTokens := promptTokens
        completionTokens := completionTokens
        ctx := ctx
        user := user }
  | .prompt text => inferenceComplete L eng fuel params env cb text ctx user

end Professord
