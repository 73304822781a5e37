import Professord.ApiTypes
import Professord.Lib.Json

/-!
# Parse — `chat_request_parse` and `completion_request_parse` (`api_types.c`)

The JSON text itself is parsed by cJSON, which is a parameter; what the two functions read from
the resulting tree follows the source.  Text fields are C strings, so a string with an embedded
NUL is seen up to it.
-/

namespace Professord

open CText

abbrev profMaxMessages : Nat := 64

/-- What the parsers use from outside. -/
structure ParseEnv where
  /-- `cJSON_ParseWithLength` -/
  parseWithLength : Bytes → Option Json
  /-- `calloc` of the message array succeeds -/
  callocOk : Bool
  /-- the `int32_t` that a `double` out of its range is converted to -/
  outOfRange : CFloat → Int

/-! ## Fields that both endpoints have -/

/-- A `char[n]` field that takes a string item. -/
def stringField {n : Nat} [NeZero n] (root : Json) (name : String) : CBuf n :=
  match root.getObjectItem (ascii name) with
  | some (.string s) => CBuf.snprintf s
  | _ => default

/-- A `float` field, NaN unless the item is a number. -/
def floatField (root : Json) (name : String) : CFloat :=
  match root.getObjectItem (ascii name) with
  | some (.number v) => v.toFloat
  | _ => .nan

def maxTokensField (env : ParseEnv) (root : Json) : Int :=
  match root.getObjectItem (ascii "max_tokens") with
  | some (.number v) => v.toInt32 env.outOfRange
  | _ => -1

def streamField (root : Json) : Bool :=
  match root.getObjectItem (ascii "stream") with
  | some (.bool b) => b
  | _ => false

/-- One entry of a `stop` array; an item of another type leaves the entry empty. -/
def stopEntry : Json → CBuf profStopLen
  | .string s => CBuf.snprintf s
  | _ => default

/-- The first `PROF_STOP_MAX` entries of a `stop` array. -/
def stopArray (items : List Json) : StopList where
  entries := (items.take profStopMax).map stopEntry
  bounded := by
    rw [List.length_map]
    exact List.length_take_le _ _

/-! ## `chat_request_parse` -/

def validRole (role : Bytes) : Bool :=
  cstr role == ascii "system" || cstr role == ascii "user" || cstr role == ascii "assistant"

/-- A missing or `null` content, and one of any other type than string, is empty. -/
def contentField (content : Option Json) : CBuf profContentMax :=
  match content with
  | some (.string s) => CBuf.snprintf s
  | _ => default

def parseMessage (msg : Json) : Option ChatMessage :=
  match msg.getObjectItem (ascii "role") with
  | some (.string role) =>
      if validRole role then
        some
          { role := CBuf.snprintf role
            content := contentField (msg.getObjectItem (ascii "content")) }
      else
        none
  | _ => none

/-- `stop` may be an array or, for chat requests, a single string. -/
def chatStop (root : Json) : StopList :=
  match root.getObjectItem (ascii "stop") with
  | some (.array items) => stopArray items
  | some (.string s) => ⟨[CBuf.snprintf s], by simp⟩
  | _ => default

/-- The messages of a chat request. -/
def parseMessages (env : ParseEnv) (root : Json) : Option (List ChatMessage) :=
  match root.getObjectItem (ascii "messages") with
  | some (.array msgs) =>
      if msgs.length = 0 then
        none
      else if msgs.length > profMaxMessages then
        none
      else if !env.callocOk then
        none
      else
        msgs.mapM parseMessage
  | _ => none

/-! ### Accepted messages -/

/-- The role check of one message. -/
def HasRole (msg : Json) : Prop :=
  ∃ role, msg.getObjectItem (ascii "role") = some (.string role) ∧ validRole role = true

/-- What the messages of an accepted chat request satisfy. -/
structure ChatFields (root : Json) (items : List Json) : Prop where
  messages : root.getObjectItem (ascii "messages") = some (.array items)
  nonempty : items.length ≠ 0
  bounded : items.length ≤ profMaxMessages
  roles : ∀ msg ∈ items, HasRole msg

theorem ChatFields.unique {root : Json} {items items' : List Json}
    (h : ChatFields root items) (h' : ChatFields root items') : items = items' :=
  Json.array.inj (Option.some.inj (h.messages.symm.trans h'.messages))

theorem hasRole_of_parseMessage {msg : Json} {m : ChatMessage} (h : parseMessage msg = some m) :
    HasRole msg ∧ m.content = contentField (msg.getObjectItem (ascii "content")) := by
  unfold parseMessage at h
  split at h
  · next role hrole =>
      split_ifs at h with hvalid
      cases h
      exact ⟨⟨role, hrole, hvalid⟩, rfl⟩
  · cases h

theorem parseMessage_of_hasRole {msg : Json} (h : HasRole msg) : ∃ m, parseMessage msg = some m := by
  obtain ⟨role, hrole, hvalid⟩ := h
  rw [parseMessage, hrole]
  exact ⟨_, if_pos hvalid⟩

theorem forall₂_of_mapM {α β : Type} {f : α → Option β} :
    ∀ {xs : List α} {ys : List β}, xs.mapM f = some ys →
      List.Forall₂ (fun x y => f x = some y) xs ys
  | [], ys, h => by
      cases h
      exact .nil
  | x :: xs, ys, h => by
      rw [List.mapM_cons] at h
      obtain ⟨y, hy, h⟩ := Option.bind_eq_some_iff.1 h
      obtain ⟨rest, hrest, h⟩ := Option.bind_eq_some_iff.1 h
      cases h
      exact .cons hy (forall₂_of_mapM hrest)

theorem mapM_of_forall {α β : Type} {f : α → Option β} {xs : List α}
    (h : ∀ x ∈ xs, ∃ y, f x = some y) : ∃ ys, xs.mapM f = some ys := by
  induction xs with
  | nil => exact ⟨[], rfl⟩
  | cons x xs ih =>
      obtain ⟨y, hy⟩ := h x List.mem_cons_self
      obtain ⟨ys, hys⟩ := ih fun z hz => h z (List.mem_cons_of_mem x hz)
      exact ⟨y :: ys, by simp [List.mapM_cons, hy, hys]⟩

theorem chatFields_of_parseMessages {env : ParseEnv} {root : Json} {msgs : List ChatMessage}
    (h : parseMessages env root = some msgs) :
    env.callocOk = true ∧ ∃ items, ChatFields root items ∧
      List.Forall₂ (fun item m => parseMessage item = some m) items msgs := by
  unfold parseMessages at h
  split at h
  · next items hitems =>
      split_ifs at h with hempty hmany halloc
      have hall := forall₂_of_mapM h
      refine ⟨by simpa using halloc, items, ⟨hitems, hempty, by omega, fun msg hmsg => ?_⟩, hall⟩
      obtain ⟨i, hi, rfl⟩ := List.getElem_of_mem hmsg
      have hlen := hall.length_eq
      exact (hasRole_of_parseMessage (hall.get hi (hlen ▸ hi))).1
  · cases h

theorem parseMessages_of_chatFields {env : ParseEnv} {root : Json} {items : List Json}
    (h : ChatFields root items) (halloc : env.callocOk = true) :
    ∃ msgs, parseMessages env root = some msgs := by
  obtain ⟨msgs, hmsgs⟩ := mapM_of_forall fun msg hmsg => parseMessage_of_hasRole (h.roles msg hmsg)
  have hmany : ¬ items.length > profMaxMessages := by have := h.bounded; omega
  exact ⟨msgs, by simp [parseMessages, h.messages, h.nonempty, hmany, halloc, hmsgs]⟩

def chatRequestOfJson (env : ParseEnv) (root : Json) : Option ChatRequest :=
  (parseMessages env root).map fun msgs =>
    { model := stringField root "model"
      messages := some msgs
      temperature := floatField root "temperature"
      topP := floatField root "top_p"
      maxTokens := maxTokensField env root
      frequencyPenalty := floatField root "frequency_penalty"
      presencePenalty := floatField root "presence_penalty"
      repeatPenalty := floatField root "repeat_penalty"
      stop := chatStop root
      stream := streamField root }

theorem chatRequestOfJson_eq_some {env : ParseEnv} {root : Json} {req : ChatRequest}
    (h : chatRequestOfJson env root = some req) :
    ∃ msgs, parseMessages env root = some msgs ∧ req =
      { model := stringField root "model"
        messages := some msgs
        temperature := floatField root "temperature"
        topP := floatField root "top_p"
        maxTokens := maxTokensField env root
        frequencyPenalty := floatField root "frequency_penalty"
        presencePenalty := floatField root "presence_penalty"
        repeatPenalty := floatField root "repeat_penalty"
        stop := chatStop root
        stream := streamField root } := by
  obtain ⟨msgs, hmsgs, hreq⟩ := Option.map_eq_some_iff.1 h
  exact ⟨msgs, hmsgs, hreq.symm⟩

theorem chatRequestOfJson_of_messages {env : ParseEnv} {root : Json} {msgs : List ChatMessage}
    (h : parseMessages env root = some msgs) :
    ∃ req, chatRequestOfJson env root = some req ∧ req.messages = some msgs := by
  rw [chatRequestOfJson, h]
  exact ⟨_, rfl, rfl⟩

/-- `none` is the result -1. -/
def chatRequestParse (env : ParseEnv) (json : Bytes) : Option ChatRequest :=
  (env.parseWithLength json).bind (chatRequestOfJson env)

/-! ## `completion_request_parse` -/

def completionStop (root : Json) : StopList :=
  match root.getObjectItem (ascii "stop") with
  | some (.array items) => stopArray items
  | _ => default

def completionRequestOfJson (env : ParseEnv) (root : Json) : Option CompletionRequest :=
  match root.getObjectItem (ascii "prompt") with
  | some (.string prompt) =>
      some
        { model := stringField root "model"
          prompt := CBuf.snprintf prompt
          temperature := floatField root "temperature"
          topP := floatField root "top_p"
          maxTokens := maxTokensField env root
          repeatPenalty := floatField root "repeat_penalty"
          stop := completionStop root
          stream := streamField root }
  | _ => none

theorem completionRequestOfJson_eq_some {env : ParseEnv} {root : Json} {req : CompletionRequest}
    (h : completionRequestOfJson env root = some req) :
    ∃ prompt, root.getObjectItem (ascii "prompt") = some (.string prompt) ∧ req =
      { model := stringField root "model"
        prompt := CBuf.snprintf prompt
        temperature := floatField root "temperature"
        topP := floatField root "top_p"
        maxTokens := maxTokensField env root
        repeatPenalty := floatField root "repeat_penalty"
        stop := completionStop root
        stream := streamField root } := by
  unfold completionRequestOfJson at h
  split at h
  · next prompt hprompt => exact ⟨prompt, hprompt, (Option.some.inj h).symm⟩
  · cases h

theorem completionRequestOfJson_of_prompt {env : ParseEnv} {root : Json} {prompt : Bytes}
    (h : root.getObjectItem (ascii "prompt") = some (.string prompt)) :
    ∃ req, completionRequestOfJson env root = some req ∧ req.prompt = CBuf.snprintf prompt := by
  rw [completionRequestOfJson, h]
  exact ⟨_, rfl, rfl⟩

def completionRequestParse (env : ParseEnv) (json : Bytes) : Option CompletionRequest :=
  (env.parseWithLength json).bind (completionRequestOfJson env)

namespace Sample

/-- A parser that knows one text. -/
def knows (text : Bytes) (root : Json) : ParseEnv where
  parseWithLength := fun body => if body = text then some root else none
  callocOk := true
  outOfRange := fun _ => -2 ^ 31

end Sample

end Professord
