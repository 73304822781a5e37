import Professord.Lib.JsonPrint
import Professord.Server.Chunk

/-!
# Serialize — the bodies of the replies (`api_types.c`)

Each serializer builds a tree that `cJSON_PrintUnformatted` prints.  `readBody` is a client: it
decodes a body, finds out from its members what it is, and reads the fields.
-/

namespace Professord

open CText JsonText Numeral

/-! ## Printing -/

/-- Every number is an integer that a `double` holds and that is printed in full. -/
inductive ShortNumbers : Json → Prop
  | null : ShortNumbers .null
  | string (s : Bytes) : ShortNumbers (.string s)
  | number (z : Int) (hz : |z| < 10 ^ 15) : ShortNumbers (.number (roundDouble z))
  | array (items : List Json) (h : ∀ v ∈ items, ShortNumbers v) : ShortNumbers (.array items)
  | object (members : List (Bytes × Json)) (h : ∀ m ∈ members, ShortNumbers m.2) :
      ShortNumbers (.object members)

namespace ShortNumbers

@[simp] theorem string_iff (s : Bytes) : ShortNumbers (.string s) ↔ True :=
  iff_true_intro (.string s)

@[simp] theorem null_iff : ShortNumbers .null ↔ True :=
  iff_true_intro .null

@[simp] theorem object_nil_iff : ShortNumbers (.object []) ↔ True :=
  iff_true_intro (.object [] (by simp))

@[simp] theorem object_cons_iff (m : Bytes × Json) (ms : List (Bytes × Json)) :
    ShortNumbers (.object (m :: ms)) ↔ ShortNumbers m.2 ∧ ShortNumbers (.object ms) := by
  constructor
  · rintro ⟨⟩
    next h =>
      exact ⟨h m List.mem_cons_self, .object ms fun k hk => h k (List.mem_cons_of_mem m hk)⟩
  · rintro ⟨hm, hms⟩
    cases hms with
    | object _ h => exact .object _ (List.forall_mem_cons.2 ⟨hm, h⟩)

@[simp] theorem array_singleton_iff (v : Json) : ShortNumbers (.array [v]) ↔ ShortNumbers v := by
  constructor
  · rintro ⟨⟩
    next h => exact h v (List.mem_singleton_self v)
  · exact fun h => .array _ (List.forall_mem_singleton.2 h)

@[simp] theorem stringItem_iff (name : String) (text : Bytes) :
    ShortNumbers (stringItem name text).2 ↔ True :=
  iff_true_intro (.string text)

theorem numberItem (name : String) {z : Int} (hz : |z| < 10 ^ 15) :
    ShortNumbers (numberItem name z).2 :=
  .number z hz

end ShortNumbers

/-- `cJSON_PrintUnformatted` writes a JSON text of the tree, on one line. -/
structure PrintsJson (printUnformatted : Json → Bytes) : Prop where
  reads : ∀ members, ShortNumbers (.object members) →
    decode (printUnformatted (.object members)) = some (.object members)
  visible : ∀ v, ShortNumbers v → Visible (printUnformatted v)

theorem printable_of_shortNumbers (other : CFloat → Bytes) {v : Json} (h : ShortNumbers v) :
    Printable (integerText other) v := by
  induction h with
  | null => exact .null
  | string s => exact .string s
  | number z hz => exact .number _ (numberText_integer other hz)
  | array items _ ih => exact .array items ih
  | object members _ ih => exact .object members ih

/-- Compact printing is what is asked for, however other numbers are written. -/
theorem printsJson_print (other : CFloat → Bytes) : PrintsJson (print (integerText other)) where
  reads _ h := decode_print_object (printable_of_shortNumbers other h)
  visible _ h := visible_print (printable_of_shortNumbers other h)

/-! ## The serializers -/

def errorToJson (code : Nat) (message type : String) : Json :=
  .object
    [(ascii "error", .object
      [stringItem "message" (ascii message), stringItem "type" (ascii type),
        numberItem "code" code])]

def modelsListToJson (modelId : Bytes) : Json :=
  .object
    [stringItem "object" (ascii "list"),
      (ascii "data", .array [.object
        [stringItem "id" modelId, stringItem "object" (ascii "model"), numberItem "created" 0,
          stringItem "owned_by" (ascii "local")]])]

def usageToJson (usage : Usage) : Json :=
  .object
    [numberItem "prompt_tokens" usage.promptTokens,
      numberItem "completion_tokens" usage.completionTokens,
      numberItem "total_tokens" usage.totalTokens]

def chatResponseToJson (created : Int) (resp : ChatResponse) : Json :=
  .object
    [stringItem "id" resp.id.text, stringItem "object" (ascii "chat.completion"),
      numberItem "created" created, stringItem "model" resp.model.text,
      (ascii "choices", .array [.object
        [numberItem "index" 0,
          (ascii "message", .object
            [stringItem "role" (ascii "assistant"), stringItem "content" resp.content.text]),
          stringItem "finish_reason" (ascii resp.finishReason.text)]]),
      (ascii "usage", usageToJson resp.usage)]

def completionResponseToJson (created : Int) (resp : CompletionResponse) : Json :=
  .object
    [stringItem "id" resp.id.text, stringItem "object" (ascii "text_completion"),
      numberItem "created" created, stringItem "model" resp.model.text,
      (ascii "choices", .array [.object
        [numberItem "index" 0, stringItem "text" resp.text.text,
          stringItem "finish_reason" (ascii resp.finishReason.text)]]),
      (ascii "usage", usageToJson resp.usage)]

/-- The tree of a body that is printed by cJSON; the other ones are formatted directly. -/
def bodyToJson (created : Int) : Body → Option Json
  | .error code message type => some (errorToJson code message type)
  | .models modelId => some (modelsListToJson modelId.text)
  | .chat resp => some (chatResponseToJson created resp)
  | .completion resp => some (completionResponseToJson created resp)
  | .health | .whatIf | .stats | .text _ => none

/-! ## What a client reads -/

inductive BodyView
  | error (code : Int) (message type : Bytes)
  | models (id : Bytes)
  | chat (created : Int) (id model content finish : Bytes) (usage : Usage)
  | completion (created : Int) (id model text finish : Bytes) (usage : Usage)
  deriving DecidableEq

def intAt (v : Json) (name : String) : Option Int :=
  match numberAt v name with
  | some (.fin q) => if q.den = 1 then some q.num else none
  | _ => none

/-- The first item of the array with that name. -/
def firstAt (v : Json) (name : String) : Option Json :=
  match v.getObjectItem (ascii name) with
  | some (.array (item :: _)) => some item
  | _ => none

def usageAt (v : Json) : Option Usage := do
  let usage ← v.getObjectItem (ascii "usage")
  return {
    promptTokens := ← intAt usage "prompt_tokens"
    completionTokens := ← intAt usage "completion_tokens"
    totalTokens := ← intAt usage "total_tokens" }

/-- An object with a member `error` is an error, others say what they are. -/
def readObject (v : Json) : Option BodyView :=
  match v.getObjectItem (ascii "error") with
  | some err => do
      return .error (← intAt err "code") (← stringAt err "message") (← stringAt err "type")
  | none => do
      let object ← stringAt v "object"
      if object = ascii "list" then
        return .models (← stringAt (← firstAt v "data") "id")
      else if object = ascii "chat.completion" then
        let choice ← firstAt v "choices"
        let message ← choice.getObjectItem (ascii "message")
        return .chat (← intAt v "created") (← stringAt v "id") (← stringAt v "model")
          (← stringAt message "content") (← stringAt choice "finish_reason") (← usageAt v)
      else if object = ascii "text_completion" then
        let choice ← firstAt v "choices"
        return .completion (← intAt v "created") (← stringAt v "id") (← stringAt v "model")
          (← stringAt choice "text") (← stringAt choice "finish_reason") (← usageAt v)
      else
        none

def readBody (text : Bytes) : Option BodyView :=
  (decode text).bind readObject

/-- The fields of a body. -/
def bodyView (created : Int) : Body → Option BodyView
  | .error code message type => some (.error code (ascii message) (ascii type))
  | .models modelId => some (.models modelId.text)
  | .chat resp =>
      some (.chat created resp.id.text resp.model.text resp.content.text
        (ascii resp.finishReason.text) resp.usage)
  | .completion resp =>
      some (.completion created resp.id.text resp.model.text resp.text.text
        (ascii resp.finishReason.text) resp.usage)
  | .health | .whatIf | .stats | .text _ => none

/-- The counts are `int32_t`. -/
def Usage.Fits (usage : Usage) : Prop :=
  InInt32 usage.promptTokens ∧ InInt32 usage.completionTokens ∧ InInt32 usage.totalTokens

/-- The numbers of a body are those of its C types. -/
def Body.Fits : Body → Prop
  | .error code _ _ => InInt32 code
  | .chat resp => resp.usage.Fits
  | .completion resp => resp.usage.Fits
  | _ => True

/-! ## Round trip -/

theorem short_of_inInt32 {z : Int} (h : InInt32 z) : |z| < 10 ^ 15 := by
  rw [abs_lt]
  unfold InInt32 at h
  constructor <;> omega

theorem shortNumbers_usage {usage : Usage} (h : usage.Fits) : ShortNumbers (usageToJson usage) := by
  rcases h with ⟨hprompt, hcompletion, htotal⟩
  simp [usageToJson, ShortNumbers.numberItem _ (short_of_inInt32 hprompt),
    ShortNumbers.numberItem _ (short_of_inInt32 hcompletion),
    ShortNumbers.numberItem _ (short_of_inInt32 htotal)]

theorem intAt_of_numberAt {v : Json} {name : String} {z : Int} (hz : |z| < 10 ^ 15)
    (h : numberAt v name = some (roundDouble z)) : intAt v name = some z := by
  have hexact : roundDouble z = .fin z := roundDouble_intCast (lt_trans hz (by norm_num))
  simp [intAt, h, hexact]

theorem usageAt_of_item {v : Json} {usage : Usage} (h : usage.Fits)
    (hitem : v.getObjectItem (ascii "usage") = some (usageToJson usage)) :
    usageAt v = some usage := by
  rcases h with ⟨hprompt, hcompletion, htotal⟩
  have hp : intAt (usageToJson usage) "prompt_tokens" = some usage.promptTokens :=
    intAt_of_numberAt (short_of_inInt32 hprompt) rfl
  have hc : intAt (usageToJson usage) "completion_tokens" = some usage.completionTokens :=
    intAt_of_numberAt (short_of_inInt32 hcompletion) rfl
  have ht : intAt (usageToJson usage) "total_tokens" = some usage.totalTokens :=
    intAt_of_numberAt (short_of_inInt32 htotal) rfl
  simp [usageAt, hitem, hp, hc, ht]

section RoundTrip

variable {created : Int}

theorem readObject_error {code : Nat} (message type : String) (h : InInt32 code) :
    readObject (errorToJson code message type) =
      bodyView created (.error code message type) := by
  let err : Json := .object
    [stringItem "message" (ascii message), stringItem "type" (ascii type), numberItem "code" code]
  have hcode : intAt err "code" = some (code : Int) := intAt_of_numberAt (short_of_inInt32 h) rfl
  have hmessage : stringAt err "message" = some (ascii message) := rfl
  have htype : stringAt err "type" = some (ascii type) := rfl
  have herr : (errorToJson code message type).getObjectItem (ascii "error") = some err := rfl
  simp [readObject, herr, hcode, hmessage, htype, bodyView]

theorem readObject_models (modelId : CBuf profModelMax) :
    readObject (modelsListToJson modelId.text) = bodyView created (.models modelId) :=
  rfl

theorem readObject_chat {resp : ChatResponse} (hcreated : |created| < 10 ^ 15)
    (h : resp.usage.Fits) :
    readObject (chatResponseToJson created resp) = bodyView created (.chat resp) := by
  let v := chatResponseToJson created resp
  let message : Json :=
    .object [stringItem "role" (ascii "assistant"), stringItem "content" resp.content.text]
  let choice : Json := .object [numberItem "index" 0, (ascii "message", message),
    stringItem "finish_reason" (ascii resp.finishReason.text)]
  have hint : intAt v "created" = some created := intAt_of_numberAt hcreated rfl
  have husage : usageAt v = some resp.usage := usageAt_of_item h rfl
  have herror : v.getObjectItem (ascii "error") = none := rfl
  have hobject : stringAt v "object" = some (ascii "chat.completion") := rfl
  have hlist : ascii "chat.completion" ≠ ascii "list" := by decide
  have hid : stringAt v "id" = some resp.id.text := rfl
  have hmodel : stringAt v "model" = some resp.model.text := rfl
  have hchoice : firstAt v "choices" = some choice := rfl
  have hmessage : choice.getObjectItem (ascii "message") = some message := rfl
  have hcontent : stringAt message "content" = some resp.content.text := rfl
  have hfinish : stringAt choice "finish_reason" = some (ascii resp.finishReason.text) := rfl
  have hread : readObject v = bodyView created (.chat resp) := by
    simp [readObject, herror, hobject, hlist, hint, husage, hid, hmodel, hchoice, hmessage,
      hcontent, hfinish, bodyView]
  exact hread

theorem readObject_completion {resp : CompletionResponse} (hcreated : |created| < 10 ^ 15)
    (h : resp.usage.Fits) :
    readObject (completionResponseToJson created resp) = bodyView created (.completion resp) := by
  let v := completionResponseToJson created resp
  let choice : Json := .object [numberItem "index" 0, stringItem "text" resp.text.text,
    stringItem "finish_reason" (ascii resp.finishReason.text)]
  have hint : intAt v "created" = some created := intAt_of_numberAt hcreated rfl
  have husage : usageAt v = some resp.usage := usageAt_of_item h rfl
  have herror : v.getObjectItem (ascii "error") = none := rfl
  have hobject : stringAt v "object" = some (ascii "text_completion") := rfl
  have hlist : ascii "text_completion" ≠ ascii "list" := by decide
  have hchat : ascii "text_completion" ≠ ascii "chat.completion" := by decide
  have hid : stringAt v "id" = some resp.id.text := rfl
  have hmodel : stringAt v "model" = some resp.model.text := rfl
  have hchoice : firstAt v "choices" = some choice := rfl
  have htext : stringAt choice "text" = some resp.text.text := rfl
  have hfinish : stringAt choice "finish_reason" = some (ascii resp.finishReason.text) := rfl
  have hread : readObject v = bodyView created (.completion resp) := by
    simp [readObject, herror, hobject, hlist, hchat, hint, husage, hid, hmodel, hchoice, htext,
      hfinish, bodyView]
  exact hread

/-- The trees of the bodies have short numbers. -/
theorem shortNumbers_body {b : Body} {v : Json} (hcreated : |created| < 10 ^ 15) (h : b.Fits)
    (hv : bodyToJson created b = some v) : ShortNumbers v := by
  have hzero : |(0 : Int)| < 10 ^ 15 := by norm_num
  cases b <;> cases hv
  case error code message type =>
    simp [errorToJson, ShortNumbers.numberItem _ (short_of_inInt32 h)]
  case models modelId => simp [modelsListToJson, ShortNumbers.numberItem _ hzero]
  case chat resp =>
    simp [chatResponseToJson, ShortNumbers.numberItem _ hzero, ShortNumbers.numberItem _ hcreated,
      shortNumbers_usage h]
  case completion resp =>
    simp [completionResponseToJson, ShortNumbers.numberItem _ hzero,
      ShortNumbers.numberItem _ hcreated, shortNumbers_usage h]

theorem bodyToJson_object {b : Body} {v : Json} (hv : bodyToJson created b = some v) :
    ∃ members, v = .object members := by
  cases b <;> cases hv <;> exact ⟨_, rfl⟩

theorem readObject_body {b : Body} {v : Json} (hcreated : |created| < 10 ^ 15) (h : b.Fits)
    (hv : bodyToJson created b = some v) : readObject v = bodyView created b := by
  cases b <;> cases hv
  case error code message type => exact readObject_error message type h
  case models modelId => exact readObject_models modelId
  case chat resp => exact readObject_chat hcreated h
  case completion resp => exact readObject_completion hcreated h

theorem readBody_print {printUnformatted : Json → Bytes} (hprint : PrintsJson printUnformatted)
    (hcreated : |created| < 10 ^ 15) {b : Body} (h : b.Fits) {v : Json}
    (hv : bodyToJson created b = some v) :
    readBody (printUnformatted v) = bodyView created b := by
  obtain ⟨members, rfl⟩ := bodyToJson_object hv
  rw [readBody, hprint.reads members (shortNumbers_body hcreated h hv)]
  exact readObject_body hcreated h hv

end RoundTrip

/-- A client reads from a serialized body what the record says, so that two bodies are sent as the
same text only if they say the same. -/
theorem body_round_trip {printUnformatted : Json → Bytes} (hprint : PrintsJson printUnformatted)
    {created : Int} (hcreated : |created| < 10 ^ 15) {b : Body} (h : b.Fits) {v : Json}
    (hv : bodyToJson created b = some v) :
    readBody (printUnformatted v) = bodyView created b ∧
      ∀ b' v', b'.Fits → bodyToJson created b' = some v' →
        printUnformatted v' = printUnformatted v → bodyView created b' = bodyView created b := by
  refine ⟨readBody_print hprint hcreated h hv, fun b' v' h' hv' hsame => ?_⟩
  rw [← readBody_print hprint hcreated h' hv', hsame, readBody_print hprint hcreated h hv]

namespace Sample

/-- A chat reply with a quote and a line break in its content. -/
def quoteReply : ChatResponse where
  id := CBuf.snprintf (ascii "chatcmpl-0a1b2c")
  model := CBuf.snprintf (ascii "my-model")
  content := CBuf.snprintf (ascii "say \"hi\"\n")
  finishReason := .stop
  usage := ⟨12, 5, 17⟩

def printCompact : Json → Bytes :=
  print (integerText fun _ => ascii "null")

theorem body_round_trip_quoteReply :
    readBody (printCompact (chatResponseToJson 1700000000 quoteReply)) =
      bodyView 1700000000 (.chat quoteReply) := by
  have hfits : Body.Fits (.chat quoteReply) := by
    refine ⟨?_, ?_, ?_⟩ <;> constructor <;> decide
  exact (body_round_trip (printsJson_print _) (by decide) hfits rfl).1

end Sample

end Professord
