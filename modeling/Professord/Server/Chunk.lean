import Professord.Lib.JsonText
import Professord.Worker.Job

/-!
# Chunk — the token events of a streaming reply (`server.c`, `api_types.c`)

`drain_stream_ring` formats a token with `mg_printf`; `stream_chunk_to_json` builds the same chunk
as a tree.  The payload puts the request id and the model id between quotes as they are, so the two
say the same exactly if those ids need no escaping.
-/

namespace Professord

open CText JsonText Numeral

/-! ## The two formatters -/

/-- `obj_type` -/
def JobType.chunkObject : JobType → Bytes
  | .chat => ascii "chat.completion.chunk"
  | .completion => ascii "text_completion.chunk"

/-- The member with the token; `esc` is what `"%M"` prints for `MG_ESC(token)`. -/
def chunkContent (esc : Bytes → Bytes) (type : JobType) (token : Bytes) : Bytes :=
  match type with
  | .chat => ascii "\"delta\":\x7b\"content\":\"" ++ esc token ++ ascii "\"\x7d,"
  | .completion => ascii "\"text\":\"" ++ esc token ++ ascii "\","

/-- What `mg_printf` puts between `"data: "` and the blank line. -/
def chunkPayload (esc : Bytes → Bytes) (job : WorkerJob) (created : Int)
    (token : CBuf tokenTextMax) : Bytes :=
  ascii "\x7b\"id\":\"" ++ job.requestId.text ++ ascii "\",\"object\":\"" ++
    job.type.chunkObject ++ ascii "\",\"created\":" ++ decimal created ++
    ascii ",\"model\":\"" ++ job.modelId.text ++ ascii "\",\"choices\":[\x7b\"index\":0," ++
    chunkContent esc job.type token.text ++ ascii "\"finish_reason\":null\x7d]\x7d"

/-- `stream_chunk_t` -/
structure StreamChunk where
  id : CBuf profIdMax
  model : CBuf profModelMax
  created : Int
  deltaContent : CBuf 256
  finishReason : FinishReason
  isChat : Bool

def stringItem (name : String) (text : Bytes) : Bytes × Json :=
  (ascii name, .string text)

/-- `cJSON_AddNumberToObject` -/
def numberItem (name : String) (v : Int) : Bytes × Json :=
  (ascii name, .number (roundDouble v))

/-- The tree that `stream_chunk_to_json` prints. -/
def streamChunkToJson (chunk : StreamChunk) : Json :=
  let content : Bytes × Json :=
    if chunk.isChat then
      let delta :=
        if chunk.deltaContent.text ≠ [] then [stringItem "content" chunk.deltaContent.text] else []
      (ascii "delta", .object delta)
    else
      stringItem "text" chunk.deltaContent.text
  let finish : Bytes × Json :=
    if chunk.finishReason ≠ .unset then stringItem "finish_reason" (ascii chunk.finishReason.text)
    else (ascii "finish_reason", .null)
  .object
    [stringItem "id" chunk.id.text,
      stringItem "object" (ascii (if chunk.isChat then "chat.completion.chunk"
        else "text_completion.chunk")),
      numberItem "created" chunk.created,
      stringItem "model" chunk.model.text,
      (ascii "choices", .array [.object [numberItem "index" 0, content, finish]])]

/-- The chunk with the fields of a token event. -/
def chunkOfToken (job : WorkerJob) (created : Int) (token : CBuf tokenTextMax) : StreamChunk where
  id := job.requestId
  model := job.modelId
  created := created
  deltaContent := ⟨token.text, Nat.lt_trans token.fits (by decide), token.noNul⟩
  finishReason := .unset
  isChat := job.type = .chat

/-! ## What a client reads -/

structure ChunkView where
  id : Bytes
  object : Bytes
  created : CFloat
  model : Bytes
  index : CFloat
  content : Bytes

def stringAt (v : Json) (name : String) : Option Bytes :=
  match v.getObjectItem (ascii name) with
  | some (.string s) => some s
  | _ => none

def numberAt (v : Json) (name : String) : Option CFloat :=
  match v.getObjectItem (ascii name) with
  | some (.number x) => some x
  | _ => none

/-- The one choice of a chunk. -/
def choiceAt (v : Json) : Option Json :=
  match v.getObjectItem (ascii "choices") with
  | some (.array [choice]) => some choice
  | _ => none

/-- The token of a choice; absent content is empty. -/
def contentAt (type : JobType) (choice : Json) : Option Bytes :=
  match type with
  | .chat => do
      let delta ← choice.getObjectItem (ascii "delta")
      match delta.getObjectItem (ascii "content") with
      | none => some []
      | some (.string s) => some s
      | _ => none
  | .completion => stringAt choice "text"

/-- The fields of a chunk whose finish reason is null. -/
def chunkView (type : JobType) (v : Json) : Option ChunkView := do
  let choice ← choiceAt v
  let .null ← choice.getObjectItem (ascii "finish_reason") | none
  return {
    id := ← stringAt v "id"
    object := ← stringAt v "object"
    created := ← numberAt v "created"
    model := ← stringAt v "model"
    index := ← numberAt choice "index"
    content := ← contentAt type choice }

/-- The payload is JSON, and a client reads from it what it reads from the serializer's chunk. -/
def ChunkAgrees (esc : Bytes → Bytes) (job : WorkerJob) (created : Int)
    (token : CBuf tokenTextMax) : Prop :=
  ∃ v view, decode (chunkPayload esc job created token) = some v ∧
    chunkView job.type v = some view ∧
    chunkView job.type (streamChunkToJson (chunkOfToken job created token)) = some view

/-! ## The payload as JSON -/

/-- The payload from the member `choices` on. -/
def choicesText (esc : Bytes → Bytes) (type : JobType) (token : Bytes) : Bytes :=
  ascii "\"choices\":[\x7b\"index\":0," ++
    chunkContent esc type token ++ ascii "\"finish_reason\":null\x7d]\x7d"

/-- The payload from the member `model` on. -/
def modelText (esc : Bytes → Bytes) (job : WorkerJob) (token : Bytes) : Bytes :=
  34 :: (ascii "model" ++ 34 :: 58 :: 34 ::
    (job.modelId.text ++ 34 :: 44 :: choicesText esc job.type token))

/-- The payload behind the request id. -/
def objectText (esc : Bytes → Bytes) (job : WorkerJob) (created : Int) (token : Bytes) : Bytes :=
  34 :: (ascii "object" ++ 34 :: 58 :: 34 :: (job.type.chunkObject ++ 34 :: 44 :: 34 ::
    (ascii "created" ++ 34 :: 58 :: (decimal created ++ 44 :: modelText esc job token))))

theorem chunkPayload_eq (esc : Bytes → Bytes) (job : WorkerJob) (created : Int)
    (token : CBuf tokenTextMax) :
    chunkPayload esc job created token =
      123 :: 34 :: (ascii "id" ++ 34 :: 58 :: 34 :: (job.requestId.text ++ 34 :: 44 ::
        objectText esc job created token.text)) := by
  have hid : ascii "\x7b\"id\":\"" = 123 :: 34 :: (ascii "id" ++ [34, 58, 34]) := rfl
  have hobject : ascii "\",\"object\":\"" = 34 :: 44 :: 34 :: (ascii "object" ++ [34, 58, 34]) :=
    rfl
  have hcreated : ascii "\",\"created\":" = 34 :: 44 :: 34 :: (ascii "created" ++ [34, 58]) := rfl
  have hmodel : ascii ",\"model\":\"" = 44 :: 34 :: (ascii "model" ++ [34, 58, 34]) := rfl
  have hchoices : ascii "\",\"choices\":[\x7b\"index\":0," =
      34 :: 44 :: ascii "\"choices\":[\x7b\"index\":0," := rfl
  simp only [chunkPayload, objectText, modelText, choicesText, hid, hobject, hcreated, hmodel,
    hchoices, List.append_assoc, List.cons_append, List.nil_append]

section Parsed

variable {esc : Bytes → Bytes} {type : JobType} {token : Bytes} {job : WorkerJob} {created : Int}

/-- The member with the token. -/
def contentItem (type : JobType) (token : Bytes) : Bytes × Json :=
  match type with
  | .chat => (ascii "delta", .object [stringItem "content" token])
  | .completion => stringItem "text" token

def choiceJson (type : JobType) (token : Bytes) : Json :=
  .object [numberItem "index" 0, contentItem type token, (ascii "finish_reason", .null)]

/-- What `MG_ESC` is for: a string literal reads back as the text that was escaped. -/
def EscapesJson (esc : Bytes → Bytes) : Prop :=
  ∀ text, 0 ∉ text → ∀ rest, scanString (esc text ++ 34 :: rest) = some (text, rest)

theorem parse_finish (fuel : Nat) (rest : Bytes) :
    parseMembers (fuel + 2) (ascii "\"finish_reason\":null\x7d" ++ rest) =
      some ([(ascii "finish_reason", .null)], rest) := by
  have hkey : Plain (ascii "finish_reason") := by decide
  have hsplit : ascii "\"finish_reason\":null\x7d" ++ rest =
      34 :: (ascii "finish_reason" ++ 34 :: 58 :: 110 :: 117 :: 108 :: 108 :: 125 :: rest) := by
    simp [ascii]
  rw [hsplit, parseMembers_last hkey (parseValue_null fuel (125 :: rest))]

theorem parse_content (hesc : EscapesJson esc) (htoken : 0 ∉ token) (fuel : Nat) (rest : Bytes) :
    parseMembers (fuel + 4) (chunkContent esc type token ++ rest) =
      (parseMembers (fuel + 3) rest).map fun r => (contentItem type token :: r.1, r.2) := by
  have hdelta : Plain (ascii "delta") := by decide
  have hcontent : Plain (ascii "content") := by decide
  have htext : Plain (ascii "text") := by decide
  cases type with
  | chat =>
      have hsplit : chunkContent esc .chat token ++ rest =
          34 :: (ascii "delta" ++ 34 :: 58 :: 123 :: 34 :: (ascii "content" ++ 34 :: 58 :: 34 ::
            (esc token ++ 34 :: 125 :: 44 :: rest))) := by
        simp [chunkContent, ascii]
      have hstring : parseValue (fuel + 1) (34 :: (esc token ++ 34 :: 125 :: 44 :: rest)) =
          some (.string token, 125 :: 44 :: rest) := by
        rw [parseValue_string, hesc token htoken]
        rfl
      -- the chat format wraps the token in an object of its own
      have hobject := parseValue_object (fuel + 2) (ascii "content" ++ 34 :: 58 :: 34 ::
        (esc token ++ 34 :: 125 :: 44 :: rest))
      rw [parseMembers_last hcontent hstring] at hobject
      rw [hsplit, parseMembers_more hdelta hobject]
      rfl
  | completion =>
      have hsplit : chunkContent esc .completion token ++ rest =
          34 :: (ascii "text" ++ 34 :: 58 :: 34 :: (esc token ++ 34 :: 44 :: rest)) := by
        simp [chunkContent, ascii]
      have hstring : parseValue (fuel + 3) (34 :: (esc token ++ 34 :: 44 :: rest)) =
          some (.string token, 44 :: rest) := by
        rw [parseValue_string, hesc token htoken]
        rfl
      rw [hsplit, parseMembers_more htext hstring]
      rfl

theorem parse_choices (hesc : EscapesJson esc) (htoken : 0 ∉ token) (fuel : Nat) :
    parseMembers (fuel + 9) (choicesText esc type token) =
      some ([(ascii "choices", .array [choiceJson type token])], []) := by
  have hchoices : Plain (ascii "choices") := by decide
  have hindex : Plain (ascii "index") := by decide
  -- inside out: the members of the choice, the choice, the array, and the member `choices`
  let tail := chunkContent esc type token ++ (ascii "\"finish_reason\":null\x7d" ++ [93, 125])
  have hsplit : choicesText esc type token =
      34 :: (ascii "choices" ++ 34 :: 58 :: 91 :: 123 :: 34 :: (ascii "index" ++ 34 :: 58 ::
        (decimal 0 ++ 44 :: tail))) := by
    have hzero : decimal 0 = [48] := rfl
    simp [choicesText, tail, ascii, hzero]
  have hmembers : parseMembers (fuel + 5) (34 :: (ascii "index" ++ 34 :: 58 ::
      (decimal 0 ++ 44 :: tail))) =
        some ([numberItem "index" 0, contentItem type token, (ascii "finish_reason", .null)],
          [93, 125]) := by
    rw [parseMembers_more hindex (parseValue_decimal (fuel + 3) 0 tail),
      parse_content hesc htoken, parse_finish (fuel + 1)]
    rfl
  have hchoice := parseValue_object (fuel + 5) (ascii "index" ++ 34 :: 58 ::
    (decimal 0 ++ 44 :: tail))
  rw [hmembers] at hchoice
  have harray := parseValue_array (fuel + 7) (34 :: (ascii "index" ++ 34 :: 58 ::
    (decimal 0 ++ 44 :: tail)))
  rw [parseItems_last hchoice] at harray
  rw [hsplit]
  exact parseMembers_last hchoices harray

theorem parse_object (fuel : Nat) :
    parseMembers (fuel + 12) (objectText esc job created token) =
      (parseMembers (fuel + 10) (modelText esc job token)).map fun r =>
        (stringItem "object" job.type.chunkObject :: numberItem "created" created :: r.1, r.2) := by
  have hobject : Plain (ascii "object") := by decide
  have hcreated : Plain (ascii "created") := by decide
  have htype : Plain job.type.chunkObject := by
    cases job.type <;> decide
  rw [objectText, parseMembers_more hobject (parseValue_plain htype _ _),
    parseMembers_more hcreated (parseValue_decimal _ created _), Option.map_map]
  rfl

theorem parse_model (hesc : EscapesJson esc) (htoken : 0 ∉ token)
    (hmodel : Plain job.modelId.text) (fuel : Nat) :
    parseMembers (fuel + 10) (modelText esc job token) =
      some ([stringItem "model" job.modelId.text,
        (ascii "choices", .array [choiceJson job.type token])], []) := by
  have hkey : Plain (ascii "model") := by decide
  rw [modelText, parseMembers_more hkey (parseValue_plain hmodel _ _),
    parse_choices hesc htoken]
  rfl

/-- The tree of a chunk. -/
def chunkJson (id object model : Bytes) (created : Int) (choice : Json) : Json :=
  .object
    [stringItem "id" id, stringItem "object" object, numberItem "created" created,
      stringItem "model" model, (ascii "choices", .array [choice])]

/-- The payload is read member by member. -/
theorem decode_payload (esc : Bytes → Bytes) (job : WorkerJob) (created : Int)
    (token : CBuf tokenTextMax) :
    ∃ fuel, decode (chunkPayload esc job created token) =
      match parseMembers (fuel + 13) (34 :: (ascii "id" ++ 34 :: 58 :: 34 ::
          (job.requestId.text ++ 34 :: 44 :: objectText esc job created token.text))) with
      | some (members, rest) => if skipSpace rest = [] then some (.object members) else none
      | none => none := by
  -- the payload is long enough to fuel all the calls
  have hlen : 13 ≤ (chunkPayload esc job created token).length := by
    rw [chunkPayload_eq, objectText]
    simp [ascii]
    omega
  obtain ⟨fuel, hfuel⟩ := Nat.exists_eq_add_of_le' hlen
  refine ⟨fuel, ?_⟩
  rw [decode, hfuel, chunkPayload_eq, parseValue_object]
  cases parseMembers (fuel + 13) _ <;> rfl

theorem decode_of_plain (hesc : EscapesJson esc) {token : CBuf tokenTextMax}
    (hid : Plain job.requestId.text) (hmodel : Plain job.modelId.text) :
    decode (chunkPayload esc job created token) =
      some (chunkJson job.requestId.text job.type.chunkObject job.modelId.text created
        (choiceJson job.type token.text)) := by
  have hkey : Plain (ascii "id") := by decide
  rcases decode_payload esc job created token with ⟨fuel, hdecode⟩
  rw [hdecode, parseMembers_more hkey (parseValue_plain hid _ _), parse_object,
    parse_model hesc token.noNul hmodel]
  rfl

end Parsed

/-! ## What a client reads -/

section Read

variable {esc : Bytes → Bytes} {type : JobType} {job : WorkerJob} {created : Int} {v : Json}

/-- Looking a name up ignores the members of other names. -/
theorem stringAt_cons_of_ne {name : String} {key : Bytes}
    (h : (cstr key).map toLower ≠ (ascii name).map toLower) (x : Json)
    (members : List (Bytes × Json)) :
    stringAt (.object ((key, x) :: members)) name = stringAt (.object members) name := by
  simp only [stringAt, Json.getObjectItem_cons_of_ne h]

/-- A string that is found in the first member is that member's value. -/
theorem string_of_stringAt_cons {name : String} {key s : Bytes} {x : Json}
    {members : List (Bytes × Json)}
    (h : (cstr key).map toLower = (ascii name).map toLower)
    (hs : stringAt (.object ((key, x) :: members)) name = some s) : x = .string s := by
  simp only [stringAt, Json.getObjectItem_cons_of_eq h] at hs
  split at hs
  · next heq =>
      cases hs
      exact Option.some.inj heq
  · cases hs

/-- The fields of an object with the members of a chunk. -/
theorem chunkView_object {id object model s : Bytes} {content : Bytes × Json}
    (hfinish : (cstr content.1).map toLower ≠ (ascii "finish_reason").map toLower)
    (hcontent : contentAt type (.object
      [numberItem "index" 0, content, (ascii "finish_reason", .null)]) = some s) :
    chunkView type (chunkJson id object model created (.object
      [numberItem "index" 0, content, (ascii "finish_reason", .null)])) =
      some ⟨id, object, roundDouble created, model, roundDouble 0, s⟩ := by
  let choice : Json := .object [numberItem "index" 0, content, (ascii "finish_reason", .null)]
  have hreason : choice.getObjectItem (ascii "finish_reason") = some .null := by
    dsimp only [choice, numberItem]
    rw [Json.getObjectItem_cons_of_ne (by decide), Json.getObjectItem_cons_of_ne hfinish,
      Json.getObjectItem_cons_of_eq (by decide)]
  have hindex : numberAt choice "index" = some (roundDouble 0) := by
    dsimp only [choice, numberAt, numberItem]
    rw [Json.getObjectItem_cons_of_eq (by decide)]
    simp
  have hid : stringAt (chunkJson id object model created choice) "id" = some id := rfl
  have hobject : stringAt (chunkJson id object model created choice) "object" = some object := rfl
  have hcreated : numberAt (chunkJson id object model created choice) "created" =
      some (roundDouble created) := rfl
  have hmodel : stringAt (chunkJson id object model created choice) "model" = some model := rfl
  have hchoice : choiceAt (chunkJson id object model created choice) = some choice := rfl
  simp only [chunkView, hchoice, hreason, hid, hobject, hcreated, hmodel, hindex, hcontent,
    Option.bind_eq_bind, Option.bind_some, choice]
  rfl

/-- The fields of a view are those of the object. -/
theorem stringAt_of_chunkView {view : ChunkView} (h : chunkView type v = some view) :
    stringAt v "id" = some view.id ∧ stringAt v "model" = some view.model := by
  simp only [chunkView, Option.bind_eq_bind, Option.bind_eq_some_iff] at h
  rcases h with ⟨choice, _, reason, _, hfields⟩
  cases reason with
  | null =>
      simp only [Option.bind_eq_some_iff] at hfields
      rcases hfields with ⟨id, hid, _, _, _, _, model, hmodel, _, _, _, _, heq⟩
      cases heq
      exact ⟨hid, hmodel⟩
  | _ => cases hfields

theorem contentAt_choiceJson (type : JobType) (token : Bytes) :
    contentAt type (choiceJson type token) = some token := by
  cases type <;> rfl

theorem contentItem_ne_finish (type : JobType) (token : Bytes) :
    (cstr (contentItem type token).1).map toLower ≠
      (ascii "finish_reason").map toLower := by
  have hdelta : (cstr (ascii "delta")).map toLower ≠
      (ascii "finish_reason").map toLower := by decide
  have htext : (cstr (ascii "text")).map toLower ≠
      (ascii "finish_reason").map toLower := by decide
  cases type with
  | chat => exact hdelta
  | completion => exact htext

theorem chunkView_payload (job : WorkerJob) (created : Int) (token : Bytes) :
    chunkView job.type (chunkJson job.requestId.text job.type.chunkObject job.modelId.text created
      (choiceJson job.type token)) =
        some ⟨job.requestId.text, job.type.chunkObject, roundDouble created, job.modelId.text,
          roundDouble 0, token⟩ :=
  chunkView_object (contentItem_ne_finish _ _) (contentAt_choiceJson _ _)

/-- The serializer builds the tree of the payload, but for the content of an empty chat token. -/
theorem streamChunkToJson_eq {token : CBuf tokenTextMax}
    (h : job.type = .completion ∨ token.text ≠ []) :
    streamChunkToJson (chunkOfToken job created token) =
      chunkJson job.requestId.text job.type.chunkObject job.modelId.text created
        (choiceJson job.type token.text) := by
  cases htype : job.type with
  | chat =>
      have hne : token.text ≠ [] := by simpa [htype] using h
      simp [streamChunkToJson, chunkOfToken, htype, hne, chunkJson, choiceJson, contentItem,
        JobType.chunkObject]
  | completion =>
      simp [streamChunkToJson, chunkOfToken, htype, chunkJson, choiceJson, contentItem,
        JobType.chunkObject]

/-- The content that it leaves out reads as empty. -/
theorem chunkView_streamChunkToJson (job : WorkerJob) (created : Int)
    (token : CBuf tokenTextMax) :
    chunkView job.type (streamChunkToJson (chunkOfToken job created token)) =
      some ⟨job.requestId.text, job.type.chunkObject, roundDouble created, job.modelId.text,
        roundDouble 0, token.text⟩ := by
  by_cases hfull : job.type = .completion ∨ token.text ≠ []
  · rw [streamChunkToJson_eq hfull]
    exact chunkView_payload job created token.text
  · rw [not_or, not_not] at hfull
    rcases hfull with ⟨hne, hempty⟩
    have htype : job.type = .chat := by
      cases htype : job.type with
      | chat => rfl
      | completion => exact absurd htype hne
    have htree : streamChunkToJson (chunkOfToken job created token) =
        chunkJson job.requestId.text job.type.chunkObject job.modelId.text created (.object
          [numberItem "index" 0, (ascii "delta", .object []),
            (ascii "finish_reason", .null)]) := by
      simp [streamChunkToJson, chunkOfToken, htype, hempty, chunkJson, JobType.chunkObject]
    rw [htree, hempty, htype]
    exact chunkView_object (contentItem_ne_finish .chat []) rfl

/-- The request id of a payload that decodes was read up to its closing quote. -/
theorem scan_of_decode {token : CBuf tokenTextMax} {s : Bytes}
    (h : decode (chunkPayload esc job created token) = some v) (hs : stringAt v "id" = some s) :
    ∃ rest, scanString (job.requestId.text ++ 34 :: 44 ::
      objectText esc job created token.text) = some (s, rest) := by
  have hkey : Plain (ascii "id") := by decide
  rcases decode_payload esc job created token with ⟨fuel, hdecode⟩
  rw [hdecode] at h
  cases hmembers : parseMembers (fuel + 13) (34 :: (ascii "id" ++ 34 :: 58 :: 34 ::
      (job.requestId.text ++ 34 :: 44 :: objectText esc job created token.text))) with
  | none => simp [hmembers] at h
  | some r =>
      rcases r with ⟨members, rest⟩
      rcases parseMembers_head hkey hmembers with ⟨x, behind, tail, hx, rfl⟩
      simp only [hmembers] at h
      split_ifs at h
      cases h
      obtain rfl := string_of_stringAt_cons rfl hs
      rw [parseValue_string] at hx
      rcases Option.map_eq_some_iff.1 hx with ⟨r, hscan, heq⟩
      cases heq
      exact ⟨r.2, hscan⟩

/-- With a plain request id, the same holds of the model id. -/
theorem scan_model_of_decode {token : CBuf tokenTextMax} {s : Bytes}
    (hid : Plain job.requestId.text)
    (h : decode (chunkPayload esc job created token) = some v)
    (hs : stringAt v "model" = some s) :
    ∃ rest, scanString (job.modelId.text ++ 34 :: 44 ::
      choicesText esc job.type token.text) = some (s, rest) := by
  have hkey : Plain (ascii "id") := by decide
  have hmodel : Plain (ascii "model") := by decide
  rcases decode_payload esc job created token with ⟨fuel, hdecode⟩
  rw [hdecode, parseMembers_more hkey (parseValue_plain hid _ _), parse_object] at h
  cases hmembers : parseMembers (fuel + 10) (modelText esc job token.text) with
  | none => simp [hmembers] at h
  | some r =>
      rcases r with ⟨members, rest⟩
      have hmembers' := hmembers
      rw [modelText] at hmembers'
      rcases parseMembers_head hmodel hmembers' with ⟨x, behind, tail, hx, rfl⟩
      simp only [hmembers, Option.map_some] at h
      split_ifs at h
      cases h
      rw [stringAt_cons_of_ne (by decide), stringItem, stringAt_cons_of_ne (by decide), numberItem,
        stringAt_cons_of_ne (by decide)] at hs
      obtain rfl := string_of_stringAt_cons rfl hs
      rw [parseValue_string] at hx
      rcases Option.map_eq_some_iff.1 hx with ⟨r, hscan, heq⟩
      cases heq
      exact ⟨r.2, hscan⟩

end Read

/-! ## Agreement -/

/-- A payload that says what the serializer says has ids that need no escaping. -/
theorem plain_of_chunkAgrees {esc : Bytes → Bytes} {job : WorkerJob} {created : Int}
    {token : CBuf tokenTextMax} (h : ChunkAgrees esc job created token) :
    Plain job.requestId.text ∧ Plain job.modelId.text := by
  rcases h with ⟨v, view, hdecode, hview, hsame⟩
  have htree := chunkView_streamChunkToJson job created token
  obtain rfl := Option.some.inj (htree.symm.trans hsame)
  rcases stringAt_of_chunkView hview with ⟨hid, hmodel⟩
  rcases scan_of_decode hdecode hid with ⟨_, hidScan⟩
  have hplain := plain_of_scanString hidScan
  rcases scan_model_of_decode hplain hdecode hmodel with ⟨_, hmodelScan⟩
  exact ⟨hplain, plain_of_scanString hmodelScan⟩

/-- The two formatters agree on a token exactly if neither id needs escaping. -/
theorem chunk_agrees_iff {esc : Bytes → Bytes} (hesc : EscapesJson esc) (job : WorkerJob)
    (created : Int) (token : CBuf tokenTextMax) :
    ChunkAgrees esc job created token ↔
      Plain job.requestId.text ∧ Plain job.modelId.text := by
  constructor
  · exact plain_of_chunkAgrees
  · rintro ⟨hid, hmodel⟩
    exact ⟨_, _, decode_of_plain hesc hid hmodel, chunkView_payload job created token.text,
      chunkView_streamChunkToJson job created token⟩

namespace Sample

def chunkJob (model : String) : WorkerJob :=
  { workerJobInit with
    requestId := CBuf.snprintf (ascii "chatcmpl-0a1b2c")
    modelId := CBuf.snprintf (ascii model) }

/-- A token with a quote and a line break in it. -/
def quoteToken : CBuf tokenTextMax :=
  CBuf.snprintf (ascii "say \"hi\"\n")

theorem chunk_agrees_quoteToken :
    ChunkAgrees escapeJson (chunkJob "my-model") 1700000000 quoteToken :=
  (chunk_agrees_iff (fun text _ => scanString_escapeJson text) _ _ _).2 ⟨by decide, by decide⟩

end Sample

/-- An alias with a quote ends its string literal early. -/
theorem not_chunk_agrees :
    ¬ ∀ (esc : Bytes → Bytes), EscapesJson esc → ∀ (job : WorkerJob) (created : Int)
      (token : CBuf tokenTextMax), ChunkAgrees esc job created token := by
  intro h
  have hagrees := h escapeJson (fun text _ => scanString_escapeJson text)
    (Sample.chunkJob "my\"model") 1700000000 Sample.quoteToken
  have hplain := (plain_of_chunkAgrees hagrees).2
  revert hplain
  decide

end Professord
