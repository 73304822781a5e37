import Professord.Api.Parse
import Professord.Config.Options
import Professord.Inference.Params

/-!
# SameParams — one body at the two endpoints

The two parsers and the two resolvers are copies of each other.  The completion copy knows no
penalties and takes `stop` as an array only, so the parameters agree exactly for bodies in which
that makes no difference.
-/

namespace Professord

open CText

/-- A penalty field that is clamped to zero. -/
def NoPenalty : CFloat → Prop
  | .fin q => q ≤ 0
  | .nan | .negInf | .posInf => True

theorem resolve_penalty_eq_zero_iff (v : CFloat) :
    resolveF v (.fin 0) (.fin 0) (.fin 2) = .fin 0 ↔ NoPenalty v := by
  cases v with
  | nan => simp [resolveF, NoPenalty]
  | negInf => simp [resolveF, clampF, NoPenalty]
  | posInf => simp [resolveF, clampF, NoPenalty]
  | fin q =>
      have hclamp : resolveF (.fin q) (.fin 0) (.fin 0) (.fin 2) =
          if q < 0 then .fin 0 else if 2 < q then .fin 2 else .fin q := by
        simp [resolveF, clampF, CFloat.lt_fin]
      rw [hclamp]
      constructor
      · intro h
        split_ifs at h with hneg habove
        -- clamped from below, clamped from above, and taken as it is
        · exact hneg.le
        · cases h
        · cases h
          exact le_refl (0 : ℚ)
      · intro h
        split_ifs with hneg habove
        · rfl
        · exact absurd (lt_of_lt_of_le habove h) (by norm_num)
        · rw [le_antisymm h (not_lt.1 hneg)]

/-- The fields that only the chat endpoint understands make no difference. -/
structure SharedFieldsOnly (root : Json) : Prop where
  frequency : NoPenalty (floatField root "frequency_penalty")
  presence : NoPenalty (floatField root "presence_penalty")
  stop : ∀ s, root.getObjectItem (ascii "stop") ≠ some (.string s)

theorem chatStop_eq_completionStop_iff (root : Json) :
    chatStop root = completionStop root ↔
      ∀ s, root.getObjectItem (ascii "stop") ≠ some (.string s) := by
  unfold chatStop completionStop
  cases root.getObjectItem (ascii "stop") with
  | none => simp
  | some item =>
      cases item with
      | string s => simp [default]
      | null => simp
      | bool b => simp
      | number v => simp
      | array items => simp
      | object members => simp

/-- A body that both endpoints accept gives the same parameters exactly when the fields only one of
them understands make no difference. -/
theorem same_params_iff {env : ParseEnv} {cfg : Config} {body : Bytes} {root : Json}
    {chat : ChatRequest} {completion : CompletionRequest}
    (hroot : env.parseWithLength body = some root)
    (hchat : chatRequestParse env body = some chat)
    (hcompletion : completionRequestParse env body = some completion) :
    (inferenceResolveParams cfg chat = inferenceResolveParamsCompletion cfg completion ∧
      chat.stream = completion.stream) ↔ SharedFieldsOnly root := by
  rw [chatRequestParse, hroot, Option.bind_some] at hchat
  rw [completionRequestParse, hroot, Option.bind_some] at hcompletion
  -- every field of the requests is now a field of `root`
  obtain ⟨msgs, _, rfl⟩ := chatRequestOfJson_eq_some hchat
  obtain ⟨prompt, _, rfl⟩ := completionRequestOfJson_eq_some hcompletion
  constructor
  · rintro ⟨hparams, _⟩
    -- the completion endpoint's penalties are zero, and its `stop` is the array's
    have hfrequency := congrArg SampleParams.frequencyPenalty hparams
    have hpresence := congrArg SampleParams.presencePenalty hparams
    have hstop := congrArg SampleParams.stop hparams
    exact ⟨(resolve_penalty_eq_zero_iff _).1 hfrequency, (resolve_penalty_eq_zero_iff _).1 hpresence,
      (chatStop_eq_completionStop_iff root).1 hstop⟩
  · intro h
    have hfrequency := (resolve_penalty_eq_zero_iff _).2 h.frequency
    have hpresence := (resolve_penalty_eq_zero_iff _).2 h.presence
    have hstop := (chatStop_eq_completionStop_iff root).2 h.stop
    refine ⟨?_, rfl⟩
    simp only [inferenceResolveParams, inferenceResolveParamsCompletion, hfrequency, hpresence,
      hstop]

/-! ### A body with one stop string -/

namespace Sample

/-- A body for either endpoint. -/
def sharedJson (stop : Json) : Json :=
  .object
    [ (ascii "messages", .array [.object [(ascii "role", .string (ascii "user"))]])
    , (ascii "prompt", .string (ascii "hi"))
    , (ascii "stop", stop) ]

def stopStringBody : Bytes :=
  ascii "\x7b\"messages\":[\x7b\"role\":\"user\"\x7d],\"prompt\":\"hi\",\"stop\":\".\"\x7d"

def stopArrayBody : Bytes :=
  ascii "\x7b\"messages\":[\x7b\"role\":\"user\"\x7d],\"prompt\":\"hi\",\"stop\":[\".\"]\x7d"

def userMessage : ChatMessage where
  role := CBuf.snprintf (ascii "user")
  content := default

def sharedChat : ChatRequest where
  model := default
  messages := some [userMessage]
  temperature := .nan
  topP := .nan
  maxTokens := -1
  frequencyPenalty := .nan
  presencePenalty := .nan
  repeatPenalty := .nan
  stop := ⟨[CBuf.snprintf (ascii ".")], by simp⟩
  stream := false

def sharedCompletion (stop : StopList) : CompletionRequest where
  model := default
  prompt := CBuf.snprintf (ascii "hi")
  temperature := .nan
  topP := .nan
  maxTokens := -1
  repeatPenalty := .nan
  stop := stop
  stream := false

/-- The same body with its stop string in an array. -/
def stopArrayJson : Json := sharedJson (.array [.string (ascii ".")])

theorem same_params_iff_stopArray :
    inferenceResolveParams configDefaults sharedChat =
        inferenceResolveParamsCompletion configDefaults (sharedCompletion sharedChat.stop) ∧
      sharedChat.stream = (sharedCompletion sharedChat.stop).stream := by
  have hroot : (knows stopArrayBody stopArrayJson).parseWithLength stopArrayBody =
      some stopArrayJson := by rfl
  have hchat : chatRequestParse (knows stopArrayBody stopArrayJson) stopArrayBody =
      some sharedChat := by rfl
  have hcompletion : completionRequestParse (knows stopArrayBody stopArrayJson) stopArrayBody =
      some (sharedCompletion sharedChat.stop) := by rfl
  have hfields : SharedFieldsOnly stopArrayJson := by
    refine ⟨trivial, trivial, fun s => ?_⟩
    have hstop : stopArrayJson.getObjectItem (ascii "stop") =
        some (.array [.string (ascii ".")]) := rfl
    simp [hstop]
  exact (same_params_iff hroot hchat hcompletion).2 hfields

end Sample

/-- A single stop string is a stop sequence at one endpoint and nothing at the other. -/
theorem not_same_params :
    ¬ ∀ (env : ParseEnv) (cfg : Config) (body : Bytes) (chat : ChatRequest)
      (completion : CompletionRequest),
      chatRequestParse env body = some chat → completionRequestParse env body = some completion →
      inferenceResolveParams cfg chat = inferenceResolveParamsCompletion cfg completion ∧
        chat.stream = completion.stream := by
  intro h
  have hsame := h (Sample.knows Sample.stopStringBody (Sample.sharedJson (.string (ascii "."))))
    configDefaults Sample.stopStringBody Sample.sharedChat (Sample.sharedCompletion default)
    (by rfl) (by rfl)
  have hstop := congrArg SampleParams.stop hsame.1
  exact absurd hstop (by decide)

end Professord
