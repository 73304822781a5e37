import Professord.Lib.CText
import Professord.Lib.CNum

/-!
# ApiTypes — request and response records (`api_types.h`, `config.h`, `inference.h`, `stats.h`)

Every `char[n]` field is a `CBuf n`, so its text fits and is NUL-free by construction; a stop list
carries its bound of `PROF_STOP_MAX` entries.
-/

namespace Professord

/-! ## Limits -/

abbrev profModelMax : Nat := 128
abbrev profRoleMax : Nat := 32
abbrev profContentMax : Nat := 65536
abbrev profStopMax : Nat := 4
abbrev profStopLen : Nat := 64
abbrev profIdMax : Nat := 64

abbrev profMaxBodyBytes : Nat := 1 * 1024 * 1024
abbrev profMaxPromptBytes : Nat := 256 * 1024
abbrev profMaxConnections : Nat := 32

abbrev profPathMax : Nat := 512
abbrev profAddrMax : Nat := 64
abbrev profNameMax : Nat := 128
abbrev profKeyMax : Nat := 128
abbrev profAclMax : Nat := 16

/-! Every text field has room for its terminator; fields of one size share the instance. -/

instance : NeZero profRoleMax := ⟨by decide⟩
instance : NeZero profStopLen := ⟨by decide⟩
instance : NeZero profModelMax := ⟨by decide⟩
instance : NeZero profPathMax := ⟨by decide⟩
instance : NeZero profContentMax := ⟨by decide⟩

/-! ## Requests -/

/-- The texts of `char finish_reason[32]`; a zeroed field is `unset`. -/
inductive FinishReason
  | unset
  | length
  | stop
  | abort
  | timeLimit
  | contextOverflow
  | backendError
  deriving DecidableEq, Repr

def FinishReason.text : FinishReason → String
  | .unset => ""
  | .length => "length"
  | .stop => "stop"
  | .abort => "abort"
  | .timeLimit => "time_limit"
  | .contextOverflow => "context_overflow"
  | .backendError => "backend_error"

/-- The first `stop_count` entries of `char stop[PROF_STOP_MAX][PROF_STOP_LEN]`. -/
structure StopList where
  entries : List (CBuf profStopLen)
  bounded : entries.length ≤ profStopMax
  deriving DecidableEq

instance : Inhabited StopList := ⟨⟨[], by simp⟩⟩

/-- The stop strings as texts. -/
def StopList.texts (l : StopList) : List Bytes :=
  l.entries.map CBuf.text

structure ChatMessage where
  role : CBuf profRoleMax
  content : CBuf profContentMax
  deriving DecidableEq, Inhabited

structure ChatRequest where
  model : CBuf profModelMax
  /-- `none` is the null pointer. -/
  messages : Option (List ChatMessage)
  temperature : CFloat
  topP : CFloat
  maxTokens : Int
  frequencyPenalty : CFloat
  presencePenalty : CFloat
  repeatPenalty : CFloat
  stop : StopList
  stream : Bool
  deriving DecidableEq, Inhabited

structure CompletionRequest where
  model : CBuf profModelMax
  prompt : CBuf profContentMax
  temperature : CFloat
  topP : CFloat
  maxTokens : Int
  repeatPenalty : CFloat
  stop : StopList
  stream : Bool
  deriving DecidableEq, Inhabited

/-- `sample_params_t` -/
structure SampleParams where
  temperature : CFloat
  topP : CFloat
  topK : Int
  repeatPenalty : CFloat
  frequencyPenalty : CFloat
  presencePenalty : CFloat
  maxTokens : Int
  maxInferenceSeconds : Int
  stop : StopList
  deriving DecidableEq, Inhabited

/-! ## Responses -/

structure Usage where
  promptTokens : Int
  completionTokens : Int
  totalTokens : Int
  deriving DecidableEq, Repr

structure ChatResponse where
  id : CBuf profIdMax
  model : CBuf profModelMax
  content : CBuf profContentMax
  finishReason : FinishReason
  usage : Usage
  deriving DecidableEq

structure CompletionResponse where
  id : CBuf profIdMax
  model : CBuf profModelMax
  text : CBuf profContentMax
  finishReason : FinishReason
  usage : Usage
  deriving DecidableEq

/-- What a reply says. -/
inductive Body
  | health
  | whatIf
  | stats
  | models (modelId : CBuf profModelMax)
  | error (code : Nat) (message type : String)
  | chat (resp : ChatResponse)
  | completion (resp : CompletionResponse)
  /-- no JSON -/
  | text (t : String)
  deriving DecidableEq

structure Reply where
  status : Nat
  body : Body
  deriving DecidableEq

/-- One server-sent event of a streaming reply. -/
inductive SseEvent
  | token (text : Bytes)
  | final (finishReason : FinishReason)
  | done
  deriving DecidableEq, Repr

/-! ## Configuration and statistics -/

/-- `config_t` -/
structure Config where
  modelPath : CBuf profPathMax
  modelAlias : CBuf profNameMax
  nCtx : Int
  nGpuLayers : Int
  nBatch : Int
  nThreads : Int
  temperature : CFloat
  topP : CFloat
  topK : Int
  repeatPenalty : CFloat
  maxTokens : Int
  listenAddr : CBuf profAddrMax
  apiKey : CBuf profKeyMax
  acl : List (CBuf profAddrMax)
  acl_bounded : acl.length ≤ profAclMax
  maxInferenceSeconds : Int
  statsInterval : Int
  daemonize : Int
  pidFile : CBuf profPathMax
  logLevel : Int
  logFile : CBuf profPathMax
  configFile : CBuf profPathMax
  deriving DecidableEq

instance : Inhabited Config :=
  ⟨{ modelPath := default, modelAlias := default, nCtx := 0, nGpuLayers := 0, nBatch := 0
     nThreads := 0, temperature := default, topP := default, topK := 0, repeatPenalty := default
     maxTokens := 0, listenAddr := default, apiKey := default, acl := [], acl_bounded := by simp
     maxInferenceSeconds := 0, statsInterval := 0, daemonize := 0, pidFile := default
     logLevel := 0, logFile := default, configFile := default }⟩

/-- The counters of `stats_t`. -/
structure Stats where
  reqChat : Int := 0
  reqCompletion : Int := 0
  reqStream : Int := 0
  reqHealth : Int := 0
  reqModels : Int := 0
  err400 : Int := 0
  err401 : Int := 0
  err405 : Int := 0
  err503 : Int := 0
  err500 : Int := 0
  inferencesTotal : Int := 0
  tokensPromptTotal : Int := 0
  tokensCompletionTotal : Int := 0
  inferenceMsTotal : Int := 0
  connectionsTotal : Int := 0
  connectionsRejected : Int := 0
  connectionsActive : Int := 0
  generating : Bool := false
  deriving DecidableEq, Repr, Inhabited

end Professord
