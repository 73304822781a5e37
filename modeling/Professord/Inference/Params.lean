import Professord.ApiTypes

/-!
# Params — resolving a request against the configuration

`inference_resolve_params` and `inference_resolve_params_completion`.
-/

namespace Professord

/-- The value of the literal `0.01f`. -/
def topPMin : CFloat :=
  .fin (5368709 / 2 ^ 29)

def clampF (v lo hi : CFloat) : CFloat :=
  if v = .nan || v = .posInf || v = .negInf then
    lo
  else if v.lt lo then
    lo
  else if hi.lt v then
    hi
  else
    v

def clampI (v lo hi : Int) : Int :=
  if v < lo then lo else if v > hi then hi else v

/-- A float parameter: the NaN sentinel takes the default, anything else is clamped. -/
def resolveF (v dflt lo hi : CFloat) : CFloat :=
  if v = .nan then dflt else clampF v lo hi

def resolveMaxTokens (cfg : Config) (v : Int) : Int :=
  if v = -1 then cfg.maxTokens else clampI v 1 cfg.nCtx

def inferenceResolveParams (cfg : Config) (req : ChatRequest) : SampleParams where
  temperature := resolveF req.temperature cfg.temperature (.fin 0) (.fin 2)
  topP := resolveF req.topP cfg.topP topPMin (.fin 1)
  topK := cfg.topK
  repeatPenalty := resolveF req.repeatPenalty cfg.repeatPenalty (.fin 1) (.fin 2)
  frequencyPenalty := resolveF req.frequencyPenalty (.fin 0) (.fin 0) (.fin 2)
  presencePenalty := resolveF req.presencePenalty (.fin 0) (.fin 0) (.fin 2)
  maxTokens := resolveMaxTokens cfg req.maxTokens
  maxInferenceSeconds := cfg.maxInferenceSeconds
  stop := req.stop

def inferenceResolveParamsCompletion (cfg : Config) (req : CompletionRequest) : SampleParams where
  temperature := resolveF req.temperature cfg.temperature (.fin 0) (.fin 2)
  topP := resolveF req.topP cfg.topP topPMin (.fin 1)
  topK := cfg.topK
  repeatPenalty := resolveF req.repeatPenalty cfg.repeatPenalty (.fin 1) (.fin 2)
  frequencyPenalty := .fin 0
  presencePenalty := .fin 0
  maxTokens := resolveMaxTokens cfg req.maxTokens
  maxInferenceSeconds := cfg.maxInferenceSeconds
  stop := req.stop

end Professord
