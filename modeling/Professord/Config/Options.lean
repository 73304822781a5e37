import Professord.ApiTypes

/-!
# Options — defaults and validation of the configuration (`config.c`)
-/

namespace Professord

open CText

/-- The values of the literals `0.7f`, `0.9f` and `1.1f`. -/
def defaultTemperature : CFloat := .fin (11744051 / 2 ^ 24)

def defaultTopP : CFloat := .fin (7549747 / 2 ^ 23)

def defaultRepeatPenalty : CFloat := .fin (9227469 / 2 ^ 23)

def configDefaults : Config :=
  { (default : Config) with
    modelAlias := CBuf.snprintf (ascii "local-model")
    nCtx := 4096
    nGpuLayers := 99
    nBatch := 2048
    nThreads := 0
    temperature := defaultTemperature
    topP := defaultTopP
    topK := 40
    repeatPenalty := defaultRepeatPenalty
    maxTokens := 512
    listenAddr := CBuf.snprintf (ascii "127.0.0.1:8080")
    maxInferenceSeconds := 300
    statsInterval := 60
    pidFile := CBuf.snprintf (ascii "/run/professord/professord.pid")
    logLevel := 2 }

/-! ## `config_validate` -/

/-- What `config_validate` prints for the check that fails first. -/
def configError (cfg : Config) : Option String :=
  if cfg.modelPath.text = [] then
    some "Error: model_path is required (--model or config file)\n"
  else if cfg.nCtx ≤ 0 then
    some "Error: n_ctx must be > 0\n"
  else if cfg.maxTokens ≤ 0 ∨ cfg.nCtx < cfg.maxTokens then
    some "Error: max_tokens must be > 0 and <= n_ctx\n"
  else if ':'.toNat.toUInt8 ∉ cfg.listenAddr.text then
    some "Error: listen_addr must contain ':' (e.g., 127.0.0.1:8080)\n"
  else if cfg.maxInferenceSeconds ≤ 0 then
    some "Error: max_inference_seconds must be > 0\n"
  else
    none

def configValidate (cfg : Config) : Int :=
  if (configError cfg).isSome then -1 else 0

/-- What an accepted configuration is known to satisfy. -/
structure Config.Valid (cfg : Config) : Prop where
  model : cfg.modelPath.text ≠ []
  nCtx_pos : 0 < cfg.nCtx
  maxTokens_pos : 0 < cfg.maxTokens
  maxTokens_le : cfg.maxTokens ≤ cfg.nCtx
  port : ':'.toNat.toUInt8 ∈ cfg.listenAddr.text
  seconds_pos : 0 < cfg.maxInferenceSeconds

theorem configValidate_eq_zero_iff {cfg : Config} : configValidate cfg = 0 ↔ cfg.Valid := by
  constructor
  · intro h
    have hnone : configError cfg = none := by
      by_contra hsome
      simp [configValidate, Option.isSome_iff_ne_none.2 hsome] at h
    unfold configError at hnone
    split_ifs at hnone with hmodel hctx hmax hport hsec
    exact ⟨hmodel, by omega, by omega, by omega, hport, by omega⟩
  · intro h
    have hctx : ¬ cfg.nCtx ≤ 0 := by have := h.nCtx_pos; omega
    have hmax : ¬ (cfg.maxTokens ≤ 0 ∨ cfg.nCtx < cfg.maxTokens) := by
      have := h.maxTokens_pos
      have := h.maxTokens_le
      omega
    have hsec : ¬ cfg.maxInferenceSeconds ≤ 0 := by have := h.seconds_pos; omega
    have hport : ¬ ':'.toNat.toUInt8 ∉ cfg.listenAddr.text := not_not.2 h.port
    have hnone : configError cfg = none := by
      simp only [configError, if_neg h.model, if_neg hctx, if_neg hmax, if_neg hport, if_neg hsec]
    simp [configValidate, hnone]

end Professord
