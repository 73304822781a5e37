import Professord.Api.Parse
import Professord.Config.Options
import Professord.Inference.Params

/-!
# ParamRange — the ranges of resolved sampling parameters

A value that comes with the request is clamped; a value that the request leaves out is the
configured default as it stands, and `config_validate` looks at `n_ctx` and `max_tokens` only.  So
the resolved parameters are in their documented ranges exactly when `top_k` and the defaults that
the request falls back to are.
-/

namespace Professord

open CText

/-- A clamped value lies between the bounds, whatever was clamped. -/
theorem clampF_within {lo hi : ℚ} (hle : lo ≤ hi) (v : CFloat) :
    (clampF v (.fin lo) (.fin hi)).Within lo hi := by
  have hlo : (CFloat.fin lo).Within lo hi := ⟨le_refl lo, hle⟩
  have hhi : (CFloat.fin hi).Within lo hi := ⟨hle, le_refl hi⟩
  unfold clampF
  split_ifs with hspecial hbelow habove
  · exact hlo
  · exact hlo
  · exact hhi
  · cases v with
    | nan => simp at hspecial
    | negInf => simp at hspecial
    | posInf => simp at hspecial
    | fin q =>
        rw [CFloat.lt_fin] at hbelow habove
        exact ⟨not_lt.1 hbelow, not_lt.1 habove⟩

theorem clampI_range {lo hi : Int} (hle : lo ≤ hi) (v : Int) :
    lo ≤ clampI v lo hi ∧ clampI v lo hi ≤ hi := by
  unfold clampI
  split_ifs with hbelow habove <;> omega

/-- A float parameter is in range exactly when a default it falls back to is. -/
theorem resolveF_within_iff {lo hi : ℚ} (hle : lo ≤ hi) (v dflt : CFloat) :
    (resolveF v dflt (.fin lo) (.fin hi)).Within lo hi ↔ (v = .nan → dflt.Within lo hi) := by
  unfold resolveF
  split_ifs with hnan
  · exact ⟨fun h _ => h, fun h => h hnan⟩
  · exact ⟨fun _ h => absurd h hnan, fun _ => clampF_within hle v⟩

theorem resolveMaxTokens_range {cfg : Config} (hvalid : cfg.Valid) (v : Int) :
    1 ≤ resolveMaxTokens cfg v ∧ resolveMaxTokens cfg v ≤ cfg.nCtx := by
  unfold resolveMaxTokens
  split_ifs with hdefault
  · exact ⟨hvalid.maxTokens_pos, hvalid.maxTokens_le⟩
  · exact clampI_range hvalid.nCtx_pos v

/-! ## The documented ranges -/

structure SampleParams.InRange (cfg : Config) (p : SampleParams) : Prop where
  temperature : p.temperature.Within 0 2
  topP : p.topP.WithinAbove 0 1
  topK : 1 ≤ p.topK
  repeatPenalty : p.repeatPenalty.Within 1 2
  frequencyPenalty : p.frequencyPenalty.Within 0 2
  presencePenalty : p.presencePenalty.Within 0 2
  maxTokens_pos : 1 ≤ p.maxTokens
  maxTokens_le : p.maxTokens ≤ cfg.nCtx

/-- `top_k`, and each float default that the request body falls back to, is in its range. -/
structure DefaultsInRange (cfg : Config) (root : Json) : Prop where
  topK : 1 ≤ cfg.topK
  temperature : floatField root "temperature" = .nan → cfg.temperature.Within 0 2
  topP : floatField root "top_p" = .nan → cfg.topP.WithinAbove 0 1
  repeatPenalty : floatField root "repeat_penalty" = .nan → cfg.repeatPenalty.Within 1 2

theorem resolveF_topP_iff (v dflt : CFloat) :
    (resolveF v dflt topPMin (.fin 1)).WithinAbove 0 1 ↔ (v = .nan → dflt.WithinAbove 0 1) := by
  unfold resolveF
  split_ifs with hnan
  · exact ⟨fun h _ => h, fun h => h hnan⟩
  · refine ⟨fun _ h => absurd h hnan, fun _ => ?_⟩
    have hwithin : (clampF v topPMin (.fin 1)).Within (5368709 / 2 ^ 29) 1 :=
      clampF_within (by norm_num) v
    cases hclamped : clampF v topPMin (.fin 1) with
    | fin q =>
        rw [hclamped] at hwithin
        exact ⟨lt_of_lt_of_le (by norm_num) hwithin.1, hwithin.2⟩
    | nan =>
        rw [hclamped] at hwithin
        exact hwithin.elim
    | negInf =>
        rw [hclamped] at hwithin
        exact hwithin.elim
    | posInf =>
        rw [hclamped] at hwithin
        exact hwithin.elim

/-- Both resolvers come down to this: the shared fields decide, the penalties are always in
range. -/
theorem inRange_iff {cfg : Config} {root : Json} {p : SampleParams} {vmax : Int}
    (hvalid : cfg.Valid)
    (htemp : p.temperature =
      resolveF (floatField root "temperature") cfg.temperature (.fin 0) (.fin 2))
    (htopP : p.topP = resolveF (floatField root "top_p") cfg.topP topPMin (.fin 1))
    (htopK : p.topK = cfg.topK)
    (hrepeat : p.repeatPenalty =
      resolveF (floatField root "repeat_penalty") cfg.repeatPenalty (.fin 1) (.fin 2))
    (hfrequency : p.frequencyPenalty.Within 0 2)
    (hpresence : p.presencePenalty.Within 0 2)
    (hmax : p.maxTokens = resolveMaxTokens cfg vmax) :
    p.InRange cfg ↔ DefaultsInRange cfg root := by
  have htokens := resolveMaxTokens_range hvalid vmax
  constructor
  · intro h
    refine ⟨htopK ▸ h.topK, ?_, ?_, ?_⟩
    · exact (resolveF_within_iff (by norm_num) _ _).1 (htemp ▸ h.temperature)
    · exact (resolveF_topP_iff _ _).1 (htopP ▸ h.topP)
    · exact (resolveF_within_iff (by norm_num) _ _).1 (hrepeat ▸ h.repeatPenalty)
  · intro h
    refine ⟨?_, ?_, htopK ▸ h.topK, ?_, hfrequency, hpresence, ?_, ?_⟩
    · exact htemp ▸ (resolveF_within_iff (by norm_num) _ _).2 h.temperature
    · exact htopP ▸ (resolveF_topP_iff _ _).2 h.topP
    · exact hrepeat ▸ (resolveF_within_iff (by norm_num) _ _).2 h.repeatPenalty
    · rw [hmax]; exact htokens.1
    · rw [hmax]; exact htokens.2

theorem zero_within : (CFloat.fin 0).Within 0 2 :=
  ⟨le_refl 0, by norm_num⟩

theorem penalty_within (v : CFloat) : (resolveF v (.fin 0) (.fin 0) (.fin 2)).Within 0 2 :=
  (resolveF_within_iff (by norm_num) v (.fin 0)).2 fun _ => zero_within

theorem resolved_params_in_range {env : ParseEnv} {cfg : Config} {body : Bytes} {root : Json}
    (hvalid : configValidate cfg = 0) (hroot : env.parseWithLength body = some root) :
    (∀ req, chatRequestParse env body = some req →
      ((inferenceResolveParams cfg req).InRange cfg ↔ DefaultsInRange cfg root)) ∧
    (∀ req, completionRequestParse env body = some req →
      ((inferenceResolveParamsCompletion cfg req).InRange cfg ↔ DefaultsInRange cfg root)) := by
  have hcfg : cfg.Valid := configValidate_eq_zero_iff.1 hvalid
  constructor
  · intro req hreq
    rw [chatRequestParse, hroot, Option.bind_some] at hreq
    obtain ⟨msgs, _, rfl⟩ := chatRequestOfJson_eq_some hreq
    exact inRange_iff hcfg rfl rfl rfl rfl (penalty_within _) (penalty_within _) rfl
  · intro req hreq
    rw [completionRequestParse, hroot, Option.bind_some] at hreq
    obtain ⟨prompt, _, rfl⟩ := completionRequestOfJson_eq_some hreq
    exact inRange_iff hcfg rfl rfl rfl rfl zero_within zero_within rfl

/-! ### A hot default -/

namespace Sample

def promptBody : Bytes := ascii "\x7b\"prompt\": \"hi\"\x7d"

def promptJson : Json := .object [(ascii "prompt", .string (ascii "hi"))]

def config : Config :=
  { configDefaults with modelPath := CBuf.snprintf (ascii "m.gguf") }

/-- `temperature = 5` is accepted. -/
def hotConfig : Config :=
  { config with temperature := .fin 5 }

def promptRequest : CompletionRequest where
  model := default
  prompt := CBuf.snprintf (ascii "hi")
  temperature := .nan
  topP := .nan
  maxTokens := -1
  repeatPenalty := .nan
  stop := default
  stream := false

theorem config_valid : configValidate config = 0 := by decide

theorem hotConfig_valid : configValidate hotConfig = 0 := by decide

theorem promptRequest_parsed :
    completionRequestParse (knows promptBody promptJson) promptBody = some promptRequest := by
  decide

theorem config_defaultsInRange : DefaultsInRange config promptJson where
  topK := by decide
  temperature := fun _ => ⟨by norm_num, by norm_num⟩
  topP := fun _ => ⟨by norm_num, by norm_num⟩
  repeatPenalty := fun _ => ⟨by norm_num, by norm_num⟩

theorem resolved_params_in_range_defaults :
    (inferenceResolveParamsCompletion config promptRequest).InRange config := by
  have hroot : (knows promptBody promptJson).parseWithLength promptBody = some promptJson := rfl
  exact ((resolved_params_in_range config_valid hroot).2 promptRequest promptRequest_parsed).2
    config_defaultsInRange

end Sample

theorem not_resolved_params_in_range :
    ¬ ∀ (env : ParseEnv) (cfg : Config) (body : Bytes), configValidate cfg = 0 →
      (∀ req, chatRequestParse env body = some req →
        (inferenceResolveParams cfg req).InRange cfg) ∧
      (∀ req, completionRequestParse env body = some req →
        (inferenceResolveParamsCompletion cfg req).InRange cfg) := by
  intro h
  have hrange := (h (Sample.knows Sample.promptBody Sample.promptJson) Sample.hotConfig
    Sample.promptBody Sample.hotConfig_valid).2 Sample.promptRequest Sample.promptRequest_parsed
  have htemp : (CFloat.fin 5).Within 0 2 := hrange.temperature
  exact absurd htemp.2 (by norm_num)

end Professord
