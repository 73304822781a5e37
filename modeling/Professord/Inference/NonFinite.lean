import Mathlib.Algebra.Order.Ring.Abs
import Professord.Api.Parse
import Professord.Config.Options
import Professord.Inference.Params

/-!
# NonFinite — float parameters that are not finite

The documentation replaces NaN and infinity by the configured default.  The resolver does so for
NaN, its sign for an absent field; an infinity, which a large JSON number becomes as a `float`,
goes into `clamp_f` and gives the lower bound.
-/

namespace Professord

open CText

/-- `r` is the value of `[lo, hi]` nearest to `q`. -/
def Nearest (q lo hi r : ℚ) : Prop :=
  lo ≤ r ∧ r ≤ hi ∧ ∀ x, lo ≤ x → x ≤ hi → |q - r| ≤ |q - x|

/-- The item is a JSON number that is the finite `float` `q`. -/
def FiniteItem (item : Option Json) (q : ℚ) : Prop :=
  ∃ v, item = some (.number v) ∧ v.toFloat = .fin q

/-- What the documentation says of a float parameter: a finite value is clamped, anything else is
the default. -/
structure Resolved (item : Option Json) (dflt : CFloat) (lo hi : ℚ) (p : CFloat) : Prop where
  clamped : ∀ q, FiniteItem item q → ∃ r, p = .fin r ∧ Nearest q lo hi r
  fallback : (∀ q, ¬ FiniteItem item q) → p = dflt

def Infinite (v : CFloat) : Prop :=
  v = .posInf ∨ v = .negInf

instance (v : CFloat) : Decidable (Infinite v) :=
  inferInstanceAs (Decidable (_ ∨ _))

/-! ## One parameter -/

theorem finiteItem_iff {root : Json} {name : String} {q : ℚ} :
    FiniteItem (root.getObjectItem (ascii name)) q ↔ floatField root name = .fin q := by
  unfold FiniteItem floatField
  cases root.getObjectItem (ascii name) with
  | none => simp
  | some item => cases item <;> simp

theorem clampF_nearest {lo hi : ℚ} (hle : lo ≤ hi) (q : ℚ) :
    ∃ r, clampF (.fin q) (.fin lo) (.fin hi) = .fin r ∧ Nearest q lo hi r := by
  have hclamp : clampF (.fin q) (.fin lo) (.fin hi) =
      if q < lo then .fin lo else if hi < q then .fin hi else .fin q := by
    simp [clampF, CFloat.lt_fin]
  rw [hclamp]
  split_ifs with hbelow habove
  · refine ⟨lo, rfl, le_refl lo, hle, fun x hx _ => ?_⟩
    rw [abs_sub_comm q lo, abs_sub_comm q x, abs_of_pos (sub_pos.2 hbelow),
      abs_of_pos (sub_pos.2 (lt_of_lt_of_le hbelow hx))]
    exact sub_le_sub_right hx q
  · refine ⟨hi, rfl, hle, le_refl hi, fun x _ hx => ?_⟩
    rw [abs_of_pos (sub_pos.2 habove), abs_of_pos (sub_pos.2 (lt_of_le_of_lt hx habove))]
    exact sub_le_sub_left hx q
  · refine ⟨q, rfl, not_lt.1 hbelow, not_lt.1 habove, fun x _ _ => ?_⟩
    rw [sub_self, abs_zero]
    exact abs_nonneg _

theorem resolved_infinite_iff {root : Json} {name : String} {v dflt : CFloat} {lo hi : ℚ}
    (hv : floatField root name = v) (hinf : Infinite v) :
    Resolved (root.getObjectItem (ascii name)) dflt lo hi (resolveF v dflt (.fin lo) (.fin hi)) ↔
      (Infinite v → dflt = .fin lo) := by
  have hlo : resolveF v dflt (.fin lo) (.fin hi) = .fin lo := by
    rcases hinf with rfl | rfl <;> simp [resolveF, clampF]
  have hnone : ∀ q, ¬ FiniteItem (root.getObjectItem (ascii name)) q := by
    intro q hq
    rw [finiteItem_iff, hv] at hq
    rcases hinf with rfl | rfl <;> cases hq
  rw [hlo]
  constructor
  · exact fun h _ => (h.fallback hnone).symm
  · exact fun h => ⟨fun q hq => absurd hq (hnone q), fun _ => (h hinf).symm⟩

/-- A parameter is resolved as documented exactly if an infinite value finds the lower bound as the
default. -/
theorem resolved_iff {root : Json} {name : String} {dflt : CFloat} {lo hi : ℚ} (hle : lo ≤ hi) :
    Resolved (root.getObjectItem (ascii name)) dflt lo hi
        (resolveF (floatField root name) dflt (.fin lo) (.fin hi)) ↔
      (Infinite (floatField root name) → dflt = .fin lo) := by
  have hitem : ∀ q, FiniteItem (root.getObjectItem (ascii name)) q ↔
      floatField root name = .fin q := fun q => finiteItem_iff
  -- the four kinds of value that the field may have
  cases hv : floatField root name with
  | nan =>
      refine iff_of_true ⟨fun q hq => ?_, fun _ => rfl⟩ (by simp [Infinite])
      rw [hitem, hv] at hq
      cases hq
  | fin q =>
      refine iff_of_true ⟨fun x hx => ?_, fun hnone => ?_⟩ (by simp [Infinite])
      · rw [hitem, hv] at hx
        obtain rfl : q = x := by simpa using hx
        rw [resolveF, if_neg (by simp)]
        exact clampF_nearest hle q
      · exact absurd ((hitem q).2 hv) (hnone q)
  | posInf => exact resolved_infinite_iff hv (.inl rfl)
  | negInf => exact resolved_infinite_iff hv (.inr rfl)

/-! ## Both endpoints -/

/-- The parameters that both endpoints have. -/
structure FloatsResolved (cfg : Config) (root : Json) (p : SampleParams) : Prop where
  temperature : Resolved (root.getObjectItem (ascii "temperature")) cfg.temperature 0 2
    p.temperature
  topP : Resolved (root.getObjectItem (ascii "top_p")) cfg.topP (5368709 / 2 ^ 29) 1 p.topP
  repeatPenalty : Resolved (root.getObjectItem (ascii "repeat_penalty")) cfg.repeatPenalty 1 2
    p.repeatPenalty

/-- The parameters that only chat requests have, with the default 0. -/
structure PenaltiesResolved (root : Json) (p : SampleParams) : Prop where
  frequency : Resolved (root.getObjectItem (ascii "frequency_penalty")) (.fin 0) 0 2
    p.frequencyPenalty
  presence : Resolved (root.getObjectItem (ascii "presence_penalty")) (.fin 0) 0 2
    p.presencePenalty

/-- A field is infinite only where the configured default is the lower bound of its range. -/
structure InfinityHarmless (cfg : Config) (root : Json) : Prop where
  temperature : Infinite (floatField root "temperature") → cfg.temperature = .fin 0
  topP : Infinite (floatField root "top_p") → cfg.topP = topPMin
  repeatPenalty : Infinite (floatField root "repeat_penalty") → cfg.repeatPenalty = .fin 1

theorem floatsResolved_iff {cfg : Config} {root : Json} {p : SampleParams}
    (htemperature : p.temperature =
      resolveF (floatField root "temperature") cfg.temperature (.fin 0) (.fin 2))
    (htopP : p.topP = resolveF (floatField root "top_p") cfg.topP topPMin (.fin 1))
    (hrepeat : p.repeatPenalty =
      resolveF (floatField root "repeat_penalty") cfg.repeatPenalty (.fin 1) (.fin 2)) :
    FloatsResolved cfg root p ↔ InfinityHarmless cfg root := by
  have htemp := @resolved_iff root "temperature" cfg.temperature 0 2 (by norm_num)
  have htop := @resolved_iff root "top_p" cfg.topP (5368709 / 2 ^ 29) 1 (by norm_num)
  have hrep := @resolved_iff root "repeat_penalty" cfg.repeatPenalty 1 2 (by norm_num)
  rw [← htemperature] at htemp
  rw [← topPMin, ← htopP] at htop
  rw [← hrepeat] at hrep
  constructor
  · exact fun h => ⟨htemp.1 h.temperature, htop.1 h.topP, hrep.1 h.repeatPenalty⟩
  · exact fun h => ⟨htemp.2 h.temperature, htop.2 h.topP, hrep.2 h.repeatPenalty⟩

/-- On both endpoints the float parameters are resolved as documented exactly if no field is
infinite where that makes a difference; the penalties always are. -/
theorem nonfinite_default_iff {env : ParseEnv} {cfg : Config} {body : Bytes} {root : Json}
    (hroot : env.parseWithLength body = some root) :
    (∀ req, chatRequestParse env body = some req →
      (FloatsResolved cfg root (inferenceResolveParams cfg req) ∧
          PenaltiesResolved root (inferenceResolveParams cfg req) ↔
        InfinityHarmless cfg root)) ∧
    (∀ req, completionRequestParse env body = some req →
      (FloatsResolved cfg root (inferenceResolveParamsCompletion cfg req) ↔
        InfinityHarmless cfg root)) := by
  have hpenalty : ∀ name : String, Resolved (root.getObjectItem (ascii name)) (.fin 0) 0 2
      (resolveF (floatField root name) (.fin 0) (.fin 0) (.fin 2)) :=
    fun name => (resolved_iff (by norm_num)).2 fun _ => rfl
  constructor
  · intro req hreq
    rw [chatRequestParse, hroot, Option.bind_some] at hreq
    obtain ⟨msgs, _, rfl⟩ := chatRequestOfJson_eq_some hreq
    rw [floatsResolved_iff rfl rfl rfl]
    exact and_iff_left ⟨hpenalty _, hpenalty _⟩
  · intro req hreq
    rw [completionRequestParse, hroot, Option.bind_some] at hreq
    obtain ⟨prompt, _, rfl⟩ := completionRequestOfJson_eq_some hreq
    exact floatsResolved_iff rfl rfl rfl

/-! ### A temperature that no `float` holds -/

namespace Sample

/-- `2^128` is a `double`, but too large for a `float`. -/
def largeBody : Bytes :=
  ascii "\x7b\"prompt\":\"hi\",\"temperature\":340282366920938463463374607431768211456\x7d"

def temperatureJson (v : CFloat) : Json :=
  .object [(ascii "prompt", .string (ascii "hi")), (ascii "temperature", .number v)]

def temperatureRequest (v : CFloat) : CompletionRequest where
  model := default
  prompt := CBuf.snprintf (ascii "hi")
  temperature := v.toFloat
  topP := .nan
  maxTokens := -1
  repeatPenalty := .nan
  stop := default
  stream := false

theorem knows_self (body : Bytes) (root : Json) :
    (knows body root).parseWithLength body = some root :=
  if_pos rfl

theorem temperature_parsed (body : Bytes) (v : CFloat) :
    completionRequestParse (knows body (temperatureJson v)) body =
      some (temperatureRequest v) := by
  rw [completionRequestParse, knows_self]
  rfl

/-- The value of `3.5`, which is clamped to 2. -/
def warmBody : Bytes :=
  ascii "\x7b\"prompt\":\"hi\",\"temperature\":3.5\x7d"

theorem nonfinite_default_warm :
    FloatsResolved configDefaults (temperatureJson (.fin (7 / 2)))
      (inferenceResolveParamsCompletion configDefaults (temperatureRequest (.fin (7 / 2)))) := by
  have hroot := knows_self warmBody (temperatureJson (.fin (7 / 2)))
  have hharmless : InfinityHarmless configDefaults (temperatureJson (.fin (7 / 2))) := by
    refine ⟨fun h => ?_, fun h => ?_, fun h => ?_⟩ <;> exact absurd h (by decide +kernel)
  exact ((nonfinite_default_iff hroot).2 _ (temperature_parsed warmBody _)).2 hharmless

end Sample

/-- The temperature 0 instead of the configured 0.7. -/
theorem not_nonfinite_default :
    ¬ ∀ (env : ParseEnv) (cfg : Config) (body : Bytes) (root : Json) (req : CompletionRequest),
      env.parseWithLength body = some root → completionRequestParse env body = some req →
      FloatsResolved cfg root (inferenceResolveParamsCompletion cfg req) := by
  intro h
  have hresolved := h (Sample.knows Sample.largeBody (Sample.temperatureJson (.fin (2 ^ 128))))
    configDefaults Sample.largeBody _ _ (Sample.knows_self _ _) (Sample.temperature_parsed _ _)
  have hinfinite : (CFloat.fin (2 ^ 128)).toFloat = .posInf := by decide +kernel
  have hnone : ∀ q, ¬ FiniteItem (some (.number (.fin (2 ^ 128)))) q := by
    rintro q ⟨v, hv, hq⟩
    cases hv
    rw [hinfinite] at hq
    cases hq
  have hdefault := hresolved.temperature.fallback hnone
  revert hdefault
  decide +kernel

end Professord
