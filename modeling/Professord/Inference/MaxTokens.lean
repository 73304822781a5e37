import Professord.Inference.ParamRange

/-!
# MaxTokens — the number of tokens a request asks for

A JSON number is truncated to an `int32_t`, where `-1` stands for a field that is missing, and then
clamped to `[1, n_ctx]`.  A number is taken at its word exactly when it fits `int32_t` and does not
truncate to the sentinel, unless the default is what the clamp would give.
-/

namespace Professord

open CText

/-! ## Truncation and clamping -/

/-- Truncation toward zero. -/
def truncate (q : ℚ) : Int :=
  if 0 ≤ q then ⌊q⌋ else ⌈q⌉

theorem truncate_mono {q r : ℚ} (h : q ≤ r) : truncate q ≤ truncate r := by
  unfold truncate
  by_cases hq : 0 ≤ q
  · rw [if_pos hq, if_pos (hq.trans h)]
    exact Int.floor_le_floor h
  · rw [if_neg hq]
    by_cases hr : 0 ≤ r
    · rw [if_pos hr]
      have hneg : ⌈q⌉ ≤ 0 := Int.ceil_le.2 (by exact_mod_cast (not_le.1 hq).le)
      exact hneg.trans (Int.floor_nonneg.2 hr)
    · rw [if_neg hr]
      exact Int.ceil_le_ceil h

theorem clampI_mono {a b : Int} (h : a ≤ b) {lo hi : Int} (hle : lo ≤ hi) :
    clampI a lo hi ≤ clampI b lo hi := by
  unfold clampI
  split_ifs <;> omega

theorem toInt32_eq {q : ℚ} (h : InInt32 (truncate q)) (outOfRange : CFloat → Int) :
    (CFloat.fin q).toInt32 outOfRange = truncate q :=
  if_pos h

/-! ## A request on either endpoint -/

/-- `n` is the `max_tokens` that a body accepted on one of the endpoints is run with. -/
def Resolves (env : ParseEnv) (cfg : Config) (body : Bytes) (n : Int) : Prop :=
  (∃ req, chatRequestParse env body = some req ∧
    (inferenceResolveParams cfg req).maxTokens = n) ∨
  ∃ req, completionRequestParse env body = some req ∧
    (inferenceResolveParamsCompletion cfg req).maxTokens = n

/-- The number that the root object of a body gives as `max_tokens`. -/
def Requests (env : ParseEnv) (body : Bytes) (v : CFloat) : Prop :=
  ∃ root, env.parseWithLength body = some root ∧
    root.getObjectItem (ascii "max_tokens") = some (.number v)

/-- The number is converted inside the `int32_t` range, truncated and clamped. -/
def Honoured (cfg : Config) (v : CFloat) (n : Int) : Prop :=
  ∃ q, v = .fin q ∧ InInt32 (truncate q) ∧ n = clampI (truncate q) 1 cfg.nCtx

/-- The number fits `int32_t`, and is not the sentinel unless the default is 1. -/
def TakenAtItsWord (cfg : Config) (v : CFloat) : Prop :=
  ∃ q, v = .fin q ∧ InInt32 (truncate q) ∧ (truncate q = -1 → cfg.maxTokens = 1)

variable {env : ParseEnv} {cfg : Config} {body : Bytes}

/-- Both endpoints resolve the field alike. -/
theorem resolves_iff {root : Json} (hroot : env.parseWithLength body = some root) {n : Int}
    (h : Resolves env cfg body n) : n = resolveMaxTokens cfg (maxTokensField env root) := by
  rcases h with ⟨req, hreq, rfl⟩ | ⟨req, hreq, rfl⟩
  · rw [chatRequestParse, hroot, Option.bind_some] at hreq
    obtain ⟨msgs, _, rfl⟩ := chatRequestOfJson_eq_some hreq
    rfl
  · rw [completionRequestParse, hroot, Option.bind_some] at hreq
    obtain ⟨prompt, _, rfl⟩ := completionRequestOfJson_eq_some hreq
    rfl

/-- A body with a prompt is accepted for completion. -/
theorem resolves_of_prompt {root : Json} {prompt : Bytes}
    (hroot : env.parseWithLength body = some root)
    (hprompt : root.getObjectItem (ascii "prompt") = some (.string prompt)) :
    Resolves env cfg body (resolveMaxTokens cfg (maxTokensField env root)) := by
  right
  rw [completionRequestParse, hroot, Option.bind_some, completionRequestOfJson, hprompt]
  exact ⟨_, rfl, rfl⟩

theorem honoured_iff {v : CFloat} (hv : Requests env body v) {n : Int}
    (h : Resolves env cfg body n) : Honoured cfg v n ↔ TakenAtItsWord cfg v := by
  obtain ⟨root, hroot, hfield⟩ := hv
  have hn : n = resolveMaxTokens cfg (v.toInt32 env.outOfRange) := by
    rw [resolves_iff hroot h, maxTokensField, hfield]
  refine exists_congr fun q => and_congr_right fun hq => and_congr_right fun hint => ?_
  rw [hn, hq, toInt32_eq hint, resolveMaxTokens]
  -- -1 is the parser's mark of an absent field, and stands for the default
  by_cases hsentinel : truncate q = -1
  · have hclamp : clampI (-1) 1 cfg.nCtx = 1 := by
      unfold clampI
      omega
    simp [hsentinel, hclamp]
  · simp [hsentinel]

/-- A request's `max_tokens` is honoured exactly if it fits `int32_t` and is not the sentinel, a
request without a number gets the default, and among numbers that are honoured a larger one
resolves to at least as many tokens. -/
theorem max_tokens_honoured_iff (hctx : 1 ≤ cfg.nCtx) :
    (∀ body v n, Requests env body v → Resolves env cfg body n →
      (Honoured cfg v n ↔ TakenAtItsWord cfg v)) ∧
    (∀ body n, (∃ root, env.parseWithLength body = some root) → (∀ v, ¬ Requests env body v) →
      Resolves env cfg body n → n = cfg.maxTokens) ∧
    ∀ body body' v v' n n', Requests env body v → Requests env body' v' →
      Resolves env cfg body n → Resolves env cfg body' n' →
      TakenAtItsWord cfg v → TakenAtItsWord cfg v' → v.le v' = true → n ≤ n' := by
  refine ⟨fun body v n hv h => honoured_iff hv h, ?_, ?_⟩
  · rintro body n ⟨root, hroot⟩ hnone h
    have hfield : maxTokensField env root = -1 := by
      unfold maxTokensField
      split
      · next v hv => exact absurd ⟨root, hroot, hv⟩ (hnone v)
      · rfl
    rw [resolves_iff hroot h, hfield]
    rfl
  · intro body body' v v' n n' hv hv' h h' hword hword' hle
    -- both are clamped truncations, and either operation is monotone
    obtain ⟨q, rfl, _, rfl⟩ := (honoured_iff hv h).2 hword
    obtain ⟨r, rfl, _, rfl⟩ := (honoured_iff hv' h').2 hword'
    have hqr : q ≤ r := by
      rcases Bool.or_eq_true_iff.1 hle with hlt | heq
      · exact (CFloat.lt_fin.1 hlt).le
      · exact le_of_eq (CFloat.fin.inj (by simpa [CFloat.eq] using heq))
    exact clampI_mono (truncate_mono hqr) hctx

namespace Sample

def tokensBody (text : String) : Bytes :=
  ascii "\x7b\"prompt\": \"hi\", \"max_tokens\": " ++ ascii text ++ ascii "\x7d"

def tokensJson (v : CFloat) : Json :=
  .object [(ascii "prompt", .string (ascii "hi")), (ascii "max_tokens", .number v)]

def tokensEnv (text : String) (v : CFloat) : ParseEnv :=
  knows (tokensBody text) (tokensJson v)

theorem tokensEnv_parses (text : String) (v : CFloat) :
    (tokensEnv text v).parseWithLength (tokensBody text) = some (tokensJson v) :=
  if_pos rfl

theorem maxTokens_item (v : CFloat) :
    (tokensJson v).getObjectItem (ascii "max_tokens") = some (.number v) := by
  rw [tokensJson, Json.getObjectItem_cons_of_ne (by decide)]
  exact Json.getObjectItem_cons_of_eq (by decide) _ _

theorem requests_tokens (text : String) (v : CFloat) :
    Requests (tokensEnv text v) (tokensBody text) v :=
  ⟨tokensJson v, tokensEnv_parses text v, maxTokens_item v⟩

theorem resolves_tokens (text : String) (v : CFloat) :
    Resolves (tokensEnv text v) config (tokensBody text)
      (resolveMaxTokens config (v.toInt32 (tokensEnv text v).outOfRange)) := by
  have hresolves : Resolves (tokensEnv text v) config _ _ := resolves_of_prompt
    (tokensEnv_parses text v) (Json.getObjectItem_cons_of_eq (by decide) (.string (ascii "hi")) _)
  rwa [maxTokensField, maxTokens_item] at hresolves

theorem max_tokens_honoured_iff_sixteen : Honoured config (.fin 16) 16 := by
  have htrunc : truncate 16 = 16 := by norm_num [truncate]
  have hint : InInt32 (truncate 16) := htrunc ▸ ⟨by decide, by decide⟩
  have hresolves := resolves_tokens "16" (.fin 16)
  rw [toInt32_eq hint, htrunc] at hresolves
  have hword : TakenAtItsWord config (.fin 16) :=
    ⟨16, rfl, hint, fun h => absurd (htrunc.symm.trans h) (by decide)⟩
  exact ((max_tokens_honoured_iff (by decide)).1 _ _ _ (requests_tokens "16" _) hresolves).2 hword

end Sample

/-- `"max_tokens": -1` resolves to the default and not to 1. -/
theorem not_max_tokens_honoured :
    ¬ ∀ (env : ParseEnv) (cfg : Config) (body : Bytes) (v : CFloat) (n : Int), 1 ≤ cfg.nCtx →
      Requests env body v → Resolves env cfg body n → Honoured cfg v n := by
  intro h
  have htrunc : truncate (-1) = -1 := by norm_num [truncate]
  have hint : InInt32 (truncate (-1)) := htrunc ▸ ⟨by decide, by decide⟩
  have hresolves := Sample.resolves_tokens "-1" (.fin (-1))
  rw [toInt32_eq hint, htrunc] at hresolves
  obtain ⟨q, hq, _, hn⟩ := h _ _ _ _ _ (by decide) (Sample.requests_tokens "-1" _) hresolves
  rw [← CFloat.fin.inj hq, htrunc] at hn
  exact absurd hn (by decide)

end Professord
