import Mathlib.Algebra.Order.Field.Rat
import Mathlib.Tactic.Linarith
import Mathlib.Tactic.NormNum
import Mathlib.Tactic.Ring

/-!
# Recommend — the models and the context size that `--recommend` prints (`recommend.c`)

Sizes are in GB and exact: a `double` of the source is the rational number that it stands for.  The
Top Pick and its context fit the model size budget from 6 GB on; below, the source falls back to
the smallest model, whatever the budget.
-/

namespace Professord

/-! ## The tables -/

structure ModelEntry where
  name : String
  quant : String
  sizeGb : ℚ
  maxCtx : Int
  kvBytesPerTok : Int
  deriving DecidableEq

def smallestModel : ModelEntry :=
  ⟨"Hermes-3-Llama-3.1-8B", "Q4_K_M", 4.9, 131072, 65536⟩

def hermesModels : List ModelEntry :=
  [smallestModel,
    ⟨"Hermes-3-Llama-3.1-8B", "Q6_K", 6.6, 131072, 65536⟩,
    ⟨"Hermes-3-Llama-3.1-8B", "Q8_0", 8.5, 131072, 65536⟩,
    ⟨"Hermes-3-Llama-3.1-8B", "F16", 16, 131072, 65536⟩,
    ⟨"Hermes-3-Llama-3.1-70B", "Q3_K_M", 33, 131072, 163840⟩,
    ⟨"Hermes-3-Llama-3.1-70B", "Q4_K_M", 40, 131072, 163840⟩,
    ⟨"Hermes-3-Llama-3.1-70B", "Q5_K_M", 50, 131072, 163840⟩,
    ⟨"Hermes-3-Llama-3.1-70B", "Q6_K", 58, 131072, 163840⟩,
    ⟨"Hermes-3-Llama-3.1-70B", "Q8_0", 74, 131072, 163840⟩]

def otherModels : List ModelEntry :=
  [⟨"Qwen2.5-72B-Instruct", "Q4_K_M", 42, 131072, 163840⟩,
    ⟨"Qwen2.5-32B-Instruct", "Q6_K", 25, 131072, 131072⟩,
    ⟨"Qwen2.5-14B-Instruct", "Q8_0", 15, 131072, 98304⟩,
    ⟨"Llama-3.3-70B-Instruct", "Q4_K_M", 40, 131072, 163840⟩,
    ⟨"Mistral-Large-2411", "Q4_K_M", 38, 32768, 180224⟩,
    ⟨"DeepSeek-R1-Distill-70B", "Q4_K_M", 40, 131072, 163840⟩,
    ⟨"Phi-4-14B", "Q8_0", 15, 16384, 76800⟩]

/-! ## The table of models -/

inductive ModelFit
  | easy
  | good
  | tight
  | spill
  | no
  deriving DecidableEq, Repr

def modelFit (m : ModelEntry) (budgetGb : Int) : ModelFit :=
  if m.sizeGb ≤ budgetGb * 0.65 then .easy
  else if m.sizeGb ≤ budgetGb * 0.85 then .good
  else if m.sizeGb ≤ budgetGb * 0.95 then .tight
  else if m.sizeGb ≤ budgetGb * 1.3 then .spill
  else .no

/-- `fit_marker` is the star. -/
def ModelFit.marked : ModelFit → Bool
  | easy | good => true
  | tight | spill | no => false

def estimateTps (sizeGb : ℚ) (bwGbps : Int) : ℚ :=
  if bwGbps ≤ 0 ∨ sizeGb ≤ 0 then 0 else bwGbps * 0.8 / sizeGb

/-- `~%.1f` or `< %.1f` -/
inductive TpsText
  | about (tps : ℚ)
  | below (tps : ℚ)

structure ModelRow where
  model : ModelEntry
  fit : ModelFit
  tps : Option TpsText

/-- `print_model_table`; without a bandwidth there is no column for it. -/
def modelTable (models : List ModelEntry) (budgetGb bwGbps : Int) : List ModelRow :=
  models.map fun m =>
    let tps := estimateTps m.sizeGb bwGbps
    { model := m
      fit := modelFit m budgetGb
      tps :=
        if bwGbps > 0 then
          some (if m.sizeGb ≤ budgetGb then .about tps else .below (tps * 0.3))
        else
          none }

/-! ## The Top Pick and its context -/

/-- A model that leaves room and is not a small one. -/
def Pickable (budgetGb : Int) (m : ModelEntry) : Prop :=
  m.sizeGb ≤ budgetGb * 0.85 ∧ m.sizeGb > 10

instance (budgetGb : Int) (m : ModelEntry) : Decidable (Pickable budgetGb m) :=
  inferInstanceAs (Decidable (_ ∧ _))

/-- The last such model of the table, and otherwise the smallest one. -/
def topPick (budgetGb : Int) : ModelEntry :=
  (hermesModels.foldl (fun best m => if Pickable budgetGb m then some m else best) none).getD
    smallestModel

inductive CtxFit
  | easy
  | good
  | tight
  | no
  deriving DecidableEq, Repr

structure CtxRow where
  ctx : Int
  kvGb : ℚ
  fit : CtxFit

def kvGb (m : ModelEntry) (ctx : Int) : ℚ :=
  m.kvBytesPerTok * ctx / (1024 * 1024 * 1024)

def ctxFit (kv remainingGb : ℚ) : CtxFit :=
  if kv ≤ remainingGb * 0.5 then .easy
  else if kv ≤ remainingGb * 0.85 then .good
  else if kv ≤ remainingGb then .tight
  else .no

def CtxFit.recommends : CtxFit → Bool
  | easy | good => true
  | tight | no => false

def ctxOptions : List Int :=
  [4096, 8192, 16384, 32768, 65536, 131072]

/-- The loop over the context sizes, at the options that are left: the rows, and `recommended_ctx`
at the end. -/
def ctxLoop (m : ModelEntry) (remainingGb : ℚ) : List Int → Int → List CtxRow × Int
  | [], recommended => ([], recommended)
  | ctx :: rest, recommended =>
      if ctx > m.maxCtx then
        ([], recommended)
      else
        let fit := ctxFit (kvGb m ctx) remainingGb
        let later := ctxLoop m remainingGb rest (if fit.recommends then ctx else recommended)
        (⟨ctx, kvGb m ctx, fit⟩ :: later.1, later.2)

/-! ## `hw_print_recommendations` -/

/-- The fields of `hw_info_t` that the recommendations depend on. -/
structure HwInfo where
  ramAvailableBytes : Int
  isUma : Bool
  effectiveGpuMem : Int
  memBandwidthGbps : Int

/-- What is printed. -/
structure Recommendations where
  budgetGb : Int
  modelBudgetGb : Int
  hermes : List ModelRow
  other : List ModelRow
  best : ModelEntry
  bestTps : Option ℚ
  remainingGb : ℚ
  ctxRows : List CtxRow
  recommendedCtx : Int
  /-- the warning about tool-calling agents -/
  warns : Bool

def hwPrintRecommendations (hw : HwInfo) : Recommendations :=
  let budget := if hw.effectiveGpuMem ≤ 0 then hw.ramAvailableBytes else hw.effectiveGpuMem
  let budgetGb := budget.tdiv (1024 * 1024 * 1024)
  -- `(int64_t)((double)budget_gb * 0.85)`
  let modelBudgetGb := if hw.isUma then (budgetGb * 85).tdiv 100 else budgetGb
  let best := topPick modelBudgetGb
  let remainingGb := max (modelBudgetGb - best.sizeGb) 0.5
  let ctxs := ctxLoop best remainingGb ctxOptions 4096
  { budgetGb := budgetGb
    modelBudgetGb := modelBudgetGb
    hermes := modelTable hermesModels modelBudgetGb hw.memBandwidthGbps
    other := modelTable otherModels modelBudgetGb hw.memBandwidthGbps
    best := best
    bestTps :=
      if hw.memBandwidthGbps > 0 then some (estimateTps best.sizeGb hw.memBandwidthGbps) else none
    remainingGb := remainingGb
    ctxRows := ctxs.1
    recommendedCtx := ctxs.2
    warns := ctxs.2 < 8192 }

/-! ## What is picked -/

section Pick

variable {budgetGb : Int} {m : ModelEntry} {remainingGb kv : ℚ}

theorem marked_modelFit (hsize : 0 ≤ m.sizeGb) :
    (modelFit m budgetGb).marked = true ↔ m.sizeGb ≤ budgetGb * 0.85 := by
  unfold modelFit
  split_ifs with heasy hgood <;> simp only [ModelFit.marked, true_iff, Bool.false_eq_true, false_iff]
  · linarith
  · exact hgood
  all_goals assumption

/-- A loop that remembers the last match has a match of the list, if it has any. -/
theorem pickable_of_mem_foldl {models : List ModelEntry} :
    ∀ {best : Option ModelEntry}, (∀ m ∈ best, m ∈ hermesModels ∧ Pickable budgetGb m) →
      (∀ m ∈ models, m ∈ hermesModels) →
      ∀ m ∈ models.foldl (fun best m => if Pickable budgetGb m then some m else best) best,
        m ∈ hermesModels ∧ Pickable budgetGb m := by
  induction models with
  | nil => exact fun hbest _ => hbest
  | cons m models ih =>
      intro best hbest hmem
      rw [List.forall_mem_cons] at hmem
      refine ih ?_ hmem.2
      dsimp only
      split_ifs with hpick
      · intro m' hm'
        obtain rfl := Option.some.inj hm'
        exact ⟨hmem.1, hpick⟩
      · exact hbest

theorem topPick_cases (budgetGb : Int) :
    topPick budgetGb = smallestModel ∨
      topPick budgetGb ∈ hermesModels ∧ Pickable budgetGb (topPick budgetGb) := by
  have hpick := @pickable_of_mem_foldl budgetGb hermesModels none (by simp) fun _ h => h
  unfold topPick
  cases hbest : hermesModels.foldl
      (fun best m => if Pickable budgetGb m then some m else best) none with
  | none => exact .inl rfl
  | some m => exact .inr (hpick m hbest)

theorem hermesModels_sorted : hermesModels.Pairwise fun m m' => m.sizeGb ≤ m'.sizeGb := by
  simp only [hermesModels, smallestModel, List.pairwise_cons, List.forall_mem_cons]
  norm_num

/-- In a sorted table the last match is the largest. -/
theorem exists_mem_foldl {models : List ModelEntry}
    (hsorted : models.Pairwise fun m m' => m.sizeGb ≤ m'.sizeGb) :
    ∀ {best : Option ModelEntry}, (∀ b ∈ best, ∀ m ∈ models, b.sizeGb ≤ m.sizeGb) →
      ∀ m, (m ∈ models ∧ Pickable budgetGb m ∨ m ∈ best) →
        ∃ r ∈ models.foldl (fun best m => if Pickable budgetGb m then some m else best) best,
          m.sizeGb ≤ r.sizeGb := by
  induction models with
  | nil =>
      rintro best - m (⟨hm, -⟩ | hm)
      · cases hm
      · exact ⟨m, hm, le_refl _⟩
  | cons first models ih =>
      intro best hbest m hm
      rw [List.pairwise_cons] at hsorted
      rw [List.foldl_cons]
      by_cases hpick : Pickable budgetGb first
      · rw [if_pos hpick]
        have hfirst : ∀ b ∈ some first, ∀ m' ∈ models, b.sizeGb ≤ m'.sizeGb := by
          intro b hb
          obtain rfl := Option.some.inj hb
          exact hsorted.1
        rcases hm with ⟨hm, hmpick⟩ | hm
        · rcases List.mem_cons.1 hm with rfl | hm
          · exact ih hsorted.2 hfirst m (.inr rfl)
          · exact ih hsorted.2 hfirst m (.inl ⟨hm, hmpick⟩)
        -- the match that is replaced was not larger
        · obtain ⟨r, hr, hle⟩ := ih hsorted.2 hfirst first (.inr rfl)
          exact ⟨r, hr, (hbest m hm first List.mem_cons_self).trans hle⟩
      · rw [if_neg hpick]
        have hrest : ∀ b ∈ best, ∀ m' ∈ models, b.sizeGb ≤ m'.sizeGb :=
          fun b hb m' hm' => hbest b hb m' (List.mem_cons_of_mem _ hm')
        rcases hm with ⟨hm, hmpick⟩ | hm
        · rcases List.mem_cons.1 hm with rfl | hm
          · exact absurd hmpick hpick
          · exact ih hsorted.2 hrest m (.inl ⟨hm, hmpick⟩)
        · exact ih hsorted.2 hrest m (.inr hm)

/-- No Hermes model that could be picked is larger than the one that is. -/
theorem topPick_largest {m : ModelEntry} (hm : m ∈ hermesModels) (hpick : Pickable budgetGb m) :
    m.sizeGb ≤ (topPick budgetGb).sizeGb := by
  obtain ⟨r, hr, hle⟩ := @exists_mem_foldl budgetGb hermesModels hermesModels_sorted none (by simp)
    m (.inl ⟨hm, hpick⟩)
  rwa [topPick, hr]

/-- The Top Pick has its star in the table exactly from 6 GB on. -/
theorem topPick_marked_iff (budgetGb : Int) :
    (modelFit (topPick budgetGb) budgetGb).marked = true ↔ 6 ≤ budgetGb := by
  have hsmallest : smallestModel.sizeGb = 4.9 := rfl
  have hsize : 4.9 ≤ (topPick budgetGb).sizeGb := by
    rcases topPick_cases budgetGb with hbest | ⟨-, -, hlarge⟩
    · rw [hbest, hsmallest]
    · linarith
  rw [marked_modelFit (by linarith)]
  constructor
  · intro hroom
    by_contra hsmall
    have hbudget : (budgetGb : ℚ) ≤ 5 := by exact_mod_cast (by omega : budgetGb ≤ 5)
    linarith
  · intro hlarge
    have hbudget : (6 : ℚ) ≤ budgetGb := by exact_mod_cast hlarge
    rcases topPick_cases budgetGb with hbest | ⟨-, hroom, -⟩
    · rw [hbest, hsmallest]
      linarith
    · exact hroom

/-- Every model has the same native context, and room for 4096 tokens in 0.625 GB. -/
theorem hermesModels_ctx : ∀ m ∈ hermesModels, m.maxCtx = 131072 ∧ kvGb m 4096 ≤ 0.625 := by
  intro m hm
  simp only [hermesModels, smallestModel, List.mem_cons, List.not_mem_nil, or_false] at hm
  rcases hm with rfl | rfl | rfl | rfl | rfl | rfl | rfl | rfl | rfl <;>
    exact ⟨rfl, by norm_num [kvGb]⟩

theorem recommends_ctxFit (hremaining : 0 ≤ remainingGb) :
    (ctxFit kv remainingGb).recommends = true ↔ kv ≤ remainingGb * 0.85 := by
  unfold ctxFit
  split_ifs with heasy hgood <;>
    simp only [CtxFit.recommends, true_iff, Bool.false_eq_true, false_iff]
  · linarith
  · exact hgood
  all_goals assumption

/-- What holds of the first value and of each option that fits, holds of the recommendation. -/
theorem ctxLoop_snd {P : Int → Prop} (hremaining : 0 ≤ remainingGb) {options : List Int}
    (hfits : ∀ ctx ∈ options, ctx ≤ m.maxCtx → kvGb m ctx ≤ remainingGb * 0.85 → P ctx) :
    ∀ {recommended : Int}, P recommended → P (ctxLoop m remainingGb options recommended).2 := by
  induction options with
  | nil => exact fun h => h
  | cons ctx rest ih =>
      intro recommended h
      rw [List.forall_mem_cons] at hfits
      rw [ctxLoop]
      by_cases hlong : ctx > m.maxCtx
      · rwa [if_pos hlong]
      · rw [if_neg hlong]
        refine ih hfits.2 ?_
        split_ifs with hrecommends
        · exact hfits.1 (not_lt.1 hlong) ((recommends_ctxFit hremaining).1 hrecommends)
        · exact h

end Pick

/-! ## What fits -/

section Fits

/-- The size of the Top Pick with the cache of the recommended context, in GB. -/
def Recommendations.totalGb (r : Recommendations) : ℚ :=
  r.best.sizeGb + kvGb r.best r.recommendedCtx

/-- The cache of a context of the smallest model. -/
theorem kvGb_smallestModel (ctx : Int) : kvGb smallestModel ctx = ctx / 16384 := by
  simp only [kvGb, smallestModel]
  push_cast
  ring

/-- A model that is picked from the table leaves more than 1.7 GB. -/
theorem remaining_of_pickable {budgetGb : Int} {m : ModelEntry} (h : Pickable budgetGb m) :
    1.7 ≤ budgetGb - m.sizeGb := by
  obtain ⟨hroom, hlarge⟩ := h
  linarith

/-- The recommended context is one of the options, within the model's own and 85% of what remains. -/
theorem recommendedCtx_fits (hw : HwInfo) :
    let r := hwPrintRecommendations hw
    r.recommendedCtx ∈ ctxOptions ∧ r.recommendedCtx ≤ r.best.maxCtx ∧
      kvGb r.best r.recommendedCtx ≤ r.remainingGb * 0.85 := by
  intro r
  have hbest : r.best = topPick r.modelBudgetGb := rfl
  have hremaining : r.remainingGb = max (r.modelBudgetGb - r.best.sizeGb) 0.5 := rfl
  have hhalf : 0.5 ≤ r.remainingGb := by
    rw [hremaining]
    exact le_max_right _ _
  refine ctxLoop_snd (P := fun ctx => ctx ∈ ctxOptions ∧ ctx ≤ r.best.maxCtx ∧
    kvGb r.best ctx ≤ r.remainingGb * 0.85) (by linarith) (fun ctx hctx hmax hkv => ⟨hctx, hmax, hkv⟩)
    ⟨by decide, ?_⟩
  rcases topPick_cases r.modelBudgetGb with hsmall | ⟨hmem, hpick⟩
  · rw [hbest, hsmall, kvGb_smallestModel]
    refine ⟨by decide, ?_⟩
    norm_num
    linarith
  · have hleft := remaining_of_pickable hpick
    rw [← hbest] at hmem hleft
    obtain ⟨hmax, hkv⟩ := hermesModels_ctx _ hmem
    have hroom : 1.7 ≤ r.remainingGb := by
      rw [hremaining]
      exact hleft.trans (le_max_left _ _)
    rw [hmax]
    exact ⟨by decide, by linarith⟩

/-- The Top Pick and its context fit the budget exactly from 6 GB on.  Below, the smallest model is
printed with the smallest context.  The context is in any case within the model's own. -/
theorem recommendation_fits_iff (hw : HwInfo) :
    let r := hwPrintRecommendations hw
    (r.totalGb ≤ r.modelBudgetGb ↔ 6 ≤ r.modelBudgetGb) ∧
      (r.modelBudgetGb < 6 → r.best = smallestModel ∧ r.recommendedCtx = 4096) ∧
      r.recommendedCtx ≤ r.best.maxCtx := by
  intro r
  obtain ⟨hoption, hmax, hkv⟩ : r.recommendedCtx ∈ ctxOptions ∧
      r.recommendedCtx ≤ r.best.maxCtx ∧ kvGb r.best r.recommendedCtx ≤ r.remainingGb * 0.85 :=
    recommendedCtx_fits hw
  have hbest : r.best = topPick r.modelBudgetGb := rfl
  have hremaining : r.remainingGb = max (r.modelBudgetGb - r.best.sizeGb) 0.5 := rfl
  have hsize : smallestModel.sizeGb = 4.9 := rfl
  by_cases hlarge : 6 ≤ r.modelBudgetGb
  · refine ⟨iff_of_true ?_ hlarge, fun hsmall => absurd hlarge (not_le.2 hsmall), hmax⟩
    have hbudget : (6 : ℚ) ≤ r.modelBudgetGb := by exact_mod_cast hlarge
    -- what remains is no less than the floor
    have hleft : 0.5 ≤ r.modelBudgetGb - r.best.sizeGb := by
      rcases topPick_cases r.modelBudgetGb with hsmall | ⟨-, hpick⟩
      · rw [hbest, hsmall, hsize]
        linarith
      · have hroom := remaining_of_pickable hpick
        rw [← hbest] at hroom
        linarith
    rw [max_eq_left hleft] at hremaining
    change r.best.sizeGb + kvGb r.best r.recommendedCtx ≤ r.modelBudgetGb
    linarith
  · have hbudget : (r.modelBudgetGb : ℚ) ≤ 5 := by
      have hint : r.modelBudgetGb ≤ 5 := by omega
      exact_mod_cast hint
    have hsmall : r.best = smallestModel := by
      rcases topPick_cases r.modelBudgetGb with hsmall | ⟨-, hroom, hmany⟩
      · exact hsmall
      · linarith
    have hfloor : r.remainingGb = 0.5 := by
      rw [hremaining, hsmall, hsize]
      exact max_eq_right (by linarith)
    have hctx : r.recommendedCtx = 4096 := by
      rw [hsmall, hfloor, kvGb_smallestModel] at hkv
      have hshort : (r.recommendedCtx : ℚ) < 8192 := by linarith
      have hint : r.recommendedCtx < 8192 := by exact_mod_cast hshort
      simp only [ctxOptions, List.mem_cons, List.not_mem_nil, or_false] at hoption
      omega
    refine ⟨iff_of_false ?_ hlarge, fun _ => ⟨hsmall, hctx⟩, hmax⟩
    change ¬ r.best.sizeGb + kvGb r.best r.recommendedCtx ≤ r.modelBudgetGb
    rw [hsmall, hsize, kvGb_smallestModel, hctx]
    norm_num
    linarith

namespace Sample

/-- 5 GB of memory, which the smallest model alone would fit. -/
def smallMachine : HwInfo where
  ramAvailableBytes := 5 * 1024 * 1024 * 1024
  isUma := false
  effectiveGpuMem := 0
  memBandwidthGbps := 0

end Sample

theorem not_recommendation_fits :
    ¬ ∀ hw : HwInfo, (hwPrintRecommendations hw).totalGb ≤ (hwPrintRecommendations hw).modelBudgetGb ∧
        (hwPrintRecommendations hw).recommendedCtx ≤ (hwPrintRecommendations hw).best.maxCtx := by
  intro hall
  have hfits := (hall Sample.smallMachine).1
  revert hfits
  decide +kernel

end Fits

end Professord
