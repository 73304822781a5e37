import Professord.Inference.Complete
import Professord.Inference.ParamRange

/-!
# PromptBatches — the batches of the prompt loop

The loop hands at most `n_batch` tokens to `llama_decode` at a time, and `config_validate` does not
look at `n_batch`.  With `n_batch ≥ 1` the batches are a partition of the prompt into consecutive
pieces.  With `n_batch ≤ 0` the first batch has no tokens, `llama_decode` refuses it, and the loop
ends there.
-/

namespace Professord

open CText

variable {σ χ : Type}

/-- The library with a record of the batches given to `llama_decode`. -/
def Llama.recording (L : Llama σ χ) : Llama (σ × List (List Token)) χ where
  eos := L.eos
  tokenize := L.tokenize
  tokenToPiece := L.tokenToPiece
  memoryClear s := (L.memoryClear s.1, s.2)
  decode s batch :=
    let r := L.decode s.1 batch
    (r.1, (r.2, s.2 ++ [batch]))
  perfReset s := (L.perfReset s.1, s.2)
  chainInit := L.chainInit
  chainAdd := L.chainAdd
  sample chain s := L.sample chain s.1
  accept := L.accept
  applyTemplate := L.applyTemplate

@[simp] theorem Llama.recording_decode (L : Llama σ χ) (s : σ) (batches : List (List Token))
    (batch : List Token) :
    L.recording.decode (s, batches) batch =
      ((L.decode s batch).1, ((L.decode s batch).2, batches ++ [batch])) := rfl

/-! ## One step of the loop -/

section Step

variable {L : Llama σ χ} {nBatch : Int} {tokens : List Token} {nPrompt n : Int}

/-- The batch submitted at `n`. -/
def batchAt (nBatch : Int) (tokens : List Token) (nPrompt n : Int) : List Token :=
  (tokens.drop n.toNat).take (promptChunk nBatch nPrompt n).toNat

theorem decodePrompt_done (h : ¬ n < nPrompt) (fuel : Nat) (ctx : σ) (rcs : List Int) :
    decodePrompt L nBatch tokens nPrompt (fuel + 1) n ctx rcs = ⟨ctx, rcs, some 0⟩ := by
  rw [decodePrompt, if_neg h]

theorem decodePrompt_failed (h : n < nPrompt) {ctx : σ}
    (hrc : (L.decode ctx (batchAt nBatch tokens nPrompt n)).1 ≠ 0) (fuel : Nat) (rcs : List Int) :
    decodePrompt L nBatch tokens nPrompt (fuel + 1) n ctx rcs =
      ⟨(L.decode ctx (batchAt nBatch tokens nPrompt n)).2,
        rcs ++ [(L.decode ctx (batchAt nBatch tokens nPrompt n)).1],
        some (L.decode ctx (batchAt nBatch tokens nPrompt n)).1⟩ := by
  rw [decodePrompt, if_pos h]
  exact if_pos hrc

theorem decodePrompt_decoded (h : n < nPrompt) {ctx : σ}
    (hrc : (L.decode ctx (batchAt nBatch tokens nPrompt n)).1 = 0) (fuel : Nat) (rcs : List Int) :
    decodePrompt L nBatch tokens nPrompt (fuel + 1) n ctx rcs =
      decodePrompt L nBatch tokens nPrompt fuel (n + promptChunk nBatch nPrompt n)
        (L.decode ctx (batchAt nBatch tokens nPrompt n)).2
        (rcs ++ [(L.decode ctx (batchAt nBatch tokens nPrompt n)).1]) := by
  rw [decodePrompt, if_pos h]
  exact if_neg (not_not.2 hrc)

end Step

section Loop

variable (L : Llama σ χ) (nBatch : Int) (tokens : List Token)

/-- The prompt loop of an engine with that batch size, on the tokens of a prompt. -/
def promptRun (fuel : Nat) (ctx : σ) : PromptRun σ :=
  decodePrompt L nBatch tokens tokens.length fuel 0 ctx []

/-- The batches submitted so far. -/
def promptBatches (fuel : Nat) (ctx : σ) : List (List Token) :=
  (promptRun L.recording nBatch tokens fuel (ctx, [])).ctx.2

/-- Every batch has 1 to `n_batch` tokens, and in order they are the token array. -/
structure Partition (batches : List (List Token)) : Prop where
  sizes : ∀ batch ∈ batches, 1 ≤ batch.length ∧ (batch.length : Int) ≤ nBatch
  joined : batches.flatten = tokens

/-- The loop ends, and the batches it has submitted by then are a partition of the prompt. -/
def PromptCovered (ctx : σ) : Prop :=
  ∃ fuel, (promptRun L nBatch tokens fuel ctx).ended = some 0 ∧
    Partition nBatch tokens (promptBatches L nBatch tokens fuel ctx)

/-- `llama_decode` succeeds on each call that the loop makes. -/
def DecodesAll (ctx : σ) : Prop :=
  ∀ fuel, ∀ rc ∈ (promptRun L nBatch tokens fuel ctx).rcs, rc = 0

end Loop

section Partition

variable {L : Llama σ χ} {nBatch : Int} {tokens : List Token}

/-- The chunk of a positive batch size: how many tokens it has, and where the next one starts. -/
theorem promptChunk_eq (hbatch : 1 ≤ nBatch) {n : Nat} (hn : n < tokens.length) :
    ∃ k : Nat, promptChunk nBatch tokens.length n = k ∧ 1 ≤ k ∧ (k : Int) ≤ nBatch ∧
      n + k ≤ tokens.length := by
  refine ⟨(promptChunk nBatch tokens.length n).toNat, ?_⟩
  unfold promptChunk
  simp only
  split <;> omega

/-- The next batch extends a partition of the first `n` tokens. -/
theorem Partition.concat {n k : Nat} {batches : List (List Token)}
    (h : Partition nBatch (tokens.take n) batches) (hpos : 1 ≤ k) (hle : (k : Int) ≤ nBatch)
    (hend : n + k ≤ tokens.length) :
    Partition nBatch (tokens.take (n + k)) (batches ++ [(tokens.drop n).take k]) where
  sizes batch hmem := by
    rcases List.mem_append.1 hmem with hold | hnew
    · exact h.sizes batch hold
    · have hlen : batch.length = k := by
        rw [List.mem_singleton.1 hnew, List.length_take, List.length_drop]
        omega
      omega
  joined := by
    rw [List.flatten_append, h.joined, List.flatten_cons, List.flatten_nil, List.append_nil,
      List.take_add]

/-- What the loop does from token `n` on, when it has submitted a partition of the first `n`. -/
theorem decodePrompt_partition (hbatch : 1 ≤ nBatch) (fuel : Nat) {n : Nat}
    (hn : n ≤ tokens.length) (hfuel : tokens.length - n < fuel) {ctx : σ}
    {batches : List (List Token)} {rcs : List Int}
    (hpart : Partition nBatch (tokens.take n) batches)
    (hok : ∀ rc ∈ (decodePrompt L nBatch tokens tokens.length fuel n ctx rcs).rcs, rc = 0) :
    (decodePrompt L nBatch tokens tokens.length fuel n ctx rcs).ended = some 0 ∧
      Partition nBatch tokens
        (decodePrompt L.recording nBatch tokens tokens.length fuel n (ctx, batches) rcs).ctx.2 := by
  -- on the fuel; each batch is not empty, so what is left of the prompt decreases with it
  induction fuel generalizing n ctx batches rcs with
  | zero => omega
  | succ fuel ih =>
      by_cases hmore : (n : Int) < tokens.length
      · rcases promptChunk_eq hbatch (Int.ofNat_lt.1 hmore) with ⟨k, hchunk, hpos, hle, hend⟩
        have hbatchAt : batchAt nBatch tokens tokens.length n = (tokens.drop n).take k := by
          rw [batchAt, hchunk, Int.toNat_natCast, Int.toNat_natCast]
        have hrc : (L.decode ctx (batchAt nBatch tokens tokens.length n)).1 = 0 := by
          by_contra hfail
          rw [decodePrompt_failed hmore hfail] at hok
          exact hfail (hok _ (List.mem_append_right _ (List.mem_singleton.2 rfl)))
        rw [decodePrompt_decoded hmore hrc, hchunk, ← Nat.cast_add] at hok ⊢
        rw [decodePrompt_decoded hmore (by exact hrc), hchunk, ← Nat.cast_add,
          Llama.recording_decode, hbatchAt]
        rw [hbatchAt] at hok
        exact ih hend (by omega) (hpart.concat hpos hle hend) hok
      · rw [decodePrompt_done hmore, decodePrompt_done hmore]
        have hall : n = tokens.length := by omega
        rw [hall, List.take_length] at hpart
        exact ⟨rfl, hpart⟩

/-- With a batch size below 1 the first call of `llama_decode` is one without tokens. -/
theorem batchAt_eq_nil (hbatch : nBatch < 1) (hprompt : tokens ≠ []) :
    batchAt nBatch tokens tokens.length 0 = [] := by
  have hlen := List.length_pos_iff.2 hprompt
  have hchunk : (promptChunk nBatch tokens.length 0).toNat = 0 := by
    unfold promptChunk
    simp only
    split <;> omega
  rw [batchAt, hchunk, List.take_zero]

/-- So if each call succeeds, the batch size is at least 1. -/
theorem one_le_of_decodesAll (hempty : L.RejectsEmpty) (hprompt : tokens ≠ []) {ctx : σ}
    (hok : DecodesAll L nBatch tokens ctx) : 1 ≤ nBatch := by
  by_contra hbatch
  have hlen := List.length_pos_iff.2 hprompt
  have hmore : (0 : Int) < tokens.length := by omega
  have hrc : (L.decode ctx (batchAt nBatch tokens tokens.length 0)).1 ≠ 0 := by
    rw [batchAt_eq_nil (not_le.1 hbatch) hprompt]
    exact hempty ctx
  have hrcs := hok 1
  rw [promptRun, decodePrompt_failed hmore hrc] at hrcs
  exact hrc (hrcs _ (List.mem_append_right _ (List.mem_singleton.2 rfl)))

/-- If each call of `llama_decode` succeeds, the prompt loop ends and covers the prompt. -/
theorem prompt_covered {cfg : Config} {chatml : Bool} {ctx : σ} (hempty : L.RejectsEmpty)
    (hprompt : tokens ≠ [])
    (hok : DecodesAll L (Engine.ofConfig cfg chatml).nBatch tokens ctx) :
    PromptCovered L (Engine.ofConfig cfg chatml).nBatch tokens ctx := by
  have hbatch := one_le_of_decodesAll hempty hprompt hok
  have hnone : Partition (Engine.ofConfig cfg chatml).nBatch (tokens.take 0) [] := ⟨by simp, rfl⟩
  exact ⟨tokens.length + 1,
    decodePrompt_partition hbatch (tokens.length + 1) (Nat.zero_le _) (by omega) hnone
      (hok (tokens.length + 1))⟩

end Partition

namespace Sample

/-- A model that decodes every batch that has tokens. -/
def willing : Llama Ctx Unit :=
  let base := byteModel (fun _ => 0) fun _ => 0
  { base with decode := fun s batch => if batch = [] then (-1, s) else base.decode s batch }

theorem willing_rejectsEmpty : willing.RejectsEmpty := by
  intro s
  simp [willing]

/-- One token at a time. -/
def smallBatchConfig : Config :=
  { config with nBatch := 1 }

theorem willing_decodesAll :
    DecodesAll willing (Engine.ofConfig smallBatchConfig true).nBatch [104, 105] default := by
  intro fuel
  -- the loop ends in its third iteration
  rcases fuel with _ | _ | _ | fuel
  · decide
  · decide
  · decide
  · have hlast : promptRun willing 1 [104, 105] (fuel + 3) default =
        promptRun willing 1 [104, 105] 3 default := rfl
    change ∀ rc ∈ (promptRun willing 1 [104, 105] (fuel + 3) default).rcs, rc = 0
    rw [hlast]
    decide

/-- A prompt of two tokens is decoded in two batches. -/
theorem prompt_covered_twoTokens :
    PromptCovered willing 1 [104, 105] default ∧
      promptBatches willing 1 [104, 105] 3 default = [[104], [105]] := by
  have hcovered : PromptCovered willing (Engine.ofConfig smallBatchConfig true).nBatch [104, 105]
      default := prompt_covered willing_rejectsEmpty (by decide) willing_decodesAll
  exact ⟨hcovered, by decide⟩

end Sample

end Professord
