import Professord.Inference.Params

/-!
# Llama — what inference uses of llama.cpp

The library is a parameter: `σ` is the state of a context (KV memory, the logits of the last
batch, counters) and `χ` a sampler chain.  `Llama.ReadsOnly` and `Llama.CountsTokens` are what its
documentation promises; only the results that need them assume them.
-/

namespace Professord

abbrev Token : Type := Int

/-- The text of a token, in `char piece[256]`. -/
structure Piece where
  text : Bytes
  fits : text.length ≤ 255

/-- A sampler of the chain, with its arguments. -/
inductive Sampler
  | greedy
  | penalties (lastN : Int) (repeatPenalty frequencyPenalty presencePenalty : CFloat)
  | topK (k : Int)
  | topP (p : CFloat) (minKeep : Nat)
  | temp (t : CFloat)
  | dist (seed : Nat)

structure Llama (σ χ : Type) where
  /-- `llama_vocab_eos` -/
  eos : Token
  /-- `llama_tokenize`: the returned count and the tokens written, for a buffer of that size -/
  tokenize : Bytes → Int → Int × List Token
  /-- `llama_token_to_piece`; `none` is a negative result -/
  tokenToPiece : Token → Option Piece
  memoryClear : σ → σ
  /-- `llama_decode` of a batch -/
  decode : σ → List Token → Int × σ
  perfReset : σ → σ
  chainInit : χ
  chainAdd : χ → Sampler → χ
  sample : χ → σ → Token × χ
  accept : χ → Token → χ
  /-- `llama_chat_apply_template`: the returned length and the bytes written -/
  applyTemplate : List (Bytes × Bytes) → Int → Int × Bytes

namespace Llama

variable {σ χ : Type} (L : Llama σ χ)

/-- Results depend on the KV memory, the logits of the last decoded batch and the chain only, and
`llama_memory_clear` empties the KV memory. -/
structure ReadsOnly {K O : Type} (kv : σ → K) (logits : σ → O) : Prop where
  clear : ∀ s s', kv (L.memoryClear s) = kv (L.memoryClear s')
  decode_rc : ∀ s s' batch, kv s = kv s' → (L.decode s batch).1 = (L.decode s' batch).1
  decode_kv : ∀ s s' batch, kv s = kv s' → kv (L.decode s batch).2 = kv (L.decode s' batch).2
  decode_logits : ∀ s s' batch, kv s = kv s' → (L.decode s batch).1 = 0 →
    logits (L.decode s batch).2 = logits (L.decode s' batch).2
  sample : ∀ chain s s', logits s = logits s' → L.sample chain s = L.sample chain s'

/-- `llama_tokenize` returns the number of tokens if they fit the buffer and otherwise its
negative, or `INT32_MIN` when that overflows. -/
def CountsTokens (count : Bytes → Nat) : Prop :=
  ∀ text cap, (L.tokenize text cap).1 =
    if (count text : Int) ≤ cap then (count text : Int)
    else if count text < 2 ^ 31 then -(count text : Int)
    else -2 ^ 31

/-- `llama_decode` fails for a batch without tokens: `-1`, invalid input batch. -/
def RejectsEmpty : Prop :=
  ∀ ctx, (L.decode ctx []).1 ≠ 0

end Llama

/-! ## The engine and the surroundings of a run -/

/-- The fields of `inference_engine_t` that generation reads. -/
structure Engine where
  nCtx : Int
  nBatch : Int
  useChatmlFallback : Bool

/-- What `inference_init` takes from the configuration. -/
def Engine.ofConfig (cfg : Config) (useChatmlFallback : Bool) : Engine where
  nCtx := cfg.nCtx
  nBatch := cfg.nBatch
  useChatmlFallback := useChatmlFallback

/-- Outcomes of the allocations of a run. -/
structure Allocs where
  messages : Bool
  formatted : Bool
  chatml : Bool
  tokens : Bool
  chain : Bool
  response : Bool
  /-- `realloc` in the callback of a generated token -/
  growth : Nat → Bool

/-- What happens around a run: the flags that the generation loop and the callback read and the
clock, for each iteration. -/
structure RunEnv where
  allocs : Allocs
  shutdown : Nat → Bool
  cancel : Nat → Bool
  /-- `elapsed_seconds(&start_time)` -/
  elapsed : Nat → ℚ
  /-- `*cancel || g_shutdown_requested`, as the callback reads it -/
  cbCancelled : Nat → Bool

/-- No cancel, shutdown or timeout; the clock is looked at in every 32nd iteration. -/
structure RunEnv.Calm (env : RunEnv) (params : SampleParams) : Prop where
  shutdown : ∀ i, env.shutdown i = false
  cancel : ∀ i, env.cancel i = false
  elapsed : ∀ i, i % 32 = 0 → env.elapsed i ≤ params.maxInferenceSeconds
  callback : ∀ i, env.cbCancelled i = false

/-! ## A concrete model

Its tokens are bytes, and its logits are the token sequence that they belong to. -/

namespace Sample

structure Ctx where
  kv : List Token
  logits : List Token
  deriving DecidableEq, Inhabited

/-- `next` picks the token that follows a sequence, and `rc` is the result of decoding up to it. -/
def byteModel (next : List Token → Token) (rc : List Token → Int) : Llama Ctx Unit where
  eos := 0
  tokenize text cap :=
    if (text.length : Int) ≤ cap then (text.length, text.map fun b => (b.toNat : Int))
    else if text.length < 2 ^ 31 then (-(text.length : Int), [])
    else (-2 ^ 31, [])
  tokenToPiece token := some ⟨[token.toNat.toUInt8], by simp⟩
  memoryClear s := { s with kv := [] }
  decode s batch :=
    let seq := s.kv ++ batch
    if rc seq = 0 then (0, ⟨seq, seq⟩) else (rc seq, s)
  perfReset s := s
  chainInit := ()
  chainAdd _ _ := ()
  sample _ s := (next s.logits, ())
  accept chain _ := chain
  applyTemplate _ _ := (0, [])

theorem byteModel_readsOnly (next : List Token → Token) (rc : List Token → Int) :
    (byteModel next rc).ReadsOnly Ctx.kv Ctx.logits where
  clear _ _ := rfl
  decode_rc s s' batch h := by
    simp only [byteModel, h]
    split <;> rfl
  decode_kv s s' batch h := by
    simp only [byteModel, h]
    split
    · rfl
    · exact h
  decode_logits s s' batch h := by
    simp only [byteModel, h]
    split
    · exact fun _ => rfl
    · next hrc => exact fun hzero => absurd hzero hrc
  sample chain s s' h := by simp only [byteModel, h]

theorem byteModel_countsTokens (next : List Token → Token) (rc : List Token → Int) :
    (byteModel next rc).CountsTokens List.length := by
  intro text cap
  simp only [byteModel]
  split
  · rfl
  · split <;> rfl

/-- All allocations succeed and nothing disturbs the run. -/
def calm : RunEnv where
  allocs := ⟨true, true, true, true, true, true, fun _ => true⟩
  shutdown _ := false
  cancel _ := false
  elapsed _ := 0
  cbCancelled _ := false

def engine : Engine where
  nCtx := 4096
  nBatch := 2048
  useChatmlFallback := true

end Sample

end Professord
