import Professord.Worker.SameText

/-!
# AccumExact — the response buffer over a run of calls

`accum_token_cb` doubles the buffer, or makes it just large enough, and stops at
`PROF_CONTENT_MAX`.  Whatever the order of pieces, flags and results of `realloc`, the buffer holds
what has been accepted, and what is refused leaves it as it was.
-/

namespace Professord

open CText

/-- A call of `accum_token_cb`, with the flags that it reads and the result of its `realloc`. -/
structure AccumCall where
  piece : Bytes
  cancel : Bool
  shutdown : Bool
  reallocOk : Bool
  deriving DecidableEq

def AccumCall.run (c : AccumCall) (b : AccumBuf) : Int × AccumBuf :=
  accumTokenCb b c.piece c.cancel c.shutdown c.reallocOk

/-- The buffer after the calls, and the pieces that were accepted. -/
def accumCalls (b : AccumBuf) : List AccumCall → AccumBuf × List Bytes
  | [] => (b, [])
  | c :: calls =>
      let r := c.run b
      let rest := accumCalls r.2 calls
      (rest.1, if r.1 = 0 then c.piece :: rest.2 else rest.2)

/-! ## One call -/

/-- Why a text is refused: a flag is set, the limit of the content is reached, or the buffer has to
grow and cannot. -/
def AccumBuf.Refuses (b : AccumBuf) (text : Bytes) (cancel shutdown reallocOk : Bool) : Prop :=
  cancel = true ∨ shutdown = true ∨ profContentMax ≤ b.len + text.length ∨
    b.cap ≤ b.len + text.length ∧ reallocOk = false

namespace AccumBuf.Holds

variable {b : AccumBuf} {t : Bytes}

/-- The callback refuses a text and changes nothing, or appends it. -/
theorem call (h : b.Holds t) (piece : Bytes) (cancel shutdown reallocOk : Bool) :
    (b.Refuses (cstr piece) cancel shutdown reallocOk ∧
        accumTokenCb b piece cancel shutdown reallocOk = (-1, b)) ∨
      (¬ b.Refuses (cstr piece) cancel shutdown reallocOk ∧
        ∃ b', accumTokenCb b piece cancel shutdown reallocOk = (0, b') ∧
          b'.Holds (t ++ cstr piece)) := by
  have hlen : b.len + (cstr piece).length = (t ++ cstr piece).length := by
    rw [h.len, List.length_append]
  have hnul := zero_notMem_cstr piece
  have hcap := h.bounded
  unfold Refuses accumTokenCb
  by_cases hflag : (cancel || shutdown) = true
  · refine .inl ⟨?_, if_pos hflag⟩
    rcases Bool.or_eq_true_iff.1 hflag with hc | hs
    · exact .inl hc
    · exact .inr (.inl hs)
  · have hflags : cancel = false ∧ shutdown = false := by simpa using hflag
    simp only [hflags.1, hflags.2, Bool.or_self, Bool.false_eq_true, if_false, false_or]
    by_cases hgrow : b.len + (cstr piece).length ≥ b.cap
    · rw [if_pos hgrow]
      by_cases hlimit : profContentMax ≤ b.len + (cstr piece).length
      · -- the capacity stops at the limit
        have hfull : b.len + (cstr piece).length ≥
            grownCap b.cap (b.len + (cstr piece).length) := by
          unfold grownCap
          grind -linarith
        exact .inl ⟨.inl hlimit, by rw [if_pos hfull]⟩
      · rcases grownCap_bounds b.cap (Nat.lt_of_not_le hlimit) with ⟨hroom, hnew⟩
        rw [if_neg (Nat.not_le.2 hroom)]
        cases reallocOk with
        | false => exact .inl ⟨.inr ⟨hgrow, rfl⟩, rfl⟩
        | true =>
            exact .inr ⟨by simp [hlimit], _, rfl, h.append hnul (hlen ▸ hroom) hnew⟩
    · rw [if_neg hgrow]
      have hroom : b.len + (cstr piece).length < b.cap := Nat.lt_of_not_le hgrow
      exact .inr ⟨by omega, _, rfl, h.append hnul (hlen ▸ hroom) h.bounded⟩

/-- Along a run of calls the buffer holds the accepted pieces. -/
theorem calls (h : b.Holds t) {calls : List AccumCall} (hnul : ∀ c ∈ calls, 0 ∉ c.piece) :
    (accumCalls b calls).1.Holds (t ++ (accumCalls b calls).2.flatten) := by
  induction calls generalizing b t with
  | nil => simpa [accumCalls] using h
  | cons c calls ih =>
      have hrest := fun d hd => hnul d (List.mem_cons_of_mem c hd)
      have hpiece : cstr c.piece = c.piece := cstr_of_zero_notMem (hnul c List.mem_cons_self)
      rcases h.call c.piece c.cancel c.shutdown c.reallocOk with ⟨_, hcb⟩ | ⟨_, b', hcb, hb'⟩
      · have hrun : c.run b = (-1, b) := hcb
        simpa [accumCalls, hrun] using ih h hrest
      · have hrun : c.run b = (0, b') := hcb
        rw [hpiece] at hb'
        simpa [accumCalls, hrun] using ih hb' hrest

end AccumBuf.Holds

/-! ## The run -/

/-- The buffer is the text of the accepted pieces, terminated and within its capacity; the next
call that refuses has a reason and changes nothing; and the reply has the whole text. -/
structure AccumExact (b : AccumBuf) (accepted : List Bytes) : Prop where
  room : b.len < b.cap
  bounded : b.cap ≤ profContentMax
  len : b.len = accepted.flatten.length
  buf : b.buf = some (accepted.flatten ++ [0])
  refused : ∀ c : AccumCall, 0 ∉ c.piece → (c.run b).1 ≠ 0 →
    (c.run b).2 = b ∧ (c.cancel = true ∨ c.shutdown = true ∨
      b.cap ≤ b.len + c.piece.length ∧ c.reallocOk = false ∨
      profContentMax - 1 < (accepted.flatten ++ c.piece).length)
  reply : ∀ job : WorkerJob, job.response = b → (replyContent job).text = accepted.flatten

/-- After every run of calls for pieces without NUL, for every `max_tokens`. -/
theorem accum_exact (maxTokens : Int) {calls : List AccumCall}
    (hnul : ∀ c ∈ calls, 0 ∉ c.piece) :
    AccumExact (accumCalls (accumInit maxTokens true) calls).1
      (accumCalls (accumInit maxTokens true) calls).2 := by
  have h := (AccumBuf.Holds.init maxTokens).calls hnul
  rw [List.nil_append] at h
  refine ⟨h.len ▸ h.fits, h.bounded, h.len, h.buf, ?_, fun job hjob => replyContent_holds h hjob⟩
  intro c hc hne
  have hlen := h.len
  rcases h.call c.piece c.cancel c.shutdown c.reallocOk with ⟨hwhy, hcb⟩ | ⟨_, b', hcb, _⟩
  · refine ⟨by rw [AccumCall.run, hcb], ?_⟩
    rw [cstr_of_zero_notMem hc] at hwhy
    rcases hwhy with hcancel | hshutdown | hlimit | hgrowth
    · exact .inl hcancel
    · exact .inr (.inl hshutdown)
    · rw [hlen, ← List.length_append] at hlimit
      exact .inr (.inr (.inr (Nat.lt_of_lt_of_le (Nat.sub_one_lt (by decide)) hlimit)))
    · exact .inr (.inr (.inl hgrowth))
  · exact absurd (by rw [AccumCall.run, hcb]) hne

namespace Sample

/-- The second piece does not fit the first 8192 bytes and `realloc` fails; the third fits. -/
def refusedGrowth : List AccumCall :=
  [⟨ascii "Hello", false, false, true⟩, ⟨List.replicate 8187 32, false, false, false⟩,
    ⟨ascii "!", false, false, true⟩]

theorem accum_exact_refusedGrowth :
    (∀ c ∈ refusedGrowth, 0 ∉ c.piece) ∧
      AccumExact (accumCalls (accumInit 16 true) refusedGrowth).1
        (accumCalls (accumInit 16 true) refusedGrowth).2 := by
  have hblank : (0 : UInt8) ∉ List.replicate 8187 32 :=
    fun h => absurd (List.eq_of_mem_replicate h) (by decide)
  have hnul : ∀ c ∈ refusedGrowth, 0 ∉ c.piece :=
    List.forall_mem_cons.2 ⟨by decide, List.forall_mem_cons.2 ⟨hblank,
      List.forall_mem_cons.2 ⟨by decide, List.forall_mem_nil _⟩⟩⟩
  exact ⟨hnul, accum_exact 16 hnul⟩

end Sample

end Professord
