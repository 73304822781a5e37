import Professord.ApiTypes
import Professord.Lib.CircularBuffer

/-!
# TokenRing — the ring between the worker and the event loop (`token_ring_t`)

The worker stores token texts, the event loop takes them out in batches, each under the ring
mutex.  A slot is `char[TOKEN_TEXT_MAX]`, so a longer piece is cut when it is stored.
-/

namespace Professord

open CText

abbrev tokenRingSize : Nat := 256
abbrev tokenTextMax : Nat := 128

/-- The batch size of one locked section of `drain_stream_ring`. -/
abbrev drainBatchMax : Nat := 32

structure TokenRing where
  slots : CircularBuffer (CBuf tokenTextMax) (tokenRingSize - 1)
  done : Bool

namespace TokenRing

def init : TokenRing :=
  ⟨CircularBuffer.init default, false⟩

instance : Inhabited TokenRing := ⟨init⟩

/-- The texts that wait in the ring, oldest first. -/
def texts (r : TokenRing) : List Bytes :=
  r.slots.contents.map CBuf.text

def isEmpty (r : TokenRing) : Bool :=
  r.slots.isEmpty

@[simp] theorem texts_init : init.texts = [] := by
  simp [init, texts]

theorem isEmpty_iff (r : TokenRing) : r.isEmpty = true ↔ r.texts = [] := by
  simp [isEmpty, texts, CircularBuffer.isEmpty_iff]

theorem length_texts_le (r : TokenRing) : r.texts.length ≤ tokenRingSize - 1 := by
  have := r.slots.count_lt
  simp only [texts, List.length_map, CircularBuffer.length_contents]
  omega

end TokenRing

/-! ## `ring_write` -/

/-- What is stored for a token: its C string, cut to fit the slot. -/
def slotText (text : Bytes) : CBuf tokenTextMax where
  text :=
    let len := (cstr text).length
    -- room for the terminator
    let len := if len ≥ tokenTextMax then tokenTextMax - 1 else len
    (cstr text).take len
  fits := by
    have hmax : tokenTextMax = 128 := rfl
    by_cases h : (cstr text).length ≥ tokenTextMax
    · simp only [if_pos h, List.length_take]
      omega
    · simp only [if_neg h, List.length_take]
      omega
  noNul := fun h => zero_notMem_cstr text (List.mem_of_mem_take h)

theorem slotText_text (text : Bytes) :
    (slotText text).text = (cstr text).take (tokenTextMax - 1) := by
  simp only [slotText]
  by_cases h : (cstr text).length ≥ tokenTextMax
  · simp [h]
  · have hfit : (cstr text).length ≤ tokenTextMax - 1 := by omega
    simp only [if_neg h, List.take_length]
    exact (List.take_of_length_le hfit).symm

inductive RingWrite
  | waits
  | cancelled
  | stored (r : TokenRing)

/-- One locked section of `ring_write`; `waits` is the blocked `pthread_cond_timedwait`. -/
def ringWrite (r : TokenRing) (text : Bytes) (cancel shutdown : Bool) : RingWrite :=
  if r.slots.isFull && !cancel && !shutdown then
    .waits
  else if cancel || shutdown then
    .cancelled
  else
    .stored { r with slots := r.slots.push (slotText text) }

/-- A token is only stored into a free slot, behind the tokens already waiting. -/
theorem ringWrite_stored {r r' : TokenRing} {text : Bytes} {cancel shutdown : Bool}
    (h : ringWrite r text cancel shutdown = .stored r') :
    r'.texts = r.texts ++ [(slotText text).text] ∧ r'.done = r.done ∧
      cancel = false ∧ shutdown = false := by
  unfold ringWrite at h
  cases hc : cancel <;> cases hs : shutdown <;> cases hf : r.slots.isFull <;>
    simp [hc, hs, hf] at h
  subst h
  simp [TokenRing.texts, CircularBuffer.contents_push _ _ hf]

/-- The producer waits only on a ring without a free slot. -/
theorem ringWrite_waits {r : TokenRing} {text : Bytes} {cancel shutdown : Bool}
    (h : ringWrite r text cancel shutdown = .waits) : r.texts.length = tokenRingSize - 1 := by
  unfold ringWrite at h
  cases hf : r.slots.isFull with
  | false => cases cancel <;> cases shutdown <;> simp [hf] at h
  | true => simpa [TokenRing.texts] using CircularBuffer.count_of_isFull hf

/-! ## Batch drain -/

/-- One locked section of `drain_stream_ring`: the batch taken and the ring left behind. -/
def drainBatch (r : TokenRing) : List Bytes × TokenRing :=
  let taken := r.slots.popUpTo drainBatchMax
  (taken.1.map CBuf.text, { r with slots := taken.2 })

theorem drainBatch_spec (r : TokenRing) :
    (drainBatch r).1 ++ (drainBatch r).2.texts = r.texts ∧ (drainBatch r).2.done = r.done := by
  rcases CircularBuffer.popUpTo_spec drainBatchMax r.slots with ⟨htake, hdrop⟩
  refine ⟨?_, rfl⟩
  simp only [drainBatch, TokenRing.texts, htake, hdrop, ← List.map_append, List.take_append_drop]

/-- A batch that is not full has emptied the ring. -/
theorem drainBatch_short {r : TokenRing} (h : (drainBatch r).1.length ≠ drainBatchMax) :
    (drainBatch r).2.texts = [] := by
  rcases CircularBuffer.popUpTo_spec drainBatchMax r.slots with ⟨htake, hdrop⟩
  simp only [drainBatch, htake, List.length_map, List.length_take] at h
  simp only [drainBatch, TokenRing.texts, hdrop, List.map_eq_nil_iff, List.drop_eq_nil_iff]
  omega

end Professord
