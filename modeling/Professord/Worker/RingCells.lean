import Professord.Worker.TokenRing

/-!
# RingCells — the token ring as it lies in memory

`token_ring_t` is an array of 256 slots with two `int` indices that are advanced modulo
`TOKEN_RING_SIZE`.  Every access to the array is checked here, so that a run in which an index
left the array would have no outcome.  The operations refine those of `TokenRing`, and a run of
them in any order is a bounded FIFO.
-/

namespace Professord

open CText

/-- `token_ring_t`: `text`, `head`, `tail` and the `done` flag. -/
structure RingCells where
  text : Vector (CBuf tokenTextMax) tokenRingSize
  head : Nat
  tail : Nat
  done : Bool

namespace RingCells

def init : RingCells where
  text := Vector.replicate tokenRingSize default
  head := 0
  tail := 0
  done := false

/-! ## The operations of worker.c and server.c -/

/-- `ring_is_full` -/
def isFull (r : RingCells) : Bool :=
  (r.head + 1) % tokenRingSize == r.tail

/-- `ring_is_empty` and `ring_is_empty_unlocked` -/
def isEmpty (r : RingCells) : Bool :=
  r.head == r.tail

inductive Written
  | waits
  | cancelled
  | stored (r : RingCells)

/-- One locked section of `ring_write`; `none` is an access outside the array. -/
def ringWrite (r : RingCells) (text : Bytes) (cancel shutdown : Bool) : Option Written :=
  if r.isFull && !cancel && !shutdown then
    some .waits
  else if cancel || shutdown then
    some .cancelled
  else if h : r.head < tokenRingSize then
    some (.stored
      { r with
        text := r.text.set r.head (slotText text) h
        head := (r.head + 1) % tokenRingSize })
  else
    none

/-- The `while` loop of one locked section of `drain_stream_ring`, with room for `k` tokens. -/
def takeUpTo : Nat → RingCells → Option (List Bytes × RingCells)
  | 0, r => some ([], r)
  | k + 1, r =>
      if r.isEmpty then
        some ([], r)
      else do
        let slot ← r.text[r.tail]?
        let tlen := slot.text.length
        let tlen := if tlen ≥ tokenTextMax then tokenTextMax - 1 else tlen
        let rest ← takeUpTo k { r with tail := (r.tail + 1) % tokenRingSize }
        some (slot.text.take tlen :: rest.1, rest.2)

def drainBatch (r : RingCells) : Option (List Bytes × RingCells) :=
  takeUpTo drainBatchMax r

/-- `ring_read` into a buffer of `outLen` bytes: the text read, or nothing from an empty ring. -/
def ringRead (r : RingCells) (outLen : Nat) : Option (Option Bytes × RingCells) :=
  if r.isEmpty then
    some (none, r)
  else do
    let slot ← r.text[r.tail]?
    some (some (slot.text.take (outLen - 1)), { r with tail := (r.tail + 1) % tokenRingSize })

/-! ## The queue in the array -/

/-- How many tokens wait. -/
def count (r : RingCells) : Nat :=
  (r.head + tokenRingSize - r.tail) % tokenRingSize

/-- Slot `i` holds a token that has not been taken out. -/
def Unread (r : RingCells) (i : Nat) : Prop :=
  ∃ k < r.count, i = (r.tail + k) % tokenRingSize

/-- The waiting tokens, oldest first. -/
def waiting (r : RingCells) : List Bytes :=
  (List.range r.count).filterMap fun k : Nat =>
    (r.text[(r.tail + k) % tokenRingSize]?).map CBuf.text

structure InRange (r : RingCells) : Prop where
  head_lt : r.head < tokenRingSize
  tail_lt : r.tail < tokenRingSize

/-- The ring as a circular buffer. -/
def toRing (r : RingCells) : TokenRing where
  slots :=
    { slots := fun i => r.text[i.val]
      head := Fin.ofNat tokenRingSize r.head
      tail := Fin.ofNat tokenRingSize r.tail }
  done := r.done

theorem inRange_init : init.InRange :=
  ⟨by decide, by decide⟩

/-! ## The operations refine those of `TokenRing` -/

theorem val_toRing_head {r : RingCells} (h : r.InRange) : (r.toRing.slots.head).val = r.head :=
  Nat.mod_eq_of_lt h.head_lt

theorem val_toRing_tail {r : RingCells} (h : r.InRange) : (r.toRing.slots.tail).val = r.tail :=
  Nat.mod_eq_of_lt h.tail_lt

theorem isEmpty_toRing {r : RingCells} (h : r.InRange) : r.toRing.slots.isEmpty = r.isEmpty := by
  rw [Bool.eq_iff_iff]
  simp only [CircularBuffer.isEmpty, isEmpty, beq_iff_eq, Fin.ext_iff, val_toRing_head h,
    val_toRing_tail h]

theorem isFull_toRing {r : RingCells} (h : r.InRange) : r.toRing.slots.isFull = r.isFull := by
  rw [Bool.eq_iff_iff]
  simp only [CircularBuffer.isFull, isFull, beq_iff_eq, Fin.ext_iff, Fin.val_add,
    val_toRing_head h, val_toRing_tail h]
  rfl

theorem count_toRing {r : RingCells} (h : r.InRange) : r.toRing.slots.count = r.count := by
  have hhead := h.head_lt
  have htail := h.tail_lt
  simp only [CircularBuffer.count, count, Fin.sub_def, val_toRing_head h, val_toRing_tail h]
  congr 1
  omega

theorem waiting_eq {r : RingCells} (h : r.InRange) : r.waiting = r.toRing.texts := by
  have hslot : ∀ k ∈ List.range r.count,
      (r.text[(r.tail + k) % tokenRingSize]?).map CBuf.text =
        some (CBuf.text (r.toRing.slots.slots
          (r.toRing.slots.tail + Fin.ofNat tokenRingSize k))) := by
    intro k _
    -- the reduced index is in the array, so the lookup does not fail
    have hlt : (r.tail + k) % tokenRingSize < tokenRingSize := Nat.mod_lt _ (by decide)
    have hval : (r.toRing.slots.tail + Fin.ofNat tokenRingSize k).val =
        (r.tail + k) % tokenRingSize := by
      rw [Fin.val_add, val_toRing_tail h]
      exact Nat.add_mod_mod r.tail k tokenRingSize
    rw [Vector.getElem?_eq_getElem hlt]
    simp only [toRing, Option.map_some] at hval ⊢
    simp only [hval]
  rw [waiting, List.filterMap_congr hslot, List.filterMap_eq_map', TokenRing.texts,
    CircularBuffer.contents, count_toRing h, List.map_map]
  rfl

theorem ofNat_succ {n : Nat} (h : n < tokenRingSize) :
    Fin.ofNat tokenRingSize ((n + 1) % tokenRingSize) = Fin.ofNat tokenRingSize n + 1 := by
  apply Fin.ext
  rw [Fin.val_add]
  simp only [Fin.val_ofNat, Nat.mod_mod, Nat.mod_eq_of_lt h]
  rfl

theorem toRing_push {r : RingCells} (h : r.InRange) (slot : CBuf tokenTextMax) :
    toRing { r with
        text := r.text.set r.head slot h.head_lt
        head := (r.head + 1) % tokenRingSize } =
      { r.toRing with slots := r.toRing.slots.push slot } := by
  have hslots : ∀ i : Fin tokenRingSize, (r.text.set r.head slot h.head_lt)[i.val] =
      if i = Fin.ofNat tokenRingSize r.head then slot else r.text[i.val] := by
    intro i
    rw [Vector.getElem_set]
    simp only [Fin.ext_iff, Fin.val_ofNat, Nat.mod_eq_of_lt h.head_lt, eq_comm]
  simp only [toRing, CircularBuffer.push, ofNat_succ h.head_lt]
  congr 2
  exact funext hslots

theorem toRing_advance {r : RingCells} (h : r.InRange) :
    toRing { r with tail := (r.tail + 1) % tokenRingSize } =
      { r.toRing with
        slots := { r.toRing.slots with tail := r.toRing.slots.tail + 1 } } := by
  simp only [toRing, ofNat_succ h.tail_lt]

theorem InRange.advance {r : RingCells} (h : r.InRange) :
    ({ r with tail := (r.tail + 1) % tokenRingSize } : RingCells).InRange :=
  ⟨h.head_lt, Nat.mod_lt _ (by decide)⟩

/-- A write never leaves the array, and what it does is `TokenRing`'s `ringWrite`. -/
theorem ringWrite_toRing {r : RingCells} (h : r.InRange) (text : Bytes)
    (cancel shutdown : Bool) :
    (∃ r', r.ringWrite text cancel shutdown = some (.stored r') ∧ r'.InRange ∧
        Professord.ringWrite r.toRing text cancel shutdown = .stored r'.toRing ∧
        ∀ i ≠ r.head, r'.text[i]? = r.text[i]?) ∨
      r.ringWrite text cancel shutdown = some .waits ∨
      r.ringWrite text cancel shutdown = some .cancelled := by
  unfold ringWrite Professord.ringWrite
  rw [isFull_toRing h]
  split
  · exact .inr (.inl rfl)
  · split
    · exact .inr (.inr rfl)
    · rw [dif_pos h.head_lt]
      refine .inl ⟨_, rfl, ⟨Nat.mod_lt _ (by decide), h.tail_lt⟩, ?_, ?_⟩
      · rw [toRing_push h]
      · intro i hi
        exact Vector.getElem?_set_ne h.head_lt (Ne.symm hi)

/-- A stored token always fits, so neither consumer cuts it again. -/
theorem take_slot (slot : CBuf tokenTextMax) :
    slot.text.take (if slot.text.length ≥ tokenTextMax then tokenTextMax - 1
      else slot.text.length) = slot.text := by
  have hfits : ¬ slot.text.length ≥ tokenTextMax := Nat.not_le.2 slot.fits
  rw [if_neg hfits, List.take_length]

theorem oldest_toRing {r : RingCells} (h : r.InRange) :
    r.text[r.tail]? = some (r.toRing.slots.slots r.toRing.slots.tail) := by
  rw [Vector.getElem?_eq_getElem h.tail_lt]
  have hval := val_toRing_tail h
  simp only [toRing] at hval ⊢
  simp only [hval]

theorem takeUpTo_toRing (k : Nat) {r : RingCells} (h : r.InRange) :
    ∃ r', r.takeUpTo k = some ((r.toRing.slots.popUpTo k).1.map CBuf.text, r') ∧ r'.InRange ∧
      r'.toRing = { r.toRing with slots := (r.toRing.slots.popUpTo k).2 } ∧
      r'.text = r.text := by
  induction k generalizing r with
  | zero => exact ⟨r, rfl, h, rfl, rfl⟩
  | succ k ih =>
      cases hempty : r.isEmpty with
      | true =>
          have hring : r.toRing.slots.isEmpty = true := by rw [isEmpty_toRing h, hempty]
          exact ⟨r, by simp [takeUpTo, hempty, CircularBuffer.popUpTo, hring], h,
            by simp [CircularBuffer.popUpTo, hring], rfl⟩
      | false =>
          have hring : r.toRing.slots.isEmpty = false := by rw [isEmpty_toRing h, hempty]
          rcases ih h.advance with ⟨r', hrest, hrange, habs, htext⟩
          rw [toRing_advance h] at hrest habs
          refine ⟨r', ?_, hrange, ?_, htext⟩
          · simp only [takeUpTo, hempty, CircularBuffer.popUpTo, hring, Bool.false_eq_true,
              if_false, oldest_toRing h, Option.bind_eq_bind, Option.bind_some, hrest,
              take_slot, List.map_cons]
          · simp [CircularBuffer.popUpTo, hring, habs]

/-- The batch of `drain_stream_ring` is `TokenRing`'s `drainBatch`. -/
theorem drainBatch_toRing {r : RingCells} (h : r.InRange) :
    ∃ r', r.drainBatch = some ((Professord.drainBatch r.toRing).1, r') ∧ r'.InRange ∧
      r'.toRing = (Professord.drainBatch r.toRing).2 ∧ r'.text = r.text :=
  takeUpTo_toRing drainBatchMax h

/-- `ring_read` into a buffer of a slot's size takes what a batch of one token takes. -/
theorem ringRead_eq {r : RingCells} (h : r.InRange) {outLen : Nat}
    (hlen : tokenTextMax ≤ outLen) :
    (r.ringRead outLen).map (fun token => (token.1.toList, token.2)) = r.takeUpTo 1 := by
  unfold ringRead takeUpTo takeUpTo
  -- a slot's text is shorter than the buffer and is copied whole
  cases hempty : r.isEmpty with
  | true => rfl
  | false =>
      have htail := h.tail_lt
      have hfits : r.text[r.tail].text.length ≤ outLen - 1 := by
        have hslot := r.text[r.tail].fits
        omega
      simp only [Bool.false_eq_true, if_false, Vector.getElem?_eq_getElem h.tail_lt,
        Option.bind_eq_bind, Option.bind_some, List.take_of_length_le hfits, take_slot,
        Option.map_some, Option.toList_some]

/-- An empty ring gives nothing, however many tokens are asked for. -/
theorem takeUpTo_isEmpty {r : RingCells} (h : r.isEmpty = true) (k : Nat) :
    r.takeUpTo k = some ([], r) := by
  cases k with
  | zero => rfl
  | succ k => simp [takeUpTo, h]

theorem head_not_unread {r : RingCells} (h : r.InRange) : ¬ r.Unread r.head := by
  -- fewer than 256 offsets are in use, and `head` is the first one that is not
  rintro ⟨k, hk, heq⟩
  have hhead := h.head_lt
  have htail := h.tail_lt
  simp only [count, tokenRingSize] at hk heq hhead htail
  omega

end RingCells

/-! ## Runs of the ring -/

/-- What is done to the ring under its mutex, by the worker or by a consumer. -/
inductive RingStep
  | write (text : Bytes) (cancel shutdown : Bool)
  | drain
  | read

/-- The ring with the tokens successfully written and the tokens taken out so far. -/
structure RingLog where
  ring : RingCells
  written : List Bytes
  taken : List Bytes

namespace RingLog

def init : RingLog :=
  ⟨.init, [], []⟩

/-- One locked section; `ring_read` gets a buffer of `outLen` bytes. -/
def step (outLen : Nat) (l : RingLog) : RingStep → Option RingLog
  | .write text cancel shutdown => do
      match ← l.ring.ringWrite text cancel shutdown with
      | .stored ring => some { l with ring, written := l.written ++ [text] }
      | .waits => some l
      | .cancelled => some l
  | .drain => do
      let batch ← l.ring.drainBatch
      some { l with ring := batch.2, taken := l.taken ++ batch.1 }
  | .read => do
      let token ← l.ring.ringRead outLen
      some { l with ring := token.2, taken := l.taken ++ token.1.toList }

def run (outLen : Nat) (l : RingLog) (ops : List RingStep) : Option RingLog :=
  ops.foldlM (step outLen) l

/-- The indices lie in the array, and nothing is lost, doubled or reordered. -/
structure Fifo (l : RingLog) : Prop where
  inRange : l.ring.InRange
  queue : l.taken ++ l.ring.waiting = l.written.map fun text => (slotText text).text

theorem fifo_init : init.Fifo :=
  ⟨RingCells.inRange_init, by decide⟩

/-- What a step keeps of the slots that have not been taken out. -/
def KeepsUnread (l l' : RingLog) : Prop :=
  ∀ i, l.ring.Unread i → l'.ring.text[i]? = l.ring.text[i]?

/-- The log after tokens have been taken out. -/
def after (l : RingLog) (taken : List Bytes × RingCells) : RingLog :=
  { l with ring := taken.2, taken := l.taken ++ taken.1 }

variable {outLen : Nat}

theorem step_drain (l : RingLog) :
    l.step outLen .drain = (l.ring.takeUpTo drainBatchMax).map l.after := by
  unfold step RingCells.drainBatch
  cases l.ring.takeUpTo drainBatchMax <;> rfl

theorem step_read {l : RingLog} (h : l.ring.InRange) (hlen : tokenTextMax ≤ outLen) :
    l.step outLen .read = (l.ring.takeUpTo 1).map l.after := by
  rw [← RingCells.ringRead_eq h hlen]
  unfold step
  cases l.ring.ringRead outLen <;> rfl

theorem Fifo.take {l : RingLog} (h : l.Fifo) (k : Nat) :
    ∃ l', (l.ring.takeUpTo k).map l.after = some l' ∧ l'.Fifo ∧ l.KeepsUnread l' := by
  rcases RingCells.takeUpTo_toRing k h.inRange with ⟨r', htake, hrange, habs, htext⟩
  rcases CircularBuffer.popUpTo_spec k l.ring.toRing.slots with ⟨hfirst, hrest⟩
  refine ⟨_, by rw [htake]; rfl, ⟨hrange, ?_⟩, ?_⟩
  -- what is popped moves from the front of `waiting` to the end of `taken`
  · have hqueue := h.queue
    rw [RingCells.waiting_eq h.inRange] at hqueue
    simp only [after]
    rw [RingCells.waiting_eq hrange, habs, ← hqueue]
    simp only [TokenRing.texts, hfirst, hrest, List.append_assoc, ← List.map_append,
      List.take_append_drop]
  · intro i _
    simp only [after, htext]

/-- A step stays inside the array, keeps the queue and leaves the unread slots alone. -/
theorem Fifo.step {l : RingLog} (h : l.Fifo) (hlen : tokenTextMax ≤ outLen) (op : RingStep) :
    ∃ l', l.step outLen op = some l' ∧ l'.Fifo ∧ l.KeepsUnread l' := by
  cases op with
  | write text cancel shutdown =>
      rcases RingCells.ringWrite_toRing h.inRange text cancel shutdown with
        ⟨r', hwrite, hrange, habs, htext⟩ | hwrite | hwrite
      · refine ⟨_, by rw [RingLog.step, hwrite]; rfl, ⟨hrange, ?_⟩, ?_⟩
        · have hqueue := h.queue
          rw [RingCells.waiting_eq h.inRange] at hqueue
          rw [RingCells.waiting_eq hrange, (ringWrite_stored habs).1, ← List.append_assoc, hqueue,
            List.map_append]
          rfl
        · -- the only slot written is the one at `head`, and it is free
          intro i hi
          exact htext i fun heq => RingCells.head_not_unread h.inRange (heq ▸ hi)
      · exact ⟨l, by rw [RingLog.step, hwrite]; rfl, h, fun _ _ => rfl⟩
      · exact ⟨l, by rw [RingLog.step, hwrite]; rfl, h, fun _ _ => rfl⟩
  | drain =>
      rw [step_drain]
      exact h.take drainBatchMax
  | read =>
      rw [step_read h.inRange hlen]
      exact h.take 1

theorem Fifo.run {l : RingLog} (h : l.Fifo) (hlen : tokenTextMax ≤ outLen)
    (ops : List RingStep) : ∃ l', l.run outLen ops = some l' ∧ l'.Fifo := by
  -- on the steps left; `Fifo.step` carries the invariant over each
  induction ops generalizing l with
  | nil => exact ⟨l, rfl, h⟩
  | cons op ops ih =>
      rcases h.step hlen op with ⟨l', hstep, hfifo, _⟩
      rcases ih hfifo with ⟨l'', hrun, hlast⟩
      refine ⟨l'', ?_, hlast⟩
      rw [RingLog.run, List.foldlM_cons, hstep]
      exact hrun

/-- Reading `k` times gives what a batch of up to `k` tokens gives. -/
theorem run_reads (hlen : tokenTextMax ≤ outLen) (k : Nat) {l : RingLog}
    (h : l.ring.InRange) :
    l.run outLen (List.replicate k .read) = (l.ring.takeUpTo k).map l.after := by
  -- on the number of reads; an empty ring stays empty for the rest of them
  induction k generalizing l with
  | zero => simp [run, RingCells.takeUpTo, after]
  | succ k ih =>
      rw [List.replicate_succ, run, List.foldlM_cons, step_read h hlen]
      cases hempty : l.ring.isEmpty with
      | true =>
          have hafter : l.after ([], l.ring) = l := by simp [after]
          have hrest := ih h
          rw [RingCells.takeUpTo_isEmpty hempty, Option.map_some, hafter] at hrest
          rw [RingCells.takeUpTo_isEmpty hempty, RingCells.takeUpTo_isEmpty hempty,
            Option.map_some, hafter]
          exact hrest
      | false =>
          have htail := h.tail_lt
          have hrest := ih (l := l.after ([l.ring.text[l.ring.tail].text],
            { l.ring with tail := (l.ring.tail + 1) % tokenRingSize })) h.advance
          simp only [RingCells.takeUpTo, hempty, Bool.false_eq_true, if_false,
            RingCells.take_slot, Vector.getElem?_eq_getElem h.tail_lt, Option.bind_eq_bind,
            Option.bind_some, Option.map_some]
          refine hrest.trans ?_
          simp only [after]
          cases RingCells.takeUpTo k { l.ring with tail := (l.ring.tail + 1) % tokenRingSize } <;>
            simp [after]

end RingLog

/-- The same work with every batch read token by token. -/
def RingStep.byReads : RingStep → List RingStep
  | .drain => List.replicate drainBatchMax .read
  | op => [op]

theorem RingLog.run_one {outLen : Nat} (hlen : tokenTextMax ≤ outLen) {l : RingLog}
    (h : l.ring.InRange) (op : RingStep) : l.run outLen op.byReads = l.step outLen op := by
  cases op with
  | drain => rw [step_drain]; exact run_reads hlen drainBatchMax h
  | write text cancel shutdown => exact bind_pure _
  | read => exact bind_pure _

theorem RingLog.run_byReads {outLen : Nat} (hlen : tokenTextMax ≤ outLen) {l : RingLog}
    (h : l.Fifo) (ops : List RingStep) :
    l.run outLen (ops.flatMap RingStep.byReads) = l.run outLen ops := by
  induction ops generalizing l with
  | nil => rfl
  | cons op ops ih =>
      rcases h.step hlen op with ⟨l', hstep, hfifo, _⟩
      have hone := run_one hlen h.inRange op
      rw [hstep] at hone
      -- the reads of the first step, then those of the others
      calc l.run outLen ((op :: ops).flatMap RingStep.byReads)
          = (l.run outLen op.byReads).bind fun k => k.run outLen (ops.flatMap RingStep.byReads) := by
            rw [List.flatMap_cons, run, List.foldlM_append]
            rfl
        _ = l'.run outLen (ops.flatMap RingStep.byReads) := by rw [hone, Option.bind_some]
        _ = l'.run outLen ops := ih hfifo
        _ = l.run outLen (op :: ops) := by
            rw [run, run, List.foldlM_cons, hstep]
            rfl

/-- The ring is a bounded FIFO under both consumers: every run stays inside the array, never
overwrites a token that waits, hands out the tokens in the order written, and hands out the same
ones when each batch is read token by token. -/
theorem ring_fifo {outLen : Nat} (hlen : tokenTextMax ≤ outLen) (ops : List RingStep) :
    ∃ l, RingLog.init.run outLen ops = some l ∧
      l.ring.head < tokenRingSize ∧ l.ring.tail < tokenRingSize ∧
      l.ring.waiting.length = l.ring.count ∧ l.ring.count ≤ 255 ∧
      l.taken ++ l.ring.waiting = l.written.map (fun text => (cstr text).take 127) ∧
      (∀ op l', l.step outLen op = some l' → ∀ i, l.ring.Unread i →
        l'.ring.text[i]? = l.ring.text[i]?) ∧
      RingLog.init.run outLen (ops.flatMap RingStep.byReads) = some l := by
  rcases RingLog.fifo_init.run hlen ops with ⟨l, hrun, hfifo⟩
  have hrange := hfifo.inRange
  have hcount : l.ring.waiting.length = l.ring.count := by
    rw [RingCells.waiting_eq hrange, TokenRing.texts, List.length_map,
      CircularBuffer.length_contents, RingCells.count_toRing hrange]
  have hbound : l.ring.count ≤ 255 := by
    rw [← hcount, RingCells.waiting_eq hrange]
    exact TokenRing.length_texts_le _
  refine ⟨l, hrun, hrange.head_lt, hrange.tail_lt, hcount, hbound, ?_, ?_, ?_⟩
  · have hqueue := hfifo.queue
    simp only [slotText_text] at hqueue
    exact hqueue
  · intro op l' hstep
    rcases hfifo.step hlen op with ⟨l'', hstep', _, hkeep⟩
    rw [hstep] at hstep'
    cases hstep'
    exact hkeep
  · rw [RingLog.run_byReads hlen RingLog.fifo_init, hrun]

namespace Sample

def threeTokens : List RingStep :=
  [.write (ascii "a") false false, .write (ascii "b") false false, .read,
    .write (ascii "c") false false, .drain]

end Sample

/-- Three tokens are written, and taken with a batch and a slot-sized buffer. -/
theorem ring_fifo_threeTokens :
    ∃ l, RingLog.init.run 128 Sample.threeTokens = some l ∧
      l.written = [ascii "a", ascii "b", ascii "c"] ∧
      l.taken = [ascii "a", ascii "b", ascii "c"] ∧
      RingLog.init.run 128 (Sample.threeTokens.flatMap RingStep.byReads) = some l := by
  obtain ⟨l, hrun, -, -, hlength, -, hqueue, -, hreads⟩ :=
    ring_fifo (show tokenTextMax ≤ 128 by decide) Sample.threeTokens
  have hwritten : (RingLog.init.run 128 Sample.threeTokens).map RingLog.written =
      some [ascii "a", ascii "b", ascii "c"] := by decide
  have hempty : (RingLog.init.run 128 Sample.threeTokens).map (fun l => l.ring.count) = some 0 := by
    decide
  rw [hrun, Option.map_some, Option.some.injEq] at hwritten hempty
  -- nothing waits, so what was written has been taken
  have hnone : l.ring.waiting = [] := List.length_eq_zero_iff.1 (hlength.trans hempty)
  rw [hnone, List.append_nil, hwritten] at hqueue
  exact ⟨l, hrun, hwritten, hqueue.trans (by decide), hreads⟩

end Professord
