import Professord.Lib.LockedObject
import Professord.Worker.RingCells

/-!
# RingLocked — the sections of the token ring, byte by byte

The worker and the event loop share `token_ring_t` under its mutex.  Here every byte of a token, every
look at the indices and every look at `cancel` and `g_shutdown_requested` is a step of its own, so
that only the mutex makes the sections of `RingCells` the single steps that they are taken for
everywhere else.
-/

namespace Professord

open CText GuardedSystem LockedObject

/-! ## The memory of a ring -/

/-- `token_ring_t`, less the mutex and its conditions -/
structure RingMemory where
  text : Vector (Vector UInt8 tokenTextMax) tokenRingSize
  head : Nat
  tail : Nat
  done : Bool

namespace RingMemory

/-- `ring_init` -/
def init : RingMemory where
  text := Vector.replicate tokenRingSize (Vector.replicate tokenTextMax 0)
  head := 0
  tail := 0
  done := false

/-- `text[slot][i]`, if that is in the array -/
def byte? (m : RingMemory) (slot i : Nat) : Option UInt8 :=
  match m.text[slot]? with
  | none => none
  | some v => v[i]?

def put? (m : RingMemory) (slot i : Nat) (b : UInt8) : Option RingMemory :=
  match m.text[slot]? with
  | none => none
  | some v =>
      if i < tokenTextMax then
        some { m with text := m.text.setIfInBounds slot (v.setIfInBounds i b) }
      else
        none

end RingMemory

/-! ## The sections -/

/-- What is read without the mutex: `*cancel` and `g_shutdown_requested`. -/
structure Flags where
  cancel : Bool
  shutdown : Bool

/-- What a thread does with the ring between taking the mutex and giving it back; a wait on
`not_full` gives it back, and is followed by a section of its own. -/
inductive RingCall
  | isEmpty
  | write (text : Bytes)
  | markDone
  | drain
  | checkDone
  deriving DecidableEq

/-- How far a section has come, with its local variables. -/
inductive RingPc
  | isEmpty
  /-- the condition of the loop in `ring_write` -/
  | writeFull (text : Bytes)
  | waitCancel (text : Bytes)
  | waitShutdown (text : Bytes)
  /-- the check behind the loop -/
  | writeCancel (text : Bytes)
  | writeShutdown (text : Bytes)
  /-- byte `i` of the slot is next -/
  | writeBytes (i : Nat) (rest : Bytes)
  | writeHead
  | markDone
  | drainNext (batch : List Bytes)
  /-- `strlen` -/
  | drainLen (batch : List Bytes) (tlen : Nat)
  | drainBytes (batch : List Bytes) (tlen : Nat) (copied : Bytes)
  | drainTail (batch : List Bytes) (copied : Bytes)
  | checkDone
  | checkEmpty
  /-- the ends -/
  | empty (b : Bool)
  | waits
  | cancelled
  | stored
  | marked
  | drained (batch : List Bytes)
  | isDone (b : Bool)
  /-- an access outside the array -/
  | fault
  deriving DecidableEq

namespace RingCall

def enter : RingCall → RingPc
  | isEmpty => .isEmpty
  | write text => .writeFull text
  | markDone => .markDone
  | drain => .drainNext []
  | checkDone => .checkDone

end RingCall

namespace RingPc

def finished : RingPc → Bool
  | empty _ | waits | cancelled | stored | marked | drained _ | isDone _ | fault => true
  | _ => false

/-- The next access. -/
def step (c : RingPc) (m : RingMemory) (f : Flags) : RingPc × RingMemory :=
  match c with
  | isEmpty => (.empty (m.head == m.tail), m)
  | writeFull text =>
      (if (m.head + 1) % tokenRingSize = m.tail then .waitCancel text else .writeCancel text, m)
  | waitCancel text => (if f.cancel then .writeCancel text else .waitShutdown text, m)
  | waitShutdown text => (if f.shutdown then .writeCancel text else .waits, m)
  | writeCancel text => (if f.cancel then .cancelled else .writeShutdown text, m)
  | writeShutdown text =>
      -- the copy and its terminator
      (if f.shutdown then .cancelled else .writeBytes 0 ((slotText text).text ++ [0]), m)
  | writeBytes _ [] => (.writeHead, m)
  | writeBytes i (b :: rest) =>
      match m.put? m.head i b with
      | none => (.fault, m)
      | some m' => (.writeBytes (i + 1) rest, m')
  | writeHead => (.stored, { m with head := (m.head + 1) % tokenRingSize })
  | markDone => (.marked, { m with done := true })
  | drainNext batch =>
      (if m.head ≠ m.tail ∧ batch.length < drainBatchMax then .drainLen batch 0
        else .drained batch, m)
  | drainLen batch tlen =>
      match m.byte? m.tail tlen with
      | none => (.fault, m)
      | some b =>
          (if b = 0 then
            .drainBytes batch (if tlen ≥ tokenTextMax then tokenTextMax - 1 else tlen) []
          else
            .drainLen batch (tlen + 1), m)
  | drainBytes batch tlen copied =>
      if copied.length < tlen then
        match m.byte? m.tail copied.length with
        | none => (.fault, m)
        | some b => (.drainBytes batch tlen (copied ++ [b]), m)
      else
        (.drainTail batch copied, m)
  | drainTail batch copied =>
      (.drainNext (batch ++ [copied]), { m with tail := (m.tail + 1) % tokenRingSize })
  | checkDone => (if m.done then .checkEmpty else .isDone false, m)
  | checkEmpty => (.isDone (m.head == m.tail), m)
  | c => (c, m)

end RingPc

/-- The ring of a streaming job, shared by the worker and the event loop. -/
def sharedRing : LockedObject RingMemory Flags RingCall RingPc where
  init := .init
  skips _ := false
  enter := RingCall.enter
  step := RingPc.step
  finished := RingPc.finished

theorem rests_sharedRing : sharedRing.Rests := by
  intro c m f hend
  cases c with
  | empty b => rfl
  | waits => rfl
  | cancelled => rfl
  | stored => rfl
  | marked => rfl
  | drained batch => rfl
  | isDone b => rfl
  | fault => rfl
  | _ => exact nomatch hend

/-! ## What the memory holds -/

namespace RingMemory

/-- A slot with a text: the text, its terminator and what an earlier token has left. -/
def SlotHolds (m : RingMemory) (i : Nat) (text : Bytes) : Prop :=
  ∃ v rest, m.text[i]? = some v ∧ v.toList = text ++ 0 :: rest

structure Holds (m : RingMemory) (r : RingCells) : Prop where
  head : m.head = r.head
  tail : m.tail = r.tail
  done : m.done = r.done
  slot : ∀ i slot, r.text[i]? = some slot → m.SlotHolds i slot.text

theorem holds_init : init.Holds .init where
  head := rfl
  tail := rfl
  done := rfl
  slot i slot hslot := by
    have hi : i < tokenRingSize := by
      by_contra hout
      rw [Vector.getElem?_eq_none (Nat.not_lt.1 hout)] at hslot
      cases hslot
    have htext : slot = default := by
      simpa [RingCells.init, hi] using hslot.symm
    refine ⟨Vector.replicate tokenTextMax 0, List.replicate (tokenTextMax - 1) 0, ?_, ?_⟩
    · simp [init, hi]
    · rw [htext]
      exact Vector.toList_replicate

variable {m m' : RingMemory} {r : RingCells}

theorem byte?_of_slotHolds {i : Nat} {text rest : Bytes} {v : Vector UInt8 tokenTextMax}
    (hv : m.text[i]? = some v) (htext : v.toList = text ++ 0 :: rest) (k : Nat) :
    m.byte? i k = (text ++ 0 :: rest)[k]? := by
  rw [byte?, hv, ← htext]
  exact Vector.getElem?_toList.symm

theorem byte?_lt {i k : Nat} {text : Bytes} (h : m.SlotHolds i text) (hk : k < text.length) :
    m.byte? i k = some text[k] := by
  rcases h with ⟨v, rest, hv, htext⟩
  rw [byte?_of_slotHolds hv htext, List.getElem?_append_left hk, List.getElem?_eq_getElem hk]

/-- The terminator is found. -/
theorem byte?_length {i : Nat} {text : Bytes} (h : m.SlotHolds i text) :
    m.byte? i text.length = some 0 := by
  rcases h with ⟨v, rest, hv, htext⟩
  rw [byte?_of_slotHolds hv htext, List.getElem?_append_right (Nat.le_refl _)]
  simp

/-- `m'` is `m` with the first bytes of the slot at `head` written. -/
structure Copied (m : RingMemory) (bytes : Bytes) (m' : RingMemory) : Prop where
  head : m'.head = m.head
  tail : m'.tail = m.tail
  done : m'.done = m.done
  others : ∀ i ≠ m.head, m'.text[i]? = m.text[i]?
  slot : ∃ v rest, m'.text[m.head]? = some v ∧ v.toList = bytes ++ rest

theorem Copied.start (h : m.head < tokenRingSize) : m.Copied [] m where
  head := rfl
  tail := rfl
  done := rfl
  others _ _ := rfl
  slot := ⟨m.text[m.head], _, Vector.getElem?_eq_getElem h, rfl⟩

theorem Copied.put {bytes : Bytes} (h : m.Copied bytes m') (hroom : bytes.length < tokenTextMax)
    (b : UInt8) :
    ∃ m'', m'.put? m'.head bytes.length b = some m'' ∧ m.Copied (bytes ++ [b]) m'' := by
  rcases h.slot with ⟨v, rest, hv, htext⟩
  have hslot : m.head < tokenRingSize := by
    by_contra hout
    rw [Vector.getElem?_eq_none (Nat.not_lt.1 hout)] at hv
    cases hv
  refine ⟨{ m' with text := m'.text.setIfInBounds m'.head (v.setIfInBounds bytes.length b) },
    ?_, ?_⟩
  · rw [put?, h.head, hv]
    exact if_pos hroom
  · constructor
    · exact h.head
    · exact h.tail
    · exact h.done
    · intro i hi
      dsimp only
      rw [h.head, Vector.getElem?_setIfInBounds_ne (Ne.symm hi)]
      exact h.others i hi
    · refine ⟨v.setIfInBounds bytes.length b, rest.tail, ?_, ?_⟩
      · dsimp only
        rw [h.head, Vector.getElem?_setIfInBounds_self_of_lt hslot]
      · have hrest : rest ≠ [] := by
          rintro rfl
          have hlength := congrArg List.length htext
          simp only [Vector.length_toList, List.append_nil] at hlength
          omega
        rw [Vector.toList_setIfInBounds, htext, List.set_append_right _ _ (Nat.le_refl _),
          Nat.sub_self, List.append_assoc]
        cases rest with
        | nil => exact absurd rfl hrest
        | cons c rest => rfl

/-- A token that has been copied whole is pushed when `head` moves on. -/
theorem Copied.holds {slot : CBuf tokenTextMax} (hm : m.Holds r) (hr : r.InRange)
    (h : m.Copied (slot.text ++ [0]) m') :
    ({ m' with head := (m'.head + 1) % tokenRingSize } : RingMemory).Holds
      { r with
        text := r.text.set r.head slot hr.head_lt
        head := (r.head + 1) % tokenRingSize } where
  head := by
    dsimp only
    rw [h.head, hm.head]
  tail := h.tail.trans hm.tail
  done := h.done.trans hm.done
  slot i slot' hslot' := by
    rw [Vector.getElem?_set] at hslot'
    by_cases hi : r.head = i
    · subst hi
      rw [if_pos rfl] at hslot'
      cases hslot'
      rcases h.slot with ⟨v, rest, hv, htext⟩
      rw [hm.head] at hv
      exact ⟨v, rest, hv, by rw [htext, List.append_assoc]; rfl⟩
    · rw [if_neg hi] at hslot'
      rcases hm.slot i slot' hslot' with ⟨v, rest, hv, htext⟩
      refine ⟨v, rest, ?_, htext⟩
      have hother : i ≠ m.head := by
        rw [hm.head]
        exact Ne.symm hi
      exact (h.others i hother).trans hv

theorem Holds.advance (h : m.Holds r) :
    ({ m with tail := (m.tail + 1) % tokenRingSize } : RingMemory).Holds
      { r with tail := (r.tail + 1) % tokenRingSize } where
  head := h.head
  tail := by
    dsimp only
    rw [h.tail]
  done := h.done
  slot := h.slot

end RingMemory

/-! ## What a section does -/

/-- A section as one step of the ring: what it returns, and the ring before and behind it; it may
have seen the flags at any of its looks. -/
inductive Does (looks : List Flags) : RingCall → RingPc → RingLog → RingLog → Prop
  | isEmpty (l : RingLog) : Does looks .isEmpty (.empty l.ring.isEmpty) l l
  | waits {l : RingLog} {text : Bytes} {f : Flags} (hf : f ∈ looks)
      (h : l.ring.ringWrite text f.cancel f.shutdown = some .waits) :
      Does looks (.write text) .waits l l
  | cancelled {l : RingLog} {text : Bytes} {f : Flags} (hf : f ∈ looks)
      (h : l.ring.ringWrite text f.cancel f.shutdown = some .cancelled) :
      Does looks (.write text) .cancelled l l
  | stored {l : RingLog} {text : Bytes} {f : Flags} {r : RingCells} (hf : f ∈ looks)
      (h : l.ring.ringWrite text f.cancel f.shutdown = some (.stored r)) :
      Does looks (.write text) .stored l { l with ring := r, written := l.written ++ [text] }
  | markDone (l : RingLog) :
      Does looks .markDone .marked l { l with ring := { l.ring with done := true } }
  | drained {l : RingLog} {batch : List Bytes} {r : RingCells}
      (h : l.ring.drainBatch = some (batch, r)) :
      Does looks .drain (.drained batch) l { l with ring := r, taken := l.taken ++ batch }
  | checkDone (l : RingLog) :
      Does looks .checkDone (.isDone (l.ring.done && l.ring.isEmpty)) l l

/-- A flag that has been set stays set. -/
def Rising (looks : List Flags) : Prop :=
  looks.Pairwise fun f g =>
    (f.cancel = true → g.cancel = true) ∧ (f.shutdown = true → g.shutdown = true)

instance (looks : List Flags) : Decidable (Rising looks) :=
  inferInstanceAs (Decidable (List.Pairwise _ looks))

/-- How a section ends that begins with the ring of `l`. -/
def EndsSection (l : RingLog) (k : RingCall) (looks : List Flags) (c : RingPc × RingMemory) : Prop :=
  Rising looks → ∃ l', Does looks k c.1 l l' ∧ c.2.Holds l'.ring

section Ends

variable {l : RingLog} {m m' : RingMemory} {r : RingCells} {past : List Flags}
  {Q : List Flags → RingPc × RingMemory → Prop}

theorem sharedRing_step (c : RingPc) (m : RingMemory) (f : Flags) :
    sharedRing.step c m f = c.step m f :=
  rfl

/-- The end of a section. -/
theorem ends_of_does {k : RingCall} {c : RingPc} (hend : c.finished = true) {l' : RingLog}
    (hdoes : ∀ xs, Rising (past ++ xs) → Does (past ++ xs) k c l l') (hm : m.Holds l'.ring) :
    sharedRing.Ends past (c, m) (EndsSection l k) :=
  .done rests_sharedRing hend fun xs hrising => ⟨l', hdoes xs hrising, hm⟩

/-- A step that looks at a flag and goes on one way or the other. -/
theorem ends_look {c yes no : RingPc} (test : Flags → Bool) (hmore : c.finished = false)
    (hstep : ∀ f, c.step m f = (if test f then yes else no, m))
    (hyes : ∀ f, test f = true → sharedRing.Ends (past ++ [f]) (yes, m) Q)
    (hno : ∀ f, test f = false → sharedRing.Ends (past ++ [f]) (no, m) Q) :
    sharedRing.Ends past (c, m) Q := by
  refine .next hmore fun f => ?_
  rw [sharedRing_step, hstep f]
  cases htest : test f with
  | true => exact hyes f htest
  | false => exact hno f htest

theorem ends_isEmpty (hm : m.Holds l.ring) :
    sharedRing.Ends past (.isEmpty, m) (EndsSection l .isEmpty) := by
  refine .next rfl fun x => ends_of_does rfl (fun _ _ => ?_) hm
  have hempty : (m.head == m.tail) = l.ring.isEmpty := by
    rw [hm.head, hm.tail]
    rfl
  rw [hempty]
  exact .isEmpty l

theorem ends_markDone (hm : m.Holds l.ring) :
    sharedRing.Ends past (.markDone, m) (EndsSection l .markDone) :=
  .next rfl fun _ => ends_of_does rfl (fun _ _ => .markDone l) ⟨hm.head, hm.tail, rfl, hm.slot⟩

theorem ends_checkDone (hm : m.Holds l.ring) :
    sharedRing.Ends past (.checkDone, m) (EndsSection l .checkDone) := by
  refine .next rfl fun x => ?_
  rw [sharedRing_step]
  cases hdone : m.done with
  | false =>
      have hstep : RingPc.checkDone.step m x = (.isDone false, m) := by simp [RingPc.step, hdone]
      rw [hstep]
      refine ends_of_does rfl (fun _ _ => ?_) hm
      have hring : (l.ring.done && l.ring.isEmpty) = false := by simp [← hm.done, hdone]
      exact hring ▸ Does.checkDone l
  | true =>
      have hstep : RingPc.checkDone.step m x = (.checkEmpty, m) := by simp [RingPc.step, hdone]
      rw [hstep]
      refine .next rfl fun y => ends_of_does rfl (fun _ _ => ?_) hm
      have hring : (l.ring.done && l.ring.isEmpty) = (m.head == m.tail) := by
        rw [← hm.done, hdone, Bool.true_and, hm.head, hm.tail]
        rfl
      exact hring ▸ Does.checkDone l

/-! ### `ring_write` -/

/-- The copy, byte by byte. -/
theorem ends_copy {done todo : Bytes} (h : m.Copied done m')
    (hroom : (done ++ todo).length ≤ tokenTextMax)
    (hcopied : ∀ past m'', m.Copied (done ++ todo) m'' → sharedRing.Ends past (.writeHead, m'') Q) :
    sharedRing.Ends past (.writeBytes done.length todo, m') Q := by
  induction todo generalizing done m' past with
  | nil =>
      rw [List.append_nil] at hcopied
      exact .next rfl fun _ => hcopied _ m' h
  | cons b todo ih =>
      have hlt : done.length < tokenTextMax := by
        rw [List.length_append, List.length_cons] at hroom
        omega
      rcases h.put hlt b with ⟨m'', hput, hnext⟩
      have hassoc : done ++ [b] ++ todo = done ++ b :: todo := by simp
      have hlength : (done ++ [b]).length = done.length + 1 := by simp
      refine .next rfl fun x => ?_
      have hstep : (RingPc.writeBytes done.length (b :: todo)).step m' x =
          (.writeBytes (done ++ [b]).length todo, m'') := by
        simp only [RingPc.step, hput, hlength]
      rw [sharedRing_step, hstep]
      exact ih hnext (by rwa [hassoc]) (by rwa [hassoc])

/-- Behind both checks the token is stored. -/
theorem ends_stored {text : Bytes} (hm : m.Holds l.ring) (hr : l.ring.InRange)
    (hroom : l.ring.isFull = false) {f : Flags} (hf : f ∈ past) (hcancel : f.cancel = false)
    (hshutdown : f.shutdown = false) :
    sharedRing.Ends past (.writeBytes 0 ((slotText text).text ++ [0]), m)
      (EndsSection l (.write text)) := by
  have hhead : m.head < tokenRingSize := by
    rw [hm.head]
    exact hr.head_lt
  have hfits : ([] ++ ((slotText text).text ++ [0])).length ≤ tokenTextMax := by
    have hslot := (slotText text).fits
    simp only [List.nil_append, List.length_append, List.length_singleton]
    omega
  have hwrite : l.ring.ringWrite text f.cancel f.shutdown = some (.stored
      { l.ring with
        text := l.ring.text.set l.ring.head (slotText text) hr.head_lt
        head := (l.ring.head + 1) % tokenRingSize }) := by
    rw [RingCells.ringWrite, hroom, hcancel, hshutdown]
    exact dif_pos hr.head_lt
  -- `f` was read before the copy, and stays among what has been read
  intro xs hend hrising
  refine ends_copy (Q := fun ys c => f ∈ ys → EndsSection l (.write text) ys c) (.start hhead)
    hfits (fun past' m'' hcopied => ?_) xs hend (List.mem_append_left _ hf) hrising
  refine .next rfl fun x => .done rests_sharedRing rfl fun ys hmem _ => ?_
  exact ⟨_, .stored hmem hwrite, hcopied.holds hm hr⟩

/-- Once a flag has been seen, the token is not stored. -/
theorem ends_cancelled {text : Bytes} (hm : m.Holds l.ring) {f : Flags} (hf : f ∈ past)
    (hset : (f.cancel || f.shutdown) = true) :
    sharedRing.Ends past (.cancelled, m) (EndsSection l (.write text)) := by
  have hwrite : l.ring.ringWrite text f.cancel f.shutdown = some .cancelled := by
    unfold RingCells.ringWrite
    rw [Bool.and_assoc, ← Bool.not_or, hset, Bool.not_true, Bool.and_false,
      if_neg Bool.false_ne_true, if_pos rfl]
  exact ends_of_does rfl (fun xs _ => .cancelled (List.mem_append_left xs hf) hwrite) hm

/-- The check behind the loop finds a flag that the loop has seen. -/
theorem ends_seen {text : Bytes} (hm : m.Holds l.ring) {f : Flags} (hf : f ∈ past)
    (hset : (f.cancel || f.shutdown) = true) :
    sharedRing.Ends past (.writeCancel text, m) (EndsSection l (.write text)) := by
  refine ends_look Flags.cancel rfl (fun _ => rfl) (fun x _ => ?_) fun x hx => ?_
  · exact ends_cancelled hm (List.mem_append_left _ hf) hset
  refine ends_look Flags.shutdown rfl (fun _ => rfl) (fun y _ => ?_) fun y hy => ?_
  · exact ends_cancelled hm (List.mem_append_left _ (List.mem_append_left _ hf)) hset
  · -- a flag has been cleared, which does not happen
    intro xs _ hrising
    rw [List.append_assoc, List.append_assoc, Rising, List.pairwise_append] at hrising
    have hcancel := (hrising.2.2 f hf x (by simp)).1
    have hshutdown := (hrising.2.2 f hf y (by simp)).2
    rcases Bool.or_eq_true_iff.1 hset with hc | hs
    · exact absurd (hcancel hc) (by simp [hx])
    · exact absurd (hshutdown hs) (by simp [hy])

/-- What a later look has not seen, an earlier one has not either. -/
theorem Rising.not_shutdown {x y : Flags} {xs : List Flags}
    (h : Rising (past ++ [x] ++ [y] ++ xs)) (hy : y.shutdown = false) : x.shutdown = false := by
  rw [List.append_assoc, List.append_assoc, Rising, List.pairwise_append] at h
  have hxy := (List.pairwise_cons.1 h.2.1).1 y (by simp)
  rw [Bool.eq_false_iff]
  exact fun hs => absurd (hxy.2 hs) (by simp [hy])

/-- The check behind the loop, with room for a token. -/
theorem ends_room {text : Bytes} (hm : m.Holds l.ring) (hr : l.ring.InRange)
    (hroom : l.ring.isFull = false) :
    sharedRing.Ends past (.writeCancel text, m) (EndsSection l (.write text)) := by
  refine ends_look Flags.cancel rfl (fun _ => rfl) (fun x hx => ?_) fun x hx => ?_
  · exact ends_cancelled hm (f := x) (by simp) (by rw [hx, Bool.true_or])
  refine ends_look Flags.shutdown rfl (fun _ => rfl) (fun y hy => ?_) fun y hy => ?_
  · exact ends_cancelled hm (f := y) (by simp) (by rw [hy, Bool.or_true])
  · intro xs hend hrising
    exact ends_stored hm hr hroom (f := x) (by simp) hx (hrising.not_shutdown hy) xs hend hrising

theorem ends_write {text : Bytes} (hm : m.Holds l.ring) (hr : l.ring.InRange) :
    sharedRing.Ends past (.writeFull text, m) (EndsSection l (.write text)) := by
  have hfull : (m.head + 1) % tokenRingSize = m.tail ↔ l.ring.isFull = true := by
    rw [RingCells.isFull, hm.head, hm.tail, beq_iff_eq]
  refine .next rfl fun w => ?_
  rw [sharedRing_step]
  by_cases hwaits : l.ring.isFull = true
  · have hstep : (RingPc.writeFull text).step m w = (.waitCancel text, m) := by
      simp [RingPc.step, hfull, hwaits]
    rw [hstep]
    refine ends_look Flags.cancel rfl (fun _ => rfl) (fun x hx => ?_) fun x hx => ?_
    · exact ends_seen hm (f := x) (by simp) (by rw [hx, Bool.true_or])
    refine ends_look Flags.shutdown rfl (fun _ => rfl) (fun y hy => ?_) fun y hy => ?_
    · exact ends_seen hm (f := y) (by simp) (by rw [hy, Bool.or_true])
    · refine ends_of_does rfl (fun xs hrising => .waits (f := x) (by simp) ?_) hm
      rw [RingCells.ringWrite, hwaits, hx, hrising.not_shutdown hy]
      rfl
  · have hstep : (RingPc.writeFull text).step m w = (.writeCancel text, m) := by
      simp [RingPc.step, hfull, hwaits]
    rw [hstep]
    exact ends_room hm hr (Bool.eq_false_iff.2 hwaits)

/-! ### `drain_stream_ring` -/

theorem ends_len {batch : List Bytes} {text : Bytes} (hm : m.SlotHolds m.tail text)
    (hnul : 0 ∉ text)
    (hlen : ∀ past, sharedRing.Ends past (.drainBytes batch
      (if text.length ≥ tokenTextMax then tokenTextMax - 1 else text.length) [], m) Q)
    (n k : Nat) (hk : k + n = text.length) :
    sharedRing.Ends past (.drainLen batch k, m) Q := by
  induction n generalizing k past with
  | zero =>
      obtain rfl : k = text.length := hk
      refine .next rfl fun x => ?_
      have hstep : (RingPc.drainLen batch text.length).step m x =
          (.drainBytes batch
            (if text.length ≥ tokenTextMax then tokenTextMax - 1 else text.length) [], m) := by
        simp only [RingPc.step, RingMemory.byte?_length hm, if_true]
      rw [sharedRing_step, hstep]
      exact hlen _
  | succ n ih =>
      have hlt : k < text.length := by omega
      have hne : text[k] ≠ 0 := fun hzero => hnul (hzero ▸ List.getElem_mem hlt)
      refine .next rfl fun x => ?_
      have hstep : (RingPc.drainLen batch k).step m x = (.drainLen batch (k + 1), m) := by
        simp only [RingPc.step, RingMemory.byte?_lt hm hlt, if_neg hne]
      rw [sharedRing_step, hstep]
      exact ih (k + 1) (by omega)

theorem ends_bytes {batch : List Bytes} {text : Bytes} (hm : m.SlotHolds m.tail text)
    (hbytes : ∀ past, sharedRing.Ends past (.drainTail batch text, m) Q)
    (n k : Nat) (hk : k + n = text.length) :
    sharedRing.Ends past (.drainBytes batch text.length (text.take k), m) Q := by
  induction n generalizing k past with
  | zero =>
      obtain rfl : k = text.length := hk
      refine .next rfl fun x => ?_
      have hstep : (RingPc.drainBytes batch text.length (text.take text.length)).step m x =
          (.drainTail batch text, m) := by
        simp [RingPc.step]
      rw [sharedRing_step, hstep]
      exact hbytes _
  | succ n ih =>
      have hlt : k < text.length := by omega
      have hlength : (text.take k).length = k := by
        rw [List.length_take]
        omega
      refine .next rfl fun x => ?_
      have hstep : (RingPc.drainBytes batch text.length (text.take k)).step m x =
          (.drainBytes batch text.length (text.take (k + 1)), m) := by
        simp only [RingPc.step, hlength, if_pos hlt, RingMemory.byte?_lt hm hlt,
          List.take_append_getElem hlt]
      rw [sharedRing_step, hstep]
      exact ih (k + 1) (by omega)

/-- One token of a batch. -/
theorem ends_token {batch : List Bytes} {slot : CBuf tokenTextMax}
    (hm : m.SlotHolds m.tail slot.text)
    (htoken : ∀ past, sharedRing.Ends past
      (.drainNext (batch ++ [slot.text]), { m with tail := (m.tail + 1) % tokenRingSize }) Q) :
    sharedRing.Ends past (.drainLen batch 0, m) Q := by
  refine ends_len hm slot.noNul (fun past => ?_) slot.text.length 0 (Nat.zero_add _)
  rw [if_neg (Nat.not_le.2 slot.fits)]
  refine ends_bytes hm (fun past => ?_) slot.text.length 0 (Nat.zero_add _)
  exact .next rfl fun _ => htoken _

/-- The batch is full, or the ring is empty. -/
theorem ends_noMore {k : Nat} {batch : List Bytes}
    (hstop : ¬ (m.head ≠ m.tail ∧ batch.length < drainBatchMax)) (hm : m.Holds r)
    (hnone : r.takeUpTo k = some ([], r))
    (hbatch : ∀ past rest m' r', r.takeUpTo k = some (rest, r') → m'.Holds r' →
      sharedRing.Ends past (.drained (batch ++ rest), m') Q) :
    sharedRing.Ends past (.drainNext batch, m) Q := by
  refine .next rfl fun x => ?_
  have hstep : (RingPc.drainNext batch).step m x = (.drained batch, m) := by
    simp only [RingPc.step, if_neg hstop]
  have hend := hbatch (past ++ [x]) [] m r hnone hm
  rw [List.append_nil] at hend
  rw [sharedRing_step, hstep]
  exact hend

theorem ends_batch (k : Nat) {batch : List Bytes} (hk : batch.length + k = drainBatchMax)
    (hm : m.Holds r) (hr : r.InRange)
    (hbatch : ∀ past rest m' r', r.takeUpTo k = some (rest, r') → m'.Holds r' →
      sharedRing.Ends past (.drained (batch ++ rest), m') Q) :
    sharedRing.Ends past (.drainNext batch, m) Q := by
  induction k generalizing batch m r past with
  | zero =>
      have hfull : ¬ batch.length < drainBatchMax := by omega
      exact ends_noMore (fun hmore => hfull hmore.2) hm rfl hbatch
  | succ k ih =>
      by_cases hempty : m.head = m.tail
      · have hring : r.isEmpty = true := by
          rw [RingCells.isEmpty, ← hm.head, ← hm.tail, hempty, beq_self_eq_true]
        have hnone := RingCells.takeUpTo_isEmpty hring (k + 1)
        exact ends_noMore (fun hmore => hmore.1 hempty) hm hnone hbatch
      · have hring : r.isEmpty = false := by
          rw [RingCells.isEmpty, ← hm.head, ← hm.tail]
          exact beq_false_of_ne hempty
        have hlt : batch.length < drainBatchMax := by omega
        have htail := hr.tail_lt
        have hslot : r.text[r.tail]? = some r.text[r.tail] := Vector.getElem?_eq_getElem htail
        have hholds : m.SlotHolds m.tail r.text[r.tail].text := by
          rw [hm.tail]
          exact hm.slot r.tail _ hslot
        have hlength : (batch ++ [r.text[r.tail].text]).length + k = drainBatchMax := by
          rw [List.length_append, List.length_singleton]
          omega
        refine .next rfl fun x => ?_
        have hstep : (RingPc.drainNext batch).step m x = (.drainLen batch 0, m) := by
          simp [RingPc.step, hempty, hlt]
        rw [sharedRing_step, hstep]
        refine ends_token hholds fun past => ih hlength hm.advance hr.advance ?_
        intro past rest m' r' htake
        have hmore : r.takeUpTo (k + 1) = some (r.text[r.tail].text :: rest, r') := by
          simp only [RingCells.takeUpTo, hring, Bool.false_eq_true, if_false, hslot,
            Option.bind_eq_bind, Option.bind_some, htake, RingCells.take_slot]
        rw [List.append_assoc]
        exact hbatch past _ m' r' hmore

theorem ends_drain (hm : m.Holds l.ring) (hr : l.ring.InRange) :
    sharedRing.Ends past (.drainNext [], m) (EndsSection l .drain) := by
  refine ends_batch drainBatchMax (Nat.zero_add _) hm hr fun past rest m' r' htake hm' => ?_
  exact ends_of_does rfl (fun _ _ => .drained htake) hm'

/-- Whatever the flags do meanwhile, a section does in one step what it does in many. -/
theorem ends_section (hm : m.Holds l.ring) (hr : l.ring.InRange) (k : RingCall) :
    sharedRing.Ends past (k.enter, m) (EndsSection l k) := by
  cases k with
  | isEmpty => exact ends_isEmpty hm
  | write text => exact ends_write hm hr
  | markDone => exact ends_markDone hm
  | drain => exact ends_drain hm hr
  | checkDone => exact ends_checkDone hm

end Ends

/-! ## All sections -/

/-- The sections, made one after the other, as single steps of the ring. -/
inductive Sections {θ : Type*} : List (Entry θ Flags RingCall) → RingMemory → RingLog → Prop
  | nil : Sections [] .init .init
  | snoc {es : List (Entry θ Flags RingCall)} {m : RingMemory} {l l' : RingLog}
      (h : Sections es m l) (e : Entry θ Flags RingCall)
      (hdoes : Does e.reads e.call (sharedRing.run e m).1 l l') :
      Sections (es ++ [e]) (sharedRing.run e m).2 l'

theorem RingLog.Fifo.does {l l' : RingLog} (h : l.Fifo) {looks : List Flags} {k : RingCall}
    {c : RingPc} (hdoes : Does looks k c l l') : l'.Fifo := by
  have hlen : tokenTextMax ≤ tokenTextMax := Nat.le_refl _
  cases hdoes with
  | isEmpty => exact h
  | waits => exact h
  | cancelled => exact h
  | @stored _ text f r hf hwrite =>
      rcases h.step hlen (.write text f.cancel f.shutdown) with ⟨l', hstep, hfifo, -⟩
      rw [RingLog.step, hwrite] at hstep
      cases hstep
      exact hfifo
  | markDone => exact ⟨⟨h.inRange.head_lt, h.inRange.tail_lt⟩, h.queue⟩
  | drained hbatch =>
      rcases h.step hlen .drain with ⟨l', hstep, hfifo, -⟩
      rw [RingLog.step, hbatch] at hstep
      cases hstep
      exact hfifo
  | checkDone => exact h

theorem Does.not_fault {l l' : RingLog} {looks : List Flags} {k : RingCall} {c : RingPc}
    (h : Does looks k c l l') : c ≠ .fault := by
  rintro rfl
  cases h

section Run

variable {θ : Type*} {es : List (Entry θ Flags RingCall)} {m : RingMemory}

theorem sections_of_serial (h : sharedRing.Serial es m) (hflags : ∀ e ∈ es, Rising e.reads) :
    ∃ l, Sections es m l ∧ m.Holds l.ring ∧ l.Fifo := by
  induction h with
  | nil => exact ⟨.init, .nil, RingMemory.holds_init, RingLog.fifo_init⟩
  | @snoc es m e h hend ih =>
      rcases ih fun e he => hflags e (List.mem_append_left _ he) with ⟨l, hsections, hm, hfifo⟩
      have hrising : Rising e.reads := hflags e (List.mem_append_right _ (List.mem_singleton_self e))
      rcases (ends_section hm hfifo.inRange e.call).run hend hrising with ⟨l', hdoes, hm'⟩
      exact ⟨l', hsections.snoc e hdoes, hm', hfifo.does hdoes⟩

end Run

/-- However the accesses of the threads to a ring are interleaved, if a flag once set stays set: no
access leaves the array, and whenever the mutex is free the ring is as the sections have made it
that were each a single step, in the order in which they took the mutex.  So it is a queue, and in
that order each thread has had its sections, each once. -/
theorem ring_sections_atomic {θ : Type*} [DecidableEq θ]
    {as : List (LockedObject.Action θ Flags RingCall)}
    {s : LockedObject.State θ RingMemory Flags RingCall RingPc}
    (hrun : sharedRing.system.runGuarded Free sharedRing.system.init as = some s)
    (hflags : ∀ e ∈ s.order, Rising e.reads) :
    (∀ h ∈ s.holder, h.2 ≠ .fault) ∧
      (s.holder = none → ∃ l, Sections s.past s.object l ∧ s.object.Holds l.ring ∧
        l.taken ++ l.ring.waiting = l.written.map fun text => (slotText text).text) ∧
      ∀ t, s.called t = sharedRing.calls t as := by
  have hreach : sharedRing.system.Reachable Free s := .of_runGuarded .init hrun
  refine ⟨?_, fun hfree => ?_, calls_of_thread hrun⟩
  · rintro ⟨e, c⟩ hholder rfl
    -- a section that has come to its end by a fault would be one of the serial sections
    rcases atomic_of_reachable hreach with ⟨o, hserial, hobject⟩
    rw [Option.mem_def.1 hholder] at hobject
    have horder : s.order = s.past ++ [e] := by
      rw [LockedObject.State.order, Option.mem_def.1 hholder]
      rfl
    rw [horder] at hflags
    have hfault : (sharedRing.run e o).1 = .fault := (congrArg Prod.fst hobject).symm
    have hend : sharedRing.finished (sharedRing.run e o).1 = true := by
      rw [hfault]
      rfl
    rcases sections_of_serial hserial fun e' he' => hflags e' (List.mem_append_left _ he') with
      ⟨l, -, hm, hfifo⟩
    have hrising := hflags e (List.mem_append_right _ (List.mem_singleton_self e))
    rcases (ends_section hm hfifo.inRange e.call).run hend hrising with ⟨l', hdoes, -⟩
    exact hdoes.not_fault hfault
  · have hpast : ∀ e ∈ s.past, Rising e.reads := fun e he =>
      hflags e (List.mem_append_left _ he)
    rcases sections_of_serial (serial_of_reachable hreach hfree) hpast with ⟨l, hsections, hm, hfifo⟩
    exact ⟨l, hsections, hm, hfifo.queue⟩

namespace Sample

/-- The event loop asks for the mutex while the worker copies a token. -/
def tokenDrained : List (LockedObject.Action Bool Flags RingCall) :=
  [.call true (.write (ascii "hi")), .lock true] ++ List.replicate 4 (.step ⟨false, false⟩) ++
    [.call false .drain] ++ List.replicate 4 (.step ⟨false, false⟩) ++ [.unlock, .lock false] ++
    List.replicate 9 (.step ⟨true, false⟩) ++ [.unlock]

theorem tokenDrained_end :
    (sharedRing.system.runGuarded Free sharedRing.system.init tokenDrained).isSome = true := by
  decide +kernel

theorem tokenDrained_rising :
    ∀ e ∈ (Option.get _ tokenDrained_end).order, Rising e.reads := by
  decide +kernel

theorem ring_sections_atomic_tokenDrained :
    ∃ (s : LockedObject.State Bool RingMemory Flags RingCall RingPc) (l : RingLog),
      sharedRing.system.runGuarded Free sharedRing.system.init tokenDrained = some s ∧
      s.past.map Entry.thread = [true, false] ∧ Sections s.past s.object l := by
  have hrun := (Option.some_get tokenDrained_end).symm
  rcases (ring_sections_atomic hrun tokenDrained_rising).2.1 (by decide +kernel) with
    ⟨l, hsections, -⟩
  exact ⟨_, l, hrun, by decide +kernel, hsections⟩

end Sample

end Professord
