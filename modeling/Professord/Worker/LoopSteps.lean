import Mathlib.Logic.Relation
import Professord.Lib.GuardedSystem
import Professord.Worker.RunJob

/-!
# LoopSteps — the generation loop, one access at a time

`generate` has one value of each flag for an iteration.  Here the loop of `inference_complete` and
the two token callbacks are taken apart: a step reads one flag, looks at the ring once or stores one
text, and between any two steps a flag may be set or the event loop may take a batch.  What the
callback does after its store (the wakeup) reads neither flag and is left out.
-/

namespace Professord

open GuardedSystem

/-! ## Program points -/

/-- Inside `stream_token_cb` with `ring_write`, or inside `accum_token_cb`. -/
inductive CbPc
  | enter
  /-- `ring_is_full(r)` -/
  | ringFull
  /-- `!*cancel` of the wait loop -/
  | waitCancel
  | waitShutdown
  /-- `pthread_cond_timedwait`, for at most 50 ms -/
  | waiting
  /-- behind the wait loop -/
  | ringCancel
  | ringShutdown
  | ringStore
  | accumCancel
  | accumShutdown
  | accumStore
  deriving DecidableEq, Repr

/-- The worker holds the mutex of the ring. -/
def CbPc.locked : CbPc → Bool
  | .ringFull | .waitCancel | .waitShutdown | .ringCancel | .ringShutdown | .ringStore => true
  | .enter | .waiting | .accumCancel | .accumShutdown | .accumStore => false

/-- The callback of iteration `iter`. -/
structure TokenCall where
  iter : Nat
  token : Token
  piece : Bytes
  deriving DecidableEq, Repr

inductive LoopPc
  /-- `i < max_gen` and `g_shutdown_requested` -/
  | top (i : Nat)
  | testCancel (i : Nat)
  | testTime (i : Nat)
  | sample (i : Nat)
  | callback (k : TokenCall) (pc : CbPc)
  | decode (k : TokenCall)
  | done (reason : FinishReason)
  deriving DecidableEq, Repr

def LoopPc.locked : LoopPc → Bool
  | .callback _ pc => pc.locked
  | _ => false

/-! ## The state -/

/-- Where the callbacks put the tokens. -/
structure TokenSink where
  ring : TokenRing
  response : AccumBuf
  /-- ghost: the texts that were accepted -/
  stored : List Bytes

structure LoopState (σ χ : Type) where
  pc : LoopPc
  gen : GenState σ χ TokenSink
  cancel : Bool
  shutdown : Bool
  /-- ghost: the calls of `llama_sampler_sample` -/
  sampled : Nat

inductive LoopAction
  /-- the worker goes on; the clock and the heap are asked if the step needs them -/
  | work (elapsed : ℚ) (reallocOk : Bool)
  /-- `job->cancel = 1` -/
  | cancel
  /-- `g_shutdown_requested = 1` -/
  | shutdown
  /-- one locked section of `drain_stream_ring` -/
  | drain

variable {σ χ : Type}

namespace LoopState

variable (s : LoopState σ χ)

@[simps]
def go (pc : LoopPc) : LoopState σ χ :=
  { s with pc := pc }

@[simps]
def setSink (sink : TokenSink) : LoopState σ χ :=
  { s with gen := { s.gen with user := sink } }

def accept (piece : Bytes) (sink : TokenSink) : LoopState σ χ :=
  s.setSink { sink with stored := sink.stored ++ [piece] }

/-! ## Steps of the worker -/

variable (L : Llama σ χ) (params : SampleParams) (stream : Bool) (maxGen : Nat)

/-- Sample a token, and pass its text on unless it ends the generation. -/
def sampleToken (i : Nat) : LoopState σ χ :=
  let t := L.sample s.gen.chain s.gen.ctx
  let g := { s.gen with chain := L.accept t.2 t.1 }
  let s := { s with gen := g, sampled := s.sampled + 1 }
  if t.1 = L.eos then
    s.go (.done .stop)
  else
    let piece := pieceText L t.1
    let g := g.record params.stop piece
    if params.stop.entries.length > 0 ∧ stopMatches params.stop g.window then
      { s with gen := g }.go (.done .stop)
    else
      { s with gen := { g with passed := g.passed ++ [piece] } }.go (.callback ⟨i, t.1, piece⟩ .enter)

def callbackStep (k : TokenCall) (reallocOk : Bool) : CbPc → LoopState σ χ
  -- `stream_token_cb` looks first whether the ring is empty
  | .enter => s.go (.callback k (if stream then .ringFull else .accumCancel))
  | .ringFull =>
      s.go (.callback k (if s.gen.user.ring.slots.isFull then .waitCancel else .ringCancel))
  | .waitCancel => s.go (.callback k (if s.cancel then .ringCancel else .waitShutdown))
  | .waitShutdown => s.go (.callback k (if s.shutdown then .ringCancel else .waiting))
  | .waiting => s.go (.callback k .ringFull)
  | .ringCancel => s.go (if s.cancel then .done .abort else .callback k .ringShutdown)
  | .ringShutdown => s.go (if s.shutdown then .done .abort else .callback k .ringStore)
  | .ringStore =>
      let r := s.gen.user.ring
      let ring := { r with slots := r.slots.push (slotText k.piece) }
      (s.accept k.piece { s.gen.user with ring := ring }).go (.decode k)
  | .accumCancel => s.go (if s.cancel then .done .abort else .callback k .accumShutdown)
  | .accumShutdown => s.go (if s.shutdown then .done .abort else .callback k .accumStore)
  | .accumStore =>
      -- both flags have been read as 0
      let r := accumTokenCb s.gen.user.response k.piece false false reallocOk
      if r.1 ≠ 0 then
        (s.setSink { s.gen.user with response := r.2 }).go (.done .abort)
      else
        (s.accept k.piece { s.gen.user with response := r.2 }).go (.decode k)

def decodeToken (k : TokenCall) : LoopState σ χ :=
  let d := L.decode s.gen.ctx [k.token]
  let s := { s with gen := { s.gen with ctx := d.2, rcs := s.gen.rcs ++ [d.1] } }
  if d.1 ≠ 0 then s.go (.done .backendError) else s.go (.top (k.iter + 1))

def workStep (elapsed : ℚ) (reallocOk : Bool) : Option (LoopState σ χ) :=
  match s.pc with
  | .top i =>
      if i < maxGen then
        some (s.go (if s.shutdown then .done .abort else .testCancel i))
      else
        some (s.go (.done .length))
  | .testCancel i => some (s.go (if s.cancel then .done .abort else .testTime i))
  | .testTime i =>
      let late := i % 32 = 0 ∧ elapsed > params.maxInferenceSeconds
      some (s.go (if late then .done .timeLimit else .sample i))
  | .sample i => some (s.sampleToken L params i)
  | .callback k pc => some (s.callbackStep stream k reallocOk pc)
  | .decode k => some (s.decodeToken L k)
  | .done _ => none

def act : LoopAction → Option (LoopState σ χ)
  | .work elapsed reallocOk => s.workStep L params stream maxGen elapsed reallocOk
  | .cancel => some { s with cancel := true }
  | .shutdown => some { s with shutdown := true }
  | .drain =>
      if s.pc.locked then
        none
      else
        some (s.setSink { s.gen.user with ring := (drainBatch s.gen.user.ring).2 })

end LoopState

/-- The loop from its first iteration on. -/
def loopStart (L : Llama σ χ) (params : SampleParams) (ctx : σ) (response : AccumBuf) :
    LoopState σ χ where
  pc := .top 0
  gen := genStart L params ctx ⟨TokenRing.init, response, []⟩
  cancel := false
  shutdown := false
  sampled := 0

def loopSystem (L : Llama σ χ) (params : SampleParams) (stream : Bool) (maxGen : Nat)
    (start : LoopState σ χ) : GuardedSystem (LoopState σ χ) LoopAction where
  init := start
  step s a := s.act L params stream maxGen a

/-! ## A quiet iteration

If nobody interferes, the steps of an iteration do what `genStep` says. -/

/-- The callback of the worker, with the flags as they are during the call. -/
def sinkCb (stream cancel shutdown reallocOk : Bool) : TokenCallback TokenSink :=
  fun _ piece sink =>
    if stream then
      match ringWrite sink.ring piece cancel shutdown with
      | .stored ring => (0, { sink with ring := ring, stored := sink.stored ++ [piece] })
      | .cancelled | .waits => (-1, sink)
    else
      let r := accumTokenCb sink.response piece cancel shutdown reallocOk
      if r.1 ≠ 0 then
        (r.1, { sink with response := r.2 })
      else
        (0, { sink with response := r.2, stored := sink.stored ++ [piece] })

/-- Where an iteration leads. -/
def LoopPc.after (i : Nat) : Option FinishReason → LoopPc
  | some reason => .done reason
  | none => .top (i + 1)

section Iteration

variable (L : Llama σ χ) (params : SampleParams) (stream : Bool) (maxGen : Nat) (elapsed : ℚ)
  (reallocOk : Bool)

/-- The worker goes from one state to another and nobody interferes. -/
def Works : LoopState σ χ → LoopState σ χ → Prop :=
  Relation.ReflTransGen fun s t => s.workStep L params stream maxGen elapsed reallocOk = some t

variable {L params stream maxGen elapsed reallocOk} {s : LoopState σ χ}

theorem works_callbackStep {k : TokenCall} {pc : CbPc} {t : LoopState σ χ}
    (hpc : s.pc = .callback k pc) (ht : s.callbackStep stream k reallocOk pc = t) :
    Works L params stream maxGen elapsed reallocOk s t :=
  .single (by rw [LoopState.workStep, hpc]; exact congrArg some ht)

/-- The callback returns what `sinkCb` says, and then the token is decoded. -/
theorem works_callback {k : TokenCall} (hpc : s.pc = .callback k .enter) (hcancel : s.cancel = false)
    (hshutdown : s.shutdown = false)
    (hroom : stream = true → s.gen.user.ring.slots.isFull = false) :
    Works L params stream maxGen elapsed reallocOk s
      { s with
        pc :=
          if (sinkCb stream false false reallocOk k.iter k.piece s.gen.user).1 ≠ 0 then .done .abort
          else .decode k
        gen :=
          { s.gen with
            user := (sinkCb stream false false reallocOk k.iter k.piece s.gen.user).2 } } := by
  cases hstream : stream with
  | true =>
      have hfree := hroom hstream
      have henter : s.callbackStep true k reallocOk .enter = s.go (.callback k .ringFull) := rfl
      have hring : (s.go (.callback k .ringFull)).callbackStep true k reallocOk .ringFull =
          s.go (.callback k .ringCancel) := by
        simp [LoopState.callbackStep, LoopState.go, hfree]
      have htest : (s.go (.callback k .ringCancel)).callbackStep true k reallocOk .ringCancel =
          s.go (.callback k .ringShutdown) := by
        simp [LoopState.callbackStep, LoopState.go, hcancel]
      have hagain : (s.go (.callback k .ringShutdown)).callbackStep true k reallocOk .ringShutdown =
          s.go (.callback k .ringStore) := by
        simp [LoopState.callbackStep, LoopState.go, hshutdown]
      refine (works_callbackStep hpc henter).trans ((works_callbackStep rfl hring).trans
        ((works_callbackStep rfl htest).trans ((works_callbackStep rfl hagain).trans
          (works_callbackStep rfl ?_))))
      simp [LoopState.callbackStep, LoopState.go, LoopState.accept, LoopState.setSink, sinkCb,
        ringWrite, hfree]
  | false =>
      have henter : s.callbackStep false k reallocOk .enter = s.go (.callback k .accumCancel) := rfl
      have htest : (s.go (.callback k .accumCancel)).callbackStep false k reallocOk .accumCancel =
          s.go (.callback k .accumShutdown) := by
        simp [LoopState.callbackStep, LoopState.go, hcancel]
      have hagain :
          (s.go (.callback k .accumShutdown)).callbackStep false k reallocOk .accumShutdown =
            s.go (.callback k .accumStore) := by
        simp [LoopState.callbackStep, LoopState.go, hshutdown]
      refine (works_callbackStep hpc henter).trans ((works_callbackStep rfl htest).trans
        ((works_callbackStep rfl hagain).trans (works_callbackStep rfl ?_)))
      by_cases hrefused : (accumTokenCb s.gen.user.response k.piece false false reallocOk).1 = 0
      · simp [LoopState.callbackStep, LoopState.go, LoopState.accept, LoopState.setSink, sinkCb,
          hrefused]
      · simp [LoopState.callbackStep, LoopState.go, LoopState.setSink, sinkCb, hrefused]

/-- From the callback on, the steps do what `passToken` says. -/
theorem works_passToken {i : Nat} {token : Token} {piece : Bytes} {g : GenState σ χ TokenSink}
    (hpc : s.pc = .callback ⟨i, token, piece⟩ .enter)
    (hgen : s.gen = { g with passed := g.passed ++ [piece] }) (hcancel : s.cancel = false)
    (hshutdown : s.shutdown = false)
    (hroom : stream = true → g.user.ring.slots.isFull = false) :
    Works L params stream maxGen elapsed reallocOk s
      { s with
        pc := .after i (passToken L (sinkCb stream false false reallocOk) i token piece g).1
        gen := (passToken L (sinkCb stream false false reallocOk) i token piece g).2 } := by
  have hcall := @works_callback σ χ L params stream maxGen elapsed reallocOk s _ hpc hcancel
    hshutdown (by simpa [hgen] using hroom)
  simp only [hgen] at hcall
  by_cases hrc : (sinkCb stream false false reallocOk i piece g.user).1 ≠ 0
  · simp only [passToken, if_pos hrc, LoopPc.after]
    rw [if_pos hrc] at hcall
    exact hcall
  · simp only [passToken, if_neg hrc]
    rw [if_neg hrc] at hcall
    -- the token is decoded, and that fails or the next iteration begins
    refine Relation.ReflTransGen.tail hcall ?_
    by_cases hdec : (L.decode g.ctx [token]).1 = 0
    · simp [LoopState.workStep, LoopState.decodeToken, LoopState.go, LoopPc.after, hdec]
    · simp [LoopState.workStep, LoopState.decodeToken, LoopState.go, LoopPc.after, hdec]

/-- From the sampling on, the steps do what `genStep` says behind its first checks. -/
theorem works_sample {env : RunEnv} {i : Nat} (hpc : s.pc = .sample i) (hcancel : s.cancel = false)
    (hshutdown : s.shutdown = false) (hgo : abortReason params env i = none)
    (hroom : stream = true → s.gen.user.ring.slots.isFull = false) :
    Works L params stream maxGen elapsed reallocOk s
      { s with
        pc := .after i (genStep L params env (sinkCb stream false false reallocOk) i s.gen).1
        gen := (genStep L params env (sinkCb stream false false reallocOk) i s.gen).2
        sampled := s.sampled + 1 } := by
  have hstep : s.workStep L params stream maxGen elapsed reallocOk =
      some (s.sampleToken L params i) := by
    simp [LoopState.workStep, hpc]
  refine .head hstep ?_
  unfold LoopState.sampleToken genStep
  rw [hgo]
  dsimp only [LoopState.go]
  split
  · exact .refl
  · split
    · exact .refl
    · exact works_passToken rfl rfl hcancel hshutdown hroom

/-- The steps of an iteration in which no flag changes and the ring has room lead where `genStep`
leads. -/
theorem works_genStep {env : RunEnv} {i : Nat} (hpc : s.pc = .top i) (hi : i < maxGen)
    (hcancel : env.cancel i = s.cancel) (hshutdown : env.shutdown i = s.shutdown)
    (helapsed : env.elapsed i = elapsed)
    (hroom : stream = true → s.gen.user.ring.slots.isFull = false) :
    ∃ sampled, Works L params stream maxGen elapsed reallocOk s
      { s with
        pc := .after i
          (genStep L params env (sinkCb stream false false reallocOk) i s.gen).1
        gen := (genStep L params env (sinkCb stream false false reallocOk) i s.gen).2
        sampled := sampled } := by
  have htop : s.workStep L params stream maxGen elapsed reallocOk =
      some (s.go (if s.shutdown then .done .abort else .testCancel i)) := by
    simp [LoopState.workStep, hpc, hi]
  cases hsd : s.shutdown with
  | true =>
      refine ⟨s.sampled, .single ?_⟩
      rw [htop]
      simp [genStep, abortReason, hshutdown, hsd, LoopState.go, LoopPc.after]
  | false =>
      rw [hsd, if_neg Bool.false_ne_true] at htop
      have htest : (s.go (.testCancel i)).workStep L params stream maxGen elapsed reallocOk =
          some (s.go (if s.cancel then .done .abort else .testTime i)) := rfl
      cases hc : s.cancel with
      | true =>
          refine ⟨s.sampled, .head htop (.single ?_)⟩
          rw [htest]
          simp [genStep, abortReason, hshutdown, hsd, hcancel, hc, LoopState.go, LoopPc.after]
      | false =>
          rw [hc, if_neg Bool.false_ne_true] at htest
          have htime : (s.go (.testTime i)).workStep L params stream maxGen elapsed reallocOk =
              some (s.go (if i % 32 = 0 ∧ elapsed > params.maxInferenceSeconds then
                .done .timeLimit else .sample i)) := rfl
          by_cases hlate : i % 32 = 0 ∧ elapsed > params.maxInferenceSeconds
          · refine ⟨s.sampled, .head htop (.head htest (.single ?_))⟩
            rw [htime]
            simp [genStep, abortReason, hshutdown, hsd, hcancel, hc, helapsed, hlate,
              LoopState.go, LoopPc.after]
          · rw [if_neg hlate] at htime
            have hgo : abortReason params env i = none := by
              simp [abortReason, hshutdown, hsd, hcancel, hc, helapsed, hlate]
            have hsample := @works_sample σ χ L params stream maxGen elapsed reallocOk
              (s.go (.sample i)) env i rfl hc hsd hgo hroom
            refine ⟨s.sampled + 1, .head htop (.head htest (.head htime ?_))⟩
            simpa [Works, LoopState.go, hc, hsd] using hsample

end Iteration

end Professord
