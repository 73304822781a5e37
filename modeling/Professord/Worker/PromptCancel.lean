import Professord.Worker.LoopSteps

/-!
# PromptCancel — what may still happen once a flag is set

Between the tests of `cancel` and `g_shutdown_requested` there is room for one token: `further` says
whether the worker is past a test with a token still to be sampled or stored.  `taken` counts the
tokens sampled and stored; with a flag set, `taken + further` does not grow, and `stepsLeft` falls
with every step of the worker.
-/

namespace Professord

open GuardedSystem

variable {σ χ : Type}

/-! ## What is still to come -/

/-- How many tokens the callback may still store once a flag is set. -/
@[simp] def CbPc.further (shutdown : Bool) : CbPc → Nat
  | .ringShutdown | .accumShutdown => if shutdown then 0 else 1
  | .ringStore | .accumStore => 1
  | .enter | .ringFull | .waitCancel | .waitShutdown | .waiting | .ringCancel | .accumCancel => 0

/-- How many steps the callback and what follows it may still take once a flag is set. -/
@[simp] def CbPc.stepsLeft (shutdown : Bool) : CbPc → Nat
  | .enter => 12
  -- the flag that is set may be the one that was tested before
  | .waitShutdown => if shutdown then 7 else 11
  | .waiting => 10
  | .ringFull => 9
  | .waitCancel => 8
  | .ringCancel | .accumCancel => 6
  | .ringShutdown | .accumShutdown => 5
  | .ringStore | .accumStore => 4

/-- How many tokens may still be sampled or stored once a flag is set. -/
@[simp] def LoopPc.further (cancel shutdown : Bool) : LoopPc → Nat
  | .testCancel _ => if cancel then 0 else 1
  | .testTime _ | .sample _ => 1
  | .callback _ pc => pc.further shutdown
  | .top _ | .decode _ | .done _ => 0

/-- How many steps the worker may still take once a flag is set. -/
@[simp] def LoopPc.stepsLeft (cancel shutdown : Bool) : LoopPc → Nat
  | .testCancel _ => if cancel then 1 else 15
  | .testTime _ => 14
  | .sample _ => 13
  | .callback _ pc => pc.stepsLeft shutdown
  | .decode _ => 3
  | .top _ => 2
  | .done _ => 0

/-- Once a flag is set: the writer waits on a full ring, or has still to test the flag. -/
def CbPc.leaving (shutdown : Bool) : CbPc → Bool
  | .ringFull | .waitCancel | .waitShutdown | .waiting | .ringCancel => true
  | .ringShutdown => shutdown
  | .enter | .ringStore | .accumCancel | .accumShutdown | .accumStore => false

/-- Setting a flag takes away from what is to come. -/
theorem CbPc.further_le (pc : CbPc) (shutdown : Bool) :
    pc.further shutdown ≤ 1 ∧ pc.further true ≤ pc.further shutdown := by
  cases pc <;> cases shutdown <;> decide

theorem CbPc.stepsLeft_le (pc : CbPc) (shutdown : Bool) :
    pc.stepsLeft shutdown ≤ 12 ∧ pc.stepsLeft true ≤ pc.stepsLeft shutdown := by
  cases pc <;> cases shutdown <;> decide

theorem LoopPc.further_le (pc : LoopPc) (cancel shutdown : Bool) :
    pc.further cancel shutdown ≤ 1 ∧ pc.further true shutdown ≤ pc.further cancel shutdown ∧
      pc.further cancel true ≤ pc.further cancel shutdown := by
  cases pc with
  | callback k pc => exact ⟨(pc.further_le shutdown).1, Nat.le_refl _, (pc.further_le shutdown).2⟩
  | _ => cases cancel <;> simp [further]

theorem LoopPc.stepsLeft_le (pc : LoopPc) (cancel shutdown : Bool) :
    pc.stepsLeft cancel shutdown ≤ 15 ∧
      pc.stepsLeft true shutdown ≤ pc.stepsLeft cancel shutdown ∧
      pc.stepsLeft cancel true ≤ pc.stepsLeft cancel shutdown := by
  cases pc with
  | callback k pc =>
      have hcb := pc.stepsLeft_le shutdown
      exact ⟨Nat.le_trans hcb.1 (by decide), Nat.le_refl _, hcb.2⟩
  | _ => cases cancel <;> simp [stepsLeft]

namespace LoopState

variable (s : LoopState σ χ)

/-- `job->cancel || g_shutdown_requested` -/
def flagged : Prop :=
  s.cancel = true ∨ s.shutdown = true

/-- The tokens that were sampled, and those that were stored. -/
def taken : Nat :=
  s.sampled + s.gen.user.stored.length

@[simp] def further : Nat :=
  s.pc.further s.cancel s.shutdown

@[simp] def stepsLeft : Nat :=
  s.pc.stepsLeft s.cancel s.shutdown

/-- The writer of `k` is on its way out, or has left. -/
def leaves (k : TokenCall) : Prop :=
  (∃ pc, s.pc = .callback k pc ∧ pc.leaving s.shutdown = true) ∨ s.pc = .done .abort

end LoopState

@[simp] def LoopAction.isWork : LoopAction → Bool
  | .work _ _ => true
  | .cancel | .shutdown | .drain => false

/-! ## One step -/

/-- What a step does once a flag is set. -/
structure LateStep (s : LoopState σ χ) (a : LoopAction) (s' : LoopState σ χ) : Prop where
  flagged : s'.flagged
  sampled : s.sampled ≤ s'.sampled
  stored : s.gen.user.stored <+: s'.gen.user.stored
  taken : s'.taken + s'.further ≤ s.taken + s.further
  left : s'.stepsLeft + (if a.isWork then 1 else 0) ≤ s.stepsLeft

section Step

variable {L : Llama σ χ} {params : SampleParams} {stream : Bool} {maxGen : Nat}
  {s s' : LoopState σ χ}

/-- A step that accepts no token. -/
theorem LateStep.move {a : LoopAction} {pc : LoopPc} {sink : TokenSink} (h : s.flagged)
    (hsink : sink.stored = s.gen.user.stored) (htaken : (s.go pc).further ≤ s.further)
    (hleft : (s.go pc).stepsLeft + (if a.isWork then 1 else 0) ≤ s.stepsLeft) :
    LateStep s a ((s.setSink sink).go pc) where
  flagged := h
  sampled := Nat.le_refl _
  stored := by
    simp [hsink]
  taken := by
    have hsame : ((s.setSink sink).go pc).taken = s.taken := by
      simp [LoopState.taken, LoopState.setSink, hsink]
    rw [hsame]
    exact Nat.add_le_add_left htaken _
  left := hleft

theorem LateStep.go {a : LoopAction} {pc : LoopPc} (h : s.flagged)
    (htaken : (s.go pc).further ≤ s.further)
    (hleft : (s.go pc).stepsLeft + (if a.isWork then 1 else 0) ≤ s.stepsLeft) :
    LateStep s a (s.go pc) :=
  @LateStep.move σ χ s a pc s.gen.user h rfl htaken hleft

theorem LateStep.accept {a : LoopAction} {k : TokenCall} {sink : TokenSink} (h : s.flagged)
    (hsink : sink.stored = s.gen.user.stored) (htaken : s.further = 1) (hleft : s.stepsLeft = 4) :
    LateStep s a ((s.accept k.piece sink).go (.decode k)) where
  flagged := h
  sampled := Nat.le_refl _
  stored := ⟨[k.piece], by simp [LoopState.accept, LoopState.setSink, hsink]⟩
  taken := by
    have hmore : ((s.accept k.piece sink).go (.decode k)).taken = s.taken + 1 := by
      simp [LoopState.taken, LoopState.accept, LoopState.setSink, hsink, Nat.add_assoc]
    rw [hmore, htaken]
    exact Nat.le_refl _
  left := by
    rw [hleft]
    cases a <;> simp

theorem lateStep_callback {k : TokenCall} {pc : CbPc} {elapsed : ℚ} {reallocOk : Bool}
    (hpc : s.pc = .callback k pc) (h : s.flagged) :
    LateStep s (.work elapsed reallocOk) (s.callbackStep stream k reallocOk pc) := by
  have hflag : s.cancel = false → s.shutdown = true := fun hc => h.resolve_left (by simp [hc])
  cases pc with
  | ringStore =>
      exact .accept h rfl (by simp [hpc]) (by simp [hpc])
  | accumStore =>
      dsimp only [LoopState.callbackStep]
      split
      · exact .move h rfl (by simp) (by simp [hpc])
      · exact .accept h rfl (by simp [hpc]) (by simp [hpc])
  -- the other steps only move on, by a flag or by the ring
  | _ =>
      refine .go h ?_ ?_ <;>
        cases hc : s.cancel <;> cases hs : s.shutdown <;> cases stream <;>
          cases s.gen.user.ring.slots.isFull <;>
            simp_all

theorem lateStep_sample {i : Nat} {elapsed : ℚ} {reallocOk : Bool} (hpc : s.pc = .sample i)
    (h : s.flagged) : LateStep s (.work elapsed reallocOk) (s.sampleToken L params i) := by
  -- in all three ways one token is sampled, and none is left to come
  have hway : (s.sampleToken L params i).sampled = s.sampled + 1 ∧
      (s.sampleToken L params i).gen.user = s.gen.user ∧
      (s.sampleToken L params i).flagged ∧ (s.sampleToken L params i).further = 0 ∧
      (s.sampleToken L params i).stepsLeft ≤ 12 := by
    unfold LoopState.sampleToken
    dsimp only
    split
    · exact ⟨rfl, rfl, h, rfl, Nat.zero_le _⟩
    · split
      · exact ⟨rfl, rfl, h, rfl, Nat.zero_le _⟩
      · exact ⟨rfl, rfl, h, rfl, Nat.le_refl _⟩
  obtain ⟨hsampled, huser, hflagged, hfurther, hleft⟩ := hway
  refine ⟨hflagged, by omega, by rw [huser], ?_, ?_⟩
  · have hbefore : s.further = 1 := by simp [hpc]
    rw [LoopState.taken, LoopState.taken, hsampled, huser, hfurther, hbefore]
    omega
  · have hbefore : s.stepsLeft = 13 := by simp [hpc]
    rw [hbefore]
    exact Nat.succ_le_succ hleft

theorem lateStep_decode {k : TokenCall} {elapsed : ℚ} {reallocOk : Bool} (hpc : s.pc = .decode k)
    (h : s.flagged) : LateStep s (.work elapsed reallocOk) (s.decodeToken L k) := by
  have hway : (s.decodeToken L k).sampled = s.sampled ∧ (s.decodeToken L k).gen.user = s.gen.user ∧
      (s.decodeToken L k).flagged ∧ (s.decodeToken L k).further = 0 ∧
      (s.decodeToken L k).stepsLeft ≤ 2 := by
    unfold LoopState.decodeToken
    dsimp only
    split
    · exact ⟨rfl, rfl, h, rfl, Nat.zero_le _⟩
    · exact ⟨rfl, rfl, h, rfl, Nat.le_refl _⟩
  obtain ⟨hsampled, huser, hflagged, hfurther, hleft⟩ := hway
  refine ⟨hflagged, hsampled.ge, by rw [huser], ?_, ?_⟩
  · rw [LoopState.taken, LoopState.taken, hsampled, huser, hfurther]
    omega
  · have hbefore : s.stepsLeft = 3 := by simp [hpc]
    rw [hbefore]
    exact Nat.succ_le_succ hleft

theorem lateStep_work {elapsed : ℚ} {reallocOk : Bool} (h : s.flagged)
    (hs : s.workStep L params stream maxGen elapsed reallocOk = some s') :
    LateStep s (.work elapsed reallocOk) s' := by
  have hflag : s.cancel = false → s.shutdown = true := fun hc => h.resolve_left (by simp [hc])
  cases hpc : s.pc with
  | top i =>
      simp only [LoopState.workStep, hpc] at hs
      split at hs
      · obtain rfl := Option.some.inj hs
        refine .go h ?_ ?_ <;> cases hc : s.cancel <;> cases hd : s.shutdown <;> simp_all
      · obtain rfl := Option.some.inj hs
        exact .go h (by simp) (by simp [hpc])
  | testCancel i =>
      simp only [LoopState.workStep, hpc] at hs
      obtain rfl := Option.some.inj hs
      refine .go h ?_ ?_ <;> cases hc : s.cancel <;> simp [hpc, hc]
  | testTime i =>
      simp only [LoopState.workStep, hpc] at hs
      obtain rfl := Option.some.inj hs
      by_cases hlate : i % 32 = 0 ∧ elapsed > params.maxInferenceSeconds
      · rw [if_pos hlate]
        exact .go h (by simp) (by simp [hpc])
      · rw [if_neg hlate]
        exact .go h (by simp [hpc]) (by simp [hpc])
  | sample i =>
      simp only [LoopState.workStep, hpc] at hs
      obtain rfl := Option.some.inj hs
      exact lateStep_sample hpc h
  | callback k pc =>
      simp only [LoopState.workStep, hpc] at hs
      obtain rfl := Option.some.inj hs
      exact lateStep_callback hpc h
  | decode k =>
      simp only [LoopState.workStep, hpc] at hs
      obtain rfl := Option.some.inj hs
      exact lateStep_decode hpc h
  | done reason => simp [LoopState.workStep, hpc] at hs

/-- A flag that is set as well takes nothing away. -/
theorem lateStep_act {a : LoopAction} (h : s.flagged)
    (hs : s.act L params stream maxGen a = some s') : LateStep s a s' := by
  cases a with
  | work elapsed reallocOk => exact lateStep_work h hs
  | cancel =>
      obtain rfl := Option.some.inj hs
      refine ⟨.inl rfl, Nat.le_refl _, List.prefix_refl _, ?_, ?_⟩
      · exact Nat.add_le_add_left (s.pc.further_le s.cancel s.shutdown).2.1 _
      · exact (s.pc.stepsLeft_le s.cancel s.shutdown).2.1
  | shutdown =>
      obtain rfl := Option.some.inj hs
      refine ⟨.inr rfl, Nat.le_refl _, List.prefix_refl _, ?_, ?_⟩
      · exact Nat.add_le_add_left (s.pc.further_le s.cancel s.shutdown).2.2 _
      · exact (s.pc.stepsLeft_le s.cancel s.shutdown).2.2
  | drain =>
      simp only [LoopState.act] at hs
      split at hs
      · cases hs
      · obtain rfl := Option.some.inj hs
        exact @LateStep.move σ χ s .drain s.pc _ h rfl (Nat.le_refl _) (Nat.le_refl _)

/-! ### A writer that waits -/

/-- What is left of the ring once nothing more is written to it. -/
structure LeftAlone (s s' : LoopState σ χ) : Prop where
  sampled : s'.sampled = s.sampled
  stored : s'.gen.user.stored = s.gen.user.stored
  response : s'.gen.user.response = s.gen.user.response
  ring : s'.gen.user.ring.texts <:+ s.gen.user.ring.texts

theorem LeftAlone.refl (s : LoopState σ χ) : LeftAlone s s :=
  ⟨rfl, rfl, rfl, List.suffix_refl _⟩

theorem LeftAlone.go (s : LoopState σ χ) (pc : LoopPc) : LeftAlone s (s.go pc) :=
  ⟨rfl, rfl, rfl, List.suffix_refl _⟩

theorem LeftAlone.trans {s₁ s₂ s₃ : LoopState σ χ} (h : LeftAlone s₁ s₂) (h' : LeftAlone s₂ s₃) :
    LeftAlone s₁ s₃ :=
  ⟨h'.sampled.trans h.sampled, h'.stored.trans h.stored, h'.response.trans h.response,
    h'.ring.trans h.ring⟩

/-- A writer that is on its way out goes from test to test until it returns. -/
theorem leaves_callback {k : TokenCall} {pc : CbPc} {reallocOk : Bool} (h : s.flagged)
    (hleaving : pc.leaving s.shutdown = true) :
    (s.callbackStep stream k reallocOk pc).leaves k ∧
      LeftAlone s (s.callbackStep stream k reallocOk pc) := by
  have hflag : s.cancel = false → s.shutdown = true := fun hc => h.resolve_left (by simp [hc])
  cases pc with
  | ringFull =>
      refine ⟨.inl ⟨_, rfl, ?_⟩, .go s _⟩
      split <;> rfl
  | waitCancel =>
      refine ⟨.inl ⟨_, rfl, ?_⟩, .go s _⟩
      split <;> rfl
  | waitShutdown =>
      refine ⟨.inl ⟨_, rfl, ?_⟩, .go s _⟩
      split <;> rfl
  | waiting => exact ⟨.inl ⟨_, rfl, rfl⟩, .go s _⟩
  | ringCancel =>
      refine ⟨?_, .go s _⟩
      cases hc : s.cancel with
      | true => exact .inr (by simp [LoopState.callbackStep, hc])
      | false =>
          refine .inl ⟨.ringShutdown, by simp [LoopState.callbackStep, hc], hflag hc⟩
  | ringShutdown =>
      have hset : s.shutdown = true := hleaving
      exact ⟨.inr (by simp [LoopState.callbackStep, hset]), .go s _⟩
  | _ => cases hleaving

theorem leaves_act {a : LoopAction} {k : TokenCall} (h : s.flagged) (hleaves : s.leaves k)
    (hs : s.act L params stream maxGen a = some s') : s'.leaves k ∧ LeftAlone s s' := by
  cases a with
  | work elapsed reallocOk =>
      rcases hleaves with ⟨pc, hpc, hleaving⟩ | hdone
      · simp only [LoopState.act, LoopState.workStep, hpc] at hs
        obtain rfl := Option.some.inj hs
        exact leaves_callback h hleaving
      · simp [LoopState.act, LoopState.workStep, hdone] at hs
  | cancel =>
      obtain rfl := Option.some.inj hs
      exact ⟨hleaves, rfl, rfl, rfl, List.suffix_refl _⟩
  | shutdown =>
      obtain rfl := Option.some.inj hs
      refine ⟨?_, rfl, rfl, rfl, List.suffix_refl _⟩
      rcases hleaves with ⟨pc, hpc, hleaving⟩ | hdone
      · refine .inl ⟨pc, hpc, ?_⟩
        cases pc <;> first | rfl | cases hleaving
      · exact .inr hdone
  | drain =>
      simp only [LoopState.act] at hs
      split at hs
      · cases hs
      · obtain rfl := Option.some.inj hs
        -- a batch only takes from the ring
        exact ⟨hleaves, rfl, rfl, rfl, _, (drainBatch_spec s.gen.user.ring).1⟩

end Step

/-! ## Every run -/

section Run

variable {L : Llama σ χ} {params : SampleParams} {stream : Bool} {maxGen : Nat}
  {start s t : LoopState σ χ} {as : List LoopAction}

theorem flagged_step (u : LoopState σ χ) (a : LoopAction) (v : LoopState σ χ) (h : u.flagged)
    (_ : Free u a) (hs : (loopSystem L params stream maxGen start).step u a = some v) :
    v.flagged :=
  (lateStep_act h hs).flagged

/-- What a run does once a flag is set. -/
theorem late_run (h : s.flagged)
    (hrun : (loopSystem L params stream maxGen start).runGuarded Free s as = some t) :
    s.sampled ≤ t.sampled ∧ s.gen.user.stored <+: t.gen.user.stored ∧
      t.taken + t.further ≤ s.taken + s.further ∧
      t.stepsLeft + as.countP LoopAction.isWork ≤ s.stepsLeft := by
  have hkept : t.flagged ∧ s.sampled ≤ t.sampled ∧ s.gen.user.stored <+: t.gen.user.stored ∧
      t.taken + t.further ≤ s.taken + s.further := by
    refine runGuarded_invariant (P := fun u => u.flagged ∧ s.sampled ≤ u.sampled ∧
      s.gen.user.stored <+: u.gen.user.stored ∧ u.taken + u.further ≤ s.taken + s.further)
      ?_ ⟨h, Nat.le_refl _, List.prefix_refl _, Nat.le_refl _⟩ hrun
    rintro u a v ⟨hflagged, hsampled, hstored, htaken⟩ _ hs
    have hlate := lateStep_act hflagged hs
    exact ⟨hlate.flagged, hsampled.trans hlate.sampled, hstored.trans hlate.stored,
      hlate.taken.trans htaken⟩
  have hleft := runGuarded_rank flagged_step (fun u a v hu _ hs => (lateStep_act hu hs).left) h hrun
  exact ⟨hkept.2.1, hkept.2.2.1, hkept.2.2.2, hleft⟩

theorem leaves_run {k : TokenCall} (h : s.flagged) (hleaves : s.leaves k)
    (hrun : (loopSystem L params stream maxGen start).runGuarded Free s as = some t) :
    t.leaves k ∧ LeftAlone s t := by
  refine (runGuarded_invariant (P := fun u => u.flagged ∧ u.leaves k ∧ LeftAlone s u) ?_
    ⟨h, hleaves, .refl s⟩ hrun).2
  rintro u a v ⟨hflagged, hgoing, halone⟩ hfree hs
  obtain ⟨hnext, hstill⟩ := leaves_act hflagged hgoing hs
  exact ⟨flagged_step u a v hflagged hfree hs, hnext, halone.trans hstill⟩

/-- The worker can always go on, until the loop is left. -/
theorem work_or_done (s : LoopState σ χ) :
    (∃ reason, s.pc = .done reason) ∨
      ∀ elapsed reallocOk, (s.workStep L params stream maxGen elapsed reallocOk).isSome = true := by
  cases hpc : s.pc with
  | done reason => exact .inl ⟨reason, rfl⟩
  | top i =>
      refine .inr fun elapsed reallocOk => ?_
      simp only [LoopState.workStep, hpc]
      split <;> rfl
  | _ =>
      refine .inr fun elapsed reallocOk => ?_
      simp only [LoopState.workStep, hpc, Option.isSome_some]

end Run

/-- Cancellation of the loop is prompt from `s` on. -/
structure PromptCancel (L : Llama σ χ) (params : SampleParams) (stream : Bool) (maxGen : Nat)
    (start s : LoopState σ χ) : Prop where
  sampled : ∀ as t, (loopSystem L params stream maxGen start).runGuarded Free s as = some t →
    t.sampled ≤ s.sampled + 1
  stored : ∀ as t, (loopSystem L params stream maxGen start).runGuarded Free s as = some t →
    s.gen.user.stored <+: t.gen.user.stored ∧
      t.gen.user.stored.length ≤ s.gen.user.stored.length + 1
  /-- not one of each -/
  either : ∀ as t, (loopSystem L params stream maxGen start).runGuarded Free s as = some t →
    t.taken ≤ s.taken + 1
  /-- a writer in the wait loop of `ring_write` does not write, and can only leave with `abort` -/
  waiting : ∀ k pc, s.pc = .callback k pc →
    pc ∈ [CbPc.ringFull, .waitCancel, .waitShutdown, .waiting] →
    ∀ as t, (loopSystem L params stream maxGen start).runGuarded Free s as = some t →
      t.leaves k ∧ LeftAlone s t
  /-- the worker takes at most 15 steps, and can take them -/
  ends : ∀ as t, (loopSystem L params stream maxGen start).runGuarded Free s as = some t →
    as.countP LoopAction.isWork ≤ 15 ∧
      ((∃ reason, t.pc = .done reason) ∨
        ∀ elapsed reallocOk, (t.workStep L params stream maxGen elapsed reallocOk).isSome = true)

/-- Whatever the state in which a flag is set, at most one token more is sampled or stored, a writer
that waits on a full ring leaves without writing, and the loop is soon left. -/
theorem prompt_cancel (L : Llama σ χ) (params : SampleParams) (stream : Bool) (maxGen : Nat)
    (start : LoopState σ χ) {s : LoopState σ χ} (hflag : s.cancel = true ∨ s.shutdown = true) :
    PromptCancel L params stream maxGen start s := by
  have hfurther : s.further ≤ 1 := (s.pc.further_le s.cancel s.shutdown).1
  have heither : ∀ as t,
      (loopSystem L params stream maxGen start).runGuarded Free s as = some t →
        t.taken ≤ s.taken + 1 := by
    intro as t hrun
    obtain ⟨_, _, htaken, _⟩ := late_run hflag hrun
    omega
  constructor
  case sampled =>
    intro as t hrun
    obtain ⟨_, hstored, _, _⟩ := late_run hflag hrun
    have htaken := heither as t hrun
    have hlen := hstored.length_le
    simp only [LoopState.taken] at htaken
    omega
  case stored =>
    intro as t hrun
    obtain ⟨hsampled, hstored, _, _⟩ := late_run hflag hrun
    have htaken := heither as t hrun
    simp only [LoopState.taken] at htaken
    exact ⟨hstored, by omega⟩
  case either => exact heither
  case waiting =>
    intro k pc hpc hwaits as t hrun
    have hleaving : pc.leaving s.shutdown = true := by
      simp only [List.mem_cons, List.not_mem_nil, or_false] at hwaits
      rcases hwaits with rfl | rfl | rfl | rfl <;> rfl
    exact leaves_run hflag (.inl ⟨pc, hpc, hleaving⟩) hrun
  case ends =>
    intro as t hrun
    obtain ⟨_, _, _, hleft⟩ := late_run hflag hrun
    have hsteps : s.stepsLeft ≤ 15 := (s.pc.stepsLeft_le s.cancel s.shutdown).1
    exact ⟨by omega, work_or_done t⟩

namespace Sample

/-- Each token is the letter `a`. -/
def letters : Llama Ctx Unit :=
  byteModel (fun _ => 97) fun _ => 0

def loopBegin : LoopState Ctx Unit :=
  loopStart letters default default (accumInit 0 true)

/-- Nobody drains the ring: it is full after 255 tokens, the writer of the next one waits, and its
connection is closed. -/
def fillsRing : List LoopAction :=
  List.replicate 2558 (.work 0 true) ++ [.cancel]

theorem fillsRing_replays :
    ((loopSystem letters default true 300 loopBegin).runGuarded Free loopBegin
      fillsRing).isSome = true := by
  decide +kernel

def waitingWriter : LoopState Ctx Unit :=
  ((loopSystem letters default true 300 loopBegin).runGuarded Free loopBegin fillsRing).get
    fillsRing_replays

theorem waitingWriter_waits :
    waitingWriter.pc = .callback ⟨255, 97, [97]⟩ .waiting ∧ waitingWriter.cancel = true := by
  decide +kernel

/-- The ring is drained, and yet the writer leaves without writing. -/
theorem prompt_cancel_waitingWriter :
    PromptCancel letters default true 300 loopBegin waitingWriter ∧
      waitingWriter.pc = .callback ⟨255, 97, [97]⟩ .waiting ∧
        ((loopSystem letters default true 300 loopBegin).runGuarded Free waitingWriter
          [.drain, .work 0 true, .work 0 true, .work 0 true]).map LoopState.pc =
            some (.done .abort) := by
  refine ⟨prompt_cancel _ _ _ _ _ (.inl waitingWriter_waits.2), waitingWriter_waits.1, ?_⟩
  decide +kernel

end Sample

end Professord
