import Professord.Inference.Chat

/-!
# LoopEnd — how the generation loop ends

For every way out of the loop: what the iterations before it have recorded, and what was found in
the iteration that left.
-/

namespace Professord

open CText

variable {σ χ ω : Type}

/-- The data of the callback after it has been called with the texts, from iteration `i` on. -/
def TokenCallback.after (cb : TokenCallback ω) : Nat → ω → List Bytes → ω
  | _, user, [] => user
  | i, user, text :: texts => TokenCallback.after cb (i + 1) (cb i text user).2 texts

theorem TokenCallback.after_append (cb : TokenCallback ω) (i : Nat) (user : ω)
    (front back : List Bytes) :
    cb.after i user (front ++ back) = cb.after (i + front.length) (cb.after i user front) back := by
  induction front generalizing i user with
  | nil => rfl
  | cons text front ih =>
      rw [List.cons_append, TokenCallback.after, ih, List.length_cons, Nat.add_assoc,
        Nat.add_comm 1]
      rfl

/-- `k` iterations have been completed: no flag was set at their top, the callback accepted each of
their texts, and each decoded its token. -/
structure Completed (env : RunEnv) (cb : TokenCallback ω) (start : ω) (k : Nat)
    (passed : List Bytes) (rcs : List Int) (user : ω) : Prop where
  count : passed.length = k
  codes : rcs = List.replicate k 0
  data : user = cb.after 0 start passed
  accepted : ∀ front text back, passed = front ++ text :: back →
    (cb front.length text (cb.after 0 start front)).1 = 0
  quiet : ∀ i < k, env.shutdown i = false ∧ env.cancel i = false

/-- The ways out of a loop of at most `n` iterations, with the reason that is reported. -/
inductive LoopEnd (env : RunEnv) (cb : TokenCallback ω) (start : ω) (n : Nat) :
    FinishReason → List Bytes → List Int → ω → Prop
  | budget {passed rcs user} (h : Completed env cb start n passed rcs user) :
      LoopEnd env cb start n .length passed rcs user
  | flag {k passed rcs user} (h : Completed env cb start k passed rcs user) (hk : k < n)
      (hflag : env.shutdown k = true ∨ env.cancel k = true) :
      LoopEnd env cb start n .abort passed rcs user
  | other {k passed rcs user reason} (h : Completed env cb start k passed rcs user) (hk : k < n)
      (hreason : reason = .timeLimit ∨ reason = .stop) :
      LoopEnd env cb start n reason passed rcs user
  | refused {k passed rcs user text} (h : Completed env cb start k passed rcs user) (hk : k < n)
      (hquiet : env.shutdown k = false ∧ env.cancel k = false) (hcb : (cb k text user).1 ≠ 0) :
      LoopEnd env cb start n .abort (passed ++ [text]) rcs (cb k text user).2
  | decode {k passed rcs user text rc} (h : Completed env cb start k passed rcs user)
      (hquiet : env.shutdown k = false ∧ env.cancel k = false) (hcb : (cb k text user).1 = 0)
      (hrc : rc ≠ 0) :
      LoopEnd env cb start n .backendError (passed ++ [text]) (rcs ++ [rc]) (cb k text user).2

/-! ## One iteration -/

section Loop

variable {L : Llama σ χ} {params : SampleParams} {env : RunEnv} {cb : TokenCallback ω}
  {start : ω} {n k : Nat} {g g' : GenState σ χ ω}

section Completed

variable {passed : List Bytes} {rcs : List Int} {user : ω} {text : Bytes}

theorem Completed.length_rcs (h : Completed env cb start k passed rcs user) : rcs.length = k := by
  rw [h.codes, List.length_replicate]

theorem Completed.rc_eq_zero (h : Completed env cb start k passed rcs user) {rc : Int}
    (hmem : rc ∈ rcs) : rc = 0 := by
  rw [h.codes] at hmem
  exact List.eq_of_mem_replicate hmem

theorem Completed.one_notMem (h : Completed env cb start k passed rcs user) : 1 ∉ rcs :=
  fun hmem => absurd (h.rc_eq_zero hmem) (by decide)

theorem Completed.next (h : Completed env cb start k passed rcs user)
    (hquiet : env.shutdown k = false ∧ env.cancel k = false) (hcb : (cb k text user).1 = 0) :
    Completed env cb start (k + 1) (passed ++ [text]) (rcs ++ [0]) (cb k text user).2 where
  count := by rw [List.length_append, h.count]; rfl
  codes := by rw [h.codes, List.replicate_succ']
  data := by
    rw [TokenCallback.after_append, h.count, Nat.zero_add, ← h.data]
    rfl
  accepted front t back heq := by
    -- one of the earlier texts, or the new one
    rcases List.eq_nil_or_concat back with rfl | ⟨back', last, rfl⟩
    · obtain ⟨rfl, hlast⟩ := List.append_inj' heq rfl
      obtain rfl : text = t := (List.cons.inj hlast).1
      rw [h.count, ← h.data, hcb]
    · have hsplit : passed ++ [text] = (front ++ t :: back') ++ [last] := by
        simpa using heq
      exact h.accepted front t back' (List.append_inj' hsplit rfl).1
  quiet i hi := by
    rcases Nat.lt_succ_iff_lt_or_eq.1 hi with hlt | rfl
    · exact h.quiet i hlt
    · exact hquiet

end Completed

theorem abortReason_eq_some {i : Nat} {reason : FinishReason}
    (h : abortReason params env i = some reason) :
    reason = .abort ∧ (env.shutdown i = true ∨ env.cancel i = true) ∨ reason = .timeLimit := by
  unfold abortReason at h
  split_ifs at h with hshutdown hcancel htime
  · exact .inl ⟨(Option.some.inj h).symm, .inl hshutdown⟩
  · exact .inl ⟨(Option.some.inj h).symm, .inr hcancel⟩
  · exact .inr (Option.some.inj h).symm

theorem abortReason_eq_none {i : Nat} (h : abortReason params env i = none) :
    env.shutdown i = false ∧ env.cancel i = false := by
  unfold abortReason at h
  split_ifs at h with hshutdown hcancel htime
  exact ⟨Bool.eq_false_iff.2 hshutdown, Bool.eq_false_iff.2 hcancel⟩

/-- The records of a state of the loop. -/
abbrev GenState.Completed (env : RunEnv) (cb : TokenCallback ω) (start : ω) (k : Nat)
    (g : GenState σ χ ω) : Prop :=
  Professord.Completed env cb start k g.passed g.rcs g.user

abbrev GenState.Ended (env : RunEnv) (cb : TokenCallback ω) (start : ω) (n : Nat)
    (reason : FinishReason) (g : GenState σ χ ω) : Prop :=
  LoopEnd env cb start n reason g.passed g.rcs g.user

theorem passToken_ends {token : Token} {piece : Bytes} {r : Option FinishReason}
    (h : g.Completed env cb start k) (hk : k < n)
    (hquiet : env.shutdown k = false ∧ env.cancel k = false)
    (hpass : passToken L cb k token piece g = (r, g')) :
    (r = none ∧ g'.Completed env cb start (k + 1)) ∨
      ∃ reason, r = some reason ∧ g'.Ended env cb start n reason := by
  unfold passToken at hpass
  by_cases hcb : (cb k piece g.user).1 = 0
  · by_cases hrc : (L.decode g.ctx [token]).1 = 0
    · simp only [hcb, hrc, ne_eq, not_true_eq_false, if_false] at hpass
      cases hpass
      exact .inl ⟨rfl, h.next hquiet hcb⟩
    · simp only [hcb, hrc, ne_eq, not_true_eq_false, not_false_eq_true, if_false, if_true] at hpass
      cases hpass
      exact .inr ⟨_, rfl, LoopEnd.decode h hquiet hcb hrc⟩
  · simp only [hcb, ne_eq, not_false_eq_true, if_true] at hpass
    cases hpass
    exact .inr ⟨_, rfl, LoopEnd.refused h hk hquiet hcb⟩

/-- An iteration is completed, or leaves in one of the ways. -/
theorem genStep_ends {r : Option FinishReason} (h : g.Completed env cb start k) (hk : k < n)
    (hstep : genStep L params env cb k g = (r, g')) :
    (r = none ∧ g'.Completed env cb start (k + 1)) ∨
      ∃ reason, r = some reason ∧ g'.Ended env cb start n reason := by
  unfold genStep at hstep
  cases hreason : abortReason params env k with
  | some reason =>
      rw [hreason] at hstep
      cases hstep
      rcases abortReason_eq_some hreason with ⟨rfl, hflag⟩ | rfl
      · exact .inr ⟨_, rfl, LoopEnd.flag h hk hflag⟩
      · exact .inr ⟨_, rfl, LoopEnd.other h hk (.inl rfl)⟩
  | none =>
      rw [hreason] at hstep
      simp only at hstep
      split_ifs at hstep with heos hstop
      · cases hstep
        exact .inr ⟨_, rfl, LoopEnd.other h hk (.inr rfl)⟩
      · cases hstep
        exact .inr ⟨_, rfl, LoopEnd.other h hk (.inr rfl)⟩
      · -- neither the sampler nor the window is part of the record
        refine passToken_ends ?_ hk (abortReason_eq_none hreason) hstep
        exact h

/-- The loop ends in one of the ways, whatever the tokens. -/
theorem generate_ends (m : Nat) {i : Nat} (hn : n = i + m) (h : g.Completed env cb start i) :
    (generate L params env cb m i g).2.Ended env cb start n
      (generate L params env cb m i g).1 := by
  -- on the number of iterations left
  induction m generalizing i g with
  | zero =>
      obtain rfl : n = i := hn
      exact LoopEnd.budget h
  | succ m ih =>
      unfold generate
      cases hstep : genStep L params env cb i g with
      | mk r g' =>
          rcases genStep_ends (n := n) h (by omega) hstep with ⟨rfl, hnext⟩ | ⟨reason, rfl, hend⟩
          · exact ih (by omega) hnext
          · exact hend

end Loop

/-! ## The function -/

/-- A call that never comes to the loop, or the end of its loop. -/
inductive Outcome.Ended (eng : Engine) (params : SampleParams) (env : RunEnv)
    (cb : TokenCallback ω) (start : ω) (o : Outcome σ ω) : Prop
  | unreached (hret : o.ret ≠ some 0)
      (hfinish : o.ret = none ∧ o.finish = .length ∨
        o.finish = .contextOverflow ∨ o.finish = .backendError)
      (hpassed : o.passed = []) (hrcs : o.tokenRcs = [])
  | loop (hret : o.ret = some 0)
      (hend : LoopEnd env cb start (maxGen eng params o.promptTokens).toNat o.finish o.passed
        o.tokenRcs o.user)

section Function

variable (L : Llama σ χ) (eng : Engine) (fuel : Nat) (params : SampleParams) (env : RunEnv)
  (cb : TokenCallback ω)

theorem Outcome.ended_fail (ctx : σ) (user : ω) (n : Int) (rcs : List Int) (reason : FinishReason)
    (h : reason = .contextOverflow ∨ reason = .backendError) :
    (Outcome.fail ctx user n rcs reason).Ended eng params env cb user :=
  .unreached (by simp [Outcome.fail]) (.inr h) rfl rfl

theorem runGeneration_ended (nPrompt : Int) (promptRcs : List Int) (ctx : σ) (user : ω) :
    (runGeneration L eng params env cb nPrompt promptRcs ctx user).Ended eng params env cb
      user := by
  unfold runGeneration
  split
  · exact Outcome.ended_fail eng params env cb ctx user nPrompt promptRcs _ (.inr rfl)
  · have hstart : (genStart L params ctx user).Completed env cb user 0 := by
      refine ⟨rfl, rfl, rfl, ?_, fun i hi => absurd hi (Nat.not_lt_zero i)⟩
      intro front text back heq
      simp [genStart] at heq
    exact .loop rfl (generate_ends _ (Nat.zero_add _).symm hstart)

theorem runPrompt_ended (nPrompt : Int) (tokens : List Token) (ctx : σ) (user : ω) :
    (runPrompt L eng fuel params env cb nPrompt tokens ctx user).Ended eng params env cb user := by
  unfold runPrompt
  simp only
  split
  · exact .unreached (by simp) (.inl ⟨rfl, rfl⟩) rfl rfl
  · split
    · refine Outcome.ended_fail eng params env cb _ user nPrompt _ _ ?_
      split
      · exact .inl rfl
      · exact .inr rfl
    · exact runGeneration_ended L eng params env cb nPrompt _ _ user

theorem inferenceComplete_ended (prompt : Bytes) (ctx : σ) (user : ω) :
    (inferenceComplete L eng fuel params env cb prompt ctx user).Ended eng params env cb user := by
  have hfail := fun n reason h =>
    Outcome.ended_fail eng params env cb (L.memoryClear ctx) user n [] reason h
  unfold inferenceComplete
  simp only
  split
  · exact hfail _ _ (.inr rfl)
  split
  · exact hfail _ _ (.inl rfl)
  split
  · exact hfail _ _ (.inr rfl)
  split
  · exact hfail _ _ (.inr rfl)
  split
  · exact hfail _ _ (.inl rfl)
  · exact runPrompt_ended L eng fuel params env cb _ _ _ user

/-- Rendering fails with one of two reasons. -/
theorem renderChat_failed {messages : List ChatMessage} {allocs : Allocs} {reason : FinishReason}
    (h : renderChat L eng messages allocs = .failed reason) :
    reason = .contextOverflow ∨ reason = .backendError := by
  unfold renderChat at h
  split at h
  · split at h
    · next hchatml =>
        cases h
        exact .inr (renderChatml_failed hchatml)
    · split at h
      · cases h
        exact .inl rfl
      · cases h
  split at h
  · cases h
    exact .inr rfl
  simp only at h
  split at h
  · exact .inr (renderChatml_failed h)
  split at h
  · cases h
    exact .inl rfl
  split at h
  · cases h
    exact .inr rfl
  split at h
  · cases h
    exact .inr rfl
  · cases h

theorem inferenceChat_ended (messages : List ChatMessage) (promptTokens completionTokens : Int)
    (ctx : σ) (user : ω) :
    (inferenceChat L eng fuel params env cb messages promptTokens completionTokens ctx user).Ended
      eng params env cb user := by
  unfold inferenceChat
  split
  · next reason hrender =>
      exact .unreached (by simp) (.inr (renderChat_failed L eng hrender)) rfl rfl
  · exact inferenceComplete_ended L eng fuel params env cb _ ctx user

end Function

end Professord
