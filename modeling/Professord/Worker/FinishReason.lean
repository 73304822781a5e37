import Professord.Inference.LoopEnd
import Professord.Worker.AccumExact
import Professord.Worker.RunJob

/-!
# FinishReason — what `finish_reason` says about a run

`stream_token_cb` refuses a token only when a flag is set, but the same result of
`accum_token_cb` also stands for a full response buffer and for a failed `realloc`; and a full
context shows in the loop only as a result of `llama_decode`, which the prompt loop reports as an
overflow and the generation loop does not.
-/

namespace Professord

open CText

variable {σ χ : Type}

/-! ## The calls of a run -/

/-- The call of `accum_token_cb` in iteration `i`. -/
def RunEnv.accumCall (env : RunEnv) (i : Nat) (text : Bytes) : AccumCall :=
  ⟨text, env.cbCancelled i, false, env.allocs.growth i⟩

/-- The calls for the texts that a run has passed on. -/
def RunEnv.accumCallsFor (env : RunEnv) : Nat → List Bytes → List AccumCall
  | _, [] => []
  | i, text :: texts => env.accumCall i text :: RunEnv.accumCallsFor env (i + 1) texts

/-- A call that finds no flag set is refused: `why` tells for what reason. -/
def RefusedUnflagged (why : AccumBuf → AccumCall → Prop) (b : AccumBuf) (calls : List AccumCall) :
    Prop :=
  ∃ front c back, calls = front ++ c :: back ∧ c.cancel = false ∧ c.shutdown = false ∧
    why (accumCalls b front).1 c

/-- The text does not fit the content of a response. -/
def ResponseFull (b : AccumBuf) (c : AccumCall) : Prop :=
  profContentMax ≤ b.len + (cstr c.piece).length

/-- The text does not fit, or the buffer would have to grow and `realloc` fails. -/
def NoMemory (b : AccumBuf) (c : AccumCall) : Prop :=
  b.Refuses (cstr c.piece) false false c.reallocOk

/-! ## What the reason should say -/

/-- A flag was set at one of the moments at which the run looked at it. -/
def FlagSeen (env : RunEnv) (r : JobRun σ) : Prop :=
  (∃ i ≤ r.tokenRcs.length, env.shutdown i = true ∨ env.cancel i = true) ∨
    ∃ i < r.passed.length, env.cbCancelled i = true

/-- The response was cut at a length limit. -/
inductive LimitReached (eng : Engine) (env : RunEnv) (job : WorkerJob) (r : JobRun σ) : Prop
  /-- `max_tokens`, capped to the context -/
  | tokens (hcount : r.tokenRcs.length = (maxGen eng job.params r.job.promptTokens).toNat)
      (hcodes : ∀ rc ∈ r.tokenRcs, rc = 0)
  /-- `llama_decode` finds no room in the context -/
  | context (hfull : 1 ∈ r.tokenRcs)
  | buffer (hstream : job.stream = false)
      (hfull : RefusedUnflagged ResponseFull (accumInit job.params.maxTokens true)
        (env.accumCallsFor 0 r.passed))

/-- `abort` is reported only of an abort, and `length` of a response cut at a limit, always and
only. -/
structure FinishTruthful (eng : Engine) (env : RunEnv) (job : WorkerJob) (r : JobRun σ) : Prop where
  abort : r.job.finishReason = .abort → FlagSeen env r
  length : r.rc = some 0 → LimitReached eng env job r → r.job.finishReason = .length
  only : r.rc.isSome = true → r.job.finishReason = .length → LimitReached eng env job r

/-! ## The two callbacks -/

section Callbacks

variable (env : RunEnv)

theorem accumCb_after (i : Nat) (b : AccumBuf) (texts : List Bytes) :
    (accumCb env).after i b texts = (accumCalls b (env.accumCallsFor i texts)).1 := by
  induction texts generalizing i b with
  | nil => rfl
  | cons text texts ih => exact ih (i + 1) _

theorem accumCallsFor_append (i : Nat) (front back : List Bytes) :
    env.accumCallsFor i (front ++ back) =
      env.accumCallsFor i front ++ env.accumCallsFor (i + front.length) back := by
  induction front generalizing i with
  | nil => rfl
  | cons text front ih =>
      rw [List.cons_append, RunEnv.accumCallsFor, ih, List.length_cons, Nat.add_assoc,
        Nat.add_comm 1]
      rfl

/-- A call of the run is the call for one of its texts. -/
theorem accumCallsFor_split {i : Nat} {texts : List Bytes} {front back : List AccumCall}
    {c : AccumCall} (h : env.accumCallsFor i texts = front ++ c :: back) :
    ∃ texts₁ text texts₂, texts = texts₁ ++ text :: texts₂ ∧
      front = env.accumCallsFor i texts₁ ∧ c = env.accumCall (i + texts₁.length) text := by
  induction texts generalizing i front with
  | nil => simp [RunEnv.accumCallsFor] at h
  | cons t texts ih =>
      cases front with
      | nil =>
          rw [RunEnv.accumCallsFor, List.nil_append] at h
          exact ⟨[], t, texts, rfl, rfl, (List.cons.inj h).1.symm⟩
      | cons d front =>
          rw [RunEnv.accumCallsFor, List.cons_append] at h
          obtain ⟨rfl, hrest⟩ := List.cons.inj h
          rcases ih hrest with ⟨texts₁, text, texts₂, rfl, rfl, rfl⟩
          refine ⟨t :: texts₁, text, texts₂, rfl, rfl, ?_⟩
          rw [List.length_cons, Nat.add_assoc, Nat.add_comm 1]

theorem streamTokenCb_refused {i : Nat} {text : Bytes} {written : List Bytes}
    (h : (streamTokenCb env i text written).1 ≠ 0) : env.cbCancelled i = true := by
  unfold streamTokenCb at h
  split_ifs at h with hflag
  · exact hflag
  · exact absurd rfl h

/-- What a call to the buffer of a run does. -/
theorem accumCb_cases {i : Nat} {b : AccumBuf} {t : Bytes} (h : b.Holds t) (text : Bytes) :
    (accumCb env i text b).1 ≠ 0 ↔
      env.cbCancelled i = true ∨ NoMemory b (env.accumCall i text) := by
  have hrefuses : b.Refuses (cstr text) (env.cbCancelled i) false (env.allocs.growth i) ↔
      env.cbCancelled i = true ∨ NoMemory b (env.accumCall i text) := by
    simp [AccumBuf.Refuses, NoMemory, RunEnv.accumCall]
  rw [← hrefuses]
  rcases h.call text (env.cbCancelled i) false (env.allocs.growth i) with
    ⟨hyes, hcb⟩ | ⟨hno, b', hcb, _⟩
  · simp [accumCb, hcb, hyes]
  · simp [accumCb, hcb, hno]

end Callbacks

/-! ## The end of a run -/

section Run

variable {L : Llama σ χ} {eng : Engine} {fuel : Nat} {env : RunEnv} {job : WorkerJob} {ctx : σ}

theorem noMemory_of_full {b : AccumBuf} {c : AccumCall} (h : ResponseFull b c) : NoMemory b c :=
  .inr (.inr (.inl h))

/-- After any run of calls the buffer holds some text. -/
theorem accumCalls_holds (maxTokens : Int) (calls : List AccumCall) :
    ∃ t, (accumCalls (accumInit maxTokens true) calls).1.Holds t := by
  have hstep : ∀ (calls : List AccumCall) (b : AccumBuf) (t : Bytes), b.Holds t →
      ∃ t', (accumCalls b calls).1.Holds t' := by
    intro calls
    induction calls with
    | nil => exact fun b t h => ⟨t, h⟩
    | cons c calls ih =>
        intro b t h
        rcases h.call c.piece c.cancel c.shutdown c.reallocOk with ⟨_, hcb⟩ | ⟨_, b', hcb, hb'⟩
        · have hrun : c.run b = (-1, b) := hcb
          simpa only [accumCalls, hrun] using ih b t h
        · have hrun : c.run b = (0, b') := hcb
          simpa only [accumCalls, hrun] using ih b' _ hb'
  exact hstep calls _ [] (AccumBuf.Holds.init maxTokens)

/-- No accepted call was refused. -/
theorem not_refused_of_accepted {k : Nat} {maxTokens : Int} {passed : List Bytes}
    {rcs : List Int} {user : AccumBuf}
    (h : Completed env (accumCb env) (accumInit maxTokens true) k passed rcs user) :
    ¬ RefusedUnflagged NoMemory (accumInit maxTokens true) (env.accumCallsFor 0 passed) := by
  rintro ⟨front, c, back, hcalls, _, _, hwhy⟩
  rcases accumCallsFor_split env hcalls with ⟨texts₁, text, texts₂, htexts, rfl, rfl⟩
  have haccepted := h.accepted texts₁ text texts₂ htexts
  rw [accumCb_after] at haccepted
  rcases accumCalls_holds maxTokens (env.accumCallsFor 0 texts₁) with ⟨t, ht⟩
  rw [Nat.zero_add] at hwhy
  exact (accumCb_cases env ht text).2 (.inr hwhy) haccepted

theorem RefusedUnflagged.mono {why why' : AccumBuf → AccumCall → Prop} {b : AccumBuf}
    {calls : List AccumCall} (h : RefusedUnflagged why b calls) (hwhy : ∀ b c, why b c → why' b c) :
    RefusedUnflagged why' b calls := by
  rcases h with ⟨front, c, back, heq, hcancel, hshutdown, hc⟩
  exact ⟨front, c, back, heq, hcancel, hshutdown, hwhy _ _ hc⟩

end Run

/-! ## Combining the loop and the callback -/

section Combined

variable {ω : Type} {eng : Engine} {env : RunEnv} {job : WorkerJob} {cb : TokenCallback ω}
  {start : ω}

/-- What the theorem needs to know of a callback: which runs are refused for want of memory. -/
structure ShortSpec (env : RunEnv) (cb : TokenCallback ω) (start : ω)
    (Short : List Bytes → Prop) : Prop where
  flagged : ∀ k text user, env.cbCancelled k = true → (cb k text user).1 ≠ 0
  completed : ∀ k passed rcs user, Completed env cb start k passed rcs user → ¬ Short passed
  refused : ∀ k passed rcs user text, Completed env cb start k passed rcs user →
    (cb k text user).1 ≠ 0 → (Short (passed ++ [text]) ↔ env.cbCancelled k = false)

variable {Short : List Bytes → Prop} {r : JobRun σ}

theorem not_limitReached
    (hbuffer : job.stream = false → RefusedUnflagged ResponseFull
      (accumInit job.params.maxTokens true) (env.accumCallsFor 0 r.passed) → Short r.passed)
    (hshort : ¬ Short r.passed) (hcontext : 1 ∉ r.tokenRcs)
    (htokens : r.tokenRcs.length = (maxGen eng job.params r.job.promptTokens).toNat →
      ∃ rc ∈ r.tokenRcs, rc ≠ 0) : ¬ LimitReached eng env job r := by
  rintro (⟨hcount, hcodes⟩ | hfull | ⟨hstream, hfull⟩)
  · rcases htokens hcount with ⟨rc, hmem, hrc⟩
    exact hrc (hcodes rc hmem)
  · exact hcontext hfull
  · exact hshort (hbuffer hstream hfull)

/-- A run without flags that is refused for want of memory reports an abort that did not happen. -/
theorem not_flagSeen (hspec : ShortSpec env cb start Short) {k : Nat} {passed : List Bytes}
    {rcs : List Int} {user : ω} {text : Bytes} (h : Completed env cb start k passed rcs user)
    (hquiet : env.shutdown k = false ∧ env.cancel k = false) (hflag : env.cbCancelled k = false)
    (hpassed : r.passed = passed ++ [text]) (hrcs : r.tokenRcs = rcs) : ¬ FlagSeen env r := by
  have hlen : r.tokenRcs.length = k := hrcs ▸ h.length_rcs
  rintro (⟨i, hi, hset⟩ | ⟨i, hi, hset⟩)
  · -- no flag was set at the top of an iteration
    have hoff : env.shutdown i = false ∧ env.cancel i = false := by
      rcases Nat.lt_or_eq_of_le (hlen ▸ hi) with hlt | rfl
      · exact h.quiet i hlt
      · exact hquiet
    rcases hset with hs | hc
    · exact absurd (hoff.1.symm.trans hs) (by decide)
    · exact absurd (hoff.2.symm.trans hc) (by decide)
  · rw [hpassed, List.length_append, h.count] at hi
    rcases Nat.lt_succ_iff_lt_or_eq.1 hi with hlt | rfl
    · -- the callback accepted the earlier texts
      have hin : i < passed.length := h.count.symm ▸ hlt
      have hsplit : passed = passed.take i ++ passed[i] :: passed.drop (i + 1) := by
        rw [List.getElem_cons_drop, List.take_append_drop]
      have haccepted := h.accepted _ _ _ hsplit
      rw [List.length_take, Nat.min_eq_left (Nat.le_of_lt hin)] at haccepted
      exact hspec.flagged i _ _ hset haccepted
    · exact absurd (hflag.symm.trans hset) (by decide)

theorem truthful_of_unlimited (habort : r.job.finishReason = .abort → FlagSeen env r)
    (hlimit : ¬ LimitReached eng env job r) (hlength : r.job.finishReason ≠ .length) :
    FinishTruthful eng env job r :=
  ⟨habort, fun _ hcut => absurd hcut hlimit, fun _ hcut => absurd hcut hlength⟩

/-- For a run that has come to its loop. -/
theorem truthful_iff_of_end (hspec : ShortSpec env cb start Short)
    (hbuffer : job.stream = false → RefusedUnflagged ResponseFull
      (accumInit job.params.maxTokens true) (env.accumCallsFor 0 r.passed) → Short r.passed)
    {user : ω} {n : Nat} (hn : (maxGen eng job.params r.job.promptTokens).toNat = n)
    (hrc : r.rc = some 0)
    (hend : LoopEnd env cb start n r.job.finishReason r.passed r.tokenRcs user) :
    FinishTruthful eng env job r ↔ ¬ Short r.passed ∧ 1 ∉ r.tokenRcs := by
  generalize hfinish : r.job.finishReason = finish at hend
  generalize hpassed : r.passed = passed at hend
  generalize hrcs : r.tokenRcs = rcs at hend
  have hlimit : ¬ Short passed → 1 ∉ rcs → (rcs.length = n → ∃ rc ∈ rcs, rc ≠ 0) →
      ¬ LimitReached eng env job r := by
    intro hshort hcontext htokens
    refine not_limitReached hbuffer (hpassed.symm ▸ hshort) (hrcs.symm ▸ hcontext) ?_
    rw [hrcs, hn]
    exact htokens
  cases hend with
  | budget h =>
      have hcut : LimitReached eng env job r :=
        .tokens (by rw [hrcs, h.length_rcs, hn]) (fun _ hmem => h.rc_eq_zero (hrcs ▸ hmem))
      refine iff_of_true ⟨?_, fun _ _ => hfinish, fun _ _ => hcut⟩
        ⟨hspec.completed _ _ _ _ h, h.one_notMem⟩
      simp [hfinish]
  | @flag k passed rcs user h hk hflag =>
      have hfits := hspec.completed _ _ _ _ h
      have hlen := h.length_rcs
      have hseen : FlagSeen env r := .inl ⟨k, by rw [hrcs, hlen], hflag⟩
      exact iff_of_true (truthful_of_unlimited (fun _ => hseen)
        (hlimit hfits h.one_notMem (by omega)) (by simp [hfinish])) ⟨hfits, h.one_notMem⟩
  | other h hk hreason =>
      have hfits := hspec.completed _ _ _ _ h
      have hlen := h.length_rcs
      have hneither : finish ≠ .abort ∧ finish ≠ .length := by
        rcases hreason with rfl | rfl <;> exact ⟨nofun, nofun⟩
      exact iff_of_true (truthful_of_unlimited (fun habs => absurd (hfinish ▸ habs) hneither.1)
        (hlimit hfits h.one_notMem (by omega)) (hfinish ▸ hneither.2)) ⟨hfits, h.one_notMem⟩
  | @refused k front _ user text h hk hquiet hcb =>
      have hshort := hspec.refused _ _ _ _ _ h hcb
      have hlen := h.length_rcs
      cases hflag : env.cbCancelled k with
      | true =>
          have hfits : ¬ Short (front ++ [text]) := by simp [hshort, hflag]
          have hcalled : k < r.passed.length := by
            rw [hpassed, List.length_append, h.count]
            exact Nat.lt_succ_self k
          exact iff_of_true (truthful_of_unlimited (fun _ => .inr ⟨k, hcalled, hflag⟩)
            (hlimit hfits h.one_notMem (by omega)) (by simp [hfinish])) ⟨hfits, h.one_notMem⟩
      | false =>
          refine iff_of_false (fun htrue => ?_) fun hcond => hcond.1 (hshort.2 hflag)
          exact not_flagSeen hspec h hquiet hflag hpassed hrcs (htrue.abort hfinish)
  | @decode k front codes user text rc h hquiet hcb hne =>
      have hfits := hspec.completed _ _ _ _ (h.next hquiet hcb)
      by_cases hfull : rc = 1
      · subst hfull
        refine iff_of_false (fun htrue => ?_) fun hcond => hcond.2 (by simp)
        have hwrong := htrue.length hrc (.context (by simp [hrcs]))
        rw [hfinish] at hwrong
        cases hwrong
      · have hcontext : 1 ∉ codes ++ [rc] := by
          simp only [List.mem_append, List.mem_singleton, not_or]
          exact ⟨h.one_notMem, fun heq => hfull heq.symm⟩
        have hnot := hlimit hfits hcontext fun _ => ⟨rc, by simp, hne⟩
        exact iff_of_true (truthful_of_unlimited (by simp [hfinish]) hnot (by simp [hfinish]))
          ⟨hfits, hcontext⟩

/-- A call that never comes to the loop reports neither an abort nor a cut. -/
theorem truthful_of_unreached (hrc : r.rc ≠ some 0)
    (hfinish : r.rc = none ∧ r.job.finishReason = .length ∨
      r.job.finishReason = .contextOverflow ∨ r.job.finishReason = .backendError) :
    FinishTruthful eng env job r := by
  refine ⟨fun habs => ?_, fun h0 => absurd h0 hrc, fun hsome hlen => ?_⟩
  · rcases hfinish with ⟨_, hf⟩ | hf | hf <;> exact nomatch hf.symm.trans habs
  · rcases hfinish with ⟨hnone, _⟩ | hf | hf
    · exact absurd hsome (by simp [hnone])
    · exact nomatch hf.symm.trans hlen
    · exact nomatch hf.symm.trans hlen

theorem truthful_iff_of_ended {o : Outcome σ ω} {written : List Bytes}
    (hspec : ShortSpec env cb start Short)
    (hbuffer : job.stream = false → RefusedUnflagged ResponseFull
      (accumInit job.params.maxTokens true) (env.accumCallsFor 0 o.passed) → Short o.passed)
    (hempty : ¬ Short []) (hend : o.Ended eng job.params env cb start) {record : WorkerJob} :
    FinishTruthful eng env job (JobRun.ofOutcome record written o) ↔
      ¬ Short o.passed ∧ 1 ∉ o.tokenRcs := by
  rcases hend with ⟨hret, hfinish, hpassed, hrcs⟩ | ⟨hret, hend⟩
  · exact iff_of_true (truthful_of_unreached hret hfinish) (by simp [hpassed, hrcs, hempty])
  · exact truthful_iff_of_end (r := JobRun.ofOutcome record written o) hspec hbuffer rfl hret hend

end Combined

section Specs

variable (env : RunEnv)

theorem stream_shortSpec (start : List Bytes) :
    ShortSpec env (streamTokenCb env) start fun _ => False where
  flagged k text user hflag := by simp [streamTokenCb, hflag]
  completed _ _ _ _ _ := id
  refused k passed rcs user text _ hcb := by
    simp [streamTokenCb_refused env hcb]

theorem accum_shortSpec (maxTokens : Int) :
    ShortSpec env (accumCb env) (accumInit maxTokens true) fun passed =>
      RefusedUnflagged NoMemory (accumInit maxTokens true) (env.accumCallsFor 0 passed) where
  flagged k text user hflag := by simp [accumCb, accumTokenCb, hflag]
  completed _ _ _ _ h := not_refused_of_accepted h
  refused k passed rcs user text h hcb := by
    rcases accumCalls_holds maxTokens (env.accumCallsFor 0 passed) with ⟨t, ht⟩
    rw [h.data, accumCb_after] at hcb
    have hcalls : env.accumCallsFor 0 (passed ++ [text]) =
        env.accumCallsFor 0 passed ++ [env.accumCall k text] := by
      rw [accumCallsFor_append, h.count, Nat.zero_add]
      rfl
    constructor
    · rintro ⟨front, c, back, heq, hcancel, hshutdown, hwhy⟩
      rw [hcalls] at heq
      -- an earlier call was accepted, so it is the last
      rcases List.eq_nil_or_concat back with rfl | ⟨back', last, rfl⟩
      · obtain ⟨_, hlast⟩ := List.append_inj' heq rfl
        obtain rfl : env.accumCall k text = c := (List.cons.inj hlast).1
        exact hcancel
      · have hsplit : env.accumCallsFor 0 passed ++ [env.accumCall k text] =
            (front ++ c :: back') ++ [last] := by
          simpa using heq
        have hearlier := (List.append_inj' hsplit rfl).1
        exact absurd ⟨front, c, back', hearlier, hcancel, hshutdown, hwhy⟩
          (not_refused_of_accepted h)
    · intro hflag
      rcases (accumCb_cases env ht text).1 hcb with hset | hwhy
      · exact absurd (hflag.symm.trans hset) (by decide)
      · exact ⟨_, _, [], hcalls, hflag, rfl, hwhy⟩

end Specs

theorem inferJob_ended {ω : Type} (L : Llama σ χ) (eng : Engine) (fuel : Nat) (env : RunEnv)
    (cb : TokenCallback ω) (job : WorkerJob) (ctx : σ) (user : ω) :
    (inferJob L eng fuel env cb job ctx user).Ended eng job.params env cb user := by
  unfold inferJob
  split
  · exact inferenceChat_ended L eng fuel job.params env cb _ _ _ ctx user
  · exact inferenceComplete_ended L eng fuel job.params env cb _ ctx user

/-! ## The job -/

/-- A run tells the truth about aborts and cuts exactly if no call of `accum_token_cb` that finds no
flag set is refused for want of memory, and no `llama_decode` of a generated token finds the context
full. -/
theorem finish_truthful_iff (L : Llama σ χ) (eng : Engine) (fuel : Nat) (env : RunEnv)
    (job : WorkerJob) (ctx : σ) :
    FinishTruthful eng env job (runJob L eng fuel env job ctx) ↔
      (job.stream = false → ¬ RefusedUnflagged NoMemory (accumInit job.params.maxTokens true)
        (env.accumCallsFor 0 (runJob L eng fuel env job ctx).passed)) ∧
      1 ∉ (runJob L eng fuel env job ctx).tokenRcs := by
  have hnone : ∀ why b, ¬ RefusedUnflagged why b [] := by
    rintro why b ⟨front, c, back, heq, _⟩
    simp at heq
  cases hstream : job.stream with
  | true =>
      let running : WorkerJob := { job with state := .running }
      have hended : (inferJob L eng fuel env (streamTokenCb env) running ctx []).Ended eng
          job.params env (streamTokenCb env) [] :=
        inferJob_ended L eng fuel env (streamTokenCb env) running ctx []
      rw [runJob_stream L eng fuel env ctx hstream, truthful_iff_of_ended
        (stream_shortSpec env []) (by simp [hstream]) id hended]
      simp [JobRun.ofOutcome, running]
  | false =>
      cases hmalloc : env.allocs.response with
      | false =>
          rw [runJob_noBuffer L eng fuel env ctx hstream hmalloc]
          exact iff_of_true (truthful_of_unreached (by simp) (.inr (.inr rfl)))
            ⟨fun _ => hnone _ _, List.not_mem_nil⟩
      | true =>
          let response := accumInit job.params.maxTokens true
          let running : WorkerJob := { job with state := .running, response := response }
          have hended : (inferJob L eng fuel env (accumCb env) running ctx response).Ended eng
              job.params env (accumCb env) response :=
            inferJob_ended L eng fuel env (accumCb env) running ctx response
          rw [runJob_buffer L eng fuel env ctx hstream hmalloc, truthful_iff_of_ended
            (accum_shortSpec env job.params.maxTokens)
            (fun _ h => h.mono fun _ _ => noMemory_of_full) (hnone _ _) hended]
          simp [JobRun.ofOutcome, running, response]

namespace Sample

/-- Every token has a text of 255 bytes. -/
def wordy : Llama Ctx Unit :=
  { byteModel (fun _ => 97) (fun _ => 0) with
    tokenToPiece := fun _ => some ⟨List.replicate 255 97, by rw [List.length_replicate]⟩ }

def longJob : WorkerJob :=
  { workerJobInit with
    type := .completion
    compReq := { (default : CompletionRequest) with prompt := CBuf.snprintf (ascii "x") }
    params := { (default : SampleParams) with maxTokens := 300 } }

/-- After 257 tokens the response has 65535 bytes. -/
theorem longJob_aborts :
    (runJob wordy engine 2 calm longJob default).job.finishReason = .abort := by
  decide +kernel

end Sample

/-- A response that is cut at `PROF_CONTENT_MAX` is reported as aborted. -/
theorem not_finish_truthful :
    ¬ ∀ (L : Llama Sample.Ctx Unit) (eng : Engine) (fuel : Nat) (env : RunEnv) (job : WorkerJob)
        (ctx : Sample.Ctx), FinishTruthful eng env job (runJob L eng fuel env job ctx) := by
  intro h
  have habort := (h Sample.wordy Sample.engine 2 Sample.calm Sample.longJob default).abort
    Sample.longJob_aborts
  rcases habort with ⟨i, _, hflag⟩ | ⟨i, _, hflag⟩
  · rcases hflag with hs | hc
    · exact absurd hs (by simp [Sample.calm])
    · exact absurd hc (by simp [Sample.calm])
  · exact absurd hflag (by simp [Sample.calm])

end Professord
