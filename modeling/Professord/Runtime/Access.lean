import Professord.Runtime.Refinement

/-!
# Access — which jobs a step touches

A step of the worker only accesses the job that the worker holds; a step of a handler the job of
the handler, the job in the slot (`worker_submit`, `worker_cancel`), or the one it allocates.
-/

namespace Professord

namespace State

variable {srv : Server} {s s' : State} {a : Action}

theorem workerStep_access {ch : WorkerChoice} (hs : s.workerStep ch = some s')
    (hu : s'.useAfterFree = true) :
    s.useAfterFree = true ∨ ∃ j, s.worker.job = some j ∧ s.freed j = true := by
  revert hs
  fun_cases workerStep s ch <;> intro hs <;> cases hs
  all_goals
    simp [leaveJob, freeJob, mgWakeup] at hu
    first
    | exact .inl hu
    | (rcases hu with hold | hfreed
       · exact .inl hold
       · exact .inr ⟨_, by simp [*, WorkerPc.job], hfreed⟩)

theorem allocJob_access {c : ConnId} {type : JobType} {body : Bytes} {env : HandlerEnv}
    (hu : (s.allocJob srv c type body env).useAfterFree = true) :
    s.useAfterFree = true ∨ s.freed s.nextJob = true := by
  unfold allocJob at hu
  split at hu
  · exact .inl (by simpa using hu)
  · cases hjob : srv.buildJob c type body env.requestId with
    | none => simpa [hjob, freeJob, freed] using hu
    | some job => exact .inl (by simpa [hjob] using hu)

theorem workerSubmit_access {j : JobId} (hu : (s.workerSubmit j).2.useAfterFree = true) :
    s.useAfterFree = true ∨ s.freed j = true ∨
      ∃ k, s.currentJob = some k ∧ s.freed k = true := by
  unfold workerSubmit at hu
  cases hslot : s.currentJob with
  | none =>
      simp [hslot, installJob] at hu
      rcases hu with hold | hfreed
      · exact .inl hold
      · exact .inr (.inl hfreed)
  | some k =>
      cases hbusy : (s.jobs k).state.isBusy with
      | true =>
          simp [hslot, hbusy] at hu
          rcases hu with hold | hfreed
          · exact .inl hold
          · exact .inr (.inr ⟨k, rfl, hfreed⟩)
      | false =>
          simp [hslot, hbusy, installJob, freed] at hu
          rcases hu with (hold | hfreed) | hfreed
          · exact .inl hold
          · exact .inr (.inr ⟨k, rfl, by simpa [freed] using hfreed⟩)
          · exact .inr (.inl (by simpa [freed] using hfreed))

theorem workerSubmit_log {j k : JobId} : ((s.workerSubmit j).2.log k).frees = (s.log k).frees := by
  unfold workerSubmit
  cases hslot : s.currentJob with
  | none => simp [installJob]; split <;> simp
  | some i => cases hbusy : (s.jobs i).state.isBusy <;> simp [hbusy, installJob] ; split <;> simp

theorem finalizeReply_useAfterFree (c : ConnId) (j : JobId) (jstate : JobState) (env : HandlerEnv) :
    (s.finalizeReply c j jstate env).useAfterFree = (s.useAfterFree || s.freed j) := by
  simp [finalizeReply, freeJob, freed]

theorem finalizeStream_useAfterFree (c : ConnId) (j : JobId) (env : HandlerEnv) :
    (s.finalizeStream c j env).useAfterFree = (s.useAfterFree || s.freed j) := by
  simp [finalizeStream, freeJob, sendEvents, freed]

theorem mainGo_access {env : HandlerEnv} (hs : s.mainGo srv env = some s')
    (hu : s'.useAfterFree = true) :
    s.useAfterFree = true ∨
      ∃ j, (s.main.job = some j ∨ s.currentJob = some j ∨ j = s.nextJob) ∧ s.freed j = true := by
  revert hs
  fun_cases mainGo s srv env <;> intro hs <;> cases hs
  case case1 caller j hpc =>
    simp only [busyLoaded_frame, touch_useAfterFree, Bool.or_eq_true] at hu
    rcases hu with hold | hfreed
    · exact .inl hold
    · exact .inr ⟨j, .inl (by simp [hpc, MainPc.job]), hfreed⟩
  case case2 hpc =>
    rcases allocJob_access hu with hold | hfreed
    · exact .inl hold
    · exact .inr ⟨s.nextJob, .inr (.inr rfl), hfreed⟩
  case case3 c j hpc hacc =>
    simp at hu
    rcases workerSubmit_access hu with hold | hfreed | ⟨k, hslot, hfreed⟩
    · exact .inl hold
    · exact .inr ⟨j, .inl (by simp [hpc, MainPc.job]), hfreed⟩
    · exact .inr ⟨k, .inr (.inl hslot), hfreed⟩
  case case4 c j hpc hacc =>
    simp [freeJob, freed, workerSubmit_log] at hu
    rcases hu with hu | hfreed
    · rcases workerSubmit_access hu with hold | hfreed | ⟨k, hslot, hfreed⟩
      · exact .inl hold
      · exact .inr ⟨j, .inl (by simp [hpc, MainPc.job]), hfreed⟩
      · exact .inr ⟨k, .inr (.inl hslot), hfreed⟩
    · exact .inr ⟨j, .inl (by simp [hpc, MainPc.job]), by simpa [freed] using hfreed⟩
  all_goals
    rename_i hpc
    simp [sendEvents, finalizeReply_useAfterFree, finalizeStream_useAfterFree] at hu
    first
    | exact .inl hu
    | (rcases hu with hold | hfreed
       · exact .inl hold
       · first
         | exact .inr ⟨_, .inr (.inl hpc), hfreed⟩
         | exact .inr ⟨_, .inl (by simp [*, MainPc.job]), hfreed⟩)
/-- An access after a free is an access to a job that a party has a pointer to. -/
theorem act_access (hs : s.act srv a = some s') (hu : s'.useAfterFree = true) :
    s.useAfterFree = true ∨ ∃ j, (s.face.reaches j ∨ j = s.nextJob) ∧ s.freed j = true := by
  cases a with
  | signal =>
      simp only [act, Option.some.injEq] at hs
      subst hs
      exact .inl hu
  | worker ch =>
      rcases workerStep_access hs hu with hold | ⟨j, hj, hfreed⟩
      · exact .inl hold
      · exact .inr ⟨j, .inl (.inl ((WorkerPc.stage_job _).trans hj)), hfreed⟩
  | main ch =>
      rcases mainStep_cases hs with ⟨env, _, hgo⟩ | ⟨hpoll, hev⟩
      · rcases mainGo_access hgo hu with hold | ⟨j, hj | hj | hj, hfreed⟩
        · exact .inl hold
        · exact .inr ⟨j, .inl (.inr (.inl ((MainPc.stage_job _).trans hj))), hfreed⟩
        · exact .inr ⟨j, .inl (.inr (.inr hj)), hfreed⟩
        · exact .inr ⟨j, .inr hj, hfreed⟩
      · exact .inl ((hev.frame hpoll).useAfterFree ▸ hu)

end State

end Professord
