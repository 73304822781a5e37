import Professord.Runtime.State

/-!
# WorkerThread — the steps of `worker_thread_func`

Inside `inference_chat` / `inference_complete` the worker may touch its job, hand any token text
to the callback, or return any code: what those functions compute is the subject of
`Professord.Inference`, here every such behaviour is allowed.
-/

namespace Professord

/-- What the worker does where its program point leaves a choice to the model or the heap. -/
inductive WorkerChoice
  | go
  /-- `malloc` of the response buffer fails -/
  | mallocFails
  /-- inference writes its out-parameters -/
  | infer (finish : FinishReason) (promptTokens completionTokens : Int)
  /-- inference calls the token callback -/
  | piece (text : Bytes) (reallocOk : Bool)
  /-- inference returns -/
  | ret (rc : Int)
  deriving DecidableEq, Repr

namespace State

variable (s : State)

/-- The last access of the worker to job `j`: back to the top of the loop. -/
def leaveJob (j : JobId) : State :=
  (s.updLog j fun l => { l with left := true }).goWorker .waiting

def workerStep (s : State) (ch : WorkerChoice) : Option State :=
  match s.worker, ch with
  | .waiting, .go =>
      if !s.running then
        some (s.goWorker .exited)
      else
        match s.currentJob with
        | none => none -- pthread_cond_wait
        | some j =>
            some ((s.updLog j fun l => { l with started := l.started + 1 }).goWorker (.setRunning j))
  | .setRunning j, .go =>
      some (((s.touch j).updJob j fun r => { r with state := .running }).goWorker (.dispatch j))
  -- only the non-streaming branch allocates a response buffer
  | .dispatch j, .go =>
      if (s.jobs j).stream then
        some ((s.touch j).goWorker (.generating j 0))
      else
        some (((s.touch j).updJob j fun r =>
          { r with response := accumInit r.params.maxTokens true }).goWorker (.generating j 0))
  | .dispatch j, .mallocFails =>
      if (s.jobs j).stream then
        none
      else
        some (((s.touch j).updJob j fun r =>
          { r with
            response := accumInit r.params.maxTokens false
            finishReason := .backendError }).goWorker (.storeState j (-1)))
  | .generating j wake, .infer finish pt ct =>
      some (((s.touch j).updJob j fun r =>
        { r with
          finishReason := finish
          promptTokens := pt
          completionTokens := ct }).goWorker (.generating j wake))
  | .generating j wake, .piece text reallocOk =>
      if (s.jobs j).stream then
        some ((s.touch j).goWorker (.cbEmptyTest j wake text))
      else
        some (((s.touch j).updJob j fun r =>
          { r with
            response :=
              (accumTokenCb r.response text r.cancel s.shutdownRequested reallocOk).2 }).goWorker
                (.generating j wake))
  -- only the streaming branch marks the ring as done
  | .generating j _, .ret rc =>
      if (s.jobs j).stream then
        some ((s.touch j).goWorker (.ringDone j rc))
      else
        some ((s.touch j).goWorker (.storeState j rc))
  | .cbEmptyTest j wake text, .go =>
      some ((s.touch j).goWorker (.cbRingWrite j wake text (s.jobs j).ring.isEmpty))
  -- the loop of `ring_write`: a full ring makes it wait and test again
  | .cbRingWrite j wake text wasEmpty, .go =>
      match ringWrite (s.jobs j).ring text (s.jobs j).cancel s.shutdownRequested with
      | .waits => none
      | .cancelled => some ((s.touch j).goWorker (.generating j wake))
      | .stored ring =>
          some ((((s.touch j).updJob j fun r => { r with ring := ring }).updLog j fun l =>
            { l with written := l.written ++ [text] }).goWorker (.cbTestMgr j (wake + 1) wasEmpty))
  | .cbTestMgr j wake wasEmpty, .go =>
      -- wake the event loop for the first token in an empty ring and for every eighth
      if (s.jobs j).mgr && (wasEmpty || decide (wake ≥ 8)) then
        some ((s.touch j).goWorker (.cbWakeup j))
      else
        some ((s.touch j).goWorker (.generating j wake))
  | .cbWakeup j, .go =>
      some ((s.mgWakeup j).goWorker (.generating j 0))
  | .ringDone j rc, .go =>
      some (((s.touch j).updJob j fun r =>
        { r with ring := { r.ring with done := true } }).goWorker (.storeState j rc))
  | .storeState j rc, .go =>
      some (((s.touch j).updJob j fun r =>
        { r with state := JobState.ofRc rc }).goWorker (.logDelivery j))
  | .logDelivery j, .go =>
      some ((s.touch j).goWorker (.clearCurrent j))
  -- under the worker's mutex, but whatever `current_job` is by now
  | .clearCurrent j, .go =>
      some ({ s with currentJob := none }.goWorker (.testOrphaned j))
  -- the only test of `orphaned`
  | .testOrphaned j, .go =>
      if (s.jobs j).orphaned then
        some ((s.touch j).goWorker (.freeOrphan j))
      else
        some ((s.touch j).goWorker (.testMgr j))
  | .freeOrphan j, .go =>
      some ((s.freeJob j).leaveJob j)
  | .testMgr j, .go =>
      if (s.jobs j).mgr then
        some ((s.touch j).goWorker (.finalWakeup j))
      else
        some ((s.touch j).leaveJob j)
  | .finalWakeup j, .go =>
      some ((s.mgWakeup j).leaveJob j)
  | _, _ => none

/-- `ring_write` gives the text up, or puts it into the ring and lets the callback count it. -/
theorem workerStep_of_cbRingWrite {s s' : State} {ch : WorkerChoice} {j : JobId} {wake : Nat}
    {text : Bytes} {wasEmpty : Bool} (h : s.workerStep ch = some s')
    (hpc : s.worker = .cbRingWrite j wake text wasEmpty) :
    s' = (s.touch j).goWorker (.generating j wake) ∨
      ∃ ring, ringWrite (s.jobs j).ring text (s.jobs j).cancel s.shutdownRequested = .stored ring ∧
        s' = (((s.touch j).updJob j fun r => { r with ring := ring }).updLog j fun l =>
          { l with written := l.written ++ [text] }).goWorker (.cbTestMgr j (wake + 1) wasEmpty) := by
  cases ch <;> simp [workerStep, hpc] at h
  cases hwr : ringWrite (s.jobs j).ring text (s.jobs j).cancel s.shutdownRequested with
  | waits => simp [hwr] at h
  | cancelled =>
      simp [hwr] at h
      exact .inl h.symm
  | stored ring =>
      simp [hwr] at h
      exact .inr ⟨ring, rfl, h.symm⟩

end State

end Professord
