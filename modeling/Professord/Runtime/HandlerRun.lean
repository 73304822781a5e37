import Professord.Runtime.Gate
import Professord.Runtime.Ownership
import Professord.Server.Answer

/-!
# HandlerRun — the answer to a request, with the worker running meanwhile

From the delivery of an HTTP message until its handler returns, the worker and the signal handler
may take any steps.  `Answering` says what the handler has settled at each of its program points;
when it returns, the client's answer is that of the route, of what `worker_is_busy` saw and of
the parser.
-/

namespace Professord

open GuardedSystem Lifecycle

/-- The server with the parsers of `api_types.c`. -/
def httpServer (cfg : Config) (mg : Mongoose) (modelId : CBuf profModelMax) (env : ParseEnv) :
    Server where
  cfg := cfg
  mg := mg
  modelId := modelId
  parseChat := chatRequestParse env
  parseCompletion := completionRequestParse env

/-- What the client of `c` got between two states. -/
def State.answer (s t : State) (c : ConnId) : Option Answer :=
  match (t.conns c).replies.drop (s.conns c).replies.length, (t.conns c).fnData with
  | [r], none => some r.answer
  | [], some j => if (t.log j).accepted then some .accepted else none
  | _, _ => none

/-- The steps until the handler has returned.  `busy` is what `worker_is_busy` sees of the job in
the slot, `allocOk` whether the `calloc`s of `submit_inference_job` succeed, `texts` whether the
`*_to_json` functions do. -/
inductive HandlerRun (srv : Server) (busy allocOk : Bool) (texts : JsonTexts) :
    State → State → Prop
  | returned {s : State} (hmain : s.main = .poll) : HandlerRun srv busy allocOk texts s s
  | step {s s' t : State} (a : Action) (hmain : s.main ≠ .poll) (hs : s.act srv a = some s')
      (hbusy : ∀ caller j env, s.main = .busyLoad caller j → a = .main (.go env) →
        (s.jobs j).state.isBusy = busy)
      (halloc : ∀ env, a = .main (.go env) → env.callocOk = allocOk ∧ env.texts = texts)
      (rest : HandlerRun srv busy allocOk texts s' t) : HandlerRun srv busy allocOk texts s t

/-! ## The handler's program points -/

section Answering

variable (srv : Server) (env : ParseEnv) (c : ConnId) (hm : HttpMessage) (busy allocOk : Bool)
variable (texts : JsonTexts)

/-- The answer that the handler is going to give. -/
def handlerAnswer : Answer :=
  ((evHttpMsg srv.mg srv.cfg hm).answer env srv.modelId busy allocOk hm.body).sent texts

/-- Nothing has been sent on `c` since `s`, and it has no job. -/
structure Pending (s v : State) (c : ConnId) : Prop where
  replies : (v.conns c).replies = (s.conns c).replies
  fnData : (v.conns c).fnData = none

/-- How far the handler of `hm`, delivered in `s`, has got in `v`. -/
def Answering (s v : State) : Prop :=
  match v.main with
  | .poll => s.answer v c = some (handlerAnswer srv env hm busy allocOk texts)
  | .busyLoad caller j =>
      (∃ type, caller = .request c type hm.body ∧
        evHttpMsg srv.mg srv.cfg hm = .inference type) ∧
      (v.currentJob = some j ∨ v.currentJob = none) ∧ Pending s v c
  | .alloc d type body =>
      d = c ∧ body = hm.body ∧ evHttpMsg srv.mg srv.cfg hm = .inference type ∧ busy = false ∧
        v.face.slotDone ∧ Pending s v c
  | .submit d _ =>
      d = c ∧ handlerAnswer srv env hm busy allocOk texts = .accepted ∧ v.face.slotDone ∧
        Pending s v c
  | .storeFnData d _ =>
      d = c ∧ handlerAnswer srv env hm busy allocOk texts = .accepted ∧ Pending s v c
  | .sendHeaders d _ =>
      d = c ∧ handlerAnswer srv env hm busy allocOk texts = .accepted ∧
        (v.conns c).replies = (s.conns c).replies
  | _ => False

end Answering

variable {srv : Server} {env : ParseEnv} {c : ConnId} {hm : HttpMessage} {busy allocOk : Bool}
variable {texts : JsonTexts} {s v v' : State}

/-- A reply that is sent while nothing else has been is the answer. -/
theorem answer_sendReply (h : Pending s v c) (r : Reply) :
    s.answer (v.sendReply c r) c = some r.answer := by
  unfold State.answer
  have hfn : ((v.sendReply c r).conns c).fnData = none := by
    simp [State.sendReply, h.fnData]
  have hreplies : ((v.sendReply c r).conns c).replies = (s.conns c).replies ++ [r] := by
    simp [State.sendReply, h.replies]
  rw [hfn, hreplies, List.drop_left]

theorem sentError_answer (texts : JsonTexts) (status : Nat) (message type : String) :
    (sentError texts status message type).answer = (Answer.error status type).sent texts := by
  cases herror : texts.error <;>
    simp [sentError, errorReply, Reply.answer, Answer.sent, Answer.textMade, failedAnswer, herror]

theorem answer_sendError (h : Pending s v c) (texts : JsonTexts) (status : Nat)
    (message type : String) :
    s.answer (v.sendError texts c status message type) c =
      some ((Answer.error status type).sent texts) := by
  have hcounted : Pending s { v with stats := countError status v.stats } c :=
    ⟨h.replies, h.fnData⟩
  rw [← sentError_answer texts status message type]
  exact answer_sendReply hcounted _

/-! ## Steps of the other thread -/

/-- The step has no part in the handler. -/
structure Aside (v v' : State) : Prop where
  main : v'.main = v.main
  conns : v'.conns = v.conns
  slot : v'.currentJob = v.currentJob ∨ v'.currentJob = none
  slotDone : v.face.slotDone → v'.face.slotDone

theorem workerMove_ne_accept (v : State) (d : ConnId) (j : JobId) :
    v.workerMove ≠ some (.accept d j) := by
  intro h
  have hsettles := State.workerMove_settles h
  cases hsettles

theorem aside_worker {ch : WorkerChoice} (hsound : Sound v)
    (hs : v.act srv (.worker ch) = some v') : Aside v v' := by
  have hmain : v'.main = v.main := (State.worker_frame hs).main
  have hconns : v'.conns = v.conns := (State.worker_frame hs).conns
  rcases hsound.moves hs with ⟨_, hface⟩ | ⟨m, hmove, hstep⟩
  · refine ⟨hmain, hconns, .inl ?_, fun hd => hface ▸ hd⟩
    exact congrArg Protocol.slot hface
  -- accepting a job is the main thread's move, so the slot is not filled meanwhile
  · have hne : ∀ d j, m ≠ .accept d j := fun d j heq => workerMove_ne_accept v d j (heq ▸ hmove)
    exact ⟨hmain, hconns, hstep.slot_eq_or_none hne, fun hd => hd.step hsound.inv hne hstep⟩

theorem aside_signal (hs : v.act srv .signal = some v') : Aside v v' := by
  cases hs
  exact ⟨rfl, rfl, .inl rfl, id⟩

theorem Pending.aside (h : Pending s v c) (ha : Aside v v') : Pending s v' c :=
  ⟨ha.conns ▸ h.replies, ha.conns ▸ h.fnData⟩

theorem Answering.aside (h : Answering srv env c hm busy allocOk texts s v) (ha : Aside v v')
    (hpoll : v.main ≠ .poll) : Answering srv env c hm busy allocOk texts s v' := by
  unfold Answering at h ⊢
  rw [ha.main]
  cases hpc : v.main with
  | poll => exact absurd hpc hpoll
  | busyLoad caller j =>
      simp only [hpc] at h ⊢
      obtain ⟨hcaller, hslot, hpending⟩ := h
      refine ⟨hcaller, ?_, hpending.aside ha⟩
      -- the worker may have cleared the slot since the pointer was read
      rcases ha.slot with heq | hnone
      · rwa [heq]
      · exact .inr hnone
  | alloc d type body =>
      simp only [hpc] at h ⊢
      obtain ⟨hd, hbody, hroute, hbusy, hdone, hpending⟩ := h
      exact ⟨hd, hbody, hroute, hbusy, ha.slotDone hdone, hpending.aside ha⟩
  | submit d j =>
      simp only [hpc] at h ⊢
      obtain ⟨hd, hanswer, hdone, hpending⟩ := h
      exact ⟨hd, hanswer, ha.slotDone hdone, hpending.aside ha⟩
  | storeFnData d j =>
      simp only [hpc] at h ⊢
      exact ⟨h.1, h.2.1, h.2.2.aside ha⟩
  | sendHeaders d j =>
      simp only [hpc] at h ⊢
      exact ⟨h.1, h.2.1, ha.conns ▸ h.2.2⟩
  | _ => simp only [hpc] at h

/-! ## Steps of the handler -/

section Handler

variable {cfg : Config} {mg : Mongoose} {modelId : CBuf profModelMax} {henv : HandlerEnv}

theorem buildJob_isSome (type : JobType) (body : Bytes) (id : CBuf profIdMax) :
    ((httpServer cfg mg modelId env).buildJob c type body id).isSome =
      requestParses env type body := by
  cases type <;> simp [Server.buildJob, httpServer, requestParses]

theorem handlerAnswer_inference {type : JobType}
    (hroute : evHttpMsg srv.mg srv.cfg hm = .inference type) :
    handlerAnswer srv env hm busy allocOk texts =
      (submitAnswer busy allocOk (requestParses env type hm.body)).sent texts := by
  simp [handlerAnswer, hroute, HttpRoute.answer]

theorem answering_busyLoad {type : JobType} {j : JobId}
    (hroute : evHttpMsg srv.mg srv.cfg hm = .inference type)
    (hslot : v.currentJob = some j ∨ v.currentJob = none) (hpending : Pending s v c)
    (hbusy : (v.jobs j).state.isBusy = busy) :
    Answering srv env c hm busy allocOk texts s
      ((v.touch j).busyLoaded (.request c type hm.body) (v.jobs j).state.isBusy texts) := by
  rw [hbusy]
  cases busy with
  | true =>
      -- busy: the request is refused before the body is looked at
      have hanswer : handlerAnswer srv env hm true allocOk texts =
          (Answer.error 503 "server_busy").sent texts := handlerAnswer_inference hroute
      have htouched : Pending s (v.touch j) c := ⟨hpending.replies, hpending.fnData⟩
      simp only [State.busyLoaded, if_true, Answering, State.goMain_main, hanswer]
      exact answer_sendError htouched texts _ _ _
  | false =>
      refine ⟨rfl, rfl, hroute, rfl, fun k hk => ?_, hpending.replies, hpending.fnData⟩
      -- the slot holds the job whose state was read, or nothing any more
      have hslotk : v.currentJob = some k := hk
      rcases hslot with hsome | hnone
      · rw [hsome] at hslotk
        cases hslotk
        simp [State.busyLoaded, State.face, jobFace, State.goMain, hbusy]
      · simp [hnone] at hslotk

theorem slotDone_step {a : Action} (hsound : Sound v) (hs : v.act srv a = some v')
    (hmain : ∀ d j, v.main ≠ .submit d j) (hdone : v.face.slotDone) : v'.face.slotDone := by
  rcases hsound.moves hs with ⟨_, hface⟩ | ⟨m, hmove, hstep⟩
  · exact hface ▸ hdone
  · refine hdone.step hsound.inv (fun d j heq => ?_) hstep
    subst heq
    rcases (State.move_settles hmove rfl).2 with ⟨d', j', _, hpc⟩ | ⟨_, _, heq, _⟩ | ⟨_, _, heq, _⟩
    · exact hmain d' j' hpc
    · cases heq
    · cases heq

theorem answering_alloc {type : JobType} (hroute : evHttpMsg mg cfg hm = .inference type)
    (hdone : (v.allocJob (httpServer cfg mg modelId env) c type hm.body henv).face.slotDone)
    (hpending : Pending s v c) (halloc : henv.callocOk = allocOk ∧ henv.texts = texts) :
    Answering (httpServer cfg mg modelId env) env c hm false allocOk texts s
      (v.allocJob (httpServer cfg mg modelId env) c type hm.body henv) := by
  have hanswer : handlerAnswer (httpServer cfg mg modelId env) env hm false allocOk texts =
      (submitAnswer false allocOk (requestParses env type hm.body)).sent texts :=
    handlerAnswer_inference hroute
  obtain ⟨halloc, rfl⟩ := halloc
  have hbuild : ((httpServer cfg mg modelId env).buildJob c type hm.body henv.requestId).isSome =
      requestParses env type hm.body := buildJob_isSome type hm.body henv.requestId
  unfold State.allocJob at hdone ⊢
  cases allocOk with
  | false =>
      simp only [halloc, Bool.not_false, if_true, Answering, State.goMain_main, hanswer]
      exact answer_sendError hpending henv.texts _ _ _
  -- the parser decides between a 400 and a job to submit
  | true =>
      simp only [halloc, Bool.not_true, Bool.false_eq_true, if_false] at hdone ⊢
      cases hjob : (httpServer cfg mg modelId env).buildJob c type hm.body henv.requestId with
      | none =>
          have hparses : requestParses env type hm.body = false := by rw [← hbuild, hjob]; rfl
          have hkept : Pending s ((State.freeJob { v with
              nextJob := v.nextJob + 1
              stats := countRequest type v.stats } v.nextJob)) c :=
            ⟨hpending.replies, hpending.fnData⟩
          simp only [Answering, State.goMain_main, hanswer, hparses]
          exact answer_sendError hkept henv.texts _ _ _
      | some job =>
          have hparses : requestParses env type hm.body = true := by rw [← hbuild, hjob]; rfl
          simp only [hjob] at hdone
          refine ⟨rfl, by rw [hanswer, hparses]; rfl, hdone, hpending.replies, hpending.fnData⟩

/-- A slot that is free or holds a finished job takes the job. -/
theorem workerSubmit_of_slotDone (hdone : v.face.slotDone) (j : JobId) :
    (v.workerSubmit j).1 = true := by
  unfold State.workerSubmit
  cases hslot : v.currentJob with
  | none => rfl
  | some k =>
      have hfinal : (!(v.jobs k).state.isBusy) = true := hdone k hslot
      simp only [Bool.not_eq_true'] at hfinal
      simp [hfinal]

theorem Answering.go
    (h : Answering (httpServer cfg mg modelId env) env c hm busy allocOk texts s v)
    (hsound : Sound v)
    (hs : v.mainGo (httpServer cfg mg modelId env) henv = some v') (hpoll : v.main ≠ .poll)
    (hbusy : ∀ caller j, v.main = .busyLoad caller j → (v.jobs j).state.isBusy = busy)
    (halloc : henv.callocOk = allocOk ∧ henv.texts = texts) :
    Answering (httpServer cfg mg modelId env) env c hm busy allocOk texts s v' := by
  have hact : v.act (httpServer cfg mg modelId env) (.main (.go henv)) = some v' := hs
  have hdone' := slotDone_step hsound hact
  cases hpc : v.main with
  | poll => exact absurd hpc hpoll
  | busyLoad caller j =>
      simp only [Answering, hpc] at h
      obtain ⟨⟨type, rfl, hroute⟩, hslot, hpending⟩ := h
      simp only [State.mainGo, hpc, halloc.2, Option.some.injEq] at hs
      subst hs
      exact answering_busyLoad hroute hslot hpending (hbusy _ j hpc)
  | alloc d type body =>
      simp only [Answering, hpc] at h
      obtain ⟨rfl, rfl, hroute, rfl, hdone, hpending⟩ := h
      have hslot := hdone' (by simp [hpc]) hdone
      simp only [State.mainGo, hpc, Option.some.injEq] at hs
      subst hs
      exact answering_alloc hroute hslot hpending halloc
  | submit d j =>
      simp only [Answering, hpc] at h
      -- the slot was seen to be done, so `worker_submit` cannot refuse
      obtain ⟨rfl, hanswer, hdone, hpending⟩ := h
      simp only [State.mainGo, hpc, workerSubmit_of_slotDone hdone, if_true, Option.some.injEq] at hs
      subst hs
      refine ⟨rfl, hanswer, ?_, ?_⟩ <;>
        simp [hpending.replies, hpending.fnData]
  | storeFnData d j =>
      simp only [Answering, hpc] at h
      obtain ⟨rfl, hanswer, hpending⟩ := h
      simp only [State.mainGo, hpc, Option.some.injEq] at hs
      subst hs
      exact ⟨rfl, hanswer, by simp [hpending.replies]⟩
  | sendHeaders d j =>
      simp only [Answering, hpc] at h
      obtain ⟨rfl, hanswer, hreplies⟩ := h
      -- the job is the connection's by now, and the worker has accepted it
      have hheld := (hsound.inv.serving d j (.inl (by simp [hpc]))).1
      have hacc := (hsound.inv.held d j hheld).1
      have hanswered : s.answer v d = some .accepted := by
        simp only [State.face_held] at hheld
        simp only [State.face_job, jobFace] at hacc
        simp [State.answer, hreplies, hheld, hacc]
      simp only [State.mainGo, hpc] at hs
      split at hs <;> cases hs
      · have hsame : s.answer (((v.touch j).updConn d fun k => { k with headersSent := true }).goMain
            .poll) d = s.answer v d := by simp [State.answer]
        calc s.answer (((v.touch j).updConn d fun k => { k with headersSent := true }).goMain
              .poll) d
            = s.answer v d := hsame
          _ = some .accepted := hanswered
          _ = some (handlerAnswer _ env hm busy allocOk texts) := by rw [hanswer]
      · exact hanswered.trans (by rw [hanswer])
  | _ => simp only [Answering, hpc] at h

theorem Answering.step {a : Action}
    (h : Answering (httpServer cfg mg modelId env) env c hm busy allocOk texts s v) (hsound : Sound v)
    (hs : v.act (httpServer cfg mg modelId env) a = some v') (hpoll : v.main ≠ .poll)
    (hbusy : ∀ caller j henv, v.main = .busyLoad caller j → a = .main (.go henv) →
      (v.jobs j).state.isBusy = busy)
    (halloc : ∀ henv, a = .main (.go henv) → henv.callocOk = allocOk ∧ henv.texts = texts) :
    Answering (httpServer cfg mg modelId env) env c hm busy allocOk texts s v' := by
  cases a with
  | signal => exact h.aside (aside_signal hs) hpoll
  | worker ch => exact h.aside (aside_worker hsound hs) hpoll
  | main ch =>
      rcases State.mainStep_cases hs with ⟨henv, rfl, hgo⟩ | ⟨hidle, _⟩
      · exact h.go hsound hgo hpoll (fun caller j hpc => hbusy caller j henv hpc rfl)
          (halloc henv rfl)
      · exact absurd hidle hpoll

/-- When the handler returns, the client has its answer. -/
theorem Answering.run {t : State}
    (h : Answering (httpServer cfg mg modelId env) env c hm busy allocOk texts s v) (hsound : Sound v)
    (hrun : HandlerRun (httpServer cfg mg modelId env) busy allocOk texts v t) :
    s.answer t c = some (handlerAnswer (httpServer cfg mg modelId env) env hm busy allocOk texts) := by
  induction hrun with
  | returned hmain => simpa [Answering, hmain] using h
  | step a hmain hs hbusy halloc _ ih =>
      exact ih (h.step hsound hs hmain hbusy halloc) (hsound.step hs)

/-- Without a job to submit, the request is answered at once. -/
theorem evHttp_main (s : State) (c : ConnId)
    (hroute : ∀ type, evHttpMsg srv.mg srv.cfg hm ≠ .inference type) :
    (s.evHttp srv c hm texts).main = s.main := by
  unfold State.evHttp
  cases hr : evHttpMsg srv.mg srv.cfg hm with
  | inference type => exact absurd hr (hroute type)
  | _ => simp

theorem evHttp_replies (s : State) (c : ConnId)
    (hroute : ∀ type, evHttpMsg srv.mg srv.cfg hm ≠ .inference type) :
    ∃ r : Reply, r.answer = handlerAnswer srv env hm busy allocOk texts ∧
      (s.evHttp srv c hm texts).conns = (s.sendReply c r).conns := by
  have hjson : ∀ {r : Reply} {body : Body}, r.answer = .ok body →
      (Answer.ok body).textMade texts = texts.reply →
        (if texts.reply then r else sentError texts 500 "Internal error" "backend_error").answer =
          (Answer.ok body).sent texts := by
    intro r body hr hmade
    simp only [Answer.sent, hmade]
    cases texts.reply with
    | true => exact hr
    | false =>
        cases herror : texts.error <;>
          simp [sentError_answer, Answer.sent, Answer.textMade, failedAnswer, herror]
  unfold State.evHttp handlerAnswer
  cases hr : evHttpMsg srv.mg srv.cfg hm with
  | error status message type =>
      exact ⟨sentError texts status message type, sentError_answer texts status message type, rfl⟩
  | whatIf => exact ⟨⟨200, .whatIf⟩, rfl, rfl⟩
  | health => exact ⟨⟨200, .health⟩, rfl, rfl⟩
  | stats =>
      simp only [State.sendJson_eq]
      exact ⟨_, hjson (r := ⟨200, .stats⟩) rfl rfl, rfl⟩
  | models =>
      simp only [State.sendJson_eq]
      exact ⟨_, hjson (r := ⟨200, .models srv.modelId⟩) rfl rfl, rfl⟩
  | inference type => exact absurd hr (hroute type)

theorem evHttp_inference (s : State) (c : ConnId) {type : JobType}
    (hroute : evHttpMsg srv.mg srv.cfg hm = .inference type) :
    s.evHttp srv c hm texts =
      match s.currentJob with
      | some j => s.goMain (.busyLoad (.request c type hm.body) j)
      | none => s.goMain (.alloc c type hm.body) := by
  simp only [State.evHttp, hroute, State.busyRead]
  cases s.currentJob <;> rfl

/-- The event itself. -/
theorem answering_http (hs : s.act srv (.main (.http c hm texts)) = some v)
    (hidle : s.currentJob = none → busy = false) :
    Answering srv env c hm busy allocOk texts s v := by
  obtain ⟨hpoll, hreceive, rfl⟩ := State.act_http hs
  have hpending : Pending s s c := by
    refine ⟨rfl, ?_⟩
    simp only [State.canReceive, Bool.and_eq_true, beq_iff_eq] at hreceive
    exact hreceive.2
  by_cases hroute : ∃ type, evHttpMsg srv.mg srv.cfg hm = .inference type
  · obtain ⟨type, hroute⟩ := hroute
    rw [evHttp_inference s c hroute]
    cases hslot : s.currentJob with
    | none =>
        refine ⟨rfl, rfl, hroute, hidle hslot, fun k hk => ?_, hpending.replies, hpending.fnData⟩
        simp [State.goMain, hslot] at hk
    | some j => exact ⟨⟨type, rfl, hroute⟩, .inl hslot, hpending.replies, hpending.fnData⟩
  · rw [not_exists] at hroute
    have hmain : (s.evHttp srv c hm texts).main = s.main := evHttp_main s c hroute
    obtain ⟨r, hr, hconns⟩ : ∃ r : Reply, r.answer = handlerAnswer srv env hm busy allocOk texts ∧
        (s.evHttp srv c hm texts).conns = (s.sendReply c r).conns := evHttp_replies s c hroute
    have hanswer : s.answer (s.evHttp srv c hm texts) c =
        some (handlerAnswer srv env hm busy allocOk texts) := by
      rw [← hr, ← answer_sendReply hpending r]
      simp only [State.answer, hconns, hpending.fnData, State.sendReply, State.updConn, if_true,
        List.drop_left]
    simpa only [Answering, hmain, hpoll] using hanswer

/-! ## The handler returns -/

theorem returns_of_go (hpoll : v.main ≠ .poll)
    (hbusy : ∀ caller j, v.main = .busyLoad caller j → (v.jobs j).state.isBusy = busy)
    (hs : v.mainGo srv henv = some v')
    (hrest : ∃ t, HandlerRun srv busy henv.callocOk henv.texts v' t) :
    ∃ t, HandlerRun srv busy henv.callocOk henv.texts v t := by
  obtain ⟨t, hrun⟩ := hrest
  refine ⟨t, .step (.main (.go henv)) hpoll hs (fun caller j _ hpc _ => hbusy caller j hpc) ?_ hrun⟩
  intro henv' heq
  cases heq
  exact ⟨rfl, rfl⟩

theorem returns_poll (hpoll : v.main = .poll) : ∃ t, HandlerRun srv busy allocOk texts v t :=
  ⟨v, .returned hpoll⟩

theorem returns_sendHeaders {j : JobId} (hpc : v.main = .sendHeaders c j) :
    ∃ t, HandlerRun srv busy henv.callocOk henv.texts v t := by
  obtain ⟨v', hgo, hpoll⟩ : ∃ v', v.mainGo srv henv = some v' ∧ v'.main = .poll := by
    simp only [State.mainGo, hpc]
    split <;> exact ⟨_, rfl, rfl⟩
  exact returns_of_go (by simp [hpc]) (by simp [hpc]) hgo (returns_poll hpoll)

theorem returns_storeFnData {j : JobId} (hpc : v.main = .storeFnData c j) :
    ∃ t, HandlerRun srv busy henv.callocOk henv.texts v t := by
  obtain ⟨v', hgo, hnext⟩ : ∃ v', v.mainGo srv henv = some v' ∧ v'.main = .sendHeaders c j := by
    simp only [State.mainGo, hpc]
    exact ⟨_, rfl, rfl⟩
  exact returns_of_go (by simp [hpc]) (by simp [hpc]) hgo (returns_sendHeaders hnext)

theorem returns_submit {j : JobId} (hpc : v.main = .submit c j) :
    ∃ t, HandlerRun srv busy henv.callocOk henv.texts v t := by
  obtain ⟨v', hgo, hnext⟩ : ∃ v', v.mainGo srv henv = some v' ∧
      (v'.main = .storeFnData c j ∨ v'.main = .poll) := by
    simp only [State.mainGo, hpc]
    split
    · exact ⟨_, rfl, .inl rfl⟩
    · exact ⟨_, rfl, .inr rfl⟩
  refine returns_of_go (by simp [hpc]) (by simp [hpc]) hgo ?_
  rcases hnext with hstore | hpoll
  · exact returns_storeFnData hstore
  · exact returns_poll hpoll

theorem returns_alloc {type : JobType} {body : Bytes} (hpc : v.main = .alloc c type body) :
    ∃ t, HandlerRun srv busy henv.callocOk henv.texts v t := by
  have hgo : v.mainGo srv henv = some (v.allocJob srv c type body henv) := by
    simp only [State.mainGo, hpc]
  refine returns_of_go (by simp [hpc]) (by simp [hpc]) hgo ?_
  unfold State.allocJob
  split
  · exact returns_poll rfl
  · cases srv.buildJob c type body henv.requestId with
    | none => exact returns_poll rfl
    | some job => exact returns_submit rfl

theorem returns_busyLoad {type : JobType} {body : Bytes} {j : JobId}
    (hpc : v.main = .busyLoad (.request c type body) j) (hbusy : (v.jobs j).state.isBusy = busy) :
    ∃ t, HandlerRun srv busy henv.callocOk henv.texts v t := by
  have hgo : v.mainGo srv henv =
      some ((v.touch j).busyLoaded (.request c type body) (v.jobs j).state.isBusy henv.texts) := by
    simp only [State.mainGo, hpc]
  refine returns_of_go (by simp [hpc]) ?_ hgo ?_
  · intro caller k hk
    rw [hpc] at hk
    cases hk
    exact hbusy
  · cases (v.jobs j).state.isBusy with
    | true => exact returns_poll rfl
    | false => exact returns_alloc rfl

/-- The handler returns even if the worker never moves. -/
theorem handler_returns (hs : s.act srv (.main (.http c hm texts)) = some v) (henv : HandlerEnv) :
    ∃ busy t, (s.currentJob = none → busy = false) ∧
      HandlerRun srv busy henv.callocOk henv.texts v t := by
  obtain ⟨hpoll, _, rfl⟩ := State.act_http hs
  by_cases hroute : ∃ type, evHttpMsg srv.mg srv.cfg hm = .inference type
  · obtain ⟨type, hroute⟩ := hroute
    rw [evHttp_inference s c hroute]
    cases hslot : s.currentJob with
    | none =>
        have hreturns : ∃ t, HandlerRun srv false henv.callocOk henv.texts
            (s.goMain (.alloc c type hm.body)) t := returns_alloc rfl
        obtain ⟨t, hrun⟩ := hreturns
        exact ⟨false, t, fun _ => rfl, hrun⟩
    | some j =>
        have hreturns : ∃ t, HandlerRun srv (s.jobs j).state.isBusy henv.callocOk henv.texts
            (s.goMain (.busyLoad (.request c type hm.body) j)) t := returns_busyLoad rfl rfl
        obtain ⟨t, hrun⟩ := hreturns
        exact ⟨_, t, by simp, hrun⟩
  · rw [not_exists] at hroute
    exact ⟨false, _, fun _ => rfl, .returned ((evHttp_main s c hroute).trans hpoll)⟩

/-- The answer to a request is the documented one exactly where `AnsweredAsDocumented` says so and
cJSON makes its text. -/
theorem answer_documented_iff {s₁ : State}
    (hreach : (system (httpServer cfg mg modelId env)).Reachable Free s)
    (hmg : mg.MatchesLiterally) (hpass : PassesChecks mg cfg hm)
    (hs : s.act (httpServer cfg mg modelId env) (.main (.http c hm texts)) = some s₁)
    (bad : JobType → Json → Prop) :
    (∀ henv : HandlerEnv, ∃ busy t, (s.currentJob = none → busy = false) ∧
      HandlerRun (httpServer cfg mg modelId env) busy henv.callocOk henv.texts s₁ t) ∧
    ∀ busy allocOk t, (s.currentJob = none → busy = false) →
      HandlerRun (httpServer cfg mg modelId env) busy allocOk texts s₁ t →
        (s.answer t c = some (documentedAnswer env modelId bad busy hm) ↔
          AnsweredAsDocumented env bad busy allocOk hm ∧
            (documentedAnswer env modelId bad busy hm).textMade texts = true) := by
  refine ⟨fun henv => handler_returns hs henv, fun busy allocOk t hidle hrun => ?_⟩
  have hsound := (Sound.of_reachable hreach).step hs
  rw [(answering_http hs hidle).run hsound hrun, Option.some.injEq, handlerAnswer,
    sent_eq_iff (documentedAnswer_ne_failed env modelId bad busy hm texts)]
  exact and_congr_left' (route_answer_documented_iff env modelId bad busy allocOk hmg hpass)

end Handler

/-! ### A prompt that is a number -/

namespace Sample

open CText

def parsing (text : Bytes) (root : Json) : Server :=
  httpServer server.cfg .literal default (knows text root)

def numberPrompt : Bytes :=
  ascii "\x7b\"prompt\":5\x7d"

def numberPromptJson : Json :=
  .object [(ascii "prompt", .number (.fin 5))]

/-- One client, nothing sent yet. -/
def connected : State :=
  State.init.evAccept server.cfg (ascii "10.0.0.1")

theorem connected_reachable (text : Bytes) (root : Json) :
    (system (parsing text root)).Reachable Free connected :=
  .step (a := connect) .init trivial rfl

/-- `POST /v1/completions` -/
def postMessage (body : Bytes) : HttpMessage where
  method := ascii "POST"
  uri := ascii "/v1/completions"
  headers := []
  body := body

/-- The handler is about to allocate the job. -/
def posted (body : Bytes) : State :=
  connected.goMain (.alloc 0 .completion body)

theorem posted_numberPrompt :
    connected.act (parsing numberPrompt numberPromptJson) (.main (.http 0 (postMessage numberPrompt))) =
      some (posted numberPrompt) := by
  rfl

theorem numberPrompt_passes :
    PassesChecks Mongoose.literal server.cfg (postMessage numberPrompt) where
  size := by decide
  auth := by decide

/-- After the failed parse. -/
def refused : State :=
  (posted numberPrompt).allocJob (parsing numberPrompt numberPromptJson) 0 .completion numberPrompt {}

theorem refused_run :
    HandlerRun (parsing numberPrompt numberPromptJson) false true {} (posted numberPrompt) refused := by
  have hgo : (posted numberPrompt).act (parsing numberPrompt numberPromptJson) main =
      some refused := rfl
  refine .step main (by decide) hgo ?_ ?_ (.returned rfl)
  · intro caller j henv hpc
    cases hpc
  · intro henv heq
    cases heq
    exact ⟨rfl, rfl⟩

/-- A request with the wrong method for `/v1/models` is answered as documented. -/
def postModels : HttpMessage where
  method := ascii "POST"
  uri := ascii "/v1/models"
  headers := []
  body := []

theorem answer_documented_iff_postModels :
    connected.answer (connected.sendError {} 0 405 "Method Not Allowed" "method_not_allowed") 0 =
      some (documentedAnswer (knows [] .null) default (fun _ _ => False) false postModels) := by
  have hpasses : PassesChecks Mongoose.literal server.cfg postModels := ⟨by decide, by decide⟩
  have hevent : connected.act (parsing [] .null) (.main (.http 0 postModels)) =
      some (connected.sendError {} 0 405 "Method Not Allowed" "method_not_allowed") := rfl
  have hdocumented := (answer_documented_iff (connected_reachable [] .null)
    Mongoose.literal_matchesLiterally hpasses hevent fun _ _ => False).2
  have hmade : (documentedAnswer (knows [] .null) default (fun _ _ => False) false
      postModels).textMade {} = true := by
    have hmethod : Endpoint.models.method ≠ none ∧
        some postModels.method ≠ Endpoint.models.method := by decide
    simp only [documentedAnswer, show endpointOf postModels.uri = some .models from rfl,
      if_pos hmethod]
    rfl
  exact (hdocumented false true _ (fun _ => rfl) (.returned rfl)).2 ⟨trivial, hmade⟩

end Sample

/-- A prompt that is a number is answered like a body that is not JSON. -/
theorem not_answer_documented :
    ¬ ∀ (cfg : Config) (mg : Mongoose) (modelId : CBuf profModelMax) (env : ParseEnv)
      (bad : JobType → Json → Prop) (c : ConnId) (hm : HttpMessage) (busy allocOk : Bool)
      (texts : JsonTexts) (s s₁ t : State),
      (system (httpServer cfg mg modelId env)).Reachable Free s → mg.MatchesLiterally →
      PassesChecks mg cfg hm →
      s.act (httpServer cfg mg modelId env) (.main (.http c hm texts)) = some s₁ →
      (s.currentJob = none → busy = false) →
      HandlerRun (httpServer cfg mg modelId env) busy allocOk texts s₁ t →
      s.answer t c = some (documentedAnswer env modelId bad busy hm) := by
  intro h
  have hanswer := h Sample.server.cfg .literal default
    (Sample.knows Sample.numberPrompt Sample.numberPromptJson) (fun _ _ => False) 0
    (Sample.postMessage Sample.numberPrompt) false true {} Sample.connected
    (Sample.posted Sample.numberPrompt) Sample.refused (Sample.connected_reachable _ _)
    Mongoose.literal_matchesLiterally Sample.numberPrompt_passes Sample.posted_numberPrompt
    (fun _ => rfl) Sample.refused_run
  have hactual : Sample.connected.answer Sample.refused 0 = some (.error 400 "invalid_json") := rfl
  have hfields : ¬ RequiredFields .completion Sample.numberPromptJson := by
    rintro ⟨prompt, hprompt⟩
    cases hprompt
  have hparse : (Sample.knows Sample.numberPrompt Sample.numberPromptJson).parseWithLength
      Sample.numberPrompt = some Sample.numberPromptJson := rfl
  have hdocumented : documentedAnswer (Sample.knows Sample.numberPrompt Sample.numberPromptJson)
      default (fun _ _ => False) false (Sample.postMessage Sample.numberPrompt) =
        .error 400 "invalid_request" := by
    have hendpoint : endpointOf (Sample.postMessage Sample.numberPrompt).uri =
        some (.inference .completion) := rfl
    have hmethod : some (Sample.postMessage Sample.numberPrompt).method =
        Endpoint.method (.inference .completion) := rfl
    simp only [documentedAnswer, hendpoint]
    rw [if_neg fun h => h.2 hmethod]
    simp [documentedInference, Sample.postMessage, hparse, hfields]
  rw [hactual, hdocumented] at hanswer
  exact absurd hanswer (by decide)

end Professord
