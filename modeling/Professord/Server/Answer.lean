import Professord.Api.Parse
import Professord.Server.Http
import Professord.Server.Reply

/-!
# Answer — how requests are answered

`HttpRoute.answer` is what the routing, the admission test and the parsers come to for a request past
the size and key checks; `documentedAnswer` is the table of the documentation.  They differ for
the two `GET` endpoints that never look at the method, and for a body that is JSON but not a
request.
-/

namespace Professord

open CText

/-! ## What a client sees -/

inductive Answer
  | ok (body : Body)
  | error (status : Nat) (type : String)
  | plain (status : Nat)
  | accepted
  deriving DecidableEq

/-- A reply without the text of its message. -/
def Reply.answer (r : Reply) : Answer :=
  match r.body with
  | .error _ _ type => .error r.status type
  | .text _ => .plain r.status
  | body => .ok body

/-! ## Endpoints -/

inductive Endpoint
  | whatIf
  | health
  | stats
  | models
  | inference (type : JobType)
  deriving DecidableEq, Repr

def endpointOf (uri : Bytes) : Option Endpoint :=
  if uri = ascii "/whatif" then some .whatIf
  else if uri = ascii "/health" ∨ uri = ascii "/v1/health" then some .health
  else if uri = ascii "/v1/stats" then some .stats
  else if uri = ascii "/v1/models" then some .models
  else if uri = ascii "/v1/chat/completions" then some (.inference .chat)
  else if uri = ascii "/v1/completions" then some (.inference .completion)
  else none

/-- The documented method; `/whatif` is not documented. -/
def Endpoint.method : Endpoint → Option Bytes
  | .whatIf => none
  | .health | .stats | .models => some (ascii "GET")
  | .inference _ => some (ascii "POST")

/-- The endpoints whose handler is reached with any method. -/
def Endpoint.anyMethod : Endpoint → Bool
  | .whatIf | .health | .stats => true
  | .models | .inference _ => false

def HttpRoute.wrongMethod : HttpRoute :=
  .error 405 "Method Not Allowed" "method_not_allowed"

def Endpoint.handler : Endpoint → HttpRoute
  | .whatIf => .whatIf
  | .health => .health
  | .stats => .stats
  | .models => .models
  | .inference type => .inference type

/-- A request that gets past the size check and the key check. -/
structure PassesChecks (mg : Mongoose) (cfg : Config) (hm : HttpMessage) : Prop where
  size : hm.body.length ≤ profMaxBodyBytes
  auth : isHealth mg hm = true ∨ isWhatIf mg hm = true ∨ checkAuth mg hm cfg = 0

theorem Mongoose.MatchesLiterally.eq_decide {mg : Mongoose} (h : mg.MatchesLiterally)
    (uri : Bytes) {pattern : Bytes} (hplain : pattern.all (fun b => b ∉ globChars) = true) :
    mg.matches? uri pattern = decide (uri = pattern) := by
  rw [Bool.eq_iff_iff, h uri pattern (noGlob_of_all hplain), decide_eq_true_iff]

/-- The chain of tests in `ev_handler` finds the endpoint and tests the method of three of them. -/
theorem evHttpMsg_eq {mg : Mongoose} {cfg : Config} {hm : HttpMessage} (hmg : mg.MatchesLiterally)
    (hpass : PassesChecks mg cfg hm) :
    evHttpMsg mg cfg hm =
      match endpointOf hm.uri with
      | none => .error 404 "Not Found" "not_found"
      | some e =>
          if e.anyMethod = true ∨ some hm.method = e.method then e.handler
          else HttpRoute.wrongMethod := by
  have hsize : ¬ hm.body.length > profMaxBodyBytes := not_lt.2 hpass.size
  have hauth : (!isHealth mg hm && !isWhatIf mg hm && decide (checkAuth mg hm cfg ≠ 0)) = false := by
    rcases hpass.auth with hhealth | hwhatif | hkey
    · simp [hhealth]
    · simp [hwhatif]
    · simp [hkey]
  have hhealth : isHealth mg hm =
      decide (hm.uri = ascii "/health" ∨ hm.uri = ascii "/v1/health") := by
    rw [isHealth, hmg.eq_decide _ (by decide), hmg.eq_decide _ (by decide), Bool.decide_or]
  have hwhatif : isWhatIf mg hm = decide (hm.uri = ascii "/whatif") :=
    hmg.eq_decide _ (by decide)
  unfold evHttpMsg endpointOf
  rw [if_neg hsize, hauth, hhealth, hwhatif, hmg.eq_decide _ (by decide),
    hmg.eq_decide _ (by decide), hmg.eq_decide _ (by decide), hmg.eq_decide _ (by decide)]
  simp only [Bool.false_eq_true, if_false, decide_eq_true_eq]
  by_cases hw : hm.uri = ascii "/whatif"
  · simp only [if_pos hw]
    rfl
  by_cases hh : hm.uri = ascii "/health" ∨ hm.uri = ascii "/v1/health"
  · simp only [if_neg hw, if_pos hh]
    rfl
  by_cases hs : hm.uri = ascii "/v1/stats"
  · simp only [if_neg hw, if_neg hh, if_pos hs]
    rfl
  -- the remaining endpoints test the method themselves
  simp only [if_neg hw, if_neg hh, if_neg hs]
  split_ifs with hm₁ hm₂ hm₃ hm₄ hm₅ hm₆ <;>
    simp_all [Endpoint.anyMethod, Endpoint.method, Endpoint.handler, HttpRoute.wrongMethod]

/-! ## The two tables -/

/-- The parser of the endpoint accepts the body. -/
def requestParses (env : ParseEnv) (type : JobType) (body : Bytes) : Bool :=
  match type with
  | .chat => (chatRequestParse env body).isSome
  | .completion => (completionRequestParse env body).isSome

/-- `submit_inference_job`: `busy` is the result of `worker_is_busy`, `allocOk` that of the two
`calloc`s. -/
def submitAnswer (busy allocOk parses : Bool) : Answer :=
  if busy then .error 503 "server_busy"
  else if !allocOk then .error 500 "backend_error"
  else if parses then .accepted
  else .error 400 "invalid_json"

/-- The answer of a handler, if cJSON makes its text. -/
def HttpRoute.answer (env : ParseEnv) (modelId : CBuf profModelMax) (busy allocOk : Bool)
    (body : Bytes) : HttpRoute → Answer
  | .error status _ type => .error status type
  | .whatIf => .ok .whatIf
  | .health => .ok .health
  | .stats => .ok .stats
  | .models => .ok (.models modelId)
  | .inference type => submitAnswer busy allocOk (requestParses env type body)

/-- The text of the answer is made; those of `/whatif` and `/health` are constants. -/
def Answer.textMade (texts : JsonTexts) : Answer → Bool
  | .error _ _ => texts.error
  | .ok .whatIf | .ok .health => true
  | .ok _ => texts.reply
  | .plain _ | .accepted => true

/-- `send_error` in place of a reply without text. -/
def failedAnswer (texts : JsonTexts) : Answer :=
  if texts.error then .error 500 "backend_error" else .plain 500

/-- What the client gets of the answer. -/
def Answer.sent (texts : JsonTexts) (a : Answer) : Answer :=
  if a.textMade texts then a else failedAnswer texts

/-- The required fields are there, with a known role in each of at most 64 messages. -/
def RequiredFields : JobType → Json → Prop
  | .chat, root => ∃ items, ChatFields root items
  | .completion, root => ∃ prompt, root.getObjectItem (ascii "prompt") = some (.string prompt)

open Classical in
/-- The documented answer of an inference endpoint to a `POST`; `bad` says which fields besides the
required ones count as bad. -/
noncomputable def documentedInference (env : ParseEnv) (bad : JobType → Json → Prop) (busy : Bool)
    (type : JobType) (body : Bytes) : Answer :=
  if busy then
    .error 503 "server_busy"
  else
    match env.parseWithLength body with
    | none => .error 400 "invalid_json"
    | some root =>
        if RequiredFields type root ∧ ¬ bad type root then
          .accepted
        else
          .error 400 "invalid_request"

/-- The table of the documentation. -/
noncomputable def documentedAnswer (env : ParseEnv) (modelId : CBuf profModelMax)
    (bad : JobType → Json → Prop) (busy : Bool) (hm : HttpMessage) : Answer :=
  match endpointOf hm.uri with
  | none => .error 404 "not_found"
  | some e =>
      if e.method ≠ none ∧ some hm.method ≠ e.method then
        .error 405 "method_not_allowed"
      else
        match e with
        | .whatIf => .ok .whatIf
        | .health => .ok .health
        | .stats => .ok .stats
        | .models => .ok (.models modelId)
        | .inference type => documentedInference env bad busy type hm.body

/-- If the body is JSON, it is a good request and can be stored. -/
def BodyAcceptable (env : ParseEnv) (bad : JobType → Json → Prop) (type : JobType)
    (body : Bytes) : Prop :=
  ∀ root, env.parseWithLength body = some root →
    RequiredFields type root ∧ ¬ bad type root ∧ (type = .chat → env.callocOk = true)

/-- Where code and documentation agree. -/
def AnsweredAsDocumented (env : ParseEnv) (bad : JobType → Json → Prop) (busy allocOk : Bool)
    (hm : HttpMessage) : Prop :=
  match endpointOf hm.uri with
  | some .health | some .stats => hm.method = ascii "GET"
  | some (.inference type) =>
      hm.method = ascii "POST" → busy = false →
        allocOk = true ∧ BodyAcceptable env bad type hm.body
  | some .whatIf | some .models | none => True

theorem requestParses_iff {env : ParseEnv} {type : JobType} {body : Bytes} {root : Json}
    (hroot : env.parseWithLength body = some root) :
    requestParses env type body = true ↔
      RequiredFields type root ∧ (type = .chat → env.callocOk = true) := by
  cases type with
  | chat =>
      simp only [forall_const, requestParses, chatRequestParse, hroot, Option.bind_some, Option.isSome_iff_exists]
      constructor
      · rintro ⟨req, hreq⟩
        obtain ⟨msgs, hmsgs, _⟩ := chatRequestOfJson_eq_some hreq
        obtain ⟨halloc, items, hfields, _⟩ := chatFields_of_parseMessages hmsgs
        exact ⟨⟨items, hfields⟩, halloc⟩
      · rintro ⟨⟨items, hfields⟩, halloc⟩
        obtain ⟨msgs, hmsgs⟩ := parseMessages_of_chatFields hfields halloc
        obtain ⟨req, hreq, _⟩ := chatRequestOfJson_of_messages hmsgs
        exact ⟨req, hreq⟩
  | completion =>
      simp only [requestParses, completionRequestParse, hroot, Option.bind_some,
        Option.isSome_iff_exists]
      constructor
      · rintro ⟨req, hreq⟩
        obtain ⟨prompt, hprompt, _⟩ := completionRequestOfJson_eq_some hreq
        exact ⟨⟨prompt, hprompt⟩, by simp⟩
      · rintro ⟨⟨prompt, hprompt⟩, _⟩
        obtain ⟨req, hreq, _⟩ := completionRequestOfJson_of_prompt hprompt
        exact ⟨req, hreq⟩

theorem requestParses_eq_false {env : ParseEnv} {type : JobType} {body : Bytes}
    (hroot : env.parseWithLength body = none) : requestParses env type body = false := by
  cases type <;> simp [requestParses, chatRequestParse, completionRequestParse, hroot]

/-- The answer to a `POST` to an inference endpoint. -/
theorem submitAnswer_documented_iff {env : ParseEnv} {bad : JobType → Json → Prop}
    {busy allocOk : Bool} {type : JobType} {body : Bytes} :
    submitAnswer busy allocOk (requestParses env type body) =
        documentedInference env bad busy type body ↔
      (busy = false → allocOk = true ∧ BodyAcceptable env bad type body) := by
  unfold submitAnswer documentedInference
  cases busy with
  | true => simp
  | false =>
      simp only [Bool.false_eq_true, if_false, forall_const]
      cases hroot : env.parseWithLength body with
      | none =>
          have hparses : requestParses env type body = false := requestParses_eq_false hroot
          cases allocOk <;> simp [hparses, BodyAcceptable, hroot]
      | some root =>
          have hparses : requestParses env type body = true ↔ _ := requestParses_iff hroot
          have hbody : BodyAcceptable env bad type body ↔
              RequiredFields type root ∧ ¬ bad type root ∧ (type = .chat → env.callocOk = true) := by
            simp [BodyAcceptable, hroot]
          rw [hbody]
          by_cases hgood : RequiredFields type root ∧ ¬ bad type root
          · have hstored : requestParses env type body = true ↔
                (type = .chat → env.callocOk = true) :=
              hparses.trans (and_iff_right hgood.1)
            rw [← hstored]
            cases requestParses env type body <;> cases allocOk <;> simp [hgood]
          · have hnot : ¬ (RequiredFields type root ∧ ¬ bad type root ∧
                (type = .chat → env.callocOk = true)) := fun h => hgood ⟨h.1, h.2.1⟩
            cases hp : requestParses env type body <;> cases allocOk <;> simp [hgood, hnot]

/-- The documentation has no 500 for a request that is not yet a job. -/
theorem documentedAnswer_ne_failed (env : ParseEnv) (modelId : CBuf profModelMax)
    (bad : JobType → Json → Prop) (busy : Bool) (hm : HttpMessage) (texts : JsonTexts) :
    documentedAnswer env modelId bad busy hm ≠ failedAnswer texts := by
  unfold documentedAnswer documentedInference failedAnswer
  split_ifs
  all_goals
    repeat' split
  all_goals simp

/-- A documented answer arrives exactly if it is given and its text is made. -/
theorem sent_eq_iff {a d : Answer} {texts : JsonTexts} (hd : d ≠ failedAnswer texts) :
    a.sent texts = d ↔ a = d ∧ d.textMade texts = true := by
  unfold Answer.sent
  split
  · next hmade =>
    constructor
    · rintro rfl
      exact ⟨rfl, hmade⟩
    · exact And.left
  · next hfailed =>
    constructor
    · exact fun heq => absurd heq.symm hd
    · rintro ⟨rfl, hmade⟩
      exact absurd hmade hfailed

theorem route_answer_documented_iff {mg : Mongoose} {cfg : Config} {hm : HttpMessage}
    (env : ParseEnv) (modelId : CBuf profModelMax) (bad : JobType → Json → Prop)
    (busy allocOk : Bool) (hmg : mg.MatchesLiterally) (hpass : PassesChecks mg cfg hm) :
    (evHttpMsg mg cfg hm).answer env modelId busy allocOk hm.body =
        documentedAnswer env modelId bad busy hm ↔
      AnsweredAsDocumented env bad busy allocOk hm := by
  rw [evHttpMsg_eq hmg hpass, documentedAnswer, AnsweredAsDocumented]
  cases huri : endpointOf hm.uri with
  | none => simp [HttpRoute.answer]
  | some e =>
      by_cases hmethod : some hm.method = e.method
      · -- both tables give the answer of the endpoint
        cases e with
        | whatIf => simp [Endpoint.method] at hmethod
        | health | stats =>
            have hget : hm.method = ascii "GET" := Option.some.inj hmethod
            simp [Endpoint.anyMethod, Endpoint.method, Endpoint.handler, HttpRoute.answer, hget]
        | models =>
            have hget : hm.method = ascii "GET" := Option.some.inj hmethod
            simp [Endpoint.method, Endpoint.handler, HttpRoute.answer, hget]
        | inference type =>
            have hpost : hm.method = ascii "POST" := Option.some.inj hmethod
            dsimp only
            rw [if_pos (Or.inr hmethod), if_neg fun h => h.2 hmethod]
            simp only [Endpoint.handler, HttpRoute.answer, hpost, forall_const]
            exact submitAnswer_documented_iff
      · -- the documentation answers 405, the code only where it tests the method
        cases e with
        | whatIf => simp [Endpoint.anyMethod, Endpoint.method, Endpoint.handler, HttpRoute.answer]
        | health | stats =>
            have hget : hm.method ≠ ascii "GET" := fun h => hmethod (congrArg some h)
            simp [Endpoint.anyMethod, Endpoint.method, Endpoint.handler, HttpRoute.answer, hget]
        | models =>
            have hget : hm.method ≠ ascii "GET" := fun h => hmethod (congrArg some h)
            simp [Endpoint.anyMethod, Endpoint.method, HttpRoute.wrongMethod, HttpRoute.answer, hget]
        | inference type =>
            have hpost : hm.method ≠ ascii "POST" := fun h => hmethod (congrArg some h)
            simp [Endpoint.anyMethod, Endpoint.method, HttpRoute.wrongMethod, HttpRoute.answer, hpost]

end Professord
