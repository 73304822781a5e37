import Professord.Runtime.System

/-!
# Gate — requests without the key

With a key configured, the event for a request outside `publicUris` reaches a handler only if its
header is `"Bearer "` followed by the key; any other request gets one error reply and changes
nothing but that connection and the error counters.
-/

namespace Professord

open GuardedSystem CText

/-- The reply to a request without the key. -/
def refusal (texts : JsonTexts) (hm : HttpMessage) : Reply :=
  if hm.body.length > profMaxBodyBytes then
    sentError texts 400 "Request body too large" "invalid_request"
  else
    sentError texts 401 "Invalid or missing API key" "unauthorized"

/-- `req_chat`, `req_completion`, `req_stream`, `req_health` and `req_models` -/
def Stats.requests (st : Stats) : List Int :=
  [st.reqChat, st.reqCompletion, st.reqStream, st.reqHealth, st.reqModels]

/-- The request on `c` got the reply `r`, and that is all. -/
structure Refused (s s' : State) (c : ConnId) (r : Reply) : Prop where
  replies : ∀ k, (s'.conns k).replies = (s.conns k).replies ++ if k = c then [r] else []
  worker : s'.worker = s.worker ∧ s'.currentJob = s.currentJob ∧ s'.running = s.running
  jobs : s'.jobs = s.jobs ∧ s'.log = s.log ∧ s'.nextJob = s.nextJob
  attached : ∀ k, (s'.conns k).fnData = (s.conns k).fnData
  counters : s'.stats.requests = s.stats.requests
  main : s'.main = s.main

theorem requests_countError (status : Nat) (st : Stats) :
    (countError status st).requests = st.requests := by
  unfold countError
  split <;> rfl

theorem State.refused_sendError (s : State) (texts : JsonTexts) (c : ConnId) (status : Nat)
    (message type : String) :
    Refused s (s.sendError texts c status message type) c
      (sentError texts status message type) where
  replies k := by
    by_cases hk : k = c <;> simp [hk]
  worker := ⟨rfl, rfl, rfl⟩
  jobs := ⟨rfl, rfl, rfl⟩
  attached k := by
    by_cases hk : k = c <;> simp [hk]
  counters := requests_countError status s.stats
  main := rfl

variable {srv : Server} {hm : HttpMessage}

theorem refused_gateError (s : State) (texts : JsonTexts) (c : ConnId)
    (h : evHttpMsg srv.mg srv.cfg hm = gateError hm) :
    Refused s (s.evHttp srv c hm texts) c (refusal texts hm) := by
  unfold State.evHttp refusal
  rw [h]
  by_cases hlarge : hm.body.length > profMaxBodyBytes
  · simp only [gateError, if_pos hlarge]
    exact s.refused_sendError texts c _ _ _
  · simp only [gateError, if_neg hlarge]
    exact s.refused_sendError texts c _ _ _

/-- The authentication gate. -/
theorem auth_gate (srv : Server) (hmg : srv.mg.MatchesLiterally)
    (hkey : srv.cfg.apiKey.text ≠ []) {hm : HttpMessage} (huri : hm.uri ∉ publicUris) :
    ((evHttpMsg srv.mg srv.cfg hm).guarded = true → Authorized srv.mg hm srv.cfg) ∧
      (¬ Authorized srv.mg hm srv.cfg → ∀ (s s' : State) (c : ConnId) (texts : JsonTexts),
        s.act srv (.main (.http c hm texts)) = some s' →
          Refused s s' c (refusal texts hm)) := by
  constructor
  · intro hguarded
    by_contra hauth
    rw [evHttpMsg_of_not_authorized hmg hkey huri hauth] at hguarded
    unfold gateError at hguarded
    split at hguarded <;> cases hguarded
  · intro hauth s s' c texts hs
    obtain ⟨_, _, rfl⟩ := State.act_http hs
    exact refused_gateError s texts c (evHttpMsg_of_not_authorized hmg hkey huri hauth)

theorem Mongoose.literal_matchesLiterally : Mongoose.literal.MatchesLiterally := by
  intro uri pattern _
  exact beq_iff_eq

namespace Sample

def keyServer : Server :=
  { server with cfg := { server.cfg with apiKey := CBuf.snprintf (ascii "sesame") } }

/-- `GET /v1/models` with the header `Authorization: <auth>` -/
def modelsRequest (auth : Bytes) : HttpMessage where
  method := ascii "GET"
  uri := ascii "/v1/models"
  headers := [(ascii "Authorization", auth)]
  body := []

/-- A prefix of the key is refused. -/
def shortKey : HttpMessage :=
  modelsRequest (ascii "Bearer sesam")

theorem connect_replays :
    ((system keyServer).runGuarded Free State.init [connect]).isSome = true := by
  decide

def afterConnect : State :=
  ((system keyServer).runGuarded Free State.init [connect]).get connect_replays

theorem shortKey_enabled : (afterConnect.act keyServer (.main (.http 0 shortKey))).isSome = true := by
  decide

theorem auth_gate_shortKey :
    Refused afterConnect ((afterConnect.act keyServer (.main (.http 0 shortKey))).get
      shortKey_enabled) 0 (errorReply 401 "Invalid or missing API key" "unauthorized") :=
  (auth_gate keyServer Mongoose.literal_matchesLiterally (by decide) (by decide)).2 (by decide)
    afterConnect _ 0 {} (Option.some_get shortKey_enabled).symm

end Sample

end Professord
