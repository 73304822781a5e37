import Professord.Worker.Job

/-!
# Http — what the event handler decides from a message (`server.c`)

The pure decisions of `ev_handler`: the ACL test of `MG_EV_ACCEPT`, and the size check, the
authentication check and the routing of `MG_EV_HTTP_MSG`.  The two mongoose functions that they
use are a parameter.
-/

namespace Professord

open CText

structure HttpMessage where
  method : Bytes
  uri : Bytes
  headers : List (Bytes × Bytes)
  body : Bytes
  deriving DecidableEq, Repr, Inhabited

/-- The mongoose functions that routing depends on. -/
structure Mongoose where
  /-- `mg_match(uri, pattern, NULL)` -/
  matches? : Bytes → Bytes → Bool
  /-- `mg_http_get_header` -/
  httpGetHeader : HttpMessage → Bytes → Option Bytes

/-- The characters that `mg_match` treats specially in a pattern. -/
def globChars : Bytes :=
  ascii "?*#"

/-- A pattern without wildcards. -/
theorem noGlob_of_all {pattern : Bytes} (h : pattern.all (fun b => b ∉ globChars) = true) :
    ∀ b ∈ pattern, b ∉ globChars := by
  simpa using h

/-- `mg_match` compares literally when the pattern has no wildcard. -/
def Mongoose.MatchesLiterally (mg : Mongoose) : Prop :=
  ∀ uri pattern : Bytes, (∀ b ∈ pattern, b ∉ globChars) →
    (mg.matches? uri pattern = true ↔ uri = pattern)

/-! ## IP access list -/

/-- Skip a leading `"::ffff:"`. -/
def stripMapped (ip : Bytes) : Bytes :=
  if (ascii "::ffff:").isPrefixOf ip then ip.drop 7 else ip

def aclAllows (acl : List (CBuf profAddrMax)) (peer : Bytes) : Bool :=
  let ip : CBuf 48 := CBuf.snprintf peer
  acl.any fun entry => stripMapped ip.text == stripMapped entry.text

/-! ## Authentication -/

def bearer : Bytes :=
  ascii "Bearer "

/-- `"Bearer <key>"` in `char expected[PROF_KEY_MAX + 8]` -/
def expectedAuth (cfg : Config) : Bytes :=
  (CBuf.snprintf (bearer ++ cfg.apiKey.text) : CBuf (profKeyMax + 8)).text

/-- The accumulated difference of the two loops of `check_auth`. -/
def authDiff (auth expected : Bytes) : UInt8 :=
  let diff : UInt8 := if auth.length ≠ expected.length then 1 else 0
  let cmpLen := if auth.length < expected.length then auth.length else expected.length
  let diff := (List.range cmpLen).foldl
    (fun d i => d ||| (auth.getD i 0 ^^^ expected.getD i 0)) diff
  -- the second loop only runs if the header is shorter than the key
  (List.range' cmpLen (expected.length - cmpLen)).foldl (fun d i => d ||| expected.getD i 0) diff

/-- An accumulated OR is zero exactly if everything that went into it is. -/
theorem foldl_or_eq_zero_iff (f : Nat → UInt8) (l : List Nat) (d : UInt8) :
    l.foldl (fun d i => d ||| f i) d = 0 ↔ d = 0 ∧ ∀ i ∈ l, f i = 0 := by
  induction l generalizing d with
  | nil => simp
  | cons i l ih => simp [ih, UInt8.or_eq_zero_iff, and_assoc]

theorem authDiff_eq_zero_iff (auth expected : Bytes) :
    authDiff auth expected = 0 ↔ auth = expected := by
  unfold authDiff
  rw [foldl_or_eq_zero_iff, foldl_or_eq_zero_iff]
  constructor
  · rintro ⟨⟨hlen, hbytes⟩, _⟩
    have hsame : auth.length = expected.length := by
      by_cases h : auth.length = expected.length
      · exact h
      · simp [h] at hlen
    -- the first loop saw every byte, as the lengths agree
    refine List.ext_getElem hsame ?_
    intro i hi hi'
    have hxor := hbytes i (by simpa [hsame] using hi')
    simpa [List.getElem?_eq_getElem hi, List.getElem?_eq_getElem hi'] using hxor
  · rintro rfl
    simp

/-- The expected value is not truncated. -/
theorem expectedAuth_eq (cfg : Config) : expectedAuth cfg = bearer ++ cfg.apiKey.text := by
  refine CBuf.snprintf_text ?_ ?_
  · have hkey := cfg.apiKey.noNul
    simp [bearer, ascii, hkey]
  · have hfits := cfg.apiKey.fits
    have hlen : bearer.length = 7 := by decide
    simp [hlen]
    omega

def checkAuth (mg : Mongoose) (hm : HttpMessage) (cfg : Config) : Int :=
  if cfg.apiKey.text = [] then
    0
  else
    match mg.httpGetHeader hm (ascii "Authorization") with
    | none => -1
    | some auth => if authDiff auth (expectedAuth cfg) ≠ 0 then -1 else 0

/-- The request carries the key: its header is `"Bearer "` followed by the stored key. -/
def Authorized (mg : Mongoose) (hm : HttpMessage) (cfg : Config) : Prop :=
  mg.httpGetHeader hm (ascii "Authorization") = some (bearer ++ cfg.apiKey.text)

instance (mg : Mongoose) (hm : HttpMessage) (cfg : Config) : Decidable (Authorized mg hm cfg) :=
  inferInstanceAs (Decidable (_ = _))

theorem checkAuth_eq_zero_iff {mg : Mongoose} {hm : HttpMessage} {cfg : Config}
    (hkey : cfg.apiKey.text ≠ []) : checkAuth mg hm cfg = 0 ↔ Authorized mg hm cfg := by
  unfold checkAuth Authorized
  rw [if_neg hkey]
  cases mg.httpGetHeader hm (ascii "Authorization") with
  | none => simp
  | some auth =>
      by_cases hdiff : authDiff auth (expectedAuth cfg) = 0
      · simp [hdiff, ← expectedAuth_eq, ← authDiff_eq_zero_iff]
      · simp [hdiff, ← expectedAuth_eq, ← authDiff_eq_zero_iff]

/-! ## Routing -/

inductive HttpRoute
  | error (status : Nat) (message type : String)
  | whatIf
  | health
  | stats
  | models
  | inference (type : JobType)
  deriving DecidableEq, Repr

def isHealth (mg : Mongoose) (hm : HttpMessage) : Bool :=
  mg.matches? hm.uri (ascii "/health") || mg.matches? hm.uri (ascii "/v1/health")

def isWhatIf (mg : Mongoose) (hm : HttpMessage) : Bool :=
  mg.matches? hm.uri (ascii "/whatif")

/-- Which handler (or error reply) `ev_handler` gives a `MG_EV_HTTP_MSG`. -/
def evHttpMsg (mg : Mongoose) (cfg : Config) (hm : HttpMessage) : HttpRoute :=
  -- the size check comes before the key
  if hm.body.length > profMaxBodyBytes then
    .error 400 "Request body too large" "invalid_request"
  else if !isHealth mg hm && !isWhatIf mg hm && checkAuth mg hm cfg ≠ 0 then
    .error 401 "Invalid or missing API key" "unauthorized"
  else if isWhatIf mg hm then
    .whatIf
  else if isHealth mg hm then
    .health
  else if mg.matches? hm.uri (ascii "/v1/stats") then
    .stats
  else if mg.matches? hm.uri (ascii "/v1/models") then
    if hm.method ≠ ascii "GET" then
      .error 405 "Method Not Allowed" "method_not_allowed"
    else
      .models
  else if mg.matches? hm.uri (ascii "/v1/chat/completions") then
    if hm.method ≠ ascii "POST" then
      .error 405 "Method Not Allowed" "method_not_allowed"
    else
      .inference .chat
  else if mg.matches? hm.uri (ascii "/v1/completions") then
    if hm.method ≠ ascii "POST" then
      .error 405 "Method Not Allowed" "method_not_allowed"
    else
      .inference .completion
  else
    .error 404 "Not Found" "not_found"

/-- The URIs that need no key. -/
def publicUris : List Bytes :=
  [ascii "/health", ascii "/v1/health", ascii "/whatif"]

/-- The routes behind the authentication gate. -/
def HttpRoute.guarded : HttpRoute → Bool
  | .stats | .models | .inference _ => true
  | .error _ _ _ | .whatIf | .health => false

/-- The error that answers a request without the key. -/
def gateError (hm : HttpMessage) : HttpRoute :=
  if hm.body.length > profMaxBodyBytes then
    .error 400 "Request body too large" "invalid_request"
  else
    .error 401 "Invalid or missing API key" "unauthorized"

section Gate

variable {mg : Mongoose} {cfg : Config} {hm : HttpMessage}

theorem isPublic_eq_false (hmg : mg.MatchesLiterally) (huri : hm.uri ∉ publicUris) :
    isHealth mg hm = false ∧ isWhatIf mg hm = false := by
  have hne : ∀ p ∈ publicUris, mg.matches? hm.uri p = false := by
    intro p hp
    -- none of the three has a wildcard, so `mg_match` compares literally
    have hplain : ∀ p ∈ publicUris, p.all (fun b => b ∉ globChars) = true := by decide
    rw [Bool.eq_false_iff, Ne, hmg _ _ (noGlob_of_all (hplain p hp))]
    rintro rfl
    exact huri hp
  have hhealth := hne (ascii "/health") (by simp [publicUris])
  have hv1 := hne (ascii "/v1/health") (by simp [publicUris])
  have hwhatif := hne (ascii "/whatif") (by simp [publicUris])
  simp [isHealth, isWhatIf, hhealth, hv1, hwhatif]

/-- Without the key, no handler is reached. -/
theorem evHttpMsg_of_not_authorized (hmg : mg.MatchesLiterally) (hkey : cfg.apiKey.text ≠ [])
    (huri : hm.uri ∉ publicUris) (hauth : ¬ Authorized mg hm cfg) :
    evHttpMsg mg cfg hm = gateError hm := by
  rcases isPublic_eq_false hmg huri with ⟨hhealth, hwhatif⟩
  have hcheck : checkAuth mg hm cfg ≠ 0 := fun h => hauth ((checkAuth_eq_zero_iff hkey).1 h)
  simp [evHttpMsg, gateError, hhealth, hwhatif, hcheck]

end Gate

end Professord
