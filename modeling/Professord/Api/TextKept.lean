import Professord.Api.Parse

/-!
# TextKept — when the stored text is the text of the request

A message content and a prompt are copied into fields of `PROF_CONTENT_MAX` bytes with `snprintf`,
which cuts what does not fit and stops at a NUL; a content that is not a string is dropped.
-/

namespace Professord

open CText

/-- A string that its field takes in full. -/
def FitsContent (s : Bytes) : Prop :=
  0 ∉ s ∧ s.length < profContentMax

theorem snprintf_text_eq_iff (s : Bytes) :
    (CBuf.snprintf s : CBuf profContentMax).text = s ↔ FitsContent s := by
  constructor
  · intro h
    exact ⟨h ▸ CBuf.noNul _, by rw [← h]; exact CBuf.fits _⟩
  · rintro ⟨hnul, hlen⟩
    exact CBuf.snprintf_text hnul hlen

/-- The stored content is the content of the message; other types have none. -/
def ContentKept (content : Option Json) (stored : CBuf profContentMax) : Prop :=
  match content with
  | none | some .null => stored.text = []
  | some (.string s) => stored.text = s
  | some (.bool _) | some (.number _) | some (.array _) | some (.object _) => False

/-- A content that a field can hold. -/
def Storable : Option Json → Prop
  | none | some .null => True
  | some (.string s) => FitsContent s
  | some (.bool _) | some (.number _) | some (.array _) | some (.object _) => False

theorem contentKept_iff (content : Option Json) :
    ContentKept content (contentField content) ↔ Storable content := by
  cases content with
  | none => exact ⟨fun _ => trivial, fun _ => rfl⟩
  | some item =>
      cases item with
      | null => exact ⟨fun _ => trivial, fun _ => rfl⟩
      | string s => exact snprintf_text_eq_iff s
      | bool b => exact Iff.rfl
      | number v => exact Iff.rfl
      | array items => exact Iff.rfl
      | object members => exact Iff.rfl

/-- Every stored message has the content of the message at its position. -/
def ChatTextKept (root : Json) (req : ChatRequest) : Prop :=
  ∃ items msgs, root.getObjectItem (ascii "messages") = some (.array items) ∧
    req.messages = some msgs ∧
    List.Forall₂ (fun item m => ContentKept (item.getObjectItem (ascii "content")) m.content)
      items msgs

def CompletionTextKept (root : Json) (req : CompletionRequest) : Prop :=
  root.getObjectItem (ascii "prompt") = some (.string req.prompt.text)

theorem chat_text_kept_iff {env : ParseEnv} {root : Json} :
    (∀ req, chatRequestOfJson env root = some req → ChatTextKept root req) ↔
      (env.callocOk = true → ∀ items, ChatFields root items →
        ∀ item ∈ items, Storable (item.getObjectItem (ascii "content"))) := by
  constructor
  · intro h halloc items hfields item hitem
    obtain ⟨msgs, hmsgs⟩ := parseMessages_of_chatFields hfields halloc
    obtain ⟨req, hreq, hmessages⟩ := chatRequestOfJson_of_messages hmsgs
    obtain ⟨items', msgs', hitems', hmsgs', hkept⟩ := h req hreq
    obtain rfl : items = items' :=
      Json.array.inj (Option.some.inj (hfields.messages.symm.trans hitems'))
    obtain rfl : msgs = msgs' := Option.some.inj (hmessages.symm.trans hmsgs')
    obtain ⟨_, items'', hfields'', hall⟩ := chatFields_of_parseMessages hmsgs
    obtain rfl := hfields.unique hfields''
    obtain ⟨i, hi, rfl⟩ := List.getElem_of_mem hitem
    have hi' : i < msgs.length := hall.length_eq ▸ hi
    have hparsed := hall.get hi hi'
    have hcontent := hkept.get hi hi'
    rw [List.get_eq_getElem] at hparsed hcontent
    rw [(hasRole_of_parseMessage hparsed).2] at hcontent
    exact (contentKept_iff _).1 hcontent
  · intro h req hreq
    obtain ⟨msgs, hmsgs, rfl⟩ := chatRequestOfJson_eq_some hreq
    obtain ⟨halloc, items, hfields, hall⟩ := chatFields_of_parseMessages hmsgs
    refine ⟨items, msgs, hfields.messages, rfl, ?_⟩
    rw [List.forall₂_iff_get] at hall ⊢
    refine ⟨hall.1, fun i hi hi' => ?_⟩
    rw [(hasRole_of_parseMessage (hall.2 i hi hi')).2]
    exact (contentKept_iff _).2 (h halloc items hfields _ (List.get_mem items ⟨i, hi⟩))

theorem completion_text_kept_iff {env : ParseEnv} {root : Json} :
    (∀ req, completionRequestOfJson env root = some req → CompletionTextKept root req) ↔
      ∀ prompt, root.getObjectItem (ascii "prompt") = some (.string prompt) →
        FitsContent prompt := by
  constructor
  · intro h prompt hprompt
    obtain ⟨req, hreq, hstored⟩ := completionRequestOfJson_of_prompt hprompt
    have hkept := Json.string.inj (Option.some.inj (hprompt.symm.trans (h req hreq)))
    rw [hstored] at hkept
    exact (snprintf_text_eq_iff prompt).1 hkept.symm
  · intro h req hreq
    obtain ⟨prompt, hprompt, rfl⟩ := completionRequestOfJson_eq_some hreq
    have htext := (snprintf_text_eq_iff prompt).2 (h prompt hprompt)
    exact hprompt.trans (by rw [htext])

/-- The text of a request is stored unchanged exactly when every text that reaches a field fits
it. -/
theorem prompt_text_kept_iff {env : ParseEnv} {body : Bytes} {root : Json}
    (hroot : env.parseWithLength body = some root) :
    ((∀ req, chatRequestParse env body = some req → ChatTextKept root req) ∧
      (∀ req, completionRequestParse env body = some req → CompletionTextKept root req)) ↔
    (env.callocOk = true → ∀ items, ChatFields root items →
        ∀ item ∈ items, Storable (item.getObjectItem (ascii "content"))) ∧
      (∀ prompt, root.getObjectItem (ascii "prompt") = some (.string prompt) →
        FitsContent prompt) := by
  simp only [chatRequestParse, completionRequestParse, hroot, Option.bind_some]
  exact and_congr chat_text_kept_iff completion_text_kept_iff

/-! ### A content that is a number -/

namespace Sample

def userMessageJson (content : Json) : Json :=
  .object [(ascii "role", .string (ascii "user")), (ascii "content", content)]

def chatJson (content : Json) : Json :=
  .object [(ascii "messages", .array [userMessageJson content])]

def textJson : Json := chatJson (.string (ascii "hi"))

def textBody : Bytes :=
  ascii "\x7b\"messages\":[\x7b\"role\":\"user\",\"content\":\"hi\"\x7d]\x7d"

def numberJson : Json := chatJson (.number (.fin 5))

def numberBody : Bytes :=
  ascii "\x7b\"messages\":[\x7b\"role\":\"user\",\"content\":5\x7d]\x7d"

theorem prompt_text_kept_iff_hi :
    ∃ req, chatRequestParse (knows textBody textJson) textBody = some req ∧
      ChatTextKept textJson req := by
  have hroot : (knows textBody textJson).parseWithLength textBody = some textJson := by rfl
  refine ⟨_, rfl, ((prompt_text_kept_iff hroot).2 ⟨?_, ?_⟩).1 _ rfl⟩
  · intro _ items hfields item hitem
    have hitems : [userMessageJson (.string (ascii "hi"))] = items :=
      Json.array.inj (Option.some.inj hfields.messages)
    rw [← hitems, List.mem_singleton] at hitem
    subst hitem
    have hfits : FitsContent (ascii "hi") := ⟨by decide, by decide⟩
    exact hfits
  · intro prompt hprompt
    cases hprompt

end Sample

/-- A content that is a number is accepted and dropped. -/
theorem not_prompt_text_kept :
    ¬ ∀ (env : ParseEnv) (body : Bytes) (root : Json), env.parseWithLength body = some root →
      (∀ req, chatRequestParse env body = some req → ChatTextKept root req) ∧
        (∀ req, completionRequestParse env body = some req → CompletionTextKept root req) := by
  intro h
  have hroot : (Sample.knows Sample.numberBody Sample.numberJson).parseWithLength
      Sample.numberBody = some Sample.numberJson := by rfl
  have hkept := (h _ _ _ hroot).1
  simp only [chatRequestParse, hroot, Option.bind_some] at hkept
  have hfields : ChatFields Sample.numberJson
      [Sample.userMessageJson (.number (.fin 5))] := by
    refine ⟨rfl, by decide, by decide, fun msg hmsg => ?_⟩
    rw [List.mem_singleton] at hmsg
    subst hmsg
    exact ⟨ascii "user", rfl, by decide⟩
  exact (chat_text_kept_iff.1 hkept rfl _ hfields _ (List.mem_singleton_self _) : False)

end Professord
