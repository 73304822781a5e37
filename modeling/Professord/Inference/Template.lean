import Professord.Inference.PromptBlock

/-!
# Template — the model's chat template, from `inference_init` to the prompt

`inference_init` copies the template of the model into a field of 4096 bytes, and `inference_chat`
passes that field to `llama_chat_apply_template`: once without a buffer for the size, and once to
render.  A template that does not fit the field is cut there, and llama.cpp never sees the rest.
-/

namespace Professord

open CText

/-- `llama_chat_apply_template`: for a template, the messages and the size of the buffer, the
returned length and the bytes written. -/
abbrev ApplyTemplate : Type :=
  Bytes → List (Bytes × Bytes) → Int → Int × Bytes

/-! ## `inference_init` -/

/-- The fields of `inference_engine_t` about the template. -/
structure ChatTemplate where
  chatTemplate : CBuf 4096
  useChatmlFallback : Bool

/-- The end of `inference_init`; `tmpl` is what `llama_model_chat_template` returns, `none` the null
pointer. -/
def initTemplate (tmpl : Option Bytes) : ChatTemplate :=
  match tmpl with
  | some t =>
      if cstr t ≠ [] then
        { chatTemplate := CBuf.snprintf t, useChatmlFallback := false }
      else
        { chatTemplate := default, useChatmlFallback := true }
  | none => { chatTemplate := default, useChatmlFallback := true }

/-! ## `inference_chat` -/

/-- The template and the size of the buffer that a call of `llama_chat_apply_template` gets. -/
structure TemplateCall where
  tmpl : Bytes
  size : Int
  deriving DecidableEq, Repr

def TemplateCall.run (apply : ApplyTemplate) (messages : List ChatMessage) (call : TemplateCall) :
    Int × Bytes :=
  apply call.tmpl (messages.map fun m => (m.role.text, m.content.text)) call.size

/-- `formatted` from `build_chatml_prompt`, with the check of its size or without. -/
def chatmlBlock (checked : Bool) (messages : List ChatMessage) (allocs : Allocs) (fresh : Fresh) :
    Option RenderedCells :=
  if !allocs.chatml then
    some (.failed .backendError)
  else do
    let (cells, pos) ← chatmlCells messages fresh
    let flen := wrap32 pos
    if flen = 0 then
      some (.failed .backendError)
    else if checked ∧ flen > profMaxPromptBytes then
      some (.failed .contextOverflow)
    else
      some (.block cells.cells)

/-- `formatted` from the second call, in a block for what the first one has returned. -/
def templateBlock (needed : Int) (actual : Int × Bytes) (fresh : Fresh) : Option RenderedCells := do
  let cells ← (fresh (needed.toNat + 1)).store 0 (actual.2.take (needed.toNat + 1))
  if actual.1 ≤ 0 ∨ actual.1 > needed then
    some (.failed .backendError)
  else do
    let cells ← cells.store actual.1 [0]
    some (.block cells.cells)

/-- `inference_chat` up to `inference_complete`, and its calls of `llama_chat_apply_template`. -/
def formatChat (apply : ApplyTemplate) (eng : ChatTemplate) (messages : List ChatMessage)
    (allocs : Allocs) (fresh : Fresh) : Option RenderedCells × List TemplateCall :=
  if eng.useChatmlFallback then
    (chatmlBlock true messages allocs fresh, [])
  else if !allocs.messages then
    (some (.failed .backendError), [])
  else
    let sizing : TemplateCall := ⟨eng.chatTemplate.text, 0⟩
    let needed := (sizing.run apply messages).1
    if needed ≤ 0 then
      (chatmlBlock false messages allocs fresh, [sizing])
    else if needed > profMaxPromptBytes then
      (some (.failed .contextOverflow), [sizing])
    else if !allocs.formatted then
      (some (.failed .backendError), [sizing])
    else
      let rendering : TemplateCall := ⟨eng.chatTemplate.text, needed + 1⟩
      (templateBlock needed (rendering.run apply messages) fresh, [sizing, rendering])

/-! ## The template in full -/

/-- A call returns the length of its rendering, which is a C string, and writes as much of it as the
buffer takes; a template that it does not know is refused with a negative number.  The rendering may
depend on the call. -/
def WritesRendering (apply : ApplyTemplate)
    (rendering : Bytes → List (Bytes × Bytes) → Int → Bytes) : Prop :=
  ∀ tmpl msgs size, 0 < (apply tmpl msgs size).1 →
    (apply tmpl msgs size).1 = (rendering tmpl msgs size).length ∧
    (apply tmpl msgs size).2 = (rendering tmpl msgs size).take size.toNat ∧
    0 ∉ rendering tmpl msgs size

/-- The complete rendering: ChatML if the model has no template, or one that is refused. -/
def wholePrompt (apply : ApplyTemplate) (rendering : Bytes → List (Bytes × Bytes) → Int → Bytes)
    (tmpl : Option Bytes) (messages : List ChatMessage) : Bytes :=
  match tmpl with
  | some t =>
      let msgs := messages.map fun m => (m.role.text, m.content.text)
      let needed := (apply t msgs 0).1
      if t ≠ [] ∧ 0 < needed then rendering t msgs (needed + 1) else chatmlText messages
  | none => chatmlText messages

/-- Each call gets the template of the model, and the prompt for `inference_complete` is the
complete rendering. -/
structure TemplateInFull (apply : ApplyTemplate)
    (rendering : Bytes → List (Bytes × Bytes) → Int → Bytes) (tmpl : Option Bytes)
    (messages : List ChatMessage) (r : Option RenderedCells × List TemplateCall) : Prop where
  passed : ∀ call ∈ r.2, tmpl = some call.tmpl
  complete : ∀ cells, r.1 = some (.block cells) →
    0 ∈ cells ∧ cstr cells = wholePrompt apply rendering tmpl messages

section Calls

variable {σ χ : Type} {apply : ApplyTemplate}
  {rendering : Bytes → List (Bytes × Bytes) → Int → Bytes} {eng : ChatTemplate}
  {messages : List ChatMessage} {allocs : Allocs} {fresh : Fresh} {tmpl : Option Bytes}

/-- The block is the one of `inference_chat` with llama.cpp bound to the engine's template. -/
theorem formatChat_fst (L : Llama σ χ) (engine : Engine)
    (heng : engine.useChatmlFallback = eng.useChatmlFallback) :
    (formatChat apply eng messages allocs fresh).1 =
      renderCells { L with applyTemplate := apply eng.chatTemplate.text } engine messages allocs
        fresh := by
  unfold formatChat renderCells chatmlBlock templateBlock TemplateCall.run
  rw [heng]
  by_cases hfallback : eng.useChatmlFallback = true
  · simp only [if_pos hfallback, true_and]
  · simp only [if_neg hfallback, Bool.false_eq_true, false_and, if_false]
    split_ifs <;> rfl

/-- Every call gets what is in the engine's field. -/
theorem tmpl_of_mem_formatChat {call : TemplateCall}
    (h : call ∈ (formatChat apply eng messages allocs fresh).2) :
    eng.useChatmlFallback = false ∧ call.tmpl = eng.chatTemplate.text := by
  unfold formatChat at h
  cases hfallback : eng.useChatmlFallback with
  | true => simp [hfallback] at h
  | false =>
      refine ⟨rfl, ?_⟩
      simp only [hfallback, Bool.false_eq_true, if_false] at h
      split_ifs at h <;> simp at h
      all_goals first
        | rw [h]
        | rcases h with h | h <;> rw [h]

theorem chatmlBlock_complete {checked : Bool} {cells : Bytes}
    (h : chatmlBlock checked messages allocs fresh = some (.block cells)) :
    0 ∈ cells ∧ cstr cells = chatmlText messages := by
  obtain ⟨filled, hfilled, hnul, hcstr⟩ := chatmlCells_eq messages fresh
  unfold chatmlBlock at h
  rw [hfilled, Option.bind_eq_bind, Option.bind_some] at h
  dsimp only at h
  split_ifs at h <;> cases h
  exact ⟨hnul, hcstr⟩

/-- A rendering of at most the size that was asked for is in the block as a whole. -/
theorem templateBlock_complete {needed : Int} {actual : Int × Bytes} {text cells : Bytes}
    (hwrites : 0 < actual.1 → actual.1 = text.length ∧ actual.2 = text.take (needed + 1).toNat ∧
      0 ∉ text)
    (h : templateBlock needed actual fresh = some (.block cells)) :
    0 ∈ cells ∧ cstr cells = text := by
  unfold templateBlock at h
  obtain ⟨written, hstore, hfront, -⟩ := (fresh (needed.toNat + 1)).store_front 0
    (actual.2.take (needed.toNat + 1)) (by rw [List.length_take]; omega)
  rw [Nat.cast_zero] at hstore
  rw [hstore, Option.bind_eq_bind, Option.bind_some] at h
  by_cases hrange : actual.1 ≤ 0 ∨ actual.1 > needed
  · rw [if_pos hrange] at h
    cases h
  · rw [if_neg hrange] at h
    obtain ⟨hlen, htext, hnul⟩ := hwrites (by omega)
    have hwhole : actual.2.take (needed.toNat + 1) = text := by
      rw [htext, List.take_take]
      exact List.take_of_length_le (by omega)
    rw [hwhole, Nat.zero_add] at hfront
    have hempty : (fresh (needed.toNat + 1)).front 0 = [] := rfl
    rw [hempty, List.nil_append] at hfront
    obtain ⟨done, hdone, hterminated, hcstr⟩ := written.store_terminator text.length (by omega)
    rw [hlen, hdone, Option.bind_some] at h
    cases h
    exact ⟨hterminated, by rw [hcstr, hfront, cstr_of_zero_notMem hnul]⟩

/-- Without a template llama.cpp is not asked, and the prompt is ChatML. -/
theorem formatChat_fallback (heng : eng.useChatmlFallback = true) :
    (formatChat apply eng messages allocs fresh).2 = [] ∧
      ∀ cells, (formatChat apply eng messages allocs fresh).1 = some (.block cells) →
        0 ∈ cells ∧ cstr cells = chatmlText messages := by
  rw [formatChat, if_pos heng]
  exact ⟨rfl, fun cells h => chatmlBlock_complete h⟩

/-- With a template, the prompt is its complete rendering, or ChatML if it is refused. -/
theorem formatChat_template (happly : WritesRendering apply rendering)
    (heng : eng.useChatmlFallback = false) (htmpl : eng.chatTemplate.text ≠ []) {cells : Bytes}
    (h : (formatChat apply eng messages allocs fresh).1 = some (.block cells)) :
    0 ∈ cells ∧
      cstr cells = wholePrompt apply rendering (some eng.chatTemplate.text) messages := by
  simp only [formatChat, heng, Bool.false_eq_true, if_false] at h
  simp only [wholePrompt, htmpl, ne_eq, not_false_eq_true, true_and]
  by_cases hmessages : (!allocs.messages) = true
  · simp [hmessages] at h
  rw [if_neg hmessages] at h
  by_cases hrefused : (TemplateCall.run apply messages ⟨eng.chatTemplate.text, 0⟩).1 ≤ 0
  · have hneeded : ¬ 0 < (apply eng.chatTemplate.text
        (messages.map fun m => (m.role.text, m.content.text)) 0).1 := not_lt.2 hrefused
    rw [if_pos hrefused] at h
    rw [if_neg hneeded]
    exact chatmlBlock_complete h
  · have hneeded : 0 < (apply eng.chatTemplate.text
        (messages.map fun m => (m.role.text, m.content.text)) 0).1 := not_le.1 hrefused
    rw [if_neg hrefused] at h
    rw [if_pos hneeded]
    split_ifs at h
    · cases h
    · cases h
    · exact templateBlock_complete (happly _ _ _) h

end Calls

/-! ## The field of 4096 bytes -/

section Field

variable {apply : ApplyTemplate} {rendering : Bytes → List (Bytes × Bytes) → Int → Bytes}
  {t : Bytes}

theorem initTemplate_some (hnul : 0 ∉ t) (hne : t ≠ []) :
    (initTemplate (some t)).useChatmlFallback = false ∧
      (initTemplate (some t)).chatTemplate.text = t.take 4095 := by
  have hcstr : cstr t = t := cstr_of_zero_notMem hnul
  simp [initTemplate, CBuf.snprintf, hcstr, hne]

/-- All that is asked for is there. -/
def enoughMemory : Allocs where
  messages := true
  formatted := true
  chatml := true
  tokens := true
  chain := true
  response := true
  growth := fun _ => true

/-- The sizing call is made in any case. -/
theorem sizing_mem_formatChat {eng : ChatTemplate} {messages : List ChatMessage} {fresh : Fresh}
    (heng : eng.useChatmlFallback = false) :
    ⟨eng.chatTemplate.text, 0⟩ ∈ (formatChat apply eng messages enoughMemory fresh).2 := by
  simp only [formatChat, heng, enoughMemory, Bool.false_eq_true, if_false, Bool.not_true]
  split_ifs <;> simp

end Field

theorem templateInFull_of_chatml {apply : ApplyTemplate}
    {rendering : Bytes → List (Bytes × Bytes) → Int → Bytes} {tmpl : Option Bytes}
    {messages : List ChatMessage} {allocs : Allocs} {fresh : Fresh}
    (hfallback : (initTemplate tmpl).useChatmlFallback = true)
    (hwhole : wholePrompt apply rendering tmpl messages = chatmlText messages) :
    TemplateInFull apply rendering tmpl messages
      (formatChat apply (initTemplate tmpl) messages allocs fresh) := by
  obtain ⟨hcalls, hprompt⟩ := formatChat_fallback hfallback
  refine ⟨fun call hcall => ?_, fun cells hcells => ?_⟩
  · rw [hcalls] at hcall
    cases hcall
  · rw [hwhole]
    exact hprompt cells hcells

/-- Every later call of `inference_chat` renders with the template of the model exactly if the
template fits the field with its terminator. -/
theorem template_in_full_iff {apply : ApplyTemplate}
    {rendering : Bytes → List (Bytes × Bytes) → Int → Bytes}
    (happly : WritesRendering apply rendering) (tmpl : Option {t : Bytes // 0 ∉ t}) :
    (∀ messages allocs fresh, TemplateInFull apply rendering (tmpl.map Subtype.val) messages
      (formatChat apply (initTemplate (tmpl.map Subtype.val)) messages allocs fresh)) ↔
      ∀ t ∈ tmpl, t.1.length < 4096 := by
  constructor
  · rintro hall ⟨t, hnul⟩ rfl
    rcases eq_or_ne t [] with rfl | hne
    · exact Nat.zero_lt_succ _
    obtain ⟨hfallback, htext⟩ := initTemplate_some hnul hne
    have hpassed := (hall [] enoughMemory fun _ => .fill 0).passed _
      (sizing_mem_formatChat hfallback)
    have hsame : t = t.take 4095 := by
      rw [← htext]
      exact Option.some.inj hpassed
    have hlen := congrArg List.length hsame
    rw [List.length_take] at hlen
    change t.length < 4096
    omega
  · intro hfits messages allocs fresh
    rcases tmpl with - | ⟨t, hnul⟩
    · exact templateInFull_of_chatml rfl rfl
    rcases eq_or_ne t [] with rfl | hne
    · exact templateInFull_of_chatml rfl rfl
    obtain ⟨hfallback, htext⟩ := initTemplate_some hnul hne
    have hlen : t.length < 4096 := hfits _ rfl
    have hwhole : (initTemplate (some t)).chatTemplate.text = t := by
      rw [htext, List.take_of_length_le (by omega)]
    constructor
    · intro call hcall
      rw [(tmpl_of_mem_formatChat hcall).2]
      exact congrArg some hwhole.symm
    · intro cells hcells
      have hprompt := formatChat_template happly hfallback (by rwa [hwhole]) hcells
      rwa [hwhole] at hprompt

namespace Sample

/-- The rendering of a template that llama.cpp takes for ChatML. -/
def chatmlRendering (msgs : List (Bytes × Bytes)) : Bytes :=
  cstr (msgs.flatMap (fun m => imStart ++ m.1 ++ ascii "\n" ++ m.2 ++ imEnd) ++ imStart ++
    ascii "assistant\n")

/-- llama.cpp looks for the marks of the formats that it knows. -/
def detectChatml : ApplyTemplate := fun tmpl msgs size =>
  if imStart ∈ tmpl.tails.map (List.take 12) then
    ((chatmlRendering msgs).length, (chatmlRendering msgs).take size.toNat)
  else
    (-1, [])

theorem detectChatml_writes :
    WritesRendering detectChatml fun _ msgs _ => chatmlRendering msgs := by
  intro tmpl msgs size hpos
  unfold detectChatml at hpos ⊢
  split_ifs at hpos ⊢
  · exact ⟨rfl, rfl, zero_notMem_cstr _⟩
  · cases hpos

/-- A template of 4096 bytes, with the mark of ChatML at its end. -/
def longTemplate : {t : Bytes // 0 ∉ t} :=
  ⟨List.replicate 4084 32 ++ imStart, by
    rw [List.mem_append, List.mem_replicate]
    decide⟩

theorem length_longTemplate : longTemplate.1.length = 4096 := by
  rw [longTemplate, List.length_append, List.length_replicate]
  rfl

end Sample

/-- A template that fits: every chat is rendered with it. -/
theorem template_in_full_chatml :
    imStart.length < 4096 ∧
      ∀ messages allocs fresh, TemplateInFull Sample.detectChatml
        (fun _ msgs _ => Sample.chatmlRendering msgs) (some imStart) messages
        (formatChat Sample.detectChatml (initTemplate (some imStart)) messages allocs fresh) := by
  have hfits : imStart.length < 4096 := by decide
  refine ⟨hfits, (template_in_full_iff Sample.detectChatml_writes
    (some ⟨imStart, by decide⟩)).2 ?_⟩
  rintro t ⟨⟩
  exact hfits

theorem not_template_in_full :
    ¬ ∀ (apply : ApplyTemplate) (rendering : Bytes → List (Bytes × Bytes) → Int → Bytes)
        (tmpl : Option {t : Bytes // 0 ∉ t}) (messages : List ChatMessage) (allocs : Allocs)
        (fresh : Fresh), WritesRendering apply rendering →
        TemplateInFull apply rendering (tmpl.map Subtype.val) messages
          (formatChat apply (initTemplate (tmpl.map Subtype.val)) messages allocs fresh) := by
  intro hall
  have hne : Sample.longTemplate.1 ≠ [] := by
    rw [← List.length_pos_iff_ne_nil, Sample.length_longTemplate]
    decide
  obtain ⟨hfallback, htext⟩ := initTemplate_some Sample.longTemplate.2 hne
  have hpassed := (hall _ _ (some Sample.longTemplate) [] enoughMemory (fun _ => .fill 0)
    Sample.detectChatml_writes).passed _ (sizing_mem_formatChat hfallback)
  have hsame : Sample.longTemplate.1 = Sample.longTemplate.1.take 4095 :=
    (Option.some.inj hpassed).trans htext
  have hlen := congrArg List.length hsame
  rw [List.length_take, Sample.length_longTemplate] at hlen
  exact absurd hlen (by decide)

end Professord
