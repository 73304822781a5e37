import Professord.Inference.Chat
import Professord.Lib.CArray

/-!
# PromptBlock — the memory block that `inference_chat` passes on

`formatted` is filled by `build_chatml_prompt` or by the model's template, in a block whose bytes
are what `malloc` left there.  Every store is checked.  On each path the block is terminated; that
it is no longer than `PROF_MAX_PROMPT_BYTES` is checked for an engine without a template and for a
template's result, and not after the fallback from a template that llama.cpp refuses.
-/

namespace Professord

open CText

variable {σ χ ω : Type}

/-- What `malloc(n)` returns. -/
abbrev Fresh : Type :=
  (n : Nat) → CArray UInt8 n

/-- `build_chatml_prompt`: the block and `pos`. -/
def chatmlCells (messages : List ChatMessage) (fresh : Fresh) :
    Option (CArray UInt8 (chatmlNeeded messages + 1) × Nat) := do
  let needed := chatmlNeeded messages
  let lines ← messages.foldlM (fun s m => s.1.snprintfAt s.2 (chatmlMessage m))
    (fresh (needed + 1), 0)
  lines.1.snprintfAt lines.2 (imStart ++ ascii "assistant\n")

/-- The block for `inference_complete`, or the reason why there is none. -/
inductive RenderedCells
  | block (cells : Bytes)
  | failed (reason : FinishReason)

def renderCells (L : Llama σ χ) (eng : Engine) (messages : List ChatMessage) (allocs : Allocs)
    (fresh : Fresh) : Option RenderedCells :=
  if eng.useChatmlFallback then
    if !allocs.chatml then
      some (.failed .backendError)
    else do
      let (cells, pos) ← chatmlCells messages fresh
      let flen := wrap32 pos
      if flen = 0 then
        some (.failed .backendError)
      else if flen > profMaxPromptBytes then
        some (.failed .contextOverflow)
      else
        some (.block cells.cells)
  else if !allocs.messages then
    some (.failed .backendError)
  else
    let chatMsgs := messages.map fun m => (m.role.text, m.content.text)
    let needed := (L.applyTemplate chatMsgs 0).1
    if needed ≤ 0 then
      if !allocs.chatml then
        some (.failed .backendError)
      else do
        -- the fallback has no size check
        let (cells, pos) ← chatmlCells messages fresh
        if wrap32 pos = 0 then
          some (.failed .backendError)
        else
          some (.block cells.cells)
    else if needed > profMaxPromptBytes then
      some (.failed .contextOverflow)
    else if !allocs.formatted then
      some (.failed .backendError)
    else do
      let actual := L.applyTemplate chatMsgs (needed + 1)
      -- the template writes at most the size it is given
      let cells ← (fresh (needed.toNat + 1)).store 0 (actual.2.take (needed.toNat + 1))
      if actual.1 ≤ 0 ∨ actual.1 > needed then
        some (.failed .backendError)
      else do
        let cells ← cells.store actual.1 [0]
        some (.block cells.cells)

/-- `inference_chat` on that block. -/
def inferenceChatCells (L : Llama σ χ) (eng : Engine) (fuel : Nat) (params : SampleParams)
    (env : RunEnv) (cb : TokenCallback ω) (messages : List ChatMessage)
    (promptTokens completionTokens : Int) (fresh : Fresh) (ctx : σ) (user : ω) :
    Option (Outcome σ ω) :=
  (renderCells L eng messages env.allocs fresh).map fun
    | .failed reason =>
        { ret := some (-1)
          finish := reason
          promptTokens := promptTokens
          completionTokens := completionTokens
          ctx := ctx
          user := user }
    | .block cells => inferenceComplete L eng fuel params env cb cells ctx user

/-! ## The ChatML block -/

theorem zero_notMem_chatmlText (messages : List ChatMessage) : 0 ∉ chatmlText messages := by
  have hstart : (0 : UInt8) ∉ imStart := by decide
  have hend : (0 : UInt8) ∉ imEnd := by decide
  have hnl : (0 : UInt8) ∉ ascii "\n" := by decide
  have hlast : (0 : UInt8) ∉ ascii "assistant\n" := by decide
  simp only [chatmlText, chatmlMessage, List.mem_append, List.mem_flatMap, not_or, not_exists,
    not_and]
  exact ⟨⟨fun m _ => ⟨⟨⟨⟨hstart, m.role.noNul⟩, hnl⟩, m.content.noNul⟩, hend⟩, hstart⟩, hlast⟩

/-- The buffer is large enough, and ends with the terminator of the last line. -/
theorem chatmlCells_eq (messages : List ChatMessage) (fresh : Fresh) :
    ∃ cells, chatmlCells messages fresh = some (cells, (chatmlText messages).length) ∧
      0 ∈ cells.cells ∧ cstr cells.cells = chatmlText messages := by
  have hfits := length_chatmlText_le messages
  have hlen : (chatmlText messages).length = (messages.flatMap chatmlMessage).length +
      (imStart ++ ascii "assistant\n").length := by
    rw [chatmlText, List.append_assoc, List.length_append]
  rcases (fresh (chatmlNeeded messages + 1)).snprintfAt_foldlM chatmlMessage messages 0
    (by omega) with ⟨lines, hlines, hfront⟩
  rw [Nat.zero_add] at hlines hfront
  -- the last `snprintf` appends the opening of the assistant's turn
  rcases lines.snprintfAt_front (messages.flatMap chatmlMessage).length
    (imStart ++ ascii "assistant\n") (by omega) with ⟨cells, hprint, _, hlast⟩
  rw [← hlen, hfront] at hlast
  have hempty : (fresh (chatmlNeeded messages + 1)).front 0 = [] := rfl
  rw [hempty, List.nil_append] at hlast
  have hblock := CArray.cstr_of_front hlast
  have htext : chatmlText messages =
      messages.flatMap chatmlMessage ++ imStart ++ ascii "assistant\n" := rfl
  rw [← List.append_assoc, ← htext, cstr_of_zero_notMem (zero_notMem_chatmlText messages)]
    at hblock
  refine ⟨cells, ?_, hblock⟩
  rw [chatmlCells]
  simp only [Option.bind_eq_bind]
  rw [hlines, Option.bind_some, hprint, hlen]

/-! ## The limit -/

section Limit

variable (L : Llama σ χ) (eng : Engine) (messages : List ChatMessage) (allocs : Allocs)

/-- What the first call of `llama_chat_apply_template` returns. -/
def templateNeeded : Int :=
  (L.applyTemplate (messages.map fun m => (m.role.text, m.content.text)) 0).1

/-- The length of the prompt on the path that is taken, if it comes to rendering one. -/
def renderedLength : Option Int :=
  if eng.useChatmlFallback then
    if allocs.chatml then some (chatmlText messages).length else none
  else if !allocs.messages then
    none
  else if templateNeeded L messages ≤ 0 then
    if allocs.chatml then some (chatmlText messages).length else none
  else
    some (templateNeeded L messages)

/-- The ChatML text that is rendered, if any, is not over the limit, or the check of an engine
without a template sees that it is (`flen` is an `int32_t`). -/
def SizeChecked : Prop :=
  allocs.chatml = true →
    if eng.useChatmlFallback then
      (chatmlText messages).length ≤ profMaxPromptBytes ∨
        wrap32 (chatmlText messages).length > profMaxPromptBytes
    else
      allocs.messages = true → templateNeeded L messages ≤ 0 →
        (chatmlText messages).length ≤ profMaxPromptBytes

/-- `inference_complete` is only called with a terminated prompt within the limit, and a longer one
is refused as an overflow. -/
structure PromptLimited (fuel : Nat) (params : SampleParams) (env : RunEnv)
    (cb : TokenCallback ω) (fresh : Fresh) (ctx : σ) (user : ω) : Prop where
  defined : renderCells L eng messages env.allocs fresh ≠ none
  called : ∀ cells, renderCells L eng messages env.allocs fresh = some (.block cells) →
    0 ∈ cells ∧ (cstr cells).length ≤ profMaxPromptBytes
  refused : ∀ n, renderedLength L eng messages env.allocs = some n → n > profMaxPromptBytes →
    ∀ promptTokens completionTokens, ∃ outcome,
      inferenceChatCells L eng fuel params env cb messages promptTokens completionTokens fresh
        ctx user = some outcome ∧
      outcome.ret = some (-1) ∧ outcome.finish = .contextOverflow

variable {L eng messages} {fuel : Nat} {params : SampleParams} {env : RunEnv}
  {cb : TokenCallback ω} {fresh : Fresh} {ctx : σ} {user : ω}

theorem limited_of_block {cells : Bytes}
    (h : renderCells L eng messages env.allocs fresh = some (.block cells)) (hnul : 0 ∈ cells)
    (hlen : (cstr cells).length ≤ profMaxPromptBytes)
    (hshort : ∀ n, renderedLength L eng messages env.allocs = some n → n ≤ profMaxPromptBytes) :
    PromptLimited L eng messages fuel params env cb fresh ctx user where
  defined := by simp [h]
  called cells' h' := by
    rw [h] at h'
    cases h'
    exact ⟨hnul, hlen⟩
  refused n hn hlong := absurd (hshort n hn) (not_le.2 hlong)

theorem limited_of_failed {reason : FinishReason}
    (h : renderCells L eng messages env.allocs fresh = some (.failed reason))
    (hreason : ∀ n, renderedLength L eng messages env.allocs = some n → n > profMaxPromptBytes →
      reason = .contextOverflow) :
    PromptLimited L eng messages fuel params env cb fresh ctx user where
  defined := by simp [h]
  called cells h' := by
    rw [h] at h'
    cases h'
  refused n hn hlong _ _ :=
    ⟨_, by rw [inferenceChatCells, h]; rfl, rfl, hreason n hn hlong⟩

/-- The two ways in which a text over the limit is not refused as an overflow. -/
theorem not_limited {n : Int} (hn : renderedLength L eng messages env.allocs = some n)
    (hlong : n > profMaxPromptBytes) {cells : Bytes} (hcells : ((cstr cells).length : Int) = n)
    (h : renderCells L eng messages env.allocs fresh = some (.block cells) ∨
      renderCells L eng messages env.allocs fresh = some (.failed .backendError)) :
    ¬ PromptLimited L eng messages fuel params env cb fresh ctx user := by
  intro hlimited
  rcases h with hblock | hfailed
  -- the prompt is passed on although it is over the limit
  · have hlen := (hlimited.called cells hblock).2
    omega
  -- it is refused, but for the wrong reason
  · obtain ⟨outcome, houtcome, _, hfinish⟩ := hlimited.refused n hn hlong 0 0
    rw [inferenceChatCells, hfailed] at houtcome
    cases houtcome
    cases hfinish

/-- A length within the limit is its own `flen`. -/
theorem wrap32_length {n : Nat} (hn : n ≤ profMaxPromptBytes) : wrap32 n = n := by
  have hmax : (profMaxPromptBytes : Int) < 2 ^ 31 := by decide
  exact wrap32_of_inInt32 ⟨by omega, by omega⟩

theorem length_chatmlText (messages : List ChatMessage) :
    (chatmlText messages).length =
      (messages.map fun m => m.role.text.length + m.content.text.length + 24).sum + 22 := by
  have hstart : imStart.length = 12 := by decide
  have hend : imEnd.length = 11 := by decide
  have hnl : (ascii "\n").length = 1 := by decide
  have hlast : (ascii "assistant\n").length = 10 := by decide
  have hone : ∀ m, (chatmlMessage m).length = m.role.text.length + m.content.text.length + 24 := by
    intro m
    simp only [chatmlMessage, List.length_append, hstart, hend, hnl]
    omega
  rw [chatmlText, List.length_append, List.length_append, List.length_flatMap, hstart, hlast]
  simp only [hone]

/-! ### The three paths -/

variable (L messages fresh) in
theorem renderCells_engine (heng : eng.useChatmlFallback = true) {allocs : Allocs}
    (halloc : allocs.chatml = true) :
    ∃ cells, 0 ∈ cells ∧ cstr cells = chatmlText messages ∧
      renderCells L eng messages allocs fresh =
        some (if wrap32 (chatmlText messages).length = 0 then .failed .backendError
          else if wrap32 (chatmlText messages).length > profMaxPromptBytes then
            .failed .contextOverflow
          else .block cells) := by
  rcases chatmlCells_eq messages fresh with ⟨cells, hcells, hnul, hcstr⟩
  refine ⟨cells.cells, hnul, hcstr, ?_⟩
  rw [renderCells, if_pos heng, halloc, if_neg (by decide), hcells, Option.bind_eq_bind,
    Option.bind_some]
  dsimp only
  generalize (profMaxPromptBytes : Int) = limit
  split_ifs <;> rfl

variable (L messages fresh) in
theorem renderCells_fallback (heng : ¬ eng.useChatmlFallback = true) {allocs : Allocs}
    (hmsgs : allocs.messages = true) (hneeded : templateNeeded L messages ≤ 0)
    (halloc : allocs.chatml = true) :
    ∃ cells, 0 ∈ cells ∧ cstr cells = chatmlText messages ∧
      renderCells L eng messages allocs fresh =
        some (if wrap32 (chatmlText messages).length = 0 then .failed .backendError
          else .block cells) := by
  rcases chatmlCells_eq messages fresh with ⟨cells, hcells, hnul, hcstr⟩
  rw [templateNeeded] at hneeded
  refine ⟨cells.cells, hnul, hcstr, ?_⟩
  rw [renderCells, if_neg heng, hmsgs, if_neg (by decide)]
  dsimp only
  rw [if_pos hneeded, halloc, if_neg (by decide), hcells, Option.bind_eq_bind, Option.bind_some]
  dsimp only
  split_ifs <;> rfl

variable (fresh) in
/-- On the template's path the block is terminated within the size the first call asked for, and
holds what the second call wrote. -/
theorem renderCells_template (heng : ¬ eng.useChatmlFallback = true) {allocs : Allocs}
    (hmsgs : allocs.messages = true) (hneeded : ¬ templateNeeded L messages ≤ 0)
    (hshort : ¬ templateNeeded L messages > profMaxPromptBytes) :
    renderCells L eng messages allocs fresh = some (.failed .backendError) ∧
        renderChat L eng messages allocs = .failed .backendError ∨
      ∃ cells actual, 0 ∈ cells ∧ (cstr cells).length ≤ profMaxPromptBytes ∧
        renderCells L eng messages allocs fresh = some (.block cells) ∧
        actual = L.applyTemplate (messages.map fun m => (m.role.text, m.content.text))
          (templateNeeded L messages + 1) ∧
        renderChat L eng messages allocs = .prompt (actual.2.take actual.1.toNat) ∧
        (actual.1 ≤ actual.2.length → cstr cells = cstr (actual.2.take actual.1.toNat)) := by
  rw [templateNeeded] at hneeded hshort ⊢
  rw [renderCells, renderChat, if_neg heng, if_neg heng, hmsgs]
  simp only [Bool.not_true, Bool.false_eq_true, if_false, if_neg hneeded, if_neg hshort]
  generalize (L.applyTemplate (messages.map fun m => (m.role.text, m.content.text)) 0).1 =
    needed at *
  by_cases hformatted : (!allocs.formatted) = true
  · exact .inl ⟨by rw [if_pos hformatted], by rw [if_pos hformatted]⟩
  · rw [if_neg hformatted, if_neg hformatted]
    generalize L.applyTemplate (messages.map fun m => (m.role.text, m.content.text))
      (needed + 1) = actual
    rcases (fresh (needed.toNat + 1)).store_front 0
      (actual.2.take (needed.toNat + 1)) (by rw [List.length_take]; omega) with
      ⟨written, hstore, hfront, _⟩
    rw [Nat.cast_zero] at hstore
    simp only [hstore, Option.bind_eq_bind, Option.bind_some]
    by_cases hrange : actual.1 ≤ 0 ∨ actual.1 > needed
    · exact .inl ⟨by rw [if_pos hrange], by rw [if_pos hrange]⟩
    · -- `formatted[actual]` is inside the block, since `actual ≤ needed`
      have hactual : actual.1 = (actual.1.toNat : Int) := by omega
      rcases written.store_terminator actual.1.toNat (by omega) with
        ⟨done, hdone, hnul, hcstr⟩
      have hlen := (List.takeWhile_prefix (· ≠ 0) (l := written.front actual.1.toNat)).length_le
      rw [written.length_front (by omega), ← cstr, ← hcstr] at hlen
      refine .inr ⟨done.cells, actual, hnul, by omega, ?_, rfl, by rw [if_neg hrange], ?_⟩
      · rw [if_neg hrange, hactual, hdone, Option.bind_some]
      · intro hreported
        have htext : written.front actual.1.toNat = actual.2.take actual.1.toNat := by
          have hsize : actual.1.toNat ≤ (actual.2.take (needed.toNat + 1)).length := by
            rw [List.length_take]
            omega
          have hall : written.front (0 + (actual.2.take (needed.toNat + 1)).length) =
              actual.2.take (needed.toNat + 1) := by
            rw [hfront]
            rfl
          calc
            written.front actual.1.toNat
                = (written.front (0 + (actual.2.take (needed.toNat + 1)).length)).take
                    actual.1.toNat := by
                  rw [CArray.front, CArray.front, List.take_take, Nat.min_eq_left (by omega)]
            _ = actual.2.take actual.1.toNat := by
                  rw [hall, List.take_take, Nat.min_eq_left (by omega)]
        rw [hcstr, htext]

/-! ### Refinement of the rendered text -/

/-- The block holds the prompt, or rendering fails for the same reason. -/
def RenderedCells.Refines (r : RenderedCells) : Rendered → Prop
  | .failed reason => r = .failed reason
  | .prompt text => ∃ cells, r = .block cells ∧ cstr cells = cstr text

variable (messages) in
theorem renderChatml_eq {allocs : Allocs} (halloc : allocs.chatml = true) :
    renderChatml messages allocs =
      if wrap32 (chatmlText messages).length = 0 then .failed .backendError
      else .prompt (chatmlText messages) := by
  rw [renderChatml, halloc, buildChatmlPrompt_eq]

theorem renderChatml_noBlock {allocs : Allocs} (halloc : allocs.chatml = false) :
    renderChatml messages allocs = .failed .backendError := by
  rw [renderChatml, halloc]
  rfl

/-- If a template writes what it reports, the block that is passed on is the text of `renderChat`. -/
theorem renderCells_refines (allocs : Allocs)
    (hwrites : ∀ msgs n, (L.applyTemplate msgs n).1 ≤ (L.applyTemplate msgs n).2.length) :
    ∃ r, renderCells L eng messages allocs fresh = some r ∧
      r.Refines (renderChat L eng messages allocs) := by
  by_cases heng : eng.useChatmlFallback = true
  · cases halloc : allocs.chatml with
    | false =>
        rw [renderCells, renderChat, if_pos heng, if_pos heng, renderChatml_noBlock halloc, halloc]
        exact ⟨_, rfl, rfl⟩
    | true =>
        rcases renderCells_engine L messages fresh heng halloc with
          ⟨cells, _, hcstr, hrender⟩
        have htext := cstr_of_zero_notMem (zero_notMem_chatmlText messages)
        by_cases hzero : wrap32 (chatmlText messages).length = 0
        · rw [if_pos hzero] at hrender
          have hchat : renderChat L eng messages allocs = .failed .backendError := by
            rw [renderChat, if_pos heng, renderChatml_eq _ halloc, if_pos hzero]
          exact ⟨_, hrender, by rw [hchat]; exact Eq.refl _⟩
        · have hchat : renderChat L eng messages allocs =
              if wrap32 (chatmlText messages).length > profMaxPromptBytes then
                .failed .contextOverflow
              else .prompt (chatmlText messages) := by
            rw [renderChat, if_pos heng, renderChatml_eq _ halloc, if_neg hzero]
          rw [if_neg hzero] at hrender
          by_cases hlong : wrap32 (chatmlText messages).length > profMaxPromptBytes
          · rw [if_pos hlong] at hrender hchat
            exact ⟨_, hrender, by rw [hchat]; exact Eq.refl _⟩
          · rw [if_neg hlong] at hrender hchat
            exact ⟨_, hrender, by rw [hchat]; exact ⟨cells, rfl, hcstr.trans htext.symm⟩⟩
  · cases hmsgs : allocs.messages with
    | false =>
        rw [renderCells, renderChat, if_neg heng, if_neg heng, hmsgs]
        exact ⟨_, rfl, rfl⟩
    | true =>
        by_cases hneeded : templateNeeded L messages ≤ 0
        · have hrefused := hneeded
          rw [templateNeeded] at hrefused
          have hchat : renderChat L eng messages allocs = renderChatml messages allocs := by
            rw [renderChat, if_neg heng, hmsgs, if_neg (by decide)]
            dsimp only
            rw [if_pos hrefused]
          rw [hchat]
          cases halloc : allocs.chatml with
          | false =>
              rw [renderCells, if_neg heng, hmsgs, if_neg (by decide)]
              dsimp only
              rw [if_pos hrefused, halloc, renderChatml_noBlock halloc]
              exact ⟨_, rfl, rfl⟩
          | true =>
              rcases renderCells_fallback L messages fresh heng
                hmsgs hneeded halloc with ⟨cells, _, hcstr, hrender⟩
              have htext := cstr_of_zero_notMem (zero_notMem_chatmlText messages)
              have hchatml := renderChatml_eq messages halloc
              by_cases hzero : wrap32 (chatmlText messages).length = 0
              · rw [if_pos hzero] at hrender hchatml
                exact ⟨_, hrender, by rw [hchatml]; exact Eq.refl _⟩
              · rw [if_neg hzero] at hrender hchatml
                exact ⟨_, hrender, by rw [hchatml]; exact ⟨cells, rfl, hcstr.trans htext.symm⟩⟩
        · by_cases hlong : templateNeeded L messages > profMaxPromptBytes
          · rw [templateNeeded] at hneeded hlong
            rw [renderCells, renderChat, if_neg heng, if_neg heng, hmsgs]
            simp only [Bool.not_true, Bool.false_eq_true, if_false, if_neg hneeded, if_pos hlong]
            exact ⟨_, rfl, rfl⟩
          · rcases renderCells_template fresh heng hmsgs hneeded hlong with
              ⟨hfailed, hchat⟩ | ⟨cells, actual, _, _, hblock, hactual, hchat, htext⟩
            · rw [hchat]
              exact ⟨_, hfailed, rfl⟩
            · rw [hchat]
              exact ⟨_, hblock, cells, rfl, htext (hactual ▸ hwrites _ _)⟩

/-! ### The limit on each path -/

theorem limited_of_unrendered
    (h : renderCells L eng messages env.allocs fresh = some (.failed .backendError))
    (hnone : renderedLength L eng messages env.allocs = none) :
    PromptLimited L eng messages fuel params env cb fresh ctx user :=
  limited_of_failed h fun n hn => by
    rw [hnone] at hn
    cases hn

/-- A ChatML block within the limit. -/
theorem limited_of_chatml
    (hlength : renderedLength L eng messages env.allocs = some ((chatmlText messages).length : Int))
    (hshort : (chatmlText messages).length ≤ profMaxPromptBytes) {cells : Bytes} (hnul : 0 ∈ cells)
    (hcstr : cstr cells = chatmlText messages)
    (h : renderCells L eng messages env.allocs fresh = some (.block cells)) :
    PromptLimited L eng messages fuel params env cb fresh ctx user := by
  refine limited_of_block h hnul (by rwa [hcstr]) ?_
  intro n hn
  rw [hlength] at hn
  cases hn
  exact Int.ofNat_le.2 hshort

theorem limit_engine_iff (heng : eng.useChatmlFallback = true)
    (halloc : env.allocs.chatml = true) :
    PromptLimited L eng messages fuel params env cb fresh ctx user ↔
      (chatmlText messages).length ≤ profMaxPromptBytes ∨
        wrap32 (chatmlText messages).length > profMaxPromptBytes := by
  rcases renderCells_engine L messages fresh heng halloc with
    ⟨cells, hnul, hcstr, hrender⟩
  have hlength : renderedLength L eng messages env.allocs =
      some ((chatmlText messages).length : Int) := by
    rw [renderedLength, if_pos heng, if_pos halloc]
  have hpos := length_chatmlText messages
  by_cases hshort : (chatmlText messages).length ≤ profMaxPromptBytes
  · have hflen := wrap32_length hshort
    rw [if_neg (by omega), if_neg (by omega)] at hrender
    exact iff_of_true (limited_of_chatml hlength hshort hnul hcstr hrender) (.inl hshort)
  · by_cases hflen : wrap32 (chatmlText messages).length > profMaxPromptBytes
    · rw [if_neg (by omega), if_pos hflen] at hrender
      exact iff_of_true (limited_of_failed hrender fun _ _ _ => rfl) (.inr hflen)
    · -- the length has wrapped around, to zero or below the limit
      refine iff_of_false (not_limited hlength (by omega) (by rw [hcstr]) ?_)
        fun h => h.elim hshort hflen
      rw [if_neg hflen] at hrender
      by_cases hzero : wrap32 (chatmlText messages).length = 0
      · exact .inr (by rw [hrender, if_pos hzero])
      · exact .inl (by rw [hrender, if_neg hzero])

theorem limit_fallback_iff (heng : ¬ eng.useChatmlFallback = true)
    (hmsgs : env.allocs.messages = true) (hneeded : templateNeeded L messages ≤ 0)
    (halloc : env.allocs.chatml = true) :
    PromptLimited L eng messages fuel params env cb fresh ctx user ↔
      (chatmlText messages).length ≤ profMaxPromptBytes := by
  rcases renderCells_fallback L messages fresh heng hmsgs hneeded
    halloc with ⟨cells, hnul, hcstr, hrender⟩
  have hlength : renderedLength L eng messages env.allocs =
      some ((chatmlText messages).length : Int) := by
    simp [renderedLength, heng, hmsgs, hneeded, halloc]
  have hpos := length_chatmlText messages
  by_cases hshort : (chatmlText messages).length ≤ profMaxPromptBytes
  · have hflen := wrap32_length hshort
    rw [if_neg (by omega)] at hrender
    exact iff_of_true (limited_of_chatml hlength hshort hnul hcstr hrender) hshort
  -- nothing tests the size here: the text goes on unless its length wraps to zero
  · refine iff_of_false (not_limited hlength (by omega) (by rw [hcstr]) ?_) hshort
    by_cases hzero : wrap32 (chatmlText messages).length = 0
    · exact .inr (by rw [hrender, if_pos hzero])
    · exact .inl (by rw [hrender, if_neg hzero])

theorem limit_template (heng : ¬ eng.useChatmlFallback = true)
    (hmsgs : env.allocs.messages = true) (hneeded : ¬ templateNeeded L messages ≤ 0) :
    PromptLimited L eng messages fuel params env cb fresh ctx user := by
  have hlength : renderedLength L eng messages env.allocs = some (templateNeeded L messages) := by
    simp [renderedLength, heng, hmsgs, hneeded]
  by_cases hlong : templateNeeded L messages > profMaxPromptBytes
  -- the size that the first call reports is tested before the block is allocated
  · have hfailed : renderCells L eng messages env.allocs fresh =
        some (.failed .contextOverflow) := by
      rw [templateNeeded] at hneeded hlong
      rw [renderCells, if_neg heng, hmsgs, if_neg (by decide)]
      dsimp only
      rw [if_neg hneeded, if_pos hlong]
    exact limited_of_failed hfailed fun _ _ _ => rfl
  · have hle : ∀ n, renderedLength L eng messages env.allocs = some n →
        n ≤ profMaxPromptBytes := by
      intro n hn
      rw [hlength] at hn
      cases hn
      exact not_lt.1 hlong
    rcases renderCells_template fresh heng hmsgs hneeded hlong with
      ⟨hfailed, _⟩ | ⟨cells, _, hnul, hlen, hblock, _⟩
    · exact limited_of_failed hfailed fun n hn h => absurd (hle n hn) (not_le.2 h)
    · exact limited_of_block hblock hnul hlen hle

/-- Only prompts within the limit reach inference, and a longer one is refused as an overflow,
exactly if the size of a ChatML text is checked wherever it is over the limit. -/
theorem prompt_limit_iff :
    PromptLimited L eng messages fuel params env cb fresh ctx user ↔
      SizeChecked L eng messages env.allocs := by
  unfold SizeChecked
  by_cases heng : eng.useChatmlFallback = true
  · rw [if_pos heng]
    cases halloc : env.allocs.chatml with
    | false =>
        refine iff_of_true (limited_of_unrendered ?_ ?_) (by simp)
        · rw [renderCells, if_pos heng, halloc, if_pos (by decide)]
        · simp [renderedLength, heng, halloc]
    | true => exact (limit_engine_iff heng halloc).trans ⟨fun h _ => h, fun h => h rfl⟩
  · rw [if_neg heng]
    cases hmsgs : env.allocs.messages with
    | false =>
        refine iff_of_true (limited_of_unrendered ?_ ?_) (by simp)
        · rw [renderCells, if_neg heng, hmsgs, if_pos (by decide)]
        · simp [renderedLength, heng, hmsgs]
    | true =>
        by_cases hneeded : templateNeeded L messages ≤ 0
        · cases halloc : env.allocs.chatml with
          | false =>
              have hrefused := hneeded
              rw [templateNeeded] at hrefused
              refine iff_of_true (limited_of_unrendered ?_ ?_) (by simp)
              · rw [renderCells, if_neg heng, hmsgs, if_neg (by decide)]
                dsimp only
                rw [if_pos hrefused, halloc, if_pos (by decide)]
              · simp [renderedLength, heng, hmsgs, hneeded, halloc]
          | true =>
              exact (limit_fallback_iff heng hmsgs hneeded halloc).trans
                ⟨fun h _ _ _ => h, fun h => h rfl rfl hneeded⟩
        · exact iff_of_true (limit_template heng hmsgs hneeded) fun _ _ h => absurd h hneeded

end Limit

namespace Sample

/-- An engine whose model has a template. -/
def templateEngine : Engine :=
  { engine with useChatmlFallback := false }

def longMessage : ChatMessage where
  role := CBuf.snprintf (ascii "user")
  content :=
    { text := List.replicate 65535 97
      fits := by rw [List.length_replicate]; exact Nat.lt_succ_self 65535
      noNul := fun h => absurd (List.eq_of_mem_replicate h) (by decide) }

theorem length_longMessages :
    profMaxPromptBytes < (chatmlText (List.replicate 5 longMessage)).length := by
  have hcontent : longMessage.content.text.length = 65535 := List.length_replicate
  have hlimit : profMaxPromptBytes = 262144 := by decide
  rw [length_chatmlText]
  simp only [List.map_replicate, List.sum_replicate_nat, hcontent]
  omega

end Sample

/-- A template that llama.cpp refuses, and five messages of 65535 bytes. -/
theorem not_prompt_limit :
    ¬ ∀ (σ χ ω : Type) (L : Llama σ χ) (eng : Engine) (messages : List ChatMessage) (fuel : Nat)
      (params : SampleParams) (env : RunEnv) (cb : TokenCallback ω) (fresh : Fresh) (ctx : σ)
      (user : ω), PromptLimited L eng messages fuel params env cb fresh ctx user := by
  intro h
  have hlimited := h Sample.Ctx Unit Unit (Sample.byteModel (fun _ => 0) fun _ => 0)
    Sample.templateEngine (List.replicate 5 Sample.longMessage) 0 default Sample.calm
    (fun _ _ user => (0, user)) (fun _ => .fill 0) default ()
  have hneeded : templateNeeded (Sample.byteModel (fun _ => 0) fun _ => 0)
      (List.replicate 5 Sample.longMessage) ≤ 0 := le_refl _
  exact absurd ((limit_fallback_iff (by decide) rfl hneeded rfl).1 hlimited)
    (not_le.2 Sample.length_longMessages)

end Professord
