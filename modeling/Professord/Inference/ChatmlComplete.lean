import Mathlib.Algebra.Order.BigOperators.Group.List
import Professord.Api.Parse
import Professord.Inference.PromptBlock

/-!
# ChatmlComplete — the text and the length that `build_chatml_prompt` returns

The size is counted by hand, 27 bytes for a message whose marks take 24, and 24 for a last line of
22, so no `snprintf` is cut.  The length goes out as an `int32_t`.
-/

namespace Professord

open CText

/-- `build_chatml_prompt` with a block from `malloc`: the returned string and `*out_len`. -/
def chatmlResult (messages : List ChatMessage) (fresh : Fresh) : Option (Bytes × Int) :=
  (chatmlCells messages fresh).map fun r => (cstr r.1.cells, wrap32 r.2)

/-- Each `snprintf` finds room for its text and the terminator. -/
structure Untruncated (messages : List ChatMessage) : Prop where
  line : ∀ front m back, messages = front ++ m :: back →
    (front.flatMap chatmlMessage).length + (chatmlMessage m).length < chatmlNeeded messages + 1
  last : (messages.flatMap chatmlMessage).length + (imStart ++ ascii "assistant\n").length <
    chatmlNeeded messages + 1

/-- The rendering is the concatenation of the messages, in full, and its length is reported. -/
structure ChatmlComplete (messages : List ChatMessage) (fresh : Fresh) : Prop where
  untruncated : Untruncated messages
  result : chatmlResult messages fresh =
    some (chatmlText messages, ((chatmlText messages).length : Int))

theorem untruncated (messages : List ChatMessage) : Untruncated messages := by
  have hfits := length_chatmlText_le messages
  have hlen : (chatmlText messages).length = (messages.flatMap chatmlMessage).length +
      (imStart ++ ascii "assistant\n").length := by
    rw [chatmlText, List.append_assoc, List.length_append]
  refine ⟨?_, by omega⟩
  rintro front m back rfl
  rw [List.flatMap_append, List.flatMap_cons] at hlen
  simp only [List.length_append] at hlen hfits ⊢
  omega

theorem chatmlResult_eq (messages : List ChatMessage) (fresh : Fresh) :
    chatmlResult messages fresh =
      some (chatmlText messages, wrap32 (chatmlText messages).length) := by
  rcases chatmlCells_eq messages fresh with ⟨cells, hcells, _, hcstr⟩
  rw [chatmlResult, hcells, Option.map_some, hcstr]

/-- An `int32_t` holds a length exactly below `2^31`. -/
theorem wrap32_eq_length_iff (n : Nat) : wrap32 n = (n : Int) ↔ n < 2 ^ 31 := by
  constructor
  · intro h
    have hrange := Int.bmod_lt (x := (n : Int)) (show 0 < 2 ^ 32 by norm_num)
    rw [wrap32] at h
    omega
  · intro h
    exact wrap32_of_inInt32 ⟨by omega, by omega⟩

/-- The messages that a request may have are far from the limit of the length. -/
theorem length_chatmlText_lt {messages : List ChatMessage}
    (h : messages.length ≤ profMaxMessages) : (chatmlText messages).length < 2 ^ 31 := by
  have hone : ∀ m ∈ messages,
      m.role.text.length + m.content.text.length + 24 ≤ 65590 := by
    intro m _
    have hrole : m.role.text.length < 32 := m.role.fits
    have hcontent : m.content.text.length < 65536 := m.content.fits
    omega
  have hsum := List.sum_le_card_nsmul
    (messages.map fun m => m.role.text.length + m.content.text.length + 24) 65590 (by
      intro n hn
      rcases List.mem_map.1 hn with ⟨m, hm, rfl⟩
      exact hone m hm)
  rw [length_chatmlText]
  rw [List.length_map, Nat.nsmul_eq_mul] at hsum
  have hmax : messages.length ≤ 64 := h
  omega

/-- For every list of messages no `snprintf` is cut and the returned text is the whole rendering;
`*out_len` is its length as an `int32_t`, which is its length exactly below `2^31` bytes, and so for
all messages that `chat_request_parse` lets through. -/
theorem chatml_complete (messages : List ChatMessage) (fresh : Fresh) :
    Untruncated messages ∧
      chatmlResult messages fresh =
        some (chatmlText messages, wrap32 (chatmlText messages).length) ∧
      (ChatmlComplete messages fresh ↔ (chatmlText messages).length < 2 ^ 31) ∧
      (messages.length ≤ profMaxMessages → ChatmlComplete messages fresh) := by
  have hiff : ChatmlComplete messages fresh ↔ (chatmlText messages).length < 2 ^ 31 := by
    rw [← wrap32_eq_length_iff]
    constructor
    · intro h
      have hresult := h.result
      rw [chatmlResult_eq] at hresult
      exact (Prod.mk.inj (Option.some.inj hresult)).2
    · intro h
      exact ⟨untruncated messages, by rw [chatmlResult_eq, h]⟩
  exact ⟨untruncated messages, chatmlResult_eq messages fresh, hiff,
    fun h => hiff.2 (length_chatmlText_lt h)⟩

namespace Sample

theorem length_manyMessages :
    (chatmlText (List.replicate 32768 longMessage)).length = 2148368406 := by
  have hcontent : longMessage.content.text.length = 65535 := List.length_replicate
  have hrole : longMessage.role.text.length = 4 := by decide
  rw [length_chatmlText]
  simp only [List.map_replicate, List.sum_replicate_nat, hcontent, hrole]

end Sample

/-- The length of 32768 messages of 65535 bytes wraps around. -/
theorem not_chatml_complete :
    ¬ ∀ (messages : List ChatMessage) (fresh : Fresh), ChatmlComplete messages fresh := by
  intro h
  have hresult := (h (List.replicate 32768 Sample.longMessage) fun _ => .fill 0).result
  rw [chatmlResult_eq] at hresult
  have hlen := (Prod.mk.inj (Option.some.inj hresult)).2
  rw [Sample.length_manyMessages] at hlen
  exact absurd hlen (by decide)

end Professord
