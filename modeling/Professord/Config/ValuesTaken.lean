import Professord.Config.Layering

/-!
# ValuesTaken — configured values as they are written (`config.c`)

The six string options and the integer options: what was given for them, in the lines of the file
and on the command line, against what the configuration holds once everything was accepted.
-/

namespace Professord

open CText CParse Layers

/-! ## Values as written -/

namespace ScalarOption

/-- The size of the field of a string option; `config_file` only says where the file is. -/
def textSize : ScalarOption → Option Nat
  | modelPath | pidFile | logFile => some profPathMax
  | modelAlias => some profNameMax
  | listenAddr => some profAddrMax
  | apiKey => some profKeyMax
  | _ => none

def isInteger : ScalarOption → Bool
  | nCtx | nGpuLayers | nBatch | nThreads | topK | maxTokens | maxInferenceSeconds | statsInterval
  | daemonize | logLevel => true
  | _ => false

/-- A string option has the full text, an integer option the integer of the decimal text. -/
def TakenAsWritten (o : ScalarOption) (v : Bytes) (x : OptionValue) : Prop :=
  (o.textSize.isSome = true → x = .text v) ∧
    (o.isInteger = true → ∃ n, DecimalText v n ∧ x = .int n)

/-- The text fits its field, or is the decimal text of an `int32_t`. -/
def Fits (o : ScalarOption) (v : Bytes) : Prop :=
  (∀ n, o.textSize = some n → 0 ∉ v ∧ v.length < n) ∧
    (o.isInteger = true → ∃ n, DecimalText v n ∧ InInt32 n)

theorem inInt32_wrap32 (x : Int) : InInt32 (wrap32 x) := by
  have hlow := @Int.le_bmod x (2 ^ 32) (by decide)
  have hhigh := @Int.bmod_lt x (2 ^ 32) (by decide)
  constructor
  · unfold wrap32
    omega
  · unfold wrap32
    omega

end ScalarOption

/-! ## What was given and what is read -/

/-- The text that an occurrence gives for an option. -/
def textSaid (o : ScalarOption) (e : ConfigEntry) : Option Bytes :=
  if e.1 = .scalar o then some e.2 else none

/-- The string options and the integer options. -/
def ScalarOption.isWritten (o : ScalarOption) : Bool :=
  o.textSize.isSome || o.isInteger

section Entries

theorem lastSaid_scalarSaid (o : ScalarOption) (entries : List ConfigEntry) :
    lastSaid scalarSaid o entries = (lastSaid textSaid o entries).map fun v => o.value v := by
  have hsaid : scalarSaid o = fun e => (textSaid o e).map fun v => o.value v := by
    funext e
    unfold scalarSaid textSaid
    split_ifs <;> rfl
  rw [lastSaid, lastSaid, hsaid, ← List.map_filterMap, List.getLast?_map]

theorem mem_of_lastSaid {o : ScalarOption} {v : Bytes} {entries : List ConfigEntry}
    (h : lastSaid textSaid o entries = some v) : (.scalar o, v) ∈ entries := by
  have hmem := List.mem_of_getLast? h
  obtain ⟨⟨o', v'⟩, he, hsaid⟩ := List.mem_filterMap.1 hmem
  unfold textSaid at hsaid
  split_ifs at hsaid with ho
  obtain rfl := Option.some.inj hsaid
  obtain rfl : o' = .scalar o := ho
  exact he

end Entries

namespace ScalarOption

/-- An option that has values as written has one for a text. -/
theorem TakenAsWritten.unique {o : ScalarOption} (ho : o.isWritten = true) {v : Bytes}
    {x y : OptionValue} (hx : o.TakenAsWritten v x) (hy : o.TakenAsWritten v y) : x = y := by
  rcases Bool.or_eq_true_iff.1 ho with htext | hint
  · rw [hx.1 htext, hy.1 htext]
  · obtain ⟨n, hn, rfl⟩ := hx.2 hint
    obtain ⟨m, hm, rfl⟩ := hy.2 hint
    rw [hn.unique hm]

end ScalarOption

/-! ## The configuration -/

section Taken

variable {content : Bytes} {argv : List Bytes} {cfg : Config}

end Taken

namespace Sample

end Sample

end Professord
