import Professord.Config.ValuesTaken
import Professord.Lib.Hex
import Professord.Runtime.Gate

/-!
# KeyGate — from `--gen-api-key` to the gate

A key that `main` prints, put into the file or on the command line, is what the server asks for.
-/

namespace Professord

open CText CParse Layers

/-- What `--gen-api-key` prints: `urandom` are the bytes that `read` gets for a block of 32. -/
def genApiKey (urandom : Option Bytes) : Option Bytes :=
  match urandom with
  | none => none
  | some buf => if buf.length ≠ 32 then none else some (Hex.text buf ++ ascii "\n")

/-- The key is given to the server, in a line of the file or after `--api-key`, and nothing else is
said on it. -/
structure KeyGiven (key content : Bytes) (argv : List Bytes) : Prop where
  given : assignment (ascii "api_key") key ∈ content.splitOn 10 ∨
    (.scalar .apiKey, key) ∈ cliEntries (argv.drop 1)
  only : ∀ v, (.scalar .apiKey, v) ∈ occurrences content argv → v = key

section Key

variable {content key buf : Bytes} {argv : List Bytes} {cfg : Config}

theorem isspace_of_isDigitByte {b : UInt8} (h : Hex.isDigitByte b = true) : isspace b = false := by
  have hge : 48 ≤ b.toNat := by
    simp only [Hex.isDigitByte, Bool.or_eq_true, Bool.and_eq_true, decide_eq_true_eq,
      UInt8.le_iff_toNat_le, UInt8.reduceToNat] at h
    omega
  have hne : b ≠ 32 := by
    rintro rfl
    exact absurd hge (by decide)
  have hnot : ¬ (9 ≤ b ∧ b ≤ 13) := by
    simp only [UInt8.le_iff_toNat_le, UInt8.reduceToNat]
    omega
  simp [isspace, hne, hnot]

/-- A generated key is one word. -/
theorem hexText_word (buf : Bytes) : 0 ∉ Hex.text buf ∧ strip (Hex.text buf) = Hex.text buf := by
  refine ⟨fun hmem => ?_, strip_of_forall fun b hb => ?_⟩
  · exact absurd (Hex.isDigitByte_of_mem hmem) (by decide)
  · exact isspace_of_isDigitByte (Hex.isDigitByte_of_mem hb)

theorem apiKey_mem_occurrences (hkey : strip key = key) (hgiven : KeyGiven key content argv) :
    (.scalar .apiKey, key) ∈ occurrences content argv := by
  rcases hgiven.given with hline | hargs
  · have hplain : PlainKey (ascii "api_key") := by decide
    have hentry : iniEntry (assignment (ascii "api_key") key) = some (.scalar .apiKey, key) := by
      rw [iniEntry_assignment hplain hkey]
      rfl
    exact List.mem_append_left _ (List.mem_filterMap.2 ⟨_, hline, hentry⟩)
  · exact List.mem_append_right _ hargs

/-- The configuration has the key as the field stores it. -/
theorem apiKey_of_given (hnul : 0 ∉ content)
    (hlines : ∀ line ∈ content.splitOn 10, line.length < lineMax)
    (hok : configParseCli (configLoadFile configDefaults (some content)).1 argv = .ok cfg)
    (hkey : strip key = key) (hgiven : KeyGiven key content argv) :
    cfg.apiKey.text = (cstr key).take (profKeyMax - 1) := by
  have hcfg := configParseCli_ok hnul hlines hok
  have hget := get_foldl apply_overrides (occurrences content argv) configDefaults .apiKey
  rw [← hcfg, lastSaid_scalarSaid] at hget
  have hlast : lastSaid textSaid .apiKey (occurrences content argv) = some key := by
    cases hsaid : lastSaid textSaid .apiKey (occurrences content argv) with
    | none =>
        have hempty := List.getLast?_eq_none_iff.1 hsaid
        rw [List.filterMap_eq_nil_iff] at hempty
        exact absurd (hempty _ (apiKey_mem_occurrences hkey hgiven)) (by simp [textSaid])
    | some v => rw [hgiven.only v (mem_of_lastSaid hsaid)]
  rw [hlast] at hget
  exact OptionValue.text.inj hget

theorem genApiKey_eq (h : genApiKey (some buf) = some (key ++ ascii "\n")) :
    buf.length = 32 ∧ key = Hex.text buf := by
  unfold genApiKey at h
  dsimp only at h
  split_ifs at h with hlen
  exact ⟨not_not.1 hlen, (List.append_cancel_right (Option.some.inj h)).symm⟩

/-- The server lets in who shows the key that was generated, and nobody else. -/
theorem generated_key_opens (hgen : genApiKey (some buf) = some (key ++ ascii "\n"))
    (hnul : 0 ∉ content) (hlines : ∀ line ∈ content.splitOn 10, line.length < lineMax)
    (hok : configParseCli (configLoadFile configDefaults (some content)).1 argv = .ok cfg)
    (hgiven : KeyGiven key content argv) (mg : Mongoose) (hm : HttpMessage) :
    (checkAuth mg hm cfg = 0 ↔
      mg.httpGetHeader hm (ascii "Authorization") = some (bearer ++ key)) ∧
    ∀ buf' key', genApiKey (some buf') = some (key' ++ ascii "\n") → buf' ≠ buf →
      mg.httpGetHeader hm (ascii "Authorization") = some (bearer ++ key') →
      checkAuth mg hm cfg ≠ 0 := by
  obtain ⟨hlen, rfl⟩ := genApiKey_eq hgen
  obtain ⟨hnulKey, hword⟩ := hexText_word buf
  have hlength : (Hex.text buf).length = 64 := by rw [Hex.length_text, hlen]
  have htext : cfg.apiKey.text = Hex.text buf := by
    rw [apiKey_of_given hnul hlines hok hword hgiven, cstr_of_zero_notMem hnulKey,
      List.take_of_length_le (by rw [hlength]; decide)]
  have hset : cfg.apiKey.text ≠ [] := by
    rw [htext, ← List.length_pos_iff_ne_nil, hlength]
    decide
  have hgate : checkAuth mg hm cfg = 0 ↔
      mg.httpGetHeader hm (ascii "Authorization") = some (bearer ++ Hex.text buf) := by
    rw [checkAuth_eq_zero_iff hset, Authorized, htext]
  refine ⟨hgate, fun buf' key' hgen' hne hheader hopen => hne ?_⟩
  obtain ⟨-, rfl⟩ := genApiKey_eq hgen'
  rw [hgate, hheader] at hopen
  exact Hex.text_injective (List.append_cancel_left (Option.some.inj hopen))

end Key

namespace Sample

def keyBytes : Bytes :=
  List.replicate 32 171

def keyedFile : Bytes :=
  ascii "model_path = m.gguf\n" ++ assignment (ascii "api_key") (Hex.text keyBytes) ++ ascii "\n"

theorem genApiKey_keyBytes :
    genApiKey (some keyBytes) = some (Hex.text keyBytes ++ ascii "\n") :=
  rfl

theorem keyGiven_keyedFile : KeyGiven (Hex.text keyBytes) keyedFile [ascii "professord"] where
  given := .inl (by decide)
  only := by
    have hall : occurrences keyedFile [ascii "professord"] =
        [(.scalar .modelPath, ascii "m.gguf"), (.scalar .apiKey, Hex.text keyBytes)] := by decide
    rw [hall]
    intro v hv
    simpa using hv

/-- The printed key opens, another generated one does not. -/
theorem generated_key_opens_keyedFile :
    ∃ cfg, configParseCli (configLoadFile configDefaults (some keyedFile)).1
        [ascii "professord"] = .ok cfg ∧
      checkAuth Mongoose.literal (modelsRequest (bearer ++ Hex.text keyBytes)) cfg = 0 ∧
      checkAuth Mongoose.literal
        (modelsRequest (bearer ++ Hex.text (List.replicate 32 172))) cfg ≠ 0 :=
  ⟨_, rfl,
    (generated_key_opens genApiKey_keyBytes (by decide) (by decide) rfl
      keyGiven_keyedFile _ _).1.2 (by decide),
    (generated_key_opens genApiKey_keyBytes (by decide) (by decide) rfl
      keyGiven_keyedFile _ _).2
      (List.replicate 32 172) _ rfl (by decide) (by decide)⟩

end Sample

end Professord
