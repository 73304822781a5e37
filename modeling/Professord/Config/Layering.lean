import Professord.Config.Cli
import Professord.Config.Options
import Professord.Config.WholeLines
import Professord.Lib.Layers

/-!
# Layering — defaults, file and command line

An occurrence of an option is the option with its text.  The file and the arguments are read as
lists of occurrences, `iniEntries` and `cliEntries`; the two dispatch tables of the source do what
`Config.apply` does for one occurrence, and so the configuration follows one override rule.
-/

namespace Professord

open CText CParse Layers

/-! ## Options -/

inductive ScalarOption
  | modelPath
  | modelAlias
  | nCtx
  | nGpuLayers
  | nBatch
  | nThreads
  | temperature
  | topP
  | topK
  | repeatPenalty
  | maxTokens
  | listenAddr
  | apiKey
  | maxInferenceSeconds
  | statsInterval
  | daemonize
  | pidFile
  | logLevel
  | logFile
  | configFile
  deriving DecidableEq, Repr

inductive ConfigOption
  | scalar (o : ScalarOption)
  | allowIp
  deriving DecidableEq, Repr

/-- An option with the text that stands for its value. -/
abbrev ConfigEntry : Type :=
  ConfigOption × Bytes

inductive OptionValue
  | text (t : Bytes)
  | int (z : Int)
  | float (x : CFloat)
  deriving DecidableEq

namespace ScalarOption

/-- The value of the option in a configuration. -/
def get (cfg : Config) : ScalarOption → OptionValue
  | modelPath => .text cfg.modelPath.text
  | modelAlias => .text cfg.modelAlias.text
  | nCtx => .int cfg.nCtx
  | nGpuLayers => .int cfg.nGpuLayers
  | nBatch => .int cfg.nBatch
  | nThreads => .int cfg.nThreads
  | temperature => .float cfg.temperature
  | topP => .float cfg.topP
  | topK => .int cfg.topK
  | repeatPenalty => .float cfg.repeatPenalty
  | maxTokens => .int cfg.maxTokens
  | listenAddr => .text cfg.listenAddr.text
  | apiKey => .text cfg.apiKey.text
  | maxInferenceSeconds => .int cfg.maxInferenceSeconds
  | statsInterval => .int cfg.statsInterval
  | daemonize => .int cfg.daemonize
  | pidFile => .text cfg.pidFile.text
  | logLevel => .int cfg.logLevel
  | logFile => .text cfg.logFile.text
  | configFile => .text cfg.configFile.text

/-- A text as a field of `n` bytes stores it. -/
def stored (n : Nat) (v : Bytes) : OptionValue :=
  .text ((cstr v).take (n - 1))

/-- The value that a text stands for, wherever the option occurs. -/
def value (v : Bytes) : ScalarOption → OptionValue
  | modelPath | pidFile | logFile | configFile => stored profPathMax v
  | modelAlias => stored profNameMax v
  | listenAddr => stored profAddrMax v
  | apiKey => stored profKeyMax v
  | temperature | topP | repeatPenalty => .float (strtof v)
  | nCtx | nGpuLayers | nBatch | nThreads | topK | maxTokens | maxInferenceSeconds | statsInterval
  | daemonize | logLevel => .int (strtol32 v)

/-- The configuration with the option set to what the text stands for. -/
def set (cfg : Config) (v : Bytes) : ScalarOption → Config
  | modelPath => { cfg with modelPath := CBuf.snprintf v }
  | modelAlias => { cfg with modelAlias := CBuf.snprintf v }
  | nCtx => { cfg with nCtx := strtol32 v }
  | nGpuLayers => { cfg with nGpuLayers := strtol32 v }
  | nBatch => { cfg with nBatch := strtol32 v }
  | nThreads => { cfg with nThreads := strtol32 v }
  | temperature => { cfg with temperature := strtof v }
  | topP => { cfg with topP := strtof v }
  | topK => { cfg with topK := strtol32 v }
  | repeatPenalty => { cfg with repeatPenalty := strtof v }
  | maxTokens => { cfg with maxTokens := strtol32 v }
  | listenAddr => { cfg with listenAddr := CBuf.snprintf v }
  | apiKey => { cfg with apiKey := CBuf.snprintf v }
  | maxInferenceSeconds => { cfg with maxInferenceSeconds := strtol32 v }
  | statsInterval => { cfg with statsInterval := strtol32 v }
  | daemonize => { cfg with daemonize := strtol32 v }
  | pidFile => { cfg with pidFile := CBuf.snprintf v }
  | logLevel => { cfg with logLevel := strtol32 v }
  | logFile => { cfg with logFile := CBuf.snprintf v }
  | configFile => { cfg with configFile := CBuf.snprintf v }

theorem get_set_self (cfg : Config) (v : Bytes) (o : ScalarOption) :
    o.get (o.set cfg v) = o.value v := by
  cases o <;> rfl

theorem get_set_of_ne (cfg : Config) (v : Bytes) {o k : ScalarOption} (h : o ≠ k) :
    k.get (o.set cfg v) = k.get cfg := by
  cases o <;> cases k <;> first | rfl | exact absurd rfl h

end ScalarOption

/-! ## Occurrences -/

/-- The keys of the file. -/
def iniTable : List (String × ConfigOption) :=
  [("model_path", .scalar .modelPath), ("model_alias", .scalar .modelAlias),
    ("n_ctx", .scalar .nCtx), ("n_gpu_layers", .scalar .nGpuLayers),
    ("n_batch", .scalar .nBatch), ("n_threads", .scalar .nThreads),
    ("temperature", .scalar .temperature), ("top_p", .scalar .topP), ("top_k", .scalar .topK),
    ("repeat_penalty", .scalar .repeatPenalty), ("max_tokens", .scalar .maxTokens),
    ("listen_addr", .scalar .listenAddr), ("api_key", .scalar .apiKey),
    ("max_inference_seconds", .scalar .maxInferenceSeconds),
    ("stats_interval", .scalar .statsInterval), ("daemonize", .scalar .daemonize),
    ("pid_file", .scalar .pidFile), ("log_level", .scalar .logLevel),
    ("log_file", .scalar .logFile), ("allow_ip", .allowIp)]

/-- The options of the command line that take a value. -/
def cliTable : List (String × ConfigOption) :=
  [("--config", .scalar .configFile), ("--model", .scalar .modelPath),
    ("--model-alias", .scalar .modelAlias), ("--n-ctx", .scalar .nCtx),
    ("--fing-longer", .scalar .nCtx), ("--n-gpu-layers", .scalar .nGpuLayers),
    ("--n-batch", .scalar .nBatch), ("--n-threads", .scalar .nThreads),
    ("--temperature", .scalar .temperature), ("--top-p", .scalar .topP),
    ("--top-k", .scalar .topK), ("--repeat-penalty", .scalar .repeatPenalty),
    ("--max-tokens", .scalar .maxTokens), ("--listen-addr", .scalar .listenAddr),
    ("--api-key", .scalar .apiKey), ("--max-inference-seconds", .scalar .maxInferenceSeconds),
    ("--stats-interval", .scalar .statsInterval), ("--pid-file", .scalar .pidFile),
    ("--log-level", .scalar .logLevel), ("--log-file", .scalar .logFile),
    ("--allow-ip", .allowIp)]

/-- The option of a name. -/
def optionOf : List (String × ConfigOption) → Bytes → Option ConfigOption
  | [], _ => none
  | (n, o) :: table, name => if name = ascii n then some o else optionOf table name

/-- A line `key = value`; blank lines, comments and other keys say nothing. -/
def iniEntry (line : Bytes) : Option ConfigEntry :=
  let text := strip line
  if text = [] ∨ text.head? = some 35 ∨ text.head? = some 59 ∨ 61 ∉ text then
    none
  else
    (optionOf iniTable (strip (text.takeWhile (· ≠ 61)))).map fun o =>
      (o, strip ((text.dropWhile (· ≠ 61)).drop 1))

def iniEntries (content : Bytes) : List ConfigEntry :=
  (content.splitOn 10).filterMap iniEntry

/-- The occurrences among the arguments; `--daemonize` stands for the value 1. -/
def cliEntries : List Bytes → List ConfigEntry
  | [] => []
  | [arg] => if arg = ascii "--daemonize" then [(.scalar .daemonize, ascii "1")] else []
  | arg :: val :: rest =>
      if isMainOption arg then
        cliEntries (val :: rest)
      else if arg = ascii "--daemonize" then
        (.scalar .daemonize, ascii "1") :: cliEntries (val :: rest)
      else
        match optionOf cliTable arg with
        | some o => (o, val) :: cliEntries rest
        | none => []

/-- The non-empty trimmed comma-separated entries of a list. -/
def aclEntries (v : Bytes) : List Bytes :=
  ((v.splitOn 44).map strip).filter (· ≠ [])

/-! ## The override rule -/

/-- What an occurrence says on a scalar option. -/
def scalarSaid (o : ScalarOption) (e : ConfigEntry) : Option OptionValue :=
  if e.1 = .scalar o then some (o.value e.2) else none

/-- What an occurrence adds to the ACL. -/
def aclSaid (e : ConfigEntry) : List Bytes :=
  if e.1 = .allowIp then aclEntries e.2 else []

/-- What one occurrence does to a configuration. -/
def Config.apply (cfg : Config) (e : ConfigEntry) : Config :=
  match e.1 with
  | .scalar o => o.set cfg e.2
  | .allowIp => allowIp cfg e.2

/-- The entries of the ACL. -/
def Config.aclTexts (cfg : Config) : List Bytes :=
  cfg.acl.map CBuf.text

theorem Config.length_aclTexts_le (cfg : Config) : cfg.aclTexts.length ≤ profAclMax := by
  simpa [Config.aclTexts] using cfg.acl_bounded

/-- The `allow_ip` lists that fit the buffers of the source. -/
def AclFits (e : ConfigEntry) : Prop :=
  e.1 = .allowIp → e.2.length < lineMax ∧ ∀ ip ∈ aclEntries e.2, ip.length < profAddrMax

instance (e : ConfigEntry) : Decidable (AclFits e) :=
  inferInstanceAs (Decidable (_ → _))

/-- A configuration is layered from the occurrences in a file and on the command line. -/
structure Layered (ini cli : List ConfigEntry) (cfg : Config) : Prop where
  scalar : ∀ o : ScalarOption, o.get cfg =
    ((lastSaid scalarSaid o cli).or (lastSaid scalarSaid o ini)).getD (o.get configDefaults)
  acl : cfg.aclTexts = (ini.flatMap aclSaid ++ cli.flatMap aclSaid).take profAclMax

/-! ## One occurrence -/

section Occurrence

theorem get_addIp (o : ScalarOption) (cfg : Config) (tok : Bytes) :
    o.get (addIp cfg tok) = o.get cfg := by
  unfold addIp
  dsimp only
  split_ifs
  · cases o <;> rfl
  · rfl
  · rfl

theorem get_allowIp (o : ScalarOption) (cfg : Config) (v : Bytes) :
    o.get (allowIp cfg v) = o.get cfg := by
  -- each token of the list leaves the option alone
  have hfold : ∀ (toks : List Bytes) (cfg : Config), o.get (toks.foldl addIp cfg) = o.get cfg := by
    intro toks
    induction toks with
    | nil => exact fun _ => rfl
    | cons tok toks ih =>
        intro cfg
        rw [List.foldl_cons, ih, get_addIp]
  exact hfold _ _

/-- An occurrence sets its own option and leaves the others. -/
theorem apply_overrides :
    Overrides (fun cfg o => ScalarOption.get cfg o) Config.apply scalarSaid := by
  rintro cfg ⟨e, v⟩ k
  cases e with
  | scalar o =>
      by_cases h : o = k
      · subst h
        simp [Config.apply, scalarSaid, ScalarOption.get_set_self]
      · simp [Config.apply, scalarSaid, h, ScalarOption.get_set_of_ne cfg v h]
  | allowIp => simp [Config.apply, scalarSaid, get_allowIp]

/-- What a token adds to the ACL. -/
def tokenAdds (tok : Bytes) : List Bytes :=
  if strip tok = [] then [] else [strip tok]

theorem acl_addIp (cfg : Config) {tok : Bytes} (hnul : 0 ∉ tok)
    (hfits : (strip tok).length < profAddrMax) :
    (addIp cfg tok).aclTexts =
      (cfg.aclTexts ++ tokenAdds tok).take profAclMax := by
  have htext : (CBuf.snprintf (strip tok) : CBuf profAddrMax).text = strip tok :=
    CBuf.snprintf_text (fun h => hnul (mem_of_mem_strip h)) hfits
  have hkeep : cfg.aclTexts.take profAclMax = cfg.aclTexts :=
    List.take_of_length_le cfg.length_aclTexts_le
  by_cases hblank : strip tok = []
  · have hsame : addIp cfg tok = cfg := by
      simp [addIp, trim_eq_strip, hblank]
    calc (addIp cfg tok).aclTexts
        = cfg.aclTexts := by rw [hsame]
      _ = cfg.aclTexts.take profAclMax := hkeep.symm
      _ = (cfg.aclTexts ++ tokenAdds tok).take profAclMax := by
          rw [tokenAdds, if_pos hblank, List.append_nil]
  · rw [tokenAdds, if_neg hblank]
    by_cases hroom : cfg.acl.length < profAclMax
    · rw [List.take_of_length_le (by simpa [Config.aclTexts] using hroom)]
      simp [addIp, trim_eq_strip, hblank, hroom, htext, Config.aclTexts]
    · -- the list is full
      have hfull : cfg.aclTexts.length = profAclMax := by
        have hbound := cfg.acl_bounded
        rw [Config.aclTexts, List.length_map]
        omega
      rw [List.take_append_of_le_length (Nat.le_of_eq hfull.symm), hkeep]
      simp [addIp, hroom]

theorem flatMap_tokenAdds (pieces : List Bytes) :
    (pieces.filter (· ≠ [])).flatMap tokenAdds = (pieces.map strip).filter (· ≠ []) := by
  induction pieces with
  | nil => rfl
  | cons piece pieces ih =>
      by_cases hnil : piece = []
      · subst hnil
        simpa using ih
      · rw [List.filter_cons_of_pos (by simpa using hnil), List.flatMap_cons, ih, List.map_cons]
        by_cases hblank : strip piece = [] <;> simp [hblank, tokenAdds]

/-- An `allow_ip` list whose entries fit adds its entries. -/
theorem acl_allowIp (cfg : Config) {v : Bytes} (hnul : 0 ∉ v) (hlen : v.length < lineMax)
    (hfits : ∀ ip ∈ aclEntries v, ip.length < profAddrMax) :
    (allowIp cfg v).aclTexts =
      (cfg.aclTexts ++ aclEntries v).take profAclMax := by
  have hbuf : (cstr v).take (lineMax - 1) = v := by
    rw [cstr_of_zero_notMem hnul]
    exact List.take_of_length_le (by omega)
  -- one token adds one entry or none, until the list is full
  have hstep : ∀ cfg : Config, ∀ tok ∈ strtok 44 v, (addIp cfg tok).aclTexts =
      (cfg.aclTexts ++ tokenAdds tok).take profAclMax := by
    intro cfg tok htok
    have hpiece : tok ∈ v.splitOn 44 := (List.mem_filter.1 htok).1
    refine acl_addIp cfg (fun h => hnul (mem_of_mem_splitOn hpiece h)) ?_
    by_cases hblank : strip tok = []
    · rw [hblank]
      decide
    · exact hfits _ (List.mem_filter.2 ⟨List.mem_map_of_mem hpiece, by simpa using hblank⟩)
  have hfold := items_foldl hstep cfg.length_aclTexts_le
  rw [strtok, flatMap_tokenAdds] at hfold
  rw [allowIp, hbuf]
  exact hfold

/-! ## The two dispatch tables -/

theorem setConfigField_eq (cfg : Config) (key value : Bytes) :
    setConfigField cfg key value =
      ((optionOf iniTable key).map fun o => cfg.apply (o, value)).getD cfg := by
  simp only [iniTable, optionOf, apply_ite (Option.map _), apply_ite (Option.getD · cfg),
    Option.map_some, Option.map_none, Option.getD_some, Option.getD_none]
  rfl

/-- The flag says what `daemonize = 1` says. -/
theorem apply_daemonize (cfg : Config) :
    cfg.apply (.scalar .daemonize, ascii "1") = { cfg with daemonize := 1 } := by
  have hone : strtol32 (ascii "1") = 1 := by decide
  simp only [Config.apply, ScalarOption.set, hone]

theorem cliOption_daemonize (cfg : Config) (val : Bytes) :
    cliOption cfg (ascii "--daemonize") val =
      some (cfg.apply (.scalar .daemonize, ascii "1"), false) := by
  rw [apply_daemonize]
  rfl

theorem cliOption_eq (cfg : Config) {arg : Bytes} (h : arg ≠ ascii "--daemonize") (val : Bytes) :
    cliOption cfg arg val =
      (optionOf cliTable arg).map fun o => (cfg.apply (o, val), true) := by
  simp only [cliTable, optionOf, apply_ite (Option.map _), Option.map_some, Option.map_none,
    cliOption, if_neg h, ite_or]
  rfl

/-! ## Whole inputs -/

/-- The occurrence that a setting is, if its key is one of the file. -/
def settingEntry (s : Setting) : Option ConfigEntry :=
  (optionOf iniTable s.1).map fun o => (o, s.2)

theorem iniEntry_eq (line : Bytes) : iniEntry line = (lineSetting line).bind settingEntry := by
  unfold iniEntry lineSetting
  dsimp only
  split_ifs <;> rfl

/-- Settings do what their occurrences do. -/
theorem foldl_store (settings : List Setting) (cfg : Config) :
    settings.foldl Config.store cfg =
      (settings.filterMap settingEntry).foldl Config.apply cfg := by
  induction settings generalizing cfg with
  | nil => rfl
  | cons s settings ih =>
      rw [List.foldl_cons, ih, Config.store, setConfigField_eq, List.filterMap_cons, settingEntry]
      cases optionOf iniTable s.1 <;> rfl

theorem optionOf_mem {table : List (String × ConfigOption)} {name : Bytes} {o : ConfigOption}
    (h : optionOf table name = some o) : ∃ n, (n, o) ∈ table ∧ name = ascii n := by
  induction table with
  | nil => cases h
  | cons e table ih =>
      obtain ⟨n, o'⟩ := e
      rw [optionOf] at h
      split_ifs at h with hname
      · obtain rfl := Option.some.inj h
        exact ⟨n, List.mem_cons_self, hname⟩
      · obtain ⟨n', hmem, hname'⟩ := ih h
        exact ⟨n', List.mem_cons_of_mem _ hmem, hname'⟩

theorem lineEntry_iniEntry : LineEntry iniEntry where
  empty := rfl
  trimmed h := by simp only [iniEntry, h]

/-- The occurrences that are found in the pieces of the file. -/
def entriesRead (content : Bytes) : List ConfigEntry :=
  takenFrom iniEntry content

theorem filterMap_settingsRead (text : Bytes) :
    (settingsRead text).filterMap settingEntry = entriesRead text := by
  rw [settingsRead, takenFrom, List.filterMap_filterMap, entriesRead, takenFrom]
  exact List.filterMap_congr fun piece _ => (iniEntry_eq (cstr piece)).symm

theorem configLoadFile_entriesRead (cfg : Config) (content : Bytes) :
    configLoadFile cfg (some content) = ((entriesRead content).foldl Config.apply cfg, 0) := by
  rw [configLoadFile_eq_store, foldl_store, filterMap_settingsRead]

/-- A file whose lines are kept does what its occurrences do. -/
theorem configLoadFile_of_kept {content : Bytes}
    (hlines : ∀ line ∈ content.splitOn 10, KeptFor iniEntry line) (cfg : Config) :
    configLoadFile cfg (some content) = ((iniEntries content).foldl Config.apply cfg, 0) := by
  have hread : entriesRead content = iniEntries content :=
    lineEntry_iniEntry.takenFrom_file hlines
  rw [configLoadFile_entriesRead, hread]

/-- The file does what its occurrences do. -/
theorem configLoadFile_eq (cfg : Config) {content : Bytes} (hnul : 0 ∉ content)
    (hlines : ∀ line ∈ content.splitOn 10, line.length < lineMax) :
    configLoadFile cfg (some content) = ((iniEntries content).foldl Config.apply cfg, 0) := by
  refine configLoadFile_of_kept (fun line hline => ?_) cfg
  have hfree : 0 ∉ line := fun h => hnul (mem_of_mem_splitOn hline h)
  exact lineEntry_iniEntry.kept_of_length hfree (sep_notMem_of_mem_splitOn hline)
    (hlines line hline)

/-- Arguments that are accepted do what their occurrences do. -/
theorem cliLoop_ok {cfg cfg' : Config} {args : List Bytes} (h : cliLoop cfg args = .ok cfg') :
    cfg' = (cliEntries args).foldl Config.apply cfg := by
  induction args using cliEntries.induct generalizing cfg with
  | case1 =>
      cases h
      rfl
  | case2 =>
      have hhelp : isHelp (ascii "--daemonize") = false := by decide
      have hmain : isMainOption (ascii "--daemonize") = false := by decide
      simp only [cliLoop, hhelp, hmain, Bool.false_eq_true, if_false, if_true] at h
      cases h
      simp [cliEntries, apply_daemonize]
  | case3 arg hne =>
      simp only [cliLoop, if_neg hne] at h
      split_ifs at h
      cases h
      simp [cliEntries, hne]
  | case4 arg val rest hmain ih =>
      simp only [cliLoop, hmain, if_true] at h
      split_ifs at h
      rw [ih h]
      simp [cliEntries, hmain]
  | case5 val rest hmain ih =>
      simp only [cliLoop, cliOption_daemonize, if_neg hmain] at h
      split_ifs at h
      rw [ih h]
      simp [cliEntries, hmain]
  | case6 arg val rest hmain hne o ho ih =>
      simp only [cliLoop, cliOption_eq cfg hne, ho, Option.map_some, if_neg hmain] at h
      split_ifs at h
      rw [ih h]
      simp [cliEntries, hmain, hne, ho]
  | case7 arg val rest hmain hne ho =>
      simp only [cliLoop, cliOption_eq cfg hne, ho, Option.map_none, if_neg hmain] at h
      split_ifs at h

/-! ## One value in both places -/

/-- A key that is one word of the file's syntax. -/
def PlainKey (key : Bytes) : Prop :=
  key ≠ [] ∧ ∀ b ∈ key, b ∉ [0, 10, 35, 59, 61] ∧ isspace b = false

instance (key : Bytes) : Decidable (PlainKey key) :=
  @instDecidableAnd _ _ _ (List.decidableBAll _ key)

/-- The text that assigns `v` to a key in the file. -/
def assignment (key v : Bytes) : Bytes :=
  key ++ ascii " = " ++ v

theorem iniEntry_assignment {key v : Bytes} (hkey : PlainKey key) (hv : strip v = v) :
    iniEntry (assignment key v) = (optionOf iniTable key).map fun o => (o, v) := by
  rcases hkey with ⟨hne, hword⟩
  have hequals : ∀ b ∈ key ++ [32], decide (b ≠ 61) = true := by
    intro b hb
    rcases List.mem_append.1 hb with hb | hb
    · have hplain := (hword b hb).1
      simp only [List.mem_cons, not_or] at hplain
      simpa using hplain.2.2.2.2.1
    · obtain rfl := List.mem_singleton.1 hb
      decide
  have hstrip : strip (assignment key v) =
      (key ++ [32]) ++ 61 :: (32 :: v).rdropWhile isspace := by
    have hline : assignment key v = (key ++ [32]) ++ 61 :: 32 :: v := by
      simp [assignment, ascii]
    rw [hline]
    cases key with
    | nil => exact absurd rfl hne
    | cons b key =>
        have hb := (hword b List.mem_cons_self).2
        rw [List.cons_append, List.cons_append, strip_cons_of_not_isspace hb]
        exact rdropWhile_append_cons (by decide) (b :: (key ++ [32])) (32 :: v)
  have hname : strip (key ++ [32]) = key := by
    rw [strip_append_blank (by decide), strip_of_forall fun b hb => (hword b hb).2]
  have hvalue : strip ((32 :: v).rdropWhile isspace) = v := by
    rw [strip_rdropWhile, strip_cons_of_isspace (by decide), hv]
  have hhead : ¬ (strip (assignment key v) = [] ∨ (strip (assignment key v)).head? = some 35 ∨
      (strip (assignment key v)).head? = some 59 ∨ 61 ∉ strip (assignment key v)) := by
    rw [hstrip]
    cases key with
    | nil => exact absurd rfl hne
    | cons b key =>
        have hb := (hword b List.mem_cons_self).1
        simp only [List.mem_cons, not_or] at hb
        simp [hb.2.2.1, hb.2.2.2.1]
  unfold iniEntry
  simp only [if_neg hhead]
  rw [hstrip, List.takeWhile_append_of_pos hequals, List.dropWhile_append_of_pos hequals]
  simp [hname, hvalue]

/-- The file and the command line store one value for one text. -/
def SameStore : Prop :=
  ∀ key o, (key, o) ∈ iniTable → o ≠ .scalar .daemonize →
    (∃ flag, (flag, o) ∈ cliTable) ∧
    ∀ flag, (flag, o) ∈ cliTable → ∀ (cfg : Config) (prog v : Bytes),
      0 ∉ v → 10 ∉ v → strip v = v → (assignment (ascii key) v).length < lineMax →
      configParseCli cfg [prog, ascii flag, v] =
        .ok (configLoadFile cfg (some (assignment (ascii key) v))).1

theorem iniTable_plain : ∀ e ∈ iniTable,
    PlainKey (ascii e.1) ∧ optionOf iniTable (ascii e.1) = some e.2 := by
  decide +kernel

theorem cliTable_plain : ∀ e ∈ cliTable,
    isHelp (ascii e.1) = false ∧ isMainOption (ascii e.1) = false ∧
      ascii e.1 ≠ ascii "--daemonize" ∧ optionOf cliTable (ascii e.1) = some e.2 := by
  decide +kernel

theorem cliTable_covers : ∀ e ∈ iniTable, e.2 ≠ .scalar .daemonize →
    e.2 ∈ cliTable.map Prod.snd := by
  decide +kernel

theorem sameStore : SameStore := by
  intro key o hkey hdaemon
  obtain ⟨hplain, hini⟩ := iniTable_plain (key, o) hkey
  constructor
  · rcases List.mem_map.1 (cliTable_covers (key, o) hkey hdaemon) with ⟨⟨flag, o'⟩, hflag, rfl⟩
    exact ⟨flag, hflag⟩
  · intro flag hflag cfg prog v hnul hnewline hv hfits
    obtain ⟨hhelp, hmain, hne, hcli⟩ := cliTable_plain (flag, o) hflag
    have hfree : ∀ b : UInt8, b ∈ ([0, 10] : Bytes) → b ∉ v → b ∉ assignment (ascii key) v := by
      intro b hb hbv hmem
      have hblank : b ∉ ascii " = " := by
        rcases List.mem_cons.1 hb with rfl | hb
        · decide
        · obtain rfl := List.mem_singleton.1 hb
          decide
      rcases List.mem_append.1 hmem with hmem | hmem
      · rcases List.mem_append.1 hmem with hmem | hmem
        · refine (hplain.2 b hmem).1 ?_
          rcases List.mem_cons.1 hb with rfl | hb
          · simp
          · obtain rfl := List.mem_singleton.1 hb
            simp
        · exact hblank hmem
      · exact hbv hmem
    have hsplit : (assignment (ascii key) v).splitOn 10 = [assignment (ascii key) v] :=
      List.splitOn_eq_singleton (hfree 10 (by simp) hnewline)
    have hfile := configLoadFile_eq cfg (hfree 0 (by simp) hnul) (by simpa [hsplit] using hfits)
    have hentries : iniEntries (assignment (ascii key) v) = [(o, v)] := by
      rw [iniEntries, hsplit, List.filterMap_cons, iniEntry_assignment hplain hv, hini]
      rfl
    rw [hfile, hentries]
    simp [configParseCli, cliLoop, hhelp, hmain, cliOption_eq cfg hne, hcli]

end Occurrence

/-! ## Layering -/

theorem zero_notMem_iniEntries {content : Bytes} (h : 0 ∉ content) {e : ConfigEntry}
    (he : e ∈ iniEntries content) : 0 ∉ e.2 := by
  rcases List.mem_filterMap.1 he with ⟨line, hline, hentry⟩
  unfold iniEntry at hentry
  dsimp only at hentry
  split_ifs at hentry
  rcases Option.map_eq_some_iff.1 hentry with ⟨o, _, rfl⟩
  intro hmem
  have htail := List.mem_of_mem_drop (mem_of_mem_strip hmem)
  have htext := (List.dropWhile_sublist _).subset htail
  exact h (mem_of_mem_splitOn hline (mem_of_mem_strip htext))

theorem zero_notMem_cliEntries {args : List Bytes} (h : ∀ a ∈ args, 0 ∉ a) {e : ConfigEntry}
    (he : e ∈ cliEntries args) : 0 ∉ e.2 := by
  have hone : (0 : UInt8) ∉ ascii "1" := by decide
  induction args using cliEntries.induct with
  | case1 => cases he
  | case2 =>
      obtain rfl : e = (.scalar .daemonize, ascii "1") := by simpa [cliEntries] using he
      exact hone
  | case3 arg hne => simp [cliEntries, hne] at he
  | case4 arg val rest hmain ih =>
      exact ih (fun a ha => h a (List.mem_cons_of_mem _ ha)) (by simpa [cliEntries, hmain] using he)
  | case5 val rest hmain ih =>
      rw [cliEntries, if_neg hmain, if_pos rfl] at he
      rcases List.mem_cons.1 he with rfl | he
      · exact hone
      · exact ih (fun a ha => h a (List.mem_cons_of_mem _ ha)) he
  | case6 arg val rest hmain hne o ho ih =>
      simp only [cliEntries, if_neg hmain, if_neg hne, ho] at he
      rcases List.mem_cons.1 he with rfl | he
      · exact h val (by simp)
      · exact ih (fun a ha => h a (by simp [ha])) he
  | case7 arg val rest hmain hne ho => simp [cliEntries, hmain, hne, ho] at he

/-- An occurrence whose list fits adds its entries to the ACL. -/
theorem aclTexts_apply (cfg : Config) {e : ConfigEntry} (hnul : 0 ∉ e.2) (hfits : AclFits e) :
    (cfg.apply e).aclTexts = (cfg.aclTexts ++ aclSaid e).take profAclMax := by
  rcases e with ⟨o, v⟩
  cases o with
  | scalar o =>
      have hsame : (o.set cfg v).aclTexts = cfg.aclTexts := by cases o <;> rfl
      simp [Config.apply, aclSaid, hsame, List.take_of_length_le cfg.length_aclTexts_le]
  | allowIp =>
      obtain ⟨hlen, hips⟩ := hfits rfl
      exact acl_allowIp cfg hnul hlen hips

/-- The occurrences in the file, and then those on the command line. -/
def occurrences (content : Bytes) (argv : List Bytes) : List ConfigEntry :=
  iniEntries content ++ cliEntries (argv.drop 1)

section Start

variable {content : Bytes} {argv : List Bytes} {cfg : Config}

theorem zero_notMem_occurrences (hnul : 0 ∉ content) (hargs : ∀ arg ∈ argv, 0 ∉ arg) :
    ∀ e ∈ occurrences content argv, 0 ∉ e.2 := by
  intro e he
  rcases List.mem_append.1 he with he | he
  · exact zero_notMem_iniEntries hnul he
  · exact zero_notMem_cliEntries (fun a ha => hargs a (List.mem_of_mem_drop ha)) he

/-- A configuration that is accepted is what the occurrences make of the defaults. -/
theorem configParseCli_ok (hnul : 0 ∉ content)
    (hlines : ∀ line ∈ content.splitOn 10, line.length < lineMax)
    (hok : configParseCli (configLoadFile configDefaults (some content)).1 argv = .ok cfg) :
    cfg = (occurrences content argv).foldl Config.apply configDefaults := by
  rw [configLoadFile_eq configDefaults hnul hlines] at hok
  rw [cliLoop_ok hok, occurrences, List.foldl_append]

/-- The ACL has the first of the entries of all lists. -/
theorem aclTexts_occurrences (hnul : 0 ∉ content) (hargs : ∀ arg ∈ argv, 0 ∉ arg)
    (hacl : ∀ e ∈ occurrences content argv, AclFits e) :
    ((occurrences content argv).foldl Config.apply configDefaults).aclTexts =
      ((occurrences content argv).flatMap aclSaid).take profAclMax := by
  have hfree := zero_notMem_occurrences hnul hargs
  have hstep : ∀ s : Config, ∀ e ∈ occurrences content argv,
      (s.apply e).aclTexts = (s.aclTexts ++ aclSaid e).take profAclMax :=
    fun s e he => aclTexts_apply s (hfree e he) (hacl e he)
  exact items_foldl hstep configDefaults.length_aclTexts_le

/-- After the defaults, the file and the command line, every scalar option has the value of its
last occurrence, the command line before the file, and the ACL has the first entries of all. -/
theorem config_layered {content : Bytes} {argv : List Bytes} {cfg : Config}
    (hnul : 0 ∉ content) (hlines : ∀ line ∈ content.splitOn 10, line.length < lineMax)
    (hargs : ∀ arg ∈ argv, 0 ∉ arg)
    (hok : configParseCli (configLoadFile configDefaults (some content)).1 argv = .ok cfg)
    (hacl : ∀ e ∈ iniEntries content ++ cliEntries (argv.drop 1), AclFits e) :
    Layered (iniEntries content) (cliEntries (argv.drop 1)) cfg ∧ SameStore := by
  have hcfg := configParseCli_ok hnul hlines hok
  refine ⟨⟨fun o => ?_, ?_⟩, sameStore⟩
  · have hget := get_foldl apply_overrides (occurrences content argv) configDefaults o
    rw [← hcfg, occurrences, lastSaid_append] at hget
    exact hget
  · have hitems := aclTexts_occurrences hnul hargs hacl
    rw [← hcfg, occurrences, List.flatMap_append] at hitems
    exact hitems

end Start

namespace Sample

def iniFile : Bytes :=
  ascii "# defaults\nmodel_path = /from/file.gguf\nn_ctx = 2048\nallow_ip = 10.0.0.1, 10.0.0.2\n"

def arguments : List Bytes :=
  [ascii "professord", ascii "--n-ctx", ascii "4096", ascii "--allow-ip", ascii "192.168.0.7",
    ascii "--daemonize"]

theorem config_layered_iniFile :
    ∃ cfg, configParseCli (configLoadFile configDefaults (some iniFile)).1 arguments = .ok cfg ∧
      Layered (iniEntries iniFile) (cliEntries (arguments.drop 1)) cfg ∧ SameStore :=
  ⟨_, rfl, config_layered (by decide) (by decide) (by decide) rfl (by decide)⟩

end Sample

end Professord
