import Professord.Config.ValuesTaken

/-!
# ConfigScan — how `main` finds its INI file (`main.c`)

`main` looks for `--config` itself before it parses the command line, and takes the first argument
with that text, wherever it stands.  `config_parse_cli` takes the last one that is an option.
-/

namespace Professord

open CText Layers

/-! ## The start of `main` -/

/-- `main` returns before it reads any configuration. -/
def exitsEarly (argv : List Bytes) : Bool :=
  (argv.drop 1).any fun arg =>
    arg == ascii "--version" || arg == ascii "-v" || arg == ascii "--recommend" ||
      arg == ascii "--gen-api-key"

/-- The argument after the first `--config`. -/
def scanConfig : List Bytes → Option Bytes
  | [] => none
  | [_] => none
  | arg :: val :: rest => if arg = ascii "--config" then some val else scanConfig (val :: rest)

inductive MainStart
  | exited
  | loadFailed
  | parsed (result : CliResult)

/-- The steps of `main` up to `config_parse_cli`: the file that it loads, if any, and how it goes on.
`files` are the contents of the files that can be read. -/
def mainStart (files : Bytes → Option Bytes) (argv : List Bytes) : Option Bytes × MainStart :=
  if exitsEarly argv then
    (none, .exited)
  else
    let cfg :=
      match scanConfig (argv.drop 1) with
      | some val => { configDefaults with configFile := CBuf.snprintf val }
      | none => configDefaults
    if cfg.configFile.text ≠ [] then
      let loaded := configLoadFile cfg (files cfg.configFile.text)
      (some cfg.configFile.text,
        if loaded.2 ≠ 0 then .loadFailed else .parsed (configParseCli loaded.1 argv))
    else
      (none, .parsed (configParseCli cfg argv))

/-! ## The rule -/

/-- The file that a configuration names. -/
def Config.namedFile (cfg : Config) : Option Bytes :=
  if cfg.configFile.text = [] then none else some cfg.configFile.text

/-- Unless `main` exits before, it loads the file that `config_parse_cli` finds. -/
def LoadsParsedFile (argv : List Bytes) (cfg : Config) : Prop :=
  exitsEarly argv = false → ∀ files, (mainStart files argv).1 = cfg.namedFile

/-- What is stored of a path. -/
def storedPath (val : Bytes) : Bytes :=
  (cstr val).take (profPathMax - 1)

/-- The value of the last option `--config`. -/
def lastConfig (args : List Bytes) : Option Bytes :=
  lastSaid textSaid .configFile (cliEntries args)

/-- An option without a value. -/
def isFlag (arg : Bytes) : Bool :=
  isMainOption arg || arg == ascii "--daemonize"

/-- After these arguments comes an option, not the value of one. -/
def optionNext : List Bytes → Bool
  | [] => true
  | [arg] => isFlag arg
  | arg :: val :: rest => if isFlag arg then optionNext (val :: rest) else optionNext rest

/-- The first argument `--config`, the last argument apart, and the one after it. -/
structure FirstConfig (args front : List Bytes) (val : Bytes) : Prop where
  split : ∃ back, args = front ++ ascii "--config" :: val :: back
  first : ascii "--config" ∉ front

/-- Where the two scans find the same file. -/
inductive ScanAgrees (args : List Bytes) : Prop
  | absent (h : ascii "--config" ∉ args.dropLast)
  /-- the first `--config` is an option, and the last one has the same value -/
  | option (front : List Bytes) (val last : Bytes) (hfirst : FirstConfig args front val)
      (hoption : optionNext front = true) (hlast : lastConfig args = some last)
      (hsame : storedPath last = storedPath val)
  /-- the first `--config` is the value of an option, and the last option `--config` has the name of
  the option that follows for its value -/
  | value (front : List Bytes) (name last : Bytes) (hfirst : FirstConfig args front name)
      (hvalue : optionNext front = false) (hlast : lastConfig args = some last)
      (hsame : storedPath last = name)

/-! ## The two scans -/

section Scan

variable {args front back rest : List Bytes} {arg val : Bytes} {cfg cfg' : Config}

theorem scanConfig_eq_none (h : ascii "--config" ∉ args.dropLast) : scanConfig args = none := by
  induction args using scanConfig.induct with
  | case1 => rfl
  | case2 arg => rfl
  | case3 val rest => simp at h
  | case4 arg val rest hne ih =>
      rw [scanConfig, if_neg hne]
      exact ih fun hmem => h (by simpa using .inr hmem)

theorem FirstConfig.scanConfig (h : FirstConfig args front val) : scanConfig args = some val := by
  obtain ⟨⟨back, rfl⟩, hfirst⟩ := h
  induction front with
  | nil => simp [Professord.scanConfig]
  | cons arg front ih =>
      rw [List.mem_cons, not_or] at hfirst
      have hrest := ih hfirst.2
      cases front with
      | nil => simp [Professord.scanConfig, Ne.symm hfirst.1]
      | cons next front => simpa [Professord.scanConfig, Ne.symm hfirst.1] using hrest

theorem exists_firstConfig (h : ascii "--config" ∈ args.dropLast) :
    ∃ front val, FirstConfig args front val := by
  induction args using Professord.scanConfig.induct with
  | case1 => simp at h
  | case2 arg => simp at h
  | case3 val rest => exact ⟨[], val, ⟨rest, rfl⟩, by simp⟩
  | case4 arg val rest hne ih =>
      have hlater : ascii "--config" ∈ (val :: rest).dropLast := by
        simpa [Ne.symm hne] using h
      obtain ⟨front, val', ⟨back, hsplit⟩, hfirst⟩ := ih hlater
      refine ⟨arg :: front, val', ⟨back, by rw [hsplit]; rfl⟩, ?_⟩
      rw [List.mem_cons, not_or]
      exact ⟨Ne.symm hne, hfirst⟩

/-- What an accepted command line starts with: an option, and its value if it takes one. -/
theorem cliLoop_cons_ok (h : cliLoop cfg (arg :: rest) = .ok cfg') :
    (isFlag arg = true ∧ (∃ cfg₁, cliLoop cfg₁ rest = .ok cfg') ∧
        ∃ es, cliEntries (arg :: rest) = es ++ cliEntries rest) ∨
      (isFlag arg = false ∧ ∃ val rest' o, rest = val :: rest' ∧ optionOf cliTable arg = some o ∧
        (∃ cfg₁, cliLoop cfg₁ rest' = .ok cfg') ∧
        cliEntries (arg :: rest) = (o, val) :: cliEntries rest') := by
  cases rest with
  | nil =>
      refine .inl ⟨?_, ⟨cfg', rfl⟩, cliEntries [arg], by simp [cliEntries]⟩
      simp only [cliLoop] at h
      split_ifs at h with hhelp hmain hdaemon
      · simp [isFlag, hmain]
      · simp [isFlag, hdaemon]
  | cons val rest =>
      simp only [cliLoop] at h
      split_ifs at h with hhelp hmain
      · exact .inl ⟨by simp [isFlag, hmain], ⟨cfg, h⟩, [], by simp [cliEntries, hmain]⟩
      · by_cases hdaemon : arg = ascii "--daemonize"
        · subst hdaemon
          rw [cliOption_daemonize] at h
          exact .inl ⟨by decide, ⟨_, h⟩, [(.scalar .daemonize, ascii "1")],
            by simp [cliEntries, hmain]⟩
        · rw [cliOption_eq cfg hdaemon] at h
          cases ho : optionOf cliTable arg with
          | none => simp [ho] at h
          | some o =>
              simp only [ho, Option.map_some] at h
              exact .inr ⟨by simp [isFlag, hmain, hdaemon], val, rest, o, rfl, rfl, ⟨_, h⟩,
                by simp [cliEntries, hmain, hdaemon, ho]⟩

/-- After the arguments of whole options the command line goes on like one of its own. -/
theorem cliLoop_append_ok (hfront : optionNext front = true)
    (h : cliLoop cfg (front ++ rest) = .ok cfg') :
    (∃ cfg₁, cliLoop cfg₁ rest = .ok cfg') ∧
      ∃ es, cliEntries (front ++ rest) = es ++ cliEntries rest := by
  induction front using optionNext.induct generalizing cfg with
  | case1 => exact ⟨⟨cfg, h⟩, [], rfl⟩
  | case2 arg =>
      rcases cliLoop_cons_ok h with ⟨_, hrest, hentries⟩ | ⟨hvalue, _⟩
      · exact ⟨hrest, hentries⟩
      · rw [optionNext, hvalue] at hfront
        cases hfront
  | case3 arg val front hflag ih =>
      rw [optionNext, if_pos hflag] at hfront
      rcases cliLoop_cons_ok h with ⟨_, ⟨cfg₁, hrest⟩, es, hentries⟩ | ⟨hvalue, _⟩
      · obtain ⟨hok, es', hentries'⟩ := ih hfront hrest
        refine ⟨hok, es ++ es', ?_⟩
        rw [List.append_assoc, ← hentries']
        exact hentries
      · rw [hflag] at hvalue
        cases hvalue
  | case4 arg val front hvalue ih =>
      rw [optionNext, if_neg hvalue] at hfront
      rcases cliLoop_cons_ok h with ⟨hflag, _⟩ | ⟨_, val', rest', o, hsplit, _, ⟨cfg₁, hrest⟩, hentries⟩
      · exact absurd hflag hvalue
      · obtain ⟨rfl, rfl⟩ := List.cons.inj hsplit
        obtain ⟨hok, es, hentries'⟩ := ih hfront hrest
        exact ⟨hok, (o, val) :: es, hentries.trans (congrArg _ hentries')⟩

/-- The value of an option is followed by an option. -/
theorem optionNext_concat (hfront : optionNext front = false) (arg : Bytes) :
    optionNext (front ++ [arg]) = true := by
  induction front using optionNext.induct with
  | case1 => cases hfront
  | case2 first =>
      rw [optionNext] at hfront
      simp [optionNext, hfront]
  | case3 first val front hflag ih =>
      rw [optionNext, if_pos hflag] at hfront
      have hrest := ih hfront
      simpa [optionNext, hflag] using hrest
  | case4 first val front hvalue ih =>
      rw [optionNext, if_neg hvalue] at hfront
      have hrest := ih hfront
      simpa [optionNext, hvalue] using hrest

end Scan

/-! ## Options and their names -/

section Names

variable {args : List Bytes} {arg : Bytes} {o : ConfigOption}

theorem cliTable_configFile : ∀ e ∈ cliTable, e.2 = .scalar .configFile → e.1 = "--config" := by
  decide

/-- A path is stored as it is when it is the name of an option. -/
theorem cliTable_names : ∀ e ∈ cliTable, storedPath (ascii e.1) = ascii e.1 ∧ ascii e.1 ≠ [] := by
  decide +kernel

theorem optionOf_configFile (h : optionOf cliTable arg = some (.scalar .configFile)) :
    arg = ascii "--config" := by
  obtain ⟨n, hn, rfl⟩ := optionOf_mem h
  obtain rfl := cliTable_configFile _ hn rfl
  rfl

theorem storedPath_option (h : optionOf cliTable arg = some o) :
    storedPath arg = arg ∧ arg ≠ [] := by
  obtain ⟨n, hn, rfl⟩ := optionOf_mem h
  exact cliTable_names _ hn

theorem storedPath_flag (h : isFlag arg = true) : storedPath arg = arg ∧ arg ≠ [] := by
  simp only [isFlag, isMainOption, Bool.or_eq_true, beq_iff_eq] at h
  rcases h with (rfl | rfl) | rfl <;> decide +kernel

/-- Without the text there is no such option. -/
theorem configFile_notMem_cliEntries (h : ascii "--config" ∉ args.dropLast) (val : Bytes) :
    (.scalar .configFile, val) ∉ cliEntries args := by
  induction args using cliEntries.induct with
  | case1 => simp [cliEntries]
  | case2 => simp [cliEntries]
  | case3 arg hne => simp [cliEntries, hne]
  | case4 arg val' rest hmain ih =>
      rw [cliEntries, if_pos hmain]
      exact ih fun hmem => h (by simpa using .inr hmem)
  | case5 val' rest hmain ih =>
      rw [cliEntries, if_neg hmain, if_pos rfl, List.mem_cons, not_or]
      exact ⟨by simp, ih fun hmem => h (by simpa using .inr hmem)⟩
  | case6 arg val' rest hmain hne o ho ih =>
      simp only [cliEntries, if_neg hmain, if_neg hne, ho, List.mem_cons, not_or]
      constructor
      · intro heq
        obtain ⟨rfl, -⟩ := Prod.mk.inj heq
        rw [optionOf_configFile ho] at h
        simp at h
      · refine ih fun hmem => h ?_
        cases rest with
        | nil => simp at hmem
        | cons next rest => simpa using .inr (.inr hmem)
  | case7 arg val' rest hmain hne ho => simp [cliEntries, hmain, hne, ho]

theorem lastConfig_eq_none (h : ascii "--config" ∉ args.dropLast) : lastConfig args = none := by
  cases hlast : lastConfig args with
  | none => rfl
  | some val => exact absurd (mem_of_lastSaid hlast) (configFile_notMem_cliEntries h val)

end Names

/-! ## Agreement -/

section Agreement

variable {argv args front : List Bytes} {val : Bytes} {cfg : Config}

/-- An option `--config` is among the occurrences. -/
theorem exists_lastConfig {cfg₀ : Config} (hok : cliLoop cfg₀ args = .ok cfg)
    (hfirst : FirstConfig args front val) (hfront : optionNext front = true) :
    ∃ last, lastConfig args = some last := by
  obtain ⟨⟨back, rfl⟩, -⟩ := hfirst
  obtain ⟨⟨cfg₁, hrest⟩, es, hentries⟩ := cliLoop_append_ok hfront hok
  have hoption : optionOf cliTable (ascii "--config") = some (.scalar .configFile) := by decide
  have hmem : (.scalar .configFile, val) ∈ cliEntries (front ++ ascii "--config" :: val :: back) := by
    rw [hentries, List.mem_append]
    rcases cliLoop_cons_ok hrest with ⟨hflag, _⟩ | ⟨_, val', rest', o, hsplit, ho, _, hhead⟩
    · exact absurd hflag (by decide)
    · obtain ⟨rfl, rfl⟩ := List.cons.inj hsplit
      obtain rfl := Option.some.inj (hoption.symm.trans ho)
      exact .inr (by rw [hhead]; exact List.mem_cons_self)
  have hsome : (lastConfig (front ++ ascii "--config" :: val :: back)).isSome := by
    rw [lastConfig, lastSaid, List.getLast?_isSome, ne_eq, List.filterMap_eq_nil_iff]
    intro hnone
    have hsaid := hnone _ hmem
    simp [textSaid] at hsaid
  exact Option.isSome_iff_exists.1 hsome

/-- Behind a `--config` that is the value of an option stands the name of one. -/
theorem storedPath_of_value {cfg₀ : Config} (hok : cliLoop cfg₀ args = .ok cfg)
    (hfirst : FirstConfig args front val) (hfront : optionNext front = false) :
    storedPath val = val ∧ val ≠ [] := by
  obtain ⟨⟨back, rfl⟩, -⟩ := hfirst
  have hnext := optionNext_concat hfront (ascii "--config")
  have hsplit : front ++ ascii "--config" :: val :: back =
      (front ++ [ascii "--config"]) ++ val :: back := by simp
  rw [hsplit] at hok
  obtain ⟨⟨cfg₁, hrest⟩, -⟩ := cliLoop_append_ok hnext hok
  rcases cliLoop_cons_ok hrest with ⟨hflag, _⟩ | ⟨_, _, _, o, _, ho, _⟩
  · exact storedPath_flag hflag
  · exact storedPath_option ho

/-- The file that is named by a value, if any. -/
def fileOf (val : Option Bytes) : Option Bytes :=
  match val with
  | some val => if storedPath val = [] then none else some (storedPath val)
  | none => none

theorem namedFile_eq {cfg₀ : Config} (hdefault : cfg₀.configFile.text = [])
    (hok : cliLoop cfg₀ args = .ok cfg) : cfg.namedFile = fileOf (lastConfig args) := by
  have hget := get_foldl apply_overrides (cliEntries args) cfg₀ .configFile
  rw [← cliLoop_ok hok, lastSaid_scalarSaid] at hget
  have htext : cfg.configFile.text = ((lastConfig args).map storedPath).getD [] := by
    rw [lastConfig]
    cases hlast : lastSaid textSaid .configFile (cliEntries args) with
    | none =>
        rw [hlast] at hget
        have hsame : cfg.configFile.text = cfg₀.configFile.text := OptionValue.text.inj hget
        rw [hsame, hdefault]
        rfl
    | some last =>
        rw [hlast] at hget
        exact OptionValue.text.inj hget
  unfold Config.namedFile fileOf
  rw [htext]
  cases lastConfig args <;> simp

theorem mainStart_fst (files : Bytes → Option Bytes) (hmain : exitsEarly argv = false) :
    (mainStart files argv).1 = fileOf (scanConfig (argv.drop 1)) := by
  unfold mainStart fileOf
  rw [hmain]
  cases hscan : scanConfig (argv.drop 1) with
  | none => rfl
  | some val =>
      have hstored : (CBuf.snprintf val : CBuf profPathMax).text = storedPath val := rfl
      simp only [Bool.false_eq_true, if_false, hstored]
      by_cases hempty : storedPath val = []
      · simp [hempty]
      · simp [hempty]

theorem fileOf_some_eq_iff {val val' : Bytes} :
    fileOf (some val) = fileOf (some val') ↔ storedPath val = storedPath val' := by
  unfold fileOf
  by_cases h : storedPath val = []
  · by_cases h' : storedPath val' = [] <;> simp [h, h']
  · by_cases h' : storedPath val' = [] <;> simp [h, h']

/-- Both scans find the same file exactly in the cases of `ScanAgrees`. -/
theorem scanAgrees_iff {cfg₀ : Config} (hok : cliLoop cfg₀ args = .ok cfg) :
    fileOf (scanConfig args) = fileOf (lastConfig args) ↔ ScanAgrees args := by
  constructor
  · intro hsame
    by_cases hmem : ascii "--config" ∈ args.dropLast
    · obtain ⟨front, val, hfirst⟩ := exists_firstConfig hmem
      rw [hfirst.scanConfig] at hsame
      cases hfront : optionNext front with
      | true =>
          obtain ⟨last, hlast⟩ := exists_lastConfig hok hfirst hfront
          rw [hlast, fileOf_some_eq_iff] at hsame
          exact .option front val last hfirst hfront hlast hsame.symm
      | false =>
          obtain ⟨hstored, hne⟩ := storedPath_of_value hok hfirst hfront
          cases hlast : lastConfig args with
          | none => simp [hlast, fileOf, hstored, hne] at hsame
          | some last =>
              rw [hlast, fileOf_some_eq_iff, hstored] at hsame
              exact .value front val last hfirst hfront hlast hsame.symm
    · exact .absent hmem
  · rintro (habsent | ⟨front, val, last, hfirst, _, hlast, hsame⟩ |
      ⟨front, name, last, hfirst, hvalue, hlast, hsame⟩)
    · rw [scanConfig_eq_none habsent, lastConfig_eq_none habsent]
    · rw [hfirst.scanConfig, hlast, fileOf_some_eq_iff, hsame]
    · rw [hfirst.scanConfig, hlast, fileOf_some_eq_iff, hsame]
      exact (storedPath_of_value hok hfirst hvalue).1

end Agreement

/-- For a command line that is accepted, `main` loads the file that `config_parse_cli` finds exactly
if it exits before, or the text `--config` stands where both scans take the same value. -/
theorem loads_parsed_file_iff {argv : List Bytes} {cfg : Config}
    (hok : configParseCli configDefaults argv = .ok cfg) :
    LoadsParsedFile argv cfg ↔ exitsEarly argv = true ∨ ScanAgrees (argv.drop 1) := by
  have hnamed := namedFile_eq (by decide) hok
  cases hmain : exitsEarly argv with
  | true =>
      refine iff_of_true (fun hstays => ?_) (.inl rfl)
      rw [hmain] at hstays
      cases hstays
  | false =>
      have hagrees := scanAgrees_iff hok
      constructor
      · intro h
        have hfile := h hmain fun _ => none
        rw [mainStart_fst _ hmain, hnamed] at hfile
        exact .inr (hagrees.1 hfile)
      · rintro (hexits | hscan) - files
        · cases hexits
        · rw [mainStart_fst _ hmain, hnamed]
          exact hagrees.2 hscan

namespace Sample

def oneConfig : List Bytes :=
  [ascii "professord", ascii "--model", ascii "m.gguf", ascii "--config", ascii "a.ini"]

def twoConfigs : List Bytes :=
  oneConfig ++ [ascii "--config", ascii "b.ini"]

/-- `--config` is the path of the model here. -/
def strayConfig : List Bytes :=
  [ascii "professord", ascii "--model", ascii "--config", ascii "--model-alias", ascii "m"]

example : scanConfig (strayConfig.drop 1) = some (ascii "--model-alias") ∧
    lastConfig (strayConfig.drop 1) = none := by
  decide

end Sample

theorem loads_parsed_file_oneConfig :
    ∃ cfg, configParseCli configDefaults Sample.oneConfig = .ok cfg ∧
      LoadsParsedFile Sample.oneConfig cfg := by
  refine ⟨_, rfl, (loads_parsed_file_iff rfl).2 (.inr ?_)⟩
  -- the one `--config` is an option
  exact .option [ascii "--model", ascii "m.gguf"] (ascii "a.ini") (ascii "a.ini")
    ⟨⟨[], rfl⟩, by decide⟩ (by decide) (by decide) rfl

theorem not_loads_parsed_file :
    ¬ ∀ (argv : List Bytes) (cfg : Config), configParseCli configDefaults argv = .ok cfg →
        LoadsParsedFile argv cfg := by
  intro hall
  have hfile := hall Sample.twoConfigs _ rfl (by decide) fun _ => none
  revert hfile
  decide +kernel

end Professord
