import Professord.Config.Load

/-!
# Cli — the command line (`config.c`)

`config_parse_cli` over the texts of `argv`.
-/

namespace Professord

open CText CParse

/-- How `config_parse_cli` ends: it returns 0, returns -1 with a message, or prints the help and
exits. -/
inductive CliResult
  | ok (cfg : Config)
  | missingValue (arg : Bytes) (cfg : Config)
  | unknownOption (arg : Bytes) (cfg : Config)
  | help

/-- The options that may take the next argument, and whether they do; `none` is an unknown one. -/
def cliOption (cfg : Config) (arg val : Bytes) : Option (Config × Bool) :=
  if arg = ascii "--config" then
    some ({ cfg with configFile := CBuf.snprintf val }, true)
  else if arg = ascii "--model" then
    some ({ cfg with modelPath := CBuf.snprintf val }, true)
  else if arg = ascii "--model-alias" then
    some ({ cfg with modelAlias := CBuf.snprintf val }, true)
  else if arg = ascii "--n-ctx" ∨ arg = ascii "--fing-longer" then
    some ({ cfg with nCtx := strtol32 val }, true)
  else if arg = ascii "--n-gpu-layers" then
    some ({ cfg with nGpuLayers := strtol32 val }, true)
  else if arg = ascii "--n-batch" then
    some ({ cfg with nBatch := strtol32 val }, true)
  else if arg = ascii "--n-threads" then
    some ({ cfg with nThreads := strtol32 val }, true)
  else if arg = ascii "--temperature" then
    some ({ cfg with temperature := strtof val }, true)
  else if arg = ascii "--top-p" then
    some ({ cfg with topP := strtof val }, true)
  else if arg = ascii "--top-k" then
    some ({ cfg with topK := strtol32 val }, true)
  else if arg = ascii "--repeat-penalty" then
    some ({ cfg with repeatPenalty := strtof val }, true)
  else if arg = ascii "--max-tokens" then
    some ({ cfg with maxTokens := strtol32 val }, true)
  else if arg = ascii "--listen-addr" then
    some ({ cfg with listenAddr := CBuf.snprintf val }, true)
  else if arg = ascii "--api-key" then
    some ({ cfg with apiKey := CBuf.snprintf val }, true)
  else if arg = ascii "--max-inference-seconds" then
    some ({ cfg with maxInferenceSeconds := strtol32 val }, true)
  else if arg = ascii "--stats-interval" then
    some ({ cfg with statsInterval := strtol32 val }, true)
  else if arg = ascii "--daemonize" then
    -- the next argument is not skipped
    some ({ cfg with daemonize := 1 }, false)
  else if arg = ascii "--pid-file" then
    some ({ cfg with pidFile := CBuf.snprintf val }, true)
  else if arg = ascii "--log-level" then
    some ({ cfg with logLevel := strtol32 val }, true)
  else if arg = ascii "--log-file" then
    some ({ cfg with logFile := CBuf.snprintf val }, true)
  else if arg = ascii "--allow-ip" then
    some (allowIp cfg val, true)
  else
    none

def isHelp (arg : Bytes) : Bool :=
  arg == ascii "--help" || arg == ascii "-h"

/-- Handled in `main.c`. -/
def isMainOption (arg : Bytes) : Bool :=
  arg == ascii "--recommend" || arg == ascii "--gen-api-key"

/-- The loop, at the arguments that are left. -/
def cliLoop (cfg : Config) : List Bytes → CliResult
  | [] => .ok cfg
  | [arg] =>
      if isHelp arg then .help
      else if isMainOption arg then .ok cfg
      else if arg = ascii "--daemonize" then .ok { cfg with daemonize := 1 }
      else .missingValue arg cfg
  | arg :: val :: rest =>
      if isHelp arg then .help
      else if isMainOption arg then cliLoop cfg (val :: rest)
      else
        match cliOption cfg arg val with
        | none => .unknownOption arg cfg
        | some (cfg, true) => cliLoop cfg rest
        | some (cfg, false) => cliLoop cfg (val :: rest)

def configParseCli (cfg : Config) (argv : List Bytes) : CliResult :=
  cliLoop cfg (argv.drop 1)

end Professord
