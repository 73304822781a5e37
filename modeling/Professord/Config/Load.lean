import Professord.ApiTypes
import Professord.Lib.CParse

/-!
# Load — the INI file (`config.c`)

`set_config_field` and `config_load_file`.  The content of the file is the bytes that `fopen` gives
access to, `none` where it fails.
-/

namespace Professord

open CText CParse

/-- `char line[1024]` and `char buf[1024]` -/
abbrev lineMax : Nat := 1024

/-- Trim leading and trailing whitespace. -/
def trim (buf : Bytes) : Bytes :=
  match buf.dropWhile isspace with
  | [] => []
  -- `end > buf` keeps the first byte
  | b :: rest => b :: rest.rdropWhile isspace

/-- One token of an `allow_ip` list; nothing more is added once the list is full. -/
def addIp (cfg : Config) (tok : Bytes) : Config :=
  if h : cfg.acl.length < profAclMax then
    let ip := trim tok
    if ip ≠ [] then
      { cfg with
        acl := cfg.acl ++ [CBuf.snprintf ip]
        acl_bounded := by simpa using h }
    else
      cfg
  else
    cfg

/-- The loop over the comma-separated list, the same for the file and the command line. -/
def allowIp (cfg : Config) (value : Bytes) : Config :=
  let buf := (cstr value).take (lineMax - 1)
  (strtok 44 buf).foldl addIp cfg

def setConfigField (cfg : Config) (key value : Bytes) : Config :=
  if key = ascii "model_path" then
    { cfg with modelPath := CBuf.snprintf value }
  else if key = ascii "model_alias" then
    { cfg with modelAlias := CBuf.snprintf value }
  else if key = ascii "n_ctx" then
    { cfg with nCtx := strtol32 value }
  else if key = ascii "n_gpu_layers" then
    { cfg with nGpuLayers := strtol32 value }
  else if key = ascii "n_batch" then
    { cfg with nBatch := strtol32 value }
  else if key = ascii "n_threads" then
    { cfg with nThreads := strtol32 value }
  else if key = ascii "temperature" then
    { cfg with temperature := strtof value }
  else if key = ascii "top_p" then
    { cfg with topP := strtof value }
  else if key = ascii "top_k" then
    { cfg with topK := strtol32 value }
  else if key = ascii "repeat_penalty" then
    { cfg with repeatPenalty := strtof value }
  else if key = ascii "max_tokens" then
    { cfg with maxTokens := strtol32 value }
  else if key = ascii "listen_addr" then
    { cfg with listenAddr := CBuf.snprintf value }
  else if key = ascii "api_key" then
    { cfg with apiKey := CBuf.snprintf value }
  else if key = ascii "max_inference_seconds" then
    { cfg with maxInferenceSeconds := strtol32 value }
  else if key = ascii "stats_interval" then
    { cfg with statsInterval := strtol32 value }
  else if key = ascii "daemonize" then
    { cfg with daemonize := strtol32 value }
  else if key = ascii "pid_file" then
    { cfg with pidFile := CBuf.snprintf value }
  else if key = ascii "log_level" then
    { cfg with logLevel := strtol32 value }
  else if key = ascii "log_file" then
    { cfg with logFile := CBuf.snprintf value }
  else if key = ascii "allow_ip" then
    allowIp cfg value
  else
    -- unknown keys are silently ignored
    cfg

/-- What one line of the file does. -/
def loadLine (cfg : Config) (line : Bytes) : Config :=
  match trim (cstr line) with
  | [] => cfg
  | b :: rest =>
      -- comments
      if b = 35 ∨ b = 59 then
        cfg
      else
        match (b :: rest).dropWhile (· ≠ 61) with
        | [] => cfg
        | _ :: value =>
            setConfigField cfg (trim ((b :: rest).takeWhile (· ≠ 61))) (trim value)

def configLoadFile (cfg : Config) (content : Option Bytes) : Config × Int :=
  match content with
  | none => (cfg, -1)
  | some bytes => ((fgetsLines (lineMax - 1) (lineMax - 1) [] bytes).foldl loadLine cfg, 0)

end Professord
