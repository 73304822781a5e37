import Professord.Lib.LockedObject
import Professord.Lib.CText
import Professord.Lib.Numeral

/-!
# Logger — one log, two threads (`logger.c`)

`logger_log` and `logger_announce` write a line to every sink that is in use, under the logger's
mutex; `logger_enable_syslog` switches from stderr to syslog.  Here every byte of a line is a step
of its own, so that only the mutex keeps the lines of two threads apart.
-/

namespace Professord

open CText Numeral GuardedSystem LockedObject

/-! ## Levels -/

inductive LogLevel
  | trace
  | debug
  | info
  | warn
  | error
  | fatal
  deriving DecidableEq, Repr

inductive SyslogPriority
  | debug
  | info
  | notice
  | warning
  | err
  | crit
  deriving DecidableEq, Repr

namespace LogLevel

/-- The level with that number, from `LOG_TRACE` to `LOG_FATAL`; the enumeration is unsigned. -/
def ofCode : Nat → Option LogLevel
  | 0 => some .trace
  | 1 => some .debug
  | 2 => some .info
  | 3 => some .warn
  | 4 => some .error
  | 5 => some .fatal
  | _ => none

/-- `level_names` -/
def name : LogLevel → Bytes
  | .trace => ascii "TRACE"
  | .debug => ascii "DEBUG"
  | .info => ascii "INFO"
  | .warn => ascii "WARN"
  | .error => ascii "ERROR"
  | .fatal => ascii "FATAL"

/-- `level_colors` -/
def color : LogLevel → Bytes
  | .trace => 27 :: ascii "[90m"
  | .debug => 27 :: ascii "[36m"
  | .info => 27 :: ascii "[32m"
  | .warn => 27 :: ascii "[33m"
  | .error => 27 :: ascii "[31m"
  | .fatal => 27 :: ascii "[35m"

/-- `level_to_syslog` -/
def toSyslog : LogLevel → SyslogPriority
  | .trace => .debug
  | .debug => .debug
  | .info => .info
  | .warn => .warning
  | .error => .err
  | .fatal => .crit

end LogLevel

def colorReset : Bytes :=
  27 :: ascii "[0m"

/-! ## Lines -/

/-- What `strftime` and `tv_nsec / 1000000` give for the time of a line. -/
structure LogTime where
  text : Bytes
  msec : Nat
  deriving DecidableEq, Repr

/-- `%-5s` -/
def padRight5 (text : Bytes) : Bytes :=
  text ++ List.replicate (5 - text.length) 32

/-- `%03ld` -/
def padZero3 (n : Nat) : Bytes :=
  List.replicate (3 - (decimalNat n).length) 48 ++ decimalNat n

/-- What stands behind the last slash, if there is one. -/
def basename (file : Bytes) : Bytes :=
  (file.reverse.takeWhile (· != 47)).reverse

/-- What a call has to say; `msg` is what `vsnprintf` made of the format. -/
inductive LogMessage
  | record (level : LogLevel) (file : Bytes) (line : Int) (msg : CBuf 2048)
  | announcement (msg : Bytes)
  deriving DecidableEq

structure SyslogEntry where
  priority : SyslogPriority
  text : Bytes
  deriving DecidableEq

namespace LogMessage

/-- The end of a line, which is the text for syslog. -/
def place (file : Bytes) (line : Int) (msg : Bytes) : Bytes :=
  ascii " " ++ basename file ++ ascii ":" ++ decimal line ++ ascii ": " ++ msg

/-- What is printed to stderr, or without color to the file. -/
def printed (useColor : Bool) (time : LogTime) : LogMessage → Bytes
  | .record level file line msg =>
      let name :=
        if useColor then level.color ++ padRight5 level.name ++ colorReset else padRight5 level.name
      time.text ++ ascii "." ++ padZero3 time.msec ++ ascii "Z " ++ name ++
        place file line msg.text ++ ascii "\n"
  | .announcement msg => msg ++ ascii "\n"

def syslogEntry : LogMessage → SyslogEntry
  | .record level file line msg =>
      ⟨level.toSyslog, padRight5 level.name ++ place file line msg.text⟩
  | .announcement msg => ⟨.notice, msg⟩

end LogMessage

/-! ## The logger and its sinks -/

/-- `logger_t` but for the mutex; of the file pointer only "not null" matters. -/
structure Logger where
  level : Nat
  logFile : Bool
  useStderr : Bool
  useSyslog : Bool
  useColor : Bool
  deriving DecidableEq

/-- `logger_init` once the file, if any, is open. -/
def loggerInit (level : Nat) (logFile useSyslog isatty : Bool) : Logger where
  level := level
  logFile := logFile
  useStderr := true
  useSyslog := useSyslog
  useColor := isatty

/-- The logger together with what has arrived in its sinks. -/
structure LogState where
  lg : Logger
  stderr : Bytes
  syslog : List SyslogEntry
  file : Bytes
  deriving DecidableEq

inductive LogCall
  | log (level : Nat) (file : Bytes) (line : Int) (msg : Bytes)
  | announce (msg : Bytes)
  | enableSyslog
  deriving DecidableEq

/-- What the call writes, if its level is one. -/
def LogCall.message : LogCall → Option LogMessage
  | .log level file line msg =>
      (LogLevel.ofCode level).map fun l => .record l file line (CBuf.snprintf msg)
  | .announce msg => some (.announcement (cstr msg))
  | .enableSyslog => none

/-- The call returns before it takes the mutex. -/
def LogCall.filtered (level : Nat) : LogCall → Bool
  | .log l _ _ _ => decide (l < level) || (LogLevel.ofCode l).isNone
  | _ => false

/-- The streams that bytes are printed to. -/
inductive LogStream
  | stderr
  | file
  deriving DecidableEq

/-- What is left to do of a call. -/
inductive LogAct
  | toStderr (m : LogMessage)
  | toSyslog (m : LogMessage)
  | toFile (m : LogMessage)
  | put (stream : LogStream) (b : UInt8)
  | openSyslog
  | leaveStderr
  deriving DecidableEq

def LogCall.acts (c : LogCall) : List LogAct :=
  match c, c.message with
  | .enableSyslog, _ => [.openSyslog, .leaveStderr]
  | _, some m => [.toStderr m, .toSyslog m, .toFile m]
  | _, none => []

namespace LogState

def print (s : LogState) (stream : LogStream) (text : Bytes) : LogState :=
  match stream with
  | .stderr => { s with stderr := s.stderr ++ text }
  | .file => { s with file := s.file ++ text }

/-- One act, and what it leaves to be done first. -/
def act (s : LogState) (time : LogTime) : LogAct → List LogAct × LogState
  | .toStderr m =>
      if s.lg.useStderr then ((m.printed s.lg.useColor time).map (.put .stderr), s) else ([], s)
  | .toSyslog m =>
      if s.lg.useSyslog then ([], { s with syslog := s.syslog ++ [m.syslogEntry] }) else ([], s)
  | .toFile m => if s.lg.logFile then ((m.printed false time).map (.put .file), s) else ([], s)
  | .put stream b => ([], s.print stream [b])
  | .openSyslog => ([], { s with lg := { s.lg with useSyslog := true } })
  | .leaveStderr => ([], { s with lg := { s.lg with useStderr := false, useColor := false } })

def actFirst (acts : List LogAct) (s : LogState) (time : LogTime) : List LogAct × LogState :=
  match acts with
  | [] => ([], s)
  | a :: rest => ((s.act time a).1 ++ rest, (s.act time a).2)

end LogState

/-- The logger, shared by the threads of the program. -/
def sharedLogger (lg : Logger) : LockedObject LogState LogTime LogCall (List LogAct) where
  init := ⟨lg, [], [], []⟩
  skips := LogCall.filtered lg.level
  enter := LogCall.acts
  step := LogState.actFirst
  finished := List.isEmpty

/-! ## One call -/

namespace LogState

@[simp] theorem print_nil (s : LogState) (stream : LogStream) : s.print stream [] = s := by
  cases stream <;> simp [print]

@[simp] theorem print_print (s : LogState) (stream : LogStream) (t u : Bytes) :
    (s.print stream t).print stream u = s.print stream (t ++ u) := by
  cases stream <;> simp [print]

/-- A message in the sinks that are in use, printed at two times. -/
def logged (s : LogState) (m : LogMessage) (time time' : LogTime) : LogState :=
  { s with
    stderr := if s.lg.useStderr then s.stderr ++ m.printed s.lg.useColor time else s.stderr
    syslog := if s.lg.useSyslog then s.syslog ++ [m.syslogEntry] else s.syslog
    file := if s.lg.logFile then s.file ++ m.printed false time' else s.file }

end LogState

section Call

variable {lg : Logger} {s : LogState} {a : LogAct} {rest : List LogAct} {xs : List LogTime}

theorem perform_nil (lg : Logger) (s : LogState) (xs : List LogTime) :
    (sharedLogger lg).perform ([], s) xs = ([], s) := by
  induction xs with
  | nil => rfl
  | cons x xs ih => exact ih

/-- A call that comes to its end makes its first act, and comes to its end from there. -/
theorem perform_cons (h : ((sharedLogger lg).perform (a :: rest, s) xs).1.isEmpty = true) :
    ∃ x xs', (sharedLogger lg).perform (a :: rest, s) xs =
      (sharedLogger lg).perform ((s.act x a).1 ++ rest, (s.act x a).2) xs' := by
  cases xs with
  | nil => simp [perform] at h
  | cons x xs => exact ⟨x, xs, rfl⟩

theorem perform_puts (stream : LogStream) {text : Bytes}
    (h : ((sharedLogger lg).perform (text.map (.put stream) ++ rest, s) xs).1.isEmpty = true) :
    ∃ xs', (sharedLogger lg).perform (text.map (.put stream) ++ rest, s) xs =
      (sharedLogger lg).perform (rest, s.print stream text) xs' := by
  induction text generalizing s xs with
  | nil => exact ⟨xs, by simp⟩
  | cons b text ih =>
      rw [List.map_cons, List.cons_append] at h ⊢
      obtain ⟨x, xs', hfirst⟩ := perform_cons h
      rw [hfirst] at h ⊢
      obtain ⟨xs'', hrest⟩ := ih h
      exact ⟨xs'', by simpa [LogState.act] using hrest⟩

theorem perform_toStderr {m : LogMessage}
    (h : ((sharedLogger lg).perform (.toStderr m :: rest, s) xs).1.isEmpty = true) :
    ∃ t xs', (sharedLogger lg).perform (.toStderr m :: rest, s) xs =
      (sharedLogger lg).perform (rest,
        if s.lg.useStderr then s.print .stderr (m.printed s.lg.useColor t) else s) xs' := by
  obtain ⟨t, xs', hfirst⟩ := perform_cons h
  rw [hfirst] at h ⊢
  cases huse : s.lg.useStderr with
  | false => exact ⟨t, xs', by simp [LogState.act, huse]⟩
  | true =>
      simp only [LogState.act, huse, if_true] at h ⊢
      obtain ⟨xs'', hputs⟩ := perform_puts .stderr h
      exact ⟨t, xs'', hputs⟩

theorem perform_toSyslog {m : LogMessage}
    (h : ((sharedLogger lg).perform (.toSyslog m :: rest, s) xs).1.isEmpty = true) :
    ∃ xs', (sharedLogger lg).perform (.toSyslog m :: rest, s) xs =
      (sharedLogger lg).perform (rest,
        if s.lg.useSyslog then { s with syslog := s.syslog ++ [m.syslogEntry] } else s) xs' := by
  obtain ⟨t, xs', hfirst⟩ := perform_cons h
  rw [hfirst]
  cases huse : s.lg.useSyslog <;> exact ⟨xs', by simp [LogState.act, huse]⟩

theorem perform_toFile {m : LogMessage}
    (h : ((sharedLogger lg).perform (.toFile m :: rest, s) xs).1.isEmpty = true) :
    ∃ t xs', (sharedLogger lg).perform (.toFile m :: rest, s) xs =
      (sharedLogger lg).perform (rest,
        if s.lg.logFile then s.print .file (m.printed false t) else s) xs' := by
  obtain ⟨t, xs', hfirst⟩ := perform_cons h
  rw [hfirst] at h ⊢
  cases huse : s.lg.logFile with
  | false => exact ⟨t, xs', by simp [LogState.act, huse]⟩
  | true =>
      simp only [LogState.act, huse, if_true] at h ⊢
      obtain ⟨xs'', hputs⟩ := perform_puts .file h
      exact ⟨t, xs'', hputs⟩

/-- A call with a message logs it. -/
theorem perform_message {m : LogMessage}
    (h : ((sharedLogger lg).perform ([.toStderr m, .toSyslog m, .toFile m], s) xs).1.isEmpty =
      true) :
    ∃ t t', ((sharedLogger lg).perform ([.toStderr m, .toSyslog m, .toFile m], s) xs).2 =
      s.logged m t t' := by
  obtain ⟨t, xs₁, hstderr⟩ := perform_toStderr h
  rw [hstderr] at h ⊢
  obtain ⟨xs₂, hsyslog⟩ := perform_toSyslog h
  rw [hsyslog] at h ⊢
  obtain ⟨t', xs₃, hfile⟩ := perform_toFile h
  rw [hfile, perform_nil]
  refine ⟨t, t', ?_⟩
  cases hstderrUse : s.lg.useStderr <;> cases hsyslogUse : s.lg.useSyslog <;>
    cases hfileUse : s.lg.logFile <;>
    simp [LogState.logged, LogState.print, hstderrUse, hsyslogUse, hfileUse]

/-- Switching to syslog touches no sink. -/
def Logger.toSyslog (lg : Logger) : Logger :=
  { lg with useSyslog := true, useStderr := false, useColor := false }

theorem perform_enableSyslog
    (h : ((sharedLogger lg).perform ([.openSyslog, .leaveStderr], s) xs).1.isEmpty = true) :
    ((sharedLogger lg).perform ([.openSyslog, .leaveStderr], s) xs).2 =
      { s with lg := s.lg.toSyslog } := by
  obtain ⟨x, xs₁, hopen⟩ := perform_cons h
  rw [hopen] at h ⊢
  simp only [LogState.act, List.nil_append] at h ⊢
  obtain ⟨x', xs₂, hleave⟩ := perform_cons h
  rw [hleave]
  exact congrArg Prod.snd (perform_nil lg _ xs₂)

end Call

/-! ## All calls -/

/-- Messages printed one after the other, each at a time of its own. -/
inductive Printed (useColor : Bool) : List LogMessage → Bytes → Prop
  | nil : Printed useColor [] []
  | snoc {ms : List LogMessage} {text : Bytes} (m : LogMessage) (time : LogTime)
      (h : Printed useColor ms text) :
      Printed useColor (ms ++ [m]) (text ++ m.printed useColor time)

/-- What a stream holds that gets the messages if it is in use. -/
def Holds (used useColor : Bool) (ms : List LogMessage) (text : Bytes) : Prop :=
  if used then Printed useColor ms text else text = []

def messages (calls : List LogCall) : List LogMessage :=
  calls.filterMap LogCall.message

/-- The calls before the first switch to syslog, and those behind it. -/
def beforeSyslog (calls : List LogCall) : List LogCall :=
  calls.takeWhile (· ≠ .enableSyslog)

def afterSyslog (calls : List LogCall) : List LogCall :=
  calls.dropWhile (· ≠ .enableSyslog)

/-- What the sinks of `lg` hold after some calls. -/
structure Logged (lg : Logger) (calls : List LogCall) (s : LogState) : Prop where
  logger : s.lg = if .enableSyslog ∈ calls then lg.toSyslog else lg
  file : Holds lg.logFile false (messages calls) s.file
  stderr : Holds lg.useStderr lg.useColor (messages (beforeSyslog calls)) s.stderr
  syslog : s.syslog =
    (messages (if lg.useSyslog then calls else afterSyslog calls)).map LogMessage.syslogEntry

theorem Holds.nil (used useColor : Bool) : Holds used useColor [] [] := by
  cases used with
  | false => rfl
  | true => exact Printed.nil

theorem Holds.snoc {used useColor : Bool} {ms : List LogMessage} {text : Bytes}
    (h : Holds used useColor ms text) (m : LogMessage) (time : LogTime) :
    Holds used useColor (ms ++ [m]) (if used then text ++ m.printed useColor time else text) := by
  cases used with
  | false => exact h
  | true => exact Printed.snoc m time h

section Calls

variable {calls : List LogCall} {c : LogCall}

theorem messages_append (cs ds : List LogCall) :
    messages (cs ++ ds) = messages cs ++ messages ds :=
  List.filterMap_append

theorem messages_nil : messages [] = [] :=
  rfl

theorem messages_cons (c : LogCall) (cs : List LogCall) :
    messages (c :: cs) = c.message.toList ++ messages cs := by
  cases h : c.message <;> simp [messages, h]

theorem messages_singleton (c : LogCall) : messages [c] = c.message.toList := by
  cases h : c.message <;> simp [messages, h]

theorem beforeSyslog_cons (c : LogCall) (cs : List LogCall) :
    beforeSyslog (c :: cs) = if c = .enableSyslog then [] else c :: beforeSyslog cs := by
  by_cases hc : c = .enableSyslog <;> simp [beforeSyslog, hc]

theorem afterSyslog_cons (c : LogCall) (cs : List LogCall) :
    afterSyslog (c :: cs) = if c = .enableSyslog then c :: cs else afterSyslog cs := by
  by_cases hc : c = .enableSyslog <;> simp [afterSyslog, hc]

theorem messages_beforeSyslog (calls : List LogCall) (c : LogCall) :
    messages (beforeSyslog (calls ++ [c])) = messages (beforeSyslog calls) ++
      if .enableSyslog ∈ calls then [] else c.message.toList := by
  induction calls with
  | nil =>
      by_cases hc : c = .enableSyslog
      · simp [beforeSyslog, messages, hc, LogCall.message]
      · simpa [beforeSyslog, hc] using messages_append [] [c] ▸ messages_singleton c
  | cons d calls ih =>
      by_cases hd : d = .enableSyslog
      · simp [beforeSyslog, messages, hd]
      · simp [beforeSyslog_cons, hd, Ne.symm hd, messages_cons, ih]

theorem messages_afterSyslog (calls : List LogCall) (c : LogCall) :
    messages (afterSyslog (calls ++ [c])) = messages (afterSyslog calls) ++
      if .enableSyslog ∈ calls then c.message.toList else [] := by
  induction calls with
  | nil =>
      by_cases hc : c = .enableSyslog
      · simp [afterSyslog, messages, hc, LogCall.message]
      · simp [afterSyslog, messages, hc]
  | cons d calls ih =>
      by_cases hd : d = .enableSyslog
      · simp [afterSyslog_cons, hd, messages_cons, messages_append, messages_nil]
      · simp [afterSyslog_cons, hd, Ne.symm hd, ih]

end Calls

namespace Logged

variable {lg : Logger} {calls : List LogCall} {s : LogState}

theorem nil (lg : Logger) : Logged lg [] ⟨lg, [], [], []⟩ where
  logger := rfl
  file := .nil _ _
  stderr := .nil _ _
  syslog := by split <;> rfl

/-- A call without a message leaves the sinks as they are. -/
theorem silent (h : Logged lg calls s) {c : LogCall} (hc : c ≠ .enableSyslog)
    (hmessage : c.message = none) : Logged lg (calls ++ [c]) s where
  logger := by simpa [Ne.symm hc] using h.logger
  file := by simpa [messages_append, messages_singleton, hmessage] using h.file
  stderr := by simpa [messages_beforeSyslog, hmessage] using h.stderr
  syslog := by
    rw [h.syslog]
    split <;> simp [messages_append, messages_singleton, messages_afterSyslog, hmessage]

theorem message (h : Logged lg calls s) {c : LogCall} {m : LogMessage} (hc : c ≠ .enableSyslog)
    (hmessage : c.message = some m) (t t' : LogTime) :
    Logged lg (calls ++ [c]) (s.logged m t t') := by
  rcases h with ⟨hlogger, hfile, hstderr, hsyslog⟩
  by_cases hswitched : .enableSyslog ∈ calls
  · rw [if_pos hswitched] at hlogger
    constructor
    · simpa [LogState.logged, hswitched] using hlogger
    · simpa [LogState.logged, hlogger, Logger.toSyslog, messages_append, messages_singleton,
        hmessage] using hfile.snoc m t'
    · simpa [LogState.logged, hlogger, Logger.toSyslog, messages_beforeSyslog, hswitched]
        using hstderr
    · cases huse : lg.useSyslog <;>
        simp [LogState.logged, hlogger, Logger.toSyslog, hsyslog, huse, messages_append,
          messages_singleton, messages_afterSyslog, hswitched, hmessage]
  · rw [if_neg hswitched] at hlogger
    constructor
    · simpa [LogState.logged, hswitched, Ne.symm hc] using hlogger
    · simpa [LogState.logged, hlogger, messages_append, messages_singleton, hmessage]
        using hfile.snoc m t'
    · simpa [LogState.logged, hlogger, messages_beforeSyslog, hswitched, hmessage]
        using hstderr.snoc m t
    · cases huse : lg.useSyslog <;>
        simp [LogState.logged, hlogger, hsyslog, huse, messages_append, messages_singleton,
          messages_afterSyslog, hswitched, hmessage]

theorem enableSyslog (h : Logged lg calls s) :
    Logged lg (calls ++ [.enableSyslog]) { s with lg := s.lg.toSyslog } where
  logger := by
    rw [h.logger]
    split <;> simp [Logger.toSyslog]
  file := by
    simpa [messages_append, messages_singleton, LogCall.message] using h.file
  stderr := by
    simpa [messages_beforeSyslog, LogCall.message] using h.stderr
  syslog := by
    rw [h.syslog]
    split <;> simp [messages_append, messages_singleton, messages_afterSyslog, LogCall.message]

/-- A call from beginning to end. -/
theorem run {θ : Type*} (h : Logged lg calls s) (e : Entry θ LogTime LogCall)
    (hend : (sharedLogger lg).finished ((sharedLogger lg).run e s).1 = true) :
    Logged lg (calls ++ [e.call]) ((sharedLogger lg).run e s).2 := by
  rcases e with ⟨t, c, xs⟩
  by_cases hc : c = .enableSyslog
  · subst hc
    rw [show ((sharedLogger lg).run ⟨t, .enableSyslog, xs⟩ s).2 = { s with lg := s.lg.toSyslog }
      from perform_enableSyslog hend]
    exact h.enableSyslog
  · cases hmessage : c.message with
    | none =>
        have hacts : c.acts = [] := by cases c <;> simp_all [LogCall.acts]
        have hrun : (sharedLogger lg).run ⟨t, c, xs⟩ s = ([], s) := by
          rw [LockedObject.run, show (sharedLogger lg).enter c = [] from hacts, perform_nil]
        rw [hrun]
        exact h.silent hc hmessage
    | some m =>
        have hacts : c.acts = [.toStderr m, .toSyslog m, .toFile m] := by
          cases c <;> simp_all [LogCall.acts]
        have hrun : (sharedLogger lg).run ⟨t, c, xs⟩ s =
            (sharedLogger lg).perform ([.toStderr m, .toSyslog m, .toFile m], s) xs := by
          rw [LockedObject.run, show (sharedLogger lg).enter c = _ from hacts]
        rw [hrun] at hend ⊢
        obtain ⟨time, time', hlogged⟩ := perform_message hend
        rw [hlogged]
        exact h.message hc hmessage time time'

theorem of_serial {θ : Type*} {es : List (Entry θ LogTime LogCall)}
    (h : (sharedLogger lg).Serial es s) : Logged lg (es.map Entry.call) s := by
  induction h with
  | nil => exact Logged.nil lg
  | snoc e _ hend ih =>
      rw [List.map_append]
      exact ih.run e hend

end Logged

/-- Whatever the threads do at the same time, when nobody holds the mutex each sink has got whole
messages one after the other: those of one order of the calls, in which each thread's calls that
have been through are in the order it made them, each once. -/
theorem logger_lines {θ : Type*} [DecidableEq θ] {lg : Logger}
    {as : List (Action θ LogTime LogCall)} {s : State θ LogState LogTime LogCall (List LogAct)}
    (hrun : (sharedLogger lg).system.runGuarded Free (sharedLogger lg).system.init as = some s)
    (hfree : s.holder = none) :
    Logged lg (s.past.map Entry.call) s.object ∧
      ∀ t, (s.past.filter fun e => e.thread = t).map Entry.call ++ (s.pending t).toList =
        (sharedLogger lg).calls t as := by
  have hreach : (sharedLogger lg).system.Reachable Free s := .of_runGuarded .init hrun
  refine ⟨.of_serial (serial_of_reachable hreach hfree), fun t => ?_⟩
  have hcalled := calls_of_thread hrun t
  simpa [State.called, State.order, hfree] using hcalled

/-! ## A run -/

namespace Sample

/-- Two threads announce something while neither has the mutex. -/
def twoVoices : List (Action Bool LogTime LogCall) :=
  [.call true (.announce (ascii "a")), .call false (.announce (ascii "b")), .lock false] ++
    List.replicate 7 (.step ⟨[], 0⟩) ++ [.unlock, .lock true] ++
    List.replicate 7 (.step ⟨[], 0⟩) ++ [.unlock]

def voices : Logger :=
  loggerInit 2 true false false

theorem twoVoices_end :
    ((sharedLogger voices).system.runGuarded Free (sharedLogger voices).system.init
      twoVoices).isSome = true := by
  decide

/-- The voice that comes to the mutex first has its line first, in both streams. -/
theorem logger_lines_twoVoices :
    ∃ s : State Bool LogState LogTime LogCall (List LogAct),
      (sharedLogger voices).system.runGuarded Free (sharedLogger voices).system.init
        twoVoices = some s ∧
      s.object.file = ascii "b\na\n" ∧ s.object.stderr = ascii "b\na\n" ∧
      Logged voices (s.past.map Entry.call) s.object :=
  ⟨_, (Option.some_get twoVoices_end).symm, by decide, by decide,
    (logger_lines (Option.some_get twoVoices_end).symm (by decide)).1⟩

end Sample

end Professord
