import Professord.Lib.CParse
import Professord.Lib.GuardedSystem

/-!
# PidFile — the PID file of daemonized instances (`daemon.c`, `main.c`)

Instances of several users share one path.  A call of `daemon_write_pidfile` or
`daemon_remove_pidfile` is one step; what the state of the file and of the processes does not
determine about a system call is a choice of the environment.
-/

namespace Professord

open CText CParse GuardedSystem

/-! ## Processes and the file -/

/-- A positive `pid_t`. -/
structure Pid where
  val : Nat
  pos : 0 < val
  lt : val < 2 ^ 31
  deriving DecidableEq, Repr

/-- Where `main` is. -/
inductive Stage
  /-- past `daemon_daemonize` -/
  | daemonized
  /-- past `daemon_write_pidfile`, which returned `rc` -/
  | up (rc : Int)
  /-- past `daemon_remove_pidfile` -/
  | removed
  deriving DecidableEq, Repr

structure Process where
  user : Nat
  stage : Stage
  deriving DecidableEq, Repr

/-- `file` is what the path names, if it names anything. -/
structure Os where
  file : Option Bytes
  procs : Pid → Option Process

/-- The choices of the environment in `daemon_write_pidfile`. -/
structure SysCalls where
  create : Bool := true
  openRead : Bool := true
  read : Bool := true
  /-- `kill` reaches a process that is no instance -/
  alive : Bool := false
  unlink : Bool := true
  recreate : Bool := true
  written : Nat := 32
  unlinkPartial : Bool := true
  deriving DecidableEq, Repr

namespace Os

variable (s : Os)

def lookup (target : Int) : Option Process :=
  if h : 0 < target.toNat ∧ target.toNat < 2 ^ 31 then s.procs ⟨target.toNat, h.1, h.2⟩ else none

/-- Root may signal any process, another user its own ones. -/
def maySignal (user owner : Nat) : Bool :=
  user == 0 || user == owner

/-- `kill(target, 0)` -/
def kill (user : Nat) (target : Int) (alive : Bool) : Int :=
  match s.lookup target with
  -- EPERM is a failure too
  | some proc => if maySignal user proc.user then 0 else -1
  | none => if alive then 0 else -1

end Os

/-! ## The two functions -/

/-- `snprintf(buf, sizeof(buf), "%d\n", (int)getpid())` -/
def pidText (p : Pid) : Bytes :=
  Numeral.decimal p.val ++ [10]

/-- What is read of an existing file. -/
def readPidbuf (content : Bytes) (sys : SysCalls) : Bytes :=
  if sys.read then content.take 31 else []

/-- The process that the file names is still running. -/
def stillRunning (s : Os) (user : Nat) (content : Bytes) (sys : SysCalls) : Bool :=
  let pidbuf := readPidbuf content sys
  if pidbuf.length > 0 then
    let oldPid := strtol (cstr pidbuf)
    decide (oldPid > 0) && s.kill user (wrap32 oldPid) sys.alive == 0
  else
    false

/-- The end of `daemon_write_pidfile`, with the file created. -/
def writePid (p : Pid) (sys : SysCalls) : Int × Option Bytes :=
  let content := (pidText p).take sys.written
  if content.length = (pidText p).length then (0, some content)
  else (-1, if sys.unlinkPartial then none else some content)

/-- The return value and the file afterwards. -/
def daemonWritePidfile (path : Bytes) (p : Pid) (user : Nat) (s : Os) (sys : SysCalls) :
    Int × Option Bytes :=
  if path = [] then
    (0, s.file)
  else if s.file = none ∧ sys.create then
    writePid p sys
  else
    match s.file, sys.openRead with
    | some content, true =>
        if stillRunning s user content sys then
          (-1, s.file)
        else
          -- taken for the file of a crashed instance
          let file := if sys.unlink then none else s.file
          if file = none ∧ sys.recreate then writePid p sys else (-1, file)
    | _, _ => (-1, s.file)

def daemonRemovePidfile (path : Bytes) (file : Option Bytes) (unlink : Bool) : Option Bytes :=
  if path ≠ [] ∧ unlink then none else file

/-! ## The steps of `main` -/

/-- Where `main` calls `daemon_remove_pidfile`. -/
inductive Departure
  | workerFailed
  | serverFailed
  | shutdown
  deriving DecidableEq, Repr

inductive PidAction
  | daemonize (p : Pid) (user : Nat)
  | writePidfile (p : Pid) (sys : SysCalls)
  | removePidfile (p : Pid) (why : Departure) (unlink : Bool)
  /-- the process ends, at the end of `main` or by a crash -/
  | exit (p : Pid)
  deriving DecidableEq, Repr

def Os.setProc (s : Os) (p : Pid) (proc : Option Process) : Os :=
  { s with procs := fun q => if q = p then proc else s.procs q }

def Os.act (path : Bytes) (s : Os) : PidAction → Option Os
  | .daemonize p user =>
      if s.procs p = none then some (s.setProc p (some ⟨user, .daemonized⟩)) else none
  | .writePidfile p sys =>
      match s.procs p with
      | some ⟨user, .daemonized⟩ =>
          let r := daemonWritePidfile path p user s sys
          -- on a failure `main` warns and goes on
          some ({ s with file := r.2 }.setProc p (some ⟨user, .up r.1⟩))
      | _ => none
  | .removePidfile p _ unlink =>
      match s.procs p with
      | some ⟨user, .up _⟩ =>
          some ({ s with file := daemonRemovePidfile path s.file unlink }.setProc p
            (some ⟨user, .removed⟩))
      | _ => none
  | .exit p => if s.procs p = none then none else some (s.setProc p none)

/-- No instance is running yet, and the path may name anything; the empty path names nothing. -/
def pidSystem (path : Bytes) (file : Option Bytes) : GuardedSystem Os PidAction where
  init := { file := if path = [] then none else file, procs := fun _ => none }
  step s a := s.act path a

/-! ## What the file should say -/

/-- The instance is running and its `daemon_write_pidfile` returned 0. -/
def Os.holds (s : Os) (p : Pid) : Prop :=
  ∃ user, s.procs p = some ⟨user, .up 0⟩

def PidfileKept (s : Os) : Prop :=
  ∀ p, s.holds p → s.file = some (pidText p)

/-! ## The text of a PID -/

section Text

variable {p q : Pid}

theorem pidText_eq (p : Pid) : pidText p = Numeral.decimalNat p.val ++ [10] := by
  rw [pidText, Numeral.decimal_natCast]

/-- The text fits into the buffer that it is read back into. -/
theorem pidText_length (p : Pid) : (pidText p).length ≤ 31 := by
  have hlt : p.val < 10 ^ 10 := by
    have hpid := p.lt
    omega
  have hlen := Numeral.decimalNat_length hlt (by decide)
  calc (pidText p).length
      = (Numeral.decimalNat p.val).length + 1 := by rw [pidText_eq, List.length_append]; rfl
    _ ≤ 10 + 1 := Nat.succ_le_succ hlen
    _ ≤ 31 := by decide

/-- The newline is at the end only. -/
theorem newline_notMem (n : Nat) : 10 ∉ Numeral.decimalNat n := by
  intro h
  have hdigit := Numeral.decimalNat_isDigit h
  revert hdigit
  decide

theorem zero_notMem_pidText (p : Pid) : 0 ∉ pidText p := by
  rw [pidText_eq, List.mem_append]
  rintro (h | h)
  · exact Numeral.zero_notMem_decimalNat _ h
  · simp at h

theorem strtol_pidText (p : Pid) : strtol (pidText p) = p.val := by
  have hpid := p.lt
  refine strtol_decimal (by omega) fun b hb => ?_
  obtain rfl : (10 : UInt8) = b := Option.some.inj hb
  rfl

theorem pidText_injective (h : pidText p = pidText q) : p = q := by
  have hval : (p.val : Int) = q.val := by rw [← strtol_pidText, h, strtol_pidText]
  cases p
  cases q
  simp_all

/-- What a short write leaves is the text of no PID. -/
theorem take_ne_pidText {n : Nat} (h : ((pidText p).take n).length ≠ (pidText p).length) :
    (pidText p).take n ≠ pidText q := by
  intro heq
  have hlt : n ≤ (Numeral.decimalNat p.val).length := by
    rw [List.length_take] at h
    have hlen : (pidText p).length = (Numeral.decimalNat p.val).length + 1 := by simp [pidText_eq]
    omega
  rw [pidText_eq, List.take_append_of_le_length hlt] at heq
  -- the newline comes last, so a shorter text has lost it
  have hmem : 10 ∈ (Numeral.decimalNat p.val).take n := by
    rw [heq, pidText_eq]
    simp
  exact newline_notMem p.val (List.mem_of_mem_take hmem)

end Text

/-! ## The two functions -/

section Functions

variable {path : Bytes} {s : Os} {p q : Pid} {user owner : Nat} {sys : SysCalls}

/-- The return value says whether the file holds the PID; after a failure it holds no PID. -/
structure Wrote (p : Pid) (r : Int × Option Bytes) : Prop where
  done : r.1 = 0 → r.2 = some (pidText p)
  others : ∀ q, r.2 = some (pidText q) → q = p ∧ r.1 = 0

theorem wrote_writePid (p : Pid) (sys : SysCalls) : Wrote p (writePid p sys) := by
  unfold writePid
  by_cases hall : ((pidText p).take sys.written).length = (pidText p).length
  · have hsame : (pidText p).take sys.written = pidText p := (List.take_prefix _ _).eq_of_length hall
    rw [if_pos hall, hsame]
    exact ⟨fun _ => rfl, fun q hq => ⟨(pidText_injective (Option.some.inj hq)).symm, rfl⟩⟩
  · rw [if_neg hall]
    refine ⟨fun hrc => absurd hrc (by simp), fun q hq => ?_⟩
    -- what is left of a short write names nobody
    by_cases hrm : sys.unlinkPartial = true
    · simp [hrm] at hq
    · exact absurd (Option.some.inj (by simpa [hrm] using hq)) (take_ne_pidText hall)

theorem wrote_failed : Wrote p (-1, none) :=
  ⟨fun h => absurd h (by decide), fun _ h => by simp at h⟩

/-- The file is there, and is unlinked as that of a crashed instance. -/
def Replaces (s : Os) (user : Nat) (sys : SysCalls) : Prop :=
  ∃ content, s.file = some content ∧ sys.openRead = true ∧ sys.unlink = true ∧
    stillRunning s user content sys = false

theorem daemonWritePidfile_of_replaces (hpath : path ≠ []) (h : Replaces s user sys) :
    Wrote p (daemonWritePidfile path p user s sys) := by
  rcases h with ⟨content, hfile, hread, hunlink, hstale⟩
  unfold daemonWritePidfile
  simp only [hpath, hfile, hread, hunlink, hstale]
  by_cases hagain : sys.recreate = true
  · simpa [hagain] using wrote_writePid p sys
  · simpa [hagain] using wrote_failed

theorem daemonWritePidfile_of_not_replaces (hpath : path ≠ []) (h : ¬ Replaces s user sys) :
    (s.file = none ∧ Wrote p (daemonWritePidfile path p user s sys)) ∨
      daemonWritePidfile path p user s sys = (-1, s.file) := by
  unfold daemonWritePidfile
  cases hfile : s.file with
  | none =>
      by_cases hcreate : sys.create = true
      · exact .inl ⟨rfl, by simpa [hpath, hcreate] using wrote_writePid p sys⟩
      · exact .inr (by simp [hpath, hcreate])
  | some content =>
      -- an existing file that is not replaced stays as it is
      right
      cases hread : sys.openRead with
      | false => simp [hpath]
      | true =>
          cases hstale : stillRunning s user content sys with
          | true => simp [hpath, hstale]
          | false =>
              have hunlink : sys.unlink = false := by
                rw [← Bool.not_eq_true]
                exact fun hunlink => h ⟨content, hfile, hread, hunlink, hstale⟩
              simp [hpath, hstale, hunlink]

theorem lookup_pid (s : Os) (q : Pid) : s.lookup q.val = s.procs q := by
  have hrange : 0 < (q.val : Int).toNat ∧ (q.val : Int).toNat < 2 ^ 31 := ⟨q.pos, q.lt⟩
  rw [Os.lookup, dif_pos hrange]
  rfl

/-- The file of an instance that is running is taken for that of a crashed one if it cannot be read,
or if the instance may not be signalled. -/
theorem stillRunning_pidText {proc : Process} (howner : s.procs q = some proc) :
    stillRunning s user (pidText q) sys = (sys.read && Os.maySignal user proc.user) := by
  unfold stillRunning readPidbuf
  cases hread : sys.read with
  | false => simp
  | true =>
      -- the PID is read back whole, and is that of a live process
      have htake : (pidText q).take 31 = pidText q := List.take_of_length_le (pidText_length q)
      have hpos : 0 < (pidText q).length := by simp [pidText_eq]
      have hint : InInt32 q.val := by
        have hlt := q.lt
        unfold InInt32
        omega
      have hvalue : strtol (cstr (pidText q)) = q.val := by
        rw [cstr_of_zero_notMem (zero_notMem_pidText q), strtol_pidText]
      have hkill : s.kill user (wrap32 q.val) sys.alive =
          if Os.maySignal user proc.user then 0 else -1 := by
        rw [wrap32_of_inInt32 hint, Os.kill, lookup_pid, howner]
      have hval := q.pos
      simp only [if_true, htake, hvalue, hkill, if_pos hpos, Bool.true_and]
      cases Os.maySignal user proc.user <;> simp [hval]

end Functions

/-! ## One step -/

/-- What an instance finds that it must leave alone: the file of a running one that it cannot read
or whose process it may not signal, while it may unlink the file. -/
structure Usurps (s : Os) (p : Pid) (sys : SysCalls) (user : Nat) (q : Pid) (owner : Nat) :
    Prop where
  starts : s.procs p = some ⟨user, .daemonized⟩
  owns : s.procs q = some ⟨owner, .up 0⟩
  unlinks : sys.openRead = true ∧ sys.unlink = true
  blind : sys.read = false ∨ Os.maySignal user owner = false

/-- The step leaves the file of a running instance alone. -/
def sparesPidfile (path : Bytes) (s : Os) : PidAction → Prop
  | .writePidfile p sys => path ≠ [] ∧ ∀ user q owner, ¬ Usurps s p sys user q owner
  | .removePidfile p _ unlink => unlink = true → s.holds p ∨ ∀ q, ¬ s.holds q
  | .daemonize _ _ | .exit _ => True

/-- The empty path names nothing. -/
def NoPath (path : Bytes) (s : Os) : Prop :=
  path = [] → s.file = none

section Step

variable {path : Bytes} {s s' : Os} {p q : Pid}

@[simp] theorem setProc_file (s : Os) (p : Pid) (proc : Option Process) :
    (s.setProc p proc).file = s.file :=
  rfl

theorem holds_setProc {proc : Option Process} :
    (s.setProc p proc).holds q ↔
      (q = p ∧ ∃ user, proc = some ⟨user, .up 0⟩) ∨ (q ≠ p ∧ s.holds q) := by
  unfold Os.holds Os.setProc
  by_cases hq : q = p <;> simp [hq]

theorem act_daemonize {user : Nat} (hs : s.act path (.daemonize p user) = some s') :
    s' = s.setProc p (some ⟨user, .daemonized⟩) := by
  simp only [Os.act] at hs
  split at hs <;> cases hs
  rfl

theorem act_exit (hs : s.act path (.exit p) = some s') : s' = s.setProc p none := by
  simp only [Os.act] at hs
  split at hs <;> cases hs
  rfl

theorem act_writePidfile {sys : SysCalls} (hs : s.act path (.writePidfile p sys) = some s') :
    ∃ user, s.procs p = some ⟨user, .daemonized⟩ ∧
      s' = { s with file := (daemonWritePidfile path p user s sys).2 }.setProc p
        (some ⟨user, .up (daemonWritePidfile path p user s sys).1⟩) := by
  simp only [Os.act] at hs
  split at hs
  · next user hstage =>
      cases hs
      exact ⟨user, hstage, rfl⟩
  · cases hs

theorem act_removePidfile {why : Departure} {unlink : Bool}
    (hs : s.act path (.removePidfile p why unlink) = some s') :
    ∃ user, s' = { s with file := daemonRemovePidfile path s.file unlink }.setProc p
      (some ⟨user, .removed⟩) := by
  simp only [Os.act] at hs
  split at hs
  · next user _ _ =>
      cases hs
      exact ⟨user, rfl⟩
  · cases hs

theorem NoPath.step {a : PidAction} (h : NoPath path s) (hs : s.act path a = some s') :
    NoPath path s' := by
  intro hpath
  have hfile := h hpath
  cases a with
  | daemonize p user =>
      rw [act_daemonize hs]
      exact hfile
  | exit p =>
      rw [act_exit hs]
      exact hfile
  | writePidfile p sys =>
      rcases act_writePidfile hs with ⟨user, _, rfl⟩
      simpa [daemonWritePidfile, hpath] using hfile
  | removePidfile p why unlink =>
      rcases act_removePidfile hs with ⟨user, rfl⟩
      simpa [daemonRemovePidfile, hpath] using hfile

/-- An instance that does not hold the file changes nothing for those that do. -/
theorem PidfileKept.setProc {proc : Option Process} (h : PidfileKept s)
    (hproc : ∀ user, proc ≠ some ⟨user, .up 0⟩) : PidfileKept (s.setProc p proc) := by
  intro q hq
  rcases holds_setProc.1 hq with ⟨_, user, heq⟩ | ⟨_, hholds⟩
  · exact absurd heq (hproc user)
  · exact h q hholds

/-- At most one instance holds the file. -/
theorem PidfileKept.unique (h : PidfileKept s) (hp : s.holds p) (hq : s.holds q) : p = q :=
  pidText_injective (Option.some.inj ((h p hp).symm.trans (h q hq)))

/-- An instance that is only starting does not hold the file. -/
theorem ne_of_holds {user : Nat} (hstage : s.procs p = some ⟨user, .daemonized⟩)
    (hq : s.holds q) : q ≠ p := by
  rintro rfl
  rcases hq with ⟨owner, hup⟩
  rw [hstage] at hup
  cases hup

section Write

variable {user : Nat} {sys : SysCalls} {r : Int × Option Bytes}

/-- When the file is replaced, it is right exactly if nobody held it. -/
theorem PidfileKept.written_iff (hstage : s.procs p = some ⟨user, .daemonized⟩) (hr : Wrote p r) :
    PidfileKept ({ s with file := r.2 }.setProc p (some ⟨user, .up r.1⟩)) ↔
      ∀ q, ¬ s.holds q := by
  constructor
  · intro hkept q hq
    have hne := ne_of_holds hstage hq
    have hfile := hkept q (holds_setProc.2 (.inr ⟨hne, hq⟩))
    exact hne (hr.others q hfile).1
  · intro hnone q hq
    rcases holds_setProc.1 hq with ⟨rfl, _, heq⟩ | ⟨_, hholds⟩
    · exact hr.done (by simpa using congrArg (Option.map Process.stage) heq)
    · exact absurd hholds (hnone q)

variable (sys) in
/-- A start that takes the file for stale is at fault exactly if an instance holds it. -/
theorem PidfileKept.usurps_iff (h : PidfileKept s)
    (hstage : s.procs p = some ⟨user, .daemonized⟩) :
    (∃ u q owner, Usurps s p sys u q owner) ↔ Replaces s user sys ∧ ∃ q, s.holds q := by
  constructor
  · rintro ⟨u, q, owner, hstarts, howns, hunlinks, hblind⟩
    obtain rfl : u = user := by
      rw [hstarts] at hstage
      cases hstage
      rfl
    have hstale : stillRunning s u (pidText q) sys = false := by
      rw [stillRunning_pidText howns]
      rcases hblind with hread | hsignal
      · simp [hread]
      · simp [hsignal]
    exact ⟨⟨_, h q ⟨owner, howns⟩, hunlinks.1, hunlinks.2, hstale⟩, q, owner, howns⟩
  · rintro ⟨⟨content, hfile, hread, hunlink, hstale⟩, q, owner, howns⟩
    -- what the instance finds can only be the text of the one that holds the file
    obtain rfl : content = pidText q := Option.some.inj (hfile.symm.trans (h q ⟨owner, howns⟩))
    rw [stillRunning_pidText howns] at hstale
    refine ⟨user, q, owner, hstage, howns, ⟨hread, hunlink⟩, ?_⟩
    exact Bool.and_eq_false_iff.1 hstale

theorem PidfileKept.write_iff (h : PidfileKept s) (hpath : NoPath path s)
    (hs : s.act path (.writePidfile p sys) = some s') :
    PidfileKept s' ↔ sparesPidfile path s (.writePidfile p sys) := by
  rcases act_writePidfile hs with ⟨user, hstage, rfl⟩
  have husurps := h.usurps_iff sys hstage
  simp only [sparesPidfile]
  by_cases hempty : path = []
  · -- the instance believes to hold a file that does not exist
    refine iff_of_false ?_ fun hspares => hspares.1 hempty
    intro hkept
    have hfile := hkept p (holds_setProc.2 (.inl ⟨rfl, user, by simp [daemonWritePidfile, hempty]⟩))
    simp [daemonWritePidfile, hempty, hpath hempty] at hfile
  -- replacing the file is the only way to lose another instance's
  · by_cases hreplaces : Replaces s user sys
    · rw [PidfileKept.written_iff hstage (daemonWritePidfile_of_replaces hempty hreplaces)]
      constructor
      · intro hnone
        refine ⟨hempty, fun u q owner husurped => ?_⟩
        rcases (husurps.1 ⟨u, q, owner, husurped⟩).2 with ⟨k, hk⟩
        exact hnone k hk
      · rintro ⟨_, hspares⟩ q hq
        rcases husurps.2 ⟨hreplaces, q, hq⟩ with ⟨u, k, owner, husurped⟩
        exact hspares u k owner husurped
    · refine iff_of_true ?_ ⟨hempty, fun u q owner husurped => ?_⟩
      · rcases daemonWritePidfile_of_not_replaces (p := p) hempty hreplaces with
          ⟨habsent, hwrote⟩ | hrefused
        · refine (PidfileKept.written_iff hstage hwrote).2 fun q hq => ?_
          have hfile := h q hq
          rw [habsent] at hfile
          cases hfile
        · rw [hrefused]
          exact h.setProc fun u heq => by simp at heq
      · exact hreplaces (husurps.1 ⟨u, q, owner, husurped⟩).1

end Write

theorem PidfileKept.remove_iff (h : PidfileKept s) (hpath : NoPath path s) {why : Departure}
    {unlink : Bool} (hs : s.act path (.removePidfile p why unlink) = some s') :
    PidfileKept s' ↔ sparesPidfile path s (.removePidfile p why unlink) := by
  rcases act_removePidfile hs with ⟨user, rfl⟩
  simp only [sparesPidfile]
  by_cases hgone : path ≠ [] ∧ unlink = true
  · have hfile : daemonRemovePidfile path s.file unlink = none := by
      rw [daemonRemovePidfile, if_pos hgone]
    rw [hfile]
    constructor
    -- a path that is gone is the file of nobody who is still up
    · rintro hkept -
      by_cases hp : s.holds p
      · exact .inl hp
      · refine .inr fun q hq => ?_
        have hne : q ≠ p := fun heq => hp (heq ▸ hq)
        have hnone := hkept q (holds_setProc.2 (.inr ⟨hne, hq⟩))
        cases hnone
    · intro hspares q hq
      rcases holds_setProc.1 hq with ⟨_, _, heq⟩ | ⟨hne, hholds⟩
      · cases heq
      · rcases hspares hgone.2 with hp | hnone
        · exact absurd (h.unique hholds hp) hne
        · exact absurd hholds (hnone q)
  · have hfile : daemonRemovePidfile path s.file unlink = s.file := by
      rw [daemonRemovePidfile, if_neg hgone]
    rw [hfile]
    refine iff_of_true (h.setProc fun u heq => by simp at heq) fun hunlink => .inr fun q hq => ?_
    -- only the empty path is left, and nobody can hold that
    have hempty : path = [] := by
      by_contra hpath'
      exact hgone ⟨hpath', hunlink⟩
    have hheld := h q hq
    rw [hpath hempty] at hheld
    cases hheld

theorem PidfileKept.step_iff {a : PidAction} (h : PidfileKept s) (hpath : NoPath path s)
    (hs : s.act path a = some s') : PidfileKept s' ↔ sparesPidfile path s a := by
  cases a with
  | daemonize p user =>
      rw [act_daemonize hs]
      exact iff_of_true (h.setProc fun u heq => by simp at heq) trivial
  | exit p =>
      rw [act_exit hs]
      exact iff_of_true (h.setProc fun u heq => by simp at heq) trivial
  | writePidfile p sys => exact h.write_iff hpath hs
  | removePidfile p why unlink => exact h.remove_iff hpath hs

end Step

/-- The file says who is running, all along a run, exactly if no step unlinks or replaces the file
of a running instance. -/
theorem pidfile_kept_iff (path : Bytes) (file : Option Bytes) (as : List PidAction) :
    (pidSystem path file).AllStates PidfileKept (pidSystem path file).init as ↔
      (pidSystem path file).AllSteps (sparesPidfile path) (pidSystem path file).init as :=
  allStates_iff_allSteps (I := NoPath path) (fun _ _ _ hp hs => hp.step hs)
    (fun _ _ _ hp h hq hs => (h.step_iff hp hs).2 hq)
    (fun _ _ _ hp h hq hs h' => hq ((h.step_iff hp hs).1 h'))
    as _ (fun hpath => by simp [pidSystem, hpath]) (fun p hp => by
      rcases hp with ⟨user, hnone⟩
      simp [pidSystem] at hnone)

namespace Sample

def first : Pid :=
  ⟨100, by decide, by decide⟩

def second : Pid :=
  ⟨200, by decide, by decide⟩

def pidPath : Bytes :=
  ascii "/run/professord/professord.pid"

/-- The second instance is refused the file, cannot bind the port and removes the file of the
first. -/
def refusedStart : List PidAction :=
  [.daemonize first 0, .writePidfile first {}, .daemonize second 0, .writePidfile second {},
    .removePidfile second .serverFailed true]

theorem refusedStart_replays :
    ((pidSystem pidPath none).runGuarded Free (pidSystem pidPath none).init
      refusedStart).isSome = true := by
  decide

end Sample

/-- An instance whose `daemon_write_pidfile` failed removes the file all the same. -/
theorem not_pidfile_kept :
    ¬ ∀ (path : Bytes) (file : Option Bytes) (s : Os), path ≠ [] →
        (pidSystem path file).Reachable Free s → PidfileKept s := by
  intro hall
  have hkept := hall Sample.pidPath none _ (by decide)
    (reachable_of_isSome Sample.refusedStart_replays)
  have hfile := hkept Sample.first ⟨0, by decide⟩
  revert hfile
  decide

end Professord
