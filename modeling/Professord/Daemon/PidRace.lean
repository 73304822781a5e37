import Mathlib.Logic.Function.Basic
import Professord.Daemon.PidFile

/-!
# PidRace — calls of `daemon_write_pidfile` that run at the same time

Each system call of `daemon_write_pidfile` is a step, and the calls of several live processes
interleave.  A file can be unlinked while another process has it open, so the path names one of
several files.

A call that runs alone does what `daemonWritePidfile` says (`daemonWritePidfile_alone`).  Two calls
can both succeed if one of them takes the file that the other has just created for a stale one.
-/

namespace Professord

open CText CParse GuardedSystem

/-! ## Calls in progress -/

/-- The next system call of `daemon_write_pidfile`, or its return value. -/
inductive CallPc
  | create
  | openOld
  | readOld (oldFd : Nat)
  | killOld (oldPid : Int)
  | unlinkStale
  | recreate
  | write (fd : Nat)
  | unlinkPartial
  | returned (rc : Int)
  deriving DecidableEq, Repr

/-- The call has created the file, and has not failed. -/
def CallPc.owns : CallPc → Bool
  | .write _ | .unlinkPartial => true
  | .returned rc => rc == 0
  | _ => false

structure PidInode where
  content : Bytes
  /-- the call that has created the file; only the statements about the code look at it -/
  creator : Option Pid
  deriving DecidableEq, Repr

/-- What the path names, the files there are, and the calls. -/
structure PidCalls where
  link : Option Nat
  inodes : Nat → PidInode
  next : Nat
  pc : Pid → CallPc

namespace PidCalls

def file (s : PidCalls) : Option Bytes :=
  s.link.map fun inode => (s.inodes inode).content

/-- What `kill` sees of the callers, which all live. -/
def os (users : Pid → Option Nat) (s : PidCalls) : Os where
  file := s.file
  procs := fun p => (users p).map fun user => ⟨user, .daemonized⟩

def setPc (s : PidCalls) (p : Pid) (pc : CallPc) : PidCalls :=
  { s with pc := Function.update s.pc p pc }

def unlink (s : PidCalls) (done : Bool) : PidCalls :=
  { s with link := if done then none else s.link }

/-- `open(path, O_CREAT | O_EXCL | O_WRONLY, 0644)`, which fails if the path names something. -/
def openExcl (s : PidCalls) (p : Pid) (may : Bool) (failed : CallPc) : PidCalls :=
  if s.link = none ∧ may then
    { s with
      link := some s.next
      inodes := Function.update s.inodes s.next ⟨[], some p⟩
      next := s.next + 1 }.setPc p (.write s.next)
  else
    s.setPc p failed

/-- `write(fd, buf, len)`, of which `written` bytes arrive. -/
def writePid (s : PidCalls) (p : Pid) (fd written : Nat) : PidCalls :=
  let content := (pidText p).take written
  { s with inodes := Function.update s.inodes fd { s.inodes fd with content := content } }.setPc p
    (if content.length = (pidText p).length then .returned 0 else .unlinkPartial)

/-- The next system call of `p`. -/
def act (path : Bytes) (users : Pid → Option Nat) (s : PidCalls) (p : Pid) (sys : SysCalls) :
    Option PidCalls :=
  match users p with
  | none => none
  | some user =>
      match s.pc p with
      | .create =>
          some (if path = [] then s.setPc p (.returned 0) else s.openExcl p sys.create .openOld)
      | .openOld =>
          match s.link, sys.openRead with
          | some inode, true => some (s.setPc p (.readOld inode))
          | _, _ => some (s.setPc p (.returned (-1)))
      | .readOld oldFd =>
          let pidbuf := readPidbuf (s.inodes oldFd).content sys
          let oldPid := strtol (cstr pidbuf)
          some (s.setPc p
            (if pidbuf.length > 0 ∧ oldPid > 0 then .killOld oldPid else .unlinkStale))
      | .killOld oldPid =>
          some (s.setPc p
            (if (s.os users).kill user (wrap32 oldPid) sys.alive == 0 then .returned (-1)
            else .unlinkStale))
      -- the result of `unlink` is not looked at
      | .unlinkStale => some ((s.unlink sys.unlink).setPc p .recreate)
      | .recreate => some (s.openExcl p sys.recreate (.returned (-1)))
      | .write fd => some (s.writePid p fd sys.written)
      | .unlinkPartial => some ((s.unlink sys.unlinkPartial).setPc p (.returned (-1)))
      | .returned _ => none

end PidCalls

/-- The processes in `users` call the function; the path names a file or nothing. -/
def pidCallSystem (path : Bytes) (users : Pid → Option Nat) (old : Option Bytes) :
    GuardedSystem PidCalls (Pid × SysCalls) where
  init :=
    { link := old.map fun _ => 0
      inodes := fun _ => ⟨old.getD [], none⟩
      next := 1
      pc := fun _ => .create }
  step s a := s.act path users a.1 a.2

/-! ## System calls -/

namespace PidCalls

section Fields

variable {s : PidCalls} {p q : Pid} {pc : CallPc}

@[simp] theorem setPc_pc : (s.setPc p pc).pc = Function.update s.pc p pc :=
  rfl

theorem owns_of_pc {b : Bool} (hpc : s.pc p = pc) (hb : pc.owns = b) : (s.pc p).owns = b := by
  rw [hpc, hb]

@[simp] theorem setPc_link : (s.setPc p pc).link = s.link :=
  rfl

@[simp] theorem setPc_inodes : (s.setPc p pc).inodes = s.inodes :=
  rfl

@[simp] theorem setPc_file : (s.setPc p pc).file = s.file :=
  rfl

@[simp] theorem setPc_os (users : Pid → Option Nat) : (s.setPc p pc).os users = s.os users :=
  rfl

@[simp] theorem unlink_pc (s : PidCalls) (done : Bool) : (s.unlink done).pc = s.pc :=
  rfl

end Fields

section Calls

variable {path : Bytes} {users : Pid → Option Nat} {s : PidCalls} {p : Pid} {user : Nat}
  {sys : SysCalls}

theorem act_noPath (hp : users p = some user) (hpc : s.pc p = .create) (hpath : path = []) :
    s.act path users p sys = some (s.setPc p (.returned 0)) := by
  simp [act, hp, hpc, hpath]

theorem act_create (hp : users p = some user) (hpc : s.pc p = .create) (hpath : path ≠ []) :
    s.act path users p sys = some (s.openExcl p sys.create .openOld) := by
  simp [act, hp, hpc, hpath]

theorem act_openOld (hp : users p = some user) (hpc : s.pc p = .openOld) {inode : Nat}
    (hlink : s.link = some inode) (hread : sys.openRead = true) :
    s.act path users p sys = some (s.setPc p (.readOld inode)) := by
  simp [act, hp, hpc, hlink, hread]

theorem act_openOld_failed (hp : users p = some user) (hpc : s.pc p = .openOld)
    (hfails : s.link = none ∨ sys.openRead = false) :
    s.act path users p sys = some (s.setPc p (.returned (-1))) := by
  rcases hfails with hlink | hread
  · simp [act, hp, hpc, hlink]
  · cases hlink : s.link <;> simp [act, hp, hpc, hlink, hread]

theorem act_readOld (hp : users p = some user) {oldFd : Nat} (hpc : s.pc p = .readOld oldFd) :
    s.act path users p sys = some (s.setPc p
      (if (readPidbuf (s.inodes oldFd).content sys).length > 0 ∧
          strtol (cstr (readPidbuf (s.inodes oldFd).content sys)) > 0 then
        .killOld (strtol (cstr (readPidbuf (s.inodes oldFd).content sys)))
      else .unlinkStale)) := by
  simp only [act, hp, hpc]

theorem act_killOld (hp : users p = some user) {oldPid : Int} (hpc : s.pc p = .killOld oldPid) :
    s.act path users p sys = some (s.setPc p
      (if (s.os users).kill user (wrap32 oldPid) sys.alive == 0 then .returned (-1)
      else .unlinkStale)) := by
  simp only [act, hp, hpc]

theorem act_unlinkStale (hp : users p = some user) (hpc : s.pc p = .unlinkStale) :
    s.act path users p sys = some ((s.unlink sys.unlink).setPc p .recreate) := by
  simp only [act, hp, hpc]

theorem act_recreate (hp : users p = some user) (hpc : s.pc p = .recreate) :
    s.act path users p sys = some (s.openExcl p sys.recreate (.returned (-1))) := by
  simp only [act, hp, hpc]

theorem act_write (hp : users p = some user) {fd : Nat} (hpc : s.pc p = .write fd) :
    s.act path users p sys = some (s.writePid p fd sys.written) := by
  simp only [act, hp, hpc]

theorem act_unlinkPartial (hp : users p = some user) (hpc : s.pc p = .unlinkPartial) :
    s.act path users p sys = some ((s.unlink sys.unlinkPartial).setPc p (.returned (-1))) := by
  simp only [act, hp, hpc]

/-- Only live processes take steps, until their call has returned. -/
theorem act_none (h : users p = none ∨ ∃ rc, s.pc p = .returned rc) :
    s.act path users p sys = none := by
  rcases h with hp | ⟨rc, hpc⟩
  · simp only [act, hp]
  · cases hp : users p <;> simp only [act, hp, hpc]

theorem openExcl_new (failed : CallPc) (hlink : s.link = none) :
    s.openExcl p true failed = { s with
      link := some s.next
      inodes := Function.update s.inodes s.next ⟨[], some p⟩
      next := s.next + 1 }.setPc p (.write s.next) :=
  if_pos ⟨hlink, rfl⟩

end Calls

end PidCalls

/-! ## A call that runs alone -/

namespace PidCalls

section Alone

variable {path : Bytes} {users : Pid → Option Nat} {old : Option Bytes} {s t : PidCalls} {p : Pid}
  {user : Nat} {sys : SysCalls} {r : Int × Option Bytes}

/-- With the same choices for all its system calls, the call of `p` returns `r.1` and leaves `r.2`
at the path. -/
def Finishes (path : Bytes) (users : Pid → Option Nat) (old : Option Bytes) (p : Pid)
    (sys : SysCalls) (r : Int × Option Bytes) (s : PidCalls) : Prop :=
  ∃ n t, (pidCallSystem path users old).runGuarded Free s (List.replicate n (p, sys)) = some t ∧
    t.pc p = .returned r.1 ∧ t.file = r.2

theorem finishes_of_returned (hpc : s.pc p = .returned r.1) (hfile : s.file = r.2) :
    Finishes path users old p sys r s :=
  ⟨0, s, rfl, hpc, hfile⟩

theorem finishes_step (hs : s.act path users p sys = some t)
    (ht : Finishes path users old p sys r t) : Finishes path users old p sys r s := by
  obtain ⟨n, u, hrun, hend⟩ := ht
  refine ⟨n + 1, u, ?_, hend⟩
  have hstep : (pidCallSystem path users old).step s (p, sys) = some t := hs
  simp [List.replicate_succ, runGuarded, Free, hstep, hrun]

/-- What becomes of a file that is taken for stale. -/
def replaceStale (p : Pid) (file : Option Bytes) (sys : SysCalls) : Int × Option Bytes :=
  let file := if sys.unlink then none else file
  if file = none ∧ sys.recreate then Professord.writePid p sys else (-1, file)

variable (hp : users p = some user)
include hp

theorem finishes_write {fd : Nat} (hpc : s.pc p = .write fd) (hlink : s.link = some fd) :
    Finishes path users old p sys (Professord.writePid p sys) s := by
  refine finishes_step (act_write hp hpc) ?_
  by_cases hall : ((pidText p).take sys.written).length = (pidText p).length
  · have hr : Professord.writePid p sys = (0, some ((pidText p).take sys.written)) := by
      unfold Professord.writePid
      exact if_pos hall
    rw [hr]
    refine finishes_of_returned ?_ ?_
    · simp only [PidCalls.writePid, setPc_pc, Function.update_self, if_pos hall]
    · simp [file, PidCalls.writePid, hlink]
  · have hr : Professord.writePid p sys =
        (-1, if sys.unlinkPartial then none else some ((pidText p).take sys.written)) := by
      unfold Professord.writePid
      exact if_neg hall
    have hshort : (s.writePid p fd sys.written).pc p = .unlinkPartial := by
      simp only [PidCalls.writePid, setPc_pc, Function.update_self, if_neg hall]
    rw [hr]
    refine finishes_step (act_unlinkPartial hp hshort) (finishes_of_returned (by simp) ?_)
    cases sys.unlinkPartial <;> simp [file, unlink, PidCalls.writePid, hlink]

theorem finishes_openExcl {may : Bool} {failed : CallPc}
    (hfailed : ¬ (s.link = none ∧ may = true) →
      Finishes path users old p sys r (s.setPc p failed))
    (hcreated : s.link = none ∧ may = true → r = Professord.writePid p sys) :
    Finishes path users old p sys r (s.openExcl p may failed) := by
  by_cases hnew : s.link = none ∧ may = true
  · rw [hcreated hnew, openExcl, if_pos hnew]
    exact finishes_write hp (by simp) rfl
  · rw [openExcl, if_neg hnew]
    exact hfailed hnew

theorem finishes_stale (hpc : s.pc p = .unlinkStale) :
    Finishes path users old p sys (replaceStale p s.file sys) s := by
  refine finishes_step (act_unlinkStale hp hpc) ?_
  have hfile : (if sys.unlink then none else s.file) = (s.unlink sys.unlink).file := by
    cases sys.unlink <;> rfl
  have hnone : (s.unlink sys.unlink).file = none ↔ (s.unlink sys.unlink).link = none := by
    simp [file]
  simp only [replaceStale, hfile]
  generalize s.unlink sys.unlink = u at hnone ⊢
  refine finishes_step (act_recreate hp (by simp)) (finishes_openExcl hp ?_ ?_)
  · intro hfailed
    have hfailed' : ¬ (u.file = none ∧ sys.recreate = true) := by rwa [hnone]
    simp only [if_neg hfailed']
    exact finishes_of_returned (by simp) rfl
  · intro hcreated
    have hcreated' : u.file = none ∧ sys.recreate = true := by rwa [hnone]
    simp only [if_pos hcreated']

/-- The file is read, and then either refused or taken for stale. -/
theorem finishes_read {inode : Nat} (hpc : s.pc p = .readOld inode) :
    Finishes path users old p sys
      (if stillRunning (s.os users) user (s.inodes inode).content sys then (-1, s.file)
      else replaceStale p s.file sys) s := by
  refine finishes_step (act_readOld hp hpc) ?_
  set pidbuf := readPidbuf (s.inodes inode).content sys with hpidbuf
  set oldPid := strtol (cstr pidbuf) with holdPid
  by_cases hnamed : pidbuf.length > 0 ∧ oldPid > 0
  · rw [if_pos hnamed]
    have hpckill : (s.setPc p (.killOld oldPid)).pc p = .killOld oldPid := by simp
    have hrunning : stillRunning (s.os users) user (s.inodes inode).content sys =
        ((s.os users).kill user (wrap32 oldPid) sys.alive == 0) := by
      simp [stillRunning, ← hpidbuf, ← holdPid, hnamed.1, hnamed.2]
    refine finishes_step (act_killOld hp hpckill) ?_
    rw [hrunning, setPc_os]
    split_ifs
    · exact finishes_of_returned (by simp) rfl
    · exact finishes_stale hp (by simp)
  · rw [if_neg hnamed]
    have hstale : stillRunning (s.os users) user (s.inodes inode).content sys = false := by
      simp only [stillRunning, ← hpidbuf, ← holdPid]
      split_ifs with hlen
      · have hpos : ¬ oldPid > 0 := fun hpos => hnamed ⟨hlen, hpos⟩
        simp [hpos]
      · rfl
    rw [hstale]
    exact finishes_stale hp (by simp)

end Alone

end PidCalls

/-- A call that no other one interrupts is `daemonWritePidfile`. -/
theorem daemonWritePidfile_alone {path : Bytes} {users : Pid → Option Nat} {old : Option Bytes}
    {s : PidCalls} {p : Pid} {user : Nat} {sys : SysCalls} (hp : users p = some user)
    (hpc : s.pc p = .create) :
    PidCalls.Finishes path users old p sys (daemonWritePidfile path p user (s.os users) sys) s := by
  have hfile : (s.os users).file = s.file := rfl
  unfold daemonWritePidfile
  by_cases hpath : path = []
  · rw [if_pos hpath]
    exact PidCalls.finishes_step (PidCalls.act_noPath hp hpc hpath)
      (PidCalls.finishes_of_returned (by simp) rfl)
  have hnone : s.file = none ↔ s.link = none := by simp [PidCalls.file]
  simp only [if_neg hpath, hfile, hnone]
  refine PidCalls.finishes_step (PidCalls.act_create hp hpc hpath)
    (PidCalls.finishes_openExcl hp ?_ fun hnew => if_pos hnew)
  intro hold
  rw [if_neg hold]
  have hpcopen : (s.setPc p .openOld).pc p = .openOld := by simp
  cases hlink : s.link with
  | none =>
      simp only [hnone.2 hlink]
      exact PidCalls.finishes_step (PidCalls.act_openOld_failed hp hpcopen (.inl hlink))
        (PidCalls.finishes_of_returned (by simp) (hnone.2 hlink))
  | some inode =>
      have hcontent : s.file = some (s.inodes inode).content := by simp [PidCalls.file, hlink]
      simp only [hcontent]
      cases hread : sys.openRead with
      | false =>
          exact PidCalls.finishes_step (PidCalls.act_openOld_failed hp hpcopen (.inr hread))
            (PidCalls.finishes_of_returned (by simp) hcontent)
      | true =>
          refine PidCalls.finishes_step (PidCalls.act_openOld hp hpcopen hlink hread) ?_
          have hpcread : ((s.setPc p .openOld).setPc p (.readOld inode)).pc p = .readOld inode := by
            simp
          simpa [hcontent, PidCalls.replaceStale] using PidCalls.finishes_read hp hpcread

/-! ## Exclusion -/

/-- At most one call returns 0, and the file then names its process. -/
structure Exclusive (s : PidCalls) : Prop where
  one : ∀ p q, s.pc p = .returned 0 → s.pc q = .returned 0 → p = q
  named : ∀ p, s.pc p = .returned 0 → s.file = some (pidText p)

/-- What the path names was created by a call that is still at it, or has returned 0. -/
def PidCalls.taken (s : PidCalls) : Bool :=
  match s.link with
  | some inode =>
      match (s.inodes inode).creator with
      | some q => (s.pc q).owns
      | none => false
  | none => false

/-- There is a path, and the step does not unlink, as stale, the file of another call. -/
def sparesCreator (path : Bytes) (s : PidCalls) (a : Pid × SysCalls) : Prop :=
  path ≠ [] ∧ (s.pc a.1 = .unlinkStale → a.2.unlink = true → s.taken = false)

instance (path : Bytes) (s : PidCalls) (a : Pid × SysCalls) :
    Decidable (sparesCreator path s a) :=
  inferInstanceAs (Decidable (_ ∧ (_ → _ → _)))

/-! ## One step -/

namespace PidCalls

/-- The path names the file that `p` has created, and `p` is at it. -/
structure Keeps (s : PidCalls) (p : Pid) (inode : Nat) : Prop where
  names : s.link = some inode
  creator : (s.inodes inode).creator = some p
  writes : ∀ fd, s.pc p = .write fd → fd = inode
  written : ∀ rc, s.pc p = .returned rc → (s.inodes inode).content = pidText p

/-- Every call that has created the file and not failed keeps it. -/
def Kept (s : PidCalls) : Prop :=
  ∀ p, (s.pc p).owns = true → ∃ inode, s.Keeps p inode

/-- What a system call does to the files, and where it leaves the call. -/
inductive Effect (s : PidCalls) (p : Pid) (sys : SysCalls) : PidCalls → Prop
  | moves {pc : CallPc} (hpc : (s.pc p).owns = false) (hnext : pc.owns = false) :
      Effect s p sys (s.setPc p pc)
  | creates (failed : CallPc) (hpc : (s.pc p).owns = false) (hlink : s.link = none) :
      Effect s p sys (s.openExcl p true failed)
  | unlinks (hpc : s.pc p = .unlinkStale) (hdone : sys.unlink = true) :
      Effect s p sys ((s.unlink true).setPc p .recreate)
  | writes (fd : Nat) (hpc : s.pc p = .write fd) : Effect s p sys (s.writePid p fd sys.written)
  | givesUp (hpc : s.pc p = .unlinkPartial) :
      Effect s p sys ((s.unlink sys.unlinkPartial).setPc p (.returned (-1)))

section Step

variable {path : Bytes} {users : Pid → Option Nat} {s s' : PidCalls} {p q : Pid} {sys : SysCalls}

theorem Effect.openExcl {may : Bool} {failed : CallPc} (hpc : (s.pc p).owns = false)
    (hfailed : failed.owns = false) : Effect s p sys (s.openExcl p may failed) := by
  by_cases hnew : s.link = none ∧ may = true
  · obtain ⟨hlink, rfl⟩ := hnew
    exact .creates failed hpc hlink
  · rw [PidCalls.openExcl, if_neg hnew]
    exact .moves hpc hfailed

theorem effect_of_act (hpath : path ≠ []) (hs : s.act path users p sys = some s') :
    Effect s p sys s' := by
  cases huser : users p with
  | none =>
      rw [act_none (.inl huser)] at hs
      cases hs
  | some user =>
      cases hpc : s.pc p with
      | create =>
          rw [act_create huser hpc hpath] at hs
          cases hs
          exact .openExcl (owns_of_pc hpc rfl) rfl
      | openOld =>
          by_cases hopens : s.link = none ∨ sys.openRead = false
          · rw [act_openOld_failed huser hpc hopens] at hs
            cases hs
            exact .moves (owns_of_pc hpc rfl) rfl
          · rw [not_or, Bool.not_eq_false] at hopens
            obtain ⟨inode, hlink⟩ := Option.ne_none_iff_exists'.1 hopens.1
            rw [act_openOld huser hpc hlink hopens.2] at hs
            cases hs
            exact .moves (owns_of_pc hpc rfl) rfl
      | readOld oldFd =>
          rw [act_readOld huser hpc] at hs
          cases hs
          exact .moves (owns_of_pc hpc rfl) (by split_ifs <;> rfl)
      | killOld oldPid =>
          rw [act_killOld huser hpc] at hs
          cases hs
          exact .moves (owns_of_pc hpc rfl) (by split_ifs <;> rfl)
      | unlinkStale =>
          rw [act_unlinkStale huser hpc] at hs
          cases hs
          cases hdone : sys.unlink with
          | true => exact .unlinks hpc hdone
          | false => exact .moves (owns_of_pc hpc rfl) rfl
      | recreate =>
          rw [act_recreate huser hpc] at hs
          cases hs
          exact .openExcl (owns_of_pc hpc rfl) rfl
      | write fd =>
          rw [act_write huser hpc] at hs
          cases hs
          exact .writes fd hpc
      | unlinkPartial =>
          rw [act_unlinkPartial huser hpc] at hs
          cases hs
          exact .givesUp hpc
      | returned rc =>
          rw [act_none (.inr ⟨rc, hpc⟩)] at hs
          cases hs

theorem Effect.pc_other (h : Effect s p sys s') (hq : q ≠ p) : s'.pc q = s.pc q := by
  cases h with
  | moves hpc hnext => simp [hq]
  | creates failed hpc hlink =>
      rw [openExcl_new failed hlink]
      simp [hq]
  | unlinks hpc hdone => simp [hq]
  | writes fd hpc => simp [writePid, hq]
  | givesUp hpc => simp [hq]

/-- Only one call keeps the file. -/
theorem Keeps.unique {i j : Nat} (hp : s.Keeps p i) (hq : s.Keeps q j) : p = q := by
  obtain rfl : i = j := Option.some.inj (hp.names.symm.trans hq.names)
  exact Option.some.inj (hp.creator.symm.trans hq.creator)

/-- A file that is kept is taken. -/
theorem Keeps.taken {i : Nat} (h : s.Keeps p i) (howns : (s.pc p).owns = true) :
    s.taken = true := by
  simp [PidCalls.taken, h.names, h.creator, howns]

/-- A call keeps the file when another one leaves the path and the file alone. -/
theorem Keeps.frame {i : Nat} (h : s.Keeps q i) (hlink : s'.link = s.link)
    (hinode : s'.inodes i = s.inodes i) (hpc : s'.pc q = s.pc q) : s'.Keeps q i := by
  constructor
  · rw [hlink, h.names]
  · rw [hinode, h.creator]
  · rw [hpc]
    exact h.writes
  · rw [hpc, hinode]
    exact h.written

theorem kept_step (h : Kept s) (hspares : sparesCreator path s (p, sys))
    (hs : s.act path users p sys = some s') : Kept s' := by
  intro q howns
  cases effect_of_act hspares.1 hs with
  | @moves pc hpc hnext =>
      by_cases hq : q = p
      · subst hq
        simp [hnext] at howns
      · have hsame : (s.setPc p pc).pc q = s.pc q := by simp [hq]
        rw [hsame] at howns
        obtain ⟨i, hkeeps⟩ := h q howns
        exact ⟨i, hkeeps.frame rfl rfl hsame⟩
  | creates failed hpc hlink =>
      rw [openExcl_new failed hlink] at howns ⊢
      by_cases hq : q = p
      · subst hq
        refine ⟨s.next, rfl, by simp, ?_, ?_⟩ <;> simp
      -- nobody else keeps a file that was not there
      · simp [hq] at howns
        obtain ⟨i, hkeeps⟩ := h q howns
        have hnames := hkeeps.names
        rw [hlink] at hnames
        cases hnames
  | unlinks hpc hdone =>
      have hq : q ≠ p := by
        rintro rfl
        simp [CallPc.owns] at howns
      simp [hq] at howns
      obtain ⟨i, hkeeps⟩ := h q howns
      have htaken := hspares.2 hpc hdone
      rw [hkeeps.taken howns] at htaken
      cases htaken
  | writes fd hpc =>
      obtain ⟨i, hkeeps⟩ := h p (owns_of_pc hpc rfl)
      obtain rfl := hkeeps.writes fd hpc
      by_cases hq : q = p
      · subst hq
        refine ⟨fd, hkeeps.names, ?_, ?_, ?_⟩
        · simpa [writePid] using hkeeps.creator
        · intro fd' hpc'
          simp only [writePid, setPc_pc, Function.update_self] at hpc'
          split_ifs at hpc'
        · intro rc hpc'
          simp only [writePid, setPc_pc, Function.update_self] at hpc'
          split_ifs at hpc' with hall
          simpa [writePid] using (List.take_prefix _ _).eq_of_length hall
      · simp [writePid, hq] at howns
        obtain ⟨j, hother⟩ := h q howns
        exact absurd (hother.unique hkeeps) hq
  | givesUp hpc =>
      obtain ⟨i, hkeeps⟩ := h p (owns_of_pc hpc rfl)
      have hq : q ≠ p := by
        rintro rfl
        simp [CallPc.owns] at howns
      simp [hq] at howns
      obtain ⟨j, hother⟩ := h q howns
      exact absurd (hother.unique hkeeps) hq

end Step

theorem Kept.exclusive {s : PidCalls} (h : Kept s) : Exclusive s := by
  constructor
  · intro p q hp hq
    obtain ⟨i, hpi⟩ := h p (owns_of_pc hp rfl)
    obtain ⟨j, hqj⟩ := h q (owns_of_pc hq rfl)
    exact hpi.unique hqj
  · intro p hp
    obtain ⟨i, hpi⟩ := h p (owns_of_pc hp rfl)
    simp [file, hpi.names, hpi.written 0 hp]

end PidCalls

/-- As long as no call unlinks, as stale, the file of another one, the PID file is exclusive. -/
theorem pidfile_exclusive {path : Bytes} {users : Pid → Option Nat} {old : Option Bytes}
    {s : PidCalls} (h : (pidCallSystem path users old).Reachable (sparesCreator path) s) :
    Exclusive s := by
  refine PidCalls.Kept.exclusive (Reachable.invariant (P := PidCalls.Kept) ?_ ?_ h)
  · intro p howns
    simp [pidCallSystem, CallPc.owns] at howns
  · rintro s ⟨p, sys⟩ s' _ hkept hspares hs
    exact PidCalls.kept_step hkept hspares hs

namespace Sample

/-- Two instances of root. -/
def rootPair (p : Pid) : Option Nat :=
  if p = first ∨ p = second then some 0 else none

/-- What a crashed instance has left. -/
def crashedFile : Bytes :=
  ascii "300\n"

/-- The next system call of the process, which does what it should. -/
def next (p : Pid) : Pid × SysCalls :=
  (p, {})

/-- The first instance replaces the file of a crashed one, and the second one is refused. -/
def staleThenRefused : List (Pid × SysCalls) :=
  List.replicate 7 (next first) ++ List.replicate 4 (next second)

theorem staleThenRefused_replays :
    ((pidCallSystem pidPath rootPair (some crashedFile)).runGuarded (sparesCreator pidPath)
      (pidCallSystem pidPath rootPair (some crashedFile)).init staleThenRefused).isSome = true := by
  decide +kernel

/-- The second instance reads the file of the first one before the PID is in it. -/
def bothSucceed : List (Pid × SysCalls) :=
  next first :: List.replicate 6 (next second) ++ [next first]

theorem bothSucceed_replays :
    ((pidCallSystem pidPath rootPair none).runGuarded Free
      (pidCallSystem pidPath rootPair none).init bothSucceed).isSome = true := by
  decide +kernel

end Sample

theorem pidfile_exclusive_staleThenRefused :
    Exclusive (((pidCallSystem Sample.pidPath Sample.rootPair (some Sample.crashedFile)).runGuarded
      (sparesCreator Sample.pidPath) _ Sample.staleThenRefused).get
        Sample.staleThenRefused_replays) :=
  pidfile_exclusive (reachable_of_isSome Sample.staleThenRefused_replays)

/-- Two live processes, a path that is not empty and no file: both calls return 0. -/
theorem not_pidfile_exclusive :
    ¬ ∀ (path : Bytes) (users : Pid → Option Nat) (p q : Pid) (s : PidCalls), path ≠ [] →
        (∀ r, users r ≠ none ↔ r = p ∨ r = q) →
        (pidCallSystem path users none).Reachable Free s → Exclusive s := by
  intro hall
  have hpair : ∀ r, Sample.rootPair r ≠ none ↔ r = Sample.first ∨ r = Sample.second := by
    intro r
    unfold Sample.rootPair
    split_ifs with hr <;> simp [hr]
  have hexclusive := hall Sample.pidPath Sample.rootPair Sample.first Sample.second _ (by decide)
    hpair (reachable_of_isSome Sample.bothSucceed_replays)
  have hsame := hexclusive.one Sample.first Sample.second (by decide +kernel) (by decide +kernel)
  revert hsame
  decide

/-! ## The condition is exact -/

namespace PidCalls

section Broken

variable {path : Bytes} {users : Pid → Option Nat} {old : Option Bytes} {s t : PidCalls}
  {p q : Pid}

/-- Some continuation of the run leads to a state that is not exclusive. -/
def Breaks (path : Bytes) (users : Pid → Option Nat) (old : Option Bytes) (s : PidCalls) : Prop :=
  ∃ as t, (pidCallSystem path users old).runGuarded Free s as = some t ∧ ¬ Exclusive t

theorem breaks_now (hq : s.pc q = .returned 0) (hfile : s.file ≠ some (pidText q)) :
    Breaks path users old s :=
  ⟨[], s, rfl, fun h => hfile (h.named q hq)⟩

theorem breaks_step {sys : SysCalls} (hs : s.act path users p sys = some t)
    (ht : Breaks path users old t) : Breaks path users old s := by
  obtain ⟨as, u, hrun, hbroken⟩ := ht
  refine ⟨(p, sys) :: as, u, ?_, hbroken⟩
  have hstep : (pidCallSystem path users old).step s (p, sys) = some t := hs
  simp [runGuarded, Free, hstep, hrun]

/-- A call in progress belongs to a live process. -/
def Live (users : Pid → Option Nat) (s : PidCalls) : Prop :=
  ∀ p, s.pc p ≠ .create → users p ≠ none

theorem Live.step {sys : SysCalls} (hpath : path ≠ []) (h : Live users s)
    (hs : s.act path users p sys = some t) : Live users t := by
  intro q hq
  by_cases hqp : q = p
  · subst hqp
    intro hnone
    rw [act_none (.inl hnone)] at hs
    cases hs
  · rw [(effect_of_act hpath hs).pc_other hqp] at hq
    exact h q hq

theorem writePid_pc_self (s : PidCalls) (p : Pid) (fd : Nat) :
    (s.writePid p fd 32).pc p = .returned 0 := by
  have htake : (pidText p).take 32 = pidText p :=
    List.take_of_length_le (Nat.le_succ_of_le (pidText_length p))
  simp [writePid, htake]

/-- A call that has failed to write unlinks the file of the one that comes in its place. -/
theorem breaks_of_unlinkPartial {user owner : Nat} (hlink : s.link = none) (hq : q ≠ p)
    (hp : users p = some user ∧ s.pc p = .recreate)
    (hshort : users q = some owner ∧ s.pc q = .unlinkPartial) :
    Breaks path users old s := by
  set created := s.openExcl p true (.returned (-1)) with hcreated
  set written := created.writePid p s.next 32 with hwritten
  have hpc : created.pc p = .write s.next := by
    rw [hcreated, openExcl_new _ hlink]
    simp
  have hother : written.pc q = .unlinkPartial := by
    rw [hwritten, hcreated, openExcl_new _ hlink, ← hshort.2]
    simp [writePid, hq]
  have hdone : ((written.unlink true).setPc q (.returned (-1))).pc p = .returned 0 := by
    have hself := writePid_pc_self created p s.next
    simpa [hq.symm] using hself
  have hcreate : s.act path users p {} = some created := act_recreate hp.1 hp.2
  have hwrite : created.act path users p {} = some written := act_write hp.1 hpc
  have hunlink : written.act path users q {} =
      some ((written.unlink true).setPc q (.returned (-1))) := act_unlinkPartial hshort.1 hother
  refine breaks_step hcreate (breaks_step hwrite (breaks_step hunlink (breaks_now hdone ?_)))
  simp [file, unlink]

/-- When a file that is taken has been unlinked, its creator can still succeed, or unlink the file
of the process that has come in its place. -/
theorem breaks_of_taken (hlive : Live users s) (hpc : s.pc p = .unlinkStale)
    (htaken : s.taken = true) :
    Breaks path users old ((s.unlink true).setPc p .recreate) := by
  obtain ⟨q, howns⟩ : ∃ q, (s.pc q).owns = true := by
    unfold taken at htaken
    split at htaken
    · split at htaken
      · exact ⟨_, htaken⟩
      · cases htaken
    · cases htaken
  have hq : q ≠ p := by
    rintro rfl
    rw [hpc] at howns
    cases howns
  have hlinked : ((s.unlink true).setPc p .recreate).link = none := rfl
  have hpcs : ((s.unlink true).setPc p .recreate).pc q = s.pc q := by simp [hq]
  generalize ht : (s.unlink true).setPc p .recreate = t at hlinked hpcs ⊢
  obtain ⟨owner, hqowner⟩ := Option.ne_none_iff_exists'.1
    (hlive q (by intro hcreate; rw [hcreate] at howns; cases howns))
  cases hpcq : s.pc q with
  | returned rc =>
      obtain rfl : rc = 0 := by simpa [hpcq, CallPc.owns] using howns
      exact breaks_now (hpcs.trans hpcq) (by simp [file, hlinked])
  | write fd =>
      have hwrite : t.act path users q {} = some (t.writePid q fd 32) :=
        act_write hqowner (hpcs.trans hpcq)
      refine breaks_step hwrite (breaks_now (writePid_pc_self t q fd) ?_)
      simp [file, writePid, hlinked]
  | unlinkPartial =>
      obtain ⟨user, hpuser⟩ := Option.ne_none_iff_exists'.1 (hlive p (by simp [hpc]))
      exact breaks_of_unlinkPartial hlinked hq ⟨hpuser, by simp [← ht]⟩ ⟨hqowner, hpcs.trans hpcq⟩
  | create | openOld | readOld _ | killOld _ | unlinkStale | recreate =>
      rw [hpcq] at howns
      cases howns

end Broken

end PidCalls

/-- After a step that unlinks the file of another call, the run can end with a PID file that is not
exclusive. -/
theorem breaks_of_not_spares {path : Bytes} {users : Pid → Option Nat} {old : Option Bytes}
    {s s' : PidCalls} {a : Pid × SysCalls} (hpath : path ≠ [])
    (h : (pidCallSystem path users old).Reachable Free s) (ha : ¬ sparesCreator path s a)
    (hs : (pidCallSystem path users old).step s a = some s') :
    PidCalls.Breaks path users old s' := by
  have hlive : PidCalls.Live users s := by
    refine Reachable.invariant (P := PidCalls.Live users) ?_ ?_ h
    · intro p hp
      exact absurd rfl hp
    · rintro s ⟨p, sys⟩ s' _ hkept _ hstep
      exact hkept.step hpath hstep
  obtain ⟨hpc, hdone, htaken⟩ : s.pc a.1 = .unlinkStale ∧ a.2.unlink = true ∧ s.taken = true := by
    simpa [sparesCreator, hpath] using ha
  obtain ⟨user, huser⟩ := Option.ne_none_iff_exists'.1 (hlive a.1 (by simp [hpc]))
  have hs' : s.act path users a.1 a.2 = some s' := hs
  rw [PidCalls.act_unlinkStale huser hpc, hdone] at hs'
  cases hs'
  exact PidCalls.breaks_of_taken hlive hpc htaken

end Professord
