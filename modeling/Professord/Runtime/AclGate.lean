import Professord.Config.Layering
import Professord.Runtime.EventLoop

/-!
# AclGate — from the `allow_ip` lists to the connections that are admitted

The lists of the file and of the command line end up in the table that `MG_EV_ACCEPT` compares the
peer with.  The table has 16 entries; a list is read through a buffer of 1024 bytes and an entry
through one of 64.
-/

namespace Professord

open CText CParse

/-! ## What is listed -/

/-- The addresses of all `allow_ip` values, those of the file first. -/
def listedAddresses (content : Bytes) (argv : List Bytes) : List Bytes :=
  (occurrences content argv).flatMap aclSaid

/-- The peer is one of the addresses, up to the prefix of mapped ones. -/
def OnList (peer : Bytes) (addresses : List Bytes) : Prop :=
  ∃ ip ∈ addresses, stripMapped peer = stripMapped ip

/-- The connection is past the ACL test of `MG_EV_ACCEPT`. -/
def State.pastAcl (s : State) (cfg : Config) (peer : Bytes) : Prop :=
  ((s.evAccept cfg peer).conns s.nextConn).admitted = true

instance (s : State) (cfg : Config) (peer : Bytes) : Decidable (s.pastAcl cfg peer) :=
  inferInstanceAs (Decidable (_ = _))

/-- `mg_print_ip` gives a C string that fits into `char ip[48]`. -/
structure PrintsIp {Addr : Type*} (mgPrintIp : Addr → Bytes) : Prop where
  noNul : ∀ addr, 0 ∉ mgPrintIp addr
  fits : ∀ addr, (mgPrintIp addr).length < 48

/-! ## The test at the accept -/

theorem aclAllows_iff {cfg : Config} {peer : Bytes} (hnul : 0 ∉ peer) (hfits : peer.length < 48) :
    aclAllows cfg.acl peer = true ↔ OnList peer cfg.aclTexts := by
  have htext : (CBuf.snprintf peer : CBuf 48).text = peer := CBuf.snprintf_text hnul hfits
  simp [aclAllows, htext, OnList, Config.aclTexts]

theorem pastAcl_iff (s : State) {cfg : Config} {peer : Bytes} (hnul : 0 ∉ peer)
    (hfits : peer.length < 48) :
    s.pastAcl cfg peer ↔ cfg.aclTexts = [] ∨ OnList peer cfg.aclTexts := by
  have hempty : cfg.aclTexts = [] ↔ cfg.acl = [] := by simp [Config.aclTexts]
  rw [← aclAllows_iff hnul hfits, hempty]
  unfold State.pastAcl State.evAccept
  by_cases hdropped : cfg.acl ≠ [] ∧ aclAllows cfg.acl peer = false
  -- a dropped connection is recorded before the counter and never admitted
  · simp [hdropped, Conn.unused]
  · have hpast : cfg.acl = [] ∨ aclAllows cfg.acl peer = true := by
      by_cases hacl : cfg.acl = []
      · exact .inl hacl
      · refine .inr ?_
        rw [← Bool.not_eq_false]
        exact fun hfalse => hdropped ⟨hacl, hfalse⟩
    simp [hdropped, hpast]

/-- When the lists fit the buffers, the table has the first 16 addresses, and past the test are
exactly the peers among them, or all if none is listed. -/
theorem acl_admits_iff {Addr : Type*} {mgPrintIp : Addr → Bytes} (hprint : PrintsIp mgPrintIp)
    {content : Bytes} {argv : List Bytes} {cfg : Config} (hnul : 0 ∉ content)
    (hlines : ∀ line ∈ content.splitOn 10, line.length < lineMax)
    (hargs : ∀ arg ∈ argv, 0 ∉ arg)
    (hok : configParseCli (configLoadFile configDefaults (some content)).1 argv = .ok cfg)
    (hacl : ∀ e ∈ occurrences content argv, AclFits e) :
    cfg.aclTexts = (listedAddresses content argv).take profAclMax ∧
      ∀ (s : State) (addr : Addr), s.pastAcl cfg (mgPrintIp addr) ↔
        listedAddresses content argv = [] ∨
          OnList (mgPrintIp addr) ((listedAddresses content argv).take profAclMax) := by
  have htable : cfg.aclTexts = (listedAddresses content argv).take profAclMax := by
    rw [configParseCli_ok hnul hlines hok]
    exact aclTexts_occurrences hnul hargs hacl
  -- the first 16 of a list are none exactly if the list is empty
  refine ⟨htable, fun s addr => ?_⟩
  have hempty : cfg.aclTexts = [] ↔ listedAddresses content argv = [] := by
    rw [htable, List.take_eq_nil_iff]
    exact or_iff_right (by decide)
  rw [pastAcl_iff s (hprint.noNul addr) (hprint.fits addr), hempty, htable]

namespace Sample

/-- The addresses of peers, IPv4 or mapped. -/
inductive PeerAddr
  | v4 (a b c d : UInt8)
  | mapped (a b c d : UInt8)

def dottedQuad (a b c d : UInt8) : Bytes :=
  Numeral.decimalNat a.toNat ++ [46] ++ Numeral.decimalNat b.toNat ++ [46] ++
    Numeral.decimalNat c.toNat ++ [46] ++ Numeral.decimalNat d.toNat

def printIp : PeerAddr → Bytes
  | .v4 a b c d => dottedQuad a b c d
  | .mapped a b c d => ascii "::ffff:" ++ dottedQuad a b c d

theorem printsIp : PrintsIp printIp := by
  have hshort : ∀ a : UInt8, (Numeral.decimalNat a.toNat).length ≤ 3 := fun a =>
    Numeral.decimalNat_length (Nat.lt_trans a.toNat_lt (by decide)) (by decide)
  have hquad : ∀ a b c d : UInt8, (dottedQuad a b c d).length ≤ 15 := by
    intro a b c d
    have ha := hshort a
    have hb := hshort b
    have hc := hshort c
    have hd := hshort d
    simp only [dottedQuad, List.length_append, List.length_singleton]
    omega
  constructor
  · rintro (⟨a, b, c, d⟩ | ⟨a, b, c, d⟩) <;> simp [printIp, dottedQuad, Numeral.zero_notMem_decimalNat,
      ascii]
  · rintro (⟨a, b, c, d⟩ | ⟨a, b, c, d⟩)
    · have hlen := hquad a b c d
      simp only [printIp]
      omega
    · have hlen := hquad a b c d
      have hprefix : (ascii "::ffff:").length = 7 := by decide
      simp only [printIp, List.length_append, hprefix]
      omega

def aclFile : Bytes :=
  ascii "allow_ip = 10.0.0.1, 10.0.0.2\n"

def aclArguments : List Bytes :=
  [ascii "professord", ascii "--allow-ip", ascii "::ffff:192.168.0.7"]

theorem acl_admits_iff_aclFile :
    ∃ cfg, configParseCli (configLoadFile configDefaults (some aclFile)).1 aclArguments = .ok cfg ∧
      cfg.aclTexts = (listedAddresses aclFile aclArguments).take profAclMax ∧
        ∀ (s : State) (addr : PeerAddr), s.pastAcl cfg (printIp addr) ↔
          listedAddresses aclFile aclArguments = [] ∨
            OnList (printIp addr) ((listedAddresses aclFile aclArguments).take profAclMax) :=
  ⟨_, rfl, acl_admits_iff printsIp (by decide) (by decide) (by decide) rfl (by decide)⟩

/-- The addresses 10.0.0.1 to 10.0.0.17. -/
def seventeen : List Bytes :=
  (List.range 17).map fun i => ascii "10.0.0." ++ Numeral.decimalNat (i + 1)

def longArguments : List Bytes :=
  [ascii "professord", ascii "--allow-ip", (seventeen.intersperse (ascii ",")).flatten]

end Sample

/-- The seventeenth address is listed, and its peer is dropped. -/
theorem not_acl_exact :
    ¬ ∀ (content : Bytes) (argv : List Bytes) (cfg : Config) (s : State) (peer : Bytes),
        0 ∉ content → (∀ arg ∈ argv, 0 ∉ arg) →
        configParseCli (configLoadFile configDefaults (some content)).1 argv = .ok cfg →
        (s.pastAcl cfg peer ↔
          listedAddresses content argv = [] ∨ OnList peer (listedAddresses content argv)) := by
  intro hall
  have hiff := hall [] Sample.longArguments _ State.init (ascii "10.0.0.17") (by decide) (by decide)
    rfl
  have hlisted : OnList (ascii "10.0.0.17") (listedAddresses [] Sample.longArguments) :=
    ⟨ascii "10.0.0.17", by decide, rfl⟩
  have hpast := hiff.2 (.inr hlisted)
  revert hpast
  decide

end Professord
