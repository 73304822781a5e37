import Professord.ApiTypes
import Professord.Lib.Hex
import Professord.Lib.JsonText
import Professord.Worker.Job

/-!
# RequestId — the ids of replies (`generate_request_id`)

Twelve random bytes in hexadecimal digits, or twelve bytes of the clock where there are none.
-/

namespace Professord

open CText JsonText

/-- `struct timespec` -/
structure Timespec where
  sec : Int
  nsec : Int
  deriving DecidableEq, Repr

/-- What `clock_gettime` gives. -/
structure Timespec.Valid (t : Timespec) : Prop where
  sec_ge : -2 ^ 63 ≤ t.sec
  sec_lt : t.sec < 2 ^ 63
  nsec_nonneg : 0 ≤ t.nsec
  nsec_lt : t.nsec < 10 ^ 9

/-- The sixteen bytes of the struct. -/
def Timespec.bytes (t : Timespec) : Bytes :=
  Hex.littleEndian 8 t.sec ++ Hex.littleEndian 8 t.nsec

/-- What `read` gets out of `/dev/urandom`, at most sixteen bytes; `none` if it cannot be opened. -/
def randBytes (urandom : Option Bytes) (clock : Timespec) : Bytes :=
  match urandom with
  | some bytes => if bytes.length < 16 then clock.bytes else bytes
  | none => clock.bytes

def generateRequestId (start : Bytes) (urandom : Option Bytes) (clock : Timespec) :
    CBuf profIdMax :=
  let hex := Hex.text ((randBytes urandom clock).take 12)
  CBuf.snprintf (start ++ ascii "-" ++ hex)

/-- The id of a job, as `submit_inference_job` asks for it. -/
def requestId (type : JobType) (urandom : Option Bytes) (clock : Timespec) : CBuf profIdMax :=
  generateRequestId (match type with | .chat => ascii "chatcmpl" | .completion => ascii "cmpl")
    urandom clock

/-- The text in front of the digits. -/
def idStart : JobType → Bytes
  | .chat => ascii "chatcmpl-"
  | .completion => ascii "cmpl-"

section Id

variable {type type' : JobType} {urandom urandom' : Option Bytes} {clock clock' : Timespec}

theorem isDigitByte_plain {b : UInt8} (h : Hex.isDigitByte b = true) :
    plainByte b = true ∧ b ≠ 0 := by
  have hne : ∀ c : UInt8, Hex.isDigitByte c = false → b ≠ c := by
    rintro c hc rfl
    exact absurd (h.symm.trans hc) (by decide)
  have hvisible : 32 ≤ b := by
    simp only [Hex.isDigitByte, Bool.or_eq_true, Bool.and_eq_true, decide_eq_true_eq,
      UInt8.le_iff_toNat_le] at h ⊢
    simp at h ⊢
    omega
  refine ⟨?_, hne 0 (by decide)⟩
  simp [plainByte, hne 34 (by decide), hne 92 (by decide), hvisible]

/-- The id is not cut. -/
theorem requestId_text (type : JobType) (urandom : Option Bytes) (clock : Timespec) :
    (requestId type urandom clock).text =
      idStart type ++ Hex.text ((randBytes urandom clock).take 12) := by
  have hfree : 0 ∉ Hex.text ((randBytes urandom clock).take 12) := fun h =>
    (isDigitByte_plain (Hex.isDigitByte_of_mem h)).2 rfl
  have hlen : (Hex.text ((randBytes urandom clock).take 12)).length ≤ 24 := by
    rw [Hex.length_text, List.length_take]
    omega
  have hstart : ∀ start : Bytes, 0 ∉ start → start.length ≤ 8 →
      (generateRequestId start urandom clock).text =
        start ++ ascii "-" ++ Hex.text ((randBytes urandom clock).take 12) := by
    intro start hnul hshort
    refine CBuf.snprintf_text ?_ ?_
    · simp only [List.mem_append, not_or]
      exact ⟨⟨hnul, by decide⟩, hfree⟩
    · simp only [List.length_append]
      have hdash : (ascii "-").length = 1 := by decide
      have hmax : profIdMax = 64 := rfl
      omega
  cases type with
  | chat => exact hstart (ascii "chatcmpl") (by decide) (by decide)
  | completion => exact hstart (ascii "cmpl") (by decide) (by decide)

/-- It stands for itself in JSON. -/
theorem plain_requestId (type : JobType) (urandom : Option Bytes) (clock : Timespec) :
    Plain (requestId type urandom clock).text := by
  have hstart : Plain (idStart type) := by cases type <;> decide
  rw [requestId_text]
  intro b hb
  rcases List.mem_append.1 hb with hb | hb
  · exact hstart b hb
  · exact (isDigitByte_plain (Hex.isDigitByte_of_mem hb)).1

/-- Twelve bytes of the clock tell the time. -/
theorem clock_eq_of_bytes (ht : clock.Valid) (ht' : clock'.Valid)
    (h : clock.bytes.take 12 = clock'.bytes.take 12) : clock = clock' := by
  have hbytes : ∀ t : Timespec,
      t.bytes.take 12 = Hex.littleEndian 8 t.sec ++ Hex.littleEndian 4 t.nsec := by
    intro t
    have hsec : (Hex.littleEndian 8 t.sec).take 12 = Hex.littleEndian 8 t.sec :=
      List.take_of_length_le (by rw [Hex.length_littleEndian]; decide)
    have hnsec : (Hex.littleEndian 8 t.nsec).take (12 - 8) = Hex.littleEndian 4 t.nsec :=
      Hex.take_littleEndian (by decide) t.nsec
    rw [Timespec.bytes, List.take_append, Hex.length_littleEndian, hsec, hnsec]
  rw [hbytes, hbytes] at h
  obtain ⟨hsec, hnsec⟩ := List.append_inj h (by simp [Hex.length_littleEndian])
  rw [Hex.littleEndian_eq_iff] at hsec hnsec
  have hsec' : clock.sec = clock'.sec := by
    have := ht.sec_ge
    have := ht.sec_lt
    have := ht'.sec_ge
    have := ht'.sec_lt
    omega
  have hnsec' : clock.nsec = clock'.nsec := by
    have := ht.nsec_nonneg
    have := ht.nsec_lt
    have := ht'.nsec_nonneg
    have := ht'.nsec_lt
    omega
  cases clock
  cases clock'
  exact congr (congrArg Timespec.mk hsec') hnsec'

/-- There was no randomness to be had. -/
def FallsBack (urandom : Option Bytes) : Prop :=
  ∀ bytes ∈ urandom, bytes.length < 16

theorem randBytes_of_fallsBack (h : FallsBack urandom) : randBytes urandom clock = clock.bytes := by
  rcases urandom with - | bytes
  · rfl
  · exact if_pos (h bytes rfl)

/-- Two ids are the same only for the same kind of reply and the same twelve bytes, which without
randomness means the same time. -/
theorem request_ids (type type' : JobType) (urandom urandom' : Option Bytes)
    (clock clock' : Timespec) :
    (requestId type urandom clock = requestId type' urandom' clock' ↔
      type = type' ∧ (randBytes urandom clock).take 12 = (randBytes urandom' clock').take 12) ∧
    (FallsBack urandom → FallsBack urandom' → clock.Valid → clock'.Valid →
      (requestId type urandom clock = requestId type' urandom' clock' ↔
        type = type' ∧ clock = clock')) ∧
    Plain (requestId type urandom clock).text := by
  have hsame : requestId type urandom clock = requestId type' urandom' clock' ↔
      type = type' ∧
        (randBytes urandom clock).take 12 = (randBytes urandom' clock').take 12 := by
    constructor
    · intro h
      have htext := congrArg CBuf.text h
      rw [requestId_text, requestId_text] at htext
      have htype : type = type' := by
        cases type <;> cases type' <;> first | rfl | simp [idStart, ascii] at htext
      subst htype
      exact ⟨rfl, Hex.text_injective (List.append_cancel_left htext)⟩
    · rintro ⟨rfl, hbytes⟩
      exact CBuf.ext (by rw [requestId_text, requestId_text, hbytes])
  refine ⟨hsame, fun hback hback' hclock hclock' => ?_, plain_requestId type urandom clock⟩
  rw [hsame, randBytes_of_fallsBack hback, randBytes_of_fallsBack hback']
  constructor
  · rintro ⟨htype, hbytes⟩
    exact ⟨htype, clock_eq_of_bytes hclock hclock' hbytes⟩
  · rintro ⟨htype, rfl⟩
    exact ⟨htype, rfl⟩

end Id

namespace Sample

/-- Two requests of one second, without `/dev/urandom`. -/
theorem request_ids_noUrandom :
    requestId .chat none ⟨1700000000, 1⟩ ≠ requestId .chat (some [7]) ⟨1700000000, 2⟩ := by
  have hiff := (request_ids .chat .chat none (some [7]) ⟨1700000000, 1⟩ ⟨1700000000, 2⟩).2.1
    (by simp [FallsBack]) (by simp [FallsBack]) ⟨by decide, by decide, by decide, by decide⟩
    ⟨by decide, by decide, by decide, by decide⟩
  rw [Ne, hiff]
  decide

end Sample

end Professord
