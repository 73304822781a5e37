import Professord.Lib.EventStream
import Professord.Runtime.StreamFlow
import Professord.Server.Serialize

/-!
# StreamBytes — a streaming reply on the wire (`drain_stream_ring`)

Each event is written as `data: `, its payload and a blank line.  The payload of a token is
formatted by `mg_printf`, the one of the final chunk is printed by cJSON.  A client that splits the
bytes into events, however they arrive, and decodes the payloads, reads the tokens that the worker
wrote.
-/

namespace Professord

open GuardedSystem CText JsonText EventStream

/-! ## The bytes of a stream -/

theorem neZero_deltaContent : NeZero 256 :=
  ⟨by decide⟩

/-- `final_chunk` -/
def finalChunk (job : WorkerJob) (created : Int) (finish : FinishReason) : StreamChunk where
  id := job.requestId
  model := job.modelId
  created := created
  deltaContent := @CBuf.empty 256 neZero_deltaContent
  finishReason := finish
  isChat := job.type = .chat

/-- What stands between `"data: "` and the blank line. -/
def eventPayload (esc : Bytes → Bytes) (printUnformatted : Json → Bytes) (job : WorkerJob)
    (created : Int) : SseEvent → Bytes
  | .token text => chunkPayload esc job created (slotText text)
  | .final finish => printUnformatted (streamChunkToJson (finalChunk job created finish))
  | .done => ascii "[DONE]"

/-- What the client of job `j` has been sent behind the head; `created i` is the time at which
event `i` was formatted. -/
def State.streamBytes (s : State) (esc : Bytes → Bytes) (printUnformatted : Json → Bytes)
    (created : Nat → Int) (j : JobId) : Bytes :=
  (s.log j).sent.zipIdx.flatMap fun e =>
    writeEvent (eventPayload esc printUnformatted (s.jobs j) (created e.2) e.1)

/-! ## What a client reads -/

inductive ClientEvent
  | token (text : Bytes)
  | finish (reason : Bytes)
  | done
  deriving DecidableEq

def readEvent (type : JobType) (payload : Bytes) : Option ClientEvent :=
  if payload = ascii "[DONE]" then
    some .done
  else do
    let choice ← choiceAt (← decode payload)
    match choice.getObjectItem (ascii "finish_reason") with
    | some .null => return .token (← contentAt type choice)
    | some (.string reason) => return .finish reason
    | _ => none

/-- A final chunk without a reason looks like an empty token. -/
def SseEvent.view : SseEvent → ClientEvent
  | .token text => .token text
  | .final .unset => .token []
  | .final finish => .finish (ascii finish.text)
  | .done => .done

/-! ## Payloads are one line -/

section Line

theorem oneLine_of_visible {p : Bytes} (h : Visible p) : OneLine p := by
  constructor <;> intro hmem
  · exact absurd (h lf hmem) (by decide)
  · exact absurd (h cr hmem) (by decide)

variable {esc : Bytes → Bytes} {printUnformatted : Json → Bytes} {job : WorkerJob} {created : Int}

theorem visible_chunkContent (hesc : EscapesJson esc) {token : Bytes} (htoken : 0 ∉ token)
    (type : JobType) : Visible (chunkContent esc type token) := by
  have hescaped : Visible (esc token) := visible_of_scanString (hesc token htoken [])
  cases type with
  | chat =>
      rw [chunkContent, visible_append_iff, visible_append_iff]
      exact ⟨⟨by decide, hescaped⟩, by decide⟩
  | completion =>
      rw [chunkContent, visible_append_iff, visible_append_iff]
      exact ⟨⟨by decide, hescaped⟩, by decide⟩

theorem visible_chunkPayload (hesc : EscapesJson esc) (hid : Plain job.requestId.text)
    (hmodel : Plain job.modelId.text) (token : CBuf tokenTextMax) :
    Visible (chunkPayload esc job created token) := by
  have hobject : Visible job.type.chunkObject := by
    cases job.type <;> decide
  have hcontent := visible_chunkContent hesc token.noNul job.type
  have hcreated := visible_decimal created
  have hrequest := visible_of_plain hid
  have hname := visible_of_plain hmodel
  simp only [chunkPayload, visible_append_iff]
  refine ⟨⟨⟨⟨⟨⟨⟨⟨⟨⟨?_, hrequest⟩, ?_⟩, hobject⟩, ?_⟩, hcreated⟩, ?_⟩, hname⟩, ?_⟩, hcontent⟩, ?_⟩ <;>
    decide

theorem shortNumbers_finalChunk (hcreated : |created| < 10 ^ 15) (finish : FinishReason) :
    ShortNumbers (streamChunkToJson (finalChunk job created finish)) := by
  have hzero : |(0 : Int)| < 10 ^ 15 := by norm_num
  cases htype : job.type <;> cases finish <;>
    simp [streamChunkToJson, finalChunk, CBuf.empty, htype, ShortNumbers.numberItem _ hzero,
      ShortNumbers.numberItem _ hcreated]

theorem oneLine_eventPayload (hesc : EscapesJson esc) (hprint : PrintsJson printUnformatted)
    (hid : Plain job.requestId.text) (hmodel : Plain job.modelId.text)
    (hcreated : |created| < 10 ^ 15) (e : SseEvent) :
    OneLine (eventPayload esc printUnformatted job created e) := by
  apply oneLine_of_visible
  cases e with
  | token text => exact visible_chunkPayload hesc hid hmodel (slotText text)
  | final finish => exact hprint.visible _ (shortNumbers_finalChunk hcreated finish)
  | done =>
      have hdone : Visible (ascii "[DONE]") := by decide
      exact hdone

end Line

/-! ## Payloads are read back -/

section ReadBack

variable {esc : Bytes → Bytes} {printUnformatted : Json → Bytes} {job : WorkerJob} {created : Int}

theorem readEvent_of_decode {type : JobType} {payload : Bytes} {v choice : Json}
    (hdecode : decode payload = some v) (hchoice : choiceAt v = some choice) :
    readEvent type payload =
      match choice.getObjectItem (ascii "finish_reason") with
      | some .null => (contentAt type choice).map .token
      | some (.string reason) => some (.finish reason)
      | _ => none := by
  have hjson : payload ≠ ascii "[DONE]" := by
    rintro rfl
    have hnone : decode (ascii "[DONE]") = none := by decide
    simp [hnone] at hdecode
  simp only [readEvent, if_neg hjson, hdecode, hchoice, Option.bind_eq_bind, Option.bind_some]
  split <;> simp [Option.map_eq_bind]

theorem readEvent_token (hesc : EscapesJson esc) (hid : Plain job.requestId.text)
    (hmodel : Plain job.modelId.text) (token : CBuf tokenTextMax) :
    readEvent job.type (chunkPayload esc job created token) = some (.token token.text) := by
  have hfinish : (choiceJson job.type token.text).getObjectItem (ascii "finish_reason") =
      some .null := by
    cases job.type <;> rfl
  rw [readEvent_of_decode (decode_of_plain hesc hid hmodel) rfl, hfinish]
  simp [contentAt_choiceJson]

/-- The reason of a final chunk, or the null that stands for none. -/
theorem readEvent_final (hprint : PrintsJson printUnformatted) (hcreated : |created| < 10 ^ 15)
    (finish : FinishReason) :
    readEvent job.type (printUnformatted (streamChunkToJson (finalChunk job created finish))) =
      some (SseEvent.final finish).view := by
  let chunk := streamChunkToJson (finalChunk job created finish)
  have hdecode : decode (printUnformatted chunk) = some chunk :=
    hprint.reads _ (shortNumbers_finalChunk hcreated finish)
  rw [readEvent_of_decode hdecode rfl]
  cases htype : job.type <;> cases finish <;> simp [finalChunk, htype] <;> rfl

/-- The payload of an event says what the event is, if its token fits a slot. -/
theorem readEvent_payload (hesc : EscapesJson esc) (hprint : PrintsJson printUnformatted)
    (hid : Plain job.requestId.text) (hmodel : Plain job.modelId.text)
    (hcreated : |created| < 10 ^ 15) {e : SseEvent}
    (hslot : ∀ text, e = .token text → (slotText text).text = text) :
    readEvent job.type (eventPayload esc printUnformatted job created e) = some e.view := by
  cases e with
  | token text =>
      rw [eventPayload, readEvent_token hesc hid hmodel, hslot text rfl]
      rfl
  | final finish => exact readEvent_final hprint hcreated finish
  | done => rfl

end ReadBack

/-! ## What has been sent is read -/

theorem slotText_slotText (text : Bytes) :
    (slotText (slotText text).text).text = (slotText text).text := by
  have hfit : (slotText text).text.length ≤ tokenTextMax - 1 :=
    Nat.le_sub_one_of_lt (slotText text).fits
  rw [slotText_text (slotText text).text, cstr_of_zero_notMem (slotText text).noNul,
    List.take_of_length_le hfit]

/-- What is sent of a stream is the beginning of what was written, and of its end. -/
theorem Flow.sent_begins {s : State} {j : JobId} (h : Flow s j) :
    ∃ job texts, (s.log j).sent <+: (s.log j).written.map tokenChunk ++ finalEvents job texts := by
  rcases h.stream with ⟨taken, hqueue, hsent⟩ | ⟨_, _, job, texts, hsent⟩
  · refine ⟨s.jobs j, {}, List.IsPrefix.trans ?_ (List.prefix_append _ _)⟩
    have hwritten : (s.log j).written.map tokenChunk =
        taken.map .token ++ (s.jobs j).ring.texts.map .token := by
      rw [← List.map_append, hqueue, List.map_map]
      rfl
    rw [hsent, hwritten]
    exact List.prefix_append _ _
  · exact ⟨job, texts, by rw [hsent]⟩

/-- A stream that is done has sent what was written, and its end. -/
theorem Flow.sent_done {s : State} {j : JobId} (h : Flow s j) (hdone : .done ∈ (s.log j).sent) :
    ∃ job texts, (s.log j).sent = (s.log j).written.map tokenChunk ++ finalEvents job texts := by
  rcases h.stream with ⟨taken, _, hsent⟩ | ⟨_, _, hclosed⟩
  · simp [hsent] at hdone
  · exact hclosed

theorem Flow.slot_of_sent {s : State} {j : JobId} (h : Flow s j) {text : Bytes}
    (hsent : .token text ∈ (s.log j).sent) : (slotText text).text = text := by
  obtain ⟨job, texts, hbegins⟩ := h.sent_begins
  rcases List.mem_append.1 (hbegins.subset hsent) with hwritten | hend
  · obtain ⟨written, _, hchunk⟩ := List.mem_map.1 hwritten
    cases hchunk
    exact slotText_slotText written
  · -- the end of a stream has no token
    unfold finalEvents at hend
    split at hend <;> simp at hend

/-- The ids of a job need no escaping. -/
structure WorkerJob.PlainIds (job : WorkerJob) : Prop where
  request : Plain job.requestId.text
  model : Plain job.modelId.text

theorem read_streamBytes {s : State} {j : JobId} (h : Flow s j) {esc : Bytes → Bytes}
    (hesc : EscapesJson esc) {printUnformatted : Json → Bytes}
    (hprint : PrintsJson printUnformatted) (hids : (s.jobs j).PlainIds) {created : Nat → Int}
    (hcreated : ∀ i, |created i| < 10 ^ 15) :
    (read (s.streamBytes esc printUnformatted created j)).map (readEvent (s.jobs j).type) =
      (s.log j).sent.map fun e => some e.view := by
  let payload : SseEvent × Nat → Bytes :=
    fun e => eventPayload esc printUnformatted (s.jobs j) (created e.2) e.1
  have hbytes : s.streamBytes esc printUnformatted created j =
      ((s.log j).sent.zipIdx.map payload).flatMap writeEvent := by
    rw [List.flatMap_map]
    rfl
  have hlines : ∀ p ∈ (s.log j).sent.zipIdx.map payload, OneLine p := by
    intro p hp
    obtain ⟨e, _, rfl⟩ := List.mem_map.1 hp
    exact oneLine_eventPayload hesc hprint hids.request hids.model (hcreated e.2) e.1
  have hviews : ∀ e ∈ (s.log j).sent.zipIdx,
      readEvent (s.jobs j).type (payload e) = some e.1.view := by
    intro e he
    refine readEvent_payload hesc hprint hids.request hids.model (hcreated e.2) ?_
    rintro text htoken
    exact h.slot_of_sent (htoken ▸ List.fst_mem_of_mem_zipIdx he)
  calc (read (s.streamBytes esc printUnformatted created j)).map (readEvent (s.jobs j).type)
      = (s.log j).sent.zipIdx.map fun e => readEvent (s.jobs j).type (payload e) := by
        rw [hbytes, read_writeEvents hlines, List.map_map]
        rfl
    _ = (s.log j).sent.zipIdx.map fun e => some e.1.view := List.map_congr_left hviews
    _ = ((s.log j).sent.zipIdx.map Prod.fst).map fun e => some e.view := by
        rw [List.map_map]
        rfl
    _ = (s.log j).sent.map fun e => some e.view := by
        rw [List.zipIdx_map_fst]

/-- Along runs in which the event loop loads no final state over a ring that is not empty: however
the bytes of a stream arrive, a client reads from them the texts of the written tokens in order and
then the end of the stream; from a stream that is done it reads all of them, with the final chunk
if its text could be made. -/
theorem client_reads_stream (srv : Server) {s : State}
    (h : (system srv).Reachable (fun s a => drainsBeforeFinal s a = true) s)
    {esc : Bytes → Bytes} (hesc : EscapesJson esc) {printUnformatted : Json → Bytes}
    (hprint : PrintsJson printUnformatted) {j : JobId} (hids : (s.jobs j).PlainIds)
    {created : Nat → Int} (hcreated : ∀ i, |created i| < 10 ^ 15) :
    (∀ arrived, arrived <+: s.streamBytes esc printUnformatted created j → ∃ job texts,
      (read arrived).map (readEvent (s.jobs j).type) <+:
        ((s.log j).written.map tokenChunk ++ finalEvents job texts).map fun e => some e.view) ∧
    (.done ∈ (s.log j).sent → ∃ job texts,
      (read (s.streamBytes esc printUnformatted created j)).map (readEvent (s.jobs j).type) =
        ((s.log j).written.map tokenChunk ++ finalEvents job texts).map fun e => some e.view) ∧
    ∀ finish, .final finish ∈ (s.log j).sent →
      (read (s.streamBytes esc printUnformatted created j)).map (readEvent (s.jobs j).type) =
        ((s.log j).written.map tokenChunk ++ closing finish).map fun e => some e.view := by
  have hflow : Flow s j := Flow.of_reachable h
  have hread := read_streamBytes hflow hesc hprint hids hcreated
  refine ⟨?_, ?_, ?_⟩
  · intro arrived harrived
    obtain ⟨job, texts, hsent⟩ := hflow.sent_begins
    refine ⟨job, texts, List.IsPrefix.trans ((read_mono harrived).map _) ?_⟩
    rw [hread]
    exact hsent.map _
  · intro hdone
    obtain ⟨job, texts, hsent⟩ := hflow.sent_done hdone
    exact ⟨job, texts, by rw [hread, hsent]⟩
  · intro finish hfinal
    rw [hread, (stream_complete srv h hfinal).1]

namespace Sample

theorem client_reads_stream_streamedTokens :
    (read (afterStreamedTokens.streamBytes escapeJson printCompact (fun _ => 1700000000) 0)).map
        (readEvent (afterStreamedTokens.jobs 0).type) =
      ((afterStreamedTokens.log 0).written.map tokenChunk ++ closing .unset).map
        fun e => some e.view := by
  have hr : (system server).Reachable (fun s a => drainsBeforeFinal s a = true)
      afterStreamedTokens := reachable_of_isSome streamedTokens_replays
  exact (client_reads_stream server hr (fun text _ => scanString_escapeJson text)
    (printsJson_print _) (j := 0) ⟨by decide, by decide⟩ (fun _ => by decide)).2.2 .unset
      (by decide)

end Sample

end Professord
