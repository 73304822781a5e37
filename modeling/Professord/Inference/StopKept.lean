import Professord.Api.Parse
import Professord.Config.Options
import Professord.Inference.Params

/-!
# StopKept — stop strings on their way to the generation loop

A stop string is printed into `req->stop`, printed into `params.stop` and measured once.  Each field
is `char[PROF_STOP_LEN]`, so it has room for one byte less than the documented 64.
-/

namespace Professord

open CText

/-- The stop strings that a chat request asks for. -/
inductive RequestedStops (root : Json) : List Bytes → Prop
  | one {s : Bytes} (h : root.getObjectItem (ascii "stop") = some (.string s)) :
      RequestedStops root [s]
  | several {stops : List Bytes}
      (h : root.getObjectItem (ascii "stop") = some (.array (stops.map Json.string)))
      (hcount : stops.length ≤ profStopMax) : RequestedStops root stops

theorem snprintf_stop_iff (s : Bytes) :
    (CBuf.snprintf s : CBuf profStopLen).text = s ↔ 0 ∉ s ∧ s.length < profStopLen := by
  constructor
  · intro h
    have hnul := (CBuf.snprintf s : CBuf profStopLen).noNul
    have hfits := (CBuf.snprintf s : CBuf profStopLen).fits
    rw [h] at hnul hfits
    exact ⟨hnul, hfits⟩
  · exact fun h => CBuf.snprintf_text h.1 h.2

/-- The parser stores each requested string, cut to its field. -/
theorem chatStop_texts {root : Json} {stops : List Bytes} (h : RequestedStops root stops) :
    (chatStop root).texts = stops.map fun s => (CBuf.snprintf s : CBuf profStopLen).text := by
  cases h with
  | one h => simp [chatStop, h, StopList.texts]
  | several h hcount =>
      have htake : (stops.map Json.string).take profStopMax = stops.map Json.string :=
        List.take_of_length_le (by simpa using hcount)
      simp [chatStop, h, stopArray, StopList.texts, htake, stopEntry]

section Resolved

variable {env : ParseEnv} {cfg : Config} {body : Bytes} {root : Json} {req : ChatRequest}
  {stops : List Bytes}

theorem resolved_stop_texts (hroot : env.parseWithLength body = some root)
    (hreq : chatRequestParse env body = some req) (hstops : RequestedStops root stops) :
    (inferenceResolveParams cfg req).stop.texts =
      stops.map fun s => (CBuf.snprintf s : CBuf profStopLen).text := by
  rw [chatRequestParse, hroot, Option.bind_some] at hreq
  obtain ⟨msgs, _, rfl⟩ := chatRequestOfJson_eq_some hreq
  exact chatStop_texts hstops

/-- The generation loop compares the window with the requested strings, in order and in full,
exactly if each of them has at most 63 bytes and no NUL. -/
theorem stops_unchanged_iff (hroot : env.parseWithLength body = some root)
    (hreq : chatRequestParse env body = some req) (hstops : RequestedStops root stops) :
    (inferenceResolveParams cfg req).stop.texts = stops ↔
      ∀ s ∈ stops, 0 ∉ s ∧ s.length < profStopLen := by
  rw [resolved_stop_texts hroot hreq hstops]
  calc stops.map (fun s => (CBuf.snprintf s : CBuf profStopLen).text) = stops
      ↔ stops.map (fun s => (CBuf.snprintf s : CBuf profStopLen).text) = stops.map id := by
        rw [List.map_id]
    _ ↔ ∀ s ∈ stops, (CBuf.snprintf s : CBuf profStopLen).text = s := List.map_inj_left
    _ ↔ ∀ s ∈ stops, 0 ∉ s ∧ s.length < profStopLen :=
        forall₂_congr fun s _ => snprintf_stop_iff s

end Resolved

namespace Sample

/-- A chat request with these stop strings. -/
def stopsJson (stops : List Bytes) : Json :=
  .object
    [ (ascii "messages", .array [.object [(ascii "role", .string (ascii "user"))]])
    , (ascii "stop", .array (stops.map Json.string)) ]

def stopsBody (stops : List Bytes) : Bytes :=
  ascii "\x7b\"messages\":[\x7b\"role\":\"user\"\x7d],\"stop\":[" ++
    List.intercalate (ascii ",") (stops.map fun s => ascii "\"" ++ s ++ ascii "\"") ++
    ascii "]\x7d"

def stopsEnv (stops : List Bytes) : ParseEnv :=
  knows (stopsBody stops) (stopsJson stops)

theorem stops_parsed (stops : List Bytes) :
    (stopsEnv stops).parseWithLength (stopsBody stops) = some (stopsJson stops) ∧
      ∃ req, chatRequestParse (stopsEnv stops) (stopsBody stops) = some req := by
  have hroot : (stopsEnv stops).parseWithLength (stopsBody stops) = some (stopsJson stops) :=
    if_pos rfl
  refine ⟨hroot, ?_⟩
  rw [chatRequestParse, hroot]
  exact ⟨_, rfl⟩

theorem stops_requested {stops : List Bytes} (h : stops.length ≤ profStopMax) :
    RequestedStops (stopsJson stops) stops :=
  .several rfl h

theorem stops_unchanged_iff_two :
    ∃ req, chatRequestParse (stopsEnv [ascii "END", ascii "STOP"])
        (stopsBody [ascii "END", ascii "STOP"]) = some req ∧
      (inferenceResolveParams configDefaults req).stop.texts = [ascii "END", ascii "STOP"] := by
  rcases stops_parsed [ascii "END", ascii "STOP"] with ⟨hroot, req, hreq⟩
  refine ⟨req, hreq, ?_⟩
  exact (stops_unchanged_iff hroot hreq (stops_requested (by decide))).2 (by decide)

/-- A stop string of the documented length. -/
def longStop : Bytes :=
  List.replicate 64 97

end Sample

/-- Of a stop string of 64 bytes the loop compares 63. -/
theorem not_stops_unchanged :
    ¬ ∀ (env : ParseEnv) (cfg : Config) (body : Bytes) (root : Json) (req : ChatRequest)
      (stops : List Bytes), env.parseWithLength body = some root →
      chatRequestParse env body = some req → RequestedStops root stops →
      (∀ s ∈ stops, s.length ≤ 64) → (inferenceResolveParams cfg req).stop.texts = stops := by
  intro h
  rcases Sample.stops_parsed [Sample.longStop] with ⟨hroot, req, hreq⟩
  have hrequested := @Sample.stops_requested [Sample.longStop] (by decide)
  have hlen : Sample.longStop.length = 64 := List.length_replicate
  have hsame := h _ configDefaults _ _ req _ hroot hreq hrequested (by simp [hlen])
  rw [resolved_stop_texts hroot hreq hrequested] at hsame
  have hshort := ((snprintf_stop_iff Sample.longStop).1 (List.cons.inj hsame).1).2
  rw [hlen] at hshort
  exact Nat.lt_irrefl _ hshort

end Professord
