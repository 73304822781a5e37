import Professord.Lib.GuardedSystem
import Professord.Runtime.EventLoop
import Professord.Runtime.WorkerThread

/-!
# System — every interleaving of the two threads

A run starts after initialisation and takes any enabled step of the worker or of the main thread;
`signal` is the signal handler that sets `g_shutdown_requested`.
-/

namespace Professord

inductive Action
  | signal
  | worker (ch : WorkerChoice)
  | main (ch : MainChoice)
  deriving DecidableEq, Repr

def State.act (s : State) (srv : Server) : Action → Option State
  | .signal => some { s with shutdownRequested := true }
  | .worker ch => s.workerStep ch
  | .main ch => s.mainStep srv ch

theorem State.act_main (s : State) (srv : Server) (ch : MainChoice) :
    s.act srv (.main ch) = s.mainStep srv ch :=
  rfl

theorem State.act_http {srv : Server} {s s' : State} {c : ConnId} {hm : HttpMessage}
    {texts : JsonTexts} (h : s.act srv (.main (.http c hm texts)) = some s') :
    s.main = .poll ∧ s.canReceive c = true ∧ s' = s.evHttp srv c hm texts := by
  rw [act_main] at h
  rcases mainStep_cases h with ⟨env, hgo, _⟩ | ⟨hpoll, hev⟩
  · cases hgo
  · cases hev with
    | http _ hready => exact ⟨hpoll, hready, rfl⟩

def system (srv : Server) : GuardedSystem State Action where
  init := State.init
  step s a := s.act srv a

/-! ## A concrete server

Its router and header lookup compare literally, and its parser knows the two requests below. -/

def Mongoose.literal : Mongoose where
  matches? uri pattern := uri == pattern
  httpGetHeader hm name := (hm.headers.find? fun h => h.1 == name).map Prod.snd

namespace Sample

open CText

def plainBody : Bytes :=
  ascii "\x7b\"prompt\":\"hi\"\x7d"

def streamBody : Bytes :=
  ascii "\x7b\"prompt\":\"hi\",\"stream\":true\x7d"

def request (stream : Bool) : CompletionRequest :=
  { (default : CompletionRequest) with prompt := CBuf.snprintf (ascii "hi"), stream := stream }

def server : Server where
  cfg := { (default : Config) with nCtx := 4096, maxTokens := 512 }
  mg := .literal
  modelId := default
  parseChat _ := none
  parseCompletion body :=
    if body = plainBody then some (request false)
    else if body = streamBody then some (request true)
    else none

/-- `POST /v1/completions` -/
def post (c : ConnId) (body : Bytes) : Action :=
  .main (.http c
    { method := ascii "POST", uri := ascii "/v1/completions", headers := [], body := body })

def connect : Action :=
  .main (.accept (ascii "10.0.0.1"))

/-- The main thread goes on with its handler. -/
def main : Action :=
  .main (.go {})

def work : Action :=
  .worker .go

end Sample

end Professord
