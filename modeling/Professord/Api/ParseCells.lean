import Professord.Api.Parse
import Professord.Lib.AllocLog

/-!
# ParseCells — `chat_request_parse` with the memory it takes and releases

`Parse` says what an accepted request contains.  Here the function is followed through its exits
with the request structure, the array it points to and the releases of the heap: the loop fills a
zeroed array and may give up at any element, and the caller frees the job afterwards whatever the
result was.
-/

namespace Professord

open CText

/-- What `messages` points to. -/
structure MessageArray where
  addr : Nat
  cells : List ChatMessage

/-- `chat_request_t` -/
structure ChatRequestCells where
  model : CBuf profModelMax
  /-- `none` is the null pointer. -/
  messages : Option MessageArray
  messageCount : Int
  temperature : CFloat
  topP : CFloat
  maxTokens : Int
  frequencyPenalty : CFloat
  presencePenalty : CFloat
  repeatPenalty : CFloat
  stop : Vector (CBuf profStopLen) profStopMax
  stopCount : Nat
  stream : Bool

/-- `memset` and the defaults. -/
def ChatRequestCells.init : ChatRequestCells where
  model := default
  messages := none
  messageCount := 0
  temperature := .nan
  topP := .nan
  maxTokens := -1
  frequencyPenalty := .nan
  presencePenalty := .nan
  repeatPenalty := .nan
  stop := Vector.replicate profStopMax default
  stopCount := 0
  stream := false

def chatRequestFree (h : AllocLog) (req : ChatRequestCells) : AllocLog × ChatRequestCells :=
  match req.messages with
  | some array => (h.free array.addr, { req with messages := none, messageCount := 0 })
  | none => (h, { req with messageCount := 0 })

/-- The loop over the messages from element `i` on: did all pass, and the array as it is left. -/
def fillMessages : List Json → Nat → List ChatMessage → Bool × List ChatMessage
  | [], _, cells => (true, cells)
  | msg :: rest, i, cells =>
      match msg.getObjectItem (ascii "role") with
      | some (.string role) =>
          if !validRole role then
            (false, cells)
          else
            let cells := cells.modify i fun m => { m with role := CBuf.snprintf role }
            let cells :=
              match msg.getObjectItem (ascii "content") with
              | some (.string content) =>
                  cells.modify i fun m => { m with content := CBuf.snprintf content }
              -- a null or missing content stays empty
              | _ => cells
            fillMessages rest (i + 1) cells
      | _ => (false, cells)

/-- The first `sc` entries of `stop`; an entry that is not a string stays empty. -/
def stopCells (items : List Json) (sc : Nat) : Vector (CBuf profStopLen) profStopMax :=
  Vector.ofFn fun i =>
    if i.val < sc then
      match items[i.val]? with
      | some item => stopEntry item
      | none => default
    else
      default

/-- The optional fields. -/
def ChatRequestCells.setOptional (env : ParseEnv) (root : Json) (req : ChatRequestCells) :
    ChatRequestCells :=
  let req :=
    { req with
      temperature := floatField root "temperature"
      topP := floatField root "top_p"
      maxTokens := maxTokensField env root
      frequencyPenalty := floatField root "frequency_penalty"
      presencePenalty := floatField root "presence_penalty"
      repeatPenalty := floatField root "repeat_penalty"
      stream := streamField root }
  match root.getObjectItem (ascii "stop") with
  | some (.array items) =>
      let sc := if items.length > profStopMax then profStopMax else items.length
      { req with stop := stopCells items sc, stopCount := sc }
  | some (.string s) =>
      { req with stop := req.stop.set 0 (CBuf.snprintf s) (by decide), stopCount := 1 }
  | _ => req

/-- What a call leaves behind. -/
structure ParseResult where
  rc : Int
  heap : AllocLog
  req : ChatRequestCells

/-- `chat_request_parse`; the tree of `cJSON_ParseWithLength` is one block. -/
def chatRequestParseCells (env : ParseEnv) (h : AllocLog) (json : Bytes) : ParseResult :=
  let req := ChatRequestCells.init
  match env.parseWithLength json with
  | none => ⟨-1, h, req⟩
  | some root =>
      let (tree, h) := h.alloc
      let req := { req with model := stringField root "model" }
      match root.getObjectItem (ascii "messages") with
      | some (.array items) =>
          let count : Int := items.length
          if count ≤ 0 then
            ⟨-1, h.free tree, req⟩
          else if count > profMaxMessages then
            ⟨-1, h.free tree, req⟩
          else if !env.callocOk then
            ⟨-1, h.free tree, req⟩
          else
            let (addr, h) := h.alloc
            let zeroed := List.replicate items.length default
            match fillMessages items 0 zeroed with
            | (false, cells) =>
                let (h, req) := chatRequestFree h
                  { req with messages := some ⟨addr, cells⟩, messageCount := count }
                ⟨-1, h.free tree, req⟩
            | (true, cells) =>
                let req := { req with messages := some ⟨addr, cells⟩, messageCount := count }
                ⟨0, h.free tree, req.setOptional env root⟩
      | _ => ⟨-1, h.free tree, req⟩

/-- What `worker_job_free` looks at. -/
structure JobCells where
  isChat : Bool
  chatReq : ChatRequestCells
  responseBuf : Option Nat

def workerJobFree (h : AllocLog) (job : JobCells) : AllocLog × JobCells :=
  let (h, job) :=
    if job.isChat then
      let r := chatRequestFree h job.chatReq
      (r.1, { job with chatReq := r.2 })
    else
      (h, job)
  match job.responseBuf with
  | some buf => (h.free buf, { job with responseBuf := none })
  | none => (h, job)

/-! ## The loop over the messages -/

theorem modify_append_cons {α : Type} (done : List α) (x : α) (rest : List α) (f : α → α) :
    (done ++ x :: rest).modify done.length f = done ++ f x :: rest := by
  induction done with
  | nil => rfl
  | cons y done ih => simp [ih]

/-- One element: it is stored over its zeroed cell, or the loop ends. -/
theorem fillMessages_cons (msg : Json) (rest : List Json) (done cells : List ChatMessage) :
    fillMessages (msg :: rest) done.length (done ++ default :: cells) =
      match parseMessage msg with
      | some m => fillMessages rest (done.length + 1) (done ++ m :: cells)
      | none => (false, done ++ default :: cells) := by
  rw [fillMessages, parseMessage]
  cases msg.getObjectItem (ascii "role") with
  | none => rfl
  | some item =>
      cases item with
      | string role =>
          by_cases hvalid : validRole role = true
          · simp only [hvalid, Bool.not_true, Bool.false_eq_true, if_false, if_true, contentField]
            cases msg.getObjectItem (ascii "content") with
            | none => simp only [modify_append_cons]; rfl
            | some content => cases content <;> simp only [modify_append_cons] <;> rfl
          · simp only [Bool.eq_false_of_not_eq_true hvalid, Bool.not_false, Bool.false_eq_true,
              if_false, if_true]
      | _ => rfl

theorem fillMessages_eq (items : List Json) (done : List ChatMessage) :
    (fillMessages items done.length (done ++ List.replicate items.length default)).1 =
        (items.mapM parseMessage).isSome ∧
      ∀ msgs, items.mapM parseMessage = some msgs →
        (fillMessages items done.length (done ++ List.replicate items.length default)).2 =
          done ++ msgs := by
  -- on the elements left; those before `done.length` are filled, the others zero
  induction items generalizing done with
  | nil =>
      refine ⟨rfl, fun msgs hmsgs => ?_⟩
      cases hmsgs
      rfl
  | cons msg items ih =>
      rw [List.length_cons, List.replicate_succ, fillMessages_cons, List.mapM_cons]
      cases hmsg : parseMessage msg with
      | none => exact ⟨rfl, fun msgs hmsgs => by cases hmsgs⟩
      | some m =>
          rcases ih (done ++ [m]) with ⟨hrc, hcells⟩
          rw [List.length_append, List.length_singleton, List.append_assoc,
            List.singleton_append] at hrc hcells
          simp only [Option.bind_eq_bind, Option.bind_some]
          refine ⟨?_, fun msgs hmsgs => ?_⟩
          · rw [hrc]
            cases items.mapM parseMessage <;> rfl
          · obtain ⟨rest, hrest, hcons⟩ := Option.bind_eq_some_iff.1 hmsgs
            cases hcons
            rw [hcells rest hrest, List.append_assoc, List.singleton_append]

/-! ## The request it leaves -/

/-- The request as the rest of the program sees it. -/
def ChatRequestCells.toRequest (req : ChatRequestCells) : ChatRequest where
  model := req.model
  messages := req.messages.map MessageArray.cells
  temperature := req.temperature
  topP := req.topP
  maxTokens := req.maxTokens
  frequencyPenalty := req.frequencyPenalty
  presencePenalty := req.presencePenalty
  repeatPenalty := req.repeatPenalty
  stop :=
    { entries := req.stop.toList.take req.stopCount
      bounded := by
        have hlen := List.length_take_le' req.stopCount req.stop.toList
        rwa [Vector.length_toList] at hlen }
  stream := req.stream

theorem take_stopCells (items : List Json) {sc : Nat}
    (hsc : sc = if items.length > profStopMax then profStopMax else items.length) :
    (stopCells items sc).toList.take sc = (items.take profStopMax).map stopEntry := by
  have hmin : sc = min profStopMax items.length := by
    rw [hsc]
    split <;> omega
  refine List.ext_getElem ?_ ?_
  · simp only [List.length_take, Vector.length_toList, List.length_map]
    omega
  · intro i hleft hright
    simp only [List.length_map, List.length_take] at hright
    have hitem : i < items.length := by omega
    have hlt : i < sc := by omega
    simp only [List.getElem_take, Vector.getElem_toList, stopCells, Vector.getElem_ofFn,
      if_pos hlt, List.getElem?_eq_getElem hitem, List.getElem_map]

theorem toRequest_setOptional (env : ParseEnv) (root : Json) (model : CBuf profModelMax)
    (array : MessageArray) (count : Int) :
    (({ ChatRequestCells.init with model, messages := some array, messageCount := count } :
        ChatRequestCells).setOptional env root).toRequest =
      { model
        messages := some array.cells
        temperature := floatField root "temperature"
        topP := floatField root "top_p"
        maxTokens := maxTokensField env root
        frequencyPenalty := floatField root "frequency_penalty"
        presencePenalty := floatField root "presence_penalty"
        repeatPenalty := floatField root "repeat_penalty"
        stop := chatStop root
        stream := streamField root } := by
  unfold ChatRequestCells.setOptional chatStop
  cases root.getObjectItem (ascii "stop") with
  | none => rfl
  | some item =>
      cases item with
      | array items =>
          simp only [ChatRequestCells.toRequest, take_stopCells items rfl]
          rfl
      | string s => rfl
      | _ => rfl

/-- The fields that `setOptional` leaves alone, and the bound of the one it counts. -/
theorem setOptional_frame (env : ParseEnv) (root : Json) (req : ChatRequestCells)
    (hstop : req.stopCount ≤ profStopMax) :
    (req.setOptional env root).messages = req.messages ∧
      (req.setOptional env root).messageCount = req.messageCount ∧
      (req.setOptional env root).stopCount ≤ profStopMax := by
  unfold ChatRequestCells.setOptional
  simp only
  split
  · refine ⟨rfl, rfl, ?_⟩
    simp only
    split <;> omega
  · exact ⟨rfl, rfl, Nat.succ_le_succ (Nat.zero_le _)⟩
  · exact ⟨rfl, rfl, hstop⟩

/-- What is left after a call, on either result. -/
theorem chatRequestParseCells_spec (env : ParseEnv) {h : AllocLog} (hs : h.Sound) (json : Bytes) :
    (∃ req addr cells, chatRequestParse env json = some req ∧
      (chatRequestParseCells env h json).rc = 0 ∧
      h.Grown (chatRequestParseCells env h json).heap [addr] ∧
      (chatRequestParseCells env h json).req.messages = some ⟨addr, cells⟩ ∧
      (chatRequestParseCells env h json).req.messageCount = cells.length ∧
      (chatRequestParseCells env h json).req.stopCount ≤ profStopMax ∧
      (chatRequestParseCells env h json).req.toRequest = req) ∨
    (chatRequestParse env json = none ∧
      (chatRequestParseCells env h json).rc = -1 ∧
      h.Grown (chatRequestParseCells env h json).heap [] ∧
      (chatRequestParseCells env h json).req.messages = none ∧
      (chatRequestParseCells env h json).req.messageCount = 0) := by
  have hstart := AllocLog.Grown.refl hs
  unfold chatRequestParseCells chatRequestParse
  cases env.parseWithLength json with
  | none => exact .inr ⟨rfl, rfl, hstart, rfl, rfl⟩
  | some root =>
      have htree := hstart.alloc
      -- every exit before the array is allocated releases the tree only
      have hfree : h.Grown (h.alloc.2.free h.next) [] := htree.free_only
      simp only [Option.bind_some, chatRequestOfJson, parseMessages]
      cases hmsgs : root.getObjectItem (ascii "messages") with
      | none => exact .inr ⟨rfl, rfl, hfree, rfl, rfl⟩
      | some item =>
          cases item with
          | array items =>
              have hnone : ((items.length : Int) ≤ 0) ↔ items.length = 0 := by omega
              have hmany : ((items.length : Int) > profMaxMessages) ↔
                  items.length > profMaxMessages := by omega
              simp only [hnone, hmany]
              split_ifs
              · exact .inr ⟨rfl, rfl, hfree, rfl, rfl⟩
              · exact .inr ⟨rfl, rfl, hfree, rfl, rfl⟩
              · exact .inr ⟨rfl, rfl, hfree, rfl, rfl⟩
              -- the loop succeeds exactly if every element parses
              · rcases fillMessages_eq items [] with ⟨hrc, hcells⟩
                rw [List.length_nil, List.nil_append] at hrc hcells
                have hboth := htree.alloc
                have hne : h.alloc.2.next ≠ h.next := Nat.succ_ne_self _
                cases hfill : fillMessages items 0 (List.replicate items.length default) with
                | mk passed cells =>
                    rw [hfill] at hrc hcells
                    cases hmap : items.mapM parseMessage with
                    | none =>
                        -- the array goes first, then the tree
                        rw [hmap] at hrc
                        cases hrc
                        refine .inr ⟨rfl, rfl, ?_, rfl, rfl⟩
                        have hone := hboth.free List.mem_cons_self
                          [h.next] fun q => by
                            simp only [List.mem_cons, List.not_mem_nil, or_false]
                            omega
                        exact hone.free_only
                    | some msgs =>
                        rw [hmap] at hrc
                        cases hrc
                        have hmsgs' : cells = msgs := hcells msgs hmap
                        subst hmsgs'
                        -- only the tree is released, the array belongs to the request
                        have hone := hboth.free (List.mem_cons_of_mem _ List.mem_cons_self)
                          [h.alloc.2.next] fun q => by
                            simp only [List.mem_cons, List.not_mem_nil, or_false]
                            omega
                        have hlen := (forall₂_of_mapM hmap).length_eq
                        rcases setOptional_frame env root
                          { ChatRequestCells.init with
                            model := stringField root "model"
                            messages := some ⟨h.alloc.2.next, cells⟩
                            messageCount := items.length } (Nat.zero_le _) with
                          ⟨hmessages, hcount, hstop⟩
                        refine .inl ⟨_, _, cells, rfl, rfl, hone, hmessages, ?_, hstop, ?_⟩
                        · exact hcount.trans (by rw [hlen])
                        · exact toRequest_setOptional env root _ _ _
          | _ => exact .inr ⟨rfl, rfl, hfree, rfl, rfl⟩

/-- `worker_job_free` of a chat job without a response buffer releases what the request holds. -/
theorem workerJobFree_grown {h h' : AllocLog} {req : ChatRequestCells} {live : List Nat}
    (hg : h.Grown h' live)
    (hreq : (req.messages = none ∧ live = []) ∨
      ∃ array, req.messages = some array ∧ live = [array.addr]) :
    h.Grown (workerJobFree h' ⟨true, req, none⟩).1 [] := by
  rcases hreq with ⟨hnull, rfl⟩ | ⟨array, harray, rfl⟩
  · simpa [workerJobFree, chatRequestFree, hnull] using hg
  · simpa [workerJobFree, chatRequestFree, harray] using hg.free_only

/-- An accepted role fits its field. -/
theorem snprintf_validRole {role : Bytes} (h : validRole role = true) :
    (CBuf.snprintf role : CBuf profRoleMax).text = cstr role := by
  have hshort : (cstr role).length ≤ profRoleMax - 1 := by
    simp only [validRole, Bool.or_eq_true, beq_iff_eq] at h
    rcases h with (hrole | hrole) | hrole <;> rw [hrole] <;> decide
  exact List.take_of_length_le hshort

/-- The grammar of a chat request. -/
def InGrammar (env : ParseEnv) (json : Bytes) : Prop :=
  ∃ root items, env.parseWithLength json = some root ∧ ChatFields root items

/-- The stored messages carry the roles of the array, in its order. -/
def CarriesRoles (items : List Json) (cells : List ChatMessage) : Prop :=
  List.Forall₂ (fun msg cell => ∃ role, msg.getObjectItem (ascii "role") = some (.string role) ∧
    cell.role.text = cstr role) items cells

theorem carriesRoles_of_mapM {items : List Json} {cells : List ChatMessage}
    (h : List.Forall₂ (fun msg cell => parseMessage msg = some cell) items cells) :
    CarriesRoles items cells := by
  refine h.imp fun msg cell hcell => ?_
  unfold parseMessage at hcell
  split at hcell
  · next role hrole =>
      split_ifs at hcell with hvalid
      cases hcell
      exact ⟨role, hrole, snprintf_validRole hvalid⟩
  · cases hcell

/-- The parser accepts exactly the grammar, and what it stores then. -/
theorem chatRequestParse_grammar {env : ParseEnv} (halloc : env.callocOk = true) (json : Bytes) :
    (∃ req, chatRequestParse env json = some req) ↔ InGrammar env json := by
  constructor
  · rintro ⟨req, hreq⟩
    obtain ⟨root, hroot, hparse⟩ := Option.bind_eq_some_iff.1 hreq
    obtain ⟨msgs, hmsgs, _⟩ := chatRequestOfJson_eq_some hparse
    obtain ⟨_, items, hfields, _⟩ := chatFields_of_parseMessages hmsgs
    exact ⟨root, items, hroot, hfields⟩
  · rintro ⟨root, items, hroot, hfields⟩
    obtain ⟨msgs, hmsgs⟩ := parseMessages_of_chatFields hfields halloc
    obtain ⟨req, hreq, _⟩ := chatRequestOfJson_of_messages hmsgs
    exact ⟨req, by rw [chatRequestParse, hroot, Option.bind_some, hreq]⟩

theorem chatRequestParse_roles {env : ParseEnv} {json : Bytes} {req : ChatRequest}
    (h : chatRequestParse env json = some req) :
    ∃ root items cells, env.parseWithLength json = some root ∧ ChatFields root items ∧
      req.messages = some cells ∧ CarriesRoles items cells := by
  obtain ⟨root, hroot, hparse⟩ := Option.bind_eq_some_iff.1 h
  obtain ⟨cells, hmsgs, rfl⟩ := chatRequestOfJson_eq_some hparse
  obtain ⟨_, items, hfields, hall⟩ := chatFields_of_parseMessages hmsgs
  exact ⟨root, items, cells, hroot, hfields, rfl, carriesRoles_of_mapM hall⟩

/-- `chat_request_parse` accepts its grammar, stores the array in order, leaves nothing behind when
it refuses, and in either case `worker_job_free` then releases each block once. -/
theorem chat_parse_grammar {env : ParseEnv} (halloc : env.callocOk = true) {h : AllocLog}
    (hs : h.Sound) (json : Bytes) :
    ∃ r job, chatRequestParseCells env h json = r ∧
      workerJobFree r.heap ⟨true, r.req, none⟩ = job ∧
      (r.rc = 0 ∨ r.rc = -1) ∧ (r.rc = 0 ↔ InGrammar env json) ∧
      (r.rc = 0 → ∃ root items array, env.parseWithLength json = some root ∧
        ChatFields root items ∧ r.req.messages = some array ∧
        r.req.messageCount = items.length ∧ CarriesRoles items array.cells ∧
        r.req.stopCount ≤ profStopMax) ∧
      (r.rc = -1 → r.req.messages = none ∧ r.req.messageCount = 0 ∧ job.1 = r.heap) ∧
      job.1.released.Nodup ∧
      ∀ p, h.next ≤ p → p < job.1.next → p ∈ job.1.released := by
  refine ⟨_, _, rfl, rfl, ?_⟩
  rcases chatRequestParseCells_spec env hs json with
    ⟨req, addr, cells, hparse, hrc, hgrown, hmessages, hcount, hstop, hreq⟩ |
    ⟨hparse, hrc, hgrown, hmessages, hcount⟩
  · have hfreed := workerJobFree_grown hgrown (.inr ⟨_, hmessages, rfl⟩)
    refine ⟨.inl hrc, iff_of_true hrc ((chatRequestParse_grammar halloc json).1 ⟨req, hparse⟩),
      fun _ => ?_, fun h => absurd (hrc.symm.trans h) (by decide), hfreed.sound.once,
      fun p => hfreed.released_all⟩
    -- the cells are those of the request at text level, and carry its roles
    obtain ⟨root, items, cells', hroot, hfields, hcells, hroles⟩ := chatRequestParse_roles hparse
    have heq : cells = cells' := by
      rw [← hreq, ChatRequestCells.toRequest, hmessages] at hcells
      exact Option.some.inj hcells
    subst heq
    refine ⟨root, items, _, hroot, hfields, hmessages, ?_, hroles, hstop⟩
    rw [hcount, hroles.length_eq]
  · have hfreed := workerJobFree_grown hgrown (.inl ⟨hmessages, rfl⟩)
    refine ⟨.inr hrc, iff_of_false (fun h => absurd (hrc.symm.trans h) (by decide)) ?_,
      fun h => absurd (hrc.symm.trans h) (by decide), fun _ => ⟨hmessages, hcount, ?_⟩,
      hfreed.sound.once, fun p => hfreed.released_all⟩
    · intro hgrammar
      obtain ⟨req, hreq⟩ := (chatRequestParse_grammar halloc json).2 hgrammar
      rw [hparse] at hreq
      cases hreq
    · simp [workerJobFree, chatRequestFree, hmessages]

namespace Sample

def robotBody : Bytes :=
  ascii "\x7b\"messages\": [\x7b\"role\": \"user\"\x7d, \x7b\"role\": \"robot\"\x7d]\x7d"

def robotJson : Json :=
  .object [(ascii "messages", .array
    [.object [(ascii "role", .string (ascii "user"))],
      .object [(ascii "role", .string (ascii "robot"))]])]

/-- The second element is refused after the first has been stored. -/
theorem chat_parse_grammar_robot :
    (knows robotBody robotJson).callocOk = true ∧ AllocLog.init.Sound ∧
      ∃ r job, chatRequestParseCells (knows robotBody robotJson) .init robotBody = r ∧
        workerJobFree r.heap ⟨true, r.req, none⟩ = job ∧
        r.rc = -1 ∧ r.req.messages = none ∧ r.req.messageCount = 0 ∧ job.1 = r.heap ∧
        job.1.released.Nodup := by
  obtain ⟨r, job, hr, hjob, _, _, _, hfailed, honce, _⟩ :=
    chat_parse_grammar (rfl : (knows robotBody robotJson).callocOk = true) AllocLog.sound_init
      robotBody
  have hrc : r.rc = -1 := by
    rw [← hr]
    decide
  obtain ⟨hmessages, hcount, hheap⟩ := hfailed hrc
  exact ⟨rfl, AllocLog.sound_init, r, job, hr, hjob, hrc, hmessages, hcount, hheap, honce⟩

end Sample

end Professord
