import Modbus.Server.Answering
import Modbus.Server.Protection
import Modbus.Server.Owners

/-! # The server with its handler

All sessions of a server share one request handler, and the executor may run them in
any order, so their requests reach the memory interleaved. A call is one step between
the request that a session hands over and the response that it writes. Whatever the
order of the steps, each session has the calls of its own requests in the order it
received them, it sends the responses to those and nothing else, and the memory is what
the calls make of it one after the other (`serializable`). A call that leaves its vectors
has no successor here; in `Service.checkedStep` it leads, like a move of a destroyed
session, to where nothing is known. -/
namespace Modbus.Server
open Bytes TcpDataUnit Transition

/-- A call of the handler, with no response when it threw. -/
structure Handled where
  id : SessionId
  request : TcpDataUnit
  response : Option TcpDataUnit

structure Service where
  server : TcpServer
  handler : RequestHandler
  /-- A history variable: the calls in the order of their use of the memory. -/
  log : List Handled

inductive ServiceEvent where
  /-- A step of the server that is no call of the handler. -/
  | server (event : ServerEvent)
  /-- The handler's coroutine runs for the request of a session. -/
  | handle (id : SessionId)

/-- The event that a session gets its response, or none. -/
def ServerEvent.IsHandled : ServerEvent → Prop
  | .session _ (.handled _) => True
  | _ => False

instance : DecidablePred ServerEvent.IsHandled := fun e => by
  cases e with
  | session id event => cases event <;> unfold ServerEvent.IsHandled <;> infer_instance
  | _ => unfold ServerEvent.IsHandled; infer_instance

namespace Service

def initial (config : ServerConfig) (handler : RequestHandler) : Service :=
  ⟨.initial config, handler, []⟩

def step (s : Service) : ServiceEvent → Option Service
  | .server event =>
    if event.IsHandled then none else (s.server.step event).map fun server => { s with server }
  | .handle id =>
    match (s.server.task id).pc with
    | .handling request =>
      match s.handler.call request with
      | .ok (response, handler) =>
        (s.server.step (.session id (.handled (some response)))).map fun server =>
          ⟨server, handler, s.log ++ [⟨id, request, some response⟩]⟩
      | .error (.threw _) =>
        (s.server.step (.session id (.handled none))).map fun server =>
          { s with server, log := s.log ++ [⟨id, request, none⟩] }
      | .error (.fault _) => none -- undefined
    | _ => none

end Service

/-! ## What a step can do -/

/-- The steps of the service. -/
inductive ServiceMoves (s : Service) : ServiceEvent → Service → Prop
  | server {event : ServerEvent} {server : TcpServer} (other : ¬ event.IsHandled)
      (next : s.server.step event = some server) :
      ServiceMoves s (.server event) { s with server }
  | answered {id : SessionId} {request response : TcpDataUnit} {handler : RequestHandler}
      {server : TcpServer} (pc : (s.server.task id).pc = .handling request)
      (call : s.handler.call request = .ok (response, handler))
      (next : s.server.step (.session id (.handled (some response))) = some server) :
      ServiceMoves s (.handle id) ⟨server, handler, s.log ++ [⟨id, request, some response⟩]⟩
  | threw {id : SessionId} {request : TcpDataUnit} {e : Exn} {server : TcpServer}
      (pc : (s.server.task id).pc = .handling request)
      (call : s.handler.call request = .error (.threw e))
      (next : s.server.step (.session id (.handled none)) = some server) :
      ServiceMoves s (.handle id) { s with server, log := s.log ++ [⟨id, request, none⟩] }

theorem service_moves {s s' : Service} {e : ServiceEvent} (h : s.step e = some s') :
    ServiceMoves s e s' := by
  cases e with
  | server event =>
    simp only [Service.step] at h
    split at h
    · cases h
    · next hother =>
      obtain ⟨server, hnext, hs⟩ := Option.map_eq_some_iff.mp h
      cases hs
      exact .server hother hnext
  | handle id =>
    simp only [Service.step] at h
    split at h
    · next request hpc =>
      split at h
      · next response handler hcall =>
        obtain ⟨server, hnext, hs⟩ := Option.map_eq_some_iff.mp h
        cases hs
        exact .answered hpc hcall hnext
      · next e hcall =>
        obtain ⟨server, hnext, hs⟩ := Option.map_eq_some_iff.mp h
        cases hs
        exact .threw hpc hcall hnext
      · cases h
    · cases h

/-! ## The memory is what the calls make of it -/

/-- The calls lead from one state of the handler to the other, each giving the response
that is listed. -/
inductive Replays (h : RequestHandler) : List Handled → RequestHandler → Prop
  | nil : Replays h [] h
  | answered {log : List Handled} {h₁ h₂ : RequestHandler} {id : SessionId}
      {request response : TcpDataUnit} (before : Replays h log h₁)
      (call : h₁.call request = .ok (response, h₂)) :
      Replays h (log ++ [⟨id, request, some response⟩]) h₂
  | threw {log : List Handled} {h₁ : RequestHandler} {id : SessionId} {request : TcpDataUnit}
      {e : Exn} (before : Replays h log h₁) (call : h₁.call request = .error (.threw e)) :
      Replays h (log ++ [⟨id, request, none⟩]) h₁

/-- The masks guard the memory over any calls. -/
theorem Replays.protects {h h' : RequestHandler} {log : List Handled} (hlog : Replays h log h') :
    Protected h h' := by
  induction hlog with
  | nil => exact .refl h
  | answered _ call ih =>
    obtain ⟨_, _, _, _, _, _, hanswers⟩ := call_ok_iff.mp call
    exact ih.trans hanswers.protects
  | threw _ _ ih => exact ih

/-! ## Each session has its own calls -/

/-- The request that waits for the handler. -/
def TaskPc.request : TaskPc → Option TcpDataUnit
  | .handling request => some request
  | _ => none

/-- The response that waits to be written. -/
def TaskPc.response : TaskPc → Option TcpDataUnit
  | .writing response => some response
  | _ => none

/-- The calls are those of the requests the session handed over, but for the one that
waits for the handler, and what it sent are prefixes of the responses to them, but for
the one that waits to be written. -/
structure Accounted (calls : List Handled) (t : Task) : Prop where
  handed : t.state.handed = calls.map Handled.request ++ t.pc.request.toList
  sent : ∃ parts written, t.state.sent = parts.flatten ∧
    List.Forall₂ (fun part response => part <+: TcpDataUnit.buffer response) parts written ∧
    calls.filterMap Handled.response = written ++ t.pc.response.toList

theorem accounted_unborn : Accounted [] .unborn :=
  ⟨rfl, [], [], rfl, .nil, rfl⟩

theorem accounted_spawned : Accounted [] .spawned :=
  ⟨rfl, [], [], rfl, .nil, rfl⟩

section Tasks
variable {calls : List Handled} {t t' : Task} {stop : Bool} {e : TaskEvent}

/-- A move between places where no request or response waits. -/
theorem Accounted.moved (ht : Accounted calls t) (hhanded : t'.state.handed = t.state.handed)
    (hsent : t'.state.sent = t.state.sent) (hrequest : t'.pc.request = t.pc.request)
    (hresponse : t'.pc.response = t.pc.response) : Accounted calls t' := by
  refine ⟨?_, ?_⟩
  · rw [hhanded, hrequest]
    exact ht.handed
  · rw [hsent, hresponse]
    exact ht.sent

/-- A session that gets a request over a read waits for the handler with it. -/
theorem Accounted.received {s : SessionState} (ht : Accounted calls ⟨.reading, s⟩) (chunk : Chunk) :
    Accounted calls (Task.received ⟨.reading, s⟩ chunk) := by
  have hhanded := ht.handed
  simp only [TaskPc.request, Option.toList_none, List.append_nil] at hhanded
  unfold Task.received
  dsimp only
  split
  · exact ht.moved rfl rfl rfl rfl
  · cases ofBuffer (s.receive chunk.bytes).buf chunk.bytes.length .request with
    | error e => exact ht.moved rfl rfl rfl rfl
    | ok request =>
      refine ⟨?_, ht.sent⟩
      simp only [SessionState.receive, hhanded, TaskPc.request, Option.toList_some]

/-- A write takes a prefix of the response that was waiting. -/
theorem Accounted.written {s : SessionState} {response : TcpDataUnit} {n : Nat} {pc : TaskPc}
    (ht : Accounted calls ⟨.writing response, s⟩) (hrequest : pc.request = none)
    (hresponse : pc.response = none) :
    Accounted calls ⟨pc, { s with sent := s.sent ++ response.buffer.take n }⟩ := by
  obtain ⟨parts, written, hparts, hprefixes, hcalls⟩ := ht.sent
  refine ⟨?_, parts ++ [response.buffer.take n], written ++ [response], ?_, ?_, ?_⟩
  · rw [hrequest]
    exact ht.handed
  · rw [List.flatten_append, List.flatten_singleton, ← hparts]
  · exact List.rel_append hprefixes (.cons (List.take_prefix _ _) .nil)
  · rw [hcalls, hresponse, Option.toList_none, List.append_nil]
    rfl

/-- Every move but the end of a call keeps the account. -/
theorem Accounted.step (ht : Accounted calls t) (h : t.step stop e = some t')
    (hother : ∀ response, e ≠ .handled response) : Accounted calls t' := by
  obtain ⟨pc, s⟩ := t
  unfold Task.step at h
  split at h
  · next endpoint hpc =>
    cases h
    cases hpc
    cases endpoint <;> exact ht.moved rfl rfl rfl rfl
  · next hpc =>
    cases h
    cases hpc
    cases stop <;> exact ht.moved rfl rfl rfl rfl
  · next hpc =>
    cases h
    cases hpc
    exact ht.moved rfl rfl rfl rfl
  · next hpc =>
    cases h
    cases hpc
    exact ht.moved rfl rfl rfl rfl
  · next chunk hpc =>
    cases h
    cases hpc
    exact ht.received chunk
  · exact absurd rfl (hother _)
  · exact absurd rfl (hother _)
  · next response error n hpc =>
    cases hpc
    dsimp only at h
    split at h <;> cases h <;> exact ht.written rfl rfl
  · next report hpc =>
    cases h
    cases hpc
    cases report <;> exact ht.moved rfl rfl rfl rfl
  · next hpc =>
    cases h
    cases hpc
    exact ht.moved rfl rfl rfl rfl
  · cases h

/-- The end of a call adds it to the account. -/
theorem Accounted.handled {request : TcpDataUnit} {response : Option TcpDataUnit} {id : SessionId}
    (ht : Accounted calls t) (hpc : t.pc = .handling request)
    (h : t.step stop (.handled response) = some t') :
    Accounted (calls ++ [⟨id, request, response⟩]) t' := by
  obtain ⟨pc, s⟩ := t
  obtain rfl : pc = .handling request := hpc
  have hhanded := ht.handed
  obtain ⟨parts, written, hparts, hprefixes, hcalls⟩ := ht.sent
  simp only [TaskPc.request, TaskPc.response, Option.toList_none, Option.toList_some,
    List.append_nil] at hhanded hcalls
  cases response with
  | none =>
    cases h
    refine ⟨?_, parts, written, hparts, hprefixes, ?_⟩
    · simp [hhanded, TaskPc.request]
    · simp [hcalls, TaskPc.response]
  | some response =>
    cases h
    refine ⟨?_, parts, written, hparts, hprefixes, ?_⟩
    · simp [hhanded, TaskPc.request]
    · simp [hcalls, TaskPc.response]

end Tasks

/-! ## What holds in every run -/

/-- The calls of a session. -/
def Service.calls (s : Service) (id : SessionId) : List Handled := s.log.filter fun c => c.id = id

/-- What the server, the handler and the calls have to do with each other. -/
structure Ledger (handler : RequestHandler) (s : Service) : Prop where
  numbered : Numbered s.server
  unborn : ∀ id, (s.server.task id).pc = .unborn → s.server.task id = .unborn
  replays : Replays handler s.log s.handler
  accounted : ∀ id, Accounted (s.calls id) (s.server.task id)

theorem ledger_initial (config : ServerConfig) (handler : RequestHandler) :
    Ledger handler (.initial config handler) :=
  ⟨numbered_initial config, fun _ _ => rfl, .nil, fun _ => accounted_unborn⟩

/-- A coroutine that has never been spawned has no calls. -/
theorem Ledger.calls_unborn {handler : RequestHandler} {s : Service} (hs : Ledger handler s)
    {id : SessionId} (hpc : (s.server.task id).pc = .unborn) : s.calls id = [] := by
  have hhanded := (hs.accounted id).handed
  rw [hs.unborn id hpc] at hhanded
  exact List.map_eq_nil_iff.mp (List.append_eq_nil_iff.mp hhanded.symm).1

/-- No move leads back to where a coroutine was not spawned. -/
theorem TaskMoves.ne_unborn {stop : Bool} {pc pc' : TaskPc} {e : TaskEvent}
    (h : TaskMoves stop pc e pc') : pc' ≠ .unborn := by
  cases h <;> exact fun h => by cases h

/-- A step of the server that is no move of a session spawns one at most. -/
theorem task_of_moves {s s' : TcpServer} {e : ServerEvent} (h : ServerMoves s e s')
    (hother : ∀ id event, e ≠ .session id event) (id : SessionId) :
    s'.task id = s.task id ∨ id ∈ s.pending ∧ s'.task id = .spawned := by
  cases h with
  | @admitted x hid _ =>
    by_cases hne : id = x
    · subst hne
      exact .inr ⟨hid, Function.update_self ..⟩
    · exact .inl (Function.update_of_ne hne ..)
  | session => exact absurd rfl (hother _ _)
  | _ => exact .inl rfl

/-- A move of a session moves its task and no other. -/
theorem session_step {s s' : TcpServer} {id : SessionId} {event : TaskEvent}
    (h : s.step (.session id event) = some s') :
    (s.task id).step (s.manager.session id).stop event = some (s'.task id) ∧
      ∀ x, x ≠ id → s'.task x = s.task x := by
  obtain ⟨t, ht, hs⟩ := Option.map_eq_some_iff.mp h
  cases hs
  refine ⟨?_, fun x hx => Function.update_of_ne hx ..⟩
  have hself : Function.update s.task id t id = t := Function.update_self ..
  exact ht.trans (congrArg some hself.symm)

section Steps
variable {handler : RequestHandler} {s : Service}

/-- A step of the server leaves the calls and their accounts. -/
theorem Ledger.server {event : ServerEvent} {server : TcpServer} (hs : Ledger handler s)
    (hother : ¬ event.IsHandled) (hnext : s.server.step event = some server) :
    Ledger handler { s with server } := by
  have hmoves := server_moves hnext
  have hnumbered := numbered_step hs.numbered hmoves
  by_cases hsession : ∃ id e, event = .session id e
  · obtain ⟨id, e, rfl⟩ := hsession
    obtain ⟨htask, hothers⟩ := session_step hnext
    refine ⟨hnumbered, fun x hx => ?_, hs.replays, fun x => ?_⟩
    · by_cases hne : x = id
      · subst hne
        exact absurd hx (step_moves htask).ne_unborn
      · have hsame := hothers x hne
        exact hsame ▸ hs.unborn x (hsame ▸ hx)
    · by_cases hne : x = id
      · subst hne
        refine (hs.accounted x).step htask fun response heq => hother ?_
        rw [heq]
        trivial
      · exact hothers x hne ▸ hs.accounted x
  · have htask := task_of_moves hmoves fun id e heq => hsession ⟨id, e, heq⟩
    refine ⟨hnumbered, fun x hx => ?_, hs.replays, fun x => ?_⟩
    · rcases htask x with hsame | ⟨_, hspawned⟩
      · exact hsame ▸ hs.unborn x (hsame ▸ hx)
      · rw [show server.task x = .spawned from hspawned] at hx
        cases hx
    · rcases htask x with hsame | ⟨hpending, hspawned⟩
      · exact hsame ▸ hs.accounted x
      · -- a pending session was never spawned before, so it has no calls
        have hpc : (s.server.task x).pc = .unborn := by
          refine Decidable.byContradiction fun hborn => ?_
          exact (hs.numbered.born x hborn).2.1 hpending
        have hcalls : Service.calls { s with server } x = [] := hs.calls_unborn hpc
        rw [hcalls, show server.task x = .spawned from hspawned]
        exact accounted_spawned

/-- The end of a call goes to the account of its session. -/
theorem Ledger.handle {id : SessionId} {request : TcpDataUnit} {response : Option TcpDataUnit}
    {server : TcpServer} {h' : RequestHandler} (hs : Ledger handler s)
    (hpc : (s.server.task id).pc = .handling request)
    (hnext : s.server.step (.session id (.handled response)) = some server)
    (hreplays : Replays handler (s.log ++ [⟨id, request, response⟩]) h') :
    Ledger handler ⟨server, h', s.log ++ [⟨id, request, response⟩]⟩ := by
  obtain ⟨htask, hothers⟩ := session_step hnext
  refine ⟨numbered_step hs.numbered (server_moves hnext), fun x hx => ?_, hreplays, fun x => ?_⟩
  · by_cases hne : x = id
    · subst hne
      exact absurd hx (step_moves htask).ne_unborn
    · have hsame := hothers x hne
      exact hsame ▸ hs.unborn x (hsame ▸ hx)
  · by_cases hne : x = id
    · subst hne
      have hcalls : Service.calls ⟨server, h', s.log ++ [⟨x, request, response⟩]⟩ x =
          s.calls x ++ [⟨x, request, response⟩] := by
        simp [Service.calls, List.filter_append]
      rw [hcalls]
      exact (hs.accounted x).handled hpc htask
    · have hcalls : Service.calls ⟨server, h', s.log ++ [⟨id, request, response⟩]⟩ x =
          s.calls x := by
        simp [Service.calls, List.filter_append, Ne.symm hne]
      rw [hcalls]
      exact hothers x hne ▸ hs.accounted x

theorem ledger_step {s' : Service} {e : ServiceEvent} (hs : Ledger handler s)
    (h : ServiceMoves s e s') : Ledger handler s' := by
  cases h with
  | server other next => exact hs.server other next
  | answered pc call next => exact hs.handle pc next (.answered hs.replays call)
  | threw pc call next => exact hs.handle pc next (.threw hs.replays call)

end Steps

theorem ledger_of_run {config : ServerConfig} {handler : RequestHandler} {s : Service}
    {guard : Service → ServiceEvent → Prop}
    (h : Run Service.step guard (.initial config handler) s) : Ledger handler s :=
  h.invariant (Ledger handler) (ledger_initial config handler) fun _ _ _ ht _ hstep =>
    ledger_step ht (service_moves hstep)

/-- In whatever order the sessions of a server move: the logged calls of each session are
those of the requests it handed over, in that order, and what it sent are prefixes of the
logged responses to them; and calling the handler one request after the other, in the
order of the log, gives the logged responses and the memory. -/
theorem serializable (config : ServerConfig) (handler : RequestHandler) (s : Service)
    (h : Reachable Service.step (.initial config handler) s) :
    (∀ id, Accounted (s.calls id) (s.server.task id)) ∧ Replays handler s.log s.handler :=
  ⟨(ledger_of_run h).accounted, (ledger_of_run h).replays⟩

/-- A connection is accepted and its session waits for a request. -/
def accepts (id : SessionId) : List ServiceEvent :=
  [.server .acceptTest, .server .connection, .server (.resume true), .server .spawn, .server .drop,
    .server (.admission id), .server (.session id (.enter true)), .server (.session id .test)]

/-- A request to switch the first coil on. -/
def firstCoilOn : Message := .writeSingleCoilRequest ⟨1, 0, true⟩

theorem firstCoilOn_nonempty : frame 2 firstCoilOn ≠ [] := by decide

theorem firstCoilOn_fits : (frame 2 firstCoilOn).length ≤ maxApuSize := by decide

def firstCoilOnRead : Chunk := ⟨frame 2 firstCoilOn, firstCoilOn_nonempty, firstCoilOn_fits⟩

/-- Of two sessions with a request each, the second is served first. -/
def crossing : List ServiceEvent :=
  .server (.listen true) :: accepts 0 ++ accepts 1 ++
    [.server (.session 0 (.readDone (.ok firstCoilOnRead))),
      .server (.session 1 (.readDone (.ok eightCoilsRead))), .handle 1, .handle 0,
      .server (.session 0 (.written none 12))]

/-- It reads the coil as it was, and both sessions have their own responses. -/
theorem serializable_crossing :
    ∃ s, Reachable Service.step (.initial .default .initial) s ∧
      s.log.map Handled.id = [1, 0] ∧ s.handler.memorySpace .coils = [0x9B, 0xA9, 0x01] ∧
      (s.server.task 0).state.sent = frame 2 firstCoilOn ∧
      (s.server.task 1).pc =
        .writing ⟨frame 1 (.readCoilsResponse ⟨1, [0x9A]⟩), .response⟩ ∧
      (∀ id, Accounted (s.calls id) (s.server.task id)) ∧ Replays .initial s.log s.handler :=
  ⟨_, Run.of_exec crossing rfl, rfl, rfl, rfl, rfl,
    serializable .default .initial _ (Run.of_exec crossing rfl)⟩

/-! ## Runs without undefined behaviour -/

/-- The steps to which the source gives no meaning: a coroutine goes on whose session was
destroyed, or a call of the handler leaves its vectors. -/
def Service.Undefined (s : Service) : ServiceEvent → Prop
  | .server event => ¬ event.IsHandled ∧ UsesDestroyed s.server event
  | .handle id =>
    ((s.server.task id).pc.request.isSome = true ∧ ¬ Owned s.server id) ∨
      (s.server.task id).pc.request.any s.handler.faults = true

instance (s : Service) : (e : ServiceEvent) → Decidable (s.Undefined e)
  | .server _ => inferInstanceAs (Decidable (_ ∧ _))
  | .handle _ => inferInstanceAs (Decidable (_ ∨ _))

/-- The service, as long as nothing undefined happens. -/
def Service.checkedStep : Option Service → ServiceEvent → Option (Option Service) :=
  orUndefined Service.Undefined Service.step

/-- In every run in which no call leaves its vectors and no destroyed session is used, the
masks guard the memory against all that clients send. -/
theorem memory_protected (config : ServerConfig) (handler : RequestHandler) (s : Service)
    (h : Reachable Service.checkedStep (some (.initial config handler)) (some s)) :
    Protected handler s.handler :=
  (ledger_of_run h.defined).replays.protects

theorem memory_protected_crossing :
    ∃ s, Reachable Service.checkedStep (some (.initial .default .initial)) (some s) ∧
      s.handler.memorySpace .coils ≠ RequestHandler.initial.memorySpace .coils ∧
      Protected .initial s.handler := by
  refine ⟨_, Run.of_exec crossing rfl, ?_,
    memory_protected .default .initial _ (Run.of_exec crossing rfl)⟩
  decide

end Modbus.Server
