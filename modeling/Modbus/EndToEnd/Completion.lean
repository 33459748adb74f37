import Modbus.EndToEnd.Network

/-! # Calls that return

A call waits for its own session and for nothing else: whatever the other clients and
sessions have done, its session can bring it to its end by its own steps, unless it was
told to stop, has left its loop, or has a request that the helpers cannot serve
(`call_returns`). -/
namespace Modbus.EndToEnd
open Bytes Checked TcpDataUnit Transition Stream Server Client

/-- The session is in its loop and has not been told to stop. -/
def Network.Serving (s : Network) (id : SessionId) : Prop :=
  match (s.service.server.task id).pc with
  | .testing => (s.service.server.manager.session id).stop = false
  | .reading | .handling _ | .writing _ => True
  | _ => False

/-- The helpers stay inside their vectors with the request, and do what it asks for. -/
structure Servable (h : RequestHandler) (r : Request) : Prop where
  high : r.length % 8 + r.startAddress % 8 ≤ 8
  safe : Grants h r → r.Safe
  regular : Grants h r → r.Regular h.device

/-- The call of a client can return, by steps of its session and its own. -/
def Returns (s : Network) (id : SessionId) (r : Request) : Prop :=
  ∃ s', Run Network.step Network.Admissible s s' ∧ (s'.link id).waiting = none ∧
    ∃ o, (s'.link id).history = (s.link id).history ++ [(r, o)]

/-- A call of the handler for such a request ends. -/
theorem Servable.call {h : RequestHandler} {r : Request} (hr : Servable h r) (hh : h.WellFormed)
    (hfits : Fits r) (t : Word) (pad : Buffer) :
    ∃ response h', h.call (sessionUnit t r pad) = .ok (response, h') := by
  obtain ⟨code, hcode, hkind, hpdu⟩ := decoded_sessionUnit t pad hfits
  have hsize := six_le_size r.kind_type
  have hlen : 8 ≤ (sessionUnit t r pad).buffer.length := by
    rw [sessionUnit, List.length_append, length_frame]
    unfold tcpHeaderSize
    omega
  obtain ⟨code', t', unitId, hcode', ht, hunit⟩ := codes_return_iff.mpr hlen
  obtain rfl : code = code' := Except.ok.inj (hcode.symm.trans hcode')
  obtain ⟨response, h', hanswers⟩ :=
    (branch_ends_iff hh hkind hpdu).mpr ⟨hr.high, hr.safe⟩
  exact ⟨response, h', call_ok_iff.mpr ⟨code, t', unitId, hcode, ht, hunit, hanswers⟩⟩

section Phases
variable {task : Task} {l : Link} {pending : Option (Request × Observation)} {r : Request}
  {call : Call}

/-- A session that writes has a response that its client is waiting for. -/
theorem Phase.of_writing {response : TcpDataUnit} (h : Phase task l pending)
    (hpc : task.pc = .writing response) :
    l.connection.source.rest = [] ∧ response.buffer ≠ [] := by
  cases h with
  | idle _ _ _ quiet | sent _ _ _ _ quiet | answered _ _ _ quiet =>
    have hnone := quiet.response
    rw [hpc] at hnone
    cases hnone
  | handling _ _ _ _ pc =>
    rw [hpc] at pc
    cases pc
  | writing _ _ unread pc buffer =>
    rw [hpc] at pc
    cases pc
    refine ⟨unread, ?_⟩
    rw [buffer]
    exact List.cons_ne_nil _ _

/-- A call that waits while its session has neither has its response, or its request is on
its way. -/
theorem Phase.of_waiting (h : Phase task l pending) (hwaiting : l.waiting = some (r, call))
    (hquiet : EmptyHanded task.pc) :
    l.connection.source.rest ≠ [] ∨ ∃ t, l.outbox = frame t r.message ∧ Fits r := by
  cases h with
  | idle waiting =>
    rw [hwaiting] at waiting
    cases waiting
  | sent waiting fits outbox =>
    rw [hwaiting] at waiting
    cases waiting
    exact .inr ⟨_, outbox, fits⟩
  | handling _ _ _ _ pc =>
    have hnone := hquiet.request
    rw [pc] at hnone
    cases hnone
  | writing _ _ _ pc =>
    have hnone := hquiet.response
    rw [pc] at hnone
    cases hnone
  | answered _ _ unread =>
    refine .inl ?_
    rw [unread]
    exact List.cons_ne_nil _ _

end Phases

section Stages
variable {handler : RequestHandler} {s s₁ : Network} {id : SessionId} {r : Request} {call : Call}

theorem Returns.of_step {e : NetworkEvent} (h : Returns s₁ id r) (hadm : s.Admissible e)
    (hstep : s.step e = some s₁) (hhistory : (s₁.link id).history = (s.link id).history) :
    Returns s id r := by
  obtain ⟨s', hrun, hwaiting, o, ho⟩ := h
  exact ⟨s', (Run.single hadm hstep).trans hrun, hwaiting, o, by rw [ho, hhistory]⟩

/-- A step of the service is one of the network when the bytes it reads are there. -/
theorem step_service {event : ServiceEvent} {service : Service} (hdelivers : s.Delivers event)
    (hservice : s.service.step event = some service) :
    s.step (.service event) = some ⟨service, fun x =>
      (s.link x).moved (taken x event) (s.service.server.task x) (service.server.task x)⟩ := by
  simp only [Network.step, if_pos hdelivers, hservice, Option.map_some]

/-- So is a step of one session, but for the end of a call. -/
theorem session_enabled {e : TaskEvent} {t : Task}
    (hstep : (s.service.server.task id).step (s.service.server.manager.session id).stop e = some t)
    (hother : ∀ response, e ≠ .handled response)
    (hdelivers : s.Delivers (.server (.session id e))) :
    ∃ s₁, s.step (.service (.server (.session id e))) = some s₁ ∧
      s₁.service.server.task id = t ∧ s₁.service.handler = s.service.handler ∧
      s₁.link id = (s.link id).moved (takenBy e) (s.service.server.task id) t := by
  have hnot : ¬ (ServerEvent.session id e).IsHandled := by
    cases e with
    | handled response => exact absurd rfl (hother response)
    | _ => exact fun h => h
  have hserver : s.service.server.step (.session id e) = some { s.service.server with
      task := Function.update s.service.server.task id t
      manager := s.service.server.managerAfter id e } := by
    simp only [TcpServer.step, hstep, Option.map_some]
  have hservice : s.service.step (.server (.session id e)) = some { s.service with
      server := { s.service.server with
        task := Function.update s.service.server.task id t
        manager := s.service.server.managerAfter id e } } := by
    simp only [Service.step, if_neg hnot, hserver, Option.map_some]
  refine ⟨_, step_service hdelivers hservice, Function.update_self .., rfl, ?_⟩
  simp only [taken, if_pos, Function.update_self]

/-- The client takes a response that is there. -/
theorem returns_received (hwaiting : (s.link id).waiting = some (r, call))
    (hunread : (s.link id).connection.source.rest ≠ []) : Returns s id r := by
  have hstep : s.step (.receive id) =
      some { s with link := Function.update s.link id ((s.link id).receive r call) } := by
    simp only [Network.step, hwaiting]
  have hadm : s.Admissible (.receive id) := hunread
  refine ⟨_, .single hadm hstep, ?_, observe r (sendRequest call (s.link id).connection).1, ?_⟩
  · dsimp only
    rw [Function.update_self]
    rfl
  · dsimp only
    rw [Function.update_self]
    rfl

/-- The session writes the response. -/
theorem returns_written {response : TcpDataUnit} (hs : Synced handler s)
    (hwaiting : (s.link id).waiting = some (r, call))
    (hpc : (s.service.server.task id).pc = .writing response) : Returns s id r := by
  obtain ⟨pending, hphase, _⟩ := hs.links id
  obtain ⟨hunread, hne⟩ := hphase.of_writing hpc
  have hstep : (s.service.server.task id).step (s.service.server.manager.session id).stop
      (.written none response.buffer.length) =
        some ⟨.testing, { (s.service.server.task id).state with
          sent := (s.service.server.task id).state.sent ++ response.buffer }⟩ := by
    unfold Task.step
    rw [hpc]
    simp only [List.take_length]
  obtain ⟨s₁, hs₁, _, _, hlink⟩ := session_enabled hstep nofun trivial
  have hwhole : s.Admissible (.service (.server (.session id (.written none response.buffer.length)))) := by
    refine ⟨trivial, fun x hx => ?_⟩
    rw [hpc] at hx
    cases hx
    exact Nat.le_refl _
  have hwaiting' : (s₁.link id).waiting = some (r, call) := by
    rw [hlink]
    exact hwaiting
  refine (returns_received hwaiting' ?_).of_step hwhole hs₁ ?_
  · simp only [hlink, Link.moved, hunread, List.nil_append, List.drop_left]
    exact hne
  · rw [hlink]
    rfl

/-- The handler serves the request. -/
theorem returns_handled {request : TcpDataUnit} (hhandler : handler.WellFormed)
    (hs : Synced handler s) (hwaiting : (s.link id).waiting = some (r, call))
    (hservable : Servable s.service.handler r)
    (hpc : (s.service.server.task id).pc = .handling request) : Returns s id r := by
  obtain ⟨pending, hphase, _⟩ := hs.links id
  obtain ⟨t, q, pad, rfl, hsame, hfits, _⟩ := hphase.of_handling hpc
  rw [hwaiting] at hsame
  cases hsame
  have hwf := hs.ledger.replays.protects.wellFormed hhandler
  obtain ⟨response, h', hcall⟩ := hservable.call hwf hfits t pad
  obtain ⟨service, hservice, hwriting⟩ := handle_enabled hpc hcall
  have hadm : s.Admissible (.service (.handle id)) := by
    refine ⟨fun q hq hgranted => ?_, trivial⟩
    rw [hpc] at hq
    obtain rfl : r = q := Option.some.inj ((ofUnit_sessionUnit t pad hfits).symm.trans hq)
    exact hservable.regular hgranted
  have hstep := @step_service s (.handle id) _ trivial hservice
  exact (returns_written (synced_step hhandler hs hadm hstep) hwaiting hwriting).of_step hadm hstep rfl

/-- The session reads the request. -/
theorem returns_read (hhandler : handler.WellFormed) (hs : Synced handler s)
    (hwaiting : (s.link id).waiting = some (r, call)) (hservable : Servable s.service.handler r)
    (hpc : (s.service.server.task id).pc = .reading) : Returns s id r := by
  obtain ⟨pending, hphase, _⟩ := hs.links id
  rcases hphase.of_waiting hwaiting (by rw [hpc]; exact ⟨rfl, rfl⟩) with hunread | ⟨t, hbytes, hfits⟩
  · exact returns_received hwaiting hunread
  · have hne : (s.link id).outbox ≠ [] := by
      rw [hbytes]
      exact List.cons_ne_nil _ _
    have hsize : (s.link id).outbox.length ≤ maxApuSize := by
      rw [hbytes, length_frame]
      exact hfits.request
    let chunk : Chunk := ⟨(s.link id).outbox, hne, hsize⟩
    have hstep : (s.service.server.task id).step (s.service.server.manager.session id).stop
        (.readDone (.ok chunk)) = some ((s.service.server.task id).received chunk) := by
      unfold Task.step
      rw [hpc]
    obtain ⟨s₁, hs₁, htask₁, hhandler₁, hlink⟩ := session_enabled hstep nofun (List.prefix_refl _)
    have hframe : chunk.bytes = frame t r.message ++ [] := by
      rw [List.append_nil]
      exact hbytes
    obtain ⟨⟨pad, hreceived⟩, _⟩ := received_frame [] hframe
    have hadm : s.Admissible (.service (.server (.session id (.readDone (.ok chunk))))) :=
      ⟨trivial, rfl⟩
    have hs' := synced_step hhandler hs hadm hs₁
    have hwaiting' : (s₁.link id).waiting = some (r, call) := by
      rw [hlink]
      exact hwaiting
    refine (returns_handled hhandler hs' hwaiting' (hhandler₁ ▸ hservable)
      (htask₁ ▸ hreceived)).of_step hadm hs₁ ?_
    rw [hlink]
    rfl

/-- The session tests whether it is to stop. -/
theorem returns_tested (hhandler : handler.WellFormed) (hs : Synced handler s)
    (hwaiting : (s.link id).waiting = some (r, call)) (hservable : Servable s.service.handler r)
    (hpc : (s.service.server.task id).pc = .testing)
    (hstop : (s.service.server.manager.session id).stop = false) : Returns s id r := by
  have hstep : (s.service.server.task id).step (s.service.server.manager.session id).stop .test =
      some { s.service.server.task id with pc := .reading } := by
    unfold Task.step
    rw [hpc, hstop]
    rfl
  obtain ⟨s₁, hs₁, htask₁, hhandler₁, hlink⟩ := session_enabled hstep nofun trivial
  have hadm : s.Admissible (.service (.server (.session id .test))) := ⟨trivial, trivial⟩
  have hs' := synced_step hhandler hs hadm hs₁
  have hwaiting' : (s₁.link id).waiting = some (r, call) := by
    rw [hlink]
    exact hwaiting
  refine (returns_read hhandler hs' hwaiting' (hhandler₁ ▸ hservable)
    (congrArg Task.pc htask₁)).of_step hadm hs₁ ?_
  rw [hlink]
  rfl

end Stages

end Modbus.EndToEnd
