import Modbus.EndToEnd.Observation

/-! # Clients and their server

Every connection has a client at one end and a session of the server at the other. The
bytes between them are part of the state: what the client wrote and the session has not
read, and what the session wrote and the client has not read. All clients call at any
time, each with one call after the other on its connection, and the sessions move in
between. As long as reads and writes are not cut, no call fails, and the clients observe
one device: the calls take effect in the order of the handler's log, between their
request and their response (`observe_one_device`). -/
namespace Modbus.EndToEnd
open Bytes Checked TcpDataUnit Transition Stream Server Client

/-! ## The device as the clients use it -/

/-- A request that reached the device, and what its client will observe. -/
structure Operation where
  id : SessionId
  request : Request
  observation : Observation
deriving DecidableEq, Repr

section Specification
variable (granted : Request → Prop) [DecidablePred granted]

/-- The requests of all clients, one after the other. -/
def performAll : Device → List (SessionId × Request) → List Operation × Device
  | d, [] => ([], d)
  | d, (id, r) :: requests =>
    let (observation, d) := perform granted d r
    let (operations, d) := performAll d requests
    (⟨id, r, observation⟩ :: operations, d)

theorem performAll_append (d : Device) (requests : List (SessionId × Request)) (id : SessionId)
    (r : Request) :
    performAll granted d (requests ++ [(id, r)]) =
      ((performAll granted d requests).1 ++
          [⟨id, r, (perform granted (performAll granted d requests).2 r).1⟩],
        (perform granted (performAll granted d requests).2 r).2) := by
  induction requests generalizing d with
  | nil => rfl
  | cons request requests ih => simp only [List.cons_append, performAll, ih]

theorem perform_congr {granted' : Request → Prop} [DecidablePred granted']
    (h : ∀ r, granted r ↔ granted' r) (d : Device) (r : Request) :
    perform granted d r = perform granted' d r := by
  simp only [perform, h]

end Specification

/-- What the client of one session observes of it. -/
def seenBy (id : SessionId) (operations : List Operation) : List (Request × Observation) :=
  (operations.filter fun o => o.id = id).map fun o => (o.request, o.observation)

theorem seenBy_append (id : SessionId) (operations : List Operation) (o : Operation) :
    seenBy id (operations ++ [o]) =
      seenBy id operations ++ if o.id = id then [(o.request, o.observation)] else [] := by
  rw [seenBy, List.filter_append, List.map_append, seenBy]
  split
  · next h => simp [h]
  · next h => simp [h]

/-! ## Connections -/

/-- A connection seen from its client. -/
structure Link where
  /-- Written by the client and not yet read by the session. -/
  outbox : Buffer
  /-- Written by the session and not yet read by the client. -/
  connection : Connection
  /-- The call that waits for its response. -/
  waiting : Option (Request × Call)
  /-- A history variable: the calls that have returned. -/
  history : List (Request × Observation)

namespace Link

def initial : Link := ⟨[], ⟨⟨[], []⟩, []⟩, none, []⟩

/-- The session has taken some bytes and written others. -/
def moved (l : Link) (taken : Nat) (before after : Task) : Link :=
  { l with
    outbox := l.outbox.drop taken
    connection :=
      { l.connection with
        source :=
          ⟨l.connection.source.rest ++ after.state.sent.drop before.state.sent.length, []⟩ } }

/-- A client that is not waiting finds out what there is to clear, and writes its request. -/
def call (l : Link) (r : Request) (request : TcpDataUnit) : Link :=
  { l with
    outbox := l.outbox ++ request.buffer
    waiting := some (r,
      { cleanCall request [] with available := .ok l.connection.source.rest.length }) }

/-- `send_request` returns. -/
def receive (l : Link) (r : Request) (call : Call) : Link :=
  { l with
    connection := (sendRequest call l.connection).2
    waiting := none
    history := l.history ++ [(r, observe r (sendRequest call l.connection).1)] }

end Link

structure Network where
  service : Service
  link : SessionId → Link

inductive NetworkEvent where
  | service (event : ServiceEvent)
  /-- The client of a session calls, with any transaction id. -/
  | call (id : SessionId) (t : Word) (r : Request)
  /-- The call of that client returns. -/
  | receive (id : SessionId)

/-- How many bytes of its client a session takes. -/
def takenBy : TaskEvent → Nat
  | .readDone (.ok chunk) => chunk.bytes.length
  | _ => 0

def taken (id : SessionId) : ServiceEvent → Nat
  | .server (.session x event) => if x = id then takenBy event else 0
  | _ => 0

namespace Network

def initial (config : ServerConfig) (handler : RequestHandler) : Network :=
  ⟨.initial config handler, fun _ => .initial⟩

/-- A read delivers what the client has written. -/
def Delivers (s : Network) : ServiceEvent → Prop
  | .server (.session id (.readDone (.ok chunk))) => chunk.bytes <+: (s.link id).outbox
  | _ => True

instance (s : Network) : DecidablePred s.Delivers := fun e => by
  unfold Delivers
  split <;> infer_instance

def step (s : Network) : NetworkEvent → Option Network
  | .service event =>
    if s.Delivers event then
      (s.service.step event).map fun service =>
        { service
          link := fun id => (s.link id).moved (taken id event) (s.service.server.task id)
            (service.server.task id) }
    else none
  | .call id t r =>
    match (s.link id).waiting, (createRequest t r.message).1 with
    | none, .ok request =>
      some { s with link := Function.update s.link id ((s.link id).call r request) }
    | _, _ => none
  | .receive id =>
    match (s.link id).waiting with
    | some (r, call) =>
      some { s with link := Function.update s.link id ((s.link id).receive r call) }
    | none => none

/-- A read that takes all there is, or a write that takes the whole response. -/
def Whole (s : Network) : ServiceEvent → Prop
  | .server (.session id (.readDone (.ok chunk))) => chunk.bytes = (s.link id).outbox
  | .server (.session id (.written _ bytesWritten)) =>
    ∀ response ∈ (s.service.server.task id).pc.response,
      response.buffer.length ≤ bytesWritten
  | _ => True

instance (s : Network) : DecidablePred s.Whole := fun e => by
  unfold Whole
  split <;> infer_instance

/-- Nothing is cut: the session reads and writes whole buffers, and a call waits until its
response is there. What is asked for fits into the buffers of client and session, and the
helpers can serve it. -/
def Admissible (s : Network) : NetworkEvent → Prop
  | .service event => s.service.Admissible event ∧ s.Whole event
  | .call _ _ r => Fits r
  | .receive id => (s.link id).connection.source.rest ≠ []

instance (s : Network) : DecidablePred s.Admissible := fun e => by
  cases e <;> unfold Admissible <;> infer_instance

end Network

/-! ## Where a call is -/

/-- Neither a request nor a response is with the session. -/
structure EmptyHanded (pc : TaskPc) : Prop where
  request : pc.request = none
  response : pc.response = none

/-- The call of a client that had nothing to clear. -/
def sentCall (t : Word) (r : Request) : Call := cleanCall ⟨frame t r.message, .request⟩ []

/-- A connection carries at most one call, in one of these places; once the handler is
done with it, what its client is going to observe is settled. -/
inductive Phase (task : Task) (l : Link) : Option (Request × Observation) → Prop
  | idle (waiting : l.waiting = none) (outbox : l.outbox = [])
      (unread : l.connection.source.rest = []) (quiet : EmptyHanded task.pc) : Phase task l none
  | sent {t : Word} {r : Request} (waiting : l.waiting = some (r, sentCall t r)) (fits : Fits r)
      (outbox : l.outbox = frame t r.message) (unread : l.connection.source.rest = [])
      (quiet : EmptyHanded task.pc) : Phase task l none
  | handling {t : Word} {r : Request} {pad : Buffer} (waiting : l.waiting = some (r, sentCall t r))
      (fits : Fits r) (outbox : l.outbox = []) (unread : l.connection.source.rest = [])
      (pc : task.pc = .handling (sessionUnit t r pad)) : Phase task l none
  | writing {t : Word} {r : Request} {m : Message} {response : TcpDataUnit} {o : Observation}
      (waiting : l.waiting = some (r, sentCall t r)) (outbox : l.outbox = [])
      (unread : l.connection.source.rest = []) (pc : task.pc = .writing response)
      (buffer : response.buffer = frame t m) (fits : (frame t m).length ≤ maxApuSize)
      (shows : observe r (.ok ⟨⟨readBuffer (frame t m), .response⟩, none⟩) = o) :
      Phase task l (some (r, o))
  | answered {t : Word} {r : Request} {m : Message} {o : Observation}
      (waiting : l.waiting = some (r, sentCall t r)) (outbox : l.outbox = [])
      (unread : l.connection.source.rest = frame t m) (quiet : EmptyHanded task.pc)
      (fits : (frame t m).length ≤ maxApuSize)
      (shows : observe r (.ok ⟨⟨readBuffer (frame t m), .response⟩, none⟩) = o) :
      Phase task l (some (r, o))

/-- What is settled is the request of the call that waits. -/
theorem Phase.pending {task : Task} {l : Link} {r : Request} {o : Observation}
    (h : Phase task l (some (r, o))) : ∃ call, l.waiting = some (r, call) := by
  cases h with
  | writing waiting => exact ⟨_, waiting⟩
  | answered waiting => exact ⟨_, waiting⟩

section Moves
variable {task task' : Task} {l : Link} {pending : Option (Request × Observation)}

/-- A session that stays where neither waits, or only gets there, changes no phase. -/
theorem Phase.rests (h : Phase task l pending) (hq : EmptyHanded task.pc) (hq' : EmptyHanded task'.pc)
    (hsent : task'.state.sent.drop task.state.sent.length = []) :
    Phase task' (l.moved 0 task task') pending := by
  have hrest : (l.moved 0 task task').connection.source.rest = l.connection.source.rest := by
    rw [Link.moved, hsent, List.append_nil]
  cases h with
  | idle waiting outbox unread => exact .idle waiting outbox (hrest.trans unread) hq'
  | sent waiting fits outbox unread => exact .sent waiting fits outbox (hrest.trans unread) hq'
  | handling _ _ _ _ pc =>
    have hnone := hq.request
    rw [pc] at hnone
    cases hnone
  | writing _ _ _ pc =>
    have hnone := hq.response
    rw [pc] at hnone
    cases hnone
  | answered waiting outbox unread quiet fits shows =>
    exact .answered waiting outbox (hrest.trans unread) hq' fits shows

/-- A session that does not move changes no phase. -/
theorem Phase.unmoved (h : Phase task l pending) : Phase task (l.moved 0 task task) pending := by
  have hrest : (l.moved 0 task task).connection.source.rest = l.connection.source.rest := by
    rw [Link.moved, List.drop_length, List.append_nil]
  cases h with
  | idle waiting outbox unread quiet => exact .idle waiting outbox (hrest.trans unread) quiet
  | sent waiting fits outbox unread quiet =>
    exact .sent waiting fits outbox (hrest.trans unread) quiet
  | handling waiting fits outbox unread pc =>
    exact .handling waiting fits outbox (hrest.trans unread) pc
  | writing waiting outbox unread pc buffer fits shows =>
    exact .writing waiting outbox (hrest.trans unread) pc buffer fits shows
  | answered waiting outbox unread quiet fits shows =>
    exact .answered waiting outbox (hrest.trans unread) quiet fits shows

end Moves

/-- A session that neither reads bytes nor writes is left without a request and a
response. -/
theorem EmptyHanded.step {stop : Bool} {t t' : Task} {e : TaskEvent} (hq : EmptyHanded t.pc)
    (h : t.step stop e = some t') (hread : ∀ chunk, e ≠ .readDone (.ok chunk)) :
    EmptyHanded t'.pc ∧ t'.state.sent = t.state.sent := by
  have hsent : t'.state.sent = t.state.sent := by
    unfold Task.step at h
    split at h
    · cases h
      rfl
    · cases h
      rfl
    · cases h
      rfl
    · cases h
      rfl
    · exact absurd rfl (hread _)
    · cases h
      rfl
    · cases h
      rfl
    · next response error n hpc =>
      have hnone := hq.response
      rw [hpc] at hnone
      cases hnone
    · cases h
      rfl
    · cases h
      rfl
    · cases h
  refine ⟨?_, hsent⟩
  have hmoves := step_moves h
  generalize t.pc = pc at hq hmoves
  generalize t'.pc = pc' at hmoves
  cases hmoves with
  | short | malformed | requested => exact absurd rfl (hread _)
  | handlerThrew | responded =>
    cases hq.request
  | wrote | writeFailed => cases hq.response
  | _ => exact ⟨rfl, rfl⟩

/-- A session that reads the frame of a request, and maybe more, waits for the handler
with it. -/
theorem received_frame {task : Task} {chunk : Chunk} {t : Word} {r : Request} (more : Buffer)
    (hchunk : chunk.bytes = frame t r.message ++ more) :
    (∃ pad, (task.received chunk).pc = .handling (sessionUnit t r pad)) ∧
      (task.received chunk).state.sent = task.state.sent := by
  have hsize := six_le_size r.kind_type
  have hlen : chunk.bytes.length = tcpHeaderSize + r.message.size + more.length := by
    rw [hchunk, List.length_append, length_frame]
  have hlong : tcpHeaderSize + minPduSize ≤ chunk.bytes.length := by
    rw [hlen]
    unfold minPduSize
    omega
  have hfield : lengthField chunk.bytes = r.message.size := by
    have hcount := chunk.fits
    rw [hlen] at hcount
    unfold maxApuSize tcpHeaderSize at hcount
    rw [hchunk, lengthField_append (by rw [length_frame]; exact Nat.le_add_right _ _),
      lengthField_frame, Nat.mod_eq_of_lt (by omega)]
  have hacc := ofBuffer_receive (s := task.state) hlong
    (by rw [hfield, hlen]; exact Nat.le_add_right _ _)
  unfold Task.received
  simp only [Nat.not_lt.mpr hlong, if_false, hacc]
  refine ⟨⟨more ++ task.state.buf.drop chunk.bytes.length, ?_⟩, rfl⟩
  simp only [SessionState.receive, sessionUnit, hchunk, List.append_assoc]

/-! ## What holds in every run -/

/-- The requests that the handler was called with, in that order. -/
def requests (log : List Handled) : List (SessionId × Request) :=
  log.filterMap fun c => (Request.ofUnit c.request).map fun r => (c.id, r)

/-- What the device of a handler does with the requests of a service. -/
def performed (handler : RequestHandler) (s : Network) : List Operation × Device :=
  performAll (Grants handler) handler.device (requests s.service.log)

/-- Every connection is in a phase, and its client has observed what was settled but for
the call on its way. -/
structure Synced (handler : RequestHandler) (s : Network) : Prop where
  ledger : Ledger handler s.service
  device : (performed handler s).2 = s.service.handler.device
  links : ∀ id, ∃ pending, Phase (s.service.server.task id) (s.link id) pending ∧
    seenBy id (performed handler s).1 = (s.link id).history ++ pending.toList

theorem synced_initial (config : ServerConfig) (handler : RequestHandler) :
    Synced handler (.initial config handler) :=
  ⟨ledger_initial config handler, rfl, fun _ => ⟨none, .idle rfl rfl rfl ⟨rfl, rfl⟩, rfl⟩⟩

section Steps
variable {handler : RequestHandler} {s : Network}

/-- A response that is written is on its way to the client, as far as it was written. -/
theorem written_step {stop : Bool} {t t' : Task} {e : TaskEvent} {response : TcpDataUnit}
    (hpc : t.pc = .writing response) (h : t.step stop e = some t') :
    ∃ error n, e = .written error n ∧ EmptyHanded t'.pc ∧
      t'.state.sent = t.state.sent ++ response.buffer.take n := by
  obtain ⟨pc, s⟩ := t
  obtain rfl : pc = .writing response := hpc
  unfold Task.step at h
  split at h
  case h_8 response' error n heq =>
    cases heq
    refine ⟨error, n, rfl, ?_⟩
    dsimp only at h
    split at h <;> cases h <;> exact ⟨⟨rfl, rfl⟩, rfl⟩
  case h_11 => cases h
  all_goals next heq => cases heq

/-- A read takes place where the session waits for it. -/
theorem read_step {stop : Bool} {t t' : Task} {chunk : Chunk}
    (h : t.step stop (.readDone (.ok chunk)) = some t') :
    t.pc = .reading ∧ t' = t.received chunk := by
  obtain ⟨pc, s⟩ := t
  cases pc with
  | reading =>
    cases h
    exact ⟨rfl, rfl⟩
  | _ => cases h

/-- Every move of a session but the end of a call takes its connection along. -/
theorem Phase.session {task task' : Task} {l : Link} {pending : Option (Request × Observation)}
    {stop : Bool} {e : TaskEvent} (h : Phase task l pending) (hstep : task.step stop e = some task')
    (hother : ∀ response, e ≠ .handled response)
    (hread : ∀ chunk, e = .readDone (.ok chunk) → chunk.bytes = l.outbox)
    (hwrite : ∀ error n, e = .written error n →
      ∀ response ∈ task.pc.response, response.buffer.length ≤ n) :
    Phase task' (l.moved (takenBy e) task task') pending := by
  by_cases hchunk : ∃ chunk, e = .readDone (.ok chunk)
  · obtain ⟨chunk, rfl⟩ := hchunk
    have hbytes := hread chunk rfl
    obtain ⟨hpc, rfl⟩ := read_step hstep
    cases h with
    | idle waiting outbox => exact absurd (hbytes.trans outbox) chunk.nonempty
    | @sent t r waiting fits outbox unread quiet =>
      have hchunk : chunk.bytes = frame t r.message ++ [] := by
        rw [hbytes, outbox, List.append_nil]
      obtain ⟨⟨pad, hreceived⟩, hsent⟩ := received_frame [] hchunk
      refine .handling waiting fits ?_ ?_ hreceived
      · rw [Link.moved, takenBy, hbytes]
        exact List.drop_length
      · simp only [Link.moved, hsent, List.drop_length, List.append_nil, unread]
    | handling _ _ _ _ pc | writing _ _ _ pc =>
      rw [hpc] at pc
      cases pc
    | answered waiting outbox => exact absurd (hbytes.trans outbox) chunk.nonempty
  · have htaken : takenBy e = 0 := by
      unfold takenBy
      split
      · exact absurd ⟨_, rfl⟩ hchunk
      · rfl
    have hnone : ∀ chunk, e ≠ .readDone (.ok chunk) := fun chunk heq => hchunk ⟨chunk, heq⟩
    have hquiet : EmptyHanded task.pc → Phase task' (l.moved 0 task task') pending := by
      intro hq
      obtain ⟨hq', hsent⟩ := hq.step hstep hnone
      exact h.rests hq hq' (by rw [hsent, List.drop_length])
    rw [htaken]
    cases h with
    | idle _ _ _ quiet => exact hquiet quiet
    | sent _ _ _ _ quiet => exact hquiet quiet
    | answered _ _ _ quiet => exact hquiet quiet
    | handling _ _ _ _ pc =>
      have hmoves := step_moves hstep
      rw [pc] at hmoves
      generalize task'.pc = pc' at hmoves
      cases hmoves with
      | handlerThrew | responded => exact absurd rfl (hother _)
    | @writing t r m response o waiting outbox unread pc buffer fits shows =>
      obtain ⟨error, n, rfl, hq', hsent⟩ := written_step pc hstep
      have hwhole := hwrite error n rfl response (by rw [pc]; rfl)
      have hall : response.buffer.take n = frame t m := by
        rw [List.take_of_length_le hwhole, buffer]
      refine .answered waiting outbox ?_ hq' fits shows
      simp only [Link.moved, hsent, hall, unread, List.nil_append, List.drop_left]

/-- The links after a step of the server that is no end of a call. -/
theorem Phase.server {event : ServerEvent} {server : TcpServer} (hother : ¬ event.IsHandled)
    (hnext : s.service.server.step event = some server) (hwhole : s.Whole (.server event))
    (hledger : Ledger handler s.service) {id : SessionId}
    {pending : Option (Request × Observation)}
    (h : Phase (s.service.server.task id) (s.link id) pending) :
    Phase (server.task id) ((s.link id).moved (taken id (.server event))
      (s.service.server.task id) (server.task id)) pending := by
  by_cases hsession : ∃ x e, event = .session x e
  · obtain ⟨x, e, rfl⟩ := hsession
    obtain ⟨htask, hothers⟩ := session_step hnext
    by_cases hne : id = x
    · subst hne
      have hend : ∀ response, e ≠ .handled response := by
        rintro response rfl
        exact hother trivial
      rw [taken, if_pos rfl]
      refine h.session htask hend ?_ ?_
      · rintro chunk rfl
        exact hwhole
      · rintro error n rfl
        exact hwhole
    · rw [taken, if_neg (Ne.symm hne), hothers id hne]
      exact h.unmoved
  · have htaken : taken id (.server event) = 0 := by
      unfold taken
      split
      · next heq =>
        cases heq
        exact absurd ⟨_, _, rfl⟩ hsession
      · rfl
    rw [htaken]
    rcases task_of_moves (server_moves hnext) (fun x e heq => hsession ⟨x, e, heq⟩) id with
      hsame | ⟨hpending, hspawned⟩
    · rw [hsame]
      exact h.unmoved
    · have hpc : (s.service.server.task id).pc = .unborn := by
        refine Decidable.byContradiction fun hborn => ?_
        exact (hledger.numbered.born id hborn).2.1 hpending
      rw [hspawned]
      refine h.rests ?_ ⟨rfl, rfl⟩ List.drop_nil
      rw [hpc]
      exact ⟨rfl, rfl⟩

/-- The handler's response waits to be written. -/
theorem handled_step {stop : Bool} {t t' : Task} {request response : TcpDataUnit}
    (hpc : t.pc = .handling request) (h : t.step stop (.handled (some response)) = some t') :
    t'.pc = .writing response ∧ t'.state = t.state := by
  obtain ⟨pc, s⟩ := t
  obtain rfl : pc = .handling request := hpc
  cases h
  exact ⟨rfl, rfl⟩

/-- A session that waits for the handler does so with the request of its client. -/
theorem Phase.of_handling {task : Task} {l : Link} {pending : Option (Request × Observation)}
    {request : TcpDataUnit} (h : Phase task l pending) (hpc : task.pc = .handling request) :
    ∃ t r pad, request = sessionUnit t r pad ∧ l.waiting = some (r, sentCall t r) ∧ Fits r ∧
      l.outbox = [] ∧ l.connection.source.rest = [] ∧ pending = none := by
  cases h with
  | idle _ _ _ quiet | sent _ _ _ _ quiet | answered _ _ _ quiet =>
    have hnone := quiet.request
    rw [hpc] at hnone
    cases hnone
  | @handling t r pad waiting fits outbox unread pc =>
    rw [hpc] at pc
    cases pc
    exact ⟨t, r, pad, rfl, waiting, fits, outbox, unread, rfl⟩
  | writing _ _ _ pc =>
    rw [hpc] at pc
    cases pc

theorem ofUnit_sessionUnit (t : Word) {r : Request} (pad : Buffer) (hfits : Fits r) :
    Request.ofUnit (sessionUnit t r pad) = some r := by
  obtain ⟨code, hcode, hkind, hpdu⟩ := decoded_sessionUnit t pad hfits
  exact Request.ofUnit_eq hcode hkind hpdu

/-- The end of a call settles what its client will observe. -/
theorem Synced.handled {id : SessionId} {request response : TcpDataUnit} {h' : RequestHandler}
    {server : TcpServer} (hhandler : handler.WellFormed) (hs : Synced handler s)
    (hregular : s.service.Admissible (.handle id))
    (hpc : (s.service.server.task id).pc = .handling request)
    (hcall : s.service.handler.call request = .ok (response, h'))
    (hnext : s.service.server.step (.session id (.handled (some response))) = some server) :
    Synced handler
      ⟨⟨server, h', s.service.log ++ [⟨id, request, some response⟩]⟩,
        fun x => (s.link x).moved (taken x (.handle id)) (s.service.server.task x)
          (server.task x)⟩ := by
  obtain ⟨pending, hphase, hseen⟩ := hs.links id
  obtain ⟨t, r, pad, rfl, waiting, fits, outbox, unread, rfl⟩ := hphase.of_handling hpc
  have hunit := ofUnit_sessionUnit t pad fits
  have hprotected := hs.ledger.replays.protects
  have hgrants : ∀ q, Grants s.service.handler q ↔ Grants handler q := by
    intro q
    rw [Grants, Grants, hprotected.validAddresses]
  obtain ⟨m, hbuffer, hfits, hshows, hdevice⟩ := call_observed (hprotected.wellFormed hhandler) fits
    (fun hgranted => hregular r (by rw [hpc]; exact hunit) hgranted) hcall
  rw [perform_congr _ hgrants, ← hs.device] at hshows hdevice
  obtain ⟨htask, hothers⟩ := session_step hnext
  obtain ⟨hpc', hstate⟩ := handled_step hpc htask
  have hperformed : performAll (Grants handler) handler.device
      (requests (s.service.log ++ [⟨id, sessionUnit t r pad, some response⟩])) =
      ((performed handler s).1 ++
          [⟨id, r, (perform (Grants handler) (performed handler s).2 r).1⟩],
        (perform (Grants handler) (performed handler s).2 r).2) := by
    rw [requests, List.filterMap_append, List.filterMap_cons, hunit]
    exact performAll_append ..
  refine ⟨hs.ledger.handle hpc hnext (.answered hs.ledger.replays hcall), ?_, fun x => ?_⟩
  · rw [performed, hperformed, hdevice]
  · rw [performed, hperformed, seenBy_append]
    by_cases hne : x = id
    · subst hne
      refine ⟨some (r, _), .writing waiting outbox ?_ hpc' hbuffer hfits hshows, ?_⟩
      · simp only [Link.moved, hstate, List.drop_length, List.append_nil, unread]
      · rw [if_pos rfl, hseen, Option.toList_none, List.append_nil]
        rfl
    · obtain ⟨pending, hphase, hseen⟩ := hs.links x
      refine ⟨pending, ?_, ?_⟩
      · dsimp only
        rw [hothers x hne]
        exact hphase.unmoved
      · rw [if_neg (Ne.symm hne), List.append_nil, hseen]
        rfl

/-- The handler answers every unit that a session makes of a request. -/
theorem sessionUnit_not_thrown {h : RequestHandler} {t : Word} {r : Request} {pad : Buffer}
    {e : Exn} : h.call (sessionUnit t r pad) ≠ .error (.threw e) := by
  intro hcall
  have hshort := call_throws_iff.mp ⟨e, hcall⟩
  have hsize := six_le_size r.kind_type
  rw [sessionUnit, List.length_append, length_frame] at hshort
  unfold tcpHeaderSize at hshort
  omega

theorem Synced.service {event : ServiceEvent} {service : Service} (hhandler : handler.WellFormed)
    (hs : Synced handler s) (hregular : s.service.Admissible event) (hwhole : s.Whole event)
    (h : s.service.step event = some service) :
    Synced handler
      ⟨service, fun id => (s.link id).moved (taken id event) (s.service.server.task id)
        (service.server.task id)⟩ := by
  cases service_moves h with
  | server other next =>
    refine ⟨hs.ledger.server other next, hs.device, fun id => ?_⟩
    obtain ⟨pending, hphase, hseen⟩ := hs.links id
    exact ⟨pending, hphase.server other next hwhole hs.ledger, hseen⟩
  | answered pc call next => exact hs.handled hhandler hregular pc call next
  | @threw id request e server pc call next =>
    obtain ⟨pending, hphase, _⟩ := hs.links id
    obtain ⟨t, r, pad, rfl, _⟩ := hphase.of_handling pc
    exact absurd call sessionUnit_not_thrown

/-- A change of one link leaves the others in their phases. -/
theorem Synced.update (hs : Synced handler s) {id : SessionId} {l : Link}
    (h : ∃ pending, Phase (s.service.server.task id) l pending ∧
      seenBy id (performed handler s).1 = l.history ++ pending.toList) :
    Synced handler { s with link := Function.update s.link id l } := by
  refine ⟨hs.ledger, hs.device, fun x => ?_⟩
  by_cases hne : x = id
  · subst hne
    dsimp only
    rw [Function.update_self]
    exact h
  · dsimp only
    rw [Function.update_of_ne hne]
    exact hs.links x

/-- A client that is not waiting has nothing to clear when it calls. -/
theorem Phase.call {task : Task} {l : Link} {pending : Option (Request × Observation)} {r : Request}
    {t : Word} (h : Phase task l pending) (hwaiting : l.waiting = none) (hfits : Fits r) :
    pending = none ∧ Phase task (l.call r ⟨frame t r.message, .request⟩) none := by
  cases h with
  | idle waiting outbox unread quiet =>
    refine ⟨rfl, .sent (t := t) ?_ hfits ?_ unread quiet⟩
    · rw [Link.call, unread]
      rfl
    · rw [Link.call, outbox]
      rfl
  | sent waiting | handling waiting | writing waiting | answered waiting =>
    rw [hwaiting] at waiting
    cases waiting

/-- A call that finds its response returns it, and leaves nothing unread. -/
theorem sendRequest_sentCall {t : Word} {r : Request} {m : Message} {c : Connection}
    (hunread : c.source.rest = frame t m) (hfits : (frame t m).length ≤ maxApuSize) :
    (sendRequest (sentCall t r) c).1 = .ok ⟨⟨readBuffer (frame t m), .response⟩, none⟩ ∧
      (sendRequest (sentCall t r) c).2.source.rest = [] := by
  have hsize : m.size < 65536 := by
    rw [length_frame] at hfits
    unfold maxApuSize tcpHeaderSize at hfits
    omega
  have hbytes := WireFrame.bytes_ofMessage (t := t) hsize
  have hread := readResponse_frame (.ofMessage t m hsize) (by rwa [hbytes]) [] c.starts
  have hown := transactionId_wire (.ofMessage t m hsize)
  rw [hbytes, List.append_nil] at hread
  rw [hbytes] at hown
  have hid := transactionId_request t r
  have hloop := @readLoop_response t _ _ _ _ hread hown
  rw [WireFrame.ofMessage, if_neg (BitVec.lt_irrefl t)] at hloop
  obtain ⟨hconn, hresult⟩ := sendRequest_clean hid [] c
  rw [hunread, hloop] at hconn hresult
  refine ⟨hresult _ rfl, ?_⟩
  rw [sentCall, hconn]

/-- A client whose response is there observes what was settled. -/
theorem Phase.receive {task : Task} {l : Link} {pending : Option (Request × Observation)}
    {r : Request} {call : Call} (h : Phase task l pending) (hwaiting : l.waiting = some (r, call))
    (hunread : l.connection.source.rest ≠ []) :
    Phase task (l.receive r call) none ∧ (l.receive r call).history = l.history ++ pending.toList := by
  cases h with
  | idle waiting _ unread | sent _ _ _ unread | handling _ _ _ unread | writing _ _ unread =>
    exact absurd unread hunread
  | answered waiting outbox unread quiet fits shows =>
    rw [hwaiting] at waiting
    cases waiting
    obtain ⟨hresult, hrest⟩ := sendRequest_sentCall (r := r) unread fits
    refine ⟨.idle rfl outbox hrest quiet, ?_⟩
    rw [Link.receive, hresult, shows]
    rfl

theorem synced_step {s' : Network} {e : NetworkEvent} (hhandler : handler.WellFormed)
    (hs : Synced handler s) (hadm : s.Admissible e) (h : s.step e = some s') :
    Synced handler s' := by
  cases e with
  | service event =>
    obtain ⟨_, hmap⟩ := Option.ite_none_right_eq_some.mp h
    obtain ⟨service, hservice, hs'⟩ := Option.map_eq_some_iff.mp hmap
    cases hs'
    exact hs.service hhandler hadm.1 hadm.2 hservice
  | call id t r =>
    simp only [Network.step, createRequest_eq] at h
    split at h
    · next request hwaiting heq =>
      cases h
      cases heq
      obtain ⟨pending, hphase, hseen⟩ := hs.links id
      obtain ⟨rfl, hcall⟩ := hphase.call (t := t) hwaiting hadm
      rw [r.kind_type]
      exact hs.update ⟨none, hcall, hseen⟩
    · cases h
  | receive id =>
    simp only [Network.step] at h
    split at h
    · next r call hwaiting =>
      cases h
      obtain ⟨pending, hphase, hseen⟩ := hs.links id
      obtain ⟨hidle, hhistory⟩ := hphase.receive hwaiting hadm
      refine hs.update ⟨none, hidle, ?_⟩
      rw [hseen, hhistory, Option.toList_none, List.append_nil]
    · cases h

end Steps

/-- Whatever clients call, in whatever order their calls and the sessions move, as long as
nothing is cut and what is asked for can be served: the device does the requests in the
order of the handler's log, the memory shows what it has become, and every client has
observed what the device did with its own requests, in its own order, but for one that
is on its way to a call that waits. -/
theorem observe_one_device (config : ServerConfig) (handler : RequestHandler)
    (hhandler : handler.WellFormed) (s : Network)
    (h : Run Network.step Network.Admissible (.initial config handler) s) :
    (performed handler s).2 = s.service.handler.device ∧
      ∀ id, ∃ pending : Option (Request × Observation),
        seenBy id (performed handler s).1 = (s.link id).history ++ pending.toList ∧
          ∀ p ∈ pending, ∃ call, (s.link id).waiting = some (p.1, call) := by
  have hs : Synced handler s :=
    h.invariant (Synced handler) (synced_initial config handler)
      fun _ _ _ ht hadm hstep => synced_step hhandler ht hadm hstep
  refine ⟨hs.device, fun id => ?_⟩
  obtain ⟨pending, hphase, hseen⟩ := hs.links id
  refine ⟨pending, hseen, ?_⟩
  rintro ⟨r, o⟩ hp
  cases hp
  exact hphase.pending

/-- A client switches the first coil on while another reads the first eight; the read is
served first. -/
def crossingCalls : List NetworkEvent :=
  (.server (.listen true) :: accepts 0 ++ accepts 1).map .service ++
    [.call 0 2 (.writeSingleCoil ⟨1, 0, true⟩), .call 1 1 (.readCoils ⟨1, 0, 8⟩),
      .service (.server (.session 0 (.readDone (.ok firstCoilOnRead)))),
      .service (.server (.session 1 (.readDone (.ok eightCoilsRead)))),
      .service (.handle 1), .service (.handle 0),
      .service (.server (.session 0 (.written none 12))),
      .service (.server (.session 1 (.written none 10))), .receive 0, .receive 1]

theorem observe_one_device_crossing :
    ∃ s, Run Network.step Network.Admissible (.initial .default .initial) s ∧
      (s.link 0).history.length = 1 ∧ (s.link 1).history.length = 1 ∧
      seenBy 1 (performed .initial s).1 = [(.readCoils ⟨1, 0, 8⟩,
        .reply (.bits [false, true, false, true, true, false, false, true]))] ∧
      (performed .initial s).2 = s.service.handler.device ∧
      ∀ id, ∃ pending : Option (Request × Observation),
        seenBy id (performed .initial s).1 = (s.link id).history ++ pending.toList ∧
          ∀ p ∈ pending, ∃ call, (s.link id).waiting = some (p.1, call) :=
  ⟨_, Run.of_exec crossingCalls rfl, rfl, rfl, rfl,
    observe_one_device .default .initial wellFormed_initial _ (Run.of_exec crossingCalls rfl)⟩

end Modbus.EndToEnd
