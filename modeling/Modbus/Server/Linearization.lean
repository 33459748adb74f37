import Modbus.Server.CallSafety

/-! # The service as one device

The sessions of a server use one memory, and yet each of their clients can think of it
as a device of its own kind: in every interleaving, the logged responses are those that
one device gives to the logged requests one after the other, and the memory shows the
device that they leave (`linearizable`). This is said of runs whose granted requests
are regular: no coil that is on is switched off, which the handler would acknowledge and
ignore, and no block of coils is one of those that `write_coils` gets wrong. A request
that does not reach the device is answered by the exception for what stopped it. -/
namespace Modbus.Server
open Bytes Checked TcpDataUnit Transition

/-! ## A session hands over whole buffers -/

/-- The buffer of a session and those of its requests have their full size. -/
structure Buffered (t : Task) : Prop where
  buf : t.state.buf.length = maxApuSize
  handed : ∀ request ∈ t.state.handed, request.buffer.length = maxApuSize

/-- Only a read changes the buffer or hands over a request. -/
theorem step_reads {stop : Bool} {t t' : Task} {e : TaskEvent} (h : t.step stop e = some t') :
    (∃ chunk, t' = t.received chunk) ∨
      t'.state.buf = t.state.buf ∧ t'.state.handed = t.state.handed := by
  unfold Task.step at h
  split at h
  · next endpoint hpc =>
    cases h
    exact .inr ⟨rfl, rfl⟩
  · cases h
    exact .inr ⟨rfl, rfl⟩
  · cases h
    exact .inr ⟨rfl, rfl⟩
  · cases h
    exact .inr ⟨rfl, rfl⟩
  · next chunk hpc =>
    cases h
    exact .inl ⟨chunk, rfl⟩
  · cases h
    exact .inr ⟨rfl, rfl⟩
  · cases h
    exact .inr ⟨rfl, rfl⟩
  · next response error n hpc =>
    dsimp only at h
    split at h <;> cases h <;> exact .inr ⟨rfl, rfl⟩
  · cases h
    exact .inr ⟨rfl, rfl⟩
  · cases h
    exact .inr ⟨rfl, rfl⟩
  · cases h

theorem Buffered.received {t : Task} (ht : Buffered t) (chunk : Chunk) :
    Buffered (t.received chunk) := by
  have hlen := length_receive ht.buf chunk.fits
  unfold Task.received
  dsimp only
  split
  · exact ⟨hlen, ht.handed⟩
  · cases hacc : ofBuffer (t.state.receive chunk.bytes).buf chunk.bytes.length .request with
    | error e => exact ⟨hlen, ht.handed⟩
    | ok request =>
      refine ⟨hlen, fun x hx => ?_⟩
      rcases List.mem_append.mp hx with hx | hx
      · exact ht.handed x hx
      · obtain ⟨_, _, _, hsame⟩ := ofBuffer_ok_iff.mp hacc
        rw [List.mem_singleton.mp hx, hsame]
        exact hlen

theorem Buffered.step {stop : Bool} {t t' : Task} {e : TaskEvent} (ht : Buffered t)
    (h : t.step stop e = some t') : Buffered t' := by
  rcases step_reads h with ⟨chunk, rfl⟩ | ⟨hbuf, hhanded⟩
  · exact ht.received chunk
  · exact ⟨hbuf ▸ ht.buf, hhanded ▸ ht.handed⟩

theorem buffered_initial (pc : TaskPc) : Buffered ⟨pc, .initial⟩ :=
  ⟨List.length_replicate .., fun _ h => absurd h List.not_mem_nil⟩

/-- So it is with all sessions of a server. -/
theorem buffered_server {s s' : TcpServer} {e : ServerEvent} (hs : ∀ id, Buffered (s.task id))
    (h : s.step e = some s') (id : SessionId) : Buffered (s'.task id) := by
  by_cases hsession : ∃ x event, e = .session x event
  · obtain ⟨x, event, rfl⟩ := hsession
    obtain ⟨htask, hothers⟩ := session_step h
    by_cases hne : id = x
    · subst hne
      exact (hs id).step htask
    · exact hothers id hne ▸ hs id
  · rcases task_of_moves (server_moves h) (fun x event heq => hsession ⟨x, event, heq⟩) id with
      hsame | ⟨_, hspawned⟩
    · exact hsame ▸ hs id
    · rw [hspawned]
      exact buffered_initial _

theorem buffered_of_run {config : ServerConfig} {handler : RequestHandler} {s : Service}
    {guard : Service → ServiceEvent → Prop}
    (h : Run Service.step guard (.initial config handler) s) (id : SessionId) :
    Buffered (s.server.task id) := by
  refine h.invariant (fun s => ∀ id, Buffered (s.server.task id))
    (fun _ => buffered_initial _) ?_ id
  intro t e u ht _ hstep
  cases service_moves hstep with
  | server other next => exact buffered_server ht next
  | answered pc call next => exact buffered_server ht next
  | threw pc call next => exact buffered_server ht next

/-! ## No request makes the handler throw -/

/-- A call without a response threw. -/
theorem Replays.threw_of_none {h h' : RequestHandler} {log : List Handled} (hlog : Replays h log h')
    {c : Handled} (hc : c ∈ log) (hnone : c.response = none) :
    ∃ h₁ e, RequestHandler.call h₁ c.request = .error (.threw e) := by
  induction hlog with
  | nil => exact absurd hc List.not_mem_nil
  | answered _ _ ih =>
    rcases List.mem_append.mp hc with hc | hc
    · exact ih hc
    · rw [List.mem_singleton.mp hc] at hnone
      cases hnone
  | threw _ call ih =>
    rcases List.mem_append.mp hc with hc | hc
    · exact ih hc
    · rw [List.mem_singleton.mp hc]
      exact ⟨_, _, call⟩

/-- A logged request was handed over by its session. -/
theorem Ledger.request_handed {handler : RequestHandler} {s : Service} (hs : Ledger handler s)
    {c : Handled} (hc : c ∈ s.log) : c.request ∈ (s.server.task c.id).state.handed := by
  rw [(hs.accounted c.id).handed]
  refine List.mem_append_left _ (List.mem_map_of_mem ?_)
  exact List.mem_filter.mpr ⟨hc, decide_eq_true rfl⟩

/-- So was the request that waits for the handler. -/
theorem Ledger.waiting_handed {handler : RequestHandler} {s : Service} (hs : Ledger handler s)
    {id : SessionId} {request : TcpDataUnit} (hpc : (s.server.task id).pc = .handling request) :
    request ∈ (s.server.task id).state.handed := by
  rw [(hs.accounted id).handed, hpc]
  exact List.mem_append_right _ (List.mem_singleton.mpr rfl)

/-- A session that waits for the handler can get its response. -/
theorem handle_enabled {s : Service} {id : SessionId} {request response : TcpDataUnit}
    {h' : RequestHandler} (hpc : (s.server.task id).pc = .handling request)
    (hcall : s.handler.call request = .ok (response, h')) :
    ∃ s', s.step (.handle id) = some s' ∧ (s'.server.task id).pc = .writing response := by
  have hstep : (s.server.task id).step (s.server.manager.session id).stop
      (.handled (some response)) = some { s.server.task id with pc := .writing response } := by
    unfold Task.step
    rw [hpc]
  refine ⟨_, by simp only [Service.step, hpc, hcall, TcpServer.step, hstep]; rfl, ?_⟩
  simp only [Function.update_self]

/-- In every run without undefined behaviour, in whatever order the sessions move: every
call has ended with a response, and the call for a session that waits ends with one
exactly when its indices are in range and the session has an owner, and is undefined
otherwise. -/
theorem handled_answered (config : ServerConfig) (handler : RequestHandler)
    (hhandler : handler.WellFormed) (s : Service)
    (h : Reachable Service.checkedStep (some (.initial config handler)) (some s)) :
    (∀ c ∈ s.log, c.response ≠ none) ∧
      ∀ id request, (s.server.task id).pc = .handling request →
        ((∃ response s', Service.checkedStep (some s) (.handle id) = some (some s') ∧
            (s'.server.task id).pc = .writing response) ↔
          InBounds s.handler request ∧ Owned s.server id) ∧
        (¬ (InBounds s.handler request ∧ Owned s.server id) →
          Service.checkedStep (some s) (.handle id) = some none) := by
  have hrun := h.defined
  have hledger := ledger_of_run hrun
  refine ⟨fun c hc hnone => ?_, fun id request hpc => ?_⟩
  · obtain ⟨h₁, e, hthrew⟩ := hledger.replays.threw_of_none hc hnone
    have hshort := call_throws_iff.mp ⟨e, hthrew⟩
    rw [(buffered_of_run hrun c.id).handed _ (hledger.request_handed hc)] at hshort
    exact absurd hshort (by decide)
  · have hlen : 8 ≤ request.buffer.length := by
      rw [(buffered_of_run hrun id).handed _ (hledger.waiting_handed hpc)]
      decide
    have hwf := hledger.replays.protects.wellFormed hhandler
    have hundefined : s.Undefined (.handle id) ↔
        ¬ (InBounds s.handler request ∧ Owned s.server id) := by
      simp only [Service.Undefined, hpc, TaskPc.request, Option.isSome_some, true_and,
        Option.any_some, faults_iff hwf hlen]
      rw [not_and_or, or_comm]
    have hnone : ¬ (InBounds s.handler request ∧ Owned s.server id) →
        Service.checkedStep (some s) (.handle id) = some none :=
      fun hout => orUndefined_none (hundefined.mpr hout)
    refine ⟨⟨?_, fun hin => ?_⟩, hnone⟩
    · rintro ⟨response, s', hstep, _⟩
      by_contra hout
      rw [hnone hout] at hstep
      cases hstep
    · obtain ⟨code, t, unitId, hcode, ht, hunit⟩ := codes_return_iff.mpr hlen
      obtain ⟨response, h', hanswers⟩ := (answers_iff hwf hcode).mpr hin.1
      obtain ⟨s', hstep, hwriting⟩ := handle_enabled hpc
        (call_ok_iff.mpr ⟨code, t, unitId, hcode, ht, hunit, hanswers⟩)
      exact ⟨response, s', orUndefined_some (fun hout => hundefined.mp hout hin) hstep, hwriting⟩

theorem handled_answered_crossing :
    ∃ s, Reachable Service.checkedStep (some (.initial .default .initial)) (some s) ∧
      s.log.length = 1 ∧ (s.server.task 0).pc.request.isSome = true ∧
      (∀ c ∈ s.log, c.response ≠ none) ∧
      ∀ id request, (s.server.task id).pc = .handling request →
        ((∃ response s', Service.checkedStep (some s) (.handle id) = some (some s') ∧
            (s'.server.task id).pc = .writing response) ↔
          InBounds s.handler request ∧ Owned s.server id) ∧
        (¬ (InBounds s.handler request ∧ Owned s.server id) →
          Service.checkedStep (some s) (.handle id) = some none) :=
  ⟨_, Run.of_exec (crossing.take 20) rfl, rfl, rfl,
    handled_answered .default .initial wellFormed_initial _ (Run.of_exec (crossing.take 20) rfl)⟩

/-! ## One device for all sessions -/

/-- The request of a unit, when the handler has a branch for it. -/
def Request.ofUnit (du : TcpDataUnit) : Option Request :=
  match du.functionCode with
  | .error _ => none
  | .ok code =>
    (requestKind code).bind fun T =>
      match du.pdu T with
      | .ok (some m) => Request.ofMessage m
      | _ => none

theorem Request.ofUnit_eq {request : TcpDataUnit} {code : FunctionCode} {r : Request}
    (hcode : request.functionCode = .ok code) (hkind : requestKind code = some r.kind)
    (hdecoded : request.pdu r.kind = .ok (some r.message)) : Request.ofUnit request = some r := by
  simp only [ofUnit, hcode, hkind, Option.bind_some, hdecoded, ofMessage_message]

section Specification
variable (validAddresses : DataRow → Buffer)

/-- What stops a request, and the exception for it: there is no branch for its code, it is
no message of that code, or the access check refuses its addresses. -/
inductive Refused (request : TcpDataUnit) (code : FunctionCode) : ExceptionCode → Prop
  | illegalFunction (branch : requestKind code = none) : Refused request code .illegalFunction
  | serverDeviceFailure {T : MessageKind} (branch : requestKind code = some T)
      (decoded : request.pdu T = .ok none) : Refused request code .serverDeviceFailure
  | illegalDataAddress {r : Request} (decoded : Request.ofUnit request = some r)
      (denied : ¬ Accepted (validAddresses r.dataRow) r.startAddress r.length) :
      Refused request code .illegalDataAddress

/-- The calls are those of one device: what was refused did not reach it and got the
exception for the reason, and what was granted shows its reply and applies to it. -/
inductive Performs (d : Device) : List Handled → Device → Prop
  | nil : Performs d [] d
  | refused {log : List Handled} {d₁ : Device} {id : SessionId} {request : TcpDataUnit}
      {code : FunctionCode} {t : Word} {unitId : Byte} {e : ExceptionCode}
      (before : Performs d log d₁) (function : request.functionCode = .ok code)
      (own : request.transactionId = .ok t) (unit : request.unitId = .ok unitId)
      (why : Refused validAddresses request code e) :
      Performs d (log ++ [⟨id, request, some (exceptionUnit t unitId code e)⟩]) d₁
  | served {log : List Handled} {d₁ : Device} {id : SessionId} {request : TcpDataUnit} {r : Request}
      {t : Word} {m : Message} (before : Performs d log d₁) (decoded : Request.ofUnit request = some r)
      (granted : Accepted (validAddresses r.dataRow) r.startAddress r.length)
      (own : request.transactionId = .ok t) (shown : r.shown m = some (d₁.reply r)) :
      Performs d (log ++ [⟨id, request, some ⟨frame t m, m.type⟩⟩]) (d₁.apply r)

end Specification

instance (mask : Buffer) (start n : Nat) : Decidable (Accepted mask start n) :=
  decidable_of_iff
    ((createRequestBitMap start n >>= fun bm => legalAddress mask bm start) = .ok true) bind_ok

instance (d : Device) : DecidablePred (Request.Regular d)
  | .writeSingleCoil r =>
    @instDecidableOr _ _ (instDecidableEqBool r.value true)
      (instDecidableEqBool (d.coils r.startAddress.toNat) false)
  | .writeMultipleCoils r =>
    inferInstanceAs (Decidable (Straight r.startAddress.toNat r.length.toNat))
  | .readDiscreteInputs _ | .readCoils _ | .readHoldingRegisters _ | .readInputRegisters _
  | .writeSingleRegister _ | .writeMultipleRegisters _ => .isTrue trivial

/-- A call of the handler, if it is granted, is one that the helpers serve as asked. -/
def Service.Admissible (s : Service) : ServiceEvent → Prop
  | .server _ => True
  | .handle id =>
    ∀ r ∈ (s.server.task id).pc.request.bind Request.ofUnit,
      Accepted (s.handler.validAddresses r.dataRow) r.startAddress r.length →
        r.Regular s.handler.device

instance (s : Service) : DecidablePred s.Admissible := fun e => by
  cases e <;> unfold Service.Admissible <;> infer_instance

/-- A call that ends performs on the device. -/
theorem Performs.call {d : Device} {log : List Handled} {h h' : RequestHandler} {id : SessionId}
    {request response : TcpDataUnit} (hperforms : Performs h.validAddresses d log h.device)
    (hh : h.WellFormed)
    (hregular : ∀ r ∈ Request.ofUnit request,
      Accepted (h.validAddresses r.dataRow) r.startAddress r.length → r.Regular h.device)
    (hcall : h.call request = .ok (response, h')) :
    Performs h.validAddresses d (log ++ [⟨id, request, some response⟩]) h'.device := by
  obtain ⟨code, t, unitId, hcode, ht, hunit, hanswers⟩ := call_ok_iff.mp hcall
  cases hanswers with
  | illegalFunction branch =>
    exact hperforms.refused hcode ht hunit (.illegalFunction branch)
  | deviceFailure branch decoded =>
    exact hperforms.refused hcode ht hunit (.serverDeviceFailure branch decoded)
  | illegalDataAddress branch decoded bitmap refused =>
    exact hperforms.refused hcode ht hunit (.illegalDataAddress
      (Request.ofUnit_eq hcode branch decoded) (not_accepted bitmap refused))
  | @served r bm data m branch decoded bitmap granted serves =>
    have hunit := Request.ofUnit_eq hcode branch decoded
    have haccepted : Accepted (h.validAddresses r.dataRow) r.startAddress r.length :=
      ⟨bm, bitmap, granted⟩
    obtain ⟨hshown, hdevice⟩ := Request.serve_refines hh bitmap granted
      (hregular r hunit haccepted) serves
    rw [hdevice]
    exact hperforms.served hunit haccepted ht hshown

/-- The device of a service is what the calls made of it. -/
structure Linearized (handler : RequestHandler) (s : Service) : Prop where
  ledger : Ledger handler s
  buffered : ∀ id, Buffered (s.server.task id)
  performs : Performs handler.validAddresses handler.device s.log s.handler.device

theorem linearized_step {handler : RequestHandler} {s s' : Service} {e : ServiceEvent}
    (hhandler : handler.WellFormed) (hs : Linearized handler s) (hregular : s.Admissible e)
    (h : ServiceMoves s e s') : Linearized handler s' := by
  have hledger := ledger_step hs.ledger h
  have hwf := hs.ledger.replays.protects.wellFormed hhandler
  cases h with
  | server other next => exact ⟨hledger, buffered_server hs.buffered next, hs.performs⟩
  | @answered id request response h' server pc call next =>
    have hperforms := hs.performs
    rw [← hs.ledger.replays.protects.validAddresses] at hperforms
    have hcalled : Performs s.handler.validAddresses handler.device
        (s.log ++ [⟨id, request, some response⟩]) h'.device :=
      hperforms.call hwf (fun r hr => hregular r (by rw [pc]; exact hr)) call
    rw [hs.ledger.replays.protects.validAddresses] at hcalled
    exact ⟨hledger, buffered_server hs.buffered next, hcalled⟩
  | @threw id request e server pc call next =>
    -- the unit is too long for that
    have hshort := call_throws_iff.mp ⟨e, call⟩
    rw [(hs.buffered id).handed _ (hs.ledger.waiting_handed pc)] at hshort
    exact absurd hshort (by decide)

/-- In whatever order the sessions of a server move, as long as what is granted is regular:
the responses are those of one device to the requests in the order of the log, a refused
request gets the exception for the reason and leaves it alone, and the memory shows what
it has become; each session sent prefixes of the responses to its own requests, in their
order. -/
theorem linearizable (config : ServerConfig) (handler : RequestHandler)
    (hhandler : handler.WellFormed) (s : Service)
    (h : Run Service.step Service.Admissible (.initial config handler) s) :
    Performs handler.validAddresses handler.device s.log s.handler.device ∧
      ∀ id, Accounted (s.calls id) (s.server.task id) := by
  have hs : Linearized handler s :=
    h.invariant (Linearized handler)
      ⟨ledger_initial config handler, fun _ => buffered_initial _, .nil⟩
      fun _ _ _ ht hregular hstep => linearized_step hhandler ht hregular (service_moves hstep)
  exact ⟨hs.performs, hs.ledger.accounted⟩

theorem linearizable_crossing :
    ∃ s, Run Service.step Service.Admissible (.initial .default .initial) s ∧ s.log.length = 2 ∧
      Performs RequestHandler.initial.validAddresses RequestHandler.initial.device s.log
        s.handler.device ∧
      ∀ id, Accounted (s.calls id) (s.server.task id) :=
  ⟨_, Run.of_exec crossing rfl, rfl,
    linearizable .default .initial wellFormed_initial _ (Run.of_exec crossing rfl)⟩

end Modbus.Server
