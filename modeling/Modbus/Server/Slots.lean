import Modbus.Server.Owners

/-! # The slot of a session that has ended

A session that leaves its loop after a failed read or write gives its slot back, and
one that finds `stop_` set or its read aborted by `stop` has lost it already. An
exception gives nothing back: `co_spawn(..., detached)` drops it, and the entry in
`sessions_` stays. -/
namespace Modbus.Server
open Bytes TcpDataUnit Transition

/-- The steps on which a session does not end behind the manager's back: the socket
knows its endpoint, a read is aborted only in a session that was stopped, a request
holds the message its length field announces, and the handler does not throw. -/
def FreesSlot (s : TcpServer) : ServerEvent → Prop
  | .session _ (.enter endpoint) => endpoint = true
  | .session id (.readDone (.error .operationAborted)) => (s.manager.session id).stop = true
  | .session _ (.readDone (.ok chunk)) =>
    chunk.bytes.length < tcpHeaderSize + minPduSize ∨
      tcpHeaderSize + lengthField chunk.bytes ≤ chunk.bytes.length
  | .session _ (.handled response) => response ≠ none
  | _ => True

instance (s : TcpServer) : (e : ServerEvent) → Decidable (FreesSlot s e)
  | .session _ (.enter endpoint) => inferInstanceAs (Decidable (endpoint = true))
  | .session id (.readDone (.error .operationAborted)) =>
    inferInstanceAs (Decidable ((s.manager.session id).stop = true))
  | .session _ (.readDone (.ok _)) => inferInstanceAs (Decidable (_ ∨ _))
  | .session _ (.handled response) => inferInstanceAs (Decidable (response ≠ none))
  | .session _ (.readDone (.error .eof)) | .session _ (.readDone (.error (.other _)))
  | .session _ (.written _ _) | .session _ .test | .session _ .release
  | .session _ .report => isTrue trivial
  | .listen _ | .acceptTest | .connection | .acceptError | .resume _ | .spawn | .drop
  | .admission _ | .setStop | .closeAcceptor | .stopAll => isTrue trivial

/-- The coroutine has left its loop, but for a report. -/
def TaskPc.Left : TaskPc → Prop
  | .reporting | .finished _ => True
  | _ => False

/-- A coroutine that has left its loop has no slot. -/
def Freed (pc : TaskPc) (managed : Bool) : Prop := pc.Left → managed = false

theorem freed_move {s : TcpServer} {id : SessionId} {event : TaskEvent} {pc : TaskPc}
    (hs : Freed (s.task id).pc (s.managed id)) (hguard : FreesSlot s (.session id event))
    (hstop : (s.manager.session id).stop = true → s.managed id = false)
    (h : TaskMoves (s.manager.session id).stop (s.task id).pc event pc) :
    Freed pc (slotAfter (s.managed id) event) := by
  generalize (s.task id).pc = before at hs h
  cases h with
  | entered | waits | short | requested | responded | wrote | readFailed | writeFailed =>
    exact False.elim
  | released | releasedReport => exact fun _ => rfl
  | stopped hflag => exact fun _ => hstop hflag
  | aborted => exact fun _ => hstop hguard
  | reported => exact fun _ => hs trivial
  | noEndpoint => exact absurd hguard nofun
  | malformed hlong hfield =>
    rcases hguard with hshort | hfits
    · exact absurd hlong (Nat.not_le.mpr hshort)
    · exact absurd hfits (Nat.not_le.mpr hfield)
  | handlerThrew => exact absurd rfl hguard

theorem freed_of_run {config : ServerConfig} {s : TcpServer}
    (h : Run TcpServer.step FreesSlot (.initial config) s) (id : SessionId) :
    Freed (s.task id).pc (s.managed id) := by
  -- the manager's own invariant is needed along the way, so the induction is on the run
  induction h generalizing id with
  | refl => exact False.elim
  | @tail t u e before hguard hstep ih =>
    refine slots_step ih (server_moves hstep) False.elim ?_ ?_ id
    · rintro id event pc rfl moves
      exact freed_move (ih id) hguard
        (fun hflag => decide_eq_false (notMem_of_stop before hflag)) moves
    · intro _ id _
      rfl

/-- In such a run the coroutine of a session ends only after its slot was freed. -/
theorem slot_freed (config : ServerConfig) (s : TcpServer)
    (h : Run TcpServer.step FreesSlot (.initial config) s) (id : SessionId) (exit : Exit)
    (hpc : (s.task id).pc = .finished exit) : id ∉ s.manager.sessions := by
  have hfreed := freed_of_run h id
  rw [hpc] at hfreed
  exact of_decide_eq_false (hfreed trivial)

/-- The client disconnects. -/
def disconnected : List ServerEvent :=
  firstSession ++ [.session 0 (.readDone (.error .eof)), .session 0 .release]

theorem slot_freed_disconnected :
    ∃ s, Run TcpServer.step FreesSlot (.initial .default) s ∧
      (s.task 0).pc = .finished .broke ∧ 0 ∉ s.manager.sessions := by
  refine ⟨_, Run.of_exec disconnected rfl, rfl, ?_⟩
  exact slot_freed .default _ (Run.of_exec disconnected rfl) 0 .broke rfl

/-- A request of twelve bytes whose length field says 65535. -/
def oversizedRequest : List ServerEvent :=
  firstSession ++ [.session 0 (.readDone
    (.ok ⟨[0, 1, 0, 0, 0xFF, 0xFF, 1, 1, 0, 0, 0, 8], by decide, by decide⟩))]

/-- A handler that throws. -/
def throwingHandler : List ServerEvent :=
  firstSession ++ [.session 0 (.readDone (.ok eightCoilsRead)), .session 0 (.handled none)]

/-- Both end the coroutine, and the session keeps its slot. -/
theorem slot_leaked :
    (∃ s, exec TcpServer.step (fun _ _ => True) (.initial .default) oversizedRequest = some s ∧
        Reachable TcpServer.step (.initial .default) s ∧ (s.task 0).pc = .finished .threw ∧
        0 ∈ s.manager.sessions) ∧
      ∃ s, exec TcpServer.step (fun _ _ => True) (.initial .default) throwingHandler = some s ∧
        Reachable TcpServer.step (.initial .default) s ∧ (s.task 0).pc = .finished .threw ∧
        0 ∈ s.manager.sessions := by
  refine ⟨?_, ?_⟩
  · exact ⟨_, rfl, Run.of_exec oversizedRequest rfl, rfl, by decide⟩
  · exact ⟨_, rfl, Run.of_exec throwingHandler rfl, rfl, by decide⟩

end Modbus.Server
