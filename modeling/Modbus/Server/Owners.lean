import Modbus.Server.TcpServer

/-! # Who owns a session

The coroutine of a session captures the raw `this` and owns nothing. What keeps the
session alive is a `shared_ptr` elsewhere: the local variable of the accept loop,
the parameter of a pending admission, the entry in `sessions_`, or the temporary
the session passes to `session_manager_.stop`. A running session is in `sessions_`
or is just giving its slot back, unless `stop_all` clears the set under it or it
has a write error to report. A session without an owner is destroyed, and its
coroutine then goes on in freed memory: `TcpServer.checkedStep` has no state to
give for that. -/
namespace Modbus.Server
open Bytes TcpDataUnit Transition

/-- Inside `session_manager_.stop(shared_from_this())`. -/
def TaskPc.ownsItself : TaskPc → Bool
  | .releasing _ => true
  | _ => false

/-- Some `shared_ptr` to the session exists. -/
def Owned (s : TcpServer) (id : SessionId) : Prop :=
  s.acceptPc = .holding id ∨ s.acceptPc = .spawned id ∨ id ∈ s.pending ∨
    id ∈ s.manager.sessions ∨ (s.task id).pc.ownsItself = true

instance (s : TcpServer) (id : SessionId) : Decidable (Owned s id) :=
  inferInstanceAs (Decidable (_ ∨ _ ∨ _ ∨ _ ∨ _))

/-- The last reference is gone. -/
theorem not_owned {s : TcpServer} {id : SessionId} (hholding : s.acceptPc ≠ .holding id)
    (hspawned : s.acceptPc ≠ .spawned id) (hpending : id ∉ s.pending)
    (hsessions : id ∉ s.manager.sessions) (hitself : (s.task id).pc.ownsItself = false) :
    ¬ Owned s id := by
  rintro (h | h | h | h | h)
  · exact hholding h
  · exact hspawned h
  · exact hpending h
  · exact hsessions h
  · rw [hitself] at h
    cases h

/-- A coroutine goes on whose session was destroyed. -/
def UsesDestroyed (s : TcpServer) : ServerEvent → Prop
  | .session id event =>
    ¬ Owned s id ∧ ((s.task id).step (s.manager.session id).stop event).isSome = true
  | _ => False

instance (s : TcpServer) : (e : ServerEvent) → Decidable (UsesDestroyed s e)
  | .session _ _ => inferInstanceAs (Decidable (_ ∧ _))
  | .listen _ | .acceptTest | .connection | .acceptError | .resume _ | .spawn | .drop
  | .admission _ | .setStop | .closeAcceptor | .stopAll => isFalse id

/-- The server, as long as no destroyed session is used. -/
def TcpServer.checkedStep : Option TcpServer → ServerEvent → Option (Option TcpServer) :=
  orUndefined UsesDestroyed TcpServer.step

/-- The steps that take no owner from a running session: `stop_all` finds no managed
session running, unless it is giving its slot back, and no write fails. -/
def KeepsOwners (s : TcpServer) : ServerEvent → Prop
  | .stopAll =>
    ∀ id ∈ s.manager.sessions, ¬ (s.task id).pc.Running ∨ (s.task id).pc = .releasing false
  | .session _ (.written (some e) _) => e = .operationAborted
  | _ => True

instance (s : TcpServer) : (e : ServerEvent) → Decidable (KeepsOwners s e)
  | .stopAll => inferInstanceAs (Decidable (∀ id ∈ s.manager.sessions, _ ∨ _))
  | .session _ (.written (some e) _) => inferInstanceAs (Decidable (e = .operationAborted))
  | .session _ (.written none _) | .session _ (.enter _) | .session _ .test
  | .session _ (.readDone _) | .session _ (.handled _) | .session _ .release
  | .session _ .report => isTrue trivial
  | .listen _ | .acceptTest | .connection | .acceptError | .resume _ | .spawn | .drop
  | .admission _ | .setStop | .closeAcceptor => isTrue trivial

/-- A running coroutine has a slot or is giving it back, and has nothing to report. -/
structure Kept (pc : TaskPc) (managed : Bool) : Prop where
  slot : pc.Running → managed = true ∨ pc = .releasing false
  quiet : pc ≠ .releasing true ∧ pc ≠ .reporting

theorem Kept.managed {pc : TaskPc} {managed : Bool} (h : Kept pc managed) (hrun : pc.Running)
    (hpc : pc ≠ .releasing false) : managed = true :=
  (h.slot hrun).resolve_right hpc

/-- Where a coroutine that has a slot may stand. -/
theorem kept_of_managed {pc : TaskPc} (h : pc ≠ .releasing true ∧ pc ≠ .reporting) :
    Kept pc true :=
  ⟨fun _ => .inl rfl, h⟩

theorem kept_finished (exit : Exit) (managed : Bool) : Kept (.finished exit) managed :=
  ⟨False.elim, nofun, nofun⟩

theorem kept_move {s : TcpServer} {id : SessionId} {event : TaskEvent} {pc : TaskPc}
    (hs : Kept (s.task id).pc (s.managed id)) (hguard : KeepsOwners s (.session id event))
    (h : TaskMoves (s.manager.session id).stop (s.task id).pc event pc) :
    Kept pc (slotAfter (s.managed id) event) := by
  generalize (s.task id).pc = before at hs h
  generalize s.managed id = managed at hs ⊢
  cases h with
  | noEndpoint | stopped | aborted | malformed | handlerThrew | released | reported =>
    exact kept_finished _ _
  | entered | waits | short | requested | responded | wrote =>
    obtain rfl : managed = true := hs.managed trivial nofun
    exact kept_of_managed ⟨nofun, nofun⟩
  | readFailed => exact ⟨fun _ => .inr rfl, nofun, nofun⟩
  | writeFailed _ hne => exact absurd hguard hne
  | releasedReport => exact absurd rfl hs.quiet.1

theorem kept_of_run {config : ServerConfig} {s : TcpServer}
    (h : Run TcpServer.step KeepsOwners (.initial config) s) (id : SessionId) :
    Kept (s.task id).pc (s.managed id) := by
  refine h.invariant (fun s => ∀ id, Kept (s.task id).pc (s.managed id)) ?_ ?_ id
  · intro id
    exact ⟨False.elim, nofun, nofun⟩
  · intro t e u ht hguard hstep
    refine slots_step ht (server_moves hstep) (kept_of_managed ⟨nofun, nofun⟩) ?_ ?_
    · rintro id event pc rfl moves
      exact kept_move (ht id) hguard moves
    · rintro rfl id
      refine ⟨fun hrun => .inr ?_, (ht id).quiet⟩
      rcases (ht id).slot hrun with hin | hpc
      · exact (hguard id (of_decide_eq_true hin)).resolve_left fun hnot => hnot hrun
      · exact hpc

/-- While no step takes the owner of a running session, every running session has
one. -/
theorem running_session_owned (config : ServerConfig) (s : TcpServer)
    (h : Run TcpServer.step KeepsOwners (.initial config) s) (id : SessionId)
    (hrun : (s.task id).pc.Running) : Owned s id := by
  rcases (kept_of_run h id).slot hrun with hin | hpc
  · exact .inr (.inr (.inr (.inl (of_decide_eq_true hin))))
  · rw [Owned, hpc]
    exact .inr (.inr (.inr (.inr rfl)))

/-- A connection is accepted and admitted, and its session waits for a request. -/
def firstSession : List ServerEvent :=
  [.listen true, .acceptTest, .connection, .resume true, .spawn, .drop, .admission 0,
    .session 0 (.enter true), .session 0 .test]

theorem running_session_owned_first :
    ∃ s, Run TcpServer.step KeepsOwners (.initial .default) s ∧ (s.task 0).pc.Running ∧
      Owned s 0 := by
  refine ⟨_, Run.of_exec firstSession rfl, trivial, ?_⟩
  exact running_session_owned .default _ (Run.of_exec firstSession rfl) 0 trivial

/-- The server is stopped while the session waits. -/
def stoppedWhileReading : List ServerEvent :=
  firstSession ++ [.setStop, .closeAcceptor, .stopAll]

theorem eightCoils_nonempty : frame 1 eightCoils ≠ [] := by decide

theorem eightCoils_fits : (frame 1 eightCoils).length ≤ maxApuSize := by decide

/-- The request for eight coils, in one read. -/
def eightCoilsRead : Chunk := ⟨frame 1 eightCoils, eightCoils_nonempty, eightCoils_fits⟩

/-- The session answers a request and the write fails. -/
def failedWrite : List ServerEvent :=
  firstSession ++ [.session 0 (.readDone (.ok eightCoilsRead)),
    .session 0 (.handled (some .empty)), .session 0 (.written (some (.other 32)) 0),
    .session 0 .release]

/-- `stop_all` drops the last owner of a session that then resumes with
`operation_aborted`, and a session that lost its slot to a failed write still has the
error to log. -/
theorem running_session_unowned :
    (∃ s, Reachable TcpServer.step (.initial .default) s ∧ (s.task 0).pc = .reading ∧
        (s.task 0).pc.Running ∧ ¬ Owned s 0) ∧
      ∃ s, Reachable TcpServer.step (.initial .default) s ∧ (s.task 0).pc = .reporting ∧
        (s.task 0).pc.Running ∧ ¬ Owned s 0 := by
  refine ⟨?_, ?_⟩
  · exact ⟨_, Run.of_exec stoppedWhileReading rfl, rfl, trivial, by decide⟩
  · exact ⟨_, Run.of_exec failedWrite rfl, rfl, trivial, by decide⟩

end Modbus.Server
