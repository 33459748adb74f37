import Modbus.Server.Task
import Modbus.Server.Admission

/-! # The server and its coroutines (`modbus/server/tcp_server.cpp`)

Four kinds of coroutine share the manager: the accept loop, one
`tcp_session_manager::start` for every accepted connection, one session loop for
every admitted session, and the caller of `tcp_server::stop`. The executor may run
them in any order, so the server is a step function whose events say which of them
moves. A connection counts as accepted once `async_accept` has completed with it,
even before the accept loop resumes; closing the acceptor does not take it back.
Resolving the endpoint and logging are left out. -/
namespace Modbus.Server
open Bytes TcpDataUnit Transition

/-- What the accept loop does next. -/
inductive AcceptPc where
  /-- It opens the acceptor and listens. -/
  | starting
  /-- It tests `stop_`. -/
  | testing
  /-- It waits for `async_accept`. -/
  | accepting
  /-- `async_accept` has completed with a connection. -/
  | ready
  /-- Its local variable owns the new session, which it spawns the admission of. -/
  | holding (id : SessionId)
  /-- The local variable goes out of scope. -/
  | spawned (id : SessionId)
  | done
deriving DecidableEq, Repr

/-- How far the call of `tcp_server::stop` has come. -/
inductive StopPc where
  | notCalled
  | flagged
  | closed
  | returned
deriving DecidableEq, Repr

structure TcpServer where
  /-- `stop_` of the server. -/
  stop : Bool
  acceptorOpen : Bool
  acceptPc : AcceptPc
  stopPc : StopPc
  /-- The spawned `tcp_session_manager::start` coroutines, by their parameter. -/
  pending : Finset SessionId
  manager : ManagerState
  task : SessionId → Task
  /-- The number of the next session. -/
  next : SessionId

inductive ServerEvent where
  /-- Listening fails with an exception that is logged and dropped, or succeeds. -/
  | listen (ok : Bool)
  | acceptTest
  | connection
  /-- `async_accept` fails, with `operation_aborted` or otherwise. -/
  | acceptError
  /-- The loop asks the new socket for its endpoint, which may throw. -/
  | resume (endpoint : Bool)
  | spawn
  | drop
  /-- The admission of a session runs, under `mtx_`. -/
  | admission (id : SessionId)
  | session (id : SessionId) (event : TaskEvent)
  | setStop
  | closeAcceptor
  | stopAll

namespace TcpServer

def initial (config : ServerConfig) : TcpServer where
  stop := false
  acceptorOpen := false
  acceptPc := .starting
  stopPc := .notCalled
  pending := ∅
  manager := config.sessionManager
  task := fun _ => .unborn
  next := 0

/-- `tcp_session_manager::start` and the coroutine it spawns. -/
def admitSession (s : TcpServer) (id : SessionId) : TcpServer :=
  match s.manager.start id with
  | (.success, manager) =>
    { s with
      pending := s.pending.erase id
      manager
      task := Function.update s.task id .spawned }
  | (.exceededMaxSessions, manager) => { s with pending := s.pending.erase id, manager }

/-- What a session does to the manager when it moves. -/
def managerAfter (s : TcpServer) (id : SessionId) : TaskEvent → ManagerState
  | .release => s.manager.stop id
  | _ => s.manager

def step (s : TcpServer) : ServerEvent → Option TcpServer
  | .listen ok =>
    if s.acceptPc = .starting then some { s with acceptorOpen := ok, acceptPc := .testing }
    else none
  | .acceptTest =>
    if s.acceptPc = .testing then
      some { s with acceptPc := if s.stop then .done else .accepting }
    else none
  | .connection =>
    if s.acceptPc = .accepting ∧ s.acceptorOpen = true then some { s with acceptPc := .ready }
    else none
  | .acceptError =>
    if s.acceptPc = .accepting then some { s with acceptPc := .done } else none
  | .resume endpoint =>
    if s.acceptPc = .ready then
      if endpoint then some { s with acceptPc := .holding s.next, next := s.next + 1 }
      else some { s with acceptPc := .done }
    else none
  | .spawn =>
    match s.acceptPc with
    | .holding id => some { s with acceptPc := .spawned id, pending := insert id s.pending }
    | _ => none
  | .drop =>
    match s.acceptPc with
    | .spawned _ => some { s with acceptPc := .testing }
    | _ => none
  | .admission id => if id ∈ s.pending then some (s.admitSession id) else none
  | .session id event =>
    ((s.task id).step (s.manager.session id).stop event).map fun t =>
      { s with task := Function.update s.task id t, manager := s.managerAfter id event }
  | .setStop =>
    if s.stopPc = .notCalled then some { s with stop := true, stopPc := .flagged } else none
  | .closeAcceptor =>
    if s.stopPc = .flagged then some { s with acceptorOpen := false, stopPc := .closed } else none
  | .stopAll =>
    if s.stopPc = .closed then some { s with manager := s.manager.stopAll, stopPc := .returned }
    else none

end TcpServer

/-! ## What a step can do -/

/-- The steps of the server, with what each changes. -/
inductive ServerMoves (s : TcpServer) : ServerEvent → TcpServer → Prop
  | listen {ok : Bool} (pc : s.acceptPc = .starting) :
      ServerMoves s (.listen ok) { s with acceptorOpen := ok, acceptPc := .testing }
  | leave (pc : s.acceptPc = .testing) (stop : s.stop = true) :
      ServerMoves s .acceptTest { s with acceptPc := .done }
  | await (pc : s.acceptPc = .testing) (stop : s.stop = false) :
      ServerMoves s .acceptTest { s with acceptPc := .accepting }
  | connection (pc : s.acceptPc = .accepting) (opened : s.acceptorOpen = true) :
      ServerMoves s .connection { s with acceptPc := .ready }
  | acceptError (pc : s.acceptPc = .accepting) :
      ServerMoves s .acceptError { s with acceptPc := .done }
  | resume (pc : s.acceptPc = .ready) :
      ServerMoves s (.resume true) { s with acceptPc := .holding s.next, next := s.next + 1 }
  | acceptThrew (pc : s.acceptPc = .ready) :
      ServerMoves s (.resume false) { s with acceptPc := .done }
  | spawn {id : SessionId} (pc : s.acceptPc = .holding id) :
      ServerMoves s .spawn { s with acceptPc := .spawned id, pending := insert id s.pending }
  | drop {id : SessionId} (pc : s.acceptPc = .spawned id) :
      ServerMoves s .drop { s with acceptPc := .testing }
  | admitted {id : SessionId} (pending : id ∈ s.pending)
      (room : s.manager.sessions.card ≤ toSizeT s.manager.maxSessions) :
      ServerMoves s (.admission id)
        { s with
          pending := s.pending.erase id
          manager := { s.manager with sessions := insert id s.manager.sessions }
          task := Function.update s.task id .spawned }
  | refused {id : SessionId} (pending : id ∈ s.pending)
      (full : toSizeT s.manager.maxSessions < s.manager.sessions.card) :
      ServerMoves s (.admission id)
        { s with pending := s.pending.erase id, manager := s.manager.haltSession id }
  | session {id : SessionId} {event : TaskEvent} {t : Task}
      (moves : TaskMoves (s.manager.session id).stop (s.task id).pc event t.pc) :
      ServerMoves s (.session id event)
        { s with task := Function.update s.task id t, manager := s.managerAfter id event }
  | setStop (pc : s.stopPc = .notCalled) :
      ServerMoves s .setStop { s with stop := true, stopPc := .flagged }
  | closeAcceptor (pc : s.stopPc = .flagged) :
      ServerMoves s .closeAcceptor { s with acceptorOpen := false, stopPc := .closed }
  | stopAll (pc : s.stopPc = .closed) :
      ServerMoves s .stopAll { s with manager := s.manager.stopAll, stopPc := .returned }

theorem admit_moves {s : TcpServer} {id : SessionId} (h : id ∈ s.pending) :
    ServerMoves s (.admission id) (s.admitSession id) := by
  unfold TcpServer.admitSession
  rcases start_cases s.manager id with ⟨hfull, hstart⟩ | ⟨hroom, hstart⟩
  · rw [hstart]
    exact .refused h hfull
  · rw [hstart]
    exact .admitted h hroom

theorem server_moves {s s' : TcpServer} {e : ServerEvent} (h : s.step e = some s') :
    ServerMoves s e s' := by
  cases e with
  | listen ok =>
    obtain ⟨hpc, hs⟩ := Option.ite_none_right_eq_some.mp h
    cases hs
    exact .listen hpc
  | acceptTest =>
    obtain ⟨hpc, hs⟩ := Option.ite_none_right_eq_some.mp h
    cases hs
    by_cases hstop : s.stop = true
    · rw [if_pos hstop]
      exact .leave hpc hstop
    · rw [if_neg hstop]
      exact .await hpc (Bool.eq_false_of_not_eq_true hstop)
  | connection =>
    obtain ⟨⟨hpc, hopen⟩, hs⟩ := Option.ite_none_right_eq_some.mp h
    cases hs
    exact .connection hpc hopen
  | acceptError =>
    obtain ⟨hpc, hs⟩ := Option.ite_none_right_eq_some.mp h
    cases hs
    exact .acceptError hpc
  | resume endpoint =>
    obtain ⟨hpc, hs⟩ := Option.ite_none_right_eq_some.mp h
    cases endpoint with
    | true =>
      cases hs
      exact .resume hpc
    | false =>
      cases hs
      exact .acceptThrew hpc
  | spawn =>
    simp only [TcpServer.step] at h
    split at h
    · next hpc =>
      cases h
      exact .spawn hpc
    · cases h
  | drop =>
    simp only [TcpServer.step] at h
    split at h
    · next hpc =>
      cases h
      exact .drop hpc
    · cases h
  | admission id =>
    obtain ⟨hmem, hs⟩ := Option.ite_none_right_eq_some.mp h
    cases hs
    exact admit_moves hmem
  | session id event =>
    obtain ⟨t, ht, hs⟩ := Option.map_eq_some_iff.mp h
    cases hs
    exact .session (step_moves ht)
  | setStop =>
    obtain ⟨hpc, hs⟩ := Option.ite_none_right_eq_some.mp h
    cases hs
    exact .setStop hpc
  | closeAcceptor =>
    obtain ⟨hpc, hs⟩ := Option.ite_none_right_eq_some.mp h
    cases hs
    exact .closeAcceptor hpc
  | stopAll =>
    obtain ⟨hpc, hs⟩ := Option.ite_none_right_eq_some.mp h
    cases hs
    exact .stopAll hpc

/-! ## The server uses the manager as it should be used -/

/-- Every session is numbered before it is pending, pending before it is admitted and
admitted before its coroutine exists. -/
structure Numbered (s : TcpServer) : Prop where
  pending : ∀ id ∈ s.pending, id < s.next ∧ s.acceptPc ≠ .holding id
  holding : ∀ id, s.acceptPc = .holding id → id < s.next
  born : ∀ id, (s.task id).pc ≠ .unborn →
    id < s.next ∧ id ∉ s.pending ∧ s.acceptPc ≠ .holding id

theorem numbered_initial (config : ServerConfig) : Numbered (.initial config) :=
  ⟨fun id hid => absurd hid (Finset.notMem_empty id), nofun,
    fun _ h => absurd rfl h⟩

/-- Steps of the accept loop that hold no session. -/
theorem Numbered.accept {s : TcpServer} (hs : Numbered s) {opened : Bool} {pc : AcceptPc}
    (hpc : ∀ id, pc ≠ .holding id) : Numbered { s with acceptorOpen := opened, acceptPc := pc } :=
  ⟨fun id hid => ⟨(hs.pending id hid).1, hpc id⟩, fun id h => absurd h (hpc id),
    fun id h => ⟨(hs.born id h).1, (hs.born id h).2.1, hpc id⟩⟩

/-- The admission of a session leaves every other one pending. -/
theorem Numbered.admission {s : TcpServer} (hs : Numbered s) {id : SessionId} (hid : id ∈ s.pending)
    {manager : ManagerState} {task : SessionId → Task}
    (htask : ∀ x, x ≠ id → task x = s.task x) :
    Numbered { s with pending := s.pending.erase id, manager, task } := by
  refine ⟨fun x hx => hs.pending x (Finset.mem_of_mem_erase hx), hs.holding, fun x hx => ?_⟩
  by_cases hne : x = id
  · obtain ⟨hlt, hpc⟩ := hs.pending id hid
    rw [hne]
    exact ⟨hlt, Finset.notMem_erase _ _, hpc⟩
  · have hborn : (s.task x).pc ≠ .unborn := by
      rw [← htask x hne]
      exact hx
    obtain ⟨hlt, hout, hpc⟩ := hs.born x hborn
    exact ⟨hlt, fun h => hout (Finset.mem_of_mem_erase h), hpc⟩

theorem TaskMoves.born {stop : Bool} {pc pc' : TaskPc} {e : TaskEvent}
    (h : TaskMoves stop pc e pc') : pc ≠ .unborn := by
  cases h <;> exact fun h => by cases h

theorem numbered_step {s s' : TcpServer} {e : ServerEvent} (hs : Numbered s)
    (h : ServerMoves s e s') : Numbered s' := by
  cases h with
  | listen | leave | await | connection | acceptError | acceptThrew | drop =>
    exact hs.accept fun _ h => by cases h
  | resume pc =>
    refine ⟨fun id hid => ?_, fun id hid => ?_, fun id hid => ?_⟩
    · have hlt := (hs.pending id hid).1
      refine ⟨Nat.lt_succ_of_lt hlt, fun heq => ?_⟩
      cases heq
      exact Nat.lt_irrefl _ hlt
    · cases hid
      exact Nat.lt_succ_self _
    · obtain ⟨hlt, hout, _⟩ := hs.born id hid
      refine ⟨Nat.lt_succ_of_lt hlt, hout, fun heq => ?_⟩
      cases heq
      exact Nat.lt_irrefl _ hlt
  | @spawn id pc =>
    refine ⟨fun x hx => ?_, nofun, fun x hx => ?_⟩
    · rcases Finset.mem_insert.mp hx with rfl | hx
      · exact ⟨hs.holding x pc, fun heq => by cases heq⟩
      · exact ⟨(hs.pending x hx).1, fun heq => by cases heq⟩
    · obtain ⟨hlt, hout, hpc⟩ := hs.born x hx
      refine ⟨hlt, fun hin => ?_, fun heq => by cases heq⟩
      rcases Finset.mem_insert.mp hin with rfl | hin
      · exact hpc pc
      · exact hout hin
  | @admitted id hid _ => exact hs.admission hid fun x hx => Function.update_of_ne hx _ _
  | @refused id hid _ => exact hs.admission hid fun _ _ => rfl
  | @session id event t moves =>
    refine ⟨hs.pending, hs.holding, fun x hx => ?_⟩
    by_cases hne : x = id
    · rw [hne]
      exact hs.born id moves.born
    · refine hs.born x ?_
      have hsame : Function.update s.task id t x = s.task x := Function.update_of_ne hne _ _
      rw [← hsame]
      exact hx
  | setStop | closeAcceptor | stopAll => exact ⟨hs.pending, hs.holding, hs.born⟩

/-- The sessions whose admission has run. -/
def TcpServer.offered (s : TcpServer) : Finset SessionId :=
  (Finset.range s.next).filter fun id => id ∉ s.pending ∧ s.acceptPc ≠ .holding id

theorem mem_offered {s : TcpServer} {id : SessionId} :
    id ∈ s.offered ↔ id < s.next ∧ id ∉ s.pending ∧ s.acceptPc ≠ .holding id := by
  rw [TcpServer.offered, Finset.mem_filter, Finset.mem_range]

/-- The server seen as a user of its manager. -/
def TcpServer.managerRun (s : TcpServer) : ManagerRun := ⟨s.manager, s.offered⟩

/-- Steps that change neither what was offered nor the manager. -/
theorem managerRun_idle {s s' : TcpServer} (hoffered : s'.offered = s.offered)
    (hmanager : s'.manager = s.manager) : Reachable ManagerRun.step s.managerRun s'.managerRun := by
  have hsame : s'.managerRun = s.managerRun := by
    rw [TcpServer.managerRun, TcpServer.managerRun, hoffered, hmanager]
  rw [hsame]
  exact .refl

/-- An admission passes a session to the manager for the first time. -/
theorem managerRun_admission {s : TcpServer} (hs : Numbered s) {id : SessionId} (hid : id ∈ s.pending)
    {manager : ManagerState} {task : SessionId → Task} (hstart : (s.manager.start id).2 = manager) :
    Reachable ManagerRun.step s.managerRun
      (TcpServer.managerRun { s with pending := s.pending.erase id, manager, task }) := by
  have hnew : id ∉ s.managerRun.offered := fun h => (mem_offered.mp h).2.1 hid
  refine .single trivial (a := .start id) ?_
  rw [ManagerRun.step, if_neg hnew]
  simp only [TcpServer.managerRun, hstart, Option.some.injEq, ManagerRun.mk.injEq, true_and]
  ext x
  rw [Finset.mem_insert, mem_offered, mem_offered]
  obtain ⟨hlt, hpc⟩ := hs.pending id hid
  by_cases hne : x = id
  · subst hne
    exact iff_of_true (.inl rfl) ⟨hlt, Finset.notMem_erase _ _, hpc⟩
  · rw [Finset.mem_erase, or_iff_right hne, and_iff_right hne]

/-- Every step of the server is an operation of the manager, or none at all. -/
theorem managerRun_step {s s' : TcpServer} {e : ServerEvent} (hs : Numbered s)
    (h : ServerMoves s e s') : Reachable ManagerRun.step s.managerRun s'.managerRun := by
  -- the accept loop holds no session before and after
  have haccept : ∀ {opened : Bool} {pc : AcceptPc}, (∀ id, s.acceptPc ≠ .holding id) →
      (∀ id, pc ≠ .holding id) → Reachable ManagerRun.step s.managerRun
        (TcpServer.managerRun { s with acceptorOpen := opened, acceptPc := pc }) := by
    intro opened pc hbefore hafter
    refine managerRun_idle ?_ rfl
    ext x
    rw [mem_offered, mem_offered]
    exact and_congr_right fun _ => and_congr_right fun _ => iff_of_true (hafter x) (hbefore x)
  cases h with
  | listen pc | leave pc | await pc | connection pc | acceptError pc | acceptThrew pc | drop pc =>
    exact haccept (fun _ h => by rw [pc] at h; cases h) nofun
  | resume pc =>
    refine managerRun_idle ?_ rfl
    ext x
    rw [mem_offered, mem_offered, pc]
    constructor
    · rintro ⟨hlt, hout, hne⟩
      refine ⟨Nat.lt_of_le_of_ne (Nat.le_of_lt_succ hlt) ?_, hout, nofun⟩
      intro heq
      exact hne (heq ▸ rfl)
    · rintro ⟨hlt, hout, _⟩
      refine ⟨Nat.lt_succ_of_lt hlt, hout, fun heq => ?_⟩
      cases heq
      exact Nat.lt_irrefl _ hlt
  | @spawn id pc =>
    refine managerRun_idle ?_ rfl
    ext x
    rw [mem_offered, mem_offered, pc, Finset.mem_insert, not_or]
    constructor
    · rintro ⟨hlt, ⟨hne, hout⟩, _⟩
      refine ⟨hlt, hout, fun heq => ?_⟩
      cases heq
      exact hne rfl
    · rintro ⟨hlt, hout, hne⟩
      exact ⟨hlt, ⟨fun heq => hne (heq ▸ rfl), hout⟩, nofun⟩
  | @admitted id hid hroom =>
    refine managerRun_admission hs hid ?_
    rcases start_cases s.manager id with ⟨hfull, _⟩ | ⟨_, hstart⟩
    · exact absurd hroom (Nat.not_le.mpr hfull)
    · rw [hstart]
  | @refused id hid hfull =>
    refine managerRun_admission hs hid ?_
    rcases start_cases s.manager id with ⟨_, hstart⟩ | ⟨hroom, _⟩
    · rw [hstart]
    · exact absurd hroom (Nat.not_le.mpr hfull)
  | @session id event t moves =>
    have hmem : id ∈ s.offered := mem_offered.mpr (hs.born id moves.born)
    cases event with
    | release =>
      refine .single trivial (a := .stop id) ?_
      rw [ManagerRun.step, if_pos (show id ∈ s.managerRun.offered from hmem)]
      rfl
    | _ => exact .refl
  | stopAll => exact .single trivial (a := .stopAll) rfl
  | setStop | closeAcceptor => exact .refl

/-! ## The place of a coroutine and its slot -/

/-- The session has a slot. -/
def TcpServer.managed (s : TcpServer) (id : SessionId) : Bool := decide (id ∈ s.manager.sessions)

/-- Its own moves take the slot of a session only when it releases it. -/
def slotAfter (managed : Bool) : TaskEvent → Bool
  | .release => false
  | _ => managed

theorem managed_managerAfter (s : TcpServer) (id x : SessionId) (event : TaskEvent) :
    decide (x ∈ (s.managerAfter id event).sessions) =
      if x = id then slotAfter (s.managed x) event else s.managed x := by
  have herase : x ∈ (s.manager.stop id).sessions ↔ x ≠ id ∧ x ∈ s.manager.sessions :=
    Finset.mem_erase
  cases event with
  | release =>
    simp only [TcpServer.managerAfter, herase, slotAfter, TcpServer.managed]
    by_cases hx : x = id
    · simp [hx]
    · simp [hx]
  | _ => exact (ite_self _).symm

/-- A property of where each coroutine stands and of whether it has a slot is kept by a
step when it is kept by admissions, by the moves of the sessions and by `stop_all`. -/
theorem slots_step {P : TaskPc → Bool → Prop} {s s' : TcpServer} {e : ServerEvent}
    (hs : ∀ id, P (s.task id).pc (s.managed id)) (h : ServerMoves s e s')
    (hspawned : P .spawned true)
    (hmove : ∀ id event pc, e = .session id event →
      TaskMoves (s.manager.session id).stop (s.task id).pc event pc →
      P pc (slotAfter (s.managed id) event))
    (hstop : e = .stopAll → ∀ id, P (s.task id).pc false) (id : SessionId) :
    P (s'.task id).pc (s'.managed id) := by
  cases h with
  | @admitted x _ _ =>
    by_cases hne : id = x
    · subst hne
      simp only [TcpServer.managed, Function.update_self, Finset.mem_insert_self, decide_true]
      exact hspawned
    · have hsame := hs id
      simp only [TcpServer.managed, Function.update_of_ne hne, Finset.mem_insert, hne,
        false_or] at hsame ⊢
      exact hsame
  | @session x event t moves =>
    simp only [TcpServer.managed, managed_managerAfter]
    by_cases hne : id = x
    · subst hne
      rw [if_pos rfl, Function.update_self]
      exact hmove id event t.pc rfl moves
    · rw [if_neg hne, Function.update_of_ne hne]
      exact hs id
  | stopAll pc => exact hstop rfl id
  | _ => exact hs id

/-! ## What holds in every run -/

section Runs
variable {config : ServerConfig} {guard : TcpServer → ServerEvent → Prop} {s : TcpServer}

/-- A run of the server is a run of its manager, each session passed to `start` once and
stopped afterwards. -/
theorem manager_run (h : Run TcpServer.step guard (.initial config) s) :
    Reachable ManagerRun.step (.initial 4) s.managerRun :=
  h.simulate TcpServer.managerRun
    (fun _ _ _ hs _ hstep => numbered_step hs (server_moves hstep))
    (fun _ _ _ hs _ hstep => managerRun_step hs (server_moves hstep)) (numbered_initial config)

/-- So a session that is flagged has lost its slot. -/
theorem notMem_of_stop (h : Run TcpServer.step guard (.initial config) s) {id : SessionId}
    (hstop : (s.manager.session id).stop = true) : id ∉ s.manager.sessions := by
  have hconsistent := ManagerRun.consistent_of_reachable (manager_run h)
  by_cases hid : id ∈ s.offered
  · rcases hconsistent.offered id hid with ⟨_, hfresh⟩ | ⟨hout, _⟩
    · rw [show s.manager.session id = .fresh from hfresh] at hstop
      cases hstop
    · exact hout
  · exact (hconsistent.fresh id hid).1

end Runs

end Modbus.Server
