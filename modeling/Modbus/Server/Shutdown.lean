import Modbus.Server.Owners

/-! # What is left after `tcp_server::stop`

`stop` sets the flag of the accept loop, closes the acceptor and then stops all
sessions of the manager. The manager itself is told nothing, so an admission that
is still pending, or a connection the accept loop already has, starts a session
after `stop` has returned. Nothing else does. -/
namespace Modbus.Server
open Bytes TcpDataUnit Transition

/-- Once `stop_all` has run there are no sessions, no matter what runs next, and none is
started that was not before. -/
def Final (s : TcpServer) : Prop :=
  ∀ t u, s.step .stopAll = some t → Reachable TcpServer.step t u →
    u.manager.sessions = ∅ ∧ ∀ id, (u.task id).pc ≠ .unborn → (s.task id).pc ≠ .unborn

/-- No admission is pending and the accept loop has no connection in its hands. -/
structure NoneWaiting (s : TcpServer) : Prop where
  pending : s.pending = ∅
  ready : s.acceptPc ≠ .ready
  holding : ∀ id, s.acceptPc ≠ .holding id

/-- What the first two statements of `stop` leave behind. -/
structure Stopping (s : TcpServer) : Prop where
  flagged : s.stopPc ≠ .notCalled → s.stop = true
  closed : s.stopPc = .closed ∨ s.stopPc = .returned → s.acceptPc = .accepting →
    s.acceptorOpen = false

theorem stopping_step {s s' : TcpServer} {e : ServerEvent} (hs : Stopping s)
    (h : ServerMoves s e s') : Stopping s' := by
  cases h with
  | listen | leave | connection | acceptError | resume | acceptThrew | spawn | drop =>
    exact ⟨hs.flagged, fun _ h => nomatch h⟩
  | await _ hstop =>
    -- the flag is not set, so `stop` was not called
    refine ⟨hs.flagged, fun hpc _ => ?_⟩
    have hflag : s.stop = true := by
      apply hs.flagged
      rcases hpc with hpc | hpc
      · rw [show s.stopPc = .closed from hpc]
        exact nofun
      · rw [show s.stopPc = .returned from hpc]
        exact nofun
    rw [hstop] at hflag
    cases hflag
  | admitted | refused | session => exact ⟨hs.flagged, hs.closed⟩
  | setStop => exact ⟨fun _ => rfl, fun hpc => by rcases hpc with h | h <;> cases h⟩
  | closeAcceptor pc =>
    refine ⟨fun _ => hs.flagged ?_, fun _ _ => rfl⟩
    rw [pc]
    exact nofun
  | stopAll pc =>
    refine ⟨fun _ => hs.flagged ?_, fun _ => hs.closed (.inl pc)⟩
    rw [pc]
    exact nofun

theorem stopping_of_run {config : ServerConfig} {s : TcpServer}
    (h : Reachable TcpServer.step (.initial config) s) : Stopping s := by
  refine h.invariant Stopping ⟨fun h => absurd rfl h, fun hpc => ?_⟩ ?_
  · rcases hpc with h | h <;> cases h
  · intro t e u ht _ hstep
    exact stopping_step ht (server_moves hstep)

/-- Nothing is running that could admit a session. -/
structure Quiet (s : TcpServer) (u : TcpServer) : Prop where
  stop : u.stop = true
  stopPc : u.stopPc = .returned
  none : NoneWaiting u
  closed : u.acceptPc = .accepting → u.acceptorOpen = false
  sessions : u.manager.sessions = ∅
  born : ∀ id, (u.task id).pc ≠ .unborn → (s.task id).pc ≠ .unborn

theorem quiet_step {s u u' : TcpServer} {e : ServerEvent} (hu : Quiet s u)
    (h : ServerMoves u e u') : Quiet s u' := by
  cases h with
  | listen | leave | acceptError | drop =>
    exact { hu with none := ⟨hu.none.pending, nofun, nofun⟩, closed := nofun }
  | await _ hstop =>
    have hset := hu.stop
    rw [hstop] at hset
    cases hset
  | connection pc hopen =>
    have hclosed := hu.closed pc
    rw [hopen] at hclosed
    cases hclosed
  | resume pc | acceptThrew pc => exact absurd pc hu.none.ready
  | spawn pc => exact absurd pc (hu.none.holding _)
  | admitted hid | refused hid =>
    rw [hu.none.pending] at hid
    exact absurd hid (Finset.notMem_empty _)
  | @session id event t moves =>
    have hsessions : (u.managerAfter id event).sessions = ∅ := by
      cases event with
      | release =>
        change u.manager.sessions.erase id = ∅
        rw [hu.sessions, Finset.erase_empty]
      | _ => exact hu.sessions
    refine { hu with none := ⟨hu.none.pending, hu.none.ready, hu.none.holding⟩,
                     sessions := hsessions, born := fun x hx => ?_ }
    by_cases hne : x = id
    · rw [hne]
      exact hu.born id moves.born
    · have hsame : Function.update u.task id t x = u.task x := Function.update_of_ne hne _ _
      exact hu.born x (hsame ▸ hx)
  | setStop pc | closeAcceptor pc | stopAll pc =>
    rw [hu.stopPc] at pc
    cases pc

/-! ## A connection that is still on its way -/

/-- A pending admission finds the empty manager and gets its slot. -/
theorem admitted_late {s : TcpServer} {id : SessionId} (hsessions : s.manager.sessions = ∅)
    (hid : id ∈ s.pending) :
    ∃ u, Reachable TcpServer.step s u ∧ id ∈ u.manager.sessions := by
  have hstep : s.step (.admission id) = some (s.admitSession id) := if_pos hid
  refine ⟨_, .single trivial hstep, ?_⟩
  unfold TcpServer.admitSession
  rcases start_cases s.manager id with ⟨hfull, _⟩ | ⟨_, hstart⟩
  · rw [hsessions] at hfull
    exact absurd hfull (Nat.not_lt_zero _)
  · rw [hstart]
    exact Finset.mem_insert_self _ _

/-- The accept loop spawns the admission of the session it holds. -/
theorem holding_late {s : TcpServer} {id : SessionId} (hsessions : s.manager.sessions = ∅)
    (hpc : s.acceptPc = .holding id) :
    ∃ u x, Reachable TcpServer.step s u ∧ x ∈ u.manager.sessions := by
  have hstep : s.step .spawn =
      some { s with acceptPc := .spawned id, pending := insert id s.pending } := by
    rw [TcpServer.step, hpc]
  obtain ⟨u, hrun, hmem⟩ := admitted_late
    (s := { s with acceptPc := .spawned id, pending := insert id s.pending }) hsessions
    (Finset.mem_insert_self id s.pending)
  exact ⟨u, id, (Run.single trivial hstep).trans hrun, hmem⟩

/-- The accept loop makes a session of the connection it was given. -/
theorem ready_late {s : TcpServer} (hsessions : s.manager.sessions = ∅)
    (hpc : s.acceptPc = .ready) :
    ∃ u x, Reachable TcpServer.step s u ∧ x ∈ u.manager.sessions := by
  have hstep : s.step (.resume true) =
      some { s with acceptPc := .holding s.next, next := s.next + 1 } := by
    rw [TcpServer.step, if_pos hpc]
    rfl
  obtain ⟨u, x, hrun, hmem⟩ := holding_late
    (s := { s with acceptPc := .holding s.next, next := s.next + 1 }) hsessions rfl
  exact ⟨u, x, (Run.single trivial hstep).trans hrun, hmem⟩

/-- `stop` is final exactly when, at its `stop_all`, nothing is on its way into the
manager. -/
theorem final_iff (config : ServerConfig) (s : TcpServer)
    (h : Reachable TcpServer.step (.initial config) s) (hpc : s.stopPc = .closed) :
    Final s ↔ NoneWaiting s := by
  have hstep : s.step .stopAll =
      some { s with manager := s.manager.stopAll, stopPc := .returned } := if_pos hpc
  constructor
  · intro hfinal
    -- whatever reaches the manager after `stop_all` contradicts `Final`
    have hnone : ∀ {t : TcpServer}, s.step .stopAll = some t →
        ¬ ∃ u x, Reachable TcpServer.step t u ∧ x ∈ u.manager.sessions := by
      rintro t ht ⟨u, x, hrun, hmem⟩
      rw [(hfinal t u ht hrun).1] at hmem
      exact Finset.notMem_empty x hmem
    refine ⟨?_, ?_, ?_⟩
    · refine Finset.eq_empty_of_forall_notMem fun id hid => hnone hstep ?_
      obtain ⟨u, hrun, hmem⟩ := admitted_late
        (s := { s with manager := s.manager.stopAll, stopPc := .returned }) rfl hid
      exact ⟨u, id, hrun, hmem⟩
    · exact fun hready => hnone hstep (ready_late rfl hready)
    · exact fun id hholding => hnone hstep (holding_late rfl hholding)
  · intro hnone t u ht hrun
    obtain ⟨hflagged, hclosed⟩ := stopping_of_run h
    have hstop : s.stop = true := by
      apply hflagged
      rw [hpc]
      exact nofun
    rw [hstep] at ht
    cases ht
    have hquiet : Quiet s u := by
      refine hrun.invariant (Quiet s) ?_ fun _ _ _ hu _ hmove => quiet_step hu (server_moves hmove)
      exact ⟨hstop, rfl, ⟨hnone.pending, hnone.ready, hnone.holding⟩, hclosed (.inl hpc), rfl,
        fun _ h => h⟩
    exact ⟨hquiet.sessions, hquiet.born⟩

/-- The server is stopped while a session waits for a request and the accept loop for
another connection, up to its `stop_all`. -/
def stoppedAccepting : List ServerEvent :=
  firstSession ++ [.acceptTest, .setStop, .closeAcceptor]

theorem final_admitted :
    ∃ s, Reachable TcpServer.step (.initial .default) s ∧ s.stopPc = .closed ∧
      0 ∈ s.manager.sessions ∧ (s.task 0).pc.Running ∧ s.acceptPc = .accepting ∧ Final s := by
  refine ⟨_, Run.of_exec stoppedAccepting rfl, rfl, by decide, trivial, rfl, ?_⟩
  exact (final_iff .default _ (Run.of_exec stoppedAccepting rfl) rfl).mpr ⟨rfl, nofun, nofun⟩

/-- A connection was accepted and its admission spawned when the server is stopped. -/
def stoppedPending : List ServerEvent :=
  [.listen true, .acceptTest, .connection, .resume true, .spawn, .setStop, .closeAcceptor]

/-- The admission runs after `stop` has returned, and starts a session nobody stops. -/
theorem session_after_stop :
    ∃ s t u, exec TcpServer.step (fun _ _ => True) (.initial .default) stoppedPending = some s ∧
      Reachable TcpServer.step (.initial .default) s ∧ s.step .stopAll = some t ∧
      t.step (.admission 0) = some u ∧ u.stopPc = .returned ∧ 0 ∈ u.manager.sessions ∧
      (u.task 0).pc = .spawned ∧ ¬ Final s := by
  refine ⟨_, _, _, rfl, Run.of_exec stoppedPending rfl, rfl, rfl, rfl, by decide, rfl, ?_⟩
  intro hfinal
  obtain ⟨hempty, _⟩ := hfinal _ _ rfl (.single trivial (a := .admission 0) rfl)
  revert hempty
  decide

end Modbus.Server
