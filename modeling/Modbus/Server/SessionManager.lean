import Mathlib.Data.Finset.Card
import Mathlib.Logic.Function.Basic
import Modbus.Lib.Transition
import Modbus.Core.Types

/-! # The session manager (`modbus/server/tcp_session_manager.cpp`)

Every operation holds `mtx_` from its first to its last statement, so it is one
step. A session is what other coroutines reach of it: the flag its loop tests and
its socket. `ManagerState` is the manager together with all the sessions there are;
the number of a session is the order in which the server accepted it. -/
namespace Modbus.Server
open Transition

/-- A `shared_ptr<tcp_session>`, compared as a pointer. -/
abbrev SessionId := Nat

structure Session where
  /-- `stop_`. -/
  stop : Bool
  /-- The socket was closed. -/
  closed : Bool
deriving DecidableEq, Repr

def Session.fresh : Session := ⟨false, false⟩

/-- `tcp_session::stop`. -/
def Session.halt (s : Session) : Session := { s with stop := true, closed := true }

inductive ServerErrorCode where
  | success
  | exceededMaxSessions
deriving DecidableEq, Repr

/-- An `int` compared with a `size_t`: it is converted to 64 unsigned bits. -/
def toSizeT (n : Int) : Nat := (n % 0x10000000000000000).toNat

structure ManagerState where
  sessions : Finset SessionId
  maxSessions : Int
  session : SessionId → Session

namespace ManagerState

def initial (maxSessions : Int) : ManagerState := ⟨∅, maxSessions, fun _ => .fresh⟩

def haltSession (m : ManagerState) (id : SessionId) : ManagerState :=
  { m with session := Function.update m.session id (m.session id).halt }

/-- The coroutine of an admitted session is spawned by the caller's model. -/
def start (m : ManagerState) (id : SessionId) : ServerErrorCode × ManagerState :=
  if m.sessions.card > toSizeT m.maxSessions then
    (.exceededMaxSessions, m.haltSession id)
  else
    (.success, { m with sessions := insert id m.sessions })

def stop (m : ManagerState) (id : SessionId) : ManagerState :=
  haltSession { m with sessions := m.sessions.erase id } id

def stopAll (m : ManagerState) : ManagerState :=
  { m with
    session := fun id => if id ∈ m.sessions then (m.session id).halt else m.session id
    sessions := ∅ }

def setMaxSessions (m : ManagerState) (maxSessions : Int) : ManagerState :=
  { m with maxSessions }

end ManagerState

/-! ## What the operations do to a session -/

section Operations
variable (m : ManagerState) (id : SessionId)

@[simp] theorem halt_eq (s : Session) : s.halt = ⟨true, true⟩ := rfl

@[simp] theorem session_haltSession_self : (m.haltSession id).session id = ⟨true, true⟩ := by
  simp [ManagerState.haltSession]

theorem session_haltSession_ne {id' : SessionId} (h : id' ≠ id) :
    (m.haltSession id).session id' = m.session id' := by
  simp [ManagerState.haltSession, h]

/-- A session is refused and halted, or admitted and left as it is. -/
theorem start_cases :
    (toSizeT m.maxSessions < m.sessions.card ∧
        m.start id = (.exceededMaxSessions, m.haltSession id)) ∨
      (m.sessions.card ≤ toSizeT m.maxSessions ∧
        m.start id = (.success, { m with sessions := insert id m.sessions })) := by
  unfold ManagerState.start
  split
  · next h => exact .inl ⟨h, rfl⟩
  · next h => exact .inr ⟨Nat.le_of_not_lt h, rfl⟩

end Operations

/-! ## Runs of the operations -/

inductive ManagerOp where
  | start (id : SessionId)
  | stop (id : SessionId)
  | stopAll
  | setMaxSessions (maxSessions : Int)
deriving DecidableEq, Repr

/-- The manager and the sessions that were ever passed to `start`. -/
structure ManagerRun where
  manager : ManagerState
  offered : Finset SessionId

namespace ManagerRun

def initial (maxSessions : Int) : ManagerRun := ⟨.initial maxSessions, ∅⟩

/-- A session is started at most once and stopped only after it was started. -/
def step (r : ManagerRun) : ManagerOp → Option ManagerRun
  | .start id =>
    if id ∈ r.offered then none else some ⟨(r.manager.start id).2, insert id r.offered⟩
  | .stop id => if id ∈ r.offered then some ⟨r.manager.stop id, r.offered⟩ else none
  | .stopAll => some ⟨r.manager.stopAll, r.offered⟩
  | .setMaxSessions n => some ⟨r.manager.setMaxSessions n, r.offered⟩

end ManagerRun

/-- In the set and running. -/
structure ManagerState.Managed (m : ManagerState) (id : SessionId) : Prop where
  mem : id ∈ m.sessions
  session : m.session id = .fresh

/-- Out of the set, flagged and closed. -/
structure ManagerState.Stopped (m : ManagerState) (id : SessionId) : Prop where
  notMem : id ∉ m.sessions
  session : m.session id = ⟨true, true⟩

/-- The invariant of the runs: a session that was passed to `start` is managed or
stopped, and the manager knows nothing of the others. -/
structure ManagerRun.Consistent (r : ManagerRun) : Prop where
  offered : ∀ id ∈ r.offered, r.manager.Managed id ∨ r.manager.Stopped id
  fresh : ∀ id ∉ r.offered, id ∉ r.manager.sessions ∧ r.manager.session id = .fresh

/-- Both depend only on what the manager says about the session. -/
theorem status_congr {m m' : ManagerState} {id : SessionId} (h : m.Managed id ∨ m.Stopped id)
    (hmem : id ∈ m'.sessions ↔ id ∈ m.sessions) (hsession : m'.session id = m.session id) :
    m'.Managed id ∨ m'.Stopped id := by
  rcases h with ⟨hin, hfresh⟩ | ⟨hout, hhalted⟩
  · exact .inl ⟨hmem.mpr hin, hsession.trans hfresh⟩
  · exact .inr ⟨fun hin => hout (hmem.mp hin), hsession.trans hhalted⟩

namespace ManagerRun

theorem consistent_initial (limit : Int) : (initial limit).Consistent :=
  ⟨fun id hid => absurd hid (Finset.notMem_empty id), fun id _ => ⟨Finset.notMem_empty id, rfl⟩⟩

theorem consistent_start {r : ManagerRun} {id : SessionId} (hr : r.Consistent)
    (hid : id ∉ r.offered) :
    Consistent ⟨(r.manager.start id).2, insert id r.offered⟩ := by
  obtain ⟨hnot, hfresh⟩ := hr.fresh id hid
  rcases start_cases r.manager id with ⟨_, hstart⟩ | ⟨_, hstart⟩
  · rw [hstart]
    refine ⟨fun x hx => ?_, fun x hx => ?_⟩
    · rcases Finset.mem_insert.mp hx with rfl | hx
      · exact .inr ⟨hnot, session_haltSession_self _ _⟩
      · have hne : x ≠ id := fun h => hid (h ▸ hx)
        exact status_congr (hr.offered x hx) .rfl (session_haltSession_ne _ _ hne)
    · obtain ⟨hne, hx⟩ := not_or.mp (fun h => hx (Finset.mem_insert.mpr h))
      obtain ⟨hout, hsame⟩ := hr.fresh x hx
      exact ⟨hout, (session_haltSession_ne _ _ hne).trans hsame⟩
  · rw [hstart]
    refine ⟨fun x hx => ?_, fun x hx => ?_⟩
    · rcases Finset.mem_insert.mp hx with rfl | hx
      · exact .inl ⟨Finset.mem_insert_self _ _, hfresh⟩
      · have hne : x ≠ id := fun h => hid (h ▸ hx)
        exact status_congr (hr.offered x hx) (Finset.mem_insert.trans (or_iff_right hne)) rfl
    · obtain ⟨hne, hx⟩ := not_or.mp (fun h => hx (Finset.mem_insert.mpr h))
      obtain ⟨hout, hsame⟩ := hr.fresh x hx
      exact ⟨fun h => hout ((Finset.mem_insert.mp h).resolve_left hne), hsame⟩

theorem consistent_stop {r : ManagerRun} {id : SessionId} (hr : r.Consistent)
    (hid : id ∈ r.offered) : Consistent ⟨r.manager.stop id, r.offered⟩ := by
  refine ⟨fun x hx => ?_, fun x hx => ?_⟩
  · by_cases hne : x = id
    · subst hne
      exact .inr ⟨Finset.notMem_erase _ _, session_haltSession_self _ _⟩
    · exact status_congr (hr.offered x hx) (Finset.mem_erase.trans (and_iff_right hne))
        (session_haltSession_ne _ _ hne)
  · have hne : x ≠ id := fun h => hx (h ▸ hid)
    obtain ⟨hout, hsame⟩ := hr.fresh x hx
    exact ⟨fun h => hout (Finset.mem_of_mem_erase h), (session_haltSession_ne _ _ hne).trans hsame⟩

theorem consistent_stopAll {r : ManagerRun} (hr : r.Consistent) :
    Consistent ⟨r.manager.stopAll, r.offered⟩ := by
  refine ⟨fun x hx => .inr ⟨Finset.notMem_empty x, ?_⟩, fun x hx => ⟨Finset.notMem_empty x, ?_⟩⟩
  · rcases hr.offered x hx with ⟨hin, _⟩ | ⟨hout, hhalted⟩
    · exact if_pos hin
    · exact (if_neg hout).trans hhalted
  · obtain ⟨hout, hsame⟩ := hr.fresh x hx
    exact (if_neg hout).trans hsame

theorem consistent_step {r r' : ManagerRun} {op : ManagerOp} (hr : r.Consistent)
    (h : r.step op = some r') : r'.Consistent := by
  cases op with
  | start id =>
    simp only [step] at h
    split at h
    · cases h
    · next hid =>
      cases h
      exact consistent_start hr hid
  | stop id =>
    simp only [step] at h
    split at h
    · next hid =>
      cases h
      exact consistent_stop hr hid
    · cases h
  | stopAll =>
    cases h
    exact consistent_stopAll hr
  | setMaxSessions n =>
    cases h
    exact ⟨fun x hx => status_congr (hr.offered x hx) .rfl rfl, hr.fresh⟩

theorem consistent_of_reachable {limit : Int} {r : ManagerRun}
    (h : Reachable step (initial limit) r) : r.Consistent :=
  h.invariant Consistent (consistent_initial limit) fun _ _ _ hr _ hstep => consistent_step hr hstep

end ManagerRun

/-- Whatever the order of the operations, a session that was ever passed to `start` is
in the set and running, or out of it and stopped. -/
theorem managed_or_stopped (limit : Int) (r : ManagerRun)
    (h : Reachable ManagerRun.step (.initial limit) r) (id : SessionId) (hid : id ∈ r.offered) :
    (id ∈ r.manager.sessions ∧ (r.manager.session id).stop = false ∧
        (r.manager.session id).closed = false) ∨
      (id ∉ r.manager.sessions ∧ (r.manager.session id).stop = true ∧
        (r.manager.session id).closed = true) := by
  rcases (ManagerRun.consistent_of_reachable h).offered id hid with ⟨hin, hs⟩ | ⟨hout, hs⟩
  · rw [hs]
    exact .inl ⟨hin, rfl, rfl⟩
  · rw [hs]
    exact .inr ⟨hout, rfl, rfl⟩

/-- A session refused while the limit is lowered, and another one stopped twice. -/
def lateStops : List ManagerOp :=
  [.start 0, .setMaxSessions 0, .start 1, .setMaxSessions 4, .stop 0, .stopAll, .stop 0]

theorem managed_or_stopped_late :
    ∃ r, Reachable ManagerRun.step (.initial 4) r ∧ 0 ∈ r.offered ∧
      ((0 ∈ r.manager.sessions ∧ (r.manager.session 0).stop = false ∧
          (r.manager.session 0).closed = false) ∨
        (0 ∉ r.manager.sessions ∧ (r.manager.session 0).stop = true ∧
          (r.manager.session 0).closed = true)) :=
  have hrun := Run.of_exec lateStops rfl
  have hmem := Finset.mem_insert_of_mem (Finset.mem_insert_self 0 ∅)
  ⟨_, hrun, hmem, managed_or_stopped 4 _ hrun 0 hmem⟩

end Modbus.Server
