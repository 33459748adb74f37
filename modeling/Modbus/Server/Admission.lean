import Modbus.Server.SessionManager

/-! # The connection limit (`modbus/server/tcp_server.cpp`, `server_config.hpp`)

The server hands its manager the logging handler of the configuration and nothing
else, so `max_connections` reaches nobody and the manager's limit stays
`DEFAULT_SERVER_MAX_CONNECTIONS` = 4. Since `start` refuses when there are more
sessions than the limit, the manager admits one more than that. -/
namespace Modbus.Server
open Bytes Transition

/-- `DEFAULT_SERVER_MAX_CONNECTIONS`. -/
def defaultServerMaxConnections : Word := 4

/-- The fields the server reads; the logging handler is left out. -/
structure ServerConfig where
  endpoint : String
  port : Word
  maxConnections : Word
deriving DecidableEq, Repr

namespace ServerConfig

def default : ServerConfig := ⟨"0.0.0.0", 502, defaultServerMaxConnections⟩

/-- `session_manager_(exec, config.logging_handler)`. -/
def sessionManager (_config : ServerConfig) : ManagerState :=
  .initial defaultServerMaxConnections.toNat

end ServerConfig

/-- Connections are offered, sessions end and all are stopped; the limit is not
touched. -/
def KeepsLimit (_ : ManagerRun) (op : ManagerOp) : Prop :=
  match op with
  | .setMaxSessions _ => False
  | _ => True

instance (r : ManagerRun) (op : ManagerOp) : Decidable (KeepsLimit r op) :=
  match op with
  | .setMaxSessions _ => isFalse id
  | .start _ | .stop _ | .stopAll => isTrue trivial

/-- There are never more sessions than `max_connections`, and a session is refused
exactly when there are that many. -/
def LimitHolds (config : ServerConfig) : Prop :=
  ∀ r, Run ManagerRun.step KeepsLimit ⟨config.sessionManager, ∅⟩ r →
    r.manager.sessions.card ≤ config.maxConnections.toNat ∧
      ∀ id ∉ r.offered, (r.manager.start id).1 = .exceededMaxSessions ↔
        r.manager.sessions.card = config.maxConnections.toNat

theorem start_refused_iff (m : ManagerState) (id : SessionId) :
    (m.start id).1 = .exceededMaxSessions ↔ toSizeT m.maxSessions < m.sessions.card := by
  rcases start_cases m id with ⟨h, hstart⟩ | ⟨h, hstart⟩
  · rw [hstart]
    exact iff_of_true rfl h
  · rw [hstart]
    exact iff_of_false (fun heq => by cases heq) (Nat.not_lt.mpr h)

/-- At most one session more than the limit of the manager. -/
structure Bounded (r : ManagerRun) : Prop where
  limit : r.manager.maxSessions = 4
  card : r.manager.sessions.card ≤ 5

theorem bounded_step {r r' : ManagerRun} {op : ManagerOp} (hr : Bounded r)
    (hkeep : KeepsLimit r op) (h : r.step op = some r') : Bounded r' := by
  obtain ⟨hlimit, hcard⟩ := hr
  cases op with
  | start id =>
    simp only [ManagerRun.step] at h
    split at h
    · cases h
    · cases h
      rcases start_cases r.manager id with ⟨_, hstart⟩ | ⟨hle, hstart⟩
      · rw [hstart]
        exact ⟨hlimit, hcard⟩
      · rw [hstart]
        rw [hlimit] at hle
        exact ⟨hlimit, (Finset.card_insert_le _ _).trans (Nat.succ_le_succ hle)⟩
  | stop id =>
    simp only [ManagerRun.step] at h
    split at h
    · cases h
      exact ⟨hlimit, (Finset.card_erase_le).trans hcard⟩
    · cases h
  | stopAll =>
    cases h
    exact ⟨hlimit, Nat.zero_le _⟩
  | setMaxSessions n => cases hkeep

theorem bounded_of_run {config : ServerConfig} {r : ManagerRun}
    (h : Run ManagerRun.step KeepsLimit ⟨config.sessionManager, ∅⟩ r) : Bounded r :=
  h.invariant Bounded ⟨rfl, Nat.zero_le _⟩ fun _ _ _ hr hkeep hstep => bounded_step hr hkeep hstep

/-- Five connections, one after the other. -/
def fiveStarts : List ManagerOp := [.start 0, .start 1, .start 2, .start 3, .start 4]

/-- They are all admitted, and the next one is refused. -/
theorem five_admitted :
    ∃ r, Run ManagerRun.step KeepsLimit (.initial 4) r ∧ r.manager.sessions.card = 5 ∧
      5 ∉ r.offered ∧ (r.manager.start 5).1 = .exceededMaxSessions :=
  ⟨_, Run.of_exec fiveStarts rfl, by decide, by decide, by decide⟩

/-- The limit holds for one configuration value only, which is neither the default
nor anything the server looks at. -/
theorem limitHolds_iff (config : ServerConfig) :
    LimitHolds config ↔ config.maxConnections = 5 := by
  constructor
  · intro hlimit
    obtain ⟨r, hrun, hcard, hnew, hrefused⟩ := five_admitted
    obtain ⟨_, hiff⟩ := hlimit r hrun
    have heq := (hiff 5 hnew).mp hrefused
    apply BitVec.eq_of_toNat_eq
    rw [← heq, hcard]
    rfl
  · intro hfive r hrun
    obtain ⟨hlimit, hcard⟩ := bounded_of_run hrun
    have hmax : config.maxConnections.toNat = 5 := by
      rw [hfive]
      rfl
    rw [hmax]
    refine ⟨hcard, fun id _ => ?_⟩
    rw [start_refused_iff, hlimit]
    exact ⟨fun h => Nat.le_antisymm hcard h, fun h => h ▸ (by decide : toSizeT 4 < 5)⟩

/-- With the default configuration, whose limit is four, five sessions are managed. -/
theorem five_sessions_by_default :
    ServerConfig.default.maxConnections = 4 ∧
      (∃ r, Run ManagerRun.step KeepsLimit ⟨ServerConfig.default.sessionManager, ∅⟩ r ∧
        r.manager.sessions.card = 5) ∧
      ¬ LimitHolds .default := by
  obtain ⟨r, hrun, hcard, _⟩ := five_admitted
  refine ⟨rfl, ⟨r, hrun, hcard⟩, ?_⟩
  intro hlimit
  have hle := (hlimit r hrun).1
  rw [hcard] at hle
  exact absurd hle (by decide)

end Modbus.Server
