import Mathlib.Algebra.Order.BigOperators.Group.Finset
import Modbus.Server.Owners
import Modbus.Server.Shutdown

/-! # How a stopped server comes to rest

`tcp_session::stop` sets a flag that the loop tests before every read. A session that
waits for a read when it is stopped may still get a request, serve it and write the
response, and then it finds the flag: it has at most five moves left, one of them a
call of the handler (`stopped_session_ends`), if it lives to make them. `stop_all` drops
the entries of all sessions, so what follows uses no destroyed session exactly when none
was running but for those that were giving their slots back; in that case the whole
server comes to rest, and nothing is left running then (`shutdown_completes`). -/
namespace Modbus.Server
open Bytes TcpDataUnit Transition

/-! ## What a stopped session has left -/

/-- How many moves a coroutine whose session is flagged can still make. -/
def TaskPc.remaining : TaskPc → Nat
  | .unborn => 0
  | .spawned => 2
  | .testing => 1
  | .reading => 5
  | .handling _ => 4
  | .writing _ => 3
  | .releasing report => if report then 2 else 1
  | .reporting => 1
  | .finished _ => 0

theorem remaining_le (pc : TaskPc) : pc.remaining ≤ 5 := by
  cases pc with
  | releasing report => cases report <;> decide
  | _ => exact of_decide_eq_true rfl

/-- And how many of them call the handler. -/
def TaskPc.calls : TaskPc → Nat
  | .reading | .handling _ => 1
  | _ => 0

theorem calls_le (pc : TaskPc) : pc.calls ≤ 1 := by
  cases pc <;> exact of_decide_eq_true rfl

theorem TaskMoves.remaining_lt {pc pc' : TaskPc} {e : TaskEvent} (h : TaskMoves true pc e pc') :
    pc'.remaining < pc.remaining := by
  cases h with
  | waits hstop => cases hstop
  | _ => exact of_decide_eq_true rfl

def TaskEvent.isHandled : TaskEvent → Bool
  | .handled _ => true
  | _ => false

theorem TaskMoves.calls_le {pc pc' : TaskPc} {e : TaskEvent} (h : TaskMoves true pc e pc') :
    pc'.calls + (if e.isHandled then 1 else 0) ≤ pc.calls := by
  cases h with
  | waits hstop => cases hstop
  | _ => exact of_decide_eq_true rfl

/-- A coroutine that has not returned can move, whatever its environment does. -/
theorem TaskPc.Running.moves {t : Task} (h : t.pc.Running) (stop : Bool) :
    ∃ e t', t.step stop e = some t' := by
  obtain ⟨pc, s⟩ := t
  cases pc with
  | unborn | finished => exact h.elim
  | spawned => exact ⟨.enter true, _, rfl⟩
  | testing => exact ⟨.test, _, rfl⟩
  | reading => exact ⟨.readDone (.error .eof), _, rfl⟩
  | handling request => exact ⟨.handled none, _, rfl⟩
  | writing response => exact ⟨.written none 0, _, rfl⟩
  | releasing report => exact ⟨.release, _, rfl⟩
  | reporting => exact ⟨.report, _, rfl⟩

/-! ## The flag of a session -/

/-- No step of the server takes a flag back. -/
theorem stop_step {s s' : TcpServer} {e : ServerEvent} {id : SessionId} (h : ServerMoves s e s')
    (hstop : (s.manager.session id).stop = true) : (s'.manager.session id).stop = true := by
  have hhalt : ∀ x, ((s.manager.haltSession x).session id).stop = true := by
    intro x
    by_cases hne : id = x
    · rw [hne, session_haltSession_self]
    · rw [session_haltSession_ne _ _ hne]
      exact hstop
  cases h with
  | refused => exact hhalt _
  | @session x event t moves =>
    cases event with
    | release => exact hhalt x
    | _ => exact hstop
  | stopAll =>
    simp only [ManagerState.stopAll]
    split
    · rfl
    · exact hstop
  | _ => exact hstop

/-- A session that is flagged is not waiting for its admission. -/
theorem notPending_of_stop {config : ServerConfig} {s : TcpServer}
    (h : Reachable TcpServer.step (.initial config) s) {id : SessionId}
    (hstop : (s.manager.session id).stop = true) : id ∉ s.pending := by
  intro hid
  have hnew : id ∉ s.managerRun.offered := fun hoffered => (mem_offered.mp hoffered).2.1 hid
  have hfresh := ((ManagerRun.consistent_of_reachable (manager_run h)).fresh id hnew).2
  rw [show s.manager.session id = .fresh from hfresh] at hstop
  cases hstop

/-- The moves of a session, and its calls of the handler. -/
def ServerEvent.isMove (id : SessionId) : ServerEvent → Bool
  | .session x _ => decide (x = id)
  | _ => false

def ServerEvent.isCall (id : SessionId) : ServerEvent → Bool
  | .session x event => decide (x = id) && event.isHandled
  | _ => false

theorem not_isCall_of_not_isMove {id : SessionId} {e : ServerEvent} (h : e.isMove id = false) :
    ¬ e.isCall id = true := by
  cases e with
  | session x event =>
    intro hcall
    exact of_decide_eq_false h (of_decide_eq_true (Bool.and_eq_true_iff.mp hcall).1)
  | _ => exact Bool.false_ne_true

/-- What other coroutines do leaves a session that is not pending where it is. -/
theorem task_of_other {s s' : TcpServer} {e : ServerEvent} {id : SessionId} (h : ServerMoves s e s')
    (hpending : id ∉ s.pending) (hother : e.isMove id = false) : s'.task id = s.task id := by
  cases h with
  | @admitted x hx _ =>
    have hne : id ≠ x := fun heq => hpending (heq ▸ hx)
    exact Function.update_of_ne hne ..
  | @session x event t moves =>
    have hne : id ≠ x := fun heq => of_decide_eq_false hother heq.symm
    exact Function.update_of_ne hne ..
  | _ => rfl

/-- The session was flagged in a run of the server. -/
structure Flagged (config : ServerConfig) (id : SessionId) (s : TcpServer) : Prop where
  run : Reachable TcpServer.step (.initial config) s
  stop : (s.manager.session id).stop = true

section Flagged
variable {config : ServerConfig} {id : SessionId} {s s' : TcpServer} {e : ServerEvent}

theorem Flagged.step (hs : Flagged config id s) (h : s.step e = some s') :
    Flagged config id s' :=
  ⟨.tail hs.run trivial h, stop_step (server_moves h) hs.stop⟩

/-- A move of the session takes its coroutine along. -/
theorem Flagged.moves (hs : Flagged config id s) (h : s.step e = some s') :
    (e.isMove id = false ∧ s'.task id = s.task id) ∨
      ∃ event, e = .session id event ∧ TaskMoves true (s.task id).pc event (s'.task id).pc := by
  cases hmove : e.isMove id with
  | false =>
    exact .inl ⟨rfl, task_of_other (server_moves h) (notPending_of_stop hs.run hs.stop) hmove⟩
  | true =>
    cases e with
    | session x event =>
      obtain rfl := of_decide_eq_true hmove
      obtain ⟨t, ht, hs'⟩ := Option.map_eq_some_iff.mp h
      cases hs'
      have hmoves := step_moves ht
      rw [hs.stop] at hmoves
      simp only [Function.update_self]
      exact .inr ⟨event, rfl, hmoves⟩
    | _ => cases hmove

end Flagged

/-- In every run that uses no destroyed session, a session that was told to stop has at
most five moves left, one of them a call of the handler, and as long as it has an owner
it can make them until its coroutine has returned. -/
theorem stopped_session_ends (config : ServerConfig) (s t : TcpServer) (id : SessionId)
    (events : List ServerEvent)
    (h : Reachable TcpServer.checkedStep (some (.initial config)) (some s))
    (hstop : (s.manager.session id).stop = true)
    (htrace : Trace TcpServer.checkedStep (some s) events (some t)) :
    events.countP (ServerEvent.isMove id) + (t.task id).pc.remaining ≤ 5 ∧
      events.countP (ServerEvent.isCall id) ≤ 1 ∧
      ((t.task id).pc.Running → Owned t id →
        ∃ event u, TcpServer.checkedStep (some t) (.session id event) = some (some u)) := by
  have hinit : Flagged config id s := ⟨h.defined.reachable, hstop⟩
  have hkeep : ∀ t e u, Flagged config id t → TcpServer.step t e = some u → Flagged config id u :=
    fun _ _ _ ht hstep => ht.step hstep
  refine ⟨?_, ?_, ?_⟩
  · have hle := (htrace.defined.count_le (Flagged config id) (ServerEvent.isMove id)
      (fun s => (s.task id).pc.remaining) hkeep ?_ ?_ hinit).2
    · exact Nat.le_trans hle (remaining_le _)
    · intro t e u ht hstep hmove
      rcases ht.moves hstep with ⟨hother, _⟩ | ⟨event, rfl, hmoves⟩
      · rw [hmove] at hother
        cases hother
      · exact hmoves.remaining_lt
    · intro t e u ht hstep hmove
      rcases ht.moves hstep with ⟨_, hsame⟩ | ⟨event, rfl, _⟩
      · rw [hsame]
      · exact absurd rfl (of_decide_eq_false hmove)
  · have hle := (htrace.defined.count_le (Flagged config id) (ServerEvent.isCall id)
      (fun s => (s.task id).pc.calls) hkeep ?_ ?_ hinit).2
    · exact Nat.le_trans (Nat.le_of_add_right_le hle) (calls_le _)
    · intro t e u ht hstep hcall
      rcases ht.moves hstep with ⟨hother, _⟩ | ⟨event, rfl, hmoves⟩
      · exact absurd hcall (not_isCall_of_not_isMove hother)
      · have hle := hmoves.calls_le
        rw [if_pos (Bool.and_eq_true_iff.mp hcall).2] at hle
        exact hle
    · intro t e u ht hstep _
      rcases ht.moves hstep with ⟨_, hsame⟩ | ⟨event, rfl, hmoves⟩
      · rw [hsame]
      · exact Nat.le_of_add_right_le hmoves.calls_le
  · intro hrunning howned
    obtain ⟨event, t', hstep⟩ := hrunning.moves (t.manager.session id).stop
    exact ⟨event, _, orUndefined_some (fun hused => hused.1 howned)
      (by simp only [TcpServer.step, hstep, Option.map_some]; rfl)⟩

/-- A session is stopped while it waits for a read and the accept loop has not yet let
go of it. -/
def stoppedReading : List ServerEvent :=
  [.listen true, .acceptTest, .connection, .resume true, .spawn, .admission 0,
    .session 0 (.enter true), .session 0 .test, .setStop, .closeAcceptor, .stopAll]

/-- A request still reaches it, and is answered. -/
def lastRequest : List ServerEvent :=
  [.session 0 (.readDone (.ok eightCoilsRead)), .session 0 (.handled (some .empty)),
    .session 0 (.written none 0), .session 0 .test]

theorem stopped_session_ends_last :
    ∃ s t, exec TcpServer.checkedStep (fun _ _ => True) (some (.initial .default)) stoppedReading =
        some (some s) ∧
      exec TcpServer.checkedStep (fun _ _ => True) (some s) lastRequest = some (some t) ∧
      (t.task 0).pc = .finished .stopped ∧
      lastRequest.countP (ServerEvent.isMove 0) + (t.task 0).pc.remaining ≤ 5 ∧
      lastRequest.countP (ServerEvent.isCall 0) ≤ 1 ∧
      ((t.task 0).pc.Running → Owned t 0 →
        ∃ event u, TcpServer.checkedStep (some t) (.session 0 event) = some (some u)) :=
  ⟨_, _, rfl, rfl, rfl, stopped_session_ends .default _ _ 0 lastRequest
    (Run.of_exec stoppedReading rfl) rfl (Trace.of_exec lastRequest rfl)⟩

/-! ## The whole server -/

/-- How many steps the accept loop has left once `stop` has returned. -/
def AcceptPc.remaining : AcceptPc → Nat
  | .starting | .spawned _ => 2
  | .testing | .accepting => 1
  | .ready | .holding _ | .done => 0

def TcpServer.remaining (s : TcpServer) : Nat :=
  s.acceptPc.remaining + ∑ id ∈ Finset.range s.next, (s.task id).pc.remaining

/-- Every session that has not returned is giving its slot back, with nothing to report. -/
def Settled (s : TcpServer) : Prop :=
  ∀ id, (s.task id).pc.Running → (s.task id).pc = .releasing false

theorem Settled.remaining_le {s : TcpServer} (hs : Settled s) : s.remaining ≤ 2 + s.next := by
  have haccept : s.acceptPc.remaining ≤ 2 := by
    cases s.acceptPc <;> exact of_decide_eq_true rfl
  have htask : ∀ id, (s.task id).pc.remaining ≤ 1 := by
    intro id
    have hpc := hs id
    generalize (s.task id).pc = pc at hpc
    cases pc with
    | unborn | finished => exact Nat.zero_le _
    | _ =>
      rw [hpc trivial]
      exact Nat.le_refl _
  have hsum : ∑ id ∈ Finset.range s.next, (s.task id).pc.remaining ≤
      ∑ _id ∈ Finset.range s.next, 1 := Finset.sum_le_sum fun id _ => htask id
  rw [Finset.sum_const_nat fun _ _ => rfl, Finset.card_range] at hsum
  unfold TcpServer.remaining
  omega

/-- Nothing is on its way into the manager, and every session is flagged. -/
structure Draining (s u : TcpServer) : Prop where
  quiet : Quiet s u
  numbered : Numbered u
  flagged : ∀ id, (u.task id).pc ≠ .unborn → (u.manager.session id).stop = true

/-- The move of a session uses up one of its moves. -/
theorem remaining_session {u : TcpServer} {id : SessionId} {event : TaskEvent} {t : Task}
    (hid : id < u.next) (h : TaskMoves true (u.task id).pc event t.pc) :
    TcpServer.remaining { u with
      task := Function.update u.task id t, manager := u.managerAfter id event } < u.remaining := by
  unfold TcpServer.remaining
  refine Nat.add_lt_add_left (Finset.sum_lt_sum (fun x _ => ?_) ⟨id, Finset.mem_range.mpr hid, ?_⟩) _
  · by_cases hne : x = id
    · subst hne
      simp only [Function.update_self]
      exact Nat.le_of_lt h.remaining_lt
    · simp only [Function.update_of_ne hne, Nat.le_refl]
  · simp only [Function.update_self]
    exact h.remaining_lt

/-- Whatever moves next uses up a step. -/
theorem Draining.step {s u u' : TcpServer} {e : ServerEvent} (hu : Draining s u)
    (h : u.step e = some u') : Draining s u' ∧ u'.remaining < u.remaining := by
  have hmoves := server_moves h
  have hquiet := quiet_step hu.quiet hmoves
  have hnumbered := numbered_step hu.numbered hmoves
  have haccept : ∀ {pc : AcceptPc}, u'.acceptPc = pc → u'.task = u.task → u'.next = u.next →
      pc.remaining < u.acceptPc.remaining → u'.remaining < u.remaining := by
    intro pc hpc htask hnext hlt
    unfold TcpServer.remaining
    rw [hpc, htask, hnext]
    exact Nat.add_lt_add_right hlt _
  cases hmoves with
  | listen pc | leave pc | acceptError pc | drop pc =>
    exact ⟨⟨hquiet, hnumbered, hu.flagged⟩, haccept rfl rfl rfl (by rw [pc]; exact Nat.lt_succ_self _)⟩
  | await _ hstop =>
    have hset := hu.quiet.stop
    rw [hstop] at hset
    cases hset
  | connection pc hopen =>
    have hclosed := hu.quiet.closed pc
    rw [hopen] at hclosed
    cases hclosed
  | resume pc | acceptThrew pc => exact absurd pc hu.quiet.none.ready
  | spawn pc => exact absurd pc (hu.quiet.none.holding _)
  | admitted hid | refused hid =>
    rw [hu.quiet.none.pending] at hid
    exact absurd hid (Finset.notMem_empty _)
  | @session id event t moves =>
    have hstop := hu.flagged id moves.born
    rw [hstop] at moves
    refine ⟨⟨hquiet, hnumbered, fun x hx => ?_⟩,
      remaining_session (hu.numbered.born id moves.born).1 moves⟩
    refine stop_step (server_moves h) (hu.flagged x ?_)
    by_cases hne : x = id
    · rw [hne]
      exact moves.born
    · simp only [Function.update_of_ne hne] at hx
      exact hx
  | setStop pc | closeAcceptor pc | stopAll pc =>
    rw [hu.quiet.stopPc] at pc
    cases pc

/-- Where nothing more can happen, everything has returned. -/
theorem Draining.rest {s u : TcpServer} (hu : Draining s u) (hrest : ∀ e, u.step e = none) :
    u.acceptPc = .done ∧ ∀ id, ¬ (u.task id).pc.Running := by
  refine ⟨?_, fun id hrunning => ?_⟩
  · cases hpc : u.acceptPc with
    | starting =>
      have hnone := hrest (.listen true)
      rw [TcpServer.step, if_pos hpc] at hnone
      cases hnone
    | testing =>
      have hnone := hrest .acceptTest
      rw [TcpServer.step, if_pos hpc] at hnone
      cases hnone
    | accepting =>
      have hnone := hrest .acceptError
      rw [TcpServer.step, if_pos hpc] at hnone
      cases hnone
    | spawned id =>
      have hnone := hrest .drop
      rw [TcpServer.step, hpc] at hnone
      cases hnone
    | ready => exact absurd hpc hu.quiet.none.ready
    | holding id => exact absurd hpc (hu.quiet.none.holding id)
    | done => rfl
  · obtain ⟨event, t, hstep⟩ := hrunning.moves (u.manager.session id).stop
    have hnone := hrest (.session id event)
    rw [TcpServer.step, hstep] at hnone
    cases hnone

/-- Once `stop_all` has run, with nothing on its way into the manager, all sessions are
flagged. -/
theorem draining_stopAll {config : ServerConfig} {s t : TcpServer}
    (h : Reachable TcpServer.step (.initial config) s) (hpc : s.stopPc = .closed)
    (hnone : NoneWaiting s) (ht : s.step .stopAll = some t) : Draining s t := by
  obtain ⟨hflagged, hclosed⟩ := stopping_of_run h
  have hrun : Reachable TcpServer.step (.initial config) t := .tail h trivial ht
  have hnumbered : Numbered t := hrun.invariant Numbered (numbered_initial config)
    fun _ _ _ hs _ hstep => numbered_step hs (server_moves hstep)
  have hconsistent := ManagerRun.consistent_of_reachable (manager_run hrun)
  have hstop : s.stop = true := by
    apply hflagged
    rw [hpc]
    exact nofun
  rw [TcpServer.step, if_pos hpc] at ht
  cases ht
  refine ⟨⟨hstop, rfl, ⟨hnone.pending, hnone.ready, hnone.holding⟩, hclosed (.inl hpc), rfl,
    fun _ h => h⟩, hnumbered, fun id hid => ?_⟩
  rcases hconsistent.offered id (mem_offered.mpr (hnumbered.born id hid)) with ⟨hin, _⟩ | ⟨_, hhalted⟩
  · exact absurd hin (Finset.notMem_empty id)
  · exact congrArg Session.stop hhalted

/-! ## Who is destroyed -/

/-- A move is made by a coroutine that has not returned. -/
theorem TaskMoves.running {stop : Bool} {pc pc' : TaskPc} {e : TaskEvent}
    (h : TaskMoves stop pc e pc') : pc.Running := by
  cases h <;> exact trivial

/-- A session that gives its slot back owns itself, so none of these is destroyed. -/
theorem Settled.defined {u : TcpServer} (hu : Settled u) (e : ServerEvent) :
    ¬ UsesDestroyed u e := by
  cases e with
  | session id event =>
    rintro ⟨hdestroyed, hsome⟩
    obtain ⟨t, ht⟩ := Option.isSome_iff_exists.mp hsome
    refine hdestroyed (.inr (.inr (.inr (.inr ?_))))
    rw [hu id (step_moves ht).running]
    rfl
  | _ => exact id

theorem Settled.step {s u u' : TcpServer} {e : ServerEvent} (hu : Settled u)
    (hdraining : Draining s u) (h : u.step e = some u') : Settled u' := by
  cases server_moves h with
  | admitted hid | refused hid =>
    rw [hdraining.quiet.none.pending] at hid
    exact absurd hid (Finset.notMem_empty _)
  | @session x event t moves =>
    intro id hrun
    by_cases hne : id = x
    · subst hne
      have hpc := hu id moves.running
      rw [hpc] at moves
      simp only [Function.update_self] at hrun
      generalize t.pc = pc' at moves hrun
      cases moves
      exact hrun.elim
    · simp only [Function.update_of_ne hne] at hrun ⊢
      exact hu id hrun
  | _ => exact hu

/-- A session that nobody owns has a move, and that is made in freed memory. -/
theorem destroyed_moves {u : TcpServer} {id : SessionId} (hrun : (u.task id).pc.Running)
    (hdestroyed : ¬ Owned u id) : Reachable TcpServer.checkedStep (some u) none := by
  obtain ⟨event, t, hstep⟩ := hrun.moves (u.manager.session id).stop
  refine .single trivial (a := .session id event) (orUndefined_none ⟨hdestroyed, ?_⟩)
  rw [hstep]
  rfl

/-- A session that has an error to report gives its slot back first. -/
theorem release_reports {u : TcpServer} {id : SessionId}
    (hpc : (u.task id).pc = .releasing true) :
    ∃ v, u.step (.session id .release) = some v ∧ (v.task id).pc = .reporting ∧
      v.acceptPc = u.acceptPc ∧ v.pending = u.pending ∧ id ∉ v.manager.sessions := by
  have hstep : (u.task id).step (u.manager.session id).stop .release =
      some ⟨.reporting, { (u.task id).state with released := true }⟩ := by
    unfold Task.step
    rw [hpc]
    rfl
  have hnext : u.step (.session id .release) = some { u with
      task := Function.update u.task id
        ⟨.reporting, { (u.task id).state with released := true }⟩
      manager := u.managerAfter id .release } := by
    simp only [TcpServer.step, hstep, Option.map_some]
  refine ⟨_, hnext, ?_, rfl, rfl, Finset.notMem_erase id _⟩
  simp only [Function.update_self]

/-- Without an entry in `sessions_` a running session is destroyed now or, when it has an
error to report, as soon as it has given its slot back. -/
theorem unmanaged_destroyed {u : TcpServer} {id : SessionId} (hrun : (u.task id).pc.Running)
    (hpc : (u.task id).pc ≠ .releasing false)
    (hholding : ∀ x, u.acceptPc ≠ .holding x) (hspawned : ∀ x, u.acceptPc ≠ .spawned x)
    (hpending : u.pending = ∅) (hsessions : u.manager.sessions = ∅) :
    Reachable TcpServer.checkedStep (some u) none := by
  have hout : ∀ x, x ∉ u.pending ∧ x ∉ u.manager.sessions := by
    intro x
    rw [hpending, hsessions]
    exact ⟨Finset.notMem_empty x, Finset.notMem_empty x⟩
  cases howns : (u.task id).pc.ownsItself with
  | false =>
    exact destroyed_moves hrun (not_owned (hholding id) (hspawned id) (hout id).1 (hout id).2 howns)
  | true =>
    have hreleasing : (u.task id).pc = .releasing true := by
      generalize (u.task id).pc = pc at hpc howns
      cases pc with
      | releasing report =>
        cases report with
        | false => exact absurd rfl hpc
        | true => rfl
      | _ => cases howns
    obtain ⟨v, hnext, hreporting, haccept, hpending', hreleased⟩ := release_reports hreleasing
    have hdefined : ¬ UsesDestroyed u (.session id .release) :=
      fun hused => hused.1 (.inr (.inr (.inr (.inr howns))))
    refine (Run.single trivial (orUndefined_some hdefined hnext)).trans
      (@destroyed_moves v id (by rw [hreporting]; trivial) ?_)
    refine not_owned ?_ ?_ ?_ hreleased (by rw [hreporting]; rfl)
    · rw [haccept]
      exact hholding id
    · rw [haccept]
      exact hspawned id
    · rw [hpending']
      exact (hout id).1

/-- After a `stop_all` with nothing on its way into the manager, no destroyed session is
used exactly when the sessions were settled. -/
theorem stopAll_safe_iff {s t : TcpServer} (hnone : NoneWaiting s) (ht : s.step .stopAll = some t)
    (hdraining : Draining s t) :
    (∀ u, Reachable TcpServer.checkedStep (some t) u → u ≠ none) ↔ Settled s := by
  obtain ⟨hpc, hs⟩ := Option.ite_none_right_eq_some.mp ht
  cases hs
  constructor
  · intro hsafe id hrun
    refine Decidable.byContradiction fun hne => ?_
    by_cases hspawned : ∃ x, s.acceptPc = .spawned x
    · -- the accept loop lets go of the session it accepted last
      obtain ⟨x, hx⟩ := hspawned
      have hdrop : TcpServer.step { s with manager := s.manager.stopAll, stopPc := .returned } .drop =
          some { s with
            manager := s.manager.stopAll, stopPc := .returned, acceptPc := .testing } := by
        simp only [TcpServer.step, hx]
      refine hsafe none ((Run.single trivial
        (orUndefined_some (fun hused => hused) hdrop)).trans ?_) rfl
      refine unmanaged_destroyed hrun hne ?_ ?_ hnone.pending rfl
      · intro x hpc
        cases hpc
      · intro x hpc
        cases hpc
    · exact hsafe none (unmanaged_destroyed hrun hne hnone.holding
        (fun x hx => hspawned ⟨x, hx⟩) hnone.pending rfl) rfl
  · intro hsettled u hrun
    have hsafe : ∃ v, u = some v ∧ Draining s v ∧ Settled v := by
      refine hrun.invariant (fun u => ∃ v, u = some v ∧ Draining s v ∧ Settled v)
        ⟨_, rfl, hdraining, hsettled⟩ ?_
      rintro _ e u' ⟨v, rfl, hv, hsettled⟩ _ hnext
      simp only [TcpServer.checkedStep, orUndefined, if_neg (hsettled.defined e)] at hnext
      obtain ⟨v', hstep, rfl⟩ := Option.map_eq_some_iff.mp hnext
      exact ⟨v', rfl, (hv.step hstep).1, hsettled.step hv hstep⟩
    obtain ⟨v, rfl, _⟩ := hsafe
    intro hundefined
    cases hundefined

/-- Let nothing be on its way into the manager when `tcp_server::stop` comes to its
`stop_all`. What follows uses no destroyed session exactly when every session that has not
returned is giving its slot back; then the server makes at most two steps more and one for
each session, whatever the environment does, and where it cannot make another, the accept
loop and every session have returned. -/
theorem shutdown_completes (config : ServerConfig) (s t : TcpServer)
    (h : Reachable TcpServer.checkedStep (some (.initial config)) (some s))
    (hpc : s.stopPc = .closed) (hnone : NoneWaiting s) (ht : s.step .stopAll = some t) :
    ((∀ u, Reachable TcpServer.checkedStep (some t) u → u ≠ none) ↔ Settled s) ∧
      (Settled s → ∀ events u, Trace TcpServer.step t events u →
        events.length ≤ 2 + s.next ∧
          ((∀ e, u.step e = none) → u.acceptPc = .done ∧ ∀ id, ¬ (u.task id).pc.Running)) := by
  have hdraining := draining_stopAll h.defined.reachable hpc hnone ht
  refine ⟨stopAll_safe_iff hnone ht hdraining, fun hsettled events u htrace => ?_⟩
  obtain ⟨hu, hle⟩ := htrace.count_le (Draining s) (fun _ => true) TcpServer.remaining
    (fun _ _ _ hs hstep => (hs.step hstep).1) (fun _ _ _ hs hstep _ => (hs.step hstep).2)
    (fun _ _ _ _ _ h => nomatch h) hdraining
  refine ⟨?_, hu.rest⟩
  rw [TcpServer.step, if_pos hpc] at ht
  cases ht
  rw [List.countP_true] at hle
  have hbound : TcpServer.remaining { s with manager := s.manager.stopAll, stopPc := .returned } ≤
      2 + s.next := Settled.remaining_le (s := { s with
        manager := s.manager.stopAll, stopPc := .returned }) hsettled
  exact Nat.le_trans (Nat.le_of_add_right_le hle) hbound

/-- The client of the one session has disconnected, and the session is just giving its slot
back when the server is stopped. -/
def stoppedReleasing : List ServerEvent :=
  firstSession ++ [.session 0 (.readDone (.error .eof)), .acceptTest, .setStop, .closeAcceptor]

theorem shutdown_completes_releasing :
    ∃ s t u, exec TcpServer.checkedStep (fun _ _ => True) (some (.initial .default))
        stoppedReleasing = some (some s) ∧
      s.step .stopAll = some t ∧
      exec TcpServer.step (fun _ _ => True) t [.session 0 .release, .acceptError] = some u ∧
      Settled s ∧ (∀ u, Reachable TcpServer.checkedStep (some t) u → u ≠ none) ∧ 2 ≤ 2 + s.next ∧
      ((∀ e, u.step e = none) → u.acceptPc = .done ∧ ∀ id, ¬ (u.task id).pc.Running) := by
  obtain ⟨s, t, u, hs, ht, hu, hpc, hnone, hsettled⟩ : ∃ s t u,
      exec TcpServer.checkedStep (fun _ _ => True) (some (.initial .default)) stoppedReleasing =
        some (some s) ∧
      s.step .stopAll = some t ∧
      exec TcpServer.step (fun _ _ => True) t [.session 0 .release, .acceptError] = some u ∧
      s.stopPc = .closed ∧ NoneWaiting s ∧ Settled s := by
    refine ⟨_, _, _, rfl, rfl, rfl, rfl, ⟨rfl, nofun, nofun⟩, fun id hrun => ?_⟩
    by_cases hne : id = 0
    · subst hne
      rfl
    · cases id with
      | zero => exact absurd rfl hne
      | succ id => exact hrun.elim
  obtain ⟨hiff, hcompletes⟩ := shutdown_completes .default s t (Run.of_exec stoppedReleasing hs)
    hpc hnone ht
  exact ⟨s, t, u, hs, ht, hu, hsettled, hiff.mpr hsettled,
    hcompletes hsettled [.session 0 .release, .acceptError] u (Trace.of_exec _ hu)⟩

end Modbus.Server
