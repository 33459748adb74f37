import Modbus.Lib.Transition
import Modbus.Server.Writing

/-! # The coroutine of a session (`tcp_session::start`)

`SessionState.step` takes a whole pass of the loop at once. Seen from the rest of
the server the coroutine moves in smaller steps, from one suspension to the next,
and other coroutines move in between. A task is the place where the coroutine
stands together with the state of the session. Every round of the session is a run
of its task (`task_round`). -/
namespace Modbus.Server
open Bytes TcpDataUnit Transition SessionState

/-- What the coroutine does next. -/
inductive TaskPc where
  /-- Never spawned. -/
  | unborn
  /-- It asks the socket for the remote endpoint. -/
  | spawned
  /-- It tests `stop_`. -/
  | testing
  /-- It waits for `async_read_some`. -/
  | reading
  /-- It waits for the request handler. -/
  | handling (request : TcpDataUnit)
  /-- It waits for `async_write_some`. -/
  | writing (response : TcpDataUnit)
  /-- It calls `session_manager_.stop(shared_from_this())`, after a failed read or,
  with a report to come, after a failed write. -/
  | releasing (report : Bool)
  /-- It logs the write error. -/
  | reporting
  | finished (exit : Exit)
deriving DecidableEq, Repr

/-- The coroutine exists and has not returned. In each of these places it still uses
a member of its session. -/
def TaskPc.Running : TaskPc → Prop
  | .unborn | .finished _ => False
  | _ => True

instance : DecidablePred TaskPc.Running := fun pc => by
  cases pc <;> unfold TaskPc.Running <;> infer_instance

structure Task where
  pc : TaskPc
  state : SessionState
deriving DecidableEq, Repr

inductive TaskEvent where
  /-- The endpoint is known, or asking for it throws. -/
  | enter (endpoint : Bool)
  | test
  | readDone (result : Except SocketError Chunk)
  /-- The handler's response, or none when it throws. -/
  | handled (response : Option TcpDataUnit)
  | written (error : Option SocketError) (bytesWritten : Nat)
  | release
  | report

namespace Task

def unborn : Task := ⟨.unborn, .initial⟩

/-- The coroutine as `co_spawn` leaves it. -/
def spawned : Task := ⟨.spawned, .initial⟩

/-- A read that delivered bytes. -/
def received (t : Task) (chunk : Chunk) : Task :=
  let state := t.state.receive chunk.bytes
  if chunk.bytes.length < tcpHeaderSize + minPduSize then
    ⟨.testing, state⟩
  else
    match ofBuffer state.buf chunk.bytes.length .request with
    | .error _ => ⟨.finished .threw, state⟩
    | .ok request => ⟨.handling request, { state with handed := state.handed ++ [request] }⟩

def step (stop : Bool) (t : Task) (e : TaskEvent) : Option Task :=
  match t.pc, e with
  | .spawned, .enter endpoint =>
    some { t with pc := if endpoint then .testing else .finished .threw }
  | .testing, .test => some { t with pc := if stop then .finished .stopped else .reading }
  | .reading, .readDone (.error .operationAborted) => some { t with pc := .finished .broke }
  | .reading, .readDone (.error _) => some { t with pc := .releasing false }
  | .reading, .readDone (.ok chunk) => some (t.received chunk)
  | .handling _, .handled none => some { t with pc := .finished .threw }
  | .handling _, .handled (some response) => some { t with pc := .writing response }
  | .writing response, .written error bytesWritten =>
    let state := { t.state with sent := t.state.sent ++ response.buffer.take bytesWritten }
    match error with
    | none => some ⟨.testing, state⟩
    -- the source tests the error of the read here, which is none
    | some .operationAborted => some ⟨.testing, state⟩
    | some _ => some ⟨.releasing true, state⟩
  | .releasing report, .release =>
    some ⟨if report then .reporting else .finished .broke, { t.state with released := true }⟩
  | .reporting, .report => some { t with pc := .finished .broke }
  | _, _ => none

end Task

/-! ## What a step can do -/

/-- Where an event takes the coroutine. -/
inductive TaskMoves (stop : Bool) : TaskPc → TaskEvent → TaskPc → Prop
  | entered : TaskMoves stop .spawned (.enter true) .testing
  | noEndpoint : TaskMoves stop .spawned (.enter false) (.finished .threw)
  | stopped (h : stop = true) : TaskMoves stop .testing .test (.finished .stopped)
  | waits (h : stop = false) : TaskMoves stop .testing .test .reading
  | aborted : TaskMoves stop .reading (.readDone (.error .operationAborted)) (.finished .broke)
  | readFailed {e : SocketError} (h : e ≠ .operationAborted) :
      TaskMoves stop .reading (.readDone (.error e)) (.releasing false)
  | short {chunk : Chunk} (h : chunk.bytes.length < tcpHeaderSize + minPduSize) :
      TaskMoves stop .reading (.readDone (.ok chunk)) .testing
  | malformed {chunk : Chunk} (hlong : tcpHeaderSize + minPduSize ≤ chunk.bytes.length)
      (h : chunk.bytes.length < tcpHeaderSize + lengthField chunk.bytes) :
      TaskMoves stop .reading (.readDone (.ok chunk)) (.finished .threw)
  | requested {chunk : Chunk} (request : TcpDataUnit) :
      TaskMoves stop .reading (.readDone (.ok chunk)) (.handling request)
  | handlerThrew (request : TcpDataUnit) :
      TaskMoves stop (.handling request) (.handled none) (.finished .threw)
  | responded (request response : TcpDataUnit) :
      TaskMoves stop (.handling request) (.handled (some response)) (.writing response)
  | wrote (response : TcpDataUnit) {error : Option SocketError} {n : Nat}
      (h : error = none ∨ error = some .operationAborted) :
      TaskMoves stop (.writing response) (.written error n) .testing
  | writeFailed (response : TcpDataUnit) {e : SocketError} {n : Nat}
      (h : e ≠ .operationAborted) :
      TaskMoves stop (.writing response) (.written (some e) n) (.releasing true)
  | released : TaskMoves stop (.releasing false) .release (.finished .broke)
  | releasedReport : TaskMoves stop (.releasing true) .release .reporting
  | reported : TaskMoves stop .reporting .report (.finished .broke)

theorem received_moves (stop : Bool) (s : SessionState) (chunk : Chunk) :
    TaskMoves stop .reading (.readDone (.ok chunk)) (Task.received ⟨.reading, s⟩ chunk).pc := by
  unfold Task.received
  dsimp only
  split
  · next hshort => exact .short hshort
  · next hlong =>
    have hten := Nat.le_of_not_lt hlong
    cases hacc : ofBuffer (s.receive chunk.bytes).buf chunk.bytes.length .request with
    | ok request => exact .requested request
    | error e =>
      refine .malformed hten (Nat.lt_of_not_le fun hfield => ?_)
      rw [ofBuffer_receive hten hfield] at hacc
      cases hacc

theorem step_moves {stop : Bool} {t t' : Task} {e : TaskEvent} (h : t.step stop e = some t') :
    TaskMoves stop t.pc e t'.pc := by
  obtain ⟨pc, s⟩ := t
  unfold Task.step at h
  split at h
  · next endpoint hpc =>
    cases h
    cases hpc
    cases endpoint with
    | true => exact .entered
    | false => exact .noEndpoint
  · next hpc =>
    cases h
    cases hpc
    cases stop with
    | true => exact .stopped rfl
    | false => exact .waits rfl
  · next hpc =>
    cases h
    cases hpc
    exact .aborted
  · next error hne hpc =>
    cases h
    cases hpc
    exact .readFailed hne
  · next chunk hpc =>
    cases h
    cases hpc
    exact received_moves stop s chunk
  · next request hpc =>
    cases h
    cases hpc
    exact .handlerThrew request
  · next request response hpc =>
    cases h
    cases hpc
    exact .responded request response
  · next response error n hpc =>
    cases hpc
    dsimp only at h
    split at h
    · cases h
      exact .wrote response (.inl rfl)
    · cases h
      exact .wrote response (.inr rfl)
    · next error hne =>
      cases h
      exact .writeFailed response hne
  · next report hpc =>
    cases h
    cases hpc
    cases report with
    | true => exact .releasedReport
    | false => exact .released
  · next hpc =>
    cases h
    cases hpc
    exact .reported
  · cases h

/-! ## A round of the session is a run of its task -/

/-- Where the coroutine stands after a round. -/
def pcAfter : Option Exit → TaskPc
  | none => .testing
  | some exit => .finished exit

section Rounds
variable {stop : Bool} {s : SessionState}

/-- An event leads there in one step. -/
theorem task_step {t t' : Task} (e : TaskEvent) (h : t.step stop e = some t') :
    Reachable (Task.step stop) t t' :=
  .single trivial h

/-- A failed write is followed by the release and the report. -/
theorem task_writeFailed (response : TcpDataUnit) (e : SocketError) (n : Nat)
    (he : e ≠ .operationAborted) :
    Reachable (Task.step stop) ⟨.writing response, s⟩
      ⟨.finished .broke,
        { s with sent := s.sent ++ response.buffer.take n, released := true }⟩ := by
  have hfails : Task.step stop ⟨.writing response, s⟩ (.written (some e) n) =
      some ⟨.releasing true, { s with sent := s.sent ++ response.buffer.take n }⟩ := by
    cases e with
    | eof => rfl
    | operationAborted => exact absurd rfl he
    | other code => rfl
  refine (task_step _ hfails).trans ?_
  exact (task_step .release rfl).trans (task_step .report rfl)

theorem task_respond (r : Round) (request : TcpDataUnit) :
    Reachable (Task.step stop) ⟨.handling request, { s with handed := s.handed ++ [request] }⟩
      ⟨pcAfter (s.respond r request).2, (s.respond r request).1⟩ := by
  unfold respond
  dsimp only
  cases r.handler request with
  | none => exact task_step (.handled none) rfl
  | some response =>
    refine (task_step (.handled (some response)) rfl).trans ?_
    cases r.writeError with
    | none => exact task_step (.written none r.bytesWritten) rfl
    | some e =>
      cases e with
      | operationAborted => exact task_step (.written (some .operationAborted) r.bytesWritten) rfl
      | eof => exact task_writeFailed response .eof r.bytesWritten (by decide)
      | other code => exact task_writeFailed response (.other code) r.bytesWritten (by simp)

/-- Whatever the environment does in a round, the task has a run that takes the
session through it. -/
theorem task_round (s : SessionState) (r : Round) :
    Reachable (Task.step r.stop) ⟨.testing, s⟩ ⟨pcAfter (s.step r).2, (s.step r).1⟩ := by
  unfold SessionState.step
  cases hstop : r.stop with
  | true => exact task_step .test rfl
  | false =>
    simp only [Bool.false_eq_true, if_false]
    refine (task_step .test rfl).trans ?_
    cases hread : r.read with
    | error e =>
      cases e with
      | operationAborted => exact task_step (.readDone (.error .operationAborted)) rfl
      | eof => exact (task_step (.readDone (.error .eof)) rfl).trans (task_step .release rfl)
      | other code =>
        exact (task_step (.readDone (.error (.other code))) rfl).trans (task_step .release rfl)
    | ok chunk =>
      have hdone : Task.step false ⟨.reading, s⟩ (.readDone (.ok chunk)) =
          some (Task.received ⟨.reading, s⟩ chunk) := rfl
      refine (task_step _ hdone).trans ?_
      unfold Task.received
      dsimp only
      split
      · exact .refl
      · cases ofBuffer (s.receive chunk.bytes).buf chunk.bytes.length .request with
        | error e => exact .refl
        | ok request => exact task_respond r request

end Rounds

end Modbus.Server
