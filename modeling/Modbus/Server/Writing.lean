import Modbus.Server.Segmentation

/-! # Responses on the wire

A response is written with one `async_write_some`, which takes a non-empty prefix
of its buffer and reports how long that prefix is. The session logs the count and
goes back to reading. `writes` lists the writes of a run; what a run sent is the
reported prefix of each (`run_sent`), so it sent the responses exactly when every
write took the whole buffer. -/
namespace Modbus.Server
open Bytes TcpDataUnit Stream SessionState

/-- One `async_write_some`: the response it was given and what it reports. -/
structure Write where
  response : TcpDataUnit
  error : Option SocketError
  bytesWritten : Nat
deriving DecidableEq, Repr

/-- `async_write_some` takes at least a byte and at most what it was given. -/
def Write.Legal (w : Write) : Prop :=
  0 < w.bytesWritten ∧ w.bytesWritten ≤ w.response.buffer.length

instance (w : Write) : Decidable w.Legal := inferInstanceAs (Decidable (_ ∧ _))

def Write.sent (w : Write) : Buffer := w.response.buffer.take w.bytesWritten

/-- The write of a round whose request is handed over, when the handler produced a
response. -/
def Round.write (r : Round) (request : TcpDataUnit) : Option Write :=
  (r.handler request).map fun response => ⟨response, r.writeError, r.bytesWritten⟩

namespace SessionState

/-- The request of a round, when the session gets as far as handing it over. -/
def requestOf (s : SessionState) (r : Round) : Option TcpDataUnit :=
  match r.stop, r.read with
  | false, .ok chunk =>
    if chunk.bytes.length < tcpHeaderSize + minPduSize then
      none
    else
      (ofBuffer (s.receive chunk.bytes).buf chunk.bytes.length .request).toOption
  | _, _ => none

def writeOf (s : SessionState) (r : Round) : Option Write :=
  (s.requestOf r).bind r.write

/-- The writes of a run, in their order. -/
def writes : SessionState → List Round → List Write
  | _, [] => []
  | s, r :: rounds =>
    (s.writeOf r).toList ++
      match s.step r with
      | (s, none) => s.writes rounds
      | (_, some _) => []

end SessionState

/-- A response is handed to one write, and what the write takes is sent. -/
theorem respond_sent (s : SessionState) (r : Round) (request : TcpDataUnit) :
    (s.respond r request).1.sent =
      s.sent ++ ((r.write request).toList.map Write.sent).flatten := by
  unfold respond Round.write
  cases r.handler request with
  | none => simp
  | some response =>
    dsimp only
    split <;> simp [Write.sent]

/-- A round sends what its write takes, and nothing when it has none. -/
theorem step_sent (s : SessionState) (r : Round) :
    (s.step r).1.sent = s.sent ++ ((s.writeOf r).toList.map Write.sent).flatten := by
  unfold step writeOf requestOf
  cases hstop : r.stop with
  | true => simp
  | false =>
    simp only [Bool.false_eq_true, if_false]
    cases hread : r.read with
    | error e => cases e <;> simp
    | ok chunk =>
      dsimp only
      split
      · simp [receive]
      · cases hacc : ofBuffer (s.receive chunk.bytes).buf chunk.bytes.length .request with
        | error e => simp [receive, Except.toOption]
        | ok request =>
          dsimp only [Except.toOption]
          rw [respond_sent]
          rfl

/-- What a run sent. -/
theorem run_sent (s : SessionState) (rounds : List Round) :
    (s.run rounds).1.sent = s.sent ++ ((s.writes rounds).map Write.sent).flatten := by
  induction rounds generalizing s with
  | nil => simp [run, writes]
  | cons r rounds ih =>
    have hstep := step_sent s r
    rw [run, writes, List.map_append, List.flatten_append, ← List.append_assoc, ← hstep]
    cases hnext : s.step r with
    | mk s' exit =>
      cases exit with
      | none => exact ih s'
      | some e => simp

/-- Responses reach the client whole and in order exactly when each write takes all
of the response it was given. -/
theorem sent_eq_responses_iff (rounds : List Round) :
    (initial.run rounds).1.sent =
        ((initial.writes rounds).map fun w => w.response.buffer).flatten ↔
      ∀ w ∈ initial.writes rounds, w.response.buffer.length ≤ w.bytesWritten := by
  have hprefixes : ∀ ws : List Write, List.Forall₂ (· <+: ·) (ws.map Write.sent)
      (ws.map fun w => w.response.buffer) := by
    intro ws
    induction ws with
    | nil => exact .nil
    | cons w ws ih => exact .cons (List.take_prefix _ _) ih
  have hsent : (initial.run rounds).1.sent =
      ((initial.writes rounds).map Write.sent).flatten := run_sent initial rounds
  rw [hsent, flatten_eq_iff_of_prefixes (hprefixes _), List.map_inj_left]
  refine forall₂_congr fun w _ => ?_
  exact List.take_eq_self_iff _

/-- Two requests answered with eight bytes each; the first write takes three. -/
def shortWriteRounds : List Round :=
  let request := frame 1 eightCoils
  let response : TcpDataUnit := ⟨[0, 1, 0, 0, 0, 2, 1, 1], .response⟩
  let round := echoRound request (by decide) (by decide)
  [{ round with handler := fun _ => some response, bytesWritten := 3 },
    { round with handler := fun _ => some response, bytesWritten := 8 }]

/-- Both writes are legal and report no error, and the client gets three bytes of the
first response with the second one right behind them. -/
theorem short_write_loses_response :
    (∀ w ∈ initial.writes shortWriteRounds, w.Legal ∧ w.error = none) ∧
      (initial.run shortWriteRounds).1.sent = [0, 1, 0, 0, 1, 0, 0, 0, 2, 1, 1] ∧
      (initial.run shortWriteRounds).1.sent ≠
        ((initial.writes shortWriteRounds).map fun w => w.response.buffer).flatten := by
  refine ⟨?_, ?_, ?_⟩ <;> decide +kernel

end Modbus.Server
