import Modbus.Lib.Stream
import Modbus.Core.RoundTrip

/-! # A server session (`modbus/server/tcp_session.cpp`)

`start` reads into one buffer of `MAX_APU_SIZE` bytes that it reuses for every
request, so behind the bytes of a read lie the leftovers of the reads before it.
One `Round` is what the environment does during one pass of the loop; the session
itself is a step function on its state, and a run ends when the loop is left or
when the rounds are used up and the session waits for the next read. Logging is
left out. -/
namespace Modbus.Server
open Bytes TcpDataUnit Stream

/-- What one `async_read_some` delivers: at least a byte, at most the buffer. -/
structure Chunk where
  bytes : Buffer
  nonempty : bytes ≠ []
  fits : bytes.length ≤ maxApuSize
deriving Repr

/-- The socket errors the session tells apart. -/
inductive SocketError where
  | eof
  | operationAborted
  | other (code : Nat)
deriving DecidableEq, Repr

structure Round where
  /-- `stop_`, when the loop tests it. -/
  stop : Bool
  read : Except SocketError Chunk
  /-- The request handler's coroutine: a response, or an exception. -/
  handler : TcpDataUnit → Option TcpDataUnit
  writeError : Option SocketError
  bytesWritten : Nat

structure SessionState where
  buf : Buffer
  /-- The requests given to the handler. -/
  handed : List TcpDataUnit
  /-- The bytes written to the client. -/
  sent : Buffer
  /-- `session_manager_.stop(shared_from_this())` was called. -/
  released : Bool
deriving DecidableEq, Repr

/-- How `start` is left: the loop test, a `break`, or an exception. -/
inductive Exit where
  | stopped
  | broke
  | threw
deriving DecidableEq, Repr

namespace SessionState

def initial : SessionState := ⟨List.replicate maxApuSize 0, [], [], false⟩

/-- The read overwrites the front of the buffer. -/
def receive (s : SessionState) (chunk : Buffer) : SessionState :=
  { s with buf := chunk ++ s.buf.drop chunk.length }

/-- The part of a round after the request was handed over. -/
def respond (s : SessionState) (r : Round) (request : TcpDataUnit) : SessionState × Option Exit :=
  let s := { s with handed := s.handed ++ [request] }
  match r.handler request with
  | none => (s, some .threw)
  | some response =>
    let s := { s with sent := s.sent ++ response.buffer.take r.bytesWritten }
    match r.writeError with
    | none => (s, none)
    -- the source tests the error of the read here, which is none
    | some .operationAborted => (s, none)
    | some _ => ({ s with released := true }, some .broke)

/-- One pass of the loop. -/
def step (s : SessionState) (r : Round) : SessionState × Option Exit :=
  if r.stop then
    (s, some .stopped)
  else
    match r.read with
    | .error .operationAborted => (s, some .broke)
    | .error _ => ({ s with released := true }, some .broke)
    | .ok chunk =>
      let s := s.receive chunk.bytes
      if chunk.bytes.length < tcpHeaderSize + minPduSize then
        (s, none)
      else
        match ofBuffer s.buf chunk.bytes.length .request with
        | .error _ => (s, some .threw)
        | .ok request => s.respond r request

def run : SessionState → List Round → SessionState × Option Exit
  | s, [] => (s, none)
  | s, r :: rounds =>
    match s.step r with
    | (s, none) => s.run rounds
    | (s, some e) => (s, some e)

end SessionState

/-- What the round read. -/
def Round.received (r : Round) : Buffer :=
  match r.read with
  | .ok chunk => chunk.bytes
  | .error _ => []

/-- A round in which nothing goes wrong around the session: it is not stopped, the
read delivers bytes, the handler responds and the write succeeds. -/
structure Round.Clean (r : Round) : Prop where
  running : r.stop = false
  reads : ∃ chunk, r.read = .ok chunk
  responds : ∀ request, ∃ response, r.handler request = some response
  writes : r.writeError = none

end Modbus.Server
