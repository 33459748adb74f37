import Modbus.Lib.Stream
import Modbus.Core.Frame

/-! # The client (`modbus/client/tcp_client.cpp`)

A connection is what the server sends on it over its whole life, less what the
client has read. How a read ends (complete, timed out after some bytes, closed) is
the environment's choice, made for every read of a call in its `plan`, and so are
the number of bytes that `bytes_available` reports and the outcome of the write. A
connection survives the timeout of a call and goes back to the pool with its unread
bytes. Logging is left out, and the pool is in `Pool.lean`. -/
namespace Modbus.Client
open Bytes TcpDataUnit Stream

/-- The errors of the connection; the client tells only timeouts apart. -/
inductive NetError where
  | timedOut
  | other (code : Nat)
deriving DecidableEq, Repr

/-- What a `cpool::error` of the client holds when it is not empty. -/
inductive ClientError where
  | net (error : NetError)
  | shortWrite (size written : Nat)
  | malformedMessage
  | writeTimeout
  | readTimeout
  | invalidResponse
  | disconnected
  | stopped
deriving DecidableEq, Repr

/-- `read_response_t`. -/
structure ReadResponse where
  response : TcpDataUnit
  error : Option ClientError
deriving DecidableEq, Repr

structure Connection where
  source : Source Byte NetError
  /-- A history variable: what was unread when each `read_response` began. -/
  starts : List Buffer
deriving DecidableEq, Repr

/-- A fresh buffer of `MAX_APU_SIZE` zero bytes with the received ones at its
front. -/
def readBuffer (received : Buffer) : Buffer :=
  received ++ List.replicate (maxApuSize - received.length) 0

def readResponse (c : Connection) : Except Exn ReadResponse × Connection :=
  let starts := c.starts ++ [c.source.rest]
  match read NetError.timedOut tcpHeaderSize c.source with
  | (some e, _, source) => (.ok ⟨empty, some (.net e)⟩, ⟨source, starts⟩)
  | (none, head, source) =>
    if head.length ≠ tcpHeaderSize then
      (.ok ⟨empty, some .malformedMessage⟩, ⟨source, starts⟩)
    else
      let messageLength := lengthField (readBuffer head)
      if messageLength + tcpHeaderSize > maxApuSize then
        (.ok ⟨empty, some .invalidResponse⟩, ⟨source, starts⟩)
      else
        match read NetError.timedOut messageLength source with
        | (some e, _, source) => (.ok ⟨empty, some (.net e)⟩, ⟨source, starts⟩)
        | (none, body, source) =>
          if body.length ≠ messageLength then
            (.ok ⟨empty, some .disconnected⟩, ⟨source, starts⟩)
          else
            match ofBuffer (readBuffer (head ++ body)) (body.length + tcpHeaderSize) .response with
            | .error e => (.error e, ⟨source, starts⟩)
            | .ok response => (.ok ⟨response, none⟩, ⟨source, starts⟩)

/-! ## What a read leaves behind -/

/-- A read of a response ends with an error of its own, or it hands the constructor a
header and as many bytes as the length field announces, and nothing else was read. -/
theorem readResponse_cases (c : Connection) :
    ∃ c', c'.starts = c.starts ++ [c.source.rest] ∧
      ((∃ e, readResponse c = (.ok ⟨empty, some e⟩, c')) ∨
        ∃ head body, head.length = tcpHeaderSize ∧ body.length = lengthField (readBuffer head) ∧
          body.length + tcpHeaderSize ≤ maxApuSize ∧
          head ++ (body ++ c'.source.rest) = c.source.rest ∧
          readResponse c = ((ofBuffer (readBuffer (head ++ body)) (body.length + tcpHeaderSize)
            .response).map fun du => ⟨du, none⟩, c')) := by
  unfold readResponse
  split
  · exact ⟨_, rfl, .inl ⟨_, rfl⟩⟩
  · next head src hhead =>
    dsimp only
    split
    · exact ⟨_, rfl, .inl ⟨_, rfl⟩⟩
    · next hlen =>
      split
      · exact ⟨_, rfl, .inl ⟨_, rfl⟩⟩
      · next hfit =>
        split
        · exact ⟨_, rfl, .inl ⟨_, rfl⟩⟩
        · next body src' hbody =>
          split
          · exact ⟨_, rfl, .inl ⟨_, rfl⟩⟩
          · next hblen =>
            have h1 := read_append _ hhead
            have h2 := read_append _ hbody
            refine ⟨⟨src', c.starts ++ [c.source.rest]⟩, rfl, .inr ⟨head, body,
              Decidable.not_not.mp hlen, Decidable.not_not.mp hblen, ?_, ?_, ?_⟩⟩
            · rw [Decidable.not_not.mp hblen]
              exact Nat.le_of_not_lt hfit
            · rw [h2, h1]
            · split
              · next hdu => rw [hdu]; rfl
              · next hdu => rw [hdu]; rfl

theorem readResponse_starts (c : Connection) :
    (readResponse c).2.starts = c.starts ++ [c.source.rest] := by
  obtain ⟨c', hstarts, ⟨e, h⟩ | ⟨head, body, _, _, _, _, h⟩⟩ := readResponse_cases c
  · rw [h, hstarts]
  · rw [h, hstarts]

/-- A response returned without an error is a header and its message. -/
theorem readResponse_ok {c c' : Connection} {du : TcpDataUnit}
    (h : readResponse c = (.ok ⟨du, none⟩, c')) :
    ∃ head body, head.length = tcpHeaderSize ∧ body.length = lengthField (readBuffer head) ∧
      body.length + tcpHeaderSize ≤ maxApuSize ∧ head ++ (body ++ c'.source.rest) = c.source.rest ∧
      du = ⟨readBuffer (head ++ body), .response⟩ := by
  obtain ⟨c'', _, ⟨e, h'⟩ | ⟨head, body, hhead, hbody, hfits, happ, h'⟩⟩ := readResponse_cases c
  · rw [h] at h'
    cases h'
  · rw [h] at h'
    cases hdu : ofBuffer (readBuffer (head ++ body)) (body.length + tcpHeaderSize) .response with
    | error e =>
      rw [hdu] at h'
      cases h'
    | ok du' =>
      rw [hdu] at h'
      cases h'
      obtain ⟨_, _, _, hsame⟩ := ofBuffer_ok_iff.mp hdu
      exact ⟨head, body, hhead, hbody, hfits, happ, hsame⟩

/-- So the loop around it makes progress. -/
theorem readResponse_consumes {c c' : Connection} {du : TcpDataUnit}
    (h : readResponse c = (.ok ⟨du, none⟩, c')) :
    c'.source.rest.length < c.source.rest.length := by
  obtain ⟨head, body, hhead, _, _, happ, _⟩ := readResponse_ok h
  rw [← happ, List.length_append, List.length_append, hhead]
  unfold tcpHeaderSize
  omega

/-! ## A call -/

/-- One `send_request` and what the environment does during it. -/
structure Call where
  request : TcpDataUnit
  /-- The pool handed out a connection. -/
  connected : Bool
  /-- `bytes_available()`. -/
  available : Except NetError Nat
  writeError : Option NetError
  bytesWritten : Nat
  /-- How the reads of the call end. -/
  plan : List (Option (Cut NetError))
deriving DecidableEq, Repr

/-- `transaction_id_++`. -/
def reserveTransactionId (transactionId : Word) : Word × Word :=
  (transactionId, transactionId + 1)

def clearBuffer (available : Except NetError Nat) (c : Connection) :
    Option ClientError × Connection :=
  match available with
  | .error _ => (some .disconnected, c)
  | .ok bytesAvailable =>
    if bytesAvailable > 0 then
      match read NetError.timedOut bytesAvailable c.source with
      | (some e, _, source) => (some (.net e), { c with source })
      | (none, ignored, source) =>
        if ignored.length ≠ bytesAvailable then
          (some .disconnected, { c with source })
        else
          (none, { c with source })
    else
      (none, c)

/-- `send_request(connection, buf)`. -/
def writeRequest (call : Call) : Option ClientError :=
  match call.writeError with
  | some e => some (.net e)
  | none =>
    if call.bytesWritten ≠ call.request.buffer.length then
      some (.shortWrite call.request.buffer.length call.bytesWritten)
    else
      none

/-- The loop that drops responses with a smaller transaction id. -/
def readLoop (transactionId : Word) (c : Connection) : Except Exn ReadResponse × Connection :=
  match _h : readResponse c with
  | (.error e, c') => (.error e, c')
  | (.ok ⟨response, some e⟩, c') => (.ok ⟨response, some e⟩, c')
  | (.ok ⟨response, none⟩, c') =>
    match response.transactionId with
    | .error e => (.error e, c')
    | .ok received =>
      if received < transactionId then
        readLoop transactionId c'
      else
        (.ok ⟨response, none⟩, c')
termination_by c.source.rest.length
decreasing_by exact readResponse_consumes _h

def sendRequest (call : Call) (c : Connection) : Except Exn ReadResponse × Connection :=
  if !call.connected then
    (.ok ⟨empty, some .stopped⟩, c)
  else
    match clearBuffer call.available { c with source := ⟨c.source.rest, call.plan⟩ } with
    | (some e, c) => (.ok ⟨empty, some e⟩, c)
    | (none, c) =>
      match call.request.transactionId with
      | .error e => (.error e, c)
      | .ok transactionId =>
        match writeRequest call with
        | some (.net .timedOut) => (.ok ⟨empty, some .writeTimeout⟩, c)
        | some e => (.ok ⟨empty, some e⟩, c)
        | none =>
          match readLoop transactionId c with
          | (.ok ⟨response, some (.net .timedOut)⟩, c) => (.ok ⟨response, some .readTimeout⟩, c)
          | (result, c) => (result, c)

/-- The calls made on one connection, one after the other. -/
def runCalls (c : Connection) (calls : List Call) : Connection :=
  calls.foldl (fun c call => (sendRequest call c).2) c

/-! ## What a call does to its connection -/

/-- After a response the loop goes on when the response's id is smaller. -/
theorem readLoop_response {transactionId received : Word} {c c' : Connection} {du : TcpDataUnit}
    (h : readResponse c = (.ok ⟨du, none⟩, c')) (hid : du.transactionId = .ok received) :
    readLoop transactionId c =
      if received < transactionId then readLoop transactionId c' else (.ok ⟨du, none⟩, c') := by
  rw [readLoop]
  split
  · next h' =>
    rw [h] at h'
    cases h'
  · next h' =>
    rw [h] at h'
    cases h'
  · next h' =>
    rw [h] at h'
    cases h'
    rw [hid]

/-- After anything else the loop is left. -/
theorem readLoop_failure {transactionId : Word} {c : Connection}
    (h : ∀ r c', readResponse c ≠ (.ok ⟨r, none⟩, c')) :
    readLoop transactionId c = readResponse c := by
  rw [readLoop]
  split
  · next h' => rw [h']
  · next h' => rw [h']
  · next h' => exact absurd h' (h _ _)

theorem clearBuffer_starts (available : Except NetError Nat) (c : Connection) :
    (clearBuffer available c).2.starts = c.starts := by
  unfold clearBuffer
  split
  · rfl
  · split
    · split
      · rfl
      · split <;> rfl
    · rfl

/-- A clearing that succeeds drops what was available. -/
theorem clearBuffer_ok {available : Except NetError Nat} {c c' : Connection}
    (h : clearBuffer available c = (none, c')) :
    ∃ n, available = .ok n ∧ c'.source.rest = c.source.rest.drop n := by
  unfold clearBuffer at h
  split at h
  · cases h
  · next n =>
    refine ⟨n, rfl, ?_⟩
    split at h
    · split at h
      · cases h
      · next ignored source hread =>
        split at h
        · cases h
        · next hlen =>
          cases h
          exact (read_full _ hread (Decidable.not_not.mp hlen)).2
    · next hpos =>
      cases h
      rw [Nat.eq_zero_of_not_pos hpos, List.drop_zero]

/-- The call comes to read a response: it has a connection, clears what is available and
writes its request. -/
structure Call.Reads (call : Call) (c : Connection) : Prop where
  connected : call.connected = true
  cleared : (clearBuffer call.available { c with source := ⟨c.source.rest, call.plan⟩ }).1 = none
  named : ∃ id, call.request.transactionId = .ok id
  written : writeRequest call = none

/-- A call fails before it reads a response, or it clears what is available and then
does to the connection what the reading loop does. -/
theorem sendRequest_cases (call : Call) (c : Connection) :
    ((sendRequest call c).2.starts = c.starts ∧ ∀ r, (sendRequest call c).1 ≠ .ok ⟨r, none⟩) ∨
      ∃ n id c₁, call.Reads c ∧ call.available = .ok n ∧ call.request.transactionId = .ok id ∧
        c₁.source.rest = c.source.rest.drop n ∧ c₁.starts = c.starts ∧
        (sendRequest call c).2 = (readLoop id c₁).2 ∧
        ∀ r, (sendRequest call c).1 = .ok ⟨r, none⟩ → (readLoop id c₁).1 = .ok ⟨r, none⟩ := by
  have hstarts := clearBuffer_starts call.available { c with source := ⟨c.source.rest, call.plan⟩ }
  unfold sendRequest
  split
  · exact .inl ⟨rfl, fun r h => by cases h⟩
  · next hconnected =>
    split
    · next e c₁ hclear =>
      rw [hclear] at hstarts
      exact .inl ⟨hstarts, fun r h => by cases h⟩
    · next c₁ hclear =>
      rw [hclear] at hstarts
      obtain ⟨n, hn, hrest⟩ := clearBuffer_ok hclear
      split
      · exact .inl ⟨hstarts, fun r h => by cases h⟩
      · next id hid =>
        split
        · exact .inl ⟨hstarts, fun r h => by cases h⟩
        · exact .inl ⟨hstarts, fun r h => by cases h⟩
        · next hwrite =>
          have hreads : call.Reads c :=
            ⟨by simpa using hconnected, congrArg Prod.fst hclear, ⟨id, hid⟩, hwrite⟩
          refine .inr ⟨n, id, c₁, hreads, hn, hid, hrest, hstarts, ?_⟩
          split
          · next response c₂ hloop =>
            rw [hloop]
            exact ⟨rfl, fun r h => by cases h⟩
          · next result c₂ _ hloop =>
            rw [hloop]
            exact ⟨rfl, fun r h => h⟩

end Modbus.Client
