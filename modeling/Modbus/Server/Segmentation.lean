import Modbus.Server.Session

/-! # Framing and segmentation

A session takes every read for one request. In a clean round it hands over at most
one request, whose frame is a prefix of what was read (`step_clean`), so over a
whole run it keeps prefixes of some of the chunks (`run_clean`). It therefore hands
over a sequence of frames exactly when every read returned one of them. -/
namespace Modbus.Server
open Bytes TcpDataUnit Stream SessionState

/-- The bytes of a unit that its header announces. -/
def requestFrame (du : TcpDataUnit) : Buffer :=
  du.buffer.take (tcpHeaderSize + lengthField du.buffer)

theorem length_receive {s : SessionState} {chunk : Buffer} (hbuf : s.buf.length = maxApuSize)
    (hfits : chunk.length ≤ maxApuSize) : (s.receive chunk).buf.length = maxApuSize := by
  simp only [receive, List.length_append, List.length_drop, hbuf]
  omega

/-- Answering a request in a clean round leaves the loop running. -/
theorem respond_clean {r : Round} (hr : r.Clean) (s : SessionState) (du : TcpDataUnit) :
    ∃ s', s.respond r du = (s', none) ∧ s'.buf = s.buf ∧ s'.handed = s.handed ++ [du] := by
  obtain ⟨response, hresp⟩ := hr.responds du
  refine ⟨{ s with handed := s.handed ++ [du]
                   sent := s.sent ++ response.buffer.take r.bytesWritten }, ?_, rfl, rfl⟩
  simp only [respond, hresp, hr.writes]

/-- A clean round hands over nothing, or a unit whose frame is a prefix of what was
read. -/
theorem step_clean {s : SessionState} {r : Round} (hr : r.Clean)
    (hbuf : s.buf.length = maxApuSize) :
    (s.step r).1.buf.length = maxApuSize ∧
      ((s.step r).1.handed = s.handed ∨
        ∃ du, (s.step r).1.handed = s.handed ++ [du] ∧ requestFrame du <+: r.received) := by
  obtain ⟨chunk, hread⟩ := hr.reads
  have hlen := length_receive hbuf chunk.fits
  simp only [step, hr.running, Bool.false_eq_true, if_false, hread, Round.received]
  split
  · exact ⟨hlen, .inl rfl⟩
  · split
    · exact ⟨hlen, .inl rfl⟩
    · next du hdu =>
      obtain ⟨s', hs', hbuf', hhanded⟩ := respond_clean hr (s.receive chunk.bytes) du
      rw [hs']
      refine ⟨hbuf' ▸ hlen, .inr ⟨du, hhanded, ?_⟩⟩
      -- the length field was checked against the number of bytes read
      have hle := lengthField_le hdu
      obtain ⟨_, _, _, rfl⟩ := ofBuffer_ok_iff.mp hdu
      have htake : requestFrame ⟨(s.receive chunk.bytes).buf, .request⟩ =
          chunk.bytes.take (tcpHeaderSize + lengthField (s.receive chunk.bytes).buf) :=
        List.take_append_of_le_length hle
      rw [htake]
      exact List.take_prefix _ _

/-- The constructor accepts a read unless its length field promises more than was
read. -/
theorem ofBuffer_receive {s : SessionState} {chunk : Chunk}
    (hlong : tcpHeaderSize + minPduSize ≤ chunk.bytes.length)
    (h : tcpHeaderSize + lengthField chunk.bytes ≤ chunk.bytes.length) :
    ofBuffer (s.receive chunk.bytes).buf chunk.bytes.length .request =
      .ok ⟨(s.receive chunk.bytes).buf, .request⟩ :=
  ofBuffer_front .request _ (Nat.lt_of_lt_of_le (by decide) hlong) chunk.fits h

theorem six_le_size {m : Message} (hm : m.type = .request) : 6 ≤ m.size := by
  cases m <;> cases hm <;>
    simp only [Message.size, AddressRange.size, CoilValue.size, RegisterValue.size,
      RegisterMask.size, WriteMultipleCoilsRequest.size, WriteMultipleRegistersRequest.size,
      ReadWriteRegistersRequest.size] <;> omega

/-- A clean round that reads the frame of a request hands it over and goes on. -/
theorem step_frame {s : SessionState} {r : Round} {t : Word} {m : Message} (hr : r.Clean)
    (hm : m.type = .request) (hframe : r.received = frame t m) :
    ∃ s' du, s.step r = (s', none) ∧ s'.handed = s.handed ++ [du] ∧ requestFrame du = frame t m := by
  obtain ⟨chunk, hread⟩ := hr.reads
  simp only [Round.received, hread] at hframe
  have hfits := chunk.fits
  have hlen := length_frame t m
  have hsize := six_le_size hm
  rw [hframe, hlen] at hfits
  unfold maxApuSize tcpHeaderSize at hfits
  have hbuf : (s.receive chunk.bytes).buf = frame t m ++ s.buf.drop (frame t m).length := by
    rw [receive, hframe]
  have hown : lengthField (frame t m) = m.size := by
    rw [lengthField_frame, Nat.mod_eq_of_lt (by omega)]
  have hlong : tcpHeaderSize + minPduSize ≤ chunk.bytes.length := by
    rw [hframe, hlen]
    unfold minPduSize
    omega
  have hacc : ofBuffer (s.receive chunk.bytes).buf chunk.bytes.length .request =
      .ok ⟨(s.receive chunk.bytes).buf, .request⟩ := by
    apply ofBuffer_receive hlong
    apply Nat.le_of_eq
    rw [hframe, hown, hlen]
  have hfield : lengthField (s.receive chunk.bytes).buf = m.size := by
    rw [hbuf, lengthField_append (by rw [hlen]; exact Nat.le_add_right _ _), hown]
  obtain ⟨s', hs', _, hhanded⟩ := respond_clean hr (s.receive chunk.bytes)
    ⟨(s.receive chunk.bytes).buf, .request⟩
  refine ⟨s', ⟨(s.receive chunk.bytes).buf, .request⟩, ?_, hhanded, ?_⟩
  · simp only [step, hr.running, Bool.false_eq_true, if_false, hread, Nat.not_lt.mpr hlong, hacc,
      hs']
  · rw [requestFrame, hfield, hbuf, ← hlen, List.take_left]

/-- Over clean rounds the session keeps prefixes of some of the chunks. -/
theorem run_clean {s : SessionState} {rounds : List Round} (hclean : ∀ r ∈ rounds, r.Clean)
    (hbuf : s.buf.length = maxApuSize) :
    ∃ dus, (s.run rounds).1.handed = s.handed ++ dus ∧
      PrefixesOf (dus.map requestFrame) (rounds.map Round.received) := by
  induction rounds generalizing s with
  | nil => exact ⟨[], (List.append_nil _).symm, .stop _⟩
  | cons r rounds ih =>
    obtain ⟨hbuf', hstep⟩ := step_clean (hclean r List.mem_cons_self) hbuf
    have hrest := fun x hx => hclean x (List.mem_cons_of_mem r hx)
    unfold run
    split
    · next s' hs' =>
      rw [hs'] at hbuf' hstep
      obtain ⟨dus, hdus, hprefixes⟩ := ih hrest hbuf'
      rcases hstep with hsame | ⟨du, hdu, hprefix⟩
      · exact ⟨dus, hdus.trans (by rw [hsame]), .skip _ hprefixes⟩
      · refine ⟨du :: dus, ?_, .keep hprefix hprefixes⟩
        rw [hdus, hdu, List.append_assoc, List.singleton_append]
    · next s' e hs' =>
      rw [hs'] at hstep
      rcases hstep with hsame | ⟨du, hdu, hprefix⟩
      · exact ⟨[], by rw [hsame, List.append_nil], .stop _⟩
      · exact ⟨[du], hdu, .keep hprefix (.stop _)⟩

/-- Reads that each return one request's frame hand over those frames. -/
theorem run_frames {s : SessionState} {rounds : List Round} {requests : List (Word × Message)}
    (hclean : ∀ r ∈ rounds, r.Clean) (hreq : ∀ q ∈ requests, q.2.type = .request)
    (hcut : rounds.map Round.received = requests.map fun q => frame q.1 q.2) :
    (s.run rounds).1.handed.map requestFrame =
      s.handed.map requestFrame ++ requests.map fun q => frame q.1 q.2 := by
  induction rounds generalizing s requests with
  | nil =>
    rw [← hcut]
    exact (List.append_nil _).symm
  | cons r rounds ih =>
    cases requests with
    | nil => cases hcut
    | cons q requests =>
      rw [List.map_cons, List.map_cons, List.cons.injEq] at hcut
      obtain ⟨s', du, hs', hhanded, hdu⟩ := step_frame (s := s) (hclean r List.mem_cons_self)
        (hreq q List.mem_cons_self) hcut.1
      have htail := ih (s := s') (fun x hx => hclean x (List.mem_cons_of_mem r hx))
        (fun x hx => hreq x (List.mem_cons_of_mem q hx)) hcut.2
      unfold run
      simp only [hs']
      rw [htail, hhanded, List.map_append, List.map_cons, List.map_nil, hdu, List.append_assoc,
        List.singleton_append, List.map_cons]

/-- Whatever the requests and the way their stream is cut, the handler gets exactly
the requests if and only if every read returns one whole frame. -/
theorem hands_over_frames_iff (requests : List (Word × Message))
    (hreq : ∀ q ∈ requests, q.2.type = .request) (rounds : List Round)
    (hclean : ∀ r ∈ rounds, r.Clean)
    (hcut : (rounds.map Round.received).flatten =
      (requests.map fun q => frame q.1 q.2).flatten) :
    (initial.run rounds).1.handed.map requestFrame = (requests.map fun q => frame q.1 q.2) ↔
      rounds.map Round.received = requests.map fun q => frame q.1 q.2 := by
  constructor
  · intro hhanded
    obtain ⟨dus, hdus, hprefixes⟩ := run_clean (s := initial) hclean (List.length_replicate ..)
    have hkept : dus.map requestFrame = requests.map fun q => frame q.1 q.2 := by
      rw [← hhanded, hdus]
      rfl
    rw [hkept] at hprefixes
    refine (hprefixes.eq_of_length ?_ (by rw [hcut])).symm
    intro c hc
    obtain ⟨r, hr, rfl⟩ := List.mem_map.mp hc
    obtain ⟨chunk, hread⟩ := (hclean r hr).reads
    simp only [Round.received, hread]
    exact chunk.nonempty
  · intro hsame
    rw [run_frames hclean hreq hsame]
    rfl

/-- A clean round whose handler answers with the request itself. -/
def echoRound (bytes : Buffer) (nonempty : bytes ≠ []) (fits : bytes.length ≤ maxApuSize) :
    Round where
  stop := false
  read := .ok ⟨bytes, nonempty, fits⟩
  handler := some
  writeError := none
  bytesWritten := bytes.length

theorem echoRound_clean {bytes : Buffer} (h1 : bytes ≠ []) (h2 : bytes.length ≤ maxApuSize) :
    (echoRound bytes h1 h2).Clean :=
  ⟨rfl, ⟨_, rfl⟩, fun request => ⟨request, rfl⟩, rfl⟩

/-- A request for the eight coils from address 0. -/
def eightCoils : Message := .readCoilsRequest ⟨1, 0, 8⟩

/-- A request to write two registers from address 4. -/
def twoRegisters : Message := .writeMultipleRegistersRequest ⟨1, 4, 2, [10, 11]⟩

/-- A read for each of two requests hands over both, the shorter one from a buffer that
still holds the end of the longer one. -/
theorem hands_over_two_requests :
    (initial.run [echoRound (frame 1 twoRegisters) (by decide) (by decide),
      echoRound (frame 2 eightCoils) (by decide) (by decide)]).1.handed.map requestFrame =
      [frame 1 twoRegisters, frame 2 eightCoils] :=
  (hands_over_frames_iff [(1, twoRegisters), (2, eightCoils)] (by decide)
    [echoRound (frame 1 twoRegisters) (by decide) (by decide),
      echoRound (frame 2 eightCoils) (by decide) (by decide)]
    (by
      intro r hr
      rcases List.mem_cons.mp hr with rfl | hr
      · exact echoRound_clean _ _
      · rw [List.mem_singleton.mp hr]
        exact echoRound_clean _ _) rfl).mpr rfl

/-- Read as its header and then its message, both are dropped as malformed. -/
theorem split_request_lost :
    let head := echoRound ((frame 1 eightCoils).take 6) (by decide) (by decide)
    let rest := echoRound ((frame 1 eightCoils).drop 6) (by decide) (by decide)
    head.Clean ∧ rest.Clean ∧
      ([head, rest].map Round.received).flatten = [frame 1 eightCoils].flatten ∧
      (initial.run [head, rest]).1.handed = [] ∧
      ¬ (initial.run [head, rest]).1.handed.map requestFrame = [frame 1 eightCoils] := by
  refine ⟨echoRound_clean _ _, echoRound_clean _ _, rfl, rfl, ?_⟩
  intro h
  cases h

end Modbus.Server
