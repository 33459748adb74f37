import Modbus.Client.Limits

/-! # Every answer of the server is a result

The checks of `read_response` cover a short header, a length field that is too
large, and a short body. They leave one header to the constructor, which throws:
the one that announces no message. Everything else ends in an error or in a
response with all of the client's 256 bytes behind it (`readResponse_total`). -/
namespace Modbus.Client
open Bytes TcpDataUnit Stream

/-- The accessors the client uses do not throw. -/
structure Readable (du : TcpDataUnit) : Prop where
  transactionId : ∃ id, du.transactionId = .ok id
  functionCode : ∃ code, du.functionCode = .ok code
  exceptionCode : ∃ code, du.exceptionCode = .ok code

/-- No exception, and an error or a readable response. -/
def Total (result : Except Exn ReadResponse) : Prop :=
  ∃ r, result = .ok r ∧ (r.error ≠ none ∨ Readable r.response)

/-- The next header announces no message. -/
def EmptyMessage (rest : Buffer) : Prop := tcpHeaderSize ≤ rest.length ∧ lengthField rest = 0

instance (rest : Buffer) : Decidable (EmptyMessage rest) := inferInstanceAs (Decidable (_ ∧ _))

/-- The loop comes to such a header, behind whole messages with smaller ids. -/
inductive MeetsEmpty (id : Word) : Buffer → Prop
  | here {rest : Buffer} (empty : EmptyMessage rest) : MeetsEmpty id rest
  | later {rest : Buffer} (whole : tcpHeaderSize + lengthField rest ≤ rest.length)
      (fits : tcpHeaderSize + lengthField rest ≤ maxApuSize)
      (older : word (rest.getD 0 0) (rest.getD 1 0) < id)
      (meets : MeetsEmpty id (rest.drop (tcpHeaderSize + lengthField rest))) : MeetsEmpty id rest

theorem elementAt_getD {b : Buffer} {i : Nat} (h : i < b.length) :
    elementAt b i = .ok (b.getD i 0) := by
  rw [elementAt_ok, List.getD_eq_getElem _ _ h, List.getElem?_eq_getElem h]

theorem transactionId_getD {du : TcpDataUnit} (h : 2 ≤ du.buffer.length) :
    du.transactionId = .ok (word (du.buffer.getD 0 0) (du.buffer.getD 1 0)) := by
  rw [TcpDataUnit.transactionId, elementAt_getD (by omega), elementAt_getD (by omega)]
  rfl

/-- Nine bytes are enough for every accessor. -/
theorem readable_of_length {du : TcpDataUnit} (h : 9 ≤ du.buffer.length) : Readable du := by
  refine ⟨⟨_, transactionId_getD (by omega)⟩, ?_, ?_⟩
  · rw [TcpDataUnit.functionCode, elementAt_getD (by omega)]
    exact ⟨_, rfl⟩
  · have h7 := elementAt_getD (b := du.buffer) (i := 7) (by omega)
    have h8 := elementAt_getD (b := du.buffer) (i := 8) (by omega)
    simp only [TcpDataUnit.exceptionCode, isException, h7, h8, Checked.ok_bind, Checked.pure_eq_ok]
    split
    · exact ⟨_, rfl⟩
    · exact ⟨_, rfl⟩

/-- A read that throws began at a header that announces no message. -/
theorem emptyMessage_of_error {c c' : Connection} {e : Exn}
    (h : readResponse c = (.error e, c')) : EmptyMessage c.source.rest := by
  obtain ⟨c'', _, ⟨e', h'⟩ | ⟨head, body, hhead, hbody, hfits, happ, h'⟩⟩ := readResponse_cases c
  · rw [h] at h'
    cases h'
  · have hfield : ∀ more, lengthField (head ++ more) = body.length := by
      intro more
      rw [hbody, lengthField_readBuffer (Nat.le_of_eq hhead.symm),
        lengthField_append (Nat.le_of_eq hhead.symm)]
    refine ⟨?_, ?_⟩
    · rw [← happ, List.length_append, hhead]
      exact Nat.le_add_right _ _
    · rw [← happ, hfield]
      -- a message of some bytes would have been accepted
      refine Nat.eq_zero_of_not_pos fun hpos => ?_
      have hall : (head ++ body).length = body.length + tcpHeaderSize := by
        rw [List.length_append, hhead, Nat.add_comm]
      have hacc : ofBuffer (readBuffer (head ++ body)) (head ++ body).length .response =
          .ok ⟨readBuffer (head ++ body), .response⟩ := by
        apply ofBuffer_readBuffer
        · rw [hfield, hall, Nat.add_comm]
        · rwa [hall]
        · rwa [hfield]
      rw [h, ← hall, hacc] at h'
      cases h'

/-- What a read returns is an error or can be read, unless it throws. -/
theorem readResponse_total {c : Connection} (h : ¬ EmptyMessage c.source.rest) :
    Total (readResponse c).1 := by
  cases hread : readResponse c with
  | mk result c' =>
    cases result with
    | error e => exact absurd (emptyMessage_of_error hread) h
    | ok r =>
      obtain ⟨du, error⟩ := r
      refine ⟨⟨du, error⟩, rfl, ?_⟩
      cases error with
      | some e => exact .inl (by simp)
      | none =>
        obtain ⟨head, body, hhead, _, hfits, _, rfl⟩ := readResponse_ok hread
        refine .inr (readable_of_length ?_)
        have hlen : (readBuffer (head ++ body)).length = maxApuSize := by
          apply length_readBuffer
          rwa [List.length_append, hhead, Nat.add_comm]
        exact hlen ▸ (by decide : 9 ≤ maxApuSize)

/-- The constructor refuses a header without a message. -/
theorem ofBuffer_header_only (b : Buffer) (type : MessageType) :
    ofBuffer b tcpHeaderSize type = .error .outOfRange := by
  simp only [ofBuffer, elementAt]
  cases b[4]? with
  | none => rfl
  | some hi =>
    cases b[5]? with
    | none => rfl
    | some lo =>
      have hnone : toInt32 ((tcpHeaderSize : Int) - (tcpHeaderSize : Int)) ≤ 0 := by decide
      simp only [Checked.ok_bind, if_pos (Or.inl hnone)]

/-- An uncut read throws at a header that announces no message. -/
theorem readResponse_throws {rest : Buffer} (h : EmptyMessage rest) (starts : List Buffer) :
    (readResponse ⟨⟨rest, []⟩, starts⟩).1 = .error .outOfRange := by
  obtain ⟨hlen, hfield⟩ := h
  have hread := readResponse_uncut rest starts (by rwa [hfield]) (by rw [hfield]; decide)
  rw [hread, hfield, Nat.add_zero, ofBuffer_header_only]
  rfl

/-! ## The loop -/

/-- A successful read in terms of the bytes that were there. -/
theorem readResponse_ok_rest {c c' : Connection} {du : TcpDataUnit}
    (h : readResponse c = (.ok ⟨du, none⟩, c')) :
    tcpHeaderSize + lengthField c.source.rest ≤ c.source.rest.length ∧
      tcpHeaderSize + lengthField c.source.rest ≤ maxApuSize ∧
      c'.source.rest = c.source.rest.drop (tcpHeaderSize + lengthField c.source.rest) ∧
      du.transactionId = .ok (word (c.source.rest.getD 0 0) (c.source.rest.getD 1 0)) := by
  obtain ⟨head, body, hhead, hbody, hfits, happ, rfl⟩ := readResponse_ok h
  have hfield : lengthField c.source.rest = body.length := by
    rw [hbody, ← happ, lengthField_readBuffer (Nat.le_of_eq hhead.symm),
      lengthField_append (Nat.le_of_eq hhead.symm)]
  have hall : tcpHeaderSize + body.length = (head ++ body).length := by
    rw [List.length_append, hhead]
  rw [← List.append_assoc] at happ
  rw [hfield, hall]
  refine ⟨?_, ?_, ?_, ?_⟩
  · rw [← happ]
    exact (List.sublist_append_left _ _).length_le
  · rw [← hall, Nat.add_comm]
    exact hfits
  · rw [← happ, List.drop_left]
  · have hget : ∀ i < 6, ∀ more, (head ++ body ++ more).getD i 0 = head.getD i 0 := by
      intro i hi more
      rw [List.append_assoc, List.getD_append _ _ _ _ (hhead ▸ hi)]
    rw [transactionId_getD, ← happ, readBuffer, hget 0 (by decide), hget 1 (by decide),
      hget 0 (by decide), hget 1 (by decide)]
    rw [length_readBuffer]
    · decide
    · rw [← hall, Nat.add_comm]
      exact hfits

/-- The loop throws when nothing cuts its reads before it comes to the header that
announces no message. -/
theorem readLoop_throws {id : Word} {rest : Buffer} (h : MeetsEmpty id rest)
    (starts : List Buffer) : (readLoop id ⟨⟨rest, []⟩, starts⟩).1 = .error .outOfRange := by
  have hthrows : ∀ {rest : Buffer} {starts : List Buffer}, EmptyMessage rest →
      (readLoop id ⟨⟨rest, []⟩, starts⟩).1 = .error .outOfRange := by
    intro rest starts hempty
    have hread := readResponse_throws hempty starts
    rw [readLoop_failure, hread]
    intro r c' hok
    rw [hok] at hread
    cases hread
  induction h generalizing starts with
  | here hempty => exact hthrows hempty
  | @later rest hwhole hfits holder _ ih =>
    by_cases hfield : lengthField rest = 0
    · exact hthrows ⟨Nat.le_of_add_right_le hwhole, hfield⟩
    · have hread := readResponse_uncut rest starts hwhole hfits
      have hlen : (rest.take (tcpHeaderSize + lengthField rest)).length =
          tcpHeaderSize + lengthField rest := by
        rw [List.length_take, Nat.min_eq_left hwhole]
      have hsame := lengthField_take (Nat.le_add_right _ _) hwhole
      have hacc := ofBuffer_readBuffer (hlen.trans (by rw [hsame])) (by rwa [hlen])
        (by rw [hsame]; exact Nat.pos_of_ne_zero hfield)
      rw [hlen] at hacc
      rw [hacc] at hread
      obtain ⟨_, _, _, hid⟩ := readResponse_ok_rest hread
      rw [readLoop_response hread hid, if_pos holder]
      exact ih _

/-- Without such a header the loop ends in a result. -/
theorem readLoop_total {id : Word} (c : Connection) (h : ¬ MeetsEmpty id c.source.rest) :
    Total (readLoop id c).1 := by
  -- by induction on the bytes that are left
  induction hn : c.source.rest.length using Nat.strongRecOn generalizing c with
  | ind n ih =>
    by_cases hok : ∃ du c', readResponse c = (.ok ⟨du, none⟩, c')
    · obtain ⟨du, c', hread⟩ := hok
      obtain ⟨hwhole, hfits, hrest, hid⟩ := readResponse_ok_rest hread
      rw [readLoop_response hread hid]
      split
      · next holder =>
        refine ih _ ?_ c' ?_ rfl
        · rw [← hn]
          exact readResponse_consumes hread
        · intro hmeets
          rw [hrest] at hmeets
          exact h (.later hwhole hfits holder hmeets)
      · have htotal := readResponse_total fun hempty => h (.here hempty)
        rwa [hread] at htotal
    · rw [readLoop_failure fun du c' hread => hok ⟨du, c', hread⟩]
      exact readResponse_total fun hempty => h (.here hempty)

/-- However its reads are cut, a call ends in an error or a readable response exactly
when the bytes of the peer do not bring it to a header that announces no message. -/
theorem reading_total_iff (rest : Buffer) :
    ((∀ plan starts, Total (readResponse ⟨⟨rest, plan⟩, starts⟩).1) ↔ ¬ EmptyMessage rest) ∧
      ∀ id, (∀ plan starts, Total (readLoop id ⟨⟨rest, plan⟩, starts⟩).1) ↔
        ¬ MeetsEmpty id rest := by
  refine ⟨⟨?_, ?_⟩, fun id => ⟨?_, ?_⟩⟩
  · intro htotal hempty
    obtain ⟨r, hr, _⟩ := htotal [] []
    rw [readResponse_throws hempty] at hr
    cases hr
  · intro hempty plan starts
    exact readResponse_total hempty
  · intro htotal hmeets
    obtain ⟨r, hr, _⟩ := htotal [] []
    rw [readLoop_throws hmeets] at hr
    cases hr
  · intro hmeets plan starts
    exact readLoop_total _ hmeets

/-- A header with length field 0 makes the constructor throw through both. -/
theorem empty_message_throws :
    (readResponse ⟨⟨[0, 1, 0, 0, 0, 0], []⟩, []⟩).1 = .error .outOfRange ∧
      (readLoop 1 ⟨⟨[0, 1, 0, 0, 0, 0], []⟩, []⟩).1 = .error .outOfRange ∧
      ¬ (∀ plan starts, Total (readResponse ⟨⟨[0, 1, 0, 0, 0, 0], plan⟩, starts⟩).1) := by
  have hread : (readResponse ⟨⟨[0, 1, 0, 0, 0, 0], []⟩, []⟩).1 = .error .outOfRange :=
    readResponse_throws (by decide) []
  refine ⟨hread, readLoop_throws (.here (by decide)) [], ?_⟩
  intro htotal
  obtain ⟨r, hr, _⟩ := htotal [] []
  rw [hread] at hr
  cases hr

end Modbus.Client
