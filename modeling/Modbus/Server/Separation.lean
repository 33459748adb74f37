import Modbus.Server.Linearization

/-! # Sessions on different tables

A call of the handler looks at the mask of one row of the memory and at that row, and if
it changes anything, then this row. So a group of sessions that asks for some of the rows
only cannot tell whether others were there that wrote to none of these (`separated`): it
gets the same bytes without them. Nothing else is asked of the requests than that no call
leaves its vectors. They may be refused, cut, or of those that `write_coils` gets wrong
inside them. -/
namespace Modbus.Server
open Bytes Checked TcpDataUnit Transition

/-- The requests that change a row. -/
def Request.Writes : Request → Prop
  | .writeSingleCoil _ | .writeMultipleCoils _ | .writeSingleRegister _
  | .writeMultipleRegisters _ => True
  | .readDiscreteInputs _ | .readCoils _ | .readHoldingRegisters _ | .readInputRegisters _ => False

/-- The others leave it. -/
theorem Request.serve_reads {r : Request} {unitId : Byte} {bm data data' : Buffer} {m : Message}
    (hreads : ¬ r.Writes) (h : r.serve unitId bm data = .ok (m, data')) : data' = data := by
  cases r with
  | readDiscreteInputs | readCoils | readHoldingRegisters | readInputRegisters =>
    obtain ⟨inputs, _, hret⟩ := bind_ok.mp h
    cases hret
    rfl
  | writeSingleCoil | writeMultipleCoils | writeSingleRegister | writeMultipleRegisters =>
    exact absurd trivial hreads

/-- Handlers that differ at most in other rows of the memory. -/
structure SameRows (rows : Set DataRow) (h h' : RequestHandler) : Prop where
  memorySpace : ∀ row ∈ rows, h.memorySpace row = h'.memorySpace row
  validAddresses : h.validAddresses = h'.validAddresses

section Calls
variable {rows : Set DataRow} {h h' h₁ : RequestHandler} {request response : TcpDataUnit}

theorem SameRows.refl (rows : Set DataRow) (h : RequestHandler) : SameRows rows h h :=
  ⟨fun _ _ => rfl, rfl⟩

theorem SameRows.symm (hsame : SameRows rows h h') : SameRows rows h' h :=
  ⟨fun row hrow => (hsame.memorySpace row hrow).symm, hsame.validAddresses.symm⟩

theorem SameRows.store (hsame : SameRows rows h h') (row : DataRow) (data : Buffer) :
    SameRows rows (h.store row data) (h'.store row data) := by
  refine ⟨fun x hx => ?_, hsame.validAddresses⟩
  rw [RequestHandler.store_memorySpace, RequestHandler.store_memorySpace, hsame.memorySpace x hx]

/-- A call for one of the rows gets the same response, and does the same to it. -/
theorem SameRows.call (hsame : SameRows rows h h')
    (hrow : ∀ r ∈ Request.ofUnit request, r.dataRow ∈ rows)
    (hcall : h.call request = .ok (response, h₁)) :
    ∃ h₁', h'.call request = .ok (response, h₁') ∧ SameRows rows h₁ h₁' := by
  obtain ⟨code, t, unitId, hcode, ht, hunit, hanswers⟩ := call_ok_iff.mp hcall
  have hreturns : ∀ {h₁'}, Answers h' request code t unitId response h₁' →
      h'.call request = .ok (response, h₁') :=
    fun h => call_ok_iff.mpr ⟨code, t, unitId, hcode, ht, hunit, h⟩
  cases hanswers with
  | illegalFunction branch => exact ⟨h', hreturns (.illegalFunction branch), hsame⟩
  | deviceFailure branch decoded => exact ⟨h', hreturns (.deviceFailure branch decoded), hsame⟩
  | illegalDataAddress branch decoded bitmap refused =>
    rw [hsame.validAddresses] at refused
    exact ⟨h', hreturns (.illegalDataAddress branch decoded bitmap refused), hsame⟩
  | @served r bm data m branch decoded bitmap granted serves =>
    have hin := hrow r (Request.ofUnit_eq hcode branch decoded)
    rw [hsame.validAddresses] at granted
    rw [hsame.memorySpace _ hin] at serves
    exact ⟨h'.store r.dataRow data, hreturns (.served branch decoded bitmap granted serves),
      hsame.store r.dataRow data⟩

/-- A call that writes to none of the rows leaves them. -/
theorem SameRows.outside (hsame : SameRows rows h h')
    (hrow : ∀ r ∈ Request.ofUnit request, r.Writes → r.dataRow ∉ rows)
    (hcall : h.call request = .ok (response, h₁)) : SameRows rows h₁ h' := by
  obtain ⟨code, t, unitId, hcode, ht, hunit, hanswers⟩ := call_ok_iff.mp hcall
  cases hanswers with
  | illegalFunction | deviceFailure | illegalDataAddress => exact hsame
  | @served r bm data m branch decoded bitmap granted serves =>
    by_cases hwrites : r.Writes
    · have hout := hrow r (Request.ofUnit_eq hcode branch decoded) hwrites
      refine ⟨fun x hx => ?_, hsame.validAddresses⟩
      have hne : x ≠ r.dataRow := fun heq => hout (heq ▸ hx)
      rw [RequestHandler.store_memorySpace, if_neg hne]
      exact hsame.memorySpace x hx
    · rw [Request.serve_reads hwrites serves, RequestHandler.store_self]
      exact hsame

end Calls

/-- The calls of a group, with one more call. -/
theorem filter_last (mine : SessionId → Prop) [DecidablePred mine] (log : List Handled)
    (c : Handled) :
    ((log ++ [c]).filter fun c => mine c.id) =
      (log.filter fun c => mine c.id) ++ if mine c.id then [c] else [] := by
  rw [List.filter_append, List.filter_cons]
  split <;> simp_all

/-- The calls of a group lead on their own to what the group sees of all of them. -/
theorem Replays.purged {rows : Set DataRow} {mine : SessionId → Prop} [DecidablePred mine]
    {h h₁ : RequestHandler} {log : List Handled} (hlog : Replays h log h₁)
    (hmine : ∀ c ∈ log, mine c.id → ∀ r ∈ Request.ofUnit c.request, r.dataRow ∈ rows)
    (hothers : ∀ c ∈ log, ¬ mine c.id →
      ∀ r ∈ Request.ofUnit c.request, r.Writes → r.dataRow ∉ rows) :
    ∃ alone, Replays h (log.filter fun c => mine c.id) alone ∧ SameRows rows h₁ alone := by
  induction hlog with
  | nil => exact ⟨h, .nil, .refl rows h⟩
  | @answered log h₁ h₂ id request response before call ih =>
    have hlast := List.mem_append_right log (List.mem_singleton_self ⟨id, request, some response⟩)
    obtain ⟨alone, hreplays, hsame⟩ := ih
      (fun c hc => hmine c (List.mem_append_left _ hc))
      (fun c hc => hothers c (List.mem_append_left _ hc))
    by_cases hid : mine id
    · obtain ⟨alone', hcall, hsame'⟩ := hsame.call (hmine _ hlast hid) call
      refine ⟨alone', ?_, hsame'⟩
      simp only [filter_last, hid, if_true]
      exact hreplays.answered hcall
    · refine ⟨alone, ?_, hsame.outside (hothers _ hlast hid) call⟩
      simp only [filter_last, hid, if_false, List.append_nil]
      exact hreplays
  | @threw log h₁ id request e before call ih =>
    obtain ⟨alone, hreplays, hsame⟩ := ih
      (fun c hc => hmine c (List.mem_append_left _ hc))
      (fun c hc => hothers c (List.mem_append_left _ hc))
    refine ⟨alone, ?_, hsame⟩
    by_cases hid : mine id
    · -- the unit is too short for any handler
      obtain ⟨e', hcall⟩ := (@call_throws_iff alone request).mpr (call_throws_iff.mp ⟨e, call⟩)
      simp only [filter_last, hid, if_true]
      exact hreplays.threw hcall
    · simp only [filter_last, hid, if_false, List.append_nil]
      exact hreplays

/-- In every interleaving in which no call leaves its vectors and no destroyed session is
used: when a group of sessions asks only for some rows of the memory, and the others write
to none of these, the calls of the group one after the other, without the others, give the
logged responses to the last byte, and what each session of the group has sent are
prefixes of these. -/
theorem separated (config : ServerConfig) (handler : RequestHandler) (s : Service)
    (h : Reachable Service.checkedStep (some (.initial config handler)) (some s))
    (rows : Set DataRow)
    (mine : SessionId → Prop) [DecidablePred mine]
    (hmine : ∀ c ∈ s.log, mine c.id → ∀ r ∈ Request.ofUnit c.request, r.dataRow ∈ rows)
    (hothers : ∀ c ∈ s.log, ¬ mine c.id →
      ∀ r ∈ Request.ofUnit c.request, r.Writes → r.dataRow ∉ rows) :
    ∃ alone, Replays handler (s.log.filter fun c => mine c.id) alone ∧
      SameRows rows s.handler alone ∧
      ∀ id, mine id →
        Accounted ((s.log.filter fun c => mine c.id).filter fun c => c.id = id)
          (s.server.task id) := by
  have hs := ledger_of_run h.defined
  obtain ⟨alone, hreplays, hsame⟩ := hs.replays.purged hmine hothers
  refine ⟨alone, hreplays, hsame, fun id hid => ?_⟩
  have hcalls : ((s.log.filter fun c => mine c.id).filter fun c => c.id = id) = s.calls id := by
    rw [List.filter_filter, Service.calls]
    refine List.filter_congr fun c _ => ?_
    by_cases hc : c.id = id
    · simp [hc, hid]
    · simp [hc]
  rw [hcalls]
  exact hs.accounted id

/-- The session that switches a coil on does not notice the one that reads. -/
theorem separated_crossing :
    ∃ s, Reachable Service.checkedStep (some (.initial .default .initial)) (some s) ∧
      s.log.map (fun c => (c.id, Request.ofUnit c.request)) =
        [(1, some (.readCoils ⟨1, 0, 8⟩)), (0, some (.writeSingleCoil ⟨1, 0, true⟩))] ∧
      ∃ alone, Replays .initial (s.log.filter fun c => c.id = 0) alone ∧
        SameRows {.coils} s.handler alone ∧
        ∀ id, id = 0 →
          Accounted ((s.log.filter fun c => c.id = 0).filter fun c => c.id = id)
            (s.server.task id) := by
  obtain ⟨s, hs, hlog⟩ : ∃ s,
      exec Service.checkedStep (fun _ _ => True) (some (.initial .default .initial)) crossing =
          some (some s) ∧
        s.log.map (fun c => (c.id, Request.ofUnit c.request)) =
          [(1, some (.readCoils ⟨1, 0, 8⟩)), (0, some (.writeSingleCoil ⟨1, 0, true⟩))] :=
    ⟨_, rfl, rfl⟩
  have hlogged : ∀ c ∈ s.log, (c.id = 1 ∧ Request.ofUnit c.request = some (.readCoils ⟨1, 0, 8⟩)) ∨
      c.id = 0 ∧ Request.ofUnit c.request = some (.writeSingleCoil ⟨1, 0, true⟩) := by
    intro c hc
    have hmem := List.mem_map_of_mem (f := fun c => (c.id, Request.ofUnit c.request)) hc
    rw [hlog] at hmem
    simpa using hmem
  refine ⟨s, Run.of_exec crossing hs, hlog, separated .default .initial s (Run.of_exec crossing hs)
    {.coils} (fun id => id = 0) (fun c hc hid r hr => ?_) fun c hc hid r hr => ?_⟩
  · rcases hlogged c hc with ⟨hone, _⟩ | ⟨_, hunit⟩
    · rw [hid] at hone
      cases hone
    · rw [hunit] at hr
      cases hr
      rfl
  · rcases hlogged c hc with ⟨_, hunit⟩ | ⟨hzero, _⟩
    · rw [hunit] at hr
      cases hr
      exact fun hwrites => absurd hwrites id
    · exact absurd hzero hid

end Modbus.Server
