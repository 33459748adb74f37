import Modbus.Client.Pool

/-! # Requests that share their bytes

The copies of a `tcp_data_unit` have one buffer together, and `send_request` takes its
request by reference: a call looks at the data unit and its buffer as they are at that
moment, and at the transaction id once more for every response. In `Pool.lean` every call
has a request of its own. That is what happens as long as nobody renumbers the buffer of a
running call or assigns to its data unit (`shared_requests_refine`). If the buffer is
renumbered, the call compares with the new id and may return a response that is older than
its request (`renumbered_call`). A data unit lives as long as the calls that refer to it. -/
namespace Modbus.Client
open Bytes TcpDataUnit Transition

/-- The buffers and the data units, in the order in which they are made. -/
abbrev BufferId := Nat

abbrev UnitId := Nat

/-- The members of a `tcp_data_unit`. -/
structure SharedUnit where
  buffer : BufferId
  type : MessageType
deriving DecidableEq, Repr

/-- The coroutine has not come to its end. -/
def CallPc.Running : CallPc → Prop
  | .finished _ | .unwound => False
  | _ => True

structure SharedClient where
  buffers : List Buffer
  units : List SharedUnit
  /-- The request of a call is the one it was called with, a history variable; the call
  itself goes to its data unit. -/
  client : PoolClient
  /-- What the reference of a call refers to. -/
  unitOf : CallId → UnitId

inductive SharedEvent where
  /-- `tcp_data_unit(t, m)`. -/
  | make (t : Word) (m : Message)
  | copy (source : UnitId)
  | assign (target source : UnitId)
  | setTransactionId (target : UnitId) (t : Word)
  | sendRequest (id : CallId) (request : UnitId)
  | call (id : CallId) (event : CallEvent)
  | setConfig

namespace SharedClient

def initial : SharedClient := ⟨[], [], .initial, fun _ => 0⟩

/-- A data unit with its bytes as they are now. -/
def dataUnit (s : SharedClient) (u : UnitId) : Option TcpDataUnit :=
  match s.units[u]? with
  | none => none
  | some unit => s.buffers[unit.buffer]?.map fun buffer => ⟨buffer, unit.type⟩

def step (s : SharedClient) : SharedEvent → Option SharedClient
  | .make t m =>
    match ofMessage t m with
    | .ok du => some { s with
        buffers := s.buffers ++ [du.buffer]
        units := s.units ++ [⟨s.buffers.length, du.type⟩] }
    | .error _ => none
  | .copy source =>
    s.units[source]?.map fun unit => { s with units := s.units ++ [unit] }
  | .assign target source =>
    s.units[source]?.map fun unit => { s with units := s.units.set target unit }
  | .setTransactionId target t =>
    match s.units[target]? with
    | none => none
    | some unit => s.buffers[unit.buffer]?.map fun buffer =>
        { s with buffers := s.buffers.set unit.buffer (TcpDataUnit.setTransactionId buffer t).2 }
  | .sendRequest id request =>
    match s.dataUnit request with
    | none => none
    | some du => (s.client.step (.sendRequest id du)).map fun client =>
        { s with client, unitOf := Function.update s.unitOf id request }
  | .call id event =>
    match s.client.calls id, s.dataUnit (s.unitOf id) with
    | some c, some request =>
      (({ c with request } : SendCall).step s.client.conPool event).map fun r =>
        { s with client := s.client.moved id { c with pc := r.1.pc } r.2 }
    | _, _ => none
  | .setConfig => (s.client.step .setConfig).map fun client => { s with client }

/-- Nobody touches the request of a running call: neither its buffer is renumbered, on
whichever data unit, nor its data unit assigned to. -/
def Untouched (s : SharedClient) : SharedEvent → Prop
  | .setTransactionId target _ =>
    ∀ id c, s.client.calls id = some c → c.pc.Running →
      s.units[s.unitOf id]?.map SharedUnit.buffer ≠ s.units[target]?.map SharedUnit.buffer
  | .assign target _ =>
    ∀ id c, s.client.calls id = some c → c.pc.Running → s.unitOf id ≠ target
  | _ => True

/-- The requests of running calls are as they were when these were called. -/
def Intact (s : SharedClient) : Prop :=
  ∀ id c, s.client.calls id = some c → c.pc.Running → s.dataUnit (s.unitOf id) = some c.request

end SharedClient

/-! ## What a call keeps -/

section Calls
variable {pool : PoolId} {c c' : SendCall} {e : CallEvent} {r : Option PoolConnection}

theorem request_step (h : c.step pool e = some (c', r)) : c'.request = c.request := by
  unfold SendCall.step at h
  repeat' split at h
  all_goals cases h <;> rfl

/-- Only a coroutine that has not come to its end moves. -/
theorem running_of_step (h : c.step pool e = some (c', r)) : c.pc.Running := by
  obtain ⟨request, pc⟩ := c
  cases pc with
  | finished | unwound => cases h
  | _ => trivial

/-- A call that returns a response has compared the ids. -/
theorem newer_of_step (h : c.step pool e = some (c', r)) {response : TcpDataUnit}
    (hpc : c'.pc = .finished (.ok ⟨response, none⟩)) :
    ∃ received t, response.transactionId = .ok received ∧ c.request.transactionId = .ok t ∧
      t ≤ received := by
  unfold SendCall.step at h
  repeat' split at h
  all_goals cases h <;> cases hpc
  next received t ht hge hreceived => exact ⟨received, t, hreceived, ht, BitVec.not_lt.mp hge⟩

end Calls

/-- A call that has returned a response has not returned one older than its request. -/
def ReturnsNewer (s : PoolClient) : Prop :=
  ∀ id c response, s.calls id = some c → c.pc = .finished (.ok ⟨response, none⟩) →
    ∃ received t, response.transactionId = .ok received ∧ c.request.transactionId = .ok t ∧
      t ≤ received

theorem returnsNewer_step {s s' : PoolClient} {e : ClientEvent} (hs : ReturnsNewer s)
    (h : s.step e = some s') : ReturnsNewer s' := by
  intro x c response hcall hpc
  cases e with
  | sendRequest id request =>
    simp only [PoolClient.step] at h
    split at h
    · cases h
      by_cases hne : x = id
      · subst hne
        rw [PoolClient.moved_self] at hcall
        cases hcall
        cases hpc
      · rw [PoolClient.moved_ne _ _ _ _ hne] at hcall
        exact hs x c response hcall hpc
    · cases h
  | call id event =>
    simp only [PoolClient.step] at h
    split at h
    · cases h
    · next before hbefore =>
      obtain ⟨⟨c', r⟩, hstep, hs'⟩ := Option.map_eq_some_iff.mp h
      cases hs'
      by_cases hne : x = id
      · subst hne
        rw [PoolClient.moved_self] at hcall
        cases hcall
        rw [request_step hstep]
        exact newer_of_step hstep hpc
      · rw [PoolClient.moved_ne _ _ _ _ hne] at hcall
        exact hs x c response hcall hpc
  | setConfig =>
    cases h
    exact hs x c response hcall hpc

/-! ## The client with shared buffers -/

namespace SharedClient
variable {s s' : SharedClient} {e : SharedEvent}

theorem dataUnit_eq_some_iff {u : UnitId} {du : TcpDataUnit} :
    s.dataUnit u = some du ↔ ∃ unit, s.units[u]? = some unit ∧
      s.buffers[unit.buffer]? = some du.buffer ∧ unit.type = du.type := by
  unfold dataUnit
  constructor
  · intro h
    split at h
    · cases h
    · next unit hunit =>
      obtain ⟨buffer, hbuffer, rfl⟩ := Option.map_eq_some_iff.mp h
      exact ⟨unit, hunit, hbuffer, rfl⟩
  · rintro ⟨unit, hunit, hbuffer, htype⟩
    simp only [hunit, hbuffer, Option.map_some, htype]

/-- New buffers and data units leave the others as they are. -/
theorem dataUnit_append {u : UnitId} {du : TcpDataUnit} (h : s.dataUnit u = some du)
    (buffers : List Buffer) (units : List SharedUnit) :
    dataUnit { s with buffers := s.buffers ++ buffers, units := s.units ++ units } u = some du := by
  obtain ⟨unit, hunit, hbuffer, htype⟩ := dataUnit_eq_some_iff.mp h
  refine dataUnit_eq_some_iff.mpr ⟨unit, ?_, ?_, htype⟩
  · exact (List.getElem?_append_left (List.getElem?_eq_some_iff.mp hunit).1).trans hunit
  · exact (List.getElem?_append_left (List.getElem?_eq_some_iff.mp hbuffer).1).trans hbuffer

/-- A running call moves as it does with a request of its own. -/
theorem Intact.call (hs : s.Intact) {id : CallId} {event : CallEvent}
    (h : s.step (.call id event) = some s') :
    ∃ client, s.client.step (.call id event) = some client ∧ s' = { s with client } := by
  simp only [step] at h
  split at h
  · next c request hc hrequest =>
    obtain ⟨⟨c', r⟩, hstep, hs'⟩ := Option.map_eq_some_iff.mp h
    cases hs'
    have hrunning := running_of_step hstep
    have hsame := hrequest.symm.trans (hs id c hc hrunning)
    cases hsame
    have hmoved : c' = { c with pc := c'.pc } := by
      rw [← request_step hstep]
    refine ⟨s.client.moved id c' r, ?_, by rw [← hmoved]⟩
    simp only [PoolClient.step, hc]
    rw [hstep]
    rfl
  · cases h

theorem intact_step (hs : s.Intact) (huntouched : s.Untouched e) (h : s.step e = some s') :
    s'.Intact := by
  cases e with
  | make t m =>
    simp only [step] at h
    split at h
    · cases h
      intro id c hc hrunning
      exact dataUnit_append (hs id c hc hrunning) _ _
    · cases h
  | copy source =>
    obtain ⟨unit, hunit, hs'⟩ := Option.map_eq_some_iff.mp h
    cases hs'
    intro id c hc hrunning
    have hkept := dataUnit_append (hs id c hc hrunning) [] [unit]
    rwa [List.append_nil] at hkept
  | assign target source =>
    obtain ⟨unit, hunit, hs'⟩ := Option.map_eq_some_iff.mp h
    cases hs'
    intro id c hc hrunning
    have hother := huntouched id c hc hrunning
    obtain ⟨own, hown, hbuffer, htype⟩ := dataUnit_eq_some_iff.mp (hs id c hc hrunning)
    refine dataUnit_eq_some_iff.mpr ⟨own, ?_, hbuffer, htype⟩
    exact (List.getElem?_set_ne hother.symm).trans hown
  | setTransactionId target t =>
    simp only [step] at h
    split at h
    · cases h
    · next unit hunit =>
      obtain ⟨buffer, hbuffer, hs'⟩ := Option.map_eq_some_iff.mp h
      cases hs'
      intro id c hc hrunning
      have hother := huntouched id c hc hrunning
      obtain ⟨own, hown, hbytes, htype⟩ := dataUnit_eq_some_iff.mp (hs id c hc hrunning)
      rw [hown, hunit] at hother
      have hne : unit.buffer ≠ own.buffer := fun heq => hother (congrArg some heq.symm)
      exact dataUnit_eq_some_iff.mpr ⟨own, hown, (List.getElem?_set_ne hne).trans hbytes, htype⟩
  | sendRequest id request =>
    simp only [step] at h
    split at h
    · cases h
    · next du hdu =>
      obtain ⟨client, hclient, hs'⟩ := Option.map_eq_some_iff.mp h
      cases hs'
      cases client_moves hclient with
      | called =>
        intro x c hc hrunning
        by_cases hne : x = id
        · subst hne
          rw [PoolClient.moved_self] at hc
          cases hc
          dsimp only
          rw [Function.update_self]
          exact hdu
        · rw [PoolClient.moved_ne _ _ _ _ hne] at hc
          dsimp only
          rw [Function.update_of_ne hne]
          exact hs x c hc hrunning
  | call id event =>
    obtain ⟨client, hclient, rfl⟩ := hs.call h
    simp only [PoolClient.step] at hclient
    split at hclient
    · cases hclient
    · next before hbefore =>
      obtain ⟨⟨c', r⟩, hstep, hclient'⟩ := Option.map_eq_some_iff.mp hclient
      cases hclient'
      intro x c hc hrunning
      by_cases hne : x = id
      · subst hne
        rw [PoolClient.moved_self] at hc
        cases hc
        rw [request_step hstep]
        exact hs x before hbefore (running_of_step hstep)
      · rw [PoolClient.moved_ne _ _ _ _ hne] at hc
        exact hs x c hc hrunning
  | setConfig =>
    cases h
    exact hs

/-- What is done to data units happens aside; every other step is one of the client whose
calls have requests of their own. -/
theorem follows (hs : s.Intact) (h : s.step e = some s') :
    Reachable PoolClient.step s.client s'.client := by
  cases e with
  | make t m =>
    simp only [step] at h
    split at h
    · cases h
      exact .refl
    · cases h
  | copy | assign =>
    obtain ⟨unit, hunit, hs'⟩ := Option.map_eq_some_iff.mp h
    cases hs'
    exact .refl
  | setTransactionId target t =>
    simp only [step] at h
    split at h
    · cases h
    · obtain ⟨buffer, hbuffer, hs'⟩ := Option.map_eq_some_iff.mp h
      cases hs'
      exact .refl
  | sendRequest id request =>
    simp only [step] at h
    split at h
    · cases h
    · obtain ⟨client, hclient, hs'⟩ := Option.map_eq_some_iff.mp h
      cases hs'
      exact .single trivial hclient
  | call id event =>
    obtain ⟨client, hclient, rfl⟩ := hs.call h
    exact .single trivial hclient
  | setConfig =>
    cases h
    exact .single (a := .setConfig) trivial rfl

end SharedClient

/-- The request of a call is given a smaller id while the call waits for its response. The
call returns the response to another request, one older than its own. -/
theorem renumbered_call :
    ∃ s, Reachable SharedClient.step .initial s ∧
      s.client.calls 0 = some ⟨coilRequest 5,
        .finished (.ok ⟨⟨readBuffer (coilAnswer 3).bytes, .response⟩, none⟩)⟩ ∧
      ¬ ReturnsNewer s.client := by
  refine ⟨_, Run.of_exec [.make 5 (.readCoilsRequest ⟨1, 0, 8⟩), .sendRequest 0 0,
      .call 0 .resume, .call 0 (.connected (some 0)), .call 0 (.cleared none),
      .call 0 (.written none), .setTransactionId 0 1,
      .call 0 (.responded (.ok ⟨⟨readBuffer (coilAnswer 3).bytes, .response⟩, none⟩))] rfl,
    rfl, ?_⟩
  intro hs
  obtain ⟨received, t, hreceived, ht, hle⟩ := hs 0 _ _ rfl rfl
  cases hreceived
  cases ht
  exact absurd hle (by decide)

end Modbus.Client
