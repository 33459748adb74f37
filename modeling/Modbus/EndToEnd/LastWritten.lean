import Modbus.EndToEnd.LateAnswers

/-! # What clients read

All answers of the device stand in one order. In it every coil and every holding register
has the value last written to it by a request that was served, whichever client sent it,
and that is what a client reads (`reads_last_written`). The order agrees with time: the
answer that a call returns is none of those given before it was made
(`answered_in_time`). So a client reads what it or another has written before, and what
a call that gave up has written counts from when its request is served. -/
namespace Modbus.EndToEnd
open Bytes Checked TcpDataUnit Transition Stream Server Client Writes

/-! ## The device after requests -/

/-- The device with the values last written. -/
def afterWrites (d : Device) (requests : List Request) : Device :=
  { d with
    coils := lastWritten d.coils (requests.flatMap Request.coilWrites)
    holdingRegisters := lastWritten d.holdingRegisters (requests.flatMap Request.registerWrites) }

theorem afterWrites_cons (d : Device) (r : Request) (requests : List Request) :
    afterWrites d (r :: requests) = afterWrites (d.apply r) requests := by
  simp only [afterWrites, Device.apply, List.flatMap_cons, ← applyWrites_eq, applyWrites_append]

/-- The requests that were served, without those that were refused. -/
def served (answers : List (SessionId × Answer)) : List Request :=
  answers.filterMap fun a =>
    match a.2.observation with
    | .reply _ => some a.2.request
    | _ => none

section Specification
variable (granted : Request → Prop) [DecidablePred granted]

/-- A request that is not served leaves the device alone. -/
theorem afterWrites_served_cons (d : Device) (id : SessionId) (t : Word) (r : Request)
    (answers : List (SessionId × Answer)) :
    afterWrites d (served ((id, ⟨t, r, (perform granted d r).1⟩) :: answers)) =
      afterWrites (perform granted d r).2 (served answers) := by
  unfold perform
  split
  · rw [served, List.filterMap_cons, ← served]
    exact afterWrites_cons d r _
  · rfl

/-- Each answer is that of the device with the values written before. -/
theorem answerAll_split (d : Device) (log : List Handled) {before after : List (SessionId × Answer)}
    {id : SessionId} {a : Answer}
    (h : (answerAll granted d log).1 = before ++ (id, a) :: after) :
    a.observation = (perform granted (afterWrites d (served before)) a.request).1 := by
  induction log generalizing d before with
  | nil => exact absurd h (by simp [answerAll])
  | cons c log ih =>
    simp only [answerAll] at h
    split at h
    · next r t hr ht =>
      cases before with
      | nil =>
        cases (List.cons.inj h).1
        rfl
      | cons first before =>
        obtain ⟨rfl, hrest⟩ := List.cons.inj h
        rw [afterWrites_served_cons]
        exact ih _ hrest
    · exact ih d h

/-- At the end the device has the values written by all. -/
theorem answerAll_device (d : Device) (log : List Handled) :
    (answerAll granted d log).2 = afterWrites d (served (answerAll granted d log).1) := by
  induction log generalizing d with
  | nil => rfl
  | cons c log ih =>
    simp only [answerAll]
    split
    · rw [afterWrites_served_cons]
      exact ih _
    · exact ih d

end Specification

theorem mem_answersOf {id : SessionId} {a : Answer} {answers : List (SessionId × Answer)} :
    a ∈ answersOf id answers ↔ (id, a) ∈ answers := by
  simp [answersOf]

/-! ## Reading -/

section Runs
variable {config : ServerConfig} {handler : RequestHandler} {s s' : Recorded}

/-- What a call returned, unless it failed, is one of the answers. -/
theorem Piped.answer (hs : Piped handler s) {id : SessionId} {a : Answer} (ha : a ∈ s.returned id)
    (hok : a.observation ≠ .failed) : (id, a) ∈ (answeredBy handler s.network).1 := by
  obtain ⟨p, _, hanswers, hflow⟩ := hs.flows id
  rw [← mem_answersOf, ← hanswers]
  exact hflow.returned_sublist.subset (List.mem_filter.mpr ⟨ha, decide_eq_true hok⟩)

/-- An answer is one to a request that was sent. -/
theorem Piped.asked (hs : Piped handler s) {id : SessionId} {a : Answer}
    (ha : (id, a) ∈ (answeredBy handler s.network).1) :
    (a.transactionId, a.request) ∈ s.sent id := by
  obtain ⟨p, hsent, hanswers, hflow⟩ := hs.flows id
  rw [← hsent]
  exact List.mem_append_left _ (hflow.known a (hanswers ▸ mem_answersOf.mpr ha))

/-- A step may add answers at the end. -/
theorem answers_step {e : NetworkEvent} (h : s.step e = some s') :
    (answeredBy handler s.network).1 <+: (answeredBy handler s'.network).1 := by
  have hgrows : ∀ log more, (answerAll (Grants handler) handler.device log).1 <+:
      (answerAll (Grants handler) handler.device (log ++ more)).1 := by
    intro log more
    rw [answerAll_append]
    exact List.prefix_append _ _
  obtain ⟨network, hnetwork, hs'⟩ := Option.map_eq_some_iff.mp h
  cases hs'
  unfold answeredBy
  cases e with
  | service event =>
    obtain ⟨_, hmap⟩ := Option.ite_none_right_eq_some.mp hnetwork
    obtain ⟨service, hservice, hnetwork'⟩ := Option.map_eq_some_iff.mp hmap
    cases hnetwork'
    cases service_moves hservice with
    | server => exact List.prefix_refl _
    | answered | threw => exact hgrows _ _
  | call id t r =>
    simp only [Network.step] at hnetwork
    split at hnetwork
    · cases hnetwork
      exact List.prefix_refl _
    · cases hnetwork
  | receive id =>
    simp only [Network.step] at hnetwork
    split at hnetwork
    · cases hnetwork
      exact List.prefix_refl _
    · cases hnetwork

theorem answers_run (h : Run Recorded.step Recorded.Admissible s s') :
    (answeredBy handler s.network).1 <+: (answeredBy handler s'.network).1 :=
  h.invariant (fun t => (answeredBy handler s.network).1 <+: (answeredBy handler t.network).1)
    (List.prefix_refl _) fun _ _ _ ht _ hstep => ht.trans (answers_step hstep)

end Runs

/-- In every run, whatever clients call and give up: what a call returned, unless it
failed, has its place in the one order of the answers, and there it is what the device says
that has the values last written by the requests served before it. -/
theorem reads_last_written (config : ServerConfig) (handler : RequestHandler)
    (hhandler : handler.WellFormed) (s : Recorded)
    (h : Run Recorded.step Recorded.Admissible (.initial config handler) s) :
    s.network.service.handler.device =
        afterWrites handler.device (served (answeredBy handler s.network).1) ∧
      ∀ id, ∀ a ∈ s.returned id, a.observation ≠ .failed →
        ∃ before after, (answeredBy handler s.network).1 = before ++ (id, a) :: after ∧
          a.observation = if Grants handler a.request then
              .reply ((afterWrites handler.device (served before)).reply a.request)
            else .exception .illegalDataAddress := by
  have hs := piped_of_run hhandler h
  refine ⟨?_, fun id a ha hok => ?_⟩
  · rw [← hs.device]
    exact answerAll_device ..
  · obtain ⟨before, after, hsplit⟩ := List.append_of_mem (hs.answer ha hok)
    refine ⟨before, after, hsplit, ?_⟩
    rw [answerAll_split (Grants handler) handler.device _ hsplit, perform]
    split <;> rfl

/-- A client switches the first coil on, and then another reads eight. -/
def readsBack : List NetworkEvent :=
  (.server (.listen true) :: accepts 0 ++ accepts 1).map .service ++
    [.call 0 2 (.writeSingleCoil ⟨1, 0, true⟩), .call 1 1 (.readCoils ⟨1, 0, 8⟩),
      .service (.server (.session 0 (.readDone (.ok firstCoilOnRead)))), .service (.handle 0),
      .service (.server (.session 0 (.written none 12))), .receive 0,
      .service (.server (.session 1 (.readDone (.ok eightCoilsRead)))), .service (.handle 1),
      .service (.server (.session 1 (.written none 10))), .receive 1]

theorem reads_last_written_readsBack :
    ∃ s, Run Recorded.step Recorded.Admissible (.initial .default .initial) s ∧
      served (answeredBy .initial s.network).1 =
        [.writeSingleCoil ⟨1, 0, true⟩, .readCoils ⟨1, 0, 8⟩] ∧
      s.network.service.handler.device =
        afterWrites (RequestHandler.device .initial) (served (answeredBy .initial s.network).1) ∧
      ∀ id, ∀ a ∈ s.returned id, a.observation ≠ .failed →
        ∃ before after, (answeredBy .initial s.network).1 = before ++ (id, a) :: after ∧
          a.observation = if Grants .initial a.request then
              .reply ((afterWrites (RequestHandler.device .initial) (served before)).reply a.request)
            else .exception .illegalDataAddress :=
  ⟨_, Run.of_exec readsBack rfl, rfl,
    reads_last_written .default .initial wellFormed_initial _ (Run.of_exec readsBack rfl)⟩

/-- The answer that a call returns is one of those given since the call was made. -/
theorem answered_in_time (config : ServerConfig) (handler : RequestHandler)
    (hhandler : handler.WellFormed) (s s₁ s₂ : Recorded) (id : SessionId) (t : Word) (r : Request)
    (h : Run Recorded.step Recorded.Admissible (.initial config handler) s)
    (hallowed : s.Admissible (.call id t r)) (hcall : s.step (.call id t r) = some s₁)
    (hrun : Run Recorded.step Recorded.Admissible s₁ s₂) :
    ∃ later, (answeredBy handler s₂.network).1 = (answeredBy handler s.network).1 ++ later ∧
      ∀ a ∈ s₂.returned id, a.transactionId = t → a.observation ≠ .failed → (id, a) ∈ later := by
  obtain ⟨later, hlater⟩ :=
    (@answers_step handler _ _ _ hcall).trans (@answers_run handler _ _ hrun)
  refine ⟨later, hlater.symm, fun a ha hid hok => ?_⟩
  have hs := piped_of_run hhandler h
  have hs₂ := piped_of_run hhandler ((h.tail hallowed hcall).trans hrun)
  have hmem := hs₂.answer ha hok
  rw [← hlater] at hmem
  refine (List.mem_append.mp hmem).resolve_left fun hearly => ?_
  -- an answer given by then is to an earlier request, which has a smaller id
  have hlt := hallowed.2 _ (hs.asked hearly)
  rw [hid] at hlt
  exact BitVec.lt_irrefl _ hlt

/-- Up to the second call of the client that gives up, and from there on. -/
theorem answered_in_time_givesUp :
    ∃ s s₁ s₂, Run Recorded.step Recorded.Admissible (.initial .default .initial) s ∧
      s.step (.call 0 2 (.writeSingleCoil ⟨1, 0, true⟩)) = some s₁ ∧
      Run Recorded.step Recorded.Admissible s₁ s₂ ∧
      (answeredBy .initial s.network).1.length = 1 ∧
      ∃ later, (answeredBy .initial s₂.network).1 = (answeredBy .initial s.network).1 ++ later ∧
        ∀ a ∈ s₂.returned 0, a.transactionId = 2 → a.observation ≠ .failed → (0, a) ∈ later :=
  ⟨_, _, _, Run.of_exec (givesUp.take 13) rfl, rfl, Run.of_exec (givesUp.drop 14) rfl, rfl,
    answered_in_time .default .initial wellFormed_initial _ _ _ 0 2 (.writeSingleCoil ⟨1, 0, true⟩)
      (Run.of_exec (givesUp.take 13) rfl) (of_decide_eq_true rfl) rfl
      (Run.of_exec (givesUp.drop 14) rfl)⟩

end Modbus.EndToEnd
