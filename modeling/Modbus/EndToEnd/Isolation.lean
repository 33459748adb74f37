import Mathlib.Data.Set.Function
import Modbus.Lib.Purging
import Modbus.EndToEnd.LastWritten

/-! # Clients that do not notice each other

All clients of a server share one device. Clients that read only a part of its tables,
into which nobody else writes, have it for themselves all the same: whatever the others
read and write elsewhere, and whenever they call or give up, each call returns what a
device answers that serves no other clients (`isolated`). -/
namespace Modbus.EndToEnd
open Bytes Checked TcpDataUnit Transition Stream Server Client Writes Purging

/-- A part of the two tables that requests can write. -/
structure Region where
  coils : Set Nat
  holdingRegisters : Set Nat

/-- All that the request reads from these tables is in the region. -/
def ReadsIn (region : Region) : Request → Prop
  | .readCoils r => ∀ i < r.length.toNat, r.startAddress.toNat + i ∈ region.coils
  | .readHoldingRegisters r =>
    ∀ i < r.length.toNat, r.startAddress.toNat + i ∈ region.holdingRegisters
  | _ => True

/-- Nothing that the request writes is in the region. -/
structure WritesOutside (region : Region) (r : Request) : Prop where
  coils : ∀ w ∈ r.coilWrites, w.1 ∉ region.coils
  holdingRegisters : ∀ w ∈ r.registerWrites, w.1 ∉ region.holdingRegisters

/-- Devices that differ outside of the region at most. -/
structure AgreeOn (region : Region) (d d' : Device) : Prop where
  coils : Set.EqOn d.coils d'.coils region.coils
  discreteInputs : d.discreteInputs = d'.discreteInputs
  holdingRegisters : Set.EqOn d.holdingRegisters d'.holdingRegisters region.holdingRegisters
  inputRegisters : d.inputRegisters = d'.inputRegisters

section Devices
variable {region : Region} {d d' : Device} {r : Request}

theorem AgreeOn.refl (region : Region) (d : Device) : AgreeOn region d d :=
  ⟨Set.eqOn_refl _ _, rfl, Set.eqOn_refl _ _, rfl⟩

theorem AgreeOn.reply (h : AgreeOn region d d') (hr : ReadsIn region r) :
    d.reply r = d'.reply r := by
  cases r with
  | readCoils q =>
    refine congrArg Reply.bits (List.map_congr_left fun i hi => ?_)
    exact h.coils (hr i (List.mem_range.mp hi))
  | readHoldingRegisters q =>
    refine congrArg Reply.words (List.map_congr_left fun i hi => ?_)
    exact h.holdingRegisters (hr i (List.mem_range.mp hi))
  | readDiscreteInputs => rw [Device.reply, Device.reply, h.discreteInputs]
  | readInputRegisters => rw [Device.reply, Device.reply, h.inputRegisters]
  | _ => rfl

/-- The same writes keep them so. -/
theorem AgreeOn.apply (h : AgreeOn region d d') (r : Request) :
    AgreeOn region (d.apply r) (d'.apply r) := by
  refine ⟨fun a ha => ?_, h.discreteInputs, fun a ha => ?_, h.inputRegisters⟩
  · simp only [Device.apply, applyWrites_eq]
    exact lastWritten_congr (h.coils ha) _
  · simp only [Device.apply, applyWrites_eq]
    exact lastWritten_congr (h.holdingRegisters ha) _

theorem AgreeOn.outside (h : AgreeOn region d d') (hr : WritesOutside region r) :
    AgreeOn region (d.apply r) d' := by
  refine ⟨fun a ha => ?_, h.discreteInputs, fun a ha => ?_, h.inputRegisters⟩
  · simp only [Device.apply, applyWrites_eq]
    rw [lastWritten_of_forall_ne fun w hw heq => hr.coils w hw (heq ▸ ha)]
    exact h.coils ha
  · simp only [Device.apply, applyWrites_eq]
    rw [lastWritten_of_forall_ne fun w hw heq => hr.holdingRegisters w hw (heq ▸ ha)]
    exact h.holdingRegisters ha

end Devices

/-! ## The device as a machine -/

section Specification
variable (granted : Request → Prop) [DecidablePred granted]

theorem answerAll_eq_run (d : Device) (log : List Handled) :
    answerAll granted d log = run (fun d c => answerAll granted d [c]) d log := by
  induction log generalizing d with
  | nil => rfl
  | cons c log ih =>
    rw [← List.singleton_append, answerAll_append, ih]
    rfl

/-- A call that is decoded has an answer. -/
theorem exists_answer {d : Device} {log : List Handled} {c : Handled} {r : Request} {t : Word}
    (hc : c ∈ log) (hr : Request.ofUnit c.request = some r)
    (ht : c.request.transactionId = .ok t) :
    ∃ observation, (c.id, ⟨t, r, observation⟩) ∈ (answerAll granted d log).1 := by
  obtain ⟨before, after, rfl⟩ := List.append_of_mem hc
  rw [← List.singleton_append, answerAll_append, answerAll_append, answerAll_single granted hr ht]
  exact ⟨_, List.mem_append_right _ (List.mem_append_left _ (List.mem_singleton.mpr rfl))⟩

/-- What the clients of a group may ask for, and what the others. -/
def Keeps (region : Region) (mine : SessionId → Prop) (id : SessionId) (r : Request) : Prop :=
  (mine id → ReadsIn region r) ∧ (¬ mine id → WritesOutside region r)

theorem unwinding_answerAll (region : Region) (mine : SessionId → Prop) [DecidablePred mine] :
    Unwinding (fun d c => answerAll granted d [c])
      (fun c => ∀ r t, Request.ofUnit c.request = some r → c.request.transactionId = .ok t →
        Keeps region mine c.id r)
      (fun c => mine c.id) (fun a : SessionId × Answer => mine a.1) (AgreeOn region) where
  own d d' c hkeeps hown halike := by
    simp only [answerAll]
    split
    · next r t hr ht =>
      unfold perform
      split
      · rw [halike.reply ((hkeeps r t hr ht).1 hown)]
        exact ⟨rfl, halike.apply r⟩
      · exact ⟨rfl, halike⟩
    · exact ⟨rfl, halike⟩
  other d d' c hkeeps hother halike := by
    simp only [answerAll]
    split
    · next r t hr ht =>
      refine ⟨by simp [hother], ?_⟩
      unfold perform
      split
      · exact halike.outside ((hkeeps r t hr ht).2 hother)
      · exact halike
    · exact ⟨rfl, halike⟩

end Specification

/-- The answers to a client of a group are among those to the group. -/
theorem answersOf_filter {mine : SessionId → Prop} [DecidablePred mine] {id : SessionId}
    (hid : mine id) (answers : List (SessionId × Answer)) :
    answersOf id (answers.filter fun a => mine a.1) = answersOf id answers := by
  rw [answersOf, answersOf, List.filter_filter]
  congr 2
  funext a
  by_cases ha : a.1 = id
  · simp [ha, hid]
  · simp [ha]

/-- In every run in which a group of clients reads only a region of the tables and the
others write only outside of it: what the calls of the group returned, unless they failed,
are the answers of a device that serves the group alone, and in the region the device is
as that one. -/
theorem isolated (config : ServerConfig) (handler : RequestHandler)
    (hhandler : handler.WellFormed) (s : Recorded)
    (h : Run Recorded.step Recorded.Admissible (.initial config handler) s) (region : Region)
    (mine : SessionId → Prop) [DecidablePred mine]
    (hkeeps : ∀ id, ∀ p ∈ s.sent id, Keeps region mine id p.2) :
    let alone := answerAll (Grants handler) handler.device
      (s.network.service.log.filter fun c => mine c.id)
    (∀ id, mine id →
      answersOf id (answeredBy handler s.network).1 = answersOf id alone.1 ∧
        ((s.returned id).filter fun a => a.observation ≠ .failed).Sublist (answersOf id alone.1)) ∧
      AgreeOn region s.network.service.handler.device alone.2 := by
  have hs := piped_of_run hhandler h
  have hallowed : ∀ c ∈ s.network.service.log, ∀ r t, Request.ofUnit c.request = some r →
      c.request.transactionId = .ok t → Keeps region mine c.id r := by
    intro c hc r t hr ht
    obtain ⟨observation, hmem⟩ := exists_answer (Grants handler) (d := handler.device) hc hr ht
    exact hkeeps c.id _ (hs.asked hmem)
  obtain ⟨hseen, hend⟩ := (unwinding_answerAll (Grants handler) region mine).purge
    s.network.service.log hallowed (.refl region handler.device)
  rw [← answerAll_eq_run, ← answerAll_eq_run] at hseen hend
  have hanswers : ∀ id, mine id → answersOf id (answeredBy handler s.network).1 =
      answersOf id (answerAll (Grants handler) handler.device
        (s.network.service.log.filter fun c => mine c.id)).1 := by
    intro id hid
    rw [← answersOf_filter hid, ← answersOf_filter hid (answerAll _ _ _).1]
    exact congrArg (answersOf id) hseen
  refine ⟨fun id hid => ⟨hanswers id hid, ?_⟩, hs.device ▸ hend⟩
  obtain ⟨p, _, hp, hflow⟩ := hs.flows id
  rw [← hanswers id hid, ← hp]
  exact hflow.returned_sublist

/-- The requests sent are those of the events. -/
theorem sent_of_exec {guard : Recorded → NetworkEvent → Prop} [∀ s e, Decidable (guard s e)]
    {s t : Recorded} (events : List NetworkEvent) (h : exec Recorded.step guard s events = some t)
    (id : SessionId) : t.sent id = s.sent id ++ events.flatMap (sentOn id) := by
  induction events generalizing s with
  | nil =>
    cases h
    exact (List.append_nil _).symm
  | cons e events ih =>
    simp only [exec] at h
    split at h
    · obtain ⟨u, hu, hrest⟩ := Option.bind_eq_some_iff.mp h
      rw [ih hrest, Recorded.sent_step hu, List.flatMap_cons, List.append_assoc]
    · cases h

/-- A request to set the first register. -/
def setsRegister : Request := .writeSingleRegister ⟨1, 0, 7⟩

theorem setsRegister_nonempty : frame 1 setsRegister.message ≠ [] := by decide

theorem setsRegister_fits : (frame 1 setsRegister.message).length ≤ maxApuSize := by decide

def setsRegisterRead : Chunk :=
  ⟨frame 1 setsRegister.message, setsRegister_nonempty, setsRegister_fits⟩

/-- One client sets a register while another reads eight coils. -/
def besides : List NetworkEvent :=
  (.server (.listen true) :: accepts 0 ++ accepts 1).map .service ++
    [.call 0 1 setsRegister, .call 1 1 (.readCoils ⟨1, 0, 8⟩),
      .service (.server (.session 0 (.readDone (.ok setsRegisterRead)))), .service (.handle 0),
      .service (.server (.session 1 (.readDone (.ok eightCoilsRead)))), .service (.handle 1),
      .service (.server (.session 1 (.written none 10))), .receive 1]

theorem isolated_besides :
    ∃ s, Run Recorded.step Recorded.Admissible (.initial .default .initial) s ∧
      s.network.service.log.map Handled.id = [0, 1] ∧
      (s.returned 1).map Answer.transactionId = [1] ∧
      (∀ id, id = 1 →
        answersOf id (answeredBy .initial s.network).1 =
            answersOf id (answerAll (Grants .initial) (RequestHandler.device .initial)
              (s.network.service.log.filter fun c => c.id = 1)).1 ∧
          ((s.returned id).filter fun a => a.observation ≠ .failed).Sublist
            (answersOf id (answerAll (Grants .initial) (RequestHandler.device .initial)
              (s.network.service.log.filter fun c => c.id = 1)).1)) ∧
      AgreeOn ⟨Set.univ, ∅⟩ s.network.service.handler.device
        (answerAll (Grants .initial) (RequestHandler.device .initial)
          (s.network.service.log.filter fun c => c.id = 1)).2 := by
  obtain ⟨s, hs, hlog, hreturned⟩ : ∃ s,
      exec Recorded.step Recorded.Admissible (.initial .default .initial) besides = some s ∧
        s.network.service.log.map Handled.id = [0, 1] ∧
        (s.returned 1).map Answer.transactionId = [1] := ⟨_, rfl, rfl, rfl⟩
  refine ⟨s, Run.of_exec besides hs, hlog, hreturned,
    isolated .default .initial wellFormed_initial s (Run.of_exec besides hs) ⟨Set.univ, ∅⟩
      (fun id => id = 1) fun id p hp => ?_⟩
  rw [sent_of_exec besides hs] at hp
  have hcalls : 0 = id ∧ p = (1, setsRegister) ∨ 1 = id ∧ p = (1, .readCoils ⟨1, 0, 8⟩) := by
    simpa [besides, accepts, sentOn, Recorded.initial] using hp
  rcases hcalls with ⟨rfl, rfl⟩ | ⟨rfl, rfl⟩
  · exact ⟨fun _ => trivial,
      fun _ => ⟨fun _ hw => absurd hw List.not_mem_nil, fun _ _ => Set.notMem_empty _⟩⟩
  · exact ⟨fun _ _ _ => Set.mem_univ _, fun h => absurd rfl h⟩

end Modbus.EndToEnd
