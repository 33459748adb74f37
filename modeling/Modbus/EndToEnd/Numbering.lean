import Modbus.EndToEnd.LateAnswers

/-! # Where the ids come from

A client takes the ids of its requests from a counter of 16 bits when it creates them, and
calls with them later, on any of its connections. The ids grow for just as long as there
are not more than 65535 of them (`created_grow_iff`): the next one is 0. Until then calls
that come on each connection in the order in which their requests were created are calls
with growing ids, which is all that `LateAnswers.lean` asks of the ids
(`numbered_admissible`). -/
namespace Modbus.EndToEnd
open Bytes Checked TcpDataUnit Transition Stream Server Client

abbrev ClientId := Nat

/-- A network whose clients number their requests. -/
structure Numbered where
  recorded : Recorded
  /-- `transaction_id_`. -/
  counter : ClientId → Word
  /-- What `create_request` made, in that order, with the ids. -/
  created : ClientId → List (Word × Request)
  /-- A history variable: the place behind the last request that was sent on a connection,
  among those that its client created. -/
  next : SessionId → Nat

inductive NumberedEvent where
  | create (client : ClientId) (r : Request)
  /-- With a request of the client, by its place. -/
  | call (id : SessionId) (place : Nat)
  | receive (id : SessionId)
  | service (event : ServiceEvent)

namespace Numbered

def initial (config : ServerConfig) (handler : RequestHandler) : Numbered :=
  ⟨.initial config handler, fun _ => 1, fun _ => [], fun _ => 0⟩

variable (owner : SessionId → ClientId)

/-- `owner` says whose a connection is. -/
def step (s : Numbered) : NumberedEvent → Option Numbered
  | .create client r =>
    match createRequest (s.counter client) r.message with
    | (.ok _, counter) => some { s with
        counter := Function.update s.counter client counter
        created := Function.update s.created client (s.created client ++ [(s.counter client, r)]) }
    | (.error _, _) => none
  | .call id place =>
    match (s.created (owner id))[place]? with
    | some (t, r) => (s.recorded.step (.call id t r)).map fun recorded =>
        { s with recorded, next := Function.update s.next id (place + 1) }
    | none => none
  | .receive id => (s.recorded.step (.receive id)).map fun recorded => { s with recorded }
  | .service event => (s.recorded.step (.service event)).map fun recorded => { s with recorded }

/-- A call comes after those whose requests were created before, and is one of the first
65535 of its client. -/
def InOrder (s : Numbered) : NumberedEvent → Prop
  | .create _ _ | .receive _ => True
  | .call id place =>
    s.next id ≤ place ∧ place < 65535 ∧ ∀ p ∈ (s.created (owner id))[place]?, Fits p.2
  | .service event => s.recorded.network.service.Admissible event ∧ s.recorded.Aligned event

instance (s : Numbered) : DecidablePred (s.InOrder owner)
  | .create _ _ | .receive _ => .isTrue trivial
  | .call id place => inferInstanceAs (Decidable (s.next id ≤ place ∧ place < 65535 ∧
      ∀ p ∈ (s.created (owner id))[place]?, Fits p.2))
  | .service event => inferInstanceAs
      (Decidable (s.recorded.network.service.Admissible event ∧ s.recorded.Aligned event))

end Numbered

/-- The ids of a client count its requests, and those on a connection are behind its
place. -/
structure Counted (s : Numbered) : Prop where
  counter : ∀ client, s.counter client = BitVec.ofNat 16 ((s.created client).length + 1)
  ids : ∀ client k p, (s.created client)[k]? = some p → p.1 = BitVec.ofNat 16 (k + 1)

/-- The ids that were sent on a connection are those before its place. -/
def Ordered (s : Numbered) : Prop := ∀ id, ∀ p ∈ s.recorded.sent id, p.1.toNat ≤ s.next id

section Steps
variable {owner : SessionId → ClientId} {s s' : Numbered} {e : NumberedEvent}

theorem counted_step (hs : Counted s) (h : s.step owner e = some s') : Counted s' := by
  cases e with
  | create client r =>
    simp only [Numbered.step, createRequest_eq] at h
    cases h
    constructor
    · intro x
      by_cases hx : x = client
      · subst hx
        simp [hs.counter x, BitVec.ofNat_add]
      · simp [Function.update_of_ne hx, hs.counter x]
    · intro x k p hp
      by_cases hx : x = client
      · subst hx
        simp only [Function.update_self] at hp
        rcases Nat.lt_trichotomy k (s.created x).length with hk | hk | hk
        · rw [List.getElem?_append_left hk] at hp
          exact hs.ids x k p hp
        · subst hk
          rw [List.getElem?_concat_length] at hp
          cases hp
          exact hs.counter x
        · rw [List.getElem?_eq_none] at hp
          · cases hp
          · rw [List.length_append, List.length_singleton]
            exact hk
      · simp only [Function.update_of_ne hx] at hp
        exact hs.ids x k p hp
  | call id place =>
    simp only [Numbered.step] at h
    split at h
    · obtain ⟨recorded, _, rfl⟩ := Option.map_eq_some_iff.mp h
      exact ⟨hs.counter, hs.ids⟩
    · cases h
  | receive | service =>
    obtain ⟨recorded, _, rfl⟩ := Option.map_eq_some_iff.mp h
    exact ⟨hs.counter, hs.ids⟩

/-- What a call in order sends: the id is the place of its request, from 1 on. -/
theorem Counted.call (hs : Counted s) {id : SessionId} {place : Nat} {t : Word} {r : Request}
    (hlt : place < 65535) (hp : (s.created (owner id))[place]? = some (t, r)) :
    t.toNat = place + 1 := by
  have hid : t = BitVec.ofNat 16 (place + 1) := hs.ids (owner id) place (t, r) hp
  rw [hid, BitVec.toNat_ofNat, Nat.mod_eq_of_lt (by omega)]

theorem ordered_step (hs : Counted s) (ho : Ordered s) (hin : s.InOrder owner e)
    (h : s.step owner e = some s') : Ordered s' := by
  cases e with
  | create client r =>
    simp only [Numbered.step, createRequest_eq] at h
    cases h
    exact ho
  | call id place =>
    obtain ⟨hplace, hlt, _⟩ := hin
    simp only [Numbered.step] at h
    split at h
    · next t r hp =>
      obtain ⟨recorded, hrecorded, rfl⟩ := Option.map_eq_some_iff.mp h
      intro x q hq
      rw [Recorded.sent_step hrecorded x] at hq
      by_cases hx : x = id
      · subst hx
        simp only [Function.update_self]
        rcases List.mem_append.mp hq with hq | hq
        · exact Nat.le_trans (ho x q hq) (Nat.le_succ_of_le hplace)
        · rw [sentOn, if_pos rfl, List.mem_singleton] at hq
          rw [hq]
          exact Nat.le_of_eq (hs.call hlt hp)
      · rw [sentOn, if_neg (Ne.symm hx), List.append_nil] at hq
        simp only [Function.update_of_ne hx]
        exact ho x q hq
    · cases h
  | receive | service =>
    obtain ⟨recorded, hrecorded, rfl⟩ := Option.map_eq_some_iff.mp h
    intro x q hq
    have hsame := (Recorded.sent_step hrecorded x).trans (List.append_nil _)
    exact ho x q (hsame ▸ hq)

/-- A call in order has a greater id than those before it. -/
theorem follows_recorded (hs : Counted s) (ho : Ordered s) (hin : s.InOrder owner e)
    (h : s.step owner e = some s') :
    Run Recorded.step Recorded.Admissible s.recorded s'.recorded := by
  cases e with
  | create client r =>
    simp only [Numbered.step, createRequest_eq] at h
    cases h
    exact .refl
  | call id place =>
    obtain ⟨hplace, hlt, hfits⟩ := hin
    simp only [Numbered.step] at h
    split at h
    · next t r hp =>
      obtain ⟨recorded, hrecorded, rfl⟩ := Option.map_eq_some_iff.mp h
      have hgreater : ∀ earlier ∈ s.recorded.sent id, earlier.1 < t := by
        intro earlier hearlier
        rw [BitVec.lt_def, hs.call hlt hp]
        exact Nat.lt_succ_of_le (Nat.le_trans (ho id earlier hearlier) hplace)
      exact .single (a := .call id t r) ⟨hfits (t, r) hp, hgreater⟩ hrecorded
    · cases h
  | receive id =>
    obtain ⟨recorded, hrecorded, rfl⟩ := Option.map_eq_some_iff.mp h
    exact .single (a := .receive id) trivial hrecorded
  | service event =>
    obtain ⟨recorded, hrecorded, rfl⟩ := Option.map_eq_some_iff.mp h
    exact .single (a := .service event) hin hrecorded

/-- The ids of a client grow until the counter is back at 0. -/
theorem Counted.grow_iff (hs : Counted s) (client : ClientId) :
    (s.created client).Pairwise (fun p q => p.1 < q.1) ↔ (s.created client).length ≤ 65535 := by
  rw [List.pairwise_iff_getElem]
  constructor
  · intro hgrow
    refine Nat.le_of_not_lt fun hlong => ?_
    have hfirst := hs.ids client 0 _ (List.getElem?_eq_getElem (by omega))
    have hlast := hs.ids client 65535 _ (List.getElem?_eq_getElem hlong)
    have hlt := hgrow 0 65535 (by omega) hlong (by omega)
    rw [hfirst, hlast] at hlt
    exact absurd hlt (by decide)
  · intro hfew i j hi hj hij
    rw [hs.ids client i _ (List.getElem?_eq_getElem hi),
      hs.ids client j _ (List.getElem?_eq_getElem hj), BitVec.lt_def, BitVec.toNat_ofNat,
      BitVec.toNat_ofNat, Nat.mod_eq_of_lt (by omega), Nat.mod_eq_of_lt (by omega)]
    omega

end Steps

theorem counted_of_run {owner : SessionId → ClientId} {config : ServerConfig}
    {handler : RequestHandler} {s : Numbered} {guard : Numbered → NumberedEvent → Prop}
    (h : Run (Numbered.step owner) guard (.initial config handler) s) : Counted s :=
  h.invariant Counted ⟨fun _ => rfl, fun _ _ _ hp => by cases hp⟩
    fun _ _ _ ht _ hstep => counted_step ht hstep

/-- However many clients create requests and call with them, over however many connections
and at whatever time: if the calls on each connection come in the order in which their
requests were created, and each is one of the first 65535 of its client, then the run is
one with growing ids on every connection. The ids of a client grow as long as it has
created no more than 65535 requests, and not beyond. -/
theorem numbered_admissible (owner : SessionId → ClientId) (config : ServerConfig)
    (handler : RequestHandler) (s : Numbered)
    (h : Run (Numbered.step owner) (Numbered.InOrder owner) (.initial config handler) s) :
    Run Recorded.step Recorded.Admissible (.initial config handler) s.recorded ∧
      ∀ client, (s.created client).Pairwise (fun p q => p.1 < q.1) ↔
        (s.created client).length ≤ 65535 := by
  have hinit : Counted (.initial config handler) ∧ Ordered (.initial config handler) :=
    ⟨⟨fun _ => rfl, fun _ _ _ hp => by cases hp⟩, fun _ _ hp => by cases hp⟩
  have hkept : ∀ t e u, Counted t ∧ Ordered t → t.InOrder owner e → t.step owner e = some u →
      Counted u ∧ Ordered u :=
    fun _ _ _ ⟨hs, ho⟩ hin hstep => ⟨counted_step hs hstep, ordered_step hs ho hin hstep⟩
  exact ⟨h.simulate Numbered.recorded hkept
    (fun _ _ _ ⟨hs, ho⟩ hin hstep => follows_recorded hs ho hin hstep) hinit,
    (counted_of_run h).grow_iff⟩

/-- A client creates two requests, gives up the first and calls with the second. -/
def createsTwo : List NumberedEvent :=
  (.server (.listen true) :: accepts 0).map .service ++
    [.create 0 (.readCoils ⟨1, 0, 8⟩), .create 0 (.writeSingleCoil ⟨1, 0, true⟩), .call 0 0,
      .receive 0, .call 0 1, .service (.server (.session 0 (.readDone (.ok eightCoilsRead)))),
      .service (.handle 0)]

theorem numbered_admissible_createsTwo :
    ∃ s, Run (Numbered.step fun _ => 0) (Numbered.InOrder fun _ => 0)
        (.initial .default .initial) s ∧
      (s.recorded.sent 0).map Prod.fst = [1, 2] ∧
      Run Recorded.step Recorded.Admissible (.initial .default .initial) s.recorded ∧
      ∀ client, (s.created client).Pairwise (fun p q => p.1 < q.1) ↔
        (s.created client).length ≤ 65535 :=
  ⟨_, Run.of_exec createsTwo rfl, rfl,
    numbered_admissible (fun _ => 0) .default .initial _ (Run.of_exec createsTwo rfl)⟩

end Modbus.EndToEnd
