import Mathlib.Logic.Function.Basic
import Modbus.Lib.Transition
import Modbus.Client.Matching

/-! # Calls, pools and reconfiguration

`TcpClient.lean` runs a call from its start to its end. Here a call is a coroutine
that other calls and `set_config` interrupt at each of its `co_await`s, and its
connection belongs to the pool that handed it out. `set_config` replaces the pool;
the cleanup of a call releases the connection to the pool that is there by then. The
client is a step function over the calls and the current pool. A connection returns
to its own pool in every run that takes no pool away from under a call
(`returnsHome_of_run`). Every call of `TcpClient.lean` is a run of its coroutine
(`sendRequest_run`). Of a configuration only that it comes with a new pool is kept,
and of a pool that it owns the connections it hands out. -/
namespace Modbus.Client
open Bytes TcpDataUnit Transition

/-- The pools, in the order in which they are made. -/
abbrev PoolId := Nat

/-- A connection that a pool has handed out. -/
structure PoolConnection where
  owner : PoolId
  number : Nat
deriving DecidableEq, Repr

/-- Where a `send_request` is suspended. -/
inductive CallPc where
  /-- It has been called and not resumed. -/
  | starting
  /-- It waits for `get_connection` of the pool. -/
  | getting (pool : PoolId)
  /-- It waits for `clear_buffer`, and in the next two for `send_request(connection, buf)`
  and `read_response`, whichever read or write these wait for themselves. -/
  | clearing (connection : PoolConnection)
  | writing (connection : PoolConnection)
  | reading (connection : PoolConnection)
  | finished (result : Except Exn ReadResponse)
  /-- The coroutine was destroyed, or left by an exception from below. -/
  | unwound
deriving DecidableEq, Repr

/-- The connection that the cleanup of the coroutine will release. -/
def CallPc.connection : CallPc → Option PoolConnection
  | .clearing connection | .writing connection | .reading connection => some connection
  | _ => none

structure SendCall where
  request : TcpDataUnit
  pc : CallPc
deriving DecidableEq, Repr

inductive CallEvent where
  | resume
  /-- `get_connection` returns a connection, by its number, or a null pointer. -/
  | connected (number : Option Nat)
  | cleared (error : Option ClientError)
  | written (error : Option ClientError)
  | responded (result : Except Exn ReadResponse)
  | unwind

namespace SendCall

/-- Where `send_request` goes from a suspension, and the connection that it releases if
it leaves. -/
def step (conPool : PoolId) (c : SendCall) (e : CallEvent) :
    Option (SendCall × Option PoolConnection) :=
  match c.pc, e with
  | .starting, .resume => some ({ c with pc := .getting conPool }, none)
  | .getting _, .connected none =>
    some ({ c with pc := .finished (.ok ⟨empty, some .stopped⟩) }, none)
  | .getting pool, .connected (some number) =>
    some ({ c with pc := .clearing ⟨pool, number⟩ }, none)
  | .clearing connection, .cleared (some error) =>
    some ({ c with pc := .finished (.ok ⟨empty, some error⟩) }, some connection)
  | .clearing connection, .cleared none =>
    match c.request.transactionId with -- for the log
    | .error exn => some ({ c with pc := .finished (.error exn) }, some connection)
    | .ok _ => some ({ c with pc := .writing connection }, none)
  | .writing connection, .written (some error) =>
    let error := if error = .net .timedOut then .writeTimeout else error
    some ({ c with pc := .finished (.ok ⟨empty, some error⟩) }, some connection)
  | .writing connection, .written none => some ({ c with pc := .reading connection }, none)
  | .reading connection, .responded (.error exn) =>
    some ({ c with pc := .finished (.error exn) }, some connection)
  | .reading connection, .responded (.ok ⟨response, some error⟩) =>
    let error := if error = .net .timedOut then .readTimeout else error
    some ({ c with pc := .finished (.ok ⟨response, some error⟩) }, some connection)
  | .reading connection, .responded (.ok ⟨response, none⟩) =>
    match response.transactionId, c.request.transactionId with
    | .error exn, _ | _, .error exn =>
      some ({ c with pc := .finished (.error exn) }, some connection)
    | .ok received, .ok transactionId =>
      if received < transactionId then
        some ({ c with pc := .reading connection }, none)
      else
        some ({ c with pc := .finished (.ok ⟨response, none⟩) }, some connection)
  | .starting, .unwind | .getting _, .unwind => some ({ c with pc := .unwound }, none)
  | .clearing connection, .unwind | .writing connection, .unwind | .reading connection, .unwind =>
    some ({ c with pc := .unwound }, some connection)
  | _, _ => none

end SendCall

/-! ## The client -/

abbrev CallId := Nat

structure PoolClient where
  /-- `con_pool_`. -/
  conPool : PoolId
  nextPool : PoolId
  calls : CallId → Option SendCall
  /-- A history variable: each connection that was released, and the pool that
  `con_pool_` was then. -/
  released : List (PoolConnection × PoolId)

inductive ClientEvent where
  | sendRequest (id : CallId) (request : TcpDataUnit)
  | call (id : CallId) (event : CallEvent)
  | setConfig

namespace PoolClient

def initial : PoolClient where
  conPool := 0
  nextPool := 1
  calls := fun _ => none
  released := []

/-- A call has moved, and may have released its connection. -/
def moved (s : PoolClient) (id : CallId) (call : SendCall) (released : Option PoolConnection) :
    PoolClient :=
  { s with
    calls := Function.update s.calls id (some call)
    released := s.released ++ (released.map fun connection => (connection, s.conPool)).toList }

section Moved
variable (s : PoolClient) (id : CallId) (call : SendCall) (released : Option PoolConnection)

@[simp] theorem moved_conPool : (s.moved id call released).conPool = s.conPool := rfl

@[simp] theorem moved_self : (s.moved id call released).calls id = some call :=
  Function.update_self id _ s.calls

theorem moved_ne {other : CallId} (h : other ≠ id) :
    (s.moved id call released).calls other = s.calls other :=
  Function.update_of_ne h _ s.calls

/-- Only the last move of a call counts. -/
@[simp] theorem moved_moved (call' : SendCall) :
    (s.moved id call none).moved id call' released = s.moved id call' released := by
  simp [moved]

end Moved

def step (s : PoolClient) : ClientEvent → Option PoolClient
  | .sendRequest id request =>
    match s.calls id with
    | none => some (s.moved id ⟨request, .starting⟩ none)
    | some _ => none
  | .call id event =>
    match s.calls id with
    | none => none
    | some call => (call.step s.conPool event).map fun r => s.moved id r.1 r.2
  | .setConfig => some { s with conPool := s.nextPool, nextPool := s.nextPool + 1 }

end PoolClient

/-- Every connection was released to the pool that owns it, and those in use belong to
the current pool. -/
structure ReturnsHome (s : PoolClient) : Prop where
  released : ∀ r ∈ s.released, r.1.owner = r.2
  held : ∀ id call connection, s.calls id = some call → call.pc.connection = some connection →
    connection.owner = s.conPool

/-- The step takes no pool away from a connection: no call has a connection when the
pool is replaced, and a pool that was replaced hands out none. -/
def KeepsPool (s : PoolClient) : ClientEvent → Prop
  | .setConfig => ∀ id call, s.calls id = some call → call.pc.connection = none
  | .call id (.connected (some _)) =>
    ∀ call pool, s.calls id = some call → call.pc = .getting pool → pool = s.conPool
  | _ => True

/-! ## What a step can do -/

/-- What a step of a call does with its connection: it takes one, goes on with or without
it, or gives it back. -/
inductive CallMoves (c : SendCall) : CallEvent → SendCall → Option PoolConnection → Prop
  | takes {c' : SendCall} {pool number : Nat} (pc : c.pc = .getting pool)
      (next : c'.pc.connection = some ⟨pool, number⟩) :
      CallMoves c (.connected (some number)) c' none
  | goes {e : CallEvent} {c' : SendCall} (other : ∀ number, e ≠ .connected (some number))
      (same : c'.pc.connection = c.pc.connection) : CallMoves c e c' none
  | gives {e : CallEvent} {c' : SendCall} {connection : PoolConnection}
      (other : ∀ number, e ≠ .connected (some number))
      (held : c.pc.connection = some connection) (left : c'.pc.connection = none) :
      CallMoves c e c' (some connection)

theorem call_moves {pool : PoolId} {c c' : SendCall} {e : CallEvent} {r : Option PoolConnection}
    (h : c.step pool e = some (c', r)) : CallMoves c e c' r := by
  obtain ⟨request, pc⟩ := c
  cases pc with
  | starting =>
    cases e with
    | resume | unwind =>
      cases h
      exact .goes nofun rfl
    | _ => cases h
  | getting pool =>
    cases e with
    | connected number =>
      cases number with
      | none =>
        cases h
        exact .goes nofun rfl
      | some number =>
        cases h
        exact .takes rfl rfl
    | unwind =>
      cases h
      exact .goes nofun rfl
    | _ => cases h
  | clearing connection =>
    cases e with
    | cleared error =>
      cases error with
      | some error =>
        cases h
        exact .gives nofun rfl rfl
      | none =>
        simp only [SendCall.step] at h
        split at h
        · cases h
          exact .gives nofun rfl rfl
        · cases h
          exact .goes nofun rfl
    | unwind =>
      cases h
      exact .gives nofun rfl rfl
    | _ => cases h
  | writing connection =>
    cases e with
    | written error =>
      cases error with
      | some error =>
        cases h
        exact .gives nofun rfl rfl
      | none =>
        cases h
        exact .goes nofun rfl
    | unwind =>
      cases h
      exact .gives nofun rfl rfl
    | _ => cases h
  | reading connection =>
    cases e with
    | responded result =>
      rcases result with exn | ⟨response, _ | error⟩
      · cases h
        exact .gives nofun rfl rfl
      · simp only [SendCall.step] at h
        split at h
        · cases h
          exact .gives nofun rfl rfl
        · cases h
          exact .gives nofun rfl rfl
        · split at h
          · cases h
            exact .goes nofun rfl
          · cases h
            exact .gives nofun rfl rfl
      · cases h
        exact .gives nofun rfl rfl
    | unwind =>
      cases h
      exact .gives nofun rfl rfl
    | _ => cases h
  | finished result | unwound => cases h

/-- The steps of the client, with what each changes. -/
inductive ClientMoves (s : PoolClient) : ClientEvent → PoolClient → Prop
  | called {id : CallId} {request : TcpDataUnit} :
      ClientMoves s (.sendRequest id request) (s.moved id ⟨request, .starting⟩ none)
  | moved {id : CallId} {e : CallEvent} {c c' : SendCall} {r : Option PoolConnection}
      (before : s.calls id = some c) (moves : CallMoves c e c' r) :
      ClientMoves s (.call id e) (s.moved id c' r)
  | replaced :
      ClientMoves s .setConfig { s with conPool := s.nextPool, nextPool := s.nextPool + 1 }

theorem client_moves {s s' : PoolClient} {e : ClientEvent} (h : s.step e = some s') :
    ClientMoves s e s' := by
  cases e with
  | sendRequest id request =>
    simp only [PoolClient.step] at h
    split at h
    · cases h
      exact .called
    · cases h
  | call id event =>
    simp only [PoolClient.step] at h
    split at h
    · cases h
    · next c hc =>
      obtain ⟨⟨c', r⟩, hstep, hs⟩ := Option.map_eq_some_iff.mp h
      cases hs
      exact .moved hc (call_moves hstep)
  | setConfig =>
    cases h
    exact .replaced

/-! ## Connections and their pools -/

/-- The number of the current pool is never used again. -/
theorem conPool_lt_step {s s' : PoolClient} {e : ClientEvent} (h : s.step e = some s')
    (hlt : s.conPool < s.nextPool) : s'.conPool < s'.nextPool := by
  cases client_moves h with
  | called | moved => exact hlt
  | replaced => exact Nat.lt_succ_self _

/-- After a call has moved, only its own connection is in question. -/
theorem returnsHome_moved_iff {s : PoolClient} (hs : ReturnsHome s) (id : CallId) (c : SendCall)
    (r : Option PoolConnection) :
    ReturnsHome (s.moved id c r) ↔
      (∀ connection, c.pc.connection = some connection → connection.owner = s.conPool) ∧
        ∀ connection, r = some connection → connection.owner = s.conPool := by
  constructor
  · intro ⟨hreleased, hheld⟩
    refine ⟨fun connection hc => ?_, fun connection hr => ?_⟩
    · exact hheld id c connection (PoolClient.moved_self s id c r) hc
    · subst hr
      exact hreleased (connection, s.conPool) (by simp [PoolClient.moved])
  · intro ⟨hown, hback⟩
    constructor
    · intro back hmem
      rcases List.mem_append.mp hmem with hold | hnew
      · exact hs.released back hold
      · obtain ⟨connection, hr, rfl⟩ := Option.map_eq_some_iff.mp (Option.mem_toList.mp hnew)
        exact hback connection hr
    · intro other call connection hcall hc
      by_cases hother : other = id
      · subst hother
        rw [PoolClient.moved_self] at hcall
        cases hcall
        exact hown connection hc
      · rw [PoolClient.moved_ne s id c r hother] at hcall
        exact hs.held other call connection hcall hc

/-- Only `get_connection` can hand a call a connection of another pool. -/
theorem keepsPool_call_iff {s : PoolClient} {id : CallId} {e : CallEvent} :
    KeepsPool s (.call id e) ↔ ∀ number, e = .connected (some number) →
      ∀ call pool, s.calls id = some call → call.pc = .getting pool → pool = s.conPool := by
  cases e with
  | connected number => cases number <;> simp [KeepsPool]
  | _ => simp [KeepsPool]

/-- A call that moves leaves its pool only when it is given a connection of another. -/
theorem returnsHome_call_iff {s : PoolClient} (hs : ReturnsHome s) {id : CallId} {e : CallEvent}
    {c c' : SendCall} {r : Option PoolConnection} (before : s.calls id = some c)
    (moves : CallMoves c e c' r) : ReturnsHome (s.moved id c' r) ↔ KeepsPool s (.call id e) := by
  rw [returnsHome_moved_iff hs]
  cases moves with
  | takes pc next =>
    rw [and_iff_left nofun]
    constructor
    · intro hown call pool hcall hpc
      rw [before] at hcall
      cases hcall
      rw [pc] at hpc
      cases hpc
      exact hown _ next
    · intro hkeeps connection hc
      rw [next] at hc
      cases hc
      exact hkeeps _ _ before pc
  | goes other same =>
    refine iff_of_true ⟨fun connection hc => ?_, nofun⟩
      (keepsPool_call_iff.mpr fun number he => absurd he (other number))
    rw [same] at hc
    exact hs.held _ _ connection before hc
  | gives other held left =>
    refine iff_of_true ⟨fun connection hc => ?_, fun connection hr => ?_⟩
      (keepsPool_call_iff.mpr fun number he => absurd he (other number))
    · rw [left] at hc
      cases hc
    · cases hr
      exact hs.held _ _ _ before held

/-- A new pool is none of the old ones, so no connection may be in use. -/
theorem returnsHome_replaced_iff {s : PoolClient} (hs : ReturnsHome s)
    (hlt : s.conPool < s.nextPool) :
    ReturnsHome { s with conPool := s.nextPool, nextPool := s.nextPool + 1 } ↔
      KeepsPool s .setConfig := by
  constructor
  · intro hs' id call hcall
    -- a connection that is still held would belong to both pools
    by_contra hheld
    obtain ⟨connection, hc⟩ := Option.ne_none_iff_exists'.mp hheld
    have hold := hs.held id call connection hcall hc
    have hnew := hs'.held id call connection hcall hc
    rw [hold] at hnew
    exact absurd hnew (Nat.ne_of_lt hlt)
  · intro hkeeps
    refine ⟨hs.released, fun id call connection hcall hc => ?_⟩
    rw [hkeeps id call hcall] at hc
    cases hc

/-- A step keeps every connection with its pool exactly when it takes no pool away. -/
theorem returnsHome_step_iff {s s' : PoolClient} {e : ClientEvent} (hs : ReturnsHome s)
    (hlt : s.conPool < s.nextPool) (h : s.step e = some s') : ReturnsHome s' ↔ KeepsPool s e := by
  cases client_moves h with
  | called =>
    rw [returnsHome_moved_iff hs]
    exact iff_of_true ⟨nofun, nofun⟩ trivial
  | moved before moves => exact returnsHome_call_iff hs before moves
  | replaced => exact returnsHome_replaced_iff hs hlt

theorem returnsHome_initial : ReturnsHome .initial := ⟨nofun, nofun⟩

/-! ## Calls that are not interrupted -/

section Uninterrupted
variable {s : PoolClient} {id : CallId} {c c' : SendCall} {e : CallEvent}
  {r : Option PoolConnection}

/-- A step of a call whose pool is the current one takes no pool away. -/
theorem call_run (h : c.step s.conPool e = some (c', r))
    (hpool : ∀ pool, c.pc = .getting pool → pool = s.conPool) :
    Run PoolClient.step KeepsPool (s.moved id c none) (s.moved id c' r) := by
  have hkeeps : KeepsPool (s.moved id c none) (.call id e) := by
    refine keepsPool_call_iff.mpr fun _ _ call pool hcall hpc => ?_
    rw [PoolClient.moved_self] at hcall
    cases hcall
    exact hpool pool hpc
  refine .single (a := .call id e) hkeeps ?_
  simp [PoolClient.step, h]

/-- Nor does a step of a call that has a connection. -/
theorem held_run {connection : PoolConnection} (hheld : c.pc.connection = some connection)
    (h : c.step s.conPool e = some (c', r)) :
    Run PoolClient.step KeepsPool (s.moved id c none) (s.moved id c' r) := by
  refine call_run h fun pool hpool => ?_
  rw [hpool] at hheld
  cases hheld

end Uninterrupted

/-- What `send_request` returns for the result of its loop. -/
def loopResult : Except Exn ReadResponse → Except Exn ReadResponse
  | .ok ⟨response, some (.net .timedOut)⟩ => .ok ⟨response, some .readTimeout⟩
  | result => result

theorem loopResult_error (response : TcpDataUnit) (error : ClientError) :
    loopResult (.ok ⟨response, some error⟩) =
      .ok ⟨response, some (if error = .net .timedOut then .readTimeout else error)⟩ := by
  cases error with
  | net error => cases error <;> simp [loopResult]
  | _ => simp [loopResult]

/-- The loop of an uninterrupted call. -/
theorem readLoop_run (s : PoolClient) (id : CallId) {request : TcpDataUnit} {tid : Word}
    (htid : request.transactionId = .ok tid) (connection : PoolConnection) (c : Connection) :
    Run PoolClient.step KeepsPool (s.moved id ⟨request, .reading connection⟩ none)
      (s.moved id ⟨request, .finished (loopResult (readLoop tid c).1)⟩ (some connection)) := by
  fun_induction readLoop tid c with
  | case1 c exn c' hread => exact held_run (e := .responded (.error exn)) rfl rfl
  | case2 c response error c' hread =>
    rw [loopResult_error]
    exact held_run (e := .responded (.ok ⟨response, some error⟩)) rfl rfl
  | case3 c response c' hread exn hid =>
    refine held_run (e := .responded (.ok ⟨response, none⟩)) rfl ?_
    simp [SendCall.step, hid, loopResult]
  | case4 c response c' hread received hid hlt ih =>
    refine Run.trans (held_run (e := .responded (.ok ⟨response, none⟩)) rfl ?_) ih
    simp [SendCall.step, hid, htid, hlt]
  | case5 c response c' hread received hid hge =>
    refine held_run (e := .responded (.ok ⟨response, none⟩)) rfl ?_
    simp [SendCall.step, hid, htid, hge, loopResult]

/-- A call that came to its loop returns what the loop returns. -/
theorem sendRequest_loop {call : Call} {c c₁ : Connection} {tid : Word}
    (hconnected : call.connected = true)
    (hclear : clearBuffer call.available { c with source := ⟨c.source.rest, call.plan⟩ } =
      (none, c₁)) (hid : call.request.transactionId = .ok tid) (hwrite : writeRequest call = none) :
    (sendRequest call c).1 = loopResult (readLoop tid c₁).1 := by
  simp only [sendRequest, hconnected, hclear, hid, hwrite, Bool.not_true, Bool.false_eq_true,
    if_false]
  cases hloop : readLoop tid c₁ with
  | mk result c₂ =>
    rcases result with exn | ⟨response, _ | error⟩
    · rfl
    · rfl
    · cases error with
      | net error => cases error <;> rfl
      | _ => rfl

/-- A call whose write failed returns the error of the write. -/
theorem sendRequest_unwritten {call : Call} {c c₁ : Connection} {tid : Word} {error : ClientError}
    (hconnected : call.connected = true)
    (hclear : clearBuffer call.available { c with source := ⟨c.source.rest, call.plan⟩ } =
      (none, c₁)) (hid : call.request.transactionId = .ok tid)
    (hwrite : writeRequest call = some error) :
    (sendRequest call c).1 =
      .ok ⟨empty, some (if error = .net .timedOut then .writeTimeout else error)⟩ := by
  simp only [sendRequest, hconnected, hclear, hid, hwrite, Bool.not_true, Bool.false_eq_true,
    if_false]
  cases error with
  | net error => cases error <;> simp
  | _ => simp

/-- A call that nothing interrupts is a run of the client, which returns the connection
to its pool. -/
theorem sendRequest_run (s : PoolClient) (id : CallId) (hfresh : s.calls id = none) (call : Call)
    (c : Connection) (number : Nat) :
    Run PoolClient.step KeepsPool s
      (s.moved id ⟨call.request, .finished (sendRequest call c).1⟩
        (if call.connected then some ⟨s.conPool, number⟩ else none)) := by
  have hcalled : Run PoolClient.step KeepsPool s
      (s.moved id ⟨call.request, .starting⟩ none) := by
    refine .single (a := .sendRequest id call.request) trivial ?_
    simp [PoolClient.step, hfresh]
  have hgetting : Run PoolClient.step KeepsPool s
      (s.moved id ⟨call.request, .getting s.conPool⟩ none) :=
    hcalled.trans (call_run (e := .resume) rfl fun pool hpool => by cases hpool)
  have hcurrent : ∀ pool, CallPc.getting s.conPool = .getting pool → pool = s.conPool := by
    intro pool hpool
    cases hpool
    rfl
  cases hconnected : call.connected with
  | false =>
    have hresult : (sendRequest call c).1 = .ok ⟨empty, some .stopped⟩ := by
      simp [sendRequest, hconnected]
    rw [hresult]
    exact hgetting.trans (call_run (e := .connected none) rfl hcurrent)
  | true =>
    have hclearing : Run PoolClient.step KeepsPool s
        (s.moved id ⟨call.request, .clearing ⟨s.conPool, number⟩⟩ none) :=
      hgetting.trans (call_run (e := .connected (some number)) rfl hcurrent)
    cases hclear : clearBuffer call.available { c with source := ⟨c.source.rest, call.plan⟩ } with
    | mk error c₁ =>
      cases error with
      | some error =>
        have hresult : (sendRequest call c).1 = .ok ⟨empty, some error⟩ := by
          simp [sendRequest, hconnected, hclear]
        rw [hresult]
        exact hclearing.trans (held_run (e := .cleared (some error)) rfl rfl)
      | none =>
        cases hid : call.request.transactionId with
        | error exn =>
          have hresult : (sendRequest call c).1 = .error exn := by
            simp [sendRequest, hconnected, hclear, hid]
          rw [hresult]
          refine hclearing.trans (held_run (e := .cleared none) rfl ?_)
          simp [SendCall.step, hid]
        | ok tid =>
          have hwriting : Run PoolClient.step KeepsPool s
              (s.moved id ⟨call.request, .writing ⟨s.conPool, number⟩⟩ none) := by
            refine hclearing.trans (held_run (e := .cleared none) rfl ?_)
            simp [SendCall.step, hid]
          cases hwrite : writeRequest call with
          | some error =>
            rw [sendRequest_unwritten hconnected hclear hid hwrite]
            exact hwriting.trans (held_run (e := .written (some error)) rfl rfl)
          | none =>
            rw [sendRequest_loop hconnected hclear hid hwrite]
            have hreading := hwriting.trans (held_run (e := .written none) rfl rfl)
            exact hreading.trans (readLoop_run s id hid ⟨s.conPool, number⟩ c₁)

/-! ## Any order of calls and configurations -/

/-- In every run that takes no pool away from a call, every connection is released to
the pool it came from and no call uses one of a pool that was replaced; and such a run
stays so with its next step exactly when that step takes no pool away. -/
theorem returnsHome_of_run (s : PoolClient) (h : Run PoolClient.step KeepsPool .initial s) :
    ReturnsHome s ∧ ∀ e s', s.step e = some s' → (ReturnsHome s' ↔ KeepsPool s e) := by
  have hinv : ReturnsHome s ∧ s.conPool < s.nextPool := by
    refine h.invariant (fun s => ReturnsHome s ∧ s.conPool < s.nextPool) ?_ ?_
    · exact ⟨returnsHome_initial, Nat.one_pos⟩
    · intro t e u ⟨ht, hlt⟩ hkeeps hstep
      exact ⟨(returnsHome_step_iff ht hlt hstep).mpr hkeeps, conPool_lt_step hstep hlt⟩
  exact ⟨hinv.1, fun e s' hstep => returnsHome_step_iff hinv.1 hinv.2 hstep⟩

/-- A call returns its connection, and the pool is replaced. -/
theorem returnsHome_after_call :
    let returned := PoolClient.initial.moved 0
      ⟨coilRequest 1, .finished (sendRequest (cleanCall (coilRequest 1) []) ⟨⟨[], []⟩, []⟩).1⟩
      (some ⟨0, 0⟩)
    ReturnsHome { returned with conPool := 1, nextPool := 2 } :=
  (returnsHome_of_run _ ((sendRequest_run .initial 0 rfl (cleanCall (coilRequest 1) [])
    ⟨⟨[], []⟩, []⟩ 0).tail (a := .setConfig)
      (by
        intro id call hcall
        by_cases hid : id = 0
        · subst hid
          rw [PoolClient.moved_self] at hcall
          cases hcall
          rfl
        · rw [PoolClient.moved_ne _ _ _ _ hid] at hcall
          cases hcall) rfl)).1

/-- The pool is replaced while a call waits for its response. The call goes on with the
connection of the first pool and releases it to the second. -/
theorem released_to_other_pool :
    ∃ s t, Reachable PoolClient.step .initial s ∧
      s.calls 0 = some ⟨coilRequest 1, .reading ⟨0, 0⟩⟩ ∧ s.conPool = 1 ∧ ¬ ReturnsHome s ∧
      Reachable PoolClient.step s t ∧ t.released = [(⟨0, 0⟩, 1)] ∧ ¬ ReturnsHome t := by
  refine ⟨_, _, Run.of_exec [.sendRequest 0 (coilRequest 1), .call 0 .resume,
      .call 0 (.connected (some 0)), .call 0 (.cleared none), .call 0 (.written none),
      .setConfig] rfl, rfl, rfl, ?_,
    Run.of_exec [.call 0 (.responded (.ok
      ⟨⟨readBuffer (coilAnswer 1).bytes, .response⟩, none⟩))] rfl, rfl, ?_⟩
  · intro hs
    have howner := hs.held 0 _ ⟨0, 0⟩ rfl rfl
    cases howner
  · intro ht
    have howner := ht.released (⟨0, 0⟩, 1) List.mem_cons_self
    cases howner

end Modbus.Client
