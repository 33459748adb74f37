import Modbus.Lib.Lending
import Modbus.Client.Pool

/-! # Every connection is given back, once

The cleanup of `send_request` runs on every way out: an error, an exception, the end of
the call, or its destruction. So a pool that hands out only what it does not already lend
never sees a connection used by two calls, and gets every connection back exactly once
(`connections_balanced`), whatever is interrupted and however often the configuration is
replaced. To whom it is given back is another matter (`Pool.lean`). -/
namespace Modbus.Client
open Bytes TcpDataUnit Transition Lending

/-- The connection that a call has. -/
def PoolClient.holding (s : PoolClient) (id : CallId) : Option PoolConnection :=
  (s.calls id).bind fun call => call.pc.connection

/-- The client together with what the pools lent it. -/
structure Leases where
  client : PoolClient
  /-- A history variable: the connections handed out, in that order. -/
  lent : List PoolConnection

/-- What was released, by whichever pool it was released to. -/
def PoolClient.returned (s : PoolClient) : List PoolConnection := s.released.map Prod.fst

/-- The connection that an event hands to a call. -/
def PoolClient.handed (s : PoolClient) : ClientEvent → Option PoolConnection
  | .call id (.connected (some number)) =>
    match s.calls id with
    | some ⟨_, .getting pool⟩ => some ⟨pool, number⟩
    | _ => none
  | _ => none

namespace Leases

def initial : Leases := ⟨.initial, []⟩

def step (s : Leases) (e : ClientEvent) : Option Leases :=
  (s.client.step e).map fun client => ⟨client, s.lent ++ (s.client.handed e).toList⟩

/-- A pool hands out no connection that it lends already: by its lists the connection was
given back as often as it was handed out. -/
def LendsIdle (s : Leases) (e : ClientEvent) : Prop :=
  ∀ connection ∈ s.client.handed e,
    s.lent.count connection = s.client.returned.count connection

instance (s : Leases) : DecidablePred s.LendsIdle := fun e =>
  inferInstanceAs (Decidable (∀ connection ∈ s.client.handed e, _))

/-- The lists of a client are balanced. -/
def Settled (s : Leases) : Prop := Balanced s.client.holding s.lent s.client.returned

end Leases

section Moves
variable (s : PoolClient) (id : CallId) (call : SendCall)

theorem holding_moved (released : Option PoolConnection) :
    (s.moved id call released).holding = Function.update s.holding id call.pc.connection := by
  funext x
  by_cases hne : x = id
  · subst hne
    simp [PoolClient.holding]
  · simp [PoolClient.holding, PoolClient.moved_ne s id call released hne, hne]

theorem returned_moved (released : Option PoolConnection) :
    (s.moved id call released).returned = s.returned ++ released.toList := by
  cases released <;> simp [PoolClient.returned, PoolClient.moved]

/-- Only the end of `get_connection` hands a connection out. -/
theorem handed_other {e : CallEvent} (h : ∀ number, e ≠ .connected (some number)) :
    s.handed (.call id e) = none := by
  cases e with
  | connected number =>
    cases number with
    | none => rfl
    | some number => exact absurd rfl (h number)
  | _ => rfl

end Moves

theorem settled_step {s s' : Leases} {e : ClientEvent} (hs : s.Settled) (hidle : s.LendsIdle e)
    (h : s.step e = some s') : s'.Settled := by
  obtain ⟨client, hclient, hs'⟩ := Option.map_eq_some_iff.mp h
  cases hs'
  unfold Leases.Settled at hs ⊢
  cases client_moves hclient with
  | @called id request =>
    have hfresh : s.client.calls id = none := by
      simp only [PoolClient.step] at hclient
      split at hclient
      · next hnone => exact hnone
      · cases hclient
    have hnone : s.client.holding id = none := by
      rw [PoolClient.holding, hfresh]
      rfl
    rw [holding_moved, returned_moved, Function.update_eq_self_iff.mpr hnone.symm]
    simpa [PoolClient.handed] using hs
  | @moved id event c c' r before moves =>
    have hholding : s.client.holding id = c.pc.connection := by
      rw [PoolClient.holding, before]
      rfl
    rw [holding_moved, returned_moved]
    cases moves with
    | @takes _ pool number pc next =>
      have hhanded : s.client.handed (.call id (.connected (some number))) = some ⟨pool, number⟩ := by
        obtain ⟨request, pc'⟩ := c
        obtain rfl : pc' = .getting pool := pc
        simp only [PoolClient.handed, before]
      rw [hhanded, next, Option.toList_none, List.append_nil]
      refine hs.take ?_ (hidle _ hhanded)
      rw [hholding, pc]
      rfl
    | goes other same =>
      rw [handed_other _ _ other, same, ← hholding, Function.update_eq_self]
      simpa using hs
    | gives other held left =>
      rw [handed_other _ _ other, left, Option.toList_none, List.append_nil]
      exact hs.give (hholding.trans held)
  | replaced => exact (List.append_nil s.lent).symm ▸ hs

/-- A connection is used by a call that fails and by one that is destroyed, while another
call has a second one. -/
def reuses : List ClientEvent :=
  [.sendRequest 0 (coilRequest 1), .sendRequest 1 (coilRequest 2), .call 0 .resume,
    .call 1 .resume, .call 0 (.connected (some 0)), .call 0 (.cleared (some .disconnected)),
    .call 1 (.connected (some 0)), .sendRequest 2 (coilRequest 3), .call 2 .resume,
    .call 2 (.connected (some 1)), .call 1 (.cleared none), .call 1 .unwind]

end Modbus.Client
