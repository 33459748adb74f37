import Mathlib.Data.List.Induction
import Modbus.Client.Matching

/-! # Staying on frame boundaries

A call may be cut in the middle of a frame; the connection keeps the rest of it and
the next call starts by dropping what is available. From a frame boundary the
reading loop only ever starts at frame boundaries (`readLoop_boundary`), so over any
run of calls every read starts at a boundary as long as every clearing that comes before
one ends at a boundary (`starts_at_boundary`). Nothing in the code makes it end there. -/
namespace Modbus.Client
open Bytes TcpDataUnit Stream

/-- The unread bytes are whole frames. -/
def AtBoundary (frames : List WireFrame) (rest : Buffer) : Prop :=
  ∃ k, rest = streamOf (frames.drop k)

/-- If the call comes to read a response, what `bytes_available` reports at its start is
the rest of a frame read in part and a number of whole frames. -/
def ClearsWhole (frames : List WireFrame) (c : Connection) (call : Call) : Prop :=
  call.Reads c → ∀ n, call.available = .ok n → AtBoundary frames (c.source.rest.drop n)

/-- A successful read takes the connection from a boundary to the next one. -/
theorem readResponse_boundary {frames : List WireFrame} {c c' : Connection} {du : TcpDataUnit}
    (hb : AtBoundary frames c.source.rest) (h : readResponse c = (.ok ⟨du, none⟩, c')) :
    AtBoundary frames c'.source.rest ∧ ∃ received, du.transactionId = .ok received := by
  obtain ⟨k, hk⟩ := hb
  cases hd : frames.drop k with
  | nil =>
    rw [hd] at hk
    exact absurd h (readResponse_end hk)
  | cons f rest =>
    rw [hd, streamOf, List.flatMap_cons] at hk
    obtain ⟨_, rfl, hrest⟩ := readResponse_frame_ok hk h
    refine ⟨⟨k + 1, ?_⟩, _, transactionId_wire f⟩
    rw [hrest, ← List.drop_drop, hd, List.drop_one, List.tail_cons, streamOf]

/-- From a boundary the loop starts its reads at boundaries. -/
theorem readLoop_boundary {frames : List WireFrame} (id : Word) (c : Connection)
    (hb : AtBoundary frames c.source.rest) (hstarts : ∀ s ∈ c.starts, AtBoundary frames s) :
    ∀ s ∈ (readLoop id c).2.starts, AtBoundary frames s := by
  -- each further round has less of the stream left
  induction hn : c.source.rest.length using Nat.strongRecOn generalizing c with
  | ind n ih =>
    have hlog : ∀ s ∈ (readResponse c).2.starts, AtBoundary frames s := by
      rw [readResponse_starts]
      intro s hs
      rcases List.mem_append.mp hs with hs | hs
      · exact hstarts s hs
      · rw [List.mem_singleton.mp hs]
        exact hb
    by_cases hread : ∃ r c', readResponse c = (.ok ⟨r, none⟩, c')
    · obtain ⟨r, c', hread⟩ := hread
      obtain ⟨hb', received, hid⟩ := readResponse_boundary hb hread
      have hless := readResponse_consumes hread
      rw [hread] at hlog
      rw [readLoop_response hread hid]
      split
      · exact ih c'.source.rest.length (hn ▸ hless) c' hb' hlog rfl
      · exact hlog
    · rw [readLoop_failure fun r c' hr => hread ⟨r, c', hr⟩]
      exact hlog

/-- A call that clears whole frames starts its reads at boundaries. -/
theorem sendRequest_boundary {frames : List WireFrame} {c : Connection} {call : Call}
    (hclear : ClearsWhole frames c call) (hstarts : ∀ s ∈ c.starts, AtBoundary frames s) :
    ∀ s ∈ (sendRequest call c).2.starts, AtBoundary frames s := by
  rcases sendRequest_cases call c with
    ⟨hsame, _⟩ | ⟨n, id, c₁, hreads, hn, _, hrest, hlog, hconn, _⟩
  · rw [hsame]
    exact hstarts
  · rw [hconn]
    apply readLoop_boundary
    · rw [hrest]
      exact hclear hreads n hn
    · rw [hlog]
      exact hstarts

/-- A fresh connection on which the server sends these frames. -/
def opened (frames : List WireFrame) : Connection := ⟨⟨streamOf frames, []⟩, []⟩

/-- In every run of calls on a connection in which each clearing before a read ends at a
frame boundary, every read of a response starts at one. -/
theorem starts_at_boundary (frames : List WireFrame) (calls : List Call)
    (hclear : ∀ pre call post, calls = pre ++ call :: post →
      ClearsWhole frames (runCalls (opened frames) pre) call) :
    ∀ s ∈ (runCalls (opened frames) calls).starts, AtBoundary frames s := by
  induction calls using List.reverseRecOn with
  | nil =>
    intro s hs
    cases hs
  | append_singleton calls call ih =>
    have hprev := ih (by
      intro pre call' post hsplit
      apply hclear pre call' (post ++ [call])
      rw [hsplit, List.append_assoc, List.cons_append])
    rw [runCalls, List.foldl_append]
    exact sendRequest_boundary (hclear calls call [] rfl) hprev

/-! ## A call that times out inside a frame -/

/-- The header and one byte of the answer arrive in time. -/
def cutCall : Call := cleanCall (coilRequest 1) [none, some ⟨some .timedOut, 1⟩]

/-- Three bytes of the first answer stay on the connection. -/
def afterCut : Connection :=
  ⟨⟨[1, 1, 0xCD] ++ (coilAnswer 2).bytes, []⟩, [streamOf [coilAnswer 1, coilAnswer 2]]⟩

theorem runCalls_cutCall : runCalls (opened [coilAnswer 1, coilAnswer 2]) [cutCall] = afterCut := by
  have hid : (coilRequest 1).transactionId = .ok 1 := by decide
  have hread : readResponse ⟨⟨streamOf [coilAnswer 1, coilAnswer 2],
      [none, some ⟨some .timedOut, 1⟩]⟩, []⟩ =
        (.ok ⟨empty, some (.net .timedOut)⟩, afterCut) := by
    decide
  have hloop : readLoop 1 ⟨⟨streamOf [coilAnswer 1, coilAnswer 2],
      [none, some ⟨some .timedOut, 1⟩]⟩, []⟩ =
        (.ok ⟨empty, some (.net .timedOut)⟩, afterCut) := by
    rw [readLoop_failure, hread]
    intro r c' h
    rw [hread] at h
    cases h
  have hconn := (sendRequest_clean hid [none, some ⟨some .timedOut, 1⟩]
    (opened [coilAnswer 1, coilAnswer 2])).1
  calc runCalls (opened [coilAnswer 1, coilAnswer 2]) [cutCall]
      = (sendRequest cutCall (opened [coilAnswer 1, coilAnswer 2])).2 := rfl
    _ = (readLoop 1 ⟨⟨streamOf [coilAnswer 1, coilAnswer 2],
          [none, some ⟨some .timedOut, 1⟩]⟩, []⟩).2 := hconn
    _ = afterCut := by rw [hloop]

/-- A second call that finds the three bytes available drops them. -/
theorem starts_at_boundary_after_cut :
    runCalls (opened [coilAnswer 1, coilAnswer 2]) [cutCall] = afterCut ∧
      ∀ s ∈ (runCalls (opened [coilAnswer 1, coilAnswer 2])
          [cutCall, { cleanCall (coilRequest 2) [] with available := .ok 3 }]).starts,
        AtBoundary [coilAnswer 1, coilAnswer 2] s :=
  ⟨runCalls_cutCall, starts_at_boundary [coilAnswer 1, coilAnswer 2]
    [cutCall, { cleanCall (coilRequest 2) [] with available := .ok 3 }] (by
      intro pre call post hsplit _ n hn
      cases pre with
      | nil =>
        obtain ⟨rfl, _⟩ := List.cons.inj hsplit
        cases hn
        exact ⟨0, rfl⟩
      | cons first pre =>
        obtain ⟨rfl, htail⟩ := List.cons.inj hsplit
        cases pre with
        | nil =>
          obtain ⟨rfl, _⟩ := List.cons.inj htail
          cases hn
          rw [runCalls_cutCall]
          exact ⟨1, by decide⟩
        | cons second pre =>
          have hlen := congrArg List.length htail
          simp at hlen)⟩

/-- A second call that comes before the three bytes starts to read at them. -/
theorem starts_inside_frame :
    afterCut.source.rest ∈ (runCalls (opened [coilAnswer 1, coilAnswer 2])
        [cutCall, cleanCall (coilRequest 2) []]).starts ∧
      ¬ AtBoundary [coilAnswer 1, coilAnswer 2] afterCut.source.rest := by
  have hid : (coilRequest 2).transactionId = .ok 2 := by decide
  have hread : (readResponse afterCut).1 = .ok ⟨empty, some .invalidResponse⟩ := by decide
  have hloop : readLoop 2 afterCut = readResponse afterCut := by
    apply readLoop_failure
    intro r c' h
    rw [h] at hread
    cases hread
  constructor
  · have hrun : runCalls (opened [coilAnswer 1, coilAnswer 2])
        [cutCall, cleanCall (coilRequest 2) []] = (readResponse afterCut).2 := by
      calc runCalls (opened [coilAnswer 1, coilAnswer 2]) [cutCall, cleanCall (coilRequest 2) []]
          = (sendRequest (cleanCall (coilRequest 2) [])
              (runCalls (opened [coilAnswer 1, coilAnswer 2]) [cutCall])).2 := rfl
        _ = (sendRequest (cleanCall (coilRequest 2) []) afterCut).2 := by rw [runCalls_cutCall]
        _ = (readLoop 2 afterCut).2 := (sendRequest_clean hid [] afterCut).1
        _ = (readResponse afterCut).2 := by rw [hloop]
    rw [hrun, readResponse_starts]
    exact List.mem_append_right _ (List.mem_singleton_self _)
  · intro hb
    obtain ⟨k, hk⟩ := hb
    have hlen := congrArg List.length hk
    match k with
    | 0 => exact absurd hlen (by decide)
    | 1 => exact absurd hlen (by decide)
    | k + 2 =>
      rw [List.drop_eq_nil_of_le (by simp)] at hlen
      exact absurd hlen (by decide)

end Modbus.Client
