import Modbus.Client.Framing

/-! # Matching responses to requests

The reading loop drops responses with a smaller transaction id and returns the
first other one (`readLoop_ok`). Ids are compared as numbers, while the counter
that hands them out wraps; a late response with a greater id is therefore taken for
the answer. That is all that can go wrong (`answersOwn_iff`). -/
namespace Modbus.Client
open Bytes TcpDataUnit Stream

/-- What a loop that returned a response had read: frames with smaller ids, and then
the one it returned. -/
theorem readLoop_ok {frames : List WireFrame} {id : Word} {c c' : Connection} {du : TcpDataUnit}
    (hrest : c.source.rest = streamOf frames) (h : readLoop id c = (.ok ⟨du, none⟩, c')) :
    ∃ pre f post, frames = pre ++ f :: post ∧
      (∀ g ∈ pre ++ [f], g.bytes.length ≤ maxApuSize) ∧ (∀ g ∈ pre, g.transactionId < id) ∧
      ¬ f.transactionId < id ∧ du.transactionId = .ok f.transactionId := by
  induction frames generalizing c with
  | nil =>
    rw [readLoop_failure fun r c' => readResponse_end hrest] at h
    exact absurd h (readResponse_end hrest)
  | cons f frames ih =>
    rw [streamOf, List.flatMap_cons] at hrest
    by_cases hread : ∃ r c', readResponse c = (.ok ⟨r, none⟩, c')
    · obtain ⟨r, c₁, hread⟩ := hread
      obtain ⟨hfits, rfl, hrest₁⟩ := readResponse_frame_ok hrest hread
      rw [readLoop_response hread (transactionId_wire f)] at h
      split at h
      · next hlt =>
        obtain ⟨pre, g, post, rfl, hfit, hsmall, hg, hdu⟩ := ih hrest₁ h
        refine ⟨f :: pre, g, post, rfl, ?_, ?_, hg, hdu⟩
        · exact List.forall_mem_cons.mpr ⟨hfits, hfit⟩
        · exact List.forall_mem_cons.mpr ⟨hlt, hsmall⟩
      · next hge =>
        cases h
        exact ⟨[], f, frames, rfl, List.forall_mem_singleton.mpr hfits, List.forall_mem_nil _, hge,
          transactionId_wire f⟩
    · rw [not_exists] at hread
      have hfail : ∀ r c', readResponse c ≠ (.ok ⟨r, none⟩, c') :=
        fun r c' hr => hread r ⟨c', hr⟩
      rw [readLoop_failure hfail] at h
      exact absurd h (hfail _ _)

/-- Without interruptions the loop does return the first frame whose id is not
smaller. -/
theorem readLoop_returns {pre : List WireFrame} {f : WireFrame} {id : Word} (post : List WireFrame)
    (hfits : ∀ g ∈ pre ++ [f], g.bytes.length ≤ maxApuSize)
    (hsmall : ∀ g ∈ pre, g.transactionId < id) (hf : ¬ f.transactionId < id)
    (starts : List Buffer) :
    ∃ c', readLoop id ⟨⟨streamOf (pre ++ f :: post), []⟩, starts⟩ =
      (.ok ⟨⟨readBuffer f.bytes, .response⟩, none⟩, c') := by
  induction pre generalizing starts with
  | nil =>
    have hread := readResponse_frame f (hfits f (List.mem_singleton_self f)) (streamOf post) starts
    refine ⟨⟨⟨streamOf post, []⟩, starts ++ [f.bytes ++ streamOf post]⟩, ?_⟩
    rw [List.nil_append, streamOf, List.flatMap_cons, ← streamOf,
      readLoop_response hread (transactionId_wire f), if_neg hf]
  | cons g pre ih =>
    obtain ⟨hg, hpre⟩ := List.forall_mem_cons.mp hfits
    obtain ⟨hlt, hrest⟩ := List.forall_mem_cons.mp hsmall
    have hread := readResponse_frame g hg (streamOf (pre ++ f :: post)) starts
    obtain ⟨c', hc'⟩ := ih hpre hrest (starts ++ [g.bytes ++ streamOf (pre ++ f :: post)])
    refine ⟨c', ?_⟩
    rw [List.cons_append, streamOf, List.flatMap_cons, ← streamOf,
      readLoop_response hread (transactionId_wire g), if_pos hlt, hc']

/-- A call whose write succeeds, with nothing to clear. -/
def cleanCall (request : TcpDataUnit) (plan : List (Option (Cut NetError))) : Call where
  request := request
  connected := true
  available := .ok 0
  writeError := none
  bytesWritten := request.buffer.length
  plan := plan

/-- Such a call does to the connection what the loop does, and returns what the loop
returns without an error. -/
theorem sendRequest_clean {request : TcpDataUnit} {id : Word}
    (hid : request.transactionId = .ok id) (plan : List (Option (Cut NetError)))
    (c : Connection) :
    (sendRequest (cleanCall request plan) c).2 =
        (readLoop id ⟨⟨c.source.rest, plan⟩, c.starts⟩).2 ∧
      ∀ r, (readLoop id ⟨⟨c.source.rest, plan⟩, c.starts⟩).1 = .ok ⟨r, none⟩ →
        (sendRequest (cleanCall request plan) c).1 = .ok ⟨r, none⟩ := by
  have hwrite : writeRequest (cleanCall request plan) = none := by
    simp only [writeRequest, cleanCall, ne_eq, not_true_eq_false, if_false]
  simp only [sendRequest, hwrite]
  simp only [cleanCall, clearBuffer, hid, Bool.not_true, Bool.false_eq_true, if_false, gt_iff_lt,
    Nat.lt_irrefl]
  split
  · next hloop =>
    rw [hloop]
    exact ⟨rfl, fun r h => by cases h⟩
  · next hloop =>
    rw [hloop]
    exact ⟨rfl, fun r h => h⟩

/-- Whatever happens during a call and whatever was cleared before the request was
written, a response returned from these frames without an error has the request's
transaction id. -/
def AnswersOwn (frames : List WireFrame) (request : TcpDataUnit) : Prop :=
  ∀ (call : Call) (c c' : Connection) (cleared : Buffer) (response : TcpDataUnit),
    call.request = request → call.available = .ok cleared.length →
    c.source.rest = cleared ++ streamOf frames →
    sendRequest call c = (.ok ⟨response, none⟩, c') →
    response.transactionId = request.transactionId

/-- The first frame that is not dropped has a greater id. -/
theorem exists_first_greater {id : Word} {f : WireFrame} (hf : id < f.transactionId) :
    ∀ pre : List WireFrame, (∀ g ∈ pre, g.transactionId ≠ id) →
      ∃ pre' g post', pre ++ [f] = pre' ++ g :: post' ∧ (∀ x ∈ pre', x.transactionId < id) ∧
        id < g.transactionId
  | [], _ => ⟨[], f, [], rfl, List.forall_mem_nil _, hf⟩
  | x :: pre, hne => by
    obtain ⟨hx, hpre⟩ := List.forall_mem_cons.mp hne
    by_cases hlt : x.transactionId < id
    · obtain ⟨pre', g, post', heq, hsmall, hg⟩ := exists_first_greater hf pre hpre
      refine ⟨x :: pre', g, post', ?_, List.forall_mem_cons.mpr ⟨hlt, hsmall⟩, hg⟩
      rw [List.cons_append, heq, List.cons_append]
    · refine ⟨[], x, pre ++ [f], rfl, List.forall_mem_nil _, ?_⟩
      exact BitVec.lt_of_le_ne (BitVec.not_lt.mp hlt) (Ne.symm hx)

/-- A response without an error is the request's own exactly when no frame with a
greater id comes before the first frame with the request's id; frames behind one
that does not fit into the buffer do not count, since it ends the call. -/
theorem answersOwn_iff (frames : List WireFrame) (request : TcpDataUnit) (id : Word)
    (hid : request.transactionId = .ok id) :
    AnswersOwn frames request ↔
      ∀ pre f post, frames = pre ++ f :: post →
        (∀ g ∈ pre ++ [f], g.bytes.length ≤ maxApuSize) → id < f.transactionId →
        ∃ g ∈ pre, g.transactionId = id := by
  constructor
  · intro hown pre f post hframes hfits hgreater
    by_contra hnone
    have hne : ∀ g ∈ pre, g.transactionId ≠ id := fun g hg he => hnone ⟨g, hg, he⟩
    obtain ⟨pre', g, post', heq, hsmall, hg⟩ := exists_first_greater hgreater pre hne
    have hsplit : frames = pre' ++ g :: (post' ++ post) := by
      rw [hframes, ← List.singleton_append, ← List.append_assoc, heq, List.append_assoc,
        List.cons_append]
    have hfits' : ∀ x ∈ pre' ++ [g], x.bytes.length ≤ maxApuSize := by
      intro x hx
      apply hfits x
      rw [heq]
      rcases List.mem_append.mp hx with hx | hx
      · exact List.mem_append_left _ hx
      · rw [List.mem_singleton.mp hx]
        exact List.mem_append_right _ List.mem_cons_self
    obtain ⟨c', hloop⟩ := readLoop_returns (post' ++ post) hfits' hsmall
      (BitVec.not_lt.mpr (BitVec.le_of_lt hg)) []
    rw [← hsplit] at hloop
    have hsend := (sendRequest_clean hid [] ⟨⟨streamOf frames, []⟩, []⟩).2 _
      (congrArg Prod.fst hloop)
    have htid := hown (cleanCall request []) _ _ [] _ rfl rfl rfl (Prod.ext hsend rfl)
    rw [transactionId_wire, hid, Except.ok.injEq] at htid
    rw [htid] at hg
    exact BitVec.lt_irrefl _ hg
  · intro hcond call c c' cleared response hreq havail hrest hsend
    rcases sendRequest_cases call c with
      ⟨_, hfail⟩ | ⟨n, id', c₁, _, hn, hid', hdrop, _, hconn, hloop⟩
    · exact absurd (congrArg Prod.fst hsend) (hfail response)
    · rw [hreq, hid, Except.ok.injEq] at hid'
      subst hid'
      rw [havail, Except.ok.injEq] at hn
      subst hn
      rw [hrest, List.drop_left] at hdrop
      have hresult := hloop response (congrArg Prod.fst hsend)
      obtain ⟨pre, f, post, hframes, hfits, hsmall, hf, htid⟩ :=
        readLoop_ok hdrop (Prod.ext hresult rfl)
      rw [htid, hid, Except.ok.injEq]
      by_contra hne
      obtain ⟨g, hg, hgid⟩ := hcond pre f post hframes hfits
        (BitVec.lt_of_le_ne (BitVec.not_lt.mp hf) (Ne.symm hne))
      have hlt := hsmall g hg
      rw [hgid] at hlt
      exact BitVec.lt_irrefl _ hlt

/-- A request for eight coils and the answer to it, under a transaction id. -/
def coilRequest (t : Word) : TcpDataUnit := ⟨frame t (.readCoilsRequest ⟨1, 0, 8⟩), .request⟩

def coilAnswer (t : Word) : WireFrame :=
  .ofMessage t (.readCoilsResponse ⟨1, [0xCD]⟩) (by decide)

/-- A late answer with a smaller id is dropped. -/
theorem answersOwn_after_late : AnswersOwn [coilAnswer 1, coilAnswer 2] (coilRequest 2) :=
  (answersOwn_iff [coilAnswer 1, coilAnswer 2] (coilRequest 2) 2 (by decide)).mpr (by
    intro pre f post hframes _ hgreater
    have hmem : f ∈ [coilAnswer 1, coilAnswer 2] := by
      rw [hframes]
      exact List.mem_append_right _ List.mem_cons_self
    rcases List.mem_pair.mp hmem with rfl | rfl
    · exact absurd hgreater (by decide)
    · exact absurd hgreater (by decide))

/-- The counter wraps from 65535 to 0; a late answer with id 65535 is then returned
as the answer to request 0. -/
theorem late_answer_after_wrap :
    reserveTransactionId 0xFFFF = (0xFFFF, 0) ∧ (coilRequest 0).transactionId = .ok 0 ∧
      (sendRequest (cleanCall (coilRequest 0) [])
          ⟨⟨streamOf [coilAnswer 0xFFFF, coilAnswer 0], []⟩, []⟩).1 =
        .ok ⟨⟨readBuffer (coilAnswer 0xFFFF).bytes, .response⟩, none⟩ ∧
      transactionId ⟨readBuffer (coilAnswer 0xFFFF).bytes, .response⟩ = .ok 0xFFFF ∧
      ¬ AnswersOwn [coilAnswer 0xFFFF, coilAnswer 0] (coilRequest 0) := by
  have hid : (coilRequest 0).transactionId = .ok 0 := by decide
  have hlate := transactionId_wire (coilAnswer 0xFFFF)
  obtain ⟨c', hloop⟩ :
      ∃ c', readLoop 0 ⟨⟨streamOf ([] ++ coilAnswer 0xFFFF :: [coilAnswer 0]), []⟩, []⟩ =
        (.ok ⟨⟨readBuffer (coilAnswer 0xFFFF).bytes, .response⟩, none⟩, c') :=
    readLoop_returns [coilAnswer 0] (by decide) (List.forall_mem_nil _) (by decide) []
  have hsend := (sendRequest_clean hid []
    ⟨⟨streamOf [coilAnswer 0xFFFF, coilAnswer 0], []⟩, []⟩).2 _ (congrArg Prod.fst hloop)
  refine ⟨by decide, hid, hsend, hlate, ?_⟩
  intro hown
  have htid := hown (cleanCall (coilRequest 0) []) _ _ [] _ rfl rfl rfl (Prod.ext hsend rfl)
  rw [hlate, hid] at htid
  revert htid
  decide

end Modbus.Client
