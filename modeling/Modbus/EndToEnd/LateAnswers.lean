import Modbus.Client.Pool
import Modbus.EndToEnd.Network

/-! # Late answers

A call may give up before its response is there. The session answers its request all the
same, and the response comes to a later call on the connection: before its request, where
it is cleared, or behind it, where the loop drops it for its smaller id. As long as the ids
on a connection grow, no call takes the response to another for its own: what the calls
return, less what failed, is what the device answered to just these requests, in their
order (`returns_own_answer`). Several requests may lie in front of a session by then; it
reads them at once and answers the first. -/
namespace Modbus.EndToEnd
open Bytes Checked TcpDataUnit Transition Stream Server Client

/-! ## The loop of a call over whole frames -/

section Loop
variable {id : Word}

/-- The loop drops the frames with smaller ids. -/
theorem readLoop_drops {dropped : List WireFrame}
    (hfits : ∀ f ∈ dropped, f.bytes.length ≤ maxApuSize)
    (hsmall : ∀ f ∈ dropped, f.transactionId < id) (rest : Buffer) (starts : List Buffer) :
    ∃ starts', readLoop id ⟨⟨streamOf dropped ++ rest, []⟩, starts⟩ =
      readLoop id ⟨⟨rest, []⟩, starts'⟩ := by
  induction dropped generalizing starts with
  | nil => exact ⟨starts, rfl⟩
  | cons f dropped ih =>
    obtain ⟨hfit, hfits⟩ := List.forall_mem_cons.mp hfits
    obtain ⟨hlt, hsmall⟩ := List.forall_mem_cons.mp hsmall
    have hread := readResponse_frame f hfit (streamOf dropped ++ rest) starts
    obtain ⟨starts', hrest⟩ := ih hfits hsmall (starts ++ [f.bytes ++ (streamOf dropped ++ rest)])
    refine ⟨starts', ?_⟩
    rw [streamOf, List.flatMap_cons, ← streamOf, List.append_assoc,
      readLoop_response hread (transactionId_wire f), if_pos hlt, hrest]

/-- With nothing left to read it fails, and nothing is left. -/
theorem readLoop_nothing (starts : List Buffer) :
    (readLoop id ⟨⟨[], []⟩, starts⟩).2.source.rest = [] ∧
      ∀ r, (readLoop id ⟨⟨[], []⟩, starts⟩).1 ≠ .ok ⟨r, none⟩ := by
  have hread : readResponse ⟨⟨[], []⟩, starts⟩ =
      (.ok ⟨empty, some (.net .timedOut)⟩, ⟨⟨[], []⟩, starts ++ [[]]⟩) := rfl
  have hfail : ∀ r c', readResponse ⟨⟨[], []⟩, starts⟩ ≠ (.ok ⟨r, none⟩, c') := by
    intro r c' h
    rw [hread] at h
    cases h
  rw [readLoop_failure hfail, hread]
  refine ⟨rfl, fun r h => ?_⟩
  cases h

/-- The loop returns a frame with the id of the call. -/
theorem readLoop_own {f : WireFrame} (hfits : f.bytes.length ≤ maxApuSize)
    (hid : f.transactionId = id) (rest : Buffer) (starts : List Buffer) :
    ∃ starts', readLoop id ⟨⟨f.bytes ++ rest, []⟩, starts⟩ =
      (.ok ⟨⟨readBuffer f.bytes, .response⟩, none⟩, ⟨⟨rest, []⟩, starts'⟩) := by
  have hread := readResponse_frame f hfits rest starts
  refine ⟨starts ++ [f.bytes ++ rest], ?_⟩
  rw [readLoop_response hread (transactionId_wire f), hid, if_neg (BitVec.lt_irrefl id)]

/-- The loop takes all frames with growing ids up to that of the call; it returns none but
the one with the id of the call. -/
theorem readLoop_sorted {frames : List WireFrame}
    (hfits : ∀ f ∈ frames, f.bytes.length ≤ maxApuSize)
    (hsorted : frames.Pairwise fun f g => f.transactionId < g.transactionId)
    (hle : ∀ f ∈ frames, f.transactionId ≤ id) (starts : List Buffer) :
    (readLoop id ⟨⟨streamOf frames, []⟩, starts⟩).2.source.rest = [] ∧
      ((∀ r, (readLoop id ⟨⟨streamOf frames, []⟩, starts⟩).1 ≠ .ok ⟨r, none⟩) ∨
        ∃ f ∈ frames, f.transactionId = id ∧ (readLoop id ⟨⟨streamOf frames, []⟩, starts⟩).1 =
          .ok ⟨⟨readBuffer f.bytes, .response⟩, none⟩) := by
  have hnothing : (∀ f ∈ frames, f.transactionId < id) →
      (readLoop id ⟨⟨streamOf frames, []⟩, starts⟩).2.source.rest = [] ∧
        ∀ r, (readLoop id ⟨⟨streamOf frames, []⟩, starts⟩).1 ≠ .ok ⟨r, none⟩ := by
    intro hsmall
    obtain ⟨starts', hloop⟩ := readLoop_drops hfits hsmall [] starts
    rw [List.append_nil] at hloop
    rw [hloop]
    exact readLoop_nothing starts'
  rcases List.eq_nil_or_concat' frames with rfl | ⟨dropped, f, rfl⟩
  · exact ⟨(hnothing nofun).1, .inl (hnothing nofun).2⟩
  · have hlast : f ∈ dropped ++ [f] := List.mem_append_right _ List.mem_cons_self
    -- only the last one can have the id of the call
    have hfirst : ∀ g ∈ dropped, g.transactionId < f.transactionId := by
      obtain ⟨_, _, hpairs⟩ := List.pairwise_append.mp hsorted
      exact fun g hg => hpairs g hg f List.mem_cons_self
    by_cases hid : f.transactionId = id
    · obtain ⟨starts₁, hdrops⟩ := @readLoop_drops id dropped
        (fun g hg => hfits g (List.mem_append_left _ hg)) (fun g hg => hid ▸ hfirst g hg)
        (f.bytes ++ []) starts
      obtain ⟨starts₂, hown⟩ := readLoop_own (hfits f hlast) hid [] starts₁
      have hall : streamOf (dropped ++ [f]) = streamOf dropped ++ (f.bytes ++ []) := by
        simp [streamOf]
      rw [hall, hdrops, hown]
      exact ⟨rfl, .inr ⟨f, hlast, hid, rfl⟩⟩
    · have hlt : f.transactionId < id := BitVec.lt_of_le_ne (hle f hlast) hid
      have hsmall : ∀ g ∈ dropped ++ [f], g.transactionId < id := by
        intro g hg
        rcases List.mem_append.mp hg with hg | hg
        · exact BitVec.lt_trans (hfirst g hg) hlt
        · rw [List.mem_singleton.mp hg]
          exact hlt
      exact ⟨(hnothing hsmall).1, .inl (hnothing hsmall).2⟩

/-- A call clears what is available and then does what the loop does. -/
theorem sendRequest_cleared {request : TcpDataUnit} {n : Nat} {c : Connection}
    (hid : request.transactionId = .ok id) (hn : n ≤ c.source.rest.length) :
    (sendRequest { cleanCall request [] with available := .ok n } c).1 =
        loopResult (readLoop id ⟨⟨c.source.rest.drop n, []⟩, c.starts⟩).1 ∧
      (sendRequest { cleanCall request [] with available := .ok n } c).2 =
        (readLoop id ⟨⟨c.source.rest.drop n, []⟩, c.starts⟩).2 := by
  have hwrite : writeRequest { cleanCall request [] with available := .ok n } = none := by
    simp only [writeRequest, cleanCall, ne_eq, not_true_eq_false, if_false]
  have hclear : clearBuffer (.ok n) { c with source := ⟨c.source.rest, []⟩ } =
      (none, ⟨⟨c.source.rest.drop n, []⟩, c.starts⟩) := by
    unfold clearBuffer
    by_cases hpos : 0 < n
    · have hlen : (c.source.rest.take n).length = n := by
        rw [List.length_take, Nat.min_eq_left hn]
      simp only [gt_iff_lt, hpos, if_true, read_unplanned _ hn, hlen, ne_eq, not_true_eq_false,
        if_false]
    · obtain rfl := Nat.eq_zero_of_not_pos hpos
      rfl
  refine ⟨sendRequest_loop rfl hclear hid hwrite, ?_⟩
  simp only [sendRequest, hwrite]
  simp only [cleanCall, hclear, hid, Bool.not_true, Bool.false_eq_true, if_false]
  split
  · next hloop => rw [hloop]
  · next hloop => rw [hloop]

theorem observe_failed {r : Request} {result : Except Exn ReadResponse}
    (h : ∀ response, result ≠ .ok ⟨response, none⟩) : observe r result = .failed := by
  unfold observe
  split
  · next heq => exact absurd rfl (h _)
  · rfl

/-- A failed loop is a failed call. -/
theorem loopResult_failed {result : Except Exn ReadResponse}
    (h : ∀ response, result ≠ .ok ⟨response, none⟩) (response : TcpDataUnit) :
    loopResult result ≠ .ok ⟨response, none⟩ := by
  unfold loopResult
  split
  · intro heq
    cases heq
  · exact h response

end Loop

/-! ## What calls come to -/

/-- What the call with a transaction id came to. -/
structure Answer where
  transactionId : Word
  request : Request
  observation : Observation
deriving DecidableEq, Repr

section Specification
variable (granted : Request → Prop) [DecidablePred granted]

/-- What the device answers to the calls of a handler, and the session of each. -/
def answerAll : Device → List Handled → List (SessionId × Answer) × Device
  | d, [] => ([], d)
  | d, c :: log =>
    match Request.ofUnit c.request, c.request.transactionId with
    | some r, .ok t =>
      let (observation, d) := perform granted d r
      let (answers, d) := answerAll d log
      ((c.id, ⟨t, r, observation⟩) :: answers, d)
    | _, _ => answerAll d log

theorem answerAll_append (d : Device) (log more : List Handled) :
    answerAll granted d (log ++ more) =
      ((answerAll granted d log).1 ++ (answerAll granted (answerAll granted d log).2 more).1,
        (answerAll granted (answerAll granted d log).2 more).2) := by
  induction log generalizing d with
  | nil => rfl
  | cons first log ih =>
    simp only [List.cons_append, answerAll]
    split
    · simp only [ih, List.cons_append]
    · exact ih d

theorem answerAll_single {c : Handled} {r : Request} {t : Word}
    (hr : Request.ofUnit c.request = some r) (ht : c.request.transactionId = .ok t) (d : Device) :
    answerAll granted d [c] =
      ([(c.id, ⟨t, r, (perform granted d r).1⟩)], (perform granted d r).2) := by
  simp only [answerAll, hr, ht]

end Specification

/-- The answers to the calls of one session. -/
def answersOf (id : SessionId) (answers : List (SessionId × Answer)) : List Answer :=
  (answers.filter fun a => a.1 = id).map Prod.snd

theorem answersOf_append (id : SessionId) (answers : List (SessionId × Answer)) (x : SessionId)
    (a : Answer) :
    answersOf id (answers ++ [(x, a)]) = answersOf id answers ++ if x = id then [a] else [] := by
  rw [answersOf, List.filter_append, List.map_append, answersOf]
  split
  · next h => simp [h]
  · next h => simp [h]

/-- What the call that waits on a connection comes to when it returns. -/
def Link.result (l : Link) : Option Answer :=
  match l.waiting with
  | some (r, call) =>
    match call.request.transactionId with
    | .ok t => some ⟨t, r, observe r (sendRequest call l.connection).1⟩
    | .error _ => none
  | none => none

/-! ## Connections on which calls give up -/

/-- The bytes of requests, as they are written. -/
def framesOf (requests : List (Word × Request)) : Buffer :=
  requests.flatMap fun p => frame p.1 p.2.message

/-- A network and what its clients have written and been told, with the ids. -/
structure Recorded where
  network : Network
  sent : SessionId → List (Word × Request)
  returned : SessionId → List Answer

def sentOn (id : SessionId) : NetworkEvent → List (Word × Request)
  | .call x t r => if x = id then [(t, r)] else []
  | _ => []

def Network.returnedOn (s : Network) (id : SessionId) : NetworkEvent → List Answer
  | .receive x => if x = id then (s.link id).result.toList else []
  | _ => []

namespace Recorded

def initial (config : ServerConfig) (handler : RequestHandler) : Recorded :=
  ⟨.initial config handler, fun _ => [], fun _ => []⟩

def step (s : Recorded) (e : NetworkEvent) : Option Recorded :=
  (s.network.step e).map fun network =>
    { network
      sent := fun id => s.sent id ++ sentOn id e
      returned := fun id => s.returned id ++ s.network.returnedOn id e }

/-- Only a call adds to what was sent. -/
theorem sent_step {s s' : Recorded} {e : NetworkEvent} (h : s.step e = some s') (id : SessionId) :
    s'.sent id = s.sent id ++ sentOn id e := by
  obtain ⟨network, _, rfl⟩ := Option.map_eq_some_iff.mp h
  rfl

/-- A read that ends where a request ends, or a write that takes the whole response. -/
def Aligned (s : Recorded) : ServiceEvent → Prop
  | .server (.session id (.readDone (.ok chunk))) =>
    ∃ left ∈ (s.sent id).tails,
      (s.network.link id).outbox.drop chunk.bytes.length = framesOf left
  | .server (.session id (.written _ bytesWritten)) =>
    ∀ response ∈ (s.network.service.server.task id).pc.response,
      response.buffer.length ≤ bytesWritten
  | _ => True

instance (s : Recorded) : DecidablePred s.Aligned
  | .server (.session id (.readDone (.ok chunk))) =>
    inferInstanceAs (Decidable (∃ left ∈ (s.sent id).tails,
      (s.network.link id).outbox.drop chunk.bytes.length = framesOf left))
  | .server (.session id (.written _ bytesWritten)) =>
    inferInstanceAs (Decidable (∀ response ∈ (s.network.service.server.task id).pc.response,
      response.buffer.length ≤ bytesWritten))
  | .server (.session _ (.enter _)) | .server (.session _ .test)
  | .server (.session _ (.readDone (.error _))) | .server (.session _ (.handled _))
  | .server (.session _ .release) | .server (.session _ .report)
  | .server (.listen _) | .server .acceptTest | .server .connection | .server .acceptError
  | .server (.resume _) | .server .spawn | .server .drop | .server (.admission _)
  | .server .setStop | .server .closeAcceptor | .server .stopAll | .handle _ => .isTrue trivial

/-- No request and no response is cut, what is asked for fits and can be served, and a
call has a greater id than those before it on its connection. It may return at any time,
also without a response. -/
def Admissible (s : Recorded) : NetworkEvent → Prop
  | .service event => s.network.service.Admissible event ∧ s.Aligned event
  | .call id t r => Fits r ∧ ∀ earlier ∈ s.sent id, earlier.1 < t
  | .receive _ => True

instance (s : Recorded) : DecidablePred s.Admissible
  | .service event =>
    inferInstanceAs (Decidable (s.network.service.Admissible event ∧ s.Aligned event))
  | .call id t r => inferInstanceAs (Decidable (Fits r ∧ ∀ earlier ∈ s.sent id, earlier.1 < t))
  | .receive _ => .isTrue trivial

end Recorded

/-- The frame brings a client the answer. -/
structure Brings (f : WireFrame) (a : Answer) : Prop where
  own : f.transactionId = a.transactionId
  fits : f.bytes.length ≤ maxApuSize
  code : ∃ code, f.bytes[7]? = some code ∧ a.request.kind.functionCode = some (code &&& 0x7F#8)
  shows : observe a.request (.ok ⟨⟨readBuffer f.bytes, .response⟩, none⟩) = a.observation

/-- The response to a request has its function code, flagged or not. -/
theorem call_code {h h' : RequestHandler} {t : Word} {r : Request} {pad : Buffer}
    {response : TcpDataUnit} (hfits : Fits r)
    (hcall : h.call (sessionUnit t r pad) = .ok (response, h')) :
    ∃ code, response.buffer[7]? = some code ∧
      r.kind.functionCode = some (code &&& 0x7F#8) := by
  obtain ⟨sent, t', unitId, hsent, _, hunit, hanswers⟩ := call_ok_iff.mp hcall
  obtain ⟨_, _, hcode, _⟩ := hanswers.codes (functionCode_flag hsent) hunit
  obtain ⟨sent', hsent', hbranch, _⟩ := decoded_sessionUnit t pad hfits
  obtain rfl : sent' = sent := Except.ok.inj (hsent'.symm.trans hsent)
  obtain ⟨code, hbyte, hclear⟩ := bind_ok.mp hcode
  cases hclear
  exact ⟨code, elementAt_ok.mp hbyte, (requestKind_iff.mp hbranch).1⟩

/-- What a session has taken out of its requests and not written: nothing, the latest
request, or the response to it. -/
inductive InHands (taken : List (Word × Request)) (answers : List Answer) (pc : TaskPc) :
    List Answer → Prop
  | nothing (quiet : EmptyHanded pc) : InHands taken answers pc []
  | request {t : Word} {r : Request} {pad : Buffer} (handling : pc = .handling (sessionUnit t r pad))
      (mem : (t, r) ∈ taken) (fits : Fits r) (newer : ∀ a ∈ answers, a.transactionId < t) :
      InHands taken answers pc []
  | response {f : WireFrame} {a : Answer} {response : TcpDataUnit} (writing : pc = .writing response)
      (buffer : response.buffer = f.bytes) (brings : Brings f a) : InHands taken answers pc [a]

/-- The call that waits is the latest; what was available when it was called are whole
frames with smaller ids. -/
structure Waits (sent : List (Word × Request)) (frames : List WireFrame) (t : Word) (r : Request)
    (call : Call) : Prop where
  mem : (t, r) ∈ sent
  latest : ∀ q ∈ sent, q.1 ≤ t
  available : ∃ cleared fresh, frames = cleared ++ fresh ∧ (∀ f ∈ cleared, f.transactionId < t) ∧
    call = { sentCall t r with available := .ok (streamOf cleared).length }

/-- What is on a connection: the requests that the session has taken and those in front
of it; the answers that returned calls have seen the last of, those on their way to the
client in these frames, and one that is not written. -/
structure Pipeline where
  taken : List (Word × Request)
  queue : List (Word × Request)
  seen : List Answer
  late : List Answer
  held : List Answer
  frames : List WireFrame

namespace Pipeline

def sent (p : Pipeline) : List (Word × Request) := p.taken ++ p.queue

def answers (p : Pipeline) : List Answer := p.seen ++ p.late ++ p.held

end Pipeline

structure Flow (task : Task) (l : Link) (returned : List Answer) (p : Pipeline) : Prop where
  outbox : l.outbox = framesOf p.queue
  unread : l.connection.source.rest = streamOf p.frames
  fits : ∀ q ∈ p.queue, Fits q.2
  increasing : p.sent.Pairwise fun q q' => q.1 < q'.1
  known : ∀ a ∈ p.answers, (a.transactionId, a.request) ∈ p.taken
  sorted : p.answers.Pairwise fun a b => a.transactionId < b.transactionId
  hands : InHands p.taken p.answers task.pc p.held
  brings : List.Forall₂ Brings p.frames p.late
  waits : ∀ r call, l.waiting = some (r, call) → ∃ t, Waits p.sent p.frames t r call
  own : (returned.filter fun a => a.observation ≠ .failed).Sublist p.seen
  asked : ∀ a ∈ returned, (a.transactionId, a.request) ∈ p.sent
  history : l.history = returned.map fun a => (a.request, a.observation)

/-- What was returned, but for failures, is part of what was answered. -/
theorem Flow.returned_sublist {task : Task} {l : Link} {returned : List Answer} {p : Pipeline}
    (h : Flow task l returned p) :
    (returned.filter fun a => a.observation ≠ .failed).Sublist p.answers :=
  h.own.trans ((List.sublist_append_left _ _).trans (List.sublist_append_left _ _))

theorem flow_initial : Flow .unborn .initial [] ⟨[], [], [], [], [], []⟩ where
  outbox := rfl
  unread := rfl
  fits := nofun
  increasing := .nil
  known := nofun
  sorted := .nil
  hands := .nothing ⟨rfl, rfl⟩
  brings := .nil
  waits := nofun
  own := .slnil
  asked := nofun
  history := rfl

/-- A read that ends where a request ends takes the first requests. -/
theorem read_frames {taken queue left : List (Word × Request)} {chunk : Buffer} (hne : chunk ≠ [])
    (hdelivers : chunk <+: framesOf queue) (hleft : left <:+ taken ++ queue)
    (hdrop : (framesOf queue).drop chunk.length = framesOf left) :
    ∃ t r front, queue = (t, r) :: front ++ left ∧ chunk = frame t r.message ++ framesOf front := by
  have hpos := List.length_pos_iff.mpr hne
  have hcount : (framesOf left).length + chunk.length = (framesOf queue).length := by
    rw [← hdrop, List.length_drop, Nat.sub_add_cancel hdelivers.length_le]
  obtain ⟨front, rfl⟩ : left <:+ queue := by
    rcases List.suffix_or_suffix_of_suffix hleft (List.suffix_append taken queue) with h | h
    · exact h
    · obtain ⟨more, rfl⟩ := h
      rw [framesOf, List.flatMap_append, ← framesOf, ← framesOf, List.length_append] at hcount
      omega
  have happ : framesOf (front ++ left) = framesOf front ++ framesOf left := List.flatMap_append
  obtain rfl : chunk = framesOf front := by
    obtain ⟨rest, hrest⟩ := hdelivers
    rw [happ] at hrest
    rw [happ, List.length_append] at hcount
    exact (List.append_inj hrest (by omega)).1
  cases front with
  | nil => exact absurd rfl hne
  | cons q front => exact ⟨q.1, q.2, front, rfl, List.flatMap_cons⟩

section Moves
variable {task task' : Task} {l : Link} {returned : List Answer} {p : Pipeline}

/-- A session that sends nothing and keeps what it has in its hands. -/
theorem Flow.stays (h : Flow task l returned p) (hhands : InHands p.taken p.answers task'.pc p.held)
    (hsent : task'.state.sent.drop task.state.sent.length = []) :
    Flow task' (l.moved 0 task task') returned p :=
  { h with
    hands := hhands
    unread := by rw [Link.moved, hsent, List.append_nil]; exact h.unread }

theorem Flow.unmoved (h : Flow task l returned p) : Flow task (l.moved 0 task task) returned p :=
  h.stays h.hands List.drop_length

/-- The session takes the first requests, and has the very first in its hands. -/
theorem Flow.reads (h : Flow task l returned p) {chunk : Chunk} (hpc : task.pc = .reading)
    (hdelivers : chunk.bytes <+: l.outbox) {left : List (Word × Request)} (hleft : left <:+ p.sent)
    (hdrop : l.outbox.drop chunk.bytes.length = framesOf left) :
    ∃ p', p'.sent = p.sent ∧ p'.answers = p.answers ∧
      Flow (task.received chunk) (l.moved chunk.bytes.length task (task.received chunk)) returned
        p' := by
  obtain ⟨taken, queue, seen, late, held, frames⟩ := p
  have houtbox := h.outbox
  have hhands := h.hands
  dsimp only at houtbox hhands
  rw [houtbox] at hdelivers hdrop
  obtain ⟨t, r, front, rfl, hchunk⟩ := read_frames chunk.nonempty hdelivers hleft hdrop
  obtain ⟨⟨pad, hreceived⟩, hstate⟩ := received_frame _ hchunk
  have hsent : Pipeline.sent ⟨taken ++ (t, r) :: front, left, seen, late, held, frames⟩ =
      Pipeline.sent ⟨taken, (t, r) :: front ++ left, seen, late, held, frames⟩ :=
    List.append_assoc ..
  obtain rfl : held = [] := by
    cases hhands with
    | nothing => rfl
    | request handling => exact absurd (hpc.symm.trans handling) nofun
    | response writing => exact absurd (hpc.symm.trans writing) nofun
  refine ⟨⟨taken ++ (t, r) :: front, left, seen, late, [], frames⟩, hsent, rfl, ?_⟩
  refine { h with
    outbox := ?_, unread := ?_, fits := ?_, increasing := ?_, known := ?_, hands := ?_, waits := ?_
    asked := ?_ }
  · rw [Link.moved, houtbox]
    exact hdrop
  · rw [Link.moved, hstate, List.drop_length, List.append_nil]
    exact h.unread
  · exact fun q hq => h.fits q (List.mem_append_right _ hq)
  · rw [hsent]
    exact h.increasing
  · exact fun a ha => List.mem_append_left _ (h.known a ha)
  · refine .request hreceived ?_ (h.fits (t, r) List.mem_cons_self) fun a ha => ?_
    · exact List.mem_append_right _ List.mem_cons_self
    · exact (List.pairwise_append.mp h.increasing).2.2 _ (h.known a ha) (t, r) List.mem_cons_self
  · rw [hsent]
    exact h.waits
  · rw [hsent]
    exact h.asked

/-- The response is on its way. -/
theorem Flow.writes (h : Flow task l returned p) {f : WireFrame} {a : Answer}
    (hheld : p.held = [a]) (hbrings : Brings f a) (hquiet : EmptyHanded task'.pc)
    (hsent : task'.state.sent.drop task.state.sent.length = f.bytes) :
    ∃ p', p'.sent = p.sent ∧ p'.answers = p.answers ∧
      Flow task' (l.moved 0 task task') returned p' := by
  obtain ⟨taken, queue, seen, late, held, frames⟩ := p
  obtain rfl : held = [a] := hheld
  have hanswers : Pipeline.answers ⟨taken, queue, seen, late ++ [a], [], frames ++ [f]⟩ =
      Pipeline.answers ⟨taken, queue, seen, late, [a], frames⟩ := by
    simp [Pipeline.answers]
  refine ⟨⟨taken, queue, seen, late ++ [a], [], frames ++ [f]⟩, rfl, hanswers, ?_⟩
  refine { h with
    unread := ?_, known := ?_, sorted := ?_, hands := .nothing hquiet, brings := ?_, waits := ?_ }
  · have hunread := h.unread
    dsimp only at hunread
    simp [Link.moved, hsent, hunread, streamOf]
  · rw [hanswers]
    exact h.known
  · rw [hanswers]
    exact h.sorted
  · exact List.rel_append h.brings (.cons hbrings .nil)
  · intro r call hwaiting
    obtain ⟨t, mem, latest, cleared, fresh, hframes, hsmall, hcall⟩ := h.waits r call hwaiting
    refine ⟨t, mem, latest, cleared, fresh ++ [f], ?_, hsmall, hcall⟩
    dsimp only at hframes ⊢
    rw [hframes, List.append_assoc]

/-- Every move of a session but the end of a call. -/
theorem Flow.session {stop : Bool} {e : TaskEvent} (h : Flow task l returned p)
    (hstep : task.step stop e = some task') (hother : ∀ response, e ≠ .handled response)
    (hread : ∀ chunk, e = .readDone (.ok chunk) → chunk.bytes <+: l.outbox ∧
      ∃ left ∈ p.sent.tails, l.outbox.drop chunk.bytes.length = framesOf left)
    (hwrite : ∀ error n, e = .written error n →
      ∀ response ∈ task.pc.response, response.buffer.length ≤ n) :
    ∃ p', p'.sent = p.sent ∧ p'.answers = p.answers ∧
      Flow task' (l.moved (takenBy e) task task') returned p' := by
  by_cases hchunk : ∃ chunk, e = .readDone (.ok chunk)
  · obtain ⟨chunk, rfl⟩ := hchunk
    obtain ⟨hdelivers, left, hleft, hdrop⟩ := hread chunk rfl
    obtain ⟨hpc, rfl⟩ := read_step hstep
    exact h.reads hpc hdelivers ((List.mem_tails _ _).mp hleft) hdrop
  · have htaken : takenBy e = 0 := by
      unfold takenBy
      split
      · exact absurd ⟨_, rfl⟩ hchunk
      · rfl
    rw [htaken]
    have hhands := h.hands
    generalize hheld : p.held = held at hhands
    cases hhands with
    | nothing quiet =>
      obtain ⟨hquiet, hsent⟩ := quiet.step hstep fun chunk heq => hchunk ⟨chunk, heq⟩
      refine ⟨p, rfl, rfl, h.stays ?_ (by rw [hsent, List.drop_length])⟩
      rw [hheld]
      exact .nothing hquiet
    | request handling =>
      have hmoves := step_moves hstep
      rw [handling] at hmoves
      generalize task'.pc = pc' at hmoves
      cases hmoves with
      | handlerThrew | responded => exact absurd rfl (hother _)
    | @response f a response writing buffer brings =>
      obtain ⟨error, n, rfl, hquiet, hsent⟩ := written_step writing hstep
      have hwhole := hwrite error n rfl response (by rw [writing]; rfl)
      refine h.writes hheld brings hquiet ?_
      rw [hsent, List.drop_left, List.take_of_length_le hwhole, buffer]

/-- A session that waits for the handler does so with the latest request it took. -/
theorem Flow.of_handling (h : Flow task l returned p) {request : TcpDataUnit}
    (hpc : task.pc = .handling request) :
    ∃ t r pad, request = sessionUnit t r pad ∧ (t, r) ∈ p.taken ∧ Fits r ∧
      (∀ a ∈ p.answers, a.transactionId < t) ∧ p.held = [] := by
  have hhands := h.hands
  generalize hheld : p.held = held at hhands
  cases hhands with
  | nothing quiet =>
    have hnone := quiet.request
    rw [hpc] at hnone
    cases hnone
  | @request t r pad handling mem fits newer =>
    rw [hpc] at handling
    cases handling
    exact ⟨t, r, pad, rfl, mem, fits, newer, rfl⟩
  | response writing =>
    rw [hpc] at writing
    cases writing

/-- The handler's response is one more answer. -/
theorem Flow.answered (h : Flow task l returned p) {f : WireFrame} {a : Answer}
    {response : TcpDataUnit} (hheld : p.held = []) (hmem : (a.transactionId, a.request) ∈ p.taken)
    (hnewer : ∀ b ∈ p.answers, b.transactionId < a.transactionId)
    (hpc : task'.pc = .writing response) (hbuffer : response.buffer = f.bytes)
    (hbrings : Brings f a) (hsent : task'.state.sent.drop task.state.sent.length = []) :
    ∃ p', p'.sent = p.sent ∧ p'.answers = p.answers ++ [a] ∧
      Flow task' (l.moved 0 task task') returned p' := by
  obtain ⟨taken, queue, seen, late, held, frames⟩ := p
  obtain rfl : held = [] := hheld
  have hanswers : Pipeline.answers ⟨taken, queue, seen, late, [a], frames⟩ =
      Pipeline.answers ⟨taken, queue, seen, late, [], frames⟩ ++ [a] := by
    simp [Pipeline.answers]
  refine ⟨⟨taken, queue, seen, late, [a], frames⟩, rfl, hanswers, ?_⟩
  refine { h with
    unread := ?_, known := ?_, sorted := ?_, hands := .response hpc hbuffer hbrings }
  · rw [Link.moved, hsent, List.append_nil]
    exact h.unread
  · rw [hanswers]
    intro b hb
    rcases List.mem_append.mp hb with hb | hb
    · exact h.known b hb
    · rw [List.mem_singleton.mp hb]
      exact hmem
  · rw [hanswers]
    exact List.pairwise_append.mpr ⟨h.sorted, List.pairwise_singleton _ _, fun b hb c hc =>
      List.mem_singleton.mp hc ▸ hnewer b hb⟩

/-- A response on its way answers one of the requests that were sent. -/
theorem Flow.brought (h : Flow task l returned p) {f : WireFrame} (hf : f ∈ p.frames) :
    ∃ a ∈ p.late, Brings f a ∧ (a.transactionId, a.request) ∈ p.taken := by
  obtain ⟨i, hi, rfl⟩ := List.getElem_of_mem hf
  obtain ⟨hlen, hget⟩ := List.forall₂_iff_get.mp h.brings
  have hmem : p.late.get ⟨i, hlen ▸ hi⟩ ∈ p.late := List.get_mem _ _
  refine ⟨p.late.get ⟨i, hlen ▸ hi⟩, hmem, hget i hi (hlen ▸ hi), h.known _ ?_⟩
  exact List.mem_append_left _ (List.mem_append_right _ hmem)

/-- A client that calls finds only responses with smaller ids to clear. -/
theorem Flow.call (h : Flow task l returned p) {t : Word} {r : Request} (hfits : Fits r)
    (hgrows : ∀ q ∈ p.sent, q.1 < t) :
    ∃ p', p'.sent = p.sent ++ [(t, r)] ∧ p'.answers = p.answers ∧
      Flow task (l.call r ⟨frame t r.message, .request⟩) returned p' := by
  have hsent : Pipeline.sent { p with queue := p.queue ++ [(t, r)] } = p.sent ++ [(t, r)] :=
    (List.append_assoc ..).symm
  have hlast : (t, r) ∈ p.sent ++ [(t, r)] := List.mem_append_right _ List.mem_cons_self
  refine ⟨{ p with queue := p.queue ++ [(t, r)] }, hsent, rfl, ?_⟩
  refine { h with outbox := ?_, fits := ?_, increasing := ?_, waits := ?_, asked := ?_ }
  · simp [Link.call, h.outbox, framesOf]
  · intro q hq
    rcases List.mem_append.mp hq with hq | hq
    · exact h.fits q hq
    · rw [List.mem_singleton.mp hq]
      exact hfits
  · rw [hsent]
    exact List.pairwise_append.mpr ⟨h.increasing, List.pairwise_singleton _ _, fun q hq q' hq' =>
      List.mem_singleton.mp hq' ▸ hgrows q hq⟩
  · intro r' call hwaiting
    cases hwaiting
    rw [hsent]
    refine ⟨t, hlast, fun q hq => ?_, p.frames, [], (List.append_nil _).symm, fun f hf => ?_, ?_⟩
    · rcases List.mem_append.mp hq with hq | hq
      · exact BitVec.le_of_lt (hgrows q hq)
      · rw [List.mem_singleton.mp hq]
        exact BitVec.le_refl _
    · obtain ⟨a, _, hbrings, hknown⟩ := h.brought hf
      rw [hbrings.own]
      exact hgrows _ (List.mem_append_left _ hknown)
    · rw [← h.unread]
      rfl
  · rw [hsent]
    exact fun a ha => List.mem_append_left _ (h.asked a ha)

/-- The ids of the responses on their way grow. -/
theorem Flow.frames_sorted (h : Flow task l returned p) :
    p.frames.Pairwise fun f g => f.transactionId < g.transactionId := by
  have hids : p.frames.map WireFrame.transactionId = p.late.map Answer.transactionId := by
    have hbrings := h.brings
    generalize p.frames = frames at hbrings
    generalize p.late = late at hbrings
    induction hbrings with
    | nil => rfl
    | cons head _ ih => rw [List.map_cons, List.map_cons, head.own, ih]
  have hlate := (List.pairwise_append.mp (List.pairwise_append.mp h.sorted).1).2.1
  rw [← List.pairwise_map, hids, List.pairwise_map]
  exact hlate

/-- Among requests with growing ids the id tells which it is. -/
theorem eq_of_id {sent : List (Word × Request)} (h : sent.Pairwise fun q q' => q.1 < q'.1)
    {q q' : Word × Request} (hq : q ∈ sent) (hq' : q' ∈ sent) (hid : q.1 = q'.1) : q = q' := by
  have hnodup : (sent.map Prod.fst).Nodup := by
    refine (List.pairwise_map.mpr h).imp ?_
    rintro a b hlt rfl
    exact BitVec.lt_irrefl _ hlt
  exact List.inj_on_of_nodup_map hnodup hq hq' hid

/-- The call that waits finds the frame with its own answer among those on their way, or
fails; and nothing is left unread. -/
theorem Flow.takes (h : Flow task l returned p) {t : Word} {r : Request} {call : Call}
    (hwaits : Waits p.sent p.frames t r call) :
    (sendRequest call l.connection).2.source.rest = [] ∧
      ((∀ response, (sendRequest call l.connection).1 ≠ .ok ⟨response, none⟩) ∨
        ∃ f a, a ∈ p.late ∧ Brings f a ∧ a.transactionId = t ∧ a.request = r ∧
          (sendRequest call l.connection).1 = .ok ⟨⟨readBuffer f.bytes, .response⟩, none⟩) := by
  obtain ⟨hmem, hlatest, cleared, fresh, hframes, _, rfl⟩ := hwaits
  have hid := transactionId_request t r
  have hstream : l.connection.source.rest = streamOf cleared ++ streamOf fresh := by
    rw [h.unread, hframes]
    exact List.flatMap_append
  have hdrop : l.connection.source.rest.drop (streamOf cleared).length = streamOf fresh := by
    rw [hstream, List.drop_left]
  have hfresh : ∀ f ∈ fresh, f ∈ p.frames := by
    intro f hf
    rw [hframes]
    exact List.mem_append_right _ hf
  have hsorted := h.frames_sorted
  rw [hframes] at hsorted
  obtain ⟨hrest, hresult⟩ := @readLoop_sorted t fresh
    (fun f hf => by
      obtain ⟨a, _, hbrings, _⟩ := h.brought (hfresh f hf)
      exact hbrings.fits)
    (List.pairwise_append.mp hsorted).2.1
    (fun f hf => by
      obtain ⟨a, _, hbrings, hknown⟩ := h.brought (hfresh f hf)
      rw [hbrings.own]
      exact hlatest _ (List.mem_append_left _ hknown))
    l.connection.starts
  obtain ⟨hfirst, hsecond⟩ := sendRequest_cleared (c := l.connection) hid
    (n := (streamOf cleared).length) (by rw [hstream, List.length_append]; exact Nat.le_add_right _ _)
  rw [hdrop] at hfirst hsecond
  rw [sentCall, hfirst, hsecond]
  refine ⟨hrest, ?_⟩
  rcases hresult with hfail | ⟨f, hf, hown, hloop⟩
  · exact .inl (loopResult_failed hfail)
  · obtain ⟨a, ha, hbrings, hknown⟩ := h.brought (hfresh f hf)
    have hsame : (a.transactionId, a.request) = (t, r) :=
      eq_of_id h.increasing (List.mem_append_left _ hknown) hmem (hbrings.own.symm.trans hown)
    obtain ⟨hid', hrequest⟩ := Prod.mk.inj hsame
    refine .inr ⟨f, a, ha, hbrings, hid', hrequest, ?_⟩
    rw [hloop]
    rfl

/-- So it returns its own answer. -/
theorem Flow.returns (h : Flow task l returned p) {t : Word} {r : Request} {call : Call}
    (hwaits : Waits p.sent p.frames t r call) :
    (sendRequest call l.connection).2.source.rest = [] ∧
      (observe r (sendRequest call l.connection).1 = .failed ∨
        (⟨t, r, observe r (sendRequest call l.connection).1⟩ : Answer) ∈ p.late) := by
  obtain ⟨hrest, hresult⟩ := h.takes hwaits
  refine ⟨hrest, ?_⟩
  rcases hresult with hfail | ⟨f, a, ha, hbrings, rfl, rfl, htaken⟩
  · exact .inl (observe_failed hfail)
  · rw [htaken, hbrings.shows]
    exact .inr ha

/-- The call returns; all that was on its way has arrived. -/
theorem Flow.receive (h : Flow task l returned p) {r : Request} {call : Call}
    (hwaiting : l.waiting = some (r, call)) :
    ∃ p', p'.sent = p.sent ∧ p'.answers = p.answers ∧
      Flow task (l.receive r call) (returned ++ l.result.toList) p' := by
  obtain ⟨t, hwaits⟩ := h.waits r call hwaiting
  obtain ⟨hrest, hresult⟩ := h.returns hwaits
  obtain ⟨hmem, _, cleared, fresh, _, _, hcall⟩ := hwaits
  have hid : call.request.transactionId = .ok t := by
    rw [hcall]
    exact transactionId_request t r
  have hl : l.result.toList = [⟨t, r, observe r (sendRequest call l.connection).1⟩] := by
    simp only [Link.result, hwaiting, hid, Option.toList_some]
  have hanswers : Pipeline.answers { p with seen := p.seen ++ p.late, late := [], frames := [] } =
      p.answers := by
    simp [Pipeline.answers]
  refine ⟨{ p with seen := p.seen ++ p.late, late := [], frames := [] }, rfl, hanswers, ?_⟩
  rw [hl]
  refine { h with
    unread := hrest, known := ?_, sorted := ?_, hands := ?_, brings := .nil, waits := nofun
    own := ?_, asked := ?_, history := ?_ }
  · rw [hanswers]
    exact h.known
  · rw [hanswers]
    exact h.sorted
  · rw [hanswers]
    exact h.hands
  · rw [List.filter_append]
    refine h.own.append ?_
    rcases hresult with hfailed | hanswer
    · simp [hfailed]
    · exact (List.filter_sublist).trans (List.singleton_sublist.mpr hanswer)
  · intro a ha
    rcases List.mem_append.mp ha with ha | ha
    · exact h.asked a ha
    · rw [List.mem_singleton.mp ha]
      exact hmem
  · rw [List.map_append, ← h.history]
    rfl

end Moves

/-! ## What holds in every run -/

/-- What the device of a handler answers to the calls of a service. -/
def answeredBy (handler : RequestHandler) (s : Network) : List (SessionId × Answer) × Device :=
  answerAll (Grants handler) handler.device s.service.log

/-- Every connection is a pipeline for what was sent and answered on it. -/
structure Piped (handler : RequestHandler) (s : Recorded) : Prop where
  ledger : Ledger handler s.network.service
  device : (answeredBy handler s.network).2 = s.network.service.handler.device
  flows : ∀ id, ∃ p : Pipeline, p.sent = s.sent id ∧
    p.answers = answersOf id (answeredBy handler s.network).1 ∧
    Flow (s.network.service.server.task id) (s.network.link id) (s.returned id) p

theorem piped_initial (config : ServerConfig) (handler : RequestHandler) :
    Piped handler (.initial config handler) :=
  ⟨ledger_initial config handler, rfl, fun _ => ⟨_, rfl, rfl, flow_initial⟩⟩

section Steps
variable {handler : RequestHandler} {s : Recorded}

/-- The links after a step of the server that is no end of a call. -/
theorem Flow.server {event : ServerEvent} {server : TcpServer} (hother : ¬ event.IsHandled)
    (hnext : s.network.service.server.step event = some server)
    (hdelivers : s.network.Delivers (.server event)) (haligned : s.Aligned (.server event))
    (hledger : Ledger handler s.network.service) {id : SessionId} {p : Pipeline}
    (hsent : p.sent = s.sent id)
    (h : Flow (s.network.service.server.task id) (s.network.link id) (s.returned id) p) :
    ∃ p' : Pipeline, p'.sent = p.sent ∧ p'.answers = p.answers ∧
      Flow (server.task id) ((s.network.link id).moved (taken id (.server event))
        (s.network.service.server.task id) (server.task id)) (s.returned id) p' := by
  by_cases hsession : ∃ x e, event = .session x e
  · obtain ⟨x, e, rfl⟩ := hsession
    obtain ⟨htask, hothers⟩ := session_step hnext
    by_cases hne : id = x
    · subst hne
      have hend : ∀ response, e ≠ .handled response := by
        rintro response rfl
        exact hother trivial
      rw [taken, if_pos rfl]
      refine h.session htask hend ?_ ?_
      · rintro chunk rfl
        rw [hsent]
        exact ⟨hdelivers, haligned⟩
      · rintro error n rfl
        exact haligned
    · rw [taken, if_neg (Ne.symm hne), hothers id hne]
      exact ⟨p, rfl, rfl, h.unmoved⟩
  · have htaken : taken id (.server event) = 0 := by
      unfold taken
      split
      · next heq =>
        cases heq
        exact absurd ⟨_, _, rfl⟩ hsession
      · rfl
    rw [htaken]
    rcases task_of_moves (server_moves hnext) (fun x e heq => hsession ⟨x, e, heq⟩) id with
      hsame | ⟨hpending, hspawned⟩
    · rw [hsame]
      exact ⟨p, rfl, rfl, h.unmoved⟩
    · have hpc : (s.network.service.server.task id).pc = .unborn := by
        refine Decidable.byContradiction fun hborn => ?_
        exact (hledger.numbered.born id hborn).2.1 hpending
      have hheld : p.held = [] := by
        have hhands := h.hands
        rw [hpc] at hhands
        generalize p.held = held at hhands
        cases hhands with
        | nothing => rfl
        | request handling => cases handling
        | response writing => cases writing
      rw [hspawned]
      refine ⟨p, rfl, rfl, h.stays ?_ List.drop_nil⟩
      rw [hheld]
      exact .nothing ⟨rfl, rfl⟩

/-- The end of a call is one more answer to its session. -/
theorem Piped.handled {id : SessionId} {request response : TcpDataUnit} {h' : RequestHandler}
    {server : TcpServer} (hhandler : handler.WellFormed) (hs : Piped handler s)
    (hregular : s.network.service.Admissible (.handle id))
    (hpc : (s.network.service.server.task id).pc = .handling request)
    (hcall : s.network.service.handler.call request = .ok (response, h'))
    (hnext : s.network.service.server.step (.session id (.handled (some response))) = some server) :
    Piped handler
      ⟨⟨⟨server, h', s.network.service.log ++ [⟨id, request, some response⟩]⟩,
          fun x => (s.network.link x).moved (taken x (.handle id))
            (s.network.service.server.task x) (server.task x)⟩, s.sent, s.returned⟩ := by
  obtain ⟨p, hsent, hanswers, hflow⟩ := hs.flows id
  obtain ⟨t, r, pad, rfl, mem, fits, newer, hheld⟩ := hflow.of_handling hpc
  have hunit := ofUnit_sessionUnit t pad fits
  have hown := transactionId_sessionUnit t r pad
  have hprotected := hs.ledger.replays.protects
  have hgrants : ∀ q, Grants s.network.service.handler q ↔ Grants handler q := by
    intro q
    rw [Grants, Grants, hprotected.validAddresses]
  obtain ⟨m, hbuffer, hfits, hshows, hdevice⟩ := call_observed (hprotected.wellFormed hhandler) fits
    (fun hgranted => hregular r (by rw [hpc]; exact hunit) hgranted) hcall
  rw [perform_congr _ hgrants, ← hs.device] at hshows hdevice
  obtain ⟨htask, hothers⟩ := session_step hnext
  obtain ⟨hpc', hstate⟩ := handled_step hpc htask
  have hanswered : answerAll (Grants handler) handler.device
      (s.network.service.log ++ [⟨id, sessionUnit t r pad, some response⟩]) =
      ((answeredBy handler s.network).1 ++
          [(id, ⟨t, r, (perform (Grants handler) (answeredBy handler s.network).2 r).1⟩)],
        (perform (Grants handler) (answeredBy handler s.network).2 r).2) := by
    rw [answerAll_append, answerAll_single (Grants handler) hunit hown]
    rfl
  have hsize : m.size < 65536 := by
    rw [length_frame] at hfits
    unfold maxApuSize tcpHeaderSize at hfits
    omega
  have hbytes := WireFrame.bytes_ofMessage (t := t) hsize
  obtain ⟨code, hcode, hkind⟩ := call_code fits hcall
  rw [hbuffer] at hcode
  have hbrings : Brings (.ofMessage t m hsize)
      ⟨t, r, (perform (Grants handler) (answeredBy handler s.network).2 r).1⟩ :=
    ⟨rfl, by rwa [hbytes], ⟨code, by rwa [hbytes], hkind⟩, by rwa [hbytes]⟩
  refine ⟨hs.ledger.handle hpc hnext (.answered hs.ledger.replays hcall), ?_, fun x => ?_⟩
  · rw [answeredBy, hanswered]
    exact hdevice.symm
  · rw [answeredBy, hanswered, answersOf_append]
    by_cases hne : x = id
    · subst hne
      obtain ⟨p', hsent', hanswers', hflow'⟩ := hflow.answered hheld mem newer hpc'
        (hbuffer.trans hbytes.symm) hbrings (by rw [hstate, List.drop_length])
      refine ⟨p', hsent'.trans hsent, ?_, hflow'⟩
      rw [hanswers', hanswers, if_pos rfl]
    · obtain ⟨p, hsent, hanswers, hflow⟩ := hs.flows x
      refine ⟨p, hsent, ?_, ?_⟩
      · rw [if_neg (Ne.symm hne), List.append_nil, hanswers]
      · dsimp only
        rw [hothers x hne]
        exact hflow.unmoved

theorem Piped.service {event : ServiceEvent} {service : Service} (hhandler : handler.WellFormed)
    (hs : Piped handler s) (hdelivers : s.network.Delivers event)
    (hregular : s.network.service.Admissible event) (haligned : s.Aligned event)
    (h : s.network.service.step event = some service) :
    Piped handler
      ⟨⟨service, fun id => (s.network.link id).moved (taken id event)
          (s.network.service.server.task id) (service.server.task id)⟩, s.sent, s.returned⟩ := by
  cases service_moves h with
  | server other next =>
    refine ⟨hs.ledger.server other next, hs.device, fun id => ?_⟩
    obtain ⟨p, hsent, hanswers, hflow⟩ := hs.flows id
    obtain ⟨p', hsent', hanswers', hflow'⟩ :=
      hflow.server other next hdelivers haligned hs.ledger hsent
    exact ⟨p', hsent'.trans hsent, hanswers'.trans hanswers, hflow'⟩
  | answered pc call next => exact hs.handled hhandler hregular pc call next
  | @threw id request e server pc call next =>
    obtain ⟨p, _, _, hflow⟩ := hs.flows id
    obtain ⟨t, r, pad, rfl, _⟩ := hflow.of_handling pc
    exact absurd call sessionUnit_not_thrown

/-- A change of one link leaves the others as they are. -/
theorem Piped.update (hs : Piped handler s) (id : SessionId) (l : Link)
    (sent : List (Word × Request)) (returned : List Answer)
    (h : ∀ p : Pipeline, p.sent = s.sent id →
      Flow (s.network.service.server.task id) (s.network.link id) (s.returned id) p →
        ∃ p' : Pipeline, p'.sent = p.sent ++ sent ∧ p'.answers = p.answers ∧
          Flow (s.network.service.server.task id) l (s.returned id ++ returned) p') :
    Piped handler
      ⟨{ s.network with link := Function.update s.network.link id l },
        fun x => s.sent x ++ if id = x then sent else [],
        fun x => s.returned x ++ if id = x then returned else []⟩ := by
  refine ⟨hs.ledger, hs.device, fun x => ?_⟩
  obtain ⟨p, hsent, hanswers, hflow⟩ := hs.flows x
  dsimp only
  by_cases hne : id = x
  · subst hne
    obtain ⟨p', hsent', hanswers', hflow'⟩ := h p hsent hflow
    rw [Function.update_self, if_pos rfl, if_pos rfl, ← hsent]
    exact ⟨p', hsent', hanswers'.trans hanswers, hflow'⟩
  · rw [Function.update_of_ne (Ne.symm hne), if_neg hne, if_neg hne, List.append_nil,
      List.append_nil]
    exact ⟨p, hsent, hanswers, hflow⟩

theorem piped_step {s' : Recorded} {e : NetworkEvent} (hhandler : handler.WellFormed)
    (hs : Piped handler s) (hadm : s.Admissible e) (h : s.step e = some s') :
    Piped handler s' := by
  obtain ⟨network, hnetwork, hs'⟩ := Option.map_eq_some_iff.mp h
  cases hs'
  cases e with
  | service event =>
    obtain ⟨hdelivers, hmap⟩ := Option.ite_none_right_eq_some.mp hnetwork
    obtain ⟨service, hservice, hnetwork'⟩ := Option.map_eq_some_iff.mp hmap
    cases hnetwork'
    simpa only [sentOn, Network.returnedOn, List.append_nil] using
      hs.service hhandler hdelivers hadm.1 hadm.2 hservice
  | call id t r =>
    obtain ⟨hfits, hgrows⟩ := hadm
    simp only [Network.step, createRequest_eq] at hnetwork
    split at hnetwork
    · next request hwaiting heq =>
      cases hnetwork
      cases heq
      rw [r.kind_type]
      have hcalled := hs.update id ((s.network.link id).call r ⟨frame t r.message, .request⟩)
        [(t, r)] [] fun p hsent hflow => by
          rw [List.append_nil]
          exact hflow.call hfits (hsent ▸ hgrows)
      simpa only [sentOn, Network.returnedOn, ite_self] using hcalled
    · cases hnetwork
  | receive id =>
    simp only [Network.step] at hnetwork
    split at hnetwork
    · next r call hwaiting =>
      cases hnetwork
      have hreceived := hs.update id ((s.network.link id).receive r call) []
        (s.network.link id).result.toList fun p hsent hflow => by
          rw [List.append_nil]
          exact hflow.receive hwaiting
      have hown : ∀ x, (if id = x then (s.network.link x).result.toList else []) =
          if id = x then (s.network.link id).result.toList else [] := by
        intro x
        by_cases hne : id = x
        · rw [hne]
        · rw [if_neg hne, if_neg hne]
      simpa only [sentOn, Network.returnedOn, ite_self, hown] using hreceived
    · cases hnetwork

theorem piped_of_run {config : ServerConfig} (hhandler : handler.WellFormed)
    (h : Run Recorded.step Recorded.Admissible (.initial config handler) s) : Piped handler s :=
  h.invariant (Piped handler) (piped_initial config handler)
    fun _ _ _ ht hadm hstep => piped_step hhandler ht hadm hstep

end Steps

/-- A client gives up reading eight coils and switches the first one on; both requests are
answered before its second call looks for a response. -/
def givesUp : List NetworkEvent :=
  (.server (.listen true) :: accepts 0).map .service ++
    [.call 0 1 (.readCoils ⟨1, 0, 8⟩), .receive 0,
      .service (.server (.session 0 (.readDone (.ok eightCoilsRead)))), .service (.handle 0),
      .call 0 2 (.writeSingleCoil ⟨1, 0, true⟩), .service (.server (.session 0 (.written none 10))),
      .service (.server (.session 0 .test)),
      .service (.server (.session 0 (.readDone (.ok firstCoilOnRead)))), .service (.handle 0),
      .service (.server (.session 0 (.written none 12))), .receive 0]

end Modbus.EndToEnd
