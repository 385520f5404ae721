import WebServer.Http.Grammar
import WebServer.Life.HeaderLimit

/-!
# Request boundaries

The requests that were answered are the first ones of the input.  What the machine holds of
the bytes behind them depends on its point alone: a header it is parsing, a body it is
receiving, and its buffer.
-/

namespace WebServer.Life

open WebServer.Net WebServer.Http WebServer.Core

/-! ## Requests in the input -/

/-- The bytes behind the first request of the input, if it is there as a whole. -/
def behindRequest (input : Bytes) : Option Bytes :=
  match Search.find? crlfcrlf input with
  | none => none
  | some headerEnd =>
    match parseRequestHeader (input.take (headerEnd + 4)) with
    | .error _ => none
    | .ok request =>
      let rest := input.drop (headerEnd + 4)
      if request.contentLength ≤ rest.length then some (rest.drop request.contentLength) else none

/-- The bytes behind the first `n` requests of the input. -/
def behindRequests : Nat → Bytes → Option Bytes
  | 0, input => some input
  | n + 1, input => (behindRequests n input).bind behindRequest

variable {fd : Fd} {id n m : Nat} {p p' : Point} {c c' : ClientConnection} {H : List Event}
  {events : List Event} {N nodes : List TimerEntry} {request : HttpRequest}
  {input header body rest : Bytes}

/-- A request at the front. -/
theorem behindRequest_of_block (hheader : IsBlock header)
    (hr : parseRequestHeader header = .ok request) (hbody : body.length = request.contentLength)
    (rest : Bytes) : behindRequest (header ++ (body ++ rest)) = some rest := by
  obtain ⟨headerEnd, he, hlen⟩ := hheader
  have hfind := Search.find?_append he (body ++ rest)
  rw [behindRequest, hfind]
  dsimp only
  rw [List.take_left' hlen, List.drop_left' hlen, hr]
  dsimp only
  rw [← hbody, List.drop_left, if_pos (by simp)]

/-- Input that arrives later is behind the request. -/
theorem behindRequest_append (h : behindRequest input = some rest) (more : Bytes) :
    behindRequest (input ++ more) = some (rest ++ more) := by
  unfold behindRequest at h ⊢
  split at h
  · cases h
  · rename_i headerEnd he
    have hlen := find?_crlfcrlf_le he
    rw [Search.find?_append he more]
    dsimp only
    rw [List.take_append_of_le_length hlen, List.drop_append_of_le_length hlen]
    split at h
    · cases h
    · dsimp only at h
      split at h
      · rename_i hbody
        cases h
        rw [if_pos (by rw [List.length_append]; omega), List.drop_append_of_le_length hbody]
      · cases h

theorem behindRequests_append (h : behindRequests n input = some rest) (more : Bytes) :
    behindRequests n (input ++ more) = some (rest ++ more) := by
  induction n generalizing rest with
  | zero =>
    cases h
    rfl
  | succ n ih =>
    obtain ⟨between, hbetween, hrest⟩ := Option.bind_eq_some_iff.mp h
    rw [behindRequests, ih hbetween, Option.bind_some, behindRequest_append hrest]

theorem behindRequests_add (n m : Nat) (input : Bytes) :
    behindRequests (n + m) input = (behindRequests n input).bind (behindRequests m) := by
  induction m with
  | zero => exact (Option.bind_fun_some _).symm
  | succ m ih =>
    rw [← Nat.add_assoc, behindRequests, ih, Option.bind_assoc]
    rfl

/-! ## Where the machine stands -/

/-- The number of requests answered with a `200`. -/
def answered (H : List Event) : Nat := (decisions H).countP isAnswer

/-- What the bytes behind the last answered request are. -/
def Front (p : Point) (c : ClientConnection) (rest : Bytes) : Prop :=
  match p with
  | .parsing _ header => IsBlock header ∧ rest = header ++ c.inputBuffer.storage
  | _ =>
    if c.waitingForRequestBody then
      ∃ header body, IsBlock header ∧ parseRequestHeader header = .ok c.pendingRequest ∧
        body.length + c.pendingBodyBytesRemaining = c.pendingRequest.contentLength ∧
        rest = header ++ (body ++ c.inputBuffer.storage)
    else rest = c.inputBuffer.storage

theorem front_of_not_parsing (hp : p.isParsing = false) : Front p c rest ↔
    if c.waitingForRequestBody then
      ∃ header body, IsBlock header ∧ parseRequestHeader header = .ok c.pendingRequest ∧
        body.length + c.pendingBodyBytesRemaining = c.pendingRequest.contentLength ∧
        rest = header ++ (body ++ c.inputBuffer.storage)
    else rest = c.inputBuffer.storage := by
  cases p <;> first | rfl | cases hp

/-- The body grows by what is taken from the buffer. -/
theorem front_takeBody (hp : p.isParsing = false) (hw : c.waitingForRequestBody = true)
    (h : Front p c rest) : ∃ header body, IsBlock header ∧
      parseRequestHeader header = .ok c.pendingRequest ∧
      body.length + (takeBody c).pendingBodyBytesRemaining = c.pendingRequest.contentLength ∧
      rest = header ++ (body ++ (takeBody c).inputBuffer.storage) := by
  rw [front_of_not_parsing hp, if_pos hw] at h
  obtain ⟨header, body, hheader, hr, hlen, rfl⟩ := h
  have htake : (c.inputBuffer.storage.take (min c.pendingBodyBytesRemaining
      c.inputBuffer.storage.length)).length =
        min c.pendingBodyBytesRemaining c.inputBuffer.storage.length := by
    rw [List.length_take, Nat.min_eq_left (Nat.min_le_right ..)]
  refine ⟨header, body ++ c.inputBuffer.storage.take (min c.pendingBodyBytesRemaining
    c.inputBuffer.storage.length), hheader, hr, ?_, ?_⟩
  · rw [List.length_append, htake]
    simp only [takeBody, DynamicBuffer.size]
    omega
  · simp only [takeBody, DynamicBuffer.size, List.append_assoc, List.take_append_drop]

/-- Every request that is answered is behind the machine. -/
theorem Advance.front {data : Bytes} {taken : List Decision} {popped : List Bytes}
    (hbody : BodyPhase p c) (h : Advance p c data taken popped p' c') (hfront : Front p c rest) :
    ∃ rest', behindRequests (taken.countP isAnswer) (rest ++ data) = some rest' ∧
      Front p' c' rest' := by
  cases h with
  | idle hp hp' h =>
    refine ⟨rest, by rw [List.append_nil]; rfl, ?_⟩
    rw [front_of_not_parsing hp] at hfront
    rw [front_of_not_parsing hp', h.inputBuffer, h.waiting, h.request, h.remaining]
    exact hfront
  | recv data =>
    refine ⟨rest ++ data, rfl, ?_⟩
    rw [front_of_not_parsing rfl] at hfront ⊢
    by_cases hw : c.waitingForRequestBody = true
    · rw [if_pos hw] at hfront
      obtain ⟨header, body, hheader, hr, hlen, rfl⟩ := hfront
      rw [if_pos hw]
      exact ⟨header, body, hheader, hr, hlen, by simp⟩
    · rw [if_neg hw] at hfront
      rw [if_neg hw, hfront]
      rfl
  | pop headerEnd he =>
    have hw : c.waitingForRequestBody = false := hbody.noBody rfl
    rw [front_of_not_parsing rfl, if_neg (by simp [hw])] at hfront
    refine ⟨rest, by rw [List.append_nil]; rfl, isBlock_take he, ?_⟩
    rw [hfront]
    exact (List.take_append_drop ..).symm
  | request r keepAlive hr hs hb =>
    have hw : c.waitingForRequestBody = false := hbody.noBody rfl
    obtain ⟨hheader, rfl⟩ := hfront
    refine ⟨c.inputBuffer.storage, ?_, ?_⟩
    · rw [List.append_nil]
      exact @behindRequest_of_block r _ [] hheader hr
        (contentLength_of_not_expectsBody hb).symm _
    · rw [front_of_not_parsing rfl, if_neg]
      · rfl
      · simp [ClientConnection.respond, hw]
  | beginBody r hr hs =>
    obtain ⟨hheader, rfl⟩ := hfront
    refine ⟨_, by rw [List.append_nil]; rfl, ?_⟩
    rw [front_of_not_parsing rfl,
      if_pos (show (rearm .kBody (c.beginBody r)).waitingForRequestBody = true from rfl)]
    exact ⟨_, [], hheader, hr, by simp [rearm, ClientConnection.beginBody], rfl⟩
  | bodyPart hp hw h =>
    obtain ⟨hp, hp'⟩ := bodyBack_isParsing hp
    refine ⟨rest, by rw [List.append_nil]; rfl, ?_⟩
    rw [front_of_not_parsing hp', if_pos (show (takeBody c).waitingForRequestBody = true from hw)]
    exact front_takeBody hp hw hfront
  | bodyDone keepAlive hp hw h =>
    obtain ⟨header, body, hheader, hr, hlen, rfl⟩ :=
      front_takeBody (bodyBack_isParsing hp).1 hw hfront
    rw [h, Nat.add_zero] at hlen
    refine ⟨(takeBody c).inputBuffer.storage, ?_, ?_⟩
    · rw [List.append_nil]
      exact behindRequest_of_block hheader hr hlen _
    · rw [front_of_not_parsing rfl, if_neg]
      · rfl
      · simp [ClientConnection.respond, ClientConnection.finishBody]

/-- The answered requests are the first ones of what was received. -/
def AtBoundary (p : Point) (c : ClientConnection) (H : List Event) : Prop :=
  ∃ rest, behindRequests (answered H) (received H) = some rest ∧ Front p c rest

theorem AtBoundary.step (hr : Run fd id p c H N) (hI : AtBoundary p c H)
    (h : Step fd H p c events nodes p' c') : AtBoundary p' c' (H ++ events) := by
  obtain ⟨rest, hrest, hfront⟩ := hI
  obtain ⟨rest', hrest', hfront'⟩ := (h.advance hr.returns).front hr.bodyPhase hfront
  refine ⟨rest', ?_, hfront'⟩
  rw [answered, decisions_append, List.countP_append, received_append, behindRequests_add]
  rw [answered] at hrest
  rw [behindRequests_append hrest, Option.bind_some, hrest']

/-- **Boundaries.**  Along a run the machine never loses the boundary of a request. -/
theorem Run.atBoundary (h : Run fd id p c H N) : AtBoundary p c H := by
  refine Run.invariant (I := AtBoundary) (fun _ _ => ?_) (fun hr hI hs => hI.step hr hs) h
  exact ⟨[], rfl, rfl⟩

/-! ## The refusal of a header -/

def rejectionOf : Event → List Nat
  | .rejected _ statusCode => [statusCode]
  | _ => []

/-- The status codes of the error responses. -/
def rejections (H : List Event) : List Nat := H.flatMap rejectionOf

theorem rejections_append (H H' : List Event) : rejections (H ++ H') = rejections H ++ rejections H' :=
  List.flatMap_append

theorem rejections_cons (e : Event) (H : List Event) :
    rejections (e :: H) = rejectionOf e ++ rejections H := List.flatMap_cons

theorem rejections_responseWrites (fd : Fd) (life : Nat) (data : Bytes)
    (script : List WriteResult) : rejections (responseWrites fd life data script) = [] :=
  flatMap_responseWrites (fun _ _ _ _ _ => rfl) ..

theorem rejections_refusal (c : ClientConnection) (statusCode : Nat) (script : List WriteResult) :
    rejections (refusal fd c statusCode script) = [statusCode] :=
  (flatMap_refusal (fun _ _ _ _ _ => rfl) ..).trans (List.append_nil _)

/-- A connection that lives has not been refused. -/
theorem Run.rejections (h : Run fd id p c H N) : rejections H = [] := by
  refine Run.invariant (I := fun _ _ H => Life.rejections H = []) (fun _ _ => rfl) ?_ h
  intro p p' c c' H N events nodes hr hI hs
  clear hr
  rw [rejections_append, hI, List.nil_append]
  cases hs
  case flushed | flushBlocked | sendResponse => exact rejections_responseWrites ..
  all_goals rfl

/-- The one end with a `431`. -/
theorem End.header_refused (h : End fd p c events) (hmem : 431 ∈ rejections events) :
    p = .received ∧ c.waitingForRequestBody = false ∧
      c.inputBuffer.headerExceedsLimit kMaxHeaderBytes = true ∧
      received events = [] ∧ decisions events = [] := by
  cases h
  case limitExceeded script hw h =>
    refine ⟨rfl, hw, h, ?_, ?_⟩
    · rw [received_cons, received_refusal]
      rfl
    · have hno : ¬ isFramingError 431 = true := by decide
      rw [decisions_cons, decisions_refusal, if_neg hno]
      rfl
  case flushFailed | sendFailed =>
    rw [rejections_append, rejections_responseWrites] at hmem
    exact absurd hmem List.not_mem_nil
  case headerRefused e script hr =>
    rw [rejections_refusal] at hmem
    cases e <;> exact absurd (List.mem_singleton.mp hmem) (by decide)
  case bodyRefused =>
    rw [rejections_refusal] at hmem
    exact absurd (List.mem_singleton.mp hmem) (by decide)
  case recvRefused =>
    rw [rejections_append, rejections_refusal] at hmem
    exact absurd (List.mem_singleton.mp hmem) (by decide)
  case answerRefused =>
    rw [rejections_cons, rejections_refusal] at hmem
    exact absurd (List.mem_singleton.mp hmem) (by decide)
  all_goals exact absurd hmem List.not_mem_nil

/-- No header block that is within the limit begins here, whatever is still to come, and there
are more bytes than the limit allows. -/
def OverLimit (rest : Bytes) : Prop :=
  kMaxHeaderBytes < rest.length ∧ ¬ crlfcrlf <:+: rest.take kMaxHeaderBytes

theorem overLimit_of_exceeds {b : DynamicBuffer} (h : b.headerExceedsLimit kMaxHeaderBytes = true) :
    OverLimit b.storage := by
  unfold DynamicBuffer.headerExceedsLimit DynamicBuffer.findHeaderEnd at h
  cases he : Search.find? crlfcrlf b.storage with
  | none =>
    rw [he] at h
    refine ⟨of_decide_eq_true h, fun hocc => ?_⟩
    have hsome := Search.find?_isSome_iff.mpr (hocc.trans (List.take_prefix ..).isInfix)
    rw [he] at hsome
    cases hsome
  | some headerEnd =>
    rw [he] at h
    have hlimit : kMaxHeaderBytes < headerEnd + 4 := of_decide_eq_true h
    refine ⟨hlimit.trans_le (find?_crlfcrlf_le he), fun hocc => ?_⟩
    -- an occurrence within the limit would be the first one
    obtain ⟨first, hfirst⟩ := Option.isSome_iff_exists.mp (Search.find?_isSome_iff.mpr hocc)
    have hle := find?_crlfcrlf_le hfirst
    have hsame := Search.find?_append hfirst (b.storage.drop kMaxHeaderBytes)
    rw [List.take_append_drop, he] at hsame
    cases hsame
    rw [List.length_take] at hle
    omega

/-- A block at the front of such bytes is longer than the limit. -/
theorem OverLimit.block (h : OverLimit rest) (hheader : IsBlock header) {more : Bytes}
    (hstart : header <+: rest ++ more) : kMaxHeaderBytes < header.length := by
  by_contra hle
  obtain ⟨hlen, hno⟩ := h
  obtain ⟨headerEnd, he, -⟩ := hheader
  have hrest : header <+: rest :=
    List.prefix_of_prefix_length_le hstart (List.prefix_append ..) (by omega)
  have htake : header <+: rest.take kMaxHeaderBytes :=
    List.prefix_take_iff.mpr ⟨hrest, Nat.le_of_not_lt hle⟩
  have hocc := Search.find?_isSome_iff.mp (Option.isSome_iff_exists.mpr ⟨headerEnd, he⟩)
  exact hno (hocc.trans htake.isInfix)

/-- A `431` looks at the bytes behind the last answered request. -/
theorem Ended.overLimit (h : Ended fd id H) (hmem : 431 ∈ rejections H) :
    ∃ rest, behindRequests (answered H) (received H) = some rest ∧ OverLimit rest := by
  obtain ⟨p, c, H₀, N, events, hr, he, rfl⟩ := h
  rw [rejections_append, hr.rejections, List.nil_append] at hmem
  obtain ⟨rfl, hw, hover, hreceived, hdecisions⟩ := he.header_refused hmem
  obtain ⟨rest, hrest, hfront⟩ := hr.atBoundary
  rw [front_of_not_parsing rfl, if_neg (by simp [hw])] at hfront
  refine ⟨rest, ?_, hfront ▸ overLimit_of_exceeds hover⟩
  rw [answered, decisions_append, hdecisions, received_append, hreceived, List.append_nil,
    List.append_nil]
  exact hrest

end WebServer.Life
