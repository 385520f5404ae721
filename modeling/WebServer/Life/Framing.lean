import WebServer.Life.Body

/-!
# Request framing

The reference interpreter reads all bytes of a connection in one piece.  The
machine reads them in chunks and through a buffer; its decisions are a prefix of
those of the reference.
-/

namespace WebServer.Life

open WebServer.Net WebServer.Http WebServer.Core

/-! ## Decisions -/

inductive Decision
  /-- A `200` for this request. -/
  | answer (request : HttpRequest)
  /-- A final `400`, `411`, `413` or `501`. -/
  | refuse (statusCode : Nat)
  deriving DecidableEq, Repr

def isAnswer : Decision → Bool
  | .answer _ => true
  | .refuse _ => false

def isFramingError (statusCode : Nat) : Bool := statusCode ∈ [400, 411, 413, 501]

def decisionOf : Event → List Decision
  | .dispatched _ request _ => [.answer request]
  | .rejected _ statusCode => if isFramingError statusCode then [.refuse statusCode] else []
  | _ => []

/-- The protocol decisions taken on a connection. -/
def decisions (H : List Event) : List Decision := H.flatMap decisionOf

@[simp] theorem decisions_append (H H' : List Event) :
    decisions (H ++ H') = decisions H ++ decisions H' := List.flatMap_append

theorem decisions_cons (e : Event) (H : List Event) :
    decisions (e :: H) = decisionOf e ++ decisions H := List.flatMap_cons

def headerOf : Event → List Bytes
  | .popped _ header => [header]
  | _ => []

/-- The header blocks taken out of the input buffer. -/
def poppedHeaders (H : List Event) : List Bytes := H.flatMap headerOf

@[simp] theorem poppedHeaders_append (H H' : List Event) :
    poppedHeaders (H ++ H') = poppedHeaders H ++ poppedHeaders H' := List.flatMap_append

theorem poppedHeaders_cons (e : Event) (H : List Event) :
    poppedHeaders (e :: H) = headerOf e ++ poppedHeaders H := List.flatMap_cons

/-! ## The reference interpreter -/

/-- The decisions from a header block on; `next` goes on behind the request. -/
def onHeader (next : Bytes → List Decision) (header rest : Bytes) : List Decision :=
  match parseRequestHeader header with
  | .error e => [.refuse (ParseError.statusCode e)]
  | .ok request =>
    if kMaxBodyBytes < request.contentLength then [.refuse 413]
    else if rest.length < request.contentLength then []
    else .answer request :: next (rest.drop request.contentLength)

/-- The decisions on a byte string.  Every request is at least four bytes long, so a fuel of
the length of the input is enough. -/
def interpret : Nat → Bytes → List Decision
  | 0, _ => []
  | fuel + 1, input =>
    match Search.find? crlfcrlf input with
    | none => []
    | some headerEnd =>
      onHeader (interpret fuel) (input.take (headerEnd + 4)) (input.drop (headerEnd + 4))

/-- The decisions of the reference interpreter that sees the whole input at once. -/
def reference (input : Bytes) : List Decision := interpret input.length input

/-- The reference in front of the last `remaining` bytes of a body. -/
def onBody (request : HttpRequest) (remaining : Nat) (input : Bytes) : List Decision :=
  if input.length < remaining then []
  else .answer request :: reference (input.drop remaining)

/-- Two continuations that agree on shorter inputs. -/
theorem onHeader_congr {next next' : Bytes → List Decision} {header rest : Bytes}
    (h : ∀ input : Bytes, input.length ≤ rest.length → next input = next' input) :
    onHeader next header rest = onHeader next' header rest := by
  unfold onHeader
  cases parseRequestHeader header with
  | error e => rfl
  | ok request =>
    simp only
    rw [h (rest.drop request.contentLength) (by simp)]

theorem find?_crlfcrlf_le {input : Bytes} {headerEnd : Nat}
    (h : Search.find? crlfcrlf input = some headerEnd) : headerEnd + 4 ≤ input.length :=
  Search.find?_length_le h

theorem interpret_fuel {fuel fuel' : Nat} {input : Bytes} (h : input.length ≤ fuel)
    (h' : input.length ≤ fuel') : interpret fuel input = interpret fuel' input := by
  induction fuel generalizing fuel' input with
  | zero =>
    obtain rfl := List.length_eq_zero_iff.mp (Nat.le_zero.mp h)
    cases fuel' <;> rfl
  | succ fuel ih =>
    cases fuel' with
    | zero =>
      obtain rfl := List.length_eq_zero_iff.mp (Nat.le_zero.mp h')
      rfl
    | succ fuel' =>
      simp only [interpret]
      cases hf : Search.find? crlfcrlf input with
      | none => rfl
      | some headerEnd =>
        have hlen := find?_crlfcrlf_le hf
        apply onHeader_congr
        intro rest hrest
        rw [List.length_drop] at hrest
        exact ih (by omega) (by omega)

/-- Without a complete header block nothing is decided. -/
theorem reference_of_none {input : Bytes} (h : Search.find? crlfcrlf input = none) :
    reference input = [] := by
  unfold reference
  cases input.length with
  | zero => rfl
  | succ n => rw [interpret, h]

/-- The reference takes the first header block. -/
theorem reference_of_some {input : Bytes} {headerEnd : Nat}
    (h : Search.find? crlfcrlf input = some headerEnd) :
    reference input =
      onHeader reference (input.take (headerEnd + 4)) (input.drop (headerEnd + 4)) := by
  have hlen := find?_crlfcrlf_le h
  obtain ⟨n, hn⟩ : ∃ n, input.length = n + 1 := ⟨input.length - 1, by omega⟩
  rw [reference, hn]
  simp only [interpret, h]
  refine onHeader_congr fun rest hrest => interpret_fuel ?_ (Nat.le_refl _)
  rw [List.length_drop] at hrest
  omega

theorem onHeader_body {header : Bytes} {request : HttpRequest}
    (hr : parseRequestHeader header = .ok request) (hs : oversized request = false)
    (rest : Bytes) : onHeader reference header rest = onBody request request.contentLength rest := by
  have hle : ¬ kMaxBodyBytes < request.contentLength := by
    intro hlt
    have hc : request.hasContentLength = true := by
      cases he : request.contentLength? with
      | none => simp [HttpRequest.contentLength, he] at hlt
      | some n => simp [HttpRequest.hasContentLength, he]
    simp [oversized, hc, hlt] at hs
  simp only [onHeader, hr, if_neg hle, onBody]

theorem onBody_zero (request : HttpRequest) (input : Bytes) :
    onBody request 0 input = .answer request :: reference input := by
  simp [onBody]

/-- Bytes of a body that are taken from the front. -/
theorem onBody_drop (request : HttpRequest) {remaining k : Nat} {input : Bytes}
    (hr : k ≤ remaining) (hi : k ≤ input.length) (more : Bytes) :
    onBody request remaining (input ++ more) =
      onBody request (remaining - k) (input.drop k ++ more) := by
  have hd : (input.drop k ++ more).drop (remaining - k) = (input ++ more).drop remaining := by
    rw [← List.drop_append_of_le_length hi, List.drop_drop]
    congr 1
    omega
  unfold onBody
  rw [hd, List.length_append, List.length_append, List.length_drop]
  refine if_congr ?_ rfl rfl
  omega

/-! ## The place in the input -/

/-- The same place in the input: nothing is read, and no header or body byte is taken. -/
structure SamePlace (c c' : ClientConnection) : Prop where
  inputBuffer : c'.inputBuffer = c.inputBuffer
  waiting : c'.waitingForRequestBody = c.waitingForRequestBody
  request : c'.pendingRequest = c.pendingRequest
  remaining : c'.pendingBodyBytesRemaining = c.pendingBodyBytesRemaining

/-- The steps of the machine as its place in the input sees them: the bytes that are read, the
decisions that are taken and the headers that are popped on the way. -/
inductive Advance :
    Point → ClientConnection → Bytes → List Decision → List Bytes → Point → ClientConnection → Prop
  | idle {p p' c c'} (hp : p.isParsing = false) (hp' : p'.isParsing = false)
    (h : SamePlace c c') :
    Advance p c [] [] [] p' c'
  | recv {c} (data : Bytes) :
    Advance .reading c data [] [] .received { c with inputBuffer := c.inputBuffer.append data }
  | pop {caller c} (headerEnd : Nat) (he : c.inputBuffer.findHeaderEnd = some headerEnd) :
    Advance (.headers caller) c [] [] [c.inputBuffer.storage.take (headerEnd + 4)]
      (.parsing caller (c.inputBuffer.storage.take (headerEnd + 4)))
      { c with inputBuffer := ⟨c.inputBuffer.storage.drop (headerEnd + 4)⟩ }
  | request {caller header owed c} (r : HttpRequest) (keepAlive : Bool)
    (hr : parseRequestHeader header = .ok r) (hs : oversized r = false)
    (hb : expectsBody r = false) :
    Advance (.parsing caller header) c [] [.answer r] [] (.answering (.headers caller) owed)
      (c.respond keepAlive)
  | beginBody {caller header c} (r : HttpRequest) (hr : parseRequestHeader header = .ok r)
    (hs : oversized r = false) :
    Advance (.parsing caller header) c [] [] [] (.bodyBegun caller) (rearm .kBody (c.beginBody r))
  | bodyPart {p back c} (hp : bodyBack p = some back) (hw : c.waitingForRequestBody = true)
    (h : 0 < (takeBody c).pendingBodyBytesRemaining) :
    Advance p c [] [] [] back (takeBody c)
  | bodyDone {p back owed c} (keepAlive : Bool) (hp : bodyBack p = some back)
    (hw : c.waitingForRequestBody = true)
    (h : (takeBody c).pendingBodyBytesRemaining = 0) :
    Advance p c [] [.answer c.pendingRequest] [] (.answering back owed)
      ((takeBody c).finishBody.respond keepAlive)

variable {fd : Fd} {id : Nat} {p p' : Point} {c c' : ClientConnection} {H : List Event}
  {events : List Event} {N nodes : List TimerEntry}

theorem received_cons (e : Event) (H : List Event) :
    received (e :: H) = bytesRead e ++ received H := List.flatMap_cons

theorem received_responseWrites (fd : Fd) (life : Nat) (data : Bytes) (script : List WriteResult) :
    received (responseWrites fd life data script) = [] :=
  flatMap_responseWrites (fun _ _ _ _ _ => rfl) ..

theorem decisions_responseWrites (fd : Fd) (life : Nat) (data : Bytes)
    (script : List WriteResult) : decisions (responseWrites fd life data script) = [] :=
  flatMap_responseWrites (fun _ _ _ _ _ => rfl) ..

theorem poppedHeaders_responseWrites (fd : Fd) (life : Nat) (data : Bytes)
    (script : List WriteResult) : poppedHeaders (responseWrites fd life data script) = [] :=
  flatMap_responseWrites (fun _ _ _ _ _ => rfl) ..

/-- A step that neither reads, nor decides, nor takes anything. -/
theorem Advance.of_idle (hp : p.isParsing = false) (hp' : p'.isParsing = false)
    (hr : received events = []) (hd : decisions events = []) (hh : poppedHeaders events = [])
    (h : SamePlace c c') :
    Advance p c (received events) (decisions events) (poppedHeaders events) p' c' := by
  rw [hr, hd, hh]
  exact .idle hp hp' h

theorem Step.advance (hret : p.Returns) (h : Step fd H p c events nodes p' c') :
    Advance p c (received events) (decisions events) (poppedHeaders events) p' c' := by
  cases h
  case recv data inflight hd hlen hok =>
    have hdata : received [.read c (.got data),
        .reserved (some c) .inputAppend data.length inflight] = data := List.append_nil data
    rw [hdata]
    exact .recv data
  case pop headerEnd he => exact .pop headerEnd he
  case request r hp hs hb => exact .request r _ hp hs hb
  case beginBody r now hp hs hb => exact .beginBody r hp hs
  case bodyPart hw h hp => exact .bodyPart hp hw h
  case bodyDone hp hw h => exact .bodyDone _ hp hw h
  case flushed =>
    exact .of_idle rfl rfl (received_responseWrites ..) (decisions_responseWrites ..)
      (poppedHeaders_responseWrites ..) ⟨rfl, rfl, rfl, rfl⟩
  case flushBlocked =>
    exact .of_idle rfl (hret.isParsing _ [] (.inl rfl)) (received_responseWrites ..)
      (decisions_responseWrites ..) (poppedHeaders_responseWrites ..) ⟨rfl, rfl, rfl, rfl⟩
  case sendResponse =>
    exact .of_idle rfl rfl (received_responseWrites ..) (decisions_responseWrites ..)
      (poppedHeaders_responseWrites ..) ⟨rfl, rfl, rfl, rfl⟩
  case flushPaused | drainQueued | drainIdle | drainStop =>
    exact .of_idle rfl (hret.isParsing _ [] (.inl rfl)) rfl rfl rfl ⟨rfl, rfl, rfl, rfl⟩
  case appendResponse | sentResponse | storeResponse =>
    exact .of_idle rfl (hret.isParsing _ _ (.inr rfl)) rfl rfl rfl ⟨rfl, rfl, rfl, rfl⟩
  case flushBegin hp hout =>
    rcases hp with rfl | rfl <;> exact .of_idle rfl rfl rfl rfl rfl ⟨rfl, rfl, rfl, rfl⟩
  case settleWaiting | settleIdle | settleHeader | settlePass =>
    rename Caller => caller
    cases caller <;> exact .of_idle rfl rfl rfl rfl rfl ⟨rfl, rfl, rfl, rfl⟩
  all_goals exact .of_idle rfl rfl rfl rfl rfl ⟨rfl, rfl, rfl, rfl⟩

/-! ## The machine against the reference -/

/-- What the reference decides, from where the machine stands, on the bytes in the buffer
and those that are still to come. -/
def ahead (p : Point) (c : ClientConnection) (more : Bytes) : List Decision :=
  match p with
  | .parsing _ header => onHeader reference header (c.inputBuffer.storage ++ more)
  | _ =>
    if c.waitingForRequestBody then
      onBody c.pendingRequest c.pendingBodyBytesRemaining (c.inputBuffer.storage ++ more)
    else reference (c.inputBuffer.storage ++ more)

/-- The decisions taken so far and those ahead are the decisions of the reference. -/
def Framed (p : Point) (c : ClientConnection) (H : List Event) : Prop :=
  ∀ more, reference (received H ++ more) = decisions H ++ ahead p c more

theorem ahead_of_not_parsing (hp : p.isParsing = false) (c : ClientConnection) (more : Bytes) :
    ahead p c more =
      if c.waitingForRequestBody then
        onBody c.pendingRequest c.pendingBodyBytesRemaining (c.inputBuffer.storage ++ more)
      else reference (c.inputBuffer.storage ++ more) := by
  cases p <;> first | rfl | cases hp

theorem contentLength_of_not_expectsBody {r : HttpRequest} (h : expectsBody r = false) :
    r.contentLength = 0 := by
  cases he : r.contentLength? with
  | none => simp [HttpRequest.contentLength, he]
  | some n => simpa [expectsBody, HttpRequest.hasContentLength, he] using h

/-- What is ahead takes in what is read, and gives out what is decided. -/
theorem Advance.ahead_eq {data : Bytes} {taken : List Decision} {popped : List Bytes}
    (hbody : BodyPhase p c) (h : Advance p c data taken popped p' c') (more : Bytes) :
    ahead p c (data ++ more) = taken ++ ahead p' c' more := by
  cases h with
  | idle hp hp' h =>
    rw [ahead_of_not_parsing hp, ahead_of_not_parsing hp', h.inputBuffer, h.waiting, h.request,
      h.remaining]
    rfl
  | recv data => simp [ahead, DynamicBuffer.append]
  | pop headerEnd he =>
    have hw : c.waitingForRequestBody = false := hbody.noBody rfl
    have hlen : headerEnd + 4 ≤ c.inputBuffer.storage.length := find?_crlfcrlf_le he
    rw [ahead_of_not_parsing rfl, if_neg (by simp [hw])]
    rw [List.nil_append, reference_of_some (Search.find?_append he more),
      List.take_append_of_le_length hlen, List.drop_append_of_le_length hlen]
    rfl
  | request r keepAlive hr hs hb =>
    have hw : c.waitingForRequestBody = false := hbody.noBody rfl
    rw [ahead, onHeader_body hr hs, contentLength_of_not_expectsBody hb, onBody_zero]
    simp [ahead, ClientConnection.respond, hw]
  | beginBody r hr hs =>
    rw [ahead, onHeader_body hr hs]
    simp [ahead, rearm, ClientConnection.beginBody]
  | bodyPart hp hw h =>
    obtain ⟨hp, hp'⟩ := bodyBack_isParsing hp
    rw [ahead_of_not_parsing hp, if_pos hw, List.nil_append,
      onBody_drop _ (Nat.min_le_left ..) (Nat.min_le_right ..), ahead_of_not_parsing hp',
      if_pos (show (takeBody c).waitingForRequestBody = true from hw)]
    rfl
  | bodyDone keepAlive hp hw h =>
    rw [ahead_of_not_parsing (bodyBack_isParsing hp).1, if_pos hw, List.nil_append,
      onBody_drop _ (Nat.min_le_left ..) (Nat.min_le_right ..)]
    simp only [takeBody, DynamicBuffer.size] at h
    rw [h, onBody_zero]
    simp [ahead, ClientConnection.respond, ClientConnection.finishBody, takeBody,
      DynamicBuffer.size]

theorem Framed.step (hr : Run fd id p c H N) (hI : Framed p c H)
    (h : Step fd H p c events nodes p' c') : Framed p' c' (H ++ events) := by
  intro more
  rw [received_append, decisions_append, List.append_assoc, List.append_assoc, hI,
    (h.advance hr.returns).ahead_eq hr.bodyPhase]

/-- **Framing.**  Along a run the machine never loses its place in the input. -/
theorem Run.framed (h : Run fd id p c H N) : Framed p c H := by
  refine Run.invariant (I := Framed) (fun _ _ more => ?_) (fun hr hI hs => hI.step hr hs) h
  simp [received, bytesRead, decisions, decisionOf, ahead, rearm]

/-- A live connection has decided a part of what the reference decides. -/
theorem Run.decisions_prefix (h : Run fd id p c H N) :
    decisions H <+: reference (received H) := by
  have := h.framed []
  rw [List.append_nil] at this
  exact ⟨_, this.symm⟩

/-! ## The end of a life -/

theorem received_refusal (c : ClientConnection) (statusCode : Nat) (script : List WriteResult) :
    received (refusal fd c statusCode script) = [] :=
  flatMap_refusal (fun _ _ _ _ _ => rfl) ..

theorem decisions_refusal (c : ClientConnection) (statusCode : Nat) (script : List WriteResult) :
    decisions (refusal fd c statusCode script) =
      if isFramingError statusCode then [.refuse statusCode] else [] :=
  (flatMap_refusal (fun _ _ _ _ _ => rfl) ..).trans (List.append_nil _)

theorem poppedHeaders_refusal (c : ClientConnection) (statusCode : Nat)
    (script : List WriteResult) : poppedHeaders (refusal fd c statusCode script) = [] :=
  flatMap_refusal (fun _ _ _ _ _ => rfl) ..

/-- An end that decides nothing. -/
theorem Framed.end_silent (hI : Framed p c H) (hd : decisions events = []) :
    decisions (H ++ events) <+: reference (received (H ++ events)) := by
  rw [decisions_append, hd, List.append_nil, received_append, hI]
  exact List.prefix_append ..

/-- An end that refuses the header the machine has just parsed. -/
theorem Framed.end_refusal {caller : Caller} {header : Bytes} {statusCode : Nat}
    {script : List WriteResult} (hI : Framed (.parsing caller header) c H)
    (hcode : isFramingError statusCode = true)
    (href : ∀ rest, onHeader reference header rest = [.refuse statusCode]) :
    decisions (H ++ refusal fd c statusCode script) <+:
      reference (received (H ++ refusal fd c statusCode script)) := by
  have hI := hI []
  simp only [ahead, href, List.append_nil] at hI
  rw [decisions_append, decisions_refusal, if_pos hcode, received_append, received_refusal,
    List.append_nil, hI]

theorem Ended.decisions_prefix (h : Ended fd id H) : decisions H <+: reference (received H) := by
  obtain ⟨p, c, H₀, N, events, hr, he, rfl⟩ := h
  have hI := hr.framed
  cases he
  case headerRefused caller header e script hp =>
    apply hI.end_refusal (by cases e <;> rfl)
    intro rest
    simp only [onHeader, hp]
  case bodyRefused caller header r script hp hs =>
    apply hI.end_refusal rfl
    intro rest
    have hlt : kMaxBodyBytes < r.contentLength := by simp_all [oversized]
    simp only [onHeader, hp, if_pos hlt]
  case flushFailed | sendFailed =>
    apply hI.end_silent
    rw [decisions_append, decisions_responseWrites]
    rfl
  case recvRefused | limitExceeded | answerRefused =>
    apply hI.end_silent
    simp only [decisions, List.flatMap_cons, List.flatMap_append]
    have := @decisions_refusal
    simp only [decisions] at this
    simp [this, decisionOf, isFramingError]
  all_goals exact hI.end_silent rfl

end WebServer.Life
