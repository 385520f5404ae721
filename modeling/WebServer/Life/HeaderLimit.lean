import WebServer.Life.Framing

/-!
# The header limit

`CheckHeaderLimit` runs after a read and looks at the first header block in the buffer.
The blocks behind it are popped without another check, so the limit holds of them only as
far as no read leaves a longer one there.
-/

namespace WebServer.Life

open WebServer.Net WebServer.Http WebServer.Core

/-! ## Header blocks -/

/-- The header blocks of an input that is taken apart as the server does it: a header, the
body its `Content-Length` announces, the next header. -/
inductive HeaderBlock : Bytes → Bytes → Prop
  | first {input headerEnd} (he : Search.find? crlfcrlf input = some headerEnd) :
    HeaderBlock input (input.take (headerEnd + 4))
  | behind {input headerEnd header} (r : HttpRequest)
    (he : Search.find? crlfcrlf input = some headerEnd)
    (hr : parseRequestHeader (input.take (headerEnd + 4)) = .ok r) (hs : oversized r = false)
    (hbody : r.contentLength ≤ (input.drop (headerEnd + 4)).length)
    (h : HeaderBlock ((input.drop (headerEnd + 4)).drop r.contentLength) header) :
    HeaderBlock input header

/-- A header block behind the last `remaining` bytes of a body. -/
def BlockBehindBody (remaining : Nat) (input header : Bytes) : Prop :=
  remaining ≤ input.length ∧ HeaderBlock (input.drop remaining) header

/-- A header block behind the request with the header `first`. -/
def BlockBehind (first rest header : Bytes) : Prop :=
  ∃ r, parseRequestHeader first = .ok r ∧ oversized r = false ∧
    BlockBehindBody r.contentLength rest header

variable {input header first rest : Bytes} {headerEnd : Nat}

theorem HeaderBlock.boundary (h : HeaderBlock input header) :
    ∃ headerEnd, Search.find? crlfcrlf input = some headerEnd := by
  cases h with
  | first he => exact ⟨_, he⟩
  | behind r he hr hs hbody h => exact ⟨_, he⟩

theorem headerBlock_iff (he : Search.find? crlfcrlf input = some headerEnd) :
    HeaderBlock input header ↔ header = input.take (headerEnd + 4) ∨
      BlockBehind (input.take (headerEnd + 4)) (input.drop (headerEnd + 4)) header := by
  constructor
  · intro h
    cases h with
    | first he' =>
      cases he.symm.trans he'
      exact .inl rfl
    | behind r he' hr hs hbody h =>
      cases he.symm.trans he'
      exact .inr ⟨r, hr, hs, hbody, h⟩
  · rintro (rfl | ⟨r, hr, hs, hbody, h⟩)
    · exact .first he
    · exact .behind r he hr hs hbody h

theorem HeaderBlock.length_le (h : HeaderBlock input header) : header.length ≤ input.length := by
  induction h with
  | first he => exact List.length_take_le' _ _
  | behind r he hr hs hbody h ih =>
    rw [List.length_drop, List.length_drop] at ih
    omega

theorem blockBehindBody_zero : BlockBehindBody 0 input header ↔ HeaderBlock input header := by
  simp [BlockBehindBody]

theorem BlockBehindBody.length_le {remaining : Nat} (h : BlockBehindBody remaining input header) :
    header.length ≤ input.length := by
  have hlen := h.2.length_le
  rw [List.length_drop] at hlen
  omega

/-- Bytes of a body that are taken from the front. -/
theorem blockBehindBody_drop {remaining k : Nat} (hr : k ≤ remaining) (hi : k ≤ input.length)
    (more : Bytes) : BlockBehindBody remaining (input ++ more) header ↔
      BlockBehindBody (remaining - k) (input.drop k ++ more) header := by
  have hd : (input.drop k ++ more).drop (remaining - k) = (input ++ more).drop remaining := by
    rw [← List.drop_append_of_le_length hi, List.drop_drop]
    congr 1
    omega
  unfold BlockBehindBody
  rw [hd, List.length_append, List.length_append, List.length_drop]
  refine and_congr_left fun _ => ?_
  omega

/-! ## The blocks ahead of the machine -/

/-- The header blocks that are not popped yet, in the buffer and the bytes still to come. -/
def BlockAhead (p : Point) (c : ClientConnection) (more header : Bytes) : Prop :=
  match p with
  | .parsing _ first => BlockBehind first (c.inputBuffer.storage ++ more) header
  | _ =>
    if c.waitingForRequestBody then
      BlockBehindBody c.pendingBodyBytesRemaining (c.inputBuffer.storage ++ more) header
    else HeaderBlock (c.inputBuffer.storage ++ more) header

variable {fd : Fd} {id : Nat} {p p' : Point} {c c' : ClientConnection} {H : List Event}
  {events : List Event} {N nodes : List TimerEntry}

theorem blockAhead_of_not_parsing (hp : p.isParsing = false) (c : ClientConnection)
    (more header : Bytes) : BlockAhead p c more header ↔
      if c.waitingForRequestBody then
        BlockBehindBody c.pendingBodyBytesRemaining (c.inputBuffer.storage ++ more) header
      else HeaderBlock (c.inputBuffer.storage ++ more) header := by
  cases p <;> first | rfl | cases hp

theorem blockBehind_iff {r : HttpRequest} (hr : parseRequestHeader first = .ok r)
    (hs : oversized r = false) :
    BlockBehind first rest header ↔ BlockBehindBody r.contentLength rest header := by
  constructor
  · rintro ⟨r', hr', -, h⟩
    cases hr.symm.trans hr'
    exact h
  · exact fun h => ⟨r, hr, hs, h⟩

/-- A block ahead is popped, or it stays ahead. -/
theorem Advance.blockAhead_iff {data : Bytes} {taken : List Decision} {popped : List Bytes}
    (hbody : BodyPhase p c) (h : Advance p c data taken popped p' c') (more header : Bytes) :
    BlockAhead p c (data ++ more) header ↔ header ∈ popped ∨ BlockAhead p' c' more header := by
  cases h with
  | idle hp hp' h =>
    rw [blockAhead_of_not_parsing hp, blockAhead_of_not_parsing hp', h.inputBuffer, h.waiting,
      h.remaining]
    simp
  | recv data => simp [BlockAhead, DynamicBuffer.append]
  | pop headerEnd he =>
    have hw : c.waitingForRequestBody = false := hbody.noBody rfl
    have hlen : headerEnd + 4 ≤ c.inputBuffer.storage.length := find?_crlfcrlf_le he
    rw [blockAhead_of_not_parsing rfl, if_neg (by simp [hw]), List.nil_append,
      headerBlock_iff (Search.find?_append he more), List.take_append_of_le_length hlen,
      List.drop_append_of_le_length hlen, List.mem_singleton]
    rfl
  | request r keepAlive hr hs hb =>
    have hw : c.waitingForRequestBody = false := hbody.noBody rfl
    rw [BlockAhead, blockBehind_iff hr hs, contentLength_of_not_expectsBody hb,
      blockBehindBody_zero]
    simp [BlockAhead, ClientConnection.respond, hw]
  | beginBody r hr hs =>
    rw [BlockAhead, blockBehind_iff hr hs]
    simp [BlockAhead, rearm, ClientConnection.beginBody]
  | bodyPart hp hw h =>
    obtain ⟨hp, hp'⟩ := bodyBack_isParsing hp
    rw [blockAhead_of_not_parsing hp, if_pos hw, List.nil_append,
      blockBehindBody_drop (Nat.min_le_left ..) (Nat.min_le_right ..),
      blockAhead_of_not_parsing hp',
      if_pos (show (takeBody c).waitingForRequestBody = true from hw)]
    simp [takeBody, DynamicBuffer.size]
  | bodyDone keepAlive hp hw h =>
    rw [blockAhead_of_not_parsing (bodyBack_isParsing hp).1, if_pos hw, List.nil_append,
      blockBehindBody_drop (Nat.min_le_left ..) (Nat.min_le_right ..)]
    simp only [takeBody, DynamicBuffer.size] at h
    rw [h, blockBehindBody_zero]
    simp [BlockAhead, ClientConnection.respond, ClientConnection.finishBody, takeBody,
      DynamicBuffer.size]

/-- The header blocks of the input are those that were popped and those ahead. -/
theorem Run.headerBlock_iff (h : Run fd id p c H N) (more header : Bytes) :
    HeaderBlock (received H ++ more) header ↔
      header ∈ poppedHeaders H ∨ BlockAhead p c more header := by
  refine Run.invariant (I := fun p c H => ∀ more, HeaderBlock (received H ++ more) header ↔
    header ∈ poppedHeaders H ∨ BlockAhead p c more header) (fun _ _ more => ?_) ?_ h more
  · simp [received, bytesRead, poppedHeaders, headerOf, BlockAhead, rearm]
  · intro p p' c c' H N events nodes hr hI hs more
    rw [received_append, List.append_assoc, hI,
      (hs.advance hr.returns).blockAhead_iff hr.bodyPhase, poppedHeaders_append,
      List.mem_append, or_assoc]

/-! ## The checks -/

def checkOf : Event → List ClientConnection
  | .limitChecked c => [c]
  | _ => []

/-- The connection as it was at every `CheckHeaderLimit`. -/
def checks (H : List Event) : List ClientConnection := H.flatMap checkOf

@[simp] theorem checks_append (H H' : List Event) : checks (H ++ H') = checks H ++ checks H' :=
  List.flatMap_append

theorem checks_cons (e : Event) (H : List Event) : checks (e :: H) = checkOf e ++ checks H :=
  List.flatMap_cons

theorem checks_responseWrites (fd : Fd) (life : Nat) (data : Bytes) (script : List WriteResult) :
    checks (responseWrites fd life data script) = [] :=
  flatMap_responseWrites (fun _ _ _ _ _ => rfl) ..

/-- The header blocks that stand behind the first one in the buffer are within the limit. -/
def RestWithinLimit (c : ClientConnection) : Prop :=
  ∀ headerEnd header, c.inputBuffer.findHeaderEnd = some headerEnd →
    BlockBehind (c.inputBuffer.storage.take (headerEnd + 4))
      (c.inputBuffer.storage.drop (headerEnd + 4)) header → header.length ≤ kMaxHeaderBytes

/-- A buffer that holds little beyond the limit has no long block behind its first one. -/
theorem restWithinLimit_of_size (h : c.inputBuffer.size ≤ kMaxHeaderBytes + 4) :
    RestWithinLimit c := by
  rintro headerEnd header - ⟨r, -, -, hbehind⟩
  have hlen := hbehind.length_le
  rw [List.length_drop] at hlen
  unfold DynamicBuffer.size at h
  omega

/-- A connection that goes on has passed its check. -/
theorem Step.checks_eq (h : Step fd H p c events nodes p' c') :
    checks events = [] ∨
      checks events = [c] ∧ c.inputBuffer.headerExceedsLimit kMaxHeaderBytes = false := by
  cases h
  case limitOk hw h => exact .inr ⟨rfl, h⟩
  case flushed | flushBlocked | sendResponse => exact .inl (checks_responseWrites ..)
  all_goals exact .inl rfl

theorem Run.checks_passed (h : Run fd id p c H N) :
    ∀ d ∈ checks H, d.inputBuffer.headerExceedsLimit kMaxHeaderBytes = false := by
  refine Run.invariant (I := fun _ _ H => ∀ d ∈ checks H,
    d.inputBuffer.headerExceedsLimit kMaxHeaderBytes = false)
      (fun _ _ _ hd => absurd hd List.not_mem_nil) ?_ h
  intro p p' c c' H N events nodes hr hI hs d hd
  rw [checks_append, List.mem_append] at hd
  rcases hd with hd | hd
  · exact hI d hd
  · rcases hs.checks_eq with hnone | ⟨hcheck, hpassed⟩
    · rw [hnone] at hd
      cases hd
    · rw [hcheck] at hd
      obtain rfl := List.mem_singleton.mp hd
      exact hpassed

/-! ## What is within the limit -/

/-- All header blocks that were received are within the limit, unless `ReadFromClient` has yet
to look at the newest bytes. -/
def WithinLimit (p : Point) (c : ClientConnection) (H : List Event) : Prop :=
  (∀ header, HeaderBlock (received H) header → header.length ≤ kMaxHeaderBytes) ∨
    p = .received ∧ (∀ header ∈ poppedHeaders H, header.length ≤ kMaxHeaderBytes) ∧
      (c.waitingForRequestBody = true → c.inputBuffer.size ≤ kReadChunkSize)

/-- The blocks behind a body whose bytes are all from one read. -/
theorem withinLimit_of_chunk {remaining : Nat} (hsize : c.inputBuffer.size ≤ kReadChunkSize)
    (h : BlockBehindBody remaining c.inputBuffer.storage header) :
    header.length ≤ kMaxHeaderBytes := by
  have hlen : header.length ≤ c.inputBuffer.size := h.length_le
  have hchunk : kReadChunkSize ≤ kMaxHeaderBytes := by decide
  omega

/-- The blocks in a buffer that passes its check. -/
theorem withinLimit_of_check (hrest : RestWithinLimit c)
    (hpassed : c.inputBuffer.headerExceedsLimit kMaxHeaderBytes = false)
    (h : HeaderBlock c.inputBuffer.storage header) : header.length ≤ kMaxHeaderBytes := by
  obtain ⟨headerEnd, he⟩ := h.boundary
  rcases (headerBlock_iff he).mp h with rfl | hbehind
  · have hlimit : headerEnd + 4 ≤ kMaxHeaderBytes := by
      simpa [DynamicBuffer.headerExceedsLimit, DynamicBuffer.findHeaderEnd, he] using hpassed
    exact (List.length_take_le ..).trans hlimit
  · exact hrest headerEnd header he hbehind

theorem WithinLimit.step (hr : Run fd id p c H N) (hI : WithinLimit p c H)
    (h : Step fd H p c events nodes p' c') (hrest : ∀ d ∈ checks events, RestWithinLimit d) :
    WithinLimit p' c' (H ++ events) := by
  have hblocks (header : Bytes) := hr.headerBlock_iff [] header
  simp only [List.append_nil] at hblocks
  unfold WithinLimit
  rw [received_append, poppedHeaders_append]
  rcases hI with hall | ⟨rfl, hpopped, hsize⟩
  · cases h
    case recv data inflight hd hlen hok =>
      refine .inr ⟨rfl, fun header hmem => ?_, fun hw => ?_⟩
      · have hmem : header ∈ poppedHeaders H ++ [] := hmem
        rw [List.append_nil] at hmem
        exact hall header ((hblocks header).mpr (.inl hmem))
      · -- a connection that waits for a body had an empty buffer before the read
        obtain ⟨hempty, -⟩ := (hr.bodyPhase.consumed hw).resolve_left nofun
        simpa [DynamicBuffer.size, hempty] using hlen
    case flushed | flushBlocked | sendResponse =>
      rw [received_responseWrites, List.append_nil]
      exact .inl hall
    all_goals exact .inl ((List.append_nil (received H)).symm ▸ hall)
  · have hwaiting (hw : c.waitingForRequestBody = true) (header : Bytes)
        (hheader : HeaderBlock (received H) header) : header.length ≤ kMaxHeaderBytes := by
      rcases (hblocks header).mp hheader with hmem | hahead
      · exact hpopped header hmem
      · rw [blockAhead_of_not_parsing rfl, if_pos hw, List.append_nil] at hahead
        exact withinLimit_of_chunk (hsize hw) hahead
    left
    cases h
    case limitOk hw h =>
      intro header hheader
      rcases (hblocks header).mp (List.append_nil (received H) ▸ hheader) with hmem | hahead
      · exact hpopped header hmem
      · rw [blockAhead_of_not_parsing rfl, if_neg (by simp [hw]), List.append_nil] at hahead
        exact withinLimit_of_check (hrest c List.mem_cons_self) h hahead
    case bodyPart hw h hp => exact (List.append_nil (received H)).symm ▸ hwaiting hw
    case bodyDone back hp hw h => exact (List.append_nil (received H)).symm ▸ hwaiting hw
    case flushBegin hp hout => rcases hp with hp | hp <;> cases hp

theorem Run.withinLimit (h : Run fd id p c H N) (hrest : ∀ d ∈ checks H, RestWithinLimit d) :
    WithinLimit p c H := by
  refine Run.invariant (I := fun p c H => (∀ d ∈ checks H, RestWithinLimit d) → WithinLimit p c H)
    (fun _ _ _ => .inl fun header hheader => ?_) ?_ h hrest
  · exact (Nat.le_zero.mp hheader.length_le).trans_le (Nat.zero_le _)
  · intro p p' c c' H N events nodes hr hI hs hrest
    rw [checks_append] at hrest
    exact (hI fun d hd => hrest d (List.mem_append_left _ hd)).step hr hs
      fun d hd => hrest d (List.mem_append_right _ hd)

theorem Run.poppedHeaders_withinLimit (h : Run fd id p c H N)
    (hrest : ∀ d ∈ checks H, RestWithinLimit d) :
    ∀ header ∈ poppedHeaders H, header.length ≤ kMaxHeaderBytes := by
  rcases h.withinLimit hrest with hall | ⟨-, hpopped, -⟩
  · intro header hmem
    have hblock := (h.headerBlock_iff [] header).mpr (.inl hmem)
    rw [List.append_nil] at hblock
    exact hall header hblock
  · exact hpopped

/-! ## The end of a life -/

/-- The history ends with an error response of this status code and the close. -/
def AnsweredAndClosed (statusCode : Nat) (H : List Event) : Prop :=
  ∃ fd c H₀ script, H = H₀ ++ refusal fd c statusCode script

/-- The history ends with a read that does not fit into the memory budget. -/
def ReadRefused (H : List Event) : Prop :=
  ∃ fd c H₀ data inflight script, overBudget inflight data.length = true ∧
    H = H₀ ++ ([.read c (.got data), .reserved (some c) .inputAppend data.length inflight] ++
      refusal fd c 503 script)

theorem checks_refusal (c : ClientConnection) (statusCode : Nat) (script : List WriteResult) :
    checks (refusal fd c statusCode script) = [] :=
  flatMap_refusal (fun _ _ _ _ _ => rfl) ..

theorem End.poppedHeaders_eq (h : End fd p c events) : poppedHeaders events = [] := by
  cases h
  case flushFailed | sendFailed =>
    rw [poppedHeaders_append, poppedHeaders_responseWrites]
    rfl
  case recvRefused =>
    rw [poppedHeaders_append, poppedHeaders_refusal]
    rfl
  case limitExceeded | answerRefused =>
    rw [poppedHeaders_cons, poppedHeaders_refusal]
    rfl
  case headerRefused | bodyRefused => exact poppedHeaders_refusal ..
  all_goals rfl

/-- An end that reads and checks nothing, or one of the two that do. -/
theorem End.checks_cases (h : End fd p c events) :
    p ≠ .received ∧ received events = [] ∧ checks events = [] ∨
      checks events = [] ∧ ReadRefused (H ++ events) ∨
      ∃ script, events = .limitChecked c :: refusal fd c 431 script := by
  cases h
  case flushFailed | sendFailed =>
    refine .inl ⟨nofun, ?_, ?_⟩
    · rw [received_append, received_responseWrites]
      rfl
    · rw [checks_append, checks_responseWrites]
      rfl
  case headerRefused | bodyRefused => exact .inl ⟨nofun, received_refusal .., checks_refusal ..⟩
  case answerRefused =>
    refine .inl ⟨nofun, ?_, ?_⟩
    · rw [received_cons, received_refusal]
      rfl
    · rw [checks_cons, checks_refusal]
      rfl
  case recvRefused data inflight script hd hover =>
    refine .inr (.inl ⟨?_, fd, c, H, data, inflight, script, hover, rfl⟩)
    rw [checks_append, checks_refusal]
    rfl
  case limitExceeded script hw h => exact .inr (.inr ⟨script, rfl⟩)
  all_goals exact .inl ⟨nofun, rfl, rfl⟩

theorem Ended.withinLimit (h : Ended fd id H) (hrest : ∀ d ∈ checks H, RestWithinLimit d) :
    (∀ header ∈ poppedHeaders H, header.length ≤ kMaxHeaderBytes) ∧
      ∀ header, HeaderBlock (received H) header → kMaxHeaderBytes < header.length →
        AnsweredAndClosed 431 H ∨ ReadRefused H := by
  obtain ⟨p, c, H₀, N, events, hr, he, rfl⟩ := h
  have hrest₀ : ∀ d ∈ checks H₀, RestWithinLimit d := fun d hd =>
    hrest d (by rw [checks_append]; exact List.mem_append_left _ hd)
  constructor
  · rw [poppedHeaders_append, he.poppedHeaders_eq, List.append_nil]
    exact hr.poppedHeaders_withinLimit hrest₀
  · intro header hheader hlong
    rcases he.checks_cases (H := H₀) with ⟨hp, hreceived, -⟩ | ⟨-, hrefused⟩ | ⟨script, rfl⟩
    · rw [received_append, hreceived, List.append_nil] at hheader
      rcases hr.withinLimit hrest₀ with hall | ⟨hp', -⟩
      · exact absurd (hall header hheader) (Nat.not_le.mpr hlong)
      · exact absurd hp' hp
    · exact .inr hrefused
    · exact .inl ⟨fd, c, H₀ ++ [.limitChecked c], script, by simp⟩

/-- A check that is not passed is the last thing before the `431`. -/
theorem Ended.check_failed (h : Ended fd id H) {d : ClientConnection} (hd : d ∈ checks H)
    (hover : d.inputBuffer.headerExceedsLimit kMaxHeaderBytes = true) :
    ∃ H₀ script, H = H₀ ++ .limitChecked d :: refusal fd d 431 script := by
  obtain ⟨p, c, H₀, N, events, hr, he, rfl⟩ := h
  rw [checks_append, List.mem_append] at hd
  have hno : d ∉ checks H₀ := fun hd => by simp [hr.checks_passed d hd] at hover
  replace hd := hd.resolve_left hno
  rcases he.checks_cases (H := H₀) with ⟨-, -, hnone⟩ | ⟨hnone, -⟩ | ⟨script, rfl⟩
  · rw [hnone] at hd
    cases hd
  · rw [hnone] at hd
    cases hd
  · rw [checks_cons, checks_refusal] at hd
    obtain rfl := List.mem_singleton.mp hd
    exact ⟨H₀, script, rfl⟩

end WebServer.Life
