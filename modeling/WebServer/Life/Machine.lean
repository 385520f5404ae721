import WebServer.Core.Input
import WebServer.Life.History

/-!
# The life of one connection

An abstract machine for a single connection: the points of the code at which a
handler can stand while it works on it, and the steps between them.  The machine
sees neither other connections nor budgets; what the kernel answers is left open.
`Refine/` proves that the server runs one copy of it per connection.
-/

namespace WebServer.Life

open WebServer.Net WebServer.Http WebServer.Core

/-! ## Points -/

/-- Who called `ProcessBufferedHeaders`. -/
inductive Caller
  | readFromClient
  | continueReady
  deriving DecidableEq, Repr

inductive Point
  /-- No handler works on the connection, or one that has not touched it yet. -/
  | rest
  /-- `ContinueReadyConnection`, before the header loop. -/
  | resumed
  /-- `ContinueReadyConnection`, after the header loop. -/
  | continued
  /-- The loop of `FlushClientOutput`. -/
  | flushing (back : Point)
  /-- The loop of `ReadFromClient`. -/
  | reading
  /-- `ReadFromClient` has put new bytes into the buffer. -/
  | received
  /-- The loop of `ProcessBufferedHeaders`. -/
  | headers (caller : Caller)
  | parsing (caller : Caller) (header : Bytes)
  /-- `BeginRequestBodyReceive` has armed the body timer. -/
  | bodyBegun (caller : Caller)
  /-- `ProcessBufferedHeaders` after its loop. -/
  | settling (caller : Caller)
  /-- `StartOkResponse` still has these bytes of the response to send or to buffer. -/
  | answering (back : Point) (owed : Bytes)
  deriving DecidableEq, Repr

/-- Where a `ProcessBufferedHeaders` that returns `true` goes on. -/
def Caller.back : Caller → Point
  | .readFromClient => .reading
  | .continueReady => .continued

theorem Caller.back_ne_answering (caller : Caller) (back : Point) (owed : Bytes) :
    caller.back ≠ .answering back owed := by
  cases caller <;> simp [Caller.back]

/-- Where `ConsumePendingRequestBody` goes on, at the points that call it. -/
def bodyBack : Point → Option Point
  | .received => some .reading
  | .bodyBegun caller => some (.settling caller)
  | .resumed => some .resumed
  | _ => none

theorem bodyBack_ne_answering {p p' : Point} (h : bodyBack p = some p') (back : Point)
    (owed : Bytes) : p' ≠ .answering back owed := by
  intro e
  subst e
  cases p <;> cases h

/-! ## What steps do to the connection -/

/-- `Arm*Timeout` on the connection alone: which timers each kind disarms first. -/
def rearm : TimerKind → ClientConnection → ClientConnection
  | .kHeader, c => c.disarmIdleKeepAliveTimeout.arm .kHeader
  | .kBody, c => (c.disarmHeaderTimeout.disarmBodyTimeout.disarmIdleKeepAliveTimeout).arm .kBody
  | .kIdleKeepAlive, c => c.disarmHeaderTimeout.arm .kIdleKeepAlive

/-- The node that arming pushes for the connection as it is afterwards. -/
def timerNode (kind : TimerKind) (deadline : Time) (fd : Fd) (c : ClientConnection) : TimerEntry :=
  { deadline, fd, connectionId := c.connectionId, kind, generation := (c.timeout kind).generation }

def keepAlive (c : ClientConnection) (request : HttpRequest) : Bool :=
  shouldKeepAlive request && !c.closeAfterWrite

/-- The connection with the available bytes of the pending body taken. -/
def takeBody (c : ClientConnection) : ClientConnection :=
  let available := min c.pendingBodyBytesRemaining c.inputBuffer.size
  { c with
    inputBuffer := ⟨c.inputBuffer.storage.drop available⟩
    pendingBodyBytesRemaining := c.pendingBodyBytesRemaining - available }

/-- The refusal of a reservation. -/
def overBudget (inflight addBytes : Nat) : Bool :=
  kMaxInflightBytes < inflight || kMaxInflightBytes - inflight < addBytes

def oversized (request : HttpRequest) : Bool :=
  request.hasContentLength && kMaxBodyBytes < request.contentLength

def expectsBody (request : HttpRequest) : Bool :=
  request.hasContentLength && 0 < request.contentLength

/-- The response `StartOkResponse` sends. -/
def okResponse (keepAlive : Bool) : Bytes := buildSimpleOkResponse kStaticOkBody keepAlive

/-! ## Steps -/

/-- One step from a point and a connection to the next, with the events it leaves in the
history `H` and the nodes it pushes on the timer heap. -/
inductive Step (fd : Fd) (H : List Event) :
    Point → ClientConnection → List Event → List TimerEntry → Point → ClientConnection → Prop
  -- `HandleClientEvent` and `ContinueReadyConnection`
  | resume {c} (hq : c.inReadyQueue = true) :
    Step fd H .rest c [] [] .resumed { c with inReadyQueue := false }
  | idleToHeader {c} (now : Time) (hout : c.outputBuffer = []) (hidle : c.idleArmed = true) :
    Step fd H .rest c [.armed c.connectionId .kHeader now (now + kHeaderTimeout)]
      [timerNode .kHeader (now + kHeaderTimeout) fd (rearm .kHeader c)] .rest (rearm .kHeader c)
  | beginRead {c} (hout : c.outputBuffer = []) (hidle : c.idleArmed = false) :
    Step fd H .rest c [] [] .reading c
  | pause {c} (h : c.outputBuffer ≠ [] ∨ c.waitingForRequestBody = true) :
    Step fd H .resumed c [] [] .rest c
  | resumeHeaders {c} (hout : c.outputBuffer = []) (hw : c.waitingForRequestBody = false)
    (hh : c.inputBuffer.hasCompleteHeader = true) :
    Step fd H .resumed c [] [] (.headers .continueReady) c
  | resumeNothing {c} (hout : c.outputBuffer = []) (hw : c.waitingForRequestBody = false)
    (hh : c.inputBuffer.hasCompleteHeader = false) :
    Step fd H .resumed c [] [] .continued c
  | continueDone {c} (h : c.outputBuffer ≠ [] ∨ c.readyForRead = false) :
    Step fd H .continued c [] [] .rest c
  | continueRead {c} (hout : c.outputBuffer = []) (hr : c.readyForRead = true) :
    Step fd H .continued c [] [] .reading { c with readyForRead := false }
  -- `FlushClientOutput`
  | flushBegin {p c} (hp : p = .rest ∨ p = .resumed) (hout : c.outputBuffer ≠ []) :
    Step fd H p c [] [] (.flushing p) c
  | flushed {p c} (attempt n : Nat) (script : List WriteResult)
    (hw : (writeSomeNonBlocking (c.outputBuffer.take attempt) script).2.2 = .ok (n + 1)) :
    Step fd H (.flushing p) c
      (responseWrites fd c.connectionId (c.outputBuffer.take attempt) script) []
      (.flushing p) { c with outputBuffer := c.outputBuffer.drop (n + 1) }
  | flushBlocked {p c} (attempt : Nat) (script : List WriteResult) (hout : c.outputBuffer ≠ [])
    (hw : (writeSomeNonBlocking (c.outputBuffer.take attempt) script).2.2 = .ok 0) :
    Step fd H (.flushing p) c
      (responseWrites fd c.connectionId (c.outputBuffer.take attempt) script) [] p c
  | flushPaused {p c} (hout : c.outputBuffer ≠ []) : Step fd H (.flushing p) c [] [] p c
  | drainQueued {p c} (hout : c.outputBuffer = [])
    (h : c.inputBuffer.hasCompleteHeader = true ∨ c.readyForRead = true) :
    Step fd H (.flushing p) c [.drained c] [] p { c with inReadyQueue := true }
  | drainIdle {p c} (now : Time) (hout : c.outputBuffer = [])
    (hh : c.inputBuffer.hasCompleteHeader = false) (hr : c.readyForRead = false)
    (hcl : c.closeAfterWrite = false) (hka : c.keepAliveEnabled = true) :
    Step fd H (.flushing p) c
      [.drained c, .armed c.connectionId .kIdleKeepAlive now (now + kIdleKeepAliveTimeout)]
      [timerNode .kIdleKeepAlive (now + kIdleKeepAliveTimeout) fd (rearm .kIdleKeepAlive c)]
      p (rearm .kIdleKeepAlive c)
  | drainStop {p c} (hout : c.outputBuffer = [])
    (hh : c.inputBuffer.hasCompleteHeader = false) (hr : c.readyForRead = false)
    (hcl : c.closeAfterWrite = false) (hka : c.keepAliveEnabled = false) :
    Step fd H (.flushing p) c [.drained c] [] p c
  -- `ReadFromClient`
  | readAgain {c} : Step fd H .reading c [.read c (.failed .eintr)] [] .reading c
  | readNothing {c} : Step fd H .reading c [.read c (.failed .eagain)] [] .rest c
  | readExhausted {c} (h : kMaxReadBytesPerEvent ≤ (received H).length) :
    Step fd H .reading c [] [] .rest { c with readyForRead := true, inReadyQueue := true }
  | recv {c} (data : Bytes) (inflight : Nat) (hd : data ≠ []) (hlen : data.length ≤ kReadChunkSize)
    (hok : overBudget inflight data.length = false) :
    Step fd H .reading c
      [.read c (.got data), .reserved (some c) .inputAppend data.length inflight] []
      .received { c with inputBuffer := c.inputBuffer.append data }
  | limitOk {c} (hw : c.waitingForRequestBody = false)
    (h : c.inputBuffer.headerExceedsLimit kMaxHeaderBytes = false) :
    Step fd H .received c [.limitChecked c] [] (.headers .readFromClient) c
  -- `ConsumePendingRequestBody`
  | bodyPart {p back c} (hp : bodyBack p = some back) (hw : c.waitingForRequestBody = true)
    (h : 0 < (takeBody c).pendingBodyBytesRemaining) :
    Step fd H p c [] [] back (takeBody c)
  | bodyDone {p back c} (hp : bodyBack p = some back) (hw : c.waitingForRequestBody = true)
    (h : (takeBody c).pendingBodyBytesRemaining = 0) :
    Step fd H p c
      [.dispatched (takeBody c).finishBody c.pendingRequest (keepAlive c c.pendingRequest)] []
      (.answering back (okResponse (keepAlive c c.pendingRequest)))
      ((takeBody c).finishBody.respond (keepAlive c c.pendingRequest))
  -- `ProcessBufferedHeaders`
  | pop {caller c} (headerEnd : Nat) (he : c.inputBuffer.findHeaderEnd = some headerEnd) :
    Step fd H (.headers caller) c
      [.popped c (c.inputBuffer.storage.take (headerEnd + 4))] []
      (.parsing caller (c.inputBuffer.storage.take (headerEnd + 4)))
      { c with inputBuffer := ⟨c.inputBuffer.storage.drop (headerEnd + 4)⟩ }
  | loopEnd {caller c} : Step fd H (.headers caller) c [] [] (.settling caller) c
  | request {caller header c} (r : HttpRequest) (hr : parseRequestHeader header = .ok r)
    (hs : oversized r = false) (hb : expectsBody r = false) :
    Step fd H (.parsing caller header) c [.dispatched c r (keepAlive c r)] []
      (.answering (.headers caller) (okResponse (keepAlive c r))) (c.respond (keepAlive c r))
  | beginBody {caller header c} (r : HttpRequest) (now : Time)
    (hr : parseRequestHeader header = .ok r)
    (hs : oversized r = false) (hb : expectsBody r = true) :
    Step fd H (.parsing caller header) c
      [.bodyBegun c r, .armed c.connectionId .kBody now
        (calculateBodyReceiveDeadline now r.contentLength)]
      [timerNode .kBody (calculateBodyReceiveDeadline now r.contentLength) fd
        (rearm .kBody (c.beginBody r))]
      (.bodyBegun caller) (rearm .kBody (c.beginBody r))
  | settleWaiting {caller c} (hw : c.waitingForRequestBody = true) :
    Step fd H (.settling caller) c [.settled c] [] caller.back c
  | settleQueued {caller c} (hw : c.waitingForRequestBody = false)
    (hh : c.inputBuffer.hasCompleteHeader = true) :
    Step fd H (.settling caller) c [.settled c] [] .rest { c with inReadyQueue := true }
  | settleIdle {caller c} (now : Time) (hw : c.waitingForRequestBody = false)
    (hin : c.inputBuffer.storage = []) (hout : c.outputBuffer = [])
    (hcl : c.closeAfterWrite = false) (hr : c.readyForRead = false) :
    Step fd H (.settling caller) c
      [.settled c, .armed c.connectionId .kIdleKeepAlive now (now + kIdleKeepAliveTimeout)]
      [timerNode .kIdleKeepAlive (now + kIdleKeepAliveTimeout) fd (rearm .kIdleKeepAlive c)]
      caller.back (rearm .kIdleKeepAlive c)
  | settleHeader {caller c} (now : Time) (hw : c.waitingForRequestBody = false)
    (hh : c.inputBuffer.hasCompleteHeader = false)
    (hin : c.inputBuffer.storage ≠ []) (hout : c.outputBuffer = [])
    (hcl : c.closeAfterWrite = false) (hr : c.readyForRead = false) :
    Step fd H (.settling caller) c
      [.settled c, .armed c.connectionId .kHeader now (now + kHeaderTimeout)]
      [timerNode .kHeader (now + kHeaderTimeout) fd (rearm .kHeader c)]
      caller.back (rearm .kHeader c)
  | settlePass {caller c} (hw : c.waitingForRequestBody = false)
    (hh : c.inputBuffer.hasCompleteHeader = false)
    (h : c.outputBuffer ≠ [] ∨ c.readyForRead = true) :
    Step fd H (.settling caller) c [.settled c] [] caller.back c
  -- `StartOkResponse`
  | appendResponse {back owed c} (inflight : Nat) (hout : c.outputBuffer ≠ [])
    (hok : overBudget inflight owed.length = false) :
    Step fd H (.answering back owed) c [.reserved (some c) .outputAppend owed.length inflight] []
      back { c with outputBuffer := c.outputBuffer ++ owed }
  | sendResponse {back owed c} (attempt n : Nat) (script : List WriteResult)
    (hout : c.outputBuffer = [])
    (hw : (writeSomeNonBlocking (owed.take attempt) script).2.2 = .ok n) :
    Step fd H (.answering back owed) c
      (responseWrites fd c.connectionId (owed.take attempt) script) []
      (.answering back (owed.drop n)) c
  | sentResponse {back c} : Step fd H (.answering back []) c [] [] back c
  | storeResponse {back owed c} (inflight : Nat) (hout : c.outputBuffer = []) (howed : owed ≠ [])
    (hok : overBudget inflight owed.length = false) :
    Step fd H (.answering back owed) c [.reserved (some c) .outputReplace owed.length inflight] []
      back { c with outputBuffer := owed }

/-! ## Ends -/

/-- The events of `SendErrorResponseAndClose`. -/
def refusal (fd : Fd) (c : ClientConnection) (statusCode : Nat) (script : List WriteResult) :
    List Event :=
  .rejected c statusCode :: (errorWrites fd c.connectionId (errorResponse statusCode) script ++
    [.closed c (.errorResponse statusCode)])

/-- The ways a connection is closed, with the last events of its history. -/
inductive End (fd : Fd) : Point → ClientConnection → List Event → Prop
  | hangup {c} : End fd .rest c [.closed c .peerHangup]
  | timedOut {c} (kind : TimerKind) (h : (c.timeout kind).armed = true) :
    End fd .rest c [.closed (c.disarm kind) (.timedOut kind)]
  | connectionLimit {c} : End fd .rest c [.closed c .connectionLimit]
  | drained {p c} (hout : c.outputBuffer = []) :
    End fd (.flushing p) c [.drained c, .closed c .responseFullySent]
  | flushFailed {p c} (attempt : Nat) (script : List WriteResult) (errno : Errno)
    (hw : (writeSomeNonBlocking (c.outputBuffer.take attempt) script).2.2 = .error errno) :
    End fd (.flushing p) c
      (responseWrites fd c.connectionId (c.outputBuffer.take attempt) script ++
        [.closed c .writeFailed])
  | peerClosed {c} : End fd .reading c [.read c (.got []), .closed c .peerClosed]
  | readFailed {c} (errno : Errno) (h₁ : errno ≠ .eagain) (h₂ : errno ≠ .eintr) :
    End fd .reading c [.read c (.failed errno), .closed c .readFailed]
  | recvRefused {c} (data : Bytes) (inflight : Nat) (script : List WriteResult) (hd : data ≠ [])
    (hover : overBudget inflight data.length = true) :
    End fd .reading c
      ([.read c (.got data), .reserved (some c) .inputAppend data.length inflight] ++
        refusal fd c 503 script)
  | limitExceeded {c} (script : List WriteResult) (hw : c.waitingForRequestBody = false)
    (h : c.inputBuffer.headerExceedsLimit kMaxHeaderBytes = true) :
    End fd .received c (.limitChecked c :: refusal fd c 431 script)
  | headerRefused {caller header c} (e : ParseError) (script : List WriteResult)
    (hr : parseRequestHeader header = .error e) :
    End fd (.parsing caller header) c (refusal fd c (ParseError.statusCode e) script)
  | bodyRefused {caller header c} (r : HttpRequest) (script : List WriteResult)
    (hr : parseRequestHeader header = .ok r) (hs : oversized r = true) :
    End fd (.parsing caller header) c (refusal fd c 413 script)
  | allHandled {caller c} (hw : c.waitingForRequestBody = false) (hout : c.outputBuffer = [])
    (hcl : c.closeAfterWrite = true) :
    End fd (.settling caller) c [.settled c, .closed c .allHandled]
  | answerRefused {back owed c} (growth : Growth) (inflight : Nat) (script : List WriteResult)
    (hg : growth = if c.outputBuffer = [] then .outputReplace else .outputAppend)
    (howed : owed ≠ []) (hover : overBudget inflight owed.length = true) :
    End fd (.answering back owed) c
      (.reserved (some c) growth owed.length inflight :: refusal fd c 503 script)
  | sendFailed {back owed c} (attempt : Nat) (script : List WriteResult) (errno : Errno)
    (hout : c.outputBuffer = [])
    (hw : (writeSomeNonBlocking (owed.take attempt) script).2.2 = .error errno) :
    End fd (.answering back owed) c
      (responseWrites fd c.connectionId (owed.take attempt) script ++ [.closed c .writeFailed])

/-! ## Runs -/

/-- `current c n`: the node `n` carries the generation of an armed timer of `c`. -/
def current (c : ClientConnection) (n : TimerEntry) : Prop :=
  (c.timeout n.kind).armed = true ∧ (c.timeout n.kind).generation = n.generation

/-- A run of the machine for the connection `id` on `fd`, from the `accept4()` on: where it
stands, its history and its nodes in the timer heap. -/
inductive Run (fd : Fd) (id : Nat) :
    Point → ClientConnection → List Event → List TimerEntry → Prop
  | accept (peerEndpoint : Bytes) (now : Time) {c : ClientConnection}
    (hc : c = rearm .kHeader { socket := some fd, peerEndpoint, connectionId := id }) :
    Run fd id .rest c [.armed id .kHeader now (now + kHeaderTimeout)]
      [timerNode .kHeader (now + kHeaderTimeout) fd c]
  | step {p p' c c' H N events nodes} (h : Run fd id p c H N)
    (hs : Step fd H p c events nodes p' c') : Run fd id p' c' (H ++ events) (N ++ nodes)
  /-- A node that is not current is popped from the heap. -/
  | drop {p c H N n} (h : Run fd id p c H N) (hn : ¬ current c n) : Run fd id p c H (N.erase n)

/-- A whole life: a run and its end. -/
def Ended (fd : Fd) (id : Nat) (H : List Event) : Prop :=
  ∃ p c H₀ N events, Run fd id p c H₀ N ∧ End fd p c events ∧ H = H₀ ++ events

/-! ## What every step keeps -/

variable {fd : Fd} {id : Nat} {p p' : Point} {c c' : ClientConnection} {H : List Event}
  {events : List Event} {N nodes : List TimerEntry}

@[simp] theorem rearm_connectionId (kind : TimerKind) (c : ClientConnection) :
    (rearm kind c).connectionId = c.connectionId := by cases kind <;> rfl

@[simp] theorem rearm_closing (kind : TimerKind) (c : ClientConnection) :
    (rearm kind c).closing = c.closing := by cases kind <;> rfl

theorem Step.connectionId (h : Step fd H p c events nodes p' c') :
    c'.connectionId = c.connectionId := by
  cases h <;> rfl

theorem Step.closing (h : Step fd H p c events nodes p' c') : c'.closing = c.closing := by
  cases h <;> rfl

/-- All events of a step are about its connection. -/
theorem Step.lives (h : Step fd H p c events nodes p' c') :
    ∀ e ∈ events, life? e = some c.connectionId := by
  cases h
  case flushed | flushBlocked | sendResponse => exact fun e he => life?_responseWrites he
  case bodyDone => exact fun e he => List.mem_singleton.mp he ▸ rfl
  all_goals simp [life?]

/-- All nodes of a step are for its connection. -/
theorem Step.pushed (h : Step fd H p c events nodes p' c') :
    ∀ n ∈ nodes, n.connectionId = c.connectionId ∧ n.fd = fd := by
  cases h
  case idleToHeader | drainIdle | beginBody | settleIdle | settleHeader =>
    intro n hn
    obtain rfl := List.mem_singleton.mp hn
    exact ⟨rearm_connectionId .., rfl⟩
  all_goals
    intro n hn
    exact absurd hn List.not_mem_nil

theorem lives_refusal {fd : Fd} {c : ClientConnection} {statusCode : Nat}
    {script : List WriteResult} :
    ∀ e ∈ refusal fd c statusCode script, life? e = some c.connectionId := by
  intro e he
  simp only [refusal, List.mem_cons, List.mem_append, List.not_mem_nil, or_false] at he
  rcases he with rfl | he | rfl
  · rfl
  · exact life?_errorWrites he
  · rfl

/-- What a projection that looks at no `write()` sees of a refusal. -/
theorem flatMap_refusal {β : Type} {g : Event → List β}
    (hg : ∀ w fd life data answer, g (.write w fd life data answer) = [])
    (c : ClientConnection) (statusCode : Nat) (script : List WriteResult) :
    (refusal fd c statusCode script).flatMap g =
      g (.rejected c statusCode) ++ g (.closed c (.errorResponse statusCode)) := by
  rw [refusal, List.flatMap_cons, List.flatMap_append, flatMap_errorWrites hg, List.nil_append,
    List.flatMap_singleton]

theorem End.lives (h : End fd p c events) : ∀ e ∈ events, life? e = some c.connectionId := by
  cases h
  case flushFailed | sendFailed =>
    intro e he
    rcases List.mem_append.mp he with he | he
    · exact life?_responseWrites he
    · obtain rfl := List.mem_singleton.mp he
      rfl
  case headerRefused | bodyRefused => exact lives_refusal
  case recvRefused =>
    intro e he
    rcases List.mem_append.mp he with he | he
    · simp only [List.mem_cons, List.not_mem_nil, or_false] at he
      rcases he with rfl | rfl <;> rfl
    · exact lives_refusal e he
  case limitExceeded | answerRefused =>
    intro e he
    rcases List.mem_cons.mp he with rfl | he
    · rfl
    · exact lives_refusal e he
  all_goals simp [life?]

theorem Run.closing (h : Run fd id p c H N) : c.closing = false := by
  induction h with
  | accept peerEndpoint now hc => subst hc; rfl
  | step _ hs ih => exact hs.closing.trans ih
  | drop _ _ ih => exact ih

/-- **Invariant rule.**  What holds at the `accept4()`, survives every step and does not
look at the timer heap holds all along a run. -/
theorem Run.invariant {I : Point → ClientConnection → List Event → Prop}
    (h0 : ∀ peerEndpoint now, I .rest
      (rearm .kHeader { socket := some fd, peerEndpoint, connectionId := id })
      [.armed id .kHeader now (now + kHeaderTimeout)])
    (hstep : ∀ {p p' c c' H N events nodes}, Run fd id p c H N → I p c H →
      Step fd H p c events nodes p' c' → I p' c' (H ++ events))
    (h : Run fd id p c H N) : I p c H := by
  induction h with
  | accept peerEndpoint now hc => subst hc; exact h0 peerEndpoint now
  | step hr hs ih => exact hstep hr ih hs
  | drop _ _ ih => exact ih

/-- The points a flush or an answer can return to. -/
def Point.Returns : Point → Prop
  | .flushing back => back = .rest ∨ back = .resumed
  | .answering back _ => back = .reading ∨ back = .resumed ∨
      ∃ caller, back = .headers caller ∨ back = .settling caller
  | _ => True

theorem Point.returns_of_bodyBack {back : Point} {owed : Bytes} (h : bodyBack p = some back) :
    (Point.answering back owed).Returns := by
  cases p <;> cases h
  · exact .inr (.inl rfl)
  · exact .inl rfl
  · exact .inr (.inr ⟨_, .inr rfl⟩)

theorem Point.Returns.trivial_back (h : p.Returns) : ∀ back owed,
    p = .flushing back ∨ p = .answering back owed → back.Returns := by
  rintro back owed (rfl | rfl)
  · rcases h with rfl | rfl <;> trivial
  · rcases h with rfl | rfl | ⟨caller, rfl | rfl⟩ <;> trivial

/-- Nothing is answered in the middle of a flush or of another answer. -/
theorem Point.Returns.not_answering (h : p.Returns) : ∀ back owed,
    p = .flushing back ∨ p = .answering back owed → ∀ back' owed', back ≠ .answering back' owed' := by
  rintro back owed (rfl | rfl)
  · rcases h with rfl | rfl <;> exact nofun
  · rcases h with rfl | rfl | ⟨caller, rfl | rfl⟩ <;> exact nofun

theorem Step.returns (hp : p.Returns) (h : Step fd H p c events nodes p' c') : p'.Returns := by
  cases h
  case flushBegin hp hout => exact hp
  case flushBlocked | flushPaused | drainQueued | drainIdle | drainStop =>
    exact hp.trivial_back _ [] (.inl rfl)
  case appendResponse | sentResponse | storeResponse => exact hp.trivial_back _ _ (.inr rfl)
  case bodyPart hw h hp =>
    cases p <;> cases hp <;> trivial
  case bodyDone hp hw h => exact Point.returns_of_bodyBack hp
  case request => exact .inr (.inr ⟨_, .inl rfl⟩)
  case settleWaiting | settleIdle | settleHeader | settlePass =>
    rename Caller => caller
    cases caller <;> trivial
  all_goals trivial

theorem Run.returns (h : Run fd id p c H N) : p.Returns :=
  h.invariant (I := fun p _ _ => p.Returns) (fun _ _ => trivial) fun _ hp hs => hs.returns hp

def Point.isParsing : Point → Bool
  | .parsing .. => true
  | _ => false

theorem bodyBack_isParsing {back : Point} (h : bodyBack p = some back) :
    p.isParsing = false ∧ back.isParsing = false := by
  cases p <;> cases h <;> exact ⟨rfl, rfl⟩

theorem Point.Returns.isParsing (h : p.Returns) : ∀ back owed,
    p = .flushing back ∨ p = .answering back owed → back.isParsing = false := by
  rintro back owed (rfl | rfl)
  · rcases h with rfl | rfl <;> rfl
  · rcases h with rfl | rfl | ⟨caller, rfl | rfl⟩ <;> rfl

end WebServer.Life
