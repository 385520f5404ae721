import WebServer.Life.Attention
import WebServer.Life.PromisedClose
import WebServer.Life.Timers
import WebServer.Refine.Reachable

/-!
# Nobody waits for ever

At the end of an iteration of the event loop every connection should be in line:
for the ReadyQueue, for `EPOLLOUT`, or for a timer.  `ReadFromClient` breaks this
when it finishes a body itself, since nothing then does what the end of
`ProcessBufferedHeaders` does.
-/

namespace WebServer.Properties

open WebServer.Net WebServer.Http WebServer.Core WebServer.Life WebServer.Refine

variable {fd : Fd} {c : ClientConnection} {s : Server}

theorem mem_readyQueue_iff (hrest : AtRest s) (hf : s.find fd = some c) :
    fd ∈ s.readyQueue ↔ c.inReadyQueue = true := by
  rw [(hrest fd).queued fd, hf]
  simp

/-! ## Buffered requests -/

/-- A complete header in the buffer has a place in line. -/
def InLine (s : Server) (fd : Fd) (c : ClientConnection) : Prop :=
  c.inputBuffer.hasCompleteHeader = true → c.waitingForRequestBody = false →
    fd ∈ s.readyQueue ∨ c.outputBuffer ≠ []

theorem inLine_iff (hrest : AtRest s) (hf : s.find fd = some c) (H : List Event) :
    InLine s fd c ↔ Attended .rest c H := by
  show InLine s fd c ↔ Served c ∨ c.inReadyQueue = true
  rw [InLine, mem_readyQueue_iff hrest hf, Served]
  cases c.inputBuffer.hasCompleteHeader <;> cases c.waitingForRequestBody <;> simp [or_comm]

/-- **No buffered request is stranded** on a connection on which no `read()` brought a request
behind the end of a body and left it to a `read()` that found nothing. -/
theorem inLine_of_never (hs : AtLoopEnd s) (hf : s.find fd = some c)
    (hclean : Never strandsRequest (history c.connectionId s.trace)) : InLine s fd c := by
  have hattended := (run_of_reachable hs.reachable hf).attended hclean
  exact (inLine_iff (atRest_of_reachable hs.reachable) hf _).mpr hattended

/-- The end of a body arrives in one `read()` with the next request. -/
def requestBehindBody : SampleRun fun s => (s.find 5).isSome = true ∧
    (connectionAt s 5).inputBuffer.hasCompleteHeader = true ∧
    (connectionAt s 5).waitingForRequestBody = false ∧
    5 ∉ s.readyQueue ∧ (connectionAt s 5).outputBuffer = [] where
  iterations :=
    [accepting 3 5 0,
      reading 5 1 [.got (ascii "POST / HTTP/1.1\r\nContent-Length: 5\r\n\r\n")] [],
      reading 5 2 [.got (ascii "helloGET / HTTP/1.1\r\n\r\n")] [.wrote 1000]]
  holds := by decide +kernel

/-- The request stays in the buffer, and nothing will come back to it. -/
theorem not_inLine_requestBehindBody :
    ¬ ∀ s, AtLoopEnd s → ∀ fd c, s.find fd = some c → InLine s fd c := by
  intro h
  obtain ⟨hopen, hheader, hw, hqueue, hout⟩ := requestBehindBody.holds_final
  have hline : InLine _ 5 _ := h _ requestBehindBody.atLoopEnd 5 _ (find_connectionAt hopen)
  rcases hline hheader hw with hqueued | hpending
  · exact hqueue hqueued
  · exact hpending hout

/-- Six requests in one `read()`, one more than a round processes. -/
def sixRequests : SampleRun fun s => (s.find 5).isSome = true ∧
    (connectionAt s 5).inputBuffer.hasCompleteHeader = true ∧
    Never strandsRequest (history (connectionAt s 5).connectionId s.trace) where
  iterations :=
    [accepting 3 5 0,
      reading 5 1 [.got ((List.replicate 6 (ascii "GET / HTTP/1.1\r\n\r\n")).flatten)]
        (List.replicate 6 (.wrote 1000))]
  holds := by decide +kernel

/-- The sixth request waits in the ReadyQueue. -/
theorem inLine_sixRequests :
    (connectionAt sixRequests.final 5).inputBuffer.hasCompleteHeader = true ∧
      InLine sixRequests.final 5 (connectionAt sixRequests.final 5) := by
  obtain ⟨hopen, hheader, hclean⟩ := sixRequests.holds_final
  exact ⟨hheader, inLine_of_never sixRequests.atLoopEnd (find_connectionAt hopen) hclean⟩

/-! ## Timers -/

/-- A connection with nothing to send and no place in the ReadyQueue is under a timer whose
node is in the heap. -/
def UnderTimer (s : Server) (fd : Fd) (c : ClientConnection) : Prop :=
  c.outputBuffer = [] → fd ∉ s.readyQueue → ∃ kind, (c.timeout kind).armed = true ∧
    ∃ n ∈ s.timerHeap, n.fd = fd ∧ n.connectionId = c.connectionId ∧ n.kind = kind ∧
      n.generation = (c.timeout kind).generation

/-- **Every waiting connection is under a timeout**, unless a turn that left its timers unarmed
was followed by a `read()` that found nothing. -/
theorem underTimer_of_never (hs : AtLoopEnd s) (hf : s.find fd = some c)
    (hclean : Never leftUnwatched (history c.connectionId s.trace)) : UnderTimer s fd c := by
  intro hout hqueue
  rw [mem_readyQueue_iff (atRest_of_reachable hs.reachable) hf] at hqueue
  have hrun := run_of_reachable hs.reachable hf
  have hcovered : Covered c := (hrun.watched hclean rfl).resolve_right fun h => hqueue h.1
  obtain ⟨kind, harmed⟩ : ∃ kind, (c.timeout kind).armed = true := by
    rcases hcovered with hw | hout' | hheader | hidle
    · exact ⟨.kBody, hrun.bodyPhase.timer.trans hw⟩
    · exact absurd hout hout'
    · exact ⟨.kHeader, hheader⟩
    · exact ⟨.kIdleKeepAlive, hidle⟩
  obtain ⟨n, hn, rfl, hcur⟩ := hrun.timersInOrder.armed kind harmed
  obtain ⟨hfd, hid⟩ := hrun.timersInOrder.owner n hn
  exact ⟨n.kind, harmed, n, (List.mem_filter.mp hn).1, hfd, hid, rfl, hcur.2.symm⟩

/-- A body arrives in a later `read()` than its header. -/
def bodyBehindHeader : SampleRun fun s => (s.find 5).isSome = true ∧
    (connectionAt s 5).outputBuffer = [] ∧ 5 ∉ s.readyQueue ∧
    ((connectionAt s 5).timeout .kHeader).armed = false ∧
    ((connectionAt s 5).timeout .kBody).armed = false ∧
    ((connectionAt s 5).timeout .kIdleKeepAlive).armed = false where
  iterations :=
    [accepting 3 5 0,
      reading 5 1 [.got (ascii "POST / HTTP/1.1\r\nContent-Length: 5\r\n\r\n")] [],
      reading 5 2 [.got (ascii "hello")] [.wrote 1000]]
  holds := by decide +kernel

/-- The keep-alive connection is left without any timer. -/
theorem not_underTimer_bodyBehindHeader :
    ¬ ∀ s, AtLoopEnd s → ∀ fd c, s.find fd = some c → UnderTimer s fd c := by
  intro h
  obtain ⟨hopen, hout, hqueue, hheader, hbody, hidle⟩ := bodyBehindHeader.holds_final
  have htimer : UnderTimer _ 5 _ := h _ bodyBehindHeader.atLoopEnd 5 _ (find_connectionAt hopen)
  obtain ⟨kind, harmed, -⟩ := htimer hout hqueue
  cases kind with
  | kHeader => simp [hheader] at harmed
  | kBody => simp [hbody] at harmed
  | kIdleKeepAlive => simp [hidle] at harmed

/-- A body that arrives together with its header. -/
def bodyWithHeader : SampleRun fun s => (s.find 5).isSome = true ∧
    Never leftUnwatched (history (connectionAt s 5).connectionId s.trace) where
  iterations :=
    [accepting 3 5 0,
      reading 5 1 [.got (ascii "POST / HTTP/1.1\r\nContent-Length: 5\r\n\r\nhello")]
        [.wrote 1000]]
  holds := by decide +kernel

theorem underTimer_bodyWithHeader :
    UnderTimer bodyWithHeader.final 5 (connectionAt bodyWithHeader.final 5) := by
  obtain ⟨hopen, hclean⟩ := bodyWithHeader.holds_final
  exact underTimer_of_never bodyWithHeader.atLoopEnd (find_connectionAt hopen) hclean

/-! ## Promised closes -/

/-- A connection that promised to close has something left to send or a place in line. -/
def PromiseKept (s : Server) (fd : Fd) (c : ClientConnection) : Prop :=
  c.closeAfterWrite = true → c.outputBuffer ≠ [] ∨ fd ∈ s.readyQueue

/-- **A promised close happens**, unless a turn that left the timers unarmed was followed by a
`read()` that found nothing, or the connection was made to wait for the body of a further
request. -/
theorem promiseKept_of_never (hs : AtLoopEnd s) (hf : s.find fd = some c)
    (hclean : Never leftOpen (history c.connectionId s.trace))
    (hbody : ∀ e ∈ history c.connectionId s.trace, awaitsBody e = false) : PromiseKept s fd c := by
  intro hclose
  rw [mem_readyQueue_iff (atRest_of_reachable hs.reachable) hf]
  have hpending : c.outputBuffer ≠ [] ∨ c.waitingForRequestBody = false ∧ c.inReadyQueue = true ∧
      _ := (run_of_reachable hs.reachable hf).kept hclean hbody hclose
  exact hpending.imp_right fun h => h.2.1

/-- The body of an `HTTP/1.0` request arrives in a later `read()` than its header. -/
def oldBodyBehindHeader : SampleRun fun s => (s.find 5).isSome = true ∧
    (connectionAt s 5).closeAfterWrite = true ∧ (connectionAt s 5).outputBuffer = [] ∧
    5 ∉ s.readyQueue where
  iterations :=
    [accepting 3 5 0,
      reading 5 1 [.got (ascii "POST / HTTP/1.0\r\nContent-Length: 5\r\n\r\n")] [],
      reading 5 2 [.got (ascii "hello")] [.wrote 1000]]
  holds := by decide +kernel

/-- The response has been sent, and the connection stays open. -/
theorem not_promiseKept_oldBodyBehindHeader :
    ¬ ∀ s, AtLoopEnd s → ∀ fd c, s.find fd = some c → PromiseKept s fd c := by
  intro h
  obtain ⟨hopen, hclose, hout, hqueue⟩ := oldBodyBehindHeader.holds_final
  have hkept : PromiseKept _ 5 _ := h _ oldBodyBehindHeader.atLoopEnd 5 _ (find_connectionAt hopen)
  rcases hkept hclose with hpending | hqueued
  · exact hpending hout
  · exact hqueue hqueued

/-- An `HTTP/1.0` request whose response the socket takes only in part. -/
def oldRequestPaused : SampleRun fun s => (s.find 5).isSome = true ∧
    (connectionAt s 5).closeAfterWrite = true ∧
    Never leftOpen (history (connectionAt s 5).connectionId s.trace) ∧
    ∀ e ∈ history (connectionAt s 5).connectionId s.trace, awaitsBody e = false where
  iterations :=
    [accepting 3 5 0, reading 5 1 [.got (ascii "GET / HTTP/1.0\r\n\r\n")] [.wrote 10]]
  holds := by decide +kernel

theorem promiseKept_oldRequestPaused :
    (connectionAt oldRequestPaused.final 5).closeAfterWrite = true ∧
      PromiseKept oldRequestPaused.final 5 (connectionAt oldRequestPaused.final 5) := by
  obtain ⟨hopen, hclose, hclean, hbody⟩ := oldRequestPaused.holds_final
  exact ⟨hclose,
    promiseKept_of_never oldRequestPaused.atLoopEnd (find_connectionAt hopen) hclean hbody⟩

end WebServer.Properties
