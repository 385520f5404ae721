import WebServer.Kernel.Counting
import WebServer.Kernel.Effects
import WebServer.Lib.TimedSteps

/-!
# What the server can do in one step

`Primitive` lists everything a handler call can do to the server at one moment of the clock.
Every call is a chain of primitives, so what each of them keeps holds all along a run.
-/

namespace WebServer.Kernel

open WebServer.Net WebServer.Http WebServer.Core WebServer.Life WebServer.Refine LiberalPre
  TimedSteps

variable {fd : Fd} {c : ClientConnection} {peerEndpoint : Bytes} {events : List Event}
  {t t' : Time} {s s' s'' : Server} {budget : EventBudget} {io : Io} {r r' : Round}

/-! ## Primitives -/

/-- No total goes down, and what is current stays. -/
structure Counts (m m' : Metrics) : Prop where
  grow : ∀ k, counter k m ≤ counter k m'
  conns : m'.connsCurrent = m.connsCurrent
  inflight : m'.globalInflightBytesCurrent = m.globalInflightBytesCurrent

/-- Events that are no system call, no arming, no refusal and no end of a connection. -/
def isInner : Event → Bool
  | .limitChecked _ | .popped .. | .bodyBegun .. | .settled _ | .reserved .. | .released ..
  | .dispatched .. | .drained _ => true
  | _ => false

/-- The socket `fd` has been accepted and not yet been registered. -/
structure Accepted (fd : Fd) (peerEndpoint : Bytes) (writes : List Event) (s s' : Server) :
    Prop where
  free : s.find fd = none
  notListening : fd ≠ s.listenFd
  apart : s' = { s with
    trace := s.trace ++ .accepted fd peerEndpoint :: writes
    metrics := s'.metrics
    ipBucketLru := s'.ipBucketLru
    nextLruAddress := s'.nextLruAddress
    ipTokenBuckets := s'.ipTokenBuckets }
  counts : Counts s.metrics s'.metrics
  writes : Writes fd writes

/-- What the server can do at time `t`. -/
inductive Primitive (t : Time) : Server → Server → Prop
  | put {s : Server} {fd : Fd} {c : ClientConnection} (c' : ClientConnection)
      (hf : s.find fd = some c) (hsocket : c'.socket = c.socket)
      (hclosing : c'.closing = c.closing) : Primitive t s (s.put fd c')
  | note {s : Server} (e : Event) (he : isInner e = true) : Primitive t s (s.log [e])
  | read {s : Server} {fd : Fd} {c : ClientConnection} (answer : ReadResult)
      (hf : s.find fd = some c) : Primitive t s (s.log [.read c answer])
  | write {s : Server} {fd : Fd} {c : ClientConnection} {events : List Event}
      (hf : s.find fd = some c) (hwrites : Writes fd events) : Primitive t s (s.log events)
  | count {s : Server} (m : Metrics) (n : Nat) (hm : Counts s.metrics m) :
      Primitive t s { s with metrics := m, connRejectTotal := n }
  /-- A refusal is counted at once. -/
  | refuse {s : Server} (c : ClientConnection) (statusCode : Nat) :
      Primitive t s (recordErrorMetric (recordRejectMetric statusCode (s.log [.rejected c statusCode])))
  | inflight {s : Server} (n : Nat) : Primitive t s (setInflight n s)
  | arm {s : Server} {fd : Fd} {c : ClientConnection} (c' : ClientConnection) (kind : TimerKind)
      (deadline : Time) (hf : s.find fd = some c) (hsocket : c'.socket = c.socket)
      (hclosing : c'.closing = c.closing) (hmin : t + kHeaderTimeout ≤ deadline)
      (hmax : deadline ≤ t + kBodyTimeout) : Primitive t s (pushTimer kind t deadline fd c' s)
  | queue {s : Server} (queue : List Fd) : Primitive t s { s with readyQueue := queue }
  | mask {s : Server} {fd : Fd} {c : ClientConnection} (events : EpollEvents)
      (hf : s.find fd = some c) :
      Primitive t s { s.log [.epollCtl .mod fd events] with poller := s.poller.insert fd events }
  | close {s : Server} {fd : Fd} {c : ClientConnection} (reason : CloseReason)
      (hf : s.find fd = some c) (hcl : c.closing = false) :
      Primitive t s (closeClientConnection fd reason s)
  | turnAway {s s' : Server} {fd : Fd} {peerEndpoint : Bytes} {writes : List Event}
      (h : Accepted fd peerEndpoint writes s s') : Primitive t s (s'.log [.closedFd fd])
  | enroll {s s' : Server} {fd : Fd} {peerEndpoint : Bytes}
      (h : Accepted fd peerEndpoint [] s s') : Primitive t s (enrolled fd peerEndpoint s')
  | expire {s : Server} (timer : TimerEntry) :
      Primitive t s { s with timerHeap := s.timerHeap.erase timer }
  | retire {s : Server} : Primitive t s (flushPendingCloseQueue s)

/-- From `s` at time `t` to `s'` at time `t'`. -/
abbrev Evolves : Time → Server → Time → Server → Prop := Chain Primitive

/-- What the round has come to. -/
def From (t : Time) (s : Server) (r : Round) : Prop := Evolves t s r.io.now r.server

/-! ## Closing -/

/-- What `CloseClientConnection` asks of the kernel. -/
def socketEvents (fd : Fd) : Option Fd → List Event
  | none => []
  | some own => [.epollCtl .del fd {}, .closedFd own]

/-- `CloseClientConnection` of a registered connection, field by field. -/
theorem closeClientConnection_eq (hf : s.find fd = some c) (hcl : c.closing = false)
    (reason : CloseReason) :
    closeClientConnection fd reason s = { s with
      activeConnectionCount := s.activeConnectionCount - 1
      readyQueue := s.readyQueue.filter (· ≠ fd)
      poller := if c.socket.isSome then s.poller.erase fd else s.poller
      globalInflightBytes := s.globalInflightBytes - Server.buffered c
      metrics := { s.metrics with
        connsCurrent := s.activeConnectionCount - 1
        globalInflightBytesCurrent := s.globalInflightBytes - Server.buffered c }
      clients := s.clients.erase fd
      pendingCloseQueue := s.pendingCloseQueue ++ [c.retired]
      trace := s.trace ++ (socketEvents fd c.socket ++
        [.released (Server.buffered c) s.globalInflightBytes, .closed c reason]) } := by
  unfold closeClientConnection
  rw [hf]
  dsimp only
  rw [if_neg (by simp [hcl]), releaseInflightBytes_eq]
  cases c.socket with
  | none => simp [releaseSocket, socketEvents, setInflight, setActiveConnectionCount, Server.log]
  | some own => simp [releaseSocket, socketEvents, setInflight, setActiveConnectionCount, Server.log]

/-! ## Bookkeeping -/

theorem Counts.refl (m : Metrics) : Counts m m := ⟨fun _ => Nat.le_refl _, rfl, rfl⟩

theorem Counts.trans {m m' m'' : Metrics} (h : Counts m m') (h' : Counts m' m'') :
    Counts m m'' :=
  ⟨fun k => (h.grow k).trans (h'.grow k), h'.conns.trans h.conns, h'.inflight.trans h.inflight⟩

theorem Counts.recordRejectMetric (statusCode : Nat) (s : Server) :
    Counts s.metrics (recordRejectMetric statusCode s).metrics := by
  unfold Core.recordRejectMetric
  dsimp only
  split <;> exact ⟨fun k => by cases k <;> simp [counter], rfl, rfl⟩

theorem Counts.recordErrorMetric (s : Server) :
    Counts s.metrics (recordErrorMetric s).metrics :=
  ⟨fun k => by cases k <;> simp [counter, Core.recordErrorMetric], rfl, rfl⟩

theorem Counts.refuse (c : ClientConnection) (statusCode : Nat) (s : Server) :
    Counts s.metrics (Core.recordErrorMetric
      (Core.recordRejectMetric statusCode (s.log [.rejected c statusCode]))).metrics :=
  (Counts.recordRejectMetric statusCode (s.log [.rejected c statusCode])).trans
    (.recordErrorMetric _)

theorem Counts.countRequest (s : Server) : Counts s.metrics (countRequest s).metrics :=
  ⟨fun k => by cases k <;> simp [counter, Core.countRequest], rfl, rfl⟩

theorem Counts.countAccept (s : Server) : Counts s.metrics (countAccept s).metrics :=
  ⟨fun k => by cases k <;> simp [counter, Core.countAccept], rfl, rfl⟩

namespace From

theorem recordErrorMetric (h : From t s ⟨s', budget, io⟩) :
    From t s ⟨recordErrorMetric s', budget, io⟩ :=
  h.step (.count _ _ (.recordErrorMetric s'))

theorem update (h : From t s ⟨s', budget, io⟩) (fd : Fd) (f : ClientConnection → ClientConnection)
    (hsocket : ∀ c, (f c).socket = c.socket) (hclosing : ∀ c, (f c).closing = c.closing) :
    From t s ⟨s'.update fd f, budget, io⟩ := by
  unfold Server.update
  cases hf : s'.find fd with
  | none => exact h
  | some c => exact h.step (.put _ hf (hsocket c) (hclosing c))

theorem growInflight (h : From t s ⟨s', budget, io⟩) (n : Nat) :
    From t s ⟨growInflight n s', budget, io⟩ := h.step (.inflight _)

theorem releaseInflightBytes (h : From t s ⟨s', budget, io⟩) (n : Nat) :
    From t s ⟨releaseInflightBytes n s', budget, io⟩ := by
  have hnoted : From t s ⟨s'.log [.released n s'.globalInflightBytes], budget, io⟩ :=
    h.step (.note _ rfl)
  unfold Core.releaseInflightBytes
  dsimp only
  split
  · exact hnoted.step (.inflight _)
  · exact hnoted.step (.inflight _)

theorem armHeaderTimeout (h : From t s ⟨s', budget, io⟩) (fd : Fd) :
    From t s ⟨armHeaderTimeout fd io.now s', budget, io⟩ := by
  obtain e | ⟨c, hf, e⟩ := armHeaderTimeout_cases fd io.now s'
  · rwa [e]
  · rw [e]
    refine h.step (.arm _ _ _ hf rfl rfl (Nat.le_refl _) ?_)
    exact Nat.add_le_add_left (by decide) _

theorem armIdleKeepAliveTimeout (h : From t s ⟨s', budget, io⟩) (fd : Fd) :
    From t s ⟨armIdleKeepAliveTimeout fd io.now s', budget, io⟩ := by
  obtain e | ⟨c, hf, e⟩ := armIdleKeepAliveTimeout_cases fd io.now s'
  · rwa [e]
  · rw [e]
    refine h.step (.arm _ _ _ hf rfl rfl ?_ ?_)
    · exact Nat.add_le_add_left (by decide) _
    · exact Nat.add_le_add_left (by decide) _

/-- A body has between 30 and 120 seconds. -/
theorem bodyDeadline_bounds (now : Time) (contentLength : Nat) :
    now + kHeaderTimeout ≤ calculateBodyReceiveDeadline now contentLength ∧
      calculateBodyReceiveDeadline now contentLength ≤ now + kBodyTimeout := by
  unfold calculateBodyReceiveDeadline
  refine ⟨Nat.le_min.mpr ⟨Nat.add_le_add_left ?_ _, Nat.add_le_add_left (by decide) _⟩,
    Nat.min_le_right ..⟩
  have hleast : 30 * 65536 ≤ min (120 * 65536) (max (30 * 65536) contentLength) :=
    Nat.le_min.mpr ⟨by decide, Nat.le_max_left ..⟩
  generalize min (120 * 65536) (max (30 * 65536) contentLength) = rounded at hleast ⊢
  show (10000000000 : Nat) ≤ _
  omega

theorem armBodyTimeout (h : From t s ⟨s', budget, io⟩) (fd : Fd) (contentLength : Nat) :
    From t s ⟨armBodyTimeout fd io.now contentLength s', budget, io⟩ := by
  obtain e | ⟨c, hf, e⟩ := armBodyTimeout_cases fd io.now contentLength s'
  · rwa [e]
  · obtain ⟨hmin, hmax⟩ := bodyDeadline_bounds io.now contentLength
    rw [e]
    exact h.step (.arm _ _ _ hf rfl rfl hmin hmax)

theorem enqueueReadyConnection (h : From t s ⟨s', budget, io⟩) (fd : Fd) :
    From t s ⟨enqueueReadyConnection fd s', budget, io⟩ := by
  obtain e | ⟨c, hf, e⟩ := enqueueReadyConnection_cases fd s'
  · rwa [e]
  · rw [e]
    have hmarked : From t s ⟨s'.put fd { c with inReadyQueue := true }, budget, io⟩ :=
      h.step (.put _ hf rfl rfl)
    exact hmarked.step (.queue _)

theorem updateClientPollMask (h : From t s ⟨s', budget, io⟩) (fd : Fd) :
    From t s ⟨updateClientPollMask fd s', budget, io⟩ := by
  unfold Core.updateClientPollMask
  cases hf : s'.find fd with
  | none => exact h
  | some c =>
    dsimp only
    split
    · exact h
    · exact h.step (.mask _ hf)

theorem closeClientConnection (h : From t s ⟨s', budget, io⟩) (fd : Fd) (reason : CloseReason) :
    From t s ⟨closeClientConnection fd reason s', budget, io⟩ := by
  cases hf : s'.find fd with
  | none =>
    rw [Core.closeClientConnection, hf]
    exact h
  | some c =>
    cases hcl : c.closing with
    | true =>
      rw [Core.closeClientConnection, hf]
      dsimp only
      rwa [if_pos hcl]
    | false => exact h.step (.close reason hf hcl)

end From

/-! ## Responses -/

/-- Writing takes no time that the server sees. -/
theorem wlp_writeErrorResponse_now {Q : Bool → Round → Prop} {life : Option Nat} {data : Bytes}
    (h : ∀ ok events io, io.now = r.io.now → Writes fd events →
      Q ok { r with server := r.server.log events, io := io }) :
    wlp (writeErrorResponse fd life data) Q r := by
  rintro _ _ ⟨⟩
  refine h _ _ _ rfl fun e he => ?_
  obtain ⟨answer, -, rfl⟩ := List.mem_map.mp he
  exact ⟨_, _, _, _, rfl⟩

theorem wlp_writeResponse_now {Q : Except Errno Nat → Round → Prop} {life : Nat} {data : Bytes}
    (h : ∀ outcome events io, io.now = r.io.now → Writes fd events →
      Q outcome { r with server := r.server.log events, io := io }) :
    wlp (writeResponse fd life data) Q r := by
  rintro _ _ ⟨⟩
  refine h _ _ _ rfl fun e he => ?_
  obtain ⟨answer, -, rfl⟩ := List.mem_map.mp he
  exact ⟨_, _, _, _, rfl⟩

theorem From.write (h : From t s r) (hf : r.server.find fd = some c) (hnow : io.now = r.io.now)
    (hwrites : Writes fd events) :
    From t s { r with server := r.server.log events, io := io } := by
  have hwritten : Evolves t s r.io.now (r.server.log events) := h.step (.write hf hwrites)
  unfold From
  rwa [hnow]

theorem sendErrorResponseAndClose_from (h : From t s r) (statusCode : Nat) :
    wlp (sendErrorResponseAndClose fd statusCode) (fun _ => From t s) r := by
  unfold sendErrorResponseAndClose
  simp only [wlp_bind, wlp_findClient]
  cases hf : r.server.find fd with
  | none => exact (wlp_pure ..).mpr h
  | some c =>
    simp only [wlp_bind, wlp_modifyServer]
    let refused : Server :=
      recordErrorMetric (recordRejectMetric statusCode (r.server.log [.rejected c statusCode]))
    have hrefused : From t s { r with server := refused } := h.step (.refuse c statusCode)
    refine wlp_writeErrorResponse_now fun ok events io hnow hwrites => ?_
    exact (hrefused.write (c := c) hf hnow hwrites).closeClientConnection fd _

theorem tryReserveInflightBytes_from (h : From t s r) (growth : Growth) (addBytes : Nat) :
    wlp (tryReserveInflightBytes fd growth addBytes) (fun _ => From t s) r := by
  unfold tryReserveInflightBytes
  simp only [wlp_bind, wlp_ite, wlp_pure, wlp_get, wlp_modifyServer]
  let asked : Event :=
    .reserved (r.server.find fd) growth addBytes r.server.globalInflightBytes
  have hasked : From t s { r with server := r.server.log [asked] } := h.step (.note _ rfl)
  exact ⟨fun _ => h, fun _ => ⟨fun _ => sendErrorResponseAndClose_from hasked 503, fun _ => hasked⟩⟩

theorem appendToOutputBuffer_from (h : From t s r) (data : Bytes) :
    wlp (appendToOutputBuffer fd data) (fun _ => From t s) r := by
  unfold appendToOutputBuffer
  simp only [wlp_bind, wlp_ite, wlp_pure, wlp_modifyServer]
  refine ⟨fun _ => h, fun _ => wlp_mono (tryReserveInflightBytes_from h _ _) fun ok r' h' =>
    ⟨fun _ => h', fun _ => ?_⟩⟩
  apply From.growInflight
  exact h'.update fd _ (fun _ => rfl) fun _ => rfl

theorem replaceOutputBuffer_from (h : From t s r) (connection : ClientConnection) (data : Bytes) :
    wlp (replaceOutputBuffer fd connection data) (fun _ => From t s) r := by
  unfold replaceOutputBuffer
  simp only [wlp_bind, wlp_ite, wlp_pure, wlp_modifyServer, wlp_subSize]
  refine ⟨fun _ _ => wlp_mono (tryReserveInflightBytes_from h _ _) fun ok r' h' =>
    ⟨fun _ => h', fun _ => ?_⟩, fun _ _ => ?_⟩
  · apply From.growInflight
    exact h'.update fd _ (fun _ => rfl) fun _ => rfl
  · apply From.releaseInflightBytes
    exact h.update fd _ (fun _ => rfl) fun _ => rfl

/-- `StartOkResponse` decides about keep-alive before it does anything else. -/
theorem startOkResponse_dispatched {Q : Round → Prop} (request : HttpRequest) (hstay : Q r)
    (hgoOn : ∀ c keepAlive r', r.server.find fd = some c →
      From r.io.now ((r.server.put fd (c.respond keepAlive)).log
        [.dispatched c request keepAlive]) r' → Q r') :
    wlp (startOkResponse fd request) (fun _ => Q) r := by
  unfold startOkResponse
  simp only [wlp_bind, wlp_findClient]
  cases hf : r.server.find fd with
  | none => exact (wlp_pure ..).mpr hstay
  | some c =>
    simp only [wlp_ite, wlp_bind, wlp_pure, wlp_modifyServer, wlp_get]
    refine ⟨fun _ => hstay, fun _ => ?_⟩
    generalize (shouldKeepAlive request && !c.closeAfterWrite) = keepAlive
    let s := (r.server.put fd (c.respond keepAlive)).log [.dispatched c request keepAlive]
    have hdispatched : From r.io.now s { r with server := s } := .refl
    have hf' : s.find fd = some (c.respond keepAlive) := find_put ..
    have hdone (r' : Round) (h' : From r.io.now s r') : Q r' := hgoOn c keepAlive r' hf h'
    have hfilled {r' : Round} (ok : Bool) (h' : From r.io.now s r') :
        ((!ok) = true → Q r') ∧ (¬ (!ok) = true →
          Q { r' with server := updateClientPollMask fd r'.server }) :=
      ⟨fun _ => hdone _ h', fun _ => hdone _ (h'.updateClientPollMask fd)⟩
    refine ⟨fun _ => ?_, fun _ => ⟨fun _ => ?_, fun _ => ?_⟩⟩
    · exact wlp_mono (appendToOutputBuffer_from hdispatched _) fun ok _ h' => hfilled ok h'
    · exact wlp_mono (replaceOutputBuffer_from hdispatched _ _) fun ok _ h' => hfilled ok h'
    · refine wlp_writeResponse_now fun outcome events io hnow hwrites => ?_
      have hwritten := hdispatched.write hf' hnow hwrites
      cases outcome with
      | error errno =>
        simp only [wlp_bind, wlp_modifyServer]
        exact hdone _ (hwritten.recordErrorMetric.closeClientConnection fd _)
      | ok written =>
        simp only [wlp_bind, wlp_subSize, wlp_modify, wlp_ite, wlp_pure, wlp_modifyServer]
        refine fun _ => ⟨fun _ => hdone _ hwritten, fun _ => ?_⟩
        have hspent (budget : EventBudget) : From r.io.now s ⟨_, budget, io⟩ := hwritten
        exact wlp_mono (replaceOutputBuffer_from (hspent _) _ _) fun ok _ h' => hfilled ok h'

theorem startOkResponse_from (h : From t s r) (request : HttpRequest) :
    wlp (startOkResponse fd request) (fun _ => From t s) r := by
  refine startOkResponse_dispatched request h fun c keepAlive r' hf h' => ?_
  have hresponds : From t s { r with server := r.server.put fd (c.respond keepAlive) } :=
    h.step (.put _ hf rfl rfl)
  exact (hresponds.step (.note _ rfl)).trans h'

/-! ## Flushing -/

theorem From.clock (h : From t s r) : From t s { r with io := tick r.io } :=
  h.wait (Nat.le_add_right ..)

theorem finishFlush_drained (connection : ClientConnection) (r : Round) :
    wlp (finishFlush fd connection)
      (fun _ => From r.io.now (r.server.log [.drained connection])) r := by
  have hdrained : From r.io.now (r.server.log [.drained connection])
      { r with server := r.server.log [.drained connection] } := .refl
  have hpolled := hdrained.updateClientPollMask fd
  unfold finishFlush
  simp only [wlp_bind, wlp_ite, wlp_modifyServer, wlp_pure]
  refine ⟨fun _ => hpolled.enqueueReadyConnection fd, fun _ =>
    ⟨fun _ => hpolled.enqueueReadyConnection fd, fun _ =>
      ⟨fun _ => hdrained.closeClientConnection fd _, fun _ =>
        ⟨fun _ => wlp_clock ?_, fun _ => hpolled⟩⟩⟩⟩
  exact (hdrained.clock.armIdleKeepAliveTimeout fd).updateClientPollMask fd

theorem finishFlush_from (h : From t s r) (connection : ClientConnection) :
    wlp (finishFlush fd connection) (fun _ => From t s) r :=
  wlp_mono (finishFlush_drained connection r) fun _ _ h' => (h.step (.note _ rfl)).trans h'

theorem flushLoop_from (turns : Nat) (h : From t s r) :
    wlp (flushLoop fd turns) (fun _ => From t s) r := by
  induction turns generalizing r with
  | zero => exact (wlp_pure ..).mpr h
  | succ turns ih =>
    unfold flushLoop
    simp only [wlp_bind, wlp_findClient]
    cases hf : r.server.find fd with
    | none => exact (wlp_pure ..).mpr h
    | some c =>
      simp only [wlp_ite, wlp_bind, wlp_pure, wlp_get, wlp_modifyServer]
      refine ⟨fun _ => h, fun _ => ⟨fun _ => finishFlush_from h c, fun _ =>
        ⟨fun _ => h.updateClientPollMask fd, fun _ => ?_⟩⟩⟩
      refine wlp_writeResponse_now fun outcome events io hnow hwrites => ?_
      have hwritten := h.write hf hnow hwrites
      cases outcome with
      | error errno =>
        simp only [wlp_bind, wlp_modifyServer]
        exact hwritten.recordErrorMetric.closeClientConnection fd _
      | ok written =>
        cases written with
        | zero => exact (wlp_pure ..).mpr hwritten
        | succ n =>
          simp only [wlp_bind, wlp_subSize, wlp_modify, wlp_modifyServer]
          refine fun _ => ih ?_
          have hspent (budget : EventBudget) : From t s ⟨_, budget, io⟩ := hwritten
          apply From.releaseInflightBytes
          exact (hspent _).update fd _ (fun _ => rfl) fun _ => rfl

theorem flushClientOutput_from (h : From t s r) :
    wlp (flushClientOutput fd) (fun _ => From t s) r := by
  unfold flushClientOutput
  simp only [wlp_bind, wlp_findClient]
  cases r.server.find fd with
  | none => exact (wlp_pure ..).mpr h
  | some c => exact flushLoop_from _ h

/-! ## The handlers of a registered connection -/

theorem from_kept (fd : Fd) (t : Time) (s : Server) : Clocked fd (From t s) where
  refuse statusCode _ h := sendErrorResponseAndClose_from h statusCode
  dispatch {r} request _ h := startOkResponse_from
    (r := { r with server := countRequest r.server }) (h.step (.count _ _ (.countRequest _))) request
  flush h := flushClientOutput_from h
  clock h := h.clock
  put _ hf hsocket hclosing _ h := h.step (.put _ hf hsocket hclosing)
  note e he h := h.step (.note e (by cases e <;> first | rfl | cases he))
  read answer hf _ h := h.step (.read answer hf)
  grow n h := h.growInflight n
  release n h := h.releaseInflightBytes n
  armHeader h := h.armHeaderTimeout fd
  armBody contentLength h := h.armBodyTimeout fd contentLength
  armIdle h := h.armIdleKeepAliveTimeout fd
  enqueue h := h.enqueueReadyConnection fd
  poll h := h.updateClientPollMask fd
  close reason _ h := h.closeClientConnection fd reason
  readFailed _ h := h.recordErrorMetric.closeClientConnection fd _

end WebServer.Kernel
