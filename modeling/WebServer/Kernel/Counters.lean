import WebServer.Kernel.Kept
import WebServer.Life.Failures

/-!
# The counters and the history

`Books` relates the counters of the server to each other and to the events of the history.  A
counter may be bumped before the event it counts; the parameters say how many events are still
to come.
-/

namespace WebServer.Kernel

open WebServer.Net WebServer.Http WebServer.Core WebServer.Life WebServer.Refine

/-- A connection was closed because `read()` or a `write()` of a response failed. -/
def isFailure : Event → Bool
  | .closed _ reason => reason = .readFailed || reason = .writeFailed
  | _ => false

def isBadRequest : Event → Bool
  | .rejected _ statusCode => statusCode = 400
  | _ => false

def isDispatched : Event → Bool
  | .dispatched .. => true
  | _ => false

/-- Some total counts this event. -/
def isCounted (e : Event) : Bool := isClosed e || isBadRequest e || isDispatched e

/-- The counters when `accepts` sockets, `errors` failed connections and `requests` requests
have been counted ahead. -/
structure Books (accepts errors requests : Nat) (s : Server) : Prop where
  opened : ∀ fd c, s.find fd = some c → c.closing = false
  count : s.activeConnectionCount = s.clients.keys.card
  metric : s.metrics.connsCurrent = s.activeConnectionCount
  accepted : s.metrics.acceptTotal + 1 =
    s.metrics.reject429Total + s.nextConnectionId + accepts
  connected : s.nextConnectionId = s.metrics.connsCurrent + s.trace.countP isClosed + 1
  rejected : s.metrics.rejectTotal = s.metrics.reject411Total + s.metrics.reject413Total +
    s.metrics.reject429Total + s.metrics.reject431Total + s.metrics.reject501Total +
    s.metrics.reject503Total + s.metrics.connRejectTotal + s.trace.countP isBadRequest
  erred : s.metrics.errorsTotal = s.metrics.rejectTotal + s.metrics.timeoutCloseTotal +
    s.trace.countP isFailure + errors
  connRejected : s.connRejectTotal = s.metrics.connRejectTotal
  requested : s.metrics.requestsTotal = s.trace.countP isDispatched + requests

variable {accepts errors requests : Nat} {fd : Fd} {c c' : ClientConnection} {events : List Event}
  {s s' : Server}

theorem Books.initial (listenFd : Fd) : Books 0 0 0 (initializeServer listenFd) :=
  ⟨fun fd c hf => (Option.some_ne_none c (hf.symm.trans (Finmap.lookup_empty fd))).elim,
    rfl, rfl, rfl, rfl, rfl, rfl, rfl, rfl⟩

/-! ## Events that no total counts -/

/-- An event that no total counts adds to none. -/
theorem countP_append_uncounted {p : Event → Bool} (hp : ∀ e, p e = true → isCounted e = true)
    (hnone : ∀ e ∈ events, isCounted e = false) (trace : List Event) :
    (trace ++ events).countP p = trace.countP p := by
  rw [List.countP_append, Nat.add_eq_left, List.countP_eq_zero]
  intro e he hpe
  have := hp e hpe
  rw [hnone e he] at this
  cases this

theorem isClosed_le (e : Event) (h : isClosed e = true) : isCounted e = true := by
  simp [isCounted, h]

theorem isBadRequest_le (e : Event) (h : isBadRequest e = true) : isCounted e = true := by
  simp [isCounted, h]

theorem isDispatched_le (e : Event) (h : isDispatched e = true) : isCounted e = true := by
  simp [isCounted, h]

theorem isFailure_le (e : Event) (h : isFailure e = true) : isCounted e = true := by
  cases e <;> simp [isFailure, isCounted, isClosed] at h ⊢

/-- A change in which nothing is counted. -/
structure Uncounted (s s' : Server) : Prop where
  opened : (∀ fd c, s.find fd = some c → c.closing = false) →
    ∀ fd c, s'.find fd = some c → c.closing = false
  keys : s'.clients.keys = s.clients.keys
  count : s'.activeConnectionCount = s.activeConnectionCount
  metrics : s'.metrics = { s.metrics with
    globalInflightBytesCurrent := s'.metrics.globalInflightBytesCurrent }
  connReject : s'.connRejectTotal = s.connRejectTotal
  nextId : s'.nextConnectionId = s.nextConnectionId
  trace : ∃ tr, s'.trace = s.trace ++ tr ∧ ∀ e ∈ tr, isCounted e = false

theorem Books.uncounted (h : Books accepts errors requests s) (hu : Uncounted s s') :
    Books accepts errors requests s' := by
  have hm := hu.metrics
  obtain ⟨tr, htr, hnone⟩ := hu.trace
  have hclosed : s'.trace.countP isClosed = s.trace.countP isClosed :=
    htr ▸ countP_append_uncounted isClosed_le hnone _
  have hbad : s'.trace.countP isBadRequest = s.trace.countP isBadRequest :=
    htr ▸ countP_append_uncounted isBadRequest_le hnone _
  have hdispatched : s'.trace.countP isDispatched = s.trace.countP isDispatched :=
    htr ▸ countP_append_uncounted isDispatched_le hnone _
  have hfailed : s'.trace.countP isFailure = s.trace.countP isFailure :=
    htr ▸ countP_append_uncounted isFailure_le hnone _
  constructor
  · exact hu.opened h.opened
  · rw [hu.count, hu.keys]
    exact h.count
  · rw [hm, hu.count]
    exact h.metric
  · rw [hm, hu.nextId]
    exact h.accepted
  · rw [hm, hu.nextId, hclosed]
    exact h.connected
  · rw [hm, hbad]
    exact h.rejected
  · rw [hm, hfailed]
    exact h.erred
  · rw [hm, hu.connReject]
    exact h.connRejected
  · rw [hm, hdispatched]
    exact h.requested

/-- A change beside the connections. -/
theorem Uncounted.beside (hclients : s'.clients = s.clients)
    (hcount : s'.activeConnectionCount = s.activeConnectionCount)
    (hmetrics : s'.metrics = { s.metrics with
      globalInflightBytesCurrent := s'.metrics.globalInflightBytesCurrent })
    (hreject : s'.connRejectTotal = s.connRejectTotal)
    (hnext : s'.nextConnectionId = s.nextConnectionId)
    (htrace : ∃ tr, s'.trace = s.trace ++ tr ∧ ∀ e ∈ tr, isCounted e = false) : Uncounted s s' := by
  refine ⟨fun h fd c hf => h fd c ?_, by rw [hclients], hcount, hmetrics, hreject, hnext, htrace⟩
  rwa [Server.find, hclients] at hf

/-- The entry of `fd` is replaced. -/
theorem Uncounted.rework (hf : s.find fd = some c) (hclients : s'.clients = s.clients.insert fd c')
    (hclosing : c'.closing = c.closing) (hcount : s'.activeConnectionCount = s.activeConnectionCount)
    (hmetrics : s'.metrics = s.metrics) (hreject : s'.connRejectTotal = s.connRejectTotal)
    (hnext : s'.nextConnectionId = s.nextConnectionId)
    (htrace : ∃ tr, s'.trace = s.trace ++ tr ∧ ∀ e ∈ tr, isCounted e = false) : Uncounted s s' := by
  refine ⟨fun h fd' d hd => ?_, ?_, hcount, by rw [hmetrics], hreject, hnext, htrace⟩
  · rw [Server.find, hclients] at hd
    by_cases hne : fd' = fd
    · subst hne
      rw [Finmap.lookup_insert] at hd
      cases hd
      exact hclosing.trans (h fd' c hf)
    · rw [Finmap.lookup_insert_of_ne _ hne] at hd
      exact h fd' d hd
  · ext x
    rw [hclients, Finmap.mem_keys, Finmap.mem_keys, Finmap.mem_insert]
    constructor
    · rintro (rfl | hx)
      · exact Finmap.mem_of_lookup_eq_some hf
      · exact hx
    · exact .inr

theorem silent_nil {P : Event → Prop} (trace : List Event) :
    ∃ tr, trace = trace ++ tr ∧ ∀ e ∈ tr, P e :=
  ⟨[], (List.append_nil _).symm, fun _ he => absurd he List.not_mem_nil⟩

namespace Books

theorem note (h : Books accepts errors requests s) (hnone : ∀ e ∈ events, isCounted e = false) :
    Books accepts errors requests (s.log events) :=
  h.uncounted (.beside rfl rfl rfl rfl rfl ⟨events, rfl, hnone⟩)

theorem put (h : Books accepts errors requests s) (hf : s.find fd = some c)
    (hclosing : c'.closing = c.closing) : Books accepts errors requests (s.put fd c') :=
  h.uncounted (.rework hf rfl hclosing rfl rfl rfl rfl (silent_nil _))

theorem update (h : Books accepts errors requests s) (fd : Fd)
    (f : ClientConnection → ClientConnection) (hclosing : ∀ c, (f c).closing = c.closing) :
    Books accepts errors requests (s.update fd f) := by
  unfold Server.update
  cases hf : s.find fd with
  | none => exact h
  | some c => exact h.put hf (hclosing c)

theorem growInflight (h : Books accepts errors requests s) (n : Nat) :
    Books accepts errors requests (growInflight n s) :=
  h.uncounted (.beside rfl rfl rfl rfl rfl (silent_nil _))

theorem releaseInflightBytes (h : Books accepts errors requests s) (n : Nat) :
    Books accepts errors requests (releaseInflightBytes n s) := by
  rw [releaseInflightBytes_eq]
  exact h.uncounted (.beside rfl rfl rfl rfl rfl ⟨[_], rfl, by simp [isCounted, isClosed,
    isBadRequest, isDispatched]⟩)

theorem pushTimer (h : Books accepts errors requests s) (hf : s.find fd = some c)
    (kind : TimerKind) (now deadline : Time) (hclosing : c'.closing = c.closing) :
    Books accepts errors requests (pushTimer kind now deadline fd c' s) :=
  h.uncounted (.rework hf rfl hclosing rfl rfl rfl rfl ⟨[_], rfl, by simp [isCounted, isClosed,
    isBadRequest, isDispatched]⟩)

theorem armHeaderTimeout (h : Books accepts errors requests s) (fd : Fd) (now : Time) :
    Books accepts errors requests (armHeaderTimeout fd now s) := by
  obtain e | ⟨c, hf, e⟩ := armHeaderTimeout_cases fd now s
  · rwa [e]
  · rw [e]
    exact h.pushTimer hf .kHeader now _ rfl

theorem armBodyTimeout (h : Books accepts errors requests s) (fd : Fd) (now : Time)
    (contentLength : Nat) :
    Books accepts errors requests (armBodyTimeout fd now contentLength s) := by
  obtain e | ⟨c, hf, e⟩ := armBodyTimeout_cases fd now contentLength s
  · rwa [e]
  · rw [e]
    exact h.pushTimer hf .kBody now _ rfl

theorem armIdleKeepAliveTimeout (h : Books accepts errors requests s) (fd : Fd) (now : Time) :
    Books accepts errors requests (armIdleKeepAliveTimeout fd now s) := by
  obtain e | ⟨c, hf, e⟩ := armIdleKeepAliveTimeout_cases fd now s
  · rwa [e]
  · rw [e]
    exact h.pushTimer hf .kIdleKeepAlive now _ rfl

theorem enqueueReadyConnection (h : Books accepts errors requests s) (fd : Fd) :
    Books accepts errors requests (enqueueReadyConnection fd s) := by
  obtain e | ⟨c, hf, e⟩ := enqueueReadyConnection_cases fd s
  · rwa [e]
  · rw [e]
    exact h.uncounted (.rework hf rfl rfl rfl rfl rfl rfl (silent_nil _))

theorem updateClientPollMask (h : Books accepts errors requests s) (fd : Fd) :
    Books accepts errors requests (updateClientPollMask fd s) := by
  obtain e | ⟨events, e⟩ := updateClientPollMask_cases fd s
  · rwa [e]
  · rw [e]
    exact h.uncounted (.beside rfl rfl rfl rfl rfl ⟨[_], rfl, by simp [isCounted, isClosed,
      isBadRequest, isDispatched]⟩)

/-! ## What the totals count -/

theorem recordErrorMetric (h : Books accepts errors requests s) :
    Books accepts (errors + 1) requests (recordErrorMetric s) := by
  refine { h with erred := ?_ }
  show s.metrics.errorsTotal + 1 = _
  rw [h.erred]
  rfl

theorem countRequest (h : Books accepts errors requests s) :
    Books accepts errors (requests + 1) (countRequest s) := by
  refine { h with requested := ?_ }
  show s.metrics.requestsTotal + 1 = _
  rw [h.requested]
  rfl

theorem countAccept (h : Books accepts errors requests s) :
    Books (accepts + 1) errors requests (countAccept s) := by
  refine { h with accepted := ?_ }
  show s.metrics.acceptTotal + 1 + 1 = _
  rw [h.accepted]
  rfl

/-- A request that has been counted is answered. -/
theorem dispatch (h : Books accepts errors (requests + 1) s) (c : ClientConnection)
    (request : HttpRequest) (keepAlive : Bool) :
    Books accepts errors requests (s.log [.dispatched c request keepAlive]) := by
  have hconnected := h.connected
  have hrejected := h.rejected
  have herred := h.erred
  have hrequested := h.requested
  refine ⟨h.opened, h.count, h.metric, h.accepted, ?_, ?_, ?_, h.connRejected, ?_⟩
  all_goals
    simp only [Server.log, List.countP_append, List.countP_singleton, isClosed, isBadRequest,
      isFailure, isDispatched, Bool.false_eq_true, if_true, if_false]
    omega

/-- An error response is counted as an error and under its status code; only a 400 has no
counter of its own. -/
theorem refuse (h : Books accepts errors requests s) (c : ClientConnection) {statusCode : Nat}
    (hstatus : statusCode ∈ errorStatuses) :
    Books accepts errors requests
      (Core.recordErrorMetric (recordRejectMetric statusCode (s.log [.rejected c statusCode]))) := by
  have haccepted := h.accepted
  have hconnected := h.connected
  have hrejected := h.rejected
  have herred := h.erred
  have hrequested := h.requested
  simp only [errorStatuses, List.mem_cons, List.not_mem_nil, or_false] at hstatus
  rcases hstatus with rfl | rfl | rfl | rfl | rfl | rfl
  all_goals
    refine ⟨h.opened, h.count, h.metric, haccepted, ?_, ?_, ?_, h.connRejected, ?_⟩
    all_goals
      simp only [Core.recordErrorMetric, recordRejectMetric, Server.log, List.countP_append,
        List.countP_singleton, isClosed, isBadRequest, isFailure, isDispatched, decide_true,
        Nat.reduceEqDiff, decide_false, Bool.false_eq_true, if_true, if_false]
      omega

/-- A socket without tokens is rejected before it gets an id. -/
theorem refuseAccepted (h : Books (accepts + 1) errors requests s) :
    Books accepts errors requests (Core.recordErrorMetric (recordRejectMetric 429 s)) := by
  have haccepted := h.accepted
  have hrejected := h.rejected
  have herred := h.erred
  refine { h with accepted := ?_, rejected := ?_, erred := ?_ }
  all_goals
    simp only [Core.recordErrorMetric, recordRejectMetric]
    omega

theorem countTimeout (h : Books accepts errors requests s) :
    Books accepts errors requests
      { Core.recordErrorMetric s with metrics := { (Core.recordErrorMetric s).metrics with
        timeoutCloseTotal := (Core.recordErrorMetric s).metrics.timeoutCloseTotal + 1 } } := by
  refine { h with erred := ?_ }
  have herred := h.erred
  simp only [Core.recordErrorMetric]
  omega

/-! ## Closing -/

/-- `CloseClientConnection` of a registered connection, as far as the totals see it. -/
structure ClosedBy (fd : Fd) (c : ClientConnection) (reason : CloseReason) (s s' : Server) : Prop where
  clients : s'.clients = s.clients.erase fd
  count : s'.activeConnectionCount = s.activeConnectionCount - 1
  metrics : s'.metrics = { s.metrics with
    connsCurrent := s.activeConnectionCount - 1
    globalInflightBytesCurrent := s'.metrics.globalInflightBytesCurrent }
  connReject : s'.connRejectTotal = s.connRejectTotal
  nextId : s'.nextConnectionId = s.nextConnectionId
  trace : ∃ tr, s'.trace = s.trace ++ tr ++ [.closed c reason] ∧ ∀ e ∈ tr, isCounted e = false

theorem closedBy (hf : s.find fd = some c) (hcl : c.closing = false) (reason : CloseReason) :
    ClosedBy fd c reason s (closeClientConnection fd reason s) := by
  have hquiet (own : Fd) (n m : Nat) :
      ∀ e ∈ [.epollCtl .del fd {}, .closedFd own, .released n m], isCounted e = false := by
    simp [isCounted, isClosed, isBadRequest, isDispatched]
  unfold closeClientConnection
  rw [hf]
  dsimp only
  rw [if_neg (by simp [hcl]), releaseInflightBytes_eq]
  cases c.socket with
  | none =>
    refine ⟨rfl, rfl, rfl, rfl, rfl, [_], rfl, fun e he => ?_⟩
    exact hquiet 0 _ _ e (List.mem_cons_of_mem _ (List.mem_cons_of_mem _ he))
  | some own =>
    refine ⟨rfl, rfl, rfl, rfl, rfl, [.epollCtl .del fd {}, .closedFd own,
      .released (Server.buffered c) s.globalInflightBytes], ?_, hquiet own _ _⟩
    show s.trace ++ [.epollCtl .del fd {}, .closedFd own] ++ [.released _ _] ++ [.closed c reason] = _
    rw [List.append_assoc s.trace]
    rfl

/-- What a close changes beside the count of failures. -/
theorem closed {reason : CloseReason} (h : Books accepts errors requests s)
    (hf : s.find fd = some c) (hc : ClosedBy fd c reason s s') {errors' : Nat}
    (herrors : errors = (if isFailure (.closed c reason) then 1 else 0) + errors') :
    Books accepts errors' requests s' := by
  obtain ⟨tr, htr, hnone⟩ := hc.trace
  have hcard : (s.clients.erase fd).keys.card + 1 = s.clients.keys.card := by
    rw [Finmap.keys_erase]
    exact Finset.card_erase_add_one (Finmap.mem_keys.mpr (Finmap.mem_of_lookup_eq_some hf))
  have htally {p : Event → Bool} (hp : ∀ e, p e = true → isCounted e = true) :
      s'.trace.countP p = s.trace.countP p + if p (.closed c reason) then 1 else 0 := by
    rw [htr, List.countP_append, countP_append_uncounted hp hnone, List.countP_singleton]
  have hclosed := htally isClosed_le
  have hbad := htally isBadRequest_le
  have hdispatched := htally isDispatched_le
  have hfailed := htally isFailure_le
  simp only [isClosed, isBadRequest, isDispatched, Bool.false_eq_true, if_true, if_false,
    Nat.add_zero] at hclosed hbad hdispatched
  have hcount := h.count
  have hmetric := h.metric
  constructor
  · intro fd' d hd
    have hne : fd' ≠ fd := by
      rintro rfl
      rw [Server.find, hc.clients, Finmap.lookup_erase] at hd
      cases hd
    rw [Server.find, hc.clients, Finmap.lookup_erase_ne hne] at hd
    exact h.opened fd' d hd
  · rw [hc.count, hc.clients]
    omega
  · rw [hc.metrics, hc.count]
  · rw [hc.metrics, hc.nextId]
    exact h.accepted
  · have := h.connected
    rw [hc.metrics, hc.nextId, hclosed]
    dsimp only
    omega
  · rw [hc.metrics, hbad]
    exact h.rejected
  · have := h.erred
    rw [hc.metrics, hfailed]
    dsimp only
    omega
  · rw [hc.metrics, hc.connReject]
    exact h.connRejected
  · rw [hc.metrics, hdispatched]
    exact h.requested

/-- A close for another reason than a failed call. -/
theorem closeClientConnection (h : Books accepts errors requests s) (fd : Fd) (reason : CloseReason)
    (hreason : reason ≠ .readFailed ∧ reason ≠ .writeFailed) :
    Books accepts errors requests (closeClientConnection fd reason s) := by
  cases hf : s.find fd with
  | none =>
    rw [Core.closeClientConnection, hf]
    exact h
  | some c =>
    refine h.closed hf (closedBy hf (h.opened fd c hf) reason) ?_
    simp [isFailure, hreason.1, hreason.2]

/-- A failed call has been counted, and its connection is closed. -/
theorem closeFailed (h : Books accepts (errors + 1) requests s) (hf : s.find fd = some c)
    {reason : CloseReason} (hreason : reason = .readFailed ∨ reason = .writeFailed) :
    Books accepts errors requests (Core.closeClientConnection fd reason s) := by
  refine h.closed hf (closedBy hf (h.opened fd c hf) reason) ?_
  rcases hreason with rfl | rfl
  · simp [isFailure, Nat.add_comm]
  · simp [isFailure, Nat.add_comm]

end Books

end WebServer.Kernel
