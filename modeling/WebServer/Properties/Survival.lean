import WebServer.Life.Failures
import WebServer.Refine.ReadyQueue
import WebServer.Properties.Descriptors

/-!
# What a failed call does to the event loop

`TryAcceptOne` throws whatever `accept4()` fails with, except `EAGAIN` and `EINTR`, and nobody
catches it: such a failure ends the event loop for all connections.  A failed `read()` or
`write()` ends only the connection it was made for.
-/

namespace WebServer.Properties

open WebServer.Net WebServer.Http WebServer.Core WebServer.Life WebServer.Refine
  WebServer.Kernel

variable {s s' : Server} {fd : Fd} {c : ClientConnection} {it : Iteration} {id : Nat}

/-- No readiness event of the listening socket meets a failure that `TryAcceptOne` throws. -/
def AcceptsSettle (listenFd : Fd) (events : List (PollEvent × Io)) : Prop :=
  ∀ e ∈ events, e.1.fd = listenFd → e.1.events.epollin = true → acceptFault e.2.accepts = none

/-- The connection is registered and watched, or it was closed for another reason than a failed
call. -/
inductive Served (s : Server) (id : Nat) : Prop
  | watched (fd : Fd) (c : ClientConnection) (hf : s.find fd = some c) (hid : c.connectionId = id)
      (hpoll : s.poller.lookup fd =
        some { epollin := true, epollrdhup := true, epollout := c.outputBuffer ≠ [] })
  | closed (before : List Event) (c : ClientConnection) (reason : CloseReason)
      (hlast : history id s.trace = before ++ [.closed c reason])
      (hreason : reason ≠ .readFailed ∧ reason ≠ .writeFailed)

/-- The iteration returns, and every connection that it begins with or accepts is served unless
one of its own calls fails. -/
def Survives (it : Iteration) (s : Server) : Prop :=
  ∃ s' tr, runEventLoopOnce it s = .ok s' ∧ s'.trace = s.trace ++ tr ∧
    ∀ id, ((∃ fd c, s.find fd = some c ∧ c.connectionId = id) ∨
        s.nextConnectionId ≤ id ∧ history id tr ≠ []) →
      (∀ e ∈ history id tr, failsCall e = false) → Served s' id

/-! ## Returning -/

theorem dispatchEvents_ok_iff (events : List (PollEvent × Io)) (h : AtRest s) :
    (∃ s', dispatchEvents events s = .ok s') ↔ AcceptsSettle s.listenFd events := by
  induction events generalizing s with
  | nil => simp [dispatchEvents, AcceptsSettle, pure, Except.pure]
  | cons e events ih =>
    have hstep : dispatchEvents (e :: events) s =
        (runCall (.event e.1 e.2) s >>= dispatchEvents events) := rfl
    have hrest {t : Server} (hcall : runCall (.event e.1 e.2) s = .ok t) :
        (∃ s', dispatchEvents (e :: events) s = .ok s') ↔ AcceptsSettle s.listenFd events := by
      rw [hstep, hcall, ← runCall_listenFd h hcall]
      exact ih (runCall_called h hcall).1
    by_cases hlisten : e.1.fd = s.listenFd
    · rcases listenEvent_outcome h hlisten e.2 with ⟨hfine, t, hcall, -⟩ | ⟨errno, hin, hfault, hcall⟩
      · rw [hrest hcall]
        simpa [AcceptsSettle, hlisten] using fun _ => hfine
      · constructor
        · rintro ⟨s', hs'⟩
          rw [hstep] at hs'
          change (runHandler (handlePollEvent e.1) e.2 s >>= _) = _ at hs'
          rw [hcall] at hs'
          cases hs'
        · intro hsettle
          rw [hsettle e List.mem_cons_self hlisten hin] at hfault
          cases hfault
    · obtain ⟨t, hcall, -⟩ := clientEvent_returns h hlisten e.2
      rw [hrest hcall]
      simp [AcceptsSettle, hlisten]

theorem runEventLoopOnce_ok_iff (h : AtRest s) :
    (∃ s', runEventLoopOnce it s = .ok s') ↔ AcceptsSettle s.listenFd it.events := by
  obtain ⟨s₁, hready, hafter⟩ := readyLoop_spec s.readyQueue.length it.ready h (Nat.le_refl _)
  have hlisten : s₁.listenFd = s.listenFd := by
    rw [readyLoop_eq] at hready
    exact (h.runCalls (P := fun t => t.listenFd = s.listenFd) rfl (fun t t' call hrest hP hcall =>
      (runCall_listenFd hrest hcall).trans hP) hready).2
  have hrest : AtRest (processExpiredTimers it.firstExpiry it.firstTies s₁) :=
    expireLoop_atRest _ it.firstTies hafter.atRest
  have hsame : (processExpiredTimers it.firstExpiry it.firstTies s₁).listenFd = s.listenFd :=
    (expireLoop_listenFd _ it.firstTies hafter.atRest).trans hlisten
  have hdispatch : runEventLoopOnce it s =
      (dispatchEvents it.events (processExpiredTimers it.firstExpiry it.firstTies s₁) >>= fun t =>
        .ok (flushPendingCloseQueue (processExpiredTimers it.secondExpiry it.secondTies t))) := by
    rw [runEventLoopOnce, processReadyQueue, hready]
    rfl
  rw [hdispatch, ← hsame, ← dispatchEvents_ok_iff it.events hrest]
  constructor
  · rintro ⟨s', hs'⟩
    cases he : dispatchEvents it.events (processExpiredTimers it.firstExpiry it.firstTies s₁) with
    | error e =>
      rw [he] at hs'
      cases hs'
    | ok t => exact ⟨t, rfl⟩
  · rintro ⟨t, ht⟩
    rw [ht]
    exact ⟨_, rfl⟩

/-! ## Serving -/

theorem runEventLoopOnce_trace (h : AtRest s) (hloop : runEventLoopOnce it s = .ok s') :
    ∃ tr, s'.trace = s.trace ++ tr := by
  obtain ⟨calls, hcalls⟩ := runEventLoopOnce_calls it hloop
  refine (h.runCalls (P := fun t => ∃ tr, t.trace = s.trace ++ tr) ⟨[], by simp⟩ ?_ hcalls).2
  rintro t t' call hrest ⟨tr, htr⟩ hcall
  obtain ⟨new, hnew, -⟩ := (runCall_called hrest hcall).2.trace
  exact ⟨tr ++ new, by rw [hnew, htr, List.append_assoc]⟩

/-- Nothing has failed so far on a connection that is registered, or not accepted yet. -/
theorem unfailed_of_reachable (hs : Reachable s)
    (hid : (∃ fd c, s.find fd = some c ∧ c.connectionId = id) ∨ s.nextConnectionId ≤ id) :
    Unfailed (history id s.trace) := by
  rcases hid with ⟨fd, c, hf, rfl⟩ | hnew
  · exact (run_of_reachable hs hf).unfailed
  · rw [((atRest_of_reachable hs 0).fresh id hnew).1]
    intro e he
    cases he

theorem served_of_reachable (hs : Reachable s) (hs' : Reachable s') {tr : List Event}
    (htr : s'.trace = s.trace ++ tr)
    (hid : (∃ fd c, s.find fd = some c ∧ c.connectionId = id) ∨
      s.nextConnectionId ≤ id ∧ history id tr ≠ [])
    (hfine : ∀ e ∈ history id tr, failsCall e = false) : Served s' id := by
  have hhistory : history id s'.trace = history id s.trace ++ history id tr := by
    rw [htr, history_append]
  rcases life_of_reachable hs' id with hnone | ⟨fd, hended⟩ | ⟨fd, c, hf, rfl⟩
  · -- a connection has a history
    obtain ⟨hold, hnew⟩ := List.append_eq_nil_iff.mp (hhistory ▸ hnone)
    rcases hid with ⟨fd, c, hf, rfl⟩ | ⟨-, hne⟩
    · exact absurd hold (run_of_reachable hs hf).history_ne_nil
    · exact absurd hnew hne
  · rw [hhistory] at hended
    have hcloses := hended.closes (unfailed_of_reachable hs (hid.imp_right And.left))
    obtain ⟨before, c, reason, hlast, hreason⟩ := hcloses.last
    have hnot (hfail : reason = .readFailed ∨ reason = .writeFailed) : False := by
      obtain ⟨e, he, hfails⟩ := hreason hfail
      rw [hfine e (hlast ▸ List.mem_append_left _ he)] at hfails
      cases hfails
    refine .closed (history id s.trace ++ before) c reason ?_
      ⟨fun e => hnot (.inl e), fun e => hnot (.inr e)⟩
    rw [hhistory, hlast, List.append_assoc]
  · refine .watched fd c hf rfl ?_
    rw [interest_of_reachable hs' ((tidy_of_reachable hs' fd).ne_listenFd hf), hf]
    rfl

/-- **What the loop survives.**  From every reachable state an iteration returns and serves every
connection whose own calls do not fail, exactly if no `accept4()` fails with another error than
`EAGAIN` and `EINTR`. -/
theorem survives_iff (hs : Reachable s) :
    Survives it s ↔ AcceptsSettle s.listenFd it.events := by
  have hrest := atRest_of_reachable hs
  rw [← runEventLoopOnce_ok_iff hrest]
  constructor
  · rintro ⟨s', tr, hloop, -⟩
    exact ⟨s', hloop⟩
  · rintro ⟨s', hloop⟩
    obtain ⟨tr, htr⟩ := runEventLoopOnce_trace hrest hloop
    have hs' := runEventLoopOnce_reachable it hs hloop
    exact ⟨s', tr, hloop, htr, fun id hid hfine => served_of_reachable hs hs' htr hid hfine⟩

/-- One client is connected. -/
def oneClient : SampleRun fun s => (s.find 5).isSome = true ∧ s.listenFd = 3 where
  iterations := [accepting 3 5 0]
  holds := by decide +kernel

/-- The client's connection was reset. -/
def resetRead : Iteration where
  events :=
    [({ fd := 5, events := { epollin := true } }, { now := 1, reads := [.failed (.other 104)] })]

/-- Another client has gone before it was accepted. -/
def abortedAccept : Iteration where
  events :=
    [({ fd := 3, events := { epollin := true } }, { now := 1, accepts := [.failed .econnaborted] })]

theorem survives_iff_resetRead : Survives resetRead oneClient.final := by
  refine (survives_iff oneClient.reachable).mpr ?_
  rw [oneClient.holds_final.2]
  intro e he
  obtain rfl := List.mem_singleton.mp he
  intro hfd
  cases hfd

/-- The loop does not survive an aborted `accept4()`. -/
theorem not_survives_abortedAccept : Reachable oneClient.final ∧
    ¬ Survives abortedAccept oneClient.final := by
  refine ⟨oneClient.reachable, ?_⟩
  rintro ⟨s', tr, hloop, -⟩
  have hsettle := (runEventLoopOnce_ok_iff (atRest_of_reachable oneClient.reachable)).mp ⟨s', hloop⟩
  rw [oneClient.holds_final.2] at hsettle
  have := hsettle _ (List.mem_cons_self) rfl rfl
  cases this

end WebServer.Properties
