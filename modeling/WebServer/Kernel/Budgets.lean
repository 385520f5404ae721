import WebServer.Kernel.Runs

/-!
# The budgets of a handler call

A handler call starts with a budget for reading and one for writing responses.  What it has used
of a budget and what is left of it never make up more than the budget it started with.
-/

namespace WebServer.Kernel

open WebServer.Net WebServer.Http WebServer.Core WebServer.Life WebServer.Refine LiberalPre

variable {fd : Fd} {c : ClientConnection} {events : List Event} {start s s' s'' : Server}
  {budget : EventBudget} {io : Io} {r : Round}

/-! ## Bookkeeping -/

/-- From `s` to `s'` nothing is read and nothing of a response is written. -/
structure Unspent (s s' : Server) : Prop where
  read : received s'.trace = received s.trace
  written : accepted .response s'.trace = accepted .response s.trace

namespace Unspent

theorem of_trace (h : s'.trace = s.trace) : Unspent s s' := by
  constructor
  · rw [h]
  · rw [h]

theorem trans (h : Unspent s s') (h' : Unspent s' s'') : Unspent s s'' :=
  ⟨h'.read.trans h.read, h'.written.trans h.written⟩

theorem log (events : List Event) (hread : received events = [])
    (hwritten : accepted .response events = []) : Unspent s (s.log events) := by
  constructor
  · rw [Server.log, received_append, hread, List.append_nil]
  · rw [Server.log, accepted_append, hwritten, List.append_nil]

theorem recordErrorMetric (s : Server) : Unspent s (recordErrorMetric s) := of_trace rfl

theorem countRequest (s : Server) : Unspent s (countRequest s) := of_trace rfl

theorem recordRejectMetric (statusCode : Nat) (s : Server) :
    Unspent s (recordRejectMetric statusCode s) := of_trace rfl

theorem update (fd : Fd) (f : ClientConnection → ClientConnection) (s : Server) :
    Unspent s (s.update fd f) := by
  unfold Server.update
  cases s.find fd with
  | none => exact of_trace rfl
  | some c => exact of_trace rfl

theorem releaseInflightBytes (n : Nat) (s : Server) : Unspent s (releaseInflightBytes n s) := by
  rw [releaseInflightBytes_eq]
  exact (log [_] rfl rfl).trans (of_trace rfl)

theorem pushTimer (kind : TimerKind) (now deadline : Time) (fd : Fd) (c : ClientConnection)
    (s : Server) : Unspent s (pushTimer kind now deadline fd c s) := by
  have hlog : Unspent s (s.log [.armed c.connectionId kind now deadline]) := log _ rfl rfl
  exact hlog.trans (of_trace rfl)

theorem armHeaderTimeout (fd : Fd) (now : Time) (s : Server) :
    Unspent s (armHeaderTimeout fd now s) := by
  obtain e | ⟨c, -, e⟩ := armHeaderTimeout_cases fd now s
  · exact of_trace (congrArg _ e)
  · rw [e]
    exact pushTimer ..

theorem armBodyTimeout (fd : Fd) (now : Time) (contentLength : Nat) (s : Server) :
    Unspent s (armBodyTimeout fd now contentLength s) := by
  obtain e | ⟨c, -, e⟩ := armBodyTimeout_cases fd now contentLength s
  · exact of_trace (congrArg _ e)
  · rw [e]
    exact pushTimer ..

theorem armIdleKeepAliveTimeout (fd : Fd) (now : Time) (s : Server) :
    Unspent s (armIdleKeepAliveTimeout fd now s) := by
  obtain e | ⟨c, -, e⟩ := armIdleKeepAliveTimeout_cases fd now s
  · exact of_trace (congrArg _ e)
  · rw [e]
    exact pushTimer ..

theorem enqueueReadyConnection (fd : Fd) (s : Server) :
    Unspent s (enqueueReadyConnection fd s) := by
  obtain e | ⟨c, -, e⟩ := enqueueReadyConnection_cases fd s
  · exact of_trace (congrArg _ e)
  · rw [e]
    exact of_trace rfl

theorem updateClientPollMask (fd : Fd) (s : Server) : Unspent s (updateClientPollMask fd s) := by
  obtain e | ⟨events, e⟩ := updateClientPollMask_cases fd s
  · exact of_trace (congrArg _ e)
  · rw [e]
    exact (log [.epollCtl .mod fd events] rfl rfl).trans (of_trace rfl)

theorem releaseSocket (fd : Fd) (socket : Option Fd) (s : Server) :
    Unspent s (releaseSocket fd socket s) := by
  cases socket with
  | none => exact of_trace rfl
  | some own => exact (log [_, _] rfl rfl).trans (of_trace rfl)

theorem closeClientConnection (fd : Fd) (reason : CloseReason) (s : Server) :
    Unspent s (closeClientConnection fd reason s) := by
  unfold Core.closeClientConnection
  cases s.find fd with
  | none => exact of_trace rfl
  | some c =>
    dsimp only
    split
    · exact of_trace rfl
    · set t : Server := { setActiveConnectionCount (s.activeConnectionCount - 1) s with
        readyQueue := s.readyQueue.filter (· ≠ fd) }
      have hcounted : Unspent s t := of_trace rfl
      have hsocket := hcounted.trans (releaseSocket fd c.socket t)
      have hreleased := hsocket.trans (releaseInflightBytes (Server.buffered c) _)
      exact (hreleased.trans (log [.closed c reason] rfl rfl)).trans (of_trace rfl)

end Unspent

/-! ## What is left of the budgets -/

/-- In the call that began in `start`, used and left are within the budgets. -/
structure Within (start : Server) (r : Round) : Prop where
  read : (received r.server.trace).length + r.budget.readRemaining ≤
    (received start.trace).length + kMaxReadBytesPerEvent
  written : (accepted .response r.server.trace).length + r.budget.writeRemaining ≤
    (accepted .response start.trace).length + kMaxWriteBytesPerEvent

namespace Within

theorem begin (s : Server) (io : Io) : Within s { server := s, io := io } :=
  ⟨Nat.le_refl _, Nat.le_refl _⟩

theorem unspent (h : Within start ⟨s, budget, io⟩) (hu : Unspent s s') :
    Within start ⟨s', budget, io⟩ := by
  constructor
  · show (received s'.trace).length + _ ≤ _
    rw [hu.read]
    exact h.read
  · show (accepted .response s'.trace).length + _ ≤ _
    rw [hu.written]
    exact h.written

/-- The budgets do not depend on the answers to come. -/
theorem answers (h : Within start ⟨s, budget, io⟩) (io' : Io) : Within start ⟨s, budget, io'⟩ :=
  ⟨h.read, h.written⟩

theorem readSome (h : Within start ⟨s, budget, io⟩) (c : ClientConnection) (answer : ReadResult)
    (hle : (bytesRead (.read c answer)).length ≤ budget.readRemaining) :
    Within start ⟨s.log [.read c answer], { budget with
      readRemaining := budget.readRemaining - (bytesRead (.read c answer)).length }, io⟩ := by
  have hread := h.read
  constructor
  · have hone : received [.read c answer] = bytesRead (.read c answer) := List.append_nil _
    simp only [Server.log, received_append, hone, List.length_append] at hread ⊢
    omega
  · have hnone : accepted .response [.read c answer] = [] := rfl
    simp only [Server.log, accepted_append, hnone, List.append_nil]
    exact h.written

/-- The bytes written are taken from the budget. -/
theorem writeSome (h : Within start ⟨s, budget, io⟩) (hread : received events = [])
    (hle : (accepted .response events).length ≤ budget.writeRemaining) :
    Within start ⟨s.log events, { budget with
      writeRemaining := budget.writeRemaining - (accepted .response events).length }, io⟩ := by
  have hwritten := h.written
  constructor
  · simp only [Server.log, received_append, hread, List.append_nil]
    exact h.read
  · simp only [Server.log, accepted_append, List.length_append] at hwritten ⊢
    omega

end Within

/-! ## Responses -/

theorem wlp_writeErrorResponse_unspent {Q : Bool → Round → Prop} {life : Option Nat} {data : Bytes}
    (h : ∀ ok s io, Unspent r.server s → Q ok { r with server := s, io := io }) :
    wlp (writeErrorResponse fd life data) Q r := by
  rintro _ _ ⟨⟩
  refine h _ _ _ (.log _ ?_ ?_)
  · simp [received, List.flatMap_map, bytesRead]
  · simp [accepted, List.flatMap_map, bytesWritten]

/-- `WriteSomeNonBlocking` returns how much the socket has taken; when it throws, that is nothing. -/
theorem wlp_writeResponse_counted {Q : Except Errno Nat → Round → Prop} {life : Nat} {data : Bytes}
    (h : ∀ outcome events io, received events = [] →
      (accepted .response events).length = outcome.toOption.getD 0 →
      Q outcome { r with server := r.server.log events, io := io }) :
    wlp (writeResponse fd life data) Q r := by
  rintro _ _ ⟨⟩
  refine h _ (responseWrites fd life data r.io.writes) _ ?_ ?_
  · exact flatMap_responseWrites (fun _ _ _ _ _ => rfl) ..
  · rw [accepted_responseWrites]
    cases hwrite : (writeSomeNonBlocking data r.io.writes).2.2 with
    | error errno => rfl
    | ok n => exact (List.length_take ..).trans (Nat.min_eq_left (writeSomeNonBlocking_le hwrite))

theorem sendErrorResponseAndClose_within (h : Within start r) (statusCode : Nat) :
    wlp (sendErrorResponseAndClose fd statusCode) (fun _ => Within start) r := by
  unfold sendErrorResponseAndClose
  simp only [wlp_bind, wlp_findClient]
  cases r.server.find fd with
  | none => exact (wlp_pure ..).mpr h
  | some c =>
    simp only [wlp_bind, wlp_modifyServer]
    have hrejected := h.unspent (.log [.rejected c statusCode] rfl rfl)
    have herror := (hrejected.unspent (.recordRejectMetric statusCode _)).unspent
      (.recordErrorMetric _)
    refine wlp_writeErrorResponse_unspent fun ok s io hwritten => ?_
    exact ((herror.unspent hwritten).answers io).unspent (.closeClientConnection ..)

theorem tryReserveInflightBytes_within (h : Within start r) (growth : Growth) (addBytes : Nat) :
    wlp (tryReserveInflightBytes fd growth addBytes) (fun _ => Within start) r := by
  unfold tryReserveInflightBytes
  simp only [wlp_bind, wlp_ite, wlp_pure, wlp_get, wlp_modifyServer]
  have hasked := h.unspent (.log [.reserved (r.server.find fd) growth addBytes
    r.server.globalInflightBytes] rfl rfl)
  exact ⟨fun _ => h, fun _ =>
    ⟨fun _ => sendErrorResponseAndClose_within hasked 503, fun _ => hasked⟩⟩

theorem appendToOutputBuffer_within (h : Within start r) (data : Bytes) :
    wlp (appendToOutputBuffer fd data) (fun _ => Within start) r := by
  unfold appendToOutputBuffer
  simp only [wlp_bind, wlp_ite, wlp_pure, wlp_modifyServer]
  refine ⟨fun _ => h, fun _ => wlp_mono (tryReserveInflightBytes_within h _ _) fun ok r' h' =>
    ⟨fun _ => h', fun _ => ?_⟩⟩
  exact (h'.unspent (.update ..)).unspent (.of_trace rfl)

theorem replaceOutputBuffer_within (h : Within start r) (connection : ClientConnection)
    (data : Bytes) :
    wlp (replaceOutputBuffer fd connection data) (fun _ => Within start) r := by
  unfold replaceOutputBuffer
  simp only [wlp_bind, wlp_ite, wlp_pure, wlp_modifyServer, wlp_subSize]
  refine ⟨fun _ _ => wlp_mono (tryReserveInflightBytes_within h _ _) fun ok r' h' =>
    ⟨fun _ => h', fun _ => ?_⟩, fun _ _ => ?_⟩
  · exact (h'.unspent (.update ..)).unspent (.of_trace rfl)
  · exact (h.unspent (.update ..)).unspent (.releaseInflightBytes ..)

theorem startOkResponse_within (h : Within start r) (request : HttpRequest) :
    wlp (startOkResponse fd request) (fun _ => Within start) r := by
  unfold startOkResponse
  simp only [wlp_bind, wlp_findClient]
  cases r.server.find fd with
  | none => exact (wlp_pure ..).mpr h
  | some c =>
    simp only [wlp_ite, wlp_bind, wlp_pure, wlp_modifyServer, wlp_get]
    refine ⟨fun _ => h, fun _ => ?_⟩
    generalize (shouldKeepAlive request && !c.closeAfterWrite) = keepAlive
    have hresponds : Within start { r with server := r.server.put fd (c.respond keepAlive) } :=
      h.unspent (.of_trace rfl)
    have hdispatched := hresponds.unspent (.log [.dispatched c request keepAlive] rfl rfl)
    have hfilled {r' : Round} (ok : Bool) (h' : Within start r') :
        ((!ok) = true → Within start r') ∧ (¬ (!ok) = true →
          Within start { r' with server := updateClientPollMask fd r'.server }) :=
      ⟨fun _ => h', fun _ => h'.unspent (.updateClientPollMask ..)⟩
    refine ⟨fun _ => ?_, fun _ => ⟨fun _ => ?_, fun _ => ?_⟩⟩
    · exact wlp_mono (appendToOutputBuffer_within hdispatched _) fun ok _ h' => hfilled ok h'
    · exact wlp_mono (replaceOutputBuffer_within hdispatched _ _) fun ok _ h' => hfilled ok h'
    · refine wlp_writeResponse_counted fun outcome events io hread hcount => ?_
      cases outcome with
      | error errno =>
        have hnone : accepted .response events = [] := List.length_eq_zero_iff.mp hcount
        simp only [wlp_bind, wlp_modifyServer]
        refine Within.unspent ?_ (.closeClientConnection ..)
        exact ((hdispatched.unspent (.log events hread hnone)).answers io).unspent (.of_trace rfl)
      | ok written =>
        simp only [wlp_bind, wlp_subSize, wlp_modify, wlp_ite, wlp_pure, wlp_modifyServer]
        intro hle
        have hwritten := (hdispatched.answers io).writeSome hread (hcount ▸ hle)
        rw [hcount] at hwritten
        refine ⟨fun _ => hwritten, fun _ => ?_⟩
        exact wlp_mono (replaceOutputBuffer_within hwritten _ _) fun ok _ h' => hfilled ok h'

/-! ## Flushing -/

theorem finishFlush_within (h : Within start r) (connection : ClientConnection) :
    wlp (finishFlush fd connection) (fun _ => Within start) r := by
  have hdrained := h.unspent (.log [.drained connection] rfl rfl)
  have hpolled := hdrained.unspent (.updateClientPollMask fd _)
  unfold finishFlush
  simp only [wlp_bind, wlp_ite, wlp_modifyServer, wlp_pure]
  refine ⟨fun _ => hpolled.unspent (.enqueueReadyConnection ..), fun _ =>
    ⟨fun _ => hpolled.unspent (.enqueueReadyConnection ..), fun _ =>
      ⟨fun _ => hdrained.unspent (.closeClientConnection ..), fun _ =>
        ⟨fun _ => wlp_steadyClockNow fun now io => ?_, fun _ => hpolled⟩⟩⟩⟩
  have harmed := (hdrained.answers io).unspent (.armIdleKeepAliveTimeout fd now _)
  exact harmed.unspent (.updateClientPollMask ..)

theorem flushLoop_within (turns : Nat) (h : Within start r) :
    wlp (flushLoop fd turns) (fun _ => Within start) r := by
  induction turns generalizing r with
  | zero => exact (wlp_pure ..).mpr h
  | succ turns ih =>
    unfold flushLoop
    simp only [wlp_bind, wlp_findClient]
    cases r.server.find fd with
    | none => exact (wlp_pure ..).mpr h
    | some c =>
      simp only [wlp_ite, wlp_bind, wlp_pure, wlp_get, wlp_modifyServer]
      refine ⟨fun _ => h, fun _ => ⟨fun _ => finishFlush_within h c, fun _ =>
        ⟨fun _ => h.unspent (.updateClientPollMask ..), fun _ => ?_⟩⟩⟩
      refine wlp_writeResponse_counted fun outcome events io hread hcount => ?_
      cases outcome with
      | error errno =>
        have hnone : accepted .response events = [] := List.length_eq_zero_iff.mp hcount
        simp only [wlp_bind, wlp_modifyServer]
        refine Within.unspent ?_ (.closeClientConnection ..)
        exact ((h.unspent (.log events hread hnone)).answers io).unspent (.of_trace rfl)
      | ok written =>
        cases written with
        | zero =>
          have hnone : accepted .response events = [] := List.length_eq_zero_iff.mp hcount
          exact (wlp_pure ..).mpr ((h.unspent (.log events hread hnone)).answers io)
        | succ n =>
          simp only [wlp_bind, wlp_subSize, wlp_modify, wlp_modifyServer]
          intro hle
          have hwritten := (h.answers io).writeSome hread (hcount ▸ hle)
          rw [hcount] at hwritten
          exact ih ((hwritten.unspent (.update ..)).unspent (.releaseInflightBytes ..))

theorem flushClientOutput_within (h : Within start r) :
    wlp (flushClientOutput fd) (fun _ => Within start) r := by
  unfold flushClientOutput
  simp only [wlp_bind, wlp_findClient]
  cases r.server.find fd with
  | none => exact (wlp_pure ..).mpr h
  | some c => exact flushLoop_within _ h

/-! ## The handlers of a registered connection -/

theorem within_kept (fd : Fd) (start : Server) : Keeps fd (Within start) where
  refuse statusCode _ h := sendErrorResponseAndClose_within h statusCode
  dispatch request _ h := startOkResponse_within (h.unspent (.countRequest _)) request
  flush h := flushClientOutput_within h
  clock io' h := h.answers io'
  put _ _ _ _ _ h := h.unspent (.of_trace rfl)
  note e he h := h.unspent (by cases e <;> first | exact .log _ rfl rfl | cases he)
  read answer _ hle h := h.readSome _ answer hle
  grow n h := h.unspent (.of_trace rfl)
  release n h := h.unspent (.releaseInflightBytes ..)
  armHeader now h := h.unspent (.armHeaderTimeout ..)
  armBody now contentLength h := h.unspent (.armBodyTimeout ..)
  armIdle now h := h.unspent (.armIdleKeepAliveTimeout ..)
  enqueue h := h.unspent (.enqueueReadyConnection ..)
  poll h := h.unspent (.updateClientPollMask ..)
  close reason _ h := h.unspent (.closeClientConnection ..)
  readFailed _ h := (h.unspent (.recordErrorMetric _)).unspent (.closeClientConnection ..)

/-! ## Handler calls -/

/-- From `s` to `s'` at most one budget is read, and at most one written. -/
structure Affords (s s' : Server) : Prop where
  read : (received s'.trace).length ≤ (received s.trace).length + kMaxReadBytesPerEvent
  written : (accepted .response s'.trace).length ≤
    (accepted .response s.trace).length + kMaxWriteBytesPerEvent

/-- A handler call has one budget of each kind to spend. -/
theorem runHandler_affords {handler : ServerM Unit}
    (h : ∀ r, Within s r → wlp handler (fun _ => Within s) r)
    (hrun : runHandler handler io s = .ok s') : Affords s s' := by
  refine runHandler_keeps (wlp_mono (h _ (.begin s io)) fun _ r' h' => ?_) hrun
  exact ⟨(Nat.le_add_right ..).trans h'.read, (Nat.le_add_right ..).trans h'.written⟩

end WebServer.Kernel
