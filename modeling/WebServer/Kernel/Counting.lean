import WebServer.Kernel.Counters
import WebServer.Kernel.Runs

/-!
# The handlers keep the books

Between two handler calls everything that was counted has happened.
-/

namespace WebServer.Kernel

open WebServer.Net WebServer.Http WebServer.Core WebServer.Life WebServer.Refine LiberalPre

variable {accepts errors requests : Nat} {fd : Fd} {c : ClientConnection} {s s' : Server}
  {r r' : Round}

/-- Nothing is counted ahead. -/
abbrev Squared (s : Server) : Prop := Books 0 0 0 s

theorem Writes.uncounted {events : List Event} (h : Writes fd events) :
    ∀ e ∈ events, isCounted e = false := by
  intro e he
  obtain ⟨writer, life, data, answer, rfl⟩ := h e he
  rfl

/-! ## Output -/

theorem sendErrorResponseAndClose_books (h : Books accepts errors requests r.server)
    {statusCode : Nat} (hstatus : statusCode ∈ errorStatuses) :
    wlp (sendErrorResponseAndClose fd statusCode)
      (fun _ r' => Books accepts errors requests r'.server) r := by
  unfold sendErrorResponseAndClose
  simp only [wlp_bind, wlp_findClient]
  cases r.server.find fd with
  | none => exact (wlp_pure ..).mpr h
  | some c =>
    simp only [wlp_bind, wlp_modifyServer]
    apply wlp_writeErrorResponse
    intro ok events io hwrites
    exact ((h.refuse c hstatus).note hwrites.uncounted).closeClientConnection fd _ (by simp)

theorem tryReserveInflightBytes_books (h : Squared r.server) (growth : Growth) (addBytes : Nat) :
    wlp (tryReserveInflightBytes fd growth addBytes) (fun _ r' => Squared r'.server) r := by
  unfold tryReserveInflightBytes
  simp only [wlp_bind, wlp_ite, wlp_pure, wlp_get, wlp_modifyServer]
  have hasked : Squared (r.server.log
      [.reserved (r.server.find fd) growth addBytes r.server.globalInflightBytes]) :=
    h.note (by simp [isCounted, isClosed, isBadRequest, isDispatched])
  exact ⟨fun _ => h, fun _ =>
    ⟨fun _ => sendErrorResponseAndClose_books hasked (by decide), fun _ => hasked⟩⟩

theorem appendToOutputBuffer_books (h : Squared r.server) (data : Bytes) :
    wlp (appendToOutputBuffer fd data) (fun _ r' => Squared r'.server) r := by
  unfold appendToOutputBuffer
  simp only [wlp_bind, wlp_ite, wlp_pure, wlp_modifyServer]
  refine ⟨fun _ => h, fun _ =>
    wlp_mono (tryReserveInflightBytes_books h _ _) fun ok r' h' => ⟨fun _ => h', fun _ => ?_⟩⟩
  refine .growInflight ?_ _
  exact h'.update fd _ fun _ => rfl

theorem replaceOutputBuffer_books (h : Squared r.server) (connection : ClientConnection)
    (data : Bytes) :
    wlp (replaceOutputBuffer fd connection data) (fun _ r' => Squared r'.server) r := by
  unfold replaceOutputBuffer
  simp only [wlp_bind, wlp_ite, wlp_pure, wlp_modifyServer, wlp_subSize]
  have hstored {s : Server} (h : Squared s) :
      Squared (s.update fd fun c => { c with outputBuffer := data }) := h.update fd _ fun _ => rfl
  refine ⟨fun _ _ => wlp_mono (tryReserveInflightBytes_books h _ _) fun ok r' h' => ?_, fun _ _ => ?_⟩
  · exact ⟨fun _ => h', fun _ => (hstored h').growInflight _⟩
  · exact (hstored h).releaseInflightBytes _

/-- A request that has been counted is answered, as its connection is there. -/
theorem startOkResponse_books (h : Books 0 0 1 r.server) (hf : r.server.find fd = some c)
    (request : HttpRequest) :
    wlp (startOkResponse fd request) (fun _ r' => Squared r'.server) r := by
  unfold startOkResponse
  have hcl := h.opened fd c hf
  simp only [wlp_bind, wlp_findClient, hf, hcl, Bool.false_eq_true, if_false, wlp_ite, wlp_pure,
    wlp_modifyServer, wlp_get]
  generalize (shouldKeepAlive request && !c.closeAfterWrite) = keepAlive
  have hresponds : Books 0 0 1 (r.server.put fd (c.respond keepAlive)) := h.put hf rfl
  have hdispatched : Squared ((r.server.put fd (c.respond keepAlive)).log
      [.dispatched c request keepAlive]) := hresponds.dispatch c request keepAlive
  have hf' : ((r.server.put fd (c.respond keepAlive)).log
      [.dispatched c request keepAlive]).find fd = some (c.respond keepAlive) := find_put ..
  refine ⟨fun _ => ?_, fun _ => ⟨fun _ => ?_, fun _ => ?_⟩⟩
  · exact wlp_mono (appendToOutputBuffer_books hdispatched _) fun _ _ h' =>
      ⟨fun _ => h', fun _ => h'.updateClientPollMask fd⟩
  · exact wlp_mono (replaceOutputBuffer_books hdispatched _ _) fun _ _ h' =>
      ⟨fun _ => h', fun _ => h'.updateClientPollMask fd⟩
  · apply wlp_writeResponse
    intro outcome events io hwrites
    have hwritten := hdispatched.note hwrites.uncounted
    cases outcome with
    | error errno =>
      simp only [wlp_bind, wlp_modifyServer]
      exact hwritten.recordErrorMetric.closeFailed hf' (.inr rfl)
    | ok written =>
      simp only [wlp_bind, wlp_subSize, wlp_modify, wlp_ite, wlp_pure, wlp_modifyServer]
      refine fun _ => ⟨fun _ => hwritten, fun _ => ?_⟩
      exact wlp_mono (replaceOutputBuffer_books hwritten _ _) fun _ _ h' =>
        ⟨fun _ => h', fun _ => h'.updateClientPollMask fd⟩

theorem finishFlush_books (h : Squared r.server) (connection : ClientConnection) :
    wlp (finishFlush fd connection) (fun _ r' => Squared r'.server) r := by
  have hdrained : Squared (r.server.log [.drained connection]) :=
    h.note (by simp [isCounted, isClosed, isBadRequest, isDispatched])
  have hpolled := hdrained.updateClientPollMask fd
  unfold finishFlush
  simp only [wlp_bind, wlp_ite, wlp_modifyServer, wlp_pure]
  refine ⟨fun _ => hpolled.enqueueReadyConnection fd, fun _ =>
    ⟨fun _ => hpolled.enqueueReadyConnection fd, fun _ =>
      ⟨fun _ => hdrained.closeClientConnection fd _ (by simp), fun _ =>
        ⟨fun _ => wlp_steadyClockNow fun now io => ?_, fun _ => hpolled⟩⟩⟩⟩
  exact (hdrained.armIdleKeepAliveTimeout fd now).updateClientPollMask fd

theorem flushLoop_books (turns : Nat) (h : Squared r.server) :
    wlp (flushLoop fd turns) (fun _ r' => Squared r'.server) r := by
  induction turns generalizing r with
  | zero => exact (wlp_pure ..).mpr h
  | succ turns ih =>
    unfold flushLoop
    simp only [wlp_bind, wlp_findClient]
    cases hf : r.server.find fd with
    | none => exact (wlp_pure ..).mpr h
    | some c =>
      simp only [wlp_ite, wlp_bind, wlp_pure, wlp_get, wlp_modifyServer]
      refine ⟨fun _ => h, fun _ => ⟨fun _ => finishFlush_books h c, fun _ =>
        ⟨fun _ => h.updateClientPollMask fd, fun _ => ?_⟩⟩⟩
      apply wlp_writeResponse
      intro outcome events io hwrites
      have hwritten := h.note hwrites.uncounted
      cases outcome with
      | error errno =>
        simp only [wlp_bind, wlp_modifyServer]
        exact hwritten.recordErrorMetric.closeFailed (c := c) hf (.inr rfl)
      | ok written =>
        cases written with
        | zero => exact (wlp_pure ..).mpr hwritten
        | succ n =>
          simp only [wlp_bind, wlp_subSize, wlp_modify, wlp_modifyServer]
          refine fun _ => ih (.releaseInflightBytes ?_ _)
          exact hwritten.update fd _ fun _ => rfl

theorem flushClientOutput_books (h : Squared r.server) :
    wlp (flushClientOutput fd) (fun _ r' => Squared r'.server) r := by
  unfold flushClientOutput
  simp only [wlp_bind, wlp_findClient]
  cases r.server.find fd with
  | none => exact (wlp_pure ..).mpr h
  | some c => exact flushLoop_books _ h

/-! ## The handlers of a registered connection -/

theorem squared_kept (fd : Fd) : Kept fd Squared where
  refuse _ hstatus h := sendErrorResponseAndClose_books h hstatus
  dispatch {r} request hopen h := by
    obtain ⟨c, hf⟩ := Option.isSome_iff_exists.mp hopen
    exact startOkResponse_books (r := { r with server := countRequest r.server })
      (Books.countRequest h) (c := c) hf request
  flush h := flushClientOutput_books h
  put _ hf _ hclosing _ h := h.put hf hclosing
  note e he h := h.note fun e' he' => by
    obtain rfl := List.mem_singleton.mp he'
    cases e' <;> first | rfl | cases he
  read _ _ h := h.note (by simp [isCounted, isClosed, isBadRequest, isDispatched])
  grow n h := h.growInflight n
  release n h := h.releaseInflightBytes n
  armHeader now h := h.armHeaderTimeout fd now
  armBody now contentLength h := h.armBodyTimeout fd now contentLength
  armIdle now h := h.armIdleKeepAliveTimeout fd now
  enqueue h := h.enqueueReadyConnection fd
  poll h := h.updateClientPollMask fd
  close reason hreason h := h.closeClientConnection fd reason hreason
  readFailed hf h := h.recordErrorMetric.closeFailed (s := Core.recordErrorMetric _) hf (.inl rfl)

/-! ## Accepted sockets -/

/-- Looking for a bucket leaves one behind. -/
theorem lookup_findOrCreateIpBucket (ip : Bytes) (now : Time) (s : Server) :
    ∃ bucket, (findOrCreateIpBucket ip now s).ipTokenBuckets.lookup ip = some bucket := by
  unfold findOrCreateIpBucket
  cases s.ipTokenBuckets.lookup ip with
  | none => exact ⟨_, Finmap.lookup_insert ..⟩
  | some bucket => exact ⟨_, Finmap.lookup_insert ..⟩

theorem checkIpRateLimitBeforeRegister_books (peerEndpoint : Bytes) (h : Books 1 0 0 r.server) :
    wlp (checkIpRateLimitBeforeRegister fd peerEndpoint)
      (fun ok r' => Books (if ok then 1 else 0) 0 0 r'.server) r := by
  have hbuckets {s : Server} (h : Books 1 0 0 s) (lru : List LruNode) (next : Nat)
      (buckets : Finmap fun _ : Bytes => IpTokenBucketEntry) :
      Books 1 0 0 { s with ipBucketLru := lru, nextLruAddress := next, ipTokenBuckets := buckets } :=
    h.uncounted (.beside rfl rfl rfl rfl rfl (silent_nil _))
  unfold checkIpRateLimitBeforeRegister
  simp only [wlp_bind, wlp_modifyServer, wlp_get]
  apply wlp_steadyClockNow
  intro now io
  have hfound : Books 1 0 0 (findOrCreateIpBucket
      (extractIpFromPeerEndpoint peerEndpoint) now (cleanupExpiredIpBuckets now r.server)) := by
    unfold findOrCreateIpBucket
    split
    · exact hbuckets h ..
    · exact hbuckets h ..
  obtain ⟨bucket, hlookup⟩ := lookup_findOrCreateIpBucket
    (extractIpFromPeerEndpoint peerEndpoint) now (cleanupExpiredIpBuckets now r.server)
  rw [hlookup]
  simp only [wlp_ite, wlp_bind, wlp_modifyServer, wlp_pure]
  refine ⟨fun _ => wlp_writeErrorResponse fun ok events io hwrites => ?_, fun _ => ?_⟩
  · exact hfound.refuseAccepted.note hwrites.uncounted
  · exact hbuckets hfound ..

/-- The close of the connection that is one too many is an error and a rejection of its own. -/
theorem enforceConnectionLimitAfterRegister_books (h : Squared s) (fd : Fd) :
    Squared (enforceConnectionLimitAfterRegister fd s) := by
  unfold enforceConnectionLimitAfterRegister
  cases s.find fd with
  | none => exact h
  | some c =>
    dsimp only
    split
    · exact h
    split
    · exact h
    apply Books.closeClientConnection
    · have hrejected := h.rejected
      have herred := h.erred
      have hreject := h.connRejected
      refine { h with rejected := ?_, erred := ?_, connRejected := ?_ }
      all_goals
        simp only [recordErrorMetric]
        omega
    · simp

theorem registerClient_books (h : Books 1 0 0 s) (hf : s.find fd = none) (peerEndpoint : Bytes)
    (now : Time) : Squared (registerClient fd peerEndpoint now s) := by
  rw [registerClient_eq hf]
  refine enforceConnectionLimitAfterRegister_books (.armHeaderTimeout ?_ fd now) fd
  have hkeys (c : ClientConnection) :
      (s.clients.insert fd c).keys = insert fd s.clients.keys := by
    ext x
    rw [Finset.mem_insert, Finmap.mem_keys, Finmap.mem_keys, Finmap.mem_insert]
  have hquiet {p : Event → Bool} (hp : ∀ e, p e = true → isCounted e = true) :
      (enrolled fd peerEndpoint s).trace.countP p = s.trace.countP p :=
    countP_append_uncounted hp (by simp [isCounted, isClosed, isBadRequest, isDispatched]) _
  have hconnected := h.connected
  have hmetric := h.metric
  have haccepted := h.accepted
  refine ⟨fun fd' d hd => ?_, ?_, rfl, ?_, ?_, ?_, ?_, h.connRejected, ?_⟩
  · by_cases hne : fd' = fd
    · subst hne
      rw [enrolled, Server.find] at hd
      cases hd.symm.trans (Finmap.lookup_insert _)
      rfl
    · exact h.opened fd' d ((Finmap.lookup_insert_of_ne _ hne).symm.trans hd)
  · show s.activeConnectionCount + 1 = (s.clients.insert fd _).keys.card
    rw [hkeys, Finset.card_insert_of_notMem, h.count]
    rw [Finmap.mem_keys]
    exact Finmap.lookup_eq_none.mp hf
  · show s.metrics.acceptTotal + 1 = s.metrics.reject429Total + (s.nextConnectionId + 1) + 0
    omega
  · rw [hquiet isClosed_le]
    show s.nextConnectionId + 1 = (s.activeConnectionCount + 1) + s.trace.countP isClosed + 1
    omega
  · rw [hquiet isBadRequest_le]
    exact h.rejected
  · rw [hquiet isFailure_le]
    exact h.erred
  · rw [hquiet isDispatched_le]
    exact h.requested

theorem registerAcceptedConnection_books (h : Books 1 0 0 r.server) (hf : r.server.find fd = none)
    (peerEndpoint : Bytes) :
    wlp (registerAcceptedConnection fd peerEndpoint) (fun _ r' => Squared r'.server) r := by
  unfold registerAcceptedConnection
  rw [wlp_bind]
  refine wlp_mono (wlp_and (checkIpRateLimit_spec fd peerEndpoint)
    (checkIpRateLimitBeforeRegister_books peerEndpoint h)) fun ok r' hboth => ?_
  obtain ⟨hsame, h'⟩ := hboth
  cases ok with
  | false =>
    simp only [Bool.not_false, if_true, wlp_bind, wlp_modifyServer, wlp_pure]
    exact h'.note (by simp [isCounted, isClosed, isBadRequest, isDispatched])
  | true =>
    simp only [Bool.not_true, Bool.false_eq_true, if_false, wlp_bind, wlp_modifyServer]
    refine wlp_steadyClockNow fun now io => registerClient_books h' ?_ peerEndpoint now
    rw [Server.find, hsame.clients]
    exact hf

theorem drainAcceptQueue_books (answers : List AcceptResult) (h : Squared r.server) :
    wlp (drainAcceptQueue answers) (fun _ r' => Squared r'.server) r := by
  induction answers generalizing r with
  | nil => exact (wlp_pure ..).mpr h
  | cons answer answers ih =>
    cases answer with
    | failed errno =>
      cases errno with
      | eagain | eintr => exact (wlp_pure ..).mpr h
      | econnaborted | emfile | enfile | other => exact (wlp_throw ..).mpr trivial
    | accepted fd peerEndpoint =>
      unfold drainAcceptQueue
      simp only [wlp_bind, wlp_get, wlp_ite, wlp_modifyServer]
      refine ⟨fun _ => ih h, fun hopen => ?_⟩
      simp only [Bool.or_eq_true, decide_eq_true_eq, not_or, Bool.not_eq_true,
        Option.isSome_eq_false_iff, Option.isNone_iff_eq_none] at hopen
      have hlogged : Squared (r.server.log [.accepted fd peerEndpoint]) :=
        h.note (by simp [isCounted, isClosed, isBadRequest, isDispatched])
      refine wlp_mono (registerAcceptedConnection_books ?_ ?_ peerEndpoint) fun _ r' h' => ih h'
      · exact hlogged.countAccept
      · exact hopen.1

/-! ## Handler calls -/

theorem handlePollEvent_books (h : Squared s) (event : PollEvent) (io : Io) :
    wlp (handlePollEvent event) (fun _ r' => Squared r'.server) { server := s, io := io } := by
  unfold handlePollEvent
  simp only [wlp_bind, wlp_get, wlp_ite]
  refine ⟨fun _ => ?_, fun _ => ?_⟩
  · unfold handleListenEvent
    simp only [wlp_ite, wlp_pure, wlp_bind, wlp_get]
    exact ⟨fun _ => h, fun _ => drainAcceptQueue_books _ h⟩
  · rw [wlp_findClient]
    cases s.find event.fd with
    | none => exact (wlp_pure ..).mpr h
    | some c =>
      simp only [wlp_ite, wlp_pure]
      exact ⟨fun _ => h, fun _ => (squared_kept event.fd).handleClientEvent h event.events⟩

theorem readyTurn_books (h : Squared s) (io : Io) (hturn : readyTurn io s = .ok s') : Squared s' := by
  unfold readyTurn at hturn
  cases hq : s.readyQueue with
  | nil =>
    rw [hq] at hturn
    cases hturn
  | cons fd queue =>
    rw [hq] at hturn
    have hpopped : Squared { s with readyQueue := queue } :=
      h.uncounted (.beside rfl rfl rfl rfl rfl (silent_nil _))
    dsimp only at hturn
    cases hf : Server.find { s with readyQueue := queue } fd with
    | none =>
      rw [hf] at hturn
      cases hturn
      exact hpopped
    | some c =>
      rw [hf] at hturn
      dsimp only at hturn
      rw [if_neg (by simp [hpopped.opened fd c hf])] at hturn
      refine runHandler_keeps ((squared_kept fd).continueReadyConnection ?_) hturn
      exact hpopped.put hf rfl

theorem expireTimer_books (h : Squared s) (timer : TimerEntry) : Squared (expireTimer timer s) := by
  unfold expireTimer
  cases hf : s.find timer.fd with
  | none => exact h
  | some c =>
    dsimp only
    split
    · exact h
    split
    · exact h
    split
    · exact h
    have hput : Squared (s.put timer.fd (c.disarm timer.kind)) := h.put hf rfl
    exact hput.countTimeout.closeClientConnection timer.fd _ (by simp)

theorem expireLoop_books (now : Time) (turns : Nat) (ties : List Nat) (h : Squared s) :
    Squared (expireLoop now turns ties s) := by
  induction turns generalizing s ties with
  | zero => exact h
  | succ turns ih =>
    unfold expireLoop
    split
    · exact h
    · split
      · refine ih _ (expireTimer_books ?_ _)
        exact h.uncounted (.beside rfl rfl rfl rfl rfl (silent_nil _))
      · exact h

theorem runCall_books (call : Call) (h : Squared s) (hcall : runCall call s = .ok s') :
    Squared s' := by
  cases call with
  | ready io => exact readyTurn_books h io hcall
  | event event io => exact runHandler_keeps (handlePollEvent_books h event io) hcall
  | expire now turns ties =>
    cases hcall
    exact expireLoop_books now turns ties h
  | flushClosed =>
    cases hcall
    exact h.uncounted (.beside rfl rfl rfl rfl rfl (silent_nil _))

theorem squared_of_reachable (h : Reachable s) : Squared s :=
  h.induct Books.initial fun _ _ call hs hcall => runCall_books call hs hcall

end WebServer.Kernel
