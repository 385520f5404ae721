import WebServer.Core.Runs
import WebServer.Kernel.Handlers
import WebServer.Refine.Reachable

/-!
# Every reachable state is consistent

Registration and rejection of accepted sockets, timer expiry, and all handler calls.
-/

namespace WebServer.Kernel

open WebServer.Net WebServer.Http WebServer.Core WebServer.Refine LiberalPre

variable {most : Nat} {fd fd' : Fd} {law law' : Law} {c : ClientConnection} {events : List Event}
  {s s' : Server} {r r' : Round}

/-! ## Accepted sockets -/

/-- System calls on `fd` change only what holds of `fd`. -/
theorem Consistent.call (h : Consistent most fd law s)
    (hothers : ∀ x, x ≠ fd → syscalls x events = [])
    (hlaw : ∀ c? events? calls, law c? events? calls →
      law' c? events? (calls ++ syscalls fd events)) :
    Consistent most fd law' (s.log events) := by
  refine ⟨fun hne => ?_, fun x hx hne => ?_, h.listening, h.count, h.metric, h.limit, h.retired⟩
  · show law' (s.find fd) (s.poller.lookup fd) (syscalls fd (s.trace ++ events))
    rw [syscalls_append]
    exact hlaw _ _ _ (h.here hne)
  · show Watched x upToDate (s.find x) (s.poller.lookup x) (syscalls x (s.trace ++ events))
    rw [syscalls_append, hothers x hx, List.append_nil]
    exact h.elsewhere x hx hne

/-- `accept4()` gives out a descriptor that is not open. -/
theorem Consistent.accept (h : Tidy fd s) (hf : s.find fd = none) (peerEndpoint : Bytes) :
    Consistent kMaxConnections fd (Pending .accepted) (s.log [.accepted fd peerEndpoint]) := by
  refine ⟨fun hne => ?_, fun x hx hne => ?_, h.listening, h.count, h.metric, h.limit, h.retired⟩
  · have hold := h.here hne
    rw [hf] at hold
    show Pending .accepted (s.find fd) (s.poller.lookup fd)
      (syscalls fd (s.trace ++ [.accepted fd peerEndpoint]))
    rw [hf, syscalls_append]
    refine ⟨hold.1, ?_⟩
    simpa [syscalls, syscall?] using hold.2.accept
  · show Watched x upToDate (s.find x) (s.poller.lookup x)
      (syscalls x (s.trace ++ [.accepted fd peerEndpoint]))
    rw [syscalls_append]
    simpa [syscalls, syscall?, Ne.symm hx] using h.elsewhere x hx hne

theorem Consistent.refuse (h : Consistent most fd (Pending .accepted) s) (hwrites : Writes fd events) :
    Consistent most fd (Pending .refused) (s.log events) := by
  refine h.call (fun x hx => by rw [syscalls_writes hwrites, if_neg hx]) fun c? events? calls hold => ?_
  rw [syscalls_writes hwrites, if_pos rfl]
  cases c? with
  | none => exact ⟨hold.1, hold.2.refuse _⟩
  | some c => exact hold

/-- The socket of a refused client is closed. -/
theorem Consistent.drop (h : Consistent kMaxConnections fd (Pending .refused) s) :
    Tidy fd (s.log [.closedFd fd]) := by
  refine h.call (fun x hx => ?_) fun c? events? calls hold => ?_
  · simp [syscalls, syscall?, Ne.symm hx]
  · cases c? with
    | none => exact ⟨hold.1, by simpa [syscalls, syscall?] using hold.2.drop⟩
    | some c => exact hold.elim

theorem checkIpRateLimitBeforeRegister_pending (peerEndpoint : Bytes)
    (h : Consistent most fd (Pending .accepted) r.server) :
    wlp (checkIpRateLimitBeforeRegister fd peerEndpoint)
      (fun ok r' => Consistent most fd (Pending (if ok then .accepted else .refused)) r'.server) r := by
  have hbuckets {s : Server} (h : Consistent most fd (Pending .accepted) s) (lru : List LruNode)
      (next : Nat) (buckets : Finmap fun _ : Bytes => IpTokenBucketEntry) :
      Consistent most fd (Pending .accepted)
        { s with ipBucketLru := lru, nextLruAddress := next, ipTokenBuckets := buckets } :=
    h.silent rfl rfl rfl rfl rfl rfl ⟨[], (List.append_nil _).symm, fun _ => rfl⟩
  unfold checkIpRateLimitBeforeRegister
  simp only [wlp_bind, wlp_modifyServer, wlp_get]
  apply wlp_steadyClockNow
  intro now io
  have hfound : Consistent most fd (Pending .accepted) (findOrCreateIpBucket
      (extractIpFromPeerEndpoint peerEndpoint) now (cleanupExpiredIpBuckets now r.server)) := by
    unfold findOrCreateIpBucket
    split
    · exact hbuckets h ..
    · exact hbuckets h ..
  generalize Finmap.lookup _ (Server.ipTokenBuckets _) = found
  cases found with
  | none =>
    have hnone : Writes fd [] := fun _ he => absurd he List.not_mem_nil
    have hrefused := hfound.refuse hnone
    rw [log_nil] at hrefused
    exact (wlp_pure ..).mpr hrefused
  | some bucket =>
    simp only [wlp_ite, wlp_bind, wlp_modifyServer, wlp_pure]
    refine ⟨fun _ => wlp_writeErrorResponse fun ok events io hwrites => ?_, fun _ => ?_⟩
    · exact (hfound.recordRejectMetric 429).recordErrorMetric.refuse hwrites
    · exact hbuckets hfound ..

theorem enforceConnectionLimitAfterRegister_tidy
    (h : Consistent (kMaxConnections + 1) fd (Watched fd upToDate) s) (hf : s.find fd = some c) :
    Tidy fd (enforceConnectionLimitAfterRegister fd s) := by
  unfold enforceConnectionLimitAfterRegister
  rw [hf]
  dsimp only
  rw [if_neg (by simp [(h.owns hf).1])]
  split
  · rename_i hroom
    exact { h with limit := hroom }
  · refine @Consistent.close (kMaxConnections + 1) fd upToDate upToDate c _ ?_ ?_ _ _ ?_
    · exact .recordErrorMetric
        (h.silent rfl rfl rfl rfl rfl rfl ⟨[], (List.append_nil _).symm, fun _ => rfl⟩)
    · exact hf
    · exact h.limit

/-- The new entry of `clients_`, its place in epoll and the count of connections. -/
theorem Consistent.register (h : Consistent kMaxConnections fd (Pending .accepted) s)
    (hf : s.find fd = none) (hne : fd ≠ s.listenFd) (hc : c.closing = false ∧ c.socket = some fd)
    (hout : c.outputBuffer = []) (hclients : s'.clients = s.clients.insert fd c)
    (hpoller : s'.poller = s.poller.insert fd { epollin := true, epollrdhup := true })
    (hcount : s'.activeConnectionCount = s.activeConnectionCount + 1)
    (hmetric : s'.metrics.connsCurrent = s'.activeConnectionCount)
    (hlisten : s'.listenFd = s.listenFd) (hretired : s'.pendingCloseQueue = s.pendingCloseQueue)
    (htrace : ∃ events, s'.trace = s.trace ++ [.epollCtl .add fd events]) :
    Consistent (kMaxConnections + 1) fd (Watched fd upToDate) s' := by
  obtain ⟨events, htrace⟩ := htrace
  have hself : s'.find fd = some c := by
    rw [Server.find, hclients]
    exact Finmap.lookup_insert ..
  have hfind (x : Fd) (hx : x ≠ fd) : s'.find x = s.find x := by
    rw [Server.find, hclients]
    exact Finmap.lookup_insert_of_ne _ hx
  have hkeys : s'.clients.keys = insert fd s.clients.keys := by
    ext x
    rw [hclients, Finset.mem_insert, Finmap.mem_keys, Finmap.mem_keys, Finmap.mem_insert]
  have hpending := h.here hne
  rw [hf] at hpending
  refine ⟨fun _ => ?_, fun x hx hne' => ?_, ?_, ?_, hmetric, ?_, ?_⟩
  · rw [hself, hpoller, htrace, Finmap.lookup_insert, syscalls_append]
    refine ⟨hc, ⟨false, rfl, by simp [upToDate, hout]⟩, ?_⟩
    simpa [syscalls, syscall?] using hpending.2.add
  · rw [hlisten] at hne'
    rw [hfind x hx, hpoller, htrace, Finmap.lookup_insert_of_ne _ hx, syscalls_append]
    simpa [syscalls, syscall?, Ne.symm hx] using h.elsewhere x hx hne'
  · rw [hlisten, hfind _ (Ne.symm hne)]
    exact h.listening
  · rw [hcount, hkeys, Finset.card_insert_of_notMem, h.count]
    rw [Finmap.mem_keys]
    exact Finmap.lookup_eq_none.mp hf
  · rw [hcount]
    exact Nat.succ_le_succ h.limit
  · rw [hretired]
    exact h.retired

/-- The server with a new entry for `fd`, before its timer is armed. -/
def enrolled (fd : Fd) (peerEndpoint : Bytes) (s : Server) : Server :=
  let events : EpollEvents := { epollin := true, epollrdhup := true }
  let added : Server := { s.log [.epollCtl .add fd events] with
    nextConnectionId := s.nextConnectionId + 1, poller := s.poller.insert fd events }
  setActiveConnectionCount (s.activeConnectionCount + 1)
    (added.put fd { socket := some fd, peerEndpoint, connectionId := s.nextConnectionId })

theorem registerClient_eq (hf : s.find fd = none) (peerEndpoint : Bytes) (now : Time) :
    registerClient fd peerEndpoint now s =
      enforceConnectionLimitAfterRegister fd
        (armHeaderTimeout fd now (enrolled fd peerEndpoint s)) := by
  let connection : ClientConnection :=
    { socket := some fd, peerEndpoint, connectionId := s.nextConnectionId }
  let events : EpollEvents := { epollin := true, epollrdhup := true }
  let added : Server := { s.log [.epollCtl .add fd events] with
    nextConnectionId := s.nextConnectionId + 1, poller := s.poller.insert fd events }
  have hadded : added.find fd = none := hf
  have hemplace : emplaceClient fd connection added = added.put fd connection := by
    rw [emplaceClient, hadded]
  show enforceConnectionLimitAfterRegister fd (armHeaderTimeout fd now (setActiveConnectionCount
    ((emplaceClient fd connection added).activeConnectionCount + 1)
    (emplaceClient fd connection added))) = _
  rw [hemplace]
  rfl

theorem registerClient_tidy (h : Consistent kMaxConnections fd (Pending .accepted) s)
    (hf : s.find fd = none) (hne : fd ≠ s.listenFd) (peerEndpoint : Bytes) (now : Time) :
    Tidy fd (registerClient fd peerEndpoint now s) := by
  let connection : ClientConnection :=
    { socket := some fd, peerEndpoint, connectionId := s.nextConnectionId }
  have henrolled : Consistent (kMaxConnections + 1) fd (Watched fd upToDate)
      (enrolled fd peerEndpoint s) :=
    h.register (c := connection) hf hne ⟨rfl, rfl⟩ rfl rfl rfl rfl rfl rfl rfl
      ⟨{ epollin := true, epollrdhup := true }, rfl⟩
  have hf' : (enrolled fd peerEndpoint s).find fd = some connection := find_put ..
  rw [registerClient_eq hf]
  exact enforceConnectionLimitAfterRegister_tidy (henrolled.armHeaderTimeout now)
    (Moves.armHeader hf' rfl now).find_self

theorem registerAcceptedConnection_tidy (h : Consistent kMaxConnections fd (Pending .accepted) r.server)
    (hf : r.server.find fd = none) (hne : fd ≠ r.server.listenFd) (peerEndpoint : Bytes) :
    wlp (registerAcceptedConnection fd peerEndpoint) (fun _ r' => Tidy fd r'.server) r := by
  unfold registerAcceptedConnection
  rw [wlp_bind]
  refine wlp_mono (wlp_and (checkIpRateLimit_spec fd peerEndpoint)
    (checkIpRateLimitBeforeRegister_pending peerEndpoint h)) fun ok r' ⟨hsame, h'⟩ => ?_
  cases ok with
  | false =>
    simp only [Bool.not_false, if_true, wlp_bind, wlp_modifyServer, wlp_pure]
    exact h'.drop
  | true =>
    simp only [Bool.not_true, Bool.false_eq_true, if_false, wlp_bind, wlp_modifyServer]
    apply wlp_steadyClockNow
    intro now io
    refine registerClient_tidy h' ?_ ?_ peerEndpoint now
    · rw [Server.find, hsame.clients]
      exact hf
    · rw [hsame.listenFd]
      exact hne

/-- The loop of `DrainAcceptQueue`. -/
theorem drainAcceptQueue_tidy (answers : List AcceptResult) (h : ∀ fd, Tidy fd r.server) :
    wlp (drainAcceptQueue answers) (fun _ r' => ∀ fd, Tidy fd r'.server) r := by
  induction answers generalizing r with
  | nil => exact (wlp_pure ..).mpr h
  | cons answer answers ih =>
    match answer with
    | .failed errno =>
      cases errno with
      | eagain | eintr => exact (wlp_pure ..).mpr h
      | econnaborted | emfile | enfile | other => exact (wlp_throw ..).mpr trivial
    | .accepted fd peerEndpoint =>
      unfold drainAcceptQueue
      simp only [wlp_bind, wlp_get, wlp_ite, wlp_modifyServer]
      refine ⟨fun _ => ih h, fun hopen => ?_⟩
      simp only [Bool.or_eq_true, decide_eq_true_eq, not_or, Bool.not_eq_true,
        Option.isSome_eq_false_iff, Option.isNone_iff_eq_none] at hopen
      obtain ⟨hf, hne⟩ := hopen
      have haccepted := Consistent.accept (h fd) hf peerEndpoint
      have hcounted : Consistent kMaxConnections fd (Pending .accepted)
          (countAccept (r.server.log [.accepted fd peerEndpoint])) :=
        haccepted.silent rfl rfl rfl rfl rfl rfl ⟨[], (List.append_nil _).symm, fun _ => rfl⟩
      refine wlp_mono (registerAcceptedConnection_tidy ?_ ?_ ?_ peerEndpoint) fun _ r' h' =>
        ih fun _ => h'.atRest
      · exact hcounted
      · exact hf
      · exact hne

/-! ## Handler calls -/

theorem runHandler_keeps {handler : ServerM Unit} {io : Io} {P : Server → Prop}
    (h : wlp handler (fun _ r' => P r'.server) { server := s, io := io })
    (hrun : runHandler handler io s = .ok s') : P s' := by
  unfold runHandler at hrun
  cases e : handler { server := s, io := io } with
  | error fault =>
    rw [e] at hrun
    cases hrun
  | ok result =>
    rw [e] at hrun
    cases hrun
    exact h _ _ e

theorem handlePollEvent_tidy (h : ∀ fd, Tidy fd s) (event : PollEvent) (io : Io) :
    wlp (handlePollEvent event) (fun _ r' => ∀ fd, Tidy fd r'.server) { server := s, io := io } := by
  unfold handlePollEvent
  simp only [wlp_bind, wlp_get, wlp_ite]
  refine ⟨fun _ => ?_, fun _ => ?_⟩
  · unfold handleListenEvent
    simp only [wlp_ite, wlp_pure, wlp_bind, wlp_get]
    exact ⟨fun _ => h, fun _ => drainAcceptQueue_tidy _ h⟩
  · rw [wlp_findClient]
    cases s.find event.fd with
    | none => exact (wlp_pure ..).mpr h
    | some c =>
      simp only [wlp_ite, wlp_pure]
      refine ⟨fun _ => h, fun _ => ?_⟩
      exact wlp_mono (handleClientEvent_tidy (h event.fd) event.events) fun _ _ h' _ => h'.atRest

theorem readyTurn_tidy (h : ∀ fd, Tidy fd s) (io : Io) (hturn : readyTurn io s = .ok s') :
    ∀ fd, Tidy fd s' := by
  unfold readyTurn at hturn
  cases hq : s.readyQueue with
  | nil =>
    rw [hq] at hturn
    cases hturn
  | cons fd queue =>
    rw [hq] at hturn
    have hpopped : Tidy fd { s with readyQueue := queue } :=
      (h fd).silent rfl rfl rfl rfl rfl rfl ⟨[], (List.append_nil _).symm, fun _ => rfl⟩
    dsimp only at hturn
    cases hf : Server.find { s with readyQueue := queue } fd with
    | none =>
      rw [hf] at hturn
      cases hturn
      exact fun _ => hpopped.atRest
    | some c =>
      rw [hf] at hturn
      dsimp only at hturn
      rw [if_neg (by simp [(hpopped.owns hf).1])] at hturn
      refine runHandler_keeps (P := fun s => ∀ fd, Tidy fd s) ?_ hturn
      have hput : Tidy fd (Server.put _ fd { c with inReadyQueue := false }) :=
        hpopped.put hf rfl rfl fun _ => id
      exact wlp_mono (continueReadyConnection_tidy hput) fun _ _ h' _ => h'.atRest

theorem expireTimer_tidy (h : ∀ fd, Tidy fd s) (timer : TimerEntry) :
    ∀ fd, Tidy fd (expireTimer timer s) := by
  unfold expireTimer
  cases hf : s.find timer.fd with
  | none => exact h
  | some c =>
    dsimp only
    split
    · exact h
    split
    · exact h
    split
    · exact h
    have hput : Tidy timer.fd (s.put timer.fd (c.disarm timer.kind)) :=
      (h timer.fd).put hf rfl rfl fun _ => id
    have hcounted : Tidy timer.fd (countTimeout (s.put timer.fd (c.disarm timer.kind))) :=
      hput.recordErrorMetric.silent rfl rfl rfl rfl rfl rfl
        ⟨[], (List.append_nil _).symm, fun _ => rfl⟩
    exact fun _ => (hcounted.closeClientConnection _).atRest

theorem expireLoop_tidy (now : Time) (turns : Nat) (ties : List Nat) (h : ∀ fd, Tidy fd s) :
    ∀ fd, Tidy fd (expireLoop now turns ties s) := by
  induction turns generalizing s ties with
  | zero => exact h
  | succ turns ih =>
    unfold expireLoop
    split
    · exact h
    · split
      · refine ih _ (expireTimer_tidy (fun fd => ?_) _)
        exact (h fd).silent rfl rfl rfl rfl rfl rfl ⟨[], (List.append_nil _).symm, fun _ => rfl⟩
      · exact h

theorem tidy_initializeServer (listenFd fd : Fd) : Tidy fd (initializeServer listenFd) := by
  have hfree (x : Fd) (hne : x ≠ listenFd) : Watched x upToDate
      ((initializeServer listenFd).find x) ((initializeServer listenFd).poller.lookup x)
      (syscalls x (initializeServer listenFd).trace) :=
    ⟨Finmap.lookup_eq_none.mpr (mt (Finmap.mem_singleton ..).mp hne), .nil⟩
  exact ⟨hfree fd, fun x _ => hfree x, rfl, rfl, rfl, Nat.zero_le _,
    fun _ hc => absurd hc List.not_mem_nil⟩

theorem runCall_tidy (call : Call) (h : ∀ fd, Tidy fd s) (hcall : runCall call s = .ok s') :
    ∀ fd, Tidy fd s' := by
  cases call with
  | ready io => exact readyTurn_tidy h io hcall
  | event event io =>
    exact runHandler_keeps (P := fun s => ∀ fd, Tidy fd s) (handlePollEvent_tidy h event io) hcall
  | expire now turns ties =>
    cases hcall
    exact expireLoop_tidy now turns ties h
  | flushClosed =>
    cases hcall
    exact fun fd => ⟨(h fd).here, (h fd).elsewhere, (h fd).listening, (h fd).count, (h fd).metric,
      (h fd).limit, fun _ hc => absurd hc List.not_mem_nil⟩

theorem tidy_of_reachable (h : Reachable s) : ∀ fd, Tidy fd s :=
  h.induct tidy_initializeServer fun _ _ call hs hcall => runCall_tidy call hs hcall

end WebServer.Kernel
