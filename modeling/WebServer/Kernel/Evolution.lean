import WebServer.Kernel.Primitives
import WebServer.Kernel.Readings

/-!
# Every call is a chain of primitives

Accepted sockets, timer expiry, the turns of the ReadyQueue and poll events.
-/

namespace WebServer.Kernel

open WebServer.Net WebServer.Http WebServer.Core WebServer.Life WebServer.Refine LiberalPre
  TimedSteps

variable {fd : Fd} {c : ClientConnection} {peerEndpoint : Bytes} {events writes : List Event}
  {t t' : Time} {s s' s'' : Server} {budget : EventBudget} {io : Io} {r r' : Round}

/-! ## Accepted sockets -/

/-- The round has come to a socket that is accepted and not yet registered. -/
def Opened (t : Time) (s : Server) (fd : Fd) (peerEndpoint : Bytes) (writes : List Event)
    (r : Round) : Prop :=
  ∃ before, Evolves t s r.io.now before ∧ Accepted fd peerEndpoint writes before r.server

theorem Accepted.begin (hfree : s.find fd = none) (hne : fd ≠ s.listenFd) (peerEndpoint : Bytes) :
    Accepted fd peerEndpoint [] s (countAccept (s.log [.accepted fd peerEndpoint])) :=
  ⟨hfree, hne, rfl, .countAccept _, fun _ he => absurd he List.not_mem_nil⟩

/-- The buckets and the totals may change. -/
theorem Accepted.change (h : Accepted fd peerEndpoint writes s s')
    (hs : s'' = { s' with
      metrics := s''.metrics
      ipBucketLru := s''.ipBucketLru
      nextLruAddress := s''.nextLruAddress
      ipTokenBuckets := s''.ipTokenBuckets })
    (hcounts : Counts s'.metrics s''.metrics) : Accepted fd peerEndpoint writes s s'' := by
  refine ⟨h.free, h.notListening, ?_, h.counts.trans hcounts, h.writes⟩
  have hapart := h.apart
  rw [hs, hapart]

theorem Accepted.write (h : Accepted fd peerEndpoint [] s s') (hwrites : Writes fd events) :
    Accepted fd peerEndpoint events s (s'.log events) := by
  refine ⟨h.free, h.notListening, ?_, h.counts, hwrites⟩
  have hapart := h.apart
  rw [Server.log, hapart]
  simp

/-- Looking for a bucket changes the buckets only. -/
theorem findOrCreateIpBucket_apart (ip : Bytes) (now : Time) (s : Server) :
    findOrCreateIpBucket ip now s = { s with
      ipBucketLru := (findOrCreateIpBucket ip now s).ipBucketLru
      nextLruAddress := (findOrCreateIpBucket ip now s).nextLruAddress
      ipTokenBuckets := (findOrCreateIpBucket ip now s).ipTokenBuckets } := by
  unfold findOrCreateIpBucket
  cases s.ipTokenBuckets.lookup ip with
  | none => rfl
  | some bucket => rfl

theorem checkIpRateLimitBeforeRegister_opened (h : Opened t s fd peerEndpoint [] r) :
    wlp (checkIpRateLimitBeforeRegister fd peerEndpoint)
      (fun ok r' => ∃ writes, Opened t s fd peerEndpoint writes r' ∧ (ok = true → writes = [])) r := by
  obtain ⟨before, hbefore, haccepted⟩ := h
  unfold checkIpRateLimitBeforeRegister
  simp only [wlp_bind, wlp_modifyServer, wlp_get]
  apply wlp_clock
  have hlater : Evolves t s (tick r.io).now before := hbefore.wait (Nat.le_add_right ..)
  generalize extractIpFromPeerEndpoint peerEndpoint = ip
  have hcleaned : Accepted fd peerEndpoint [] before
      (cleanupExpiredIpBuckets (tick r.io).now r.server) := haccepted.change rfl (.refl _)
  set found := findOrCreateIpBucket ip (tick r.io).now
    (cleanupExpiredIpBuckets (tick r.io).now r.server) with hdef
  have hfound : Accepted fd peerEndpoint [] before found := by
    have hapart := findOrCreateIpBucket_apart ip (tick r.io).now
      (cleanupExpiredIpBuckets (tick r.io).now r.server)
    rw [← hdef] at hapart
    have hmetrics := congrArg Server.metrics hapart
    refine hcleaned.change (hapart.trans ?_) ?_
    · rw [hmetrics]
    · rw [hmetrics]
      exact .refl _
  cases found.ipTokenBuckets.lookup ip with
  | none => exact (wlp_pure ..).mpr ⟨[], ⟨before, hlater, hfound⟩, fun _ => rfl⟩
  | some bucket =>
    simp only [wlp_ite, wlp_bind, wlp_modifyServer, wlp_pure]
    refine ⟨fun _ => wlp_writeErrorResponse_now fun ok events io hnow hwrites => ?_, fun _ => ?_⟩
    · refine ⟨events, ⟨before, ?_, Accepted.write ?_ hwrites⟩, fun hok => absurd hok (by simp)⟩
      · rw [hnow]
        exact hlater
      · have hcounts := (Counts.recordRejectMetric 429 found).trans (.recordErrorMetric _)
        exact hfound.change rfl hcounts
    · exact ⟨[], ⟨before, hlater, hfound.change rfl (.refl _)⟩, fun _ => rfl⟩

theorem From.enforceConnectionLimitAfterRegister (h : From t s ⟨s', budget, io⟩) (fd : Fd) :
    From t s ⟨enforceConnectionLimitAfterRegister fd s', budget, io⟩ := by
  unfold Core.enforceConnectionLimitAfterRegister
  cases s'.find fd with
  | none => exact h
  | some c =>
    dsimp only
    split
    · exact h
    split
    · exact h
    · apply From.closeClientConnection
      apply From.recordErrorMetric
      refine h.step (.count _ _ ⟨fun k => ?_, rfl, rfl⟩)
      cases k <;> simp [counter]

theorem registerAcceptedConnection_from (h : Opened t s fd peerEndpoint [] r) :
    wlp (registerAcceptedConnection fd peerEndpoint) (fun _ => From t s) r := by
  unfold registerAcceptedConnection
  rw [wlp_bind]
  refine wlp_mono (checkIpRateLimitBeforeRegister_opened h) fun ok r' ⟨writes, hopened, hok⟩ => ?_
  obtain ⟨before, hbefore, haccepted⟩ := hopened
  cases ok with
  | false =>
    simp only [Bool.not_false, if_true, wlp_bind, wlp_modifyServer, wlp_pure]
    exact hbefore.step (.turnAway haccepted)
  | true =>
    obtain rfl := hok rfl
    simp only [Bool.not_true, Bool.false_eq_true, if_false, wlp_bind, wlp_modifyServer]
    apply wlp_clock
    have hfree : r'.server.find fd = none := by
      rw [haccepted.apart]
      exact haccepted.free
    have henrolled : From t s ⟨enrolled fd peerEndpoint r'.server, r'.budget, tick r'.io⟩ :=
      (hbefore.step (.enroll haccepted)).wait (Nat.le_add_right ..)
    rw [registerClient_eq hfree]
    exact (henrolled.armHeaderTimeout fd).enforceConnectionLimitAfterRegister fd

/-- The loop of `DrainAcceptQueue`. -/
theorem drainAcceptQueue_from (answers : List AcceptResult) (h : From t s r) :
    wlp (drainAcceptQueue answers) (fun _ => From t s) r := by
  induction answers generalizing r with
  | nil => exact (wlp_pure ..).mpr h
  | cons answer answers ih =>
    match answer with
    | .failed errno =>
      cases errno with
      | eagain | eintr => exact (wlp_pure ..).mpr h
      | econnaborted | emfile | enfile | other => exact (wlp_throw ..).mpr trivial
    | .accepted fd peerEndpoint =>
      unfold drainAcceptQueue
      simp only [wlp_bind, wlp_get, wlp_ite, wlp_modifyServer]
      refine ⟨fun _ => ih h, fun hopen => ?_⟩
      simp only [Bool.or_eq_true, decide_eq_true_eq, not_or, Bool.not_eq_true,
        Option.isSome_eq_false_iff, Option.isNone_iff_eq_none] at hopen
      refine wlp_mono (registerAcceptedConnection_from ?_) fun _ r' h' => ih h'
      exact ⟨r.server, h, .begin hopen.1 hopen.2 peerEndpoint⟩

/-! ## Calls -/

theorem handlePollEvent_from (h : From t s r) (event : PollEvent) :
    wlp (handlePollEvent event) (fun _ => From t s) r := by
  unfold handlePollEvent
  simp only [wlp_bind, wlp_get, wlp_ite]
  refine ⟨fun _ => ?_, fun _ => ?_⟩
  · unfold handleListenEvent
    simp only [wlp_ite, wlp_pure, wlp_bind, wlp_get]
    exact ⟨fun _ => h, fun _ => drainAcceptQueue_from _ h⟩
  · rw [wlp_findClient]
    cases r.server.find event.fd with
    | none => exact (wlp_pure ..).mpr h
    | some c =>
      simp only [wlp_ite, wlp_pure]
      exact ⟨fun _ => h, fun _ => (from_kept event.fd t s).handleClientEvent h event.events⟩

/-- The clock may stand later when the call is over. -/
theorem runHandler_evolves {handler : ServerM Unit} (h : Evolves t s io.now s')
    (hhandler : ∀ r, From t s r → wlp handler (fun _ => From t s) r)
    (hreads : ∀ t r, Reads t r → wlp handler (fun _ => Reads t) r)
    (hrun : runHandler handler io s' = .ok s'') : ∃ t' ≤ lastReading io, Evolves t s t' s'' := by
  refine runHandler_keeps (P := fun s'' => ∃ t' ≤ lastReading io, Evolves t s t' s'') ?_ hrun
  intro _ r' hreturns
  have hlast : lastReading r'.io = lastReading io :=
    hreads (lastReading io) { server := s', io := io } rfl _ r' hreturns
  refine ⟨r'.io.now, ?_, hhandler { server := s', io := io } h _ r' hreturns⟩
  rw [← hlast]
  exact now_le_lastReading r'.io

theorem readyTurn_evolves (hturn : readyTurn io s = .ok s') :
    ∃ t' ≤ lastReading io, Evolves io.now s t' s' := by
  unfold readyTurn at hturn
  cases hq : s.readyQueue with
  | nil =>
    rw [hq] at hturn
    cases hturn
  | cons fd queue =>
    rw [hq] at hturn
    have hpopped : Evolves io.now s io.now { s with readyQueue := queue } :=
      Chain.refl.step (.queue queue)
    dsimp only at hturn
    cases hf : Server.find { s with readyQueue := queue } fd with
    | none =>
      rw [hf] at hturn
      cases hturn
      exact ⟨io.now, now_le_lastReading io, hpopped⟩
    | some c =>
      rw [hf] at hturn
      dsimp only at hturn
      split at hturn
      · cases hturn
        exact ⟨io.now, now_le_lastReading io, hpopped⟩
      · refine runHandler_evolves (hpopped.step ?_)
          (fun r h => (from_kept fd io.now s).continueReadyConnection h)
          (fun t r h => (reads_kept fd t).continueReadyConnection h) hturn
        exact .put { c with inReadyQueue := false } hf rfl rfl

theorem Counts.countTimeout (s : Server) : Counts s.metrics (countTimeout s).metrics :=
  ⟨fun k => by cases k <;> simp [counter, Refine.countTimeout, Core.recordErrorMetric], rfl, rfl⟩

theorem expireTimer_evolves (h : Evolves t s t' s') (timer : TimerEntry) :
    Evolves t s t' (expireTimer timer s') := by
  have hfrom : From t s ⟨s', {}, { now := t' }⟩ := h
  unfold expireTimer
  cases hf : s'.find timer.fd with
  | none => exact h
  | some c =>
    dsimp only
    split
    · exact h
    split
    · exact h
    split
    · exact h
    · have hdisarmed : From t s ⟨s'.put timer.fd (c.disarm timer.kind), {}, { now := t' }⟩ :=
        hfrom.step (.put _ hf rfl rfl)
      have hcounted : From t s
          ⟨countTimeout (s'.put timer.fd (c.disarm timer.kind)), {}, { now := t' }⟩ :=
        hdisarmed.step (.count _ _ (.countTimeout _))
      exact hcounted.closeClientConnection timer.fd _

theorem expireLoop_evolves (now : Time) (turns : Nat) (ties : List Nat) (h : Evolves t s now s') :
    Evolves t s now (expireLoop now turns ties s') := by
  induction turns generalizing s' ties with
  | zero => exact h
  | succ turns ih =>
    unfold expireLoop
    split
    · exact h
    · split
      · exact ih _ (expireTimer_evolves (h.step (.expire _)) _)
      · exact h

/-- The clock when the call begins; `FlushPendingCloseQueue` does not look at it. -/
def begins (t : Time) : Call → Time
  | .ready io => io.now
  | .event _ io => io.now
  | .expire now _ _ => now
  | .flushClosed => t

/-- The last time that the clock can show in the call. -/
def ends (t : Time) : Call → Time
  | .ready io => lastReading io
  | .event _ io => lastReading io
  | .expire now _ _ => now
  | .flushClosed => t

theorem runCall_evolves (call : Call) (t : Time) (h : runCall call s = .ok s') :
    ∃ t' ≤ ends t call, Evolves (begins t call) s t' s' := by
  cases call with
  | ready io => exact readyTurn_evolves h
  | event event io =>
    exact runHandler_evolves .refl (fun r h => handlePollEvent_from h event)
      (fun t r h => handlePollEvent_reads h event) h
  | expire now turns ties =>
    cases h
    exact ⟨now, Nat.le_refl _, expireLoop_evolves now turns ties .refl⟩
  | flushClosed =>
    cases h
    exact ⟨t, Nat.le_refl _, Chain.refl.step Primitive.retire⟩

/-- **Invariant rule.**  What every primitive keeps holds of every reachable state. -/
theorem reachable_of_primitives {P : Server → Prop} (h : Reachable s)
    (h0 : ∀ listenFd, P (initializeServer listenFd))
    (hstep : ∀ t s s', Primitive t s s' → P s → P s') : P s := by
  refine h.induct h0 fun s s' call hs hcall => ?_
  obtain ⟨t', -, hevolves⟩ := runCall_evolves call 0 hcall
  exact hevolves.holds hstep hs

/-- **Invariant rule** for calls that do not begin before `t`. -/
theorem runCalls_of_primitives {P : Server → Prop} {calls : List Call}
    (hstep : ∀ t' s s', t ≤ t' → Primitive t' s s' → P s → P s')
    (hlater : ∀ call ∈ calls, t ≤ begins t call) (hcalls : runCalls calls s = .ok s')
    (h0 : P s) : P s' := by
  induction calls generalizing s with
  | nil =>
    cases hcalls
    exact h0
  | cons call calls ih =>
    rw [runCalls_cons] at hcalls
    cases hcall : runCall call s with
    | error e =>
      rw [hcall] at hcalls
      cases hcalls
    | ok s₁ =>
      rw [hcall] at hcalls
      obtain ⟨t', -, hevolves⟩ := runCall_evolves call t hcall
      have hbegins := hlater call List.mem_cons_self
      refine ih (fun call' h' => hlater call' (List.mem_cons_of_mem _ h')) hcalls ?_
      -- the chain stays behind `t`
      refine (hevolves.keeps (P := fun t' s => t ≤ t' ∧ P s) ?_ ?_ ⟨hbegins, h0⟩).2
      · exact fun t' s s' hp h => ⟨h.1, hstep t' s s' h.1 hp h.2⟩
      · exact fun t' t'' s hle h => ⟨h.1.trans hle, h.2⟩

theorem begins_readyCalls {turns : Nat} {ios : List Io} (hanswers : turns ≤ ios.length)
    (hlater : ∀ io ∈ ios, t ≤ io.now) : ∀ call ∈ readyCalls turns ios, t ≤ begins t call := by
  induction turns generalizing ios with
  | zero => exact fun _ h => absurd h List.not_mem_nil
  | succ turns ih =>
    obtain ⟨io, ios, rfl⟩ :=
      List.exists_cons_of_length_pos (Nat.lt_of_lt_of_le (Nat.succ_pos turns) hanswers)
    intro call hcall
    rcases List.mem_cons.mp hcall with rfl | hcall
    · exact hlater io List.mem_cons_self
    · exact ih (Nat.le_of_succ_le_succ hanswers)
        (fun io' h' => hlater io' (List.mem_cons_of_mem _ h')) call hcall

/-- The turns of the ReadyQueue, when the environment has an answer for each. -/
theorem processReadyQueue_of_primitives {P : Server → Prop} {ios : List Io}
    (hstep : ∀ t' s s', t ≤ t' → Primitive t' s s' → P s → P s')
    (hanswers : s.readyQueue.length ≤ ios.length) (hlater : ∀ io ∈ ios, t ≤ io.now)
    (hrun : processReadyQueue ios s = .ok s') (h0 : P s) : P s' := by
  unfold processReadyQueue at hrun
  rw [readyLoop_eq] at hrun
  exact runCalls_of_primitives hstep (begins_readyCalls hanswers hlater) hrun h0

/-- The events of one `epoll_wait`. -/
theorem dispatchEvents_of_primitives {P : Server → Prop} {batch : List (PollEvent × Io)}
    (hstep : ∀ t' s s', t ≤ t' → Primitive t' s s' → P s → P s')
    (hlater : ∀ e ∈ batch, t ≤ e.2.now) (hrun : dispatchEvents batch s = .ok s') (h0 : P s) :
    P s' := by
  rw [dispatchEvents_eq] at hrun
  refine runCalls_of_primitives hstep (fun call hcall => ?_) hrun h0
  obtain ⟨e, he, rfl⟩ := List.mem_map.mp hcall
  exact hlater e he

end WebServer.Kernel
