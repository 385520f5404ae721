import WebServer.Refine.Input
import WebServer.Refine.Admission

/-!
# Handler calls as runs of the machine

Specifications of the handlers of `Core/EventLoop.lean`.
-/

namespace WebServer.Refine

open WebServer.Net WebServer.Http WebServer.Core WebServer.Life WeakestPre

variable {o : Origin} {fd fd' : Fd} {p : Point} {c : ClientConnection} {s s' : Server} {r r' : Round}

/-! ## `ContinueReadyConnection` -/

theorem continueReading_spec (h : Doing o fd .resumed r) :
    wp (continueReading fd) (fun _ r' => Doing o fd .rest r') r := by
  unfold continueReading
  simp only [wp_bind, wp_findClient]
  cases hf : r.server.find fd with
  | none => exact h.gone hf
  | some c =>
    rw [wp_ite, wp_bind]
    refine ⟨fun hpause => ?_, fun hgo => ?_⟩
    · exact h.idleAt hf (.pause (by simpa [or_comm] using hpause)) (.inr (.inl rfl))
    simp only [ne_eq, Bool.or_eq_true, decide_eq_true_eq, not_or, Bool.not_eq_true, not_not] at hgo
    obtain ⟨hw, hout⟩ := hgo
    have hheaders : wp (if c.inputBuffer.hasCompleteHeader then processBufferedHeaders fd
        else pure true) (GoesOn o fd .continued) r := by
      rw [wp_ite, wp_pure]
      constructor
      · intro hh
        exact processBufferedHeaders_spec (h.idleAt hf (.resumeHeaders hout hw hh) (.inl hout))
      · intro hh
        exact h.idleAt hf (.resumeNothing hout hw (by simpa using hh)) (.inl hout)
    refine wp_mono hheaders fun _ r' h' => h'.guard id fun h' => ?_
    rw [wp_bind, wp_findClient]
    cases hf' : r'.server.find fd with
    | none => exact h'.gone hf'
    | some d =>
      simp only [wp_ite, wp_bind, wp_pure, wp_modifyServer]
      refine ⟨fun hout' => h'.idleAt hf' (.continueDone (.inl hout')),
        fun hout' => ⟨fun hr => readFromClient_spec ?_, fun hr => ?_⟩⟩
      · rw [update_eq hf']
        exact h'.step (.put hf' { d with readyForRead := false } rfl rfl)
          (.continueRead (not_not.mp hout') hr) rfl
      · exact h'.idleAt hf' (.continueDone (.inr (by simpa using hr)))

theorem continueBody_spec (h : Doing o fd .resumed r) :
    wp (continueBody fd) (fun _ r' => Doing o fd .rest r') r := by
  unfold continueBody
  simp only [wp_bind, wp_findClient]
  cases hf : r.server.find fd with
  | none => exact h.gone hf
  | some c =>
    rw [wp_ite, wp_bind]
    refine ⟨fun hout => h.idleAt hf (.pause (.inl hout)) (.inr (.inl rfl)), fun hout => ?_⟩
    have hbody : wp (if c.waitingForRequestBody then consumePendingRequestBody fd
        else pure true) (GoesOn o fd .resumed) r := by
      rw [wp_ite, wp_pure]
      have hself {P : ClientConnection → Prop} (hP : P c) :
          ∀ d, r.server.find fd = some d → P d := fun d hd => by
        rw [hf] at hd
        cases hd
        exact hP
      exact ⟨fun hw => consumePendingRequestBody_spec rfl h (hself hw)
        fun _ => hself (not_not.mp hout), fun _ => h⟩
    exact wp_mono hbody fun _ r' h' => h'.guard id continueReading_spec

/-- A flush that is made under a condition. -/
theorem flushIf_spec (cond : Prop) [Decidable cond] (hp : p = .rest ∨ p = .resumed)
    (h : Doing o fd p r) (hf : r.server.find fd = some c) (hout : cond → c.outputBuffer ≠ []) :
    wp (if cond then flushClientOutput fd else pure ()) (fun _ r' => Doing o fd p r') r := by
  rw [wp_ite, wp_pure]
  refine ⟨fun hcond => flushClientOutput_spec hp h fun d hd => ?_, fun _ => h⟩
  rw [hf] at hd
  cases hd
  exact hout hcond

theorem continueReadyConnection_spec (h : Doing o fd .resumed r) :
    wp (continueReadyConnection fd) (fun _ r' => Doing o fd .rest r') r := by
  unfold continueReadyConnection
  simp only [wp_bind, wp_findClient]
  cases hf : r.server.find fd with
  | none => exact h.gone hf
  | some c =>
    have hcl := h.closing hf
    simp only [hcl, Bool.false_eq_true, if_false, wp_bind]
    exact wp_mono (flushIf_spec _ (.inr rfl) h hf id) fun _ r' h' => continueBody_spec h'

/-! ## `HandleClientEvent` -/

theorem disarm_disarm (kind : TimerKind) (c : ClientConnection) :
    (c.disarm kind).disarm kind = c.disarm kind := by
  have harmed : ((c.disarm kind).timeout kind).armed = false := by simp
  rw [ClientConnection.disarm, harmed]
  rfl

/-- `HandleClientEvent` turns the idle timer into a header timer before it reads. -/
theorem Moves.idleToHeader (hf : s.find fd = some c) (hcl : c.closing = false) (now : Time) :
    Moves fd c (some (rearm .kHeader c))
      [.armed c.connectionId .kHeader now (now + kHeaderTimeout)]
      [timerNode .kHeader (now + kHeaderTimeout) fd (rearm .kHeader c)]
      s (armHeaderTimeout fd now (s.put fd c.disarmIdleKeepAliveTimeout)) := by
  have hput := Moves.put hf c.disarmIdleKeepAliveTimeout rfl rfl
  have harm := hput.trans ⟨rfl, rfl⟩ (.armHeader hput.find_self hcl now)
  have hrearm : rearm .kHeader c.disarmIdleKeepAliveTimeout = rearm .kHeader c := by
    simp only [rearm, ClientConnection.disarmIdleKeepAliveTimeout, disarm_disarm]
  rwa [hrearm] at harm

theorem handleReadable_spec {events : EpollEvents} (h : Doing o fd .rest r)
    (hout : ∀ c, r.server.find fd = some c → c.outputBuffer = []) :
    wp (handleReadable fd events) (fun _ r' => Doing o fd .rest r') r := by
  unfold handleReadable
  simp only [wp_bind, wp_findClient]
  cases hf : r.server.find fd with
  | none => exact h.gone hf
  | some c =>
    have hcl := h.closing hf
    have hout := hout c hf
    simp only [wp_ite, wp_bind, wp_pure, wp_modifyServer]
    refine ⟨fun _ => h, fun _ => ⟨fun hidle => ?_, fun hidle => ?_⟩⟩
    · apply wp_steadyClockNow
      intro now io
      have harm := Moves.idleToHeader hf hcl now
      simp only [wp_findClient, harm.find_self, rearm_closing, hcl,
        Bool.false_eq_true, if_false]
      refine readFromClient_spec (Doing.idleAt (h.step harm (.idleToHeader now hout hidle) rfl ?_)
        harm.find_self (.beginRead hout ?_) ?_)
      · exact Point.noConfusion
      · simp [ClientConnection.idleArmed, rearm]
      · exact Point.noConfusion
    · exact readFromClient_spec
        (h.idleAt hf (.beginRead hout (by simpa using hidle)) Point.noConfusion)

theorem handleClientEvent_spec {events : EpollEvents} (h : Doing o fd .rest r) :
    wp (handleClientEvent fd events) (fun _ r' => Doing o fd .rest r') r := by
  unfold handleClientEvent
  simp only [wp_ite, wp_bind, wp_modifyServer, wp_pure, wp_findClient]
  refine ⟨fun _ => ?_, fun _ => ?_⟩
  · cases hf : r.server.find fd with
    | none =>
      rw [closeClientConnection, hf]
      exact h
    | some c => exact h.close (.close hf (h.closing hf) .peerHangup) .hangup
  cases hf : r.server.find fd with
  | none => exact h
  | some c =>
    have hcl := h.closing hf
    simp only [hcl, Bool.false_eq_true, if_false]
    rw [wp_ite, wp_bind]
    refine ⟨fun hout => ?_, fun hout => handleReadable_spec h fun d hd => ?_⟩
    · refine wp_mono (flushIf_spec _ (.inl rfl) h hf fun _ => hout) fun _ r' h' => ?_
      rw [wp_bind, wp_findClient]
      cases hf' : r'.server.find fd with
      | none => exact h'
      | some d =>
        rw [wp_ite, wp_pure]
        refine ⟨fun _ => h', fun hout' => handleReadable_spec h' fun d' hd => ?_⟩
        rw [hf'] at hd
        cases hd
        exact not_not.mp hout'
    · rw [hf] at hd
      cases hd
      exact not_not.mp hout

/-! ## Handler calls -/

/-- No handler works on any connection. -/
def AtRest (s : Server) : Prop := ∀ fd, Refines fd .rest s

theorem Refines.atRest (h : Refines fd .rest s) : AtRest s := fun _ => h.elsewhere

/-- A handler starts with a full budget. -/
theorem Doing.start (h : Refines fd p s) (io : Io) :
    Doing ⟨s, p⟩ fd p { server := s, io := io } :=
  ⟨⟨h, fun _ _ => Nat.le_add_right ..⟩, .start s fd p⟩

theorem runHandler_returns {handler : ServerM Unit} {io : Io}
    (h : wp handler (fun _ r' => Doing o fd .rest r') { server := s, io := io }) :
    ∃ s', runHandler handler io s = .ok s' ∧ AtRest s' ∧ Since o fd .rest s' := by
  obtain ⟨a, r', e, h'⟩ := (wp_iff _ _ _).mp h
  refine ⟨r'.server, ?_, h'.refines.atRest, h'.since⟩
  rw [runHandler, e]
  rfl

/-! ### Events of client sockets -/

/-- `HandlePollEvent` on another socket than the listening one. -/
theorem clientEvent_returns (h : AtRest s) {event : PollEvent} (hlisten : event.fd ≠ s.listenFd)
    (io : Io) : ∃ s', runHandler (handlePollEvent event) io s = .ok s' ∧ AtRest s' ∧
      Since ⟨s, .rest⟩ event.fd .rest s' := by
  apply runHandler_returns
  have hstart := Doing.start (h event.fd) io
  unfold handlePollEvent
  simp only [wp_bind, wp_get, if_neg hlisten, wp_findClient]
  cases hf : s.find event.fd with
  | none => exact hstart
  | some c =>
    have hcl := hstart.closing hf
    simp only [hcl, Bool.false_eq_true, if_false]
    exact handleClientEvent_spec hstart

/-! ### Events of the listening socket -/

/-- `HandlePollEvent` on the listening socket. -/
theorem runHandler_listen {event : PollEvent} (hlisten : event.fd = s.listenFd) (io : Io) :
    runHandler (handlePollEvent event) io s =
      if event.events.epollin then runHandler (drainAcceptQueue io.accepts) io s else .ok s := by
  have hevent : handlePollEvent event { server := s, io := io } =
      handleListenEvent event.events { server := s, io := io } := by
    unfold handlePollEvent
    show (if _ then _ else _ : ServerM Unit) _ = _
    rw [if_pos hlisten]
  rw [runHandler, hevent]
  unfold handleListenEvent
  cases event.events.epollin <;> rfl

theorem listenEvent_outcome (h : AtRest s) {event : PollEvent} (hlisten : event.fd = s.listenFd)
    (io : Io) :
    ((event.events.epollin = true → acceptFault io.accepts = none) ∧
      ∃ s', runHandler (handlePollEvent event) io s = .ok s' ∧ AtRest s' ∧ Admits s s') ∨
      ∃ e, event.events.epollin = true ∧ acceptFault io.accepts = some e ∧
        runHandler (handlePollEvent event) io s = .error (.systemError "accept4() failed" e) := by
  rw [runHandler_listen hlisten]
  cases event.events.epollin with
  | false =>
    refine .inl ⟨fun hin => ?_, s, rfl, h, (Unmoved.refl s).admits⟩
    cases hin
  | true =>
    rcases drainAcceptQueue_refines (r := { server := s, io := io }) io.accepts (h 0) with
      ⟨hfine, r', e, h', hadmits⟩ | ⟨e, hfault, he⟩
    · rw [if_pos rfl, runHandler, e]
      exact .inl ⟨fun _ => hfine, r'.server, rfl, h'.atRest, hadmits⟩
    · rw [if_pos rfl, runHandler, he]
      exact .inr ⟨e, rfl, hfault, rfl⟩

theorem listenEvent_returns (h : AtRest s) {event : PollEvent} (hlisten : event.fd = s.listenFd)
    (io : Io) :
    (∃ s', runHandler (handlePollEvent event) io s = .ok s' ∧ AtRest s' ∧ Admits s s') ∨
      ∃ e, runHandler (handlePollEvent event) io s = .error (.systemError "accept4() failed" e) := by
  rcases listenEvent_outcome h hlisten io with ⟨-, hreturns⟩ | ⟨e, -, -, he⟩
  · exact .inl hreturns
  · exact .inr ⟨e, he⟩

/-! ### Turns of the ReadyQueue -/

/-- The server in which the turn of `fd` begins: `fd` is out of the queue. -/
def dequeued (fd : Fd) (queue : List Fd) (c : ClientConnection) (s : Server) : Server :=
  ({ s with readyQueue := queue } : Server).put fd { c with inReadyQueue := false }

/-- The first descriptor of the ReadyQueue is taken out for its turn. -/
theorem Moves.pop {queue : List Fd} (hf : s.find fd = some c) (hq : c.inReadyQueue = true)
    (hqueue : s.readyQueue = fd :: queue) :
    Moves fd c (some { c with inReadyQueue := false }) [] [] s (dequeued fd queue c s) := by
  refine .quiet hf rfl rfl rfl rfl rfl ?_ ?_
  · rw [hq, hqueue]
    exact .pop queue
  · exact fun hacc => ⟨rfl, hacc.1, hacc.2, hacc.3⟩

/-- The first descriptor of the ReadyQueue is registered and marked. -/
theorem AtRest.front {queue : List Fd} (h : AtRest s) (hqueue : s.readyQueue = fd :: queue) :
    ∃ c, s.find fd = some c ∧ c.inReadyQueue = true :=
  ((h fd).queued fd).mp (hqueue ▸ List.mem_cons_self)

theorem readyTurn_eq {queue : List Fd} (h : AtRest s) (io : Io)
    (hqueue : s.readyQueue = fd :: queue) (hf : s.find fd = some c) :
    readyTurn io s = runHandler (continueReadyConnection fd) io (dequeued fd queue c s) := by
  have hcl : ¬ c.closing = true := by simp [((h fd).run hf).closing]
  have hf' : ({ s with readyQueue := queue } : Server).find fd = some c := hf
  unfold readyTurn
  simp only [hqueue, hf', if_neg hcl]
  rfl

theorem readyTurn_returns {queue : List Fd} (h : AtRest s) (io : Io)
    (hqueue : s.readyQueue = fd :: queue) :
    ∃ c s', s.find fd = some c ∧ readyTurn io s = .ok s' ∧ AtRest s' ∧
      Since ⟨dequeued fd queue c s, .resumed⟩ fd .rest s' := by
  obtain ⟨c, hf, hq⟩ := h.front hqueue
  obtain ⟨s', e, h', hsince⟩ := runHandler_returns (continueReadyConnection_spec
    (.start ((h fd).step (.pop hf hq hqueue) (.resume hq)) io))
  exact ⟨c, s', hf, (readyTurn_eq h io hqueue hf).trans e, h', hsince⟩

end WebServer.Refine
