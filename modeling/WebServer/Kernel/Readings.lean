import WebServer.Kernel.Clocked

/-!
# The clock during a call

A handler call reads the clock forward, and no further than its environment has it.
-/

namespace WebServer.Kernel

open WebServer.Net WebServer.Http WebServer.Core WebServer.Life WebServer.Refine LiberalPre

variable {fd : Fd} {t : Time} {r : Round}

/-- The last time that the clock can show. -/
def lastReading (io : Io) : Time := io.now + io.ticks.sum

/-- The round is one of a handler call in which the clock goes no further than `t`. -/
def Reads (t : Time) (r : Round) : Prop := lastReading r.io = t

theorem lastReading_tick (io : Io) : lastReading (tick io) = lastReading io := by
  unfold lastReading tick
  cases io.ticks with
  | nil => rfl
  | cons n ticks => exact Nat.add_assoc ..

theorem now_le_lastReading (io : Io) : io.now ≤ lastReading io := Nat.le_add_right ..

/-! ## Responses -/

theorem writeErrorResponse_reads (h : Reads t r) (life : Option Nat) (data : Bytes) :
    wlp (writeErrorResponse fd life data) (fun _ => Reads t) r := by
  rintro _ _ ⟨⟩
  exact h

theorem writeResponse_reads (h : Reads t r) (life : Nat) (data : Bytes) :
    wlp (writeResponse fd life data) (fun _ => Reads t) r := by
  rintro _ _ ⟨⟩
  exact h

theorem sendErrorResponseAndClose_reads (h : Reads t r) (statusCode : Nat) :
    wlp (sendErrorResponseAndClose fd statusCode) (fun _ => Reads t) r := by
  unfold sendErrorResponseAndClose
  simp only [wlp_bind, wlp_findClient]
  cases r.server.find fd with
  | none => exact (wlp_pure ..).mpr h
  | some c =>
    simp only [wlp_bind, wlp_modifyServer]
    exact wlp_mono (writeErrorResponse_reads (by exact h) _ _) fun _ _ h' => h'

theorem tryReserveInflightBytes_reads (h : Reads t r) (growth : Growth) (addBytes : Nat) :
    wlp (tryReserveInflightBytes fd growth addBytes) (fun _ => Reads t) r := by
  unfold tryReserveInflightBytes
  simp only [wlp_bind, wlp_ite, wlp_pure, wlp_get, wlp_modifyServer]
  exact ⟨fun _ => h,
    fun _ => ⟨fun _ => sendErrorResponseAndClose_reads (by exact h) 503, fun _ => h⟩⟩

theorem appendToOutputBuffer_reads (h : Reads t r) (data : Bytes) :
    wlp (appendToOutputBuffer fd data) (fun _ => Reads t) r := by
  unfold appendToOutputBuffer
  simp only [wlp_bind, wlp_ite, wlp_pure, wlp_modifyServer]
  exact ⟨fun _ => h, fun _ => wlp_mono (tryReserveInflightBytes_reads h _ _) fun _ _ h' =>
    ⟨fun _ => h', fun _ => h'⟩⟩

theorem replaceOutputBuffer_reads (h : Reads t r) (connection : ClientConnection) (data : Bytes) :
    wlp (replaceOutputBuffer fd connection data) (fun _ => Reads t) r := by
  unfold replaceOutputBuffer
  simp only [wlp_bind, wlp_ite, wlp_pure, wlp_modifyServer, wlp_subSize]
  exact ⟨fun _ _ => wlp_mono (tryReserveInflightBytes_reads h _ _) fun _ _ h' =>
    ⟨fun _ => h', fun _ => h'⟩, fun _ _ => h⟩

theorem startOkResponse_reads (h : Reads t r) (request : HttpRequest) :
    wlp (startOkResponse fd request) (fun _ => Reads t) r := by
  unfold startOkResponse
  simp only [wlp_bind, wlp_findClient]
  cases r.server.find fd with
  | none => exact (wlp_pure ..).mpr h
  | some c =>
    simp only [wlp_ite, wlp_bind, wlp_pure, wlp_modifyServer, wlp_get]
    have hfilled {r' : Round} (ok : Bool) (h' : Reads t r') :
        ((!ok) = true → Reads t r') ∧ (¬ (!ok) = true →
          Reads t { r' with server := updateClientPollMask fd r'.server }) :=
      ⟨fun _ => h', fun _ => h'⟩
    refine ⟨fun _ => h, fun _ => ⟨fun _ => ?_, fun _ => ⟨fun _ => ?_, fun _ => ?_⟩⟩⟩
    · exact wlp_mono (appendToOutputBuffer_reads (by exact h) _) fun ok _ h' => hfilled ok h'
    · exact wlp_mono (replaceOutputBuffer_reads (by exact h) _ _) fun ok _ h' => hfilled ok h'
    · refine wlp_mono (writeResponse_reads (by exact h) _ _) fun outcome r' h' => ?_
      cases outcome with
      | error errno =>
        simp only [wlp_bind, wlp_modifyServer]
        exact h'
      | ok written =>
        simp only [wlp_bind, wlp_subSize, wlp_modify, wlp_ite, wlp_pure, wlp_modifyServer]
        refine fun _ => ⟨fun _ => h', fun _ => ?_⟩
        exact wlp_mono (replaceOutputBuffer_reads (by exact h') _ _) fun ok _ h' => hfilled ok h'

/-! ## Flushing -/

theorem Reads.clock (h : Reads t r) : Reads t { r with io := tick r.io } :=
  (lastReading_tick r.io).trans h

theorem finishFlush_reads (h : Reads t r) (connection : ClientConnection) :
    wlp (finishFlush fd connection) (fun _ => Reads t) r := by
  unfold finishFlush
  simp only [wlp_bind, wlp_ite, wlp_modifyServer, wlp_pure]
  exact ⟨fun _ => h, fun _ => ⟨fun _ => h, fun _ => ⟨fun _ => h, fun _ =>
    ⟨fun _ => wlp_clock h.clock, fun _ => h⟩⟩⟩⟩

theorem flushLoop_reads (turns : Nat) (h : Reads t r) :
    wlp (flushLoop fd turns) (fun _ => Reads t) r := by
  induction turns generalizing r with
  | zero => exact (wlp_pure ..).mpr h
  | succ turns ih =>
    unfold flushLoop
    simp only [wlp_bind, wlp_findClient]
    cases r.server.find fd with
    | none => exact (wlp_pure ..).mpr h
    | some c =>
      simp only [wlp_ite, wlp_bind, wlp_pure, wlp_get, wlp_modifyServer]
      refine ⟨fun _ => h, fun _ => ⟨fun _ => finishFlush_reads h c, fun _ => ⟨fun _ => h, fun _ =>
        wlp_mono (writeResponse_reads (by exact h) _ _) fun outcome r' h' => ?_⟩⟩⟩
      cases outcome with
      | error errno =>
        simp only [wlp_bind, wlp_modifyServer]
        exact h'
      | ok written =>
        cases written with
        | zero => exact (wlp_pure ..).mpr h'
        | succ n =>
          simp only [wlp_bind, wlp_subSize, wlp_modify, wlp_modifyServer]
          exact fun _ => ih h'

theorem flushClientOutput_reads (h : Reads t r) :
    wlp (flushClientOutput fd) (fun _ => Reads t) r := by
  unfold flushClientOutput
  simp only [wlp_bind, wlp_findClient]
  cases r.server.find fd with
  | none => exact (wlp_pure ..).mpr h
  | some c => exact flushLoop_reads _ h

/-! ## Handlers -/

theorem reads_kept (fd : Fd) (t : Time) : Clocked fd (Reads t) where
  refuse statusCode _ h := sendErrorResponseAndClose_reads h statusCode
  dispatch {r} request _ h :=
    startOkResponse_reads (r := { r with server := countRequest r.server }) h request
  flush h := flushClientOutput_reads h
  clock h := Reads.clock h
  put _ _ _ _ _ h := h
  note _ _ h := h
  read _ _ _ h := h
  grow _ h := h
  release _ h := h
  armHeader h := h
  armBody _ h := h
  armIdle h := h
  enqueue h := h
  poll h := h
  close _ _ h := h
  readFailed _ h := h

theorem checkIpRateLimitBeforeRegister_reads (h : Reads t r) (peerEndpoint : Bytes) :
    wlp (checkIpRateLimitBeforeRegister fd peerEndpoint) (fun _ => Reads t) r := by
  unfold checkIpRateLimitBeforeRegister
  simp only [wlp_bind, wlp_modifyServer, wlp_get]
  apply wlp_clock
  have hread := h.clock
  split
  · exact (wlp_pure ..).mpr hread
  · simp only [wlp_ite, wlp_bind, wlp_modifyServer, wlp_pure]
    refine ⟨fun _ => ?_, fun _ => hread⟩
    exact wlp_mono (writeErrorResponse_reads (by exact hread) _ _) fun _ _ h' => h'

theorem registerAcceptedConnection_reads (h : Reads t r) (peerEndpoint : Bytes) :
    wlp (registerAcceptedConnection fd peerEndpoint) (fun _ => Reads t) r := by
  unfold registerAcceptedConnection
  rw [wlp_bind]
  refine wlp_mono (checkIpRateLimitBeforeRegister_reads h peerEndpoint) fun ok r' h' => ?_
  cases ok with
  | false =>
    simp only [Bool.not_false, if_true, wlp_bind, wlp_modifyServer, wlp_pure]
    exact h'
  | true =>
    simp only [Bool.not_true, Bool.false_eq_true, if_false, wlp_bind, wlp_modifyServer]
    exact wlp_clock h'.clock

theorem drainAcceptQueue_reads (answers : List AcceptResult) (h : Reads t r) :
    wlp (drainAcceptQueue answers) (fun _ => Reads t) r := by
  induction answers generalizing r with
  | nil => exact (wlp_pure ..).mpr h
  | cons answer answers ih =>
    match answer with
    | .failed errno =>
      cases errno with
      | eagain | eintr => exact (wlp_pure ..).mpr h
      | econnaborted | emfile | enfile | other => exact (wlp_throw ..).mpr trivial
    | .accepted fd peerEndpoint =>
      unfold drainAcceptQueue
      simp only [wlp_bind, wlp_get, wlp_ite, wlp_modifyServer]
      exact ⟨fun _ => ih h, fun _ =>
        wlp_mono (registerAcceptedConnection_reads (by exact h) peerEndpoint) fun _ _ h' => ih h'⟩

theorem handlePollEvent_reads (h : Reads t r) (event : PollEvent) :
    wlp (handlePollEvent event) (fun _ => Reads t) r := by
  unfold handlePollEvent
  simp only [wlp_bind, wlp_get, wlp_ite]
  refine ⟨fun _ => ?_, fun _ => ?_⟩
  · unfold handleListenEvent
    simp only [wlp_ite, wlp_pure, wlp_bind, wlp_get]
    exact ⟨fun _ => h, fun _ => drainAcceptQueue_reads _ h⟩
  · rw [wlp_findClient]
    cases r.server.find event.fd with
    | none => exact (wlp_pure ..).mpr h
    | some c =>
      simp only [wlp_ite, wlp_pure]
      exact ⟨fun _ => h, fun _ => (reads_kept event.fd t).handleClientEvent h event.events⟩

end WebServer.Kernel
