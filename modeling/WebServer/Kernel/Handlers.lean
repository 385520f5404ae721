import WebServer.Kernel.Consistent
import WebServer.Kernel.Kept

/-!
# The handlers keep everything consistent

The functions of `Core/Output.lean` that refuse, answer and flush start and end with the masks up
to date, however deep below them the connection was closed; only inside `StartOkResponse` and
`FlushClientOutput` the mask lags behind.  So all handlers of a registered connection do.
-/

namespace WebServer.Kernel

open WebServer.Net WebServer.Http WebServer.Core WebServer.Refine LiberalPre

variable {fd fd' : Fd} {wants : Bytes → Bool → Prop} {c : ClientConnection} {s s' : Server}
  {r r' : Round}

theorem Writes.works {events : List Event} (h : Writes fd events) : Works fd events := by
  refine ⟨fun call hcall => ?_, fun x hx => ?_⟩
  · rw [syscalls_writes h, if_pos rfl] at hcall
    rw [List.eq_of_mem_replicate hcall]
    rfl
  · rw [syscalls_writes h, if_neg hx]

/-- The masks are up to date, of `fd` as of all others. -/
abbrev Tidy (fd : Fd) (s : Server) : Prop :=
  Consistent kMaxConnections fd (Watched fd upToDate) s

/-! ## Output -/

theorem sendErrorResponseAndClose_tidy (h : Tidy fd r.server) (statusCode : Nat) :
    wlp (sendErrorResponseAndClose fd statusCode) (fun _ r' => Tidy fd r'.server) r := by
  unfold sendErrorResponseAndClose
  simp only [wlp_bind, wlp_findClient]
  cases hf : r.server.find fd with
  | none => exact (wlp_pure ..).mpr h
  | some c =>
    simp only [wlp_bind, wlp_modifyServer]
    apply wlp_writeErrorResponse
    intro ok events io hwrites
    have hrejected : Tidy fd (r.server.log [.rejected c statusCode]) := h.note fun _ => rfl
    have herror := (hrejected.recordRejectMetric statusCode).recordErrorMetric
    exact (herror.work (c := c) hf hwrites.works).closeClientConnection _

theorem tryReserveInflightBytes_tidy (h : Tidy fd r.server) (growth : Growth) (addBytes : Nat) :
    wlp (tryReserveInflightBytes fd growth addBytes) (fun _ r' => Tidy fd r'.server) r := by
  unfold tryReserveInflightBytes
  simp only [wlp_bind, wlp_ite, wlp_pure, wlp_get, wlp_modifyServer]
  have hasked : Tidy fd (r.server.log
      [.reserved (r.server.find fd) growth addBytes r.server.globalInflightBytes]) :=
    h.note fun _ => rfl
  exact ⟨fun _ => h, fun _ => ⟨fun _ => sendErrorResponseAndClose_tidy hasked 503, fun _ => hasked⟩⟩

/-- What is left after the output buffer may have been filled. -/
abbrev Filled (fd : Fd) (ok : Bool) (s : Server) : Prop :=
  Consistent kMaxConnections fd (Watched fd (if ok then stale else upToDate)) s

theorem Filled.of_tidy (h : Tidy fd s) (ok : Bool) : Filled fd ok s := by
  cases ok with
  | true => exact h.mono fun _ _ _ => trivial
  | false => exact h

theorem appendToOutputBuffer_filled (h : Tidy fd r.server) (data : Bytes) :
    wlp (appendToOutputBuffer fd data) (fun ok r' => Filled fd ok r'.server) r := by
  unfold appendToOutputBuffer
  simp only [wlp_bind, wlp_ite, wlp_pure, wlp_modifyServer]
  refine ⟨fun _ => .of_tidy h true, fun _ =>
    wlp_mono (tryReserveInflightBytes_tidy h _ _) fun ok r' h' => ⟨fun _ => h', fun _ => ?_⟩⟩
  refine .growInflight ?_ _
  exact h'.update _ (fun _ => rfl) (fun _ => rfl) fun _ _ _ => trivial

theorem replaceOutputBuffer_filled (h : Tidy fd r.server) (connection : ClientConnection)
    (data : Bytes) :
    wlp (replaceOutputBuffer fd connection data) (fun ok r' => Filled fd ok r'.server) r := by
  have hstored {s : Server} (h : Tidy fd s) :
      Consistent kMaxConnections fd (Watched fd stale)
        (s.update fd fun c => { c with outputBuffer := data }) :=
    h.update _ (fun _ => rfl) (fun _ => rfl) fun _ _ _ => trivial
  unfold replaceOutputBuffer
  simp only [wlp_bind, wlp_ite, wlp_pure, wlp_modifyServer, wlp_subSize]
  refine ⟨fun _ _ => wlp_mono (tryReserveInflightBytes_tidy h _ _) fun ok r' h' => ?_, fun _ _ => ?_⟩
  · exact ⟨fun _ => h', fun _ => (hstored h').growInflight _⟩
  · exact (hstored h).releaseInflightBytes _

/-- `if (!Fill()) return; UpdateClientPollMask();` -/
theorem Filled.poll {ok : Bool} (h : Filled fd ok s) :
    ((!ok) = true → Tidy fd s) ∧ (¬ (!ok) = true → Tidy fd (updateClientPollMask fd s)) := by
  cases ok with
  | true => exact ⟨nofun, fun _ => h.updateClientPollMask⟩
  | false => exact ⟨fun _ => h, fun hok => absurd rfl hok⟩

theorem startOkResponse_tidy (h : Tidy fd r.server) (request : HttpRequest) :
    wlp (startOkResponse fd request) (fun _ r' => Tidy fd r'.server) r := by
  unfold startOkResponse
  simp only [wlp_bind, wlp_findClient]
  cases hf : r.server.find fd with
  | none => exact (wlp_pure ..).mpr h
  | some c =>
    simp only [wlp_ite, wlp_bind, wlp_pure, wlp_modifyServer, wlp_get]
    refine ⟨fun _ => h, fun _ => ?_⟩
    generalize (shouldKeepAlive request && !c.closeAfterWrite) = keepAlive
    have hresponds : Tidy fd (r.server.put fd (c.respond keepAlive)) :=
      h.put hf rfl rfl fun _ => id
    have hdispatched : Tidy fd ((r.server.put fd (c.respond keepAlive)).log
        [.dispatched c request keepAlive]) := hresponds.note fun _ => rfl
    have hf' : ((r.server.put fd (c.respond keepAlive)).log
        [.dispatched c request keepAlive]).find fd = some (c.respond keepAlive) := find_put ..
    refine ⟨fun _ => ?_, fun _ => ⟨fun _ => ?_, fun _ => ?_⟩⟩
    · exact wlp_mono (appendToOutputBuffer_filled hdispatched _) fun _ _ h' => h'.poll
    · exact wlp_mono (replaceOutputBuffer_filled hdispatched _ _) fun _ _ h' => h'.poll
    · apply wlp_writeResponse
      intro outcome events io hwrites
      have hwritten := hdispatched.work hf' hwrites.works
      cases outcome with
      | error errno =>
        simp only [wlp_bind, wlp_modifyServer]
        exact hwritten.recordErrorMetric.closeClientConnection _
      | ok written =>
        simp only [wlp_bind, wlp_subSize, wlp_modify, wlp_ite, wlp_pure, wlp_modifyServer]
        refine fun _ => ⟨fun _ => hwritten, fun _ => ?_⟩
        exact wlp_mono (replaceOutputBuffer_filled hwritten _ _) fun _ _ h' => h'.poll

/-! ## Flushing -/

/-- In the middle of `FlushClientOutput`. -/
abbrev Flushing (fd : Fd) (s : Server) : Prop :=
  Consistent kMaxConnections fd (Watched fd flushed) s

theorem finishFlush_tidy (h : Flushing fd r.server) (connection : ClientConnection) :
    wlp (finishFlush fd connection) (fun _ r' => Tidy fd r'.server) r := by
  have hdrained : Flushing fd (r.server.log [.drained connection]) := h.note fun _ => rfl
  have hpolled := hdrained.updateClientPollMask
  unfold finishFlush
  simp only [wlp_bind, wlp_ite, wlp_modifyServer, wlp_pure]
  refine ⟨fun _ => hpolled.enqueueReadyConnection, fun _ => ⟨fun _ => hpolled.enqueueReadyConnection,
    fun _ => ⟨fun _ => hdrained.closeClientConnection _, fun _ => ⟨fun _ => ?_, fun _ => hpolled⟩⟩⟩⟩
  apply wlp_steadyClockNow
  exact fun now io => (hdrained.armIdleKeepAliveTimeout now).updateClientPollMask

/-- With output left the mask of a flush is the right one. -/
theorem tidy_of_output (h : Flushing fd s) (hf : s.find fd = some c) (hout : c.outputBuffer ≠ []) :
    Tidy fd s := by
  refine { h with here := fun hne => ?_ }
  have := h.here hne
  rw [hf] at this ⊢
  obtain ⟨hown, ⟨out, hevents, hmask⟩, hlives⟩ := this
  refine ⟨hown, ⟨out, hevents, ?_⟩, hlives⟩
  rw [hmask hout, upToDate, decide_eq_true hout]

/-- Every turn but the last shortens the output buffer, so the loop reaches an end that sets the
mask. -/
theorem flushLoop_tidy (turns : Nat) (h : Flushing fd r.server)
    (hturns : ∀ c, r.server.find fd = some c → c.outputBuffer.length < turns) :
    wlp (flushLoop fd turns) (fun _ r' => Tidy fd r'.server) r := by
  induction turns generalizing r with
  | zero =>
    cases hf : r.server.find fd with
    | none => exact (wlp_pure ..).mpr (h.gone hf)
    | some c => exact absurd (hturns c hf) (Nat.not_lt_zero _)
  | succ turns ih =>
    unfold flushLoop
    simp only [wlp_bind, wlp_findClient]
    cases hf : r.server.find fd with
    | none => exact (wlp_pure ..).mpr (h.gone hf)
    | some c =>
      have hlen := hturns c hf
      simp only [wlp_ite, wlp_bind, wlp_pure, wlp_get, wlp_modifyServer]
      refine ⟨fun hcl => absurd hcl (by simp [(h.owns hf).1]), fun _ =>
        ⟨fun _ => finishFlush_tidy h c, fun hout => ⟨fun _ => h.updateClientPollMask, fun _ => ?_⟩⟩⟩
      apply wlp_writeResponse
      intro outcome events io hwrites
      have hwritten := h.work hf hwrites.works
      cases outcome with
      | error errno =>
        simp only [wlp_bind, wlp_modifyServer]
        exact hwritten.recordErrorMetric.closeClientConnection _
      | ok written =>
        cases written with
        | zero => exact (wlp_pure ..).mpr (tidy_of_output hwritten hf hout)
        | succ n =>
          simp only [wlp_bind, wlp_subSize, wlp_modify, wlp_modifyServer]
          refine fun _ => ih ?_ fun d hd => ?_
          · refine .releaseInflightBytes ?_ _
            refine hwritten.update _ (fun _ => rfl) (fun _ => rfl) fun d out hmask hrest => ?_
            exact hmask fun hnil => hrest (by rw [hnil, List.drop_nil])
          · have hf' : (r.server.log events).find fd = some c := hf
            rw [update_eq hf', find_releaseInflightBytes, find_put] at hd
            cases hd
            have := List.length_pos_iff.mpr hout
            rw [List.length_drop]
            omega

theorem flushClientOutput_tidy (h : Tidy fd r.server) :
    wlp (flushClientOutput fd) (fun _ r' => Tidy fd r'.server) r := by
  unfold flushClientOutput
  simp only [wlp_bind, wlp_findClient]
  cases hf : r.server.find fd with
  | none => exact (wlp_pure ..).mpr h
  | some c =>
    apply flushLoop_tidy _ (h.mono fun output out hout hne => ?_) fun d hd => ?_
    · rw [hout, decide_eq_true hne]
    · rw [hf] at hd
      cases hd
      exact Nat.lt_succ_self _

/-! ## The handlers -/

theorem tidy_kept (fd : Fd) : Kept fd (Tidy fd) where
  refuse statusCode _ h := sendErrorResponseAndClose_tidy h statusCode
  dispatch request _ h := startOkResponse_tidy h.countRequest request
  flush h := flushClientOutput_tidy h
  put c' hf hsocket hclosing hout h := h.put hf hsocket hclosing fun _ hwants => by rwa [hout]
  note e he h := h.note fun _ => by cases e <;> first | rfl | cases he
  read answer hf h := by
    have hown := (h.owns hf).2
    refine h.work hf ⟨?_, fun x hx => ?_⟩
    · simp [syscalls, syscall?, hown, isWork]
    · simp [syscalls, syscall?, hown, Ne.symm hx]
  grow n h := h.growInflight n
  release n h := h.releaseInflightBytes n
  armHeader now h := h.armHeaderTimeout now
  armBody now contentLength h := h.armBodyTimeout now contentLength
  armIdle now h := h.armIdleKeepAliveTimeout now
  enqueue h := h.enqueueReadyConnection
  poll h := h.updateClientPollMask
  close reason _ h := h.closeClientConnection reason
  readFailed _ h := h.recordErrorMetric.closeClientConnection _

theorem continueReadyConnection_tidy (h : Tidy fd r.server) :
    wlp (continueReadyConnection fd) (fun _ r' => Tidy fd r'.server) r :=
  (tidy_kept fd).continueReadyConnection h

theorem handleClientEvent_tidy (h : Tidy fd r.server) (events : EpollEvents) :
    wlp (handleClientEvent fd events) (fun _ r' => Tidy fd r'.server) r :=
  (tidy_kept fd).handleClientEvent h events

end WebServer.Kernel
