import WebServer.Kernel.Progress
import WebServer.Life.Credit

/-!
# What puts a connection into the ReadyQueue

A handler puts its connection into the ReadyQueue only behind something that is paid for with
bytes of the client: a `read()`, a request taken out of the buffer, or the end of a flush.
-/

namespace WebServer.Kernel

open WebServer.Net WebServer.Http WebServer.Core WebServer.Life WebServer.Refine LiberalPre
  TimedSteps

variable {fd : Fd} {n : Nat} {c : ClientConnection} {events : List Event} {s s' : Server}
  {budget budget' : EventBudget} {io : Io} {r r' : Round}

theorem progress_mono {H H' : List Event} (h : H <+: H') : progress H ≤ progress H' :=
  h.sublist.countP_le

theorem From.later {t : Time} (h : From t s r) : Later s r.server :=
  Chain.holds h (fun _ _ _ hp hlater => hlater.trans hp.later) (.refl s)

/-- `fd` is out of the ReadyQueue, and nothing has been read for it. -/
structure Still (n : Nat) (fd : Fd) (r : Round) : Prop where
  count : n ≤ progress r.server.trace
  out : fd ∉ r.server.readyQueue
  unread : 0 < r.budget.readRemaining

/-- Only behind some progress `fd` can be in the ReadyQueue again. -/
def Moved (n : Nat) (fd : Fd) (r : Round) : Prop := Still n fd r ∨ n < progress r.server.trace

/-- A call that begins behind some progress. -/
theorem wlp_progressed {α : Type} {call : ServerM α}
    (hcall : ∀ t s, From t s r → wlp call (fun _ => From t s) r)
    (h : n < progress r.server.trace) :
    wlp call (fun _ r' => n < progress r'.server.trace) r :=
  wlp_mono (hcall r.io.now r.server .refl) fun _ _ h' => h.trans_le (progress_mono h'.later.trace)

/-- A call that may begin behind some progress. -/
theorem Moved.andThen {α : Type} {call : ServerM α} (h : Moved n fd r)
    (hstill : Still n fd r → wlp call (fun _ => Moved n fd) r)
    (hcall : ∀ t s, From t s r → wlp call (fun _ => From t s) r) :
    wlp call (fun _ => Moved n fd) r :=
  h.elim hstill fun hmoved => wlp_mono (wlp_progressed hcall hmoved) fun _ _ h' => .inr h'

theorem Still.logged (h : Still n fd r) {e : Event} (he : isProgress e = true) :
    n < progress (r.server.trace ++ [e]) := by
  have hone : progress [e] = 1 := by simp [progress, he]
  rw [progress_append, hone]
  exact Nat.lt_add_one_of_le h.count

/-! ## Bookkeeping -/

theorem closeClientConnection_queue (fd : Fd) (reason : CloseReason) (s : Server) :
    (closeClientConnection fd reason s).readyQueue.Sublist s.readyQueue := by
  cases hf : s.find fd with
  | none =>
    rw [closeClientConnection, hf]
  | some c =>
    cases hcl : c.closing with
    | true =>
      rw [closeClientConnection, hf]
      dsimp only
      rw [if_pos hcl]
    | false =>
      rw [closeClientConnection_eq hf hcl]
      exact List.filter_sublist

/-- The trace has grown, and nothing has put `fd` into the ReadyQueue. -/
structure Unqueued (fd : Fd) (s s' : Server) : Prop where
  trace : s.trace <+: s'.trace
  out : fd ∉ s.readyQueue → fd ∉ s'.readyQueue

namespace Unqueued

theorem refl (fd : Fd) (s : Server) : Unqueued fd s s := ⟨List.prefix_refl _, id⟩

theorem log (events : List Event) (s : Server) : Unqueued fd s (s.log events) :=
  ⟨List.prefix_append .., id⟩

theorem put (c : ClientConnection) (s : Server) : Unqueued fd s (s.put fd c) :=
  ⟨List.prefix_refl _, id⟩

theorem update (f : ClientConnection → ClientConnection) (s : Server) :
    Unqueued fd s (s.update fd f) := by
  unfold Server.update
  cases s.find fd with
  | none => exact .refl fd s
  | some c => exact .put _ s

theorem releaseInflightBytes (amount : Nat) (s : Server) :
    Unqueued fd s (releaseInflightBytes amount s) := by
  unfold Core.releaseInflightBytes
  dsimp only
  split <;> exact ⟨List.prefix_append .., id⟩

theorem updateClientPollMask (s : Server) : Unqueued fd s (updateClientPollMask fd s) := by
  obtain e | ⟨events, e⟩ := updateClientPollMask_cases fd s
  · rw [e]
    exact .refl fd s
  · rw [e]
    exact ⟨List.prefix_append .., id⟩

theorem armHeaderTimeout (now : Time) (s : Server) : Unqueued fd s (armHeaderTimeout fd now s) := by
  obtain e | ⟨c, -, e⟩ := armHeaderTimeout_cases fd now s
  · rw [e]
    exact .refl fd s
  · rw [e]
    exact ⟨List.prefix_append .., id⟩

theorem closeClientConnection (reason : CloseReason) (s : Server) :
    Unqueued fd s (closeClientConnection fd reason s) := by
  have hstart : From 0 s ⟨s, {}, {}⟩ := .refl
  constructor
  · exact (hstart.closeClientConnection fd reason).later.trace
  · exact fun hout hmem => hout ((closeClientConnection_queue fd reason s).subset hmem)

end Unqueued

theorem Still.unqueued (h : Still n fd ⟨s, budget, io⟩) (io' : Io) (hq : Unqueued fd s s')
    (hbudget : budget'.readRemaining = budget.readRemaining) : Still n fd ⟨s', budget', io'⟩ :=
  ⟨h.count.trans (progress_mono hq.trace), hq.out h.out, hbudget ▸ h.unread⟩

/-! ## Flushing -/

theorem finishFlush_moved (h : Still n fd r) (connection : ClientConnection) :
    wlp (finishFlush fd connection) (fun _ => Moved n fd) r := by
  refine wlp_mono (finishFlush_drained connection r) fun _ r' h' => .inr ?_
  exact (h.logged rfl).trans_le (progress_mono h'.later.trace)

theorem flushLoop_moved (turns : Nat) (h : Still n fd r) :
    wlp (flushLoop fd turns) (fun _ => Moved n fd) r := by
  induction turns generalizing r with
  | zero => exact (wlp_pure ..).mpr (.inl h)
  | succ turns ih =>
    unfold flushLoop
    simp only [wlp_bind, wlp_findClient]
    cases hf : r.server.find fd with
    | none => exact (wlp_pure ..).mpr (.inl h)
    | some c =>
      simp only [wlp_ite, wlp_bind, wlp_pure, wlp_get, wlp_modifyServer]
      refine ⟨fun _ => .inl h, fun _ => ⟨fun _ => finishFlush_moved h c, fun _ =>
        ⟨fun _ => .inl (h.unqueued _ (.updateClientPollMask _) rfl), fun _ => ?_⟩⟩⟩
      apply wlp_writeResponse
      intro outcome events io hwrites
      have hwritten (budget : EventBudget) (hb : budget.readRemaining = r.budget.readRemaining) :
          Still n fd ⟨r.server.log events, budget, io⟩ := h.unqueued _ (.log events _) hb
      cases outcome with
      | error errno =>
        simp only [wlp_bind, wlp_modifyServer]
        have herror : Still n fd ⟨recordErrorMetric (r.server.log events), r.budget, io⟩ :=
          (hwritten _ rfl).unqueued _ ⟨List.prefix_refl _, id⟩ rfl
        exact .inl (herror.unqueued _ (.closeClientConnection _ _) rfl)
      | ok written =>
        cases written with
        | zero => exact (wlp_pure ..).mpr (.inl (hwritten _ rfl))
        | succ k =>
          simp only [wlp_bind, wlp_subSize, wlp_modify, wlp_modifyServer]
          refine fun _ => ih ?_
          have hspent := hwritten { r.budget with
            writeRemaining := r.budget.writeRemaining - (k + 1) } rfl
          have hupdated := hspent.unqueued io
            (.update (fun c => { c with outputBuffer := c.outputBuffer.drop (k + 1) }) _) rfl
          exact hupdated.unqueued _ (.releaseInflightBytes _ _) rfl

theorem flushClientOutput_moved (h : Still n fd r) :
    wlp (flushClientOutput fd) (fun _ => Moved n fd) r := by
  unfold flushClientOutput
  simp only [wlp_bind, wlp_findClient]
  cases r.server.find fd with
  | none => exact (wlp_pure ..).mpr (.inl h)
  | some c => exact flushLoop_moved _ h

/-! ## Request bodies -/

theorem consumeBodyBytes_still (h : Still n fd r) (connection : ClientConnection)
    (available : Nat) :
    wlp (consumeBodyBytes fd connection available) (fun _ => Still n fd) r := by
  unfold consumeBodyBytes
  simp only [wlp_bind, wlp_lift, wlp_subSize, wlp_modifyServer]
  intro rest _ _
  have htaken := h.unqueued r.io (.update (fun c => { c with
    inputBuffer := rest
    pendingBodyBytesRemaining := connection.pendingBodyBytesRemaining - available }) _) rfl
  exact htaken.unqueued _ (.releaseInflightBytes _ _) rfl

theorem finishBodyIfComplete_moved (h : Still n fd r) :
    wlp (finishBodyIfComplete fd) (fun _ => Moved n fd) r := by
  unfold finishBodyIfComplete
  simp only [wlp_bind, wlp_findClient]
  cases hf : r.server.find fd with
  | none => exact (wlp_pure ..).mpr (.inl h)
  | some c =>
    simp only [wlp_ite, wlp_bind, wlp_pure, wlp_modifyServer]
    refine ⟨fun _ => .inl h, fun _ => ?_⟩
    refine startOkResponse_dispatched _ (.inl (h.unqueued _ ⟨List.prefix_refl _, id⟩ rfl)) ?_
    intro c' keepAlive r' _ h'
    exact .inr ((h.logged rfl).trans_le (progress_mono h'.later.trace))

theorem consumePendingRequestBody_moved (h : Still n fd r) :
    wlp (consumePendingRequestBody fd) (fun _ => Moved n fd) r := by
  unfold consumePendingRequestBody
  simp only [wlp_bind, wlp_findClient]
  cases hf : r.server.find fd with
  | none => exact (wlp_pure ..).mpr (.inl h)
  | some c =>
    simp only [wlp_ite, wlp_bind, wlp_pure]
    refine ⟨fun _ => .inl h, fun _ => ⟨fun _ => .inl h, fun _ => ⟨fun _ => ?_, fun _ => ?_⟩⟩⟩
    · exact wlp_mono (consumeBodyBytes_still h _ _) fun _ _ h' => finishBodyIfComplete_moved h'
    · exact finishBodyIfComplete_moved h

/-! ## Headers -/

/-- The header loop takes the first complete header, when there is one. -/
theorem headerLoop_moved (turns : Nat) (h : Still n fd r)
    (hheader : ∀ c, r.server.find fd = some c → c.inputBuffer.hasCompleteHeader = true) :
    wlp (headerLoop fd (turns + 1))
      (fun goOn r' => Moved n fd r' ∧ (goOn = true → n < progress r'.server.trace)) r := by
  have hstop : Moved n fd r ∧ (false = true → n < progress r.server.trace) :=
    ⟨.inl h, fun hgo => absurd hgo Bool.false_ne_true⟩
  unfold headerLoop
  simp only [wlp_bind, wlp_findClient]
  cases hf : r.server.find fd with
  | none => exact (wlp_pure ..).mpr hstop
  | some c =>
    simp only [wlp_ite, wlp_bind, wlp_pure, wlp_lift, wlp_subSize, wlp_modifyServer]
    refine ⟨fun _ => hstop, fun _ => ⟨fun hno => ?_, fun _ popped _ _ => ?_⟩⟩
    · rw [hheader c hf] at hno
      cases hno
    · -- from here on nothing can undo the progress, whatever becomes of the request
      have hpopped := (h.logged (e := .popped c popped.1) rfl).trans_le (progress_mono
        (show Unqueued fd _ _ from .releaseInflightBytes (c.inputBuffer.size - popped.2.size)
          ((r.server.put fd { c with inputBuffer := popped.2 }).log [.popped c popped.1])).trace)
      refine wlp_mono (wlp_progressed (fun t s h' => (from_kept fd t s).processHeader ?_ h' popped.1
        fun _ h' => (from_kept fd t s).headerLoop turns h') hpopped) fun _ _ h' => ⟨.inr h', fun _ => h'⟩
      rw [find_releaseInflightBytes]
      exact Option.isSome_iff_exists.mpr ⟨_, find_put ..⟩

theorem processBufferedHeaders_moved (h : Still n fd r)
    (hheader : ∀ c, r.server.find fd = some c → c.inputBuffer.hasCompleteHeader = true) :
    wlp (processBufferedHeaders fd) (fun _ => Moved n fd) r := by
  unfold processBufferedHeaders
  simp only [wlp_bind, wlp_ite, wlp_pure]
  refine wlp_mono (headerLoop_moved _ h hheader) fun goOn r' h' => ⟨fun _ => h'.1, fun hgo => ?_⟩
  have hgoOn : goOn = true := by simpa using hgo
  exact wlp_mono (wlp_progressed (fun t s h' => (from_kept fd t s).settleConnection h')
    (h'.2 hgoOn)) fun _ _ h' => .inr h'

/-! ## Reading -/

theorem readTurn_moved (h : Still n fd r) (answer : ReadResult) {next : ServerM Unit}
    (hnext : ∀ r', Still n fd r' → wlp next (fun _ => Moved n fd) r')
    (hgoOn : ∀ t s r', From t s r' → wlp next (fun _ => From t s) r') :
    wlp (readTurn fd answer next) (fun _ => Moved n fd) r := by
  unfold readTurn
  simp only [wlp_bind, wlp_findClient]
  cases hf : r.server.find fd with
  | none => exact (wlp_pure ..).mpr (.inl h)
  | some c =>
    simp only [wlp_ite, wlp_bind, wlp_pure, wlp_get, wlp_modifyServer]
    refine ⟨fun _ => .inl h, fun _ => ⟨fun hzero => ?_, fun _ => ?_⟩⟩
    -- a budget that is used up has been used for a `read()`
    · exact absurd hzero (Nat.pos_iff_ne_zero.mp h.unread)
    generalize answer.clip _ = answer
    have hread : Still n fd { r with server := r.server.log [.read c answer] } :=
      h.unqueued _ (.log _ _) rfl
    cases answer with
    | got data =>
      cases data with
      | nil => exact (wlp_modifyServer ..).mpr (.inl (hread.unqueued _ (.closeClientConnection _ _) rfl))
      | cons b data =>
        have hgot : n < progress (r.server.log [.read c (.got (b :: data))]).trace := h.logged rfl
        exact wlp_mono (wlp_progressed (fun t s h' => (from_kept fd t s).receive (b :: data)
          (fun _ => h') fun _ h' => hgoOn t s _ h') hgot) fun _ _ h' => .inr h'
    | failed errno =>
      cases errno with
      | eagain => exact (wlp_pure ..).mpr (.inl hread)
      | eintr => exact hnext _ hread
      | econnaborted | emfile | enfile | other =>
        simp only [wlp_bind, wlp_modifyServer]
        have herror : Still n fd ⟨recordErrorMetric (r.server.log [_]), r.budget, r.io⟩ :=
          hread.unqueued _ ⟨List.prefix_refl _, id⟩ rfl
        exact .inl (herror.unqueued _ (.closeClientConnection _ _) rfl)

theorem readLoop_moved (answers : List ReadResult) (h : Still n fd r) :
    wlp (readLoop fd answers) (fun _ => Moved n fd) r := by
  induction answers generalizing r with
  | nil =>
    exact readTurn_moved h _ (fun _ h' => (wlp_pure ..).mpr (.inl h'))
      fun _ _ _ h' => (wlp_pure ..).mpr h'
  | cons answer answers ih =>
    exact readTurn_moved h answer (fun _ h' => ih h')
      fun t s _ h' => (from_kept fd t s).readLoop answers h'

theorem readFromClient_moved (h : Still n fd r) :
    wlp (readFromClient fd) (fun _ => Moved n fd) r := by
  unfold readFromClient
  rw [wlp_bind, wlp_get]
  exact readLoop_moved _ h

/-! ## The handlers -/

theorem continueReading_moved (h : Still n fd r) :
    wlp (continueReading fd) (fun _ => Moved n fd) r := by
  unfold continueReading
  simp only [wlp_bind, wlp_findClient]
  cases hf : r.server.find fd with
  | none => exact (wlp_pure ..).mpr (.inl h)
  | some c =>
    rw [wlp_ite, wlp_pure, wlp_bind]
    refine ⟨fun _ => .inl h, fun _ => ?_⟩
    have hheaders : wlp (if c.inputBuffer.hasCompleteHeader then processBufferedHeaders fd
        else pure true) (fun _ => Moved n fd) r := by
      rw [wlp_ite, wlp_pure]
      refine ⟨fun hh => processBufferedHeaders_moved h fun d hd => ?_, fun _ => .inl h⟩
      rw [hf] at hd
      cases hd
      exact hh
    refine wlp_mono hheaders fun _ r' h' => ?_
    simp only [wlp_ite, wlp_bind, wlp_pure, wlp_findClient]
    refine ⟨fun _ => h', fun _ => ?_⟩
    cases r'.server.find fd with
    | none => exact (wlp_pure ..).mpr h'
    | some d =>
      simp only [wlp_ite, wlp_bind, wlp_pure, wlp_modifyServer]
      refine ⟨fun _ => h', fun _ => ⟨fun _ => ?_, fun _ => h'⟩⟩
      have hcleared : Moved n fd { r' with
          server := r'.server.update fd fun c => { c with readyForRead := false } } := by
        refine h'.imp (fun h' => h'.unqueued _ (.update _ _) rfl) fun h' => h'.trans_le ?_
        exact progress_mono (show Unqueued fd _ _ from .update _ _).trace
      exact hcleared.andThen readFromClient_moved fun t s h' => (from_kept fd t s).readFromClient h'

theorem continueBody_moved (h : Still n fd r) :
    wlp (continueBody fd) (fun _ => Moved n fd) r := by
  unfold continueBody
  simp only [wlp_bind, wlp_findClient]
  cases r.server.find fd with
  | none => exact (wlp_pure ..).mpr (.inl h)
  | some c =>
    rw [wlp_ite, wlp_pure, wlp_bind]
    refine ⟨fun _ => .inl h, fun _ => ?_⟩
    refine wlp_mono (wlp_ifThen _ (consumePendingRequestBody_moved h) (.inl h)) fun _ r' h' => ?_
    rw [wlp_ite, wlp_pure]
    exact ⟨fun _ => h', fun _ => h'.andThen continueReading_moved
      fun t s h' => (from_kept fd t s).continueReading h'⟩

theorem continueReadyConnection_moved (h : Still n fd r) :
    wlp (continueReadyConnection fd) (fun _ => Moved n fd) r := by
  unfold continueReadyConnection
  simp only [wlp_bind, wlp_findClient]
  cases r.server.find fd with
  | none => exact (wlp_pure ..).mpr (.inl h)
  | some c =>
    rw [wlp_ite, wlp_pure, wlp_bind]
    refine ⟨fun _ => .inl h, fun _ => ?_⟩
    exact wlp_mono (wlp_ifThen _ (flushClientOutput_moved h) (.inl h)) fun _ _ h' =>
      h'.andThen continueBody_moved fun t s h' => (from_kept fd t s).continueBody h'

theorem handleReadable_moved (h : Still n fd r) (events : EpollEvents) :
    wlp (handleReadable fd events) (fun _ => Moved n fd) r := by
  unfold handleReadable
  simp only [wlp_bind, wlp_findClient]
  cases hf : r.server.find fd with
  | none => exact (wlp_pure ..).mpr (.inl h)
  | some c =>
    simp only [wlp_ite, wlp_bind, wlp_pure, wlp_modifyServer]
    refine ⟨fun _ => .inl h, fun _ => ⟨fun _ => wlp_clock ?_, fun _ => readFromClient_moved h⟩⟩
    have hput := h.unqueued (tick r.io) (.put c.disarmIdleKeepAliveTimeout _) rfl
    have harmed := hput.unqueued (tick r.io) (.armHeaderTimeout (tick r.io).now _) rfl
    simp only [wlp_findClient]
    cases Server.find _ fd with
    | none => exact (wlp_pure ..).mpr (.inl harmed)
    | some d =>
      simp only [wlp_ite, wlp_pure]
      exact ⟨fun _ => .inl harmed, fun _ => readFromClient_moved harmed⟩

theorem handleClientEvent_moved (h : Still n fd r) (events : EpollEvents) :
    wlp (handleClientEvent fd events) (fun _ => Moved n fd) r := by
  unfold handleClientEvent
  simp only [wlp_ite, wlp_bind, wlp_modifyServer, wlp_pure, wlp_findClient]
  refine ⟨fun _ => .inl (h.unqueued _ (.closeClientConnection _ _) rfl), fun _ => ?_⟩
  cases r.server.find fd with
  | none => exact (wlp_pure ..).mpr (.inl h)
  | some c =>
    rw [wlp_ite, wlp_pure, wlp_ite, wlp_bind]
    refine ⟨fun _ => .inl h, fun _ => ⟨fun _ => ?_, fun _ => handleReadable_moved h events⟩⟩
    refine wlp_mono (wlp_ifThen _ (flushClientOutput_moved h) (.inl h)) fun _ r' h' => ?_
    rw [wlp_bind, wlp_findClient]
    cases r'.server.find fd with
    | none => exact (wlp_pure ..).mpr h'
    | some d =>
      rw [wlp_ite, wlp_pure]
      exact ⟨fun _ => h', fun _ => h'.andThen (handleReadable_moved · events)
        fun t s h' => (from_kept fd t s).handleReadable h' events⟩

theorem handlePollEvent_moved {event : PollEvent} (hlisten : event.fd ≠ r.server.listenFd)
    (h : Still n event.fd r) : wlp (handlePollEvent event) (fun _ => Moved n event.fd) r := by
  unfold handlePollEvent
  simp only [wlp_bind, wlp_get, wlp_ite, wlp_findClient]
  refine ⟨fun hsame => absurd hsame hlisten, fun _ => ?_⟩
  cases r.server.find event.fd with
  | none => exact (wlp_pure ..).mpr (.inl h)
  | some c =>
    simp only [wlp_ite, wlp_pure]
    exact ⟨fun _ => .inl h, fun _ => handleClientEvent_moved h event.events⟩

end WebServer.Kernel
