import WebServer.Core.EventLoop
import WebServer.Kernel.Descriptor
import WebServer.Lib.LiberalPre
import WebServer.Refine.Moves

/-!
# One walk over the handlers

The handlers that work on a registered connection are put together from three functions, which
refuse a request, answer one and flush, and from bookkeeping.  What these keep, the handlers keep.
The clock is read before every arming, and a timer is armed for what it showed.
-/

namespace WebServer.Kernel

open WebServer.Net WebServer.Http WebServer.Core WebServer.Life WebServer.Refine
  LiberalPre

variable {fd : Fd} {c : ClientConnection} {s s' : Server} {r r' : Round}

/-! ## Rules -/

@[simp] theorem wlp_findClient (fd : Fd) (Q : Option ClientConnection → Round → Prop) (r : Round) :
    wlp (findClient fd) Q r ↔ Q (r.server.find fd) r := wlp_pure (r.server.find fd) Q r

@[simp] theorem wlp_modifyServer (f : Server → Server) (Q : Unit → Round → Prop) (r : Round) :
    wlp (modifyServer f) Q r ↔ Q () { r with server := f r.server } := wlp_modify _ Q r

theorem wlp_steadyClockNow {Q : Time → Round → Prop} (h : ∀ now io, Q now { r with io := io }) :
    wlp steadyClockNow Q r := by
  rintro _ _ ⟨⟩
  exact h _ _

@[simp] theorem wlp_subSize (left right : Nat) (Q : Nat → Round → Prop) (r : Round) :
    wlp (subSize left right) Q r ↔ (right ≤ left → Q (left - right) r) := by
  unfold subSize
  by_cases h : right ≤ left <;> simp [h]

theorem wlp_writeResponse {Q : Except Errno Nat → Round → Prop} {life : Nat} {data : Bytes}
    (h : ∀ outcome events io, Writes fd events →
      Q outcome { r with server := r.server.log events, io := io }) :
    wlp (writeResponse fd life data) Q r := by
  rintro _ _ ⟨⟩
  refine h _ _ _ fun e he => ?_
  obtain ⟨answer, -, rfl⟩ := List.mem_map.mp he
  exact ⟨_, _, _, _, rfl⟩

theorem wlp_writeErrorResponse {Q : Bool → Round → Prop} {life : Option Nat} {data : Bytes}
    (h : ∀ ok events io, Writes fd events →
      Q ok { r with server := r.server.log events, io := io }) :
    wlp (writeErrorResponse fd life data) Q r := by
  rintro _ _ ⟨⟩
  refine h _ _ _ fun e he => ?_
  obtain ⟨answer, -, rfl⟩ := List.mem_map.mp he
  exact ⟨_, _, _, _, rfl⟩

/-- The answers left after the clock has been read. -/
def tick (io : Io) : Io := { io with now := io.now + io.ticks.headD 0, ticks := io.ticks.tail }

theorem wlp_clock {Q : Time → Round → Prop} (h : Q (tick r.io).now { r with io := tick r.io }) :
    wlp steadyClockNow Q r := by
  rintro _ _ ⟨⟩
  exact h

/-- A call that is made under a condition. -/
theorem wlp_ifThen {α : Type} {call : ServerM α} {y : α} {Q : α → Round → Prop} (cond : Prop)
    [Decidable cond] (hcall : wlp call Q r) (hskip : Q y r) :
    wlp (if cond then call else pure y) Q r := by
  rw [wlp_ite, wlp_pure]
  exact ⟨fun _ => hcall, fun _ => hskip⟩

/-! ## The parts of a handler -/

/-- The status codes of `SendErrorResponseAndClose`. -/
def errorStatuses : List Nat := [400, 411, 413, 431, 501, 503]

theorem statusCode_mem (e : ParseError) : ParseError.statusCode e ∈ errorStatuses := by
  cases e <;> simp [ParseError.statusCode, errorStatuses]

/-- Events that are neither calls on a descriptor nor counted. -/
def isNote : Event → Bool
  | .limitChecked _ | .popped .. | .bodyBegun .. | .settled _ | .reserved .. => true
  | _ => false

/-- Every part of a handler call for `fd` keeps `P`.  A `read()` takes its bytes from the
budget, and a timer runs from the last reading of the clock. -/
structure Clocked (fd : Fd) (P : Round → Prop) : Prop where
  refuse : ∀ {r} statusCode, statusCode ∈ errorStatuses → P r →
    wlp (sendErrorResponseAndClose fd statusCode) (fun _ => P) r
  dispatch : ∀ {r} request, (r.server.find fd).isSome = true → P r →
    wlp (startOkResponse fd request) (fun _ => P) { r with server := countRequest r.server }
  flush : ∀ {r}, P r → wlp (flushClientOutput fd) (fun _ => P) r
  clock : ∀ {s budget io}, P ⟨s, budget, io⟩ → P ⟨s, budget, tick io⟩
  put : ∀ {s budget io} {c : ClientConnection} c', s.find fd = some c → c'.socket = c.socket →
    c'.closing = c.closing → c'.outputBuffer = c.outputBuffer → P ⟨s, budget, io⟩ →
    P ⟨s.put fd c', budget, io⟩
  note : ∀ {s budget io} e, isNote e = true → P ⟨s, budget, io⟩ → P ⟨s.log [e], budget, io⟩
  read : ∀ {s budget io c} answer, s.find fd = some c →
    (bytesRead (.read c answer)).length ≤ budget.readRemaining → P ⟨s, budget, io⟩ →
    P ⟨s.log [.read c answer], { budget with
      readRemaining := budget.readRemaining - (bytesRead (.read c answer)).length }, io⟩
  grow : ∀ {s budget io} n, P ⟨s, budget, io⟩ → P ⟨growInflight n s, budget, io⟩
  release : ∀ {s budget io} n, P ⟨s, budget, io⟩ → P ⟨releaseInflightBytes n s, budget, io⟩
  armHeader : ∀ {s budget io}, P ⟨s, budget, io⟩ → P ⟨armHeaderTimeout fd io.now s, budget, io⟩
  armBody : ∀ {s budget io} contentLength, P ⟨s, budget, io⟩ →
    P ⟨armBodyTimeout fd io.now contentLength s, budget, io⟩
  armIdle : ∀ {s budget io}, P ⟨s, budget, io⟩ →
    P ⟨armIdleKeepAliveTimeout fd io.now s, budget, io⟩
  enqueue : ∀ {s budget io}, P ⟨s, budget, io⟩ → P ⟨enqueueReadyConnection fd s, budget, io⟩
  poll : ∀ {s budget io}, P ⟨s, budget, io⟩ → P ⟨updateClientPollMask fd s, budget, io⟩
  close : ∀ {s budget io} reason, reason ≠ .readFailed ∧ reason ≠ .writeFailed →
    P ⟨s, budget, io⟩ → P ⟨closeClientConnection fd reason s, budget, io⟩
  readFailed : ∀ {s budget io c}, s.find fd = some c → P ⟨s, budget, io⟩ →
    P ⟨closeClientConnection fd .readFailed (recordErrorMetric s), budget, io⟩

namespace Clocked

variable {P : Round → Prop}

theorem update (hP : Clocked fd P) (f : ClientConnection → ClientConnection)
    (hsocket : ∀ c, (f c).socket = c.socket) (hclosing : ∀ c, (f c).closing = c.closing)
    (hout : ∀ c, (f c).outputBuffer = c.outputBuffer) (h : P r) :
    P { r with server := r.server.update fd f } := by
  unfold Server.update
  cases hf : r.server.find fd with
  | none => exact h
  | some c => exact hP.put _ hf (hsocket c) (hclosing c) (hout c) h

/-! ## The input buffer -/

theorem tryReserveInflightBytes (hP : Clocked fd P) (h : P r) (growth : Growth)
    (addBytes : Nat) :
    wlp (tryReserveInflightBytes fd growth addBytes) (fun _ => P) r := by
  unfold Core.tryReserveInflightBytes
  simp only [wlp_bind, wlp_ite, wlp_pure, wlp_get, wlp_modifyServer]
  have hasked := hP.note
    (.reserved (r.server.find fd) growth addBytes r.server.globalInflightBytes) rfl h
  exact ⟨fun _ => h, fun _ => ⟨fun _ => hP.refuse 503 (by decide) hasked, fun _ => hasked⟩⟩

theorem appendToInputBuffer (hP : Clocked fd P) (h : P r) (data : Bytes) :
    wlp (appendToInputBuffer fd data) (fun _ => P) r := by
  unfold Core.appendToInputBuffer
  simp only [wlp_bind, wlp_ite, wlp_pure, wlp_modifyServer]
  refine ⟨fun _ => h, fun _ => wlp_mono (hP.tryReserveInflightBytes h _ _) fun ok r' h' => ?_⟩
  refine ⟨fun _ => h', fun _ => hP.grow _ ?_⟩
  exact hP.update _ (fun _ => rfl) (fun _ => rfl) (fun _ => rfl) h'

/-! ## Request bodies -/

theorem consumeBodyBytes (hP : Clocked fd P) (h : P r) (connection : ClientConnection)
    (available : Nat) :
    wlp (consumeBodyBytes fd connection available) (fun _ => P) r := by
  unfold Core.consumeBodyBytes
  simp only [wlp_bind, wlp_lift, wlp_subSize, wlp_modifyServer]
  refine fun rest _ _ => hP.release _ ?_
  exact hP.update _ (fun _ => rfl) (fun _ => rfl) (fun _ => rfl) h

theorem finishBodyIfComplete (hP : Clocked fd P) (h : P r) :
    wlp (finishBodyIfComplete fd) (fun _ => P) r := by
  unfold Core.finishBodyIfComplete
  simp only [wlp_bind, wlp_findClient]
  cases hf : r.server.find fd with
  | none => exact (wlp_pure ..).mpr h
  | some c =>
    simp only [wlp_ite, wlp_bind, wlp_pure, wlp_modifyServer]
    refine ⟨fun _ => h, fun _ => ?_⟩
    have hput := hP.put c.finishBody hf rfl rfl rfl h
    exact hP.dispatch _ (by simp) hput

theorem consumePendingRequestBody (hP : Clocked fd P) (h : P r) :
    wlp (consumePendingRequestBody fd) (fun _ => P) r := by
  unfold Core.consumePendingRequestBody
  simp only [wlp_bind, wlp_findClient]
  cases hf : r.server.find fd with
  | none => exact (wlp_pure ..).mpr h
  | some c =>
    simp only [wlp_ite, wlp_bind, wlp_pure]
    refine ⟨fun _ => h, fun _ => ⟨fun _ => h, fun _ => ⟨fun _ => ?_, fun _ => ?_⟩⟩⟩
    · exact wlp_mono (hP.consumeBodyBytes h _ _) fun _ _ h' => hP.finishBodyIfComplete h'
    · exact hP.finishBodyIfComplete h

theorem beginRequestBodyReceive (hP : Clocked fd P) (h : P r) (request : HttpRequest) :
    wlp (beginRequestBodyReceive fd request) (fun _ => P) r := by
  unfold Core.beginRequestBodyReceive
  simp only [wlp_bind, wlp_findClient]
  cases hf : r.server.find fd with
  | none => exact (wlp_pure ..).mpr h
  | some c =>
    simp only [wlp_ite, wlp_bind, wlp_pure, wlp_modifyServer]
    refine ⟨fun _ => h, fun _ => wlp_clock ?_⟩
    apply hP.consumePendingRequestBody
    have hbegun := hP.note (.bodyBegun c request) rfl h
    have hput := hP.put (s := r.server.log [_]) (c.beginBody request) hf rfl rfl rfl hbegun
    exact hP.armBody _ (hP.clock hput)

/-! ## Headers -/

theorem checkHeaderLimit (hP : Clocked fd P) (h : P r) :
    wlp (checkHeaderLimit fd) (fun _ => P) r := by
  unfold Core.checkHeaderLimit
  simp only [wlp_bind, wlp_findClient]
  cases hf : r.server.find fd with
  | none => exact (wlp_pure ..).mpr h
  | some c =>
    have hchecked := hP.note (.limitChecked c) rfl h
    simp only [wlp_ite, wlp_bind, wlp_pure, wlp_modifyServer]
    exact ⟨fun _ => hchecked, fun _ => hP.refuse 431 (by decide) hchecked⟩

theorem processHeader (hP : Clocked fd P) (hf : (r.server.find fd).isSome = true) (h : P r)
    (header : Bytes) {next : ServerM Bool}
    (hnext : ∀ r', P r' → wlp next (fun _ => P) r') :
    wlp (processHeader fd header next) (fun _ => P) r := by
  unfold Core.processHeader
  cases parseRequestHeader header with
  | error e =>
    simp only [wlp_bind, wlp_pure]
    exact hP.refuse _ (statusCode_mem e) h
  | ok request =>
    simp only [wlp_ite, wlp_bind, wlp_pure, wlp_modifyServer]
    refine ⟨fun _ => hP.refuse 413 (by decide) h, fun _ =>
      ⟨fun _ => hP.beginRequestBodyReceive h request, fun _ => ?_⟩⟩
    exact wlp_mono (hP.dispatch request hf h) fun _ r' h' => hnext r' h'

theorem headerLoop (hP : Clocked fd P) (turns : Nat) (h : P r) :
    wlp (headerLoop fd turns) (fun _ => P) r := by
  induction turns generalizing r with
  | zero => exact (wlp_pure ..).mpr h
  | succ turns ih =>
    unfold Core.headerLoop
    simp only [wlp_bind, wlp_findClient]
    cases hf : r.server.find fd with
    | none => exact (wlp_pure ..).mpr h
    | some c =>
      simp only [wlp_ite, wlp_bind, wlp_pure, wlp_lift, wlp_subSize, wlp_modifyServer]
      refine ⟨fun _ => h, fun _ => ⟨fun _ => h, fun _ popped _ _ => ?_⟩⟩
      have hput := hP.put { c with inputBuffer := popped.2 } hf rfl rfl rfl h
      have hpopped := hP.note (.popped c popped.1) rfl hput
      refine hP.processHeader ?_ (hP.release _ hpopped) _ fun r' h' => ih h'
      rw [find_releaseInflightBytes]
      exact Option.isSome_iff_exists.mpr ⟨_, find_put ..⟩

theorem settleConnection (hP : Clocked fd P) (h : P r) :
    wlp (settleConnection fd) (fun _ => P) r := by
  unfold Core.settleConnection
  simp only [wlp_bind, wlp_findClient]
  cases hf : r.server.find fd with
  | none => exact (wlp_pure ..).mpr h
  | some c =>
    have hsettled := hP.note (.settled c) rfl h
    simp only [wlp_ite, wlp_bind, wlp_pure, wlp_modifyServer]
    refine ⟨fun _ => h, fun _ => ⟨fun _ => hsettled, fun _ => ⟨fun _ => hP.enqueue hsettled,
      fun _ => ⟨fun _ => hP.close _ (by simp) hsettled, fun _ => ⟨fun _ => ?_, fun _ => hsettled⟩⟩⟩⟩⟩
    apply wlp_clock
    apply hP.poll
    split
    · exact hP.armIdle (hP.clock hsettled)
    · exact hP.armHeader (hP.clock hsettled)

theorem processBufferedHeaders (hP : Clocked fd P) (h : P r) :
    wlp (processBufferedHeaders fd) (fun _ => P) r := by
  unfold Core.processBufferedHeaders
  simp only [wlp_bind, wlp_ite, wlp_pure]
  exact wlp_mono (hP.headerLoop _ h) fun _ _ h' => ⟨fun _ => h', fun _ => hP.settleConnection h'⟩

/-! ## Reading -/

theorem readBudgetExhausted (hP : Clocked fd P) (h : P r) :
    wlp (readBudgetExhausted fd) (fun _ => P) r := by
  unfold Core.readBudgetExhausted
  simp only [wlp_bind, wlp_modifyServer]
  apply hP.enqueue
  exact hP.update _ (fun _ => rfl) (fun _ => rfl) (fun _ => rfl) h

theorem processChunk (hP : Clocked fd P) (h : P r) :
    wlp (processChunk fd) (fun _ => P) r := by
  unfold Core.processChunk
  simp only [wlp_bind, wlp_findClient]
  cases r.server.find fd with
  | none => exact (wlp_pure ..).mpr h
  | some c =>
    simp only [wlp_ite, wlp_bind, wlp_pure]
    refine ⟨fun _ => hP.consumePendingRequestBody h, fun _ => ?_⟩
    exact wlp_mono (hP.checkHeaderLimit h) fun _ _ h' =>
      ⟨fun _ => h', fun _ => hP.processBufferedHeaders h'⟩

theorem receive (hP : Clocked fd P) (data : Bytes)
    (h : data.length ≤ r.budget.readRemaining → P { r with
      budget := { r.budget with readRemaining := r.budget.readRemaining - data.length } })
    {next : ServerM Unit} (hnext : ∀ r', P r' → wlp next (fun _ => P) r') :
    wlp (receive fd data next) (fun _ => P) r := by
  unfold Core.receive
  simp only [wlp_bind, wlp_get, wlp_subSize, wlp_modify, wlp_ite, wlp_pure, wlp_findClient]
  refine fun hle => wlp_mono (hP.appendToInputBuffer (h hle) data) fun _ _ h₁ =>
    ⟨fun _ => h₁, fun _ => ?_⟩
  refine wlp_mono (hP.processChunk h₁) fun _ r₂ h₂ => ⟨fun _ => h₂, fun _ => ?_⟩
  cases r₂.server.find fd with
  | none => exact (wlp_pure ..).mpr h₂
  | some c =>
    simp only [wlp_bind, wlp_get, wlp_ite]
    exact ⟨fun _ => hP.readBudgetExhausted h₂, fun _ => hnext r₂ h₂⟩

theorem readTurn (hP : Clocked fd P) (h : P r) (answer : ReadResult) {next : ServerM Unit}
    (hnext : ∀ r', P r' → wlp next (fun _ => P) r') :
    wlp (readTurn fd answer next) (fun _ => P) r := by
  unfold Core.readTurn
  simp only [wlp_bind, wlp_findClient]
  cases hf : r.server.find fd with
  | none => exact (wlp_pure ..).mpr h
  | some c =>
    simp only [wlp_ite, wlp_bind, wlp_pure, wlp_get, wlp_modifyServer]
    refine ⟨fun _ => h, fun _ => ⟨fun _ => hP.readBudgetExhausted h, fun _ => ?_⟩⟩
    generalize answer.clip _ = answer
    cases answer with
    | got data =>
      have hread (hle : data.length ≤ r.budget.readRemaining) := hP.read (.got data) hf hle h
      cases data with
      | nil => exact (wlp_modifyServer ..).mpr (hP.close _ (by simp) (hread (Nat.zero_le _)))
      | cons b data => exact hP.receive _ hread hnext
    | failed errno =>
      have hread := hP.read (.failed errno) hf (Nat.zero_le _) h
      have hfailed := hP.readFailed (s := r.server.log [_]) hf hread
      cases errno with
      | eagain => exact (wlp_pure ..).mpr hread
      | eintr => exact hnext _ hread
      | econnaborted | emfile | enfile | other =>
        simp only [wlp_bind, wlp_modifyServer]
        exact hfailed

theorem readLoop (hP : Clocked fd P) (answers : List ReadResult) (h : P r) :
    wlp (readLoop fd answers) (fun _ => P) r := by
  induction answers generalizing r with
  | nil => exact hP.readTurn h _ fun _ h' => (wlp_pure ..).mpr h'
  | cons answer answers ih => exact hP.readTurn h answer fun _ h' => ih h'

theorem readFromClient (hP : Clocked fd P) (h : P r) :
    wlp (readFromClient fd) (fun _ => P) r := by
  unfold Core.readFromClient
  rw [wlp_bind, wlp_get]
  exact hP.readLoop _ h

/-! ## `ContinueReadyConnection` and `HandleClientEvent` -/

theorem continueReading (hP : Clocked fd P) (h : P r) :
    wlp (continueReading fd) (fun _ => P) r := by
  unfold Core.continueReading
  simp only [wlp_bind, wlp_findClient]
  cases r.server.find fd with
  | none => exact (wlp_pure ..).mpr h
  | some c =>
    rw [wlp_ite, wlp_pure, wlp_bind]
    refine ⟨fun _ => h, fun _ => ?_⟩
    refine wlp_mono (wlp_ifThen _ (hP.processBufferedHeaders h) h) fun _ r' h' => ?_
    simp only [wlp_ite, wlp_bind, wlp_pure, wlp_findClient]
    refine ⟨fun _ => h', fun _ => ?_⟩
    cases r'.server.find fd with
    | none => exact (wlp_pure ..).mpr h'
    | some d =>
      simp only [wlp_ite, wlp_bind, wlp_pure, wlp_modifyServer]
      refine ⟨fun _ => h', fun _ => ⟨fun _ => hP.readFromClient ?_, fun _ => h'⟩⟩
      exact hP.update _ (fun _ => rfl) (fun _ => rfl) (fun _ => rfl) h'

theorem continueBody (hP : Clocked fd P) (h : P r) :
    wlp (continueBody fd) (fun _ => P) r := by
  unfold Core.continueBody
  simp only [wlp_bind, wlp_findClient]
  cases r.server.find fd with
  | none => exact (wlp_pure ..).mpr h
  | some c =>
    rw [wlp_ite, wlp_pure, wlp_bind]
    refine ⟨fun _ => h, fun _ => ?_⟩
    refine wlp_mono (wlp_ifThen _ (hP.consumePendingRequestBody h) h) fun _ r' h' => ?_
    rw [wlp_ite, wlp_pure]
    exact ⟨fun _ => h', fun _ => hP.continueReading h'⟩

theorem continueReadyConnection (hP : Clocked fd P) (h : P r) :
    wlp (continueReadyConnection fd) (fun _ => P) r := by
  unfold Core.continueReadyConnection
  simp only [wlp_bind, wlp_findClient]
  cases r.server.find fd with
  | none => exact (wlp_pure ..).mpr h
  | some c =>
    rw [wlp_ite, wlp_pure, wlp_bind]
    refine ⟨fun _ => h, fun _ => ?_⟩
    exact wlp_mono (wlp_ifThen _ (hP.flush h) h) fun _ _ h' => hP.continueBody h'

theorem handleReadable (hP : Clocked fd P) (h : P r) (events : EpollEvents) :
    wlp (handleReadable fd events) (fun _ => P) r := by
  unfold Core.handleReadable
  simp only [wlp_bind, wlp_findClient]
  cases hf : r.server.find fd with
  | none => exact (wlp_pure ..).mpr h
  | some c =>
    simp only [wlp_ite, wlp_bind, wlp_pure, wlp_modifyServer]
    refine ⟨fun _ => h, fun _ => ⟨fun _ => wlp_clock ?_, fun _ => hP.readFromClient h⟩⟩
    have hput := hP.put c.disarmIdleKeepAliveTimeout hf rfl rfl rfl h
    have harmed := hP.armHeader (hP.clock hput)
    simp only [wlp_findClient]
    cases Server.find _ fd with
    | none => exact (wlp_pure ..).mpr harmed
    | some d =>
      simp only [wlp_ite, wlp_pure]
      exact ⟨fun _ => harmed, fun _ => hP.readFromClient harmed⟩

theorem handleClientEvent (hP : Clocked fd P) (h : P r) (events : EpollEvents) :
    wlp (handleClientEvent fd events) (fun _ => P) r := by
  unfold Core.handleClientEvent
  simp only [wlp_ite, wlp_bind, wlp_modifyServer, wlp_pure, wlp_findClient]
  refine ⟨fun _ => hP.close _ (by simp) h, fun _ => ?_⟩
  cases r.server.find fd with
  | none => exact (wlp_pure ..).mpr h
  | some c =>
    rw [wlp_ite, wlp_pure, wlp_ite, wlp_bind]
    refine ⟨fun _ => h, fun _ => ⟨fun _ => ?_, fun _ => hP.handleReadable h events⟩⟩
    refine wlp_mono (wlp_ifThen _ (hP.flush h) h) fun _ r' h' => ?_
    rw [wlp_bind, wlp_findClient]
    cases r'.server.find fd with
    | none => exact (wlp_pure ..).mpr h'
    | some d =>
      rw [wlp_ite, wlp_pure]
      exact ⟨fun _ => h', fun _ => hP.handleReadable h' events⟩

end Clocked

end WebServer.Kernel
