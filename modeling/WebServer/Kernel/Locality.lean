import WebServer.Kernel.Effects

/-!
# The handlers are local

A handler of `HandleClientEvent` or `ContinueReadyConnection` sees its own connection only, and
does the same to all servers on which that connection is the same, as long as there is room for
the bytes it wants to buffer.  Between two reads it takes at most five header blocks.
-/

namespace WebServer.Kernel

open WebServer.Net WebServer.Http WebServer.Core WebServer.Refine Footprint

variable {fd : Fd} {n m l : Nat} {α β : Type}

/-- The program is local, and behind at most `n` header blocks since the last bytes were read
there are at most `m` after it. -/
abbrev Steps (fd : Fd) (n m : Nat) (f : ServerM α) : Prop := Local (handlerFrame fd) (Raises n m) f

namespace Steps

theorem pure (hnm : n ≤ m) (a : α) : Steps fd n m (pure a) := Local.pure (.dull hnm rfl) a

theorem bind {f : ServerM α} {g : α → ServerM β} (hf : Steps fd n m f)
    (hg : ∀ a, Steps fd m l (g a)) : Steps fd n l (f >>= g) :=
  Local.bind hf hg fun _ _ h h' => h.andThen h'

theorem mono {n' m' : Nat} {f : ServerM α} (hf : Steps fd n m f) (hn : n' ≤ n) (hm : m ≤ m') :
    Steps fd n' m' f := Local.mono hf fun _ h => h.mono hn hm

/-! ## Primitives -/

/-- A program that looks its own connection up. -/
theorem findClient {k : Option ClientConnection → ServerM α} (h : ∀ c?, Steps fd n m (k c?)) :
    Steps fd n m (findClient fd >>= k) :=
  Local.get_bind (fun s t hview => by rw [hview.find]) fun s => h (s.server.find fd)

/-- A program that looks at what is left of the budget. -/
theorem budget {k : Round → ServerM α} (hk : ∀ r t, r.budget = t.budget → k r = k t)
    (h : ∀ r, Steps fd n m (k r)) : Steps fd n m (get >>= k) :=
  Local.get_bind (fun r t hview => hk r t hview.budget) h

/-- A program that goes on after a call that returns `true`. -/
theorem andThen {f : ServerM Bool} {a : α} {next : ServerM α} (hf : Steps fd n m f) (hml : m ≤ l)
    (hnext : Steps fd m l next) : Steps fd n l (do
      if !(← f) then
        return a
      next) :=
  bind hf fun _ => .ite _ (fun _ => pure hml a) fun _ => hnext

theorem modifyServer {f : Server → Server} (h : Locally fd n m f) :
    Steps fd n m (modifyServer f) := by
  refine Local.modify fun r => ?_
  obtain ⟨e, after, hraises, hf⟩ := h (r.server.find fd)
  refine ⟨e, hraises, (hf r.server rfl).2, fun t hview => ?_⟩
  have ht := hf t.server hview.find.symm
  exact ⟨⟨(hf r.server rfl).1.trans ht.1.symm, hview.budget, hview.io⟩, ht.2⟩

theorem spend (hnm : n ≤ m) (f : EventBudget → EventBudget) :
    Steps fd n m (modify fun r => { r with budget := f r.budget }) := by
  refine Local.modify fun r => ⟨{}, .dull hnm rfl, .nothing fd r.server, fun t hview => ?_⟩
  exact ⟨⟨hview.find, congrArg f hview.budget, hview.io⟩, .nothing fd t.server⟩

/-- A program that asks the environment and records the answer. -/
theorem ask (hnm : n ≤ m) {f : ServerM α} (a : Io → α) (next : Io → Io)
    (events : Io → List Event) (hdull : ∀ io, ((events io).map blur).all isDull = true)
    (hf : ∀ r, f r = .ok (a r.io,
      { r with io := next r.io, server := r.server.log (events r.io) })) : Steps fd n m f := by
  intro r b r' hrun
  rw [hf] at hrun
  cases hrun
  refine ⟨{ events := (events r.io).map blur }, .dull hnm (hdull r.io), .log fd _ r.server, ?_⟩
  intro _ t hview _
  refine ⟨{ t with io := next r.io, server := t.server.log (events r.io) }, ?_,
    ⟨hview.find, hview.budget, rfl⟩, .log fd _ t.server⟩
  rw [hf, hview.io]

theorem steadyClockNow (hnm : n ≤ m) : Steps fd n m steadyClockNow := by
  refine ask hnm (fun io => io.now + io.ticks.headD 0)
    (fun io => { io with now := io.now + io.ticks.headD 0, ticks := io.ticks.tail })
    (fun _ => []) (fun _ => rfl) fun r => ?_
  rw [Server.log, List.append_nil]
  rfl

theorem writeResponse (hnm : n ≤ m) (life : Nat) (data : Bytes) :
    Steps fd n m (writeResponse fd life data) := by
  refine ask hnm (fun io => (writeSomeNonBlocking data io.writes).2.2)
    (fun io => { io with writes := (writeSomeNonBlocking data io.writes).2.1 })
    (fun io => (writeSomeNonBlocking data io.writes).1.map
      (Event.write .response fd (some life) data)) (fun io => ?_) fun _ => rfl
  rw [List.map_map, List.all_map]
  exact List.all_eq_true.mpr fun _ _ => rfl

theorem writeErrorResponse (hnm : n ≤ m) (life : Option Nat) (data : Bytes) :
    Steps fd n m (writeErrorResponse fd life data) := by
  refine ask hnm (fun io => (writeBestEffort data.length data io.writes).2.2)
    (fun io => { io with writes := (writeBestEffort data.length data io.writes).2.1 })
    (fun io => (writeBestEffort data.length data io.writes).1.map
      fun sent => Event.write .bestEffort fd life sent.1 sent.2)
    (fun io => ?_) fun _ => rfl
  rw [List.map_map, List.all_map]
  exact List.all_eq_true.mpr fun _ _ => rfl

theorem subSize (hnm : n ≤ m) (left right : Nat) : Steps fd n m (subSize left right) := by
  unfold Core.subSize
  exact .ite _ (fun _ => pure hnm _) fun _ => .throw _

theorem lift (hnm : n ≤ m) (x : Except Fault α) : Steps fd n m (liftM x : ServerM α) :=
  Local.lift (.dull hnm rfl) x

/-! ## Error responses and the inflight budget -/

theorem sendErrorResponseAndClose (hnm : n ≤ m) (statusCode : Nat) :
    Steps fd n m (sendErrorResponseAndClose fd statusCode) := by
  unfold Core.sendErrorResponseAndClose
  refine findClient fun c? => ?_
  cases c? with
  | none => exact pure hnm ()
  | some c =>
    refine bind (modifyServer (.log hnm rfl)) fun _ => ?_
    refine bind (modifyServer (.recordRejectMetric (Nat.le_refl m) statusCode)) fun _ => ?_
    refine bind (modifyServer (.recordErrorMetric (Nat.le_refl m))) fun _ => ?_
    refine bind (writeErrorResponse (Nat.le_refl m) _ _) fun _ => ?_
    exact modifyServer (.closeClientConnection (Nat.le_refl m) _)

/-- The round once `TryReserveInflightBytes` has been asked. -/
def askedFor (fd : Fd) (growth : Growth) (addBytes : Nat) (r : Round) : Round :=
  { r with
    server := r.server.log
      [.reserved (r.server.find fd) growth addBytes r.server.globalInflightBytes] }

theorem tryReserve_granted (growth : Growth) {addBytes : Nat} (hpos : addBytes ≠ 0) {r : Round}
    (h : r.server.globalInflightBytes + addBytes ≤ kMaxInflightBytes) :
    tryReserveInflightBytes fd growth addBytes r =
      .ok (true, askedFor fd growth addBytes r) := by
  unfold tryReserveInflightBytes
  rw [if_neg hpos]
  show (ite _ _ _ : ServerM Bool) (askedFor fd growth addBytes r) = _
  rw [if_neg (by simp; omega)]
  rfl

theorem tryReserve_refused (growth : Growth) {addBytes : Nat} (hpos : addBytes ≠ 0) {r : Round}
    (h : kMaxInflightBytes < r.server.globalInflightBytes + addBytes) :
    tryReserveInflightBytes fd growth addBytes r =
      (Core.sendErrorResponseAndClose fd 503 (askedFor fd growth addBytes r)).map
        fun result => (false, result.2) := by
  unfold tryReserveInflightBytes
  rw [if_neg hpos]
  show (ite _ _ _ : ServerM Bool) (askedFor fd growth addBytes r) = _
  rw [if_pos (by simp; omega)]
  show (Core.sendErrorResponseAndClose fd 503 (askedFor fd growth addBytes r) >>= fun _ => _) = _
  cases Core.sendErrorResponseAndClose fd 503 (askedFor fd growth addBytes r) <;> rfl

theorem does_askedFor (fd : Fd) (growth : Growth) (addBytes : Nat) (r : Round) :
    Does fd { events := [.reserved (r.server.find fd) growth addBytes 0] } r.server
      (askedFor fd growth addBytes r).server :=
  .log fd [.reserved (r.server.find fd) growth addBytes r.server.globalInflightBytes] r.server

/-- Room is asked for, and taken. -/
theorem does_grow (fd : Fd) (growth : Growth) (addBytes : Nat)
    (g : ClientConnection → ClientConnection) (r : Round) :
    Does fd { events := [.reserved (r.server.find fd) growth addBytes 0] } r.server
      (growInflight addBytes ((askedFor fd growth addBytes r).server.update fd g)) := by
  have h := (does_askedFor fd growth addBytes r).andThen (.update fd g (askedFor fd growth addBytes r).server)
  have hupdate := (Does.update fd g (askedFor fd growth addBytes r).server).inflight
  refine ⟨h.others, h.poller, h.heap, h.retired, fun k => ?_, ?_, h.trace⟩
  · refine Eq.trans ?_ (h.counts k)
    cases k <;> rfl
  · exact Nat.add_le_add_right hupdate addBytes

/-- `TryReserveInflightBytes` with what a caller does once it has the bytes. -/
theorem reserve (growth : Growth) {addBytes : Nat} (hpos : addBytes ≠ 0)
    (g : ClientConnection → ClientConnection) :
    Steps fd n n (do
      if !(← tryReserveInflightBytes fd growth addBytes) then
        return false
      Core.modifyServer (·.update fd g)
      Core.modifyServer (growInflight addBytes)
      return true) := by
  intro r ok r' hrun
  let asked : Effect := { events := [.reserved (r.server.find fd) growth addBytes 0] }
  have hraises : Raises n n asked := .dull (Nat.le_refl n) rfl
  have hneeds (t : Round) (ht : Room asked t.server) :
      t.server.globalInflightBytes + addBytes ≤ kMaxInflightBytes := ht
  by_cases hroom : r.server.globalInflightBytes + addBytes ≤ kMaxInflightBytes
  · have hgranted (t : Round) (ht : t.server.globalInflightBytes + addBytes ≤ kMaxInflightBytes) :
        (do
          if !(← tryReserveInflightBytes fd growth addBytes) then
            return false
          Core.modifyServer (·.update fd g)
          Core.modifyServer (growInflight addBytes)
          return true : ServerM Bool) t = .ok (true, { t with
            server := growInflight addBytes ((askedFor fd growth addBytes t).server.update fd g) }) := by
      show (tryReserveInflightBytes fd growth addBytes t >>= fun p => _) = _
      rw [tryReserve_granted growth hpos ht]
      rfl
    rw [hgranted r hroom] at hrun
    cases hrun
    refine ⟨asked, hraises, does_grow fd growth addBytes g r, fun _ t hview ht => ?_⟩
    refine ⟨_, hgranted t (hneeds t ht), ⟨?_, hview.budget, hview.io⟩, ?_⟩
    · show (Server.update _ fd g).find fd = (Server.update _ fd g).find fd
      rw [find_update, find_update]
      exact congrArg _ hview.find
    · have hfind : r.server.find fd = t.server.find fd := hview.find
      show Does fd { events := [.reserved (r.server.find fd) growth addBytes 0] } _ _
      rw [hfind]
      exact does_grow fd growth addBytes g t
  · replace hrun : (tryReserveInflightBytes fd growth addBytes r >>= fun p => _) = _ := hrun
    rw [tryReserve_refused growth hpos (Nat.lt_of_not_le hroom)] at hrun
    cases hs : Core.sendErrorResponseAndClose fd 503 (askedFor fd growth addBytes r) with
    | error fault =>
      rw [hs] at hrun
      cases hrun
    | ok result =>
      rw [hs] at hrun
      cases hrun
      obtain ⟨e, he, hdoes, -⟩ := sendErrorResponseAndClose (Nat.le_refl n) 503 _ _ _ hs
      exact ⟨asked.andThen e, hraises.andThen he, (does_askedFor fd growth addBytes r).andThen hdoes,
        fun h => absurd (hneeds r h.split.1) hroom⟩

theorem appendToInputBuffer (hnm : n ≤ m) (data : Bytes) :
    Steps fd n m (appendToInputBuffer fd data) := by
  unfold Core.appendToInputBuffer
  exact .ite _ (fun _ => pure hnm _) fun hpos => mono (reserve _ hpos _) (Nat.le_refl n) hnm

theorem appendToOutputBuffer (hnm : n ≤ m) (data : Bytes) :
    Steps fd n m (appendToOutputBuffer fd data) := by
  unfold Core.appendToOutputBuffer
  refine .ite _ (fun _ => pure hnm _) fun hne => mono (reserve _ ?_ _) (Nat.le_refl n) hnm
  exact mt List.length_eq_zero_iff.mp hne

theorem replaceOutputBuffer (hnm : n ≤ m) (connection : ClientConnection) (data : Bytes) :
    Steps fd n m (replaceOutputBuffer fd connection data) := by
  unfold Core.replaceOutputBuffer
  refine .ite _ (fun hlt => ?_) fun _ => ?_
  · unfold Core.subSize
    rw [if_pos (Nat.le_of_lt hlt)]
    exact mono (reserve _ (Nat.sub_ne_zero_of_lt hlt) _) (Nat.le_refl n) hnm
  · refine bind (modifyServer (.update hnm _)) fun _ => bind (subSize (Nat.le_refl m) _ _) fun _ => ?_
    exact bind (modifyServer (.releaseInflightBytes (Nat.le_refl m) _)) fun _ => pure (Nat.le_refl m) _

/-! ## Starting a response and flushing -/

theorem startOkResponse (request : HttpRequest) :
    Steps fd n n (startOkResponse fd request) := by
  unfold Core.startOkResponse
  refine findClient fun c? => ?_
  cases c? with
  | none => exact pure (Nat.le_refl n) ()
  | some c =>
    refine .ite _ (fun _ => pure (Nat.le_refl n) ()) fun _ => ?_
    refine bind (modifyServer (.put (Nat.le_refl n) _)) fun _ => ?_
    have hpoll : Steps fd n n (Core.modifyServer (updateClientPollMask fd)) :=
      modifyServer (.updateClientPollMask (Nat.le_refl n))
    refine bind (modifyServer (.log (Nat.le_refl n) rfl)) fun _ => ?_
    refine budget (fun r t h => by simp only [h]) fun r => ?_
    refine .ite _ (fun _ => andThen (appendToOutputBuffer (Nat.le_refl n) _) (Nat.le_refl n)
      (bind hpoll fun _ => pure (Nat.le_refl n) ())) fun _ => ?_
    refine .ite _ (fun _ => andThen (replaceOutputBuffer (Nat.le_refl n) _ _) (Nat.le_refl n)
      (bind hpoll fun _ => pure (Nat.le_refl n) ())) fun _ => ?_
    refine bind (writeResponse (Nat.le_refl n) _ _) fun outcome => ?_
    cases outcome with
    | error errno =>
      exact bind (modifyServer (.recordErrorMetric (Nat.le_refl n))) fun _ =>
        modifyServer (.closeClientConnection (Nat.le_refl n) _)
    | ok written =>
      refine bind (subSize (Nat.le_refl n) _ _) fun rest => ?_
      refine bind (spend (Nat.le_refl n) fun b => { b with writeRemaining := rest }) fun _ => ?_
      refine .ite _ (fun _ => pure (Nat.le_refl n) ()) fun _ => ?_
      exact andThen (replaceOutputBuffer (Nat.le_refl n) _ _) (Nat.le_refl n) hpoll

theorem finishFlush (connection : ClientConnection) : Steps fd n n (finishFlush fd connection) := by
  have hpoll : Steps fd n n (Core.modifyServer (updateClientPollMask fd)) :=
    modifyServer (.updateClientPollMask (Nat.le_refl n))
  have hqueue := bind hpoll fun _ => modifyServer (.enqueueReadyConnection (Nat.le_refl n))
  unfold Core.finishFlush
  refine bind (modifyServer (.log (Nat.le_refl n) rfl)) fun _ => ?_
  refine .ite _ (fun _ => hqueue) fun _ => .ite _ (fun _ => hqueue) fun _ => ?_
  refine .ite _ (fun _ => modifyServer (.closeClientConnection (Nat.le_refl n) _)) fun _ => ?_
  refine .ite _ (fun _ => ?_) fun _ => hpoll
  exact bind (steadyClockNow (Nat.le_refl n)) fun now =>
    bind (modifyServer (.armIdleKeepAliveTimeout (Nat.le_refl n) now)) fun _ => hpoll

theorem flushLoop (turns : Nat) : Steps fd n n (flushLoop fd turns) := by
  induction turns with
  | zero => exact pure (Nat.le_refl n) ()
  | succ turns ih =>
    unfold Core.flushLoop
    refine findClient fun c? => ?_
    cases c? with
    | none => exact pure (Nat.le_refl n) ()
    | some c =>
      refine .ite _ (fun _ => pure (Nat.le_refl n) ()) fun _ => ?_
      refine budget (fun r t h => by simp only [h]) fun r => ?_
      refine .ite _ (fun _ => finishFlush c) fun _ => ?_
      refine .ite _ (fun _ => modifyServer (.updateClientPollMask (Nat.le_refl n))) fun _ => ?_
      refine bind (writeResponse (Nat.le_refl n) _ _) fun outcome => ?_
      cases outcome with
      | error errno =>
        exact bind (modifyServer (.recordErrorMetric (Nat.le_refl n))) fun _ =>
          modifyServer (.closeClientConnection (Nat.le_refl n) _)
      | ok written =>
        cases written with
        | zero => exact pure (Nat.le_refl n) ()
        | succ written =>
          refine bind (subSize (Nat.le_refl n) _ _) fun rest => ?_
          refine bind (spend (Nat.le_refl n) fun b => { b with writeRemaining := rest }) fun _ => ?_
          refine bind (modifyServer (.update (Nat.le_refl n) _)) fun _ => ?_
          exact bind (modifyServer (.releaseInflightBytes (Nat.le_refl n) _)) fun _ => ih

theorem flushClientOutput : Steps fd n n (flushClientOutput fd) := by
  unfold Core.flushClientOutput
  refine findClient fun c? => ?_
  cases c? with
  | none => exact pure (Nat.le_refl n) ()
  | some c => exact flushLoop _

/-! ## Request bodies -/

theorem consumeBodyBytes (connection : ClientConnection) (available : Nat) :
    Steps fd n n (consumeBodyBytes fd connection available) := by
  unfold Core.consumeBodyBytes
  refine bind (lift (Nat.le_refl n) _) fun rest => bind (subSize (Nat.le_refl n) _ _) fun _ => ?_
  exact bind (modifyServer (.update (Nat.le_refl n) _)) fun _ =>
    modifyServer (.releaseInflightBytes (Nat.le_refl n) _)

theorem finishBodyIfComplete : Steps fd n n (finishBodyIfComplete fd) := by
  unfold Core.finishBodyIfComplete
  refine findClient fun c? => ?_
  cases c? with
  | none => exact pure (Nat.le_refl n) _
  | some c =>
    refine .ite _ (fun _ => pure (Nat.le_refl n) _) fun _ => ?_
    refine bind (modifyServer (.put (Nat.le_refl n) _)) fun _ => ?_
    refine bind (modifyServer (.countRequest (Nat.le_refl n))) fun _ => ?_
    exact bind (startOkResponse _) fun _ => pure (Nat.le_refl n) _

theorem consumePendingRequestBody : Steps fd n n (consumePendingRequestBody fd) := by
  unfold Core.consumePendingRequestBody
  refine findClient fun c? => ?_
  cases c? with
  | none => exact pure (Nat.le_refl n) _
  | some c =>
    refine .ite _ (fun _ => pure (Nat.le_refl n) _) fun _ => ?_
    refine .ite _ (fun _ => pure (Nat.le_refl n) _) fun _ => ?_
    refine bind (.ite _ (fun _ => consumeBodyBytes c _) fun _ => pure (Nat.le_refl n) _) fun _ => ?_
    exact finishBodyIfComplete

theorem beginRequestBodyReceive (request : HttpRequest) :
    Steps fd n n (beginRequestBodyReceive fd request) := by
  unfold Core.beginRequestBodyReceive
  refine findClient fun c? => ?_
  cases c? with
  | none => exact pure (Nat.le_refl n) _
  | some c =>
    refine .ite _ (fun _ => pure (Nat.le_refl n) _) fun _ => ?_
    refine bind (modifyServer (.log (Nat.le_refl n) rfl)) fun _ => ?_
    refine bind (modifyServer (.put (Nat.le_refl n) _)) fun _ => ?_
    refine bind (steadyClockNow (Nat.le_refl n)) fun now => ?_
    exact bind (modifyServer (.armBodyTimeout (Nat.le_refl n) now _)) fun _ =>
      consumePendingRequestBody

/-! ## Headers -/

theorem checkHeaderLimit : Steps fd n n (checkHeaderLimit fd) := by
  unfold Core.checkHeaderLimit
  refine findClient fun c? => ?_
  cases c? with
  | none => exact pure (Nat.le_refl n) _
  | some c =>
    refine bind (modifyServer (.log (Nat.le_refl n) rfl)) fun _ => ?_
    refine .ite _ (fun _ => pure (Nat.le_refl n) _) fun _ => ?_
    exact bind (sendErrorResponseAndClose (Nat.le_refl n) 431) fun _ => pure (Nat.le_refl n) _

theorem processHeader (hnm : n ≤ m) (header : Bytes) {next : ServerM Bool}
    (hnext : Steps fd n m next) : Steps fd n m (processHeader fd header next) := by
  have hrefuse (statusCode : Nat) : Steps fd n m (do
      Core.sendErrorResponseAndClose fd statusCode
      return false) :=
    bind (sendErrorResponseAndClose hnm statusCode) fun _ => pure (Nat.le_refl m) _
  unfold Core.processHeader
  cases parseRequestHeader header with
  | error e => exact hrefuse _
  | ok request =>
    refine .ite _ (fun _ => hrefuse 413) fun _ => .ite _ (fun _ => ?_) fun _ => ?_
    · exact mono (beginRequestBodyReceive request) (Nat.le_refl n) hnm
    · exact bind (modifyServer (.countRequest (Nat.le_refl n))) fun _ =>
        bind (startOkResponse request) fun _ => hnext

/-- Each turn of the loop takes one header block. -/
theorem headerLoop (turns : Nat) : Steps fd n (n + turns) (headerLoop fd turns) := by
  induction turns generalizing n with
  | zero => exact pure (Nat.le_refl n) _
  | succ turns ih =>
    have hle : n ≤ n + (turns + 1) := Nat.le_add_right ..
    unfold Core.headerLoop
    refine findClient fun c? => ?_
    cases c? with
    | none => exact pure hle _
    | some c =>
      refine .ite _ (fun _ => pure hle _) fun _ => .ite _ (fun _ => pure hle _) fun _ => ?_
      refine bind (lift (Nat.le_refl n) _) fun popped => ?_
      refine bind (subSize (Nat.le_refl n) _ _) fun _ => ?_
      refine bind (modifyServer (.put (Nat.le_refl n) _)) fun _ => ?_
      refine bind (modifyServer (.pop _ _)) fun _ => ?_
      refine bind (modifyServer (.releaseInflightBytes (Nat.le_refl (n + 1)) _)) fun _ => ?_
      have hnext := ih (n := n + 1)
      rw [Nat.add_right_comm, Nat.add_assoc] at hnext
      exact processHeader (Nat.add_le_add_left (Nat.le_add_left 1 turns) n) popped.1 hnext

theorem settleConnection : Steps fd n n (settleConnection fd) := by
  have hle := Nat.le_refl n
  unfold Core.settleConnection
  refine findClient fun c? => ?_
  cases c? with
  | none => exact pure hle _
  | some c =>
    refine .ite _ (fun _ => pure hle _) fun _ => bind (modifyServer (.log hle rfl)) fun _ => ?_
    refine .ite _ (fun _ => pure hle _) fun _ => .ite _ (fun _ => ?_) fun _ => ?_
    · exact bind (modifyServer (.enqueueReadyConnection hle)) fun _ => pure hle _
    refine .ite _ (fun _ => ?_) fun _ => .ite _ (fun _ => ?_) fun _ => pure hle _
    · exact bind (modifyServer (.closeClientConnection hle _)) fun _ => pure hle _
    · refine bind (steadyClockNow hle) fun now => bind (modifyServer ?_) fun _ =>
        bind (modifyServer (.updateClientPollMask hle)) fun _ => pure hle _
      split
      · exact .armIdleKeepAliveTimeout hle now
      · exact .armHeaderTimeout hle now

theorem processBufferedHeaders :
    Steps fd n (n + kMaxRequestsPerRound) (processBufferedHeaders fd) :=
  andThen (headerLoop kMaxRequestsPerRound) (Nat.le_refl _) settleConnection

/-! ## Reading -/

theorem readBudgetExhausted : Steps fd n n (readBudgetExhausted fd) :=
  bind (modifyServer (.update (Nat.le_refl n) _)) fun _ =>
    modifyServer (.enqueueReadyConnection (Nat.le_refl n))

theorem processChunk : Steps fd n (n + kMaxRequestsPerRound) (processChunk fd) := by
  have hle : n ≤ n + kMaxRequestsPerRound := Nat.le_add_right ..
  unfold Core.processChunk
  refine findClient fun c? => ?_
  cases c? with
  | none => exact pure hle _
  | some c =>
    refine .ite _ (fun _ => ?_) fun _ => andThen checkHeaderLimit hle processBufferedHeaders
    exact mono consumePendingRequestBody (Nat.le_refl n) hle

theorem receive (data : Bytes) {next : ServerM Unit}
    (hnext : Steps fd kMaxRequestsPerRound kMaxRequestsPerRound next) :
    Steps fd 0 kMaxRequestsPerRound (receive fd data next) := by
  have hle := Nat.le_refl kMaxRequestsPerRound
  have hchunk : Steps fd 0 kMaxRequestsPerRound (Core.processChunk fd) := by
    have h : Steps fd 0 (0 + kMaxRequestsPerRound) (Core.processChunk fd) := processChunk
    rwa [Nat.zero_add] at h
  unfold Core.receive
  refine budget (fun r t h => by simp only [h]) fun r => ?_
  refine bind (subSize (Nat.le_refl 0) _ _) fun rest => ?_
  refine bind (spend (Nat.le_refl 0) fun b => { b with readRemaining := rest }) fun _ => ?_
  refine andThen (appendToInputBuffer (Nat.le_refl 0) data) (Nat.zero_le _) ?_
  refine andThen hchunk hle (findClient fun c? => ?_)
  cases c? with
  | none => exact pure hle ()
  | some c =>
    refine budget (fun r t h => by simp only [h]) fun r => ?_
    exact .ite _ (fun _ => readBudgetExhausted) fun _ => hnext

theorem readTurn (answer : ReadResult) {next : ServerM Unit}
    (hnext : Steps fd kMaxRequestsPerRound kMaxRequestsPerRound next) :
    Steps fd kMaxRequestsPerRound kMaxRequestsPerRound (readTurn fd answer next) := by
  have hle := Nat.le_refl kMaxRequestsPerRound
  unfold Core.readTurn
  refine findClient fun c? => ?_
  cases c? with
  | none => exact pure hle ()
  | some c =>
    refine .ite _ (fun _ => pure hle ()) fun _ => ?_
    refine budget (fun r t h => by simp only [h]) fun r => ?_
    refine .ite _ (fun _ => readBudgetExhausted) fun _ => ?_
    dsimp only
    generalize answer.clip _ = answer
    cases answer with
    | got data =>
      cases data with
      | nil =>
        exact bind (modifyServer (.log hle rfl)) fun _ =>
          modifyServer (.closeClientConnection hle _)
      | cons b data => exact bind (modifyServer (.readBytes c b data)) fun _ => receive _ hnext
    | failed errno =>
      refine bind (modifyServer (.log hle rfl)) fun _ => ?_
      cases errno with
      | eagain => exact pure hle ()
      | eintr => exact hnext
      | econnaborted | emfile | enfile | other =>
        exact bind (modifyServer (.recordErrorMetric hle)) fun _ =>
          modifyServer (.closeClientConnection hle _)

theorem readLoop (answers : List ReadResult) :
    Steps fd kMaxRequestsPerRound kMaxRequestsPerRound (readLoop fd answers) := by
  induction answers with
  | nil => exact readTurn _ (pure (Nat.le_refl _) ())
  | cons answer answers ih => exact readTurn answer ih

theorem readFromClient :
    Steps fd kMaxRequestsPerRound kMaxRequestsPerRound (readFromClient fd) :=
  Local.get_bind (fun r t hview => by rw [hview.io]) fun r => readLoop r.io.reads

/-! ## `ContinueReadyConnection` and `HandleClientEvent` -/

theorem continueReading : Steps fd 0 kMaxRequestsPerRound (continueReading fd) := by
  have hle := Nat.zero_le kMaxRequestsPerRound
  have hheaders : Steps fd 0 kMaxRequestsPerRound (Core.processBufferedHeaders fd) := by
    have h : Steps fd 0 (0 + kMaxRequestsPerRound) (Core.processBufferedHeaders fd) :=
      processBufferedHeaders
    rwa [Nat.zero_add] at h
  unfold Core.continueReading
  refine findClient fun c? => ?_
  cases c? with
  | none => exact pure hle ()
  | some c =>
    refine .ite _ (fun _ => pure hle ()) fun _ => ?_
    refine bind (.ite _ (fun _ => hheaders) fun _ => pure hle _) fun _ => ?_
    have hle := Nat.le_refl kMaxRequestsPerRound
    refine .ite _ (fun _ => pure hle ()) fun _ => findClient fun d? => ?_
    cases d? with
    | none => exact pure hle ()
    | some d =>
      refine .ite _ (fun _ => pure hle ()) fun _ => .ite _ (fun _ => ?_) fun _ => pure hle ()
      exact bind (modifyServer (.update hle _)) fun _ => readFromClient

theorem continueBody : Steps fd 0 kMaxRequestsPerRound (continueBody fd) := by
  have hle := Nat.zero_le kMaxRequestsPerRound
  unfold Core.continueBody
  refine findClient fun c? => ?_
  cases c? with
  | none => exact pure hle ()
  | some c =>
    refine .ite _ (fun _ => pure hle ()) fun _ => ?_
    refine andThen (.ite _ (fun _ => ?_) fun _ => pure (Nat.le_refl 0) _) hle continueReading
    exact consumePendingRequestBody

theorem continueReadyConnection :
    Steps fd 0 kMaxRequestsPerRound (continueReadyConnection fd) := by
  unfold Core.continueReadyConnection
  refine findClient fun c? => ?_
  cases c? with
  | none => exact pure (Nat.zero_le _) ()
  | some c =>
    refine .ite _ (fun _ => pure (Nat.zero_le _) ()) fun _ => ?_
    exact bind (.ite _ (fun _ => flushClientOutput) fun _ => pure (Nat.le_refl 0) ()) fun _ =>
      continueBody

theorem handleReadable (events : EpollEvents) :
    Steps fd kMaxRequestsPerRound kMaxRequestsPerRound (handleReadable fd events) := by
  have hle := Nat.le_refl kMaxRequestsPerRound
  unfold Core.handleReadable
  refine findClient fun c? => ?_
  cases c? with
  | none => exact pure hle ()
  | some c =>
    refine .ite _ (fun _ => pure hle ()) fun _ => .ite _ (fun _ => ?_) fun _ => readFromClient
    refine bind (modifyServer (.put hle _)) fun _ => bind (steadyClockNow hle) fun now => ?_
    refine bind (modifyServer (.armHeaderTimeout hle now)) fun _ => findClient fun d? => ?_
    cases d? with
    | none => exact pure hle ()
    | some d => exact .ite _ (fun _ => pure hle ()) fun _ => readFromClient

theorem handleClientEvent (events : EpollEvents) :
    Steps fd kMaxRequestsPerRound kMaxRequestsPerRound (handleClientEvent fd events) := by
  have hle := Nat.le_refl kMaxRequestsPerRound
  unfold Core.handleClientEvent
  refine .ite _ (fun _ => bind (modifyServer (.closeClientConnection hle _)) fun _ => pure hle ())
    fun _ => findClient fun c? => ?_
  cases c? with
  | none => exact pure hle ()
  | some c =>
    refine .ite _ (fun _ => pure hle ()) fun _ => .ite _ (fun _ => ?_) fun _ => handleReadable events
    refine bind (.ite _ (fun _ => flushClientOutput) fun _ => pure hle ()) fun _ =>
      findClient fun d? => ?_
    cases d? with
    | none => exact pure hle ()
    | some d => exact .ite _ (fun _ => pure hle ()) fun _ => handleReadable events

/-! ## Handler calls -/

/-- What a handler call does on one server, it does on every other one. -/
theorem runHandler {handler : ServerM Unit} (h : Steps fd n m handler) {io : Io} {s s' : Server}
    (hrun : runHandler handler io s = .ok s') : ∃ e, Raises n m e ∧ Does fd e s s' ∧
      (Room e s → ∀ t, s.find fd = t.find fd → Room e t → ∃ t',
        Core.runHandler handler io t = .ok t' ∧ s'.find fd = t'.find fd ∧ Does fd e t t') := by
  unfold Core.runHandler at hrun
  cases hr : handler { server := s, io := io } with
  | error fault =>
    rw [hr] at hrun
    cases hrun
  | ok result =>
    rw [hr] at hrun
    cases hrun
    obtain ⟨e, he, hdoes, hlocal⟩ := h _ _ _ hr
    refine ⟨e, he, hdoes, fun hs t hfind ht => ?_⟩
    obtain ⟨r', hr', hview, hdoes'⟩ := hlocal hs { server := t, io := io } ⟨hfind, rfl, rfl⟩ ht
    refine ⟨r'.server, ?_, hview.find, hdoes'⟩
    rw [Core.runHandler, hr']
    rfl

end Steps

end WebServer.Kernel
