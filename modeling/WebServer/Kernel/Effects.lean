import WebServer.Life.Passes
import WebServer.Kernel.Kept
import WebServer.Lib.Footprint

/-!
# What a handler does to what all connections share

The effect of a handler on everything beside its own connection: the timers it pushes, the
connections it retires, the counters it bumps and the events it leaves.  What each function of
`Core/Connection.lean` does follows from the connection it finds.
-/

namespace WebServer.Kernel

open WebServer.Net WebServer.Http WebServer.Core WebServer.Life WebServer.Refine Footprint

/-- The counters of the metrics that only grow. -/
inductive Counter
  | accepts
  | requests
  | rejects
  | errors
  | reject411
  | reject413
  | reject429
  | reject431
  | reject501
  | reject503
  | connRejects
  | timeoutCloses

def counter : Counter → Metrics → Nat
  | .accepts, m => m.acceptTotal
  | .requests, m => m.requestsTotal
  | .rejects, m => m.rejectTotal
  | .errors, m => m.errorsTotal
  | .reject411, m => m.reject411Total
  | .reject413, m => m.reject413Total
  | .reject429, m => m.reject429Total
  | .reject431, m => m.reject431Total
  | .reject501, m => m.reject501Total
  | .reject503, m => m.reject503Total
  | .connRejects, m => m.connRejectTotal
  | .timeoutCloses, m => m.timeoutCloseTotal

/-- The event without the state of the inflight counter. -/
def blur : Event → Event
  | .reserved c growth addBytes _ => .reserved c growth addBytes 0
  | .released amount _ => .released amount 0
  | e => e

/-- The bytes an event asks room for. -/
def bytesAsked : Event → Nat
  | .reserved _ _ addBytes _ => addBytes
  | _ => 0

structure Effect where
  nodes : List TimerEntry := []
  retired : List ClientConnection := []
  counts : Counter → Nat := fun _ => 0
  events : List Event := []

namespace Effect

def andThen (e e' : Effect) : Effect where
  nodes := e.nodes ++ e'.nodes
  retired := e.retired ++ e'.retired
  counts := fun k => e.counts k + e'.counts k
  events := e.events ++ e'.events

/-- The bytes it asks room for. -/
def asked (e : Effect) : Nat := (e.events.map bytesAsked).sum

theorem asked_andThen (e e' : Effect) : (e.andThen e').asked = e.asked + e'.asked := by
  simp [asked, andThen]

end Effect

/-- A handler of `fd` takes the server from `s` to `s'` with this effect on what all connections
share. -/
structure Does (fd : Fd) (e : Effect) (s s' : Server) : Prop where
  others : ∀ fd', fd' ≠ fd → s'.find fd' = s.find fd'
  poller : ∀ fd', fd' ≠ fd → s'.poller.lookup fd' = s.poller.lookup fd'
  heap : s'.timerHeap = s.timerHeap ++ e.nodes
  retired : s'.pendingCloseQueue = s.pendingCloseQueue ++ e.retired
  counts : ∀ k, counter k s'.metrics = counter k s.metrics + e.counts k
  inflight : s'.globalInflightBytes ≤ s.globalInflightBytes + e.asked
  trace : s'.trace.map blur = s.trace.map blur ++ e.events

variable {fd : Fd} {e e' : Effect} {n m l : Nat} {c : ClientConnection} {events : List Event}
  {s s' s'' : Server}

theorem Does.nothing (fd : Fd) (s : Server) : Does fd {} s s :=
  ⟨fun _ _ => rfl, fun _ _ => rfl, (List.append_nil _).symm, (List.append_nil _).symm,
    fun _ => rfl, Nat.le_add_right .., (List.append_nil _).symm⟩

theorem Does.andThen (h : Does fd e s s') (h' : Does fd e' s' s'') :
    Does fd (e.andThen e') s s'' := by
  refine ⟨fun x hx => (h'.others x hx).trans (h.others x hx),
    fun x hx => (h'.poller x hx).trans (h.poller x hx), ?_, ?_, fun k => ?_, ?_, ?_⟩
  · rw [h'.heap, h.heap, List.append_assoc]
    rfl
  · rw [h'.retired, h.retired, List.append_assoc]
    rfl
  · rw [h'.counts, h.counts, Nat.add_assoc]
    rfl
  · have := h.inflight
    have := h'.inflight
    rw [Effect.asked_andThen]
    omega
  · rw [h'.trace, h.trace, List.append_assoc]
    rfl

/-- There is room for all the bytes the effect asks for. -/
def Room (e : Effect) (s : Server) : Prop := s.globalInflightBytes + e.asked ≤ kMaxInflightBytes

theorem Room.split (h : Room (e.andThen e') s) :
    Room e s ∧ ∀ fd s', Does fd e s s' → Room e' s' := by
  rw [Room, Effect.asked_andThen] at h
  refine ⟨?_, fun fd s' hdoes => ?_⟩
  · unfold Room
    omega
  · have := hdoes.inflight
    unfold Room
    omega

/-- A handler of `fd` sees its own connection, its budget and the answers to its calls. -/
structure Agree (fd : Fd) (r t : Round) : Prop where
  find : r.server.find fd = t.server.find fd
  budget : r.budget = t.budget
  io : r.io = t.io

def handlerFrame (fd : Fd) : Frame Round Effect where
  agree := Agree fd
  does := fun e r r' => Does fd e r.server r'.server
  room := fun e r => Room e r.server
  nothing := {}
  andThen := Effect.andThen
  does_nothing := fun r => .nothing fd r.server
  does_andThen := .andThen
  room_andThen := fun h => ⟨h.split.1, fun r' => h.split.2 fd r'.server⟩

/-! ## Bursts -/

/-- Behind at most `n` header blocks since the last bytes were read there are at most `m`
after it. -/
def Raises (n m : Nat) (e : Effect) : Prop := ∀ k, k ≤ n → burst k e.events ≤ m

theorem Raises.andThen (h : Raises n m e) (h' : Raises m l e') : Raises n l (e.andThen e') := by
  intro k hk
  rw [Effect.andThen, burst, List.foldl_append]
  exact h' _ (h k hk)

theorem Raises.mono {n' m' : Nat} (h : Raises n m e) (hn : n' ≤ n) (hm : m ≤ m') :
    Raises n' m' e := fun k hk => (h k (hk.trans hn)).trans hm

def isDull : Event → Bool
  | .popped .. => false
  | _ => true

/-- Where no header block is taken no burst grows. -/
theorem burst_le (k : Nat) (h : events.all isDull = true) : burst k events ≤ k := by
  induction events generalizing k with
  | nil => exact Nat.le_refl k
  | cons e events ih =>
    rw [List.all_cons, Bool.and_eq_true] at h
    have hstep : burstStep k e ≤ k := by
      cases e with
      | popped c header => cases h.1
      | read c answer =>
        cases answer with
        | got data => cases data <;> simp [burstStep]
        | failed errno => exact Nat.le_refl k
      | _ => exact Nat.le_refl k
    exact (ih _ h.2).trans hstep

theorem Raises.dull (hnm : n ≤ m) (h : e.events.all isDull = true) : Raises n m e :=
  fun k hk => (burst_le k h).trans (hk.trans hnm)

/-! ## Functions on the server -/

/-- What the function does follows from the connection of `fd`. -/
def Locally (fd : Fd) (n m : Nat) (f : Server → Server) : Prop :=
  ∀ c?, ∃ e after, Raises n m e ∧
    ∀ s, s.find fd = c? → (f s).find fd = after ∧ Does fd e s (f s)

/-- A change of the own connection that leaves events and timers behind. -/
theorem Does.rework (nodes : List TimerEntry) (events : List Event)
    (hothers : ∀ x, x ≠ fd → s'.find x = s.find x)
    (hpoller : ∀ x, x ≠ fd → s'.poller.lookup x = s.poller.lookup x)
    (hheap : s'.timerHeap = s.timerHeap ++ nodes)
    (hretired : s'.pendingCloseQueue = s.pendingCloseQueue)
    (hmetrics : ∀ k, counter k s'.metrics = counter k s.metrics)
    (hinflight : s'.globalInflightBytes ≤ s.globalInflightBytes)
    (htrace : s'.trace = s.trace ++ events) :
    Does fd { nodes := nodes, events := events.map blur } s s' := by
  refine ⟨hothers, hpoller, hheap, ?_, hmetrics, Nat.le_add_right_of_le hinflight, ?_⟩
  · rw [hretired]
    exact (List.append_nil _).symm
  · rw [htrace, List.map_append]

theorem find_put_ne {x : Fd} (hx : x ≠ fd) (c : ClientConnection) (s : Server) :
    (s.put fd c).find x = s.find x := Finmap.lookup_insert_of_ne _ hx

theorem Does.put (fd : Fd) (c : ClientConnection) (s : Server) : Does fd {} s (s.put fd c) :=
  .rework [] [] (fun _ hx => find_put_ne hx c s) (fun _ _ => rfl)
    (List.append_nil _).symm rfl (fun _ => rfl) (Nat.le_refl _) (List.append_nil _).symm

theorem find_update (fd : Fd) (f : ClientConnection → ClientConnection) (s : Server) :
    (s.update fd f).find fd = (s.find fd).map f := by
  unfold Server.update
  cases hf : s.find fd with
  | none => exact hf
  | some c => exact find_put ..

theorem Does.update (fd : Fd) (f : ClientConnection → ClientConnection) (s : Server) :
    Does fd {} s (s.update fd f) := by
  unfold Server.update
  cases s.find fd with
  | none => exact .nothing fd s
  | some c => exact .put fd (f c) s

theorem Does.log (fd : Fd) (events : List Event) (s : Server) :
    Does fd { events := events.map blur } s (s.log events) :=
  .rework [] events (fun _ _ => rfl) (fun _ _ => rfl) (List.append_nil _).symm rfl
    (fun _ => rfl) (Nat.le_refl _) rfl

theorem Does.release (fd : Fd) (amount : Nat) (s : Server) :
    Does fd { events := [.released amount 0] } s (releaseInflightBytes amount s) := by
  rw [releaseInflightBytes_eq]
  refine .rework [] [.released amount s.globalInflightBytes]
    (fun _ _ => rfl) (fun _ _ => rfl) (List.append_nil _).symm rfl (fun k => ?_) ?_ rfl
  · cases k <;> rfl
  · exact Nat.sub_le ..

/-- The events with which `releaseSocket` leaves the poller. -/
def leaveEvents (fd : Fd) (socket : Option Fd) : List Event :=
  socket.elim [] fun own => [.epollCtl .del fd {}, .closedFd own]

theorem Does.releaseSocket (fd : Fd) (socket : Option Fd) (s : Server) :
    Does fd { events := leaveEvents fd socket } s (releaseSocket fd socket s) := by
  cases socket with
  | none => exact .nothing fd s
  | some own =>
    exact .rework [] [.epollCtl .del fd {}, .closedFd own] (fun _ _ => rfl)
      (fun _ hx => Finmap.lookup_erase_ne hx) (List.append_nil _).symm rfl (fun _ => rfl)
      (Nat.le_refl _) rfl

/-- The last step of a close. -/
theorem Does.retire (fd : Fd) (c : ClientConnection) (reason : CloseReason) (s : Server) :
    Does fd { retired := [c.retired], events := [.closed c reason] } s
      { s.log [.closed c reason] with
        clients := s.clients.erase fd
        pendingCloseQueue := s.pendingCloseQueue ++ [c.retired] } :=
  ⟨fun _ hx => Finmap.lookup_erase_ne hx, fun _ _ => rfl, (List.append_nil _).symm, rfl,
    fun _ => rfl, Nat.le_add_right .., List.map_append⟩

namespace Locally

theorem put (hnm : n ≤ m) (c : ClientConnection) : Locally fd n m (·.put fd c) :=
  fun _ => ⟨{}, some c, .dull hnm rfl, fun s _ => ⟨find_put .., .put fd c s⟩⟩

theorem update (hnm : n ≤ m) (f : ClientConnection → ClientConnection) :
    Locally fd n m (·.update fd f) :=
  fun c? => ⟨{}, c?.map f, .dull hnm rfl,
    fun s hf => ⟨(find_update fd f s).trans (congrArg _ hf), .update fd f s⟩⟩

theorem log (hnm : n ≤ m) (h : (events.map blur).all isDull = true) :
    Locally fd n m (·.log events) :=
  fun c? => ⟨_, c?, .dull hnm h, fun s hf => ⟨hf, .log fd events s⟩⟩

theorem pop (c : ClientConnection) (header : Bytes) :
    Locally fd n (n + 1) (·.log [.popped c header]) := by
  refine fun c? => ⟨_, c?, fun k hk => ?_, fun s hf => ⟨hf, .log fd _ s⟩⟩
  exact Nat.succ_le_succ hk

/-- Behind bytes that are read no header block has been taken yet. -/
theorem readBytes (c : ClientConnection) (b : UInt8) (data : Bytes) :
    Locally fd n 0 (·.log [.read c (.got (b :: data))]) :=
  fun c? => ⟨{ events := [.read c (.got (b :: data))] }, c?, fun _ _ => Nat.le_refl 0,
    fun s hf => ⟨hf, .log fd [.read c (.got (b :: data))] s⟩⟩

/-- A change of the metrics alone. -/
theorem metrics (hnm : n ≤ m) {f : Server → Server} (g : Metrics → Metrics)
    (counts : Counter → Nat) (hf : ∀ s, f s = { s with metrics := g s.metrics })
    (hg : ∀ k m, counter k (g m) = counter k m + counts k) : Locally fd n m f := by
  refine fun c? => ⟨{ counts }, c?, .dull hnm rfl, fun s hs => ?_⟩
  rw [hf]
  exact ⟨hs, fun _ _ => rfl, fun _ _ => rfl, (List.append_nil _).symm, (List.append_nil _).symm,
    fun k => hg k s.metrics, Nat.le_add_right .., (List.append_nil _).symm⟩

theorem recordErrorMetric (hnm : n ≤ m) : Locally fd n m recordErrorMetric := by
  refine metrics hnm (fun m => { m with errorsTotal := m.errorsTotal + 1 })
    (fun k => counter k { errorsTotal := 1 }) (fun _ => rfl) fun k m => ?_
  cases k <;> rfl

theorem countRequest (hnm : n ≤ m) : Locally fd n m countRequest := by
  refine metrics hnm (fun m => { m with requestsTotal := m.requestsTotal + 1 })
    (fun k => counter k { requestsTotal := 1 }) (fun _ => rfl) fun k m => ?_
  cases k <;> rfl

theorem recordRejectMetric (hnm : n ≤ m) (statusCode : Nat) :
    Locally fd n m (recordRejectMetric statusCode) := by
  refine metrics hnm (fun m => (Core.recordRejectMetric statusCode
    { initializeServer 0 with metrics := m }).metrics)
    (fun k => counter k (Core.recordRejectMetric statusCode (initializeServer 0)).metrics)
    (fun _ => rfl) fun k m => ?_
  unfold Core.recordRejectMetric
  dsimp only
  split <;> cases k <;> rfl

theorem releaseInflightBytes (hnm : n ≤ m) (amount : Nat) :
    Locally fd n m (releaseInflightBytes amount) :=
  fun c? => ⟨{ events := [.released amount 0] }, c?, .dull hnm rfl,
    fun s hf => ⟨(find_releaseInflightBytes amount s).trans hf, .release fd amount s⟩⟩

/-- A function that does nothing without a connection, nor while one is being closed. -/
theorem ofClient (hnm : n ≤ m) {f : Server → Server}
    (hnone : ∀ s, s.find fd = none → f s = s)
    (hclosing : ∀ s c, s.find fd = some c → c.closing = true → f s = s)
    (hsome : ∀ c, c.closing = false → ∃ e after, Raises n m e ∧
      ∀ s, s.find fd = some c → (f s).find fd = after ∧ Does fd e s (f s)) :
    Locally fd n m f := by
  intro c?
  cases c? with
  | none =>
    refine ⟨{}, none, .dull hnm rfl, fun s hf => ?_⟩
    rw [hnone s hf]
    exact ⟨hf, .nothing fd s⟩
  | some c =>
    cases hcl : c.closing with
    | true =>
      refine ⟨{}, some c, .dull hnm rfl, fun s hf => ?_⟩
      rw [hclosing s c hf hcl]
      exact ⟨hf, .nothing fd s⟩
    | false => exact hsome c hcl

/-- Arming pushes one node and leaves one event. -/
theorem pushTimer (hnm : n ≤ m) {f : Server → Server} (kind : TimerKind) (now deadline : Time)
    (g : ClientConnection → ClientConnection)
    (hf : ∀ s, f s = (s.find fd).elim s fun c =>
      if c.closing then s else Core.pushTimer kind now deadline fd (g c) s) :
    Locally fd n m f := by
  refine ofClient hnm (fun s hnone => ?_) (fun s c hs hcl => ?_) fun c hcl => ?_
  · rw [hf, hnone, Option.elim_none]
  · rw [hf, hs, Option.elim_some, if_pos hcl]
  · let armed := (g c).arm kind
    let events : List Event := [.armed armed.connectionId kind now deadline]
    refine ⟨{ nodes := [timerNode kind deadline fd armed], events := events.map blur },
      some armed, .dull hnm rfl, fun s hs => ?_⟩
    rw [hf, hs, Option.elim_some, if_neg (by simp [hcl])]
    exact ⟨find_put .., .rework _ events (fun _ hx => find_put_ne hx _ s) (fun _ _ => rfl) rfl rfl
      (fun _ => rfl) (Nat.le_refl _) rfl⟩

theorem armHeaderTimeout (hnm : n ≤ m) (now : Time) :
    Locally fd n m (armHeaderTimeout fd now) := by
  refine pushTimer hnm .kHeader now (now + kHeaderTimeout) (·.disarmIdleKeepAliveTimeout)
    fun s => ?_
  unfold Core.armHeaderTimeout
  cases s.find fd <;> rfl

theorem armBodyTimeout (hnm : n ≤ m) (now : Time) (contentLength : Nat) :
    Locally fd n m (armBodyTimeout fd now contentLength) := by
  refine pushTimer hnm .kBody now (calculateBodyReceiveDeadline now contentLength)
    (·.disarmHeaderTimeout.disarmBodyTimeout.disarmIdleKeepAliveTimeout) fun s => ?_
  unfold Core.armBodyTimeout
  cases s.find fd <;> rfl

theorem armIdleKeepAliveTimeout (hnm : n ≤ m) (now : Time) :
    Locally fd n m (armIdleKeepAliveTimeout fd now) := by
  refine pushTimer hnm .kIdleKeepAlive now (now + kIdleKeepAliveTimeout)
    (·.disarmHeaderTimeout) fun s => ?_
  unfold Core.armIdleKeepAliveTimeout
  cases s.find fd <;> rfl

theorem enqueueReadyConnection (hnm : n ≤ m) : Locally fd n m (enqueueReadyConnection fd) := by
  refine ofClient hnm (fun s hnone => ?_) (fun s c hs hcl => ?_) fun c hcl => ?_
  · rw [Core.enqueueReadyConnection, hnone]
  · rw [Core.enqueueReadyConnection, hs]
    exact if_pos (by simp [hcl])
  · refine ⟨{}, some { c with inReadyQueue := true }, .dull hnm rfl, fun s hs => ?_⟩
    rw [Core.enqueueReadyConnection, hs]
    dsimp only
    split
    · rename_i hq
      have hself : ({ c with inReadyQueue := true } : ClientConnection) = c := by
        rw [hcl, Bool.false_or] at hq
        rw [← hq]
      rw [hself]
      exact ⟨hs, .nothing fd s⟩
    · exact ⟨find_put .., .rework [] [] (fun _ hx => find_put_ne hx _ s)
        (fun _ _ => rfl) (List.append_nil _).symm rfl (fun _ => rfl) (Nat.le_refl _)
        (List.append_nil _).symm⟩

theorem updateClientPollMask (hnm : n ≤ m) : Locally fd n m (updateClientPollMask fd) := by
  refine ofClient hnm (fun s hnone => ?_) (fun s c hs hcl => ?_) fun c hcl => ?_
  · rw [Core.updateClientPollMask, hnone]
  · rw [Core.updateClientPollMask, hs]
    exact if_pos hcl
  · let events : EpollEvents :=
      { epollin := true, epollrdhup := true, epollout := c.outputBuffer ≠ [] }
    refine ⟨{ events := [.epollCtl .mod fd events] }, some c, .dull hnm rfl, fun s hs => ?_⟩
    have hpoll : Core.updateClientPollMask fd s =
        { s.log [.epollCtl .mod fd events] with poller := s.poller.insert fd events } := by
      rw [Core.updateClientPollMask, hs]
      exact if_neg (by simp [hcl])
    rw [hpoll]
    exact ⟨hs, .rework [] [.epollCtl .mod fd events] (fun _ _ => rfl)
      (fun _ hx => Finmap.lookup_insert_of_ne _ hx) (List.append_nil _).symm rfl (fun _ => rfl)
      (Nat.le_refl _) rfl⟩

theorem closeClientConnection (hnm : n ≤ m) (reason : CloseReason) :
    Locally fd n m (closeClientConnection fd reason) := by
  refine ofClient hnm (fun s hnone => ?_) (fun s c hs hcl => ?_) fun c hcl => ?_
  · rw [Core.closeClientConnection, hnone]
  · rw [Core.closeClientConnection, hs]
    exact if_pos hcl
  · let released : Effect := Effect.andThen {} { events := leaveEvents fd c.socket }
    let freed : Effect := released.andThen { events := [.released (Server.buffered c) 0] }
    refine ⟨freed.andThen { retired := [c.retired], events := [.closed c reason] }, none,
      .dull hnm ?_, fun s hs => ?_⟩
    · show ([] ++ leaveEvents fd c.socket ++ _ ++ _).all isDull = true
      cases hsocket : c.socket <;> simp [leaveEvents, isDull]
    · unfold Core.closeClientConnection
      rw [hs]
      dsimp only
      rw [if_neg (by simp [hcl])]
      refine ⟨Finmap.lookup_erase .., ?_⟩
      have hleft : Does fd {} s { setActiveConnectionCount (s.activeConnectionCount - 1) s with
          readyQueue := s.readyQueue.filter (· ≠ fd) } :=
        .rework [] [] (fun _ _ => rfl) (fun _ _ => rfl)
          (List.append_nil _).symm rfl (fun k => by cases k <;> rfl) (Nat.le_refl _)
          (List.append_nil _).symm
      exact ((hleft.andThen (.releaseSocket ..)).andThen (.release ..)).andThen (.retire ..)

end Locally

end WebServer.Kernel
