import WebServer.Core.Connection
import WebServer.Kernel.Descriptor
import WebServer.Refine.Moves

/-!
# Tables, counters and the interest list

What has to agree between `clients_`, the connection counters, the interest list of epoll and
the calls made on each descriptor.  While a handler works on a descriptor its poll mask may
lag behind the output buffer; `Watched` says how far.
-/

namespace WebServer.Kernel

open WebServer.Net WebServer.Http WebServer.Core WebServer.Refine

/-- What holds of a descriptor: of its connection, its events in epoll and the calls on it. -/
abbrev Law := Option ClientConnection → Option EpollEvents → List Syscall → Prop

/-- A descriptor that is registered or free; `wants` relates the output buffer to `EPOLLOUT`. -/
def Watched (fd : Fd) (wants : Bytes → Bool → Prop) : Law
  | none, events, calls => events = none ∧ Lives .free calls
  | some c, events, calls => (c.closing = false ∧ c.socket = some fd) ∧
      (∃ out, events = some { epollin := true, epollrdhup := true, epollout := out } ∧
        wants c.outputBuffer out) ∧ Lives .registered calls

/-- `EPOLLOUT` exactly while there is output. -/
def upToDate (output : Bytes) (out : Bool) : Prop := out = decide (output ≠ [])

/-- In the middle of a flush: `EPOLLOUT` at least while there is output. -/
def flushed (output : Bytes) (out : Bool) : Prop := output ≠ [] → out = true

/-- A response has been stored and the mask not yet been set. -/
def stale (_ : Bytes) (_ : Bool) : Prop := True

/-- A socket that `accept4()` has returned and that is not registered yet. -/
def Pending (phase : Phase) : Law
  | none, events, calls => events = none ∧ Lives phase calls
  | some _, _, _ => False

/-- What is left in `pending_close_queue_`. -/
def IsRetired (c : ClientConnection) : Prop :=
  c.socket = none ∧ c.inputBuffer.storage = [] ∧ c.outputBuffer = [] ∧
    ∀ kind, (c.timeout kind).armed = false

/-- `law` holds of `fd` and all other descriptors are up to date; at most `most` connections are
registered. -/
structure Consistent (most : Nat) (fd : Fd) (law : Law) (s : Server) : Prop where
  here : fd ≠ s.listenFd → law (s.find fd) (s.poller.lookup fd) (syscalls fd s.trace)
  elsewhere : ∀ fd', fd' ≠ fd → fd' ≠ s.listenFd →
    Watched fd' upToDate (s.find fd') (s.poller.lookup fd') (syscalls fd' s.trace)
  listening : s.find s.listenFd = none
  count : s.activeConnectionCount = s.clients.keys.card
  metric : s.metrics.connsCurrent = s.activeConnectionCount
  limit : s.activeConnectionCount ≤ most
  retired : ∀ c ∈ s.pendingCloseQueue, IsRetired c

variable {most : Nat} {fd fd' : Fd} {law law' : Law} {wants wants' : Bytes → Bool → Prop}
  {c c' : ClientConnection} {events : List Event} {s s' : Server}

/-- Events that make no system call. -/
def Silent (events : List Event) : Prop := ∀ fd, syscalls fd events = []

/-- Events whose system calls are reads, writes and mask changes on `fd`. -/
def Works (fd : Fd) (events : List Event) : Prop :=
  (∀ call ∈ syscalls fd events, isWork call = true) ∧ ∀ fd', fd' ≠ fd → syscalls fd' events = []

theorem Silent.works (h : Silent events) (fd : Fd) : Works fd events := by
  refine ⟨fun call hcall => ?_, fun fd' _ => h fd'⟩
  rw [h fd] at hcall
  cases hcall

namespace Consistent

/-- No client connection has the listening descriptor. -/
theorem ne_listenFd (h : Consistent most fd law s) (hf : s.find fd' = some c) :
    fd' ≠ s.listenFd := by
  rintro rfl
  rw [h.listening] at hf
  cases hf

theorem owns (h : Consistent most fd (Watched fd wants) s) (hf : s.find fd = some c) :
    c.closing = false ∧ c.socket = some fd := by
  have := h.here (h.ne_listenFd hf)
  rw [hf] at this
  exact this.1

theorem mono (h : Consistent most fd (Watched fd wants) s)
    (hwants : ∀ output out, wants output out → wants' output out) :
    Consistent most fd (Watched fd wants') s := by
  refine { h with here := fun hne => ?_ }
  have := h.here hne
  cases hf : s.find fd with
  | none =>
    rw [hf] at this
    exact this
  | some c =>
    rw [hf] at this
    obtain ⟨hown, ⟨out, hevents, hout⟩, hlives⟩ := this
    exact ⟨hown, ⟨out, hevents, hwants _ _ hout⟩, hlives⟩

/-- Of a descriptor without a connection all masks are right. -/
theorem gone (h : Consistent most fd (Watched fd wants) s) (hf : s.find fd = none) :
    Consistent most fd (Watched fd wants') s := by
  refine { h with here := fun hne => ?_ }
  have := h.here hne
  rw [hf] at this ⊢
  exact this

/-- When all masks are right, no descriptor is special. -/
theorem atRest (h : Consistent most fd (Watched fd upToDate) s) :
    Consistent most fd' (Watched fd' upToDate) s := by
  have hall (x : Fd) (hne : x ≠ s.listenFd) :
      Watched x upToDate (s.find x) (s.poller.lookup x) (syscalls x s.trace) := by
    by_cases hx : x = fd
    · subst hx
      exact h.here hne
    · exact h.elsewhere x hx hne
  exact { h with here := hall fd', elsewhere := fun x _ => hall x }

/-! ## Changes beside the connections -/

/-- Nothing that has to agree changes, and no system call is made. -/
theorem silent (h : Consistent most fd law s) (hclients : s'.clients = s.clients)
    (hpoller : s'.poller = s.poller) (hlisten : s'.listenFd = s.listenFd)
    (hcount : s'.activeConnectionCount = s.activeConnectionCount)
    (hmetric : s'.metrics.connsCurrent = s.metrics.connsCurrent)
    (hretired : s'.pendingCloseQueue = s.pendingCloseQueue)
    (htrace : ∃ tr, s'.trace = s.trace ++ tr ∧ Silent tr) : Consistent most fd law s' := by
  obtain ⟨tr, htr, hsilent⟩ := htrace
  have hfind (x : Fd) : s'.find x = s.find x := by rw [Server.find, hclients]; rfl
  have hcalls (x : Fd) : syscalls x s'.trace = syscalls x s.trace := by
    rw [htr, syscalls_append, hsilent x, List.append_nil]
  refine ⟨fun hne => ?_, fun x hx hne => ?_, ?_, ?_, ?_, ?_, ?_⟩
  · rw [hlisten] at hne
    rw [hfind, hpoller, hcalls]
    exact h.here hne
  · rw [hlisten] at hne
    rw [hfind, hpoller, hcalls]
    exact h.elsewhere x hx hne
  · rw [hlisten, hfind]
    exact h.listening
  · rw [hcount, hclients]
    exact h.count
  · rw [hmetric, hcount]
    exact h.metric
  · rw [hcount]
    exact h.limit
  · rw [hretired]
    exact h.retired

theorem recordErrorMetric (h : Consistent most fd law s) :
    Consistent most fd law (recordErrorMetric s) :=
  h.silent rfl rfl rfl rfl rfl rfl ⟨[], (List.append_nil _).symm, fun _ => rfl⟩

theorem recordRejectMetric (h : Consistent most fd law s) (statusCode : Nat) :
    Consistent most fd law (recordRejectMetric statusCode s) := by
  refine h.silent rfl rfl rfl rfl ?_ rfl ⟨[], (List.append_nil _).symm, fun _ => rfl⟩
  unfold Core.recordRejectMetric
  dsimp only
  split <;> rfl

theorem countRequest (h : Consistent most fd law s) : Consistent most fd law (countRequest s) :=
  h.silent rfl rfl rfl rfl rfl rfl ⟨[], (List.append_nil _).symm, fun _ => rfl⟩

theorem growInflight (h : Consistent most fd law s) (n : Nat) :
    Consistent most fd law (growInflight n s) :=
  h.silent rfl rfl rfl rfl rfl rfl ⟨[], (List.append_nil _).symm, fun _ => rfl⟩

theorem releaseInflightBytes (h : Consistent most fd law s) (n : Nat) :
    Consistent most fd law (releaseInflightBytes n s) := by
  rw [releaseInflightBytes_eq]
  exact h.silent rfl rfl rfl rfl rfl rfl ⟨[.released n s.globalInflightBytes], rfl, fun _ => rfl⟩

/-- Something is noted in the history. -/
theorem note (h : Consistent most fd law s) (hsilent : Silent events) :
    Consistent most fd law (s.log events) :=
  h.silent rfl rfl rfl rfl rfl rfl ⟨events, rfl, hsilent⟩

/-! ## Changes of the connection a handler works on -/

/-- The entry of `fd` is replaced, and only reads, writes and mask changes are made. -/
theorem rework (h : Consistent most fd (Watched fd wants) s) (hf : s.find fd = some c)
    (hclients : s'.clients = s.clients.insert fd c') (hsocket : c'.socket = c.socket)
    (hclosing : c'.closing = c.closing) (hpoller : s'.poller = s.poller)
    (hlisten : s'.listenFd = s.listenFd)
    (hcount : s'.activeConnectionCount = s.activeConnectionCount)
    (hmetric : s'.metrics.connsCurrent = s.metrics.connsCurrent)
    (hretired : s'.pendingCloseQueue = s.pendingCloseQueue)
    (htrace : ∃ tr, s'.trace = s.trace ++ tr ∧ Works fd tr)
    (hwants : ∀ out, wants c.outputBuffer out → wants' c'.outputBuffer out) :
    Consistent most fd (Watched fd wants') s' := by
  obtain ⟨tr, htr, hwork, hothers⟩ := htrace
  have hself : s'.find fd = some c' := by
    rw [Server.find, hclients]
    exact Finmap.lookup_insert ..
  have hfind (x : Fd) (hx : x ≠ fd) : s'.find x = s.find x := by
    rw [Server.find, hclients]
    exact Finmap.lookup_insert_of_ne _ hx
  have hkeys : s'.clients.keys = s.clients.keys := by
    ext x
    rw [hclients, Finmap.mem_keys, Finmap.mem_keys, Finmap.mem_insert]
    constructor
    · rintro (rfl | hx)
      · exact Finmap.mem_of_lookup_eq_some hf
      · exact hx
    · exact .inr
  refine ⟨fun hne => ?_, fun x hx hne => ?_, ?_, ?_, ?_, ?_, ?_⟩
  · have hold := h.here (hlisten ▸ hne)
    rw [hf] at hold
    obtain ⟨⟨hcl, hown⟩, ⟨out, hevents, hout⟩, hlives⟩ := hold
    rw [hself, hpoller, htr, syscalls_append]
    exact ⟨⟨hclosing.trans hcl, hsocket.trans hown⟩, ⟨out, hevents, hwants out hout⟩,
      hlives.work hwork⟩
  · rw [hfind x hx, hpoller, htr, syscalls_append, hothers x hx, List.append_nil]
    exact h.elsewhere x hx (hlisten ▸ hne)
  · rw [hlisten, hfind _ (h.ne_listenFd hf).symm]
    exact h.listening
  · rw [hcount, hkeys]
    exact h.count
  · rw [hmetric, hcount]
    exact h.metric
  · rw [hcount]
    exact h.limit
  · rw [hretired]
    exact h.retired

theorem put (h : Consistent most fd (Watched fd wants) s) (hf : s.find fd = some c)
    (hsocket : c'.socket = c.socket) (hclosing : c'.closing = c.closing)
    (hwants : ∀ out, wants c.outputBuffer out → wants' c'.outputBuffer out) :
    Consistent most fd (Watched fd wants') (s.put fd c') :=
  h.rework hf rfl hsocket hclosing rfl rfl rfl rfl rfl
    ⟨[], (List.append_nil _).symm, Silent.works (fun _ => rfl) fd⟩ hwants

/-- A change in place that keeps the output buffer. -/
theorem update (h : Consistent most fd (Watched fd wants) s) (f : ClientConnection → ClientConnection)
    (hsocket : ∀ c, (f c).socket = c.socket) (hclosing : ∀ c, (f c).closing = c.closing)
    (hwants : ∀ c out, wants c.outputBuffer out → wants' (f c).outputBuffer out) :
    Consistent most fd (Watched fd wants') (s.update fd f) := by
  unfold Server.update
  cases hf : s.find fd with
  | none => exact h.gone hf
  | some c => exact h.put hf (hsocket c) (hclosing c) (hwants c)

/-- Reads and writes on the descriptor. -/
theorem work (h : Consistent most fd (Watched fd wants) s) (hf : s.find fd = some c)
    (hworks : Works fd events) : Consistent most fd (Watched fd wants) (s.log events) :=
  h.rework hf (insert_self hf).symm rfl rfl rfl rfl rfl rfl rfl ⟨events, rfl, hworks⟩ fun _ => id

theorem pushTimer (h : Consistent most fd (Watched fd wants) s) (hf : s.find fd = some c)
    (kind : TimerKind) (now deadline : Time) (hsocket : c'.socket = c.socket)
    (hclosing : c'.closing = c.closing) (hout : c'.outputBuffer = c.outputBuffer) :
    Consistent most fd (Watched fd wants) (pushTimer kind now deadline fd c' s) := by
  refine h.rework hf rfl hsocket hclosing rfl rfl rfl rfl rfl ⟨[_], rfl, ?_⟩ ?_
  · exact Silent.works (fun _ => rfl) fd
  · intro out hwants
    rwa [ClientConnection.arm_outputBuffer, hout]

theorem armHeaderTimeout (h : Consistent most fd (Watched fd wants) s) (now : Time) :
    Consistent most fd (Watched fd wants) (armHeaderTimeout fd now s) := by
  obtain e | ⟨c, hf, e⟩ := armHeaderTimeout_cases fd now s
  · rwa [e]
  · rw [e]
    exact h.pushTimer hf .kHeader now _ rfl rfl rfl

theorem armBodyTimeout (h : Consistent most fd (Watched fd wants) s) (now : Time)
    (contentLength : Nat) :
    Consistent most fd (Watched fd wants) (armBodyTimeout fd now contentLength s) := by
  obtain e | ⟨c, hf, e⟩ := armBodyTimeout_cases fd now contentLength s
  · rwa [e]
  · rw [e]
    exact h.pushTimer hf .kBody now _ rfl rfl rfl

theorem armIdleKeepAliveTimeout (h : Consistent most fd (Watched fd wants) s) (now : Time) :
    Consistent most fd (Watched fd wants) (armIdleKeepAliveTimeout fd now s) := by
  obtain e | ⟨c, hf, e⟩ := armIdleKeepAliveTimeout_cases fd now s
  · rwa [e]
  · rw [e]
    exact h.pushTimer hf .kIdleKeepAlive now _ rfl rfl rfl

theorem enqueueReadyConnection (h : Consistent most fd (Watched fd wants) s) :
    Consistent most fd (Watched fd wants) (enqueueReadyConnection fd s) := by
  obtain e | ⟨c, hf, e⟩ := enqueueReadyConnection_cases fd s
  · rwa [e]
  · rw [e]
    exact h.rework hf rfl rfl rfl rfl rfl rfl rfl rfl
      ⟨[], (List.append_nil _).symm, Silent.works (fun _ => rfl) fd⟩ fun _ => id

/-- `UpdateClientPollMask` brings the mask up to date. -/
theorem updateClientPollMask (h : Consistent most fd (Watched fd wants) s) :
    Consistent most fd (Watched fd upToDate) (updateClientPollMask fd s) := by
  unfold Core.updateClientPollMask
  cases hf : s.find fd with
  | none => exact h.gone hf
  | some c =>
    obtain ⟨hcl, hown⟩ := h.owns hf
    dsimp only
    rw [if_neg (by simp [hcl])]
    refine ⟨fun hne => ?_, fun x hx hne => ?_, h.listening, h.count, h.metric, h.limit, h.retired⟩
    · have hold := h.here hne
      rw [hf] at hold
      show Watched fd upToDate (s.find fd) ((s.poller.insert fd _).lookup fd)
        (syscalls fd (s.trace ++ [.epollCtl .mod fd _]))
      rw [hf, Finmap.lookup_insert, syscalls_append]
      refine ⟨⟨hcl, hown⟩, ⟨_, rfl, rfl⟩, hold.2.2.work ?_⟩
      simp [syscalls, syscall?, isWork]
    · show Watched x upToDate (s.find x) ((s.poller.insert fd _).lookup x)
        (syscalls x (s.trace ++ [.epollCtl .mod fd _]))
      rw [Finmap.lookup_insert_of_ne _ hx, syscalls_append]
      simpa [syscalls, syscall?, Ne.symm hx] using h.elsewhere x hx hne

/-! ## Closing -/

theorem isRetired (c : ClientConnection) : IsRetired c.retired := by
  refine ⟨rfl, rfl, rfl, fun kind => ?_⟩
  cases kind <;> simp [ClientConnection.retired]

/-- The single closing path takes the connection out of everything at once. -/
theorem close (h : Consistent most fd (Watched fd wants) s) (hf : s.find fd = some c)
    (reason : CloseReason) {less : Nat} (hless : s.activeConnectionCount ≤ less + 1) :
    Consistent less fd (Watched fd wants') (closeClientConnection fd reason s) := by
  obtain ⟨hcl, hown⟩ := h.owns hf
  have hcard : (s.clients.erase fd).keys.card + 1 = s.clients.keys.card := by
    rw [Finmap.keys_erase]
    exact Finset.card_erase_add_one (Finmap.mem_keys.mpr (Finmap.mem_of_lookup_eq_some hf))
  have hcount := h.count
  unfold closeClientConnection
  rw [hf]
  dsimp only
  rw [if_neg (by simp [hcl]), releaseInflightBytes_eq, hown]
  refine ⟨fun hne => ?_, fun x hx hne => ?_, ?_, ?_, rfl, ?_, fun d hd => ?_⟩
  · have hold := h.here hne
    rw [hf] at hold
    show Watched fd wants' ((s.clients.erase fd).lookup fd) ((s.poller.erase fd).lookup fd)
      (syscalls fd (((s.trace ++ [.epollCtl .del fd {}, .closedFd fd]) ++
        [.released _ _]) ++ [.closed _ _]))
    rw [Finmap.lookup_erase, Finmap.lookup_erase, syscalls_close, if_pos rfl]
    exact ⟨rfl, hold.2.2.close⟩
  · show Watched x upToDate ((s.clients.erase fd).lookup x) ((s.poller.erase fd).lookup x)
      (syscalls x (((s.trace ++ [.epollCtl .del fd {}, .closedFd fd]) ++
        [.released _ _]) ++ [.closed _ _]))
    rw [Finmap.lookup_erase_ne hx, Finmap.lookup_erase_ne hx, syscalls_close, if_neg hx,
      List.append_nil]
    exact h.elsewhere x hx hne
  · show (s.clients.erase fd).lookup s.listenFd = none
    rw [Finmap.lookup_erase_ne (h.ne_listenFd hf).symm]
    exact h.listening
  · show s.activeConnectionCount - 1 = (s.clients.erase fd).keys.card
    omega
  · show s.activeConnectionCount - 1 ≤ less
    omega
  · rcases List.mem_append.mp hd with hd | hd
    · exact h.retired d hd
    · obtain rfl := List.mem_singleton.mp hd
      exact isRetired c

theorem closeClientConnection (h : Consistent most fd (Watched fd wants) s) (reason : CloseReason) :
    Consistent most fd (Watched fd upToDate) (closeClientConnection fd reason s) := by
  cases hf : s.find fd with
  | none =>
    rw [Core.closeClientConnection, hf]
    exact h.gone hf
  | some c => exact h.close hf reason (by have := h.limit; omega)

end Consistent

end WebServer.Kernel
