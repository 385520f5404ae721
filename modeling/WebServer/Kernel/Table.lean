import WebServer.Kernel.Progress
import WebServer.Lib.Descriptors

/-!
# The kernel's table

The system calls of a run, answered by a kernel that keeps a table of descriptors.  The table is a
function of the server's state: what is open is the epoll instance, the listening socket and one
socket for each connection, and epoll watches what `poller_` says.
-/

namespace WebServer.Kernel

open WebServer.Net WebServer.Http WebServer.Core WebServer.Life WebServer.Refine TimedSteps
  Descriptors

variable {epollFd fd : Fd} {c c' : ClientConnection} {t : Time} {s s' : Server}
  {events : List Event}

abbrev KernelCall := Call Fd EpollEvents

abbrev KernelTable := Table Fd EpollEvents

/-- What an event of the history asks of the kernel. -/
def kernelCalls (epollFd listenFd : Fd) : Event → List KernelCall
  | .accepted fd _ => [.use (some listenFd), .opened fd]
  | .epollCtl .add fd events => [.add epollFd fd events]
  | .epollCtl .mod fd events => [.modify epollFd fd events]
  | .epollCtl .del fd _ => [.delete epollFd fd]
  | .read c _ => [.use c.socket]
  | .write _ fd _ _ _ => [.use (some fd)]
  | .closedFd fd => [.close fd]
  | _ => []

def traceCalls (epollFd listenFd : Fd) (trace : List Event) : List KernelCall :=
  trace.flatMap (kernelCalls epollFd listenFd)

theorem traceCalls_append (epollFd listenFd : Fd) (trace events : List Event) :
    traceCalls epollFd listenFd (trace ++ events) =
      traceCalls epollFd listenFd trace ++ traceCalls epollFd listenFd events :=
  List.flatMap_append

/-- The table that belongs to a state of the server. -/
def tableOf (epollFd : Fd) (s : Server) : KernelTable where
  isOpen fd := fd = epollFd || fd = s.listenFd || (s.find fd).isSome
  watched poll fd := if poll = epollFd then s.poller.lookup fd else none

/-- The kernel hands out no descriptor that it has given to the epoll instance. -/
def Apart (epollFd : Fd) (trace : List Event) : Prop :=
  ∀ fd peerEndpoint, .accepted fd peerEndpoint ∈ trace → fd ≠ epollFd

/-- The kernel has answered every call so far, and its table belongs to `s`. -/
structure InSync (epollFd : Fd) (s : Server) : Prop where
  listening : s.find s.listenFd = none
  sockets : ∀ fd c, s.find fd = some c → c.socket = some fd ∧ fd ≠ epollFd
  watched : ∀ fd, (s.poller.lookup fd).isSome = true ↔ fd = s.listenFd ∨ (s.find fd).isSome = true
  table : (tableOf epollFd (initializeServer s.listenFd)).replay
    (traceCalls epollFd s.listenFd s.trace) = .ok (tableOf epollFd s)

theorem tableOf_congr (hlisten : s'.listenFd = s.listenFd)
    (hfind : ∀ fd, (s'.find fd).isSome = (s.find fd).isSome) (hpoller : s'.poller = s.poller) :
    tableOf epollFd s' = tableOf epollFd s := by
  simp only [tableOf, hlisten, hfind, hpoller]

/-- An accepted socket is in no table yet. -/
theorem Accepted.tables {peerEndpoint : Bytes} {writes : List Event}
    (h : Accepted fd peerEndpoint writes s s') :
    s'.clients = s.clients ∧ s'.listenFd = s.listenFd ∧ s'.poller = s.poller := by
  rw [h.apart]
  exact ⟨rfl, rfl, rfl⟩

theorem Accepted.mem_trace {peerEndpoint : Bytes} {writes : List Event}
    (h : Accepted fd peerEndpoint writes s s') : .accepted fd peerEndpoint ∈ s'.trace := by
  rw [h.apart]
  exact List.mem_append_right _ List.mem_cons_self

namespace InSync

theorem isOpen_client (hf : s.find fd = some c) : (tableOf epollFd s).isOpen fd = true := by
  simp [tableOf, hf]

theorem isOpen_listen (s : Server) : (tableOf epollFd s).isOpen s.listenFd = true := by
  simp [tableOf]

theorem isOpen_epoll (s : Server) : (tableOf epollFd s).isOpen epollFd = true := by
  simp [tableOf]

/-- The trace grows by events whose calls lead to the table of `s'`. -/
theorem advance (h : InSync epollFd s) (hlisten : s'.listenFd = s.listenFd)
    (htrace : s'.trace = s.trace ++ events)
    (hcalls : (tableOf epollFd s).replay (traceCalls epollFd s.listenFd events) =
      .ok (tableOf epollFd s')) :
    (tableOf epollFd (initializeServer s'.listenFd)).replay
      (traceCalls epollFd s'.listenFd s'.trace) = .ok (tableOf epollFd s') := by
  rw [hlisten, htrace, traceCalls_append, Table.replay_append h.table]
  exact hcalls

/-- The connections keep their sockets, and nobody comes or goes. -/
theorem keep (h : InSync epollFd s) (hlisten : s'.listenFd = s.listenFd)
    (hpoller : s'.poller = s.poller)
    (hsockets : ∀ fd, (s'.find fd).map ClientConnection.socket =
      (s.find fd).map ClientConnection.socket)
    (htrace : s'.trace = s.trace ++ events)
    (hcalls : (tableOf epollFd s).replay (traceCalls epollFd s.listenFd events) =
      .ok (tableOf epollFd s)) : InSync epollFd s' := by
  have hfind (fd : Fd) : (s'.find fd).isSome = (s.find fd).isSome := by
    rw [← Option.isSome_map, hsockets, Option.isSome_map]
  constructor
  · rw [hlisten, ← Option.isNone_iff_eq_none, ← Option.not_isSome, hfind, h.listening]
    rfl
  · intro fd c hf
    have hs := hsockets fd
    rw [hf] at hs
    obtain ⟨c₀, hf₀, hsocket⟩ := Option.map_eq_some_iff.mp hs.symm
    rw [← hsocket]
    exact h.sockets fd c₀ hf₀
  · intro fd
    rw [hpoller, hlisten, hfind]
    exact h.watched fd
  · refine h.advance hlisten htrace ?_
    rw [hcalls, tableOf_congr hlisten hfind hpoller]

/-- Nothing is asked of the kernel. -/
theorem quiet (h : InSync epollFd s) (hlisten : s'.listenFd = s.listenFd)
    (hpoller : s'.poller = s.poller)
    (hsockets : ∀ fd, (s'.find fd).map ClientConnection.socket =
      (s.find fd).map ClientConnection.socket)
    (htrace : s'.trace = s.trace ++ events)
    (hquiet : ∀ e ∈ events, kernelCalls epollFd s.listenFd e = []) : InSync epollFd s' := by
  refine h.keep hlisten hpoller hsockets htrace ?_
  rw [traceCalls, List.flatMap_eq_nil_iff.mpr hquiet]
  rfl

theorem silent (h : InSync epollFd s) (hlisten : s'.listenFd = s.listenFd)
    (hpoller : s'.poller = s.poller)
    (hsockets : ∀ fd, (s'.find fd).map ClientConnection.socket =
      (s.find fd).map ClientConnection.socket)
    (htrace : s'.trace = s.trace) : InSync epollFd s' := by
  refine h.quiet hlisten hpoller hsockets (htrace.trans (List.append_nil _).symm) ?_
  exact fun e he => absurd he List.not_mem_nil

/-- The entry of `fd` is replaced by one with the same socket. -/
theorem socket_put (hf : s.find fd = some c) (hsocket : c'.socket = c.socket) (fd' : Fd) :
    ((s.put fd c').find fd').map ClientConnection.socket =
      (s.find fd').map ClientConnection.socket := by
  by_cases heq : fd' = fd
  · subst heq
    rw [find_put, hf, Option.map_some, Option.map_some, hsocket]
  · rw [Server.find, Server.put, Finmap.lookup_insert_of_ne _ heq, ← Server.find]

theorem replay_writes {t : KernelTable} {listenFd : Fd} (hopen : t.isOpen fd = true)
    (hwrites : Writes fd events) : t.replay (traceCalls epollFd listenFd events) = .ok t := by
  have hcalls : traceCalls epollFd listenFd events =
      (events.map fun _ => fd).map fun fd => .use (some fd) := by
    induction events with
    | nil => rfl
    | cons e events ih =>
      obtain ⟨_, _, _, _, rfl⟩ := hwrites e List.mem_cons_self
      have hrest := ih fun e' h' => hwrites e' (List.mem_cons_of_mem _ h')
      rw [traceCalls, List.flatMap_cons]
      exact congrArg _ hrest
  rw [hcalls]
  refine Table.replay_uses ?_
  intro fd' h'
  obtain ⟨_, -, rfl⟩ := List.mem_map.mp h'
  exact hopen

/-- `EPOLL_CTL_MOD` of a registered socket. -/
theorem mask (h : InSync epollFd s) (hf : s.find fd = some c) (events : EpollEvents) :
    InSync epollFd
      { s.log [.epollCtl .mod fd events] with poller := s.poller.insert fd events } := by
  have hclient : (s.find fd).isSome = true := by
    rw [hf]
    rfl
  refine ⟨h.listening, h.sockets, fun fd' => ?_, h.advance rfl rfl ?_⟩
  · show ((s.poller.insert fd events).lookup fd').isSome = true ↔ _
    by_cases heq : fd' = fd
    · subst heq
      rw [Finmap.lookup_insert]
      exact iff_of_true rfl (.inr hclient)
    · rw [Finmap.lookup_insert_of_ne _ heq]
      exact h.watched fd'
  · have hold : ((tableOf epollFd s).watched epollFd fd).isSome = true := by
      simpa [tableOf] using (h.watched fd).mpr (.inr hclient)
    have hcall := Table.apply_modify (isOpen_epoll s) (isOpen_client hf) hold events
    refine (Table.replay_cons _ hcall).trans (congrArg Except.ok ?_)
    refine Table.ext rfl (funext fun poll => funext fun fd' => ?_)
    by_cases hpoll : poll = epollFd
    · by_cases heq : fd' = fd
      · simp [tableOf, Table.watch, hpoll, heq]
      · simp [tableOf, Table.watch, hpoll, heq]
    · simp [tableOf, Table.watch, hpoll]

/-- `EPOLL_CTL_DEL` and `close()` of a registered socket. -/
theorem close (h : InSync epollFd s) (hf : s.find fd = some c) (hcl : c.closing = false)
    (reason : CloseReason) : InSync epollFd (closeClientConnection fd reason s) := by
  obtain ⟨hsocket, hepoll⟩ := h.sockets fd c hf
  have hlisten : fd ≠ s.listenFd := by
    rintro rfl
    rw [h.listening] at hf
    cases hf
  rw [closeClientConnection_eq hf hcl, hsocket, if_pos (by rfl)]
  refine ⟨?_, fun fd' c' hf' => ?_, fun fd' => ?_, h.advance rfl rfl ?_⟩
  · show (s.clients.erase fd).lookup s.listenFd = none
    rw [Finmap.lookup_erase_ne hlisten.symm]
    exact h.listening
  · by_cases heq : fd' = fd
    · subst heq
      rw [Server.find, Finmap.lookup_erase] at hf'
      cases hf'
    · rw [Server.find, Finmap.lookup_erase_ne heq] at hf'
      exact h.sockets fd' c' hf'
  · show ((s.poller.erase fd).lookup fd').isSome = true ↔
      fd' = s.listenFd ∨ ((s.clients.erase fd).lookup fd').isSome = true
    by_cases heq : fd' = fd
    · subst heq
      simp [Finmap.lookup_erase, hlisten]
    · rw [Finmap.lookup_erase_ne heq, Finmap.lookup_erase_ne heq]
      exact h.watched fd'
  · have hold : ((tableOf epollFd s).watched epollFd fd).isSome = true := by
      simpa [tableOf] using (h.watched fd).mpr (.inr (by rw [hf]; rfl))
    have hdelete := Table.apply_delete (isOpen_epoll s) (isOpen_client hf) hold
    have hopen : ((tableOf epollFd s).watch epollFd fd none).isOpen fd = true := isOpen_client hf
    have hclose := Table.apply_close hopen
    refine ((Table.replay_cons _ hdelete).trans (Table.replay_cons _ hclose)).trans
      (congrArg Except.ok ?_)
    refine Table.ext (funext fun fd' => ?_) (funext fun poll => funext fun fd' => ?_)
    · by_cases heq : fd' = fd
      · subst heq
        simp [tableOf, Table.closed, hepoll, hlisten, Server.find]
      · simp [tableOf, Table.closed, Table.watch, heq, Server.find]
    · by_cases hpoll : poll = epollFd
      · by_cases heq : fd' = fd
        · simp [tableOf, Table.closed, hpoll, heq, hepoll.symm]
        · simp [tableOf, Table.closed, Table.watch, hpoll, heq, hepoll.symm]
      · by_cases heq : fd' = fd
        · simp [tableOf, Table.closed, hpoll, heq]
        · simp [tableOf, Table.closed, Table.watch, hpoll]

/-! ## Accepting -/

/-- The kernel has handed out `fd`, which nobody had. -/
theorem isOpen_new {peerEndpoint : Bytes} {writes : List Event}
    (ha : Accepted fd peerEndpoint writes s s') (hne : fd ≠ epollFd) :
    (tableOf epollFd s).isOpen fd = false := by
  simp [tableOf, hne, ha.notListening, ha.free]

theorem unwatched_new {peerEndpoint : Bytes} {writes : List Event} (h : InSync epollFd s)
    (ha : Accepted fd peerEndpoint writes s s') : (tableOf epollFd s).watched epollFd fd = none := by
  have hno : ¬ (s.poller.lookup fd).isSome = true := by
    rw [h.watched fd]
    simp [ha.free, ha.notListening]
  simpa [tableOf] using hno

/-- The calls on an accepted socket before it is registered or closed. -/
theorem accepted {peerEndpoint : Bytes} {writes : List Event}
    (ha : Accepted fd peerEndpoint writes s s') (hne : fd ≠ epollFd)
    (more : List KernelCall) :
    (tableOf epollFd s).replay
        (traceCalls epollFd s.listenFd (.accepted fd peerEndpoint :: writes) ++ more) =
      ({ tableOf epollFd s with
        isOpen := Function.update (tableOf epollFd s).isOpen fd true } : KernelTable).replay more := by
  have hlisten := Table.apply_use (@isOpen_listen epollFd s)
  have hopened := Table.apply_opened (isOpen_new ha hne)
  have hwrites : ({ tableOf epollFd s with
      isOpen := Function.update (tableOf epollFd s).isOpen fd true } : KernelTable).replay
        (traceCalls epollFd s.listenFd writes) = .ok _ :=
    replay_writes (by simp) ha.writes
  refine (Table.replay_cons _ hlisten).trans ((Table.replay_cons _ hopened).trans ?_)
  exact Table.replay_append hwrites more

/-- The socket is closed again before it is registered. -/
theorem turnAway {peerEndpoint : Bytes} {writes : List Event} (h : InSync epollFd s)
    (ha : Accepted fd peerEndpoint writes s s') (hne : fd ≠ epollFd) :
    InSync epollFd (s'.log [.closedFd fd]) := by
  obtain ⟨hclients, hlisten, hpoller⟩ := ha.tables
  have htrace : (s'.log [.closedFd fd]).trace =
      s.trace ++ (.accepted fd peerEndpoint :: writes ++ [.closedFd fd]) := by
    have htrace := congrArg Server.trace ha.apart
    exact (congrArg (· ++ _) htrace).trans (List.append_assoc ..)
  refine h.keep hlisten hpoller (fun fd' => ?_) htrace ?_
  · show ((s'.clients).lookup fd').map _ = _
    rw [hclients]
    rfl
  · have hopen : ({ tableOf epollFd s with
        isOpen := Function.update (tableOf epollFd s).isOpen fd true } : KernelTable).isOpen fd =
          true := by simp
    rw [traceCalls_append, accepted ha hne]
    refine (Table.replay_cons _ (Table.apply_close hopen)).trans (congrArg Except.ok ?_)
    refine Table.ext ?_ (funext fun poll => funext fun fd' => ?_)
    · simp only [Table.closed, Function.update_idem]
      exact Function.update_eq_self_iff.mpr (isOpen_new ha hne).symm
    · have hfree := h.unwatched_new ha
      by_cases hpoll : poll = epollFd
      · subst hpoll
        by_cases heq : fd' = fd
        · subst heq
          simp [Table.closed, hfree]
        · simp [Table.closed, heq, hne.symm]
      · simp [Table.closed, tableOf, hpoll]

/-- The socket is registered. -/
theorem enroll {peerEndpoint : Bytes} (h : InSync epollFd s)
    (ha : Accepted fd peerEndpoint [] s s') (hne : fd ≠ epollFd) :
    InSync epollFd (enrolled fd peerEndpoint s') := by
  obtain ⟨hclients, hlisten, hpoller⟩ := ha.tables
  have hfind (fd' : Fd) (hfd : fd' ≠ fd) :
      (enrolled fd peerEndpoint s').find fd' = s.find fd' := by
    show (s'.clients.insert fd _).lookup fd' = _
    rw [Finmap.lookup_insert_of_ne _ hfd, hclients]
    rfl
  have hself : ((enrolled fd peerEndpoint s').find fd).isSome = true ∧
      ∀ c, (enrolled fd peerEndpoint s').find fd = some c → c.socket = some fd := by
    have hnew : (enrolled fd peerEndpoint s').find fd = some
        { socket := some fd, peerEndpoint, connectionId := s'.nextConnectionId } :=
      Finmap.lookup_insert ..
    rw [hnew]
    refine ⟨rfl, fun c hc => ?_⟩
    rw [← Option.some.inj hc]
  have htrace : (enrolled fd peerEndpoint s').trace = s.trace ++
      ([.accepted fd peerEndpoint] ++ [.epollCtl .add fd { epollin := true, epollrdhup := true }]) := by
    have htrace := congrArg Server.trace ha.apart
    exact (congrArg (· ++ _) htrace).trans (List.append_assoc ..)
  have hwatch (fd' : Fd) (hfd : fd' ≠ fd) :
      (enrolled fd peerEndpoint s').poller.lookup fd' = s.poller.lookup fd' := by
    show (s'.poller.insert fd _).lookup fd' = _
    rw [Finmap.lookup_insert_of_ne _ hfd, hpoller]
  have hwatched : (enrolled fd peerEndpoint s').poller.lookup fd =
      some { epollin := true, epollrdhup := true } := Finmap.lookup_insert ..
  have hlisten' : (enrolled fd peerEndpoint s').listenFd = s.listenFd := hlisten
  refine ⟨?_, fun fd' c hf => ?_, fun fd' => ?_, h.advance hlisten' htrace ?_⟩
  · rw [hlisten', hfind _ ha.notListening.symm]
    exact h.listening
  · by_cases hfd : fd' = fd
    · subst hfd
      exact ⟨hself.2 c hf, hne⟩
    · rw [hfind _ hfd] at hf
      exact h.sockets fd' c hf
  · rw [hlisten']
    by_cases hfd : fd' = fd
    · subst hfd
      rw [hwatched]
      exact iff_of_true rfl (.inr hself.1)
    · rw [hwatch _ hfd, hfind _ hfd]
      exact h.watched fd'
  · have hfree := h.unwatched_new ha
    let opened : KernelTable := { tableOf epollFd s with
      isOpen := Function.update (tableOf epollFd s).isOpen fd true }
    have hopen : opened.isOpen fd = true := by simp [opened]
    have hpoll : opened.isOpen epollFd = true := by
      simp [opened, hne.symm, isOpen_epoll]
    rw [traceCalls_append, accepted ha hne]
    refine (Table.replay_cons _ (Table.apply_add hpoll hopen hfree _)).trans (congrArg Except.ok ?_)
    refine Table.ext (funext fun fd' => ?_) (funext fun poll => funext fun fd' => ?_)
    · by_cases hfd : fd' = fd
      · subst hfd
        simp [opened, Table.watch, tableOf, hself.1]
      · simp [opened, Table.watch, tableOf, hfd, hfind _ hfd, hlisten']
    · by_cases hpoll : poll = epollFd
      · subst hpoll
        by_cases hfd : fd' = fd
        · subst hfd
          simp [opened, Table.watch, tableOf, hwatched]
        · simp [opened, Table.watch, tableOf, hfd, hwatch _ hfd]
      · simp [opened, Table.watch, tableOf, hpoll]

end InSync

/-! ## Runs -/

theorem Apart.of_prefix {trace trace' : List Event} (h : Apart epollFd trace')
    (hpre : trace <+: trace') : Apart epollFd trace :=
  fun fd peerEndpoint hmem => h fd peerEndpoint (hpre.subset hmem)

theorem Primitive.inSync (hp : Primitive t s s') (hapart : Apart epollFd s'.trace)
    (h : InSync epollFd s) : InSync epollFd s' := by
  have hsame (fd : Fd) : (s.find fd).map ClientConnection.socket =
      (s.find fd).map ClientConnection.socket := rfl
  cases hp with
  | put c' hf hsocket hclosing =>
    exact h.silent rfl rfl (InSync.socket_put hf hsocket) rfl
  | arm c' kind deadline hf hsocket hclosing hmin hmax =>
    have harmed : (c'.arm kind).socket = c'.socket := rfl
    have hsockets := InSync.socket_put hf (harmed.trans hsocket)
    exact h.quiet rfl rfl hsockets rfl (by simp [kernelCalls])
  | count | inflight | queue | expire | retire => exact h.silent rfl rfl hsame rfl
  | note e he =>
    refine h.quiet rfl rfl hsame rfl ?_
    intro e' he'
    obtain rfl := List.mem_singleton.mp he'
    cases e' <;> first | rfl | cases he
  | refuse c statusCode => exact h.quiet rfl rfl hsame rfl (by simp [kernelCalls])
  | read answer hf =>
    refine h.keep rfl rfl hsame rfl ?_
    have hcall := Table.apply_use (@InSync.isOpen_client epollFd _ _ _ hf)
    rw [← (h.sockets _ _ hf).1] at hcall
    exact Table.replay_cons _ hcall
  | write hf hwrites =>
    exact h.keep rfl rfl hsame rfl (InSync.replay_writes (InSync.isOpen_client hf) hwrites)
  | mask events hf => exact h.mask hf events
  | close reason hf hcl => exact h.close hf hcl reason
  | turnAway ha => exact h.turnAway ha (hapart _ _ (List.mem_append_left _ ha.mem_trace))
  | enroll ha => exact h.enroll ha (hapart _ _ (List.mem_append_left _ ha.mem_trace))

theorem InSync.initial {listenFd : Fd} : InSync epollFd (initializeServer listenFd) := by
  refine ⟨rfl, fun fd c hf => ?_, fun fd => ?_, rfl⟩
  · exact (Option.some_ne_none c (hf.symm.trans (Finmap.lookup_empty fd))).elim
  · by_cases heq : fd = listenFd
    · subst heq
      exact iff_of_true (by simp [initializeServer]) (.inl rfl)
    · refine iff_of_false ?_ ?_
      · rw [Finmap.lookup_isSome]
        exact fun hmem => heq ((Finmap.mem_singleton ..).mp hmem)
      · simp [initializeServer, heq, Server.find]

/-- **Simulation.**  The kernel answers every call of a run, and its table belongs to the state
that is reached. -/
theorem inSync_of_reachable (h : Reachable s) (hapart : Apart epollFd s.trace) :
    InSync epollFd s := by
  refine reachable_of_primitives (P := fun s => Apart epollFd s.trace → InSync epollFd s) h ?_ ?_
    hapart
  · exact fun listenFd _ => .initial
  · intro t s s' hp hs hapart
    exact hp.inSync hapart (hs (hapart.of_prefix hp.later.trace))

end WebServer.Kernel
