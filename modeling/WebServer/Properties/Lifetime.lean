import WebServer.Core.TimedRuns
import WebServer.Kernel.Startup

/-!
# The life of the descriptors

From the first `socket()` to the last destructor: no call names a descriptor that is not open, and
none is left open.
-/

namespace WebServer.Properties

open WebServer.Net WebServer.Http WebServer.Core WebServer.Kernel Descriptors

variable {host : Bytes} {port backlog : Nat} {a : Answers} {fd epollFd : Fd} {p : Process}
  {used : List SysCall} {sockets : List Fd} {t : KernelTable} {failure : Option Exception}

/-! ## Destructors -/

theorem destructor_calls (sockets : List Fd) (p : Process) :
    (p.destructor sockets).flatMap startCalls =
      (sockets ++ p.poller.epollFd.toList ++ p.listenFd.fd.toList).map .close := by
  have hclose (fds : List Fd) : (fds.map SysCall.close).flatMap startCalls = fds.map .close := by
    rw [List.flatMap_map]
    exact List.map_eq_flatMap.symm
  unfold Process.destructor UniqueFd.destroy UniqueFd.reset
  rw [List.flatMap_append, List.flatMap_append, hclose, hclose, hclose, List.map_append,
    List.map_append]

/-- The destructors of what is open leave nothing open. -/
theorem replay_destructor
    (hopen : ∀ x, t.isOpen x = true ↔ x ∈ sockets ++ p.poller.epollFd.toList ++ p.listenFd.fd.toList)
    (hnodup : (sockets ++ p.poller.epollFd.toList ++ p.listenFd.fd.toList).Nodup) :
    ∃ t', t.replay ((p.destructor sockets).flatMap startCalls) = .ok t' ∧
      ∀ x, t'.isOpen x = false := by
  obtain ⟨t', hreplay, hclosed⟩ := Table.replay_closes (fun x hx => (hopen x).mpr hx) hnodup
  refine ⟨t', by rw [destructor_calls, hreplay], fun x => ?_⟩
  rw [hclosed, Bool.and_eq_false_iff]
  by_cases hx : x ∈ sockets ++ p.poller.epollFd.toList ++ p.listenFd.fd.toList
  · exact .inr (decide_eq_false (not_not.mpr hx))
  · exact .inl (by simpa using mt (hopen x).mp hx)

/-! ## Startup -/

/-- The calls of startup in front of `epoll_create1()`. -/
theorem replay_used (hused : Uses fd used) (hopen : t.isOpen fd = true) :
    t.replay (used.flatMap startCalls) = .ok t := by
  induction used with
  | nil => rfl
  | cons call used ih =>
    have hcall := Table.apply_use hopen
    rw [List.flatMap_cons, hused call List.mem_cons_self]
    refine (Table.replay_cons _ hcall).trans (ih ?_)
    exact fun call' h' => hused call' (List.mem_cons_of_mem _ h')

/-- The table when nothing but these descriptors is open. -/
def only (fds : List Fd) : KernelTable where
  isOpen x := decide (x ∈ fds)
  watched _ _ := none

theorem replay_socket (hused : Uses fd used) (more : List SysCall) :
    Table.empty.replay ((.socket fd :: used ++ more).flatMap startCalls) =
      (only [fd]).replay (more.flatMap startCalls) := by
  have hopened : Table.apply (Table.empty : KernelTable) (.opened fd) = .ok (only [fd]) := by
    rw [Table.apply_opened rfl]
    refine congrArg Except.ok (Table.ext (funext fun x => ?_) rfl)
    by_cases hx : x = fd
    · simp [only, hx]
    · simp [only, hx, Table.empty]
  have hused' := replay_used (t := only [fd]) hused (by simp [only])
  rw [List.cons_append, List.flatMap_cons, List.flatMap_append]
  refine (Table.replay_cons _ hopened).trans ?_
  exact Table.replay_append hused' _

theorem apply_epollCreate (hne : epollFd ≠ fd) :
    (only [fd]).apply (.opened epollFd) = .ok (only [epollFd, fd]) := by
  rw [Table.apply_opened (by simp [only, hne])]
  refine congrArg Except.ok (Table.ext (funext fun x => ?_) rfl)
  by_cases hx : x = epollFd
  · simp [only, hx]
  · simp [only, hx]

/-- The listening socket is watched, and that is the table of a fresh server. -/
theorem apply_register (fd epollFd : Fd) :
    (only [epollFd, fd]).apply (.add epollFd fd { epollin := true }) =
      .ok (tableOf epollFd (initializeServer fd)) := by
  rw [Table.apply_add (by simp [only]) (by simp [only]) rfl]
  refine congrArg Except.ok (Table.ext (funext fun x => ?_) (funext fun poll => funext fun x => ?_))
  · by_cases hx : x = epollFd
    · simp [only, Table.watch, tableOf, hx]
    · by_cases hfd : x = fd
      · simp [only, Table.watch, tableOf, initializeServer, hfd]
      · simp [only, Table.watch, tableOf, initializeServer, Server.find, hx, hfd]
  · by_cases hpoll : poll = epollFd
    · by_cases hx : x = fd
      · subst hx
        simp [Table.watch, tableOf, initializeServer, hpoll]
      · have hnone : (Finmap.singleton fd { epollin := true } : Finmap fun _ : Fd => EpollEvents).lookup x =
            none := by
          rw [Finmap.lookup_eq_none, Finmap.mem_singleton]
          exact hx
        simp [only, Table.watch, tableOf, initializeServer, hpoll, hx, hnone]
    · simp [only, Table.watch, tableOf, hpoll]

theorem isOpen_initial (x : Fd) :
    (tableOf epollFd (initializeServer fd)).isOpen x = true ↔ x ∈ [epollFd] ++ [fd] := by
  by_cases hfd : x = fd
  · simp [tableOf, initializeServer, hfd]
  · simp [tableOf, initializeServer, Server.find, hfd]

theorem replay_started (hused : Uses fd used) (hne : epollFd ≠ fd) :
    Table.empty.replay ((SysCall.socket fd :: used ++ [SysCall.epollCreate epollFd,
        SysCall.epollCtl .add epollFd (some fd) { epollin := true }]).flatMap startCalls) =
      .ok (tableOf epollFd (initializeServer fd)) := by
  rw [replay_socket hused]
  exact (Table.replay_cons _ (apply_epollCreate hne)).trans
    (Table.replay_cons _ (apply_register fd epollFd))

/-- The kernel hands out two descriptors. -/
def Fresh (a : Answers) : Prop :=
  ∀ fd epollFd, a.socket = .ok fd → a.epollCreate = .ok epollFd → epollFd ≠ fd

/-- What is open when startup is over is what the process owns. -/
theorem Started.owned (h : Started a failure p) (hfresh : Fresh a) :
    ∃ t, Table.empty.replay (p.calls.flatMap startCalls) = .ok t ∧
      (∀ x, t.isOpen x = true ↔ x ∈ p.poller.epollFd.toList ++ p.listenFd.fd.toList) ∧
      (p.poller.epollFd.toList ++ p.listenFd.fd.toList).Nodup := by
  cases h with
  | failed e fd used hused hcalls hlisten hpoll =>
    rw [hlisten, hpoll]
    rcases hcalls with hcalls | hcalls
    · rw [hcalls]
      exact ⟨Table.empty, rfl, fun x => by simp [Table.empty], List.nodup_nil⟩
    · have hclose : (only [fd]).apply (.close fd) = .ok _ := Table.apply_close (by simp [only])
      refine ⟨(only [fd]).closed fd, ?_, fun x => ?_, List.nodup_nil⟩
      · rw [hcalls, replay_socket hused]
        exact Table.replay_cons _ hclose
      · by_cases hx : x = fd
        · simp [only, Table.closed, hx]
        · simp [only, Table.closed, hx]
  | listening e fd used hused hcalls hlisten hpoll =>
    have hreplay := replay_socket hused []
    rw [List.append_nil, ← hcalls] at hreplay
    rw [hlisten, hpoll]
    exact ⟨_, hreplay, fun x => by simp [only], List.nodup_singleton fd⟩
  | polling e fd epollFd used hsocket hcreate hused hcalls hlisten hpoll =>
    have hne := hfresh fd epollFd hsocket hcreate
    rw [hcalls, hlisten, hpoll]
    refine ⟨only [epollFd, fd], ?_, fun x => by simp [only], by simp [hne]⟩
    rw [replay_socket hused]
    exact Table.replay_cons _ (apply_epollCreate hne)
  | watching failure fd epollFd used hsocket hcreate hused hcalls hlisten hpoll hlog =>
    have hne := hfresh fd epollFd hsocket hcreate
    rw [hcalls, hlisten, hpoll]
    exact ⟨_, replay_started hused hne, isOpen_initial, by simp [hne]⟩

/-- A server that has started listens and watches its listening socket. -/
theorem Started.ready (h : Started a none p) (hfresh : Fresh a) :
    ∃ fd epollFd, p.listenFd.fd = some fd ∧ p.poller.epollFd = some epollFd ∧ epollFd ≠ fd ∧
      p.log = initializeMetricsLogging a.now ∧
      Table.empty.replay (p.calls.flatMap startCalls) =
        .ok (tableOf epollFd (initializeServer fd)) := by
  cases h with
  | watching _ fd epollFd used hsocket hcreate hused hcalls hlisten hpoll hlog =>
    have hne := hfresh fd epollFd hsocket hcreate
    exact ⟨fd, epollFd, hlisten, hpoll, hne, hlog, hcalls ▸ replay_started hused hne⟩

/-- **All or nothing.**  `Initialize` throws what goes wrong first.  If nothing does, the kernel's
table is that of a fresh server, and whatever has happened, the destructors leave nothing open. -/
theorem startServer_allOrNothing (host : Bytes) (port backlog : Nat) (a : Answers)
    (hfresh : Fresh a) :
    ∃ p, exec (startServer host port backlog a) {} = (raised (startFailure host port a), p) ∧
      (startFailure host port a = none →
        ∃ fd epollFd, p.listenFd.fd = some fd ∧ p.poller.epollFd = some epollFd ∧
          p.log = initializeMetricsLogging a.now ∧
          Table.empty.replay (p.calls.flatMap startCalls) =
            .ok (tableOf epollFd (initializeServer fd))) ∧
      ∃ t, Table.empty.replay ((p.calls ++ p.destructor []).flatMap startCalls) = .ok t ∧
        ∀ x, t.isOpen x = false := by
  obtain ⟨p, hexec, hstarted⟩ := startServer_exec host port backlog a
  refine ⟨p, hexec, fun hnone => ?_, ?_⟩
  · rw [hnone] at hstarted
    obtain ⟨fd, epollFd, hlisten, hpoll, -, hlog, hreplay⟩ := Started.ready hstarted hfresh
    exact ⟨fd, epollFd, hlisten, hpoll, hlog, hreplay⟩
  · obtain ⟨t, hreplay, hopen, hnodup⟩ := Started.owned hstarted hfresh
    obtain ⟨t', hdestroyed, hclosed⟩ := @replay_destructor p [] t hopen hnodup
    refine ⟨t', ?_, hclosed⟩
    rw [List.flatMap_append, Table.replay_append hreplay, hdestroyed]

/-- Startup that fails at its last step. -/
theorem startServer_allOrNothing_full :
    ∃ p, exec (startServer (ascii "0.0.0.0") 8080 128
        { socket := .ok 3, epollCreate := .ok 4, epollAdd := some (.other 28) }) {} =
        (.error (.systemError "epoll_ctl() failed" (.other 28)), p) ∧
      ∃ t, Table.empty.replay ((p.calls ++ p.destructor []).flatMap startCalls) = .ok t ∧
        ∀ x, t.isOpen x = false := by
  obtain ⟨p, hexec, -, hclosed⟩ := startServer_allOrNothing (ascii "0.0.0.0") 8080 128
    { socket := .ok 3, epollCreate := .ok 4, epollAdd := some (.other 28) } (by
      intro fd epollFd hsocket hcreate
      cases hsocket
      cases hcreate
      decide)
  exact ⟨p, hexec, hclosed⟩

/-! ## From the first call to the last -/

/-- What the kernel is asked from `Initialize` to the last destructor, when the loop has ended in
`l` with `sockets` as its connections. -/
def lifeCalls (p : Process) (fd epollFd : Fd) (l : EventLoop) (sockets : List Fd) :
    List KernelCall :=
  p.calls.flatMap startCalls ++ traceCalls epollFd fd l.server.trace ++
    ({ p with poller := l.poller }.destructor sockets).flatMap startCalls

/-- The sockets of the connections, the epoll instance and the listening socket are different. -/
theorem nodup_owned {s : Server} (h : InSync epollFd s) (hne : epollFd ≠ s.listenFd)
    (hnodup : sockets.Nodup) (hsockets : ∀ x, x ∈ sockets ↔ (s.find x).isSome = true) :
    (sockets ++ [epollFd] ++ [s.listenFd]).Nodup := by
  have hepoll : epollFd ∉ sockets := by
    intro hmem
    obtain ⟨c, hf⟩ := Option.isSome_iff_exists.mp ((hsockets epollFd).mp hmem)
    exact (h.sockets epollFd c hf).2 rfl
  have hlisten : s.listenFd ∉ sockets := by
    intro hmem
    rw [hsockets, h.listening] at hmem
    cases hmem
  rw [List.append_assoc, List.nodup_append]
  refine ⟨hnodup, by simp [hne], ?_⟩
  rintro x hx y hy rfl
  simp only [List.singleton_append, List.mem_cons, List.not_mem_nil, or_false] at hy
  rcases hy with rfl | rfl
  · exact hepoll hx
  · exact hlisten hx

/-- **Nothing leaks.**  When `Run` returns, no call from the first of `Initialize` to the last
destructor has been refused, and every descriptor is closed as often as it was opened. -/
theorem descriptors_lifetime {turns : List LoopTurn} {last : MetricsReading} {l : EventLoop}
    (hstart : exec (startServer host port backlog a) {} = (.ok (), p)) (hfresh : Fresh a)
    (hlisten : p.listenFd.fd = some fd) (hpoll : p.poller.epollFd = some epollFd)
    (hrun : (EventLoop.initialized fd epollFd a.now).run turns last = .ok l)
    (hapart : Apart epollFd l.server.trace) (hnodup : sockets.Nodup)
    (hsockets : ∀ x, x ∈ sockets ↔ (l.server.find x).isSome = true) :
    ∃ t, Table.empty.replay (lifeCalls p fd epollFd l sockets) = .ok t ∧
      (∀ x, t.isOpen x = false) ∧
      ∀ x, (lifeCalls p fd epollFd l sockets).countP (Call.opens x) =
        (lifeCalls p fd epollFd l sockets).countP (Call.closes x) := by
  obtain ⟨p', hexec, hstarted⟩ := startServer_exec host port backlog a
  rw [hstart] at hexec
  obtain ⟨hnone, rfl⟩ := Prod.mk.inj hexec
  cases hfailure : startFailure host port a with
  | some e =>
    rw [hfailure] at hnone
    cases hnone
  | none =>
    rw [hfailure] at hstarted
    obtain ⟨fd', epollFd', hlisten', hpoll', hne, -, hbegun⟩ := Started.ready hstarted hfresh
    obtain rfl := Option.some.inj (hlisten.symm.trans hlisten')
    obtain rfl := Option.some.inj (hpoll.symm.trans hpoll')
    obtain ⟨⟨calls, hcalls⟩, hkept⟩ := EventLoop.run_calls hrun
    have hsame : l.server.listenFd = fd := runCalls_listenFd hcalls
    have hsync : InSync epollFd l.server := inSync_of_reachable ⟨fd, calls, hcalls⟩ hapart
    have hserved := hsync.table
    have hdistinct := nodup_owned hsync (hsame ▸ hne) hnodup hsockets
    rw [hsame] at hserved hdistinct
    have howned : sockets ++ ({ p with poller := l.poller } : Process).poller.epollFd.toList ++
        p.listenFd.fd.toList = sockets ++ [epollFd] ++ [fd] := by
      rw [hlisten, hkept]
      rfl
    obtain ⟨t, hended, hclosed⟩ :=
      @replay_destructor { p with poller := l.poller } sockets (tableOf epollFd l.server)
        (fun x => by
          rw [howned]
          simp [tableOf, hsame, hsockets, or_comm])
        (howned ▸ hdistinct)
    have hreplay : Table.empty.replay (lifeCalls p fd epollFd l sockets) = .ok t := by
      unfold lifeCalls
      rw [List.append_assoc, Table.replay_append hbegun, Table.replay_append hserved, hended]
    refine ⟨t, hreplay, hclosed, fun x => ?_⟩
    have hbalance := Table.replay_balance hreplay x
    rw [hclosed x] at hbalance
    exact hbalance

/-- A descriptor of its own for the socket and for the epoll instance. -/
def bootAnswers : Answers := { socket := .ok 3, epollCreate := .ok 4 }

/-- A client that is still connected at the end. -/
def lastClient : List LoopTurn :=
  [{ EventLoop.idleSecond 0 with wait := .reported [({ fd := 3, events := { epollin := true } },
    { accepts := [.accepted 5 (ascii "10.0.0.1:40000"), .failed .eagain] })] }]

def acceptsApart (epollFd : Fd) : Event → Bool
  | .accepted fd _ => fd ≠ epollFd
  | _ => true

theorem exists_run {P : EventLoop → Prop} [DecidablePred P] (turns : List LoopTurn)
    (h : ((EventLoop.initialized 3 4 0).run turns {}).toOption.any (fun l => decide (P l)) = true) :
    ∃ l, (EventLoop.initialized 3 4 0).run turns {} = .ok l ∧ P l := by
  cases hrun : (EventLoop.initialized 3 4 0).run turns {} with
  | error e =>
    rw [hrun] at h
    cases h
  | ok l =>
    rw [hrun] at h
    exact ⟨l, rfl, of_decide_eq_true h⟩

theorem descriptors_lifetime_lastClient : ∃ p l t,
    exec (startServer (ascii "0.0.0.0") 8080 128 bootAnswers) {} = (.ok (), p) ∧
      (EventLoop.initialized 3 4 0).run lastClient {} = .ok l ∧
      Table.empty.replay (lifeCalls p 3 4 l [5]) = .ok t ∧ (∀ x, t.isOpen x = false) ∧
      ∀ x, (lifeCalls p 3 4 l [5]).countP (Call.opens x) =
        (lifeCalls p 3 4 l [5]).countP (Call.closes x) := by
  obtain ⟨l, hrun, hclients, hapart⟩ : ∃ l, (EventLoop.initialized 3 4 0).run lastClient {} = .ok l ∧
      l.server.clients.keys = {5} ∧ ∀ e ∈ l.server.trace, acceptsApart 4 e = true :=
    exists_run lastClient (by decide +kernel)
  have hfresh : Fresh bootAnswers := by
    intro fd epollFd hsocket hcreate
    cases hsocket
    cases hcreate
    decide
  obtain ⟨p, hstart, hlisten, hpoll⟩ :
      ∃ p, exec (startServer (ascii "0.0.0.0") 8080 128 bootAnswers) {} = (.ok (), p) ∧
        p.listenFd.fd = some 3 ∧ p.poller.epollFd = some 4 := ⟨_, rfl, rfl, rfl⟩
  obtain ⟨t, hreplay, hclosed, hbalance⟩ := descriptors_lifetime hstart hfresh hlisten hpoll hrun
    (fun fd peerEndpoint hmem => of_decide_eq_true (hapart _ hmem)) (List.nodup_singleton 5)
    (fun x => by rw [Server.find, Finmap.lookup_isSome, ← Finmap.mem_keys, hclients]; simp)
  exact ⟨p, l, t, hstart, hrun, hreplay, hclosed, hbalance⟩

end WebServer.Properties
