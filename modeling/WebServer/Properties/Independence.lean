import WebServer.Kernel.Locality
import WebServer.Properties.Descriptors

/-!
# Connections do not depend on each other

The events of one `epoll_wait` are handled one after another.  What a client observes does not
depend on the order.
-/

namespace WebServer.Properties

open WebServer.Net WebServer.Http WebServer.Core WebServer.Refine WebServer.Kernel

variable {a b fd : Fd} {mask : EpollEvents} {io : Io} {s s' t : Server}

/-! ## `HandleClientEvent` as a handler call -/

/-- A program that looks its connection up goes on with what is there. -/
theorem findClient_run {α : Type} (k : Option ClientConnection → ServerM α) {r : Round}
    {c? : Option ClientConnection} (hf : r.server.find fd = c?) :
    (findClient fd >>= k) r = k c? r := by
  subst hf
  rfl

/-- Without a connection `HandleClientEvent` does nothing. -/
theorem handleClientEvent_none (hf : s.find fd = none) (mask : EpollEvents) (io : Io) :
    runHandler (handleClientEvent fd mask) io s = .ok s := by
  have hclose : closeClientConnection fd .peerHangup s = s := by
    rw [closeClientConnection, hf]
  have hrun : handleClientEvent fd mask { server := s, io := io } =
      .ok ((), { server := s, io := io }) := by
    unfold handleClientEvent
    split
    · show Except.ok ((), ({ server := closeClientConnection fd .peerHangup s, io := io } : Round)) = _
      rw [hclose]
    · rw [findClient_run _ hf]
      rfl
  rw [runHandler, hrun]
  rfl

/-- On a connection `HandlePollEvent` calls `HandleClientEvent`. -/
theorem runHandler_client (hs : Reachable s) {c : ClientConnection} (hf : s.find fd = some c)
    (mask : EpollEvents) (io : Io) : runHandler (handlePollEvent { fd := fd, events := mask }) io s =
      runHandler (handleClientEvent fd mask) io s := by
  have hrest := tidy_of_reachable hs fd
  have hcalls : handlePollEvent { fd := fd, events := mask } { server := s, io := io } =
      handleClientEvent fd mask { server := s, io := io } := by
    unfold handlePollEvent
    show (if _ then _ else _ : ServerM Unit) _ = _
    rw [if_neg (hrest.ne_listenFd hf), findClient_run _ hf]
    show (if _ then _ else _ : ServerM Unit) _ = _
    rw [if_neg (by simp [(hrest.owns hf).1])]
  rw [runHandler, hcalls, runHandler]

theorem handleClientEvent_returns (hs : Reachable s) (hne : fd ≠ s.listenFd)
    (mask : EpollEvents) (io : Io) : ∃ s', runHandler (handleClientEvent fd mask) io s = .ok s' ∧
      Reachable s' ∧ s'.listenFd = s.listenFd := by
  cases hf : s.find fd with
  | none => exact ⟨s, handleClientEvent_none hf mask io, hs, rfl⟩
  | some c =>
    have hrest := atRest_of_reachable hs
    let event : PollEvent := { fd := fd, events := mask }
    have hne : event.fd ≠ s.listenFd := hne
    obtain ⟨s', hrun, -, -⟩ := clientEvent_returns hrest hne io
    have hcall : runCall (.event event io) s = .ok s' := hrun
    exact ⟨s', (runHandler_client hs hf mask io).symm.trans hrun,
      hs.step (.event event io) hcall, runCall_listenFd hrest hcall⟩

theorem handleClientEvent_reachable (hs : Reachable s) (hne : fd ≠ s.listenFd)
    (hrun : runHandler (handleClientEvent fd mask) io s = .ok s') :
    Reachable s' ∧ s'.listenFd = s.listenFd := by
  obtain ⟨t, ht, hreach, hlisten⟩ := handleClientEvent_returns hs hne mask io
  cases ht.symm.trans hrun
  exact ⟨hreach, hlisten⟩

/-! ## What two handler calls leave -/

/-- The bytes that the run of a handler puts into the buffers, or tries to. -/
def bytesAppended (handler : ServerM Unit) (io : Io) (s : Server) : Nat :=
  match runHandler handler io s with
  | .ok s' => ((s'.trace.drop s.trace.length).map bytesAsked).sum
  | .error _ => 0

theorem bytesAsked_blur (e : Event) : bytesAsked (blur e) = bytesAsked e := by
  cases e <;> rfl

theorem bytesAppended_eq {handler : ServerM Unit} {e : Effect}
    (hrun : runHandler handler io s = .ok s') (hdoes : Does fd e s s') :
    bytesAppended handler io s = e.asked := by
  have hevents : (s'.trace.drop s.trace.length).map blur = e.events := by
    rw [List.map_drop, hdoes.trace, List.drop_left' (List.length_map blur)]
  rw [bytesAppended, hrun, Effect.asked, ← hevents, List.map_map]
  exact congrArg List.sum (List.map_congr_left fun event _ => (bytesAsked_blur event).symm)

/-- The same connections, accounts and masks, and the same entries in the queues. -/
structure SameUpToOrder (s t : Server) : Prop where
  clients : s.clients = t.clients
  inflight : s.globalInflightBytes = t.globalInflightBytes
  metrics : s.metrics = t.metrics
  masks : s.poller = t.poller
  timers : s.timerHeap.Perm t.timerHeap
  ready : s.readyQueue.Perm t.readyQueue
  pending : s.pendingCloseQueue.Perm t.pendingCloseQueue

theorem metrics_ext {m m' : Metrics} (hcounters : ∀ k, counter k m = counter k m')
    (hconns : m.connsCurrent = m'.connsCurrent)
    (hinflight : m.globalInflightBytesCurrent = m'.globalInflightBytesCurrent) : m = m' := by
  cases m
  cases m'
  simp only [Metrics.mk.injEq]
  exact ⟨hcounters .accepts, hcounters .requests, hcounters .rejects, hcounters .errors,
    hcounters .reject411, hcounters .reject413, hcounters .reject429, hcounters .reject431,
    hcounters .reject501, hcounters .reject503, hcounters .connRejects, hcounters .timeoutCloses,
    hconns, hinflight⟩

/-- What reachable servers with the same connections have in common. -/
theorem same_of_find (hs : Reachable s) (ht : Reachable t) (hfind : ∀ fd, s.find fd = t.find fd)
    (hlisten : s.listenFd = t.listenFd)
    (hmask : s.poller.lookup s.listenFd = t.poller.lookup s.listenFd)
    (hcounters : ∀ k, counter k s.metrics = counter k t.metrics)
    (htimers : s.timerHeap.Perm t.timerHeap)
    (hpending : s.pendingCloseQueue.Perm t.pendingCloseQueue) : SameUpToOrder s t := by
  have hrest := atRest_of_reachable hs 0
  have hrest' := atRest_of_reachable ht 0
  have htidy := tidy_of_reachable hs 0
  have htidy' := tidy_of_reachable ht 0
  have hclients : s.clients = t.clients := Finmap.ext_lookup hfind
  have hinflight : s.globalInflightBytes = t.globalInflightBytes := by
    rw [hrest.balance, hrest'.balance, hclients]
  refine ⟨hclients, hinflight, metrics_ext hcounters ?_ ?_, Finmap.ext_lookup fun fd => ?_,
    htimers, ?_, hpending⟩
  · rw [htidy.metric, htidy'.metric, htidy.count, htidy'.count, hclients]
  · rw [hrest.metric, hrest'.metric, hinflight]
  · by_cases hne : fd = s.listenFd
    · rw [hne]
      exact hmask
    · rw [interest_of_reachable hs hne, interest_of_reachable ht (hlisten ▸ hne), hfind]
  · refine (List.perm_ext_iff_of_nodup hrest.nodup hrest'.nodup).mpr fun fd => ?_
    rw [hrest.queued, hrest'.queued, hfind]

/-- **Independence.**  Events of two client sockets can be handled in either order, as long as
the bytes both append stay within the inflight limit. -/
theorem handleClientEvent_comm (hs : Reachable s) (hab : a ≠ b) (ha : a ≠ s.listenFd)
    (hb : b ≠ s.listenFd) (maskA maskB : EpollEvents) (ioA ioB : Io)
    (hroom : s.globalInflightBytes + bytesAppended (handleClientEvent a maskA) ioA s +
      bytesAppended (handleClientEvent b maskB) ioB s ≤ kMaxInflightBytes) :
    ∃ sa sab sb sba, runHandler (handleClientEvent a maskA) ioA s = .ok sa ∧
      runHandler (handleClientEvent b maskB) ioB sa = .ok sab ∧
      runHandler (handleClientEvent b maskB) ioB s = .ok sb ∧
      runHandler (handleClientEvent a maskA) ioA sb = .ok sba ∧ SameUpToOrder sab sba ∧
      ∀ fd, fd ≠ a → fd ≠ b → sa.find fd = s.find fd ∧ sb.find fd = s.find fd ∧
        sab.find fd = s.find fd := by
  obtain ⟨sa, hsa, hreachA, hlistenA⟩ := handleClientEvent_returns hs ha maskA ioA
  obtain ⟨sb, hsb, hreachB, hlistenB⟩ := handleClientEvent_returns hs hb maskB ioB
  obtain ⟨ea, -, hdoesA, hlocalA⟩ := (Steps.handleClientEvent maskA).runHandler hsa
  obtain ⟨eb, -, hdoesB, hlocalB⟩ := (Steps.handleClientEvent maskB).runHandler hsb
  rw [bytesAppended_eq hsa hdoesA, bytesAppended_eq hsb hdoesB] at hroom
  have hinflightA := hdoesA.inflight
  have hinflightB := hdoesB.inflight
  -- each call does on the server the other one leaves what it does on `s`
  obtain ⟨sab, hsab, hfindB, hdoesAB⟩ := hlocalB (by unfold Room; omega) sa
    (hdoesA.others b hab.symm).symm (by unfold Room; omega)
  obtain ⟨sba, hsba, hfindA, hdoesBA⟩ := hlocalA (by unfold Room; omega) sb
    (hdoesB.others a hab).symm (by unfold Room; omega)
  obtain ⟨hreachAB, hlistenAB⟩ := handleClientEvent_reachable hreachA (hlistenA ▸ hb) hsab
  obtain ⟨hreachBA, hlistenBA⟩ := handleClientEvent_reachable hreachB (hlistenB ▸ ha) hsba
  have hthird (fd : Fd) (hfa : fd ≠ a) (hfb : fd ≠ b) :
      sa.find fd = s.find fd ∧ sb.find fd = s.find fd ∧ sab.find fd = s.find fd :=
    ⟨hdoesA.others fd hfa, hdoesB.others fd hfb,
      (hdoesAB.others fd hfb).trans (hdoesA.others fd hfa)⟩
  have hlisten : sab.listenFd = s.listenFd := hlistenAB.trans hlistenA
  refine ⟨sa, sab, sb, sba, hsa, hsab, hsb, hsba, ?_, hthird⟩
  refine same_of_find hreachAB hreachBA (fun fd => ?_) ?_ ?_ (fun k => ?_) ?_ ?_
  · by_cases hfa : fd = a
    · rw [hfa, hdoesAB.others a hab, hfindA]
    · by_cases hfb : fd = b
      · rw [hfb, ← hfindB, hdoesBA.others b hab.symm]
      · rw [(hthird fd hfa hfb).2.2, hdoesBA.others fd hfa, hdoesB.others fd hfb]
  · rw [hlisten, hlistenBA, hlistenB]
  · rw [hlisten, hdoesAB.poller _ hb.symm, hdoesA.poller _ ha.symm, hdoesBA.poller _ ha.symm,
      hdoesB.poller _ hb.symm]
  · rw [hdoesAB.counts, hdoesA.counts, hdoesBA.counts, hdoesB.counts, Nat.add_right_comm]
  · rw [hdoesAB.heap, hdoesA.heap, hdoesBA.heap, hdoesB.heap, List.append_assoc, List.append_assoc]
    exact List.perm_append_comm.append_left _
  · rw [hdoesAB.retired, hdoesA.retired, hdoesBA.retired, hdoesB.retired, List.append_assoc,
      List.append_assoc]
    exact List.perm_append_comm.append_left _

/-- Two clients that have sent nothing yet. -/
def twoPeers : SampleRun fun s => (s.find 5).isSome = true ∧ (s.find 6).isSome = true where
  iterations := [accepting 3 5 0, accepting 3 6 1]
  holds := by decide +kernel

/-- What one client sends while the other one hangs up. -/
def sentRequest : Io where
  now := 2
  reads := [.got (ascii "GET / HTTP/1.1\r\n\r\n")]
  writes := [.wrote 10]

theorem handleClientEvent_comm_twoPeers : (twoPeers.final.find 5).isSome = true ∧
    ∃ sa sab sb sba,
      runHandler (handleClientEvent 5 { epollin := true }) sentRequest twoPeers.final = .ok sa ∧
      runHandler (handleClientEvent 6 { epollrdhup := true }) {} sa = .ok sab ∧
      runHandler (handleClientEvent 6 { epollrdhup := true }) {} twoPeers.final = .ok sb ∧
      runHandler (handleClientEvent 5 { epollin := true }) sentRequest sb = .ok sba ∧
      SameUpToOrder sab sba := by
  have hroom : twoPeers.final.globalInflightBytes +
      bytesAppended (handleClientEvent 5 { epollin := true }) sentRequest twoPeers.final +
      bytesAppended (handleClientEvent 6 { epollrdhup := true }) {} twoPeers.final ≤
        kMaxInflightBytes := by decide +kernel
  obtain ⟨sa, sab, sb, sba, hsa, hsab, hsb, hsba, hsame, -⟩ :=
    handleClientEvent_comm twoPeers.reachable (by decide : (5 : Fd) ≠ 6) (by decide +kernel)
      (by decide +kernel) { epollin := true } { epollrdhup := true } sentRequest {} hroom
  exact ⟨twoPeers.holds_final.1, sa, sab, sb, sba, hsa, hsab, hsb, hsba, hsame⟩

end WebServer.Properties
