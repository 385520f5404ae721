import WebServer.Kernel.Runs

/-!
# Tables, counters and descriptors

The connection table agrees with the counters and with epoll, and the system calls on
every descriptor follow the life of its sockets.
-/

namespace WebServer.Properties

open WebServer.Net WebServer.Core WebServer.Refine WebServer.Kernel

variable {s : Server} {fd : Fd}

/-- Of a registered or free descriptor: what epoll watches. -/
theorem interest_of_reachable (hs : Reachable s) (hne : fd ≠ s.listenFd) :
    s.poller.lookup fd = (s.find fd).map fun c =>
      { epollin := true, epollrdhup := true, epollout := c.outputBuffer ≠ [] } := by
  have h := (tidy_of_reachable hs fd).here hne
  cases hf : s.find fd with
  | none =>
    rw [hf] at h
    exact h.1
  | some c =>
    rw [hf] at h
    obtain ⟨-, ⟨out, hevents, rfl⟩, -⟩ := h
    exact hevents

/-- **Consistency.**  Between two handler calls every entry of `clients_` is open and owns its
descriptor, the counters count the entries, the ids tell them apart, epoll watches exactly their
descriptors, and what waits to be destroyed holds nothing. -/
theorem tables_consistent (hs : Reachable s) :
    (∀ fd c, s.find fd = some c → c.closing = false ∧ c.socket = some fd) ∧
      s.activeConnectionCount = s.clients.keys.card ∧
      s.metrics.connsCurrent = s.clients.keys.card ∧
      s.clients.keys.card ≤ 200000 ∧
      (∀ fd₁ c₁ fd₂ c₂, s.find fd₁ = some c₁ → s.find fd₂ = some c₂ →
        c₁.connectionId = c₂.connectionId → fd₁ = fd₂) ∧
      (∀ fd c, s.find fd = some c → c.connectionId < s.nextConnectionId) ∧
      s.find s.listenFd = none ∧
      (∀ fd, fd ≠ s.listenFd → s.poller.lookup fd = (s.find fd).map fun c =>
        { epollin := true, epollrdhup := true, epollout := c.outputBuffer ≠ [] }) ∧
      ∀ c ∈ s.pendingCloseQueue, c.socket = none ∧ c.inputBuffer.storage = [] ∧
        c.outputBuffer = [] ∧ ∀ kind, (c.timeout kind).armed = false := by
  have h := tidy_of_reachable hs
  have hrest := atRest_of_reachable hs 0
  refine ⟨fun fd c hf => (h fd).owns hf, (h 0).count, (h 0).metric.trans (h 0).count, ?_,
    hrest.distinct, hrest.ids, (h 0).listening, fun fd hne => interest_of_reachable hs hne,
    (h 0).retired⟩
  rw [← (h 0).count]
  exact (h 0).limit

/-- One client that does not take its whole response, and one that has hung up. -/
def twoClients : SampleRun fun s =>
    (s.find 5).isSome = true ∧ (connectionAt s 5).outputBuffer ≠ [] ∧
      (s.find 6).isSome = false where
  iterations :=
    [accepting 3 5 0, accepting 3 6 1,
      reading 5 2 [.got (ascii "GET / HTTP/1.1\r\n\r\n")] [.wrote 10],
      { events := [({ fd := 6, events := { epollrdhup := true } }, { now := 3 })] }]
  holds := by decide +kernel

theorem tables_consistent_twoClients :
    (connectionAt twoClients.final 5).outputBuffer ≠ [] ∧
      twoClients.final.metrics.connsCurrent = twoClients.final.clients.keys.card := by
  obtain ⟨-, hout, -⟩ := twoClients.holds_final
  exact ⟨hout, (tables_consistent twoClients.reachable).2.2.1⟩

/-- **System calls follow the life of the socket.**  The calls on a descriptor are whole lives
one after another (a rejected socket: writes and a close; a registered one: `ADD`, work, `DEL` and
a close), and after them, while a connection is registered, the beginning of its life. -/
theorem syscalls_lives (hs : Reachable s) (hne : fd ≠ s.listenFd) :
    ∃ (lives : List (List Syscall)) (last : List Syscall),
      syscalls fd s.trace = lives.flatten ++ last ∧ (∀ life ∈ lives, Finished life) ∧
        match s.find fd with
        | none => last = []
        | some _ => Registered last := by
  have h := (tidy_of_reachable hs fd).here hne
  cases hf : s.find fd with
  | none =>
    rw [hf] at h
    obtain ⟨-, lives, last, hcalls, hlives, hlast⟩ := h
    exact ⟨lives, last, hcalls, hlives, hlast⟩
  | some c =>
    rw [hf] at h
    obtain ⟨-, -, lives, last, hcalls, hlives, hlast⟩ := h
    exact ⟨lives, last, hcalls, hlives, hlast⟩

/-- The client that hung up was closed once, after it was taken out of epoll. -/
theorem syscalls_lives_twoClients :
    syscalls 6 twoClients.final.trace = [.accept, .epoll .add, .epoll .del, .close] ∧
      ∃ (lives : List (List Syscall)) (last : List Syscall),
        syscalls 6 twoClients.final.trace = lives.flatten ++ last ∧ ∀ life ∈ lives, Finished life := by
  refine ⟨by decide +kernel, ?_⟩
  have hne : 6 ≠ twoClients.final.listenFd := by decide +kernel
  obtain ⟨lives, last, hcalls, hlives, -⟩ := syscalls_lives twoClients.reachable hne
  exact ⟨lives, last, hcalls, hlives⟩

end WebServer.Properties
