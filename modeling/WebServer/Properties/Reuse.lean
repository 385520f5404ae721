import WebServer.Properties.Descriptors

/-!
# Descriptors that are used again

An event and an element of the ReadyQueue carry a descriptor and nothing else.  Neither
reaches another connection than the one it was meant for, also when descriptors are closed
and given out again in between.
-/

namespace WebServer.Properties

open WebServer.Net WebServer.Http WebServer.Core WebServer.Life WebServer.Refine

variable {fd : Fd} {id : Nat} {c c' : ClientConnection} {call : Call} {s s' t : Server}

/-! ## Events of one batch -/

/-- Events of other descriptors do not touch a registered connection. -/
theorem dispatchEvents_other (events : List (PollEvent × Io)) (h : AtRest s)
    (hother : fd ∉ events.map (·.1.fd)) (hf : s.find fd = some c)
    (hrun : dispatchEvents events s = .ok t) : AtRest t ∧ t.find fd = some c := by
  induction events generalizing s with
  | nil =>
    cases hrun
    exact ⟨h, hf⟩
  | cons e events ih =>
    rw [List.map_cons, List.mem_cons, not_or] at hother
    change (runHandler (handlePollEvent e.1) e.2 s >>= dispatchEvents events) = _ at hrun
    by_cases hlisten : e.1.fd = s.listenFd
    · rcases listenEvent_returns h hlisten e.2 with ⟨s₁, e₁, h₁, hadmits⟩ | ⟨errno, he⟩
      · rw [e₁] at hrun
        exact ih h₁ hother.2 (hadmits.kept fd c hf) hrun
      · rw [he] at hrun
        cases hrun
    · obtain ⟨s₁, e₁, h₁, hsince⟩ := clientEvent_returns h hlisten e.2
      rw [e₁] at hrun
      exact ih h₁ hother.2 ((hsince.others fd hother.1).trans hf) hrun

/-- What epoll watches is registered, but for the listening socket. -/
theorem find_of_watched (hs : Reachable s) (hne : fd ≠ s.listenFd) (hwatched : fd ∈ s.poller) :
    ∃ c, s.find fd = some c := by
  obtain ⟨events, hevents⟩ := Finmap.mem_iff.mp hwatched
  rw [interest_of_reachable hs hne] at hevents
  cases hf : s.find fd with
  | none =>
    rw [hf] at hevents
    cases hevents
  | some c => exact ⟨c, rfl⟩

/-! ## Elements of the ReadyQueue -/

/-- The element `fd` of the ReadyQueue of the server was put there in a handler call that found
the connection `id` on `fd`. -/
inductive EnqueuedBy (fd : Fd) (id : Nat) : Server → Prop
  | enqueued {s s' : Server} {call : Call} {c : ClientConnection} (hs : Reachable s)
    (hcall : runCall call s = .ok s')
    (hout : fd ∉ s.readyQueue ∨ Pops fd call s) (hin : fd ∈ s'.readyQueue)
    (hf : s.find fd = some c) (hid : c.connectionId = id) : EnqueuedBy fd id s'
  | stays {s s' : Server} {call : Call} (h : EnqueuedBy fd id s) (hcall : runCall call s = .ok s')
    (hpop : ¬ Pops fd call s) (hin : fd ∈ s'.readyQueue) : EnqueuedBy fd id s'

/-- A connection in the ReadyQueue after a handler call was registered before. -/
theorem find_of_queued (h : AtRest s) (hcall : runCall call s = .ok s') (hin : fd ∈ s'.readyQueue)
    (hf' : s'.find fd = some c') : ∃ c, s.find fd = some c ∧ c'.connectionId = c.connectionId := by
  obtain ⟨h', hcalled⟩ := runCall_called h hcall
  cases hf : s.find fd with
  | some c => exact ⟨c, rfl, hcalled.connectionId hf hf'⟩
  | none =>
    obtain ⟨peerEndpoint, id, -, rfl⟩ := hcalled.fresh fd c' hf hf'
    obtain ⟨d, hd, hq⟩ := ((h' fd).queued fd).mp hin
    rw [hf'] at hd
    cases hd
    cases hq

theorem enqueuedBy_of_reachable (hs : Reachable s) (hin : fd ∈ s.readyQueue)
    (hf : s.find fd = some c) : EnqueuedBy fd c.connectionId s := by
  revert fd c
  have hboth : Reachable s ∧
      ∀ {fd c}, fd ∈ s.readyQueue → s.find fd = some c → EnqueuedBy fd c.connectionId s := by
    refine Reachable.induct (P := fun s => Reachable s ∧ ∀ {fd c}, fd ∈ s.readyQueue →
      s.find fd = some c → EnqueuedBy fd c.connectionId s) (fun listenFd => ?_) ?_ hs
    · refine ⟨⟨listenFd, [], rfl⟩, fun hin => ?_⟩
      cases hin
    · intro s s' call ⟨hs, ih⟩ hcall
      refine ⟨hs.step call hcall, fun {fd c'} hin hf' => ?_⟩
      obtain ⟨c, hf, hid⟩ := find_of_queued (atRest_of_reachable hs) hcall hin hf'
      by_cases hstays : fd ∈ s.readyQueue ∧ ¬ Pops fd call s
      · rw [hid]
        exact .stays (ih hstays.1 hf) hcall hstays.2 hin
      · have hout : fd ∉ s.readyQueue ∨ Pops fd call s := by
          by_cases hmem : fd ∈ s.readyQueue
          · exact .inr (not_not.mp fun hpop => hstays ⟨hmem, hpop⟩)
          · exact .inl hmem
        exact .enqueued hs hcall hout hin hf hid.symm
  exact fun fd c hin hf => hboth.2 hin hf

namespace EnqueuedBy

theorem reachable (h : EnqueuedBy fd id s) : Reachable s := by
  induction h with
  | enqueued hs hcall => exact hs.step _ hcall
  | stays _ hcall _ _ ih => exact ih.step _ hcall

/-- Whatever has happened since, the connection is still the one that enqueued itself. -/
theorem connectionId (h : EnqueuedBy fd id s) (hf : s.find fd = some c) : c.connectionId = id := by
  induction h generalizing c with
  | enqueued hs hcall _ hin hf' hid =>
    obtain ⟨d, hd, hdid⟩ := find_of_queued (atRest_of_reachable hs) hcall hin hf
    rw [hf'] at hd
    cases hd
    exact hdid.trans hid
  | stays h hcall _ hin ih =>
    obtain ⟨d, hd, hdid⟩ := find_of_queued (atRest_of_reachable h.reachable) hcall hin hf
    exact hdid.trans (ih hd)

end EnqueuedBy

/-! ## Nothing reaches a wrong connection -/

/-- **Descriptor reuse.**  When epoll reports watched descriptors, each at most once, an event
of a batch finds the connection that was registered when the batch was reported, and none of the
events before it has touched that connection.  And the connection that `ProcessReadyQueue` takes
from the queue is the one that was enqueued. -/
theorem descriptor_reuse (hs : Reachable s) :
    (∀ pre event io post t, (∀ e ∈ pre ++ (event, io) :: post, e.1.fd ∈ s.poller) →
      ((pre ++ (event, io) :: post).map (·.1.fd)).Nodup → event.fd ≠ s.listenFd →
      dispatchEvents pre s = .ok t →
        ∃ c, s.find event.fd = some c ∧ t.find event.fd = some c ∧
          ∀ t' c', runHandler (handlePollEvent event) io t = .ok t' →
            t'.find event.fd = some c' → c'.connectionId = c.connectionId) ∧
      ∀ fd queue, s.readyQueue = fd :: queue →
        ∃ c, s.find fd = some c ∧ (∀ id, EnqueuedBy fd id s ↔ c.connectionId = id) ∧
          ∀ io, readyTurn io s = runHandler (continueReadyConnection fd) io (dequeued fd queue c s) := by
  have h := atRest_of_reachable hs
  refine ⟨fun pre event io post t hwatched honce hclient hpre => ?_, fun fd queue hqueue => ?_⟩
  · obtain ⟨c, hf⟩ := find_of_watched hs hclient (hwatched (event, io) (by simp))
    have hother : event.fd ∉ pre.map (·.1.fd) := by
      rw [List.map_append, List.map_cons, List.nodup_append] at honce
      exact fun hmem => honce.2.2 _ hmem _ List.mem_cons_self rfl
    obtain ⟨ht, hf'⟩ := dispatchEvents_other pre h hother hf hpre
    refine ⟨c, hf, hf', fun t' c' hcall hc' => ?_⟩
    have hevent : runCall (.event event io) t = .ok t' := hcall
    exact (runCall_called ht hevent).2.connectionId hf' hc'
  · obtain ⟨c, hf, -⟩ := h.front hqueue
    refine ⟨c, hf, fun id => ⟨fun henq => henq.connectionId hf, ?_⟩, fun io =>
      readyTurn_eq h io hqueue hf⟩
    rintro rfl
    exact enqueuedBy_of_reachable hs (hqueue ▸ List.mem_cons_self) hf

/-- Two clients, of which the second has more requests in its buffer than one round answers. -/
def oneQueued : SampleRun fun s =>
    s.readyQueue = [6] ∧ s.listenFd = 3 ∧ s.poller.keys = {3, 5, 6} where
  iterations :=
    let requests : Bytes := (List.replicate 6 (ascii "GET / HTTP/1.1\r\n\r\n")).flatten
    [accepting 3 5 0, accepting 3 6 1, reading 6 2 [.got requests] (List.replicate 5 (.wrote 200))]
  holds := by decide +kernel

/-- The second client is readable. -/
def readable : PollEvent := { fd := 6, events := { epollin := true } }

/-- The first client hangs up and its descriptor goes to a third one. -/
def hangupAndAccept : List (PollEvent × Io) :=
  [({ fd := 5, events := { epollrdhup := true } }, { now := 3 }),
    ({ fd := 3, events := { epollin := true } },
      { now := 4, accepts := [.accepted 5 (ascii "10.0.0.2:40000")] })]

/-- The event of the second client behind them finds the second client. -/
theorem descriptor_reuse_oneQueued : ∃ t, dispatchEvents hangupAndAccept oneQueued.final = .ok t ∧
    ∃ c, oneQueued.final.find 6 = some c ∧ t.find 6 = some c := by
  have hfound (s t : Server) (hs : Reachable s) (hlisten : s.listenFd = 3)
      (hkeys : s.poller.keys = {3, 5, 6}) (hpre : dispatchEvents hangupAndAccept s = .ok t) :
      ∃ c, s.find 6 = some c ∧ t.find 6 = some c := by
    have hwatched : ∀ e ∈ hangupAndAccept ++ [(readable, ({} : Io))], e.1.fd ∈ s.poller := by
      intro e he
      rw [← Finmap.mem_keys, hkeys]
      revert e
      decide
    have hclient : readable.fd ≠ s.listenFd := by
      rw [hlisten]
      decide
    obtain ⟨c, hf, hf', -⟩ := (descriptor_reuse hs).1 hangupAndAccept readable {} [] t hwatched
      (by decide) hclient hpre
    exact ⟨c, hf, hf'⟩
  obtain ⟨-, hlisten, hkeys⟩ := oneQueued.holds_final
  have hreturns : (dispatchEvents hangupAndAccept oneQueued.final).toOption.isSome = true := by
    decide +kernel
  cases hpre : dispatchEvents hangupAndAccept oneQueued.final with
  | error e =>
    rw [hpre] at hreturns
    cases hreturns
  | ok t => exact ⟨t, rfl, hfound _ t oneQueued.reachable hlisten hkeys hpre⟩

end WebServer.Properties
