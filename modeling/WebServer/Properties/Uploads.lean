import WebServer.Properties.Timeouts

/-!
# The state of an upload

Five fields of a connection say that a body is on its way.  Between two handler calls they
agree, and the body timer still has the deadline it got when the header was complete.
-/

namespace WebServer.Properties

open WebServer.Net WebServer.Http WebServer.Core WebServer.Life WebServer.Refine

variable {fd : Fd} {c : ClientConnection} {n : TimerEntry} {s : Server}

/-- A node of the heap that the body timer of the connection has not left behind. -/
structure LiveBodyNode (fd : Fd) (c : ClientConnection) (s : Server) (n : TimerEntry) : Prop where
  mem : n ∈ s.timerHeap
  fd_eq : n.fd = fd
  id_eq : n.connectionId = c.connectionId
  kind_eq : n.kind = .kBody
  generation_eq : n.generation = (c.timeout .kBody).generation

/-- What the fields of the body phase say about each other. -/
structure BodyState (fd : Fd) (c : ClientConnection) (s : Server) : Prop where
  timer : c.waitingForRequestBody = true ↔ (c.timeout .kBody).armed = true
  counter : c.waitingForRequestBody = true ↔ 0 < c.pendingBodyBytesRemaining
  drained : c.waitingForRequestBody = true → c.inputBuffer.storage = []
  counters : BodyCounters c
  /-- The live node is there, and has the deadline computed at the end of the header. -/
  deadline : c.waitingForRequestBody = true →
    ∃ now, BodyBegan (history c.connectionId s.trace) c.pendingRequest now ∧
      (∃ n, LiveBodyNode fd c s n) ∧ ∀ n, LiveBodyNode fd c s n →
        n.deadline = calculateBodyReceiveDeadline now c.pendingRequest.contentLength

/-- The nodes of the connection in the heap are those of its run. -/
theorem LiveBodyNode.mem_nodesOf (h : LiveBodyNode fd c s n) :
    n ∈ nodesOf c.connectionId s.timerHeap :=
  List.mem_filter.mpr ⟨h.mem, decide_eq_true h.id_eq⟩

theorem exists_liveBodyNode
    (hrun : Run fd c.connectionId .rest c (history c.connectionId s.trace)
      (nodesOf c.connectionId s.timerHeap)) (harmed : (c.timeout .kBody).armed = true) :
    ∃ n, LiveBodyNode fd c s n := by
  obtain ⟨n, hn, hkind, -, hgen⟩ := hrun.timersInOrder.armed .kBody harmed
  obtain ⟨hfd, hid⟩ := hrun.timersInOrder.owner n hn
  exact ⟨n, List.mem_of_mem_filter hn, hfd, hid, hkind, by rw [← hgen, hkind]⟩

theorem LiveBodyNode.deadline_eq (h : LiveBodyNode fd c s n)
    (hrun : Run fd c.connectionId .rest c (history c.connectionId s.trace)
      (nodesOf c.connectionId s.timerHeap)) {now : Time}
    (hbegan : BodyBegan (history c.connectionId s.trace) c.pendingRequest now) :
    n.deadline = calculateBodyReceiveDeadline now c.pendingRequest.contentLength := by
  have hgen : n.generation = (c.timeout n.kind).generation := by
    rw [h.kind_eq]
    exact h.generation_eq
  obtain ⟨-, armedAt, hlast⟩ := hrun.timersInOrder.exact n h.mem_nodesOf hgen
  rw [h.kind_eq, hbegan.lastArming] at hlast
  exact (Prod.mk.inj (Option.some.inj hlast)).2.symm

/-- **The body phase.**  In every reachable state the fields of every connection agree about
whether a body is on its way. -/
theorem bodyState_of_reachable (hs : Reachable s) (hf : s.find fd = some c) : BodyState fd c s := by
  have hrun := run_of_reachable hs hf
  have hphase := hrun.bodyPhase
  have hcounters := hrun.bodyCounters
  have hconsumed (hw : c.waitingForRequestBody = true) :=
    (hphase.consumed hw).resolve_left Bool.false_ne_true
  refine ⟨by rw [hphase.timer], ⟨fun hw => (hconsumed hw).2, fun hpos => ?_⟩,
    fun hw => (hconsumed hw).1, hcounters, fun hw => ?_⟩
  · by_contra hnot
    have hzero := (hcounters.done (Bool.eq_false_iff.mpr hnot)).1
    omega
  · obtain ⟨now, hbegan⟩ := hrun.bodyBegan hw
    refine ⟨now, hbegan, exists_liveBodyNode hrun (hphase.timer.trans hw), fun n hn => ?_⟩
    exact hn.deadline_eq hrun hbegan

/-- It does so in the middle of an upload. -/
theorem bodyState_of_reachable_uploadBegun :
    (connectionAt uploadBegun.final 5).waitingForRequestBody = true ∧
      BodyState 5 (connectionAt uploadBegun.final 5) uploadBegun.final := by
  obtain ⟨hopen, hwaits, -⟩ := uploadBegun.holds_final
  exact ⟨hwaits, bodyState_of_reachable uploadBegun.reachable (find_connectionAt hopen)⟩

end WebServer.Properties
