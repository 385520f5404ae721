import WebServer.Refine.ReadyQueue

/-!
# The ReadyQueue

The queue is in step with the connections, and one `ProcessReadyQueue` handles it from its
front to where its end was.
-/

namespace WebServer.Properties

open WebServer.Net WebServer.Http WebServer.Core WebServer.Life WebServer.Refine

variable {s : Server}

/-- One turn of `ProcessReadyQueue` on the state `t`: the front is `fd`, which is registered,
and behind it come the rest of the `queue` and then what earlier turns have enqueued. -/
structure TurnOf (fd : Fd) (queue : List Fd) (io : Io) (t : Server) : Prop where
  queue : ∃ late, t.readyQueue = fd :: (queue ++ late)
  handled : ∃ c, t.find fd = some c ∧ c.closing = false ∧ readyTurn io t =
    runHandler (continueReadyConnection fd) io (dequeued fd t.readyQueue.tail c t)

theorem turnOf_of_afterTurns {i : Nat} {t : Server} (ht : AfterTurns s i t)
    (hi : i < s.readyQueue.length) (io : Io) :
    TurnOf s.readyQueue[i] (s.readyQueue.drop (i + 1)) io t := by
  obtain ⟨late, hqueue, -⟩ := ht.queue
  rw [List.drop_eq_getElem_cons hi, List.cons_append] at hqueue
  obtain ⟨c, hf, -⟩ := ht.atRest.front hqueue
  refine ⟨⟨late, hqueue⟩, c, hf, ((ht.atRest _).run hf).closing, ?_⟩
  rw [readyTurn_eq ht.atRest io hqueue hf, hqueue, List.tail_cons]

/-- **Integrity of the ReadyQueue.**  No descriptor is in it twice, and it holds those of the
connections that are marked.  `ProcessReadyQueue` therefore returns: it takes as many turns as
there are descriptors, one for each in their order, and what is in the queue at the end was put
there by these turns. -/
theorem readyQueue_integrity (hs : Reachable s) :
    s.readyQueue.Nodup ∧
      (∀ fd, fd ∈ s.readyQueue ↔
        ∃ c, s.find fd = some c ∧ c.closing = false ∧ c.inReadyQueue = true) ∧
      ∀ ios, ∃ s', processReadyQueue ios s = .ok s' ∧
        s'.readyQueue.Sublist s.readyQueue ∧
        ∀ i (hi : i < s.readyQueue.length), ∃ t, readyLoop i ios s = .ok t ∧
          TurnOf s.readyQueue[i] (s.readyQueue.drop (i + 1)) ((ios.drop i).headD {}) t ∧
          readyLoop (s.readyQueue.length - i) (ios.drop i) t = .ok s' := by
  have h := atRest_of_reachable hs
  refine ⟨(h 0).nodup, fun fd => ?_, fun ios => ?_⟩
  · rw [(h 0).queued fd]
    refine exists_congr fun c => and_congr_right fun hf => ?_
    simp [((h fd).run hf).closing]
  · obtain ⟨s', e, ht⟩ := readyLoop_spec s.readyQueue.length ios h (Nat.le_refl _)
    refine ⟨s', e, ?_, fun i hi => ?_⟩
    · obtain ⟨late, hqueue, hlate⟩ := ht.queue
      rw [List.drop_length, List.nil_append] at hqueue
      rwa [hqueue, ← List.take_length (l := s.readyQueue)]
    · obtain ⟨t, ei, hti⟩ := readyLoop_spec i ios h (Nat.le_of_lt hi)
      refine ⟨t, ei, turnOf_of_afterTurns hti hi _, ?_⟩
      have hsplit : s.readyQueue.length = i + (s.readyQueue.length - i) := by omega
      rw [hsplit, readyLoop_add, ei] at e
      exact e

/-- Two connections with more requests in their buffers than one round answers. -/
def twoQueued : SampleRun fun s => s.readyQueue = [5, 6] where
  iterations :=
    let requests : Bytes := (List.replicate 6 (ascii "GET / HTTP/1.1\r\n\r\n")).flatten
    let answers : List WriteResult := List.replicate 5 (.wrote 200)
    [accepting 3 5 0, accepting 3 6 1,
      { events := (reading 5 2 [.got requests] answers).events ++
          (reading 6 3 [.got requests] answers).events }]
  holds := by decide +kernel

/-- Both get their turn. -/
theorem readyQueue_integrity_twoQueued :
    twoQueued.final.readyQueue.Nodup ∧ ∃ s', processReadyQueue [{}, {}] twoQueued.final = .ok s' := by
  obtain ⟨hnodup, -, hreturns⟩ := readyQueue_integrity twoQueued.reachable
  obtain ⟨s', e, -⟩ := hreturns [{}, {}]
  exact ⟨hnodup, s', e⟩

end WebServer.Properties
