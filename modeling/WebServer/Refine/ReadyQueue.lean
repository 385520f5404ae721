import WebServer.Refine.Reachable

/-!
# One call of `ProcessReadyQueue`

The number of turns is fixed before the first turn, while handlers put descriptors into the
queue and take them out.  A handler only moves its own descriptor, and that is out of the
queue when it begins; so the queue has an element for every turn.
-/

namespace WebServer.Refine

open WebServer.Net WebServer.Http WebServer.Core WebServer.Life

variable {fd : Fd} {c : ClientConnection} {s s' : Server}

/-- Behind a handler of `fd` the queue is what it was, with `fd` at its end or not. -/
theorem Requeued.late {queue q : List Fd} (h : Requeued fd queue q) (hfd : fd ∉ queue)
    (hnodup : q.Nodup) : ∃ late, q = queue ++ late ∧ late.Sublist [fd] := by
  have hpurged : queue.filter (· ≠ fd) = queue :=
    List.filter_eq_self.mpr fun x hx => decide_eq_true fun e => hfd (e ▸ hx)
  have hone {n : Nat} (hn : (queue ++ List.replicate n fd).Nodup) :
      (List.replicate n fd).Sublist [fd] := by
    have hle : n ≤ 1 := List.nodup_replicate.mp (List.nodup_append.mp hn).2.1
    exact (List.replicate_sublist_replicate fd).mpr hle
  cases h with
  | kept n => exact ⟨_, rfl, hone hnodup⟩
  | purged n =>
    rw [hpurged] at hnodup ⊢
    exact ⟨_, rfl, hone hnodup⟩

/-- A handler of `fd` that finds it in the queue does not make the queue longer. -/
theorem Requeued.length_le {queue q : List Fd} (h : Requeued fd queue q) (hfd : fd ∈ queue)
    (hnodup : q.Nodup) : q.length ≤ queue.length := by
  cases h with
  | kept n =>
    cases n with
    | zero => simp
    | succ n => exact absurd rfl ((List.nodup_append.mp hnodup).2.2 fd hfd fd (by simp))
  | purged n =>
    have hone : n ≤ 1 := List.nodup_replicate.mp (List.nodup_append.mp hnodup).2.1
    have hshorter : (queue.filter (· ≠ fd)).length < queue.length :=
      List.length_filter_lt_length_iff_exists.mpr ⟨fd, hfd, by simp⟩
    rw [List.length_append, List.length_replicate]
    omega

/-- One turn handles the front of the queue, and leaves the others alone. -/
theorem readyTurn_spec {queue : List Fd} (h : AtRest s) (io : Io)
    (hqueue : s.readyQueue = fd :: queue) :
    ∃ s' late, readyTurn io s = .ok s' ∧ AtRest s' ∧ s'.readyQueue = queue ++ late ∧
      late.Sublist [fd] ∧ ∀ fd', fd' ≠ fd → s'.find fd' = s.find fd' := by
  obtain ⟨c, s', hf, e, h', hsince⟩ := readyTurn_returns h io hqueue
  have hfd : fd ∉ queue := (List.nodup_cons.mp (hqueue ▸ (h fd).nodup)).1
  obtain ⟨late, hlate, hsub⟩ := hsince.queue.late hfd (h' fd).nodup
  exact ⟨s', late, e, h', hlate, hsub, fun fd' hne =>
    (hsince.others fd' hne).trans (Finmap.lookup_insert_of_ne _ hne)⟩

/-- The server `s'` after `i` turns: the queue has lost its first `i` elements, some of which
have come back at its end, and no other connection has changed. -/
structure AfterTurns (s : Server) (i : Nat) (s' : Server) : Prop where
  atRest : AtRest s'
  queue : ∃ late, s'.readyQueue = s.readyQueue.drop i ++ late ∧
    late.Sublist (s.readyQueue.take i)
  others : ∀ fd, fd ∉ s.readyQueue.take i → s'.find fd = s.find fd

theorem readyLoop_spec (i : Nat) (ios : List Io) (h : AtRest s) (hi : i ≤ s.readyQueue.length) :
    ∃ s', readyLoop i ios s = .ok s' ∧ AfterTurns s i s' := by
  induction i generalizing ios s with
  | zero => exact ⟨s, rfl, h, ⟨[], by simp, .refl _⟩, fun _ _ => rfl⟩
  | succ i ih =>
    cases hqueue : s.readyQueue with
    | nil =>
      rw [hqueue] at hi
      cases hi
    | cons fd queue =>
      obtain ⟨s₁, late₁, e, h₁, hq₁, hlate₁, hothers₁⟩ := readyTurn_spec h (ios.headD {}) hqueue
      have hi : i ≤ queue.length := by
        rw [hqueue, List.length_cons] at hi
        omega
      obtain ⟨s', e', h', ⟨late, hq, hlate⟩, hothers⟩ := ih ios.tail h₁ (by
        rw [hq₁, List.length_append]
        omega)
      rw [hq₁, List.drop_append_of_le_length hi] at hq
      rw [hq₁, List.take_append_of_le_length hi] at hlate hothers
      refine ⟨s', ?_, h', ⟨late₁ ++ late, ?_, ?_⟩, fun fd' hfd' => ?_⟩
      · rw [readyLoop, e]
        exact e'
      · rw [hqueue, List.drop_succ_cons, ← List.append_assoc]
        exact hq
      · rw [hqueue, List.take_succ_cons, ← List.singleton_append]
        exact hlate₁.append hlate
      · rw [hqueue, List.take_succ_cons, List.mem_cons, not_or] at hfd'
        exact (hothers fd' hfd'.2).trans (hothers₁ fd' hfd'.1)

theorem readyLoop_add (i j : Nat) (ios : List Io) (s : Server) :
    readyLoop (i + j) ios s = readyLoop i ios s >>= readyLoop j (ios.drop i) := by
  induction i generalizing ios s with
  | zero => rw [Nat.zero_add]; rfl
  | succ i ih =>
    rw [Nat.succ_add, readyLoop, readyLoop]
    cases readyTurn (ios.headD {}) s with
    | error e => rfl
    | ok t =>
      show readyLoop (i + j) ios.tail t = readyLoop i ios.tail t >>= _
      rw [ih, ← List.drop_one, List.drop_drop, Nat.add_comm]

end WebServer.Refine
