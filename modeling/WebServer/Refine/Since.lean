import WebServer.Life.Path
import WebServer.Refine.Moves

/-!
# What a handler call has done so far

`Refines` speaks about the state alone.  `Since` compares it with the state in which the handler
call on `fd` began: the machine of `fd` has gone along a path, and nothing else has changed but
what all connections share.
-/

namespace WebServer.Refine

open WebServer.Net WebServer.Http WebServer.Core WebServer.Life

/-- Where a handler call began: the server, and the point of the machine on its descriptor. -/
structure Origin where
  server : Server
  point : Point

/-- The ReadyQueue while a handler works on `fd`: others stay where they are. -/
inductive Requeued (fd : Fd) (queue : List Fd) : List Fd → Prop
  | kept (n : Nat) : Requeued fd queue (queue ++ List.replicate n fd)
  | purged (n : Nat) : Requeued fd queue (queue.filter (· ≠ fd) ++ List.replicate n fd)

/-- The events of a trace that belong to connections. -/
def lifeEvents (trace : List Event) : List Event := trace.filter fun e => (life? e).isSome

structure Since (o : Origin) (fd : Fd) (p : Point) (s : Server) : Prop where
  others : ∀ fd', fd' ≠ fd → s.find fd' = o.server.find fd'
  queue : Requeued fd o.server.readyQueue s.readyQueue
  nextId : s.nextConnectionId = o.server.nextConnectionId
  listenFd : s.listenFd = o.server.listenFd
  trace : ∃ tr, s.trace = o.server.trace ++ tr ∧
    Course fd (fun id => history id o.server.trace) o.point (o.server.find fd) p (s.find fd)
      (lifeEvents tr)

variable {o : Origin} {fd : Fd} {p p' : Point} {c c' : ClientConnection}
  {after : Option ClientConnection} {events : List Event} {nodes : List TimerEntry} {s s' : Server}

theorem Requeued.moves {b : Bool} {b' : Option Bool} {queue q q' : List Fd}
    (h : Requeued fd queue q) (hm : QueueMoves fd b b' q q')
    (hpop : b = true → b' ≠ some false) : Requeued fd queue q' := by
  cases hm with
  | stay => exact h
  | push =>
    cases h with
    | kept n =>
      rw [List.append_assoc, ← List.replicate_succ']
      exact .kept (n + 1)
    | purged n =>
      rw [List.append_assoc, ← List.replicate_succ']
      exact .purged (n + 1)
  | pop => exact absurd rfl (hpop rfl)
  | leave =>
    have hown (n : Nat) : (List.replicate n fd).filter (· ≠ fd) = [] :=
      List.filter_eq_nil_iff.mpr fun x hx => by simp [List.eq_of_mem_replicate hx]
    have hpurged : Requeued fd queue (queue.filter (· ≠ fd)) := by
      have hzero : Requeued fd queue (queue.filter (· ≠ fd) ++ List.replicate 0 fd) := .purged 0
      simpa using hzero
    cases h with
    | kept n => rwa [List.filter_append, hown, List.append_nil]
    | purged n =>
      rw [List.filter_append, hown, List.append_nil, List.filter_filter]
      simpa using hpurged

namespace Since

theorem start (s : Server) (fd : Fd) (p : Point) : Since ⟨s, p⟩ fd p s := by
  refine ⟨fun _ _ => rfl, ?_, rfl, rfl, [], (List.append_nil _).symm, ?_⟩
  · have hzero : Requeued fd s.readyQueue (s.readyQueue ++ List.replicate 0 fd) := .kept 0
    simpa using hzero
  · cases hf : s.find fd with
    | none => exact .absent p
    | some c => exact .live .start

/-- The history of the connection is what it was before the call, and the events of its path. -/
theorem history_eq {tr : List Event} (htr : s.trace = o.server.trace ++ tr)
    (hcourse : Course fd (fun id => history id o.server.trace) o.point (o.server.find fd) p
      (some c) (lifeEvents tr)) :
    history c.connectionId s.trace = history c.connectionId o.server.trace ++ lifeEvents tr := by
  have hlives : ∀ e ∈ lifeEvents tr, life? e = some c.connectionId := by
    obtain ⟨c₀, hbefore, hid⟩ := hcourse.connectionId
    intro e he
    obtain ⟨c₁, hbefore', hlife⟩ := hcourse.lives e he
    rw [hbefore] at hbefore'
    cases hbefore'
    rw [hlife, hid]
  rw [htr, history_append, ← history_filter_isSome _ tr]
  exact congrArg _ (history_of_lives hlives)

theorem moves (h : Since o fd p s) (hm : Moves fd c after events nodes s s')
    (hpop : c.inReadyQueue = true → after.map (·.inReadyQueue) ≠ some false)
    (hcourse : ∀ E, history c.connectionId s.trace = history c.connectionId o.server.trace ++ E →
      Course fd (fun id => history id o.server.trace) o.point (o.server.find fd) p (some c) E →
      Course fd (fun id => history id o.server.trace) o.point (o.server.find fd) p' after
        (E ++ events)) : Since o fd p' s' := by
  obtain ⟨tr, htr, hold⟩ := h.trace
  obtain ⟨new, hnew, hevents, -⟩ := hm.trace
  refine ⟨fun fd' hne => (hm.find_other hne).trans (h.others fd' hne), h.queue.moves hm.queue hpop,
    hm.nextId.trans h.nextId, hm.listenFd.trans h.listenFd, tr ++ new, ?_, ?_⟩
  · rw [hnew, htr, List.append_assoc]
  · rw [hm.find_self, lifeEvents, List.filter_append, hevents]
    rw [hm.found] at hold
    exact hcourse _ (history_eq htr hold) hold

theorem step (h : Since o fd p s) (hm : Moves fd c (some c') events nodes s s')
    (hs : Step fd (history c.connectionId s.trace) p c events nodes p' c')
    (hallow : p.allows c p') : Since o fd p' s' := by
  apply h.moves hm
  · intro hq hfalse
    have := hs.queued hallow hq
    simp [this] at hfalse
  · intro E hE hcourse
    rw [hE] at hs
    exact hcourse.step hs hallow

theorem close (h : Since o fd p s) (hm : Moves fd c none events nodes s s') (he : End fd p c events) :
    Since o fd p' s' :=
  h.moves hm (fun _ => nofun) fun _ _ hcourse => hcourse.close he

theorem gone (h : Since o fd p s) (hf : s.find fd = none) : Since o fd p' s := by
  refine { h with trace := ?_ }
  obtain ⟨tr, htr, hcourse⟩ := h.trace
  rw [hf] at hcourse ⊢
  exact ⟨tr, htr, hcourse.gone⟩

theorem unmoved (h : Since o fd p s) (hm : Unmoved s s') : Since o fd p s' := by
  have hfind (x : Fd) : s'.find x = s.find x := by
    rw [Server.find, hm.clients]
    rfl
  obtain ⟨tr, htr, hcourse⟩ := h.trace
  obtain ⟨new, hnew, hnone⟩ := hm.trace
  refine ⟨fun fd' hne => (hfind fd').trans (h.others fd' hne), ?_, hm.nextId.trans h.nextId,
    hm.listenFd.trans h.listenFd, tr ++ new, ?_, ?_⟩
  · rw [hm.queue]
    exact h.queue
  · rw [hnew, htr, List.append_assoc]
  · have hsilent : lifeEvents new = [] :=
      List.filter_eq_nil_iff.mpr fun e he => by simp [(hnone e he).1]
    rw [hfind, lifeEvents, List.filter_append]
    rw [lifeEvents] at hsilent
    rw [hsilent, List.append_nil]
    exact hcourse

end Since

end WebServer.Refine
