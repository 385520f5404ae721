import WebServer.Kernel.Evolution

/-!
# Progress

The history only grows, and so do the totals and the ids of the connections.
-/

namespace WebServer.Kernel

open WebServer.Net WebServer.Http WebServer.Core WebServer.Life WebServer.Refine TimedSteps

variable {fd : Fd} {c : ClientConnection} {t : Time} {s s' s'' : Server}

/-- `s'` is `s` or has come after it. -/
structure Later (s s' : Server) : Prop where
  grow : ∀ k, counter k s.metrics ≤ counter k s'.metrics
  nextId : s.nextConnectionId ≤ s'.nextConnectionId
  trace : s.trace <+: s'.trace

namespace Later

theorem refl (s : Server) : Later s s :=
  ⟨fun _ => Nat.le_refl _, Nat.le_refl _, List.prefix_refl _⟩

theorem trans (h : Later s s') (h' : Later s' s'') : Later s s'' :=
  ⟨fun k => (h.grow k).trans (h'.grow k), h.nextId.trans h'.nextId, h.trace.trans h'.trace⟩

/-- The totals and the ids are as they were. -/
theorem events {events : List Event} (hmetrics : s'.metrics = s.metrics)
    (hnext : s'.nextConnectionId = s.nextConnectionId) (htrace : s'.trace = s.trace ++ events) :
    Later s s' := by
  constructor
  · intro k
    rw [hmetrics]
  · rw [hnext]
  · rw [htrace]
    exact List.prefix_append ..

theorem silent (hmetrics : s'.metrics = s.metrics)
    (hnext : s'.nextConnectionId = s.nextConnectionId) (htrace : s'.trace = s.trace) :
    Later s s' :=
  .events hmetrics hnext (htrace.trans (List.append_nil _).symm)

theorem close (hf : s.find fd = some c) (hcl : c.closing = false) (reason : CloseReason) :
    Later s (closeClientConnection fd reason s) := by
  rw [closeClientConnection_eq hf hcl]
  constructor
  · intro k
    cases k <;> exact Nat.le_refl _
  · exact Nat.le_refl _
  · exact List.prefix_append ..

/-- An accepted socket has only been counted. -/
theorem accepted {peerEndpoint : Bytes} {writes : List Event}
    (h : Accepted fd peerEndpoint writes s s') : Later s s' := by
  constructor
  · exact h.counts.grow
  · rw [congrArg Server.nextConnectionId h.apart]
  · rw [congrArg Server.trace h.apart]
    exact List.prefix_append ..

theorem enrolled (fd : Fd) (peerEndpoint : Bytes) (s : Server) :
    Later s (enrolled fd peerEndpoint s) := by
  constructor
  · intro k
    cases k <;> exact Nat.le_refl _
  · exact Nat.le_succ _
  · exact List.prefix_append ..

end Later

theorem Primitive.later (h : Primitive t s s') : Later s s' := by
  cases h with
  | put | queue | expire | retire => exact .silent rfl rfl rfl
  | note | read | write | arm | mask => exact .events rfl rfl rfl
  | count m n hm =>
    constructor
    · exact hm.grow
    · exact Nat.le_refl _
    · exact List.prefix_refl _
  | refuse c statusCode =>
    constructor
    · exact (Counts.refuse c statusCode _).grow
    · exact Nat.le_refl _
    · exact List.prefix_append ..
  | inflight n =>
    constructor
    · intro k
      cases k <;> exact Nat.le_refl _
    · exact Nat.le_refl _
    · exact List.prefix_refl _
  | close reason hf hcl => exact .close hf hcl reason
  | turnAway ha => exact (Later.accepted ha).trans (.events rfl rfl rfl)
  | enroll ha => exact (Later.accepted ha).trans (.enrolled ..)

/-- The listening socket is the same all along. -/
theorem Primitive.listenFd (h : Primitive t s s') : s'.listenFd = s.listenFd := by
  cases h with
  | put | queue | expire | retire | note | read | write | arm | mask | count | refuse | inflight =>
    rfl
  | close reason hf hcl => rw [closeClientConnection_eq hf hcl]
  | turnAway ha | enroll ha => exact (congrArg Server.listenFd ha.apart :)

theorem runCalls_listenFd {calls : List Call} (h : runCalls calls s = .ok s') :
    s'.listenFd = s.listenFd := by
  refine runCalls_of_primitives (P := fun s' => s'.listenFd = s.listenFd) (t := 0) ?_
    (fun _ _ => Nat.zero_le _) h rfl
  intro t s' s'' _ hp hs
  exact hp.listenFd.trans hs

/-- Calls in whatever order only make progress. -/
theorem runCalls_later {calls : List Call} (h : runCalls calls s = .ok s') : Later s s' := by
  refine runCalls_of_primitives (t := 0) ?_ (fun _ _ => Nat.zero_le _) h (.refl s)
  intro t s' s'' _ hp hlater
  exact hlater.trans hp.later

theorem processExpiredTimers_later (now : Time) (ties : List Nat) (s : Server) :
    Later s (processExpiredTimers now ties s) := by
  have hcall : runCalls [.expire now s.timerHeap.length ties] s =
    .ok (processExpiredTimers now ties s) := rfl
  exact runCalls_later hcall

/-! ## Armings -/

/-- When the event armed a timer. -/
def armedAt? : Event → Option Time
  | .armed _ _ now _ => some now
  | _ => none

/-- From `s` to `s'` timers have been armed between `t` and `t'` only. -/
def ArmedWithin (t : Time) (s : Server) (t' : Time) (s' : Server) : Prop :=
  ∃ events, s'.trace = s.trace ++ events ∧
    ∀ e ∈ events, ∀ now, armedAt? e = some now → t ≤ now ∧ now ≤ t'

theorem ArmedWithin.trans (h : ArmedWithin t s t' s') (h' : ArmedWithin t s' t' s'') :
    ArmedWithin t s t' s'' := by
  obtain ⟨events, htrace, hwithin⟩ := h
  obtain ⟨events', htrace', hwithin'⟩ := h'
  refine ⟨events ++ events', by rw [htrace', htrace, List.append_assoc], fun e he => ?_⟩
  rcases List.mem_append.mp he with he | he
  · exact hwithin e he
  · exact hwithin' e he

theorem ArmedWithin.mono {u u' : Time} (h : ArmedWithin t s t' s') (hle : u ≤ t) (hle' : t' ≤ u') :
    ArmedWithin u s u' s' := by
  obtain ⟨events, htrace, hwithin⟩ := h
  refine ⟨events, htrace, fun e he now hnow => ?_⟩
  obtain ⟨hfrom, hto⟩ := hwithin e he now hnow
  exact ⟨hle.trans hfrom, hto.trans hle'⟩

theorem armedAt?_inner {e : Event} (h : isInner e = true) : armedAt? e = none := by
  cases e <;> first | rfl | cases h

theorem armedAt?_write {events : List Event} (h : Writes fd events) :
    ∀ e ∈ events, armedAt? e = none := by
  intro e he
  obtain ⟨writer, life, data, answer, rfl⟩ := h e he
  rfl

/-- A primitive arms no timer but for the time it happens at. -/
theorem Primitive.armedWithin (h : Primitive t s s') : ArmedWithin t s t s' := by
  have hnone {events : List Event} (htrace : s'.trace = s.trace ++ events)
      (hevents : ∀ e ∈ events, armedAt? e = none) : ArmedWithin t s t s' := by
    refine ⟨events, htrace, fun e he now hnow => ?_⟩
    rw [hevents e he] at hnow
    cases hnow
  cases h with
  | put | queue | expire | retire | count | inflight =>
    exact hnone (List.append_nil _).symm (fun _ he => absurd he List.not_mem_nil)
  | note e he => exact hnone rfl (List.forall_mem_singleton.mpr (armedAt?_inner he))
  | read answer hf => exact hnone rfl (List.forall_mem_singleton.mpr rfl)
  | write hf hwrites => exact hnone rfl (armedAt?_write hwrites)
  | refuse c statusCode => exact hnone rfl (List.forall_mem_singleton.mpr rfl)
  | mask events hf => exact hnone rfl (List.forall_mem_singleton.mpr rfl)
  | arm c' kind deadline =>
    refine ⟨_, rfl, fun e he now hnow => ?_⟩
    obtain rfl := List.mem_singleton.mp he
    cases hnow
    exact ⟨Nat.le_refl _, Nat.le_refl _⟩
  | close reason hf hcl =>
    rw [closeClientConnection_eq hf hcl] at hnone ⊢
    refine hnone rfl fun e he => ?_
    rcases List.mem_append.mp he with he | he
    · unfold socketEvents at he
      split at he
      · cases he
      · simp only [List.mem_cons, List.not_mem_nil, or_false] at he
        rcases he with rfl | rfl <;> rfl
    · simp only [List.mem_cons, List.not_mem_nil, or_false] at he
      rcases he with rfl | rfl <;> rfl
  | @turnAway accepted fd peerEndpoint writes ha =>
    have htrace : accepted.trace = s.trace ++ .accepted fd peerEndpoint :: writes :=
      congrArg Server.trace ha.apart
    have hlogged : (accepted.log [.closedFd fd]).trace =
        s.trace ++ (.accepted fd peerEndpoint :: writes ++ [.closedFd fd]) := by
      rw [Server.log, htrace, List.append_assoc]
    refine hnone hlogged fun e he => ?_
    simp only [List.cons_append, List.mem_cons, List.mem_append, List.not_mem_nil, or_false] at he
    rcases he with rfl | he | rfl
    · rfl
    · exact armedAt?_write ha.writes e he
    · rfl
  | @enroll accepted fd peerEndpoint ha =>
    have htrace : accepted.trace = s.trace ++ [.accepted fd peerEndpoint] :=
      congrArg Server.trace ha.apart
    have hadded : (enrolled fd peerEndpoint accepted).trace =
        s.trace ++ [.accepted fd peerEndpoint,
          .epollCtl .add fd { epollin := true, epollrdhup := true }] := by
      show accepted.trace ++ _ = _
      rw [htrace, List.append_assoc]
      rfl
    exact hnone hadded (by simp [armedAt?])

/-- **Armings.**  A call arms timers for times that the clock shows during it. -/
theorem runCall_armedWithin (call : Call) (t : Time) (h : runCall call s = .ok s') :
    ArmedWithin (begins t call) s (ends t call) s' := by
  obtain ⟨t', hends, hevolves⟩ := runCall_evolves call t h
  refine ArmedWithin.mono ?_ (Nat.le_refl _) hends
  refine (hevolves.keeps (P := fun t' s' => begins t call ≤ t' ∧
    ArmedWithin (begins t call) s t' s') ?_ ?_ ⟨Nat.le_refl _, [], by simp, by simp⟩).2
  · intro t' s' s'' hp ⟨hle, hwithin⟩
    exact ⟨hle, hwithin.trans (hp.armedWithin.mono hle (Nat.le_refl _))⟩
  · intro t' t'' s' hle ⟨hbegins, hwithin⟩
    exact ⟨hbegins.trans hle, hwithin.mono (Nat.le_refl _) hle⟩

/-! ## Refusals -/

def isRefusal (statusCode : Nat) : Event → Bool
  | .rejected _ code => code = statusCode
  | _ => false

/-- The counter of the refusals with this status code. -/
def rejectCounter : Nat → Option Counter
  | 411 => some .reject411
  | 413 => some .reject413
  | 429 => some .reject429
  | 431 => some .reject431
  | 501 => some .reject501
  | 503 => some .reject503
  | _ => none

/-- The counter keeps up with the refusals in the history. -/
def Tallied (statusCode : Nat) (k : Counter) (s : Server) : Prop :=
  s.trace.countP (isRefusal statusCode) ≤ counter k s.metrics

variable {statusCode : Nat} {k : Counter} {events : List Event}

/-- A step that refuses nothing. -/
theorem Tallied.unrefused (h : Tallied statusCode k s) (hgrow : counter k s.metrics ≤ counter k s'.metrics)
    (htrace : s'.trace = s.trace ++ events) (hnone : ∀ e ∈ events, isRefusal statusCode e = false) :
    Tallied statusCode k s' := by
  have hno : events.countP (isRefusal statusCode) = 0 := by
    rw [List.countP_eq_zero]
    intro e he hrefusal
    rw [hnone e he] at hrefusal
    cases hrefusal
  unfold Tallied
  rw [htrace, List.countP_append, hno]
  exact Nat.le_trans h hgrow

theorem Tallied.silent (h : Tallied statusCode k s) (hgrow : counter k s.metrics ≤ counter k s'.metrics)
    (htrace : s'.trace = s.trace) : Tallied statusCode k s' := by
  unfold Tallied
  rw [htrace]
  exact Nat.le_trans h hgrow

theorem Tallied.refuse (h : Tallied statusCode k s) (hk : rejectCounter statusCode = some k)
    (c : ClientConnection) (code : Nat) :
    Tallied statusCode k
      (recordErrorMetric (recordRejectMetric code (s.log [.rejected c code]))) := by
  by_cases hcode : code = statusCode
  · subst hcode
    have hcount : counter k (recordErrorMetric
        (recordRejectMetric code (s.log [.rejected c code]))).metrics = counter k s.metrics + 1 := by
      unfold rejectCounter at hk
      split at hk <;> cases hk <;> rfl
    have htrace : (recordErrorMetric (recordRejectMetric code (s.log [.rejected c code]))).trace =
        s.trace ++ [.rejected c code] := rfl
    have hone := List.countP_le_length (p := isRefusal code) (l := [.rejected c code])
    unfold Tallied at h ⊢
    rw [hcount, htrace, List.countP_append]
    rw [List.length_singleton] at hone
    omega
  · refine h.unrefused ((Counts.refuse c code s).grow k) rfl ?_
    intro e he
    obtain rfl := List.mem_singleton.mp he
    exact decide_eq_false hcode

theorem mem_socketEvents {e : Event} {socket : Option Fd} (h : e ∈ socketEvents fd socket) :
    e = .epollCtl .del fd {} ∨ ∃ own, e = .closedFd own := by
  cases socket with
  | none => cases h
  | some own => exact (List.mem_pair.mp h).imp_right fun he => ⟨own, he⟩

theorem Writes.unrefused (h : Writes fd events) : ∀ e ∈ events, isRefusal statusCode e = false := by
  intro e he
  obtain ⟨writer, life, data, answer, rfl⟩ := h e he
  rfl

theorem Tallied.accepted {peerEndpoint : Bytes} (h : Tallied statusCode k s)
    (ha : Accepted fd peerEndpoint events s s') : Tallied statusCode k s' := by
  refine h.unrefused (ha.counts.grow k) (congrArg Server.trace ha.apart) ?_
  intro e he
  rcases List.mem_cons.mp he with rfl | he
  · rfl
  · exact ha.writes.unrefused e he

theorem Primitive.tallied (h : Primitive t s s') (hk : rejectCounter statusCode = some k)
    (hs : Tallied statusCode k s) : Tallied statusCode k s' := by
  have hgrow := h.later.grow k
  cases h with
  | put | queue | expire | retire | count | inflight => exact hs.silent hgrow rfl
  | note e he =>
    refine hs.unrefused hgrow rfl ?_
    intro e' he'
    obtain rfl := List.mem_singleton.mp he'
    cases e' <;> first | rfl | cases he
  | read | arm | mask =>
    refine hs.unrefused hgrow rfl ?_
    intro e he
    obtain rfl := List.mem_singleton.mp he
    rfl
  | write hf hwrites => exact hs.unrefused hgrow rfl hwrites.unrefused
  | refuse c code => exact hs.refuse hk c code
  | @close fd c reason hf hcl =>
    refine hs.unrefused hgrow (congrArg Server.trace (closeClientConnection_eq hf hcl reason)) ?_
    intro e he
    rcases List.mem_append.mp he with he | he
    · rcases mem_socketEvents he with rfl | ⟨own, rfl⟩ <;> rfl
    · rcases List.mem_pair.mp he with rfl | rfl <;> rfl
  | turnAway ha =>
    refine (hs.accepted ha).unrefused (Nat.le_refl _) rfl ?_
    intro e he
    obtain rfl := List.mem_singleton.mp he
    rfl
  | enroll ha =>
    refine (hs.accepted ha).unrefused ((Later.enrolled ..).grow k) rfl ?_
    intro e he
    obtain rfl := List.mem_singleton.mp he
    rfl

/-- No refusal goes uncounted. -/
theorem refusals_le (h : Reachable s) (hk : rejectCounter statusCode = some k) :
    s.trace.countP (isRefusal statusCode) ≤ counter k s.metrics :=
  reachable_of_primitives h (fun _ => Nat.zero_le _) fun _ _ _ hp hs => hp.tallied hk hs

end WebServer.Kernel
