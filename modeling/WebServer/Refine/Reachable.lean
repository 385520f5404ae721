import WebServer.Refine.Calls

/-!
# Every reachable state refines the machine

Between two handler calls every registered connection is at rest in a run of its
machine, and every connection that is gone has ended.  Properties of the machine
become properties of the server through this theorem.
-/

namespace WebServer.Refine

open WebServer.Net WebServer.Http WebServer.Core WebServer.Life

variable {fd : Fd} {c : ClientConnection} {s s' : Server}

theorem atRest_initializeServer (listenFd : Fd) : AtRest (initializeServer listenFd) := by
  have hnone (fd : Fd) : (initializeServer listenFd).find fd = none := rfl
  refine fun fd => ⟨fun fd' c hc => ?_, fun id _ => .inl rfl, fun fd' c hc => ?_,
    fun fd₁ c₁ fd₂ c₂ h₁ => ?_, fun id _ => ⟨rfl, rfl⟩, List.nodup_nil, fun fd' => ?_, hnone _, rfl,
    rfl, Nat.zero_le _, fun _ _ => nofun⟩
  · rw [hnone] at hc
    cases hc
  · rw [hnone] at hc
    cases hc
  · rw [hnone] at h₁
    cases h₁
  · rw [hnone]
    simp [initializeServer]

theorem atRest_of_reachable (h : Reachable s) : AtRest s :=
  h.induct atRest_initializeServer fun _ _ _ hs hcall => (runCall_called hs hcall).1

/-! ## What the machine knows about a connection of a reachable state -/

theorem run_of_reachable (h : Reachable s) (hf : s.find fd = some c) :
    Run fd c.connectionId .rest c (history c.connectionId s.trace)
      (nodesOf c.connectionId s.timerHeap) :=
  (atRest_of_reachable h fd).run hf

/-- Every id that was given out belongs to a connection that is registered or has ended. -/
theorem life_of_reachable (h : Reachable s) (id : Nat) :
    history id s.trace = [] ∨ (∃ fd, Ended fd id (history id s.trace)) ∨
      ∃ fd c, s.find fd = some c ∧ c.connectionId = id := by
  by_cases hlive : ∃ fd c, s.find fd = some c ∧ c.connectionId = id
  · exact .inr (.inr hlive)
  · have hgone : ∀ fd c, s.find fd = some c → c.connectionId ≠ id :=
      fun fd c hf e => hlive ⟨fd, c, hf, e⟩
    rcases (atRest_of_reachable h 0).gone id hgone with hnone | hended
    · exact .inl hnone
    · exact .inr (.inl hended)

end WebServer.Refine
