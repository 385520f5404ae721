import WebServer.Checked.EventLoop
import WebServer.Kernel.Budgets
import WebServer.Properties.Fairness

/-!
# Guards and budgets

The functions of the server test what their callers have made sure of: pointers are not null,
there is a header to pop, a buffer holds what is consumed.  None of these tests ever fires, no
unsigned subtraction wraps, and a round spends one budget of each kind at most.
-/

namespace WebServer.Properties

open WebServer.Net WebServer.Http WebServer.Core WebServer.Life WebServer.Refine WebServer.Kernel
  Checks

variable {fd : Fd} {c : ClientConnection} {call : Call} {s s' : Server}

/-! ## Guards -/

/-- A guard of the program has failed: one of its checks, `PopNextHeader`, `ConsumePrefix` or an
unsigned subtraction. -/
def isGuard : Failure Checked.Check Fault → Bool
  | .check _ => true
  | .fault (.logicError _) => true
  | .fault (.outOfRange _) => true
  | .fault (.sizeWrap ..) => true
  | .fault (.systemError ..) => false
  | .fault .emptyDeque => false

theorem runCall_unguarded (h : AtRest s) {failure : Failure Checked.Check Fault}
    (hcall : Checked.runCall call s = .error failure) : isGuard failure = false := by
  rw [Checked.runCall_eq] at hcall
  rcases runCall_returns call h with ⟨s', hok, -⟩ | ⟨hempty, -⟩ | ⟨e, haccept⟩
  · rw [hok] at hcall
    cases hcall
  · rw [hempty] at hcall
    cases hcall
    rfl
  · rw [haccept] at hcall
    cases hcall
    rfl

/-! ## Budgets -/

/-- The two budgets of a round, in bytes. -/
structure InBudget (E : List Event) : Prop where
  read : (received E).length ≤ 256 * 1024
  written : (accepted .response E).length ≤ 256 * 1024

theorem inBudget_callEvents {tr : List Event} (htr : s'.trace = s.trace ++ tr)
    (h : Affords s s') : InBudget (callEvents s s') := by
  have hevents : callEvents s s' = tr := by rw [callEvents, htr, List.drop_left]
  have hread := h.read
  have hwritten := h.written
  rw [htr, received_append, List.length_append] at hread
  rw [htr, accepted_append, List.length_append] at hwritten
  rw [hevents]
  exact ⟨Nat.le_of_add_le_add_left hread, Nat.le_of_add_le_add_left hwritten⟩

theorem RoundOf.affords (hs : Reachable s) (hround : RoundOf fd s call) (hf : s.find fd = some c)
    (hcall : runCall call s = .ok s') : Affords s s' := by
  have hkept := within_kept fd
  cases hround with
  | handleClientEvent events io =>
    have hrun := (runHandler_client hs hf events io).symm.trans hcall
    exact runHandler_affords (fun r h => (hkept s).handleClientEvent h events) hrun
  | continueReady io hhead =>
    obtain ⟨queue, hqueue⟩ := List.head?_eq_some_iff.mp hhead
    have hrun := (readyTurn_eq (atRest_of_reachable hs) io hqueue hf).symm.trans hcall
    obtain ⟨hread, hwritten⟩ := runHandler_affords
      (fun r h => (hkept (dequeued fd queue c s)).continueReadyConnection h) hrun
    exact ⟨hread, hwritten⟩

/-- **Guards and budgets.**  From every reachable state a handler call fails, if it fails, for
another reason than a guard; and a round of a connection returns and has read and written no more
than its budgets. -/
theorem guards_never_fire (hs : Checked.Reachable s) (call : Call) :
    (∀ failure, Checked.runCall call s = .error failure → isGuard failure = false) ∧
      ∀ fd c, RoundOf fd s call → s.find fd = some c →
        ∃ s', Checked.runCall call s = .ok s' ∧ InBudget (callEvents s s') := by
  have hs' := Checked.reachable_iff.mp hs
  have hrest := atRest_of_reachable hs'
  refine ⟨fun failure => runCall_unguarded hrest, fun fd c hround hf => ?_⟩
  obtain ⟨s', hcall, -⟩ := hround.returns hs' hf
  obtain ⟨-, ⟨tr, htr, -⟩, -⟩ := runCall_called hrest hcall
  refine ⟨s', ?_, inBudget_callEvents htr (hround.affords hs' hf hcall)⟩
  rw [Checked.runCall_eq, hcall]
  rfl

/-- The round reads and answers three requests. -/
theorem guards_never_fire_threeRequests :
    ∃ s', Checked.runCall (roundOf [pipelined 3]) newClient.final = .ok s' ∧
      InBudget (callEvents newClient.final s') := by
  have hround : RoundOf 5 newClient.final (roundOf [pipelined 3]) := .handleClientEvent _ _
  have hreach := Checked.reachable_iff.mpr newClient.reachable
  exact (guards_never_fire hreach (roundOf [pipelined 3])).2 5 _ hround
    (find_connectionAt newClient.holds_final)

end WebServer.Properties
