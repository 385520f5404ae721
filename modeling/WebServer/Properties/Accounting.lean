import WebServer.Refine.Reachable

/-!
# Memory accounting

The global counter of buffered bytes is exact between any two handler calls.
-/

namespace WebServer.Properties

open WebServer.Net WebServer.Http WebServer.Core WebServer.Life WebServer.Refine

variable {s : Server}

/-- No call of a handler on a state at rest subtracts below zero. -/
theorem runCall_ne_sizeWrap (h : AtRest s) {call : Call} {fault : Fault}
    (hcall : runCall call s = .error fault) (left right : Nat) : fault ≠ .sizeWrap left right := by
  rcases runCall_returns call h with ⟨t, ht, -⟩ | ⟨he, -⟩ | ⟨e, he⟩
  · rw [ht] at hcall
    cases hcall
  · rw [he] at hcall
    cases hcall
    exact nofun
  · rw [he] at hcall
    cases hcall
    exact nofun

/-- **The accounts are exact and bounded.**  A release never asks for more than is in use, so
the clamp of `ReleaseInflightBytes` is taken only when it gives back everything. -/
theorem inflight_exact (hs : Reachable s) :
    s.globalInflightBytes = TableSum.total Server.buffered s.clients ∧
      s.metrics.globalInflightBytesCurrent = s.globalInflightBytes ∧
      s.globalInflightBytes ≤ kMaxInflightBytes ∧
      (∀ amount inflight, .released amount inflight ∈ s.trace → amount ≤ inflight) ∧
      (∀ call fault left right, runCall call s = .error fault → fault ≠ .sizeWrap left right) ∧
      (s.clients = ∅ → s.globalInflightBytes = 0) := by
  have h := atRest_of_reachable hs
  refine ⟨(h 0).balance, (h 0).metric, (h 0).bounded, (h 0).releases, ?_, fun hempty => ?_⟩
  · exact fun call fault left right hcall => runCall_ne_sizeWrap h hcall left right
  · rw [(h 0).balance, hempty]
    exact TableSum.total_empty _

/-- A response that the socket took only in part, behind half a header. -/
def pausedWrite : SampleRun fun s =>
    0 < (connectionAt s 5).outputBuffer.length ∧
      s.globalInflightBytes = 3 + (connectionAt s 5).outputBuffer.length where
  iterations :=
    [accepting 3 5 0, reading 5 1 [.got (ascii "GET / HTTP/1.1\r\n\r\nGET")] [.wrote 10]]
  holds := by decide +kernel

/-- The unsent bytes and the half header are all that is in use. -/
theorem inflight_exact_pausedWrite :
    0 < pausedWrite.final.globalInflightBytes ∧
      pausedWrite.final.globalInflightBytes =
        TableSum.total Server.buffered pausedWrite.final.clients := by
  obtain ⟨-, hinflight⟩ := pausedWrite.holds_final
  exact ⟨by omega, (inflight_exact pausedWrite.reachable).1⟩

end WebServer.Properties
