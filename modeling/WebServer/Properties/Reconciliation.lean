import WebServer.Kernel.Counting

/-!
# The counters reconcile

The counters that clients of the metrics subtract from each other agree with each other and with
what has happened.
-/

namespace WebServer.Properties

open WebServer.Net WebServer.Http WebServer.Core WebServer.Life WebServer.Kernel

variable {s : Server}

structure Reconciled (s : Server) : Prop where
  accepted : s.metrics.acceptTotal = s.metrics.reject429Total + (s.nextConnectionId - 1)
  connected : s.nextConnectionId - 1 = s.metrics.connsCurrent + s.trace.countP isClosed
  rejected : s.metrics.rejectTotal = s.metrics.reject411Total + s.metrics.reject413Total +
    s.metrics.reject429Total + s.metrics.reject431Total + s.metrics.reject501Total +
    s.metrics.reject503Total + s.metrics.connRejectTotal + s.trace.countP isBadRequest
  erred : s.metrics.errorsTotal =
    s.metrics.rejectTotal + s.metrics.timeoutCloseTotal + s.trace.countP isFailure
  connRejected : s.connRejectTotal = s.metrics.connRejectTotal
  requested : s.metrics.requestsTotal = s.trace.countP isDispatched

/-- **The counters reconcile** in every reachable state. -/
theorem reconciled_of_reachable (hs : Reachable s) : Reconciled s := by
  have h := squared_of_reachable hs
  have haccepted := h.accepted
  have hconnected := h.connected
  refine ⟨?_, ?_, h.rejected, h.erred, h.connRejected, h.requested⟩
  · omega
  · omega

/-- One client has been answered, one has sent no request and one was reset. -/
def threeClients : SampleRun fun s =>
    s.metrics.acceptTotal = 3 ∧ s.metrics.errorsTotal = 2 ∧ s.metrics.requestsTotal = 1 where
  iterations :=
    [accepting 3 5 0, accepting 3 6 1, accepting 3 7 2,
      reading 5 3 [.got (ascii "GET / HTTP/1.1\r\n\r\n")] [.wrote 1000],
      reading 6 4 [.got (ascii "NONSENSE\r\n\r\n")] [.wrote 1000],
      reading 7 5 [.failed (.other 104)] []]
  holds := by decide +kernel

theorem reconciled_of_reachable_threeClients : threeClients.final.metrics.errorsTotal = 2 ∧
    Reconciled threeClients.final :=
  ⟨threeClients.holds_final.2.1, reconciled_of_reachable threeClients.reachable⟩

end WebServer.Properties
