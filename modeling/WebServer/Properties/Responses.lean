import WebServer.Life.Refusals
import WebServer.Refine.Reachable

/-!
# What a client gets to see

The responses of a connection reach the socket in order and without loss.  An error
response keeps its place behind them except when it overtakes unsent bytes.
-/

namespace WebServer.Properties

open WebServer.Net WebServer.Http WebServer.Core WebServer.Life WebServer.Refine

variable {s : Server}

/-! ## Responses -/

/-- What a live connection has sent and what it holds are the dispatched responses. -/
theorem accepted_append_outputBuffer {fd : Fd} {c : ClientConnection} (hs : Reachable s)
    (hf : s.find fd = some c) :
    accepted .response (history c.connectionId s.trace) ++ c.outputBuffer =
      responses (history c.connectionId s.trace) := by
  have hdelivered := (run_of_reachable hs hf).delivered
  simpa only [Delivered, Point.owed, List.append_nil] using hdelivered

theorem accepted_prefix_responses (hs : Reachable s) (id : Nat) :
    accepted .response (history id s.trace) <+: responses (history id s.trace) := by
  rcases life_of_reachable hs id with hnone | ⟨fd, hended⟩ | ⟨fd, c, hf, rfl⟩
  · rw [hnone]
    exact List.nil_prefix
  · exact hended.accepted_prefix
  · rw [← accepted_append_outputBuffer hs hf]
    exact List.prefix_append ..

/-- **Responses are neither lost nor duplicated nor reordered.**  The socket has taken a
prefix of the dispatched responses, and a live connection still holds the rest. -/
theorem responses_delivered (hs : Reachable s) (id : Nat) :
    accepted .response (history id s.trace) <+: responses (history id s.trace) ∧
      ∀ fd c, s.find fd = some c → c.connectionId = id →
        accepted .response (history id s.trace) ++ c.outputBuffer =
          responses (history id s.trace) := by
  refine ⟨accepted_prefix_responses hs id, fun fd c hf hid => ?_⟩
  subst hid
  exact accepted_append_outputBuffer hs hf

/-- Two pipelined requests whose responses the socket takes in four parts; the last bytes are
still to be sent. -/
def slowReader : SampleRun fun s => (s.find 5).isSome = true ∧
    (connectionAt s 5).connectionId = 1 ∧ (connectionAt s 5).outputBuffer ≠ [] ∧
    (accepted .response (history 1 s.trace)).length = 131 where
  iterations :=
    [accepting 3 5 0,
      reading 5 1 [.got (ascii "GET /a HTTP/1.1\r\n\r\nGET /b HTTP/1.1\r\n\r\n")] [.wrote 10],
      writing 5 2 [.wrote 1, .failed .eagain], writing 5 3 [.wrote 100, .wrote 20]]
  holds := by decide +kernel

theorem responses_delivered_slowReader :
    (connectionAt slowReader.final 5).outputBuffer ≠ [] ∧
      accepted .response (history 1 slowReader.final.trace) ++
          (connectionAt slowReader.final 5).outputBuffer =
        responses (history 1 slowReader.final.trace) := by
  obtain ⟨hopen, hid, hout, -⟩ := slowReader.holds_final
  exact ⟨hout, (responses_delivered slowReader.reachable 1).2 5 _ (find_connectionAt hopen) hid⟩

/-! ## Error responses -/

/-- No byte of an error response comes before a byte of an earlier response, and the wire
carries a prefix of complete responses. -/
def ErrorsKeepOrder (H : List Event) : Prop :=
  ErrorsInOrder H ∧ ∃ statusCode, wire H <+: responses H ++ errorResponse statusCode

/-- **When error responses keep their place.**  They do when the socket takes nothing of
them, and otherwise exactly when no request, header limit, read or response was refused
while response bytes were still unsent. -/
theorem errorsKeepOrder_iff (hs : Reachable s) (id : Nat) :
    ErrorsKeepOrder (history id s.trace) ↔ accepted .bestEffort (history id s.trace) = [] ∨
      ∀ e ∈ history id s.trace, overtakes e = false := by
  have hsilent (hnone : accepted .bestEffort (history id s.trace) = []) :
      ErrorsKeepOrder (history id s.trace) := by
    refine ⟨errorsInOrder_of_silent hnone, 0, ?_⟩
    rw [wire_of_silent hnone]
    exact (accepted_prefix_responses hs id).trans (List.prefix_append ..)
  rcases life_of_reachable hs id with hnone | ⟨fd, hended⟩ | ⟨fd, c, hf, rfl⟩
  · rw [hnone] at hsilent ⊢
    exact iff_of_true (hsilent rfl) (.inl rfl)
  · constructor
    · exact fun h => hended.errorsInOrder_iff.mp h.1
    · rintro (hnone | hclean)
      · exact hsilent hnone
      · exact ⟨hended.errorsInOrder_iff.mpr (.inr hclean), hended.wire_prefix hclean⟩
  · have hnone := (run_of_reachable hs hf).no_error_bytes
    exact iff_of_true (hsilent hnone) (.inl hnone)

/-- A request that is answered only in part, and behind it a header that is refused: the error
response splits the response in front of it. -/
def refusedBehindOutput : SampleRun fun s => ¬ ErrorsInOrder (history 1 s.trace) where
  iterations :=
    [accepting 3 5 0,
      reading 5 1 [.got (ascii "GET / HTTP/1.1\r\n\r\nX\r\n\r\n")] [.wrote 10, .wrote 1000]]
  holds := by decide +kernel

theorem not_errorsKeepOrder_refusedBehindOutput :
    ¬ ∀ s, Reachable s → ∀ id, ErrorsKeepOrder (history id s.trace) := by
  intro h
  exact refusedBehindOutput.holds_final (h _ refusedBehindOutput.reachable 1).1

/-- A request that is answered in full, and behind it a header that is refused. -/
def refusedInTurn : SampleRun fun s => accepted .bestEffort (history 1 s.trace) ≠ [] ∧
    ∀ e ∈ history 1 s.trace, overtakes e = false where
  iterations :=
    [accepting 3 5 0,
      reading 5 1 [.got (ascii "GET / HTTP/1.1\r\n\r\nX\r\n\r\n")] [.wrote 1000, .wrote 1000]]
  holds := by decide +kernel

theorem errorsKeepOrder_refusedInTurn :
    accepted .bestEffort (history 1 refusedInTurn.final.trace) ≠ [] ∧
      ErrorsKeepOrder (history 1 refusedInTurn.final.trace) := by
  obtain ⟨hwritten, hclean⟩ := refusedInTurn.holds_final
  exact ⟨hwritten, (errorsKeepOrder_iff refusedInTurn.reachable 1).mpr (.inr hclean)⟩

end WebServer.Properties
