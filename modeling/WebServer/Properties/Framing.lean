import WebServer.Life.Framing
import WebServer.Refine.Reachable

/-!
# Request framing of the server

The decisions of the machine are a prefix of those of the reference interpreter;
here this becomes a statement about every connection of every reachable state.
-/

namespace WebServer.Properties

open WebServer.Net WebServer.Http WebServer.Core WebServer.Life WebServer.Refine

variable {s : Server}

/-- **Framing does not depend on segmentation.**  Whatever the order of calls and however the
bytes were cut, the decisions on a connection, live or gone, are a prefix of the decisions of
the reference on all bytes read. -/
theorem decisions_prefix_reference (hs : Reachable s) (id : Nat) :
    decisions (history id s.trace) <+: reference (received (history id s.trace)) := by
  rcases life_of_reachable hs id with hnone | ⟨fd, hended⟩ | ⟨fd, c, hf, rfl⟩
  · rw [hnone]
    exact List.nil_prefix
  · exact hended.decisions_prefix
  · have hrun := run_of_reachable hs hf
    exact hrun.decisions_prefix

/-- A `POST` with five body bytes, cut in the middle of its header and of its body, and a `GET`
behind it: both are decided. -/
def segmentedUpload : SampleRun fun s => (decisions (history 1 s.trace)).length = 2 where
  iterations :=
    [accepting 3 5 0,
      reading 5 1 [.got (ascii "POST /a HTTP/1.1\r\nContent-Le")] [],
      reading 5 2 [.got (ascii "ngth: 5\r\n\r\nhe")] [],
      reading 5 3 [.got (ascii "lloGET /b HTTP/1.1\r\n\r\n")] [.wrote 1000],
      reading 5 4 [.got (ascii "X")] [.wrote 1000]]
  holds := by decide +kernel

theorem decisions_prefix_segmentedUpload :
    (decisions (history 1 segmentedUpload.final.trace)).length = 2 ∧
      decisions (history 1 segmentedUpload.final.trace) <+:
        reference (received (history 1 segmentedUpload.final.trace)) :=
  ⟨segmentedUpload.holds_final, decisions_prefix_reference segmentedUpload.reachable 1⟩

end WebServer.Properties
