import WebServer.Kernel.Clocked

/-!
# What the handlers keep

Invariants that do not depend on the clock.
-/

namespace WebServer.Kernel

open WebServer.Net WebServer.Http WebServer.Core WebServer.Life WebServer.Refine
  LiberalPre

variable {fd : Fd} {c : ClientConnection} {s s' : Server} {r r' : Round}

/-- Every part of a handler call for `fd` keeps `P`.  A `read()` takes its bytes from the
budget. -/
structure Keeps (fd : Fd) (P : Round → Prop) : Prop where
  refuse : ∀ {r} statusCode, statusCode ∈ errorStatuses → P r →
    wlp (sendErrorResponseAndClose fd statusCode) (fun _ => P) r
  dispatch : ∀ {r} request, (r.server.find fd).isSome = true → P r →
    wlp (startOkResponse fd request) (fun _ => P) { r with server := countRequest r.server }
  flush : ∀ {r}, P r → wlp (flushClientOutput fd) (fun _ => P) r
  clock : ∀ {s budget io} io', P ⟨s, budget, io⟩ → P ⟨s, budget, io'⟩
  put : ∀ {s budget io} {c : ClientConnection} c', s.find fd = some c → c'.socket = c.socket →
    c'.closing = c.closing → c'.outputBuffer = c.outputBuffer → P ⟨s, budget, io⟩ →
    P ⟨s.put fd c', budget, io⟩
  note : ∀ {s budget io} e, isNote e = true → P ⟨s, budget, io⟩ → P ⟨s.log [e], budget, io⟩
  read : ∀ {s budget io c} answer, s.find fd = some c →
    (bytesRead (.read c answer)).length ≤ budget.readRemaining → P ⟨s, budget, io⟩ →
    P ⟨s.log [.read c answer], { budget with
      readRemaining := budget.readRemaining - (bytesRead (.read c answer)).length }, io⟩
  grow : ∀ {s budget io} n, P ⟨s, budget, io⟩ → P ⟨growInflight n s, budget, io⟩
  release : ∀ {s budget io} n, P ⟨s, budget, io⟩ → P ⟨releaseInflightBytes n s, budget, io⟩
  armHeader : ∀ {s budget io} now, P ⟨s, budget, io⟩ → P ⟨armHeaderTimeout fd now s, budget, io⟩
  armBody : ∀ {s budget io} now contentLength, P ⟨s, budget, io⟩ →
    P ⟨armBodyTimeout fd now contentLength s, budget, io⟩
  armIdle : ∀ {s budget io} now, P ⟨s, budget, io⟩ →
    P ⟨armIdleKeepAliveTimeout fd now s, budget, io⟩
  enqueue : ∀ {s budget io}, P ⟨s, budget, io⟩ → P ⟨enqueueReadyConnection fd s, budget, io⟩
  poll : ∀ {s budget io}, P ⟨s, budget, io⟩ → P ⟨updateClientPollMask fd s, budget, io⟩
  close : ∀ {s budget io} reason, reason ≠ .readFailed ∧ reason ≠ .writeFailed →
    P ⟨s, budget, io⟩ → P ⟨closeClientConnection fd reason s, budget, io⟩
  readFailed : ∀ {s budget io c}, s.find fd = some c → P ⟨s, budget, io⟩ →
    P ⟨closeClientConnection fd .readFailed (recordErrorMetric s), budget, io⟩

namespace Keeps

variable {P : Round → Prop}

theorem clocked (hP : Keeps fd P) : Clocked fd P where
  refuse := hP.refuse
  dispatch := hP.dispatch
  flush := hP.flush
  clock h := hP.clock _ h
  put := hP.put
  note := hP.note
  read := hP.read
  grow := hP.grow
  release := hP.release
  armHeader h := hP.armHeader _ h
  armBody contentLength h := hP.armBody _ contentLength h
  armIdle h := hP.armIdle _ h
  enqueue := hP.enqueue
  poll := hP.poll
  close := hP.close
  readFailed := hP.readFailed

theorem continueReadyConnection (hP : Keeps fd P) (h : P r) :
    wlp (continueReadyConnection fd) (fun _ => P) r :=
  hP.clocked.continueReadyConnection h

theorem handleClientEvent (hP : Keeps fd P) (h : P r) (events : EpollEvents) :
    wlp (handleClientEvent fd events) (fun _ => P) r :=
  hP.clocked.handleClientEvent h events

end Keeps

/-- Every part of a handler of `fd` keeps `P`. -/
structure Kept (fd : Fd) (P : Server → Prop) : Prop where
  refuse : ∀ {r : Round} statusCode, statusCode ∈ errorStatuses → P r.server →
    wlp (sendErrorResponseAndClose fd statusCode) (fun _ r' => P r'.server) r
  dispatch : ∀ {r : Round} request, (r.server.find fd).isSome = true → P r.server →
    wlp (startOkResponse fd request) (fun _ r' => P r'.server)
      { r with server := countRequest r.server }
  flush : ∀ {r : Round}, P r.server → wlp (flushClientOutput fd) (fun _ r' => P r'.server) r
  put : ∀ {s : Server} {c : ClientConnection} c', s.find fd = some c → c'.socket = c.socket →
    c'.closing = c.closing → c'.outputBuffer = c.outputBuffer → P s → P (s.put fd c')
  note : ∀ {s : Server} e, isNote e = true → P s → P (s.log [e])
  read : ∀ {s : Server} {c : ClientConnection} answer, s.find fd = some c → P s → P (s.log [.read c answer])
  grow : ∀ {s : Server} n, P s → P (growInflight n s)
  release : ∀ {s : Server} n, P s → P (releaseInflightBytes n s)
  armHeader : ∀ {s : Server} now, P s → P (armHeaderTimeout fd now s)
  armBody : ∀ {s : Server} now contentLength, P s → P (armBodyTimeout fd now contentLength s)
  armIdle : ∀ {s : Server} now, P s → P (armIdleKeepAliveTimeout fd now s)
  enqueue : ∀ {s : Server}, P s → P (enqueueReadyConnection fd s)
  poll : ∀ {s : Server}, P s → P (updateClientPollMask fd s)
  close : ∀ {s : Server} reason, reason ≠ .readFailed ∧ reason ≠ .writeFailed → P s →
    P (closeClientConnection fd reason s)
  readFailed : ∀ {s : Server} {c : ClientConnection}, s.find fd = some c → P s →
    P (closeClientConnection fd .readFailed (recordErrorMetric s))

namespace Kept

variable {P : Server → Prop}

theorem keeps (hP : Kept fd P) : Keeps fd fun r => P r.server where
  refuse := hP.refuse
  dispatch := hP.dispatch
  flush := hP.flush
  clock _ h := h
  put := hP.put
  note := hP.note
  read answer hf _ h := hP.read answer hf h
  grow := hP.grow
  release := hP.release
  armHeader := hP.armHeader
  armBody := hP.armBody
  armIdle := hP.armIdle
  enqueue := hP.enqueue
  poll := hP.poll
  close := hP.close
  readFailed := hP.readFailed

theorem continueReadyConnection (hP : Kept fd P) (h : P r.server) :
    wlp (continueReadyConnection fd) (fun _ r' => P r'.server) r :=
  hP.keeps.continueReadyConnection h

theorem handleClientEvent (hP : Kept fd P) (h : P r.server) (events : EpollEvents) :
    wlp (handleClientEvent fd events) (fun _ r' => P r'.server) r :=
  hP.keeps.handleClientEvent h events

end Kept

end WebServer.Kernel
