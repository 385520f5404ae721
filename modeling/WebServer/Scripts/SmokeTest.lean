import WebServer.Scripts.MetricsReader

/-!
# The smoke test

The workers of `scripts/sanitizer_smoke.py` and what it waits for in the metrics log.  The
responses are those of `Http/Client.lean`, of which a worker looks at the status code and the
body.
-/

namespace WebServer.Scripts

open WebServer.Net WebServer.Http WebServer.Core

/-! ## Counters -/

/-- The dictionary `counters`. -/
structure Counters where
  acceptTotal : Nat := 0
  requestsTotal : Nat := 0
  rejectTotal : Nat := 0
  reject411Total : Nat := 0
  errorsTotal : Nat := 0
  deriving DecidableEq, Repr

def Counters.items (counters : Counters) : List (Bytes × Int) :=
  [(ascii "accept_total", counters.acceptTotal), (ascii "requests_total", counters.requestsTotal),
    (ascii "reject_total", counters.rejectTotal),
    (ascii "reject_411_total", counters.reject411Total),
    (ascii "errors_total", counters.errorsTotal)]

/-! ## `repr()` of a byte string -/

def hexDigit (n : UInt8) : UInt8 := if n < 10 then 48 + n else 87 + n

def reprByte (quote b : UInt8) : Bytes :=
  if b = quote || b = 92 then [92, b]
  else if b = 9 then ascii "\\t"
  else if b = 10 then ascii "\\n"
  else if b = 13 then ascii "\\r"
  else if b < 32 || 127 ≤ b then ascii "\\x" ++ [hexDigit (b / 16), hexDigit (b % 16)]
  else [b]

def reprBytes (text : Bytes) : Bytes :=
  let quote : UInt8 := if text.contains 39 && !text.contains 34 then 34 else 39
  98 :: quote :: text.flatMap (reprByte quote) ++ [quote]

/-! ## Workers -/

/-- What a worker sends again and again, the response it expects, and what it counts for it. -/
structure Worker where
  /-- The word for it in its error message. -/
  kind : Bytes
  request : Bytes
  statusCode : Nat
  body : Bytes
  count : Counters → Counters

def responseBody : Bytes := ascii "RouteC MVP response\n"

def countAnswer (counters : Counters) : Counters :=
  { counters with requestsTotal := counters.requestsTotal + 1 }

def countRefusal (counters : Counters) : Counters :=
  { counters with
    rejectTotal := counters.rejectTotal + 1
    reject411Total := counters.reject411Total + 1
    errorsTotal := counters.errorsTotal + 1 }

def keepaliveGetWorker : Worker where
  kind := ascii "GET"
  request := ascii "GET / HTTP/1.1\r\nHost: 127.0.0.1\r\nConnection: keep-alive\r\n\r\n"
  statusCode := 200
  body := responseBody
  count := countAnswer

def keepalivePostWorker : Worker where
  kind := ascii "POST"
  request := ascii ("POST / HTTP/1.1\r\nHost: 127.0.0.1\r\nConnection: keep-alive\r\n" ++
    "Content-Length: 5\r\n\r\nhello")
  statusCode := 200
  body := responseBody
  count := countAnswer

def rejectWorker : Worker where
  kind := ascii "reject"
  request := ascii "POST / HTTP/1.1\r\nHost: 127.0.0.1\r\n\r\n"
  statusCode := 411
  body := ascii "Length Required\n"
  count := countRefusal

def workers : List Worker := [keepaliveGetWorker, keepalivePostWorker, rejectWorker]

namespace Worker

/-- A response has been read. -/
def check (w : Worker) (counters : Counters) (reply : Reply) : Except ScriptError Counters :=
  if reply.statusCode ≠ w.statusCode || reply.body ≠ w.body then
    .error (.runtimeError (ascii "unexpected " ++ w.kind ++ ascii " response: status=" ++
      decimal reply.statusCode ++ ascii ", body=" ++ reprBytes reply.body))
  else .ok (w.count counters)

/-- One connection on which these replies are read, one after another. -/
def converse (w : Worker) (counters : Counters) (replies : List Reply) :
    Except ScriptError Counters :=
  replies.foldlM w.check { counters with acceptTotal := counters.acceptTotal + 1 }

end Worker

/-- All connections of all workers. -/
def converseAll (conversations : List (Worker × List Reply)) : Except ScriptError Counters :=
  conversations.foldlM (fun counters talk => talk.1.converse counters talk.2) {}

/-! ## The end of the test -/

/-- The condition of `wait_for_metrics`. -/
def metricsReached (expected : Counters) (latest : Sample) : Bool :=
  latest ≠ [] && (expected.items.all fun item => item.2 ≤ (latest.lookup item.1).getD (-1)) &&
    latest.lookup (ascii "conns_current") = some 0 &&
    latest.lookup (ascii "global_inflight_bytes_current") = some 0

end WebServer.Scripts
