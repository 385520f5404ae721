import WebServer.Core.Admission

/-!
# Accepted sockets at the token buckets

`CheckIpRateLimitBeforeRegister` called for one accepted socket after another.
Nothing else in the server changes the buckets, so a sequence of calls is all they
ever see.
-/

namespace WebServer.Core

open WebServer.Net

/-- An accepted socket, what the clock shows when it is checked, and what it answers to
`write()`. -/
structure Arrival where
  fd : Fd
  peerEndpoint : Bytes
  now : Time
  writes : List WriteResult := []

def Arrival.ip (a : Arrival) : Bytes := extractIpFromPeerEndpoint a.peerEndpoint

/-- One call: whether the socket may be registered, and the server afterwards. -/
def checkArrival (a : Arrival) (s : Server) : Except Fault (Bool × Server) :=
  (checkIpRateLimitBeforeRegister a.fd a.peerEndpoint
    { server := s, io := { now := a.now, writes := a.writes } }).map
      fun result => (result.1, result.2.server)

/-- One call after another: all answers, and the server in the end. -/
def checkArrivals : List Arrival → Server → Except Fault (List Bool × Server)
  | [], s => .ok ([], s)
  | a :: arrivals, s => do
    let (answer, s) ← checkArrival a s
    let (answers, s) ← checkArrivals arrivals s
    return (answer :: answers, s)

/-- The clock is steady. -/
def Chronological (arrivals : List Arrival) : Prop :=
  arrivals.Pairwise fun a a' => a.now ≤ a'.now

end WebServer.Core
