import WebServer.Core.Output

/-!
# Accepting connections

The token bucket per IP, registration and the connection limit of
`core/server.cpp`.  Tokens are exact rationals.  `ip_bucket_lru_` is a list of
nodes with addresses, since the buckets hold iterators into it.
-/

namespace WebServer.Core

open WebServer.Net WebServer.Http

/-! ## Token buckets -/

/-- The part before the last colon. -/
def extractIpFromPeerEndpoint (peerEndpoint : Bytes) : Bytes :=
  match Search.find? [58] peerEndpoint.reverse with
  | none => peerEndpoint
  | some afterColon => peerEndpoint.take (peerEndpoint.length - (afterColon + 1))

/-- `bucket->tokens` and `last_refill` after `RefillIpBucket`. -/
def refillIpBucket (now : Time) (bucket : IpTokenBucketEntry) : IpTokenBucketEntry :=
  if now ≤ bucket.lastRefill then bucket
  else
    let elapsed : ℚ := ((now - bucket.lastRefill : Nat) : ℚ) / 1000000000
    { bucket with
      tokens := min kIpBucketBurst (bucket.tokens + elapsed * kIpBucketRefillPerSecond)
      lastRefill := now }

/-- `ip_bucket_lru_.push_back(ip)`; the new node has the address `nextLruAddress`. -/
def pushBackLru (ip : Bytes) (s : Server) : Server :=
  { s with
    ipBucketLru := s.ipBucketLru ++ [⟨s.nextLruAddress, ip⟩]
    nextLruAddress := s.nextLruAddress + 1 }

def touchIpBucket (ip : Bytes) (bucket : IpTokenBucketEntry) (now : Time) (s : Server) : Server :=
  let s := { s with ipBucketLru := s.ipBucketLru.filter (·.address ≠ bucket.lruIterator) }
  let bucket := { bucket with lruIterator := s.nextLruAddress, lastSeen := now }
  let s := pushBackLru ip s
  { s with ipTokenBuckets := s.ipTokenBuckets.insert ip bucket }

/-- The loop of `CleanupExpiredIpBuckets` on the list and the table. -/
def cleanupLoop (now : Time) :
    List LruNode → (Finmap fun _ : Bytes => IpTokenBucketEntry) →
    List LruNode × (Finmap fun _ : Bytes => IpTokenBucketEntry)
  | [], buckets => ([], buckets)
  | node :: lru, buckets =>
    match buckets.lookup node.ip with
    | none => cleanupLoop now lru buckets
    | some bucket =>
      if now - bucket.lastSeen ≤ kIpBucketTtl then (node :: lru, buckets)
      else cleanupLoop now lru (buckets.erase node.ip)

def cleanupExpiredIpBuckets (now : Time) (s : Server) : Server :=
  let cleaned := cleanupLoop now s.ipBucketLru s.ipTokenBuckets
  { s with ipBucketLru := cleaned.1, ipTokenBuckets := cleaned.2 }

/-- `while (size >= kIpBucketMaxEntries && !lru.empty()) EvictOldestIpBucket();` -/
def evictLoop :
    List LruNode → (Finmap fun _ : Bytes => IpTokenBucketEntry) →
    List LruNode × (Finmap fun _ : Bytes => IpTokenBucketEntry)
  | [], buckets => ([], buckets)
  | node :: lru, buckets =>
    if kIpBucketMaxEntries ≤ buckets.keys.card then evictLoop lru (buckets.erase node.ip)
    else (node :: lru, buckets)

def evictOldestIpBuckets (s : Server) : Server :=
  let evicted := evictLoop s.ipBucketLru s.ipTokenBuckets
  { s with ipBucketLru := evicted.1, ipTokenBuckets := evicted.2 }

/-- The table with a bucket for `ip` that is refilled up to `now`, before a token is taken. -/
def findOrCreateIpBucket (ip : Bytes) (now : Time) (s : Server) : Server :=
  match s.ipTokenBuckets.lookup ip with
  | none =>
    let s := evictOldestIpBuckets s
    let bucket : IpTokenBucketEntry :=
      { tokens := kIpBucketBurst, lastRefill := now, lastSeen := now,
        lruIterator := s.nextLruAddress }
    let s := pushBackLru ip s
    { s with ipTokenBuckets := s.ipTokenBuckets.insert ip bucket }
  | some bucket => touchIpBucket ip (refillIpBucket now bucket) now s

def checkIpRateLimitBeforeRegister (fd : Fd) (peerEndpoint : Bytes) : ServerM Bool := do
  let now ← steadyClockNow
  modifyServer (cleanupExpiredIpBuckets now)
  let ip := extractIpFromPeerEndpoint peerEndpoint
  modifyServer (findOrCreateIpBucket ip now)
  match (← get).server.ipTokenBuckets.lookup ip with
  | none => return false
  | some bucket =>
    if bucket.tokens < 1 then
      modifyServer (recordRejectMetric 429)
      modifyServer recordErrorMetric
      let _ ← writeErrorResponse fd none (errorResponse 429)
      return false
    modifyServer fun s =>
      { s with ipTokenBuckets := s.ipTokenBuckets.insert ip { bucket with tokens := bucket.tokens - 1 } }
    return true

/-! ## Registration -/

def enforceConnectionLimitAfterRegister (fd : Fd) (s : Server) : Server :=
  match s.find fd with
  | none => s
  | some connection =>
    if connection.closing then s
    else if s.activeConnectionCount ≤ kMaxConnections then s
    else
      let m := s.metrics
      let s := { s with
        connRejectTotal := s.connRejectTotal + 1
        metrics := { m with
          connRejectTotal := m.connRejectTotal + 1, rejectTotal := m.rejectTotal + 1 } }
      closeClientConnection fd .connectionLimit (recordErrorMetric s)

/-- `clients_.emplace`: an entry that is already there stays, and the new connection object
is destroyed with its socket. -/
def emplaceClient (fd : Fd) (connection : ClientConnection) (s : Server) : Server :=
  match s.find fd with
  | none => s.put fd connection
  | some _ => s.log [.closedFd fd]

/-- `RegisterAcceptedConnection` once the token bucket has let the socket pass. -/
def registerClient (fd : Fd) (peerEndpoint : Bytes) (now : Time) (s : Server) : Server :=
  let connection : ClientConnection :=
    { socket := some fd, peerEndpoint, connectionId := s.nextConnectionId }
  let events : EpollEvents := { epollin := true, epollrdhup := true }
  let s := { s with nextConnectionId := s.nextConnectionId + 1 }
  let s := { s.log [.epollCtl .add fd events] with poller := s.poller.insert fd events }
  let s := emplaceClient fd connection s
  let s := setActiveConnectionCount (s.activeConnectionCount + 1) s
  enforceConnectionLimitAfterRegister fd (armHeaderTimeout fd now s)

def registerAcceptedConnection (fd : Fd) (peerEndpoint : Bytes) : ServerM Unit := do
  if !(← checkIpRateLimitBeforeRegister fd peerEndpoint) then
    -- the `AcceptedSocket` argument goes out of scope
    modifyServer (·.log [.closedFd fd])
    return
  let now ← steadyClockNow
  modifyServer (registerClient fd peerEndpoint now)

/-- `++metrics_accept_total_`. -/
def countAccept (s : Server) : Server :=
  { s with metrics := { s.metrics with acceptTotal := s.metrics.acceptTotal + 1 } }

/-- The loop of `DrainAcceptQueue` on the answers of `accept4()`.  A descriptor that is
still open is not an answer the kernel can give; the script skips it. -/
def drainAcceptQueue : List AcceptResult → ServerM Unit
  | [] => return
  | .failed .eagain :: _ => return
  | .failed .eintr :: _ => return
  | .failed e :: _ => throw (.systemError "accept4() failed" e)
  | .accepted fd peerEndpoint :: answers => do
    let s := (← get).server
    if (s.find fd).isSome || fd = s.listenFd then
      drainAcceptQueue answers
    else
      modifyServer (·.log [.accepted fd peerEndpoint])
      modifyServer countAccept
      registerAcceptedConnection fd peerEndpoint
      drainAcceptQueue answers

end WebServer.Core
