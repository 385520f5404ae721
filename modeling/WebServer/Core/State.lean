import Mathlib.Algebra.Order.Field.Rat
import Mathlib.Data.Finmap
import WebServer.Net.DynamicBuffer
import WebServer.Http.Request

/-!
# The state of the server

`ClientConnection`, `Server` and the constants of `core/server.h` and
`core/server.cpp`.  Times are nanoseconds of the steady clock.  Counters and
identifiers are natural numbers: they do not wrap.

The last field of `Server`, `trace`, is not in the source.  It is a history of the
system calls and of the program points a property can speak about, each with the
connection as it was just before.
-/

namespace WebServer.Core

open WebServer.Net WebServer.Http

/-! ## Constants -/

def kReadChunkSize : Nat := 4096
def kMaxHeaderBytes : Nat := 8192
def kStaticOkBody : Bytes := ascii "RouteC MVP response\n"
def kMaxRequestsPerRound : Nat := 5
def kMaxReadBytesPerEvent : Nat := 256 * 1024
def kMaxWriteBytesPerEvent : Nat := 256 * 1024
def kMaxBodyBytes : Nat := 8 * 1024 * 1024
def kMaxInflightBytes : Nat := 512 * 1024 * 1024
def kIpBucketBurst : ℚ := 200
def kIpBucketRefillPerSecond : ℚ := 50
def kIpBucketMaxEntries : Nat := 100000
def kMaxConnections : Nat := 200000

/-- A point of the steady clock, in nanoseconds. -/
abbrev Time := Nat

def seconds (n : Nat) : Time := n * 1000000000

def kIpBucketTtl : Time := seconds 600
def kHeaderTimeout : Time := seconds 10
def kBodyTimeout : Time := seconds 120
def kIdleKeepAliveTimeout : Time := seconds 60

/-- `now + min(120s, max(30s, Content-Length / 65536Bps))`, rounded down to milliseconds.
The source computes in `double`; dividing by `65536` is exact there, and so is every
value below the clamp at 120 s. -/
def calculateBodyReceiveDeadline (now : Time) (contentLength : Nat) : Time :=
  let milliseconds := min (120 * 65536) (max (30 * 65536) contentLength) * 1000 / 65536
  min (now + milliseconds * 1000000) (now + kBodyTimeout)

/-! ## Timers -/

inductive TimerKind
  | kHeader
  | kBody
  | kIdleKeepAlive
  deriving DecidableEq, Repr

structure TimerEntry where
  deadline : Time
  fd : Fd
  connectionId : Nat
  generation : Nat
  kind : TimerKind
  deriving DecidableEq, Repr

/-- `*_timeout_armed` and `*_timeout_generation` of one kind. -/
structure TimerSlot where
  armed : Bool := false
  generation : Nat := 0
  deriving DecidableEq, Repr

/-! ## Connections -/

structure ClientConnection where
  socket : Option Fd
  peerEndpoint : Bytes
  inputBuffer : DynamicBuffer := {}
  outputBuffer : Bytes := []
  closeAfterWrite : Bool := false
  inReadyQueue : Bool := false
  readyForRead : Bool := false
  closing : Bool := false
  connectionId : Nat := 0
  keepAliveEnabled : Bool := false
  waitingForRequestBody : Bool := false
  pendingRequest : HttpRequest := {}
  pendingBodyBytesTotal : Nat := 0
  pendingBodyBytesRemaining : Nat := 0
  /-- `header_timeout_*`, `body_timeout_*` and `idle_timeout_*`. -/
  timeout : TimerKind → TimerSlot := fun _ => {}

structure IpTokenBucketEntry where
  tokens : ℚ := 0
  lastRefill : Time := 0
  lastSeen : Time := 0
  /-- The node of `ip_bucket_lru_` it points to. -/
  lruIterator : Nat
  deriving DecidableEq, Repr

/-- A node of `ip_bucket_lru_`; its address is what iterators hold. -/
structure LruNode where
  address : Nat
  ip : Bytes
  deriving DecidableEq, Repr

/-- The `EPOLL*` bits the code uses. -/
structure EpollEvents where
  epollin : Bool := false
  epollout : Bool := false
  epollerr : Bool := false
  epollhup : Bool := false
  epollrdhup : Bool := false
  deriving DecidableEq, Repr

structure PollEvent where
  fd : Fd
  events : EpollEvents
  deriving DecidableEq, Repr

structure Metrics where
  acceptTotal : Nat := 0
  requestsTotal : Nat := 0
  rejectTotal : Nat := 0
  errorsTotal : Nat := 0
  reject411Total : Nat := 0
  reject413Total : Nat := 0
  reject429Total : Nat := 0
  reject431Total : Nat := 0
  reject501Total : Nat := 0
  reject503Total : Nat := 0
  connRejectTotal : Nat := 0
  timeoutCloseTotal : Nat := 0
  connsCurrent : Nat := 0
  globalInflightBytesCurrent : Nat := 0
  deriving DecidableEq, Repr

/-! ## History -/

/-- Which of the two writing paths a `write()` belongs to. -/
inductive Writer
  /-- `StartOkResponse` and `FlushClientOutput`. -/
  | response
  /-- `WriteBestEffort`. -/
  | bestEffort
  deriving DecidableEq, Repr

inductive EpollOp
  | add
  | mod
  | del
  deriving DecidableEq, Repr

/-- The buffer operation a reservation is made for. -/
inductive Growth
  | inputAppend
  | outputAppend
  | outputReplace
  deriving DecidableEq, Repr

/-- The reasons passed to `CloseClientConnection`. -/
inductive CloseReason
  | peerHangup
  | peerClosed
  | readFailed
  | writeFailed
  | responseFullySent
  | allHandled
  | connectionLimit
  | timedOut (kind : TimerKind)
  | errorResponse (statusCode : Nat)
  deriving DecidableEq, Repr

inductive Event
  | accepted (fd : Fd) (peerEndpoint : Bytes)
  | epollCtl (op : EpollOp) (fd : Fd) (events : EpollEvents)
  | read (c : ClientConnection) (result : ReadResult)
  | write (writer : Writer) (fd : Fd) (life : Option Nat) (data : Bytes) (result : WriteResult)
  | closedFd (fd : Fd)
  /-- A timer was pushed for the connection with this id. -/
  | armed (life : Nat) (kind : TimerKind) (now deadline : Time)
  /-- `PopNextHeader` took this block from the buffer. -/
  | popped (c : ClientConnection) (header : Bytes)
  /-- `CheckHeaderLimit` was asked. -/
  | limitChecked (c : ClientConnection)
  /-- `TryReserveInflightBytes` was asked when `inflight` bytes were in use. -/
  | reserved (c : Option ClientConnection) (growth : Growth) (addBytes inflight : Nat)
  /-- `ReleaseInflightBytes` was called when `inflight` bytes were in use. -/
  | released (amount inflight : Nat)
  | bodyBegun (c : ClientConnection) (request : HttpRequest)
  /-- `StartOkResponse` began to answer this request. -/
  | dispatched (c : ClientConnection) (request : HttpRequest) (keepAlive : Bool)
  | rejected (c : ClientConnection) (statusCode : Nat)
  /-- `ProcessBufferedHeaders` left its loop. -/
  | settled (c : ClientConnection)
  /-- `FlushClientOutput` found the output buffer empty. -/
  | drained (c : ClientConnection)
  | closed (c : ClientConnection) (reason : CloseReason)

/-! ## The server -/

structure Server where
  listenFd : Fd
  /-- The interest list of `poller_`. -/
  poller : Finmap fun _ : Fd => EpollEvents
  readyQueue : List Fd := []
  pendingCloseQueue : List ClientConnection := []
  timerHeap : List TimerEntry := []
  clients : Finmap fun _ : Fd => ClientConnection := ∅
  activeConnectionCount : Nat := 0
  connRejectTotal : Nat := 0
  nextConnectionId : Nat := 1
  globalInflightBytes : Nat := 0
  ipBucketLru : List LruNode := []
  /-- The address the next node of `ip_bucket_lru_` gets. -/
  nextLruAddress : Nat := 0
  ipTokenBuckets : Finmap fun _ : Bytes => IpTokenBucketEntry := ∅
  metrics : Metrics := {}
  trace : List Event := []

/-- The server after `Initialize()`: nobody is connected, the listening socket is watched. -/
def initializeServer (listenFd : Fd) : Server where
  listenFd := listenFd
  poller := Finmap.singleton listenFd { epollin := true }

namespace Server

/-- Bytes a connection holds in its two buffers. -/
def buffered (c : ClientConnection) : Nat := c.inputBuffer.size + c.outputBuffer.length

/-- `clients_.find(fd)`. -/
def find (s : Server) (fd : Fd) : Option ClientConnection := s.clients.lookup fd

/-- Store `c` as the connection of `fd`. -/
def put (s : Server) (fd : Fd) (c : ClientConnection) : Server :=
  { s with clients := s.clients.insert fd c }

/-- Change the connection of `fd` in place. -/
def update (s : Server) (fd : Fd) (f : ClientConnection → ClientConnection) : Server :=
  match s.find fd with
  | none => s
  | some c => s.put fd (f c)

/-- Record what happens. -/
def log (s : Server) (events : List Event) : Server := { s with trace := s.trace ++ events }

end Server

end WebServer.Core
