import WebServer.Core.Loop

/-!
# Starting and stopping

`UniqueFd`, `SetNonBlocking` and `CreateListenSocket` of `net/socket_utils.cpp`, `Open` and
`Control` of `net/epoll_poller.cpp`, and `Initialize` and the destructor of the server.  An
exception leaves behind what has been done, and the destructors it passes are run.
-/

namespace WebServer.Core

open WebServer.Net WebServer.Http

/-! ## System calls -/

/-- `sockaddr_in`. -/
structure SockAddr where
  port : Nat
  address : Nat := 0
  deriving DecidableEq, Repr

/-- The calls of startup and shutdown; `none` is the descriptor -1. -/
inductive SysCall
  | socket (fd : Fd)
  | setReuseAddr (fd : Option Fd)
  | bind (fd : Option Fd) (addr : SockAddr)
  | listen (fd : Option Fd) (backlog : Nat)
  | getFlags (fd : Option Fd)
  | setFlags (fd : Option Fd) (flags : Nat)
  | epollCreate (fd : Fd)
  | epollCtl (op : EpollOp) (epollFd : Fd) (fd : Option Fd) (events : EpollEvents)
  | close (fd : Fd)
  deriving DecidableEq, Repr

/-- What `main` reports behind `fatal: `. -/
inductive Exception
  | systemError (message : String) (errno : Errno)
  | invalidArgument (what : Bytes)
  | outOfRange (what : Bytes)
  | runtimeError (what : Bytes)
  | logicError (what : String)
  deriving DecidableEq, Repr

/-- The answers of the environment, in the order of the questions. -/
structure Answers where
  socket : Except Errno Fd
  setReuseAddr : Option Errno := none
  bind : Option Errno := none
  listen : Option Errno := none
  getFlags : Except Errno Nat := .ok 2
  setFlags : Option Errno := none
  epollCreate : Except Errno Fd
  /-- `gethostname()`, the date of the day and the working directory. -/
  hostname : Option Bytes := none
  date : Bytes := ascii "20260101"
  currentPath : Except Errno Bytes := .ok (ascii "/")
  createDirectories : Option Errno := none
  logOpens : Bool := true
  /-- The clock when the metrics log has been opened. -/
  now : Time := 0
  epollAdd : Option Errno := none

/-! ## Descriptors that own -/

structure UniqueFd where
  fd : Option Fd := none
  deriving DecidableEq, Repr

namespace UniqueFd

/-- `release()`: the descriptor and what is left. -/
def release (u : UniqueFd) : Option Fd × UniqueFd := (u.fd, {})

/-- `reset(fd)`: what it closes and what it holds then. -/
def reset (fd : Option Fd) (u : UniqueFd) : List SysCall × UniqueFd := (u.fd.toList.map .close, ⟨fd⟩)

/-- `~UniqueFd()`. -/
def destroy (u : UniqueFd) : List SysCall := (u.reset none).1

/-- `operator=(UniqueFd&&)`: what it closes, what it holds then and what is left of the other. -/
def moveAssign (other u : UniqueFd) : List SysCall × UniqueFd × UniqueFd :=
  let (fd, other) := other.release
  let (calls, u) := u.reset fd
  (calls, u, other)

end UniqueFd

/-! ## The process -/

/-- What startup has done so far. -/
structure Process where
  calls : List SysCall := []
  /-- `listen_fd_`. -/
  listenFd : UniqueFd := {}
  poller : EpollPoller := {}
  metricsLogPath : Bytes := []
  log : MetricsLog := {}

/-- A function that may throw. -/
abbrev Sys := ExceptT Exception (StateM Process)

namespace Sys

def call (calls : List SysCall) : Sys Unit := modify fun p => { p with calls := p.calls ++ calls }

/-- `if (... != 0) ThrowLastSystemError(message)`. -/
def check (message : String) : Option Errno → Sys Unit
  | none => pure ()
  | some errno => throw (.systemError message errno)

/-- A local `UniqueFd` is destroyed by an exception. -/
def owning {α : Type} (u : UniqueFd) (body : Sys α) : Sys α :=
  tryCatch body fun e => do
    call u.destroy
    throw e

end Sys

open Sys

/-! ## Sockets -/

/-- One number of a dotted address, as `inet_pton()` reads it. -/
def readOctet (text : Bytes) : Option Nat :=
  if text ≠ [] && text.all isDigit && (text.length = 1 || text.head? ≠ some 48) &&
      digitsValue text ≤ 255 then some (digitsValue text)
  else none

/-- `inet_pton(AF_INET, host)`. -/
def inetPton (host : Bytes) : Option Nat :=
  match (host.splitOn 46).mapM readOctet with
  | some [a, b, c, d] => some (((a * 256 + b) * 256 + c) * 256 + d)
  | _ => none

def buildSockAddr (host : Bytes) (port : Nat) : Except Exception SockAddr :=
  if host = [] || host = ascii "0.0.0.0" then .ok { port }
  else
    match inetPton host with
    | none => .error (.invalidArgument (ascii "only IPv4 addresses are supported in Week1 Day1"))
    | some address => .ok { port, address }

def setNonBlocking (fd : Option Fd) (a : Answers) : Sys Unit := do
  call [.getFlags fd]
  match a.getFlags with
  | .error errno => throw (.systemError "fcntl(F_GETFL) failed" errno)
  | .ok flags =>
    -- `O_NONBLOCK`
    call [.setFlags fd (flags ||| 2048)]
    check "fcntl(F_SETFL, O_NONBLOCK) failed" a.setFlags

def createListenSocket (host : Bytes) (port backlog : Nat) (a : Answers) : Sys UniqueFd :=
  match a.socket with
  | .error errno => throw (.systemError "socket() failed" errno)
  | .ok fd => do
    call [.socket fd]
    let listenFd : UniqueFd := ⟨some fd⟩
    owning listenFd do
      call [.setReuseAddr listenFd.fd]
      check "setsockopt(SO_REUSEADDR) failed" a.setReuseAddr
      let addr ← ExceptT.mk (pure (buildSockAddr host port))
      call [.bind listenFd.fd addr]
      check "bind() failed" a.bind
      call [.listen listenFd.fd backlog]
      check "listen() failed" a.listen
      return listenFd

/-! ## The poller -/

/-- `EpollPoller::Open`. -/
def openPoller (a : Answers) : Sys Unit := do
  if (← get).poller.epollFd.isSome then return
  match a.epollCreate with
  | .error errno => throw (.systemError "epoll_create1() failed" errno)
  | .ok fd =>
    call [.epollCreate fd]
    modify fun p => { p with poller := { p.poller with epollFd := some fd } }

/-- `EpollPoller::Control`, with the answer of `epoll_ctl()`. -/
def pollerControl (op : EpollOp) (fd : Option Fd) (events : EpollEvents) (answer : Option Errno) :
    Sys Unit := do
  match (← get).poller.epollFd with
  | none => throw (.logicError "epoll poller is not open")
  | some epollFd =>
    call [.epollCtl op epollFd fd events]
    check "epoll_ctl() failed" answer

/-! ## The metrics log -/

def isMachineNameByte (b : UInt8) : Bool :=
  (97 ≤ b && b ≤ 122) || (65 ≤ b && b ≤ 90) || isDigit b || b = 45 || b = 95

def sanitizeMachineName (text : Bytes) : Bytes :=
  text.map fun b => if isMachineNameByte b then b else 95

def buildMetricsRunDirectoryName (a : Answers) : Bytes :=
  let machine :=
    match a.hostname with
    | none | some [] => ascii "unknown"
    | some hostname => hostname
  a.date ++ 95 :: sanitizeMachineName machine

/-- `path / name` of a relative name. -/
def joinPath (path name : Bytes) : Bytes :=
  if path.getLast? = some 47 then path ++ name else path ++ 47 :: name

def metricsDir (currentPath : Bytes) (a : Answers) : Bytes :=
  joinPath (joinPath (joinPath currentPath (ascii "results")) (ascii "webserver"))
    (buildMetricsRunDirectoryName a)

/-- `InitializeMetricsLogging`; `current_path()` and `create_directories()` throw exceptions of the
file system. -/
def openMetricsLog (a : Answers) : Sys Unit :=
  match a.currentPath with
  | .error errno => throw (.systemError "filesystem error: cannot get current path" errno)
  | .ok currentPath => do
    let metricsLogPath := joinPath (metricsDir currentPath a) (ascii "metrics.log")
    check "filesystem error: cannot create directories" a.createDirectories
    modify fun p => { p with metricsLogPath }
    if !a.logOpens then
      throw (.runtimeError (ascii "failed to open metrics log: " ++ metricsLogPath))
    modify fun p => { p with log := initializeMetricsLogging a.now }

/-! ## The server -/

/-- `Server::Initialize`. -/
def startServer (host : Bytes) (port backlog : Nat) (a : Answers) : Sys Unit := do
  let created ← createListenSocket host port backlog a
  let (calls, listenFd, created) := created.moveAssign (← get).listenFd
  call (calls ++ created.destroy)
  modify fun p => { p with listenFd }
  setNonBlocking (← get).listenFd.fd a
  openPoller a
  openMetricsLog a
  pollerControl .add (← get).listenFd.fd { epollin := true } a.epollAdd

/-- What `~Server()` calls while `sockets` are those of `clients_`, in the order in which these are
destroyed. -/
def Process.destructor (sockets : List Fd) (p : Process) : List SysCall :=
  sockets.map .close ++ (UniqueFd.mk p.poller.epollFd).destroy ++ p.listenFd.destroy

end WebServer.Core
