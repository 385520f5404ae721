import Mathlib.Logic.Basic

/-!
# Sockets

The answers the kernel can give to `read()`, `write()` and `accept4()`, and the
two writing helpers of `net/socket_utils.cpp`.  The kernel is a script: the list
of answers that the calls of one handler will get, in order.  A script that has
run out answers `EAGAIN`.
-/

namespace WebServer.Net

abbrev Bytes := List UInt8

/-- The bytes of a text constant. -/
def ascii (s : String) : Bytes := s.toList.map fun c => UInt8.ofNat c.toNat

/-- File descriptors; `-1`, the empty `UniqueFd`, is `none` where it can occur. -/
abbrev Fd := Nat

/-- `errno` values the code tells apart; on Linux `EWOULDBLOCK` is `EAGAIN`. -/
inductive Errno
  | eagain
  | eintr
  | econnaborted
  | emfile
  | enfile
  | other (code : Nat)
  deriving DecidableEq, Repr

/-- What leaves a function by an exception, or would be undefined or wrap around. -/
inductive Fault
  | systemError (call : String) (errno : Errno)
  | logicError (what : String)
  | outOfRange (what : String)
  /-- An unsigned subtraction below zero. -/
  | sizeWrap (left right : Nat)
  /-- `front()` of an empty `std::deque`. -/
  | emptyDeque
  deriving DecidableEq, Repr

/-- Answer of `read()`; `got []` is the return value 0, the peer's end of file. -/
inductive ReadResult
  | got (data : Bytes)
  | failed (errno : Errno)
  deriving DecidableEq, Repr

/-- Answer of `write()`: the number of bytes taken, or a failure.  Where the peer does not read any
more that is `EPIPE`: the model takes `SIGPIPE` to be ignored, which `main` does not arrange. -/
inductive WriteResult
  | wrote (count : Nat)
  | failed (errno : Errno)
  deriving DecidableEq, Repr

/-- Answer of `accept4()`: the new descriptor with its peer as `ip:port`, or a failure. -/
inductive AcceptResult
  | accepted (fd : Fd) (peerEndpoint : Bytes)
  | failed (errno : Errno)
  deriving DecidableEq, Repr

/-- `read()` returns at most the bytes asked for. -/
def ReadResult.clip (attempt : Nat) : ReadResult → ReadResult
  | .got data => .got (data.take attempt)
  | .failed e => .failed e

/-- `WriteSomeNonBlocking(fd, data)` on a script: the answers it saw, the rest of the
script, and the bytes written (0 for `EAGAIN`) or the error it throws. -/
def writeSomeNonBlocking (data : Bytes) :
    List WriteResult → List WriteResult × List WriteResult × Except Errno Nat
  | [] => ([.failed .eagain], [], .ok 0)
  | .wrote count :: script =>
    -- a return value of 0 is no error of its own and ends in the final throw
    if 0 < min count data.length then
      ([.wrote (min count data.length)], script, .ok (min count data.length))
    else ([.wrote 0], script, .error (.other 0))
  | .failed .eintr :: script =>
    let (answers, script', value) := writeSomeNonBlocking data script
    (.failed .eintr :: answers, script', value)
  | .failed .eagain :: script => ([.failed .eagain], script, .ok 0)
  | .failed e :: script => ([.failed e], script, .error e)

/-- `WriteBestEffort(fd, data)`: every `write()` it makes with the bytes offered, the rest
of the script, and whether all of `data` went out.  Each turn of the loop sends at least
one byte, so `data.length` turns are enough. -/
def writeBestEffort :
    Nat → Bytes → List WriteResult → List (Bytes × WriteResult) × List WriteResult × Bool
  | 0, _, script => ([], script, true)
  | turns + 1, data, script =>
    if data = [] then ([], script, true)
    else
      match writeSomeNonBlocking data script with
      | (answers, script', .ok 0) => (answers.map (data, ·), script', false)
      | (answers, script', .ok (n + 1)) =>
        let (calls, script'', ok) := writeBestEffort turns (data.drop (n + 1)) script'
        (answers.map (data, ·) ++ calls, script'', ok)
      | (answers, script', .error _) => (answers.map (data, ·), script', false)

end WebServer.Net
