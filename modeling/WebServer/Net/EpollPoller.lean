import WebServer.Net.Socket

/-!
# Waiting for events

`EpollPoller::Wait` of `net/epoll_poller.cpp` and the buffer it grows.
-/

namespace WebServer.Net

/-- Answer of `epoll_wait()`. -/
inductive WaitResult (α : Type)
  | reported (events : List α)
  | failed (errno : Errno)
  deriving Repr

def WaitResult.events {α : Type} : WaitResult α → List α
  | .reported events => events
  | .failed _ => []

structure EpollPoller where
  epollFd : Option Fd := none
  /-- `ready_events_.size()`. -/
  readyEvents : Nat := 16
  deriving DecidableEq, Repr

namespace EpollPoller

/-- A buffer that has been filled to the last entry is doubled. -/
def growReadyEventsIfNeeded (readyCount : Nat) (p : EpollPoller) : EpollPoller :=
  if readyCount < p.readyEvents then p else { p with readyEvents := p.readyEvents * 2 }

/-- `Wait(timeout_ms)` when `epoll_wait()` has `answer` for it, of which it hands over as
much as fits into the buffer. -/
def wait {α : Type} (answer : WaitResult α) (p : EpollPoller) :
    Except Fault (List α × EpollPoller) :=
  match p.epollFd with
  | none => .error (.logicError "epoll poller is not open")
  | some _ =>
    match answer with
    | .failed .eintr => .ok ([], p)
    | .failed e => .error (.systemError "epoll_wait() failed" e)
    | .reported events =>
      let events := events.take p.readyEvents
      .ok (events, p.growReadyEventsIfNeeded events.length)

end EpollPoller

end WebServer.Net
