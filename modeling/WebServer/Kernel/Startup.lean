import WebServer.Core.Startup
import WebServer.Kernel.Table

/-!
# Startup, call by call

What every stage of `Initialize` does to the process: which exception it throws, and what the
kernel has been asked by then.
-/

namespace WebServer.Kernel

open WebServer.Net WebServer.Http WebServer.Core Descriptors Sys

variable {α β : Type} {host : Bytes} {port backlog : Nat} {a : Answers} {fd epollFd : Fd}
  {p : Process} {used : List SysCall}

/-! ## Running -/

/-- What comes out of a function that may throw, and the process behind it. -/
def exec (x : Sys α) (p : Process) : Except Exception α × Process := x.run.run p

/-- An exception, or nothing to report. -/
def raised : Option Exception → Except Exception Unit
  | none => .ok ()
  | some e => .error e

theorem exec_bind (x : Sys α) (f : α → Sys β) (p : Process) :
    exec (x >>= f) p =
      match exec x p with
      | (.ok value, p) => exec (f value) p
      | (.error e, p) => (.error e, p) := by
  show StateT.run ((x >>= f).run) p = _
  rw [ExceptT.run_bind, StateT.run_bind]
  unfold exec
  cases StateT.run x.run p with
  | mk result p =>
    cases result with
    | ok value => rfl
    | error e => rfl

@[simp] theorem exec_pure (value : α) (p : Process) : exec (pure value) p = (.ok value, p) := rfl

@[simp] theorem exec_throw (e : Exception) (p : Process) :
    exec (throw e : Sys α) p = (.error e, p) := rfl

@[simp] theorem exec_get (p : Process) : exec (get : Sys Process) p = (.ok p, p) := rfl

@[simp] theorem exec_modify (f : Process → Process) (p : Process) :
    exec (modify f : Sys Unit) p = (.ok (), f p) := rfl

@[simp] theorem exec_call (calls : List SysCall) (p : Process) :
    exec (call calls) p = (.ok (), { p with calls := p.calls ++ calls }) := rfl

@[simp] theorem exec_check (message : String) (answer : Option Errno) (p : Process) :
    exec (check message answer) p = (raised (answer.map (.systemError message)), p) := by
  cases answer <;> rfl

@[simp] theorem exec_mk (result : Except Exception α) (p : Process) :
    exec (ExceptT.mk (pure result)) p = (result, p) := rfl

/-- The owner is destroyed when the exception passes. -/
theorem exec_owning (u : UniqueFd) (body : Sys α) (p : Process) :
    exec (owning u body) p =
      match exec body p with
      | (.ok value, p) => (.ok value, p)
      | (.error e, p) => (.error e, { p with calls := p.calls ++ u.destroy }) := by
  show StateT.run (ExceptT.run (tryCatch body _)) p = _
  rw [ExceptT.run_tryCatch, StateT.run_bind]
  unfold exec
  cases StateT.run body.run p with
  | mk result p =>
    cases result with
    | ok value => rfl
    | error e => rfl

/-! ## What can go wrong -/

def thrown : Except Exception α → Option Exception
  | .error e => some e
  | .ok _ => none

/-- The first thing that goes wrong in `CreateListenSocket` once there is a socket. -/
def listenFailure (host : Bytes) (port : Nat) (a : Answers) : Option Exception :=
  (a.setReuseAddr.map (.systemError "setsockopt(SO_REUSEADDR) failed")).or
    ((thrown (buildSockAddr host port)).or
      ((a.bind.map (.systemError "bind() failed")).or (a.listen.map (.systemError "listen() failed"))))

def nonBlockingFailure (a : Answers) : Option Exception :=
  match a.getFlags with
  | .error errno => some (.systemError "fcntl(F_GETFL) failed" errno)
  | .ok _ => a.setFlags.map (.systemError "fcntl(F_SETFL, O_NONBLOCK) failed")

def logFailure (a : Answers) : Option Exception :=
  match a.currentPath with
  | .error errno => some (.systemError "filesystem error: cannot get current path" errno)
  | .ok currentPath =>
    (a.createDirectories.map (.systemError "filesystem error: cannot create directories")).or
      (if a.logOpens then none
        else some (.runtimeError (ascii "failed to open metrics log: " ++
          joinPath (metricsDir currentPath a) (ascii "metrics.log"))))

/-! ## Stages -/

/-- What a call of startup asks of the kernel's table. -/
def startCalls : SysCall → List KernelCall
  | .socket fd | .epollCreate fd => [.opened fd]
  | .setReuseAddr fd | .bind fd _ | .listen fd _ | .getFlags fd | .setFlags fd _ => [.use fd]
  | .epollCtl _ _ none _ => [.use none]
  | .epollCtl .add epollFd (some fd) events => [.add epollFd fd events]
  | .epollCtl .mod epollFd (some fd) events => [.modify epollFd fd events]
  | .epollCtl .del epollFd (some fd) _ => [.delete epollFd fd]
  | .close fd => [.close fd]

/-- Calls on `fd` that leave the table alone. -/
def Uses (fd : Fd) (calls : List SysCall) : Prop :=
  ∀ call ∈ calls, startCalls call = [.use (some fd)]

/-- The process when more calls have been made. -/
def after (p : Process) (calls : List SysCall) : Process := { p with calls := p.calls ++ calls }

theorem after_after (p : Process) (calls more : List SysCall) :
    after (after p calls) more = after p (calls ++ more) := by
  simp [after]

/-- Of one call behind another. -/
theorem exec_call_bind (calls : List SysCall) (f : Unit → Sys α) (p : Process) :
    exec (call calls >>= f) p = exec (f ()) (after p calls) := exec_bind ..

/-- Of a call whose answer is checked. -/
theorem exec_check_bind (message : String) (answer : Option Errno) (f : Unit → Sys α)
    (p : Process) :
    exec (check message answer >>= f) p =
      match answer with
      | none => exec (f ()) p
      | some errno => (.error (.systemError message errno), p) := by
  rw [exec_bind, exec_check]
  cases answer <;> rfl

theorem exec_mk_bind (result : Except Exception β) (f : β → Sys α) (p : Process) :
    exec (ExceptT.mk (pure result) >>= f) p =
      match result with
      | .ok value => exec (f value) p
      | .error e => (.error e, p) := by
  rw [exec_bind, exec_mk]
  cases result <;> rfl

theorem destroy_some (fd : Fd) : (UniqueFd.mk (some fd)).destroy = [.close fd] := rfl

/-- A socket that is not returned has been closed. -/
theorem createListenSocket_exec (hsocket : a.socket = .ok fd) (backlog : Nat) (p : Process) :
    ∃ used, Uses fd used ∧ exec (createListenSocket host port backlog a) p =
      match listenFailure host port a with
      | none => (.ok ⟨some fd⟩, after p (.socket fd :: used))
      | some e => (.error e, after p (.socket fd :: used ++ [.close fd])) := by
  unfold createListenSocket listenFailure
  rw [hsocket]
  simp only [exec_call_bind, exec_owning, exec_check_bind, exec_mk_bind]
  cases a.setReuseAddr with
  | some errno =>
    refine ⟨[.setReuseAddr (some fd)], by simp [Uses, startCalls], ?_⟩
    simp [after, destroy_some]
  | none =>
    cases buildSockAddr host port with
    | error e =>
      refine ⟨[.setReuseAddr (some fd)], by simp [Uses, startCalls], ?_⟩
      simp [thrown, after, destroy_some]
    | ok addr =>
      cases a.bind with
      | some errno =>
        refine ⟨[.setReuseAddr (some fd), .bind (some fd) addr], by simp [Uses, startCalls], ?_⟩
        simp [thrown, after, destroy_some]
      | none =>
        refine ⟨[.setReuseAddr (some fd), .bind (some fd) addr, .listen (some fd) backlog],
          by simp [Uses, startCalls], ?_⟩
        cases a.listen with
        | some errno => simp [thrown, after, destroy_some]
        | none => simp [thrown, after]

theorem setNonBlocking_exec (fd : Fd) (a : Answers) (p : Process) :
    ∃ used, Uses fd used ∧
      exec (setNonBlocking (some fd) a) p = (raised (nonBlockingFailure a), after p used) := by
  unfold setNonBlocking nonBlockingFailure
  rw [exec_call_bind]
  cases a.getFlags with
  | error errno => exact ⟨[.getFlags (some fd)], by simp [Uses, startCalls], rfl⟩
  | ok flags =>
    refine ⟨[.getFlags (some fd), .setFlags (some fd) (flags ||| 2048)],
      by simp [Uses, startCalls], ?_⟩
    dsimp only
    rw [exec_call_bind, exec_check, after_after]
    rfl

theorem openPoller_exec (a : Answers) (hclosed : p.poller.epollFd = none) :
    exec (openPoller a) p =
      match a.epollCreate with
      | .error errno => (.error (.systemError "epoll_create1() failed" errno), p)
      | .ok epollFd => (.ok (), { after p [.epollCreate epollFd] with
          poller := { p.poller with epollFd := some epollFd } }) := by
  unfold openPoller
  rw [exec_bind, exec_get]
  dsimp only
  rw [hclosed]
  cases a.epollCreate with
  | error errno => rfl
  | ok epollFd => rfl

theorem openMetricsLog_exec (a : Answers) (p : Process) :
    ∃ path log, exec (openMetricsLog a) p =
        (raised (logFailure a), { p with metricsLogPath := path, log := log }) ∧
      (logFailure a = none → log = initializeMetricsLogging a.now) := by
  unfold openMetricsLog logFailure
  cases a.currentPath with
  | error errno => exact ⟨p.metricsLogPath, p.log, rfl, nofun⟩
  | ok currentPath =>
    dsimp only
    rw [exec_check_bind]
    cases a.createDirectories with
    | some errno => exact ⟨p.metricsLogPath, p.log, rfl, nofun⟩
    | none =>
      cases hopens : a.logOpens with
      | false => exact ⟨_, p.log, rfl, nofun⟩
      | true => exact ⟨_, _, rfl, fun _ => rfl⟩

theorem pollerControl_exec (hopen : p.poller.epollFd = some epollFd) (op : EpollOp) (fd : Option Fd)
    (events : EpollEvents) (answer : Option Errno) :
    exec (pollerControl op fd events answer) p =
      (raised (answer.map (.systemError "epoll_ctl() failed")),
        after p [.epollCtl op epollFd fd events]) := by
  unfold pollerControl
  rw [exec_bind, exec_get]
  dsimp only
  rw [hopen]
  dsimp only
  rw [exec_call_bind, exec_check]

/-! ## Initialize -/

/-- How far startup has come, and why not further. -/
inductive Started (a : Answers) : Option Exception → Process → Prop
  | failed {p : Process} (e : Exception) (fd : Fd) (used : List SysCall) (hused : Uses fd used)
      (hcalls : p.calls = [] ∨ p.calls = .socket fd :: used ++ [.close fd])
      (hlisten : p.listenFd.fd = none) (hpoll : p.poller.epollFd = none) : Started a (some e) p
  | listening {p : Process} (e : Exception) (fd : Fd) (used : List SysCall) (hused : Uses fd used)
      (hcalls : p.calls = .socket fd :: used) (hlisten : p.listenFd.fd = some fd)
      (hpoll : p.poller.epollFd = none) : Started a (some e) p
  | polling {p : Process} (e : Exception) (fd epollFd : Fd) (used : List SysCall)
      (hsocket : a.socket = .ok fd) (hcreate : a.epollCreate = .ok epollFd) (hused : Uses fd used)
      (hcalls : p.calls = .socket fd :: used ++ [.epollCreate epollFd])
      (hlisten : p.listenFd.fd = some fd) (hpoll : p.poller.epollFd = some epollFd) :
      Started a (some e) p
  | watching {p : Process} (failure : Option Exception) (fd epollFd : Fd) (used : List SysCall)
      (hsocket : a.socket = .ok fd) (hcreate : a.epollCreate = .ok epollFd) (hused : Uses fd used)
      (hcalls : p.calls = .socket fd :: used ++ [.epollCreate epollFd,
        .epollCtl .add epollFd (some fd) { epollin := true }])
      (hlisten : p.listenFd.fd = some fd) (hpoll : p.poller.epollFd = some epollFd)
      (hlog : p.log = initializeMetricsLogging a.now) : Started a failure p

theorem Uses.append {used used' : List SysCall} (h : Uses fd used) (h' : Uses fd used') :
    Uses fd (used ++ used') := by
  intro call hcall
  rcases List.mem_append.mp hcall with hcall | hcall
  · exact h call hcall
  · exact h' call hcall

/-- What goes wrong behind `CreateListenSocket`. -/
def setupFailure (a : Answers) : Option Exception :=
  (nonBlockingFailure a).or
    (match a.epollCreate with
    | .error errno => some (.systemError "epoll_create1() failed" errno)
    | .ok _ => (logFailure a).or (a.epollAdd.map (.systemError "epoll_ctl() failed")))

theorem setup_exec (hsocket : a.socket = .ok fd) (hlisten : p.listenFd = ⟨some fd⟩)
    (hpoll : p.poller.epollFd = none) (hcalls : p.calls = .socket fd :: used)
    (hused : Uses fd used) :
    ∃ p', exec (do
        setNonBlocking (some fd) a
        openPoller a
        openMetricsLog a
        pollerControl .add (← get).listenFd.fd { epollin := true } a.epollAdd) p =
      (raised (setupFailure a), p') ∧ Started a (setupFailure a) p' := by
  unfold setupFailure
  obtain ⟨used', hused', hnon⟩ := setNonBlocking_exec fd a p
  have hboth := hused.append hused'
  have hcalls' : (after p used').calls = .socket fd :: (used ++ used') := by
    rw [after, hcalls]
    rfl
  rw [exec_bind, hnon]
  cases nonBlockingFailure a with
  | some e =>
    exact ⟨_, rfl, .listening e fd _ hboth hcalls' (congrArg UniqueFd.fd hlisten) hpoll⟩
  | none =>
    dsimp only [raised]
    rw [exec_bind, openPoller_exec a (by exact hpoll)]
    cases hcreate : a.epollCreate with
    | error errno =>
      exact ⟨_, rfl, .listening _ fd _ hboth hcalls' (congrArg UniqueFd.fd hlisten) hpoll⟩
    | ok epollFd =>
      dsimp only
      set polling : Process := { after (after p used') [.epollCreate epollFd] with
        poller := { (after p used').poller with epollFd := some epollFd } } with hpolling
      have hcalls'' : polling.calls = .socket fd :: (used ++ used') ++ [.epollCreate epollFd] := by
        rw [hpolling]
        exact congrArg (· ++ _) hcalls'
      obtain ⟨path, log, hexec, hlog⟩ := openMetricsLog_exec a polling
      rw [exec_bind, hexec]
      cases hfailure : logFailure a with
      | some e =>
        exact ⟨_, rfl, .polling e fd epollFd _ hsocket hcreate hboth hcalls''
          (congrArg UniqueFd.fd hlisten) rfl⟩
      | none =>
        dsimp only [raised]
        rw [exec_bind, exec_get]
        dsimp only
        have hopen : ({ polling with metricsLogPath := path, log := log } : Process).poller.epollFd =
          some epollFd := rfl
        rw [pollerControl_exec hopen]
        refine ⟨_, rfl, .watching _ fd epollFd _ hsocket hcreate hboth ?_
          (congrArg UniqueFd.fd hlisten) rfl (hlog hfailure)⟩
        have hfd : polling.listenFd.fd = some fd := congrArg UniqueFd.fd hlisten
        rw [hfd]
        exact (congrArg (· ++ _) hcalls'').trans (List.append_assoc ..)

/-- The first thing that goes wrong in `Initialize`. -/
def startFailure (host : Bytes) (port : Nat) (a : Answers) : Option Exception :=
  match a.socket with
  | .error errno => some (.systemError "socket() failed" errno)
  | .ok _ => (listenFailure host port a).or (setupFailure a)

/-- **Startup.**  `Initialize` throws what goes wrong first, and if nothing does, everything is
set up. -/
theorem startServer_exec (host : Bytes) (port backlog : Nat) (a : Answers) :
    ∃ p, exec (startServer host port backlog a) {} = (raised (startFailure host port a), p) ∧
      Started a (startFailure host port a) p := by
  unfold startServer startFailure
  rw [exec_bind]
  cases hsocket : a.socket with
  | error errno =>
    refine ⟨{}, ?_, .failed _ 0 [] nofun (.inl rfl) rfl rfl⟩
    unfold createListenSocket
    rw [hsocket]
    rfl
  | ok fd =>
    obtain ⟨used, hused, hcreate⟩ := @createListenSocket_exec host port a fd hsocket backlog {}
    rw [hcreate]
    cases listenFailure host port a with
    | some e => exact ⟨_, rfl, .failed e fd used hused (.inr rfl) rfl rfl⟩
    | none =>
      -- the new socket moves into `listen_fd_`, which was empty
      have hcalls : (after (after {} (.socket fd :: used)) []).calls = .socket fd :: used :=
        List.append_nil _
      exact @setup_exec a fd { after (after {} (.socket fd :: used)) [] with
        listenFd := ⟨some fd⟩ } used hsocket rfl rfl hcalls hused

end WebServer.Kernel
