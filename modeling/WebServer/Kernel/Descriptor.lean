import WebServer.Core.State

/-!
# The life of a descriptor

The system calls on one descriptor number, and the shape they have while the number
is handed out again and again: an accepted socket is rejected and closed, or added to
epoll, worked on, taken out of epoll and closed.
-/

namespace WebServer.Kernel

open WebServer.Net WebServer.Core

inductive Syscall
  | accept
  | epoll (op : EpollOp)
  | read
  | write
  | close
  deriving DecidableEq, Repr

/-- The system call of an event, if it is one on `fd`. -/
def syscall? (fd : Fd) : Event → Option Syscall
  | .accepted fd' _ => if fd' = fd then some .accept else none
  | .epollCtl op fd' _ => if fd' = fd then some (.epoll op) else none
  | .read c _ => if c.socket = some fd then some .read else none
  | .write _ fd' _ _ _ => if fd' = fd then some .write else none
  | .closedFd fd' => if fd' = fd then some .close else none
  | _ => none

/-- All system calls on `fd`. -/
def syscalls (fd : Fd) (trace : List Event) : List Syscall := trace.filterMap (syscall? fd)

@[simp] theorem syscalls_append (fd : Fd) (trace trace' : List Event) :
    syscalls fd (trace ++ trace') = syscalls fd trace ++ syscalls fd trace' :=
  List.filterMap_append ..

/-- The calls of `CloseClientConnection`. -/
theorem syscalls_close (fd x : Fd) (trace : List Event) (c : ClientConnection) (reason : CloseReason)
    (amount inflight : Nat) :
    syscalls x (trace ++ [.epollCtl .del fd {}, .closedFd fd] ++ [.released amount inflight] ++
      [.closed c reason]) =
      syscalls x trace ++ if x = fd then [.epoll .del, .close] else [] := by
  have hnotes : syscalls x ([.released amount inflight] ++ [.closed c reason]) = [] := rfl
  rw [List.append_assoc, syscalls_append, hnotes, List.append_nil, syscalls_append]
  by_cases hx : x = fd
  · subst hx
    simp [syscalls, syscall?]
  · simp [syscalls, syscall?, hx, Ne.symm hx]

/-- Calls of `write()` on `fd`, and nothing else. -/
def Writes (fd : Fd) (events : List Event) : Prop :=
  ∀ e ∈ events, ∃ writer life data answer, e = .write writer fd life data answer

theorem syscalls_writes {fd : Fd} {events : List Event} (h : Writes fd events) (x : Fd) :
    syscalls x events = if x = fd then List.replicate events.length .write else [] := by
  induction events with
  | nil => simp [syscalls]
  | cons e events ih =>
    have ih := ih fun e' he' => h e' (List.mem_cons_of_mem _ he')
    obtain ⟨writer, life, data, answer, rfl⟩ := h e List.mem_cons_self
    by_cases hx : x = fd
    · subst hx
      rw [if_pos rfl] at ih ⊢
      simpa [syscalls, syscall?, List.replicate_succ] using ih
    · rw [if_neg hx] at ih ⊢
      simpa [syscalls, syscall?, Ne.symm hx] using ih

/-! ## Shapes -/

/-- What a registered connection may do between the `ADD` and the `DEL`. -/
def isWork : Syscall → Bool
  | .read | .write | .epoll .mod => true
  | _ => false

/-- A socket that is not registered and has only been written to. -/
def Refused (calls : List Syscall) : Prop := ∃ n, calls = .accept :: List.replicate n .write

/-- A socket that is registered with epoll. -/
def Registered (calls : List Syscall) : Prop :=
  ∃ work, calls = .accept :: .epoll .add :: work ∧ ∀ call ∈ work, isWork call = true

/-- A whole life: a rejected socket, or one that was registered. -/
def Finished (calls : List Syscall) : Prop :=
  (∃ start, Refused start ∧ calls = start ++ [.close]) ∨
    ∃ start, Registered start ∧ calls = start ++ [.epoll .del, .close]

/-- Where a descriptor number stands. -/
inductive Phase
  | free
  | accepted
  | refused
  | registered
  deriving DecidableEq, Repr

/-- The calls of the current life. -/
def Phase.Holds : Phase → List Syscall → Prop
  | .free, calls => calls = []
  | .accepted, calls => calls = [.accept]
  | .refused, calls => Refused calls
  | .registered, calls => Registered calls

/-- Whole lives one after another, and the calls of the current one. -/
def Lives (phase : Phase) (calls : List Syscall) : Prop :=
  ∃ (lives : List (List Syscall)) (last : List Syscall), calls = lives.flatten ++ last ∧
    (∀ life ∈ lives, Finished life) ∧ phase.Holds last

namespace Lives

variable {calls : List Syscall} {phase phase' : Phase}

theorem nil : Lives .free [] := ⟨[], [], rfl, by simp, rfl⟩

/-- The current life goes on. -/
theorem goOn {new : List Syscall} (h : Lives phase calls)
    (hlast : ∀ last, phase.Holds last → phase'.Holds (last ++ new)) :
    Lives phase' (calls ++ new) := by
  obtain ⟨lives, last, rfl, hlives, hphase⟩ := h
  exact ⟨lives, last ++ new, List.append_assoc .., hlives, hlast last hphase⟩

/-- The current life ends. -/
theorem finish {new : List Syscall} (h : Lives phase calls)
    (hlast : ∀ last, phase.Holds last → Finished (last ++ new)) : Lives .free (calls ++ new) := by
  obtain ⟨lives, last, rfl, hlives, hphase⟩ := h
  refine ⟨lives ++ [last ++ new], [], by simp, ?_, rfl⟩
  intro life hlife
  rcases List.mem_append.mp hlife with hlife | hlife
  · exact hlives life hlife
  · obtain rfl := List.mem_singleton.mp hlife
    exact hlast last hphase

theorem accept (h : Lives .free calls) : Lives .accepted (calls ++ [.accept]) := by
  apply h.goOn
  rintro last rfl
  rfl

/-- Writes to a socket that is not registered. -/
theorem refuse (h : Lives .accepted calls) (n : Nat) :
    Lives .refused (calls ++ List.replicate n .write) := by
  apply h.goOn
  rintro last rfl
  exact ⟨n, rfl⟩

theorem drop (h : Lives .refused calls) : Lives .free (calls ++ [.close]) :=
  h.finish fun last hlast => .inl ⟨last, hlast, rfl⟩

theorem add (h : Lives .accepted calls) : Lives .registered (calls ++ [.epoll .add]) := by
  apply h.goOn
  rintro last rfl
  exact ⟨[], rfl, by simp⟩

/-- Reads, writes and changes of the poll mask. -/
theorem work (h : Lives .registered calls) {new : List Syscall}
    (hnew : ∀ call ∈ new, isWork call = true) : Lives .registered (calls ++ new) := by
  apply h.goOn
  rintro last ⟨old, rfl, hold⟩
  refine ⟨old ++ new, rfl, fun call hcall => ?_⟩
  rcases List.mem_append.mp hcall with hcall | hcall
  · exact hold call hcall
  · exact hnew call hcall

theorem close (h : Lives .registered calls) : Lives .free (calls ++ [.epoll .del, .close]) :=
  h.finish fun last hlast => .inr ⟨last, hlast, rfl⟩

end Lives

end WebServer.Kernel
