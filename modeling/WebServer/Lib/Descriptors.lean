import Mathlib.Logic.Function.Basic

/-!
# A table of descriptors

What a kernel keeps of the descriptors of one process: which are open, and what the event polls
among them watch.  A call on a descriptor that is not in the right state is refused.
-/

namespace Descriptors

variable {D M : Type}

/-- A call with the descriptor the kernel hands out, or with one the process names.  `none` is no
descriptor at all. -/
inductive Call (D M : Type)
  | opened (fd : D)
  | use (fd : Option D)
  | add (poll fd : D) (events : M)
  | modify (poll fd : D) (events : M)
  | delete (poll fd : D)
  | close (fd : D)
  deriving DecidableEq

variable [DecidableEq D]

def Call.opens (fd : D) : Call D M → Bool
  | .opened fd' => fd' = fd
  | _ => false

def Call.closes (fd : D) : Call D M → Bool
  | .close fd' => fd' = fd
  | _ => false

inductive Refusal
  /-- No kernel hands out a descriptor that is in use. -/
  | taken
  | ebadf
  | eexist
  | enoent
  deriving DecidableEq, Repr

@[ext] structure Table (D M : Type) where
  isOpen : D → Bool
  watched : D → D → Option M

namespace Table

def empty : Table D M where
  isOpen _ := false
  watched _ _ := none

/-- `poll` watches `fd` from now on with this. -/
def watch (poll fd : D) (events : Option M) (t : Table D M) : Table D M :=
  { t with watched := Function.update t.watched poll (Function.update (t.watched poll) fd events) }

/-- What is closed is no longer watched, and watches nothing. -/
def closed (fd : D) (t : Table D M) : Table D M where
  isOpen := Function.update t.isOpen fd false
  watched poll fd' := if poll = fd || fd' = fd then none else t.watched poll fd'

def apply (t : Table D M) : Call D M → Except Refusal (Table D M)
  | .opened fd =>
    if t.isOpen fd then .error .taken else .ok { t with isOpen := Function.update t.isOpen fd true }
  | .use none => .error .ebadf
  | .use (some fd) => if t.isOpen fd then .ok t else .error .ebadf
  | .add poll fd events =>
    if !t.isOpen poll || !t.isOpen fd then .error .ebadf
    else if (t.watched poll fd).isSome then .error .eexist
    else .ok (t.watch poll fd (some events))
  | .modify poll fd events =>
    if !t.isOpen poll || !t.isOpen fd then .error .ebadf
    else if (t.watched poll fd).isNone then .error .enoent
    else .ok (t.watch poll fd (some events))
  | .delete poll fd =>
    if !t.isOpen poll || !t.isOpen fd then .error .ebadf
    else if (t.watched poll fd).isNone then .error .enoent
    else .ok (t.watch poll fd none)
  | .close fd => if t.isOpen fd then .ok (t.closed fd) else .error .ebadf

/-- The calls one after another, until one is refused. -/
def replay (t : Table D M) (calls : List (Call D M)) : Except Refusal (Table D M) :=
  calls.foldlM apply t

variable {t t' : Table D M} {calls calls' : List (Call D M)} {poll fd : D} {events : M}

theorem replay_cons (call : Call D M) (h : t.apply call = .ok t') :
    t.replay (call :: calls) = t'.replay calls := by
  rw [replay, List.foldlM_cons, h]
  rfl

/-- Calls that go through can be followed by others. -/
theorem replay_append (h : t.replay calls = .ok t') (calls' : List (Call D M)) :
    t.replay (calls ++ calls') = t'.replay calls' := by
  unfold replay at h ⊢
  rw [List.foldlM_append, h]
  rfl

/-! ## Calls that are not refused -/

theorem apply_opened (h : t.isOpen fd = false) :
    t.apply (.opened fd) = .ok { t with isOpen := Function.update t.isOpen fd true } := by
  simp [apply, h]

theorem apply_use (h : t.isOpen fd = true) : t.apply (.use (some fd)) = .ok t := by
  simp [apply, h]

theorem apply_add (hpoll : t.isOpen poll = true) (hfd : t.isOpen fd = true)
    (hnew : t.watched poll fd = none) (events : M) :
    t.apply (.add poll fd events) = .ok (t.watch poll fd (some events)) := by
  simp [apply, hpoll, hfd, hnew]

theorem apply_modify (hpoll : t.isOpen poll = true) (hfd : t.isOpen fd = true)
    (hold : (t.watched poll fd).isSome = true) (events : M) :
    t.apply (.modify poll fd events) = .ok (t.watch poll fd (some events)) := by
  obtain ⟨old, hold⟩ := Option.isSome_iff_exists.mp hold
  simp [apply, hpoll, hfd, hold]

theorem apply_delete (hpoll : t.isOpen poll = true) (hfd : t.isOpen fd = true)
    (hold : (t.watched poll fd).isSome = true) :
    t.apply (.delete poll fd) = .ok (t.watch poll fd none) := by
  obtain ⟨old, hold⟩ := Option.isSome_iff_exists.mp hold
  simp [apply, hpoll, hfd, hold]

theorem apply_close (h : t.isOpen fd = true) : t.apply (.close fd) = .ok (t.closed fd) := by
  simp [apply, h]

theorem replay_uses {fds : List D} (h : ∀ fd ∈ fds, t.isOpen fd = true) :
    t.replay (fds.map fun fd => .use (some fd)) = .ok t := by
  induction fds with
  | nil => rfl
  | cons fd fds ih =>
    rw [List.map_cons, replay_cons _ (apply_use (h fd List.mem_cons_self))]
    exact ih fun fd' h' => h fd' (List.mem_cons_of_mem _ h')

/-- Every descriptor of the list is closed, and nothing else. -/
theorem replay_closes {fds : List D} (hopen : ∀ fd ∈ fds, t.isOpen fd = true)
    (hnodup : fds.Nodup) : ∃ t', t.replay (fds.map .close) = .ok t' ∧
      ∀ fd, t'.isOpen fd = (t.isOpen fd && decide (fd ∉ fds)) := by
  induction fds generalizing t with
  | nil => exact ⟨t, rfl, fun fd => by simp⟩
  | cons fd fds ih =>
    obtain ⟨hnew, hnodup⟩ := List.nodup_cons.mp hnodup
    have hrest : ∀ fd' ∈ fds, (t.closed fd).isOpen fd' = true := by
      intro fd' h'
      have hne : fd' ≠ fd := fun heq => hnew (heq ▸ h')
      simpa [closed, hne] using hopen fd' (List.mem_cons_of_mem _ h')
    obtain ⟨t', hreplay, hopen'⟩ := ih hrest hnodup
    refine ⟨t', ?_, fun fd' => ?_⟩
    · rw [List.map_cons, replay_cons _ (apply_close (hopen fd List.mem_cons_self)), hreplay]
    · rw [hopen']
      by_cases heq : fd' = fd
      · simp [closed, heq]
      · simp [closed, heq]

/-! ## Nothing leaks -/

/-- What one call does to the counts of a descriptor. -/
theorem apply_balance {call : Call D M} (h : t.apply call = .ok t') (fd : D) :
    (call.opens fd).toNat + (t.isOpen fd).toNat =
      (call.closes fd).toNat + (t'.isOpen fd).toNat := by
  cases call with
  | opened fd' =>
    simp only [apply] at h
    split at h
    · cases h
    · rename_i hfree
      cases h
      by_cases heq : fd' = fd
      · subst heq
        simp [Call.opens, Call.closes, hfree]
      · simp [Call.opens, Call.closes, heq, Ne.symm heq]
  | use fd' =>
    have hsame : t' = t := by
      cases fd' with
      | none => cases h
      | some fd' =>
        simp only [apply] at h
        split at h
        · cases h
          rfl
        · cases h
    simp [Call.opens, Call.closes, hsame]
  | add poll fd' events | modify poll fd' events | delete poll fd' =>
    simp only [apply] at h
    split at h
    · cases h
    split at h
    · cases h
    cases h
    simp [Call.opens, Call.closes, watch]
  | close fd' =>
    simp only [apply] at h
    split at h
    · rename_i hopen
      cases h
      by_cases heq : fd' = fd
      · subst heq
        simp [Call.opens, Call.closes, closed, hopen]
      · simp [Call.opens, Call.closes, closed, heq, Ne.symm heq]
    · cases h

/-- **Nothing leaks.**  Calls that go through close every descriptor as often as it was opened,
up to what was and what is left open. -/
theorem replay_balance (h : t.replay calls = .ok t') (fd : D) :
    calls.countP (Call.opens fd) + (t.isOpen fd).toNat =
      calls.countP (Call.closes fd) + (t'.isOpen fd).toNat := by
  induction calls generalizing t with
  | nil =>
    cases h
    rfl
  | cons call calls ih =>
    unfold replay at h
    rw [List.foldlM_cons] at h
    cases hcall : t.apply call with
    | error refusal =>
      rw [hcall] at h
      cases h
    | ok t₁ =>
      rw [hcall] at h
      have hfirst := apply_balance hcall fd
      have hrest := ih h
      rw [List.countP_cons, List.countP_cons]
      cases hopens : call.opens fd <;> cases hcloses : call.closes fd <;>
        simp only [hopens, hcloses, Bool.toNat_true, Bool.toNat_false, if_true, Bool.false_eq_true,
          if_false] at hfirst ⊢ <;> omega

end Table

end Descriptors
