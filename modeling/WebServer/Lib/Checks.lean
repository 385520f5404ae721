import WebServer.Lib.LiberalPre

/-!
# Programs with checks

A program with checks fails because one of its checks fires, or because the program under it
fails.  `plain f` is a program without checks among those with checks; where `f' = plain f` no
check of `f'` fires.  The rules below push `plain` through the monad operations, so that such an
equation follows the structure of the two programs.
-/

namespace Checks

variable {σ χ ε α β : Type}

/-- How a program with checks fails. -/
inductive Failure (χ ε : Type)
  | check (c : χ)
  | fault (e : ε)
  deriving DecidableEq, Repr

def plain (f : StateT σ (Except ε) α) : StateT σ (Except (Failure χ ε)) α :=
  fun s => (f s).mapError .fault

/-- Go on only if the check passes. -/
def check (p : Prop) [Decidable p] (c : χ) : StateT σ (Except (Failure χ ε)) Unit :=
  if p then pure () else throw (.check c)

/-- The result of a function that has checks and no state. -/
def checked (x : Except χ α) : StateT σ (Except (Failure χ ε)) α :=
  match x with
  | .ok a => pure a
  | .error c => throw (.check c)

@[simp] theorem checked_ok (a : α) :
    (checked (.ok a : Except χ α) : StateT σ (Except (Failure χ ε)) α) = pure a := rfl

@[simp] theorem plain_pure (a : α) :
    (plain (pure a) : StateT σ (Except (Failure χ ε)) α) = pure a := rfl

@[simp] theorem plain_bind (f : StateT σ (Except ε) α) (g : α → StateT σ (Except ε) β) :
    (plain (f >>= g) : StateT σ (Except (Failure χ ε)) β) = plain f >>= fun a => plain (g a) := by
  funext s
  have hbind : (f >>= g) s = (f s >>= fun p => g p.1 p.2) := rfl
  have hbind' : (plain f >>= fun a => plain (g a)) s =
      ((plain f s : Except (Failure χ ε) (α × σ)) >>= fun p => plain (g p.1) p.2) := rfl
  rw [hbind', plain, hbind, plain]
  cases f s with
  | error e => rfl
  | ok p => rfl

@[simp] theorem plain_ite (c : Prop) [Decidable c] (f g : StateT σ (Except ε) α) :
    (plain (if c then f else g) : StateT σ (Except (Failure χ ε)) α) =
      if c then plain f else plain g := by
  split <;> rfl

@[simp] theorem plain_get :
    (plain (get : StateT σ (Except ε) σ) : StateT σ (Except (Failure χ ε)) σ) = get := rfl

@[simp] theorem plain_modify (g : σ → σ) :
    (plain (modify g : StateT σ (Except ε) PUnit) : StateT σ (Except (Failure χ ε)) PUnit) =
      modify g := rfl

/-- Two programs that begin alike and go on alike. -/
theorem bind_eq {f f' : StateT σ (Except ε) α} {g g' : α → StateT σ (Except ε) β} (hf : f' = f)
    (hg : ∀ a, g' a = g a) : (f' >>= g') = (f >>= g) := by
  rw [hf, funext hg]

/-- A choice between two programs that are alike as far as they are chosen. -/
theorem ite_eq {c : Prop} [Decidable c] {f f' g g' : StateT σ (Except ε) α} (hf : c → f' = f)
    (hg : ¬ c → g' = g) : (if c then f' else g') = if c then f else g := by
  by_cases h : c
  · rw [if_pos h, if_pos h, hf h]
  · rw [if_neg h, if_neg h, hg h]

end Checks
