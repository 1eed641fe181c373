/-
Programs with a state that outlives a failure.

A driver talks to a device, and any exchange can fail. What was done before stays
done: the state behind a failure is the state at the failure. So such a program takes
a state to a state and, unless it failed, a value. `Keeps f x` says that `x` changes
nothing that `f` sees, whether it fails or not; there is one rule for each way of
putting programs together.

Nothing in this file knows about the kernel.
-/
import Mathlib

set_option autoImplicit false

namespace EveOS

universe u v

/-- A program over the states `σ`. -/
def Fallible (σ : Type u) (α : Type v) : Type (max u v) := σ → σ × Option α

namespace Fallible

variable {σ : Type u} {α β : Type v} {γ : Type*}

def ret (a : α) : Fallible σ α := fun s => (s, some a)

def fail : Fallible σ α := fun s => (s, none)

/-- The operator `?`. -/
def andThen (x : Fallible σ α) (g : α → Fallible σ β) : Fallible σ β := fun s =>
  match (x s).2 with
  | none => ((x s).1, none)
  | some a => g a (x s).1

instance : Monad (Fallible σ) where
  pure := ret
  bind := andThen

/-- The failure is no failure here. -/
def attempt (x : Fallible σ α) : Fallible σ (Option α) := fun s => ((x s).1, some (x s).2)

/-- `x` changes nothing that `f` sees. -/
def Keeps (f : σ → γ) (x : Fallible σ α) : Prop := ∀ s, f (x s).1 = f s

section Rules

variable {f : σ → γ} {x : Fallible σ α} {g : α → Fallible σ β}

theorem Keeps.pure (f : σ → γ) (a : α) : Keeps f (pure a : Fallible σ α) := fun _ => rfl

theorem Keeps.fail (f : σ → γ) : Keeps f (fail : Fallible σ α) := fun _ => rfl

theorem Keeps.bind (hx : Keeps f x) (hg : ∀ a, Keeps f (g a)) : Keeps f (x >>= g) := by
  intro s
  show f (andThen x g s).1 = f s
  unfold andThen
  cases (x s).2 with
  | none => exact hx s
  | some a => exact (hg a (x s).1).trans (hx s)

theorem Keeps.attempt (hx : Keeps f x) : Keeps f x.attempt := hx

theorem Keeps.ite {c : Prop} [Decidable c] {y : Fallible σ α} (hx : Keeps f x) (hy : Keeps f y) :
    Keeps f (if c then x else y) := by
  split_ifs
  · exact hx
  · exact hy

end Rules

end Fallible

end EveOS
