/-
Codings applied one after the other.

An encoder need not be a function: `codes k x y` says that `y` is one of the results of the
coding `k` on `x`. Decoders that undo each coding undo a list of them, the last one first.

Nothing in this file knows about the kernel.
-/
import Mathlib

set_option autoImplicit false

namespace EveOS

variable {κ α ε : Type*} {codes : κ → α → α → Prop}

/-- `y` is `x` behind the codings of a list, the first of the list applied first. -/
inductive Layered (codes : κ → α → α → Prop) : List κ → α → α → Prop
  | nil (x : α) : Layered codes [] x x
  | cons {k : κ} {ks : List κ} {x y z : α} (first : codes k x y) (rest : Layered codes ks y z) :
    Layered codes (k :: ks) x z

/-- **Undoing the codings from the last to the first.** -/
theorem Layered.foldrM {undo : κ → α → Except ε α} (hundo : ∀ k x y, codes k x y → undo k y = .ok x)
    {ks : List κ} {x y : α} (h : Layered codes ks x y) : ks.foldrM undo y = .ok x := by
  induction h with
  | nil x => rfl
  | cons first rest ih =>
    rw [List.foldrM_cons, ih]
    exact hundo _ _ _ first

/-- What holds of the result of every coding holds of the result of a nonempty list. -/
theorem Layered.last {P : α → Prop} (hP : ∀ k x y, codes k x y → P y) {ks : List κ} {x y : α}
    (h : Layered codes ks x y) (hks : ks ≠ []) : P y := by
  induction h with
  | nil x => exact absurd rfl hks
  | @cons k ks x y z first rest ih =>
    by_cases hnil : ks = []
    · subst hnil
      cases rest
      exact hP k x y first
    · exact ih hnil

end EveOS
