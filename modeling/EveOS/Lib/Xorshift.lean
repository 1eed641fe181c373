/-
Xorshift steps are injective.

A word is combined with itself, shifted. Where two words have the same result, their
difference is its own shift, and so the shift of that, and at last it is shifted out.

Nothing in this file knows about the kernel.
-/
import Mathlib

set_option autoImplicit false

namespace EveOS

variable {w : Nat}

/-- A word that is its own right shift is zero. -/
theorem eq_zero_of_ushiftRight_self {k : Nat} (hk : 0 < k) {z : BitVec w} (h : z >>> k = z) : z = 0 := by
  have hshift : ∀ n, z >>> (k * n) = z := by
    intro n
    induction n with
    | zero => rw [Nat.mul_zero, BitVec.ushiftRight_zero]
    | succ n ih => rw [Nat.mul_succ, BitVec.shiftRight_add, ih, h]
  have hout : w ≤ k * w := Nat.le_mul_of_pos_left w hk
  rw [← hshift w]
  exact BitVec.ushiftRight_eq_zero hout

theorem eq_zero_of_shiftLeft_self {k : Nat} (hk : 0 < k) {z : BitVec w} (h : z <<< k = z) : z = 0 := by
  have hshift : ∀ n, z <<< (k * n) = z := by
    intro n
    induction n with
    | zero => rw [Nat.mul_zero, BitVec.shiftLeft_zero]
    | succ n ih => rw [Nat.mul_succ, BitVec.shiftLeft_add, ih, h]
  have hout : w ≤ k * w := Nat.le_mul_of_pos_left w hk
  rw [← hshift w]
  exact BitVec.shiftLeft_eq_zero hout

/-- The difference of two words with the same image. -/
theorem xor_eq_of_xor_eq {a b c d : BitVec w} (h : a ^^^ b = c ^^^ d) : b ^^^ d = a ^^^ c :=
  calc b ^^^ d = a ^^^ (a ^^^ b) ^^^ d := by rw [← BitVec.xor_assoc, BitVec.xor_self, BitVec.zero_xor]
    _ = a ^^^ (c ^^^ d) ^^^ d := by rw [h]
    _ = a ^^^ c := by rw [BitVec.xor_assoc, BitVec.xor_assoc, BitVec.xor_self, BitVec.xor_zero]

theorem xor_ushiftRight_injective {k : Nat} (hk : 0 < k) : Function.Injective fun x : BitVec w => x ^^^ (x >>> k) := by
  intro x y h
  have hzero : x ^^^ y = 0 := eq_zero_of_ushiftRight_self hk (by
    rw [BitVec.ushiftRight_xor_distrib]
    exact xor_eq_of_xor_eq h)
  exact BitVec.xor_eq_zero_iff.mp hzero

theorem xor_shiftLeft_injective {k : Nat} (hk : 0 < k) : Function.Injective fun x : BitVec w => x ^^^ (x <<< k) := by
  intro x y h
  have hzero : x ^^^ y = 0 := eq_zero_of_shiftLeft_self hk (by
    rw [BitVec.shiftLeft_xor_distrib]
    exact xor_eq_of_xor_eq h)
  exact BitVec.xor_eq_zero_iff.mp hzero

end EveOS
