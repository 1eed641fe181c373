/-
One's-complement sums.

Sixteen-bit words are added with end-around carry. The sum depends only on the sum of
the words as numbers (`ones_sum_eq`): it may be taken in a wide accumulator and folded at the
end, in any order and in parts. A word that is the complement of the sum of all the others
makes the whole sum 0xFFFF (`ones_sum_complement`), which is how a receiver checks it.

Nothing in this file knows about the kernel.
-/
import EveOS.Lib.Bytes

set_option autoImplicit false

namespace EveOS

/-- The big-endian words of a byte string. An odd last byte is padded with zero. -/
def words16 : Bytes → List Nat
  | a :: b :: rest => (a.toNat * 256 + b.toNat) :: words16 rest
  | [a] => [a.toNat * 256]
  | [] => []

/-- Addition with end-around carry. -/
def ones_add (a b : Nat) : Nat := (a + b) % 65536 + (a + b) / 65536

def ones_sum (ws : List Nat) : Nat := ws.foldl ones_add 0

/-- The word that stands for a number: 0 for 0, and otherwise its residue between 1 and 65535. -/
def ones_rep (n : Nat) : Nat := if n = 0 then 0 else (n - 1) % 65535 + 1

theorem ones_rep_le (n : Nat) : ones_rep n ≤ 65535 := by
  unfold ones_rep
  split_ifs
  · omega
  · omega

/-- A word stands for itself. -/
theorem ones_rep_word {n : Nat} (h : n ≤ 65535) : ones_rep n = n := by
  unfold ones_rep
  split_ifs with hzero
  · exact hzero.symm
  · rw [Nat.mod_eq_of_lt (by omega)]
    omega

/-- A carry may be brought around at any time. -/
theorem ones_rep_carry (n : Nat) : ones_rep (n % 65536 + n / 65536) = ones_rep n := by
  unfold ones_rep
  split_ifs
  · rfl
  · omega
  · omega
  · omega

theorem ones_add_rep (n w : Nat) (hw : w ≤ 65535) : ones_add (ones_rep n) w = ones_rep (n + w) := by
  have hle := ones_rep_le n
  have hsmall : ones_add (ones_rep n) w ≤ 65535 := by
    unfold ones_add
    omega
  rw [← ones_rep_word hsmall, ones_add, ones_rep_carry]
  by_cases hzero : n = 0
  · rw [hzero]
    rfl
  · have hrep : ones_rep n = (n - 1) % 65535 + 1 := if_neg hzero
    rw [hrep]
    unfold ones_rep
    rw [if_neg (by omega), if_neg (by omega)]
    omega

/-- **The sum in closed form.** -/
theorem ones_sum_eq {ws : List Nat} (h : ∀ w ∈ ws, w ≤ 65535) : ones_sum ws = ones_rep ws.sum := by
  have hall : ∀ n, ws.foldl ones_add (ones_rep n) = ones_rep (n + ws.sum) := by
    induction ws with
    | nil => simp
    | cons w ws ih =>
      intro n
      rw [List.foldl_cons, ones_add_rep n w (h w List.mem_cons_self),
        ih (fun v hv => h v (List.mem_cons_of_mem _ hv)), List.sum_cons, Nat.add_assoc]
  have hzero := hall 0
  rw [Nat.zero_add] at hzero
  exact hzero

/-- **The complement of a sum brings it to 0xFFFF.** -/
theorem ones_sum_complement {ws : List Nat} {s : Nat} (h : ∀ w ∈ ws, w ≤ 65535)
    (hsum : ws.sum = s + (65535 - ones_rep s)) : ones_sum ws = 0xFFFF := by
  rw [ones_sum_eq h, hsum]
  unfold ones_rep
  split_ifs
  · omega
  · omega
  · omega
  · omega

section Words

variable {xs ys : Bytes}

theorem words16_le (xs : Bytes) : ∀ w ∈ words16 xs, w ≤ 65535 := by
  fun_induction words16 xs with
  | case1 a b rest ih =>
    have ha := a.toNat_lt
    have hb := b.toNat_lt
    intro w hw
    rcases List.mem_cons.mp hw with rfl | hw
    · omega
    · exact ih w hw
  | case2 a =>
    have ha := a.toNat_lt
    intro w hw
    rw [List.mem_singleton.mp hw]
    omega
  | case3 => simp

/-- A string may be cut between words. -/
theorem words16_append (h : xs.length % 2 = 0) (ys : Bytes) : words16 (xs ++ ys) = words16 xs ++ words16 ys := by
  fun_induction words16 xs with
  | case1 a b rest ih =>
    have hrest : rest.length % 2 = 0 := by
      simp only [List.length_cons] at h
      omega
    rw [List.cons_append, List.cons_append, words16, ih hrest, List.cons_append]
  | case2 a => simp at h
  | case3 => rfl

theorem words16_sum_le (xs : Bytes) : (words16 xs).sum ≤ 65535 * ((xs.length + 1) / 2) := by
  fun_induction words16 xs with
  | case1 a b rest ih =>
    have ha := a.toNat_lt
    have hb := b.toNat_lt
    rw [List.sum_cons, List.length_cons, List.length_cons]
    omega
  | case2 a =>
    have ha := a.toNat_lt
    simp only [List.sum_cons, List.sum_nil, List.length_cons, List.length_nil]
    omega
  | case3 => simp

/-- The two bytes of a word. -/
theorem word_of_u16Bytes (w : UInt16) : (w >>> 8).toUInt8.toNat * 256 + w.toUInt8.toNat = w.toNat := by
  have hw := w.toNat_lt
  simp only [UInt16.toNat_toUInt8, UInt16.toNat_shiftRight, Nat.shiftRight_eq_div_pow, UInt16.reduceToNat,
    Nat.reduceMod, Nat.reducePow]
  omega

theorem words16_u16Bytes (w : UInt16) : words16 (u16Bytes w) = [w.toNat] := by
  rw [u16Bytes, words16, word_of_u16Bytes]
  rfl

/-- A word at an even offset counts as itself. -/
theorem words16_sum_field (h : xs.length % 2 = 0) (w : UInt16) (ys : Bytes) :
    (words16 (xs ++ (u16Bytes w ++ ys))).sum = (words16 xs).sum + (w.toNat + (words16 ys).sum) := by
  have hword : (u16Bytes w).length % 2 = 0 := by simp [u16Bytes]
  rw [words16_append h, words16_append hword, words16_u16Bytes, List.sum_append, List.sum_append, List.sum_singleton]

end Words

end EveOS
