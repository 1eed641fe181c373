/-
The last entries of a stream, in a ring.

A ring of `N` slots is filled in turn. While there is room, an entry goes behind the
others; then it takes the place of the oldest one, and the ring begins one slot later.
Either way the slots hold the end of the stream (`Window.push`).

Nothing in this file knows about the kernel.
-/
import Mathlib

set_option autoImplicit false

namespace EveOS

variable {α : Type*} {N k : Nat} {slot : Nat → α} {q : List α}

/-- The last `n` entries. -/
def lastN (n : Nat) (q : List α) : List α := q.drop (q.length - n)

@[simp] theorem length_lastN (n : Nat) (q : List α) : (lastN n q).length = min q.length n := by
  rw [lastN, List.length_drop]
  omega

theorem getElem?_lastN (n : Nat) (q : List α) (i : Nat) : (lastN n q)[i]? = q[q.length - n + i]? := by
  rw [lastN, List.getElem?_drop]

/-- One more entry, while there is room for it. -/
theorem lastN_concat_of_lt {n : Nat} (h : q.length < n) (a : α) : lastN n (q ++ [a]) = lastN n q ++ [a] := by
  have hnew : (q ++ [a]).length - n = 0 := by
    rw [List.length_append, List.length_singleton]
    omega
  have hold : q.length - n = 0 := by omega
  rw [lastN, lastN, hnew, hold, List.drop_zero, List.drop_zero]

/-- One more entry, and the oldest one goes. -/
theorem lastN_concat_of_le {n : Nat} (hn : 0 < n) (h : n ≤ q.length) (a : α) :
    lastN n (q ++ [a]) = (lastN n q).tail ++ [a] := by
  have hlen : (q ++ [a]).length - n = q.length - n + 1 := by
    rw [List.length_append, List.length_singleton]
    omega
  rw [lastN, lastN, hlen, List.tail_drop, List.drop_append_of_le_length (by omega)]

/-- The slots from `k % N` on hold `q`. -/
structure Window (N : Nat) (slot : Nat → α) (k : Nat) (q : List α) : Prop where
  fits : q.length ≤ N
  holds : ∀ j < q.length, q[j]? = some (slot ((k + j) % N))

theorem Window.nil (slot : Nat → α) (k : Nat) : Window N slot k [] := by
  refine ⟨Nat.zero_le N, ?_⟩
  intro j hj
  cases hj

/-- Slots less than a lap apart differ. -/
theorem slot_ne {i j : Nat} (hij : i < j) (hj : j < i + N) : i % N ≠ j % N := by
  intro heq
  have hdvd : N ∣ j - i := (Nat.modEq_iff_dvd' (Nat.le_of_lt hij)).mp heq
  have hle := Nat.le_of_dvd (by omega) hdvd
  omega

/-- An entry behind the others. -/
theorem Window.append (h : Window N slot k q) (hroom : q.length < N) (a : α) :
    Window N (Function.update slot ((k + q.length) % N) a) k (q ++ [a]) := by
  refine ⟨by rw [List.length_append]; exact hroom, ?_⟩
  intro j hj
  rw [List.length_append, List.length_singleton] at hj
  by_cases hlast : j = q.length
  · rw [hlast, Function.update_self, List.getElem?_concat_length]
  · have hne : (k + j) % N ≠ (k + q.length) % N := slot_ne (by omega) (by omega)
    rw [Function.update_of_ne hne, List.getElem?_append_left (by omega)]
    exact h.holds j (by omega)

/-- An entry in the place of the oldest one. -/
theorem Window.turn (h : Window N slot k q) (hN : 0 < N) (hfull : q.length = N) (a : α) :
    Window N (Function.update slot (k % N) a) (k + 1) (q.tail ++ [a]) := by
  have htail : q.tail.length = N - 1 := by rw [List.length_tail, hfull]
  refine ⟨by rw [List.length_append, htail, List.length_singleton]; omega, ?_⟩
  intro j hj
  rw [List.length_append, htail, List.length_singleton] at hj
  by_cases hlast : j = N - 1
  · have hslot : (k + 1 + j) % N = k % N := by
      rw [hlast, show k + 1 + (N - 1) = k + N by omega, Nat.add_mod_right]
    rw [hslot, Function.update_self, hlast, ← htail, List.getElem?_concat_length]
  · have hne : k % N ≠ (k + 1 + j) % N := slot_ne (by omega) (by omega)
    rw [Function.update_of_ne hne.symm, List.getElem?_append_left (by omega), List.getElem?_tail, h.holds (j + 1) (by omega),
      Nat.add_comm j 1, Nat.add_assoc]

/-- The ring begins at a slot. -/
theorem Window.congr (h : Window N slot k q) {k' : Nat} (hk : k' % N = k % N) : Window N slot k' q := by
  refine ⟨h.fits, ?_⟩
  intro j hj
  rw [Nat.add_mod, hk, ← Nat.add_mod]
  exact h.holds j hj

/-- **Another entry.** -/
theorem Window.push (h : Window N slot k (lastN N q)) (hN : 0 < N) (a : α) :
    if q.length < N then Window N (Function.update slot ((k + q.length) % N) a) k (lastN N (q ++ [a]))
    else Window N (Function.update slot (k % N) a) (k + 1) (lastN N (q ++ [a])) := by
  split_ifs with hroom
  · have hlen : (lastN N q).length = q.length := by
      rw [length_lastN]
      omega
    have happend := h.append (by omega) a
    rwa [hlen, ← lastN_concat_of_lt hroom] at happend
  · have hlen : (lastN N q).length = N := by
      rw [length_lastN]
      omega
    have hturn := h.turn hN hlen a
    rwa [← lastN_concat_of_le hN (by omega)] at hturn

end EveOS
