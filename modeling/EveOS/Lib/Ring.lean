/-
Queues in rings.

Two parties share `N` slots: one fills them in turn, the other empties them in
turn. `InRing` says which queue stands in the slots, `Traffic` remembers what went
in and what came out. Filling the slot behind the queue appends to it, emptying
the slot at its front takes its first element, and nothing else moves.

Nothing in this file knows about the kernel.
-/
import Mathlib

set_option autoImplicit false

namespace EveOS

variable {α : Type*} {N k i j : Nat}

/-! ## Slots -/

/-- Slots that are less than a lap apart differ. -/
theorem slot_inj (hi : i < N) (hj : j < N) : (k + i) % N = (k + j) % N ↔ i = j := by
  constructor
  · intro h
    have hmod : i ≡ j [MOD N] := Nat.ModEq.add_left_cancel' k h
    rwa [Nat.ModEq, Nat.mod_eq_of_lt hi, Nat.mod_eq_of_lt hj] at hmod
  · rintro rfl
    rfl

/-- An index that a party moves differs from what the other one saw last. -/
theorem index_moves (x : UInt16) : x + 1 ≠ x := by
  intro h
  have hval := congrArg UInt16.toNat h
  have hx := x.toNat_lt
  rw [UInt16.toNat_add, UInt16.toNat_one] at hval
  omega

/-- The queue `q` stands in the slots from `k % N` on, and the other slots are
empty. -/
structure InRing (N : Nat) (slot : Nat → Option α) (k : Nat) (q : List α) : Prop where
  fits : q.length ≤ N
  holds : ∀ j < N, slot ((k + j) % N) = q[j]?

variable {slot : Nat → Option α} {q : List α} {a : α}

/-- Nothing is queued in empty slots. -/
theorem InRing.nil (h : ∀ i, slot i = none) : InRing N slot k [] := by
  refine ⟨Nat.zero_le N, ?_⟩
  intro j _
  rw [h, List.getElem?_nil]

/-- A property of every slot, after one of them is replaced. -/
theorem update_all {δ : Type*} {P : δ → Prop} {f : Nat → δ} (hf : ∀ i, P (f i)) {d : δ} (hd : P d)
    (k i : Nat) : P (Function.update f k d i) := by
  by_cases hi : i = k
  · rw [hi, Function.update_self]
    exact hd
  · rw [Function.update_of_ne hi]
    exact hf i

/-- The read index counts modulo the number of slots. -/
theorem InRing.congr (h : InRing N slot k q) {k' : Nat} (hk : k' % N = k % N) :
    InRing N slot k' q := by
  refine ⟨h.fits, ?_⟩
  intro j hj
  rw [Nat.add_mod, hk, ← Nat.add_mod]
  exact h.holds j hj

/-- The slot at the front. -/
theorem InRing.front (h : InRing N slot k q) (hN : 0 < N) : slot (k % N) = q.head? := by
  have h0 := h.holds 0 hN
  rwa [Nat.add_zero, ← List.head?_eq_getElem?] at h0

/-- The slot behind the queue is empty. -/
theorem InRing.behind (h : InRing N slot k q) (hroom : q.length < N) :
    slot ((k + q.length) % N) = none := by
  rw [h.holds _ hroom]
  exact List.getElem?_eq_none (Nat.le_refl _)

/-- **Filling the slot behind the queue appends to it.** -/
theorem InRing.put (h : InRing N slot k q) (hroom : q.length < N) (a : α) :
    InRing N (Function.update slot ((k + q.length) % N) (some a)) k (q ++ [a]) := by
  refine ⟨by rw [List.length_append]; exact hroom, ?_⟩
  intro j hj
  by_cases hlast : j = q.length
  · rw [hlast, Function.update_self, List.getElem?_append_right (Nat.le_refl _), Nat.sub_self]
    rfl
  · rw [Function.update_of_ne (fun heq => hlast ((slot_inj hj hroom).mp heq)), h.holds j hj]
    by_cases hlt : j < q.length
    · rw [List.getElem?_append_left hlt]
    · rw [List.getElem?_eq_none (by omega),
        List.getElem?_eq_none (by rw [List.length_append, List.length_singleton]; omega)]

/-- **Emptying the slot at the front takes the first element.** -/
theorem InRing.get (h : InRing N slot k (a :: q)) :
    InRing N (Function.update slot (k % N) none) (k + 1) q := by
  have hfits := h.fits
  rw [List.length_cons] at hfits
  refine ⟨by omega, ?_⟩
  intro j hj
  have hfront : k % N = (k + 0) % N := rfl
  by_cases hlast : j + 1 < N
  · have hne : (k + (j + 1)) % N ≠ (k + 0) % N := by
      rw [Ne, slot_inj hlast (by omega)]
      omega
    rw [Nat.add_assoc, Nat.add_comm 1 j, hfront, Function.update_of_ne hne, h.holds _ hlast,
      List.getElem?_cons_succ]
  · -- the emptied slot is now the last one
    have heq : k + 1 + j = k + N := by omega
    rw [heq, Nat.add_mod_right, Function.update_self, List.getElem?_eq_none (by omega)]

/-- Emptying a slot of an empty ring. -/
theorem InRing.clear (h : InRing N slot k []) (i : Nat) :
    InRing N (Function.update slot i none) k [] := by
  refine ⟨h.fits, ?_⟩
  intro j hj
  by_cases hi : (k + j) % N = i
  · rw [hi, Function.update_self, List.getElem?_nil]
  · rw [Function.update_of_ne hi, h.holds j hj]

/-! ## Slots that keep what was read -/

/-- The queue `q` stands in the slots from `k % N` on. The other slots hold anything, and one
of them is always left over, so that an empty ring can be told from a full one. -/
structure InSlots (N : Nat) (slot : Nat → α) (k : Nat) (q : List α) : Prop where
  fits : q.length < N
  holds : ∀ j < q.length, q[j]? = some (slot ((k + j) % N))

theorem InSlots.nil {slot : Nat → α} (hN : 0 < N) : InSlots N slot k [] := by
  refine ⟨hN, ?_⟩
  intro j hj
  cases hj

theorem InSlots.congr {slot : Nat → α} (h : InSlots N slot k q) {k' : Nat} (hk : k' % N = k % N) :
    InSlots N slot k' q := by
  refine ⟨h.fits, ?_⟩
  intro j hj
  rw [Nat.add_mod, hk, ← Nat.add_mod]
  exact h.holds j hj

/-- Writing the slot behind the queue appends to it. -/
theorem InSlots.put {slot : Nat → α} (h : InSlots N slot k q) (hroom : q.length + 1 < N) (a : α) :
    InSlots N (Function.update slot ((k + q.length) % N) a) k (q ++ [a]) := by
  refine ⟨by rwa [List.length_append], ?_⟩
  intro j hj
  rw [List.length_append, List.length_singleton] at hj
  by_cases hlast : j = q.length
  · rw [hlast, Function.update_self, List.getElem?_append_right (Nat.le_refl _), Nat.sub_self]
    rfl
  · have hlt : j < q.length := by omega
    have hne : (k + j) % N ≠ (k + q.length) % N := by
      intro heq
      exact hlast ((slot_inj (by omega) (by omega)).mp heq)
    rw [Function.update_of_ne hne, List.getElem?_append_left hlt]
    exact h.holds j hlt

/-- Reading the slot at the front takes the first element. -/
theorem InSlots.get {slot : Nat → α} (h : InSlots N slot k (a :: q)) :
    slot (k % N) = a ∧ InSlots N slot (k + 1) q := by
  have hfits := h.fits
  rw [List.length_cons] at hfits
  refine ⟨?_, by omega, ?_⟩
  · have hfront := h.holds 0 (Nat.succ_pos _)
    rw [Nat.add_zero, List.getElem?_cons_zero] at hfront
    exact (Option.some.inj hfront).symm
  · intro j hj
    have hnext := h.holds (j + 1) (by rw [List.length_cons]; omega)
    rwa [List.getElem?_cons_succ, Nat.add_comm j 1, ← Nat.add_assoc] at hnext

/-! ## Traffic -/

/-- What went into a channel and what came out of it. -/
structure Traffic (α : Type*) where
  put : List α
  got : List α
  deriving DecidableEq

/-- `q` is on its way: everything that went in came out, in order and once, or is
in `q`. -/
def Traffic.OnWay (t : Traffic α) (q : List α) : Prop := t.put = t.got ++ q

theorem Traffic.OnWay.put {t : Traffic α} (h : t.OnWay q) (a : α) :
    Traffic.OnWay ⟨t.put ++ [a], t.got⟩ (q ++ [a]) := by
  unfold Traffic.OnWay at h ⊢
  rw [h, List.append_assoc]

theorem Traffic.OnWay.get {t : Traffic α} (h : t.OnWay (a :: q)) :
    Traffic.OnWay ⟨t.put, t.got ++ [a]⟩ q := by
  unfold Traffic.OnWay at h ⊢
  rw [h, List.append_assoc, List.singleton_append]

end EveOS
