/-
Rings whose slots change hands.

One party fills slots in turn, the other drains them in turn, and a mark in each slot
says whose it is: a slot that is marked as filled belongs to the second party. Neither
index is shared. Such a ring is a queue of as many elements as it has slots: a slot
can be filled unless the queue is full, and what is drained is its front.

A driver's ring is shown to be one by a view: its descriptors as slots, and its steps as
`fill` and `drain`.

Nothing in this file knows about the kernel.
-/
import EveOS.Lib.Ring
import EveOS.Lib.Run

set_option autoImplicit false

namespace EveOS

variable {α : Type*} {N : Nat}

structure Handover (α : Type*) where
  slot : Nat → Option α
  fill_at : Nat
  drain_at : Nat

namespace Handover

variable (N) in
/-- Fill the next slot, if it is free. -/
def fill (c : Handover α) (a : α) : Handover α × Bool :=
  if (c.slot c.fill_at).isSome then (c, false)
  else
    ({ c with slot := Function.update c.slot c.fill_at (some a), fill_at := (c.fill_at + 1) % N }, true)

variable (N) in
/-- Drain the next slot, if it is filled. -/
def drain (c : Handover α) : Handover α × Option α :=
  match c.slot c.drain_at with
  | none => (c, none)
  | some a =>
    ({ c with slot := Function.update c.slot c.drain_at none, drain_at := (c.drain_at + 1) % N }, some a)

/-- The queue `q` is in the ring. -/
structure Holds (N : Nat) (c : Handover α) (q : List α) : Prop where
  slots : InRing N c.slot c.drain_at q
  front : c.drain_at < N
  back : c.fill_at = (c.drain_at + q.length) % N

variable {c : Handover α} {q : List α}

/-- The first slot is the front of the queue. -/
theorem Holds.head (h : c.Holds N q) : c.slot c.drain_at = q.head? := by
  have hfront := h.slots.front (Nat.lt_of_le_of_lt (Nat.zero_le _) h.front)
  rwa [Nat.mod_eq_of_lt h.front] at hfront

/-- The slot to fill is free as long as the queue does not fill the ring. -/
theorem Holds.free_iff (h : c.Holds N q) : (c.slot c.fill_at).isSome = false ↔ q.length < N := by
  rw [h.back]
  constructor
  · intro hfree
    by_contra hfull
    -- a lap behind the front is the front
    have hlen : q.length = N := Nat.le_antisymm h.slots.fits (Nat.le_of_not_lt hfull)
    rw [hlen, Nat.add_mod_right, Nat.mod_eq_of_lt h.front, h.head] at hfree
    have hpos := h.front
    cases q with
    | nil =>
      rw [List.length_nil] at hlen
      omega
    | cons a q => cases hfree
  · intro hroom
    rw [h.slots.behind hroom]
    rfl

/-- **Filling appends to the queue**, unless it is full. -/
theorem Holds.fill (h : c.Holds N q) (a : α) :
    if q.length < N then (c.fill N a).2 = true ∧ (c.fill N a).1.Holds N (q ++ [a])
    else c.fill N a = (c, false) := by
  have hfree := h.free_iff
  unfold Handover.fill
  by_cases hroom : q.length < N
  · rw [if_pos hroom, hfree.mpr hroom, if_neg Bool.false_ne_true]
    refine ⟨rfl, ?_, h.front, ?_⟩
    · have hput := h.slots.put hroom a
      rw [← h.back] at hput
      exact hput
    · show (c.fill_at + 1) % N = (c.drain_at + (q ++ [a]).length) % N
      rw [h.back, Nat.mod_add_mod, List.length_append, List.length_singleton, Nat.add_assoc]
  · have hsome : (c.slot c.fill_at).isSome = true := by
      by_contra hnone
      exact hroom (hfree.mp (Bool.eq_false_iff.mpr hnone))
    rw [if_neg hroom, if_pos hsome]

/-- **Draining takes the front of the queue.** -/
theorem Holds.drain (h : c.Holds N q) : (c.drain N).2 = q.head? ∧ (c.drain N).1.Holds N q.tail := by
  have hhead := h.head
  unfold Handover.drain
  rw [hhead]
  cases q with
  | nil => exact ⟨rfl, h⟩
  | cons a q =>
    have hget := h.slots.get
    rw [Nat.mod_eq_of_lt h.front] at hget
    have hpos : 0 < N := Nat.lt_of_le_of_lt (Nat.zero_le _) h.front
    refine ⟨rfl, hget.congr (Nat.mod_mod _ _), Nat.mod_lt _ hpos, ?_⟩
    show c.fill_at = ((c.drain_at + 1) % N + q.length) % N
    rw [h.back, Nat.mod_add_mod, List.length_cons, Nat.add_assoc, Nat.add_comm 1]

end Handover

/-! ## Traffic through a ring -/

/-- A ring with what went in and what came out. -/
structure Line (α : Type*) where
  ring : Handover α
  traffic : Traffic α

namespace Line

variable (N) in
/-- An element that is offered to the ring. -/
def fill (l : Line α) (a : α) : Line α :=
  let r := l.ring.fill N a
  ⟨r.1, if r.2 then ⟨l.traffic.put ++ [a], l.traffic.got⟩ else l.traffic⟩

variable (N) in
def drain (l : Line α) : Line α :=
  let r := l.ring.drain N
  ⟨r.1, ⟨l.traffic.put, l.traffic.got ++ r.2.toList⟩⟩

section Views

variable (l : Line α) (a : α)

/-! What the steps do to a ring whose slots are known. -/

theorem fill_free (h : l.ring.slot l.ring.fill_at = none) :
    l.fill N a = ⟨⟨Function.update l.ring.slot l.ring.fill_at (some a), (l.ring.fill_at + 1) % N,
      l.ring.drain_at⟩, ⟨l.traffic.put ++ [a], l.traffic.got⟩⟩ := by
  unfold Line.fill Handover.fill
  simp [h]

theorem fill_busy {b : α} (h : l.ring.slot l.ring.fill_at = some b) : l.fill N a = l := by
  unfold Line.fill Handover.fill
  simp [h]

theorem drain_empty (h : l.ring.slot l.ring.drain_at = none) : l.drain N = l := by
  unfold Line.drain Handover.drain
  simp [h]

theorem drain_front {a : α} (h : l.ring.slot l.ring.drain_at = some a) :
    l.drain N = ⟨⟨Function.update l.ring.slot l.ring.drain_at none, l.ring.fill_at,
      (l.ring.drain_at + 1) % N⟩, ⟨l.traffic.put, l.traffic.got ++ [a]⟩⟩ := by
  unfold Line.drain Handover.drain
  simp [h]

end Views

/-- What went in came out, in order and once, or is `q`. -/
structure Carries (N : Nat) (l : Line α) (q : List α) : Prop where
  holds : l.ring.Holds N q
  onWay : l.traffic.OnWay q

variable {l : Line α} {q : List α}

/-- Nothing is on its way in a ring of free slots. -/
theorem carries_start {slot : Nat → Option α} (hN : 0 < N) (h : ∀ i, slot i = none) :
    Carries N ⟨⟨slot, 0, 0⟩, ⟨[], []⟩⟩ [] :=
  ⟨⟨.nil h, hN, (Nat.zero_mod N).symm⟩, rfl⟩

theorem Carries.fill (h : l.Carries N q) (a : α) :
    Carries N (l.fill N a) (if q.length < N then q ++ [a] else q) := by
  have hfill := h.holds.fill a
  unfold Line.fill
  dsimp only
  by_cases hroom : q.length < N
  · rw [if_pos hroom] at hfill ⊢
    rw [if_pos hfill.1]
    exact ⟨hfill.2, h.onWay.put a⟩
  · rw [if_neg hroom] at hfill ⊢
    rw [hfill, if_neg Bool.false_ne_true]
    exact h

theorem Carries.drain (h : l.Carries N q) : Carries N (l.drain N) q.tail := by
  have hdrain := h.holds.drain
  unfold Line.drain
  dsimp only
  refine ⟨hdrain.2, ?_⟩
  rw [hdrain.1]
  cases q with
  | nil =>
    rw [List.head?_nil, Option.toList_none, List.append_nil]
    exact h.onWay
  | cons a q => exact h.onWay.get

end Line

end EveOS
