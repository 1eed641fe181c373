/-
Bounded histories.

A history of at most `cap` entries with a current one: what a browser, an editor
or a shell keeps of the places it was at. It is a zipper, a list cut at the
current entry. To visit a new place discards what is ahead of the current entry,
and the oldest entry when there would be more than `cap`.

Nothing in this file knows about the kernel.
-/
import Mathlib

set_option autoImplicit false

namespace EveOS

/-- A list of at most `cap` entries with a current one. `back` has the nearest entry
first. -/
structure Zipper (α : Type*) (cap : Nat) where
  back : List α
  current : α
  forward : List α
  bounded : back.length + forward.length < cap

namespace Zipper

variable {α : Type*} {cap : Nat} (z : Zipper α cap)

/-- All entries, the oldest first. -/
def entries : List α := z.back.reverse ++ z.current :: z.forward

/-- The place of the current entry. -/
def pos : Nat := z.back.length

def count : Nat := z.back.length + 1 + z.forward.length

theorem entries_length : z.entries.length = z.count := by
  rw [entries, count, List.length_append, List.length_reverse, List.length_cons]
  omega

theorem pos_lt_count : z.pos < z.count := by
  rw [pos, count]
  omega

theorem count_le : z.count ≤ cap := by
  have := z.bounded
  rw [count]
  omega

theorem entries_pos : z.entries[z.pos]? = some z.current := by
  rw [entries, pos, List.getElem?_append_right (Nat.le_of_eq (List.length_reverse ..)),
    List.length_reverse, Nat.sub_self]
  rfl

theorem current_mem : z.current ∈ z.entries := List.mem_append_right _ List.mem_cons_self

/-- One step back. -/
def goBack : Zipper α cap → Zipper α cap
  | ⟨[], c, fs, h⟩ => ⟨[], c, fs, h⟩
  | ⟨b :: bs, c, fs, h⟩ =>
    ⟨bs, b, c :: fs, by
      rw [List.length_cons] at h ⊢
      omega⟩

/-- One step forward. -/
def goForward : Zipper α cap → Zipper α cap
  | ⟨bs, c, [], h⟩ => ⟨bs, c, [], h⟩
  | ⟨bs, c, f :: fs, h⟩ =>
    ⟨c :: bs, f, fs, by
      rw [List.length_cons] at h ⊢
      omega⟩

theorem goBack_pos : z.goBack.pos = z.pos - 1 := by
  obtain ⟨_ | ⟨b, bs⟩, c, fs, h⟩ := z
  · rfl
  · rfl

theorem goForward_pos : z.goForward.pos = min (z.pos + 1) (z.count - 1) := by
  obtain ⟨bs, c, _ | ⟨f, fs⟩, h⟩ := z
  · show bs.length = min (bs.length + 1) (bs.length + 1 - 1)
    omega
  · show bs.length + 1 = min (bs.length + 1) (bs.length + 1 + (fs.length + 1) - 1)
    omega

/-- Neither step changes the entries. -/
theorem goBack_entries : z.goBack.entries = z.entries := by
  obtain ⟨_ | ⟨b, bs⟩, c, fs, h⟩ := z
  · rfl
  · show bs.reverse ++ b :: c :: fs = (b :: bs).reverse ++ c :: fs
    rw [List.reverse_cons, List.append_assoc]
    rfl

theorem goForward_entries : z.goForward.entries = z.entries := by
  obtain ⟨bs, c, _ | ⟨f, fs⟩, h⟩ := z
  · rfl
  · show (c :: bs).reverse ++ f :: fs = bs.reverse ++ c :: f :: fs
    rw [List.reverse_cons, List.append_assoc]
    rfl

theorem goBack_of_first (h : z.pos = 0) : z.goBack = z := by
  obtain ⟨_ | ⟨b, bs⟩, c, fs, hb⟩ := z
  · rfl
  · cases h

theorem goForward_of_last (h : z.count ≤ z.pos + 1) : z.goForward = z := by
  obtain ⟨bs, c, _ | ⟨f, fs⟩, hb⟩ := z
  · rfl
  · have hlong : bs.length + 1 + (fs.length + 1) ≤ bs.length + 1 := h
    omega

/-- The entries up to the current one. -/
theorem take_entries : z.entries.take (z.pos + 1) = (z.current :: z.back).reverse := by
  rw [entries, pos, List.take_append, List.length_reverse, Nat.add_sub_cancel_left, List.reverse_cons,
    List.take_of_length_le (by rw [List.length_reverse]; omega)]
  rfl

/-! ## Visits -/

variable [DecidableEq α]

/-- A visit. -/
def visit (a : α) : Zipper α cap :=
  if a = z.current then z
  else
    ⟨(z.current :: z.back).take (cap - 1), a, [], by
      have := z.bounded
      have := List.length_take_le (cap - 1) (z.current :: z.back)
      rw [List.length_nil]
      omega⟩

theorem visit_current (a : α) : (z.visit a).current = a := by
  unfold visit
  split_ifs with h
  · exact h.symm
  · rfl

theorem visit_same : z.visit z.current = z := if_pos rfl

theorem visit_pos {a : α} (h : a ≠ z.current) : (z.visit a).pos = min (z.pos + 1) (cap - 1) := by
  rw [visit, if_neg h, pos, pos, List.length_take, List.length_cons, Nat.min_comm]

theorem visit_count {a : α} (h : a ≠ z.current) : (z.visit a).count = (z.visit a).pos + 1 := by
  rw [visit, if_neg h]
  rfl

/-- **What a visit of a new place leaves**: the entries up to the current one, the
last `cap - 1` of them, and the new one. -/
theorem visit_entries {a : α} (h : a ≠ z.current) :
    (z.visit a).entries = (z.entries.take (z.pos + 1)).drop (z.pos + 1 - (cap - 1)) ++ [a] := by
  rw [take_entries, visit, if_neg h]
  show ((z.current :: z.back).take (cap - 1)).reverse ++ [a] = _
  rw [List.reverse_take, List.length_cons, pos]

/-- Every entry that is there after a visit was there before, or is the new one. -/
theorem mem_visit {a e : α} (h : e ∈ (z.visit a).entries) : e ∈ z.entries ∨ e = a := by
  by_cases ha : a = z.current
  · rw [ha, visit_same] at h
    exact .inl h
  · rw [visit_entries z ha] at h
    rcases List.mem_append.mp h with hold | hnew
    · exact .inl (List.mem_of_mem_take (List.mem_of_mem_drop hold))
    · exact .inr (List.mem_singleton.mp hnew)

end Zipper

end EveOS
