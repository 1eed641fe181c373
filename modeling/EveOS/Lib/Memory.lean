/-
Memory that several parties write to.

A memory is a byte for each address. A run of bytes is read back as it was
written, and not changed by a write elsewhere.

Nothing in this file knows about the kernel.
-/
import EveOS.Lib.Bytes

set_option autoImplicit false

namespace EveOS

abbrev Mem := Nat → UInt8

/-- The `n` bytes from `p` on. -/
def Mem.read (m : Mem) (p n : Nat) : Bytes := (List.range n).map fun i => m (p + i)

/-- Write `bs` from `p` on. -/
def Mem.write (m : Mem) (p : Nat) (bs : Bytes) : Mem := fun a =>
  if p ≤ a then (bs[a - p]?).getD (m a) else m a

variable {m : Mem} {p q n : Nat} {bs : Bytes}

@[simp] theorem Mem.length_read (m : Mem) (p n : Nat) : (m.read p n).length = n := by
  rw [Mem.read, List.length_map, List.length_range]

theorem Mem.getElem?_read {i : Nat} (h : i < n) : (m.read p n)[i]? = some (m (p + i)) := by
  rw [Mem.read, List.getElem?_map, List.getElem?_range h, Option.map_some]

theorem Mem.read_add (m : Mem) (p n k : Nat) : m.read p (n + k) = m.read p n ++ m.read (p + n) k := by
  simp only [Mem.read, List.range_add, List.map_append, List.map_map, Function.comp_def, Nat.add_assoc]

/-- A byte that is written. -/
theorem Mem.write_at {i : Nat} (h : i < bs.length) : m.write p bs (p + i) = bs[i] := by
  rw [Mem.write, if_pos (Nat.le_add_right p i), Nat.add_sub_cancel_left,
    List.getElem?_eq_getElem h, Option.getD_some]

/-- A byte in front of what is written, or behind it. -/
theorem Mem.write_apart {a : Nat} (h : a < p ∨ p + bs.length ≤ a) : m.write p bs a = m a := by
  unfold Mem.write
  split_ifs with hle
  · rw [List.getElem?_eq_none (by omega), Option.getD_none]
  · rfl

/-- Bytes that no address of a write touches. -/
theorem Mem.read_congr {m' : Mem} (h : ∀ i < n, m' (p + i) = m (p + i)) : m'.read p n = m.read p n := by
  refine List.ext_getElem? ?_
  intro i
  by_cases hi : i < n
  · rw [Mem.getElem?_read hi, Mem.getElem?_read hi, h i hi]
  · rw [List.getElem?_eq_none (by rw [Mem.length_read]; omega),
      List.getElem?_eq_none (by rw [Mem.length_read]; omega)]

/-- **What was written is read back**, part by part. -/
theorem Mem.read_write_part (m : Mem) (p : Nat) (bs : Bytes) {k : Nat} (h : k + n ≤ bs.length) :
    (m.write p bs).read (p + k) n = (bs.drop k).take n := by
  refine List.ext_getElem? ?_
  intro i
  by_cases hi : i < n
  · rw [Mem.getElem?_read hi, Nat.add_assoc, Mem.write_at (by omega), List.getElem?_take_of_lt hi,
      List.getElem?_drop, List.getElem?_eq_getElem (by omega)]
  · rw [List.getElem?_eq_none (by rw [Mem.length_read]; omega),
      List.getElem?_eq_none (by rw [List.length_take]; omega)]

end EveOS
