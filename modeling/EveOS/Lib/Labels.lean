/-
Labels with their length in front of them.

A label has 1 to 63 bytes, so that the two high bits of its length byte are clear, and a
list of labels ends with a zero byte.

Nothing in this file knows about the kernel.
-/
import EveOS.Lib.Bytes

set_option autoImplicit false

namespace EveOS

/-- A string that can be a label. -/
def IsLabel (l : Bytes) : Prop := 1 ≤ l.length ∧ l.length ≤ 63

instance (l : Bytes) : Decidable (IsLabel l) := inferInstanceAs (Decidable (_ ∧ _))

/-- The bytes of a list of labels without the zero byte. -/
def labels_wire (labels : List Bytes) : Bytes := (labels.map fun l => UInt8.ofNat l.length :: l).flatten

/-- Reads a list of labels to its zero byte, which has to be the last one. -/
def read_labels : Bytes → Option (List Bytes)
  | [] => none
  | b :: rest =>
    if b = 0 then if rest = [] then some [] else none
    else if rest.length < b.toNat then none
    else (read_labels (rest.drop b.toNat)).map (rest.take b.toNat :: ·)
  termination_by buf => buf.length
  decreasing_by
    rw [List.length_drop, List.length_cons]
    omega

variable {l : Bytes} {labels : List Bytes}

theorem labels_wire_cons (l : Bytes) (labels : List Bytes) :
    labels_wire (l :: labels) = UInt8.ofNat l.length :: (l ++ labels_wire labels) := rfl

/-- The length byte of a label is what it should be, and neither the end nor a pointer. -/
theorem IsLabel.byte (h : IsLabel l) :
    (UInt8.ofNat l.length).toNat = l.length ∧ UInt8.ofNat l.length ≠ 0 ∧
      UInt8.ofNat l.length &&& 0xC0 ≠ 0xC0 := by
  have hall : ∀ n ≤ 63, 1 ≤ n →
      (UInt8.ofNat n).toNat = n ∧ UInt8.ofNat n ≠ 0 ∧ UInt8.ofNat n &&& 0xC0 ≠ 0xC0 := by
    decide
  exact hall l.length h.2 h.1

/-- Reading undoes writing. -/
theorem read_labels_wire (h : ∀ l ∈ labels, IsLabel l) : read_labels (labels_wire labels ++ [0]) = some labels := by
  induction labels with
  | nil => simp [labels_wire, read_labels]
  | cons l labels ih =>
    obtain ⟨hlen, hne, -⟩ := (h l List.mem_cons_self).byte
    have hrest := ih fun l' hl' => h l' (List.mem_cons_of_mem _ hl')
    rw [labels_wire_cons, List.cons_append, List.append_assoc, read_labels, if_neg hne, hlen,
      if_neg (by rw [List.length_append]; omega), List.drop_left, List.take_left, hrest]
    rfl

/-- Pieces between separators take one byte less than labels. -/
theorem length_labels_wire {sep : UInt8} (h : labels ≠ []) :
    (labels_wire labels).length = ([sep].intercalate labels).length + 1 := by
  induction labels with
  | nil => exact absurd rfl h
  | cons l labels ih =>
    rw [labels_wire_cons, List.length_cons, List.length_append]
    cases labels with
    | nil => simp [labels_wire]
    | cons l' labels =>
      rw [ih (List.cons_ne_nil _ _), List.intercalate_cons_cons]
      simp only [List.length_append, List.length_singleton]
      omega

end EveOS
