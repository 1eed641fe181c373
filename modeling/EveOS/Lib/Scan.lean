/-
Cursors.

Hand-written parsers move an index over a byte string: `while i < s.len() &&
p(s[i]) { i += 1 }` is `scan p s i`. An index never moves back here, and stays
inside the string if it began there; it can begin behind the end, where every
check of the form `i < s.len() && ..` fails.

Nothing in this file knows about the kernel.
-/
import EveOS.Lib.Bytes

set_option autoImplicit false

namespace EveOS

/-- Move on while the byte under the cursor has the property. -/
def scan (p : UInt8 → Bool) (s : Bytes) (i : Nat) : Nat := i + ((s.drop i).takeWhile p).length

variable {p : UInt8 → Bool} {s : Bytes} {i : Nat}

theorem le_scan (p : UInt8 → Bool) (s : Bytes) (i : Nat) : i ≤ scan p s i := Nat.le_add_right _ _

theorem scan_le (p : UInt8 → Bool) (h : i ≤ s.length) : scan p s i ≤ s.length := by
  have hlen := (List.takeWhile_sublist p (l := s.drop i)).length_le
  rw [List.length_drop] at hlen
  unfold scan
  omega

/-- Behind the end the cursor stays where it is. -/
theorem scan_of_le (p : UInt8 → Bool) (h : s.length ≤ i) : scan p s i = i := by
  rw [scan, List.drop_eq_nil_of_le h, List.takeWhile_nil, List.length_nil, Nat.add_zero]

/-- The cursor moves when the byte under it has the property. -/
theorem lt_scan (h : i < s.length) (hp : p s[i] = true) : i < scan p s i := by
  unfold scan
  rw [List.drop_eq_getElem_cons h, List.takeWhile_cons_of_pos hp, List.length_cons]
  omega

/-- The byte a cursor stops at does not have the property. -/
theorem scan_stops (h : scan p s i < s.length) : p s[scan p s i] = false := by
  have hhead := List.head?_dropWhile_not p (s.drop i)
  have hat : ((s.drop i).dropWhile p).head? = some s[scan p s i] := by
    rw [List.head?_eq_getElem?, ← @List.drop_left _ ((s.drop i).takeWhile p) ((s.drop i).dropWhile p),
      List.takeWhile_append_dropWhile, List.drop_drop, List.getElem?_drop]
    exact List.getElem?_eq_getElem h
  rw [hat] at hhead
  exact hhead

/-- A cursor that stops in the front part stops there whatever follows. -/
theorem scan_append (h : scan p s i < s.length) (t : Bytes) : scan p (s ++ t) i = scan p s i := by
  have hi : i ≤ s.length := by have := le_scan p s i; omega
  unfold scan at h ⊢
  rw [List.drop_append_of_le_length hi, List.takeWhile_append, if_neg]
  rw [List.length_drop]
  omega

/-- A cursor that passes the byte behind the front part, when it gets there. -/
theorem scan_lt_of_scan_append_le {c : UInt8} {t : Bytes} (hi : i ≤ s.length) (hc : p c = true)
    (h : scan p (s ++ c :: t) i ≤ s.length) : scan p s i < s.length := by
  by_contra hend
  have hle := scan_le p hi
  unfold scan at h hend hle
  rw [List.drop_append_of_le_length hi, List.takeWhile_append, if_pos, List.length_append,
    List.length_drop, List.takeWhile_cons_of_pos hc, List.length_cons] at h
  · omega
  · rw [List.length_drop]
    omega

/-! ## What stands at the cursor -/

/-- The cursor stands in front of `x`, which is the rest of the string. -/
def InFront (s : Bytes) (i : Nat) (x : Bytes) : Prop := ∃ front, s = front ++ x ∧ i = front.length

section InFront

variable {x w : Bytes} {c : UInt8}

theorem in_front (front x : Bytes) : InFront (front ++ x) front.length x := ⟨front, rfl, rfl⟩

theorem InFront.length (h : InFront s i x) : s.length = i + x.length := by
  obtain ⟨front, rfl, rfl⟩ := h
  exact List.length_append

theorem InFront.unique {j : Nat} (h : InFront s i x) (h' : InFront s j x) : i = j := by
  have hlen := h.length
  have hlen' := h'.length
  omega

theorem InFront.drop (h : InFront s i x) : s.drop i = x := by
  obtain ⟨front, rfl, rfl⟩ := h
  exact List.drop_left

theorem InFront.getElem? (h : InFront s i x) (j : Nat) : s[i + j]? = x[j]? := by
  rw [← h.drop, List.getElem?_drop]

/-- The byte under the cursor. -/
theorem InFront.head (h : InFront s i (c :: x)) : s[i]? = some c := h.getElem? 0

theorem InFront.skip (h : InFront s i (w ++ x)) : InFront s (i + w.length) x := by
  obtain ⟨front, rfl, rfl⟩ := h
  exact ⟨front ++ w, by rw [List.append_assoc], by rw [List.length_append]⟩

theorem InFront.next (h : InFront s i (c :: x)) : InFront s (i + 1) x := InFront.skip (w := [c]) h

/-- A word, up to what follows it. -/
theorem InFront.takeWhile_eq (h : InFront s i (w ++ x)) (hw : ∀ c ∈ w, p c = true)
    (hx : ∀ c, x.head? = some c → p c = false) : (s.drop i).takeWhile p = w := by
  have hstop : x.takeWhile p = [] := by
    cases x with
    | nil => rfl
    | cons c x => rw [List.takeWhile_cons_of_neg (by rw [hx c rfl]; exact Bool.false_ne_true)]
  rw [h.drop, List.takeWhile_append_of_pos hw, hstop, List.append_nil]

theorem InFront.scan_eq (h : InFront s i (w ++ x)) (hw : ∀ c ∈ w, p c = true)
    (hx : ∀ c, x.head? = some c → p c = false) : EveOS.scan p s i = i + w.length := by
  unfold EveOS.scan
  rw [h.takeWhile_eq hw hx]

theorem InFront.scan (h : InFront s i (w ++ x)) (hw : ∀ c ∈ w, p c = true)
    (hx : ∀ c, x.head? = some c → p c = false) : InFront s (EveOS.scan p s i) x := by
  rw [h.scan_eq hw hx]
  exact h.skip

theorem in_front_drop (h : i ≤ s.length) : InFront s i (s.drop i) :=
  ⟨s.take i, (List.take_append_drop i s).symm, (List.length_take_of_le h).symm⟩

/-- A cursor that moves on while it can. -/
theorem InFront.scan_dropWhile (h : InFront s i x) (p : UInt8 → Bool) :
    InFront s (EveOS.scan p s i) (x.dropWhile p) := by
  have hsplit : InFront s i (x.takeWhile p ++ x.dropWhile p) := by rwa [List.takeWhile_append_dropWhile]
  unfold EveOS.scan
  rw [h.drop]
  exact hsplit.skip

end InFront

/-- The byte at a cursor is inside the string. -/
theorem lt_of_getElem?_eq_some {b : UInt8} (h : s[i]? = some b) : i < s.length :=
  (List.getElem?_eq_some_iff.mp h).1

end EveOS
