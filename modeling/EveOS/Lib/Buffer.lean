/-
Writing into a slice.

A buffer of fixed length is a list, and a write outside of it is `none`, a panic. What
stands in it is best said by its parts: a write replaces a part by another one of the same length
(`write?_part`), and `copy_within` to the front moves a part there (`copy_within?_front`), whether or
not the two places overlap.

Nothing in this file knows about the kernel.
-/
import EveOS.Lib.Returns

set_option autoImplicit false

namespace EveOS

variable {α : Type} {p m r xs buf : List α}

/-- `buf[off..off + xs.len()].copy_from_slice(xs)`. -/
def write? (buf : List α) (off : Nat) (xs : List α) : Option (List α) :=
  if off + xs.length ≤ buf.length then some (buf.take off ++ (xs ++ buf.drop (off + xs.length))) else none

/-- `buf.copy_within(a..b, dest)`. -/
def copy_within? (buf : List α) (a b dest : Nat) : Option (List α) := do
  let xs ← slice? buf a b
  write? buf dest xs

/-- The part of a buffer that stands behind `p`. -/
theorem slice?_part (p m r : List α) : slice? (p ++ (m ++ r)) p.length (p.length + m.length) = some m := by
  rw [slice?_eq (by omega) (by simp only [List.length_append]; omega), List.drop_left,
    Nat.add_sub_cancel_left, List.take_left]

/-- **A write replaces a part.** -/
theorem write?_part (p r : List α) (h : xs.length = m.length) :
    write? (p ++ (m ++ r)) p.length xs = some (p ++ (xs ++ r)) := by
  rw [write?, if_pos, List.take_left, ← List.append_assoc p m r, List.drop_left']
  · rw [List.length_append, h]
  · simp only [List.length_append]
    omega

/-- A write inside a buffer. -/
theorem write?_returns {off : Nat} (h : off + xs.length ≤ buf.length) :
    Returns (write? buf off xs) fun r => r.length = buf.length := by
  refine ⟨_, if_pos h, ?_⟩
  show (buf.take off ++ (xs ++ buf.drop (off + xs.length))).length = buf.length
  rw [List.length_append, List.length_append, List.length_take, List.length_drop]
  omega

/-- **What stands in a buffer behind a write.** -/
theorem getElem?_write {off : Nat} {r : List α} (h : write? buf off xs = some r) (i : Nat) :
    r[i]? = if off ≤ i ∧ i < off + xs.length then xs[i - off]? else buf[i]? := by
  unfold write? at h
  split_ifs at h with hfits
  rw [← Option.some.inj h]
  have htake : (buf.take off).length = off := by
    rw [List.length_take]
    omega
  by_cases hfront : i < off
  · rw [if_neg (by omega), List.getElem?_append_left (by omega), List.getElem?_take_of_lt hfront]
  · rw [List.getElem?_append_right (by omega), htake]
    by_cases hin : i < off + xs.length
    · rw [if_pos ⟨by omega, hin⟩, List.getElem?_append_left (by omega)]
    · rw [if_neg (by omega), List.getElem?_append_right (by omega), List.getElem?_drop]
      congr 1
      omega

/-- **A write is one write behind another.** -/
theorem write?_append (buf : List α) (off : Nat) (xs ys : List α) :
    write? buf off (xs ++ ys) = write? buf off xs >>= fun b => write? b (off + xs.length) ys := by
  by_cases hfits : off + (xs ++ ys).length ≤ buf.length
  · rw [List.length_append] at hfits
    have htake : (buf.take off ++ xs).length = off + xs.length := by
      rw [List.length_append, List.length_take]
      omega
    have hlen : ys.length = ((buf.drop (off + xs.length)).take ys.length).length := by
      rw [List.length_take, List.length_drop]
      omega
    have hpart := write?_part (buf.take off ++ xs) ((buf.drop (off + xs.length)).drop ys.length) hlen
    rw [List.take_append_drop, htake, List.append_assoc, List.append_assoc] at hpart
    rw [write?, if_pos (by rw [List.length_append]; exact hfits), write?, if_pos (by omega), Option.bind_eq_bind,
      Option.bind_some, hpart, List.drop_drop, List.append_assoc, List.length_append, Nat.add_assoc]
  · rw [write?, if_neg hfits]
    by_cases hfirst : off + xs.length ≤ buf.length
    · rw [write?, if_pos hfirst, Option.bind_eq_bind, Option.bind_some, write?, if_neg]
      simp only [List.length_append, List.length_take, List.length_drop] at hfits ⊢
      omega
    · rw [write?, if_neg hfirst]
      rfl

theorem write?_nil {off : Nat} (h : off ≤ buf.length) : write? buf off [] = some buf := by
  rw [write?, if_pos (by simpa using h), List.nil_append, List.length_nil, Nat.add_zero, List.take_append_drop]

/-- A write at the front. -/
theorem write?_front (h : xs.length ≤ buf.length) : write? buf 0 xs = some (xs ++ buf.drop xs.length) := by
  rw [write?, if_pos (by omega), List.take_zero, List.nil_append, Nat.zero_add]

/-- A part of a buffer is moved to its front. -/
theorem copy_within?_front (p m r : List α) :
    copy_within? (p ++ (m ++ r)) p.length (p.length + m.length) 0 =
      some (m ++ (p ++ (m ++ r)).drop m.length) := by
  unfold copy_within?
  rw [slice?_part, Option.bind_eq_bind, Option.bind_some, write?_front]
  simp only [List.length_append]
  omega

/-! ## Writes in turn -/

/-- Writes in turn. -/
def write_all? : List α → List (Nat × List α) → Option (List α)
  | buf, [] => some buf
  | buf, (off, xs) :: parts => do
    let buf ← write? buf off xs
    write_all? buf parts

/-- Each part starts where the one before it ends, or behind that. -/
def Ascending : Nat → List (Nat × List α) → Prop
  | _, [] => True
  | off, (o, xs) :: parts => off ≤ o ∧ Ascending (o + xs.length) parts

/-- Where the last part ends. -/
def parts_end : Nat → List (Nat × List α) → Nat
  | off, [] => off
  | _, (o, xs) :: parts => parts_end (o + xs.length) parts

/-- What stands in `r`, which begins at `off`, when the parts are written. -/
def laid : Nat → List (Nat × List α) → List α → List α
  | _, [], r => r
  | off, (o, xs) :: parts, r =>
    r.take (o - off) ++ (xs ++ laid (o + xs.length) parts (r.drop (o - off + xs.length)))

theorem le_parts_end {off : Nat} {parts : List (Nat × List α)} (h : Ascending off parts) :
    off ≤ parts_end off parts := by
  induction parts generalizing off with
  | nil => exact Nat.le_refl off
  | cons part parts ih =>
    obtain ⟨o, xs⟩ := part
    have hle := ih h.2
    have hgap := h.1
    rw [parts_end]
    omega

/-- **Parts are laid over what was there.** -/
theorem write_all?_laid (p r : List α) (parts : List (Nat × List α)) (h : Ascending p.length parts)
    (hend : parts_end p.length parts ≤ p.length + r.length) :
    write_all? (p ++ r) parts = some (p ++ laid p.length parts r) := by
  induction parts generalizing p r with
  | nil => rfl
  | cons part parts ih =>
    obtain ⟨o, xs⟩ := part
    obtain ⟨hgap, hrest⟩ := h
    rw [parts_end] at hend
    have hle := le_parts_end hrest
    have htake : (r.take (o - p.length)).length = o - p.length := by
      rw [List.length_take]
      omega
    have hat : (p ++ r.take (o - p.length)).length = o := by
      rw [List.length_append, htake]
      omega
    have hdone : (p ++ (r.take (o - p.length) ++ xs)).length = o + xs.length := by
      rw [← List.append_assoc, List.length_append, hat]
    -- what is left alone, what is overwritten, and what is behind
    have hwrite : write? (p ++ r) o xs = some
        ((p ++ (r.take (o - p.length) ++ xs)) ++ r.drop (o - p.length + xs.length)) := by
      have hsplit : p ++ r = (p ++ r.take (o - p.length)) ++
          ((r.drop (o - p.length)).take xs.length ++ r.drop (o - p.length + xs.length)) := by
        rw [← List.drop_drop, List.take_append_drop, List.append_assoc, List.take_append_drop]
      have hlen : xs.length = ((r.drop (o - p.length)).take xs.length).length := by
        rw [List.length_take, List.length_drop]
        omega
      have hpart := write?_part (p ++ r.take (o - p.length)) (r.drop (o - p.length + xs.length)) hlen
      rw [← hsplit, hat] at hpart
      rw [hpart]
      simp only [List.append_assoc]
    rw [write_all?, hwrite, Option.bind_eq_bind, Option.bind_some, ih]
    · rw [hdone]
      simp only [laid, List.append_assoc]
    · rw [hdone]
      exact hrest
    · rw [hdone, List.length_drop]
      omega

end EveOS
