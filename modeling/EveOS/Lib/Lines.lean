/-
Lines of a byte string, as text protocols count them: each CRLF ends one.

A lone CR or LF is an ordinary byte of its line, and what follows the last CRLF
is a line too, an empty one where nothing follows.

Nothing in this file knows about the kernel.
-/
import EveOS.Lib.Bytes

set_option autoImplicit false

namespace EveOS

/-- Put a byte in front of the first line. -/
def consLine (b : UInt8) : List Bytes → List Bytes
  | [] => [[b]]
  | line :: rest => (b :: line) :: rest

/-- The lines of a byte string. -/
def crlfLines : Bytes → List Bytes
  | [] => [[]]
  | b :: rest =>
    if b = 13 ∧ rest.head? = some 10 then [] :: crlfLines rest.tail else consLine b (crlfLines rest)
termination_by bs => bs.length
decreasing_by all_goals simp only [List.length_tail, List.length_cons]; omega

theorem consLine_append {b : UInt8} {ls ms : List Bytes} (h : ls ≠ []) :
    consLine b (ls ++ ms) = consLine b ls ++ ms := by
  cases ls with
  | nil => exact absurd rfl h
  | cons line ls => rfl

theorem consLine_ne_nil (b : UInt8) (ls : List Bytes) : consLine b ls ≠ [] := by
  cases ls <;> simp [consLine]

theorem crlfLines_crlf (rest : Bytes) : crlfLines (13 :: 10 :: rest) = [] :: crlfLines rest := by
  rw [crlfLines, if_pos ⟨rfl, rfl⟩, List.tail_cons]

theorem crlfLines_cons {b : UInt8} {rest : Bytes} (h : ¬ (b = 13 ∧ rest.head? = some 10)) :
    crlfLines (b :: rest) = consLine b (crlfLines rest) := by
  rw [crlfLines, if_neg h]

theorem crlfLines_ne_nil (bs : Bytes) : crlfLines bs ≠ [] := by
  cases bs with
  | nil => simp [crlfLines]
  | cons b rest =>
    rw [crlfLines]
    split_ifs
    · exact List.cons_ne_nil _ _
    · exact consLine_ne_nil _ _

/-- **Lines are cut at every CRLF**, whatever stands around it. -/
theorem crlfLines_append (xs ys : Bytes) :
    crlfLines (xs ++ 13 :: 10 :: ys) = crlfLines xs ++ crlfLines ys := by
  fun_induction crlfLines xs with
  | case1 => rw [List.nil_append, crlfLines_crlf, List.singleton_append]
  | case2 b rest hcut ih =>
    -- the line ends here in both
    obtain ⟨rfl, hhead⟩ := hcut
    obtain ⟨tl, rfl⟩ : ∃ tl, rest = 10 :: tl := by
      cases rest with
      | nil => cases hhead
      | cons c tl =>
        obtain rfl : c = 10 := Option.some.inj hhead
        exact ⟨tl, rfl⟩
    rw [List.cons_append, List.cons_append, crlfLines_crlf, List.cons_append]
    exact congrArg ([] :: ·) ih
  | case3 b rest hcut ih =>
    -- `b` belongs to the first line; a CR in front of the CRLF does not end it
    have hcut' : ¬ (b = 13 ∧ (rest ++ 13 :: 10 :: ys).head? = some 10) := by
      cases rest with
      | nil => simp
      | cons c tl => exact hcut
    rw [List.cons_append, crlfLines_cons hcut', ih, consLine_append (crlfLines_ne_nil rest)]

/-- A string without CR is one line. -/
theorem crlfLines_of_no_cr {bs : Bytes} (h : 13 ∉ bs) : crlfLines bs = [bs] := by
  induction bs with
  | nil => simp [crlfLines]
  | cons b rest ih =>
    rw [List.mem_cons, not_or] at h
    rw [crlfLines_cons (fun hc => h.1 hc.1.symm), ih h.2]
    rfl

/-- A string that is one line is that line. -/
theorem eq_of_crlfLines_eq_singleton {bs line : Bytes} (h : crlfLines bs = [line]) : bs = line := by
  induction bs generalizing line with
  | nil =>
    rw [crlfLines] at h
    exact List.head_eq_of_cons_eq h
  | cons b rest ih =>
    by_cases hcut : b = 13 ∧ rest.head? = some 10
    · -- a cut leaves at least two lines
      rw [crlfLines, if_pos hcut] at h
      exact absurd (List.tail_eq_of_cons_eq h) (crlfLines_ne_nil _)
    · rw [crlfLines_cons hcut] at h
      obtain ⟨first, more, hls⟩ := List.exists_cons_of_ne_nil (crlfLines_ne_nil rest)
      rw [hls] at h
      obtain ⟨rfl, rfl⟩ := List.cons.inj h
      rw [ih hls]

end EveOS
