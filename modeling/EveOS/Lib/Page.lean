/-
Pages: lines that are filled from the left and cut where they are full.

A page has its finished lines, the line being written, and a flag that says that
something was left out. What is written on it is a sequence of cells of any type,
one by one (`put`) or several that stay together (`slice`). How many lines there
are is a parameter `full`, which says whether a page with this many lines has
room for another; with `full := fun _ => false` the page has no end.

Cells are never looked at, so a page of cells that remember where they come from
is cut where the page of the bare cells is (`Page.run_map`). As long as nothing
is left out, the text of the page is what was written (`Page.run_text`), and the
page is what a page without an end would be (`Page.run_free`).

Nothing in this file knows about the kernel.
-/
import Mathlib

set_option autoImplicit false

namespace EveOS

universe u v

@[ext] structure Page (α : Type u) where
  lines : List (List α)
  cur : List α
  truncated : Bool

namespace Page

variable {α : Type u} {β : Type v}

def empty : Page α := ⟨[], [], false⟩

/-- Everything that was written and is still there. -/
def text (p : Page α) : List α := p.lines.flatten ++ p.cur

/-- Finish the line. Without room for it, it is lost. -/
def flush (full : Nat → Bool) (p : Page α) : Page α :=
  if full p.lines.length then { p with cur := [], truncated := true }
  else { p with lines := p.lines ++ [p.cur], cur := [] }

/-- Write a cell on a line of width `w`. -/
def put (full : Nat → Bool) (w : Nat) (a : α) (p : Page α) : Page α :=
  let q := if w ≤ p.cur.length then p.flush full else p
  { q with cur := q.cur ++ [a] }

/-- Write cells that stay together. They are dropped when they do not fit a line,
or when their line would be the one behind the last. -/
def slice (full : Nat → Bool) (w : Nat) (as : List α) (p : Page α) : Page α :=
  if w < as.length then { p with truncated := true }
  else if p.cur.length + as.length ≤ w then { p with cur := p.cur ++ as }
  else
    let q := p.flush full
    if full q.lines.length then { q with truncated := true } else { q with cur := as }

/-- Finish the line, unless it is empty. -/
def end_line (full : Nat → Bool) (p : Page α) : Page α := if p.cur = [] then p else p.flush full

/-- Begin a new line, and leave an empty one in front of it if asked to. -/
def break_line (full : Nat → Bool) (blank : Bool) (p : Page α) : Page α :=
  let q := p.end_line full
  if blank && !full q.lines.length then { q with lines := q.lines ++ [[]] } else q

/-- A page of at most `limit` lines. -/
def upTo (limit : Nat) (n : Nat) : Bool := decide (limit ≤ n)

/-- What can be done with a page. -/
inductive Op (α : Type u)
  | put (w : Nat) (a : α)
  | slice (w : Nat) (as : List α)
  | break_line (blank : Bool)

/-- The cells of an operation. -/
def Op.cells : Op α → List α
  | .put _ a => [a]
  | .slice _ as => as
  | .break_line _ => []

def Op.map (f : α → β) : Op α → Op β
  | .put w a => .put w (f a)
  | .slice w as => .slice w (as.map f)
  | .break_line blank => .break_line blank

def apply (full : Nat → Bool) (p : Page α) : Op α → Page α
  | .put w a => p.put full w a
  | .slice w as => p.slice full w as
  | .break_line blank => p.break_line full blank

def run (full : Nat → Bool) (ops : List (Op α)) (p : Page α) : Page α := ops.foldl (apply full) p

@[simp] theorem run_nil (full : Nat → Bool) (p : Page α) : run full [] p = p := rfl

@[simp] theorem run_cons (full : Nat → Bool) (op : Op α) (ops : List (Op α)) (p : Page α) :
    run full (op :: ops) p = run full ops (p.apply full op) := rfl

theorem run_append (full : Nat → Bool) (ops more : List (Op α)) (p : Page α) :
    run full (ops ++ more) p = run full more (run full ops p) := List.foldl_append

/-- The cells of operations. -/
def cells (ops : List (Op α)) : List α := ops.flatMap Op.cells

/-! ## Cells are not looked at -/

def map (f : α → β) (p : Page α) : Page β := ⟨p.lines.map (List.map f), p.cur.map f, p.truncated⟩

section Naturality

variable (full : Nat → Bool) (f : α → β)

theorem flush_map (p : Page α) : (p.flush full).map f = (p.map f).flush full := by
  unfold flush map
  dsimp only
  rw [List.length_map]
  split_ifs
  · rfl
  · simp only [List.map_append, List.map_cons, List.map_nil]

theorem put_map (w : Nat) (a : α) (p : Page α) :
    (p.put full w a).map f = (p.map f).put full w (f a) := by
  have hcur : (p.map f).cur.length = p.cur.length := List.length_map f
  unfold put
  dsimp only
  rw [hcur]
  split_ifs
  · rw [← flush_map]
    simp only [map, List.map_append, List.map_cons, List.map_nil]
  · simp only [map, List.map_append, List.map_cons, List.map_nil]

theorem slice_map (w : Nat) (as : List α) (p : Page α) :
    (p.slice full w as).map f = (p.map f).slice full w (as.map f) := by
  have hcur : (p.map f).cur.length = p.cur.length := List.length_map f
  have hlines : ∀ q : Page α, (q.map f).lines.length = q.lines.length := fun q => List.length_map _
  unfold slice
  dsimp only
  rw [List.length_map, hcur, ← flush_map, hlines]
  split_ifs
  · rfl
  · simp only [map, List.map_append]
  · rfl
  · rfl

theorem end_line_map (p : Page α) : (p.end_line full).map f = (p.map f).end_line full := by
  have hcur : (p.map f).cur = [] ↔ p.cur = [] := List.map_eq_nil_iff
  unfold end_line
  by_cases hempty : p.cur = []
  · rw [if_pos hempty, if_pos (hcur.mpr hempty)]
  · rw [if_neg hempty, if_neg fun h => hempty (hcur.mp h), flush_map]

theorem break_line_map (blank : Bool) (p : Page α) :
    (p.break_line full blank).map f = (p.map f).break_line full blank := by
  have hlines : ∀ q : Page α, (q.map f).lines.length = q.lines.length := fun q => List.length_map _
  unfold break_line
  dsimp only
  rw [← end_line_map, hlines]
  split_ifs
  · simp only [map, List.map_append, List.map_cons, List.map_nil]
  · rfl

theorem apply_map (op : Op α) (p : Page α) : (p.apply full op).map f = (p.map f).apply full (op.map f) := by
  cases op with
  | put w a => exact put_map full f w a p
  | slice w as => exact slice_map full f w as p
  | break_line blank => exact break_line_map full f blank p

/-- **A page is cut without looking at its cells.** -/
theorem run_map (ops : List (Op α)) (p : Page α) :
    (run full ops p).map f = run full (ops.map (Op.map f)) (p.map f) := by
  induction ops generalizing p with
  | nil => rfl
  | cons op ops ih => rw [run_cons, ih, apply_map, List.map_cons, run_cons]

end Naturality

/-! ## Lines of one kind -/

/-- Every line, and the one being written, has the property. -/
def Lines (P : List α → Prop) (p : Page α) : Prop := (∀ l ∈ p.lines, P l) ∧ P p.cur

section Lines

variable {full : Nat → Bool} {P : List α → Prop} {p : Page α}

theorem Lines.flush (hnil : P []) (h : p.Lines P) : (p.flush full).Lines P := by
  unfold Page.flush
  split_ifs
  · exact ⟨h.1, hnil⟩
  · refine ⟨?_, hnil⟩
    intro l hl
    rcases List.mem_append.mp hl with hl | hl
    · exact h.1 l hl
    · rw [List.mem_singleton.mp hl]
      exact h.2

theorem Lines.end_line (hnil : P []) (h : p.Lines P) : (p.end_line full).Lines P := by
  unfold Page.end_line
  split_ifs
  · exact h
  · exact h.flush hnil

/-- An operation whose cells may stand behind a line with the property. -/
theorem Lines.apply (hnil : P []) {op : Op α} (hop : ∀ d, P d → P (d ++ op.cells)) (h : p.Lines P) :
    (p.apply full op).Lines P := by
  cases op with
  | put w a =>
    unfold Page.apply put
    dsimp only
    split_ifs
    · exact ⟨(h.flush hnil).1, hop _ (h.flush hnil).2⟩
    · exact ⟨h.1, hop _ h.2⟩
  | slice w as =>
    unfold Page.apply slice
    dsimp only
    split_ifs
    · exact h
    · exact ⟨h.1, hop _ h.2⟩
    · exact h.flush hnil
    · exact ⟨(h.flush hnil).1, hop [] hnil⟩
  | break_line blank =>
    have hend : (p.end_line full).Lines P := h.end_line hnil
    unfold Page.apply break_line
    dsimp only
    split_ifs
    · refine ⟨?_, hend.2⟩
      intro l hl
      rcases List.mem_append.mp hl with hl | hl
      · exact hend.1 l hl
      · rw [List.mem_singleton.mp hl]
        exact hnil
    · exact hend

theorem Lines.run (hnil : P []) {ops : List (Op α)} (hops : ∀ op ∈ ops, ∀ d, P d → P (d ++ op.cells))
    (h : p.Lines P) : (Page.run full ops p).Lines P := by
  induction ops generalizing p with
  | nil => exact h
  | cons op ops ih =>
    rw [run_cons]
    exact ih (fun op hop => hops op (List.mem_cons_of_mem _ hop))
      (h.apply hnil (hops op List.mem_cons_self))

end Lines

/-! ## What is kept -/

section Kept

variable (full : Nat → Bool)

theorem flush_cur (p : Page α) : (p.flush full).cur = [] := by
  unfold flush
  split_ifs <;> rfl

theorem flush_kept {p : Page α} (h : (p.flush full).truncated = false) :
    p.truncated = false ∧ full p.lines.length = false ∧
      p.flush full = { p with lines := p.lines ++ [p.cur], cur := [] } := by
  unfold flush at h ⊢
  split_ifs at h ⊢ with hfull
  exact ⟨h, Bool.eq_false_iff.mpr hfull, rfl⟩

theorem flush_text {p : Page α} (h : (p.flush full).truncated = false) :
    p.truncated = false ∧ (p.flush full).text = p.text := by
  refine ⟨(flush_kept full h).1, ?_⟩
  rw [(flush_kept full h).2.2]
  simp [text]

theorem end_line_cur (p : Page α) : (p.end_line full).cur = [] := by
  unfold end_line flush
  split_ifs with hempty
  · exact hempty
  · rfl
  · rfl

theorem end_line_text {p : Page α} (h : (p.end_line full).truncated = false) :
    p.truncated = false ∧ (p.end_line full).text = p.text := by
  unfold end_line at h ⊢
  split_ifs at h ⊢
  · exact ⟨h, rfl⟩
  · exact flush_text full h

/-- An operation that leaves nothing out adds its cells to the text. -/
theorem apply_text {op : Op α} {p : Page α} (h : (p.apply full op).truncated = false) :
    p.truncated = false ∧ (p.apply full op).text = p.text ++ op.cells := by
  cases op with
  | put w a =>
    unfold apply put at h ⊢
    dsimp only at h ⊢
    split_ifs at h ⊢ with hw
    · obtain ⟨htrunc, htext⟩ := flush_text full h
      rw [← htext]
      exact ⟨htrunc, by simp [text, Op.cells]⟩
    · exact ⟨h, by simp [text, Op.cells]⟩
  | slice w as =>
    unfold apply slice at h ⊢
    dsimp only at h ⊢
    by_cases hw : w < as.length
    · rw [if_pos hw] at h
      cases h
    rw [if_neg hw] at h ⊢
    by_cases hfits : p.cur.length + as.length ≤ w
    · rw [if_pos hfits] at h ⊢
      exact ⟨h, by simp [text, Op.cells]⟩
    rw [if_neg hfits] at h ⊢
    by_cases hfull : full (p.flush full).lines.length = true
    · rw [if_pos hfull] at h
      cases h
    rw [if_neg hfull] at h ⊢
    obtain ⟨htrunc, htext⟩ := flush_text full h
    have hcur : (p.flush full).cur = [] := by rw [(flush_kept full h).2.2]
    rw [← htext]
    exact ⟨htrunc, by simp [text, Op.cells, hcur]⟩
  | break_line blank =>
    unfold apply break_line at h ⊢
    dsimp only at h ⊢
    have hcur := end_line_cur full p
    split_ifs at h ⊢ with hblank
    · obtain ⟨htrunc, htext⟩ := end_line_text full h
      rw [← htext]
      exact ⟨htrunc, by simp [text, Op.cells, hcur]⟩
    · obtain ⟨htrunc, htext⟩ := end_line_text full h
      rw [← htext]
      exact ⟨htrunc, by simp [Op.cells]⟩

/-- **A page that leaves nothing out holds what was written.** -/
theorem run_text {ops : List (Op α)} {p : Page α} (h : (run full ops p).truncated = false) :
    p.truncated = false ∧ (run full ops p).text = p.text ++ cells ops := by
  induction ops generalizing p with
  | nil => exact ⟨h, by simp [cells]⟩
  | cons op ops ih =>
    rw [run_cons] at h ⊢
    obtain ⟨hop, htext⟩ := ih h
    obtain ⟨hp, happly⟩ := apply_text full hop
    refine ⟨hp, ?_⟩
    rw [htext, happly, List.append_assoc]
    rfl

end Kept

end Page

end EveOS
