/-
Greedy wrapping: pieces that are not cut are put on a line as long as they fit.

`fill cap cur ts` are the lines that the pieces `ts` make, when `cur` stands on
the line already. A page with a limit shows the first of these lines, and says
whether there are more: `Page.Follows` is the invariant that every write keeps,
with the lines that are still to come.

Nothing in this file knows about the kernel.
-/
import EveOS.Lib.Page

set_option autoImplicit false

namespace EveOS

universe u

variable {α : Type u}

/-- The lines of pieces behind `cur`, each of at most `cap` cells. -/
def fill (cap : Nat) : List α → List (List α) → List (List α)
  | cur, [] => if cur = [] then [] else [cur]
  | cur, t :: ts =>
    if cur.length + t.length ≤ cap then fill cap (cur ++ t) ts else cur :: fill cap t ts

theorem fill_nil (cap : Nat) (cur : List α) : fill cap cur [] = if cur = [] then [] else [cur] := rfl

theorem fill_fits {cap : Nat} {cur t : List α} (h : cur.length + t.length ≤ cap) (ts : List (List α)) :
    fill cap cur (t :: ts) = fill cap (cur ++ t) ts := if_pos h

theorem fill_full {cap : Nat} {cur t : List α} (h : cap < cur.length + t.length) (ts : List (List α)) :
    fill cap cur (t :: ts) = cur :: fill cap t ts := if_neg (Nat.not_le.mpr h)

/-- What stands on a line begins one. -/
theorem fill_cons (cap : Nat) {cur : List α} (hcur : cur ≠ []) (ts : List (List α)) :
    ∃ line more, fill cap cur ts = line :: more := by
  induction ts generalizing cur with
  | nil => exact ⟨cur, [], if_neg hcur⟩
  | cons t ts ih =>
    by_cases hfits : cur.length + t.length ≤ cap
    · rw [fill_fits hfits]
      exact ih (List.append_ne_nil_of_left_ne_nil hcur t)
    · exact ⟨cur, fill cap t ts, fill_full (Nat.not_le.mp hfits) ts⟩

/-- Wrapping loses nothing. -/
theorem fill_flatten (cap : Nat) (cur : List α) (ts : List (List α)) :
    (fill cap cur ts).flatten = cur ++ ts.flatten := by
  induction ts generalizing cur with
  | nil =>
    rw [fill_nil]
    split_ifs with hempty
    · simp [hempty]
    · simp
  | cons t ts ih =>
    by_cases hfits : cur.length + t.length ≤ cap
    · rw [fill_fits hfits, ih, List.flatten_cons, List.append_assoc]
    · rw [fill_full (Nat.not_le.mp hfits), List.flatten_cons, ih, List.flatten_cons]

/-- What the pieces have, and two texts behind each other keep, the lines have. -/
theorem fill_keeps {P : List α → Prop} (happend : ∀ a b, P a → P b → P (a ++ b)) {cap : Nat}
    {cur : List α} {ts : List (List α)} (hcur : P cur) (hts : ∀ t ∈ ts, P t) :
    ∀ line ∈ fill cap cur ts, P line := by
  induction ts generalizing cur with
  | nil =>
    intro line hline
    rw [fill_nil] at hline
    split_ifs at hline
    · cases hline
    · rw [List.mem_singleton.mp hline]
      exact hcur
  | cons t ts ih =>
    have ht : P t := hts t List.mem_cons_self
    have hmore : ∀ t ∈ ts, P t := fun t h => hts t (List.mem_cons_of_mem _ h)
    by_cases hfits : cur.length + t.length ≤ cap
    · rw [fill_fits hfits]
      exact ih (happend cur t hcur ht) hmore
    · rw [fill_full (Nat.not_le.mp hfits)]
      intro line hline
      rcases List.mem_cons.mp hline with rfl | hline
      · exact hcur
      · exact ih ht hmore line hline

/-- No line is longer than `cap`. -/
theorem fill_length_le {cap : Nat} {cur : List α} {ts : List (List α)} (hcur : cur.length ≤ cap)
    (hts : ∀ t ∈ ts, t.length ≤ cap) : ∀ line ∈ fill cap cur ts, line.length ≤ cap := by
  induction ts generalizing cur with
  | nil =>
    intro line hline
    rw [fill_nil] at hline
    split_ifs at hline
    · cases hline
    · rw [List.mem_singleton.mp hline]
      exact hcur
  | cons t ts ih =>
    have hmore : ∀ t ∈ ts, t.length ≤ cap := fun t h => hts t (List.mem_cons_of_mem _ h)
    by_cases hfits : cur.length + t.length ≤ cap
    · rw [fill_fits hfits]
      exact ih (by rwa [List.length_append]) hmore
    · rw [fill_full (Nat.not_le.mp hfits)]
      intro line hline
      rcases List.mem_cons.mp hline with rfl | hline
      · exact hcur
      · exact ih (hts t List.mem_cons_self) hmore line hline

/-! ## Pages with a limit -/

namespace Page

/-- The page and the lines `more`, the one being written among them, are the
lines `W`; or it says that `W` does not fit, and has the part that does. -/
def Follows (limit : Nat) (W : List (List α)) (p : Page α) (more : List (List α)) : Prop :=
  if p.truncated = true then p.lines = W.take limit ∧ limit < W.length
  else p.lines.length ≤ limit ∧ p.lines ++ more = W

section Follows

variable {limit cap : Nat} {W : List (List α)} {p : Page α} {ts rest : List (List α)}

theorem Follows.going (h : Follows limit W p rest) (hgo : p.truncated = false) :
    p.lines.length ≤ limit ∧ p.lines ++ rest = W := by
  unfold Follows at h
  rwa [if_neg (by rw [hgo]; exact Bool.false_ne_true)] at h

theorem Follows.of_going (hgo : p.truncated = false) (hn : p.lines.length ≤ limit)
    (hW : p.lines ++ rest = W) : Follows limit W p rest := by
  unfold Follows
  rw [if_neg (by rw [hgo]; exact Bool.false_ne_true)]
  exact ⟨hn, hW⟩

/-- The page is full, and a line is left over. -/
theorem Follows.of_full {q : Page α} (htrunc : q.truncated = true) (hlines : q.lines.length = limit)
    {line : List α} (hW : q.lines ++ line :: rest = W) (more : List (List α)) :
    Follows limit W q more := by
  unfold Follows
  rw [if_pos htrunc, ← hW, ← hlines]
  refine ⟨by rw [List.take_left], ?_⟩
  rw [List.length_append, List.length_cons]
  omega

/-- The line is finished: the lines go on behind it. -/
theorem Follows.flush (h : Follows limit W p (p.cur :: rest)) (hgo : p.truncated = false) :
    Follows limit W (p.flush (upTo limit)) rest := by
  obtain ⟨hn, hW⟩ := h.going hgo
  unfold Page.flush
  by_cases hfull : limit ≤ p.lines.length
  · rw [if_pos (show upTo limit p.lines.length = true from decide_eq_true hfull)]
    exact Follows.of_full (q := { p with cur := [], truncated := true }) rfl
      (Nat.le_antisymm hn hfull) hW _
  · rw [if_neg (by rw [upTo, decide_eq_true_eq]; exact hfull)]
    refine .of_going hgo ?_ ?_
    · rw [List.length_append, List.length_singleton]
      omega
    · rw [List.append_assoc]
      exact hW

/-- Only the line being written changes. -/
theorem Follows.of_lines {q : Page α} (h : Follows limit W p rest) (hlines : q.lines = p.lines)
    (htrunc : q.truncated = p.truncated) : Follows limit W q rest := by
  unfold Follows at h ⊢
  rwa [hlines, htrunc]

theorem Follows.put {a : α} (h : Follows limit W p (fill cap p.cur ([a] :: ts) ++ rest))
    (hgo : p.truncated = false) :
    Follows limit W (p.put (upTo limit) cap a) (fill cap (p.put (upTo limit) cap a).cur ts ++ rest) := by
  unfold Page.put
  dsimp only
  by_cases hfull : cap ≤ p.cur.length
  · rw [fill_full (show cap < p.cur.length + [a].length by
      rw [List.length_singleton]
      omega)] at h
    rw [if_pos hfull, flush_cur, List.nil_append]
    exact (Follows.flush h hgo).of_lines rfl rfl
  · rw [fill_fits (show p.cur.length + [a].length ≤ cap by
      rw [List.length_singleton]
      omega)] at h
    rw [if_neg hfull]
    exact h.of_lines rfl rfl

theorem Follows.slice {as : List α} (hne : as ≠ []) (has : as.length ≤ cap)
    (h : Follows limit W p (fill cap p.cur (as :: ts) ++ rest)) (hgo : p.truncated = false) :
    Follows limit W (p.slice (upTo limit) cap as)
      (fill cap (p.slice (upTo limit) cap as).cur ts ++ rest) := by
  unfold Page.slice
  dsimp only
  rw [if_neg (Nat.not_lt.mpr has)]
  by_cases hfits : p.cur.length + as.length ≤ cap
  · rw [fill_fits hfits] at h
    rw [if_pos hfits]
    exact h.of_lines rfl rfl
  rw [fill_full (Nat.not_le.mp hfits), List.cons_append] at h
  rw [if_neg hfits]
  have hflush := Follows.flush h hgo
  by_cases hlast : upTo limit (p.flush (upTo limit)).lines.length = true
  · -- the line of `as` is the one behind the last
    rw [if_pos hlast]
    obtain ⟨line, more, hline⟩ := fill_cons cap hne ts
    rw [hline] at hflush
    by_cases htrunc : (p.flush (upTo limit)).truncated = true
    · unfold Follows at hflush ⊢
      rw [if_pos htrunc] at hflush
      exact hflush
    · obtain ⟨hn, hW⟩ := hflush.going (Bool.eq_false_iff.mpr htrunc)
      exact Follows.of_full (q := { p.flush (upTo limit) with truncated := true }) rfl
        (Nat.le_antisymm hn (of_decide_eq_true hlast)) hW _
  · rw [if_neg hlast]
    exact hflush.of_lines rfl rfl

/-- The end of a piece of text, whether or not the page is full. -/
theorem Follows.break_line (h : Follows limit W p (fill cap p.cur [] ++ rest)) :
    Follows limit W (p.break_line (upTo limit) false) rest := by
  show Follows limit W (p.end_line (upTo limit)) rest
  rw [fill_nil] at h
  unfold end_line
  by_cases hempty : p.cur = []
  · rw [if_pos hempty] at h ⊢
    exact h
  rw [if_neg hempty] at h ⊢
  by_cases htrunc : p.truncated = true
  · unfold Follows at h
    rw [if_pos htrunc] at h
    have hfull : upTo limit p.lines.length = true := by
      refine decide_eq_true ?_
      rw [h.1, List.length_take]
      omega
    unfold Page.flush
    rw [if_pos hfull]
    unfold Follows
    rw [if_pos rfl]
    exact h
  · exact Follows.flush h (Bool.eq_false_iff.mpr htrunc)

/-- **The page shows the first lines, and says whether there are more.** -/
theorem Follows.ends (h : Follows limit W p []) :
    p.lines = W.take limit ∧ (p.truncated = true ↔ limit < W.length) := by
  by_cases htrunc : p.truncated = true
  · unfold Follows at h
    rw [if_pos htrunc] at h
    exact ⟨h.1, fun _ => h.2, fun _ => htrunc⟩
  · obtain ⟨hn, hW⟩ := h.going (Bool.eq_false_iff.mpr htrunc)
    rw [List.append_nil] at hW
    rw [← hW]
    refine ⟨(List.take_of_length_le hn).symm, fun h => absurd h htrunc, fun h => ?_⟩
    omega

end Follows

end Page

end EveOS
