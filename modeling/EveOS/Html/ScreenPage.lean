/-
The screen is a page of 128 lines.

`Screen.page` forgets the colours. Each screen function does to the page what one
operation of pages does, so what is known about pages holds of the screen.
-/
import EveOS.Html.ScreenReturns
import EveOS.Lib.Page

set_option autoImplicit false

namespace EveOS.Html

/-- The texts of the screen. -/
def Screen.page (s : Screen) : Page UInt8 := ⟨s.lines.map BrowserLine.data, s.cur.data, s.html_truncated⟩

/-- A page of at most `limit` lines has no room for another. -/
def screen_full : Nat → Bool := Page.upTo BROWSER_MAX_LINES

section Screen

variable {s t : Screen} {fg : Rgb}

theorem page_lines_length (s : Screen) : s.page.lines.length = s.line_count := List.length_map _

theorem screen_full_iff (s : Screen) : screen_full s.page.lines.length = true ↔ BROWSER_MAX_LINES ≤ s.line_count := by
  rw [page_lines_length]
  exact decide_eq_true_iff

theorem clear_with_page (s : Screen) (fg : Rgb) : (s.clear_with fg).page = { s.page with cur := [] } := rfl

theorem put_line_page {line : BrowserLine} (h : s.put_line line = some t) :
    t.page = { s.page with lines := s.page.lines ++ [line.data] } := by
  obtain ⟨lines, hpush, h⟩ := Returns.of_bind h
  obtain rfl := Option.some.inj h
  unfold push? at hpush
  split_ifs at hpush
  obtain rfl := Option.some.inj hpush
  simp [Screen.page]

theorem flush_line_page (h : s.flush_line = some t) : t.page = s.page.flush screen_full := by
  unfold Screen.flush_line at h
  unfold Page.flush
  by_cases hfull : BROWSER_MAX_LINES ≤ s.line_count
  · rw [if_pos hfull] at h
    rw [if_pos ((screen_full_iff s).mpr hfull)]
    obtain rfl := Option.some.inj h
    rfl
  · rw [if_neg hfull] at h
    rw [if_neg fun hc => hfull ((screen_full_iff s).mp hc)]
    obtain ⟨u, hput, h⟩ := Returns.of_bind h
    obtain rfl := Option.some.inj h
    show { u.page with cur := [] } = _
    rw [put_line_page hput]
    rfl

theorem next_line_page (h : s.next_line fg = some t) : t.page = s.page.flush screen_full := by
  obtain ⟨u, hflush, h⟩ := Returns.of_bind h
  obtain rfl := Option.some.inj h
  rw [clear_with_page, flush_line_page hflush, ← Page.flush_cur screen_full s.page]

theorem cur_empty_iff (s : Screen) : s.page.cur = [] ↔ ¬ 0 < s.cur.len := by
  rw [Nat.not_lt, Nat.le_zero]
  exact List.length_eq_zero_iff.symm

/-- `if cur.len > 0 { flush_line(..) }`. -/
theorem end_line_page (h : (if 0 < s.cur.len then s.flush_line else some s) = some t) :
    t.page = s.page.end_line screen_full := by
  unfold Page.end_line
  by_cases hpos : 0 < s.cur.len
  · rw [if_pos hpos] at h
    rw [if_neg fun hempty => (cur_empty_iff s).mp hempty hpos]
    exact flush_line_page h
  · rw [if_neg hpos] at h
    rw [if_pos ((cur_empty_iff s).mpr hpos), Option.some.inj h]

theorem emit_break_page {blank_after : Bool} (h : s.emit_break blank_after fg = some t) :
    t.page = s.page.break_line screen_full blank_after := by
  obtain ⟨u, hend, h⟩ := Returns.of_bind h
  obtain ⟨v, hput, h⟩ := Returns.of_bind h
  obtain rfl := Option.some.inj h
  have hu := end_line_page hend
  have hcur : u.page.cur = [] := by rw [hu, Page.end_line_cur]
  unfold Page.break_line
  dsimp only
  rw [← hu, clear_with_page]
  by_cases hblank : blank_after = true ∧ u.line_count < BROWSER_MAX_LINES
  · rw [if_pos hblank] at hput
    rw [put_line_page hput, if_pos, hcur]
    · rfl
    · rw [Bool.and_eq_true, Bool.not_eq_true', Bool.eq_false_iff]
      exact ⟨hblank.1, fun hfull => absurd ((screen_full_iff u).mp hfull) (Nat.not_le.mpr hblank.2)⟩
  · rw [if_neg hblank] at hput
    obtain rfl := Option.some.inj hput
    rw [if_neg, ← hcur]
    rw [Bool.and_eq_true, Bool.not_eq_true', Bool.eq_false_iff]
    rintro ⟨hb, hroom⟩
    exact hblank ⟨hb, Nat.lt_of_not_le fun hfull => hroom ((screen_full_iff u).mpr hfull)⟩

theorem push_page {c : UInt8} (h : s.push c = some t) : t.page = { s.page with cur := s.page.cur ++ [c] } := by
  obtain ⟨cur, hcur, h⟩ := Returns.of_bind h
  obtain rfl := Option.some.inj h
  obtain ⟨data, hdata, hcur⟩ := Returns.of_bind hcur
  obtain rfl := Option.some.inj hcur
  unfold push? at hdata
  split_ifs at hdata
  obtain rfl := Option.some.inj hdata
  rfl

theorem line_limit_pos (cap : Nat) : 0 < line_limit cap := Nat.lt_of_lt_of_le Nat.zero_lt_one (Nat.le_max_left _ _)

/-- A new line is begun where the old one is full. -/
theorem line_with_room_page {limit : Nat} (hpos : 0 < limit)
    (h : (if limit ≤ s.cur.len then s.next_line fg else some s) = some t) :
    t.page = (if limit ≤ s.page.cur.length then s.page.flush screen_full else s.page) ∧
      t.cur.len < limit := by
  by_cases hfull : limit ≤ s.cur.len
  · rw [if_pos hfull] at h
    have hpage := next_line_page h
    rw [if_pos (show limit ≤ s.page.cur.length from hfull)]
    refine ⟨hpage, ?_⟩
    show t.page.cur.length < _
    rw [hpage, Page.flush_cur]
    exact hpos
  · rw [if_neg hfull] at h
    obtain rfl := Option.some.inj h
    rw [if_neg (show ¬ limit ≤ s.page.cur.length from hfull)]
    exact ⟨rfl, Nat.lt_of_not_le hfull⟩

theorem emit_char_cap_page {c : UInt8} {cap : Nat} (h : s.emit_char_cap c fg cap = some t) :
    t.page = s.page.put screen_full (line_limit cap) c := by
  obtain ⟨u, hline, h⟩ := Returns.of_bind h
  obtain ⟨hu, hroom⟩ := line_with_room_page (line_limit_pos cap) hline
  rw [if_pos hroom] at h
  rw [push_page h, hu]
  rfl

/-- `emit_char` never comes to the test of the lines: the line it writes on has
room. -/
theorem emit_char_page {c : UInt8} (h : s.emit_char c fg = some t) :
    t.page = s.page.put screen_full BROWSER_LINE_CAP c := by
  obtain ⟨u, hline, h⟩ := Returns.of_bind h
  obtain ⟨hu, hroom⟩ := line_with_room_page (by decide) hline
  rw [if_neg fun hc => absurd hroom (Nat.not_lt.mpr hc.2), if_pos hroom] at h
  rw [push_page h, hu]
  rfl

theorem emit_chars_cap_page {n : Nat} {c : UInt8} {cap : Nat} (h : s.emit_chars_cap n c fg cap = some t) :
    t.page = Page.run screen_full (List.replicate n (.put (line_limit cap) c)) s.page := by
  unfold Screen.emit_chars_cap at h
  induction n generalizing s with
  | zero =>
    obtain rfl := Option.some.inj h
    rfl
  | succ n ih =>
    rw [List.replicate_succ, List.foldlM_cons] at h
    obtain ⟨u, hemit, h⟩ := Returns.of_bind h
    rw [ih h, emit_char_cap_page hemit, List.replicate_succ, Page.run_cons]
    rfl

/-- A line that is new has room for the slice, when the width has. -/
theorem make_room_page {n limit : Nat} (hn : n ≤ limit) {room : Bool}
    (h : s.make_room n limit fg = some (t, room)) :
    (s.page.cur.length + n ≤ limit ∧ t = s ∧ room = true) ∨
      (¬ s.page.cur.length + n ≤ limit ∧ room = !screen_full (s.page.flush screen_full).lines.length ∧
        t.page = if room then s.page.flush screen_full
          else { s.page.flush screen_full with truncated := true }) := by
  unfold Screen.make_room at h
  rw [loop] at h
  by_cases hfits : s.cur.len + n ≤ limit
  · have hround : make_room_round n limit fg s = some (.inr (s, true)) := if_pos hfits
    rw [hround] at h
    obtain ⟨rfl, rfl⟩ := Prod.mk.inj (Option.some.inj h)
    exact .inl ⟨hfits, rfl, rfl⟩
  refine .inr ⟨hfits, ?_⟩
  have hround : make_room_round n limit fg s = s.next_line fg >>= fun u =>
      if BROWSER_MAX_LINES ≤ u.line_count then some (.inr ({ u with html_truncated := true }, false))
      else some (.inl u) := if_neg hfits
  cases hnext : s.next_line fg with
  | none =>
    rw [hround, hnext] at h
    cases h
  | some u =>
    have hu := next_line_page hnext
    have hfull := screen_full_iff u
    rw [hu] at hfull
    rw [hround, hnext, Option.bind_eq_bind, Option.bind_some] at h
    by_cases hlast : BROWSER_MAX_LINES ≤ u.line_count
    · rw [if_pos hlast] at h
      obtain ⟨rfl, rfl⟩ := Prod.mk.inj (Option.some.inj h)
      rw [hfull.mpr hlast]
      refine ⟨rfl, ?_⟩
      rw [← hu]
      rfl
    · rw [if_neg hlast] at h
      dsimp only at h
      -- the new line is empty, and there is another round
      have hnew : u.cur.len = 0 := by
        show u.page.cur.length = 0
        rw [hu, Page.flush_cur]
        rfl
      obtain ⟨k, hk⟩ : ∃ k, s.cur.len = k + 1 := ⟨s.cur.len - 1, by omega⟩
      rw [hk, loop, show make_room_round n limit fg u = some (.inr (u, true)) from
        if_pos (by omega)] at h
      obtain ⟨rfl, rfl⟩ := Prod.mk.inj (Option.some.inj h)
      rw [Bool.eq_false_iff.mpr fun hc => hlast (hfull.mp hc)]
      exact ⟨rfl, hu⟩

theorem push_slice_page {slice : Bytes} (h : slice.foldlM Screen.push s = some t) :
    t.page = { s.page with cur := s.page.cur ++ slice } := by
  induction slice generalizing s with
  | nil =>
    obtain rfl := Option.some.inj h
    rw [List.append_nil]
  | cons c slice ih =>
    rw [List.foldlM_cons] at h
    obtain ⟨u, hpush, h⟩ := Returns.of_bind h
    rw [ih h, push_page hpush, List.append_assoc]
    rfl

theorem emit_slice_cap_page {slice : Bytes} {cap : Nat} (hne : slice ≠ [])
    (h : s.emit_slice_cap slice fg cap = some t) :
    t.page = s.page.slice screen_full (line_limit cap) slice := by
  have hlimit := line_limit_le cap
  unfold Screen.emit_slice_cap at h
  unfold Page.slice
  dsimp only at h ⊢
  rw [if_neg hne] at h
  by_cases hlong : line_limit cap < slice.length
  · rw [if_pos (.inr hlong)] at h
    rw [if_pos hlong, ← Option.some.inj h]
    rfl
  rw [if_neg (by omega)] at h
  rw [if_neg hlong]
  obtain ⟨⟨u, room⟩, hroom, h⟩ := Returns.of_bind h
  dsimp only at h
  rcases make_room_page (Nat.not_lt.mp hlong) hroom with ⟨hfits, rfl, rfl⟩ | ⟨hfits, rfl, hu⟩
  · rw [if_pos hfits]
    have hcap : ¬ BROWSER_LINE_CAP < u.cur.len + slice.length :=
      Nat.not_lt.mpr (Nat.le_trans hfits hlimit)
    rw [Bool.not_true, if_neg Bool.false_ne_true, if_neg hcap] at h
    exact push_slice_page h
  · rw [if_neg hfits]
    by_cases hlast : screen_full (s.page.flush screen_full).lines.length = true
    · rw [hlast] at h hu
      obtain rfl := Option.some.inj h
      rw [if_pos hlast]
      exact hu
    · rw [Bool.eq_false_iff.mpr hlast] at h hu
      rw [if_neg hlast]
      rw [Bool.not_false, if_pos rfl] at hu
      have hnew : u.cur.len = 0 := by
        show u.page.cur.length = 0
        rw [hu, Page.flush_cur]
        rfl
      rw [Bool.not_false, Bool.not_true, if_neg Bool.false_ne_true, if_neg (by omega)] at h
      rw [push_slice_page h, hu, Page.flush_cur, List.nil_append]

end Screen

end EveOS.Html
