/-
The screen functions return, within their arrays.

The lines fit the array of 128 and are at most 96 bytes long, and so is the line
being written. Every write keeps this.
-/
import EveOS.Html.Screen

set_option autoImplicit false

namespace EveOS.Html

/-- The screen fits its arrays. -/
structure ScreenOk (s : Screen) : Prop where
  count : s.lines.length ≤ BROWSER_MAX_LINES
  lines : ∀ l ∈ s.lines, l.len ≤ BROWSER_LINE_CAP
  cur : s.cur.len ≤ BROWSER_LINE_CAP

section Screen

variable {s : Screen}

theorem ScreenOk.of_cur (h : ScreenOk s) {cur : BrowserLine} (hc : cur.len ≤ BROWSER_LINE_CAP)
    (trunc : Bool) : ScreenOk ⟨s.lines, cur, trunc⟩ := ⟨h.count, h.lines, hc⟩

theorem ScreenOk.clear_with (h : ScreenOk s) (fg : Rgb) : ScreenOk (s.clear_with fg) :=
  h.of_cur (Nat.zero_le _) s.html_truncated

theorem put_line_returns (h : ScreenOk s) {line : BrowserLine} (hline : line.len ≤ BROWSER_LINE_CAP)
    (hroom : s.line_count < BROWSER_MAX_LINES) :
    Returns (s.put_line line) fun t => ScreenOk t ∧ t.cur = s.cur := by
  refine (push?_returns line hroom).bind fun lines hlines => .ret ⟨⟨?_, ?_, h.cur⟩, rfl⟩
  · rw [hlines, List.length_append, List.length_singleton]
    exact hroom
  · rw [hlines]
    intro l hl
    rcases List.mem_append.mp hl with hl | hl
    · exact h.lines l hl
    · rw [List.mem_singleton.mp hl]
      exact hline

theorem flush_line_returns (h : ScreenOk s) :
    Returns s.flush_line fun t => ScreenOk t ∧ t.cur.len = 0 := by
  unfold Screen.flush_line
  by_cases hfull : BROWSER_MAX_LINES ≤ s.line_count
  · rw [if_pos hfull]
    exact .ret ⟨h.of_cur (Nat.zero_le _) true, rfl⟩
  · rw [if_neg hfull]
    refine (put_line_returns h h.cur (Nat.lt_of_not_le hfull)).bind fun t ht => .ret ⟨?_, rfl⟩
    exact ht.1.of_cur (Nat.zero_le _) t.html_truncated

theorem next_line_returns (h : ScreenOk s) (fg : Rgb) :
    Returns (s.next_line fg) fun t => ScreenOk t ∧ t.cur.len = 0 :=
  (flush_line_returns h).bind fun _ ht => .ret ⟨ht.1.clear_with fg, rfl⟩

theorem emit_break_returns (h : ScreenOk s) (blank_after : Bool) (fg : Rgb) :
    Returns (s.emit_break blank_after fg) ScreenOk := by
  have hflush : Returns (if 0 < s.cur.len then s.flush_line else some s) ScreenOk := by
    split_ifs
    · exact (flush_line_returns h).mono fun t ht => ht.1
    · exact .ret h
  refine hflush.bind fun t ht => ?_
  have hput : Returns (if blank_after ∧ t.line_count < BROWSER_MAX_LINES then t.put_line (.new fg)
      else some t) ScreenOk := by
    split_ifs with hroom
    · exact (put_line_returns ht (Nat.zero_le _) hroom.2).mono fun u hu => hu.1
    · exact .ret ht
  exact hput.bind fun u hu => .ret (hu.clear_with fg)

theorem push_returns (h : ScreenOk s) (hroom : s.cur.len < BROWSER_LINE_CAP) (c : UInt8) :
    Returns (s.push c) fun t => ScreenOk t ∧ t.cur.len = s.cur.len + 1 := by
  have hcur : Returns (s.cur.push c) fun cur => cur.len = s.cur.len + 1 := by
    refine (push?_returns c hroom).bind fun data hdata => .ret ?_
    show data.length = s.cur.data.length + 1
    rw [hdata, List.length_append, List.length_singleton]
  refine hcur.bind fun cur hlen => .ret ⟨h.of_cur ?_ s.html_truncated, hlen⟩
  rw [hlen]
  exact hroom

theorem emit_char_returns (h : ScreenOk s) (c : UInt8) (fg : Rgb) :
    Returns (s.emit_char c fg) ScreenOk := by
  have hline : Returns (if BROWSER_LINE_CAP ≤ s.cur.len then s.next_line fg else some s) ScreenOk := by
    split_ifs
    · exact (next_line_returns h fg).mono fun t ht => ht.1
    · exact .ret h
  refine hline.bind fun t ht => ?_
  split_ifs with hfull hroom
  · exact .ret (ht.of_cur ht.cur true)
  · exact (push_returns ht hroom c).mono fun u hu => hu.1
  · exact .ret ht

theorem line_limit_le (cap : Nat) : line_limit cap ≤ BROWSER_LINE_CAP := by
  unfold line_limit BROWSER_LINE_CAP
  omega

theorem emit_char_cap_returns (h : ScreenOk s) (c : UInt8) (fg : Rgb) (cap : Nat) :
    Returns (s.emit_char_cap c fg cap) ScreenOk := by
  have hline : Returns (if line_limit cap ≤ s.cur.len then s.next_line fg else some s) ScreenOk := by
    split_ifs
    · exact (next_line_returns h fg).mono fun t ht => ht.1
    · exact .ret h
  refine hline.bind fun t ht => ?_
  split_ifs with hroom
  · exact (push_returns ht (Nat.lt_of_lt_of_le hroom (line_limit_le cap)) c).mono fun u hu => hu.1
  · exact .ret ht

theorem emit_chars_cap_returns (h : ScreenOk s) (n : Nat) (c : UInt8) (fg : Rgb) (cap : Nat) :
    Returns (s.emit_chars_cap n c fg cap) ScreenOk :=
  Returns.foldlM (fun _ c ht => emit_char_cap_returns ht c fg cap) h _

/-- **Room is made in at most one line**: a new line is empty. -/
theorem make_room_returns (h : ScreenOk s) {n limit : Nat} (hn : n ≤ limit) (fg : Rgb) :
    Returns (s.make_room n limit fg) fun r =>
      ScreenOk r.1 ∧ (r.2 = true → r.1.cur.len + n ≤ limit) := by
  refine loop_returns (I := ScreenOk) (m := fun s => s.cur.len) ?_ h (Nat.lt_succ_self _)
  intro s hs
  unfold make_room_round
  dsimp only
  by_cases hroom : s.cur.len + n ≤ limit
  · rw [if_pos hroom]
    exact .done ⟨hs, fun _ => hroom⟩
  rw [if_neg hroom]
  refine (next_line_returns hs fg).bind fun t ht => ?_
  split_ifs
  · exact .done ⟨ht.1.of_cur ht.1.cur true, nofun⟩
  · exact .goOn ht.1 (by omega)

/-- The bytes of a slice, for which room was made. -/
theorem push_slice_returns (h : ScreenOk s) {slice : Bytes}
    (hroom : s.cur.len + slice.length ≤ BROWSER_LINE_CAP) :
    Returns (slice.foldlM Screen.push s) ScreenOk := by
  induction slice generalizing s with
  | nil => exact .ret h
  | cons c slice ih =>
    rw [List.length_cons] at hroom
    rw [List.foldlM_cons]
    refine (push_returns h (by omega) c).bind fun t ht => ih ht.1 ?_
    omega

theorem emit_slice_cap_returns (h : ScreenOk s) (slice : Bytes) (fg : Rgb) (cap : Nat) :
    Returns (s.emit_slice_cap slice fg cap) ScreenOk := by
  unfold Screen.emit_slice_cap
  dsimp only
  by_cases hempty : slice = []
  · rw [if_pos hempty]
    exact .ret h
  rw [if_neg hempty]
  by_cases hlong : BROWSER_LINE_CAP < slice.length ∨ line_limit cap < slice.length
  · rw [if_pos hlong]
    exact .ret (h.of_cur h.cur true)
  rw [if_neg hlong]
  rw [not_or, Nat.not_lt, Nat.not_lt] at hlong
  refine (make_room_returns h hlong.2 fg).bind fun r hr => ?_
  split_ifs with hno hfit
  · exact .ret hr.1
  · exact .ret (hr.1.of_cur hr.1.cur true)
  · exact push_slice_returns hr.1 (Nat.le_of_not_lt hfit)

end Screen

end EveOS.Html
