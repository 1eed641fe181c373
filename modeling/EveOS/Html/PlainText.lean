/-
Plain text is wrapped exactly.

`wrap` says what a text without markup looks like: it is cut at CR and LF, every
byte that does not begin a character becomes `?`, and the characters are put on
lines of 96 bytes as long as they fit. `plain_lines` goes through the text once,
with the characters of one byte and the longer ones written by different
functions; the page it writes is followed by the lines that `wrap` still has.
-/
import EveOS.Html.Rendering
import EveOS.Html.ScreenPage
import EveOS.Lib.Wrap

set_option autoImplicit false

namespace EveOS.Html

/-! ## What a text looks like -/

def is_line_end (b : UInt8) : Bool := b == 10 || b == 13

/-- The pieces between CR and LF that are not empty. -/
def text_pieces (raw : Bytes) : List Bytes := (raw.splitOnP is_line_end).filter (· ≠ [])

/-- How many bytes follow the first one in a sequence that begins with `b`. -/
def more_bytes (b : UInt8) : Nat := (utf8_lead_len b).getD 1 - 1

/-- The sequences of a text, with `?` for the bytes that begin none. -/
def characters : Bytes → List Bytes
  | [] => []
  | b :: tail =>
    if utf8_seq_valid (b :: tail) then
      (b :: tail.take (more_bytes b)) :: characters (tail.drop (more_bytes b))
    else ascii "?" :: characters tail
termination_by s => s.length
decreasing_by all_goals simp only [List.length_drop, List.length_cons]; omega

/-- The lines of a text. -/
def wrap (raw : Bytes) : List Bytes :=
  (text_pieces raw).flatMap fun piece => fill BROWSER_LINE_CAP [] (characters piece)

/-! ## Sequences -/

theorem utf8_lead_len_bounds {b : UInt8} {n : Nat} (h : utf8_lead_len b = some n) : 1 ≤ n ∧ n ≤ 4 := by
  unfold utf8_lead_len at h
  split_ifs at h
  all_goals
    obtain rfl := Option.some.inj h
    decide

theorem more_bytes_le (b : UInt8) : more_bytes b ≤ 3 := by
  unfold more_bytes
  cases hlead : utf8_lead_len b with
  | none => decide
  | some n =>
    have hn := (utf8_lead_len_bounds hlead).2
    rw [Option.getD_some]
    omega

/-- The sequence at the front of a text: its first byte says how many
continuation bytes follow. -/
theorem utf8_seq_valid_cons (b : UInt8) (tail : Bytes) :
    utf8_seq_valid (b :: tail) = true ↔
      (utf8_lead_len b).isSome ∧ more_bytes b ≤ tail.length ∧
        ∀ c ∈ tail.take (more_bytes b), c &&& 0xC0 = 0x80 := by
  unfold utf8_seq_valid more_bytes
  rw [List.head?_cons, Option.bind_some]
  cases hlead : utf8_lead_len b with
  | none => simp
  | some n =>
    obtain ⟨hpos, -⟩ := utf8_lead_len_bounds hlead
    obtain ⟨k, rfl⟩ : ∃ k, n = k + 1 := ⟨n - 1, by omega⟩
    dsimp only [Option.getD_some]
    rw [Nat.add_sub_cancel, List.take_succ_cons, List.tail_cons, Bool.and_eq_true, decide_eq_true_iff,
      List.length_cons, List.all_eq_true]
    simp only [beq_iff_eq, Nat.add_le_add_iff_right, Option.isSome_some, true_and]

/-- `utf8_char` takes the sequence at the front. -/
theorem utf8_char_eq (b : UInt8) (tail : Bytes) :
    utf8_char (b :: tail) b =
      if utf8_seq_valid (b :: tail) = true then some (b :: tail.take (more_bytes b)) else none := by
  unfold utf8_char
  cases hlead : utf8_lead_len b with
  | none =>
    rw [if_neg fun h => by simpa [hlead] using ((utf8_seq_valid_cons b tail).mp h).1]
  | some n =>
    obtain ⟨hpos, -⟩ := utf8_lead_len_bounds hlead
    obtain ⟨k, rfl⟩ : ∃ k, n = k + 1 := ⟨n - 1, by omega⟩
    have hmore : more_bytes b = k := by
      unfold more_bytes
      rw [hlead]
      rfl
    have hwhole := utf8_seq_valid_cons b tail
    have hfront := utf8_seq_valid_cons b (tail.take k)
    rw [hmore] at hwhole hfront ⊢
    rw [List.take_take, Nat.min_self] at hfront
    dsimp only
    rw [List.take_succ_cons, List.length_cons]
    by_cases hlen : k ≤ tail.length
    · have hsame : utf8_seq_valid (b :: tail.take k) = utf8_seq_valid (b :: tail) := by
        rw [Bool.eq_iff_iff, hfront, hwhole, List.length_take, Nat.min_eq_left hlen]
        simp only [hlen, Nat.le_refl]
      rw [hsame]
      cases utf8_seq_valid (b :: tail)
      · rw [if_pos (.inr rfl), if_neg Bool.false_ne_true]
      · rw [if_neg (by simp; omega), if_pos rfl]
    · rw [if_pos (.inl (by omega)), if_neg fun h => hlen (hwhole.mp h).2.1]

/-! ## Going through the text -/

/-- Up to the end of the line. -/
def on_line (c : UInt8) : Bool := !is_line_end c

theorem is_line_end_iff (b : UInt8) : is_line_end b = true ↔ b = 10 ∨ b = 13 := by
  rw [is_line_end, Bool.or_eq_true, beq_iff_eq, beq_iff_eq]

/-- No continuation byte ends a line. -/
theorem continuation_on_line {c : UInt8} (h : c &&& 0xC0 = 0x80) : on_line c = true := by
  rw [on_line, Bool.not_eq_true', Bool.eq_false_iff]
  intro hend
  rcases (is_line_end_iff c).mp hend with rfl | rfl
  · exact absurd h (by decide)
  · exact absurd h (by decide)

theorem characters_nil : characters [] = [] := by
  unfold characters
  rfl

theorem characters_valid {b : UInt8} {tail : Bytes} (h : utf8_seq_valid (b :: tail) = true) :
    characters (b :: tail)
      = (b :: tail.take (more_bytes b)) :: characters (tail.drop (more_bytes b)) := by
  rw [characters, if_pos h]

theorem characters_invalid {b : UInt8} {tail : Bytes} (h : ¬ utf8_seq_valid (b :: tail) = true) :
    characters (b :: tail) = ascii "?" :: characters tail := by
  rw [characters, if_neg h]

theorem wrap_nil : wrap [] = [] := rfl

theorem wrap_line_end {b : UInt8} (hb : is_line_end b = true) (tail : Bytes) : wrap (b :: tail) = wrap tail := by
  unfold wrap text_pieces
  rw [List.splitOnP_cons_eq_if_modifyHead, if_pos hb, List.filter_cons_of_neg (by simp)]

/-- The lines of a piece and of the pieces behind it. -/
theorem pieces_cons (piece : Bytes) (pieces : List Bytes) :
    ((piece :: pieces).filter (· ≠ [])).flatMap (fun p => fill BROWSER_LINE_CAP [] (characters p))
      = fill BROWSER_LINE_CAP [] (characters piece)
        ++ (pieces.filter (· ≠ [])).flatMap fun p => fill BROWSER_LINE_CAP [] (characters p) := by
  by_cases hempty : piece = []
  · rw [hempty, List.filter_cons_of_neg (by simp), characters_nil, fill_nil, if_pos rfl, List.nil_append]
  · rw [List.filter_cons_of_pos (by simpa using hempty), List.flatMap_cons]

/-- The lines of the first piece, and those of the text behind it. -/
theorem wrap_eq (raw : Bytes) :
    wrap raw = fill BROWSER_LINE_CAP [] (characters (raw.takeWhile on_line)) ++ wrap (raw.dropWhile on_line) := by
  have hline : ∀ c ∈ raw.takeWhile on_line, is_line_end c = false := by
    intro c hc
    have hon : on_line c = true := List.mem_takeWhile_imp hc
    rwa [on_line, Bool.not_eq_true'] at hon
  have hraw : raw.takeWhile on_line ++ raw.dropWhile on_line = raw := List.takeWhile_append_dropWhile
  cases hrest : raw.dropWhile on_line with
  | nil =>
    rw [hrest, List.append_nil] at hraw
    rw [hraw] at hline ⊢
    show ((raw.splitOnP is_line_end).filter (· ≠ [])).flatMap _ = _
    rw [List.splitOnP_eq_singleton hline, pieces_cons]
    rfl
  | cons sep after =>
    have hsep : is_line_end sep = true := by
      have hhead := List.head?_dropWhile_not on_line raw
      rw [hrest, List.head?_cons] at hhead
      dsimp only at hhead
      rwa [on_line, Bool.not_eq_false'] at hhead
    rw [hrest] at hraw
    rw [wrap_line_end hsep]
    show ((raw.splitOnP is_line_end).filter (· ≠ [])).flatMap _ = _
    conv_lhs => rw [← hraw]
    rw [List.splitOnP_append_cons_of_forall_mem hline sep hsep, pieces_cons]
    rfl

/-- The lines that are still to come when `cur` stands on the line. -/
def lines_ahead (cur raw : Bytes) : List Bytes :=
  fill BROWSER_LINE_CAP cur (characters (raw.takeWhile on_line)) ++ wrap (raw.dropWhile on_line)

theorem lines_ahead_new (raw : Bytes) : lines_ahead [] raw = wrap raw := (wrap_eq raw).symm

theorem lines_ahead_end (cur : Bytes) : lines_ahead cur [] = fill BROWSER_LINE_CAP cur [] := by
  show fill _ cur (characters []) ++ wrap [] = _
  rw [characters_nil, wrap_nil, List.append_nil]

/-- At the end of a line. -/
theorem lines_ahead_line_end {b : UInt8} (hb : is_line_end b = true) (cur tail : Bytes) :
    lines_ahead cur (b :: tail) = fill BROWSER_LINE_CAP cur [] ++ wrap tail := by
  have hon : ¬ on_line b = true := by
    rw [on_line, hb]
    exact Bool.false_ne_true
  unfold lines_ahead
  rw [List.takeWhile_cons_of_neg hon, List.dropWhile_cons_of_neg hon, characters_nil, wrap_line_end hb]

/-- A sequence does not reach across the end of its line. -/
theorem lines_ahead_valid {b : UInt8} (hb : is_line_end b = false) {tail : Bytes}
    (hvalid : utf8_seq_valid (b :: tail) = true) (cur : Bytes) :
    lines_ahead cur (b :: tail) =
      fill BROWSER_LINE_CAP cur ((b :: tail.take (more_bytes b)) ::
          characters ((tail.drop (more_bytes b)).takeWhile on_line))
        ++ wrap ((tail.drop (more_bytes b)).dropWhile on_line) := by
  obtain ⟨hlead, hlen, hcont⟩ := (utf8_seq_valid_cons b tail).mp hvalid
  have hon : on_line b = true := by rw [on_line, hb]; rfl
  have htake : ∀ c ∈ tail.take (more_bytes b), on_line c = true := fun c hc =>
    continuation_on_line (hcont c hc)
  obtain ⟨seq, rest, hseq, hrest⟩ : ∃ seq rest, tail.take (more_bytes b) = seq ∧ tail.drop (more_bytes b) = rest :=
    ⟨_, _, rfl, rfl⟩
  have htail : tail = seq ++ rest := by rw [← hseq, ← hrest, List.take_append_drop]
  have hseqlen : seq.length = more_bytes b := by rw [← hseq, List.length_take, Nat.min_eq_left hlen]
  rw [hseq] at htake hcont ⊢
  rw [hrest]
  have hvalid' : utf8_seq_valid (b :: (seq ++ rest.takeWhile on_line)) = true := by
    rw [utf8_seq_valid_cons, List.take_left' hseqlen]
    refine ⟨hlead, ?_, hcont⟩
    rw [List.length_append]
    omega
  have hline : (b :: tail).takeWhile on_line = b :: (seq ++ rest.takeWhile on_line) := by
    rw [List.takeWhile_cons_of_pos hon, htail, List.takeWhile_append_of_pos htake]
  have hafter : (b :: tail).dropWhile on_line = rest.dropWhile on_line := by
    rw [List.dropWhile_cons_of_pos hon, htail, List.dropWhile_append_of_pos htake]
  unfold lines_ahead
  rw [hline, hafter, characters_valid hvalid', List.take_left' hseqlen, List.drop_left' hseqlen]

theorem lines_ahead_invalid {b : UInt8} (hb : is_line_end b = false) {tail : Bytes}
    (hvalid : ¬ utf8_seq_valid (b :: tail) = true) (cur : Bytes) :
    lines_ahead cur (b :: tail) =
      fill BROWSER_LINE_CAP cur (ascii "?" :: characters (tail.takeWhile on_line))
        ++ wrap (tail.dropWhile on_line) := by
  have hon : on_line b = true := by rw [on_line, hb]; rfl
  -- the end of the line makes no sequence valid
  have hvalid' : ¬ utf8_seq_valid (b :: tail.takeWhile on_line) = true := by
    intro h
    obtain ⟨hlead, hlen, hcont⟩ := (utf8_seq_valid_cons b _).mp h
    have htail : tail.takeWhile on_line ++ tail.dropWhile on_line = tail := List.takeWhile_append_dropWhile
    refine hvalid ((utf8_seq_valid_cons b tail).mpr ⟨hlead, ?_, ?_⟩)
    · rw [← htail, List.length_append]
      omega
    · rw [← htail, List.take_append_of_le_length hlen]
      exact hcont
  unfold lines_ahead
  rw [List.takeWhile_cons_of_pos hon, List.dropWhile_cons_of_pos hon, characters_invalid hvalid']

/-! ## The loop -/

/-- What the loop keeps: the page is followed by the lines ahead. -/
def Wrapping (raw : Bytes) (st : Bytes × Screen) : Prop :=
  ScreenOk st.2 ∧
    Page.Follows BROWSER_MAX_LINES (wrap raw) st.2.page (lines_ahead st.2.page.cur st.1)

/-- Where the loop ends, only the line being written is left. -/
def Wrapped (raw : Bytes) (s : Screen) : Prop :=
  ScreenOk s ∧
    Page.Follows BROWSER_MAX_LINES (wrap raw) s.page (fill BROWSER_LINE_CAP s.page.cur [])

/-- A full page is followed by anything. -/
theorem follows_truncated {limit : Nat} {W more : List Bytes} {p : Page UInt8}
    (h : Page.Follows limit W p more) (htrunc : p.truncated = true) (other : List Bytes) :
    Page.Follows limit W p other := by
  unfold Page.Follows at h ⊢
  rw [if_pos htrunc] at h ⊢
  exact h

theorem char_wraps {raw rest : Bytes} {s : Screen} {c : UInt8} (hok : ScreenOk s)
    (hgo : s.page.truncated = false)
    (h : Page.Follows BROWSER_MAX_LINES (wrap raw) s.page
      (fill BROWSER_LINE_CAP s.page.cur ([c] :: characters (rest.takeWhile on_line))
        ++ wrap (rest.dropWhile on_line))) (fg : Rgb) :
    Returns (s.emit_char c fg) fun t => Wrapping raw (rest, t) := by
  obtain ⟨t, ht, htok⟩ := emit_char_returns hok c fg
  refine ⟨t, ht, htok, ?_⟩
  show Page.Follows _ _ t.page _
  rw [emit_char_page ht]
  exact h.put hgo

theorem slice_wraps {raw rest bytes : Bytes} {s : Screen} (hok : ScreenOk s)
    (hgo : s.page.truncated = false) (hne : bytes ≠ []) (hlen : bytes.length ≤ BROWSER_LINE_CAP)
    (h : Page.Follows BROWSER_MAX_LINES (wrap raw) s.page
      (fill BROWSER_LINE_CAP s.page.cur (bytes :: characters (rest.takeWhile on_line))
        ++ wrap (rest.dropWhile on_line))) (fg : Rgb) :
    Returns (s.emit_slice_cap bytes fg BROWSER_LINE_CAP) fun t => Wrapping raw (rest, t) := by
  obtain ⟨t, ht, htok⟩ := emit_slice_cap_returns hok bytes fg BROWSER_LINE_CAP
  refine ⟨t, ht, htok, ?_⟩
  show Page.Follows _ _ t.page _
  rw [emit_slice_cap_page hne ht]
  exact h.slice hne hlen hgo

/-- A byte below 0x80 is a sequence of its own. -/
theorem utf8_seq_valid_ascii {b : UInt8} (hb : b < 0x80) (tail : Bytes) :
    utf8_seq_valid (b :: tail) = true ∧ more_bytes b = 0 := by
  have hlead : utf8_lead_len b = some 1 := by
    refine if_pos ?_
    rw [UInt8.lt_iff_toNat_lt] at hb
    rw [UInt8.le_iff_toNat_le]
    exact Nat.le_of_lt_succ hb
  have hmore : more_bytes b = 0 := by
    unfold more_bytes
    rw [hlead]
    rfl
  refine ⟨(utf8_seq_valid_cons b tail).mpr ⟨by rw [hlead]; rfl, by omega, ?_⟩, hmore⟩
  rw [hmore]
  intro c hc
  cases hc

/-- One round keeps the lines ahead in step with the page. -/
theorem plain_round_wraps (raw : Bytes) (fg : Rgb) {rest : Bytes} {s : Screen} (h : Wrapping raw (rest, s)) :
    Returns (plain_round fg (rest, s))
      (RoundOk (Wrapping raw) (fun st => st.1.length) (Wrapped raw) (rest, s)) := by
  obtain ⟨hok, hfollows⟩ := h
  dsimp only at hok hfollows
  cases rest with
  | nil =>
    rw [lines_ahead_end] at hfollows
    exact .done ⟨hok, hfollows⟩
  | cons b tail =>
    have hless : tail.length < (b :: tail).length := Nat.lt_succ_self _
    rw [plain_round]
    by_cases hend : b = 10 ∨ b = 13
    · -- the end of a line
      rw [if_pos hend]
      rw [lines_ahead_line_end ((is_line_end_iff b).mpr hend)] at hfollows
      have hflush := (flush_line_returns hok).mono fun _ ht => ht.1
      have hends : Returns (if 0 < s.cur.len then s.flush_line else some s) ScreenOk :=
        .ite hflush (.ret hok)
      obtain ⟨t, ht, htok⟩ := hends
      have hpage := end_line_page ht
      rw [ht, Option.bind_eq_bind, Option.bind_some]
      refine .goOn ⟨htok.clear_with fg, ?_⟩ hless
      have hcur : t.page.cur = [] := by rw [hpage, Page.end_line_cur]
      have hnext := hfollows.break_line
      show Page.Follows _ _ (t.clear_with fg).page (lines_ahead [] tail)
      rw [clear_with_page, lines_ahead_new, ← hcur, hpage]
      exact hnext
    rw [if_neg hend]
    have hb : is_line_end b = false := Bool.eq_false_iff.mpr fun hc => hend ((is_line_end_iff b).mp hc)
    by_cases htrunc : s.html_truncated = true
    · rw [if_pos htrunc]
      exact .done ⟨hok, follows_truncated hfollows htrunc _⟩
    rw [if_neg htrunc]
    have hgo : s.page.truncated = false := Bool.eq_false_iff.mpr htrunc
    by_cases hascii : b < 0x80
    · obtain ⟨hvalid, hmore⟩ := utf8_seq_valid_ascii hascii tail
      rw [lines_ahead_valid hb hvalid, hmore, List.take_zero, List.drop_zero] at hfollows
      rw [if_pos hascii]
      exact (char_wraps hok hgo hfollows fg).bind fun t ht => .goOn ht hless
    rw [if_neg hascii, utf8_char_eq]
    by_cases hvalid : utf8_seq_valid (b :: tail) = true
    · rw [if_pos hvalid]
      rw [lines_ahead_valid hb hvalid] at hfollows
      dsimp only
      obtain ⟨-, hlen, -⟩ := (utf8_seq_valid_cons b tail).mp hvalid
      have htake : (tail.take (more_bytes b)).length = more_bytes b := by
        rw [List.length_take, Nat.min_eq_left hlen]
      rw [List.length_cons, htake, List.drop_succ_cons]
      have hcap : (b :: tail.take (more_bytes b)).length ≤ BROWSER_LINE_CAP := by
        rw [List.length_cons, htake]
        exact Nat.le_trans (Nat.succ_le_succ (more_bytes_le b)) (by decide)
      refine (slice_wraps hok hgo (List.cons_ne_nil _ _) hcap hfollows fg).bind fun t ht => .goOn ht ?_
      show (tail.drop (more_bytes b)).length < tail.length + 1
      rw [List.length_drop]
      omega
    · rw [if_neg hvalid]
      rw [lines_ahead_invalid hb hvalid] at hfollows
      exact (char_wraps hok hgo hfollows fg).bind fun t ht => .goOn ht hless

/-- **Plain text is wrapped exactly.** The lines are the first 128 that `wrap`
gives, and the flag says whether there are more. -/
theorem plain_lines_wrap (raw : Bytes) (fg : Rgb) :
    Returns (plain_lines raw fg) fun out =>
      out.lines.map BrowserLine.data = (wrap raw).take BROWSER_MAX_LINES ∧
        (out.html_truncated = true ↔ BROWSER_MAX_LINES < (wrap raw).length) := by
  have hstart : Wrapping raw (raw, Screen.start fg) := by
    refine ⟨(start_ok fg).screen, Page.Follows.of_going rfl (Nat.zero_le _) ?_⟩
    show [] ++ lines_ahead [] raw = wrap raw
    rw [List.nil_append, lines_ahead_new]
  have hloop : Returns (loop (plain_round fg) (raw.length + 1) (raw, Screen.start fg)) (Wrapped raw) :=
    loop_returns (fun st hst => plain_round_wraps raw fg hst) hstart (Nat.lt_succ_self _)
  refine hloop.bind fun s hs => ?_
  obtain ⟨hok, hfollows⟩ := hs
  by_cases htrunc : s.html_truncated = true
  · rw [if_neg fun h => by simp [htrunc] at h]
    exact .ret (follows_truncated hfollows htrunc []).ends
  have hlast : (0 < s.cur.len ∧ (!s.html_truncated) = true) ↔ 0 < s.cur.len := by
    rw [Bool.not_eq_true] at htrunc
    rw [htrunc]
    simp
  simp only [hlast]
  have hflush := (flush_line_returns hok).mono fun _ ht => ht.1
  have hends : Returns (if 0 < s.cur.len then s.flush_line else some s) ScreenOk :=
    .ite hflush (.ret hok)
  obtain ⟨t, ht, -⟩ := hends
  rw [ht, Option.bind_eq_bind, Option.bind_some]
  refine .ret ?_
  rw [← List.append_nil (fill _ _ _)] at hfollows
  have hend := hfollows.break_line.ends
  have hpage : t.page = s.page.break_line (Page.upTo BROWSER_MAX_LINES) false := end_line_page ht
  rw [← hpage] at hend
  exact hend

/-- **A text that does not look like HTML is wrapped.** -/
theorem plain_text_is_wrapped (mem : RenderMemory) {raw : Bytes} (hplain : looks_like_html raw = false)
    (rgb : Rgb) :
    ∃ mem' out, format_document mem raw rgb = some (mem', out) ∧
      out.lines.map BrowserLine.data = (wrap raw).take 128 ∧
        (out.html_truncated = true ↔ 128 < (wrap raw).length) := by
  obtain ⟨dom_tree, hdom, -⟩ := build_text_dom_returns raw mem.dom_tree
  obtain ⟨out, hout, hlines⟩ := plain_lines_wrap raw rgb
  refine ⟨⟨out.lines ++ mem.html_render_lines.drop out.line_count, dom_tree⟩, out, ?_, hlines⟩
  unfold format_document
  rw [hdom, Option.bind_eq_bind, Option.bind_some, hplain, if_neg Bool.false_ne_true, hout]
  rfl

/-- A line of text, cut at its end. -/
theorem short_text_is_wrapped :
    ∃ mem' out, format_document ⟨[], .new⟩ (ascii "two\r\nlines") (0, 0, 0) = some (mem', out) ∧
      out.lines.map BrowserLine.data = (wrap (ascii "two\r\nlines")).take 128 ∧
        (out.html_truncated = true ↔ 128 < (wrap (ascii "two\r\nlines")).length) :=
  plain_text_is_wrapped ⟨[], .new⟩ (by decide) (0, 0, 0)

end EveOS.Html
