/-
The renderer always returns, within its arrays.

Reading: every piece but an unclosed one is at least one byte long, which is what
the loop uses up. Acting: `DocOk` says that the screen, the two stacks and the
style buffer fit their arrays, and every operation on the document keeps it. The
loop rule puts the two together.
-/
import EveOS.Html.Document
import EveOS.Html.DomReturns
import EveOS.Html.ScreenReturns
import EveOS.Html.StyleReturns

set_option autoImplicit false

namespace EveOS.Html

/-! ## Reading -/

/-- A piece uses up some of the document, and the style text of a piece fits the
style buffer. -/
structure PieceOk (style_len : Nat) (r : Piece × Nat) : Prop where
  pos : r.1 ≠ .unclosed → 0 < r.2
  text : ∀ t, r.1 = .style_text t → style_len + t.length ≤ STYLE_SCRATCH_CAP

section Reading

variable {style_len : Nat} {rest : Bytes}

/-- A piece that is no style text. -/
theorem PieceOk.of_pos {p : Piece} {n : Nat} (hn : 0 < n) (hp : ∀ t, p ≠ .style_text t) :
    PieceOk style_len (p, n) := ⟨fun _ => hn, fun t ht => absurd ht (hp t)⟩

theorem PieceOk.unclosed : PieceOk style_len (.unclosed, 0) := ⟨fun h => absurd rfl h, nofun⟩

theorem SkipTag.close_pos (m : SkipTag) : 0 < m.close.length := by cases m <;> decide

theorem read_skipped_returns (m : SkipTag) (hne : rest ≠ []) (hlen : style_len ≤ STYLE_SCRATCH_CAP) :
    Returns (read_skipped m style_len rest) (PieceOk style_len) := by
  have hpos := List.length_pos_iff.mpr hne
  unfold read_skipped
  split
  · exact .ret (.of_pos (by have := m.close_pos; omega) nofun)
  by_cases hstyle : m = .style
  · rw [if_pos hstyle]
    dsimp only
    by_cases htake : 0 < min rest.length (STYLE_SCRATCH_CAP - style_len)
    · -- as much as the buffer holds
      have hfits := Nat.min_le_left rest.length (STYLE_SCRATCH_CAP - style_len)
      obtain ⟨text, htext, hlength⟩ := slice?_returns (Nat.zero_le _) hfits
      rw [if_pos htake, htext]
      refine .ret ⟨fun _ => htake, ?_⟩
      intro t ht
      obtain rfl : text = t := Piece.style_text.inj ht
      omega
    · rw [if_neg htake]
      exact .ret (.of_pos hpos nofun)
  · rw [if_neg hstyle]
    exact .ret .unclosed

theorem entity_name_pos {e : Bytes × Bool × UInt8} (he : e ∈ ENTITIES) : 0 < e.1.length := by
  have h : ∀ e ∈ ENTITIES, 0 < e.1.length := by decide
  exact h e he

theorem parse_numeric_entity_pos {cp n : Nat} (h : parse_numeric_entity rest = some (cp, n)) :
    0 < n := by
  unfold parse_numeric_entity at h
  split_ifs at h
  all_goals
    dsimp only at h
    split_ifs at h
  all_goals
    split at h
    · cases h
    · split_ifs at h
      obtain ⟨rfl, rfl⟩ := Prod.mk.inj (Option.some.inj h)
      omega

theorem read_entity_ok {r : Piece × Nat} (h : read_entity rest = some r) : PieceOk style_len r := by
  unfold read_entity at h
  split at h
  · rename_i name indent c hfind
    obtain rfl := Option.some.inj h
    exact .of_pos (entity_name_pos (List.mem_of_find?_eq_some hfind)) nofun
  · split at h
    · rename_i cp consumed hparse
      obtain rfl := Option.some.inj h
      exact .of_pos (parse_numeric_entity_pos hparse) nofun
    · cases h

theorem utf8_char_pos {lead : UInt8} {bytes : Bytes} (hne : rest ≠ [])
    (h : utf8_char rest lead = some bytes) : 0 < bytes.length := by
  have hpos := List.length_pos_iff.mpr hne
  unfold utf8_char at h
  split at h
  · cases h
  · rename_i len hlen
    split_ifs at h
    obtain rfl := Option.some.inj h
    have hlead : 0 < len := by
      unfold utf8_lead_len at hlen
      split_ifs at hlen <;> simp at hlen <;> omega
    rw [List.length_take]
    omega

theorem read_char_ok (hne : rest ≠ []) (ch : UInt8) : PieceOk style_len (read_char rest ch) := by
  unfold read_char
  split_ifs
  · exact .of_pos Nat.one_pos nofun
  · exact .of_pos Nat.one_pos nofun
  · exact .of_pos Nat.one_pos nofun
  · split
    · exact .of_pos Nat.one_pos nofun
    · rename_i bytes hbytes
      exact .of_pos (utf8_char_pos hne hbytes) nofun

theorem read_text_ok (hne : rest ≠ []) (ch : UInt8) : PieceOk style_len (read_text rest ch) := by
  unfold read_text
  split
  · rename_i r hr
    split_ifs at hr
    exact read_entity_ok hr
  · exact read_char_ok hne ch

theorem skip_until_gt_pos (hne : rest ≠ []) : 0 < skip_until_gt rest 0 := by
  have hpos := List.length_pos_iff.mpr hne
  unfold skip_until_gt
  dsimp only
  split_ifs <;> omega

theorem read_script_returns : Returns (read_script rest) (PieceOk style_len) := by
  unfold read_script
  dsimp only
  split_ifs with hend
  · exact .ret .unclosed
  · refine (slice?_returns (Nat.zero_le _) (by omega)).bind fun tag_open _ => ?_
    exact (script_mime_returns tag_open).bind fun data _ => .ret (.of_pos (Nat.succ_pos _) nofun)

theorem read_plain_tag_returns : Returns (read_plain_tag rest) (PieceOk style_len) := by
  unfold read_plain_tag
  dsimp only
  split_ifs with hend
  · exact .ret .unclosed
  · refine (slice?_returns (Nat.zero_le _) (by omega)).bind fun tag_slice _ => ?_
    exact .ret (.of_pos (Nat.succ_pos _) nofun)

theorem dropped_tag_ne {e : Bytes × Piece} (he : e ∈ DROPPED_TAGS) (t : Bytes) :
    e.2 ≠ .style_text t := by
  rintro ht
  simp [DROPPED_TAGS] at he
  rcases he with rfl | rfl | rfl | rfl | rfl | rfl <;> cases ht

theorem read_tag_returns (hne : rest ≠ []) : Returns (read_tag rest) (PieceOk style_len) := by
  have hpos := List.length_pos_iff.mpr hne
  unfold read_tag
  split_ifs
  · exact .ret (.of_pos (by omega) nofun)
  · exact .ret (.of_pos (skip_until_gt_pos hne) nofun)
  · exact read_script_returns
  · split
    · rename_i name piece hfind
      exact .ret (.of_pos (skip_until_gt_pos hne) (dropped_tag_ne (List.mem_of_find?_eq_some hfind)))
    · exact read_plain_tag_returns

/-- **What stands at the cursor can be read.** -/
theorem read_piece_returns (skip : Option SkipTag) (hne : rest ≠ [])
    (hlen : style_len ≤ STYLE_SCRATCH_CAP) :
    Returns (read_piece skip style_len rest) (PieceOk style_len) := by
  unfold read_piece
  split
  · exact read_skipped_returns _ hne hlen
  · refine (getElem?_returns (List.length_pos_iff.mpr hne)).bind fun ch _ => ?_
    split_ifs
    · exact .ret (read_text_ok hne ch)
    · exact read_tag_returns hne

end Reading

/-! ## Acting -/

/-- The document's variables fit their arrays. -/
structure DocOk (doc : Doc) : Prop where
  screen : ScreenOk doc.toScreen
  style : doc.style_buf.length ≤ STYLE_SCRATCH_CAP
  blocks : doc.block_stack.length ≤ BLOCK_STACK_CAP
  colours : doc.fg_stack.length ≤ FG_STACK_CAP

section Acting

variable {doc : Doc}

theorem DocOk.set_fg (h : DocOk doc) (rgb : Rgb) : DocOk (doc.set_fg rgb) := by
  have hcur : ({ doc.cur with r := rgb.1, g := rgb.2.1, b := rgb.2.2 } : BrowserLine).len
      ≤ BROWSER_LINE_CAP := h.screen.cur
  exact ⟨h.screen.of_cur hcur _, h.style, h.blocks, h.colours⟩

/-- A change of the screen. -/
theorem on_screen_returns (h : DocOk doc) {x : Option Screen} (hx : Returns x ScreenOk) :
    Returns (doc.onScreen x) DocOk := by
  obtain ⟨s, rfl, hs⟩ := hx
  exact .ret ⟨hs, h.style, h.blocks, h.colours⟩

theorem emit_returns (h : DocOk doc) (c : UInt8) : Returns (doc.emit c) DocOk :=
  on_screen_returns h (emit_char_cap_returns h.screen c _ _)

theorem emit_spaces_returns (h : DocOk doc) (n : Nat) : Returns (doc.emit_spaces n) DocOk :=
  on_screen_returns h (emit_chars_cap_returns h.screen n _ _ _)

theorem break_line_returns (h : DocOk doc) (blank_after : Bool) (fg : Rgb) :
    Returns (doc.break_line blank_after fg) DocOk :=
  on_screen_returns h (emit_break_returns h.screen blank_after fg)

theorem break_lines_returns (h : DocOk doc) (n : Nat) (blank_after : Bool) :
    Returns (doc.break_lines n blank_after) DocOk :=
  Returns.foldlM (fun _ b hd => break_line_returns hd b _) h _

theorem indent_returns (h : DocOk doc) : Returns doc.indent DocOk := by
  unfold Doc.indent
  split_ifs
  · exact emit_spaces_returns h _
  · exact .ret h

theorem pop_fg_returns (h : DocOk doc) : Returns doc.pop_fg DocOk := by
  unfold Doc.pop_fg
  split_ifs with hempty
  · exact .ret (h.set_fg _)
  · refine (pop?_returns hempty h.colours).bind fun r hr => .ret (DocOk.set_fg ?_ _)
    exact ⟨h.screen, h.style, h.blocks, by have := h.colours; dsimp only; omega⟩

theorem push_fg_returns (h : DocOk doc) (rgb : Rgb) : Returns (doc.push_fg rgb) DocOk := by
  refine (push_if_room_returns doc.cur_fg h.colours).bind fun fg_stack hlen => .ret ?_
  have hpushed : DocOk { doc with fg_stack := fg_stack } := ⟨h.screen, h.style, h.blocks, hlen⟩
  exact hpushed.set_fg rgb

theorem pop_block_returns (h : DocOk doc) : Returns doc.pop_block DocOk := by
  unfold Doc.pop_block
  split_ifs with hempty
  · exact .ret ⟨h.screen, h.style, h.blocks, h.colours⟩
  · refine (pop?_returns hempty h.blocks).bind fun r hr => .ret ?_
    exact ⟨h.screen, h.style, by have := h.blocks; dsimp only; omega, h.colours⟩

theorem push_block_returns (h : DocOk doc) (inline_indent : Nat) (width_chars : Option Nat) :
    Returns (doc.push_block inline_indent width_chars) DocOk :=
  (push_if_room_returns _ h.blocks).bind fun _ hlen => .ret ⟨h.screen, h.style, hlen, h.colours⟩

theorem close_tag_returns (h : DocOk doc) (name : Bytes) : Returns (doc.close_tag name) DocOk := by
  have hlist : DocOk (if name_in name [ascii "ul", ascii "ol"] then
      { doc with list_depth := doc.list_depth - 1 } else doc) := by
    split_ifs
    · exact ⟨h.screen, h.style, h.blocks, h.colours⟩
    · exact h
  unfold Doc.close_tag
  refine Returns.bind (.ite (pop_block_returns hlist) (.ret hlist)) fun d hd => ?_
  refine .ite (.ite ?_ (.ret hd)) ?_
  · exact (pop_fg_returns hd).bind fun e he => .ret ⟨he.screen, he.style, he.blocks, he.colours⟩
  · refine Returns.bind (.ite (pop_fg_returns hd) (.ret hd)) fun e he => .ite ?_ (.ret he)
    exact (break_line_returns he _ _).bind fun f hf => .ret (hf.set_fg _)

theorem open_heading_returns (h : DocOk doc) (rgb : Rgb) (inline_color : Option Rgb) :
    Returns (doc.open_heading rgb inline_color) DocOk :=
  (break_line_returns h true rgb).bind fun _ hd => .ret (hd.set_fg _)

theorem open_link_returns (h : DocOk doc) (tag_slice : Bytes) (inline_color : Option Rgb) :
    Returns (doc.open_link tag_slice inline_color) DocOk := by
  refine (tag_href_value_dangerous_returns tag_slice).bind fun dangerous _ => ?_
  split_ifs
  · exact .ret h
  · have hlink : DocOk { doc with a_styled := true } := ⟨h.screen, h.style, h.blocks, h.colours⟩
    exact push_fg_returns hlink _

theorem open_block_returns (h : DocOk doc) (computed : BoxStyle) :
    Returns (doc.open_block computed) DocOk := by
  refine (break_lines_returns h _ _).bind fun d hd => ?_
  refine (break_line_returns hd _ _).bind fun e he => ?_
  exact (push_block_returns he _ _).bind fun f hf => .ret (hf.set_fg _)

theorem open_item_returns (h : DocOk doc) (computed : BoxStyle) :
    Returns (doc.open_item computed) DocOk := by
  refine (break_lines_returns h _ _).bind fun d hd => ?_
  refine (emit_spaces_returns hd _).bind fun e he => ?_
  exact (emit_returns he _).bind fun f hf => emit_returns hf _

theorem open_tag_returns (h : DocOk doc) (tag_slice name : Bytes) (computed : BoxStyle) :
    Returns (doc.open_tag tag_slice name computed) DocOk := by
  have hlist : DocOk { doc with list_depth := sat8 (doc.list_depth + 1) } :=
    ⟨h.screen, h.style, h.blocks, h.colours⟩
  have hbreak : Returns ((doc.break_line false doc.default_fg).map fun doc => doc.set_fg doc.default_fg)
      DocOk := by
    obtain ⟨d, hd, hok⟩ := break_line_returns h false doc.default_fg
    rw [hd]
    exact .ret (hok.set_fg _)
  have hh (rgb : Rgb) := open_heading_returns h rgb computed.color
  refine .ite (break_line_returns hlist _ _) (.ite hbreak ?_)
  refine .ite (hh _) (.ite (hh _) (.ite (hh _) ?_))
  refine .ite (push_fg_returns h _) (.ite (push_fg_returns h _) ?_)
  refine .ite (push_fg_returns h _) (.ite (push_fg_returns h _) ?_)
  refine .ite (open_link_returns h tag_slice _) (.ite (open_block_returns h computed) ?_)
  exact .ite (open_item_returns h computed) (.ret h)

theorem tag_name_returns (tag_slice : Bytes) {is_close : Bool}
    (h : (if is_close then 2 else 1) ≤ tag_slice.length) :
    Returns (tag_name tag_slice is_close) fun _ => True := by
  have hstart := scan_le is_name_gap h
  exact (slice?_returns (le_scan _ _ _) (scan_le _ hstart)).mono fun _ _ => trivial

theorem matched_returns (rule : StyleRule) (name : Bytes) (class_attr id_attr : Option Bytes) :
    Returns (rule.matched name class_attr id_attr) fun _ => True := by
  unfold StyleRule.matched
  split
  · exact .ret trivial
  · cases class_attr with
    | none => exact .ret trivial
    | some c => exact class_matches_returns c rule.name
  · exact .ret trivial

theorem computed_style_returns (rules : List StyleRule) (name : Bytes)
    (class_attr id_attr inline_style : Option Bytes) :
    Returns (computed_style rules name class_attr id_attr inline_style) fun _ => True := by
  have hrule : ∀ (computed : BoxStyle) (rule : StyleRule), True →
      Returns (do
        let matched ← rule.matched name class_attr id_attr
        return if matched then BoxStyle.merge computed rule.style else computed) fun _ => True :=
    fun computed rule _ => (matched_returns rule name class_attr id_attr).bind fun _ _ => .ret trivial
  refine (Returns.foldlM hrule trivial rules).bind fun computed _ => ?_
  cases inline_style with
  | none => exact .ret trivial
  | some st =>
    exact (parse_inline_box_style_returns st BROWSER_LINE_CAP).bind fun inl _ => .ret trivial

theorem tag_returns (h : DocOk doc) (tag_slice : Bytes) : Returns (doc.tag tag_slice) DocOk := by
  unfold Doc.tag
  split_ifs with hshort
  · exact .ret h
  rw [Nat.not_lt] at hshort
  refine (getElem?_returns hshort).bind fun mark _ => ?_
  have hstart : (if mark == 47 then 2 else 1) ≤ tag_slice.length := by split_ifs <;> omega
  refine (tag_name_returns tag_slice hstart).bind fun name _ => ?_
  split_ifs
  · exact close_tag_returns h name
  · refine (extract_attr_value_returns tag_slice (ascii "class")).bind fun class_attr _ => ?_
    refine (extract_attr_value_returns tag_slice (ascii "id")).bind fun id_attr _ => ?_
    refine (extract_attr_value_returns tag_slice (ascii "style")).bind fun inline_style _ => ?_
    refine (computed_style_returns _ _ _ _ _).bind fun computed _ => ?_
    split_ifs
    · exact .ret h
    · exact open_tag_returns h tag_slice name computed

theorem scan_style_returns (h : DocOk doc) : Returns doc.scan_style DocOk := by
  refine (scan_style_for_colors_returns doc.style_buf doc.hints).bind fun hints _ => ?_
  refine (scan_style_rules_returns doc.style_buf BROWSER_LINE_CAP).bind fun style_rules _ => ?_
  have hscanned : DocOk { doc with
      hints := hints, style_rules := style_rules, default_fg := hints.body } :=
    ⟨h.screen, h.style, h.blocks, h.colours⟩
  refine .ite (.ret ?_) (.ret ⟨h.screen, h.style, h.blocks, h.colours⟩)
  split_ifs
  · exact hscanned.set_fg _
  · exact hscanned

theorem end_style_returns (h : DocOk doc) : Returns doc.end_style DocOk := by
  unfold Doc.end_style
  refine Returns.bind (.ite (scan_style_returns h) (.ret h)) fun d hd => .ret ?_
  exact ⟨hd.screen, Nat.zero_le _, hd.blocks, hd.colours⟩

theorem blank_returns (h : DocOk doc) : Returns doc.blank DocOk := by
  unfold Doc.blank
  split_ifs with hpos
  · have hlast : doc.cur.len - 1 < doc.cur.data.length := by
      unfold BrowserLine.len at hpos ⊢
      omega
    exact (getElem?_returns hlast).bind fun last _ => .ite (emit_returns h _) (.ret h)
  · exact .ret h

/-- **What a piece does keeps the document within its arrays.** -/
theorem act_returns (h : DocOk doc) {piece : Piece}
    (htext : ∀ t, piece = .style_text t → doc.style_buf.length + t.length ≤ STYLE_SCRATCH_CAP) :
    Returns (doc.act piece) DocOk := by
  cases piece with
  | skip_end m =>
    cases m with
    | style => exact end_style_returns h
    | _ => exact .ret ⟨h.screen, h.style, h.blocks, h.colours⟩
  | style_text text =>
    have hfits := htext text rfl
    refine ⟨_, if_pos hfits, h.screen, ?_, h.blocks, h.colours⟩
    rw [List.length_append]
    exact hfits
  | char indent c =>
    exact Returns.bind (.ite (indent_returns h) (.ret h)) fun d hd => emit_returns hd c
  | glyph indent bytes =>
    refine Returns.bind (.ite (indent_returns h) (.ret h)) fun d hd => ?_
    exact on_screen_returns hd (emit_slice_cap_returns hd.screen bytes _ _)
  | blank => exact blank_returns h
  | open_script js => exact .ret ⟨h.screen, h.style, h.blocks, h.colours⟩
  | open_skip m =>
    cases m with
    | style => exact .ret ⟨h.screen, Nat.zero_le _, h.blocks, h.colours⟩
    | _ => exact .ret ⟨h.screen, h.style, h.blocks, h.colours⟩
  | tag tag_slice => exact tag_returns h tag_slice
  | _ => exact .ret h

end Acting

/-! ## The loops -/

theorem start_ok (rgb : Rgb) : DocOk (Doc.start rgb) :=
  ⟨⟨Nat.zero_le _, nofun, Nat.zero_le _⟩, Nat.zero_le _, Nat.zero_le _, Nat.zero_le _⟩

/-- A round keeps the document within its arrays, and goes on with less of it. -/
theorem doc_round_returns {rest : Bytes} {doc : Doc} (h : DocOk doc) :
    Returns (doc_round (rest, doc))
      (RoundOk (fun st => DocOk st.2) (fun st => st.1.length) DocOk (rest, doc)) := by
  unfold doc_round
  dsimp only
  by_cases hend : rest = []
  · rw [if_pos hend]
    exact .done h
  rw [if_neg hend]
  by_cases hfull : BROWSER_MAX_LINES ≤ doc.line_count
  · rw [if_pos hfull]
    exact .done ⟨h.screen.of_cur h.screen.cur true, h.style, h.blocks, h.colours⟩
  rw [if_neg hfull]
  refine (read_piece_returns doc.skip hend h.style).bind ?_
  rintro ⟨piece, n⟩ hpiece
  by_cases hunclosed : piece = .unclosed
  · rw [if_pos hunclosed]
    exact .done h
  rw [if_neg hunclosed]
  refine (act_returns h hpiece.text).bind fun d hd => .goOn hd ?_
  have hpos := hpiece.pos hunclosed
  have hlen := List.length_pos_iff.mpr hend
  show (rest.drop n).length < rest.length
  rw [List.length_drop]
  omega

/-- The lines of a rendering fit their array, and each its own. -/
def RenderedOk (out : Rendered) : Prop :=
  out.line_count ≤ BROWSER_MAX_LINES ∧ ∀ l ∈ out.lines, l.len ≤ BROWSER_LINE_CAP

theorem ScreenOk.rendered {s : Screen} (h : ScreenOk s) (stripped : Bool) :
    RenderedOk ⟨s.lines, s.html_truncated, stripped⟩ := ⟨h.count, h.lines⟩

theorem finish_returns {doc : Doc} (h : DocOk doc) : Returns doc.finish RenderedOk := by
  have hflush := (flush_line_returns h.screen).mono fun _ ht => ht.1
  unfold Doc.finish
  refine Returns.bind (.ite hflush (.ret h.screen)) fun s hs => ?_
  have hnote : Returns (if doc.scripts_stripped ∧ s.line_count < BROWSER_MAX_LINES then
      s.put_line SCRIPTS_NOTE else some s) ScreenOk := by
    split_ifs with hroom
    · exact (put_line_returns hs (by decide) hroom.2).mono fun _ ht => ht.1
    · exact .ret hs
  exact hnote.bind fun t ht => .ret (ht.rendered _)

theorem format_html_returns (raw : Bytes) (rgb : Rgb) : Returns (format_html raw rgb) RenderedOk := by
  have hloop : Returns (loop doc_round (raw.length + 1) (raw, Doc.start rgb)) DocOk :=
    loop_returns (fun st hst => doc_round_returns hst) (start_ok rgb) (Nat.lt_succ_self _)
  exact hloop.bind fun doc hdoc => finish_returns hdoc

theorem plain_round_returns (fg : Rgb) {rest : Bytes} {s : Screen} (h : ScreenOk s) :
    Returns (plain_round fg (rest, s))
      (RoundOk (fun st => ScreenOk st.2) (fun st => st.1.length) ScreenOk (rest, s)) := by
  cases rest with
  | nil => exact .done h
  | cons b tail =>
    have hless : tail.length < (b :: tail).length := Nat.lt_succ_self _
    have hflush := (flush_line_returns h).mono fun _ ht => ht.1
    unfold plain_round
    refine .ite ?_ (.ite (.done h) (.ite ?_ ?_))
    · refine Returns.bind (.ite hflush (.ret h)) fun t ht => .goOn (ht.clear_with fg) hless
    · exact (emit_char_returns h b fg).bind fun t ht => .goOn ht hless
    · split
      · exact (emit_char_returns h 63 fg).bind fun t ht => .goOn ht hless
      · rename_i bytes hbytes
        refine (emit_slice_cap_returns h bytes fg _).bind fun t ht => .goOn ht ?_
        have hpos := utf8_char_pos (List.cons_ne_nil b tail) hbytes
        show ((b :: tail).drop bytes.length).length < (b :: tail).length
        rw [List.length_drop]
        omega

theorem plain_lines_returns (raw : Bytes) (fg : Rgb) : Returns (plain_lines raw fg) RenderedOk := by
  have hstart : ScreenOk (Screen.start fg) := (start_ok fg).screen
  have hloop : Returns (loop (plain_round fg) (raw.length + 1) (raw, Screen.start fg)) ScreenOk :=
    loop_returns (fun st hst => plain_round_returns fg hst) hstart (Nat.lt_succ_self _)
  refine hloop.bind fun s hs => ?_
  have hflush := (flush_line_returns hs).mono fun _ ht => ht.1
  exact Returns.bind (.ite hflush (.ret hs)) fun t ht => .ret (ht.rendered _)

/-- **Every document is rendered, in the arrays there are.** -/
theorem format_document_returns (mem : RenderMemory) (raw : Bytes) (rgb : Rgb) :
    Returns (format_document mem raw rgb) fun r => RenderedOk r.2 := by
  refine (build_text_dom_returns raw mem.dom_tree).bind fun dom_tree _ => ?_
  refine Returns.bind (.ite (format_html_returns raw rgb) (plain_lines_returns raw rgb)) fun out hout => ?_
  exact .ret hout

/-- **The renderer is safe.** Whatever the document, the colour and the memory, it
returns; it has written at most 128 lines, each of at most 96 bytes. -/
theorem every_document_is_rendered (mem : RenderMemory) (raw : Bytes) (rgb : Rgb) :
    ∃ mem' out, format_document mem raw rgb = some (mem', out) ∧
      out.line_count ≤ BROWSER_MAX_LINES ∧ ∀ l ∈ out.lines, l.len ≤ BROWSER_LINE_CAP := by
  obtain ⟨⟨mem', out⟩, hformat, hcount, hlines⟩ := format_document_returns mem raw rgb
  exact ⟨mem', out, hformat, hcount, hlines⟩

end EveOS.Html
