/-
What a piece writes on the page.

`Doc.writes` lists the page operations of a piece, as cells that remember where
they come from: a character, an entity or a list marker shows a byte of the
document, the spaces of an indentation do not. `act_writes` says that the screen
does what the list says, so the rest of the development never looks at the
screen functions again.
-/
import EveOS.Html.Rendering
import EveOS.Html.ScreenPage

set_option autoImplicit false

namespace EveOS.Html

/-- Where a byte comes from: how much of the document was left when its piece was
read, and which byte of the piece it is. -/
abbrev Place := Nat × Nat

/-- A byte on the page. Filling has no place. -/
abbrev Cell := UInt8 × Option Place

abbrev Writes := List (Page.Op Cell)

/-- The operations without the places. -/
def Writes.bytes (ws : Writes) : List (Page.Op UInt8) := ws.map (Page.Op.map Prod.fst)

def Doc.width (doc : Doc) : Nat := line_limit doc.active_width

def Doc.put_filling (doc : Doc) (n : Nat) : Writes := List.replicate n (.put doc.width (32, none))

/-- The indentation in front of the first character of the line `cur`. -/
def Doc.indentation (doc : Doc) (cur : Bytes) : Writes :=
  if cur = [] then doc.put_filling (min doc.active_indent 24) else []

/-- A closing tag. -/
def close_writes (name : Bytes) : Writes :=
  if name_is name (ascii "a") then []
  else if name_in name CLOSING_BLOCKS then
    [.break_line (name_in name [ascii "p", ascii "div", ascii "pre"])]
  else []

/-- An opening tag that is not hidden. -/
def Doc.open_writes (doc : Doc) (left : Nat) (name : Bytes) (computed : BoxStyle) : Writes :=
  if name_in name [ascii "ul", ascii "ol"] then [.break_line false]
  else if name_in name [ascii "br", ascii "hr"] then [.break_line false]
  else if name_in name [ascii "h1", ascii "h2", ascii "h3"] then [.break_line true]
  else if name_in name (STRONG_TAGS ++ EM_TAGS ++ CODE_TAGS ++ MARK_TAGS ++ [ascii "a"]) then []
  else if name_in name OPENING_BLOCKS then List.replicate (min computed.lines_above 3 + 1) (.break_line true)
  else if name_is name (ascii "li") then
    List.replicate (min computed.lines_above 2) (.break_line false)
      ++ doc.put_filling (min (sat8 (doc.list_depth * 2) + computed.inline_indent) 16)
      ++ [.put doc.width (45, some (left, 0)), .put doc.width (32, some (left, 1))]
  else []

/-- The style of an opening tag. -/
def Doc.tag_style (doc : Doc) (tag_slice name : Bytes) : Option BoxStyle := do
  let class_attr ← extract_attr_value tag_slice (ascii "class")
  let id_attr ← extract_attr_value tag_slice (ascii "id")
  let inline_style ← extract_attr_value tag_slice (ascii "style")
  computed_style doc.style_rules name class_attr id_attr inline_style

def Doc.tag_writes (doc : Doc) (left : Nat) (tag_slice : Bytes) : Option Writes :=
  if tag_slice.length < 2 then some []
  else do
    let mark ← tag_slice[1]?
    let name ← tag_name tag_slice (mark == 47)
    if mark = 47 then return close_writes name
    else
      let computed ← doc.tag_style tag_slice name
      return if computed.display = .None then [] else doc.open_writes left name computed

/-- What a piece writes when `cur` stands on the line and `left` bytes of the
document are left. -/
def Doc.writes (doc : Doc) (cur : Bytes) (left : Nat) : Piece → Option Writes
  | .char indent c =>
    some ((if indent then doc.indentation cur else []) ++ [.put doc.width (c, some (left, 0))])
  | .glyph indent bytes =>
    some ((if indent then doc.indentation cur else [])
      ++ if bytes = [] then [] else [.slice doc.width (bytes.zipIdx.map fun b => (b.1, some (left, b.2)))])
  | .blank =>
    some (if cur ≠ [] ∧ cur.getLast? ≠ some 32 then [.put doc.width (32, some (left, 0))] else [])
  | .tag tag_slice => doc.tag_writes left tag_slice
  | _ => some []

/-! ## The screen -/

section Acting

variable {doc doc' : Doc}

theorem onScreen_some {x : Option Screen} (h : doc.onScreen x = some doc') :
    ∃ s, x = some s ∧ doc' = { doc with toScreen := s } := by
  obtain ⟨s, hs, rfl⟩ := Option.map_eq_some_iff.mp h
  exact ⟨s, hs, rfl⟩

theorem set_fg_page (doc : Doc) (rgb : Rgb) : (doc.set_fg rgb).page = doc.page := rfl

theorem bytes_append (ws more : Writes) : Writes.bytes (ws ++ more) = ws.bytes ++ more.bytes := List.map_append

/-- Only the screen of `doc'` is another one, and it is the page of `doc` after `ws`. -/
def Wrote (doc : Doc) (ws : Writes) (doc' : Doc) : Prop :=
  ∃ s, doc' = { doc with toScreen := s } ∧ s.page = Page.run screen_full ws.bytes doc.page

theorem Wrote.trans {doc'' : Doc} {ws more : Writes} (h₁ : Wrote doc ws doc') (h₂ : Wrote doc' more doc'') :
    Wrote doc (ws ++ more) doc'' := by
  obtain ⟨s, rfl, hs⟩ := h₁
  obtain ⟨t, rfl, ht⟩ := h₂
  refine ⟨t, rfl, ?_⟩
  rw [ht, bytes_append, Page.run_append, ← hs]

theorem Wrote.nothing (doc : Doc) : Wrote doc [] doc := ⟨doc.toScreen, rfl, rfl⟩

theorem emit_wrote {c : UInt8} (place : Option Place) (h : doc.emit c = some doc') :
    Wrote doc [.put doc.width (c, place)] doc' := by
  obtain ⟨s, hs, rfl⟩ := onScreen_some h
  exact ⟨s, rfl, emit_char_cap_page hs⟩

theorem emit_spaces_wrote {n : Nat} (h : doc.emit_spaces n = some doc') :
    Wrote doc (doc.put_filling n) doc' := by
  obtain ⟨s, hs, rfl⟩ := onScreen_some h
  refine ⟨s, rfl, ?_⟩
  rw [emit_chars_cap_page hs, Writes.bytes, Doc.put_filling, List.map_replicate]
  rfl

theorem break_line_wrote {blank_after : Bool} {fg : Rgb} (h : doc.break_line blank_after fg = some doc') :
    Wrote doc [.break_line blank_after] doc' := by
  obtain ⟨s, hs, rfl⟩ := onScreen_some h
  exact ⟨s, rfl, emit_break_page hs⟩

theorem break_lines_wrote {n : Nat} {blank_after : Bool} (h : doc.break_lines n blank_after = some doc') :
    Wrote doc (List.replicate n (.break_line blank_after)) doc' := by
  unfold Doc.break_lines at h
  induction n generalizing doc with
  | zero =>
    obtain rfl := Option.some.inj h
    exact .nothing doc
  | succ n ih =>
    rw [List.replicate_succ, List.foldlM_cons] at h
    obtain ⟨d, hbreak, h⟩ := Returns.of_bind h
    exact (break_line_wrote hbreak).trans (ih h)

theorem indent_wrote (h : doc.indent = some doc') : Wrote doc (doc.indentation doc.cur.data) doc' := by
  unfold Doc.indent at h
  unfold Doc.indentation
  by_cases hempty : doc.cur.len = 0
  · rw [if_pos hempty] at h
    rw [if_pos (List.length_eq_zero_iff.mp hempty)]
    exact emit_spaces_wrote h
  · rw [if_neg hempty] at h
    rw [if_neg fun hc => hempty (List.length_eq_zero_iff.mpr hc)]
    obtain rfl := Option.some.inj h
    exact .nothing doc

theorem Wrote.page {ws : Writes} (h : Wrote doc ws doc') : doc'.page = Page.run screen_full ws.bytes doc.page := by
  obtain ⟨s, rfl, hs⟩ := h
  exact hs

theorem glyph_wrote {bytes : Bytes} (left : Nat)
    (h : doc.onScreen (doc.toScreen.emit_slice_cap bytes doc.cur_fg doc.active_width) = some doc') :
    Wrote doc (if bytes = [] then []
      else [.slice doc.width (bytes.zipIdx.map fun b => (b.1, some (left, b.2)))]) doc' := by
  obtain ⟨s, hs, rfl⟩ := onScreen_some h
  refine ⟨s, rfl, ?_⟩
  by_cases hempty : bytes = []
  · rw [if_pos hempty]
    unfold Screen.emit_slice_cap at hs
    dsimp only at hs
    rw [if_pos hempty] at hs
    rw [← Option.some.inj hs]
    rfl
  · have hbytes : (bytes.zipIdx.map fun b => ((b.1, some (left, b.2)) : Cell)).map Prod.fst = bytes := by
      rw [List.map_map]
      exact List.zipIdx_map_fst 0 bytes
    rw [if_neg hempty, emit_slice_cap_page hempty hs]
    show _ = (Page.slice _ _ (List.map _ _) _)
    rw [hbytes]
    rfl

/-- The indentation, if there is one, and what follows it. -/
theorem indented_wrote {indent : Bool} {ws : Writes} {f : Doc → Option Doc}
    (hf : ∀ d d', f d = some d' → d.width = doc.width → Wrote d ws d')
    (h : (do
      let d ← (if indent = true then doc.indent else some doc)
      f d) = some doc') :
    Wrote doc ((if indent = true then doc.indentation doc.cur.data else []) ++ ws) doc' := by
  obtain ⟨d, hd, h⟩ := Returns.of_bind h
  have hindent : Wrote doc (if indent = true then doc.indentation doc.cur.data else []) d := by
    cases indent with
    | true => exact indent_wrote hd
    | false =>
      obtain rfl := Option.some.inj hd
      exact .nothing doc
  refine hindent.trans (hf d doc' h ?_)
  obtain ⟨s, rfl, -⟩ := hindent
  rfl

theorem blank_wrote (left : Nat) (h : doc.blank = some doc') :
    Wrote doc (if doc.cur.data ≠ [] ∧ doc.cur.data.getLast? ≠ some 32
      then [.put doc.width (32, some (left, 0))] else []) doc' := by
  unfold Doc.blank at h
  by_cases hpos : 0 < doc.cur.len
  · rw [if_pos hpos] at h
    obtain ⟨last, hlast, h⟩ := Returns.of_bind h
    have hne : doc.cur.data ≠ [] := List.length_pos_iff.mp hpos
    have hget : doc.cur.data.getLast? = some last := by
      rw [List.getLast?_eq_getElem?]
      exact hlast
    by_cases hspace : last ≠ 32
    · rw [if_pos hspace] at h
      rw [if_pos ⟨hne, by rw [hget]; exact fun hc => hspace (Option.some.inj hc)⟩]
      exact emit_wrote _ h
    · rw [if_neg hspace] at h
      rw [if_neg fun hc => hc.2 (by rw [hget, not_not.mp hspace])]
      obtain rfl := Option.some.inj h
      exact .nothing doc
  · rw [if_neg hpos] at h
    rw [if_neg fun hc => hpos (List.length_pos_iff.mpr hc.1)]
    obtain rfl := Option.some.inj h
    exact .nothing doc

/-! ## Tags -/

theorem pop_fg_page (h : doc.pop_fg = some doc') : doc'.page = doc.page := by
  unfold Doc.pop_fg at h
  split_ifs at h
  · obtain rfl := Option.some.inj h
    rfl
  · obtain ⟨⟨rgb, fg_stack⟩, -, h⟩ := Returns.of_bind h
    obtain rfl := Option.some.inj h
    rfl

theorem push_fg_page {rgb : Rgb} (h : doc.push_fg rgb = some doc') : doc'.page = doc.page := by
  obtain ⟨fg_stack, -, h⟩ := Returns.of_bind h
  obtain rfl := Option.some.inj h
  rfl

theorem pop_block_page (h : doc.pop_block = some doc') : doc'.page = doc.page := by
  unfold Doc.pop_block at h
  split_ifs at h
  · obtain rfl := Option.some.inj h
    rfl
  · obtain ⟨⟨⟨indent, width⟩, block_stack⟩, -, h⟩ := Returns.of_bind h
    obtain rfl := Option.some.inj h
    rfl

theorem push_block_page {inline_indent : Nat} {width_chars : Option Nat}
    (h : doc.push_block inline_indent width_chars = some doc') : doc'.page = doc.page := by
  obtain ⟨block_stack, -, h⟩ := Returns.of_bind h
  obtain rfl := Option.some.inj h
  rfl

/-- Something that may be done, and does not write. -/
theorem page_of_ite {c : Prop} [Decidable c] {x : Option Doc} (hx : ∀ d, x = some d → d.page = doc.page)
    (h : (if c then x else some doc) = some doc') : doc'.page = doc.page := by
  split_ifs at h
  · exact hx doc' h
  · rw [Option.some.inj h]

theorem close_tag_page {name : Bytes} (h : doc.close_tag name = some doc') :
    doc'.page = Page.run screen_full (close_writes name).bytes doc.page := by
  unfold Doc.close_tag at h
  obtain ⟨d, hd, h⟩ := Returns.of_bind h
  have hlist : (if name_in name [ascii "ul", ascii "ol"] then
      { doc with list_depth := doc.list_depth - 1 } else doc).page = doc.page := by
    split_ifs <;> rfl
  have hpop : d.page = doc.page := by
    rw [← hlist]
    exact page_of_ite (fun e he => pop_block_page he) hd
  unfold close_writes
  by_cases hlink : name_is name (ascii "a") = true
  · rw [if_pos hlink] at h ⊢
    split_ifs at h
    · obtain ⟨e, he, h⟩ := Returns.of_bind h
      obtain rfl := Option.some.inj h
      exact (pop_fg_page he).trans hpop
    · obtain rfl := Option.some.inj h
      exact hpop
  · rw [if_neg hlink] at h ⊢
    obtain ⟨e, he, h⟩ := Returns.of_bind h
    have he : e.page = doc.page := (page_of_ite (fun f hf => pop_fg_page hf) he).trans hpop
    by_cases hblock : name_in name CLOSING_BLOCKS = true
    · rw [if_pos hblock] at h ⊢
      obtain ⟨f, hf, h⟩ := Returns.of_bind h
      obtain rfl := Option.some.inj h
      rw [set_fg_page, (break_line_wrote hf).page, he]
    · rw [if_neg hblock] at h ⊢
      obtain rfl := Option.some.inj h
      exact he

theorem open_heading_page {rgb : Rgb} {inline_color : Option Rgb}
    (h : doc.open_heading rgb inline_color = some doc') :
    doc'.page = Page.run screen_full (Writes.bytes [.break_line true]) doc.page := by
  obtain ⟨d, hd, h⟩ := Returns.of_bind h
  obtain rfl := Option.some.inj h
  exact (break_line_wrote hd).page

theorem open_link_page {tag_slice : Bytes} {inline_color : Option Rgb}
    (h : doc.open_link tag_slice inline_color = some doc') : doc'.page = doc.page := by
  obtain ⟨dangerous, -, h⟩ := Returns.of_bind h
  split_ifs at h
  · rw [Option.some.inj h]
  · exact (push_fg_page h).trans rfl

theorem open_block_page {computed : BoxStyle} (h : doc.open_block computed = some doc') :
    doc'.page = Page.run screen_full
      (Writes.bytes (List.replicate (min computed.lines_above 3 + 1) (.break_line true))) doc.page := by
  obtain ⟨d, hd, h⟩ := Returns.of_bind h
  obtain ⟨e, he, h⟩ := Returns.of_bind h
  obtain ⟨f, hf, h⟩ := Returns.of_bind h
  obtain rfl := Option.some.inj h
  rw [set_fg_page, push_block_page hf, List.replicate_succ']
  exact ((break_lines_wrote hd).trans (break_line_wrote he)).page

theorem open_item_wrote {computed : BoxStyle} (left : Nat) (h : doc.open_item computed = some doc') :
    Wrote doc (List.replicate (min computed.lines_above 2) (.break_line false)
      ++ doc.put_filling (min (sat8 (doc.list_depth * 2) + computed.inline_indent) 16)
      ++ [.put doc.width (45, some (left, 0)), .put doc.width (32, some (left, 1))]) doc' := by
  obtain ⟨d, hd, h⟩ := Returns.of_bind h
  obtain ⟨e, he, h⟩ := Returns.of_bind h
  obtain ⟨f, hf, h⟩ := Returns.of_bind h
  have hbreak := break_lines_wrote hd
  obtain ⟨s, rfl, -⟩ := id hbreak
  have hspaces := emit_spaces_wrote he
  obtain ⟨t, rfl, -⟩ := id hspaces
  have hdash := emit_wrote (some (left, 0)) hf
  obtain ⟨u, rfl, -⟩ := id hdash
  have hspace := emit_wrote (some (left, 1)) h
  exact (hbreak.trans hspaces).trans (hdash.trans hspace)

theorem open_tag_page {tag_slice name : Bytes} {computed : BoxStyle} (left : Nat)
    (h : doc.open_tag tag_slice name computed = some doc') :
    doc'.page = Page.run screen_full (doc.open_writes left name computed).bytes doc.page := by
  unfold Doc.open_tag at h
  unfold Doc.open_writes
  have hheadings : name_in name [ascii "h1", ascii "h2", ascii "h3"] = true ↔
      name_is name (ascii "h1") = true ∨ name_is name (ascii "h2") = true ∨ name_is name (ascii "h3") = true := by
    simp [name_in]
  have hinline : name_in name (STRONG_TAGS ++ EM_TAGS ++ CODE_TAGS ++ MARK_TAGS ++ [ascii "a"]) = true ↔
      name_in name STRONG_TAGS = true ∨ name_in name EM_TAGS = true ∨ name_in name CODE_TAGS = true ∨
        name_in name MARK_TAGS = true ∨ name_is name (ascii "a") = true := by
    simp only [name_in, List.any_append, List.any_cons, List.any_nil, Bool.or_false, Bool.or_eq_true, or_assoc]
  by_cases hlist : name_in name [ascii "ul", ascii "ol"] = true
  · rw [if_pos hlist] at h ⊢
    exact (break_line_wrote h).page
  rw [if_neg hlist] at h ⊢
  by_cases hbr : name_in name [ascii "br", ascii "hr"] = true
  · rw [if_pos hbr] at h ⊢
    obtain ⟨d, hd, rfl⟩ := Option.map_eq_some_iff.mp h
    exact (break_line_wrote hd).page
  rw [if_neg hbr] at h ⊢
  by_cases hheading : name_in name [ascii "h1", ascii "h2", ascii "h3"] = true
  · rw [if_pos hheading]
    rw [hheadings] at hheading
    by_cases h1 : name_is name (ascii "h1") = true
    · rw [if_pos h1] at h
      exact open_heading_page h
    by_cases h2 : name_is name (ascii "h2") = true
    · rw [if_neg h1, if_pos h2] at h
      exact open_heading_page h
    rw [if_neg h1, if_neg h2, if_pos ((hheading.resolve_left h1).resolve_left h2)] at h
    exact open_heading_page h
  rw [if_neg hheading]
  rw [hheadings, not_or, not_or] at hheading
  rw [if_neg hheading.1, if_neg hheading.2.1, if_neg hheading.2.2] at h
  by_cases htext : name_in name (STRONG_TAGS ++ EM_TAGS ++ CODE_TAGS ++ MARK_TAGS ++ [ascii "a"]) = true
  · rw [if_pos htext]
    rw [hinline] at htext
    show doc'.page = doc.page
    by_cases hb : name_in name STRONG_TAGS = true
    · rw [if_pos hb] at h
      exact push_fg_page h
    by_cases hi : name_in name EM_TAGS = true
    · rw [if_neg hb, if_pos hi] at h
      exact push_fg_page h
    by_cases hc : name_in name CODE_TAGS = true
    · rw [if_neg hb, if_neg hi, if_pos hc] at h
      exact push_fg_page h
    by_cases hm : name_in name MARK_TAGS = true
    · rw [if_neg hb, if_neg hi, if_neg hc, if_pos hm] at h
      exact push_fg_page h
    have ha := (((htext.resolve_left hb).resolve_left hi).resolve_left hc).resolve_left hm
    rw [if_neg hb, if_neg hi, if_neg hc, if_neg hm, if_pos ha] at h
    exact open_link_page h
  rw [if_neg htext]
  rw [hinline, not_or, not_or, not_or, not_or] at htext
  rw [if_neg htext.1, if_neg htext.2.1, if_neg htext.2.2.1, if_neg htext.2.2.2.1,
    if_neg htext.2.2.2.2] at h
  by_cases hblock : name_in name OPENING_BLOCKS = true
  · rw [if_pos hblock] at h ⊢
    exact open_block_page h
  rw [if_neg hblock] at h ⊢
  by_cases hitem : name_is name (ascii "li") = true
  · rw [if_pos hitem] at h ⊢
    exact (open_item_wrote left h).page
  · rw [if_neg hitem] at h ⊢
    obtain rfl := Option.some.inj h
    rfl

theorem tag_page {tag_slice : Bytes} (left : Nat) (h : doc.tag tag_slice = some doc') :
    ∃ ws, doc.tag_writes left tag_slice = some ws ∧
      doc'.page = Page.run screen_full ws.bytes doc.page := by
  unfold Doc.tag at h
  unfold Doc.tag_writes
  by_cases hshort : tag_slice.length < 2
  · rw [if_pos hshort] at h ⊢
    obtain rfl := Option.some.inj h
    exact ⟨[], rfl, rfl⟩
  rw [if_neg hshort] at h ⊢
  obtain ⟨mark, hmark, h⟩ := Returns.of_bind h
  obtain ⟨name, hname, h⟩ := Returns.of_bind h
  rw [hmark, Option.bind_eq_bind, Option.bind_some, hname, Option.bind_eq_bind, Option.bind_some]
  by_cases hclose : mark = 47
  · rw [if_pos hclose] at h ⊢
    exact ⟨_, rfl, close_tag_page h⟩
  rw [if_neg hclose] at h ⊢
  obtain ⟨class_attr, hclass, h⟩ := Returns.of_bind h
  obtain ⟨id_attr, hid, h⟩ := Returns.of_bind h
  obtain ⟨inline_style, hstyle, h⟩ := Returns.of_bind h
  obtain ⟨computed, hcomputed, h⟩ := Returns.of_bind h
  have hsame : doc.tag_style tag_slice name = some computed := by
    simp only [Doc.tag_style, hclass, hid, hstyle, hcomputed, Option.bind_eq_bind, Option.bind_some]
  rw [hsame, Option.bind_eq_bind, Option.bind_some]
  refine ⟨_, rfl, ?_⟩
  by_cases hhidden : computed.display = .None
  · rw [if_pos hhidden] at h ⊢
    obtain rfl := Option.some.inj h
    rfl
  · rw [if_neg hhidden] at h ⊢
    exact open_tag_page left h

theorem scan_style_page (h : doc.scan_style = some doc') : doc'.page = doc.page := by
  obtain ⟨hints, -, h⟩ := Returns.of_bind h
  obtain ⟨style_rules, -, h⟩ := Returns.of_bind h
  dsimp only at h
  split_ifs at h
  all_goals
    obtain rfl := Option.some.inj h
    rfl

theorem end_style_page (h : doc.end_style = some doc') : doc'.page = doc.page := by
  obtain ⟨d, hd, h⟩ := Returns.of_bind h
  rw [← Option.some.inj h]
  show d.page = doc.page
  exact page_of_ite (fun e he => scan_style_page he) hd

/-- **The screen does what is written.** -/
theorem act_writes {piece : Piece} (left : Nat) (h : doc.act piece = some doc') :
    ∃ ws, doc.writes doc.cur.data left piece = some ws ∧
      doc'.page = Page.run screen_full ws.bytes doc.page := by
  cases piece with
  | char indent c =>
    refine ⟨_, rfl, (indented_wrote (f := fun d => d.emit c) ?_ h).page⟩
    intro d d' hemit hwidth
    rw [← hwidth]
    exact emit_wrote (some (left, 0)) hemit
  | glyph indent bytes =>
    refine ⟨_, rfl, (indented_wrote
      (f := fun d => d.onScreen (d.toScreen.emit_slice_cap bytes d.cur_fg d.active_width)) ?_ h).page⟩
    intro d d' hemit hwidth
    rw [← hwidth]
    exact glyph_wrote left hemit
  | blank => exact ⟨_, rfl, (blank_wrote left h).page⟩
  | tag tag_slice => exact tag_page left h
  | skip_end m =>
    refine ⟨[], rfl, ?_⟩
    cases m with
    | style => exact end_style_page h
    | _ =>
      rw [← Option.some.inj h]
      rfl
  | style_text text =>
    refine ⟨[], rfl, ?_⟩
    unfold Doc.act Doc.add_style at h
    dsimp only at h
    split_ifs at h
    rw [← Option.some.inj h]
    rfl
  | open_skip m =>
    refine ⟨[], rfl, ?_⟩
    cases m with
    | _ =>
      rw [← Option.some.inj h]
      rfl
  | _ =>
    refine ⟨[], rfl, ?_⟩
    rw [← Option.some.inj h]
    rfl

end Acting

end EveOS.Html
