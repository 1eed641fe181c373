/-
`format_document` of `kernel/src/html.rs`.

The loop over the document is cut in two: `read_piece` reads what stands at the
cursor, without changing anything, and `Doc.act` does what the loop body does
with it. `rest` is `&raw[i..]`, so `i += n` drops `n` bytes of it. The six `in_*`
flags exclude each other (each is set where none is set, and only its own branch
runs until it is cleared), so they are one `Option SkipTag`. `STYLE_SCRATCH` is
only read up to `style_len`, so it is the list of the bytes written into it.
-/
import EveOS.Html.Dom
import EveOS.Html.Screen
import EveOS.Html.Tag

set_option autoImplicit false

namespace EveOS.Html

/-! ## The state -/

/-- The elements whose content is skipped, or collected. -/
inductive SkipTag
  | script
  | template
  | iframe
  | object
  | title
  | style
  deriving DecidableEq, Repr

def SkipTag.close : SkipTag → Bytes
  | .script => ascii "</script>"
  | .template => ascii "</template>"
  | .iframe => ascii "</iframe>"
  | .object => ascii "</object>"
  | .title => ascii "</title>"
  | .style => ascii "</style>"

/-- The local variables of `format_document`. The two block stacks share their
pointer, so they are one stack of pairs. -/
structure Doc extends Screen where
  scripts_stripped : Bool
  hints : CssHints
  skip : Option SkipTag
  a_styled : Bool
  list_depth : Nat
  style_buf : Bytes
  style_rules : List StyleRule
  block_stack : List (Nat × Nat)
  default_fg : Rgb
  fg_stack : List Rgb
  cur_fg : Rgb
  active_indent : Nat
  active_width : Nat
  deriving DecidableEq

def STYLE_SCRATCH_CAP : Nat := 2048
def BLOCK_STACK_CAP : Nat := 16
def FG_STACK_CAP : Nat := 12

def H1_RGB : Rgb := (0x00, 0x40, 0x90)
def H2_RGB : Rgb := (0x10, 0x60, 0x70)
def H3_RGB : Rgb := (0x44, 0x44, 0x88)

def Screen.start (fg : Rgb) : Screen := ⟨[], .new fg, false⟩

/-- The variables in front of the loop. -/
def Doc.start (default_body_rgb : Rgb) : Doc where
  toScreen := .start default_body_rgb
  scripts_stripped := false
  hints := ⟨default_body_rgb, H1_RGB, H2_RGB, (0x22, 0x22, 0xcc), false, false, false⟩
  skip := none
  a_styled := false
  list_depth := 0
  style_buf := []
  style_rules := []
  block_stack := []
  default_fg := default_body_rgb
  fg_stack := []
  cur_fg := default_body_rgb
  active_indent := 0
  active_width := BROWSER_LINE_CAP

/-- `u8` arithmetic that saturates. -/
def sat8 (n : Nat) : Nat := min n 255

/-- `set_fg!`. -/
def Doc.set_fg (doc : Doc) (rgb : Rgb) : Doc :=
  { doc with
    cur_fg := rgb
    cur := { doc.cur with r := rgb.1, g := rgb.2.1, b := rgb.2.2 } }

/-- Do something to the screen. -/
def Doc.onScreen (doc : Doc) (x : Option Screen) : Option Doc :=
  x.map fun s => { doc with toScreen := s }

/-- `emit_char_cap` with the current colour and width. -/
def Doc.emit (doc : Doc) (c : UInt8) : Option Doc :=
  doc.onScreen (doc.toScreen.emit_char_cap c doc.cur_fg doc.active_width)

def Doc.emit_spaces (doc : Doc) (n : Nat) : Option Doc :=
  doc.onScreen (doc.toScreen.emit_chars_cap n 32 doc.cur_fg doc.active_width)

def Doc.break_line (doc : Doc) (blank_after : Bool) (fg : Rgb) : Option Doc :=
  doc.onScreen (doc.toScreen.emit_break blank_after fg)

/-- `n` breaks. -/
def Doc.break_lines (doc : Doc) (n : Nat) (blank_after : Bool) : Option Doc :=
  (List.replicate n blank_after).foldlM (fun doc b => doc.break_line b doc.default_fg) doc

/-- The indentation in front of the first character of a line. -/
def Doc.indent (doc : Doc) : Option Doc :=
  if doc.cur.len = 0 then doc.emit_spaces (min doc.active_indent 24) else some doc

/-! ## Reading -/

/-- What one round of the loop reads. -/
inductive Piece
  /-- The closing tag of a skipped element. -/
  | skip_end (m : SkipTag)
  /-- Bytes of a style element that is never closed. -/
  | style_text (text : Bytes)
  | style_rest
  /-- Something that is never closed: the loop ends. -/
  | unclosed
  /-- A character for `emit_char_cap`, behind the indentation or without it. -/
  | char (indent : Bool) (c : UInt8)
  /-- A character for `emit_slice_cap`. -/
  | glyph (indent : Bool) (bytes : Bytes)
  | newline
  | blank
  /-- A comment, or a tag that is dropped. -/
  | ignored
  | open_script (js : Bool)
  | open_skip (m : SkipTag)
  /-- Any other tag, without its `>`. -/
  | tag (tag_slice : Bytes)
  deriving DecidableEq

/-- The branches of the `in_*` flags. -/
def read_skipped (m : SkipTag) (style_len : Nat) (rest : Bytes) : Option (Piece × Nat) :=
  match find_sub_ci rest m.close with
  | some rel => some (.skip_end m, rel + m.close.length)
  | none =>
    if m = .style then
      let take := min rest.length (STYLE_SCRATCH_CAP - style_len)
      if 0 < take then (slice? rest 0 take).map fun text => (.style_text text, take)
      else some (.style_rest, rest.length)
    else some (.unclosed, 0)

/-- The named entities, what they show, and whether they are indented. -/
def ENTITIES : List (Bytes × Bool × UInt8) :=
  [(ascii "&nbsp;", true, 32), (ascii "&amp;", false, 38), (ascii "&lt;", false, 60),
    (ascii "&gt;", false, 62), (ascii "&quot;", false, 34)]

/-- An entity at the front of `rest`. -/
def read_entity (rest : Bytes) : Option (Piece × Nat) :=
  match ENTITIES.find? fun (name, _) => starts_ci rest 0 name with
  | some (name, indent, c) => some (.char indent c, name.length)
  | none =>
    match parse_numeric_entity rest with
    | some (cp, consumed) => some (.glyph false (entity_bytes cp), consumed)
    | none => none

/-- A character that is no entity. -/
def read_char (rest : Bytes) (ch : UInt8) : Piece × Nat :=
  if ch = 10 ∨ ch = 13 then (.newline, 1)
  else if ch = 9 ∨ ch = 32 then (.blank, 1)
  else if ch < 0x80 then (.char true ch, 1)
  else
    match utf8_char rest ch with
    | none => (.char true 63, 1)
    | some bytes => (.glyph true bytes, bytes.length)

/-- The text branch: `ch` is the byte at the cursor. -/
def read_text (rest : Bytes) (ch : UInt8) : Piece × Nat :=
  match (if ch = 38 then read_entity rest else none) with
  | some r => r
  | none => read_char rest ch

/-- `skip_until_gt`. -/
def skip_until_gt (s : Bytes) (i : Nat) : Nat :=
  let i := scan (· != 62) s i
  if i < s.length then i + 1 else i

/-- The loop over a comment: the bytes in front of `-->`, or of the last two
bytes. -/
def comment_len : Bytes → Nat
  | a :: b :: c :: rest => if a = 45 ∧ b = 45 ∧ c = 62 then 0 else comment_len (b :: c :: rest) + 1
  | _ => 0

/-- The tags that are read up to their `>` and dropped, or that begin an element
whose content is skipped, in the order they are looked for. `<script` comes
after the first three. -/
def DROPPED_TAGS : List (Bytes × Piece) :=
  [(ascii "<iframe", .open_skip .iframe), (ascii "<object", .open_skip .object),
    (ascii "<embed", .ignored), (ascii "<style", .open_skip .style),
    (ascii "<template", .open_skip .template), (ascii "<title", .open_skip .title)]

/-- A tag that has a meaning of its own. -/
def read_plain_tag (rest : Bytes) : Option (Piece × Nat) :=
  let tag_end := scan (· != 62) rest 1
  if rest.length ≤ tag_end then some (.unclosed, 0)
  else do
    let tag_slice ← slice? rest 0 tag_end
    return (.tag tag_slice, tag_end + 1)

/-- A script element. -/
def read_script (rest : Bytes) : Option (Piece × Nat) :=
  let te := scan (· != 62) rest 1
  if rest.length ≤ te then some (.unclosed, 0)
  else do
    let tag_open ← slice? rest 0 (te + 1)
    let data ← script_mime_is_non_javascript tag_open
    return (.open_script (!data), te + 1)

/-- The tag branch: `rest` begins with `<`. -/
def read_tag (rest : Bytes) : Option (Piece × Nat) :=
  if starts_ci rest 0 (ascii "<!--") then
    some (.ignored, min (4 + comment_len (rest.drop 4) + 3) rest.length)
  else if starts_ci rest 0 (ascii "<meta") || starts_ci rest 0 (ascii "<link")
      || starts_ci rest 0 (ascii "<base") then
    some (.ignored, skip_until_gt rest 0)
  else if starts_ci rest 0 (ascii "<script") then read_script rest
  else
    match DROPPED_TAGS.find? fun (name, _) => starts_ci rest 0 name with
    | some (_, piece) => some (piece, skip_until_gt rest 0)
    | none => read_plain_tag rest

/-- What stands at the cursor, and how far the cursor moves. -/
def read_piece (skip : Option SkipTag) (style_len : Nat) (rest : Bytes) : Option (Piece × Nat) :=
  match skip with
  | some m => read_skipped m style_len rest
  | none => do
    let ch ← rest[0]?
    if ch ≠ 60 then return read_text rest ch else read_tag rest

/-! ## Tags -/

def name_is (name n : Bytes) : Bool := name.length = n.length && starts_ci name 0 n

def name_in (name : Bytes) (names : List Bytes) : Bool := names.any (name_is name)

/-- `/` and the spaces that may stand in front of a tag's name. -/
def is_name_gap (c : UInt8) : Bool := c == 32 || c == 9 || c == 10 || c == 47

def tag_name (tag_slice : Bytes) (is_close : Bool) : Option Bytes :=
  let name_start := scan is_name_gap tag_slice (if is_close then 2 else 1)
  slice? tag_slice name_start (scan is_alnum tag_slice name_start)

/-- What a rule or an inline style adds to the computed style. -/
def BoxStyle.merge (computed st : BoxStyle) : BoxStyle where
  color := st.color.or computed.color
  display := if st.display ≠ .Inherit then st.display else computed.display
  margin_left := max computed.margin_left st.margin_left
  padding_left := max computed.padding_left st.padding_left
  margin_top := max computed.margin_top st.margin_top
  margin_bottom := max computed.margin_bottom st.margin_bottom
  padding_top := max computed.padding_top st.padding_top
  padding_bottom := max computed.padding_bottom st.padding_bottom
  width_chars := st.width_chars.or computed.width_chars

/-- A rule matches a tag with this name, class and id. -/
def StyleRule.matched (rule : StyleRule) (name : Bytes) (class_attr id_attr : Option Bytes) :
    Option Bool :=
  match rule.kind with
  | .Tag => some (name_is name rule.name)
  | .Class =>
    match class_attr with
    | none => some false
    | some c => class_matches c rule.name
  | .Id => some (id_attr.any fun id => name_is id rule.name)

/-- The rules that match, in their order, and then the inline style. -/
def computed_style (rules : List StyleRule) (name : Bytes)
    (class_attr id_attr inline_style : Option Bytes) : Option BoxStyle := do
  let computed ← rules.foldlM (fun computed rule => do
    let matched ← rule.matched name class_attr id_attr
    return if matched then BoxStyle.merge computed rule.style else computed) BoxStyle.empty
  match inline_style with
  | none => return computed
  | some st =>
    let inl ← parse_inline_box_style st BROWSER_LINE_CAP
    return computed.merge inl

/-- The tags whose end closes a block. -/
def CLOSING_BLOCKS : List Bytes :=
  [ascii "p", ascii "div", ascii "li", ascii "tr", ascii "h1", ascii "h2", ascii "h3",
    ascii "section", ascii "article", ascii "main", ascii "nav", ascii "header", ascii "footer",
    ascii "blockquote", ascii "aside", ascii "figure", ascii "figcaption", ascii "details",
    ascii "summary", ascii "pre"]

/-- The tags that open a block. -/
def OPENING_BLOCKS : List Bytes :=
  [ascii "p", ascii "div", ascii "tr", ascii "section", ascii "article", ascii "main", ascii "nav",
    ascii "header", ascii "footer", ascii "blockquote", ascii "aside", ascii "figure",
    ascii "figcaption", ascii "details", ascii "summary", ascii "pre"]

def STRONG_TAGS : List Bytes := [ascii "b", ascii "strong"]
def EM_TAGS : List Bytes := [ascii "i", ascii "em"]
def CODE_TAGS : List Bytes := [ascii "code", ascii "kbd", ascii "samp"]
def MARK_TAGS : List Bytes := [ascii "mark"]

/-- `if fg_sp > 0 { fg_sp -= 1; set_fg!(fg_stack[fg_sp]) } else { set_fg!(default_fg) }`. -/
def Doc.pop_fg (doc : Doc) : Option Doc :=
  if doc.fg_stack = [] then some (doc.set_fg doc.default_fg)
  else do
    let (rgb, fg_stack) ← pop? FG_STACK_CAP doc.fg_stack
    return { doc with fg_stack := fg_stack }.set_fg rgb

/-- `if fg_sp < fg_stack.len() { fg_stack[fg_sp] = cur_fg; fg_sp += 1 }`, and
the new colour. -/
def Doc.push_fg (doc : Doc) (rgb : Rgb) : Option Doc := do
  let fg_stack ←
    (if doc.fg_stack.length < FG_STACK_CAP then push? FG_STACK_CAP doc.fg_stack doc.cur_fg
     else some doc.fg_stack)
  return { doc with fg_stack := fg_stack }.set_fg rgb

/-- Back to the indentation and the width around the block. -/
def Doc.pop_block (doc : Doc) : Option Doc :=
  if doc.block_stack = [] then
    some { doc with active_indent := 0, active_width := BROWSER_LINE_CAP }
  else do
    let ((indent, width), block_stack) ← pop? BLOCK_STACK_CAP doc.block_stack
    return { doc with active_indent := indent, active_width := width, block_stack := block_stack }

/-- A new block, with the indentation and the width its style asks for. -/
def Doc.push_block (doc : Doc) (inline_indent : Nat) (width_chars : Option Nat) : Option Doc := do
  let block_stack ←
    (if doc.block_stack.length < BLOCK_STACK_CAP then
       push? BLOCK_STACK_CAP doc.block_stack (doc.active_indent, doc.active_width)
     else some doc.block_stack)
  return { doc with
    block_stack := block_stack
    active_indent := sat8 (sat8 (doc.active_indent + inline_indent) + sat8 (doc.list_depth * 2))
    active_width :=
      match width_chars with
      | some w => min doc.active_width (max w 8)
      | none => doc.active_width }

/-- The branch of a closing tag. -/
def Doc.close_tag (doc : Doc) (name : Bytes) : Option Doc := do
  let doc :=
    if name_in name [ascii "ul", ascii "ol"] then { doc with list_depth := doc.list_depth - 1 }
    else doc
  let doc ← (if name_in name CLOSING_BLOCKS then doc.pop_block else some doc)
  if name_is name (ascii "a") then
    if doc.a_styled then
      let doc ← doc.pop_fg
      return { doc with a_styled := false }
    else return doc
  else
    let doc ←
      (if name_in name (STRONG_TAGS ++ EM_TAGS ++ CODE_TAGS ++ MARK_TAGS) then doc.pop_fg else some doc)
    if name_in name CLOSING_BLOCKS then
      let doc ← doc.break_line (name_in name [ascii "p", ascii "div", ascii "pre"]) doc.default_fg
      return doc.set_fg doc.default_fg
    else return doc

/-- A heading with the colour `h`. -/
def Doc.open_heading (doc : Doc) (h : Rgb) (inline_color : Option Rgb) : Option Doc := do
  let doc ← doc.break_line true h
  return doc.set_fg (inline_color.getD h)

/-- The branch of a link. -/
def Doc.open_link (doc : Doc) (tag_slice : Bytes) (inline_color : Option Rgb) : Option Doc := do
  if ← tag_href_value_dangerous tag_slice then return doc
  else ({ doc with a_styled := true } : Doc).push_fg (inline_color.getD doc.hints.link)

/-- The blank lines a style asks for above a block. -/
def BoxStyle.lines_above (st : BoxStyle) : Nat := sat8 (st.margin_top + st.padding_top)

def BoxStyle.inline_indent (st : BoxStyle) : Nat := sat8 (st.margin_left + st.padding_left)

def Doc.open_block (doc : Doc) (computed : BoxStyle) : Option Doc := do
  let doc ← doc.break_lines (min computed.lines_above 3) true
  let doc ← doc.break_line true doc.default_fg
  let doc ← doc.push_block computed.inline_indent computed.width_chars
  return doc.set_fg doc.default_fg

def Doc.open_item (doc : Doc) (computed : BoxStyle) : Option Doc := do
  let doc ← doc.break_lines (min computed.lines_above 2) false
  let doc ← doc.emit_spaces (min (sat8 (doc.list_depth * 2) + computed.inline_indent) 16)
  let doc ← doc.emit 45
  doc.emit 32

/-- The branches of an opening tag that is not hidden. -/
def Doc.open_tag (doc : Doc) (tag_slice name : Bytes) (computed : BoxStyle) : Option Doc :=
  if name_in name [ascii "ul", ascii "ol"] then
    { doc with list_depth := sat8 (doc.list_depth + 1) }.break_line false doc.default_fg
  else if name_in name [ascii "br", ascii "hr"] then
    (doc.break_line false doc.default_fg).map fun doc => doc.set_fg doc.default_fg
  else if name_is name (ascii "h1") then
    doc.open_heading (if doc.hints.has_h1 then doc.hints.h1 else H1_RGB) computed.color
  else if name_is name (ascii "h2") then
    doc.open_heading (if doc.hints.has_h2 then doc.hints.h2 else H2_RGB) computed.color
  else if name_is name (ascii "h3") then doc.open_heading H3_RGB computed.color
  else if name_in name STRONG_TAGS then doc.push_fg (0x11, 0x11, 0x11)
  else if name_in name EM_TAGS then doc.push_fg (0x55, 0x44, 0x77)
  else if name_in name CODE_TAGS then doc.push_fg (0x1a, 0x55, 0x33)
  else if name_in name MARK_TAGS then doc.push_fg (0xaa, 0x66, 0x00)
  else if name_is name (ascii "a") then doc.open_link tag_slice computed.color
  else if name_in name OPENING_BLOCKS then doc.open_block computed
  else if name_is name (ascii "li") then doc.open_item computed
  else some doc

/-- A tag that has a meaning of its own. -/
def Doc.tag (doc : Doc) (tag_slice : Bytes) : Option Doc :=
  if tag_slice.length < 2 then some doc
  else do
    let mark ← tag_slice[1]?
    let name ← tag_name tag_slice (mark == 47)
    if mark = 47 then doc.close_tag name
    else
      let class_attr ← extract_attr_value tag_slice (ascii "class")
      let id_attr ← extract_attr_value tag_slice (ascii "id")
      let inline_style ← extract_attr_value tag_slice (ascii "style")
      let computed ← computed_style doc.style_rules name class_attr id_attr inline_style
      if computed.display = .None then return doc else doc.open_tag tag_slice name computed

/-! ## The loop -/

/-- The colours and the rules of what `style_buf` holds. -/
def Doc.scan_style (doc : Doc) : Option Doc := do
  let hints ← scan_style_for_colors doc.style_buf doc.hints
  let style_rules ← scan_style_rules doc.style_buf BROWSER_LINE_CAP
  let doc := { doc with hints := hints, style_rules := style_rules }
  if hints.has_body then
    let doc := { doc with default_fg := hints.body }
    return if doc.fg_stack = [] then doc.set_fg doc.default_fg else doc
  else return doc

/-- `</style>` was found. -/
def Doc.end_style (doc : Doc) : Option Doc := do
  let doc ← (if 0 < doc.style_buf.length then doc.scan_style else some doc)
  return { doc with style_buf := [], skip := none }

/-- `style_buf[style_len..style_len + take].copy_from_slice(text)`. -/
def Doc.add_style (doc : Doc) (text : Bytes) : Option Doc :=
  if doc.style_buf.length + text.length ≤ STYLE_SCRATCH_CAP then
    some { doc with style_buf := doc.style_buf ++ text }
  else none

/-- A space or a tab: one space, but none at the front of a line or behind
another. -/
def Doc.blank (doc : Doc) : Option Doc :=
  if 0 < doc.cur.len then do
    let last ← doc.cur.data[doc.cur.len - 1]?
    if last ≠ 32 then doc.emit 32 else return doc
  else some doc

/-- What a round does with the piece it has read. -/
def Doc.act (doc : Doc) : Piece → Option Doc
  | .skip_end .style => doc.end_style
  | .skip_end _ => some { doc with skip := none }
  | .style_text text => doc.add_style text
  | .char indent c => do
    let doc ← (if indent then doc.indent else some doc)
    doc.emit c
  | .glyph indent bytes => do
    let doc ← (if indent then doc.indent else some doc)
    doc.onScreen (doc.toScreen.emit_slice_cap bytes doc.cur_fg doc.active_width)
  | .blank => doc.blank
  | .open_script js =>
    some { doc with scripts_stripped := doc.scripts_stripped || js, skip := some .script }
  | .open_skip .style => some { doc with skip := some .style, style_buf := [] }
  | .open_skip m => some { doc with skip := some m }
  | .tag tag_slice => doc.tag tag_slice
  | .style_rest | .unclosed | .newline | .ignored => some doc

/-- One round of the loop. -/
def doc_round : Bytes × Doc → Option ((Bytes × Doc) ⊕ Doc)
  | (rest, doc) =>
    if rest = [] then some (.inr doc)
    else if BROWSER_MAX_LINES ≤ doc.line_count then some (.inr { doc with html_truncated := true })
    else do
      let (piece, n) ← read_piece doc.skip doc.style_buf.length rest
      if piece = .unclosed then return .inr doc
      else
        let doc ← doc.act piece
        return .inl (rest.drop n, doc)

/-- The result of a rendering. -/
structure Rendered where
  lines : List BrowserLine
  html_truncated : Bool
  scripts_stripped : Bool
  deriving DecidableEq

def Rendered.line_count (r : Rendered) : Nat := r.lines.length

/-- The line that says that scripts were stripped. -/
def SCRIPTS_NOTE : BrowserLine :=
  ⟨(ascii "[NO REACT/JS VM; CSS3 LAYOUT N/I--STATIC HTML OR SSR FOR EVE]").take BROWSER_LINE_CAP,
    0x88, 0x55, 0x22⟩

/-- What follows the loop. -/
def Doc.finish (doc : Doc) : Option Rendered := do
  let s ←
    (if 0 < doc.cur.len ∧ doc.line_count < BROWSER_MAX_LINES then doc.toScreen.flush_line
     else some doc.toScreen)
  let s ←
    (if doc.scripts_stripped ∧ s.line_count < BROWSER_MAX_LINES then s.put_line SCRIPTS_NOTE else some s)
  return ⟨s.lines, s.html_truncated, doc.scripts_stripped⟩

/-- `format_document` on a document that looks like HTML. -/
def format_html (raw : Bytes) (default_body_rgb : Rgb) : Option Rendered := do
  let doc ← loop doc_round (raw.length + 1) (raw, Doc.start default_body_rgb)
  doc.finish

/-! ## Plain text -/

/-- One round of `plain_lines`. -/
def plain_round (fg : Rgb) : Bytes × Screen → Option ((Bytes × Screen) ⊕ Screen)
  | ([], s) => some (.inr s)
  | (b :: tail, s) =>
    if b = 10 ∨ b = 13 then do
      let s ← (if 0 < s.cur.len then s.flush_line else some s)
      return .inl (tail, s.clear_with fg)
    else if s.html_truncated then some (.inr s)
    else if b < 0x80 then do
      let s ← s.emit_char b fg
      return .inl (tail, s)
    else
      match utf8_char (b :: tail) b with
      | none => do
        let s ← s.emit_char 63 fg
        return .inl (tail, s)
      | some bytes => do
        let s ← s.emit_slice_cap bytes fg BROWSER_LINE_CAP
        return .inl ((b :: tail).drop bytes.length, s)

def plain_lines (raw : Bytes) (fg : Rgb) : Option Rendered := do
  let s ← loop (plain_round fg) (raw.length + 1) (raw, Screen.start fg)
  let s ← (if 0 < s.cur.len ∧ !s.html_truncated then s.flush_line else some s)
  return ⟨s.lines, s.html_truncated, false⟩

/-! ## `format_document` -/

/-- The static memory that a call finds as the call before left it. -/
structure RenderMemory where
  html_render_lines : List BrowserLine
  dom_tree : DomTree

/-- `format_document`: the memory afterwards, and what it says about the lines.
`HTML_RENDER_LINES` holds the lines written, and behind them what it held. -/
def format_document (mem : RenderMemory) (raw : Bytes) (default_body_rgb : Rgb) :
    Option (RenderMemory × Rendered) := do
  let dom_tree ← build_text_dom raw mem.dom_tree
  let out ← (if looks_like_html raw then format_html raw default_body_rgb
    else plain_lines raw default_body_rgb)
  return (⟨out.lines ++ mem.html_render_lines.drop out.line_count, dom_tree⟩, out)

end EveOS.Html
