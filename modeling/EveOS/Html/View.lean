/-
What tags do to the scopes of a document.

The block stack with the indentation and the width, and the colour stack with the
colour, are `Scopes`: a tag enters or leaves one, or changes the current value.
`View` is the part of the document that is not on the screen; every operation is
an operation on views.
-/
import EveOS.Html.Writes
import EveOS.Lib.Scopes

set_option autoImplicit false

namespace EveOS.Html

/-- What tags do not change. -/
structure Base where
  scripts_stripped : Bool
  hints : CssHints
  skip : Option SkipTag
  style_buf : Bytes
  style_rules : List StyleRule
  default_fg : Rgb

/-- A document without its screen. -/
structure View where
  base : Base
  blocks : Scopes (Nat × Nat)
  colours : Scopes Rgb
  a_styled : Bool

def Doc.view (doc : Doc) : View where
  base := ⟨doc.scripts_stripped, doc.hints, doc.skip, doc.style_buf, doc.style_rules, doc.default_fg⟩
  blocks := ⟨doc.block_stack, (doc.active_indent, doc.active_width)⟩
  colours := ⟨doc.fg_stack, doc.cur_fg⟩
  a_styled := doc.a_styled

/-- The indentation and the width outside all blocks. -/
def PAGE_BLOCK : Nat × Nat := (0, BROWSER_LINE_CAP)

def View.set_fg (v : View) (rgb : Rgb) : View := { v with colours := { v.colours with cur := rgb } }

def View.push_fg (v : View) (rgb : Rgb) : View := { v with colours := v.colours.enter FG_STACK_CAP rgb }

def View.pop_fg (v : View) : View := { v with colours := v.colours.leave v.base.default_fg }

def View.push_block (v : View) (block : Nat × Nat) : View :=
  { v with blocks := v.blocks.enter BLOCK_STACK_CAP block }

def View.pop_block (v : View) : View := { v with blocks := v.blocks.leave PAGE_BLOCK }

def INLINE_TAGS : List Bytes := STRONG_TAGS ++ EM_TAGS ++ CODE_TAGS ++ MARK_TAGS

/-- A closing tag. -/
def View.close_tag (v : View) (name : Bytes) : View :=
  let v := if name_in name CLOSING_BLOCKS then v.pop_block else v
  if name_is name (ascii "a") then (if v.a_styled then { v.pop_fg with a_styled := false } else v)
  else
    let v := if name_in name INLINE_TAGS then v.pop_fg else v
    if name_in name CLOSING_BLOCKS then v.set_fg v.base.default_fg else v

/-- An opening tag that is not hidden, with the colour and the block it asks for. -/
def View.open_tag (v : View) (name : Bytes) (dangerous : Bool) (rgb : Rgb) (block : Nat × Nat) : View :=
  if name_in name [ascii "ul", ascii "ol"] then v
  else if name_in name [ascii "br", ascii "hr"] then v.set_fg v.base.default_fg
  else if name_in name [ascii "h1", ascii "h2", ascii "h3"] then v.set_fg rgb
  else if name_in name INLINE_TAGS then v.push_fg rgb
  else if name_is name (ascii "a") then
    (if dangerous then v else ({ v with a_styled := true } : View).push_fg rgb)
  else if name_in name OPENING_BLOCKS then (v.push_block block).set_fg v.base.default_fg
  else v

theorem View.close_tag_base (v : View) (name : Bytes) : (v.close_tag name).base = v.base := by
  unfold View.close_tag
  dsimp only
  split_ifs <;> rfl

theorem View.open_tag_base (v : View) (name : Bytes) (dangerous : Bool) (rgb : Rgb) (block : Nat × Nat) :
    (v.open_tag name dangerous rgb block).base = v.base := by
  unfold View.open_tag
  split_ifs <;> rfl

section View

variable {doc doc' : Doc}

theorem wrote_view {ws : Writes} (h : Wrote doc ws doc') : doc'.view = doc.view := by
  obtain ⟨s, rfl, -⟩ := h
  rfl

theorem set_fg_view (doc : Doc) (rgb : Rgb) : (doc.set_fg rgb).view = doc.view.set_fg rgb := rfl

theorem pop?_some {α : Type} {cap : Nat} {xs : List α} {r : α × List α} (h : pop? cap xs = some r) (a : α) :
    r = (xs.getLast?.getD a, xs.dropLast) := by
  unfold pop? at h
  split at h
  · cases h
  · rename_i b hb
    split_ifs at h
    rw [hb, Option.getD_some, ← Option.some.inj h]

theorem push_if_room_some {α : Type} {cap : Nat} {xs ys : List α} {a : α}
    (h : (if xs.length < cap then push? cap xs a else some xs) = some ys) :
    ys = if xs.length < cap then xs ++ [a] else xs := by
  unfold push? at h
  split_ifs at h ⊢
  · exact (Option.some.inj h).symm
  · exact (Option.some.inj h).symm

theorem pop_fg_view (h : doc.pop_fg = some doc') : doc'.view = doc.view.pop_fg := by
  unfold Doc.pop_fg at h
  split_ifs at h with hempty
  · rw [← Option.some.inj h]
    unfold View.pop_fg
    rw [Scopes.leave_empty _ hempty]
    unfold Doc.set_fg Doc.view
    rw [hempty]
  · obtain ⟨r, hpop, h⟩ := Returns.of_bind h
    obtain rfl := pop?_some hpop doc.default_fg
    rw [← Option.some.inj h]
    rfl

theorem push_fg_view {rgb : Rgb} (h : doc.push_fg rgb = some doc') : doc'.view = doc.view.push_fg rgb := by
  obtain ⟨fg_stack, hpush, h⟩ := Returns.of_bind h
  obtain rfl := push_if_room_some hpush
  rw [← Option.some.inj h]
  unfold View.push_fg
  by_cases hroom : doc.fg_stack.length < FG_STACK_CAP
  · rw [Scopes.enter_room (show doc.view.colours.saved.length < _ from hroom), if_pos hroom]
    rfl
  · rw [Scopes.enter_full (show ¬ doc.view.colours.saved.length < _ from hroom), if_neg hroom]
    rfl

theorem pop_block_view (h : doc.pop_block = some doc') : doc'.view = doc.view.pop_block := by
  unfold Doc.pop_block at h
  split_ifs at h with hempty
  · rw [← Option.some.inj h]
    unfold View.pop_block
    rw [Scopes.leave_empty _ hempty]
    unfold Doc.view
    rw [hempty]
    rfl
  · obtain ⟨r, hpop, h⟩ := Returns.of_bind h
    obtain rfl := pop?_some hpop PAGE_BLOCK
    rw [← Option.some.inj h]
    rfl

theorem push_block_view {inline_indent : Nat} {width_chars : Option Nat}
    (h : doc.push_block inline_indent width_chars = some doc') :
    ∃ block, doc'.view = doc.view.push_block block := by
  obtain ⟨block_stack, hpush, h⟩ := Returns.of_bind h
  obtain rfl := push_if_room_some hpush
  refine ⟨(doc'.active_indent, doc'.active_width), ?_⟩
  rw [← Option.some.inj h]
  unfold View.push_block
  by_cases hroom : doc.block_stack.length < BLOCK_STACK_CAP
  · rw [Scopes.enter_room (show doc.view.blocks.saved.length < _ from hroom), if_pos hroom]
    rfl
  · rw [Scopes.enter_full (show ¬ doc.view.blocks.saved.length < _ from hroom), if_neg hroom]
    rfl

/-- Something that may be done. -/
theorem view_of_ite {c : Prop} [Decidable c] {x : Option Doc} {v : View}
    (hx : ∀ d, x = some d → d.view = v) (h : (if c then x else some doc) = some doc') :
    doc'.view = if c then v else doc.view := by
  split_ifs at h ⊢
  · exact hx doc' h
  · rw [Option.some.inj h]

theorem close_tag_view {name : Bytes} (h : doc.close_tag name = some doc') :
    doc'.view = doc.view.close_tag name := by
  unfold Doc.close_tag at h
  obtain ⟨d, hd, h⟩ := Returns.of_bind h
  have hlist : (if name_in name [ascii "ul", ascii "ol"] then
      { doc with list_depth := doc.list_depth - 1 } else doc).view = doc.view := by
    split_ifs <;> rfl
  have hpop : d.view = if name_in name CLOSING_BLOCKS then doc.view.pop_block else doc.view := by
    rw [← hlist]
    exact view_of_ite (fun e he => pop_block_view he) hd
  unfold View.close_tag
  dsimp only
  rw [← hpop]
  by_cases hlink : name_is name (ascii "a") = true
  · rw [if_pos hlink] at h ⊢
    by_cases hstyled : d.a_styled = true
    · rw [if_pos hstyled] at h
      rw [if_pos (show d.view.a_styled = true from hstyled)]
      obtain ⟨e, he, h⟩ := Returns.of_bind h
      rw [← Option.some.inj h, ← pop_fg_view he]
      rfl
    · rw [if_neg hstyled] at h
      rw [if_neg (show ¬ d.view.a_styled = true from hstyled), Option.some.inj h]
  · rw [if_neg hlink] at h ⊢
    obtain ⟨e, he, h⟩ := Returns.of_bind h
    have he : e.view = if name_in name INLINE_TAGS then d.view.pop_fg else d.view :=
      view_of_ite (fun f hf => pop_fg_view hf) he
    rw [← he]
    by_cases hblock : name_in name CLOSING_BLOCKS = true
    · rw [if_pos hblock] at h ⊢
      obtain ⟨f, hf, h⟩ := Returns.of_bind h
      rw [← Option.some.inj h, set_fg_view, wrote_view (break_line_wrote hf)]
      have hsame : f.default_fg = e.default_fg := congrArg (fun v : View => v.base.default_fg)
        (wrote_view (break_line_wrote hf))
      rw [hsame]
      rfl
    · rw [if_neg hblock] at h ⊢
      rw [Option.some.inj h]

theorem open_heading_view {rgb : Rgb} {inline_color : Option Rgb}
    (h : doc.open_heading rgb inline_color = some doc') :
    doc'.view = doc.view.set_fg (inline_color.getD rgb) := by
  obtain ⟨d, hd, h⟩ := Returns.of_bind h
  rw [← Option.some.inj h, set_fg_view, wrote_view (break_line_wrote hd)]

theorem open_block_view {computed : BoxStyle} (h : doc.open_block computed = some doc') :
    ∃ block, doc'.view = (doc.view.push_block block).set_fg doc.default_fg := by
  obtain ⟨d, hd, h⟩ := Returns.of_bind h
  obtain ⟨e, he, h⟩ := Returns.of_bind h
  obtain ⟨f, hf, h⟩ := Returns.of_bind h
  obtain ⟨block, hblock⟩ := push_block_view hf
  have hlines : e.view = doc.view := (wrote_view (break_line_wrote he)).trans (wrote_view (break_lines_wrote hd))
  rw [hlines] at hblock
  have hsame : f.default_fg = doc.default_fg := congrArg (fun v : View => v.base.default_fg) hblock
  refine ⟨block, ?_⟩
  rw [← Option.some.inj h, set_fg_view, hblock, hsame]

theorem open_link_view {tag_slice : Bytes} {inline_color : Option Rgb}
    (h : doc.open_link tag_slice inline_color = some doc') :
    ∃ dangerous rgb, tag_href_value_dangerous tag_slice = some dangerous ∧
      doc'.view = if dangerous then doc.view else ({ doc.view with a_styled := true } : View).push_fg rgb := by
  obtain ⟨dangerous, hdangerous, h⟩ := Returns.of_bind h
  refine ⟨dangerous, inline_color.getD doc.hints.link, hdangerous, ?_⟩
  split_ifs at h ⊢
  · rw [Option.some.inj h]
  · exact push_fg_view h

/-- **An opening tag does to the view what its name says.** -/
theorem open_tag_view {tag_slice name : Bytes} {computed : BoxStyle}
    (h : doc.open_tag tag_slice name computed = some doc') :
    ∃ rgb block, doc'.view =
      doc.view.open_tag name ((tag_href_value_dangerous tag_slice).getD false) rgb block := by
  unfold Doc.open_tag at h
  unfold View.open_tag
  have hheadings : name_in name [ascii "h1", ascii "h2", ascii "h3"] = true ↔
      name_is name (ascii "h1") = true ∨ name_is name (ascii "h2") = true ∨ name_is name (ascii "h3") = true := by
    simp [name_in]
  have hinline : name_in name INLINE_TAGS = true ↔
      name_in name STRONG_TAGS = true ∨ name_in name EM_TAGS = true ∨ name_in name CODE_TAGS = true ∨
        name_in name MARK_TAGS = true := by
    simp only [INLINE_TAGS, name_in, List.any_append, Bool.or_eq_true, or_assoc]
  by_cases hlist : name_in name [ascii "ul", ascii "ol"] = true
  · rw [if_pos hlist] at h
    simp only [if_pos hlist]
    exact ⟨doc.cur_fg, PAGE_BLOCK, (wrote_view (break_line_wrote h)).trans rfl⟩
  rw [if_neg hlist] at h
  simp only [if_neg hlist]
  by_cases hbr : name_in name [ascii "br", ascii "hr"] = true
  · rw [if_pos hbr] at h
    simp only [if_pos hbr]
    obtain ⟨d, hd, rfl⟩ := Option.map_eq_some_iff.mp h
    have hsame := wrote_view (break_line_wrote hd)
    have hdefault : d.default_fg = doc.default_fg := congrArg (fun v : View => v.base.default_fg) hsame
    refine ⟨doc.cur_fg, PAGE_BLOCK, ?_⟩
    rw [set_fg_view, hsame, hdefault]
    rfl
  rw [if_neg hbr] at h
  simp only [if_neg hbr]
  by_cases hheading : name_in name [ascii "h1", ascii "h2", ascii "h3"] = true
  · simp only [if_pos hheading]
    rw [hheadings] at hheading
    by_cases h1 : name_is name (ascii "h1") = true
    · rw [if_pos h1] at h
      exact ⟨_, PAGE_BLOCK, open_heading_view h⟩
    by_cases h2 : name_is name (ascii "h2") = true
    · rw [if_neg h1, if_pos h2] at h
      exact ⟨_, PAGE_BLOCK, open_heading_view h⟩
    rw [if_neg h1, if_neg h2, if_pos ((hheading.resolve_left h1).resolve_left h2)] at h
    exact ⟨_, PAGE_BLOCK, open_heading_view h⟩
  simp only [if_neg hheading]
  rw [hheadings, not_or, not_or] at hheading
  rw [if_neg hheading.1, if_neg hheading.2.1, if_neg hheading.2.2] at h
  by_cases htext : name_in name INLINE_TAGS = true
  · simp only [if_pos htext]
    rw [hinline] at htext
    by_cases hb : name_in name STRONG_TAGS = true
    · rw [if_pos hb] at h
      exact ⟨_, PAGE_BLOCK, push_fg_view h⟩
    by_cases hi : name_in name EM_TAGS = true
    · rw [if_neg hb, if_pos hi] at h
      exact ⟨_, PAGE_BLOCK, push_fg_view h⟩
    by_cases hc : name_in name CODE_TAGS = true
    · rw [if_neg hb, if_neg hi, if_pos hc] at h
      exact ⟨_, PAGE_BLOCK, push_fg_view h⟩
    rw [if_neg hb, if_neg hi, if_neg hc, if_pos (((htext.resolve_left hb).resolve_left hi).resolve_left hc)] at h
    exact ⟨_, PAGE_BLOCK, push_fg_view h⟩
  simp only [if_neg htext]
  rw [hinline, not_or, not_or, not_or] at htext
  rw [if_neg htext.1, if_neg htext.2.1, if_neg htext.2.2.1, if_neg htext.2.2.2] at h
  by_cases hlink : name_is name (ascii "a") = true
  · rw [if_pos hlink] at h
    simp only [if_pos hlink]
    obtain ⟨dangerous, rgb, hdangerous, hview⟩ := open_link_view h
    refine ⟨rgb, PAGE_BLOCK, ?_⟩
    rw [hdangerous]
    exact hview
  rw [if_neg hlink] at h
  simp only [if_neg hlink]
  by_cases hblock : name_in name OPENING_BLOCKS = true
  · rw [if_pos hblock] at h
    simp only [if_pos hblock]
    obtain ⟨block, hview⟩ := open_block_view h
    exact ⟨doc.cur_fg, block, hview⟩
  rw [if_neg hblock] at h
  simp only [if_neg hblock]
  refine ⟨doc.cur_fg, PAGE_BLOCK, ?_⟩
  by_cases hitem : name_is name (ascii "li") = true
  · rw [if_pos hitem] at h
    exact wrote_view (open_item_wrote 0 h)
  · rw [if_neg hitem] at h
    rw [Option.some.inj h]

end View

end EveOS.Html
