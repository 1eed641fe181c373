/-
The style part of `kernel/src/html.rs`: colours, numbers, declarations, rules.

Cursors (`i: &mut usize` in the source) are passed and returned, also on the
paths that fail: what a failed attempt has read stays read. A function that
indexes or slices without a check of its own returns an `Option`, with `none` for
a panic. Arrays that are filled from the front (`rules`, the `name` of a rule)
are the lists of their filled parts.
-/
import EveOS.Lib.Returns
import EveOS.Lib.Scan

set_option autoImplicit false

namespace EveOS.Html

abbrev Rgb := UInt8 × UInt8 × UInt8

def BROWSER_LINE_CAP : Nat := 96
def BROWSER_MAX_LINES : Nat := 128

/-! ## Text without regard to case -/

def to_lower : UInt8 → UInt8 := lowerAscii

def starts_ci (s : Bytes) (i : Nat) (pat : Bytes) : Bool :=
  i + pat.length ≤ s.length && ((s.drop i).take pat.length).map to_lower == pat

def find_sub_ci (hay needle : Bytes) : Option Nat :=
  if needle = [] ∨ hay.length < needle.length then none
  else (List.range (hay.length - needle.length + 1)).find? fun start => starts_ci hay start needle

/-- `b' ' | b'\t' | b'\n' | b'\r'`. -/
def is_ws (c : UInt8) : Bool := c == 32 || c == 9 || c == 10 || c == 13

def is_digit (c : UInt8) : Bool := 48 ≤ c && c ≤ 57

def is_alpha (c : UInt8) : Bool := 97 ≤ c && c ≤ 122 || 65 ≤ c && c ≤ 90

def is_alnum (c : UInt8) : Bool := is_alpha c || is_digit c

/-- The bytes of a class name, an id and an attribute name. -/
def is_name_byte (c : UInt8) : Bool := is_alnum c || c == 45 || c == 95

def skip_ws (s : Bytes) (i : Nat) : Nat := scan is_ws s i

/-! ## Colours -/

def hex_val (c : UInt8) : Option UInt8 :=
  if 48 ≤ c ∧ c ≤ 57 then some (c - 48)
  else if 97 ≤ c ∧ c ≤ 102 then some (c - 97 + 10)
  else if 65 ≤ c ∧ c ≤ 70 then some (c - 65 + 10)
  else none

/-- `hex_val(s[k])? * 16 + hex_val(s[k + 1])?`. -/
def hex_byte (s : Bytes) (k : Nat) : Option (Option UInt8) := do
  let hi ← s[k]?
  let lo ← s[k + 1]?
  return (hex_val hi).bind fun h => (hex_val lo).map fun l => h * 16 + l

/-- `hex_val(s[k])? * 17`. -/
def hex_digit (s : Bytes) (k : Nat) : Option (Option UInt8) := do
  let c ← s[k]?
  return (hex_val c).map (· * 17)

/-- Three components, if there are three. -/
def rgb_of (r g b : Option UInt8) : Option Rgb :=
  r.bind fun r => g.bind fun g => b.map fun b => (r, g, b)

def parse_hex_color (s : Bytes) (i : Nat) : Option (Option Rgb × Nat) :=
  if s[i]? ≠ some 35 then some (none, i)
  else
    let start := i + 1
    let i := scan (fun c => (hex_val c).isSome) s start
    let n := i - start
    if n = 6 then do
      let r ← hex_byte s start
      let g ← hex_byte s (start + 2)
      let b ← hex_byte s (start + 4)
      return (rgb_of r g b, i)
    else if n = 3 then do
      let r ← hex_digit s start
      let g ← hex_digit s (start + 1)
      let b ← hex_digit s (start + 2)
      return (rgb_of r g b, i)
    else some (none, i)

/-- `NAMES` of `parse_named_color`. -/
def NAMED_COLORS : List (Bytes × Rgb) :=
  [(ascii "red", (0xcc, 0x22, 0x22)), (ascii "blue", (0x22, 0x44, 0xcc)),
    (ascii "green", (0x22, 0x88, 0x33)), (ascii "black", (0x11, 0x11, 0x11)),
    (ascii "white", (0xf0, 0xf0, 0xf0)), (ascii "gray", (0x66, 0x66, 0x66)),
    (ascii "grey", (0x66, 0x66, 0x66)), (ascii "purple", (0x66, 0x22, 0xaa)),
    (ascii "orange", (0xee, 0x66, 0x22)), (ascii "navy", (0x00, 0x00, 0x80)),
    (ascii "teal", (0x00, 0x80, 0x80)), (ascii "aqua", (0x00, 0xff, 0xff)),
    (ascii "cyan", (0x00, 0xcc, 0xee)), (ascii "magenta", (0xcc, 0x00, 0xcc)),
    (ascii "lime", (0x66, 0xdd, 0x22)), (ascii "olive", (0x80, 0x80, 0x00)),
    (ascii "maroon", (0x80, 0x00, 0x00)), (ascii "silver", (0xc0, 0xc0, 0xc0)),
    (ascii "gold", (0xff, 0xd7, 0x00)), (ascii "coral", (0xff, 0x7f, 0x50))]

/-- The first name that stands here as a word of its own. -/
def parse_named_color (s : Bytes) (i : Nat) : Option Rgb × Nat :=
  match NAMED_COLORS.find? fun (name, _) =>
      starts_ci s i name && (s[i + name.length]?).all (fun c => !is_alnum c) with
  | none => (none, i)
  | some (name, rgb) => (some rgb, i + name.length)

/-- Decimal digits as a `u16`, saturating. -/
def digits_value (ds : Bytes) : Nat :=
  ds.foldl (fun v c => min (min (v * 10) 65535 + (c - 48).toNat) 65535) 0

/-- A digit loop with its `any` flag. -/
def css_digits (s : Bytes) (i : Nat) : Option Nat × Nat :=
  let ds := (s.drop i).takeWhile is_digit
  (if ds = [] then none else some (digits_value ds), scan is_digit s i)

/-- One component of `rgb(..)` with the spaces around it, and what follows it.
Without digits the parse fails. -/
def rgb_component (s : Bytes) (i : Nat) (next : Nat → Nat → Option Rgb × Nat) : Option Rgb × Nat :=
  match css_digits s (skip_ws s i) with
  | (none, i) => (none, i)
  | (some v, i) => next v (skip_ws s i)

/-- The comma behind a component, and what follows it. -/
def rgb_comma (s : Bytes) (i : Nat) (next : Nat → Option Rgb × Nat) : Option Rgb × Nat :=
  if s[i]? = some 44 then next (i + 1) else (none, i)

/-- The alpha value, if there may be one, and the closing parenthesis. -/
def rgb_end (s : Bytes) (i : Nat) (rgba : Bool) : Nat :=
  let i := if rgba ∧ s[i]? = some 44 then scan (· != 41) s (i + 1) else i
  if s[i]? = some 41 then i + 1 else i

/-- `v.min(255) as u8`. -/
def clip8 (v : Nat) : UInt8 := UInt8.ofNat (min v 255)

/-- For `rgba(` the cursor moves on by 6, one more than the pattern has. -/
def parse_rgb_rgba (s : Bytes) (i : Nat) : Option Rgb × Nat :=
  let rgba := starts_ci s i (ascii "rgba(")
  if !rgba && !starts_ci s i (ascii "rgb(") then (none, i)
  else
    rgb_component s (i + if rgba then 6 else 4) fun r i =>
      rgb_comma s i fun i =>
        rgb_component s i fun g i =>
          rgb_comma s i fun i =>
            rgb_component s i fun b i => (some (clip8 r, clip8 g, clip8 b), rgb_end s i rgba)

def parse_color_after_colon (s : Bytes) (i : Nat) : Option (Option Rgb × Nat) :=
  match parse_rgb_rgba s (skip_ws s i) with
  | (some rgb, i) => some (some rgb, i)
  | (none, i) => if s[i]? = some 35 then parse_hex_color s i else some (parse_named_color s i)

structure CssHints where
  body : Rgb
  h1 : Rgb
  h2 : Rgb
  link : Rgb
  has_body : Bool
  has_h1 : Bool
  has_h2 : Bool
  deriving DecidableEq

/-- What a colour found in the window is for. -/
def CssHints.set (hints : CssHints) (win : Bytes) (rgb : Rgb) : CssHints :=
  if (find_sub_ci win (ascii "h1")).isSome then { hints with h1 := rgb, has_h1 := true }
  else if (find_sub_ci win (ascii "h2")).isSome then { hints with h2 := rgb, has_h2 := true }
  else if (find_sub_ci win (ascii "body")).isSome then { hints with body := rgb, has_body := true }
  else if (find_sub_ci win (ascii "a")).isSome || (find_sub_ci win (ascii "a ")).isSome then
    { hints with link := rgb }
  else hints

/-- One round of `scan_style_for_colors`. -/
def style_colors_round (css : Bytes) : Nat × CssHints → Option ((Nat × CssHints) ⊕ CssHints)
  | (i, hints) =>
    if css.length ≤ i then some (.inr hints)
    else do
      let win ← slice? css i (min (i + 192) css.length)
      match find_sub_ci win (ascii "color") with
      | none => return .inl (i + 32, hints)
      | some ci =>
        let j := skip_ws css (i + ci + 5)
        if css[j]? ≠ some 58 then return .inl (i + 32, hints)
        else
          match ← parse_color_after_colon css (j + 1) with
          | (none, _) => return .inl (i + 32, hints)
          | (some rgb, _) => return .inl (i + 32, hints.set win rgb)

def scan_style_for_colors (css : Bytes) (hints : CssHints) : Option CssHints :=
  loop (style_colors_round css) (css.length + 1) (0, hints)

/-! ## Declarations -/

inductive CssUnit
  | px
  | ch
  | percent
  | none
  deriving DecidableEq, Repr

def parse_css_number_unit (s : Bytes) (i : Nat) : Option (Nat × CssUnit) × Nat :=
  match css_digits s (skip_ws s i) with
  | (.none, i) => (.none, i)
  | (some v, i) =>
    if starts_ci s i (ascii "px") then (some (v, .px), i + 2)
    else if starts_ci s i (ascii "ch") then (some (v, .ch), i + 2)
    else if s[i]? = some 37 then (some (v, .percent), i + 1)
    else (some (v, .none), i)

def px_to_spaces (px : Nat) : Nat :=
  if 64 ≤ px then 8 else if 48 ≤ px then 6 else if 32 ≤ px then 4 else if 16 ≤ px then 2 else 0

def px_to_blank_lines (px : Nat) : Nat := if 40 ≤ px then 2 else if 16 ≤ px then 1 else 0

inductive DisplayHint
  | Inherit
  | Block
  | Inline
  | None
  deriving DecidableEq, Repr

structure BoxStyle where
  color : Option Rgb
  display : DisplayHint
  margin_left : Nat
  padding_left : Nat
  margin_top : Nat
  margin_bottom : Nat
  padding_top : Nat
  padding_bottom : Nat
  width_chars : Option Nat
  deriving DecidableEq

def BoxStyle.empty : BoxStyle := ⟨none, .Inherit, 0, 0, 0, 0, 0, 0, none⟩

/-- The value of `display`, when it is one of the three words. -/
def display_value (style : Bytes) (i : Nat) (out : BoxStyle) : BoxStyle × Nat :=
  if starts_ci style i (ascii "none") then ({ out with display := .None }, i + 4)
  else if starts_ci style i (ascii "block") then ({ out with display := .Block }, i + 5)
  else if starts_ci style i (ascii "inline") then ({ out with display := .Inline }, i + 6)
  else (out, i)

/-- A value that is a number: `set` says what becomes of it. -/
def number_value (style : Bytes) (i : Nat) (out : BoxStyle) (set : Nat → CssUnit → BoxStyle) :
    BoxStyle × Nat :=
  match parse_css_number_unit style i with
  | (none, i) => (out, i)
  | (some (v, unit), i) => (set v unit, i)

/-- The width in characters, with the arithmetic of a `u16`. -/
def width_value (line_cap v : Nat) (unit : CssUnit) : Nat :=
  let w :=
    match unit with
    | .ch => v
    | .percent => max (min (line_cap * v) 65535 / 100) 8
    | _ => max (v / 6) 8
  min w BROWSER_LINE_CAP

/-- The `if` chain over the key of a declaration; `i` is at its value. -/
def box_property (style : Bytes) (line_cap : Nat) (key : Bytes) (i : Nat) (out : BoxStyle) :
    Option (BoxStyle × Nat) :=
  if key.length = 5 ∧ starts_ci key 0 (ascii "color") then do
    let (color, i) ← parse_color_after_colon style i
    return ({ out with color := color }, i)
  else if key.length = 7 ∧ starts_ci key 0 (ascii "display") then some (display_value style i out)
  else if starts_ci key 0 (ascii "margin-left") then
    some (number_value style i out fun v _ => { out with margin_left := px_to_spaces v })
  else if starts_ci key 0 (ascii "padding-left") then
    some (number_value style i out fun v _ => { out with padding_left := px_to_spaces v })
  else if starts_ci key 0 (ascii "margin-top") then
    some (number_value style i out fun v _ => { out with margin_top := px_to_blank_lines v })
  else if starts_ci key 0 (ascii "margin-bottom") then
    some (number_value style i out fun v _ => { out with margin_bottom := px_to_blank_lines v })
  else if starts_ci key 0 (ascii "padding-top") then
    some (number_value style i out fun v _ => { out with padding_top := px_to_blank_lines v })
  else if starts_ci key 0 (ascii "padding-bottom") then
    some (number_value style i out fun v _ => { out with padding_bottom := px_to_blank_lines v })
  else if key.length = 5 ∧ starts_ci key 0 (ascii "width") then
    some (number_value style i out fun v unit =>
      { out with width_chars := some (width_value line_cap v unit) })
  else some (out, i)

/-- One round of `parse_inline_box_style`: one declaration. -/
def box_style_round (style : Bytes) (line_cap : Nat) :
    Nat × BoxStyle → Option ((Nat × BoxStyle) ⊕ BoxStyle)
  | (i, out) =>
    if style.length ≤ i then some (.inr out)
    else do
      let key_start := skip_ws style i
      let i := scan (fun c => is_alpha c || c == 45) style key_start
      let key ← slice? style key_start i
      let i := skip_ws style i
      if style[i]? ≠ some 58 then return .inl (scan (· != 59) style i + 1, out)
      else
        let (out, i) ← box_property style line_cap key (skip_ws style (i + 1)) out
        return .inl (scan (· != 59) style i + 1, out)

def parse_inline_box_style (style : Bytes) (line_cap : Nat) : Option BoxStyle :=
  loop (box_style_round style line_cap) (style.length + 1) (0, .empty)

/-! ## Rules -/

inductive SelectorKind
  | Tag
  | Class
  | Id
  deriving DecidableEq, Repr

structure StyleRule where
  kind : SelectorKind
  name : Bytes
  style : BoxStyle
  deriving DecidableEq

/-- The length of the `style_rules` array. -/
def STYLE_RULES_CAP : Nat := 32

/-- The length of the `name` of a rule. -/
def RULE_NAME_CAP : Nat := 24

/-- `copy_name_lower` into an array of `cap` bytes. -/
def copy_name_lower (cap : Nat) (src : Bytes) : Bytes := (src.take cap).map to_lower

/-- The second half of a round of `scan_style_rules`: the rule of a selector and
its declarations, if the selector has a name. -/
def style_rule (selector decl : Bytes) (line_cap : Nat) : Option (Option StyleRule) :=
  let sel_i := skip_ws selector 0
  if selector.length ≤ sel_i then some none
  else do
    let c ← selector[sel_i]?
    let kind : SelectorKind := if c = 46 then .Class else if c = 35 then .Id else .Tag
    let name_start := if kind = .Tag then sel_i else sel_i + 1
    let name ← slice? selector name_start (scan is_name_byte selector name_start)
    if name = [] then return none
    else
      let style ← parse_inline_box_style decl line_cap
      return some { kind := kind, name := copy_name_lower RULE_NAME_CAP name, style := style }

/-- One round of `scan_style_rules`. -/
def style_rules_round (css : Bytes) (line_cap : Nat) :
    Nat × List StyleRule → Option ((Nat × List StyleRule) ⊕ List StyleRule)
  | (i, rules) =>
    if css.length ≤ i ∨ STYLE_RULES_CAP ≤ rules.length then some (.inr rules)
    else
      let selector_start := skip_ws css i
      if css.length ≤ selector_start then some (.inr rules)
      else
        let i := scan (· != 123) css selector_start
        if css.length ≤ i then some (.inr rules)
        else do
          let selector ← slice? css selector_start i
          let decl_start := i + 1
          let i := scan (· != 125) css decl_start
          let decl ← slice? css decl_start (min i css.length)
          let i := if i < css.length then i + 1 else i
          match ← style_rule selector decl line_cap with
          | none => return .inl (i, rules)
          | some rule =>
            let rules ← push? STYLE_RULES_CAP rules rule
            return .inl (i, rules)

/-- `scan_style_rules` into an empty array of rules. -/
def scan_style_rules (css : Bytes) (line_cap : Nat) : Option (List StyleRule) :=
  loop (style_rules_round css line_cap) (css.length + 1) (0, [])

/-- `u8::is_ascii_whitespace`. -/
def is_ascii_whitespace (c : UInt8) : Bool := is_ws c || c == 12

/-- One round of `class_matches`: one class of the attribute. -/
def class_round (class_attr name : Bytes) : Nat → Option (Nat ⊕ Bool)
  | i =>
    if class_attr.length ≤ i then some (.inr false)
    else do
      let start := scan is_ascii_whitespace class_attr i
      let i := scan (fun c => !is_ascii_whitespace c) class_attr start
      let token ← slice? class_attr start i
      return if token.length = name.length ∧ token.map to_lower = name then .inr true else .inl i

def class_matches (class_attr name : Bytes) : Option Bool :=
  loop (class_round class_attr name) (class_attr.length + 1) 0

end EveOS.Html
