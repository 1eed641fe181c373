/-
The lines of the browser view: `BrowserLine`, `flush_line` and the `emit_*`
functions of `kernel/src/html.rs`.

`HTML_RENDER_LINES` is written from the front, one entry each time `line_count`
grows, and never read while a document is rendered, so the model holds the lines
written so far. The `data` of a line is its filled part. What follows either is
whatever was there before.
-/
import EveOS.Html.Css

set_option autoImplicit false

namespace EveOS.Html

structure BrowserLine where
  data : Bytes
  r : UInt8
  g : UInt8
  b : UInt8
  deriving DecidableEq

def BrowserLine.new (fg : Rgb) : BrowserLine := ⟨[], fg.1, fg.2.1, fg.2.2⟩

def BrowserLine.len (l : BrowserLine) : Nat := l.data.length

/-- `self.data[self.len] = c; self.len += 1`. -/
def BrowserLine.push (l : BrowserLine) (c : UInt8) : Option BrowserLine := do
  let data ← push? BROWSER_LINE_CAP l.data c
  return { l with data := data }

/-- The lines, the line being written, and the truncation flag. -/
structure Screen where
  lines : List BrowserLine
  cur : BrowserLine
  html_truncated : Bool
  deriving DecidableEq

def Screen.line_count (s : Screen) : Nat := s.lines.length

/-- `cur.clear_with(fg)`. -/
def Screen.clear_with (s : Screen) (fg : Rgb) : Screen := { s with cur := .new fg }

/-- `cur.len = 0`. -/
def Screen.empty_cur (s : Screen) : Screen := { s with cur := { s.cur with data := [] } }

/-- `lines[*count] = line; *count += 1`. -/
def Screen.put_line (s : Screen) (line : BrowserLine) : Option Screen := do
  let lines ← push? BROWSER_MAX_LINES s.lines line
  return { s with lines := lines }

def Screen.flush_line (s : Screen) : Option Screen :=
  if BROWSER_MAX_LINES ≤ s.line_count then some { s with html_truncated := true }.empty_cur
  else do
    let s ← s.put_line s.cur
    return s.empty_cur

def Screen.emit_break (s : Screen) (blank_after : Bool) (fg : Rgb) : Option Screen := do
  let s ← (if 0 < s.cur.len then s.flush_line else some s)
  let s ← (if blank_after ∧ s.line_count < BROWSER_MAX_LINES then s.put_line (.new fg) else some s)
  return s.clear_with fg

/-- `flush_line` and `clear_with`: begin a new line. -/
def Screen.next_line (s : Screen) (fg : Rgb) : Option Screen := do
  let s ← s.flush_line
  return s.clear_with fg

/-- Write into the line. -/
def Screen.push (s : Screen) (c : UInt8) : Option Screen := do
  let cur ← s.cur.push c
  return { s with cur := cur }

def Screen.emit_char (s : Screen) (c : UInt8) (fg : Rgb) : Option Screen := do
  let s ← (if BROWSER_LINE_CAP ≤ s.cur.len then s.next_line fg else some s)
  if BROWSER_MAX_LINES ≤ s.line_count ∧ BROWSER_LINE_CAP ≤ s.cur.len then
    return { s with html_truncated := true }
  else if s.cur.len < BROWSER_LINE_CAP then s.push c
  else return s

/-- `cap.clamp(1, BROWSER_LINE_CAP)`. -/
def line_limit (cap : Nat) : Nat := max 1 (min cap BROWSER_LINE_CAP)

def Screen.emit_char_cap (s : Screen) (c : UInt8) (fg : Rgb) (cap : Nat) : Option Screen := do
  let limit := line_limit cap
  let s ← (if limit ≤ s.cur.len then s.next_line fg else some s)
  if s.cur.len < limit then s.push c else return s

/-- `n` times the same character. -/
def Screen.emit_chars_cap (s : Screen) (n : Nat) (c : UInt8) (fg : Rgb) (cap : Nat) : Option Screen :=
  (List.replicate n c).foldlM (fun s c => s.emit_char_cap c fg cap) s

/-- One round of the loop of `emit_slice_cap`, which makes room for the slice.
It ends with `false` when there is no line left. -/
def make_room_round (n limit : Nat) (fg : Rgb) : Screen → Option (Screen ⊕ Screen × Bool)
  | s =>
    if s.cur.len + n ≤ limit then some (.inr (s, true))
    else do
      let s ← s.next_line fg
      if BROWSER_MAX_LINES ≤ s.line_count then return .inr ({ s with html_truncated := true }, false)
      else return .inl s

/-- The loop ends after two rounds, since a new line is empty. -/
def Screen.make_room (s : Screen) (n limit : Nat) (fg : Rgb) : Option (Screen × Bool) :=
  loop (make_room_round n limit fg) (s.cur.len + 1) s

def Screen.emit_slice_cap (s : Screen) (slice : Bytes) (fg : Rgb) (cap : Nat) : Option Screen :=
  let limit := line_limit cap
  if slice = [] then some s
  else if BROWSER_LINE_CAP < slice.length ∨ limit < slice.length then
    some { s with html_truncated := true }
  else do
    let (s, room) ← s.make_room slice.length limit fg
    if !room then return s
    else if BROWSER_LINE_CAP < s.cur.len + slice.length then return { s with html_truncated := true }
    else slice.foldlM Screen.push s

end EveOS.Html
