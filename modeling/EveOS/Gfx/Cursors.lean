/-
Cursors over the user interface: `CursorEngine` of `kernel/src/gfx.rs`.

Before the cursors are drawn, what is under them is saved, for each one a rectangle of
the screen. Before they move it is put back. All rectangles are saved before the first
cursor is drawn, so each of them has a part of the same image, and it does not matter
how they overlap. The image behind a restore is the one from before the cursors, since
a cursor is drawn inside its rectangle.

Sums of `i32` and `usize` wrap around, as they do in a release build. That matters for
a cursor at the far left of what an `i32` can say, whose rectangle comes out wrong.
-/
import EveOS.Gfx.Sprite
import EveOS.Lib.Run

set_option autoImplicit false

namespace EveOS.Gfx

def MAX_CURSORS : Nat := 12
def SLOT_BYTES : Nat := 22 * 22 * 4

/-! ## Rectangles -/

/-- `v.clamp(lo, hi)`, which asserts that `lo <= hi`. -/
def clamp? (v lo hi : Int32) : Option Int32 :=
  if hi < lo then none else some (if v < lo then lo else if hi < v then hi else v)

/-- `w.saturating_sub(1)`. -/
def pred_i32 (w : Int32) : Int32 := if w = Int32.minValue then w else w - 1

/-- A side of the rectangle around `c`: where it begins, and how long it is. -/
def clip_side (c : Int32) (size : Nat) : Option (Nat × Nat) := do
  let w := as_i32 size
  let x0 ← clamp? (c - CUR_HALF) 0 (pred_i32 w)
  let x1 ← clamp? (c + CUR_HALF + 1) 0 w
  return (as_usize x0, as_usize (x1 - x0))

def cursor_clip_rect (cx cy : Int32) (screen_w screen_h : Nat) : Option (Nat × Nat × Nat × Nat) := do
  let (x0, rw) ← clip_side cx screen_w
  let (y0, rh) ← clip_side cy screen_h
  return (x0, y0, rw, rh)

/-- A sum or a product of `usize`. -/
def wrap (n : Nat) : Nat := n % 2 ^ 64

/-- The rows from `row` on, behind what is saved so far; `dst` has `SLOT_BYTES`. -/
def save_rows (buf : Bytes) (info : FrameBufferInfo) (x0 y0 w : Nat) : Nat → Nat → Bytes → Option Bytes
  | _, 0, saved => some saved
  | row, n + 1, saved =>
    let y := y0 + row
    if info.height ≤ y then some saved
    else
      let base := info.at x0 y
      let row_bytes := wrap (w * info.bytes_per_pixel)
      if buf.length < wrap (base + row_bytes) ∨ SLOT_BYTES < wrap (saved.length + row_bytes) then some saved
      else do
        let bytes ← slice? buf base (wrap (base + row_bytes))
        save_rows buf info x0 y0 w (row + 1) n (saved ++ bytes)

/-- It returns what it writes into `dst`. -/
def blit_save_rect (buf : Bytes) (info : FrameBufferInfo) (x0 y0 w h : Nat) : Option Bytes :=
  if info.bytes_per_pixel = 0 ∨ w = 0 ∨ h = 0 then some [] else save_rows buf info x0 y0 w 0 h []

/-- The rows from `row` on, whose bytes begin at `o`. -/
def restore_rows (info : FrameBufferInfo) (x0 y0 w : Nat) (src : Bytes) : Nat → Nat → Nat → Bytes → Option Bytes
  | _, 0, _, buf => some buf
  | row, n + 1, o, buf =>
    let y := y0 + row
    if info.height ≤ y then some buf
    else
      let base := info.at x0 y
      let row_bytes := wrap (w * info.bytes_per_pixel)
      if buf.length < wrap (base + row_bytes) ∨ src.length < wrap (o + row_bytes) then some buf
      else do
        let bytes ← slice? src o (wrap (o + row_bytes))
        let buf ← write? buf base bytes
        restore_rows info x0 y0 w src (row + 1) n (o + row_bytes) buf

def blit_restore_rect (buf : Bytes) (info : FrameBufferInfo) (x0 y0 w h : Nat) (src : Bytes) : Option Bytes :=
  if info.bytes_per_pixel = 0 ∨ w = 0 ∨ h = 0 then some buf else restore_rows info x0 y0 w src 0 h 0 buf

/-! ## The engine -/

/-- What the engine has of a cursor. `saved` is the first `save_len` bytes of its part of
the array. -/
structure Slot where
  last_active : Bool
  sx : Nat
  sy : Nat
  sw : Nat
  sh : Nat
  saved : Bytes
  save_valid : Bool

abbrev CursorEngine : Type := Fin MAX_CURSORS → Slot

/-- What it reads of the state of the user interface. -/
structure Cursors where
  cursor_x : Fin MAX_CURSORS → Int32
  cursor_y : Fin MAX_CURSORS → Int32
  cursor_active : Fin MAX_CURSORS → Bool
  cursor_emoji_preset : UInt8

def Slot.restore_one (s : Slot) (buf : Bytes) (info : FrameBufferInfo) : Option (Slot × Bytes) :=
  if !s.save_valid || s.saved.length == 0 then some (s, buf)
  else do
    let buf ← blit_restore_rect buf info s.sx s.sy s.sw s.sh s.saved
    return ({ s with save_valid := false }, buf)

def Slot.save_one (s : Slot) (buf : Bytes) (info : FrameBufferInfo) (cx cy : Int32) : Option Slot := do
  let (x0, y0, rw, rh) ← cursor_clip_rect cx cy info.width info.height
  if rw = 0 ∨ rh = 0 then return { s with save_valid := false, saved := [] }
  else
    let saved ← blit_save_rect buf info x0 y0 rw rh
    return { s with sx := x0, sy := y0, sw := rw, sh := rh, saved := saved, save_valid := 0 < saved.length }

/-- A turn of the first loop of `patch_cursors_only`. -/
def CursorEngine.restore_one (eng : CursorEngine) (buf : Bytes) (info : FrameBufferInfo) (i : Fin MAX_CURSORS) :
    Option (CursorEngine × Bytes) :=
  if (eng i).last_active then do
    let (slot, buf) ← (eng i).restore_one buf info
    return (Function.update eng i slot, buf)
  else some (eng, buf)

/-- The first loop of `patch_cursors_only`: the highest index comes first. -/
def CursorEngine.restore_active (eng : CursorEngine) (buf : Bytes) (info : FrameBufferInfo) :
    Option (CursorEngine × Bytes) :=
  (List.finRange MAX_CURSORS).reverse.foldlM (fun s i => s.1.restore_one s.2 info i) (eng, buf)

/-- A turn of the loop that saves. -/
def CursorEngine.save_one (eng : CursorEngine) (buf : Bytes) (info : FrameBufferInfo) (state : Cursors)
    (i : Fin MAX_CURSORS) : Option CursorEngine :=
  if state.cursor_active i then do
    let slot ← (eng i).save_one buf info (state.cursor_x i) (state.cursor_y i)
    return Function.update eng i slot
  else some eng

def CursorEngine.save_active (eng : CursorEngine) (buf : Bytes) (info : FrameBufferInfo) (state : Cursors) :
    Option CursorEngine :=
  (List.finRange MAX_CURSORS).foldlM (fun eng i => eng.save_one buf info state i) eng

/-- It does not read the engine. -/
def draw_all_cursors (presets : Nat → Bytes) (buf : Bytes) (info : FrameBufferInfo) (state : Cursors) : Option Bytes :=
  (List.finRange MAX_CURSORS).foldlM
    (fun buf i =>
      if state.cursor_active i then
        draw_sprite presets buf info (state.cursor_x i) (state.cursor_y i) state.cursor_emoji_preset i
      else some buf) buf

/-- The last positions are for `any_cursor_moved`. -/
def CursorEngine.sync_last_from_state (eng : CursorEngine) (state : Cursors) : CursorEngine :=
  fun i => { eng i with last_active := state.cursor_active i }

def CursorEngine.prime_cursors (presets : Nat → Bytes) (eng : CursorEngine) (buf : Bytes) (info : FrameBufferInfo)
    (state : Cursors) : Option (CursorEngine × Bytes) := do
  let eng ← eng.save_active buf info state
  let buf ← draw_all_cursors presets buf info state
  return (eng.sync_last_from_state state, buf)

def CursorEngine.patch_cursors_only (presets : Nat → Bytes) (eng : CursorEngine) (buf : Bytes) (info : FrameBufferInfo)
    (state : Cursors) : Option (CursorEngine × Bytes) := do
  let (eng, buf) ← eng.restore_active buf info
  let eng ← eng.save_active buf info state
  let buf ← draw_all_cursors presets buf info state
  return (eng.sync_last_from_state state, buf)

end EveOS.Gfx
