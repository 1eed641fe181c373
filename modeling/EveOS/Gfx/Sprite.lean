/-
Cursor sprites: `kernel/src/cursor_emoji.rs`.

A sprite has 16 lines of 16 pixels, four bytes each. It is drawn around the position of
its cursor, which has to be on the screen, and only where the screen is. The sprites
themselves are files; here they are whatever bytes one likes.
-/
import EveOS.Gfx.Framebuffer

set_option autoImplicit false

namespace EveOS.Gfx

def CUR_HALF : Int32 := 8
def SPRITE_STYLES : Nat := 8
def SPRITE : Int32 := 16
def CUR : Nat := 16

/-- `x as i32`. -/
def as_i32 (n : Nat) : Int32 := Int32.ofNat n

/-- `x as usize`. -/
def as_usize (x : Int32) : Nat := (x.toInt % 2 ^ 64).toNat

def read_rgb (buf : Bytes) (info : FrameBufferInfo) (x y : Nat) : Option (Option (UInt8 × UInt8 × UInt8)) :=
  if info.width ≤ x ∨ info.height ≤ y then some none
  else
    let bpp := info.bytes_per_pixel
    let i := info.at x y
    if buf.length < i + min bpp 3 then some none
    else
      match info.pixel_format with
      | .Rgb =>
        if 3 ≤ bpp then do return some (← buf[i]?, ← buf[i + 1]?, ← buf[i + 2]?)
        else some none
      | .Bgr =>
        if 3 ≤ bpp then do return some (← buf[i + 2]?, ← buf[i + 1]?, ← buf[i]?)
        else some none
      | .U8 => do return some (← buf[i]?, ← buf[i]?, ← buf[i]?)
      | .Unknown => some none

/-- The same as `pixel` of `gfx.rs`. -/
def write_rgb (buf : Bytes) (info : FrameBufferInfo) (x y : Nat) (r g b : UInt8) : Option Bytes :=
  pixel buf info x y r g b

def blend_channel (s d : UInt8) (sa : UInt16) : UInt8 :=
  ((s.toUInt16 * sa + d.toUInt16 * (255 - sa)) / 255).toUInt8

def blend_over (buf : Bytes) (info : FrameBufferInfo) (x y : Nat) (sr sg sb sa : UInt8) : Option Bytes :=
  if sa = 0 then some buf
  else if sa = 255 then write_rgb buf info x y sr sg sb
  else do
    match ← read_rgb buf info x y with
    | none => return buf
    | some (dr, dg, db) =>
      let sa16 := sa.toUInt16
      write_rgb buf info x y (blend_channel sr dr sa16) (blend_channel sg dg sa16) (blend_channel sb db sa16)

/-- The loop over the pixels `px..px + n` of line `py` of the sprite `data`. -/
def draw_line (info : FrameBufferInfo) (data : Bytes) (w h ox oy : Int32) (py : Nat) : Nat → Nat → Bytes → Option Bytes
  | _, 0, buf => some buf
  | px, n + 1, buf =>
    let o := (py * CUR + px) * 4
    if data.length < o + 4 then some buf
    else do
      let sr ← data[o]?
      let sg ← data[o + 1]?
      let sb ← data[o + 2]?
      let sa ← data[o + 3]?
      if sa = 0 then draw_line info data w h ox oy py (px + 1) n buf
      else
        let sx := ox + as_i32 px
        let sy := oy + as_i32 py
        if 0 ≤ sx ∧ 0 ≤ sy ∧ sx < w ∧ sy < h then do
          let buf ← blend_over buf info (as_usize sx) (as_usize sy) sr sg sb sa
          draw_line info data w h ox oy py (px + 1) n buf
        else draw_line info data w h ox oy py (px + 1) n buf

/-- `presets` are the sprites. -/
def draw_sprite (presets : Nat → Bytes) (buf : Bytes) (info : FrameBufferInfo) (cx cy : Int32) (preset : UInt8)
    (pointer_idx : Nat) : Option Bytes :=
  let w := as_i32 info.width
  let h := as_i32 info.height
  if cx < 0 ∨ cy < 0 ∨ w ≤ cx ∨ h ≤ cy then some buf
  else
    let style := (preset.toNat + pointer_idx) % SPRITE_STYLES
    let data := presets style
    let ox := cx - SPRITE / 2
    let oy := cy - SPRITE / 2
    (List.range CUR).foldlM (fun buf py => draw_line info data w h ox oy py 0 CUR buf) buf

/-! ## Where a sprite is drawn -/

/-- A cursor on the screen. -/
def OnScreen (info : FrameBufferInfo) (cx cy : Int32) : Prop :=
  (0 ≤ cx.toInt ∧ cx.toInt < info.width) ∧ 0 ≤ cy.toInt ∧ cy.toInt < info.height

/-- A byte of a pixel of the sprite of a cursor. -/
def Covers (info : FrameBufferInfo) (cx cy : Int32) (i : Nat) : Prop :=
  OnScreen info cx cy ∧ ∃ x y : Nat, (x < info.width ∧ cx.toInt - 8 ≤ x ∧ x < cx.toInt + 8) ∧
    (y < info.height ∧ cy.toInt - 8 ≤ y ∧ y < cy.toInt + 8) ∧ info.at x y ≤ i ∧ i < info.at x y + info.bytes_per_pixel

section Sprites

variable {info : FrameBufferInfo} {buf : Bytes}

theorem read_rgb_returns (hsound : info.Sound) (hbuf : info.Holds buf) (x y : Nat) :
    Returns (read_rgb buf info x y) fun _ => True := by
  have hgrey := hsound.grey
  unfold read_rgb
  by_cases hshown : info.width ≤ x ∨ info.height ≤ y
  · rw [if_pos hshown]
    exact .ret trivial
  have hplace := place_le hsound hbuf (x := x) (y := y) (by omega) (by omega)
  have hget : ∀ k, k < info.bytes_per_pixel → Returns buf[info.at x y + k]? fun _ => True :=
    fun k hk => (getElem?_returns (by omega)).mono fun _ _ => trivial
  rw [if_neg hshown]
  dsimp only
  rw [if_neg (by omega)]
  cases hformat : info.pixel_format with
  | Rgb =>
    dsimp only
    split_ifs with hthree
    · refine (hget 0 (by omega)).bind fun r _ => ?_
      refine (hget 1 (by omega)).bind fun g _ => ?_
      exact (hget 2 (by omega)).bind fun b _ => .ret trivial
    · exact .ret trivial
  | Bgr =>
    dsimp only
    split_ifs with hthree
    · refine (hget 2 (by omega)).bind fun r _ => ?_
      refine (hget 1 (by omega)).bind fun g _ => ?_
      exact (hget 0 (by omega)).bind fun b _ => .ret trivial
    · exact .ret trivial
  | U8 =>
    have hone := hgrey hformat
    refine (hget 0 (by omega)).bind fun r _ => ?_
    refine (hget 0 (by omega)).bind fun g _ => ?_
    exact (hget 0 (by omega)).bind fun b _ => .ret trivial
  | Unknown => exact .ret trivial

/-- A pixel of a sprite changes at most its place. -/
theorem blend_over_returns (hsound : info.Sound) (hbuf : info.Holds buf) (x y : Nat) (sr sg sb sa : UInt8) :
    Returns (blend_over buf info x y sr sg sb sa) fun out => out.length = buf.length ∧
      ∀ i, ¬ (x < info.width ∧ y < info.height ∧ info.at x y ≤ i ∧ i < info.at x y + info.bytes_per_pixel) →
        out[i]? = buf[i]? := by
  unfold blend_over write_rgb
  split_ifs
  · exact .ret ⟨rfl, fun _ _ => rfl⟩
  · exact pixel_returns hsound hbuf x y sr sg sb
  · refine (read_rgb_returns hsound hbuf x y).bind fun found _ => ?_
    cases found with
    | none => exact .ret ⟨rfl, fun _ _ => rfl⟩
    | some rgb => exact pixel_returns hsound hbuf x y _ _ _

theorem toInt_as_i32 {n : Nat} (h : n < 2 ^ 31) : (as_i32 n).toInt = n := Int32.toInt_ofNat_of_lt h

theorem as_usize_of_nonneg {z : Int32} (h : 0 ≤ z.toInt) : as_usize z = z.toInt.toNat := by
  have hz := z.toInt_lt
  unfold as_usize
  rw [Int.emod_eq_of_lt h (by omega)]

/-- What a sprite keeps: the length, and all bytes that it does not cover. -/
def Kept (info : FrameBufferInfo) (cx cy : Int32) (buf out : Bytes) : Prop :=
  out.length = buf.length ∧ ∀ i, ¬ Covers info cx cy i → out[i]? = buf[i]?

variable {cx cy : Int32} {data : Bytes} {py : Nat}

/-- The position of a pixel, where nothing overflows. -/
theorem toInt_pixel (hc : 0 ≤ cx.toInt) (hc' : cx.toInt + 9 < 2 ^ 31) {p : Nat} (hp : p < CUR) :
    (cx - SPRITE / 2 + as_i32 p).toInt = cx.toInt - 8 + p := by
  have height : (SPRITE / 2).toInt = 8 := rfl
  unfold CUR at hp
  have hsub : (cx.toInt - 8).bmod (2 ^ 32) = cx.toInt - 8 := Int.bmod_eq_of_le (by omega) (by omega)
  have hadd : (cx.toInt - 8 + p).bmod (2 ^ 32) = cx.toInt - 8 + p := Int.bmod_eq_of_le (by omega) (by omega)
  rw [Int32.toInt_add, Int32.toInt_sub, toInt_as_i32 (by omega), height, hsub, hadd]

/-- A line of a sprite. -/
theorem draw_line_returns (hsound : info.Sound) (hbuf : info.Holds buf) (hw : info.width < 2 ^ 31)
    (hh : info.height < 2 ^ 31) (hscreen : OnScreen info cx cy) (hx : cx.toInt + 9 < 2 ^ 31)
    (hy : cy.toInt + 9 < 2 ^ 31) (hpy : py < CUR) {n px : Nat} (hpx : px + n ≤ CUR) {out : Bytes}
    (hout : Kept info cx cy buf out) :
    Returns (draw_line info data (as_i32 info.width) (as_i32 info.height) (cx - SPRITE / 2) (cy - SPRITE / 2) py px n out)
      (Kept info cx cy buf) := by
  induction n generalizing px out with
  | zero => exact .ret hout
  | succ n ih =>
    unfold draw_line
    dsimp only
    by_cases hdata : data.length < (py * CUR + px) * 4 + 4
    · rw [if_pos hdata]
      exact .ret hout
    rw [if_neg hdata]
    refine (getElem?_returns (by omega)).bind fun sr _ => ?_
    refine (getElem?_returns (by omega)).bind fun sg _ => ?_
    refine (getElem?_returns (by omega)).bind fun sb _ => ?_
    refine (getElem?_returns (by omega)).bind fun sa _ => ?_
    split_ifs with hclear hshown
    · exact ih (by omega) hout
    · -- the pixel is shown, and so it is one that the sprite covers
      have hsx := toInt_pixel hscreen.1.1 hx (p := px) (by omega)
      have hsy := toInt_pixel hscreen.2.1 hy hpy
      simp only [Int32.le_iff_toInt_le, Int32.lt_iff_toInt_lt, toInt_as_i32 hw, toInt_as_i32 hh, hsx, hsy,
        Int32.toInt_zero] at hshown
      rw [as_usize_of_nonneg (by omega), as_usize_of_nonneg (by omega), hsx, hsy]
      refine (blend_over_returns hsound (hbuf.of_length hout.1) _ _ sr sg sb sa).bind fun out' h => ?_
      refine ih (by omega) ⟨h.1.trans hout.1, fun i hi => ?_⟩
      rw [h.2 i, hout.2 i hi]
      rintro ⟨hwidth, hheight, hin⟩
      unfold CUR at hpx hpy
      exact hi ⟨hscreen, _, _, ⟨hwidth, by omega, by omega⟩, ⟨hheight, by omega, by omega⟩, hin⟩
    · exact ih (by omega) hout

/-- **A sprite stays where its cursor is.** -/
theorem draw_sprite_returns (hsound : info.Sound) (hbuf : info.Holds buf) (hw : info.width < 2 ^ 31)
    (hh : info.height < 2 ^ 31) (hx : cx.toInt + 9 < 2 ^ 31) (hy : cy.toInt + 9 < 2 ^ 31) (presets : Nat → Bytes)
    (preset : UInt8) (pointer_idx : Nat) :
    Returns (draw_sprite presets buf info cx cy preset pointer_idx) (Kept info cx cy buf) := by
  have hkept : Kept info cx cy buf buf := ⟨rfl, fun _ _ => rfl⟩
  unfold draw_sprite
  dsimp only
  split_ifs with hoff
  · exact .ret hkept
  · have hscreen : OnScreen info cx cy := by
      simp only [Int32.le_iff_toInt_le, Int32.lt_iff_toInt_lt, toInt_as_i32 hw, toInt_as_i32 hh, Int32.toInt_zero,
        not_or, not_lt, not_le] at hoff
      exact ⟨⟨hoff.1, hoff.2.2.1⟩, hoff.2.1, hoff.2.2.2⟩
    refine Returns.foldlM_mem (fun out py hpy hout => ?_) hkept
    exact draw_line_returns hsound hbuf hw hh hscreen hx hy (List.mem_range.mp hpy) (by omega) hout

end Sprites

end EveOS.Gfx
