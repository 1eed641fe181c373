/-
The framebuffer: `kernel/src/fb_info.rs`, and `pixel` of `kernel/src/gfx.rs`.

A line of the screen has `stride` pixels, of which `width` are shown. A pixel is the
first three bytes of its place, and a fourth one if there is room, or one byte where
the screen is grey.
-/
import EveOS.Lib.Buffer
import EveOS.Lib.Bytes

set_option autoImplicit false

namespace EveOS.Gfx

/-- The positions of the channels of an `Unknown` format are not read. -/
inductive PixelFormat
  | Rgb
  | Bgr
  | U8
  | Unknown
deriving DecidableEq

structure FrameBufferInfo where
  width : Nat
  height : Nat
  stride : Nat
  pixel_format : PixelFormat
  bytes_per_pixel : Nat

def pixel_format_no_writes (fmt : PixelFormat) : Bool := fmt = .Unknown

/-- `buf[i] = v`. -/
def set? (buf : Bytes) (i : Nat) (v : UInt8) : Option Bytes := write? buf i [v]

/-- `((r as u16 + g as u16 + b as u16) / 3) as u8`. -/
def grey (r g b : UInt8) : UInt8 := ((r.toUInt16 + g.toUInt16 + b.toUInt16) / 3).toUInt8

/-- Where a pixel begins. -/
def FrameBufferInfo.at (info : FrameBufferInfo) (x y : Nat) : Nat :=
  y * info.stride * info.bytes_per_pixel + x * info.bytes_per_pixel

def pixel (buf : Bytes) (info : FrameBufferInfo) (x y : Nat) (r g b : UInt8) : Option Bytes :=
  if info.width ≤ x ∨ info.height ≤ y then some buf
  else
    let bpp := info.bytes_per_pixel
    let i := info.at x y
    if buf.length < i + bpp then some buf
    else
      match info.pixel_format with
      | .Rgb => do
        let buf ← set? buf i r
        let buf ← set? buf (i + 1) g
        let buf ← set? buf (i + 2) b
        if 4 ≤ bpp then set? buf (i + 3) 0xff else return buf
      | .Bgr => do
        let buf ← set? buf i b
        let buf ← set? buf (i + 1) g
        let buf ← set? buf (i + 2) r
        if 4 ≤ bpp then set? buf (i + 3) 0xff else return buf
      | .U8 => set? buf i (grey r g b)
      | .Unknown => some buf

/-! ## Screens -/

/-- A description that can be drawn with. -/
structure FrameBufferInfo.Sound (info : FrameBufferInfo) : Prop where
  stride : info.width ≤ info.stride
  colour : info.pixel_format = .Rgb ∨ info.pixel_format = .Bgr → 3 ≤ info.bytes_per_pixel
  grey : info.pixel_format = .U8 → 1 ≤ info.bytes_per_pixel

/-- A buffer for it. The length of a slice is a `usize`. -/
structure FrameBufferInfo.Holds (info : FrameBufferInfo) (buf : Bytes) : Prop where
  room : info.stride * info.height * info.bytes_per_pixel ≤ buf.length
  addressable : buf.length < 2 ^ 64

/-- The bytes that are written for a pixel. -/
def FrameBufferInfo.pattern (info : FrameBufferInfo) (r g b : UInt8) : Bytes :=
  match info.pixel_format with
  | .Rgb => [r, g, b] ++ if 4 ≤ info.bytes_per_pixel then [0xff] else []
  | .Bgr => [b, g, r] ++ if 4 ≤ info.bytes_per_pixel then [0xff] else []
  | .U8 => [grey r g b]
  | .Unknown => []

variable {info : FrameBufferInfo} {buf : Bytes} {x y : Nat} {r g b : UInt8}

/-- They fit into its place. -/
theorem pattern_length_le (h : info.Sound) : (info.pattern r g b).length ≤ info.bytes_per_pixel := by
  have hcolour := h.colour
  have hgrey := h.grey
  unfold FrameBufferInfo.pattern
  cases hformat : info.pixel_format with
  | Rgb =>
    have hthree := hcolour (.inl hformat)
    dsimp only
    split_ifs with hfour <;> simp <;> omega
  | Bgr =>
    have hthree := hcolour (.inr hformat)
    dsimp only
    split_ifs with hfour <;> simp <;> omega
  | U8 => exact hgrey hformat
  | Unknown => exact Nat.zero_le _

/-- The places of the pixels of a line, one behind the other. -/
theorem at_add (info : FrameBufferInfo) (x n y : Nat) : info.at (x + n) y = info.at x y + n * info.bytes_per_pixel := by
  unfold FrameBufferInfo.at
  ring

/-- A line of pixels is inside the buffer. -/
theorem at_le (hsound : info.Sound) (hbuf : info.Holds buf) (hx : x ≤ info.width) (hy : y < info.height) :
    info.at x y ≤ buf.length := by
  have hroom := hbuf.room
  have hline : y * info.stride + x ≤ info.stride * info.height := by
    have hlines : (y + 1) * info.stride ≤ info.height * info.stride := Nat.mul_le_mul_right _ hy
    have hstride := hsound.stride
    rw [Nat.add_mul, Nat.one_mul] at hlines
    rw [Nat.mul_comm info.stride]
    omega
  calc info.at x y = (y * info.stride + x) * info.bytes_per_pixel := by
        unfold FrameBufferInfo.at
        ring
    _ ≤ info.stride * info.height * info.bytes_per_pixel := Nat.mul_le_mul_right _ hline
    _ ≤ buf.length := hroom

/-- So is the place of a pixel. -/
theorem place_le (hsound : info.Sound) (hbuf : info.Holds buf) (hx : x < info.width) (hy : y < info.height) :
    info.at x y + info.bytes_per_pixel ≤ buf.length := by
  have hnext := at_le hsound hbuf (x := x + 1) hx hy
  rwa [at_add, Nat.one_mul] at hnext

/-- Three bytes in turn are one write. -/
theorem set_three (buf : Bytes) (i : Nat) (c₀ c₁ c₂ : UInt8) :
    (do
      let buf ← set? buf i c₀
      let buf ← set? buf (i + 1) c₁
      set? buf (i + 2) c₂) = write? buf i [c₀, c₁, c₂] := by
  have hsplit : [c₀, c₁, c₂] = [c₀] ++ ([c₁] ++ [c₂]) := rfl
  rw [hsplit, write?_append]
  refine congrArg _ (funext fun buf => ?_)
  rw [write?_append]
  rfl

/-- What `pixel` does with three channels, and with four. -/
theorem set_channels (buf : Bytes) (i bpp : Nat) (c₀ c₁ c₂ : UInt8) :
    (do
      let buf ← set? buf i c₀
      let buf ← set? buf (i + 1) c₁
      let buf ← set? buf (i + 2) c₂
      if 4 ≤ bpp then set? buf (i + 3) 0xff else return buf) =
      write? buf i ([c₀, c₁, c₂] ++ if 4 ≤ bpp then [0xff] else []) := by
  split_ifs
  · rw [write?_append, ← set_three]
    simp only [Option.bind_eq_bind, Option.bind_assoc]
    rfl
  · rw [List.append_nil, ← set_three]
    simp only [bind_pure]

/-- **What `pixel` does on the screen**: it writes the bytes of the pixel. -/
theorem pixel_eq (hsound : info.Sound) (hbuf : info.Holds buf) (hx : x < info.width) (hy : y < info.height) :
    pixel buf info x y r g b = write? buf (info.at x y) (info.pattern r g b) := by
  have hplace := place_le hsound hbuf hx hy
  unfold pixel FrameBufferInfo.pattern
  rw [if_neg (by omega)]
  dsimp only
  rw [if_neg (by omega)]
  cases info.pixel_format with
  | Rgb => exact set_channels buf _ _ r g b
  | Bgr => exact set_channels buf _ _ b g r
  | U8 => rfl
  | Unknown => rw [write?_nil (by omega)]

/-- A pixel changes at most the bytes of its place, and a pixel that is not shown none. -/
theorem pixel_returns (hsound : info.Sound) (hbuf : info.Holds buf) (x y : Nat) (r g b : UInt8) :
    Returns (pixel buf info x y r g b) fun out => out.length = buf.length ∧
      ∀ i, ¬ (x < info.width ∧ y < info.height ∧ info.at x y ≤ i ∧ i < info.at x y + info.bytes_per_pixel) →
        out[i]? = buf[i]? := by
  by_cases hshown : x < info.width ∧ y < info.height
  · rw [pixel_eq hsound hbuf hshown.1 hshown.2]
    have hplace := place_le hsound hbuf hshown.1 hshown.2
    have hpattern : (info.pattern r g b).length ≤ info.bytes_per_pixel := pattern_length_le hsound
    obtain ⟨out, hout, hlen⟩ : Returns (write? buf (info.at x y) (info.pattern r g b)) _ := write?_returns (by omega)
    refine ⟨out, hout, hlen, ?_⟩
    intro i hi
    rw [getElem?_write hout, if_neg]
    exact fun hin => hi ⟨hshown.1, hshown.2, hin.1, by omega⟩
  · unfold pixel
    rw [if_pos (by omega)]
    exact ⟨buf, rfl, rfl, fun _ _ => rfl⟩

theorem FrameBufferInfo.Holds.of_length {out : Bytes} (h : info.Holds buf) (hlen : out.length = buf.length) :
    info.Holds out := ⟨by rw [hlen]; exact h.room, by rw [hlen]; exact h.addressable⟩

end EveOS.Gfx
