/-
Fills: `fill_rect` and `clear` of `kernel/src/gfx.rs`.

For the common formats a fill writes whole rows, for others it calls `pixel`. A row is
the bytes of its pixels one behind the other, and a write of them is a write of one
pixel behind another. So a fill is a double loop of `pixel` whatever the format, and it
stays inside its rectangle because `pixel` stays inside its place.
-/
import EveOS.Gfx.Framebuffer

set_option autoImplicit false

namespace EveOS.Gfx

def saturating_mul (a b : Nat) : Nat := min (a * b) (2 ^ 64 - 1)

/-! ## Rows -/

/-- The first `n` chunks become `pat`. -/
def fill_chunks (pat : Bytes) : Nat → Bytes → Bytes
  | 0, row => row
  | n + 1, row => pat ++ fill_chunks pat n (row.drop pat.length)

/-- `for chunk in row.chunks_exact_mut(pat.len()) { chunk.copy_from_slice(&pat) }`. -/
def chunks (pat row : Bytes) : Bytes := fill_chunks pat (row.length / pat.length) row

/-- `row.fill(v)`. -/
def fill (v : UInt8) (row : Bytes) : Bytes := List.replicate row.length v

/-- The loop over `n` rows from `y` on, which ends at one that is not in the buffer. -/
def fill_rows (paint : Bytes → Bytes) (stride_b off line_b : Nat) : Nat → Nat → Bytes → Option Bytes
  | _, 0, buf => some buf
  | y, n + 1, buf =>
    let base := y * stride_b + off
    if buf.length < base + line_b then some buf
    else do
      let row ← slice? buf base (base + line_b)
      let buf ← write? buf base (paint row)
      fill_rows paint stride_b off line_b (y + 1) n buf

/-- `for y in y0..y1 { for x in x0..x1 { pixel(..) } }`. -/
def fill_pixels (buf : Bytes) (info : FrameBufferInfo) (x0 y0 x1 y1 : Nat) (r g b : UInt8) : Option Bytes :=
  (List.range' y0 (y1 - y0)).foldlM
    (fun buf y => (List.range' x0 (x1 - x0)).foldlM (fun buf x => pixel buf info x y r g b) buf) buf

/-- The match that both functions have. `clear` begins at 0, and its rows do too. -/
def fill_format (buf : Bytes) (info : FrameBufferInfo) (x0 y0 x1 y1 stride_b line_b : Nat) (r g b : UInt8) : Option Bytes :=
  match info.pixel_format, info.bytes_per_pixel with
  | .Bgr, 4 => fill_rows (chunks [b, g, r, 0xff]) stride_b (x0 * 4) line_b y0 (y1 - y0) buf
  | .Rgb, 4 => fill_rows (chunks [r, g, b, 0xff]) stride_b (x0 * 4) line_b y0 (y1 - y0) buf
  | .Bgr, 3 => fill_rows (chunks [b, g, r]) stride_b (x0 * 3) line_b y0 (y1 - y0) buf
  | .Rgb, 3 => fill_rows (chunks [r, g, b]) stride_b (x0 * 3) line_b y0 (y1 - y0) buf
  | .U8, 1 => fill_rows (fill (grey r g b)) stride_b x0 line_b y0 (y1 - y0) buf
  | _, _ => fill_pixels buf info x0 y0 x1 y1 r g b

def fill_rect (buf : Bytes) (info : FrameBufferInfo) (x0 y0 rw rh : Nat) (r g b : UInt8) : Option Bytes :=
  let x1 := min (x0 + rw) info.width
  let y1 := min (y0 + rh) info.height
  let y0c := min y0 info.height
  let x0c := min x0 info.width
  if x1 ≤ x0c ∨ y1 ≤ y0c then some buf
  else
    let bpp := info.bytes_per_pixel
    let stride := info.stride
    if bpp = 0 ∨ stride < info.width ∨ pixel_format_no_writes info.pixel_format = true then some buf
    else
      let stride_b := saturating_mul stride bpp
      let line_px := x1 - x0c
      let line_b := saturating_mul line_px bpp
      if line_b = 0 then some buf
      else fill_format buf info x0c y0c x1 y1 stride_b line_b r g b

def clear (buf : Bytes) (info : FrameBufferInfo) (r g b : UInt8) : Option Bytes :=
  let bpp := info.bytes_per_pixel
  let stride := info.stride
  let w := info.width
  let h := info.height
  if bpp = 0 ∨ w = 0 ∨ h = 0 ∨ stride < w ∨ pixel_format_no_writes info.pixel_format = true then some buf
  else
    let stride_b := saturating_mul stride bpp
    let row_pix_b := saturating_mul w bpp
    if stride_b < row_pix_b ∨ row_pix_b = 0 then some buf
    else fill_format buf info 0 0 w h stride_b row_pix_b r g b

/-! ## A row is its pixels -/

section Rows

variable {info : FrameBufferInfo} {buf pat : Bytes} {x y n : Nat} {r g b : UInt8}

/-- The pattern, `n` times. -/
def copies (n : Nat) (pat : Bytes) : Bytes := (List.replicate n pat).flatten

theorem copies_succ (n : Nat) (pat : Bytes) : copies (n + 1) pat = pat ++ copies n pat := by
  rw [copies, List.replicate_succ, List.flatten_cons, copies]

theorem length_copies (n : Nat) (pat : Bytes) : (copies n pat).length = n * pat.length := by
  rw [copies, List.length_flatten, List.map_replicate, List.sum_replicate, smul_eq_mul]

theorem fill_chunks_eq {row : Bytes} (h : row.length = n * pat.length) : fill_chunks pat n row = copies n pat := by
  induction n generalizing row with
  | zero =>
    rw [Nat.zero_mul] at h
    exact List.eq_nil_of_length_eq_zero h
  | succ n ih =>
    rw [fill_chunks, copies_succ, ih]
    rw [List.length_drop, h, Nat.add_mul, Nat.one_mul, Nat.add_sub_cancel]

theorem chunks_eq {row : Bytes} (hpat : 0 < pat.length) (h : row.length = n * pat.length) : chunks pat row = copies n pat := by
  rw [chunks, h, Nat.mul_div_cancel _ hpat, fill_chunks_eq h]

theorem fill_eq {row : Bytes} (v : UInt8) (h : row.length = n) : fill v row = copies n [v] := by
  have hcopies : ∀ n, List.replicate n v = copies n [v] := by
    intro n
    induction n with
    | zero => rfl
    | succ n ih => rw [List.replicate_succ, copies_succ, ih, List.singleton_append]
  rw [fill, h, hcopies]

/-- **A row of pixels is one write.** -/
theorem row_of_pixels (hsound : info.Sound) (hpat : (info.pattern r g b).length = info.bytes_per_pixel) (hbuf : info.Holds buf)
    (hx : x + n ≤ info.width) (hy : y < info.height) :
    (List.range' x n).foldlM (fun buf x => pixel buf info x y r g b) buf =
      write? buf (info.at x y) (copies n (info.pattern r g b)) := by
  induction n generalizing x buf with
  | zero => exact (write?_nil (at_le hsound hbuf hx hy)).symm
  | succ n ih =>
    have hplace := place_le hsound hbuf (x := x) (by omega) hy
    rw [List.range'_succ, List.foldlM_cons, pixel_eq hsound hbuf (by omega) hy, copies_succ, write?_append]
    obtain ⟨out, hout, hlen⟩ : Returns (write? buf (info.at x y) (info.pattern r g b)) _ := write?_returns (by omega)
    rw [hout, Option.bind_eq_bind, Option.bind_some, Option.bind_some, ih (hbuf.of_length hlen) (by omega), at_add, hpat,
      Nat.one_mul]

/-- **The loop over the rows is the double loop.** -/
theorem fill_rows_eq (hsound : info.Sound) (hpat : (info.pattern r g b).length = info.bytes_per_pixel) (hbuf : info.Holds buf)
    {paint : Bytes → Bytes}
    (hpaint : ∀ row, row.length = n * info.bytes_per_pixel → paint row = copies n (info.pattern r g b))
    (hx : x + n ≤ info.width) {lines : Nat} (hy : y + lines ≤ info.height) :
    fill_rows paint (info.stride * info.bytes_per_pixel) (x * info.bytes_per_pixel) (n * info.bytes_per_pixel) y lines buf =
      fill_pixels buf info x y (x + n) (y + lines) r g b := by
  unfold fill_pixels
  rw [Nat.add_sub_cancel_left, Nat.add_sub_cancel_left]
  induction lines generalizing y buf with
  | zero => rfl
  | succ lines ih =>
    have hbase : y * (info.stride * info.bytes_per_pixel) + x * info.bytes_per_pixel = info.at x y := by
      unfold FrameBufferInfo.at
      rw [Nat.mul_assoc]
    have hend : info.at x y + n * info.bytes_per_pixel ≤ buf.length := by
      rw [← at_add]
      exact at_le hsound hbuf hx (by omega)
    rw [fill_rows, List.range'_succ, List.foldlM_cons, row_of_pixels hsound hpat hbuf hx (by omega)]
    rw [hbase, if_neg (by omega)]
    obtain ⟨row, hrow, hlen⟩ : Returns (slice? buf (info.at x y) (info.at x y + n * info.bytes_per_pixel)) _ :=
      slice?_returns (by omega) hend
    rw [Nat.add_sub_cancel_left] at hlen
    rw [hrow, Option.bind_eq_bind, Option.bind_some, hpaint row hlen]
    obtain ⟨out, hout, hlen'⟩ : Returns (write? buf (info.at x y) (copies n (info.pattern r g b))) _ :=
      write?_returns (by rw [length_copies, hpat]; exact hend)
    rw [hout, Option.bind_some, Option.bind_some]
    exact ih (hbuf.of_length hlen') (by omega)

/-- The match over the formats is the double loop, for a rectangle on the screen. -/
theorem fill_format_eq (hsound : info.Sound) (hbuf : info.Holds buf) {lines : Nat} (hx : x + n ≤ info.width)
    (hy : y + lines ≤ info.height) :
    fill_format buf info x y (x + n) (y + lines) (info.stride * info.bytes_per_pixel) (n * info.bytes_per_pixel) r g b =
      fill_pixels buf info x y (x + n) (y + lines) r g b := by
  have hrows : ∀ {paint : Bytes → Bytes}, (info.pattern r g b).length = info.bytes_per_pixel →
      (∀ row, row.length = n * info.bytes_per_pixel → paint row = copies n (info.pattern r g b)) →
      fill_rows paint (info.stride * info.bytes_per_pixel) (x * info.bytes_per_pixel) (n * info.bytes_per_pixel) y
        (y + lines - y) buf = fill_pixels buf info x y (x + n) (y + lines) r g b := by
    intro paint hpat hpaint
    rw [Nat.add_sub_cancel_left]
    exact fill_rows_eq hsound hpat hbuf hpaint hx hy
  unfold FrameBufferInfo.pattern at hrows
  unfold fill_format
  generalize info.bytes_per_pixel = bpp at hrows ⊢
  generalize info.pixel_format = format at hrows ⊢
  split
  · exact hrows rfl fun row hrow => chunks_eq (Nat.succ_pos _) hrow
  · exact hrows rfl fun row hrow => chunks_eq (Nat.succ_pos _) hrow
  · exact hrows rfl fun row hrow => chunks_eq (Nat.succ_pos _) hrow
  · exact hrows rfl fun row hrow => chunks_eq (Nat.succ_pos _) hrow
  · have hgrey : ∀ row : Bytes, row.length = n * 1 → fill (grey r g b) row = copies n [grey r g b] :=
      fun row hrow => fill_eq _ (by rw [hrow, Nat.mul_one])
    have hone := hrows rfl hgrey
    rwa [Nat.mul_one x] at hone
  · rfl

/-- A format without writes leaves the buffer, whatever pixel is asked for. -/
theorem fill_pixels_unknown (hformat : info.pixel_format = .Unknown) (x0 y0 x1 y1 : Nat) :
    fill_pixels buf info x0 y0 x1 y1 r g b = some buf := by
  have hpixel : ∀ buf x y, pixel buf info x y r g b = some buf := by
    intro buf x y
    unfold pixel
    rw [hformat]
    dsimp only
    split_ifs <;> rfl
  exact foldlM_stays (fun buf y => foldlM_stays (fun buf x => hpixel buf x y) _ buf) _ buf

/-- An empty rectangle. -/
theorem fill_pixels_empty {x0 y0 x1 y1 : Nat} (h : x1 ≤ x0 ∨ y1 ≤ y0) : fill_pixels buf info x0 y0 x1 y1 r g b = some buf := by
  unfold fill_pixels
  rcases h with hx | hy
  · rw [Nat.sub_eq_zero_of_le hx]
    exact foldlM_stays (fun buf y => rfl) _ buf
  · rw [Nat.sub_eq_zero_of_le hy]
    rfl

/-- Where the fills leave the buffer at once, nothing is written. -/
theorem unknown_of_no_writes (hsound : info.Sound)
    (h : info.bytes_per_pixel = 0 ∨ info.stride < info.width ∨ pixel_format_no_writes info.pixel_format = true) :
    info.pixel_format = .Unknown := by
  have hstride := hsound.stride
  have hcolour := hsound.colour
  have hgrey := hsound.grey
  cases hformat : info.pixel_format with
  | Unknown => rfl
  | Rgb =>
    have hthree := hcolour (.inl hformat)
    rcases h with hzero | hless | hnone
    · omega
    · omega
    · rw [hformat] at hnone
      cases hnone
  | Bgr =>
    have hthree := hcolour (.inr hformat)
    rcases h with hzero | hless | hnone
    · omega
    · omega
    · rw [hformat] at hnone
      cases hnone
  | U8 =>
    have hone := hgrey hformat
    rcases h with hzero | hless | hnone
    · omega
    · omega
    · rw [hformat] at hnone
      cases hnone

/-- The number of bytes of a part of a line is not saturated. -/
theorem line_eq (hbuf : info.Holds buf) (hheight : 0 < info.height) (hn : n ≤ info.stride) :
    saturating_mul n info.bytes_per_pixel = n * info.bytes_per_pixel := by
  have hroom := hbuf.room
  have hlen := hbuf.addressable
  have hline : n * info.bytes_per_pixel ≤ info.stride * info.height * info.bytes_per_pixel :=
    Nat.mul_le_mul_right _ (hn.trans (Nat.le_mul_of_pos_right _ hheight))
  unfold saturating_mul
  omega

end Rows

/-! ## Rectangles -/

/-- A byte of a pixel of the rectangle. -/
def InRect (info : FrameBufferInfo) (x0 y0 x1 y1 i : Nat) : Prop :=
  ∃ x y, x0 ≤ x ∧ x < x1 ∧ y0 ≤ y ∧ y < y1 ∧ info.at x y ≤ i ∧ i < info.at x y + info.bytes_per_pixel

section Rectangles

variable {info : FrameBufferInfo} {buf : Bytes} {r g b : UInt8}

/-- The double loop changes at most the bytes of its rectangle. -/
theorem fill_pixels_returns (hsound : info.Sound) (hbuf : info.Holds buf) (x0 y0 x1 y1 : Nat) :
    Returns (fill_pixels buf info x0 y0 x1 y1 r g b) fun out =>
      out.length = buf.length ∧ ∀ i, ¬ InRect info x0 y0 x1 y1 i → out[i]? = buf[i]? := by
  -- a round of either loop: what is kept so far, and the place of the pixel is in the rectangle
  have hpixel : ∀ out x y, x ∈ List.range' x0 (x1 - x0) → y ∈ List.range' y0 (y1 - y0) →
      (out.length = buf.length ∧ ∀ i, ¬ InRect info x0 y0 x1 y1 i → out[i]? = buf[i]?) →
      Returns (pixel out info x y r g b) fun out' =>
        out'.length = buf.length ∧ ∀ i, ¬ InRect info x0 y0 x1 y1 i → out'[i]? = buf[i]? := by
    rintro out x y hx hy ⟨hlen, hkept⟩
    rw [List.mem_range'_1] at hx hy
    refine (pixel_returns hsound (hbuf.of_length hlen) x y r g b).mono ?_
    rintro out' ⟨hlen', hkept'⟩
    refine ⟨hlen'.trans hlen, fun i hi => ?_⟩
    rw [hkept' i, hkept i hi]
    rintro ⟨-, -, hat, hend⟩
    exact hi ⟨x, y, hx.1, by omega, hy.1, by omega, hat, hend⟩
  refine Returns.foldlM_mem (fun out y hy hout => ?_) ⟨rfl, fun i _ => rfl⟩
  exact Returns.foldlM_mem (fun out x hx hout => hpixel out x y hx hy hout) hout

/-- `fill_rect` is the double loop over the part of the rectangle that is on the screen. -/
theorem fill_rect_eq (hsound : info.Sound) (hbuf : info.Holds buf) (x0 y0 rw rh : Nat) :
    fill_rect buf info x0 y0 rw rh r g b =
      fill_pixels buf info (min x0 info.width) (min y0 info.height) (min (x0 + rw) info.width)
        (min (y0 + rh) info.height) r g b := by
  have hstride := hsound.stride
  have hx1 : min (x0 + rw) info.width ≤ info.width := Nat.min_le_right _ _
  have hy1 : min (y0 + rh) info.height ≤ info.height := Nat.min_le_right _ _
  unfold fill_rect
  dsimp only
  generalize min x0 info.width = xs
  generalize min y0 info.height = ys
  generalize min (x0 + rw) info.width = xe at hx1 ⊢
  generalize min (y0 + rh) info.height = ye at hy1 ⊢
  split_ifs with hempty hnone hzero
  · rw [fill_pixels_empty hempty]
  · rw [fill_pixels_unknown (unknown_of_no_writes hsound hnone)]
  · rw [line_eq hbuf (by omega) (by omega), Nat.mul_eq_zero] at hzero
    omega
  · obtain ⟨n, rfl⟩ : ∃ n, xe = xs + n := ⟨xe - xs, by omega⟩
    obtain ⟨lines, rfl⟩ : ∃ lines, ye = ys + lines := ⟨ye - ys, by omega⟩
    rw [Nat.add_sub_cancel_left, line_eq hbuf (by omega) (Nat.le_refl _), line_eq hbuf (by omega) (by omega)]
    exact fill_format_eq hsound hbuf hx1 hy1

/-- `clear` is the double loop over the screen. -/
theorem clear_eq (hsound : info.Sound) (hbuf : info.Holds buf) :
    clear buf info r g b = fill_pixels buf info 0 0 info.width info.height r g b := by
  have hstride := hsound.stride
  unfold clear
  dsimp only
  split_ifs with hnone hzero
  · rcases hnone with hbytes | hwidth | hheight | hless | hformat
    · rw [fill_pixels_unknown (unknown_of_no_writes hsound (.inl hbytes))]
    · rw [fill_pixels_empty (.inl (Nat.le_of_eq hwidth))]
    · rw [fill_pixels_empty (.inr (Nat.le_of_eq hheight))]
    · omega
    · rw [fill_pixels_unknown (unknown_of_no_writes hsound (.inr (.inr hformat)))]
  · rw [line_eq hbuf (by omega) (Nat.le_refl _), line_eq hbuf (by omega) hstride, Nat.mul_eq_zero] at hzero
    have hline : info.width * info.bytes_per_pixel ≤ info.stride * info.bytes_per_pixel := Nat.mul_le_mul_right _ hstride
    omega
  · rw [line_eq hbuf (by omega) (Nat.le_refl _), line_eq hbuf (by omega) hstride]
    have hwidth : 0 + info.width ≤ info.width := by omega
    have hheight : 0 + info.height ≤ info.height := by omega
    have hformat := fill_format_eq hsound hbuf (r := r) (g := g) (b := b) hwidth hheight
    rwa [Nat.zero_add, Nat.zero_add] at hformat

/-- **Fills are pixel by pixel**: `fill_rect` and `clear` leave what a double loop of
`pixel` leaves, over the rectangle as far as it is on the screen, and over the screen.
Nothing else in the buffer changes. -/
theorem fills_are_pixelwise (hsound : info.Sound) (hbuf : info.Holds buf) (x0 y0 rw rh : Nat) :
    (Returns (fill_rect buf info x0 y0 rw rh r g b) fun out =>
      fill_pixels buf info (min x0 info.width) (min y0 info.height) (min (x0 + rw) info.width)
          (min (y0 + rh) info.height) r g b = some out ∧
        out.length = buf.length ∧
        ∀ i, ¬ InRect info x0 y0 (min (x0 + rw) info.width) (min (y0 + rh) info.height) i → out[i]? = buf[i]?) ∧
      Returns (clear buf info r g b) fun out =>
        fill_pixels buf info 0 0 info.width info.height r g b = some out ∧
          out.length = buf.length ∧ ∀ i, ¬ InRect info 0 0 info.width info.height i → out[i]? = buf[i]? := by
  constructor
  · rw [fill_rect_eq hsound hbuf]
    obtain ⟨out, hout, hlen, hkept⟩ := fill_pixels_returns hsound hbuf (r := r) (g := g) (b := b) (min x0 info.width)
      (min y0 info.height) (min (x0 + rw) info.width) (min (y0 + rh) info.height)
    refine ⟨out, hout, hout, hlen, fun i hi => hkept i ?_⟩
    rintro ⟨x, y, hx, hx', hy, hy', hin⟩
    exact hi ⟨x, y, by omega, hx', by omega, hy', hin⟩
  · rw [clear_eq hsound hbuf]
    obtain ⟨out, hout, hlen, hkept⟩ := fill_pixels_returns hsound hbuf (r := r) (g := g) (b := b) 0 0 info.width
      info.height
    exact ⟨out, hout, hout, hlen, hkept⟩

/-- Two pixels in a line, and room for a third. -/
def two_in_three : FrameBufferInfo := ⟨2, 2, 3, .Bgr, 3⟩

theorem two_in_three_is_filled :
    Returns (fill_rect (List.replicate 18 0) two_in_three 1 0 9 9 1 2 3) fun out =>
      out = [0, 0, 0, 3, 2, 1, 0, 0, 0, 0, 0, 0, 3, 2, 1, 0, 0, 0] ∧ out.length = 18 := by
  have hsound : two_in_three.Sound := ⟨by decide, by decide, by decide⟩
  have hbuf : two_in_three.Holds (List.replicate 18 0) := ⟨by decide, by decide⟩
  obtain ⟨out, hout, -, hlen, -⟩ := (fills_are_pixelwise hsound hbuf 1 0 9 9 (r := 1) (g := 2) (b := 3)).1
  refine ⟨out, hout, ?_, hlen⟩
  have hfilled : fill_rect (List.replicate 18 0) two_in_three 1 0 9 9 1 2 3 =
      some [0, 0, 0, 3, 2, 1, 0, 0, 0, 0, 0, 0, 3, 2, 1, 0, 0, 0] := by decide
  exact Option.some.inj (hout.symm.trans hfilled)

end Rectangles

end EveOS.Gfx
