/-
What is under the cursors comes back.

A side of a rectangle is right (`Side`), except at the far left, where its length wraps
around; then nothing is saved across, and at most a few rows down, and the cursor is not
drawn. A slot that is valid holds rows of the image from before the cursors
(`Slot.Holds`), and the image that is shown agrees with that one outside of the valid
rectangles (`Under`).
-/
import EveOS.Gfx.Cursors

set_option autoImplicit false

namespace EveOS.Gfx

/-! ## Sides -/

/-- A side of length `r.2` from `r.1` on, for a cursor at `c`. -/
structure Side (c : Int32) (n : Nat) (r : Nat × Nat) : Prop where
  inside : r.1 < n
  short : min r.2 (n - r.1) ≤ 17
  covers : 0 ≤ c.toInt → c.toInt < n → ∀ p : Nat, p < n → c.toInt - 8 ≤ p → p < c.toInt + 8 → r.1 ≤ p ∧ p < r.1 + r.2
  fits : r.1 + r.2 ≤ n ∧ r.2 ≤ 17 ∨ c.toInt < 0 ∧ 0 < r.1 ∧ r.2 = 2 ^ 64 - r.1

theorem clamp_returns {v lo hi : Int32} (h : lo.toInt ≤ hi.toInt) :
    Returns (clamp? v lo hi) fun z => z.toInt = max lo.toInt (min v.toInt hi.toInt) := by
  unfold clamp?
  rw [if_neg (by rw [Int32.lt_iff_toInt_lt]; omega)]
  refine .ret ?_
  simp only [Int32.lt_iff_toInt_lt]
  split_ifs <;> omega

theorem toInt_pred {n : Nat} (hn : 0 < n) (h : n < 2 ^ 31) : (pred_i32 (as_i32 n)).toInt = n - 1 := by
  have hw := toInt_as_i32 h
  have hne : as_i32 n ≠ Int32.minValue := by
    intro heq
    rw [heq] at hw
    have hmin : Int32.minValue.toInt = -2 ^ 31 := rfl
    omega
  have hone : (1 : Int32).toInt = 1 := rfl
  unfold pred_i32
  rw [if_neg hne, Int32.toInt_sub, hw, hone]
  exact Int.bmod_eq_of_le (by omega) (by omega)

theorem clip_side_returns {c : Int32} {n : Nat} (hn : 0 < n) (hn' : n < 2 ^ 31) (hc : c.toInt + 9 < 2 ^ 31) :
    Returns (clip_side c n) (Side c n) := by
  have hlow := c.le_toInt
  have hw := toInt_as_i32 hn'
  have hpred := toInt_pred hn hn'
  have hzero : (0 : Int32).toInt = 0 := rfl
  have hhalf : CUR_HALF.toInt = 8 := rfl
  have hone : (1 : Int32).toInt = 1 := rfl
  -- only the difference can wrap around
  have hleft : (c - CUR_HALF).toInt = c.toInt - 8 ∨
      c.toInt - 8 < -2 ^ 31 ∧ (c - CUR_HALF).toInt = c.toInt - 8 + 2 ^ 32 := by
    rw [Int32.toInt_sub, hhalf]
    by_cases hwrap : -2 ^ 31 ≤ c.toInt - 8
    · left
      exact Int.bmod_eq_of_le (by omega) (by omega)
    · refine .inr ⟨by omega, ?_⟩
      have hwrapped : (c.toInt - 8 + (2 ^ 32 : Nat)).bmod (2 ^ 32) = (c.toInt - 8).bmod (2 ^ 32) :=
        Int.add_bmod_right _ _
      rw [← hwrapped]
      exact Int.bmod_eq_of_le (by omega) (by omega)
  have hright : (c + CUR_HALF + 1).toInt = c.toInt + 9 := by
    have hadd : (c.toInt + 8).bmod (2 ^ 32) = c.toInt + 8 := Int.bmod_eq_of_le (by omega) (by omega)
    rw [Int32.toInt_add, Int32.toInt_add, hhalf, hone, hadd, Int.add_assoc]
    exact Int.bmod_eq_of_le (by omega) (by omega)
  refine (clamp_returns (by omega)).bind fun x0 hx0 => ?_
  refine (clamp_returns (by omega)).bind fun x1 hx1 => .ret ?_
  rw [hzero, hpred] at hx0
  rw [hzero, hright, hw] at hx1
  have hdiff : (x1 - x0).toInt = x1.toInt - x0.toInt := by
    rw [Int32.toInt_sub]
    exact Int.bmod_eq_of_le (by omega) (by omega)
  have hstart : as_usize x0 = x0.toInt.toNat := as_usize_of_nonneg (by omega)
  have hlength : as_usize (x1 - x0) = ((x1.toInt - x0.toInt) % 2 ^ 64).toNat := by rw [as_usize, hdiff]
  rcases hleft with hleft | ⟨hnegative, hleft⟩
  · rw [hleft] at hx0
    constructor <;> dsimp only <;> omega
  · rw [hleft] at hx0
    constructor <;> dsimp only <;> omega

/-! ## Rows -/

/-- `k` rows of an image from `y` on, `w` pixels each from `x0` on. -/
def rows (image : Bytes) (info : FrameBufferInfo) (x0 w : Nat) : Nat → Nat → Bytes
  | _, 0 => []
  | y, k + 1 => (image.drop (info.at x0 y)).take (w * info.bytes_per_pixel) ++ rows image info x0 w (y + 1) k

/-- A byte of one of these rows. -/
def InRows (info : FrameBufferInfo) (x0 w y k i : Nat) : Prop :=
  ∃ y', y ≤ y' ∧ y' < y + k ∧ info.at x0 y' ≤ i ∧ i < info.at x0 y' + w * info.bytes_per_pixel

section Rows

variable {info : FrameBufferInfo} {image buf : Bytes} {x0 y0 w : Nat}

theorem inRows_succ {y k i : Nat} :
    InRows info x0 w y (k + 1) i ↔
      (info.at x0 y ≤ i ∧ i < info.at x0 y + w * info.bytes_per_pixel) ∨ InRows info x0 w (y + 1) k i := by
  constructor
  · rintro ⟨y', hle, hlt, hin⟩
    by_cases hfirst : y' = y
    · rw [hfirst] at hin
      exact .inl hin
    · exact .inr ⟨y', by omega, by omega, hin⟩
  · rintro (hin | ⟨y', hle, hlt, hin⟩)
    · exact ⟨y, Nat.le_refl y, by omega, hin⟩
    · exact ⟨y', by omega, by omega, hin⟩

theorem row_length (hsound : info.Sound) (himage : info.Holds image) (hx : x0 + w ≤ info.width) {y : Nat}
    (hy : y < info.height) : ((image.drop (info.at x0 y)).take (w * info.bytes_per_pixel)).length = w * info.bytes_per_pixel := by
  have hend := at_le hsound himage hx hy
  rw [at_add] at hend
  rw [List.length_take, List.length_drop]
  omega

theorem rows_length (hsound : info.Sound) (himage : info.Holds image) (hx : x0 + w ≤ info.width) {y k : Nat}
    (hy : y + k ≤ info.height) : (rows image info x0 w y k).length = k * (w * info.bytes_per_pixel) := by
  induction k generalizing y with
  | zero => rw [rows, Nat.zero_mul, List.length_nil]
  | succ k ih =>
    rw [rows, List.length_append, row_length hsound himage hx (by omega), ih (by omega), Nat.add_mul, Nat.one_mul,
      Nat.add_comm]

/-- **What is saved are the rows**, when there is room for them. -/
theorem save_rows_eq (hsound : info.Sound) (himage : info.Holds image) (hx : x0 + w ≤ info.width) {row n : Nat}
    {saved : Bytes} (hroom : saved.length + min n (info.height - (y0 + row)) * (w * info.bytes_per_pixel) ≤ SLOT_BYTES) :
    save_rows image info x0 y0 w row n saved =
      some (saved ++ rows image info x0 w (y0 + row) (min n (info.height - (y0 + row)))) := by
  induction n generalizing row saved with
  | zero => rw [Nat.zero_min, save_rows, rows, List.append_nil]
  | succ n ih =>
    unfold save_rows
    by_cases hy : info.height ≤ y0 + row
    · rw [if_pos hy, Nat.sub_eq_zero_of_le hy, Nat.min_zero, rows, List.append_nil]
    · have hk : min (n + 1) (info.height - (y0 + row)) = min n (info.height - (y0 + (row + 1))) + 1 := by omega
      have hend := at_le hsound himage hx (y := y0 + row) (by omega)
      have hlen := himage.addressable
      rw [hk, Nat.add_mul, Nat.one_mul] at hroom
      rw [at_add] at hend
      unfold SLOT_BYTES at hroom ih ⊢
      have hbytes : wrap (w * info.bytes_per_pixel) = w * info.bytes_per_pixel := Nat.mod_eq_of_lt (by omega)
      have hbase : wrap (info.at x0 (y0 + row) + w * info.bytes_per_pixel) = info.at x0 (y0 + row) + w * info.bytes_per_pixel :=
        Nat.mod_eq_of_lt (by omega)
      have hdst : wrap (saved.length + w * info.bytes_per_pixel) = saved.length + w * info.bytes_per_pixel :=
        Nat.mod_eq_of_lt (by omega)
      rw [if_neg hy]
      dsimp only
      rw [hbytes, hbase, hdst, if_neg (by omega), slice?_eq (by omega) hend, Nat.add_sub_cancel_left, Option.bind_eq_bind,
        Option.bind_some, ih, hk, rows, List.append_assoc, Nat.add_assoc]
      rw [List.length_append, row_length hsound himage hx (by omega)]
      omega

/-- A write of a row: the bytes of the row are those of the image. -/
theorem getElem?_row (hsound : info.Sound) (himage : info.Holds image) (hx : x0 + w ≤ info.width) {y : Nat}
    (hy : y < info.height) {out : Bytes}
    (hout : write? buf (info.at x0 y) ((image.drop (info.at x0 y)).take (w * info.bytes_per_pixel)) = some out) (i : Nat) :
    out[i]? = if info.at x0 y ≤ i ∧ i < info.at x0 y + w * info.bytes_per_pixel then image[i]? else buf[i]? := by
  rw [getElem?_write hout, row_length hsound himage hx hy]
  split_ifs with hin
  · rw [List.getElem?_take_of_lt (by omega), List.getElem?_drop]
    congr 1
    omega
  · rfl

/-- **Rows that are restored**: they are those of the image, and nothing else changes. -/
theorem restore_rows_returns (hsound : info.Sound) (himage : info.Holds image) (hbuf : info.Holds buf)
    (hx : x0 + w ≤ info.width) {row n k : Nat} (hk : k = min n (info.height - (y0 + row))) {pre src : Bytes}
    (hsrc : src = pre ++ rows image info x0 w (y0 + row) k) (hlen : src.length < 2 ^ 64) :
    Returns (restore_rows info x0 y0 w src row n pre.length buf) fun out => out.length = buf.length ∧
      ∀ i, InRows info x0 w (y0 + row) k i ∧ out[i]? = image[i]? ∨ ¬ InRows info x0 w (y0 + row) k i ∧ out[i]? = buf[i]? := by
  have hnone : ∀ i, k = 0 → ¬ InRows info x0 w (y0 + row) k i := by
    rintro i hzero ⟨y', hle, hlt, -⟩
    omega
  induction n generalizing row k pre buf with
  | zero => exact .ret ⟨rfl, fun i => .inr ⟨hnone i (by omega), rfl⟩⟩
  | succ n ih =>
    unfold restore_rows
    by_cases hy : info.height ≤ y0 + row
    · rw [if_pos hy]
      exact .ret ⟨rfl, fun i => .inr ⟨hnone i (by omega), rfl⟩⟩
    · obtain ⟨k', rfl⟩ : ∃ k', k = k' + 1 := ⟨k - 1, by omega⟩
      have hrow := row_length hsound himage hx (y := y0 + row) (by omega)
      have hend := at_le hsound hbuf hx (y := y0 + row) (by omega)
      have hsize := hbuf.addressable
      rw [at_add] at hend
      rw [rows] at hsrc
      generalize hline : (image.drop (info.at x0 (y0 + row))).take (w * info.bytes_per_pixel) = line at hsrc hrow
      -- the row is what follows in the source
      have hpart : slice? src pre.length (pre.length + w * info.bytes_per_pixel) = some line := by
        rw [hsrc, ← hrow]
        exact slice?_part pre line _
      have hroom : pre.length + w * info.bytes_per_pixel ≤ src.length := by
        rw [hsrc, List.length_append, List.length_append, hrow]
        omega
      have hbytes : wrap (w * info.bytes_per_pixel) = w * info.bytes_per_pixel := Nat.mod_eq_of_lt (by omega)
      have hbase : wrap (info.at x0 (y0 + row) + w * info.bytes_per_pixel) = info.at x0 (y0 + row) + w * info.bytes_per_pixel :=
        Nat.mod_eq_of_lt (by omega)
      have hnext : wrap (pre.length + w * info.bytes_per_pixel) = pre.length + w * info.bytes_per_pixel :=
        Nat.mod_eq_of_lt (by omega)
      rw [if_neg hy]
      dsimp only
      rw [hbytes, hbase, hnext, if_neg (by omega), hpart, Option.bind_eq_bind, Option.bind_some]
      obtain ⟨mid, hmid, hmidlen⟩ : Returns (write? buf (info.at x0 (y0 + row)) line) _ := write?_returns (by omega)
      have hfollow : pre.length + w * info.bytes_per_pixel = (pre ++ line).length := by rw [List.length_append, hrow]
      rw [hmid, Option.bind_some, hfollow]
      have hrest : src = (pre ++ line) ++ rows image info x0 w (y0 + (row + 1)) k' := by
        rw [hsrc, List.append_assoc, Nat.add_assoc]
      refine (ih (hbuf.of_length hmidlen) (by omega) hrest ?_).mono ?_
      · rintro i hzero ⟨y', hle, hlt, -⟩
        omega
      rintro out ⟨houtlen, hout⟩
      refine ⟨houtlen.trans hmidlen, fun i => ?_⟩
      rw [← hline] at hmid
      have hat := getElem?_row hsound himage hx (by omega) hmid i
      rw [inRows_succ, Nat.add_assoc]
      rcases hout i with ⟨hin, heq⟩ | ⟨hout', heq⟩
      · exact .inl ⟨.inr hin, heq⟩
      · split_ifs at hat with hfirst
        · exact .inl ⟨.inl hfirst, heq.trans hat⟩
        · exact .inr ⟨fun h => h.elim hfirst hout', heq.trans hat⟩

end Rows

/-! ## A cursor -/

/-- A screen for cursors: its sides are numbers for an `i32`. -/
structure FrameBufferInfo.ForCursors (info : FrameBufferInfo) : Prop where
  width : 0 < info.width ∧ info.width < 2 ^ 31
  height : 0 < info.height ∧ info.height < 2 ^ 31
  stride : info.width ≤ info.stride
  format : (info.pixel_format = .Rgb ∨ info.pixel_format = .Bgr) ∧ (info.bytes_per_pixel = 3 ∨ info.bytes_per_pixel = 4) ∨
    info.pixel_format = .U8 ∧ info.bytes_per_pixel = 1

theorem FrameBufferInfo.ForCursors.bytes {info : FrameBufferInfo} (h : info.ForCursors) :
    info.bytes_per_pixel = 1 ∨ info.bytes_per_pixel = 3 ∨ info.bytes_per_pixel = 4 := by
  rcases h.format with ⟨-, hbytes⟩ | ⟨-, hbytes⟩
  · exact .inr hbytes
  · exact .inl hbytes

theorem FrameBufferInfo.ForCursors.sound {info : FrameBufferInfo} (h : info.ForCursors) : info.Sound := by
  have hbytes := h.bytes
  refine ⟨h.stride, ?_, ?_⟩
  · intro hformat
    rcases h.format with ⟨-, hthree⟩ | ⟨hgrey, -⟩
    · omega
    · rw [hgrey] at hformat
      rcases hformat with hformat | hformat <;> cases hformat
  · intro _
    omega

/-- How many rows of a slot are on the screen. -/
def Slot.lines (info : FrameBufferInfo) (s : Slot) : Nat := min s.sh (info.height - s.sy)

/-- A byte of the rectangle of a slot. -/
def Slot.Rect (info : FrameBufferInfo) (s : Slot) (i : Nat) : Prop := InRows info s.sx s.sw s.sy (s.lines info) i

/-- The slot has its part of an image. -/
structure Slot.Holds (info : FrameBufferInfo) (image : Bytes) (s : Slot) : Prop where
  width : s.sx + s.sw ≤ info.width
  sides : 0 < s.sw ∧ 0 < s.sh
  rows : s.saved = rows image info s.sx s.sw s.sy (s.lines info)
  nonempty : 0 < s.saved.length
  short : s.saved.length ≤ SLOT_BYTES

section Cursor

variable {info : FrameBufferInfo} {image buf : Bytes} {s : Slot} {cx cy : Int32}

/-- **A slot is restored.** -/
theorem slot_restore_returns (hinfo : info.ForCursors) (himage : info.Holds image) (hbuf : info.Holds buf)
    (hs : s.Holds info image) (hvalid : s.save_valid = true) :
    Returns (s.restore_one buf info) fun r => r.1 = { s with save_valid := false } ∧ r.2.length = buf.length ∧
      ∀ i, s.Rect info i ∧ r.2[i]? = image[i]? ∨ ¬ s.Rect info i ∧ r.2[i]? = buf[i]? := by
  have hbytes := hinfo.bytes
  have hsides := hs.sides
  have hnonempty := hs.nonempty
  have hshort := hs.short
  unfold SLOT_BYTES at hshort
  have hkept : ¬ (!s.save_valid || s.saved.length == 0) = true := by
    rw [hvalid, Bool.not_true, Bool.false_or, beq_iff_eq]
    omega
  have hsrc : s.saved = [] ++ rows image info s.sx s.sw (s.sy + 0) (s.lines info) := hs.rows
  have hrows : Returns (restore_rows info s.sx s.sy s.sw s.saved 0 s.sh ([] : Bytes).length buf) fun out =>
      out.length = buf.length ∧ ∀ i, s.Rect info i ∧ out[i]? = image[i]? ∨ ¬ s.Rect info i ∧ out[i]? = buf[i]? :=
    restore_rows_returns hinfo.sound himage hbuf hs.width rfl hsrc (by omega)
  unfold Slot.restore_one blit_restore_rect
  rw [if_neg hkept, if_neg (by omega)]
  exact hrows.bind fun out hout => .ret ⟨rfl, hout.1, hout.2⟩

/-- A row that wraps around does not fit into a slot. -/
theorem save_rows_wrapped (hinfo : info.ForCursors) {x0 y0 row n : Nat} (hx : 0 < x0) (hx' : x0 < info.width) :
    save_rows image info x0 y0 (2 ^ 64 - x0) row n [] = some [] := by
  have hbytes := hinfo.bytes
  have hwidth := hinfo.width
  have hlong : SLOT_BYTES < wrap ((2 ^ 64 - x0) * info.bytes_per_pixel) := by
    have hmul : (2 ^ 64 - x0) * info.bytes_per_pixel =
        2 ^ 64 * (info.bytes_per_pixel - 1) + (2 ^ 64 - x0 * info.bytes_per_pixel) := by
      rcases hbytes with hbytes | hbytes | hbytes
      · rw [hbytes]
        omega
      · rw [hbytes]
        omega
      · rw [hbytes]
        omega
    have hless : x0 * 1 ≤ x0 * info.bytes_per_pixel := Nat.mul_le_mul_left _ (by omega)
    have hmore : x0 * info.bytes_per_pixel ≤ x0 * 4 := Nat.mul_le_mul_left _ (by omega)
    unfold SLOT_BYTES wrap
    rw [hmul, Nat.mul_add_mod, Nat.mod_eq_of_lt (by omega)]
    omega
  have hfull : wrap (([] : Bytes).length + wrap ((2 ^ 64 - x0) * info.bytes_per_pixel)) =
      wrap ((2 ^ 64 - x0) * info.bytes_per_pixel) := by
    unfold wrap
    rw [List.length_nil, Nat.zero_add, Nat.mod_mod]
  cases n with
  | zero => rfl
  | succ n =>
    unfold save_rows
    dsimp only
    rw [hfull]
    split_ifs with hbelow hstop
    · rfl
    · rfl
    · exact absurd (.inr hlong) hstop

/-- The bytes that a cursor covers are in its rectangle. -/
theorem covers_rect {x0 y0 rw rh i : Nat} (hx : Side cx info.width (x0, rw)) (hy : Side cy info.height (y0, rh))
    (h : Covers info cx cy i) : 0 < rw ∧ 0 < rh ∧ InRows info x0 rw y0 (min rh (info.height - y0)) i := by
  obtain ⟨hscreen, x, y, ⟨hwidth, hleft, hright⟩, ⟨hheight, habove, hbelow⟩, hat, hend⟩ := h
  have hcol := hx.covers hscreen.1.1 hscreen.1.2 x hwidth hleft hright
  have hrow := hy.covers hscreen.2.1 hscreen.2.2 y hheight habove hbelow
  dsimp only at hcol hrow
  obtain ⟨k, rfl⟩ : ∃ k, x = x0 + k := ⟨x - x0, by omega⟩
  have hmore : (k + 1) * info.bytes_per_pixel ≤ rw * info.bytes_per_pixel := Nat.mul_le_mul_right _ (by omega)
  rw [at_add] at hat hend
  rw [Nat.add_mul, Nat.one_mul] at hmore
  exact ⟨by omega, by omega, y, hrow.1, by omega, by omega, by omega⟩

/-- **A slot is saved**: it has its part of the image if it is valid, and it is if
anything is covered. -/
theorem slot_save_returns (hinfo : info.ForCursors) (himage : info.Holds image) (hcx : cx.toInt + 9 < 2 ^ 31)
    (hcy : cy.toInt + 9 < 2 ^ 31) :
    Returns (s.save_one image info cx cy) fun s' => (s'.save_valid = true → s'.Holds info image) ∧
      ∀ i, Covers info cx cy i → s'.save_valid = true ∧ s'.Rect info i := by
  have hbytes := hinfo.bytes
  obtain ⟨⟨x0, w⟩, hclipx, hx⟩ := clip_side_returns hinfo.width.1 hinfo.width.2 hcx
  obtain ⟨⟨y0, h⟩, hclipy, hy⟩ := clip_side_returns hinfo.height.1 hinfo.height.2 hcy
  have hclip : cursor_clip_rect cx cy info.width info.height = some (x0, y0, w, h) := by
    unfold cursor_clip_rect
    rw [hclipx, Option.bind_eq_bind, Option.bind_some, hclipy]
    rfl
  unfold Slot.save_one
  rw [hclip, Option.bind_eq_bind, Option.bind_some]
  dsimp only
  by_cases hempty : w = 0 ∨ h = 0
  · rw [if_pos hempty]
    refine .ret ⟨fun hvalid => Bool.noConfusion hvalid, ?_⟩
    intro i hi
    have hsides := covers_rect hx hy hi
    omega
  rw [if_neg hempty]
  unfold blit_save_rect
  rw [if_neg (by omega)]
  rcases hx.fits with ⟨hfits, hshort⟩ | ⟨hoff, hpos, hwrapped⟩
  · have hrows : min h (info.height - y0) ≤ 17 := hy.short
    have hbelow : y0 < info.height := hy.inside
    dsimp only at hfits hshort
    have hroom : min h (info.height - y0) * (w * info.bytes_per_pixel) ≤ 17 * (17 * 4) :=
      Nat.mul_le_mul hrows (Nat.mul_le_mul hshort (by omega))
    have hsome : 0 < min h (info.height - y0) * (w * info.bytes_per_pixel) :=
      Nat.mul_pos (by omega) (Nat.mul_pos (by omega) (by omega))
    have hlength : (rows image info x0 w y0 (min h (info.height - y0))).length = _ :=
      rows_length hinfo.sound himage hfits (by omega)
    have hsaved : save_rows image info x0 y0 w 0 h [] = some (rows image info x0 w y0 (min h (info.height - y0))) := by
      refine save_rows_eq hinfo.sound himage hfits ?_
      unfold SLOT_BYTES
      rw [List.length_nil, Nat.zero_add, Nat.add_zero]
      omega
    have hnonempty : 0 < (rows image info x0 w y0 (min h (info.height - y0))).length := by omega
    have hsize : (rows image info x0 w y0 (min h (info.height - y0))).length ≤ SLOT_BYTES := by
      unfold SLOT_BYTES
      omega
    have hsides : 0 < w ∧ 0 < h := by omega
    rw [hsaved]
    refine .ret ⟨fun _ => ⟨hfits, hsides, rfl, hnonempty, hsize⟩, ?_⟩
    intro i hi
    exact ⟨decide_eq_true hnonempty, (covers_rect hx hy hi).2.2⟩
  · dsimp only at hpos hwrapped
    rw [hwrapped, save_rows_wrapped hinfo hpos hx.inside]
    refine .ret ⟨fun hvalid => Bool.noConfusion hvalid, ?_⟩
    intro i hi
    have hscreen := hi.1.1.1
    omega

end Cursor

/-! ## All cursors -/

/-- **What is under the cursors**: the valid slots have their parts of the image, they
belong to active cursors, and elsewhere the image is shown. -/
structure Under (info : FrameBufferInfo) (image : Bytes) (eng : CursorEngine) (buf : Bytes) : Prop where
  length : buf.length = image.length
  slots : ∀ i, (eng i).save_valid = true → (eng i).last_active = true ∧ (eng i).Holds info image
  elsewhere : ∀ k, (∀ i, (eng i).save_valid = true → ¬ (eng i).Rect info k) → buf[k]? = image[k]?

section Engine

variable {info : FrameBufferInfo} {image buf : Bytes} {eng : CursorEngine}

/-- A turn of the loop that restores. -/
theorem restore_one_returns (hinfo : info.ForCursors) (himage : info.Holds image) (h : Under info image eng buf)
    (i : Fin MAX_CURSORS) :
    Returns (eng.restore_one buf info i) fun r => Under info image r.1 r.2 ∧ (r.1 i).save_valid = false ∧
      ∀ j, (eng j).save_valid = false → (r.1 j).save_valid = false := by
  have hbuf := himage.of_length h.length
  unfold CursorEngine.restore_one
  cases hvalid : (eng i).save_valid with
  | false =>
    have hsame : (eng i).restore_one buf info = some (eng i, buf) := by
      unfold Slot.restore_one
      rw [hvalid]
      rfl
    rw [hsame, Option.bind_eq_bind, Option.bind_some]
    dsimp only
    rw [Function.update_eq_self]
    split_ifs
    · exact .ret ⟨h, hvalid, fun j hj => hj⟩
    · exact .ret ⟨h, hvalid, fun j hj => hj⟩
  | true =>
    obtain ⟨hactive, hholds⟩ := h.slots i hvalid
    rw [if_pos hactive]
    obtain ⟨⟨slot, out⟩, hrestore, hslot, hlen, hout⟩ := slot_restore_returns hinfo himage hbuf hholds hvalid
    dsimp only at hslot hlen hout
    rw [hrestore, Option.bind_eq_bind, Option.bind_some]
    have hinvalid : (Function.update eng i slot i).save_valid = false := by rw [Function.update_self, hslot]
    have hother : ∀ j, j ≠ i → Function.update eng i slot j = eng j := fun j hj => Function.update_of_ne hj _ _
    refine .ret ⟨⟨hlen.trans h.length, ?_, ?_⟩, hinvalid, ?_⟩
    · intro j hj
      dsimp only at hj ⊢
      by_cases hij : j = i
      · rw [hij, hinvalid] at hj
        cases hj
      · rw [hother j hij] at hj ⊢
        exact h.slots j hj
    · -- a byte of the rectangle is back, and another one was there or is in another rectangle
      intro k hk
      rcases hout k with ⟨-, hback⟩ | ⟨hrect, hkept⟩
      · exact hback
      · refine hkept.trans (h.elsewhere k ?_)
        intro j hj
        dsimp only at hk
        by_cases hij : j = i
        · rw [hij]
          exact hrect
        · have hk := hk j
          rw [hother j hij] at hk
          exact hk hj
    · intro j hj
      dsimp only
      by_cases hij : j = i
      · rw [hij]
        exact hinvalid
      · rw [hother j hij]
        exact hj

/-- The loop restores everything. -/
theorem restore_list_returns (hinfo : info.ForCursors) (himage : info.Holds image) (h : Under info image eng buf)
    (is : List (Fin MAX_CURSORS)) :
    Returns (is.foldlM (fun (s : CursorEngine × Bytes) i => s.1.restore_one s.2 info i) (eng, buf)) fun r =>
      Under info image r.1 r.2 ∧ ∀ i, i ∈ is ∨ (eng i).save_valid = false → (r.1 i).save_valid = false := by
  induction is generalizing eng buf with
  | nil => exact .ret ⟨h, fun i hi => hi.resolve_left List.not_mem_nil⟩
  | cons i is ih =>
    rw [List.foldlM_cons]
    refine (restore_one_returns hinfo himage h i).bind fun r hr => ?_
    refine (ih hr.1).mono fun r' hr' => ⟨hr'.1, ?_⟩
    intro j hj
    refine hr'.2 j ?_
    by_cases hmem : j ∈ is
    · exact .inl hmem
    · refine .inr ?_
      rcases hj with hj | hj
      · rcases List.mem_cons.mp hj with rfl | hj
        · exact hr.2.1
        · exact absurd hj hmem
      · exact hr.2.2 j hj

/-- **All of the image comes back.** -/
theorem restore_active_returns (hinfo : info.ForCursors) (himage : info.Holds image) (h : Under info image eng buf) :
    Returns (eng.restore_active buf info) fun r => r.2 = image ∧ ∀ i, (r.1 i).save_valid = false := by
  refine (restore_list_returns hinfo himage h _).mono ?_
  rintro ⟨eng', buf'⟩ ⟨hunder, hall⟩
  have hinvalid : ∀ i, (eng' i).save_valid = false :=
    fun i => hall i (.inl (List.mem_reverse.mpr (List.mem_finRange i)))
  refine ⟨List.ext_getElem? fun k => hunder.elsewhere k ?_, hinvalid⟩
  intro i hi
  rw [hinvalid i] at hi
  cases hi

end Engine

end EveOS.Gfx
