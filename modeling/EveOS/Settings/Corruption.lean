/-
Damaged settings blobs.

A block of `encode` in which one byte was changed, or two unequal neighbours
changed places, is not taken. Wherever the damage is, the checksum no longer
fits: in the payload it changes the sum and not the stored word, in the stored
word it is the other way round, and a swap across the boundary moves the sum
and the stored word apart by twice the difference of the two bytes. What is
left is the way round the checksum, through the decoder of the older format,
which the damage cannot open either: it would have to change the magic and the
version at once.
-/
import EveOS.Lib.RollingSum
import EveOS.Settings.RoundTrip

set_option autoImplicit false

namespace EveOS.Settings

/-! ## The damage -/

/-- One byte was changed. -/
def ByteChanged (data data' : Bytes) : Prop :=
  ∃ pre a b post, a ≠ b ∧ data = pre ++ a :: post ∧ data' = pre ++ b :: post

/-- Two unequal neighbours changed places. -/
def Swapped (data data' : Bytes) : Prop :=
  ∃ pre a b post, a ≠ b ∧ data = pre ++ a :: b :: post ∧ data' = pre ++ b :: a :: post

/-! ## The checksum -/

/-- Whether a block passes the checksum of `EVS2`. -/
def SumFits (data : Bytes) : Prop := checksum (data.take 508) = u32_le_at data 508

theorem checksum_eq_rollingSum (bs : Bytes) : checksum bs = rollingSum 31 0x5F370E41 bs := rfl

/-- 31 is odd, so it can be divided by. -/
theorem inverse_31 : (31 : UInt32) * 3186588639 = 1 := by decide

theorem sumFits_append {P C : Bytes} (hP : P.length = 508) (hC : C.length = 4) :
    SumFits (P ++ C) ↔ checksum P = UInt32.ofNat (leNat C) := by
  unfold SumFits
  rw [← hP, List.take_left, u32_le_at_append _ _ hC]

/-- A word of four bytes has them all. -/
theorem stored_inj {C C' : Bytes} (hC : C.length = 4) (hC' : C'.length = 4)
    (h : UInt32.ofNat (leNat C) = UInt32.ofNat (leNat C')) : C = C' := by
  have hlt (D : Bytes) (hD : D.length = 4) : leNat D < 2 ^ 32 := by
    have h := leNat_lt D
    rw [hD] at h
    exact h
  have hnat := congrArg UInt32.toNat h
  rw [UInt32.toNat_ofNat_of_lt' (hlt C hC), UInt32.toNat_ofNat_of_lt' (hlt C' hC')] at hnat
  exact leNat_inj (hC.trans hC'.symm) hnat

/-- A string of at least `n` bytes, cut at `n`. -/
theorem exists_cut (bs : Bytes) {n : Nat} (h : n ≤ bs.length) :
    ∃ pre post, bs = pre ++ post ∧ pre.length = n :=
  ⟨bs.take n, bs.drop n, (List.take_append_drop n bs).symm, by rw [List.length_take]; omega⟩

theorem ByteChanged.not_sumFits {data data' : Bytes} (hlen : data.length = 512)
    (h : ByteChanged data data') (hfit : SumFits data) : ¬ SumFits data' := by
  obtain ⟨pre, a, b, post, hne, rfl, rfl⟩ := h
  intro hfit'
  simp only [List.length_append, List.length_cons] at hlen
  by_cases hpre : pre.length < 508
  · -- in the payload: the sum changes, the stored word does not
    obtain ⟨q, C, rfl, hq⟩ := exists_cut post (n := 507 - pre.length) (by omega)
    have hC : C.length = 4 := by
      rw [List.length_append] at hlen
      omega
    have hsplit (x : UInt8) : pre ++ x :: (q ++ C) = (pre ++ x :: q) ++ C := by simp
    have hP (x : UInt8) : (pre ++ x :: q).length = 508 := by
      simp only [List.length_append, List.length_cons]
      omega
    rw [hsplit, sumFits_append (hP _) hC] at hfit hfit'
    exact hne (rollingSum_byte_inj inverse_31 (hfit.trans hfit'.symm))
  · -- in the stored word: the other way round
    obtain ⟨P, r, rfl, hP⟩ := exists_cut pre (n := 508) (by omega)
    rw [List.length_append] at hlen
    have hC (x : UInt8) : (r ++ x :: post).length = 4 := by
      simp only [List.length_append, List.length_cons]
      omega
    rw [List.append_assoc, sumFits_append hP (hC _)] at hfit hfit'
    have hsame := stored_inj (hC a) (hC b) (hfit.symm.trans hfit')
    rw [List.append_cancel_left_eq, List.cons.injEq] at hsame
    exact hne hsame.1

/-- Two bytes that differ do so after doubling. -/
theorem double_diff {c : UInt32} {k : Nat} {a b : UInt8}
    (h : c + a.toUInt32 = UInt32.ofNat (b.toNat + k))
    (h' : c + b.toUInt32 = UInt32.ofNat (a.toNat + k)) : a = b := by
  have hcast (x : UInt8) : UInt32.ofNat (x.toNat + k) = x.toUInt32 + UInt32.ofNat k := by
    rw [UInt32.ofNat_add, UInt32.ofNat_uInt8ToNat]
  rw [hcast] at h h'
  apply byte_mul_inj (n := 2) (by decide) (by decide)
  grind

theorem Swapped.not_sumFits {data data' : Bytes} (hlen : data.length = 512)
    (h : Swapped data data') (hfit : SumFits data) : ¬ SumFits data' := by
  obtain ⟨pre, a, b, post, hne, rfl, rfl⟩ := h
  intro hfit'
  simp only [List.length_append, List.length_cons] at hlen
  rcases Nat.lt_trichotomy pre.length 507 with hpre | hpre | hpre
  · -- both in the payload
    obtain ⟨q, C, rfl, hq⟩ := exists_cut post (n := 506 - pre.length) (by omega)
    have hC : C.length = 4 := by
      rw [List.length_append] at hlen
      omega
    have hsplit (x y : UInt8) : pre ++ x :: y :: (q ++ C) = (pre ++ x :: y :: q) ++ C := by simp
    have hP (x y : UInt8) : (pre ++ x :: y :: q).length = 508 := by
      simp only [List.length_append, List.length_cons]
      omega
    rw [hsplit, sumFits_append (hP _ _) hC] at hfit hfit'
    exact hne (rollingSum_swap_inj inverse_31 (by decide) (by decide) (hfit.trans hfit'.symm))
  · -- the last byte of the payload and the first of the stored word
    have hsplit (x y : UInt8) : pre ++ x :: y :: post = (pre ++ [x]) ++ y :: post := by simp
    have hP (x : UInt8) : (pre ++ [x]).length = 508 := by
      simp only [List.length_append, List.length_cons, List.length_nil]
      omega
    have hC (x : UInt8) : (x :: post).length = 4 := by
      simp only [List.length_cons]
      omega
    rw [hsplit, sumFits_append (hP _) (hC _), checksum_eq_rollingSum, rollingSum_append, leNat]
      at hfit hfit'
    exact hne (double_diff hfit hfit')
  · -- both in the stored word
    obtain ⟨P, r, rfl, hP⟩ := exists_cut pre (n := 508) (by omega)
    rw [List.length_append] at hlen
    have hC (x y : UInt8) : (r ++ x :: y :: post).length = 4 := by
      simp only [List.length_append, List.length_cons]
      omega
    rw [List.append_assoc, sumFits_append hP (hC _ _)] at hfit hfit'
    have hsame := stored_inj (hC a b) (hC b a) (hfit.symm.trans hfit')
    rw [List.append_cancel_left_eq, List.cons.injEq] at hsame
    exact hne hsame.1

/-! ## The other checks -/

/-- Where `decode_merge` says no, nothing was merged. -/
theorem decode_merge_rejected {s₀ : DeviceSettings} {data : Bytes}
    (h : (decode_merge s₀ data).1 = false) : decode_merge s₀ data = (false, s₀) := by
  unfold decode_merge decode_v2 decode_v1_display_only at h ⊢
  split_ifs at h ⊢ <;> rfl

/-- A block whose checksum does not fit is not taken as `EVS2`, and one that is
not of the older version is not taken as `EVS1`. -/
theorem decode_merge_of_not_sumFits (s₀ : DeviceSettings) {data : Bytes} (hfit : ¬ SumFits data)
    (hv1 : data.take 4 = MAGIC_V1 → byteAt data 4 ≠ VERSION_V1) :
    decode_merge s₀ data = (false, s₀) := by
  unfold decode_merge
  by_cases hmagic : data.length ≥ 4 ∧ data.take 4 = MAGIC_V2
  · rw [if_pos hmagic]
    unfold decode_v2
    split_ifs
    · rfl
    · rfl
    · rfl
    · rfl
    · next h => exact absurd (not_not.mp h) hfit
  · rw [if_neg hmagic]
    unfold decode_v1_display_only
    split_ifs
    · rfl
    · rfl
    · rfl
    · rfl
    · next hm hv _ => exact absurd (not_not.mp hv) (hv1 (not_not.mp hm))

/-- The byte at the place of a change. -/
theorem byteAt_here (pre : Bytes) (x : UInt8) (post : Bytes) :
    byteAt (pre ++ x :: post) pre.length = x := byteAt_append_add pre (x :: post) 0

/-- The bytes elsewhere. -/
theorem byteAt_elsewhere {pre post : Bytes} {i : Nat} (x y : UInt8) (h : i ≠ pre.length) :
    byteAt (pre ++ x :: post) i = byteAt (pre ++ y :: post) i := by
  unfold byteAt
  rw [List.getD_eq_getElem?_getD, List.getD_eq_getElem?_getD]
  rcases Nat.lt_or_gt_of_ne h with hlt | hgt
  · rw [List.getElem?_append_left hlt, List.getElem?_append_left hlt]
  · obtain ⟨j, rfl⟩ : ∃ j, i = pre.length + (j + 1) := ⟨i - pre.length - 1, by omega⟩
    rw [List.getElem?_append_right (by omega), List.getElem?_append_right (by omega),
      Nat.add_sub_cancel_left, List.getElem?_cons_succ, List.getElem?_cons_succ]

/-- The bytes of a block around the version. -/
theorem byteAt_encode_version (s : DeviceSettings) :
    byteAt (encode s).toList 2 = 83 ∧ byteAt (encode s).toList 3 = 50
    ∧ byteAt (encode s).toList 4 = 2 := by
  have hmagic := take_four_encode s
  rw [take_four (by rw [length_block]; omega)] at hmagic
  have hver : byteAt (encode s).toList 4 = VERSION_V2 :=
    byteAt_encode_one (by simp [payload_writes]) (by omega)
  injection hmagic with _ hmagic
  injection hmagic with _ hmagic
  injection hmagic with h2 hmagic
  injection hmagic with h3 _
  exact ⟨h2, h3, hver⟩

/-- A blob of the older format has the digit `1` where a block has a `2`. -/
theorem byteAt_three_of_v1 {data : Bytes} (h : data.take 4 = MAGIC_V1) : byteAt data 3 = 49 := by
  have hlen : 4 ≤ data.length := by
    have h4 := congrArg List.length h
    rw [List.length_take] at h4
    change min 4 data.length = 4 at h4
    omega
  rw [take_four hlen] at h
  injection h with _ h
  injection h with _ h
  injection h with _ h
  injection h with h3 _

/-- A changed byte cannot turn the magic and the version into older ones at once. -/
theorem ByteChanged.not_v1 {s : DeviceSettings} {data' : Bytes}
    (h : ByteChanged (encode s).toList data') (hv1 : data'.take 4 = MAGIC_V1) :
    byteAt data' 4 ≠ VERSION_V1 := by
  obtain ⟨pre, a, b, post, _, hdata, rfl⟩ := h
  obtain ⟨_, h3, h4⟩ := byteAt_encode_version s
  rw [hdata] at h3 h4
  have hdigit := byteAt_three_of_v1 hv1
  by_cases hpre : pre.length = 3
  · rw [byteAt_elsewhere b a (by omega), h4]
    decide
  · rw [byteAt_elsewhere b a (by omega), h3] at hdigit
    cases hdigit

/-- Nor can a swap: the digit it would need is not beside the old one. -/
theorem Swapped.not_v1 {s : DeviceSettings} {data' : Bytes}
    (h : Swapped (encode s).toList data') : data'.take 4 ≠ MAGIC_V1 := by
  obtain ⟨pre, a, b, post, _, hdata, rfl⟩ := h
  obtain ⟨h2, h3, h4⟩ := byteAt_encode_version s
  intro hv1
  have hdigit := byteAt_three_of_v1 hv1
  have hsecond (x y : UInt8) : pre ++ x :: y :: post = (pre ++ [x]) ++ y :: post := by simp
  have hlen (x : UInt8) : (pre ++ [x]).length = pre.length + 1 := by simp
  rw [hdata] at h2 h3 h4
  by_cases hpre3 : pre.length = 3
  · rw [← hpre3, byteAt_here] at hdigit
    rw [hsecond, show 4 = (pre ++ [a]).length by rw [hlen]; omega, byteAt_here, hdigit] at h4
    cases h4
  by_cases hpre2 : pre.length = 2
  · rw [hsecond, show 3 = (pre ++ [b]).length by rw [hlen]; omega, byteAt_here] at hdigit
    rw [← hpre2, byteAt_here, hdigit] at h2
    cases h2
  -- the swap is elsewhere
  have hsame : byteAt (pre ++ b :: a :: post) 3 = byteAt (pre ++ a :: b :: post) 3 := by
    rw [byteAt_elsewhere b a (by omega), hsecond, hsecond,
      byteAt_elsewhere a b (by rw [hlen]; omega)]
  rw [hsame, h3] at hdigit
  cases hdigit

/-- A block fits its checksum. -/
theorem sumFits_encode (s : DeviceSettings) : SumFits (encode s).toList := by
  unfold SumFits
  rw [toList_encode, ← length_payload s, List.take_left, u32_le_at_leBytes]

/-- **Damaged settings are rejected, and nothing is merged.** For every settings
and every block made from theirs by changing one byte or swapping two unequal
neighbours, anywhere, `decode_merge` says no and leaves the settings it was
given; and whatever it says no to, it leaves them. -/
theorem corrupted_settings_rejected :
    (∀ (s s₀ : DeviceSettings) (data' : Bytes),
      ByteChanged (encode s).toList data' ∨ Swapped (encode s).toList data' →
        decode_merge s₀ data' = (false, s₀))
    ∧ ∀ (s₀ : DeviceSettings) (data : Bytes),
        (decode_merge s₀ data).1 = false → (decode_merge s₀ data).2 = s₀ := by
  refine ⟨?_, ?_⟩
  · intro s s₀ data' h
    have hlen := length_block (encode s)
    rcases h with h | h
    · exact decode_merge_of_not_sumFits s₀ (h.not_sumFits hlen (sumFits_encode s)) h.not_v1
    · refine decode_merge_of_not_sumFits s₀ (h.not_sumFits hlen (sumFits_encode s)) ?_
      intro hv1
      exact absurd hv1 h.not_v1
  · intro s₀ data h
    rw [decode_merge_rejected h]

/-- The block of a fresh device with its first byte overwritten. -/
theorem fresh_block_damaged :
    ByteChanged (encode .new).toList ((encode .new).toList.set 0 0)
    ∧ decode_merge .new ((encode .new).toList.set 0 0) = (false, .new) := by
  have h : ByteChanged (encode .new).toList ((encode .new).toList.set 0 0) := by
    have hmagic := take_four_encode .new
    cases hdata : (encode .new).toList with
    | nil => rw [hdata] at hmagic; cases hmagic
    | cons a post =>
      rw [hdata] at hmagic
      refine ⟨[], a, 0, post, ?_, rfl, rfl⟩
      have ha : a = 69 := (List.cons.inj hmagic).1
      rw [ha]
      decide
  exact ⟨h, corrupted_settings_rejected.1 .new .new _ (Or.inl h)⟩

end EveOS.Settings
