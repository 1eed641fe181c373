/-
The GPT patch keeps the disk valid.

The disk is seen here as one long string of bytes (`diskByte`), which is how
the two checksums of a GPT header see it. `crc_partition_bytes` goes through the
entry array sector by sector and computes the checksum of that string
(`crc_partition_bytes_eq`). The patch then is two changes of the string: one
byte of the entry array, and the two checksum words of the header.
-/
import EveOS.Disk.GptPatch

set_option autoImplicit false

namespace EveOS.Disk

/-! ## The disk as a string -/

/-- Byte `i` of the disk. -/
def diskByte (blk : VirtioBlk) (i : Nat) : UInt8 := byteAt (blk.sectors (i / 512)).toList (i % 512)

/-- The `len` bytes from `off` on. -/
def diskBytes (blk : VirtioBlk) (off len : Nat) : Bytes :=
  (List.range len).map fun k => diskByte blk (off + k)

theorem diskBytes_add (blk : VirtioBlk) (off m k : Nat) :
    diskBytes blk off (m + k) = diskBytes blk off m ++ diskBytes blk (off + m) k := by
  simp only [diskBytes, List.range_add, List.map_append, List.map_map]
  congr 1
  apply List.map_congr_left
  intro j _
  rw [Function.comp_apply, Nat.add_assoc]

/-- A slice of a sector, as a piece of the disk. -/
theorem slice_sector (blk : VirtioBlk) (lba o len : Nat) (h : o + len ≤ 512) :
    slice (blk.sectors lba).toList o (o + len) = diskBytes blk (512 * lba + o) len := by
  rw [slice_eq_map (by simpa using h), Nat.add_sub_cancel_left]
  apply List.map_congr_left
  intro k hk
  rw [List.mem_range] at hk
  unfold diskByte
  rw [show (512 * lba + o + k) / 512 = lba by omega, show (512 * lba + o + k) % 512 = o + k by omega]

/-- Byte `i` of the disk after a write of one sector. -/
theorem diskByte_update (blk : VirtioBlk) (lba : Nat) (data : Sector) (i : Nat) :
    diskByte { blk with sectors := Function.update blk.sectors lba data } i =
      if i / 512 = lba then byteAt data.toList (i % 512) else diskByte blk i := by
  unfold diskByte
  by_cases h : i / 512 = lba
  · rw [if_pos h, h]
    simp
  · rw [if_neg h]
    simp [Function.update_of_ne h]

/-! ## The checksums -/

/-- The CRC-32 of a string. -/
def crc32 (data : Bytes) : UInt32 := crc32_finish (crc32_update 0xFFFFFFFF data)

theorem crc32_update_append (crc : UInt32) (xs ys : Bytes) :
    crc32_update crc (xs ++ ys) = crc32_update (crc32_update crc xs) ys := by
  simp only [crc32_update, List.foldl_append]

/-- The loop over the sectors sums up the rest of the entry array. -/
theorem crc_partition_loop_eq {blk : VirtioBlk} {lba total : Nat} {crc : UInt32} {pos : Nat}
    {v : UInt32} (hpos : pos ≤ total) (h : crc_partition_loop blk lba total crc pos = some v) :
    v = crc32_finish (crc32_update crc (diskBytes blk (512 * lba + pos) (total - pos))) := by
  fun_induction crc_partition_loop blk lba total crc pos with
  | case1 crc pos hlt hread => cases h
  | case2 crc pos hlt buf hread o chunk ih =>
    have hchunk : chunk ≤ 512 - o ∧ chunk ≤ total - pos ∧ o < 512 := by
      simp only [chunk, o]
      omega
    have hbuf : buf = blk.sectors (lba + pos / 512) := by
      unfold VirtioBlk.read_sector at hread
      split_ifs at hread
      exact (Option.some.inj hread).symm
    have hpiece : slice buf.toList o (o + chunk) = diskBytes blk (512 * lba + pos) chunk := by
      rw [hbuf, slice_sector _ _ _ _ (by omega)]
      congr 1
      simp only [o]
      omega
    rw [ih (by omega) h, hpiece, ← crc32_update_append,
      ← Nat.add_assoc (512 * lba), ← diskBytes_add]
    congr 3
    omega
  | case3 crc pos hge =>
    have hrest : total - pos = 0 := by omega
    rw [hrest]
    exact (Option.some.inj h).symm

/-- `crc_partition_bytes` is the checksum of the entry array. -/
theorem crc_partition_bytes_eq {blk : VirtioBlk} {lba total : Nat} {v : UInt32}
    (h : crc_partition_bytes blk lba total = some v) :
    v = crc32 (diskBytes blk (512 * lba) total) := by
  unfold crc_partition_bytes at h
  have hv := crc_partition_loop_eq (Nat.zero_le total) h
  rw [Nat.add_zero, Nat.sub_zero] at hv
  rw [hv, crc32]

/-! ## The header -/

/-- The 32-bit word at `off`. -/
def u32_at (hdr : Sector) (off : Nat) : Nat := leNat (slice hdr.toList off (off + 4))

/-- The 64-bit word at `off`. -/
def u64_at (hdr : Sector) (off : Nat) : Nat := leNat (slice hdr.toList off (off + 8))

namespace Header

def size (hdr : Sector) : Nat := u32_at hdr 0x0C
def crc (hdr : Sector) : Nat := u32_at hdr 0x10
def entry_lba (hdr : Sector) : Nat := u64_at hdr 0x48
def num_entries (hdr : Sector) : Nat := u32_at hdr 0x50
def entry_size (hdr : Sector) : Nat := u32_at hdr 0x54
def entries_crc (hdr : Sector) : Nat := u32_at hdr 0x58

/-- The length of the entry array. -/
def total_bytes (hdr : Sector) : Nat := num_entries hdr * entry_size hdr

end Header

/-- The header checksum is over the header with that checksum cleared. -/
def HeaderCrcValid (hdr : Sector) : Prop :=
  Header.crc hdr = (crc32 ((patch hdr 0x10 [0, 0, 0, 0]).toList.take (Header.size hdr))).toNat

/-- The entry array checksum is over the array the header points to. -/
def EntriesCrcValid (blk : VirtioBlk) : Prop :=
  Header.entries_crc (blk.sectors 1) =
    (crc32 (diskBytes blk (512 * Header.entry_lba (blk.sectors 1))
      (Header.total_bytes (blk.sectors 1)))).toNat

/-- A disk with a valid primary GPT. -/
structure PrimaryGpt (blk : VirtioBlk) : Prop where
  signature : (blk.sectors 1).toList.take 8 = SIG_EFI_PART
  size_ge : 92 ≤ Header.size (blk.sectors 1)
  size_le : Header.size (blk.sectors 1) ≤ 128
  header_crc : HeaderCrcValid (blk.sectors 1)
  entries_crc : EntriesCrcValid blk
  /-- The entry array covers neither LBA 0 nor LBA 1. -/
  entries_apart : ∀ k < Header.total_bytes (blk.sectors 1),
    2 ≤ Header.entry_lba (blk.sectors 1) + k / 512

/-! ## What the patch writes -/

/-- The first entry with its new attributes. -/
def patched_entry (ent : Sector) : Sector := write_u64_le ent 48 (UInt64.ofNat (u64_at ent 48 ||| 5))

/-- The header with a new checksum of the entry array, and its own. -/
def patched_header (hdr : Sector) (part_crc : UInt32) : Sector :=
  let hdr := patch hdr 0x58 (leBytes 4 part_crc.toNat)
  let hc := crc32 ((patch hdr 0x10 [0, 0, 0, 0]).toList.take (Header.size hdr))
  patch hdr 0x10 (leBytes 4 hc.toNat)

theorem leNat_slice_lt (buf : Bytes) (off k : Nat) : leNat (slice buf off (off + k)) < 256 ^ k := by
  have h := leNat_lt (slice buf off (off + k))
  refine Nat.lt_of_lt_of_le h (Nat.pow_le_pow_right (by decide) ?_)
  simp only [slice, List.length_take]
  omega

theorem read_u32_le_sector (hdr : Sector) (off : Nat) (h : off + 4 ≤ 512) :
    ∃ v : UInt32, read_u32_le hdr.toList off = some v ∧ v.toNat = u32_at hdr off := by
  refine ⟨UInt32.ofNat (u32_at hdr off), ?_, ?_⟩
  · rw [read_u32_le, if_pos (by simpa using h)]
    rfl
  · exact UInt32.toNat_ofNat_of_lt' (leNat_slice_lt _ off 4)

theorem read_u64_le_sector (hdr : Sector) (off : Nat) (h : off + 8 ≤ 512) :
    ∃ v : UInt64, read_u64_le hdr.toList off = some v ∧ v.toNat = u64_at hdr off := by
  refine ⟨UInt64.ofNat (u64_at hdr off), ?_, ?_⟩
  · rw [read_u64_le, if_pos (by simpa using h)]
    rfl
  · exact UInt64.toNat_ofNat_of_lt' (leNat_slice_lt _ off 8)

/-- The disk with one sector replaced. -/
def VirtioBlk.set (blk : VirtioBlk) (lba : Nat) (data : Sector) : VirtioBlk :=
  { blk with sectors := Function.update blk.sectors lba data }

theorem sectors_set_self (blk : VirtioBlk) (lba : Nat) (data : Sector) : (blk.set lba data).sectors lba = data := by
  simp only [VirtioBlk.set, Function.update_self]

theorem read_sector_eq {blk : VirtioBlk} {lba : Nat} {buf : Sector}
    (h : blk.read_sector lba = some buf) : buf = blk.sectors lba := by
  unfold VirtioBlk.read_sector at h
  split_ifs at h
  exact (Option.some.inj h).symm

theorem write_sector_true {blk blk' : VirtioBlk} {lba : Nat} {data : Sector}
    (h : blk.write_sector lba data = (true, blk')) : blk' = blk.set lba data := by
  unfold VirtioBlk.write_sector at h
  split_ifs at h
  · cases h
  · exact (Prod.mk.inj h).2.symm

/-- Words away from a write keep their value. -/
theorem u32_at_patch {hdr : Sector} {off o : Nat} {bs : Bytes} (ho : o + 4 ≤ 512)
    (h : o + 4 ≤ off ∨ off + bs.length ≤ o) : u32_at (patch hdr off bs) o = u32_at hdr o := by
  rw [u32_at, u32_at, slice_patch_of_apart hdr ho h]

theorem u64_at_patch {hdr : Sector} {off o : Nat} {bs : Bytes} (ho : o + 8 ≤ 512)
    (h : o + 8 ≤ off ∨ off + bs.length ≤ o) : u64_at (patch hdr off bs) o = u64_at hdr o := by
  rw [u64_at, u64_at, slice_patch_of_apart hdr ho h]

/-- A word that was written is read back. -/
theorem u32_at_write (hdr : Sector) {off : Nat} (v : UInt32) (ho : off + 4 ≤ 512) :
    u32_at (patch hdr off (leBytes 4 v.toNat)) off = v.toNat := by
  have hslice := slice_patch hdr off (leBytes 4 v.toNat) (by rwa [length_leBytes])
  rw [length_leBytes] at hslice
  rw [u32_at, hslice, leNat_leBytes_u32]

/-- What is written where `rewrite_header` succeeds. -/
theorem rewrite_header_true {blk blk' : VirtioBlk} {hdr_size lba total : Nat}
    (hsize : hdr_size = Header.size (blk.sectors 1))
    (h : rewrite_header blk hdr_size lba total = (true, blk')) :
    blk' = blk.set 1
      (patched_header (blk.sectors 1) (crc32 (diskBytes blk (512 * lba) total))) := by
  have hwrite (buf : Sector) (off : Nat) (v : UInt32) (hoff : off + 4 ≤ 512) :
      write_u32_le buf off v = patch buf off (leBytes 4 v.toNat) := if_pos hoff
  unfold rewrite_header at h
  split at h
  · cases h
  next part_crc hcrc =>
    split at h
    · cases h
    next hdr hread =>
      dsimp only at h
      split_ifs at h with hbig
      · cases h
      have hkeep : Header.size (patch hdr 0x58 (leBytes 4 part_crc.toNat)) = hdr_size := by
        rw [hsize, ← read_sector_eq hread]
        exact u32_at_patch (by omega) (by omega)
      rw [write_sector_true h, hwrite _ _ _ (by omega), hwrite _ _ _ (by omega),
        hwrite _ _ _ (by omega), patch_patch _ _ (by simp), patch_patch _ _ (by simp),
        ← crc_partition_bytes_eq hcrc, ← read_sector_eq hread, patched_header, hkeep]
      rfl

/-- What is written where `try_patch_gpt` succeeds: nothing if the attributes
are there already, else the entry and then the header. -/
theorem try_patch_gpt_true {blk blk' : VirtioBlk}
    (hne : Header.entry_lba (blk.sectors 1) ≠ 1)
    (h : try_patch_gpt blk (blk.sectors 1) = (true, blk')) :
    let lba := Header.entry_lba (blk.sectors 1)
    let ent := blk.sectors lba
    let mid := blk.set lba (patched_entry ent)
    (blk' = blk ∧ u64_at ent 48 ||| 5 = u64_at ent 48)
    ∨ blk' = mid.set 1 (patched_header (blk.sectors 1)
        (crc32 (diskBytes mid (512 * lba) (Header.total_bytes (blk.sectors 1))))) := by
  intro lba ent mid
  obtain ⟨hdr_size, hsize, hsizeN⟩ := read_u32_le_sector (blk.sectors 1) 0x0C (by omega)
  obtain ⟨my_lba, hmy, _⟩ := read_u64_le_sector (blk.sectors 1) 0x18 (by omega)
  obtain ⟨entry_lba, hlba, hlbaN⟩ := read_u64_le_sector (blk.sectors 1) 0x48 (by omega)
  obtain ⟨num_entries, hnum, hnumN⟩ := read_u32_le_sector (blk.sectors 1) 0x50 (by omega)
  obtain ⟨entry_size, hesz, heszN⟩ := read_u32_le_sector (blk.sectors 1) 0x54 (by omega)
  unfold try_patch_gpt at h
  rw [hsize, hmy, hlba, hnum, hesz] at h
  dsimp only at h
  split_ifs at h
  · cases h
  · cases h
  · cases h
  · cases h
  · cases h
  split at h
  · cases h
  next buf hread =>
    have hbuf : buf = ent := by
      rw [read_sector_eq hread, hlbaN]
      rfl
    obtain ⟨cur, hcur, hcurN⟩ := read_u64_le_sector buf 48 (by omega)
    have hor : (cur ||| GPT_ATTR_BOOT_MASK).toNat = u64_at ent 48 ||| 5 := by
      rw [UInt64.toNat_or, hcurN, hbuf]
      rfl
    rw [hcur, Option.getD_some] at h
    split_ifs at h with hzero hset
    · cases h
    · left
      refine ⟨(Prod.mk.inj h).2.symm, ?_⟩
      rw [← hor, hset, hcurN, hbuf]
    · right
      split at h
      · cases h
      next blk₁ hw =>
        have hmid : blk₁ = mid := by
          rw [write_sector_true hw, hlbaN, hbuf]
          have hnew : cur ||| GPT_ATTR_BOOT_MASK = UInt64.ofNat (u64_at ent 48 ||| 5) := by
            rw [← hor, UInt64.ofNat_toNat]
          rw [hnew]
          rfl
        have hhdr : mid.sectors 1 = blk.sectors 1 := Function.update_of_ne (Ne.symm hne) _ _
        subst hmid
        have hfin := rewrite_header_true (by rw [hhdr]; exact hsizeN) h
        rw [hfin, hhdr, hlbaN, hnumN, heszN]
        rfl

/-- A disk `try_patch_gpt` succeeds on has an entry array. -/
theorem total_bytes_pos {blk blk' : VirtioBlk}
    (h : try_patch_gpt blk (blk.sectors 1) = (true, blk')) :
    0 < Header.total_bytes (blk.sectors 1) := by
  obtain ⟨hdr_size, hsize, _⟩ := read_u32_le_sector (blk.sectors 1) 0x0C (by omega)
  obtain ⟨my_lba, hmy, _⟩ := read_u64_le_sector (blk.sectors 1) 0x18 (by omega)
  obtain ⟨entry_lba, hlba, _⟩ := read_u64_le_sector (blk.sectors 1) 0x48 (by omega)
  obtain ⟨num_entries, hnum, hnumN⟩ := read_u32_le_sector (blk.sectors 1) 0x50 (by omega)
  obtain ⟨entry_size, hesz, heszN⟩ := read_u32_le_sector (blk.sectors 1) 0x54 (by omega)
  unfold try_patch_gpt at h
  rw [hsize, hmy, hlba, hnum, hesz] at h
  dsimp only at h
  by_cases hshape : num_entries = 0 ∨ entry_size < 128 ∨ entry_size > 4096
  · rw [if_pos hshape] at h
    split_ifs at h <;> cases h
  · rw [not_or, not_or] at hshape
    have hnum0 : num_entries.toNat ≠ 0 := by
      intro h0
      exact hshape.1 (UInt32.toNat_inj.mp h0)
    have hesz0 : 128 ≤ entry_size.toNat := by
      have hnot := hshape.2.1
      rw [UInt32.lt_iff_toNat_lt] at hnot
      exact Nat.not_lt.mp hnot
    change 0 < u32_at (blk.sectors 1) 0x50 * u32_at (blk.sectors 1) 0x54
    rw [← hnumN, ← heszN]
    exact Nat.mul_pos (Nat.pos_of_ne_zero hnum0) (by omega)

/-! ## The entry -/

/-- The eight attribute bytes, one by one. -/
theorem slice_attributes (ent : Sector) :
    slice ent.toList 48 (48 + 8) = byteAt ent.toList 48 :: slice ent.toList 49 (49 + 7) := by
  rw [slice_eq_map (by simp), slice_eq_map (by simp)]
  rfl

/-- The new attributes are written as one changed byte. -/
theorem patched_entry_eq (ent : Sector) :
    patched_entry ent =
      patch ent 48 ((byteAt ent.toList 48 ||| 5) :: slice ent.toList 49 (49 + 7)) := by
  have hrest : (slice ent.toList 49 (49 + 7)).length = 7 := by
    simp [slice]
  have hattrs : u64_at ent 48 ||| 5 =
      leNat ((byteAt ent.toList 48 ||| 5) :: slice ent.toList 49 (49 + 7)) := by
    rw [u64_at, slice_attributes]
    exact leNat_cons_lor _ 5 _
  have hlt := leNat_lt ((byteAt ent.toList 48 ||| 5) :: slice ent.toList 49 (49 + 7))
  rw [List.length_cons, hrest] at hlt
  have hback := leBytes_leNat ((byteAt ent.toList 48 ||| 5) :: slice ent.toList 49 (49 + 7))
  rw [List.length_cons, hrest] at hback
  rw [patched_entry, write_u64_le, if_pos (by omega), hattrs, UInt64.toNat_ofNat_of_lt' hlt, hback]

theorem byteAt_patched_entry (ent : Sector) (j : Nat) (hj : j < 512) :
    byteAt (patched_entry ent).toList j =
      if j = 48 then byteAt ent.toList j ||| 5 else byteAt ent.toList j := by
  have hrest : (slice ent.toList 49 (49 + 7)).length = 7 := by
    simp [slice]
  rw [patched_entry_eq, byteAt_patch _ _ _ _ hj, List.length_cons, hrest]
  by_cases h48 : j = 48
  · subst h48
    rw [if_pos (by omega), if_pos rfl]
    rfl
  · rw [if_neg h48]
    split_ifs with hcov
    · -- the attribute bytes behind the first are as they were
      obtain ⟨k, rfl⟩ : ∃ k, j = 48 + (k + 1) := ⟨j - 49, by omega⟩
      rw [Nat.add_sub_cancel_left, slice_eq_map (by simp)]
      simp only [byteAt, List.getD_cons_succ]
      rw [List.getD_eq_getElem?_getD, List.getElem?_map, List.getElem?_range (by omega)]
      simp only [Option.map_some, Option.getD_some]
      congr 1
      omega
    · rfl

/-! ## The header -/

section PatchedHeader

variable (hdr : Sector) (part_crc : UInt32)

theorem size_patched_header : Header.size (patched_header hdr part_crc) = Header.size hdr := by
  unfold patched_header Header.size
  rw [u32_at_patch (by omega) (by simp), u32_at_patch (by omega) (by simp)]

theorem entry_lba_patched_header :
    Header.entry_lba (patched_header hdr part_crc) = Header.entry_lba hdr := by
  unfold patched_header Header.entry_lba
  rw [u64_at_patch (by omega) (by simp), u64_at_patch (by omega) (by simp)]

theorem total_bytes_patched_header :
    Header.total_bytes (patched_header hdr part_crc) = Header.total_bytes hdr := by
  unfold patched_header Header.total_bytes Header.num_entries Header.entry_size
  rw [u32_at_patch (by omega) (by simp), u32_at_patch (by omega) (by simp),
    u32_at_patch (by omega) (by simp), u32_at_patch (by omega) (by simp)]

theorem entries_crc_patched_header :
    Header.entries_crc (patched_header hdr part_crc) = part_crc.toNat := by
  unfold patched_header Header.entries_crc
  rw [u32_at_patch (by omega) (by simp), u32_at_write _ _ (by omega)]

/-- The patched header carries its own checksum. -/
theorem headerCrcValid_patched_header : HeaderCrcValid (patched_header hdr part_crc) := by
  have hsize := size_patched_header hdr part_crc
  have hsize₁ : Header.size (patch hdr 0x58 (leBytes 4 part_crc.toNat)) = Header.size hdr :=
    u32_at_patch (by omega) (by simp)
  unfold HeaderCrcValid
  rw [hsize]
  unfold patched_header Header.crc
  rw [u32_at_write _ _ (by omega), patch_patch _ _ (by simp), hsize₁]

theorem byteAt_patched_header {j : Nat} (hj : j < 512) (h10 : ¬ (0x10 ≤ j ∧ j < 0x14))
    (h58 : ¬ (0x58 ≤ j ∧ j < 0x5C)) :
    byteAt (patched_header hdr part_crc).toList j = byteAt hdr.toList j := by
  unfold patched_header
  rw [byteAt_patch _ _ _ _ hj, if_neg (by rw [length_leBytes]; omega), byteAt_patch _ _ _ _ hj,
    if_neg (by rw [length_leBytes]; omega)]

end PatchedHeader

/-! ## The patched disk -/

/-- Byte `i` of the disk is in one of the two checksums of the primary header. -/
def InHeaderCrcs (i : Nat) : Prop :=
  (512 + 0x10 ≤ i ∧ i < 512 + 0x14) ∨ (512 + 0x58 ≤ i ∧ i < 512 + 0x5C)

/-- The attributes of entry 0. -/
def attributes (blk : VirtioBlk) : Nat :=
  leNat (diskBytes blk (512 * Header.entry_lba (blk.sectors 1) + 48) 8)

theorem attributes_eq (blk : VirtioBlk) :
    attributes blk = u64_at (blk.sectors (Header.entry_lba (blk.sectors 1))) 48 := by
  unfold attributes u64_at
  rw [slice_sector _ _ _ _ (by omega)]

/-- Bits 0 and 2 are those of the mask. -/
theorem boot_bits {x : Nat} (h : ∃ y, x = y ||| 5) : x.testBit 0 = true ∧ x.testBit 2 = true := by
  obtain ⟨y, rfl⟩ := h
  rw [Nat.testBit_or, Nat.testBit_or]
  constructor
  · rw [show Nat.testBit 5 0 = true by decide, Bool.or_true]
  · rw [show Nat.testBit 5 2 = true by decide, Bool.or_true]

section PatchedDisk

variable (blk : VirtioBlk) (lba : Nat)

/-- The disk with the new attributes in its first entry. -/
def with_entry : VirtioBlk := blk.set lba (patched_entry (blk.sectors lba))

/-- The disk with the new header as well. -/
def with_header (part_crc : UInt32) : VirtioBlk :=
  (with_entry blk lba).set 1 (patched_header (blk.sectors 1) part_crc)

variable {blk lba} {part_crc : UInt32}

theorem diskByte_with_entry (i : Nat) :
    diskByte (with_entry blk lba) i =
      if i = 512 * lba + 48 then diskByte blk i ||| 5 else diskByte blk i := by
  unfold with_entry VirtioBlk.set
  rw [diskByte_update]
  by_cases hi : i / 512 = lba
  · rw [if_pos hi, byteAt_patched_entry _ _ (Nat.mod_lt _ (by omega)), ← hi]
    by_cases h48 : i % 512 = 48
    · rw [if_pos h48, if_pos (by omega)]
      rfl
    · rw [if_neg h48, if_neg (by omega)]
      rfl
  · rw [if_neg hi, if_neg (by omega)]

theorem diskByte_with_header {i : Nat} (hi : ¬ InHeaderCrcs i) (hlba : lba ≠ 1) :
    diskByte (with_header blk lba part_crc) i = diskByte (with_entry blk lba) i := by
  unfold InHeaderCrcs at hi
  unfold with_header VirtioBlk.set
  rw [diskByte_update]
  by_cases h1 : i / 512 = 1
  · rw [if_pos h1, byteAt_patched_header _ _ (Nat.mod_lt _ (by omega)) (by omega) (by omega),
      diskByte_with_entry, if_neg (by omega), diskByte, h1]
  · rw [if_neg h1]

theorem sectors_with_header_one :
    (with_header blk lba part_crc).sectors 1 = patched_header (blk.sectors 1) part_crc := by
  simp only [with_header, VirtioBlk.set, Function.update_self]

theorem sectors_with_header_lba (hlba : lba ≠ 1) :
    (with_header blk lba part_crc).sectors lba = patched_entry (blk.sectors lba) := by
  simp only [with_header, with_entry, VirtioBlk.set, Function.update_self,
    Function.update_of_ne hlba]

end PatchedDisk

/-- The attributes of the patched entry. -/
theorem u64_at_patched_entry (ent : Sector) : u64_at (patched_entry ent) 48 = u64_at ent 48 ||| 5 := by
  have hrest : (slice ent.toList 49 (49 + 7)).length = 7 := by
    simp [slice]
  have hslice := slice_patch ent 48 ((byteAt ent.toList 48 ||| 5) :: slice ent.toList 49 (49 + 7))
    (by rw [List.length_cons, hrest]; omega)
  rw [List.length_cons, hrest] at hslice
  rw [u64_at, patched_entry_eq, hslice, u64_at, slice_attributes]
  exact (leNat_cons_lor _ 5 _).symm

/-- **The GPT patch keeps the disk valid.** On a disk with a valid primary GPT,
where `patch_install_target_boot` returns true, both checksums of the primary
header are valid afterwards, the attributes of entry 0 have the bits 0 and 2,
and outside of the two checksum fields the only byte that differs is the first
attribute byte of entry 0, by these two bits. -/
theorem gpt_patch_keeps_disk_valid {blk blk' : VirtioBlk} (hgpt : PrimaryGpt blk)
    (h : patch_install_target_boot blk = (true, blk')) :
    HeaderCrcValid (blk'.sectors 1)
    ∧ EntriesCrcValid blk'
    ∧ ((attributes blk').testBit 0 = true ∧ (attributes blk').testBit 2 = true)
    ∧ ∀ i, ¬ InHeaderCrcs i → diskByte blk' i = diskByte blk i
        ∨ (i = 512 * Header.entry_lba (blk.sectors 1) + 48
          ∧ diskByte blk' i = diskByte blk i ||| 5) := by
  have hpatch : try_patch_gpt blk (blk.sectors 1) = (true, blk') := by
    unfold patch_install_target_boot at h
    split_ifs at h
    · cases h
    split at h
    · cases h
    next hdr hread =>
      rw [read_sector_eq hread, if_pos hgpt.signature] at h
      exact h
  have hpos := total_bytes_pos hpatch
  have hlba : 2 ≤ Header.entry_lba (blk.sectors 1) := by
    have h0 := hgpt.entries_apart 0 hpos
    omega
  rcases try_patch_gpt_true (by omega) hpatch with ⟨hsame, hset⟩ | hnew
  · -- the attributes are there already, nothing was written
    subst hsame
    refine ⟨hgpt.header_crc, hgpt.entries_crc, boot_bits ⟨attributes blk', ?_⟩, fun i _ => Or.inl rfl⟩
    rw [attributes_eq]
    exact hset.symm
  · obtain ⟨part_crc, hcrc, hblk⟩ : ∃ part_crc,
        part_crc = crc32 (diskBytes (with_entry blk (Header.entry_lba (blk.sectors 1)))
          (512 * Header.entry_lba (blk.sectors 1)) (Header.total_bytes (blk.sectors 1)))
        ∧ blk' = with_header blk (Header.entry_lba (blk.sectors 1)) part_crc := ⟨_, rfl, hnew⟩
    have hhdr : blk'.sectors 1 = patched_header (blk.sectors 1) part_crc := by
      rw [hblk, sectors_with_header_one]
    have hlba' : Header.entry_lba (blk'.sectors 1) = Header.entry_lba (blk.sectors 1) := by
      rw [hhdr, entry_lba_patched_header]
    have hbytes {i : Nat} (hi : ¬ InHeaderCrcs i) :
        diskByte blk' i = diskByte (with_entry blk (Header.entry_lba (blk.sectors 1))) i := by
      rw [hblk, diskByte_with_header hi (by omega)]
    refine ⟨?_, ?_, ?_, ?_⟩
    · rw [hhdr]
      exact headerCrcValid_patched_header _ _
    · -- the entry array is away from the header, so its checksum is still right
      unfold EntriesCrcValid
      rw [hlba', hhdr, entries_crc_patched_header, total_bytes_patched_header, hcrc]
      congr 2
      apply List.map_congr_left
      intro k hk
      have hapart := hgpt.entries_apart k (List.mem_range.mp hk)
      refine (hbytes ?_).symm
      unfold InHeaderCrcs
      omega
    · refine boot_bits ⟨u64_at (blk.sectors (Header.entry_lba (blk.sectors 1))) 48, ?_⟩
      rw [attributes_eq, hlba', hblk, sectors_with_header_lba (by omega), u64_at_patched_entry]
    · intro i hi
      rw [hbytes hi, diskByte_with_entry]
      split_ifs with hattr
      · exact Or.inr ⟨hattr, rfl⟩
      · exact Or.inl rfl

/-! ### A small disk -/

/-- A sector that starts with `bs`. -/
def sector_of (bs : Bytes) (h : bs.length ≤ 512) : Sector :=
  ⟨(bs ++ List.replicate (512 - bs.length) 0).toArray, by simp; omega⟩

/-- A header for one entry of 128 bytes at LBA 2. -/
def small_header : Bytes :=
  SIG_EFI_PART ++ [0, 0, 1, 0] ++ leBytes 4 92 ++ leBytes 4 3364311409 ++ [0, 0, 0, 0]
    ++ leBytes 8 1 ++ List.replicate 40 0 ++ leBytes 8 2 ++ leBytes 4 1 ++ leBytes 4 128
    ++ leBytes 4 4049014702

/-- Four sectors: the header, and an entry without attributes. -/
def small_disk : VirtioBlk :=
  ⟨512, 4, fun lba =>
    if lba = 1 then sector_of small_header (by decide)
    else if lba = 2 then sector_of [1] (by decide)
    else sector_of [] (by decide)⟩

theorem small_entries_crc : crc32 (diskBytes small_disk 1024 128) = 4049014702 := by
  have hbytes : diskBytes small_disk 1024 128 = (1 :: List.replicate 31 0)
      ++ (List.replicate 32 0 ++ (List.replicate 32 0 ++ List.replicate 32 0)) := by decide +kernel
  have h1 : crc32_update 0xFFFFFFFF (1 :: List.replicate 31 0) = 389001208 := by decide +kernel
  have h2 : crc32_update 389001208 (List.replicate 32 0) = 88584540 := by decide +kernel
  have h3 : crc32_update 88584540 (List.replicate 32 0) = 2584549267 := by decide +kernel
  have h4 : crc32_update 2584549267 (List.replicate 32 0) = 245952593 := by decide +kernel
  rw [crc32, hbytes, crc32_update_append, crc32_update_append, crc32_update_append, h1, h2, h3, h4]
  decide

theorem small_header_crc :
    crc32 ((patch (small_disk.sectors 1) 0x10 [0, 0, 0, 0]).toList.take 92) = 3364311409 := by
  have hbytes : (patch (small_disk.sectors 1) 0x10 [0, 0, 0, 0]).toList.take 92 =
      (SIG_EFI_PART ++ [0, 0, 1, 0, 92, 0, 0, 0] ++ leBytes 8 0 ++ leBytes 8 1)
      ++ (List.replicate 32 0
      ++ (leBytes 8 0 ++ leBytes 8 2 ++ leBytes 4 1 ++ leBytes 4 128 ++ leBytes 4 4049014702)) := by
    decide +kernel
  have h1 : crc32_update 0xFFFFFFFF
      (SIG_EFI_PART ++ [0, 0, 1, 0, 92, 0, 0, 0] ++ leBytes 8 0 ++ leBytes 8 1) = 4102006339 := by
    decide +kernel
  have h2 : crc32_update 4102006339 (List.replicate 32 0) = 463608200 := by decide +kernel
  have h3 : crc32_update 463608200
      (leBytes 8 0 ++ leBytes 8 2 ++ leBytes 4 1 ++ leBytes 4 128 ++ leBytes 4 4049014702)
        = 930655886 := by
    decide +kernel
  rw [crc32, hbytes, crc32_update_append, crc32_update_append, h1, h2, h3]
  decide

theorem primaryGpt_small_disk : PrimaryGpt small_disk := by
  have hsize : Header.size (small_disk.sectors 1) = 92 := by decide
  have hlba : Header.entry_lba (small_disk.sectors 1) = 2 := by decide
  have htotal : Header.total_bytes (small_disk.sectors 1) = 128 := by decide
  constructor
  · decide
  · exact Nat.le_of_eq hsize.symm
  · rw [hsize]
    omega
  · unfold HeaderCrcValid
    rw [hsize, small_header_crc]
    decide
  · unfold EntriesCrcValid
    rw [hlba, htotal, small_entries_crc]
    decide
  · rw [hlba]
    omega

theorem small_disk_is_patched :
    ∃ blk', patch_install_target_boot small_disk = (true, blk')
      ∧ (attributes blk').testBit 0 = true := by
  have htrue : (patch_install_target_boot small_disk).1 = true := by decide +kernel
  obtain ⟨blk', hblk⟩ : ∃ blk', patch_install_target_boot small_disk = (true, blk') := by
    cases hx : patch_install_target_boot small_disk with
    | mk ok blk' =>
      rw [hx] at htrue
      exact ⟨blk', congrArg (·, blk') htrue⟩
  exact ⟨blk', hblk, (gpt_patch_keeps_disk_valid primaryGpt_small_disk hblk).2.2.1.1⟩

end EveOS.Disk
