/-
A patch that fails: `try_patch_gpt` of `kernel/src/gpt_boot_patch.rs`.

The entry is written before the last check of the header is made, that the header fits
a scratch buffer of 128 bytes. A longer header is refused then, with a new entry on the
disk under the old checksums. No other refusal comes behind a write, as long as the disk
grants what is asked of it.
-/
import EveOS.Disk.GptValid

set_option autoImplicit false

namespace EveOS.Disk

/-- The checks before the entries are read. -/
structure HeaderPasses (hdr : Sector) : Prop where
  signature : hdr.toList.take 8 = SIG_EFI_PART
  size_ge : 92 ≤ Header.size hdr
  size_le : Header.size hdr ≤ 512
  my_lba : u64_at hdr 0x18 = 1
  entries : Header.num_entries hdr ≠ 0
  entry_size_ge : 128 ≤ Header.entry_size hdr
  entry_size_le : Header.entry_size hdr ≤ 4096
  total : Header.total_bytes hdr ≤ 2 * 1024 * 1024

/-- The sector of the first entry. -/
def first_entry (blk : VirtioBlk) : Sector := blk.sectors (Header.entry_lba (blk.sectors 1))

/-- The first entry is in use, and lacks an attribute. -/
def NeedsPatch (ent : Sector) : Prop :=
  ¬ (ent.toList.take 16).all (· == 0) = true ∧ u64_at ent 48 ||| 5 ≠ u64_at ent 48

/-- Every sector the patch asks for is one of the disk. -/
structure RequestsSucceed (blk : VirtioBlk) : Prop where
  header : 1 < blk.capacity
  entry : HeaderPasses (blk.sectors 1) → Header.entry_lba (blk.sectors 1) < blk.capacity
  array : HeaderPasses (blk.sectors 1) → NeedsPatch (first_entry blk) →
    ∀ k < Header.total_bytes (blk.sectors 1), Header.entry_lba (blk.sectors 1) + k / 512 < blk.capacity

/-- What the last check refuses, behind the write of the entry. -/
structure LateRefusal (blk : VirtioBlk) : Prop where
  passes : HeaderPasses (blk.sectors 1)
  size_gt : 128 < Header.size (blk.sectors 1)
  needs : NeedsPatch (first_entry blk)

section Requests

variable {blk : VirtioBlk} {lba : Nat}

theorem read_sector_some (h : lba < blk.capacity) : blk.read_sector lba = some (blk.sectors lba) :=
  if_neg (Nat.not_le.mpr h)

theorem write_sector_some (h : lba < blk.capacity) (data : Sector) : blk.write_sector lba data = (true, blk.set lba data) :=
  if_neg (Nat.not_le.mpr h)

/-- The checksum of an array that is all on the disk. -/
theorem crc_partition_some {total : Nat} {crc : UInt32} {pos : Nat} (h : ∀ k < total, lba + k / 512 < blk.capacity) :
    ∃ v, crc_partition_loop blk lba total crc pos = some v := by
  fun_induction crc_partition_loop blk lba total crc pos with
  | case1 crc pos hpos hread =>
    rw [read_sector_some (h pos hpos)] at hread
    cases hread
  | case2 crc pos hpos buf hread o chunk ih => exact ih
  | case3 crc pos hpos => exact ⟨_, rfl⟩

end Requests

/-! ## The ways a patch ends -/

section Outcomes

variable {blk : VirtioBlk}

/-- What `rewrite_header` does where nothing is refused. -/
theorem rewrite_header_outcome (blk : VirtioBlk) (size : Nat) {lba total : Nat} (hheader : 1 < blk.capacity)
    (harray : ∀ k < total, lba + k / 512 < blk.capacity) :
    if 128 < size then rewrite_header blk size lba total = (false, blk)
    else (rewrite_header blk size lba total).1 = true := by
  obtain ⟨v, hv⟩ : ∃ v, crc_partition_loop blk lba total 0xFFFFFFFF 0 = some v := crc_partition_some harray
  unfold rewrite_header crc_partition_bytes
  rw [hv, read_sector_some hheader]
  dsimp only
  split_ifs with hsize
  · rfl
  · rw [write_sector_some hheader]

/-- The first part of `try_patch_gpt`, with the header in words. -/
theorem try_patch_gpt_outcome (hok : RequestsSucceed blk) :
    (¬ HeaderPasses (blk.sectors 1) → try_patch_gpt blk (blk.sectors 1) = (false, blk)) ∧
    (HeaderPasses (blk.sectors 1) → ¬ NeedsPatch (first_entry blk) → (try_patch_gpt blk (blk.sectors 1)).2 = blk) ∧
    (HeaderPasses (blk.sectors 1) → NeedsPatch (first_entry blk) →
      try_patch_gpt blk (blk.sectors 1) =
        rewrite_header (with_entry blk (Header.entry_lba (blk.sectors 1))) (Header.size (blk.sectors 1))
          (Header.entry_lba (blk.sectors 1)) (Header.total_bytes (blk.sectors 1))) := by
  obtain ⟨hdr_size, hsize, hsizeN⟩ := read_u32_le_sector (blk.sectors 1) 0x0C (by omega)
  obtain ⟨my_lba, hmy, hmyN⟩ := read_u64_le_sector (blk.sectors 1) 0x18 (by omega)
  obtain ⟨entry_lba, hlba, hlbaN⟩ := read_u64_le_sector (blk.sectors 1) 0x48 (by omega)
  obtain ⟨num_entries, hnum, hnumN⟩ := read_u32_le_sector (blk.sectors 1) 0x50 (by omega)
  obtain ⟨entry_size, hesz, heszN⟩ := read_u32_le_sector (blk.sectors 1) 0x54 (by omega)
  unfold try_patch_gpt
  rw [hsize, hmy, hlba, hnum, hesz]
  dsimp only
  have hmy1 : my_lba = 1 ↔ u64_at (blk.sectors 1) 0x18 = 1 := by
    rw [← UInt64.toNat_inj, hmyN]
    rfl
  have hnone : num_entries = 0 ↔ Header.num_entries (blk.sectors 1) = 0 := by
    rw [← UInt32.toNat_inj, hnumN]
    rfl
  have hlow : entry_size < 128 ↔ Header.entry_size (blk.sectors 1) < 128 := by
    rw [UInt32.lt_iff_toNat_lt, heszN]
    rfl
  have hhigh : entry_size > 4096 ↔ 4096 < Header.entry_size (blk.sectors 1) := by
    rw [gt_iff_lt, UInt32.lt_iff_toNat_lt, heszN]
    rfl
  have htotal : num_entries.toNat * entry_size.toNat = Header.total_bytes (blk.sectors 1) := by
    rw [hnumN, heszN]
    rfl
  have hsizeH : hdr_size.toNat = Header.size (blk.sectors 1) := hsizeN
  have hlbaH : entry_lba.toNat = Header.entry_lba (blk.sectors 1) := hlbaN
  simp only [ne_eq, hmy1, hnone, hlow, hhigh, htotal, hsizeH, hlbaH]
  by_cases hpasses : HeaderPasses (blk.sectors 1)
  · have hsize_ge := hpasses.size_ge
    have hsize_le := hpasses.size_le
    have hentry_ge := hpasses.entry_size_ge
    have hentry_le := hpasses.entry_size_le
    rw [if_neg (not_not.mpr hpasses.signature), if_neg (by omega), if_neg (not_not.mpr hpasses.my_lba),
      if_neg (by have := hpasses.entries; omega), if_neg (by have := hpasses.total; omega),
      read_sector_some (hok.entry hpasses)]
    dsimp only
    obtain ⟨cur, hcur, hcurN⟩ := read_u64_le_sector (first_entry blk) 48 (by omega)
    have hor : (cur ||| GPT_ATTR_BOOT_MASK).toNat = u64_at (first_entry blk) 48 ||| 5 := by
      rw [UInt64.toNat_or, hcurN]
      rfl
    have hset : cur ||| GPT_ATTR_BOOT_MASK = cur ↔ u64_at (first_entry blk) 48 ||| 5 = u64_at (first_entry blk) 48 := by
      rw [← UInt64.toNat_inj, hor, hcurN]
    unfold first_entry at hcur hor hset ⊢
    rw [hcur, Option.getD_some]
    refine ⟨fun h => absurd hpasses h, fun _ hdone => ?_, fun _ hneeds => ?_⟩
    · by_cases hzero : ((blk.sectors (Header.entry_lba (blk.sectors 1))).toList.take 16).all (· == 0) = true
      · rw [if_pos hzero]
      · have hall := not_not.mp (not_and.mp hdone hzero)
        rw [if_neg hzero, if_pos (hset.mpr hall)]
    · have hnew : cur ||| GPT_ATTR_BOOT_MASK =
          UInt64.ofNat (u64_at (blk.sectors (Header.entry_lba (blk.sectors 1))) 48 ||| 5) := by
        rw [← hor, UInt64.ofNat_toNat]
      rw [if_neg hneeds.1, if_neg fun h => hneeds.2 (hset.mp h), write_sector_some (hok.entry hpasses), hnew]
      rfl
  · refine ⟨fun _ => ?_, fun h => absurd h hpasses, fun h => absurd h hpasses⟩
    split_ifs with hsig hrange hlba1 hcounts hlong <;> try rfl
    -- all checks have been passed
    exact absurd ⟨hsig, by omega, by omega, hlba1, by omega, by omega, by omega, by omega⟩ hpasses

/-- A patch that needs no write, and one of a table, leave the disk alone where they
fail. -/
theorem failed_mbr_patch (h : (try_patch_mbr blk).1 = false) (hcap : 1 < blk.capacity) : (try_patch_mbr blk).2 = blk := by
  unfold try_patch_mbr at h ⊢
  rw [read_sector_some (by omega)] at h ⊢
  dsimp only at h ⊢
  split_ifs at h ⊢
  · rfl
  · rfl
  · rw [write_sector_some (by omega)] at h
    cases h

/-- The write of the entry is one that can be seen. -/
theorem with_entry_changes {lba : Nat} (h : u64_at (blk.sectors lba) 48 ||| 5 ≠ u64_at (blk.sectors lba) 48) :
    ∃ i, diskByte (with_entry blk lba) i ≠ diskByte blk i := by
  by_contra hnone
  have hsame : ∀ i, diskByte (with_entry blk lba) i = diskByte blk i := by
    intro i
    by_contra hi
    exact hnone ⟨i, hi⟩
  have hslice (blk : VirtioBlk) : slice (blk.sectors lba).toList 48 (48 + 8) = diskBytes blk (512 * lba + 48) 8 :=
    slice_sector blk lba 48 8 (by omega)
  have hbytes : diskBytes (with_entry blk lba) (512 * lba + 48) 8 = diskBytes blk (512 * lba + 48) 8 :=
    List.map_congr_left fun k _ => hsame _
  rw [← hslice, ← hslice] at hbytes
  have hword : u64_at ((with_entry blk lba).sectors lba) 48 = u64_at (blk.sectors lba) 48 := congrArg leNat hbytes
  unfold with_entry at hword
  rw [sectors_set_self, u64_at_patched_entry] at hword
  exact h hword

end Outcomes

/-- A header that is too long is refused with the entry written. -/
theorem late_refusal_fails {blk : VirtioBlk} (hsector : blk.sector_size = 512) (hok : RequestsSucceed blk)
    (h : LateRefusal blk) :
    patch_install_target_boot blk = (false, with_entry blk (Header.entry_lba (blk.sectors 1))) := by
  have harray := hok.array h.passes h.needs
  have hrewrite := rewrite_header_outcome (with_entry blk (Header.entry_lba (blk.sectors 1)))
    (Header.size (blk.sectors 1)) hok.header harray
  rw [if_pos h.size_gt] at hrewrite
  unfold patch_install_target_boot
  rw [if_neg (not_not.mpr hsector), read_sector_some hok.header]
  dsimp only
  rw [if_pos h.passes.signature, (try_patch_gpt_outcome hok).2.2 h.passes h.needs, hrewrite]

/-- **When a patch that fails leaves the disk unchanged**: unless it is the last check
that refuses. -/
theorem failed_patch_keeps_disk_iff {blk : VirtioBlk} (hsector : blk.sector_size = 512) (hok : RequestsSucceed blk) :
    ((patch_install_target_boot blk).1 = false → ∀ i, diskByte (patch_install_target_boot blk).2 i = diskByte blk i) ↔
      ¬ LateRefusal blk := by
  constructor
  · intro h hlate
    have hfails := late_refusal_fails hsector hok hlate
    rw [hfails] at h
    obtain ⟨i, hi⟩ := with_entry_changes hlate.needs.2
    exact hi (h rfl i)
  · intro hlate hfalse
    suffices hsame : (patch_install_target_boot blk).2 = blk by
      intro i
      rw [hsame]
    obtain ⟨hrefused, hdone, hneeds⟩ := try_patch_gpt_outcome hok
    unfold patch_install_target_boot at hfalse ⊢
    rw [if_neg (not_not.mpr hsector), read_sector_some hok.header] at hfalse ⊢
    dsimp only at hfalse ⊢
    by_cases hsig : (blk.sectors 1).toList.take 8 = SIG_EFI_PART
    · rw [if_pos hsig] at hfalse ⊢
      by_cases hpasses : HeaderPasses (blk.sectors 1)
      · by_cases hentry : NeedsPatch (first_entry blk)
        · -- the last check lets the header pass, and the patch succeeds
          have hsize : ¬ 128 < Header.size (blk.sectors 1) := fun h => hlate ⟨hpasses, h, hentry⟩
          have hrewrite := rewrite_header_outcome (with_entry blk (Header.entry_lba (blk.sectors 1)))
            (Header.size (blk.sectors 1)) hok.header (hok.array hpasses hentry)
          rw [if_neg hsize] at hrewrite
          rw [hneeds hpasses hentry, hrewrite] at hfalse
          cases hfalse
        · exact hdone hpasses hentry
      · rw [hrefused hpasses]
    · rw [if_neg hsig] at hfalse ⊢
      exact failed_mbr_patch hfalse hok.header

/-! ### A longer header -/

theorem small_disk_requests : RequestsSucceed small_disk := by
  have hlba : Header.entry_lba (small_disk.sectors 1) = 2 := by decide
  have htotal : Header.total_bytes (small_disk.sectors 1) = 128 := by decide
  have hcap : small_disk.capacity = 4 := rfl
  constructor
  · rw [hcap]
    omega
  · rw [hlba, hcap]
    omega
  · intro _ _ k hk
    rw [htotal] at hk
    rw [hlba, hcap]
    omega

/-- A patch that succeeds. -/
theorem small_disk_is_safe :
    ((patch_install_target_boot small_disk).1 = false →
        ∀ i, diskByte (patch_install_target_boot small_disk).2 i = diskByte small_disk i) ↔ ¬ LateRefusal small_disk :=
  failed_patch_keeps_disk_iff rfl small_disk_requests

/-- The header of the small disk, with a length of 129 bytes. -/
def long_header : Bytes := small_header.take 12 ++ leBytes 4 129 ++ small_header.drop 16

theorem length_long_header : long_header.length ≤ 512 := by decide

/-- The small disk with that header. -/
def long_header_disk : VirtioBlk :=
  { small_disk with
    sectors := fun lba => if lba = 1 then sector_of long_header length_long_header else small_disk.sectors lba }

/-- Its entry is written, and the patch fails. -/
theorem long_header_is_half_patched :
    long_header_disk.sector_size = 512 ∧ RequestsSucceed long_header_disk ∧
      (patch_install_target_boot long_header_disk).1 = false ∧
      diskByte (patch_install_target_boot long_header_disk).2 1072 ≠ diskByte long_header_disk 1072 := by
  have hlba : Header.entry_lba (long_header_disk.sectors 1) = 2 := by decide
  have htotal : Header.total_bytes (long_header_disk.sectors 1) = 128 := by decide
  have hok : RequestsSucceed long_header_disk := by
    refine ⟨by decide, fun _ => by rw [hlba]; decide, fun _ _ k hk => ?_⟩
    rw [htotal] at hk
    rw [hlba, show long_header_disk.capacity = 4 from rfl]
    omega
  have hpasses : HeaderPasses (long_header_disk.sectors 1) :=
    ⟨by decide, by decide, by decide, by decide, by decide, by decide, by decide, by decide⟩
  have hneeds : NeedsPatch (first_entry long_header_disk) := by
    unfold NeedsPatch first_entry
    rw [hlba]
    decide
  have hfails := late_refusal_fails rfl hok ⟨hpasses, by decide, hneeds⟩
  rw [hfails, hlba]
  refine ⟨rfl, hok, rfl, ?_⟩
  rw [diskByte_with_entry, if_pos rfl]
  decide

end EveOS.Disk
