/-
The active slot of a partition table: `try_patch_mbr` of `kernel/src/gpt_boot_patch.rs`.

On a disk without GPT the patch makes the first slot of the table active and the three
others inactive, whatever they describe. It is the right slot unless the first one is
empty, or another one was the active one.
-/
import EveOS.Disk.GptValid

set_option autoImplicit false

namespace EveOS.Disk

/-! ## Slots -/

/-- Where the status byte of a slot is. -/
def status_at (i : Fin 4) : Nat := 0x1BE + i * 16

def slot_status (mbr : Sector) (i : Fin 4) : UInt8 := byteAt mbr.toList (status_at i)

def slot_type (mbr : Sector) (i : Fin 4) : UInt8 := byteAt mbr.toList (status_at i + 4)

def Active (mbr : Sector) (i : Fin 4) : Prop := slot_status mbr i = 0x80

/-- The slot describes a partition. -/
def InUse (mbr : Sector) (i : Fin 4) : Prop := slot_type mbr i ≠ 0

/-- The one slot in use that is active. -/
def OnlyActive (mbr : Sector) (i : Fin 4) : Prop :=
  InUse mbr i ∧ Active mbr i ∧ ∀ j, InUse mbr j ∧ Active mbr j → j = i

/-- A disk that boots from its table as well as before. -/
structure KeepsBootable (blk blk' : VirtioBlk) : Prop where
  one_active : ∃ i, Active (blk'.sectors 0) i ∧ (∀ j, Active (blk'.sectors 0) j → j = i) ∧
    ((∃ j, InUse (blk'.sectors 0) j) → InUse (blk'.sectors 0) i) ∧ ∀ j, OnlyActive (blk.sectors 0) j → i = j
  kept : ∀ k, (∀ i, k ≠ status_at i) → diskByte blk' k = diskByte blk k

theorem slots_pos : 0 < 4 := by decide

def first_slot : Fin 4 := ⟨0, slots_pos⟩

/-- The first slot is empty only if all are, and no other one is the active one. -/
def FirstIsRight (mbr : Sector) : Prop :=
  ((∃ j, InUse mbr j) → InUse mbr first_slot) ∧ ∀ j, OnlyActive mbr j → j = first_slot

/-! ## What the patch writes -/

def patched_mbr (mbr : Sector) : Sector :=
  patch ((List.range 4).foldl (fun buf i => patch buf (0x1BE + i * 16) [0]) mbr) 0x1BE [0x80]

theorem byteAt_patch_one (buf : Sector) (off : Nat) (b : UInt8) {k : Nat} (hk : k < 512) :
    byteAt (patch buf off [b]).toList k = if k = off then b else byteAt buf.toList k := by
  rw [byteAt_patch _ _ _ _ hk]
  by_cases h : k = off
  · rw [if_pos h, if_pos (by simp [h]), h, Nat.sub_self]
    rfl
  · rw [if_neg h, if_neg]
    simp only [List.length_singleton]
    omega

theorem byteAt_patched_mbr (mbr : Sector) {k : Nat} (hk : k < 512) :
    byteAt (patched_mbr mbr).toList k =
      if k = 0x1BE then 0x80 else if k = 0x1CE ∨ k = 0x1DE ∨ k = 0x1EE then 0 else byteAt mbr.toList k := by
  have hrange : List.range 4 = [0, 1, 2, 3] := rfl
  unfold patched_mbr
  rw [hrange, List.foldl_cons, List.foldl_cons, List.foldl_cons, List.foldl_cons, List.foldl_nil,
    byteAt_patch_one _ _ _ hk, byteAt_patch_one _ _ _ hk, byteAt_patch_one _ _ _ hk, byteAt_patch_one _ _ _ hk,
    byteAt_patch_one _ _ _ hk]
  grind

theorem status_lt (i : Fin 4) : status_at i + 4 < 512 := by
  unfold status_at
  omega

/-- The first slot is active, and no other one. -/
theorem active_patched_iff (mbr : Sector) (i : Fin 4) : Active (patched_mbr mbr) i ↔ i = first_slot := by
  have hi := status_lt i
  unfold Active slot_status
  rw [byteAt_patched_mbr mbr (by omega)]
  by_cases hzero : i = first_slot
  · rw [if_pos (by rw [hzero]; rfl)]
    simp [hzero]
  · have hval : i.val ≠ 0 := fun h => hzero (Fin.ext h)
    rw [if_neg (by unfold status_at; omega), if_pos (by unfold status_at; omega)]
    simp [hzero]

/-- The types stay. -/
theorem inUse_patched_iff (mbr : Sector) (i : Fin 4) : InUse (patched_mbr mbr) i ↔ InUse mbr i := by
  have hi := status_lt i
  unfold InUse slot_type
  rw [byteAt_patched_mbr mbr hi, if_neg, if_neg]
  · unfold status_at
    omega
  · unfold status_at
    omega

/-- What a patch of the table has done. -/
theorem patch_mbr_true {blk blk' : VirtioBlk} (hgpt : (blk.sectors 1).toList.take 8 ≠ SIG_EFI_PART)
    (h : patch_install_target_boot blk = (true, blk')) : blk' = blk.set 0 (patched_mbr (blk.sectors 0)) := by
  unfold patch_install_target_boot at h
  split_ifs at h
  · cases h
  · split at h
    · cases h
    next hdr hread =>
      rw [read_sector_eq hread, if_neg hgpt] at h
      unfold try_patch_mbr at h
      split at h
      · cases h
      next buf hread =>
        split_ifs at h
        · cases h
        · cases h
        · rw [write_sector_true h, read_sector_eq hread]
          rfl

/-- **When the patch marks the right slot.** -/
theorem mbr_patch_iff {blk blk' : VirtioBlk} (hgpt : (blk.sectors 1).toList.take 8 ≠ SIG_EFI_PART)
    (h : patch_install_target_boot blk = (true, blk')) : KeepsBootable blk blk' ↔ FirstIsRight (blk.sectors 0) := by
  have hblk := patch_mbr_true hgpt h
  have hmbr : blk'.sectors 0 = patched_mbr (blk.sectors 0) := by
    rw [hblk, sectors_set_self]
  constructor
  · rintro ⟨⟨i, hactive, -, huse, honly⟩, -⟩
    rw [hmbr, active_patched_iff] at hactive
    subst hactive
    simp only [hmbr, inUse_patched_iff] at huse
    exact ⟨huse, fun j hj => (honly j hj).symm⟩
  · rintro ⟨huse, honly⟩
    refine ⟨⟨first_slot, ?_, ?_, ?_, ?_⟩, ?_⟩
    · rw [hmbr, active_patched_iff]
    · intro j hj
      rwa [hmbr, active_patched_iff] at hj
    · simp only [hmbr, inUse_patched_iff]
      exact huse
    · exact fun j hj => (honly j hj).symm
    · intro k hk
      unfold VirtioBlk.set at hblk
      rw [hblk, diskByte_update]
      by_cases hsector : k / 512 = 0
      · have h0 := hk 0
        have h1 := hk 1
        have h2 := hk 2
        have h3 := hk 3
        simp only [status_at] at h0 h1 h2 h3
        rw [if_pos hsector, byteAt_patched_mbr _ (Nat.mod_lt _ (by omega)), if_neg (by omega), if_neg (by omega),
          diskByte, hsector]
      · rw [if_neg hsector]

/-! ### Tables of two slots -/

def table_slot (status type : UInt8) : Bytes := [status, 0, 0, 0, type] ++ List.replicate 11 0

/-- Code of 446 bytes, two slots, two empty ones and the signature. -/
def table (s₀ t₀ s₁ t₁ : UInt8) : Bytes :=
  List.replicate 446 0 ++ (table_slot s₀ t₀ ++ (table_slot s₁ t₁ ++ (List.replicate 32 0 ++ [0x55, 0xAA])))

theorem length_table (s₀ t₀ s₁ t₁ : UInt8) : (table s₀ t₀ s₁ t₁).length = 512 := by
  simp only [table, table_slot, List.length_append, List.length_replicate, List.length_cons, List.length_nil]

/-- A disk of two sectors. -/
def mbr_disk (s₀ t₀ s₁ t₁ : UInt8) : VirtioBlk :=
  ⟨512, 2, fun lba =>
    if lba = 0 then sector_of (table s₀ t₀ s₁ t₁) (Nat.le_of_eq (length_table s₀ t₀ s₁ t₁))
    else sector_of [] (Nat.zero_le _)⟩

theorem eq_of_fst {x : Bool × VirtioBlk} (h : x.1 = true) : x = (true, x.2) := Prod.ext h rfl

/-- One partition, in the first slot. -/
theorem first_slot_is_marked :
    ∃ blk', patch_install_target_boot (mbr_disk 0 0x83 0 0) = (true, blk') ∧
      (KeepsBootable (mbr_disk 0 0x83 0 0) blk' ↔ FirstIsRight ((mbr_disk 0 0x83 0 0).sectors 0)) := by
  have htrue : (patch_install_target_boot (mbr_disk 0 0x83 0 0)).1 = true := by decide +kernel
  exact ⟨_, eq_of_fst htrue, mbr_patch_iff (by decide +kernel) (eq_of_fst htrue)⟩

/-- One partition, in the second slot, and active: behind the patch an empty slot is. -/
theorem empty_slot_is_marked :
    ∃ blk', (mbr_disk 0 0 0x80 0x83).sector_size = 512 ∧
      ((mbr_disk 0 0 0x80 0x83).sectors 1).toList.take 8 ≠ SIG_EFI_PART ∧
      patch_install_target_boot (mbr_disk 0 0 0x80 0x83) = (true, blk') ∧ ¬ KeepsBootable (mbr_disk 0 0 0x80 0x83) blk' := by
  have htrue : (patch_install_target_boot (mbr_disk 0 0 0x80 0x83)).1 = true := by decide +kernel
  have hgpt : ((mbr_disk 0 0 0x80 0x83).sectors 1).toList.take 8 ≠ SIG_EFI_PART := by decide +kernel
  have hmbr := patch_mbr_true hgpt (eq_of_fst htrue)
  refine ⟨_, rfl, hgpt, eq_of_fst htrue, ?_⟩
  rintro ⟨⟨i, hactive, -, huse, -⟩, -⟩
  rw [hmbr, sectors_set_self, active_patched_iff] at hactive
  rw [hmbr, sectors_set_self, hactive] at huse
  simp only [inUse_patched_iff] at huse
  have hsecond : InUse ((mbr_disk 0 0 0x80 0x83).sectors 0) 1 := by
    unfold InUse
    decide +kernel
  exact huse ⟨1, hsecond⟩ (by decide +kernel)

end EveOS.Disk
