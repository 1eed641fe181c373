/-
`kernel/src/gpt_boot_patch.rs`: boot flags on a freshly cloned disk.

`patch_install_target_boot` sets the boot attributes of the first GPT entry and
brings the two checksums of the primary header up to date, or marks the first
primary partition active on a disk without GPT.

The disk is `VirtioBlk` as this code sees it: a capacity and the contents of
the sectors. Requests inside the capacity succeed. The sums of `u64` sector
numbers do not overflow where the reads succeed, since a sector that was read
lies below a capacity that fits a `u64`; they are natural numbers.
-/
import EveOS.Lib.Layout
import EveOS.Lib.LittleEndian

set_option autoImplicit false

namespace EveOS.Disk

/-! ## The disk -/

abbrev Sector := Vector UInt8 512

/-- `virtio_blk.rs`: the device with the sectors behind it. -/
structure VirtioBlk where
  sector_size : UInt32
  capacity : Nat
  sectors : Nat → Sector

namespace VirtioBlk

/-- `read_sector` into a buffer of 512 bytes: `none` where it returns `false`. -/
def read_sector (blk : VirtioBlk) (sector : Nat) : Option Sector :=
  if sector ≥ blk.capacity then none else some (blk.sectors sector)

/-- `write_sector` from a buffer of 512 bytes. -/
def write_sector (blk : VirtioBlk) (sector : Nat) (data : Sector) : Bool × VirtioBlk :=
  if sector ≥ blk.capacity then (false, blk)
  else (true, { blk with sectors := Function.update blk.sectors sector data })

end VirtioBlk

/-! ## CRC-32 -/

/-- One bit of `crc32_update`. -/
def crc32_bit (crc : UInt32) : UInt32 :=
  if crc &&& 1 ≠ 0 then (crc >>> 1) ^^^ 0xEDB88320 else crc >>> 1

/-- One byte of `crc32_update`. -/
def crc32_byte (crc : UInt32) (b : UInt8) : UInt32 :=
  Nat.repeat crc32_bit 8 (crc ^^^ b.toUInt32)

def crc32_update (crc : UInt32) (data : Bytes) : UInt32 := data.foldl crc32_byte crc

def crc32_finish (crc : UInt32) : UInt32 := ~~~crc

/-! ## Words in a buffer -/

def read_u32_le (buf : Bytes) (off : Nat) : Option UInt32 :=
  if off + 4 ≤ buf.length then some (UInt32.ofNat (leNat (slice buf off (off + 4)))) else none

def read_u64_le (buf : Bytes) (off : Nat) : Option UInt64 :=
  if off + 8 ≤ buf.length then some (UInt64.ofNat (leNat (slice buf off (off + 8)))) else none

def write_u32_le (buf : Sector) (off : Nat) (v : UInt32) : Sector :=
  if off + 4 ≤ 512 then patch buf off (leBytes 4 v.toNat) else buf

def write_u64_le (buf : Sector) (off : Nat) (v : UInt64) : Sector :=
  if off + 8 ≤ 512 then patch buf off (leBytes 8 v.toNat) else buf

/-! ## The GPT -/

def SIG_EFI_PART : Bytes := ascii "EFI PART"

/-- Bit 0 (required) and bit 2 (legacy BIOS bootable). -/
def GPT_ATTR_BOOT_MASK : UInt64 := ((1 : UInt64) <<< 0) ||| ((1 : UInt64) <<< 2)

/-- The loop of `crc_partition_bytes`. -/
def crc_partition_loop (blk : VirtioBlk) (entry_lba total_bytes : Nat) (crc : UInt32) (pos : Nat) :
    Option UInt32 :=
  if pos < total_bytes then
    match blk.read_sector (entry_lba + pos / 512) with
    | none => none
    | some buf =>
      let o := pos % 512
      let chunk := min (512 - o) (total_bytes - pos)
      crc_partition_loop blk entry_lba total_bytes
        (crc32_update crc (slice buf.toList o (o + chunk))) (pos + chunk)
  else some (crc32_finish crc)
termination_by total_bytes - pos
decreasing_by omega

def crc_partition_bytes (blk : VirtioBlk) (entry_lba total_bytes : Nat) : Option UInt32 :=
  crc_partition_loop blk entry_lba total_bytes 0xFFFFFFFF 0

/-- The end of `try_patch_gpt`, once the entry is written: both checksums. -/
def rewrite_header (blk : VirtioBlk) (hdr_size entry_lba total_bytes : Nat) : Bool × VirtioBlk :=
  match crc_partition_bytes blk entry_lba total_bytes with
  | none => (false, blk)
  | some part_crc =>
    match blk.read_sector 1 with
    | none => (false, blk)
    | some hdr =>
      let hdr := write_u32_le hdr 0x58 part_crc
      let hdr := write_u32_le hdr 0x10 0
      if hdr_size > 128 then (false, blk)
      else
        -- `tmp` is the head of the header with its own checksum cleared
        let tmp := patch hdr 0x10 [0, 0, 0, 0]
        let hc := crc32_finish (crc32_update 0xFFFFFFFF (tmp.toList.take hdr_size))
        blk.write_sector 1 (write_u32_le hdr 0x10 hc)

/-- `try_patch_gpt`. -/
def try_patch_gpt (blk : VirtioBlk) (hdr : Sector) : Bool × VirtioBlk :=
  if hdr.toList.take 8 ≠ SIG_EFI_PART then (false, blk)
  else
    match read_u32_le hdr.toList 0x0C, read_u64_le hdr.toList 0x18, read_u64_le hdr.toList 0x48,
      read_u32_le hdr.toList 0x50, read_u32_le hdr.toList 0x54 with
    | some hdr_size, some my_lba, some entry_lba, some num_entries, some entry_size =>
      if hdr_size.toNat < 92 ∨ hdr_size.toNat > 512 then (false, blk)
      else if my_lba ≠ 1 then (false, blk)
      else if num_entries = 0 ∨ entry_size < 128 ∨ entry_size > 4096 then (false, blk)
      else
        let total_bytes := num_entries.toNat * entry_size.toNat
        if total_bytes > 2 * 1024 * 1024 then (false, blk)
        else
          match blk.read_sector entry_lba.toNat with
          | none => (false, blk)
          | some ent =>
            if (ent.toList.take 16).all (· == 0) then (false, blk)
            else
              let cur := (read_u64_le ent.toList 48).getD 0
              let new_attrs := cur ||| GPT_ATTR_BOOT_MASK
              if new_attrs = cur then (true, blk)
              else
                match blk.write_sector entry_lba.toNat (write_u64_le ent 48 new_attrs) with
                | (false, blk) => (false, blk)
                | (true, blk) => rewrite_header blk hdr_size.toNat entry_lba.toNat total_bytes
    | _, _, _, _, _ => (false, blk)

/-! ## The MBR -/

def try_patch_mbr (blk : VirtioBlk) : Bool × VirtioBlk :=
  match blk.read_sector 0 with
  | none => (false, blk)
  | some buf =>
    if byteAt buf.toList 510 ≠ 0x55 ∨ byteAt buf.toList 511 ≠ 0xAA then (false, blk)
    else if byteAt buf.toList 0x1C2 = 0xEE then (false, blk)
    else
      let buf := (List.range 4).foldl (fun buf i => patch buf (0x1BE + i * 16) [0]) buf
      blk.write_sector 0 (patch buf 0x1BE [0x80])

def patch_install_target_boot (blk : VirtioBlk) : Bool × VirtioBlk :=
  if blk.sector_size ≠ 512 then (false, blk)
  else
    match blk.read_sector 1 with
    | none => (false, blk)
    | some hdr =>
      if hdr.toList.take 8 = SIG_EFI_PART then try_patch_gpt blk hdr else try_patch_mbr blk

end EveOS.Disk
