/-
`poll_rx_packet` of `kernel/src/virtio_net.rs` and of `kernel/src/virtio_mmio_net.rs`.

The device writes a header in front of each frame it receives. `VERSION_1` fixes
the header at 12 bytes, but the drivers guess: when the two bytes behind 12 bytes,
or the two behind 10, read like the type of an Ethernet frame, the header is taken
to be absent, or to have 10 bytes. Behind a header of 12 bytes stand the first two
bytes of the destination address, and an address may well begin with 08 00.
-/
import EveOS.Lib.LittleEndian

set_option autoImplicit false

namespace EveOS.Virtio.RxHeader

def RX_BUFFER_BYTES : Nat := 4096
def RX_QSZ : Nat := 256

/-- The types the guess looks for: IPv4 and ARP. -/
def is_known_type (et : UInt16) : Bool := et == 0x0800 || et == 0x0806

def virtio_net_hdr_len (pkt : Bytes) : Nat :=
  if 14 ≤ pkt.length ∧ is_known_type (u16At pkt 12) = true then 0
  else if 12 ≤ pkt.length ∧ is_known_type (u16At pkt 10) = true then 10
  else min 12 pkt.length

/-- `RXQ`, as far as a receive reads and writes it, the fields of the driver, and
the interrupts that the MMIO transport keeps pending. -/
structure RxQueue where
  rx : Bytes
  /-- The index of the available ring. Every entry is descriptor 0. -/
  avail_idx : UInt16
  used_idx : UInt16
  /-- `used.ring[slot].len`. -/
  used_len : Nat → UInt32
  rx_mask : Nat
  rx_last_used : UInt16
  interrupt_status : UInt32

def RxQueue.start (rx_mask : Nat) : RxQueue where
  rx := List.replicate RX_BUFFER_BYTES 0
  avail_idx := 1
  used_idx := 0
  used_len := fun _ => 0
  rx_mask := rx_mask
  rx_last_used := 0
  interrupt_status := 0

def RxQueue.requeue_rx_only (q : RxQueue) : RxQueue := { q with avail_idx := q.avail_idx + 1 }

/-- What both drivers do, with a buffer of `out_len` bytes. -/
def RxQueue.poll (q : RxQueue) (out_len : Nat) : RxQueue × Option Bytes :=
  if q.rx_last_used = q.used_idx then (q, none)
  else
    let slot := q.rx_last_used.toNat &&& q.rx_mask
    let total := (q.used_len slot).toNat
    let q := { q with rx_last_used := q.rx_last_used + 1 }
    if total = 0 ∨ RX_BUFFER_BYTES < total then (q.requeue_rx_only, none)
    else
      let hdr := virtio_net_hdr_len (q.rx.take total)
      let body := total - hdr
      if body = 0 ∨ out_len < body then (q.requeue_rx_only, none)
      else (q.requeue_rx_only, some (slice q.rx hdr total))

namespace Pci

def poll_rx_packet (q : RxQueue) (out_len : Nat) : RxQueue × Option Bytes := q.poll out_len

end Pci

namespace Mmio

/-- What is read from the status register is written back to it. -/
def ack_interrupts (q : RxQueue) : RxQueue :=
  { q with interrupt_status := q.interrupt_status &&& ~~~ q.interrupt_status }

def poll_rx_packet (q : RxQueue) (out_len : Nat) : RxQueue × Option Bytes := (ack_interrupts q).poll out_len

end Mmio

/-! ## The device -/

/-- `virtio_net_hdr` with `VERSION_1`. -/
structure Hdr where
  flags : UInt8
  gso_type : UInt8
  hdr_len : UInt16
  gso_size : UInt16
  csum_start : UInt16
  csum_offset : UInt16
  num_buffers : UInt16

def Hdr.bytes (h : Hdr) : Bytes :=
  [h.flags, h.gso_type] ++ leBytes 2 h.hdr_len.toNat ++ leBytes 2 h.gso_size.toNat ++
    leBytes 2 h.csum_start.toNat ++ leBytes 2 h.csum_offset.toNat ++ leBytes 2 h.num_buffers.toNat

/-- The device stores `raw` in the buffer and puts the buffer into the used ring. -/
def RxQueue.complete (q : RxQueue) (raw : Bytes) : RxQueue where
  rx := raw ++ q.rx.drop raw.length
  avail_idx := q.avail_idx
  used_idx := q.used_idx + 1
  used_len := Function.update q.used_len (q.used_idx.toNat &&& q.rx_mask) (UInt32.ofNat raw.length)
  rx_mask := q.rx_mask
  rx_last_used := q.rx_last_used
  interrupt_status := q.interrupt_status ||| 1

/-- The next completion the driver sees is that of `raw`. -/
structure RxQueue.Holds (q : RxQueue) (raw : Bytes) : Prop where
  waiting : q.rx_last_used ≠ q.used_idx
  len : (q.used_len (q.rx_last_used.toNat &&& q.rx_mask)).toNat = raw.length
  bytes : raw <+: q.rx

theorem RxQueue.Holds.ack {q : RxQueue} {raw : Bytes} (h : q.Holds raw) : (Mmio.ack_interrupts q).Holds raw :=
  ⟨h.waiting, h.len, h.bytes⟩

/-- What the device stores when the driver has seen all it stored before. -/
theorem RxQueue.complete_holds {q : RxQueue} {raw : Bytes} (hseen : q.rx_last_used = q.used_idx)
    (hfit : raw.length ≤ RX_BUFFER_BYTES) : (q.complete raw).Holds raw where
  waiting := by
    show q.rx_last_used ≠ q.used_idx + 1
    rw [hseen]
    intro h
    have hnat := congrArg UInt16.toNat h
    rw [UInt16.toNat_add] at hnat
    have hlt := q.used_idx.toNat_lt
    have hone : (1 : UInt16).toNat = 1 := rfl
    omega
  len := by
    have hlt : raw.length < 4294967296 := Nat.lt_of_le_of_lt hfit (by decide)
    show (Function.update q.used_len (q.used_idx.toNat &&& q.rx_mask) (UInt32.ofNat raw.length)
      (q.rx_last_used.toNat &&& q.rx_mask)).toNat = raw.length
    rw [hseen, Function.update_self, UInt32.toNat_ofNat_of_lt' hlt]
  bytes := List.prefix_append _ _

/-! ## The header length -/

section Frames

variable {h : Hdr} {f : Bytes}

theorem Hdr.bytes_length (h : Hdr) : h.bytes.length = 12 := by simp [Hdr.bytes]

/-- The two bytes behind 10 bytes, in network order. -/
theorem Hdr.num_buffers_at (h : Hdr) (f : Bytes) :
    u16At (h.bytes ++ f) 10 = be16 (UInt8.ofNat h.num_buffers.toNat) (UInt8.ofNat (h.num_buffers.toNat / 256)) := rfl

/-- The two bytes behind the header are the first two of the frame. -/
theorem Hdr.frame_at (h : Hdr) (f : Bytes) : u16At (h.bytes ++ f) 12 = u16At f 0 := by
  have hlow := byteAt_append_add h.bytes f 0
  have hhigh := byteAt_append_add h.bytes f 1
  rw [Hdr.bytes_length] at hlow hhigh
  unfold u16At
  rw [hlow, hhigh]

/-- The guess, on a header for one buffer. -/
theorem virtio_net_hdr_len_eq (hone : h.num_buffers = 1) (hf : 14 ≤ f.length) :
    virtio_net_hdr_len (h.bytes ++ f) = if is_known_type (u16At f 0) then 0 else 12 := by
  have hlen : (h.bytes ++ f).length = 12 + f.length := by rw [List.length_append, Hdr.bytes_length]
  have hother : is_known_type (u16At (h.bytes ++ f) 10) = false := by
    rw [Hdr.num_buffers_at, hone]
    decide
  unfold virtio_net_hdr_len
  rw [Hdr.frame_at, hother, hlen]
  by_cases htype : is_known_type (u16At f 0) = true
  · rw [if_pos ⟨by omega, htype⟩, if_pos htype]
  · rw [if_neg (fun h => htype h.2), if_neg (fun h => Bool.false_ne_true h.2), if_neg htype]
    omega

/-- What a call returns: what stands behind the header it assumes, if there is
room for it. -/
theorem RxQueue.poll_eq {q : RxQueue} {raw : Bytes} {out_len : Nat} (hq : q.Holds raw) (hne : raw ≠ [])
    (hfit : raw.length ≤ RX_BUFFER_BYTES) :
    (q.poll out_len).2 =
      if raw.length - virtio_net_hdr_len raw = 0 ∨ out_len < raw.length - virtio_net_hdr_len raw then none
      else some (raw.drop (virtio_net_hdr_len raw)) := by
  obtain ⟨behind, hrx⟩ := hq.bytes
  have hpos : raw.length ≠ 0 := fun h => hne (List.length_eq_zero_iff.mp h)
  have hraw : q.rx.take raw.length = raw := by rw [← hrx, List.take_left]
  have hslice : slice q.rx (virtio_net_hdr_len raw) raw.length = raw.drop (virtio_net_hdr_len raw) := by
    rw [slice, ← List.drop_take, hraw]
  unfold RxQueue.poll
  simp only [if_neg hq.waiting, hq.len, hraw, hslice]
  rw [if_neg (not_or.mpr ⟨hpos, Nat.not_lt.mpr hfit⟩)]
  split_ifs <;> rfl

theorem RxQueue.poll_frame {q : RxQueue} {out_len : Nat} (hone : h.num_buffers = 1) (hf : 14 ≤ f.length)
    (hfit : (h.bytes ++ f).length ≤ RX_BUFFER_BYTES) (hq : q.Holds (h.bytes ++ f)) :
    (q.poll out_len).2 = some f ↔ is_known_type (u16At f 0) = false ∧ f.length ≤ out_len := by
  have hlen : (h.bytes ++ f).length = 12 + f.length := by rw [List.length_append, Hdr.bytes_length]
  have hne : h.bytes ++ f ≠ [] := by
    intro hnil
    rw [hnil, List.length_nil] at hlen
    omega
  rw [RxQueue.poll_eq hq hne hfit, virtio_net_hdr_len_eq hone hf, hlen]
  cases htype : is_known_type (u16At f 0) with
  | true =>
    -- the header is handed over with the frame
    rw [if_pos rfl, List.drop_zero]
    refine iff_of_false ?_ fun h => Bool.noConfusion h.1
    intro hsome
    split_ifs at hsome
    have hsame := congrArg List.length (Option.some.inj hsome)
    omega
  | false =>
    have hdrop : (h.bytes ++ f).drop 12 = f := by rw [← Hdr.bytes_length h, List.drop_left]
    rw [if_neg Bool.false_ne_true, hdrop, Nat.add_sub_cancel_left, and_iff_right rfl]
    by_cases hroom : f.length ≤ out_len
    · rw [if_neg (by omega)]
      exact iff_of_true rfl hroom
    · rw [if_pos (by omega)]
      exact iff_of_false (Option.some_ne_none f).symm hroom

/-- **When the header is stripped**: if the destination address does not begin
like an Ethernet type, and the caller has room for the frame. -/
theorem header_stripped_iff {q : RxQueue} {out_len : Nat} (hone : h.num_buffers = 1) (hf : 14 ≤ f.length)
    (hfit : (h.bytes ++ f).length ≤ RX_BUFFER_BYTES) (hq : q.Holds (h.bytes ++ f)) :
    (virtio_net_hdr_len (h.bytes ++ f) = 12 ∧ (Pci.poll_rx_packet q out_len).2 = some f ∧
        (Mmio.poll_rx_packet q out_len).2 = some f) ↔
      is_known_type (u16At f 0) = false ∧ f.length ≤ out_len := by
  have hpci : (q.poll out_len).2 = some f ↔ _ := RxQueue.poll_frame hone hf hfit hq
  have hmmio : ((Mmio.ack_interrupts q).poll out_len).2 = some f ↔ _ := RxQueue.poll_frame hone hf hfit hq.ack
  unfold Pci.poll_rx_packet Mmio.poll_rx_packet
  rw [hpci, hmmio, and_self, virtio_net_hdr_len_eq hone hf]
  constructor
  · exact fun h => h.2
  · intro hcond
    exact ⟨if_neg (Bool.eq_false_iff.mp hcond.1), hcond⟩

/-- A header as the device writes it. -/
def ONE_BUFFER : Hdr := ⟨0, 0, 0, 0, 0, 0, 1⟩

/-- An empty ARP frame to `mac`. -/
def arp_to (mac : Bytes) : Bytes := mac ++ [82, 84, 0, 18, 52, 86, 8, 6]

/-- A frame for everyone. -/
theorem broadcast_is_stripped :
    virtio_net_hdr_len (ONE_BUFFER.bytes ++ arp_to (List.replicate 6 255)) = 12 ∧
      (Pci.poll_rx_packet ((RxQueue.start 255).complete (ONE_BUFFER.bytes ++ arp_to (List.replicate 6 255)))
        2048).2 = some (arp_to (List.replicate 6 255)) ∧
      (Mmio.poll_rx_packet ((RxQueue.start 255).complete (ONE_BUFFER.bytes ++ arp_to (List.replicate 6 255)))
        2048).2 = some (arp_to (List.replicate 6 255)) :=
  (header_stripped_iff rfl (by decide) (by decide) (RxQueue.complete_holds rfl (by decide))).mpr (by decide)

/-- A frame to 08:00:27:00:00:01 is handed over with its header. -/
theorem header_is_not_stripped :
    ((RxQueue.start 255).complete (ONE_BUFFER.bytes ++ arp_to [8, 0, 39, 0, 0, 1])).Holds
        (ONE_BUFFER.bytes ++ arp_to [8, 0, 39, 0, 0, 1]) ∧
      virtio_net_hdr_len (ONE_BUFFER.bytes ++ arp_to [8, 0, 39, 0, 0, 1]) = 0 ∧
      (Pci.poll_rx_packet ((RxQueue.start 255).complete (ONE_BUFFER.bytes ++ arp_to [8, 0, 39, 0, 0, 1])) 2048).2 =
        some (ONE_BUFFER.bytes ++ arp_to [8, 0, 39, 0, 0, 1]) ∧
      (Mmio.poll_rx_packet ((RxQueue.start 255).complete (ONE_BUFFER.bytes ++ arp_to [8, 0, 39, 0, 0, 1])) 2048).2 =
        some (ONE_BUFFER.bytes ++ arp_to [8, 0, 39, 0, 0, 1]) :=
  ⟨RxQueue.complete_holds rfl (by decide), by decide, by decide, by decide⟩

end Frames

end EveOS.Virtio.RxHeader
