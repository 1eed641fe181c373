/-
The packets verify.

A receiver sums up the words of the IPv4 header, and those of the transport segment behind the
pseudo-header, with end-around carry; a packet is good when both sums are 0xFFFF. `Verifies` is
this check on the bytes of a packet, and `packets_verify` is that every packet in a builder's
buffer passes it. The one way out is a payload so long that its 32-bit sum overflows.
-/
import EveOS.Net.PacketBuffer

set_option autoImplicit false

namespace EveOS.Net

/-! ## The receiver -/

/-- What the transport checksum covers besides the segment. -/
def pseudo_header (src dst : Bytes) (proto : UInt8) (len : UInt16) : Bytes := src ++ dst ++ [0, proto] ++ u16Bytes len

/-- An Ethernet frame with an IPv4 packet, TCP or UDP, whose checksums are right. -/
structure Verifies (pkt : Bytes) : Prop where
  ethertype : u16At pkt 12 = 0x0800
  version : byteAt pkt 14 = 0x45
  transport : byteAt pkt 23 = 6 ∧ 54 ≤ pkt.length ∨ byteAt pkt 23 = 17 ∧ 42 ≤ pkt.length
  header : ones_sum (words16 (slice pkt 14 34)) = 0xFFFF
  segment : ones_sum (words16 (pseudo_header (slice pkt 26 30) (slice pkt 30 34) (byteAt pkt 23)
    (UInt16.ofNat (pkt.length - 34)) ++ pkt.drop 34)) = 0xFFFF

/-- The length fields of a frame. -/
structure LengthsMatch (pkt : Bytes) : Prop where
  total : (u16At pkt 16).toNat = pkt.length - 14
  datagram : byteAt pkt 23 = 17 → (u16At pkt 38).toNat = pkt.length - 34

/-- What a builder does whose packet takes `size` bytes with the VirtIO header: it returns 0 and
leaves the buffer alone, or puts a packet there that verifies, and leaves alone what is behind it.
The lengths of a larger packet do not fit their fields. -/
def Emits (out : Bytes) (size : Nat) (r : Bytes × Nat) : Prop :=
  if out.length < size then r = (out, 0)
  else r.2 = size ∧ r.1.length = out.length ∧ r.1.drop size = out.drop size ∧
    Verifies (slice r.1 12 size) ∧ (size < 65562 → LengthsMatch (slice r.1 12 size))

/-! ## Checksums -/

section Checks

variable {front rest : Bytes} {sum : Nat}

/-- **A checksum in its field verifies.** -/
theorem field_checks (before : Bytes) (hbefore : before.length % 2 = 0) (hfront : front.length % 2 = 0)
    (hsum : (words16 before).sum = sum) (hlt : sum16_words (front ++ (u16Bytes 0 ++ rest)) sum < 4294967296) :
    ones_sum (words16 (before ++ (front ++ (u16Bytes (sum16 (front ++ (u16Bytes 0 ++ rest)) sum) ++ rest)))) = 0xFFFF := by
  have hcsum := sum16_toNat hlt
  refine ones_sum_complement (words16_le _) (s := sum16_words (front ++ (u16Bytes 0 ++ rest)) sum) ?_
  rw [← hcsum, words16_append hbefore, List.sum_append, words16_sum_field hfront, sum16_words_eq,
    words16_sum_field hfront, hsum, UInt16.toNat_zero]
  omega

theorem pseudo_header_sum (src dst : Ipv4) (proto : UInt8) (len : UInt16) :
    (words16 (pseudo_header src.bytes dst.bytes proto len)).sum = pseudo_sum src dst proto len := by
  have hword : ∀ a b : UInt8, a.toNat * 256 + b.toNat = (be16 a b).toNat := fun a b => (be16_toNat a b).symm
  simp only [pseudo_header, Ipv4.bytes, u16Bytes, List.cons_append, List.nil_append, words16, hword,
    be16_u16Bytes, List.sum_cons, List.sum_nil, pseudo_sum]
  rw [be16_toNat 0 proto, UInt8.toNat_zero]
  omega

theorem ipv4_header_checks (ip_len ident : UInt16) (proto : UInt8) (src dst : Ipv4) :
    ones_sum (words16 (ipv4_header ip_len ident proto src dst)) = 0xFFFF := by
  have hparts : ∀ w, ipv4_header_with ip_len ident proto src dst w =
      ([0x45, 0] ++ u16Bytes ip_len ++ u16Bytes ident ++ [0, 0, 64, proto]) ++
        (u16Bytes w ++ (src.bytes ++ dst.bytes)) := by
    simp [ipv4_header_with]
  have hlt := ipv4_header_sum_lt ip_len ident proto src dst
  rw [hparts] at hlt
  have hchecks := field_checks [] rfl (by simp [u16Bytes]) rfl hlt
  rw [ipv4_header, hparts, hparts]
  exact hchecks

theorem tcp_segment_checks (src dst : Ipv4) (sport dport : UInt16) (seq ack : UInt32) (flg : UInt8) (window : UInt16)
    (payload : Bytes) (hlt : tcp_sum src dst sport dport seq ack flg window payload < 4294967296) :
    ones_sum (words16 (pseudo_header src.bytes dst.bytes 6 (UInt16.ofNat (20 + payload.length)) ++
      tcp_segment src dst sport dport seq ack flg window payload)) = 0xFFFF := by
  have hparts : ∀ w, tcp_header_with sport dport seq ack flg window w ++ payload =
      (u16Bytes sport ++ u16Bytes dport ++ u32Bytes seq ++ u32Bytes ack ++ [0x50, flg] ++ u16Bytes window) ++
        (u16Bytes w ++ ([0, 0] ++ payload)) := by
    simp [tcp_header_with]
  rw [tcp_sum, hparts] at hlt
  have hchecks := field_checks _ (by simp [pseudo_header, Ipv4.bytes, u16Bytes]) (by simp [u16Bytes, u32Bytes])
    (pseudo_header_sum src dst 6 (UInt16.ofNat (20 + payload.length))) hlt
  unfold tcp_segment
  dsimp only
  rw [hparts, hparts]
  exact hchecks

theorem udp_datagram_checks (src dst : Ipv4) (sport dport : UInt16) (payload : Bytes)
    (hlt : udp_sum src dst sport dport payload < 4294967296) :
    ones_sum (words16 (pseudo_header src.bytes dst.bytes 17 (UInt16.ofNat (8 + payload.length)) ++
      udp_datagram src dst sport dport payload)) = 0xFFFF := by
  have hparts : ∀ w, u16Bytes sport ++ u16Bytes dport ++ u16Bytes (UInt16.ofNat (8 + payload.length)) ++
      w ++ payload = (u16Bytes sport ++ u16Bytes dport ++ u16Bytes (UInt16.ofNat (8 + payload.length))) ++
        (w ++ payload) := by
    simp
  have hzero : ([0, 0] : Bytes) = u16Bytes 0 := rfl
  rw [udp_sum, hparts, hzero] at hlt
  have hchecks := field_checks _ (by simp [pseudo_header, Ipv4.bytes, u16Bytes]) (by simp [u16Bytes])
    (pseudo_header_sum src dst 17 (UInt16.ofNat (8 + payload.length))) hlt
  unfold udp_datagram
  dsimp only
  rw [hparts, hparts, hzero]
  exact hchecks

end Checks

/-! ## Frames -/

section Frames

variable {dst_mac src_mac : Mac} {ip_len ident : UInt16} {proto : UInt8} {src dst : Ipv4} {seg : Bytes}

theorem frame_verifies (htransport : proto = 6 ∧ 20 ≤ seg.length ∨ proto = 17 ∧ 8 ≤ seg.length)
    (hseg : ones_sum (words16 (pseudo_header src.bytes dst.bytes proto (UInt16.ofNat seg.length) ++ seg)) = 0xFFFF) :
    Verifies (eth_header dst_mac src_mac ETH_P_IP ++ ipv4_header ip_len ident proto src dst ++ seg) := by
  have hlen : (eth_header dst_mac src_mac ETH_P_IP ++ ipv4_header ip_len ident proto src dst ++ seg).length =
      34 + seg.length := by
    rw [List.length_append]
    rfl
  refine ⟨be16_u16Bytes ETH_P_IP, rfl, ?_, ?_, ?_⟩
  · rw [hlen]
    rcases htransport with ⟨hproto, hseg⟩ | ⟨hproto, hseg⟩
    · exact .inl ⟨hproto, by omega⟩
    · exact .inr ⟨hproto, by omega⟩
  · exact ipv4_header_checks ip_len ident proto src dst
  · rw [hlen, Nat.add_sub_cancel_left]
    exact hseg

theorem frame_lengths (hlen : seg.length < 65516) (hip : ip_len = UInt16.ofNat (20 + seg.length))
    (hudp : proto = 17 → u16At seg 4 = UInt16.ofNat seg.length) :
    LengthsMatch (eth_header dst_mac src_mac ETH_P_IP ++ ipv4_header ip_len ident proto src dst ++ seg) := by
  have hall : (eth_header dst_mac src_mac ETH_P_IP ++ ipv4_header ip_len ident proto src dst ++ seg).length =
      34 + seg.length := by
    rw [List.length_append]
    rfl
  have hsmall : ∀ n, n < 65536 → (UInt16.ofNat n).toNat = n := fun n hn => by
    rw [UInt16.toNat_ofNat', Nat.mod_eq_of_lt (by omega)]
  refine ⟨?_, ?_⟩
  · have hfield : u16At (eth_header dst_mac src_mac ETH_P_IP ++ ipv4_header ip_len ident proto src dst ++ seg) 16 =
        ip_len := be16_u16Bytes ip_len
    rw [hfield, hall, hip, hsmall _ (by omega)]
    omega
  · intro hproto
    have hfield : u16At (eth_header dst_mac src_mac ETH_P_IP ++ ipv4_header ip_len ident proto src dst ++ seg) 38 =
        u16At seg 4 := rfl
    rw [hfield, hudp hproto, hall, hsmall _ (by omega)]
    omega

/-- A packet in the front of a buffer. -/
theorem emits_frame {frame out : Bytes} {size : Nat} (hsize : size = 12 + frame.length) (hroom : ¬out.length < size)
    (hverifies : Verifies frame) (hlengths : size < 65562 → LengthsMatch frame) :
    Emits out size (virtio_header ++ frame ++ out.drop size, size) := by
  have hlen : (virtio_header ++ frame).length = size := by
    rw [List.length_append, hsize]
    rfl
  have hframe : slice (virtio_header ++ frame ++ out.drop size) 12 size = frame := by
    have hdrop : (virtio_header ++ (frame ++ out.drop size)).drop 12 = frame ++ out.drop size := rfl
    rw [slice, List.append_assoc, hdrop, hsize, Nat.add_sub_cancel_left, List.take_left]
  rw [Emits, if_neg hroom, hframe]
  refine ⟨rfl, ?_, List.drop_left' hlen, hverifies, hlengths⟩
  rw [List.length_append, hlen, List.length_drop]
  omega

end Frames

/-! ## The builders -/

section Builders

variable (our_mac gw_mac dst_mac : Mac) (addrs : NetIpv4Addrs) (remote_ip src dst : Ipv4) (sport dport : UInt16)
  (seq ack : UInt32) (flg : UInt8) (window : UInt16) (payload : Bytes) (ip_ident : UInt16) (out : Bytes)

/-- **A TCP builder** emits a packet that verifies, or its sum overflows. -/
theorem build_tcp?_emits :
    (build_tcp? our_mac gw_mac addrs remote_ip sport dport seq ack flg window payload ip_ident out = none ↔
      66 + payload.length ≤ out.length ∧
        4294967296 ≤ tcp_sum addrs.our remote_ip sport dport seq ack flg window payload) ∧
    ∀ r, build_tcp? our_mac gw_mac addrs remote_ip sport dport seq ack flg window payload ip_ident out = some r →
      Emits out (66 + payload.length) r := by
  rw [build_tcp?_eq]
  by_cases hroom : out.length < 66 + payload.length
  · rw [if_pos hroom]
    constructor
    · simp only [reduceCtorEq, false_iff, not_and]
      omega
    · rintro r ⟨⟩
      rw [Emits, if_pos hroom]
  rw [if_neg hroom]
  by_cases hsum : tcp_sum addrs.our remote_ip sport dport seq ack flg window payload < 4294967296
  · rw [if_pos hsum]
    constructor
    · simp only [reduceCtorEq, false_iff, not_and]
      omega
    · rintro r ⟨⟩
      have hseg : (tcp_segment addrs.our remote_ip sport dport seq ack flg window payload).length =
          20 + payload.length := by
        rw [tcp_segment, List.length_append]
        rfl
      have hcap : ¬out.length < VIRTIO_NET_HDR + 14 + (40 + payload.length) := by
        simp only [VIRTIO_NET_HDR]
        omega
      have hchecks := tcp_segment_checks addrs.our remote_ip sport dport seq ack flg window payload hsum
      rw [← hseg] at hchecks
      rw [build_tcp, if_neg hcap, List.append_assoc virtio_header, List.append_assoc virtio_header]
      refine emits_frame ?_ hroom (frame_verifies (.inl ⟨rfl, by omega⟩) hchecks) ?_
      · have hfront : (eth_header gw_mac our_mac ETH_P_IP ++
            ipv4_header (UInt16.ofNat (40 + payload.length)) ip_ident 6 addrs.our remote_ip).length = 34 := rfl
        rw [List.length_append, hseg, hfront]
        omega
      · intro hsmall
        refine frame_lengths (by omega) ?_ ?_
        · rw [hseg]
          congr 1
          omega
        · intro h
          cases h
  · rw [if_neg hsum]
    constructor
    · exact iff_of_true rfl ⟨by omega, by omega⟩
    · intro r hr
      cases hr

/-- **A UDP builder** emits a packet that verifies. -/
theorem build_udp?_emits (hpayload : payload.length ≤ 512) :
    Returns (build_udp? dst_mac our_mac src dst sport dport payload ip_ident out) (Emits out (54 + payload.length)) := by
  have hsum := udp_sum_lt src dst sport dport payload (by omega)
  rw [build_udp?_eq]
  by_cases hroom : out.length < 54 + payload.length
  · rw [if_pos hroom]
    refine .ret ?_
    rw [Emits, if_pos hroom]
  rw [if_neg hroom, if_pos hsum]
  refine .ret ?_
  have hseg : (udp_datagram src dst sport dport payload).length = 8 + payload.length := by
    rw [udp_datagram, List.length_append]
    rfl
  have hcap : ¬out.length < VIRTIO_NET_HDR + 14 + (28 + payload.length) := by
    simp only [VIRTIO_NET_HDR]
    omega
  have hchecks := udp_datagram_checks src dst sport dport payload hsum
  rw [← hseg] at hchecks
  rw [build_udp, if_neg hcap, List.append_assoc virtio_header, List.append_assoc virtio_header]
  refine emits_frame ?_ hroom (frame_verifies (.inr ⟨rfl, by omega⟩) hchecks) ?_
  · have hfront : (eth_header dst_mac our_mac ETH_P_IP ++
        ipv4_header (UInt16.ofNat (28 + payload.length)) ip_ident 17 src dst).length = 34 := rfl
    rw [List.length_append, hseg, hfront]
    omega
  · intro hsmall
    refine frame_lengths (by omega) ?_ ?_
    · rw [hseg]
      congr 1
      omega
    · intro h
      rw [hseg]
      exact be16_u16Bytes (UInt16.ofNat (8 + payload.length))

/-- A builder without a payload. -/
theorem build_tcp?_emits_empty :
    Returns (build_tcp? our_mac gw_mac addrs remote_ip sport dport seq ack flg window [] ip_ident out)
      (Emits out 66) := by
  obtain ⟨hnone, hsome⟩ := build_tcp?_emits our_mac gw_mac addrs remote_ip sport dport seq ack flg window [] ip_ident out
  have hsum := tcp_sum_lt addrs.our remote_ip sport dport seq ack flg window [] (Nat.zero_le _)
  rcases hr : build_tcp? our_mac gw_mac addrs remote_ip sport dport seq ack flg window [] ip_ident out with _ | r
  · have hover := (hnone.mp hr).2
    omega
  · exact .ret (hsome r hr)

end Builders

/-- **Every emitted packet verifies.** Each builder returns 0 and leaves its buffer alone, if the
packet does not fit or the hostname has no labels, or puts a packet there that verifies and
whose lengths match. A sum overflows only over a long payload. -/
theorem packets_verify (our_mac gw_mac client_mac : Mac) (addrs : NetIpv4Addrs) (remote_ip : Ipv4)
    (remote_port sport dport : UInt16) (seq ack xid : UInt32) (payload hostname : Bytes) (ip_ident tx_id : UInt16)
    (msg_type : UInt8) (server_id requested_ip : Option Ipv4) (out : Bytes) :
    Returns (build_tcp_syn? our_mac gw_mac addrs seq remote_ip remote_port out) (Emits out 66) ∧
    Returns (build_tcp_ack_only? our_mac gw_mac addrs remote_ip sport dport seq ack ip_ident out) (Emits out 66) ∧
    (∀ r, build_tcp_ack_psh? our_mac gw_mac addrs remote_ip sport dport seq ack payload ip_ident out = some r →
      Emits out (66 + payload.length) r) ∧
    (build_tcp_ack_psh? our_mac gw_mac addrs remote_ip sport dport seq ack payload ip_ident out = none ↔
      66 + payload.length ≤ out.length ∧
        4294967296 ≤ tcp_sum addrs.our remote_ip sport dport seq ack 0x18 0x8000 payload) ∧
    (4294967296 ≤ tcp_sum addrs.our remote_ip sport dport seq ack 0x18 0x8000 payload → 131042 < payload.length) ∧
    Returns (build_dns_udp_packet? our_mac gw_mac addrs sport dport hostname tx_id ip_ident out) (fun r =>
      (dns_query hostname tx_id = none → r = (out, 0)) ∧
        ∀ query, dns_query hostname tx_id = some query → Emits out (54 + query.length) r) ∧
    Returns (build_dhcp_packet? our_mac addrs xid client_mac msg_type server_id requested_ip out)
      (Emits out (54 + (dhcp_message xid client_mac msg_type server_id requested_ip).length)) := by
  obtain ⟨hnone, hsome⟩ :=
    build_tcp?_emits our_mac gw_mac addrs remote_ip sport dport seq ack 0x18 0x8000 payload ip_ident out
  refine ⟨build_tcp?_emits_empty .., build_tcp?_emits_empty .., hsome, hnone, ?_, ?_, ?_⟩
  · intro hover
    by_contra hlong
    have hsum := tcp_sum_lt addrs.our remote_ip sport dport seq ack 0x18 0x8000 payload (by omega)
    omega
  · rcases build_dns_udp_packet?_eq our_mac gw_mac addrs sport dport hostname tx_id ip_ident out with
      ⟨hquery, hbuild⟩ | ⟨query, hquery, hlen, hbuild⟩
    · rw [hbuild, hquery]
      exact .ret ⟨fun _ => rfl, by simp⟩
    · rw [hbuild, hquery]
      refine (build_udp?_emits _ _ _ _ _ _ query _ _ hlen).mono ?_
      intro r hr
      refine ⟨by simp, ?_⟩
      rintro _ ⟨⟩
      exact hr
  · rw [build_dhcp_packet?_eq]
    have hlen := length_dhcp_message_le xid client_mac msg_type server_id requested_ip
    exact build_udp?_emits _ _ _ _ _ _ _ _ _ (by omega)

/-- The words of a payload of 0xFF. -/
theorem ff_words_sum (k : Nat) : (words16 (List.replicate (2 * k) 0xFF)).sum = 65535 * k := by
  induction k with
  | zero => rfl
  | succ k ih =>
    rw [Nat.mul_succ, List.replicate_succ, List.replicate_succ, words16, List.sum_cons, ih]
    have hff : (0xFF : UInt8).toNat = 255 := rfl
    omega

/-- A buffer with room for it, and 131076 bytes of 0xFF. -/
theorem heavy_payload_overflows :
    build_tcp_ack_psh? .zero .zero ⟨.zero, .zero, .zero⟩ .zero 0 0 0 0 (List.replicate (2 * 65538) 0xFF) 0
      (List.replicate 140000 0) = none := by
  refine (build_tcp?_emits _ _ _ _ _ _ _ _ _ _ _ _ _).1.mpr ⟨?_, ?_⟩
  · rw [List.length_replicate, List.length_replicate]
    omega
  · rw [tcp_sum, sum16_words_eq, tcp_words, ff_words_sum]
    omega

end EveOS.Net
