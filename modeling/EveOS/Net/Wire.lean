/-
The packets the stack builds, as the bytes it hands to the NIC.

Each `build_*` of the source fills the front of a scratch buffer and returns
the filled length, or returns 0 when the buffer is too short. Here the result
is the filled part, `[]` standing for the returned 0; every byte of it is
written by the builder, so the previous contents of the buffer do not matter.
-/
import EveOS.Net.State

set_option autoImplicit false

namespace EveOS.Net

/-! ## Checksums -/

/-- The sum loop of `sum16`: 16-bit words, an odd last byte padded. -/
def sum16_words : Bytes → Nat → Nat
  | a :: b :: rest, sum => sum16_words rest (sum + (be16 a b).toNat)
  | [a], sum => sum + a.toNat * 256
  | [], sum => sum

/-- The carry loop of `sum16`. A 32-bit sum needs at most two rounds. -/
def sum16_fold : Nat → Nat → Nat
  | 0, sum => sum
  | fuel + 1, sum => if sum / 65536 = 0 then sum else sum16_fold fuel (sum % 65536 + sum / 65536)

def sum16 (data : Bytes) (sum : Nat) : UInt16 :=
  ~~~ UInt16.ofNat (sum16_fold 32 (sum16_words data sum))

def pseudo_sum (src dst : Ipv4) (proto : UInt8) (len : UInt16) : Nat :=
  (be16 src.b0 src.b1).toNat + (be16 src.b2 src.b3).toNat
    + (be16 dst.b0 dst.b1).toNat + (be16 dst.b2 dst.b3).toNat
    + proto.toNat + len.toNat

/-! ## Headers shared by the builders -/

/-- The zeroed VirtIO header in front of every packet. -/
def virtio_header : Bytes := List.replicate VIRTIO_NET_HDR 0

def eth_header (dst src : Mac) (ethertype : UInt16) : Bytes :=
  dst.bytes ++ src.bytes ++ u16Bytes ethertype

/-- An IPv4 header with the given checksum field. -/
def ipv4_header_with (ip_len : UInt16) (ident : UInt16) (proto : UInt8) (src dst : Ipv4)
    (csum : UInt16) : Bytes :=
  [0x45, 0] ++ u16Bytes ip_len ++ u16Bytes ident ++ [0, 0, 64, proto] ++ u16Bytes csum
    ++ src.bytes ++ dst.bytes

/-- An IPv4 header: the checksum is taken with its own field zero. -/
def ipv4_header (ip_len : UInt16) (ident : UInt16) (proto : UInt8) (src dst : Ipv4) : Bytes :=
  ipv4_header_with ip_len ident proto src dst
    (sum16 (ipv4_header_with ip_len ident proto src dst 0) 0)

/-- A TCP header with the given checksum field. -/
def tcp_header_with (sport dport : UInt16) (seq ack : UInt32) (flg : UInt8) (window : UInt16)
    (csum : UInt16) : Bytes :=
  u16Bytes sport ++ u16Bytes dport ++ u32Bytes seq ++ u32Bytes ack ++ [0x50, flg]
    ++ u16Bytes window ++ u16Bytes csum ++ [0, 0]

/-- A TCP segment, its checksum taken over the pseudo-header too. -/
def tcp_segment (src dst : Ipv4) (sport dport : UInt16) (seq ack : UInt32) (flg : UInt8)
    (window : UInt16) (payload : Bytes) : Bytes :=
  let tcp_len := 20 + payload.length
  let csum := sum16 (tcp_header_with sport dport seq ack flg window 0 ++ payload)
    (pseudo_sum src dst 6 (UInt16.ofNat tcp_len))
  tcp_header_with sport dport seq ack flg window csum ++ payload

/-- The common frame of the three TCP builders. -/
def build_tcp (our_mac gw_mac : Mac) (addrs : NetIpv4Addrs) (remote_ip : Ipv4)
    (sport dport : UInt16) (seq ack : UInt32) (flg : UInt8) (window : UInt16) (payload : Bytes)
    (ip_ident : UInt16) (out_len : Nat) : Bytes :=
  let ip_len := 40 + payload.length
  if out_len < VIRTIO_NET_HDR + 14 + ip_len then []
  else
    virtio_header ++ eth_header gw_mac our_mac ETH_P_IP
      ++ ipv4_header (UInt16.ofNat ip_len) ip_ident 6 addrs.our remote_ip
      ++ tcp_segment addrs.our remote_ip sport dport seq ack flg window payload

/-! ## The builders -/

def build_tcp_syn (our_mac gw_mac : Mac) (addrs : NetIpv4Addrs) (seq : UInt32)
    (remote_ip : Ipv4) (remote_port : UInt16) (out_len : Nat) : Bytes :=
  build_tcp our_mac gw_mac addrs remote_ip LOCAL_PORT remote_port seq 0 0x02 0x2000 [] 0 out_len

def build_tcp_ack_psh (our_mac gw_mac : Mac) (addrs : NetIpv4Addrs) (remote_ip : Ipv4)
    (sport dport : UInt16) (seq ack : UInt32) (payload : Bytes) (ip_ident : UInt16)
    (out_len : Nat) : Bytes :=
  build_tcp our_mac gw_mac addrs remote_ip sport dport seq ack 0x18 0x8000 payload ip_ident out_len

def build_tcp_ack_only (our_mac gw_mac : Mac) (addrs : NetIpv4Addrs) (remote_ip : Ipv4)
    (sport dport : UInt16) (seq ack : UInt32) (ip_ident : UInt16) (out_len : Nat) : Bytes :=
  build_tcp our_mac gw_mac addrs remote_ip sport dport seq ack 0x10 0x8000 [] ip_ident out_len

def build_arp_request (our_mac : Mac) (addrs : NetIpv4Addrs) (out_len : Nat) : Bytes :=
  if out_len < VIRTIO_NET_HDR + 42 then []
  else
    virtio_header ++ eth_header .broadcast our_mac ETH_P_ARP
      ++ u16Bytes ARP_HTYPE_ETH ++ u16Bytes ARP_PTYPE_IP ++ [6, 4] ++ u16Bytes ARP_OP_REQ
      ++ our_mac.bytes ++ addrs.our.bytes ++ List.replicate 6 0 ++ addrs.gw.bytes

/-- A UDP datagram, its checksum taken over the pseudo-header too. -/
def udp_datagram (src dst : Ipv4) (sport dport : UInt16) (payload : Bytes) : Bytes :=
  let udp_len := UInt16.ofNat (8 + payload.length)
  let hdr := u16Bytes sport ++ u16Bytes dport ++ u16Bytes udp_len
  let csum := sum16 (hdr ++ [0, 0] ++ payload) (pseudo_sum src dst 17 udp_len)
  hdr ++ u16Bytes csum ++ payload

/-- The common frame of the two UDP builders. -/
def build_udp (dst_mac our_mac : Mac) (src dst : Ipv4) (sport dport : UInt16) (payload : Bytes)
    (ip_ident : UInt16) (out_len : Nat) : Bytes :=
  let ip_len := 28 + payload.length
  if out_len < VIRTIO_NET_HDR + 14 + ip_len then []
  else
    virtio_header ++ eth_header dst_mac our_mac ETH_P_IP
      ++ ipv4_header (UInt16.ofNat ip_len) ip_ident 17 src dst
      ++ udp_datagram src dst sport dport payload

/-! ### DHCP -/

/-- One option of a DHCP message. -/
def dhcp_opt (tag : UInt8) (data : Bytes) : Bytes := tag :: UInt8.ofNat data.length :: data

/-- The BOOTP part of a DISCOVER or REQUEST. At most 256 of its 576 bytes are
ever used, so `dhcp_push_opt` never runs out of room. -/
def dhcp_message (xid : UInt32) (client_mac : Mac) (msg_type : UInt8) (server_id : Option Ipv4)
    (requested_ip : Option Ipv4) : Bytes :=
  [1, 1, 6, 0] ++ u32Bytes xid ++ [0, 0] ++ u16Bytes 0x8000 ++ List.replicate 16 0
    ++ client_mac.bytes ++ List.replicate 202 0 ++ DHCP_MAGIC
    ++ dhcp_opt OPT_MSG_TYPE [msg_type]
    ++ (match requested_ip with
        | some ip => dhcp_opt OPT_REQUESTED_IP ip.bytes
        | none => [])
    ++ (match server_id with
        | some sid => dhcp_opt OPT_SERVER_ID sid.bytes
        | none => [])
    ++ [OPT_END]

def build_dhcp_packet (our_mac : Mac) (ip_src : NetIpv4Addrs) (xid : UInt32) (client_mac : Mac)
    (msg_type : UInt8) (server_id requested_ip : Option Ipv4) (out_len : Nat) : Bytes :=
  build_udp .broadcast our_mac ip_src.our .broadcast DHCP_CLIENT_PORT DHCP_SERVER_PORT
    (dhcp_message xid client_mac msg_type server_id requested_ip) 0 out_len

/-! ### DNS -/

/-- Labels with their length bytes; a label has 1 to 63 bytes. -/
def encode_labels : List Bytes → Option Bytes
  | [] => some []
  | lab :: rest =>
    if lab.length = 0 ∨ 63 < lab.length then none
    else (encode_labels rest).map (fun tl => UInt8.ofNat lab.length :: lab ++ tl)

/-- `encode_dns_qname` into a buffer of `out_len` bytes. The name takes
`hostname.len() + 2` bytes, so the per-label room checks of the source are one
check. -/
def encode_dns_qname (hostname : Bytes) (out_len : Nat) : Option Bytes :=
  if hostname = [] ∨ 200 < hostname.length ∨ out_len < hostname.length + 2 then none
  else (encode_labels (hostname.splitOn 46)).map (· ++ [0])

def build_dns_udp_packet (our_mac gw_mac : Mac) (addrs : NetIpv4Addrs) (sport dport : UInt16)
    (hostname : Bytes) (tx_id ip_ident : UInt16) (out_len : Nat) : Bytes :=
  match encode_dns_qname hostname (512 - 12) with
  | none => []
  | some qname =>
    build_udp gw_mac our_mac addrs.our addrs.dns sport dport
      (u16Bytes tx_id ++ u16Bytes 0x0100 ++ u16Bytes 1 ++ List.replicate 6 0 ++ qname
        ++ u16Bytes 1 ++ u16Bytes 1)
      ip_ident out_len

/-! ### HTTP -/

def GET_P1 : Bytes := ascii "GET "
def GET_P2 : Bytes := ascii " HTTP/1.0\r\nHost: "
def GET_P3 : Bytes :=
  ascii "\r\nUser-Agent: EveOS/0.1\r\nAccept-Encoding: gzip, identity\r\nConnection: close\r\n\r\n"

/-- `build_http_get` into a buffer of `out_len` bytes. -/
def build_http_get (path host : Bytes) (out_len : Nat) : Option Bytes :=
  if out_len < GET_P1.length + path.length + GET_P2.length + host.length + GET_P3.length then none
  else some (GET_P1 ++ path ++ GET_P2 ++ host ++ GET_P3)

/-! ## Reading a built TCP packet back -/

/-- The sequence number in a built TCP packet. -/
def tcp_packet_seq (pkt : Bytes) : UInt32 := u32At pkt 50

/-- The acknowledgement number in a built TCP packet. -/
def tcp_packet_ack (pkt : Bytes) : UInt32 := u32At pkt 54

/-- The flag byte in a built TCP packet. -/
def tcp_packet_flags (pkt : Bytes) : UInt8 := byteAt pkt 59

/-- The payload of a built TCP packet. -/
def tcp_packet_payload (pkt : Bytes) : Bytes := pkt.drop 66

section BuildTcp

variable (our_mac gw_mac : Mac) (addrs : NetIpv4Addrs) (remote_ip : Ipv4) (sport dport : UInt16)
  (seq ack : UInt32) (flg : UInt8) (window : UInt16) (payload : Bytes) (ip_ident : UInt16)
  (out_len : Nat)

/-- A builder fails exactly when the buffer is too short. -/
theorem build_tcp_eq_nil_iff :
    build_tcp our_mac gw_mac addrs remote_ip sport dport seq ack flg window payload ip_ident
      out_len = [] ↔ out_len < 66 + payload.length := by
  have hcap : VIRTIO_NET_HDR + 14 + (40 + payload.length) = 66 + payload.length := by
    simp only [VIRTIO_NET_HDR]; omega
  simp only [build_tcp, hcap]
  by_cases h : out_len < 66 + payload.length
  · simp [h]
  · simp [h, eth_header, Mac.bytes]

variable (h : 66 + payload.length ≤ out_len)
include h

/-- A packet that fits its buffer, with every field in its place. -/
theorem build_tcp_fields :
    let pkt := build_tcp our_mac gw_mac addrs remote_ip sport dport seq ack flg window payload
      ip_ident out_len
    tcp_packet_seq pkt = seq ∧ tcp_packet_ack pkt = ack ∧ tcp_packet_flags pkt = flg
      ∧ tcp_packet_payload pkt = payload := by
  have hcap : ¬ out_len < VIRTIO_NET_HDR + 14 + (40 + payload.length) := by
    simp only [VIRTIO_NET_HDR]; omega
  simp only [build_tcp, if_neg hcap]
  refine ⟨?_, ?_, ?_, ?_⟩
  · exact be32_u32Bytes seq
  · exact be32_u32Bytes ack
  · rfl
  · rfl

end BuildTcp

end EveOS.Net
