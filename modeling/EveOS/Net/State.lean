/-
The state of `kernel/src/net.rs`: the enumerations, the constants and
`NetStack` itself.

`NetStack` is one flat struct in the source. It is one here too, as far as
field names go (`s.page`, `s.tcp_seq`, ..), but it is assembled from the groups
of fields that belong to one concern. A helper that only touches one group is
then a function of that group, and that it leaves everything else alone is
visible in its type.

Buffers with a fill count are the list of their filled part (`Lib/Bytes`):
`page` is `page[..page_len]`, `fetch_err` is `fetch_err[..fetch_err_len]`,
`stream`, `chunk_line`, `tls_cipher_in`, `tls_tx_buf`, `host_header`, `path`,
`dns_name` and `tls_server_name` likewise, and `body_layers` is
`body_layers[..body_layer_count]`.
-/
import EveOS.Lib.Bytes

set_option autoImplicit false

namespace EveOS.Net

/-! ## Constants -/

def VIRTIO_NET_HDR : Nat := 12
def TLS_CIPHER_RX_CAP : Nat := 49152
def TLS_TX_CAP : Nat := 24576
def LOCAL_PORT : UInt16 := 49152
def DNS_LOCAL_PORT : UInt16 := 53000
def DHCP_CLIENT_PORT : UInt16 := 68
def DHCP_SERVER_PORT : UInt16 := 67
def OPT_ROUTER : UInt8 := 3
def OPT_DNS : UInt8 := 6
def OPT_REQUESTED_IP : UInt8 := 50
def OPT_MSG_TYPE : UInt8 := 53
def OPT_SERVER_ID : UInt8 := 54
def OPT_END : UInt8 := 255
def DHCP_DISCOVER : UInt8 := 1
def DHCP_OFFER : UInt8 := 2
def DHCP_REQUEST : UInt8 := 3
def DHCP_ACK : UInt8 := 5
def PAGE_CAP : Nat := 65536
def STREAM_CAP : Nat := 4096
def CHUNK_LINE_CAP : Nat := 24
def FETCH_ERR_CAP : Nat := 80
def NIC_RX_IOBUF : Nat := 2048
def ETH_P_IP : UInt16 := 0x0800
def ETH_P_ARP : UInt16 := 0x0806
def ARP_OP_REQ : UInt16 := 1
def ARP_OP_REPLY : UInt16 := 2
def ARP_HTYPE_ETH : UInt16 := 1
def ARP_PTYPE_IP : UInt16 := 0x0800
def DHCP_MAGIC : Bytes := [99, 130, 83, 99]

/-- The largest `usize` of the 64-bit targets. -/
def USIZE_MAX : Nat := 2 ^ 64 - 1

/-! ## Addresses -/

/-- An IPv4 address, `[u8; 4]`. -/
structure Ipv4 where
  b0 : UInt8
  b1 : UInt8
  b2 : UInt8
  b3 : UInt8
  deriving DecidableEq, Repr

def Ipv4.zero : Ipv4 := ⟨0, 0, 0, 0⟩
def Ipv4.broadcast : Ipv4 := ⟨255, 255, 255, 255⟩
def Ipv4.bytes (a : Ipv4) : Bytes := [a.b0, a.b1, a.b2, a.b3]

/-- The address in the four bytes at offset `i`. -/
def Ipv4.ofSlice (buf : Bytes) (i : Nat) : Ipv4 :=
  ⟨byteAt buf i, byteAt buf (i + 1), byteAt buf (i + 2), byteAt buf (i + 3)⟩

/-- A link-layer address, `[u8; 6]`. -/
structure Mac where
  m0 : UInt8
  m1 : UInt8
  m2 : UInt8
  m3 : UInt8
  m4 : UInt8
  m5 : UInt8
  deriving DecidableEq, Repr

def Mac.zero : Mac := ⟨0, 0, 0, 0, 0, 0⟩
def Mac.broadcast : Mac := ⟨255, 255, 255, 255, 255, 255⟩
def Mac.bytes (m : Mac) : Bytes := [m.m0, m.m1, m.m2, m.m3, m.m4, m.m5]

/-- The link-layer address in the six bytes at offset `i`. -/
def Mac.ofSlice (buf : Bytes) (i : Nat) : Mac :=
  ⟨byteAt buf i, byteAt buf (i + 1), byteAt buf (i + 2), byteAt buf (i + 3),
    byteAt buf (i + 4), byteAt buf (i + 5)⟩

/-- `net_ipv4.rs`: guest, default gateway and DNS server. -/
structure NetIpv4Addrs where
  our : Ipv4
  gw : Ipv4
  dns : Ipv4
  deriving DecidableEq, Repr

def NetIpv4Addrs.SLIRP : NetIpv4Addrs := ⟨⟨10, 0, 2, 15⟩, ⟨10, 0, 2, 2⟩, ⟨10, 0, 2, 3⟩⟩
def NetIpv4Addrs.ZERO : NetIpv4Addrs := ⟨.zero, .zero, .zero⟩
def NetIpv4Addrs.is_our_zero (a : NetIpv4Addrs) : Bool := a.our = .zero

/-! ## Enumerations -/

/-- One `Content-Encoding` coding, in header order. -/
inductive BodyLayer
  | Identity
  | Gzip
  | DeflateZlib
  | Brotli
  deriving DecidableEq, Repr

inductive DhcpPhase
  | Idle
  | WaitOffer
  | WaitAck
  | Bound
  deriving DecidableEq, Repr

/-- The state of the chunked body decoder. -/
inductive ChunkDecodePhase
  | SizeLine
  | Data (remaining : Nat)
  | AfterData (step : Nat)
  | Trailers
  deriving DecidableEq, Repr

inductive NetPhase
  | Off
  | Arp
  | Dns
  | Tcp
  | Http
  | Done
  deriving DecidableEq, Repr

/-- `settings.rs`: where the addresses come from. -/
inductive IpConfig
  | Slirp
  | Dhcp
  | Static
  deriving DecidableEq, Repr

/-- `self.ip_config as u32`. -/
def IpConfig.toUInt32 : IpConfig → UInt32
  | .Slirp => 0
  | .Dhcp => 1
  | .Static => 2

/-- The part of `settings.rs`'s `DeviceSettings` that the network stack reads. -/
structure DeviceSettings where
  ip_config : IpConfig
  static_ip : Ipv4
  static_gw : Ipv4
  static_dns : Ipv4
  deriving DecidableEq, Repr

/-- The four octets as `a.wrapping_shl(8).wrapping_add(b)..`. -/
def octetWord (a : Ipv4) : UInt32 :=
  (((a.b0.toUInt32 <<< 8) + a.b1.toUInt32) <<< 8 + a.b2.toUInt32) <<< 8 + a.b3.toUInt32

/-- The change-detection fingerprint of the address settings. -/
def DeviceSettings.ip_settings_tag (s : DeviceSettings) : UInt32 :=
  let h := s.ip_config.toUInt32
  if s.ip_config = .Static then
    h ^^^ octetWord s.static_ip ^^^ (octetWord s.static_gw * 0x9E3779B1)
      ^^^ (octetWord s.static_dns * 0x85EBCA6B)
  else h

/-! ## `NetStack` -/

/-- The response side of a fetch: the page, its error text, the flags that say
where the fetch stands, and the framing state of the HTTP body. -/
structure HttpFetch where
  page : Bytes
  page_gen : UInt32
  fetch_err : Bytes
  fetch_armed : Bool
  fetch_done : Bool
  stream : Bytes
  header_found : Bool
  http_body_remaining : Option Nat
  http_chunked : Bool
  chunk_phase : ChunkDecodePhase
  chunk_line : Bytes
  page_truncated : Bool
  body_layers : List BodyLayer
  deriving DecidableEq

/-- The DHCP client. -/
structure DhcpClient where
  dhcp_phase : DhcpPhase
  dhcp_xid : UInt32
  dhcp_server_id : Ipv4
  dhcp_offer_yi : Ipv4
  dhcp_phase_start_tick : UInt32
  dhcp_last_tx_tick : UInt32
  deriving DecidableEq

/-- The one TCP connection. -/
structure TcpConn where
  tcp_seq : UInt32
  tcp_ack : UInt32
  syn_sent : Bool
  get_sent : Bool
  syn_retries : Nat
  fetch_progress_tick : UInt32
  http_bytes : UInt32
  tcp_connect_start_tick : UInt32
  remote_ip : Ipv4
  remote_port : UInt16
  deriving DecidableEq

/-- The DNS query of the current fetch. -/
structure DnsQuery where
  needs_dns : Bool
  dns_done : Bool
  dns_tx_id : UInt16
  dns_name : Bytes
  dns_xmit_phase : UInt32
  deriving DecidableEq

/-- The TLS session flags and its two byte queues. `tls_poll` says whether
`tls_poll_nic` is non-null; the pointer itself always is the NIC of the
current call. -/
structure TlsSession where
  https_mode : Bool
  tls_handshake_done : Bool
  https_handshake_queued : Bool
  tls_live : Bool
  tls_tcp_eof : Bool
  tls_tx_flush_pending : Bool
  tls_cipher_in : Bytes
  tls_cipher_off : Nat
  tls_tx_buf : Bytes
  tls_poll : Bool
  tls_server_name : Bytes
  deriving DecidableEq

structure NetStack extends HttpFetch, DhcpClient, TcpConn, DnsQuery, TlsSession where
  addrs : NetIpv4Addrs
  ip_settings_tag : UInt32
  gw_mac : Mac
  gw_known : Bool
  tick : UInt32
  ip_id : UInt16
  phase : NetPhase
  host_header : Bytes
  path : Bytes
  deriving DecidableEq

/-- `NetStack::static_initial`. -/
def NetStack.static_initial : NetStack where
  addrs := .SLIRP
  ip_settings_tag := 0xFFFFFFFF
  dhcp_phase := .Idle
  dhcp_xid := 0
  dhcp_server_id := .zero
  dhcp_offer_yi := .zero
  dhcp_phase_start_tick := 0
  dhcp_last_tx_tick := 0
  gw_mac := .zero
  gw_known := false
  tick := 0
  ip_id := 0x4000
  tcp_seq := 0
  tcp_ack := 0
  syn_sent := false
  get_sent := false
  syn_retries := 0
  fetch_progress_tick := 0
  phase := .Off
  http_bytes := 0
  page := []
  page_gen := 0
  fetch_err := []
  fetch_armed := false
  fetch_done := false
  needs_dns := false
  dns_done := false
  dns_tx_id := 0
  dns_name := []
  dns_xmit_phase := 0
  remote_ip := .zero
  remote_port := 80
  host_header := []
  path := []
  https_mode := false
  tls_handshake_done := false
  https_handshake_queued := false
  tls_live := false
  tls_tcp_eof := false
  tls_tx_flush_pending := false
  tls_cipher_in := []
  tls_cipher_off := 0
  tls_tx_buf := []
  tls_poll := false
  tls_server_name := []
  stream := []
  header_found := false
  http_body_remaining := none
  http_chunked := false
  chunk_phase := .SizeLine
  chunk_line := []
  tcp_connect_start_tick := 0
  page_truncated := false
  body_layers := []

/-- `NetStack::seed_from_mac`: the first sequence number, hashed from the MAC. -/
def NetStack.seed_from_mac (s : NetStack) (mac : Mac) : NetStack :=
  { s with
    tcp_seq := mac.bytes.foldl (fun h b => h * 0x01000193 + b.toUInt32) 0x12345678 }

/-! ## The environment of a call

What the stack is handed by its callers and by the libraries it links. -/

/-- `miniz_oxide`'s error status, as far as the stack tells them apart. -/
inductive TINFLStatus
  | HasMoreOutput
  | Other
  deriving DecidableEq, Repr

/-- The decompressors: deterministic functions of their input. `inflate zlib`
is `decompress_slice_iter_to_slice(out, once(input), zlib, true)` with the
written part of `out` as its result; `brotli` is `brotli_decode_prealloc` with
`out[..decoded_size]` for `ResultSuccess` and `none` for any other result. -/
structure Decoders where
  inflate : Bool → Bytes → Except TINFLStatus Bytes
  brotli : Bytes → Option Bytes

/-- What stays the same for every call: our MAC, the length of the scratch
buffer packets are built in, and the decompressors. -/
structure Env where
  our_mac : Mac
  scratch_len : Nat
  dec : Decoders

/-- The transmit side of the NIC. `tx_ok i` is the outcome of the `i`-th
`transmit`; `sent` logs every packet passed to it, with that outcome. -/
structure AnyNic where
  tx_ok : Nat → Bool
  sent : List (Bytes × Bool)

/-- `vio.transmit(pkt)`. -/
def AnyNic.transmit (vio : AnyNic) (pkt : Bytes) : Bool × AnyNic :=
  let ok := vio.tx_ok vio.sent.length
  (ok, { vio with sent := vio.sent ++ [(pkt, ok)] })

/-! ### Concrete values

For runs on concrete frames. -/

/-- Decompressors that reject every input. -/
def Decoders.refuse : Decoders := ⟨fun _ _ => .error .Other, fun _ => none⟩

/-- A guest with the MAC QEMU gives it and the 2048 bytes of `INET_SCRATCH`. -/
def Env.qemu : Env := ⟨⟨0x52, 0x54, 0x00, 0x12, 0x34, 0x56⟩, 2048, .refuse⟩

/-- A NIC on which every `transmit` succeeds. -/
def AnyNic.lossless : AnyNic := ⟨fun _ => true, []⟩

/-- Settings that ask for the SLIRP addresses. -/
def DeviceSettings.slirp : DeviceSettings := ⟨.Slirp, .zero, .zero, .zero⟩

/-- Settings that ask for DHCP. -/
def DeviceSettings.dhcp : DeviceSettings := ⟨.Dhcp, .zero, .zero, .zero⟩

end EveOS.Net
