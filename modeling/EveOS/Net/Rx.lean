/-
The receive path: `handle_rx` and what it dispatches to, together with the
operations that start, reset and fail a fetch.

Every function here takes the stack and the transmit side of the NIC and
returns both. `TcpSegment` is what is left of a frame once `handle_tcp_rx` has
decided that it belongs to the connection of the current fetch; the branches
behind that decision are `take_segment`.
-/
import EveOS.Net.Dhcp
import EveOS.Net.Ingest
import EveOS.Net.Url

set_option autoImplicit false

namespace EveOS.Net

/-! ## Starting and ending a fetch -/

/-- `set_err` on the whole stack. -/
def NetStack.set_err (s : NetStack) (msg : String) : NetStack :=
  { s with toHttpFetch := s.toHttpFetch.set_err msg }

/-- `finish_fetch` on the whole stack. -/
def NetStack.finish_fetch (dec : Decoders) (s : NetStack) : NetStack :=
  { s with toHttpFetch := s.toHttpFetch.finish_fetch dec }

/-- `finish_plain_http_on_tcp_eof` on the whole stack. -/
def NetStack.finish_plain_http_on_tcp_eof (dec : Decoders) (s : NetStack) : NetStack :=
  { s with toHttpFetch := s.toHttpFetch.finish_plain_http_on_tcp_eof dec }

/-- `ingest_tcp_payload` on the whole stack. -/
def NetStack.ingest_tcp_payload (dec : Decoders) (s : NetStack) (data : Bytes) : NetStack :=
  { s with toHttpFetch := s.toHttpFetch.ingest_tcp_payload dec data }

/-- `clear_tls_poll`. -/
def NetStack.clear_tls_poll (s : NetStack) : NetStack := { s with tls_poll := false }

/-- `set_tls_poll`. -/
def NetStack.set_tls_poll (s : NetStack) : NetStack := { s with tls_poll := true }

/-- `clear_fetch_inner`. -/
def NetStack.clear_fetch_inner (s : NetStack) : NetStack :=
  { s with
    tls_live := false
    tls_handshake_done := false
    https_handshake_queued := false
    https_mode := false
    tls_cipher_off := 0
    tls_cipher_in := []
    tls_tx_buf := []
    tls_tcp_eof := false
    tls_tx_flush_pending := false
    tls_server_name := []
    tls_poll := false
    fetch_armed := false
    fetch_done := false
    syn_sent := false
    get_sent := false
    syn_retries := 0
    fetch_progress_tick := s.tick
    http_bytes := 0
    stream := []
    header_found := false
    http_body_remaining := none
    http_chunked := false
    chunk_phase := .SizeLine
    chunk_line := []
    tcp_connect_start_tick := 0
    page := []
    fetch_err := []
    needs_dns := false
    dns_done := false
    dns_xmit_phase := 0
    page_truncated := false
    body_layers := [] }

/-- `reset_demo`. -/
def NetStack.reset_demo (s : NetStack) : NetStack := { s.clear_fetch_inner with phase := .Off }

/-- `reset_tcp_for_new_fetch`. -/
def NetStack.reset_tcp_for_new_fetch (s : NetStack) : NetStack :=
  { s with
    syn_sent := false
    get_sent := false
    syn_retries := 0
    tcp_connect_start_tick := s.tick
    http_bytes := 0
    stream := []
    header_found := false
    http_body_remaining := none
    http_chunked := false
    chunk_phase := .SizeLine
    chunk_line := []
    page := []
    fetch_done := false
    fetch_err := []
    page_truncated := false
    body_layers := [] }

/-- The transaction id of the next DNS query. -/
def NetStack.next_dns_tx_id (s : NetStack) : UInt16 :=
  let id := s.tick.toUInt16 ^^^ 0xACE1
  if id = 0 then 0xB00F else id

/-- `start_fetch`. -/
def NetStack.start_fetch (s : NetStack) (url : Bytes) : NetStack :=
  let s := s.clear_fetch_inner
  match parse_fetch_url url with
  | none => s.set_err "BAD URL"
  | some p =>
    let s := { s with
      https_mode := p.https
      tls_server_name := p.host_for_dns
      remote_port := p.port
      host_header := p.host_header
      path := p.path }
    let s :=
      if p.needs_dns then
        { s with
          needs_dns := true
          dns_done := false
          dns_name := p.host_for_dns
          dns_tx_id := s.next_dns_tx_id }
      else
        { s with needs_dns := false, dns_done := true, remote_ip := p.ip }
    let s := s.reset_tcp_for_new_fetch
    { s with fetch_armed := true, page_gen := s.page_gen + 1 }

/-! ## ARP -/

/-- The checks of `handle_arp`: the gateway's MAC, from a reply to us. -/
def NetStack.arp_accept (s : NetStack) (frame : Bytes) : Option Mac :=
  if frame.length < 42 then none
  else if u16At frame 20 ≠ ARP_OP_REPLY then none
  else if Ipv4.ofSlice frame 38 ≠ s.addrs.our then none
  else if Ipv4.ofSlice frame 28 ≠ s.addrs.gw then none
  else some (.ofSlice frame 22)

/-- `handle_arp`. -/
def NetStack.handle_arp (s : NetStack) (frame : Bytes) : NetStack :=
  match s.arp_accept frame with
  | none => s
  | some mac => { s with gw_mac := mac, gw_known := true }

/-! ## DNS -/

/-- `skip_dns_name`. Each round moves on by at least one byte; `fuel` bounds
the rounds. -/
def skip_dns_name_from (buf : Bytes) : Nat → Nat → Option Nat
  | 0, _ => none
  | fuel + 1, i =>
    if buf.length ≤ i then none
    else
      let len := byteAt buf i
      if len = 0 then some (i + 1)
      else if len &&& 0xC0 = 0xC0 then some (i + 2)
      else
        let i := i + 1 + len.toNat
        if buf.length < i then none else skip_dns_name_from buf fuel i

def skip_dns_name (buf : Bytes) (i : Nat) : Option Nat :=
  skip_dns_name_from buf (buf.length + 1) i

/-- The question loop of `parse_dns_a`: `qd` questions from `off`. -/
def skip_dns_questions (buf : Bytes) : Nat → Nat → Option Nat
  | 0, off => some off
  | qd + 1, off =>
    match skip_dns_name buf off with
    | none => none
    | some off => if buf.length < off + 4 then none else skip_dns_questions buf qd (off + 4)

/-- The answer loop of `parse_dns_a`: `an` records from `off`. -/
def find_dns_a (buf : Bytes) : Nat → Nat → Option Ipv4
  | 0, _ => none
  | an + 1, off =>
    match skip_dns_name buf off with
    | none => none
    | some off =>
      if buf.length < off + 10 then none
      else
        let typ := u16At buf off
        let rdlen := (u16At buf (off + 8)).toNat
        let off := off + 10
        if buf.length < off + rdlen then none
        else if typ = 1 ∧ rdlen = 4 then some (.ofSlice buf off)
        else find_dns_a buf an (off + rdlen)

def parse_dns_a (buf : Bytes) (expected_id : UInt16) : Option Ipv4 :=
  if buf.length < 12 then none
  else if u16At buf 0 ≠ expected_id then none
  else
    match skip_dns_questions buf (u16At buf 4).toNat 12 with
    | none => none
    | some off => find_dns_a buf (u16At buf 6).toNat off

/-- The DNS answer is in: remember the address and connect. -/
def NetStack.take_dns_answer (s : NetStack) (ip : Ipv4) : NetStack :=
  { s with
    remote_ip := ip
    dns_done := true
    needs_dns := false
    dns_xmit_phase := 0
    syn_sent := false
    syn_retries := 0 }

/-- The checks of `handle_udp_rx`: the address in a DNS answer we wait for. -/
def NetStack.dns_accept (s : NetStack) (frame : Bytes) (sip : Ipv4) (ihl : Nat) : Option Ipv4 :=
  if sip ≠ s.addrs.dns || !s.fetch_armed || !s.needs_dns || s.dns_done then none
  else
    let u0 := 14 + ihl
    if frame.length < u0 + 8 then none
    else if u16At frame (u0 + 2) ≠ DNS_LOCAL_PORT then none
    else
      let udp_len := (u16At frame (u0 + 4)).toNat
      if udp_len < 8 || frame.length < u0 + udp_len then none
      else parse_dns_a (slice frame (u0 + 8) (u0 + udp_len)) s.dns_tx_id

/-- `handle_udp_rx`. -/
def NetStack.handle_udp_rx (s : NetStack) (frame : Bytes) (sip : Ipv4) (ihl : Nat) : NetStack :=
  match s.dns_accept frame sip ihl with
  | none => s
  | some ip => s.take_dns_answer ip

/-! ## TLS receive queue -/

/-- `tls_cipher_compact`: drop what has been popped. -/
def TlsSession.tls_cipher_compact (s : TlsSession) : TlsSession :=
  if s.tls_cipher_off = 0 then s
  else { s with tls_cipher_in := s.tls_cipher_in.drop s.tls_cipher_off, tls_cipher_off := 0 }

/-- `tls_cipher_append`, with the `bool` it returns. A full queue is compacted
even when the data is refused. -/
def TlsSession.tls_cipher_append (s : TlsSession) (data : Bytes) : TlsSession × Bool :=
  let s :=
    if TLS_CIPHER_RX_CAP < s.tls_cipher_in.length + data.length then s.tls_cipher_compact else s
  if TLS_CIPHER_RX_CAP < s.tls_cipher_in.length + data.length then (s, false)
  else ({ s with tls_cipher_in := s.tls_cipher_in ++ data }, true)

/-! ## TCP -/

/-- A TCP segment of the current connection. -/
structure TcpSegment where
  seq : UInt32
  flg : UInt8
  payload : Bytes
  deriving DecidableEq, Repr

def TcpSegment.rst (seg : TcpSegment) : Bool := seg.flg &&& 0x04 != 0
def TcpSegment.fin (seg : TcpSegment) : Bool := seg.flg &&& 0x01 != 0
def TcpSegment.syn_ack (seg : TcpSegment) : Bool := seg.flg &&& 0x12 == 0x12

/-- The checks at the top of `handle_tcp_rx`. The payload reaches to the end of
the frame. -/
def NetStack.tcp_accept (s : NetStack) (frame : Bytes) (sip : Ipv4) (ihl : Nat) :
    Option TcpSegment :=
  let tcp_off := 14 + ihl
  if frame.length < tcp_off + 20 then none
  else if u16At frame (tcp_off + 2) ≠ LOCAL_PORT then none
  else if sip ≠ s.remote_ip || u16At frame tcp_off ≠ s.remote_port then none
  else if !s.fetch_armed || !s.dns_done then none
  else
    let hlen := (byteAt frame (tcp_off + 12) >>> 4 &&& 0x0f).toNat * 4
    if frame.length < tcp_off + hlen then none
    else some
      { seq := u32At frame (tcp_off + 4)
        flg := byteAt frame (tcp_off + 13)
        payload := frame.drop (tcp_off + hlen) }

section Tcp

variable (env : Env)

/-- Build a bare ACK with the current numbers, send it and count its
identifier. -/
def NetStack.tcp_send_ack (s : NetStack) (vio : AnyNic) : NetStack × AnyNic :=
  let pkt := build_tcp_ack_only env.our_mac s.gw_mac s.addrs s.remote_ip LOCAL_PORT s.remote_port
    s.tcp_seq s.tcp_ack (s.ip_id + 1) env.scratch_len
  ({ s with ip_id := s.ip_id + 1 }, vio.send pkt)

/-- Send the GET; on success it counts as sent. -/
def NetStack.tcp_send_get (s : NetStack) (vio : AnyNic) (pay : Bytes) : NetStack × AnyNic :=
  let pkt := build_tcp_ack_psh env.our_mac s.gw_mac s.addrs s.remote_ip LOCAL_PORT s.remote_port
    s.tcp_seq s.tcp_ack pay (s.ip_id + 1) env.scratch_len
  let s := { s with ip_id := s.ip_id + 1 }
  if pkt = [] then (s, vio)
  else
    match vio.transmit pkt with
    | (true, vio) =>
      ({ s with get_sent := true, tcp_seq := s.tcp_seq + UInt32.ofNat pay.length }, vio)
    | (false, vio) => (s, vio)

/-- The SYN-ACK branch of `handle_tcp_rx`. -/
def NetStack.take_syn_ack (s : NetStack) (vio : AnyNic) (seg : TcpSegment) : NetStack × AnyNic :=
  let s := { s with tcp_ack := seg.seq + 1, tcp_seq := s.tcp_seq + 1 }
  if s.https_mode then
    let (s, vio) := s.tcp_send_ack env vio
    (if !s.tls_handshake_done then { s with https_handshake_queued := true } else s, vio)
  else
    match build_http_get s.path s.host_header 512 with
    | none => (s.set_err "GET TOO LONG", vio)
    | some pay => s.tcp_send_get env vio pay

/-- What follows the end of the peer's stream. -/
def NetStack.take_fin (s : NetStack) : NetStack :=
  if s.https_mode then { s with tls_tcp_eof := true } else s.finish_plain_http_on_tcp_eof env.dec

/-- Hand the payload on: to the TLS queue, or to the HTTP reader. The flag is
`false` when the TLS queue is full. -/
def NetStack.deliver (s : NetStack) (payload : Bytes) : NetStack × Bool :=
  if s.https_mode then
    let (tls, ok) := s.toTlsSession.tls_cipher_append payload
    ({ s with toTlsSession := tls }, ok)
  else (s.ingest_tcp_payload env.dec payload, true)

/-- The payload branch of `handle_tcp_rx`. Nothing here compares the sequence
number of the segment with `tcp_ack`. -/
def NetStack.take_payload (s : NetStack) (vio : AnyNic) (seg : TcpSegment) : NetStack × AnyNic :=
  let s := { s with
    fetch_progress_tick := s.tick
    http_bytes := s.http_bytes + UInt32.ofNat seg.payload.length }
  match s.deliver env seg.payload with
  | (s, false) => (s.set_err "TLS RX OVFL", vio)
  | (s, true) =>
    let ack_seq := seg.seq + UInt32.ofNat seg.payload.length
    let s := { s with tcp_ack := if seg.fin then ack_seq + 1 else ack_seq }
    let (s, vio) := s.tcp_send_ack env vio
    (if seg.fin then s.take_fin env else s, vio)

/-- The branch for a FIN without payload. -/
def NetStack.take_bare_fin (s : NetStack) (vio : AnyNic) (seg : TcpSegment) :
    NetStack × AnyNic :=
  let s := { s with tcp_ack := seg.seq + 1 }
  let (s, vio) := s.tcp_send_ack env vio
  (s.take_fin env, vio)

/-- What a segment is to the connection. -/
inductive SegKind
  | reset
  | syn_ack
  | payload
  | bare_fin
  | nothing
  deriving DecidableEq, Repr

/-- The branch of `handle_tcp_rx` a segment takes. A SYN-ACK counts until the
request is out. -/
def NetStack.seg_kind (s : NetStack) (seg : TcpSegment) : SegKind :=
  if seg.rst then .reset
  else if seg.syn_ack && !s.get_sent then .syn_ack
  else if 0 < seg.payload.length then .payload
  else if seg.fin && s.get_sent then .bare_fin
  else .nothing

/-- The branches of `handle_tcp_rx` behind its checks. -/
def NetStack.take_segment (s : NetStack) (vio : AnyNic) (seg : TcpSegment) : NetStack × AnyNic :=
  match s.seg_kind seg with
  | .reset => (s.set_err "TCP RST", vio)
  | .syn_ack => s.take_syn_ack env vio seg
  | .payload => s.take_payload env vio seg
  | .bare_fin => s.take_bare_fin env vio seg
  | .nothing => (s, vio)

/-- `handle_tcp_rx`. -/
def NetStack.handle_tcp_rx (s : NetStack) (vio : AnyNic) (frame : Bytes) (sip : Ipv4)
    (ihl : Nat) : NetStack × AnyNic :=
  match s.tcp_accept frame sip ihl with
  | none => (s, vio)
  | some seg => s.take_segment env vio seg

end Tcp

/-! ## `handle_rx` -/

/-- The UDP payload of a datagram from a DHCP server to a DHCP client: `none`
when the frame is no such datagram, `some none` when its length field does not
fit the frame. -/
def dhcp_datagram (frame : Bytes) (ihl : Nat) : Option (Option Bytes) :=
  let u0 := 14 + ihl
  if byteAt frame 23 = 17 ∧ u0 + 8 ≤ frame.length ∧ u16At frame u0 = DHCP_SERVER_PORT
      ∧ u16At frame (u0 + 2) = DHCP_CLIENT_PORT then
    let udp_len := (u16At frame (u0 + 4)).toNat
    if 8 ≤ udp_len ∧ u0 + udp_len ≤ frame.length then some (some (slice frame (u0 + 8) (u0 + udp_len)))
    else some none
  else none

/-- The IPv4 part of `handle_rx`, for a header of `ihl` bytes. -/
def NetStack.handle_ipv4 (env : Env) (s : NetStack) (vio : AnyNic) (frame : Bytes) (ihl : Nat) :
    NetStack × AnyNic :=
  match (if s.dhcp_active then dhcp_datagram frame ihl else none) with
  | some (some payload) => s.handle_dhcp_reply env vio payload
  | some none => (s, vio)
  | none =>
    let dip := Ipv4.ofSlice frame 30
    let sip := Ipv4.ofSlice frame 26
    let proto := byteAt frame 23
    if dip ≠ s.addrs.our ∧ dip ≠ .broadcast then (s, vio)
    else if proto = 17 then (s.handle_udp_rx frame sip ihl, vio)
    else if proto = 6 then s.handle_tcp_rx env vio frame sip ihl
    else (s, vio)

/-- `handle_rx`. -/
def NetStack.handle_rx (env : Env) (s : NetStack) (vio : AnyNic) (frame : Bytes) :
    NetStack × AnyNic :=
  if frame.length < 14 then (s, vio)
  else if u16At frame 12 = ETH_P_ARP then (s.handle_arp frame, vio)
  else if u16At frame 12 ≠ ETH_P_IP ∨ frame.length < 34 then (s, vio)
  else if byteAt frame 14 >>> 4 ≠ 4 then (s, vio)
  else
    let ihl := (byteAt frame 14 &&& 0x0f).toNat * 4
    if frame.length < 14 + ihl then (s, vio) else s.handle_ipv4 env vio frame ihl

/-! ## What a frame is to the stack

`handle_rx` first decides, without changing anything, and then acts. `rx_event`
is the decision; statements about received frames are made in its terms. -/

/-- What a received frame makes the stack do. -/
inductive RxEvent
  | ignored
  | arp (mac : Mac)
  | dhcp (bootp : Bytes)
  | dns (ip : Ipv4)
  | tcp (seg : TcpSegment)
  deriving DecidableEq

/-- The decision for an IPv4 datagram with a header of `ihl` bytes. -/
def NetStack.ipv4_event (s : NetStack) (frame : Bytes) (ihl : Nat) : RxEvent :=
  match (if s.dhcp_active then dhcp_datagram frame ihl else none) with
  | some (some payload) => .dhcp payload
  | some none => .ignored
  | none =>
    if Ipv4.ofSlice frame 30 ≠ s.addrs.our ∧ Ipv4.ofSlice frame 30 ≠ .broadcast then .ignored
    else if byteAt frame 23 = 17 then
      match s.dns_accept frame (.ofSlice frame 26) ihl with
      | none => .ignored
      | some ip => .dns ip
    else if byteAt frame 23 = 6 then
      match s.tcp_accept frame (.ofSlice frame 26) ihl with
      | none => .ignored
      | some seg => .tcp seg
    else .ignored

/-- The decision `handle_rx` makes about a frame. -/
def NetStack.rx_event (s : NetStack) (frame : Bytes) : RxEvent :=
  if frame.length < 14 then .ignored
  else if u16At frame 12 = ETH_P_ARP then
    match s.arp_accept frame with
    | none => .ignored
    | some mac => .arp mac
  else if u16At frame 12 ≠ ETH_P_IP ∨ frame.length < 34 then .ignored
  else if byteAt frame 14 >>> 4 ≠ 4 then .ignored
  else
    let ihl := (byteAt frame 14 &&& 0x0f).toNat * 4
    if frame.length < 14 + ihl then .ignored else s.ipv4_event frame ihl

/-- What the stack does about it. -/
def NetStack.rx_act (env : Env) (s : NetStack) (vio : AnyNic) : RxEvent → NetStack × AnyNic
  | .ignored => (s, vio)
  | .arp mac => ({ s with gw_mac := mac, gw_known := true }, vio)
  | .dhcp bootp => s.handle_dhcp_reply env vio bootp
  | .dns ip => (s.take_dns_answer ip, vio)
  | .tcp seg => s.take_segment env vio seg

theorem handle_ipv4_eq (env : Env) (s : NetStack) (vio : AnyNic) (frame : Bytes) (ihl : Nat) :
    s.handle_ipv4 env vio frame ihl = s.rx_act env vio (s.ipv4_event frame ihl) := by
  unfold NetStack.handle_ipv4 NetStack.ipv4_event
  split
  · rfl
  · rfl
  · dsimp only
    split_ifs
    · rfl
    · unfold NetStack.handle_udp_rx
      cases s.dns_accept frame (.ofSlice frame 26) ihl <;> rfl
    · unfold NetStack.handle_tcp_rx
      cases s.tcp_accept frame (.ofSlice frame 26) ihl <;> rfl
    · rfl

/-- **`handle_rx` is the decision followed by the act.** -/
theorem handle_rx_eq (env : Env) (s : NetStack) (vio : AnyNic) (frame : Bytes) :
    s.handle_rx env vio frame = s.rx_act env vio (s.rx_event frame) := by
  unfold NetStack.handle_rx NetStack.rx_event
  dsimp only
  split_ifs
  · rfl
  · unfold NetStack.handle_arp
    cases s.arp_accept frame <;> rfl
  · rfl
  · rfl
  · rfl
  · exact handle_ipv4_eq env s vio frame _

/-! ### What each decision says about the state it was made in -/

theorem tcp_accept_armed {s : NetStack} {frame : Bytes} {sip : Ipv4} {ihl : Nat}
    {seg : TcpSegment} (h : s.tcp_accept frame sip ihl = some seg) :
    s.fetch_armed = true ∧ s.dns_done = true := by
  unfold NetStack.tcp_accept at h
  dsimp only at h
  split_ifs at h with _ _ _ ha
  simpa using ha

theorem dns_accept_waiting {s : NetStack} {frame : Bytes} {sip : Ipv4} {ihl : Nat} {ip : Ipv4}
    (h : s.dns_accept frame sip ihl = some ip) :
    s.fetch_armed = true ∧ s.needs_dns = true ∧ s.dns_done = false := by
  unfold NetStack.dns_accept at h
  dsimp only at h
  split_ifs at h with hw
  simp only [Bool.or_eq_true, decide_eq_true_eq, Bool.not_eq_true', not_or, Bool.not_eq_false,
    Bool.not_eq_true] at hw
  exact ⟨hw.1.1.2, hw.1.2, hw.2⟩

/-- What the state is like when a frame is taken for the given event. -/
def NetStack.RxReady (s : NetStack) : RxEvent → Prop
  | .ignored | .arp _ => True
  | .dhcp _ => s.dhcp_active = true
  | .dns _ => s.fetch_armed = true ∧ s.needs_dns = true ∧ s.dns_done = false
  | .tcp _ => s.fetch_armed = true ∧ s.dns_done = true

theorem rx_event_ready (s : NetStack) (frame : Bytes) : s.RxReady (s.rx_event frame) := by
  unfold NetStack.rx_event
  dsimp only
  split_ifs
  · trivial
  · cases s.arp_accept frame <;> trivial
  · trivial
  · trivial
  · trivial
  · unfold NetStack.ipv4_event
    split
    · rename_i h
      split_ifs at h with ha
      exact ha
    · trivial
    · split_ifs
      · trivial
      · split
        · trivial
        · rename_i h
          exact dns_accept_waiting h
      · split
        · trivial
        · rename_i h
          exact tcp_accept_armed h
      · trivial

end EveOS.Net
