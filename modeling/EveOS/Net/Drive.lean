/-
`NetStack::drive`, the one call the main loop makes per frame, with the TLS
side that it runs.

The TLS library (`embedded-tls`) is not part of the repository. What the stack
sees of it are the calls it makes on `TlsNetBridge` (`eve_tls.rs`) and the
results it returns, so a `TlsScript` lists just these, and every statement
about `drive` quantifies over the script. In the same way `polls` lists what
the NIC returns to successive `poll_rx_packet` calls: a frame, or nothing.
-/
import EveOS.Net.Rx

set_option autoImplicit false

namespace EveOS.Net

/-- The stack, the transmit side of its NIC, and the results of the polls of
its receive side that are still to come. -/
structure Sys where
  net : NetStack
  vio : AnyNic
  polls : List (Option Bytes)

/-- Apply an operation of the stack. -/
def Sys.onNet (sys : Sys) (f : NetStack → NetStack) : Sys := { sys with net := f sys.net }

/-- Apply an operation of the stack that may transmit. -/
def Sys.onTx (sys : Sys) (f : NetStack → AnyNic → NetStack × AnyNic) : Sys :=
  let (net, vio) := f sys.net sys.vio
  { sys with net := net, vio := vio }

/-! ## TLS queues -/

/-- `tls_cipher_pop` into a buffer of `cap` bytes. -/
def TlsSession.tls_cipher_pop (s : TlsSession) (cap : Nat) : TlsSession × Bytes :=
  let avail := s.tls_cipher_in.length - s.tls_cipher_off
  if avail = 0 then (s, [])
  else
    let n := min avail cap
    let out := slice s.tls_cipher_in s.tls_cipher_off (s.tls_cipher_off + n)
    let s := { s with tls_cipher_off := s.tls_cipher_off + n }
    if s.tls_cipher_in.length ≤ s.tls_cipher_off then
      ({ s with tls_cipher_off := 0, tls_cipher_in := [] }, out)
    else if 24576 < s.tls_cipher_off then (s.tls_cipher_compact, out)
    else (s, out)

/-- `tls_cipher_tx_append`, with the `bool` it returns. -/
def TlsSession.tls_cipher_tx_append (s : TlsSession) (data : Bytes) : TlsSession × Bool :=
  if TLS_TX_CAP < s.tls_tx_buf.length + data.length then (s, false)
  else ({ s with tls_tx_buf := s.tls_tx_buf ++ data }, true)

/-- The payload of one segment of `tls_tx_flush_all`. -/
def TLS_MSS : Nat := 1400

variable (env : Env)

/-- The loop of `tls_tx_flush_all`. Each round that goes on takes at least one
byte; `fuel` bounds the rounds. -/
def NetStack.tls_tx_flush_loop : Nat → NetStack → AnyNic → NetStack × AnyNic
  | 0, s, vio => (s, vio)
  | fuel + 1, s, vio =>
    if s.tls_tx_buf = [] then (s, vio)
    else
      let n := min s.tls_tx_buf.length TLS_MSS
      let pkt := build_tcp_ack_psh env.our_mac s.gw_mac s.addrs s.remote_ip LOCAL_PORT
        s.remote_port s.tcp_seq s.tcp_ack (s.tls_tx_buf.take n) (s.ip_id + 1) env.scratch_len
      let s := { s with ip_id := s.ip_id + 1 }
      if pkt = [] then (s, vio)
      else
        match vio.transmit pkt with
        | (false, vio) => (s, vio)
        | (true, vio) =>
          tls_tx_flush_loop fuel
            { s with tcp_seq := s.tcp_seq + UInt32.ofNat n, tls_tx_buf := s.tls_tx_buf.drop n } vio

/-- `tls_tx_flush_all`. -/
def NetStack.tls_tx_flush_all (s : NetStack) (vio : AnyNic) : NetStack × AnyNic :=
  let (s, vio) := s.tls_tx_flush_loop env s.tls_tx_buf.length vio
  ({ s with tls_tx_flush_pending := false }, vio)

/-! ## Receiving -/

/-- The receive loop of `drive` and of `tls_spin_poll`: frames are handled
until a poll returns nothing, or a frame that is too long for the buffer. -/
def Sys.rx_loop_from : List (Option Bytes) → NetStack → AnyNic → Sys
  | [], s, vio => ⟨s, vio, []⟩
  | none :: rest, s, vio => ⟨s, vio, rest⟩
  | some frame :: rest, s, vio =>
    if frame.length ≤ NIC_RX_IOBUF then
      let (s, vio) := s.handle_rx env vio frame
      rx_loop_from rest s vio
    else ⟨s, vio, rest⟩

def Sys.rx_loop (sys : Sys) : Sys := Sys.rx_loop_from env sys.polls sys.net sys.vio

/-- `tls_spin_poll`. -/
def Sys.tls_spin_poll (sys : Sys) : Sys :=
  if !sys.net.tls_poll then sys
  else (sys.onTx (fun s vio => s.tls_tx_flush_all env vio)).rx_loop env

/-! ## The bridge of `eve_tls.rs` -/

/-- A call of the TLS library on its transport. -/
inductive BridgeOp
  | read (buf_len : Nat)
  | write (data : Bytes)
  | flush
  deriving DecidableEq, Repr

/-- `spin_max` of `TlsNetBridge::read`. -/
def SPIN_MAX : Nat := 2000000

/-- The loop of `TlsNetBridge::read`, for the spins that are left. -/
def Sys.bridge_read : Nat → Sys → Nat → Sys
  | 0, sys, _ => sys
  | spins + 1, sys, buf_len =>
    let (tls, out) := sys.net.toTlsSession.tls_cipher_pop buf_len
    let sys := sys.onNet (fun s => { s with toTlsSession := tls })
    if out ≠ [] then sys
    else if sys.net.tls_tcp_eof then sys
    else bridge_read spins (sys.tls_spin_poll env) buf_len

/-- One call on the bridge. -/
def Sys.bridge_op (sys : Sys) : BridgeOp → Sys
  | .read buf_len => if buf_len = 0 then sys else sys.bridge_read env SPIN_MAX buf_len
  | .write data =>
    sys.onNet fun s => { s with toTlsSession := (s.toTlsSession.tls_cipher_tx_append data).1 }
  | .flush => sys.onNet fun s => { s with tls_tx_flush_pending := true }

/-- The calls the library makes during one of its own operations. -/
def Sys.bridge_ops (sys : Sys) (ops : List BridgeOp) : Sys :=
  ops.foldl (fun sys op => sys.bridge_op env op) sys

/-- An operation of the TLS library: the bridge calls it makes, and whether it
succeeds. -/
structure TlsCall where
  ops : List BridgeOp
  ok : Bool
  deriving DecidableEq, Repr

/-- What the TLS library does during one `drive`: the two `open` attempts, the
write of the GET, and the reads with the plaintext they return (`none` for an
error; a read past the end of the list returns no bytes). -/
structure TlsScript where
  open_isrg : TlsCall
  open_digicert : TlsCall
  write_get : TlsCall
  reads : List (List BridgeOp × Option Bytes)
  deriving DecidableEq, Repr

/-- A library that fails at once. -/
def TlsScript.refuse : TlsScript := ⟨⟨[], false⟩, ⟨[], false⟩, ⟨[], false⟩, []⟩

/-- Give up a TLS session with an error. -/
def NetStack.tls_abort (s : NetStack) (msg : String) : NetStack :=
  ({ s with tls_live := false, tls_handshake_done := false }.clear_tls_poll).set_err msg

/-- The part of `run_https_handshake_and_get` behind a successful `open`. -/
def Sys.tls_send_get (script : TlsScript) (sys : Sys) : Sys :=
  let sys := sys.onNet fun s => { s with tls_live := true, tls_handshake_done := true }
  match build_http_get sys.net.path sys.net.host_header 512 with
  | none => sys.onNet (·.tls_abort "GET TOO LONG")
  | some _ =>
    let sys := sys.bridge_ops env script.write_get.ops
    if !script.write_get.ok then sys.onNet (·.tls_abort "TLS WRITE FAIL")
    else
      let sys := sys.onTx (fun s vio => s.tls_tx_flush_all env vio)
      sys.onNet fun s => { s with get_sent := true }.clear_tls_poll

/-- `core::str::from_utf8(..).is_ok()`. -/
def utf8_ok (bs : Bytes) : Bool := ByteArray.validateUTF8 ⟨bs.toArray⟩

/-- `run_https_handshake_and_get`. -/
def Sys.run_https_handshake_and_get (script : TlsScript) (sys : Sys) : Sys :=
  let sys := sys.onNet (·.set_tls_poll)
  if 96 < sys.net.tls_server_name.length || !utf8_ok sys.net.tls_server_name then
    sys.onNet fun s => s.clear_tls_poll.set_err "TLS BAD HOST"
  else
    let sys := sys.bridge_ops env script.open_isrg.ops
    if script.open_isrg.ok then sys.tls_send_get env script
    else
      let sys := sys.bridge_ops env script.open_digicert.ops
      if script.open_digicert.ok then sys.tls_send_get env script
      else sys.onNet fun s => s.clear_tls_poll.set_err "TLS VERIFY FAIL"

/-- The read loop of `tls_pump_application`. It does not look at `fetch_done`. -/
def Sys.tls_read_loop : List (List BridgeOp × Option Bytes) → Sys → Sys
  | [], sys => sys
  | (ops, none) :: _, sys => (sys.bridge_ops env ops).onNet (·.set_err "TLS READ ERR")
  | (ops, some data) :: rest, sys =>
    let sys := sys.bridge_ops env ops
    let data := data.take NIC_RX_IOBUF
    if data = [] then sys
    else tls_read_loop rest (sys.onNet (·.ingest_tcp_payload env.dec data))

/-- The end of `tls_pump_application`. -/
def NetStack.tls_pump_eof (s : NetStack) : NetStack :=
  if s.tls_tcp_eof && !s.fetch_done then
    if s.http_chunked then s.set_err "HTTP CHUNK EOF" else s.finish_fetch env.dec
  else s

/-- `tls_pump_application`. -/
def Sys.tls_pump_application (script : TlsScript) (sys : Sys) : Sys :=
  if !sys.net.tls_live then sys
  else
    let sys := sys.onNet (·.set_tls_poll)
    let sys := sys.tls_spin_poll env
    let sys := sys.tls_read_loop env script.reads
    let sys := sys.onTx (fun s vio => s.tls_tx_flush_all env vio)
    sys.onNet fun s => s.clear_tls_poll.tls_pump_eof env

/-! ## The phases of `drive` -/

/-- `sync_ip_from_settings` for the DHCP mode. -/
def NetStack.enter_dhcp (s : NetStack) : NetStack :=
  let xid := (s.tick * 0x9E3779B1) ^^^ s.tcp_seq
  { s with
    addrs := .ZERO
    dhcp_phase := .WaitOffer
    dhcp_xid := if xid = 0 then 0x01020304 else xid
    dhcp_server_id := .zero
    dhcp_offer_yi := .zero
    fetch_err := []
    dhcp_phase_start_tick := 0
    dhcp_last_tx_tick := 0 }

/-- `sync_ip_from_settings`. -/
def NetStack.sync_ip_from_settings (s : NetStack) (settings : DeviceSettings) (tag : UInt32) :
    NetStack :=
  if tag = s.ip_settings_tag then s
  else
    let s := { s with
      ip_settings_tag := tag
      gw_known := false
      dhcp_phase_start_tick := 0
      dhcp_last_tx_tick := 0 }
    let s :=
      match settings.ip_config with
      | .Slirp => { s with addrs := .SLIRP, dhcp_phase := .Idle }
      | .Static =>
        { s with
          addrs := ⟨settings.static_ip, settings.static_gw, settings.static_dns⟩
          dhcp_phase := .Idle }
      | .Dhcp => s.enter_dhcp
    s.reset_demo

/-- The first two statements of `drive`. -/
def NetStack.drive_begin (s : NetStack) (settings : DeviceSettings) : NetStack :=
  let s := s.sync_ip_from_settings settings settings.ip_settings_tag
  { s with tick := s.tick + 1 }

/-- The stamp of a DHCP phase that has none yet. Zero means "unset". -/
def NetStack.dhcp_stamp (s : NetStack) : NetStack :=
  if s.dhcp_phase_start_tick = 0 then
    { s with dhcp_phase_start_tick := s.tick, dhcp_last_tx_tick := 0 }
  else s

/-- The retransmission timer of `drive`. -/
def NetStack.dhcp_retransmit (s : NetStack) (vio : AnyNic) : NetStack × AnyNic :=
  if s.dhcp_last_tx_tick = 0 || 200 ≤ s.tick - s.dhcp_last_tx_tick then
    let s := { s with dhcp_last_tx_tick := s.tick }
    (s, if s.dhcp_phase = .WaitOffer then s.dhcp_send_discover env vio
        else s.dhcp_send_request env vio)
  else (s, vio)

/-- The phase timer of `drive`: after 12000 ticks the stack falls back to the
SLIRP addresses. -/
def NetStack.dhcp_timeout (s : NetStack) : NetStack :=
  if 12000 < s.tick - s.dhcp_phase_start_tick then
    { s with
      addrs := .SLIRP
      dhcp_phase := .Idle
      gw_known := false
      dhcp_phase_start_tick := 0
      dhcp_last_tx_tick := 0 }
  else s

/-- The DHCP part of `drive`. -/
def NetStack.dhcp_poll (s : NetStack) (vio : AnyNic) : NetStack × AnyNic :=
  if s.dhcp_active then
    let (s, vio) := s.dhcp_stamp.dhcp_retransmit env vio
    (s.dhcp_timeout, vio)
  else (s, vio)

/-- The phase shown in the status line. -/
def NetStack.show_phase (s : NetStack) : NetStack :=
  { s with
    phase :=
      if !s.gw_known then .Arp
      else if s.fetch_armed && s.needs_dns && !s.dns_done then .Dns
      else if s.fetch_armed && s.dns_done && !s.fetch_done then
        if !s.get_sent then .Tcp else .Http
      else if s.fetch_done then .Done
      else .Off }

/-- The ARP part of `drive`. -/
def NetStack.arp_poll (s : NetStack) (vio : AnyNic) : AnyNic :=
  if s.tick % 72 = 0 then vio.send (build_arp_request env.our_mac s.addrs env.scratch_len)
  else vio

/-- The DNS part of `drive`. -/
def NetStack.dns_poll (s : NetStack) (vio : AnyNic) : NetStack × AnyNic :=
  let s := { s with dns_xmit_phase := s.dns_xmit_phase + 1 }
  let (s, vio) :=
    if s.dns_xmit_phase % 64 = 0 then
      let pkt := build_dns_udp_packet env.our_mac s.gw_mac s.addrs DNS_LOCAL_PORT 53 s.dns_name
        s.dns_tx_id (s.ip_id + 1) env.scratch_len
      ({ s with ip_id := s.ip_id + 1 }, vio.send pkt)
    else (s, vio)
  (if 64 * 48 < s.dns_xmit_phase then s.set_err "DNS TIMEOUT" else s, vio)

/-- A SYN is sent while the GET is not: the first one at once, retries every 96
ticks, at most 12. -/
def NetStack.try_syn (s : NetStack) : Bool :=
  !s.syn_sent || (decide (s.syn_retries < 12) && s.tick % 96 == 0 && !s.get_sent)

/-- The SYN the stack would send now. -/
def NetStack.syn_packet (s : NetStack) : Bytes :=
  build_tcp_syn env.our_mac s.gw_mac s.addrs s.tcp_seq s.remote_ip s.remote_port env.scratch_len

/-- The SYN part of `drive`. -/
def NetStack.syn_poll (s : NetStack) (vio : AnyNic) : NetStack × AnyNic :=
  if s.try_syn && s.syn_packet env ≠ [] then
    ({ s with syn_sent := true, syn_retries := min (s.syn_retries + 1) 255 },
      (vio.transmit (s.syn_packet env)).2)
  else (s, vio)

/-- The two connect limits of `drive`. -/
def NetStack.connect_expired (s : NetStack) : Bool :=
  !s.get_sent && (decide (12 ≤ s.syn_retries) || decide (16000 < s.tick - s.tcp_connect_start_tick))

/-- The response limit of `drive`. -/
def NetStack.http_expired (s : NetStack) : Bool :=
  s.get_sent && decide (12000 < s.tick - s.fetch_progress_tick)

/-- The TLS part of `drive`. -/
def Sys.tls_poll (script : TlsScript) (sys : Sys) : Sys :=
  let s := sys.net
  if s.https_mode && s.https_handshake_queued && !s.tls_handshake_done && !s.fetch_done then
    (sys.onNet fun s => { s with https_handshake_queued := false }).run_https_handshake_and_get
      env script
  else if s.https_mode && s.tls_handshake_done && s.get_sent && !s.fetch_done then
    sys.tls_pump_application env script
  else sys

/-- The part of `drive` behind DNS. -/
def Sys.tcp_poll (script : TlsScript) (sys : Sys) : Sys :=
  if sys.net.connect_expired then sys.onNet (·.set_err "TCP NO CONNECT")
  else
    let sys := sys.onTx (fun s vio => s.syn_poll env vio)
    if sys.net.http_expired then sys.onNet (·.set_err "HTTP TIMEOUT")
    else sys.tls_poll env script

/-- The part of `drive` behind DHCP. -/
def Sys.fetch_poll (script : TlsScript) (sys : Sys) : Sys :=
  let sys := sys.onNet (·.show_phase)
  let s := sys.net
  if !s.gw_known then { sys with vio := s.arp_poll env sys.vio }
  else if s.fetch_armed && s.needs_dns && !s.dns_done then
    sys.onTx (fun s vio => s.dns_poll env vio)
  else if s.fetch_armed && s.dns_done && !s.fetch_done then sys.tcp_poll env script
  else sys

/-- The part of `drive` up to its DHCP timers. -/
def Sys.drive_front (settings : DeviceSettings) (sys : Sys) : Sys :=
  let sys := (sys.onNet (·.drive_begin settings)).rx_loop env
  if settings.ip_config = .Dhcp then sys.onTx (fun s vio => s.dhcp_poll env vio) else sys

/-- `drive`. -/
def Sys.drive (settings : DeviceSettings) (script : TlsScript) (sys : Sys) : Sys :=
  let sys := sys.drive_front env settings
  if settings.ip_config = .Dhcp && sys.net.dhcp_active then sys
  else if sys.net.addrs.is_our_zero then sys
  else sys.fetch_poll env script

end EveOS.Net
