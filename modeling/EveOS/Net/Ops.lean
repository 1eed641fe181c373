/-
The stack as a transition system.

`drive` is a long function that branches on the settings, on what the NIC
returns and on what the TLS library does. It is cut here into the operations it
is made of: `Op` has one constructor for each place where the state changes,
with the guard the source puts in front of that place, and `drive_reaches` shows
that a call of `drive` is a run of operations. A property that every operation
preserves then holds across every sequence of `drive` calls, whatever the
frames, the transmit outcomes and the TLS library are.
-/
import EveOS.Lib.Run
import EveOS.Net.Drive

set_option autoImplicit false

namespace EveOS.Net

/-- The stack and the transmit side of its NIC. -/
abbrev Node := NetStack × AnyNic

/-- The operations a run is made of. -/
inductive Op
  | start_fetch (url : Bytes)
  | reset_demo
  | seed_from_mac (mac : Mac)
  | drive_begin (settings : DeviceSettings)
  | rx (frame : Bytes)
  | dhcp_poll
  | show_phase
  | arp_poll
  | dns_poll
  | tcp_poll
  | tls_begin
  | tls_pump_begin
  | tls_pop (buf_len : Nat)
  | tls_write (data : Bytes)
  | tls_note_flush
  | tls_flush
  | tls_opened
  | tls_fail (msg : String)
  | tls_abort (msg : String)
  | tls_get_sent
  | tls_read (data : Bytes)
  | tls_read_err
  | tls_pump_end
  deriving DecidableEq

/-- The part of `Sys.tcp_poll` in front of TLS. -/
def NetStack.tcp_limits (env : Env) (s : NetStack) (vio : AnyNic) : NetStack × AnyNic :=
  if s.connect_expired then (s.set_err "TCP NO CONNECT", vio)
  else
    let (s, vio) := s.syn_poll env vio
    (if s.http_expired then s.set_err "HTTP TIMEOUT" else s, vio)

/-- The guards `drive` puts in front of its operations. The operations of a TLS
session only happen while `tls_poll_nic` is set. -/
def Op.enabled (s : NetStack) : Op → Bool
  | .dns_poll => s.fetch_armed && s.needs_dns && !s.dns_done
  | .tcp_poll => s.fetch_armed && s.dns_done && !s.fetch_done
  | .tls_begin =>
    s.https_mode && s.https_handshake_queued && !s.tls_handshake_done && !s.fetch_done
  | .tls_pump_begin =>
    s.https_mode && s.tls_handshake_done && s.get_sent && !s.fetch_done && s.tls_live
  | .tls_pop _ | .tls_write _ | .tls_note_flush | .tls_flush | .tls_opened | .tls_get_sent
  | .tls_read _ | .tls_read_err | .tls_pump_end => s.tls_poll
  | .tls_fail msg => s.tls_poll && (msg == "TLS BAD HOST" || msg == "TLS VERIFY FAIL")
  | .tls_abort msg => s.tls_poll && (msg == "GET TOO LONG" || msg == "TLS WRITE FAIL")
  | _ => true

variable (env : Env)

/-- What an enabled operation does. -/
def Op.act (s : NetStack) (vio : AnyNic) : Op → Node
  | .start_fetch url => (s.start_fetch url, vio)
  | .reset_demo => (s.reset_demo, vio)
  | .seed_from_mac mac => (s.seed_from_mac mac, vio)
  | .drive_begin settings => (s.drive_begin settings, vio)
  | .rx frame => s.handle_rx env vio frame
  | .dhcp_poll => s.dhcp_poll env vio
  | .show_phase => (s.show_phase, vio)
  | .arp_poll => (s, s.arp_poll env vio)
  | .dns_poll => s.dns_poll env vio
  | .tcp_poll => s.tcp_limits env vio
  | .tls_begin => ({ s with https_handshake_queued := false }.set_tls_poll, vio)
  | .tls_pump_begin => (s.set_tls_poll, vio)
  | .tls_pop n => ({ s with toTlsSession := (s.toTlsSession.tls_cipher_pop n).1 }, vio)
  | .tls_write data =>
    ({ s with toTlsSession := (s.toTlsSession.tls_cipher_tx_append data).1 }, vio)
  | .tls_note_flush => ({ s with tls_tx_flush_pending := true }, vio)
  | .tls_flush => s.tls_tx_flush_all env vio
  | .tls_opened => ({ s with tls_live := true, tls_handshake_done := true }, vio)
  | .tls_fail msg => (s.clear_tls_poll.set_err msg, vio)
  | .tls_abort msg => (s.tls_abort msg, vio)
  | .tls_get_sent => ({ s with get_sent := true }.clear_tls_poll, vio)
  | .tls_read data => (s.ingest_tcp_payload env.dec data, vio)
  | .tls_read_err => (s.set_err "TLS READ ERR", vio)
  | .tls_pump_end => (s.clear_tls_poll.tls_pump_eof env, vio)

/-- One operation; a disabled one does nothing. -/
def Node.step (x : Node) (op : Op) : Node :=
  if op.enabled x.1 then op.act env x.1 x.2 else x

/-- The frame an operation receives. -/
def Op.frame : Op → Option Bytes
  | .rx frame => some frame
  | _ => none

/-- The operation starts another fetch. -/
def Op.isStart : Op → Bool
  | .start_fetch _ => true
  | _ => false

/-- The operation belongs to a `drive` call, with whatever settings. -/
def Op.isDrive : Op → Bool
  | .start_fetch _ | .reset_demo | .seed_from_mac _ => false
  | _ => true

/-- The operations of a `drive` call behind its DHCP part, and those of its
receive loop. -/
def Op.inFetch : Op → Prop
  | .start_fetch _ | .reset_demo | .seed_from_mac _ | .drive_begin _ | .dhcp_poll => False
  | _ => True

/-- The operations of a `drive` call with the given settings. -/
def Op.inDrive (settings : DeviceSettings) : Op → Prop
  | .start_fetch _ | .reset_demo | .seed_from_mac _ => False
  | .drive_begin st => st = settings
  | _ => True

theorem Op.inFetch.inDrive {settings : DeviceSettings} {op : Op} (h : op.inFetch) :
    op.inDrive settings := by
  cases op <;> first | exact h.elim | trivial

end EveOS.Net
