/-
What each operation leaves alone.

A TCP segment only touches the response, the connection's numbers and the TLS
receive queue. `NetRest` is everything else, and the lemmas below say that the
operations of the receive path and of the TLS session preserve it, or say which
of its fields they set.
-/
import EveOS.Net.Ops

set_option autoImplicit false

namespace EveOS.Net

/-- The part of the stack no TCP segment touches. -/
structure NetRest extends DhcpClient, DnsQuery where
  addrs : NetIpv4Addrs
  ip_settings_tag : UInt32
  gw_mac : Mac
  gw_known : Bool
  tick : UInt32
  phase : NetPhase
  host_header : Bytes
  path : Bytes
  syn_sent : Bool
  syn_retries : Nat
  tcp_connect_start_tick : UInt32
  remote_ip : Ipv4
  remote_port : UInt16
  https_mode : Bool
  tls_handshake_done : Bool
  tls_live : Bool
  tls_poll : Bool
  tls_tx_buf : Bytes

def NetStack.rest (s : NetStack) : NetRest :=
  { s with }

section Segment

variable (env : Env) (s : NetStack) (vio : AnyNic) (seg : TcpSegment)

@[simp] theorem rest_set_err (msg : String) : (s.set_err msg).rest = s.rest := rfl

@[simp] theorem rest_http (h : HttpFetch) : ({ s with toHttpFetch := h } : NetStack).rest = s.rest :=
  rfl

@[simp] theorem rest_tcp_send_ack : (s.tcp_send_ack env vio).1.rest = s.rest := rfl

@[simp] theorem rest_tcp_send_get (pay : Bytes) : (s.tcp_send_get env vio pay).1.rest = s.rest := by
  unfold NetStack.tcp_send_get
  dsimp only
  split_ifs
  · rfl
  · split <;> rfl

@[simp] theorem rest_take_fin : (s.take_fin env).rest = s.rest := by
  unfold NetStack.take_fin
  split_ifs <;> rfl

theorem rest_cipher_append (data : Bytes) :
    ({ s with toTlsSession := (s.toTlsSession.tls_cipher_append data).1 } : NetStack).rest
      = s.rest := by
  unfold TlsSession.tls_cipher_append TlsSession.tls_cipher_compact
  dsimp only
  split_ifs <;> rfl

@[simp] theorem rest_deliver (data : Bytes) : (s.deliver env data).1.rest = s.rest := by
  unfold NetStack.deliver
  split_ifs
  · exact rest_cipher_append s data
  · rfl

theorem rest_take_syn_ack : (s.take_syn_ack env vio seg).1.rest = s.rest := by
  unfold NetStack.take_syn_ack
  dsimp only
  split_ifs
  · rfl
  · rfl
  · split
    · rfl
    · rw [rest_tcp_send_get]; rfl

/-- A payload has been seen, and not yet handed on. -/
def NetStack.count_payload : NetStack :=
  { s with
    fetch_progress_tick := s.tick
    http_bytes := s.http_bytes + UInt32.ofNat seg.payload.length }

/-- **The frame rule of a payload.** What handing it on, failing, acknowledging and the end of the
stream leave alone is what it was when the payload had been counted. -/
theorem take_payload_keeps {γ : Type*} (f : NetStack → γ)
    (hdeliver : ∀ t data, f (NetStack.deliver env t data).1 = f t)
    (herr : ∀ (t : NetStack) msg, f (t.set_err msg) = f t)
    (hack : ∀ (t : NetStack) ack, f (NetStack.tcp_send_ack env { t with tcp_ack := ack } vio).1 = f t)
    (hfin : ∀ t, f (NetStack.take_fin env t) = f t) :
    f (s.take_payload env vio seg).1 = f (s.count_payload seg) := by
  have hsame := hdeliver (s.count_payload seg) seg.payload
  unfold NetStack.take_payload
  unfold NetStack.count_payload at hsame ⊢
  dsimp only
  rcases hd : NetStack.deliver env { s with
    fetch_progress_tick := s.tick
    http_bytes := s.http_bytes + UInt32.ofNat seg.payload.length } seg.payload with ⟨t, _ | _⟩
  · rw [hd] at hsame
    exact (herr t _).trans hsame
  · rw [hd] at hsame
    dsimp only
    split_ifs
    · exact (hfin _).trans ((hack t _).trans hsame)
    · exact (hack t _).trans hsame

theorem rest_take_payload : (s.take_payload env vio seg).1.rest = s.rest :=
  take_payload_keeps env s vio seg NetStack.rest (fun t data => rest_deliver env t data)
    (fun _ _ => rfl) (fun _ _ => rfl) (fun t => rest_take_fin env t)

/-- **A TCP segment leaves the rest of the stack alone.** -/
@[simp] theorem rest_take_segment : (s.take_segment env vio seg).1.rest = s.rest := by
  unfold NetStack.take_segment
  cases s.seg_kind seg with
  | reset => rfl
  | syn_ack => exact rest_take_syn_ack env s vio seg
  | payload => exact rest_take_payload env s vio seg
  | bare_fin =>
    show ((NetStack.tcp_send_ack env _ vio).1.take_fin env).rest = s.rest
    rw [rest_take_fin]
    rfl
  | nothing => rfl

end Segment

/-! ## The other operations

Each of them is the stack with a few fields set. -/

section Others

variable (env : Env) (s : NetStack) (vio : AnyNic)

theorem tls_tx_flush_loop_eq (fuel : Nat) :
    ∃ q i b, (s.tls_tx_flush_loop env fuel vio).1
      = { s with tcp_seq := q, ip_id := i, tls_tx_buf := b } := by
  induction fuel generalizing s vio with
  | zero => exact ⟨s.tcp_seq, s.ip_id, s.tls_tx_buf, rfl⟩
  | succ fuel ih =>
    simp only [NetStack.tls_tx_flush_loop]
    split_ifs
    · exact ⟨s.tcp_seq, s.ip_id, s.tls_tx_buf, rfl⟩
    · exact ⟨s.tcp_seq, s.ip_id + 1, s.tls_tx_buf, rfl⟩
    · split
      · exact ⟨s.tcp_seq, s.ip_id + 1, s.tls_tx_buf, rfl⟩
      · rename_i vio' _
        obtain ⟨q, i, b, h⟩ := ih { s with
          ip_id := s.ip_id + 1
          tcp_seq := s.tcp_seq + UInt32.ofNat (min s.tls_tx_buf.length TLS_MSS)
          tls_tx_buf := s.tls_tx_buf.drop (min s.tls_tx_buf.length TLS_MSS) } vio'
        exact ⟨q, i, b, h⟩

theorem tls_tx_flush_all_eq :
    ∃ q i b, (s.tls_tx_flush_all env vio).1
      = { s with tcp_seq := q, ip_id := i, tls_tx_buf := b, tls_tx_flush_pending := false } := by
  obtain ⟨q, i, b, h⟩ := tls_tx_flush_loop_eq env s vio s.tls_tx_buf.length
  refine ⟨q, i, b, ?_⟩
  unfold NetStack.tls_tx_flush_all
  dsimp only
  rw [h]

theorem dns_poll_eq :
    ∃ h d i, (s.dns_poll env vio).1
      = { s with toHttpFetch := h, dns_xmit_phase := d, ip_id := i } := by
  unfold NetStack.dns_poll
  dsimp only
  split_ifs
  · exact ⟨_, _, _, rfl⟩
  · exact ⟨s.toHttpFetch, _, _, rfl⟩
  · exact ⟨_, _, s.ip_id, rfl⟩
  · exact ⟨s.toHttpFetch, _, s.ip_id, rfl⟩

theorem syn_poll_eq :
    ∃ b n, (s.syn_poll env vio).1 = { s with syn_sent := b, syn_retries := n } := by
  unfold NetStack.syn_poll
  split_ifs
  · exact ⟨_, _, rfl⟩
  · exact ⟨s.syn_sent, s.syn_retries, rfl⟩

theorem tcp_limits_eq :
    ∃ h b n, (s.tcp_limits env vio).1
      = { s with toHttpFetch := h, syn_sent := b, syn_retries := n } := by
  unfold NetStack.tcp_limits
  split_ifs
  · exact ⟨_, s.syn_sent, s.syn_retries, rfl⟩
  · obtain ⟨b, n, h⟩ := syn_poll_eq env s vio
    dsimp only
    rw [h]
    split_ifs
    · exact ⟨_, b, n, rfl⟩
    · exact ⟨s.toHttpFetch, b, n, rfl⟩

theorem tls_pump_eof_eq : ∃ h, s.tls_pump_eof env = { s with toHttpFetch := h } := by
  unfold NetStack.tls_pump_eof
  split_ifs
  · exact ⟨_, rfl⟩
  · exact ⟨_, rfl⟩
  · exact ⟨s.toHttpFetch, rfl⟩

end Others

/-! ## DHCP

The DHCP state changes in three places only: at a change of the settings, in
the DHCP timers, and when a frame is received. -/

/-- The DHCP state and what its timers depend on. -/
structure DhcpView extends DhcpClient where
  addrs : NetIpv4Addrs
  tick : UInt32
  ip_settings_tag : UInt32

def NetStack.dhcpView (s : NetStack) : DhcpView := { s with }

theorem dhcpView_active {s s' : NetStack} (h : s'.dhcpView = s.dhcpView) :
    s'.dhcp_active = s.dhcp_active :=
  congrArg (fun v => v.toDhcpClient.dhcp_active) h

theorem dhcpView_of_rest {s s' : NetStack} (h : s'.rest = s.rest) : s'.dhcpView = s.dhcpView :=
  congrArg (fun r => ({ r with } : DhcpView)) h

theorem start_fetch_dhcpView (s : NetStack) (url : Bytes) :
    (s.start_fetch url).dhcpView = s.dhcpView := by
  unfold NetStack.start_fetch
  dsimp only
  split
  · rfl
  · split_ifs <;> rfl

theorem tcp_seq_dhcpView (s : NetStack) (q : UInt32) :
    ({ s with tcp_seq := q } : NetStack).dhcpView = s.dhcpView := rfl

-- stated for any sequence number first: `rfl` would run the hash of the MAC
theorem seed_from_mac_dhcpView (s : NetStack) (mac : Mac) :
    (s.seed_from_mac mac).dhcpView = s.dhcpView := by
  unfold NetStack.seed_from_mac
  exact tcp_seq_dhcpView s _

/-- The operation is none of those that can change the DHCP state. -/
def Op.dhcpQuiet : Op → Bool
  | .drive_begin _ | .dhcp_poll | .rx _ => false
  | _ => true

theorem step_dhcpView (env : Env) (x : Node) {op : Op} (h : op.dhcpQuiet = true) :
    (Node.step env x op).1.dhcpView = x.1.dhcpView := by
  obtain ⟨s, vio⟩ := x
  unfold Node.step
  split_ifs
  · cases op with
    | drive_begin settings => cases h
    | dhcp_poll => cases h
    | rx frame => cases h
    | start_fetch url => exact start_fetch_dhcpView s url
    | seed_from_mac mac => exact seed_from_mac_dhcpView s mac
    | dns_poll =>
      obtain ⟨h, d, i, he⟩ := dns_poll_eq env s vio
      show (s.dns_poll env vio).1.dhcpView = _
      rw [he]; rfl
    | tcp_poll =>
      obtain ⟨h, b, n, he⟩ := tcp_limits_eq env s vio
      show (s.tcp_limits env vio).1.dhcpView = _
      rw [he]; rfl
    | tls_flush =>
      obtain ⟨q, i, b, he⟩ := tls_tx_flush_all_eq env s vio
      show (s.tls_tx_flush_all env vio).1.dhcpView = _
      rw [he]; rfl
    | tls_pump_end =>
      obtain ⟨h, he⟩ := tls_pump_eof_eq env s.clear_tls_poll
      show (s.clear_tls_poll.tls_pump_eof env).dhcpView = _
      rw [he]; rfl
    | _ => rfl
  · rfl

end EveOS.Net
