/-
What each operation puts on the wire.

The NIC logs every packet it is handed (`AnyNic.sent`). `step_sends` says, for
every operation of a `drive` call, which packets it adds: a SYN only from the TCP
timers, data only from the SYN-ACK branch and the TLS flush, every TCP packet
with the sequence number the connection has reached (`Follows`), and every packet
with an ACK flag with the acknowledgement number the operation leaves behind.
-/
import EveOS.Net.Effect

set_option autoImplicit false

namespace EveOS.Net

/-! ## Packets -/

/-- The packet is a TCP segment. -/
def is_tcp_packet (pkt : Bytes) : Bool := u16At pkt 24 == ETH_P_IP && byteAt pkt 35 == 6

/-- The payload bytes of a packet that went out. -/
def sent_bytes (e : Bytes × Bool) : Nat :=
  if is_tcp_packet e.1 && e.2 then (tcp_packet_payload e.1).length else 0

theorem is_tcp_of {pkt : Bytes} {ethertype : UInt16} {p : UInt8} (he : u16At pkt 24 = ethertype)
    (hp : byteAt pkt 35 = p) :
    is_tcp_packet pkt = (ethertype == ETH_P_IP && p == 6) := by
  unfold is_tcp_packet
  rw [he, hp]

theorem not_tcp_nil : is_tcp_packet [] = false := by decide

theorem build_arp_request_not_tcp (our_mac : Mac) (addrs : NetIpv4Addrs) (n : Nat) :
    is_tcp_packet (build_arp_request our_mac addrs n) = false := by
  unfold build_arp_request
  split_ifs
  · exact not_tcp_nil
  · have he : u16At (virtio_header ++ eth_header .broadcast our_mac ETH_P_ARP
        ++ u16Bytes ARP_HTYPE_ETH ++ u16Bytes ARP_PTYPE_IP ++ [6, 4] ++ u16Bytes ARP_OP_REQ
        ++ our_mac.bytes ++ addrs.our.bytes ++ List.replicate 6 0 ++ addrs.gw.bytes) 24
        = ETH_P_ARP := be16_u16Bytes ETH_P_ARP
    rw [is_tcp_of he rfl]
    have hne : (ETH_P_ARP == ETH_P_IP) = false := by decide
    rw [hne, Bool.false_and]

theorem build_udp_not_tcp (dst our : Mac) (src dip : Ipv4) (sport dport : UInt16) (payload : Bytes)
    (ident : UInt16) (n : Nat) :
    is_tcp_packet (build_udp dst our src dip sport dport payload ident n) = false := by
  unfold build_udp
  dsimp only
  split_ifs
  · exact not_tcp_nil
  · have he : u16At (virtio_header ++ eth_header dst our ETH_P_IP
        ++ ipv4_header (UInt16.ofNat (28 + payload.length)) ident 17 src dip
        ++ udp_datagram src dip sport dport payload) 24 = ETH_P_IP := be16_u16Bytes ETH_P_IP
    rw [is_tcp_of (p := 17) he rfl]
    decide

section BuildTcp

variable (our_mac gw_mac : Mac) (addrs : NetIpv4Addrs) (remote_ip : Ipv4) (sport dport : UInt16)
  (seq ack : UInt32) (flg : UInt8) (window : UInt16) (payload : Bytes) (ident : UInt16) (n : Nat)

/-- A TCP packet that was built, field by field. -/
theorem build_tcp_packet {pkt : Bytes}
    (hp : build_tcp our_mac gw_mac addrs remote_ip sport dport seq ack flg window payload ident n = pkt)
    (hne : pkt ≠ []) :
    is_tcp_packet pkt = true ∧ tcp_packet_seq pkt = seq ∧ tcp_packet_ack pkt = ack
      ∧ tcp_packet_flags pkt = flg ∧ tcp_packet_payload pkt = payload := by
  subst hp
  have hlen : 66 + payload.length ≤ n := by
    by_contra hcon
    apply hne
    rw [build_tcp_eq_nil_iff]
    omega
  refine ⟨?_, build_tcp_fields our_mac gw_mac addrs remote_ip sport dport seq ack flg window payload
    ident n hlen⟩
  unfold build_tcp
  dsimp only
  rw [if_neg (by simp only [VIRTIO_NET_HDR]; omega)]
  have he : u16At (virtio_header ++ eth_header gw_mac our_mac ETH_P_IP
      ++ ipv4_header (UInt16.ofNat (40 + payload.length)) ident 6 addrs.our remote_ip
      ++ tcp_segment addrs.our remote_ip sport dport seq ack flg window payload) 24 = ETH_P_IP :=
    be16_u16Bytes ETH_P_IP
  rw [is_tcp_of (p := 6) he rfl]
  decide

end BuildTcp

/-! ## Sequence numbers along a list of packets -/

/-- The packets go out on a connection whose next sequence number is `q` before
them and `q'` behind them. -/
def Follows : UInt32 → List (Bytes × Bool) → UInt32 → Prop
  | q, [], q' => q' = q
  | q, e :: rest, q' =>
    (is_tcp_packet e.1 = true → tcp_packet_seq e.1 = q)
      ∧ Follows (q + UInt32.ofNat (sent_bytes e)) rest q'

theorem follows_append {q q' q'' : UInt32} {l m : List (Bytes × Bool)} (hl : Follows q l q')
    (hm : Follows q' m q'') : Follows q (l ++ m) q'' := by
  induction l generalizing q with
  | nil =>
    have hq : q' = q := hl
    rw [hq] at hm
    exact hm
  | cons e l ih => exact ⟨hl.1, ih hl.2⟩

/-- Packets `pkt` that are no TCP segments leave the numbers alone. -/
theorem follows_other {q : UInt32} {pkt : Bytes} (h : is_tcp_packet pkt = false) (ok : Bool) :
    Follows q [(pkt, ok)] q := by
  refine ⟨fun ht => ?_, ?_⟩
  · rw [h] at ht
    cases ht
  · show q = q + UInt32.ofNat (sent_bytes (pkt, ok))
    unfold sent_bytes
    rw [h]
    simp

/-- One TCP packet. -/
theorem follows_tcp {pkt : Bytes} {q : UInt32} {ok : Bool} (h : is_tcp_packet pkt = true)
    (hseq : tcp_packet_seq pkt = q) :
    Follows q [(pkt, ok)]
      (q + UInt32.ofNat (if ok then (tcp_packet_payload pkt).length else 0)) := by
  refine ⟨fun _ => hseq, ?_⟩
  show _ = q + UInt32.ofNat (sent_bytes (pkt, ok))
  unfold sent_bytes
  rw [h, Bool.true_and]

/-! ## Sending -/

/-- From `vio` to `vio'` packets went out, with the sequence numbers from `q` to
`q'`, and all TCP packets among them are `good`. -/
def Sends (good : Bytes → Prop) (q : UInt32) (vio vio' : AnyNic) (q' : UInt32) : Prop :=
  ∃ new, vio'.sent = vio.sent ++ new ∧ Follows q new q'
    ∧ ∀ e ∈ new, is_tcp_packet e.1 = true → good e.1

section Sends

variable {good : Bytes → Prop} {q q' q'' : UInt32} {vio vio' vio'' : AnyNic}

theorem Sends.none (good : Bytes → Prop) (q : UInt32) (vio : AnyNic) : Sends good q vio vio q :=
  ⟨[], (List.append_nil _).symm, rfl, nofun⟩

theorem Sends.trans (h₁ : Sends good q vio vio' q') (h₂ : Sends good q' vio' vio'' q'') :
    Sends good q vio vio'' q'' := by
  obtain ⟨l, hl, hfl, hgl⟩ := h₁
  obtain ⟨m, hm, hfm, hgm⟩ := h₂
  refine ⟨l ++ m, by rw [hm, hl, List.append_assoc], follows_append hfl hfm, ?_⟩
  intro e he
  rcases List.mem_append.mp he with h | h
  · exact hgl e h
  · exact hgm e h

theorem Sends.mono {good' : Bytes → Prop} (hg : ∀ pkt, good pkt → good' pkt)
    (h : Sends good q vio vio' q') : Sends good' q vio vio' q' := by
  obtain ⟨l, hl, hf, hgood⟩ := h
  exact ⟨l, hl, hf, fun e he ht => hg e.1 (hgood e he ht)⟩

/-- A packet that is no TCP segment. -/
theorem sends_other (good : Bytes → Prop) (q : UInt32) (vio : AnyNic) {pkt : Bytes}
    (h : is_tcp_packet pkt = false) : Sends good q vio (vio.send pkt) q := by
  unfold AnyNic.send
  split_ifs
  · exact Sends.none good q vio
  · refine ⟨_, rfl, follows_other h _, ?_⟩
    intro e he ht
    rw [List.mem_singleton] at he
    rw [he, h] at ht
    cases ht

variable (good vio) in
/-- A TCP packet that is handed to the NIC. -/
theorem sends_tcp {pkt : Bytes} (ht : is_tcp_packet pkt = true) (hseq : tcp_packet_seq pkt = q)
    (hgood : good pkt) :
    Sends good q vio (vio.transmit pkt).2
      (q + UInt32.ofNat (if (vio.transmit pkt).1 then (tcp_packet_payload pkt).length else 0)) := by
  refine ⟨_, rfl, follows_tcp ht hseq, ?_⟩
  intro e he _
  rw [List.mem_singleton] at he
  rw [he]
  exact hgood

end Sends

/-! ## TCP packets by kind -/

/-- A bare ACK with the given acknowledgement number. -/
def AckPacket (ack : UInt32) (pkt : Bytes) : Prop :=
  tcp_packet_flags pkt = 0x10 ∧ tcp_packet_payload pkt = [] ∧ tcp_packet_ack pkt = ack

/-- A data packet with the given acknowledgement number. -/
def DataPacket (ack : UInt32) (pkt : Bytes) : Prop :=
  tcp_packet_flags pkt = 0x18 ∧ tcp_packet_ack pkt = ack

def SynPacket (pkt : Bytes) : Prop := tcp_packet_flags pkt = 0x02 ∧ tcp_packet_payload pkt = []

section Segment

variable (env : Env) (s : NetStack) (vio : AnyNic)

theorem tcp_send_ack_sends :
    Sends (AckPacket s.tcp_ack) s.tcp_seq vio (s.tcp_send_ack env vio).2 s.tcp_seq := by
  unfold NetStack.tcp_send_ack AnyNic.send
  dsimp only
  split_ifs with h
  · exact Sends.none _ _ _
  · obtain ⟨ht, hseq, hack, hflg, hpay⟩ := build_tcp_packet _ _ _ _ _ _ _ _ _ _ _ _ _ rfl h
    have hsend := sends_tcp (AckPacket s.tcp_ack) vio ht hseq ⟨hflg, hpay, hack⟩
    rw [hpay, List.length_nil, ite_self] at hsend
    rw [show UInt32.ofNat 0 = 0 from rfl, UInt32.add_zero] at hsend
    exact hsend

theorem tcp_send_get_sends (pay : Bytes) :
    Sends (DataPacket s.tcp_ack) s.tcp_seq vio (s.tcp_send_get env vio pay).2
      (s.tcp_send_get env vio pay).1.tcp_seq
    ∧ (s.tcp_send_get env vio pay).1.tcp_ack = s.tcp_ack := by
  unfold NetStack.tcp_send_get
  dsimp only
  split_ifs with h
  · exact ⟨Sends.none _ _ _, rfl⟩
  · obtain ⟨ht, hseq, hack, hflg, hpay⟩ := build_tcp_packet _ _ _ _ _ _ _ _ _ _ _ _ _ rfl h
    have hsend := sends_tcp (DataPacket s.tcp_ack) vio ht hseq ⟨hflg, hack⟩
    rw [hpay] at hsend
    rcases htx : vio.transmit (build_tcp_ack_psh env.our_mac s.gw_mac s.addrs s.remote_ip LOCAL_PORT
      s.remote_port s.tcp_seq s.tcp_ack pay (s.ip_id + 1) env.scratch_len) with ⟨ok, vio'⟩
    unfold build_tcp_ack_psh at htx
    rw [htx] at hsend
    cases ok with
    | true => exact ⟨hsend, rfl⟩
    | false => exact ⟨by simpa using hsend, rfl⟩

theorem conn_deliver (data : Bytes) : (s.deliver env data).1.toTcpConn = s.toTcpConn := by
  unfold NetStack.deliver
  split_ifs <;> rfl

theorem conn_take_fin : (s.take_fin env).toTcpConn = s.toTcpConn := by
  unfold NetStack.take_fin
  split_ifs <;> rfl

/-- The packets of a segment: bare ACKs, and the request behind a SYN-ACK. -/
def SegPacket (k : SegKind) (ack : UInt32) (pkt : Bytes) : Prop :=
  AckPacket ack pkt ∨ (k = .syn_ack ∧ DataPacket ack pkt)

/-- What the SYN of a connection counts for. -/
def SegKind.syn_step (k : SegKind) : UInt32 := if k = .syn_ack then 1 else 0

variable (seg : TcpSegment)

theorem take_syn_ack_sends :
    Sends (SegPacket .syn_ack (s.take_syn_ack env vio seg).1.tcp_ack) (s.tcp_seq + 1) vio
      (s.take_syn_ack env vio seg).2 (s.take_syn_ack env vio seg).1.tcp_seq := by
  unfold NetStack.take_syn_ack
  dsimp only
  by_cases hh : s.https_mode = true
  · have hack := tcp_send_ack_sends env { s with tcp_ack := seg.seq + 1, tcp_seq := s.tcp_seq + 1 } vio
    rw [if_pos hh]
    dsimp only
    split_ifs
    · exact hack.mono fun _ => .inl
    · exact hack.mono fun _ => .inl
  · rw [if_neg hh]
    cases build_http_get s.path s.host_header 512 with
    | none => exact Sends.none _ _ _
    | some pay =>
      obtain ⟨hsend, hack⟩ :=
        tcp_send_get_sends env { s with tcp_ack := seg.seq + 1, tcp_seq := s.tcp_seq + 1 } vio pay
      dsimp only
      rw [hack]
      exact hsend.mono fun _ h => .inr ⟨rfl, h⟩

theorem take_payload_sends :
    Sends (AckPacket (s.take_payload env vio seg).1.tcp_ack) s.tcp_seq vio
      (s.take_payload env vio seg).2 (s.take_payload env vio seg).1.tcp_seq := by
  unfold NetStack.take_payload
  dsimp only
  have hconn := conn_deliver env { s with
    fetch_progress_tick := s.tick
    http_bytes := s.http_bytes + UInt32.ofNat seg.payload.length } seg.payload
  rcases hdel : NetStack.deliver env { s with
    fetch_progress_tick := s.tick
    http_bytes := s.http_bytes + UInt32.ofNat seg.payload.length } seg.payload with ⟨t, ok⟩
  rw [hdel] at hconn
  have hseq := congrArg TcpConn.tcp_seq hconn
  change t.tcp_seq = s.tcp_seq at hseq
  cases ok with
  | false =>
    show Sends _ s.tcp_seq vio vio t.tcp_seq
    rw [hseq]
    exact Sends.none _ _ _
  | true =>
    dsimp only
    have hack := tcp_send_ack_sends env { t with
      tcp_ack := if seg.fin then seg.seq + UInt32.ofNat seg.payload.length + 1
        else seg.seq + UInt32.ofNat seg.payload.length } vio
    dsimp only at hack
    rw [← hseq]
    split_ifs at hack ⊢ with hf
    · have hfin := conn_take_fin env (NetStack.tcp_send_ack env { t with
        tcp_ack := seg.seq + UInt32.ofNat seg.payload.length + 1 } vio).1
      rw [congrArg TcpConn.tcp_ack hfin, congrArg TcpConn.tcp_seq hfin]
      exact hack
    · exact hack

theorem take_bare_fin_sends :
    Sends (AckPacket (s.take_bare_fin env vio seg).1.tcp_ack) s.tcp_seq vio
      (s.take_bare_fin env vio seg).2 (s.take_bare_fin env vio seg).1.tcp_seq := by
  have hack := tcp_send_ack_sends env { s with tcp_ack := seg.seq + 1 } vio
  have hfin := conn_take_fin env
    (NetStack.tcp_send_ack env { s with tcp_ack := seg.seq + 1 } vio).1
  unfold NetStack.take_bare_fin
  dsimp only
  rw [congrArg TcpConn.tcp_ack hfin, congrArg TcpConn.tcp_seq hfin]
  exact hack

/-- **What a segment makes the stack send.** -/
theorem take_segment_sends :
    Sends (SegPacket (s.seg_kind seg) (s.take_segment env vio seg).1.tcp_ack)
      (s.tcp_seq + (s.seg_kind seg).syn_step) vio (s.take_segment env vio seg).2
      (s.take_segment env vio seg).1.tcp_seq := by
  have hzero : s.tcp_seq + 0 = s.tcp_seq := UInt32.add_zero _
  unfold NetStack.take_segment
  cases s.seg_kind seg with
  | reset =>
    show Sends _ (s.tcp_seq + 0) _ _ _
    rw [hzero]
    exact Sends.none _ _ _
  | syn_ack => exact take_syn_ack_sends env s vio seg
  | payload =>
    show Sends _ (s.tcp_seq + 0) _ _ _
    rw [hzero]
    exact (take_payload_sends env s vio seg).mono fun _ => .inl
  | bare_fin =>
    show Sends _ (s.tcp_seq + 0) _ _ _
    rw [hzero]
    exact (take_bare_fin_sends env s vio seg).mono fun _ => .inl
  | nothing =>
    show Sends _ (s.tcp_seq + 0) _ _ _
    rw [hzero]
    exact Sends.none _ _ _

end Segment

/-! ## The TLS flush -/

section Flush

variable (env : Env)

theorem tls_tx_flush_loop_sends (fuel : Nat) (s : NetStack) (vio : AnyNic) :
    Sends (DataPacket s.tcp_ack) s.tcp_seq vio (s.tls_tx_flush_loop env fuel vio).2
      (s.tls_tx_flush_loop env fuel vio).1.tcp_seq := by
  induction fuel generalizing s vio with
  | zero => exact Sends.none _ _ _
  | succ fuel ih =>
    simp only [NetStack.tls_tx_flush_loop]
    split_ifs with hbuf h
    · exact Sends.none _ _ _
    · exact Sends.none _ _ _
    · obtain ⟨ht, hseq, hack, hflg, hpay⟩ := build_tcp_packet _ _ _ _ _ _ _ _ _ _ _ _ _ rfl h
      have hsend := sends_tcp (DataPacket s.tcp_ack) vio ht hseq ⟨hflg, hack⟩
      have hlen : (s.tls_tx_buf.take (min s.tls_tx_buf.length TLS_MSS)).length
          = min s.tls_tx_buf.length TLS_MSS := by
        rw [List.length_take]
        omega
      rw [hpay, hlen] at hsend
      split
      · rename_i vio' htx
        unfold build_tcp_ack_psh at htx
        rw [htx, if_neg Bool.false_ne_true, show UInt32.ofNat 0 = 0 from rfl, UInt32.add_zero] at hsend
        exact hsend
      · rename_i vio' htx
        unfold build_tcp_ack_psh at htx
        rw [htx, if_pos rfl] at hsend
        exact hsend.trans (ih _ vio')

theorem tls_tx_flush_all_sends (s : NetStack) (vio : AnyNic) :
    Sends (DataPacket s.tcp_ack) s.tcp_seq vio (s.tls_tx_flush_all env vio).2
      (s.tls_tx_flush_all env vio).1.tcp_seq :=
  tls_tx_flush_loop_sends env s.tls_tx_buf.length s vio

end Flush

/-! ## Operations -/

section Operation

variable (env : Env)

/-- The TCP part of `drive` sends a SYN now. -/
def NetStack.sends_syn (s : NetStack) : Bool :=
  s.fetch_armed && s.dns_done && !s.fetch_done && !s.connect_expired && s.try_syn
    && s.syn_packet env ≠ []

/-- What an operation adds to the sequence number before it sends. -/
def Op.syn_step (s : NetStack) (op : Op) : UInt32 :=
  match op.segment s with
  | some (k, _) => k.syn_step
  | none => 0

/-- The TCP packets of an operation that leaves the acknowledgement number `ack`
behind. -/
inductive OpPacket (s : NetStack) (op : Op) (ack : UInt32) (pkt : Bytes) : Prop
  | syn (hop : op = .tcp_poll) (hs : s.sends_syn env = true) (hp : SynPacket pkt)
  | ack (hp : AckPacket ack pkt)
  | data (hop : (∃ seg, op.segment s = some (.syn_ack, seg)) ∨ (op = .tls_flush ∧ s.tls_poll = true))
    (hp : DataPacket ack pkt)

variable (s : NetStack) (vio : AnyNic)

theorem dhcp_send_discover_sends (good : Bytes → Prop) (q : UInt32) :
    Sends good q vio (s.dhcp_send_discover env vio) q :=
  sends_other good q vio (build_udp_not_tcp _ _ _ _ _ _ _ _ _)

theorem dhcp_send_request_sends (good : Bytes → Prop) (q : UInt32) :
    Sends good q vio (s.dhcp_send_request env vio) q :=
  sends_other good q vio (build_udp_not_tcp _ _ _ _ _ _ _ _ _)

theorem handle_dhcp_reply_sends (good : Bytes → Prop) (bootp : Bytes) :
    Sends good s.tcp_seq vio (s.handle_dhcp_reply env vio bootp).2
      (s.handle_dhcp_reply env vio bootp).1.tcp_seq := by
  obtain h | ⟨r, sid, -, h⟩ | ⟨r, -, h⟩ := handle_dhcp_reply_cases env s vio bootp
  · rw [h]
    exact Sends.none _ _ _
  · rw [h]
    exact dhcp_send_request_sends env (s.take_offer r sid) vio good s.tcp_seq
  · rw [h]
    exact Sends.none _ _ _

theorem syn_step_rx (frame : Bytes) :
    Op.syn_step s (.rx frame)
      = match s.rx_event frame with
        | .tcp seg => (s.seg_kind seg).syn_step
        | _ => 0 := by
  unfold Op.syn_step
  dsimp only [Op.segment]
  cases s.rx_event frame <;> rfl

theorem handle_rx_sends (frame : Bytes) :
    Sends (OpPacket env s (.rx frame) (s.handle_rx env vio frame).1.tcp_ack)
      (s.tcp_seq + Op.syn_step s (.rx frame)) vio (s.handle_rx env vio frame).2
      (s.handle_rx env vio frame).1.tcp_seq := by
  have hnone : ∀ good, Sends good (s.tcp_seq + 0) vio vio s.tcp_seq := by
    intro good
    rw [UInt32.add_zero]
    exact Sends.none _ _ _
  rw [handle_rx_eq, syn_step_rx]
  cases he : s.rx_event frame with
  | tcp seg =>
    refine (take_segment_sends env s vio seg).mono ?_
    rintro pkt (h | ⟨hk, h⟩)
    · exact .ack h
    · exact .data (.inl ⟨seg, by rw [segment_rx he, hk]⟩) h
  | dhcp bootp =>
    dsimp only
    rw [UInt32.add_zero]
    exact handle_dhcp_reply_sends env s vio _ bootp
  | ignored => exact hnone _
  | arp mac => exact hnone _
  | dns ip => exact hnone _

theorem dns_poll_sends (good : Bytes → Prop) :
    Sends good s.tcp_seq vio (s.dns_poll env vio).2 (s.dns_poll env vio).1.tcp_seq := by
  have hdns : is_tcp_packet (build_dns_udp_packet env.our_mac s.gw_mac s.addrs DNS_LOCAL_PORT 53
      s.dns_name s.dns_tx_id (s.ip_id + 1) env.scratch_len) = false := by
    unfold build_dns_udp_packet
    split
    · exact not_tcp_nil
    · exact build_udp_not_tcp _ _ _ _ _ _ _ _ _
  unfold NetStack.dns_poll
  dsimp only
  split_ifs
  · exact sends_other good s.tcp_seq vio hdns
  · exact sends_other good s.tcp_seq vio hdns
  · exact Sends.none _ _ _
  · exact Sends.none _ _ _

theorem dhcp_poll_sends (good : Bytes → Prop) :
    Sends good s.tcp_seq vio (s.dhcp_poll env vio).2 (s.dhcp_poll env vio).1.tcp_seq := by
  have hstamp : s.dhcp_stamp.tcp_seq = s.tcp_seq := by
    unfold NetStack.dhcp_stamp
    split_ifs <;> rfl
  have hre : ∀ t : NetStack, Sends good t.tcp_seq vio (t.dhcp_retransmit env vio).2
      (t.dhcp_retransmit env vio).1.tcp_seq := by
    intro t
    unfold NetStack.dhcp_retransmit
    split_ifs
    · dsimp only
      split_ifs
      · exact dhcp_send_discover_sends env _ vio good t.tcp_seq
      · exact dhcp_send_request_sends env _ vio good t.tcp_seq
    · exact Sends.none _ _ _
  unfold NetStack.dhcp_poll
  split_ifs
  · have htime : ∀ t : NetStack, t.dhcp_timeout.tcp_seq = t.tcp_seq := by
      intro t
      unfold NetStack.dhcp_timeout
      split_ifs <;> rfl
    dsimp only
    rw [htime, ← hstamp]
    exact hre _
  · exact Sends.none _ _ _

/-- The TCP timers send the SYN that is due. -/
theorem tcp_limits_sends (hen : Op.tcp_poll.enabled s = true) (ack : UInt32) :
    Sends (OpPacket env s .tcp_poll ack) s.tcp_seq vio (s.tcp_limits env vio).2
      (s.tcp_limits env vio).1.tcp_seq := by
  unfold NetStack.tcp_limits
  split_ifs with hexp
  · exact Sends.none _ _ _
  · dsimp only
    have hseq : (s.syn_poll env vio).1.tcp_seq = s.tcp_seq := by
      obtain ⟨b, n, h⟩ := syn_poll_eq env s vio
      rw [h]
    have hsyn : Sends (OpPacket env s .tcp_poll ack) s.tcp_seq vio (s.syn_poll env vio).2
        s.tcp_seq := by
      unfold NetStack.syn_poll
      split_ifs with htry
      · have hready : s.sends_syn env = true := by
          unfold NetStack.sends_syn
          dsimp only [Op.enabled] at hen
          rw [hen, Bool.true_and, Bool.and_assoc, htry, Bool.and_true]
          simpa using hexp
        simp only [Bool.and_eq_true, decide_eq_true_eq] at htry
        obtain ⟨ht, hq, -, hflg, hpay⟩ := build_tcp_packet _ _ _ _ _ _ _ _ _ _ _ _ _ rfl htry.2
        have hsend := sends_tcp (OpPacket env s .tcp_poll ack) vio ht hq
          (.syn rfl hready ⟨hflg, hpay⟩)
        rw [hpay, List.length_nil, ite_self, show UInt32.ofNat 0 = 0 from rfl,
          UInt32.add_zero] at hsend
        exact hsend
      · exact Sends.none _ _ _
    split_ifs
    · show Sends _ _ _ _ (s.syn_poll env vio).1.tcp_seq
      rw [hseq]
      exact hsyn
    · rw [hseq]
      exact hsyn

theorem drive_begin_conn (settings : DeviceSettings) :
    (s.drive_begin settings).tcp_seq = s.tcp_seq ∧ (s.drive_begin settings).tcp_ack = s.tcp_ack := by
  unfold NetStack.drive_begin NetStack.sync_ip_from_settings
  split_ifs
  · exact ⟨rfl, rfl⟩
  · cases settings.ip_config <;> exact ⟨rfl, rfl⟩

/-- **What an operation of a `drive` call puts on the wire.** -/
theorem step_sends (x : Node) {op : Op} (hop : op.isDrive = true) :
    Sends (OpPacket env x.1 op (Node.step env x op).1.tcp_ack) (x.1.tcp_seq + op.syn_step x.1) x.2
      (Node.step env x op).2 (Node.step env x op).1.tcp_seq := by
  obtain ⟨s, vio⟩ := x
  have hzero : s.tcp_seq + 0 = s.tcp_seq := UInt32.add_zero _
  unfold Node.step
  by_cases hen : op.enabled s = true
  · rw [if_pos hen]
    cases op with
    | start_fetch url => cases hop
    | reset_demo => cases hop
    | seed_from_mac mac => cases hop
    | rx frame => exact handle_rx_sends env s vio frame
    | drive_begin settings =>
      show Sends _ (s.tcp_seq + 0) vio vio (s.drive_begin settings).tcp_seq
      rw [hzero, (drive_begin_conn s settings).1]
      exact Sends.none _ _ _
    | dhcp_poll =>
      show Sends _ (s.tcp_seq + 0) _ _ _
      rw [hzero]
      exact dhcp_poll_sends env s vio _
    | arp_poll =>
      show Sends _ (s.tcp_seq + 0) _ (s.arp_poll env vio) _
      rw [hzero]
      unfold NetStack.arp_poll
      split_ifs
      · exact sends_other _ _ _ (build_arp_request_not_tcp _ _ _)
      · exact Sends.none _ _ _
    | dns_poll =>
      show Sends _ (s.tcp_seq + 0) _ _ _
      rw [hzero]
      exact dns_poll_sends env s vio _
    | tcp_poll =>
      show Sends _ (s.tcp_seq + 0) _ _ _
      rw [hzero]
      exact tcp_limits_sends env s vio hen _
    | tls_flush =>
      have hack : (s.tls_tx_flush_all env vio).1.tcp_ack = s.tcp_ack := by
        obtain ⟨q, i, b, h⟩ := tls_tx_flush_all_eq env s vio
        rw [h]
      show Sends (OpPacket env s .tls_flush (s.tls_tx_flush_all env vio).1.tcp_ack) (s.tcp_seq + 0)
        _ _ _
      rw [hzero, hack]
      exact (tls_tx_flush_all_sends env s vio).mono fun _ => .data (.inr ⟨rfl, hen⟩)
    | tls_pump_end =>
      show Sends _ (s.tcp_seq + 0) vio vio (s.clear_tls_poll.tls_pump_eof env).tcp_seq
      obtain ⟨h, he⟩ := tls_pump_eof_eq env s.clear_tls_poll
      rw [hzero, he]
      exact Sends.none _ _ _
    | _ =>
      show Sends _ (s.tcp_seq + 0) vio vio s.tcp_seq
      rw [hzero]
      exact Sends.none _ _ _
  · rw [if_neg hen]
    cases op with
    | rx frame => exact absurd rfl hen
    | _ =>
      show Sends _ (s.tcp_seq + 0) vio vio s.tcp_seq
      rw [hzero]
      exact Sends.none _ _ _

end Operation

end EveOS.Net
