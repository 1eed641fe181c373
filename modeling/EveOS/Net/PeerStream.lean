/-
The peer's byte stream as the stack takes it.

`handle_tcp_rx` never compares the sequence number of a segment with `tcp_ack`: it
hands on every payload of the connection and acknowledges what comes behind it.
`Delivery` watches what was handed on and which packets went out with an ACK flag.
As long as each segment that is taken is the one that follows what was taken
before (`InOrder`), that is a prefix of the peer's stream, and the acknowledgement
numbers count it. A segment that comes twice is handed on twice.
-/
import EveOS.Net.SendSeq

set_option autoImplicit false

namespace EveOS.Net

/-! ## The peer -/

/-- The byte stream of the peer, behind its initial sequence number. -/
structure PeerStream where
  irs : UInt32
  bytes : Bytes

namespace PeerStream

variable (p : PeerStream)

/-- The sequence number of the byte at `off`. -/
def seq_at (off : Nat) : UInt32 := p.irs + 1 + UInt32.ofNat off

/-- The segment carries bytes of the stream from `off` on; a FIN comes with the last one. -/
def At (off : Nat) (seg : TcpSegment) : Prop :=
  off ≤ p.bytes.length ∧ seg.seq = p.seq_at off ∧ seg.payload <+: p.bytes.drop off
    ∧ (seg.fin = true → off + seg.payload.length = p.bytes.length)

instance (off : Nat) (seg : TcpSegment) : Decidable (p.At off seg) :=
  inferInstanceAs (Decidable (_ ∧ _ ∧ _ ∧ (_ → _)))

/-- A SYN-ACK of the peer, or a segment of its stream. -/
def Sends (seg : TcpSegment) : Prop :=
  (seg.syn_ack = true ∧ seg.seq = p.irs ∧ seg.payload = [])
    ∨ (seg.syn_ack = false ∧ ∃ off ∈ List.range (p.bytes.length + 1), p.At off seg)

instance (seg : TcpSegment) : Decidable (p.Sends seg) :=
  inferInstanceAs (Decidable ((_ ∧ _ ∧ _) ∨ (_ ∧ ∃ off ∈ _, _)))

end PeerStream

/-! ## Watching what is taken -/

/-- The queue of a TLS session has room for the payload; the HTTP reader takes everything. -/
def NetStack.takes (s : NetStack) (payload : Bytes) : Bool :=
  !s.https_mode || (s.toTlsSession.tls_cipher_append payload).2

theorem deliver_takes (env : Env) (s : NetStack) (payload : Bytes) :
    (s.deliver env payload).2 = s.takes payload := by
  unfold NetStack.deliver NetStack.takes
  by_cases hh : s.https_mode = true
  · simp [hh]
  · simp [hh]

/-- What a fetch has taken of the peer's stream, and the packets that acknowledged it. -/
structure Delivery where
  /-- the payloads handed on, one behind the other -/
  bytes : Bytes
  /-- a FIN was taken -/
  fin : Bool
  /-- a segment with the peer's numbers was taken -/
  synced : Bool
  /-- the packets with an ACK flag, with the bytes and the FIN taken when they went out -/
  acks : List (Bytes × Nat × Bool)

/-- What an operation hands on. -/
def Op.handed_on (s : NetStack) (op : Op) : Bytes :=
  match op.segment s with
  | some (.payload, seg) => if s.takes seg.payload then seg.payload else []
  | _ => []

/-- The operation takes the end of the stream. -/
def Op.takes_fin (s : NetStack) (op : Op) : Bool :=
  match op.segment s with
  | some (.payload, seg) => s.takes seg.payload && seg.fin
  | some (.bare_fin, _) => true
  | _ => false

/-- The operation sets the acknowledgement number. -/
def Op.syncs (s : NetStack) (op : Op) : Bool :=
  match op.segment s with
  | some (.syn_ack, _) => true
  | some (.payload, seg) => s.takes seg.payload
  | some (.bare_fin, _) => true
  | _ => false

/-- The packet is a TCP segment with an ACK flag. -/
def is_ack (e : Bytes × Bool) : Bool := is_tcp_packet e.1 && tcp_packet_flags e.1 &&& 0x10 != 0

def Delivery.note (g : Delivery) (x : Node) (op : Op) (x' : Node) : Delivery :=
  let bytes := g.bytes ++ op.handed_on x.1
  let fin := g.fin || op.takes_fin x.1
  { bytes := bytes
    fin := fin
    synced := g.synced || op.syncs x.1
    acks := g.acks
      ++ ((x'.2.sent.drop x.2.sent.length).filter is_ack).map fun e => (e.1, bytes.length, fin) }

/-- Nothing is taken yet. -/
def Delivery.start : Delivery := ⟨[], false, false, []⟩

/-- The next segment for what was taken: a SYN-ACK while that is nothing, and else the segment of
the stream that goes on behind it. -/
def PeerStream.Next (p : PeerStream) (g : Delivery) : Option (SegKind × TcpSegment) → Prop
  | some (.syn_ack, seg) => seg.seq = p.irs ∧ g.bytes = [] ∧ g.fin = false
  | some (.payload, seg) => p.At g.bytes.length seg
  | some (.bare_fin, seg) => p.At g.bytes.length seg
  | some (.reset, _) | some (.nothing, _) | none => True

instance (p : PeerStream) (g : Delivery) :
    (o : Option (SegKind × TcpSegment)) → Decidable (p.Next g o)
  | some (.syn_ack, _) => inferInstanceAs (Decidable (_ ∧ _ ∧ _))
  | some (.payload, seg) => inferInstanceAs (Decidable (p.At g.bytes.length seg))
  | some (.bare_fin, seg) => inferInstanceAs (Decidable (p.At g.bytes.length seg))
  | some (.reset, _) | some (.nothing, _) | none => isTrue trivial

/-- The acknowledgement number the peer expects behind `n` bytes, and its FIN. -/
def PeerStream.ack_at (p : PeerStream) (n : Nat) (fin : Bool) : UInt32 :=
  p.seq_at n + if fin then 1 else 0

/-- **Stream integrity**: what was handed on is a prefix of the peer's stream, the FIN was taken
behind all of it, and every packet with an ACK flag acknowledged what was taken when it went out. -/
structure Delivery.Sound (p : PeerStream) (g : Delivery) : Prop where
  prefix_of : g.bytes <+: p.bytes
  at_end : g.fin = true → g.bytes = p.bytes
  acked : ∀ a ∈ g.acks, tcp_packet_ack a.1 = p.ack_at a.2.1 a.2.2

section Run

variable (env : Env) (p : PeerStream)

abbrev deliveryStep : Node × Delivery → Op → Node × Delivery := observe (Node.step env) Delivery.note

/-- The segment an operation takes is the next one. -/
def InOrder (x : Node × Delivery) (op : Op) : Prop :=
  op.isDrive = true ∧ p.Next x.2 (op.segment x.1.1)

instance (x : Node × Delivery) (op : Op) : Decidable (InOrder p x op) :=
  inferInstanceAs (Decidable (_ ∧ p.Next x.2 (op.segment x.1.1)))

/-- The segment an operation takes comes from the peer. -/
def FromPeer (x : Node × Delivery) (op : Op) : Prop :=
  op.isDrive = true ∧ ∀ seg ∈ (op.segment x.1.1).map Prod.snd, p.Sends seg

instance (x : Node × Delivery) (op : Op) : Decidable (FromPeer p x op) :=
  inferInstanceAs (Decidable (_ ∧ ∀ seg ∈ (op.segment x.1.1).map Prod.snd, p.Sends seg))

end Run

/-! ## The acknowledgement number -/

/-- The acknowledgement number a segment leaves behind. -/
def NetStack.ack_behind (s : NetStack) (seg : TcpSegment) : SegKind → UInt32
  | .syn_ack | .bare_fin => seg.seq + 1
  | .payload =>
    if s.takes seg.payload then
      seg.seq + UInt32.ofNat seg.payload.length + if seg.fin then 1 else 0
    else s.tcp_ack
  | .reset | .nothing => s.tcp_ack

section Ack

variable (env : Env) (s : NetStack) (vio : AnyNic) (seg : TcpSegment)

theorem tcp_ack_syn_ack : (s.take_syn_ack env vio seg).1.tcp_ack = seg.seq + 1 := by
  unfold NetStack.take_syn_ack
  dsimp only
  by_cases hh : s.https_mode = true
  · rw [if_pos hh]
    dsimp only
    split_ifs <;> rfl
  · rw [if_neg hh]
    cases build_http_get s.path s.host_header 512 with
    | none => rfl
    | some pay =>
      exact (tcp_send_get_sends env { s with tcp_ack := seg.seq + 1, tcp_seq := s.tcp_seq + 1 } vio
        pay).2

theorem tcp_ack_payload :
    (s.take_payload env vio seg).1.tcp_ack
      = if s.takes seg.payload then
          seg.seq + UInt32.ofNat seg.payload.length + if seg.fin then 1 else 0
        else s.tcp_ack := by
  unfold NetStack.take_payload
  dsimp only
  have htakes := deliver_takes env { s with
    fetch_progress_tick := s.tick
    http_bytes := s.http_bytes + UInt32.ofNat seg.payload.length } seg.payload
  have hconn := conn_deliver env { s with
    fetch_progress_tick := s.tick
    http_bytes := s.http_bytes + UInt32.ofNat seg.payload.length } seg.payload
  rcases hdel : NetStack.deliver env { s with
    fetch_progress_tick := s.tick
    http_bytes := s.http_bytes + UInt32.ofNat seg.payload.length } seg.payload with ⟨t, ok⟩
  rw [hdel] at htakes hconn
  change ok = s.takes seg.payload at htakes
  rw [← htakes]
  cases ok with
  | false =>
    rw [if_neg Bool.false_ne_true]
    have hkept := congrArg TcpConn.tcp_ack hconn
    exact hkept
  | true =>
    dsimp only
    by_cases hf : seg.fin = true
    · rw [if_pos hf, if_pos hf, if_pos hf]
      exact congrArg TcpConn.tcp_ack (conn_take_fin env _)
    · rw [if_neg hf, if_neg hf, if_neg hf, if_pos rfl, UInt32.add_zero]
      rfl

theorem tcp_ack_bare_fin : (s.take_bare_fin env vio seg).1.tcp_ack = seg.seq + 1 := by
  unfold NetStack.take_bare_fin
  exact congrArg TcpConn.tcp_ack (conn_take_fin env _)

theorem tcp_ack_take_segment :
    (s.take_segment env vio seg).1.tcp_ack = s.ack_behind seg (s.seg_kind seg) := by
  unfold NetStack.take_segment
  cases s.seg_kind seg with
  | reset => rfl
  | syn_ack => exact tcp_ack_syn_ack env s vio seg
  | payload => exact tcp_ack_payload env s vio seg
  | bare_fin => exact tcp_ack_bare_fin env s vio seg
  | nothing => rfl

end Ack

/-! ## Operations that take nothing of the stream -/

section Quiet

variable (env : Env)

/-- The packets of such an operation: a SYN, or records of a TLS session. -/
def QuietPacket (s : NetStack) (op : Op) (pkt : Bytes) : Prop :=
  SynPacket pkt ∨ (op = .tls_flush ∧ s.tls_poll = true ∧ DataPacket s.tcp_ack pkt)

/-- A segment that sets no acknowledgement number sends nothing. -/
theorem take_segment_quiet (s : NetStack) (vio : AnyNic) (seg : TcpSegment)
    (hsyn : s.seg_kind seg ≠ .syn_ack) (hfin : s.seg_kind seg ≠ .bare_fin)
    (hpay : s.seg_kind seg = .payload → s.takes seg.payload = false) :
    (s.take_segment env vio seg).2 = vio ∧ (s.take_segment env vio seg).1.tcp_ack = s.tcp_ack := by
  have hack := tcp_ack_take_segment env s vio seg
  unfold NetStack.take_segment at hack ⊢
  cases hk : s.seg_kind seg with
  | reset => exact ⟨rfl, rfl⟩
  | nothing => exact ⟨rfl, rfl⟩
  | syn_ack => exact absurd hk hsyn
  | bare_fin => exact absurd hk hfin
  | payload =>
    have hroom := hpay hk
    rw [hk] at hack
    dsimp only [NetStack.ack_behind] at hack ⊢
    rw [hroom, if_neg Bool.false_ne_true] at hack
    refine ⟨?_, hack⟩
    unfold NetStack.take_payload
    dsimp only
    have htakes := deliver_takes env { s with
      fetch_progress_tick := s.tick
      http_bytes := s.http_bytes + UInt32.ofNat seg.payload.length } seg.payload
    rcases hdel : NetStack.deliver env { s with
      fetch_progress_tick := s.tick
      http_bytes := s.http_bytes + UInt32.ofNat seg.payload.length } seg.payload with ⟨t, ok⟩
    rw [hdel] at htakes
    change ok = s.takes seg.payload at htakes
    rw [htakes, hroom]

/-- The TCP timers send SYNs. -/
theorem tcp_limits_quiet {s : NetStack} (vio : AnyNic) (hen : Op.tcp_poll.enabled s = true) :
    Sends (QuietPacket s .tcp_poll) s.tcp_seq vio (s.tcp_limits env vio).2
      (s.tcp_limits env vio).1.tcp_seq := by
  -- what it sends does not depend on the number its ACKs would have, so none of it is one
  obtain ⟨new, hsent, hf, hgood⟩ := tcp_limits_sends env s vio hen 0
  obtain ⟨new', hsent', -, hgood'⟩ := tcp_limits_sends env s vio hen 1
  have hnew : new' = new := List.append_cancel_left (hsent'.symm.trans hsent)
  subst hnew
  refine ⟨new', hsent, hf, ?_⟩
  intro e he ht
  cases hgood e he ht with
  | syn hop hs hp => exact .inl hp
  | data hop hp =>
    rcases hop with ⟨seg, hseg⟩ | ⟨hflush, -⟩
    · cases hseg
    · cases hflush
  | ack hp =>
    cases hgood' e he ht with
    | syn hop hs hp' => exact .inl hp'
    | data hop hp' =>
      rcases hop with ⟨seg, hseg⟩ | ⟨hflush, -⟩
      · cases hseg
      · cases hflush
    | ack hp' =>
      have hne : (0 : UInt32) ≠ 1 := by decide
      exact absurd (hp.2.2.symm.trans hp'.2.2) hne

/-- **What an operation that takes nothing of the stream does**: the acknowledgement number stays,
and only a TLS session uses it. -/
theorem quiet_step (x : Node) {op : Op} (hop : op.isDrive = true) (h : op.syncs x.1 = false) :
    (Node.step env x op).1.tcp_ack = x.1.tcp_ack
      ∧ ∃ q, Sends (QuietPacket x.1 op) x.1.tcp_seq x.2 (Node.step env x op).2 q := by
  obtain ⟨s, vio⟩ := x
  have hnone : ∃ q, Sends (QuietPacket s op) s.tcp_seq vio vio q := ⟨_, Sends.none _ _ _⟩
  unfold Node.step
  by_cases hen : op.enabled s = true
  · rw [if_pos hen]
    cases op with
    | start_fetch url => cases hop
    | reset_demo => cases hop
    | seed_from_mac mac => cases hop
    | drive_begin settings => exact ⟨(drive_begin_conn s settings).2, hnone⟩
    | rx frame =>
      show (s.handle_rx env vio frame).1.tcp_ack = s.tcp_ack
        ∧ ∃ q, Sends _ s.tcp_seq vio (s.handle_rx env vio frame).2 q
      rw [handle_rx_eq]
      cases he : s.rx_event frame with
      | ignored => exact ⟨rfl, hnone⟩
      | arp mac => exact ⟨rfl, hnone⟩
      | dns ip => exact ⟨rfl, hnone⟩
      | dhcp bootp =>
        refine ⟨?_, _, handle_dhcp_reply_sends env s vio _ bootp⟩
        show (s.handle_dhcp_reply env vio bootp).1.tcp_ack = s.tcp_ack
        obtain hr | ⟨r, sid, -, hr⟩ | ⟨r, -, hr⟩ := handle_dhcp_reply_cases env s vio bootp
        · rw [hr]
        · rw [hr]
          rfl
        · rw [hr]
          rfl
      | tcp seg =>
        unfold Op.syncs at h
        rw [segment_rx he] at h
        obtain ⟨hvio, hack⟩ := take_segment_quiet env s vio seg
          (by rintro hk; rw [hk] at h; cases h) (by rintro hk; rw [hk] at h; cases h)
          (by rintro hk; rw [hk] at h; exact h)
        show (s.take_segment env vio seg).1.tcp_ack = s.tcp_ack
          ∧ ∃ q, Sends _ s.tcp_seq vio (s.take_segment env vio seg).2 q
        rw [hvio]
        exact ⟨hack, hnone⟩
    | dhcp_poll =>
      refine ⟨?_, _, dhcp_poll_sends env s vio _⟩
      show (s.dhcp_poll env vio).1.tcp_ack = s.tcp_ack
      unfold NetStack.dhcp_poll NetStack.dhcp_timeout NetStack.dhcp_retransmit NetStack.dhcp_stamp
      dsimp only
      split_ifs <;> rfl
    | arp_poll =>
      refine ⟨rfl, s.tcp_seq, ?_⟩
      show Sends _ s.tcp_seq vio (s.arp_poll env vio) s.tcp_seq
      unfold NetStack.arp_poll
      split_ifs
      · exact sends_other _ _ _ (build_arp_request_not_tcp _ _ _)
      · exact Sends.none _ _ _
    | dns_poll =>
      refine ⟨?_, _, dns_poll_sends env s vio _⟩
      obtain ⟨f, d, i, he⟩ := dns_poll_eq env s vio
      show (s.dns_poll env vio).1.tcp_ack = s.tcp_ack
      rw [he]
    | tcp_poll =>
      refine ⟨?_, _, tcp_limits_quiet env vio hen⟩
      obtain ⟨f, b, n, he⟩ := tcp_limits_eq env s vio
      show (s.tcp_limits env vio).1.tcp_ack = s.tcp_ack
      rw [he]
    | tls_flush =>
      refine ⟨?_, _, (tls_tx_flush_all_sends env s vio).mono fun _ hp => .inr ⟨rfl, hen, hp⟩⟩
      obtain ⟨q, i, b, he⟩ := tls_tx_flush_all_eq env s vio
      show (s.tls_tx_flush_all env vio).1.tcp_ack = s.tcp_ack
      rw [he]
    | tls_pump_end =>
      refine ⟨?_, hnone⟩
      obtain ⟨f, he⟩ := tls_pump_eof_eq env s.clear_tls_poll
      show (s.clear_tls_poll.tls_pump_eof env).tcp_ack = s.tcp_ack
      rw [he]
      rfl
    | _ => exact ⟨rfl, hnone⟩
  · rw [if_neg hen]
    exact ⟨rfl, hnone⟩

end Quiet

/-! ## The invariant -/

section Step

variable {env : Env} {p : PeerStream} {s : NetStack} {g : Delivery} {op : Op}

/-- What is known of a fetch whose segments came in order. -/
structure DeliveryInv (p : PeerStream) (s : NetStack) (g : Delivery) : Prop where
  sound : g.Sound p
  ack : g.synced = true → s.tcp_ack = p.ack_at g.bytes.length g.fin
  started : s.tls_started = true → g.synced = true

theorem seg_kind_bare_fin {seg : TcpSegment} (h : s.seg_kind seg = .bare_fin) :
    seg.fin = true ∧ seg.payload = [] := by
  unfold NetStack.seg_kind at h
  split_ifs at h with hrst hsyn hlen hfin
  simp only [Bool.and_eq_true] at hfin
  refine ⟨hfin.1, List.length_eq_zero_iff.mp ?_⟩
  omega

/-- Payload that goes on behind what was taken. -/
theorem prefix_append {l m : Bytes} (h : g.bytes <+: l) (hm : m <+: l.drop g.bytes.length) :
    g.bytes ++ m <+: l := by
  obtain ⟨t, ht⟩ := h
  rw [← ht, List.drop_left] at hm
  rw [← ht]
  exact (List.prefix_append_right_inj g.bytes).mpr hm

/-- Behind the FIN there is no payload. -/
theorem fin_false_of_payload {seg : TcpSegment} (h : g.Sound p) (hat : p.At g.bytes.length seg)
    (hne : seg.payload ≠ []) : g.fin = false := by
  by_contra hf
  have hall := h.at_end (by simpa using hf)
  obtain ⟨-, -, hpre, -⟩ := hat
  rw [hall, List.drop_length] at hpre
  exact hne (List.prefix_nil.mp hpre)

/-- What an operation takes in order is a prefix again, with the FIN at its end. -/
theorem next_sound (h : DeliveryInv p s g) (hnext : p.Next g (op.segment s)) :
    g.bytes ++ op.handed_on s <+: p.bytes
      ∧ ((g.fin || op.takes_fin s) = true → g.bytes ++ op.handed_on s = p.bytes) := by
  unfold Op.handed_on Op.takes_fin
  have hsame : g.bytes ++ [] <+: p.bytes ∧ ((g.fin || false) = true → g.bytes ++ [] = p.bytes) := by
    rw [List.append_nil, Bool.or_false]
    exact ⟨h.sound.prefix_of, h.sound.at_end⟩
  rcases hseg : op.segment s with _ | ⟨k, seg⟩
  · exact hsame
  · rw [hseg] at hnext
    cases k with
    | reset => exact hsame
    | nothing => exact hsame
    | syn_ack => exact hsame
    | bare_fin =>
      have hat : p.At g.bytes.length seg := hnext
      obtain ⟨frame, -, -, hkind⟩ := segment_spec hseg
      obtain ⟨hfin, hnil⟩ := seg_kind_bare_fin hkind
      have hlen := hat.2.2.2 hfin
      rw [hnil, List.length_nil, Nat.add_zero] at hlen
      dsimp only
      rw [List.append_nil]
      exact ⟨h.sound.prefix_of, fun _ => h.sound.prefix_of.eq_of_length hlen⟩
    | payload =>
      have hat : p.At g.bytes.length seg := hnext
      dsimp only
      cases ht : s.takes seg.payload with
      | false => exact hsame
      | true =>
        rw [if_pos rfl, Bool.true_and]
        obtain ⟨frame, -, -, hkind⟩ := segment_spec hseg
        have hopen := fin_false_of_payload h.sound hat (seg_kind_payload hkind)
        have hpre := prefix_append h.sound.prefix_of hat.2.2.1
        refine ⟨hpre, ?_⟩
        intro hfin
        rw [hopen, Bool.false_or] at hfin
        apply hpre.eq_of_length
        rw [List.length_append]
        exact hat.2.2.2 hfin

/-- The number a sync leaves behind counts what was taken. -/
theorem next_ack {vio : AnyNic} (h : DeliveryInv p s g) (hnext : p.Next g (op.segment s))
    (hsync : op.syncs s = true) :
    (Node.step env (s, vio) op).1.tcp_ack
      = p.ack_at (g.bytes ++ op.handed_on s).length (g.fin || op.takes_fin s) := by
  rcases hseg : op.segment s with _ | ⟨k, seg⟩
  · unfold Op.syncs at hsync
    rw [hseg] at hsync
    cases hsync
  · obtain ⟨frame, rfl, he, hkind⟩ := segment_spec hseg
    have hstep : (Node.step env (s, vio) (.rx frame)).1.tcp_ack = s.ack_behind seg k := by
      show (s.handle_rx env vio frame).1.tcp_ack = _
      rw [handle_rx_eq, he, ← hkind]
      exact tcp_ack_take_segment env s vio seg
    rw [hstep]
    unfold Op.syncs at hsync
    unfold Op.handed_on Op.takes_fin
    rw [hseg] at hnext hsync ⊢
    cases k with
    | reset => cases hsync
    | nothing => cases hsync
    | syn_ack =>
      obtain ⟨hseq, hbytes, hfin⟩ := hnext
      dsimp only [NetStack.ack_behind]
      rw [hseq, hbytes, hfin]
      show p.irs + 1 = p.irs + 1 + UInt32.ofNat 0 + 0
      rw [UInt32.add_zero, show UInt32.ofNat 0 = 0 from rfl, UInt32.add_zero]
    | bare_fin =>
      have hat : p.At g.bytes.length seg := hnext
      dsimp only [NetStack.ack_behind]
      rw [hat.2.1, List.append_nil, Bool.or_true]
      rfl
    | payload =>
      have hat : p.At g.bytes.length seg := hnext
      have hopen := fin_false_of_payload h.sound hat (seg_kind_payload hkind)
      dsimp only [NetStack.ack_behind] at hsync ⊢
      rw [if_pos hsync, hsync, if_pos rfl, hopen, Bool.false_or, Bool.true_and, hat.2.1,
        List.length_append]
      unfold PeerStream.ack_at PeerStream.seq_at
      rw [UInt32.ofNat_add, ← UInt32.add_assoc]

/-- Without a sync nothing is taken. -/
theorem handed_on_of_not_syncs (h : op.syncs s = false) :
    op.handed_on s = [] ∧ op.takes_fin s = false := by
  unfold Op.syncs at h
  unfold Op.handed_on Op.takes_fin
  rcases hseg : op.segment s with _ | ⟨k, seg⟩
  · exact ⟨rfl, rfl⟩
  · rw [hseg] at h
    cases k with
    | reset => exact ⟨rfl, rfl⟩
    | nothing => exact ⟨rfl, rfl⟩
    | syn_ack => cases h
    | bare_fin => cases h
    | payload =>
      dsimp only at h ⊢
      rw [h]
      exact ⟨rfl, rfl⟩

theorem syncs_of_takesSynAck (h : op.takesSynAck s = true) : op.syncs s = true := by
  unfold Op.takesSynAck at h
  unfold Op.syncs
  rcases hseg : op.segment s with _ | ⟨k, seg⟩
  · rw [hseg] at h
    cases h
  · rw [hseg] at h
    cases k with
    | syn_ack => rfl
    | _ => cases h

section Packets

variable {e : Bytes × Bool}

/-- A SYN has no ACK flag. -/
theorem not_ack_of_syn (h : SynPacket e.1) : is_ack e = false := by
  unfold is_ack
  rw [h.1]
  exact Bool.and_false _

theorem ack_of_opPacket {ack : UInt32} (h : is_ack e = true)
    (hgood : is_tcp_packet e.1 = true → OpPacket env s op ack e.1) : tcp_packet_ack e.1 = ack := by
  have ht : is_tcp_packet e.1 = true := by
    unfold is_ack at h
    simp only [Bool.and_eq_true] at h
    exact h.1
  cases hgood ht with
  | syn hop hs hp =>
    rw [not_ack_of_syn hp] at h
    cases h
  | ack hp => exact hp.2.2
  | data hop hp => exact hp.2

theorem ack_of_quietPacket (h : is_ack e = true)
    (hgood : is_tcp_packet e.1 = true → QuietPacket s op e.1) :
    s.tls_poll = true ∧ tcp_packet_ack e.1 = s.tcp_ack := by
  have ht : is_tcp_packet e.1 = true := by
    unfold is_ack at h
    simp only [Bool.and_eq_true] at h
    exact h.1
  rcases hgood ht with hp | ⟨-, hpoll, hp⟩
  · rw [not_ack_of_syn hp] at h
    cases h
  · exact ⟨hpoll, hp.2⟩

end Packets

theorem deliveryInv_step (x : Node × Delivery) (op : Op) (h : DeliveryInv p x.1.1 x.2)
    (hok : InOrder p x op) :
    DeliveryInv p (deliveryStep env x op).1.1 (deliveryStep env x op).2 := by
  obtain ⟨⟨s, vio⟩, g⟩ := x
  obtain ⟨hop, hnext⟩ := hok
  have hsound := next_sound h hnext
  -- the number in front of the packets of the operation
  have hack : (g.synced || op.syncs s) = true → (Node.step env (s, vio) op).1.tcp_ack
      = p.ack_at (g.bytes ++ op.handed_on s).length (g.fin || op.takes_fin s) := by
    intro hsynced
    cases hs : op.syncs s with
    | true => exact next_ack h hnext hs
    | false =>
      rw [hs, Bool.or_false] at hsynced
      obtain ⟨hbytes, hfin⟩ := handed_on_of_not_syncs hs
      rw [(quiet_step env (s, vio) hop hs).1, hbytes, hfin, List.append_nil, Bool.or_false]
      exact h.ack hsynced
  -- the packets: ACKs behind a segment, and of a running TLS session
  obtain ⟨new, hsent, hnew⟩ : ∃ new, (Node.step env (s, vio) op).2.sent = vio.sent ++ new
      ∧ ∀ e ∈ new, is_ack e = true → (g.synced || op.syncs s) = true
        ∧ tcp_packet_ack e.1 = (Node.step env (s, vio) op).1.tcp_ack := by
    cases hs : op.syncs s with
    | true =>
      obtain ⟨new, hsent, -, hgood⟩ := step_sends env (s, vio) hop
      refine ⟨new, hsent, ?_⟩
      intro e he hisack
      rw [Bool.or_true]
      exact ⟨rfl, ack_of_opPacket hisack (hgood e he)⟩
    | false =>
      obtain ⟨hsame, q, new, hsent, -, hgood⟩ := quiet_step env (s, vio) hop hs
      refine ⟨new, hsent, ?_⟩
      intro e he hisack
      rw [hsame, Bool.or_false]
      obtain ⟨hpoll, hnum⟩ := ack_of_quietPacket hisack (hgood e he)
      refine ⟨h.started ?_, hnum⟩
      unfold NetStack.tls_started
      rw [hpoll, Bool.or_true, Bool.true_or, Bool.true_or]
  constructor
  · refine ⟨hsound.1, hsound.2, ?_⟩
    intro a ha
    change a ∈ g.acks ++ _ at ha
    rcases List.mem_append.mp ha with hold | hrecent
    · exact h.sound.acked a hold
    · change a ∈ (((Node.step env (s, vio) op).2.sent.drop vio.sent.length).filter is_ack).map _
        at hrecent
      rw [hsent, List.drop_left] at hrecent
      obtain ⟨e, he, rfl⟩ := List.mem_map.mp hrecent
      obtain ⟨hmem, hisack⟩ := List.mem_filter.mp he
      obtain ⟨hsynced, hnum⟩ := hnew e hmem hisack
      exact hnum.trans (hack hsynced)
  · exact hack
  · intro hstarted
    show (g.synced || op.syncs s) = true
    rcases tls_started_step env hop hstarted with hbefore | htake
    · rw [h.started hbefore, Bool.true_or]
    · rw [syncs_of_takesSynAck htake, Bool.or_true]

end Step

/-- A web server's answer. -/
def short_answer : PeerStream where
  irs := 1000
  bytes := ascii "HTTP/1.0 200 OK\r\n\r\nhi"

/-- The answer in two segments, the second one with the FIN. -/
def two_segment_run : List Op :=
  [.tcp_poll, .rx (gateway_frame 80 1000 0x12 []),
    .rx (gateway_frame 80 1001 0x18 (ascii "HTTP/1.0 200 OK\r\n\r\n")),
    .rx (gateway_frame 80 1020 0x19 (ascii "hi"))]

/-- The answer comes twice. -/
def repeated_segment_run : List Op :=
  [.tcp_poll, .rx (gateway_frame 80 1000 0x12 []), .rx (gateway_frame 80 1001 0x18 short_answer.bytes),
    .rx (gateway_frame 80 1001 0x18 short_answer.bytes)]

end EveOS.Net
