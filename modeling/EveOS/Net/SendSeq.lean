/-
The send sequence number of a fetch.

`tcp_seq` moves in three places: at a SYN-ACK, behind the GET and in the TLS
flush. `Wire` watches the packets of one fetch and whether a SYN-ACK was taken,
and `SeqInv` ties `tcp_seq` to them. It is an invariant as long as the SYN-ACK is
taken once, behind the first SYN (`SeqOk`). The guard of the source, `!get_sent`,
is meant to see to that, and does for a GET that is out at once; it does not
while a TLS handshake is going on, after a failed transmit, or before the first
SYN.
-/
import EveOS.Net.Sends

set_option autoImplicit false

namespace EveOS.Net

/-! ## Packets of a fetch -/

/-- The payload bytes that went out. -/
def total_sent (pkts : List (Bytes × Bool)) : Nat := (pkts.map sent_bytes).sum

theorem total_sent_append (l m : List (Bytes × Bool)) :
    total_sent (l ++ m) = total_sent l + total_sent m := by
  unfold total_sent
  rw [List.map_append, List.sum_append]

def is_syn (e : Bytes × Bool) : Bool := is_tcp_packet e.1 && tcp_packet_flags e.1 == 0x02

/-- The sequence number of the first SYN. -/
def first_syn (pkts : List (Bytes × Bool)) : Option UInt32 :=
  (pkts.find? is_syn).map fun e => tcp_packet_seq e.1

theorem first_syn_append (l m : List (Bytes × Bool)) :
    first_syn (l ++ m) = (first_syn l).or (first_syn m) := by
  unfold first_syn
  rw [List.find?_append]
  cases l.find? is_syn <;> rfl

/-- No payload, no bytes. -/
theorem total_sent_eq_zero {l : List (Bytes × Bool)}
    (h : ∀ e ∈ l, is_tcp_packet e.1 = true → tcp_packet_payload e.1 = []) : total_sent l = 0 := by
  induction l with
  | nil => rfl
  | cons e l ih =>
    have hrest := ih fun e' he' => h e' (List.mem_cons_of_mem _ he')
    show sent_bytes e + total_sent l = 0
    rw [hrest]
    unfold sent_bytes
    split_ifs with ht
    · simp only [Bool.and_eq_true] at ht
      rw [h e List.mem_cons_self ht.1]
      rfl
    · rfl

/-- Where a connection stands behind the packets. -/
theorem Follows.end_eq {q q' : UInt32} {l : List (Bytes × Bool)} (h : Follows q l q') :
    q' = q + UInt32.ofNat (total_sent l) := by
  induction l generalizing q with
  | nil =>
    have hq : q' = q := h
    rw [hq]
    exact (UInt32.add_zero q).symm
  | cons e l ih =>
    rw [ih h.2]
    show _ = q + UInt32.ofNat (sent_bytes e + total_sent l)
    rw [UInt32.ofNat_add, UInt32.add_assoc]

/-- Each packet starts where the bytes before it end. -/
theorem Follows.seq_eq {q q' : UInt32} {l before after : List (Bytes × Bool)} {e : Bytes × Bool}
    (h : Follows q l q') (hl : l = before ++ e :: after) (ht : is_tcp_packet e.1 = true) :
    tcp_packet_seq e.1 = q + UInt32.ofNat (total_sent before) := by
  induction before generalizing q l with
  | nil =>
    subst hl
    rw [h.1 ht]
    exact (UInt32.add_zero q).symm
  | cons b before ih =>
    subst hl
    rw [ih h.2 rfl]
    show _ = q + UInt32.ofNat (sent_bytes b + total_sent before)
    rw [UInt32.ofNat_add, UInt32.add_assoc]

/-! ## Watching a fetch -/

/-- The packets of a fetch, with the outcome of their transmission, and whether a
SYN-ACK was taken. -/
structure Wire where
  pkts : List (Bytes × Bool)
  accepted : Bool

/-- The operation takes a SYN-ACK. -/
def Op.takesSynAck (s : NetStack) (op : Op) : Bool :=
  match op.segment s with
  | some (.syn_ack, _) => true
  | _ => false

def Wire.note (g : Wire) (x : Node) (op : Op) (x' : Node) : Wire where
  pkts := g.pkts ++ x'.2.sent.drop x.2.sent.length
  accepted := g.accepted || op.takesSynAck x.1

theorem syn_step_eq (s : NetStack) (op : Op) :
    op.syn_step s = if op.takesSynAck s then 1 else 0 := by
  unfold Op.syn_step Op.takesSynAck
  rcases op.segment s with _ | ⟨k, seg⟩
  · rfl
  · cases k <;> rfl

section Run

variable (env : Env)

abbrev wireStep : Node × Wire → Op → Node × Wire := observe (Node.step env) Wire.note

/-- The condition on an operation: it belongs to a `drive` call, the SYN-ACK it
takes is the first one and answers a SYN, and no SYN goes out behind it. -/
def SeqOk (x : Node × Wire) (op : Op) : Prop :=
  op.isDrive = true
    ∧ (op.takesSynAck x.1.1 = true → (first_syn x.2.pkts).isSome = true ∧ x.2.accepted = false)
    ∧ (op = .tcp_poll → x.1.1.sends_syn env = true → x.2.accepted = false)

instance (x : Node × Wire) (op : Op) : Decidable (SeqOk env x op) :=
  inferInstanceAs (Decidable (_ ∧ (_ → _) ∧ (_ → _ → _)))

end Run

/-! ## TLS sessions

One can only be running, or wait to be run, behind a SYN-ACK. -/

def NetStack.tls_started (s : NetStack) : Bool :=
  s.https_handshake_queued || s.tls_poll || s.tls_handshake_done || s.tls_live

section Tls

variable (env : Env)

theorem queued_take_fin (s : NetStack) :
    (s.take_fin env).https_handshake_queued = s.https_handshake_queued := by
  unfold NetStack.take_fin
  split_ifs <;> rfl

theorem queued_deliver (s : NetStack) (data : Bytes) :
    (s.deliver env data).1.https_handshake_queued = s.https_handshake_queued := by
  unfold NetStack.deliver
  split_ifs
  · unfold TlsSession.tls_cipher_append TlsSession.tls_cipher_compact
    dsimp only
    split_ifs <;> rfl
  · rfl

theorem queued_take_payload (s : NetStack) (vio : AnyNic) (seg : TcpSegment) :
    (s.take_payload env vio seg).1.https_handshake_queued = s.https_handshake_queued :=
  take_payload_keeps env s vio seg (fun t => t.https_handshake_queued) (queued_deliver env)
    (fun _ _ => rfl) (fun _ _ => rfl) (queued_take_fin env)

/-- Only a SYN-ACK queues a handshake. -/
theorem queued_take_segment {s : NetStack} {vio : AnyNic} {seg : TcpSegment}
    (hk : s.seg_kind seg ≠ .syn_ack) :
    (s.take_segment env vio seg).1.https_handshake_queued = s.https_handshake_queued := by
  unfold NetStack.take_segment
  cases hkind : s.seg_kind seg with
  | reset => rfl
  | syn_ack => exact absurd hkind hk
  | payload => exact queued_take_payload env s vio seg
  | bare_fin => exact queued_take_fin env _
  | nothing => rfl

theorem tls_started_of_rest {s s' : NetStack} (h : s'.rest = s.rest)
    (hq : s'.https_handshake_queued = s.https_handshake_queued) : s'.tls_started = s.tls_started := by
  unfold NetStack.tls_started
  have h₁ : s'.tls_poll = s.tls_poll := congrArg NetRest.tls_poll h
  have h₂ : s'.tls_handshake_done = s.tls_handshake_done := congrArg NetRest.tls_handshake_done h
  have h₃ : s'.tls_live = s.tls_live := congrArg NetRest.tls_live h
  rw [h₁, h₂, h₃, hq]

theorem tls_started_drive_begin {s : NetStack} {settings : DeviceSettings}
    (h : (s.drive_begin settings).tls_started = true) : s.tls_started = true := by
  unfold NetStack.drive_begin NetStack.sync_ip_from_settings at h
  split_ifs at h
  · exact h
  · exfalso
    cases hc : settings.ip_config with
    | Slirp => rw [hc] at h; cases h
    | Dhcp => rw [hc] at h; cases h
    | Static => rw [hc] at h; cases h

/-- A session is there only if it was before, or if a SYN-ACK was taken. -/
theorem tls_started_step {x : Node} {op : Op} (hop : op.isDrive = true)
    (h : (Node.step env x op).1.tls_started = true) :
    x.1.tls_started = true ∨ op.takesSynAck x.1 = true := by
  obtain ⟨s, vio⟩ := x
  unfold Node.step at h
  split_ifs at h with hen
  · have hguard : s.tls_poll = true → s.tls_started = true := by
      intro ht
      unfold NetStack.tls_started
      simp [ht]
    cases op with
    | start_fetch url => cases hop
    | reset_demo => cases hop
    | seed_from_mac mac => cases hop
    | drive_begin settings => exact .inl (tls_started_drive_begin h)
    | rx frame =>
      change (s.handle_rx env vio frame).1.tls_started = true at h
      rw [handle_rx_eq] at h
      cases he : s.rx_event frame with
      | ignored => rw [he] at h; exact .inl h
      | arp mac => rw [he] at h; exact .inl h
      | dns ip => rw [he] at h; exact .inl h
      | dhcp bootp =>
        rw [he] at h
        change (s.handle_dhcp_reply env vio bootp).1.tls_started = true at h
        obtain hr | ⟨r, sid, -, hr⟩ | ⟨r, -, hr⟩ := handle_dhcp_reply_cases env s vio bootp
        · rw [hr] at h; exact .inl h
        · rw [hr] at h; exact .inl h
        · rw [hr] at h; exact .inl h
      | tcp seg =>
        rw [he] at h
        change (s.take_segment env vio seg).1.tls_started = true at h
        by_cases hk : s.seg_kind seg = .syn_ack
        · right
          unfold Op.takesSynAck
          rw [segment_rx he, hk]
        · rw [tls_started_of_rest (rest_take_segment env s vio seg)
            (queued_take_segment env hk)] at h
          exact .inl h
    | dhcp_poll =>
      change (s.dhcp_poll env vio).1.tls_started = true at h
      unfold NetStack.dhcp_poll NetStack.dhcp_timeout NetStack.dhcp_retransmit
        NetStack.dhcp_stamp at h
      dsimp only at h
      split_ifs at h <;> exact .inl h
    | dns_poll =>
      obtain ⟨f, d, i, he⟩ := dns_poll_eq env s vio
      change (s.dns_poll env vio).1.tls_started = true at h
      rw [he] at h
      exact .inl h
    | tcp_poll =>
      obtain ⟨f, b, n, he⟩ := tcp_limits_eq env s vio
      change (s.tcp_limits env vio).1.tls_started = true at h
      rw [he] at h
      exact .inl h
    | show_phase => exact .inl h
    | arp_poll => exact .inl h
    | tls_begin =>
      left
      dsimp only [Op.enabled] at hen
      simp only [Bool.and_eq_true] at hen
      unfold NetStack.tls_started
      simp [hen.1.1.2]
    | tls_pump_begin =>
      left
      dsimp only [Op.enabled] at hen
      simp only [Bool.and_eq_true] at hen
      unfold NetStack.tls_started
      simp [hen.2]
    | tls_fail msg =>
      dsimp only [Op.enabled] at hen
      simp only [Bool.and_eq_true] at hen
      exact .inl (hguard hen.1)
    | tls_abort msg =>
      dsimp only [Op.enabled] at hen
      simp only [Bool.and_eq_true] at hen
      exact .inl (hguard hen.1)
    | _ => exact .inl (hguard hen)
  · exact .inl h

end Tls

/-! ## The invariant -/

/-- What the claim says about a fetch whose first SYN has gone out with `iss`. -/
structure SeqAgrees (iss : UInt32) (s : NetStack) (g : Wire) : Prop where
  /-- `tcp_seq` counts the SYN and the bytes that went out -/
  seq : s.tcp_seq = iss + (if g.accepted then 1 else 0) + UInt32.ofNat (total_sent g.pkts)
  /-- every SYN repeats the first one -/
  syns : ∀ e ∈ g.pkts, is_syn e = true → tcp_packet_seq e.1 = iss
  /-- data starts at `iss + 1` and goes on where the bytes before it end -/
  data : ∀ before e after, g.pkts = before ++ e :: after → is_tcp_packet e.1 = true →
    tcp_packet_payload e.1 ≠ [] → tcp_packet_seq e.1 = iss + 1 + UInt32.ofNat (total_sent before)

structure SeqInv (s : NetStack) (g : Wire) : Prop where
  agrees : ∀ iss ∈ first_syn g.pkts, SeqAgrees iss s g
  started : s.tls_started = true → g.accepted = true
  answered : g.accepted = true → (first_syn g.pkts).isSome = true
  empty : g.accepted = false → ∀ e ∈ g.pkts, is_tcp_packet e.1 = true → tcp_packet_payload e.1 = []

section Step

variable {env : Env} {s s' : NetStack} {vio vio' : AnyNic} {g : Wire} {op : Op}

theorem first_syn_some {l : List (Bytes × Bool)} {iss : UInt32} (h : first_syn l = some iss) :
    ∃ before e after, l = before ++ e :: after ∧ is_syn e = true ∧ tcp_packet_seq e.1 = iss := by
  unfold first_syn at h
  obtain ⟨e, he, hseq⟩ := Option.map_eq_some_iff.mp h
  obtain ⟨hsyn, before, after, hl, -⟩ := List.find?_eq_some_iff_append.mp he
  exact ⟨before, e, after, hl, hsyn, hseq⟩

theorem first_syn_none {l : List (Bytes × Bool)} (h : first_syn l = none) :
    ∀ e ∈ l, is_syn e = false := by
  unfold first_syn at h
  rw [Option.map_eq_none_iff, List.find?_eq_none] at h
  intro e he
  simpa using h e he

/-- A packet in the middle of two lists. -/
theorem append_split {l m before after : List (Bytes × Bool)} {e : Bytes × Bool}
    (h : l ++ m = before ++ e :: after) :
    (∃ rest, l = before ++ e :: rest) ∨ ∃ mid, before = l ++ mid ∧ m = mid ++ e :: after := by
  rcases List.append_eq_append_iff.mp h with ⟨mid, hb, hm⟩ | ⟨mid, hl, hm⟩
  · exact .inr ⟨mid, hb, hm⟩
  · cases mid with
    | nil => exact .inr ⟨[], by simpa using hl.symm, by simpa using hm.symm⟩
    | cons e' mid =>
      rw [List.cons_append, List.cons.injEq] at hm
      exact .inl ⟨mid, by rw [hl, hm.1]⟩

/-- The packets of one operation, in terms of the fetch. -/
structure StepPackets (env : Env) (op : Op) (s : NetStack) (g : Wire) (new : List (Bytes × Bool)) :
    Prop where
  /-- a SYN goes out before the SYN-ACK only -/
  syn : ∀ e ∈ new, is_syn e = true → op.takesSynAck s = false ∧ g.accepted = false
  /-- data goes out behind the SYN-ACK only -/
  data : ∀ e ∈ new, is_tcp_packet e.1 = true → tcp_packet_payload e.1 ≠ [] →
    (g.accepted || op.takesSynAck s) = true

theorem stepPackets {x : Node} {new : List (Bytes × Bool)} {ack : UInt32} (h : SeqInv x.1 g)
    (hok : SeqOk env (x, g) op)
    (hnew : ∀ e ∈ new, is_tcp_packet e.1 = true → OpPacket env x.1 op ack e.1) :
    StepPackets env op x.1 g new := by
  obtain ⟨-, -, hsyn⟩ := hok
  constructor
  · intro e he hs
    unfold is_syn at hs
    simp only [Bool.and_eq_true, beq_iff_eq] at hs
    cases hnew e he hs.1 with
    | syn hop hready hp =>
      refine ⟨?_, hsyn hop hready⟩
      rw [hop]
      rfl
    | ack hp =>
      rw [hp.1] at hs
      exact absurd hs.2 (by decide)
    | data hop hp =>
      rw [hp.1] at hs
      exact absurd hs.2 (by decide)
  · intro e he ht hpay
    cases hnew e he ht with
    | syn hop hready hp => exact absurd hp.2 hpay
    | ack hp => exact absurd hp.2.1 hpay
    | data hop hp =>
      rcases hop with ⟨seg, hseg⟩ | ⟨-, hpoll⟩
      · have htake : op.takesSynAck x.1 = true := by
          unfold Op.takesSynAck
          rw [hseg]
        rw [htake, Bool.or_true]
      · have hstart : x.1.tls_started = true := by
          unfold NetStack.tls_started
          rw [hpoll, Bool.or_true, Bool.true_or, Bool.true_or]
        rw [h.started hstart, Bool.true_or]

/-- No data in the fetch so far and in this operation. -/
theorem no_data {new : List (Bytes × Bool)} (h : SeqInv s g) (hp : StepPackets env op s g new)
    (hacc : g.accepted = false) (htake : op.takesSynAck s = false) :
    ∀ e ∈ g.pkts ++ new, is_tcp_packet e.1 = true → tcp_packet_payload e.1 = [] := by
  intro e he ht
  rcases List.mem_append.mp he with he | he
  · exact h.empty hacc e he ht
  · by_contra hne
    have hdata := hp.data e he ht hne
    rw [hacc, htake] at hdata
    cases hdata

/-- The first SYN is already out. -/
theorem agrees_step {iss : UInt32} {new : List (Bytes × Bool)} (h : SeqInv s g)
    (hp : StepPackets env op s g new) (htake : op.takesSynAck s = true → g.accepted = false)
    (hf : Follows (s.tcp_seq + op.syn_step s) new s'.tcp_seq) (hiss : first_syn g.pkts = some iss) :
    SeqAgrees iss s' ⟨g.pkts ++ new, g.accepted || op.takesSynAck s⟩ := by
  have hag := h.agrees iss hiss
  -- where the connection stands before the packets of the operation
  have hbase : s.tcp_seq + op.syn_step s
      = iss + (if g.accepted || op.takesSynAck s then 1 else 0)
        + UInt32.ofNat (total_sent g.pkts) := by
    rw [hag.seq, syn_step_eq]
    cases ht : op.takesSynAck s with
    | true =>
      rw [htake ht]
      simp only [Bool.false_or, if_true, Bool.false_eq_true, if_false]
      grind
    | false =>
      simp only [Bool.or_false, Bool.false_eq_true, if_false, UInt32.add_zero]
  constructor
  · rw [hf.end_eq, hbase, total_sent_append, UInt32.ofNat_add, UInt32.add_assoc]
  · intro e he hs
    rcases List.mem_append.mp he with he | he
    · exact hag.syns e he hs
    · obtain ⟨hnot, hacc⟩ := hp.syn e he hs
      have hnone := no_data h hp hacc hnot
      obtain ⟨before, after, hsplit⟩ := List.append_of_mem he
      have ht : is_tcp_packet e.1 = true := by
        unfold is_syn at hs
        simp only [Bool.and_eq_true] at hs
        exact hs.1
      have hzero : total_sent g.pkts + total_sent before = 0 := by
        rw [← total_sent_append]
        apply total_sent_eq_zero
        intro e' he'
        apply hnone
        rw [hsplit]
        rcases List.mem_append.mp he' with h' | h'
        · exact List.mem_append_left _ h'
        · exact List.mem_append_right _ (List.mem_append_left _ h')
      rw [hf.seq_eq hsplit ht, hbase, hacc, hnot, UInt32.add_assoc, ← UInt32.ofNat_add, hzero]
      simp
  · intro before e after hsplit ht hpay
    rcases append_split hsplit with ⟨rest, hl⟩ | ⟨mid, rfl, hm⟩
    · exact hag.data before e rest hl ht hpay
    · have hacc : (g.accepted || op.takesSynAck s) = true := by
        apply hp.data e _ ht hpay
        rw [hm]
        exact List.mem_append_right _ List.mem_cons_self
      rw [hf.seq_eq hm ht, hbase, hacc, if_pos rfl, total_sent_append, UInt32.ofNat_add,
        UInt32.add_assoc]

/-- The operation sends the first SYN. -/
theorem agrees_first {iss : UInt32} {new : List (Bytes × Bool)} (h : SeqInv s g)
    (hp : StepPackets env op s g new)
    (hf : Follows (s.tcp_seq + op.syn_step s) new s'.tcp_seq) (hnone : first_syn g.pkts = none)
    (hiss : first_syn new = some iss) :
    SeqAgrees iss s' ⟨g.pkts ++ new, g.accepted || op.takesSynAck s⟩ := by
  obtain ⟨before, e, after, hsplit, hsyn, hseq⟩ := first_syn_some hiss
  have hmem : e ∈ new := by
    rw [hsplit]
    exact List.mem_append_right _ List.mem_cons_self
  obtain ⟨hnot, hacc⟩ := hp.syn e hmem hsyn
  have hempty := no_data h hp hacc hnot
  have hzero : ∀ l, (∀ e' ∈ l, e' ∈ g.pkts ++ new) → total_sent l = 0 := by
    intro l hl
    exact total_sent_eq_zero fun e' he' => hempty e' (hl e' he')
  have hq : ∀ e' ∈ new, is_syn e' = true → tcp_packet_seq e'.1 = s.tcp_seq := by
    intro e' he' hs
    obtain ⟨b, a, hb⟩ := List.append_of_mem he'
    have ht : is_tcp_packet e'.1 = true := by
      unfold is_syn at hs
      simp only [Bool.and_eq_true] at hs
      exact hs.1
    have hb0 : total_sent b = 0 := by
      apply hzero
      intro d hd
      rw [hb]
      exact List.mem_append_right _ (List.mem_append_left _ hd)
    rw [hf.seq_eq hb ht, hb0, syn_step_eq, hnot]
    simp
  have hiss' : iss = s.tcp_seq := hseq.symm.trans (hq e hmem hsyn)
  constructor
  · rw [hf.end_eq, syn_step_eq, hnot, hacc, hiss', hzero new fun _ h => List.mem_append_right _ h,
      hzero (g.pkts ++ new) fun _ h => h]
    simp
  · intro e' he' hs
    rcases List.mem_append.mp he' with h' | h'
    · rw [first_syn_none hnone e' h'] at hs
      cases hs
    · rw [hq e' h' hs, hiss']
  · intro b e' a hb ht hpay
    refine absurd (hempty e' ?_ ht) hpay
    change g.pkts ++ new = b ++ e' :: a at hb
    rw [hb]
    exact List.mem_append_right _ List.mem_cons_self

theorem seqInv_step (x : Node × Wire) (op : Op) (h : SeqInv x.1.1 x.2) (hok : SeqOk env x op) :
    SeqInv (wireStep env x op).1.1 (wireStep env x op).2 := by
  obtain ⟨hop, htake, hsyn⟩ := hok
  obtain ⟨new, hsent, hf, hnew⟩ := step_sends env x.1 hop
  have hp := stepPackets h ⟨hop, htake, hsyn⟩ hnew
  have hghost : (wireStep env x op).2 = ⟨x.2.pkts ++ new, x.2.accepted || op.takesSynAck x.1.1⟩ := by
    show x.2.note x.1 op (Node.step env x.1 op) = _
    unfold Wire.note
    rw [hsent, List.drop_left]
  rw [hghost]
  constructor
  · intro iss hiss
    change first_syn (x.2.pkts ++ new) = some iss at hiss
    rw [first_syn_append] at hiss
    cases hfirst : first_syn x.2.pkts with
    | some iss' =>
      rw [hfirst, Option.some_or, Option.some.injEq] at hiss
      rw [hiss] at hfirst
      exact agrees_step h hp (fun ht => (htake ht).2) hf hfirst
    | none =>
      rw [hfirst, Option.none_or] at hiss
      exact agrees_first h hp hf hfirst hiss
  · intro hstart
    show (x.2.accepted || op.takesSynAck x.1.1) = true
    rcases tls_started_step env hop hstart with h' | h'
    · rw [h.started h', Bool.true_or]
    · rw [h', Bool.or_true]
  · intro hacc
    change (x.2.accepted || op.takesSynAck x.1.1) = true at hacc
    show (first_syn (x.2.pkts ++ new)).isSome = true
    rw [first_syn_append, Option.isSome_or]
    rw [Bool.or_eq_true] at hacc
    rcases hacc with hacc | ht
    · rw [h.answered hacc, Bool.true_or]
    · rw [(htake ht).1, Bool.true_or]
  · intro hacc
    change (x.2.accepted || op.takesSynAck x.1.1) = false at hacc
    rw [Bool.or_eq_false_iff] at hacc
    exact no_data h hp hacc.1 hacc.2

end Step

theorem start_fetch_tls_started (s₀ : NetStack) (url : Bytes) :
    (s₀.start_fetch url).tls_started = false := by
  unfold NetStack.start_fetch
  cases parse_fetch_url url with
  | none => rfl
  | some p =>
    dsimp only
    split_ifs <;> rfl

/-- **The send sequence number.** In every run of a fetch whose operations are
`SeqOk`, once a SYN has gone out with the number `iss`: `tcp_seq` is `iss`, plus
one if a SYN-ACK was taken, plus the payload bytes that went out; every SYN has
the number `iss`; and data starts at `iss + 1`. -/
theorem send_sequence (env : Env) (s₀ : NetStack) (vio : AnyNic) (url : Bytes) (ops : List Op)
    (hok : Along (wireStep env) (SeqOk env) ((s₀.start_fetch url, vio), ⟨[], false⟩) ops) :
    let x := run (wireStep env) ((s₀.start_fetch url, vio), ⟨[], false⟩) ops
    ∀ iss ∈ first_syn x.2.pkts, SeqAgrees iss x.1.1 x.2 := by
  intro x
  have hinit : SeqInv (s₀.start_fetch url) ⟨[], false⟩ := by
    refine ⟨nofun, ?_, nofun, nofun⟩
    intro h
    rw [start_fetch_tls_started] at h
    cases h
  have hinv : SeqInv x.1.1 x.2 :=
    run_invariant (I := fun y : Node × Wire => SeqInv y.1.1 y.2) seqInv_step hok hinit
  exact hinv.agrees

/-! ### Concrete runs -/

/-- A SYN, its answer, and the response. -/
def one_answer_run : List Op :=
  [.tcp_poll, .rx (gateway_frame 80 1000 0x12 []),
    .rx (gateway_frame 80 1001 0x18 (ascii "HTTP/1.0 200 OK\r\n\r\nhi"))]

theorem one_answer_run_agrees :
    let x := run (wireStep .qemu)
      ((slirp_node.1.start_fetch (ascii "http://10.0.2.2/"), slirp_node.2), ⟨[], false⟩)
      one_answer_run
    first_syn x.2.pkts = some 0 ∧ SeqAgrees 0 x.1.1 x.2 := by
  intro x
  have hiss : first_syn x.2.pkts = some 0 := by decide
  refine ⟨hiss, ?_⟩
  exact send_sequence .qemu slirp_node.1 slirp_node.2 (ascii "http://10.0.2.2/") one_answer_run
    (by decide) 0 hiss

/-- An HTTPS server's SYN-ACK arrives twice. -/
def two_answers_run : List Op :=
  [.tcp_poll, .rx (gateway_frame 443 1000 0x12 []), .rx (gateway_frame 443 1000 0x12 [])]

/-- Nothing was sent behind the SYN, and `tcp_seq` is two further. -/
theorem two_answers_run_disagrees :
    let x := run (wireStep .qemu)
      ((slirp_node.1.start_fetch (ascii "https://10.0.2.2/"), slirp_node.2), ⟨[], false⟩)
      two_answers_run
    first_syn x.2.pkts = some 0 ∧ total_sent x.2.pkts = 0 ∧ x.1.1.tcp_seq = 2
      ∧ ¬ SeqAgrees 0 x.1.1 x.2 := by
  intro x
  refine ⟨by decide, by decide, by decide, ?_⟩
  intro h
  have hne : x.1.1.tcp_seq
      ≠ 0 + (if x.2.accepted then 1 else 0) + UInt32.ofNat (total_sent x.2.pkts) := by
    decide
  exact hne h.seq

end EveOS.Net
