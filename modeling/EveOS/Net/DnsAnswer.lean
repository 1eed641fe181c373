/-
DNS answers belong to the question asked.

While a fetch waits for DNS, `handle_udp_rx` compares the server's address, our
port, the length fields and the transaction id, and `parse_dns_a` walks the
message to the first type A record with four bytes. Neither looks at the
server's port, at the QR bit or the RCODE, at what the question section asks, at
the class of the record, or at the two reserved kinds of length byte.

`IsDnsAnswer` says what an answer to the question asked is, with its own grammar
of names and records. The walk is sound for it on the messages that pass the
missing checks, `answers_question`, and then every frame handled during the wait
either is an answer, and takes effect as one, or leaves the fetch alone.
-/
import EveOS.Net.Effect

set_option autoImplicit false

namespace EveOS.Net

/-! ## What an answer is -/

/-- A domain name stands at `i` in the message and ends in front of `j`: labels
of 1 to 63 bytes, and then the root or a compression pointer. -/
inductive NameAt (buf : Bytes) : Nat → Nat → Prop
  | root {i : Nat} (hi : i < buf.length) (h0 : byteAt buf i = 0) : NameAt buf i (i + 1)
  | pointer {i : Nat} (hi : i + 1 < buf.length) (hp : byteAt buf i &&& 0xC0 = 0xC0) :
      NameAt buf i (i + 2)
  | label {i j : Nat} (h0 : byteAt buf i ≠ 0) (h63 : byteAt buf i &&& 0xC0 = 0)
      (hi : i + 1 + (byteAt buf i).toNat ≤ buf.length)
      (rest : NameAt buf (i + 1 + (byteAt buf i).toNat) j) : NameAt buf i j

/-- A resource record stands at `i`: its name ends in front of `j`, and ten
bytes later its data begins. -/
structure RecordAt (buf : Bytes) (i j : Nat) (typ cls rdlen : UInt16) : Prop where
  name : NameAt buf i j
  typ_eq : u16At buf j = typ
  cls_eq : u16At buf (j + 2) = cls
  rdlen_eq : u16At buf (j + 8) = rdlen
  inside : j + 10 + rdlen.toNat ≤ buf.length

/-- `k` resource records stand at `i` and end in front of `e`. -/
inductive RecordsAt (buf : Bytes) : Nat → Nat → Nat → Prop
  | nil {i : Nat} : RecordsAt buf 0 i i
  | cons {k i j e : Nat} {typ cls rdlen : UInt16} (head : RecordAt buf i j typ cls rdlen)
      (rest : RecordsAt buf k (j + 10 + rdlen.toNat) e) : RecordsAt buf (k + 1) i e

/-- One of the message's answer records, which begin at `i`, is of type A and
class IN and holds `ip`. -/
def HoldsA (buf : Bytes) (i : Nat) (ip : Ipv4) : Prop :=
  ∃ k e j, k < (u16At buf 6).toNat ∧ RecordsAt buf k i e ∧ RecordAt buf e j 1 1 4
    ∧ ip = .ofSlice buf (j + 10)

/-- Where the UDP header of an IPv4 frame begins. -/
def udp_header (frame : Bytes) : Nat := 14 + (byteAt frame 14 &&& 0x0f).toNat * 4

/-- The payload of a UDP datagram. -/
def udp_payload (frame : Bytes) : Bytes :=
  slice frame (udp_header frame + 8)
    (udp_header frame + (u16At frame (udp_header frame + 4)).toNat)

/-- The frame is the answer of our DNS server to the question asked, and says
that the name has the address `ip`. -/
structure IsDnsAnswer (s : NetStack) (frame : Bytes) (ip : Ipv4) : Prop where
  proto : byteAt frame 23 = 17
  server : Ipv4.ofSlice frame 26 = s.addrs.dns
  sport : u16At frame (udp_header frame) = 53
  dport : u16At frame (udp_header frame + 2) = DNS_LOCAL_PORT
  id : u16At (udp_payload frame) 0 = s.dns_tx_id
  response : byteAt (udp_payload frame) 2 &&& 0x80 ≠ 0
  no_error : byteAt (udp_payload frame) 3 &&& 0x0F = 0
  /-- One question, for the name we asked for, type A and class IN; the answers
  begin behind it. -/
  question : u16At (udp_payload frame) 4 = 1 ∧ ∃ j,
    encode_dns_qname s.dns_name (512 - 12) = some (slice (udp_payload frame) 12 j)
      ∧ u16At (udp_payload frame) j = 1 ∧ u16At (udp_payload frame) (j + 2) = 1
      ∧ j + 4 ≤ (udp_payload frame).length
      ∧ HoldsA (udp_payload frame) (j + 4) ip

/-! ## The property -/

/-- A fetch waits for DNS. -/
def NetStack.awaiting_dns (s : NetStack) : Bool := s.fetch_armed && s.needs_dns && !s.dns_done

/-- All the state of the current fetch. -/
structure FetchState extends HttpFetch, TcpConn, DnsQuery, TlsSession where
  host_header : Bytes
  path : Bytes
  deriving DecidableEq

def NetStack.fetchState (s : NetStack) : FetchState := { s with }

/-- A frame handled during the wait is an answer, and its address is the one to
connect to, or it leaves the fetch alone. -/
def DnsSafe (x : Node) (op : Op) (y : Node) : Prop :=
  ∀ frame ∈ op.frame, x.1.awaiting_dns = true →
    (∃ ip, IsDnsAnswer x.1 frame ip ∧ y.1 = x.1.take_dns_answer ip)
      ∨ y.1.fetchState = x.1.fetchState

/-! ## The condition -/

/-- No length byte on the way of `skip_dns_name_from` is of a reserved kind. -/
def plain_name_from (buf : Bytes) : Nat → Nat → Bool
  | 0, _ => true
  | fuel + 1, i =>
    let len := byteAt buf i
    len = 0 || len &&& 0xC0 = 0xC0
      || (len &&& 0xC0 = 0 && plain_name_from buf fuel (i + 1 + len.toNat))

def plain_name (buf : Bytes) (i : Nat) : Bool := plain_name_from buf (buf.length + 1) i

/-- The records on the way of `find_dns_a` have plain names, and the one it
stops at is of class IN. -/
def plain_answers (buf : Bytes) : Nat → Nat → Bool
  | 0, _ => true
  | an + 1, off =>
    match skip_dns_name buf off with
    | none => true
    | some j =>
      plain_name buf off
        && if u16At buf j = 1 ∧ (u16At buf (j + 8)).toNat = 4 then u16At buf (j + 2) = 1
          else plain_answers buf an (j + 10 + (u16At buf (j + 8)).toNat)

/-- The checks that `parse_dns_a` leaves out: a response without error, to the
question we asked, that `find_dns_a` reads plainly. -/
def NetStack.answers_question (s : NetStack) (buf : Bytes) : Bool :=
  byteAt buf 2 &&& 0x80 ≠ 0 && byteAt buf 3 &&& 0x0F = 0 && u16At buf 4 = 1
    && (skip_dns_name buf 12).any fun j =>
      encode_dns_qname s.dns_name (512 - 12) = some (slice buf 12 j)
        && u16At buf j = 1 && u16At buf (j + 2) = 1
        && plain_answers buf (u16At buf 6).toNat (j + 4)

/-- The stack takes the frame as the answer it waits for. -/
def NetStack.takes_dns (s : NetStack) (frame : Bytes) : Bool :=
  match s.rx_event frame with
  | .dns _ => true
  | _ => false

/-- A datagram that the stack takes as its answer comes from the DNS port and
passes the checks that are missing. -/
def DnsChecked (x : Node) (op : Op) : Prop :=
  ∀ frame ∈ op.frame, x.1.takes_dns frame = true →
    u16At frame (udp_header frame) = 53 ∧ x.1.answers_question (udp_payload frame) = true

instance (x : Node) (op : Op) : Decidable (DnsChecked x op) :=
  inferInstanceAs (Decidable (∀ frame ∈ op.frame, _ → _ ∧ _))

/-! ## The walk is sound -/

section Walk

variable {buf : Bytes}

/-- A plain name that is skipped stands in the message. -/
theorem nameAt_of_skip {fuel i j : Nat} (h : skip_dns_name_from buf fuel i = some j)
    (hplain : plain_name_from buf fuel i = true) (hj : j ≤ buf.length) : NameAt buf i j := by
  induction fuel generalizing i with
  | zero => cases h
  | succ fuel ih =>
    simp only [skip_dns_name_from, plain_name_from, Bool.or_eq_true, Bool.and_eq_true,
      decide_eq_true_eq] at h hplain
    split_ifs at h with hi h0 hp hlong
    · -- the root
      obtain rfl : i + 1 = j := Option.some.inj h
      exact .root (by omega) h0
    · -- a pointer, whose second byte is inside because `j` is
      obtain rfl : i + 2 = j := Option.some.inj h
      exact .pointer (by omega) hp
    · rcases hplain with (h' | h') | ⟨h63, hrest⟩
      · exact absurd h' h0
      · exact absurd h' hp
      · exact .label h0 h63 (by omega) (ih h hrest)

theorem nameAt_of_skip_dns_name {i j : Nat} (h : skip_dns_name buf i = some j)
    (hplain : plain_name buf i = true) (hj : j ≤ buf.length) : NameAt buf i j :=
  nameAt_of_skip h hplain hj

/-- The record that `find_dns_a` stops at is a record of the answer section, of
type A and class IN when the walk is plain. -/
theorem recordsAt_of_find {an off : Nat} {ip : Ipv4} (h : find_dns_a buf an off = some ip)
    (hplain : plain_answers buf an off = true) :
    ∃ k e j, k < an ∧ RecordsAt buf k off e ∧ RecordAt buf e j 1 1 4
      ∧ ip = .ofSlice buf (j + 10) := by
  induction an generalizing off with
  | zero => cases h
  | succ an ih =>
    simp only [find_dns_a, plain_answers] at h hplain
    cases hj : skip_dns_name buf off with
    | none =>
      rw [hj] at h
      cases h
    | some j =>
      rw [hj] at h hplain
      simp only [Bool.and_eq_true] at h hplain
      obtain ⟨hname, hclass⟩ := hplain
      split_ifs at h with hhead hdata hA
      · -- the record taken
        rw [if_pos hA, decide_eq_true_eq] at hclass
        have hlen : u16At buf (j + 8) = 4 := UInt16.toNat_inj.mp hA.2
        have hat := nameAt_of_skip_dns_name hj hname (by omega)
        refine ⟨0, off, j, Nat.succ_pos an, .nil, ⟨hat, hA.1, hclass, hlen, ?_⟩, ?_⟩
        · rw [hlen] at hdata
          exact Nat.le_of_not_lt hdata
        · exact (Option.some.inj h).symm
      · -- a record passed over
        rw [if_neg hA] at hclass
        obtain ⟨k, e, r, hk, hrecs, hrec, hip⟩ := ih h hclass
        have hat := nameAt_of_skip_dns_name hj hname (by omega)
        exact ⟨k + 1, e, r, Nat.succ_lt_succ hk,
          .cons ⟨hat, rfl, rfl, rfl, Nat.le_of_not_lt hdata⟩ hrecs, hrec, hip⟩

/-- What `parse_dns_a` accepts, when the message passes the missing checks. -/
theorem question_of_parse {s : NetStack} {ip : Ipv4} (h : parse_dns_a buf s.dns_tx_id = some ip)
    (hq : s.answers_question buf = true) :
    u16At buf 0 = s.dns_tx_id ∧ byteAt buf 2 &&& 0x80 ≠ 0 ∧ byteAt buf 3 &&& 0x0F = 0
    ∧ u16At buf 4 = 1 ∧ ∃ j,
      encode_dns_qname s.dns_name (512 - 12) = some (slice buf 12 j)
        ∧ u16At buf j = 1 ∧ u16At buf (j + 2) = 1 ∧ j + 4 ≤ buf.length ∧ HoldsA buf (j + 4) ip := by
  unfold NetStack.answers_question at hq
  simp only [Bool.and_eq_true, decide_eq_true_eq, Option.any_eq_true] at hq
  obtain ⟨⟨⟨hqr, hrcode⟩, hqd⟩, j, hj, ⟨⟨hname, htyp⟩, hcls⟩, hplain⟩ := hq
  unfold parse_dns_a at h
  split_ifs at h with hlen hid
  rw [hqd] at h
  have hone : skip_dns_questions buf (1 : UInt16).toNat 12
      = if buf.length < j + 4 then none else some (j + 4) := by
    show skip_dns_questions buf (0 + 1) 12 = _
    rw [skip_dns_questions, hj]
    rfl
  rw [hone] at h
  split_ifs at h with hend
  refine ⟨not_not.mp hid, hqr, hrcode, hqd, j, hname, htyp, hcls, by omega, ?_⟩
  exact recordsAt_of_find h hplain

end Walk

/-! ## One frame -/

/-- What the stack has checked of a frame that it takes as its answer. -/
theorem rx_event_dns {s : NetStack} {frame : Bytes} {ip : Ipv4} (h : s.rx_event frame = .dns ip) :
    byteAt frame 23 = 17
    ∧ s.dns_accept frame (.ofSlice frame 26) ((byteAt frame 14 &&& 0x0f).toNat * 4) = some ip := by
  unfold NetStack.rx_event at h
  dsimp only at h
  split_ifs at h with _ harp
  · cases hmac : s.arp_accept frame with
    | none => rw [hmac] at h; cases h
    | some mac => rw [hmac] at h; cases h
  · unfold NetStack.ipv4_event at h
    split at h
    · cases h
    · cases h
    · split_ifs at h with _ hudp htcp
      · cases hdns : s.dns_accept frame (.ofSlice frame 26) ((byteAt frame 14 &&& 0x0f).toNat * 4) with
        | none => rw [hdns] at h; cases h
        | some ip' =>
          rw [hdns] at h
          obtain rfl : ip' = ip := RxEvent.dns.inj h
          exact ⟨hudp, rfl⟩
      · cases hseg : s.tcp_accept frame (.ofSlice frame 26) ((byteAt frame 14 &&& 0x0f).toNat * 4) with
        | none => rw [hseg] at h; cases h
        | some seg => rw [hseg] at h; cases h

/-- **A datagram taken as the answer is one**, when it passes the missing
checks. -/
theorem isDnsAnswer_of_taken {s : NetStack} {frame : Bytes} {ip : Ipv4}
    (h : s.rx_event frame = .dns ip) (hport : u16At frame (udp_header frame) = 53)
    (hq : s.answers_question (udp_payload frame) = true) : IsDnsAnswer s frame ip := by
  obtain ⟨hproto, hacc⟩ := rx_event_dns h
  unfold NetStack.dns_accept at hacc
  dsimp only at hacc
  split_ifs at hacc with hwait hshort hdport hudp
  have hsip : Ipv4.ofSlice frame 26 = s.addrs.dns := by
    by_contra hne
    simp [hne] at hwait
  obtain ⟨hid, hqr, hrcode, hqd, hrest⟩ := question_of_parse hacc hq
  exact ⟨hproto, hsip, hport, not_not.mp hdport, hid, hqr, hrcode, hqd, hrest⟩

/-! ## The wait

A DHCP ACK that arrives during the wait clears `fetch_err`. That changes
nothing, since a fetch that waits for DNS has no error; the rest of `CleanWait`
says why no TLS session can give it one. -/

/-- A fetch that waits for DNS has no error and no TLS session. -/
def NetStack.CleanWait (s : NetStack) : Prop :=
  s.awaiting_dns = true → s.fetch_err = [] ∧ s.tls_poll = false
    ∧ s.https_handshake_queued = false ∧ s.tls_handshake_done = false

theorem awaiting_dns_iff {s : NetStack} :
    s.awaiting_dns = true ↔ s.fetch_armed = true ∧ s.needs_dns = true ∧ s.dns_done = false := by
  unfold NetStack.awaiting_dns
  rw [Bool.and_eq_true, Bool.and_eq_true, Bool.not_eq_true', and_assoc]

/-- The fetch is over, or not begun. -/
theorem CleanWait.of_disarmed {s : NetStack} (h : s.fetch_armed = false) : s.CleanWait := by
  intro hw
  rw [(awaiting_dns_iff.mp hw).1] at h
  cases h

/-- The answer is in. -/
theorem CleanWait.of_answered {s : NetStack} (h : s.dns_done = true) : s.CleanWait := by
  intro hw
  rw [(awaiting_dns_iff.mp hw).2.2] at h
  cases h

/-- Nothing `CleanWait` looks at has changed. -/
theorem CleanWait.of_fetchState {s s' : NetStack} (h : s.CleanWait)
    (hs : s'.fetchState = s.fetchState) : s'.CleanWait := by
  intro hw
  have harm : s'.fetch_armed = s.fetch_armed := congrArg (·.fetch_armed) hs
  have hneed : s'.needs_dns = s.needs_dns := congrArg (·.needs_dns) hs
  have hdone : s'.dns_done = s.dns_done := congrArg (·.dns_done) hs
  have herr : s'.fetch_err = s.fetch_err := congrArg (·.fetch_err) hs
  have hpoll : s'.tls_poll = s.tls_poll := congrArg (·.tls_poll) hs
  have hqueued : s'.https_handshake_queued = s.https_handshake_queued :=
    congrArg (·.https_handshake_queued) hs
  have hshake : s'.tls_handshake_done = s.tls_handshake_done :=
    congrArg (·.tls_handshake_done) hs
  rw [awaiting_dns_iff, harm, hneed, hdone, ← awaiting_dns_iff] at hw
  rw [herr, hpoll, hqueued, hshake]
  exact h hw

/-- No fetch waits while there is a TLS session. -/
theorem CleanWait.no_wait {s : NetStack} (h : s.CleanWait)
    (ht : s.tls_poll = true ∨ s.https_handshake_queued = true ∨ s.tls_handshake_done = true) :
    s.awaiting_dns = false := by
  by_contra hw
  obtain ⟨-, hpoll, hqueued, hshake⟩ := h (by simpa using hw)
  simp [hpoll, hqueued, hshake] at ht

/-- A step of something that does not go on while a fetch waits, and that does
not start a wait. -/
theorem CleanWait.of_no_wait {s s' : NetStack} (hno : s.awaiting_dns = false)
    (ha : s'.fetch_armed = true → s.fetch_armed = true) (hn : s'.needs_dns = s.needs_dns)
    (hd : s'.dns_done = s.dns_done) : s'.CleanWait := by
  intro hw
  obtain ⟨harm, hneed, hdone⟩ := awaiting_dns_iff.mp hw
  have hwait := awaiting_dns_iff.mpr ⟨ha harm, hn ▸ hneed, hd ▸ hdone⟩
  rw [hno] at hwait
  cases hwait

-- stated for any sequence number, so that nothing runs the hash of the MAC
theorem CleanWait.of_tcp_seq {s : NetStack} (h : s.CleanWait) (q : UInt32) :
    ({ s with tcp_seq := q } : NetStack).CleanWait := h

theorem CleanWait.start_fetch (s : NetStack) (url : Bytes) : (s.start_fetch url).CleanWait := by
  unfold NetStack.start_fetch
  dsimp only
  split
  · exact CleanWait.of_disarmed rfl
  · split_ifs
    · exact fun _ => ⟨rfl, rfl, rfl, rfl⟩
    · exact fun _ => ⟨rfl, rfl, rfl, rfl⟩

theorem CleanWait.drive_begin {s : NetStack} (h : s.CleanWait) (settings : DeviceSettings) :
    (s.drive_begin settings).CleanWait := by
  unfold NetStack.drive_begin NetStack.sync_ip_from_settings
  split_ifs
  · exact CleanWait.of_fetchState h rfl
  · exact CleanWait.of_disarmed rfl

/-! ## One step -/

variable (env : Env)

/-- **One frame during the wait.** -/
theorem dnsSafe_rx {s : NetStack} (vio : AnyNic) {frame : Bytes} (h : s.CleanWait)
    (hc : DnsChecked (s, vio) (.rx frame)) :
    DnsSafe (s, vio) (.rx frame) (s.handle_rx env vio frame) := by
  intro frame' hframe hw
  obtain rfl : frame = frame' := Option.some.inj hframe
  rw [handle_rx_eq]
  have hready := rx_event_ready s frame
  cases he : s.rx_event frame with
  | ignored => exact .inr rfl
  | arp mac => exact .inr rfl
  | dhcp bootp =>
    right
    obtain hr | ⟨r, sid, -, hr⟩ | ⟨r, -, hr⟩ := handle_dhcp_reply_cases env s vio bootp
    · show (s.handle_dhcp_reply env vio bootp).1.fetchState = _
      rw [hr]
    · show (s.handle_dhcp_reply env vio bootp).1.fetchState = _
      rw [hr]
      rfl
    · -- the ACK clears an error that is not there
      show (s.handle_dhcp_reply env vio bootp).1.fetchState = _
      rw [hr]
      show { s.fetchState with fetch_err := [] } = s.fetchState
      rw [← (h hw).1]
      rfl
  | dns ip =>
    left
    obtain ⟨hport, hq⟩ := hc frame rfl (by show NetStack.takes_dns s frame = true; rw [NetStack.takes_dns, he])
    exact ⟨ip, isDnsAnswer_of_taken he hport hq, rfl⟩
  | tcp seg =>
    rw [he] at hready
    have hdone : s.dns_done = true := hready.2
    rw [(awaiting_dns_iff.mp hw).2.2] at hdone
    cases hdone

theorem CleanWait.rx {s : NetStack} (vio : AnyNic) (frame : Bytes) (h : s.CleanWait) :
    (s.handle_rx env vio frame).1.CleanWait := by
  rw [handle_rx_eq]
  have hready := rx_event_ready s frame
  cases he : s.rx_event frame with
  | ignored => exact h
  | arp mac => exact CleanWait.of_fetchState h rfl
  | dhcp bootp =>
    show (s.handle_dhcp_reply env vio bootp).1.CleanWait
    obtain hr | ⟨r, sid, -, hr⟩ | ⟨r, -, hr⟩ := handle_dhcp_reply_cases env s vio bootp
    · rw [hr]
      exact h
    · rw [hr]
      exact CleanWait.of_fetchState h rfl
    · rw [hr]
      exact fun hw => ⟨rfl, (h hw).2⟩
  | dns ip => exact CleanWait.of_answered rfl
  | tcp seg =>
    rw [he] at hready
    apply CleanWait.of_answered
    show (s.take_segment env vio seg).1.dns_done = true
    exact (congrArg (·.dns_done) (rest_take_segment env s vio seg)).trans hready.2

/-- Reading the response does not arm a fetch. -/
theorem armed_of_reads {s t : HttpFetch} (h : s.ReadsTo t) (ht : t.fetch_armed = true) :
    s.fetch_armed = true := by
  rcases h.flags with ⟨ha, -⟩ | ⟨ha, -⟩
  · exact ha ▸ ht
  · rw [ha] at ht
    cases ht

/-- **Every operation keeps the wait clean.** -/
theorem CleanWait.step {x : Node} (op : Op) (h : x.1.CleanWait) : (Node.step env x op).1.CleanWait := by
  obtain ⟨s, vio⟩ := x
  unfold Node.step
  by_cases hen : op.enabled s = true
  swap
  · rw [if_neg hen]
    exact h
  rw [if_pos hen]
  have hpoll : s.tls_poll = true → s.awaiting_dns = false := fun hp => CleanWait.no_wait h (.inl hp)
  cases op with
  | start_fetch url => exact CleanWait.start_fetch s url
  | reset_demo => exact CleanWait.of_disarmed rfl
  | seed_from_mac mac =>
    show (s.seed_from_mac mac).CleanWait
    unfold NetStack.seed_from_mac
    exact CleanWait.of_tcp_seq h _
  | drive_begin settings => exact CleanWait.drive_begin h settings
  | rx frame => exact CleanWait.rx env vio frame h
  | dhcp_poll =>
    apply CleanWait.of_fetchState h
    show (s.dhcp_poll env vio).1.fetchState = _
    unfold NetStack.dhcp_poll NetStack.dhcp_timeout NetStack.dhcp_retransmit NetStack.dhcp_stamp
    dsimp only
    split_ifs <;> rfl
  | show_phase => exact CleanWait.of_fetchState h rfl
  | arp_poll => exact h
  | dns_poll =>
    show (s.dns_poll env vio).1.CleanWait
    unfold NetStack.dns_poll
    dsimp only
    split_ifs
    · exact CleanWait.of_disarmed rfl
    · exact fun hw => h hw
    · exact CleanWait.of_disarmed rfl
    · exact fun hw => h hw
  | tcp_poll =>
    apply CleanWait.of_answered
    obtain ⟨hf, b, n, he⟩ := tcp_limits_eq env s vio
    show (s.tcp_limits env vio).1.dns_done = true
    rw [he]
    simp only [Op.enabled, Bool.and_eq_true] at hen
    exact hen.1.2
  | tls_begin =>
    have hq : s.https_handshake_queued = true := by
      simp only [Op.enabled, Bool.and_eq_true] at hen
      exact hen.1.1.2
    exact CleanWait.of_no_wait (CleanWait.no_wait h (.inr (.inl hq))) id rfl rfl
  | tls_pump_begin =>
    have hd : s.tls_handshake_done = true := by
      simp only [Op.enabled, Bool.and_eq_true] at hen
      exact hen.1.1.1.2
    exact CleanWait.of_no_wait (CleanWait.no_wait h (.inr (.inr hd))) id rfl rfl
  | tls_flush =>
    obtain ⟨q, i, b, he⟩ := tls_tx_flush_all_eq env s vio
    show (s.tls_tx_flush_all env vio).1.CleanWait
    rw [he]
    exact CleanWait.of_no_wait (hpoll hen) id rfl rfl
  | tls_fail msg => exact CleanWait.of_disarmed rfl
  | tls_abort msg => exact CleanWait.of_disarmed rfl
  | tls_read data =>
    exact CleanWait.of_no_wait (hpoll hen) (armed_of_reads (ingest_reads env.dec _ data)) rfl rfl
  | tls_read_err => exact CleanWait.of_disarmed rfl
  | tls_pump_end =>
    obtain ⟨hf, he⟩ := tls_pump_eof_eq env s.clear_tls_poll
    show (s.clear_tls_poll.tls_pump_eof env).CleanWait
    refine CleanWait.of_no_wait (hpoll hen) ?_ (by rw [he]; rfl) (by rw [he]; rfl)
    intro ha
    have hhttp := http_tls_pump_eof env s.clear_tls_poll
    have ha' : (s.clear_tls_poll.tls_pump_eof env).toHttpFetch.fetch_armed = true := ha
    rw [hhttp] at ha'
    split_ifs at ha'
    · exact armed_of_reads (eof_reads env.dec _) ha'
    · exact ha'
  | _ => exact CleanWait.of_no_wait (hpoll hen) id rfl rfl

/-! ## Runs -/

theorem dnsSafe_step {x : Node} {op : Op} (h : x.1.CleanWait) (hc : DnsChecked x op) :
    DnsSafe x op (Node.step env x op) := by
  cases op with
  | rx frame => exact dnsSafe_rx env x.2 h hc
  | _ => exact fun frame hframe => by cases hframe

/-- **DNS answers belong to the question asked.** In every run from the initial
state in which the datagrams taken pass the missing checks, every frame handled
while a fetch waits for DNS is an answer to the question asked, and its address
becomes `remote_ip`, or it leaves the fetch alone. -/
theorem dns_answers_are_asked_for (vio : AnyNic) (ops : List Op)
    (h : Along (Node.step env) DnsChecked (NetStack.static_initial, vio) ops) :
    Along (Node.step env) (fun x op => DnsSafe x op (Node.step env x op))
      (NetStack.static_initial, vio) ops := by
  refine along_of_invariant (I := fun x => x.1.CleanWait) ?_ ?_ h (CleanWait.of_disarmed rfl)
  · intro x op hx _
    exact CleanWait.step env op hx
  · intro x op hx hc
    exact dnsSafe_step env hx hc

/-! ### Concrete runs -/

/-- What the SLIRP DNS server sends when it is asked for the name `asked` first:
the question and one address. -/
def dns_reply_frame (asked : Bytes) (ip : Ipv4) : Bytes :=
  (build_udp Env.qemu.our_mac ⟨0x52, 0x55, 10, 0, 2, 3⟩ ⟨10, 0, 2, 3⟩ ⟨10, 0, 2, 15⟩ 53 DNS_LOCAL_PORT
    (u16Bytes 0xACE0 ++ u16Bytes 0x8180 ++ u16Bytes 1 ++ u16Bytes 1 ++ List.replicate 4 0
      ++ (encode_dns_qname asked (512 - 12)).getD [] ++ u16Bytes 1 ++ u16Bytes 1
      ++ [0xC0, 12] ++ u16Bytes 1 ++ u16Bytes 1 ++ List.replicate 4 0 ++ u16Bytes 4 ++ ip.bytes)
    0 2048).drop VIRTIO_NET_HDR

/-- The stack asks for `a.example` and is told about `asked`. -/
def asking_run (asked : Bytes) : List Op :=
  [.drive_begin .slirp, .start_fetch (ascii "http://a.example/"),
    .rx (dns_reply_frame asked ⟨93, 184, 216, 34⟩)]

/-- The answer to the question is taken. -/
theorem asked_name_answered :
    (run (Node.step .qemu) (NetStack.static_initial, .lossless)
      (asking_run (ascii "a.example"))).1.remote_ip = ⟨93, 184, 216, 34⟩
    ∧ Along (Node.step .qemu) (fun x op => DnsSafe x op (Node.step .qemu x op))
      (NetStack.static_initial, .lossless) (asking_run (ascii "a.example")) :=
  ⟨by decide,
    dns_answers_are_asked_for .qemu .lossless (asking_run (ascii "a.example")) (by decide)⟩

/-- The answer to another question is taken too. -/
theorem other_name_answered :
    (run (Node.step .qemu) (NetStack.static_initial, .lossless)
      (asking_run (ascii "b.example"))).1.remote_ip = ⟨93, 184, 216, 34⟩
    ∧ ¬ Along (Node.step .qemu) (fun x op => DnsSafe x op (Node.step .qemu x op))
      (NetStack.static_initial, .lossless) (asking_run (ascii "b.example")) := by
  refine ⟨by decide, ?_⟩
  rintro ⟨-, -, hsafe, -⟩
  rcases hsafe _ rfl (by decide) with ⟨ip, hanswer, -⟩ | hsame
  · -- the name asked for is not the one in the question
    obtain ⟨-, j, hname, -⟩ := hanswer.question
    have hext := List.take_prefix (j - 12)
      ((udp_payload (dns_reply_frame (ascii "b.example") ⟨93, 184, 216, 34⟩)).drop 12)
    rw [← slice, ← List.isPrefixOf_iff_prefix] at hext
    have hany : (encode_dns_qname (ascii "a.example") (512 - 12)).any (fun q => q.isPrefixOf
        ((udp_payload (dns_reply_frame (ascii "b.example") ⟨93, 184, 216, 34⟩)).drop 12)) = true := by
      have hname' : encode_dns_qname (ascii "a.example") (512 - 12) = some _ := hname
      rw [hname']
      exact hext
    exact absurd hany (by decide)
  · exact absurd (congrArg (·.dns_done) hsame) (by decide)

end EveOS.Net
