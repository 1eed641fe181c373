/-
Where the payload of a TCP segment ends.

The IPv4 header states the length of the datagram, and a frame may be longer: a frame of
less than 60 bytes is padded on the link. `tcp_datagram` reads the payload as the lengths in
the headers have it. `handle_tcp_rx` takes everything up to the end of the frame and
checks no length against another one; `handle_rx_lengths_iff` says for which frames that makes no
difference.
-/
import EveOS.Net.Frame

set_option autoImplicit false

namespace EveOS.Net

/-! ## The lengths in the headers -/

def ip_header_len (frame : Bytes) : Nat := (byteAt frame 14 &&& 0x0f).toNat * 4

def ip_total_len (frame : Bytes) : Nat := (u16At frame 16).toNat

def tcp_header_len (frame : Bytes) : Nat :=
  (byteAt frame (14 + ip_header_len frame + 12) >>> 4 &&& 0x0f).toNat * 4

/-- Each header has its five words, and the datagram holds both and is in the frame. -/
def LengthsFit (frame : Bytes) : Prop :=
  20 ≤ ip_header_len frame ∧ 20 ≤ tcp_header_len frame ∧
    ip_header_len frame + tcp_header_len frame ≤ ip_total_len frame ∧
    14 + ip_total_len frame ≤ frame.length

instance (frame : Bytes) : Decidable (LengthsFit frame) := inferInstanceAs (Decidable (_ ∧ _))

/-- The payload of the segment in a frame, if its lengths fit. -/
def tcp_datagram (frame : Bytes) : Option Bytes :=
  if LengthsFit frame then
    some (slice frame (14 + ip_header_len frame + tcp_header_len frame) (14 + ip_total_len frame))
  else none

/-- Receiving a frame by the lengths in its headers: a segment of the connection has the
payload of its datagram, and is dropped where the lengths do not fit. -/
def NetStack.handle_rx_lengths (env : Env) (s : NetStack) (vio : AnyNic) (frame : Bytes) :
    NetStack × AnyNic :=
  match s.rx_event frame with
  | .tcp seg =>
    match tcp_datagram frame with
    | none => (s, vio)
    | some payload => s.take_segment env vio { seg with payload := payload }
  | e => s.rx_act env vio e

/-! ## The segment `handle_rx` makes of a frame -/

section Segment

variable {s : NetStack} {frame : Bytes} {seg : TcpSegment}

theorem rx_event_tcp (h : s.rx_event frame = .tcp seg) :
    s.tcp_accept frame (.ofSlice frame 26) (ip_header_len frame) = some seg := by
  unfold NetStack.rx_event at h
  dsimp only at h
  split_ifs at h
  · cases ha : s.arp_accept frame <;> rw [ha] at h <;> cases h
  · unfold NetStack.ipv4_event at h
    split at h
    · cases h
    · cases h
    · split_ifs at h
      · split at h <;> cases h
      · cases ha : s.tcp_accept frame (.ofSlice frame 26) (ip_header_len frame) with
        | none =>
          unfold ip_header_len at ha
          rw [ha] at h
          cases h
        | some seg' =>
          unfold ip_header_len at ha
          rw [ha] at h
          rw [RxEvent.tcp.inj h]

/-- The payload reaches to the end of the frame. -/
theorem rx_event_payload (h : s.rx_event frame = .tcp seg) :
    seg.payload = frame.drop (14 + ip_header_len frame + tcp_header_len frame) := by
  have haccept := rx_event_tcp h
  unfold NetStack.tcp_accept at haccept
  dsimp only at haccept
  split_ifs at haccept
  obtain rfl := Option.some.inj haccept
  rfl

/-- Without padding the payload is that of the datagram. -/
theorem rx_event_payload_exact (h : s.rx_event frame = .tcp seg)
    (hlen : frame.length = 14 + ip_total_len frame) :
    slice frame (14 + ip_header_len frame + tcp_header_len frame) (14 + ip_total_len frame) = seg.payload := by
  rw [rx_event_payload h, slice, ← hlen, ← List.length_drop, List.take_length]

/-- Padding counts as payload. -/
theorem rx_event_payload_padded (h : s.rx_event frame = .tcp seg) (hfit : LengthsFit frame) :
    seg.payload.length =
      (slice frame (14 + ip_header_len frame + tcp_header_len frame) (14 + ip_total_len frame)).length +
        (frame.length - (14 + ip_total_len frame)) := by
  obtain ⟨-, -, hinner, houter⟩ := hfit
  rw [rx_event_payload h, slice, List.length_take, List.length_drop]
  omega

end Segment

/-! ## What a segment leaves behind -/

section Effects

variable (env : Env) (s : NetStack) (vio : AnyNic) (seg : TcpSegment)

theorem http_bytes_deliver (data : Bytes) : (s.deliver env data).1.http_bytes = s.http_bytes := by
  unfold NetStack.deliver
  split_ifs <;> rfl

theorem http_bytes_take_fin : (s.take_fin env).http_bytes = s.http_bytes := by
  unfold NetStack.take_fin
  split_ifs <;> rfl

/-- A segment that is neither a reset nor a SYN-ACK counts its payload. -/
theorem http_bytes_take_segment (hr : s.seg_kind seg ≠ .reset) (hs : s.seg_kind seg ≠ .syn_ack) :
    (s.take_segment env vio seg).1.http_bytes = s.http_bytes + UInt32.ofNat seg.payload.length := by
  have hnil : s.seg_kind seg = .bare_fin ∨ s.seg_kind seg = .nothing → seg.payload.length = 0 := by
    unfold NetStack.seg_kind
    split_ifs <;> simp_all
  unfold NetStack.take_segment
  cases hk : s.seg_kind seg with
  | reset => exact absurd hk hr
  | syn_ack => exact absurd hk hs
  | payload =>
    exact take_payload_keeps env s vio seg (fun t => t.http_bytes) (http_bytes_deliver env)
      (fun _ _ => rfl) (fun _ _ => rfl) (http_bytes_take_fin env)
  | bare_fin =>
    have hcount : (s.take_bare_fin env vio seg).1.http_bytes = s.http_bytes := http_bytes_take_fin env _
    rw [hnil (.inl hk)]
    exact hcount.trans (UInt32.add_zero _).symm
  | nothing =>
    rw [hnil (.inr hk)]
    exact (UInt32.add_zero _).symm

theorem ip_id_succ (x : UInt16) : x + 1 ≠ x := by
  intro h
  have hnat := congrArg UInt16.toNat h
  rw [UInt16.toNat_add] at hnat
  have hlt := x.toNat_lt
  simp at hnat
  omega

/-- A SYN-ACK that is taken fails the fetch or uses up an identifier. -/
theorem take_syn_ack_changes (ha : s.fetch_armed = true) : (s.take_syn_ack env vio seg).1 ≠ s := by
  intro h
  have hid : ∀ t : NetStack, t.ip_id = s.ip_id + 1 → t ≠ s := by
    rintro t ht rfl
    exact ip_id_succ _ ht.symm
  revert h
  unfold NetStack.take_syn_ack
  dsimp only
  split_ifs
  · exact hid _ rfl
  · exact hid _ rfl
  · cases build_http_get s.path s.host_header 512 with
    | none =>
      intro h
      have harmed : false = s.fetch_armed := congrArg (fun t : NetStack => t.fetch_armed) h
      rw [ha] at harmed
      cases harmed
    | some pay =>
      refine hid _ ?_
      unfold NetStack.tcp_send_get
      dsimp only
      split_ifs
      · rfl
      · split <;> rfl

/-- Only a segment that is nothing to the connection leaves the stack as it was. -/
theorem take_segment_changes (ha : s.fetch_armed = true) (hlen : seg.payload.length < 2 ^ 32)
    (hk : s.seg_kind seg ≠ .nothing) : (s.take_segment env vio seg).1 ≠ s := by
  cases hkind : s.seg_kind seg with
  | reset =>
    intro h
    unfold NetStack.take_segment at h
    rw [hkind] at h
    have harmed : false = s.fetch_armed := congrArg (fun t : NetStack => t.fetch_armed) h
    rw [ha] at harmed
    cases harmed
  | syn_ack =>
    unfold NetStack.take_segment
    rw [hkind]
    exact take_syn_ack_changes env s vio seg ha
  | payload =>
    intro h
    have hcount := http_bytes_take_segment env s vio seg (by simp [hkind]) (by simp [hkind])
    have hpos : 0 < seg.payload.length := by
      unfold NetStack.seg_kind at hkind
      split_ifs at hkind with _ _ hpos
      exact hpos
    rw [h, eq_comm, UInt32.add_eq_left] at hcount
    have hnat := congrArg UInt32.toNat hcount
    rw [UInt32.toNat_ofNat_of_lt' hlen] at hnat
    exact absurd hnat (by simpa using Nat.ne_of_gt hpos)
  | bare_fin =>
    have hid : (s.take_segment env vio seg).1.ip_id = s.ip_id + 1 := by
      unfold NetStack.take_segment
      rw [hkind]
      change ((NetStack.tcp_send_ack env _ vio).1.take_fin env).ip_id = _
      unfold NetStack.take_fin
      split_ifs <;> rfl
    intro h
    rw [h] at hid
    exact ip_id_succ _ hid.symm
  | nothing => exact absurd hkind hk

end Effects

/-! ## Frames that are read by their lengths -/

/-- A segment of the connection has consistent lengths and no padding, or nothing is read of it
but its flags; a frame with inconsistent lengths has neither flags nor bytes to act on. -/
def NetStack.ReadByLengths (s : NetStack) (frame : Bytes) : Prop :=
  ∀ seg, s.rx_event frame = .tcp seg →
    if LengthsFit frame then
      frame.length = 14 + ip_total_len frame ∨ s.seg_kind seg = .reset ∨ s.seg_kind seg = .syn_ack
    else s.seg_kind seg = .nothing

/-- That a segment is a reset or a SYN-ACK is in its flags. -/
theorem seg_kind_flags {s : NetStack} {seg seg' : TcpSegment} (hf : seg'.flg = seg.flg)
    (h : s.seg_kind seg = .reset ∨ s.seg_kind seg = .syn_ack) : s.seg_kind seg' = s.seg_kind seg := by
  unfold NetStack.seg_kind TcpSegment.rst TcpSegment.syn_ack TcpSegment.fin at h ⊢
  rw [hf]
  split_ifs at h ⊢ <;> simp_all

/-- Of a reset and of a SYN-ACK the payload is not looked at. -/
theorem take_segment_payload (env : Env) (s : NetStack) (vio : AnyNic) (seg : TcpSegment) (payload : Bytes)
    (h : s.seg_kind seg = .reset ∨ s.seg_kind seg = .syn_ack) :
    s.take_segment env vio { seg with payload := payload } = s.take_segment env vio seg := by
  have hkind : s.seg_kind { seg with payload := payload } = s.seg_kind seg := seg_kind_flags rfl h
  unfold NetStack.take_segment
  rw [hkind]
  rcases h with h | h
  · rw [h]
  · rw [h]
    rfl

/-- **Which frames are read by their lengths.** -/
theorem handle_rx_lengths_iff (env : Env) (s : NetStack) (vio : AnyNic) {frame : Bytes}
    (hlen : frame.length ≤ NIC_RX_IOBUF) :
    s.handle_rx env vio frame = s.handle_rx_lengths env vio frame ↔ s.ReadByLengths frame := by
  rw [handle_rx_eq]
  unfold NetStack.handle_rx_lengths NetStack.ReadByLengths
  cases hev : s.rx_event frame with
  | tcp seg =>
    have harmed : s.fetch_armed = true := by
      have hready := rx_event_ready s frame
      rw [hev] at hready
      exact hready.1
    have hpay : seg.payload.length < 2 ^ 32 := by
      rw [rx_event_payload hev, List.length_drop]
      unfold NIC_RX_IOBUF at hlen
      omega
    simp only [RxEvent.tcp.injEq, forall_eq']
    change s.take_segment env vio seg = _ ↔ _
    by_cases hfit : LengthsFit frame
    · rw [tcp_datagram, if_pos hfit, if_pos hfit]
      dsimp only
      constructor
      · intro h
        by_contra hno
        rw [not_or, not_or] at hno
        obtain ⟨hpad, hreset, hsyn⟩ := hno
        have hmore := rx_event_payload_padded hev hfit
        generalize hslice : slice frame (14 + ip_header_len frame + tcp_header_len frame)
          (14 + ip_total_len frame) = payload at h hmore
        -- both count their payload, and the padding is what is between the counts
        have hsame : ∀ k, k = .reset ∨ k = .syn_ack →
            s.seg_kind { seg with payload := payload } = k → s.seg_kind seg = k := by
          rintro k hk rfl
          exact seg_kind_flags rfl hk
        have hcount := http_bytes_take_segment env s vio seg hreset hsyn
        have hcount' := http_bytes_take_segment env s vio { seg with payload := payload }
          (fun hk => hreset (hsame _ (.inl rfl) hk)) (fun hk => hsyn (hsame _ (.inr rfl) hk))
        rw [h, hcount', UInt32.add_right_inj] at hcount
        have hnat := congrArg UInt32.toNat hcount
        have hpay' : payload.length < 2 ^ 32 := by omega
        rw [UInt32.toNat_ofNat_of_lt' hpay, UInt32.toNat_ofNat_of_lt' hpay'] at hnat
        have hin := hfit.2.2.2
        omega
      · rintro (hexact | hflags)
        · rw [rx_event_payload_exact hev hexact]
        · exact (take_segment_payload env s vio seg _ hflags).symm
    · rw [tcp_datagram, if_neg hfit, if_neg hfit]
      dsimp only
      constructor
      · intro h
        by_contra hno
        exact take_segment_changes env s vio seg harmed hpay hno (congrArg Prod.fst h)
      · intro h
        unfold NetStack.take_segment
        rw [h]
  | ignored => simp
  | arp mac => simp
  | dhcp bootp => simp
  | dns ip => simp

/-! ### Two frames -/

/-- A plain connection with a request out. -/
def NetStack.waiting : NetStack :=
  { NetStack.static_initial with
    fetch_armed := true
    dns_done := true
    get_sent := true
    remote_ip := ⟨10, 0, 2, 2⟩ }

/-- A bare ACK of the connection: the datagram has 40 bytes. -/
def bare_ack : Bytes :=
  List.replicate 12 0 ++ u16Bytes ETH_P_IP ++ [0x45, 0] ++ u16Bytes 40 ++ List.replicate 5 0 ++ [6, 0, 0] ++
    Ipv4.bytes ⟨10, 0, 2, 2⟩ ++ Ipv4.bytes NetIpv4Addrs.SLIRP.our ++ u16Bytes 80 ++ u16Bytes LOCAL_PORT ++
    List.replicate 8 0 ++ [0x50, 0x10] ++ List.replicate 6 0

/-- Without padding the ACK is read as it is. -/
theorem bare_ack_read :
    NetStack.waiting.handle_rx .qemu .lossless bare_ack =
      NetStack.waiting.handle_rx_lengths .qemu .lossless bare_ack := by
  refine (handle_rx_lengths_iff .qemu .waiting .lossless (by decide)).mpr ?_
  intro seg _
  rw [if_pos (by decide)]
  exact .inl (by decide)

/-- In a frame of 60 bytes the six bytes of padding count as payload. -/
theorem padding_ingested :
    ¬∀ (env : Env) (s : NetStack) (vio : AnyNic) (frame : Bytes), frame.length ≤ NIC_RX_IOBUF →
      s.handle_rx env vio frame = s.handle_rx_lengths env vio frame := by
  intro h
  have hread := h .qemu .waiting .lossless (bare_ack ++ List.replicate 6 0) (by decide)
  have hcount : (NetStack.waiting.handle_rx .qemu .lossless (bare_ack ++ List.replicate 6 0)).1.http_bytes = 6 := by
    decide
  have hcount' :
      (NetStack.waiting.handle_rx_lengths .qemu .lossless (bare_ack ++ List.replicate 6 0)).1.http_bytes = 0 := by
    decide
  rw [hread, hcount'] at hcount
  cases hcount

end EveOS.Net
