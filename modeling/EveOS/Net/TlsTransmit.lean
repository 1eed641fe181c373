/-
The TLS transmit queue in its buffer.

`Drive` keeps the bytes that are still to be sent as a list. Here they stand at the front of
`tls_tx_buf`, and are moved there by `copy_within` behind each segment. `TxQueue.stack_now` is the
stack that `Drive` knows: both make the same packets. What a flush leaves can be
sent by a later one, so the packets of a run that were transmitted carry the bytes that were
accepted, in their order and with sequence numbers in step.
-/
import EveOS.Lib.Buffer
import EveOS.Net.Sends
import EveOS.Net.TlsQueue

set_option autoImplicit false

namespace EveOS.Net

/-! ## The kernel -/

/-- The stack, whose `tls_tx_buf` field is not used, with the buffer and the number of bytes
that are queued in it. -/
structure TxQueue where
  stack : NetStack
  tls_tx_buf : Bytes
  tls_tx_len : Nat

namespace TxQueue

def start (stack : NetStack) (buf : Vector UInt8 TLS_TX_CAP) : TxQueue := ⟨stack, buf.toList, 0⟩

def tls_cipher_tx_append (s : TxQueue) (data : Bytes) : Option (TxQueue × Bool) :=
  if s.tls_tx_buf.length < saturating_add s.tls_tx_len data.length then some (s, false)
  else do
    let buf ← write? s.tls_tx_buf s.tls_tx_len data
    return ({ s with tls_tx_buf := buf, tls_tx_len := s.tls_tx_len + data.length }, true)

variable (env : Env)

/-- One round of the loop of `tls_tx_flush_all`. -/
def flush_round : TxQueue × AnyNic → Option ((TxQueue × AnyNic) ⊕ (TxQueue × AnyNic))
  | (s, vio) =>
    if 0 < s.tls_tx_len then do
      let n := min s.tls_tx_len TLS_MSS
      let payload ← slice? s.tls_tx_buf 0 n
      let pkt := build_tcp_ack_psh env.our_mac s.stack.gw_mac s.stack.addrs s.stack.remote_ip LOCAL_PORT
        s.stack.remote_port s.stack.tcp_seq s.stack.tcp_ack payload (s.stack.ip_id + 1) env.scratch_len
      let stack := { s.stack with ip_id := s.stack.ip_id + 1 }
      if pkt = [] then return .inr ({ s with stack := stack }, vio)
      else
        let (ok, vio) := vio.transmit pkt
        if !ok then return .inr ({ s with stack := stack }, vio)
        else
          let buf ← copy_within? s.tls_tx_buf n s.tls_tx_len 0
          return .inl (⟨{ stack with tcp_seq := stack.tcp_seq + UInt32.ofNat n }, buf, s.tls_tx_len - n⟩, vio)
    else some (.inr (s, vio))

/-- `tls_tx_flush_all`. The loop is given `rounds` rounds. -/
def tls_tx_flush_all (rounds : Nat) (s : TxQueue) (vio : AnyNic) : Option (TxQueue × AnyNic) := do
  let (s, vio) ← loop (flush_round env) rounds (s, vio)
  return ({ s with stack := { s.stack with tls_tx_flush_pending := false } }, vio)

/-- The stack with the queued bytes as a list. -/
def stack_now (s : TxQueue) : NetStack := { s.stack with tls_tx_buf := s.tls_tx_buf.take s.tls_tx_len }

/-- The queue fits its buffer. -/
structure Fits (s : TxQueue) : Prop where
  cap : s.tls_tx_buf.length = TLS_TX_CAP
  len : s.tls_tx_len ≤ TLS_TX_CAP

end TxQueue

/-- A call of the library's bridge or of the stack. -/
inductive TxCall
  | append (data : Bytes)
  | flush

/-- What a call does, and whether its data was accepted. Each round of a flush that goes on
takes a byte, so there are enough rounds. -/
def TxQueue.step (env : Env) : TxQueue × AnyNic → TxCall → Option ((TxQueue × AnyNic) × Bool)
  | (s, vio), .append data => do
    let (s, ok) ← s.tls_cipher_tx_append data
    return ((s, vio), ok)
  | (s, vio), .flush => do
    let r ← s.tls_tx_flush_all env (s.tls_tx_len + 1) vio
    return (r, true)

/-- The data of the appends that were accepted. -/
def tx_accepted : List TxCall → List Bool → Bytes
  | .append data :: cs, true :: oks => data ++ tx_accepted cs oks
  | _ :: cs, _ :: oks => tx_accepted cs oks
  | _, _ => []

/-! ## What went out -/

/-- The packets that were transmitted. -/
def transmitted (sent : List (Bytes × Bool)) : List Bytes := (sent.filter fun e => e.2).map Prod.fst

/-- A segment with some of the queued bytes. -/
def TlsSegment (pkt : Bytes) : Prop :=
  is_tcp_packet pkt = true ∧ 1 ≤ (tcp_packet_payload pkt).length ∧ (tcp_packet_payload pkt).length ≤ TLS_MSS

/-- From `vio` to `vio'` segments went out that carry `data`, with the sequence numbers from
`q` to `q'`. -/
def Carries (q : UInt32) (vio : AnyNic) (data : Bytes) (vio' : AnyNic) (q' : UInt32) : Prop :=
  ∃ new, vio'.sent = vio.sent ++ new ∧ Follows q new q' ∧ (∀ e ∈ new, TlsSegment e.1) ∧
    (transmitted new).flatMap tcp_packet_payload = data

section Carries

variable {q q' q'' : UInt32} {vio vio' vio'' : AnyNic} {data data' : Bytes}

theorem Carries.none (q : UInt32) (vio : AnyNic) : Carries q vio [] vio q :=
  ⟨[], (List.append_nil _).symm, rfl, by simp, rfl⟩

theorem Carries.trans (h : Carries q vio data vio' q') (h' : Carries q' vio' data' vio'' q'') :
    Carries q vio (data ++ data') vio'' q'' := by
  obtain ⟨new, hsent, hseq, hseg, rfl⟩ := h
  obtain ⟨new', hsent', hseq', hseg', rfl⟩ := h'
  refine ⟨new ++ new', ?_, follows_append hseq hseq', ?_, ?_⟩
  · rw [hsent', hsent, List.append_assoc]
  · intro e he
    rcases List.mem_append.mp he with h | h
    · exact hseg e h
    · exact hseg' e h
  · rw [transmitted, List.filter_append, List.map_append, List.flatMap_append]
    rfl

/-- One segment, which may be lost. -/
theorem carries_one {pkt : Bytes} (vio : AnyNic) (hpkt : TlsSegment pkt) :
    Carries (tcp_packet_seq pkt) vio (if (vio.transmit pkt).1 then tcp_packet_payload pkt else [])
      (vio.transmit pkt).2
      (tcp_packet_seq pkt + UInt32.ofNat (if (vio.transmit pkt).1 then (tcp_packet_payload pkt).length else 0)) := by
  refine ⟨[(pkt, (vio.transmit pkt).1)], rfl, follows_tcp hpkt.1 rfl, by simpa using hpkt, ?_⟩
  cases (vio.transmit pkt).1 <;> simp [transmitted]

/-- **Sequence numbers in step.** Each transmitted segment starts where the one before it
ended, and the first one where the connection stood. -/
theorem transmitted_in_step {new : List (Bytes × Bool)} (h : Follows q new q')
    (hseg : ∀ e ∈ new, is_tcp_packet e.1 = true) :
    (transmitted new).IsChain (fun p p' =>
        tcp_packet_seq p' = tcp_packet_seq p + UInt32.ofNat (tcp_packet_payload p).length) ∧
      ∀ p ∈ (transmitted new).head?, tcp_packet_seq p = q := by
  induction new generalizing q with
  | nil => simp [transmitted]
  | cons e new ih =>
    obtain ⟨pkt, ok⟩ := e
    obtain ⟨hfirst, hrest⟩ := h
    have htcp := hseg (pkt, ok) List.mem_cons_self
    have hih := ih hrest fun e he => hseg e (List.mem_cons_of_mem _ he)
    have hq := hfirst htcp
    dsimp only at hq htcp
    unfold sent_bytes at hih
    dsimp only at hih
    rw [htcp] at hih
    cases ok with
    | false =>
      rw [Bool.and_false, if_neg Bool.false_ne_true] at hih
      have hzero : q + UInt32.ofNat 0 = q := by simp
      rw [hzero] at hih
      exact hih
    | true =>
      rw [Bool.and_true, if_pos rfl] at hih
      have hcons : transmitted ((pkt, true) :: new) = pkt :: transmitted new := rfl
      rw [hcons]
      refine ⟨List.IsChain.cons hih.1 ?_, by simpa using hq⟩
      intro p hp
      rw [hq]
      exact hih.2 p hp

end Carries

/-! ## The flush -/

section Flush

variable (env : Env)

/-- **What a flush sends** is the front of the queue, in segments. -/
theorem tls_tx_flush_loop_carries (fuel : Nat) (s : NetStack) (vio : AnyNic) :
    ∃ data, data ++ (s.tls_tx_flush_loop env fuel vio).1.tls_tx_buf = s.tls_tx_buf ∧
      Carries s.tcp_seq vio data (s.tls_tx_flush_loop env fuel vio).2
        (s.tls_tx_flush_loop env fuel vio).1.tcp_seq := by
  induction fuel generalizing s vio with
  | zero => exact ⟨[], rfl, .none _ _⟩
  | succ fuel ih =>
    simp only [NetStack.tls_tx_flush_loop]
    by_cases hbuf : s.tls_tx_buf = []
    · rw [if_pos hbuf]
      exact ⟨[], rfl, .none _ _⟩
    rw [if_neg hbuf]
    generalize hpkt : build_tcp_ack_psh env.our_mac s.gw_mac s.addrs s.remote_ip LOCAL_PORT s.remote_port
      s.tcp_seq s.tcp_ack (s.tls_tx_buf.take (min s.tls_tx_buf.length TLS_MSS)) (s.ip_id + 1)
      env.scratch_len = pkt
    by_cases hnil : pkt = []
    · rw [if_pos hnil]
      exact ⟨[], rfl, .none _ _⟩
    rw [if_neg hnil]
    obtain ⟨htcp, hseq, -, -, hpay⟩ := build_tcp_packet _ _ _ _ _ _ _ _ _ _ _ _ _ hpkt hnil
    have hlen : (s.tls_tx_buf.take (min s.tls_tx_buf.length TLS_MSS)).length = min s.tls_tx_buf.length TLS_MSS := by
      rw [List.length_take]
      omega
    have hpos := List.length_pos_of_ne_nil hbuf
    have hmss : TLS_MSS = 1400 := rfl
    have hseg : TlsSegment pkt := by
      refine ⟨htcp, ?_, ?_⟩
      · rw [hpay, hlen]
        omega
      · rw [hpay, hlen]
        omega
    have hone := carries_one vio hseg
    rw [hseq, hpay, hlen] at hone
    rcases htx : vio.transmit pkt with ⟨ok, vio'⟩
    rw [htx] at hone
    dsimp only at hone ⊢
    cases ok with
    | false =>
      have hzero : s.tcp_seq + UInt32.ofNat 0 = s.tcp_seq := by simp
      rw [if_neg Bool.false_ne_true, if_neg Bool.false_ne_true, hzero] at hone
      exact ⟨[], rfl, hone⟩
    | true =>
      rw [if_pos rfl, if_pos rfl] at hone
      obtain ⟨data, hdata, hrest⟩ := ih
        { s with
          ip_id := s.ip_id + 1
          tcp_seq := s.tcp_seq + UInt32.ofNat (min s.tls_tx_buf.length TLS_MSS)
          tls_tx_buf := s.tls_tx_buf.drop (min s.tls_tx_buf.length TLS_MSS) } vio'
      refine ⟨s.tls_tx_buf.take (min s.tls_tx_buf.length TLS_MSS) ++ data, ?_, hone.trans hrest⟩
      rw [List.append_assoc]
      refine (congrArg (s.tls_tx_buf.take (min s.tls_tx_buf.length TLS_MSS) ++ ·) hdata).trans ?_
      exact List.take_append_drop _ _

/-- The packet of the next segment. -/
def NetStack.tls_packet (s : NetStack) : Bytes :=
  build_tcp_ack_psh env.our_mac s.gw_mac s.addrs s.remote_ip LOCAL_PORT s.remote_port s.tcp_seq s.tcp_ack
    (s.tls_tx_buf.take (min s.tls_tx_buf.length TLS_MSS)) (s.ip_id + 1) env.scratch_len

/-- The loop of the list, round by round. -/
theorem tls_tx_flush_loop_succ (fuel : Nat) (s : NetStack) (vio : AnyNic) (hne : s.tls_tx_buf ≠ []) :
    s.tls_tx_flush_loop env (fuel + 1) vio =
      if s.tls_packet env = [] then ({ s with ip_id := s.ip_id + 1 }, vio)
      else if (vio.transmit (s.tls_packet env)).1 = true then
        NetStack.tls_tx_flush_loop env fuel
          { s with
            ip_id := s.ip_id + 1
            tcp_seq := s.tcp_seq + UInt32.ofNat (min s.tls_tx_buf.length TLS_MSS)
            tls_tx_buf := s.tls_tx_buf.drop (min s.tls_tx_buf.length TLS_MSS) }
          (vio.transmit (s.tls_packet env)).2
      else ({ s with ip_id := s.ip_id + 1 }, (vio.transmit (s.tls_packet env)).2) := by
  rw [NetStack.tls_tx_flush_loop, if_neg hne]
  dsimp only
  unfold NetStack.tls_packet
  generalize build_tcp_ack_psh env.our_mac s.gw_mac s.addrs s.remote_ip LOCAL_PORT s.remote_port s.tcp_seq
    s.tcp_ack (s.tls_tx_buf.take (min s.tls_tx_buf.length TLS_MSS)) (s.ip_id + 1) env.scratch_len = pkt
  by_cases hnil : pkt = []
  · rw [if_pos hnil, if_pos hnil]
  · rw [if_neg hnil, if_neg hnil]
    rcases vio.transmit pkt with ⟨_ | _, vio'⟩
    · rfl
    · rfl

/-- The loop in the buffer makes the same packet, and moves what is left to the front. -/
theorem flush_round_eq {s : TxQueue} (vio : AnyNic) (h : s.Fits) (hpos : 0 < s.tls_tx_len) :
    ∃ buf : Bytes, buf.length = TLS_TX_CAP ∧
      buf.take (s.tls_tx_len - min s.tls_tx_len TLS_MSS) =
        s.stack_now.tls_tx_buf.drop (min s.tls_tx_len TLS_MSS) ∧
      TxQueue.flush_round env (s, vio) =
        if s.stack_now.tls_packet env = [] then
          some (.inr ({ s with stack := { s.stack with ip_id := s.stack.ip_id + 1 } }, vio))
        else if (vio.transmit (s.stack_now.tls_packet env)).1 = true then
          some (.inl (⟨{ s.stack with
            ip_id := s.stack.ip_id + 1
            tcp_seq := s.stack.tcp_seq + UInt32.ofNat (min s.tls_tx_len TLS_MSS) },
            buf, s.tls_tx_len - min s.tls_tx_len TLS_MSS⟩, (vio.transmit (s.stack_now.tls_packet env)).2))
        else
          some (.inr ({ s with stack := { s.stack with ip_id := s.stack.ip_id + 1 } },
            (vio.transmit (s.stack_now.tls_packet env)).2)) := by
  obtain ⟨hcap, hle⟩ := h
  have hn : min s.tls_tx_len TLS_MSS ≤ s.tls_tx_len := Nat.min_le_left _ _
  have hqueue : s.stack_now.tls_tx_buf = s.tls_tx_buf.take s.tls_tx_len := rfl
  have hlength : s.stack_now.tls_tx_buf.length = s.tls_tx_len := by
    rw [hqueue, List.length_take]
    omega
  have hpayload : slice? s.tls_tx_buf 0 (min s.tls_tx_len TLS_MSS) =
      some (s.stack_now.tls_tx_buf.take (min s.stack_now.tls_tx_buf.length TLS_MSS)) := by
    rw [hlength, hqueue, slice?_eq (Nat.zero_le _) (by omega), List.drop_zero, Nat.sub_zero, List.take_take,
      Nat.min_eq_left hn]
  -- the segment, what is queued behind it, and the rest of the buffer
  have hsplit : s.tls_tx_buf = s.tls_tx_buf.take (min s.tls_tx_len TLS_MSS) ++
      (s.stack_now.tls_tx_buf.drop (min s.tls_tx_len TLS_MSS) ++ s.tls_tx_buf.drop s.tls_tx_len) := by
    have hfront : s.tls_tx_buf.take (min s.tls_tx_len TLS_MSS) =
        s.stack_now.tls_tx_buf.take (min s.tls_tx_len TLS_MSS) := by
      rw [hqueue, List.take_take, Nat.min_eq_left hn]
    rw [hfront, ← List.append_assoc, List.take_append_drop, hqueue, List.take_append_drop]
  have hrest : (s.stack_now.tls_tx_buf.drop (min s.tls_tx_len TLS_MSS)).length =
      s.tls_tx_len - min s.tls_tx_len TLS_MSS := by
    rw [List.length_drop, hlength]
  have htake : (s.tls_tx_buf.take (min s.tls_tx_len TLS_MSS)).length = min s.tls_tx_len TLS_MSS := by
    rw [List.length_take]
    omega
  have hmove := copy_within?_front (s.tls_tx_buf.take (min s.tls_tx_len TLS_MSS))
    (s.stack_now.tls_tx_buf.drop (min s.tls_tx_len TLS_MSS)) (s.tls_tx_buf.drop s.tls_tx_len)
  rw [← hsplit, htake, hrest, Nat.add_sub_cancel' hn] at hmove
  refine ⟨s.stack_now.tls_tx_buf.drop (min s.tls_tx_len TLS_MSS) ++
    s.tls_tx_buf.drop (s.tls_tx_len - min s.tls_tx_len TLS_MSS), ?_, List.take_left' hrest, ?_⟩
  · rw [List.length_append, hrest, List.length_drop]
    omega
  · unfold TxQueue.flush_round
    dsimp only
    rw [if_pos hpos, hpayload]
    dsimp only [Option.bind_eq_bind, Option.bind_some]
    have hpacket : build_tcp_ack_psh env.our_mac s.stack.gw_mac s.stack.addrs s.stack.remote_ip LOCAL_PORT
        s.stack.remote_port s.stack.tcp_seq s.stack.tcp_ack
        (s.stack_now.tls_tx_buf.take (min s.stack_now.tls_tx_buf.length TLS_MSS)) (s.stack.ip_id + 1)
        env.scratch_len = s.stack_now.tls_packet env := rfl
    rw [hpacket]
    generalize s.stack_now.tls_packet env = pkt
    by_cases hnil : pkt = []
    · rw [if_pos hnil, if_pos hnil]
      rfl
    · rw [if_neg hnil, if_neg hnil]
      rcases vio.transmit pkt with ⟨_ | _, vio'⟩
      · rfl
      · dsimp only
        rw [Bool.not_true, if_neg Bool.false_ne_true, if_pos rfl, hmove]
        rfl

/-- **The flush in the buffer is the flush of the list**, and it ends. -/
theorem flush_loop_refines {rounds fuel : Nat} {s : TxQueue} (vio : AnyNic) (h : s.Fits)
    (hrounds : s.tls_tx_len < rounds) (hfuel : s.tls_tx_len ≤ fuel) :
    Returns (loop (TxQueue.flush_round env) rounds (s, vio)) fun r =>
      r.1.Fits ∧ r.1.stack_now = (s.stack_now.tls_tx_flush_loop env fuel vio).1 ∧
        r.2 = (s.stack_now.tls_tx_flush_loop env fuel vio).2 := by
  induction rounds generalizing fuel s vio with
  | zero => omega
  | succ rounds ih =>
    have hlength : s.stack_now.tls_tx_buf.length = s.tls_tx_len := by
      rw [TxQueue.stack_now, List.length_take, h.cap]
      have hlen := h.len
      omega
    rw [loop]
    by_cases hempty : s.tls_tx_len = 0
    · have hstop : s.stack_now.tls_tx_flush_loop env fuel vio = (s.stack_now, vio) := by
        have hnil : s.stack_now.tls_tx_buf = [] := List.length_eq_zero_iff.mp (by omega)
        cases fuel with
        | zero => rfl
        | succ fuel => rw [NetStack.tls_tx_flush_loop, if_pos hnil]
      rw [TxQueue.flush_round, if_neg (by omega), hstop]
      exact .ret ⟨h, rfl, rfl⟩
    · obtain ⟨fuel, rfl⟩ : ∃ k, fuel = k + 1 := ⟨fuel - 1, by omega⟩
      have hne : s.stack_now.tls_tx_buf ≠ [] := fun hnil => hempty (by rw [← hlength, hnil]; rfl)
      have hmss : 0 < TLS_MSS := by decide
      obtain ⟨buf, hcap, hleft, hround⟩ := flush_round_eq env vio h (Nat.pos_of_ne_zero hempty)
      rw [tls_tx_flush_loop_succ env fuel _ vio hne, hround, hlength]
      by_cases hnil : s.stack_now.tls_packet env = []
      · rw [if_pos hnil, if_pos hnil]
        exact .ret ⟨⟨h.cap, h.len⟩, rfl, rfl⟩
      rw [if_neg hnil, if_neg hnil]
      by_cases hok : (vio.transmit (s.stack_now.tls_packet env)).1 = true
      · rw [if_pos hok, if_pos hok, ← hleft]
        refine ih _ ⟨hcap, ?_⟩ ?_ ?_
        · have hlen := h.len
          dsimp only
          omega
        · dsimp only
          omega
        · dsimp only
          omega
      · rw [if_neg hok, if_neg hok]
        exact .ret ⟨⟨h.cap, h.len⟩, rfl, rfl⟩

end Flush

/-! ## Runs -/

section Runs

variable (env : Env) {s : TxQueue}

theorem fits_start (stack : NetStack) (buf : Vector UInt8 TLS_TX_CAP) : (TxQueue.start stack buf).Fits :=
  ⟨Vector.length_toList, Nat.zero_le _⟩

/-- **An append** is taken as a whole, behind what is queued, or not at all. -/
theorem tls_cipher_tx_append_returns (h : s.Fits) (data : Bytes) :
    Returns (s.tls_cipher_tx_append data) fun r =>
      r.1.Fits ∧ r.1.stack = s.stack ∧
        r.1.stack_now.tls_tx_buf = s.stack_now.tls_tx_buf ++ (if r.2 = true then data else []) := by
  obtain ⟨hcap, hle⟩ := h
  unfold TxQueue.tls_cipher_tx_append
  by_cases hfull : s.tls_tx_buf.length < saturating_add s.tls_tx_len data.length
  · rw [if_pos hfull]
    exact .ret ⟨⟨hcap, hle⟩, rfl, by simp⟩
  rw [if_neg hfull]
  have hsmall : TLS_TX_CAP < USIZE_MAX := by decide
  have hroom : s.tls_tx_len + data.length ≤ s.tls_tx_buf.length := by
    rw [hcap] at hfull ⊢
    unfold saturating_add at hfull
    omega
  have hwrite : write? s.tls_tx_buf s.tls_tx_len data =
      some (s.tls_tx_buf.take s.tls_tx_len ++ (data ++ s.tls_tx_buf.drop (s.tls_tx_len + data.length))) :=
    if_pos hroom
  have hfront : (s.tls_tx_buf.take s.tls_tx_len).length = s.tls_tx_len := by
    rw [List.length_take]
    omega
  rw [hwrite]
  refine .ret ⟨⟨?_, ?_⟩, rfl, ?_⟩
  · simp only [List.length_append, List.length_drop, hfront]
    omega
  · dsimp only
    omega
  · rw [if_pos rfl]
    have hlen : (s.tls_tx_buf.take s.tls_tx_len ++ data).length = s.tls_tx_len + data.length := by
      rw [List.length_append, hfront]
    unfold TxQueue.stack_now
    dsimp only
    rw [← List.append_assoc, List.take_left' hlen]

/-- What one call does: what went out and what is queued is what was queued and what was
accepted. -/
theorem tx_step_returns (h : s.Fits) (vio : AnyNic) (c : TxCall) :
    Returns (TxQueue.step env (s, vio) c) fun r =>
      r.1.1.Fits ∧ ∃ data,
        data ++ r.1.1.stack_now.tls_tx_buf = s.stack_now.tls_tx_buf ++ tx_accepted [c] [r.2] ∧
          Carries s.stack.tcp_seq vio data r.1.2 r.1.1.stack.tcp_seq := by
  cases c with
  | append data =>
    refine (tls_cipher_tx_append_returns h data).bind ?_
    rintro ⟨t, ok⟩ ⟨ht, hstack, hbuf⟩
    refine .ret ⟨ht, [], ?_, ?_⟩
    · rw [List.nil_append, hbuf]
      cases ok <;> simp [tx_accepted]
    · dsimp only at hstack ⊢
      rw [hstack]
      exact .none _ _
  | flush =>
    obtain ⟨data, hdata, hcarries⟩ := tls_tx_flush_loop_carries env s.tls_tx_len s.stack_now vio
    refine Returns.bind (P := fun r => r.1.Fits ∧ ∃ data,
      data ++ r.1.stack_now.tls_tx_buf = s.stack_now.tls_tx_buf ∧
        Carries s.stack.tcp_seq vio data r.2 r.1.stack.tcp_seq) ?_ ?_
    · refine (flush_loop_refines env vio h (Nat.lt_succ_self _) (Nat.le_refl _)).bind ?_
      rintro ⟨t, vio'⟩ ⟨ht, hnow, hvio⟩
      refine .ret ⟨⟨ht.cap, ht.len⟩, data, ?_, ?_⟩
      · rw [← hdata, ← hnow]
        rfl
      · rw [← hnow, ← hvio] at hcarries
        exact hcarries
    · rintro r ⟨hr, data, hdata, hcarries⟩
      refine .ret ⟨hr, data, ?_, hcarries⟩
      rw [hdata]
      exact (List.append_nil _).symm

theorem tx_accepted_cons (c : TxCall) (cs : List TxCall) (ok : Bool) (oks : List Bool) :
    tx_accepted (c :: cs) (ok :: oks) = tx_accepted [c] [ok] ++ tx_accepted cs oks := by
  rcases c with data | _ <;> cases ok <;> simp [tx_accepted]

/-- **What a run does.** -/
theorem tx_run_returns (h : s.Fits) (vio : AnyNic) (cs : List TxCall) :
    Returns (answers (TxQueue.step env) (s, vio) cs) fun r =>
      r.1.1.Fits ∧ ∃ data,
        data ++ r.1.1.stack_now.tls_tx_buf = s.stack_now.tls_tx_buf ++ tx_accepted cs r.2 ∧
          Carries s.stack.tcp_seq vio data r.1.2 r.1.1.stack.tcp_seq := by
  induction cs generalizing s vio with
  | nil => exact .ret ⟨h, [], (List.append_nil _).symm, .none _ _⟩
  | cons c cs ih =>
    refine (tx_step_returns env h vio c).bind ?_
    rintro ⟨⟨t, vio'⟩, ok⟩ ⟨ht, data, hdata, hcarries⟩
    refine (ih ht vio').bind ?_
    rintro ⟨⟨u, vio''⟩, oks⟩ ⟨hu, data', hdata', hcarries'⟩
    refine .ret ⟨hu, data ++ data', ?_, hcarries.trans hcarries'⟩
    rw [List.append_assoc, tx_accepted_cons]
    dsimp only at hdata hdata' ⊢
    rw [hdata', ← List.append_assoc, hdata, List.append_assoc]

end Runs

/-- **In every run** every call returns, so every flush ends. The payloads that were transmitted
and what is queued are what was accepted; the segments that went out hold between one
and `TLS_MSS` bytes, and those that were transmitted follow each other from the sequence number
of the connection. -/
theorem tls_transmit_in_order (env : Env) (stack : NetStack) (buf : Vector UInt8 TLS_TX_CAP) (vio : AnyNic)
    (calls : List TxCall) :
    ∃ s vio' oks new, answers (TxQueue.step env) (.start stack buf, vio) calls = some ((s, vio'), oks) ∧
      vio'.sent = vio.sent ++ new ∧
      (transmitted new).flatMap tcp_packet_payload ++ s.tls_tx_buf.take s.tls_tx_len = tx_accepted calls oks ∧
      (∀ e ∈ new, is_tcp_packet e.1 = true ∧ 1 ≤ (tcp_packet_payload e.1).length ∧
        (tcp_packet_payload e.1).length ≤ 1400) ∧
      (transmitted new).IsChain (fun p p' =>
        tcp_packet_seq p' = tcp_packet_seq p + UInt32.ofNat (tcp_packet_payload p).length) ∧
      ∀ p ∈ (transmitted new).head?, tcp_packet_seq p = stack.tcp_seq := by
  obtain ⟨⟨⟨s, vio'⟩, oks⟩, hrun, -, data, hall, new, hsent, hseq, hseg, hdata⟩ :=
    tx_run_returns env (fits_start stack buf) vio calls
  obtain ⟨hchain, hhead⟩ := transmitted_in_step hseq fun e he => (hseg e he).1
  refine ⟨s, vio', oks, new, hrun, hsent, ?_, hseg, hchain, hhead⟩
  rw [hdata]
  exact hall

end EveOS.Net
