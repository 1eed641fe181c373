/-
The rings of `kernel/src/pcnet.rs`.

Eight receive and four transmit descriptors, each with an `OWN` bit: a descriptor with
the bit set is the NIC's. The NIC goes through either ring in its own order and stops at
a descriptor that is not its own; so does the driver, the other way round. The length of
a buffer is kept in two's complement.
-/
import EveOS.Lib.Bytes
import EveOS.Lib.Handover

set_option autoImplicit false

namespace EveOS.Nic.Pcnet

def TMD_OWN : UInt16 := 0x8000
def TMD_STP : UInt16 := 0x0200
def TMD_ENP : UInt16 := 0x0100
def RMD_OWN : UInt16 := 0x8000
def NUM_RX : Nat := 8
def NUM_TX : Nat := 4
def PKT_MAX : Nat := 1544
def USIZE : Nat := 2 ^ 64

structure Rmd where
  buf_length : UInt16
  status : UInt16
  msg_length : UInt32

structure Tmd where
  length : UInt16
  status : UInt16

/-- The pages the two parties share, and the driver's indices. -/
structure Rings where
  rmd : Nat → Rmd
  tmd : Nat → Tmd
  rx : Nat → Bytes
  tx : Nat → Bytes
  rx_i : Nat
  tx_i : Nat

/-- `0xf000 | ((-len as u16) & 0x0fff)`: a length as the NIC wants it. -/
def byte_count (len : Nat) : UInt16 := 0xf000 ||| ((0 - UInt16.ofNat len) &&& 0x0fff)

/-- The rings behind `probe`. -/
def probe : Rings where
  rmd := fun _ => ⟨byte_count PKT_MAX, RMD_OWN, 0⟩
  tmd := fun _ => ⟨0, 0⟩
  rx := fun _ => List.replicate PKT_MAX 0
  tx := fun _ => List.replicate PKT_MAX 0
  rx_i := 0
  tx_i := 0

/-- `poll_rx_packet` with a buffer of `out_len` bytes. -/
def Rings.poll_rx_packet (p : Rings) (out_len : Nat) : Rings × Option Bytes :=
  let i := p.rx_i % NUM_RX
  let st := (p.rmd i).status
  if st &&& RMD_OWN ≠ 0 then (p, none)
  else
    let err := st &&& 0x0400
    let n := ((p.rmd i).msg_length &&& 0xfff).toNat
    let take := min (min n out_len) PKT_MAX
    let packet := (p.rx i).take take
    let p := { p with
      rmd := Function.update p.rmd i ⟨byte_count PKT_MAX, RMD_OWN, 0⟩
      rx_i := (p.rx_i + 1) % USIZE }
    if err ≠ 0 ∨ n = 0 then (p, none) else (p, some packet)

/-- `transmit`. -/
def Rings.transmit (p : Rings) (pkt : Bytes) : Rings × Bool :=
  if pkt = [] ∨ PKT_MAX < pkt.length then (p, false)
  else
    let i := p.tx_i % NUM_TX
    let st := (p.tmd i).status
    if st &&& TMD_OWN ≠ 0 then (p, false)
    else
      ({ p with
        tx := Function.update p.tx i (pkt ++ (p.tx i).drop pkt.length)
        tmd := Function.update p.tmd i ⟨byte_count pkt.length, TMD_OWN ||| TMD_STP ||| TMD_ENP⟩
        tx_i := (p.tx_i + 1) % USIZE }, true)

/-! ## The NIC -/

/-- What the NIC writes back for a frame: the status without `OWN`, the length and the bytes. -/
structure Received where
  status : UInt16
  msg_length : UInt32
  data : Bytes
  deriving DecidableEq

/-- A frame the NIC may store: it fits the buffer, and its length is in the descriptor. -/
def Received.Ok (r : Received) : Prop :=
  r.status &&& RMD_OWN = 0 ∧ (r.msg_length &&& 0xfff).toNat = r.data.length ∧ r.data.length ≤ PKT_MAX

/-- The frame the driver makes of it, if it is any. -/
def Received.frame (r : Received) : Option Bytes :=
  if r.status &&& 0x0400 ≠ 0 ∨ r.data = [] then none else some r.data

/-- The number of bytes in a length the NIC is given. -/
def bytes_counted (length : UInt16) : Nat := 4096 - (length &&& 0x0fff).toNat

/-- The driver's side and the NIC's two positions, with what went through the rings. -/
structure World where
  pcnet : Rings
  nic_rx : Nat
  nic_tx : Nat
  /-- what was stored, and what a poll took -/
  rx : Traffic Received
  /-- the frames that polls returned -/
  returned : List Bytes
  /-- what `transmit` took, and what was sent -/
  tx : Traffic Bytes

namespace World

variable (w : World)

/-- The NIC stores a frame, or drops it where the descriptor is not its own. -/
def store (r : Received) : World :=
  if (w.pcnet.rmd w.nic_rx).status &&& RMD_OWN = 0 then w
  else
    { w with
      pcnet := { w.pcnet with
        rmd := Function.update w.pcnet.rmd w.nic_rx
          ⟨(w.pcnet.rmd w.nic_rx).buf_length, r.status, r.msg_length⟩
        rx := Function.update w.pcnet.rx w.nic_rx
          (r.data ++ (w.pcnet.rx w.nic_rx).drop r.data.length) }
      nic_rx := (w.nic_rx + 1) % NUM_RX
      rx := ⟨w.rx.put ++ [r], w.rx.got⟩ }

/-- What is in a descriptor that is the driver's. -/
def waiting (i : Nat) : Option Received :=
  let d := w.pcnet.rmd i
  if d.status &&& RMD_OWN ≠ 0 then none
  else some ⟨d.status, d.msg_length, (w.pcnet.rx i).take (d.msg_length &&& 0xfff).toNat⟩

def poll (out_len : Nat) : World :=
  let r := w.pcnet.poll_rx_packet out_len
  { w with
    pcnet := r.1
    rx := ⟨w.rx.put, w.rx.got ++ (w.waiting (w.pcnet.rx_i % NUM_RX)).toList⟩
    returned := w.returned ++ r.2.toList }

def transmit (pkt : Bytes) : World :=
  let r := w.pcnet.transmit pkt
  { w with
    pcnet := r.1
    tx := if r.2 then ⟨w.tx.put ++ [pkt], w.tx.got⟩ else w.tx }

/-- What is in a descriptor that is the NIC's. -/
def flying (i : Nat) : Option Bytes :=
  let d := w.pcnet.tmd i
  if d.status &&& TMD_OWN = 0 then none
  else some ((w.pcnet.tx i).take (bytes_counted d.length))

/-- The NIC sends the next packet, and gives its descriptor back. -/
def send : World :=
  match w.flying w.nic_tx with
  | none => w
  | some pkt =>
    { w with
      pcnet := { w.pcnet with
        tmd := Function.update w.pcnet.tmd w.nic_tx ⟨(w.pcnet.tmd w.nic_tx).length, 0⟩ }
      nic_tx := (w.nic_tx + 1) % NUM_TX
      tx := ⟨w.tx.put, w.tx.got ++ [pkt]⟩ }

end World

inductive Event
  | store (r : Received)
  | poll (out_len : Nat)
  | transmit (pkt : Bytes)
  | send

/-- Frames that fit, and buffers they fit into. -/
def Event.Ok : Event → Prop
  | .store r => r.Ok
  | .poll out_len => PKT_MAX ≤ out_len
  | _ => True

def World.step (w : World) : Event → World
  | .store r => w.store r
  | .poll out_len => w.poll out_len
  | .transmit pkt => w.transmit pkt
  | .send => w.send

def World.start : World := ⟨probe, 0, 0, ⟨[], []⟩, [], ⟨[], []⟩⟩

/-! ## The rings as queues -/

/-- The receive ring: the NIC fills, the driver drains. -/
def World.rx_line (w : World) : Line Received :=
  ⟨⟨w.waiting, w.nic_rx, w.pcnet.rx_i % NUM_RX⟩, w.rx⟩

/-- The transmit ring: the driver fills, the NIC drains. -/
def World.tx_line (w : World) : Line Bytes :=
  ⟨⟨w.flying, w.pcnet.tx_i % NUM_TX, w.nic_tx⟩, w.tx⟩

/-- A length that is written and read again. -/
theorem bytes_counted_byte_count {len : Nat} (hpos : 0 < len) (hle : len ≤ PKT_MAX) :
    bytes_counted (byte_count len) = len := by
  unfold PKT_MAX at hle
  have hmask : ∀ n : Nat, n &&& 4095 = n % 4096 := fun n => Nat.and_two_pow_sub_one_eq_mod n 12
  have hlow : (byte_count len &&& 0x0fff).toNat = 4096 - len := by
    unfold byte_count
    rw [UInt16.toNat_and, UInt16.toNat_or, UInt16.toNat_and]
    show (61440 ||| ((0 - UInt16.ofNat len).toNat &&& 4095)) &&& 4095 = _
    rw [hmask, hmask, show 4096 = 2 ^ 12 from rfl, Nat.or_mod_two_pow, UInt16.toNat_sub,
      UInt16.toNat_ofNat_of_lt' (show len < 65536 by omega)]
    show 0 ||| (65536 - len + 0) % 65536 % 4096 % 4096 = _
    rw [Nat.zero_or]
    omega
  unfold bytes_counted
  rw [hlow]
  omega

section Steps

variable (w : World)

/-- A slot of the receive ring behind a change of its descriptor. -/
theorem waiting_update (i : Nat) (d : Rmd) (rx : Nat → Bytes) (hrx : ∀ j ≠ i, rx j = w.pcnet.rx j)
    (rx_i : Nat) :
    World.waiting { w with pcnet := { w.pcnet with rmd := Function.update w.pcnet.rmd i d, rx := rx, rx_i := rx_i } }
      = Function.update w.waiting i (if d.status &&& RMD_OWN ≠ 0 then none
          else some ⟨d.status, d.msg_length, (rx i).take (d.msg_length &&& 0xfff).toNat⟩) := by
  funext j
  unfold World.waiting
  dsimp only
  by_cases hj : j = i
  · rw [hj, Function.update_self, Function.update_self]
  · rw [Function.update_of_ne hj, Function.update_of_ne hj, hrx j hj]

/-- A slot of the transmit ring behind a change of its descriptor. -/
theorem flying_update (i : Nat) (d : Tmd) (tx : Nat → Bytes) (htx : ∀ j ≠ i, tx j = w.pcnet.tx j)
    (tx_i : Nat) :
    World.flying { w with pcnet := { w.pcnet with tmd := Function.update w.pcnet.tmd i d, tx := tx, tx_i := tx_i } }
      = Function.update w.flying i (if d.status &&& TMD_OWN = 0 then none
          else some ((tx i).take (bytes_counted d.length))) := by
  funext j
  unfold World.flying
  dsimp only
  by_cases hj : j = i
  · rw [hj, Function.update_self, Function.update_self]
  · rw [Function.update_of_ne hj, Function.update_of_ne hj, htx j hj]

/-- **The NIC fills the receive ring**, and leaves the other one alone. -/
theorem store_eq {r : Received} (hr : r.Ok) :
    (w.store r).rx_line = w.rx_line.fill NUM_RX r ∧ (w.store r).tx_line = w.tx_line := by
  obtain ⟨hown, hlen, -⟩ := hr
  unfold World.store
  by_cases hfree : (w.pcnet.rmd w.nic_rx).status &&& RMD_OWN = 0
  · have hsome : w.waiting w.nic_rx = some _ := if_neg (not_not_intro hfree)
    rw [if_pos hfree, Line.fill_busy w.rx_line r hsome]
    exact ⟨rfl, rfl⟩
  · have hnone : w.waiting w.nic_rx = none := if_pos hfree
    rw [if_neg hfree, Line.fill_free w.rx_line r hnone]
    refine ⟨?_, rfl⟩
    unfold World.rx_line
    dsimp only
    have hupd := waiting_update w w.nic_rx ⟨(w.pcnet.rmd w.nic_rx).buf_length, r.status, r.msg_length⟩
      (Function.update w.pcnet.rx w.nic_rx (r.data ++ (w.pcnet.rx w.nic_rx).drop r.data.length))
      (fun j hj => Function.update_of_ne hj _ _) w.pcnet.rx_i
    dsimp only at hupd
    rw [if_neg (not_not_intro hown), Function.update_self, hlen, List.take_left] at hupd
    congr 2

/-- What a poll does to the ring. -/
theorem poll_rx_packet_fst (p : Rings) (out_len : Nat) :
    (p.poll_rx_packet out_len).1 =
      if (p.rmd (p.rx_i % NUM_RX)).status &&& RMD_OWN ≠ 0 then p
      else { p with
        rmd := Function.update p.rmd (p.rx_i % NUM_RX) ⟨byte_count PKT_MAX, RMD_OWN, 0⟩
        rx_i := (p.rx_i + 1) % USIZE } := by
  unfold Rings.poll_rx_packet
  dsimp only
  split_ifs <;> rfl

/-- The driver's index, taken modulo the ring, goes round with it. -/
theorem next_rx (i : Nat) : (i + 1) % USIZE % NUM_RX = (i % NUM_RX + 1) % NUM_RX := by
  unfold USIZE NUM_RX
  omega

theorem next_tx (i : Nat) : (i + 1) % USIZE % NUM_TX = (i % NUM_TX + 1) % NUM_TX := by
  unfold USIZE NUM_TX
  omega

/-- **The driver drains the receive ring.** -/
theorem poll_eq (out_len : Nat) :
    (w.poll out_len).rx_line = w.rx_line.drain NUM_RX ∧ (w.poll out_len).tx_line = w.tx_line := by
  have hfst := poll_rx_packet_fst w.pcnet out_len
  unfold World.poll
  dsimp only
  rw [hfst]
  by_cases hown : (w.pcnet.rmd (w.pcnet.rx_i % NUM_RX)).status &&& RMD_OWN ≠ 0
  · have hnone : w.waiting (w.pcnet.rx_i % NUM_RX) = none := if_pos hown
    rw [if_pos hown, hnone, Option.toList_none, List.append_nil, Line.drain_empty w.rx_line hnone]
    exact ⟨rfl, rfl⟩
  · obtain ⟨r, hr⟩ : ∃ r, w.waiting (w.pcnet.rx_i % NUM_RX) = some r := ⟨_, if_neg hown⟩
    rw [if_neg hown, hr, Line.drain_front w.rx_line hr]
    refine ⟨?_, rfl⟩
    unfold World.rx_line
    dsimp only
    have hupd := waiting_update w (w.pcnet.rx_i % NUM_RX) ⟨byte_count PKT_MAX, RMD_OWN, 0⟩ w.pcnet.rx
      (fun _ _ => rfl) ((w.pcnet.rx_i + 1) % USIZE)
    rw [if_pos (show RMD_OWN &&& RMD_OWN ≠ 0 by decide)] at hupd
    rw [next_rx]
    congr 2

/-- **The driver fills the transmit ring.** -/
theorem transmit_eq (pkt : Bytes) :
    (w.transmit pkt).rx_line = w.rx_line ∧ (w.transmit pkt).tx_line
      = if pkt = [] ∨ PKT_MAX < pkt.length then w.tx_line else w.tx_line.fill NUM_TX pkt := by
  unfold World.transmit Rings.transmit
  dsimp only
  by_cases hsize : pkt = [] ∨ PKT_MAX < pkt.length
  · rw [if_pos hsize, if_pos hsize]
    exact ⟨rfl, rfl⟩
  rw [if_neg hsize, if_neg hsize]
  rw [not_or, Nat.not_lt] at hsize
  by_cases hown : (w.pcnet.tmd (w.pcnet.tx_i % NUM_TX)).status &&& TMD_OWN ≠ 0
  · have hsome : w.flying (w.pcnet.tx_i % NUM_TX) = some _ := if_neg hown
    rw [if_pos hown, Line.fill_busy w.tx_line pkt hsome]
    exact ⟨rfl, rfl⟩
  · have hnone : w.flying (w.pcnet.tx_i % NUM_TX) = none := if_pos (not_not.mp hown)
    rw [if_neg hown, Line.fill_free w.tx_line pkt hnone]
    refine ⟨rfl, ?_⟩
    unfold World.tx_line
    dsimp only
    have hupd := flying_update w (w.pcnet.tx_i % NUM_TX)
      ⟨byte_count pkt.length, TMD_OWN ||| TMD_STP ||| TMD_ENP⟩
      (Function.update w.pcnet.tx (w.pcnet.tx_i % NUM_TX)
        (pkt ++ (w.pcnet.tx (w.pcnet.tx_i % NUM_TX)).drop pkt.length))
      (fun j hj => Function.update_of_ne hj _ _) ((w.pcnet.tx_i + 1) % USIZE)
    dsimp only at hupd
    rw [if_neg (show ¬ (TMD_OWN ||| TMD_STP ||| TMD_ENP) &&& TMD_OWN = 0 by decide),
      Function.update_self,
      bytes_counted_byte_count (List.length_pos_iff.mpr hsize.1) hsize.2, List.take_left] at hupd
    rw [next_tx]
    congr 2

/-- **The NIC drains the transmit ring.** -/
theorem send_eq : w.send.rx_line = w.rx_line ∧ w.send.tx_line = w.tx_line.drain NUM_TX := by
  unfold World.send
  cases hfly : w.flying w.nic_tx with
  | none => exact ⟨rfl, (Line.drain_empty w.tx_line hfly).symm⟩
  | some pkt =>
    rw [Line.drain_front w.tx_line hfly]
    refine ⟨rfl, ?_⟩
    unfold World.tx_line
    dsimp only
    have hupd := flying_update w w.nic_tx ⟨(w.pcnet.tmd w.nic_tx).length, 0⟩ w.pcnet.tx
      (fun _ _ => rfl) w.pcnet.tx_i
    rw [if_pos (show (0 : UInt16) &&& TMD_OWN = 0 by decide)] at hupd
    congr 2

/-- What a poll returns of the descriptor it reads. -/
theorem poll_rx_packet_snd {out_len : Nat} (hout : PKT_MAX ≤ out_len)
    (hok : ∀ r ∈ w.waiting (w.pcnet.rx_i % NUM_RX), r.Ok) :
    (w.pcnet.poll_rx_packet out_len).2 = (w.waiting (w.pcnet.rx_i % NUM_RX)).bind Received.frame := by
  unfold World.waiting at hok ⊢
  unfold Rings.poll_rx_packet
  dsimp only at hok ⊢
  by_cases hown : (w.pcnet.rmd (w.pcnet.rx_i % NUM_RX)).status &&& RMD_OWN ≠ 0
  · rw [if_pos hown, if_pos hown]
    rfl
  rw [if_neg hown] at hok ⊢
  rw [if_neg hown]
  obtain ⟨-, hlen, hmax⟩ := hok _ rfl
  dsimp only at hlen hmax
  rw [← hlen] at hmax
  -- the buffers are long enough, so the length is the length of the frame
  have htake : ∀ n, n ≤ PKT_MAX → min (min n out_len) PKT_MAX = n := by
    intro n hn
    omega
  rw [htake _ hmax]
  unfold Received.frame
  rw [Option.bind_some]
  dsimp only
  have hempty : (w.pcnet.rx (w.pcnet.rx_i % NUM_RX)).take
      ((w.pcnet.rmd (w.pcnet.rx_i % NUM_RX)).msg_length &&& 0xfff).toNat = []
      ↔ ((w.pcnet.rmd (w.pcnet.rx_i % NUM_RX)).msg_length &&& 0xfff).toNat = 0 := by
    rw [← List.length_eq_zero_iff, ← hlen]
  simp only [hempty]
  split_ifs <;> rfl

end Steps

/-! ## Runs -/

/-- What both rings carry: `q` waits to be polled, `f` waits to be sent. -/
structure Inv (w : World) (q : List Received) (f : List Bytes) : Prop where
  rx : w.rx_line.Carries NUM_RX q
  tx : w.tx_line.Carries NUM_TX f
  oks : ∀ r ∈ q, r.Ok
  returned : w.returned = w.rx.got.filterMap Received.frame

theorem nothing_waits (i : Nat) : World.start.waiting i = none :=
  if_pos (show RMD_OWN &&& RMD_OWN ≠ 0 by decide)

theorem nothing_flies (i : Nat) : World.start.flying i = none :=
  if_pos (show (0 : UInt16) &&& TMD_OWN = 0 by decide)

theorem inv_start : Inv .start [] [] where
  rx := Line.carries_start (show 0 < NUM_RX by decide) nothing_waits
  tx := Line.carries_start (show 0 < NUM_TX by decide) nothing_flies
  oks := nofun
  returned := rfl

variable {w : World} {q : List Received} {f : List Bytes}

/-- The descriptor that is polled next holds the front of the queue. -/
theorem Inv.waiting_eq (h : Inv w q f) : w.waiting (w.pcnet.rx_i % NUM_RX) = q.head? := h.rx.holds.head

theorem Inv.polled_ok (h : Inv w q f) : ∀ r ∈ w.waiting (w.pcnet.rx_i % NUM_RX), r.Ok := by
  intro r hr
  rw [h.waiting_eq] at hr
  exact h.oks r (List.mem_of_mem_head? hr)

theorem step_keeps (h : Inv w q f) {e : Event} (he : e.Ok) : ∃ q' f', Inv (w.step e) q' f' := by
  cases e with
  | store r =>
    obtain ⟨hrx, htx⟩ := store_eq w he
    refine ⟨if q.length < NUM_RX then q ++ [r] else q, f, ?_, ?_, ?_, ?_⟩
    · show (w.store r).rx_line.Carries NUM_RX _
      rw [hrx]
      exact h.rx.fill r
    · show (w.store r).tx_line.Carries NUM_TX f
      rw [htx]
      exact h.tx
    · intro r' hr'
      split_ifs at hr' with hroom
      · rcases List.mem_append.mp hr' with hold | hnew
        · exact h.oks r' hold
        · rw [List.mem_singleton.mp hnew]
          exact he
      · exact h.oks r' hr'
    · show (w.store r).returned = (w.store r).rx.got.filterMap Received.frame
      unfold World.store
      split_ifs
      · exact h.returned
      · exact h.returned
  | poll out_len =>
    obtain ⟨hrx, htx⟩ := poll_eq w out_len
    refine ⟨q.tail, f, ?_, ?_, ?_, ?_⟩
    · show (w.poll out_len).rx_line.Carries NUM_RX q.tail
      rw [hrx]
      exact h.rx.drain
    · show (w.poll out_len).tx_line.Carries NUM_TX f
      rw [htx]
      exact h.tx
    · intro r hr
      exact h.oks r (List.mem_of_mem_tail hr)
    · show w.returned ++ (w.pcnet.poll_rx_packet out_len).2.toList
        = (w.rx.got ++ (w.waiting (w.pcnet.rx_i % NUM_RX)).toList).filterMap Received.frame
      rw [poll_rx_packet_snd w he h.polled_ok, h.returned, List.filterMap_append]
      cases w.waiting (w.pcnet.rx_i % NUM_RX) with
      | none => rfl
      | some r =>
        rw [Option.bind_some, Option.toList_some]
        cases hr : r.frame with
        | none => simp [hr]
        | some frame => simp [hr]
  | transmit pkt =>
    obtain ⟨hrx, htx⟩ := transmit_eq w pkt
    have hrest : (w.transmit pkt).rx_line.Carries NUM_RX q := by
      rw [hrx]
      exact h.rx
    by_cases hsize : pkt = [] ∨ PKT_MAX < pkt.length
    · rw [if_pos hsize] at htx
      refine ⟨q, f, hrest, ?_, h.oks, h.returned⟩
      show (w.transmit pkt).tx_line.Carries NUM_TX f
      rw [htx]
      exact h.tx
    · rw [if_neg hsize] at htx
      refine ⟨q, if f.length < NUM_TX then f ++ [pkt] else f, hrest, ?_, h.oks, h.returned⟩
      show (w.transmit pkt).tx_line.Carries NUM_TX _
      rw [htx]
      exact h.tx.fill pkt
  | send =>
    obtain ⟨hrx, htx⟩ := send_eq w
    refine ⟨q, f.tail, ?_, ?_, h.oks, ?_⟩
    · show w.send.rx_line.Carries NUM_RX q
      rw [hrx]
      exact h.rx
    · show w.send.tx_line.Carries NUM_TX f.tail
      rw [htx]
      exact h.tx.drain
    · show w.send.returned = w.send.rx.got.filterMap Received.frame
      unfold World.send
      cases w.flying w.nic_tx with
      | none => exact h.returned
      | some pkt => exact h.returned

theorem run_keeps {es : List Event} (hes : ∀ e ∈ es, e.Ok) (h : Inv w q f) :
    ∃ q' f', Inv (run World.step w es) q' f' := by
  induction es generalizing w q f with
  | nil => exact ⟨q, f, h⟩
  | cons e es ih =>
    obtain ⟨q', f', h'⟩ := step_keeps h (hes e List.mem_cons_self)
    exact ih (fun e' he' => hes e' (List.mem_cons_of_mem _ he')) h'

end EveOS.Nic.Pcnet
