/-
The rings of `kernel/src/rtl8168.rs`.

A descriptor is one control word: `OWN` says that it is the NIC's, `EOR` that the ring
ends with it, and the low bits count bytes. The NIC knows the size of a ring only from
`EOR`; so the driver has to put that bit back whenever it gives a descriptor away, and
nowhere else.
-/
import EveOS.Lib.Bytes
import EveOS.Lib.Handover

set_option autoImplicit false

namespace EveOS.Nic.Rtl8168

def OWN : UInt32 := 0x80000000
def EOR : UInt32 := 0x40000000
def FS : UInt32 := 0x20000000
def LS : UInt32 := 0x10000000
def NUM_RX : Nat := 64
def NUM_TX : Nat := 16
def RX_PKT : Nat := 0x1FF8
def TX_PKT : Nat := 7552
def USIZE : Nat := 2 ^ 64

/-- The pages the two parties share, and the driver's indices. -/
structure Rings where
  rx_ring : Nat → UInt32
  tx_ring : Nat → UInt32
  rx_buf : Nat → Bytes
  tx_buf : Nat → Bytes
  rx_i : Nat
  tx_i : Nat

/-- The rings behind `try_init`. -/
def try_init : Rings where
  rx_ring := fun i =>
    if i = NUM_RX - 1 then OWN ||| UInt32.ofNat RX_PKT ||| EOR else OWN ||| UInt32.ofNat RX_PKT
  tx_ring := fun i => if i = NUM_TX - 1 then 0 ||| EOR else 0
  rx_buf := fun _ => List.replicate RX_PKT 0
  tx_buf := fun _ => List.replicate TX_PKT 0
  rx_i := 0
  tx_i := 0

/-- `poll_rx_packet` with a buffer of `out_len` bytes. -/
def Rings.poll_rx_packet (p : Rings) (out_len : Nat) : Rings × Option Bytes :=
  let i := p.rx_i % NUM_RX
  let ctrl := p.rx_ring i
  if ctrl &&& OWN ≠ 0 then (p, none)
  else
    let n := (ctrl &&& 0x3FFF).toNat
    let take := min (min n out_len) RX_PKT
    let packet := (p.rx_buf i).take take
    let eor := ctrl &&& EOR
    let p := { p with
      rx_ring := Function.update p.rx_ring i (OWN ||| eor ||| UInt32.ofNat RX_PKT)
      rx_i := (p.rx_i + 1) % USIZE }
    if n = 0 then (p, none) else (p, some packet)

/-- `transmit`. -/
def Rings.transmit (p : Rings) (pkt : Bytes) : Rings × Bool :=
  if pkt = [] ∨ TX_PKT < pkt.length then (p, false)
  else
    let i := p.tx_i % NUM_TX
    let c := p.tx_ring i
    if c &&& OWN ≠ 0 then (p, false)
    else
      let eor := c &&& EOR
      ({ p with
        tx_buf := Function.update p.tx_buf i (pkt ++ (p.tx_buf i).drop pkt.length)
        tx_ring := Function.update p.tx_ring i
          (OWN ||| eor ||| FS ||| LS ||| UInt32.ofNat pkt.length)
        tx_i := (p.tx_i + 1) % USIZE }, true)

/-! ## The NIC -/

/-- The descriptor behind `i`: the first one behind the mark. -/
def next (ring : Nat → UInt32) (i : Nat) : Nat := if ring i &&& EOR ≠ 0 then 0 else i + 1

/-- The driver's side and the NIC's two positions, with what went through the rings. -/
structure World where
  rings : Rings
  nic_rx : Nat
  nic_tx : Nat
  /-- the frames that were stored, and those that polls returned -/
  rx : Traffic Bytes
  /-- what `transmit` took, and what was sent -/
  tx : Traffic Bytes

namespace World

variable (w : World)

/-- The NIC stores a frame with its flags and length, and keeps the mark; it drops the frame
where the descriptor is not its own. -/
def store (flags : UInt32) (frame : Bytes) : World :=
  let ctrl := w.rings.rx_ring w.nic_rx
  if ctrl &&& OWN = 0 then w
  else
    { w with
      rings := { w.rings with
        rx_ring := Function.update w.rings.rx_ring w.nic_rx (flags ||| (ctrl &&& EOR))
        rx_buf := Function.update w.rings.rx_buf w.nic_rx
          (frame ++ (w.rings.rx_buf w.nic_rx).drop frame.length) }
      nic_rx := next w.rings.rx_ring w.nic_rx
      rx := ⟨w.rx.put ++ [frame], w.rx.got⟩ }

def poll (out_len : Nat) : World :=
  let r := w.rings.poll_rx_packet out_len
  { w with
    rings := r.1
    rx := ⟨w.rx.put, w.rx.got ++ r.2.toList⟩ }

def transmit (pkt : Bytes) : World :=
  let r := w.rings.transmit pkt
  { w with
    rings := r.1
    tx := if r.2 then ⟨w.tx.put ++ [pkt], w.tx.got⟩ else w.tx }

/-- What is in a descriptor of the receive ring that is the driver's. -/
def waiting (i : Nat) : Option Bytes :=
  let ctrl := w.rings.rx_ring i
  if ctrl &&& OWN ≠ 0 then none else some ((w.rings.rx_buf i).take (ctrl &&& 0x3FFF).toNat)

/-- What is in a descriptor of the transmit ring that is the NIC's. -/
def flying (i : Nat) : Option Bytes :=
  let ctrl := w.rings.tx_ring i
  if ctrl &&& OWN = 0 then none else some ((w.rings.tx_buf i).take (ctrl &&& 0xFFFF).toNat)

/-- The NIC sends the next packet and gives its descriptor back; of its word only the mark is
left. -/
def send : World :=
  match w.flying w.nic_tx with
  | none => w
  | some pkt =>
    { w with
      rings := { w.rings with
        tx_ring := Function.update w.rings.tx_ring w.nic_tx (w.rings.tx_ring w.nic_tx &&& EOR) }
      nic_tx := next w.rings.tx_ring w.nic_tx
      tx := ⟨w.tx.put, w.tx.got ++ [pkt]⟩ }

end World

inductive Event
  | store (flags : UInt32) (frame : Bytes)
  | poll (out_len : Nat)
  | transmit (pkt : Bytes)
  | send

/-- A frame with its length in the low bits of its flags, that fits its buffer; a buffer it fits
into. -/
def Event.Ok : Event → Prop
  | .store flags frame =>
    flags &&& OWN = 0 ∧ flags &&& EOR = 0 ∧ (flags &&& 0x3FFF).toNat = frame.length
      ∧ frame ≠ [] ∧ frame.length ≤ RX_PKT
  | .poll out_len => RX_PKT ≤ out_len
  | _ => True

def World.step (w : World) : Event → World
  | .store flags frame => w.store flags frame
  | .poll out_len => w.poll out_len
  | .transmit pkt => w.transmit pkt
  | .send => w.send

def World.start : World := ⟨try_init, 0, 0, ⟨[], []⟩, ⟨[], []⟩⟩

/-! ## The mark -/

/-- The ring ends with its last descriptor. -/
def EndsAt (N : Nat) (ring : Nat → UInt32) : Prop := ∀ i < N, ring i &&& EOR ≠ 0 ↔ i = N - 1

section Mark

variable {N i : Nat} {ring : Nat → UInt32} {ctrl : UInt32}

/-- A descriptor is given away with its own mark. -/
theorem EndsAt.update (h : EndsAt N ring) (hc : ctrl &&& EOR = ring i &&& EOR) :
    EndsAt N (Function.update ring i ctrl) := by
  intro j hj
  by_cases hji : j = i
  · rw [hji, Function.update_self, hc, ← hji]
    exact h j hj
  · rw [Function.update_of_ne hji]
    exact h j hj

/-- With the mark in its place the NIC goes round. -/
theorem EndsAt.next (h : EndsAt N ring) (hi : i < N) : next ring i = (i + 1) % N := by
  unfold Rtl8168.next
  by_cases hlast : i = N - 1
  · have hwrap : i + 1 = N := by omega
    rw [if_pos ((h i hi).mpr hlast), hwrap, Nat.mod_self]
  · rw [if_neg (fun hmark => hlast ((h i hi).mp hmark)), Nat.mod_eq_of_lt (by omega)]

end Mark

/-! ## Control words -/

theorem or_and (a b c : UInt32) : (a ||| b) &&& c = (a &&& c) ||| (b &&& c) := by
  apply UInt32.toBitVec_inj.mp
  exact BitVec.and_or_distrib_right

theorem mark_and_own (ctrl : UInt32) : ctrl &&& EOR &&& OWN = 0 := by
  rw [UInt32.and_assoc, show EOR &&& OWN = 0 by decide, UInt32.and_zero]

theorem mark_and_mark (ctrl : UInt32) : ctrl &&& EOR &&& EOR = ctrl &&& EOR := by
  rw [UInt32.and_assoc, UInt32.and_self]

/-- The word of a received frame. -/
theorem stored_word {flags : UInt32} (hown : flags &&& OWN = 0) (heor : flags &&& EOR = 0) (ctrl : UInt32) :
    (flags ||| (ctrl &&& EOR)) &&& OWN = 0 ∧ (flags ||| (ctrl &&& EOR)) &&& EOR = ctrl &&& EOR
      ∧ (flags ||| (ctrl &&& EOR)) &&& 0x3FFF = flags &&& 0x3FFF := by
  refine ⟨?_, ?_, ?_⟩
  · rw [or_and, hown, mark_and_own, UInt32.or_zero]
  · rw [or_and, heor, mark_and_mark, UInt32.zero_or]
  · rw [or_and, UInt32.and_assoc, show EOR &&& 0x3FFF = 0 by decide, UInt32.and_zero, UInt32.or_zero]

/-- The word of a descriptor that is given to the receiver. -/
theorem empty_word (ctrl : UInt32) :
    (OWN ||| (ctrl &&& EOR) ||| UInt32.ofNat RX_PKT) &&& OWN ≠ 0
      ∧ (OWN ||| (ctrl &&& EOR) ||| UInt32.ofNat RX_PKT) &&& EOR = ctrl &&& EOR := by
  refine ⟨?_, ?_⟩
  · rw [or_and, or_and, mark_and_own]
    decide
  · rw [or_and, or_and, mark_and_mark, show OWN &&& EOR = 0 by decide,
      show UInt32.ofNat RX_PKT &&& EOR = 0 by decide, UInt32.zero_or, UInt32.or_zero]

/-- A length has no other bits. -/
theorem length_bits {len : Nat} (hlen : len ≤ TX_PKT) :
    UInt32.ofNat len &&& 0xFFFF = UInt32.ofNat len := by
  unfold TX_PKT at hlen
  apply UInt32.toNat_inj.mp
  rw [UInt32.toNat_and, UInt32.toNat_ofNat_of_lt' (show len < 2 ^ 32 by omega)]
  exact (Nat.and_two_pow_sub_one_eq_mod len 16).trans (Nat.mod_eq_of_lt (by omega))

theorem length_and {len : Nat} (hlen : len ≤ TX_PKT) {bit : UInt32} (hbit : 0xFFFF &&& bit = 0) :
    UInt32.ofNat len &&& bit = 0 := by
  rw [← length_bits hlen, UInt32.and_assoc, hbit, UInt32.and_zero]

/-- The word of a packet. -/
theorem packet_word (ctrl : UInt32) {len : Nat} (hlen : len ≤ TX_PKT) :
    (OWN ||| (ctrl &&& EOR) ||| FS ||| LS ||| UInt32.ofNat len) &&& OWN ≠ 0
      ∧ (OWN ||| (ctrl &&& EOR) ||| FS ||| LS ||| UInt32.ofNat len) &&& EOR = ctrl &&& EOR
      ∧ ((OWN ||| (ctrl &&& EOR) ||| FS ||| LS ||| UInt32.ofNat len) &&& 0xFFFF).toNat = len := by
  refine ⟨?_, ?_, ?_⟩
  · simp only [or_and, mark_and_own, length_and hlen (show 0xFFFF &&& OWN = 0 by decide)]
    decide
  · simp only [or_and, mark_and_mark, length_and hlen (show 0xFFFF &&& EOR = 0 by decide),
      show OWN &&& EOR = 0 by decide, show FS &&& EOR = 0 by decide, show LS &&& EOR = 0 by decide,
      UInt32.zero_or, UInt32.or_zero]
  · simp only [or_and, length_bits hlen, UInt32.and_assoc, show OWN &&& 0xFFFF = 0 by decide,
      show EOR &&& 0xFFFF = 0 by decide, show FS &&& 0xFFFF = 0 by decide,
      show LS &&& 0xFFFF = 0 by decide, UInt32.and_zero, UInt32.zero_or, UInt32.or_zero]
    unfold TX_PKT at hlen
    exact UInt32.toNat_ofNat_of_lt' (show len < 2 ^ 32 by omega)

/-! ## The rings as queues -/

/-- The receive ring: the NIC fills, the driver drains. -/
def World.rx_line (w : World) : Line Bytes :=
  ⟨⟨w.waiting, w.nic_rx, w.rings.rx_i % NUM_RX⟩, w.rx⟩

/-- The transmit ring: the driver fills, the NIC drains. -/
def World.tx_line (w : World) : Line Bytes :=
  ⟨⟨w.flying, w.rings.tx_i % NUM_TX, w.nic_tx⟩, w.tx⟩

/-- The driver's index, taken modulo the ring, goes round with it. -/
theorem next_rx (i : Nat) : (i + 1) % USIZE % NUM_RX = (i % NUM_RX + 1) % NUM_RX := by
  unfold USIZE NUM_RX
  omega

theorem next_tx (i : Nat) : (i + 1) % USIZE % NUM_TX = (i % NUM_TX + 1) % NUM_TX := by
  unfold USIZE NUM_TX
  omega

/-- What both rings carry: `q` waits to be polled, `f` waits to be sent. -/
structure Inv (w : World) (q f : List Bytes) : Prop where
  rx : w.rx_line.Carries NUM_RX q
  tx : w.tx_line.Carries NUM_TX f
  rx_end : EndsAt NUM_RX w.rings.rx_ring
  tx_end : EndsAt NUM_TX w.rings.tx_ring
  sizes : ∀ frame ∈ q, frame ≠ [] ∧ frame.length ≤ RX_PKT
  nic_rx : w.nic_rx < NUM_RX

section Steps

variable {w : World} {q f : List Bytes}

/-- A slot of the receive ring behind a change of its descriptor. -/
theorem waiting_update (w : World) (i : Nat) (ctrl : UInt32) (rx_buf : Nat → Bytes)
    (hbuf : ∀ j ≠ i, rx_buf j = w.rings.rx_buf j) (rx_i : Nat) :
    World.waiting { w with rings := { w.rings with
        rx_ring := Function.update w.rings.rx_ring i ctrl, rx_buf := rx_buf, rx_i := rx_i } }
      = Function.update w.waiting i (if ctrl &&& OWN ≠ 0 then none
          else some ((rx_buf i).take (ctrl &&& 0x3FFF).toNat)) := by
  funext j
  unfold World.waiting
  dsimp only
  by_cases hj : j = i
  · rw [hj, Function.update_self, Function.update_self]
  · rw [Function.update_of_ne hj, Function.update_of_ne hj, hbuf j hj]

/-- A slot of the transmit ring behind a change of its descriptor. -/
theorem flying_update (w : World) (i : Nat) (ctrl : UInt32) (tx_buf : Nat → Bytes)
    (hbuf : ∀ j ≠ i, tx_buf j = w.rings.tx_buf j) (tx_i : Nat) :
    World.flying { w with rings := { w.rings with
        tx_ring := Function.update w.rings.tx_ring i ctrl, tx_buf := tx_buf, tx_i := tx_i } }
      = Function.update w.flying i (if ctrl &&& OWN = 0 then none
          else some ((tx_buf i).take (ctrl &&& 0xFFFF).toNat)) := by
  funext j
  unfold World.flying
  dsimp only
  by_cases hj : j = i
  · rw [hj, Function.update_self, Function.update_self]
  · rw [Function.update_of_ne hj, Function.update_of_ne hj, hbuf j hj]

/-- **The NIC fills the receive ring.** -/
theorem store_keeps (h : Inv w q f) {flags : UInt32} {frame : Bytes}
    (he : Event.Ok (.store flags frame)) :
    Inv (w.store flags frame) (if q.length < NUM_RX then q ++ [frame] else q) f := by
  obtain ⟨hown, heor, hlen, hne, hmax⟩ := he
  obtain ⟨hword, hmark, hcount⟩ := stored_word hown heor (w.rings.rx_ring w.nic_rx)
  have hfill := h.rx.fill frame
  have hfree := h.rx.holds.free_iff
  change (w.waiting w.nic_rx).isSome = false ↔ _ at hfree
  have hsizes : ∀ fr ∈ (if q.length < NUM_RX then q ++ [frame] else q),
      fr ≠ [] ∧ fr.length ≤ RX_PKT := by
    intro fr hfr
    split_ifs at hfr
    · rcases List.mem_append.mp hfr with hold | hnew
      · exact h.sizes fr hold
      · rw [List.mem_singleton.mp hnew]
        exact ⟨hne, hmax⟩
    · exact h.sizes fr hfr
  unfold World.store
  dsimp only
  by_cases hbusy : w.rings.rx_ring w.nic_rx &&& OWN = 0
  · -- the frame is dropped
    have hsome : (w.waiting w.nic_rx).isSome = true := by
      unfold World.waiting
      dsimp only
      rw [if_neg (not_not_intro hbusy)]
      rfl
    rw [hsome] at hfree
    have hfull : ¬ q.length < NUM_RX := fun hroom => Bool.noConfusion (hfree.mpr hroom)
    rw [if_pos hbusy, if_neg hfull]
    exact h
  · have hnone : w.waiting w.nic_rx = none := if_pos hbusy
    have hline : (World.store w flags frame).rx_line = w.rx_line.fill NUM_RX frame := by
      rw [Line.fill_free w.rx_line frame hnone]
      unfold World.store World.rx_line
      dsimp only
      rw [if_neg hbusy]
      have hupd := waiting_update w w.nic_rx (flags ||| (w.rings.rx_ring w.nic_rx &&& EOR))
        (Function.update w.rings.rx_buf w.nic_rx
          (frame ++ (w.rings.rx_buf w.nic_rx).drop frame.length))
        (fun j hj => Function.update_of_ne hj _ _) w.rings.rx_i
      rw [if_neg (not_not_intro hword), Function.update_self, hcount, hlen, List.take_left] at hupd
      rw [h.rx_end.next h.nic_rx]
      congr 2
    rw [← hline] at hfill
    unfold World.store at hfill
    dsimp only at hfill
    rw [if_neg hbusy] at hfill ⊢
    refine ⟨hfill, h.tx, h.rx_end.update hmark, h.tx_end, hsizes, ?_⟩
    show next w.rings.rx_ring w.nic_rx < NUM_RX
    rw [h.rx_end.next h.nic_rx]
    exact Nat.mod_lt _ (by decide)

/-- **The driver drains the receive ring**, and returns its front. -/
theorem poll_keeps (h : Inv w q f) {out_len : Nat} (hout : RX_PKT ≤ out_len) :
    (w.rings.poll_rx_packet out_len).2 = q.head? ∧ Inv (w.poll out_len) q.tail f := by
  have hhead := h.rx.holds.head
  change w.waiting (w.rings.rx_i % NUM_RX) = q.head? at hhead
  have hdrain := h.rx.drain
  unfold World.poll Rings.poll_rx_packet
  dsimp only
  by_cases hown : w.rings.rx_ring (w.rings.rx_i % NUM_RX) &&& OWN ≠ 0
  · -- nothing waits
    have hnone : q.head? = none := by
      rw [← hhead]
      unfold World.waiting
      exact if_pos hown
    rw [if_pos hown, hnone]
    refine ⟨rfl, ?_⟩
    rw [Line.drain_empty w.rx_line (hhead.trans hnone)] at hdrain
    have hnil := List.head?_eq_none_iff.mp hnone
    rw [hnil] at hdrain ⊢
    rw [Option.toList_none, List.append_nil]
    exact ⟨hdrain, h.tx, h.rx_end, h.tx_end, nofun, h.nic_rx⟩
  · have hsome := hhead
    unfold World.waiting at hsome
    dsimp only at hsome
    rw [if_neg hown] at hsome
    obtain ⟨frame, rest, hq⟩ : ∃ frame rest, q = frame :: rest := by
      cases q with
      | nil => cases hsome
      | cons frame rest => exact ⟨frame, rest, rfl⟩
    rw [hq, List.head?_cons, Option.some.injEq] at hsome
    obtain ⟨hne, hmax⟩ := h.sizes frame (by rw [hq]; exact List.mem_cons_self)
    obtain ⟨hword, hmark⟩ := empty_word (w.rings.rx_ring (w.rings.rx_i % NUM_RX))
    have hn : (w.rings.rx_ring (w.rings.rx_i % NUM_RX) &&& 0x3FFF).toNat ≠ 0 := by
      intro hzero
      rw [hzero, List.take_zero] at hsome
      exact hne hsome.symm
    have hpacket : (w.rings.rx_buf (w.rings.rx_i % NUM_RX)).take
        (min (min (w.rings.rx_ring (w.rings.rx_i % NUM_RX) &&& 0x3FFF).toNat out_len) RX_PKT) = frame := by
      rw [← hsome] at hmax
      rw [List.length_take] at hmax
      by_cases hle : (w.rings.rx_ring (w.rings.rx_i % NUM_RX) &&& 0x3FFF).toNat ≤ RX_PKT
      · rw [Nat.min_eq_left (Nat.le_trans hle hout), Nat.min_eq_left hle]
        exact hsome
      · -- the descriptor counts more than the buffer has
        rw [← hsome, List.take_of_length_le (by omega), List.take_of_length_le (by omega)]
    rw [if_neg hown, if_neg hn, hpacket, hq]
    refine ⟨rfl, ?_⟩
    have hupd := waiting_update w (w.rings.rx_i % NUM_RX)
      (OWN ||| (w.rings.rx_ring (w.rings.rx_i % NUM_RX) &&& EOR) ||| UInt32.ofNat RX_PKT) w.rings.rx_buf
      (fun _ _ => rfl) ((w.rings.rx_i + 1) % USIZE)
    rw [if_pos hword] at hupd
    have hslot : w.waiting (w.rings.rx_i % NUM_RX) = some frame := by
      rw [hhead, hq]
      rfl
    rw [Line.drain_front w.rx_line hslot, hq] at hdrain
    refine ⟨?_, h.tx, h.rx_end.update hmark, h.tx_end, ?_, h.nic_rx⟩
    · unfold World.rx_line
      dsimp only
      rw [next_rx]
      change Line.Carries NUM_RX ⟨⟨World.waiting { w with rings := { w.rings with
        rx_ring := Function.update w.rings.rx_ring (w.rings.rx_i % NUM_RX) _,
        rx_buf := w.rings.rx_buf, rx_i := _ } }, _, _⟩, _⟩ _
      rw [hupd]
      exact hdrain
    · intro fr hfr
      apply h.sizes
      rw [hq]
      exact List.mem_cons_of_mem _ hfr

/-- **The driver fills the transmit ring.** -/
theorem transmit_keeps (h : Inv w q f) (pkt : Bytes) :
    ((w.rings.transmit pkt).2 = true ↔ pkt ≠ [] ∧ pkt.length ≤ TX_PKT ∧ f.length < NUM_TX)
      ∧ ∃ f', Inv (w.transmit pkt) q f' := by
  have hfree := h.tx.holds.free_iff
  change (w.flying (w.rings.tx_i % NUM_TX)).isSome = false ↔ _ at hfree
  unfold World.transmit Rings.transmit
  dsimp only
  by_cases hsize : pkt = [] ∨ TX_PKT < pkt.length
  · rw [if_pos hsize]
    refine ⟨?_, f, h⟩
    simp only [Bool.false_eq_true, false_iff]
    rintro ⟨hne, hle, -⟩
    rcases hsize with hnil | hlong
    · exact hne hnil
    · exact Nat.not_lt.mpr hle hlong
  rw [if_neg hsize]
  rw [not_or, Nat.not_lt] at hsize
  by_cases hown : w.rings.tx_ring (w.rings.tx_i % NUM_TX) &&& OWN ≠ 0
  · have hsome : (w.flying (w.rings.tx_i % NUM_TX)).isSome = true := by
      unfold World.flying
      dsimp only
      rw [if_neg hown]
      rfl
    rw [hsome] at hfree
    have hfull : ¬ f.length < NUM_TX := fun hroom => Bool.noConfusion (hfree.mpr hroom)
    rw [if_pos hown]
    exact ⟨by simp [hfull], f, h⟩
  · have hfree' : w.flying (w.rings.tx_i % NUM_TX) = none := if_pos (not_not.mp hown)
    have hroom : f.length < NUM_TX := by
      apply hfree.mp
      rw [hfree']
      rfl
    obtain ⟨hword, hmark, hcount⟩ := packet_word (w.rings.tx_ring (w.rings.tx_i % NUM_TX)) hsize.2
    have hfill := h.tx.fill pkt
    rw [if_pos hroom, Line.fill_free w.tx_line pkt hfree'] at hfill
    have hupd := flying_update w (w.rings.tx_i % NUM_TX)
      (OWN ||| (w.rings.tx_ring (w.rings.tx_i % NUM_TX) &&& EOR) ||| FS ||| LS ||| UInt32.ofNat pkt.length)
      (Function.update w.rings.tx_buf (w.rings.tx_i % NUM_TX)
        (pkt ++ (w.rings.tx_buf (w.rings.tx_i % NUM_TX)).drop pkt.length))
      (fun j hj => Function.update_of_ne hj _ _) ((w.rings.tx_i + 1) % USIZE)
    rw [if_neg hword, Function.update_self, hcount, List.take_left] at hupd
    rw [if_neg hown, if_pos rfl]
    refine ⟨by simp [hsize, hroom], f ++ [pkt], h.rx, ?_, h.rx_end, h.tx_end.update hmark, h.sizes, h.nic_rx⟩
    unfold World.tx_line
    dsimp only
    rw [next_tx]
    change Line.Carries NUM_TX ⟨⟨World.flying { w with rings := { w.rings with
      tx_ring := Function.update w.rings.tx_ring (w.rings.tx_i % NUM_TX) _,
      tx_buf := Function.update w.rings.tx_buf (w.rings.tx_i % NUM_TX) _, tx_i := _ } }, _, _⟩, _⟩ _
    rw [hupd]
    exact hfill

/-- **The NIC drains the transmit ring.** -/
theorem send_keeps (h : Inv w q f) : Inv w.send q f.tail := by
  have hdrain := h.tx.drain
  have hfront : w.nic_tx < NUM_TX := h.tx.holds.front
  unfold World.send
  cases hfly : w.flying w.nic_tx with
  | none =>
    rw [Line.drain_empty w.tx_line hfly] at hdrain
    exact ⟨h.rx, hdrain, h.rx_end, h.tx_end, h.sizes, h.nic_rx⟩
  | some pkt =>
    rw [Line.drain_front w.tx_line hfly] at hdrain
    have hupd := flying_update w w.nic_tx (w.rings.tx_ring w.nic_tx &&& EOR) w.rings.tx_buf
      (fun _ _ => rfl) w.rings.tx_i
    rw [if_pos (mark_and_own _)] at hupd
    refine ⟨h.rx, ?_, h.rx_end, h.tx_end.update (mark_and_mark _), h.sizes, h.nic_rx⟩
    unfold World.tx_line
    dsimp only
    rw [h.tx_end.next hfront]
    change Line.Carries NUM_TX ⟨⟨World.flying { w with rings := { w.rings with
      tx_ring := Function.update w.rings.tx_ring w.nic_tx _,
      tx_buf := w.rings.tx_buf, tx_i := w.rings.tx_i } }, _, _⟩, _⟩ _
    rw [hupd]
    exact hdrain

end Steps

/-! ## Runs -/

theorem nothing_waits (i : Nat) : World.start.waiting i = none := by
  unfold World.waiting World.start try_init
  dsimp only
  apply if_pos
  split_ifs <;> decide

theorem nothing_flies (i : Nat) : World.start.flying i = none := by
  unfold World.flying World.start try_init
  dsimp only
  apply if_pos
  split_ifs <;> decide

/-- The marks behind `try_init`. -/
theorem ends_start : EndsAt NUM_RX try_init.rx_ring ∧ EndsAt NUM_TX try_init.tx_ring := by
  constructor
  · intro i _
    unfold try_init
    dsimp only
    by_cases hlast : i = NUM_RX - 1
    · rw [if_pos hlast]
      exact iff_of_true (by decide) hlast
    · rw [if_neg hlast]
      exact iff_of_false (by decide) hlast
  · intro i _
    unfold try_init
    dsimp only
    by_cases hlast : i = NUM_TX - 1
    · rw [if_pos hlast]
      exact iff_of_true (by decide) hlast
    · rw [if_neg hlast]
      exact iff_of_false (by decide) hlast

theorem inv_start : Inv .start [] [] where
  rx := Line.carries_start (show 0 < NUM_RX by decide) nothing_waits
  tx := Line.carries_start (show 0 < NUM_TX by decide) nothing_flies
  rx_end := ends_start.1
  tx_end := ends_start.2
  sizes := nofun
  nic_rx := show 0 < NUM_RX by decide

theorem run_keeps {w : World} {q f : List Bytes} {es : List Event} (hes : ∀ e ∈ es, e.Ok)
    (h : Inv w q f) : ∃ q' f', Inv (run World.step w es) q' f' := by
  induction es generalizing w q f with
  | nil => exact ⟨q, f, h⟩
  | cons e es ih =>
    have hstep : ∃ q' f', Inv (w.step e) q' f' := by
      have he := hes e List.mem_cons_self
      cases e with
      | store flags frame => exact ⟨_, f, store_keeps h he⟩
      | poll out_len => exact ⟨q.tail, f, (poll_keeps h he).2⟩
      | transmit pkt =>
        obtain ⟨f', h'⟩ := (transmit_keeps h pkt).2
        exact ⟨q, f', h'⟩
      | send => exact ⟨q, f.tail, send_keeps h⟩
    obtain ⟨q', f', h'⟩ := hstep
    exact ih (fun e' he' => hes e' (List.mem_cons_of_mem _ he')) h'

end EveOS.Nic.Rtl8168
