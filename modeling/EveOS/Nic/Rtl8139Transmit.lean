/-
The transmit slots of `kernel/src/rtl8139.rs`.

There is no ring in memory: the NIC has four status registers and takes them in turn.
`TX_HOST_OWNS` says that a slot is free, and writing a length without it starts the
slot. The driver counts its packets in a byte; it waits for its slot for a while, which
changes nothing, and gives up where the slot is still the NIC's.
-/
import EveOS.Lib.Handover
import EveOS.Nic.Rtl8139

set_option autoImplicit false

namespace EveOS.Nic.Rtl8139

def TX_HOST_OWNS : UInt32 := 0x2000
def NUM_TX : Nat := 4

/-- The transmit side: the status registers, the buffers and the driver's count. -/
structure Slots where
  tx_status : Nat → UInt32
  tx : Nat → Bytes
  tx_slot : UInt8

/-- The slots behind the reset in `probe`. -/
def Slots.probe : Slots := ⟨fun _ => TX_HOST_OWNS, fun _ => List.replicate TX_BUF 0, 0⟩

/-- `transmit`, with the status the wait ends with. -/
def Slots.transmit (s : Slots) (pkt : Bytes) : Slots × Bool :=
  if pkt = [] ∨ TX_BUF < pkt.length then (s, false)
  else
    let slot := (s.tx_slot % UInt8.ofNat NUM_TX).toNat
    if s.tx_status slot &&& TX_HOST_OWNS = 0 then (s, false)
    else
      ({ tx_status := Function.update s.tx_status slot (UInt32.ofNat pkt.length &&& 0x1FFF)
         tx := Function.update s.tx slot (pkt ++ (s.tx slot).drop pkt.length)
         tx_slot := s.tx_slot + 1 }, true)

/-! ## Both parties -/

namespace Transmit

/-- The driver's side and the NIC's position, with what went through the slots. -/
structure World where
  slots : Slots
  nic_tx : Nat
  tx : Traffic Bytes

inductive Event
  | transmit (pkt : Bytes)
  | send
  deriving DecidableEq

variable (w : World)

/-- What is in a slot that is the NIC's. -/
def World.flying (i : Nat) : Option Bytes :=
  let status := w.slots.tx_status i
  if status &&& TX_HOST_OWNS ≠ 0 then none else some ((w.slots.tx i).take (status &&& 0x1FFF).toNat)

def World.transmit (pkt : Bytes) : World :=
  let r := w.slots.transmit pkt
  { w with
    slots := r.1
    tx := if r.2 then ⟨w.tx.put ++ [pkt], w.tx.got⟩ else w.tx }

/-- The NIC sends the packet in its slot, and gives the slot back. -/
def World.send : World :=
  match w.flying w.nic_tx with
  | none => w
  | some pkt =>
    { w with
      slots := { w.slots with
        tx_status := Function.update w.slots.tx_status w.nic_tx
          (w.slots.tx_status w.nic_tx ||| TX_HOST_OWNS) }
      nic_tx := (w.nic_tx + 1) % NUM_TX
      tx := ⟨w.tx.put, w.tx.got ++ [pkt]⟩ }

def World.step (w : World) : Event → World
  | .transmit pkt => w.transmit pkt
  | .send => w.send

def World.start : World := ⟨.probe, 0, ⟨[], []⟩⟩

/-! ## The slots as a queue -/

/-- The driver fills, the NIC drains. -/
def World.line : Line Bytes := ⟨⟨w.flying, (w.slots.tx_slot % UInt8.ofNat NUM_TX).toNat, w.nic_tx⟩, w.tx⟩

/-- The byte goes round with the slots. -/
theorem next_slot (b : UInt8) :
    ((b + 1) % UInt8.ofNat NUM_TX).toNat = ((b % UInt8.ofNat NUM_TX).toNat + 1) % NUM_TX := by
  rw [UInt8.toNat_mod, UInt8.toNat_mod, UInt8.toNat_add]
  show (b.toNat + 1) % 256 % 4 = (b.toNat % 4 + 1) % 4
  omega

/-- A slot behind a change of its register. -/
theorem flying_update (i : Nat) (status : UInt32) (tx : Nat → Bytes)
    (htx : ∀ j ≠ i, tx j = w.slots.tx j) (tx_slot : UInt8) :
    World.flying { w with slots := ⟨Function.update w.slots.tx_status i status, tx, tx_slot⟩ }
      = Function.update w.flying i (if status &&& TX_HOST_OWNS ≠ 0 then none
          else some ((tx i).take (status &&& 0x1FFF).toNat)) := by
  funext j
  unfold World.flying
  dsimp only
  by_cases hj : j = i
  · rw [hj, Function.update_self, Function.update_self]
  · rw [Function.update_of_ne hj, Function.update_of_ne hj, htx j hj]

/-- The register of a packet: the slot is the NIC's, and the length is in it. -/
theorem length_word {len : Nat} (hlen : len ≤ TX_BUF) :
    (UInt32.ofNat len &&& 0x1FFF) &&& TX_HOST_OWNS = 0
      ∧ ((UInt32.ofNat len &&& 0x1FFF) &&& 0x1FFF).toNat = len := by
  unfold TX_BUF at hlen
  constructor
  · rw [UInt32.and_assoc, show 0x1FFF &&& TX_HOST_OWNS = 0 by decide, UInt32.and_zero]
  · rw [UInt32.and_assoc, UInt32.and_self, UInt32.toNat_and,
      UInt32.toNat_ofNat_of_lt' (show len < 2 ^ 32 by omega)]
    exact (Nat.and_two_pow_sub_one_eq_mod len 13).trans (Nat.mod_eq_of_lt (by omega))

/-- A slot that is given back is free. -/
theorem free_word (status : UInt32) : (status ||| TX_HOST_OWNS) &&& TX_HOST_OWNS ≠ 0 := by
  intro h
  have hor : (status ||| TX_HOST_OWNS) &&& TX_HOST_OWNS
      = (status &&& TX_HOST_OWNS) ||| (TX_HOST_OWNS &&& TX_HOST_OWNS) := by
    apply UInt32.toBitVec_inj.mp
    exact BitVec.and_or_distrib_right
  rw [hor, UInt32.or_eq_zero_iff] at h
  exact absurd h.2 (by decide)

/-- **The driver fills the slots.** -/
theorem transmit_eq (pkt : Bytes) :
    (w.transmit pkt).line
      = if pkt = [] ∨ TX_BUF < pkt.length then w.line else w.line.fill NUM_TX pkt := by
  unfold World.transmit Slots.transmit
  dsimp only
  by_cases hsize : pkt = [] ∨ TX_BUF < pkt.length
  · rw [if_pos hsize, if_pos hsize]
    rfl
  rw [if_neg hsize, if_neg hsize]
  rw [not_or, Nat.not_lt] at hsize
  by_cases hown : w.slots.tx_status (w.slots.tx_slot % UInt8.ofNat NUM_TX).toNat &&& TX_HOST_OWNS = 0
  · have hsome : w.flying (w.slots.tx_slot % UInt8.ofNat NUM_TX).toNat = some _ :=
      if_neg (not_not_intro hown)
    rw [if_pos hown, Line.fill_busy w.line pkt hsome]
    rfl
  · have hnone : w.flying (w.slots.tx_slot % UInt8.ofNat NUM_TX).toNat = none := if_pos hown
    obtain ⟨hword, hcount⟩ := length_word hsize.2
    rw [if_neg hown, Line.fill_free w.line pkt hnone]
    unfold World.line
    dsimp only
    have hupd := flying_update w (w.slots.tx_slot % UInt8.ofNat NUM_TX).toNat
      (UInt32.ofNat pkt.length &&& 0x1FFF)
      (Function.update w.slots.tx (w.slots.tx_slot % UInt8.ofNat NUM_TX).toNat
        (pkt ++ (w.slots.tx (w.slots.tx_slot % UInt8.ofNat NUM_TX).toNat).drop pkt.length))
      (fun j hj => Function.update_of_ne hj _ _) (w.slots.tx_slot + 1)
    rw [if_neg (not_not_intro hword), Function.update_self, hcount, List.take_left] at hupd
    rw [next_slot]
    congr 2

/-- **The NIC drains them.** -/
theorem send_eq : w.send.line = w.line.drain NUM_TX := by
  unfold World.send
  cases hfly : w.flying w.nic_tx with
  | none => exact (Line.drain_empty w.line hfly).symm
  | some pkt =>
    rw [Line.drain_front w.line hfly]
    unfold World.line
    dsimp only
    have hupd := flying_update w w.nic_tx (w.slots.tx_status w.nic_tx ||| TX_HOST_OWNS) w.slots.tx
      (fun _ _ => rfl) w.slots.tx_slot
    rw [if_pos (free_word _)] at hupd
    congr 2

theorem nothing_flies (i : Nat) : World.start.flying i = none :=
  if_pos (show TX_HOST_OWNS &&& TX_HOST_OWNS ≠ 0 by decide)

theorem run_carries (es : List Event) : ∃ f, (run World.step .start es).line.Carries NUM_TX f := by
  apply run_preserves (I := fun w : World => ∃ f, w.line.Carries NUM_TX f)
  · rintro w e ⟨f, h⟩
    cases e with
    | transmit pkt =>
      show ∃ f, (w.transmit pkt).line.Carries NUM_TX f
      rw [transmit_eq]
      split_ifs
      · exact ⟨f, h⟩
      · exact ⟨_, h.fill pkt⟩
    | send =>
      show ∃ f, w.send.line.Carries NUM_TX f
      rw [send_eq]
      exact ⟨_, h.drain⟩
  · exact ⟨[], Line.carries_start (show 0 < NUM_TX by decide) nothing_flies⟩

/-- **What `transmit` takes is sent.** After any calls and sends, however far the NIC lags behind
and however often the byte that counts packets went round: the packets sent are the first of those
that `transmit` took, byte by byte; and it takes a packet that fits whenever fewer than four are on
their way. -/
theorem taken_packets_are_sent (es : List Event) :
    let w := run World.step .start es
    ∃ flying, w.tx.put = w.tx.got ++ flying
      ∧ ∀ pkt, (w.slots.transmit pkt).2 = true
        ↔ pkt ≠ [] ∧ pkt.length ≤ TX_BUF ∧ flying.length < NUM_TX := by
  obtain ⟨f, h⟩ := run_carries es
  generalize run World.step .start es = w at h
  refine ⟨f, h.onWay, ?_⟩
  intro pkt
  rw [← h.holds.free_iff]
  show _ ↔ _ ∧ _ ∧ (w.flying (w.slots.tx_slot % UInt8.ofNat NUM_TX).toNat).isSome = false
  unfold Slots.transmit World.flying
  dsimp only
  by_cases hsize : pkt = [] ∨ TX_BUF < pkt.length
  · rw [if_pos hsize]
    simp only [Bool.false_eq_true, false_iff]
    rintro ⟨hne, hle, -⟩
    rcases hsize with hnil | hlong
    · exact hne hnil
    · exact Nat.not_lt.mpr hle hlong
  · rw [if_neg hsize]
    rw [not_or, Nat.not_lt] at hsize
    generalize (w.slots.tx_slot % UInt8.ofNat NUM_TX).toNat = slot
    by_cases hown : w.slots.tx_status slot &&& TX_HOST_OWNS = 0
    · simp [hown]
    · simp [hown, hsize]

end Transmit

end EveOS.Nic.Rtl8139
