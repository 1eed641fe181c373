/-
Interrupt endpoints of the xHCI driver: `kernel/src/xhci_native.rs`.

The number of an endpoint comes from the device. `configure_interrupt_ep` checks it
against the device context, which has 2048 bytes, and goes on with the input context,
which has 512, and with a byte in which it sets a bit for the endpoint. The byte has
room for the endpoints up to 3. And a report is polled with the packet size of the
device, up to 64 for a mouse and whatever it says for a keyboard, into a buffer of 8
bytes.
-/
import EveOS.Lib.Buffer
import EveOS.Lib.LittleEndian
import EveOS.Lib.Run
import EveOS.Usb.Descriptors
import EveOS.Usb.Xhci

set_option autoImplicit false

namespace EveOS.Usb

def DATA_LEN : Nat := 512
def INPUT_CTX_LEN : Nat := 512
def DEV_CTX_LEN : Nat := 2048

/-- The length of `IRQ_KBD` and of `IRQ_MOUSE`. -/
def IRQ_LEN : Nat := 8

/-- What happens at a port: whether it can be reset, the slot, whether the device gets an
address; what it writes into `DATA` for the two requests of `fetch_config`, and whether
they go through; whether it is configured; the device context, which the controller
writes, and whether the command goes through that configures an endpoint for a boot
protocol. -/
structure PortDevice where
  reset : Bool
  slot : Option UInt8
  addressed : Bool
  header : Bytes × Bool
  config : Bytes × Bool
  configured : Bool
  ctx : Bytes
  ctx_len : ctx.length = DEV_CTX_LEN
  completes : UInt8 → Bool

/-- The statics of the driver. `mmio` says whether it has a controller. -/
structure Xhci where
  data : Bytes
  input_ctx : Bytes
  mmio : Bool
  kbd_slot : UInt8
  kbd_ep : UInt8
  kbd_mps : UInt16
  kbd_ready : Bool
  mouse_slot : UInt8
  mouse_ep : UInt8
  mouse_mps : UInt16
  mouse_ready : Bool

/-- Behind `rings_init`. -/
def Xhci.start : Xhci where
  data := List.replicate DATA_LEN 0
  input_ctx := List.replicate INPUT_CTX_LEN 0
  mmio := true
  kbd_slot := 0
  kbd_ep := 0
  kbd_mps := 8
  kbd_ready := false
  mouse_slot := 0
  mouse_ep := 0
  mouse_mps := 8
  mouse_ready := false

/-! ## Enumeration -/

/-- `ep0_transfer` with `DATA[..n]`: the device writes no more than that. It returns the
length it asked for. -/
def data_in (data : Bytes) (n : Nat) (reply : Bytes × Bool) : Option (Bytes × Option Nat) := do
  let buf ← slice? data 0 n
  let n := min buf.length 512
  let data ← write? data 0 (reply.1.take n)
  return (data, if reply.2 then some n else none)

def fetch_config (data : Bytes) (p : PortDevice) : Option (Bytes × Option Nat) := do
  let (data, n) ← data_in data 9 p.header
  if n.isNone then return (data, none)
  else
    let lo ← data[2]?
    let hi ← data[3]?
    let total := (le16 lo hi).toNat
    data_in data (min total 512) p.config

/-- `1 << n` for a `u8`. -/
def shl8? (n : Nat) : Option UInt8 := if n < 8 then some (1 <<< UInt8.ofNat n) else none

/-- The context of an endpoint, in front of `set_ep_ring`. -/
def ep_context (ep : UInt8) (mps : UInt16) : Bytes :=
  [0, 3, 0, 0, ep, 0, (mps &&& 0xFF).toUInt8, (mps >>> 8).toUInt8, 0, 0, 0, 8] ++ List.replicate 20 0

def set_ep_ring (ctx : Bytes) (ep_off : Nat) (ring_phys : UInt64) : Option Bytes :=
  write? ctx (ep_off + 8) (leBytes 8 ring_phys.toNat)

/-- It leaves the device context, the input context, and whether the command completes. -/
def configure_interrupt_ep (ctx input_ctx : Bytes) (ep : UInt8) (mps : UInt16) (irq_ring : UInt64)
    (completes : Bool) : Option (Bytes × Bytes × Bool) :=
  let ep_idx := (ep &&& 0x0F).toNat * 2 + 1
  let off := 0x20 + ep_idx * 0x20
  if ctx.length < off + 0x20 then some (ctx, input_ctx, false)
  else do
    let ctx ← write? ctx off (ep_context ep mps)
    let ctx ← set_ep_ring ctx off irq_ring
    let input_ctx := List.replicate input_ctx.length 0
    let bit ← shl8? ep_idx
    let input_ctx ← write? input_ctx 0 [bit]
    let slot_ctx ← slice? ctx 0 0x20
    let input_ctx ← write? input_ctx 0x20 slot_ctx
    let ep_ctx ← slice? ctx off (off + 0x20)
    let input_ctx ← write? input_ctx off ep_ctx
    return (ctx, input_ctx, completes)

/-- The part of `try_hid_on_port` for a keyboard. -/
def Xhci.try_keyboard (s : Xhci) (p : PortDevice) (slot : UInt8) (n : Nat) (ring : UInt64) :
    Option (Xhci × Bytes) :=
  if s.kbd_ready then some (s, p.ctx)
  else do
    let cfg ← slice? s.data 0 n
    match ← find_hid_boot_eps cfg 1 with
    | none => return (s, p.ctx)
    | some (_, ep, mps) =>
      let (ctx, input_ctx, ok) ← configure_interrupt_ep p.ctx s.input_ctx ep mps ring (p.completes 1)
      let s := { s with input_ctx := input_ctx }
      return (if ok then { s with kbd_ep := ep, kbd_mps := max mps 8, kbd_slot := slot, kbd_ready := true } else s, ctx)

/-- The part for a mouse. The device contexts have the same length. -/
def Xhci.try_mouse (s : Xhci) (p : PortDevice) (slot : UInt8) (n : Nat) (ring : UInt64) (ctx : Bytes) : Option Xhci :=
  if s.mouse_ready then some s
  else do
    let cfg ← slice? s.data 0 n
    match ← find_hid_boot_eps cfg 2 with
    | none => return s
    | some (_, ep, mps) =>
      let mouse_ctx := if slot = s.kbd_slot then ctx else p.ctx
      let (_, input_ctx, ok) ← configure_interrupt_ep mouse_ctx s.input_ctx ep mps ring (p.completes 2)
      let s := { s with input_ctx := input_ctx }
      return if ok then
          { s with mouse_ep := ep, mouse_mps := max 4 (min mps 64), mouse_slot := slot, mouse_ready := true }
        else s

/-- `kbd_ring` and `mouse_ring` are where the rings are. -/
def Xhci.try_hid_on_port (s : Xhci) (p : PortDevice) (kbd_ring mouse_ring : UInt64) : Option Xhci :=
  if !p.reset then some s
  else
    match p.slot with
    | none => some s
    | some slot =>
      if !p.addressed then some s
      else do
        let (data, n) ← fetch_config s.data p
        let s := { s with data := data }
        match n with
        | none => return s
        | some n =>
          if n < 9 then return s
          else
            let _cfg ← s.data[5]?
            if !p.configured then return s
            else
              let (s, ctx) ← s.try_keyboard p slot n kbd_ring
              s.try_mouse p slot n mouse_ring ctx

/-- A turn of the loop in `init`. -/
def Xhci.visit (s : Xhci) (p : PortDevice) (kbd_ring mouse_ring : UInt64) : Option Xhci :=
  if s.kbd_ready && s.mouse_ready then some s else s.try_hid_on_port p kbd_ring mouse_ring

/-! ## Polling -/

inductive HidPoll
  | keyboard
  | mouse (idx : Nat)

/-- The transfer that `poll_interrupt` queues; the buffers are at `irq_kbd` and `irq_mouse`. -/
def Xhci.poll (s : Xhci) (irq_kbd irq_mouse : UInt64) : HidPoll → Option Transfer
  | .keyboard => if !s.kbd_ready || !s.mmio then none else some (.normal irq_kbd s.kbd_mps)
  | .mouse idx =>
    if idx != 0 || !s.mouse_ready || !s.mmio then none else some (.normal irq_mouse s.mouse_mps)

/-- The length in the block of a transfer. -/
def Transfer.len : Transfer → Nat
  | .setup _ _ => 8
  | .data _ n => n.toNat
  | .status _ => 0
  | .normal _ mps => mps.toNat

/-! ## What is asked of the devices -/

/-- `DATA` with what a device writes into the first `n` bytes. -/
def written (data : Bytes) (n : Nat) (reply : Bytes) : Bytes :=
  reply.take n ++ data.drop (reply.take n).length

/-- The configuration that a device at a port returns, with what was in `DATA` before
where it is shorter than it says. -/
def Xhci.returned (s : Xhci) (p : PortDevice) : Option Bytes :=
  let data := written s.data 9 p.header.1
  let n := min (le16 (byteAt data 2) (byteAt data 3)).toNat 512
  if p.reset && p.slot.isSome && p.addressed && p.header.2 && p.config.2 && p.configured && decide (9 ≤ n) then
    some ((written data n p.config.1).take n)
  else none

/-- A boot endpoint that fits: its number is at most 3, and its packets have at most 8
bytes if it can be configured. -/
def EndpointFits (found : Option (Option HidEp)) (completes : Bool) : Prop :=
  ∀ r, found = some (some r) → (r.2.1 &&& 0x0F).toNat ≤ 3 ∧ (completes = true → r.2.2.toNat ≤ IRQ_LEN)

/-- The endpoints that the driver takes from a device fit. -/
def Xhci.Fits (s : Xhci) (p : PortDevice) : Prop :=
  ¬ (s.kbd_ready = true ∧ s.mouse_ready = true) → ∀ cfg, s.returned p = some cfg →
    (s.kbd_ready = false → EndpointFits (find_hid_boot_eps cfg 1) (p.completes 1)) ∧
      (s.mouse_ready = false → EndpointFits (find_hid_boot_eps cfg 2) (p.completes 2))

/-- No transfer is longer than its buffer. -/
def Xhci.PollsFit (s : Xhci) : Prop :=
  ∀ irq_kbd irq_mouse poll t, s.poll irq_kbd irq_mouse poll = some t → t.len ≤ IRQ_LEN

/-! ## The parts -/

/-- The buffers have their lengths. -/
structure Xhci.Sized (s : Xhci) : Prop where
  data : s.data.length = DATA_LEN
  input_ctx : s.input_ctx.length = INPUT_CTX_LEN
  mmio : s.mmio = true

section Parts

variable {s : Xhci} {p : PortDevice} {ctx input_ctx : Bytes} {ep : UInt8} {mps : UInt16}

theorem polls_fit_iff (h : s.mmio = true) :
    s.PollsFit ↔ (s.kbd_ready = true → s.kbd_mps.toNat ≤ IRQ_LEN) ∧ (s.mouse_ready = true → s.mouse_mps.toNat ≤ IRQ_LEN) := by
  constructor
  · intro hfit
    constructor
    · intro hready
      have hpoll : s.poll 0 0 .keyboard = some (.normal 0 s.kbd_mps) := by
        unfold Xhci.poll
        dsimp only
        rw [hready, h]
        rfl
      exact hfit 0 0 .keyboard _ hpoll
    · intro hready
      have hpoll : s.poll 0 0 (.mouse 0) = some (.normal 0 s.mouse_mps) := by
        unfold Xhci.poll
        dsimp only
        rw [hready, h]
        rfl
      exact hfit 0 0 (.mouse 0) _ hpoll
  · rintro ⟨hkbd, hmouse⟩ irq_kbd irq_mouse poll t ht
    unfold Xhci.poll at ht
    cases poll with
    | keyboard =>
      dsimp only at ht
      split_ifs at ht with hoff
      rw [← Option.some.inj ht]
      apply hkbd
      by_contra hready
      exact hoff (by simp [hready])
    | mouse idx =>
      dsimp only at ht
      split_ifs at ht with hoff
      rw [← Option.some.inj ht]
      apply hmouse
      by_contra hready
      exact hoff (by simp [hready])

theorem data_in_eq {data : Bytes} {n : Nat} (hlen : data.length = DATA_LEN) (hn : n ≤ DATA_LEN) (reply : Bytes × Bool) :
    data_in data n reply = some (written data n reply.1, if reply.2 then some n else none) ∧
      (written data n reply.1).length = DATA_LEN := by
  have hbuf : slice? data 0 n = some ((data.drop 0).take n) := slice?_eq (Nat.zero_le n) (by rw [hlen]; exact hn)
  have hcount : min ((data.drop 0).take n).length 512 = n := by
    rw [List.drop_zero, List.length_take, hlen]
    unfold DATA_LEN at hn ⊢
    omega
  have hfits : (reply.1.take n).length ≤ data.length := by
    rw [List.length_take, hlen]
    omega
  constructor
  · unfold data_in
    rw [hbuf, Option.bind_eq_bind, Option.bind_some]
    dsimp only
    rw [hcount, write?_front hfits]
    rfl
  · unfold written
    rw [List.length_append, List.length_drop]
    omega

/-- The configuration is fetched inside `DATA`. -/
theorem fetch_config_eq (h : s.Sized) :
    ∃ data n, fetch_config s.data p = some (data, n) ∧ data.length = DATA_LEN ∧
      (n = none ∧ (p.header.2 = false ∨ p.config.2 = false) ∨
        p.header.2 = true ∧ p.config.2 = true ∧
          n = some (min (le16 (byteAt (written s.data 9 p.header.1) 2) (byteAt (written s.data 9 p.header.1) 3)).toNat 512) ∧
          data = written (written s.data 9 p.header.1)
            (min (le16 (byteAt (written s.data 9 p.header.1) 2) (byteAt (written s.data 9 p.header.1) 3)).toNat 512)
            p.config.1) := by
  obtain ⟨hheader, hlen⟩ := data_in_eq h.data (by decide : 9 ≤ DATA_LEN) p.header
  have hget : ∀ i, i < DATA_LEN → (written s.data 9 p.header.1)[i]? = some (byteAt (written s.data 9 p.header.1) i) := by
    intro i hi
    rw [byteAt, List.getD_eq_getElem _ _ (by omega), List.getElem?_eq_getElem]
  unfold fetch_config
  rw [hheader, Option.bind_eq_bind, Option.bind_some]
  cases hok : p.header.2 with
  | false => exact ⟨_, none, rfl, hlen, .inl ⟨rfl, .inl rfl⟩⟩
  | true =>
    dsimp only
    rw [if_pos rfl, hget 2 (by decide), hget 3 (by decide)]
    simp only [Option.isNone_some, Bool.false_eq_true, if_false, Option.bind_eq_bind, Option.bind_some]
    generalize le16 (byteAt (written s.data 9 p.header.1) 2) (byteAt (written s.data 9 p.header.1) 3) = total
    obtain ⟨hconfig, hlen'⟩ := data_in_eq hlen (Nat.min_le_right total.toNat 512) p.config
    refine ⟨_, _, hconfig, hlen', ?_⟩
    cases p.config.2 with
    | false => exact .inl ⟨rfl, .inr rfl⟩
    | true => exact .inr ⟨trivial, rfl, rfl, rfl⟩

/-- The byte has no bit for the endpoint. -/
theorem configure_stops (hctx : ctx.length = DEV_CTX_LEN) (hep : 3 < (ep &&& 0x0F).toNat) (irq_ring : UInt64)
    (completes : Bool) : configure_interrupt_ep ctx input_ctx ep mps irq_ring completes = none := by
  have hep_ctx : (ep_context ep mps).length = 0x20 := by simp [ep_context]
  have hlast : (ep &&& 0x0F).toNat ≤ 15 := by
    rw [UInt8.toNat_and]
    exact Nat.and_le_right
  unfold DEV_CTX_LEN at hctx
  unfold configure_interrupt_ep set_ep_ring
  generalize (ep &&& 0x0F).toNat = k at hep hlast
  dsimp only
  rw [if_neg (by omega)]
  obtain ⟨ctx₁, hctx₁, hlen₁⟩ : Returns (write? ctx (32 + (k * 2 + 1) * 32) (ep_context ep mps)) _ :=
    write?_returns (by omega)
  obtain ⟨ctx₂, hctx₂, -⟩ : Returns (write? ctx₁ (32 + (k * 2 + 1) * 32 + 8) (leBytes 8 irq_ring.toNat)) _ :=
    write?_returns (by rw [length_leBytes]; omega)
  have hbit : shl8? (k * 2 + 1) = none := if_neg (by omega)
  rw [hctx₁, Option.bind_eq_bind, Option.bind_some, hctx₂, Option.bind_some, hbit]
  rfl

/-- The endpoints up to 3 are configured inside both contexts. -/
theorem configure_returns (hctx : ctx.length = DEV_CTX_LEN) (hinput : input_ctx.length = INPUT_CTX_LEN)
    (hep : (ep &&& 0x0F).toNat ≤ 3) (irq_ring : UInt64) (completes : Bool) :
    Returns (configure_interrupt_ep ctx input_ctx ep mps irq_ring completes) fun r =>
      r.1.length = DEV_CTX_LEN ∧ r.2.1.length = INPUT_CTX_LEN ∧ r.2.2 = completes := by
  have hep_ctx : (ep_context ep mps).length = 0x20 := by simp [ep_context]
  unfold DEV_CTX_LEN at hctx ⊢
  unfold INPUT_CTX_LEN at hinput ⊢
  unfold configure_interrupt_ep
  generalize (ep &&& 0x0F).toNat = k at hep ⊢
  dsimp only
  rw [if_neg (by omega)]
  refine (write?_returns (by omega)).bind fun ctx₁ h₁ => ?_
  refine (write?_returns (by rw [length_leBytes]; omega)).bind fun ctx₂ h₂ => ?_
  have hbit : shl8? (k * 2 + 1) = some (1 <<< UInt8.ofNat (k * 2 + 1)) := if_pos (by omega)
  rw [hbit, Option.bind_eq_bind, Option.bind_some]
  refine (write?_returns (by rw [List.length_singleton, List.length_replicate]; omega)).bind fun in₁ h₃ => ?_
  rw [List.length_replicate] at h₃
  refine (slice?_returns (by omega) (by omega)).bind fun slot_ctx h₄ => ?_
  refine (write?_returns (by omega)).bind fun in₂ h₅ => ?_
  refine (slice?_returns (by omega) (by omega)).bind fun ep_ctx h₆ => ?_
  refine (write?_returns (by omega)).bind fun in₃ h₇ => ?_
  exact .ret ⟨show ctx₂.length = 2048 by omega, show in₃.length = 512 by omega, rfl⟩

/-- What a visit does to the two fields of a device kind: it keeps them, or an endpoint
was found and configured. -/
def Taken (ready : Bool) (mps : UInt16) (ready' : Bool) (mps' : UInt16) (found : Option (Option HidEp))
    (completes : Bool) (clamp : UInt16 → UInt16) : Prop :=
  (∃ r, ready = false ∧ found = some (some r) ∧ completes = true ∧ ready' = true ∧ mps' = clamp r.2.2) ∨
    (ready' = ready ∧ mps' = mps ∧ (ready = true ∨ found = some none ∨ completes = false))

theorem Taken.fits_iff {ready ready' : Bool} {mps mps' : UInt16} {found : Option (Option HidEp)} {completes : Bool}
    {clamp : UInt16 → UInt16} (h : Taken ready mps ready' mps' found completes clamp)
    (hclamp : ∀ m, (clamp m).toNat ≤ IRQ_LEN ↔ m.toNat ≤ IRQ_LEN) (hbefore : ready = true → mps.toNat ≤ IRQ_LEN) :
    (ready' = true → mps'.toNat ≤ IRQ_LEN) ↔
      (ready = false → ∀ r, found = some (some r) → completes = true → r.2.2.toNat ≤ IRQ_LEN) := by
  rcases h with ⟨r, hready, hfound, hcompletes, hready', hmps⟩ | ⟨hready, hmps, hkept⟩
  · rw [hready', hmps, hclamp, hfound, hready, hcompletes]
    constructor
    · intro h _ r' hr' _
      rw [← Option.some.inj (Option.some.inj hr')]
      exact h rfl
    · exact fun h _ => h rfl r rfl rfl
  · rw [hready, hmps]
    refine iff_of_true hbefore ?_
    intro hnew r hr hcompletes
    rcases hkept with hold | hnone | hfails
    · rw [hnew] at hold
      cases hold
    · rw [hnone] at hr
      cases Option.some.inj hr
    · rw [hcompletes] at hfails
      cases hfails

theorem kbd_clamp (m : UInt16) : (max m 8).toNat ≤ IRQ_LEN ↔ m.toNat ≤ IRQ_LEN := by
  have height : (8 : UInt16).toNat = 8 := rfl
  unfold IRQ_LEN
  show (if m ≤ 8 then 8 else m).toNat ≤ 8 ↔ m.toNat ≤ 8
  split_ifs with h
  · rw [UInt16.le_iff_toNat_le] at h
    omega
  · rfl

theorem mouse_clamp (m : UInt16) : (max 4 (min m 64)).toNat ≤ IRQ_LEN ↔ m.toNat ≤ IRQ_LEN := by
  have hfour : (4 : UInt16).toNat = 4 := rfl
  have hlast : (64 : UInt16).toNat = 64 := rfl
  unfold IRQ_LEN
  show (if 4 ≤ (if m ≤ 64 then m else 64) then (if m ≤ 64 then m else 64) else 4).toNat ≤ 8 ↔ m.toNat ≤ 8
  by_cases h : m ≤ 64
  · rw [if_pos h]
    split_ifs with h'
    · rfl
    · rw [UInt16.le_iff_toNat_le] at h'
      omega
  · rw [if_neg h, if_pos (by decide)]
    rw [UInt16.le_iff_toNat_le] at h
    omega

/-- The endpoint of a kind that is not ready has a number that can be configured. -/
def NumberFits (ready : Bool) (found : Option (Option HidEp)) : Prop :=
  ready = false → ∀ r, found = some (some r) → (r.2.1 &&& 0x0F).toNat ≤ 3

variable {slot : UInt8} {n : Nat} {ring : UInt64}

theorem try_keyboard_stops (hs : s.Sized) (hn : n ≤ DATA_LEN)
    (h : ¬ NumberFits s.kbd_ready (find_hid_boot_eps (s.data.take n) 1)) : s.try_keyboard p slot n ring = none := by
  unfold NumberFits at h
  push Not at h
  obtain ⟨hready, r, hfound, hnumber⟩ := h
  have hcfg : slice? s.data 0 n = some (s.data.take n) := by
    rw [slice?_eq (Nat.zero_le n) (by rw [hs.data]; exact hn), List.drop_zero, Nat.sub_zero]
  unfold Xhci.try_keyboard
  rw [hready, if_neg Bool.false_ne_true, hcfg]
  simp only [hfound, Option.bind_eq_bind, Option.bind_some]
  rw [configure_stops p.ctx_len hnumber]
  rfl

theorem try_keyboard_returns (hs : s.Sized) (hn : n ≤ DATA_LEN)
    (h : NumberFits s.kbd_ready (find_hid_boot_eps (s.data.take n) 1)) :
    Returns (s.try_keyboard p slot n ring) fun t =>
      t.1.Sized ∧ t.2.length = DEV_CTX_LEN ∧ t.1.data = s.data ∧
        (t.1.mouse_ready = s.mouse_ready ∧ t.1.mouse_mps = s.mouse_mps) ∧
        Taken s.kbd_ready s.kbd_mps t.1.kbd_ready t.1.kbd_mps (find_hid_boot_eps (s.data.take n) 1) (p.completes 1)
          (max · 8) := by
  have hcfg : slice? s.data 0 n = some (s.data.take n) := by
    rw [slice?_eq (Nat.zero_le n) (by rw [hs.data]; exact hn), List.drop_zero, Nat.sub_zero]
  unfold Xhci.try_keyboard
  cases hready : s.kbd_ready with
  | true =>
    rw [if_pos rfl]
    exact .ret ⟨hs, p.ctx_len, rfl, ⟨rfl, rfl⟩, .inr ⟨hready, rfl, .inl rfl⟩⟩
  | false =>
    rw [if_neg Bool.false_ne_true, hcfg]
    obtain ⟨found, hfound⟩ : ∃ found, find_hid_boot_eps (s.data.take n) 1 = some found := ⟨_, find_hid_boot_eps_eq _ _⟩
    simp only [hfound, Option.bind_eq_bind, Option.bind_some]
    cases found with
    | none => exact .ret ⟨hs, p.ctx_len, rfl, ⟨rfl, rfl⟩, .inr ⟨hready, rfl, .inr (.inl rfl)⟩⟩
    | some r =>
      obtain ⟨iface, ep, mps⟩ := r
      refine (configure_returns p.ctx_len hs.input_ctx (h hready _ hfound) ring (p.completes 1)).bind ?_
      rintro ⟨ctx, input_ctx, ok⟩ ⟨hctx, hinput, hok⟩
      dsimp only at hctx hinput hok
      subst hok
      refine .ret ?_
      dsimp only
      cases hcompletes : p.completes 1 with
      | true => exact ⟨⟨hs.data, hinput, hs.mmio⟩, hctx, rfl, ⟨rfl, rfl⟩, .inl ⟨_, rfl, rfl, rfl, rfl, rfl⟩⟩
      | false => exact ⟨⟨hs.data, hinput, hs.mmio⟩, hctx, rfl, ⟨rfl, rfl⟩, .inr ⟨rfl, rfl, .inr (.inr rfl)⟩⟩

theorem try_mouse_stops (hs : s.Sized) (hctx : ctx.length = DEV_CTX_LEN) (hn : n ≤ DATA_LEN)
    (h : ¬ NumberFits s.mouse_ready (find_hid_boot_eps (s.data.take n) 2)) : s.try_mouse p slot n ring ctx = none := by
  unfold NumberFits at h
  push Not at h
  obtain ⟨hready, r, hfound, hnumber⟩ := h
  have hcfg : slice? s.data 0 n = some (s.data.take n) := by
    rw [slice?_eq (Nat.zero_le n) (by rw [hs.data]; exact hn), List.drop_zero, Nat.sub_zero]
  have hmouse : (if slot = s.kbd_slot then ctx else p.ctx).length = DEV_CTX_LEN := by
    split_ifs
    · exact hctx
    · exact p.ctx_len
  unfold Xhci.try_mouse
  rw [hready, if_neg Bool.false_ne_true, hcfg]
  simp only [hfound, Option.bind_eq_bind, Option.bind_some]
  rw [configure_stops hmouse hnumber]
  rfl

theorem try_mouse_returns (hs : s.Sized) (hctx : ctx.length = DEV_CTX_LEN) (hn : n ≤ DATA_LEN)
    (h : NumberFits s.mouse_ready (find_hid_boot_eps (s.data.take n) 2)) :
    Returns (s.try_mouse p slot n ring ctx) fun t =>
      t.Sized ∧ (t.kbd_ready = s.kbd_ready ∧ t.kbd_mps = s.kbd_mps) ∧
        Taken s.mouse_ready s.mouse_mps t.mouse_ready t.mouse_mps (find_hid_boot_eps (s.data.take n) 2) (p.completes 2)
          (fun m => max 4 (min m 64)) := by
  have hcfg : slice? s.data 0 n = some (s.data.take n) := by
    rw [slice?_eq (Nat.zero_le n) (by rw [hs.data]; exact hn), List.drop_zero, Nat.sub_zero]
  have hmouse : (if slot = s.kbd_slot then ctx else p.ctx).length = DEV_CTX_LEN := by
    split_ifs
    · exact hctx
    · exact p.ctx_len
  unfold Xhci.try_mouse
  cases hready : s.mouse_ready with
  | true =>
    rw [if_pos rfl]
    exact .ret ⟨hs, ⟨rfl, rfl⟩, .inr ⟨hready, rfl, .inl rfl⟩⟩
  | false =>
    rw [if_neg Bool.false_ne_true, hcfg]
    obtain ⟨found, hfound⟩ : ∃ found, find_hid_boot_eps (s.data.take n) 2 = some found := ⟨_, find_hid_boot_eps_eq _ _⟩
    simp only [hfound, Option.bind_eq_bind, Option.bind_some]
    cases found with
    | none => exact .ret ⟨hs, ⟨rfl, rfl⟩, .inr ⟨hready, rfl, .inr (.inl rfl)⟩⟩
    | some r =>
      obtain ⟨iface, ep, mps⟩ := r
      refine (configure_returns hmouse hs.input_ctx (h hready _ hfound) ring (p.completes 2)).bind ?_
      rintro ⟨ctx, input_ctx, ok⟩ ⟨-, hinput, hok⟩
      dsimp only at hinput hok
      subst hok
      refine .ret ?_
      dsimp only
      cases hcompletes : p.completes 2 with
      | true => exact ⟨⟨hs.data, hinput, hs.mmio⟩, ⟨rfl, rfl⟩, .inl ⟨_, rfl, rfl, rfl, rfl, rfl⟩⟩
      | false => exact ⟨⟨hs.data, hinput, hs.mmio⟩, ⟨rfl, rfl⟩, .inr ⟨rfl, rfl, .inr (.inr rfl)⟩⟩

/-! ## Visits -/

variable {kbd_ring mouse_ring : UInt64}

/-- A port without a configuration changes at most `DATA`. -/
theorem try_hid_none (hs : s.Sized) (h : s.returned p = none) :
    ∃ data, data.length = DATA_LEN ∧ s.try_hid_on_port p kbd_ring mouse_ring = some { s with data := data } := by
  have hsame : ∃ data, data.length = DATA_LEN ∧ some s = some { s with data := data } := ⟨s.data, hs.data, rfl⟩
  unfold Xhci.try_hid_on_port
  unfold Xhci.returned at h
  dsimp only at h
  cases hreset : p.reset with
  | false => exact hsame
  | true =>
    rw [if_neg (by decide)]
    cases hslot : p.slot with
    | none => exact hsame
    | some slot =>
      dsimp only
      cases haddressed : p.addressed with
      | false => exact hsame
      | true =>
        rw [if_neg (by decide)]
        obtain ⟨data, n, hfetch, hdata, ⟨rfl, -⟩ | ⟨hheader, hconfig, rfl, -⟩⟩ := fetch_config_eq (p := p) hs
        · rw [hfetch]
          exact ⟨data, hdata, rfl⟩
        · rw [hfetch]
          simp only [Option.bind_eq_bind, Option.bind_some]
          rw [hreset, hslot, haddressed, hheader, hconfig] at h
          simp only [Option.isSome_some, Bool.true_and, ite_eq_right_iff, reduceCtorEq, imp_false, Bool.and_eq_true,
            decide_eq_true_eq, not_and] at h
          rw [List.getElem?_eq_getElem (by rw [hdata]; decide)]
          simp only [Option.bind_some]
          split_ifs with hshort hconfigured
          · exact ⟨data, hdata, rfl⟩
          · exact ⟨data, hdata, rfl⟩
          · exact absurd (Nat.not_lt.mp hshort) (h (by simpa using hconfigured))

/-- A port with one leads to the two parts. -/
theorem try_hid_some (hs : s.Sized) {cfg : Bytes} (h : s.returned p = some cfg) :
    ∃ slot data n, data.length = DATA_LEN ∧ n ≤ DATA_LEN ∧ cfg = data.take n ∧
      s.try_hid_on_port p kbd_ring mouse_ring =
        ({ s with data := data } : Xhci).try_keyboard p slot n kbd_ring >>= fun t =>
          t.1.try_mouse p slot n mouse_ring t.2 := by
  unfold Xhci.returned at h
  dsimp only at h
  split_ifs at h with hall
  simp only [Bool.and_eq_true, decide_eq_true_eq] at hall
  obtain ⟨⟨⟨⟨⟨⟨hreset, hslot⟩, haddressed⟩, hheader⟩, hconfig⟩, hconfigured⟩, hnine⟩ := hall
  obtain ⟨slot, hslot⟩ := Option.isSome_iff_exists.mp hslot
  obtain ⟨data, n, hfetch, hdata, ⟨-, hfails⟩ | ⟨-, -, rfl, hwritten⟩⟩ := fetch_config_eq (p := p) hs
  · rw [hheader, hconfig] at hfails
    exact absurd hfails (by decide)
  · refine ⟨slot, data, min (le16 (byteAt (written s.data 9 p.header.1) 2) (byteAt (written s.data 9 p.header.1) 3)).toNat 512,
      hdata, Nat.min_le_right _ _, ?_, ?_⟩
    · rw [← Option.some.inj h, hwritten]
    · unfold Xhci.try_hid_on_port
      rw [hreset, if_neg (by decide), hslot]
      dsimp only
      rw [haddressed, if_neg (by decide), hfetch]
      simp only [Option.bind_eq_bind, Option.bind_some]
      rw [if_neg (Nat.not_lt.mpr hnine), List.getElem?_eq_getElem (by rw [hdata]; decide), Option.bind_some, hconfigured,
        if_neg (by decide)]

/-- The endpoints fit as the driver looks for them. -/
theorem fits_some_iff {cfg : Bytes} (h : s.returned p = some cfg) (hready : ¬ (s.kbd_ready = true ∧ s.mouse_ready = true)) :
    s.Fits p ↔ (s.kbd_ready = false → EndpointFits (find_hid_boot_eps cfg 1) (p.completes 1)) ∧
      (s.mouse_ready = false → EndpointFits (find_hid_boot_eps cfg 2) (p.completes 2)) := by
  unfold Xhci.Fits
  constructor
  · exact fun hfits => hfits hready cfg h
  · intro hboth _ cfg' hcfg'
    rwa [← Option.some.inj (h.symm.trans hcfg')]

theorem endpoint_fits_iff {ready completes : Bool} {found : Option (Option HidEp)} :
    (ready = false → EndpointFits found completes) ↔
      NumberFits ready found ∧
        (ready = false → ∀ r, found = some (some r) → completes = true → r.2.2.toNat ≤ IRQ_LEN) := by
  unfold EndpointFits NumberFits
  constructor
  · intro h
    exact ⟨fun hready r hr => (h hready r hr).1, fun hready r hr => (h hready r hr).2⟩
  · intro h hready r hr
    exact ⟨h.1 hready r hr, h.2 hready r hr⟩

/-- A visit returns, and then the transfers fit if the endpoints do; or it stops, at an
endpoint that does not fit. -/
theorem visit_cases (hs : s.Sized) (hfit : s.PollsFit) :
    (∃ s', s.visit p kbd_ring mouse_ring = some s' ∧ s'.Sized ∧ (s'.PollsFit ↔ s.Fits p)) ∨
      s.visit p kbd_ring mouse_ring = none ∧ ¬ s.Fits p := by
  obtain ⟨hkbd, hmouse⟩ := (polls_fit_iff hs.mmio).mp hfit
  unfold Xhci.visit
  by_cases hready : s.kbd_ready = true ∧ s.mouse_ready = true
  · rw [if_pos (by rw [hready.1, hready.2]; rfl)]
    exact .inl ⟨s, rfl, hs, iff_of_true hfit fun h => absurd hready h⟩
  rw [if_neg (by rwa [Bool.and_eq_true])]
  cases hreturned : s.returned p with
  | none =>
    obtain ⟨data, hdata, hvisit⟩ : ∃ data, data.length = DATA_LEN ∧
        s.try_hid_on_port p kbd_ring mouse_ring = some { s with data := data } := try_hid_none hs hreturned
    refine .inl ⟨_, hvisit, ⟨hdata, hs.input_ctx, hs.mmio⟩, iff_of_true hfit ?_⟩
    intro _ cfg hcfg
    rw [hreturned] at hcfg
    cases hcfg
  | some cfg =>
    obtain ⟨slot, data, n, hdata, hn, hcfg, hvisit⟩ : ∃ slot data n, data.length = DATA_LEN ∧ n ≤ DATA_LEN ∧
        cfg = data.take n ∧ s.try_hid_on_port p kbd_ring mouse_ring =
          ({ s with data := data } : Xhci).try_keyboard p slot n kbd_ring >>= fun t =>
            t.1.try_mouse p slot n mouse_ring t.2 := try_hid_some hs hreturned
    rw [hvisit, fits_some_iff hreturned hready, endpoint_fits_iff, endpoint_fits_iff, hcfg]
    have hs₀ : ({ s with data := data } : Xhci).Sized := ⟨hdata, hs.input_ctx, hs.mmio⟩
    -- The keyboard is tried first. Where its endpoint has no bit, the mouse is not.
    by_cases hnumber : NumberFits s.kbd_ready (find_hid_boot_eps (data.take n) 1)
    · obtain ⟨t, ht, hs₁, hctx, hdata₁, ⟨hmouse_ready, hmouse_mps⟩, htaken⟩ : Returns
          (({ s with data := data } : Xhci).try_keyboard p slot n kbd_ring) _ := try_keyboard_returns hs₀ hn hnumber
      rw [ht, Option.bind_eq_bind, Option.bind_some]
      by_cases hnumber' : NumberFits s.mouse_ready (find_hid_boot_eps (data.take n) 2)
      · have hnumber₁ : NumberFits t.1.mouse_ready (find_hid_boot_eps (t.1.data.take n) 2) := by
          rw [hmouse_ready, hdata₁]
          exact hnumber'
        obtain ⟨u, hu, hs₂, ⟨hkbd_ready, hkbd_mps⟩, htaken'⟩ : Returns (t.1.try_mouse p slot n mouse_ring t.2) _ :=
          try_mouse_returns hs₁ hctx hn hnumber₁
        rw [← hkbd_ready, ← hkbd_mps] at htaken
        rw [hmouse_ready, hmouse_mps, hdata₁] at htaken'
        refine .inl ⟨u, hu, hs₂, ?_⟩
        rw [polls_fit_iff hs₂.mmio, htaken.fits_iff kbd_clamp hkbd, htaken'.fits_iff mouse_clamp hmouse]
        simp only [hnumber, hnumber', true_and]
      · have hnumber₁ : ¬ NumberFits t.1.mouse_ready (find_hid_boot_eps (t.1.data.take n) 2) := by
          rw [hmouse_ready, hdata₁]
          exact hnumber'
        exact .inr ⟨try_mouse_stops hs₁ hctx hn hnumber₁, fun h => hnumber' h.2.1⟩
    · exact .inr ⟨by rw [try_keyboard_stops hs₀ hn hnumber]; rfl, fun h => hnumber h.1.1⟩

end Parts

/-! ## The ports -/

/-- A port with the two rings. -/
structure Visit where
  port : PortDevice
  kbd_ring : UInt64
  mouse_ring : UInt64

/-- A visit that stops the driver leaves what was there. -/
def Xhci.step (s : Xhci) (v : Visit) : Xhci := (s.visit v.port v.kbd_ring v.mouse_ring).getD s

/-- A visit stays inside the buffers, and so do the transfers that are polled after it. -/
def Xhci.Safe (s : Xhci) (v : Visit) : Prop :=
  ∃ s', s.visit v.port v.kbd_ring v.mouse_ring = some s' ∧ s'.PollsFit

theorem safe_iff {s : Xhci} (hs : s.Sized) (hfit : s.PollsFit) (v : Visit) : s.Safe v ↔ s.Fits v.port := by
  unfold Xhci.Safe
  rcases visit_cases hs hfit with ⟨s', hvisit, -, hiff⟩ | ⟨hvisit, hfits⟩
  · rw [hvisit, ← hiff]
    constructor
    · rintro ⟨t, ht, h⟩
      rwa [Option.some.inj ht]
    · exact fun h => ⟨s', rfl, h⟩
  · rw [hvisit]
    refine iff_of_false ?_ hfits
    rintro ⟨t, ht, -⟩
    cases ht

/-- A port whose endpoints fit leaves the driver as it has to be. -/
theorem step_keeps {s : Xhci} (v : Visit) (h : s.Sized ∧ s.PollsFit) (hfits : s.Fits v.port) :
    (s.step v).Sized ∧ (s.step v).PollsFit := by
  unfold Xhci.step
  rcases visit_cases h.1 h.2 with ⟨s', hvisit, hsized, hiff⟩ | ⟨-, hnot⟩
  · rw [hvisit]
    exact ⟨hsized, hiff.mpr hfits⟩
  · exact absurd hfits hnot

theorem start_keeps : Xhci.start.Sized ∧ Xhci.start.PollsFit := by
  have hsized : Xhci.start.Sized := ⟨List.length_replicate, List.length_replicate, rfl⟩
  refine ⟨hsized, (polls_fit_iff hsized.mmio).mpr ⟨?_, ?_⟩⟩
  · intro h
    cases h
  · intro h
    cases h

/-- A keyboard whose endpoint for reports is number 4. -/
def keyboard_at_four : PortDevice where
  reset := true
  slot := some 1
  addressed := true
  header := ([9, 2, 25, 0], true)
  config := ([9, 2, 25, 0, 1, 1, 0, 0, 50, 9, 4, 0, 0, 1, 3, 1, 1, 0, 7, 5, 0x84, 3, 8, 0], true)
  configured := true
  ctx := List.replicate DEV_CTX_LEN 0
  ctx_len := List.length_replicate
  completes := fun _ => true

end EveOS.Usb
