/-
The polls of keyboard and mice: `kernel/src/uhci.rs` and `kernel/src/ohci.rs`.

Both drivers poll an endpoint with one transfer descriptor, which they wait for. The
descriptor says DATA0 or DATA1, and the device drops what does not agree with its own
count of transfers that went through.

The two drivers differ in the descriptor and in the wait (`interrupt_in`); what they
keep of their devices, and the polls, are the same. For what happens to the
descriptor only the values are given that the driver reads from it.
-/
import EveOS.Lib.Run

set_option autoImplicit false

namespace EveOS.Hid

def MAX_USB_MICE : Nat := 12

/-! ## A transfer -/

/-- What the controller and the device make of a descriptor: the `i`-th read of its
control word, and the bytes in the buffer. -/
structure Device where
  reads : Nat → UInt32
  buf : Vector UInt8 8

/-- What `interrupt_in` does: the word that names the endpoint, the word in the descriptor
that holds the data toggle, the toggle it leaves, and what it returns. -/
structure Transfer where
  target : UInt32
  word : UInt32
  toggle : Bool
  result : Except Unit Nat

/-- The first of `n` reads, from the `i`-th on, that ends a wait. -/
def spin (p : Nat → Bool) : (n i : Nat) → Option Nat
  | 0, _ => none
  | n + 1, i => if p i then some i else spin p n (i + 1)

/-! ### UHCI -/

namespace Uhci

def TD_CTRL_ACTIVE : UInt32 := (1 : UInt32) <<< 23
def PID_IN : UInt8 := 0x69

def td_token (pid addr endpoint : UInt8) (toggle : Bool) (len : Nat) : UInt32 :=
  let t := pid.toUInt32
  let t := t ||| ((addr &&& 0x7F).toUInt32 <<< 8)
  let t := t ||| ((endpoint &&& 0x0F).toUInt32 <<< 15)
  let t := if toggle then t ||| ((1 : UInt32) <<< 19) else t
  let explen : UInt32 := if len = 0 then 0x7FF else UInt32.ofNat ((len - 1) &&& 0x7FF)
  t ||| (explen <<< 21)

/-- The controller has not retired the descriptor. -/
def active (c : UInt32) : Bool := c &&& TD_CTRL_ACTIVE ≠ 0

/-- It retired it for a stall, or after three errors. -/
def stalled (c : UInt32) : Bool := c &&& ((1 : UInt32) <<< 22) ≠ 0

@[irreducible] def SPIN : Nat := 1200000

def wait_td_done (reads : Nat → UInt32) : Except Unit UInt32 :=
  match spin (fun i => !active (reads i)) SPIN 0 with
  | some i => if stalled (reads i) then .error () else .ok (reads i)
  | none => .error ()

def interrupt_in (addr ep : UInt8) (mps : UInt16) (buf_len : Nat) (toggle : Bool)
    (reads : Nat → UInt32) : Transfer :=
  let ep_num := ep &&& 0x0F
  let len := max (min buf_len mps.toNat) 1
  let word := td_token PID_IN addr ep_num toggle len
  let toggle := !toggle
  match wait_td_done reads with
  | .error () => ⟨word, word, toggle, .error ()⟩
  | .ok ctrl =>
    if stalled ctrl then ⟨word, word, !toggle, .error ()⟩
    else
      let actual := ((ctrl &&& 0x7FF).toNat + 1) &&& 0x7FF
      ⟨word, word, toggle, .ok (min actual len)⟩

end Uhci

/-! ### OHCI -/

namespace Ohci

def TD_CC : UInt32 := (0xF : UInt32) <<< 28
def TD_EC : UInt32 := (3 : UInt32) <<< 26
def TD_DI : UInt32 := (7 : UInt32) <<< 21
def TD_R : UInt32 := (1 : UInt32) <<< 18
def TD_DP_IN : UInt32 := (2 : UInt32) <<< 18
def TD_T_DATA0 : UInt32 := (2 : UInt32) <<< 24
def TD_T_DATA1 : UInt32 := (3 : UInt32) <<< 24

/-- The first word of `td_info`. -/
def td_info_dw0 (dp t : UInt32) : UInt32 := TD_CC ||| TD_EC ||| TD_DI ||| TD_R ||| dp ||| t

/-- The condition code. The controller sets it when it retires the descriptor, and
zero is the one without error. -/
def cc (v : UInt32) : UInt32 := (v >>> 28) &&& 0xF

@[irreducible] def SPIN : Nat := 4000000

/-- In the model it returns how often it has read the word. -/
def wait_td (reads : Nat → UInt32) : Except Unit Nat :=
  match spin (fun i => cc (reads i) != 0xF) SPIN 0 with
  | some i => if cc (reads i) = 0 then .ok (i + 1) else .error ()
  | none => .error ()

def interrupt_in (addr ep : UInt8) (mps : UInt16) (buf_len : Nat) (toggle : Bool)
    (reads : Nat → UInt32) : Transfer :=
  let n := max (min buf_len mps.toNat) 1
  let t := if toggle then TD_T_DATA1 else TD_T_DATA0
  let toggle := !toggle
  let word := td_info_dw0 TD_DP_IN t
  let fa := (addr &&& 0x7F).toUInt32
  let epn := (ep &&& 0xF).toUInt32
  let mpsz := min mps.toUInt32 0x7FF
  let ed_dw0 := fa ||| (epn <<< 7) ||| ((2 : UInt32) <<< 11) ||| (mpsz <<< 16)
  match wait_td reads with
  | .error () => ⟨ed_dw0, word, toggle, .error ()⟩
  | .ok k =>
    let ctrl := reads k
    if cc ctrl ≠ 0 then ⟨ed_dw0, word, !toggle, .error ()⟩
    else ⟨ed_dw0, word, toggle, .ok n⟩

end Ohci

/-! ### Either driver -/

inductive Host
  | uhci
  | ohci
  deriving DecidableEq

namespace Host

def interrupt_in : Host → UInt8 → UInt8 → UInt16 → Nat → Bool → (Nat → UInt32) → Transfer
  | .uhci => Uhci.interrupt_in
  | .ohci => Ohci.interrupt_in

/-- The controller takes the descriptor for one with DATA1. -/
def data1 : Host → UInt32 → Bool
  | .uhci, token => token.toBitVec.getLsbD 19
  | .ohci, dw0 => dw0.toBitVec.getLsbD 24

/-- The descriptor is retired without an error while the driver waits. -/
def Retired : Host → (Nat → UInt32) → Prop
  | .uhci, reads =>
    ∃ i < Uhci.SPIN, (∀ j < i, Uhci.active (reads j) = true) ∧ Uhci.active (reads i) = false ∧
      Uhci.stalled (reads i) = false
  | .ohci, reads =>
    ∃ i < Ohci.SPIN, (∀ j < i, Ohci.cc (reads j) = 0xF) ∧ Ohci.cc (reads i) = 0

/-- The transfer succeeds: neither stall nor error nor timeout. The OHCI driver looks at
the condition code once more than it waits for it. -/
def Success : Host → (Nat → UInt32) → Prop
  | .uhci, reads => Retired .uhci reads
  | .ohci, reads =>
    ∃ i < Ohci.SPIN, (∀ j < i, Ohci.cc (reads j) = 0xF) ∧ Ohci.cc (reads i) = 0 ∧
      Ohci.cc (reads (i + 1)) = 0

instance (host : Host) (reads : Nat → UInt32) : Decidable (host.Retired reads) := by
  cases host <;> exact inferInstanceAs (Decidable (∃ i < _, _))

instance (host : Host) (reads : Nat → UInt32) : Decidable (host.Success reads) := by
  cases host <;> exact inferInstanceAs (Decidable (∃ i < _, _))

end Host

/-! ## The devices of a driver -/

structure MouseSlot where
  addr : UInt8
  ep : UInt8
  mps : UInt16
  toggle : Bool
  present : Bool

/-- The statics of a driver. `base` says whether it has a controller (`IOBASE`, `MMIO`);
`mice` are the slots in use. -/
structure State where
  base : Bool
  mice : List MouseSlot
  kbd_addr : UInt8
  kbd_ep : UInt8
  kbd_mps : UInt16
  kbd_toggle : Bool
  kbd_ready : Bool
  hid_kbd_xfer_ok : Bool
  hid_mouse_xfer_ok : Bool
  kbd_usb_fails : UInt16
  mouse_usb_fails : UInt16

inductive HidKind
  | keyboard
  | mouse
  deriving DecidableEq

/-- An interface that enumeration finds. -/
structure Found where
  addr : UInt8
  ep_addr : UInt8
  mps : UInt16
  kind : HidKind

/-- The statics at the start of `init`. -/
def State.cleared (base : Bool) : State where
  base := base
  mice := []
  kbd_addr := 0
  kbd_ep := 0
  kbd_mps := 0
  kbd_toggle := false
  kbd_ready := false
  hid_kbd_xfer_ok := false
  hid_mouse_xfer_ok := false
  kbd_usb_fails := 0
  mouse_usb_fails := 0

def State.add_mouse_slot (s : State) (addr ep : UInt8) (mps : UInt16) : State :=
  if MAX_USB_MICE ≤ s.mice.length then s
  else { s with mice := s.mice ++ [⟨addr, ep, mps, false, true⟩] }

/-- `configure_hid_boot`, whose control transfers went through. -/
def State.configure_hid_boot (s : State) (f : Found) : State :=
  match f.kind with
  | .mouse => s.add_mouse_slot f.addr f.ep_addr (max 4 (min f.mps 64))
  | .keyboard =>
    if s.kbd_ready then s
    else
      { s with
        kbd_addr := f.addr
        kbd_ep := f.ep_addr
        kbd_mps := max f.mps 8
        kbd_toggle := false
        kbd_ready := true }

/-- `init`, where enumeration finds these interfaces. -/
def init (base : Bool) (found : List Found) : State :=
  let s := found.foldl State.configure_hid_boot (.cleared base)
  if 0 < s.mice.length ∨ s.kbd_ready = true then s else { s with base := false }

/-! ## The polls -/

def saturating_succ (n : UInt16) : UInt16 := if n = 0xFFFF then n else n + 1

/-- A poll: the statics behind it, the transfer it made, and the report. -/
structure Polled (α : Type) where
  state : State
  transfer : Option Transfer
  report : Option α

def poll_mouse_slot (host : Host) (s : State) (idx : Nat) (d : Device) :
    Polled (UInt8 × Int16 × Int16) :=
  if s.base = false then ⟨s, none, none⟩
  else
    match s.mice[idx]? with
    | none => ⟨s, none, none⟩
    | some slot =>
      if slot.present = false then ⟨s, none, none⟩
      else
        -- the slot gets the toggle of a transfer that succeeded only
        let x := host.interrupt_in slot.addr slot.ep slot.mps 8 slot.toggle d.reads
        match x.result with
        | .error () => ⟨{ s with mouse_usb_fails := saturating_succ s.mouse_usb_fails }, some x, none⟩
        | .ok n =>
          let s := { s with mice := s.mice.set idx { slot with toggle := x.toggle } }
          if n < 3 then
            ⟨{ s with mouse_usb_fails := saturating_succ s.mouse_usb_fails }, some x, none⟩
          else
            let buttons := d.buf[0] &&& 0x07
            let dx := d.buf[1].toInt8.toInt16
            let dy := -d.buf[2].toInt8.toInt16
            ⟨{ s with mouse_usb_fails := 0, hid_mouse_xfer_ok := true }, some x,
              some (buttons, dx, dy)⟩

def poll_keyboard_report (host : Host) (s : State) (d : Device) : Polled (Vector UInt8 8) :=
  if s.kbd_ready = false ∨ s.base = false then ⟨s, none, none⟩
  else
    -- the static is passed by reference
    let x := host.interrupt_in s.kbd_addr s.kbd_ep s.kbd_mps 8 s.kbd_toggle d.reads
    let s := { s with kbd_toggle := x.toggle }
    match x.result with
    | .error () => ⟨{ s with kbd_usb_fails := saturating_succ s.kbd_usb_fails }, some x, none⟩
    | .ok n =>
      if n < 8 then ⟨{ s with kbd_usb_fails := saturating_succ s.kbd_usb_fails }, some x, none⟩
      else ⟨{ s with kbd_usb_fails := 0, hid_kbd_xfer_ok := true }, some x, some d.buf⟩

inductive Poll
  | mouse (idx : Nat) (d : Device)
  | keyboard (d : Device)

def Poll.device : Poll → Device
  | .mouse _ d => d
  | .keyboard d => d

inductive Endpoint
  | mouse (idx : Nat)
  | keyboard
  deriving DecidableEq

def Poll.endpoint : Poll → Endpoint
  | .mouse idx _ => .mouse idx
  | .keyboard _ => .keyboard

def poll_step (host : Host) (s : State) : Poll → State
  | .mouse idx d => (poll_mouse_slot host s idx d).state
  | .keyboard d => (poll_keyboard_report host s d).state

/-- The transfer that a poll makes. -/
def poll_transfer (host : Host) (s : State) : Poll → Option Transfer
  | .mouse idx d => (poll_mouse_slot host s idx d).transfer
  | .keyboard d => (poll_keyboard_report host s d).transfer

/-! ## The waits -/

/-- A wait ends at the first read that meets its condition. -/
theorem spin_eq_some {p : Nat → Bool} {n i k : Nat} :
    spin p n i = some k ↔ (i ≤ k ∧ k < i + n) ∧ p k = true ∧ ∀ j, i ≤ j → j < k → p j = false := by
  induction n generalizing i with
  | zero =>
    simp only [spin]
    constructor
    · intro h
      cases h
    · rintro ⟨hk, -⟩
      omega
  | succ n ih =>
    rw [spin]
    by_cases hp : p i = true
    · rw [if_pos hp]
      constructor
      · intro h
        obtain rfl := Option.some.inj h
        exact ⟨⟨Nat.le_refl i, by omega⟩, hp, fun j hj hlt => absurd hlt (by omega)⟩
      · rintro ⟨⟨hik, -⟩, -, hbefore⟩
        by_contra hne
        have hlt : i < k := by
          rcases Nat.lt_or_eq_of_le hik with h | h
          · exact h
          · exact absurd (congrArg some h) hne
        rw [hbefore i (Nat.le_refl i) hlt] at hp
        cases hp
    · rw [if_neg hp, ih]
      constructor
      · rintro ⟨⟨hik, hkn⟩, hpk, hbefore⟩
        refine ⟨⟨by omega, by omega⟩, hpk, ?_⟩
        intro j hij hjk
        by_cases hj : j = i
        · rw [hj]
          exact eq_false_of_ne_true hp
        · exact hbefore j (by omega) hjk
      · rintro ⟨⟨hik, hkn⟩, hpk, hbefore⟩
        have hne : i ≠ k := by
          rintro rfl
          exact hp hpk
        exact ⟨⟨by omega, by omega⟩, hpk, fun j hij hjk => hbefore j (by omega) hjk⟩

namespace Uhci

variable {reads : Nat → UInt32}

theorem wait_td_done_ok (h : Host.Retired .uhci reads) :
    ∃ c, wait_td_done reads = .ok c ∧ stalled c = false := by
  obtain ⟨i, hi, hbefore, hactive, hstall⟩ := h
  have hspin : spin (fun i => !active (reads i)) SPIN 0 = some i := by
    rw [spin_eq_some]
    exact ⟨⟨by omega, by omega⟩, by simp [hactive], fun j _ hj => by simp [hbefore j hj]⟩
  refine ⟨reads i, ?_, hstall⟩
  rw [wait_td_done, hspin]
  simp [hstall]

theorem wait_td_done_error (h : ¬Host.Retired .uhci reads) : wait_td_done reads = .error () := by
  rw [wait_td_done]
  cases hspin : spin (fun i => !active (reads i)) SPIN 0 with
  | none => rfl
  | some i =>
    obtain ⟨hi, hactive, hbefore⟩ := spin_eq_some.mp hspin
    by_cases hstall : stalled (reads i) = true
    · simp [hstall]
    · -- the read would be the one that retires the descriptor
      refine absurd ⟨i, by omega, ?_, by simpa using hactive, by simpa using hstall⟩ h
      intro j hj
      simpa using hbefore j (Nat.zero_le j) hj

end Uhci

namespace Ohci

variable {reads : Nat → UInt32}

theorem wait_td_ok {i : Nat} (hi : i < SPIN) (hbefore : ∀ j < i, cc (reads j) = 0xF)
    (hcc : cc (reads i) = 0) : wait_td reads = .ok (i + 1) := by
  have hspin : spin (fun i => cc (reads i) != 0xF) SPIN 0 = some i := by
    rw [spin_eq_some]
    exact ⟨⟨by omega, by omega⟩, by simp [hcc], fun j _ hj => by simp [hbefore j hj]⟩
  rw [wait_td, hspin]
  simp [hcc]

theorem wait_td_error (h : ¬Host.Retired .ohci reads) : wait_td reads = .error () := by
  rw [wait_td]
  cases hspin : spin (fun i => cc (reads i) != 0xF) SPIN 0 with
  | none => rfl
  | some i =>
    obtain ⟨hi, -, hbefore⟩ := spin_eq_some.mp hspin
    by_cases hcc : cc (reads i) = 0
    · refine absurd ⟨i, by omega, ?_, hcc⟩ h
      intro j hj
      simpa using hbefore j (Nat.zero_le j) hj
    · simp [hcc]

end Ohci

/-! ## The toggle of one transfer -/

variable (host : Host) (addr ep : UInt8) (mps : UInt16) (len : Nat) (t : Bool)
  {reads : Nat → UInt32}

/-- The token holds the toggle, and no other field of it reaches its bit. -/
theorem td_token_toggle (pid : UInt8) :
    (Uhci.td_token pid addr ep t len).toBitVec.getLsbD 19 = t := by
  unfold Uhci.td_token
  cases t <;> simp

theorem td_info_toggle :
    (Ohci.td_info_dw0 Ohci.TD_DP_IN
      (if t then Ohci.TD_T_DATA1 else Ohci.TD_T_DATA0)).toBitVec.getLsbD 24 = t := by
  cases t <;> decide

/-- The transfer is made with the toggle that the driver was given. -/
theorem interrupt_in_word : host.data1 (host.interrupt_in addr ep mps len t reads).word = t := by
  cases host with
  | uhci =>
    have hword : (Uhci.interrupt_in addr ep mps len t reads).word =
        Uhci.td_token Uhci.PID_IN addr (ep &&& 0x0F) t (max (min len mps.toNat) 1) := by
      unfold Uhci.interrupt_in
      split
      · rfl
      · split <;> rfl
    show (Uhci.interrupt_in addr ep mps len t reads).word.toBitVec.getLsbD 19 = t
    rw [hword, td_token_toggle]
  | ohci =>
    have hword : (Ohci.interrupt_in addr ep mps len t reads).word =
        Ohci.td_info_dw0 Ohci.TD_DP_IN (if t then Ohci.TD_T_DATA1 else Ohci.TD_T_DATA0) := by
      unfold Ohci.interrupt_in
      dsimp only
      cases Ohci.wait_td reads with
      | error => rfl
      | ok k => rw [apply_ite Transfer.word, ite_self]
    show (Ohci.interrupt_in addr ep mps len t reads).word.toBitVec.getLsbD 24 = t
    rw [hword, td_info_toggle]

theorem Host.Success.retired {host : Host} (h : host.Success reads) : host.Retired reads := by
  cases host with
  | uhci => exact h
  | ohci =>
    obtain ⟨i, hi, hbefore, hcc, -⟩ := h
    exact ⟨i, hi, hbefore, hcc⟩

/-- A transfer that succeeds flips the toggle. -/
theorem interrupt_in_success (h : host.Success reads) :
    (∃ n, (host.interrupt_in addr ep mps len t reads).result = .ok n) ∧
      (host.interrupt_in addr ep mps len t reads).toggle = !t := by
  cases host with
  | uhci =>
    obtain ⟨c, hwait, hstall⟩ := Uhci.wait_td_done_ok h
    simp [Host.interrupt_in, Uhci.interrupt_in, hwait, hstall]
  | ohci =>
    obtain ⟨i, hi, hbefore, hcc, hagain⟩ := h
    have hwait := Ohci.wait_td_ok hi hbefore hcc
    simp [Host.interrupt_in, Ohci.interrupt_in, hwait, hagain]

/-- One whose descriptor is not retired in time, or with an error, flips it as well. -/
theorem interrupt_in_not_retired (h : ¬host.Retired reads) :
    (host.interrupt_in addr ep mps len t reads).result = .error () ∧
      (host.interrupt_in addr ep mps len t reads).toggle = !t := by
  cases host with
  | uhci =>
    have hwait := Uhci.wait_td_done_error h
    simp [Host.interrupt_in, Uhci.interrupt_in, hwait]
  | ohci =>
    have hwait := Ohci.wait_td_error h
    simp [Host.interrupt_in, Ohci.interrupt_in, hwait]

/-- The exit behind the wait is the one that puts it back. -/
theorem interrupt_in_late_error (h : host.Retired reads) (hfail : ¬host.Success reads) :
    (host.interrupt_in addr ep mps len t reads).result = .error () ∧
      (host.interrupt_in addr ep mps len t reads).toggle = t := by
  cases host with
  | uhci => exact absurd h hfail
  | ohci =>
    obtain ⟨i, hi, hbefore, hcc⟩ := h
    have hwait := Ohci.wait_td_ok hi hbefore hcc
    have hagain : Ohci.cc (reads (i + 1)) ≠ 0 := by
      intro hagain
      exact hfail ⟨i, hi, hbefore, hcc, hagain⟩
    simp [Host.interrupt_in, Ohci.interrupt_in, hwait, hagain]

/-- Whatever makes a transfer fail, the driver is told so. -/
theorem interrupt_in_failure (h : ¬host.Success reads) :
    (host.interrupt_in addr ep mps len t reads).result = .error () := by
  by_cases hret : host.Retired reads
  · exact (interrupt_in_late_error host addr ep mps len t hret h).1
  · exact (interrupt_in_not_retired host addr ep mps len t hret).1

end EveOS.Hid
