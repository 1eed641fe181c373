/-
Enumeration: `init` of `kernel/src/uhci.rs` and of `kernel/src/ohci.rs`.

A device that was reset answers at address 0, and gets an address of its own. If it
is a hub, the driver resets what is behind its ports one after the other and does the
same with each, so how deep it goes is up to the devices. What ends it is the counter
of addresses, which is handed through all of it and never given back: there are 127.

Everything outside is arbitrary: what each transfer brings, or that it fails, and the
state of the root ports.
-/
import EveOS.Lib.Fallible
import EveOS.Lib.LittleEndian
import EveOS.Usb.Descriptors
import EveOS.Usb.Hid

set_option autoImplicit false

namespace EveOS.Hid

open EveOS.Usb

def BUF_DATA_LEN : Nat := 512
def HUB_PORT_RESET : UInt16 := 4
def HUB_C_PORT_RESET : UInt16 := 20

/-- What a transfer comes to: whether it went through, the length the controller
reports, and what stands in the buffer. -/
structure Reply where
  done : Bool
  actual : Nat
  data : Nat → UInt8

/-- The replies to the transfers in their order; which root ports are connected, and
which can be reset; and how many the OHCI controller says there are. -/
structure Outside where
  reply : Nat → Reply
  connected : Nat → Bool
  reset : Nat → Bool
  ndp : UInt8

/-- The driver, its buffer `BUF_DATA`, and the transfers it made: the address and the
setup packet of each. -/
structure Hc where
  usb : State
  buf_data : Nat → UInt8
  transfers : List (UInt8 × Bytes)

section Driver

variable (host : Host) (env : Outside)

/-- It returns how much came, and what. The OHCI driver does not ask how much. -/
def control_transfer (addr : UInt8) (setup : Bytes) (data_in : Option Nat) : Fallible Hc (Nat × (Nat → UInt8)) :=
  fun s =>
    let r := env.reply s.transfers.length
    let s := { s with transfers := s.transfers ++ [(addr, setup)] }
    if r.done then
      let n :=
        match data_in, host with
        | none, _ => 0
        | some n, .uhci => min r.actual n
        | some n, .ohci => n
      (s, some (n, r.data))
    else (s, none)

/-- A transfer of up to `n` bytes into `BUF_DATA`. -/
def data_transfer (addr : UInt8) (setup : Bytes) (n : Nat) : Fallible Hc Nat := fun s =>
  let r := env.reply s.transfers.length
  let t := control_transfer host env addr setup (some n) s
  ({ t.1 with buf_data := fun i => if i < n then r.data i else s.buf_data i }, t.2.map Prod.fst)

/-- `BUF_DATA[i]`. -/
def buf_data (i : Nat) : Fallible Hc UInt8 := fun s => (s, some (s.buf_data i))

/-- `&BUF_DATA[..n]`. -/
def buf_data_front (n : Nat) : Fallible Hc Bytes := fun s => (s, some ((List.range n).map s.buf_data))

def hub_get_port_status (hub port : UInt8) : Fallible Hc Nat := do
  let r ← control_transfer host env hub [0xA3, 0, 0, 0, port, 0, 4, 0] (some 4)
  if r.1 < 4 then Fallible.fail else return leNat [r.2 0, r.2 1, r.2 2, r.2 3]

def hub_set_port_feature (hub port : UInt8) (feature : UInt16) : Fallible Hc Unit := do
  let _ ← control_transfer host env hub
    [0x23, 0x03, (feature &&& 0xFF).toUInt8, (feature >>> 8).toUInt8, port, 0, 0, 0] none
  return ()

def hub_clear_port_feature (hub port : UInt8) (feature : UInt16) : Fallible Hc Unit := do
  let _ ← control_transfer host env hub
    [0x23, 0x01, (feature &&& 0xFF).toUInt8, (feature >>> 8).toUInt8, port, 0, 0, 0] none
  return ()

/-- `n` rounds of the wait for the change bit. -/
def wait_port_reset (hub port : UInt8) : Nat → Fallible Hc Unit
  | 0 => Fallible.fail
  | n + 1 => do
    let st ← hub_get_port_status host env hub port
    if st.testBit 20 then
      let _ ← (hub_clear_port_feature host env hub port HUB_C_PORT_RESET).attempt
      return ()
    else wait_port_reset hub port n

@[irreducible] def RESET_SPIN : Nat := 500000

def hub_wait_port_reset (hub port : UInt8) : Fallible Hc Unit := wait_port_reset host env hub port RESET_SPIN

def hub_read_nports (hub_addr : UInt8) : Fallible Hc UInt8 := do
  let r ← control_transfer host env hub_addr [0xA0, 0x06, 0, 0x29, 0, 0, 9, 0] (some 9)
  if r.1 < 3 then Fallible.fail else return r.2 2

/-- The search always returns something (`find_hid_boot_eps_eq`). -/
def hid_boot_eps (cfg : Bytes) (protocol : UInt8) : Option HidEp := (find_hid_boot_eps cfg protocol).join

/-- The interface of a device: kind, number, endpoint and packet size. -/
abbrev HidBoot := HidKind × HidEp

def load_config_tuple (addr : UInt8) : Fallible Hc (Bool × Option HidBoot) := do
  let n ← data_transfer host env addr [0x80, 0x06, 0, 0x01, 0, 0, 18, 0] 18
  if n < 18 then Fallible.fail
  else
    let dev_class ← buf_data 4
    let n9 ← data_transfer host env addr [0x80, 0x06, 0, 0x02, 0, 0, 9, 0] 9
    if n9 < 9 then Fallible.fail
    else
      let total := (le16 (← buf_data 2) (← buf_data 3)).toNat
      let total := max 9 (min total BUF_DATA_LEN)
      let got ← data_transfer host env addr
        [0x80, 0x06, 0, 0x02, 0, 0, UInt8.ofNat (total % 256), UInt8.ofNat (total / 256 % 256)] total
      if got < 9 then Fallible.fail
      else
        let cfg ← buf_data_front got
        let is_hub := dev_class == 9 || (config_has_hub_interface cfg).getD false
        let hid :=
          match hid_boot_eps cfg 1, hid_boot_eps cfg 2 with
          | some r, _ => some (.keyboard, r)
          | none, some r => some (.mouse, r)
          | none, none => none
        return (is_hub, hid)

def configure_hid_boot (addr : UInt8) (hid : HidBoot) : Fallible Hc Unit := do
  let cfg_val ← buf_data 5
  let _ ← control_transfer host env addr [0x00, 0x09, cfg_val, 0, 0, 0, 0, 0] none
  let _ ← control_transfer host env addr [0x21, 0x0B, 0, 0, hid.2.1, 0, 0, 0] none
  fun s => ({ s with usb := s.usb.configure_hid_boot ⟨addr, hid.2.2.1, hid.2.2.2, hid.1⟩ }, some ())

/-- From `SET_ADDRESS` to what is known of the device. -/
def address_device (assign_addr : UInt8) : Fallible Hc (Bool × Option HidBoot) := do
  let _ ← control_transfer host env 0 [0x00, 0x05, assign_addr, 0, 0, 0, 0, 0] none
  load_config_tuple host env assign_addr

/-- A hub is configured; it says how many ports it has. -/
def configure_hub (addr : UInt8) : Fallible Hc UInt8 := do
  let cfg_val ← buf_data 5
  let _ ← control_transfer host env addr [0x00, 0x09, cfg_val, 0, 0, 0, 0, 0] none
  hub_read_nports host env addr

/-- Whether a device behind a port of a hub is there and reset. -/
def reset_hub_port (hub port : UInt8) : Fallible Hc Bool := do
  let st ← (hub_get_port_status host env hub port).attempt
  if (st.getD 0).testBit 0 then
    let _ ← (hub_set_port_feature host env hub port HUB_PORT_RESET).attempt
    let reset ← (hub_wait_port_reset host env hub port).attempt
    return reset.isSome
  else return false

/-- The driver and the next free address. -/
abbrev Enum := Hc × UInt8

/-- `next_free.saturating_add(1)`. -/
def next_address (a : UInt8) : UInt8 := if a = 255 then 255 else a + 1

/-- The loop over the ports of a hub; `enumerate s child` is the recursive call. -/
def hub_ports (enumerate : Enum → UInt8 → Option Enum) (hub : UInt8) : List UInt8 → Enum → Option Enum
  | [], e => some e
  | port :: ports, e =>
    let r := reset_hub_port host env hub port e.1
    if r.2 = some true then
      let child := e.2
      if 127 < child then some (r.1, child)
      else do
        let e ← enumerate (r.1, next_address child) child
        hub_ports enumerate hub ports e
    else hub_ports enumerate hub ports (r.1, e.2)

/-- With a bound on how deep it goes. What it returns is thrown away everywhere. -/
def enumerate_device_at_zero : Nat → Enum → UInt8 → Option Enum
  | 0, _, _ => none
  | depth + 1, e, assign_addr =>
    if assign_addr = 0 ∨ 127 < assign_addr then some e
    else
      let r := address_device host env assign_addr e.1
      match r.2 with
      | none => some (r.1, e.2)
      | some (true, _) =>
        let r := configure_hub host env assign_addr r.1
        match r.2 with
        | none => some (r.1, e.2)
        | some nports =>
          if nports = 0 ∨ 16 < nports then some (r.1, e.2)
          else
            hub_ports host env (enumerate_device_at_zero depth) assign_addr
              ((List.range nports.toNat).map fun p => UInt8.ofNat (p + 1)) (r.1, e.2)
      | some (false, none) => some (r.1, e.2)
      | some (false, some hid) => some ((configure_hid_boot host env assign_addr hid r.1).1, e.2)

/-- There are 127 addresses, so it goes no deeper. -/
def DEPTH : Nat := 128

/-- The loop over the root ports. The drivers ask in another order whether there is an
address left. -/
def root_ports : List Nat → Enum → Option Enum
  | [], e => some e
  | port :: ports, e =>
    if !env.connected port then root_ports ports e
    else
      let enumerate (e : Enum) : Option Enum := do
        let e ← enumerate_device_at_zero host env DEPTH (e.1, next_address e.2) e.2
        root_ports ports e
      match host with
      | .uhci => if 127 < e.2 then some e else if !env.reset port then root_ports ports e else enumerate e
      | .ohci => if !env.reset port then root_ports ports e else if 127 < e.2 then some e else enumerate e

/-- The number of root ports. -/
def root_nports : Nat :=
  match host with
  | .uhci => 2
  | .ohci => if env.ndp = 0 then 2 else min env.ndp.toNat 15

/-- `init`, with a controller. -/
def init_ports : Option Hc := do
  let e ← root_ports host env (List.range (root_nports host env)) (⟨.cleared true, fun _ => 0, []⟩, 1)
  let s := e.1
  return if 0 < s.usb.mice.length ∨ s.usb.kbd_ready = true then s else { s with usb := { s.usb with base := false } }

end Driver

/-! ## What is issued and what is recorded -/

/-- The address in a `SET_ADDRESS` request. -/
def set_address (t : UInt8 × Bytes) : Option UInt8 := if t.2.take 2 = [0x00, 0x05] then t.2[2]? else none

/-- The addresses that were given out, in their order. -/
def addresses (transfers : List (UInt8 × Bytes)) : List UInt8 := transfers.filterMap set_address

/-- The addresses of the mice, and that of the keyboard. -/
def recorded (s : State) : List UInt8 := s.mice.map MouseSlot.addr ++ if s.kbd_ready then [s.kbd_addr] else []

/-- What the requests other than `SET_ADDRESS` leave alone. -/
def seen (s : Hc) : State × List UInt8 := (s.usb, addresses s.transfers)

section Requests

variable {host : Host} {env : Outside} {addr port : UInt8} {setup : Bytes}

open Fallible

theorem control_transfer_seen (data_in : Option Nat) (s : Hc) :
    seen (control_transfer host env addr setup data_in s).1 =
      (s.usb, addresses s.transfers ++ (set_address (addr, setup)).toList) := by
  have hstate : (control_transfer host env addr setup data_in s).1 =
      { s with transfers := s.transfers ++ [(addr, setup)] } := by
    unfold control_transfer
    dsimp only
    split_ifs <;> rfl
  rw [hstate, seen, addresses, addresses, List.filterMap_append, List.filterMap_cons]
  cases set_address (addr, setup) <;> rfl

/-- Any other request. -/
theorem control_transfer_keeps (h : set_address (addr, setup) = none) (data_in : Option Nat) :
    Keeps seen (control_transfer host env addr setup data_in) := by
  intro s
  rw [control_transfer_seen, h, Option.toList_none, List.append_nil]
  rfl

theorem data_transfer_keeps (h : set_address (addr, setup) = none) (n : Nat) :
    Keeps seen (data_transfer host env addr setup n) := control_transfer_keeps h (some n)

theorem buf_data_keeps (i : Nat) : Keeps seen (buf_data i) := fun _ => rfl

theorem get_port_status_keeps : Keeps seen (hub_get_port_status host env addr port) :=
  (control_transfer_keeps (if_neg (by simp)) _).bind fun _ => .ite (.fail _) (.pure _ _)

theorem set_port_feature_keeps (feature : UInt16) : Keeps seen (hub_set_port_feature host env addr port feature) :=
  (control_transfer_keeps (if_neg (by simp)) _).bind fun _ => .pure _ _

theorem clear_port_feature_keeps (feature : UInt16) :
    Keeps seen (hub_clear_port_feature host env addr port feature) :=
  (control_transfer_keeps (if_neg (by simp)) _).bind fun _ => .pure _ _

theorem wait_port_reset_keeps (n : Nat) : Keeps seen (wait_port_reset host env addr port n) := by
  induction n with
  | zero => exact .fail _
  | succ n ih =>
    apply get_port_status_keeps.bind
    intro st
    refine .ite ?_ ih
    exact (clear_port_feature_keeps _).attempt.bind fun _ => .pure _ _

theorem reset_hub_port_keeps : Keeps seen (reset_hub_port host env addr port) := by
  apply get_port_status_keeps.attempt.bind
  intro st
  refine .ite ?_ (.pure _ _)
  apply (set_port_feature_keeps _).attempt.bind
  intro _
  exact (wait_port_reset_keeps _).attempt.bind fun _ => .pure _ _

theorem configure_hub_keeps : Keeps seen (configure_hub host env addr) := by
  apply (buf_data_keeps 5).bind
  intro cfg_val
  apply (control_transfer_keeps (if_neg (by simp)) none).bind
  intro _
  exact (control_transfer_keeps (if_neg (by simp)) _).bind fun _ => .ite (.fail _) (.pure _ _)

theorem load_config_tuple_keeps : Keeps seen (load_config_tuple host env addr) := by
  apply (data_transfer_keeps (if_neg (by simp)) _).bind
  intro n
  refine .ite (.fail _) ?_
  apply (buf_data_keeps 4).bind
  intro dev_class
  apply (data_transfer_keeps (if_neg (by simp)) _).bind
  intro n9
  refine .ite (.fail _) ?_
  apply (buf_data_keeps 2).bind
  intro lo
  apply (buf_data_keeps 3).bind
  intro hi
  apply (data_transfer_keeps (if_neg (by simp)) _).bind
  intro got
  refine .ite (.fail _) ?_
  exact Keeps.bind (fun _ => rfl) fun cfg => .pure _ _

/-- The address is given out, whatever becomes of the device. -/
theorem address_device_seen (s : Hc) :
    seen (address_device host env addr s).1 = (s.usb, addresses s.transfers ++ [addr]) := by
  have hissued : set_address (0, [0x00, 0x05, addr, 0, 0, 0, 0, 0]) = some addr := rfl
  have hfirst : seen (control_transfer host env 0 [0x00, 0x05, addr, 0, 0, 0, 0, 0] none s).1 = _ :=
    control_transfer_seen none s
  rw [hissued] at hfirst
  show seen (andThen _ _ s).1 = _
  unfold andThen
  cases hval : (control_transfer host env 0 [0x00, 0x05, addr, 0, 0, 0, 0, 0] none s).2 with
  | none => exact hfirst
  | some r => exact (load_config_tuple_keeps _).trans hfirst

/-- The device is recorded, or a request fails. -/
theorem configure_hid_boot_seen (hid : HidBoot) (s : Hc) :
    seen (configure_hid_boot host env addr hid s).1 = seen s ∨
      seen (configure_hid_boot host env addr hid s).1 =
        (s.usb.configure_hid_boot ⟨addr, hid.2.2.1, hid.2.2.2, hid.1⟩, addresses s.transfers) := by
  have hconfig : seen (control_transfer host env addr [0x00, 0x09, s.buf_data 5, 0, 0, 0, 0, 0] none s).1 = seen s :=
    control_transfer_keeps (if_neg (by simp)) none s
  have hproto : ∀ s', seen (control_transfer host env addr [0x21, 0x0B, 0, 0, hid.2.1, 0, 0, 0] none s').1 = seen s' :=
    fun s' => control_transfer_keeps (if_neg (by simp)) none s'
  show seen (andThen (control_transfer host env addr [0x00, 0x09, s.buf_data 5, 0, 0, 0, 0, 0] none) _ s).1 = _ ∨
    seen (andThen (control_transfer host env addr [0x00, 0x09, s.buf_data 5, 0, 0, 0, 0, 0] none) _ s).1 = _
  unfold andThen
  cases (control_transfer host env addr [0x00, 0x09, s.buf_data 5, 0, 0, 0, 0, 0] none s).2 with
  | none => exact .inl hconfig
  | some r =>
    generalize (control_transfer host env addr [0x00, 0x09, s.buf_data 5, 0, 0, 0, 0, 0] none s).1 = s₁ at hconfig ⊢
    have hproto := hproto s₁
    show seen (andThen (control_transfer host env addr [0x21, 0x0B, 0, 0, hid.2.1, 0, 0, 0] none) _ s₁).1 = _ ∨
      seen (andThen (control_transfer host env addr [0x21, 0x0B, 0, 0, hid.2.1, 0, 0, 0] none) _ s₁).1 = _
    unfold andThen
    cases (control_transfer host env addr [0x21, 0x0B, 0, 0, hid.2.1, 0, 0, 0] none s₁).2 with
    | none => exact .inl (hproto.trans hconfig)
    | some r' =>
      have hboth := Prod.ext_iff.mp (hproto.trans hconfig)
      right
      refine Prod.ext ?_ hboth.2
      exact congrArg (State.configure_hid_boot · _) hboth.1

end Requests

/-! ## The counter -/

/-- The addresses below `n` were given out, one after the other, and what is recorded has
one of them each. -/
structure Counted (s : Hc) (n : Nat) : Prop where
  pos : 1 ≤ n
  le : n ≤ 128
  issued : addresses s.transfers = (List.range (n - 1)).map fun i => UInt8.ofNat (i + 1)
  below : ∀ a ∈ recorded s.usb, a.toNat < n
  distinct : (recorded s.usb).Nodup
  mice : s.usb.mice.length ≤ MAX_USB_MICE
  configured : ∃ found : List Found, s.usb = found.foldl State.configure_hid_boot (.cleared true)

section Counter

variable {host : Host} {env : Outside} {s s' : Hc} {n : Nat}

theorem Counted.of_seen (h : Counted s n) (hseen : seen s' = seen s) : Counted s' n := by
  obtain ⟨husb, hissued⟩ := Prod.ext_iff.mp hseen
  unfold seen at husb hissued
  dsimp only at husb hissued
  exact ⟨h.pos, h.le, hissued.trans h.issued, husb ▸ h.below, husb ▸ h.distinct, husb ▸ h.mice,
    husb ▸ h.configured⟩

/-- The next address is given out. -/
theorem Counted.issue (h : Counted s n) (hn : n ≤ 127)
    (hseen : seen s' = (s.usb, addresses s.transfers ++ [UInt8.ofNat n])) : Counted s' (n + 1) := by
  obtain ⟨husb, hissued⟩ := Prod.ext_iff.mp hseen
  unfold seen at husb hissued
  dsimp only at husb hissued
  have hpos := h.pos
  refine ⟨by omega, by omega, ?_, ?_, husb ▸ h.distinct, husb ▸ h.mice, husb ▸ h.configured⟩
  · have hlast : n + 1 - 1 = (n - 1) + 1 := by omega
    have hself : n - 1 + 1 = n := by omega
    rw [hissued, h.issued, hlast, List.range_succ, List.map_append, List.map_singleton, hself]
  · intro a ha
    rw [husb] at ha
    exact Nat.lt_succ_of_lt (h.below a ha)

/-- What recording a device adds. -/
theorem recorded_configure (usb : State) (f : Found) :
    recorded (usb.configure_hid_boot f) = recorded usb ∨
      (recorded (usb.configure_hid_boot f)).Perm (f.addr :: recorded usb) := by
  unfold State.configure_hid_boot
  cases f.kind with
  | mouse =>
    dsimp only
    unfold State.add_mouse_slot
    split_ifs with hfull
    · exact .inl rfl
    · right
      unfold recorded
      dsimp only
      rw [List.map_append, List.map_singleton, List.append_assoc, List.singleton_append]
      exact List.perm_middle
  | keyboard =>
    dsimp only
    split_ifs with hready
    · exact .inl rfl
    · right
      unfold recorded
      dsimp only
      rw [if_pos rfl, if_neg hready, List.append_nil]
      exact List.perm_append_singleton _ _

theorem mice_configure {usb : State} (h : usb.mice.length ≤ MAX_USB_MICE) (f : Found) :
    (usb.configure_hid_boot f).mice.length ≤ MAX_USB_MICE := by
  unfold State.configure_hid_boot
  cases f.kind with
  | mouse =>
    dsimp only
    unfold State.add_mouse_slot
    split_ifs with hfull
    · exact h
    · show (usb.mice ++ _).length ≤ _
      rw [List.length_append, List.length_singleton]
      omega
  | keyboard =>
    dsimp only
    split_ifs
    · exact h
    · exact h

/-- The device that got the last address is recorded. -/
theorem Counted.record {f : Found} (h : Counted s (n + 1)) (hnew : ∀ a ∈ recorded s.usb, a.toNat < n)
    (hf : f.addr.toNat = n) (hseen : seen s' = (s.usb.configure_hid_boot f, addresses s.transfers)) :
    Counted s' (n + 1) := by
  obtain ⟨husb, hissued⟩ := Prod.ext_iff.mp hseen
  unfold seen at husb hissued
  dsimp only at husb hissued
  refine ⟨h.pos, h.le, hissued.trans h.issued, ?_, ?_, husb ▸ mice_configure h.mice f, ?_⟩
  · rw [husb]
    intro a ha
    rcases recorded_configure s.usb f with hsame | hmore
    · rw [hsame] at ha
      exact h.below a ha
    · rcases List.mem_cons.mp (hmore.mem_iff.mp ha) with rfl | hold
      · omega
      · exact h.below a hold
  · rw [husb]
    rcases recorded_configure s.usb f with hsame | hmore
    · rw [hsame]
      exact h.distinct
    · rw [hmore.nodup_iff, List.nodup_cons]
      refine ⟨fun hmem => ?_, h.distinct⟩
      have hlt := hnew f.addr hmem
      omega
  · obtain ⟨found, hfound⟩ := h.configured
    refine ⟨found ++ [f], ?_⟩
    rw [husb, hfound, List.foldl_append]
    rfl

theorem next_address_toNat {a : UInt8} (h : a.toNat ≤ 127) : (next_address a).toNat = a.toNat + 1 := by
  have hne : a ≠ 255 := by
    rintro rfl
    exact absurd h (by decide)
  have hone : (1 : UInt8).toNat = 1 := rfl
  unfold next_address
  rw [if_neg hne, UInt8.toNat_add]
  omega

/-- What enumeration does with the counter. -/
def Counts (n : Nat) (e : Enum) : Prop := Counted e.1 e.2.toNat ∧ n ≤ e.2.toNat

/-- The ports of a hub, one after the other. -/
theorem hub_ports_returns {enumerate : Enum → UInt8 → Option Enum} {m : Nat}
    (hrec : ∀ s a, Counted s a.toNat → a.toNat ≤ 127 → m ≤ a.toNat →
      Returns (enumerate (s, next_address a) a) (Counts (a.toNat + 1)))
    (hub : UInt8) (ports : List UInt8) {e : Enum} (he : Counts m e) :
    Returns (hub_ports host env enumerate hub ports e) (Counts m) := by
  induction ports generalizing e with
  | nil => exact .ret he
  | cons port ports ih =>
    rw [hub_ports]
    have hcounted : Counted (reset_hub_port host env hub port e.1).1 e.2.toNat := he.1.of_seen (reset_hub_port_keeps e.1)
    dsimp only
    split_ifs with hreset hfull
    · exact .ret ⟨hcounted, he.2⟩
    · have hle : e.2.toNat ≤ 127 := by
        rw [UInt8.lt_iff_toNat_lt] at hfull
        exact Nat.not_lt.mp hfull
      refine Returns.bind (hrec _ _ hcounted hle he.2) fun e' he' => ih ⟨he'.1, ?_⟩
      have hm := he.2
      have hmore := he'.2
      omega
    · exact ih ⟨hcounted, he.2⟩

/-- **One device, and all behind it.** Each one deeper has a larger address. -/
theorem enumerate_returns {depth : Nat} {a : UInt8} (h : Counted s a.toNat) (ha : a.toNat ≤ 127)
    (hdepth : 128 ≤ a.toNat + depth) :
    Returns (enumerate_device_at_zero host env depth (s, next_address a) a) (Counts (a.toNat + 1)) := by
  induction depth generalizing s a with
  | zero => omega
  | succ depth ih =>
    have hpos := h.pos
    have hlegal : ¬ (a = 0 ∨ 127 < a) := by
      rw [UInt8.lt_iff_toNat_lt, ← UInt8.toNat_inj]
      show ¬ (a.toNat = 0 ∨ 127 < a.toNat)
      omega
    have hself : UInt8.ofNat a.toNat = a := UInt8.ofNat_toNat
    have hissued : Counted (address_device host env a s).1 (a.toNat + 1) :=
      h.issue ha (by rw [address_device_seen, hself])
    have husb : (address_device host env a s).1.usb = s.usb := (Prod.ext_iff.mp (address_device_seen s)).1
    have hnext := next_address_toNat ha
    have hcounts : ∀ s', Counted s' (a.toNat + 1) → Counts (a.toNat + 1) (s', next_address a) := by
      intro s' hs'
      unfold Counts
      dsimp only
      rw [hnext]
      exact ⟨hs', Nat.le_refl _⟩
    rw [enumerate_device_at_zero, if_neg hlegal]
    dsimp only
    cases hdevice : (address_device host env a s).2 with
    | none => exact .ret (hcounts _ hissued)
    | some device =>
      obtain ⟨is_hub, hid⟩ := device
      cases is_hub with
      | true =>
        have hhub : Counted (configure_hub host env a (address_device host env a s).1).1 (a.toNat + 1) :=
          hissued.of_seen (configure_hub_keeps _)
        dsimp only
        cases hports : (configure_hub host env a (address_device host env a s).1).2 with
        | none => exact .ret (hcounts _ hhub)
        | some nports =>
          dsimp only
          split_ifs with hbad
          · exact .ret (hcounts _ hhub)
          · -- the recursive calls have an address behind this one
            apply hub_ports_returns ?_ a _ (hcounts _ hhub)
            intro s' c hs' hc hmore
            exact ih hs' hc (by omega)
      | false =>
        cases hid with
        | none => exact .ret (hcounts _ hissued)
        | some hid =>
          refine .ret (hcounts _ ?_)
          have hnew : ∀ b ∈ recorded (address_device host env a s).1.usb, b.toNat < a.toNat := by
            rw [husb]
            exact h.below
          rcases configure_hid_boot_seen hid (address_device host env a s).1 with hsame | hrecorded
          · exact hissued.of_seen hsame
          · exact hissued.record hnew rfl hrecorded

/-- The root ports, one after the other. -/
theorem root_ports_returns (ports : List Nat) {e : Enum} (he : Counted e.1 e.2.toNat) :
    Returns (root_ports host env ports e) fun e' => Counted e'.1 e'.2.toNat := by
  induction ports generalizing e with
  | nil => exact .ret he
  | cons port ports ih =>
    have hmore : ¬ 127 < e.2 → Returns
        (do
          let e ← enumerate_device_at_zero host env DEPTH (e.1, next_address e.2) e.2
          root_ports host env ports e) fun e' => Counted e'.1 e'.2.toNat := by
      intro hfree
      rw [UInt8.lt_iff_toNat_lt] at hfree
      have hdepth : 128 ≤ e.2.toNat + DEPTH := Nat.le_add_left 128 _
      exact Returns.bind (enumerate_returns he (Nat.not_lt.mp hfree) hdepth) fun e' he' => ih he'.1
    cases host with
    | uhci =>
      rw [root_ports]
      dsimp only
      split_ifs with hconnected hfull hreset
      · exact ih he
      · exact .ret he
      · exact ih he
      · exact hmore hfull
    | ohci =>
      rw [root_ports]
      dsimp only
      split_ifs with hconnected hreset hfull
      · exact ih he
      · exact ih he
      · exact .ret he
      · exact hmore hfull

theorem counted_start : Counted ⟨.cleared true, fun _ => 0, []⟩ 1 where
  pos := Nat.le_refl 1
  le := by decide
  issued := rfl
  below := fun a ha => absurd ha List.not_mem_nil
  distinct := List.nodup_nil
  mice := Nat.zero_le _
  configured := ⟨[], rfl⟩

/-- Addresses that were counted are legal, and there are no two of the same. -/
theorem Counted.legal (h : Counted s n) :
    (∀ a ∈ addresses s.transfers, 1 ≤ a.toNat ∧ a.toNat ≤ 127) ∧ (addresses s.transfers).Nodup := by
  have hle := h.le
  have hvalue : ∀ i < n - 1, (UInt8.ofNat (i + 1)).toNat = i + 1 := by
    intro i hi
    rw [UInt8.toNat_ofNat']
    omega
  rw [h.issued]
  constructor
  · intro a ha
    obtain ⟨i, hi, rfl⟩ := List.mem_map.mp ha
    rw [List.mem_range] at hi
    rw [hvalue i hi]
    omega
  · apply List.Nodup.map_on ?_ List.nodup_range
    intro i hi j hj hij
    rw [List.mem_range] at hi hj
    have hnat := congrArg UInt8.toNat hij
    rw [hvalue i hi, hvalue j hj] at hnat
    omega

/-- What enumeration leaves is what `init` makes of the interfaces it finds. -/
theorem init_ports_eq_init {host : Host} {env : Outside} {s : Hc} (h : init_ports host env = some s) :
    ∃ found, s.usb = init true found := by
  have hports : Returns (root_ports host env (List.range (root_nports host env)) (⟨.cleared true, fun _ => 0, []⟩, 1))
      fun e => Counted e.1 e.2.toNat := root_ports_returns _ counted_start
  obtain ⟨e, he, hcounted⟩ := hports
  obtain ⟨found, hfound⟩ := hcounted.configured
  unfold init_ports at h
  rw [he] at h
  refine ⟨found, ?_⟩
  unfold init
  rw [← Option.some.inj h, ← hfound]
  dsimp only
  split_ifs <;> rfl

/-- **Enumeration ends, with an address of its own for every device**, whatever is
attached and whatever fails. -/
theorem enumeration_ends (host : Host) (env : Outside) :
    ∃ s, init_ports host env = some s ∧
      (∀ a ∈ addresses s.transfers, 1 ≤ a.toNat ∧ a.toNat ≤ 127) ∧ (addresses s.transfers).Nodup ∧
      s.usb.mice.length ≤ 12 ∧ (s.usb.mice.map MouseSlot.addr).Nodup ∧
      (s.usb.kbd_ready = true → s.usb.kbd_addr ∉ s.usb.mice.map MouseSlot.addr) := by
  have hports : Returns (root_ports host env (List.range (root_nports host env)) (⟨.cleared true, fun _ => 0, []⟩, 1))
      fun e => Counted e.1 e.2.toNat := root_ports_returns _ counted_start
  obtain ⟨e, he, hcounted⟩ := hports
  have hlegal := hcounted.legal
  have hdistinct := hcounted.distinct
  unfold recorded at hdistinct
  rw [List.nodup_append'] at hdistinct
  have hkbd : e.1.usb.kbd_ready = true → e.1.usb.kbd_addr ∉ e.1.usb.mice.map MouseSlot.addr := by
    intro hready hmem
    have hdisjoint := hdistinct.2.2
    rw [hready, if_pos rfl] at hdisjoint
    exact hdisjoint hmem (List.mem_singleton_self _)
  unfold init_ports
  rw [he]
  refine ⟨_, rfl, ?_⟩
  split_ifs
  · exact ⟨hlegal.1, hlegal.2, hcounted.mice, hdistinct.1, hkbd⟩
  · exact ⟨hlegal.1, hlegal.2, hcounted.mice, hdistinct.1, hkbd⟩

end Counter

end EveOS.Hid
