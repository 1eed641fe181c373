/-
The rings of the xHCI driver: `kernel/src/xhci_native.rs`.

The driver writes commands and transfers into rings of 64 blocks and reads events from
one, and a cycle bit in each block says whose it is. For the controller a block is 16
bytes long. The driver's type of a block has an alignment of 64 bytes, so that its
blocks are 64 bytes apart: they agree on the first block of a ring and on no other one
before the controller is four times as far. For an endpoint they do not even agree on
that one, since the pointer to its ring says nothing of the cycle bit.

The memory of a ring is counted in units of 16 bytes. It is zero at first, the bytes
between the driver's blocks as well, which it never writes.
-/
import EveOS.Lib.Run

set_option autoImplicit false

namespace EveOS.Usb

def TRB_NORMAL : UInt32 := 1
def TRB_SETUP : UInt32 := 2
def TRB_DATA : UInt32 := 3
def TRB_STATUS : UInt32 := 4
/-- The link to another part of a ring, which the driver does not know. -/
def TRB_LINK : UInt32 := 6

def TRB_TYPE_SHIFT : UInt32 := 10

def TRB_IOC : UInt32 := (1 : UInt32) <<< 5
def TRB_IDT : UInt32 := (1 : UInt32) <<< 6
def TRB_DIR_IN : UInt32 := (1 : UInt32) <<< 16

def CMD_ENABLE_SLOT : UInt32 := 9
def CMD_ADDRESS_DEVICE : UInt32 := 11
def CMD_CONFIGURE_EP : UInt32 := 12

def RING_CAP : Nat := 64

/-! ## Blocks -/

structure Trb where
  param : UInt64
  status : UInt32
  control : UInt32
  deriving DecidableEq

/-- What stands in memory that nobody wrote. -/
def Trb.zero : Trb := ⟨0, 0, 0⟩

def Trb.cycle (t : Trb) : Bool := t.control &&& 1 ≠ 0

def Trb.typ (t : Trb) : UInt32 := (t.control >>> TRB_TYPE_SHIFT) &&& 0x3F

/-- `size_of::<Trb>()`. -/
def SIZE_OF_TRB : Nat := 64

/-- What the controller takes for the size of a block. -/
def TRB_BYTES : Nat := 16

/-- The unit at which block `i` of the driver starts. -/
def slot_unit (i : Nat) : Nat := i * SIZE_OF_TRB / TRB_BYTES

def trb_cycle (c : Bool) : UInt32 := if c then 1 else 0

/-- The control word of a block. -/
def trb_control (cycle : Bool) (trb_type extra : UInt32) : UInt32 :=
  trb_cycle cycle ||| (trb_type <<< TRB_TYPE_SHIFT) ||| extra

/-! ## A ring from the driver to the controller -/

/-- The physical address of a ring, which is aligned as its blocks are. -/
structure Base where
  addr : UInt64
  aligned : addr &&& 63 = 0

/-- `enq` and `cycle` are the driver's, `deq`, `ccs` and `active` the controller's. The
lists say what was pushed, what was at the last doorbell, and what the controller
took. -/
structure Ring where
  base : Base
  mem : Nat → Trb
  enq : Nat
  cycle : Bool
  deq : Nat
  ccs : Bool
  active : Bool
  pushed : List Trb
  announced : List Trb
  consumed : List Trb

/-- An empty ring. The controller was told of it with `pointer`, whose lowest bit is its
cycle state. -/
def Ring.empty (base : Base) (pointer : UInt64) : Ring where
  base := base
  mem := fun _ => .zero
  enq := 0
  cycle := true
  deq := 0
  ccs := pointer &&& 1 ≠ 0
  active := false
  pushed := []
  announced := []
  consumed := []

namespace Ring

variable (r : Ring)

/-- `push_transfer`. -/
def push_transfer (trb_type : UInt32) (param : UInt64) (status extra : UInt32) : Ring :=
  let trb : Trb := ⟨param, status, trb_control r.cycle trb_type extra⟩
  let wraps := RING_CAP ≤ r.enq + 1
  { r with
    mem := Function.update r.mem (slot_unit r.enq) trb
    enq := if wraps then 0 else r.enq + 1
    cycle := if wraps then !r.cycle else r.cycle
    pushed := r.pushed ++ [trb] }

def doorbell : Ring := { r with active := true, announced := r.pushed }

/-- `push_cmd`, on the command ring. -/
def push_cmd (trb_type : UInt32) (param : UInt64) (status extra : UInt32) : Except Unit Ring :=
  if RING_CAP ≤ r.enq then .error ()
  else .ok (r.push_transfer trb_type param status (extra ||| TRB_IOC)).doorbell

/-- The controller looks at the next block. It stops at one that is not its own, follows
a link, and takes any other one. -/
def fetch : Ring :=
  let trb := r.mem r.deq
  if !r.active then r
  else if trb.cycle ≠ r.ccs then { r with active := false }
  else if trb.typ = TRB_LINK then
    { r with
      deq := ((trb.param &&& ~~~0xF) - r.base.addr).toNat / TRB_BYTES
      ccs := r.ccs ^^ decide (trb.control &&& 2 ≠ 0) }
  else { r with deq := r.deq + 1, consumed := r.consumed ++ [trb] }

/-- The controller takes what was pushed, in order and each once; when it stops, it has
taken what was there at the doorbell. -/
def Faithful : Prop :=
  r.consumed <+: r.pushed ∧ (r.active = false → r.announced <+: r.consumed)

instance : Decidable r.Faithful := inferInstanceAs (Decidable (_ ∧ _))

end Ring

/-! ### Commands -/

/-- The calls of `push_cmd`. -/
inductive Cmd
  | enable_slot
  | address_device (in_phys : UInt64) (port : UInt8)
  | configure_ep (in_phys : UInt64)

def Cmd.trb_type : Cmd → UInt32
  | .enable_slot => CMD_ENABLE_SLOT
  | .address_device _ _ => CMD_ADDRESS_DEVICE
  | .configure_ep _ => CMD_CONFIGURE_EP

def Cmd.param : Cmd → UInt64
  | .enable_slot => 0
  | .address_device in_phys port => in_phys ||| (port.toUInt64 <<< 16)
  | .configure_ep in_phys => in_phys

/-- The command ring behind `rings_init`. -/
def command_ring (base : Base) : Ring := .empty base (base.addr ||| 1)

inductive CmdEvent
  | push_cmd (c : Cmd)
  | fetch

def Ring.cmd_step (r : Ring) : CmdEvent → Ring
  | .push_cmd c =>
    match r.push_cmd c.trb_type c.param 0 0 with
    | .ok r' => r'
    | .error _ => r
  | .fetch => r.fetch

def CmdEvent.cmd? : CmdEvent → Option Cmd
  | .push_cmd c => some c
  | .fetch => none

/-- However the commands `cs` and the controller take turns. -/
def CommandsFaithful (base : Base) (cs : List Cmd) : Prop :=
  ∀ es : List CmdEvent, es.filterMap CmdEvent.cmd? = cs →
    Along Ring.cmd_step (fun r e => (r.cmd_step e).Faithful) (command_ring base) es

/-! ### Transfers -/

/-- The calls of `push_transfer`. -/
inductive Transfer
  | setup (setup_param : UInt64) (has_in : Bool)
  | data (data_phys : UInt64) (n : UInt32)
  | status (has_in : Bool)
  | normal (buf_phys : UInt64) (mps : UInt16)

def Ring.push (r : Ring) : Transfer → Ring
  | .setup setup_param has_in =>
    let trt : UInt32 := if has_in then 2 else 3
    r.push_transfer TRB_SETUP setup_param 8 (TRB_IDT ||| (trt <<< 16))
  | .data data_phys n => r.push_transfer TRB_DATA data_phys n TRB_DIR_IN
  | .status has_in =>
    let dir : UInt32 := if has_in then 1 else 2
    r.push_transfer TRB_STATUS 0 0 ((dir <<< 16) ||| TRB_IOC)
  | .normal buf_phys mps => r.push_transfer TRB_NORMAL buf_phys mps.toUInt32 (TRB_DIR_IN ||| TRB_IOC)

/-- The ring of an endpoint behind `set_ep_ring`. -/
def transfer_ring (base : Base) : Ring := .empty base base.addr

/-- `restart` is the start of a control transfer, or of the configuration of an endpoint.
The doorbell is rung behind the last block of a transfer. -/
inductive TransferEvent
  | restart
  | push_transfer (t : Transfer) (bell : Bool)
  | fetch

def Ring.transfer_step (r : Ring) : TransferEvent → Ring
  | .restart => { r with enq := 0, cycle := true }
  | .push_transfer t bell => if bell then (r.push t).doorbell else r.push t
  | .fetch => r.fetch

def TransferEvent.transfer? : TransferEvent → Option Transfer
  | .push_transfer t _ => some t
  | _ => none

/-- However the transfers `ts` and the controller take turns. -/
def TransfersFaithful (base : Base) (ts : List Transfer) : Prop :=
  ∀ es : List TransferEvent, es.filterMap TransferEvent.transfer? = ts →
    Along Ring.transfer_step (fun r e => (r.transfer_step e).Faithful) (transfer_ring base) es

/-! ## The event ring -/

/-- `enq`, `pcs` and `erdp` are the controller's, `EVT_DEQ` and `EVT_CYCLE` the driver's.
The lists say what was written and what was returned. -/
structure EventRing where
  mem : Nat → Trb
  enq : Nat
  pcs : Bool
  erdp : Nat
  EVT_DEQ : Nat
  EVT_CYCLE : Bool
  written : List Trb
  popped : List Trb

/-- The event ring behind `rings_init`. -/
def event_ring : EventRing where
  mem := fun _ => .zero
  enq := 0
  pcs := true
  erdp := 0
  EVT_DEQ := 0
  EVT_CYCLE := true
  written := []
  popped := []

def Trb.with_cycle (t : Trb) (c : Bool) : Trb := { t with control := (t.control &&& ~~~1) ||| trb_cycle c }

namespace EventRing

variable (r : EventRing)

/-- The controller writes an event, if the ring is not full. -/
def write (e : Trb) : EventRing :=
  let next := (r.enq + 1) % RING_CAP
  if next = r.erdp then r
  else
    { r with
      mem := Function.update r.mem r.enq (e.with_cycle r.pcs)
      enq := next
      pcs := if next = 0 then !r.pcs else r.pcs
      written := r.written ++ [e.with_cycle r.pcs] }

def event_ready : Bool := (r.mem (slot_unit r.EVT_DEQ)).cycle == r.EVT_CYCLE

def pop_event : EventRing × Trb :=
  let trb := r.mem (slot_unit r.EVT_DEQ)
  let wraps := RING_CAP ≤ r.EVT_DEQ + 1
  let deq := if wraps then 0 else r.EVT_DEQ + 1
  ({ r with
      EVT_DEQ := deq
      EVT_CYCLE := if wraps then !r.EVT_CYCLE else r.EVT_CYCLE
      erdp := deq * 16 / TRB_BYTES
      popped := r.popped ++ [trb] }, trb)

/-- A turn of the loop in `wait_event`. -/
def poll : EventRing := if r.event_ready then r.pop_event.1 else r

/-- What is returned is what was written, in order and each once; when no event is
ready, all were returned. -/
def Faithful : Prop := r.popped <+: r.written ∧ (r.event_ready = false → r.popped = r.written)

instance : Decidable r.Faithful := inferInstanceAs (Decidable (_ ∧ _))

end EventRing

inductive EvtEvent
  | write (e : Trb)
  | poll

def EventRing.step (r : EventRing) : EvtEvent → EventRing
  | .write e => r.write e
  | .poll => r.poll

def EvtEvent.event? : EvtEvent → Option Trb
  | .write e => some e
  | .poll => none

/-- However the controller with the events `evs` and the driver take turns. -/
def EventsFaithful (evs : List Trb) : Prop :=
  ∀ es : List EvtEvent, es.filterMap EvtEvent.event? = evs →
    Along EventRing.step (fun r e => (r.step e).Faithful) event_ring es

/-- The ring protocol, for these commands, transfers and events. -/
def RingsFaithful (base : Base) (cs : List Cmd) (ts : List Transfer) (evs : List Trb) : Prop :=
  CommandsFaithful base cs ∧ TransfersFaithful base ts ∧ EventsFaithful evs

/-! ## Bits -/

theorem or_one_and (a : UInt32) : (a ||| 1) &&& 1 = 1 := by
  apply UInt32.toBitVec_inj.1
  simp only [UInt32.toBitVec_and, UInt32.toBitVec_or]
  ext i hi
  simp
  grind

/-- On its first lap the driver sets the cycle bit. -/
theorem cycle_of_control (param : UInt64) (status trb_type extra : UInt32) :
    Trb.cycle ⟨param, status, trb_control true trb_type extra⟩ = true := by
  have hbit : (1 ||| trb_type <<< TRB_TYPE_SHIFT ||| extra) &&& 1 = 1 := by
    rw [UInt32.or_assoc, UInt32.or_comm, or_one_and]
  show decide ((1 ||| trb_type <<< TRB_TYPE_SHIFT ||| extra) &&& 1 ≠ 0) = true
  rw [hbit]
  decide

theorem with_cycle_cycle (t : Trb) : (t.with_cycle true).cycle = true := by
  show decide (((t.control &&& ~~~1) ||| 1) &&& 1 ≠ 0) = true
  rw [or_one_and]
  decide

/-- The pointer in the command register has the cycle bit set. -/
theorem command_ring_ccs (base : Base) : (command_ring base).ccs = true := by
  have hbit : (base.addr ||| 1) &&& 1 = 1 := by
    apply UInt64.toBitVec_inj.1
    simp only [UInt64.toBitVec_and, UInt64.toBitVec_or]
    ext i hi
    simp
    grind
  show decide ((base.addr ||| 1) &&& 1 ≠ 0) = true
  rw [hbit]
  decide

/-- The pointer in an endpoint context has not. -/
theorem transfer_ring_ccs (base : Base) : (transfer_ring base).ccs = false := by
  have hbit : base.addr &&& 1 = 0 := by
    have hmask : (63 : UInt64) &&& 1 = 1 := by decide
    rw [← hmask, ← UInt64.and_assoc, base.aligned, UInt64.zero_and]
  show decide (base.addr &&& 1 ≠ 0) = false
  rw [hbit]
  decide

/-! ## What the controller does -/

theorem fetch_takes {r : Ring} {t : Trb} (ht : r.mem r.deq = t) (hactive : r.active = true)
    (hcycle : t.cycle = r.ccs) (hlink : t.typ ≠ TRB_LINK) :
    r.fetch = { r with deq := r.deq + 1, consumed := r.consumed ++ [t] } := by
  unfold Ring.fetch
  dsimp only
  rw [ht, hactive, if_neg (by decide), if_neg (not_not.mpr hcycle), if_neg hlink]

theorem fetch_stops {r : Ring} {t : Trb} (ht : r.mem r.deq = t) (hcycle : t.cycle ≠ r.ccs) :
    r.fetch = { r with active := false } := by
  unfold Ring.fetch
  dsimp only
  rw [ht, if_pos hcycle]
  split_ifs with hidle
  · rw [← eq_false_of_ne_true (Bool.not_eq_true _ ▸ (Bool.not_eq_true' _).mp hidle)]
  · rfl

/-! ## The command ring -/

section Commands

variable {base : Base} {r : Ring} {c : Cmd}

/-- The block of a command, on the first lap. -/
def Cmd.trb (c : Cmd) : Trb := ⟨c.param, 0, trb_control true c.trb_type (0 ||| TRB_IOC)⟩

theorem Cmd.trb_cycle (c : Cmd) : c.trb.cycle = true := cycle_of_control _ _ _ _

theorem Cmd.trb_typ (c : Cmd) : c.trb.typ ≠ TRB_LINK := by
  have hcontrol : (trb_control true c.trb_type (0 ||| TRB_IOC) >>> TRB_TYPE_SHIFT) &&& 0x3F ≠ TRB_LINK := by
    cases c with
    | enable_slot => decide
    | address_device in_phys port => exact (by decide : (trb_control true CMD_ADDRESS_DEVICE (0 ||| TRB_IOC) >>>
        TRB_TYPE_SHIFT) &&& 0x3F ≠ TRB_LINK)
    | configure_ep in_phys => exact (by decide : (trb_control true CMD_CONFIGURE_EP (0 ||| TRB_IOC) >>>
        TRB_TYPE_SHIFT) &&& 0x3F ≠ TRB_LINK)
  exact hcontrol

/-- Nothing was pushed yet. -/
structure Ring.Fresh (r : Ring) : Prop where
  mem : ∀ i, r.mem i = .zero
  enq : r.enq = 0
  cycle : r.cycle = true
  deq : r.deq = 0
  ccs : r.ccs = true
  active : r.active = false
  pushed : r.pushed = []
  announced : r.announced = []
  consumed : r.consumed = []

/-- One command was pushed, and the controller stands in front of it or behind it. -/
structure Ring.Single (r : Ring) (t : Trb) : Prop where
  first : r.mem 0 = t
  second : r.mem 1 = .zero
  ccs : r.ccs = true
  pushed : r.pushed = [t]
  announced : r.announced = [t]
  place : r.deq = 0 ∧ r.consumed = [] ∧ r.active = true ∨ r.deq = 1 ∧ r.consumed = [t]

theorem command_ring_fresh (base : Base) : (command_ring base).Fresh :=
  ⟨fun _ => rfl, rfl, rfl, rfl, command_ring_ccs base, rfl, rfl, rfl, rfl⟩

/-- A command, before the ring wraps. -/
theorem cmd_step_push (hroom : r.enq + 1 < RING_CAP) (hcycle : r.cycle = true) (c : Cmd) :
    r.cmd_step (.push_cmd c) =
      { r with
        mem := Function.update r.mem (slot_unit r.enq) c.trb
        enq := r.enq + 1
        pushed := r.pushed ++ [c.trb]
        announced := r.pushed ++ [c.trb]
        active := true } := by
  dsimp only [Ring.cmd_step, Ring.push_cmd]
  rw [if_neg (by omega)]
  dsimp only [Ring.push_transfer, Ring.doorbell]
  rw [if_neg (by omega), if_neg (by omega), hcycle]
  rfl

theorem Ring.Fresh.push (h : r.Fresh) (c : Cmd) : (r.cmd_step (.push_cmd c)).Single c.trb := by
  have hroom : r.enq + 1 < RING_CAP := by
    rw [h.enq]
    decide
  have hunit : slot_unit 0 = 0 := rfl
  rw [cmd_step_push hroom h.cycle, h.enq, h.pushed, hunit]
  refine ⟨Function.update_self 0 c.trb r.mem, ?_, h.ccs, rfl, rfl, .inl ⟨h.deq, h.consumed, rfl⟩⟩
  show Function.update r.mem 0 c.trb 1 = _
  rw [Function.update_of_ne (by decide)]
  exact h.mem 1

theorem Ring.Fresh.fetch (h : r.Fresh) : r.fetch = r := by
  unfold Ring.fetch
  dsimp only
  rw [h.active]
  rfl

theorem Ring.Single.fetch (h : r.Single c.trb) : r.fetch.Single c.trb := by
  rcases h.place with ⟨hdeq, hconsumed, hactive⟩ | ⟨hdeq, hconsumed⟩
  · have ht : r.mem r.deq = c.trb := by rw [hdeq, h.first]
    rw [fetch_takes ht hactive (c.trb_cycle.trans h.ccs.symm) c.trb_typ, hdeq, hconsumed]
    exact ⟨h.first, h.second, h.ccs, h.pushed, h.announced, .inr ⟨rfl, rfl⟩⟩
  · have ht : r.mem r.deq = .zero := by rw [hdeq, h.second]
    rw [fetch_stops ht (by rw [h.ccs]; decide)]
    exact ⟨h.first, h.second, h.ccs, h.pushed, h.announced, .inr ⟨hdeq, hconsumed⟩⟩

/-- At most one command was pushed. -/
def Ring.AtMostOne (r : Ring) : Prop := r.Fresh ∨ ∃ c : Cmd, r.Single c.trb

theorem cmd_step_keeps (h : r.AtMostOne) {e : CmdEvent} (hfirst : e.cmd?.isSome = true → r.pushed.length < 1) :
    (r.cmd_step e).AtMostOne := by
  cases e with
  | push_cmd c =>
    rcases h with hfresh | ⟨c', hsingle⟩
    · exact .inr ⟨c, hfresh.push c⟩
    · have hlen := hfirst rfl
      rw [hsingle.pushed, List.length_singleton] at hlen
      exact absurd hlen (Nat.lt_irrefl 1)
  | fetch =>
    rcases h with hfresh | ⟨c', hsingle⟩
    · left
      show r.fetch.Fresh
      rw [hfresh.fetch]
      exact hfresh
    · exact .inr ⟨c', hsingle.fetch⟩

theorem Ring.AtMostOne.faithful (h : r.AtMostOne) : r.Faithful := by
  rcases h with hfresh | ⟨c, hsingle⟩
  · rw [Ring.Faithful, hfresh.consumed, hfresh.pushed, hfresh.announced]
    exact ⟨List.prefix_rfl, fun _ => List.prefix_rfl⟩
  · rw [Ring.Faithful, hsingle.pushed, hsingle.announced]
    rcases hsingle.place with ⟨-, hconsumed, hactive⟩ | ⟨-, hconsumed⟩
    · rw [hconsumed, hactive]
      exact ⟨List.nil_prefix, nofun⟩
    · rw [hconsumed]
      exact ⟨List.prefix_rfl, fun _ => List.prefix_rfl⟩

theorem cmd_step_pushed (r : Ring) (e : CmdEvent) :
    (r.cmd_step e).pushed.length ≤ r.pushed.length + e.cmd?.toList.length := by
  cases e with
  | push_cmd c =>
    unfold Ring.cmd_step Ring.push_cmd
    split_ifs
    · exact Nat.le_add_right _ _
    · show (r.pushed ++ [_]).length ≤ _
      rw [List.length_append]
      exact Nat.le_refl _
  | fetch =>
    unfold Ring.cmd_step Ring.fetch
    dsimp only
    split_ifs
    · exact Nat.le_refl _
    · exact Nat.le_refl _
    · exact Nat.le_refl _
    · exact Nat.le_refl _

/-- **One command is taken**, whatever the turns. -/
theorem commands_faithful_of_le (base : Base) {cs : List Cmd} (h : cs.length ≤ 1) :
    CommandsFaithful base cs := by
  intro es hes
  have hbudget : Along Ring.cmd_step (fun r e => e.cmd?.isSome = true → r.pushed.length < 1)
      (command_ring base) es := by
    refine along_budget CmdEvent.cmd? (fun r : Ring => r.pushed.length) cmd_step_pushed ?_
    rw [hes]
    exact Nat.le_trans (Nat.le_of_eq (Nat.zero_add _)) h
  refine along_of_invariant (I := Ring.AtMostOne) (fun _ _ hr hfirst => cmd_step_keeps hr hfirst) ?_ hbudget
    (.inl (command_ring_fresh base))
  exact fun _ _ hr hfirst => (cmd_step_keeps hr hfirst).faithful

/-- The second command is pushed before the controller comes to the first one. -/
theorem Ring.Fresh.push_push (h : r.Fresh) (c c' : Cmd) :
    ∃ two, (r.cmd_step (.push_cmd c)).cmd_step (.push_cmd c') = two ∧ two.mem two.deq = c.trb ∧
      two.mem (two.deq + 1) = .zero ∧ two.ccs = true ∧ two.active = true ∧
        two.announced = [c.trb, c'.trb] ∧ two.consumed = [] := by
  have hroom : 0 + 1 < RING_CAP ∧ 0 + 1 + 1 < RING_CAP := by decide
  have hunit : slot_unit 0 = 0 ∧ slot_unit (0 + 1) = 4 := by decide
  have hone := cmd_step_push (by rw [h.enq]; exact hroom.1) h.cycle c
  rw [h.enq, h.pushed, hunit.1] at hone
  rw [hone]
  refine ⟨_, cmd_step_push (by exact hroom.2) (by exact h.cycle) c', ?_, ?_, h.ccs, rfl, rfl, h.consumed⟩
  · show Function.update (Function.update r.mem 0 c.trb) (slot_unit (0 + 1)) c'.trb r.deq = _
    rw [hunit.2, h.deq, Function.update_of_ne (by decide), Function.update_self]
  · show Function.update (Function.update r.mem 0 c.trb) (slot_unit (0 + 1)) c'.trb (r.deq + 1) = _
    rw [hunit.2, h.deq, Function.update_of_ne (by decide), Function.update_of_ne (by decide)]
    exact h.mem 1

/-- **Of two only the first one is taken**: behind it the controller finds a block that is
not its own, and stops. -/
theorem Ring.Fresh.stuck (h : r.Fresh) (c c' : Cmd) :
    ¬ ((r.cmd_step (.push_cmd c)).cmd_step (.push_cmd c')).fetch.fetch.Faithful := by
  obtain ⟨two, htwo, hfirst, hsecond, hccs, hactive, hannounced, hconsumed⟩ := h.push_push c c'
  rw [htwo, fetch_takes hfirst hactive (c.trb_cycle.trans hccs.symm) c.trb_typ,
    fetch_stops hsecond (by rw [hccs]; decide)]
  rintro ⟨-, hstop⟩
  have hlen : two.announced.length ≤ (two.consumed ++ [c.trb]).length := (hstop rfl).length_le
  rw [hannounced, hconsumed] at hlen
  exact absurd hlen (Nat.not_le.mpr (Nat.lt_succ_self 1))

theorem commands_stuck (base : Base) (c c' : Cmd) (cs : List Cmd) : ¬ CommandsFaithful base (c :: c' :: cs) := by
  intro h
  have hes : ([.push_cmd c, .push_cmd c', .fetch, .fetch] ++ cs.map .push_cmd : List CmdEvent).filterMap
      CmdEvent.cmd? = c :: c' :: cs := by
    show c :: c' :: (cs.map CmdEvent.push_cmd).filterMap CmdEvent.cmd? = _
    rw [List.filterMap_map]
    exact congrArg (fun l => c :: c' :: l) List.filterMap_some
  obtain ⟨-, -, -, hlast, -⟩ := h _ hes
  exact (command_ring_fresh base).stuck c c' hlast

/-- **The commands of a ring that works**: at most one. -/
theorem commands_faithful_iff (base : Base) (cs : List Cmd) : CommandsFaithful base cs ↔ cs.length ≤ 1 := by
  constructor
  · intro h
    match cs with
    | [] => exact Nat.zero_le 1
    | [_] => exact Nat.le_refl 1
    | c :: c' :: cs => exact absurd h (commands_stuck base c c' cs)
  · exact commands_faithful_of_le base

end Commands

/-! ## The ring of an endpoint -/

section Transfers

variable {base : Base} {r : Ring}

/-- Nothing was pushed, and the doorbell not rung. -/
structure Ring.Silent (r : Ring) : Prop where
  active : r.active = false
  pushed : r.pushed = []
  announced : r.announced = []
  consumed : r.consumed = []

theorem transfer_ring_silent (base : Base) : (transfer_ring base).Silent := ⟨rfl, rfl, rfl, rfl⟩

theorem Ring.Silent.fetch (h : r.Silent) : r.fetch = r := by
  unfold Ring.fetch
  dsimp only
  rw [h.active]
  rfl

theorem transfer_step_keeps (h : r.Silent) {e : TransferEvent} (hnone : e.transfer?.isSome = false) :
    (r.transfer_step e).Silent := by
  cases e with
  | restart => exact ⟨h.active, h.pushed, h.announced, h.consumed⟩
  | push_transfer t bell => cases hnone
  | fetch =>
    show r.fetch.Silent
    rw [h.fetch]
    exact h

theorem Ring.Silent.faithful (h : r.Silent) : r.Faithful := by
  rw [Ring.Faithful, h.consumed, h.pushed, h.announced]
  exact ⟨List.prefix_rfl, fun _ => List.prefix_rfl⟩

/-- A transfer is one call of `push_transfer`. -/
theorem push_call (r : Ring) (t : Transfer) :
    ∃ trb_type param status extra, r.push t = r.push_transfer trb_type param status extra := by
  cases t with
  | setup setup_param has_in => exact ⟨_, _, _, _, rfl⟩
  | data data_phys n => exact ⟨_, _, _, _, rfl⟩
  | status has_in => exact ⟨_, _, _, _, rfl⟩
  | normal buf_phys mps => exact ⟨_, _, _, _, rfl⟩

theorem transfer_step_pushed (r : Ring) (e : TransferEvent) :
    (r.transfer_step e).pushed.length ≤ r.pushed.length + e.transfer?.toList.length := by
  cases e with
  | restart => exact Nat.le_refl _
  | push_transfer t bell =>
    obtain ⟨trb_type, param, status, extra, hcall⟩ := push_call r t
    have hlen : (r.push t).pushed.length = r.pushed.length + 1 := by
      rw [hcall]
      exact List.length_append
    dsimp only [Ring.transfer_step]
    split_ifs
    · exact Nat.le_of_eq hlen
    · exact Nat.le_of_eq hlen
  | fetch =>
    dsimp only [Ring.transfer_step, Ring.fetch]
    split_ifs
    · exact Nat.le_refl _
    · exact Nat.le_refl _
    · exact Nat.le_refl _
    · exact Nat.le_refl _

theorem transfers_faithful_nil (base : Base) : TransfersFaithful base [] := by
  intro es hes
  have hbudget : Along Ring.transfer_step (fun r e => e.transfer?.isSome = true → r.pushed.length < 0)
      (transfer_ring base) es := by
    refine along_budget TransferEvent.transfer? (fun r : Ring => r.pushed.length) transfer_step_pushed ?_
    rw [hes]
    exact Nat.le_refl 0
  have hnone : ∀ (r : Ring) (e : TransferEvent), (e.transfer?.isSome = true → r.pushed.length < 0) →
      e.transfer?.isSome = false :=
    fun r e hlt => eq_false_of_ne_true fun hsome => absurd (hlt hsome) (Nat.not_lt_zero _)
  refine along_of_invariant (I := Ring.Silent) (fun r e hr hlt => transfer_step_keeps hr (hnone r e hlt)) ?_
    hbudget (transfer_ring_silent base)
  exact fun r e hr hlt => (transfer_step_keeps hr (hnone r e hlt)).faithful

/-- **No transfer is taken**: the controller takes the first block for one that is not its
own. -/
theorem transfers_stuck (base : Base) (t : Transfer) (ts : List Transfer) :
    ¬ TransfersFaithful base (t :: ts) := by
  intro h
  have hes : ([.push_transfer t true, .fetch] ++ ts.map (.push_transfer · false) : List TransferEvent).filterMap
      TransferEvent.transfer? = t :: ts := by
    show t :: (ts.map (TransferEvent.push_transfer · false)).filterMap TransferEvent.transfer? = _
    rw [List.filterMap_map]
    exact congrArg (t :: ·) List.filterMap_some
  obtain ⟨-, hlast, -⟩ := h _ hes
  obtain ⟨trb_type, param, status, extra, hcall⟩ := push_call (transfer_ring base) t
  have hlast : ((transfer_ring base).push t).doorbell.fetch.Faithful := hlast
  rw [hcall] at hlast
  set one : Ring := ((transfer_ring base).push_transfer trb_type param status extra).doorbell with hone
  have hunit : slot_unit 0 = 0 := rfl
  have hmem : one.mem = Function.update (fun _ => Trb.zero) (slot_unit 0)
      ⟨param, status, trb_control true trb_type extra⟩ := rfl
  have hdeq : one.deq = 0 := rfl
  have hfirst : one.mem one.deq = ⟨param, status, trb_control true trb_type extra⟩ := by
    rw [hmem, hdeq, hunit, Function.update_self]
  have hccs : one.ccs = false := transfer_ring_ccs base
  rw [fetch_stops hfirst (by rw [cycle_of_control, hccs]; decide)] at hlast
  have hlen : one.announced.length ≤ one.consumed.length := (hlast.2 rfl).length_le
  exact absurd hlen (Nat.not_le.mpr Nat.one_pos)

theorem transfers_faithful_iff (base : Base) (ts : List Transfer) : TransfersFaithful base ts ↔ ts = [] := by
  constructor
  · intro h
    match ts with
    | [] => rfl
    | t :: ts => exact absurd h (transfers_stuck base t ts)
  · rintro rfl
    exact transfers_faithful_nil base

end Transfers

/-! ## The event ring -/

section Events

variable {r : EventRing}

/-- Nothing was written yet. -/
structure EventRing.Fresh (r : EventRing) : Prop where
  mem : ∀ i, r.mem i = .zero
  enq : r.enq = 0
  pcs : r.pcs = true
  erdp : r.erdp = 0
  deq : r.EVT_DEQ = 0
  cycle : r.EVT_CYCLE = true
  written : r.written = []
  popped : r.popped = []

/-- One event was written, and the driver stands in front of it or behind it. -/
structure EventRing.Single (r : EventRing) (t : Trb) : Prop where
  first : r.mem 0 = t
  next : r.mem 4 = .zero
  own : t.cycle = true
  cycle : r.EVT_CYCLE = true
  written : r.written = [t]
  place : r.EVT_DEQ = 0 ∧ r.popped = [] ∨ r.EVT_DEQ = 1 ∧ r.popped = [t]

theorem event_ring_fresh : event_ring.Fresh := ⟨fun _ => rfl, rfl, rfl, rfl, rfl, rfl, rfl, rfl⟩

theorem ready_eq {t : Trb} {i : Nat} (hdeq : r.EVT_DEQ = i) (ht : r.mem (slot_unit i) = t)
    (hcycle : r.EVT_CYCLE = true) : r.event_ready = t.cycle := by
  rw [EventRing.event_ready, hdeq, ht, hcycle, beq_true]

theorem EventRing.Fresh.not_ready (h : r.Fresh) : r.event_ready = false := ready_eq h.deq (h.mem _) h.cycle

theorem EventRing.Fresh.write_eq (h : r.Fresh) (e : Trb) :
    r.write e =
      { r with mem := Function.update r.mem 0 (e.with_cycle true), enq := 1, written := [e.with_cycle true] } := by
  unfold EventRing.write
  dsimp only
  rw [h.enq, h.erdp, h.pcs, h.written, if_neg (by decide), if_neg (by decide)]
  rfl

theorem EventRing.Fresh.write (h : r.Fresh) (e : Trb) : (r.write e).Single (e.with_cycle true) := by
  rw [h.write_eq]
  refine ⟨Function.update_self 0 (e.with_cycle true) r.mem, ?_, with_cycle_cycle e, h.cycle, rfl,
    .inl ⟨h.deq, h.popped⟩⟩
  show Function.update r.mem 0 (e.with_cycle true) 4 = _
  rw [Function.update_of_ne (by decide)]
  exact h.mem 4

variable {t : Trb}

theorem EventRing.Single.poll_eq (h : r.Single t) (hdeq : r.EVT_DEQ = 0) (hpopped : r.popped = []) :
    r.poll = { r with EVT_DEQ := 1, erdp := 1, popped := [t] } := by
  have hready : r.event_ready = true := (ready_eq hdeq h.first h.cycle).trans h.own
  have hunit : slot_unit 0 = 0 := rfl
  unfold EventRing.poll
  rw [hready, if_pos rfl]
  unfold EventRing.pop_event
  dsimp only
  rw [hdeq, hunit, h.first, hpopped, if_neg (by decide), if_neg (by decide)]
  rfl

/-- The event is returned, and then no other one is ready. -/
theorem EventRing.Single.poll (h : r.Single t) : r.poll.Single t := by
  rcases h.place with ⟨hdeq, hpopped⟩ | ⟨hdeq, hpopped⟩
  · rw [h.poll_eq hdeq hpopped]
    exact ⟨h.first, h.next, h.own, h.cycle, h.written, .inr ⟨rfl, rfl⟩⟩
  · have hready : r.event_ready = false := ready_eq hdeq h.next h.cycle
    unfold EventRing.poll
    rw [hready, if_neg Bool.false_ne_true]
    exact h

/-- At most one event was written. -/
def EventRing.AtMostOne (r : EventRing) : Prop := r.Fresh ∨ ∃ t, r.Single t

theorem event_step_keeps (h : r.AtMostOne) {e : EvtEvent} (hfirst : e.event?.isSome = true → r.written.length < 1) :
    (r.step e).AtMostOne := by
  cases e with
  | write e =>
    rcases h with hfresh | ⟨t, hsingle⟩
    · exact .inr ⟨_, hfresh.write e⟩
    · have hlen := hfirst rfl
      rw [hsingle.written, List.length_singleton] at hlen
      exact absurd hlen (Nat.lt_irrefl 1)
  | poll =>
    rcases h with hfresh | ⟨t, hsingle⟩
    · left
      show r.poll.Fresh
      unfold EventRing.poll
      rw [hfresh.not_ready, if_neg Bool.false_ne_true]
      exact hfresh
    · exact .inr ⟨t, hsingle.poll⟩

theorem EventRing.AtMostOne.faithful (h : r.AtMostOne) : r.Faithful := by
  rcases h with hfresh | ⟨t, hsingle⟩
  · rw [EventRing.Faithful, hfresh.popped, hfresh.written]
    exact ⟨List.prefix_rfl, fun _ => rfl⟩
  · rw [EventRing.Faithful, hsingle.written]
    rcases hsingle.place with ⟨hdeq, hpopped⟩ | ⟨-, hpopped⟩
    · rw [hpopped, ready_eq hdeq hsingle.first hsingle.cycle, hsingle.own]
      exact ⟨List.nil_prefix, nofun⟩
    · rw [hpopped]
      exact ⟨List.prefix_rfl, fun _ => rfl⟩

theorem event_step_written (r : EventRing) (e : EvtEvent) :
    (r.step e).written.length ≤ r.written.length + e.event?.toList.length := by
  cases e with
  | write e =>
    dsimp only [EventRing.step, EventRing.write]
    split_ifs
    · exact Nat.le_add_right _ _
    · exact Nat.le_of_eq List.length_append
    · exact Nat.le_of_eq List.length_append
  | poll =>
    dsimp only [EventRing.step, EventRing.poll, EventRing.pop_event]
    split_ifs
    · exact Nat.le_refl _
    · exact Nat.le_refl _
    · exact Nat.le_refl _

theorem events_faithful_of_le {evs : List Trb} (h : evs.length ≤ 1) : EventsFaithful evs := by
  intro es hes
  have hbudget : Along EventRing.step (fun r e => e.event?.isSome = true → r.written.length < 1) event_ring es := by
    refine along_budget EvtEvent.event? (fun r : EventRing => r.written.length) event_step_written ?_
    rw [hes]
    exact Nat.le_trans (Nat.le_of_eq (Nat.zero_add _)) h
  refine along_of_invariant (I := EventRing.AtMostOne) (fun _ _ hr hfirst => event_step_keeps hr hfirst) ?_ hbudget
    (.inl event_ring_fresh)
  exact fun _ _ hr hfirst => (event_step_keeps hr hfirst).faithful

/-- **Of two events only the first one is returned**: the second one stands where the
driver does not look. -/
theorem EventRing.Fresh.stuck (h : r.Fresh) (e e' : Trb) : ¬ ((r.write e).poll.write e').Faithful := by
  have hsingle := h.write e
  have hpoll : (r.write e).poll =
      { r.write e with EVT_DEQ := 1, erdp := 1, popped := [e.with_cycle true] } :=
    hsingle.poll_eq (by rw [h.write_eq]; exact h.deq) (by rw [h.write_eq]; exact h.popped)
  have hmem : (r.write e).mem 4 = .zero := hsingle.next
  have henq : (r.write e).enq = 1 := by rw [h.write_eq]
  rw [hpoll]
  generalize r.write e = one at hsingle hmem henq
  unfold EventRing.write
  dsimp only
  rw [henq, if_neg (by decide)]
  rintro ⟨-, hall⟩
  have hunit : slot_unit 1 = 4 := rfl
  have hlen : [e.with_cycle true].length = (one.written ++ [e'.with_cycle one.pcs]).length := by
    refine congrArg List.length (hall ?_)
    show (Trb.cycle (Function.update one.mem 1 (e'.with_cycle one.pcs) (slot_unit 1)) == one.EVT_CYCLE) = false
    rw [hunit, Function.update_of_ne (by decide), hmem, hsingle.cycle]
    rfl
  rw [hsingle.written] at hlen
  exact absurd hlen (Nat.ne_of_lt (Nat.lt_succ_self 1))

theorem events_stuck (e e' : Trb) (evs : List Trb) : ¬ EventsFaithful (e :: e' :: evs) := by
  intro h
  have hes : ([.write e, .poll, .write e'] ++ evs.map .write : List EvtEvent).filterMap EvtEvent.event? =
      e :: e' :: evs := by
    show e :: e' :: (evs.map EvtEvent.write).filterMap EvtEvent.event? = _
    rw [List.filterMap_map]
    exact congrArg (fun l => e :: e' :: l) List.filterMap_some
  obtain ⟨-, -, hlast, -⟩ := h _ hes
  exact event_ring_fresh.stuck e e' hlast

theorem events_faithful_iff (evs : List Trb) : EventsFaithful evs ↔ evs.length ≤ 1 := by
  constructor
  · intro h
    match evs with
    | [] => exact Nat.zero_le 1
    | [_] => exact Nat.le_refl 1
    | e :: e' :: evs => exact absurd h (events_stuck e e' evs)
  · exact events_faithful_of_le

end Events

/-- **When the rings work.** For all commands, transfers and events, controller and driver
keep to the ring protocol in whatever turns they take if and only if at most one command
is pushed, no transfer, and at most one event is written. -/
theorem rings_faithful_iff (base : Base) (cs : List Cmd) (ts : List Transfer) (evs : List Trb) :
    RingsFaithful base cs ts evs ↔ cs.length ≤ 1 ∧ ts = [] ∧ evs.length ≤ 1 :=
  and_congr (commands_faithful_iff base cs)
    (and_congr (transfers_faithful_iff base ts) (events_faithful_iff evs))

/-- The first two commands of the driver: behind `enable_slot` the controller stops, and
`address_device` is not taken. -/
theorem address_device_not_taken :
    let es : List CmdEvent := [.push_cmd .enable_slot, .fetch, .push_cmd (.address_device 0x4000 0), .fetch, .fetch]
    let r := run Ring.cmd_step (command_ring ⟨0x1000, by decide⟩) es
    r.consumed.map (·.typ) = [CMD_ENABLE_SLOT] ∧ r.pushed.map (·.typ) = [CMD_ENABLE_SLOT, CMD_ADDRESS_DEVICE] ∧
      r.active = false ∧ ¬ RingsFaithful ⟨0x1000, by decide⟩ [.enable_slot, .address_device 0x4000 0] [] [] := by
  refine ⟨by decide, by decide, by decide, ?_⟩
  intro h
  have hrun := h.1 [.push_cmd .enable_slot, .fetch, .push_cmd (.address_device 0x4000 0), .fetch, .fetch] rfl
  exact absurd hrun (by decide)

end EveOS.Usb
