/-
Shift keys: `kernel/src/ps2.rs`.

The controller translates to scan code set 1, in which the release of a key is its
code with bit 7 set. The comment above the table says "set 1 make codes with `0xF0`
break prefix", and this is what `poll_event` decodes; but the prefix belongs to set 2.
So a release is a key event with a code above 0x7F, which no character has, and a shift
key stays down for good. And the release of key 0x70 is the byte 0xF0: what comes next
is taken for a release.
-/
import EveOS.Lib.Bytes
import EveOS.Lib.Run

set_option autoImplicit false

namespace EveOS.Input

inductive Ps2Event
  | Key (code : UInt8) (shift : Bool)
  | BrowserScroll (lines : Int)
  | Mouse (buttons : UInt8) (dx dy : Int16)
  deriving DecidableEq

/-! ## The keyboard -/

/-- `KBD_RELEASE`, `KBD_E0_PREFIX`, `KBD_EXT_RELEASE`, `SHIFT_L` and `SHIFT_R`. -/
structure Kbd where
  release : Bool
  e0_prefix : Bool
  ext_release : Bool
  shift_l : Bool
  shift_r : Bool
  deriving DecidableEq

def Kbd.start : Kbd := ⟨false, false, false, false, false⟩

/-- What `poll_event` does with a byte of the keyboard. -/
def Kbd.take (k : Kbd) (b : UInt8) : Kbd × Option Ps2Event :=
  if b = 0xE0 then ({ k with e0_prefix := true }, none)
  else if k.e0_prefix then
    let k := { k with e0_prefix := false }
    if b = 0xF0 then ({ k with ext_release := true }, none)
    else if b = 0x48 then (k, some (.BrowserScroll (-3)))
    else if b = 0x50 then (k, some (.BrowserScroll 3))
    else (k, none)
  else if b = 0xF0 then ({ k with release := true }, none)
  else if k.release then
    let k := { k with release := false }
    if k.ext_release then ({ k with ext_release := false }, none)
    else if b = 0x2A then ({ k with shift_l := false }, none)
    else if b = 0x36 then ({ k with shift_r := false }, none)
    else (k, none)
  else if k.ext_release then ({ k with ext_release := false }, none)
  else if b = 0x2A then ({ k with shift_l := true }, none)
  else if b = 0x36 then ({ k with shift_r := true }, none)
  else (k, some (.Key b (k.shift_l || k.shift_r)))

/-- The arms with a character for each state of shift. -/
def SHIFTED : List (UInt8 × String × String) :=
  [(0x0B, ")", "0"), (0x0C, "_", "-"), (0x0D, "+", "="), (0x1A, "\x7b", "["), (0x1B, "\x7d", "]"),
    (0x27, ":", ";"), (0x28, "\x22", "\x27"), (0x29, "~", "\x60"), (0x33, "<", ","), (0x34, ">", "."),
    (0x35, "?", "/"), (0x2B, "|", "\\"),
    (0x10, "Q", "q"), (0x11, "W", "w"), (0x12, "E", "e"), (0x13, "R", "r"), (0x14, "T", "t"),
    (0x15, "Y", "y"), (0x16, "U", "u"), (0x17, "I", "i"), (0x18, "O", "o"), (0x19, "P", "p"),
    (0x1E, "A", "a"), (0x1F, "S", "s"), (0x20, "D", "d"), (0x21, "F", "f"), (0x22, "G", "g"),
    (0x23, "H", "h"), (0x24, "J", "j"), (0x25, "K", "k"), (0x26, "L", "l"),
    (0x2C, "Z", "z"), (0x2D, "X", "x"), (0x2E, "C", "c"), (0x2F, "V", "v"), (0x30, "B", "b"),
    (0x31, "N", "n"), (0x32, "M", "m")]

def scancode_set1_to_ascii (code : UInt8) (shift : Bool) : Option UInt8 :=
  if code = 0x1C then some 10
  else if code = 0x0E then some 8
  else if code = 0x39 then some 32
  else if 0x02 ≤ code ∧ code ≤ 0x0A then
    some (if shift then byteAt (ascii "!@#$%^&*(") (code - 0x02).toNat else 49 + (code - 0x02))
  else (SHIFTED.find? (·.1 == code)).map fun arm => byteAt (ascii (if shift then arm.2.1 else arm.2.2)) 0

/-! ## The mouse -/

/-- `MOUSE_PHASE`, `MOUSE_BUF` and `MOUSE_PKT_LEN`. -/
structure Mouse where
  phase : UInt8
  buf : Vector UInt8 4
  pkt_len : UInt8
  deriving DecidableEq

/-- With what `init` says of the mouse. -/
def Mouse.start (pkt_len : UInt8) : Mouse := ⟨0, .replicate 4 0, pkt_len⟩

/-- A movement, of which the packet holds the sign apart. -/
def movement (b : UInt8) (negative : Bool) : Int16 :=
  let d : Int16 := .ofNat b.toNat
  if negative then d ||| -256 else d

def finish_ps2_mouse_packet (buf : Vector UInt8 4) : Ps2Event :=
  let flags := buf.get 0
  let dx := movement (buf.get 1) (flags &&& 0x10 ≠ 0)
  let dy := movement (buf.get 2) (flags &&& 0x20 ≠ 0)
  .Mouse (flags &&& 0x07) dx (-dy)

/-- What `poll_event` does with a byte of the mouse. -/
def Mouse.take (m : Mouse) (b : UInt8) : Mouse × Option Ps2Event :=
  let pkt_len := min (max m.pkt_len 3) 4
  if m.phase = 0 then
    if b &&& 0x08 = 0 then (m, none)
    else ({ m with buf := m.buf.set 0 b, phase := 1 }, none)
  else if m.phase = 1 then ({ m with buf := m.buf.set 1 b, phase := 2 }, none)
  else if m.phase = 2 then
    let buf := m.buf.set 2 b
    if pkt_len > 3 then ({ m with buf := buf, phase := 3 }, none)
    else ({ m with buf := buf, phase := 0 }, some (finish_ps2_mouse_packet buf))
  else
    let buf := m.buf.set 3 b
    ({ m with buf := buf, phase := 0 }, some (finish_ps2_mouse_packet buf))

/-! ## Polling -/

/-- What the two ports say when `poll_event` reads them. -/
structure Ports where
  status : UInt8
  data : UInt8
  deriving DecidableEq

structure Ps2 where
  kbd : Kbd
  mouse : Mouse
  deriving DecidableEq

def Ps2.start (pkt_len : UInt8) : Ps2 := ⟨.start, .start pkt_len⟩

def Ps2.poll_event (s : Ps2) (p : Ports) : Ps2 × Option Ps2Event :=
  if p.status &&& 1 = 0 then (s, none)
  else if p.status &&& 0x20 = 0 then
    let r := s.kbd.take p.data
    ({ s with kbd := r.1 }, r.2)
  else
    let r := s.mouse.take p.data
    ({ s with mouse := r.1 }, r.2)

/-- There is a byte, and it comes from the keyboard. -/
def Ports.from_keyboard (p : Ports) : Bool := p.status &&& 1 ≠ 0 && p.status &&& 0x20 == 0

def keyboard_bytes (ports : List Ports) : Bytes := (ports.filter Ports.from_keyboard).map Ports.data

/-- What the polls that read a byte of the keyboard return. -/
def Ps2.keyboard_events (s : Ps2) : List Ports → List (Option Ps2Event)
  | [] => []
  | p :: ports =>
    let r := s.poll_event p
    if p.from_keyboard then r.2 :: r.1.keyboard_events ports else r.1.keyboard_events ports

/-! ## Keys -/

/-- A key of scan code set 1. -/
structure Key where
  extended : Bool
  make : UInt8
  make_lt : make < 0x80
  deriving DecidableEq

def LEFT_SHIFT : Key := ⟨false, 0x2A, by decide⟩
def RIGHT_SHIFT : Key := ⟨false, 0x36, by decide⟩

structure KeyEvent where
  key : Key
  press : Bool
  deriving DecidableEq

def KeyEvent.code (e : KeyEvent) : UInt8 := if e.press then e.key.make else e.key.make ||| 0x80

def KeyEvent.bytes (e : KeyEvent) : Bytes := if e.key.extended then [0xE0, e.code] else [e.code]

/-- The keys that are held. -/
abbrev Held := Key → Bool

def Held.none : Held := fun _ => false

def Held.after (h : Held) (e : KeyEvent) : Held := Function.update h e.key e.press

def Held.shift (h : Held) : Bool := h LEFT_SHIFT || h RIGHT_SHIFT

/-- What is said of an event that is returned for a byte of `e`. -/
def Faithful (h : Held) (e : KeyEvent) (code : UInt8) (shift : Bool) : Prop :=
  if e.press then shift = (h.after e).shift else scancode_set1_to_ascii code shift = Option.none

/-- It holds of all key events that are returned for the bytes of the keys. -/
def Tracks (h : Held) : List KeyEvent → List (Option Ps2Event) → Prop
  | [], _ => True
  | e :: es, returned =>
    (∀ code shift, some (.Key code shift) ∈ returned.take e.bytes.length → Faithful h e code shift) ∧
      Tracks (h.after e) es (returned.drop e.bytes.length)

/-- A release does not change whether a shift key is held, and its code is neither
of the prefixes. -/
def Recognised (h : Held) (e : KeyEvent) : Prop :=
  e.press = false → e.key.make ≠ 0x60 ∧ e.key.make ≠ 0x70 ∧ (h.after e).shift = h.shift

instance (h : Held) (e : KeyEvent) : Decidable (Recognised h e) := inferInstanceAs (Decidable (_ → _))

/-! ## Codes -/

theorem scancode_of_release {code : UInt8} (h : 0x80 ≤ code) (shift : Bool) :
    scancode_set1_to_ascii code shift = none := by
  have hne : ∀ c : UInt8, c < 0x80 → code ≠ c := fun c hc heq => absurd (heq ▸ h) (UInt8.not_le.mpr hc)
  have hfind : SHIFTED.find? (·.1 == code) = none := by
    have hsmall : ∀ arm ∈ SHIFTED, arm.1 < 0x80 := by decide
    apply List.find?_eq_none.mpr
    intro arm harm hcode
    exact hne arm.1 (hsmall arm harm) (beq_iff_eq.mp hcode).symm
  have hdigit : ¬ (0x02 ≤ code ∧ code ≤ 0x0A) := fun hc =>
    absurd (UInt8.le_trans h hc.2) (by decide)
  unfold scancode_set1_to_ascii
  rw [if_neg (hne _ (by decide)), if_neg (hne _ (by decide)), if_neg (hne _ (by decide)), if_neg hdigit, hfind]
  rfl

theorem break_code {m : UInt8} (hm : m < 0x80) : (m ||| 0x80).toNat = 128 + m.toNat := by
  have hlt : m.toNat < 2 ^ 7 := hm
  rw [UInt8.toNat_or, Nat.or_comm]
  exact (Nat.two_pow_add_eq_or_of_lt hlt 1).symm

theorem release_code_le {m : UInt8} (hm : m < 0x80) : 0x80 ≤ m ||| 0x80 := by
  show 128 ≤ (m ||| 0x80).toNat
  rw [break_code hm]
  omega

/-- The code of a release is another one than that of key `c`, for any other key. -/
theorem break_code_ne {m c : UInt8} (hm : m < 0x80) (hc : c < 0x80) (h : m ≠ c) : m ||| 0x80 ≠ c ||| 0x80 := by
  intro heq
  have hnat := congrArg UInt8.toNat heq
  rw [break_code hm, break_code hc] at hnat
  exact h (UInt8.toNat_inj.mp (by omega))

/-- The codes of a recognised event are no prefixes. -/
theorem Recognised.code_ne {h : Held} {e : KeyEvent} (hok : Recognised h e) : e.code ≠ 0xE0 ∧ e.code ≠ 0xF0 := by
  have hlt := e.key.make_lt
  unfold KeyEvent.code
  cases hpress : e.press with
  | true =>
    rw [if_pos rfl]
    constructor
    · intro heq
      rw [heq] at hlt
      exact absurd hlt (by decide)
    · intro heq
      rw [heq] at hlt
      exact absurd hlt (by decide)
  | false =>
    obtain ⟨hlead, hbreak, -⟩ := hok hpress
    rw [if_neg Bool.false_ne_true]
    exact ⟨break_code_ne hlt (by decide) hlead, break_code_ne hlt (by decide) hbreak⟩

/-! ## The decoder -/

/-- No prefix has been read. -/
def Kbd.Quiet (k : Kbd) : Prop := k.release = false ∧ k.e0_prefix = false ∧ k.ext_release = false

def Kbd.shift (k : Kbd) : Bool := k.shift_l || k.shift_r

/-- What the polls return for the bytes of the keyboard. -/
def Kbd.events (k : Kbd) : Bytes → List (Option Ps2Event)
  | [] => []
  | b :: bs => (k.take b).2 :: (k.take b).1.events bs

section Decoder

variable {k : Kbd} {h : Held} {e : KeyEvent}

/-- Bytes of the mouse change nothing for the keyboard. -/
theorem keyboard_events_eq (s : Ps2) (ports : List Ports) :
    s.keyboard_events ports = s.kbd.events (keyboard_bytes ports) := by
  induction ports generalizing s with
  | nil => rfl
  | cons p ports ih =>
    have hbytes : keyboard_bytes (p :: ports) =
        if p.from_keyboard then p.data :: keyboard_bytes ports else keyboard_bytes ports := by
      unfold keyboard_bytes
      rw [List.filter_cons]
      split_ifs <;> rfl
    rw [Ps2.keyboard_events, hbytes, ih]
    unfold Ps2.poll_event
    by_cases hfull : p.status &&& 1 = 0
    · have hno : ¬ p.from_keyboard = true := by simp [Ports.from_keyboard, hfull]
      rw [if_pos hfull, if_neg hno, if_neg hno]
    · rw [if_neg hfull]
      by_cases haux : p.status &&& 0x20 = 0
      · have hyes : p.from_keyboard = true := by simp [Ports.from_keyboard, hfull, haux]
        rw [if_pos haux, if_pos hyes, if_pos hyes]
        rfl
      · have hno : ¬ p.from_keyboard = true := by simp [Ports.from_keyboard, haux]
        rw [if_neg haux, if_neg hno, if_neg hno]

theorem Kbd.events_append (k : Kbd) (bs cs : Bytes) :
    k.events (bs ++ cs) = k.events bs ++ (run (fun k b => (Kbd.take k b).1) k bs).events cs := by
  induction bs generalizing k with
  | nil => rfl
  | cons b bs ih => rw [List.cons_append, Kbd.events, Kbd.events, ih, run_cons, List.cons_append]

theorem Kbd.events_length (k : Kbd) (bs : Bytes) : (k.events bs).length = bs.length := by
  induction bs generalizing k with
  | nil => rfl
  | cons b bs ih => rw [Kbd.events, List.length_cons, List.length_cons, ih]

/-- A code, when no prefix has been read. -/
theorem Kbd.take_code (hk : k.Quiet) {b : UInt8} (hlead : b ≠ 0xE0) (hbreak : b ≠ 0xF0) :
    k.take b =
      if b = 0x2A then ({ k with shift_l := true }, none)
      else if b = 0x36 then ({ k with shift_r := true }, none)
      else (k, some (.Key b k.shift)) := by
  obtain ⟨hrelease, he0, hext⟩ := hk
  unfold Kbd.take
  rw [if_neg hlead, he0, if_neg Bool.false_ne_true, if_neg hbreak, hrelease, if_neg Bool.false_ne_true, hext,
    if_neg Bool.false_ne_true]
  rfl

/-- The code of an extended key is no key event. -/
theorem Kbd.take_extended (hk : k.Quiet) {b : UInt8} (hlead : b ≠ 0xE0) (hbreak : b ≠ 0xF0) :
    ((k.take 0xE0).1.take b).1 = k ∧ (k.take 0xE0).2 = none ∧
      ∀ code shift, ((k.take 0xE0).1.take b).2 ≠ some (.Key code shift) := by
  have hfirst : k.take 0xE0 = ({ k with e0_prefix := true }, none) := if_pos rfl
  have hback : ({ k with e0_prefix := false } : Kbd) = k := by
    rw [← hk.2.1]
  rw [hfirst]
  unfold Kbd.take
  rw [if_neg hlead]
  simp only [if_pos, if_neg hbreak, hback]
  refine ⟨?_, trivial, ?_⟩
  · split_ifs <;> rfl
  · intro code shift hkey
    split_ifs at hkey <;> cases hkey

/-! ## Runs -/

/-- Another key changes nothing for shift. -/
theorem Held.after_shift_other (hl : e.key ≠ LEFT_SHIFT) (hr : e.key ≠ RIGHT_SHIFT) : (h.after e).shift = h.shift := by
  unfold Held.shift Held.after
  rw [Function.update_of_ne hl.symm, Function.update_of_ne hr.symm]

/-- A key that is neither extended nor has the code of `c` is not `c`. -/
theorem key_eq_iff {a c : Key} : a = c ↔ a.extended = c.extended ∧ a.make = c.make := by
  obtain ⟨_, _, _⟩ := a
  obtain ⟨_, _, _⟩ := c
  rw [Key.mk.injEq]

/-- An extended key: a prefix and a code. -/
theorem extended_step (hk : k.Quiet) (hok : Recognised h e) (hext : e.key.extended = true) :
    run (fun k b => (Kbd.take k b).1) k e.bytes = k ∧ (h.after e).shift = h.shift ∧
      ∀ code shift, some (.Key code shift) ∉ k.events e.bytes := by
  obtain ⟨hlead, hbreak⟩ := hok.code_ne
  obtain ⟨hstate, hfirst, hsecond⟩ := Kbd.take_extended hk hlead hbreak
  have hbytes : e.bytes = [0xE0, e.code] := if_pos hext
  have hother : ∀ c : Key, c.extended = false → e.key ≠ c := by
    intro c hc heq
    rw [heq, hc] at hext
    cases hext
  refine ⟨?_, Held.after_shift_other (hother _ rfl) (hother _ rfl), ?_⟩
  · rw [hbytes]
    exact hstate
  · intro code shift hmem
    rw [hbytes, Kbd.events, Kbd.events, Kbd.events, hfirst, List.mem_cons, List.mem_singleton] at hmem
    rcases hmem with hmem | hmem
    · cases hmem
    · exact hsecond code shift hmem.symm

/-- The press of any other key. -/
theorem press_step (hk : k.Quiet) (hshift : k.shift = h.shift) (hok : Recognised h e)
    (hext : e.key.extended = false) (hpress : e.press = true) :
    (k.take e.code).1.Quiet ∧ (k.take e.code).1.shift = (h.after e).shift ∧
      ∀ code shift, (k.take e.code).2 = some (.Key code shift) → shift = (h.after e).shift := by
  obtain ⟨hlead, hbreak⟩ := hok.code_ne
  have hcode : e.code = e.key.make := if_pos hpress
  rw [Kbd.take_code hk hlead hbreak, hcode]
  by_cases hl : e.key.make = 0x2A
  · have hkey : e.key = LEFT_SHIFT := key_eq_iff.mpr ⟨hext, hl⟩
    rw [if_pos hl]
    refine ⟨hk, ?_, fun code shift h => absurd h (Option.some_ne_none _).symm⟩
    unfold Kbd.shift Held.shift Held.after
    rw [hkey, hpress, Function.update_self, Bool.true_or, Bool.true_or]
  · by_cases hr : e.key.make = 0x36
    · have hkey : e.key = RIGHT_SHIFT := key_eq_iff.mpr ⟨hext, hr⟩
      rw [if_neg hl, if_pos hr]
      refine ⟨hk, ?_, fun code shift h => absurd h (Option.some_ne_none _).symm⟩
      unfold Kbd.shift Held.shift Held.after
      rw [hkey, hpress, Function.update_self, Bool.or_true, Bool.or_true]
    · have hafter : (h.after e).shift = h.shift :=
        Held.after_shift_other (fun heq => hl (key_eq_iff.mp heq).2) (fun heq => hr (key_eq_iff.mp heq).2)
      rw [if_neg hl, if_neg hr, hafter]
      refine ⟨hk, hshift, ?_⟩
      intro code shift hkey
      rw [← hshift]
      exact (Ps2Event.Key.inj (Option.some.inj hkey)).2.symm

/-- The release of any other key: a key event that has no character. -/
theorem release_step (hk : k.Quiet) (hshift : k.shift = h.shift) (hok : Recognised h e) (hpress : e.press = false) :
    (k.take e.code).1 = k ∧ k.shift = (h.after e).shift ∧
      ∀ code shift, (k.take e.code).2 = some (.Key code shift) → scancode_set1_to_ascii code shift = none := by
  obtain ⟨hlead, hbreak⟩ := hok.code_ne
  have hcode : e.code = e.key.make ||| 0x80 := by
    unfold KeyEvent.code
    rw [hpress, if_neg Bool.false_ne_true]
  have hle : 0x80 ≤ e.code := hcode ▸ release_code_le e.key.make_lt
  have hne : ∀ c : UInt8, c < 0x80 → e.code ≠ c := fun c hc heq => absurd (heq ▸ hle) (UInt8.not_le.mpr hc)
  rw [Kbd.take_code hk hlead hbreak, if_neg (hne _ (by decide)), if_neg (hne _ (by decide))]
  refine ⟨rfl, hshift.trans (hok hpress).2.2.symm, ?_⟩
  intro code shift hkey
  rw [← (Ps2Event.Key.inj (Option.some.inj hkey)).1]
  exact scancode_of_release hle shift

/-- **One press or release.** -/
theorem key_step (hk : k.Quiet) (hshift : k.shift = h.shift) (hok : Recognised h e) :
    (run (fun k b => (Kbd.take k b).1) k e.bytes).Quiet ∧
      (run (fun k b => (Kbd.take k b).1) k e.bytes).shift = (h.after e).shift ∧
      ∀ code shift, some (.Key code shift) ∈ k.events e.bytes → Faithful h e code shift := by
  cases hext : e.key.extended with
  | true =>
    obtain ⟨hstate, hafter, hevents⟩ := extended_step hk hok hext
    rw [hstate, hafter]
    exact ⟨hk, hshift, fun code shift hmem => absurd hmem (hevents code shift)⟩
  | false =>
    have hbytes : e.bytes = [e.code] := by
      unfold KeyEvent.bytes
      rw [hext, if_neg Bool.false_ne_true]
    rw [hbytes]
    simp only [run_cons, run_nil, Kbd.events, List.mem_singleton]
    unfold Faithful
    cases hpress : e.press with
    | true =>
      obtain ⟨hquiet, hafter, hevent⟩ := press_step hk hshift hok hext hpress
      exact ⟨hquiet, hafter, fun code shift hmem => hevent code shift hmem.symm⟩
    | false =>
      obtain ⟨hstate, hafter, hevent⟩ := release_step hk hshift hok hpress
      rw [hstate]
      exact ⟨hk, hafter, fun code shift hmem => hevent code shift hmem.symm⟩

/-- Any number of them. -/
theorem keys_run (hk : k.Quiet) (hshift : k.shift = h.shift) {keys : List KeyEvent}
    (hok : Along Held.after Recognised h keys) : Tracks h keys (k.events (keys.flatMap KeyEvent.bytes)) := by
  induction keys generalizing k h with
  | nil => trivial
  | cons e keys ih =>
    obtain ⟨hquiet, hafter, hevents⟩ := key_step hk hshift hok.1
    have hlen := Kbd.events_length k e.bytes
    rw [List.flatMap_cons, Kbd.events_append, Tracks, ← hlen, List.take_left, List.drop_left]
    exact ⟨hevents, ih hquiet hafter hok.2⟩

/-- **Shift is as the keys say, and releases type nothing**, however bytes of the mouse
come in between, as long as no release ends a shift or reads like a prefix. -/
theorem shift_is_tracked (pkt_len : UInt8) (keys : List KeyEvent) (ports : List Ports)
    (hports : keyboard_bytes ports = keys.flatMap KeyEvent.bytes)
    (hok : Along Held.after Recognised Held.none keys) :
    Tracks Held.none keys ((Ps2.start pkt_len).keyboard_events ports) := by
  rw [keyboard_events_eq, hports]
  exact keys_run ⟨rfl, rfl, rfl⟩ rfl hok

/-- The key A. -/
def KEY_A : Key := ⟨false, 0x1E, by decide⟩

/-- Both shift keys are pressed, one is released, A is pressed; a byte of the mouse comes
in between. -/
theorem one_of_two_shifts :
    Tracks Held.none [⟨LEFT_SHIFT, true⟩, ⟨RIGHT_SHIFT, true⟩, ⟨LEFT_SHIFT, false⟩, ⟨KEY_A, true⟩]
      ((Ps2.start 3).keyboard_events
        [⟨0x1D, 0x2A⟩, ⟨0x1D, 0x36⟩, ⟨0x3D, 0x08⟩, ⟨0x1D, 0xAA⟩, ⟨0x1D, 0x1E⟩]) :=
  shift_is_tracked 3 _ _ (by decide) (by decide)

/-- Shift is pressed and released, A is pressed: it is still shifted. -/
theorem released_shift_stays :
    keyboard_bytes [⟨0x1D, 0x2A⟩, ⟨0x1D, 0xAA⟩, ⟨0x1D, 0x1E⟩] =
        [⟨LEFT_SHIFT, true⟩, ⟨LEFT_SHIFT, false⟩, (⟨KEY_A, true⟩ : KeyEvent)].flatMap KeyEvent.bytes ∧
      ¬ Tracks Held.none [⟨LEFT_SHIFT, true⟩, ⟨LEFT_SHIFT, false⟩, ⟨KEY_A, true⟩]
        ((Ps2.start 3).keyboard_events [⟨0x1D, 0x2A⟩, ⟨0x1D, 0xAA⟩, ⟨0x1D, 0x1E⟩]) := by
  refine ⟨by decide, ?_⟩
  intro h
  have hkey := h.2.2.1 0x1E true (by decide)
  exact absurd hkey (by unfold Faithful; decide)

end Decoder

end EveOS.Input
