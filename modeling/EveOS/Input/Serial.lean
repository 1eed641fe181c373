/-
Keys from a serial terminal: `kernel-rpi/src/main.rs` and `kernel/src/arm_input.rs`.

A terminal sends what is no character as ESC and a sequence, whose end is a byte from
0x40 to 0x7E. But the sequence begins with one of `[` and `O`, and these are such bytes
as well. `drain_uart_input_to_arm_queue` takes the first byte for the last one: no
sequence is ever seen whole, and what stands behind its first byte is typed.
-/
import EveOS.Lib.Decimal
import EveOS.Lib.Run

set_option autoImplicit false

namespace EveOS.Input

inductive ArmKeyEvent
  | Char (c : UInt8)
  | Backspace
  | Enter
  | Func (n : UInt8)
  | PageUp
  | PageDown
  | ArrowUp
  | ArrowDown
  | ArrowLeft
  | ArrowRight
  | Home
  | End
  | Escape
  deriving DecidableEq

def KEY_CAP : Nat := 32
def ESC_BUF_CAP : Nat := 32

inductive SgrBtn
  | Set (mask : UInt8)
  | Keep
  deriving DecidableEq

/-- Column, row and buttons. -/
abbrev PointerReport := Nat × Nat × SgrBtn

structure InputState where
  ptr_x : Int
  ptr_y : Int
  ptr_btn : UInt8
  term_cols : Int
  term_rows : Int
  deriving DecidableEq

def InputState.new : InputState := ⟨0, 0, 0, 80, 24⟩

/-- `FrameBufferInfo`, as far as it is read here. -/
structure FrameSize where
  width : Nat
  height : Nat

/-- The decoder, the queue and the pointer. The two lists say what `key_queue_push` was
called with, and which reports have moved the pointer. -/
structure Serial where
  input : InputState
  queue : List ArmKeyEvent
  esc_active : Bool
  esc_buf : Bytes
  pushed : List ArmKeyEvent
  moved : List PointerReport
  deriving DecidableEq

def Serial.start : Serial := ⟨.new, [], false, [], [], []⟩

def Serial.key_queue_push (s : Serial) (ev : ArmKeyEvent) : Serial :=
  { s with
    queue := if s.queue.length < KEY_CAP then s.queue ++ [ev] else s.queue
    pushed := s.pushed ++ [ev] }

/-! ## Sequences -/

def SS3_KEYS : List (Bytes × ArmKeyEvent) :=
  [(ascii "OA", .ArrowUp), (ascii "OB", .ArrowDown), (ascii "OC", .ArrowRight), (ascii "OD", .ArrowLeft),
    (ascii "OP", .Func 1), (ascii "OQ", .Func 2), (ascii "OR", .Func 3), (ascii "OS", .Func 4)]

def CSI_KEYS : List (Bytes × ArmKeyEvent) :=
  [(ascii "[A", .ArrowUp), (ascii "[B", .ArrowDown), (ascii "[5~", .PageUp), (ascii "[6~", .PageDown),
    (ascii "[H", .Home), (ascii "[F", .End)]

def FUNCTION_KEYS : List (Bytes × UInt8) :=
  [(ascii "[11~", 1), (ascii "[[A", 1), (ascii "[12~", 2), (ascii "[[B", 2), (ascii "[13~", 3), (ascii "[[C", 3),
    (ascii "[14~", 4), (ascii "[[D", 4), (ascii "[15~", 5), (ascii "[[E", 5), (ascii "[17~", 6),
    (ascii "[18~", 7), (ascii "[19~", 8), (ascii "[20~", 9), (ascii "[21~", 10), (ascii "[23~", 11),
    (ascii "[24~", 12)]

def map_csi_function_key (seq : Bytes) : Option UInt8 := FUNCTION_KEYS.lookup seq

/-- In the model a `u16` that saturates is a number up to 65535. -/
def U16_MAX : Nat := 65535

def parse_u16_ascii (s : Bytes) : Option Nat :=
  if s = [] then none
  else
    s.foldlM (fun v b =>
      if 48 ≤ b ∧ b ≤ 57 then some (min (min (v * 10) U16_MAX + (b - 48).toNat) U16_MAX) else none) 0

/-- What a report says of the buttons. -/
def sgr_button (fin : UInt8) (btn : Nat) : SgrBtn :=
  let mask (n : Nat) : UInt8 := if n = 0 then 1 else if n = 1 then 4 else if n = 2 then 2 else 0
  if fin = 77 then .Set (mask btn)
  else if 32 ≤ btn ∧ btn ≤ 34 then .Set (mask (btn - 32))
  else if btn = 35 then .Set 0
  else .Keep

def parse_sgr_mouse (seq : Bytes) : Option PointerReport :=
  if seq.length < 7 ∨ byteAt seq 0 ≠ 91 ∨ byteAt seq 1 ≠ 60 then none
  else do
    let fin ← seq.getLast?
    if fin ≠ 77 ∧ fin ≠ 109 then none
    else
      match (slice seq 2 (seq.length - 1)).splitOn 59 with
      | [btn, col, row] => do
        let btn ← parse_u16_ascii btn
        let col ← parse_u16_ascii col
        let row ← parse_u16_ascii row
        some (col, row, sgr_button fin btn)
      | _ => none

/-- `as i32`. -/
def as_i32 (n : Nat) : Int := Int.bmod n 4294967296

/-- The arithmetic of `i32` that saturates. -/
def sat_i32 (n : Int) : Int := max (-2147483648) (min n 2147483647)

/-- A position on the terminal, on the screen. -/
def place (at_ max_ denom : Int) : Int := max 0 (min (Int.tdiv (sat_i32 (sat_i32 (at_ - 1) * max_)) denom) max_)

def InputState.update_pointer (info : FrameSize) (input : InputState) (r : PointerReport) : InputState :=
  let term_cols := max input.term_cols (r.1 : Int)
  let term_rows := max input.term_rows (r.2.1 : Int)
  { ptr_x := place r.1 (as_i32 (info.width - 1)) (max (term_cols - 1) 1)
    ptr_y := place r.2.1 (as_i32 (info.height - 1)) (max (term_rows - 1) 1)
    ptr_btn :=
      match r.2.2 with
      | .Set b => b
      | .Keep => input.ptr_btn
    term_cols := term_cols
    term_rows := term_rows }

def Serial.apply_csi_sequence (info : FrameSize) (s : Serial) (seq : Bytes) : Serial :=
  match SS3_KEYS.lookup seq with
  | some ev => s.key_queue_push ev
  | none =>
    match CSI_KEYS.lookup seq with
    | some ev => s.key_queue_push ev
    | none =>
      match map_csi_function_key seq with
      | some f => s.key_queue_push (.Func f)
      | none =>
        match parse_sgr_mouse seq with
        | some r => { s with input := s.input.update_pointer info r, moved := s.moved ++ [r] }
        | none => s

/-! ## The drain -/

/-- A byte from the serial line. -/
def Serial.take (info : FrameSize) (s : Serial) (c : UInt8) : Serial :=
  if s.esc_active then
    if s.esc_buf.length < ESC_BUF_CAP then
      let s := { s with esc_buf := s.esc_buf ++ [c] }
      if 0x40 ≤ c ∧ c ≤ 0x7E then
        { s.apply_csi_sequence info s.esc_buf with esc_active := false, esc_buf := [] }
      else s
    else { s with esc_active := false, esc_buf := [] }.key_queue_push .Escape
  else if c = 0x1B then { s with esc_active := true, esc_buf := [] }
  else if c = 13 ∨ c = 10 then s.key_queue_push .Enter
  else if c = 0x7F ∨ c = 0x08 then s.key_queue_push .Backspace
  else if 32 ≤ c ∧ c ≤ 126 then s.key_queue_push (.Char c)
  else s

def Serial.drain_uart_input_to_arm_queue (info : FrameSize) (s : Serial) (bytes : Bytes) : Serial :=
  let s := run (Serial.take info) s bytes
  if s.esc_active && s.esc_buf.isEmpty then { s with esc_active := false }.key_queue_push .Escape
  else s

/-! ## What a terminal sends -/

/-- The keys that have a sequence. -/
def KEYS : List (Bytes × ArmKeyEvent) :=
  SS3_KEYS ++ CSI_KEYS ++ FUNCTION_KEYS.map fun k => (k.1, .Func k.2)

/-- A mouse report: three numbers, and `m` or `M`. -/
structure SgrReport where
  btn : Bytes
  col : Bytes
  row : Bytes
  fin : UInt8
  digits : ∀ ds ∈ [btn, col, row], ds ≠ [] ∧ IsDigits ds
  fin_ok : fin = 77 ∨ fin = 109
  fits : btn.length + col.length + row.length + 6 ≤ ESC_BUF_CAP

def SgrReport.seq (r : SgrReport) : Bytes := ascii "[<" ++ (r.btn ++ 59 :: (r.col ++ 59 :: (r.row ++ [r.fin])))

def SgrReport.value (r : SgrReport) : PointerReport :=
  (min (decimal r.col) U16_MAX, min (decimal r.row) U16_MAX, sgr_button r.fin (min (decimal r.btn) U16_MAX))

inductive KeyEncoding
  | printable (c : UInt8) (h : 32 ≤ c ∧ c ≤ 126)
  | enter (c : UInt8) (h : c = 13 ∨ c = 10)
  | backspace (c : UInt8) (h : c = 0x7F ∨ c = 0x08)
  | key (seq : Bytes) (ev : ArmKeyEvent) (h : (seq, ev) ∈ KEYS)
  | mouse (r : SgrReport)

namespace KeyEncoding

def bytes : KeyEncoding → Bytes
  | printable c _ => [c]
  | enter c _ => [c]
  | backspace c _ => [c]
  | key seq _ _ => 0x1B :: seq
  | mouse r => 0x1B :: r.seq

def event : KeyEncoding → Option ArmKeyEvent
  | printable c _ => some (.Char c)
  | enter _ _ => some .Enter
  | backspace _ _ => some .Backspace
  | key _ ev _ => some ev
  | mouse _ => none

def report : KeyEncoding → Option PointerReport
  | mouse r => some r.value
  | _ => none

/-- It begins with ESC. -/
def is_sequence : KeyEncoding → Bool
  | key _ _ _ => true
  | mouse _ => true
  | _ => false

end KeyEncoding

/-- What is to come of the encodings: the queue gets their keys, as far as there is room,
the pointer their reports, and the decoder is where it began. -/
def Decodes (info : FrameSize) (s s' : Serial) (encodings : List KeyEncoding) : Prop :=
  s'.pushed = s.pushed ++ encodings.filterMap KeyEncoding.event ∧
    s'.queue = (s.queue ++ encodings.filterMap KeyEncoding.event).take KEY_CAP ∧
    s'.moved = s.moved ++ encodings.filterMap KeyEncoding.report ∧
    s'.input = (encodings.filterMap KeyEncoding.report).foldl (InputState.update_pointer info) s.input ∧
    s'.esc_active = false ∧ s'.esc_buf = []

/-! ## Sequences, seen whole -/

theorem parse_u16_ascii_eq {ds : Bytes} (hne : ds ≠ []) (hds : IsDigits ds) :
    parse_u16_ascii ds = some (min (decimal ds) U16_MAX) := by
  have hfold : ∀ v, (ds.foldlM (fun v b =>
      if 48 ≤ b ∧ b ≤ 57 then some (min (min (v * 10) U16_MAX + (b - 48).toNat) U16_MAX) else none)
      (min v U16_MAX)) = some (min (decimal_from v ds) U16_MAX) := by
    clear hne
    induction ds with
    | nil => exact fun v => rfl
    | cons b ds ih =>
      intro v
      have hsat : min (min (min v U16_MAX * 10) U16_MAX + (b - 48).toNat) U16_MAX =
          min (v * 10 + (b - 48).toNat) U16_MAX := by
        unfold U16_MAX
        omega
      rw [List.foldlM_cons, if_pos (hds b List.mem_cons_self), hsat]
      exact ih (fun c hc => hds c (List.mem_cons_of_mem b hc)) _
  unfold parse_u16_ascii
  rw [if_neg hne]
  exact hfold 0

section Whole

variable {info : FrameSize} {s : Serial}

/-- A number has no separator in it. -/
theorem digits_no_separator {ds : Bytes} (hds : IsDigits ds) : (59 : UInt8) ∉ ds := by
  intro h
  exact absurd (hds 59 h).2 (by decide)

/-- The parser reads a whole report. -/
theorem parse_report (r : SgrReport) : parse_sgr_mouse r.seq = some r.value := by
  obtain ⟨hbtn_ne, hbtn⟩ := r.digits r.btn (by simp)
  obtain ⟨hcol_ne, hcol⟩ := r.digits r.col (by simp)
  obtain ⟨hrow_ne, hrow⟩ := r.digits r.row (by simp)
  have hfields : r.btn ++ 59 :: (r.col ++ 59 :: (r.row ++ [r.fin])) =
      (r.btn ++ 59 :: (r.col ++ 59 :: r.row)) ++ [r.fin] := by simp
  have hseq : r.seq = 91 :: 60 :: ((r.btn ++ 59 :: (r.col ++ 59 :: r.row)) ++ [r.fin]) := by
    unfold SgrReport.seq
    rw [hfields]
    rfl
  have hlen : r.seq.length = (r.btn ++ 59 :: (r.col ++ 59 :: r.row)).length + 3 := by
    rw [hseq, List.length_cons, List.length_cons, List.length_append, List.length_singleton]
  have hlong : ¬ r.seq.length < 7 := by
    have hb := List.length_pos_iff.mpr hbtn_ne
    have hc := List.length_pos_iff.mpr hcol_ne
    have hr := List.length_pos_iff.mpr hrow_ne
    rw [hlen]
    simp only [List.length_append, List.length_cons]
    omega
  have hlast : r.seq.getLast? = some r.fin := by
    rw [hseq, ← List.cons_append, ← List.cons_append, List.getLast?_append, List.getLast?_singleton]
    rfl
  have hbody : slice r.seq 2 (r.seq.length - 1) = r.btn ++ 59 :: (r.col ++ 59 :: r.row) := by
    have hcount : (r.btn ++ 59 :: (r.col ++ 59 :: r.row)).length + 3 - 1 - 2 =
        (r.btn ++ 59 :: (r.col ++ 59 :: r.row)).length := by omega
    rw [slice, hlen, hcount, hseq]
    exact List.take_left
  have hsplit : (r.btn ++ 59 :: (r.col ++ 59 :: r.row)).splitOn 59 = [r.btn, r.col, r.row] := by
    rw [List.splitOn_append_cons_self_of_not_mem (digits_no_separator hbtn),
      List.splitOn_append_cons_self_of_not_mem (digits_no_separator hcol),
      List.splitOn_eq_singleton (digits_no_separator hrow)]
  have hstart : byteAt r.seq 0 = 91 ∧ byteAt r.seq 1 = 60 := by
    rw [hseq]
    exact ⟨rfl, rfl⟩
  have hfin : ¬ (r.fin ≠ 77 ∧ r.fin ≠ 109) := by
    rcases r.fin_ok with h | h
    · exact fun hne => hne.1 h
    · exact fun hne => hne.2 h
  unfold parse_sgr_mouse
  rw [if_neg (by rw [hstart.1, hstart.2]; simpa using hlong), hlast, hbody, hsplit]
  simp only [Option.bind_eq_bind, Option.bind_some]
  rw [if_neg hfin, parse_u16_ascii_eq hbtn_ne hbtn, parse_u16_ascii_eq hcol_ne hcol, parse_u16_ascii_eq hrow_ne hrow]
  rfl

/-- The key of a whole sequence. -/
def key_of (seq : Bytes) : Option ArmKeyEvent :=
  (SS3_KEYS.lookup seq).or ((CSI_KEYS.lookup seq).or ((map_csi_function_key seq).map .Func))

theorem apply_key {seq : Bytes} {ev : ArmKeyEvent} (h : (seq, ev) ∈ KEYS) :
    s.apply_csi_sequence info seq = s.key_queue_push ev := by
  have htable : ∀ k ∈ KEYS, key_of k.1 = some k.2 := by decide
  have hkey := htable _ h
  unfold key_of at hkey
  unfold Serial.apply_csi_sequence
  cases hss3 : SS3_KEYS.lookup seq with
  | some e =>
    rw [hss3] at hkey
    obtain rfl := Option.some.inj hkey
    rfl
  | none =>
    rw [hss3, Option.none_or] at hkey
    cases hcsi : CSI_KEYS.lookup seq with
    | some e =>
      rw [hcsi] at hkey
      obtain rfl := Option.some.inj hkey
      rfl
    | none =>
      rw [hcsi, Option.none_or] at hkey
      obtain ⟨f, hf, rfl⟩ := Option.map_eq_some_iff.mp hkey
      dsimp only
      rw [hf]

/-- A sequence that has no key. -/
theorem apply_other {seq : Bytes} (h : key_of seq = none) :
    s.apply_csi_sequence info seq =
      match parse_sgr_mouse seq with
      | some r => { s with input := s.input.update_pointer info r, moved := s.moved ++ [r] }
      | none => s := by
  unfold key_of at h
  rw [Option.or_eq_none_iff, Option.or_eq_none_iff, Option.map_eq_none_iff] at h
  unfold Serial.apply_csi_sequence
  rw [h.1, h.2.1, h.2.2]

theorem lookup_other {β : Type} {table : List (Bytes × β)} {seq : Bytes} (htable : ∀ k ∈ table, k.1[1]? ≠ some 60)
    (hseq : seq[1]? = some 60) : table.lookup seq = none := by
  apply List.lookup_eq_none_iff.mpr
  intro k hk
  apply bne_iff_ne.mpr
  rintro rfl
  exact htable k hk hseq

/-- The sequence of a report is that of no key. -/
theorem key_of_report (r : SgrReport) : key_of r.seq = none := by
  have hss3 : SS3_KEYS.lookup r.seq = none := lookup_other (by decide) rfl
  have hcsi : CSI_KEYS.lookup r.seq = none := lookup_other (by decide) rfl
  have hfunction : map_csi_function_key r.seq = none := lookup_other (by decide) rfl
  unfold key_of
  rw [hss3, hcsi, hfunction]
  rfl

theorem apply_report (r : SgrReport) :
    s.apply_csi_sequence info r.seq =
      { s with input := s.input.update_pointer info r.value, moved := s.moved ++ [r.value] } := by
  rw [apply_other (key_of_report r), parse_report]

/-! ## Sequences, as the drain sees them -/

def IsPrintable (bs : Bytes) : Prop := ∀ c ∈ bs, 32 ≤ c ∧ c ≤ 126

/-- The bytes behind ESC. -/
def KeyEncoding.seq : KeyEncoding → Bytes
  | .key seq _ _ => seq
  | .mouse r => r.seq
  | _ => []

/-- What the drain makes of an encoding: it types all but the first byte of a sequence. -/
def KeyEncoding.typed (e : KeyEncoding) : List ArmKeyEvent :=
  if e.is_sequence then (e.seq.drop 1).map .Char else e.event.toList

/-- A first byte is `[` or `O`, and the bytes behind it are printable. -/
def Introduced (seq : Bytes) : Prop := ∃ intro rest, seq = intro :: rest ∧ intro ∈ ascii "[O" ∧ IsPrintable rest

theorem keys_introduced {seq : Bytes} {ev : ArmKeyEvent} (h : (seq, ev) ∈ KEYS) : Introduced seq := by
  have htable : ∀ k ∈ KEYS, k.1.take 1 ∈ [ascii "[", ascii "O"] ∧ ∀ c ∈ k.1.drop 1, 32 ≤ c ∧ c ≤ 126 := by
    decide +kernel
  obtain ⟨hfirst, hrest⟩ := htable _ h
  cases seq with
  | nil =>
    have hnil : ([] : Bytes) ∉ [ascii "[", ascii "O"] := by decide
    exact absurd hfirst hnil
  | cons c rest =>
    refine ⟨c, rest, rfl, ?_, hrest⟩
    rw [List.mem_cons, List.mem_singleton] at hfirst
    rcases hfirst with hc | hc
    · obtain rfl := (List.cons.inj hc).1
      decide
    · obtain rfl := (List.cons.inj hc).1
      decide

theorem digits_printable {ds : Bytes} (hds : IsDigits ds) : IsPrintable ds := by
  intro c hc
  exact ⟨UInt8.le_trans (by decide) (hds c hc).1, UInt8.le_trans (hds c hc).2 (by decide)⟩

theorem report_introduced (r : SgrReport) : Introduced r.seq := by
  refine ⟨91, 60 :: (r.btn ++ 59 :: (r.col ++ 59 :: (r.row ++ [r.fin]))), rfl, by decide, ?_⟩
  have hds : ∀ ds ∈ [r.btn, r.col, r.row], IsPrintable ds := fun ds h => digits_printable (r.digits ds h).2
  intro c hc
  simp only [List.mem_cons, List.mem_append, List.not_mem_nil, or_false] at hc
  rcases hc with rfl | hc | rfl | hc | rfl | hc | rfl
  · decide
  · exact hds r.btn (by simp) c hc
  · decide
  · exact hds r.col (by simp) c hc
  · decide
  · exact hds r.row (by simp) c hc
  · rcases r.fin_ok with h | h
    · rw [h]
      decide
    · rw [h]
      decide

/-- The decoder is not inside a sequence, and the queue is no longer than it can be. -/
structure Serial.Idle (s : Serial) : Prop where
  inactive : s.esc_active = false
  empty : s.esc_buf = []
  room : s.queue.length ≤ KEY_CAP

def Serial.pushes (s : Serial) (evs : List ArmKeyEvent) : Serial := evs.foldl Serial.key_queue_push s

theorem Serial.Idle.push (h : s.Idle) (ev : ArmKeyEvent) : (s.key_queue_push ev).Idle where
  inactive := h.inactive
  empty := h.empty
  room := by
    unfold Serial.key_queue_push
    dsimp only
    split_ifs with hroom
    · rw [List.length_append, List.length_singleton]
      exact hroom
    · exact h.room

theorem Serial.Idle.pushes (h : s.Idle) (evs : List ArmKeyEvent) : (s.pushes evs).Idle := by
  induction evs generalizing s with
  | nil => exact h
  | cons ev evs ih => exact ih (h.push ev)

theorem Serial.pushes_append (s : Serial) (evs evs' : List ArmKeyEvent) :
    s.pushes (evs ++ evs') = (s.pushes evs).pushes evs' := List.foldl_append

theorem Serial.Idle.queue_push (h : s.Idle) (ev : ArmKeyEvent) :
    (s.key_queue_push ev).queue = (s.queue ++ [ev]).take KEY_CAP := by
  unfold Serial.key_queue_push
  dsimp only
  have hroom := h.room
  split_ifs with hlt
  · rw [List.take_of_length_le]
    rw [List.length_append, List.length_singleton]
    exact hlt
  · rw [List.take_append_of_le_length (by omega), List.take_of_length_le h.room]

/-- What any number of calls leaves. -/
theorem Serial.Idle.pushes_eq (h : s.Idle) (evs : List ArmKeyEvent) :
    s.pushes evs = { s with queue := (s.queue ++ evs).take KEY_CAP, pushed := s.pushed ++ evs } := by
  induction evs generalizing s with
  | nil =>
    rw [List.append_nil, List.append_nil, List.take_of_length_le h.room]
    rfl
  | cons ev evs ih =>
    have hstep : (s.key_queue_push ev).pushed = s.pushed ++ [ev] := rfl
    have hqueue : ((s.queue ++ [ev]).take KEY_CAP ++ evs).take KEY_CAP = (s.queue ++ ev :: evs).take KEY_CAP := by
      have hcons : s.queue ++ ev :: evs = (s.queue ++ [ev]) ++ evs := by simp
      have hright : (s.queue ++ [ev] ++ evs).take KEY_CAP =
          (s.queue ++ [ev]).take KEY_CAP ++ evs.take (KEY_CAP - (s.queue ++ [ev]).length) := List.take_append
      rw [hcons, hright, List.take_append, List.take_take, Nat.min_self, List.length_take]
      congr 2
      omega
    show (s.key_queue_push ev).pushes evs = _
    rw [ih (h.push ev), h.queue_push, hqueue, hstep, List.append_assoc]
    rfl

/-- Printable bytes are typed. -/
theorem take_printable (h : s.Idle) {bs : Bytes} (hbs : IsPrintable bs) :
    run (Serial.take info) s bs = s.pushes (bs.map .Char) := by
  induction bs generalizing s with
  | nil => rfl
  | cons c bs ih =>
    have hc := hbs c List.mem_cons_self
    have hne : ∀ x : UInt8, x < 32 → c ≠ x := fun x hx heq =>
      absurd (heq ▸ hc.1) (UInt8.not_le.mpr hx)
    have hdel : c ≠ 0x7F := fun heq => absurd (heq ▸ hc.2) (by decide)
    have htake : s.take info c = s.key_queue_push (.Char c) := by
      unfold Serial.take
      rw [h.inactive, if_neg Bool.false_ne_true, if_neg (hne _ (by decide)),
        if_neg (not_or.mpr ⟨hne _ (by decide), hne _ (by decide)⟩),
        if_neg (not_or.mpr ⟨hdel, hne _ (by decide)⟩), if_pos hc]
    rw [run_cons, htake, ih (h.push _) fun b hb => hbs b (List.mem_cons_of_mem c hb)]
    rfl

/-- ESC and the first byte of a sequence: nothing has happened. -/
theorem take_introducer (h : s.Idle) {c : UInt8} (hc : c ∈ ascii "[O") :
    run (Serial.take info) s [0x1B, c] = s := by
  have hends : 0x40 ≤ c ∧ c ≤ 0x7E := by
    have hall : ∀ c ∈ ascii "[O", (0x40 : UInt8) ≤ c ∧ c ≤ 0x7E := by decide +kernel
    exact hall c hc
  have hkey : key_of [c] = none := by
    have hall : ∀ c ∈ ascii "[O", key_of [c] = none := by decide +kernel
    exact hall c hc
  have hmouse : parse_sgr_mouse [c] = none := if_pos (.inl (show 1 < 7 by decide))
  have hesc : s.take info 0x1B = { s with esc_active := true, esc_buf := [] } := by
    unfold Serial.take
    rw [h.inactive, if_neg Bool.false_ne_true, if_pos rfl]
  rw [run_cons, run_cons, run_nil, hesc]
  unfold Serial.take
  rw [if_pos rfl, if_pos (by decide : ([] : Bytes).length < ESC_BUF_CAP)]
  dsimp only
  rw [if_pos hends, List.nil_append, apply_other hkey, hmouse]
  dsimp only
  rw [← h.inactive, ← h.empty]

/-- **One encoding.** -/
theorem take_encoding (h : s.Idle) (e : KeyEncoding) : run (Serial.take info) s e.bytes = s.pushes e.typed := by
  have hsequence : ∀ seq, Introduced seq →
      run (Serial.take info) s (0x1B :: seq) = s.pushes ((seq.drop 1).map .Char) := by
    rintro seq ⟨intro, rest, rfl, hintro, hrest⟩
    have hsplit : (0x1B :: intro :: rest : Bytes) = [0x1B, intro] ++ rest := rfl
    rw [hsplit, run_append, take_introducer h hintro, take_printable h hrest]
    rfl
  cases e with
  | printable c hc =>
    have hone : IsPrintable [c] := by
      intro b hb
      rwa [List.mem_singleton.mp hb]
    exact take_printable h hone
  | enter c hc =>
    have hne : c ≠ 0x1B := by rcases hc with rfl | rfl <;> decide
    show s.take info c = s.key_queue_push .Enter
    unfold Serial.take
    rw [h.inactive, if_neg Bool.false_ne_true, if_neg hne, if_pos hc]
  | backspace c hc =>
    have hne : c ≠ 0x1B ∧ ¬ (c = 13 ∨ c = 10) := by rcases hc with rfl | rfl <;> decide
    show s.take info c = s.key_queue_push .Backspace
    unfold Serial.take
    rw [h.inactive, if_neg Bool.false_ne_true, if_neg hne.1, if_neg hne.2, if_pos hc]
  | key seq ev hkey => exact hsequence seq (keys_introduced hkey)
  | mouse r => exact hsequence r.seq (report_introduced r)

/-- Any number of them. -/
theorem take_encodings (h : s.Idle) (encodings : List KeyEncoding) :
    run (Serial.take info) s (encodings.flatMap KeyEncoding.bytes) = s.pushes (encodings.flatMap KeyEncoding.typed) := by
  induction encodings generalizing s with
  | nil => rfl
  | cons e encodings ih =>
    rw [List.flatMap_cons, List.flatMap_cons, run_append, take_encoding h, Serial.pushes_append, ih (h.pushes e.typed)]

theorem drain_encodings (h : s.Idle) (encodings : List KeyEncoding) :
    s.drain_uart_input_to_arm_queue info (encodings.flatMap KeyEncoding.bytes) =
      s.pushes (encodings.flatMap KeyEncoding.typed) := by
  unfold Serial.drain_uart_input_to_arm_queue
  rw [take_encodings h]
  dsimp only
  rw [(h.pushes _).inactive, Bool.false_and, if_neg Bool.false_ne_true]

/-! ## When the keys come out -/

/-- Keys that are no characters. -/
def is_special : ArmKeyEvent → Bool
  | .Char _ => false
  | _ => true

def KeyEncoding.is_key : KeyEncoding → Bool
  | .key _ _ _ => true
  | _ => false

/-- The drain loses the special key of each sequence that has one. -/
theorem special_typed (e : KeyEncoding) :
    e.typed.countP is_special + (if e.is_key then 1 else 0) = e.event.toList.countP is_special := by
  have hchars : ∀ bs : Bytes, (bs.map ArmKeyEvent.Char).countP is_special = 0 := by
    intro bs
    rw [List.countP_map, List.countP_eq_zero]
    exact fun c _ => Bool.false_ne_true
  have htable : ∀ k ∈ KEYS, is_special k.2 = true := by decide
  cases e with
  | printable c h => rfl
  | enter c h => rfl
  | backspace c h => rfl
  | key seq ev h =>
    have hspecial : is_special ev = true := htable _ h
    show ((seq.drop 1).map ArmKeyEvent.Char).countP is_special + 1 = [ev].countP is_special
    rw [hchars, List.countP_singleton, if_pos hspecial]
  | mouse r => exact hchars (r.seq.drop 1)

theorem special_flatMap (encodings : List KeyEncoding) :
    (encodings.flatMap KeyEncoding.typed).countP is_special + encodings.countP KeyEncoding.is_key =
      (encodings.filterMap KeyEncoding.event).countP is_special := by
  induction encodings with
  | nil => rfl
  | cons e encodings ih =>
    have hone := special_typed e
    have hcons : (e :: encodings).filterMap KeyEncoding.event =
        e.event.toList ++ encodings.filterMap KeyEncoding.event := by
      rw [List.filterMap_cons]
      cases e.event <;> rfl
    rw [List.flatMap_cons, List.countP_append, List.countP_cons, hcons, List.countP_append]
    omega

theorem plain_typed {encodings : List KeyEncoding} (h : ∀ e ∈ encodings, e.is_sequence = false) :
    encodings.flatMap KeyEncoding.typed = encodings.filterMap KeyEncoding.event ∧
      encodings.filterMap KeyEncoding.report = [] := by
  induction encodings with
  | nil => exact ⟨rfl, rfl⟩
  | cons e encodings ih =>
    obtain ⟨htyped, hreport⟩ := ih fun e' he' => h e' (List.mem_cons_of_mem e he')
    have he := h e List.mem_cons_self
    have hone : e.typed = e.event.toList := if_neg (by rw [he]; exact Bool.false_ne_true)
    have hnone : e.report = none := by
      cases e with
      | mouse r => cases he
      | printable c h => rfl
      | enter c h => rfl
      | backspace c h => rfl
      | key seq ev h => rfl
    rw [List.flatMap_cons, hone, htyped, List.filterMap_cons, List.filterMap_cons, hnone]
    refine ⟨?_, hreport⟩
    cases e.event <;> rfl

/-- **When a drain decodes what a terminal sends**: if none of it begins with ESC. -/
theorem drain_decodes_iff (h : s.Idle) (encodings : List KeyEncoding) :
    Decodes info s (s.drain_uart_input_to_arm_queue info (encodings.flatMap KeyEncoding.bytes)) encodings ↔
      ∀ e ∈ encodings, e.is_sequence = false := by
  rw [drain_encodings h, h.pushes_eq]
  unfold Decodes
  dsimp only
  constructor
  · rintro ⟨hpushed, -, hmoved, -, -, -⟩ e he
    have htyped := List.append_cancel_left hpushed
    have hreports : encodings.filterMap KeyEncoding.report = [] := List.self_eq_append_right.mp hmoved
    have hcount := special_flatMap encodings
    rw [htyped, Nat.add_eq_left, List.countP_eq_zero] at hcount
    have hreport := List.filterMap_eq_nil_iff.mp hreports e he
    have hkey := hcount e he
    cases e with
    | mouse r => cases hreport
    | key seq ev hmem => exact absurd rfl hkey
    | printable c hc => rfl
    | enter c hc => rfl
    | backspace c hc => rfl
  · intro hplain
    obtain ⟨htyped, hreports⟩ := plain_typed hplain
    rw [htyped, hreports]
    exact ⟨rfl, rfl, (List.append_nil _).symm, rfl, h.inactive, h.empty⟩

/-- `q`, backspace and Enter. -/
def TYPED : List KeyEncoding :=
  [.printable 113 (by decide), .backspace 0x7F (by decide), .enter 13 (by decide)]

theorem start_idle : Serial.start.Idle := ⟨rfl, rfl, by decide⟩

theorem typed_keys_decode :
    Decodes ⟨640, 480⟩ .start
      (Serial.start.drain_uart_input_to_arm_queue ⟨640, 480⟩ (TYPED.flatMap KeyEncoding.bytes)) TYPED :=
  (drain_decodes_iff start_idle TYPED).mpr (by unfold TYPED; simp [KeyEncoding.is_sequence])

/-- The arrow up types an A. -/
theorem arrow_types_a :
    (Serial.start.drain_uart_input_to_arm_queue ⟨640, 480⟩
        ((KeyEncoding.key (ascii "[A") .ArrowUp (by decide)).bytes)).queue = [.Char 65] ∧
      ¬ Decodes ⟨640, 480⟩ .start
        (Serial.start.drain_uart_input_to_arm_queue ⟨640, 480⟩
          ([KeyEncoding.key (ascii "[A") .ArrowUp (by decide)].flatMap KeyEncoding.bytes))
        [KeyEncoding.key (ascii "[A") .ArrowUp (by decide)] := by
  have hqueue : (Serial.start.drain_uart_input_to_arm_queue ⟨640, 480⟩ (0x1B :: ascii "[A")).pushed = [.Char 65] := by
    decide
  refine ⟨by decide, ?_⟩
  rintro ⟨hpushed, -⟩
  have hboth := hqueue.symm.trans hpushed
  exact absurd hboth (by decide)

end Whole

end EveOS.Input
