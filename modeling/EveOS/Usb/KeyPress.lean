/-
Key presses: `kernel/src/usb_hid/x86.rs`.

A boot keyboard says which keys are down, in six places; with more keys down than that
it says 0x01 in all of them. The kernel compares each report with the one before it,
and queues a key press for each code that is new. It takes 0x01 for a key as well: six
presses of it, and behind them every key that was held all along is new again.

Presses and releases lead from any set of keys to any other one, so a history of a
keyboard is given by the keys that are down at each of its reports.
-/
import EveOS.Lib.Ring

set_option autoImplicit false

namespace EveOS.Hid

/-- A usage code and whether shift was down. -/
abbrev KeyPress := UInt8 × Bool

/-! ## The kernel -/

def KBD_Q_CAP : Nat := 8

structure Keys where
  prev_kbd_report : Vector UInt8 8
  kbd_queue : Nat → KeyPress
  kbd_q_head : Nat
  kbd_q_tail : Nat

/-- Behind `init`. -/
def Keys.empty : Keys := ⟨.replicate 8 0, fun _ => (0, false), 0, 0⟩

def Keys.kbd_q_push (s : Keys) (usage : UInt8) (shift : Bool) : Keys :=
  let n := (s.kbd_q_tail + 1) % KBD_Q_CAP
  if n = s.kbd_q_head then s
  else
    { s with
      kbd_queue := Function.update s.kbd_queue s.kbd_q_tail (usage, shift)
      kbd_q_tail := n }

def Keys.kbd_q_pop (s : Keys) : Option KeyPress × Keys :=
  if s.kbd_q_head = s.kbd_q_tail then (none, s)
  else
    (some (s.kbd_queue s.kbd_q_head), { s with kbd_q_head := (s.kbd_q_head + 1) % KBD_Q_CAP })

/-- `rep[2..8]`. -/
def codes (rep : Vector UInt8 8) : List UInt8 := rep.toList.drop 2

def shift (rep : Vector UInt8 8) : Bool := rep.get 0 &&& 0x22 ≠ 0

/-- What `poll_usb_key_press` does with a report. -/
def Keys.take_report (s : Keys) (rep : Vector UInt8 8) : Keys :=
  let old := codes s.prev_kbd_report
  let push (s : Keys) (k : UInt8) : Keys :=
    if k = 0 ∨ k ∈ old then s else s.kbd_q_push k (shift rep)
  { (codes rep).foldl push s with prev_kbd_report := rep }

/-- The driver is given by its state, by whether its keyboard is on, and by what polls of it
return. -/
def poll_usb_key_press {δ : Type} (usb_keyboard_active : δ → Bool)
    (poll_keyboard_report_any : δ → Option (Vector UInt8 8) × δ) (s : Keys) (d : δ) :
    Option KeyPress × Keys × δ :=
  if usb_keyboard_active d = false then (none, s, d)
  else
    match s.kbd_q_pop.1 with
    | some v => (some v, s.kbd_q_pop.2, d)
    | none =>
      let r := poll_keyboard_report_any d
      match r.1 with
      | none => (none, s, r.2)
      | some rep =>
        let p := (s.take_report rep).kbd_q_pop
        (p.1, p.2, r.2)

/-! ## The keyboard -/

/-- The keys that are down. The codes up to 3 are no keys. -/
structure Board where
  modifiers : UInt8
  held : List UInt8
  nodup : held.Nodup
  usages : ∀ k ∈ held, 3 < k

def ERROR_ROLL_OVER : UInt8 := 1

def Board.Rollover (b : Board) : Prop := 6 < b.held.length

instance (b : Board) : Decidable b.Rollover := inferInstanceAs (Decidable (_ < _))

/-- A report of these keys, in places of the keyboard's choice. -/
structure Board.Shows (b : Board) (rep : Vector UInt8 8) : Prop where
  modifiers : rep.get 0 = b.modifiers
  keys : ¬b.Rollover → ((codes rep).filter (· ≠ 0)).Perm b.held
  rollover : b.Rollover → codes rep = .replicate 6 ERROR_ROLL_OVER

structure Report where
  bytes : Vector UInt8 8
  board : Board
  shows : board.Shows bytes

/-- The presses that a report shows, when `known` are the keys that were shown before and
have been held since. -/
def Report.presses (r : Report) (known : List UInt8) : List KeyPress :=
  ((codes r.bytes).filter (fun k => k ∈ r.board.held ∧ k ∉ known)).map (·, shift r.bytes)

/-- The presses of a history: a key counts when its code becomes visible after it was
released, and a rollover shows none. -/
def key_presses (known : List UInt8) : List Report → List KeyPress
  | [] => []
  | r :: rs =>
    if r.board.Rollover then key_presses (known.filter (· ∈ r.board.held)) rs
    else r.presses known ++ key_presses r.board.held rs

/-! ## Calls -/

/-- What the next polls bring: a report, or a failure. -/
abbrev Pending := List (Option Report)

def next_poll : Pending → Option (Vector UInt8 8) × Pending
  | [] => (none, [])
  | p :: ps => (p.map (·.bytes), ps)

/-- A call, with the keyboard on. -/
def call (s : Keys) (ps : Pending) : Option KeyPress × Keys × Pending :=
  poll_usb_key_press (fun _ => true) next_poll s ps

/-- What `n` calls in a row return, without the `None`s. -/
def calls : Nat → Keys → Pending → List KeyPress
  | 0, _, _ => []
  | n + 1, s, ps => (call s ps).1.toList ++ calls n (call s ps).2.1 (call s ps).2.2

/-! ## The queue -/

/-- These presses are queued. -/
structure Queued (s : Keys) (q : List KeyPress) : Prop where
  head : s.kbd_q_head < KBD_Q_CAP
  tail : s.kbd_q_tail = (s.kbd_q_head + q.length) % KBD_Q_CAP
  slots : InSlots KBD_Q_CAP s.kbd_queue s.kbd_q_head q

variable {s : Keys} {q : List KeyPress} {v : KeyPress} {rep : Vector UInt8 8}

theorem queued_empty : Queued .empty [] := ⟨by decide, rfl, .nil (by decide)⟩

theorem pop_none (h : Queued s []) : s.kbd_q_pop.1 = none := by
  have htail : s.kbd_q_head = s.kbd_q_tail := by
    rw [h.tail, List.length_nil, Nat.add_zero, Nat.mod_eq_of_lt h.head]
  rw [Keys.kbd_q_pop, if_pos htail]

theorem pop_some (h : Queued s (v :: q)) :
    s.kbd_q_pop.1 = some v ∧ Queued s.kbd_q_pop.2 q ∧
      s.kbd_q_pop.2.prev_kbd_report = s.prev_kbd_report := by
  have hfits := h.slots.fits
  rw [List.length_cons] at hfits
  have hne : s.kbd_q_head ≠ s.kbd_q_tail := by
    rw [h.tail, List.length_cons]
    intro heq
    have hsame : (s.kbd_q_head + 0) % KBD_Q_CAP = (s.kbd_q_head + (q.length + 1)) % KBD_Q_CAP := by
      rwa [Nat.add_zero, Nat.mod_eq_of_lt h.head]
    have hzero := (slot_inj (by omega) hfits).mp hsame
    omega
  obtain ⟨hfront, hrest⟩ := h.slots.get
  rw [Nat.mod_eq_of_lt h.head] at hfront
  rw [Keys.kbd_q_pop, if_neg hne]
  refine ⟨by rw [hfront], ⟨Nat.mod_lt _ (by decide), ?_, hrest.congr (Nat.mod_mod _ _)⟩, rfl⟩
  show s.kbd_q_tail = ((s.kbd_q_head + 1) % KBD_Q_CAP + q.length) % KBD_Q_CAP
  rw [h.tail, Nat.mod_add_mod, List.length_cons, Nat.add_assoc, Nat.add_comm 1]

/-- There is room for seven. -/
theorem push_queued (h : Queued s q) (hroom : q.length + 1 < KBD_Q_CAP) (k : UInt8) (sh : Bool) :
    Queued (s.kbd_q_push k sh) (q ++ [(k, sh)]) := by
  have hne : (s.kbd_q_tail + 1) % KBD_Q_CAP ≠ s.kbd_q_head := by
    rw [h.tail, Nat.mod_add_mod, Nat.add_assoc]
    intro heq
    have hsame : (s.kbd_q_head + (q.length + 1)) % KBD_Q_CAP = (s.kbd_q_head + 0) % KBD_Q_CAP := by
      rw [heq, Nat.add_zero, Nat.mod_eq_of_lt h.head]
    have hzero := (slot_inj hroom (by omega)).mp hsame
    omega
  rw [Keys.kbd_q_push, if_neg hne]
  refine ⟨h.head, ?_, ?_⟩
  · show (s.kbd_q_tail + 1) % KBD_Q_CAP = (s.kbd_q_head + (q ++ [(k, sh)]).length) % KBD_Q_CAP
    rw [h.tail, Nat.mod_add_mod, List.length_append, List.length_singleton, Nat.add_assoc]
  · show InSlots KBD_Q_CAP (Function.update s.kbd_queue s.kbd_q_tail (k, sh)) s.kbd_q_head _
    rw [h.tail]
    exact h.slots.put hroom (k, sh)

theorem push_prev (s : Keys) (k : UInt8) (sh : Bool) :
    (s.kbd_q_push k sh).prev_kbd_report = s.prev_kbd_report := by
  unfold Keys.kbd_q_push
  dsimp only
  split <;> rfl

/-- The presses that the kernel makes of a report. -/
def new_presses (prev rep : Vector UInt8 8) : List KeyPress :=
  ((codes rep).filter (fun k => k ≠ 0 ∧ k ∉ codes prev)).map (·, shift rep)

theorem codes_length (rep : Vector UInt8 8) : (codes rep).length = 6 := by
  rw [codes, List.length_drop, Vector.length_toList]

/-- A report is compared with the one before it, and finds room if the queue is empty. -/
theorem take_report_queued (h : Queued s []) (rep : Vector UInt8 8) :
    Queued (s.take_report rep) (new_presses s.prev_kbd_report rep) ∧
      (s.take_report rep).prev_kbd_report = rep := by
  have hfold : ∀ (old ks : List UInt8) (s : Keys) (q : List KeyPress), Queued s q →
      q.length + ks.length < KBD_Q_CAP →
      Queued
        (ks.foldl (fun s k => if k = 0 ∨ k ∈ old then s else s.kbd_q_push k (shift rep)) s)
        (q ++ (ks.filter (fun k => k ≠ 0 ∧ k ∉ old)).map (·, shift rep)) := by
    intro old ks
    induction ks with
    | nil =>
      intro s q hq _
      rwa [List.filter_nil, List.map_nil, List.append_nil]
    | cons k ks ih =>
      intro s q hq hroom
      rw [List.length_cons] at hroom
      rw [List.foldl_cons]
      by_cases hk : k = 0 ∨ k ∈ old
      · have hskip : ¬(k ≠ 0 ∧ k ∉ old) := by tauto
        rw [if_pos hk, List.filter_cons_of_neg (by simpa using hskip)]
        exact ih s q hq (by omega)
      · have hkeep : k ≠ 0 ∧ k ∉ old := by tauto
        have hpush := push_queued hq (by omega) k (shift rep)
        have hrest := ih _ _ hpush (by rw [List.length_append, List.length_singleton]; omega)
        rw [if_neg hk, List.filter_cons_of_pos (by simpa using hkeep), List.map_cons]
        rwa [List.append_assoc, List.singleton_append] at hrest
  have hroom : ([] : List KeyPress).length + (codes rep).length < KBD_Q_CAP := by
    rw [codes_length]
    decide
  have hqueued := hfold (codes s.prev_kbd_report) (codes rep) s [] h hroom
  exact ⟨⟨hqueued.head, hqueued.tail, hqueued.slots⟩, rfl⟩

/-! ## A call -/

/-- The presses that the kernel makes of a history. -/
def made_presses (prev : Vector UInt8 8) : List Report → List KeyPress
  | [] => []
  | r :: rs => new_presses prev r.bytes ++ made_presses r.bytes rs

/-- What is queued and what the reports to come will give. -/
def outstanding (prev : Vector UInt8 8) (q : List KeyPress) (ps : Pending) : List KeyPress :=
  q ++ made_presses prev ps.reduceOption

/-- How many calls it can take until there is nothing left. -/
def fuel (q : List KeyPress) (ps : Pending) : Nat := q.length + 7 * ps.length

/-- **One call** takes the next press of those outstanding, if there is one to take yet, and
brings the end nearer. -/
theorem call_spec (h : Queued s q) (ps : Pending) :
    ∃ q', Queued (call s ps).2.1 q' ∧
      (call s ps).1.toList ++ outstanding (call s ps).2.1.prev_kbd_report q' (call s ps).2.2 =
        outstanding s.prev_kbd_report q ps ∧
      fuel q' (call s ps).2.2 ≤ fuel q ps - 1 := by
  cases q with
  | cons v q =>
    obtain ⟨hpop, hq, hprev⟩ := pop_some h
    have hcall : call s ps = (some v, s.kbd_q_pop.2, ps) := by
      simp [call, poll_usb_key_press, hpop]
    rw [hcall]
    refine ⟨q, hq, ?_, ?_⟩
    · simp [outstanding, hprev]
    · simp [fuel]
  | nil =>
    have hpop := pop_none h
    rcases ps with _ | ⟨_ | r, ps⟩
    · have hcall : call s [] = (none, s, []) := by simp [call, poll_usb_key_press, hpop, next_poll]
      rw [hcall]
      exact ⟨[], h, rfl, by simp [fuel]⟩
    · have hcall : call s (none :: ps) = (none, s, ps) := by
        simp [call, poll_usb_key_press, hpop, next_poll]
      rw [hcall]
      refine ⟨[], h, ?_, ?_⟩
      · simp [outstanding, List.reduceOption_cons_of_none]
      · simp only [fuel, List.length_nil, List.length_cons]
        omega
    · obtain ⟨hqueued, hprev⟩ := take_report_queued h r.bytes
      have hcall : call s (some r :: ps) =
          ((s.take_report r.bytes).kbd_q_pop.1, (s.take_report r.bytes).kbd_q_pop.2, ps) := by
        simp [call, poll_usb_key_press, hpop, next_poll]
      have hall : outstanding s.prev_kbd_report [] (some r :: ps) =
          new_presses s.prev_kbd_report r.bytes ++ made_presses r.bytes ps.reduceOption := by
        rw [outstanding, List.nil_append, List.reduceOption_cons_of_some, made_presses]
      rw [hcall, hall]
      have hlen : (new_presses s.prev_kbd_report r.bytes).length ≤ 6 := by
        rw [new_presses, List.length_map, ← codes_length r.bytes]
        exact List.length_filter_le _ _
      cases hnew : new_presses s.prev_kbd_report r.bytes with
      | nil =>
        rw [hnew] at hqueued
        have hempty := pop_none hqueued
        have hsame : (s.take_report r.bytes).kbd_q_pop.2 = s.take_report r.bytes := by
          unfold Keys.kbd_q_pop at hempty ⊢
          split_ifs at hempty ⊢ with hhead
          rfl
        refine ⟨[], by rw [hsame]; exact hqueued, ?_, ?_⟩
        · simp [hempty, hsame, hprev, outstanding]
        · simp only [fuel, List.length_nil, List.length_cons]
          omega
      | cons v q =>
        rw [hnew] at hqueued hlen
        obtain ⟨hfirst, hrest, hkeep⟩ := pop_some hqueued
        refine ⟨q, hrest, ?_, ?_⟩
        · simp [hfirst, hkeep, hprev, outstanding]
        · simp only [fuel, List.length_nil, List.length_cons] at hlen ⊢
          omega

/-- Enough calls return what is outstanding, in order and each press once. -/
theorem calls_all {n : Nat} (h : Queued s q) (ps : Pending) (hn : fuel q ps ≤ n) :
    calls n s ps = outstanding s.prev_kbd_report q ps := by
  induction n generalizing s q ps with
  | zero =>
    have hlen : q.length = 0 ∧ ps.length = 0 := by
      unfold fuel at hn
      omega
    rw [List.length_eq_zero_iff.mp hlen.1, List.length_eq_zero_iff.mp hlen.2]
    rfl
  | succ n ih =>
    obtain ⟨q', hq', hall, hfuel⟩ := call_spec h ps
    rw [calls, ih hq' _ (by omega), hall]

/-! ## What the kernel makes of a history -/

/-- `known` are the keys in the last report. -/
def Agrees (prev : Vector UInt8 8) (known : List UInt8) : Prop := ∀ k, k ≠ 0 → (k ∈ codes prev ↔ k ∈ known)

theorem agrees_empty : Agrees (.replicate 8 0) [] := by
  intro k hk
  have hzero : codes (.replicate 8 0) = .replicate 6 0 := by decide
  simp [hzero, hk]

/-- A key is shown if it is held. -/
theorem Board.Shows.mem_held {b : Board} (h : b.Shows rep) (hvis : ¬b.Rollover) {k : UInt8}
    (hk : k ∈ codes rep) : k ∈ b.held ↔ k ≠ 0 := by
  rw [← (h.keys hvis).mem_iff, List.mem_filter]
  simp [hk]

theorem Board.Shows.agrees {b : Board} (h : b.Shows rep) (hvis : ¬b.Rollover) : Agrees rep b.held := by
  intro k hk
  rw [← (h.keys hvis).mem_iff, List.mem_filter]
  simp [hk]

variable {known : List UInt8} {prev : Vector UInt8 8} {r : Report}

/-- **A visible report** gives the presses that it shows. -/
theorem new_presses_visible (h : Agrees prev known) (hvis : ¬r.board.Rollover) :
    new_presses prev r.bytes = r.presses known := by
  rw [new_presses, Report.presses]
  congr 1
  apply List.filter_congr
  intro k hk
  have hheld := r.shows.mem_held hvis hk
  by_cases hzero : k = 0
  · rw [hzero] at hheld
    simp [hheld, hzero]
  · simp [hheld, hzero, h k hzero]

/-- A rollover behind a visible report gives a press of 0x01, six times. -/
theorem new_presses_rollover (h : Agrees prev known) (hknown : ERROR_ROLL_OVER ∉ known)
    (hroll : r.board.Rollover) :
    new_presses prev r.bytes = .replicate 6 (ERROR_ROLL_OVER, shift r.bytes) := by
  have hnew : ERROR_ROLL_OVER ∉ codes prev := by
    rwa [h ERROR_ROLL_OVER (by decide)]
  have hnz : ERROR_ROLL_OVER ≠ 0 := by decide
  rw [new_presses, r.shows.rollover hroll, List.filter_replicate, if_pos (by simp [hnew, hnz]),
    List.map_replicate]

/-- The presses of a history are presses of keys. -/
theorem key_presses_usage {rs : List Report} {v : KeyPress} (h : v ∈ key_presses known rs) : 3 < v.1 := by
  induction rs generalizing known with
  | nil => cases h
  | cons r rs ih =>
    rw [key_presses] at h
    split_ifs at h with hroll
    · exact ih h
    · rcases List.mem_append.mp h with hnow | hlater
      · rw [Report.presses, List.mem_map] at hnow
        obtain ⟨k, hk, rfl⟩ := hnow
        have hheld := (List.mem_filter.mp hk).2
        simp only [decide_eq_true_eq] at hheld
        exact r.board.usages k hheld.1
      · exact ih hlater

/-- What the kernel makes of a history are its presses, unless there is a rollover in it. -/
theorem made_presses_iff {rs : List Report} (h : Agrees prev known) (hknown : ∀ k ∈ known, 3 < k) :
    made_presses prev rs = key_presses known rs ↔ ∀ r ∈ rs, ¬r.board.Rollover := by
  induction rs generalizing prev known with
  | nil => simp [made_presses, key_presses]
  | cons r rs ih =>
    rw [made_presses, key_presses, List.forall_mem_cons]
    by_cases hroll : r.board.Rollover
    · have hnew := new_presses_rollover h (fun hk => absurd (hknown _ hk) (by decide)) hroll
      rw [if_pos hroll]
      refine iff_of_false ?_ (fun hall => hall.1 hroll)
      intro heq
      -- the first press that is returned is one of 0x01
      have hmem : (ERROR_ROLL_OVER, shift r.bytes) ∈ new_presses prev r.bytes ++ made_presses r.bytes rs := by
        rw [hnew]
        simp
      rw [heq] at hmem
      have husage : 3 < ERROR_ROLL_OVER := key_presses_usage hmem
      exact absurd husage (by decide)
    · rw [if_neg hroll, new_presses_visible h hroll, List.append_cancel_left_eq,
        ih (r.shows.agrees hroll) r.board.usages]
      exact ⟨fun hrest => ⟨hroll, hrest⟩, fun hall => hall.2⟩

/-- **When every key press is reported once.** For every history of a keyboard and every
pattern of failed polls, calls until there is nothing left return the presses of the
history, if and only if no report of it is a rollover. -/
theorem key_presses_iff (ps : Pending) (n : Nat) (hn : 7 * ps.length ≤ n) :
    calls n .empty ps = key_presses [] ps.reduceOption ↔ ∀ r ∈ ps.reduceOption, ¬r.board.Rollover := by
  have hall := calls_all queued_empty ps (n := n) (by simpa [fuel] using hn)
  have hstart : outstanding Keys.empty.prev_kbd_report [] ps =
      made_presses (.replicate 8 0) ps.reduceOption := rfl
  rw [hall, hstart]
  exact made_presses_iff agrees_empty (by simp)

/-! ### A key that is held through a rollover -/

/-- The key A. -/
def board_a : Board := ⟨0, [4], by simp, by simp⟩

/-- A and six more. -/
def board_a_to_g : Board := ⟨0, [4, 5, 6, 7, 8, 9, 10], by simp, by simp⟩

def report_a : Report where
  bytes := #v[0, 0, 4, 0, 0, 0, 0, 0]
  board := board_a
  shows := ⟨rfl, fun _ => by decide, fun h => absurd h (by decide)⟩

def report_rollover : Report where
  bytes := #v[0, 0, 1, 1, 1, 1, 1, 1]
  board := board_a_to_g
  shows := ⟨rfl, fun h => absurd (by decide) h, fun _ => by decide⟩

/-- A is pressed while one poll fails, and shows once. -/
theorem one_key_pressed :
    7 * 2 ≤ 14 ∧ (calls 14 .empty [none, some report_a] = key_presses [] [report_a] ↔
      ∀ r ∈ [report_a], ¬r.board.Rollover) :=
  ⟨by decide, key_presses_iff [none, some report_a] 14 (by decide)⟩

/-- A is held while six more keys go down and up again: A is reported twice, and what is
reported in between is no key. -/
theorem rollover_repeats :
    calls 21 .empty [some report_a, some report_rollover, some report_a] =
        [(4, false), (1, false), (1, false), (1, false), (1, false), (1, false), (1, false), (4, false)] ∧
      key_presses [] [report_a, report_rollover, report_a] = [(4, false)] ∧
      calls 21 .empty [some report_a, some report_rollover, some report_a] ≠
        key_presses [] [report_a, report_rollover, report_a] := by
  decide

end EveOS.Hid
