/-
The LOG tab: `draw_log_body`, `log_scroll_by_wheel` and what they count with, of
`kernel/src/gfx.rs`.

The tab shows all lines of the log or those that the kernel wrote itself. Neither list is
kept: both functions go through the ring for each row. What comes out is a window on the
list all the same, which the wheel moves and which follows the newest line for as long as
it stands at the end.
-/
import EveOS.Gfx.SysPanel
import EveOS.Log.LogBuffer

set_option autoImplicit false

namespace EveOS.Gfx

open Log (LogBuffer shown)

/-! ## The lines of a tab -/

def LOG_MSG_START_OFF : Nat := 108
def LOG_LINE_H : Nat := 14

def log_line_is_serial (line : Bytes) : Bool := decide (6 ≤ line.length) && line.take 6 == ascii "[EVE] "

/-- An access beyond the lines of the ring is `none`. -/
def log_filtered_count (log : LogBuffer) (serial_only : Bool) : Option Nat :=
  if !serial_only then some log.count
  else
    (List.range log.count).foldlM (fun n idx => do
      let line ← log.line_at idx
      return if line.any log_line_is_serial then n + 1 else n) 0

/-- The loop of `log_filtered_index`. -/
def serial_index (log : LogBuffer) (row : Nat) : Nat → List Nat → Option (Option Nat)
  | _, [] => some none
  | seen, idx :: rest => do
    let line ← log.line_at idx
    if line.any log_line_is_serial then
      if seen = row then return some idx else serial_index log row (seen + 1) rest
    else serial_index log row seen rest

def log_filtered_index (log : LogBuffer) (serial_only : Bool) (row : Nat) : Option (Option Nat) :=
  if !serial_only then some (if row < log.count then some row else none)
  else serial_index log row 0 (List.range log.count)

def log_line_has (hay needle : Bytes) : Bool := (findWindow needle hay).isSome

/-- The colour of a line. -/
def log_entry_rgb (line : Bytes) : UInt8 × UInt8 × UInt8 :=
  if log_line_has line (ascii "err ") then (0xc8, 0x32, 0x32)
  else if log_line_has line (ascii "panic") then (0xd0, 0x40, 0x40)
  else if log_line_has line (ascii "dhcp") || log_line_has line (ascii "ip ") || log_line_has line (ascii "gw ") then
    (0x16, 0x62, 0x36)
  else if log_line_has line (ascii "nic ") || log_line_has line (ascii "mac ") then (0x22, 0x58, 0xa8)
  else if log_line_has line (ascii "fetch ") then (0x6a, 0x42, 0xb8)
  else if log_line_has line (ascii "power ") then (0x88, 0x5a, 0x18)
  else (0x1a, 0x24, 0x34)

/-! ## The rows of the screen -/

/-- Below it nothing is drawn. -/
def log_y_max (lay : Layout) : Nat := lay.h - (28 + 48)

/-- How many rows of height `line_h` there are from `y` on: the loops of `log_viewport_rows`
and `browser_scroll_slots`. -/
def rows_below (line_h : Nat) [NeZero line_h] (y_max y : Nat) : Nat :=
  if y + line_h ≤ y_max then rows_below line_h y_max (y + line_h) + 1 else 0
  termination_by y_max - y
  decreasing_by
    have := Nat.pos_of_neZero line_h
    omega

instance : NeZero LOG_LINE_H := ⟨by decide⟩

def log_viewport_rows (lay : Layout) : Nat :=
  max (rows_below LOG_LINE_H (log_y_max lay) (lay.content_top + LOG_MSG_START_OFF)) 1

/-- A row as it is drawn: every other one is darker, and its number stands before the
line. -/
structure LogRow where
  y : Nat
  alt : Bool
  number : Nat
  line : Option (Bytes × UInt8 × UInt8 × UInt8)
  deriving DecidableEq

/-- The loop over the rows, with `left` of them to go. -/
def draw_log_rows (log : LogBuffer) (serial_only : Bool) (scroll y_max maxc : Nat) :
    (left row y : Nat) → Option (List LogRow)
  | 0, _, _ => some []
  | left + 1, row, y =>
    if y_max < y + LOG_LINE_H then some []
    else do
      let some idx ← log_filtered_index log serial_only (scroll + row) | return []
      let line ← log.line_at idx
      let rest ← draw_log_rows log serial_only scroll y_max maxc left (row + 1) (y + LOG_LINE_H)
      return ⟨y, row % 2 == 1, scroll + row + 1,
        line.map fun line => (line.take (min line.length maxc), log_entry_rgb line)⟩ :: rest

/-- How many characters of a line are drawn. -/
def log_max_chars (lay : Layout) : Nat := max ((lay.w - (72 + SCROLLBAR_W) - (4 * 6 + 6 + 8)) / 6) 12

namespace ClickState

variable (state : ClickState)

def serial_only : Bool := state.log_subtab = .Serial

/-- The first line that is drawn, of `total`, when `vis` are. -/
def log_scroll (total vis : Nat) : Nat :=
  if state.log_stick_to_bottom then total - vis else min state.log_scroll_line (total - vis)

/-- The rows of `draw_log_body`. -/
def draw_log_body (log : LogBuffer) (lay : Layout) : Option (List LogRow) :=
  if lay.h ≤ lay.content_top + 40 then some []
  else do
    let total ← log_filtered_count log state.serial_only
    let vis := log_viewport_rows lay
    if total = 0 then return []
    else
      draw_log_rows log state.serial_only (state.log_scroll total vis) (log_y_max lay) (log_max_chars lay)
        vis 0 (lay.content_top + LOG_MSG_START_OFF)

/-- The wheel; `lines` is negative towards older lines. -/
def log_scroll_by_wheel (log : LogBuffer) (lay : Layout) (lines : Int) : Option ClickState :=
  if lines = 0 then some state
  else do
    let total ← log_filtered_count log state.serial_only
    if total = 0 then return state
    else
      let max_scroll := total - log_viewport_rows lay
      let eff := state.log_scroll total (log_viewport_rows lay)
      if lines < 0 then
        return { state with
          log_stick_to_bottom := false
          log_scroll_line := eff - (-lines).toNat
          content_dirty := true }
      else
        let new := min (eff + lines.toNat) max_scroll
        return { state with
          log_stick_to_bottom := decide (max_scroll ≤ new) || state.log_stick_to_bottom
          log_scroll_line := new
          content_dirty := true }

end ClickState

/-! ## What the tab shows -/

/-- The lines of a tab, when `ms` are all messages since the boot. -/
def tab_lines (serial_only : Bool) (ms : List Bytes) : List Bytes :=
  if serial_only then ((lastN Log.CAP ms).map shown).filter log_line_is_serial else (lastN Log.CAP ms).map shown

/-- Row `i` of a view that begins at line `first`. -/
def log_row (maxc y first i : Nat) (line : Bytes) : LogRow :=
  ⟨y + i * LOG_LINE_H, i % 2 == 1, first + i + 1, some (line.take (min line.length maxc), log_entry_rgb line)⟩

/-- What is drawn of `lines` from line `first` on. -/
def log_window (lay : Layout) (lines : List Bytes) (first : Nat) : List LogRow :=
  let y := lay.content_top + LOG_MSG_START_OFF
  ((lines.drop first).take (rows_below LOG_LINE_H (log_y_max lay) y)).mapIdx (log_row (log_max_chars lay) y first)

section Lines

variable {log : LogBuffer} {ms : List Bytes}

theorem line_at_holds (h : log.Holds ms) (i : Nat) : log.line_at i = some ((lastN Log.CAP ms).map shown)[i]? := by
  have hlen := h.len
  by_cases hi : i < log.count
  · obtain ⟨msg, hmsg, hline⟩ := Log.line_at_eq h hi
    unfold LogBuffer.count at hmsg
    have hfrom : ms.length - Log.CAP + i = ms.length - log.len + i := by omega
    rw [hline, List.getElem?_map, getElem?_lastN, hfrom, hmsg, Option.map_some]
  · have hout : log.len ≤ i := Nat.not_lt.mp hi
    unfold LogBuffer.line_at
    rw [if_pos hout, List.getElem?_eq_none]
    rw [List.length_map, length_lastN]
    omega

theorem count_holds (h : log.Holds ms) : log.count = ((lastN Log.CAP ms).map shown).length := by
  rw [List.length_map, length_lastN]
  exact h.len

/-- The count over the first `k` lines. -/
theorem serial_count (h : log.Holds ms) {k : Nat} (hk : k ≤ log.count) :
    (List.range k).foldlM (fun n idx => do
      let line ← log.line_at idx
      return if line.any log_line_is_serial then n + 1 else n) 0 =
      some ((((lastN Log.CAP ms).map shown).take k).filter log_line_is_serial).length := by
  rw [count_holds h] at hk
  have hat := line_at_holds h
  generalize (lastN Log.CAP ms).map shown = lines at hk hat ⊢
  induction k with
  | zero => rfl
  | succ k ih =>
    have hget : lines[k]? = some lines[k] := List.getElem?_eq_getElem hk
    rw [List.range_succ, List.foldlM_append, ih (Nat.le_of_succ_le hk), List.take_add_one, hget]
    simp only [Option.bind_eq_bind, Option.bind_some, List.foldlM_cons, List.foldlM_nil, hat, hget,
      Option.any_some, Option.toList_some, List.filter_append, List.length_append, List.filter_singleton]
    by_cases hserial : log_line_is_serial lines[k] = true
    · simp [hserial]
    · simp [hserial]

theorem log_filtered_count_eq (h : log.Holds ms) (serial_only : Bool) :
    log_filtered_count log serial_only = some (tab_lines serial_only ms).length := by
  unfold log_filtered_count tab_lines
  cases serial_only with
  | false =>
    simp only [Bool.not_false, if_true, Bool.false_eq_true, if_false]
    rw [count_holds h]
  | true =>
    have hall := serial_count h (Nat.le_refl log.count)
    rw [count_holds h, List.take_length] at hall
    rw [count_holds h]
    exact hall

/-- The loop from line `k` on finds the line that has `row - seen` others of its kind
in front of it. -/
theorem serial_index_eq (h : log.Holds ms) (row : Nat) {n : Nat} :
    ∀ {k seen : Nat}, k + n = log.count → seen ≤ row →
      ∃ found, serial_index log row seen (List.range' k n) = some found ∧
        found.map (fun idx => ((lastN Log.CAP ms).map shown)[idx]?) =
          ((((lastN Log.CAP ms).map shown).drop k).filter log_line_is_serial)[row - seen]?.map some := by
  rw [count_holds h]
  generalize hlines : (lastN Log.CAP ms).map shown = lines
  have hat : ∀ i, log.line_at i = some lines[i]? := hlines ▸ line_at_holds h
  induction n with
  | zero =>
    intro k seen hk _
    refine ⟨none, rfl, ?_⟩
    rw [List.drop_eq_nil_of_le (by omega)]
    rfl
  | succ n ih =>
    intro k seen hk hseen
    have hlt : k < lines.length := by omega
    have hget : lines[k]? = some lines[k] := List.getElem?_eq_getElem hlt
    rw [List.range'_succ, List.drop_eq_getElem_cons hlt, List.filter_cons]
    unfold serial_index
    rw [hat, hget]
    simp only [Option.bind_eq_bind, Option.bind_some, Option.any_some]
    by_cases hserial : log_line_is_serial lines[k] = true
    · rw [if_pos hserial, if_pos hserial]
      by_cases hrow : seen = row
      · rw [if_pos hrow, hrow, Nat.sub_self]
        exact ⟨some k, rfl, by simp⟩
      · rw [if_neg hrow]
        have hnext : row - seen = (row - (seen + 1)) + 1 := by omega
        rw [hnext, List.getElem?_cons_succ]
        exact ih (by omega) (by omega)
    · rw [if_neg hserial, if_neg hserial]
      exact ih (by omega) hseen

/-- What `log_filtered_index` finds is the line of that row. -/
theorem log_filtered_index_eq (h : log.Holds ms) (serial_only : Bool) (row : Nat) :
    ∃ found, log_filtered_index log serial_only row = some found ∧
      found.map log.line_at = (tab_lines serial_only ms)[row]?.map fun line => some (some line) := by
  have hat : log.line_at = fun i => some ((lastN Log.CAP ms).map shown)[i]? := funext (line_at_holds h)
  unfold log_filtered_index tab_lines
  cases serial_only with
  | false =>
    refine ⟨if row < log.count then some row else none, rfl, ?_⟩
    simp only [Bool.false_eq_true, if_false]
    rw [count_holds h, hat]
    generalize (lastN Log.CAP ms).map shown = lines
    by_cases hrow : row < lines.length
    · rw [if_pos hrow, Option.map_some, List.getElem?_eq_getElem hrow, Option.map_some]
    · rw [if_neg hrow, List.getElem?_eq_none (Nat.not_lt.mp hrow)]
      rfl
  | true =>
    obtain ⟨found, hindex, hfound⟩ := serial_index_eq h row (Nat.zero_add log.count) (Nat.zero_le row)
    rw [List.drop_zero, Nat.sub_zero] at hfound
    refine ⟨found, ?_, ?_⟩
    · rw [← hindex, List.range_eq_range']
      rfl
    · have hmap := congrArg (Option.map some) hfound
      rw [Option.map_map, Option.map_map] at hmap
      rw [hat]
      exact hmap

/-- The rows from row `row` of a view on. -/
theorem draw_log_rows_eq (h : log.Holds ms) (serial_only : Bool) (first y_max maxc y₀ left : Nat) :
    ∀ row : Nat, rows_below LOG_LINE_H y_max (y₀ + row * LOG_LINE_H) ≤ left →
      draw_log_rows log serial_only first y_max maxc left row (y₀ + row * LOG_LINE_H) =
        some ((((tab_lines serial_only ms).drop (first + row)).take (rows_below LOG_LINE_H y_max (y₀ + row * LOG_LINE_H))).mapIdx
          fun i line => log_row maxc y₀ first (row + i) line) := by
  induction left with
  | zero =>
    intro row hleft
    rw [Nat.le_zero.mp hleft]
    rfl
  | succ left ih =>
    intro row hleft
    have hnext : y₀ + row * LOG_LINE_H + LOG_LINE_H = y₀ + (row + 1) * LOG_LINE_H := by rw [Nat.succ_mul, Nat.add_assoc]
    unfold draw_log_rows
    unfold rows_below at hleft ⊢
    rw [hnext] at hleft ⊢
    by_cases hroom : y₀ + (row + 1) * LOG_LINE_H ≤ y_max
    · rw [if_pos hroom] at hleft
      rw [if_pos hroom, if_neg (Nat.not_lt.mpr hroom)]
      obtain ⟨found, hindex, hfound⟩ := log_filtered_index_eq h serial_only (first + row)
      rw [hindex]
      by_cases hline : first + row < (tab_lines serial_only ms).length
      · rw [List.getElem?_eq_getElem hline, Option.map_some] at hfound
        obtain ⟨idx, rfl, hat⟩ := Option.map_eq_some_iff.mp hfound
        have hdrop := List.drop_eq_getElem_cons hline
        rw [hdrop, List.take_succ_cons, List.mapIdx_cons]
        simp only [Option.bind_eq_bind, Option.bind_some, hat, ih (row + 1) (Nat.le_of_succ_le_succ hleft)]
        have hshift : (fun i line => log_row maxc y₀ first (row + 1 + i) line) =
            fun i line => log_row maxc y₀ first (row + (i + 1)) line := by
          funext i line
          rw [Nat.add_assoc, Nat.add_comm 1 i]
        rw [hshift]
        rfl
      · rw [List.getElem?_eq_none (Nat.not_lt.mp hline)] at hfound
        rw [Option.map_eq_none_iff.mp hfound, List.drop_eq_nil_of_le (Nat.not_lt.mp hline)]
        rfl
    · rw [if_neg hroom, if_pos (Nat.not_le.mp hroom)]
      rfl

/-- A panel without room for its heading has no rows. -/
theorem rows_below_eq_zero {lay : Layout} (h : lay.h ≤ lay.content_top + 40) :
    rows_below LOG_LINE_H (log_y_max lay) (lay.content_top + LOG_MSG_START_OFF) = 0 := by
  unfold rows_below log_y_max LOG_MSG_START_OFF LOG_LINE_H
  rw [if_neg]
  omega

variable {state : ClickState} {lay : Layout}

theorem draw_log_body_eq (h : log.Holds ms) (state : ClickState) (lay : Layout) :
    state.draw_log_body log lay = some (log_window lay (tab_lines state.serial_only ms)
      (state.log_scroll (tab_lines state.serial_only ms).length (log_viewport_rows lay))) := by
  unfold ClickState.draw_log_body log_window
  dsimp only
  by_cases hroom : lay.h ≤ lay.content_top + 40
  · rw [if_pos hroom, rows_below_eq_zero hroom]
    rfl
  · rw [if_neg hroom, log_filtered_count_eq h]
    simp only [Option.bind_eq_bind, Option.bind_some]
    by_cases hnone : (tab_lines state.serial_only ms).length = 0
    · rw [if_pos hnone, List.eq_nil_of_length_eq_zero hnone]
      simp
    · rw [if_neg hnone]
      have hrows := draw_log_rows_eq h state.serial_only
        (state.log_scroll (tab_lines state.serial_only ms).length (log_viewport_rows lay)) (log_y_max lay)
        (log_max_chars lay) (lay.content_top + LOG_MSG_START_OFF) (log_viewport_rows lay) 0
      rw [Nat.zero_mul, Nat.add_zero] at hrows
      rw [hrows (Nat.le_max_left _ _)]
      simp only [Nat.add_zero, Nat.zero_add]

theorem log_scroll_le (total vis : Nat) : state.log_scroll total vis ≤ total - vis := by
  unfold ClickState.log_scroll
  split_ifs
  · exact Nat.le_refl _
  · exact Nat.min_le_right _ _

/-- A view above the last page stays where it is when there are more lines. -/
theorem log_scroll_stays {total total' vis : Nat} (hle : total ≤ total')
    (habove : state.log_scroll total vis < total - vis) : state.log_scroll total' vis = state.log_scroll total vis := by
  unfold ClickState.log_scroll at habove ⊢
  split_ifs at habove ⊢ with hstick
  · exact absurd habove (Nat.lt_irrefl _)
  · omega

/-- A page is as full as the lines allow. -/
theorem length_log_window {lines : List Bytes} {first : Nat} (h : first ≤ lines.length - log_viewport_rows lay) :
    (log_window lay lines first).length =
      min (rows_below LOG_LINE_H (log_y_max lay) (lay.content_top + LOG_MSG_START_OFF)) lines.length := by
  unfold log_viewport_rows at h
  unfold log_window
  dsimp only
  rw [List.length_mapIdx, List.length_take, List.length_drop]
  omega

/-- Where the wheel leaves the view. -/
theorem wheel_moves (h : log.Holds ms) (state : ClickState) (lay : Layout) (notches : Int) :
    ∃ state', state.log_scroll_by_wheel log lay notches = some state' ∧ state'.serial_only = state.serial_only ∧
      state'.log_scroll (tab_lines state.serial_only ms).length (log_viewport_rows lay) =
        (min (state.log_scroll (tab_lines state.serial_only ms).length (log_viewport_rows lay) + notches)
          ((tab_lines state.serial_only ms).length - log_viewport_rows lay : Nat)).toNat := by
  have hle := @log_scroll_le state (tab_lines state.serial_only ms).length (log_viewport_rows lay)
  have hstick : state.log_stick_to_bottom = true → state.log_scroll (tab_lines state.serial_only ms).length
      (log_viewport_rows lay) = (tab_lines state.serial_only ms).length - log_viewport_rows lay := fun h => if_pos h
  unfold ClickState.log_scroll_by_wheel
  rw [log_filtered_count_eq h]
  simp only [Option.bind_eq_bind, Option.bind_some]
  generalize (tab_lines state.serial_only ms).length = total at hle hstick ⊢
  generalize log_viewport_rows lay = vis at hle hstick ⊢
  generalize hfirst : state.log_scroll total vis = first at hle hstick ⊢
  by_cases hstill : notches = 0
  · rw [if_pos hstill]
    refine ⟨state, rfl, rfl, ?_⟩
    omega
  rw [if_neg hstill]
  by_cases hnone : total = 0
  · rw [if_pos hnone]
    refine ⟨state, rfl, rfl, ?_⟩
    omega
  rw [if_neg hnone]
  by_cases hup : notches < 0
  · rw [if_pos hup]
    refine ⟨_, rfl, rfl, ?_⟩
    show min (first - (-notches).toNat) (total - vis) = _
    omega
  · rw [if_neg hup]
    refine ⟨_, rfl, rfl, ?_⟩
    unfold ClickState.log_scroll
    dsimp only
    by_cases hend : total - vis ≤ min (first + notches.toNat) (total - vis)
    · simp only [hend, decide_true, Bool.true_or, if_true]
      omega
    · -- a view that sticks is at the end already
      have hfree : state.log_stick_to_bottom = false := by
        apply Bool.eq_false_iff.mpr
        intro h
        have := hstick h
        omega
      simp only [hend, hfree, decide_false, Bool.false_or, Bool.false_eq_true, if_false]
      omega

/-- One more line, for as long as none is lost. -/
theorem tab_lines_concat (hroom : ms.length < Log.CAP) (serial_only : Bool) (msg : Bytes) :
    ∃ more, tab_lines serial_only (ms ++ [msg]) = tab_lines serial_only ms ++ more := by
  unfold tab_lines
  rw [lastN_concat_of_lt hroom, List.map_append]
  cases serial_only with
  | false => exact ⟨_, rfl⟩
  | true =>
    simp only [if_true]
    rw [List.filter_append]
    exact ⟨_, rfl⟩

/-- Lines that come behind a view are not seen in it. -/
theorem log_window_append {lines : List Bytes} {first : Nat} (h : first < lines.length - log_viewport_rows lay)
    (more : List Bytes) : log_window lay (lines ++ more) first = log_window lay lines first := by
  unfold log_viewport_rows at h
  unfold log_window
  dsimp only
  rw [List.drop_append_of_le_length (by omega), List.take_append_of_le_length]
  rw [List.length_drop]
  omega

end Lines

/-- **The LOG tab is a window on the log.** After any messages, on any screen and wherever
the tab was left, what is drawn is a page of the tab's lines, full if there are enough of
them, and the last page while the view sticks to the end. The wheel moves it by as many
lines as it turns, up to the ends, and a new message does not move a page above the last
one, unless the oldest line is lost. -/
theorem log_tab_is_a_window (ms : List Bytes) (state : ClickState) (lay : Layout) :
    let log := run LogBuffer.push_line .start ms
    let lines := tab_lines state.serial_only ms
    let last := lines.length - log_viewport_rows lay
    ∃ first ≤ last,
      state.draw_log_body log lay = some (log_window lay lines first) ∧
      (log_window lay lines first).length =
        min (rows_below LOG_LINE_H (log_y_max lay) (lay.content_top + LOG_MSG_START_OFF)) lines.length ∧
      (state.log_stick_to_bottom = true → first = last) ∧
      (∀ notches : Int, ∃ state', state.log_scroll_by_wheel log lay notches = some state' ∧
        state'.draw_log_body log lay = some (log_window lay lines (min (first + notches) last).toNat)) ∧
      (first < last → ms.length < Log.CAP → ∀ msg,
        state.draw_log_body (log.push_line msg) lay = some (log_window lay lines first)) := by
  have h := Log.run_holds ms
  have hle := @log_scroll_le state (tab_lines state.serial_only ms).length (log_viewport_rows lay)
  refine ⟨_, hle, draw_log_body_eq h state lay, length_log_window hle, fun hstick => if_pos hstick, ?_, ?_⟩
  · intro notches
    obtain ⟨state', hwheel, htab, hfirst⟩ := wheel_moves h state lay notches
    refine ⟨state', hwheel, ?_⟩
    rw [draw_log_body_eq h, htab, hfirst]
  · intro hbefore hroom msg
    obtain ⟨more, hmore⟩ := tab_lines_concat hroom state.serial_only msg
    have hlen : (tab_lines state.serial_only ms).length ≤ (tab_lines state.serial_only (ms ++ [msg])).length := by
      rw [hmore, List.length_append]
      exact Nat.le_add_right _ _
    rw [draw_log_body_eq (Log.push_line_holds h msg), log_scroll_stays hlen hbefore, hmore,
      log_window_append hbefore more]

end EveOS.Gfx
