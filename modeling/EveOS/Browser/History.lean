/-
The URL history: `history_push_current`, `history_go_back` and
`history_go_forward` of `kernel/src/gfx.rs`, the buttons of the URL bar, and
`start_browser_fetch` with the reload request of `kernel/src/main.rs`.

Beside them stands what the history is for, a bounded zipper of URLs. The two agree
as long as no URL is visited that is as long as the current entry: the comparison
that is to find a visit of the current entry compares the URL with itself. And the
flag that tells a reload from a visit is set by a click and taken back by a fetch,
which need not be those of the same request.
-/
import EveOS.Browser.Render
import EveOS.Lib.Zipper

set_option autoImplicit false

namespace EveOS.Browser

open Net
open Settings (PERSIST_BOOKMARK_SLOTS PERSIST_BOOKMARK_URL_CAP)

/-- The size of `UiState::url`. -/
def URL_CAP : Nat := 192

def URL_HISTORY_CAP : Nat := 16

/-! ## The state -/

/-- The part of `UiState` around the URL bar. `url` is the filled part of the buffer, row
`i` of `url_history` the first `url_history_lens[i]` bytes. `fetched` is the URL of the
last fetch. -/
structure Chrome where
  url : Bytes
  settings : Settings.DeviceSettings
  url_history : List Bytes
  history_count : Nat
  history_pos : Nat
  history_skip_push : Bool
  inet_reload_request : Bool
  fetched : Option Bytes
  deriving DecidableEq

def Chrome.boot (settings : Settings.DeviceSettings) : Chrome where
  url := boot_url settings
  settings := settings
  url_history := boot_url settings :: List.replicate (URL_HISTORY_CAP - 1) []
  history_count := 1
  history_pos := 0
  history_skip_push := false
  inet_reload_request := false
  fetched := none

/-! ## The history -/

/-- The loop over the rows of a full history. -/
def shift_rows (rows : List Bytes) : List Bytes :=
  (List.range' 1 (URL_HISTORY_CAP - 1)).foldl (fun rows i => rows.set (i - 1) (rows.getD i [])) rows

namespace Chrome

variable (c : Chrome)

def history_can_back : Bool := decide (0 < c.history_pos)

def history_can_forward : Bool := decide (c.history_pos + 1 < c.history_count)

/-- The entry at `history_pos`. -/
def entry : Bytes := c.url_history.getD c.history_pos []

def history_load_at_pos : Chrome := { c with url := c.entry }

def history_push_current : Chrome :=
  if c.url = [] then c
  -- both slices are slices of the URL
  else if 0 < c.history_count ∧ c.entry.length = c.url.length ∧
      c.url.take c.entry.length = c.url.take c.url.length then c
  else
    let new_pos := c.history_pos + 1
    let c :=
      if URL_HISTORY_CAP ≤ new_pos then
        { c with
          url_history := shift_rows c.url_history
          history_pos := URL_HISTORY_CAP - 1
          history_count := URL_HISTORY_CAP }
      else { c with history_count := new_pos + 1, history_pos := new_pos }
    { c with url_history := c.url_history.set c.history_pos (c.url.take (min c.url.length URL_CAP)) }

def history_go_back : Chrome × Bool :=
  if !c.history_can_back then (c, false)
  else ({ c with history_pos := c.history_pos - 1 }.history_load_at_pos, true)

def history_go_forward : Chrome × Bool :=
  if !c.history_can_forward then (c, false)
  else ({ c with history_pos := c.history_pos + 1 }.history_load_at_pos, true)

/-- `start_browser_fetch`. -/
def start_browser_fetch : Chrome :=
  let c := if c.history_skip_push then { c with history_skip_push := false } else c.history_push_current
  if c.url = [] then c else { c with fetched := some c.url }

end Chrome

/-! ## A pass of the main loop -/

/-- What the keyboard does in a pass. `enter` is also the fetch of the home page at
the top of the first pass that shows the browser. -/
inductive Key
  | char (ch : UInt8)
  | backspace
  | enter
  | edit (settings : Settings.DeviceSettings)

/-- What the cursors hit: the buttons of the URL bar, a bookmark, or the settings. -/
inductive Click
  | back
  | forward
  | reload
  | home
  | go
  | bookmark (slot : Fin PERSIST_BOOKMARK_SLOTS)
  | edit (settings : Settings.DeviceSettings)

/-- The clicks that visit nothing. -/
def Click.Moves : Click → Prop
  | .back | .forward | .reload => True
  | _ => False

/-- One pass: the keys come first, then a click of each cursor. -/
structure Pass where
  keys : List Key
  clicks : List Click

/-- The URL behind a bookmark. -/
def bookmark_url (settings : Settings.DeviceSettings) (slot : Fin PERSIST_BOOKMARK_SLOTS) :
    Option Bytes :=
  let n := (settings.bookmark_len.get slot).toNat
  if 0 < n ∧ n ≤ PERSIST_BOOKMARK_URL_CAP then
    some ((settings.bookmark_url.get slot).toList.take (min n URL_CAP))
  else none

namespace Chrome

variable (c : Chrome)

def key : Key → Chrome
  | .char ch =>
    if c.url.length < URL_CAP - 1 ∧ 32 ≤ ch ∧ ch < 127 then { c with url := c.url ++ [ch] } else c
  | .backspace => { c with url := c.url.dropLast }
  | .enter => c.start_browser_fetch
  | .edit settings => { c with settings := settings }

/-- `history_skip_push` and `inet_reload_request` after a step that moved. -/
def moved (moves : Chrome × Bool) : Chrome :=
  if moves.2 then { moves.1 with history_skip_push := true, inet_reload_request := true } else moves.1

def click : Click → Chrome
  | .back => moved c.history_go_back
  | .forward => moved c.history_go_forward
  | .reload => { c with history_skip_push := true, inet_reload_request := true }
  | .home => { c with url := boot_url c.settings, inet_reload_request := true }
  | .go => { c with inet_reload_request := true }
  | .bookmark slot =>
    match bookmark_url c.settings slot with
    | some url => { c with url := url, inet_reload_request := true }
    | none => c
  | .edit settings => { c with settings := settings }

/-- The block behind `inet_reload_request`; without a URL it resets the network. -/
def reload_block : Chrome :=
  if c.inet_reload_request then
    let c := { c with inet_reload_request := false }
    if c.url ≠ [] then c.start_browser_fetch else c
  else c

def step (p : Pass) : Chrome := (run click (run key c p.keys) p.clicks).reload_block

end Chrome

/-! ## What the history is for -/

/-- The URL bar over a bounded zipper of URLs. `reloaded` says that the last fetch was
that of a reload. -/
structure Reference where
  url : Bytes
  settings : Settings.DeviceSettings
  history : Zipper Bytes URL_HISTORY_CAP
  fetched : Option Bytes
  reloaded : Bool

namespace Reference

def boot (settings : Settings.DeviceSettings) : Reference where
  url := boot_url settings
  settings := settings
  history := ⟨[], boot_url settings, [], by decide⟩
  fetched := none
  reloaded := false

variable (r : Reference)

/-- A visit; nothing is visited without a URL. -/
def visit (url : Bytes) : Reference :=
  if url = [] then { r with url := url }
  else { r with url := url, history := r.history.visit url, fetched := some url, reloaded := false }

/-- The current entry of `history` is loaded. -/
def load (history : Zipper Bytes URL_HISTORY_CAP) : Reference :=
  { r with url := history.current, history := history, fetched := some history.current, reloaded := false }

def key : Key → Reference
  | .char ch =>
    if r.url.length < URL_CAP - 1 ∧ 32 ≤ ch ∧ ch < 127 then { r with url := r.url ++ [ch] } else r
  | .backspace => { r with url := r.url.dropLast }
  | .enter => r.visit r.url
  | .edit settings => { r with settings := settings }

def click : Click → Reference
  | .back => if 0 < r.history.pos then r.load r.history.goBack else r
  | .forward => if r.history.pos + 1 < r.history.count then r.load r.history.goForward else r
  | .reload => if r.url = [] then r else { r with fetched := some r.url, reloaded := true }
  | .home => r.visit (boot_url r.settings)
  | .go => r.visit r.url
  | .bookmark slot =>
    match bookmark_url r.settings slot with
    | some url => r.visit url
    | none => r
  | .edit settings => { r with settings := settings }

def step (p : Pass) : Reference := run click (run key r p.keys) p.clicks

end Reference

/-! ## What is promised -/

namespace Chrome

variable (c : Chrome)

/-- The entries of the history. -/
def entries : List Bytes := c.url_history.take c.history_count

/-- The history of the code is that zipper. -/
structure Holds (z : Zipper Bytes URL_HISTORY_CAP) : Prop where
  count : c.history_count = z.count
  pos : c.history_pos = z.pos
  entries : c.entries = z.entries

/-- The history is that of the reference, unless the last fetch was that of a reload
the URL that was fetched is the current entry, and neither a reload nor a step back or
forward changes the entries. -/
structure Refines (r : Reference) : Prop where
  history : c.Holds r.history
  fetched : c.fetched = r.fetched
  current : ∀ url, c.fetched = some url → r.reloaded = false → c.entry = url
  moves : ∀ k : Click, k.Moves → (c.step ⟨[], [k]⟩).entries = c.entries

/-- A visit of `url` is noted, or need not be. -/
def VisitOk (url : Bytes) : Prop :=
  url = [] ∨ url = c.entry ∨ (c.history_skip_push = false ∧ url.length ≠ c.entry.length)

/-- A visit was asked for that is not noted yet. -/
def Waits : Prop :=
  c.inet_reload_request = true ∧ c.history_skip_push = false ∧ c.url ≠ [] ∧ c.url ≠ c.entry

instance (url : Bytes) : Decidable (c.VisitOk url) := inferInstanceAs (Decidable (_ ∨ _ ∨ _))

instance : Decidable c.Waits := inferInstanceAs (Decidable (_ ∧ _ ∧ _ ∧ _))

def KeyOk : Key → Prop
  | .enter => c.VisitOk c.url
  | _ => True

def ClickOk : Click → Prop
  | .edit _ => True
  | .back | .forward | .reload => ¬ c.Waits
  | .home => ¬ c.Waits ∧ c.VisitOk (boot_url c.settings)
  | .go => ¬ c.Waits ∧ c.VisitOk c.url
  | .bookmark slot => ¬ c.Waits ∧ ∀ url, bookmark_url c.settings slot = some url → c.VisitOk url

instance : (k : Key) → Decidable (c.KeyOk k)
  | .enter => inferInstanceAs (Decidable (c.VisitOk c.url))
  | .char _ | .backspace | .edit _ => isTrue trivial

instance : (k : Click) → Decidable (c.ClickOk k)
  | .edit _ => isTrue trivial
  | .back | .forward | .reload => inferInstanceAs (Decidable (¬ c.Waits))
  | .home => inferInstanceAs (Decidable (¬ c.Waits ∧ c.VisitOk (boot_url c.settings)))
  | .go => inferInstanceAs (Decidable (¬ c.Waits ∧ c.VisitOk c.url))
  | .bookmark slot =>
    inferInstanceAs (Decidable (¬ c.Waits ∧ ∀ url ∈ bookmark_url c.settings slot, c.VisitOk url))

/-- The condition on a pass. -/
def PassOk (p : Pass) : Prop := Along key KeyOk c p.keys ∧ Along click ClickOk (run key c p.keys) p.clicks

instance (p : Pass) : Decidable (c.PassOk p) := inferInstanceAs (Decidable (_ ∧ _))

end Chrome

/-! ## The rows -/

section Rows

variable {rows : List Bytes}

theorem shift_rows_length (rows : List Bytes) (is : List Nat) :
    (is.foldl (fun rows i => rows.set (i - 1) (rows.getD i [])) rows).length = rows.length := by
  induction is generalizing rows with
  | nil => rfl
  | cons i is ih =>
    rw [List.foldl_cons, ih]
    exact List.length_set

theorem shift_rows_get (rows : List Bytes) {k : Nat} (hk : k < rows.length) (j : Nat) :
    ((List.range' 1 k).foldl (fun rows i => rows.set (i - 1) (rows.getD i [])) rows)[j]? =
      if j < k then rows[j + 1]? else rows[j]? := by
  induction k generalizing j with
  | zero => rfl
  | succ k ih =>
    have ih := ih (Nat.lt_of_succ_lt hk)
    have hlen := shift_rows_length rows (List.range' 1 k)
    rw [List.range'_1_concat, List.foldl_append]
    generalize (List.range' 1 k).foldl (fun rows i => rows.set (i - 1) (rows.getD i [])) rows = shifted
      at ih hlen ⊢
    show (shifted.set (1 + k - 1) (shifted.getD (1 + k) []))[j]? = _
    have hnext : shifted.getD (1 + k) [] = rows[k + 1] := by
      rw [List.getD_eq_getElem?_getD, ih, if_neg (by omega), Nat.add_comm 1 k, List.getElem?_eq_getElem hk]
      rfl
    rw [hnext, Nat.add_sub_cancel_left, List.getElem?_set]
    by_cases hj : k = j
    · rw [if_pos hj, if_pos (by omega), if_pos (by omega), ← hj, List.getElem?_eq_getElem hk]
    · rw [if_neg hj, ih]
      by_cases hlt : j < k
      · rw [if_pos hlt, if_pos (by omega)]
      · rw [if_neg hlt, if_neg (by omega)]

/-- What a full history is after the loop and the new row. -/
theorem shift_rows_set (h : rows.length = URL_HISTORY_CAP) (url : Bytes) :
    (shift_rows rows).set (URL_HISTORY_CAP - 1) url = rows.drop 1 ++ [url] := by
  have hcap : URL_HISTORY_CAP = 16 := rfl
  have hget : ∀ j, (shift_rows rows)[j]? = _ := shift_rows_get rows (k := URL_HISTORY_CAP - 1) (by omega)
  have hlen : (shift_rows rows).length = rows.length := shift_rows_length rows _
  refine List.ext_getElem? fun j => ?_
  rw [List.getElem?_set, hget, hlen, List.getElem?_append, List.length_drop, List.getElem?_drop]
  by_cases hlast : URL_HISTORY_CAP - 1 = j
  · rw [if_pos hlast, if_pos (by omega), if_neg (by omega), show j - (rows.length - 1) = 0 by omega]
    rfl
  · rw [if_neg hlast]
    by_cases hj : j < URL_HISTORY_CAP - 1
    · rw [if_pos hj, if_pos (by omega), Nat.add_comm]
    · rw [if_neg hj, if_neg (by omega), List.getElem?_eq_none (by omega), List.getElem?_eq_none]
      rw [List.length_singleton]
      omega

/-- A row behind the current one. -/
theorem take_set {n : Nat} (h : n < rows.length) (url : Bytes) :
    (rows.set n url).take (n + 1) = rows.take n ++ [url] := by
  rw [List.take_set, List.take_add_one, List.getElem?_eq_getElem h]
  refine (List.set_append_right n url (by rw [List.length_take]; omega)).trans ?_
  rw [List.length_take, Nat.min_eq_left (Nat.le_of_lt h), Nat.sub_self]
  rfl

end Rows

/-! ## The operations of the history -/

section Operations

variable {c : Chrome} {z : Zipper Bytes URL_HISTORY_CAP}

theorem Chrome.Holds.entry (h : c.Holds z) : c.entry = z.current := by
  have hget := z.entries_pos
  rw [← h.entries, Chrome.entries, h.count, List.getElem?_take_of_lt z.pos_lt_count, ← h.pos] at hget
  rw [Chrome.entry, List.getD_eq_getElem?_getD, hget]
  rfl

/-- A history behind a visit. -/
theorem holds_visit {rows : List Bytes} {url : Bytes} {n : Nat} (hne : url ≠ z.current)
    (hn : n = (z.visit url).pos)
    (hrows : rows.take (n + 1) = (z.entries.take (z.pos + 1)).drop (z.pos + 1 - (URL_HISTORY_CAP - 1)) ++ [url]) :
    { c with url_history := rows, history_count := n + 1, history_pos := n }.Holds (z.visit url) := by
  refine ⟨?_, hn, ?_⟩
  · rw [z.visit_count hne, ← hn]
  · rw [z.visit_entries hne, ← hrows]
    rfl

/-- **`history_push_current` is a visit**, unless the current entry is another URL of
the same length. -/
theorem history_push_current_visits (h : c.Holds z) (hrows : c.url_history.length = URL_HISTORY_CAP)
    (hfits : c.url.length ≤ URL_CAP) (hurl : c.url ≠ [])
    (hok : c.url = z.current ∨ c.url.length ≠ z.current.length) :
    ∃ rows n p, c.history_push_current =
        { c with url_history := rows, history_count := n, history_pos := p } ∧
      rows.length = URL_HISTORY_CAP ∧ c.history_push_current.Holds (z.visit c.url) := by
  have hcap : URL_HISTORY_CAP = 16 := rfl
  have hcount : 0 < c.history_count := by
    have := z.pos_lt_count
    rw [h.count]
    omega
  by_cases hsame : c.url = z.current
  · have hkeep : c.history_push_current = c := by
      unfold Chrome.history_push_current
      rw [if_neg hurl, if_pos]
      rw [h.entry, hsame]
      exact ⟨hcount, rfl, rfl⟩
    refine ⟨c.url_history, c.history_count, c.history_pos, hkeep, hrows, ?_⟩
    rw [hkeep, hsame, z.visit_same]
    exact h
  · have hlen : c.url.length ≠ z.current.length := hok.resolve_left hsame
    have hcopy : c.url.take (min c.url.length URL_CAP) = c.url :=
      List.take_of_length_le (by rw [Nat.min_eq_left hfits])
    have hle := z.count_le
    have hlt := z.pos_lt_count
    have hpos := z.visit_pos hsame
    have htake : z.entries.take (z.pos + 1) = c.url_history.take (z.pos + 1) := by
      rw [← h.entries, Chrome.entries, h.count, List.take_take, Nat.min_eq_left hlt]
    unfold Chrome.history_push_current
    rw [if_neg hurl, if_neg (by rw [h.entry]; exact fun hfound => hlen hfound.2.1.symm)]
    by_cases hfull : URL_HISTORY_CAP ≤ z.pos + 1
    · simp only [h.pos, if_pos hfull, hcopy]
      refine ⟨_, _, _, rfl, ?_, ?_⟩
      · rw [List.length_set]
        exact (shift_rows_length _ _).trans hrows
      · refine holds_visit (n := URL_HISTORY_CAP - 1) hsame (by omega) ?_
        rw [htake, shift_rows_set hrows, show z.pos + 1 = URL_HISTORY_CAP by omega,
          List.take_of_length_le (Nat.le_of_eq hrows), List.take_of_length_le]
        · rfl
        · rw [List.length_append, List.length_drop, hrows]
          rfl
    · simp only [h.pos, if_neg hfull, hcopy]
      refine ⟨_, _, _, rfl, ?_, ?_⟩
      · rw [List.length_set]
        exact hrows
      · refine holds_visit (n := z.pos + 1) hsame (by omega) ?_
        rw [htake, take_set (by omega), show z.pos + 1 - (URL_HISTORY_CAP - 1) = 0 by omega]
        rfl

/-- The first step of `history_load_at_pos`. -/
theorem holds_move {z' : Zipper Bytes URL_HISTORY_CAP} (h : c.Holds z) (hentries : z'.entries = z.entries)
    {p : Nat} (hp : p = z'.pos) : { c with history_pos := p }.Holds z' := by
  refine ⟨?_, hp, h.entries.trans hentries.symm⟩
  show c.history_count = z'.count
  rw [h.count, ← z.entries_length, ← hentries, z'.entries_length]

/-- **`history_go_back` is a step back.** -/
theorem history_go_back_moves (h : c.Holds z) (hback : 0 < z.pos) :
    c.history_go_back = ({ c with history_pos := z.goBack.pos, url := z.goBack.current }, true) ∧
      { c with history_pos := z.goBack.pos }.Holds z.goBack := by
  have hmoved : { c with history_pos := z.goBack.pos }.Holds z.goBack :=
    holds_move h z.goBack_entries rfl
  refine ⟨?_, hmoved⟩
  have hcan : c.history_can_back = true := by
    rw [Chrome.history_can_back, h.pos, decide_eq_true hback]
  unfold Chrome.history_go_back Chrome.history_load_at_pos
  rw [hcan, Bool.not_true, if_neg Bool.false_ne_true, h.pos, ← z.goBack_pos]
  rw [hmoved.entry]

theorem history_go_back_stays (h : c.Holds z) (hback : ¬ 0 < z.pos) : c.history_go_back = (c, false) := by
  have hcan : c.history_can_back = false := by
    rw [Chrome.history_can_back, h.pos, decide_eq_false hback]
  unfold Chrome.history_go_back
  rw [hcan, Bool.not_false, if_pos rfl]

/-- **`history_go_forward` is a step forward.** -/
theorem history_go_forward_moves (h : c.Holds z) (hforward : z.pos + 1 < z.count) :
    c.history_go_forward = ({ c with history_pos := z.goForward.pos, url := z.goForward.current }, true) ∧
      { c with history_pos := z.goForward.pos }.Holds z.goForward := by
  have hmoved : { c with history_pos := z.goForward.pos }.Holds z.goForward :=
    holds_move h z.goForward_entries rfl
  refine ⟨?_, hmoved⟩
  have hcan : c.history_can_forward = true := by
    rw [Chrome.history_can_forward, h.pos, h.count, decide_eq_true hforward]
  have hnext : z.goForward.pos = z.pos + 1 := by
    rw [z.goForward_pos]
    omega
  unfold Chrome.history_go_forward Chrome.history_load_at_pos
  rw [hcan, Bool.not_true, if_neg Bool.false_ne_true, h.pos, ← hnext]
  rw [hmoved.entry]

theorem history_go_forward_stays (h : c.Holds z) (hforward : ¬ z.pos + 1 < z.count) :
    c.history_go_forward = (c, false) := by
  have hcan : c.history_can_forward = false := by
    rw [Chrome.history_can_forward, h.pos, h.count, decide_eq_false hforward]
  unfold Chrome.history_go_forward
  rw [hcan, Bool.not_false, if_pos rfl]

/-- **`start_browser_fetch`**: a visit, or with the flag nothing of the kind. -/
theorem start_browser_fetch_visits (h : c.Holds z) (hrows : c.url_history.length = URL_HISTORY_CAP)
    (hfits : c.url.length ≤ URL_CAP) (hurl : c.url ≠ [])
    (hok : c.history_skip_push = false → c.url = z.current ∨ c.url.length ≠ z.current.length) :
    ∃ rows n p, c.start_browser_fetch =
        { c with
          url_history := rows
          history_count := n
          history_pos := p
          history_skip_push := false
          fetched := some c.url } ∧
      rows.length = URL_HISTORY_CAP ∧
        c.start_browser_fetch.Holds (if c.history_skip_push then z else z.visit c.url) := by
  unfold Chrome.start_browser_fetch
  cases hskip : c.history_skip_push with
  | true =>
    simp only [if_true, if_neg hurl]
    exact ⟨c.url_history, c.history_count, c.history_pos, rfl, hrows, ⟨h.count, h.pos, h.entries⟩⟩
  | false =>
    obtain ⟨rows, n, p, heq, hlen, hvisit⟩ := history_push_current_visits h hrows hfits hurl (hok hskip)
    rw [heq] at hvisit
    simp only [Bool.false_eq_true, if_false, heq, if_neg hurl]
    refine ⟨rows, n, p, ?_, hlen, ⟨hvisit.count, hvisit.pos, hvisit.entries⟩⟩
    rw [hskip]

/-- Without a URL only the flag is taken back. -/
theorem start_browser_fetch_empty (hurl : c.url = []) :
    c.start_browser_fetch = { c with history_skip_push := false } := by
  unfold Chrome.start_browser_fetch Chrome.history_push_current
  rw [if_pos hurl]
  cases hskip : c.history_skip_push with
  | true =>
    simp only [if_true]
    rw [if_pos hurl]
  | false =>
    simp only [Bool.false_eq_true, if_false]
    rw [if_pos hurl, ← hskip]

end Operations

/-! ## The simulation -/

/-- A URL that a row can hold. -/
def Fits (url : Bytes) : Prop := url ≠ [] ∧ url.length ≤ URL_CAP

namespace Chrome

/-- A visit is asked for, and the flag does not say otherwise. -/
def Pending (c : Chrome) : Prop :=
  c.inet_reload_request = true ∧ c.history_skip_push = false ∧ c.url ≠ []

instance (c : Chrome) : Decidable c.Pending := inferInstanceAs (Decidable (_ ∧ _ ∧ _))

/-- Code and reference behind a click. `z` is the history of the code, which lacks the
visit that is pending. -/
structure Tracks (c : Chrome) (r : Reference) (z : Zipper Bytes URL_HISTORY_CAP) : Prop where
  holds : c.Holds z
  rows : c.url_history.length = URL_HISTORY_CAP
  kept : ∀ url ∈ z.entries, Fits url
  url : r.url = c.url
  fits : c.url.length ≤ URL_CAP
  settings : r.settings = c.settings
  ok : c.Pending → c.url = z.current ∨ c.url.length ≠ z.current.length
  history : r.history = if c.Pending then z.visit c.url else z
  fetched : r.fetched = if c.inet_reload_request = true ∧ c.url ≠ [] then some c.url else c.fetched
  current : ∀ url, r.fetched = some url → r.reloaded = false → r.history.current = url

/-- Between the passes nothing is asked for. -/
structure Calm (c : Chrome) (r : Reference) : Prop where
  tracks : c.Tracks r r.history
  quiet : c.inet_reload_request = false

variable {c : Chrome} {r : Reference} {z : Zipper Bytes URL_HISTORY_CAP}

theorem Tracks.of_quiet (h : c.Tracks r z) (hquiet : c.inet_reload_request = false) : c.Calm r := by
  have hhistory := h.history
  rw [if_neg (by rw [Pending, hquiet]; exact fun hp => Bool.false_ne_true hp.1)] at hhistory
  rw [← hhistory] at h
  exact ⟨h, hquiet⟩

theorem Calm.fetched (h : c.Calm r) : r.fetched = c.fetched :=
  h.tracks.fetched.trans (if_neg (by rw [h.quiet]; exact fun hp => Bool.false_ne_true hp.1))

/-- While nothing is asked for, the two differ in nothing. -/
theorem calm_of (holds : c.Holds r.history) (rows : c.url_history.length = URL_HISTORY_CAP)
    (kept : ∀ url ∈ r.history.entries, Fits url) (url : r.url = c.url) (fits : c.url.length ≤ URL_CAP)
    (settings : r.settings = c.settings) (fetched : r.fetched = c.fetched)
    (current : ∀ url, r.fetched = some url → r.reloaded = false → r.history.current = url)
    (quiet : c.inet_reload_request = false) : c.Calm r := by
  have hnot : ¬ c.Pending := by
    rw [Pending, quiet]
    exact fun hp => Bool.false_ne_true hp.1
  refine ⟨⟨holds, rows, kept, url, fits, settings, fun hp => absurd hp hnot, (if_neg hnot).symm, ?_, current⟩,
    quiet⟩
  rw [quiet, if_neg (fun hp => Bool.false_ne_true hp.1)]
  exact fetched

/-- A visit keeps what can be kept. -/
theorem fits_visit (h : ∀ url ∈ z.entries, Fits url) {url : Bytes} (hurl : Fits url) :
    ∀ e ∈ (z.visit url).entries, Fits e := by
  intro e he
  rcases z.mem_visit he with hold | hnew
  · exact h e hold
  · rw [hnew]
    exact hurl

/-- What a visit that is noted, or need not be, does to the history. -/
theorem VisitOk.visit {url : Bytes} (hok : c.VisitOk url) (hz : c.Holds z) (hurl : url ≠ []) :
    (c.history_skip_push = true → z.visit url = z) ∧
      (c.history_skip_push = false → url = z.current ∨ url.length ≠ z.current.length) := by
  rw [VisitOk, hz.entry] at hok
  rcases hok with hempty | hsame | ⟨hskip, hlen⟩
  · exact absurd hempty hurl
  · rw [hsame]
    exact ⟨fun _ => z.visit_same, fun _ => .inl rfl⟩
  · exact ⟨fun hskip' => absurd (hskip.symm.trans hskip') Bool.false_ne_true, fun _ => .inr hlen⟩

/-- **A key.** -/
theorem key_calm (h : c.Calm r) {k : Key} (hok : c.KeyOk k) : (c.key k).Calm (r.key k) := by
  obtain ⟨ht, hquiet⟩ := h
  have hfetched : r.fetched = c.fetched := Calm.fetched ⟨ht, hquiet⟩
  have hholds := ht.holds
  cases k with
  | char ch =>
    dsimp only [key, Reference.key]
    rw [ht.url]
    split_ifs with hroom
    · refine calm_of ⟨hholds.count, hholds.pos, hholds.entries⟩ ht.rows ht.kept rfl ?_ ht.settings
        hfetched ht.current hquiet
      show (c.url ++ [ch]).length ≤ URL_CAP
      rw [List.length_append, List.length_singleton]
      omega
    · exact ⟨ht, hquiet⟩
  | backspace =>
    refine calm_of ⟨hholds.count, hholds.pos, hholds.entries⟩ ht.rows ht.kept ?_ ?_ ht.settings
      hfetched ht.current hquiet
    · exact congrArg List.dropLast ht.url
    · exact Nat.le_trans (by rw [key, List.length_dropLast]; omega) ht.fits
  | enter =>
    dsimp only [key, Reference.key, Reference.visit]
    rw [ht.url]
    by_cases hurl : c.url = []
    · rw [if_pos hurl, start_browser_fetch_empty hurl]
      exact calm_of ⟨hholds.count, hholds.pos, hholds.entries⟩ ht.rows ht.kept rfl ht.fits ht.settings
        hfetched ht.current hquiet
    · obtain ⟨hskipped, hnoted⟩ := VisitOk.visit hok hholds hurl
      obtain ⟨rows, n, p, heq, hlen, hvisit⟩ :=
        start_browser_fetch_visits hholds ht.rows ht.fits hurl hnoted
      have hnow : (if c.history_skip_push then r.history else r.history.visit c.url) = r.history.visit c.url := by
        split_ifs with hskip
        · exact (hskipped hskip).symm
        · rfl
      rw [hnow, heq] at hvisit
      rw [if_neg hurl, heq]
      refine calm_of hvisit hlen (fits_visit ht.kept ⟨hurl, ht.fits⟩) rfl ht.fits ht.settings rfl ?_ hquiet
      intro url hnew _
      rw [← Option.some.inj hnew]
      exact r.history.visit_current c.url
  | edit settings =>
    exact calm_of ⟨hholds.count, hholds.pos, hholds.entries⟩ ht.rows ht.kept ht.url ht.fits rfl
      hfetched ht.current hquiet

/-! ### Clicks -/

/-- Without a visit that waits the code lacks nothing. -/
theorem Tracks.settled (h : c.Tracks r z) (hw : ¬ c.Waits) : r.history = z := by
  rw [h.history]
  split_ifs with hp
  · have hsame : c.url = z.current := by
      rw [Waits, h.holds.entry] at hw
      exact not_not.mp fun hne => hw ⟨hp.1, hp.2.1, hp.2.2, hne⟩
    rw [hsame, z.visit_same]
  · rfl

/-- The flag keeps the history as it is. -/
theorem not_pending_of_skip (hskip : c.history_skip_push = true) : ¬ c.Pending :=
  fun hp => Bool.false_ne_true (hp.2.1.symm.trans hskip)

/-- A click that asks for a visit. -/
theorem visit_tracks (h : c.Tracks r z) (hw : ¬ c.Waits) {url : Bytes} (hfits : url.length ≤ URL_CAP)
    (hempty : url = [] → c.url = []) (hok : c.VisitOk url) :
    { c with url := url, inet_reload_request := true }.Tracks (r.visit url) z := by
  have hhistory := h.settled hw
  unfold Reference.visit
  by_cases hurl : url = []
  · rw [if_pos hurl]
    have hnot : ¬ Pending { c with url := url, inet_reload_request := true } := fun hp => hp.2.2 hurl
    refine ⟨⟨h.holds.count, h.holds.pos, h.holds.entries⟩, h.rows, h.kept, rfl, hfits, h.settings,
      fun hp => absurd hp hnot, hhistory.trans (if_neg hnot).symm, ?_, h.current⟩
    show r.fetched = _
    rw [h.fetched, if_neg (fun hf => hf.2 (hempty hurl))]
    exact (if_neg (fun hf => hf.2 hurl)).symm
  · rw [if_neg hurl]
    obtain ⟨hskipped, hnoted⟩ := hok.visit h.holds hurl
    refine ⟨⟨h.holds.count, h.holds.pos, h.holds.entries⟩, h.rows, h.kept, rfl, hfits, h.settings,
      fun hp => hnoted hp.2.1, ?_, (if_pos ⟨rfl, hurl⟩).symm, ?_⟩
    · show r.history.visit url = _
      rw [hhistory]
      split_ifs with hp
      · rfl
      · refine hskipped ?_
        rw [Pending] at hp
        exact (Bool.not_eq_false _).mp fun hskip => hp ⟨rfl, hskip, hurl⟩
    · intro u hnew _
      rw [← Option.some.inj hnew]
      exact r.history.visit_current url

/-- A click that moves to the entry `z'.current`. -/
theorem load_tracks (h : c.Tracks r z) {z' : Zipper Bytes URL_HISTORY_CAP}
    (hholds : { c with history_pos := z'.pos }.Holds z') (hentries : z'.entries = z.entries) :
    (moved ({ c with history_pos := z'.pos, url := z'.current }, true)).Tracks (r.load z') z' := by
  have hkept : ∀ url ∈ z'.entries, Fits url := by
    rw [hentries]
    exact h.kept
  obtain ⟨hurl, hfits⟩ := hkept z'.current z'.current_mem
  refine ⟨⟨hholds.count, hholds.pos, hholds.entries⟩, h.rows, hkept, rfl, hfits, h.settings,
    fun hp => absurd hp (not_pending_of_skip rfl), (if_neg (not_pending_of_skip rfl)).symm,
    (if_pos ⟨rfl, hurl⟩).symm, ?_⟩
  intro u hnew _
  exact Option.some.inj hnew

theorem reload_tracks (h : c.Tracks r z) (hw : ¬ c.Waits) :
    (c.click .reload).Tracks (r.click .reload) z := by
  have hhistory := h.settled hw
  have hskip : (c.click .reload).history_skip_push = true := rfl
  dsimp only [Reference.click]
  rw [h.url]
  by_cases hurl : c.url = []
  · rw [if_pos hurl]
    refine ⟨⟨h.holds.count, h.holds.pos, h.holds.entries⟩, h.rows, h.kept, h.url, h.fits, h.settings,
      fun hp => absurd hp (not_pending_of_skip hskip), hhistory.trans (if_neg (not_pending_of_skip hskip)).symm,
      ?_, h.current⟩
    rw [h.fetched, if_neg (fun hf => hf.2 hurl)]
    exact (if_neg (fun hf => hf.2 hurl)).symm
  · rw [if_neg hurl]
    exact ⟨⟨h.holds.count, h.holds.pos, h.holds.entries⟩, h.rows, h.kept, rfl, h.fits, h.settings,
      fun hp => absurd hp (not_pending_of_skip hskip), hhistory.trans (if_neg (not_pending_of_skip hskip)).symm,
      (if_pos ⟨rfl, hurl⟩).symm, nofun⟩

end Chrome

/-- The home URL can be kept. -/
theorem boot_url_fits (settings : Settings.DeviceSettings) : Fits (boot_url settings) := by
  unfold boot_url
  dsimp only
  split_ifs with hhome
  · refine ⟨?_, ?_⟩
    · intro hempty
      have hlen := congrArg List.length hempty
      rw [List.length_take, Nat.min_eq_left hhome.2] at hlen
      exact absurd hlen (Nat.pos_iff_ne_zero.mp hhome.1)
    · have hcap : settings.home_url.toList.length = 120 := settings.home_url.length_toList
      refine Nat.le_trans (List.length_take_le' _ _) ?_
      rw [hcap]
      decide
  · exact ⟨by decide, by decide⟩

theorem bookmark_url_fits {settings : Settings.DeviceSettings} {slot : Fin PERSIST_BOOKMARK_SLOTS} {url : Bytes}
    (h : bookmark_url settings slot = some url) : Fits url := by
  unfold bookmark_url at h
  dsimp only at h
  split_ifs at h with hn
  obtain rfl := Option.some.inj h
  have hlen : (settings.bookmark_url.get slot).toList.length = PERSIST_BOOKMARK_URL_CAP :=
    (settings.bookmark_url.get slot).length_toList
  have hcap : PERSIST_BOOKMARK_URL_CAP ≤ URL_CAP := by decide
  refine ⟨?_, ?_⟩
  · intro hempty
    have hzero := congrArg List.length hempty
    rw [List.length_take, hlen, List.length_nil] at hzero
    omega
  · rw [List.length_take]
    omega

namespace Chrome

variable {c : Chrome} {r : Reference} {z : Zipper Bytes URL_HISTORY_CAP}

/-- **A click.** -/
theorem click_tracks (h : ∃ z, c.Tracks r z) {k : Click} (hok : c.ClickOk k) :
    ∃ z, (c.click k).Tracks (r.click k) z := by
  obtain ⟨z, h⟩ := h
  cases k with
  | back =>
    have hhistory := h.settled hok
    dsimp only [click, Reference.click]
    rw [hhistory]
    by_cases hback : 0 < z.pos
    · obtain ⟨heq, hholds⟩ := history_go_back_moves h.holds hback
      rw [if_pos hback, heq]
      exact ⟨z.goBack, load_tracks h hholds z.goBack_entries⟩
    · rw [if_neg hback, history_go_back_stays h.holds hback]
      exact ⟨z, h⟩
  | forward =>
    have hhistory := h.settled hok
    dsimp only [click, Reference.click]
    rw [hhistory]
    by_cases hforward : z.pos + 1 < z.count
    · obtain ⟨heq, hholds⟩ := history_go_forward_moves h.holds hforward
      rw [if_pos hforward, heq]
      exact ⟨z.goForward, load_tracks h hholds z.goForward_entries⟩
    · rw [if_neg hforward, history_go_forward_stays h.holds hforward]
      exact ⟨z, h⟩
  | reload => exact ⟨z, reload_tracks h hok⟩
  | home =>
    obtain ⟨hurl, hfits⟩ := boot_url_fits c.settings
    dsimp only [click, Reference.click]
    rw [h.settings]
    exact ⟨z, visit_tracks h hok.1 hfits (fun hempty => absurd hempty hurl) hok.2⟩
  | go =>
    dsimp only [Reference.click]
    rw [h.url]
    exact ⟨z, visit_tracks h hok.1 h.fits id hok.2⟩
  | bookmark slot =>
    obtain ⟨hw, hvisit⟩ := hok
    dsimp only [click, Reference.click]
    rw [h.settings]
    cases hmark : bookmark_url c.settings slot with
    | none => exact ⟨z, h⟩
    | some url =>
      obtain ⟨hurl, hfits⟩ := bookmark_url_fits hmark
      exact ⟨z, visit_tracks h hw hfits (fun hempty => absurd hempty hurl) (hvisit url hmark)⟩
  | edit settings =>
    exact ⟨z, ⟨h.holds.count, h.holds.pos, h.holds.entries⟩, h.rows, h.kept, h.url, h.fits, rfl, h.ok,
      h.history, h.fetched, h.current⟩

/-! ### Passes -/

/-- What was asked for is done. -/
theorem reload_block_calm (h : c.Tracks r z) : c.reload_block.Calm r := by
  unfold reload_block
  by_cases hask : c.inet_reload_request = true
  · rw [if_pos hask]
    dsimp only
    by_cases hurl : c.url = []
    · rw [if_neg (not_not.mpr hurl)]
      refine Tracks.of_quiet (z := z) ⟨⟨h.holds.count, h.holds.pos, h.holds.entries⟩, h.rows, h.kept, h.url,
        h.fits, h.settings, fun hp => absurd hurl hp.2.2, ?_, ?_, h.current⟩ rfl
      · rw [if_neg (fun hp => hp.2.2 hurl), h.history, if_neg (fun hp => hp.2.2 hurl)]
      · rw [if_neg (fun hf => hf.2 hurl), h.fetched, if_neg (fun hf => hf.2 hurl)]
    · rw [if_pos hurl]
      have hholds : { c with inet_reload_request := false }.Holds z :=
        ⟨h.holds.count, h.holds.pos, h.holds.entries⟩
      obtain ⟨rows, n, p, heq, hlen, hdone⟩ := start_browser_fetch_visits hholds h.rows h.fits hurl
        (fun hskip => h.ok ⟨hask, hskip, hurl⟩)
      have hhistory : r.history = if c.history_skip_push then z else z.visit c.url := by
        rw [h.history]
        cases hskip : c.history_skip_push with
        | true => exact if_neg (not_pending_of_skip hskip)
        | false => exact if_pos ⟨hask, hskip, hurl⟩
      have hfetched : r.fetched = some c.url := h.fetched.trans (if_pos ⟨hask, hurl⟩)
      rw [heq] at hdone ⊢
      rw [← hhistory] at hdone
      refine calm_of hdone hlen ?_ h.url h.fits h.settings hfetched h.current rfl
      rw [hhistory]
      split_ifs
      · exact h.kept
      · exact fits_visit h.kept ⟨hurl, h.fits⟩
  · rw [if_neg hask]
    exact h.of_quiet (eq_false_of_ne_true hask)

/-- **A pass.** -/
theorem step_calm (h : c.Calm r) {p : Pass} (hok : c.PassOk p) : (c.step p).Calm (r.step p) := by
  have hkeys : (run key c p.keys).Calm (run Reference.key r p.keys) := by
    refine run_simulates (R := Calm) ?_ hok.1 h
    exact fun _ _ _ h hk => key_calm h hk
  have hclicks : ∃ z, (run click (run key c p.keys) p.clicks).Tracks (r.step p) z := by
    refine run_simulates (R := fun c r => ∃ z, Tracks c r z) ?_ hok.2 ⟨_, hkeys.tracks⟩
    exact fun _ _ _ h hk => click_tracks h hk
  obtain ⟨z, hclicks⟩ := hclicks
  exact reload_block_calm hclicks

theorem boot_calm (settings : Settings.DeviceSettings) : (Chrome.boot settings).Calm (.boot settings) := by
  obtain ⟨hurl, hfits⟩ := boot_url_fits settings
  refine calm_of ⟨rfl, rfl, rfl⟩ ?_ ?_ rfl hfits rfl rfl nofun rfl
  · show (boot_url settings :: List.replicate (URL_HISTORY_CAP - 1) []).length = _
    rw [List.length_cons, List.length_replicate]
    rfl
  · intro url hmem
    rw [List.mem_singleton.mp hmem]
    exact ⟨hurl, hfits⟩

/-- A reload and the steps leave the entries alone. -/
theorem Calm.moves (h : c.Calm r) {k : Click} (hk : k.Moves) : (c.step ⟨[], [k]⟩).entries = c.entries := by
  have hidle : ¬ c.Waits := fun hw => Bool.false_ne_true (h.quiet.symm.trans hw.1)
  have hclick : c.ClickOk k ∧ (r.click k).history.entries = r.history.entries := by
    cases k with
    | back =>
      refine ⟨hidle, ?_⟩
      dsimp only [Reference.click]
      split_ifs
      · exact r.history.goBack_entries
      · rfl
    | forward =>
      refine ⟨hidle, ?_⟩
      dsimp only [Reference.click]
      split_ifs
      · exact r.history.goForward_entries
      · rfl
    | reload =>
      refine ⟨hidle, ?_⟩
      dsimp only [Reference.click]
      split_ifs
      · rfl
      · rfl
    | _ => exact hk.elim
  have hpass : c.PassOk ⟨[], [k]⟩ := ⟨trivial, hclick.1, trivial⟩
  rw [(step_calm h hpass).tracks.holds.entries, h.tracks.holds.entries]
  exact hclick.2

/-- What is promised follows. -/
theorem Calm.refines (h : c.Calm r) : c.Refines r := by
  refine ⟨h.tracks.holds, h.fetched.symm, ?_, fun k hk => h.moves hk⟩
  intro url hfetched hvisit
  rw [h.tracks.holds.entry]
  exact h.tracks.current url (h.fetched.trans hfetched) hvisit

end Chrome

/-- **The URL history is a bounded zipper.** For all settings and every sequence of
passes of the main loop, each with whatever keys and clicks, in which every visit
is noted or need not be and no request follows a visit that still waits: the
history of the code is that of the reference, the URL last fetched as well, and it
is the current entry unless the fetch was that of a reload. -/
theorem history_refines (settings : Settings.DeviceSettings) {ps : List Pass}
    (hok : Along Chrome.step Chrome.PassOk (.boot settings) ps) :
    (run Chrome.step (.boot settings) ps).Refines (run Reference.step (.boot settings) ps) := by
  have hcalm : (run Chrome.step (.boot settings) ps).Calm (run Reference.step (.boot settings) ps) := by
    refine run_simulates (R := Chrome.Calm) ?_ hok (Chrome.boot_calm settings)
    exact fun _ _ _ h hp => Chrome.step_calm h hp
  exact hcalm.refines

/-! ## Concrete runs -/

/-- A URL is typed behind the home URL and visited, then comes a step back. -/
def visit_and_back : List Pass := [⟨[.char 47, .enter], []⟩, ⟨[], [.back]⟩]

theorem visit_and_back_refines :
    (run Chrome.step (.boot .new) visit_and_back).Refines (run Reference.step (.boot .new) visit_and_back) ∧
      (run Chrome.step (.boot .new) visit_and_back).entries =
        [Settings.DEFAULT_HOME_URL, Settings.DEFAULT_HOME_URL ++ ascii "/"] ∧
      (run Chrome.step (.boot .new) visit_and_back).fetched = some Settings.DEFAULT_HOME_URL :=
  ⟨history_refines .new (by decide +kernel), by decide +kernel, by decide +kernel⟩

/-- The last character of the home URL is replaced by another one, and the URL visited. -/
def same_length_visit : List Pass := [⟨[.backspace, .char 63, .enter], []⟩]

/-- The visit is not noted: the two URLs are as long as each other. -/
theorem same_length_visit_lost :
    (run Chrome.step (.boot .new) same_length_visit).entries = [Settings.DEFAULT_HOME_URL] ∧
      (run Chrome.step (.boot .new) same_length_visit).fetched =
        some (Settings.DEFAULT_HOME_URL.dropLast ++ ascii "?") ∧
      ¬ (run Chrome.step (.boot .new) same_length_visit).Refines
        (run Reference.step (.boot .new) same_length_visit) := by
  refine ⟨by decide +kernel, by decide +kernel, ?_⟩
  intro h
  have hcount := h.history.count
  exact absurd hcount (by decide +kernel)

end EveOS.Browser
