/-
A session: the main loop of `kernel_main` in `kernel/src/main.rs`, as far as the keyboards
and the mice go.

A pass of the loop takes what the keyboards and mice have, then the clicks, then what was
requested. Here each of these is an event of its own, so that a session is any list of
them and a pass is one such list. What the network, the disks and the renderer do between
is an event as well, which leaves what it changes to the reader of the list.
-/
import EveOS.Gfx.Keys

set_option autoImplicit false

namespace EveOS.Gfx

open Browser (Chrome)
open Input (Ps2Event scancode_set1_to_ascii)
open Hid (hid_usage_to_ascii)
open Log (LogBuffer)
open Settings (DeviceSettings)
open Disk.Install (DiskInstallPhase)

/-! ## The state -/

/-- What does not change after the boot. `offline_lines` is how many lines the page has
that is shown for the home URL without a network, `checked` whether overflows panic. -/
structure Machine where
  info : FrameBufferInfo
  checked : Bool
  disk_pair_ready : Bool
  has_nic : Bool
  offline_lines : Nat

structure Session extends ClickState where
  cursor_btn : Fin MAX_CURSORS → UInt8
  prev_cursor_btn : Fin MAX_CURSORS → UInt8
  browser_line_count : Nat
  page_scroll_line : Nat
  fetch_err_len : Nat
  boot_home_fetch_pending : Bool
  /-- Locals of a pass. -/
  n_usb : Nat
  ps2_mouse_slot : Option (Fin MAX_CURSORS)
  inet_on : Bool
  log : LogBuffer
  /-- The machine panicked, or it was shut down or started again. -/
  halted : Bool

/-! ## Scrolling -/

def BROWSER_LINE_H : Nat := 12

instance : NeZero BROWSER_LINE_H := ⟨by decide⟩

def saturating_mul_i32 (a b : Int) : Int := max (-2 ^ 31) (min (2 ^ 31 - 1) (a * b))

def DISK_INSTALL_DOC_H : Nat := 362

def ClickState.disk_install_scroll_by_wheel (state : ClickState) (lay : Layout) (dy : Int) : ClickState :=
  let max_s := DISK_INSTALL_DOC_H - (lay.h - lay.content_top - 48)
  if max_s = 0 then { state with disk_install_scroll_px := 0, content_dirty := true }
  else if dy < 0 then
    { state with disk_install_scroll_px := state.disk_install_scroll_px - (-dy).toNat, content_dirty := true }
  else
    { state with disk_install_scroll_px := min (state.disk_install_scroll_px + dy.toNat) max_s, content_dirty := true }

namespace Session

variable (s : Session)

def browser_scroll_slots (lay : Layout) : Nat :=
  if s.browser_bios_fullpage then 1
  else
    let y := lay.content_top + 12 + (if 0 < s.fetch_err_len then BROWSER_LINE_H + 4 else 0)
    max (rows_below BROWSER_LINE_H (lay.h - (28 + 48)) y) 1

def browser_max_scroll_line (lay : Layout) : Nat := s.browser_line_count - s.browser_scroll_slots lay

/-- A wheel step in lines. -/
def browser_wheel_lines (lay : Layout) (raw : Int) : Int :=
  raw.sign * (min (max (s.browser_scroll_slots lay / 4) 2) 12 : Nat)

def browser_scroll (lay : Layout) (lines : Int) : Session :=
  if lines = 0 then s
  else
    let line := if lines < 0 then s.page_scroll_line - (-lines).toNat else s.page_scroll_line + lines.toNat
    { s with page_scroll_line := min line (s.browser_max_scroll_line lay), browser_body_dirty := true }

/-- The state of the screens is set. -/
def with_ui (ui : ClickState) : Session := { s with toClickState := ui }

/-- The wheel and the arrows. Each screen has a step of its own. -/
def scroll (info : FrameBufferInfo) (browser : Session → Layout → Int) (log settings disk : Int) : Session :=
  let lay := s.layout info
  match s.screen with
  | .Browser => s.browser_scroll lay (browser s lay)
  | .Log =>
    match s.log_scroll_by_wheel s.log lay log with
    | some ui => s.with_ui ui
    | none => { s with halted := true }
  | .Settings => s.with_ui (s.settings_scroll_by_wheel lay settings)
  | .DiskInstall => s.with_ui (s.disk_install_scroll_by_wheel lay disk)
  | _ => s

/-! ## Fetches -/

/-- `start_browser_fetch`; the URL that it hands to the network is `fetched`. -/
def start_browser_fetch (offline_lines : Nat) : Session :=
  let url := s.url
  let s := s.with_ui { s.toClickState with toChrome := s.toChrome.start_browser_fetch }
  if url = [] then s
  else
    let hl := s.settings.home_url_len.toNat
    let s := { s with page_scroll_line := 0, browser_body_dirty := true, status_dirty := true }
    if s.inet_on then { s with browser_line_count := 0 }
    else if 0 < hl ∧ url = s.settings.home_url.toList.take hl then
      { s with browser_line_count := offline_lines, fetch_err_len := 0 }
    else { s with browser_line_count := 0, fetch_err_len := (ascii "NET OFFLINE").length }

/-! ## Keys -/

/-- A key with a character, below a notice. -/
def char_key (offline_lines : Nat) (ch : UInt8) : Session :=
  match s.screen with
  | .Browser => if ch = 10 then s.start_browser_fetch offline_lines else s.with_ui (s.url_key ch)
  | .Settings => s.with_ui (s.settings_text_key ch)
  | _ => s

/-- A key of the first keyboard. -/
def ps2_key (m : Machine) (code : UInt8) (shift : Bool) : Session :=
  if s.is_notice then s.with_ui (s.notice_key (scancode_set1_to_ascii code shift))
  else if 0x3B ≤ code ∧ code ≤ 0x3F ∧ (code = 0x3E → m.disk_pair_ready = true) then
    s.with_ui (s.function_key m.disk_pair_ready (code - 0x3A).toNat)
  else if code = 0x40 ∧ s.screen = .Browser then s.with_ui s.toggle_fullpage
  else if code = 0x40 ∧ s.screen = .Log then s.with_ui s.toggle_log_subtab
  else
    match scancode_set1_to_ascii code shift with
    | some ch => s.char_key m.offline_lines ch
    | none => s

/-- A key of the second keyboard. -/
def usb_key (m : Machine) (usage : UInt8) (shift : Bool) : Session :=
  if s.is_notice then s.with_ui (s.notice_key (hid_usage_to_ascii usage shift))
  else if 0x3A ≤ usage ∧ usage ≤ 0x3E ∧ (usage = 0x3D → m.disk_pair_ready = true) then
    s.with_ui (s.function_key m.disk_pair_ready (usage - 0x39).toNat)
  else if usage = 0x3F ∧ s.screen = .Browser then s.with_ui s.toggle_fullpage
  else if usage = 0x51 then s.scroll m.info (fun s lay => s.browser_scroll_slots lay) 3 120 96
  else if usage = 0x52 then s.scroll m.info (fun s lay => -(s.browser_scroll_slots lay : Int)) (-3) (-120) (-96)
  else
    match hid_usage_to_ascii usage shift with
    | some ch => s.char_key m.offline_lines ch
    | none => s

/-! ## Mice -/

/-- A movement of a cursor, which stays on the screen. -/
def move_cursor (info : FrameBufferInfo) (i : Fin MAX_CURSORS) (btn : UInt8) (dx dy : Int16) : Session :=
  let moved : Option Session := do
    let x ← clamp? (s.cursors.cursor_x i + dx.toInt32) 0 (as_i32 info.width - 1)
    let y ← clamp? (s.cursors.cursor_y i + dy.toInt32) 0 (as_i32 info.height - 1)
    return { s with
      cursors := { s.cursors with
        cursor_x := Function.update s.cursors.cursor_x i x
        cursor_y := Function.update s.cursors.cursor_y i y }
      cursor_btn := Function.update s.cursor_btn i btn }
  moved.getD { s with halted := true }

/-- The left button of a cursor went down. -/
def pressed (i : Fin MAX_CURSORS) : Bool :=
  s.cursors.cursor_active i && s.cursor_btn i &&& 1 != 0 && s.prev_cursor_btn i &&& 1 == 0

/-- The click of a cursor. -/
def click (m : Machine) (i : Fin MAX_CURSORS) : Session :=
  if s.pressed i then
    let clicked : Option Session := do
      let cx ← clamp? (s.cursors.cursor_x i) 0 (as_i32 m.info.width - 1)
      let cy ← clamp? (s.cursors.cursor_y i) 0 (as_i32 m.info.height - 1)
      let r ← handle_click_at m.checked s.toClickState m.info (as_usize cx) (as_usize cy)
      return s.with_ui { r.1 with content_dirty := r.1.content_dirty || r.2 }
    clicked.getD { s with halted := true }
  else s

/-- Which cursors there are: one for each USB mouse and one for the other mouse. -/
def assign_cursors (usb_mouse_active : Bool) (usb_mouse_count : Nat) : Session :=
  let n_usb := if s.settings.usb_polling_enabled && usb_mouse_active then min usb_mouse_count MAX_CURSORS else 0
  let ps2_mouse_slot : Option (Fin MAX_CURSORS) := if h : n_usb < MAX_CURSORS then some ⟨n_usb, h⟩ else none
  { s with
    n_usb := n_usb
    ps2_mouse_slot := ps2_mouse_slot
    cursors := { s.cursors with cursor_active := fun i => decide (i < n_usb) || ps2_mouse_slot = some i } }

end Session

/-! ## Events -/

/-- What the disk copy, the network, the renderer and the log have done. -/
structure Rest where
  phase : DiskInstallPhase
  lines : Nat
  err_len : Nat
  messages : List Bytes
  content_dirty : Bool
  browser_body_dirty : Bool
  status_dirty : Bool

inductive SessionEvent
  /-- The beginning of a pass: the fetch of the home page, when it is due, and the cursors. -/
  | begin_pass (usb_mouse_active : Bool) (usb_mouse_count : Nat)
  /-- An event of the first keyboard or mouse; `ignore` says that there is another keyboard. -/
  | ps2 (ev : Ps2Event) (ignore : Bool)
  | usb_mouse (i : Fin MAX_CURSORS) (btn : UInt8) (dx dy : Int16)
  | usb_key (usage : UInt8) (shift : Bool)
  /-- The buttons of cursors that there are not are released. -/
  | release_inactive
  | click (i : Fin MAX_CURSORS)
  /-- The buttons are those of the pass before. -/
  | latch
  /-- The requests to reboot and to shut down, and to load the page again. -/
  | requests
  /-- A save that was requested; the request is taken back. -/
  | save
  | rest (r : Rest)
  /-- A frame is drawn, after which nothing is left to draw. -/
  | frame

namespace Session

variable (s : Session)

def ps2 (m : Machine) (ev : Ps2Event) (ignore : Bool) : Session :=
  match ev with
  | .BrowserScroll lines =>
    s.scroll m.info (fun s lay => s.browser_wheel_lines lay lines) lines (saturating_mul_i32 lines 36)
      (saturating_mul_i32 lines 32)
  | .Key code shift =>
    if ignore ∧ s.settings.usb_polling_enabled then s else s.ps2_key m code shift
  | .Mouse buttons dx dy =>
    match s.ps2_mouse_slot with
    | none => s
    | some i => s.move_cursor m.info i buttons dx dy

def event (m : Machine) : SessionEvent → Session
  | .begin_pass usb_mouse_active usb_mouse_count =>
    let s := { s with inet_on := m.has_nic && !decide (s.settings.nic = Settings.NicChoice.Off) && s.settings.internet_stack_enabled }
    let s :=
      if s.boot_home_fetch_pending ∧ s.screen = .Browser ∧ s.url ≠ [] then
        { s with boot_home_fetch_pending := false }.start_browser_fetch m.offline_lines
      else s
    s.assign_cursors usb_mouse_active usb_mouse_count
  | .ps2 ev ignore => s.ps2 m ev ignore
  | .usb_mouse i btn dx dy =>
    if s.settings.usb_polling_enabled ∧ 0 < s.n_usb then s.move_cursor m.info i btn dx dy else s
  | .usb_key usage shift => if s.settings.usb_polling_enabled then s.usb_key m usage shift else s
  | .release_inactive =>
    { s with cursor_btn := fun i => if s.cursors.cursor_active i then s.cursor_btn i else 0 }
  | .click i => s.click m i
  | .latch => { s with prev_cursor_btn := s.cursor_btn }
  | .requests =>
    let power := (s.power_reboot_request || s.power_shutdown_request) && decide (s.screen = .Settings)
    let s := { s with power_reboot_request := false, power_shutdown_request := false }
    if power then { s with halted := true }
    else if s.inet_reload_request then
      let s := { s with inet_reload_request := false, status_dirty := true }
      if s.url ≠ [] then s.start_browser_fetch m.offline_lines
      else { s with browser_line_count := 0, fetch_err_len := 0, browser_body_dirty := true }
    else s
  | .save => { s with settings_save_requested := false }
  | .rest r =>
    { s with
      disk_install_phase :=
        if s.disk_install_start_request ∨ s.disk_install_phase ≠ .Idle then r.phase else s.disk_install_phase
      disk_install_start_request := s.disk_install_start_request && !m.disk_pair_ready
      browser_line_count := r.lines
      fetch_err_len := r.err_len
      log := run LogBuffer.push_line s.log r.messages
      content_dirty := s.content_dirty || r.content_dirty
      browser_body_dirty := s.browser_body_dirty || r.browser_body_dirty
      status_dirty := s.status_dirty || r.status_dirty }
  | .frame =>
    { s with content_dirty := false, chrome_only_dirty := false, browser_body_dirty := false, status_dirty := false }

/-- A machine that has halted takes nothing any more. -/
def step (m : Machine) (e : SessionEvent) : Session := if s.halted then s else s.event m e

end Session

/-- Where a cursor is at first, along a side of the screen. -/
def start_at (size percent : Nat) : Option Int32 :=
  clamp? (as_i32 size * .ofNat percent / 100) 0 (pred_i32 (as_i32 size))

/-- `UiState::new_with_settings`, and what `kernel_main` sets when both disks are there. -/
def ClickState.boot (m : Machine) (settings : DeviceSettings) (persist : Bool) : ClickState where
  screen := .EpilepsyWarning
  bios_fullpage_browser := true
  content_dirty := true
  chrome_only_dirty := false
  browser_body_dirty := false
  status_dirty := true
  cursors := {
    cursor_x := fun i => (start_at m.info.width (6 + i % 4 * 22)).getD 0
    cursor_y := fun i => (start_at m.info.height (18 + i / 4 * 20)).getD 0
    cursor_active := fun i => i.val == 0
    cursor_emoji_preset := settings.cursor_emoji_preset }
  toChrome := Chrome.boot settings
  screen_after_epilepsy_notice := if m.disk_pair_ready then .DiskInstall else .Browser
  settings_text_focus := .None
  static_octet_sel := 0
  disk_install_available := m.disk_pair_ready
  disk_install_phase := .Idle
  disk_install_scroll_px := 0
  disk_install_start_request := false
  log_subtab := .Live
  log_scroll_line := 0
  log_stick_to_bottom := true
  settings_subtab := .General
  settings_scroll_px := 0
  settings_save_requested := false
  settings_persist_supported := persist
  wifi_scan_count := 0
  wifi_scan_demo := false
  wifi_scan_names := .replicate 3 (.replicate 32 0)
  wifi_scan_lens := .replicate 3 0
  power_reboot_request := false
  power_shutdown_request := false

/-- The main loop begins; `log` is what was written before. -/
def Session.boot (m : Machine) (settings : DeviceSettings) (persist : Bool) (log : LogBuffer) : Session where
  toClickState := .boot m settings persist
  cursor_btn := fun _ => 0
  prev_cursor_btn := fun _ => 0
  browser_line_count := 0
  page_scroll_line := 0
  fetch_err_len := 0
  boot_home_fetch_pending := true
  n_usb := 0
  ps2_mouse_slot := none
  inet_on := false
  log := log
  -- a screen without pixels has no place for a cursor
  halted := (start_at m.info.width 0).isNone || (start_at m.info.height 0).isNone

/-! ## The notices -/

/-- How many of the two notices are gone. -/
def Screen.gate : Screen → Nat
  | .EpilepsyWarning => 0
  | .CaliforniaAgeNotice => 1
  | _ => 2

namespace Session

variable (m : Machine) (s : Session)

/-- A cursor is on the button of the notice that is shown. -/
def on_button (i : Fin MAX_CURSORS) : Bool :=
  let hit : Option Bool := do
    let (_, button) ← s.shown_notice m.info
    let cx ← clamp? (s.cursors.cursor_x i) 0 (as_i32 m.info.width - 1)
    let cy ← clamp? (s.cursors.cursor_y i) 0 (as_i32 m.info.height - 1)
    return decide (button.Contains (as_usize cx) (as_usize cy))
  hit.getD false

/-- Enter or space, or a click on the button. -/
def answers : SessionEvent → Bool
  | .ps2 (.Key code shift) ignore =>
    !(ignore && s.settings.usb_polling_enabled) &&
      (scancode_set1_to_ascii code shift == some 10 || scancode_set1_to_ascii code shift == some 32)
  | .usb_key usage shift =>
    s.settings.usb_polling_enabled && (hid_usage_to_ascii usage shift == some 10 || hid_usage_to_ascii usage shift == some 32)
  | .click i => s.pressed i && s.on_button m i
  | _ => false

/-- A notice is shown, and the event answers it. -/
def confirms (e : SessionEvent) : Bool := !s.halted && s.is_notice && s.answers m e

/-- How often a notice is answered in a run. -/
def confirmations : Session → List SessionEvent → Nat
  | _, [] => 0
  | s, e :: es => (s.confirms m e).toNat + confirmations (s.step m e) es

/-- Nothing behind the notices has changed since `s₀`: neither the URL, the settings and the
history, nor anything that is requested, chosen or scrolled. -/
structure Untouched (s₀ s : Session) : Prop where
  screens : s.toClickState = { s₀.toClickState with
    screen := s.screen
    content_dirty := s.content_dirty
    chrome_only_dirty := s.chrome_only_dirty
    browser_body_dirty := s.browser_body_dirty
    status_dirty := s.status_dirty
    cursors := { s.cursors with cursor_emoji_preset := s₀.cursors.cursor_emoji_preset } }
  page : s.page_scroll_line = s₀.page_scroll_line
  pending : s.boot_home_fetch_pending = s₀.boot_home_fetch_pending

end Session

end EveOS.Gfx
