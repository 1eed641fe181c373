/-
A click: `handle_click_at` of `kernel/src/gfx.rs`, with `UiState::layout`.

A notice has one button, every other screen has tabs above it, and the SYS panel has rows
with two buttons below them. The full-page browser has no tabs and its layout is all zero,
where eight is subtracted from the height of the tabs: a debug build panics, and in a
release build the difference wraps and the whole page is a tab.
-/
import EveOS.Browser.History
import EveOS.Disk.Install
import EveOS.Gfx.RenderFrame
import EveOS.Settings.Bookmarks

set_option autoImplicit false

namespace EveOS

/-! ## The choices of the SYS panel -/

def Settings.DisplayTheme.next : Settings.DisplayTheme → Settings.DisplayTheme
  | .Light => .Dark
  | .Dark => .Light

def Settings.NicChoice.next : Settings.NicChoice → Settings.NicChoice
  | .Virtio => .Rtl8139
  | .Rtl8139 => .E1000
  | .E1000 => .Pcnet
  | .Pcnet => .Off
  | .Off => .Virtio

def Net.IpConfig.next : Net.IpConfig → Net.IpConfig
  | .Dhcp => .Slirp
  | .Slirp => .Static
  | .Static => .Dhcp

def Settings.WifiSecurity.next : Settings.WifiSecurity → Settings.WifiSecurity
  | .Open => .Wpa2Psk
  | .Wpa2Psk => .Wpa3Sae
  | .Wpa3Sae => .Open

end EveOS

namespace EveOS.Gfx

open Browser (Chrome URL_CAP boot_url bookmark_url)
open Disk.Install (DiskInstallPhase)
open Settings (PERSIST_HOME_URL_CAP BookmarkSlot Panel)

/-! ## The state -/

inductive SettingsTextFocus
  | None
  | WifiSsid
  | WifiPsk
  | DisplayWidth
  | DisplayHeight
  | HomeUrl
  | StaticIp
  | StaticGw
  | StaticDns
  deriving DecidableEq

inductive LogSubtab
  | Live
  | Serial
  deriving DecidableEq

inductive SettingsSubtab
  | General
  | Input
  deriving DecidableEq

/-- The part of `UiState` that a click reads or changes. -/
structure ClickState extends UiState, Chrome where
  screen_after_epilepsy_notice : Screen
  settings_text_focus : SettingsTextFocus
  static_octet_sel : Nat
  disk_install_available : Bool
  disk_install_phase : DiskInstallPhase
  disk_install_scroll_px : Nat
  disk_install_start_request : Bool
  log_subtab : LogSubtab
  log_scroll_line : Nat
  log_stick_to_bottom : Bool
  settings_subtab : SettingsSubtab
  settings_scroll_px : Nat
  settings_save_requested : Bool
  /-- `platform_caps.settings_persist_supported`. -/
  settings_persist_supported : Bool
  wifi_scan_count : UInt8
  wifi_scan_demo : Bool
  wifi_scan_names : Vector (Vector UInt8 32) 3
  wifi_scan_lens : Vector UInt8 3
  power_reboot_request : Bool
  power_shutdown_request : Bool

/-- `a - b` of two `usize`. A debug build panics on an underflow. -/
def sub (checked : Bool) (a b : Nat) : Option Nat :=
  if b ≤ a then some (a - b) else if checked then none else some (a + 2 ^ 64 - b)

structure Rect where
  x : Nat
  y : Nat
  w : Nat
  h : Nat
  deriving DecidableEq

def Rect.Contains (r : Rect) (mx my : Nat) : Prop := r.x ≤ mx ∧ mx < r.x + r.w ∧ r.y ≤ my ∧ my < r.y + r.h

instance (r : Rect) (mx my : Nat) : Decidable (r.Contains mx my) := inferInstanceAs (Decidable (_ ∧ _ ∧ _ ∧ _))

/-! ## The layout -/

structure Layout where
  w : Nat
  h : Nat
  chrome_h : Nat
  tab_y : Nat
  tab_h : Nat
  bar_y : Nat
  bar_h : Nat
  content_top : Nat

def UiState.is_notice (state : UiState) : Bool := state.screen = .EpilepsyWarning || state.screen = .CaliforniaAgeNotice

def UiState.layout (state : UiState) (info : FrameBufferInfo) : Layout :=
  let w := info.width
  let h := info.height
  if state.is_notice then ⟨w, h, 0, 0, 0, 0, 0, 0⟩
  else if state.browser_bios_fullpage then ⟨w, h, 0, 0, 0, 0, 0, 0⟩
  else
    let chrome_h := max (min 56 (h / 8)) 24
    let tab_y := chrome_h + 4
    let tab_h := max (min 36 ((h - chrome_h) / 6)) 20
    let bar_y := tab_y + tab_h + 6
    let bar_h := max (min 40 ((h - bar_y) / 5)) 28
    let content_top := bar_y + bar_h + 12
    ⟨w, h, chrome_h, tab_y, tab_h, bar_y, bar_h, content_top⟩

/-! ## The notices -/

/-- What the geometries of the two notices have in common: the card and its button. -/
def notice_geometry (checked : Bool) (max_card body_lines top_area min_card max_btn min_btn w h : Nat) :
    Option (Rect × Rect) := do
  let card_w := max 320 (min max_card (w * 3 / 4))
  let btn_h := 34
  let btn_pad := 22
  let card_h := max (min (top_area + body_lines * 13 + btn_pad + btn_h + 36) (h - 36)) min_card
  let card_x := (w - card_w) / 2
  let card_y := (h - card_h) / 2
  let btn_w := max (min (card_w - 56) max_btn) min_btn
  let btn_x := card_x + (← sub checked card_w btn_w) / 2
  let btn_y ← sub checked (← sub checked (card_y + card_h) btn_h) btn_pad
  return (⟨card_x, card_y, card_w, card_h⟩, ⟨btn_x, btn_y, btn_w, btn_h⟩)

def epilepsy_notice_geometry (checked : Bool) (w h : Nat) : Option (Rect × Rect) :=
  notice_geometry checked 620 9 52 230 340 200 w h

def ca_age_notice_geometry (checked : Bool) (w h : Nat) : Option (Rect × Rect) :=
  notice_geometry checked 640 11 48 248 400 220 w h

namespace ClickState

variable (state : ClickState)

def dismiss_epilepsy_notice : ClickState :=
  if state.screen ≠ .EpilepsyWarning then state
  else { state with screen := .CaliforniaAgeNotice, content_dirty := true }

def dismiss_california_age_notice : ClickState :=
  if state.screen ≠ .CaliforniaAgeNotice then state
  else { state with screen := state.screen_after_epilepsy_notice, content_dirty := true }

end ClickState

/-! ## The tabs -/

def TAB_EVE_X : Nat := 12
def TAB_EVE_W : Nat := 108
def TAB_SET_X : Nat := 128
def TAB_SET_W : Nat := 68
def TAB_INS_X : Nat := 204
def TAB_INS_W : Nat := 82
def TAB_LOG_W : Nat := TAB_SET_W

namespace ClickState

variable (state : ClickState)

def tab_log_x : Nat :=
  if state.disk_install_available then TAB_INS_X + TAB_INS_W + 6 else TAB_SET_X + TAB_SET_W + 6

/-- The tab above or below `mx`. -/
def tab_hit (lay : Layout) (mx : Nat) : Option Screen :=
  let lx := state.tab_log_x
  if TAB_EVE_X ≤ mx ∧ mx < TAB_EVE_X + TAB_EVE_W then some .Browser
  else if TAB_SET_X ≤ mx ∧ mx < TAB_SET_X + TAB_SET_W then some .Settings
  else if state.disk_install_available ∧ TAB_INS_X ≤ mx ∧ mx < TAB_INS_X + TAB_INS_W then some .DiskInstall
  else if lx + TAB_LOG_W + 8 < lay.w ∧ lx ≤ mx ∧ mx < lx + TAB_LOG_W then some .Log
  else none

def open_tab (screen : Screen) : ClickState :=
  match screen with
  | .Browser | .Log => { state with screen := screen, settings_text_focus := .None }
  | _ => { state with screen := screen }

end ClickState

/-! ## The strip under the tabs, and the other screens -/

def disk_install_button_rect (lay : Layout) : Rect :=
  let bw := min (lay.w - 80) 440
  ⟨(lay.w - bw) / 2, lay.content_top + 168, bw, 52⟩

def URL_BAR_BTN_COUNT : Nat := 5

def url_bar_btn_width (w : Nat) : Nat := max (min 32 (w / (URL_BAR_BTN_COUNT + 8))) 24

def url_bar_button_hit (lay : Layout) (mx my : Nat) : Option Nat :=
  if lay.h ≤ lay.bar_y + lay.bar_h then none
  else if my < lay.bar_y + 6 ∨ lay.bar_y + (lay.bar_h - 6) ≤ my then none
  else
    let btn := url_bar_btn_width lay.w
    (List.range URL_BAR_BTN_COUNT).find? fun i => 12 + i * (btn + 8) ≤ mx && mx < 12 + i * (btn + 8) + btn

def LOG_SUBTAB_Y_OFF : Nat := 52
def LOG_SUBTAB_H : Nat := 20
def LOG_SUBTAB_W_LIVE : Nat := 56
def LOG_SUBTAB_W_SERIAL : Nat := 72
def LOG_SUBTAB_GAP : Nat := 8

def log_subtab_hit (lay : Layout) (mx my : Nat) : Option LogSubtab :=
  let sub_y := lay.content_top + LOG_SUBTAB_Y_OFF
  let live_x := 36
  let ser_x := live_x + LOG_SUBTAB_W_LIVE + LOG_SUBTAB_GAP
  if sub_y ≤ my ∧ my < sub_y + LOG_SUBTAB_H then
    if live_x ≤ mx ∧ mx < live_x + LOG_SUBTAB_W_LIVE then some .Live
    else if ser_x ≤ mx ∧ mx < ser_x + LOG_SUBTAB_W_SERIAL then some .Serial
    else none
  else none

namespace ClickState

variable (state : ClickState)

/-- `history_go_back` or `history_go_forward`, and what is requested where it moved. -/
def step_history (moves : Chrome × Bool) : ClickState :=
  if moves.2 then
    { state with
      toChrome := { moves.1 with history_skip_push := true, inet_reload_request := true }
      chrome_only_dirty := true
      status_dirty := true }
  else state

/-- The buttons of the URL bar. -/
def press_url_bar : Nat → ClickState
  | 0 => state.step_history state.toChrome.history_go_back
  | 1 => state.step_history state.toChrome.history_go_forward
  | 2 => { state with history_skip_push := true, inet_reload_request := true, status_dirty := true }
  | 3 =>
    { state with
      url := boot_url state.settings
      inet_reload_request := true
      chrome_only_dirty := true
      status_dirty := true }
  | _ => { state with inet_reload_request := true, status_dirty := true }

def select_log_subtab (tab : LogSubtab) : ClickState :=
  if state.log_subtab ≠ tab then
    { state with log_subtab := tab, log_scroll_line := 0, log_stick_to_bottom := true, content_dirty := true }
  else state

end ClickState

/-! ## The SYS panel -/

def SETTINGS_SUBTAB_OFF : Nat := 12 + 20
def SETTINGS_SUBTAB_H : Nat := 22
def SETTINGS_SUBTAB_BELOW_GAP : Nat := 8
def SETTINGS_SUBTAB_PILL_W_GEN : Nat := 82
def SETTINGS_SUBTAB_PILL_W_INP : Nat := 58
def SETTINGS_SUBTAB_PILL_GAP : Nat := 8
def SETTINGS_ROW_H : Nat := 22
def SETTINGS_GAP : Nat := 4
def SETTINGS_SEC_SKIP : Nat := 18
def POWER_BTN_H : Nat := 46
def POWER_BTN_GAP : Nat := 18
def POWER_STRIP_PAD_TOP : Nat := 20

def settings_first_row_y (content_top : Nat) : Nat :=
  content_top + SETTINGS_SUBTAB_OFF + SETTINGS_SUBTAB_H + SETTINGS_SUBTAB_BELOW_GAP + 14

/-- What the rows are for; `status` are the rows that nothing is done with. -/
inductive Control
  | theme
  | width
  | height
  | custom_resolution
  | save
  | home_url
  | set_home
  | bookmark (slot : BookmarkSlot)
  | wifi
  | scan
  | network (slot : Fin 3)
  | ssid
  | security
  | psk
  | nic
  | ip_mode
  | static_ip
  | static_gw
  | static_dns
  | internet
  | bluetooth
  | midi
  | usb_midi
  | script
  | usb_polling
  | status
  | cursor_preset
  deriving DecidableEq

/-- The rows in their order, each with the space above it besides the gap. -/
abbrev Rows : Type := List (Nat × Control)

/-- The rows with the `y` of each, the first of them at `y`. -/
def Rows.tops : Rows → Nat → List (Nat × Control)
  | [], _ => []
  | (skip, c) :: rows, y => (y + skip, c) :: Rows.tops rows (y + skip + (SETTINGS_ROW_H + SETTINGS_GAP))

/-- `cursor_emoji::next_preset`. -/
def next_preset (p : UInt8) : UInt8 := UInt8.ofNat ((p.toNat + 1) % 8)

def static_ip_octet_from_mx (mx base_x block_w : Nat) : Nat :=
  if mx ≤ base_x then 0 else min ((mx - base_x) / block_w) 3

/-- The names that `wifi_demo_scan` finds. -/
def WIFI_NAMES : List Bytes := [ascii "HOMENET", ascii "OFFICE-AP", ascii "GUEST-WIFI"]

namespace ClickState

variable (state : ClickState)

def wifi_demo_scan : ClickState :=
  { state with
    wifi_scan_demo := true
    wifi_scan_count := 3
    wifi_scan_names := .ofFn fun i => patch (state.wifi_scan_names.get i) 0 (WIFI_NAMES.getD i [])
    wifi_scan_lens := .ofFn fun i => UInt8.ofNat (WIFI_NAMES.getD i []).length }

/-- The rows that `handle_click_at` tests. -/
def hit_rows : Rows :=
  match state.settings_subtab with
  | .General =>
    [(0, .theme), (0, .width), (0, .height), (0, .custom_resolution), (0, .save), (14, .home_url), (0, .set_home)] ++
    (List.finRange Settings.PERSIST_BOOKMARK_SLOTS).map (fun slot => (0, .bookmark slot)) ++
    [(14, .wifi), (0, .scan)] ++
    (List.finRange 3).map (fun slot => (0, .network slot)) ++
    [(if state.wifi_scan_demo then 12 else 0, .ssid), (0, .security), (0, .psk), (0, .nic), (0, .ip_mode)] ++
    (if state.settings.ip_config = .Static then [(0, .static_ip), (0, .static_gw), (0, .static_dns)] else []) ++
    [(0, .internet), (SETTINGS_SEC_SKIP, .bluetooth), (SETTINGS_SEC_SKIP, .midi), (0, .usb_midi), (0, .script)]
  | .Input => [(0, .usb_polling), (0, .status), (0, .status), (0, .status), (0, .status), (0, .cursor_preset)]

/-- The right half of the row of a bookmark. -/
def store_bookmark (slot : BookmarkSlot) : ClickState :=
  { state with settings := (Panel.store ⟨state.url, state.settings⟩ slot).settings }

/-- The left half. -/
def load_bookmark (slot : BookmarkSlot) : ClickState :=
  match bookmark_url state.settings slot with
  | some url =>
    { state with url := url, inet_reload_request := true, chrome_only_dirty := true, status_dirty := true }
  | none => state

/-- A name that was found becomes the SSID. -/
def take_network (slot : Fin 3) : ClickState :=
  let n := (state.wifi_scan_lens.get slot).toNat
  if slot.val < state.wifi_scan_count.toNat ∧ 0 < n ∧ n ≤ 32 then
    { state with
      settings := { state.settings with
        wifi_ssid := patch state.settings.wifi_ssid 0 ((state.wifi_scan_names.get slot).toList.take n)
        wifi_ssid_len := n }
      settings_text_focus := .WifiSsid }
  else state

/-- The row of an address is tapped: the octet is chosen by where. -/
def focus_address (focus : SettingsTextFocus) (lay : Layout) (mx : Nat) : ClickState :=
  { state with
    settings_text_focus := focus
    static_octet_sel := static_ip_octet_from_mx mx (min 200 (lay.w - 160)) 48
    content_dirty := true }

/-- `state.settings = s`. -/
def with_settings (s : Settings.DeviceSettings) : ClickState := { state with settings := s }

/-- A row is tapped at `mx`. -/
def tap (lay : Layout) (mx : Nat) : Control → ClickState
  | .theme =>
    { state.with_settings { state.settings with display_theme := state.settings.display_theme.next } with
      content_dirty := true }
  | .width => { state with settings_text_focus := .DisplayWidth, content_dirty := true }
  | .height => { state with settings_text_focus := .DisplayHeight, content_dirty := true }
  | .custom_resolution =>
    { state.with_settings { state.settings with
        display_use_custom_resolution := !state.settings.display_use_custom_resolution } with
      content_dirty := true }
  | .save =>
    { state with
      settings_save_requested := state.settings_save_requested || state.settings_persist_supported
      content_dirty := true }
  | .home_url => { state with settings_text_focus := .HomeUrl, content_dirty := true }
  | .set_home =>
    let n := min state.url.length PERSIST_HOME_URL_CAP
    { state.with_settings { state.settings with
        home_url := patch state.settings.home_url 0 (state.url.take n)
        home_url_len := UInt8.ofNat n } with
      content_dirty := true }
  | .bookmark slot =>
    let mid := 36 + (lay.w - 72) / 2
    { (if mx < mid then state.load_bookmark slot else state.store_bookmark slot) with content_dirty := true }
  | .wifi => state.with_settings { state.settings with wifi_enabled := !state.settings.wifi_enabled }
  | .scan => state.wifi_demo_scan
  | .network slot => state.take_network slot
  | .ssid => { state with settings_text_focus := .WifiSsid }
  | .security => state.with_settings { state.settings with wifi_sec := state.settings.wifi_sec.next }
  | .psk => { state with settings_text_focus := .WifiPsk }
  | .nic => state.with_settings { state.settings with nic := state.settings.nic.next }
  | .ip_mode => state.with_settings { state.settings with ip_config := state.settings.ip_config.next }
  | .static_ip => state.focus_address .StaticIp lay mx
  | .static_gw => state.focus_address .StaticGw lay mx
  | .static_dns => state.focus_address .StaticDns lay mx
  | .internet =>
    state.with_settings { state.settings with internet_stack_enabled := !state.settings.internet_stack_enabled }
  | .bluetooth => state.with_settings { state.settings with bluetooth_enabled := !state.settings.bluetooth_enabled }
  | .midi => state.with_settings { state.settings with midi_enabled := !state.settings.midi_enabled }
  | .usb_midi => state.with_settings { state.settings with midi_usb_enabled := !state.settings.midi_usb_enabled }
  | .script =>
    state.with_settings { state.settings with
      browser_script_runtime_enabled := !state.settings.browser_script_runtime_enabled }
  | .usb_polling => state.with_settings { state.settings with usb_polling_enabled := !state.settings.usb_polling_enabled }
  | .status => state
  | .cursor_preset =>
    let preset := next_preset state.settings.cursor_emoji_preset
    { state.with_settings { state.settings with cursor_emoji_preset := preset } with
      -- the cursors are drawn with the preset of the settings
      cursors := { state.cursors with cursor_emoji_preset := preset } }


end ClickState

def settings_subtab_hit (lay : Layout) (mx hit_my : Nat) : Option SettingsSubtab :=
  let sub_y := lay.content_top + SETTINGS_SUBTAB_OFF
  let x0 := 36
  let ix := x0 + SETTINGS_SUBTAB_PILL_W_GEN + SETTINGS_SUBTAB_PILL_GAP
  if sub_y ≤ hit_my ∧ hit_my < sub_y + SETTINGS_SUBTAB_H ∧ x0 ≤ mx then
    if x0 ≤ mx ∧ mx < x0 + SETTINGS_SUBTAB_PILL_W_GEN then some .General
    else if ix ≤ mx ∧ mx < ix + SETTINGS_SUBTAB_PILL_W_INP then some .Input
    else none
  else none

/-- Where the row at `y` is tapped. -/
def row_rect (lay : Layout) (y : Nat) : Rect := ⟨36, y, lay.w - 72, SETTINGS_ROW_H⟩

namespace ClickState

variable (state : ClickState)

def settings_y_after_all_rows (content_top : Nat) : Nat :=
  let r := SETTINGS_ROW_H + SETTINGS_GAP
  let y := settings_first_row_y content_top
  match state.settings_subtab with
  | .General =>
    y + 5 * r + 14 + 10 * r + 14 + r + r + r * 3 + (if state.wifi_scan_demo then 12 else 0) +
      r + r + r + r + r + r + SETTINGS_SEC_SKIP + r + SETTINGS_SEC_SKIP + r + r + r + 10
  | .Input => y + r + r + r + r + r + r + 10

def settings_power_button_rects (lay : Layout) : Rect × Rect :=
  let y_rows_end := state.settings_y_after_all_rows lay.content_top
  let y_btn := y_rows_end + POWER_STRIP_PAD_TOP + 16
  let margin := 40
  let inner := lay.w - margin * 2
  let btn_w := max ((inner - POWER_BTN_GAP) / 2) 120
  (⟨margin, y_btn, btn_w, POWER_BTN_H⟩, ⟨margin + btn_w + POWER_BTN_GAP, y_btn, btn_w, POWER_BTN_H⟩)

def select_settings_subtab (tab : SettingsSubtab) : ClickState :=
  if state.settings_subtab ≠ tab then
    { state with settings_subtab := tab, settings_scroll_px := 0, content_dirty := true }
  else state

/-- The rows with where they are. -/
def placed_rows (lay : Layout) : List (Nat × Control) := state.hit_rows.tops (settings_first_row_y lay.content_top)

/-- The row that is hit. -/
def row_hit (lay : Layout) (mx hit_my : Nat) : Option Control :=
  ((state.placed_rows lay).find? fun r => (row_rect lay r.1).Contains mx hit_my).map Prod.snd

/-- A click on the SYS screen, below the tabs. -/
def click_settings (lay : Layout) (mx my : Nat) : ClickState × Bool :=
  let hit_my := my + state.settings_scroll_px
  match settings_subtab_hit lay mx hit_my, state.row_hit lay mx hit_my with
  | some tab, _ => (state.select_settings_subtab tab, true)
  | none, some c => (state.tap lay mx c, true)
  | none, none =>
    let (reboot, shutdown) := state.settings_power_button_rects lay
    if reboot.Contains mx hit_my then ({ state with power_reboot_request := true }, true)
    else if shutdown.Contains mx hit_my then ({ state with power_shutdown_request := true }, true)
    else (state, false)

/-- A click below the tabs. -/
def click_screen (lay : Layout) (mx my : Nat) : ClickState × Bool :=
  match state.screen with
  | .DiskInstall =>
    if state.disk_install_phase = .Idle ∧
        (disk_install_button_rect lay).Contains mx (my + state.disk_install_scroll_px) then
      ({ state with disk_install_start_request := true }, true)
    else (state, false)
  | .Browser =>
    match url_bar_button_hit lay mx my with
    | some i => (state.press_url_bar i, true)
    | none => (state, false)
  | .Log =>
    match log_subtab_hit lay mx my with
    | some tab => (state.select_log_subtab tab, true)
    | none => (state, false)
  | .Settings => state.click_settings lay mx my
  | _ => (state, false)

/-- The tab that is hit. -/
def tab_at (lay : Layout) (tab_h mx my : Nat) : Option Screen :=
  if lay.tab_y + 4 ≤ my ∧ my < lay.tab_y + 4 + tab_h then state.tab_hit lay mx else none

end ClickState

/-- What the click left, and whether it did anything. -/
def handle_click_at (checked : Bool) (state : ClickState) (info : FrameBufferInfo) (mx my : Nat) :
    Option (ClickState × Bool) := do
  let lay := state.layout info
  if state.screen = .EpilepsyWarning then
    let (_, button) ← epilepsy_notice_geometry checked lay.w lay.h
    return if button.Contains mx my then (state.dismiss_epilepsy_notice, true) else (state, false)
  else if state.screen = .CaliforniaAgeNotice then
    let (_, button) ← ca_age_notice_geometry checked lay.w lay.h
    return if button.Contains mx my then (state.dismiss_california_age_notice, true) else (state, false)
  else
    let tab_h ← sub checked lay.tab_h 8
    match state.tab_at lay tab_h mx my with
    | some screen => return (state.open_tab screen, true)
    | none => return state.click_screen lay mx my

/-! ## What is promised -/

namespace ClickState

variable (state : ClickState) (info : FrameBufferInfo)

/-- The tabs that `draw_chrome_and_tabs` paints, each with the screen behind it. -/
def drawn_tabs (lay : Layout) : List (Rect × Screen) :=
  let lx := state.tab_log_x
  if lay.tab_y + lay.tab_h < lay.h then
    [(⟨TAB_EVE_X, lay.tab_y + 4, TAB_EVE_W, lay.tab_h - 8⟩, .Browser),
      (⟨TAB_SET_X, lay.tab_y + 4, TAB_SET_W, lay.tab_h - 8⟩, .Settings)] ++
    (if state.disk_install_available then [(⟨TAB_INS_X, lay.tab_y + 4, TAB_INS_W, lay.tab_h - 8⟩, .DiskInstall)]
      else []) ++
    (if lx + TAB_LOG_W + 8 < lay.w then [(⟨lx, lay.tab_y + 4, TAB_LOG_W, lay.tab_h - 8⟩, .Log)] else [])
  else []

/-- The tabs on the screen. -/
def shown_tabs : List (Rect × Screen) :=
  if .chrome_and_tabs ∈ state.paint_ui then state.drawn_tabs (state.layout info) else []

/-- The card and the button of the notice on the screen. -/
def shown_notice : Option (Rect × Rect) :=
  match state.screen with
  | .EpilepsyWarning => epilepsy_notice_geometry false info.width info.height
  | .CaliforniaAgeNotice => ca_age_notice_geometry false info.width info.height
  | _ => none

/-- What is promised of a click. -/
structure ClickSound (mx my : Nat) : Prop where
  no_underflow : (handle_click_at true state info mx my).isSome = true
  screen : ∀ r, handle_click_at false state info mx my = some r → r.1.screen ≠ state.screen →
    (∃ card button, state.shown_notice info = some (card, button) ∧ button.Contains mx my) ∨
      ∃ tab ∈ state.shown_tabs info, tab.1.Contains mx my ∧ r.1.screen = tab.2
  full_page : state.browser_bios_fullpage = true → ∀ r, handle_click_at false state info mx my = some r →
    r.1.screen = state.screen

/-- There is room for the tabs below the title. -/
def TabsFit : Prop := (state.layout info).tab_y + (state.layout info).tab_h < (state.layout info).h

/-- No tab of another screen is where the click is. -/
def MissesTabs (mx my : Nat) : Prop :=
  ∀ screen, state.tab_at (state.layout info) ((state.layout info).tab_h - 8) mx my = some screen →
    screen = state.screen

end ClickState

/-! ## The screen -/

theorem sub_of_le (checked : Bool) {a b : Nat} (h : b ≤ a) : sub checked a b = some (a - b) := if_pos h

/-- The geometry of a notice does without an underflow, whatever the size of the screen. -/
theorem notice_geometry_returns {max_card body_lines top_area min_card max_btn min_btn : Nat} (w h : Nat)
    (hbtn : min_btn ≤ 264) (hcard : 56 ≤ min_card) :
    ∃ r, ∀ checked, notice_geometry checked max_card body_lines top_area min_card max_btn min_btn w h = some r := by
  have hw : max (min (max 320 (min max_card (w * 3 / 4)) - 56) max_btn) min_btn ≤ max 320 (min max_card (w * 3 / 4)) := by
    omega
  generalize hcard_h : max (min (top_area + body_lines * 13 + 22 + 34 + 36) (h - 36)) min_card = card_h
  have hh : 56 ≤ (h - card_h) / 2 + card_h := by omega
  apply Exists.intro
  intro checked
  unfold notice_geometry
  simp only [hcard_h, sub_of_le checked hw, sub_of_le checked (show 34 ≤ (h - card_h) / 2 + card_h by omega),
    sub_of_le checked (show 22 ≤ (h - card_h) / 2 + card_h - 34 by omega), Option.bind_eq_bind, Option.bind_some]
  rfl

theorem epilepsy_notice_geometry_returns (w h : Nat) :
    ∃ r, ∀ checked, epilepsy_notice_geometry checked w h = some r :=
  notice_geometry_returns w h (by decide) (by decide)

theorem ca_age_notice_geometry_returns (w h : Nat) :
    ∃ r, ∀ checked, ca_age_notice_geometry checked w h = some r :=
  notice_geometry_returns w h (by decide) (by decide)

namespace ClickState

variable {state : ClickState} {info : FrameBufferInfo} {mx my : Nat}

theorem open_tab_screen (state : ClickState) (screen : Screen) : (state.open_tab screen).screen = screen := by
  cases screen <;> rfl

/-- No row of the SYS panel leaves it. -/
theorem tap_screen (state : ClickState) (lay : Layout) (mx : Nat) (c : Control) :
    (state.tap lay mx c).screen = state.screen := by
  cases c with
  | bookmark slot =>
    show (if mx < _ then state.load_bookmark slot else state.store_bookmark slot).screen = state.screen
    unfold load_bookmark
    split_ifs
    · cases bookmark_url state.settings slot <;> rfl
    · rfl
  | network slot =>
    show (state.take_network slot).screen = state.screen
    unfold take_network
    dsimp only
    split_ifs <;> rfl
  | _ => rfl

theorem click_settings_screen (state : ClickState) (lay : Layout) (mx my : Nat) :
    (state.click_settings lay mx my).1.screen = state.screen := by
  unfold click_settings
  dsimp only
  cases settings_subtab_hit lay mx (my + state.settings_scroll_px) with
  | some tab =>
    unfold select_settings_subtab
    dsimp only
    split_ifs <;> rfl
  | none =>
    cases state.row_hit lay mx (my + state.settings_scroll_px) with
    | some c => exact tap_screen state lay mx c
    | none =>
      dsimp only
      split_ifs <;> rfl

theorem press_url_bar_screen (state : ClickState) (i : Nat) : (state.press_url_bar i).screen = state.screen := by
  have hstep : ∀ moves, (state.step_history moves).screen = state.screen := by
    intro moves
    unfold step_history
    split_ifs <;> rfl
  unfold press_url_bar
  split
  · apply hstep
  · apply hstep
  all_goals rfl

/-- Below the tabs a click changes no screen. -/
theorem click_screen_screen (state : ClickState) (lay : Layout) (mx my : Nat) :
    (state.click_screen lay mx my).1.screen = state.screen := by
  unfold click_screen
  cases hscreen : state.screen with
  | Settings => exact (click_settings_screen state lay mx my).trans hscreen
  | DiskInstall =>
    dsimp only
    split_ifs <;> exact hscreen
  | Browser =>
    dsimp only
    cases url_bar_button_hit lay mx my with
    | some i => exact (press_url_bar_screen state i).trans hscreen
    | none => exact hscreen
  | Log =>
    dsimp only
    cases log_subtab_hit lay mx my with
    | some tab =>
      unfold select_log_subtab
      dsimp only
      split_ifs <;> exact hscreen
    | none => exact hscreen
  | _ => exact hscreen

/-- Where the tabs have room, what is hit is a tab that is drawn. -/
theorem tab_at_drawn {lay : Layout} {screen : Screen} (hfit : lay.tab_y + lay.tab_h < lay.h)
    (h : state.tab_at lay (lay.tab_h - 8) mx my = some screen) :
    ∃ tab ∈ state.drawn_tabs lay, tab.1.Contains mx my ∧ screen = tab.2 := by
  unfold tab_at at h
  split_ifs at h with hy
  unfold drawn_tabs
  rw [if_pos hfit]
  unfold tab_hit at h
  dsimp only at h ⊢
  -- the tests are in the order in which the tabs are drawn
  split_ifs at h with hbrowser hsettings hinstall hlog
  · obtain rfl := Option.some.inj h
    refine ⟨_, List.mem_append_left _ (List.mem_append_left _ List.mem_cons_self), ?_, rfl⟩
    exact ⟨hbrowser.1, hbrowser.2, hy⟩
  · obtain rfl := Option.some.inj h
    refine ⟨_, List.mem_append_left _ (List.mem_append_left _ (List.mem_cons_of_mem _ List.mem_cons_self)), ?_, rfl⟩
    exact ⟨hsettings.1, hsettings.2, hy⟩
  · obtain rfl := Option.some.inj h
    rw [if_pos hinstall.1]
    refine ⟨_, List.mem_append_left _ (List.mem_append_right _ List.mem_cons_self), ?_, rfl⟩
    exact ⟨hinstall.2.1, hinstall.2.2, hy⟩
  · obtain rfl := Option.some.inj h
    rw [if_pos hlog.1]
    refine ⟨_, List.mem_append_right _ List.mem_cons_self, ?_, rfl⟩
    exact ⟨hlog.2.1, hlog.2.2, hy⟩

theorem not_notice_iff : state.is_notice = false ↔ state.screen ≠ .EpilepsyWarning ∧ state.screen ≠ .CaliforniaAgeNotice := by
  unfold UiState.is_notice
  rw [Bool.or_eq_false_iff, decide_eq_false_iff_not, decide_eq_false_iff_not]

theorem chrome_painted (hnotice : state.is_notice = false) (hpage : state.browser_bios_fullpage = false) :
    Draw.chrome_and_tabs ∈ state.paint_ui := by
  obtain ⟨hepilepsy, hage⟩ := not_notice_iff.mp hnotice
  unfold UiState.paint_ui
  rw [if_neg hepilepsy, if_neg hage, hpage, if_neg Bool.false_ne_true]
  simp

theorem eight_le_tab_h (info : FrameBufferInfo) (hnotice : state.is_notice = false)
    (hpage : state.browser_bios_fullpage = false) : 8 ≤ (state.layout info).tab_h := by
  unfold UiState.layout
  rw [hnotice, hpage, if_neg Bool.false_ne_true, if_neg Bool.false_ne_true]
  dsimp only
  omega

/-- A click where there are tabs. -/
theorem handle_click_at_tabs (checked : Bool) (hnotice : state.is_notice = false)
    (hpage : state.browser_bios_fullpage = false) (mx my : Nat) :
    handle_click_at checked state info mx my =
      some (((state.tab_at (state.layout info) ((state.layout info).tab_h - 8) mx my).map
        fun screen => (state.open_tab screen, true)).getD (state.click_screen (state.layout info) mx my)) := by
  obtain ⟨hepilepsy, hage⟩ := not_notice_iff.mp hnotice
  unfold handle_click_at
  dsimp only
  rw [if_neg hepilepsy, if_neg hage, sub_of_le checked (eight_le_tab_h info hnotice hpage), Option.bind_eq_bind,
    Option.bind_some]
  cases state.tab_at (state.layout info) ((state.layout info).tab_h - 8) mx my <;> rfl

/-- A click on a notice: the button alone does something. -/
theorem handle_click_at_notice (hnotice : state.is_notice = true) (info : FrameBufferInfo) (mx my : Nat) :
    ∃ card button left, state.shown_notice info = some (card, button) ∧
      ∀ checked, handle_click_at checked state info mx my =
        some (if button.Contains mx my then (left, true) else (state, false)) := by
  have hlay : (state.layout info).w = info.width ∧ (state.layout info).h = info.height := by
    unfold UiState.layout
    rw [if_pos hnotice]
    exact ⟨rfl, rfl⟩
  unfold shown_notice
  by_cases hepilepsy : state.screen = .EpilepsyWarning
  · obtain ⟨⟨card, button⟩, hgeometry⟩ := epilepsy_notice_geometry_returns info.width info.height
    refine ⟨card, button, state.dismiss_epilepsy_notice, ?_, fun checked => ?_⟩
    · rw [hepilepsy]
      exact hgeometry false
    · unfold handle_click_at
      dsimp only
      rw [if_pos hepilepsy, hlay.1, hlay.2, hgeometry checked]
      rfl
  · have hage : state.screen = .CaliforniaAgeNotice := by
      by_contra hage
      exact Bool.false_ne_true ((not_notice_iff.mpr ⟨hepilepsy, hage⟩).symm.trans hnotice)
    obtain ⟨⟨card, button⟩, hgeometry⟩ := ca_age_notice_geometry_returns info.width info.height
    refine ⟨card, button, state.dismiss_california_age_notice, ?_, fun checked => ?_⟩
    · rw [hage]
      exact hgeometry false
    · unfold handle_click_at
      dsimp only
      rw [if_neg hepilepsy, if_pos hage, hlay.1, hlay.2, hgeometry checked]
      rfl

theorem page_is_no_notice (hpage : state.browser_bios_fullpage = true) : state.is_notice = false := by
  unfold UiState.browser_bios_fullpage at hpage
  rw [Bool.and_eq_true, decide_eq_true_iff] at hpage
  rw [not_notice_iff, hpage.1]
  exact ⟨by decide, by decide⟩

/-- A page of its own has no tabs, and eight is subtracted from their height. -/
theorem page_underflows (hpage : state.browser_bios_fullpage = true) :
    handle_click_at true state info mx my = none := by
  obtain ⟨hepilepsy, hage⟩ := not_notice_iff.mp (page_is_no_notice hpage)
  unfold handle_click_at UiState.layout
  rw [page_is_no_notice hpage, hpage]
  dsimp only
  rw [if_neg hepilepsy, if_neg hage]
  rfl

/-- **When a click is as it should be**: there are tabs, and either they have room or the
click does not open another one. -/
theorem click_sound_iff (state : ClickState) (info : FrameBufferInfo) (mx my : Nat) :
    state.ClickSound info mx my ↔
      state.browser_bios_fullpage = false ∧
        (state.is_notice = true ∨ state.TabsFit info ∨ state.MissesTabs info mx my) := by
  constructor
  · intro h
    have hpage : state.browser_bios_fullpage = false := by
      by_contra hpage
      have hsome := h.no_underflow
      rw [page_underflows (Bool.not_eq_false _ ▸ hpage)] at hsome
      cases hsome
    refine ⟨hpage, ?_⟩
    by_contra hall
    obtain ⟨hnotice, hfit, hmiss⟩ : state.is_notice = false ∧ ¬ state.TabsFit info ∧ ¬ state.MissesTabs info mx my := by
      rwa [not_or, not_or, Bool.not_eq_true] at hall
    unfold MissesTabs at hmiss
    push Not at hmiss
    obtain ⟨screen, hat, hne⟩ := hmiss
    have hclick : handle_click_at false state info mx my = _ := handle_click_at_tabs false hnotice hpage mx my
    rw [hat, Option.map_some, Option.getD_some] at hclick
    rcases h.screen _ hclick ((open_tab_screen state screen).trans_ne hne) with ⟨card, button, hshown, -⟩ | ⟨tab, hmem, -⟩
    · obtain ⟨hepilepsy, hage⟩ := not_notice_iff.mp hnotice
      unfold shown_notice at hshown
      split at hshown
      · exact hepilepsy ‹_›
      · exact hage ‹_›
      · cases hshown
    · unfold shown_tabs drawn_tabs at hmem
      unfold TabsFit at hfit
      rw [if_pos (chrome_painted hnotice hpage)] at hmem
      dsimp only at hmem
      rw [if_neg hfit] at hmem
      exact absurd hmem List.not_mem_nil
  · rintro ⟨hpage, hcases⟩
    by_cases hnotice : state.is_notice = true
    · obtain ⟨card, button, left, hshown, hclick⟩ := handle_click_at_notice hnotice info mx my
      refine ⟨by rw [hclick]; rfl, fun r hr hne => .inl ⟨card, button, hshown, ?_⟩, by simp [hpage]⟩
      by_contra hout
      rw [hclick, if_neg hout] at hr
      obtain rfl := Option.some.inj hr
      exact hne rfl
    · rw [Bool.not_eq_true] at hnotice
      refine ⟨by rw [handle_click_at_tabs true hnotice hpage]; rfl, fun r hr hne => .inr ?_, by simp [hpage]⟩
      rw [handle_click_at_tabs false hnotice hpage] at hr
      obtain rfl := Option.some.inj hr
      cases hat : state.tab_at (state.layout info) ((state.layout info).tab_h - 8) mx my with
      | none =>
        -- below the tabs the screen stays
        rw [hat] at hne
        exact absurd (click_screen_screen state (state.layout info) mx my) hne
      | some screen =>
        rw [hat, Option.map_some, Option.getD_some] at hne
        rw [Option.map_some, Option.getD_some, open_tab_screen]
        unfold shown_tabs
        rw [if_pos (chrome_painted hnotice hpage)]
        refine tab_at_drawn ?_ hat
        rcases hcases with hcase | hfit | hmiss
        · rw [hnotice] at hcase
          cases hcase
        · exact hfit
        · rw [open_tab_screen] at hne
          exact absurd (hmiss screen hat) hne

/-- The page behind the notices, over the whole of the screen. -/
def FIRST_PAGE : ClickState where
  screen := .Browser
  bios_fullpage_browser := true
  content_dirty := false
  chrome_only_dirty := false
  browser_body_dirty := false
  status_dirty := false
  cursors := ⟨fun _ => 0, fun _ => 0, fun _ => false, 0⟩
  toChrome := .boot .new
  screen_after_epilepsy_notice := .Browser
  settings_text_focus := .None
  static_octet_sel := 0
  disk_install_available := false
  disk_install_phase := .Idle
  disk_install_scroll_px := 0
  disk_install_start_request := false
  log_subtab := .Live
  log_scroll_line := 0
  log_stick_to_bottom := true
  settings_subtab := .General
  settings_scroll_px := 0
  settings_save_requested := false
  settings_persist_supported := true
  wifi_scan_count := 0
  wifi_scan_demo := false
  wifi_scan_names := .replicate _ (.replicate _ 0)
  wifi_scan_lens := .replicate _ 0
  power_reboot_request := false
  power_shutdown_request := false

/-- A click into the text of the page opens the settings, or panics. -/
theorem page_is_a_tab :
    ¬ FIRST_PAGE.ClickSound ⟨1024, 768, 1024, .Bgr, 4⟩ 130 400 ∧
      handle_click_at true FIRST_PAGE ⟨1024, 768, 1024, .Bgr, 4⟩ 130 400 = none ∧
      (handle_click_at false FIRST_PAGE ⟨1024, 768, 1024, .Bgr, 4⟩ 130 400).map (fun r => r.1.screen) = some .Settings := by
  have hnone : handle_click_at true FIRST_PAGE ⟨1024, 768, 1024, .Bgr, 4⟩ 130 400 = none := page_underflows rfl
  refine ⟨fun h => ?_, hnone, rfl⟩
  have hsome := h.no_underflow
  rw [hnone] at hsome
  cases hsome

end ClickState

end EveOS.Gfx
