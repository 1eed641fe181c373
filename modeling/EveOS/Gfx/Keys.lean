/-
Keys: `settings_text_key`, the keys of the URL bar and the function keys of
`kernel/src/main.rs`, with `hid_usage_to_ascii` of `kernel/src/usb_hid/mod.rs`.

A key goes to the screen that is shown, and on the SYS screen to the field that was
tapped last. The two keyboards differ in their codes, and in that the one without a wheel
scrolls with the arrows.
-/
import EveOS.Gfx.LogView
import EveOS.Input.Ps2
import EveOS.Settings.Boot

set_option autoImplicit false

namespace EveOS

/-- The arms of `hid_usage_to_ascii` with a character for each state of shift. -/
def Hid.HID_SHIFTED : List (UInt8 × String × String) :=
  [(0x27, ")", "0"), (0x2D, "_", "-"), (0x2E, "+", "="), (0x2F, "\x7b", "["), (0x30, "\x7d", "]"),
    (0x33, ":", ";"), (0x34, "\x22", "\x27"), (0x35, "~", "\x60"), (0x36, "<", ","), (0x37, ">", "."),
    (0x38, "?", "/"), (0x31, "|", "\\")]

def Hid.hid_usage_to_ascii (usage : UInt8) (shift : Bool) : Option UInt8 :=
  if 0x04 ≤ usage ∧ usage ≤ 0x1D then some (if shift then 65 + (usage - 0x04) else 97 + (usage - 0x04))
  else if usage = 0x28 then some 10
  else if usage = 0x2A then some 8
  else if usage = 0x2C then some 32
  else if 0x1E ≤ usage ∧ usage ≤ 0x26 then
    some (if shift then byteAt (ascii "!@#$%^&*(") (usage - 0x1E).toNat else 49 + (usage - 0x1E))
  else (HID_SHIFTED.find? (·.1 == usage)).map fun arm => byteAt (ascii (if shift then arm.2.1 else arm.2.2)) 0

namespace Gfx

open Browser (Chrome URL_CAP)
open Settings (DeviceSettings PERSIST_HOME_URL_CAP)

/-! ## The fields of the SYS screen -/

def printable (c : UInt8) : Bool := 32 ≤ c && c < 127

def is_digit (c : UInt8) : Bool := 48 ≤ c && c ≤ 57

/-- A text in an array of `N` bytes, of which the first `len` are in use: a character is
appended or the last one goes. `none` is any other key. -/
def edit_text {N : Nat} (text : Vector UInt8 N) (len : Nat) (ch : UInt8) : Option (Vector UInt8 N × Nat) :=
  if ch = 8 then some (text, len - 1)
  else if printable ch then some (if len < N then (patch text len [ch], len + 1) else (text, len))
  else none

/-- A number below `cap`: a digit is appended or the last one goes. -/
def edit_number (v max cap : Nat) (ch : UInt8) : Option Nat :=
  if ch = 8 then some (v / 10)
  else if is_digit ch then some (min (min (min (v * 10) max + (ch - 48).toNat) max) cap)
  else none

/-- `octets[sel]` after a key. -/
def edit_octet (octets : Net.Ipv4) (sel : Nat) (ch : UInt8) : Option Net.Ipv4 :=
  let edit (b : UInt8) : Option UInt8 := (edit_number b.toNat 255 255 ch).map UInt8.ofNat
  match min sel 3 with
  | 0 => (edit octets.b0).map fun b => { octets with b0 := b }
  | 1 => (edit octets.b1).map fun b => { octets with b1 := b }
  | 2 => (edit octets.b2).map fun b => { octets with b2 := b }
  | _ => (edit octets.b3).map fun b => { octets with b3 := b }

/-- The settings after a key in the field `focus`. -/
def text_key (s : DeviceSettings) (focus : SettingsTextFocus) (sel : Nat) (ch : UInt8) : Option DeviceSettings :=
  match focus with
  | .None => none
  | .WifiSsid =>
    (edit_text s.wifi_ssid s.wifi_ssid_len ch).map fun r => { s with wifi_ssid := r.1, wifi_ssid_len := r.2 }
  | .WifiPsk => (edit_text s.wifi_psk s.wifi_psk_len ch).map fun r => { s with wifi_psk := r.1, wifi_psk_len := r.2 }
  | .DisplayWidth =>
    (edit_number s.display_pref_width.toNat 65535 7680 ch).map fun v => { s with display_pref_width := UInt16.ofNat v }
  | .DisplayHeight =>
    (edit_number s.display_pref_height.toNat 65535 4320 ch).map fun v => { s with display_pref_height := UInt16.ofNat v }
  | .HomeUrl =>
    (edit_text s.home_url s.home_url_len.toNat ch).map fun r =>
      { s with home_url := r.1, home_url_len := UInt8.ofNat r.2 }
  | .StaticIp => (edit_octet s.static_ip sel ch).map fun a => { s with static_ip := a }
  | .StaticGw => (edit_octet s.static_gw sel ch).map fun a => { s with static_gw := a }
  | .StaticDns => (edit_octet s.static_dns sel ch).map fun a => { s with static_dns := a }

namespace ClickState

variable (state : ClickState)

/-- `settings_text_key`, with the flag that its callers set where it has taken the key. -/
def settings_text_key (ch : UInt8) : ClickState :=
  match text_key state.settings state.settings_text_focus state.static_octet_sel ch with
  | some s => { state.with_settings s with content_dirty := true }
  | none => state

/-- A key that is neither Enter nor a function key, on the URL bar. -/
def url_key (ch : UInt8) : ClickState :=
  if ch = 8 then
    if state.url ≠ [] then { state with url := state.url.dropLast, chrome_only_dirty := true } else state
  else if state.url.length < URL_CAP - 1 ∧ printable ch then
    { state with url := state.url ++ [ch], chrome_only_dirty := true }
  else state

/-- The notice that is shown goes. -/
def dismiss_notice : ClickState :=
  if state.screen = .EpilepsyWarning then state.dismiss_epilepsy_notice else state.dismiss_california_age_notice

/-- Enter and space take a notice away. -/
def notice_key (ch : Option UInt8) : ClickState :=
  if ch = some 10 ∨ ch = some 32 then { state.dismiss_notice with content_dirty := true } else state

/-- The function keys F1 to F5, with `n` as their number. -/
def function_key (disk_pair_ready : Bool) (n : Nat) : ClickState :=
  match n with
  | 1 => { state with screen := .Settings, content_dirty := true }
  | 2 => { state with screen := .Browser, settings_text_focus := .None, content_dirty := true }
  | 3 =>
    if state.screen = .Settings then
      { state.with_settings (Settings.Boot.toggle_midi_channel state.settings) with content_dirty := true }
    else state
  | 4 => if disk_pair_ready then { state with screen := .DiskInstall, content_dirty := true } else state
  | 5 => { state with screen := .Log, content_dirty := true }
  | _ => state

/-- F6 on the browser. -/
def toggle_fullpage : ClickState :=
  { state with bios_fullpage_browser := !state.bios_fullpage_browser, content_dirty := true }

/-- F6 on the LOG tab, of the first keyboard only. -/
def toggle_log_subtab : ClickState :=
  { state with
    log_subtab := if state.log_subtab = .Live then .Serial else .Live
    log_scroll_line := 0
    log_stick_to_bottom := true
    content_dirty := true }

end ClickState

end Gfx

end EveOS
