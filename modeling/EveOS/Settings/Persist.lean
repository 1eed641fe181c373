/-
`kernel/src/settings_persist.rs`: the blob the device settings are kept in.

`encode` writes a block of 512 bytes (`EVS2`), `decode_merge` reads one, or the
older display-only format (`EVS1`). The block is a list of writes (`Layout`),
in the order of the source, and the checksum over its first 508 bytes.
-/
import EveOS.Lib.Layout
import EveOS.Lib.LittleEndian
import EveOS.Net.State

set_option autoImplicit false

namespace EveOS.Settings

open Net (Ipv4 IpConfig)

/-! ## `settings.rs` -/

/-- Longest saved home URL. -/
def PERSIST_HOME_URL_CAP : Nat := 120
/-- Number of bookmark slots. -/
def PERSIST_BOOKMARK_SLOTS : Nat := 8
/-- Longest saved bookmark. -/
def PERSIST_BOOKMARK_URL_CAP : Nat := 30

def DEFAULT_HOME_URL : Bytes := ascii "https://alexanderdfox.github.io/TempleOSWebShrine/"

inductive DisplayTheme
  | Light
  | Dark
  deriving DecidableEq, Repr

inductive NicChoice
  | Virtio
  | Rtl8139
  | E1000
  | Pcnet
  | Off
  deriving DecidableEq, Repr

inductive WifiSecurity
  | Open
  | Wpa2Psk
  | Wpa3Sae
  deriving DecidableEq, Repr

/-- `DeviceSettings`: the address settings, which the network stack reads too,
and all the rest. -/
structure DeviceSettings extends Net.DeviceSettings where
  display_theme : DisplayTheme
  display_pref_width : UInt16
  display_pref_height : UInt16
  display_use_custom_resolution : Bool
  wifi_enabled : Bool
  nic : NicChoice
  internet_stack_enabled : Bool
  usb_polling_enabled : Bool
  cursor_emoji_preset : UInt8
  bluetooth_enabled : Bool
  midi_enabled : Bool
  midi_usb_enabled : Bool
  midi_channel : UInt8
  browser_script_runtime_enabled : Bool
  home_url : Vector UInt8 PERSIST_HOME_URL_CAP
  home_url_len : UInt8
  bookmark_url : Vector (Vector UInt8 PERSIST_BOOKMARK_URL_CAP) PERSIST_BOOKMARK_SLOTS
  bookmark_len : Vector UInt8 PERSIST_BOOKMARK_SLOTS
  wifi_ssid : Vector UInt8 32
  wifi_ssid_len : Nat
  wifi_psk : Vector UInt8 64
  wifi_psk_len : Nat
  wifi_sec : WifiSecurity
  deriving DecidableEq

/-- `DeviceSettings::new`: the settings of a fresh device. -/
def DeviceSettings.new : DeviceSettings where
  display_theme := .Light
  display_pref_width := 0
  display_pref_height := 0
  display_use_custom_resolution := false
  wifi_enabled := true
  nic := .Virtio
  internet_stack_enabled := true
  ip_config := .Slirp
  static_ip := ⟨192, 168, 1, 100⟩
  static_gw := ⟨192, 168, 1, 1⟩
  static_dns := ⟨8, 8, 8, 8⟩
  usb_polling_enabled := true
  cursor_emoji_preset := 0
  bluetooth_enabled := false
  midi_enabled := true
  midi_usb_enabled := false
  midi_channel := 1
  browser_script_runtime_enabled := false
  home_url := patch (Vector.replicate _ 0) 0
    (DEFAULT_HOME_URL.take (min DEFAULT_HOME_URL.length PERSIST_HOME_URL_CAP))
  home_url_len := UInt8.ofNat (min DEFAULT_HOME_URL.length PERSIST_HOME_URL_CAP)
  bookmark_url := Vector.replicate _ (Vector.replicate _ 0)
  bookmark_len := Vector.replicate _ 0
  wifi_ssid := Vector.replicate _ 0
  wifi_ssid_len := 0
  wifi_psk := Vector.replicate _ 0
  wifi_psk_len := 0
  wifi_sec := .Wpa2Psk

/-! ## `encode` -/

def BLOB_LEN : Nat := 512

def MAGIC_V1 : Bytes := ascii "EVS1"
def MAGIC_V2 : Bytes := ascii "EVS2"
def VERSION_V1 : UInt8 := 1
def VERSION_V2 : UInt8 := 2

/-- One byte of `checksum`. -/
def checksum_step (c : UInt32) (b : UInt8) : UInt32 := c * 31 + b.toUInt32

def checksum (payload : Bytes) : UInt32 := payload.foldl checksum_step 0x5F370E41

/-- The theme byte, as the `match` of `encode` has it. -/
def DisplayTheme.code : DisplayTheme → UInt8
  | .Light => 0
  | .Dark => 1

/-- `nic as u8`. -/
def NicChoice.code : NicChoice → UInt8
  | .Virtio => 0
  | .Rtl8139 => 1
  | .E1000 => 2
  | .Pcnet => 3
  | .Off => 4

/-- `ip_config as u8`. -/
def ip_config_code : IpConfig → UInt8
  | .Slirp => 0
  | .Dhcp => 1
  | .Static => 2

/-- `wifi_sec as u8`. -/
def WifiSecurity.code : WifiSecurity → UInt8
  | .Open => 0
  | .Wpa2Psk => 1
  | .Wpa3Sae => 2

/-- `u16::to_le_bytes`. -/
def u16_le_bytes (w : UInt16) : Bytes := leBytes 2 w.toNat

/-- The flag byte. -/
def flags (s : DeviceSettings) : UInt8 :=
  let f : UInt8 := 0
  let f := if s.internet_stack_enabled then f ||| 1 else f
  let f := if s.wifi_enabled then f ||| 2 else f
  let f := if s.usb_polling_enabled then f ||| 4 else f
  let f := if s.bluetooth_enabled then f ||| 8 else f
  let f := if s.midi_enabled then f ||| 16 else f
  let f := if s.midi_usb_enabled then f ||| 32 else f
  if s.browser_script_runtime_enabled then f ||| 64 else f

/-- The lengths of the bookmarks, slot by slot. -/
def bookmark_len_writes (s : DeviceSettings) : List (Nat × Bytes) :=
  (List.finRange PERSIST_BOOKMARK_SLOTS).map fun i =>
    (249 + i.val, [min (s.bookmark_len.get i) (UInt8.ofNat PERSIST_BOOKMARK_URL_CAP)])

/-- The bookmarks, slot by slot. -/
def bookmark_url_writes (s : DeviceSettings) : List (Nat × Bytes) :=
  (List.finRange PERSIST_BOOKMARK_SLOTS).map fun i =>
    (257 + i.val * PERSIST_BOOKMARK_URL_CAP, (s.bookmark_url.get i).toList)

/-- The writes of `encode` before the checksum. -/
def payload_writes (s : DeviceSettings) : List (Nat × Bytes) :=
  [(0, MAGIC_V2), (4, [VERSION_V2]),
    (5, [s.display_theme.code]),
    (6, u16_le_bytes s.display_pref_width),
    (8, u16_le_bytes s.display_pref_height),
    (10, [if s.display_use_custom_resolution then 1 else 0]),
    (11, [s.nic.code]),
    (12, [ip_config_code s.ip_config]),
    (13, s.static_ip.bytes),
    (17, s.static_gw.bytes),
    (21, s.static_dns.bytes),
    (25, [flags s]),
    (26, [max (min s.midi_channel 16) 1]),
    (27, [s.cursor_emoji_preset]),
    (28, [UInt8.ofNat (min s.wifi_ssid_len 32)]),
    (29, [UInt8.ofNat (min s.wifi_psk_len 64)]),
    (30, [s.wifi_sec.code]),
    (31, [0]),
    (32, s.wifi_ssid.toList),
    (64, s.wifi_psk.toList),
    (128, [UInt8.ofNat (min s.home_url_len.toNat PERSIST_HOME_URL_CAP)]),
    (129, s.home_url.toList)]
  ++ bookmark_len_writes s ++ bookmark_url_writes s

/-- The block before the checksum is put in. -/
def payload_block (s : DeviceSettings) : Vector UInt8 BLOB_LEN :=
  writeAll (Vector.replicate BLOB_LEN 0) (payload_writes s)

def encode (s : DeviceSettings) : Vector UInt8 BLOB_LEN :=
  let out := payload_block s
  let c := checksum (out.toList.take 508)
  patch out 508 (leBytes 4 c.toNat)

/-! ## `decode_merge` -/

def theme_of (b : UInt8) : DisplayTheme := if b = 1 then .Dark else .Light

def nic_of (b : UInt8) : NicChoice :=
  if b = 0 then .Virtio
  else if b = 1 then .Rtl8139
  else if b = 2 then .E1000
  else if b = 3 then .Pcnet
  else .Off

def ip_config_of (b : UInt8) : IpConfig :=
  if b = 0 then .Slirp else if b = 1 then .Dhcp else .Static

def wifi_sec_of (b : UInt8) : WifiSecurity :=
  if b = 1 then .Wpa2Psk else if b = 2 then .Wpa3Sae else .Open

/-- `u16::from_le_bytes` of the bytes at `i`. -/
def u16_le_at (data : Bytes) (i : Nat) : UInt16 :=
  UInt16.ofNat (leNat [byteAt data i, byteAt data (i + 1)])

/-- `u32::from_le_bytes` of the bytes at `i`. -/
def u32_le_at (data : Bytes) (i : Nat) : UInt32 :=
  UInt32.ofNat (leNat [byteAt data i, byteAt data (i + 1), byteAt data (i + 2), byteAt data (i + 3)])

/-- `x.clamp(lo, hi)`. -/
def clamp (x lo hi : UInt8) : UInt8 := if x < lo then lo else if x > hi then hi else x

/-- `decode_v1_display_only`: whether the blob was taken, and the settings
afterwards. -/
def decode_v1_display_only (s : DeviceSettings) (data : Bytes) : Bool × DeviceSettings :=
  if data.length < 28 then (false, s)
  else if data.take 4 ≠ MAGIC_V1 then (false, s)
  else if byteAt data 4 ≠ VERSION_V1 then (false, s)
  else if checksum (data.take 24) ≠ u32_le_at data 24 then (false, s)
  else
    (true, { s with
      display_theme := theme_of (byteAt data 5)
      display_pref_width := u16_le_at data 6
      display_pref_height := u16_le_at data 8
      display_use_custom_resolution := byteAt data 10 &&& 1 != 0 })

/-- The home URL of a blob that has none: the default over what the blob holds. -/
def default_home_url (url : Vector UInt8 PERSIST_HOME_URL_CAP) : Vector UInt8 PERSIST_HOME_URL_CAP :=
  patch url 0 (DEFAULT_HOME_URL.take (min DEFAULT_HOME_URL.length PERSIST_HOME_URL_CAP))

/-- The assignments of `decode_v2`, behind its checks. -/
def merge_v2 (s : DeviceSettings) (data : Bytes) : DeviceSettings :=
  let f := byteAt data 25
  let hl := min (byteAt data 128).toNat PERSIST_HOME_URL_CAP
  let home_url := readArray PERSIST_HOME_URL_CAP data 129
  { s with
    display_theme := theme_of (byteAt data 5)
    display_pref_width := u16_le_at data 6
    display_pref_height := u16_le_at data 8
    display_use_custom_resolution := byteAt data 10 &&& 1 != 0
    nic := nic_of (byteAt data 11)
    ip_config := ip_config_of (byteAt data 12)
    static_ip := Ipv4.ofSlice data 13
    static_gw := Ipv4.ofSlice data 17
    static_dns := Ipv4.ofSlice data 21
    internet_stack_enabled := f &&& 1 != 0
    wifi_enabled := f &&& 2 != 0
    usb_polling_enabled := f &&& 4 != 0
    bluetooth_enabled := f &&& 8 != 0
    midi_enabled := f &&& 16 != 0
    midi_usb_enabled := f &&& 32 != 0
    browser_script_runtime_enabled := f &&& 64 != 0
    midi_channel := clamp (byteAt data 26) 1 16
    cursor_emoji_preset := byteAt data 27
    wifi_ssid_len := min (byteAt data 28).toNat 32
    wifi_psk_len := min (byteAt data 29).toNat 64
    wifi_sec := wifi_sec_of (byteAt data 30)
    wifi_ssid := readArray 32 data 32
    wifi_psk := readArray 64 data 64
    home_url := if hl = 0 then default_home_url home_url else home_url
    home_url_len :=
      if hl = 0 then UInt8.ofNat (min DEFAULT_HOME_URL.length PERSIST_HOME_URL_CAP)
      else UInt8.ofNat hl
    bookmark_len := Vector.ofFn fun i : Fin PERSIST_BOOKMARK_SLOTS =>
      min (byteAt data (249 + i)) (UInt8.ofNat PERSIST_BOOKMARK_URL_CAP)
    bookmark_url := Vector.ofFn fun i : Fin PERSIST_BOOKMARK_SLOTS =>
      readArray PERSIST_BOOKMARK_URL_CAP data (257 + i * PERSIST_BOOKMARK_URL_CAP) }

def decode_v2 (s : DeviceSettings) (data : Bytes) : Bool × DeviceSettings :=
  if data.length < BLOB_LEN then (false, s)
  else if data.take 4 ≠ MAGIC_V2 then (false, s)
  else if byteAt data 4 ≠ VERSION_V2 then (false, s)
  else if checksum (data.take 508) ≠ u32_le_at data 508 then (false, s)
  else (true, merge_v2 s data)

/-- `decode_merge`: a full merge for `EVS2`, the display settings for `EVS1`. -/
def decode_merge (s : DeviceSettings) (data : Bytes) : Bool × DeviceSettings :=
  if data.length ≥ 4 ∧ data.take 4 = MAGIC_V2 then decode_v2 s data
  else decode_v1_display_only s data

end EveOS.Settings
