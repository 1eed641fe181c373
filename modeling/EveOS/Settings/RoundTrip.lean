/-
The settings blob and back.

`encode` writes each field once, at offsets that do not touch, so every field
can be read back from the block (`byteAt_encode`). What is read back is the
field as `encode` bounds it, and `decode_v2` bounds the same fields again:
settings within the bounds survive, and settings that come out of a blob are
within them.
-/
import EveOS.Settings.Persist

set_option autoImplicit false

namespace EveOS.Settings

open Net (Ipv4 IpConfig)

/-! ## The block -/

/-- No two fields of the block touch. -/
theorem payload_writes_apart (s : DeviceSettings) :
    ((payload_writes s).map extent).Pairwise Apart := by
  have hextents : (payload_writes s).map extent =
      [(0, 4), (4, 1), (5, 1), (6, 2), (8, 2), (10, 1), (11, 1), (12, 1), (13, 4), (17, 4), (21, 4),
        (25, 1), (26, 1), (27, 1), (28, 1), (29, 1), (30, 1), (31, 1), (32, 32), (64, 64), (128, 1),
        (129, 120), (249, 1), (250, 1), (251, 1), (252, 1), (253, 1), (254, 1), (255, 1), (256, 1),
        (257, 30), (287, 30), (317, 30), (347, 30), (377, 30), (407, 30), (437, 30), (467, 30)] := by
    have hmagic : MAGIC_V2.length = 4 := rfl
    have hhome : s.home_url.toList.length = 120 := Vector.length_toList
    have hslots : List.finRange 8 = [0, 1, 2, 3, 4, 5, 6, 7] := by decide
    simp [payload_writes, bookmark_len_writes, bookmark_url_writes, extent, u16_le_bytes,
      Ipv4.bytes, PERSIST_BOOKMARK_SLOTS, PERSIST_BOOKMARK_URL_CAP, hmagic, hhome, hslots]
  rw [hextents]
  decide

/-- The bytes of the block in front of the checksum are those of the writes. -/
theorem byteAt_encode {s : DeviceSettings} {o : Nat} {bs : Bytes} (hw : (o, bs) ∈ payload_writes s)
    (k : Nat) (hk : k < bs.length) (hin : o + k < 508) :
    byteAt (encode s).toList (o + k) = byteAt bs k := by
  have hlen : o + k < BLOB_LEN := Nat.lt_trans hin (by decide)
  have hread : (payload_block s)[o + k] = byteAt bs k := by
    have h := getElem_writeAll (Vector.replicate BLOB_LEN 0) (payload_writes_apart s) hw (o + k) hlen
      (Nat.le_add_right o k) (Nat.add_lt_add_left hk o)
    rwa [Nat.add_sub_cancel_left] at h
  rw [byteAt_toList _ _ hlen, ← hread]
  simp only [encode, getElem_patch]
  rw [if_neg (by omega)]

/-- A field of one byte. -/
theorem byteAt_encode_one {s : DeviceSettings} {o : Nat} {b : UInt8}
    (hw : (o, [b]) ∈ payload_writes s) (hin : o < 508) : byteAt (encode s).toList o = b :=
  byteAt_encode hw 0 (by simp) hin

/-- A field that is an array. -/
theorem readArray_encode {s : DeviceSettings} {o k : Nat} {a : Vector UInt8 k}
    (hw : (o, a.toList) ∈ payload_writes s) (hin : o + k ≤ 508) :
    readArray k (encode s).toList o = a := by
  apply Vector.ext
  intro i hi
  simp only [readArray, Vector.getElem_ofFn]
  rw [byteAt_encode hw i (by simpa using hi) (by omega), byteAt_toList a i hi]

/-- An address. -/
theorem ofSlice_encode {s : DeviceSettings} {o : Nat} {a : Ipv4}
    (hw : (o, a.bytes) ∈ payload_writes s) (hin : o + 4 ≤ 508) :
    Ipv4.ofSlice (encode s).toList o = a := by
  have hbyte (k : Nat) (hk : k < 4) : byteAt (encode s).toList (o + k) = byteAt a.bytes k :=
    byteAt_encode hw k hk (by omega)
  have h0 : byteAt (encode s).toList o = byteAt a.bytes 0 := hbyte 0 (by omega)
  unfold Ipv4.ofSlice
  rw [h0, hbyte 1 (by omega), hbyte 2 (by omega), hbyte 3 (by omega)]
  rfl

/-- A 16-bit word. -/
theorem u16_le_at_encode {s : DeviceSettings} {o : Nat} {w : UInt16}
    (hw : (o, u16_le_bytes w) ∈ payload_writes s) (hin : o + 2 ≤ 508) :
    u16_le_at (encode s).toList o = w := by
  have hbyte (k : Nat) (hk : k < 2) : byteAt (encode s).toList (o + k) = byteAt (u16_le_bytes w) k :=
    byteAt_encode hw k hk (by omega)
  have h0 : byteAt (encode s).toList o = byteAt (u16_le_bytes w) 0 := hbyte 0 (by omega)
  have hword : leNat (u16_le_bytes w) = w.toNat := by
    rw [u16_le_bytes, leNat_leBytes_u16]
  unfold u16_le_at
  rw [h0, hbyte 1 (by omega)]
  exact (congrArg UInt16.ofNat hword).trans UInt16.ofNat_toNat

/-! ## The checks -/

theorem length_block (out : Vector UInt8 BLOB_LEN) : out.toList.length = 512 := Vector.length_toList

/-- The part of the block the checksum is over. -/
def payload (s : DeviceSettings) : Bytes := (payload_block s).toList.take 508

@[simp] theorem length_payload (s : DeviceSettings) : (payload s).length = 508 := by
  rw [payload, List.length_take, length_block]
  omega

/-- The block is its payload and the checksum of it. -/
theorem toList_encode (s : DeviceSettings) :
    (encode s).toList = payload s ++ leBytes 4 (checksum (payload s)).toNat := by
  have h := toList_patch (payload_block s) 508 (leBytes 4 (checksum (payload s)).toNat)
    (by rw [length_leBytes]; decide)
  rw [length_leBytes, List.drop_eq_nil_of_le (Nat.le_of_eq (length_block _)), List.append_nil] at h
  exact h

/-- The word behind a prefix. -/
theorem u32_le_at_append (pre bs : Bytes) (h : bs.length = 4) :
    u32_le_at (pre ++ bs) pre.length = UInt32.ofNat (leNat bs) := by
  obtain ⟨b0, b1, b2, b3, rfl⟩ : ∃ b0 b1 b2 b3, bs = [b0, b1, b2, b3] := by
    match bs, h with
    | [b0, b1, b2, b3], _ => exact ⟨b0, b1, b2, b3, rfl⟩
  have h0 : byteAt (pre ++ [b0, b1, b2, b3]) pre.length = byteAt [b0, b1, b2, b3] 0 :=
    byteAt_append_add pre _ 0
  unfold u32_le_at
  rw [h0, byteAt_append_add, byteAt_append_add, byteAt_append_add]
  rfl

/-- A word written behind a prefix is read back. -/
theorem u32_le_at_leBytes (pre : Bytes) (c : UInt32) :
    u32_le_at (pre ++ leBytes 4 c.toNat) pre.length = c := by
  rw [u32_le_at_append _ _ (length_leBytes 4 _), leNat_leBytes_u32,
    UInt32.ofNat_toNat]

/-- The first four bytes, one by one. -/
theorem take_four {data : Bytes} (h : 4 ≤ data.length) :
    data.take 4 = [byteAt data 0, byteAt data 1, byteAt data 2, byteAt data 3] := by
  match data, h with
  | b0 :: b1 :: b2 :: b3 :: rest, _ => rfl

theorem take_four_encode (s : DeviceSettings) : (encode s).toList.take 4 = MAGIC_V2 := by
  have hmem : (0, MAGIC_V2) ∈ payload_writes s := by simp [payload_writes]
  have hbyte (k : Nat) (hk : k < 4) : byteAt (encode s).toList k = byteAt MAGIC_V2 k := by
    have h := byteAt_encode hmem k hk (by omega)
    rwa [Nat.zero_add] at h
  rw [take_four (by rw [length_block]; omega), hbyte 0 (by omega), hbyte 1 (by omega), hbyte 2 (by omega),
    hbyte 3 (by omega)]
  rfl

/-- A block with the magic, the version and the checksum of `EVS2` is taken. -/
theorem decode_merge_of_checks (s₀ : DeviceSettings) {data : Bytes} (hlen : BLOB_LEN ≤ data.length)
    (hmagic : data.take 4 = MAGIC_V2) (hver : byteAt data 4 = VERSION_V2)
    (hsum : checksum (data.take 508) = u32_le_at data 508) :
    decode_merge s₀ data = (true, merge_v2 s₀ data) := by
  have h4 : data.length ≥ 4 := Nat.le_trans (by decide) hlen
  rw [decode_merge, if_pos ⟨h4, hmagic⟩, decode_v2, if_neg (by omega), if_neg (by simpa using hmagic),
    if_neg (by simpa using hver), if_neg (by simpa using hsum)]

/-- What `encode` writes is taken. -/
theorem decode_merge_encode (s s₀ : DeviceSettings) :
    decode_merge s₀ (encode s).toList = (true, merge_v2 s₀ (encode s).toList) := by
  apply decode_merge_of_checks
  · rw [length_block]
    decide
  · exact take_four_encode s
  · exact byteAt_encode_one (by simp [payload_writes]) (by omega)
  · rw [toList_encode, ← length_payload s, List.take_left, u32_le_at_leBytes]

/-! ## The fields -/

/-- The bounds of the persisted settings. -/
structure Persistable (s : DeviceSettings) : Prop where
  home_url_pos : 1 ≤ s.home_url_len
  home_url_le : s.home_url_len ≤ 120
  wifi_ssid_le : s.wifi_ssid_len ≤ 32
  wifi_psk_le : s.wifi_psk_len ≤ 64
  bookmark_le : ∀ i : Fin PERSIST_BOOKMARK_SLOTS, s.bookmark_len.get i ≤ 30
  midi_pos : 1 ≤ s.midi_channel
  midi_le : s.midi_channel ≤ 16

/-- The seven flags are read back from their byte. -/
theorem flags_bits (s : DeviceSettings) :
    (flags s &&& 1 != 0) = s.internet_stack_enabled
    ∧ (flags s &&& 2 != 0) = s.wifi_enabled
    ∧ (flags s &&& 4 != 0) = s.usb_polling_enabled
    ∧ (flags s &&& 8 != 0) = s.bluetooth_enabled
    ∧ (flags s &&& 16 != 0) = s.midi_enabled
    ∧ (flags s &&& 32 != 0) = s.midi_usb_enabled
    ∧ (flags s &&& 64 != 0) = s.browser_script_runtime_enabled := by
  unfold flags
  cases s.internet_stack_enabled <;> cases s.wifi_enabled <;> cases s.usb_polling_enabled <;>
    cases s.bluetooth_enabled <;> cases s.midi_enabled <;> cases s.midi_usb_enabled <;>
    cases s.browser_script_runtime_enabled <;> decide

theorem theme_of_code (t : DisplayTheme) : theme_of t.code = t := by
  cases t <;> rfl

theorem nic_of_code (c : NicChoice) : nic_of c.code = c := by
  cases c <;> rfl

theorem ip_config_of_code (c : IpConfig) : ip_config_of (ip_config_code c) = c := by
  cases c <;> rfl

theorem wifi_sec_of_code (w : WifiSecurity) : wifi_sec_of w.code = w := by
  cases w <;> rfl

/-- `encode` bounds the channel, `decode_v2` bounds it again. -/
theorem clamp_midi {m : UInt8} (hlo : 1 ≤ m) (hhi : m ≤ 16) : clamp (max (min m 16) 1) 1 16 = m := by
  have hmin : min m 16 = m := by simp [Min.min, hhi]
  have hmax : max m 1 = m := by
    simp only [Max.max]
    grind
  rw [hmin, hmax]
  unfold clamp
  grind

/-- A length below its cap survives the byte it is kept in. -/
theorem min_ofNat_min {k cap : Nat} (hcap : cap < 256) (hk : k ≤ cap) :
    min (UInt8.ofNat (min k cap)).toNat cap = k := by
  rw [UInt8.toNat_ofNat']
  omega

/-- The bookmark lengths are read back. -/
theorem bookmark_len_encode {s : DeviceSettings} (h : Persistable s) :
    (Vector.ofFn fun i : Fin PERSIST_BOOKMARK_SLOTS =>
      min (byteAt (encode s).toList (249 + i)) (UInt8.ofNat PERSIST_BOOKMARK_URL_CAP))
      = s.bookmark_len := by
  apply Vector.ext
  intro i hi
  have hslot : i < 8 := hi
  have hle : s.bookmark_len[i] ≤ 30 := h.bookmark_le ⟨i, hi⟩
  have hmin : min s.bookmark_len[i] (UInt8.ofNat PERSIST_BOOKMARK_URL_CAP) = s.bookmark_len[i] := by
    simp [Min.min, PERSIST_BOOKMARK_URL_CAP, hle]
  have hmem : (249 + i, [min s.bookmark_len[i] (UInt8.ofNat PERSIST_BOOKMARK_URL_CAP)])
      ∈ payload_writes s := by
    refine List.mem_append_left _ (List.mem_append_right _ ?_)
    exact List.mem_map.mpr ⟨⟨i, hi⟩, List.mem_finRange _, rfl⟩
  rw [Vector.getElem_ofFn, byteAt_encode_one hmem (by omega), hmin]
  exact hmin

/-- The bookmarks are read back. -/
theorem bookmark_url_encode (s : DeviceSettings) :
    (Vector.ofFn fun i : Fin PERSIST_BOOKMARK_SLOTS =>
      readArray PERSIST_BOOKMARK_URL_CAP (encode s).toList (257 + i * PERSIST_BOOKMARK_URL_CAP))
      = s.bookmark_url := by
  apply Vector.ext
  intro i hi
  have hslot : i < 8 := hi
  have hmem : (257 + i * PERSIST_BOOKMARK_URL_CAP, s.bookmark_url[i].toList) ∈ payload_writes s := by
    refine List.mem_append_right _ ?_
    exact List.mem_map.mpr ⟨⟨i, hi⟩, List.mem_finRange _, rfl⟩
  rw [Vector.getElem_ofFn]
  refine readArray_encode hmem ?_
  simp only [PERSIST_BOOKMARK_URL_CAP]
  omega

/-- Settings within the bounds are what their block says, whatever they are
merged into. -/
theorem merge_v2_encode {s : DeviceSettings} (h : Persistable s) (s₀ : DeviceSettings) :
    merge_v2 s₀ (encode s).toList = s := by
  have hone (o : Nat) (b : UInt8) (hw : (o, [b]) ∈ payload_writes s) (hin : o < 508) :
      byteAt (encode s).toList o = b := byteAt_encode_one hw hin
  have htheme := hone 5 s.display_theme.code (by simp [payload_writes]) (by omega)
  have hwidth := u16_le_at_encode (s := s) (o := 6) (w := s.display_pref_width)
    (by simp [payload_writes]) (by omega)
  have hheight := u16_le_at_encode (s := s) (o := 8) (w := s.display_pref_height)
    (by simp [payload_writes]) (by omega)
  have hcustom := hone 10 (if s.display_use_custom_resolution then 1 else 0)
    (by simp [payload_writes]) (by omega)
  have hnic := hone 11 s.nic.code (by simp [payload_writes]) (by omega)
  have hip := hone 12 (ip_config_code s.ip_config) (by simp [payload_writes]) (by omega)
  have hour := ofSlice_encode (s := s) (o := 13) (a := s.static_ip) (by simp [payload_writes])
    (by omega)
  have hgw := ofSlice_encode (s := s) (o := 17) (a := s.static_gw) (by simp [payload_writes])
    (by omega)
  have hdns := ofSlice_encode (s := s) (o := 21) (a := s.static_dns) (by simp [payload_writes])
    (by omega)
  have hflags := hone 25 (flags s) (by simp [payload_writes]) (by omega)
  have hmidi := hone 26 (max (min s.midi_channel 16) 1) (by simp [payload_writes]) (by omega)
  have hcursor := hone 27 s.cursor_emoji_preset (by simp [payload_writes]) (by omega)
  have hssidlen := hone 28 (UInt8.ofNat (min s.wifi_ssid_len 32)) (by simp [payload_writes])
    (by omega)
  have hpsklen := hone 29 (UInt8.ofNat (min s.wifi_psk_len 64)) (by simp [payload_writes])
    (by omega)
  have hsec := hone 30 s.wifi_sec.code (by simp [payload_writes]) (by omega)
  have hssid := readArray_encode (s := s) (o := 32) (a := s.wifi_ssid) (by simp [payload_writes])
    (by omega)
  have hpsk := readArray_encode (s := s) (o := 64) (a := s.wifi_psk) (by simp [payload_writes])
    (by omega)
  have hhomelen := hone 128 (UInt8.ofNat (min s.home_url_len.toNat PERSIST_HOME_URL_CAP))
    (by simp [payload_writes]) (by omega)
  have hhome := readArray_encode (s := s) (o := 129) (a := s.home_url) (by simp [payload_writes])
    (by decide)
  -- the home URL is there, so the default is not put in its place
  have hpos : 1 ≤ s.home_url_len.toNat := UInt8.le_iff_toNat_le.mp h.home_url_pos
  have hle : s.home_url_len.toNat ≤ PERSIST_HOME_URL_CAP := UInt8.le_iff_toNat_le.mp h.home_url_le
  have hhl := min_ofNat_min (by decide) hle
  obtain ⟨hf1, hf2, hf4, hf8, hf16, hf32, hf64⟩ := flags_bits s
  have hcustom_bit : ((if s.display_use_custom_resolution then 1 else 0 : UInt8) &&& 1 != 0)
      = s.display_use_custom_resolution := by
    cases s.display_use_custom_resolution <;> rfl
  simp only [merge_v2, htheme, hwidth, hheight, hcustom, hnic, hip, hour, hgw, hdns, hflags, hmidi,
    hcursor, hssidlen, hpsklen, hsec, hssid, hpsk, hhomelen, hhome, hhl, hf1, hf2, hf4, hf8, hf16,
    hf32, hf64, hcustom_bit, theme_of_code, nic_of_code, ip_config_of_code, wifi_sec_of_code,
    clamp_midi h.midi_pos h.midi_le, min_ofNat_min (by decide : 32 < 256) h.wifi_ssid_le,
    min_ofNat_min (by decide : 64 < 256) h.wifi_psk_le, bookmark_len_encode h, bookmark_url_encode,
    if_neg (Nat.one_le_iff_ne_zero.mp hpos), UInt8.ofNat_toNat]

/-- What comes out of an accepted blob is within the bounds. -/
theorem persistable_merge_v2 (s₀ : DeviceSettings) (data : Bytes) :
    Persistable (merge_v2 s₀ data) := by
  -- the home URL is either there or the default
  have hhome : ∃ k, 1 ≤ k ∧ k ≤ 120 ∧ (merge_v2 s₀ data).home_url_len = UInt8.ofNat k := by
    by_cases hl : min (byteAt data 128).toNat PERSIST_HOME_URL_CAP = 0
    · exact ⟨50, by omega, by omega, if_pos hl⟩
    · refine ⟨min (byteAt data 128).toNat PERSIST_HOME_URL_CAP, ?_, ?_, if_neg hl⟩
      · omega
      · exact Nat.min_le_right _ _
  obtain ⟨k, hk1, hk2, hk⟩ := hhome
  have htoNat : (UInt8.ofNat k).toNat = k := by
    rw [UInt8.toNat_ofNat']
    omega
  constructor
  · rw [hk, UInt8.le_iff_toNat_le, htoNat]
    exact hk1
  · rw [hk, UInt8.le_iff_toNat_le, htoNat]
    exact hk2
  · exact Nat.min_le_right _ _
  · exact Nat.min_le_right _ _
  · intro i
    change (Vector.ofFn _)[i.val] ≤ 30
    rw [Vector.getElem_ofFn]
    simp only [Min.min, PERSIST_BOOKMARK_URL_CAP]
    grind
  · change 1 ≤ clamp (byteAt data 26) 1 16
    unfold clamp
    grind
  · change clamp (byteAt data 26) 1 16 ≤ 16
    unfold clamp
    grind

/-- An `EVS2` blob that is accepted is merged as `decode_v2` says. -/
theorem decode_merge_accepted {s₀ s : DeviceSettings} {data : Bytes} (h4 : data.length ≥ 4)
    (hmagic : data.take 4 = MAGIC_V2) (h : decode_merge s₀ data = (true, s)) :
    s = merge_v2 s₀ data := by
  rw [decode_merge, if_pos ⟨h4, hmagic⟩] at h
  unfold decode_v2 at h
  split_ifs at h
  · cases h
  · cases h
  · cases h
  · cases h
  · exact (Prod.mk.inj h).2.symm

/-- **The blob round trip.** Settings within the bounds come back from their
block exactly, into whatever settings the block is merged. And settings that
come out of an accepted `EVS2` blob are within the bounds, so that encoding and
decoding them changes nothing. -/
theorem settings_round_trip :
    (∀ s s₀ : DeviceSettings, Persistable s → decode_merge s₀ (encode s).toList = (true, s))
    ∧ ∀ (data : Bytes) (s₀ s : DeviceSettings), BLOB_LEN ≤ data.length →
        data.take 4 = MAGIC_V2 → decode_merge s₀ data = (true, s) →
        Persistable s ∧ ∀ s₁, decode_merge s₁ (encode s).toList = (true, s) := by
  have hround : ∀ s s₀ : DeviceSettings, Persistable s →
      decode_merge s₀ (encode s).toList = (true, s) := by
    intro s s₀ h
    rw [decode_merge_encode, merge_v2_encode h]
  refine ⟨hround, ?_⟩
  intro data s₀ s hlen hmagic hacc
  have hmerge := decode_merge_accepted (Nat.le_trans (by decide) hlen) hmagic hacc
  have hper : Persistable s := by
    rw [hmerge]
    exact persistable_merge_v2 s₀ data
  exact ⟨hper, fun s₁ => hround s s₁ hper⟩

/-- The settings of a fresh device are within the bounds. -/
theorem persistable_new : Persistable DeviceSettings.new := by
  constructor <;> decide

theorem fresh_settings_round_trip :
    Persistable DeviceSettings.new
    ∧ decode_merge .new (encode .new).toList = (true, DeviceSettings.new) :=
  ⟨persistable_new, settings_round_trip.1 .new .new persistable_new⟩

end EveOS.Settings
