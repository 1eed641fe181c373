/-
Settings from boot to boot: the disk probing and the save request of
`kernel/src/main.rs`, over `kernel/src/settings_persist_disk.rs`.

Boot looks for the saved settings on the first disk it finds. With one disk the
driver is kept in `SETTINGS_BLK`, with two in `DISK_SRC`, and a flag says where a
later save finds it. With two disks the flag is set before the second one is
initialised, and the driver is kept only when that succeeds.
-/
import EveOS.Disk.GptPatch
import EveOS.Lib.Run
import EveOS.Settings.RoundTrip

set_option autoImplicit false

namespace EveOS.Settings.Boot

open Disk (VirtioBlk Sector)

/-! ## `settings_persist_disk.rs` -/

/-- `load`; `ok` says whether the device answers. -/
def load (blk : VirtioBlk) (ok : Bool) (settings : DeviceSettings) : Bool × DeviceSettings :=
  if blk.capacity = 0 then (false, settings)
  else
    match if ok then blk.read_sector (blk.capacity - 1) else none with
    | none => (false, settings)
    | some sector => decode_merge settings sector.toList

/-- `save`; a write that fails leaves `left` in the sector. -/
def save (blk : VirtioBlk) (failed : Option Sector) (settings : DeviceSettings) : Bool × VirtioBlk :=
  if blk.capacity = 0 then (false, blk)
  else
    match failed with
    | none => blk.write_sector (blk.capacity - 1) (encode settings)
    | some left => (false, (blk.write_sector (blk.capacity - 1) left).2)

/-! ## Boot -/

/-- What boot meets: the number of disks, the drivers that come up, and whether the
device answers the read of the settings. -/
structure Probe where
  n_blk : Nat
  init : Nat → Bool
  ok : Bool

/-- The disks, the static cells with the number of the disk whose driver they hold,
and the part of `UiState` that matters. -/
structure World where
  disks : Nat → VirtioBlk
  DISK_SRC : Option Nat
  DISK_DST : Option Nat
  SETTINGS_BLK : Option Nat
  SETTINGS_ON_DISK_SRC : Bool
  SETTINGS_BLK_READY : Bool
  settings_persist_supported : Bool
  settings : DeviceSettings
  settings_save_requested : Bool
  /-- A cell was used that nothing was written to. -/
  undefined : Bool
  /-- The disk the settings were looked for on. -/
  loaded : Option Nat
  /-- The settings of the last save, when it succeeded. -/
  saved : Option DeviceSettings

/-- Before the disks are probed. -/
def World.off (disks : Nat → VirtioBlk) : World where
  disks := disks
  DISK_SRC := none
  DISK_DST := none
  SETTINGS_BLK := none
  SETTINGS_ON_DISK_SRC := false
  SETTINGS_BLK_READY := false
  settings_persist_supported := false
  settings := .new
  settings_save_requested := false
  undefined := false
  loaded := none
  saved := none

/-- `settings_persist_disk::load` from the first disk. -/
def World.load (w : World) (ok : Bool) : World :=
  { w with settings := (Boot.load (w.disks 0) ok w.settings).2, loaded := some 0 }

/-- The probing of the disks. -/
def boot (disks : Nat → VirtioBlk) (p : Probe) : World :=
  let w := World.off disks
  if p.n_blk ≥ 2 then
    if p.init 0 then
      let w :=
        if (disks 0).capacity ≥ 1 then
          { w.load p.ok with settings_persist_supported := true, SETTINGS_ON_DISK_SRC := true }
        else w
      if p.init 1 then { w with DISK_SRC := some 0, DISK_DST := some 1 } else w
    else w
  else if p.n_blk ≥ 1 then
    if p.init 0 then
      if (disks 0).capacity ≥ 1 then
        { w.load p.ok with
          SETTINGS_BLK := some 0
          SETTINGS_BLK_READY := true
          settings_persist_supported := true }
      else w
    else w
  else w

/-! ## The main loop -/

/-- The save goes through the driver in a cell (`assume_init_mut`). -/
def World.save_through (w : World) (cell : Option Nat) (failed : Option Sector) : World :=
  match cell with
  | none => { w with undefined := true }
  | some d =>
    let done := Boot.save (w.disks d) failed w.settings
    { w with
      disks := Function.update w.disks d done.2
      saved := if done.1 then some w.settings else none }

/-- One pass of the main loop: the save request, when there is one. -/
def World.frame (w : World) (failed : Option Sector) : World :=
  if w.settings_save_requested then
    let w := { w with settings_save_requested := false }
    if w.SETTINGS_ON_DISK_SRC then w.save_through w.DISK_SRC failed
    else if w.SETTINGS_BLK_READY then w.save_through w.SETTINGS_BLK failed
    else w
  else w

/-- `toggle_midi_channel`. -/
def toggle_midi_channel (s : DeviceSettings) : DeviceSettings :=
  { s with midi_channel := if s.midi_channel ≥ 16 then 1 else s.midi_channel + 1 }

/-- The disk install writes to the second disk, when both drivers came up. -/
def World.install (w : World) (sector : Nat) (data : Sector) : World :=
  match w.DISK_DST with
  | none => w
  | some d => { w with disks := Function.update w.disks d ((w.disks d).write_sector sector data).2 }

inductive Event
  /-- Anything but the MIDI channel is changed in the settings. -/
  | edit (settings : DeviceSettings)
  | toggle_midi_channel
  /-- A click on the row that saves the settings. -/
  | save_click
  | frame (failed : Option Sector)
  | install (sector : Nat) (data : Sector)

def World.step (w : World) : Event → World
  | .edit s => { w with settings := { s with midi_channel := w.settings.midi_channel } }
  | .toggle_midi_channel => { w with settings := Boot.toggle_midi_channel w.settings }
  | .save_click =>
    if w.settings_persist_supported then { w with settings_save_requested := true } else w
  | .frame failed => w.frame failed
  | .install sector data => w.install sector data

/-! ## What is promised -/

/-- A save that was requested goes to the disk the settings were loaded from. -/
def World.SavesWhereLoaded (w : World) : Event → Prop
  | .frame failed =>
    w.settings_save_requested = true →
      ∃ d, w.loaded = some d ∧ (w.step (.frame failed)).undefined = false ∧
        (w.step (.frame failed)).disks d = (Boot.save (w.disks d) failed w.settings).2
  | _ => True

/-- A home URL, and lengths within the arrays. -/
structure InRange (s : DeviceSettings) : Prop where
  home_url_pos : 1 ≤ s.home_url_len
  home_url_le : s.home_url_len ≤ 120
  wifi_ssid_le : s.wifi_ssid_len ≤ 32
  wifi_psk_le : s.wifi_psk_len ≤ 64
  bookmark_le : ∀ i : Fin PERSIST_BOOKMARK_SLOTS, s.bookmark_len.get i ≤ 30

/-- After a save that succeeded, a boot that reads the first disk loads what was
saved. -/
def World.ComesBack (w : World) : Prop :=
  ∀ s, w.saved = some s → InRange s →
    ∀ p : Probe, 1 ≤ p.n_blk → p.init 0 = true → p.ok = true → (boot w.disks p).settings = s

/-- The first of two disks comes up with room for the settings, and the second one
does not come up. -/
def Probe.HalfPair (p : Probe) (disks : Nat → VirtioBlk) : Prop :=
  2 ≤ p.n_blk ∧ p.init 0 = true ∧ 1 ≤ (disks 0).capacity ∧ p.init 1 = false

/-! ## The MIDI channel -/

/-- The channel counts from 1 to 16. -/
def MidiOk (s : DeviceSettings) : Prop := 1 ≤ s.midi_channel ∧ s.midi_channel ≤ 16

theorem toggle_midi_ok {s : DeviceSettings} (h : MidiOk s) : MidiOk (toggle_midi_channel s) := by
  obtain ⟨hlo, hhi⟩ := h
  unfold MidiOk toggle_midi_channel
  dsimp only
  split_ifs with hlast
  · exact ⟨by decide, by decide⟩
  · constructor
    · grind
    · grind

/-- Loading keeps the channel in its range. -/
theorem decode_midi_ok {s : DeviceSettings} (h : MidiOk s) (data : Bytes) :
    MidiOk (decode_merge s data).2 := by
  unfold decode_merge
  split_ifs
  · unfold decode_v2
    split_ifs
    · exact h
    · exact h
    · exact h
    · exact h
    · exact ⟨(persistable_merge_v2 s data).midi_pos, (persistable_merge_v2 s data).midi_le⟩
  · unfold decode_v1_display_only
    split_ifs
    · exact h
    · exact h
    · exact h
    · exact h
    · exact h

theorem load_midi_ok {s : DeviceSettings} (h : MidiOk s) (blk : VirtioBlk) (ok : Bool) :
    MidiOk (load blk ok s).2 := by
  unfold load
  split_ifs
  · exact h
  · split
    · exact h
    · exact decode_midi_ok h _
  · exact h

theorem InRange.persistable {s : DeviceSettings} (h : InRange s) (hmidi : MidiOk s) : Persistable s where
  home_url_pos := h.home_url_pos
  home_url_le := h.home_url_le
  wifi_ssid_le := h.wifi_ssid_le
  wifi_psk_le := h.wifi_psk_le
  bookmark_le := h.bookmark_le
  midi_pos := hmidi.1
  midi_le := hmidi.2

/-! ## The invariant -/

/-- A disk whose last sector holds the settings `s`. -/
def Holds (blk : VirtioBlk) (s : DeviceSettings) : Prop :=
  1 ≤ blk.capacity ∧ blk.sectors (blk.capacity - 1) = encode s ∧ MidiOk s

/-- The driver a save goes through. -/
def World.cell (w : World) : Option Nat := if w.SETTINGS_ON_DISK_SRC then w.DISK_SRC else w.SETTINGS_BLK

structure World.Inv (w : World) : Prop where
  midi : MidiOk w.settings
  defined : w.undefined = false
  dst : w.DISK_DST = none ∨ w.DISK_DST = some 1
  requested : w.settings_save_requested = true → w.settings_persist_supported = true
  cell : w.settings_persist_supported = true → w.loaded = some 0 ∧ w.cell = some 0 ∧
    (w.SETTINGS_ON_DISK_SRC = true ∨ w.SETTINGS_BLK_READY = true)
  saved : ∀ s, w.saved = some s → Holds (w.disks 0) s

section Steps

variable {w : World} {disks : Nat → VirtioBlk} {p : Probe}

theorem holds_save {blk : VirtioBlk} {s : DeviceSettings} (hmidi : MidiOk s) {failed : Option Sector}
    (h : (save blk failed s).1 = true) : Holds (save blk failed s).2 s := by
  unfold save at h ⊢
  by_cases hcap : blk.capacity = 0
  · rw [if_pos hcap] at h
    cases h
  · rw [if_neg hcap] at h ⊢
    cases failed with
    | some left => cases h
    | none =>
      have hlt : ¬ blk.capacity - 1 ≥ blk.capacity := by omega
      unfold VirtioBlk.write_sector
      dsimp only
      rw [if_neg hlt]
      exact ⟨Nat.one_le_iff_ne_zero.mpr hcap, Function.update_self _ _ _, hmidi⟩

/-- What a disk holds is what a boot loads from it. -/
theorem load_holds {blk : VirtioBlk} {s : DeviceSettings} (h : Holds blk s) (hin : InRange s)
    (s₀ : DeviceSettings) : load blk true s₀ = (true, s) := by
  obtain ⟨hcap, hsector, hmidi⟩ := h
  have hlt : ¬ blk.capacity - 1 ≥ blk.capacity := by omega
  unfold load
  rw [if_neg (by omega), if_pos rfl]
  unfold VirtioBlk.read_sector
  rw [if_neg hlt, hsector]
  exact (decode_merge_encode s s₀).trans (by rw [merge_v2_encode (hin.persistable hmidi)])

/-- Every boot that comes to the first disk loads its settings from it. -/
theorem boot_settings (hblk : 1 ≤ p.n_blk) (hinit : p.init 0 = true) (hcap : 1 ≤ (disks 0).capacity) :
    (boot disks p).settings = (load (disks 0) p.ok .new).2 := by
  unfold boot
  dsimp only
  rw [if_pos hinit, if_pos hcap, if_pos hblk]
  split_ifs <;> rfl

theorem World.Inv.comesBack (h : w.Inv) : w.ComesBack := by
  intro s hs hin p hblk hinit hok
  have hholds := h.saved s hs
  rw [boot_settings hblk hinit hholds.1, hok, load_holds hholds hin]

theorem nothing_saved (h : w.saved = none) : ∀ s, w.saved = some s → Holds (w.disks 0) s := by
  intro s hs
  cases h.symm.trans hs

theorem inv_boot (hpair : ¬ p.HalfPair disks) : (boot disks p).Inv := by
  have hnew : MidiOk .new := ⟨by decide, by decide⟩
  have hload : MidiOk ((World.off disks).load p.ok).settings := load_midi_ok hnew (disks 0) p.ok
  unfold boot
  dsimp only
  by_cases htwo : p.n_blk ≥ 2
  · rw [if_pos htwo]
    by_cases hinit : p.init 0 = true
    · rw [if_pos hinit]
      by_cases hcap : (disks 0).capacity ≥ 1
      · rw [if_pos hcap]
        have hinit1 : p.init 1 = true := by
          by_contra hfails
          exact hpair ⟨htwo, hinit, hcap, eq_false_of_ne_true hfails⟩
        rw [if_pos hinit1]
        exact ⟨hload, rfl, .inr rfl, nofun, fun _ => ⟨rfl, rfl, .inl rfl⟩, nothing_saved rfl⟩
      · rw [if_neg hcap]
        split_ifs
        · exact ⟨hnew, rfl, .inr rfl, nofun, nofun, nothing_saved rfl⟩
        · exact ⟨hnew, rfl, .inl rfl, nofun, nofun, nothing_saved rfl⟩
    · rw [if_neg hinit]
      exact ⟨hnew, rfl, .inl rfl, nofun, nofun, nothing_saved rfl⟩
  · rw [if_neg htwo]
    split_ifs
    · exact ⟨hload, rfl, .inl rfl, nofun, fun _ => ⟨rfl, rfl, .inr rfl⟩, nothing_saved rfl⟩
    · exact ⟨hnew, rfl, .inl rfl, nofun, nofun, nothing_saved rfl⟩
    · exact ⟨hnew, rfl, .inl rfl, nofun, nofun, nothing_saved rfl⟩
    · exact ⟨hnew, rfl, .inl rfl, nofun, nofun, nothing_saved rfl⟩

/-- **A save request goes through the driver of the first disk.** -/
theorem frame_requested (h : w.Inv) (hreq : w.settings_save_requested = true) (failed : Option Sector) :
    w.frame failed =
      { w with
        settings_save_requested := false
        disks := Function.update w.disks 0 (save (w.disks 0) failed w.settings).2
        saved := if (save (w.disks 0) failed w.settings).1 then some w.settings else none } := by
  obtain ⟨-, hcell, hflag⟩ := h.cell (h.requested hreq)
  unfold World.cell at hcell
  unfold World.frame
  rw [if_pos hreq]
  dsimp only
  by_cases hsrc : w.SETTINGS_ON_DISK_SRC = true
  · rw [if_pos hsrc] at hcell ⊢
    rw [hcell]
    rfl
  · rw [if_neg hsrc] at hcell ⊢
    rw [if_pos (hflag.resolve_left hsrc), hcell]
    rfl

theorem frame_keeps (h : w.Inv) (failed : Option Sector) : (w.frame failed).Inv := by
  by_cases hreq : w.settings_save_requested = true
  · rw [frame_requested h hreq]
    refine ⟨h.midi, h.defined, h.dst, nofun, h.cell, ?_⟩
    intro s hs
    dsimp only at hs ⊢
    rw [Function.update_self]
    split_ifs at hs with hdone
    obtain rfl := Option.some.inj hs
    exact holds_save h.midi hdone
  · unfold World.frame
    rw [if_neg hreq]
    exact h

theorem install_keeps (h : w.Inv) (sector : Nat) (data : Sector) : (w.install sector data).Inv := by
  unfold World.install
  rcases h.dst with hdst | hdst
  · rw [hdst]
    exact h
  · rw [hdst]
    refine ⟨h.midi, h.defined, .inr rfl, h.requested, h.cell, ?_⟩
    intro s hs
    dsimp only at hs ⊢
    rw [Function.update_of_ne Nat.zero_ne_one]
    exact h.saved s hs

theorem step_keeps (h : w.Inv) (e : Event) : (w.step e).Inv := by
  cases e with
  | edit s => exact ⟨h.midi, h.defined, h.dst, h.requested, h.cell, h.saved⟩
  | toggle_midi_channel =>
    exact ⟨toggle_midi_ok h.midi, h.defined, h.dst, h.requested, h.cell, h.saved⟩
  | save_click =>
    show (if w.settings_persist_supported then { w with settings_save_requested := true } else w).Inv
    by_cases hsupported : w.settings_persist_supported = true
    · rw [if_pos hsupported]
      exact ⟨h.midi, h.defined, h.dst, fun _ => hsupported, h.cell, h.saved⟩
    · rw [if_neg hsupported]
      exact h
  | frame failed => exact frame_keeps h failed
  | install sector data => exact install_keeps h sector data

theorem World.Inv.savesWhereLoaded (h : w.Inv) (e : Event) : w.SavesWhereLoaded e := by
  cases e with
  | frame failed =>
    intro hreq
    have hframe : w.step (.frame failed) = _ := frame_requested h hreq failed
    refine ⟨0, (h.cell (h.requested hreq)).1, ?_, ?_⟩
    · rw [hframe]
      exact h.defined
    · rw [hframe]
      exact Function.update_self 0 _ w.disks
  | _ => trivial

/-! ## Half a pair -/

/-- The first save goes through a cell that was never written. -/
theorem half_pair_undefined (hpair : p.HalfPair disks) :
    ¬ Along World.step World.SavesWhereLoaded (boot disks p) [.save_click, .frame none] := by
  obtain ⟨htwo, hinit, hcap, hinit1⟩ := hpair
  have hboot : boot disks p =
      { (World.off disks).load p.ok with
        settings_persist_supported := true
        SETTINGS_ON_DISK_SRC := true } := by
    unfold boot
    dsimp only
    rw [if_pos htwo, if_pos hinit, if_pos hcap, hinit1]
    rfl
  rintro ⟨-, hframe, -⟩
  rw [hboot] at hframe
  obtain ⟨d, -, hdefined, -⟩ := hframe rfl
  cases hdefined

end Steps

/-- **Saved settings come back, unless boot found half a pair of disks.** For every
disks, every number of them and every outcome of their initialisation: in every
run after boot each save that was requested goes to the disk the settings were
loaded from, through a driver that came up, and what was saved is what the next
boot loads; if and only if it is not so that the first of two disks came up with
room for the settings and the second one did not. -/
theorem saved_settings_come_back_iff (disks : Nat → VirtioBlk) (p : Probe) :
    (∀ es, Along World.step World.SavesWhereLoaded (boot disks p) es ∧
      (run World.step (boot disks p) es).ComesBack) ↔ ¬ p.HalfPair disks := by
  constructor
  · intro hall hpair
    exact half_pair_undefined hpair (hall [.save_click, .frame none]).1
  · intro hpair es
    have hstep : ∀ (w : World) (e : Event), w.Inv → (w.step e).Inv := fun _ e h => step_keeps h e
    have hinv := inv_boot hpair
    exact ⟨along_of_preserved hstep (fun _ e h => h.savesWhereLoaded e) hinv es,
      (run_preserves hstep hinv es).comesBack⟩

/-- Two disks, of which the second one does not come up: the first save uses
`DISK_SRC`, which was never written. -/
theorem half_pair_save_undefined :
    ¬ Along World.step World.SavesWhereLoaded
      (boot (fun _ => ⟨512, 1, fun _ => Vector.replicate 512 0⟩) ⟨2, fun i => i == 0, true⟩)
      [.save_click, .frame none] :=
  half_pair_undefined ⟨Nat.le_refl 2, rfl, Nat.le_refl 1, rfl⟩

end EveOS.Settings.Boot
