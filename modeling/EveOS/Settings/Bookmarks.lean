/-
Bookmarks: the rows of the SYS panel in `handle_click_at` of `kernel/src/gfx.rs`.

The right half of a row stores what the bar says in the row's slot, the left half loads
the slot into the bar. A slot has room for 30 bytes, the bar for 192, and a longer URL
is cut. Otherwise a slot keeps its URL, through whatever is done to the other slots and
through the blob the settings are saved in.
-/
import EveOS.Lib.Run
import EveOS.Settings.RoundTrip

set_option autoImplicit false

namespace EveOS.Settings

/-- `UiState`, as far as the bookmarks are concerned. `url` is the first `url_len` bytes
of the bar. -/
structure Panel where
  url : Bytes
  settings : DeviceSettings

abbrev BookmarkSlot : Type := Fin PERSIST_BOOKMARK_SLOTS

/-- The right half of a row. -/
def Panel.store (p : Panel) (slot : BookmarkSlot) : Panel :=
  let n := min p.url.length PERSIST_BOOKMARK_URL_CAP
  { p with settings := { p.settings with
      bookmark_url :=
        p.settings.bookmark_url.set slot (patch (p.settings.bookmark_url.get slot) 0 (p.url.take n))
      bookmark_len := p.settings.bookmark_len.set slot (UInt8.ofNat n) } }

/-- The left half of a row. The bar has room for whatever is in a slot. -/
def Panel.load (p : Panel) (slot : BookmarkSlot) : Panel :=
  let n := (p.settings.bookmark_len.get slot).toNat
  if 0 < n ∧ n ≤ PERSIST_BOOKMARK_URL_CAP then
    { p with url := (p.settings.bookmark_url.get slot).toList.take (min n 192) }
  else p

/-- A save of the settings, and a start that reads them over `fresh`. -/
def Panel.reload (p : Panel) (fresh : DeviceSettings) : Panel :=
  { p with settings := (decode_merge fresh (encode p.settings).toList).2 }

/-- What is done at the panel. -/
inductive Op
  | bar (url : Bytes)
  | store (slot : BookmarkSlot)
  | load (slot : BookmarkSlot)
  | others (settings : DeviceSettings)
  | reload (fresh : DeviceSettings)

/-- `others` is a change of settings that are no bookmarks. -/
def Panel.step (p : Panel) : Op → Panel
  | .bar url => { p with url := url }
  | .store slot => p.store slot
  | .load slot => p.load slot
  | .others settings =>
    { p with settings := { settings with
        bookmark_url := p.settings.bookmark_url
        bookmark_len := p.settings.bookmark_len } }
  | .reload fresh => p.reload fresh

/-- Nothing is stored in the slot. -/
def Op.Spares (slot : BookmarkSlot) : Op → Prop
  | .store other => other ≠ slot
  | _ => True

/-- The slot has the URL. -/
structure Holds (slot : BookmarkSlot) (url : Bytes) (p : Panel) : Prop where
  len : (p.settings.bookmark_len.get slot).toNat = url.length
  bytes : (p.settings.bookmark_url.get slot).toList.take url.length = url

section Slots

variable {slot : BookmarkSlot} {url : Bytes} {p : Panel}

theorem Holds.length_le (h : Holds slot url p) : url.length ≤ PERSIST_BOOKMARK_URL_CAP := by
  rw [← h.bytes, List.length_take, Vector.length_toList]
  exact Nat.min_le_right _ _

/-- What is stored: as much of the bar as there is room for. -/
theorem store_holds (p : Panel) (slot : BookmarkSlot) :
    Holds slot (p.url.take (min p.url.length PERSIST_BOOKMARK_URL_CAP)) (p.store slot) := by
  have hlen : (p.url.take (min p.url.length PERSIST_BOOKMARK_URL_CAP)).length =
      min p.url.length PERSIST_BOOKMARK_URL_CAP := by
    rw [List.length_take]
    omega
  have hcap : min p.url.length PERSIST_BOOKMARK_URL_CAP ≤ PERSIST_BOOKMARK_URL_CAP := Nat.min_le_right _ _
  have hbyte : PERSIST_BOOKMARK_URL_CAP < 256 := by decide
  constructor
  · unfold Panel.store
    rw [hlen]
    simp only [Vector.get_eq_getElem, Vector.getElem_set_self]
    rw [UInt8.toNat_ofNat']
    omega
  · unfold Panel.store
    simp only [Vector.get_eq_getElem, Vector.getElem_set_self]
    rw [toList_patch _ _ _ (by rw [hlen]; omega), List.take_zero, List.nil_append, List.take_left]

/-- A store leaves the other slots. -/
theorem store_spares {other : BookmarkSlot} (hne : other ≠ slot) (h : Holds slot url p) :
    Holds slot url (p.store other) := by
  have hval : other.val ≠ slot.val := fun hval => hne (Fin.ext hval)
  unfold Panel.store
  constructor
  · simp only [Vector.get_eq_getElem, Vector.getElem_set_ne _ _ hval]
    exact h.len
  · simp only [Vector.get_eq_getElem, Vector.getElem_set_ne _ _ hval]
    exact h.bytes

/-- The length of a bookmark goes through the blob. -/
theorem bookmark_len_reload (s fresh : DeviceSettings) (slot : BookmarkSlot) :
    (merge_v2 fresh (encode s).toList).bookmark_len.get slot =
      min (min (s.bookmark_len.get slot) (UInt8.ofNat PERSIST_BOOKMARK_URL_CAP)) (UInt8.ofNat PERSIST_BOOKMARK_URL_CAP) := by
  have hslot : slot.val < 8 := slot.isLt
  have hmem : (249 + slot.val, [min (s.bookmark_len.get slot) (UInt8.ofNat PERSIST_BOOKMARK_URL_CAP)]) ∈
      payload_writes s := by
    refine List.mem_append_left _ (List.mem_append_right _ ?_)
    exact List.mem_map.mpr ⟨slot, List.mem_finRange _, rfl⟩
  unfold merge_v2
  simp only [Vector.get_eq_getElem, Vector.getElem_ofFn]
  rw [byteAt_encode_one hmem (by omega)]
  rfl

/-- A URL that is in a slot goes through the blob. -/
theorem reload_holds (h : Holds slot url p) (fresh : DeviceSettings) : Holds slot url (p.reload fresh) := by
  have hle := h.length_le
  have hsettings : (p.reload fresh).settings = merge_v2 fresh (encode p.settings).toList := by
    unfold Panel.reload
    rw [decode_merge_encode]
  have hlen : p.settings.bookmark_len.get slot ≤ UInt8.ofNat PERSIST_BOOKMARK_URL_CAP := by
    rw [UInt8.le_iff_toNat_le, h.len]
    exact hle
  have hmin : min (p.settings.bookmark_len.get slot) (UInt8.ofNat PERSIST_BOOKMARK_URL_CAP) =
      p.settings.bookmark_len.get slot := if_pos hlen
  constructor
  · rw [hsettings, bookmark_len_reload, hmin, hmin]
    exact h.len
  · have hurl : (merge_v2 fresh (encode p.settings).toList).bookmark_url = p.settings.bookmark_url :=
      bookmark_url_encode p.settings
    rw [hsettings, hurl]
    exact h.bytes

/-- **A slot keeps its URL** in every step that spares it. -/
theorem step_holds (h : Holds slot url p) {op : Op} (hspares : op.Spares slot) : Holds slot url (p.step op) := by
  cases op with
  | bar url' => exact ⟨h.len, h.bytes⟩
  | store other => exact store_spares hspares h
  | load other =>
    unfold Panel.step Panel.load
    dsimp only
    split_ifs
    · exact ⟨h.len, h.bytes⟩
    · exact h
  | others settings => exact ⟨h.len, h.bytes⟩
  | reload fresh => exact reload_holds h fresh

theorem run_holds (h : Holds slot url p) {ops : List Op} (hspares : ∀ op ∈ ops, op.Spares slot) :
    Holds slot url (run Panel.step p ops) := by
  induction ops generalizing p with
  | nil => exact h
  | cons op ops ih =>
    rw [run_cons]
    exact ih (step_holds h (hspares op List.mem_cons_self)) fun o ho => hspares o (List.mem_cons_of_mem _ ho)

/-- What a slot loads. -/
theorem load_holds (h : Holds slot url p) (hne : url ≠ []) : (p.load slot).url = url := by
  have hpos := List.length_pos_iff.mpr hne
  have hle := h.length_le
  unfold Panel.load
  dsimp only
  rw [h.len, if_pos ⟨hpos, hle⟩, Nat.min_eq_left (Nat.le_trans hle (by decide))]
  exact h.bytes

/-- An empty slot loads nothing. -/
theorem load_empty (h : Holds slot [] p) : (p.load slot).url = p.url := by
  have hlen : (p.settings.bookmark_len.get slot).toNat = 0 := h.len
  unfold Panel.load
  dsimp only
  rw [hlen, if_neg (by omega)]

end Slots

/-! ## What comes back -/

/-- Whatever is done elsewhere, and whichever settings a last save and reload start from,
the slot loads the URL that was stored. -/
def ComesBack (p : Panel) (slot : BookmarkSlot) : Prop :=
  ∀ (ops : List Op) (fresh : DeviceSettings), (∀ op ∈ ops, op.Spares slot) →
    (((run Panel.step (p.store slot) ops).reload fresh).load slot).url = p.url

/-- A store that changes nothing. -/
def Refused (p : Panel) (slot : BookmarkSlot) : Prop :=
  (p.store slot).settings.bookmark_url.get slot = p.settings.bookmark_url.get slot ∧
    (p.store slot).settings.bookmark_len.get slot = p.settings.bookmark_len.get slot

/-- The slot has the front part of the bar already. -/
def HasFront (p : Panel) (slot : BookmarkSlot) : Prop :=
  p.settings.bookmark_len.get slot = UInt8.ofNat PERSIST_BOOKMARK_URL_CAP ∧
    (p.settings.bookmark_url.get slot).toList = p.url.take PERSIST_BOOKMARK_URL_CAP

/-- A URL that is cut fills its slot. -/
theorem store_long {p : Panel} (slot : BookmarkSlot) (hlong : PERSIST_BOOKMARK_URL_CAP < p.url.length) :
    (p.store slot).settings.bookmark_len.get slot = UInt8.ofNat PERSIST_BOOKMARK_URL_CAP ∧
      ((p.store slot).settings.bookmark_url.get slot).toList = p.url.take PERSIST_BOOKMARK_URL_CAP := by
  have hholds := store_holds p slot
  rw [Nat.min_eq_right (Nat.le_of_lt hlong)] at hholds
  have hlen : (p.url.take PERSIST_BOOKMARK_URL_CAP).length = PERSIST_BOOKMARK_URL_CAP := by
    rw [List.length_take]
    omega
  constructor
  · rw [← UInt8.toNat_inj, hholds.len, hlen]
    rfl
  · have hbytes := hholds.bytes
    rwa [hlen, List.take_of_length_le (by rw [Vector.length_toList])] at hbytes

/-- **When a bookmark is as it should be**: a URL that fits comes back, and one that does
not is refused. -/
theorem bookmark_comes_back_iff (p : Panel) (slot : BookmarkSlot) :
    ((p.url.length ≤ PERSIST_BOOKMARK_URL_CAP → ComesBack p slot) ∧
        (PERSIST_BOOKMARK_URL_CAP < p.url.length → Refused p slot)) ↔
      1 ≤ p.url.length ∧ p.url.length ≤ PERSIST_BOOKMARK_URL_CAP ∨
        PERSIST_BOOKMARK_URL_CAP < p.url.length ∧ HasFront p slot := by
  have hholds := store_holds p slot
  by_cases hlong : PERSIST_BOOKMARK_URL_CAP < p.url.length
  · obtain ⟨hlen, hbytes⟩ := store_long slot hlong
    have hfront : Refused p slot ↔ HasFront p slot := by
      unfold Refused HasFront
      rw [hlen, ← hbytes, Vector.toList_inj, and_comm]
      exact and_congr eq_comm eq_comm
    constructor
    · exact fun h => .inr ⟨hlong, hfront.mp (h.2 hlong)⟩
    · rintro (h | h)
      · omega
      · exact ⟨fun hle => by omega, fun _ => hfront.mpr h.2⟩
  · have hle : p.url.length ≤ PERSIST_BOOKMARK_URL_CAP := Nat.le_of_not_lt hlong
    rw [Nat.min_eq_left hle, List.take_length] at hholds
    constructor
    · intro h
      refine .inl ⟨?_, hle⟩
      by_contra hzero
      have hempty : p.url = [] := List.length_eq_zero_iff.mp (by omega)
      rw [hempty] at hholds
      -- the bar says something else by the time the slot is loaded
      have hback := h.1 hle [.bar [0]] p.settings (by simp [Op.Spares])
      have hrun : Holds slot [] (run Panel.step (p.store slot) [.bar [0]]) := run_holds hholds (by simp [Op.Spares])
      rw [load_empty (reload_holds hrun _), hempty] at hback
      cases hback
    · rintro (h | h)
      · have hne : p.url ≠ [] := List.length_pos_iff.mp h.1
        refine ⟨fun _ ops fresh hspares => ?_, fun hlt => absurd hlt hlong⟩
        exact load_holds (reload_holds (run_holds hholds hspares) fresh) hne
      · exact absurd h.1 hlong

/-- A fresh device with 31 bytes in the bar. -/
def LONG_BAR : Panel := ⟨ascii "https://www.my-shop.example.com", DeviceSettings.new⟩

/-- They are not refused, and another host is loaded. -/
theorem long_bookmark_is_cut :
    LONG_BAR.url.length ≤ 192 ∧
      ¬ ((LONG_BAR.url.length ≤ PERSIST_BOOKMARK_URL_CAP → ComesBack LONG_BAR ⟨0, by decide⟩) ∧
        (PERSIST_BOOKMARK_URL_CAP < LONG_BAR.url.length → Refused LONG_BAR ⟨0, by decide⟩)) ∧
      (((LONG_BAR.store ⟨0, by decide⟩).reload DeviceSettings.new).load ⟨0, by decide⟩).url =
        ascii "https://www.my-shop.example.co" := by
  have hlong : PERSIST_BOOKMARK_URL_CAP < LONG_BAR.url.length := by decide
  refine ⟨by decide, ?_, ?_⟩
  · rintro ⟨-, hrefused⟩
    have hlen := (hrefused hlong).2
    rw [(store_long _ hlong).1] at hlen
    exact absurd hlen (by decide)
  · have hholds := store_holds LONG_BAR ⟨0, by decide⟩
    rw [Nat.min_eq_right (Nat.le_of_lt hlong)] at hholds
    have hcut : LONG_BAR.url.take PERSIST_BOOKMARK_URL_CAP = ascii "https://www.my-shop.example.co" := by decide
    rw [hcut] at hholds
    exact load_holds (reload_holds hholds _) (by decide)

end EveOS.Settings
