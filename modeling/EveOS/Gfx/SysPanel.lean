/-
The SYS panel: the rows of `draw_settings_body` of `kernel/src/gfx.rs`, the buttons below
them, and the wheel.

Where a row is, is computed three times: where it is drawn, where it is tapped, and for
the height of the panel. The first two agree in every mode but for the width, since a row
is drawn as wide as the scrollbar leaves it. The third leaves out the rows of a static
address, so that the buttons come to stand over the last rows. And what is tapped is not
cut to the panel.
-/
import EveOS.Gfx.Clicks

set_option autoImplicit false

namespace EveOS.Gfx

def SCROLLBAR_W : Nat := 12

/-- What the drawing does with its `y`: a row is painted there, or some space is left. -/
inductive Item
  | skip (n : Nat)
  | row (c : Control)

/-- The rows with the `y` of each. -/
def item_tops : List Item → Nat → List (Nat × Control)
  | [], _ => []
  | .skip n :: items, y => item_tops items (y + n)
  | .row c :: items, y => (y, c) :: item_tops items (y + (SETTINGS_ROW_H + SETTINGS_GAP))

namespace ClickState

variable (state : ClickState) (lay : Layout)

/-- The tags and rows of `draw_settings_body`, in their order. -/
def draw_items : List Item :=
  match state.settings_subtab with
  | .General =>
    [.skip 14, .row .theme, .row .width, .row .height, .row .custom_resolution, .row .save] ++
    [.skip 14, .row .home_url, .row .set_home] ++
    (List.finRange Settings.PERSIST_BOOKMARK_SLOTS).map (fun slot => .row (.bookmark slot)) ++
    [.skip 14, .row .wifi, .row .scan] ++
    (List.finRange 3).map (fun slot => .row (.network slot)) ++
    (if state.wifi_scan_demo then [.skip 12] else []) ++
    [.row .ssid, .row .security, .row .psk, .row .nic, .row .ip_mode] ++
    (if state.settings.ip_config = .Static then [.row .static_ip, .row .static_gw, .row .static_dns] else []) ++
    [.row .internet, .skip 4, .skip 14, .row .bluetooth, .skip 4, .skip 14, .row .midi, .row .usb_midi, .row .script]
  | .Input =>
    [.skip 14, .row .usb_polling, .row .status, .row .status, .row .status, .row .status, .row .cursor_preset]

/-- The rows that are drawn, with where they are on the panel. -/
def drawn_rows : List (Rect × Control) :=
  let y := lay.content_top + 12 + 20 + (SETTINGS_SUBTAB_H + SETTINGS_SUBTAB_BELOW_GAP)
  (item_tops state.draw_items y).map fun r => (⟨36, r.1, lay.w - (72 + SCROLLBAR_W), SETTINGS_ROW_H⟩, r.2)

/-- The rows that are tapped. -/
def tapped_rows : List (Rect × Control) := (state.placed_rows lay).map fun r => (row_rect lay r.1, r.2)

/-- The height of what is shown of the panel. -/
def panel_h (lay : Layout) : Nat := lay.h - lay.content_top - 48

def settings_content_height : Nat :=
  let shutdown := (state.settings_power_button_rects lay).2
  let y_hint := shutdown.y + shutdown.h + 20
  let y_foot := y_hint + 14
  y_foot + 16 - lay.content_top

def max_scroll : Nat := state.settings_content_height lay - panel_h lay

/-- The wheel; `dy` is positive downwards. -/
def settings_scroll_by_wheel (dy : Int) : ClickState :=
  if state.max_scroll lay = 0 then { state with settings_scroll_px := 0, content_dirty := true }
  else if dy < 0 then
    { state with settings_scroll_px := state.settings_scroll_px - (-dy).toNat, content_dirty := true }
  else
    { state with
      settings_scroll_px := min (state.settings_scroll_px + dy.toNat) (state.max_scroll lay)
      content_dirty := true }

/-- How far up `draw_settings_body` moves what it draws. -/
def drawn_scroll : Nat := min state.settings_scroll_px (state.max_scroll lay)

/-! ## What is promised -/

/-- The rows that are tapped are those that are drawn. -/
def RowsMatch : Prop := state.tapped_rows lay = state.drawn_rows lay

/-- The buttons are below the rows, and so over none of them. -/
def ButtonsBelow : Prop :=
  ∀ r ∈ state.tapped_rows lay,
    r.1.y + r.1.h ≤ (state.settings_power_button_rects lay).1.y ∧
      r.1.y + r.1.h ≤ (state.settings_power_button_rects lay).2.y

/-- Nothing is requested yet. -/
def at_rest : ClickState := { state with power_reboot_request := false, power_shutdown_request := false }

/-- A click beside the panel, above it or below it, does nothing to the settings and
requests nothing. -/
def ClicksInside (info : FrameBufferInfo) : Prop :=
  ∀ mx my, my < (state.layout info).content_top ∨
      (state.layout info).content_top + panel_h (state.layout info) ≤ my →
    ∀ r, handle_click_at false state.at_rest info mx my = some r →
      r.1.settings = state.settings ∧ r.1.power_reboot_request = false ∧ r.1.power_shutdown_request = false

/-- What is promised of the SYS screen. -/
structure PanelSound (info : FrameBufferInfo) : Prop where
  rows : state.RowsMatch (state.layout info)
  buttons : state.ButtonsBelow (state.layout info)
  inside : state.ClicksInside info

/-- The rows of a static address are on the panel. -/
def HasStaticRows : Prop := state.settings_subtab = .General ∧ state.settings.ip_config = .Static

instance : Decidable state.HasStaticRows := inferInstanceAs (Decidable (_ ∧ _))

/-- The buttons are on the part of the panel that is shown. -/
def ButtonsShown : Prop :=
  let reboot := (state.settings_power_button_rects lay).1
  lay.content_top + state.settings_scroll_px ≤ reboot.y ∧
    reboot.y + reboot.h ≤ lay.content_top + panel_h lay + state.settings_scroll_px

/-- The SYS screen, with an offset that the wheel has produced. -/
def Scrolled (info : FrameBufferInfo) : Prop :=
  ∃ (before : ClickState) (turns : List Int), before.screen = .Settings ∧ before.settings_scroll_px = 0 ∧
    state = run (fun s dy => s.settings_scroll_by_wheel (before.layout info) dy) before turns

end ClickState

/-! ## The rows -/

/-- What is drawn, as what is tapped is written: with the space above each row. -/
def to_rows : List Item → Nat → Rows
  | [], _ => []
  | .skip n :: items, above => to_rows items (above + n)
  | .row c :: items, above => (above, c) :: to_rows items 0

theorem tops_to_rows (items : List Item) (above y : Nat) :
    (to_rows items above).tops y = item_tops items (y + above) := by
  induction items generalizing above y with
  | nil => rfl
  | cons item items ih =>
    cases item with
    | skip n =>
      show (to_rows items (above + n)).tops y = item_tops items (y + above + n)
      rw [ih, Nat.add_assoc]
    | row c =>
      show (y + above, c) :: (to_rows items 0).tops _ = (y + above, c) :: item_tops items _
      rw [ih, Nat.add_zero]

namespace ClickState

/-- In every mode the rows are drawn in the order in which they are tapped, with the same
space between them. -/
theorem draw_items_eq (state : ClickState) :
    ∃ items, state.draw_items = .skip 14 :: items ∧ to_rows items 0 = state.hit_rows := by
  unfold draw_items hit_rows
  cases state.settings_subtab with
  | Input => exact ⟨_, rfl, rfl⟩
  | General =>
    -- two of the modes add something: the names that were found, and a static address
    by_cases hdemo : state.wifi_scan_demo = true
    · by_cases hip : state.settings.ip_config = .Static
      · simp only [if_pos hdemo, if_pos hip]
        exact ⟨_, rfl, rfl⟩
      · simp only [if_pos hdemo, if_neg hip]
        exact ⟨_, rfl, rfl⟩
    · by_cases hip : state.settings.ip_config = .Static
      · simp only [if_neg hdemo, if_pos hip]
        exact ⟨_, rfl, rfl⟩
      · simp only [if_neg hdemo, if_neg hip]
        exact ⟨_, rfl, rfl⟩

/-- The rows are drawn where they are tapped, but less wide. -/
theorem drawn_rows_eq (state : ClickState) (lay : Layout) :
    state.drawn_rows lay =
      (state.placed_rows lay).map fun r => (⟨36, r.1, lay.w - (72 + SCROLLBAR_W), SETTINGS_ROW_H⟩, r.2) := by
  obtain ⟨items, hitems, hrows⟩ := state.draw_items_eq
  unfold drawn_rows placed_rows
  rw [hitems, ← hrows, tops_to_rows]
  rfl

/-- Nothing is painted for a row but its width, less the scrollbar. -/
theorem rows_match_iff (state : ClickState) (lay : Layout) : state.RowsMatch lay ↔ lay.w ≤ 72 := by
  unfold RowsMatch tapped_rows
  rw [drawn_rows_eq]
  constructor
  · intro h
    obtain ⟨r, hr⟩ : ∃ r, r ∈ state.placed_rows lay := by
      unfold placed_rows hit_rows
      cases state.settings_subtab <;> exact ⟨_, List.mem_cons_self⟩
    have hwidth := congrArg (fun p => p.1.w) (List.map_inj_left.mp h r hr)
    have hwidth : lay.w - 72 = lay.w - (72 + SCROLLBAR_W) := hwidth
    unfold SCROLLBAR_W at hwidth
    omega
  · intro h
    have hwidth : lay.w - 72 = lay.w - (72 + SCROLLBAR_W) := by omega
    unfold row_rect
    rw [hwidth]

end ClickState

/-! ## The height of the panel -/

namespace Rows

/-- Below the last row. -/
def bottom (rows : Rows) (y : Nat) : Nat :=
  y + (rows.map Prod.fst).sum + rows.length * (SETTINGS_ROW_H + SETTINGS_GAP)

theorem bottom_cons (skip : Nat) (c : Control) (rows : Rows) (y : Nat) :
    bottom ((skip, c) :: rows) y = bottom rows (y + skip + (SETTINGS_ROW_H + SETTINGS_GAP)) := by
  unfold bottom
  rw [List.map_cons, List.sum_cons, List.length_cons]
  ring

theorem le_bottom (rows : Rows) (y : Nat) : y ≤ rows.bottom y := by
  unfold bottom
  omega

/-- No row goes below the last one. -/
theorem tops_le_bottom (rows : Rows) (y : Nat) :
    ∀ r ∈ rows.tops y, r.1 + (SETTINGS_ROW_H + SETTINGS_GAP) ≤ rows.bottom y := by
  induction rows generalizing y with
  | nil => exact fun r hr => absurd hr List.not_mem_nil
  | cons row rows ih =>
    intro r hr
    show _ ≤ bottom ((row.1, row.2) :: rows) y
    rw [bottom_cons]
    rcases List.mem_cons.mp hr with rfl | hr
    · exact le_bottom rows _
    · exact ih _ r hr

/-- The last row ends there. -/
theorem last_top (rows : Rows) (y : Nat) (hrows : rows ≠ []) :
    ∃ r ∈ rows.tops y, r.1 + (SETTINGS_ROW_H + SETTINGS_GAP) = rows.bottom y := by
  induction rows generalizing y with
  | nil => exact absurd rfl hrows
  | cons row rows ih =>
    show ∃ r ∈ (y + row.1, row.2) :: tops rows _, _ = bottom ((row.1, row.2) :: rows) y
    rw [bottom_cons]
    by_cases hlast : rows = []
    · rw [hlast]
      exact ⟨_, List.mem_cons_self, rfl⟩
    · obtain ⟨r, hr, hbottom⟩ := ih _ hlast
      exact ⟨r, List.mem_cons_of_mem _ hr, hbottom⟩

end Rows

namespace ClickState

variable {state : ClickState} {lay : Layout} {info : FrameBufferInfo}

theorem hit_rows_ne_nil (state : ClickState) : state.hit_rows ≠ [] := by
  unfold hit_rows
  cases state.settings_subtab <;> exact List.cons_ne_nil _ _

/-- The rows and the space between them. -/
theorem hit_rows_general (state : ClickState) (hsubtab : state.settings_subtab = .General) :
    state.hit_rows.length = 30 + (if state.settings.ip_config = .Static then 3 else 0) ∧
      (state.hit_rows.map Prod.fst).sum = 64 + if state.wifi_scan_demo then 12 else 0 := by
  unfold hit_rows
  rw [hsubtab]
  by_cases hip : state.settings.ip_config = .Static
  · simp only [if_pos hip]
    cases state.wifi_scan_demo <;> exact ⟨rfl, rfl⟩
  · simp only [if_neg hip]
    cases state.wifi_scan_demo <;> exact ⟨rfl, rfl⟩

/-- The height leaves out the rows of a static address. -/
theorem bottom_hit_rows (state : ClickState) (content_top : Nat) :
    state.hit_rows.bottom (settings_first_row_y content_top) + 10 =
      state.settings_y_after_all_rows content_top + if state.HasStaticRows then 78 else 0 := by
  unfold Rows.bottom settings_y_after_all_rows SETTINGS_ROW_H SETTINGS_GAP SETTINGS_SEC_SKIP
  by_cases hsubtab : state.settings_subtab = .General
  · obtain ⟨hlen, hsum⟩ := state.hit_rows_general hsubtab
    have hstatic : state.HasStaticRows ↔ state.settings.ip_config = .Static := and_iff_right hsubtab
    rw [hlen, hsum, hsubtab]
    simp only [hstatic]
    split_ifs <;> omega
  · have hinput : state.settings_subtab = .Input := by
      cases h : state.settings_subtab with
      | General => exact absurd h hsubtab
      | Input => rfl
    have hrows : state.hit_rows.length = 6 ∧ (state.hit_rows.map Prod.fst).sum = 0 := by
      unfold hit_rows
      rw [hinput]
      exact ⟨rfl, rfl⟩
    rw [hrows.1, hrows.2, hinput]
    dsimp only
    rw [if_neg fun h : state.HasStaticRows => hsubtab h.1]

/-- The buttons are below the rows, unless there are rows that the height leaves out. -/
theorem buttons_below_iff (state : ClickState) (lay : Layout) : state.ButtonsBelow lay ↔ ¬ state.HasStaticRows := by
  have hbottom := bottom_hit_rows state lay.content_top
  have hbelow : state.ButtonsBelow lay ↔ ∀ r ∈ state.placed_rows lay,
      r.1 + SETTINGS_ROW_H ≤ state.settings_y_after_all_rows lay.content_top + POWER_STRIP_PAD_TOP + 16 := by
    unfold ButtonsBelow tapped_rows
    rw [List.forall_mem_map]
    exact forall₂_congr fun r _ => and_self_iff
  rw [hbelow]
  constructor
  · intro h hstatic
    obtain ⟨r, hr, hlast⟩ := Rows.last_top state.hit_rows (settings_first_row_y lay.content_top) state.hit_rows_ne_nil
    have hle := h r hr
    rw [if_pos hstatic] at hbottom
    unfold SETTINGS_ROW_H SETTINGS_GAP POWER_STRIP_PAD_TOP at *
    omega
  · intro hstatic r hr
    have hle := Rows.tops_le_bottom state.hit_rows (settings_first_row_y lay.content_top) r hr
    rw [if_neg hstatic] at hbottom
    unfold SETTINGS_ROW_H SETTINGS_GAP POWER_STRIP_PAD_TOP at *
    omega

end ClickState

/-! ## Clicks -/

namespace ClickState

variable {state : ClickState} {lay : Layout} {info : FrameBufferInfo}

/-- A step of the wheel stays on the panel. -/
theorem wheel_le (state : ClickState) (lay : Layout) (dy : Int) (h : state.settings_scroll_px ≤ state.max_scroll lay) :
    (state.settings_scroll_by_wheel lay dy).settings_scroll_px ≤ state.max_scroll lay := by
  unfold settings_scroll_by_wheel
  split_ifs
  · exact Nat.zero_le _
  · exact Nat.le_trans (Nat.sub_le _ _) h
  · exact Nat.min_le_right _ _

/-- What the wheel leaves. -/
theorem wheel_keeps (info : FrameBufferInfo) (state : ClickState) (lay : Layout) (dy : Int) :
    (state.settings_scroll_by_wheel lay dy).screen = state.screen ∧
      (state.settings_scroll_by_wheel lay dy).layout info = state.layout info ∧
      (state.settings_scroll_by_wheel lay dy).max_scroll lay = state.max_scroll lay := by
  unfold settings_scroll_by_wheel
  split_ifs <;> exact ⟨rfl, rfl, rfl⟩

/-- **The wheel never scrolls past the end of the panel.** -/
theorem Scrolled.le (h : state.Scrolled info) :
    state.screen = .Settings ∧ state.settings_scroll_px ≤ state.max_scroll (state.layout info) := by
  obtain ⟨before, turns, hscreen, hzero, rfl⟩ := h
  have hstep : ∀ (s : ClickState) (dy : Int),
      (s.screen = .Settings ∧ s.layout info = before.layout info ∧
        s.settings_scroll_px ≤ s.max_scroll (before.layout info)) →
      (s.settings_scroll_by_wheel (before.layout info) dy).screen = .Settings ∧
        (s.settings_scroll_by_wheel (before.layout info) dy).layout info = before.layout info ∧
        (s.settings_scroll_by_wheel (before.layout info) dy).settings_scroll_px ≤
          (s.settings_scroll_by_wheel (before.layout info) dy).max_scroll (before.layout info) := by
    intro s dy hs
    obtain ⟨hsame, hlay, hmax⟩ := wheel_keeps info s (before.layout info) dy
    rw [hsame, hlay, hmax]
    exact ⟨hs.1, hs.2.1, s.wheel_le _ dy hs.2.2⟩
  have hrun := run_preserves hstep ⟨hscreen, rfl, hzero.le.trans (Nat.zero_le _)⟩ turns
  exact ⟨hrun.1, by rw [hrun.2.1]; exact hrun.2.2⟩

/-- The SYS screen has tabs. -/
theorem settings_has_tabs (hscreen : state.screen = .Settings) :
    state.is_notice = false ∧ state.browser_bios_fullpage = false := by
  unfold UiState.is_notice UiState.browser_bios_fullpage
  rw [hscreen]
  exact ⟨rfl, rfl⟩

theorem settings_layout (hscreen : state.screen = .Settings) (info : FrameBufferInfo) :
    (state.layout info).w = info.width ∧ 94 ≤ (state.layout info).content_top := by
  obtain ⟨hnotice, hpage⟩ := settings_has_tabs hscreen
  unfold UiState.layout
  rw [hnotice, hpage, if_neg Bool.false_ne_true, if_neg Bool.false_ne_true]
  dsimp only
  omega

theorem open_tab_keeps (state : ClickState) (screen : Screen) :
    (state.open_tab screen).settings = state.settings ∧
      (state.open_tab screen).power_reboot_request = state.power_reboot_request ∧
      (state.open_tab screen).power_shutdown_request = state.power_shutdown_request := by
  unfold open_tab
  split <;> exact ⟨rfl, rfl, rfl⟩

/-- On a narrow screen there is no room for the rows. -/
theorem row_hit_narrow (state : ClickState) (hw : lay.w ≤ 72) (mx hit_my : Nat) : state.row_hit lay mx hit_my = none := by
  unfold row_hit
  rw [Option.map_eq_none_iff, List.find?_eq_none]
  intro r _
  rw [decide_eq_true_iff]
  rintro ⟨hleft, hright, -⟩
  have hright : mx < 36 + (lay.w - 72) := hright
  have hleft : 36 ≤ mx := hleft
  omega

/-- What a click can do where it hits neither a row nor a button. -/
theorem click_settings_beside {mx my : Nat} (hrow : state.row_hit lay mx (my + state.settings_scroll_px) = none)
    (hreboot : ¬ (state.settings_power_button_rects lay).1.Contains mx (my + state.settings_scroll_px))
    (hshutdown : ¬ (state.settings_power_button_rects lay).2.Contains mx (my + state.settings_scroll_px)) :
    (state.click_settings lay mx my).1.settings = state.settings ∧
      (state.click_settings lay mx my).1.power_reboot_request = state.power_reboot_request ∧
      (state.click_settings lay mx my).1.power_shutdown_request = state.power_shutdown_request := by
  unfold click_settings
  dsimp only
  rw [hrow]
  cases settings_subtab_hit lay mx (my + state.settings_scroll_px) with
  | some tab =>
    unfold select_settings_subtab
    dsimp only
    split_ifs <;> exact ⟨rfl, rfl, rfl⟩
  | none =>
    dsimp only
    rw [if_neg hreboot, if_neg hshutdown]
    exact ⟨rfl, rfl, rfl⟩

/-- Where the buttons are on the part that is shown, no click beside it hits one. -/
theorem clicks_inside_of_shown (hscreen : state.screen = .Settings) (hw : info.width ≤ 72)
    (hshown : state.ButtonsShown (state.layout info)) : state.ClicksInside info := by
  have hrest : state.at_rest.screen = .Settings := hscreen
  obtain ⟨hnotice, hpage⟩ := settings_has_tabs hrest
  have hwidth := (settings_layout hrest info).1
  have hlay : state.at_rest.layout info = state.layout info := rfl
  intro mx my hout r hr
  rw [handle_click_at_tabs false hnotice hpage] at hr
  obtain rfl := Option.some.inj hr
  cases state.at_rest.tab_at (state.at_rest.layout info) ((state.at_rest.layout info).tab_h - 8) mx my with
  | some screen => exact open_tab_keeps state.at_rest screen
  | none =>
    -- a button that is hit is on the part that is shown, and so is the click
    have hbutton : ∀ b : Rect, b.y = (state.settings_power_button_rects (state.layout info)).1.y →
        b.h = (state.settings_power_button_rects (state.layout info)).1.h →
        ¬ b.Contains mx (my + state.settings_scroll_px) := by
      rintro b hy hh ⟨-, -, hbelow, habove⟩
      unfold ButtonsShown at hshown
      dsimp only at hshown
      rw [hy] at hbelow
      rw [hy, hh] at habove
      omega
    have hbeside := click_settings_beside (state.at_rest.row_hit_narrow (hwidth.trans_le hw) mx _)
      (hbutton _ rfl rfl) (hbutton _ rfl rfl)
    show (state.at_rest.click_screen (state.at_rest.layout info) mx my).1.settings = _ ∧ _
    unfold click_screen
    rw [hrest]
    exact hbeside

theorem first_le_after (state : ClickState) (content_top : Nat) :
    settings_first_row_y content_top ≤ state.settings_y_after_all_rows content_top := by
  unfold settings_y_after_all_rows
  cases state.settings_subtab <;> dsimp only <;> omega

/-- A click on the left button that hits nothing above it. -/
theorem click_settings_reboots {my : Nat} (hw : lay.w ≤ 72)
    (hhit : (state.settings_power_button_rects lay).1.Contains 124 (my + state.settings_scroll_px)) :
    (state.click_settings lay 124 my).1.power_reboot_request = true := by
  have hsubtab : settings_subtab_hit lay 124 (my + state.settings_scroll_px) = none := by
    have hbelow : (state.settings_power_button_rects lay).1.y ≤ my + state.settings_scroll_px := hhit.2.2.1
    have hrows := state.first_le_after lay.content_top
    unfold settings_power_button_rects POWER_STRIP_PAD_TOP at hbelow
    dsimp only at hbelow
    unfold settings_first_row_y SETTINGS_SUBTAB_OFF SETTINGS_SUBTAB_H SETTINGS_SUBTAB_BELOW_GAP at hrows
    unfold settings_subtab_hit SETTINGS_SUBTAB_OFF SETTINGS_SUBTAB_H
    dsimp only
    rw [if_neg]
    omega
  unfold click_settings
  dsimp only
  rw [hsubtab, row_hit_narrow state hw]
  dsimp only
  rw [if_pos hhit]

/-- Between the first two tabs there is the left button. -/
theorem click_reboots {my : Nat} (hscreen : state.screen = .Settings) (hw : info.width ≤ 72)
    (hhit : (state.settings_power_button_rects (state.layout info)).1.Contains 124 (my + state.settings_scroll_px)) :
    ∃ r, handle_click_at false state.at_rest info 124 my = some r ∧ r.1.power_reboot_request = true := by
  have hrest : state.at_rest.screen = .Settings := hscreen
  obtain ⟨hnotice, hpage⟩ := settings_has_tabs hrest
  have hnarrow : (state.at_rest.layout info).w ≤ 72 := (settings_layout hrest info).1.trans_le hw
  have htab : state.at_rest.tab_at (state.at_rest.layout info) ((state.at_rest.layout info).tab_h - 8) 124 my = none := by
    unfold tab_at tab_hit tab_log_x TAB_EVE_X TAB_EVE_W TAB_SET_X TAB_SET_W TAB_INS_X TAB_INS_W
    dsimp only
    split_ifs <;> first | rfl | omega
  refine ⟨_, handle_click_at_tabs false hnotice hpage 124 my, ?_⟩
  rw [htab]
  show (state.at_rest.click_screen (state.at_rest.layout info) 124 my).1.power_reboot_request = true
  unfold click_screen
  rw [hrest]
  exact click_settings_reboots hnarrow hhit

/-- So both buttons are on the part that is shown, or a click beside it requests a reboot. -/
theorem shown_of_clicks_inside (hscreen : state.screen = .Settings) (hw : info.width ≤ 72)
    (hscroll : state.settings_scroll_px ≤ state.max_scroll (state.layout info)) (h : state.ClicksInside info) :
    state.ButtonsShown (state.layout info) := by
  have htop := (settings_layout hscreen info).2
  have hclick : ∀ my, my < (state.layout info).content_top ∨
        (state.layout info).content_top + panel_h (state.layout info) ≤ my →
      ¬ (state.settings_power_button_rects (state.layout info)).1.Contains 124 (my + state.settings_scroll_px) := by
    intro my hout hhit
    obtain ⟨r, hr, hreboot⟩ := click_reboots hscreen hw hhit
    exact Bool.false_ne_true ((h 124 my hout r hr).2.1.symm.trans hreboot)
  have hwide : 120 ≤ (state.settings_power_button_rects (state.layout info)).1.w := Nat.le_max_right _ _
  unfold max_scroll settings_content_height at hscroll
  dsimp only at hscroll
  have hleft : (state.settings_power_button_rects (state.layout info)).1.x = 40 := rfl
  have hsame : (state.settings_power_button_rects (state.layout info)).2.y =
      (state.settings_power_button_rects (state.layout info)).1.y := rfl
  have hhigh : (state.settings_power_button_rects (state.layout info)).1.h = 46 := rfl
  have hhigh' : (state.settings_power_button_rects (state.layout info)).2.h = 46 := rfl
  unfold ButtonsShown
  unfold Rect.Contains at hclick
  generalize (state.settings_power_button_rects (state.layout info)).1 = reboot at *
  generalize (state.settings_power_button_rects (state.layout info)).2 = shutdown at *
  dsimp only
  constructor
  · -- the click is as high as the button, or at the top of the screen
    have hno := hclick (reboot.y - state.settings_scroll_px)
    omega
  · have hno := hclick (reboot.y + 45 - state.settings_scroll_px)
    omega

/-- **When the SYS panel is as it should be**: on a screen so narrow that no row has a
width, in a mode without a static address, and with the buttons in sight. Each of the
first two has its own part in it: the rows match on narrow screens only, and the buttons
are below the rows unless there is a static address. -/
theorem panel_sound_iff (hscrolled : state.Scrolled info) :
    (state.PanelSound info ↔
        info.width ≤ 72 ∧ ¬ state.HasStaticRows ∧ state.ButtonsShown (state.layout info)) ∧
      (state.RowsMatch (state.layout info) ↔ info.width ≤ 72) ∧
      (state.ButtonsBelow (state.layout info) ↔ ¬ state.HasStaticRows) := by
  obtain ⟨hscreen, hscroll⟩ := hscrolled.le
  have hrows : state.RowsMatch (state.layout info) ↔ info.width ≤ 72 := by
    rw [rows_match_iff, (settings_layout hscreen info).1]
  have hbuttons := state.buttons_below_iff (state.layout info)
  refine ⟨⟨fun h => ?_, fun ⟨hw, hstatic, hshown⟩ => ?_⟩, hrows, hbuttons⟩
  · have hw := hrows.mp h.rows
    exact ⟨hw, hbuttons.mp h.buttons, shown_of_clicks_inside hscreen hw hscroll h.inside⟩
  · exact ⟨hrows.mpr hw, hbuttons.mpr hstatic, clicks_inside_of_shown hscreen hw hshown⟩

/-- The SYS screen with a static address, not scrolled yet. -/
def STATIC_PANEL : ClickState :=
  { FIRST_PAGE with
    screen := .Settings
    url := ascii "10.0.2.2"
    settings := { FIRST_PAGE.settings with ip_config := .Static } }

/-- The screen of 1024 times 768 pixels. -/
def XGA : FrameBufferInfo := ⟨1024, 768, 1024, .Bgr, 4⟩

/-- It is scrolled to its end. -/
def SCROLLED_PANEL : ClickState := STATIC_PANEL.settings_scroll_by_wheel (STATIC_PANEL.layout XGA) 600

theorem scrolled_panel : SCROLLED_PANEL.Scrolled XGA := ⟨STATIC_PANEL, [600], rfl, rfl, rfl⟩

theorem scrolled_panel_sound_iff :
    (SCROLLED_PANEL.PanelSound XGA ↔
        XGA.width ≤ 72 ∧ ¬ SCROLLED_PANEL.HasStaticRows ∧ SCROLLED_PANEL.ButtonsShown (SCROLLED_PANEL.layout XGA)) ∧
      (SCROLLED_PANEL.RowsMatch (SCROLLED_PANEL.layout XGA) ↔ XGA.width ≤ 72) ∧
      (SCROLLED_PANEL.ButtonsBelow (SCROLLED_PANEL.layout XGA) ↔ ¬ SCROLLED_PANEL.HasStaticRows) :=
  panel_sound_iff scrolled_panel

/-- Nothing that is promised holds of it: the rows are narrower than they are tapped, the
last of them is under the buttons, and a click into the URL bar stores a bookmark. -/
theorem scrolled_panel_is_unsound :
    ¬ SCROLLED_PANEL.RowsMatch (SCROLLED_PANEL.layout XGA) ∧
      ¬ SCROLLED_PANEL.ButtonsBelow (SCROLLED_PANEL.layout XGA) ∧
      ¬ SCROLLED_PANEL.ClicksInside XGA ∧
      ¬ SCROLLED_PANEL.PanelSound XGA := by
  have hrows : ¬ SCROLLED_PANEL.RowsMatch (SCROLLED_PANEL.layout XGA) := by
    rw [rows_match_iff]
    decide
  refine ⟨hrows, ?_, ?_, fun h => hrows h.rows⟩
  · rw [buttons_below_iff]
    decide
  · intro h
    have hclick : (handle_click_at false SCROLLED_PANEL.at_rest XGA 700 120).map
        (fun r => r.1.settings.bookmark_len.get ⟨7, by decide⟩) = some 8 := by decide
    obtain ⟨hnotice, hpage⟩ := settings_has_tabs scrolled_panel.le.1
    obtain ⟨r, hr⟩ : ∃ r, handle_click_at false SCROLLED_PANEL.at_rest XGA 700 120 = some r :=
      ⟨_, handle_click_at_tabs false hnotice hpage 700 120⟩
    have hkept := (h 700 120 (.inl (by decide)) r hr).1
    rw [hr, Option.map_some, hkept] at hclick
    exact absurd hclick (by decide)

end ClickState

end EveOS.Gfx
