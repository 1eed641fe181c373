/-
Frames that are drawn soundly.

Nothing is drawn over a cursor: a save that is valid belongs to a cursor of the frame
before, and each of the four ways to paint puts those back or forgets them first. And a
flag is cleared only by a frame that has drawn what the flag stands for. The one fault
is the third way, which draws the page of the browser on whichever screen is shown.
-/
import EveOS.Gfx.RenderFrame

set_option autoImplicit false

namespace EveOS.Gfx

/-! ## Saves -/

section Saves

variable {eng eng' : CursorEngine} {buf buf' : Bytes} {info : FrameBufferInfo} {state : Cursors}
  {presets : Nat → Bytes}

/-- No save is valid. -/
def Bare (eng : CursorEngine) : Prop := ∀ i, (eng i).save_valid = false

/-- A save that is valid is one of a cursor on the screen, and is not empty. -/
def Saved (eng : CursorEngine) : Prop :=
  ∀ i, (eng i).save_valid = true → (eng i).last_active = true ∧ (eng i).saved ≠ []

theorem Bare.saved (h : Bare eng) : Saved eng := by
  intro i hvalid
  rw [h i] at hvalid
  cases hvalid

theorem slot_restore_eq {s s' : Slot} (h : s.restore_one buf info = some (s', buf')) :
    s' = s ∧ (s.save_valid = false ∨ s.saved = []) ∨ s' = { s with save_valid := false } := by
  unfold Slot.restore_one at h
  split_ifs at h with hskip
  · have hs := (Prod.mk.inj (Option.some.inj h)).1
    rw [Bool.or_eq_true, Bool.not_eq_true', beq_iff_eq, List.length_eq_zero_iff] at hskip
    exact .inl ⟨hs.symm, hskip⟩
  · obtain ⟨out, -, hout⟩ := Returns.of_bind h
    exact .inr (Prod.mk.inj (Option.some.inj hout)).1.symm

/-- A restore leaves the other slots, and its own one not valid. -/
theorem restore_one_slots {i : Fin MAX_CURSORS} (hsaved : Saved eng)
    (h : eng.restore_one buf info i = some (eng', buf')) :
    (∀ j, j ≠ i → eng' j = eng j) ∧ (eng' i).save_valid = false := by
  unfold CursorEngine.restore_one at h
  split_ifs at h with hactive
  · obtain ⟨⟨slot, out⟩, hslot, hout⟩ := Returns.of_bind h
    have heng := (Prod.mk.inj (Option.some.inj hout)).1
    subst heng
    refine ⟨fun j hj => Function.update_of_ne hj _ _, ?_⟩
    rw [Function.update_self]
    rcases slot_restore_eq hslot with ⟨rfl, hnone⟩ | rfl
    · by_contra hvalid
      rw [Bool.not_eq_false] at hvalid
      exact hnone.elim (fun hf => Bool.false_ne_true (hf.symm.trans hvalid)) (hsaved i hvalid).2
    · rfl
  · have heng := (Prod.mk.inj (Option.some.inj h)).1
    subst heng
    refine ⟨fun j _ => rfl, ?_⟩
    by_contra hvalid
    rw [Bool.not_eq_false] at hvalid
    exact hactive (hsaved i hvalid).1

/-- A restore keeps what is not valid so. -/
theorem restore_one_keeps {i : Fin MAX_CURSORS} (hsaved : Saved eng)
    (h : eng.restore_one buf info i = some (eng', buf')) :
    Saved eng' ∧ ∀ j, (eng j).save_valid = false → (eng' j).save_valid = false := by
  obtain ⟨hothers, hi⟩ := restore_one_slots hsaved h
  constructor
  · intro j hvalid
    by_cases hj : j = i
    · subst hj
      rw [hi] at hvalid
      cases hvalid
    · rw [hothers j hj] at hvalid ⊢
      exact hsaved j hvalid
  · intro j hj
    by_cases hji : j = i
    · exact hji ▸ hi
    · exact hothers j hji ▸ hj

/-- **All cursors are restored**: behind the loop no save is valid. -/
theorem restore_active_bare (hsaved : Saved eng) (h : eng.restore_active buf info = some (eng', buf')) :
    Bare eng' := by
  intro i
  refine foldlM_once (J := fun s => Saved s.1) (Q := fun s => (s.1 i).save_valid = false)
    (a := i) ?_ ?_ ?_ ?_ h hsaved
  · exact fun s j s' hone hs => (restore_one_keeps hs hone).1
  · exact fun s j s' hone hs hq => (restore_one_keeps hs hone).2 i hq
  · exact fun s s' hone hs => (restore_one_slots hs hone).2
  · exact List.mem_reverse.mpr (List.mem_finRange i)

theorem slot_save_eq {s s' : Slot} {cx cy : Int32} (h : s.save_one buf info cx cy = some s') :
    s'.save_valid = true → s'.saved ≠ [] := by
  unfold Slot.save_one at h
  obtain ⟨⟨x0, y0, rw, rh⟩, -, h⟩ := Returns.of_bind h
  dsimp only at h
  split_ifs at h with hempty
  · have hs := Option.some.inj h
    subst hs
    intro hvalid
    cases hvalid
  · obtain ⟨saved, -, h⟩ := Returns.of_bind h
    have hs := Option.some.inj h
    subst hs
    intro hvalid
    exact List.length_pos_iff.mp (of_decide_eq_true hvalid)

/-- The loop that saves, from a screen without cursors: a save that is valid is one of an
active cursor. -/
theorem save_active_saved (hbare : Bare eng) (h : eng.save_active buf info state = some eng') :
    ∀ i, (eng' i).save_valid = true → state.cursor_active i = true ∧ (eng' i).saved ≠ [] := by
  refine foldlM_keeps (I := fun e : CursorEngine =>
    ∀ i, (e i).save_valid = true → state.cursor_active i = true ∧ (e i).saved ≠ []) ?_ h ?_
  · intro s i s' hone hs j hvalid
    unfold CursorEngine.save_one at hone
    split_ifs at hone with hactive
    · obtain ⟨slot, hslot, hout⟩ := Returns.of_bind hone
      have hs' := Option.some.inj hout
      subst hs'
      by_cases hj : j = i
      · subst hj
        rw [Function.update_self] at hvalid ⊢
        exact ⟨hactive, slot_save_eq hslot hvalid⟩
      · rw [Function.update_of_ne hj] at hvalid ⊢
        exact hs j hvalid
    · have hs' := Option.some.inj hone
      subst hs'
      exact hs j hvalid
  · intro i hvalid
    rw [hbare i] at hvalid
    cases hvalid

/-- Behind `prime_cursors` the saves are those of the cursors on the screen. -/
theorem prime_saved (hbare : Bare eng) (h : eng.prime_cursors presets buf info state = some (eng', buf')) :
    Saved eng' := by
  obtain ⟨saved, hsave, h⟩ := Returns.of_bind h
  obtain ⟨out, -, h⟩ := Returns.of_bind h
  have heng := (Prod.mk.inj (Option.some.inj h)).1
  subst heng
  exact fun i hvalid => save_active_saved hbare hsave i hvalid

theorem patch_saved (hsaved : Saved eng) (h : eng.patch_cursors_only presets buf info state = some (eng', buf')) :
    Saved eng' := by
  obtain ⟨⟨restored, out⟩, hrestore, h⟩ := Returns.of_bind h
  exact prime_saved (restore_active_bare hsaved hrestore) h

end Saves

/-! ## What a frame owes -/

/-- The flags, by what they stand for. -/
inductive Region
  | screen
  | chrome
  | body
  | status

def UiState.dirty (state : UiState) : Region → Bool
  | .screen => state.content_dirty
  | .chrome => state.chrome_only_dirty
  | .body => state.browser_body_dirty
  | .status => state.status_dirty

/-- The screens with tabs, a bar and a status line. -/
def UiState.has_chrome (state : UiState) : Prop :=
  state.screen ≠ .EpilepsyWarning ∧ state.screen ≠ .CaliforniaAgeNotice ∧ state.browser_bios_fullpage = false

instance (state : UiState) : Decidable state.has_chrome := by unfold UiState.has_chrome; infer_instance

/-- What a screen shows of a region: nothing, or what these procedures draw. -/
def UiState.shown (state : UiState) : Region → List Draw
  | .chrome => if state.has_chrome then .chrome_and_tabs :: state.top_bar else []
  | .body => if state.screen = .Browser then [.browser_body] else []
  | .status => if state.has_chrome then [.status_line] else []
  | .screen =>
    if state.screen = .EpilepsyWarning then [.epilepsy_warning]
    else if state.screen = .CaliforniaAgeNotice then [.california_age_notice]
    else (if state.has_chrome then .chrome_and_tabs :: state.top_bar ++ [.status_line] else []) ++ state.body

/-- Whatever is drawn is drawn while no save is valid, with the cursors still to be saved
and drawn. `run` does an action. -/
def DrawnBare (run : Engine × Bytes → Action → Option (Engine × Bytes)) : List Action → Engine × Bytes → Prop
  | [], _ => True
  | a :: as, s =>
    (∀ d, a = .draw d → Bare s.1.slots ∧ .prime_cursors ∈ as) ∧
      (a = .prime_cursors ∨ a = .patch_cursors_only → as = []) ∧ ∀ s', run s a = some s' → DrawnBare run as s'

/-- A frame as it should be. -/
structure Gui.Sound (paint : UiState → Draw → Bytes → Bytes) (presets : Nat → Bytes) (info : FrameBufferInfo)
    (g : Gui) : Prop where
  on_screen : .draw .browser_body ∈ (render_frame g.ui g.eng).actions → g.ui.screen = .Browser
  cleared : ∀ r, g.ui.dirty r = true → (render_frame g.ui g.eng).state.dirty r = false →
    ∀ d ∈ g.ui.shown r, .draw d ∈ (render_frame g.ui g.eng).actions
  bare : DrawnBare (Action.run (paint g.ui) presets info g.ui.cursors) (render_frame g.ui g.eng).actions (g.eng, g.buf)

/-- A page has come in while the browser is not shown, and nothing asks for more than the page. -/
def UiState.BodyElsewhere (state : UiState) : Prop :=
  state.browser_body_dirty = true ∧ state.content_dirty = false ∧ state.chrome_only_dirty = false ∧
    state.screen ≠ .Browser

/-! ## The shape of a frame -/

/-- What a frame does around its drawing. -/
def Draws (as : List Action) (ds : List Draw) : Prop :=
  ∃ front back : List Action, as = front ++ (ds.map .draw ++ back) ∧
    (front = [.invalidate_all_saves] ∨ front = [.restore_active, .invalidate_all_saves] ∨ front = [.restore_active]) ∧
    (back = [.prime_cursors] ∨ back = [.invalidate_all_saves, .prime_cursors])

/-- A frame draws, or it leaves the screen to the cursors. -/
def Shape (as : List Action) (ds : List Draw) : Prop :=
  ds = [] ∧ (as = [] ∨ as = [.patch_cursors_only]) ∨ Draws as ds

theorem Shape.mem_iff {as : List Action} {ds : List Draw} (h : Shape as ds) (d : Draw) : .draw d ∈ as ↔ d ∈ ds := by
  rcases h with ⟨rfl, rfl | rfl⟩ | ⟨front, back, rfl, hfront, hback⟩
  · simp
  · simp
  · have hf : Action.draw d ∉ front := by
      rcases hfront with rfl | rfl | rfl <;> simp
    have hb : Action.draw d ∉ back := by
      rcases hback with rfl | rfl <;> simp
    rw [List.mem_append, List.mem_append, List.mem_map]
    constructor
    · rintro (h | ⟨d', hd', h⟩ | h)
      · exact absurd h hf
      · exact Action.draw.inj h ▸ hd'
      · exact absurd h hb
    · intro hd
      exact .inr (.inl ⟨d, hd, rfl⟩)

section Shapes

variable {paint : Draw → Bytes → Bytes} {presets : Nat → Bytes} {info : FrameBufferInfo} {state : Cursors}
  {s s' : Engine × Bytes} {as : List Action} {ds : List Draw}

theorem drawn_bare_one (a : Action) (hdraw : ∀ d, a ≠ .draw d) (hlast : a ≠ .prime_cursors ∧ a ≠ .patch_cursors_only)
    (h : ∀ s', Action.run paint presets info state s a = some s' → DrawnBare (Action.run paint presets info state) as s') :
    DrawnBare (Action.run paint presets info state) (a :: as) s :=
  ⟨fun d hd => absurd hd (hdraw d), fun ha => absurd ha (not_or.mpr hlast), h⟩

/-- Procedures that draw, over a screen without cursors. -/
theorem drawn_bare_draws (hbare : Bare s.1.slots) (hprime : .prime_cursors ∈ as)
    (h : ∀ s', s'.1 = s.1 → DrawnBare (Action.run paint presets info state) as s') :
    DrawnBare (Action.run paint presets info state) (ds.map .draw ++ as) s := by
  induction ds generalizing s with
  | nil => exact h s rfl
  | cons d ds ih =>
    refine ⟨fun _ _ => ⟨hbare, List.mem_append_right _ hprime⟩, ?_, ?_⟩
    · rintro (hd | hd) <;> cases hd
    · intro s' hs'
      have hs := Option.some.inj hs'
      subst hs
      exact ih hbare h

theorem invalidate_bare (eng : Engine) : Bare eng.invalidate_all_saves.slots := fun _ => rfl

/-- The restores of a frame. -/
theorem run_restore_bare (hsaved : Saved s.1.slots)
    (h : Action.run paint presets info state s .restore_active = some s') : Bare s'.1.slots := by
  obtain ⟨r, hr, hs'⟩ := Option.map_eq_some_iff.mp h
  subst hs'
  exact restore_active_bare hsaved hr

theorem drawn_bare_back (hback : as = [.prime_cursors] ∨ as = [.invalidate_all_saves, .prime_cursors]) :
    DrawnBare (Action.run paint presets info state) as s := by
  have hprime : ∀ s, DrawnBare (Action.run paint presets info state) [.prime_cursors] s := by
    intro s
    refine ⟨?_, fun _ => rfl, fun _ _ => trivial⟩
    rintro d hd
    cases hd
  rcases hback with rfl | rfl
  · exact hprime s
  · exact drawn_bare_one _ (by simp) (by simp) fun s' _ => hprime s'

/-- **A frame draws over no cursor.** -/
theorem Shape.drawn_bare (h : Shape as ds) (hsaved : Saved s.1.slots) :
    DrawnBare (Action.run paint presets info state) as s := by
  rcases h with ⟨-, rfl | rfl⟩ | ⟨front, back, rfl, hfront, hback⟩
  · trivial
  · refine ⟨?_, fun _ => rfl, fun _ _ => trivial⟩
    rintro d hd
    cases hd
  · have hprime : .prime_cursors ∈ back := by
      rcases hback with rfl | rfl <;> simp
    have hdraws : ∀ s : Engine × Bytes, Bare s.1.slots →
        DrawnBare (Action.run paint presets info state) (ds.map .draw ++ back) s :=
      fun s hbare => drawn_bare_draws hbare hprime fun s' _ => drawn_bare_back hback
    rcases hfront with rfl | rfl | rfl
    · refine drawn_bare_one _ (by simp) (by simp) fun s' hs' => ?_
      have hs := Option.some.inj hs'
      subst hs
      exact hdraws _ (invalidate_bare s.1)
    · refine drawn_bare_one _ (by simp) (by simp) fun t _ => ?_
      refine drawn_bare_one _ (by simp) (by simp) fun s' hs' => ?_
      have hs := Option.some.inj hs'
      subst hs
      exact hdraws _ (invalidate_bare t.1)
    · exact drawn_bare_one _ (by simp) (by simp) fun s' hs' => hdraws _ (run_restore_bare hsaved hs')

/-- Without cursors a screen stays so until they are drawn. -/
theorem run_action_bare {a : Action} (ha : a ≠ .prime_cursors ∧ a ≠ .patch_cursors_only)
    (h : Action.run paint presets info state s a = some s') (hbare : Bare s.1.slots) : Bare s'.1.slots := by
  cases a with
  | restore_active => exact run_restore_bare hbare.saved h
  | invalidate_all_saves => exact Option.some.inj h ▸ invalidate_bare s.1
  | draw d => exact Option.some.inj h ▸ hbare
  | prime_cursors => exact absurd rfl ha.1
  | patch_cursors_only => exact absurd rfl ha.2

theorem run_front_bare
    (hfront : as = [.invalidate_all_saves] ∨ as = [.restore_active, .invalidate_all_saves] ∨ as = [.restore_active])
    (h : run_actions paint presets info state as s = some s') (hsaved : Saved s.1.slots) : Bare s'.1.slots := by
  rcases hfront with rfl | rfl | rfl
  · exact Option.some.inj h ▸ invalidate_bare s.1
  · obtain ⟨t, -, ht⟩ := Returns.of_bind h
    exact Option.some.inj ht ▸ invalidate_bare t.1
  · obtain ⟨t, ht, hs'⟩ := Returns.of_bind h
    exact Option.some.inj hs' ▸ run_restore_bare hsaved ht

theorem run_back_saved (hback : as = [.prime_cursors] ∨ as = [.invalidate_all_saves, .prime_cursors])
    (h : run_actions paint presets info state as s = some s') (hbare : Bare s.1.slots) : Saved s'.1.slots := by
  have hprime : ∀ s s' : Engine × Bytes, Action.run paint presets info state s .prime_cursors = some s' →
      Bare s.1.slots → Saved s'.1.slots := by
    intro s s' h hbare
    obtain ⟨r, hr, hs'⟩ := Option.map_eq_some_iff.mp h
    subst hs'
    exact prime_saved hbare hr
  rcases hback with rfl | rfl
  · obtain ⟨t, ht, hs'⟩ := Returns.of_bind h
    exact Option.some.inj hs' ▸ hprime s t ht hbare
  · obtain ⟨t, ht, h⟩ := Returns.of_bind h
    obtain ⟨u, hu, hs'⟩ := Returns.of_bind h
    exact Option.some.inj hs' ▸ hprime t u hu (Option.some.inj ht ▸ invalidate_bare s.1)

/-- A frame leaves the saves of the cursors it has drawn. -/
theorem Shape.saved (hshape : Shape as ds) (h : run_actions paint presets info state as s = some s')
    (hsaved : Saved s.1.slots) : Saved s'.1.slots := by
  rcases hshape with ⟨-, rfl | rfl⟩ | ⟨front, back, rfl, hfront, hback⟩
  · exact Option.some.inj h ▸ hsaved
  · obtain ⟨t, ht, hs'⟩ := Returns.of_bind h
    obtain ⟨r, hr, ht⟩ := Option.map_eq_some_iff.mp ht
    subst ht
    exact Option.some.inj hs' ▸ patch_saved hsaved hr
  · unfold run_actions at h
    rw [List.foldlM_append] at h
    obtain ⟨t, ht, h⟩ := Returns.of_bind h
    rw [List.foldlM_append] at h
    obtain ⟨u, hu, h⟩ := Returns.of_bind h
    refine run_back_saved hback h ?_
    -- the procedures that draw do not know of the engine
    have hdraws : ∀ s (d : Draw) s', Action.run paint presets info state s (.draw d) = some s' →
        Bare s.1.slots → Bare s'.1.slots := fun s d s' => run_action_bare (by simp)
    rw [List.foldlM_map] at hu
    exact foldlM_keeps hdraws hu (run_front_bare hfront ht hsaved)

end Shapes

/-! ## The frames of the source -/

section Frames

variable {paint : UiState → Draw → Bytes → Bytes} {presets : Nat → Bytes} {info : FrameBufferInfo} {g g' : Gui}
  {state : UiState} {eng : Engine}

/-- Where the page is drawn it is shown, and in the first way everything is. -/
theorem paint_ui_spec (state : UiState) :
    (.browser_body ∈ state.paint_ui → state.screen = .Browser) ∧ ∀ r, ∀ d ∈ state.shown r, d ∈ state.paint_ui := by
  obtain ⟨screen, full, content, chrome, body, status, cursors⟩ := state
  refine ⟨?_, fun r => ?_⟩
  · cases screen <;> cases full <;>
      simp [UiState.paint_ui, UiState.top_bar, UiState.body, UiState.browser_bios_fullpage]
  · cases screen <;> cases full <;> cases r <;>
      simp [UiState.paint_ui, UiState.shown, UiState.has_chrome, UiState.top_bar, UiState.body,
        UiState.browser_bios_fullpage]

/-- The second way draws the page when it has changed. -/
theorem paint_chrome_spec (state : UiState) :
    (.browser_body ∈ state.paint_chrome → state.screen = .Browser) ∧
      ∀ r, r ≠ .screen → (r = .body → state.browser_body_dirty = true) →
        ∀ d ∈ state.shown r, d ∈ state.paint_chrome := by
  obtain ⟨screen, full, content, chrome, body, status, cursors⟩ := state
  refine ⟨?_, fun r => ?_⟩
  · cases screen <;> cases full <;> simp [UiState.paint_chrome, UiState.top_bar, UiState.browser_bios_fullpage]
  · cases screen <;> cases full <;> cases r <;>
      simp [UiState.paint_chrome, UiState.shown, UiState.has_chrome, UiState.top_bar, UiState.browser_bios_fullpage]

/-- The third way draws the page, and the status line when it clears its flag. -/
theorem paint_body_spec (state : UiState) :
    (∀ d ∈ state.shown .body, d ∈ state.paint_body) ∧
      (state.with_strip = true → ∀ d ∈ state.shown .status, d ∈ state.paint_body) := by
  unfold UiState.paint_body UiState.shown
  constructor
  · split_ifs <;> simp
  · intro hstrip
    split_ifs <;> simp [redraw_status_strip]

theorem restore_if_initialized_front (eng : Engine) :
    eng.restore_if_initialized ++ [.invalidate_all_saves] = [.invalidate_all_saves] ∨
      eng.restore_if_initialized ++ [.invalidate_all_saves] = [.restore_active, .invalidate_all_saves] := by
  unfold Engine.restore_if_initialized
  split_ifs
  · exact .inr rfl
  · exact .inl rfl

/-- **What a frame draws**: what the cleared flags stand for, and the page of the browser
where it is shown, or where nothing looked at the screen. -/
theorem render_frame_spec (state : UiState) (eng : Engine) :
    ∃ ds, Shape (render_frame state eng).actions ds ∧
      (∀ r, state.dirty r = true → (render_frame state eng).state.dirty r = false → ∀ d ∈ state.shown r, d ∈ ds) ∧
      (.browser_body ∈ ds → state.screen = .Browser ∨ state.BodyElsewhere) ∧
      (state.BodyElsewhere → .browser_body ∈ ds) := by
  unfold render_frame
  split_ifs with hquiet hcontent hchrome hbody hstatus hbare
  · -- nothing has changed
    refine ⟨[], .inl ⟨rfl, .inl rfl⟩, ?_, ?_, ?_⟩
    · intro r hr hr'
      exact absurd (hr.symm.trans hr') (by simp)
    · intro h
      cases h
    · intro h
      simp [h.1] at hquiet
  · refine ⟨state.paint_ui, .inr ⟨[.invalidate_all_saves], [.prime_cursors], rfl, .inl rfl, .inl rfl⟩, ?_, ?_, ?_⟩
    · exact fun r _ _ => (paint_ui_spec state).2 r
    · exact fun h => .inl ((paint_ui_spec state).1 h)
    · exact fun h => absurd (hcontent.symm.trans h.2.1) (by simp)
  · refine ⟨state.paint_chrome, .inr ⟨_, [.prime_cursors], ?_, (restore_if_initialized_front eng).imp_right .inl,
      .inl rfl⟩, ?_, ?_, ?_⟩
    · simp
    · intro r hr hr'
      refine (paint_chrome_spec state).2 r ?_ ?_
      · rintro rfl
        exact absurd (hr.symm.trans hr') (by simp)
      · rintro rfl
        exact hr
    · exact fun h => .inl ((paint_chrome_spec state).1 h)
    · exact fun h => absurd (hchrome.symm.trans h.2.2.1) (by simp)
  · refine ⟨state.paint_body, .inr ⟨_, [.prime_cursors], ?_, (restore_if_initialized_front eng).imp_right .inl,
      .inl rfl⟩, ?_, ?_, ?_⟩
    · simp
    · intro r hr hr'
      cases r with
      | screen => exact absurd hr hcontent
      | chrome => exact absurd hr hchrome
      | body => exact (paint_body_spec state).1
      | status =>
        have hstatus : state.status_dirty = true := hr
        have hleft : (state.status_dirty && !state.with_strip) = false := hr'
        rw [hstatus, Bool.true_and, Bool.not_eq_false'] at hleft
        exact (paint_body_spec state).2 hleft
    · intro h
      by_cases hscreen : state.screen = .Browser
      · exact .inl hscreen
      · exact .inr ⟨hbody, by simpa using hcontent, by simpa using hchrome, hscreen⟩
    · exact fun _ => List.mem_cons_self
  · refine ⟨[], .inl ⟨rfl, .inr rfl⟩, ?_, ?_, ?_⟩
    · intro r hr hr'
      cases r with
      | status =>
        -- nothing of the screen is a status line
        have hnone : ¬ state.has_chrome := fun h =>
          hbare.elim (fun hf => absurd (hf.symm.trans h.2.2) (by simp)) (fun hs => hs.elim h.1 h.2.1)
        simp [UiState.shown, hnone]
      | screen => exact absurd hr hcontent
      | chrome => exact absurd hr hchrome
      | body => exact absurd hr hbody
    · intro h
      cases h
    · exact fun h => absurd h.1 hbody
  · refine ⟨redraw_status_strip, .inr ⟨[.restore_active], [.invalidate_all_saves, .prime_cursors], rfl,
      .inr (.inr rfl), .inr rfl⟩, ?_, ?_, ?_⟩
    · intro r hr hr'
      cases r with
      | status =>
        unfold UiState.shown redraw_status_strip
        split_ifs <;> simp
      | screen => exact absurd hr hcontent
      | chrome => exact absurd hr hchrome
      | body => exact absurd hr hbody
    · exact fun h => absurd h (by decide)
    · exact fun h => absurd h.1 hbody
  · refine ⟨[], .inl ⟨rfl, .inr rfl⟩, ?_, ?_, ?_⟩
    · exact fun r hr hr' => absurd (hr.symm.trans hr') (by simp)
    · intro h
      cases h
    · exact fun h => absurd h.1 hbody

/-- A frame over saves of the cursors on the screen is sound where it draws no page
elsewhere. -/
theorem frame_sound_iff (hsaved : Saved g.eng.slots) : g.Sound paint presets info ↔ ¬ g.ui.BodyElsewhere := by
  obtain ⟨ds, hshape, hcleared, hbody, helse⟩ := render_frame_spec g.ui g.eng
  constructor
  · intro h helsewhere
    exact helsewhere.2.2.2 (h.on_screen ((hshape.mem_iff _).mpr (helse helsewhere)))
  · intro h
    refine ⟨?_, ?_, hshape.drawn_bare hsaved⟩
    · intro hdraw
      exact (hbody ((hshape.mem_iff _).mp hdraw)).resolve_right h
    · intro r hr hr' d hd
      exact (hshape.mem_iff d).mpr (hcleared r hr hr' d hd)

end Frames

/-! ## Sessions -/

section Sessions

variable {paint : UiState → Draw → Bytes → Bytes} {presets : Nat → Bytes} {info : FrameBufferInfo} {g g' : Gui}

/-- What happens between frames does not touch the cursors on the screen, and a frame
leaves its own ones. -/
theorem step_saved {e : Event} (h : g.step paint presets info e = some g') (hsaved : Saved g.eng.slots) :
    Saved g'.eng.slots := by
  cases e with
  | frame =>
    obtain ⟨s, hs, hg'⟩ := Option.map_eq_some_iff.mp h
    obtain ⟨ds, hshape, -⟩ := render_frame_spec g.ui g.eng
    have hsaved' := hshape.saved hs hsaved
    subst hg'
    exact hsaved'
  | switched screen => exact Option.some.inj h ▸ hsaved
  | full_page on => exact Option.some.inj h ▸ hsaved
  | typed => exact Option.some.inj h ▸ hsaved
  | fetched => exact Option.some.inj h ▸ hsaved
  | status => exact Option.some.inj h ▸ hsaved
  | cursors state => exact Option.some.inj h ▸ hsaved

/-- **When all frames of a session are sound**: when none of them finds a new page, and
nothing else to paint, on a screen other than the browser. -/
theorem frames_sound_iff (paint : UiState → Draw → Bytes → Bytes) (presets : Nat → Bytes) (info : FrameBufferInfo)
    (start : UiState) (buf : Bytes) (es : List Event) :
    Along (session_step paint presets info)
        (fun s e => ∀ g, s = some g → e = .frame → g.Sound paint presets info)
        (some ⟨start, .static_initial, buf⟩) es ↔
      Along (session_step paint presets info) (fun s e => ∀ g, s = some g → e = .frame → ¬ g.ui.BodyElsewhere)
        (some ⟨start, .static_initial, buf⟩) es := by
  refine along_iff_of_invariant (I := fun s : Option Gui => ∀ g, s = some g → Saved g.eng.slots) ?_ ?_ ?_ es
  · intro s e hs
    refine forall_congr' fun g => ?_
    refine ⟨fun h hg he => (frame_sound_iff (hs g hg)).mp (h hg he), fun h hg he => ?_⟩
    exact (frame_sound_iff (hs g hg)).mpr (h hg he)
  · intro s e hs _ g' hg'
    obtain ⟨g, rfl, hstep⟩ := Option.bind_eq_some_iff.mp hg'
    exact step_saved hstep (hs g rfl)
  · rintro g hg
    obtain rfl := Option.some.inj hg
    intro i hvalid
    cases hvalid

/-- A machine without cursors, behind the notices. -/
def BOOTED : UiState := ⟨.Browser, true, true, false, false, true, ⟨fun _ => 0, fun _ => 0, fun _ => false, 0⟩⟩

/-- A page that comes in while the log is shown is drawn over the log. -/
theorem page_over_the_log :
    ¬ Along (session_step (fun _ _ buf => buf) (fun _ => []) ⟨1, 1, 1, .U8, 1⟩)
      (fun s e => ∀ g, s = some g → e = .frame → g.Sound (fun _ _ buf => buf) (fun _ => []) ⟨1, 1, 1, .U8, 1⟩)
      (some ⟨BOOTED, .static_initial, [0]⟩) [.frame, .switched .Log, .frame, .fetched, .frame] := by
  intro h
  have hrun : (run (session_step (fun _ _ buf => buf) (fun _ => []) ⟨1, 1, 1, .U8, 1⟩)
      (some ⟨BOOTED, .static_initial, [0]⟩) [.frame, .switched .Log, .frame, .fetched]).map (fun g =>
        (g.ui.screen, g.ui.browser_body_dirty, g.ui.content_dirty, g.ui.chrome_only_dirty)) =
      some (.Log, true, false, false) := by decide
  obtain ⟨g, hg, hui⟩ := Option.map_eq_some_iff.mp hrun
  obtain ⟨hscreen, hbody, hcontent, hchrome⟩ : g.ui.screen = .Log ∧ g.ui.browser_body_dirty = true ∧
      g.ui.content_dirty = false ∧ g.ui.chrome_only_dirty = false := by
    simpa only [Prod.mk.injEq] using hui
  have hsplit := (along_append _ _ _ [Event.frame, .switched .Log, .frame, .fetched] [.frame]).mp h
  have hframe := hsplit.2.1 g hg rfl
  obtain ⟨ds, hshape, -, -, helse⟩ := render_frame_spec g.ui g.eng
  have hdrawn : .browser_body ∈ ds := helse ⟨hbody, hcontent, hchrome, by rw [hscreen]; decide⟩
  have hon := hframe.on_screen ((hshape.mem_iff _).mpr hdrawn)
  rw [hscreen] at hon
  cases hon

end Sessions

end EveOS.Gfx
