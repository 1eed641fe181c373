/-
A frame: `render_frame` of `kernel/src/gfx.rs`.

Four flags say what has changed since the frame before, and choose one of four ways to
paint: the whole screen, what stands around the page, the page, or the status line. With
no flag set only the cursors move. Which procedures draw, and in which order they come
among the operations on the cursors, depends on the flags and the screen alone, so a
frame is a list of actions here. What the procedures draw is a parameter.
-/
import EveOS.Gfx.CursorFrames

set_option autoImplicit false

namespace EveOS.Gfx

inductive Screen
  | EpilepsyWarning
  | CaliforniaAgeNotice
  | Browser
  | Settings
  | DiskInstall
  | Log
  deriving DecidableEq

/-- What `render_frame` reads of the state and writes to it. -/
structure UiState where
  screen : Screen
  bios_fullpage_browser : Bool
  content_dirty : Bool
  chrome_only_dirty : Bool
  browser_body_dirty : Bool
  status_dirty : Bool
  cursors : Cursors

def UiState.browser_bios_fullpage (state : UiState) : Bool :=
  state.screen = .Browser && state.bios_fullpage_browser

/-- `CursorEngine` with the fields that `Cursors` leaves out. -/
structure Engine where
  slots : CursorEngine
  last_x : Fin MAX_CURSORS → Int32
  last_y : Fin MAX_CURSORS → Int32
  initialized : Bool

def Engine.static_initial : Engine := ⟨CursorEngine.static_initial, fun _ => 0, fun _ => 0, false⟩

def Engine.any_cursor_moved (eng : Engine) (state : Cursors) : Bool :=
  (List.finRange MAX_CURSORS).any fun i =>
    state.cursor_active i != (eng.slots i).last_active ||
      (state.cursor_active i && (state.cursor_x i != eng.last_x i || state.cursor_y i != eng.last_y i))

/-! ## Actions -/

/-- The procedures that draw, under their names. `fill_status` is the `fill_rect` of
`redraw_status_strip`. -/
inductive Draw
  | clear
  | epilepsy_warning
  | california_age_notice
  | chrome_and_tabs
  | install_top_strip
  | url_bar
  | browser_body
  | settings_body
  | disk_install_body
  | log_body
  | fill_status
  | status_line
  deriving DecidableEq

/-- `restore_active` is the loop over `restore_one`. -/
inductive Action
  | restore_active
  | invalidate_all_saves
  | draw (d : Draw)
  | prime_cursors
  | patch_cursors_only
  deriving DecidableEq

/-- The strip under the tabs. -/
def UiState.top_bar (state : UiState) : List Draw :=
  match state.screen with
  | .EpilepsyWarning | .CaliforniaAgeNotice => []
  | .DiskInstall => [.install_top_strip]
  | _ => [.url_bar]

def UiState.body (state : UiState) : List Draw :=
  match state.screen with
  | .EpilepsyWarning | .CaliforniaAgeNotice => []
  | .Browser => [.browser_body]
  | .Settings => [.settings_body]
  | .DiskInstall => [.disk_install_body]
  | .Log => [.log_body]

def UiState.paint_ui (state : UiState) : List Draw :=
  if state.screen = .EpilepsyWarning then [.epilepsy_warning]
  else if state.screen = .CaliforniaAgeNotice then [.california_age_notice]
  else if state.browser_bios_fullpage then [.clear, .browser_body]
  else [.clear, .chrome_and_tabs] ++ state.top_bar ++ state.body ++ [.status_line]

/-- What the second way paints. -/
def UiState.paint_chrome (state : UiState) : List Draw :=
  if state.screen = .EpilepsyWarning then [.epilepsy_warning]
  else if state.screen = .CaliforniaAgeNotice then [.california_age_notice]
  else if state.browser_bios_fullpage then [.clear, .browser_body]
  else
    .chrome_and_tabs :: state.top_bar ++ [.status_line] ++
      (if state.screen = .Browser ∧ state.browser_body_dirty then [.browser_body] else [])

def redraw_status_strip : List Draw := [.fill_status, .status_line]

/-- The third way paints the status line too. -/
def UiState.with_strip (state : UiState) : Bool := state.status_dirty && !state.browser_bios_fullpage

/-- What the third way paints. It does not look at the screen. -/
def UiState.paint_body (state : UiState) : List Draw :=
  .browser_body :: if state.with_strip then redraw_status_strip else []

/-- What a frame does, and what it leaves. -/
structure Frame where
  actions : List Action
  state : UiState
  initialized : Bool

/-- Cursors that may be on the screen are taken off it. -/
def Engine.restore_if_initialized (eng : Engine) : List Action := if eng.initialized then [.restore_active] else []

def render_frame (state : UiState) (eng : Engine) : Frame :=
  if eng.initialized && !state.content_dirty && !state.chrome_only_dirty && !state.browser_body_dirty &&
      !state.status_dirty && !eng.any_cursor_moved state.cursors then
    ⟨[], state, eng.initialized⟩
  else if state.content_dirty then
    ⟨.invalidate_all_saves :: state.paint_ui.map .draw ++ [.prime_cursors],
      { state with
        content_dirty := false, chrome_only_dirty := false, browser_body_dirty := false, status_dirty := false },
      true⟩
  else if state.chrome_only_dirty then
    ⟨eng.restore_if_initialized ++ .invalidate_all_saves :: state.paint_chrome.map .draw ++ [.prime_cursors],
      { state with chrome_only_dirty := false, browser_body_dirty := false, status_dirty := false }, true⟩
  else if state.browser_body_dirty then
    ⟨eng.restore_if_initialized ++ .invalidate_all_saves :: state.paint_body.map .draw ++ [.prime_cursors],
      { state with browser_body_dirty := false, status_dirty := state.status_dirty && !state.with_strip }, true⟩
  else if state.status_dirty then
    if state.browser_bios_fullpage ∨ state.screen = .EpilepsyWarning ∨ state.screen = .CaliforniaAgeNotice then
      ⟨[.patch_cursors_only], { state with status_dirty := false }, eng.initialized⟩
    else
      ⟨.restore_active :: redraw_status_strip.map .draw ++ [.invalidate_all_saves, .prime_cursors],
        { state with status_dirty := false }, eng.initialized⟩
  else ⟨[.patch_cursors_only], state, eng.initialized⟩

/-! ## What the actions do -/

section Actions

variable (paint : Draw → Bytes → Bytes) (presets : Nat → Bytes) (info : FrameBufferInfo) (state : Cursors)

/-- A call that draws the cursors and remembers where. -/
def Engine.drawn (eng : Engine) (r : CursorEngine × Bytes) : Engine × Bytes :=
  ({ eng with slots := r.1, last_x := state.cursor_x, last_y := state.cursor_y }, r.2)

def Engine.invalidate_all_saves (eng : Engine) : Engine :=
  { eng with slots := fun i => { eng.slots i with save_valid := false } }

/-- An action on the engine and the screen. -/
def Action.run (s : Engine × Bytes) : Action → Option (Engine × Bytes)
  | .restore_active => (s.1.slots.restore_active s.2 info).map fun r => ({ s.1 with slots := r.1 }, r.2)
  | .invalidate_all_saves => some (s.1.invalidate_all_saves, s.2)
  | .draw d => some (s.1, paint d s.2)
  | .prime_cursors => (s.1.slots.prime_cursors presets s.2 info state).map (s.1.drawn state)
  | .patch_cursors_only => (s.1.slots.patch_cursors_only presets s.2 info state).map (s.1.drawn state)

def run_actions (as : List Action) (s : Engine × Bytes) : Option (Engine × Bytes) :=
  as.foldlM (Action.run paint presets info state) s

end Actions

/-! ## Sessions -/

structure Gui where
  ui : UiState
  eng : Engine
  buf : Bytes

/-- What happens between two frames, and the frame. Whoever changes the screen or the
mode of the browser asks for a full paint. -/
inductive Event
  | switched (screen : Screen)
  | full_page (on : Bool)
  | typed
  | fetched
  | status
  | cursors (state : Cursors)
  | frame

section Session

variable (paint : UiState → Draw → Bytes → Bytes) (presets : Nat → Bytes) (info : FrameBufferInfo)

/-- The cursor engine can stop the machine. -/
def Gui.frame (g : Gui) : Option Gui :=
  let f := render_frame g.ui g.eng
  (run_actions (paint g.ui) presets info g.ui.cursors f.actions (g.eng, g.buf)).map fun s =>
    ⟨f.state, { s.1 with initialized := f.initialized }, s.2⟩

def Gui.step (g : Gui) : Event → Option Gui
  | .switched screen => some { g with ui := { g.ui with screen := screen, content_dirty := true } }
  | .full_page on => some { g with ui := { g.ui with bios_fullpage_browser := on, content_dirty := true } }
  | .typed => some { g with ui := { g.ui with chrome_only_dirty := true } }
  | .fetched => some { g with ui := { g.ui with browser_body_dirty := true } }
  | .status => some { g with ui := { g.ui with status_dirty := true } }
  | .cursors state => some { g with ui := { g.ui with cursors := state } }
  | .frame => g.frame paint presets info

/-- A session. The machine that has stopped stays so. -/
def session_step (s : Option Gui) (e : Event) : Option Gui := s.bind fun g => g.step paint presets info e

end Session

end EveOS.Gfx
