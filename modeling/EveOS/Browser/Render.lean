/-
When the browser shows a page: the network part of the main loop of
`kernel/src/main.rs`, from `start_browser_fetch` to the block behind
`fetch_settled`.

A fetch that is over is shown when four fields of the network stack differ from
the copies the loop keeps of them. One copy is not a copy: for a page it says that
the network or the renderer cut it, for an error it says that nothing was cut. Where
that differs from what the network says, the page is shown again in every frame.
-/
import EveOS.Html.Rendering
import EveOS.Net.Settled
import EveOS.Settings.Persist

set_option autoImplicit false

namespace EveOS.Browser

open Net Html
open Settings (DisplayTheme DEFAULT_HOME_URL)

/-! ## The state -/

/-- What the browser shows. -/
inductive Shown
  /-- `format_document` and `run_page_eve_script` on the bytes of the page. -/
  | page (raw : Bytes)
  | error (msg : Bytes)
  deriving DecidableEq

/-- What a frame finds in the network stack. -/
structure View where
  phase : NetPhase
  settled : Settled
  deriving DecidableEq

/-- What was shown since the fetch was started, and what the last frame found. -/
structure Track where
  shown : List Shown
  seen : Option View

/-- The network stack with its NIC, and the part of `UiState` that decides what is
shown. `track` is there from the start of a fetch until the settings change, a
reload drops the page, or there is no network. -/
structure World where
  node : Node
  has_net : Bool
  inet_on : Bool
  settings : Settings.DeviceSettings
  url : Bytes
  last_rendered_raw_len : Nat
  last_inet_page_gen : UInt32
  fetch_err : Bytes
  page_truncated : Bool
  browser_line_count : Nat
  mem : RenderMemory
  track : Option Track

/-- The URL at boot. -/
def boot_url (settings : Settings.DeviceSettings) : Bytes :=
  let hl := settings.home_url_len.toNat
  if 0 < hl ∧ hl ≤ settings.home_url.toList.length then settings.home_url.toList.take hl
  else DEFAULT_HOME_URL

def World.boot (env : Env) (has_net : Bool) (vio : AnyNic) (settings : Settings.DeviceSettings)
    (mem : RenderMemory) : World where
  node :=
    (if has_net then NetStack.static_initial.seed_from_mac env.our_mac else .static_initial, vio)
  has_net := has_net
  inet_on := false
  settings := settings
  url := boot_url settings
  last_rendered_raw_len := USIZE_MAX
  last_inet_page_gen := 0
  fetch_err := []
  page_truncated := false
  browser_line_count := 0
  mem := mem
  track := none

/-! ## Showing a page -/

/-- `ui_palette().text_primary`. -/
def text_primary : DisplayTheme → Rgb
  | .Light => (0x22, 0x22, 0x22)
  | .Dark => (0xe8, 0xec, 0xf0)

def World.text_rgb (w : World) : Rgb := text_primary w.settings.display_theme

/-- `html::format_document` into the state, and `html_trunc`. It always returns
(`format_document_returns`). -/
def World.format (w : World) (raw : Bytes) : World × Bool :=
  match format_document w.mem raw w.text_rgb with
  | none => (w, false)
  | some (mem, out) => ({ w with mem := mem, browser_line_count := out.line_count }, out.html_truncated)

def World.note (w : World) (s : Shown) : World :=
  { w with track := w.track.map fun t => { t with shown := t.shown ++ [s] } }

/-- The bytes of the page that are rendered. -/
def World.raw (w : World) : Bytes := w.node.1.page.take PAGE_CAP

/-- The block behind `fetch_settled`. -/
def World.render (w : World) : World :=
  let inet := w.node.1
  let w :=
    { w with
      last_rendered_raw_len := min inet.page.length PAGE_CAP
      last_inet_page_gen := inet.page_gen
      fetch_err := inet.fetch_err.take FETCH_ERR_CAP }
  if inet.fetch_err ≠ [] then
    { w with browser_line_count := 0, page_truncated := false }.note (.error w.fetch_err)
  else
    let (w, html_trunc) := w.format w.raw
    { w with page_truncated := inet.page_truncated || html_trunc }.note (.page w.raw)

/-- The condition in front of it. -/
def World.needs_render (w : World) : Prop :=
  w.node.1.phase = .Done ∧
    (min w.node.1.page.length PAGE_CAP ≠ w.last_rendered_raw_len ∨
      w.node.1.fetch_err.length ≠ w.fetch_err.length ∨
        w.node.1.page_truncated ≠ w.page_truncated ∨ w.node.1.page_gen ≠ w.last_inet_page_gen)

instance (w : World) : Decidable w.needs_render := inferInstanceAs (Decidable (_ ∧ _))

def World.view (w : World) : View := ⟨w.node.1.phase, w.node.1.settled⟩

/-- The frame is over. -/
def World.look (w : World) : World :=
  { w with track := w.track.map fun t => { t with seen := some w.view } }

/-! ## The main loop -/

/-- The page shown for the home URL without a network. -/
def OFFLINE_HOME : Bytes :=
  ascii "<!doctype html><html><body><h1>TempleOS Web Shrine (offline)</h1><p>&#128512; Offline mode</p><p>Network is not active yet.</p><p>When online, the default home is <code>https://alexanderdfox.github.io/TempleOSWebShrine/</code></p><p>Local QEMU demo: host <code>python3 -m http.server 8080 --directory demo/qemu-http-test</code> then <code>http://10.0.2.2:8080/</code></p></body></html>"

def World.show_offline (w : World) (page : Bytes) : World :=
  let (w, html_trunc) := w.format page
  { w with
    fetch_err := []
    page_truncated := html_trunc
    last_rendered_raw_len := page.length
    track := none }

/-- `start_browser_fetch`, behind the history. -/
def World.start_browser_fetch (w : World) : World :=
  if w.url = [] then w
  else if !w.inet_on then
    if 0 < w.settings.home_url_len.toNat ∧ w.url.length = w.settings.home_url_len.toNat ∧
        w.url = w.settings.home_url.toList.take w.settings.home_url_len.toNat then
      w.show_offline OFFLINE_HOME
    else
      { w with
        fetch_err := (ascii "NET OFFLINE").take FETCH_ERR_CAP
        browser_line_count := 0
        page_truncated := false
        track := none }
  else
    { w with
      node := (w.node.1.start_fetch w.url, w.node.2)
      browser_line_count := 0
      last_rendered_raw_len := USIZE_MAX
      track := some ⟨[], none⟩ }

variable (env : Env)

/-- A reload request. -/
def World.reload (w : World) : World :=
  if w.url ≠ [] then w.start_browser_fetch
  else
    let net := w.node.1.reset_demo
    { w with
      node := (if w.has_net then net.seed_from_mac env.our_mac else net, w.node.2)
      browser_line_count := 0
      last_rendered_raw_len := USIZE_MAX
      last_inet_page_gen := 0
      fetch_err := []
      page_truncated := false
      track := none }

/-- `inet.drive`. -/
def World.drive (w : World) (polls : List (Option Bytes)) (script : TlsScript) : World :=
  { w with
    node := (Sys.drive env w.settings.toDeviceSettings script ⟨w.node.1, w.node.2, polls⟩).node }

/-- The network part of a pass. -/
def World.net_frame (w : World) (polls : List (Option Bytes)) (script : TlsScript) : World :=
  if w.inet_on then
    let w := w.drive env polls script
    (if w.needs_render then w.render else w).look
  else w

inductive Event
  /-- The top of the loop. -/
  | top
  | edit (settings : Settings.DeviceSettings)
  | type (url : Bytes)
  | go
  | reload
  | net (polls : List (Option Bytes)) (script : TlsScript)

def World.step (w : World) : Event → World
  | .top =>
    { w with
      inet_on := w.has_net && decide (w.settings.nic ≠ .Off) && w.settings.internet_stack_enabled }
  | .edit settings => { w with settings := settings, track := none }
  | .type url => { w with url := url }
  | .go => w.start_browser_fetch
  | .reload => w.reload env
  | .net polls script => w.net_frame env polls script

/-! ## What is promised -/

/-- What there is to show of a fetch that is over. -/
def World.result (w : World) : Shown :=
  if w.node.1.fetch_err ≠ [] then .error (w.node.1.fetch_err.take FETCH_ERR_CAP) else .page w.raw

/-- After a frame at most one result was shown of the fetch, and the result of this
fetch once the phase is `Done`; a frame that finds what the last one found shows
nothing. -/
def World.ShownOnce (w : World) : Event → Prop
  | .net polls script =>
    w.inet_on = true → ∀ t, w.track = some t →
      let w' := w.step env (.net polls script)
      ∃ t', w'.track = some t' ∧ t'.shown.length ≤ 1 ∧
        (w'.node.1.phase = .Done → t'.shown = [w'.result]) ∧
        (t.seen = some w'.view → t'.shown = t.shown)
  | _ => True

/-- Whether `format_document` cuts the page. -/
def cuts (raw : Bytes) (rgb : Rgb) : Bool :=
  match (if looks_like_html raw then format_html raw rgb else plain_lines raw rgb) with
  | none => false
  | some out => out.html_truncated

/-- The renderer cuts only what the network has cut, and an error comes without a
page that was cut. -/
def World.Plain (w : World) : Prop :=
  if w.node.1.fetch_err = [] then cuts w.raw w.text_rgb = true → w.node.1.page_truncated = true
  else w.node.1.page_truncated = false

instance (w : World) : Decidable w.Plain := by
  unfold World.Plain
  infer_instance

/-- The condition on a frame. -/
def World.FrameOk (w : World) : Event → Prop
  | .net _ _ =>
    w.inet_on = true → w.node.1.DhcpAsked w.settings.toDeviceSettings ∧
      (w.track.isSome = true → w.node.1.fetch_done = true → w.Plain)
  | _ => True

instance (w : World) : (e : Event) → Decidable (w.FrameOk e)
  | .net _ _ => inferInstanceAs (Decidable (_ → _ ∧ (_ → _ → _)))
  | .top | .edit _ | .type _ | .go | .reload => isTrue trivial

/-! ## The renderer -/

variable {env}

/-- `format_document` returns, and cuts the page or not whatever the memory holds. -/
theorem format_document_cuts (mem : RenderMemory) (raw : Bytes) (rgb : Rgb) :
    ∃ mem' out, format_document mem raw rgb = some (mem', out) ∧ out.html_truncated = cuts raw rgb := by
  obtain ⟨⟨mem', out⟩, hformat, -⟩ := format_document_returns mem raw rgb
  refine ⟨mem', out, hformat, ?_⟩
  unfold format_document at hformat
  unfold cuts
  obtain ⟨dom_tree, -, hrest⟩ := Option.bind_eq_some_iff.mp hformat
  obtain ⟨out', hout, hret⟩ := Option.bind_eq_some_iff.mp hrest
  rw [hout]
  cases hret
  rfl

theorem format_eq (w : World) (raw : Bytes) :
    ∃ mem n, w.format raw = ({ w with mem := mem, browser_line_count := n }, cuts raw w.text_rgb) := by
  obtain ⟨mem, out, hformat, hcuts⟩ := format_document_cuts w.mem raw w.text_rgb
  refine ⟨mem, out.line_count, ?_⟩
  unfold World.format
  rw [hformat]
  dsimp only
  rw [hcuts]

/-- What `page_truncated` becomes. -/
def World.merged (w : World) : Bool :=
  if w.node.1.fetch_err ≠ [] then false else w.node.1.page_truncated || cuts w.raw w.text_rgb

/-- **What the block does.** -/
theorem render_eq (w : World) :
    ∃ mem n, w.render =
      { w with
        last_rendered_raw_len := min w.node.1.page.length PAGE_CAP
        last_inet_page_gen := w.node.1.page_gen
        fetch_err := w.node.1.fetch_err.take FETCH_ERR_CAP
        page_truncated := w.merged
        browser_line_count := n
        mem := mem
        track := w.track.map fun t => { t with shown := t.shown ++ [w.result] } } := by
  unfold World.render World.merged World.result
  dsimp only
  by_cases herr : w.node.1.fetch_err ≠ []
  · rw [if_pos herr, if_pos herr, if_pos herr]
    exact ⟨w.mem, 0, rfl⟩
  · rw [if_neg herr, if_neg herr, if_neg herr]
    obtain ⟨mem, n, hformat⟩ := format_eq
      { w with
        last_rendered_raw_len := min w.node.1.page.length PAGE_CAP
        last_inet_page_gen := w.node.1.page_gen
        fetch_err := w.node.1.fetch_err.take FETCH_ERR_CAP } w.raw
    refine ⟨mem, n, ?_⟩
    unfold World.raw at hformat ⊢
    dsimp only at hformat ⊢
    rw [hformat]
    rfl

/-! ## The invariant -/

/-- The copies are those of the result in the network stack, and it was shown. -/
structure World.Shows (w : World) (t : Track) : Prop where
  shown : t.shown = [w.result]
  done : w.node.1.fetch_done = true
  rests : w.node.1.dhcp_active = false
  tag : w.node.1.ip_settings_tag = w.settings.ip_settings_tag
  len : w.last_rendered_raw_len = min w.node.1.page.length PAGE_CAP
  gen : w.last_inet_page_gen = w.node.1.page_gen
  err : w.fetch_err = w.node.1.fetch_err.take FETCH_ERR_CAP
  truncated : w.page_truncated = w.merged

/-- Nothing was shown of the fetch yet. -/
structure World.Waits (w : World) (t : Track) : Prop where
  shown : t.shown = []
  len : w.last_rendered_raw_len = USIZE_MAX
  seen : ∀ v, t.seen = some v → v.phase ≠ .Done

/-- What the network stack keeps by itself. -/
structure NetOk (s : NetStack) : Prop where
  disarmed : s.Disarmed
  doneRests : s.DoneRests
  err : s.fetch_err.length ≤ FETCH_ERR_CAP

structure World.Inv (w : World) : Prop where
  net : NetOk w.node.1
  track : ∀ t, w.track = some t → w.Waits t ∨ w.Shows t

/-! ### The network stack -/

section Network

variable {s : NetStack}

theorem start_fetch_phase (s : NetStack) (url : Bytes) : (s.start_fetch url).phase = s.phase := by
  unfold NetStack.start_fetch
  dsimp only
  split
  · rfl
  · split_ifs <;> rfl

/-- Neither a new fetch nor a reset makes the phase `Done`. -/
theorem doneRests_of_view {t : NetStack} (h : s.DoneRests) (hphase : t.phase = .Done → s.phase = .Done)
    (hview : t.dhcpView = s.dhcpView) : t.DoneRests := by
  intro hdone
  obtain ⟨hrest, hzero⟩ := h (hphase hdone)
  exact ⟨(dhcpView_active hview).trans hrest, (congrArg (fun v => v.addrs.is_our_zero) hview).trans hzero⟩

theorem start_fetch_ok (h : NetOk s) (url : Bytes) : NetOk (s.start_fetch url) where
  disarmed := disarmed_step .qemu (s, .lossless) (.start_fetch url) h.disarmed
  doneRests := doneRests_of_view h.doneRests (fun hdone => (start_fetch_phase s url).symm.trans hdone)
    (start_fetch_dhcpView s url)
  err := err_fits_step .qemu (s, .lossless) (.start_fetch url) h.err

theorem reset_demo_ok (h : NetOk s) : NetOk s.reset_demo where
  disarmed := disarmed_step .qemu (s, .lossless) .reset_demo h.disarmed
  doneRests := nofun
  err := err_fits_step .qemu (s, .lossless) .reset_demo h.err

theorem seed_from_mac_ok (h : NetOk s) (mac : Mac) : NetOk (s.seed_from_mac mac) where
  disarmed := disarmed_step .qemu (s, .lossless) (.seed_from_mac mac) h.disarmed
  doneRests := doneRests_of_view h.doneRests (fun hdone => (seed_from_mac_phase s mac).symm.trans hdone)
    (seed_from_mac_dhcpView s mac)
  err := err_fits_step .qemu (s, .lossless) (.seed_from_mac mac) h.err

/-- A call of `drive`. -/
theorem drive_ok (h : NetOk s) {st : Net.DeviceSettings} (hask : s.DhcpAsked st) (vio : AnyNic)
    (polls : List (Option Bytes)) (script : TlsScript) :
    NetOk (Sys.drive env st script ⟨s, vio, polls⟩).net := by
  have hreach := drive_reaches env st script ⟨s, vio, polls⟩
  refine ⟨?_, ?_, ?_⟩
  · exact Reaches.invariant (I := fun y : Node => y.1.Disarmed) (fun y op hy _ => disarmed_step env y op hy)
      hreach h.disarmed
  · exact fun hphase => (drive_done env vio polls script hask h.doneRests hphase).2
  · exact Reaches.invariant (I := fun y : Node => y.1.fetch_err.length ≤ FETCH_ERR_CAP)
      (fun y op hy _ => err_fits_step env y op hy) hreach h.err

end Network

/-! ### The events -/

section Steps

variable {w : World} {t : Track}

theorem inv_boot (has_net : Bool) (vio : AnyNic) (settings : Settings.DeviceSettings)
    (mem : RenderMemory) : (World.boot env has_net vio settings mem).Inv := by
  have hstart : NetOk .static_initial := ⟨nofun, nofun, Nat.zero_le _⟩
  refine ⟨?_, nofun⟩
  show NetOk (if has_net then NetStack.static_initial.seed_from_mac env.our_mac else .static_initial)
  split_ifs
  · exact seed_from_mac_ok hstart env.our_mac
  · exact hstart

-- for any page: on the page itself the kernel would compute its length
theorem show_offline_keeps (h : w.Inv) (page : Bytes) : (w.show_offline page).Inv := by
  obtain ⟨mem, n, hformat⟩ := format_eq w page
  unfold World.show_offline
  rw [hformat]
  exact ⟨h.net, nofun⟩

theorem start_browser_fetch_keeps (h : w.Inv) : w.start_browser_fetch.Inv := by
  unfold World.start_browser_fetch
  split_ifs
  · exact h
  · exact show_offline_keeps h OFFLINE_HOME
  · exact ⟨h.net, nofun⟩
  · refine ⟨start_fetch_ok h.net w.url, ?_⟩
    intro t ht
    obtain rfl := Option.some.inj ht
    exact .inl ⟨rfl, rfl, nofun⟩

theorem reload_keeps (h : w.Inv) : (w.reload env).Inv := by
  unfold World.reload
  split_ifs
  · exact start_browser_fetch_keeps h
  · refine ⟨?_, nofun⟩
    exact seed_from_mac_ok (reset_demo_ok h.net) env.our_mac
  · exact ⟨reset_demo_ok h.net, nofun⟩

/-- A frame in which the block is skipped. -/
theorem net_frame_skips {polls : List (Option Bytes)} {script : TlsScript} (hon : w.inet_on = true)
    (hneeds : ¬ (w.drive env polls script).needs_render) :
    w.net_frame env polls script = (w.drive env polls script).look := by
  unfold World.net_frame
  rw [if_pos hon]
  exact congrArg World.look (if_neg hneeds)

/-- A frame in which it is not. -/
theorem net_frame_renders {polls : List (Option Bytes)} {script : TlsScript} (hon : w.inet_on = true)
    (hneeds : (w.drive env polls script).needs_render) :
    ∃ mem n, w.net_frame env polls script =
      { w.drive env polls script with
        last_rendered_raw_len := min (w.drive env polls script).node.1.page.length PAGE_CAP
        last_inet_page_gen := (w.drive env polls script).node.1.page_gen
        fetch_err := (w.drive env polls script).node.1.fetch_err.take FETCH_ERR_CAP
        page_truncated := (w.drive env polls script).merged
        browser_line_count := n
        mem := mem
        track := w.track.map fun t =>
          ⟨t.shown ++ [(w.drive env polls script).result], some (w.drive env polls script).view⟩ } := by
  obtain ⟨mem, n, hrender⟩ := render_eq (w.drive env polls script)
  refine ⟨mem, n, ?_⟩
  unfold World.net_frame
  rw [if_pos hon]
  refine (congrArg World.look ((if_pos hneeds).trans hrender)).trans ?_
  unfold World.look
  dsimp only
  rw [Option.map_map]
  rfl

/-- **The result of a new fetch is shown in the first frame that finds it.** -/
theorem waits_needs_render (h : w.last_rendered_raw_len = USIZE_MAX) (hphase : w.node.1.phase = .Done) :
    w.needs_render := by
  refine ⟨hphase, .inl ?_⟩
  rw [h]
  have hmax : PAGE_CAP < USIZE_MAX := by decide
  omega

/-- A result that was shown, and is not cut by the renderer alone, is not shown
again. -/
theorem World.Shows.skips (h : w.Shows t) (herr : w.node.1.fetch_err.length ≤ FETCH_ERR_CAP) (hplain : w.Plain) :
    ¬ w.needs_render := by
  rintro ⟨-, hlen | hlen | htrunc | hgen⟩
  · exact hlen h.len.symm
  · rw [h.err, List.length_take, Nat.min_eq_right herr] at hlen
    exact hlen rfl
  · rw [h.truncated] at htrunc
    unfold World.Plain at hplain
    unfold World.merged at htrunc
    by_cases hnone : w.node.1.fetch_err = []
    · rw [if_pos hnone] at hplain
      rw [if_neg (not_not.mpr hnone)] at htrunc
      cases hpt : w.node.1.page_truncated with
      | true =>
        rw [hpt] at htrunc
        exact htrunc rfl
      | false =>
        rw [hpt] at htrunc hplain
        cases hcuts : cuts w.raw w.text_rgb with
        | true => cases hplain hcuts
        | false =>
          rw [hcuts] at htrunc
          exact htrunc rfl
    · rw [if_neg hnone] at hplain
      rw [if_pos hnone, hplain] at htrunc
      exact htrunc rfl
  · exact hgen h.gen.symm

/-- A result that is cut by the renderer alone is shown again. -/
theorem World.Shows.again (h : w.Shows t) (hphase : w.node.1.phase = .Done) (hplain : ¬ w.Plain) :
    w.needs_render := by
  refine ⟨hphase, .inr (.inr (.inl ?_))⟩
  rw [h.truncated]
  unfold World.merged
  unfold World.Plain at hplain
  by_cases hnone : w.node.1.fetch_err = []
  · rw [if_pos hnone] at hplain
    obtain ⟨hcuts, htrunc⟩ := Classical.not_imp.mp hplain
    rw [if_neg (not_not.mpr hnone), hcuts, Bool.or_true]
    exact htrunc
  · rw [if_neg hnone] at hplain
    rw [if_pos hnone]
    exact hplain

/-- Whatever `drive` does besides, the response is the same. -/
theorem World.Shows.drive {node : Node} (h : w.Shows t) (hfetch : node.1.toHttpFetch = w.node.1.toHttpFetch)
    (hrests : node.1.dhcp_active = false)
    (htag : node.1.ip_settings_tag = w.settings.ip_settings_tag) : { w with node := node }.Shows t := by
  have herr : node.1.fetch_err = w.node.1.fetch_err := congrArg HttpFetch.fetch_err hfetch
  have hpage : node.1.page = w.node.1.page := congrArg HttpFetch.page hfetch
  have htrunc : node.1.page_truncated = w.node.1.page_truncated :=
    congrArg HttpFetch.page_truncated hfetch
  have hgen : node.1.page_gen = w.node.1.page_gen := congrArg HttpFetch.page_gen hfetch
  have hdone : node.1.fetch_done = w.node.1.fetch_done := congrArg HttpFetch.fetch_done hfetch
  refine ⟨?_, hdone.trans h.done, hrests, htag, ?_, h.gen.trans hgen.symm, ?_, ?_⟩
  · rw [h.shown]
    unfold World.result World.raw
    rw [herr, hpage]
  · rw [h.len]
    dsimp only
    rw [hpage]
  · rw [h.err]
    dsimp only
    rw [herr]
  · rw [show w.page_truncated = w.merged from h.truncated]
    unfold World.merged World.raw World.text_rgb
    rw [herr, hpage, htrunc]

theorem plain_drive {node : Node} (hfetch : node.1.toHttpFetch = w.node.1.toHttpFetch) :
    { w with node := node }.Plain ↔ w.Plain := by
  have herr : node.1.fetch_err = w.node.1.fetch_err := congrArg HttpFetch.fetch_err hfetch
  have hpage : node.1.page = w.node.1.page := congrArg HttpFetch.page hfetch
  have htrunc : node.1.page_truncated = w.node.1.page_truncated :=
    congrArg HttpFetch.page_truncated hfetch
  unfold World.Plain World.raw World.text_rgb
  rw [herr, hpage, htrunc]

variable (env) in
/-- **A frame**, as long as the fetch is tracked. -/
theorem net_frame_tracked {polls : List (Option Bytes)} {script : TlsScript} (h : w.Inv)
    (hon : w.inet_on = true) (hok : w.FrameOk (.net polls script)) (ht : w.track = some t) :
    ∃ t', (w.net_frame env polls script).track = some t' ∧
      ((w.net_frame env polls script).Waits t' ∨ (w.net_frame env polls script).Shows t') ∧
      ((w.net_frame env polls script).node.1.phase = .Done →
        t'.shown = [(w.net_frame env polls script).result]) ∧
      (t.seen = some (w.net_frame env polls script).view → t'.shown = t.shown) := by
  obtain ⟨hask, hplain⟩ := hok hon
  set d := w.drive env polls script with hd
  have hphase := drive_done env w.node.2 polls script hask h.net.doneRests
  have htag := drive_tag env w.node.2 polls script hask
  rcases h.track t ht with hwaits | hshows
  · by_cases hneeds : d.needs_render
    · obtain ⟨mem, n, hframe⟩ := net_frame_renders hon hneeds
      obtain ⟨hover, hrests, -⟩ := hphase hneeds.1
      rw [hframe, ht, ← hd]
      refine ⟨⟨t.shown ++ [d.result], some d.view⟩, rfl, .inr ?_, ?_, ?_⟩
      · refine ⟨?_, hover, hrests, htag, rfl, rfl, rfl, rfl⟩
        rw [hwaits.shown]
        rfl
      · intro _
        rw [hwaits.shown]
        rfl
      · intro hseen
        exact absurd hneeds.1 (hwaits.seen _ hseen)
    · have hnot : d.node.1.phase ≠ .Done := fun hdone => hneeds (waits_needs_render hwaits.len hdone)
      rw [net_frame_skips hon hneeds, ← hd]
      refine ⟨{ t with seen := some d.view }, ?_, .inl ⟨hwaits.shown, hwaits.len, ?_⟩, ?_, fun _ => rfl⟩
      · show w.track.map _ = _
        rw [ht]
        rfl
      · intro v hv
        rw [← Option.some.inj hv]
        exact hnot
      · exact fun hdone => absurd hdone hnot
  · obtain ⟨hsame, hrests⟩ := drive_over env w.node.2 polls script (h.net.disarmed hshows.done) hshows.rests hshows.tag
    have hshows' : d.Shows t := hshows.drive hsame hrests htag
    have herr : d.node.1.fetch_err.length ≤ FETCH_ERR_CAP := (drive_ok h.net hask _ _ _).err
    have hneeds : ¬ d.needs_render :=
      hshows'.skips herr ((plain_drive hsame).mpr (hplain (by rw [ht]; rfl) hshows.done))
    rw [net_frame_skips hon hneeds, ← hd]
    refine ⟨{ t with seen := some d.view }, ?_, .inr ?_, fun _ => hshows'.shown, fun _ => rfl⟩
    · show w.track.map _ = _
      rw [ht]
      rfl
    · exact ⟨hshows'.shown, hshows'.done, hshows'.rests, hshows'.tag, hshows'.len, hshows'.gen,
        hshows'.err, hshows'.truncated⟩

/-- **A frame that shows a result again.** -/
theorem net_frame_again {polls : List (Option Bytes)} {script : TlsScript} (h : w.Inv)
    (hon : w.inet_on = true) (ht : w.track = some t) (hshows : w.Shows t)
    (hphase : (w.drive env polls script).node.1.phase = .Done) (hask : w.node.1.DhcpAsked w.settings.toDeviceSettings)
    (hplain : ¬ w.Plain) :
    (w.net_frame env polls script).track.map (·.shown) = some [w.result, w.result] := by
  obtain ⟨hsame, hrests⟩ := drive_over env w.node.2 polls script (h.net.disarmed hshows.done) hshows.rests
    hshows.tag
  have hshows' : (w.drive env polls script).Shows t :=
    hshows.drive hsame hrests (drive_tag env w.node.2 polls script hask)
  have hneeds := hshows'.again hphase (fun hp => hplain ((plain_drive hsame).mp hp))
  obtain ⟨mem, n, hframe⟩ := net_frame_renders hon hneeds
  have hresult : (w.drive env polls script).result = w.result :=
    List.head_eq_of_cons_eq (hshows'.shown.symm.trans hshows.shown)
  rw [hframe, ht, hresult]
  show some (t.shown ++ [w.result]) = _
  rw [hshows.shown]
  rfl

variable (env) in
/-- What a frame leaves alone. -/
theorem net_frame_frame (polls : List (Option Bytes)) (script : TlsScript) (hon : w.inet_on = true) :
    (w.net_frame env polls script).node = (w.drive env polls script).node ∧
      (w.net_frame env polls script).settings = w.settings ∧
        (w.net_frame env polls script).inet_on = true ∧
          (w.track = none → (w.net_frame env polls script).track = none) := by
  by_cases hneeds : (w.drive env polls script).needs_render
  · obtain ⟨mem, n, hframe⟩ := net_frame_renders hon hneeds
    rw [hframe]
    refine ⟨rfl, rfl, hon, ?_⟩
    intro ht
    show w.track.map _ = none
    rw [ht]
    rfl
  · rw [net_frame_skips hon hneeds]
    refine ⟨rfl, rfl, hon, ?_⟩
    intro ht
    show w.track.map _ = none
    rw [ht]
    rfl

theorem net_frame_keeps {polls : List (Option Bytes)} {script : TlsScript} (h : w.Inv)
    (hok : w.FrameOk (.net polls script)) : (w.net_frame env polls script).Inv := by
  by_cases hon : w.inet_on = true
  · obtain ⟨hnode, -, -, hnone⟩ := net_frame_frame env polls script hon
    refine ⟨?_, ?_⟩
    · rw [hnode]
      exact drive_ok h.net (hok hon).1 w.node.2 polls script
    · intro t' ht'
      cases ht : w.track with
      | none => cases (hnone ht).symm.trans ht'
      | some t =>
        obtain ⟨t'', ht'', hkeeps, -⟩ := net_frame_tracked env h hon hok ht
        obtain rfl := Option.some.inj (ht''.symm.trans ht')
        exact hkeeps
  · unfold World.net_frame
    rw [if_neg hon]
    exact h

/-- A result that the renderer alone cuts is shown in the frame that finds it and
in the next one. -/
theorem net_frames_again {polls polls' : List (Option Bytes)} {script script' : TlsScript} (h : w.Inv)
    (hon : w.inet_on = true) (ht : w.track = some t) (hok : w.FrameOk (.net polls script))
    (hphase : (w.drive env polls script).node.1.phase = .Done)
    (hphase' : ((w.drive env polls script).drive env polls' script').node.1.phase = .Done)
    (hask : (w.drive env polls script).node.1.DhcpAsked w.settings.toDeviceSettings)
    (hplain : ¬ (w.drive env polls script).Plain) :
    ((w.net_frame env polls script).net_frame env polls' script').track.map (·.shown) =
      some [(w.drive env polls script).result, (w.drive env polls script).result] := by
  have hinv : (w.net_frame env polls script).Inv := net_frame_keeps h hok
  obtain ⟨hnode, hsettings, hon', -⟩ := net_frame_frame env polls script hon
  obtain ⟨t', ht', hshows, hshown, -⟩ := net_frame_tracked env h hon hok ht
  have hresult : (w.net_frame env polls script).result = (w.drive env polls script).result := by
    unfold World.result World.raw
    rw [hnode]
  have hnow : (w.net_frame env polls script).Shows t' := by
    refine hshows.resolve_left ?_
    intro hwaits
    cases hwaits.shown.symm.trans (hshown (by rw [hnode]; exact hphase))
  rw [← hresult]
  refine net_frame_again hinv hon' ht' hnow ?_ ?_ ?_
  · unfold World.drive at hphase' ⊢
    rw [hnode, hsettings]
    exact hphase'
  · rw [hnode, hsettings]
    exact hask
  · unfold World.Plain World.raw World.text_rgb at hplain ⊢
    rw [hnode, hsettings]
    exact hplain

theorem step_keeps (h : w.Inv) {e : Event} (hok : w.FrameOk e) : (w.step env e).Inv := by
  cases e with
  | top =>
    refine ⟨h.net, ?_⟩
    intro t ht
    rcases h.track t ht with hw | hs
    · exact .inl ⟨hw.shown, hw.len, hw.seen⟩
    · exact .inr ⟨hs.shown, hs.done, hs.rests, hs.tag, hs.len, hs.gen, hs.err, hs.truncated⟩
  | edit settings => exact ⟨h.net, nofun⟩
  | type url =>
    refine ⟨h.net, ?_⟩
    intro t ht
    rcases h.track t ht with hw | hs
    · exact .inl ⟨hw.shown, hw.len, hw.seen⟩
    · exact .inr ⟨hs.shown, hs.done, hs.rests, hs.tag, hs.len, hs.gen, hs.err, hs.truncated⟩
  | go => exact start_browser_fetch_keeps h
  | reload => exact reload_keeps h
  | net polls script => exact net_frame_keeps h hok

theorem World.Inv.shownOnce (h : w.Inv) {e : Event} (hok : w.FrameOk e) : w.ShownOnce env e := by
  cases e with
  | net polls script =>
    intro hon t ht
    obtain ⟨t', ht', hkeeps, hdone, hidle⟩ := net_frame_tracked env h hon hok ht
    refine ⟨t', ht', ?_, hdone, hidle⟩
    rcases hkeeps with hw | hs
    · rw [hw.shown]
      exact Nat.zero_le 1
    · rw [hs.shown]
      exact Nat.le_refl 1
  | _ => trivial

/-- The same in a run. -/
theorem run_shown_twice {es : List Event} {polls polls' : List (Option Bytes)} {script script' : TlsScript}
    {shown : Shown} (h : w.Inv) (hopen : Along (World.step env) World.FrameOk w es)
    (hon : (run (World.step env) w es).inet_on = true)
    (ht : (run (World.step env) w es).track.isSome = true)
    (hok : (run (World.step env) w es).FrameOk (.net polls script))
    (hphase : ((run (World.step env) w es).drive env polls script).node.1.phase = .Done)
    (hphase' : (((run (World.step env) w es).drive env polls script).drive env polls' script').node.1.phase =
      .Done)
    (hask : ((run (World.step env) w es).drive env polls script).node.1.DhcpAsked
      (run (World.step env) w es).settings.toDeviceSettings)
    (hplain : ¬ ((run (World.step env) w es).drive env polls script).Plain)
    (hresult : ((run (World.step env) w es).drive env polls script).result = shown) :
    (run (World.step env) w (es ++ [.net polls script, .net polls' script'])).track.map (·.shown) =
        some [shown, shown] ∧
      ¬ Along (World.step env) (World.ShownOnce env) w (es ++ [.net polls script, .net polls' script']) := by
  have hinv : (run (World.step env) w es).Inv :=
    run_invariant (I := World.Inv) (fun _ _ h hc => step_keeps h hc) hopen h
  rw [run_append, along_append]
  generalize run (World.step env) w es = v at hon ht hok hphase hphase' hask hplain hresult hinv ⊢
  obtain ⟨t, ht⟩ := Option.isSome_iff_exists.mp ht
  have htwice := net_frames_again hinv hon ht hok hphase hphase' hask hplain
  rw [hresult] at htwice
  refine ⟨htwice, ?_⟩
  rintro ⟨-, -, hlast, -⟩
  obtain ⟨-, -, hon', -⟩ := net_frame_frame env polls script hon
  obtain ⟨t', ht', -⟩ := net_frame_tracked env hinv hon hok ht
  obtain ⟨t'', ht'', hlen, -⟩ := hlast hon' t' ht'
  have htrack : ((v.net_frame env polls script).net_frame env polls' script').track = some t'' := ht''
  rw [htrack] at htwice
  have hboth : t''.shown = [shown, shown] := Option.some.inj htwice
  rw [hboth, List.length_cons, List.length_singleton] at hlen
  omega

end Steps

/-- **Each fetch is shown once.** For every run of the main loop, with whatever
frames, settings, pages and reloads, in which an error comes without a page that
was cut and the renderer cuts only pages that the network has cut: from the start of
a fetch until the next one, a reload or a change of the settings, at most one
result is shown, it is shown as soon as the phase is `Done`, and a frame that finds
the network stack as the last one found it shows nothing. -/
theorem fetch_shown_once (env : Env) (has_net : Bool) (vio : AnyNic) (settings : Settings.DeviceSettings)
    (mem : RenderMemory) {es : List Event}
    (hok : Along (World.step env) World.FrameOk (.boot env has_net vio settings mem) es) :
    Along (World.step env) (World.ShownOnce env) (.boot env has_net vio settings mem) es :=
  along_of_invariant (fun _ _ h hc => step_keeps h hc) (fun _ _ h hc => h.shownOnce hc) hok
    (inv_boot has_net vio settings mem)

/-! ## Concrete runs -/

/-- A fetch from the gateway, up to the response. -/
def gateway_open : List Event :=
  [.top, .net [some gateway_arp] .refuse, .type (ascii "http://10.0.2.2/"), .go, .net [] .refuse,
    .net [some (gateway_frame 80 1000 0x12 [])] .refuse]

/-- The frames of a response with the body `page`. -/
def gateway_response (page : Bytes) : List (Option Bytes) :=
  [some (gateway_frame 80 1001 0x18 (ascii "HTTP/1.0 200 OK\r\n\r\n" ++ page)),
    some (gateway_frame 80 2000 0x11 [])]

def fresh_boot : World := .boot .qemu true .lossless .new ⟨[], .new⟩

/-- A short page, and an idle frame. -/
theorem short_page_shown_once :
    Along (World.step .qemu) (World.ShownOnce .qemu) fresh_boot
        (gateway_open ++ [.net (gateway_response (ascii "hi")) .refuse, .net [] .refuse]) ∧
      (run (World.step .qemu) fresh_boot
          (gateway_open ++ [.net (gateway_response (ascii "hi")) .refuse, .net [] .refuse])).track.map
        (·.shown) = some [.page (ascii "hi")] :=
  ⟨fetch_shown_once .qemu true .lossless .new ⟨[], .new⟩ (by decide), by decide⟩

/-- A text of 129 lines. -/
def long_text : Bytes := (List.replicate 129 (ascii "a\n")).flatten

/-- The renderer cuts the text, the network does not: the idle frame shows it again. -/
theorem long_text_shown_twice :
    (run (World.step .qemu) fresh_boot
        (gateway_open ++ [.net (gateway_response long_text) .refuse, .net [] .refuse])).track.map
        (·.shown) = some [.page long_text, .page long_text] ∧
      ¬ Along (World.step .qemu) (World.ShownOnce .qemu) fresh_boot
        (gateway_open ++ [.net (gateway_response long_text) .refuse, .net [] .refuse]) := by
  have hopen : Along (World.step .qemu) World.FrameOk fresh_boot gateway_open := by decide
  have hinv : fresh_boot.Inv := inv_boot true .lossless .new ⟨[], .new⟩
  exact run_shown_twice hinv hopen (by decide) (by decide) (by decide)
    (by decide +kernel) (by decide +kernel) (by decide +kernel) (by decide +kernel) (by decide +kernel)

end EveOS.Browser
