/-
Address settings take effect.

`drive` compares a 32-bit tag of the settings with the one it stored, and only
configures the addresses anew when the two differ. The tag is computed from
twelve octets and the mode, so different settings can share one, and then a
change is missed. As long as the tags of successive settings tell them apart,
the addresses after a `drive` are those its settings ask for: between two
`drive` calls with the same tag nothing changes them, since the DHCP client,
which is the only other writer, rests outside of its mode.
-/
import EveOS.Net.DhcpTimer

set_option autoImplicit false

namespace EveOS.Net

/-- The addresses the settings ask for; DHCP leaves them to the server. -/
def DeviceSettings.asks (st : DeviceSettings) : Option NetIpv4Addrs :=
  match st.ip_config with
  | .Slirp => some .SLIRP
  | .Static => some ⟨st.static_ip, st.static_gw, st.static_dns⟩
  | .Dhcp => none

/-! ## The history of settings -/

/-- The settings of the last `drive` call. -/
def noteSettings (last : Option DeviceSettings) (_ : Node) (e : MainEvent) (_ : Node) :
    Option DeviceSettings :=
  match e with
  | .drive st _ _ => some st
  | _ => last

/-- The main loop, with the settings of the last `drive` call beside it. -/
def settingsStep (env : Env) : Node × Option DeviceSettings → MainEvent → Node × Option DeviceSettings :=
  observe (Node.main env) noteSettings

/-- The tag of the last settings; a fresh stack carries `u32::MAX`. -/
def lastTag : Option DeviceSettings → UInt32
  | none => 0xFFFFFFFF
  | some st => st.ip_settings_tag

/-- The tag tells these settings from the ones before, unless both ask for the
same addresses. -/
def TagTells (x : Node × Option DeviceSettings) : MainEvent → Prop
  | .drive st _ _ => st.ip_settings_tag = lastTag x.2 → ∃ prev ∈ x.2, prev.asks = st.asks
  | _ => True

/-! ## One `drive` -/

variable (env : Env)

/-- Outside of the DHCP mode, with a client that rests, `drive` leaves the
addresses as its first statements set them. -/
theorem drive_dhcpView_quiet {st : DeviceSettings} (hst : st.ip_config ≠ .Dhcp) (s : NetStack)
    (hs : (s.drive_begin st).dhcp_active = false) (vio : AnyNic) (polls : List (Option Bytes))
    (script : TlsScript) :
    (Sys.drive env st script ⟨s, vio, polls⟩).net.dhcpView = (s.drive_begin st).dhcpView := by
  have hrx : (Sys.drive_front env st ⟨s, vio, polls⟩).net.dhcpView = (s.drive_begin st).dhcpView := by
    unfold Sys.drive_front
    dsimp only
    rw [if_neg hst]
    obtain ⟨-, -, h | ⟨h, -, -⟩ | ⟨h, -⟩⟩ := rx_loop_dhcp env polls (s.drive_begin st) vio
    · exact h
    · rw [DhcpClient.dhcp_active, h] at hs
      cases hs
    · rw [h] at hs
      cases hs
  exact (fetchReaches_dhcpView env (drive_front_reaches env st script ⟨s, vio, polls⟩)
    ((dhcpView_active hrx).trans hs)).trans hrx

/-- New settings are put in place. -/
theorem drive_begin_changed {s : NetStack} {st : DeviceSettings}
    (h : st.ip_settings_tag ≠ s.ip_settings_tag) :
    (s.drive_begin st).ip_settings_tag = st.ip_settings_tag
    ∧ (∀ a ∈ st.asks, (s.drive_begin st).addrs = a ∧ (s.drive_begin st).dhcp_active = false)
    ∧ (st.ip_config = .Dhcp → (s.drive_begin st).dhcp_phase = .WaitOffer
        ∧ (s.drive_begin st).dhcp_phase_start_tick = 0) := by
  unfold NetStack.drive_begin NetStack.sync_ip_from_settings
  rw [if_neg h]
  unfold DeviceSettings.asks
  cases hc : st.ip_config with
  | Slirp => simp [NetStack.reset_demo, NetStack.clear_fetch_inner, DhcpClient.dhcp_active]
  | Static => simp [NetStack.reset_demo, NetStack.clear_fetch_inner, DhcpClient.dhcp_active]
  | Dhcp => simp [NetStack.reset_demo, NetStack.clear_fetch_inner, NetStack.enter_dhcp]

/-- A phase that was stamped in this tick, or not yet, does not time out. -/
theorem dhcp_ticked_fresh {r : NetStack}
    (h : r.dhcp_phase_start_tick = 0 ∨ r.dhcp_phase_start_tick = r.tick) :
    r.dhcp_ticked.dhcp_phase = r.dhcp_phase := by
  have hstamp : r.dhcp_stamp.dhcp_phase_start_tick = r.tick ∧ r.dhcp_stamp.tick = r.tick
      ∧ r.dhcp_stamp.dhcp_phase = r.dhcp_phase := by
    unfold NetStack.dhcp_stamp
    split_ifs with h0
    · exact ⟨rfl, rfl, rfl⟩
    · exact ⟨h.resolve_left h0, rfl, rfl⟩
  obtain ⟨hs, ht, hp⟩ := hstamp
  unfold NetStack.dhcp_ticked
  split_ifs
  · unfold NetStack.dhcp_timeout
    rw [hs, ht, UInt32.sub_self, if_neg (by decide)]
    exact hp
  · rfl

/-- A `drive` with new DHCP settings leaves the client running. -/
theorem drive_dhcp_runs {st : DeviceSettings} (hd : st.ip_config = .Dhcp) {s : NetStack}
    (h : st.ip_settings_tag ≠ s.ip_settings_tag) (vio : AnyNic) (polls : List (Option Bytes))
    (script : TlsScript) :
    (Sys.drive env st script ⟨s, vio, polls⟩).net.dhcp_phase ≠ .Idle := by
  obtain ⟨hphase, hstart⟩ := (drive_begin_changed h).2.2 hd
  obtain ⟨r, ⟨htick, -, hr⟩, hp, -⟩ := drive_dhcp_begin env hd s vio polls script
  rw [hp]
  rcases hr with hr | ⟨-, ha, hs⟩ | ⟨-, hb⟩
  · -- still waiting for an offer
    have hrp : r.dhcp_phase = .WaitOffer :=
      (congrArg (fun v => v.toDhcpClient.dhcp_phase) hr).trans hphase
    have hrs : r.dhcp_phase_start_tick = 0 :=
      (congrArg (fun v => v.toDhcpClient.dhcp_phase_start_tick) hr).trans hstart
    rw [dhcp_ticked_fresh (.inl hrs), hrp]
    decide
  · -- an offer was taken in this tick
    rw [dhcp_ticked_fresh (.inr (hs.trans htick.symm)), ha]
    decide
  · have hrest : r.dhcp_active = false := by simp [DhcpClient.dhcp_active, hb]
    rw [NetStack.dhcp_ticked, if_neg (by rw [hrest]; decide), hb]
    decide

/-! ## Runs -/

/-- The stack is configured for the settings of the last `drive`. -/
structure InEffect (last : Option DeviceSettings) (s : NetStack) : Prop where
  tag : s.ip_settings_tag = lastTag last
  addrs : ∀ st ∈ last, ∀ a ∈ st.asks, s.addrs = a ∧ s.dhcp_active = false

theorem InEffect.of_view {last : Option DeviceSettings} {s s' : NetStack} (h : InEffect last s)
    (hv : s'.dhcpView = s.dhcpView) : InEffect last s' := by
  constructor
  · exact (congrArg DhcpView.ip_settings_tag hv).trans h.tag
  · intro st hst a ha
    obtain ⟨haddr, hact⟩ := h.addrs st hst a ha
    exact ⟨(congrArg DhcpView.addrs hv).trans haddr, (dhcpView_active hv).trans hact⟩

/-- Behind the first statements of `drive` its settings are in effect. -/
theorem inEffect_drive_begin {last : Option DeviceSettings} {s : NetStack} {st : DeviceSettings}
    (h : InEffect last s)
    (htell : st.ip_settings_tag = lastTag last → ∃ prev ∈ last, prev.asks = st.asks) :
    InEffect (some st) (s.drive_begin st) := by
  by_cases htag : st.ip_settings_tag = s.ip_settings_tag
  · obtain ⟨prev, hprev, hasks⟩ := htell (htag.trans h.tag)
    rw [drive_begin_same htag.symm]
    refine ⟨htag.symm, ?_⟩
    intro st' hst' a ha
    obtain rfl : st = st' := Option.some.inj hst'
    exact h.addrs prev hprev a (hasks ▸ ha)
  · obtain ⟨hnew, haddrs, -⟩ := drive_begin_changed htag
    refine ⟨hnew, ?_⟩
    intro st' hst' a ha
    obtain rfl : st = st' := Option.some.inj hst'
    exact haddrs a ha

/-- Every event of the main loop that meets `TagTells` keeps the settings in
effect. -/
theorem inEffect_main (x : Node × Option DeviceSettings) (e : MainEvent)
    (h : InEffect x.2 x.1.1) (htell : TagTells x e) :
    InEffect (settingsStep env x e).2 (settingsStep env x e).1.1 := by
  have hnet : (settingsStep env x e).1 = Node.main env x.1 e := rfl
  have hlast : (settingsStep env x e).2 = noteSettings x.2 x.1 e (Node.main env x.1 e) := rfl
  rw [hnet, hlast]
  cases e with
  | drive st polls script =>
    have hbegin := inEffect_drive_begin h htell
    by_cases hd : st.ip_config = .Dhcp
    · -- nothing is asked for, so only the tag matters
      obtain ⟨r, -, -, -, -, -, htag⟩ := drive_dhcp_begin env hd x.1.1 x.1.2 polls script
      refine ⟨htag.trans hbegin.tag, ?_⟩
      intro st' hst' a ha
      obtain rfl : st = st' := Option.some.inj hst'
      rw [DeviceSettings.asks, hd] at ha
      cases ha
    · obtain ⟨a, ha⟩ : ∃ a, a ∈ st.asks := by
        unfold DeviceSettings.asks
        cases hc : st.ip_config with
        | Slirp => exact ⟨_, rfl⟩
        | Static => exact ⟨_, rfl⟩
        | Dhcp => exact absurd hc hd
      have hquiet := (hbegin.addrs st rfl a ha).2
      exact hbegin.of_view (drive_dhcpView_quiet env hd x.1.1 hquiet x.1.2 polls script)
  | start_fetch url => exact h.of_view (main_dhcpView env rfl)
  | reset_demo => exact h.of_view (main_dhcpView env rfl)
  | seed_from_mac mac => exact h.of_view (main_dhcpView env (e := .seed_from_mac mac) rfl)

theorem inEffect_initial : InEffect none .static_initial :=
  ⟨rfl, fun st hst => by cases hst⟩

/-- **Settings take effect.** In every run of the main loop, whatever frames
arrive, in which the tag of each `drive` call's settings tells them from the
ones before: after a `drive` the addresses are the static ones, or the SLIRP
ones, if its settings say so, and a change to DHCP has started the client. -/
theorem settings_take_effect (vio : AnyNic) (es : List MainEvent) (st : DeviceSettings)
    (polls : List (Option Bytes)) (script : TlsScript)
    (hok : Along (settingsStep env) TagTells ((NetStack.static_initial, vio), none)
      (es ++ [.drive st polls script])) :
    let before := run (settingsStep env) ((NetStack.static_initial, vio), none) es
    let s := (run (Node.main env) (NetStack.static_initial, vio) (es ++ [.drive st polls script])).1
    (st.ip_config = .Static → s.addrs = ⟨st.static_ip, st.static_gw, st.static_dns⟩)
    ∧ (st.ip_config = .Slirp → s.addrs = .SLIRP)
    ∧ (st.ip_config = .Dhcp → (∀ prev ∈ before.2, prev.ip_config ≠ .Dhcp) → s.dhcp_phase ≠ .Idle) := by
  intro before s
  rw [along_append] at hok
  obtain ⟨hes, htell, -⟩ := hok
  have hbefore : InEffect before.2 before.1.1 :=
    run_invariant (I := fun x => InEffect x.2 x.1.1) (inEffect_main env) hes inEffect_initial
  have hafter := inEffect_main env before (.drive st polls script) hbefore htell
  have hs : s = (settingsStep env before (.drive st polls script)).1.1 := by
    show (run (Node.main env) (NetStack.static_initial, vio) (es ++ [.drive st polls script])).1 = _
    rw [run_append, ← run_observe_fst (Node.main env) noteSettings ((NetStack.static_initial, vio), none)]
    rfl
  rw [hs]
  refine ⟨?_, ?_, ?_⟩
  · intro hc
    exact (hafter.addrs st rfl _ (by rw [DeviceSettings.asks, hc]; rfl)).1
  · intro hc
    exact (hafter.addrs st rfl _ (by rw [DeviceSettings.asks, hc]; rfl)).1
  · intro hc hprev
    refine drive_dhcp_runs env hc ?_ before.1.2 polls script
    -- the settings before asked for addresses, so the tags differ
    intro htag
    obtain ⟨prev, hmem, hasks⟩ := htell (htag.trans hbefore.tag)
    have hne := hprev prev hmem
    rw [DeviceSettings.asks, DeviceSettings.asks, hc] at hasks
    cases hp : prev.ip_config with
    | Dhcp => exact hne hp
    | Slirp => rw [hp] at hasks; cases hasks
    | Static => rw [hp] at hasks; cases hasks

/-! ### Concrete histories -/

/-- The static settings of a fresh device. -/
def home_settings : DeviceSettings :=
  ⟨.Static, ⟨192, 168, 1, 100⟩, ⟨192, 168, 1, 1⟩, ⟨8, 8, 8, 8⟩⟩

/-- Static settings for another network, with the same tag. -/
def twin_settings : DeviceSettings :=
  ⟨.Static, ⟨10, 177, 239, 206⟩, ⟨192, 168, 1, 139⟩, ⟨8, 8, 8, 8⟩⟩

/-- From static addresses to SLIRP and back. -/
theorem home_settings_return :
    (run (Node.main .qemu) (NetStack.static_initial, .lossless)
      [.drive home_settings [] .refuse, .drive .slirp [] .refuse, .drive home_settings [] .refuse]).1.addrs
      = ⟨⟨192, 168, 1, 100⟩, ⟨192, 168, 1, 1⟩, ⟨8, 8, 8, 8⟩⟩ := by
  refine (settings_take_effect .qemu .lossless
    [.drive home_settings [] .refuse, .drive .slirp [] .refuse] home_settings [] .refuse
    ⟨?_, ?_, ?_, trivial⟩).1 rfl
  · intro h
    exact absurd h (by decide)
  · intro h
    exact absurd h (by decide)
  · intro h
    exact absurd h (by decide)

/-- The change from one network to the other is missed. -/
theorem twin_settings_missed :
    let s := (run (Node.main .qemu) (NetStack.static_initial, .lossless)
      [.drive home_settings [] .refuse, .drive twin_settings [] .refuse]).1
    s.addrs ≠ ⟨twin_settings.static_ip, twin_settings.static_gw, twin_settings.static_dns⟩
    ∧ s.addrs = ⟨home_settings.static_ip, home_settings.static_gw, home_settings.static_dns⟩ := by
  decide

end EveOS.Net
