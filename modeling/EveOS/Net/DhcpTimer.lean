/-
DHCP never waits forever.

Two stamps drive the DHCP timers, `dhcp_phase_start_tick` and
`dhcp_last_tx_tick`; both use 0 for "unset", both are compared with a wrapping
32-bit tick, and an OFFER restarts the first of them. The argument is a budget:
`wait_budget` bounds the `drive` calls the client can still spend waiting, and
every `drive` that leaves it waiting uses up at least one. An OFFER trades what
is left of the first phase for a second phase, which is worth less than the
least that can be left of the first.
-/
import EveOS.Net.DriveRun

set_option autoImplicit false

namespace EveOS.Net

variable (env : Env)

/-! ## What changes the DHCP state -/

/-- What handling received frames can do to the DHCP state: nothing, an OFFER
taken, or a binding. -/
def RxDhcp (s s' : NetStack) : Prop :=
  s'.tick = s.tick ∧ s'.ip_settings_tag = s.ip_settings_tag ∧
    (s'.dhcpView = s.dhcpView
      ∨ (s.dhcp_phase = .WaitOffer ∧ s'.dhcp_phase = .WaitAck
          ∧ s'.dhcp_phase_start_tick = s.tick)
      ∨ (s.dhcp_active = true ∧ s'.dhcp_phase = .Bound))

theorem RxDhcp.refl (s : NetStack) : RxDhcp s s := ⟨rfl, rfl, .inl rfl⟩

theorem rxDhcp_of_view {s s' : NetStack} (h : s'.dhcpView = s.dhcpView) : RxDhcp s s' :=
  ⟨congrArg DhcpView.tick h, congrArg DhcpView.ip_settings_tag h, .inl h⟩

theorem RxDhcp.trans {s s' s'' : NetStack} (h₁ : RxDhcp s s') (h₂ : RxDhcp s' s'') :
    RxDhcp s s'' := by
  obtain ⟨ht₁, hg₁, h₁⟩ := h₁
  obtain ⟨ht₂, hg₂, h₂⟩ := h₂
  refine ⟨ht₂.trans ht₁, hg₂.trans hg₁, ?_⟩
  rcases h₁ with h₁ | ⟨ho, ha, hs⟩ | ⟨ha, hb⟩
  · -- nothing so far: the second step decides
    have hp : s'.dhcp_phase = s.dhcp_phase := congrArg (fun v => v.toDhcpClient.dhcp_phase) h₁
    rcases h₂ with h₂ | ⟨ho₂, ha₂, hs₂⟩ | ⟨ha₂, hb₂⟩
    · exact .inl (h₂.trans h₁)
    · exact .inr (.inl ⟨hp ▸ ho₂, ha₂, hs₂.trans ht₁⟩)
    · exact .inr (.inr ⟨dhcpView_active h₁ ▸ ha₂, hb₂⟩)
  · rcases h₂ with h₂ | ⟨ho₂, -, -⟩ | ⟨-, hb₂⟩
    · have hp : s''.dhcp_phase = s'.dhcp_phase := congrArg (fun v => v.toDhcpClient.dhcp_phase) h₂
      have hq : s''.dhcp_phase_start_tick = s'.dhcp_phase_start_tick :=
        congrArg (fun v => v.toDhcpClient.dhcp_phase_start_tick) h₂
      exact .inr (.inl ⟨ho, hp.trans ha, hq.trans hs⟩)
    · rw [ha] at ho₂; cases ho₂
    · exact .inr (.inr ⟨by simp [DhcpClient.dhcp_active, ho], hb₂⟩)
  · rcases h₂ with h₂ | ⟨ho₂, -, -⟩ | ⟨ha₂, -⟩
    · have hp : s''.dhcp_phase = s'.dhcp_phase := congrArg (fun v => v.toDhcpClient.dhcp_phase) h₂
      exact .inr (.inr ⟨ha, hp.trans hb⟩)
    · rw [hb] at ho₂; cases ho₂
    · simp [DhcpClient.dhcp_active, hb] at ha₂

theorem handle_rx_dhcp (s : NetStack) (vio : AnyNic) (frame : Bytes) :
    RxDhcp s (s.handle_rx env vio frame).1 := by
  have hready := rx_event_ready s frame
  rw [handle_rx_eq]
  cases hev : s.rx_event frame with
  | ignored => exact .refl s
  | arp mac => exact rxDhcp_of_view rfl
  | dhcp bootp =>
    rw [hev] at hready
    show RxDhcp s (s.handle_dhcp_reply env vio bootp).1
    obtain h | ⟨r, sid, ht, h⟩ | ⟨r, ht, h⟩ := handle_dhcp_reply_cases env s vio bootp
    · rw [h]; exact .refl s
    · rw [h]; exact ⟨rfl, rfl, .inr (.inl ⟨ht.phase, rfl, rfl⟩)⟩
    · rw [h]; exact ⟨rfl, rfl, .inr (.inr ⟨hready, rfl⟩)⟩
  | dns ip => exact rxDhcp_of_view rfl
  | tcp seg => exact rxDhcp_of_view (dhcpView_of_rest (rest_take_segment env s vio seg))

theorem rx_loop_dhcp (polls : List (Option Bytes)) (s : NetStack) (vio : AnyNic) :
    RxDhcp s (Sys.rx_loop_from env polls s vio).net := by
  induction polls generalizing s vio with
  | nil => exact .refl s
  | cons p rest ih =>
    cases p with
    | none => exact .refl s
    | some frame =>
      simp only [Sys.rx_loop_from]
      split_ifs
      · exact (handle_rx_dhcp env s vio frame).trans (ih _ _)
      · exact .refl s

/-- Once DHCP has settled, the operations of a fetch leave it alone. -/
theorem step_dhcpView_settled {x : Node} {op : Op} (hop : op.inFetch)
    (hs : x.1.dhcp_active = false) : (Node.step env x op).1.dhcpView = x.1.dhcpView := by
  cases op with
  | drive_begin settings => exact hop.elim
  | dhcp_poll => exact hop.elim
  | rx frame =>
    obtain ⟨-, -, h | ⟨h, -, -⟩ | ⟨h, -⟩⟩ := handle_rx_dhcp env x.1 x.2 frame
    · exact h
    · rw [DhcpClient.dhcp_active, h] at hs; cases hs
    · rw [h] at hs; cases hs
  | _ => exact step_dhcpView env x rfl

theorem fetchReaches_dhcpView {x y : Node} (h : FetchReaches env x y)
    (hs : x.1.dhcp_active = false) : y.1.dhcpView = x.1.dhcpView := by
  refine Reaches.invariant (I := fun z => z.1.dhcpView = x.1.dhcpView) ?_ h rfl
  intro z op hz hop
  exact (step_dhcpView_settled env hop ((dhcpView_active hz).trans hs)).trans hz

/-! ## One `drive` -/

/-- The state behind the tag check of `drive`, when the settings have not
changed: only the tick has moved. -/
theorem drive_begin_same {s : NetStack} {settings : DeviceSettings}
    (h : s.ip_settings_tag = settings.ip_settings_tag) :
    s.drive_begin settings = { s with tick := s.tick + 1 } := by
  unfold NetStack.drive_begin NetStack.sync_ip_from_settings
  rw [if_pos h.symm]

/-- The DHCP timers on the stack `s`, as far as the DHCP state goes. -/
def NetStack.dhcp_ticked (s : NetStack) : NetStack :=
  if s.dhcp_active then s.dhcp_stamp.dhcp_timeout else s

theorem dhcp_poll_view (s : NetStack) (vio : AnyNic) :
    (s.dhcp_poll env vio).1.dhcp_phase = s.dhcp_ticked.dhcp_phase
    ∧ (s.dhcp_poll env vio).1.dhcp_phase_start_tick = s.dhcp_ticked.dhcp_phase_start_tick
    ∧ (s.dhcp_poll env vio).1.addrs = s.dhcp_ticked.addrs
    ∧ (s.dhcp_poll env vio).1.tick = s.tick
    ∧ (s.dhcp_poll env vio).1.ip_settings_tag = s.ip_settings_tag := by
  unfold NetStack.dhcp_poll NetStack.dhcp_ticked NetStack.dhcp_retransmit NetStack.dhcp_timeout
    NetStack.dhcp_stamp
  dsimp only
  split_ifs <;> simp_all

/-- **What a `drive` with DHCP settings does to the DHCP state** behind its first
statements: received frames are handled, the timers run. -/
theorem drive_dhcp_begin {settings : DeviceSettings} (hd : settings.ip_config = .Dhcp)
    (s : NetStack) (vio : AnyNic) (polls : List (Option Bytes)) (script : TlsScript) :
    let s' := (Sys.drive env settings script ⟨s, vio, polls⟩).net
    ∃ r, RxDhcp (s.drive_begin settings) r
      ∧ s'.dhcp_phase = r.dhcp_ticked.dhcp_phase
      ∧ s'.dhcp_phase_start_tick = r.dhcp_ticked.dhcp_phase_start_tick
      ∧ s'.addrs = r.dhcp_ticked.addrs
      ∧ s'.tick = (s.drive_begin settings).tick
      ∧ s'.ip_settings_tag = (s.drive_begin settings).ip_settings_tag := by
  intro s'
  have hr := rx_loop_dhcp env polls (s.drive_begin settings) vio
  set r := Sys.rx_loop_from env polls (s.drive_begin settings) vio with hrdef
  have hfront : (Sys.drive_front env settings ⟨s, vio, polls⟩).node
      = r.net.dhcp_poll env r.vio := by
    unfold Sys.drive_front
    dsimp only
    rw [if_pos hd]
    rfl
  obtain ⟨hphase, hstart, haddrs, htick, htg⟩ := dhcp_poll_view env r.net r.vio
  -- either `drive` returns here, or DHCP has settled and the rest leaves it alone
  have hview : s'.dhcpView = (r.net.dhcp_poll env r.vio).1.dhcpView := by
    by_cases hact : (Sys.drive_front env settings ⟨s, vio, polls⟩).net.dhcp_active = true
    · have : s' = (Sys.drive_front env settings ⟨s, vio, polls⟩).net := by
        show (Sys.drive env settings script ⟨s, vio, polls⟩).net = _
        unfold Sys.drive
        dsimp only
        rw [if_pos (by simp [hd, hact])]
      rw [this, ← hfront]
      rfl
    · have h := fetchReaches_dhcpView env
        (drive_front_reaches env settings script ⟨s, vio, polls⟩)
        (eq_false_of_ne_true hact)
      rw [hfront] at h
      exact h
  refine ⟨r.net, hr, ?_, ?_, ?_, ?_, ?_⟩
  · exact (congrArg (fun v => v.toDhcpClient.dhcp_phase) hview).trans hphase
  · exact (congrArg (fun v => v.toDhcpClient.dhcp_phase_start_tick) hview).trans hstart
  · exact (congrArg DhcpView.addrs hview).trans haddrs
  · exact ((congrArg DhcpView.tick hview).trans htick).trans hr.1
  · exact ((congrArg DhcpView.ip_settings_tag hview).trans htg).trans hr.2.1

/-- With unchanged settings, only the tick moves in front of that. -/
theorem drive_dhcp {settings : DeviceSettings} (hd : settings.ip_config = .Dhcp) {s : NetStack}
    (htag : s.ip_settings_tag = settings.ip_settings_tag) (vio : AnyNic)
    (polls : List (Option Bytes)) (script : TlsScript) :
    let s' := (Sys.drive env settings script ⟨s, vio, polls⟩).net
    ∃ r, RxDhcp { s with tick := s.tick + 1 } r
      ∧ s'.dhcp_phase = r.dhcp_ticked.dhcp_phase
      ∧ s'.dhcp_phase_start_tick = r.dhcp_ticked.dhcp_phase_start_tick
      ∧ s'.addrs = r.dhcp_ticked.addrs
      ∧ s'.tick = s.tick + 1
      ∧ s'.ip_settings_tag = s.ip_settings_tag := by
  have h := drive_dhcp_begin env hd s vio polls script
  rw [drive_begin_same htag] at h
  exact h

/-! ## The budget -/

/-- What is left of the current phase, in `drive` calls. A phase whose stamp is
still 0 gets it at the next call, or at the one after when that call's tick
is 0. -/
def phase_left (start tick : UInt32) : Nat :=
  if start = 0 then (if tick = 0 then 12001 else 12002) else 12000 - (tick - start).toNat

/-- How many more `drive` calls can leave the client waiting. -/
def NetStack.wait_budget (s : NetStack) : Nat :=
  match s.dhcp_phase with
  | .WaitOffer => phase_left s.dhcp_phase_start_tick s.tick + 12004
  | .WaitAck => phase_left s.dhcp_phase_start_tick s.tick + 1
  | _ => 0

/-- The phase clock has not run out. -/
def NetStack.InPhase (s : NetStack) : Prop :=
  s.dhcp_phase_start_tick = 0 ∨ (s.tick - s.dhcp_phase_start_tick).toNat ≤ 12000

theorem phase_left_le (start tick : UInt32) : phase_left start tick ≤ 12002 := by
  unfold phase_left
  split_ifs <;> omega

/-- A running phase clock loses one tick. -/
theorem phase_left_tick {start tick : UInt32} (h0 : start ≠ 0)
    (he : (tick - start).toNat ≤ 12000) (he' : (tick + 1 - start).toNat ≤ 12000) :
    phase_left start (tick + 1) + 1 = phase_left start tick := by
  have hstep : tick + 1 - start = (tick - start) + 1 := by grind
  have hnat : (tick + 1 - start).toNat = (tick - start).toNat + 1 := by
    rw [hstep, UInt32.toNat_add]
    simp only [UInt32.toNat_one]
    omega
  unfold phase_left
  rw [if_neg h0, if_neg h0, hnat]
  omega

/-- A phase without a stamp gets one. -/
theorem phase_left_stamp (tick : UInt32) :
    phase_left (tick + 1) (tick + 1) + 1 ≤ phase_left 0 tick := by
  have hself : (tick + 1 - (tick + 1)).toNat = 0 := by
    rw [show tick + 1 - (tick + 1) = 0 by grind]
    rfl
  unfold phase_left
  rw [if_pos rfl, hself]
  by_cases h1 : tick + 1 = 0
  · have h0 : tick ≠ 0 := by
      rintro rfl
      simp at h1
    rw [if_pos h1, if_pos h1, if_neg h0]
  · rw [if_neg h1]
    split_ifs <;> omega

/-- The timers leave the client waiting only while the clock has not run out. -/
theorem dhcp_ticked_active {r : NetStack} (h : r.dhcp_ticked.dhcp_active = true) :
    r.dhcp_active = true
    ∧ r.dhcp_ticked.dhcp_phase = r.dhcp_phase
    ∧ r.dhcp_ticked.dhcp_phase_start_tick
        = (if r.dhcp_phase_start_tick = 0 then r.tick else r.dhcp_phase_start_tick)
    ∧ r.tick - r.dhcp_ticked.dhcp_phase_start_tick ≤ 12000 := by
  unfold NetStack.dhcp_ticked NetStack.dhcp_timeout NetStack.dhcp_stamp at h ⊢
  by_cases ha : r.dhcp_active = true
  · rw [if_pos ha] at h ⊢
    split_ifs at h ⊢ with h0 ht ht
    · simp [DhcpClient.dhcp_active] at h
    · exact ⟨ha, rfl, rfl, by simp⟩
    · simp [DhcpClient.dhcp_active] at h
    · exact ⟨ha, rfl, rfl, by simpa using ht⟩
  · rw [if_neg ha] at h
    exact absurd h ha

/-- **A `drive` that leaves the client waiting uses up budget.** -/
theorem wait_budget_drive {s s' r : NetStack} (hr : RxDhcp { s with tick := s.tick + 1 } r)
    (hphase : s'.dhcp_phase = r.dhcp_ticked.dhcp_phase)
    (hstart : s'.dhcp_phase_start_tick = r.dhcp_ticked.dhcp_phase_start_tick)
    (htick : s'.tick = s.tick + 1) (hin : s.InPhase) (hact : s'.dhcp_active = true) :
    s.dhcp_active = true ∧ s'.tick - s'.dhcp_phase_start_tick ≤ 12000
      ∧ s'.wait_budget + 1 ≤ s.wait_budget := by
  have hact' : r.dhcp_ticked.dhcp_active = true := by
    simpa [DhcpClient.dhcp_active, hphase] using hact
  obtain ⟨hra, hph, hst, hle⟩ := dhcp_ticked_active hact'
  obtain ⟨hrt, -, hcases⟩ := hr
  change r.tick = s.tick + 1 at hrt
  have hle' : s'.tick - s'.dhcp_phase_start_tick ≤ 12000 := by
    rw [htick, ← hrt, hstart]
    exact hle
  rw [hst, hrt] at hstart
  rw [hph] at hphase
  rcases hcases with hv | ⟨ho, ha, hs⟩ | ⟨-, hb⟩
  · -- no DHCP message: the phase goes on
    have hp : r.dhcp_phase = s.dhcp_phase := congrArg (fun v => v.toDhcpClient.dhcp_phase) hv
    have hs : r.dhcp_phase_start_tick = s.dhcp_phase_start_tick :=
      congrArg (fun v => v.toDhcpClient.dhcp_phase_start_tick) hv
    rw [hs] at hstart
    rw [hp] at hphase
    have hleft : phase_left s'.dhcp_phase_start_tick s'.tick + 1
        ≤ phase_left s.dhcp_phase_start_tick s.tick := by
      rw [htick, hstart]
      by_cases h0 : s.dhcp_phase_start_tick = 0
      · rw [if_pos h0, h0]
        exact phase_left_stamp s.tick
      · rw [if_neg h0]
        refine le_of_eq (phase_left_tick h0 (hin.resolve_left h0) ?_)
        rw [htick, hstart, if_neg h0, UInt32.le_iff_toNat_le] at hle'
        exact hle'
    refine ⟨by simpa [DhcpClient.dhcp_active, hphase] using hact, hle', ?_⟩
    unfold NetStack.wait_budget
    rw [hphase]
    cases hsp : s.dhcp_phase with
    | WaitOffer => dsimp only; omega
    | WaitAck => dsimp only; omega
    | Idle => rw [hsp] at hphase; simp [DhcpClient.dhcp_active, hphase] at hact
    | Bound => rw [hsp] at hphase; simp [DhcpClient.dhcp_active, hphase] at hact
  · -- an OFFER: the second phase costs less than the least left of the first
    change s.dhcp_phase = .WaitOffer at ho
    change r.dhcp_phase_start_tick = s.tick + 1 at hs
    rw [hs] at hstart
    have hstart : s'.dhcp_phase_start_tick = s.tick + 1 := by
      rw [hstart]
      split_ifs <;> rfl
    refine ⟨by simp [DhcpClient.dhcp_active, ho], hle', ?_⟩
    unfold NetStack.wait_budget
    rw [hphase, ha, ho, hstart, htick]
    have := phase_left_stamp s.tick
    have := phase_left_le 0 s.tick
    dsimp only
    omega
  · simp [DhcpClient.dhcp_active, hphase, hb] at hact

/-! ## The main loop -/

/-- The event keeps the given settings. -/
def MainEvent.keeps (settings : DeviceSettings) : MainEvent → Prop
  | .drive st _ _ => st = settings
  | _ => True

/-- The event is a `drive` call. -/
def MainEvent.isDrive : MainEvent → Bool
  | .drive _ _ _ => true
  | _ => false

/-- Only `drive` touches the DHCP state. -/
theorem main_dhcpView {x : Node} {e : MainEvent} (h : e.isDrive = false) :
    (Node.main env x e).1.dhcpView = x.1.dhcpView := by
  cases e with
  | drive settings polls script => cases h
  | start_fetch url => exact start_fetch_dhcpView x.1 url
  | reset_demo => rfl
  | seed_from_mac mac => exact seed_from_mac_dhcpView x.1 mac

/-- DHCP has ended: with the SLIRP fallback, or bound to a lease. -/
def NetStack.DhcpSettled (s : NetStack) : Prop :=
  (s.dhcp_phase = .Idle ∧ s.addrs = .SLIRP) ∨ s.dhcp_phase = .Bound

/-- The invariant of the main loop after `n` calls of `drive`. -/
structure DhcpInv (settings : DeviceSettings) (n : Nat) (s : NetStack) : Prop where
  tag : s.ip_settings_tag = settings.ip_settings_tag
  inPhase : s.dhcp_active = true → s.InPhase
  budget : s.dhcp_active = true → s.wait_budget + n ≤ 24006
  settled : s.dhcp_active = false → s.DhcpSettled

theorem dhcpInv_of_view {settings : DeviceSettings} {n : Nat} {s s' : NetStack}
    (hv : s'.dhcpView = s.dhcpView) (h : DhcpInv settings n s) : DhcpInv settings n s' := by
  have hact := dhcpView_active hv
  have hphase : s'.dhcp_phase = s.dhcp_phase := congrArg (fun v => v.toDhcpClient.dhcp_phase) hv
  have hstart : s'.dhcp_phase_start_tick = s.dhcp_phase_start_tick :=
    congrArg (fun v => v.toDhcpClient.dhcp_phase_start_tick) hv
  have htick : s'.tick = s.tick := congrArg DhcpView.tick hv
  have haddrs : s'.addrs = s.addrs := congrArg DhcpView.addrs hv
  have htag : s'.ip_settings_tag = s.ip_settings_tag := congrArg DhcpView.ip_settings_tag hv
  refine ⟨htag.trans h.tag, ?_, ?_, ?_⟩
  · intro ha
    unfold NetStack.InPhase
    rw [hstart, htick]
    exact h.inPhase (hact ▸ ha)
  · intro ha
    unfold NetStack.wait_budget
    rw [hphase, hstart, htick]
    exact h.budget (hact ▸ ha)
  · intro ha
    unfold NetStack.DhcpSettled
    rw [hphase, haddrs]
    exact h.settled (hact ▸ ha)

/-- Once settled, a `drive` keeps the DHCP state. -/
theorem drive_settled {settings : DeviceSettings} (hd : settings.ip_config = .Dhcp) {s : NetStack}
    (htag : s.ip_settings_tag = settings.ip_settings_tag) (hs : s.dhcp_active = false)
    (vio : AnyNic) (polls : List (Option Bytes)) (script : TlsScript) :
    (Sys.drive env settings script ⟨s, vio, polls⟩).net.dhcp_phase = s.dhcp_phase
    ∧ (Sys.drive env settings script ⟨s, vio, polls⟩).net.addrs = s.addrs := by
  obtain ⟨r, ⟨-, -, hr⟩, hphase, -, haddrs, -, -⟩ := drive_dhcp env hd htag vio polls script
  have hv : r.dhcpView = ({ s with tick := s.tick + 1 } : NetStack).dhcpView := by
    rcases hr with hv | ⟨ho, -, -⟩ | ⟨ha, -⟩
    · exact hv
    · change s.dhcp_phase = .WaitOffer at ho
      simp [DhcpClient.dhcp_active, ho] at hs
    · change s.dhcp_active = true at ha
      rw [ha] at hs
      cases hs
  have hra : r.dhcp_active = false := (dhcpView_active hv).trans hs
  have hrt : r.dhcp_ticked = r := by
    unfold NetStack.dhcp_ticked
    rw [if_neg (by simp [hra])]
  rw [hphase, haddrs, hrt]
  exact ⟨congrArg (fun v => v.toDhcpClient.dhcp_phase) hv, congrArg DhcpView.addrs hv⟩

theorem dhcpInv_drive {settings : DeviceSettings} (hd : settings.ip_config = .Dhcp) {n : Nat}
    {s : NetStack} (h : DhcpInv settings n s) (vio : AnyNic) (polls : List (Option Bytes))
    (script : TlsScript) :
    DhcpInv settings (n + 1) (Sys.drive env settings script ⟨s, vio, polls⟩).net
    ∧ ((Sys.drive env settings script ⟨s, vio, polls⟩).net.dhcp_active = true →
        s.dhcp_active = true
        ∧ (Sys.drive env settings script ⟨s, vio, polls⟩).net.tick
          - (Sys.drive env settings script ⟨s, vio, polls⟩).net.dhcp_phase_start_tick ≤ 12000) := by
  obtain ⟨r, hr, hphase, hstart, haddrs, htick, htg⟩ :=
    drive_dhcp env hd h.tag vio polls script
  have hset := drive_settled env hd h.tag
  set s' := (Sys.drive env settings script ⟨s, vio, polls⟩).net with hs'
  by_cases hs : s.dhcp_active = true
  · have hwait : s'.dhcp_active = true → _ :=
      wait_budget_drive hr hphase hstart htick (h.inPhase hs)
    refine ⟨⟨htg.trans h.tag, ?_, ?_, ?_⟩, fun ha => ⟨hs, (hwait ha).2.1⟩⟩
    · intro ha
      exact .inr (UInt32.le_iff_toNat_le.mp (hwait ha).2.1)
    · intro ha
      have := (hwait ha).2.2
      have := h.budget hs
      omega
    · -- the client stops waiting: by a binding, or by the timeout
      intro ha
      unfold NetStack.DhcpSettled
      rw [hphase, haddrs]
      unfold DhcpClient.dhcp_active at ha
      rw [hphase] at ha
      unfold NetStack.dhcp_ticked at ha ⊢
      by_cases hra : r.dhcp_active = true
      · rw [if_pos hra] at ha ⊢
        unfold NetStack.dhcp_timeout at ha ⊢
        by_cases ht : 12000 < r.dhcp_stamp.tick - r.dhcp_stamp.dhcp_phase_start_tick
        · rw [if_pos ht]
          exact .inl ⟨rfl, rfl⟩
        · rw [if_neg ht] at ha
          have hst : r.dhcp_stamp.dhcp_phase = r.dhcp_phase := by
            unfold NetStack.dhcp_stamp
            split_ifs <;> rfl
          rw [hst] at ha
          unfold DhcpClient.dhcp_active at hra
          rw [ha] at hra
          cases hra
      · rw [if_neg hra]
        rcases hr.2.2 with hv | ⟨-, hack, -⟩ | ⟨-, hb⟩
        · exact absurd ((dhcpView_active hv).trans hs) hra
        · simp [DhcpClient.dhcp_active, hack] at hra
        · exact .inr hb
  · have hs0 : s.dhcp_active = false := eq_false_of_ne_true hs
    obtain ⟨hp, ha⟩ := hset hs0 vio polls script
    rw [← hs'] at hp ha
    have hact : s'.dhcp_active = false := by
      simpa [DhcpClient.dhcp_active, hp] using hs0
    refine ⟨⟨htg.trans h.tag, ?_, ?_, ?_⟩, ?_⟩
    · intro hc; rw [hact] at hc; cases hc
    · intro hc; rw [hact] at hc; cases hc
    · intro _
      unfold NetStack.DhcpSettled
      rw [hp, ha]
      exact h.settled hs0
    · intro hc; rw [hact] at hc; cases hc

theorem dhcpInv_main {settings : DeviceSettings} (hd : settings.ip_config = .Dhcp) {n : Nat}
    {x : Node} {e : MainEvent} (he : e.keeps settings) (h : DhcpInv settings n x.1) :
    DhcpInv settings (n + if e.isDrive then 1 else 0) (Node.main env x e).1 := by
  cases e with
  | drive st polls script =>
    subst he
    exact (dhcpInv_drive env hd h x.2 polls script).1
  | _ => exact dhcpInv_of_view (main_dhcpView env rfl) h

theorem dhcpInv_run {settings : DeviceSettings} (hd : settings.ip_config = .Dhcp) {n : Nat}
    {x : Node} {es : List MainEvent} (hes : ∀ e ∈ es, e.keeps settings)
    (h : DhcpInv settings n x.1) :
    DhcpInv settings (n + es.countP (·.isDrive)) (run (Node.main env) x es).1 := by
  induction es generalizing n x with
  | nil => exact h
  | cons e es ih =>
    have hstep := dhcpInv_main env hd (hes e List.mem_cons_self) h
    have hrun := ih (fun e' he' => hes e' (List.mem_cons_of_mem _ he')) hstep
    rw [List.countP_cons, run_cons]
    rw [show n + (es.countP (·.isDrive) + if e.isDrive = true then 1 else 0)
      = n + (if e.isDrive = true then 1 else 0) + es.countP (·.isDrive) by omega]
    exact hrun

/-- Entering DHCP starts with the whole budget. -/
theorem dhcpInv_sync {settings : DeviceSettings} (hd : settings.ip_config = .Dhcp) {s : NetStack}
    (htag : settings.ip_settings_tag ≠ s.ip_settings_tag) :
    DhcpInv settings 0 (s.sync_ip_from_settings settings settings.ip_settings_tag) := by
  unfold NetStack.sync_ip_from_settings
  rw [if_neg htag, hd]
  refine ⟨rfl, fun _ => .inl rfl, fun _ => ?_, fun h => by cases h⟩
  show phase_left 0 s.tick + 12004 + 0 ≤ 24006
  have := phase_left_le 0 s.tick
  omega

/-- A waiting client has budget left. -/
theorem wait_budget_pos {s : NetStack} (h : s.dhcp_active = true) : 1 ≤ s.wait_budget := by
  unfold NetStack.wait_budget
  cases hp : s.dhcp_phase with
  | WaitOffer => dsimp only; omega
  | WaitAck => dsimp only; omega
  | Idle => simp [DhcpClient.dhcp_active, hp] at h
  | Bound => simp [DhcpClient.dhcp_active, hp] at h

/-- Settled DHCP stays settled. -/
theorem settled_run {settings : DeviceSettings} (hd : settings.ip_config = .Dhcp) {n : Nat}
    {x : Node} {es : List MainEvent} (hes : ∀ e ∈ es, e.keeps settings)
    (h : DhcpInv settings n x.1) (hs : x.1.dhcp_active = false) :
    (run (Node.main env) x es).1.dhcp_active = false := by
  induction es generalizing n x with
  | nil => exact hs
  | cons e es ih =>
    have hstep := dhcpInv_main env hd (hes e List.mem_cons_self) h
    refine ih (fun e' he' => hes e' (List.mem_cons_of_mem _ he')) hstep ?_
    cases e with
    | drive st polls script =>
      have := hes _ List.mem_cons_self
      subst this
      obtain ⟨hp, -⟩ := drive_settled env hd h.tag hs x.2 polls script
      simpa [DhcpClient.dhcp_active, Node.main, Sys.node, hp] using hs
    | _ => exact (dhcpView_active (main_dhcpView env rfl)).trans hs

/-- **DHCP never waits forever.** From the moment the settings put the stack
into DHCP mode and as long as they stay the same, whatever frames arrive and
whatever transmissions fail: after 24010 `drive` calls the client is bound or
back on the SLIRP addresses, it never starts to wait again, and each `drive`
that leaves it waiting leaves its phase clock at 12000 ticks or less. -/
theorem dhcp_never_waits_forever (settings : DeviceSettings) (hd : settings.ip_config = .Dhcp)
    (s₀ : NetStack) (htag : settings.ip_settings_tag ≠ s₀.ip_settings_tag) (vio : AnyNic)
    (es : List MainEvent) (hes : ∀ e ∈ es, e.keeps settings) :
    let x₁ : Node := (s₀.sync_ip_from_settings settings settings.ip_settings_tag, vio)
    let s := (run (Node.main env) x₁ es).1
    (24010 ≤ es.countP (·.isDrive) → s.DhcpSettled)
    ∧ (∀ fs : List MainEvent, (∀ e ∈ fs, e.keeps settings) → s.dhcp_active = false →
        (run (Node.main env) x₁ (es ++ fs)).1.dhcp_active = false)
    ∧ (∀ polls script,
        let s' := (run (Node.main env) x₁ (es ++ [.drive settings polls script])).1
        s'.dhcp_active = true → s'.tick - s'.dhcp_phase_start_tick ≤ 12000) := by
  intro x₁ s
  have hinv := dhcpInv_run env hd hes (dhcpInv_sync hd htag (s := s₀)) (x := x₁)
  rw [Nat.zero_add] at hinv
  refine ⟨?_, ?_, ?_⟩
  · intro hn
    by_cases ha : s.dhcp_active = true
    · have h1 := hinv.budget ha
      have h2 := wait_budget_pos ha
      omega
    · exact hinv.settled (eq_false_of_ne_true ha)
  · intro fs hfs hs
    rw [run_append]
    exact settled_run env hd hfs hinv hs
  · intro polls script s' ha
    have hs' : s' = (Sys.drive env settings script ⟨s, (run (Node.main env) x₁ es).2, polls⟩).net := by
      show (run (Node.main env) x₁ (es ++ [.drive settings polls script])).1 = _
      rw [run_append]
      rfl
    rw [hs'] at ha ⊢
    exact ((dhcpInv_drive env hd hinv _ polls script).2 ha).2

/-- With no server on the network, 24010 calls settle the client. -/
theorem dhcp_settles_without_server :
    (run (Node.main .qemu)
      (NetStack.static_initial.sync_ip_from_settings .dhcp DeviceSettings.dhcp.ip_settings_tag,
        .lossless)
      (List.replicate 24010 (.drive .dhcp [] .refuse))).1.DhcpSettled := by
  refine (dhcp_never_waits_forever .qemu .dhcp rfl .static_initial (by decide) .lossless
    (List.replicate 24010 (.drive .dhcp [] .refuse)) ?_).1 ?_
  · intro e he
    rw [List.eq_of_mem_replicate he]
    rfl
  · rw [List.countP_replicate]
    exact le_rfl

end EveOS.Net
