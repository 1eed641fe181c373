/-
What the main loop sees of a fetch that is over.

The phase `Done` is shown only for such a fetch, and only by a call of `drive`
that comes to the end of its DHCP part. From then on no client waits for an
acknowledgement, and `drive` leaves the response alone.
-/
import EveOS.Net.AddressSettings
import EveOS.Net.Frozen

set_option autoImplicit false

namespace EveOS.Net

/-! ## The phase -/

/-- `Done` is shown only for a fetch that is over. -/
def NetStack.DoneOver (s : NetStack) : Prop := s.phase = .Done → s.fetch_done = true

/-- The operation is none of those that can change the phase. -/
def Op.phaseQuiet : Op → Bool
  | .start_fetch _ | .reset_demo | .drive_begin _ | .show_phase => false
  | _ => true

variable (env : Env)

theorem handle_rx_phase (s : NetStack) (vio : AnyNic) (frame : Bytes) :
    (s.handle_rx env vio frame).1.phase = s.phase := by
  rw [handle_rx_eq]
  cases s.rx_event frame with
  | ignored => rfl
  | arp mac => rfl
  | dhcp bootp =>
    show (s.handle_dhcp_reply env vio bootp).1.phase = _
    obtain h | ⟨r, sid, -, h⟩ | ⟨r, -, h⟩ := handle_dhcp_reply_cases env s vio bootp
    · rw [h]
    · rw [h]
      rfl
    · rw [h]
      rfl
  | dns ip => rfl
  | tcp seg => exact congrArg NetRest.phase (rest_take_segment env s vio seg)

theorem dhcp_stamp_phase (s : NetStack) : s.dhcp_stamp.phase = s.phase := by
  unfold NetStack.dhcp_stamp
  split_ifs
  · rfl
  · rfl

theorem dhcp_retransmit_phase (s : NetStack) (vio : AnyNic) :
    (s.dhcp_retransmit env vio).1.phase = s.phase := by
  unfold NetStack.dhcp_retransmit
  split_ifs
  · rfl
  · rfl

theorem dhcp_timeout_phase (s : NetStack) : s.dhcp_timeout.phase = s.phase := by
  unfold NetStack.dhcp_timeout
  split_ifs
  · rfl
  · rfl

theorem dhcp_poll_phase (s : NetStack) (vio : AnyNic) : (s.dhcp_poll env vio).1.phase = s.phase := by
  unfold NetStack.dhcp_poll
  split_ifs
  · exact (dhcp_timeout_phase _).trans ((dhcp_retransmit_phase env _ vio).trans (dhcp_stamp_phase s))
  · rfl

-- stated for any sequence number first: `rfl` would run the hash of the MAC
theorem seed_from_mac_phase (s : NetStack) (mac : Mac) : (s.seed_from_mac mac).phase = s.phase := by
  have hseq : ∀ q : UInt32, ({ s with tcp_seq := q } : NetStack).phase = s.phase := fun _ => rfl
  unfold NetStack.seed_from_mac
  exact hseq _

theorem step_phase (x : Node) {op : Op} (h : op.phaseQuiet = true) :
    (Node.step env x op).1.phase = x.1.phase := by
  obtain ⟨s, vio⟩ := x
  unfold Node.step
  split_ifs
  · cases op with
    | start_fetch url => cases h
    | reset_demo => cases h
    | drive_begin settings => cases h
    | show_phase => cases h
    | rx frame => exact handle_rx_phase env s vio frame
    | dhcp_poll => exact dhcp_poll_phase env s vio
    | seed_from_mac mac => exact seed_from_mac_phase s mac
    | dns_poll =>
      obtain ⟨h, d, i, he⟩ := dns_poll_eq env s vio
      show (s.dns_poll env vio).1.phase = _
      rw [he]
    | tcp_poll =>
      obtain ⟨h, b, n, he⟩ := tcp_limits_eq env s vio
      show (s.tcp_limits env vio).1.phase = _
      rw [he]
    | tls_flush =>
      obtain ⟨q, i, b, he⟩ := tls_tx_flush_all_eq env s vio
      show (s.tls_tx_flush_all env vio).1.phase = _
      rw [he]
    | tls_pump_end =>
      obtain ⟨h, he⟩ := tls_pump_eof_eq env s.clear_tls_poll
      show (s.clear_tls_poll.tls_pump_eof env).phase = _
      rw [he]
      rfl
    | _ => rfl
  · rfl

/-- Such an operation does not take a fetch that is over back. -/
theorem step_done {x : Node} {op : Op} (h : op.phaseQuiet = true) (hd : x.1.fetch_done = true) :
    (Node.step env x op).1.fetch_done = true := by
  have hon : op.effectOn x.1.toHttpFetch = x.1.toHttpFetch := by
    cases op with
    | start_fetch url => cases h
    | _ => rfl
  have hflags : ∀ {t : HttpFetch}, x.1.toHttpFetch.FlagsFrom t → t.fetch_done = true := by
    rintro t (⟨-, hsame⟩ | ⟨-, hdone⟩)
    · exact hsame.trans hd
    · exact hdone
  have hcause := effect_cause env x op
  show (Node.step env x op).1.toHttpFetch.fetch_done = true
  rw [step_http, hon]
  cases he : op.effect env x with
  | keep => exact hd
  | fail msg => rfl
  | ingest data fin =>
    have hin := hflags (ingest_reads env.dec x.1.toHttpFetch data).flags
    cases fin with
    | false => exact hin
    | true =>
      rcases (eof_reads env.dec (x.1.toHttpFetch.ingest_tcp_payload env.dec data)).flags with
        ⟨-, hsame⟩ | ⟨-, hdone⟩
      · exact hsame.trans hin
      · exact hdone
  | eof => exact hflags (eof_reads env.dec x.1.toHttpFetch).flags
  | clear_err => exact hd
  | clear =>
    rw [he] at hcause
    rcases hcause with rfl | ⟨settings, rfl, -⟩
    · cases h
    · cases h
  | start =>
    rw [he] at hcause
    obtain ⟨url, rfl⟩ := hcause
    cases h

theorem drive_begin_phase (s : NetStack) (st : DeviceSettings) :
    (s.drive_begin st).phase = .Off ∨ s.ip_settings_tag = st.ip_settings_tag ∧
      s.drive_begin st = { s with tick := s.tick + 1 } := by
  by_cases htag : s.ip_settings_tag = st.ip_settings_tag
  · exact .inr ⟨htag, drive_begin_same htag⟩
  · left
    unfold NetStack.drive_begin NetStack.sync_ip_from_settings
    rw [if_neg (Ne.symm htag)]
    rfl

theorem show_phase_doneOver (s : NetStack) : s.show_phase.DoneOver := by
  intro hphase
  cases hdone : s.fetch_done with
  | true => exact hdone
  | false =>
    unfold NetStack.show_phase at hphase
    dsimp only at hphase
    rw [hdone] at hphase
    split_ifs at hphase
    contradiction

theorem doneOver_step (x : Node) (op : Op) (h : x.1.DoneOver) (hop : op.inFetch) :
    (Node.step env x op).1.DoneOver := by
  by_cases hquiet : op.phaseQuiet = true
  · intro hphase
    rw [step_phase env x hquiet] at hphase
    exact step_done env hquiet (h hphase)
  · cases op with
    | start_fetch url => exact hop.elim
    | reset_demo => exact hop.elim
    | drive_begin settings => exact hop.elim
    | show_phase => exact show_phase_doneOver x.1
    | _ => exact absurd rfl hquiet

theorem doneOver_reaches {x y : Node} (h : FetchReaches env x y) (hx : x.1.DoneOver) : y.1.DoneOver :=
  Reaches.invariant (I := fun z : Node => z.1.DoneOver) (fun z op hz hop => doneOver_step env z op hz hop)
    h hx

/-! ## The error fits its array -/

theorem err_fits_step (x : Node) (op : Op) (h : x.1.fetch_err.length ≤ FETCH_ERR_CAP) :
    (Node.step env x op).1.fetch_err.length ≤ FETCH_ERR_CAP := by
  have hmsg : ∀ msg : String, ((ascii msg).take FETCH_ERR_CAP).length ≤ FETCH_ERR_CAP :=
    fun msg => List.length_take_le _ _
  have hon : (op.effectOn x.1.toHttpFetch).fetch_err.length ≤ FETCH_ERR_CAP := by
    cases op with
    | start_fetch url => exact Nat.zero_le _
    | _ => exact h
  have hfrom : ∀ {s t : HttpFetch}, s.ErrFrom t → s.fetch_err.length ≤ FETCH_ERR_CAP →
      t.fetch_err.length ≤ FETCH_ERR_CAP := by
    rintro s t (hsame | ⟨msg, -, hnew⟩) hs
    · rw [hsame]
      exact hs
    · rw [hnew]
      exact hmsg msg
  show (Node.step env x op).1.toHttpFetch.fetch_err.length ≤ FETCH_ERR_CAP
  rw [step_http]
  cases op.effect env x with
  | keep => exact hon
  | fail msg => exact hmsg msg
  | ingest data fin =>
    have hin := hfrom (ingest_reads env.dec (op.effectOn x.1.toHttpFetch) data).err hon
    cases fin with
    | false => exact hin
    | true => exact hfrom (eof_reads env.dec _).err hin
  | eof => exact hfrom (eof_reads env.dec _).err hon
  | clear_err => exact Nat.zero_le _
  | clear => exact Nat.zero_le _
  | start => exact Nat.zero_le _

/-! ## `drive` -/

section Drive

variable {s : NetStack} (vio : AnyNic) (polls : List (Option Bytes)) {st : DeviceSettings}
  (script : TlsScript)

theorem rx_loop_from_phase (polls : List (Option Bytes)) (s : NetStack) (vio : AnyNic) :
    (Sys.rx_loop_from env polls s vio).net.phase = s.phase := by
  induction polls generalizing s vio with
  | nil => rfl
  | cons p rest ih =>
    cases p with
    | none => rfl
    | some frame =>
      unfold Sys.rx_loop_from
      split_ifs
      · exact (ih _ _).trans (handle_rx_phase env s vio frame)
      · rfl

theorem drive_front_phase :
    (Sys.drive_front env st ⟨s, vio, polls⟩).net.phase = (s.drive_begin st).phase := by
  unfold Sys.drive_front
  dsimp only
  split_ifs
  · exact (dhcp_poll_phase env _ _).trans (rx_loop_from_phase env polls (s.drive_begin st) vio)
  · exact rx_loop_from_phase env polls (s.drive_begin st) vio

/-- Behind its DHCP part `drive` shows `Done` only for a fetch that is over. -/
theorem fetch_poll_doneOver (sys : Sys) : (Sys.fetch_poll env script sys).net.DoneOver := by
  have hshown : (sys.onNet (·.show_phase)).net.DoneOver := show_phase_doneOver sys.net
  unfold Sys.fetch_poll
  dsimp only
  split_ifs with hgw hdns htcp
  · exact hshown
  · exact doneOver_reaches env
      (reaches_op env (sys.onNet (·.show_phase)).node .dns_poll trivial hdns) hshown
  · exact doneOver_reaches env (tcp_poll_reaches env script _ htcp) hshown
  · exact hshown

/-- The phase `Done` goes with addresses, and with a DHCP client that rests. -/
def NetStack.DoneRests (s : NetStack) : Prop :=
  s.phase = .Done → s.dhcp_active = false ∧ s.addrs.is_our_zero = false

/-- The DHCP client runs only with DHCP settings. -/
def NetStack.DhcpAsked (s : NetStack) (st : DeviceSettings) : Prop :=
  s.dhcp_active = true → s.ip_settings_tag = st.ip_settings_tag → st.ip_config = .Dhcp

instance (s : NetStack) (st : DeviceSettings) : Decidable (s.DhcpAsked st) :=
  inferInstanceAs (Decidable (_ → _ → _))

theorem drive_begin_rests (hask : s.DhcpAsked st) (hst : st.ip_config ≠ .Dhcp) :
    (s.drive_begin st).dhcp_active = false := by
  by_cases htag : s.ip_settings_tag = st.ip_settings_tag
  · rw [drive_begin_same htag]
    show s.dhcp_active = false
    cases hact : s.dhcp_active with
    | false => rfl
    | true => exact absurd (hask hact htag) hst
  · have hasks : ∃ a, a ∈ st.asks := by
      unfold DeviceSettings.asks
      cases hc : st.ip_config with
      | Slirp => exact ⟨_, rfl⟩
      | Static => exact ⟨_, rfl⟩
      | Dhcp => exact absurd hc hst
    obtain ⟨a, ha⟩ := hasks
    exact ((drive_begin_changed (Ne.symm htag)).2.1 a ha).2

theorem drive_begin_tag : (s.drive_begin st).ip_settings_tag = st.ip_settings_tag := by
  by_cases htag : s.ip_settings_tag = st.ip_settings_tag
  · rw [drive_begin_same htag]
    exact htag
  · exact (drive_begin_changed (Ne.symm htag)).1

/-- After `drive` the stack has the tag of the settings. -/
theorem drive_tag (hask : s.DhcpAsked st) :
    (Sys.drive env st script ⟨s, vio, polls⟩).net.ip_settings_tag = st.ip_settings_tag := by
  by_cases hst : st.ip_config = .Dhcp
  · obtain ⟨r, -, -, -, -, -, htag⟩ := drive_dhcp_begin env hst s vio polls script
    exact htag.trans drive_begin_tag
  · have hview := drive_dhcpView_quiet env hst s (drive_begin_rests hask hst) vio polls script
    exact (congrArg DhcpView.ip_settings_tag hview).trans drive_begin_tag

theorem rx_loop_from_rests (polls : List (Option Bytes)) (vio : AnyNic)
    (hrest : s.dhcp_active = false) :
    (Sys.rx_loop_from env polls s vio).net.dhcpView = s.dhcpView := by
  obtain ⟨-, -, h | ⟨h, -, -⟩ | ⟨h, -⟩⟩ := rx_loop_dhcp env polls s vio
  · exact h
  · rw [DhcpClient.dhcp_active, h] at hrest
    cases hrest
  · rw [h] at hrest
    cases hrest

/-- With a client that rests, only frames are handled in front of the fetch. -/
theorem drive_front_rests (hrest : (s.drive_begin st).dhcp_active = false) :
    (Sys.drive_front env st ⟨s, vio, polls⟩).net =
      (Sys.rx_loop_from env polls (s.drive_begin st) vio).net := by
  have hact := (dhcpView_active (rx_loop_from_rests env polls vio hrest)).trans hrest
  have hpoll : ∀ vio', ((Sys.rx_loop_from env polls (s.drive_begin st) vio).net.dhcp_poll env vio').1 =
      (Sys.rx_loop_from env polls (s.drive_begin st) vio).net := by
    intro vio'
    unfold NetStack.dhcp_poll
    rw [if_neg (by rw [hact]; decide)]
  unfold Sys.drive_front
  dsimp only
  split_ifs
  · exact hpoll _
  · rfl

theorem drive_front_view (hrest : (s.drive_begin st).dhcp_active = false) :
    (Sys.drive_front env st ⟨s, vio, polls⟩).net.dhcpView = (s.drive_begin st).dhcpView := by
  rw [drive_front_rests env vio polls hrest]
  exact rx_loop_from_rests env polls vio hrest

/-- A stack that shows `Done` does not stop at DHCP. -/
theorem front_of_done (hrests : s.DoneRests)
    (hphase : (Sys.drive_front env st ⟨s, vio, polls⟩).net.phase = .Done) :
    (Sys.drive_front env st ⟨s, vio, polls⟩).net.dhcp_active = false ∧
      (Sys.drive_front env st ⟨s, vio, polls⟩).net.addrs.is_our_zero = false := by
  rw [drive_front_phase env vio polls] at hphase
  rcases drive_begin_phase s st with hoff | ⟨-, hsame⟩
  · cases hoff.symm.trans hphase
  · rw [hsame] at hphase
    obtain ⟨hrest, hzero⟩ := hrests hphase
    have hview : (Sys.drive_front env st ⟨s, vio, polls⟩).net.dhcpView = (s.drive_begin st).dhcpView :=
      drive_front_view env vio polls (by rw [hsame]; exact hrest)
    rw [hsame] at hview
    exact ⟨(dhcpView_active hview).trans hrest,
      (congrArg (fun v => v.addrs.is_our_zero) hview).trans hzero⟩

/-- **What `Done` means after a call of `drive`.** -/
theorem drive_done (hask : s.DhcpAsked st) (hrests : s.DoneRests)
    (hphase : (Sys.drive env st script ⟨s, vio, polls⟩).net.phase = .Done) :
    (Sys.drive env st script ⟨s, vio, polls⟩).net.fetch_done = true ∧
      (Sys.drive env st script ⟨s, vio, polls⟩).net.dhcp_active = false ∧
        (Sys.drive env st script ⟨s, vio, polls⟩).net.addrs.is_our_zero = false := by
  have hfront := @front_of_done env s vio polls st hrests
  have hrest : st.ip_config ≠ .Dhcp →
      (Sys.drive_front env st ⟨s, vio, polls⟩).net.dhcp_active = false := by
    intro hst
    have hbegin := drive_begin_rests hask hst
    exact (dhcpView_active (drive_front_view env vio polls hbegin)).trans hbegin
  unfold Sys.drive at hphase ⊢
  dsimp only at hphase ⊢
  generalize Sys.drive_front env st ⟨s, vio, polls⟩ = front at hfront hrest hphase ⊢
  by_cases hwait : (decide (st.ip_config = .Dhcp) && front.net.dhcp_active) = true
  · rw [if_pos hwait] at hphase
    rw [(hfront hphase).1, Bool.and_false] at hwait
    cases hwait
  · rw [if_neg hwait] at hphase ⊢
    by_cases hzero : front.net.addrs.is_our_zero = true
    · rw [if_pos hzero] at hphase
      cases hzero.symm.trans (hfront hphase).2
    · rw [if_neg hzero] at hphase ⊢
      have hact : front.net.dhcp_active = false := by
        by_cases hst : st.ip_config = .Dhcp
        · rw [hst] at hwait
          exact eq_false_of_ne_true hwait
        · exact hrest hst
      have hview := fetchReaches_dhcpView env (fetch_poll_reaches env script front) hact
      exact ⟨fetch_poll_doneOver env script front hphase, (dhcpView_active hview).trans hact,
        (congrArg (fun v => v.addrs.is_our_zero) hview).trans (eq_false_of_ne_true hzero)⟩

/-! ## A fetch that is over -/

/-- A frame does not touch the response of a fetch that is over. -/
theorem handle_rx_over (harm : s.fetch_armed = false) (hrest : s.dhcp_active = false)
    (frame : Bytes) :
    (s.handle_rx env vio frame).1.toHttpFetch = s.toHttpFetch ∧
      (s.handle_rx env vio frame).1.dhcp_active = false := by
  have hready := rx_event_ready s frame
  rw [handle_rx_eq]
  cases hev : s.rx_event frame with
  | ignored => exact ⟨rfl, hrest⟩
  | arp mac => exact ⟨rfl, hrest⟩
  | dns ip => exact ⟨rfl, hrest⟩
  | dhcp bootp =>
    rw [hev] at hready
    cases hrest.symm.trans hready
  | tcp seg =>
    have harmed := (segment_armed (segment_rx hev)).1
    cases harm.symm.trans harmed

theorem rx_loop_from_over (polls : List (Option Bytes)) (s : NetStack) (vio : AnyNic)
    (harm : s.fetch_armed = false) (hrest : s.dhcp_active = false) :
    (Sys.rx_loop_from env polls s vio).net.toHttpFetch = s.toHttpFetch ∧
      (Sys.rx_loop_from env polls s vio).net.dhcp_active = false := by
  induction polls generalizing s vio with
  | nil => exact ⟨rfl, hrest⟩
  | cons p rest ih =>
    cases p with
    | none => exact ⟨rfl, hrest⟩
    | some frame =>
      unfold Sys.rx_loop_from
      split_ifs
      · obtain ⟨hfetch, hrest'⟩ := handle_rx_over env vio harm hrest frame
        have harm' : (s.handle_rx env vio frame).1.fetch_armed = false :=
          (congrArg HttpFetch.fetch_armed hfetch).trans harm
        obtain ⟨hloop, hrest''⟩ := ih _ (s.handle_rx env vio frame).2 harm' hrest'
        exact ⟨hloop.trans hfetch, hrest''⟩
      · exact ⟨rfl, hrest⟩

theorem fetch_poll_over {sys : Sys} (harm : sys.net.fetch_armed = false) :
    (Sys.fetch_poll env script sys).net = sys.net.show_phase := by
  have hshown : (sys.onNet (·.show_phase)).net.fetch_armed = false := harm
  unfold Sys.fetch_poll
  dsimp only
  simp only [hshown, Bool.false_and, Bool.false_eq_true, if_false]
  split_ifs
  · rfl
  · rfl

/-- **`drive` leaves the response of a fetch that is over alone**, with the same
settings and a DHCP client that rests. -/
theorem drive_over (harm : s.fetch_armed = false) (hrest : s.dhcp_active = false)
    (htag : s.ip_settings_tag = st.ip_settings_tag) :
    (Sys.drive env st script ⟨s, vio, polls⟩).net.toHttpFetch = s.toHttpFetch ∧
      (Sys.drive env st script ⟨s, vio, polls⟩).net.dhcp_active = false := by
  have hbegin := drive_begin_same htag
  have hact : (s.drive_begin st).dhcp_active = false := by
    rw [hbegin]
    exact hrest
  have hfetch : (s.drive_begin st).toHttpFetch = s.toHttpFetch := by rw [hbegin]
  have hloop := rx_loop_from_over env polls (s.drive_begin st) vio
    ((congrArg HttpFetch.fetch_armed hfetch).trans harm) hact
  have hfront := drive_front_rests env vio polls hact
  rw [← hfront] at hloop
  unfold Sys.drive
  dsimp only
  generalize Sys.drive_front env st ⟨s, vio, polls⟩ = front at hloop ⊢
  obtain ⟨hsame, hrest'⟩ := hloop
  split_ifs
  · exact ⟨hsame.trans hfetch, hrest'⟩
  · exact ⟨hsame.trans hfetch, hrest'⟩
  · have harm' : front.net.fetch_armed = false :=
      (congrArg HttpFetch.fetch_armed (hsame.trans hfetch)).trans harm
    rw [fetch_poll_over env script harm']
    exact ⟨hsame.trans hfetch, hrest'⟩

end Drive

end EveOS.Net
