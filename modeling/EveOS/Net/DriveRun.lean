/-
A call of `drive` is a run of operations.

The proof follows the call structure of the source from the inside out: the
receive loop, `tls_spin_poll`, the bridge, the two TLS phases, and `drive`
itself. While a TLS session is running `tls_poll` stays set, which is what the
guards of the session's operations ask for.
-/
import EveOS.Net.Frame

set_option autoImplicit false

namespace EveOS.Net

/-- The node of a system: what operations act on. -/
def Sys.node (sys : Sys) : Node := (sys.net, sys.vio)

variable (env : Env)

/-- `y` is reached from `x` by operations of the fetch. -/
abbrev FetchReaches : Node → Node → Prop := Reaches (Node.step env) Op.inFetch

theorem reaches_op {ok : Op → Prop} (x : Node) (op : Op) (h : ok op)
    (hen : op.enabled x.1 = true) : Reaches (Node.step env) ok x (op.act env x.1 x.2) := by
  have hone : Reaches (Node.step env) ok x (Node.step env x op) := Reaches.one x op h
  rwa [Node.step, if_pos hen] at hone

/-! ## Receiving -/

/-- No received frame ends a TLS session. -/
theorem handle_rx_tls_poll (s : NetStack) (vio : AnyNic) (frame : Bytes) :
    (s.handle_rx env vio frame).1.tls_poll = s.tls_poll := by
  rw [handle_rx_eq]
  cases s.rx_event frame with
  | ignored => rfl
  | arp mac => rfl
  | dhcp bootp =>
    show (s.handle_dhcp_reply env vio bootp).1.tls_poll = _
    obtain h | ⟨r, sid, -, h⟩ | ⟨r, -, h⟩ := handle_dhcp_reply_cases env s vio bootp <;>
      rw [h] <;> rfl
  | dns ip => rfl
  | tcp seg => exact congrArg NetRest.tls_poll (rest_take_segment env s vio seg)

theorem rx_loop_from_reaches (polls : List (Option Bytes)) (s : NetStack) (vio : AnyNic) :
    FetchReaches env (s, vio) (Sys.rx_loop_from env polls s vio).node
      ∧ (Sys.rx_loop_from env polls s vio).net.tls_poll = s.tls_poll := by
  induction polls generalizing s vio with
  | nil => exact ⟨Reaches.refl _ _ _, rfl⟩
  | cons p rest ih =>
    cases p with
    | none => exact ⟨Reaches.refl _ _ _, rfl⟩
    | some frame =>
      simp only [Sys.rx_loop_from]
      split_ifs
      · obtain ⟨hr, hp⟩ := ih (s.handle_rx env vio frame).1 (s.handle_rx env vio frame).2
        refine ⟨Reaches.trans ?_ hr, hp.trans (handle_rx_tls_poll env s vio frame)⟩
        exact reaches_op env (s, vio) (.rx frame) trivial rfl
      · exact ⟨Reaches.refl _ _ _, rfl⟩

theorem rx_loop_reaches (sys : Sys) :
    FetchReaches env sys.node (sys.rx_loop env).node
      ∧ (sys.rx_loop env).net.tls_poll = sys.net.tls_poll :=
  rx_loop_from_reaches env sys.polls sys.net sys.vio

/-! ## Inside a TLS session -/

/-- `sys'` is reached from `sys` inside a TLS session that is still running. -/
def InSession (sys sys' : Sys) : Prop :=
  FetchReaches env sys.node sys'.node ∧ sys'.net.tls_poll = true

theorem InSession.trans {env : Env} {sys sys' sys'' : Sys} (h₁ : InSession env sys sys')
    (h₂ : InSession env sys' sys'') : InSession env sys sys'' :=
  ⟨h₁.1.trans h₂.1, h₂.2⟩

theorem InSession.refl {sys : Sys} (h : sys.net.tls_poll = true) :
    InSession env sys sys := ⟨Reaches.refl _ _ _, h⟩

theorem flush_inSession {sys : Sys} (h : sys.net.tls_poll = true) :
    InSession env sys (sys.onTx fun s vio => s.tls_tx_flush_all env vio) := by
  refine ⟨reaches_op env sys.node .tls_flush trivial h, ?_⟩
  obtain ⟨q, i, b, hf⟩ := tls_tx_flush_all_eq env sys.net sys.vio
  show (sys.net.tls_tx_flush_all env sys.vio).1.tls_poll = true
  rw [hf]
  exact h

theorem tls_spin_poll_inSession {sys : Sys} (h : sys.net.tls_poll = true) :
    InSession env sys (sys.tls_spin_poll env) := by
  unfold Sys.tls_spin_poll
  rw [if_neg (by simp [h])]
  have hf := flush_inSession env h
  have hr := rx_loop_reaches env
    (sys.onTx fun s vio => s.tls_tx_flush_all env vio)
  exact hf.trans ⟨hr.1, hr.2.trans hf.2⟩

theorem pop_inSession {sys : Sys} (h : sys.net.tls_poll = true) (n : Nat) :
    InSession env sys
      (sys.onNet fun s => { s with toTlsSession := (sys.net.toTlsSession.tls_cipher_pop n).1 }) := by
  refine ⟨reaches_op env sys.node (.tls_pop n) trivial h, ?_⟩
  have : (sys.net.toTlsSession.tls_cipher_pop n).1.tls_poll = sys.net.tls_poll := by
    unfold TlsSession.tls_cipher_pop TlsSession.tls_cipher_compact
    dsimp only
    split_ifs <;> rfl
  exact this.trans h

theorem bridge_read_inSession (spins : Nat) {sys : Sys} (h : sys.net.tls_poll = true) (n : Nat) :
    InSession env sys (sys.bridge_read env spins n) := by
  induction spins generalizing sys with
  | zero => exact InSession.refl env h
  | succ spins ih =>
    have hp := pop_inSession env h n
    simp only [Sys.bridge_read]
    split_ifs
    · exact hp
    · exact hp
    · have hs := tls_spin_poll_inSession env hp.2
      exact (hp.trans hs).trans (ih hs.2)

theorem bridge_op_inSession {sys : Sys} (h : sys.net.tls_poll = true) (op : BridgeOp) :
    InSession env sys (sys.bridge_op env op) := by
  cases op with
  | read n =>
    simp only [Sys.bridge_op]
    split_ifs
    · exact InSession.refl env h
    · exact bridge_read_inSession env SPIN_MAX h n
  | write data =>
    refine ⟨reaches_op env sys.node (.tls_write data) trivial h, ?_⟩
    show (sys.net.toTlsSession.tls_cipher_tx_append data).1.tls_poll = true
    unfold TlsSession.tls_cipher_tx_append
    split_ifs <;> exact h
  | flush => exact ⟨reaches_op env sys.node .tls_note_flush trivial h, h⟩

theorem bridge_ops_inSession (ops : List BridgeOp) {sys : Sys} (h : sys.net.tls_poll = true) :
    InSession env sys (sys.bridge_ops env ops) := by
  induction ops generalizing sys with
  | nil => exact InSession.refl env h
  | cons op ops ih =>
    have ho := bridge_op_inSession env h op
    exact ho.trans (ih ho.2)

/-- The last operation of a session, after which `tls_poll` no longer matters. -/
theorem InSession.last {env : Env} {sys sys' : Sys} (h : InSession env sys sys')
    (op : Op) (hin : op.inFetch) (hen : op.enabled sys'.net = sys'.net.tls_poll) :
    FetchReaches env sys.node (op.act env sys'.net sys'.vio) :=
  h.1.trans (reaches_op env sys'.node op hin (hen.trans h.2))

theorem tls_send_get_reaches (script : TlsScript) {sys : Sys} (h : sys.net.tls_poll = true) :
    FetchReaches env sys.node (sys.tls_send_get env script).node := by
  have hopen : InSession env sys
      (sys.onNet fun s => { s with tls_live := true, tls_handshake_done := true }) :=
    ⟨reaches_op env sys.node .tls_opened trivial h, h⟩
  unfold Sys.tls_send_get
  dsimp only
  split
  · exact hopen.last (.tls_abort _) trivial (by simp [Op.enabled])
  · have hw := hopen.trans (bridge_ops_inSession env script.write_get.ops
      hopen.2)
    split_ifs
    · exact hw.last (.tls_abort _) trivial (by simp [Op.enabled])
    · exact (hw.trans (flush_inSession env hw.2)).last .tls_get_sent trivial rfl

theorem handshake_reaches (script : TlsScript) (sys : Sys)
    (h : (Op.enabled sys.net .tls_begin) = true) :
    FetchReaches env sys.node
      ((sys.onNet fun s => { s with https_handshake_queued := false }).run_https_handshake_and_get
        env script).node := by
  have hbegin : InSession env sys
      ((sys.onNet fun s => { s with https_handshake_queued := false }).onNet (·.set_tls_poll)) :=
    ⟨reaches_op env sys.node .tls_begin trivial h, rfl⟩
  unfold Sys.run_https_handshake_and_get
  dsimp only
  split_ifs
  · exact hbegin.last (.tls_fail _) trivial (by simp [Op.enabled])
  · have h1 := hbegin.trans (bridge_ops_inSession env
      script.open_isrg.ops hbegin.2)
    exact h1.1.trans (tls_send_get_reaches env script h1.2)
  · have h1 := hbegin.trans (bridge_ops_inSession env
      script.open_isrg.ops hbegin.2)
    have h2 := h1.trans (bridge_ops_inSession env
      script.open_digicert.ops h1.2)
    exact h2.1.trans (tls_send_get_reaches env script h2.2)
  · have h1 := hbegin.trans (bridge_ops_inSession env
      script.open_isrg.ops hbegin.2)
    have h2 := h1.trans (bridge_ops_inSession env
      script.open_digicert.ops h1.2)
    exact h2.last (.tls_fail _) trivial (by simp [Op.enabled])

theorem tls_read_loop_inSession (reads : List (List BridgeOp × Option Bytes)) {sys : Sys}
    (h : sys.net.tls_poll = true) :
    InSession env sys (sys.tls_read_loop env reads) := by
  induction reads generalizing sys with
  | nil => exact InSession.refl env h
  | cons r rest ih =>
    obtain ⟨ops, data⟩ := r
    have ho := bridge_ops_inSession env ops h
    cases data with
    | none =>
      exact ho.trans ⟨reaches_op env _ .tls_read_err trivial ho.2, ho.2⟩
    | some data =>
      simp only [Sys.tls_read_loop]
      split_ifs
      · exact ho
      · have hr : InSession env (sys.bridge_ops env ops)
            ((sys.bridge_ops env ops).onNet
              (·.ingest_tcp_payload env.dec (data.take NIC_RX_IOBUF))) :=
          ⟨reaches_op env _ (.tls_read _) trivial ho.2, ho.2⟩
        exact (ho.trans hr).trans (ih hr.2)

theorem tls_pump_reaches (script : TlsScript) (sys : Sys)
    (h : sys.net.https_mode = true ∧ sys.net.tls_handshake_done = true
      ∧ sys.net.get_sent = true ∧ sys.net.fetch_done = false) :
    FetchReaches env sys.node (sys.tls_pump_application env script).node := by
  unfold Sys.tls_pump_application
  split_ifs with hl
  · exact Reaches.refl _ _ _
  · have hl' : sys.net.tls_live = true := by simpa using hl
    have hbegin : InSession env sys (sys.onNet (·.set_tls_poll)) :=
      ⟨reaches_op env sys.node .tls_pump_begin trivial
        (by simp [Op.enabled, Sys.node, h, hl']), rfl⟩
    have h1 := hbegin.trans (tls_spin_poll_inSession env hbegin.2)
    have h2 := h1.trans (tls_read_loop_inSession env script.reads h1.2)
    exact (h2.trans (flush_inSession env h2.2)).last .tls_pump_end trivial rfl

theorem tls_poll_reaches (script : TlsScript) (sys : Sys) :
    FetchReaches env sys.node (sys.tls_poll env script).node := by
  unfold Sys.tls_poll
  dsimp only
  split_ifs with hb hp
  · exact handshake_reaches env script sys hb
  · refine tls_pump_reaches env script sys ?_
    simpa [and_assoc] using hp
  · exact Reaches.refl _ _ _

/-! ## `drive` -/

theorem tcp_poll_reaches (script : TlsScript) (sys : Sys)
    (h : Op.enabled sys.net .tcp_poll = true) :
    FetchReaches env sys.node (sys.tcp_poll env script).node := by
  have hop : FetchReaches env sys.node (sys.net.tcp_limits env sys.vio) :=
    reaches_op env sys.node .tcp_poll trivial h
  unfold Sys.tcp_poll
  unfold NetStack.tcp_limits at hop
  by_cases hc : sys.net.connect_expired = true
  · rw [if_pos hc] at hop ⊢
    exact hop
  · rw [if_neg hc] at hop ⊢
    dsimp only at hop ⊢
    by_cases ht : (sys.onTx fun s vio => s.syn_poll env vio).net.http_expired = true
    · rw [if_pos ht]
      rw [if_pos (show (sys.net.syn_poll env sys.vio).1.http_expired = true from ht)] at hop
      exact hop
    · rw [if_neg ht]
      rw [if_neg (show ¬ (sys.net.syn_poll env sys.vio).1.http_expired = true from ht)] at hop
      exact hop.trans (tls_poll_reaches env script (sys.onTx fun s vio => s.syn_poll env vio))

theorem fetch_poll_reaches (script : TlsScript) (sys : Sys) :
    FetchReaches env sys.node (sys.fetch_poll env script).node := by
  have hshow : FetchReaches env sys.node (sys.onNet (·.show_phase)).node :=
    reaches_op env sys.node .show_phase trivial rfl
  unfold Sys.fetch_poll
  dsimp only
  split_ifs with hg hd ht
  · exact hshow.trans (reaches_op env _ .arp_poll trivial rfl)
  · exact hshow.trans (reaches_op env (sys.onNet (·.show_phase)).node .dns_poll trivial hd)
  · exact hshow.trans (tcp_poll_reaches env script _ ht)
  · exact hshow

/-- What follows the DHCP part of `drive` are operations of the fetch. -/
theorem drive_front_reaches (settings : DeviceSettings) (script : TlsScript) (sys : Sys) :
    FetchReaches env (sys.drive_front env settings).node (sys.drive env settings script).node := by
  unfold Sys.drive
  dsimp only
  split_ifs
  · exact Reaches.refl _ _ _
  · exact Reaches.refl _ _ _
  · exact fetch_poll_reaches env script _

/-- **A call of `drive` is a run of its operations.** -/
theorem drive_reaches (settings : DeviceSettings) (script : TlsScript) (sys : Sys) :
    Reaches (Node.step env) (Op.inDrive settings) sys.node
      (sys.drive env settings script).node := by
  have hbegin : Reaches (Node.step env) (Op.inDrive settings) sys.node
      (sys.onNet (·.drive_begin settings)).node :=
    reaches_op env sys.node (.drive_begin settings) rfl rfl
  have hrx := hbegin.trans ((rx_loop_reaches env (sys.onNet (·.drive_begin settings))).1.mono
    (fun _ h => h.inDrive))
  have hfront : Reaches (Node.step env) (Op.inDrive settings) sys.node
      (sys.drive_front env settings).node := by
    unfold Sys.drive_front
    dsimp only
    split_ifs
    · exact hrx.trans (reaches_op env _ .dhcp_poll trivial rfl)
    · exact hrx
  exact hfront.trans ((drive_front_reaches env settings script sys).mono (fun _ h => h.inDrive))

/-! ## The main loop

What the main loop of the kernel does to the stack: it calls `drive` once per
frame and, between these calls, starts or resets a fetch. -/

inductive MainEvent
  | drive (settings : DeviceSettings) (polls : List (Option Bytes)) (script : TlsScript)
  | start_fetch (url : Bytes)
  | reset_demo
  | seed_from_mac (mac : Mac)

/-- One event of the main loop. -/
def Node.main (x : Node) : MainEvent → Node
  | .drive settings polls script => (Sys.drive env settings script ⟨x.1, x.2, polls⟩).node
  | .start_fetch url => (x.1.start_fetch url, x.2)
  | .reset_demo => (x.1.reset_demo, x.2)
  | .seed_from_mac mac => (x.1.seed_from_mac mac, x.2)

/-- One event of the main loop is a run of operations. -/
theorem main_reaches (x : Node) (e : MainEvent) :
    Reaches (Node.step env) (fun _ => True) x (Node.main env x e) := by
  cases e with
  | drive settings polls script =>
    exact (drive_reaches env settings script ⟨x.1, x.2, polls⟩).mono (fun _ _ => trivial)
  | start_fetch url => exact reaches_op env x (.start_fetch url) trivial rfl
  | reset_demo => exact reaches_op env x .reset_demo trivial rfl
  | seed_from_mac mac => exact reaches_op env x (.seed_from_mac mac) trivial rfl

/-- **The main loop is a run of operations.** What holds along every run of
operations holds whatever the main loop does. -/
theorem main_run_reaches (x : Node) (es : List MainEvent) :
    Reaches (Node.step env) (fun _ => True) x (run (Node.main env) x es) := by
  induction es generalizing x with
  | nil => exact Reaches.refl _ _ _
  | cons e es ih => exact (main_reaches env x e).trans (ih _)

end EveOS.Net
