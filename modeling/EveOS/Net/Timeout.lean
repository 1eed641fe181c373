/-
The two limits of a connection.

`HTTP TIMEOUT` and `TCP NO CONNECT` compare the tick with stamps that are taken
when the fetch starts. `Clock` counts the ticks of a run as natural numbers, since
the start of the fetch, since the stamp and since the request, so the wrap of the
32-bit tick has no say in the statement. The limits are sound in every run in
which the time spent in front of the connection stays out of them (`ClockOk`).
-/
import EveOS.Net.SendSeq

set_option autoImplicit false

namespace EveOS.Net

/-! ## Watching a run -/

/-- Ticks since the fetch was started, since the later of that and the last
payload, and since the later of the request and the last payload; and whether a
SYN of this fetch was built. -/
structure Clock where
  since_start : Nat
  since_progress : Nat
  since_request : Nat
  syn_built : Bool
  deriving DecidableEq

/-- The clock of a fetch that has just been started. -/
def Clock.zero : Clock := ⟨0, 0, 0, false⟩

/-- One more tick. -/
def Clock.tick (g : Clock) : Clock :=
  { g with
    since_start := g.since_start + 1
    since_progress := g.since_progress + 1
    since_request := g.since_request + 1 }

/-- A payload has arrived, or the request has just gone out. -/
def Clock.hear (g : Clock) (payload request : Bool) : Clock :=
  if payload then { g with since_progress := 0, since_request := 0 }
  else if request then { g with since_request := 0 }
  else g

section Hear

variable (g : Clock) (payload request : Bool)

theorem hear_start : (g.hear payload request).since_start = g.since_start := by
  unfold Clock.hear
  split_ifs <;> rfl

theorem hear_built : (g.hear payload request).syn_built = g.syn_built := by
  unfold Clock.hear
  split_ifs <;> rfl

theorem hear_progress :
    (g.hear payload request).since_progress = if payload then 0 else g.since_progress := by
  unfold Clock.hear
  split_ifs <;> rfl

end Hear

/-- The operation takes a payload. -/
def Op.takesPayload (s : NetStack) (op : Op) : Bool :=
  match op.segment s with
  | some (.payload, _) => true
  | _ => false

section Run

variable (env : Env)

def Clock.note (g : Clock) (x : Node) (op : Op) (x' : Node) : Clock :=
  match op with
  | .start_fetch _ => .zero
  | .drive_begin _ => g.tick
  | .tcp_poll => { g with syn_built := g.syn_built || x.1.sends_syn env }
  | _ => g.hear (op.takesPayload x.1) (!x.1.get_sent && x'.1.get_sent)

abbrev clockStep : Node × Clock → Op → Node × Clock := observe (Node.step env) (Clock.note env)

/-- The condition on a check of the limits: while the request is out, the time
since the stamp is inside its limit or the time since the request is outside; and
before the first SYN the time since the start is inside its limit. -/
def ClockOk (x : Node × Clock) (op : Op) : Prop :=
  op = .tcp_poll → op.enabled x.1.1 = true →
    (x.1.1.get_sent = true → x.2.since_progress % 2 ^ 32 ≤ 12000 ∨ 12000 < x.2.since_request)
    ∧ (x.1.1.get_sent = false → x.2.syn_built = true ∨ x.2.since_start % 2 ^ 32 ≤ 16000)

instance (x : Node × Clock) (op : Op) : Decidable (ClockOk x op) :=
  inferInstanceAs (Decidable (_ → _ → (_ → _) ∧ (_ → _)))

/-- The text of an error as `fetch_err` shows it. -/
def err_text (msg : String) : Bytes := (ascii msg).take FETCH_ERR_CAP

theorem set_err_text (s : NetStack) (msg : String) : (s.set_err msg).fetch_err = err_text msg := rfl

/-- The operation sets the error `msg`. -/
def SetsErr (msg : String) (x : Node) (op : Op) : Prop :=
  (Node.step env x op).1.fetch_err = err_text msg ∧ x.1.fetch_err ≠ err_text msg

/-- What a run is to be like at every step. -/
def TimeoutsSound (x : Node × Clock) (op : Op) : Prop :=
  (SetsErr env "HTTP TIMEOUT" x.1 op → x.1.1.get_sent = true ∧ 12000 < x.2.since_request)
    ∧ (SetsErr env "TCP NO CONNECT" x.1 op → x.2.syn_built = true)

/-! ## Who sets the two errors -/

/-- Only the TCP timers do. -/
theorem sets_timeout {x : Node} {op : Op} {msg : String}
    (hmsg : msg = "HTTP TIMEOUT" ∨ msg = "TCP NO CONNECT") (h : SetsErr env msg x op) :
    op.effect env x = .fail msg := by
  obtain ⟨hset, hnot⟩ := h
  rw [step_http] at hset
  have hcause := effect_cause env x op
  have hne : err_text msg ≠ [] := by
    rcases hmsg with rfl | rfl <;> decide
  have hreader : ∀ m ∈ READER_ERRORS, err_text msg ≠ err_text m := by
    rcases hmsg with rfl | rfl <;> decide
  have hop : ∀ m ∈ OP_ERRORS, err_text m = err_text msg → m = msg := by
    rcases hmsg with rfl | rfl <;> decide
  -- the error an operation starts from is not the one in question
  have hon : (op.effectOn x.1.toHttpFetch).fetch_err ≠ err_text msg := by
    cases op with
    | start_fetch url => exact fun h => hne h.symm
    | _ => exact hnot
  have hread : ∀ {s t : HttpFetch}, s.ErrFrom t → s.fetch_err ≠ err_text msg →
      t.fetch_err ≠ err_text msg := by
    intro s t hst hs ht
    rcases hst with he | ⟨m, hm, he⟩
    · exact hs (he.symm.trans ht)
    · exact hreader m hm (ht.symm.trans he)
  cases he : op.effect env x with
  | keep =>
    rw [he] at hset
    exact absurd hset hon
  | fail m =>
    rw [he] at hset hcause
    rw [hop m hcause.1 hset]
  | ingest data fin =>
    rw [he] at hset
    have hin := hread (ingest_reads env.dec (op.effectOn x.1.toHttpFetch) data).err hon
    cases fin with
    | false => exact absurd hset hin
    | true => exact absurd hset (hread (eof_reads env.dec _).err hin)
  | eof =>
    rw [he] at hset
    exact absurd hset (hread (eof_reads env.dec _).err hon)
  | clear_err =>
    rw [he] at hset
    exact absurd hset.symm hne
  | clear =>
    rw [he] at hset
    exact absurd hset.symm hne
  | start =>
    rw [he] at hset
    exact absurd hset.symm hne

/-! ## The stamps -/

/-- While a fetch is armed, the stamps say what the clock says. -/
structure ClockInv (s : NetStack) (g : Clock) : Prop where
  progress : s.fetch_armed = true → s.tick - s.fetch_progress_tick = UInt32.ofNat g.since_progress
  start : s.fetch_armed = true → s.tick - s.tcp_connect_start_tick = UInt32.ofNat g.since_start
  retries : s.fetch_armed = true → s.syn_retries ≠ 0 → g.syn_built = true

theorem ClockInv.of_disarmed {s : NetStack} {g : Clock} (h : s.fetch_armed = false) : ClockInv s g := by
  constructor <;> intro ha <;> rw [h] at ha <;> cases ha

/-- The stamps, and the counter of the SYNs, are as before. -/
theorem ClockInv.of_same {s s' : NetStack} {g g' : Clock} (h : ClockInv s g)
    (ha : s'.fetch_armed = true → s.fetch_armed = true) (ht : s'.tick = s.tick)
    (hp : s'.fetch_progress_tick = s.fetch_progress_tick)
    (hc : s'.tcp_connect_start_tick = s.tcp_connect_start_tick)
    (hr : s'.syn_retries ≠ 0 → s.syn_retries ≠ 0) (hgp : g'.since_progress = g.since_progress)
    (hgs : g'.since_start = g.since_start) (hgb : g'.syn_built = g.syn_built) : ClockInv s' g' := by
  constructor
  · intro ha'
    rw [ht, hp, hgp]
    exact h.progress (ha ha')
  · intro ha'
    rw [ht, hc, hgs]
    exact h.start (ha ha')
  · intro ha' hr'
    rw [hgb]
    exact h.retries (ha ha') (hr hr')

theorem clockInv_start_fetch (s : NetStack) (url : Bytes) : ClockInv (s.start_fetch url) .zero := by
  unfold NetStack.start_fetch
  cases parse_fetch_url url with
  | none => exact .of_disarmed rfl
  | some p =>
    dsimp only
    split_ifs
    · refine ⟨fun _ => ?_, fun _ => ?_, fun _ h => absurd rfl h⟩
      · exact UInt32.sub_self _
      · exact UInt32.sub_self _
    · refine ⟨fun _ => ?_, fun _ => ?_, fun _ h => absurd rfl h⟩
      · exact UInt32.sub_self _
      · exact UInt32.sub_self _

/-- A stamp one tick later. -/
theorem stamp_tick {tick stamp : UInt32} {n : Nat} (h : tick - stamp = UInt32.ofNat n) :
    tick + 1 - stamp = UInt32.ofNat (n + 1) := by
  rw [UInt32.ofNat_add, ← h]
  show tick + 1 - stamp = tick - stamp + 1
  grind

theorem clockInv_drive_begin {s : NetStack} {g : Clock} (h : ClockInv s g)
    (settings : DeviceSettings) : ClockInv (s.drive_begin settings) g.tick := by
  unfold NetStack.drive_begin NetStack.sync_ip_from_settings
  split_ifs
  · exact ⟨fun ha => stamp_tick (h.progress ha), fun ha => stamp_tick (h.start ha), h.retries⟩
  · apply ClockInv.of_disarmed
    cases settings.ip_config <;> rfl

theorem progress_take_segment (s : NetStack) (vio : AnyNic) (seg : TcpSegment) :
    (s.take_segment env vio seg).1.fetch_progress_tick
      = if s.seg_kind seg = .payload then s.tick else s.fetch_progress_tick := by
  have hfin : ∀ t : NetStack, (t.take_fin env).fetch_progress_tick = t.fetch_progress_tick :=
    fun t => congrArg TcpConn.fetch_progress_tick (conn_take_fin env t)
  unfold NetStack.take_segment
  cases s.seg_kind seg with
  | reset => rfl
  | nothing => rfl
  | bare_fin => exact hfin _
  | syn_ack =>
    show (s.take_syn_ack env vio seg).1.fetch_progress_tick = s.fetch_progress_tick
    unfold NetStack.take_syn_ack NetStack.tcp_send_get
    dsimp only
    split_ifs
    · rfl
    · rfl
    · split
      · rfl
      · split_ifs
        · rfl
        · split <;> rfl
  | payload =>
    show (s.take_payload env vio seg).1.fetch_progress_tick = s.tick
    exact take_payload_keeps env s vio seg (fun t => t.fetch_progress_tick)
      (fun t data => congrArg TcpConn.fetch_progress_tick (conn_deliver env t data))
      (fun _ _ => rfl) (fun _ _ => rfl) hfin

/-- A received frame: only a payload moves a stamp. -/
theorem clockInv_rx {s : NetStack} {g g' : Clock} (h : ClockInv s g) (vio : AnyNic) (frame : Bytes)
    (hgs : g'.since_start = g.since_start) (hgb : g'.syn_built = g.syn_built)
    (hgp : g'.since_progress = if Op.takesPayload s (.rx frame) then 0 else g.since_progress) :
    ClockInv (s.handle_rx env vio frame).1 g' := by
  rw [handle_rx_eq]
  unfold Op.takesPayload at hgp
  cases he : s.rx_event frame with
  | tcp seg =>
    rw [segment_rx he] at hgp
    have hrest := rest_take_segment env s vio seg
    have harm : s.fetch_armed = true := (segment_armed (segment_rx he)).1
    have htick : (s.take_segment env vio seg).1.tick = s.tick := congrArg NetRest.tick hrest
    have hprog := progress_take_segment env s vio seg
    constructor
    · intro _
      show (s.take_segment env vio seg).1.tick - (s.take_segment env vio seg).1.fetch_progress_tick = _
      rw [htick, hprog, hgp]
      cases hk : s.seg_kind seg with
      | payload => exact UInt32.sub_self _
      | reset => exact h.progress harm
      | syn_ack => exact h.progress harm
      | bare_fin => exact h.progress harm
      | nothing => exact h.progress harm
    · intro _
      have hconn : (s.take_segment env vio seg).1.tcp_connect_start_tick = s.tcp_connect_start_tick :=
        congrArg NetRest.tcp_connect_start_tick hrest
      show (s.take_segment env vio seg).1.tick
        - (s.take_segment env vio seg).1.tcp_connect_start_tick = _
      rw [htick, hconn, hgs]
      exact h.start harm
    · intro _ hr
      have hretries : (s.take_segment env vio seg).1.syn_retries = s.syn_retries :=
        congrArg NetRest.syn_retries hrest
      rw [hgb]
      apply h.retries harm
      rw [← hretries]
      exact hr
  | ignored =>
    rw [segment_rx_none (by rw [he]; exact nofun)] at hgp
    exact h.of_same id rfl rfl rfl id hgp hgs hgb
  | arp mac =>
    rw [segment_rx_none (by rw [he]; exact nofun)] at hgp
    exact h.of_same id rfl rfl rfl id hgp hgs hgb
  | dns ip =>
    rw [segment_rx_none (by rw [he]; exact nofun)] at hgp
    exact h.of_same id rfl rfl rfl (fun hr => absurd rfl hr) hgp hgs hgb
  | dhcp bootp =>
    rw [segment_rx_none (by rw [he]; exact nofun)] at hgp
    show ClockInv (s.handle_dhcp_reply env vio bootp).1 g'
    obtain hr | ⟨r, sid, -, hr⟩ | ⟨r, -, hr⟩ := handle_dhcp_reply_cases env s vio bootp
    · rw [hr]
      exact h.of_same id rfl rfl rfl id hgp hgs hgb
    · rw [hr]
      exact h.of_same id rfl rfl rfl id hgp hgs hgb
    · rw [hr]
      exact h.of_same id rfl rfl rfl id hgp hgs hgb

theorem clockInv_tcp_poll {s : NetStack} {g : Clock} (h : ClockInv s g) (vio : AnyNic)
    (hen : Op.tcp_poll.enabled s = true) :
    ClockInv (s.tcp_limits env vio).1 { g with syn_built := g.syn_built || s.sends_syn env } := by
  dsimp only [Op.enabled] at hen
  have harm : s.fetch_armed = true := by
    simp only [Bool.and_eq_true] at hen
    exact hen.1.1
  unfold NetStack.tcp_limits
  by_cases hexp : s.connect_expired = true
  · rw [if_pos hexp]
    exact .of_disarmed rfl
  rw [if_neg hexp]
  dsimp only
  split_ifs
  · exact .of_disarmed rfl
  · unfold NetStack.syn_poll
    split_ifs with htry
    · have hready : s.sends_syn env = true := by
        unfold NetStack.sends_syn
        rw [hen, Bool.true_and, Bool.and_assoc, htry, Bool.and_true]
        simpa using hexp
      refine ⟨fun _ => h.progress harm, fun _ => h.start harm, fun _ _ => ?_⟩
      show (g.syn_built || s.sends_syn env) = true
      rw [hready, Bool.or_true]
    · refine ⟨fun _ => h.progress harm, fun _ => h.start harm, fun _ hr => ?_⟩
      show (g.syn_built || s.sends_syn env) = true
      rw [h.retries harm hr, Bool.true_or]

/-- An operation that moves none of the stamps and takes no payload. -/
theorem ClockInv.hear {s s' : NetStack} {g : Clock} (h : ClockInv s g) (request : Bool)
    (ha : s'.fetch_armed = true → s.fetch_armed = true) (ht : s'.tick = s.tick)
    (hp : s'.fetch_progress_tick = s.fetch_progress_tick)
    (hc : s'.tcp_connect_start_tick = s.tcp_connect_start_tick)
    (hr : s'.syn_retries = s.syn_retries) : ClockInv s' (g.hear false request) := by
  apply h.of_same ha ht hp hc
  · rw [hr]
    exact id
  · rw [hear_progress]
    rfl
  · exact hear_start g false request
  · exact hear_built g false request

-- for any number, so that the hash of the MAC is not run
theorem clockInv_tcp_seq {s : NetStack} {g : Clock} (h : ClockInv s g) (q : UInt32)
    (request : Bool) : ClockInv { s with tcp_seq := q } (g.hear false request) :=
  h.hear request id rfl rfl rfl rfl

theorem clockInv_seed_from_mac {s : NetStack} {g : Clock} (h : ClockInv s g) (mac : Mac)
    (request : Bool) : ClockInv (s.seed_from_mac mac) (g.hear false request) := by
  unfold NetStack.seed_from_mac
  exact clockInv_tcp_seq h _ request

theorem clockInv_step (x : Node × Clock) (op : Op) (h : ClockInv x.1.1 x.2) :
    ClockInv (clockStep env x op).1.1 (clockStep env x op).2 := by
  obtain ⟨⟨s, vio⟩, g⟩ := x
  show ClockInv (Node.step env (s, vio) op).1 (g.note env (s, vio) op (Node.step env (s, vio) op))
  unfold Node.step
  by_cases hen : op.enabled s = true
  · rw [if_pos hen]
    cases op with
    | start_fetch url => exact clockInv_start_fetch s url
    | drive_begin settings => exact clockInv_drive_begin h settings
    | tcp_poll => exact clockInv_tcp_poll env h vio hen
    | rx frame =>
      apply clockInv_rx env h vio frame
      · exact hear_start _ _ _
      · exact hear_built _ _ _
      · exact hear_progress _ _ _
    | reset_demo => exact .of_disarmed rfl
    | seed_from_mac mac => exact clockInv_seed_from_mac h mac _
    | dhcp_poll =>
      show ClockInv (s.dhcp_poll env vio).1 (g.hear false _)
      unfold NetStack.dhcp_poll NetStack.dhcp_timeout NetStack.dhcp_retransmit NetStack.dhcp_stamp
      dsimp only
      split_ifs <;> exact h.hear _ id rfl rfl rfl rfl
    | dns_poll =>
      show ClockInv (s.dns_poll env vio).1 (g.hear false _)
      unfold NetStack.dns_poll
      dsimp only
      split_ifs
      · exact .of_disarmed rfl
      · exact h.hear _ id rfl rfl rfl rfl
      · exact .of_disarmed rfl
      · exact h.hear _ id rfl rfl rfl rfl
    | tls_flush =>
      obtain ⟨q, i, b, he⟩ := tls_tx_flush_all_eq env s vio
      show ClockInv (s.tls_tx_flush_all env vio).1
        (g.hear false (!s.get_sent && (s.tls_tx_flush_all env vio).1.get_sent))
      rw [he]
      exact h.hear _ id rfl rfl rfl rfl
    | tls_fail msg => exact .of_disarmed rfl
    | tls_abort msg => exact .of_disarmed rfl
    | tls_read_err => exact .of_disarmed rfl
    | tls_read data =>
      apply h.hear
      · intro ha
        rcases (ingest_reads env.dec s.toHttpFetch data).flags with ⟨hsame, -⟩ | ⟨hoff, -⟩
        · exact hsame.symm.trans ha
        · exact absurd (hoff.symm.trans ha) Bool.false_ne_true
      · rfl
      · rfl
      · rfl
      · rfl
    | tls_pump_end =>
      obtain ⟨f, he⟩ := tls_pump_eof_eq env s.clear_tls_poll
      have hfetch := http_tls_pump_eof env s.clear_tls_poll
      show ClockInv (s.clear_tls_poll.tls_pump_eof env)
        (g.hear false (!s.get_sent && (s.clear_tls_poll.tls_pump_eof env).get_sent))
      apply h.hear
      · intro ha
        change (s.clear_tls_poll.tls_pump_eof env).toHttpFetch.fetch_armed = true at ha
        rw [hfetch] at ha
        split_ifs at ha
        · rcases (eof_reads env.dec s.toHttpFetch).flags with ⟨hsame, -⟩ | ⟨hoff, -⟩
          · exact hsame.symm.trans ha
          · exact absurd (hoff.symm.trans ha) Bool.false_ne_true
        · exact ha
      · rw [he]; rfl
      · rw [he]; rfl
      · rw [he]; rfl
      · rw [he]; rfl
    | _ => exact h.hear _ id rfl rfl rfl rfl
  · rw [if_neg hen]
    cases op with
    | start_fetch url => exact absurd rfl hen
    | drive_begin settings => exact absurd rfl hen
    | rx frame => exact absurd rfl hen
    | tcp_poll =>
      have hquiet : s.sends_syn env = false := by
        rw [Bool.not_eq_true] at hen
        dsimp only [Op.enabled] at hen
        unfold NetStack.sends_syn
        simp only [hen, Bool.false_and]
      refine h.of_same id rfl rfl rfl id rfl rfl ?_
      show (g.syn_built || s.sends_syn env) = g.syn_built
      rw [hquiet, Bool.or_false]
    | _ => exact h.hear _ id rfl rfl rfl rfl

/-! ## The limits -/

theorem ofNat_lt_iff {m n : Nat} (hm : m < 2 ^ 32) :
    UInt32.ofNat m < UInt32.ofNat n ↔ m < n % 2 ^ 32 := by
  rw [UInt32.lt_iff_toNat_lt, UInt32.toNat_ofNat', UInt32.toNat_ofNat', Nat.mod_eq_of_lt hm]

/-- The two texts. -/
def LIMIT_ERRORS : List String := ["HTTP TIMEOUT", "TCP NO CONNECT"]

/-- No received segment has them. -/
theorem seg_effect_limit {s : NetStack} {seg : TcpSegment} {msg : String} (hmsg : msg ∈ LIMIT_ERRORS) :
    s.seg_effect seg ≠ .fail msg := by
  have hno : ∀ m ∈ ["TCP RST", "GET TOO LONG", "TLS RX OVFL"], HttpEffect.fail m ≠ .fail msg := by
    intro m hm he
    have hdis : ∀ a ∈ ["TCP RST", "GET TOO LONG", "TLS RX OVFL"], a ∉ LIMIT_ERRORS := by decide
    simp only [HttpEffect.fail.injEq] at he
    rw [← he] at hmsg
    exact hdis m hm hmsg
  unfold NetStack.seg_effect
  cases s.seg_kind seg with
  | reset => exact hno _ (by decide)
  | nothing => exact nofun
  | syn_ack =>
    dsimp only
    split_ifs
    · exact nofun
    · exact hno _ (by decide)
    · exact nofun
  | payload =>
    dsimp only
    split_ifs
    · exact nofun
    · exact hno _ (by decide)
    · exact nofun
  | bare_fin =>
    dsimp only
    split_ifs <;> exact nofun

/-- Only an enabled check of the limits fails a fetch with them. -/
theorem effect_limit {x : Node} {op : Op} {msg : String} (hmsg : msg ∈ LIMIT_ERRORS)
    (h : op.effect env x = .fail msg) : op = .tcp_poll ∧ op.enabled x.1 = true := by
  have hno : ∀ m ∈ OP_ERRORS, m ∉ LIMIT_ERRORS → HttpEffect.fail m ≠ .fail msg := by
    intro m _ hm he
    simp only [HttpEffect.fail.injEq] at he
    rw [← he] at hmsg
    exact hm hmsg
  unfold Op.effect at h
  split_ifs at h with hen
  cases op with
  | tcp_poll => exact ⟨rfl, hen⟩
  | start_fetch url =>
    dsimp only [Op.act_effect] at h
    split_ifs at h
    exact absurd h (hno _ (by decide) (by decide))
  | drive_begin settings =>
    dsimp only [Op.act_effect] at h
    split_ifs at h
  | rx frame =>
    change x.1.rx_effect env frame = _ at h
    unfold NetStack.rx_effect at h
    cases he : x.1.rx_event frame with
    | tcp seg =>
      rw [he] at h
      exact absurd h (seg_effect_limit hmsg)
    | dhcp bootp =>
      rw [he] at h
      dsimp only at h
      split_ifs at h
    | _ =>
      rw [he] at h
      cases h
  | dns_poll =>
    dsimp only [Op.act_effect] at h
    split_ifs at h
    exact absurd h (hno _ (by decide) (by decide))
  | tls_fail m =>
    dsimp only [Op.enabled] at hen
    simp only [Bool.and_eq_true, Bool.or_eq_true, beq_iff_eq] at hen
    rcases hen.2 with rfl | rfl
    · exact absurd h (hno _ (by decide) (by decide))
    · exact absurd h (hno _ (by decide) (by decide))
  | tls_abort m =>
    dsimp only [Op.enabled] at hen
    simp only [Bool.and_eq_true, Bool.or_eq_true, beq_iff_eq] at hen
    rcases hen.2 with rfl | rfl
    · exact absurd h (hno _ (by decide) (by decide))
    · exact absurd h (hno _ (by decide) (by decide))
  | tls_read_err => exact absurd h (hno _ (by decide) (by decide))
  | tls_pump_end =>
    dsimp only [Op.act_effect] at h
    split_ifs at h
  | _ => cases h

/-- What the check of the limits found. -/
theorem effect_tcp_poll {s : NetStack} {vio : AnyNic} {msg : String}
    (h : Op.tcp_poll.effect env (s, vio) = .fail msg) :
    (msg = "TCP NO CONNECT" ∧ s.connect_expired = true)
      ∨ (msg = "HTTP TIMEOUT" ∧ s.http_expired = true) := by
  unfold Op.effect at h
  split_ifs at h with hen
  dsimp only [Op.act_effect] at h
  split_ifs at h with hc he
  · exact .inl ⟨(HttpEffect.fail.inj h).symm, hc⟩
  · right
    refine ⟨(HttpEffect.fail.inj h).symm, ?_⟩
    obtain ⟨b, n, hsyn⟩ := syn_poll_eq env s vio
    rw [hsyn] at he
    exact he

/-- A connection that takes too long is given up. -/
theorem sets_no_connect {s : NetStack} (hen : Op.tcp_poll.enabled s = true)
    (hexp : s.connect_expired = true) (vio : AnyNic)
    (hnot : s.fetch_err ≠ err_text "TCP NO CONNECT") :
    SetsErr env "TCP NO CONNECT" (s, vio) .tcp_poll := by
  refine ⟨?_, hnot⟩
  unfold Node.step
  rw [if_pos hen]
  show (s.tcp_limits env vio).1.fetch_err = _
  unfold NetStack.tcp_limits
  rw [if_pos hexp]
  exact set_err_text s _

/-- A check of the limits that the condition allows is sound. -/
theorem timeouts_sound_step (x : Node × Clock) (op : Op) (h : ClockInv x.1.1 x.2)
    (hok : ClockOk x op) : TimeoutsSound env x op := by
  obtain ⟨⟨s, vio⟩, g⟩ := x
  have hcheck : ∀ msg ∈ LIMIT_ERRORS, SetsErr env msg (s, vio) op →
      op = .tcp_poll ∧ op.enabled s = true ∧ op.effect env (s, vio) = .fail msg := by
    intro msg hmsg hset
    have heff := sets_timeout env (by simpa [LIMIT_ERRORS] using hmsg) hset
    obtain ⟨hop, hen⟩ := effect_limit env hmsg heff
    exact ⟨hop, hen, heff⟩
  have harmed : Op.tcp_poll.enabled s = true → s.fetch_armed = true := by
    intro hen
    dsimp only [Op.enabled] at hen
    simp only [Bool.and_eq_true] at hen
    exact hen.1.1
  constructor
  · intro hset
    obtain ⟨rfl, hen, heff⟩ := hcheck _ (by decide) hset
    rcases effect_tcp_poll env heff with ⟨hmsg, -⟩ | ⟨-, hexp⟩
    · exact absurd hmsg (by decide)
    · unfold NetStack.http_expired at hexp
      rw [Bool.and_eq_true, decide_eq_true_eq, h.progress (harmed hen)] at hexp
      have hlate : 12000 < g.since_progress % 2 ^ 32 := (ofNat_lt_iff (by decide)).mp hexp.2
      refine ⟨hexp.1, ?_⟩
      rcases (hok rfl hen).1 hexp.1 with hin | hout
      · exact absurd hlate (Nat.not_lt.mpr hin)
      · exact hout
  · intro hset
    obtain ⟨rfl, hen, heff⟩ := hcheck _ (by decide) hset
    rcases effect_tcp_poll env heff with ⟨-, hexp⟩ | ⟨hmsg, -⟩
    · unfold NetStack.connect_expired at hexp
      rw [Bool.and_eq_true, Bool.or_eq_true, decide_eq_true_eq, decide_eq_true_eq,
        h.start (harmed hen)] at hexp
      rcases hexp.2 with hretries | hlate
      · have hne : s.syn_retries ≠ 0 := by omega
        exact h.retries (harmed hen) hne
      · have hlate' : 16000 < g.since_start % 2 ^ 32 := (ofNat_lt_iff (by decide)).mp hlate
        rcases (hok rfl hen).2 (by simpa using hexp.1) with hbuilt | hin
        · exact hbuilt
        · exact absurd hlate' (Nat.not_lt.mpr hin)
    · exact absurd hmsg (by decide)

/-- **The limits are sound.** In every run from the initial state whose checks of
the limits are `ClockOk`, `HTTP TIMEOUT` is only set when more than 12000 ticks
have passed since the request and the last payload, and `TCP NO CONNECT` only
behind a SYN of the same fetch. -/
theorem timeouts_are_sound (vio : AnyNic) (ops : List Op)
    (hok : Along (clockStep env) ClockOk ((NetStack.static_initial, vio), .zero) ops) :
    Along (clockStep env) (TimeoutsSound env) ((NetStack.static_initial, vio), .zero) ops := by
  refine along_of_invariant (I := fun x => ClockInv x.1.1 x.2) ?_ ?_ hok (.of_disarmed rfl)
  · intro x op h _
    exact clockInv_step env x op h
  · intro x op h hc
    exact timeouts_sound_step env x op h hc

end Run

/-! ### Concrete runs -/

/-- The answer comes with the next frames, and the connection is closed. -/
def prompt_run : List Op :=
  [.drive_begin .slirp, .rx gateway_arp, .start_fetch (ascii "http://10.0.2.2/"), .tcp_poll,
    .drive_begin .slirp, .rx (gateway_frame 80 1000 0x12 []), .tcp_poll, .drive_begin .slirp,
    .rx (gateway_frame 80 1001 0x18 (ascii "HTTP/1.0 200 OK\r\n\r\nhi")), .tcp_poll]

theorem prompt_run_is_sound :
    Along (clockStep .qemu) (TimeoutsSound .qemu) ((NetStack.static_initial, .lossless), .zero)
      prompt_run :=
  timeouts_are_sound .qemu .lossless prompt_run (by decide)

/-- A `drive` call that finds the gateway unknown. -/
def idle_drive : List Op := [.drive_begin .slirp, .show_phase, .arp_poll]

/-- `n` of them. -/
def idle_drives (n : Nat) : List Op := (List.replicate n idle_drive).flatten

/-- One idle `drive` call moves the tick and shows the ARP phase. -/
theorem idle_drive_run {s : NetStack} (vio : AnyNic) (g : Clock)
    (htag : DeviceSettings.slirp.ip_settings_tag = s.ip_settings_tag) (hgw : s.gw_known = false) :
    ∃ vio', run (clockStep .qemu) ((s, vio), g) idle_drive
      = (({ s with tick := s.tick + 1, phase := .Arp }, vio'), g.tick) := by
  have hbegin : s.drive_begin .slirp = { s with tick := s.tick + 1 } := by
    unfold NetStack.drive_begin NetStack.sync_ip_from_settings
    rw [if_pos htag]
  have hshow : NetStack.show_phase { s with tick := s.tick + 1 }
      = { s with tick := s.tick + 1, phase := .Arp } := by
    unfold NetStack.show_phase
    simp only [hgw, Bool.not_false, if_true]
  have hquiet : ∀ (c : Clock) (b : Bool), c.hear false (!b && b) = c := by
    intro c b
    cases b <;> rfl
  refine ⟨NetStack.arp_poll .qemu { s with tick := s.tick + 1, phase := .Arp } vio, ?_⟩
  show (((s.drive_begin .slirp).show_phase,
      NetStack.arp_poll .qemu (s.drive_begin .slirp).show_phase vio),
    (g.tick.hear false (!(s.drive_begin .slirp).get_sent && (s.drive_begin .slirp).show_phase.get_sent)).hear
      false (!(s.drive_begin .slirp).show_phase.get_sent
        && (s.drive_begin .slirp).show_phase.get_sent)) = _
  rw [hbegin, hshow, hquiet, hquiet]

/-- Nothing but the tick and the shown phase moves. -/
theorem idle_drives_run (n : Nat) {s : NetStack} (vio : AnyNic) (g : Clock)
    (htag : DeviceSettings.slirp.ip_settings_tag = s.ip_settings_tag) (hgw : s.gw_known = false) :
    ∃ vio', run (clockStep .qemu) ((s, vio), g) (idle_drives (n + 1))
      = (({ s with tick := s.tick + UInt32.ofNat (n + 1), phase := .Arp }, vio'),
        { g with
          since_start := g.since_start + (n + 1)
          since_progress := g.since_progress + (n + 1)
          since_request := g.since_request + (n + 1) }) := by
  have hcons : ∀ k, idle_drives (k + 1) = idle_drive ++ idle_drives k := fun _ => rfl
  induction n generalizing s vio g with
  | zero =>
    obtain ⟨vio', h⟩ := idle_drive_run vio g htag hgw
    refine ⟨vio', ?_⟩
    rw [hcons, run_append, h]
    rfl
  | succ n ih =>
    obtain ⟨vio', h⟩ := idle_drive_run vio g htag hgw
    obtain ⟨vio'', h'⟩ := ih (s := { s with tick := s.tick + 1, phase := .Arp }) vio' g.tick htag hgw
    refine ⟨vio'', ?_⟩
    have htick : s.tick + 1 + UInt32.ofNat (n + 1) = s.tick + UInt32.ofNat (n + 1 + 1) := by
      rw [UInt32.ofNat_add (n + 1) 1, UInt32.add_assoc, UInt32.add_comm 1]
      rfl
    rw [hcons, run_append, h, h']
    simp only [htick, Clock.tick]
    congr 2
    all_goals omega

/-- The stack behind its first `drive` call, with a fetch. -/
def armed_stack : NetStack :=
  (NetStack.static_initial.drive_begin .slirp).start_fetch (ascii "http://10.0.2.2/")

/-- The gateway answers after 16001 `drive` calls. -/
def slow_gateway_run : List Op :=
  [.drive_begin .slirp, .start_fetch (ascii "http://10.0.2.2/")] ++ idle_drives (16000 + 1)
    ++ [.drive_begin .slirp, .rx gateway_arp, .tcp_poll]

/-- The stack at the end of the wait. -/
def late_stack : NetStack :=
  ({ armed_stack with
    tick := armed_stack.tick + UInt32.ofNat (16000 + 1), phase := .Arp } : NetStack).drive_begin .slirp

/-- And with the gateway's answer. -/
def answered_stack : NetStack :=
  { late_stack with gw_mac := ⟨0x52, 0x55, 10, 0, 2, 2⟩, gw_known := true }

/-- The first check of the limits gives up a connection that was never tried. -/
theorem slow_gateway_run_unsound :
    ¬ Along (clockStep .qemu) (TimeoutsSound .qemu) ((NetStack.static_initial, .lossless), .zero)
      slow_gateway_run := by
  intro h
  unfold slow_gateway_run at h
  rw [along_append, run_append] at h
  have hfirst : run (clockStep .qemu) ((NetStack.static_initial, .lossless), .zero)
      [.drive_begin .slirp, .start_fetch (ascii "http://10.0.2.2/")]
      = ((armed_stack, .lossless), .zero) := rfl
  obtain ⟨vio, hidle⟩ := idle_drives_run 16000 (s := armed_stack) .lossless .zero
    (by decide) (by decide)
  rw [hfirst, hidle] at h
  obtain ⟨-, -, hsound, -⟩ := h.2
  have hevent : late_stack.rx_event gateway_arp = .arp ⟨0x52, 0x55, 10, 0, 2, 2⟩ := by
    decide
  have hnode : late_stack.handle_rx .qemu vio gateway_arp = (answered_stack, vio) := by
    rw [handle_rx_eq, hevent]
    rfl
  have hexp : answered_stack.connect_expired = true := by decide
  have hen : Op.tcp_poll.enabled answered_stack = true := by decide
  have hsets : SetsErr .qemu "TCP NO CONNECT" (late_stack.handle_rx .qemu vio gateway_arp)
      .tcp_poll := by
    rw [hnode]
    exact sets_no_connect .qemu hen hexp vio (by decide)
  have hbuilt := hsound.2 hsets
  change (Clock.hear _ _ _).syn_built = true at hbuilt
  rw [hear_built] at hbuilt
  cases hbuilt

end EveOS.Net
