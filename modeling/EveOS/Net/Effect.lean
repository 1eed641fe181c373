/-
What each operation does to the response.

An operation touches the response side of the stack in one of a few ways: not at
all, with an error, with bytes, with the end of the stream, or by starting over.
`Op.effect` names the way, from the state and the operation, and `step_http` says
that this is all that happens. Statements about the page and the error of a fetch
are proved from it.
-/
import EveOS.Net.Feed
import EveOS.Net.Frame

set_option autoImplicit false

namespace EveOS.Net

/-- The response side behind `clear_fetch_inner`. -/
def HttpFetch.cleared (s : HttpFetch) : HttpFetch :=
  { HttpFetch.fresh s.page_gen with fetch_armed := false }

/-- What an operation does to the response. -/
inductive HttpEffect
  | keep
  | fail (msg : String)
  | ingest (data : Bytes) (fin : Bool)
  | eof
  | clear_err
  | clear
  | start
  deriving DecidableEq

def HttpEffect.act (dec : Decoders) (s : HttpFetch) : HttpEffect → HttpFetch
  | .keep => s
  | .fail msg => s.set_err msg
  | .ingest data false => s.ingest_tcp_payload dec data
  | .ingest data true => (s.ingest_tcp_payload dec data).finish_plain_http_on_tcp_eof dec
  | .eof => s.finish_plain_http_on_tcp_eof dec
  | .clear_err => { s with fetch_err := [] }
  | .clear => s.cleared
  | .start => .fresh (s.page_gen + 1)

variable (env : Env)

/-- The effect of a TCP segment. -/
def NetStack.seg_effect (s : NetStack) (seg : TcpSegment) : HttpEffect :=
  match s.seg_kind seg with
  | .reset => .fail "TCP RST"
  | .syn_ack =>
    if s.https_mode then .keep
    else if (build_http_get s.path s.host_header 512).isNone then .fail "GET TOO LONG" else .keep
  | .payload =>
    if s.https_mode then
      if (s.toTlsSession.tls_cipher_append seg.payload).2 then .keep else .fail "TLS RX OVFL"
    else .ingest seg.payload seg.fin
  | .bare_fin => if s.https_mode then .keep else .eof
  | .nothing => .keep

/-- The DHCP reply is taken as the ACK that binds the client. -/
def NetStack.takes_ack (s : NetStack) (bootp : Bytes) : Bool :=
  match dhcp_reply bootp with
  | none => false
  | some r => s.dhcp_reply_ours env r && s.dhcp_phase = .WaitAck && r.opts.msg = DHCP_ACK

/-- The effect of a received frame. -/
def NetStack.rx_effect (s : NetStack) (frame : Bytes) : HttpEffect :=
  match s.rx_event frame with
  | .dhcp bootp => if s.takes_ack env bootp then .clear_err else .keep
  | .tcp seg => s.seg_effect seg
  | _ => .keep

/-- The effect of an operation that is enabled. -/
def Op.act_effect (s : NetStack) (vio : AnyNic) : Op → HttpEffect
  | .start_fetch url => if (parse_fetch_url url).isNone then .fail "BAD URL" else .start
  | .reset_demo => .clear
  | .drive_begin settings => if settings.ip_settings_tag = s.ip_settings_tag then .keep else .clear
  | .rx frame => s.rx_effect env frame
  | .dns_poll => if 64 * 48 < s.dns_xmit_phase + 1 then .fail "DNS TIMEOUT" else .keep
  | .tcp_poll =>
    if s.connect_expired then .fail "TCP NO CONNECT"
    else if (s.syn_poll env vio).1.http_expired then .fail "HTTP TIMEOUT" else .keep
  | .tls_fail msg => .fail msg
  | .tls_abort msg => .fail msg
  | .tls_read data => .ingest data false
  | .tls_read_err => .fail "TLS READ ERR"
  | .tls_pump_end => if s.tls_tcp_eof then .eof else .keep
  | _ => .keep

/-- The effect of an operation. `start_fetch` clears the old fetch first. -/
def Op.effect (x : Node) (op : Op) : HttpEffect :=
  if op.enabled x.1 then op.act_effect env x.1 x.2 else .keep

/-- The response an operation starts from. -/
def Op.effectOn (s : HttpFetch) : Op → HttpFetch
  | .start_fetch _ => s.cleared
  | _ => s

/-! ## Segments -/

section Segment

variable (s : NetStack) (vio : AnyNic) (seg : TcpSegment)

theorem http_tcp_send_get (pay : Bytes) :
    (s.tcp_send_get env vio pay).1.toHttpFetch = s.toHttpFetch := by
  unfold NetStack.tcp_send_get
  dsimp only
  split_ifs
  · rfl
  · split <;> rfl

theorem http_take_syn_ack (hk : s.seg_kind seg = .syn_ack) :
    (s.take_syn_ack env vio seg).1.toHttpFetch
      = (s.seg_effect seg).act env.dec s.toHttpFetch := by
  unfold NetStack.take_syn_ack NetStack.seg_effect
  rw [hk]
  dsimp only
  by_cases hh : s.https_mode = true
  · rw [if_pos hh, if_pos hh]
    show (if _ then _ else _ : NetStack).toHttpFetch = _
    split_ifs <;> rfl
  · rw [if_neg hh, if_neg hh]
    cases build_http_get s.path s.host_header 512 with
    | none => rfl
    | some pay => exact http_tcp_send_get env _ vio pay

theorem http_take_fin : (s.take_fin env).toHttpFetch
    = if s.https_mode then s.toHttpFetch else s.toHttpFetch.finish_plain_http_on_tcp_eof env.dec := by
  unfold NetStack.take_fin
  split_ifs <;> rfl

theorem http_take_payload (hk : s.seg_kind seg = .payload) :
    (s.take_payload env vio seg).1.toHttpFetch
      = (s.seg_effect seg).act env.dec s.toHttpFetch := by
  unfold NetStack.take_payload NetStack.seg_effect NetStack.deliver
  rw [hk]
  dsimp only
  by_cases hh : s.https_mode = true
  · rw [if_pos hh, if_pos hh]
    rcases happ : s.toTlsSession.tls_cipher_append seg.payload with ⟨tls, ok⟩
    have hmode : tls.https_mode = true := by
      have hrest := congrArg NetRest.https_mode (rest_cipher_append s seg.payload)
      rw [happ] at hrest
      exact hrest.trans hh
    cases ok with
    | false => rfl
    | true =>
      dsimp only
      rw [if_pos rfl]
      by_cases hf : seg.fin = true
      · rw [if_pos hf, http_take_fin, if_pos]
        · rfl
        · exact hmode
      · rw [if_neg hf]
        rfl
  · rw [if_neg hh, if_neg hh]
    dsimp only
    cases hf : seg.fin with
    | true =>
      rw [if_pos rfl, http_take_fin, if_neg]
      · rfl
      · exact hh
    | false => rfl

theorem http_take_segment :
    (s.take_segment env vio seg).1.toHttpFetch
      = (s.seg_effect seg).act env.dec s.toHttpFetch := by
  cases hk : s.seg_kind seg with
  | syn_ack =>
    rw [← http_take_syn_ack env s vio seg hk]
    unfold NetStack.take_segment
    rw [hk]
  | payload =>
    rw [← http_take_payload env s vio seg hk]
    unfold NetStack.take_segment
    rw [hk]
  | reset =>
    unfold NetStack.take_segment NetStack.seg_effect
    rw [hk]
    rfl
  | bare_fin =>
    unfold NetStack.take_segment NetStack.seg_effect NetStack.take_bare_fin
    rw [hk]
    dsimp only
    rw [http_take_fin]
    show (if s.https_mode = true then _ else _) = _
    split_ifs <;> rfl
  | nothing =>
    unfold NetStack.take_segment NetStack.seg_effect
    rw [hk]
    rfl

end Segment

/-! ## Frames -/

theorem takes_ack_iff {s : NetStack} {bootp : Bytes} :
    s.takes_ack env bootp = true ↔ ∃ r, s.TakesAck env bootp r := by
  constructor
  · intro h
    unfold NetStack.takes_ack at h
    cases hr : dhcp_reply bootp with
    | none => rw [hr] at h; cases h
    | some r =>
      rw [hr] at h
      simp only [Bool.and_eq_true, decide_eq_true_eq] at h
      exact ⟨r, hr, h.1.1, h.1.2, h.2⟩
  · rintro ⟨r, h⟩
    unfold NetStack.takes_ack
    rw [h.reply]
    simp only [h.ours, h.phase, h.msg, decide_true, Bool.and_self]

theorem http_handle_dhcp_reply (s : NetStack) (vio : AnyNic) (bootp : Bytes) :
    (s.handle_dhcp_reply env vio bootp).1.toHttpFetch
      = if s.takes_ack env bootp then { s.toHttpFetch with fetch_err := [] } else s.toHttpFetch := by
  by_cases ht : s.takes_ack env bootp = true
  · obtain ⟨r, h⟩ := (takes_ack_iff env).mp ht
    rw [if_pos ht]
    unfold NetStack.handle_dhcp_reply
    simp only [h.reply, h.ours, h.phase, h.msg, Bool.not_true, Bool.false_eq_true, if_false, if_true]
    rfl
  · rw [if_neg ht]
    obtain h | ⟨r, sid, -, h⟩ | ⟨r, hr, -⟩ := handle_dhcp_reply_cases env s vio bootp
    · rw [h]
    · rw [h]
      rfl
    · exact absurd ((takes_ack_iff env).mpr ⟨r, hr⟩) ht

theorem http_handle_rx (s : NetStack) (vio : AnyNic) (frame : Bytes) :
    (s.handle_rx env vio frame).1.toHttpFetch
      = (s.rx_effect env frame).act env.dec s.toHttpFetch := by
  rw [handle_rx_eq]
  unfold NetStack.rx_effect
  cases s.rx_event frame with
  | ignored => rfl
  | arp mac => rfl
  | dns ip => rfl
  | tcp seg => exact http_take_segment env s vio seg
  | dhcp bootp =>
    show (s.handle_dhcp_reply env vio bootp).1.toHttpFetch = _
    rw [http_handle_dhcp_reply]
    dsimp only
    split_ifs <;> rfl

/-! ## Operations -/

theorem http_clear_fetch_inner (s : NetStack) :
    s.clear_fetch_inner.toHttpFetch = s.toHttpFetch.cleared := rfl

theorem http_tcp_seq (s : NetStack) (q : UInt32) :
    ({ s with tcp_seq := q } : NetStack).toHttpFetch = s.toHttpFetch := rfl

theorem http_start_fetch (s : NetStack) (url : Bytes) :
    (s.start_fetch url).toHttpFetch
      = if (parse_fetch_url url).isNone then s.toHttpFetch.cleared.set_err "BAD URL"
        else .fresh (s.page_gen + 1) := by
  unfold NetStack.start_fetch
  cases parse_fetch_url url with
  | none => rfl
  | some p =>
    dsimp only
    split_ifs <;> first | rfl | simp at *

theorem http_drive_begin (s : NetStack) (settings : DeviceSettings) :
    (s.drive_begin settings).toHttpFetch
      = if settings.ip_settings_tag = s.ip_settings_tag then s.toHttpFetch
        else s.toHttpFetch.cleared := by
  unfold NetStack.drive_begin NetStack.sync_ip_from_settings
  by_cases h : settings.ip_settings_tag = s.ip_settings_tag
  · rw [if_pos h, if_pos h]
  · rw [if_neg h, if_neg h]
    cases settings.ip_config <;> rfl

theorem http_tcp_limits (s : NetStack) (vio : AnyNic) :
    (s.tcp_limits env vio).1.toHttpFetch
      = HttpEffect.act env.dec s.toHttpFetch (Op.act_effect env s vio .tcp_poll) := by
  unfold NetStack.tcp_limits Op.act_effect
  dsimp only
  split_ifs
  · rfl
  · obtain ⟨b, n, h⟩ := syn_poll_eq env s vio
    rw [h]
    rfl
  · obtain ⟨b, n, h⟩ := syn_poll_eq env s vio
    rw [h]
    rfl

theorem http_tls_pump_eof (s : NetStack) :
    (s.tls_pump_eof env).toHttpFetch
      = if s.tls_tcp_eof then s.toHttpFetch.finish_plain_http_on_tcp_eof env.dec
        else s.toHttpFetch := by
  unfold NetStack.tls_pump_eof HttpFetch.finish_plain_http_on_tcp_eof
  cases he : s.tls_tcp_eof <;> cases hd : s.fetch_done <;> cases hc : s.http_chunked <;>
    simp [NetStack.set_err, NetStack.finish_fetch, HttpFetch.finish_fetch, hd]

/-- **All an operation does to the response is its effect.** -/
theorem step_http (x : Node) (op : Op) :
    (Node.step env x op).1.toHttpFetch
      = (op.effect env x).act env.dec (op.effectOn x.1.toHttpFetch) := by
  obtain ⟨s, vio⟩ := x
  unfold Node.step Op.effect
  by_cases hen : op.enabled s = true
  · rw [if_pos hen, if_pos hen]
    cases op with
    | start_fetch url =>
      show (s.start_fetch url).toHttpFetch = _
      rw [http_start_fetch]
      dsimp only [Op.act_effect]
      split_ifs <;> rfl
    | seed_from_mac mac =>
      show (s.seed_from_mac mac).toHttpFetch = s.toHttpFetch
      unfold NetStack.seed_from_mac
      exact http_tcp_seq s _
    | drive_begin settings =>
      show (s.drive_begin settings).toHttpFetch = _
      rw [http_drive_begin]
      dsimp only [Op.act_effect]
      split_ifs <;> rfl
    | rx frame => exact http_handle_rx env s vio frame
    | dhcp_poll =>
      show (s.dhcp_poll env vio).1.toHttpFetch = s.toHttpFetch
      unfold NetStack.dhcp_poll NetStack.dhcp_timeout NetStack.dhcp_retransmit NetStack.dhcp_stamp
      dsimp only
      split_ifs <;> rfl
    | dns_poll =>
      show (s.dns_poll env vio).1.toHttpFetch = _
      unfold NetStack.dns_poll
      dsimp only [Op.act_effect]
      split_ifs <;> rfl
    | tcp_poll => exact http_tcp_limits env s vio
    | tls_flush =>
      obtain ⟨q, i, b, h⟩ := tls_tx_flush_all_eq env s vio
      show (s.tls_tx_flush_all env vio).1.toHttpFetch = s.toHttpFetch
      rw [h]
    | tls_pump_end =>
      show (s.clear_tls_poll.tls_pump_eof env).toHttpFetch = _
      rw [http_tls_pump_eof]
      dsimp only [Op.act_effect]
      show (if s.tls_tcp_eof = true then _ else _) = _
      split_ifs <;> rfl
    | _ => rfl
  · rw [if_neg hen, if_neg hen]
    cases op with
    | start_fetch url => exact absurd rfl hen
    | _ => rfl

/-! ## From the effect back to the operation -/

/-- The TCP segment an operation receives, with what it is to the connection. -/
def Op.segment (s : NetStack) : Op → Option (SegKind × TcpSegment)
  | .rx frame =>
    match s.rx_event frame with
    | .tcp seg => some (s.seg_kind seg, seg)
    | _ => none
  | _ => none

theorem segment_rx {s : NetStack} {frame : Bytes} {seg : TcpSegment}
    (h : s.rx_event frame = .tcp seg) : Op.segment s (.rx frame) = some (s.seg_kind seg, seg) := by
  dsimp only [Op.segment]
  rw [h]

theorem segment_rx_none {s : NetStack} {frame : Bytes} (h : ∀ seg, s.rx_event frame ≠ .tcp seg) :
    Op.segment s (.rx frame) = none := by
  dsimp only [Op.segment]
  cases he : s.rx_event frame with
  | tcp seg => exact absurd he (h seg)
  | _ => rfl

theorem segment_spec {s : NetStack} {op : Op} {k : SegKind} {seg : TcpSegment}
    (h : op.segment s = some (k, seg)) :
    ∃ frame, op = .rx frame ∧ s.rx_event frame = .tcp seg ∧ s.seg_kind seg = k := by
  cases op with
  | rx frame =>
    dsimp only [Op.segment] at h
    cases he : s.rx_event frame with
    | tcp seg' =>
      rw [he] at h
      simp only [Option.some.injEq, Prod.mk.injEq] at h
      obtain ⟨rfl, rfl⟩ := h
      exact ⟨frame, rfl, he, rfl⟩
    | _ =>
      rw [he] at h
      cases h
  | _ => cases h

theorem seg_kind_payload {s : NetStack} {seg : TcpSegment} (h : s.seg_kind seg = .payload) :
    seg.payload ≠ [] := by
  rintro he
  unfold NetStack.seg_kind at h
  rw [he] at h
  split_ifs at h with _ _ hlen
  · exact absurd hlen (Nat.lt_irrefl 0)

/-- Segments only reach a fetch that is armed. -/
theorem segment_armed {s : NetStack} {op : Op} {k : SegKind} {seg : TcpSegment}
    (h : op.segment s = some (k, seg)) : s.fetch_armed = true ∧ s.dns_done = true := by
  obtain ⟨frame, -, he, -⟩ := segment_spec h
  have hready := rx_event_ready s frame
  rw [he] at hready
  exact hready

theorem effect_segment {x : Node} {op : Op} {k : SegKind} {seg : TcpSegment}
    (h : op.segment x.1 = some (k, seg)) : op.effect env x = x.1.seg_effect seg := by
  obtain ⟨frame, rfl, he, -⟩ := segment_spec h
  show x.1.rx_effect env frame = _
  unfold NetStack.rx_effect
  rw [he]

/-- The messages an operation fails a fetch with. The reader of the response has
its own. -/
def OP_ERRORS : List String :=
  ["BAD URL", "TCP RST", "GET TOO LONG", "TLS RX OVFL", "DNS TIMEOUT", "TCP NO CONNECT",
    "HTTP TIMEOUT", "TLS BAD HOST", "TLS VERIFY FAIL", "TLS WRITE FAIL", "TLS READ ERR"]

/-- The operations with which a TLS session writes to the response. They do not
look at `fetch_done`. -/
def Op.writesTls : Op → Bool
  | .tls_read _ | .tls_read_err | .tls_fail _ | .tls_abort _ => true
  | _ => false

/-- What an effect says about the operation that has it. -/
def Op.Cause (x : Node) (op : Op) : HttpEffect → Prop
  | .keep => True
  | .fail msg => msg ∈ OP_ERRORS
      ∧ (x.1.fetch_armed = true ∨ op.isStart = true ∨ (x.1.tls_poll = true ∧ op.writesTls = true))
  | .ingest data fin =>
    (x.1.tls_poll = true ∧ op = .tls_read data)
    ∨ (x.1.https_mode = false ∧ ∃ seg, op.segment x.1 = some (.payload, seg)
        ∧ data = seg.payload ∧ fin = seg.fin)
  | .eof =>
    (x.1.tls_poll = true ∧ op = .tls_pump_end)
    ∨ (x.1.https_mode = false ∧ ∃ seg, op.segment x.1 = some (.bare_fin, seg))
  | .clear_err => ∃ frame, op = .rx frame
  | .clear => op = .reset_demo
    ∨ ∃ settings, op = .drive_begin settings ∧ settings.ip_settings_tag ≠ x.1.ip_settings_tag
  | .start => ∃ url, op = .start_fetch url

theorem rx_effect_cause (x : Node) (frame : Bytes) :
    Op.Cause x (.rx frame) (x.1.rx_effect env frame) := by
  unfold NetStack.rx_effect
  cases he : x.1.rx_event frame with
  | ignored => trivial
  | arp mac => trivial
  | dns ip => trivial
  | dhcp bootp =>
    dsimp only
    split_ifs
    · exact ⟨frame, rfl⟩
    · trivial
  | tcp seg =>
    have hseg := segment_rx he
    have harm := (segment_armed hseg).1
    show Op.Cause x _ (x.1.seg_effect seg)
    unfold NetStack.seg_effect
    cases hk : x.1.seg_kind seg with
    | reset => exact ⟨.tail _ (.head _), .inl harm⟩
    | nothing => trivial
    | syn_ack =>
      dsimp only
      split_ifs
      · trivial
      · exact ⟨.tail _ (.tail _ (.head _)), .inl harm⟩
      · trivial
    | payload =>
      dsimp only
      split_ifs with hh
      · trivial
      · exact ⟨.tail _ (.tail _ (.tail _ (.head _))), .inl harm⟩
      · exact .inr ⟨by simpa using hh, seg, by rw [hseg, hk], rfl, rfl⟩
    | bare_fin =>
      dsimp only
      split_ifs with hh
      · trivial
      · exact .inr ⟨by simpa using hh, seg, by rw [hseg, hk]⟩

theorem effect_cause (x : Node) (op : Op) : op.Cause x (op.effect env x) := by
  unfold Op.effect
  by_cases hen : op.enabled x.1 = true
  · rw [if_pos hen]
    cases op with
    | start_fetch url =>
      show Op.Cause x _ (if _ then _ else _)
      split_ifs
      · exact ⟨.head _, .inr (.inl rfl)⟩
      · exact ⟨url, rfl⟩
    | reset_demo => exact .inl rfl
    | drive_begin settings =>
      show Op.Cause x _ (if _ then _ else _)
      split_ifs with ht
      · trivial
      · exact .inr ⟨settings, rfl, ht⟩
    | rx frame => exact rx_effect_cause env x frame
    | dns_poll =>
      unfold Op.enabled at hen
      simp only [Bool.and_eq_true] at hen
      show Op.Cause x _ (if _ then _ else _)
      split_ifs
      · exact ⟨by decide, .inl hen.1.1⟩
      · trivial
    | tcp_poll =>
      unfold Op.enabled at hen
      simp only [Bool.and_eq_true] at hen
      show Op.Cause x _ (if _ then _ else if _ then _ else _)
      split_ifs
      · exact ⟨by decide, .inl hen.1.1⟩
      · exact ⟨by decide, .inl hen.1.1⟩
      · trivial
    | tls_fail msg =>
      unfold Op.enabled at hen
      simp only [Bool.and_eq_true, Bool.or_eq_true, beq_iff_eq] at hen
      refine ⟨?_, .inr (.inr ⟨hen.1, rfl⟩)⟩
      rcases hen.2 with rfl | rfl <;> decide
    | tls_abort msg =>
      unfold Op.enabled at hen
      simp only [Bool.and_eq_true, Bool.or_eq_true, beq_iff_eq] at hen
      refine ⟨?_, .inr (.inr ⟨hen.1, rfl⟩)⟩
      rcases hen.2 with rfl | rfl <;> decide
    | tls_read data => exact .inl ⟨hen, rfl⟩
    | tls_read_err => exact ⟨by decide, .inr (.inr ⟨hen, rfl⟩)⟩
    | tls_pump_end =>
      show Op.Cause x _ (if _ then _ else _)
      split_ifs
      · exact .inl ⟨hen, rfl⟩
      · trivial
    | _ => trivial
  · rw [if_neg hen]
    trivial

theorem effectOn_of_not_start {op : Op} (h : op.isStart = false) (s : HttpFetch) :
    op.effectOn s = s := by
  cases op with
  | start_fetch url => cases h
  | _ => rfl

/-! ## The reader and the end of a fetch

A step of the response reader keeps `fetch_armed`, `fetch_done` and `fetch_err`,
or it ends the fetch, with the error it had or one of the reader's own. -/

/-- The messages of the response reader. -/
def READER_ERRORS : List String :=
  ["HTTP HDR TOO BIG", "HTTP ENC", "HTTP CHUNK SZ", "HTTP CHUNK CRLF", "HTTP CHUNK EOF"]
    ++ CODING_ERRORS

/-- The flags of `t` are those of `s`, or those of a fetch that is over. -/
def HttpFetch.FlagsFrom (s t : HttpFetch) : Prop :=
  (t.fetch_armed = s.fetch_armed ∧ t.fetch_done = s.fetch_done)
    ∨ (t.fetch_armed = false ∧ t.fetch_done = true)

/-- The error of `t` is that of `s`, or one of the reader's. -/
def HttpFetch.ErrFrom (s t : HttpFetch) : Prop :=
  t.fetch_err = s.fetch_err ∨ ∃ msg ∈ READER_ERRORS, t.fetch_err = (ascii msg).take FETCH_ERR_CAP

/-- `t` is reached from `s` by reading. -/
structure HttpFetch.ReadsTo (s t : HttpFetch) : Prop where
  flags : s.FlagsFrom t
  err : s.ErrFrom t

theorem HttpFetch.ReadsTo.trans {s t u : HttpFetch} (h₁ : s.ReadsTo t) (h₂ : t.ReadsTo u) :
    s.ReadsTo u := by
  constructor
  · rcases h₂.flags with ⟨ha, hd⟩ | h
    · rcases h₁.flags with ⟨ha', hd'⟩ | ⟨ha', hd'⟩
      · exact .inl ⟨ha.trans ha', hd.trans hd'⟩
      · exact .inr ⟨ha.trans ha', hd.trans hd'⟩
    · exact .inr h
  · rcases h₂.err with he | h
    · rcases h₁.err with he' | ⟨msg, hm, he'⟩
      · exact .inl (he.trans he')
      · exact .inr ⟨msg, hm, he.trans he'⟩
    · exact .inr h

/-- Nothing the relation looks at has changed. -/
theorem HttpFetch.ReadsTo.same {s t : HttpFetch} (ha : t.fetch_armed = s.fetch_armed)
    (hd : t.fetch_done = s.fetch_done) (he : t.fetch_err = s.fetch_err) : s.ReadsTo t :=
  ⟨.inl ⟨ha, hd⟩, .inl he⟩

theorem HttpFetch.ReadsTo.of_same {s s₁ t : HttpFetch} (h : s₁.ReadsTo t)
    (ha : s₁.fetch_armed = s.fetch_armed) (hd : s₁.fetch_done = s.fetch_done)
    (he : s₁.fetch_err = s.fetch_err) : s.ReadsTo t :=
  (HttpFetch.ReadsTo.same ha hd he).trans h

section Reads

variable (dec : Decoders) (s : HttpFetch)

theorem set_err_reads {msg : String} (h : msg ∈ READER_ERRORS) : s.ReadsTo (s.set_err msg) :=
  ⟨.inr ⟨rfl, rfl⟩, .inr ⟨msg, h, rfl⟩⟩

theorem finish_fetch_reads : s.ReadsTo (s.finish_fetch dec) := by
  unfold HttpFetch.finish_fetch
  split_ifs
  · exact .same rfl rfl rfl
  · rcases hm : decompress_body_layers dec s.body_layers s.page with ⟨page, _ | msg⟩
    · exact ⟨.inr ⟨rfl, rfl⟩, .inl rfl⟩
    · dsimp only
      split_ifs
      · exact ⟨.inr ⟨rfl, rfl⟩, .inl rfl⟩
      · have hmem : msg ∈ CODING_ERRORS := decompress_layers_message (congrArg Prod.snd hm)
        exact ⟨.inr ⟨rfl, rfl⟩, .inr ⟨msg, List.mem_append_right _ hmem, rfl⟩⟩
  · cases hm : decompress_gzip_once dec s.page with
    | ok page => exact ⟨.inr ⟨rfl, rfl⟩, .inl rfl⟩
    | error msg =>
      have hmem : msg ∈ CODING_ERRORS := List.mem_append_left _ (decompress_gzip_message hm)
      exact set_err_reads s (List.mem_append_right _ hmem)
  · exact ⟨.inr ⟨rfl, rfl⟩, .inl rfl⟩

theorem eof_reads : s.ReadsTo (s.finish_plain_http_on_tcp_eof dec) := by
  unfold HttpFetch.finish_plain_http_on_tcp_eof
  split_ifs
  · exact set_err_reads s (by decide)
  · exact finish_fetch_reads dec s

theorem push_bytes_reads (out : Bytes) : s.ReadsTo (s.push_bytes out) := by
  rw [push_bytes_eq]
  exact .same rfl rfl rfl

theorem apply_walk_reads (w : ChunkWalk) : s.ReadsTo (s.apply_walk dec w) := by
  have hpush : s.ReadsTo ((s.push_bytes w.out).moveTo w.pos) :=
    (push_bytes_reads s w.out).trans (.same rfl rfl rfl)
  unfold HttpFetch.apply_walk
  cases w.stop with
  | none => exact hpush
  | some r =>
    cases r with
    | finished => exact hpush.trans (finish_fetch_reads dec _)
    | bad_size => exact hpush.trans (set_err_reads _ (by decide))
    | bad_crlf => exact hpush.trans (set_err_reads _ (by decide))
    | stray => exact hpush

theorem ingest_chunked_bytes_reads (data : Bytes) :
    s.ReadsTo (s.ingest_chunked_bytes dec data) := by
  rw [ingest_chunked_bytes_eq]
  exact apply_walk_reads dec s _

theorem ingest_chunked_tail_reads (blocks : Nat) (tail : Bytes) :
    s.ReadsTo (s.ingest_chunked_tail dec blocks tail) := by
  induction blocks generalizing s tail with
  | zero => exact .same rfl rfl rfl
  | succ blocks ih =>
    simp only [HttpFetch.ingest_chunked_tail]
    split_ifs
    · exact .same rfl rfl rfl
    · exact (ingest_chunked_bytes_reads dec s _).trans (ih _ _)

theorem count_body_reads (n : Nat) : s.ReadsTo (s.count_body dec n) := by
  unfold HttpFetch.count_body
  cases s.http_body_remaining with
  | none => exact .same rfl rfl rfl
  | some rem =>
    dsimp only
    split_ifs
    · exact (finish_fetch_reads dec _).of_same rfl rfl rfl
    · exact .same rfl rfl rfl

theorem begin_body_reads (hdr_end : Nat) : s.ReadsTo (s.begin_body dec hdr_end) := by
  unfold HttpFetch.begin_body
  dsimp only
  split_ifs
  · have htail := ingest_chunked_tail_reads dec { s with
      header_found := true
      http_chunked := true
      chunk_phase := .SizeLine
      chunk_line := [] } (s.stream.drop hdr_end).length (s.stream.drop hdr_end)
    have hstart : s.ReadsTo _ := htail.of_same rfl rfl rfl
    unfold HttpFetch.begin_chunked
    exact hstart.trans (.same rfl rfl rfl)
  · cases parse_content_encoding_layers (s.stream.take hdr_end) with
    | none => exact (set_err_reads _ (by decide)).of_same rfl rfl rfl
    | some layers =>
      show s.ReadsTo (HttpFetch.begin_identity dec _ _ _)
      unfold HttpFetch.begin_identity
      dsimp only
      rw [← HttpFetch.push_bytes]
      have hpush := push_bytes_reads { s with
        header_found := true
        body_layers := layers
        http_body_remaining := (parse_content_length (s.stream.take hdr_end)).map
          (fun cl => cl - min (s.stream.drop hdr_end).length cl) } (s.stream.drop hdr_end)
      have hstart : s.ReadsTo _ := hpush.of_same rfl rfl rfl
      split_ifs
      · exact (hstart.trans (finish_fetch_reads dec _)).trans (.same rfl rfl rfl)
      · exact hstart.trans (.same rfl rfl rfl)

/-- **What a segment does to the flags and the error.** -/
theorem ingest_reads (data : Bytes) : s.ReadsTo (s.ingest_tcp_payload dec data) := by
  unfold HttpFetch.ingest_tcp_payload
  split_ifs
  · unfold HttpFetch.ingest_header_bytes
    dsimp only
    split
    · split_ifs
      · exact (set_err_reads _ (by decide)).of_same rfl rfl rfl
      · exact .same rfl rfl rfl
    · exact (begin_body_reads dec _ _).of_same rfl rfl rfl
  · exact ingest_chunked_bytes_reads dec s data
  · rw [append_to_page_eq]
    exact (push_bytes_reads s data).trans (count_body_reads dec _ _)

end Reads

/-! ## Concrete frames -/

/-- A TCP segment from port `sport` of the SLIRP gateway to the guest, as a
frame. -/
def gateway_frame (sport : UInt16) (seq : UInt32) (flg : UInt8) (payload : Bytes) : Bytes :=
  (build_tcp ⟨0x52, 0x55, 10, 0, 2, 2⟩ Env.qemu.our_mac ⟨⟨10, 0, 2, 2⟩, .zero, .zero⟩
    ⟨10, 0, 2, 15⟩ sport LOCAL_PORT seq 0 flg 0x8000 payload 0 2048).drop VIRTIO_NET_HDR

/-- The SLIRP gateway's answer to our ARP request, as a frame. -/
def gateway_arp : Bytes :=
  eth_header Env.qemu.our_mac ⟨0x52, 0x55, 10, 0, 2, 2⟩ ETH_P_ARP ++ u16Bytes ARP_HTYPE_ETH
    ++ u16Bytes ARP_PTYPE_IP ++ [6, 4] ++ u16Bytes ARP_OP_REPLY
    ++ [0x52, 0x55, 10, 0, 2, 2] ++ [10, 0, 2, 2] ++ Env.qemu.our_mac.bytes ++ [10, 0, 2, 15]

/-- The stack behind its first `drive` call, with the gateway known. -/
def slirp_node : Node :=
  run (Node.step .qemu) (NetStack.static_initial, .lossless) [.drive_begin .slirp, .rx gateway_arp]

end EveOS.Net
