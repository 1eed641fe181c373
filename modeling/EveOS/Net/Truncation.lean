/-
No silent truncation, over whole runs.

`Stream` watches the payloads and the FIN a fetch takes. While the fetch is
live, its reader stands where the bytes of the stream bring it (`Fetching`), so
what `Complete` says about streams holds of the page. That needs four things the
source does not check: every segment stays inside the announced body and the
header buffer (`TakesOk`), size lines are read as they stand, the peer does not
close early, and no DHCP ACK wipes out the error of a fetch.
-/
import EveOS.Net.Complete

set_option autoImplicit false

namespace EveOS.Net

/-! ## One segment -/

/-- The segment brings bytes of the announced body only, and the header with its
end fits the buffer. -/
def HttpFetch.TakesOk (s : HttpFetch) (seg : Bytes) : Prop :=
  if s.header_found then s.http_chunked = true ∨ s.Within seg
  else ∀ r ∈ find_http_header_end ((s.stream ++ seg).take STREAM_CAP),
    (s.stream ++ seg).length ≤ STREAM_CAP
    ∧ find_http_header_end ((s.stream ++ seg).take (r.1 + r.2 - 1)) = none
    ∧ (response_headers_chunked ((s.stream ++ seg).take (r.1 + r.2)) = true
      ∨ TailOk ((s.stream ++ seg).take (r.1 + r.2)) ((s.stream ++ seg).drop (r.1 + r.2)))

instance (s : HttpFetch) (seg : Bytes) : Decidable (s.TakesOk seg) :=
  inferInstanceAs (Decidable (if s.header_found then _ ∨ _ else ∀ r ∈ _, _ ∧ _ ∧ (_ ∨ _)))

section Segment

variable (dec : Decoders)

/-- Such a segment reads like its bytes, or fails the fetch. -/
theorem takesOk_cases {s : HttpFetch} (hs : s.header_found = true ∨ s.InHeader) {seg : Bytes}
    (hok : s.TakesOk seg) : s.SegOk seg ∨ (s.feed dec seg).Failed := by
  unfold HttpFetch.TakesOk at hok
  unfold HttpFetch.SegOk
  by_cases hf : s.header_found = true
  · rw [if_pos hf] at hok ⊢
    exact .inl hok
  have h := hs.resolve_left hf
  rw [if_neg hf] at hok ⊢
  cases hfind : find_http_header_end ((s.stream ++ seg).take STREAM_CAP) with
  | none => exact .inl nofun
  | some r =>
    obtain ⟨hcap, hfirst, htail⟩ := hok r hfind
    by_cases hall : TailOk ((s.stream ++ seg).take (r.1 + r.2)) ((s.stream ++ seg).drop (r.1 + r.2))
    · left
      intro r' hr'
      simp only [Option.mem_def, Option.some.injEq] at hr'
      subst hr'
      exact ⟨hcap, hfirst, hall⟩
    · -- only the blocks of a chunked tail are left, and they end badly
      right
      have hc := htail.resolve_right hall
      unfold TailOk at hall
      rw [if_pos hc] at hall
      rw [List.take_of_length_le hcap] at hfind
      rw [feed_header_end dec h seg hcap hfind]
      unfold HttpFetch.begin_body
      dsimp only
      rw [if_pos hc]
      unfold HttpFetch.begin_chunked
      dsimp only
      refine tail_failed dec _ le_rfl ?_
      intro hblocks
      exact hall fun k _ hk => hblocks k hk

end Segment

/-! ## Watching a fetch -/

/-- What a fetch has taken from the peer so far. -/
structure Stream where
  data : Bytes
  eof : Bool
  deriving DecidableEq

/-- The stream behind an operation. -/
def Stream.note (g : Stream) (x : Node) (op : Op) (_ : Node) : Stream :=
  match op.segment x.1 with
  | some (.payload, seg) => ⟨g.data ++ seg.payload, g.eof || seg.fin⟩
  | some (.bare_fin, _) => { g with eof := true }
  | _ => g

/-- What a segment may bring to a reader at this point of the stream. -/
def SegmentOk (s : HttpFetch) (g : Stream) : Option (SegKind × TcpSegment) → Prop
  | some (.payload, seg) => s.TakesOk seg.payload ∧ SizesOk (g.data ++ seg.payload)
      ∧ (seg.fin = true → EofOk (g.data ++ seg.payload))
  | some (.bare_fin, _) => EofOk g.data
  | _ => True

instance (s : HttpFetch) (g : Stream) : (o : Option (SegKind × TcpSegment)) →
    Decidable (SegmentOk s g o)
  | some (.payload, _) => inferInstanceAs (Decidable (_ ∧ _ ∧ (_ → _)))
  | some (.bare_fin, _) => inferInstanceAs (Decidable (EofOk g.data))
  | none | some (.reset, _) | some (.syn_ack, _) | some (.nothing, _) => isTrue trivial

section Run

variable (env : Env)

/-- One operation, watched. -/
abbrev streamStep : Node × Stream → Op → Node × Stream := observe (Node.step env) Stream.note

/-- The condition on an operation of a run: it starts no other fetch, it is no
DHCP ACK that wipes out an error, and the segment it receives is fine. -/
def StreamOk (x : Node × Stream) (op : Op) : Prop :=
  op.isStart = false
    ∧ (op.effect env x.1 = .clear_err → x.1.1.fetch_err = [])
    ∧ SegmentOk x.1.1.toHttpFetch x.2 (op.segment x.1.1)

instance (x : Node × Stream) (op : Op) : Decidable (StreamOk env x op) :=
  inferInstanceAs (Decidable (_ ∧ (_ → _) ∧ _))

/-- Where a plain fetch stands, seen from its stream. -/
inductive Fetching (gen : UInt32) (s : HttpFetch) (g : Stream) : Prop
  | live (hd : s.fetch_done = false) (ha : s.fetch_armed = true) (hr : s.Reading)
    (hs : SameRead s ((HttpFetch.fresh gen).feed_bytes env.dec g.data)) (he : g.eof = false)
    (hz : SizesOk g.data)
  | failed (h : s.Failed) (ha : s.fetch_armed = false)
  | done (hd : s.fetch_done = true) (ha : s.fetch_armed = false)
    (ho : s.outcome = (stream_end env.dec gen g.data g.eof).outcome) (hz : SizesOk g.data)
    (he : g.eof = true → EofOk g.data)
  | cleared (hd : s.fetch_done = false) (ha : s.fetch_armed = false)

variable {env} {gen : UInt32} {s : HttpFetch} {g : Stream}

/-- Only a live fetch takes segments. -/
theorem Fetching.live_of_armed (h : Fetching env gen s g) (ha : s.fetch_armed = true) :
    s.fetch_done = false ∧ s.Reading
      ∧ SameRead s ((HttpFetch.fresh gen).feed_bytes env.dec g.data) ∧ g.eof = false
      ∧ SizesOk g.data := by
  cases h with
  | live hd _ hr hs he hz => exact ⟨hd, hr, hs, he, hz⟩
  | failed _ ha' => rw [ha] at ha'; cases ha'
  | done _ ha' _ _ _ => rw [ha] at ha'; cases ha'
  | cleared _ ha' => rw [ha] at ha'; cases ha'

/-- The reader of a live fetch is before the end of its header or behind it. -/
theorem reading_open (hr : s.Reading) (hd : s.fetch_done = false) :
    s.header_found = true ∨ s.InHeader := by
  rcases hr with h | h
  · rw [hd] at h
    cases h
  · exact h

/-- A fetch takes the end of its stream; one that is over stays as it is. -/
theorem Fetching.eof (h : Fetching env gen s g) (hon : s.fetch_armed = true ∨ s.fetch_done = true)
    (hok : EofOk g.data) :
    Fetching env gen (s.finish_plain_http_on_tcp_eof env.dec) { g with eof := true } := by
  cases h with
  | live hd ha hr hs he hz =>
    have hdone : (s.finish_plain_http_on_tcp_eof env.dec).fetch_done = true := by
      unfold HttpFetch.finish_plain_http_on_tcp_eof
      split_ifs
      · rfl
      · exact finish_fetch_done env.dec s
    have harm : (s.finish_plain_http_on_tcp_eof env.dec).fetch_armed = false := by
      rcases (eof_reads env.dec s).flags with ⟨-, hsame⟩ | hover
      · rw [hdone, hd] at hsame
        cases hsame
      · exact hover.1
    exact .done hdone harm (hs.eof env.dec) hz (fun _ => hok)
  | failed h ha =>
    rw [eof_over env.dec h.1]
    exact .failed h ha
  | done hd ha ho hz he =>
    rw [eof_over env.dec hd]
    refine .done hd ha ?_ hz (fun _ => hok)
    cases hg : g.eof with
    | true => rw [← hg]; exact ho
    | false =>
      -- the stream was over before its end
      rw [hg] at ho
      have hover : ((HttpFetch.fresh gen).feed_bytes env.dec g.data).fetch_done = true :=
        (congrArg Outcome.fetch_done ho).symm.trans hd
      have hend : stream_end env.dec gen g.data true = stream_end env.dec gen g.data false :=
        eof_over env.dec hover
      exact ho.trans (congrArg HttpFetch.outcome hend.symm)
  | cleared hd ha =>
    rcases hon with h | h
    · rw [ha] at h
      cases h
    · rw [hd] at h
      cases h

/-- A live fetch takes a payload. -/
theorem Fetching.payload (ha : s.fetch_armed = true) (h : Fetching env gen s g) {seg : Bytes}
    (hne : seg ≠ []) (hok : s.TakesOk seg) (hz : SizesOk (g.data ++ seg)) :
    Fetching env gen (s.ingest_tcp_payload env.dec seg) { g with data := g.data ++ seg } := by
  obtain ⟨hd, hr, hs, he, -⟩ := h.live_of_armed ha
  rw [← feed_open env.dec hd]
  have hflags := (ingest_reads env.dec s seg).flags
  rw [← feed_open env.dec hd, HttpFetch.FlagsFrom, ha, hd] at hflags
  rcases takesOk_cases env.dec (reading_open hr hd) hok with hseg | hfail
  · obtain ⟨hsame, hread⟩ := feed_sameRead env.dec hr hs hne fun _ => hseg
    rw [← feed_bytes_append] at hsame
    rcases hflags with ⟨ha', hd'⟩ | ⟨ha', hd'⟩
    · exact .live hd' ha' hread hsame he hz
    · refine .done hd' ha' ?_ hz ?_
      · show _ = (stream_end env.dec gen (g.data ++ seg) g.eof).outcome
        rw [he]
        exact hsame.outcome
      · intro heof
        rw [he] at heof
        cases heof
  · refine .failed hfail ?_
    rcases hflags with ⟨-, hd'⟩ | h
    · rw [hfail.1] at hd'
      cases hd'
    · exact h.1

/-- An operation that receives no bytes. -/
theorem Fetching.other (h : Fetching env gen s g) {e : HttpEffect} (herr : e = .clear_err → s.fetch_err = [])
    (hmsg : ∀ msg, e = .fail msg → msg ∈ OP_ERRORS) (hin : ∀ data fin, e ≠ .ingest data fin)
    (heof : e ≠ .eof) (hstart : e ≠ .start) : Fetching env gen (e.act env.dec s) g := by
  cases e with
  | keep => exact h
  | fail msg =>
    have hall : ∀ m ∈ OP_ERRORS, (ascii m).take FETCH_ERR_CAP ≠ [] := by decide
    exact .failed ⟨rfl, hall msg (hmsg msg rfl)⟩ rfl
  | ingest data fin => exact absurd rfl (hin data fin)
  | eof => exact absurd rfl heof
  | clear_err =>
    have hsame : ({ s with fetch_err := [] } : HttpFetch) = s := by
      rw [← herr rfl]
    show Fetching env gen { s with fetch_err := [] } g
    rw [hsame]
    exact h
  | clear => exact .cleared rfl rfl
  | start => exact absurd rfl hstart

/-! ## The run -/

/-- A fetch over plain HTTP: no TLS session is or comes into being. -/
def NetStack.Plain (s : NetStack) : Prop := s.https_mode = false ∧ s.tls_poll = false

theorem plain_of_rest {s s' : NetStack} (h : s'.rest = s.rest) (hp : s.Plain) : s'.Plain :=
  ⟨(congrArg NetRest.https_mode h).trans hp.1, (congrArg NetRest.tls_poll h).trans hp.2⟩

-- for any number, so that the hash of the MAC is not run
theorem plain_tcp_seq {s : NetStack} (hp : s.Plain) (q : UInt32) :
    ({ s with tcp_seq := q } : NetStack).Plain := hp

theorem plain_handle_rx {s : NetStack} (hp : s.Plain) (vio : AnyNic) (frame : Bytes) :
    (s.handle_rx env vio frame).1.Plain := by
  rw [handle_rx_eq]
  cases s.rx_event frame with
  | ignored => exact hp
  | arp mac => exact hp
  | dns ip => exact hp
  | tcp seg => exact plain_of_rest (rest_take_segment env s vio seg) hp
  | dhcp bootp =>
    show (s.handle_dhcp_reply env vio bootp).1.Plain
    obtain h | ⟨r, sid, -, h⟩ | ⟨r, -, h⟩ := handle_dhcp_reply_cases env s vio bootp
    · rw [h]
      exact hp
    · rw [h]
      exact hp
    · rw [h]
      exact hp

theorem plain_drive_begin {s : NetStack} (hp : s.Plain) (settings : DeviceSettings) :
    (s.drive_begin settings).Plain := by
  unfold NetStack.drive_begin NetStack.sync_ip_from_settings
  split_ifs
  · exact hp
  · cases settings.ip_config <;> exact ⟨rfl, rfl⟩

theorem plain_step {x : Node} (hp : x.1.Plain) {op : Op} (hop : op.isStart = false) :
    (Node.step env x op).1.Plain := by
  obtain ⟨s, vio⟩ := x
  unfold Node.step
  split_ifs with hen
  · cases op with
    | start_fetch url => cases hop
    | reset_demo => exact ⟨rfl, rfl⟩
    | seed_from_mac mac =>
      show (s.seed_from_mac mac).Plain
      unfold NetStack.seed_from_mac
      exact plain_tcp_seq hp _
    | drive_begin settings => exact plain_drive_begin hp settings
    | rx frame => exact plain_handle_rx hp vio frame
    | dhcp_poll =>
      show (s.dhcp_poll env vio).1.Plain
      unfold NetStack.dhcp_poll NetStack.dhcp_timeout NetStack.dhcp_retransmit NetStack.dhcp_stamp
      dsimp only
      split_ifs <;> exact hp
    | show_phase => exact hp
    | arp_poll => exact hp
    | dns_poll =>
      obtain ⟨h, d, i, he⟩ := dns_poll_eq env s vio
      show (s.dns_poll env vio).1.Plain
      rw [he]
      exact hp
    | tcp_poll =>
      obtain ⟨h, b, n, he⟩ := tcp_limits_eq env s vio
      show (s.tcp_limits env vio).1.Plain
      rw [he]
      exact hp
    | _ =>
      -- the guards of the TLS operations do not hold
      exfalso
      obtain ⟨hmode, hpoll⟩ : s.https_mode = false ∧ s.tls_poll = false := hp
      simp only [Op.enabled, hmode, hpoll, Bool.false_and, Bool.false_eq_true] at hen
  · exact hp

variable (env) in
/-- The invariant of a run. -/
def StreamInv (gen : UInt32) (x : Node × Stream) : Prop :=
  x.1.1.Plain ∧ Fetching env gen x.1.1.toHttpFetch x.2

/-- An operation that takes neither a payload nor a FIN. -/
theorem fetching_quiet {x : Node} {op : Op} (hp : x.1.Plain) (hf : Fetching env gen x.1.toHttpFetch g)
    (hstart : op.isStart = false)
    (herr : op.effect env x = .clear_err → x.1.fetch_err = [])
    (hpay : ∀ seg, op.segment x.1 ≠ some (.payload, seg))
    (hfin : ∀ seg, op.segment x.1 ≠ some (.bare_fin, seg)) :
    Fetching env gen ((op.effect env x).act env.dec x.1.toHttpFetch) g := by
  have hcause := effect_cause env x op
  apply hf.other herr
  · intro msg he
    rw [he] at hcause
    exact hcause.1
  · intro data fin he
    rw [he] at hcause
    rcases hcause with ⟨htls, -⟩ | ⟨-, seg, hs, -⟩
    · rw [hp.2] at htls
      cases htls
    · exact hpay seg hs
  · intro he
    rw [he] at hcause
    rcases hcause with ⟨htls, -⟩ | ⟨-, seg, hs⟩
    · rw [hp.2] at htls
      cases htls
    · exact hfin seg hs
  · intro he
    rw [he] at hcause
    obtain ⟨url, rfl⟩ := hcause
    cases hstart

theorem streamInv_step (x : Node × Stream) (op : Op) (h : StreamInv env gen x)
    (hok : StreamOk env x op) : StreamInv env gen (streamStep env x op) := by
  obtain ⟨hp, hf⟩ := h
  obtain ⟨hstart, herr, hseg⟩ := hok
  refine ⟨plain_step hp hstart, ?_⟩
  show Fetching env gen (Node.step env x.1 op).1.toHttpFetch (x.2.note x.1 op (Node.step env x.1 op))
  rw [step_http, effectOn_of_not_start hstart]
  unfold Stream.note
  have hquiet := fetching_quiet hp hf hstart herr
  rcases hk : op.segment x.1.1 with _ | ⟨k, seg⟩
  · exact hquiet (by rw [hk]; exact nofun) (by rw [hk]; exact nofun)
  rw [hk] at hseg hquiet
  have harm := (segment_armed hk).1
  obtain ⟨-, -, -, hkind⟩ := segment_spec hk
  cases k with
  | reset => exact hquiet nofun nofun
  | syn_ack => exact hquiet nofun nofun
  | nothing => exact hquiet nofun nofun
  | payload =>
    obtain ⟨htakes, hz, heof⟩ := hseg
    have hne : seg.payload ≠ [] := seg_kind_payload hkind
    have heff : op.effect env x.1 = .ingest seg.payload seg.fin := by
      rw [effect_segment env hk]
      unfold NetStack.seg_effect
      rw [hkind]
      exact if_neg (by simp [hp.1])
    have hnext := hf.payload harm hne htakes hz
    rw [heff]
    cases hfin : seg.fin with
    | false =>
      dsimp only
      rw [hfin, Bool.or_false]
      exact hnext
    | true =>
      have hon' : (x.1.1.toHttpFetch.ingest_tcp_payload env.dec seg.payload).fetch_armed = true
          ∨ (x.1.1.toHttpFetch.ingest_tcp_payload env.dec seg.payload).fetch_done = true := by
        rcases (ingest_reads env.dec x.1.1.toHttpFetch seg.payload).flags with h | h
        · exact .inl (h.1.trans harm)
        · exact .inr h.2
      dsimp only
      rw [hfin, Bool.or_true]
      exact hnext.eof hon' (heof hfin)
  | bare_fin =>
    have heff : op.effect env x.1 = .eof := by
      rw [effect_segment env hk]
      unfold NetStack.seg_effect
      rw [hkind]
      exact if_neg (by simp [hp.1])
    rw [heff]
    exact hf.eof (.inl harm) hseg

theorem start_fetch_plain {s₀ : NetStack} {url : Bytes} {target : ParsedHttpUrl}
    (hurl : parse_fetch_url url = some target) (hplain : target.https = false) :
    (s₀.start_fetch url).Plain := by
  unfold NetStack.start_fetch
  rw [hurl]
  dsimp only
  split_ifs
  · exact ⟨hplain, rfl⟩
  · exact ⟨hplain, rfl⟩

theorem sizesOk_nil : SizesOk [] := by
  intro n _ hb
  rw [List.take_nil] at hb
  exact absurd hb (by decide)

/-- **No silent truncation.** In every run of a plain fetch whose operations are
`StreamOk`, a fetch that is done without an error and without `page_truncated`
shows the decoded form of a complete body. -/
theorem no_silent_truncation (env : Env) (s₀ : NetStack) (vio : AnyNic) (url : Bytes)
    (target : ParsedHttpUrl) (hurl : parse_fetch_url url = some target) (hplain : target.https = false)
    (ops : List Op)
    (hok : Along (streamStep env) (StreamOk env) ((s₀.start_fetch url, vio), ⟨[], false⟩) ops) :
    let x := run (streamStep env) ((s₀.start_fetch url, vio), ⟨[], false⟩) ops
    x.1.1.fetch_done = true → x.1.1.fetch_err = [] → x.1.1.page_truncated = false →
      TookComplete env.dec x.2.data x.2.eof x.1.1.page := by
  intro x hdone herr htr
  have hfresh : (s₀.start_fetch url).toHttpFetch = .fresh (s₀.page_gen + 1) := by
    rw [http_start_fetch, hurl]
    rfl
  have hinit : StreamInv env (s₀.page_gen + 1) ((s₀.start_fetch url, vio), ⟨[], false⟩) := by
    refine ⟨start_fetch_plain hurl hplain, ?_⟩
    show Fetching env _ (s₀.start_fetch url).toHttpFetch _
    rw [hfresh]
    exact .live rfl rfl (.inr (.inr (fresh_inHeader _))) (.inl rfl) rfl sizesOk_nil
  have hinv : StreamInv env (s₀.page_gen + 1) x := run_invariant streamInv_step hok hinit
  cases hinv.2 with
  | live hd _ _ _ _ _ =>
    rw [hd] at hdone
    cases hdone
  | failed h _ => exact absurd herr h.2
  | cleared hd _ =>
    rw [hd] at hdone
    cases hdone
  | done hd ha ho hz he =>
    have hpage : x.1.1.page = (stream_end env.dec (s₀.page_gen + 1) x.2.data x.2.eof).page :=
      congrArg Outcome.page ho
    rw [hpage]
    apply stream_complete env.dec (s₀.page_gen + 1) hz he
    · exact (congrArg Outcome.fetch_done ho).symm.trans hdone
    · exact (congrArg Outcome.fetch_err ho).symm.trans herr
    · exact (congrArg Outcome.page_truncated ho).symm.trans htr

end Run

/-! ### Concrete runs -/

/-- The request is answered with two bytes of known length, and the connection is
closed. -/
def whole_page_run : List Op :=
  [.rx (gateway_frame 80 1000 0x12 []),
    .rx (gateway_frame 80 1001 0x18 (ascii "HTTP/1.0 200 OK\r\nContent-Length: 2\r\n\r\nhi")),
    .rx (gateway_frame 80 1042 0x11 [])]

theorem whole_page_is_complete :
    let x := run (streamStep .qemu)
      ((NetStack.static_initial.start_fetch (ascii "http://10.0.2.2/"), .lossless), ⟨[], false⟩)
      whole_page_run
    x.1.1.page = ascii "hi" ∧ TookComplete .refuse x.2.data x.2.eof x.1.1.page := by
  intro x
  refine ⟨by decide, ?_⟩
  exact no_silent_truncation .qemu .static_initial .lossless (ascii "http://10.0.2.2/")
    ⟨false, 80, ⟨10, 0, 2, 2⟩, false, ascii "10.0.2.2", ascii "10.0.2.2", ascii "/"⟩
    (by decide) rfl whole_page_run (by decide) (by decide)
    (by decide) (by decide)

/-- The peer closes the connection in the middle of the header. -/
def cut_header_run : List Op :=
  [.rx (gateway_frame 80 1000 0x12 []),
    .rx (gateway_frame 80 1001 0x19 (ascii "HTTP/1.0 200 OK\r\n"))]

theorem cut_header_is_silent :
    let x := run (streamStep .qemu)
      ((NetStack.static_initial.start_fetch (ascii "http://10.0.2.2/"), .lossless), ⟨[], false⟩)
      cut_header_run
    x.1.1.fetch_done = true ∧ x.1.1.fetch_err = [] ∧ x.1.1.page_truncated = false
      ∧ ¬ TookComplete .refuse x.2.data x.2.eof x.1.1.page := by
  intro x
  refine ⟨by decide, by decide, by decide, ?_⟩
  rintro ⟨layers, body, hbody, -⟩
  have hnone : ∀ n ≤ x.2.data.length, ¬ HeaderBlock (x.2.data.take n) := by decide
  obtain ⟨n, hn, hb⟩ := hbody.header
  exact hnone n hn hb

end EveOS.Net
