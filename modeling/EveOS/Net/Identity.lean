/-
A response that is not chunked, segment by segment, however it is cut.

`Segments` reads a segmentation like its bytes as long as no segment brings bytes
from behind the body. Here the segments may bring anything. Three stages follow each
other: the bytes are buffered until the header block is complete, then they are stored,
and with a `Content-Length` they are counted until the count is reached. What is counted
are the bytes stored and not the bytes received, and what is stored are all bytes of a
segment and not those of the body.
-/
import EveOS.Net.Framing

set_option autoImplicit false

namespace EveOS.Net

/-- The segment that completes the header block fits the stream buffer. -/
def HeaderFits (headers : Bytes) (segs : List Bytes) : Prop :=
  ∀ pre seg, pre ++ [seg] <+: segs → pre.flatten.length < headers.length →
    headers.length ≤ (pre ++ [seg]).flatten.length → (pre ++ [seg]).flatten.length ≤ STREAM_CAP

/-- In the bytes up to the end of that segment, the end of the header block is the one that
the search finds. -/
def HeaderSeen (headers : Bytes) (segs : List Bytes) : Prop :=
  ∀ pre seg, pre ++ [seg] <+: segs → pre.flatten.length < headers.length →
    headers.length ≤ (pre ++ [seg]).flatten.length →
    find_http_header_end (pre ++ [seg]).flatten = find_http_header_end headers

/-- The count of a body of length `cl` has come down to zero behind `len` bytes: those that
did not fit the page were not counted. -/
def BodyOver (cl : Option Nat) (len : Nat) : Prop := ∃ n ∈ cl, n ≤ min len PAGE_CAP

instance (cl : Option Nat) (len : Nat) : Decidable (BodyOver cl len) :=
  inferInstanceAs (Decidable (∃ n ∈ cl, _))

/-- The reader behind the header block, with `data` behind it. -/
structure HttpFetch.InBody (layers : List BodyLayer) (cl : Option Nat) (data : Bytes)
    (s : HttpFetch) : Prop where
  identity : s.InIdentity
  page : s.page = data.take PAGE_CAP
  truncated : s.page_truncated = decide (PAGE_CAP < data.length)
  remaining : s.http_body_remaining = cl.map (· - min data.length PAGE_CAP)
  layers : s.body_layers = layers
  no_err : s.fetch_err = []

/-- What a body ends in that was over behind `data`. -/
def bodyOutcome (dec : Decoders) (layers : List BodyLayer) (data : Bytes) : Outcome where
  page := (finish_page dec layers (data.take PAGE_CAP)).1
  page_truncated := decide (PAGE_CAP < data.length)
  fetch_done := true
  fetch_err := (Outcome.ofPage (finish_page dec layers (data.take PAGE_CAP))).fetch_err

section Body

variable (dec : Decoders) {layers : List BodyLayer} {cl : Option Nat} {data : Bytes} {s : HttpFetch}

/-- Ending the fetch in the body. -/
theorem HttpFetch.InBody.finish (h : s.InBody layers cl data) :
    (s.finish_fetch dec).outcome = bodyOutcome dec layers data := by
  rw [finish_fetch_outcome dec h.identity.fetch_open, h.layers, h.page]
  unfold HttpFetch.ended bodyOutcome
  rw [h.truncated, h.no_err]
  rfl

/-- A segment is stored as far as there is room. -/
theorem HttpFetch.InBody.push (h : s.InBody layers cl data) (seg : Bytes) :
    s.push_bytes seg =
      { s with
        page := (data ++ seg).take PAGE_CAP
        page_truncated := decide (PAGE_CAP < (data ++ seg).length) } := by
  have hpage : data.take PAGE_CAP ++ seg.take (PAGE_CAP - (data.take PAGE_CAP).length) =
      (data ++ seg).take PAGE_CAP := by
    have hroom : PAGE_CAP - (data.take PAGE_CAP).length = PAGE_CAP - data.length := by
      rw [List.length_take]
      omega
    rw [List.take_append, hroom]
  have hflag : (decide (PAGE_CAP < data.length) ||
      decide (PAGE_CAP - (data.take PAGE_CAP).length < seg.length)) =
      decide (PAGE_CAP < (data ++ seg).length) := by
    rw [← Bool.decide_or, decide_eq_decide, List.length_take, List.length_append]
    omega
  rw [push_bytes_eq, h.page, h.truncated, hpage, hflag]

/-- How many bytes of a segment are counted. -/
theorem HttpFetch.InBody.stored (h : s.InBody layers cl data) (seg : Bytes) :
    min data.length PAGE_CAP + s.stored seg = min (data ++ seg).length PAGE_CAP := by
  unfold HttpFetch.stored
  rw [h.page, List.length_take, List.length_append]
  omega

/-- **A segment of the body** ends it, or leaves the reader in it. -/
theorem HttpFetch.InBody.feed (h : s.InBody layers cl data) (seg : Bytes) :
    if BodyOver cl (data ++ seg).length then
      (s.feed dec seg).outcome = bodyOutcome dec layers (data ++ seg)
    else (s.feed dec seg).InBody layers cl (data ++ seg) := by
  have hstored := h.stored seg
  rw [feed_identity dec h.identity, h.push seg]
  unfold HttpFetch.count_body
  dsimp only
  rw [h.remaining]
  cases cl with
  | none =>
    rw [if_neg (by simp [BodyOver])]
    exact ⟨⟨h.identity.1, h.identity.2, h.identity.3⟩, rfl, rfl, rfl, h.layers, h.no_err⟩
  | some n =>
    have hrem : n - min data.length PAGE_CAP - min (n - min data.length PAGE_CAP) (s.stored seg) =
        n - min (data ++ seg).length PAGE_CAP := by
      omega
    dsimp only [Option.map_some]
    rw [hrem]
    have hin : HttpFetch.InBody layers (some n) (data ++ seg)
        { s with
          page := (data ++ seg).take PAGE_CAP
          page_truncated := decide (PAGE_CAP < (data ++ seg).length)
          http_body_remaining := some (n - min (data ++ seg).length PAGE_CAP) } :=
      ⟨⟨h.identity.1, h.identity.2, h.identity.3⟩, rfl, rfl, rfl, h.layers, h.no_err⟩
    by_cases hover : n ≤ min (data ++ seg).length PAGE_CAP
    · rw [if_pos ⟨n, rfl, hover⟩, if_pos (Nat.sub_eq_zero_of_le hover)]
      exact hin.finish dec
    · have hnot : ¬BodyOver (some n) (data ++ seg).length := by
        rintro ⟨m, hm, hle⟩
        obtain rfl := Option.some.inj hm
        exact hover hle
      rw [if_neg hnot, if_neg (by omega)]
      exact hin

end Body

/-! ## The header -/

section Header

variable (dec : Decoders) (gen : UInt32) {headers : Bytes} {layers : List BodyLayer}

/-- The reader in front of the end of the header block. -/
def HttpFetch.buffering (gen : UInt32) (data : Bytes) : HttpFetch :=
  { HttpFetch.fresh gen with stream := data }

/-- What is in front of the end of a header block has no end in it. -/
theorem HeaderBlock.front {data rest : Bytes} (hb : HeaderBlock headers) (hr : rest ≠ [])
    (hsplit : headers = data ++ rest) : find_http_header_end data = none := by
  have hlen := congrArg List.length hsplit
  have hpos := List.length_pos_of_ne_nil hr
  rw [List.length_append] at hlen
  have hfront : headers.take (headers.length - 1) = data ++ rest.take (rest.length - 1) := by
    rw [hlen, hsplit, List.take_append, List.take_of_length_le (by omega)]
    congr 2
    omega
  have hnone := hb.2.1
  rw [hfront] at hnone
  exact find_http_header_end_none_of_append hnone

theorem buffering_inHeader {data rest : Bytes} (hb : HeaderBlock headers) (hr : rest ≠ [])
    (hsplit : headers = data ++ rest) : (HttpFetch.buffering gen data).InHeader := by
  have hlen := congrArg List.length hsplit
  have hpos := List.length_pos_of_ne_nil hr
  have hcap := hb.1
  rw [List.length_append] at hlen
  refine ⟨rfl, rfl, hb.front hr hsplit, ?_, rfl, rfl⟩
  show data.length < STREAM_CAP
  omega

/-- A segment that stays in front of it is buffered. -/
theorem feed_buffering_more {data seg rest : Bytes} (hb : HeaderBlock headers) (hr : rest ≠ [])
    (hsplit : headers = data ++ seg ++ rest) :
    (HttpFetch.buffering gen data).feed dec seg = .buffering gen (data ++ seg) := by
  have hrest : seg ++ rest ≠ [] := by simp [hr]
  have hin := buffering_inHeader gen hb hrest (by rw [← List.append_assoc]; exact hsplit)
  have hlen := congrArg List.length hsplit
  have hpos := List.length_pos_of_ne_nil hr
  have hcap := hb.1
  rw [List.length_append] at hlen
  exact feed_header_more dec hin seg (hb.front hr hsplit) (by
    show (data ++ seg).length < STREAM_CAP
    omega)

/-- **The segment that completes the header block** ends the body as well, or leaves the
reader in it. -/
theorem feed_buffering_end {data seg tail : Bytes} (hb : HeaderBlock headers)
    (hc : response_headers_chunked headers = false)
    (hl : parse_content_encoding_layers headers = some layers) (hin : data.length < headers.length)
    (hsplit : data ++ seg = headers ++ tail) (hcap : (data ++ seg).length ≤ STREAM_CAP)
    (hfind : find_http_header_end (data ++ seg) = find_http_header_end headers) :
    if BodyOver (parse_content_length headers) tail.length then
      ((HttpFetch.buffering gen data).feed dec seg).outcome = bodyOutcome dec layers tail
    else ((HttpFetch.buffering gen data).feed dec seg).InBody layers (parse_content_length headers)
      tail := by
  have hfront : headers = data ++ headers.drop data.length := by
    have htake := congrArg (List.take data.length) hsplit
    rw [List.take_left, List.take_append_of_le_length hin.le] at htake
    conv_lhs => rw [← List.take_append_drop data.length headers, ← htake]
  have hrest : headers.drop data.length ≠ [] := by
    rw [Ne, List.drop_eq_nil_iff]
    omega
  obtain ⟨r, hr⟩ := Option.isSome_iff_exists.mp hb.2.2
  rw [feed_header_end dec (buffering_inHeader gen hb hrest hfront) seg hcap (hfind.trans hr),
    hb.length_eq hr]
  show if _ then (HttpFetch.begin_body dec { HttpFetch.fresh gen with stream := data ++ seg }
    headers.length).outcome = _ else HttpFetch.InBody layers _ tail
      (HttpFetch.begin_body dec { HttpFetch.fresh gen with stream := data ++ seg } headers.length)
  rw [hsplit] at hcap ⊢
  -- the body bytes behind the header fit the page
  have htail : tail.length ≤ PAGE_CAP := by
    have hpc : STREAM_CAP ≤ PAGE_CAP := by decide
    rw [List.length_append] at hcap
    omega
  have hbegin : HttpFetch.begin_body dec { HttpFetch.fresh gen with stream := headers ++ tail }
      headers.length = HttpFetch.begin_identity dec
        { HttpFetch.fresh gen with stream := headers ++ tail, header_found := true }
        headers.length layers := by
    unfold HttpFetch.begin_body
    dsimp only
    rw [List.take_left, if_neg (by simp [hc]), hl]
  have hidentity := begin_identity_eq dec { HttpFetch.fresh gen with header_found := true }
    headers tail layers
  dsimp only at hidentity
  rw [hbegin, hidentity, push_bytes_fits rfl rfl htail]
  have hin : HttpFetch.InBody layers (parse_content_length headers) tail
      { HttpFetch.fresh gen with
        stream := headers ++ tail
        header_found := true
        body_layers := layers
        http_body_remaining :=
          (parse_content_length headers).map (fun cl => cl - min tail.length cl)
        page := tail } := by
    refine ⟨⟨rfl, rfl, rfl⟩, (List.take_of_length_le htail).symm, ?_, ?_, rfl, rfl⟩
    · exact (decide_eq_false (Nat.not_lt.mpr htail)).symm
    · show (parse_content_length headers).map _ = _
      congr 1
      funext cl
      omega
  have hzero : (parse_content_length headers).map (fun cl => cl - min tail.length cl) = some 0 ↔
      BodyOver (parse_content_length headers) tail.length := by
    unfold BodyOver
    rw [Option.map_eq_some_iff]
    constructor
    · rintro ⟨n, hn, hle⟩
      exact ⟨n, hn, by omega⟩
    · rintro ⟨n, hn, hle⟩
      exact ⟨n, hn, by omega⟩
  by_cases hover : BodyOver (parse_content_length headers) tail.length
  · rw [if_pos hover, if_pos (hzero.mpr hover)]
    exact hin.finish dec
  · rw [if_neg hover, if_neg (fun h => hover (hzero.mp h))]
    exact ⟨⟨rfl, rfl, rfl⟩, hin.page, hin.truncated, hin.remaining, rfl, rfl⟩

end Header

/-! ## A run -/

section Run

variable (dec : Decoders) (gen : UInt32) (headers : Bytes) (layers : List BodyLayer)

/-- The body is over behind the segments `q`. -/
def OverBehind (q : List Bytes) : Prop :=
  headers.length ≤ q.flatten.length ∧
    BodyOver (parse_content_length headers) (q.flatten.length - headers.length)

/-- It is over behind `q ++ [seg]`, and was not before. -/
structure OverAt (q : List Bytes) (seg : Bytes) : Prop where
  behind : OverBehind headers (q ++ [seg])
  before : ¬OverBehind headers q

/-- The three stages of a response. -/
inductive Stage (pre : List Bytes) (s : HttpFetch) : Prop
  | header (hlen : pre.flatten.length < headers.length) (hs : s = .buffering gen pre.flatten)
  | body (hlen : headers.length ≤ pre.flatten.length) (hopen : ¬OverBehind headers pre)
      (hs : s.InBody layers (parse_content_length headers) (pre.flatten.drop headers.length))
  | ended (q : List Bytes) (seg : Bytes) (hq : q ++ [seg] <+: pre) (hat : OverAt headers q seg)
      (hs : s.outcome = bodyOutcome dec layers ((q ++ [seg]).flatten.drop headers.length))

variable {headers layers}

/-- More bytes do not undo it. -/
theorem OverBehind.mono {q q' : List Bytes} (h : OverBehind headers q) (hq : q <+: q') :
    OverBehind headers q' := by
  obtain ⟨rest, rfl⟩ := hq
  obtain ⟨hlen, n, hn, hle⟩ := h
  have hmore : q.flatten.length ≤ (q ++ rest).flatten.length := by
    rw [List.flatten_append, List.length_append]
    omega
  exact ⟨by omega, n, hn, by omega⟩

theorem run_snoc {σ ε : Type*} (step : σ → ε → σ) (s : σ) (es : List ε) (e : ε) :
    run step s (es ++ [e]) = step (run step s es) e := by
  rw [run_append]
  rfl

/-- A segment takes the reader from stage to stage. -/
theorem stage_snoc {segs pre : List Bytes} {seg : Bytes} {s : HttpFetch} (hb : HeaderBlock headers)
    (hc : response_headers_chunked headers = false)
    (hl : parse_content_encoding_layers headers = some layers) (hh : headers <+: segs.flatten)
    (hfits : HeaderFits headers segs) (hseen : HeaderSeen headers segs)
    (hpre : pre ++ [seg] <+: segs) (h : Stage dec gen headers layers pre s) :
    Stage dec gen headers layers (pre ++ [seg]) (s.feed dec seg) := by
  have hflat : (pre ++ [seg]).flatten = pre.flatten ++ seg := by
    rw [List.flatten_append, List.flatten_singleton]
  cases h with
  | header hlen hs =>
    subst hs
    have hpart : pre.flatten ++ seg <+: segs.flatten := by
      rw [← hflat]
      obtain ⟨rest, rfl⟩ := hpre
      exact ⟨rest.flatten, List.flatten_append.symm⟩
    by_cases hlt : (pre.flatten ++ seg).length < headers.length
    · obtain ⟨rest, hrest⟩ := List.prefix_of_prefix_length_le hpart hh hlt.le
      have hne : rest ≠ [] := by
        rintro rfl
        rw [List.append_nil] at hrest
        rw [hrest] at hlt
        exact Nat.lt_irrefl _ hlt
      rw [feed_buffering_more dec gen hb hne hrest.symm, ← hflat]
      exact .header (by rw [hflat]; exact hlt) rfl
    · rw [Nat.not_lt] at hlt
      obtain ⟨tail, htail⟩ := List.prefix_of_prefix_length_le hh hpart hlt
      rw [← hflat] at hlt
      have hcap := hfits pre seg hpre hlen hlt
      have hfind := hseen pre seg hpre hlen hlt
      rw [hflat] at hcap hfind
      have hstep := feed_buffering_end dec gen hb hc hl hlen htail.symm hcap hfind
      have hdrop : (pre ++ [seg]).flatten.drop headers.length = tail := by
        rw [hflat, ← htail, List.drop_left]
      rw [← hdrop, List.length_drop] at hstep
      have hnot : ¬OverBehind headers pre := fun h => absurd h.1 (by omega)
      split_ifs at hstep with hover
      · exact .ended pre seg List.prefix_rfl ⟨⟨hlt, hover⟩, hnot⟩ hstep
      · exact .body hlt (fun h => hover h.2) hstep
  | body hlen hopen hs =>
    have hdrop : (pre ++ [seg]).flatten.drop headers.length =
        pre.flatten.drop headers.length ++ seg := by
      rw [hflat, List.drop_append_of_le_length hlen]
    have hstep := hs.feed dec seg
    rw [← hdrop, List.length_drop] at hstep
    have hlen' : headers.length ≤ (pre ++ [seg]).flatten.length := by
      rw [hflat, List.length_append]
      omega
    split_ifs at hstep with hover
    · exact .ended pre seg List.prefix_rfl ⟨⟨hlen', hover⟩, hopen⟩ hstep
    · exact .body hlen' (fun h => hover h.2) hstep
  | ended q last hq hat hs =>
    have hdone : s.fetch_done = true := congrArg Outcome.fetch_done hs
    rw [feed_done dec hdone]
    exact .ended q last (hq.trans (List.prefix_append _ _)) hat hs

/-- **The run lemma.** Behind every part of a segmentation the reader is in one of the three
stages. -/
theorem stage_run {segs : List Bytes} (hb : HeaderBlock headers)
    (hc : response_headers_chunked headers = false)
    (hl : parse_content_encoding_layers headers = some layers) (hh : headers <+: segs.flatten)
    (hfits : HeaderFits headers segs) (hseen : HeaderSeen headers segs) (pre : List Bytes)
    (hpre : pre <+: segs) :
    Stage dec gen headers layers pre (run (HttpFetch.feed dec) (.fresh gen) pre) := by
  induction pre using List.reverseRecOn with
  | nil =>
    obtain ⟨r, hr⟩ := Option.isSome_iff_exists.mp hb.2.2
    obtain ⟨-, hsep, -⟩ := find_http_header_end_take hr
    have hlen := hb.length_eq hr
    refine .header ?_ rfl
    rw [List.flatten_nil, List.length_nil]
    omega
  | append_singleton pre seg ih =>
    rw [run_snoc]
    exact stage_snoc dec gen hb hc hl hh hfits hseen hpre (ih ((List.prefix_append _ _).trans hpre))

end Run

end EveOS.Net
