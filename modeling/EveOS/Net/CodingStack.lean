/-
The content codings of a response are undone.

A body is its plaintext behind the codings of the header block, the first one applied
first. The source keeps them in header order, undoes the last one first, and writes the result of each
over the page. Encoders are a parameter, as the decoders are: relations between a plaintext and its
coded forms, which the decoders invert for what fits the page.
-/
import EveOS.Lib.Layers
import EveOS.Net.ContentCoding
import EveOS.Net.ContentLength
import EveOS.Net.GzipFrame

set_option autoImplicit false

namespace EveOS.Net

/-! ## Encoders -/

/-- What the encoders of the libraries may make of a plaintext. -/
structure Encoders where
  deflate : Bytes → Bytes → Prop
  zlib : Bytes → Bytes → Prop
  brotli : Bytes → Bytes → Prop

/-- The decoders invert the encoders, on plaintexts that fit the page. -/
structure Encoders.InvertedBy (enc : Encoders) (dec : Decoders) : Prop where
  deflate : ∀ plain coded, plain.length ≤ PAGE_CAP → enc.deflate plain coded →
    dec.inflate false coded = .ok plain
  zlib : ∀ plain coded, plain.length ≤ PAGE_CAP → enc.zlib plain coded →
    dec.inflate true coded = .ok plain
  brotli : ∀ plain coded, plain.length ≤ PAGE_CAP → enc.brotli plain coded →
    dec.brotli coded = some plain

/-- One coding. A gzip member may have any header fields, and its trailer is not looked at. -/
def Encoders.Codes (enc : Encoders) : Coding → Bytes → Bytes → Prop
  | .gzip, plain, coded => ∃ stream, enc.deflate plain stream ∧ GzipFramed coded stream
  | .x_gzip, plain, coded => ∃ stream, enc.deflate plain stream ∧ GzipFramed coded stream
  | .deflate, plain, coded => enc.zlib plain coded
  | .br, plain, coded => enc.brotli plain coded

/-- One coding of what fits the page, with a result that fits it. -/
def Encoders.CodesPage (enc : Encoders) (c : Coding) (plain coded : Bytes) : Prop :=
  plain.length ≤ PAGE_CAP ∧ coded.length ≤ PAGE_CAP ∧ enc.Codes c plain coded

section Decode

variable {enc : Encoders} {dec : Decoders} {plain coded : Bytes}

theorem take_decoded_fits (h : plain.length ≤ PAGE_CAP) (msg : String) : take_decoded plain msg = .ok plain := by
  rw [take_decoded, if_neg (Nat.not_lt.mpr h)]

theorem decompress_gzip_member {stream : Bytes} (hdec : dec.inflate false stream = .ok plain)
    (hplain : plain.length ≤ PAGE_CAP) (h : GzipFramed coded stream) :
    decompress_gzip_once dec coded = .ok plain := by
  have hpayload := gzip_deflate_payload_eq_some.mpr h
  have hlen : ¬coded.length < 18 := by
    intro hshort
    rw [gzip_deflate_payload_eq, if_pos hshort] at hpayload
    cases hpayload
  rw [decompress_gzip_once, if_neg hlen, hpayload]
  dsimp only
  rw [hdec]
  exact take_decoded_fits hplain _

/-- **One layer is undone.** -/
theorem decompress_layer_coded (henc : enc.InvertedBy dec) (c : Coding) (plain coded : Bytes)
    (h : enc.CodesPage c plain coded) : decompress_layer dec c.layer coded = .ok plain := by
  obtain ⟨hplain, -, hcodes⟩ := h
  have hgzip : (∃ stream, enc.deflate plain stream ∧ GzipFramed coded stream) →
      decompress_gzip_once dec coded = .ok plain := by
    rintro ⟨stream, hstream, hframed⟩
    exact decompress_gzip_member (henc.deflate plain stream hplain hstream) hplain hframed
  cases c with
  | gzip => exact hgzip hcodes
  | x_gzip => exact hgzip hcodes
  | deflate =>
    change decompress_zlib_once dec coded = .ok plain
    rw [decompress_zlib_once, henc.zlib plain coded hplain hcodes]
    exact take_decoded_fits hplain _
  | br =>
    change decompress_brotli_once dec coded = .ok plain
    rw [decompress_brotli_once, henc.brotli plain coded hplain hcodes]
    exact take_decoded_fits hplain _

/-- The layer loop is a monadic fold as long as no layer fails. -/
theorem decompress_layers_of_foldlM {layers : List BodyLayer}
    (h : layers.foldlM (fun page layer => decompress_layer dec layer page) coded = .ok plain) :
    decompress_layers dec layers coded = (plain, none) := by
  induction layers generalizing coded with
  | nil =>
    cases h
    rfl
  | cons layer layers ih =>
    rw [List.foldlM_cons] at h
    rw [decompress_layers]
    cases hl : decompress_layer dec layer coded with
    | error msg =>
      rw [hl] at h
      cases h
    | ok page =>
      rw [hl] at h
      exact ih h

/-- **The layers are undone**, the last one first. -/
theorem decompress_body_layers_coded (henc : enc.InvertedBy dec) {codings : List Coding}
    (h : Layered enc.CodesPage codings plain coded) :
    decompress_body_layers dec (codings.map Coding.layer) coded = (plain, none) := by
  have hundo : codings.foldrM (fun c page => decompress_layer dec c.layer page) coded = .ok plain :=
    h.foldrM (decompress_layer_coded henc)
  apply decompress_layers_of_foldlM
  rw [← List.foldrM_map] at hundo
  rw [List.foldlM_reverse]
  exact hundo

theorem finish_page_coded (henc : enc.InvertedBy dec) {codings : List Coding} (hne : codings ≠ [])
    (h : Layered enc.CodesPage codings plain coded) :
    finish_page dec (codings.map Coding.layer) coded = (plain, none) := by
  have hpos : 0 < (codings.map Coding.layer).length := by
    rw [List.length_map]
    exact List.length_pos_of_ne_nil hne
  rw [finish_page, if_pos hpos, decompress_body_layers_coded henc h]

end Decode

/-! ## Where the header block ends -/

theorem findWindow_suffix (pat xs : Bytes) : (findWindow pat (xs ++ pat)).isSome = true := by
  induction xs with
  | nil =>
    rw [List.nil_append]
    cases pat with
    | nil => rfl
    | cons b pat => simp [findWindow]
  | cons b xs ih =>
    rw [List.cons_append, findWindow]
    split_ifs
    · rfl
    · rw [Option.isSome_map]
      exact ih

/-- Behind an empty line that ends in CRLF no other end is found. -/
theorem find_http_header_end_crlf {headers : Bytes} (h : [13, 10, 13, 10] <:+ headers) (ys : Bytes) :
    find_http_header_end (headers ++ ys) = find_http_header_end headers := by
  obtain ⟨front, hfront⟩ := h
  obtain ⟨p, hp⟩ := Option.isSome_iff_exists.mp (findWindow_suffix [13, 10, 13, 10] front)
  rw [hfront] at hp
  unfold find_http_header_end
  rw [findWindow_append hp ys, hp]

/-- An end that is found with more bytes is found with fewer. -/
theorem find_http_header_end_between {xs ys zs : Bytes}
    (h : find_http_header_end (xs ++ ys ++ zs) = find_http_header_end xs)
    (hsome : (find_http_header_end xs).isSome = true) :
    find_http_header_end (xs ++ ys) = find_http_header_end xs := by
  unfold find_http_header_end at h hsome ⊢
  cases hc : findWindow [13, 10, 13, 10] xs with
  | some p => rw [findWindow_append hc ys]
  | none =>
    cases hl : findWindow [10, 10] xs with
    | none =>
      rw [hc, hl] at hsome
      cases hsome
    | some p =>
      have hcall : findWindow [13, 10, 13, 10] (xs ++ ys ++ zs) = none := by
        cases hcall : findWindow [13, 10, 13, 10] (xs ++ ys ++ zs) with
        | none => rfl
        | some q =>
          -- the two kinds of end have different lengths
          rw [hcall, hc, hl] at h
          cases h
      rw [findWindow_none_of_append hcall, findWindow_append hl ys]

/-- A response that is not chunked. Unless its header block ends in two CRLF, the end is
the one that the search finds. -/
structure PlainResponse (headers : Bytes) (segs : List Bytes) : Prop where
  block : HeaderBlock headers
  plain : response_headers_chunked headers = false
  ends : [13, 10, 13, 10] <:+ headers ∨ HeaderSeen headers segs

theorem PlainResponse.seen {headers : Bytes} {segs : List Bytes} (h : PlainResponse headers segs)
    (hh : headers <+: segs.flatten) : HeaderSeen headers segs := by
  rcases h.ends with hcrlf | hseen
  · rintro pre seg ⟨rest, rfl⟩ - hlong
    have hpart : (pre ++ [seg]).flatten <+: (pre ++ [seg] ++ rest).flatten := by
      exact ⟨rest.flatten, List.flatten_append.symm⟩
    obtain ⟨tail, htail⟩ := List.prefix_of_prefix_length_le hh hpart hlong
    rw [← htail]
    exact find_http_header_end_crlf hcrlf tail
  · exact hseen

/-! ## A list that is refused -/

section Refused

variable (dec : Decoders) (gen : UInt32) {headers : Bytes}

/-- The end of a fetch whose codings are refused. -/
def refusedOutcome : Outcome where
  page := []
  page_truncated := false
  fetch_done := true
  fetch_err := ascii "HTTP ENC"

/-- The segment that completes the header block, as far as the buffer takes it. -/
theorem feed_header_taken {s : HttpFetch} (h : s.InHeader) (seg : Bytes) {r : Nat × Nat}
    (hfind : find_http_header_end ((s.stream ++ seg).take STREAM_CAP) = some r) :
    s.feed dec seg =
      HttpFetch.begin_body dec { s with stream := (s.stream ++ seg).take STREAM_CAP } (r.1 + r.2) := by
  rw [feed_header dec h]
  unfold HttpFetch.ingest_header_bytes
  dsimp only
  rw [stream_append h, hfind]

/-- **It is refused with the header block.** -/
theorem feed_buffering_refused {data seg tail : Bytes} (hb : HeaderBlock headers)
    (hc : response_headers_chunked headers = false) (hl : parse_content_encoding_layers headers = none)
    (hin : data.length < headers.length) (hsplit : data ++ seg = headers ++ tail)
    (hfind : find_http_header_end (data ++ seg) = find_http_header_end headers) :
    ((HttpFetch.buffering gen data).feed dec seg).outcome = refusedOutcome := by
  have hfront : headers = data ++ headers.drop data.length := by
    have htake := congrArg (List.take data.length) hsplit
    rw [List.take_left, List.take_append_of_le_length hin.le] at htake
    conv_lhs => rw [← List.take_append_drop data.length headers, ← htake]
  have hrest : headers.drop data.length ≠ [] := by
    rw [Ne, List.drop_eq_nil_iff]
    omega
  obtain ⟨r, hr⟩ := Option.isSome_iff_exists.mp hb.2.2
  -- the buffer holds the header block and the front of what is behind it
  have hbuf : (data ++ seg).take STREAM_CAP = headers ++ tail.take (STREAM_CAP - headers.length) := by
    rw [hsplit, List.take_append, List.take_of_length_le hb.1]
  have hall : headers ++ tail.take (STREAM_CAP - headers.length) ++ tail.drop (STREAM_CAP - headers.length) =
      data ++ seg := by
    rw [List.append_assoc, List.take_append_drop, hsplit]
  have hshort : find_http_header_end ((data ++ seg).take STREAM_CAP) = some r := by
    rw [← hr, hbuf]
    exact find_http_header_end_between (by rw [hall, hfind]) hb.2.2
  have hstep := feed_header_taken dec (buffering_inHeader gen hb hrest hfront) seg hshort
  rw [hstep, hb.length_eq hr]
  change (HttpFetch.begin_body dec { HttpFetch.fresh gen with stream := (data ++ seg).take STREAM_CAP }
    headers.length).outcome = _
  rw [hbuf]
  unfold HttpFetch.begin_body
  dsimp only
  rw [List.take_left, if_neg (by simp [hc]), hl]
  rfl

/-- **A refused response** leaves the page empty, and is over with its header block. -/
theorem refused_run {segs : List Bytes} (h : PlainResponse headers segs)
    (hl : parse_content_encoding_layers headers = none) (hh : headers <+: segs.flatten) (pre : List Bytes)
    (hpre : pre <+: segs) :
    if headers.length ≤ pre.flatten.length then
      (run (HttpFetch.feed dec) (.fresh gen) pre).outcome = refusedOutcome
    else run (HttpFetch.feed dec) (.fresh gen) pre = .buffering gen pre.flatten := by
  induction pre using List.reverseRecOn with
  | nil =>
    obtain ⟨r, hr⟩ := Option.isSome_iff_exists.mp h.block.2.2
    obtain ⟨-, hsep, -⟩ := find_http_header_end_take hr
    have hlen := h.block.length_eq hr
    rw [List.flatten_nil, List.length_nil, if_neg (by omega)]
    rfl
  | append_singleton pre seg ih =>
    have hstep := ih ((List.prefix_append _ _).trans hpre)
    have hflat : (pre ++ [seg]).flatten = pre.flatten ++ seg := by
      rw [List.flatten_append, List.flatten_singleton]
    have hpart : pre.flatten ++ seg <+: segs.flatten := by
      rw [← hflat]
      obtain ⟨rest, rfl⟩ := hpre
      exact ⟨rest.flatten, List.flatten_append.symm⟩
    rw [run_snoc]
    by_cases hin : headers.length ≤ pre.flatten.length
    · -- the fetch is over
      rw [if_pos hin] at hstep
      have hlong : headers.length ≤ (pre ++ [seg]).flatten.length := by
        rw [hflat, List.length_append]
        omega
      rw [if_pos hlong, feed_done dec (congrArg Outcome.fetch_done hstep)]
      exact hstep
    · rw [if_neg hin] at hstep
      rw [hstep]
      by_cases hlong : headers.length ≤ (pre.flatten ++ seg).length
      · obtain ⟨tail, htail⟩ := List.prefix_of_prefix_length_le hh hpart hlong
        have hfind := h.seen hh pre seg hpre (by omega) (by rw [hflat]; exact hlong)
        rw [hflat] at hfind ⊢
        rw [if_pos hlong]
        exact feed_buffering_refused dec gen h.block h.plain hl (by omega) htail.symm hfind
      · obtain ⟨rest, hrest⟩ := List.prefix_of_prefix_length_le hpart hh (by omega)
        have hne : rest ≠ [] := by
          rintro rfl
          rw [List.append_nil] at hrest
          rw [hrest] at hlong
          exact hlong le_rfl
        rw [hflat, if_neg hlong]
        exact feed_buffering_more dec gen h.block hne hrest.symm

end Refused

/-! ## A list that is taken -/

section Taken

variable (dec : Decoders) (gen : UInt32) {headers body : Bytes} {layers : List BodyLayer}

/-- **A response that is taken** ends in its body behind its layers: at the end of the connection, and
with a `Content-Length` before. -/
theorem taken_run {segs : List Bytes} (h : PlainResponse headers segs)
    (hl : parse_content_encoding_layers headers = some layers) (hsegs : segs.flatten = headers ++ body)
    (hfits : HeaderFits headers segs) (hbody : body.length ≤ PAGE_CAP)
    (hcl : ∀ n ∈ parse_content_length headers, n = body.length) :
    ((run (HttpFetch.feed dec) (.fresh gen) segs).finish_plain_http_on_tcp_eof dec).outcome =
        bodyOutcome dec layers body ∧
      (parse_content_length headers = some body.length →
        (run (HttpFetch.feed dec) (.fresh gen) segs).outcome = bodyOutcome dec layers body) := by
  have hh : headers <+: segs.flatten := by
    rw [hsegs]
    exact List.prefix_append _ _
  have hlen := congrArg List.length hsegs
  rw [List.length_append] at hlen
  cases stage_run dec gen h.block h.plain hl hh hfits (h.seen hh) segs List.prefix_rfl with
  | header hshort hs => omega
  | body hlong hopen hs =>
    rw [hsegs, List.drop_left] at hs
    constructor
    · unfold HttpFetch.finish_plain_http_on_tcp_eof
      rw [if_neg (by simp [hs.identity.http_chunked])]
      exact hs.finish dec
    · intro hknown
      have hover : OverBehind headers segs := (over_behind_iff hknown hbody segs).mpr hlen.ge
      exact absurd hover hopen
  | ended q seg hq hat hs =>
    obtain ⟨hlong, n, hn, hle⟩ := hat.behind
    rw [hcl n hn] at hle
    have hmono := flatten_length_mono hq
    have hexact : (q ++ [seg]).flatten.length = headers.length + body.length := by omega
    have hall : segs.flatten = headers ++ body ++ [] := by rw [hsegs, List.append_nil]
    rw [drop_eq_body hall hq hexact] at hs
    have hdone : (run (HttpFetch.feed dec) (.fresh gen) segs).fetch_done = true :=
      congrArg Outcome.fetch_done hs
    rw [eof_over dec hdone]
    exact ⟨hs, fun _ => hs⟩

end Taken

/-- **Layered codings are undone, and what is no list of codings is refused.** The codings are
those of all `Content-Encoding` lines, in header order and among items that name none. -/
theorem content_codings_undone (dec : Decoders) (enc : Encoders) (henc : enc.InvertedBy dec) (gen : UInt32)
    (head : ResponseHead) (segs : List Bytes) (hplain : PlainResponse head.wire segs) :
    (∀ plain coded : Bytes, segs.flatten = head.wire ++ coded → HeaderFits head.wire segs →
      (∀ i ∈ head.items, i.kind = .identity ∨ ∃ c, i.kind = .coding c) →
      1 ≤ head.codings.length → head.codings.length ≤ 4 → Layered enc.CodesPage head.codings plain coded →
      (∀ n ∈ parse_content_length head.wire, n = coded.length) →
      ((run (HttpFetch.feed dec) (.fresh gen) segs).finish_plain_http_on_tcp_eof dec).outcome =
          ⟨plain, false, true, []⟩ ∧
        (parse_content_length head.wire = some coded.length →
          (run (HttpFetch.feed dec) (.fresh gen) segs).outcome = ⟨plain, false, true, []⟩)) ∧
      (head.wire <+: segs.flatten → (∃ i ∈ head.items, i.kind = .unknown) ∨ 4 < head.codings.length →
        ∀ pre, pre <+: segs →
          (run (HttpFetch.feed dec) (.fresh gen) pre).page = [] ∧
            (head.wire.length ≤ pre.flatten.length →
              (run (HttpFetch.feed dec) (.fresh gen) pre).outcome = ⟨[], false, true, ascii "HTTP ENC"⟩)) := by
  constructor
  · intro plain coded hsegs hfits hitems hone hfour hcodes hcl
    have hknown : ∀ i ∈ head.items, i.kind ≠ .unknown := by
      intro i hi hunknown
      rcases hitems i hi with hid | ⟨c, hc⟩
      · rw [hid] at hunknown
        cases hunknown
      · rw [hc] at hunknown
        cases hunknown
    have hl : parse_content_encoding_layers head.wire = some (head.codings.map Coding.layer) := by
      rw [parse_layers_wire, if_pos ⟨hknown, hfour⟩]
    have hne : head.codings ≠ [] := List.ne_nil_of_length_pos hone
    have hfit : coded.length ≤ PAGE_CAP :=
      hcodes.last (P := fun coded => coded.length ≤ PAGE_CAP) (fun _ _ _ h => h.2.1) hne
    have hbody : bodyOutcome dec (head.codings.map Coding.layer) coded = ⟨plain, false, true, []⟩ := by
      unfold bodyOutcome
      rw [List.take_of_length_le hfit, finish_page_coded henc hne hcodes,
        decide_eq_false (Nat.not_lt.mpr hfit)]
      rfl
    have hrun := taken_run dec gen hplain hl hsegs hfits hfit hcl
    rw [hbody] at hrun
    exact hrun
  · intro hh hbad pre hpre
    have hl : parse_content_encoding_layers head.wire = none := by
      rw [parse_layers_wire, if_neg]
      rintro ⟨hknown, hfour⟩
      rcases hbad with ⟨i, hi, hunknown⟩ | hmany
      · exact hknown i hi hunknown
      · omega
    have hrun := refused_run dec gen hplain hl hh pre hpre
    split_ifs at hrun with hlong
    · exact ⟨congrArg Outcome.page hrun, fun _ => hrun⟩
    · rw [hrun]
      exact ⟨rfl, fun h => absurd h hlong⟩

/-! ### Two gzip members, one in the other -/

/-- A stored block of DEFLATE, which is last. -/
def stored_block (plain : Bytes) : Bytes :=
  [1, UInt8.ofNat plain.length, UInt8.ofNat (plain.length / 256), UInt8.ofNat (255 - plain.length % 256),
    UInt8.ofNat (255 - plain.length / 256)] ++ plain

/-- Reading such a block. -/
def read_stored : Bool → Bytes → Except TINFLStatus Bytes
  | false, 1 :: _ :: _ :: _ :: _ :: plain => .ok plain
  | _, _ => .error .Other

/-- An encoder that compresses nothing. -/
def storing : Encoders where
  deflate plain coded := plain.length < 65536 ∧ coded = stored_block plain
  zlib _ _ := False
  brotli _ _ := False

theorem storing_inverted : storing.InvertedBy ⟨read_stored, fun _ => none⟩ where
  deflate := by
    rintro plain _ - ⟨-, rfl⟩
    rfl
  zlib := by
    intro _ _ _ h
    cases h
  brotli := by
    intro _ _ _ h
    cases h

/-- A gzip member without optional fields. -/
def gzip_member (stream trailer : Bytes) : Bytes := [0x1f, 0x8b, 8, 0, 0, 0, 0, 0, 0, 3] ++ stream ++ trailer

theorem gzip_member_framed (stream : Bytes) {trailer : Bytes} (h : trailer.length = 8) :
    GzipFramed (gzip_member stream trailer) stream :=
  ⟨0, [0, 0, 0, 0, 0, 3], [], trailer, by decide, rfl,
    ⟨[], [], rfl, ⟨[], [], rfl, ⟨[], [], rfl, rfl, rfl⟩, rfl⟩, rfl⟩, h, by simp [gzip_member]⟩

/-- "hi" in a member. -/
def hi_member : Bytes := gzip_member (stored_block (ascii "hi")) [172, 42, 147, 216, 2, 0, 0, 0]

/-- The member in another one. -/
def hi_twice : Bytes := gzip_member (stored_block hi_member) [87, 205, 117, 9, 25, 0, 0, 0]

theorem hi_layers : Layered storing.CodesPage [.gzip, .x_gzip] (ascii "hi") hi_twice :=
  .cons ⟨by decide, by decide, _, ⟨by decide, rfl⟩, gzip_member_framed _ rfl⟩ <|
    .cons ⟨by decide, by decide, _, ⟨by decide, rfl⟩, gzip_member_framed _ rfl⟩ (.nil _)

/-- An item whose parts are checked together. -/
def checked_item (lead name trail params : Bytes)
    (h : (∀ b ∈ lead, isBlank b = true) ∧ (44 ∉ name ∧ 59 ∉ name ∧ 10 ∉ name ∧ 13 ∉ name) ∧
      trimBlanks name = name ∧ (∀ b ∈ trail, isBlank b = true) ∧ (params = [] ∨ params.head? = some 59) ∧
      (44 ∉ params ∧ 10 ∉ params ∧ 13 ∉ params)) : ListItem :=
  ⟨lead, name, trail, params, h.1, h.2.1, h.2.2.1, h.2.2.2.1, h.2.2.2.2.1, h.2.2.2.2.2⟩

/-- The two codings in two lines, among items that name none. -/
def hi_head : ResponseHead where
  lines :=
    [(.other (ascii "HTTP/1.1 200 OK") (by decide) (by decide), .crlf),
      (.encoding (ascii "Content-Encoding:") (by decide)
        [checked_item [32] (ascii "gzip") [9] [] (by decide +kernel),
          checked_item [32] (ascii "Identity") [] [] (by decide +kernel)]
        (by simp), .crlf),
      (.other (ascii "Content-Length: 48") (by decide) (by decide), .lf),
      (.encoding (ascii "content-ENCODING:") (by decide)
        [checked_item [] [] [] [] (by decide +kernel),
          checked_item [] (ascii "X-GZIP") [] (ascii ";q=1") (by decide +kernel)]
        (by simp), .crlf)]
  last := .crlf

/-- A coding that is not known. -/
def zstd_head : ResponseHead where
  lines :=
    [(.other (ascii "HTTP/1.1 200 OK") (by decide) (by decide), .crlf),
      (.encoding (ascii "Content-Encoding:") (by decide)
        [checked_item [32] (ascii "gzip") [] [] (by decide +kernel),
          checked_item [32] (ascii "zstd") [] [] (by decide +kernel)]
        (by simp), .crlf)]
  last := .crlf

theorem hi_codings_undone :
    (run (HttpFetch.feed ⟨read_stored, fun _ => none⟩) (.fresh 0) [hi_head.wire, hi_twice]).outcome =
        ⟨ascii "hi", false, true, []⟩ ∧
      (run (HttpFetch.feed ⟨read_stored, fun _ => none⟩) (.fresh 0) [zstd_head.wire, hi_twice]).outcome =
        ⟨[], false, true, ascii "HTTP ENC"⟩ := by
  have hblock : HeaderBlock hi_head.wire ∧ response_headers_chunked hi_head.wire = false ∧
      [13, 10, 13, 10] <:+ hi_head.wire ∧ parse_content_length hi_head.wire = some hi_twice.length ∧
      hi_head.codings = [.gzip, .x_gzip] := by
    decide +kernel
  have hzstd : HeaderBlock zstd_head.wire ∧ response_headers_chunked zstd_head.wire = false ∧
      [13, 10, 13, 10] <:+ zstd_head.wire := by
    decide
  have hfits : HeaderFits hi_head.wire [hi_head.wire, hi_twice] := by
    rintro pre seg hpre - -
    have hmono := flatten_length_mono hpre
    have hcap : [hi_head.wire, hi_twice].flatten.length ≤ STREAM_CAP := by decide +kernel
    omega
  have hitems : ∀ i ∈ hi_head.items, i.kind = .identity ∨ ∃ c, i.kind = .coding c := by
    have hkinds : ∀ i ∈ hi_head.items, i.kind = .identity ∨ i.kind = .coding .gzip ∨ i.kind = .coding .x_gzip := by
      decide
    intro i hi
    rcases hkinds i hi with hid | hgzip | hxgzip
    · exact .inl hid
    · exact .inr ⟨_, hgzip⟩
    · exact .inr ⟨_, hxgzip⟩
  have hlayers : Layered storing.CodesPage hi_head.codings (ascii "hi") hi_twice := by
    rw [hblock.2.2.2.2]
    exact hi_layers
  have hunknown : ∃ i ∈ zstd_head.items, i.kind = .unknown := by decide
  have hlist : ∀ a b : Bytes, [a, b].flatten = a ++ b := by
    intro a b
    rw [List.flatten_cons, List.flatten_singleton]
  refine ⟨?_, ?_⟩
  · have htaken := (content_codings_undone ⟨read_stored, fun _ => none⟩ storing storing_inverted 0 hi_head
      [hi_head.wire, hi_twice] ⟨hblock.1, hblock.2.1, .inl hblock.2.2.1⟩).1 (ascii "hi") hi_twice (hlist _ _)
      hfits hitems (by rw [hblock.2.2.2.2]; decide) (by rw [hblock.2.2.2.2]; decide) hlayers
      (by rw [hblock.2.2.2.1]; simp)
    exact htaken.2 hblock.2.2.2.1
  · have hrefused := (content_codings_undone ⟨read_stored, fun _ => none⟩ storing storing_inverted 0 zstd_head
      [zstd_head.wire, hi_twice] ⟨hzstd.1, hzstd.2.1, .inl hzstd.2.2⟩).2
      (by rw [hlist]; exact List.prefix_append _ _) (.inl hunknown) _ List.prefix_rfl
    exact hrefused.2 (by rw [hlist, List.length_append]; omega)

end EveOS.Net
