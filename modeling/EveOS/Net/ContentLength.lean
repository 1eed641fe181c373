/-
A body of known length, however the response is cut: `ingest_tcp_payload` without a
chunked body.

The count of bytes to come is taken from the whole segment in the header branch, and
from the bytes stored in `append_to_page`, while all of the segment is stored. So bytes
behind the body get into the page, or set the flag, when they share a segment with its
last byte; and a body longer than the page is never over.
-/
import EveOS.Net.Identity

set_option autoImplicit false

namespace EveOS.Net

/-- The fetch is over as soon as the body has arrived and not before, with the body in the
page, and the flag says whether it was too long for it. -/
def LengthFramed (dec : Decoders) (gen : UInt32) (headers body : Bytes) (segs : List Bytes) : Prop :=
  ∀ pre, pre <+: segs →
    let s := run (HttpFetch.feed dec) (.fresh gen) pre
    (s.fetch_done = true ↔ headers.length + body.length ≤ pre.flatten.length) ∧
      (s.fetch_done = true →
        s.page = body.take PAGE_CAP ∧ (s.page_truncated = true ↔ PAGE_CAP < body.length))

/-- A segment ends where the body ends. -/
def CutAt (segs : List Bytes) (len : Nat) : Prop := ∃ pre, pre <+: segs ∧ pre.flatten.length = len

section Run

variable {dec : Decoders} {gen : UInt32} {headers body surplus : Bytes} {pre segs q : List Bytes}
  {seg : Bytes} {s : HttpFetch}

/-- The length of a part of a segmentation grows with it. -/
theorem flatten_length_mono {pre pre' : List Bytes} (h : pre <+: pre') :
    pre.flatten.length ≤ pre'.flatten.length := by
  obtain ⟨rest, rfl⟩ := h
  rw [List.flatten_append, List.length_append]
  omega

/-- The part that ends with the body brings the body. -/
theorem drop_eq_body (hsegs : segs.flatten = headers ++ body ++ surplus) (hq : q <+: segs)
    (hlen : q.flatten.length = headers.length + body.length) : q.flatten.drop headers.length = body := by
  obtain ⟨rest, rfl⟩ := hq
  rw [List.flatten_append] at hsegs
  have hflat : q.flatten = headers ++ body := by
    refine (List.append_inj hsegs ?_).1
    rw [hlen, List.length_append]
  rw [hflat, List.drop_left]

/-- Without a decoder a fetch ends with the page it has. -/
theorem refuse_page (page : Bytes) : (finish_page .refuse [] page).1 = page := by
  by_cases h : GzipMagic page
  · rw [finish_page_sniff .refuse h]
    unfold decompress_gzip_once Decoders.refuse
    split_ifs
    · rfl
    · cases gzip_deflate_payload page <;> rfl
  · rw [finish_page_plain .refuse h]

/-- What is known of the stages when the body fits the page. -/
theorem over_behind_iff (hcl : parse_content_length headers = some body.length)
    (hcap : body.length ≤ PAGE_CAP) (q : List Bytes) :
    OverBehind headers q ↔ headers.length + body.length ≤ q.flatten.length := by
  unfold OverBehind BodyOver
  rw [hcl]
  constructor
  · rintro ⟨hlen, n, hn, hle⟩
    obtain rfl := Option.some.inj hn
    omega
  · intro hlen
    exact ⟨by omega, body.length, rfl, by omega⟩

/-- **When a body of known length is framed by it.** Where the header block is found, the
property holds whatever the decoders do if and only if the body fits the page and no
byte shares a segment with its last one. -/
theorem length_framed_iff (gen : UInt32) (headers body surplus : Bytes) (segs : List Bytes)
    (hb : HeaderBlock headers) (hc : response_headers_chunked headers = false)
    (hl : parse_content_encoding_layers headers = some [])
    (hcl : parse_content_length headers = some body.length) (hmagic : ¬GzipMagic body)
    (hsegs : segs.flatten = headers ++ body ++ surplus) (hfits : HeaderFits headers segs)
    (hseen : HeaderSeen headers segs) :
    (∀ dec, LengthFramed dec gen headers body segs) ↔
      body.length ≤ PAGE_CAP ∧ CutAt segs (headers.length + body.length) := by
  have hh : headers <+: segs.flatten := by
    rw [hsegs, List.append_assoc]
    exact List.prefix_append _ _
  have hstage := fun dec pre => stage_run dec gen hb hc hl hh hfits hseen pre
  constructor
  · intro h
    obtain ⟨hdone, hpage⟩ := h .refuse segs List.prefix_rfl
    have htotal : headers.length + body.length ≤ segs.flatten.length := by
      rw [hsegs, List.length_append, List.length_append]
      omega
    have hover := hdone.mpr htotal
    cases hstage .refuse segs List.prefix_rfl with
    | header hlen hs =>
      rw [hs] at hover
      cases hover
    | body hlen hopen hs =>
      rw [hs.identity.fetch_open] at hover
      cases hover
    | ended q seg hq hat hs =>
      obtain ⟨hlen, n, hn, hle⟩ := hat.behind
      rw [hcl] at hn
      obtain rfl := Option.some.inj hn
      have hcap : body.length ≤ PAGE_CAP := by omega
      -- nothing is missing, and nothing else is there
      obtain ⟨hpg, hflag⟩ := hpage hover
      have hfit : ((q ++ [seg]).flatten.drop headers.length).length ≤ PAGE_CAP := by
        by_contra hbig
        have htr : (run (HttpFetch.feed .refuse) (.fresh gen) segs).page_truncated = true :=
          (congrArg Outcome.page_truncated hs).trans (decide_eq_true (Nat.not_le.mp hbig))
        exact absurd (hflag.mp htr) (by omega)
      have hbody : (q ++ [seg]).flatten.drop headers.length = body := by
        have hpg' := congrArg Outcome.page hs
        change _ = (finish_page .refuse [] _).1 at hpg'
        rw [refuse_page, List.take_of_length_le hfit] at hpg'
        rw [← hpg']
        exact hpg.trans (List.take_of_length_le hcap)
      refine ⟨hcap, q ++ [seg], hq, ?_⟩
      have hdrop := congrArg List.length hbody
      rw [List.length_drop] at hdrop
      omega
  · rintro ⟨hcap, cut, hcut, hlen⟩ dec pre hpre
    have hiff := over_behind_iff hcl hcap
    cases hstage dec pre hpre with
    | header hshort hs =>
      have hopen : (run (HttpFetch.feed dec) (.fresh gen) pre).fetch_done = false := by
        rw [hs]
        rfl
      simp only [hopen]
      exact ⟨iff_of_false (by simp) (by omega), fun h => by cases h⟩
    | body hlong hopen hs =>
      rw [hiff] at hopen
      simp only [hs.identity.fetch_open]
      exact ⟨iff_of_false (by simp) hopen, fun h => by cases h⟩
    | ended q seg hq hat hs =>
      have hdone : (run (HttpFetch.feed dec) (.fresh gen) pre).fetch_done = true :=
        congrArg Outcome.fetch_done hs
      have hbehind := (hiff _).mp hat.behind
      -- the body is over at the cut, so no segment goes past it
      have hexact : (q ++ [seg]).flatten.length = headers.length + body.length := by
        rcases List.prefix_or_prefix_of_prefix (hq.trans hpre) hcut with h | h
        · have hmono := flatten_length_mono h
          omega
        · rcases List.prefix_concat_iff.mp h with rfl | h
          · exact hlen
          · have hcutover : OverBehind headers cut := (hiff cut).mpr hlen.ge
            exact absurd (hcutover.mono h) hat.before
      have hbody := drop_eq_body hsegs (hq.trans hpre) hexact
      rw [hbody] at hs
      have hpage := congrArg Outcome.page hs
      change _ = (finish_page dec [] _).1 at hpage
      rw [List.take_of_length_le hcap, finish_page_plain dec hmagic] at hpage
      have hflag : (run (HttpFetch.feed dec) (.fresh gen) pre).page_truncated =
          decide (PAGE_CAP < body.length) := congrArg Outcome.page_truncated hs
      refine ⟨iff_of_true hdone (hbehind.trans (flatten_length_mono hq)), fun _ => ⟨?_, ?_⟩⟩
      · rw [List.take_of_length_le hcap]
        exact hpage
      · rw [hflag, decide_eq_true_eq]

end Run

/-! ### One byte too many -/

/-- A response with a body of one byte. -/
def one_byte_header : Bytes := ascii "HTTP/1.0 200 OK\r\nContent-Length: 1\r\n\r\n"

theorem one_byte_header_ok :
    HeaderBlock one_byte_header ∧ response_headers_chunked one_byte_header = false ∧
      parse_content_encoding_layers one_byte_header = some [] ∧
      parse_content_length one_byte_header = some 1 := by
  decide

/-- The parts of a response in one segment. -/
theorem only_segment {pre : List Bytes} {seg data : Bytes} (h : pre ++ [seg] <+: [data]) :
    pre = [] ∧ seg = data := by
  have hlen := h.length_le
  rw [List.length_append, List.length_singleton, List.length_singleton] at hlen
  obtain rfl : pre = [] := List.length_eq_zero_iff.mp (by omega)
  rw [List.nil_append, List.cons_prefix_cons] at h
  exact ⟨rfl, h.1⟩

theorem one_byte_fits {data : Bytes} (h : data.length ≤ STREAM_CAP) :
    HeaderFits one_byte_header [data] := by
  intro pre seg hpre _ _
  obtain ⟨rfl, rfl⟩ := only_segment hpre
  rwa [List.nil_append, List.flatten_singleton]

theorem one_byte_seen {data : Bytes}
    (h : find_http_header_end data = find_http_header_end one_byte_header) :
    HeaderSeen one_byte_header [data] := by
  intro pre seg hpre _ _
  obtain ⟨rfl, rfl⟩ := only_segment hpre
  rwa [List.nil_append, List.flatten_singleton]

/-- In one segment and with nothing behind it the body is framed. -/
theorem one_byte_framed :
    (∀ dec, LengthFramed dec 0 one_byte_header [97] [one_byte_header ++ [97]]) ↔
      1 ≤ PAGE_CAP ∧ CutAt [one_byte_header ++ [97]] (one_byte_header.length + 1) :=
  length_framed_iff 0 one_byte_header [97] [] [one_byte_header ++ [97]] one_byte_header_ok.1
    one_byte_header_ok.2.1 one_byte_header_ok.2.2.1 one_byte_header_ok.2.2.2 (by decide)
    (by simp) (one_byte_fits (by decide)) (one_byte_seen (by decide))

/-- A second byte in the same segment is stored in the page. -/
theorem surplus_byte_in_page :
    parse_content_length one_byte_header = some 1 ∧
      (run (HttpFetch.feed .refuse) (.fresh 0) [one_byte_header ++ [97, 98]]).fetch_done = true ∧
      (run (HttpFetch.feed .refuse) (.fresh 0) [one_byte_header ++ [97, 98]]).page = [97, 98] ∧
      ¬LengthFramed .refuse 0 one_byte_header [97] [one_byte_header ++ [97, 98]] := by
  have hrun : (run (HttpFetch.feed .refuse) (.fresh 0) [one_byte_header ++ [97, 98]]).fetch_done = true ∧
      (run (HttpFetch.feed .refuse) (.fresh 0) [one_byte_header ++ [97, 98]]).page = [97, 98] := by
    decide
  refine ⟨one_byte_header_ok.2.2.2, hrun.1, hrun.2, ?_⟩
  intro h
  have hpage := ((h _ List.prefix_rfl).2 hrun.1).1
  rw [hrun.2] at hpage
  exact absurd hpage (by decide)

end EveOS.Net
