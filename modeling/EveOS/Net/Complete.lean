/-
Complete bodies.

`CompleteBody` says what a complete body is by the response's own framing. A
stream that is read to an end without an error and without `page_truncated` has
brought one, provided that it does not end early (`EofOk`) and that no size line
is misread (`SizesOk`). The source checks neither; only a chunked body that is
cut short is an error there.
-/
import EveOS.Net.Effect
import EveOS.Net.Framing

set_option autoImplicit false

namespace EveOS.Net

/-- A complete body, by the framing of the response itself: up to the blank line
behind the last chunk, `Content-Length` bytes, or all up to the end of the
stream. The list is the codings it is under. -/
inductive CompleteBody (data : Bytes) (eof : Bool) : List BodyLayer → Bytes → Prop
  | chunked {headers wire rest body : Bytes} (hd : data = headers ++ (wire ++ rest))
    (hb : HeaderBlock headers) (hc : response_headers_chunked headers = true)
    (hw : Chunked chunk_size wire body) : CompleteBody data eof [] body
  | length {headers body rest : Bytes} {layers : List BodyLayer}
    (hd : data = headers ++ (body ++ rest)) (hb : HeaderBlock headers)
    (hc : response_headers_chunked headers = false)
    (hl : parse_content_encoding_layers headers = some layers)
    (hcl : parse_content_length headers = some body.length) : CompleteBody data eof layers body
  | to_eof {headers body : Bytes} {layers : List BodyLayer} (hd : data = headers ++ body)
    (hb : HeaderBlock headers) (hc : response_headers_chunked headers = false)
    (hl : parse_content_encoding_layers headers = some layers)
    (hcl : parse_content_length headers = none) (he : eof = true) : CompleteBody data eof layers body

/-- A complete body stands behind a header block. -/
theorem CompleteBody.header {data : Bytes} {eof : Bool} {layers : List BodyLayer} {body : Bytes}
    (h : CompleteBody data eof layers body) : ∃ n ≤ data.length, HeaderBlock (data.take n) := by
  have hpre : ∀ {headers rest : Bytes}, data = headers ++ rest → HeaderBlock headers →
      ∃ n ≤ data.length, HeaderBlock (data.take n) := by
    intro headers rest hd hb
    subst hd
    refine ⟨headers.length, ?_, ?_⟩
    · rw [List.length_append]
      omega
    · rw [List.take_left]
      exact hb
  cases h with
  | chunked hd hb => exact hpre hd hb
  | length hd hb => exact hpre hd hb
  | to_eof hd hb => exact hpre hd hb

/-! ## The conditions on the stream -/

/-- The stream may end here: the header is complete, and so is a body of known
length. -/
def EofOk (data : Bytes) : Prop :=
  ∃ n ≤ data.length, HeaderBlock (data.take n)
    ∧ (response_headers_chunked (data.take n) = true
      ∨ parse_content_encoding_layers (data.take n) = none
      ∨ ∀ cl ∈ parse_content_length (data.take n), cl ≤ (data.drop n).length)

/-- Every size line of a chunked body is read as it stands. -/
def SizesOk (data : Bytes) : Prop :=
  ∀ n ≤ data.length, HeaderBlock (data.take n) → response_headers_chunked (data.take n) = true →
    sizes_ok .start [] (data.drop n) = true

instance (data : Bytes) : Decidable (EofOk data) :=
  decidable_of_iff (∃ n, n < data.length + 1 ∧ HeaderBlock (data.take n)
    ∧ (response_headers_chunked (data.take n) = true
      ∨ parse_content_encoding_layers (data.take n) = none
      ∨ ∀ cl ∈ parse_content_length (data.take n), cl ≤ (data.drop n).length))
    (by simp only [EofOk, Nat.lt_succ_iff])

instance (data : Bytes) : Decidable (SizesOk data) :=
  inferInstanceAs (Decidable (∀ n ≤ data.length, _ → _ → _))

/-! ## Where a reader stands -/

section Read

variable (dec : Decoders) (gen : UInt32)

/-- A stream has a header block at its front, or none yet, or too long a header. -/
theorem feed_bytes_fresh_cases (data : Bytes) :
    (HttpFetch.fresh gen).feed_bytes dec data = { HttpFetch.fresh gen with stream := data }
    ∨ ((HttpFetch.fresh gen).feed_bytes dec data).fetch_err
        = (ascii "HTTP HDR TOO BIG").take FETCH_ERR_CAP
    ∨ ∃ n ≤ data.length, HeaderBlock (data.take n) := by
  have hin := fresh_inHeader gen
  by_cases hex : ∃ n, n ≤ data.length ∧ n ≤ STREAM_CAP
      ∧ (find_http_header_end (data.take n)).isSome = true
  · -- the first prefix with an end of the header is a header block
    right; right
    obtain ⟨hle, hcap, hsome⟩ := Nat.find_spec hex
    refine ⟨Nat.find hex, hle, ?_, ?_, hsome⟩
    · rw [List.length_take]
      omega
    · rw [List.length_take, Nat.min_eq_left hle, List.take_take]
      cases hf : find_http_header_end (data.take (min (Nat.find hex - 1) (Nat.find hex))) with
      | none => rfl
      | some r =>
        exfalso
        rw [Nat.min_eq_left (by omega)] at hf
        by_cases hz : Nat.find hex = 0
        · rw [hz] at hf
          cases hf
        · have hmin := Nat.find_min hex (show Nat.find hex - 1 < Nat.find hex by omega)
          exact hmin ⟨by omega, by omega, by rw [hf]; rfl⟩
  · have hnone : find_http_header_end (([] ++ data).take STREAM_CAP) = none := by
      rw [List.nil_append]
      cases hf : find_http_header_end (data.take STREAM_CAP) with
      | none => rfl
      | some r =>
        exfalso
        apply hex
        by_cases hlen : data.length ≤ STREAM_CAP
        · rw [List.take_of_length_le hlen] at hf
          exact ⟨data.length, le_rfl, hlen, by rw [List.take_length, hf]; rfl⟩
        · exact ⟨STREAM_CAP, by omega, le_rfl, by rw [hf]; rfl⟩
    by_cases hlen : ([] ++ data).length < STREAM_CAP
    · left
      have hshort : find_http_header_end ([] ++ data) = none := by
        rw [List.take_of_length_le (by omega)] at hnone
        exact hnone
      exact feed_bytes_header_more dec hin data hshort hlen
    · right; left
      have hlong : STREAM_CAP ≤ ([] ++ data).length := by omega
      rw [feed_bytes_header_full dec hin data hnone hlong, feed_header_full dec hin data hnone hlong]
      rfl

theorem finish_fetch_truncated (s : HttpFetch) :
    (s.finish_fetch dec).page_truncated = s.page_truncated := by
  cases hd : s.fetch_done with
  | true => rw [finish_fetch_over dec hd]
  | false => exact congrArg Outcome.page_truncated (finish_fetch_outcome dec hd)

/-- Once bytes are lost, the flag stays. -/
theorem feed_truncated {s : HttpFetch} (hf : s.header_found = true)
    (h : s.page_truncated = true) (seg : Bytes) : (s.feed dec seg).page_truncated = true := by
  have hpush : ∀ out, (s.push_bytes out).page_truncated = true := by
    intro out
    rw [push_bytes_eq]
    simp only [h, Bool.true_or]
  cases hd : s.fetch_done with
  | true => rw [feed_done dec hd]; exact h
  | false =>
    cases hc : s.http_chunked with
    | true =>
      rw [feed_chunked dec ⟨hf, hc, hd⟩]
      unfold HttpFetch.apply_walk
      cases (chunk_walk s.chunkPos seg).stop with
      | none => exact hpush _
      | some r =>
        cases r with
        | finished => exact (finish_fetch_truncated dec _).trans (hpush _)
        | bad_size => exact hpush _
        | bad_crlf => exact hpush _
        | stray => exact hpush _
    | false =>
      rw [feed_identity dec ⟨hf, hc, hd⟩]
      unfold HttpFetch.count_body
      rw [push_bytes_remaining]
      cases s.http_body_remaining with
      | none => exact hpush _
      | some rem =>
        dsimp only
        split_ifs
        · exact (finish_fetch_truncated dec _).trans (hpush _)
        · exact hpush _

theorem feed_bytes_truncated {s : HttpFetch} (hf : s.header_found = true)
    (h : s.page_truncated = true) (data : Bytes) :
    (s.feed_bytes dec data).page_truncated = true := by
  induction data generalizing s with
  | nil => exact h
  | cons b rest ih =>
    rw [feed_bytes_cons]
    exact ih (feed_header_found dec hf [b]) (feed_truncated dec hf h [b])

/-- Bytes of a fitting push that lost nothing. -/
theorem push_bytes_kept {s : HttpFetch} (hp : s.page = []) {body : Bytes}
    (h : (s.push_bytes body).page_truncated = false) : body.length ≤ PAGE_CAP := by
  rw [push_bytes_eq, hp] at h
  simp only [List.length_nil, Nat.sub_zero, Bool.or_eq_false_iff, decide_eq_false_iff_not] at h
  omega

/-- A fetch that finishes without an error. -/
theorem ofPage_ok {layers : List BodyLayer} {body : Bytes}
    (h : (Outcome.ofPage (finish_page dec layers body)).fetch_err = []) :
    (finish_page dec layers body).2 = none := by
  cases hm : (finish_page dec layers body).2 with
  | none => rfl
  | some msg =>
    have hall : ∀ m ∈ CODING_ERRORS, (ascii m).take FETCH_ERR_CAP ≠ [] := by decide
    have herr : (Outcome.ofPage (finish_page dec layers body)).fetch_err
        = (ascii msg).take FETCH_ERR_CAP := by
      unfold Outcome.ofPage
      rw [hm]
    rw [herr] at h
    exact absurd h (hall msg (finish_page_message hm))

/-- What the theorems below conclude: the page is the decoded form of a complete
body. -/
def TookComplete (data : Bytes) (eof : Bool) (page : Bytes) : Prop :=
  ∃ layers body, CompleteBody data eof layers body ∧ finish_page dec layers body = (page, none)

theorem tookComplete_of_ofPage {data : Bytes} {eof : Bool} {layers : List BodyLayer}
    {body : Bytes} {o : Outcome} (hb : CompleteBody data eof layers body)
    (ho : o = .ofPage (finish_page dec layers body)) (he : o.fetch_err = []) :
    TookComplete dec data eof o.page := by
  subst ho
  refine ⟨layers, body, hb, ?_⟩
  have hok := ofPage_ok dec he
  show finish_page dec layers body = ((finish_page dec layers body).1, none)
  rw [← hok]

/-! ## Bodies -/

/-- A chunked body that has ended. -/
theorem chunked_complete {headers tail : Bytes} {eof : Bool} (hb : HeaderBlock headers)
    (hc : response_headers_chunked headers = true) (hs : sizes_ok .start [] tail = true)
    (hdone : ((HttpFetch.fresh gen).feed_bytes dec (headers ++ tail)).fetch_done = true)
    (herr : ((HttpFetch.fresh gen).feed_bytes dec (headers ++ tail)).fetch_err = [])
    (htr : ((HttpFetch.fresh gen).feed_bytes dec (headers ++ tail)).page_truncated = false) :
    TookComplete dec (headers ++ tail) eof
      ((HttpFetch.fresh gen).feed_bytes dec (headers ++ tail)).page := by
  have hin : (HttpFetch.chunkedStart gen).InChunked := ⟨rfl, rfl, rfl⟩
  have heq : (HttpFetch.fresh gen).feed_bytes dec (headers ++ tail)
      = (HttpFetch.chunkedStart gen).apply_walk dec (chunk_walk .start tail) := by
    rw [feed_bytes_response dec gen hb, begin_body_chunked dec gen hc,
      ← feed_chunked_bytes dec hin, feed_chunked dec hin]
    rfl
  rw [heq] at hdone herr htr ⊢
  unfold HttpFetch.apply_walk at hdone herr htr ⊢
  cases hstop : (chunk_walk .start tail).stop with
  | none =>
    rw [hstop, push_bytes_eq] at hdone
    cases hdone
  | some r =>
    rw [hstop] at hdone herr htr
    cases r with
    | bad_size => cases herr
    | bad_crlf => cases herr
    | stray =>
      rw [push_bytes_eq] at hdone
      cases hdone
    | finished =>
      obtain ⟨wire, rest, rfl, hcomp⟩ := walk_sound (c := .start) (by trivial) hstop hs
      have hwire : Chunked chunk_size wire (chunk_walk .start (wire ++ rest)).out := by
        simpa using hcomp [] (by simp) rfl
      have hopen : (((HttpFetch.chunkedStart gen).push_bytes
          (chunk_walk .start (wire ++ rest)).out).moveTo
            (chunk_walk .start (wire ++ rest)).pos).fetch_done = false := by
        rw [push_bytes_eq]
        rfl
      have hout := finish_fetch_outcome dec hopen
      have hfit : (chunk_walk .start (wire ++ rest)).out.length ≤ PAGE_CAP := by
        apply push_bytes_kept (s := HttpFetch.chunkedStart gen) rfl
        exact (congrArg Outcome.page_truncated hout).symm.trans htr
      rw [push_bytes_fits rfl rfl hfit] at hout herr ⊢
      exact tookComplete_of_ofPage dec (.chunked rfl hb hc hwire) hout herr

/-- A body of known length that has been taken. -/
theorem length_complete {headers tail : Bytes} {e : Bool} {layers : List BodyLayer} {cl : Nat}
    (hb : HeaderBlock headers) (hc : response_headers_chunked headers = false)
    (hl : parse_content_encoding_layers headers = some layers)
    (hcl : parse_content_length headers = some cl) (hlen : cl ≤ tail.length)
    (htr : ((HttpFetch.fresh gen).feed_bytes dec (headers ++ tail)).page_truncated = false) :
    ((HttpFetch.fresh gen).feed_bytes dec (headers ++ tail)).fetch_done = true
    ∧ (((HttpFetch.fresh gen).feed_bytes dec (headers ++ tail)).fetch_err = [] →
      TookComplete dec (headers ++ tail) e
        ((HttpFetch.fresh gen).feed_bytes dec (headers ++ tail)).page) := by
  obtain ⟨body, rest, rfl, rfl⟩ : ∃ body rest, tail = body ++ rest ∧ body.length = cl := by
    refine ⟨tail.take cl, tail.drop cl, (List.take_append_drop cl tail).symm, ?_⟩
    rw [List.length_take]
    omega
  have hfound : ((HttpFetch.fresh gen).feed_bytes dec (headers ++ body)).header_found = true := by
    rw [feed_bytes_response dec gen hb]
    exact feed_bytes_header_found dec (begin_body_header_found dec _ _) body
  rw [← List.append_assoc, feed_bytes_append] at htr ⊢
  by_cases hfit : body.length ≤ PAGE_CAP
  · have hout := identity_response_outcome dec gen hb hc hl hcl hfit
    have hdone : ((HttpFetch.fresh gen).feed_bytes dec (headers ++ body)).fetch_done = true :=
      congrArg Outcome.fetch_done hout
    rw [feed_bytes_done dec hdone, List.append_assoc]
    refine ⟨hdone, ?_⟩
    intro herr
    exact tookComplete_of_ofPage dec (.length rfl hb hc hl hcl) hout herr
  · -- a body longer than the page loses bytes, and the flag says so
    exfalso
    have hne : body ≠ [] := by
      rintro rfl
      exact hfit (Nat.zero_le _)
    have hlost : ((HttpFetch.fresh gen).feed_bytes dec (headers ++ body)).page_truncated = true := by
      have hpos : body.length ≠ 0 := fun h => hne (List.length_eq_zero_iff.mp h)
      have hin : (HttpFetch.identityStart gen layers (some body.length)).InIdentity :=
        ⟨rfl, rfl, rfl⟩
      have hw : (HttpFetch.identityStart gen layers (some body.length)).Within body := by
        intro rem hrem
        have hrem' : some body.length = some rem := hrem
        simp only [Option.some.injEq] at hrem'
        omega
      rw [feed_bytes_response dec gen hb,
        begin_body_identityStart dec gen hc hl (by rw [hcl]; simpa using hpos), hcl,
        ← feed_identity_bytes dec hin hne hw, feed_identity dec hin]
      have hstored : (HttpFetch.identityStart gen layers (some body.length)).stored body
          = PAGE_CAP := by
        unfold HttpFetch.stored
        show min body.length (PAGE_CAP - 0) = _
        omega
      rw [hstored]
      unfold HttpFetch.count_body
      rw [push_bytes_remaining]
      show HttpFetch.page_truncated (if body.length - min body.length PAGE_CAP = 0 then _ else _)
        = true
      rw [if_neg (by omega), push_bytes_eq]
      show (false || decide (PAGE_CAP - 0 < body.length)) = true
      rw [Bool.false_or, decide_eq_true_eq]
      omega
    rw [feed_bytes_truncated dec hfound hlost] at htr
    cases htr

/-- A body of known length that is still to come. -/
theorem length_open {headers tail : Bytes} {layers : List BodyLayer} {cl : Nat}
    (hb : HeaderBlock headers) (hc : response_headers_chunked headers = false)
    (hl : parse_content_encoding_layers headers = some layers)
    (hcl : parse_content_length headers = some cl) (hlen : tail.length < cl) :
    ((HttpFetch.fresh gen).feed_bytes dec (headers ++ tail)).fetch_done = false := by
  rw [feed_bytes_response dec gen hb,
    begin_body_identityStart dec gen hc hl (by rw [hcl]; simp; omega), hcl]
  by_cases hne : tail = []
  · subst hne
    rfl
  have hin : (HttpFetch.identityStart gen layers (some cl)).InIdentity := ⟨rfl, rfl, rfl⟩
  have hw : (HttpFetch.identityStart gen layers (some cl)).Within tail := by
    intro rem hrem
    have hrem' : some cl = some rem := hrem
    simp only [Option.some.injEq] at hrem'
    omega
  rw [← feed_identity_bytes dec hin hne hw, feed_identity dec hin]
  have hstored : (HttpFetch.identityStart gen layers (some cl)).stored tail ≤ tail.length := by
    unfold HttpFetch.stored
    omega
  unfold HttpFetch.count_body
  rw [push_bytes_remaining]
  show HttpFetch.fetch_done (if cl - min cl _ = 0 then _ else _) = false
  rw [if_neg (by omega), push_bytes_eq]
  rfl

/-- A body without a length, up to here. -/
theorem unbounded_open {headers tail : Bytes} {layers : List BodyLayer}
    (hb : HeaderBlock headers) (hc : response_headers_chunked headers = false)
    (hl : parse_content_encoding_layers headers = some layers)
    (hcl : parse_content_length headers = none) :
    (HttpFetch.fresh gen).feed_bytes dec (headers ++ tail)
      = (HttpFetch.identityStart gen layers none).push_bytes tail := by
  rw [feed_bytes_response dec gen hb,
    begin_body_identityStart dec gen hc hl (by rw [hcl]; simp), hcl]
  by_cases hne : tail = []
  · subst hne
    rfl
  have hin : (HttpFetch.identityStart gen layers none).InIdentity := ⟨rfl, rfl, rfl⟩
  have hw : (HttpFetch.identityStart gen layers none).Within tail := by
    intro rem hrem
    cases hrem
  rw [← feed_identity_bytes dec hin hne hw, feed_identity dec hin]
  unfold HttpFetch.count_body
  rw [push_bytes_remaining]
  rfl

/-! ## Streams -/

/-- The reader of a stream, behind its end if it has ended. -/
def stream_end (data : Bytes) (eof : Bool) : HttpFetch :=
  if eof then ((HttpFetch.fresh gen).feed_bytes dec data).finish_plain_http_on_tcp_eof dec
  else (HttpFetch.fresh gen).feed_bytes dec data

/-- A stream that is not at its end yet. -/
theorem stream_complete_open {data : Bytes} {eof : Bool} (hsizes : SizesOk data)
    (hdone : ((HttpFetch.fresh gen).feed_bytes dec data).fetch_done = true)
    (herr : ((HttpFetch.fresh gen).feed_bytes dec data).fetch_err = [])
    (htr : ((HttpFetch.fresh gen).feed_bytes dec data).page_truncated = false) :
    TookComplete dec data eof ((HttpFetch.fresh gen).feed_bytes dec data).page := by
  obtain hmore | hbig | ⟨n, hn, hb⟩ := feed_bytes_fresh_cases dec gen data
  · rw [hmore] at hdone
    cases hdone
  · rw [hbig] at herr
    exact absurd herr (by decide)
  · have hsz := hsizes n hn hb
    rw [← List.take_append_drop n data] at hdone herr htr ⊢
    by_cases hc : response_headers_chunked (data.take n) = true
    · exact chunked_complete dec gen hb hc (hsz hc) hdone herr htr
    · rw [Bool.not_eq_true] at hc
      cases hl : parse_content_encoding_layers (data.take n) with
      | none =>
        have hout := refused_response_outcome dec gen hb hc hl (data.drop n)
        have hmsg : HttpFetch.fetch_err _ = _ := congrArg Outcome.fetch_err hout
        rw [hmsg] at herr
        exact absurd herr (by decide)
      | some layers =>
        cases hcl : parse_content_length (data.take n) with
        | none =>
          rw [unbounded_open dec gen hb hc hl hcl, push_bytes_eq] at hdone
          cases hdone
        | some cl =>
          by_cases hlen : cl ≤ (data.drop n).length
          · exact (length_complete dec gen hb hc hl hcl hlen htr).2 herr
          · rw [length_open dec gen hb hc hl hcl (by omega)] at hdone
            cases hdone

/-- The end of a stream that may end where it does. -/
theorem stream_complete_eof {data : Bytes} (hok : EofOk data)
    (hopen : ((HttpFetch.fresh gen).feed_bytes dec data).fetch_done = false)
    (herr : (stream_end dec gen data true).fetch_err = [])
    (htr : (stream_end dec gen data true).page_truncated = false) :
    TookComplete dec data true (stream_end dec gen data true).page := by
  have hend : stream_end dec gen data true
      = ((HttpFetch.fresh gen).feed_bytes dec data).finish_plain_http_on_tcp_eof dec := rfl
  unfold HttpFetch.finish_plain_http_on_tcp_eof at hend
  by_cases hchunk : ((HttpFetch.fresh gen).feed_bytes dec data).http_chunked = true
  · have hmsg : (ascii "HTTP CHUNK EOF").take FETCH_ERR_CAP ≠ [] := by decide
    rw [if_pos (by simp [hchunk, hopen])] at hend
    rw [hend] at herr
    exact absurd herr hmsg
  rw [if_neg (by simp [hchunk])] at hend
  obtain ⟨n, hn, hb, hbody⟩ := hok
  have hdata := (List.take_append_drop n data).symm
  have hc : response_headers_chunked (data.take n) = false := by
    -- a chunked reader stays one until it is done
    by_contra hc
    rw [Bool.not_eq_false] at hc
    have hin : (HttpFetch.chunkedStart gen).InChunked := ⟨rfl, rfl, rfl⟩
    have heq : (HttpFetch.fresh gen).feed_bytes dec data
        = (HttpFetch.chunkedStart gen).apply_walk dec (chunk_walk .start (data.drop n)) := by
      rw [hdata, feed_bytes_response dec gen hb, begin_body_chunked dec gen hc,
        ← feed_chunked_bytes dec hin, feed_chunked dec hin, ← hdata]
      rfl
    rw [heq] at hopen hchunk
    unfold HttpFetch.apply_walk at hopen hchunk
    cases hstop : (chunk_walk .start (data.drop n)).stop with
    | none =>
      rw [hstop, push_bytes_eq] at hchunk
      exact hchunk rfl
    | some r =>
      rw [hstop] at hopen hchunk
      dsimp only at hopen hchunk
      by_cases hr : r = .stray
      · subst hr
        rw [push_bytes_eq] at hchunk
        exact hchunk rfl
      · rw [chunk_stop_done dec _ hr] at hopen
        cases hopen
  cases hl : parse_content_encoding_layers (data.take n) with
  | none =>
    have hout := refused_response_outcome dec gen hb hc hl (data.drop n)
    rw [← hdata] at hout
    have hover : HttpFetch.fetch_done _ = _ := congrArg Outcome.fetch_done hout
    rw [hover] at hopen
    cases hopen
  | some layers =>
    cases hcl : parse_content_length (data.take n) with
    | some cl =>
      -- the body of known length is over, so the reader is
      exfalso
      have hlen : cl ≤ (data.drop n).length := by
        rcases hbody with h | h | h
        · rw [hc] at h
          cases h
        · rw [hl] at h
          cases h
        · exact h cl hcl
      rw [hend, finish_fetch_truncated, hdata] at htr
      have hover := (length_complete dec gen hb hc hl hcl hlen htr (e := true)).1
      rw [← hdata, hopen] at hover
      cases hover
    | none =>
      rw [hdata, unbounded_open dec gen hb hc hl hcl, ← hdata] at hend
      have hout : (stream_end dec gen data true).outcome = _ :=
        hend ▸ finish_fetch_outcome dec (by rw [push_bytes_eq]; rfl)
      have hfit : (data.drop n).length ≤ PAGE_CAP := by
        apply push_bytes_kept (s := HttpFetch.identityStart gen layers none) rfl
        exact (congrArg Outcome.page_truncated hout).symm.trans htr
      rw [push_bytes_fits rfl rfl hfit] at hout
      exact tookComplete_of_ofPage dec (.to_eof hdata hb hc hl hcl rfl) hout herr

/-- **A stream read to an end without an error has brought a complete body.** -/
theorem stream_complete {data : Bytes} {eof : Bool} (hsizes : SizesOk data)
    (heof : eof = true → EofOk data)
    (hdone : (stream_end dec gen data eof).fetch_done = true)
    (herr : (stream_end dec gen data eof).fetch_err = [])
    (htr : (stream_end dec gen data eof).page_truncated = false) :
    TookComplete dec data eof (stream_end dec gen data eof).page := by
  cases eof with
  | false => exact stream_complete_open dec gen hsizes hdone herr htr
  | true =>
    cases hd : ((HttpFetch.fresh gen).feed_bytes dec data).fetch_done with
    | false => exact stream_complete_eof dec gen (heof rfl) hd herr htr
    | true =>
      have hover : stream_end dec gen data true = (HttpFetch.fresh gen).feed_bytes dec data :=
        eof_over dec hd
      rw [hover] at herr htr ⊢
      exact stream_complete_open dec gen hsizes hd herr htr

/-! ## Blocks behind the header

A chunk that ends badly is an error, whatever the blocks behind it bring. -/

/-- The fetch is over with an error. -/
def HttpFetch.Failed (s : HttpFetch) : Prop := s.fetch_done = true ∧ s.fetch_err ≠ []

theorem failed_apply_walk {s : HttpFetch} (h : s.Failed) (w : ChunkWalk) :
    (s.apply_walk dec w).Failed := by
  have hpush : ((s.push_bytes w.out).moveTo w.pos).Failed := by
    rw [push_bytes_eq]
    exact h
  have hsize : (ascii "HTTP CHUNK SZ").take FETCH_ERR_CAP ≠ [] := by decide
  have hcrlf : (ascii "HTTP CHUNK CRLF").take FETCH_ERR_CAP ≠ [] := by decide
  unfold HttpFetch.apply_walk
  cases w.stop with
  | none => exact hpush
  | some r =>
    cases r with
    | finished =>
      show (HttpFetch.finish_fetch dec _).Failed
      rw [finish_fetch_over dec hpush.1]
      exact hpush
    | bad_size => exact ⟨rfl, hsize⟩
    | bad_crlf => exact ⟨rfl, hcrlf⟩
    | stray => exact hpush

theorem failed_tail {s : HttpFetch} (h : s.Failed) (blocks : Nat) (tail : Bytes) :
    (s.ingest_chunked_tail dec blocks tail).Failed := by
  induction blocks generalizing s tail with
  | zero => exact h
  | succ blocks ih =>
    simp only [HttpFetch.ingest_chunked_tail, ingest_chunked_bytes_eq]
    split_ifs
    · exact h
    · exact ih (failed_apply_walk dec h _) _

theorem blocksOk_of_drop {c : ChunkPos} {tail : Bytes}
    (hgo : (chunk_walk c (tail.take 256)).stop = none)
    (h : BlocksOk (chunk_walk c (tail.take 256)).pos (tail.drop 256)) : BlocksOk c tail := by
  intro k hk
  cases k with
  | zero =>
    rw [Nat.mul_zero, List.take_zero]
    exact nofun
  | succ k =>
    have hrest := h k (by rw [List.length_drop]; omega)
    have hsplit : tail.take (256 * (k + 1)) = tail.take 256 ++ (tail.drop 256).take (256 * k) := by
      rw [show 256 * (k + 1) = 256 + 256 * k by omega, List.take_add]
    rw [hsplit, chunk_walk_append _ _ _ hgo]
    exact hrest

/-- Once a block stops the decoder, every longer run of blocks stops there. -/
theorem blocksOk_of_stop {c : ChunkPos} {tail : Bytes} {r : ChunkStop}
    (hstop : (chunk_walk c (tail.take 256)).stop = some r) (hr : r ≠ .bad_crlf) :
    BlocksOk c tail := by
  intro k hk
  cases k with
  | zero =>
    rw [Nat.mul_zero, List.take_zero]
    exact nofun
  | succ k =>
    have hsplit : tail.take (256 * (k + 1)) = tail.take 256 ++ (tail.drop 256).take (256 * k) := by
      rw [show 256 * (k + 1) = 256 + 256 * k by omega, List.take_add]
    rw [hsplit, chunk_walk_append_stop _ _ _ hstop, hstop]
    simpa using hr

theorem tail_failed (blocks : Nat) {s : HttpFetch} {tail : Bytes} (hb : tail.length ≤ blocks)
    (hbad : ¬ BlocksOk s.chunkPos tail) : (s.ingest_chunked_tail dec blocks tail).Failed := by
  induction blocks generalizing s tail with
  | zero =>
    exfalso
    apply hbad
    intro k hk
    omega
  | succ blocks ih =>
    by_cases hne : tail = []
    · exfalso
      apply hbad
      intro k hk
      rw [hne] at hk
      exact absurd hk (Nat.not_lt_zero _)
    have hpos : 0 < tail.length := List.length_pos_of_ne_nil hne
    simp only [HttpFetch.ingest_chunked_tail, if_neg hne, ingest_chunked_bytes_eq]
    cases hstop : (chunk_walk s.chunkPos (tail.take 256)).stop with
    | none =>
      apply ih
      · rw [List.length_drop]
        omega
      · intro hok
        rw [apply_walk_going dec s _ hstop] at hok
        exact hbad (blocksOk_of_drop hstop hok)
    | some r =>
      by_cases hr : r = .bad_crlf
      · apply failed_tail
        have hcrlf : (ascii "HTTP CHUNK CRLF").take FETCH_ERR_CAP ≠ [] := by decide
        unfold HttpFetch.apply_walk
        rw [hstop, hr]
        exact ⟨rfl, hcrlf⟩
      · exact absurd (blocksOk_of_stop hstop hr) hbad

end Read

end EveOS.Net
