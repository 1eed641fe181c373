/-
What a response ends in.

The outcome of a response is computed here from its parts: the header block, the
way the body is framed, and the body. The two framings of a body feed the same
`finish_fetch`, but only the identity path parses `Content-Encoding`; a chunked
body is decoded by the gzip magic number alone. `framing_neutral_iff` says for
which codings and bodies that makes no difference.
-/
import EveOS.Net.ChunkBody
import EveOS.Net.Segments

set_option autoImplicit false

namespace EveOS.Net

/-- A header block: it fits the stream buffer, and its end is the first one. -/
def HeaderBlock (headers : Bytes) : Prop :=
  headers.length ≤ STREAM_CAP
    ∧ find_http_header_end (headers.take (headers.length - 1)) = none
    ∧ (find_http_header_end headers).isSome = true

instance (headers : Bytes) : Decidable (HeaderBlock headers) :=
  inferInstanceAs (Decidable (_ ∧ _ ∧ _))

/-- A header block ends where its end is found. -/
theorem HeaderBlock.length_eq {headers : Bytes} (h : HeaderBlock headers) {r : Nat × Nat}
    (hr : find_http_header_end headers = some r) : r.1 + r.2 = headers.length := by
  obtain ⟨hle, -, htake⟩ := find_http_header_end_take hr
  by_contra hne
  have hsplit : headers.take (headers.length - 1)
      = headers.take (r.1 + r.2) ++ (headers.take (headers.length - 1)).drop (r.1 + r.2) := by
    rw [← List.take_append_drop (r.1 + r.2) (headers.take (headers.length - 1)), List.take_take,
      Nat.min_eq_left (by omega), List.drop_append, List.length_take, Nat.min_eq_left hle]
    simp
  have hnone := h.2.1
  rw [hsplit] at hnone
  rw [find_http_header_end_none_of_append hnone] at htake
  cases htake

section Response

variable (dec : Decoders) (gen : UInt32)

/-- Reading a response starts its body behind the header block. -/
theorem feed_bytes_response {headers : Bytes} (h : HeaderBlock headers) (tail : Bytes) :
    (HttpFetch.fresh gen).feed_bytes dec (headers ++ tail) =
      (HttpFetch.begin_body dec { HttpFetch.fresh gen with stream := headers }
        headers.length).feed_bytes dec tail := by
  obtain ⟨r, hr⟩ := Option.isSome_iff_exists.mp h.2.2
  have hlen := h.length_eq hr
  have hpos : 0 < headers.length := by
    obtain ⟨-, hsep, -⟩ := find_http_header_end_take hr
    omega
  have hcap := h.1
  have hone : headers.length - 1 + 1 = headers.length := by omega
  have hbytes := feed_bytes_header dec (fresh_inHeader gen) (headers ++ tail)
    (n := headers.length - 1) (r := r)
  change _ → 0 + _ + 1 ≤ _ → find_http_header_end ([] ++ _) = none →
    find_http_header_end ([] ++ _) = _ → _ = HttpFetch.feed_bytes dec (HttpFetch.begin_body dec
      { HttpFetch.fresh gen with stream := [] ++ _ } _) _ at hbytes
  rw [hone, List.nil_append, List.nil_append, List.take_append_of_le_length (by omega),
    List.take_left, List.drop_left, hlen] at hbytes
  exact hbytes (by rw [List.length_append]; omega) (by omega) h.2.1 hr

/-- The outcome of a fetch that ends with the given page and message. -/
def Outcome.ofPage (r : Bytes × Option String) : Outcome where
  page := r.1
  page_truncated := false
  fetch_done := true
  fetch_err :=
    match r.2 with
    | none => []
    | some msg => (ascii msg).take FETCH_ERR_CAP

/-- A body that fits the page is stored as it is. -/
theorem push_bytes_fits {s : HttpFetch} (hp : s.page = []) (ht : s.page_truncated = false)
    {body : Bytes} (hb : body.length ≤ PAGE_CAP) : s.push_bytes body = { s with page := body } := by
  rw [push_bytes_eq, hp, ht]
  simp only [List.length_nil, Nat.sub_zero, List.nil_append, List.take_of_length_le hb,
    Bool.false_or, decide_eq_false (Nat.not_lt.mpr hb)]

/-- The reader of a chunked response behind the header. -/
def HttpFetch.chunkedStart (gen : UInt32) : HttpFetch :=
  { HttpFetch.fresh (gen + 1) with header_found := true, http_chunked := true }

theorem begin_body_chunked {headers : Bytes} (h : response_headers_chunked headers = true) :
    HttpFetch.begin_body dec { HttpFetch.fresh gen with stream := headers } headers.length
      = .chunkedStart gen := by
  unfold HttpFetch.begin_body HttpFetch.begin_chunked
  dsimp only
  rw [List.take_length, if_pos h, List.drop_length]
  rfl

/-- **A chunked response** ends with its body behind the gzip check. -/
theorem chunked_response_outcome {headers wire body : Bytes} (hh : HeaderBlock headers)
    (hc : response_headers_chunked headers = true) (hw : Chunked chunk_size wire body)
    (hs : sizes_ok .start [] wire = true) (hb : body.length ≤ PAGE_CAP) :
    ((HttpFetch.fresh gen).feed_bytes dec (headers ++ wire)).outcome
      = .ofPage (finish_page dec [] body) := by
  obtain ⟨hstop, hout⟩ := walk_complete hw hs
  have hin : (HttpFetch.chunkedStart gen).InChunked := ⟨rfl, rfl, rfl⟩
  rw [feed_bytes_response dec gen hh, begin_body_chunked dec gen hc,
    ← feed_chunked_bytes dec hin, feed_chunked dec hin]
  change (HttpFetch.apply_walk dec _ (chunk_walk .start wire)).outcome = _
  unfold HttpFetch.apply_walk
  rw [hstop, hout]
  show (HttpFetch.finish_fetch dec _).outcome = _
  rw [push_bytes_fits rfl rfl hb, finish_fetch_outcome dec rfl]
  rfl

/-- The reader of an identity response behind the header. -/
def HttpFetch.identityStart (gen : UInt32) (layers : List BodyLayer) (rem : Option Nat) :
    HttpFetch :=
  { HttpFetch.fresh (gen + 1) with
    header_found := true
    body_layers := layers
    http_body_remaining := rem }

/-- Behind the header of an identity response: the body is to come, or known to
be empty. -/
theorem begin_body_identity {headers : Bytes} {layers : List BodyLayer}
    (hc : response_headers_chunked headers = false)
    (hl : parse_content_encoding_layers headers = some layers) :
    HttpFetch.begin_body dec { HttpFetch.fresh gen with stream := headers } headers.length
      = (let t : HttpFetch := { HttpFetch.fresh gen with
          stream := headers
          header_found := true
          body_layers := layers
          http_body_remaining := parse_content_length headers }
        (if parse_content_length headers = some 0 then t.finish_fetch dec else t).header_taken) := by
  have hmap : (parse_content_length headers).map (fun cl => cl - min ([] : Bytes).length cl)
      = parse_content_length headers := by
    cases parse_content_length headers <;> simp
  unfold HttpFetch.begin_body
  dsimp only
  rw [List.take_length, if_neg (by simp [hc]), hl]
  unfold HttpFetch.begin_identity
  dsimp only
  rw [List.drop_length, List.take_length, hmap]
  rfl

/-- Unless it is known to be empty, the body is read from `identityStart`. -/
theorem begin_body_identityStart {headers : Bytes} {layers : List BodyLayer}
    (hc : response_headers_chunked headers = false)
    (hl : parse_content_encoding_layers headers = some layers)
    (hcl : parse_content_length headers ≠ some 0) :
    HttpFetch.begin_body dec { HttpFetch.fresh gen with stream := headers } headers.length
      = .identityStart gen layers (parse_content_length headers) := by
  rw [begin_body_identity dec gen hc hl]
  dsimp only
  rw [if_neg hcl]
  rfl

/-- An empty body of known length is over with the header. -/
theorem begin_body_empty {headers : Bytes} {layers : List BodyLayer}
    (hc : response_headers_chunked headers = false)
    (hl : parse_content_encoding_layers headers = some layers)
    (hcl : parse_content_length headers = some 0) :
    (HttpFetch.begin_body dec { HttpFetch.fresh gen with stream := headers }
      headers.length).outcome = .ofPage (finish_page dec layers []) := by
  rw [begin_body_identity dec gen hc hl]
  dsimp only
  rw [if_pos hcl]
  show (HttpFetch.finish_fetch dec _).outcome = _
  rw [finish_fetch_outcome dec rfl]
  rfl

/-- **A response with a known length** ends with its body behind the codings of
its header. -/
theorem identity_response_outcome {headers body : Bytes} {layers : List BodyLayer}
    (hh : HeaderBlock headers) (hc : response_headers_chunked headers = false)
    (hl : parse_content_encoding_layers headers = some layers)
    (hcl : parse_content_length headers = some body.length) (hb : body.length ≤ PAGE_CAP) :
    ((HttpFetch.fresh gen).feed_bytes dec (headers ++ body)).outcome
      = .ofPage (finish_page dec layers body) := by
  rw [feed_bytes_response dec gen hh]
  by_cases hne : body = []
  · subst hne
    rw [feed_bytes_nil]
    exact begin_body_empty dec gen hc hl hcl
  · have hpos : 0 < body.length := List.length_pos_of_ne_nil hne
    rw [begin_body_identityStart dec gen hc hl (by rw [hcl]; simpa using hne), hcl]
    have hin : (HttpFetch.identityStart gen layers (some body.length)).InIdentity := ⟨rfl, rfl, rfl⟩
    have hw : (HttpFetch.identityStart gen layers (some body.length)).Within body := by
      intro rem hrem
      have hrem' : some body.length = some rem := hrem
      simp only [Option.some.injEq] at hrem'
      omega
    rw [← feed_identity_bytes dec hin hne hw, feed_identity dec hin, push_bytes_fits rfl rfl hb]
    have hstored : (HttpFetch.identityStart gen layers (some body.length)).stored body
        = body.length := by
      unfold HttpFetch.stored
      show min body.length (PAGE_CAP - 0) = _
      omega
    rw [hstored]
    unfold HttpFetch.count_body
    show HttpFetch.outcome (if body.length - min body.length body.length = 0 then _ else _) = _
    rw [if_pos (by omega), finish_fetch_outcome dec rfl]
    rfl

/-- A response whose codings are refused ends with the header. -/
theorem refused_response_outcome {headers : Bytes} (hh : HeaderBlock headers)
    (hc : response_headers_chunked headers = false)
    (hl : parse_content_encoding_layers headers = none) (body : Bytes) :
    ((HttpFetch.fresh gen).feed_bytes dec (headers ++ body)).outcome
      = .ofPage ([], some "HTTP ENC") := by
  rw [feed_bytes_response dec gen hh]
  have hstart : HttpFetch.begin_body dec { HttpFetch.fresh gen with stream := headers }
      headers.length = HttpFetch.set_err { HttpFetch.fresh gen with
        stream := headers, header_found := true } "HTTP ENC" := by
    unfold HttpFetch.begin_body
    dsimp only
    rw [List.take_length, if_neg (by simp [hc]), hl]
  rw [hstart, feed_bytes_done dec (set_err_done _ _)]
  rfl

end Response

/-! ## The codings of a body -/

/-- The body starts like a gzip member. -/
def GzipMagic (body : Bytes) : Prop :=
  2 ≤ body.length ∧ byteAt body 0 = 0x1f ∧ byteAt body 1 = 0x8b

instance (body : Bytes) : Decidable (GzipMagic body) :=
  inferInstanceAs (Decidable (_ ∧ _ ∧ _))

/-- The two framings agree: no coding, or gzip as the outermost one on a body
that is HTML in the clear, or that is a gzip member with no coding below it, or
that is too broken to be inflated. -/
def FramingNeutral (codings : Option (List BodyLayer)) (body : Bytes) : Prop :=
  ∃ layers ∈ codings, layers = [] ∨
    (layers.getLast? = some .Gzip ∧
      (body_starts_like_html body = true
        ∨ (GzipMagic body ∧ (layers.length = 1 ∨ body.length < 18
            ∨ gzip_deflate_payload body = none))))

/-- No header gives the coding `Identity`. -/
theorem push_layer_no_identity {layers layers' : List BodyLayer} {part : Bytes}
    (h : .Identity ∉ layers) (hp : push_layer layers part = some layers') :
    .Identity ∉ layers' := by
  have hcoding : content_coding part ≠ some (some .Identity) := by
    unfold content_coding
    dsimp only
    split_ifs <;> simp
  unfold push_layer at hp
  cases hc : content_coding part with
  | none => rw [hc] at hp; cases hp
  | some o =>
    rw [hc] at hp hcoding
    cases o with
    | none =>
      simp only [Option.some.injEq] at hp
      exact hp ▸ h
    | some layer =>
      dsimp only at hp
      split_ifs at hp
      simp only [Option.some.injEq] at hp
      subst hp
      simp only [List.mem_append, List.mem_singleton, not_or]
      refine ⟨h, ?_⟩
      rintro rfl
      exact hcoding rfl

theorem foldlM_push_layer_no_identity {parts : List Bytes} {layers layers' : List BodyLayer}
    (h : .Identity ∉ layers) (hp : parts.foldlM push_layer layers = some layers') :
    .Identity ∉ layers' := by
  induction parts generalizing layers with
  | nil =>
    simp only [List.foldlM_nil] at hp
    cases hp
    exact h
  | cons part parts ih =>
    rw [List.foldlM_cons] at hp
    cases hc : push_layer layers part with
    | none => rw [hc] at hp; cases hp
    | some mid =>
      rw [hc] at hp
      exact ih (push_layer_no_identity h hc) hp

theorem parse_layers_no_identity {headers : Bytes} {layers : List BodyLayer}
    (h : parse_content_encoding_layers headers = some layers) : .Identity ∉ layers :=
  foldlM_push_layer_no_identity (by simp) h

/-- What `finish_fetch` makes of the result of the layer loop. -/
def settle (r : Bytes × Option String) : Bytes × Option String :=
  match r with
  | (page, none) => (page, none)
  | (page, some msg) => if body_starts_like_html page then (page, none) else (page, some msg)

theorem finish_page_layers (dec : Decoders) (rest : List BodyLayer) (layer : BodyLayer)
    (body : Bytes) :
    finish_page dec (rest ++ [layer]) body
      = settle (decompress_layers dec (layer :: rest.reverse) body) := by
  unfold finish_page decompress_body_layers settle
  rw [if_pos (by simp), List.reverse_append]
  rfl

theorem finish_page_sniff (dec : Decoders) {body : Bytes} (h : GzipMagic body) :
    finish_page dec [] body =
      match decompress_gzip_once dec body with
      | .ok page => (page, none)
      | .error msg => (body, some msg) := by
  unfold finish_page
  rw [if_neg (by simp)]
  exact if_pos h

theorem finish_page_plain (dec : Decoders) {body : Bytes} (h : ¬ GzipMagic body) :
    finish_page dec [] body = (body, none) := by
  unfold finish_page
  rw [if_neg (by simp)]
  exact if_neg h

/-- A gzip member is not HTML in the clear. -/
theorem not_html_of_magic {body : Bytes} (h : GzipMagic body) :
    body_starts_like_html body = false := by
  obtain ⟨hlen, h0, -⟩ := h
  cases body with
  | nil => simp at hlen
  | cons b rest =>
    have hb : b = 0x1f := by simpa [byteAt] using h0
    subst hb
    rfl

/-- Without the magic number, gzip fails before it inflates anything. -/
theorem gzip_fails_of_not_magic (dec : Decoders) {body : Bytes} (h : ¬ GzipMagic body) :
    ∃ msg, decompress_gzip_once dec body = .error msg := by
  unfold decompress_gzip_once
  by_cases hlen : body.length < 18
  · exact ⟨_, by rw [if_pos hlen]⟩
  · have hnone : gzip_deflate_payload body = none := by
      unfold gzip_deflate_payload
      rw [if_neg hlen, if_pos]
      by_contra hall
      simp only [ne_eq, not_or, not_not] at hall
      exact h ⟨by omega, hall.1, hall.2.1⟩
    exact ⟨_, by rw [if_neg hlen, hnone]⟩

/-- A member that is too short, or has no DEFLATE stream, fails the same way
whatever the decoder does. -/
theorem gzip_fails_of_broken (dec : Decoders) {body : Bytes}
    (h : body.length < 18 ∨ gzip_deflate_payload body = none) :
    ∃ msg, decompress_gzip_once dec body = .error msg := by
  unfold decompress_gzip_once
  by_cases hlen : body.length < 18
  · exact ⟨_, by rw [if_pos hlen]⟩
  · rw [h.resolve_left hlen]
    exact ⟨_, by rw [if_neg hlen]⟩

/-! ### Enough -/

theorem finish_page_neutral (dec : Decoders) {layers : List BodyLayer} {body : Bytes}
    (h : FramingNeutral (some layers) body) :
    finish_page dec [] body = finish_page dec layers body := by
  obtain ⟨layers', hmem, h⟩ := h
  simp only [Option.mem_def, Option.some.injEq] at hmem
  subst hmem
  rcases h with rfl | ⟨hlast, h⟩
  · rfl
  obtain ⟨rest, rfl⟩ := List.getLast?_eq_some_iff.mp hlast
  rw [finish_page_layers]
  simp only [decompress_layers, decompress_layer]
  rcases h with hhtml | ⟨hmagic, hshape⟩
  · -- HTML in the clear: the failing gzip layer is forgiven
    have hnot : ¬ GzipMagic body := by
      intro hm
      rw [not_html_of_magic hm] at hhtml
      cases hhtml
    obtain ⟨msg, hmsg⟩ := gzip_fails_of_not_magic dec hnot
    rw [finish_page_plain dec hnot, hmsg]
    simp only [settle, hhtml, if_true]
  · have hhtml := not_html_of_magic hmagic
    rw [finish_page_sniff dec hmagic]
    rcases hshape with hone | hbroken
    · -- gzip alone: both sides undo it once
      have hnil : rest = [] := by
        rw [List.length_append, List.length_singleton] at hone
        exact List.length_eq_zero_iff.mp (by omega)
      subst hnil
      cases decompress_gzip_once dec body with
      | ok page => rfl
      | error msg => simp only [settle, hhtml, Bool.false_eq_true, if_false]
    · obtain ⟨msg, hmsg⟩ := gzip_fails_of_broken dec hbroken
      rw [hmsg]
      simp only [settle, hhtml, Bool.false_eq_true, if_false]

/-! ### And needed

Three decoders tell the framings apart: one that rejects everything, one that
gives an empty page for everything, and one that inflates raw streams only. -/

/-- Every input decodes to nothing. -/
def Decoders.void : Decoders := ⟨fun _ _ => .ok [], fun _ => some []⟩

/-- Raw DEFLATE streams decode to nothing, other input not at all. -/
def Decoders.rawOnly : Decoders :=
  ⟨fun zlib _ => if zlib then .error .Other else .ok [], fun _ => none⟩

/-- With nothing in hand, no layer brings anything back. -/
theorem decompress_layers_void (layers : List BodyLayer) :
    (decompress_layers .void layers []).1 = [] := by
  induction layers with
  | nil => rfl
  | cons layer rest ih =>
    cases layer with
    | Identity => exact ih
    | Gzip => rfl
    | DeflateZlib => exact ih
    | Brotli => exact ih

theorem settle_page (r : Bytes × Option String) : (settle r).1 = r.1 := by
  obtain ⟨page, _ | msg⟩ := r
  · rfl
  · unfold settle
    dsimp only
    split_ifs <;> rfl

/-- An outcome without error is not one with a message. -/
theorem ofPage_none_ne {page page' : Bytes} {msg : String} (hmsg : ascii msg ≠ []) :
    (Outcome.ofPage (page, none)).fetch_err ≠ (Outcome.ofPage (page', some msg)).fetch_err := by
  intro h
  have h' : [] = (ascii msg).take FETCH_ERR_CAP := h
  rw [eq_comm, List.take_eq_nil_iff] at h'
  exact hmsg (h'.resolve_left (by decide))

/-- **The condition is needed.** -/
theorem neutral_of_same {layers : List BodyLayer} {body : Bytes} (hid : .Identity ∉ layers)
    (h : ∀ dec, Outcome.ofPage (finish_page dec [] body)
      = Outcome.ofPage (finish_page dec layers body)) :
    FramingNeutral (some layers) body := by
  refine ⟨layers, rfl, ?_⟩
  rcases List.eq_nil_or_concat' layers with rfl | ⟨rest, layer, rfl⟩
  · exact .inl rfl
  right
  have herr : ∀ dec, _ = _ := fun dec => congrArg Outcome.fetch_err (h dec)
  have hpage : ∀ dec, (finish_page dec [] body).1 = (finish_page dec (rest ++ [layer]) body).1 :=
    fun dec => congrArg Outcome.page (h dec)
  simp only [finish_page_layers] at herr hpage
  -- an outermost coding other than gzip is told apart by its message or its page
  have hother : ∀ msg, ascii msg ≠ [] →
      decompress_layer .refuse layer body = .error msg →
      decompress_layer .void layer body = .ok [] → ¬ GzipMagic body → False := by
    intro msg hmsg hrefuse hvoid hnot
    have h₁ := herr .refuse
    have h₂ := hpage .void
    rw [finish_page_plain _ hnot] at h₁ h₂
    simp only [decompress_layers, hrefuse] at h₁
    simp only [decompress_layers, hvoid, settle_page, decompress_layers_void] at h₂
    rw [h₂] at h₁
    exact ofPage_none_ne hmsg h₁
  have hmessage : ∀ msg, decompress_layer .refuse layer body = .error msg →
      (∀ m ∈ GZIP_ERRORS,
        (ascii m).take FETCH_ERR_CAP ≠ (ascii msg).take FETCH_ERR_CAP) →
      GzipMagic body → False := by
    intro msg hrefuse hne hmagic
    have h₁ := herr .refuse
    rw [finish_page_sniff _ hmagic] at h₁
    simp only [decompress_layers, hrefuse, settle, not_html_of_magic hmagic, Bool.false_eq_true,
      if_false] at h₁
    cases hg : decompress_gzip_once .refuse body with
    | ok page =>
      exfalso
      unfold decompress_gzip_once at hg
      split_ifs at hg
      cases hd : gzip_deflate_payload body with
      | none => rw [hd] at hg; cases hg
      | some deflate => rw [hd] at hg; cases hg
    | error m =>
      rw [hg] at h₁
      exact hne m (decompress_gzip_message hg) h₁
  cases layer with
  | Identity => exact absurd (by simp) hid
  | DeflateZlib =>
    by_cases hmagic : GzipMagic body
    · exact (hmessage "ZLIB BAD" rfl (by decide) hmagic).elim
    · exact (hother "ZLIB BAD" (by decide) rfl rfl hmagic).elim
  | Brotli =>
    by_cases hmagic : GzipMagic body
    · exact (hmessage "BR BAD" rfl (by decide) hmagic).elim
    · exact (hother "BR BAD" (by decide) rfl rfl hmagic).elim
  | Gzip =>
    refine ⟨by simp, ?_⟩
    by_cases hmagic : GzipMagic body
    · -- a gzip member: what is below it must not matter
      right
      refine ⟨hmagic, ?_⟩
      by_contra hcon
      rw [not_or, not_or] at hcon
      obtain ⟨hone, hlen, hpay⟩ := hcon
      obtain ⟨deflate, hd⟩ := Option.ne_none_iff_exists'.mp hpay
      have hgz : decompress_gzip_once .rawOnly body = .ok [] := by
        unfold decompress_gzip_once
        rw [if_neg hlen, hd]
        rfl
      have h₁ := herr .rawOnly
      rw [finish_page_sniff _ hmagic, hgz] at h₁
      simp only [decompress_layers, decompress_layer, hgz] at h₁
      have hrest : rest.reverse ≠ [] := by
        intro hnil
        rw [List.reverse_eq_nil_iff] at hnil
        rw [hnil] at hone
        exact hone rfl
      obtain ⟨below, more, hcons⟩ := List.exists_cons_of_ne_nil hrest
      have hbelow : below ≠ .Identity := by
        rintro rfl
        have hin : BodyLayer.Identity ∈ rest.reverse := by rw [hcons]; simp
        rw [List.mem_reverse] at hin
        exact hid (by simp [hin])
      rw [hcons] at h₁
      cases below with
      | Identity => exact hbelow rfl
      | Gzip => exact absurd h₁ (ofPage_none_ne (by decide))
      | DeflateZlib => exact absurd h₁ (ofPage_none_ne (by decide))
      | Brotli => exact absurd h₁ (ofPage_none_ne (by decide))
    · -- not a gzip member: the failing layer has to be forgiven
      left
      by_contra hhtml
      have h₁ := herr .refuse
      obtain ⟨msg, hmsg⟩ := gzip_fails_of_not_magic .refuse hmagic
      have hm : ascii msg ≠ [] := by
        have hall : ∀ m ∈ GZIP_ERRORS,
            ascii m ≠ [] := by decide
        exact hall msg (decompress_gzip_message hmsg)
      rw [finish_page_plain _ hmagic] at h₁
      simp only [decompress_layers, decompress_layer, hmsg, settle, hhtml, if_false] at h₁
      exact ofPage_none_ne hm h₁

/-! ## The two framings -/

/-- A chunked body never ends in the error of a refused coding. -/
theorem sniff_ne_enc (dec : Decoders) (body : Bytes) :
    (Outcome.ofPage (finish_page dec [] body)).fetch_err
      ≠ (Outcome.ofPage ([], some "HTTP ENC")).fetch_err := by
  by_cases hmagic : GzipMagic body
  · rw [finish_page_sniff dec hmagic]
    cases hg : decompress_gzip_once dec body with
    | ok page => exact ofPage_none_ne (by decide)
    | error msg =>
      have hall : ∀ m ∈ GZIP_ERRORS,
          (ascii m).take FETCH_ERR_CAP ≠ (ascii "HTTP ENC").take FETCH_ERR_CAP := by decide
      exact hall msg (decompress_gzip_message hg)
  · rw [finish_page_plain dec hmagic]
    exact ofPage_none_ne (by decide)

/-- A response that is over before the connection ends. -/
theorem read_response_done (dec : Decoders) (gen : UInt32) {segs : List Bytes} {data : Bytes}
    {r : Bytes × Option String} (hdata : segs.flatten = data) (hne : ∀ seg ∈ segs, seg ≠ [])
    (hok : Along (HttpFetch.feed dec) HttpFetch.ReadOk (.fresh gen) segs)
    (hout : ((HttpFetch.fresh gen).feed_bytes dec data).outcome = .ofPage r) :
    read_response dec gen segs = .ofPage r := by
  rw [read_response_eq dec gen hne hok, hdata]
  have hdone : ((HttpFetch.fresh gen).feed_bytes dec data).fetch_done = true :=
    congrArg Outcome.fetch_done hout
  rw [eof_over dec hdone]
  exact hout

/-- **When the framing does not change the content.** A response that carries
`body` chunked and one that carries it with its length, under headers that agree
on the content codings, end with the same page and the same error for every
decoder, exactly when `FramingNeutral`. -/
theorem framing_neutral_iff (gen : UInt32) (chunked_headers length_headers wire body : Bytes)
    (hbody : body.length ≤ PAGE_CAP)
    (hblock₁ : HeaderBlock chunked_headers) (hblock₂ : HeaderBlock length_headers)
    (hchunked₁ : response_headers_chunked chunked_headers = true)
    (hchunked₂ : response_headers_chunked length_headers = false)
    (hlength : parse_content_length length_headers = some body.length)
    (hwire : Chunked chunk_size wire body) (hsizes : sizes_ok .start [] wire = true)
    (segs₁ segs₂ : List Bytes)
    (hsegs₁ : segs₁.flatten = chunked_headers ++ wire)
    (hsegs₂ : segs₂.flatten = length_headers ++ body)
    (hne₁ : ∀ seg ∈ segs₁, seg ≠ []) (hne₂ : ∀ seg ∈ segs₂, seg ≠ [])
    (hok₁ : ∀ dec, Along (HttpFetch.feed dec) HttpFetch.ReadOk (.fresh gen) segs₁)
    (hok₂ : ∀ dec, Along (HttpFetch.feed dec) HttpFetch.ReadOk (.fresh gen) segs₂) :
    (∀ dec, (read_response dec gen segs₁).page = (read_response dec gen segs₂).page
        ∧ (read_response dec gen segs₁).fetch_err = (read_response dec gen segs₂).fetch_err)
      ↔ FramingNeutral (parse_content_encoding_layers length_headers) body := by
  have h₁ : ∀ dec, read_response dec gen segs₁ = .ofPage (finish_page dec [] body) := fun dec =>
    read_response_done dec gen hsegs₁ hne₁ (hok₁ dec)
      (chunked_response_outcome dec gen hblock₁ hchunked₁ hwire hsizes hbody)
  cases hl : parse_content_encoding_layers length_headers with
  | none =>
    have h₂ : ∀ dec, read_response dec gen segs₂ = .ofPage ([], some "HTTP ENC") := fun dec =>
      read_response_done dec gen hsegs₂ hne₂ (hok₂ dec)
        (refused_response_outcome dec gen hblock₂ hchunked₂ hl body)
    constructor
    · intro h
      have herr := (h .refuse).2
      rw [h₁, h₂] at herr
      exact absurd herr (sniff_ne_enc .refuse body)
    · rintro ⟨layers, hmem, -⟩
      cases hmem
  | some layers =>
    have h₂ : ∀ dec, read_response dec gen segs₂ = .ofPage (finish_page dec layers body) :=
      fun dec => read_response_done dec gen hsegs₂ hne₂ (hok₂ dec)
        (identity_response_outcome dec gen hblock₂ hchunked₂ hl hlength hbody)
    constructor
    · intro h
      refine neutral_of_same (parse_layers_no_identity hl) (fun dec => ?_)
      obtain ⟨hpage, herr⟩ := h dec
      rw [h₁, h₂] at hpage herr
      unfold Outcome.ofPage at hpage herr ⊢
      simp only [Outcome.mk.injEq, true_and]
      exact ⟨hpage, herr⟩
    · intro h dec
      rw [h₁, h₂, finish_page_neutral dec h]
      exact ⟨rfl, rfl⟩

/-! ### Concrete responses -/

/-- The header of a response with the given framing and coding lines. -/
def response_header (framing coding : String) : Bytes :=
  ascii "HTTP/1.0 200 OK\r\n" ++ ascii framing ++ ascii "\r\n" ++ ascii coding ++ ascii "\r\n\r\n"

/-- `<p>` as one chunk. -/
def chunked_p : Bytes := ascii "3\r\n<p>\r\n0\r\n\r\n"

theorem chunked_p_body : Chunked chunk_size chunked_p (ascii "<p>") := by
  have hlast : Chunked chunk_size (ascii "0\r" ++ 10 :: (ascii "\r" ++ [10])) [] :=
    .last (by decide) (by decide) (.blank (by decide) (by decide))
  have hchunk : Chunked chunk_size
      (ascii "3\r" ++ 10 :: (ascii "<p>" ++ ([13, 10] ++ (ascii "0\r" ++ 10 :: (ascii "\r" ++ [10])))))
      (ascii "<p>" ++ []) :=
    .chunk (by decide) (by decide) (by decide) (.inr rfl) hlast
  exact hchunk

/-- HTML in the clear under a gzip label reads the same in both framings. -/
theorem html_under_gzip_label :
    (read_response .refuse 0
        [response_header "Transfer-Encoding: chunked" "Content-Encoding: gzip" ++ chunked_p]).page
      = (read_response .refuse 0
        [response_header "Content-Length: 3" "Content-Encoding: gzip" ++ ascii "<p>"]).page := by
  have hneutral : FramingNeutral (parse_content_encoding_layers
      (response_header "Content-Length: 3" "Content-Encoding: gzip")) (ascii "<p>") :=
    ⟨[.Gzip], by decide, .inr ⟨rfl, .inl (by decide)⟩⟩
  have hiff := framing_neutral_iff 0
    (response_header "Transfer-Encoding: chunked" "Content-Encoding: gzip")
    (response_header "Content-Length: 3" "Content-Encoding: gzip") chunked_p (ascii "<p>")
    (by decide) (by decide) (by decide) (by decide)
    (by decide) (by decide) chunked_p_body (by decide)
    [response_header "Transfer-Encoding: chunked" "Content-Encoding: gzip" ++ chunked_p]
    [response_header "Content-Length: 3" "Content-Encoding: gzip" ++ ascii "<p>"]
    (by simp) (by simp) (by decide) (by decide)
    (fun _ => ⟨by decide, trivial⟩) (fun _ => ⟨by decide, trivial⟩)
  exact (hiff.mpr hneutral .refuse).1

/-- A body under a `deflate` label that is none: an error with a known length,
and no error when it is chunked. -/
theorem deflate_label_differs :
    (read_response .refuse 0
        [response_header "Transfer-Encoding: chunked" "Content-Encoding: deflate"
          ++ ascii "1\r\nx\r\n0\r\n\r\n"]).fetch_err
      ≠ (read_response .refuse 0
        [response_header "Content-Length: 1" "Content-Encoding: deflate" ++ ascii "x"]).fetch_err := by
  decide

end EveOS.Net
