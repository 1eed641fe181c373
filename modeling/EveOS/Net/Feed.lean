/-
A response read segment by segment.

`feed` hands one segment to `ingest_tcp_payload` unless the fetch is over, and a
run of `feed` reads a response. Reading it one byte at a time is the special
case `feed_bytes`. The statements of this file say what one segment does in
terms of its bytes, for the three states a reader can be in: before the end of
the header, in a chunked body, and in an identity body.
-/
import EveOS.Lib.Run
import EveOS.Net.Chunk

set_option autoImplicit false

namespace EveOS.Net

/-- The response side of a fetch that has just been started. -/
def HttpFetch.fresh (gen : UInt32) : HttpFetch where
  page := []
  page_gen := gen
  fetch_err := []
  fetch_armed := true
  fetch_done := false
  stream := []
  header_found := false
  http_body_remaining := none
  http_chunked := false
  chunk_phase := .SizeLine
  chunk_line := []
  page_truncated := false
  body_layers := []

/-- What a caller sees of a fetch. -/
structure Outcome where
  page : Bytes
  page_truncated : Bool
  fetch_done : Bool
  fetch_err : Bytes
  deriving DecidableEq

def HttpFetch.outcome (s : HttpFetch) : Outcome := { s with }

section Feed

variable (dec : Decoders)

/-- One segment, unless the fetch is over. -/
def HttpFetch.feed (s : HttpFetch) (seg : Bytes) : HttpFetch :=
  if s.fetch_done then s else s.ingest_tcp_payload dec seg

/-- A string, one byte at a time. -/
def HttpFetch.feed_bytes (s : HttpFetch) (data : Bytes) : HttpFetch :=
  run (HttpFetch.feed dec) s (data.map ([·]))

@[simp] theorem feed_bytes_nil (s : HttpFetch) : s.feed_bytes dec [] = s := rfl

theorem feed_bytes_cons (s : HttpFetch) (b : UInt8) (data : Bytes) :
    s.feed_bytes dec (b :: data) = (s.feed dec [b]).feed_bytes dec data := rfl

theorem feed_bytes_append (s : HttpFetch) (xs ys : Bytes) :
    s.feed_bytes dec (xs ++ ys) = (s.feed_bytes dec xs).feed_bytes dec ys := by
  unfold HttpFetch.feed_bytes
  rw [List.map_append, run_append]

theorem feed_done {s : HttpFetch} (h : s.fetch_done = true) (seg : Bytes) :
    s.feed dec seg = s := by
  unfold HttpFetch.feed
  rw [if_pos h]

theorem feed_open {s : HttpFetch} (h : s.fetch_done = false) (seg : Bytes) :
    s.feed dec seg = s.ingest_tcp_payload dec seg := by
  unfold HttpFetch.feed
  rw [if_neg (by simp [h])]

theorem feed_bytes_done {s : HttpFetch} (h : s.fetch_done = true) (data : Bytes) :
    s.feed_bytes dec data = s := by
  induction data with
  | nil => rfl
  | cons b data ih => rw [feed_bytes_cons, feed_done dec h, ih]

end Feed

/-! ## Ending a fetch -/

@[simp] theorem set_err_done (s : HttpFetch) (msg : String) : (s.set_err msg).fetch_done = true :=
  rfl

/-- What `finish_fetch` makes of a page: the decoded page, and the message of a
coding that failed. -/
def finish_page (dec : Decoders) (layers : List BodyLayer) (page : Bytes) :
    Bytes × Option String :=
  if 0 < layers.length then
    match decompress_body_layers dec layers page with
    | (page, none) => (page, none)
    | (page, some msg) => if body_starts_like_html page then (page, none) else (page, some msg)
  else if 2 ≤ page.length ∧ byteAt page 0 = 0x1f ∧ byteAt page 1 = 0x8b then
    match decompress_gzip_once dec page with
    | .ok page => (page, none)
    | .error msg => (page, some msg)
  else (page, none)

/-- The messages of the gzip layer. -/
def GZIP_ERRORS : List String := ["GZIP SHORT", "GZIP HDR", "GZIP INT", "GZIP BIG", "GZIP BAD"]

/-- The messages of the content codings. -/
def CODING_ERRORS : List String :=
  GZIP_ERRORS ++ ["ZLIB INT", "ZLIB BIG", "ZLIB BAD", "BR BAD", "BR INT"]

theorem decompress_gzip_message {dec : Decoders} {page : Bytes} {msg : String}
    (h : decompress_gzip_once dec page = .error msg) : msg ∈ GZIP_ERRORS := by
  unfold decompress_gzip_once at h
  split_ifs at h
  · cases h
    simp [GZIP_ERRORS]
  · cases hd : gzip_deflate_payload page with
    | none =>
      rw [hd] at h
      cases h
      simp [GZIP_ERRORS]
    | some deflate =>
      rw [hd] at h
      dsimp only at h
      rcases hi : dec.inflate false deflate with st | out
      · rw [hi] at h
        cases st <;> cases h <;> simp [GZIP_ERRORS]
      · rw [hi] at h
        dsimp only [take_decoded] at h
        split_ifs at h
        cases h
        simp [GZIP_ERRORS]

theorem decompress_layer_message {dec : Decoders} {layer : BodyLayer} {page : Bytes} {msg : String}
    (h : decompress_layer dec layer page = .error msg) : msg ∈ CODING_ERRORS := by
  cases layer with
  | Identity => cases h
  | Gzip => exact List.mem_append_left _ (decompress_gzip_message h)
  | DeflateZlib =>
    simp only [decompress_layer, decompress_zlib_once] at h
    rcases hi : dec.inflate true page with st | out
    · rw [hi] at h
      cases st <;> cases h <;> simp [CODING_ERRORS]
    · rw [hi] at h
      dsimp only [take_decoded] at h
      split_ifs at h
      cases h
      simp [CODING_ERRORS]
  | Brotli =>
    simp only [decompress_layer, decompress_brotli_once] at h
    cases hi : dec.brotli page with
    | none =>
      rw [hi] at h
      cases h
      simp [CODING_ERRORS]
    | some out =>
      rw [hi] at h
      dsimp only [take_decoded] at h
      split_ifs at h
      cases h
      simp [CODING_ERRORS]

theorem decompress_layers_message {dec : Decoders} {layers : List BodyLayer} {page : Bytes}
    {msg : String} (h : (decompress_layers dec layers page).2 = some msg) :
    msg ∈ CODING_ERRORS := by
  induction layers generalizing page with
  | nil => cases h
  | cons layer rest ih =>
    simp only [decompress_layers] at h
    cases hl : decompress_layer dec layer page with
    | ok page' => rw [hl] at h; exact ih h
    | error m =>
      rw [hl] at h
      simp only [Option.some.injEq] at h
      exact h ▸ decompress_layer_message hl

theorem finish_page_message {dec : Decoders} {layers : List BodyLayer} {page : Bytes}
    {msg : String} (h : (finish_page dec layers page).2 = some msg) : msg ∈ CODING_ERRORS := by
  unfold finish_page at h
  split_ifs at h
  · rcases hd : decompress_body_layers dec layers page with ⟨page', _ | m⟩
    · rw [hd] at h
      cases h
    · rw [hd] at h
      dsimp only at h
      split_ifs at h
      simp only [Option.some.injEq] at h
      exact h ▸ decompress_layers_message (congrArg Prod.snd hd)
  · cases hg : decompress_gzip_once dec page with
    | ok page' => rw [hg] at h; cases h
    | error m =>
      rw [hg] at h
      simp only [Option.some.injEq] at h
      exact h ▸ List.mem_append_left _ (decompress_gzip_message hg)

/-- The outcome of a fetch that ends with the given page and message. -/
def HttpFetch.ended (s : HttpFetch) (r : Bytes × Option String) : Outcome where
  page := r.1
  page_truncated := s.page_truncated
  fetch_done := true
  fetch_err :=
    match r.2 with
    | none => s.fetch_err
    | some msg => (ascii msg).take FETCH_ERR_CAP

/-- **What `finish_fetch` leaves for the caller.** -/
theorem finish_fetch_outcome (dec : Decoders) {s : HttpFetch} (h : s.fetch_done = false) :
    (s.finish_fetch dec).outcome = s.ended (finish_page dec s.body_layers s.page) := by
  unfold HttpFetch.finish_fetch finish_page
  rw [if_neg (by simp [h])]
  by_cases hl : 0 < s.body_layers.length
  · rw [if_pos hl, if_pos hl]
    rcases decompress_body_layers dec s.body_layers s.page with ⟨page, _ | msg⟩
    · rfl
    · dsimp only
      split_ifs <;> rfl
  · rw [if_neg hl, if_neg hl]
    split_ifs
    · cases decompress_gzip_once dec s.page <;> rfl
    · rfl

theorem finish_fetch_done (dec : Decoders) (s : HttpFetch) : (s.finish_fetch dec).fetch_done = true := by
  cases h : s.fetch_done with
  | true =>
    unfold HttpFetch.finish_fetch
    rw [if_pos h]
    exact h
  | false => exact congrArg Outcome.fetch_done (finish_fetch_outcome dec h)

/-! ## A chunked body -/

section Chunked

variable (dec : Decoders)

theorem apply_walk_going (s : HttpFetch) (w : ChunkWalk) (h : w.stop = none) :
    s.apply_walk dec w = (s.push_bytes w.out).moveTo w.pos := by
  unfold HttpFetch.apply_walk
  rw [h]

/-- Two walks, one after the other. -/
theorem apply_walk_append (s : HttpFetch) (xs ys : Bytes)
    (h : (chunk_walk s.chunkPos xs).stop = none) :
    s.apply_walk dec (chunk_walk s.chunkPos (xs ++ ys)) =
      (s.apply_walk dec (chunk_walk s.chunkPos xs)).apply_walk dec
        (chunk_walk (chunk_walk s.chunkPos xs).pos ys) := by
  rw [chunk_walk_append _ _ _ h, apply_walk_going dec s _ h, apply_walk_moveTo]
  unfold HttpFetch.apply_walk
  dsimp only
  rw [push_bytes_append]

/-- A position only the source's `_ => return` could leave. -/
def ChunkPos.Lost (c : ChunkPos) : Prop := ∃ n, c.phase = .AfterData (n + 2)

theorem lost_next {c : ChunkPos} (h : c.Lost) (b : UInt8) : chunk_next c b = .stop c .stray := by
  obtain ⟨n, hn⟩ := h
  unfold chunk_next
  rw [hn]
  simp only [after_next, ← hn]

theorem next_stray {c c' : ChunkPos} {b : UInt8} (h : chunk_next c b = .stop c' .stray) :
    c' = c ∧ c.Lost := by
  obtain ⟨phase, line⟩ := c
  unfold chunk_next at h
  cases phase with
  | SizeLine =>
    simp only [size_next] at h
    split_ifs at h
    cases hp : parse_chunk_size_line line with
    | none => rw [hp] at h; simp at h
    | some n => rw [hp] at h; cases n <;> simp at h
  | Data n =>
    cases n with
    | zero => simp only [after_next] at h; split_ifs at h; simp at h
    | succ n => simp at h
  | AfterData step =>
    rcases step with _ | _ | n
    · simp only [after_next] at h; split_ifs at h; simp at h
    · simp only [after_next] at h; split_ifs at h; simp at h
    · simp only [after_next, ChunkMove.stop.injEq, and_true] at h
      exact ⟨h.symm, n, rfl⟩
  | Trailers =>
    simp only [trailer_next] at h
    split_ifs at h
    simp at h

/-- A stop ends the fetch, or is the stop nothing reaches. -/
theorem chunk_stop_done (s : HttpFetch) {r : ChunkStop} (h : r ≠ .stray) :
    (s.chunk_stop dec r).fetch_done = true := by
  cases r with
  | finished => exact finish_fetch_done dec s
  | bad_size => rfl
  | bad_crlf => rfl
  | stray => exact absurd rfl h

/-- A reader in a chunked body. -/
structure HttpFetch.InChunked (s : HttpFetch) : Prop where
  header_found : s.header_found = true
  http_chunked : s.http_chunked = true
  fetch_open : s.fetch_done = false

theorem feed_chunked {s : HttpFetch} (h : s.InChunked) (seg : Bytes) :
    s.feed dec seg = s.apply_walk dec (chunk_walk s.chunkPos seg) := by
  rw [feed_open dec h.fetch_open, ← ingest_chunked_bytes_eq]
  unfold HttpFetch.ingest_tcp_payload
  rw [if_neg (by simp [h.header_found]), if_pos h.http_chunked]

theorem HttpFetch.InChunked.moveTo {s : HttpFetch} (h : s.InChunked) (c : ChunkPos) :
    (s.moveTo c).InChunked := ⟨h.1, h.2, h.3⟩

theorem HttpFetch.InChunked.push_bytes {s : HttpFetch} (h : s.InChunked) (out : Bytes) :
    (s.push_bytes out).InChunked := by
  rw [push_bytes_eq]
  exact ⟨h.1, h.2, h.3⟩

/-- A reader at a lost position stays there. -/
theorem feed_bytes_lost {s : HttpFetch} (h : s.InChunked) (hl : s.chunkPos.Lost) (data : Bytes) :
    s.feed_bytes dec data = s := by
  induction data with
  | nil => rfl
  | cons b data ih =>
    have hb : s.feed dec [b] = s := by
      rw [feed_chunked dec h]
      simp only [chunk_walk, lost_next hl]
      rfl
    rw [feed_bytes_cons, hb, ih]

/-- **In a chunked body a segment is its bytes.** -/
theorem feed_chunked_bytes {s : HttpFetch} (h : s.InChunked) (seg : Bytes) :
    s.feed dec seg = s.feed_bytes dec seg := by
  induction seg generalizing s with
  | nil =>
    rw [feed_chunked dec h]
    rfl
  | cons b rest ih =>
    rw [feed_bytes_cons, feed_chunked dec h, feed_chunked dec h]
    simp only [chunk_walk]
    cases hm : chunk_next s.chunkPos b with
    | go c =>
      have hrest := ih (h.moveTo c)
      rw [feed_chunked dec (h.moveTo c)] at hrest
      exact (apply_walk_moveTo dec s c _).symm.trans hrest
    | put c =>
      have hin := (h.push_bytes [b]).moveTo c
      have hrest := ih hin
      rw [feed_chunked dec hin] at hrest
      exact (apply_walk_moveTo dec (s.push_bytes [b]) c _).symm.trans hrest
    | stop c r =>
      by_cases hr : r = .stray
      · -- the decoder returns without a verdict, byte after byte
        subst hr
        obtain ⟨rfl, hl⟩ := next_stray hm
        exact (feed_bytes_lost dec h hl rest).symm
      · exact (feed_bytes_done dec (chunk_stop_done dec _ hr) rest).symm

end Chunked

/-! ## An identity body -/

section Identity

variable (dec : Decoders)

/-- How many bytes of `data` the page has room for. -/
def HttpFetch.stored (s : HttpFetch) (data : Bytes) : Nat :=
  min data.length (PAGE_CAP - s.page.length)

/-- The end of `append_to_page`: `n` bytes of the body have been stored. -/
def HttpFetch.count_body (s : HttpFetch) (n : Nat) : HttpFetch :=
  match s.http_body_remaining with
  | none => s
  | some rem =>
    if rem - min rem n = 0 then { s with http_body_remaining := some (rem - min rem n) }.finish_fetch dec
    else { s with http_body_remaining := some (rem - min rem n) }

theorem append_to_page_eq (s : HttpFetch) (data : Bytes) :
    s.append_to_page dec data = (s.push_bytes data).count_body dec (s.stored data) := by
  have hpush : ({ s with
      page := s.page ++ data.take (s.stored data)
      page_truncated := s.page_truncated || decide (s.stored data < data.length) } : HttpFetch)
      = s.push_bytes data := by
    have htake : data.take (s.stored data) = data.take (PAGE_CAP - s.page.length) := by
      unfold HttpFetch.stored
      rw [min_comm, ← List.take_take, List.take_length]
    have hlt : (s.stored data < data.length) ↔ (PAGE_CAP - s.page.length < data.length) := by
      unfold HttpFetch.stored
      omega
    rw [push_bytes_eq, htake]
    simp only [hlt]
  rw [← hpush]
  unfold HttpFetch.append_to_page HttpFetch.count_body
  dsimp only
  cases s.http_body_remaining <;> rfl

/-- A reader in an identity body. -/
structure HttpFetch.InIdentity (s : HttpFetch) : Prop where
  header_found : s.header_found = true
  http_chunked : s.http_chunked = false
  fetch_open : s.fetch_done = false

theorem feed_identity {s : HttpFetch} (h : s.InIdentity) (seg : Bytes) :
    s.feed dec seg = (s.push_bytes seg).count_body dec (s.stored seg) := by
  rw [feed_open dec h.fetch_open, ← append_to_page_eq]
  unfold HttpFetch.ingest_tcp_payload
  rw [if_neg (by simp [h.header_found]), if_neg (by simp [h.http_chunked])]

/-- The segment does not reach past the end of a body of known length. -/
def HttpFetch.Within (s : HttpFetch) (seg : Bytes) : Prop :=
  ∀ rem ∈ s.http_body_remaining, seg.length ≤ rem

theorem push_bytes_remaining (s : HttpFetch) (out : Bytes) :
    (s.push_bytes out).http_body_remaining = s.http_body_remaining := by
  rw [push_bytes_eq]

/-- With nothing behind it, a segment that fits is its first byte and its rest. -/
theorem feed_identity_cons {s : HttpFetch} (h : s.InIdentity) (b : UInt8) {rest : Bytes}
    (hne : rest ≠ []) (hw : s.Within (b :: rest)) :
    ∃ t : HttpFetch, s.feed dec [b] = t ∧ t.InIdentity ∧ t.Within rest
      ∧ s.feed dec (b :: rest) = t.feed dec rest := by
  have hpos : 0 < rest.length := List.length_pos_of_ne_nil hne
  have hpush : s.push_bytes (b :: rest) = (s.push_bytes [b]).push_bytes rest := rfl
  cases hrem : s.http_body_remaining with
  | none =>
    refine ⟨s.push_bytes [b], ?_, ?_, ?_, ?_⟩
    · rw [feed_identity dec h]
      unfold HttpFetch.count_body
      rw [push_bytes_remaining, hrem]
    · rw [push_bytes_eq]
      exact ⟨h.1, h.2, h.3⟩
    · intro rem hr
      rw [push_bytes_remaining, hrem] at hr
      cases hr
    · have hin : (s.push_bytes [b]).InIdentity := by
        rw [push_bytes_eq]
        exact ⟨h.1, h.2, h.3⟩
      rw [feed_identity dec h, feed_identity dec hin, hpush]
      unfold HttpFetch.count_body
      rw [push_bytes_remaining, push_bytes_remaining, hrem]
  | some rem =>
    have hle : rest.length + 1 ≤ rem := by simpa using hw rem hrem
    -- the first byte leaves at least one to come
    have hstored : s.stored [b] ≤ 1 := by
      unfold HttpFetch.stored
      simp only [List.length_singleton]
      omega
    have hleft : rem - min rem (s.stored [b]) ≠ 0 := by omega
    have hone : s.feed dec [b]
        = { s.push_bytes [b] with http_body_remaining := some (rem - min rem (s.stored [b])) } := by
      rw [feed_identity dec h]
      unfold HttpFetch.count_body
      rw [push_bytes_remaining, hrem]
      dsimp only
      rw [if_neg hleft]
    have hin : HttpFetch.InIdentity
        { s.push_bytes [b] with http_body_remaining := some (rem - min rem (s.stored [b])) } := by
      rw [push_bytes_eq]
      exact ⟨h.1, h.2, h.3⟩
    refine ⟨_, hone, hin, ?_, ?_⟩
    · intro r hr
      have hr' : some (rem - min rem (s.stored [b])) = some r := hr
      simp only [Option.some.injEq] at hr'
      omega
    · rw [feed_identity dec h, feed_identity dec hin]
      have hlen : (s.push_bytes [b]).page.length = s.page.length + s.stored [b] := by
        rw [push_bytes_eq]
        unfold HttpFetch.stored
        simp only [List.length_append, List.length_take, List.length_singleton]
        omega
      -- both sides store the same bytes and count them once
      have hcount : rem - min rem (s.stored (b :: rest))
          = (rem - min rem (s.stored [b]))
            - min (rem - min rem (s.stored [b]))
                (min rest.length (PAGE_CAP - (s.push_bytes [b]).page.length)) := by
        rw [hlen]
        unfold HttpFetch.stored
        simp only [List.length_cons, List.length_nil]
        omega
      have hpush' : ({ s.push_bytes [b] with
          http_body_remaining := some (rem - min rem (s.stored [b])) } : HttpFetch).push_bytes rest
          = { (s.push_bytes [b]).push_bytes rest with
              http_body_remaining := some (rem - min rem (s.stored [b])) } := by
        rw [push_bytes_eq, push_bytes_eq (s.push_bytes [b]) rest]
      rw [hpush', hpush]
      unfold HttpFetch.count_body
      rw [push_bytes_remaining, push_bytes_remaining, hrem]
      dsimp only
      rw [hcount]
      rfl

/-- **In an identity body a segment that stays within it is its bytes.** -/
theorem feed_identity_bytes {s : HttpFetch} (h : s.InIdentity) {seg : Bytes} (hne : seg ≠ [])
    (hw : s.Within seg) : s.feed dec seg = s.feed_bytes dec seg := by
  induction seg generalizing s with
  | nil => exact absurd rfl hne
  | cons b rest ih =>
    by_cases hr : rest = []
    · subst hr
      rfl
    · obtain ⟨t, ht, hin, hwt, hfeed⟩ := feed_identity_cons dec h b hr hw
      rw [hfeed, feed_bytes_cons, ht]
      exact ih hin hr hwt

end Identity

/-! ## The header -/

theorem find_http_header_end_none_of_append {xs ys : Bytes}
    (h : find_http_header_end (xs ++ ys) = none) : find_http_header_end xs = none := by
  unfold find_http_header_end at h ⊢
  cases hc : findWindow [13, 10, 13, 10] (xs ++ ys) with
  | some p => rw [hc] at h; cases h
  | none =>
    cases hl : findWindow [10, 10] (xs ++ ys) with
    | some p => rw [hc, hl] at h; cases h
    | none => rw [findWindow_none_of_append hc, findWindow_none_of_append hl]

/-- The bytes up to the end of the header are enough to find it. -/
theorem find_http_header_end_take {buf : Bytes} {r : Nat × Nat}
    (h : find_http_header_end buf = some r) :
    r.1 + r.2 ≤ buf.length ∧ 0 < r.2
      ∧ find_http_header_end (buf.take (r.1 + r.2)) = some r := by
  unfold find_http_header_end at h ⊢
  cases hc : findWindow [13, 10, 13, 10] buf with
  | some p =>
    rw [hc] at h
    simp only [Option.some.injEq] at h
    subst h
    have htake : findWindow [13, 10, 13, 10] (buf.take (p + 4)) = some p := findWindow_take hc
    refine ⟨findWindow_le hc, by omega, ?_⟩
    rw [htake]
  | none =>
    cases hl : findWindow [10, 10] buf with
    | none => rw [hc, hl] at h; cases h
    | some p =>
      rw [hc, hl] at h
      simp only [Option.some.injEq] at h
      subst h
      have htake : findWindow [10, 10] (buf.take (p + 2)) = some p := findWindow_take hl
      have hsplit : findWindow [13, 10, 13, 10] (buf.take (p + 2) ++ buf.drop (p + 2)) = none := by
        rw [List.take_append_drop]
        exact hc
      refine ⟨findWindow_le hl, by omega, ?_⟩
      rw [findWindow_none_of_append hsplit, htake]

section Header

variable (dec : Decoders)

/-- A reader in front of the end of the header. -/
structure HttpFetch.InHeader (s : HttpFetch) : Prop where
  header_found : s.header_found = false
  fetch_open : s.fetch_done = false
  no_end : find_http_header_end s.stream = none
  room : s.stream.length < STREAM_CAP
  page : s.page = []
  http_chunked : s.http_chunked = false

theorem feed_header {s : HttpFetch} (h : s.InHeader) (seg : Bytes) :
    s.feed dec seg = s.ingest_header_bytes dec seg := by
  rw [feed_open dec h.fetch_open]
  unfold HttpFetch.ingest_tcp_payload
  rw [if_pos (by simp [h.header_found])]

/-- What the stream buffer holds behind a segment. -/
theorem stream_append {s : HttpFetch} (h : s.InHeader) (seg : Bytes) :
    s.stream ++ seg.take (STREAM_CAP - s.stream.length) = (s.stream ++ seg).take STREAM_CAP := by
  have hroom := h.room
  have hall : s.stream.take STREAM_CAP = s.stream := List.take_of_length_le (by omega)
  rw [List.take_append, hall]

/-- A segment that neither ends the header nor fills the buffer is buffered. -/
theorem feed_header_more {s : HttpFetch} (h : s.InHeader) (seg : Bytes)
    (hnone : find_http_header_end (s.stream ++ seg) = none)
    (hlen : (s.stream ++ seg).length < STREAM_CAP) :
    s.feed dec seg = { s with stream := s.stream ++ seg } := by
  rw [feed_header dec h]
  unfold HttpFetch.ingest_header_bytes
  dsimp only
  rw [stream_append h, List.take_of_length_le (by omega), hnone]
  dsimp only
  rw [if_neg (by omega)]

theorem HttpFetch.InHeader.buffered {s : HttpFetch} (h : s.InHeader) {data : Bytes}
    (hnone : find_http_header_end (s.stream ++ data) = none)
    (hlen : (s.stream ++ data).length < STREAM_CAP) :
    HttpFetch.InHeader { s with stream := s.stream ++ data } :=
  ⟨h.1, h.2, hnone, hlen, h.5, h.6⟩

theorem feed_bytes_header_more {s : HttpFetch} (h : s.InHeader) (data : Bytes)
    (hnone : find_http_header_end (s.stream ++ data) = none)
    (hlen : (s.stream ++ data).length < STREAM_CAP) :
    s.feed_bytes dec data = { s with stream := s.stream ++ data } := by
  induction data generalizing s with
  | nil => simp
  | cons b rest ih =>
    have hsplit : s.stream ++ b :: rest = (s.stream ++ [b]) ++ rest := by simp
    rw [hsplit] at hnone hlen
    have hnone' := find_http_header_end_none_of_append hnone
    have hlen' : (s.stream ++ [b]).length < STREAM_CAP := by
      simp only [List.length_append] at hlen ⊢
      omega
    rw [feed_bytes_cons, feed_header_more dec h [b] hnone' hlen',
      ih (h.buffered hnone' hlen') hnone hlen, hsplit]

/-- A buffer that fills up without an end of the header is an error, at its last
byte. -/
theorem feed_header_full {s : HttpFetch} (h : s.InHeader) (seg : Bytes)
    (hnone : find_http_header_end ((s.stream ++ seg).take STREAM_CAP) = none)
    (hlen : STREAM_CAP ≤ (s.stream ++ seg).length) :
    s.feed dec seg
      = { s with stream := (s.stream ++ seg).take STREAM_CAP }.set_err "HTTP HDR TOO BIG" := by
  rw [feed_header dec h]
  unfold HttpFetch.ingest_header_bytes
  dsimp only
  rw [stream_append h, hnone]
  dsimp only
  rw [if_pos]
  rw [List.length_take]
  omega

/-- A segment that ends the header. -/
theorem feed_header_end {s : HttpFetch} (h : s.InHeader) (seg : Bytes) {r : Nat × Nat}
    (hlen : (s.stream ++ seg).length ≤ STREAM_CAP)
    (hfind : find_http_header_end (s.stream ++ seg) = some r) :
    s.feed dec seg = HttpFetch.begin_body dec { s with stream := s.stream ++ seg } (r.1 + r.2) := by
  rw [feed_header dec h]
  unfold HttpFetch.ingest_header_bytes
  dsimp only
  rw [stream_append h, List.take_of_length_le hlen, hfind]

/-- **Reading a header byte by byte.** It ends at the first byte behind which
there is an end of the header, and the body starts with the next one. -/
theorem feed_bytes_header {s : HttpFetch} (h : s.InHeader) (data : Bytes) {n : Nat} {r : Nat × Nat}
    (hn : n < data.length) (hcap : s.stream.length + n + 1 ≤ STREAM_CAP)
    (hbefore : find_http_header_end (s.stream ++ data.take n) = none)
    (hend : find_http_header_end (s.stream ++ data.take (n + 1)) = some r) :
    s.feed_bytes dec data
      = (HttpFetch.begin_body dec { s with stream := s.stream ++ data.take (n + 1) }
          (r.1 + r.2)).feed_bytes dec (data.drop (n + 1)) := by
  have hsplit : data = data.take n ++ ([data[n]] ++ data.drop (n + 1)) := by
    rw [List.singleton_append, ← List.drop_eq_getElem_cons hn, List.take_append_drop]
  have hnext : data.take n ++ [data[n]] = data.take (n + 1) := by
    rw [List.take_add_one, List.getElem?_eq_getElem hn]
    rfl
  have hlen : (s.stream ++ data.take n).length < STREAM_CAP := by
    rw [List.length_append, List.length_take]
    omega
  have hin := h.buffered hbefore hlen
  have hlast : HttpFetch.feed dec { s with stream := s.stream ++ data.take n } [data[n]]
      = HttpFetch.begin_body dec { s with stream := s.stream ++ data.take (n + 1) } (r.1 + r.2) := by
    have hbuf : s.stream ++ data.take n ++ [data[n]] = s.stream ++ data.take (n + 1) := by
      rw [List.append_assoc, hnext]
    have hfit : (s.stream ++ data.take n ++ [data[n]]).length ≤ STREAM_CAP := by
      rw [hbuf, List.length_append, List.length_take]
      omega
    have hfind : find_http_header_end (s.stream ++ data.take n ++ [data[n]]) = some r := by
      rw [hbuf]
      exact hend
    rw [feed_header_end dec hin [data[n]] hfit hfind, hbuf]
  conv_lhs => rw [hsplit]
  rw [feed_bytes_append, feed_bytes_header_more dec h _ hbefore hlen, feed_bytes_append]
  show (HttpFetch.feed dec _ [data[n]]).feed_bytes dec _ = _
  rw [hlast]

end Header

end EveOS.Net
