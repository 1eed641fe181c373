/-
How a response is cut into segments.

The reader keeps state across segments in four places: the header buffer, the
search for the end of the header, the count of body bytes to come, and the
chunked decoder. The result of this file is that a segmentation reads like the
string one byte at a time, as long as each segment is `SegOk`. Four things are
outside of it, and in each the source really gives another outcome:

* bytes behind the 4096th of the header buffer are dropped when the header ends
  in the same segment;
* a `\n\n` in front of a `\r\n\r\n` in the same buffer is not seen;
* bytes behind the end of a `Content-Length` body are stored when they share a
  segment with its last byte;
* a chunk that does not end in a line break is an error, but the loop over the
  256-byte blocks behind the header goes on and finds more chunks.
-/
import EveOS.Net.Feed

set_option autoImplicit false

namespace EveOS.Net

/-! ## The condition -/

/-- No whole number of 256-byte blocks at the front of the tail runs into a
chunk that does not end in a line break. -/
def ChunkTailOk (tail : Bytes) : Prop :=
  ∀ k < tail.length, 256 * k < tail.length →
    (chunk_walk .start (tail.take (256 * k))).stop ≠ some .bad_crlf

/-- The body bytes that come with the end of the header. -/
def TailOk (headers tail : Bytes) : Prop :=
  if response_headers_chunked headers then ChunkTailOk tail
  else parse_content_encoding_layers headers = none
    ∨ ∀ cl ∈ parse_content_length headers, tail.length ≤ cl

/-- A segment that ends the header fits the buffer, has its first header end
where the search finds it, and brings a harmless part of the body. -/
def EndOk (buf : Bytes) (r : Nat × Nat) : Prop :=
  buf.length ≤ STREAM_CAP
    ∧ find_http_header_end (buf.take (r.1 + r.2 - 1)) = none
    ∧ TailOk (buf.take (r.1 + r.2)) (buf.drop (r.1 + r.2))

/-- The segment can be read in the state `s` like its bytes. -/
def HttpFetch.SegOk (s : HttpFetch) (seg : Bytes) : Prop :=
  if s.header_found then s.http_chunked = true ∨ s.Within seg
  else ∀ r ∈ find_http_header_end ((s.stream ++ seg).take STREAM_CAP), EndOk (s.stream ++ seg) r

instance (tail : Bytes) : Decidable (ChunkTailOk tail) :=
  inferInstanceAs (Decidable (∀ k < tail.length, _ → _))

instance (headers tail : Bytes) : Decidable (TailOk headers tail) :=
  inferInstanceAs (Decidable (if response_headers_chunked headers then _ else _ ∨ ∀ cl ∈ _, _))

instance (buf : Bytes) (r : Nat × Nat) : Decidable (EndOk buf r) :=
  inferInstanceAs (Decidable (_ ∧ _ ∧ _))

instance (s : HttpFetch) (seg : Bytes) : Decidable (s.Within seg) :=
  inferInstanceAs (Decidable (∀ rem ∈ s.http_body_remaining, seg.length ≤ rem))

instance (s : HttpFetch) (seg : Bytes) : Decidable (s.SegOk seg) :=
  inferInstanceAs (Decidable (if s.header_found then _ ∨ _ else ∀ r ∈ _, _))

/-! ## What does not matter behind the header

The stream buffer is not read any more, and no step looks at `page_gen`. -/

/-- The reader without its stream buffer and its generation. -/
def HttpFetch.bare (s : HttpFetch) : HttpFetch := { s with stream := [], page_gen := 0 }

section Bare

variable (dec : Decoders) (s : HttpFetch)

theorem bare_outcome : s.bare.outcome = s.outcome := rfl

theorem bare_finish_fetch : (s.bare.finish_fetch dec).bare = (s.finish_fetch dec).bare := by
  unfold HttpFetch.finish_fetch HttpFetch.bare
  dsimp only
  by_cases hd : s.fetch_done = true
  · rw [if_pos hd, if_pos hd]
  rw [if_neg hd, if_neg hd]
  by_cases hl : 0 < s.body_layers.length
  · rw [if_pos hl, if_pos hl]
    rcases decompress_body_layers dec s.body_layers s.page with ⟨page, _ | msg⟩
    · rfl
    · dsimp only
      split_ifs <;> rfl
  rw [if_neg hl, if_neg hl]
  by_cases hg : 2 ≤ s.page.length ∧ byteAt s.page 0 = 0x1f ∧ byteAt s.page 1 = 0x8b
  · rw [if_pos hg, if_pos hg]
    cases decompress_gzip_once dec s.page <;> rfl
  · rw [if_neg hg, if_neg hg]
    rfl

theorem bare_push_bytes (out : Bytes) : (s.bare.push_bytes out).bare = (s.push_bytes out).bare := by
  rw [push_bytes_eq, push_bytes_eq]
  rfl

theorem bare_chunk_stop (r : ChunkStop) : (s.bare.chunk_stop dec r).bare = (s.chunk_stop dec r).bare := by
  cases r with
  | finished => exact bare_finish_fetch dec s
  | bad_size => rfl
  | bad_crlf => rfl
  | stray => rfl

theorem bare_apply_walk (w : ChunkWalk) :
    (s.bare.apply_walk dec w).bare = (s.apply_walk dec w).bare := by
  have hpush : ((s.bare.push_bytes w.out).moveTo w.pos).bare
      = ((s.push_bytes w.out).moveTo w.pos).bare := by
    rw [push_bytes_eq, push_bytes_eq]
    rfl
  unfold HttpFetch.apply_walk
  cases w.stop with
  | none => exact hpush
  | some r =>
    dsimp only
    rw [← bare_chunk_stop, hpush, bare_chunk_stop]

theorem bare_count_body (n : Nat) : (s.bare.count_body dec n).bare = (s.count_body dec n).bare := by
  unfold HttpFetch.count_body
  have hsame : s.bare.http_body_remaining = s.http_body_remaining := rfl
  rw [hsame]
  cases s.http_body_remaining with
  | none => rfl
  | some rem =>
    dsimp only
    split_ifs
    · exact bare_finish_fetch dec { s with http_body_remaining := some (rem - min rem n) }
    · rfl

/-- Behind the header, a segment acts on the bare reader. -/
theorem bare_feed (h : s.header_found = true) (seg : Bytes) :
    (s.bare.feed dec seg).bare = (s.feed dec seg).bare := by
  cases hd : s.fetch_done with
  | true => rw [feed_done dec hd, feed_done dec (s := s.bare) hd]; rfl
  | false =>
    cases hc : s.http_chunked with
    | true =>
      rw [feed_chunked dec (s := s) ⟨h, hc, hd⟩, feed_chunked dec (s := s.bare) ⟨h, hc, hd⟩]
      exact bare_apply_walk dec s _
    | false =>
      rw [feed_identity dec (s := s) ⟨h, hc, hd⟩, feed_identity dec (s := s.bare) ⟨h, hc, hd⟩,
        ← bare_count_body, bare_push_bytes, bare_count_body]
      rfl

theorem finish_fetch_header_found :
    (s.finish_fetch dec).header_found = s.header_found := by
  unfold HttpFetch.finish_fetch
  split_ifs
  · rfl
  · rcases decompress_body_layers dec s.body_layers s.page with ⟨page, _ | msg⟩
    · rfl
    · dsimp only
      split_ifs <;> rfl
  · cases decompress_gzip_once dec s.page <;> rfl
  · rfl

end Bare

/-! ## The blocks behind the header -/

section Tail

variable (dec : Decoders)

/-- A size line that does not parse does not parse when it gets longer. -/
theorem parse_chunk_size_from_append {v : Nat} {xs : Bytes}
    (h : parse_chunk_size_from v xs = none) (ys : Bytes) :
    parse_chunk_size_from v (xs ++ ys) = none := by
  induction xs generalizing v with
  | nil => cases h
  | cons b xs ih =>
    simp only [List.cons_append, parse_chunk_size_from] at h ⊢
    split_ifs at h ⊢
    cases hd : hex_digit b with
    | none => rfl
    | some d =>
      rw [hd] at h
      dsimp only at h ⊢
      split_ifs at h ⊢
      · exact ih h
      · rfl

theorem strip_cr_append {xs ys : Bytes} (hne : ys ≠ []) : strip_cr (xs ++ ys) = xs ++ strip_cr ys := by
  unfold strip_cr
  rw [List.getLast?_append_of_ne_nil xs hne]
  split_ifs
  · rw [List.dropLast_append_of_ne_nil hne]
  · rfl

theorem parse_chunk_size_line_push {line : Bytes} (h : parse_chunk_size_line line = none)
    (b : UInt8) : parse_chunk_size_line (line_push line b) = none := by
  unfold line_push
  split_ifs
  · unfold parse_chunk_size_line at h ⊢
    rw [strip_cr_append (by simp)]
    -- either nothing was stripped from the line, or only its last `\r`
    have hline : parse_chunk_size_from 0 line = none := by
      unfold strip_cr at h
      split_ifs at h with hcr
      · obtain ⟨front, rfl⟩ := List.getLast?_eq_some_iff.mp hcr
        rw [List.dropLast_concat] at h
        exact parse_chunk_size_from_append h [13]
      · exact h
    exact parse_chunk_size_from_append hline _
  · exact h

/-- A reader that has stopped and that further bytes cannot get going again. -/
structure HttpFetch.Stuck (s : HttpFetch) : Prop where
  done : s.fetch_done = true
  pos : s.chunk_phase = .Trailers
    ∨ (s.chunk_phase = .SizeLine ∧ parse_chunk_size_line s.chunk_line = none
        ∧ s.fetch_err = (ascii "HTTP CHUNK SZ").take FETCH_ERR_CAP)

theorem finish_fetch_over {s : HttpFetch} (h : s.fetch_done = true) : s.finish_fetch dec = s := by
  unfold HttpFetch.finish_fetch
  rw [if_pos h]

/-- One more byte: the decoder may report the same error again. -/
theorem stuck_byte {s : HttpFetch} (h : s.Stuck) (b : UInt8) :
    (s.chunk_byte dec b).1.Stuck ∧ (s.chunk_byte dec b).1.outcome = s.outcome := by
  rw [chunk_byte_eq]
  unfold chunk_next
  rcases h.pos with hp | ⟨hp, hline, herr⟩
  · simp only [HttpFetch.chunkPos, hp, trailer_next]
    split_ifs with hb he
    · simp only [HttpFetch.chunk_act, HttpFetch.chunk_stop]
      rw [finish_fetch_over dec (s := s.moveTo ⟨.Trailers, s.chunk_line⟩) h.done]
      exact ⟨⟨h.done, .inl rfl⟩, rfl⟩
    · exact ⟨⟨h.done, .inl rfl⟩, rfl⟩
    · exact ⟨⟨h.done, .inl rfl⟩, rfl⟩
  · simp only [HttpFetch.chunkPos, hp, size_next, hline]
    split_ifs with hb
    · refine ⟨⟨rfl, .inr ⟨rfl, hline, rfl⟩⟩, ?_⟩
      simp only [HttpFetch.chunk_act, HttpFetch.chunk_stop, HttpFetch.outcome, HttpFetch.set_err,
        HttpFetch.moveTo, herr, h.done]
    · exact ⟨⟨h.done, .inr ⟨rfl, parse_chunk_size_line_push hline b, herr⟩⟩, rfl⟩

theorem stuck_bytes {s : HttpFetch} (h : s.Stuck) (data : Bytes) :
    (s.ingest_chunked_bytes dec data).Stuck
      ∧ (s.ingest_chunked_bytes dec data).outcome = s.outcome := by
  induction data generalizing s with
  | nil => exact ⟨h, rfl⟩
  | cons b rest ih =>
    obtain ⟨hb, ho⟩ := stuck_byte dec h b
    simp only [HttpFetch.ingest_chunked_bytes]
    rcases hc : s.chunk_byte dec b with ⟨s', flag⟩
    rw [hc] at hb ho
    cases flag with
    | true =>
      obtain ⟨h₁, h₂⟩ := ih hb
      exact ⟨h₁, h₂.trans ho⟩
    | false => exact ⟨hb, ho⟩

theorem stuck_tail {s : HttpFetch} (h : s.Stuck) (blocks : Nat) (tail : Bytes) :
    (s.ingest_chunked_tail dec blocks tail).outcome = s.outcome := by
  induction blocks generalizing s tail with
  | zero => rfl
  | succ blocks ih =>
    simp only [HttpFetch.ingest_chunked_tail]
    split_ifs
    · rfl
    · obtain ⟨h₁, h₂⟩ := stuck_bytes dec h (tail.take 256)
      exact (ih h₁ (tail.drop 256)).trans h₂

/-- The position a walk stops at. -/
theorem chunk_walk_stop {c : ChunkPos} {xs : Bytes} {r : ChunkStop}
    (h : (chunk_walk c xs).stop = some r) :
    ∃ c₀ b, chunk_next c₀ b = .stop (chunk_walk c xs).pos r := by
  induction xs generalizing c with
  | nil => cases h
  | cons b xs ih =>
    simp only [chunk_walk] at h ⊢
    cases hm : chunk_next c b with
    | go c' => rw [hm] at h; exact ih h
    | put c' => rw [hm] at h; exact ih h
    | stop c' r' =>
      rw [hm] at h
      simp only [Option.some.injEq] at h
      subst h
      exact ⟨c, b, hm⟩

/-- Where the decoder stands when it stops. -/
theorem chunk_next_stop {c c' : ChunkPos} {b : UInt8} {r : ChunkStop}
    (h : chunk_next c b = .stop c' r) :
    (r = .finished ∧ c'.phase = .Trailers)
    ∨ (r = .bad_size ∧ c'.phase = .SizeLine ∧ parse_chunk_size_line c'.line = none)
    ∨ r = .bad_crlf
    ∨ (r = .stray ∧ c'.Lost) := by
  unfold chunk_next at h
  cases hp : c.phase with
  | SizeLine =>
    rw [hp] at h
    simp only [size_next] at h
    split_ifs at h
    cases hs : parse_chunk_size_line c.line with
    | none =>
      rw [hs] at h
      simp only [ChunkMove.stop.injEq] at h
      obtain ⟨rfl, rfl⟩ := h
      exact .inr (.inl ⟨rfl, rfl, hs⟩)
    | some n => rw [hs] at h; cases n <;> simp at h
  | Data n =>
    rw [hp] at h
    cases n with
    | zero =>
      simp only [after_next] at h
      split_ifs at h
      simp only [ChunkMove.stop.injEq] at h
      exact .inr (.inr (.inl h.2.symm))
    | succ n => simp at h
  | AfterData step =>
    rw [hp] at h
    rcases step with _ | _ | n
    · simp only [after_next] at h
      split_ifs at h
      simp only [ChunkMove.stop.injEq] at h
      exact .inr (.inr (.inl h.2.symm))
    · simp only [after_next] at h
      split_ifs at h
      simp only [ChunkMove.stop.injEq] at h
      exact .inr (.inr (.inl h.2.symm))
    · simp only [after_next, ChunkMove.stop.injEq] at h
      obtain ⟨rfl, rfl⟩ := h
      exact .inr (.inr (.inr ⟨rfl, n, rfl⟩))
  | Trailers =>
    rw [hp] at h
    simp only [trailer_next] at h
    split_ifs at h
    simp only [ChunkMove.stop.injEq] at h
    obtain ⟨rfl, rfl⟩ := h
    exact .inl ⟨rfl, rfl⟩

theorem finish_fetch_chunk_phase (s : HttpFetch) :
    (s.finish_fetch dec).chunk_phase = s.chunk_phase := by
  unfold HttpFetch.finish_fetch
  split_ifs
  · rfl
  · rcases decompress_body_layers dec s.body_layers s.page with ⟨page, _ | msg⟩
    · rfl
    · dsimp only
      split_ifs <;> rfl
  · cases decompress_gzip_once dec s.page <;> rfl
  · rfl

/-- A lost decoder takes no byte. -/
theorem lost_tail {s : HttpFetch} (h : s.chunkPos.Lost) (blocks : Nat) (tail : Bytes) :
    s.ingest_chunked_tail dec blocks tail = s := by
  have hbytes : ∀ data, s.ingest_chunked_bytes dec data = s := by
    intro data
    rw [ingest_chunked_bytes_eq]
    cases data with
    | nil => rfl
    | cons b rest =>
      simp only [chunk_walk, lost_next h]
      rfl
  induction blocks generalizing tail with
  | zero => rfl
  | succ blocks ih =>
    simp only [HttpFetch.ingest_chunked_tail, hbytes, ih, ite_self]

/-- The condition on the blocks, from any position. -/
def BlocksOk (c : ChunkPos) (tail : Bytes) : Prop :=
  ∀ k, 256 * k < tail.length → (chunk_walk c (tail.take (256 * k))).stop ≠ some .bad_crlf

theorem blocksOk_drop {c : ChunkPos} {tail : Bytes} (h : BlocksOk c tail)
    (hgo : (chunk_walk c (tail.take 256)).stop = none) :
    BlocksOk (chunk_walk c (tail.take 256)).pos (tail.drop 256) := by
  intro k hk
  rw [List.length_drop] at hk
  have hall := h (k + 1) (by omega)
  have hsplit : tail.take (256 * (k + 1)) = tail.take 256 ++ (tail.drop 256).take (256 * k) := by
    rw [show 256 * (k + 1) = 256 + 256 * k by omega, List.take_add]
  rw [hsplit, chunk_walk_append _ _ _ hgo] at hall
  exact hall

/-- **The blocks behind the header are one walk**, as far as a caller can see,
and exactly as long as it goes on. -/
theorem ingest_chunked_tail_eq (blocks : Nat) {s : HttpFetch} {tail : Bytes}
    (hb : tail.length ≤ blocks) (hok : BlocksOk s.chunkPos tail) :
    (s.ingest_chunked_tail dec blocks tail).outcome
        = (s.apply_walk dec (chunk_walk s.chunkPos tail)).outcome
    ∧ ((chunk_walk s.chunkPos tail).stop = none ∨ (chunk_walk s.chunkPos tail).stop = some .stray →
        s.ingest_chunked_tail dec blocks tail = s.apply_walk dec (chunk_walk s.chunkPos tail)) := by
  induction blocks generalizing s tail with
  | zero =>
    have hnil : tail = [] := List.length_eq_zero_iff.mp (by omega)
    subst hnil
    exact ⟨rfl, fun _ => rfl⟩
  | succ blocks ih =>
    by_cases hne : tail = []
    · subst hne
      exact ⟨rfl, fun _ => rfl⟩
    simp only [HttpFetch.ingest_chunked_tail, if_neg hne, ingest_chunked_bytes_eq]
    have hpos : 0 < tail.length := List.length_pos_of_ne_nil hne
    have hsplit : tail.take 256 ++ tail.drop 256 = tail := List.take_append_drop 256 tail
    cases hstop : (chunk_walk s.chunkPos (tail.take 256)).stop with
    | none =>
      -- the block goes through: the rest is a walk from where it ends
      have hgo := apply_walk_going dec s _ hstop
      have hpos' : (s.apply_walk dec (chunk_walk s.chunkPos (tail.take 256))).chunkPos
          = (chunk_walk s.chunkPos (tail.take 256)).pos := by rw [hgo]; rfl
      have happ := apply_walk_append dec s (tail.take 256) (tail.drop 256) hstop
      have hwalk := chunk_walk_append s.chunkPos (tail.take 256) (tail.drop 256) hstop
      rw [hsplit] at happ hwalk
      have hblocks : (tail.drop 256).length ≤ blocks := by
        rw [List.length_drop]
        omega
      have hok' : BlocksOk (s.apply_walk dec (chunk_walk s.chunkPos (tail.take 256))).chunkPos
          (tail.drop 256) := by
        rw [hpos']
        exact blocksOk_drop hok hstop
      have hrest := ih hblocks hok'
      rw [hpos'] at hrest
      rw [happ]
      refine ⟨hrest.1, fun hor => hrest.2 ?_⟩
      rw [hwalk] at hor
      exact hor
    | some r =>
      have hsame := chunk_walk_append_stop s.chunkPos (tail.take 256) (tail.drop 256) hstop
      rw [hsplit] at hsame
      rw [hsame]
      obtain ⟨c₀, b, hnext⟩ := chunk_walk_stop hstop
      by_cases hrest : tail.drop 256 = []
      · rw [hrest]
        cases blocks <;> exact ⟨rfl, fun _ => rfl⟩
      · have hlong : 256 < tail.length := by
          have := List.length_pos_of_ne_nil hrest
          rw [List.length_drop] at this
          omega
        have hnot := hok 1 hlong
        rw [Nat.mul_one, hstop] at hnot
        rcases chunk_next_stop hnext with ⟨rfl, hph⟩ | ⟨rfl, hph, hline⟩ | rfl | ⟨rfl, hlost⟩
        · have hst : (s.apply_walk dec (chunk_walk s.chunkPos (tail.take 256))).Stuck := by
            unfold HttpFetch.apply_walk
            rw [hstop]
            refine ⟨finish_fetch_done dec _, .inl ?_⟩
            show HttpFetch.chunk_phase (HttpFetch.finish_fetch dec _) = _
            rw [finish_fetch_chunk_phase]
            exact hph
          exact ⟨stuck_tail dec hst _ _, by rw [hstop]; simp⟩
        · have hst : (s.apply_walk dec (chunk_walk s.chunkPos (tail.take 256))).Stuck := by
            unfold HttpFetch.apply_walk
            rw [hstop]
            exact ⟨rfl, .inr ⟨hph, hline, rfl⟩⟩
          exact ⟨stuck_tail dec hst _ _, by rw [hstop]; simp⟩
        · exact absurd rfl hnot
        · have hl : (s.apply_walk dec (chunk_walk s.chunkPos (tail.take 256))).chunkPos.Lost := by
            unfold HttpFetch.apply_walk
            rw [hstop]
            exact hlost
          rw [lost_tail dec hl]
          exact ⟨rfl, fun _ => rfl⟩

end Tail

/-! ## Reading alike -/

/-- Two readers a caller cannot tell apart, now or later: equal, equal but for
what no step reads behind the header, or both over with the same outcome. -/
def SameRead (s t : HttpFetch) : Prop :=
  s = t ∨ (s.header_found = true ∧ s.bare = t.bare) ∨ (s.fetch_done = true ∧ s.outcome = t.outcome)

theorem SameRead.outcome {s t : HttpFetch} (h : SameRead s t) : s.outcome = t.outcome := by
  rcases h with rfl | ⟨-, h⟩ | ⟨-, h⟩
  · rfl
  · rw [← bare_outcome s, h, bare_outcome]
  · exact h

section Read

variable (dec : Decoders)

theorem chunk_stop_header_found (s : HttpFetch) (r : ChunkStop) :
    (s.chunk_stop dec r).header_found = s.header_found := by
  cases r with
  | finished => exact finish_fetch_header_found dec s
  | bad_size => rfl
  | bad_crlf => rfl
  | stray => rfl

theorem apply_walk_header_found (s : HttpFetch) (w : ChunkWalk) :
    (s.apply_walk dec w).header_found = s.header_found := by
  have hpush : ((s.push_bytes w.out).moveTo w.pos).header_found = s.header_found := by
    rw [push_bytes_eq]
    rfl
  unfold HttpFetch.apply_walk
  cases w.stop with
  | none => exact hpush
  | some r => exact (chunk_stop_header_found dec _ r).trans hpush

theorem ingest_chunked_tail_header_found (blocks : Nat) (s : HttpFetch) (tail : Bytes) :
    (s.ingest_chunked_tail dec blocks tail).header_found = s.header_found := by
  induction blocks generalizing s tail with
  | zero => rfl
  | succ blocks ih =>
    simp only [HttpFetch.ingest_chunked_tail, ingest_chunked_bytes_eq]
    split_ifs
    · rfl
    · rw [ih, apply_walk_header_found]

theorem count_body_header_found (s : HttpFetch) (n : Nat) :
    (s.count_body dec n).header_found = s.header_found := by
  unfold HttpFetch.count_body
  cases s.http_body_remaining with
  | none => rfl
  | some rem =>
    dsimp only
    split_ifs
    · rw [finish_fetch_header_found]
    · rfl

theorem begin_body_header_found (s : HttpFetch) (hdr_end : Nat) :
    (s.begin_body dec hdr_end).header_found = true := by
  unfold HttpFetch.begin_body
  dsimp only
  split_ifs
  · show HttpFetch.header_found (HttpFetch.ingest_chunked_tail dec _ _ _) = true
    rw [ingest_chunked_tail_header_found]
  · split
    · rfl
    · show HttpFetch.header_found (if _ then _ else _ : HttpFetch) = true
      rw [apply_ite HttpFetch.header_found, finish_fetch_header_found, ite_self]
      show HttpFetch.header_found (HttpFetch.push_bytes _ _) = true
      rw [push_bytes_eq]

theorem feed_header_found {s : HttpFetch} (h : s.header_found = true) (seg : Bytes) :
    (s.feed dec seg).header_found = true := by
  cases hd : s.fetch_done with
  | true => rw [feed_done dec hd]; exact h
  | false =>
    cases hc : s.http_chunked with
    | true => rw [feed_chunked dec ⟨h, hc, hd⟩, apply_walk_header_found]; exact h
    | false =>
      rw [feed_identity dec ⟨h, hc, hd⟩, count_body_header_found, push_bytes_eq]
      exact h

/-- The bytes of a string act on the bare reader. -/
theorem bare_feed_bytes {s t : HttpFetch} (hs : s.header_found = true) (h : s.bare = t.bare)
    (data : Bytes) : (s.feed_bytes dec data).bare = (t.feed_bytes dec data).bare := by
  induction data generalizing s t with
  | nil => exact h
  | cons b rest ih =>
    have ht : t.header_found = true := (congrArg HttpFetch.header_found h).symm.trans hs
    rw [feed_bytes_cons, feed_bytes_cons]
    apply ih (feed_header_found dec hs [b])
    rw [← bare_feed dec s hs, h, bare_feed dec t ht]

theorem feed_bytes_header_found {s : HttpFetch} (h : s.header_found = true) (data : Bytes) :
    (s.feed_bytes dec data).header_found = true := by
  induction data generalizing s with
  | nil => exact h
  | cons b rest ih =>
    rw [feed_bytes_cons]
    exact ih (feed_header_found dec h [b])

/-! ### The end of the header -/

theorem begin_chunked_sameRead {s : HttpFetch} (hd : s.fetch_done = false)
    (hf : s.header_found = true) (headers tail : Bytes) (hok : ChunkTailOk tail) :
    SameRead (HttpFetch.begin_chunked dec { s with stream := headers ++ tail } headers.length)
      ((HttpFetch.begin_chunked dec { s with stream := headers } headers.length).feed_bytes dec
        tail) := by
  unfold HttpFetch.begin_chunked
  dsimp only
  rw [List.drop_left, List.drop_length]
  set s₁ : HttpFetch := { s with
    stream := headers ++ tail, http_chunked := true, chunk_phase := .SizeLine, chunk_line := [] }
    with hs₁
  set s₂ : HttpFetch := HttpFetch.header_taken { s with
    stream := headers, http_chunked := true, chunk_phase := .SizeLine, chunk_line := [] } with hs₂
  have hin : s₂.InChunked := ⟨hf, rfl, hd⟩
  have hbytes : s₂.feed_bytes dec tail = s₂.apply_walk dec (chunk_walk .start tail) := by
    rw [← feed_chunked_bytes dec hin, feed_chunked dec hin]
    rfl
  have hbare : (s₁.apply_walk dec (chunk_walk .start tail)).bare
      = (s₂.apply_walk dec (chunk_walk .start tail)).bare := by
    rw [← bare_apply_walk, ← bare_apply_walk dec s₂]
    rfl
  have hblocks : BlocksOk s₁.chunkPos tail := by
    intro k hk
    exact hok k (by omega) hk
  obtain ⟨hout, heq⟩ := ingest_chunked_tail_eq dec tail.length (s := s₁) le_rfl hblocks
  change SameRead _ (s₂.feed_bytes dec tail)
  rw [hbytes]
  by_cases hgo : (chunk_walk .start tail).stop = none ∨ (chunk_walk .start tail).stop = some .stray
  · -- the body goes on: equal but for the stream and the generation
    rw [heq hgo]
    refine .inr (.inl ⟨?_, ?_⟩)
    · show (s₁.apply_walk dec _).header_found = true
      rw [apply_walk_header_found]
      exact hf
    · exact hbare
  · -- the body has ended
    have hdone : (s₁.apply_walk dec (chunk_walk .start tail)).fetch_done = true := by
      unfold HttpFetch.apply_walk
      cases hstop : (chunk_walk .start tail).stop with
      | none => exact absurd (.inl hstop) hgo
      | some r =>
        refine chunk_stop_done dec _ ?_
        rintro rfl
        exact hgo (.inr hstop)
    refine .inr (.inr ⟨?_, ?_⟩)
    · exact (congrArg Outcome.fetch_done hout).trans hdone
    · exact hout.trans ((bare_outcome _).symm.trans ((congrArg _ hbare).trans (bare_outcome _)))

/-- `begin_identity` in terms of the pushed tail. -/
theorem begin_identity_eq (s : HttpFetch) (headers tail : Bytes) (layers : List BodyLayer) :
    HttpFetch.begin_identity dec { s with stream := headers ++ tail } headers.length layers =
      (let t := HttpFetch.push_bytes { s with
        stream := headers ++ tail
        body_layers := layers
        http_body_remaining :=
          (parse_content_length headers).map (fun cl => cl - min tail.length cl) } tail
      (if t.http_body_remaining = some 0 then t.finish_fetch dec else t).header_taken) := by
  unfold HttpFetch.begin_identity
  dsimp only
  rw [List.drop_left, List.take_left]
  rfl

theorem begin_identity_sameRead {s : HttpFetch} (hd : s.fetch_done = false)
    (hf : s.header_found = true) (hc : s.http_chunked = false) (hpage : s.page = [])
    (headers tail : Bytes) (layers : List BodyLayer) (hcap : tail.length ≤ STREAM_CAP)
    (hok : ∀ cl ∈ parse_content_length headers, tail.length ≤ cl) :
    SameRead
      (HttpFetch.begin_identity dec { s with stream := headers ++ tail } headers.length layers)
      ((HttpFetch.begin_identity dec { s with stream := headers } headers.length layers).feed_bytes
        dec tail) := by
  by_cases hne : tail = []
  · subst hne
    rw [List.append_nil]
    exact .inl rfl
  have hpos : 0 < tail.length := List.length_pos_of_ne_nil hne
  have hnil := begin_identity_eq dec s headers [] layers
  rw [List.append_nil] at hnil
  rw [begin_identity_eq, hnil]
  refine .inr (.inl ?_)
  cases hcl : parse_content_length headers with
  | none =>
    set s₂ : HttpFetch := HttpFetch.header_taken { s with
      stream := headers, body_layers := layers, http_body_remaining := none } with hs₂
    have hin : s₂.InIdentity := ⟨hf, hc, hd⟩
    have hw : s₂.Within tail := by
      intro rem hrem
      cases hrem
    dsimp only [Option.map_none, push_bytes_nil]
    rw [push_bytes_remaining]
    rw [if_neg (by simp), if_neg (by simp)]
    change _ ∧ _ = (s₂.feed_bytes dec tail).bare
    rw [← feed_identity_bytes dec hin hne hw, feed_identity dec hin, push_bytes_eq, push_bytes_eq]
    exact ⟨hf, rfl⟩
  | some cl =>
    have hle : tail.length ≤ cl := hok cl hcl
    set s₂ : HttpFetch := HttpFetch.header_taken { s with
      stream := headers, body_layers := layers, http_body_remaining := some cl } with hs₂
    have hin : s₂.InIdentity := ⟨hf, hc, hd⟩
    have hw : s₂.Within tail := by
      intro rem hrem
      have hrem' : some cl = some rem := hrem
      simp only [Option.some.injEq] at hrem'
      omega
    -- the header buffer is smaller than the page, so every byte is stored
    have hstored : s₂.stored tail = tail.length := by
      have hpc : STREAM_CAP ≤ PAGE_CAP := by decide
      unfold HttpFetch.stored
      rw [show s₂.page = [] from hpage, List.length_nil]
      omega
    dsimp only [Option.map_some, push_bytes_nil]
    rw [push_bytes_remaining]
    rw [if_neg (show ¬ some (cl - min ([] : Bytes).length cl) = some 0 by
      simp only [List.length_nil, Option.some.injEq]
      omega)]
    change _ ∧ _ = (HttpFetch.feed_bytes dec (HttpFetch.header_taken { s with
      stream := headers, body_layers := layers,
      http_body_remaining := some (cl - min ([] : Bytes).length cl) }) tail).bare
    rw [show cl - min ([] : Bytes).length cl = cl by simp only [List.length_nil]; omega]
    change _ ∧ _ = (s₂.feed_bytes dec tail).bare
    rw [← feed_identity_bytes dec hin hne hw, feed_identity dec hin, hstored]
    unfold HttpFetch.count_body
    rw [push_bytes_remaining, show s₂.http_body_remaining = some cl from rfl]
    dsimp only
    rw [min_comm cl]
    have hbare : (HttpFetch.push_bytes { s with
        stream := headers ++ tail, body_layers := layers,
        http_body_remaining := some (cl - min tail.length cl) } tail).bare
        = HttpFetch.bare { s₂.push_bytes tail with
            http_body_remaining := some (cl - min tail.length cl) } := by
      rw [push_bytes_eq, push_bytes_eq]
      rfl
    by_cases hz : cl - min tail.length cl = 0
    · rw [if_pos (by rw [hz]), if_pos hz]
      refine ⟨?_, ?_⟩
      · show HttpFetch.header_found (HttpFetch.finish_fetch dec _) = true
        rw [finish_fetch_header_found, push_bytes_eq]
        exact hf
      · show HttpFetch.bare (HttpFetch.finish_fetch dec _) = _
        rw [← bare_finish_fetch, hbare, bare_finish_fetch]
    · rw [if_neg (by simpa using hz), if_neg hz]
      refine ⟨?_, hbare⟩
      show HttpFetch.header_found (HttpFetch.push_bytes _ _) = true
      rw [push_bytes_eq]
      exact hf

/-- **The body bytes in the segment that ends the header read like the same
bytes behind it.** -/
theorem begin_body_sameRead {s : HttpFetch} (h : s.InHeader) (headers tail : Bytes)
    (hcap : (headers ++ tail).length ≤ STREAM_CAP) (hok : TailOk headers tail) :
    SameRead (HttpFetch.begin_body dec { s with stream := headers ++ tail } headers.length)
      ((HttpFetch.begin_body dec { s with stream := headers } headers.length).feed_bytes dec
        tail) := by
  have hlen : tail.length ≤ STREAM_CAP := by
    rw [List.length_append] at hcap
    omega
  unfold HttpFetch.begin_body
  dsimp only
  rw [List.take_left, List.take_length]
  unfold TailOk at hok
  by_cases hch : response_headers_chunked headers = true
  · rw [if_pos hch] at hok
    rw [if_pos hch, if_pos hch]
    exact begin_chunked_sameRead dec (s := { s with header_found := true }) h.fetch_open rfl
      headers tail hok
  · rw [if_neg hch] at hok
    rw [if_neg hch, if_neg hch]
    cases hl : parse_content_encoding_layers headers with
    | none =>
      dsimp only
      rw [feed_bytes_done dec (set_err_done _ _)]
      exact .inr (.inr ⟨rfl, rfl⟩)
    | some layers =>
      rw [hl] at hok
      have hcl := hok.resolve_left (by simp)
      exact begin_identity_sameRead dec (s := { s with header_found := true }) h.fetch_open rfl
        h.http_chunked h.page headers tail layers hlen hcl

/-! ### One segment -/

/-- A reader that the statements below are about. -/
def HttpFetch.Reading (s : HttpFetch) : Prop :=
  s.fetch_done = true ∨ s.header_found = true ∨ s.InHeader

/-- The first error of a header that does not end comes with the last byte of
the buffer, however the bytes arrive. -/
theorem feed_bytes_header_full {s : HttpFetch} (h : s.InHeader) (seg : Bytes)
    (hnone : find_http_header_end ((s.stream ++ seg).take STREAM_CAP) = none)
    (hlen : STREAM_CAP ≤ (s.stream ++ seg).length) :
    s.feed_bytes dec seg = s.feed dec seg := by
  have hroom := h.room
  rw [List.length_append] at hlen
  obtain ⟨n, hn⟩ : ∃ n, s.stream.length + n + 1 = STREAM_CAP :=
    ⟨STREAM_CAP - 1 - s.stream.length, by omega⟩
  have hnlt : n < seg.length := by omega
  have hsplit : seg = seg.take n ++ ([seg[n]] ++ seg.drop (n + 1)) := by
    rw [List.singleton_append, ← List.drop_eq_getElem_cons hnlt, List.take_append_drop]
  have hnext : seg.take n ++ [seg[n]] = seg.take (n + 1) := by
    rw [List.take_add_one, List.getElem?_eq_getElem hnlt]
    rfl
  have hbuf : (s.stream ++ seg).take STREAM_CAP = s.stream ++ seg.take (n + 1) := by
    rw [← stream_append h, show STREAM_CAP - s.stream.length = n + 1 by omega]
  have hbefore : find_http_header_end (s.stream ++ seg.take n) = none := by
    rw [hbuf, ← hnext, ← List.append_assoc] at hnone
    exact find_http_header_end_none_of_append hnone
  have hshort : (s.stream ++ seg.take n).length < STREAM_CAP := by
    rw [List.length_append, List.length_take]
    omega
  have hin := h.buffered hbefore hshort
  -- the byte that fills the buffer
  have hjoin : s.stream ++ seg.take n ++ [seg[n]] = s.stream ++ seg.take (n + 1) := by
    rw [List.append_assoc, hnext]
  have hexact : (s.stream ++ seg.take (n + 1)).length = STREAM_CAP := by
    rw [List.length_append, List.length_take]
    omega
  have hlast := feed_header_full dec hin [seg[n]]
  change _ → _ → _ = HttpFetch.set_err { s with
    stream := (s.stream ++ seg.take n ++ [seg[n]]).take STREAM_CAP } _ at hlast
  dsimp only at hlast
  rw [hjoin, List.take_of_length_le (le_of_eq hexact), ← hbuf] at hlast
  have hlast' := hlast hnone (by rw [hbuf, hexact])
  rw [feed_header_full dec h seg hnone (by rw [List.length_append]; exact hlen), ← hlast']
  conv_lhs => rw [hsplit]
  rw [feed_bytes_append, feed_bytes_header_more dec h _ hbefore hshort, feed_bytes_append]
  show (HttpFetch.feed dec _ [seg[n]]).feed_bytes dec _ = _
  rw [feed_bytes_done]
  rw [hlast']
  rfl

/-- A segment that ends the header reads like its bytes. -/
theorem feed_header_end_sameRead {s : HttpFetch} (h : s.InHeader) (seg : Bytes) {r : Nat × Nat}
    (hfind : find_http_header_end (s.stream ++ seg) = some r) (hok : EndOk (s.stream ++ seg) r) :
    SameRead (s.feed dec seg) (s.feed_bytes dec seg) := by
  obtain ⟨hcap, hfirst, htail⟩ := hok
  obtain ⟨hle, hsep, htake⟩ := find_http_header_end_take hfind
  -- the header does not end inside what was there before
  have hinside : s.stream.length < r.1 + r.2 := by
    by_contra hcon
    have hpre : (s.stream ++ seg).take (r.1 + r.2) = s.stream.take (r.1 + r.2) :=
      List.take_append_of_le_length (by omega)
    have hnone : find_http_header_end (s.stream.take (r.1 + r.2) ++ s.stream.drop (r.1 + r.2))
        = none := by
      rw [List.take_append_drop]
      exact h.no_end
    rw [hpre, find_http_header_end_none_of_append hnone] at htake
    cases htake
  obtain ⟨n, hn⟩ : ∃ n, r.1 + r.2 = s.stream.length + (n + 1) :=
    ⟨r.1 + r.2 - s.stream.length - 1, by omega⟩
  rw [List.length_append] at hle hcap
  have hbefore : s.stream ++ seg.take n = (s.stream ++ seg).take (r.1 + r.2 - 1) := by
    rw [show r.1 + r.2 - 1 = s.stream.length + n by omega, List.take_length_add_append]
  have hupto : s.stream ++ seg.take (n + 1) = (s.stream ++ seg).take (r.1 + r.2) := by
    rw [hn, List.take_length_add_append]
  have hrest : seg.drop (n + 1) = (s.stream ++ seg).drop (r.1 + r.2) := by
    rw [hn, List.drop_length_add_append]
  have hbytes := feed_bytes_header dec h seg (n := n) (r := r) (by omega) (by omega)
    (by rw [hbefore]; exact hfirst) (by rw [hupto]; exact htake)
  rw [hupto, hrest] at hbytes
  rw [hbytes, feed_header_end dec h seg (by rw [List.length_append]; exact hcap) hfind]
  have hlen : ((s.stream ++ seg).take (r.1 + r.2)).length = r.1 + r.2 := by
    rw [List.length_take, List.length_append]
    omega
  have hsame := begin_body_sameRead dec h ((s.stream ++ seg).take (r.1 + r.2))
    ((s.stream ++ seg).drop (r.1 + r.2))
    (by rw [List.take_append_drop, List.length_append]; exact hcap) htail
  rw [List.take_append_drop, hlen] at hsame
  exact hsame

theorem feed_inHeader {s : HttpFetch} (h : s.InHeader) {seg : Bytes} (hok : s.SegOk seg) :
    SameRead (s.feed dec seg) (s.feed_bytes dec seg) ∧ (s.feed dec seg).Reading := by
  unfold HttpFetch.SegOk at hok
  rw [if_neg (by simp [h.header_found])] at hok
  cases hfind : find_http_header_end ((s.stream ++ seg).take STREAM_CAP) with
  | none =>
    by_cases hlen : (s.stream ++ seg).length < STREAM_CAP
    · rw [List.take_of_length_le (by omega)] at hfind
      rw [feed_header_more dec h seg hfind hlen, feed_bytes_header_more dec h seg hfind hlen]
      exact ⟨.inl rfl, .inr (.inr (h.buffered hfind hlen))⟩
    · rw [feed_bytes_header_full dec h seg hfind (by omega)]
      refine ⟨.inl rfl, .inl ?_⟩
      rw [feed_header_full dec h seg hfind (by omega)]
      rfl
  | some r =>
    have hend := hok r hfind
    rw [List.take_of_length_le hend.1] at hfind
    refine ⟨feed_header_end_sameRead dec h seg hfind hend, .inr (.inl ?_)⟩
    rw [feed_header_end dec h seg hend.1 hfind]
    exact begin_body_header_found dec _ _

/-- **Behind the header a segment is its bytes.** -/
theorem feed_body {s : HttpFetch} (hf : s.header_found = true) (hd : s.fetch_done = false)
    {seg : Bytes} (hne : seg ≠ []) (hok : s.SegOk seg) : s.feed dec seg = s.feed_bytes dec seg := by
  unfold HttpFetch.SegOk at hok
  rw [if_pos hf] at hok
  cases hc : s.http_chunked with
  | true => exact feed_chunked_bytes dec ⟨hf, hc, hd⟩ seg
  | false => exact feed_identity_bytes dec ⟨hf, hc, hd⟩ hne (hok.resolve_left (by simp [hc]))

/-! ### Whole responses -/

/-- The condition of a run: each segment that is read is `SegOk`. -/
def HttpFetch.ReadOk (s : HttpFetch) (seg : Bytes) : Prop := s.fetch_done = false → s.SegOk seg

instance (s : HttpFetch) (seg : Bytes) : Decidable (s.ReadOk seg) :=
  inferInstanceAs (Decidable (_ → _))

/-- A segment that can be read like its bytes keeps two readers alike. -/
theorem feed_sameRead {s t : HttpFetch} (hs : s.Reading) (hst : SameRead s t) {seg : Bytes}
    (hne : seg ≠ []) (hok : s.ReadOk seg) :
    SameRead (s.feed dec seg) (t.feed_bytes dec seg) ∧ (s.feed dec seg).Reading := by
  cases hd : s.fetch_done with
  | true =>
    have htd : t.fetch_done = true := (congrArg Outcome.fetch_done hst.outcome).symm.trans hd
    rw [feed_done dec hd, feed_bytes_done dec htd]
    exact ⟨hst, hs⟩
  | false =>
    have hsok : s.SegOk seg := hok hd
    rcases hst with rfl | ⟨hf, hbare⟩ | ⟨hdone, -⟩
    · rcases hs with hdone | hf | hin
      · rw [hd] at hdone
        cases hdone
      · refine ⟨.inl (feed_body dec hf hd hne hsok), .inr (.inl ?_)⟩
        exact feed_header_found dec hf seg
      · exact feed_inHeader dec hin hsok
    · refine ⟨.inr (.inl ⟨feed_header_found dec hf seg, ?_⟩),
        .inr (.inl (feed_header_found dec hf seg))⟩
      rw [feed_body dec hf hd hne hsok]
      exact bare_feed_bytes dec hf hbare seg
    · rw [hd] at hdone
      cases hdone

/-- **A segmentation reads like its bytes.** -/
theorem run_feed_sameRead {s t : HttpFetch} (hs : s.Reading) (hst : SameRead s t)
    {segs : List Bytes} (hne : ∀ seg ∈ segs, seg ≠ [])
    (hok : Along (HttpFetch.feed dec) HttpFetch.ReadOk s segs) :
    SameRead (run (HttpFetch.feed dec) s segs) (t.feed_bytes dec segs.flatten) := by
  induction segs generalizing s t with
  | nil => exact hst
  | cons seg segs ih =>
    rw [run_cons, List.flatten_cons, feed_bytes_append]
    obtain ⟨hsame, hread⟩ := feed_sameRead dec hs hst (hne seg List.mem_cons_self) hok.1
    exact ih hread hsame (fun seg' h' => hne seg' (List.mem_cons_of_mem _ h')) hok.2

theorem eof_over {s : HttpFetch} (h : s.fetch_done = true) :
    s.finish_plain_http_on_tcp_eof dec = s := by
  unfold HttpFetch.finish_plain_http_on_tcp_eof
  rw [if_neg (by simp [h]), finish_fetch_over dec h]

/-- The end of the connection is seen alike too. -/
theorem SameRead.eof {s t : HttpFetch} (h : SameRead s t) :
    (s.finish_plain_http_on_tcp_eof dec).outcome = (t.finish_plain_http_on_tcp_eof dec).outcome := by
  rcases h with rfl | ⟨-, hbare⟩ | ⟨hdone, hout⟩
  · rfl
  · have hc : s.bare.http_chunked = t.bare.http_chunked := by rw [hbare]
    have hd : s.bare.fetch_done = t.bare.fetch_done := by rw [hbare]
    change s.http_chunked = t.http_chunked at hc
    change s.fetch_done = t.fetch_done at hd
    unfold HttpFetch.finish_plain_http_on_tcp_eof
    rw [hc, hd]
    split_ifs
    · show (s.bare.set_err "HTTP CHUNK EOF").outcome = (t.bare.set_err "HTTP CHUNK EOF").outcome
      rw [hbare]
    · rw [← bare_outcome, ← bare_finish_fetch, hbare, bare_finish_fetch, bare_outcome]
  · rw [eof_over dec hdone, eof_over dec ((congrArg Outcome.fetch_done hout).symm.trans hdone)]
    exact hout

end Read

theorem fresh_inHeader (gen : UInt32) : (HttpFetch.fresh gen).InHeader :=
  ⟨rfl, rfl, rfl, Nat.zero_lt_succ _, rfl, rfl⟩

/-- The outcome of a response that arrives in the given segments, at the end of
the connection. -/
def read_response (dec : Decoders) (gen : UInt32) (segs : List Bytes) : Outcome :=
  ((run (HttpFetch.feed dec) (.fresh gen) segs).finish_plain_http_on_tcp_eof dec).outcome

/-- Reading a response in segments is reading its bytes. -/
theorem read_response_eq (dec : Decoders) (gen : UInt32) {segs : List Bytes}
    (hne : ∀ seg ∈ segs, seg ≠ [])
    (hok : Along (HttpFetch.feed dec) HttpFetch.ReadOk (.fresh gen) segs) :
    read_response dec gen segs = (((HttpFetch.fresh gen).feed_bytes dec
      segs.flatten).finish_plain_http_on_tcp_eof dec).outcome := by
  have hs : (HttpFetch.fresh gen).Reading := .inr (.inr (fresh_inHeader gen))
  exact (run_feed_sameRead dec hs (.inl rfl) hne hok).eof dec

/-- **Segmentation independence.** Two ways of cutting a response whose segments
can be read like their bytes end in the same outcome. -/
theorem segmentation_independent (dec : Decoders) (gen : UInt32) (response : Bytes)
    (segs₁ segs₂ : List Bytes) (h₁ : segs₁.flatten = response) (h₂ : segs₂.flatten = response)
    (hne₁ : ∀ seg ∈ segs₁, seg ≠ []) (hne₂ : ∀ seg ∈ segs₂, seg ≠ [])
    (hok₁ : Along (HttpFetch.feed dec) HttpFetch.ReadOk (.fresh gen) segs₁)
    (hok₂ : Along (HttpFetch.feed dec) HttpFetch.ReadOk (.fresh gen) segs₂) :
    read_response dec gen segs₁ = read_response dec gen segs₂ := by
  rw [read_response_eq dec gen hne₁ hok₁, read_response_eq dec gen hne₂ hok₂, h₁, h₂]

/-- A chunked response, whole and cut inside the header, a size line and a line
end. -/
theorem chunked_response_cut :
    read_response .refuse 0
        [ascii "HTTP/1.0 200 OK\r\nTransfer-Encoding: chunked\r\n\r\n2\r\nhi\r\n0\r\n\r\n"]
      = read_response .refuse 0
        [ascii "HTTP/1.0 200 OK\r\nTransfer-Enco", ascii "ding: chunked\r\n\r",
          ascii "\n2", ascii "\r\nhi\r", ascii "\n0\r\n\r\n"] :=
  segmentation_independent .refuse 0
    (ascii "HTTP/1.0 200 OK\r\nTransfer-Encoding: chunked\r\n\r\n2\r\nhi\r\n0\r\n\r\n") _ _
    (by decide) (by decide) (by decide) (by decide)
    (by decide) (by decide)

/-- One byte behind the end of a body of known length changes the page, if it
comes in the same segment. -/
theorem surplus_byte_is_seen :
    read_response .refuse 0 [ascii "HTTP/1.0 200 OK\r\nContent-Length: 1\r\n\r\nab"]
      ≠ read_response .refuse 0
        [ascii "HTTP/1.0 200 OK\r\nContent-Length: 1\r\n\r\na", ascii "b"] := by
  decide

end EveOS.Net
