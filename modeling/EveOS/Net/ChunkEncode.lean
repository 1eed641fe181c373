/-
The chunked decoder undoes the chunked encoding, however the bytes are cut.

A message is a list of chunks with their size lines, and the lines of a trailer section. The
line buffer of the decoder is shared by size lines and trailers and holds 24 bytes: enough
for the digits of any size and for the `;` behind them, and for telling an empty
trailer line from another one.
-/
import EveOS.Lib.Hex
import EveOS.Net.ChunkBody
import EveOS.Net.Feed

set_option autoImplicit false

namespace EveOS.Net

/-! ## The encoding -/

/-- A chunk and its size line: the shortest numeral for its length, and an extension. -/
structure WireChunk where
  data : Bytes
  size : Bytes
  ext : Bytes
  nonempty : data ≠ []
  fits : data.length ≤ USIZE_MAX
  numeral : HexNumeral data.length size
  ext_start : ext = [] ∨ ext.head? = some 59
  ext_no_cr : 13 ∉ ext
  ext_no_lf : 10 ∉ ext

def WireChunk.wire (c : WireChunk) : Bytes := c.size ++ c.ext ++ [13, 10] ++ c.data ++ [13, 10]

/-- A line of the trailer section. -/
structure TrailerLine where
  text : Bytes
  nonempty : text ≠ []
  no_cr : 13 ∉ text
  no_lf : 10 ∉ text

def TrailerLine.wire (l : TrailerLine) : Bytes := l.text ++ [13, 10]

structure Message where
  chunks : List WireChunk
  trailers : List TrailerLine

namespace Message

variable (m : Message)

/-- The bytes of a message without the last LF. -/
def front : Bytes :=
  (m.chunks.map WireChunk.wire).flatten ++ [48, 13, 10] ++ (m.trailers.map TrailerLine.wire).flatten ++ [13]

def wire : Bytes := m.front ++ [10]

def body : Bytes := (m.chunks.map WireChunk.data).flatten

end Message

/-! ## Size lines -/

theorem hex_digit_eq : ∀ b : UInt8, hex_digit b = hexValue b := by
  decide +kernel

theorem not_hex_of_stop {b : UInt8} (h : b = 59 ∨ isBlank b = true) : hexValue b = none := by
  have hall : ∀ b : UInt8, (b = 59 ∨ isBlank b = true) → hexValue b = none := by decide +kernel
  exact hall b h

/-- The digit loop over the digits of a number that fits. -/
theorem parse_chunk_size_digits {text : Bytes} {ds : List Nat} {v : Nat}
    (h : text.mapM hexValue = some ds) (hv : hexFold v ds ≤ USIZE_MAX) (rest : Bytes) :
    parse_chunk_size_from v (text ++ rest) = parse_chunk_size_from (hexFold v ds) rest := by
  induction text generalizing v ds with
  | nil =>
    rw [List.mapM_nil] at h
    obtain rfl := Option.some.inj h
    rfl
  | cons b text ih =>
    obtain ⟨d, ds', hd, hrest, rfl⟩ := hexValue_mapM_cons h
    have hstep : v * 16 + d ≤ USIZE_MAX := Nat.le_trans (le_hexFold _ ds') hv
    have hgo : ¬(b = 59 || isBlank b) = true := by
      intro hstop
      rw [Bool.or_eq_true, decide_eq_true_eq] at hstop
      rw [not_hex_of_stop hstop] at hd
      cases hd
    rw [List.cons_append, parse_chunk_size_from, if_neg hgo, hex_digit_eq, hd]
    dsimp only
    rw [if_pos hstep]
    exact ih hrest hv

theorem strip_cr_of_no_cr {line : Bytes} (h : 13 ∉ line) : strip_cr line = line := by
  unfold strip_cr
  rw [if_neg]
  intro hlast
  exact h (List.mem_of_getLast? hlast)

section Chunk

variable (c : WireChunk)

/-- A size line up to its LF. -/
def WireChunk.line : Bytes := c.size ++ c.ext ++ [13]

theorem WireChunk.not_mem_size {b : UInt8} (hb : hexValue b = none) : b ∉ c.size := by
  intro hmem
  have hsome := isSome_of_mapM_hexValue c.numeral hmem
  rw [hb] at hsome
  cases hsome

theorem WireChunk.line_no_lf : 10 ∉ c.line := by
  have hsize : 10 ∉ c.size := c.not_mem_size (by decide)
  simp [WireChunk.line, hsize, c.ext_no_lf]

theorem WireChunk.line_text : lineText c.line = c.size ++ c.ext := by
  have hno : 13 ∉ c.size ++ c.ext := by
    rw [List.mem_append, not_or]
    exact ⟨c.not_mem_size (by decide), c.ext_no_cr⟩
  rw [WireChunk.line, lineText_append, lineText_singleton, if_pos rfl, List.append_nil, lineText,
    List.filter_eq_self]
  intro b hb
  rw [bne_iff_ne]
  rintro rfl
  exact hno hb

/-- The digits fit the line buffer. -/
theorem WireChunk.size_length : c.size.length ≤ 16 := by
  have husize : USIZE_MAX < 16 ^ 16 := by decide
  exact c.numeral.length_le (Nat.lt_of_le_of_lt c.fits husize)

/-- **The size line states the length**, whatever of the extension fits the buffer. -/
theorem WireChunk.parse_line :
    parse_chunk_size_line (c.line.foldl line_push []) = some c.data.length := by
  have hlen := c.size_length
  have htake : (c.size ++ c.ext).take CHUNK_LINE_CAP =
      c.size ++ c.ext.take (CHUNK_LINE_CAP - c.size.length) := by
    rw [List.take_append, List.take_of_length_le (by unfold CHUNK_LINE_CAP; omega)]
  have hno : 13 ∉ c.size ++ c.ext.take (CHUNK_LINE_CAP - c.size.length) := by
    rw [List.mem_append, not_or]
    exact ⟨c.not_mem_size (by decide), fun h => c.ext_no_cr (List.mem_of_mem_take h)⟩
  have hvalue : hexFold 0 (Nat.digits 16 c.data.length).reverse = c.data.length := hexFold_digits _
  rw [trailer_text, c.line_text, htake, parse_chunk_size_line, strip_cr_of_no_cr hno,
    parse_chunk_size_digits c.numeral (by rw [hvalue]; exact c.fits), hvalue]
  rcases c.ext_start with hnil | hsemi
  · rw [hnil, List.take_nil, parse_chunk_size_from]
  · obtain ⟨rest, hrest⟩ : ∃ rest, c.ext = 59 :: rest := List.head?_eq_some_iff.mp hsemi
    obtain ⟨k, hk⟩ : ∃ k, CHUNK_LINE_CAP - c.size.length = k + 1 :=
      ⟨CHUNK_LINE_CAP - c.size.length - 1, by unfold CHUNK_LINE_CAP; omega⟩
    rw [hrest, hk, List.take_succ_cons, parse_chunk_size_from, if_pos (by decide)]

/-- **Walking over a chunk** hands on its data. -/
theorem walk_chunk (xs : Bytes) :
    chunk_walk .start (c.wire ++ xs) =
      { chunk_walk .start xs with out := c.data ++ (chunk_walk .start xs).out } := by
  obtain ⟨n, hn⟩ : ∃ n, c.data.length = n + 1 :=
    ⟨c.data.length - 1, by have := List.length_pos_of_ne_nil c.nonempty; omega⟩
  have hsplit : c.wire ++ xs = c.line ++ 10 :: (c.data ++ ([13, 10] ++ xs)) := by
    simp [WireChunk.wire, WireChunk.line]
  have hnext : chunk_next ⟨.SizeLine, c.line.foldl line_push []⟩ 10 = .go ⟨.Data (n + 1), []⟩ := by
    simp only [chunk_next, size_next, if_true, c.parse_line, hn]
  rw [hsplit, ChunkPos.start, (walk_size_line c.line_no_lf [] [] _).1, chunk_walk, hnext]
  dsimp only
  rw [(walk_data hn _).1, (walk_end (.inr rfl) xs).1]
  rfl

theorem walk_chunks (cs : List WireChunk) (xs : Bytes) :
    chunk_walk .start ((cs.map WireChunk.wire).flatten ++ xs) =
      { chunk_walk .start xs with
        out := (cs.map WireChunk.data).flatten ++ (chunk_walk .start xs).out } := by
  induction cs with
  | nil => rfl
  | cons c cs ih =>
    rw [List.map_cons, List.flatten_cons, List.append_assoc, walk_chunk, ih, List.map_cons,
      List.flatten_cons, List.append_assoc]

end Chunk

/-! ## The end of a message -/

theorem walk_trailer (l : TrailerLine) (xs : Bytes) :
    chunk_walk ⟨.Trailers, []⟩ (l.wire ++ xs) = chunk_walk ⟨.Trailers, []⟩ xs := by
  have hno : 10 ∉ l.text ++ [13] := by simp [l.no_lf]
  have htext : lineText (l.text ++ [13]) = l.text := by
    rw [lineText_append, lineText_singleton, if_pos rfl, List.append_nil, lineText,
      List.filter_eq_self]
    intro b hb
    rw [bne_iff_ne]
    rintro rfl
    exact l.no_cr hb
  have hne : l.text.take CHUNK_LINE_CAP ≠ [] := by
    rw [Ne, List.take_eq_nil_iff, not_or]
    exact ⟨by decide, l.nonempty⟩
  have hsplit : l.wire ++ xs = (l.text ++ [13]) ++ 10 :: xs := by simp [TrailerLine.wire]
  rw [hsplit, walk_trailer_line hno, trailer_text, htext, chunk_walk]
  simp only [chunk_next, trailer_next, if_true, if_neg hne]

theorem walk_trailers_wire (ls : List TrailerLine) (xs : Bytes) :
    chunk_walk ⟨.Trailers, []⟩ ((ls.map TrailerLine.wire).flatten ++ xs) =
      chunk_walk ⟨.Trailers, []⟩ xs := by
  induction ls with
  | nil => rfl
  | cons l ls ih => rw [List.map_cons, List.flatten_cons, List.append_assoc, walk_trailer, ih]

/-- **In front of the last LF** the decoder has handed on the body and waits for the end of an
empty trailer line. -/
theorem walk_front (m : Message) : chunk_walk .start m.front = ⟨⟨.Trailers, []⟩, m.body, none⟩ := by
  have hlast : ∀ xs, chunk_walk .start ([48, 13, 10] ++ xs) = chunk_walk ⟨.Trailers, []⟩ xs :=
    fun _ => rfl
  have hcr : chunk_walk ⟨.Trailers, []⟩ [13] = ⟨⟨.Trailers, []⟩, [], none⟩ := rfl
  rw [Message.front, List.append_assoc, List.append_assoc, walk_chunks, hlast, walk_trailers_wire, hcr]
  dsimp only
  rw [List.append_nil]
  rfl

theorem walk_wire (m : Message) :
    chunk_walk .start m.wire = ⟨⟨.Trailers, []⟩, m.body, some .finished⟩ := by
  have hgo : (chunk_walk .start m.front).stop = none := by rw [walk_front]
  have hlf : chunk_walk ⟨.Trailers, []⟩ [10] = ⟨⟨.Trailers, []⟩, [], some .finished⟩ := rfl
  rw [Message.wire, chunk_walk_append _ _ _ hgo, walk_front]
  dsimp only
  rw [hlf, List.append_nil]

/-- The decoder does not stop before the last byte. -/
theorem walk_open (m : Message) {xs rest : Bytes} (h : m.wire = xs ++ rest) (hr : rest ≠ []) :
    (chunk_walk .start xs).stop = none := by
  obtain ⟨more, hmore⟩ : ∃ more, m.front = xs ++ more := by
    have hdrop := congrArg List.dropLast h
    rw [Message.wire, List.dropLast_concat, List.dropLast_append_of_ne_nil hr] at hdrop
    exact ⟨rest.dropLast, hdrop⟩
  cases hstop : (chunk_walk .start xs).stop with
  | none => rfl
  | some r =>
    have hsame := chunk_walk_append_stop .start xs more hstop
    rw [← hmore, walk_front] at hsame
    rw [← hsame] at hstop
    cases hstop

/-! ## Calls -/

section Calls

variable (dec : Decoders) {s : HttpFetch}

theorem run_ingest_nil {segs : List Bytes} (h : segs.flatten = []) :
    run (HttpFetch.ingest_chunked_bytes dec) s segs = s := by
  induction segs with
  | nil => rfl
  | cons seg segs ih =>
    rw [List.flatten_cons, List.append_eq_nil_iff] at h
    rw [run_cons, h.1]
    exact ih h.2

/-- **Calls in a row** are one walk, if the decoder does not stop before the last byte. -/
theorem run_ingest {segs : List Bytes}
    (h : ∀ xs rest, segs.flatten = xs ++ rest → rest ≠ [] → (chunk_walk s.chunkPos xs).stop = none) :
    run (HttpFetch.ingest_chunked_bytes dec) s segs =
      s.apply_walk dec (chunk_walk s.chunkPos segs.flatten) := by
  induction segs generalizing s with
  | nil => rfl
  | cons seg segs ih =>
    rw [List.flatten_cons] at h ⊢
    rw [run_cons, ingest_chunked_bytes_eq]
    cases hstop : (chunk_walk s.chunkPos seg).stop with
    | some r =>
      -- only empty calls can follow
      have hnil : segs.flatten = [] := by
        by_contra hne
        rw [h seg segs.flatten rfl hne] at hstop
        cases hstop
      rw [run_ingest_nil dec hnil, hnil, List.append_nil]
    | none =>
      rw [apply_walk_append dec s seg segs.flatten hstop, apply_walk_going dec s _ hstop]
      refine ih ?_
      intro xs rest hsplit hr
      have hopen := h (seg ++ xs) rest (by rw [hsplit, List.append_assoc]) hr
      rw [chunk_walk_append _ _ _ hstop] at hopen
      exact hopen

end Calls

/-- A decoder in front of a body. -/
structure HttpFetch.AtBody (s : HttpFetch) : Prop where
  phase : s.chunk_phase = .SizeLine
  line : s.chunk_line = []
  page : s.page = []
  truncated : s.page_truncated = false
  fetch_open : s.fetch_done = false

theorem HttpFetch.AtBody.pos {s : HttpFetch} (h : s.AtBody) : s.chunkPos = .start := by
  rw [HttpFetch.chunkPos, h.phase, h.line]
  rfl

/-- What the page holds of a body, and the flag. -/
theorem HttpFetch.AtBody.push {s : HttpFetch} (h : s.AtBody) (body : Bytes) :
    s.push_bytes body =
      { s with page := body.take PAGE_CAP, page_truncated := decide (PAGE_CAP < body.length) } := by
  rw [push_bytes_eq, h.page, h.truncated, List.length_nil, Nat.sub_zero, List.nil_append,
    Bool.false_or]

/-- **The round trip.** However a message is cut into calls, the decoder neither fails nor
finishes in front of its last byte, and there it finishes with the body in the page, as far as
the page goes. -/
theorem chunked_round_trip (dec : Decoders) {s : HttpFetch} (hs : s.AtBody) (m : Message)
    (segs : List Bytes) (hsegs : segs.flatten = m.wire) :
    (∀ pre, pre <+: segs → pre.flatten ≠ m.wire →
      (run (HttpFetch.ingest_chunked_bytes dec) s pre).fetch_done = false ∧
        (run (HttpFetch.ingest_chunked_bytes dec) s pre).fetch_err = s.fetch_err) ∧
      run (HttpFetch.ingest_chunked_bytes dec) s segs =
        HttpFetch.finish_fetch dec
          { s with
            page := m.body.take PAGE_CAP
            page_truncated := decide (PAGE_CAP < m.body.length)
            chunk_phase := .Trailers
            chunk_line := [] } := by
  have hopen : ∀ xs rest, m.wire = xs ++ rest → rest ≠ [] →
      (chunk_walk s.chunkPos xs).stop = none := by
    intro xs rest hsplit hr
    rw [hs.pos]
    exact walk_open m hsplit hr
  constructor
  · rintro pre ⟨post, rfl⟩ hpart
    rw [List.flatten_append] at hsegs
    have hpost : post.flatten ≠ [] := by
      intro hnil
      rw [hnil, List.append_nil] at hsegs
      exact hpart hsegs
    have hgo := hopen pre.flatten post.flatten hsegs.symm hpost
    have hrun : run (HttpFetch.ingest_chunked_bytes dec) s pre =
        s.apply_walk dec (chunk_walk s.chunkPos pre.flatten) := by
      apply run_ingest
      intro xs rest hsplit hr
      exact hopen xs (rest ++ post.flatten) (by rw [← hsegs, hsplit, List.append_assoc]) (by simp [hr])
    rw [hrun, apply_walk_going dec s _ hgo, push_bytes_eq]
    exact ⟨hs.fetch_open, rfl⟩
  · rw [run_ingest dec (fun xs rest hsplit hr => hopen xs rest (hsegs.symm.trans hsplit) hr), hsegs,
      hs.pos, walk_wire]
    unfold HttpFetch.apply_walk
    dsimp only
    rw [hs.push]
    rfl

/-- "hello" in two chunks, the first with an extension, and a trailer line. -/
def hello : Message where
  chunks :=
    [⟨ascii "hel", ascii "3", ascii ";last=no", by decide, by decide, by decide,
        .inr (by decide), by decide, by decide⟩,
      ⟨ascii "lo", ascii "2", [], by decide, by decide, by decide, .inl rfl, by decide, by decide⟩]
  trailers := [⟨ascii "Expires: 0", by decide, by decide, by decide⟩]

/-- The message in two calls, cut between the CR and the LF behind the first chunk. -/
theorem hello_round_trip :
    (HttpFetch.fresh 0).AtBody ∧ (hello.wire.take 17 :: [hello.wire.drop 17]).flatten = hello.wire ∧
      run (HttpFetch.ingest_chunked_bytes .refuse) (.fresh 0) (hello.wire.take 17 :: [hello.wire.drop 17]) =
        HttpFetch.finish_fetch .refuse
          { HttpFetch.fresh 0 with
            page := hello.body.take PAGE_CAP
            page_truncated := decide (PAGE_CAP < hello.body.length)
            chunk_phase := .Trailers
            chunk_line := [] } := by
  have hsegs : (hello.wire.take 17 :: [hello.wire.drop 17]).flatten = hello.wire := by
    rw [List.flatten_cons, List.flatten_singleton, List.take_append_drop]
  exact ⟨⟨rfl, rfl, rfl, rfl, rfl⟩, hsegs,
    (chunked_round_trip .refuse ⟨rfl, rfl, rfl, rfl, rfl⟩ hello _ hsegs).2⟩

end EveOS.Net
