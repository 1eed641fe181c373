/-
The chunked decoder against the chunked coding as it is meant.

A size line is meant to start with a hexadecimal digit, and its digits go up to a `;` or a
blank. The line buffer drops every CR and keeps 24 bytes, and the digit loop takes an empty
line for zero. `LinesKept` says of an input that none of this matters for the lines that are
read, and there the decoder is sound. With digits that fit the buffer it is sound
nowhere else.
-/
import EveOS.Lib.ChunkReader
import EveOS.Net.ChunkEncode
import EveOS.Net.Framing

set_option autoImplicit false

namespace EveOS.Net

/-! ## What a line says -/

/-- The digits of a size line. -/
def size_token (raw : Bytes) : Bytes := (strip_cr raw).takeWhile fun b => !(b = 59 || isBlank b)

/-- The size a whole line states. -/
def stated_size (raw : Bytes) : Option Nat :=
  if size_token raw = [] then none else (hexNumber (size_token raw)).filter (· ≤ USIZE_MAX)

def empty_line (raw : Bytes) : Bool := strip_cr raw = []

/-! ## What the decoder makes of a line -/

/-- The line buffer behind a line. -/
def kept (raw : Bytes) : Bytes := raw.foldl line_push []

def kept_size (raw : Bytes) : Option Nat := parse_chunk_size_line (kept raw)

def kept_empty (raw : Bytes) : Bool := kept raw = []

/-- What the decoder reads, with its lines whole. -/
def chunk_reading (data : Bytes) : Reading := reader_read kept_size kept_empty (.size []) data

/-- Where the decoder stands. -/
def chunk_pos_of : ReaderPos → ChunkPos
  | .size raw => ⟨.SizeLine, kept raw⟩
  | .data n => ⟨.Data (n + 1), []⟩
  | .after cr => ⟨.AfterData (if cr then 1 else 0), []⟩
  | .trailer raw => ⟨.Trailers, kept raw⟩

def chunk_stop_of : ReaderStop → ChunkStop
  | .finished => .finished
  | .bad_size => .bad_size
  | .bad_end => .bad_crlf

@[simp] theorem kept_nil : kept [] = [] := rfl

theorem kept_concat (raw : Bytes) (b : UInt8) : kept (raw ++ [b]) = line_push (kept raw) b := by
  rw [kept, List.foldl_append]
  rfl

/-- **One byte of the decoder** is one byte of the reader. -/
theorem chunk_next_reader (p : ReaderPos) (b : UInt8) :
    (∀ q, reader_next kept_size kept_empty p b = .go q → chunk_next (chunk_pos_of p) b = .go (chunk_pos_of q)) ∧
    (∀ q, reader_next kept_size kept_empty p b = .put q → chunk_next (chunk_pos_of p) b = .put (chunk_pos_of q)) ∧
    (∀ e, reader_next kept_size kept_empty p b = .stop e →
      ∃ c, chunk_next (chunk_pos_of p) b = .stop c (chunk_stop_of e) ∧ (e = .finished → c = ⟨.Trailers, []⟩)) := by
  cases p with
  | size raw =>
    by_cases hb : b = 10
    · subst hb
      cases hs : kept_size raw with
      | none =>
        have hparse : parse_chunk_size_line (kept raw) = none := hs
        simp [reader_next, hs, chunk_pos_of, chunk_next, size_next, hparse, chunk_stop_of]
      | some n =>
        have hparse : parse_chunk_size_line (kept raw) = some n := hs
        cases n with
        | zero =>
          simp [reader_next, hs, chunk_pos_of, chunk_next, size_next, hparse]
        | succ n => simp [reader_next, hs, chunk_pos_of, chunk_next, size_next, hparse]
    · simp [reader_next, hb, chunk_pos_of, chunk_next, size_next, kept_concat]
  | data n =>
    cases n with
    | zero => simp [reader_next, chunk_pos_of, chunk_next]
    | succ n => simp [reader_next, chunk_pos_of, chunk_next]
  | after cr =>
    by_cases hb : b = 10
    · subst hb
      cases cr <;> simp [reader_next, chunk_pos_of, chunk_next, after_next]
    · by_cases h13 : b = 13
      · subst h13
        cases cr <;>
          simp [reader_next, chunk_pos_of, chunk_next, after_next, chunk_stop_of]
      · cases cr <;>
          simp [reader_next, hb, h13, chunk_pos_of, chunk_next, after_next, chunk_stop_of]
  | trailer raw =>
    by_cases hb : b = 10
    · subst hb
      by_cases hk : kept raw = []
      · simp [reader_next, kept_empty, hk, chunk_pos_of, chunk_next, trailer_next,
          chunk_stop_of]
      · simp [reader_next, kept_empty, hk, chunk_pos_of, chunk_next, trailer_next]
    · simp [reader_next, hb, chunk_pos_of, chunk_next, trailer_next, kept_concat]

/-- **The walk is the reading.** -/
theorem chunk_walk_reader (p : ReaderPos) (data : Bytes) :
    ∃ c, chunk_walk (chunk_pos_of p) data =
        ⟨c, (reader_read kept_size kept_empty p data).out,
          (reader_read kept_size kept_empty p data).stop.map chunk_stop_of⟩ ∧
      ((reader_read kept_size kept_empty p data).stop = some .finished → c = ⟨.Trailers, []⟩) := by
  induction data generalizing p with
  | nil =>
    refine ⟨chunk_pos_of p, rfl, ?_⟩
    intro h
    cases h
  | cons b rest ih =>
    obtain ⟨hgo, hput, hstop⟩ := chunk_next_reader p b
    cases hm : reader_next kept_size kept_empty p b with
    | go q =>
      obtain ⟨c, hwalk, hc⟩ := ih q
      rw [read_go hm]
      refine ⟨c, ?_, hc⟩
      rw [chunk_walk, hgo q hm]
      exact hwalk
    | put q =>
      obtain ⟨c, hwalk, hc⟩ := ih q
      rw [read_put hm]
      refine ⟨c, ?_, hc⟩
      rw [chunk_walk, hput q hm]
      dsimp only
      rw [hwalk]
    | stop e =>
      obtain ⟨c, hnext, hc⟩ := hstop e hm
      rw [read_stop hm]
      refine ⟨c, ?_, fun h => hc (Option.some.inj h)⟩
      rw [chunk_walk, hnext]
      rfl

/-! ## Calls -/

section Calls

variable (dec : Decoders) {s : HttpFetch}

/-- Segments of a chunked body are one walk. -/
theorem run_feed_chunked (h : s.InChunked)
    (hgo : ∀ data, (chunk_walk s.chunkPos data).stop ≠ some .stray) (segs : List Bytes) :
    run (HttpFetch.feed dec) s segs = s.apply_walk dec (chunk_walk s.chunkPos segs.flatten) := by
  induction segs generalizing s with
  | nil => rfl
  | cons seg segs ih =>
    rw [run_cons, feed_chunked dec h, List.flatten_cons]
    cases hstop : (chunk_walk s.chunkPos seg).stop with
    | none =>
      rw [apply_walk_append dec s seg segs.flatten hstop, apply_walk_going dec s _ hstop]
      refine ih ((h.push_bytes _).moveTo _) ?_
      intro data hstray
      have happend := chunk_walk_append s.chunkPos seg data hstop
      exact hgo (seg ++ data) ((congrArg ChunkWalk.stop happend).trans hstray)
    | some r =>
      have hr : r ≠ .stray := by
        rintro rfl
        exact hgo seg hstop
      have hdone : (s.apply_walk dec (chunk_walk s.chunkPos seg)).fetch_done = true := by
        unfold HttpFetch.apply_walk
        rw [hstop]
        exact chunk_stop_done dec _ hr
      rw [chunk_walk_append_stop _ _ _ hstop]
      generalize s.apply_walk dec (chunk_walk s.chunkPos seg) = t at hdone ⊢
      clear ih
      induction segs with
      | nil => rfl
      | cons seg' segs ih => rw [run_cons, feed_done dec hdone, ih]

/-- **A run of the decoder is what the reader finds, and its effects.** -/
theorem run_feed_reading (hs : s.AtBody) (hc : s.InChunked) (segs : List Bytes) :
    ∃ c, run (HttpFetch.feed dec) s segs =
        s.apply_walk dec
          ⟨c, (chunk_reading segs.flatten).out, (chunk_reading segs.flatten).stop.map chunk_stop_of⟩ ∧
      ((chunk_reading segs.flatten).stop = some .finished → c = ⟨.Trailers, []⟩) := by
  have hstart : s.chunkPos = chunk_pos_of (.size []) := hs.pos
  have hgo : ∀ data, (chunk_walk s.chunkPos data).stop ≠ some .stray := by
    intro data
    obtain ⟨c, hwalk, -⟩ := chunk_walk_reader (.size []) data
    rw [hstart, hwalk]
    rcases (reader_read kept_size kept_empty (.size []) data).stop with _ | _ | _ | _ <;>
      simp [chunk_stop_of]
  obtain ⟨c, hwalk, hc'⟩ := chunk_walk_reader (.size []) segs.flatten
  refine ⟨c, ?_, hc'⟩
  rw [run_feed_chunked dec hc hgo, hstart, hwalk]
  rfl

end Calls

/-! ## Lines that are read as they are -/

/-- What the decoder makes of every line it reads is what the whole line says. -/
def LinesKept (data : Bytes) : Prop :=
  ∀ l ∈ (chunk_reading data).lines, l.Agree kept_size stated_size kept_empty empty_line

instance (data : Bytes) : Decidable (LinesKept data) :=
  inferInstanceAs (Decidable (∀ l ∈ (chunk_reading data).lines, _))

/-- The digits of every size line fit the line buffer. -/
def DigitsFit (data : Bytes) : Prop :=
  ∀ raw, ReadLine.size raw ∈ (chunk_reading data).lines → (size_token raw).length ≤ CHUNK_LINE_CAP

/-- **The decoder is sound on an input.** Where it finishes, what it has consumed is a chunked
body, and the page holds the body as far as it goes. A size line that states no size is the
last thing it reads. -/
structure ChunkSound (dec : Decoders) (s : HttpFetch) (segs : List Bytes) : Prop where
  finished : (chunk_reading segs.flatten).stop = some .finished →
    ∃ body, ChunkedLines stated_size empty_line (chunk_reading segs.flatten).used body ∧
      run (HttpFetch.feed dec) s segs =
        HttpFetch.finish_fetch dec
          { s with
            page := body.take PAGE_CAP
            page_truncated := decide (PAGE_CAP < body.length)
            chunk_phase := .Trailers
            chunk_line := [] }
  bad_size : ∀ raw, ReadLine.size raw ∈ (chunk_reading segs.flatten).lines → stated_size raw = none →
    (chunk_reading segs.flatten).lines.getLast? = some (.size raw) ∧
      (run (HttpFetch.feed dec) s segs).fetch_done = true ∧
      (run (HttpFetch.feed dec) s segs).fetch_err = ascii "HTTP CHUNK SZ"

theorem lineText_strip_cr (raw : Bytes) : lineText (strip_cr raw) = lineText raw := by
  unfold strip_cr
  split_ifs with h
  · obtain ⟨front, rfl⟩ := List.getLast?_eq_some_iff.mp h
    rw [List.dropLast_concat, lineText_append, lineText_singleton, if_pos rfl, List.append_nil]
  · rfl

theorem lineText_of_no_cr {line : Bytes} (h : 13 ∉ line) : lineText line = line := by
  rw [lineText, List.filter_eq_self]
  intro b hb
  rw [bne_iff_ne]
  rintro rfl
  exact h hb

/-- The rest of a line behind its digits. -/
theorem size_token_split (raw : Bytes) :
    ∃ rest, strip_cr raw = size_token raw ++ rest ∧
      (rest = [] ∨ ∃ b more, rest = b :: more ∧ (b = 59 || isBlank b) = true) := by
  refine ⟨(strip_cr raw).dropWhile fun b => !(b = 59 || isBlank b), List.takeWhile_append_dropWhile.symm, ?_⟩
  cases hrest : (strip_cr raw).dropWhile fun b => !(b = 59 || isBlank b) with
  | nil => exact .inl rfl
  | cons b more =>
    have hstop := List.head?_dropWhile_not (fun b => !(b = 59 || isBlank b)) (strip_cr raw)
    rw [hrest] at hstop
    refine .inr ⟨b, more, rfl, ?_⟩
    exact Bool.not_eq_false' .. |>.mp hstop

/-- **A size that fits the buffer is read as it is stated.** -/
theorem kept_size_of_stated {raw : Bytes} {n : Nat} (hs : stated_size raw = some n)
    (hfit : (size_token raw).length ≤ CHUNK_LINE_CAP) : kept_size raw = some n := by
  unfold stated_size at hs
  split_ifs at hs
  obtain ⟨hnum, hle⟩ := Option.filter_eq_some_iff.mp hs
  obtain ⟨ds, hds, rfl⟩ := Option.map_eq_some_iff.mp hnum
  have hbound : hexFold 0 ds ≤ USIZE_MAX := of_decide_eq_true hle
  have hno : 13 ∉ size_token raw := by
    intro hmem
    have hsome := isSome_of_mapM_hexValue hds hmem
    cases hsome
  obtain ⟨rest, hsplit, hrest⟩ := size_token_split raw
  have hkept : kept raw = size_token raw ++ (lineText rest).take (CHUNK_LINE_CAP - (size_token raw).length) := by
    rw [kept, trailer_text, ← lineText_strip_cr, hsplit, lineText_append, lineText_of_no_cr hno,
      List.take_append, List.take_of_length_le hfit]
  have hclean : 13 ∉ kept raw := by
    rw [kept, trailer_text]
    intro hmem
    have hfilter := List.mem_of_mem_take hmem
    simp [lineText] at hfilter
  rw [kept_size, parse_chunk_size_line, strip_cr_of_no_cr hclean, hkept,
    parse_chunk_size_digits hds hbound]
  rcases hrest with rfl | ⟨b, more, rfl, hb⟩
  · rw [lineText_nil, List.take_nil, parse_chunk_size_from]
  · have h13 : b ≠ 13 := by
      rintro rfl
      cases hb
    have htext : lineText (b :: more) = b :: lineText more := by
      rw [← List.singleton_append, lineText_append, lineText_singleton, if_neg h13]
      rfl
    cases CHUNK_LINE_CAP - (size_token raw).length with
    | zero => rw [List.take_zero, parse_chunk_size_from]
    | succ k => rw [htext, List.take_succ_cons, parse_chunk_size_from, if_pos hb]

/-- A line that is empty without its line end is empty in the buffer. -/
theorem kept_empty_of_empty {raw : Bytes} (h : empty_line raw = true) : kept_empty raw = true := by
  have hnil : strip_cr raw = [] := of_decide_eq_true h
  have hkept : kept raw = [] := by
    rw [kept, trailer_text, ← lineText_strip_cr, hnil]
    rfl
  exact decide_eq_true hkept

/-! ## Soundness -/

section Sound

variable (dec : Decoders) {s : HttpFetch} {segs : List Bytes}

/-- **Where every line is read as it is, the decoder is sound.** -/
theorem sound_of_lines_kept (hs : s.AtBody) (hc : s.InChunked) (h : LinesKept segs.flatten) :
    ChunkSound dec s segs := by
  obtain ⟨c, hrun, hfin⟩ := run_feed_reading dec hs hc segs
  -- the reader of the stated sizes reads the same
  have hsame := read_congr h
  constructor
  · intro hstop
    have hstated : (reader_read stated_size empty_line (.size []) segs.flatten).stop = some .finished := by
      rw [hsame]
      exact hstop
    have hsound := read_sound (p := .size []) List.not_mem_nil hstated
    rw [hsame] at hsound
    refine ⟨_, hsound, ?_⟩
    rw [hrun, hstop, hfin hstop]
    unfold HttpFetch.apply_walk
    dsimp only [Option.map_some]
    rw [hs.push]
    rfl
  · intro raw hmem hnone
    have hsize : kept_size raw = none := by
      rw [← hnone]
      exact (h _ hmem).symm
    have hverdict : (ReadLine.size raw).verdict kept_size kept_empty = some .bad_size := by
      rw [ReadLine.verdict, if_pos hsize]
    obtain ⟨hstop, hlast⟩ := read_verdict hmem hverdict
    refine ⟨hlast, ?_⟩
    rw [hrun]
    change (chunk_reading segs.flatten).stop = _ at hstop
    rw [hstop]
    exact ⟨rfl, rfl⟩

/-- A size line that states nothing is not read as a number. -/
theorem kept_size_of_sound (hs : s.AtBody) (hc : s.InChunked) (h : ChunkSound dec s segs)
    {raw : Bytes} (hmem : ReadLine.size raw ∈ (chunk_reading segs.flatten).lines)
    (hnone : stated_size raw = none) : kept_size raw = none := by
  obtain ⟨c, hrun, -⟩ := run_feed_reading dec hs hc segs
  obtain ⟨hlast, hdone, herr⟩ := h.bad_size raw hmem hnone
  have hline : ∀ e, (chunk_reading segs.flatten).stop = some e → e ≠ .bad_end →
      (ReadLine.size raw).verdict kept_size kept_empty = some e := by
    intro e hstop he
    obtain ⟨l, hl, hverdict⟩ := read_last hstop he
    obtain rfl := Option.some.inj (hlast.symm.trans hl)
    exact hverdict
  by_contra hsome
  have hgo : (ReadLine.size raw).verdict kept_size kept_empty = none := by
    rw [ReadLine.verdict, if_neg hsome]
  cases hstop : (chunk_reading segs.flatten).stop with
  | none =>
    -- nothing has ended the fetch
    rw [hrun, hstop, Option.map_none, apply_walk_going dec s _ rfl, push_bytes_eq] at hdone
    exact absurd (hs.fetch_open.symm.trans hdone) (by decide)
  | some e =>
    by_cases he : e = .bad_end
    · -- another error has
      subst he
      rw [hrun, hstop] at herr
      change (ascii "HTTP CHUNK CRLF").take FETCH_ERR_CAP = _ at herr
      exact absurd herr (by decide)
    · rw [hline e hstop he] at hgo
      cases hgo

end Sound

end EveOS.Net
