/-
The chunked decoder without the page.

`chunk_byte` mixes three things: the framing (which phase the decoder is in and
what the current line holds), the bytes that go to the page, and the way the
body ends. `chunk_next` is the framing alone, a function of the phase and the
line; `chunk_walk` runs it over a string and collects the data bytes and the
reason it stopped. `ingest_chunked_bytes_eq` says that the decoder is the walk
followed by pushing the data and acting on the reason. Everything about chunked
bodies is proved of the walk.
-/
import EveOS.Net.Ingest

set_option autoImplicit false

namespace EveOS.Net

/-! ## Pushing bytes -/

/-- `page_push_byte` over a string: what fits goes to the page, and the flag
records that something did not. -/
def HttpFetch.push_bytes (s : HttpFetch) (out : Bytes) : HttpFetch :=
  out.foldl HttpFetch.page_push_byte s

@[simp] theorem push_bytes_nil (s : HttpFetch) : s.push_bytes [] = s := rfl

theorem push_bytes_cons (s : HttpFetch) (b : UInt8) (out : Bytes) :
    s.push_bytes (b :: out) = (s.page_push_byte b).push_bytes out := rfl

theorem push_bytes_append (s : HttpFetch) (out more : Bytes) :
    s.push_bytes (out ++ more) = (s.push_bytes out).push_bytes more := by
  simp only [HttpFetch.push_bytes, List.foldl_append]

/-- The page and the flag after a push; nothing else changes. -/
theorem push_bytes_eq (s : HttpFetch) (out : Bytes) :
    s.push_bytes out =
      { s with
        page := s.page ++ out.take (PAGE_CAP - s.page.length)
        page_truncated := s.page_truncated || decide (PAGE_CAP - s.page.length < out.length) } := by
  induction out generalizing s with
  | nil => simp
  | cons b out ih =>
    rw [push_bytes_cons, ih]
    unfold HttpFetch.page_push_byte
    by_cases h : s.page.length < PAGE_CAP
    · -- the byte fits: one less is free for the rest
      obtain ⟨room, hroom⟩ : ∃ room, PAGE_CAP - s.page.length = room + 1 :=
        ⟨PAGE_CAP - s.page.length - 1, by omega⟩
      have hrest : PAGE_CAP - (s.page ++ [b]).length = room := by
        simp only [List.length_append, List.length_singleton]
        omega
      simp only [if_pos h, hrest, hroom, List.take_succ_cons, List.append_assoc,
        List.singleton_append, List.length_cons, Nat.add_lt_add_iff_right]
    · -- the page is full, and stays as it is
      have hroom : PAGE_CAP - s.page.length = 0 := by omega
      simp only [if_neg h, hroom, List.take_zero, List.append_nil, List.length_cons,
        Nat.zero_lt_succ, decide_true, Bool.or_true, Bool.true_or]

/-! ## The framing -/

/-- Where the decoder stands: its phase and the line read so far. -/
structure ChunkPos where
  phase : ChunkDecodePhase
  line : Bytes
  deriving DecidableEq, Repr

/-- The position in front of a body. -/
def ChunkPos.start : ChunkPos := ⟨.SizeLine, []⟩

/-- Why the decoder stops. `stray` is the `_ => return` of the source, which no
run reaches. -/
inductive ChunkStop
  | finished
  | bad_size
  | bad_crlf
  | stray
  deriving DecidableEq, Repr

/-- What one byte does to the framing. -/
inductive ChunkMove
  | go (c : ChunkPos)
  | put (c : ChunkPos)
  | stop (c : ChunkPos) (r : ChunkStop)
  deriving DecidableEq, Repr

/-- The line buffer keeps the first 24 bytes of a line, without its `\r`. -/
def line_push (line : Bytes) (b : UInt8) : Bytes :=
  if b ≠ 13 ∧ line.length < CHUNK_LINE_CAP then line ++ [b] else line

/-- A byte of a chunk-size line. -/
def size_next (line : Bytes) (b : UInt8) : ChunkMove :=
  if b = 10 then
    match parse_chunk_size_line line with
    | none => .stop ⟨.SizeLine, line⟩ .bad_size
    | some 0 => .go ⟨.Trailers, []⟩
    | some size => .go ⟨.Data size, []⟩
  else .go ⟨.SizeLine, line_push line b⟩

/-- A byte behind a chunk's data. -/
def after_next (line : Bytes) (step : Nat) (b : UInt8) : ChunkMove :=
  match step with
  | 0 =>
    if b = 13 then .go ⟨.AfterData 1, line⟩
    else if b = 10 then .go ⟨.SizeLine, line⟩
    else .stop ⟨.AfterData 0, line⟩ .bad_crlf
  | 1 => if b = 10 then .go ⟨.SizeLine, line⟩ else .stop ⟨.AfterData 1, line⟩ .bad_crlf
  | step => .stop ⟨.AfterData step, line⟩ .stray

/-- A byte of the trailer section. -/
def trailer_next (line : Bytes) (b : UInt8) : ChunkMove :=
  if b = 10 then
    if line = [] then .stop ⟨.Trailers, line⟩ .finished else .go ⟨.Trailers, []⟩
  else .go ⟨.Trailers, line_push line b⟩

/-- One byte of a chunked body, as far as the framing goes. -/
def chunk_next (c : ChunkPos) (b : UInt8) : ChunkMove :=
  match c.phase with
  | .SizeLine => size_next c.line b
  | .Data 0 => after_next c.line 0 b
  | .Data (n + 1) => .put ⟨if n = 0 then .AfterData 0 else .Data n, c.line⟩
  | .AfterData step => after_next c.line step b
  | .Trailers => trailer_next c.line b

/-! ## The decoder is the framing and its effects -/

def HttpFetch.chunkPos (s : HttpFetch) : ChunkPos := ⟨s.chunk_phase, s.chunk_line⟩

/-- The decoder at another position. -/
def HttpFetch.moveTo (s : HttpFetch) (c : ChunkPos) : HttpFetch :=
  { s with chunk_phase := c.phase, chunk_line := c.line }

/-- What the decoder does when it stops. -/
def HttpFetch.chunk_stop (dec : Decoders) (s : HttpFetch) : ChunkStop → HttpFetch
  | .finished => s.finish_fetch dec
  | .bad_size => s.set_err "HTTP CHUNK SZ"
  | .bad_crlf => s.set_err "HTTP CHUNK CRLF"
  | .stray => s

/-- What the decoder does about a move. -/
def HttpFetch.chunk_act (dec : Decoders) (s : HttpFetch) (b : UInt8) : ChunkMove → HttpFetch × Bool
  | .go c => (s.moveTo c, true)
  | .put c => ((s.page_push_byte b).moveTo c, true)
  | .stop c r => ((s.moveTo c).chunk_stop dec r, false)

theorem chunk_line_push_eq (s : HttpFetch) (b : UInt8) :
    s.chunk_line_push b = s.moveTo ⟨s.chunk_phase, line_push s.chunk_line b⟩ := by
  unfold HttpFetch.chunk_line_push line_push
  split_ifs <;> rfl

theorem chunk_byte_eq (dec : Decoders) (s : HttpFetch) (b : UInt8) :
    s.chunk_byte dec b = s.chunk_act dec b (chunk_next s.chunkPos b) := by
  unfold HttpFetch.chunk_byte chunk_next
  -- the position stays what it is wherever the source does not assign it
  have hself : ∀ p, s.chunk_phase = p → s.moveTo ⟨p, s.chunk_line⟩ = s := by
    rintro p rfl
    rfl
  cases hp : s.chunk_phase with
  | SizeLine =>
    simp only [HttpFetch.chunkPos, hp, HttpFetch.chunk_size_byte, size_next]
    by_cases hb : b = 10
    · simp only [if_pos hb]
      cases parse_chunk_size_line s.chunk_line with
      | none => simp only [HttpFetch.chunk_act, HttpFetch.chunk_stop, hself _ hp]
      | some n => cases n <;> rfl
    · simp only [if_neg hb, chunk_line_push_eq, hp, HttpFetch.chunk_act]
  | Data n =>
    cases n with
    | zero =>
      simp only [HttpFetch.chunkPos, hp, HttpFetch.chunk_after_byte, after_next]
      split_ifs <;> rfl
    | succ n =>
      simp only [HttpFetch.chunkPos, hp, HttpFetch.chunk_act, HttpFetch.page_push_byte]
      split_ifs <;> rfl
  | AfterData step =>
    simp only [HttpFetch.chunkPos, hp, HttpFetch.chunk_after_byte, after_next]
    rcases step with _ | _ | step
    · split_ifs <;> simp only [HttpFetch.chunk_act, HttpFetch.chunk_stop, hself _ hp] <;> rfl
    · split_ifs <;> simp only [HttpFetch.chunk_act, HttpFetch.chunk_stop, hself _ hp] <;> rfl
    · simp only [HttpFetch.chunk_act, HttpFetch.chunk_stop, hself _ hp]
  | Trailers =>
    simp only [HttpFetch.chunkPos, hp, HttpFetch.chunk_trailer_byte, trailer_next]
    split_ifs
    · simp only [HttpFetch.chunk_act, HttpFetch.chunk_stop, hself _ hp]
    · simp only [HttpFetch.chunk_act, HttpFetch.moveTo]
    · simp only [chunk_line_push_eq, hp, HttpFetch.chunk_act]

/-! ## Walking over a string -/

/-- What a walk finds: where it ends, the data bytes, and why it stopped. -/
structure ChunkWalk where
  pos : ChunkPos
  out : Bytes
  stop : Option ChunkStop
  deriving DecidableEq, Repr

/-- The framing over a string. -/
def chunk_walk (c : ChunkPos) : Bytes → ChunkWalk
  | [] => ⟨c, [], none⟩
  | b :: rest =>
    match chunk_next c b with
    | .go c' => chunk_walk c' rest
    | .put c' => { chunk_walk c' rest with out := b :: (chunk_walk c' rest).out }
    | .stop c' r => ⟨c', [], some r⟩

@[simp] theorem chunk_walk_nil (c : ChunkPos) : chunk_walk c [] = ⟨c, [], none⟩ := rfl

/-- A walk that has not stopped goes on from where it is. -/
theorem chunk_walk_append (c : ChunkPos) (xs ys : Bytes) (h : (chunk_walk c xs).stop = none) :
    chunk_walk c (xs ++ ys) =
      { chunk_walk (chunk_walk c xs).pos ys with
        out := (chunk_walk c xs).out ++ (chunk_walk (chunk_walk c xs).pos ys).out } := by
  induction xs generalizing c with
  | nil => rfl
  | cons b xs ih =>
    simp only [List.cons_append, chunk_walk] at h ⊢
    cases hm : chunk_next c b with
    | go c' =>
      rw [hm] at h
      exact ih c' h
    | put c' =>
      rw [hm] at h
      simp only [ih c' h, List.cons_append]
    | stop c' r =>
      rw [hm] at h
      cases h

/-- A walk that has stopped does not look at the rest. -/
theorem chunk_walk_append_stop (c : ChunkPos) (xs ys : Bytes) {r : ChunkStop}
    (h : (chunk_walk c xs).stop = some r) : chunk_walk c (xs ++ ys) = chunk_walk c xs := by
  induction xs generalizing c with
  | nil => cases h
  | cons b xs ih =>
    simp only [List.cons_append, chunk_walk] at h ⊢
    cases hm : chunk_next c b with
    | go c' =>
      rw [hm] at h
      exact ih c' h
    | put c' =>
      rw [hm] at h
      simp only [ih c' h]
    | stop c' r => rfl

/-- What the decoder does about a walk. -/
def HttpFetch.apply_walk (dec : Decoders) (s : HttpFetch) (w : ChunkWalk) : HttpFetch :=
  match w.stop with
  | none => (s.push_bytes w.out).moveTo w.pos
  | some r => ((s.push_bytes w.out).moveTo w.pos).chunk_stop dec r

theorem page_push_byte_moveTo (s : HttpFetch) (b : UInt8) (c : ChunkPos) :
    (s.moveTo c).page_push_byte b = (s.page_push_byte b).moveTo c := by
  unfold HttpFetch.page_push_byte HttpFetch.moveTo
  split_ifs <;> rfl

theorem push_bytes_moveTo (s : HttpFetch) (out : Bytes) (c : ChunkPos) :
    (s.moveTo c).push_bytes out = (s.push_bytes out).moveTo c := by
  induction out generalizing s with
  | nil => rfl
  | cons b out ih => rw [push_bytes_cons, page_push_byte_moveTo, ih, push_bytes_cons]

theorem apply_walk_moveTo (dec : Decoders) (s : HttpFetch) (c : ChunkPos) (w : ChunkWalk) :
    (s.moveTo c).apply_walk dec w = s.apply_walk dec w := by
  unfold HttpFetch.apply_walk
  rw [push_bytes_moveTo]
  rfl

/-- **The chunked decoder is a walk and its effects.** -/
theorem ingest_chunked_bytes_eq (dec : Decoders) (s : HttpFetch) (data : Bytes) :
    s.ingest_chunked_bytes dec data = s.apply_walk dec (chunk_walk s.chunkPos data) := by
  induction data generalizing s with
  | nil => rfl
  | cons b rest ih =>
    simp only [HttpFetch.ingest_chunked_bytes, chunk_byte_eq, chunk_walk]
    cases hm : chunk_next s.chunkPos b with
    | go c =>
      simp only [HttpFetch.chunk_act]
      rw [ih]
      exact apply_walk_moveTo dec s c _
    | put c =>
      simp only [HttpFetch.chunk_act]
      rw [ih]
      exact apply_walk_moveTo dec (s.page_push_byte b) c _
    | stop c r => rfl

end EveOS.Net
