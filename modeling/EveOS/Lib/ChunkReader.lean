/-
A reader of chunked bodies that keeps its lines whole.

What a size line says and which trailer line is the empty one are parameters, so
that two readers can be compared: they read alike as long as they agree on the
lines they read. The grammar of `ChunkedLines` has the same parameters, and the
reader finishes exactly at the end of a body.

Nothing in this file knows about the kernel.
-/
import EveOS.Lib.Chunked

set_option autoImplicit false

namespace EveOS

/-! ## The grammar -/

/-- A trailer section: lines up to and with a blank one. -/
inductive TrailerLines (blank : Bytes → Bool) : Bytes → Prop
  | last {line : Bytes} (hl : 10 ∉ line) (hb : blank line = true) : TrailerLines blank (line ++ [10])
  | field {line rest : Bytes} (hl : 10 ∉ line) (hb : blank line = false)
    (hr : TrailerLines blank rest) : TrailerLines blank (line ++ 10 :: rest)

/-- The bytes `wire` carry `body`. The lines are given without their LF. -/
inductive ChunkedLines (size : Bytes → Option Nat) (blank : Bytes → Bool) : Bytes → Bytes → Prop
  | last {line trailers : Bytes} (hl : 10 ∉ line) (hs : size line = some 0)
    (ht : TrailerLines blank trailers) : ChunkedLines size blank (line ++ 10 :: trailers) []
  | chunk {line data sep rest body : Bytes} (hl : 10 ∉ line) (hs : size line = some data.length)
    (hd : data ≠ []) (he : ChunkEnd sep) (hr : ChunkedLines size blank rest body) :
    ChunkedLines size blank (line ++ 10 :: (data ++ (sep ++ rest))) (data ++ body)

/-! ## The reader -/

/-- `size` and `trailer` have the line up to here, `data n` is in front of `n + 1` bytes, and
`after` knows whether a CR was read. -/
inductive ReaderPos
  | size (raw : Bytes)
  | data (n : Nat)
  | after (cr : Bool)
  | trailer (raw : Bytes)
  deriving DecidableEq

inductive ReaderStop
  | finished
  | bad_size
  | bad_end
  deriving DecidableEq

inductive ReaderMove
  | go (p : ReaderPos)
  | put (p : ReaderPos)
  | stop (r : ReaderStop)

/-- A line that was read to its end. -/
inductive ReadLine
  | size (raw : Bytes)
  | trailer (raw : Bytes)
  deriving DecidableEq

/-- The lines and the bytes that were read, the data in them, and why the reader stopped. -/
structure Reading where
  lines : List ReadLine
  used : Bytes
  out : Bytes
  stop : Option ReaderStop

section Reader

variable (size : Bytes → Option Nat) (blank : Bytes → Bool)

def reader_next : ReaderPos → UInt8 → ReaderMove
  | .size raw, b =>
    if b = 10 then
      match size raw with
      | none => .stop .bad_size
      | some 0 => .go (.trailer [])
      | some (n + 1) => .go (.data n)
    else .go (.size (raw ++ [b]))
  | .data 0, _ => .put (.after false)
  | .data (n + 1), _ => .put (.data n)
  | .after cr, b =>
    if b = 10 then .go (.size [])
    else if b = 13 ∧ cr = false then .go (.after true)
    else .stop .bad_end
  | .trailer raw, b =>
    if b = 10 then if blank raw then .stop .finished else .go (.trailer [])
    else .go (.trailer (raw ++ [b]))

/-- The line that ends with a byte. -/
def reader_line (p : ReaderPos) (b : UInt8) : List ReadLine :=
  if b = 10 then
    match p with
    | .size raw => [.size raw]
    | .trailer raw => [.trailer raw]
    | _ => []
  else []

def reader_read : ReaderPos → Bytes → Reading
  | _, [] => ⟨[], [], [], none⟩
  | p, b :: rest =>
    match reader_next size blank p b with
    | .go q =>
      let r := reader_read q rest
      { r with lines := reader_line p b ++ r.lines, used := b :: r.used }
    | .put q =>
      let r := reader_read q rest
      { r with lines := reader_line p b ++ r.lines, used := b :: r.used, out := b :: r.out }
    | .stop e => ⟨reader_line p b, [b], [], some e⟩

end Reader

variable {size size' : Bytes → Option Nat} {blank blank' : Bytes → Bool} {p q : ReaderPos} {b : UInt8}
  {xs : Bytes}

theorem read_go (h : reader_next size blank p b = .go q) (xs : Bytes) :
    reader_read size blank p (b :: xs) =
      { reader_read size blank q xs with
        lines := reader_line p b ++ (reader_read size blank q xs).lines
        used := b :: (reader_read size blank q xs).used } := by
  rw [reader_read, h]

theorem read_put (h : reader_next size blank p b = .put q) (xs : Bytes) :
    reader_read size blank p (b :: xs) =
      { reader_read size blank q xs with
        lines := reader_line p b ++ (reader_read size blank q xs).lines
        used := b :: (reader_read size blank q xs).used
        out := b :: (reader_read size blank q xs).out } := by
  rw [reader_read, h]

theorem read_stop {e : ReaderStop} (h : reader_next size blank p b = .stop e) (xs : Bytes) :
    reader_read size blank p (b :: xs) = ⟨reader_line p b, [b], [], some e⟩ := by
  rw [reader_read, h]

/-- The reader goes on behind a byte. -/
def GoesOn (size : Bytes → Option Nat) (blank : Bytes → Bool) (p : ReaderPos) (b : UInt8)
    (q : ReaderPos) : Prop :=
  reader_next size blank p b = .go q ∨ reader_next size blank p b = .put q

/-- **One byte of a reading**, up to the data in it. -/
theorem read_cases (size : Bytes → Option Nat) (blank : Bytes → Bool) (p : ReaderPos) (b : UInt8)
    (xs : Bytes) :
    (∃ q, GoesOn size blank p b q ∧
      (reader_read size blank p (b :: xs)).lines =
        reader_line p b ++ (reader_read size blank q xs).lines ∧
      (reader_read size blank p (b :: xs)).used = b :: (reader_read size blank q xs).used ∧
      (reader_read size blank p (b :: xs)).stop = (reader_read size blank q xs).stop) ∨
    ∃ e, reader_next size blank p b = .stop e ∧
      reader_read size blank p (b :: xs) = ⟨reader_line p b, [b], [], some e⟩ := by
  cases hm : reader_next size blank p b with
  | go q =>
    refine .inl ⟨q, .inl hm, ?_⟩
    rw [read_go hm]
    exact ⟨rfl, rfl, rfl⟩
  | put q =>
    refine .inl ⟨q, .inr hm, ?_⟩
    rw [read_put hm]
    exact ⟨rfl, rfl, rfl⟩
  | stop e => exact .inr ⟨e, rfl, read_stop hm xs⟩

theorem GoesOn.not_stop {e : ReaderStop} (h : GoesOn size blank p b q) :
    reader_next size blank p b ≠ .stop e := by
  intro hstop
  rcases h with h | h <;> rw [hstop] at h <;> cases h

/-- The bytes that were read are the first ones. -/
theorem read_used_prefix (p : ReaderPos) (xs : Bytes) : (reader_read size blank p xs).used <+: xs := by
  induction xs generalizing p with
  | nil => exact List.prefix_rfl
  | cons b xs ih =>
    rcases read_cases size blank p b xs with ⟨q, -, -, hused, -⟩ | ⟨e, -, hstop⟩
    · rw [hused]
      exact (List.prefix_cons_inj b).mpr (ih q)
    · rw [hstop]
      exact (List.prefix_cons_inj b).mpr List.nil_prefix

/-! ## Two readers -/

/-- The two say the same of a line. -/
def ReadLine.Agree (size size' : Bytes → Option Nat) (blank blank' : Bytes → Bool) : ReadLine → Prop
  | .size raw => size' raw = size raw
  | .trailer raw => blank' raw = blank raw

instance (l : ReadLine) : Decidable (l.Agree size size' blank blank') :=
  match l with
  | .size raw => inferInstanceAs (Decidable (size' raw = size raw))
  | .trailer raw => inferInstanceAs (Decidable (blank' raw = blank raw))

/-- Readers that agree on the line that ends here do the same. -/
theorem reader_next_congr (h : ∀ l ∈ reader_line p b, l.Agree size size' blank blank') :
    reader_next size' blank' p b = reader_next size blank p b := by
  by_cases hb : b = 10
  · subst hb
    cases p with
    | size raw =>
      have hsize : size' raw = size raw := h (.size raw) (by simp [reader_line])
      simp only [reader_next, hsize]
    | trailer raw =>
      have hblank : blank' raw = blank raw := h (.trailer raw) (by simp [reader_line])
      simp only [reader_next, hblank]
    | data n => cases n <;> rfl
    | after cr => rfl
  · cases p with
    | size raw => simp only [reader_next, if_neg hb]
    | trailer raw => simp only [reader_next, if_neg hb]
    | data n => cases n <;> rfl
    | after cr => rfl

/-- **Readers that agree on the lines of the first read alike.** -/
theorem read_congr (h : ∀ l ∈ (reader_read size blank p xs).lines, l.Agree size size' blank blank') :
    reader_read size' blank' p xs = reader_read size blank p xs := by
  induction xs generalizing p with
  | nil => rfl
  | cons b xs ih =>
    cases hm : reader_next size blank p b with
    | go q =>
      rw [read_go hm] at h ⊢
      dsimp only at h
      have hnext := reader_next_congr fun l hl => h l (List.mem_append_left _ hl)
      rw [read_go (hnext.trans hm), ih fun l hl => h l (List.mem_append_right _ hl)]
    | put q =>
      rw [read_put hm] at h ⊢
      dsimp only at h
      have hnext := reader_next_congr fun l hl => h l (List.mem_append_left _ hl)
      rw [read_put (hnext.trans hm), ih fun l hl => h l (List.mem_append_right _ hl)]
    | stop e =>
      rw [read_stop hm] at h ⊢
      rw [read_stop ((reader_next_congr h).trans hm)]

/-! ## Soundness -/

/-- A line that is being read has no LF in it. -/
def ReaderPos.Clean : ReaderPos → Prop
  | .size raw => 10 ∉ raw
  | .trailer raw => 10 ∉ raw
  | _ => True

/-- What stands behind the data of a chunk, when its CR was read or not. -/
def EndsChunkLines (size : Bytes → Option Nat) (blank : Bytes → Bool) (cr : Bool) (wire body : Bytes) :
    Prop :=
  ∃ sep rest, wire = sep ++ rest ∧ ChunkEnd ((if cr then [13] else []) ++ sep) ∧
    ChunkedLines size blank rest body

/-- `wire` is what is left of a body at a position, and `body` the data in it. -/
def RestOf (size : Bytes → Option Nat) (blank : Bytes → Bool) : ReaderPos → Bytes → Bytes → Prop
  | .size raw, wire, body => ChunkedLines size blank (raw ++ wire) body
  | .data n, wire, body =>
    ∃ data more rest, wire = data ++ more ∧ data.length = n + 1 ∧ body = data ++ rest ∧
      EndsChunkLines size blank false more rest
  | .after cr, wire, body => EndsChunkLines size blank cr wire body
  | .trailer raw, wire, body => body = [] ∧ TrailerLines blank (raw ++ wire)

theorem no_lf_concat {raw : Bytes} (h : 10 ∉ raw) (hb : b ≠ 10) : 10 ∉ raw ++ [b] := by
  rw [List.mem_append, List.mem_singleton, not_or]
  exact ⟨h, Ne.symm hb⟩

/-- **One byte, read backwards.** -/
theorem rest_of_next (wire body : Bytes) (hp : p.Clean) :
    (∀ q, reader_next size blank p b = .go q →
      q.Clean ∧ (RestOf size blank q wire body → RestOf size blank p (b :: wire) body)) ∧
    (∀ q, reader_next size blank p b = .put q →
      q.Clean ∧ (RestOf size blank q wire body → RestOf size blank p (b :: wire) (b :: body))) ∧
    (reader_next size blank p b = .stop .finished → RestOf size blank p [b] []) := by
  cases p with
  | size raw =>
    by_cases hb : b = 10
    · subst hb
      cases hs : size raw with
      | none => simp [reader_next, hs]
      | some n =>
        cases n with
        | zero =>
          simp only [reader_next, hs, if_true, ReaderMove.go.injEq, reduceCtorEq, false_implies,
            implies_true, and_true]
          rintro q rfl
          refine ⟨List.not_mem_nil, ?_⟩
          rintro ⟨rfl, ht⟩
          exact .last hp hs ht
        | succ n =>
          simp only [reader_next, hs, if_true, ReaderMove.go.injEq, reduceCtorEq, false_implies,
            implies_true, and_true]
          rintro q rfl
          refine ⟨trivial, ?_⟩
          rintro ⟨data, more, rest, rfl, hlen, rfl, sep, tail, rfl, hsep, htail⟩
          have hne : data ≠ [] := by
            rintro rfl
            cases hlen
          exact .chunk hp (hs.trans (congrArg some hlen.symm)) hne hsep htail
    · simp only [reader_next, if_neg hb, ReaderMove.go.injEq, reduceCtorEq, false_implies,
        implies_true, and_true]
      rintro q rfl
      refine ⟨no_lf_concat hp hb, ?_⟩
      intro h
      rw [RestOf, List.append_assoc, List.singleton_append] at h
      exact h
  | data n =>
    cases n with
    | zero =>
      simp only [reader_next, ReaderMove.put.injEq, reduceCtorEq, false_implies, implies_true,
        and_true, true_and]
      rintro q rfl
      exact ⟨trivial, fun h => ⟨[b], wire, body, rfl, rfl, rfl, h⟩⟩
    | succ n =>
      simp only [reader_next, ReaderMove.put.injEq, reduceCtorEq, false_implies, implies_true,
        and_true, true_and]
      rintro q rfl
      refine ⟨trivial, ?_⟩
      rintro ⟨data, more, rest, rfl, hlen, rfl, hends⟩
      exact ⟨b :: data, more, rest, rfl, by rw [List.length_cons, hlen], rfl, hends⟩
  | after cr =>
    by_cases hb : b = 10
    · subst hb
      simp only [reader_next, if_true, ReaderMove.go.injEq, reduceCtorEq, false_implies, implies_true,
        and_true]
      rintro q rfl
      refine ⟨List.not_mem_nil, ?_⟩
      intro h
      refine ⟨[10], wire, rfl, ?_, h⟩
      cases cr with
      | false => exact .inl rfl
      | true => exact .inr rfl
    · by_cases hcr : b = 13 ∧ cr = false
      · obtain ⟨rfl, rfl⟩ := hcr
        simp only [reader_next, if_neg hb, and_self, if_true, ReaderMove.go.injEq, reduceCtorEq,
          false_implies, implies_true, and_true]
        rintro q rfl
        refine ⟨trivial, ?_⟩
        rintro ⟨sep, rest, rfl, hsep, hrest⟩
        exact ⟨13 :: sep, rest, rfl, hsep, hrest⟩
      · simp only [reader_next, if_neg hb, if_neg hcr, reduceCtorEq, false_implies, implies_true,
          and_true, ReaderMove.stop.injEq]
  | trailer raw =>
    by_cases hb : b = 10
    · subst hb
      cases hblank : blank raw with
      | false =>
        simp only [reader_next, hblank, if_true, ReaderMove.go.injEq, reduceCtorEq, false_implies,
          implies_true, and_true, Bool.false_eq_true, if_false]
        rintro q rfl
        refine ⟨List.not_mem_nil, ?_⟩
        rintro ⟨rfl, ht⟩
        exact ⟨rfl, .field hp hblank ht⟩
      | true =>
        simp only [reader_next, hblank, if_true, reduceCtorEq, false_implies, implies_true, true_and,
          true_implies]
        exact ⟨rfl, .last hp hblank⟩
    · simp only [reader_next, if_neg hb, ReaderMove.go.injEq, reduceCtorEq, false_implies,
        implies_true, and_true]
      rintro q rfl
      refine ⟨no_lf_concat hp hb, ?_⟩
      rintro ⟨rfl, ht⟩
      rw [List.append_assoc, List.singleton_append] at ht
      exact ⟨rfl, ht⟩

/-- **Soundness.** Where the reader finishes, a body of the grammar ends, and the data it
has handed on is that body. -/
theorem read_sound (hp : p.Clean) (h : (reader_read size blank p xs).stop = some .finished) :
    RestOf size blank p (reader_read size blank p xs).used (reader_read size blank p xs).out := by
  induction xs generalizing p with
  | nil => cases h
  | cons b xs ih =>
    cases hm : reader_next size blank p b with
    | go q =>
      rw [read_go hm] at h ⊢
      obtain ⟨hq, hback⟩ := (rest_of_next _ _ hp).1 q hm
      exact hback (ih hq h)
    | put q =>
      rw [read_put hm] at h ⊢
      obtain ⟨hq, hback⟩ := (rest_of_next _ _ hp).2.1 q hm
      exact hback (ih hq h)
    | stop e =>
      rw [read_stop hm] at h ⊢
      obtain rfl := Option.some.inj h
      exact (rest_of_next [] [] hp).2.2 hm

/-! ## The lines of a reading -/

/-- Why a reader stops behind a line, where it does. -/
def ReadLine.verdict (size : Bytes → Option Nat) (blank : Bytes → Bool) : ReadLine → Option ReaderStop
  | .size raw => if size raw = none then some .bad_size else none
  | .trailer raw => if blank raw = true then some .finished else none

/-- A line that ends with this byte stops the reader, or it goes on. -/
theorem verdict_of_mem (size : Bytes → Option Nat) (blank : Bytes → Bool) {l : ReadLine}
    (h : l ∈ reader_line p b) :
    reader_line p b = [l] ∧
      (∀ e, l.verdict size blank = some e → reader_next size blank p b = .stop e) := by
  unfold reader_line at h ⊢
  by_cases hb : b = 10
  · subst hb
    rw [if_pos rfl] at h ⊢
    cases p with
    | size raw =>
      obtain rfl := List.mem_singleton.mp h
      refine ⟨rfl, ?_⟩
      intro e he
      rw [ReadLine.verdict] at he
      split_ifs at he with hs
      obtain rfl := Option.some.inj he
      simp only [reader_next, if_true, hs]
    | trailer raw =>
      obtain rfl := List.mem_singleton.mp h
      refine ⟨rfl, ?_⟩
      intro e he
      rw [ReadLine.verdict] at he
      split_ifs at he with hs
      obtain rfl := Option.some.inj he
      simp only [reader_next, if_true, hs]
    | data n => cases h
    | after cr => cases h
  · rw [if_neg hb] at h
    cases h

/-- Where the reader stops at a byte, a line says so, or the bytes behind the data of a chunk are
not those of a line end. -/
theorem stop_verdict {e : ReaderStop} (h : reader_next size blank p b = .stop e) (he : e ≠ .bad_end) :
    ∃ l, reader_line p b = [l] ∧ l.verdict size blank = some e := by
  cases p with
  | size raw =>
    by_cases hb : b = 10
    · subst hb
      cases hs : size raw with
      | none =>
        simp only [reader_next, if_true, hs, ReaderMove.stop.injEq] at h
        subst h
        exact ⟨.size raw, rfl, by simp [ReadLine.verdict, hs]⟩
      | some n => cases n <;> simp [reader_next, hs] at h
    · simp [reader_next, hb] at h
  | data n => cases n <;> simp [reader_next] at h
  | after cr =>
    simp only [reader_next] at h
    split_ifs at h
    exact absurd (ReaderMove.stop.inj h).symm he
  | trailer raw =>
    by_cases hb : b = 10
    · subst hb
      by_cases hblank : blank raw = true
      · simp only [reader_next, if_true, hblank, ReaderMove.stop.injEq] at h
        subst h
        exact ⟨.trailer raw, rfl, by simp [ReadLine.verdict, hblank]⟩
      · simp [reader_next, hblank] at h
    · simp [reader_next, hb] at h

theorem getLast?_append_of_some {l : ReadLine} {xs ys : List ReadLine} (h : ys.getLast? = some l) :
    (xs ++ ys).getLast? = some l := by
  rw [List.getLast?_append, h]
  rfl

/-- **A line that stops the reader** is the last one it reads. -/
theorem read_verdict {l : ReadLine} {e : ReaderStop} (h : l ∈ (reader_read size blank p xs).lines)
    (he : l.verdict size blank = some e) :
    (reader_read size blank p xs).stop = some e ∧
      (reader_read size blank p xs).lines.getLast? = some l := by
  induction xs generalizing p with
  | nil => cases h
  | cons b xs ih =>
    rcases read_cases size blank p b xs with ⟨q, hgo, hlines, -, hstop⟩ | ⟨e', hm, hread⟩
    · rw [hlines, List.mem_append] at h
      rcases h with hline | hrest
      · exact absurd ((verdict_of_mem size blank hline).2 e he) hgo.not_stop
      · obtain ⟨hend, hlast⟩ := ih hrest
        exact ⟨hstop.trans hend, by rw [hlines]; exact getLast?_append_of_some hlast⟩
    · rw [hread] at h ⊢
      obtain ⟨hline, hnext⟩ := verdict_of_mem size blank h
      rw [hnext e he] at hm
      obtain rfl := ReaderMove.stop.inj hm
      exact ⟨rfl, by rw [hline]; rfl⟩

/-- A reader that has stopped did so at its last line, or behind the data of a chunk. -/
theorem read_last {e : ReaderStop} (h : (reader_read size blank p xs).stop = some e)
    (he : e ≠ .bad_end) :
    ∃ l, (reader_read size blank p xs).lines.getLast? = some l ∧ l.verdict size blank = some e := by
  induction xs generalizing p with
  | nil => cases h
  | cons b xs ih =>
    rcases read_cases size blank p b xs with ⟨q, -, hlines, -, hstop⟩ | ⟨e', hm, hread⟩
    · obtain ⟨l, hlast, hl⟩ := ih (hstop.symm.trans h)
      exact ⟨l, by rw [hlines]; exact getLast?_append_of_some hlast, hl⟩
    · rw [hread] at h ⊢
      obtain rfl := Option.some.inj h
      obtain ⟨l, hline, hl⟩ := stop_verdict hm he
      exact ⟨l, by rw [hline]; rfl, hl⟩

/-! ## The last line of a body -/

/-- The last line of a string that ends with an LF. -/
def lastLine (wire : Bytes) : Bytes := (wire.dropLast.reverse.takeWhile (· != 10)).reverse

theorem lastLine_eq {pre line : Bytes} (h : 10 ∉ line) : lastLine (pre ++ 10 :: (line ++ [10])) = line := by
  have hsplit : pre ++ 10 :: (line ++ [10]) = (pre ++ 10 :: line) ++ [10] := by simp
  have hall : ∀ c ∈ line.reverse, (c != 10) = true := by
    intro c hc
    rw [bne_iff_ne]
    rintro rfl
    exact h (List.mem_reverse.mp hc)
  rw [lastLine, hsplit, List.dropLast_concat, List.reverse_append, List.reverse_cons, List.append_assoc,
    List.takeWhile_append_of_pos hall, List.singleton_append, List.takeWhile_cons_of_neg (by decide),
    List.append_nil, List.reverse_reverse]

theorem TrailerLines.last_line {wire : Bytes} (front : Bytes) (h : TrailerLines blank wire) :
    blank (lastLine (front ++ 10 :: wire)) = true := by
  induction h generalizing front with
  | last hl hb =>
    rw [lastLine_eq hl]
    exact hb
  | @field line rest hl hb hr ih =>
    have hsplit : front ++ 10 :: (line ++ 10 :: rest) = (front ++ 10 :: line) ++ 10 :: rest := by simp
    rw [hsplit]
    exact ih _

/-- A body ends with a blank line. -/
theorem ChunkedLines.last_line {wire body : Bytes} (front : Bytes) (h : ChunkedLines size blank wire body) :
    blank (lastLine (front ++ wire)) = true := by
  induction h generalizing front with
  | last hl hs ht =>
    rw [← List.append_assoc]
    exact ht.last_line _
  | @chunk line data sep rest body hl hs hd he hr ih =>
    have hsplit : front ++ (line ++ 10 :: (data ++ (sep ++ rest))) =
        (front ++ line ++ 10 :: (data ++ sep)) ++ rest := by simp
    rw [hsplit]
    exact ih _

/-- What a reader that goes on into a trailer line has read of it. -/
theorem next_trailer {front : Bytes} (h : GoesOn size blank p b (.trailer front)) :
    (b = 10 ∧ front = []) ∨ ∃ front', p = .trailer front' ∧ front = front' ++ [b] := by
  cases p with
  | size raw =>
    by_cases hb : b = 10
    · subst hb
      cases hs : size raw with
      | none => simp [GoesOn, reader_next, hs] at h
      | some n =>
        cases n with
        | zero =>
          simp only [GoesOn, reader_next, if_true, hs, ReaderMove.go.injEq, ReaderPos.trailer.injEq,
            reduceCtorEq, or_false] at h
          exact .inl ⟨rfl, h.symm⟩
        | succ n => simp [GoesOn, reader_next, hs] at h
    · simp [GoesOn, reader_next, hb] at h
  | data n => cases n <;> simp [GoesOn, reader_next] at h
  | after cr =>
    simp only [GoesOn, reader_next] at h
    split_ifs at h <;> simp at h
  | trailer raw =>
    by_cases hb : b = 10
    · subst hb
      by_cases hblank : blank raw = true
      · simp [GoesOn, reader_next, hblank] at h
      · simp only [GoesOn, reader_next, if_true, if_neg hblank, ReaderMove.go.injEq,
          ReaderPos.trailer.injEq, reduceCtorEq, or_false] at h
        exact .inl ⟨rfl, h.symm⟩
    · simp only [GoesOn, reader_next, if_neg hb, ReaderMove.go.injEq, ReaderPos.trailer.injEq,
        reduceCtorEq, or_false] at h
      exact .inr ⟨raw, rfl, h.symm⟩

theorem GoesOn.clean (h : GoesOn size blank p b q) (hp : p.Clean) : q.Clean := by
  rcases h with h | h
  · exact ((rest_of_next [] [] hp).1 q h).1
  · exact ((rest_of_next [] [] hp).2.1 q h).1

/-- The reader finishes at the LF of a trailer line. -/
theorem finished_at (h : reader_next size blank p b = .stop .finished) :
    ∃ raw, p = .trailer raw ∧ b = 10 := by
  cases p with
  | size raw =>
    simp only [reader_next] at h
    split_ifs at h
    cases hs : size raw with
    | none => simp [hs] at h
    | some n => cases n <;> simp [hs] at h
  | data n => cases n <;> simp [reader_next] at h
  | after cr =>
    simp only [reader_next] at h
    split_ifs at h
    cases h
  | trailer raw =>
    by_cases hb : b = 10
    · exact ⟨raw, rfl, hb⟩
    · simp [reader_next, hb] at h

/-- **The reader finishes with the last line** of what it has read. `wire` is what was read in
front of `xs`. -/
theorem read_finished (wire : Bytes) (hp : p.Clean)
    (h : (reader_read size blank p xs).stop = some .finished)
    (hw : ∀ front, p = .trailer front → ∃ pre, wire = pre ++ 10 :: front) :
    (reader_read size blank p xs).lines.getLast? =
      some (.trailer (lastLine (wire ++ (reader_read size blank p xs).used))) := by
  induction xs generalizing p wire with
  | nil => cases h
  | cons b xs ih =>
    rcases read_cases size blank p b xs with ⟨q, hgo, hlines, hused, hstop⟩ | ⟨e, hm, hread⟩
    · have hfront : ∀ front, q = .trailer front → ∃ pre, wire ++ [b] = pre ++ 10 :: front := by
        rintro front rfl
        rcases next_trailer hgo with ⟨rfl, rfl⟩ | ⟨front', rfl, rfl⟩
        · exact ⟨wire, rfl⟩
        · obtain ⟨pre, rfl⟩ := hw front' rfl
          exact ⟨pre, by simp⟩
      have hrest := ih (wire ++ [b]) (hgo.clean hp) (hstop.symm.trans h) hfront
      rw [List.append_assoc, List.singleton_append] at hrest
      rw [hlines, hused]
      exact getLast?_append_of_some hrest
    · rw [hread] at h ⊢
      obtain rfl := Option.some.inj h
      obtain ⟨raw, rfl, rfl⟩ := finished_at hm
      obtain ⟨pre, rfl⟩ := hw raw rfl
      rw [List.append_assoc, List.cons_append, lastLine_eq hp]
      rfl

end EveOS
