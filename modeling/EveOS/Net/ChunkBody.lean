/-
The chunked decoder and the chunked transfer coding.

The decoder keeps the first 24 bytes of a size line and reads an empty one as
zero. Where that makes no difference (`sizes_ok`), it finishes exactly behind
the bodies of the grammar in `Lib/Chunked`, and the bytes it hands on are the
body: `walk_sound` and `walk_complete`.
-/
import EveOS.Lib.Chunked
import EveOS.Net.Chunk

set_option autoImplicit false

namespace EveOS.Net

/-- The size a size line states: it starts with a digit, and digits count up to
a `;` or a blank. -/
def chunk_size (text : Bytes) : Option Nat :=
  match text with
  | [] => none
  | b :: _ => if (hex_digit b).isSome then parse_chunk_size_line text else none

/-- The whole text of the current size line, behind one more byte. -/
def full_push (c : ChunkPos) (full : Bytes) (b : UInt8) : Bytes :=
  if c.phase = .SizeLine ∧ b ≠ 10 then full ++ lineText [b] else []

/-- Every size line the decoder reads has the size that its first 24 bytes
have. `full` is the whole text of the current line. -/
def sizes_ok (c : ChunkPos) (full : Bytes) : Bytes → Bool
  | [] => true
  | b :: rest =>
    (if c.phase = .SizeLine ∧ b = 10 then
      decide (parse_chunk_size_line c.line = chunk_size full)
    else true)
    && (match chunk_next c b with
      | .go c' => sizes_ok c' (full_push c full b) rest
      | .put c' => sizes_ok c' (full_push c full b) rest
      | .stop _ _ => true)

/-! ## Soundness -/

/-- What is left of a body behind the data of a chunk. -/
def EndsChunk (step : Nat) (wire body : Bytes) : Prop :=
  ∃ sep rest, wire = sep ++ rest ∧ ChunkEnd ((List.replicate step 13) ++ sep)
    ∧ Chunked chunk_size rest body

/-- `wire` is what is left of a body at position `c`, and `body` the data in it. -/
def Completes (c : ChunkPos) (full : Bytes) (wire body : Bytes) : Prop :=
  match c.phase with
  | .SizeLine => ∀ front, 10 ∉ front → lineText front = full →
      Chunked chunk_size (front ++ wire) body
  | .Data n => ∃ data more rest, wire = data ++ more ∧ data.length = n ∧ body = data ++ rest
      ∧ EndsChunk 0 more rest
  | .AfterData step => EndsChunk step wire body
  | .Trailers => body = [] ∧ ∀ front, 10 ∉ front → (lineText front = [] ↔ c.line = []) →
      Trailers (front ++ wire)

theorem line_push_eq_nil (line : Bytes) (b : UInt8) :
    line_push line b = [] ↔ line = [] ∧ b = 13 := by
  unfold line_push
  split_ifs with h
  · simp [h.1]
  · rw [not_and_or, not_not] at h
    constructor
    · intro hl
      refine ⟨hl, h.resolve_right ?_⟩
      rw [hl]
      exact fun hn => hn (Nat.zero_lt_succ _)
    · exact fun hl => hl.1

theorem lineText_concat_eq_nil (front : Bytes) (b : UInt8) :
    lineText (front ++ [b]) = [] ↔ lineText front = [] ∧ b = 13 := by
  rw [lineText_append, List.append_eq_nil_iff, lineText_singleton]
  by_cases h : b = 13 <;> simp [h]

/-- The decoder's move, read backwards: what completes the body behind the byte
completes it from in front of it. -/
theorem completes_size {line full : Bytes} {b : UInt8} {c' : ChunkPos} {wire body : Bytes}
    (hm : size_next line b = .go c')
    (hs : b = 10 → parse_chunk_size_line line = chunk_size full)
    (h : Completes c' (full_push ⟨.SizeLine, line⟩ full b) wire body) :
    Completes ⟨.SizeLine, line⟩ full (b :: wire) body := by
  intro front hfront htext
  unfold size_next at hm
  by_cases hb : b = 10
  · subst hb
    have hsize := hs rfl
    rw [if_pos rfl, hsize] at hm
    cases hfull : chunk_size full with
    | none => rw [hfull] at hm; cases hm
    | some n =>
      rw [hfull] at hm
      cases n with
      | zero =>
        simp only [ChunkMove.go.injEq] at hm
        subst hm
        obtain ⟨rfl, htrail⟩ := h
        refine .last hfront ?_ ?_
        · rw [htext]; exact hfull
        · exact htrail [] (by simp) (by simp)
      | succ n =>
        simp only [ChunkMove.go.injEq] at hm
        subst hm
        obtain ⟨data, more, rest, rfl, hlen, rfl, sep, tail, rfl, hend, hrest⟩ := h
        refine .chunk hfront ?_ ?_ hend hrest
        · rw [htext, hlen]; exact hfull
        · rintro rfl
          cases hlen
  · rw [if_neg hb] at hm
    simp only [ChunkMove.go.injEq] at hm
    subst hm
    have hnext := h (front ++ [b])
    rw [List.append_assoc, List.singleton_append] at hnext
    refine hnext ?_ ?_
    · simp only [List.mem_append, List.mem_singleton, not_or]
      exact ⟨hfront, fun h => hb h.symm⟩
    · rw [lineText_append, htext]
      unfold full_push
      rw [if_pos ⟨rfl, hb⟩]

theorem completes_after {line full : Bytes} {step : Nat} {b : UInt8} {c' : ChunkPos}
    {wire body : Bytes} (hm : after_next line step b = .go c') (hline : line = [])
    (h : Completes c' [] wire body) : Completes ⟨.AfterData step, line⟩ full (b :: wire) body := by
  subst hline
  -- after a line break a size line starts, with nothing read of it
  have hstart : Completes ⟨.SizeLine, []⟩ [] wire body → Chunked chunk_size wire body := by
    intro hc
    simpa using hc [] (by simp) rfl
  match step with
  | 0 =>
    simp only [after_next] at hm
    split_ifs at hm with h13 h10
    · simp only [ChunkMove.go.injEq] at hm
      subst hm h13
      obtain ⟨sep, rest, rfl, hend, hrest⟩ := h
      exact ⟨13 :: sep, rest, rfl, hend, hrest⟩
    · simp only [ChunkMove.go.injEq] at hm
      subst hm h10
      exact ⟨[10], wire, rfl, .inl rfl, hstart h⟩
  | 1 =>
    simp only [after_next] at hm
    split_ifs at hm with h10
    simp only [ChunkMove.go.injEq] at hm
    subst hm h10
    exact ⟨[10], wire, rfl, .inr rfl, hstart h⟩
  | step + 2 => cases hm

theorem completes_trailer {line full : Bytes} {b : UInt8} {c' : ChunkPos} {wire body : Bytes}
    (hm : trailer_next line b = .go c') (h : Completes c' [] wire body) :
    Completes ⟨.Trailers, line⟩ full (b :: wire) body := by
  unfold trailer_next at hm
  split_ifs at hm with hb hl
  · simp only [ChunkMove.go.injEq] at hm
    subst hm hb
    obtain ⟨rfl, htrail⟩ := h
    refine ⟨rfl, fun front hfront htext => ?_⟩
    refine .field hfront (fun hnil => hl (htext.mp hnil)) ?_
    exact htrail [] (by simp) (by simp)
  · simp only [ChunkMove.go.injEq] at hm
    subst hm
    obtain ⟨rfl, htrail⟩ := h
    refine ⟨rfl, fun front hfront htext => ?_⟩
    have hnext := htrail (front ++ [b])
    rw [List.append_assoc, List.singleton_append] at hnext
    refine hnext ?_ ?_
    · simp only [List.mem_append, List.mem_singleton, not_or]
      exact ⟨hfront, fun h => hb h.symm⟩
    · rw [lineText_concat_eq_nil, htext, line_push_eq_nil]

/-- Outside size lines and trailers the line buffer is empty. -/
def ChunkPos.Clean (c : ChunkPos) : Prop :=
  match c.phase with
  | .Data _ | .AfterData _ => c.line = []
  | _ => True

theorem clean_next {c c' : ChunkPos} {b : UInt8} (h : c.Clean)
    (hm : chunk_next c b = .go c' ∨ chunk_next c b = .put c') : c'.Clean := by
  obtain ⟨phase, line⟩ := c
  unfold chunk_next at hm
  cases phase with
  | SizeLine =>
    simp only [size_next] at hm
    split_ifs at hm with hb
    · cases hs : parse_chunk_size_line line with
      | none => rw [hs] at hm; simp at hm
      | some n =>
        rw [hs] at hm
        cases n <;> simp only [ChunkMove.go.injEq, reduceCtorEq, or_false] at hm <;> subst hm
        · trivial
        · rfl
    · simp only [ChunkMove.go.injEq, or_false] at hm
      subst hm
      trivial
  | Data n =>
    have hl : line = [] := h
    cases n with
    | zero =>
      simp only [after_next] at hm
      split_ifs at hm <;> simp only [ChunkMove.go.injEq, or_false, or_self] at hm
      · subst hm; exact hl
      · subst hm; trivial
    | succ n =>
      simp only [ChunkMove.put.injEq, reduceCtorEq, false_or] at hm
      subst hm
      unfold ChunkPos.Clean
      split_ifs <;> exact hl
  | AfterData step =>
    have hl : line = [] := h
    rcases step with _ | _ | step
    · simp only [after_next] at hm
      split_ifs at hm <;> simp only [ChunkMove.go.injEq, or_false, or_self] at hm
      · subst hm; exact hl
      · subst hm; trivial
    · simp only [after_next] at hm
      split_ifs at hm <;> simp only [ChunkMove.go.injEq, or_false, or_self] at hm
      subst hm; trivial
    · simp [after_next] at hm
  | Trailers =>
    simp only [trailer_next] at hm
    split_ifs at hm <;> simp only [ChunkMove.go.injEq, or_false, or_self] at hm
    · subst hm; trivial
    · subst hm; trivial

/-- **Soundness.** Where the decoder finishes, a chunked body ends, and the data
it has handed on is that body. -/
theorem walk_sound {c : ChunkPos} {full : Bytes} {xs : Bytes} (hc : c.Clean)
    (hstop : (chunk_walk c xs).stop = some .finished) (hok : sizes_ok c full xs = true) :
    ∃ wire rest, xs = wire ++ rest ∧ Completes c full wire (chunk_walk c xs).out := by
  induction xs generalizing c full with
  | nil => cases hstop
  | cons b xs ih =>
    simp only [chunk_walk] at hstop ⊢
    simp only [sizes_ok, Bool.and_eq_true] at hok
    obtain ⟨hsize, hrest⟩ := hok
    cases hm : chunk_next c b with
    | go c' =>
      rw [hm] at hstop hrest
      obtain ⟨wire, rest, rfl, hcomp⟩ := ih (clean_next hc (.inl hm)) hstop hrest
      refine ⟨b :: wire, rest, rfl, ?_⟩
      dsimp only
      obtain ⟨phase, line⟩ := c
      unfold chunk_next at hm
      cases phase with
      | SizeLine =>
        refine completes_size hm ?_ hcomp
        intro hb
        rw [if_pos ⟨rfl, hb⟩] at hsize
        exact of_decide_eq_true hsize
      | Data n =>
        cases n with
        | zero =>
          have hafter : Completes ⟨.AfterData 0, line⟩ [] (b :: wire) _ :=
            completes_after hm hc hcomp
          exact ⟨[], b :: wire, _, rfl, rfl, rfl, hafter⟩
        | succ n => cases hm
      | AfterData step => exact completes_after hm hc hcomp
      | Trailers => exact completes_trailer hm hcomp
    | put c' =>
      rw [hm] at hstop hrest
      obtain ⟨wire, rest, rfl, hcomp⟩ := ih (clean_next hc (.inr hm)) hstop hrest
      refine ⟨b :: wire, rest, rfl, ?_⟩
      dsimp only
      obtain ⟨phase, line⟩ := c
      unfold chunk_next at hm
      cases phase with
      | SizeLine =>
        simp only [size_next] at hm
        split_ifs at hm
        cases hs : parse_chunk_size_line line with
        | none => rw [hs] at hm; cases hm
        | some n => rw [hs] at hm; cases n <;> cases hm
      | Data n =>
        cases n with
        | zero => simp only [after_next] at hm; split_ifs at hm
        | succ n =>
          simp only [ChunkMove.put.injEq] at hm
          subst hm
          by_cases hn : n = 0
          · subst hn
            exact ⟨[b], wire, _, rfl, rfl, rfl, hcomp⟩
          · rw [if_neg hn] at hcomp ⊢
            obtain ⟨data, more, tail, rfl, rfl, hbody, hend⟩ := hcomp
            exact ⟨b :: data, more, tail, rfl, rfl, by rw [hbody]; rfl, hend⟩
      | AfterData step =>
        rcases step with _ | _ | step
        · simp only [after_next] at hm; split_ifs at hm
        · simp only [after_next] at hm; split_ifs at hm
        · cases hm
      | Trailers => simp only [trailer_next] at hm; split_ifs at hm
    | stop c' r =>
      rw [hm] at hstop
      simp only [Option.some.injEq] at hstop
      subst hstop
      -- only the blank line behind the trailers finishes a body
      obtain ⟨phase, line⟩ := c
      unfold chunk_next at hm
      cases phase with
      | SizeLine =>
        simp only [size_next] at hm
        split_ifs at hm
        cases hs : parse_chunk_size_line line with
        | none => rw [hs] at hm; simp at hm
        | some n => rw [hs] at hm; cases n <;> cases hm
      | Data n =>
        cases n with
        | zero => simp only [after_next] at hm; split_ifs at hm; simp at hm
        | succ n => cases hm
      | AfterData step =>
        rcases step with _ | _ | step
        · simp only [after_next] at hm; split_ifs at hm; simp at hm
        · simp only [after_next] at hm; split_ifs at hm; simp at hm
        · simp [after_next] at hm
      | Trailers =>
        simp only [trailer_next] at hm
        split_ifs at hm with hb hl
        refine ⟨[b], xs, rfl, rfl, fun front hfront htext => ?_⟩
        rw [hb]
        exact .blank hfront (htext.mpr hl)

/-! ## Completeness -/

/-- The line buffer holds the first 24 bytes of the text. -/
theorem foldl_line_push (text line : Bytes) :
    line.foldl line_push (text.take CHUNK_LINE_CAP)
      = (text ++ lineText line).take CHUNK_LINE_CAP := by
  induction line generalizing text with
  | nil => simp
  | cons b line ih =>
    have hpush : line_push (text.take CHUNK_LINE_CAP) b
        = (text ++ lineText [b]).take CHUNK_LINE_CAP := by
      unfold line_push
      rw [lineText_singleton, List.length_take]
      by_cases hb : b = 13
      · simp [hb]
      · by_cases hl : text.length < CHUNK_LINE_CAP
        · rw [if_pos ⟨hb, by omega⟩, if_neg hb, List.take_of_length_le (by omega),
            List.take_of_length_le]
          rw [List.length_append, List.length_singleton]
          omega
        · rw [if_neg (by omega), if_neg hb, List.take_append_of_le_length (by omega)]
    rw [List.foldl_cons, hpush, ih, List.append_assoc, ← lineText_append]
    rfl

/-- Walking over a size line that does not end. -/
theorem walk_size_line {raw : Bytes} (hl : 10 ∉ raw) (line full xs : Bytes) :
    chunk_walk ⟨.SizeLine, line⟩ (raw ++ xs) = chunk_walk ⟨.SizeLine, raw.foldl line_push line⟩ xs
    ∧ sizes_ok ⟨.SizeLine, line⟩ full (raw ++ xs)
      = sizes_ok ⟨.SizeLine, raw.foldl line_push line⟩ (full ++ lineText raw) xs := by
  induction raw generalizing line full with
  | nil => simp
  | cons b raw ih =>
    have hb : b ≠ 10 := fun h => hl (by simp [h])
    obtain ⟨h₁, h₂⟩ := ih (fun h => hl (List.mem_cons_of_mem _ h)) (line_push line b)
      (full ++ lineText [b])
    have hnext : chunk_next ⟨.SizeLine, line⟩ b = .go ⟨.SizeLine, line_push line b⟩ := by
      simp only [chunk_next, size_next, if_neg hb]
    constructor
    · rw [List.cons_append, chunk_walk, hnext, List.foldl_cons]
      exact h₁
    · rw [List.cons_append, sizes_ok, hnext, List.foldl_cons]
      simp only [hb, and_false, if_false, Bool.true_and, full_push, ne_eq, not_false_eq_true,
        and_true, if_true]
      rw [h₂, List.append_assoc, ← lineText_append]
      rfl

/-- Walking over the data of a chunk. -/
theorem walk_data {data : Bytes} {n : Nat} (hn : data.length = n + 1) (xs : Bytes) :
    chunk_walk ⟨.Data (n + 1), []⟩ (data ++ xs)
      = { chunk_walk ⟨.AfterData 0, []⟩ xs with
          out := data ++ (chunk_walk ⟨.AfterData 0, []⟩ xs).out }
    ∧ sizes_ok ⟨.Data (n + 1), []⟩ [] (data ++ xs) = sizes_ok ⟨.AfterData 0, []⟩ [] xs := by
  induction data generalizing n with
  | nil => cases hn
  | cons b data ih =>
    simp only [List.length_cons, Nat.add_right_cancel_iff] at hn
    rw [List.cons_append, chunk_walk, sizes_ok]
    have hfull : full_push ⟨.Data (n + 1), []⟩ [] b = [] := by simp [full_push]
    rw [hfull]
    cases n with
    | zero =>
      have hnil : data = [] := List.length_eq_zero_iff.mp hn
      subst hnil
      simp [chunk_next]
    | succ n =>
      obtain ⟨h₁, h₂⟩ := ih hn
      simp only [chunk_next, Nat.succ_ne_zero, if_false, h₁, h₂]
      simp

/-- Walking over the line break behind the data. -/
theorem walk_end {sep : Bytes} (he : ChunkEnd sep) (xs : Bytes) :
    chunk_walk ⟨.AfterData 0, []⟩ (sep ++ xs) = chunk_walk .start xs
    ∧ sizes_ok ⟨.AfterData 0, []⟩ [] (sep ++ xs) = sizes_ok .start [] xs := by
  rcases he with rfl | rfl
  · simp [chunk_walk, sizes_ok, chunk_next, after_next, full_push, ChunkPos.start]
  · simp [chunk_walk, sizes_ok, chunk_next, after_next, full_push, ChunkPos.start]

/-- Walking over a trailer line that does not end. -/
theorem walk_trailer_line {raw : Bytes} (hl : 10 ∉ raw) (line xs : Bytes) :
    chunk_walk ⟨.Trailers, line⟩ (raw ++ xs)
      = chunk_walk ⟨.Trailers, raw.foldl line_push line⟩ xs := by
  induction raw generalizing line with
  | nil => rfl
  | cons b raw ih =>
    have hb : b ≠ 10 := fun h => hl (by simp [h])
    rw [List.cons_append, chunk_walk]
    simp only [chunk_next, trailer_next, if_neg hb]
    exact ih (fun h => hl (List.mem_cons_of_mem _ h)) (line_push line b)

theorem trailer_text (raw : Bytes) : raw.foldl line_push [] = (lineText raw).take CHUNK_LINE_CAP := by
  simpa using foldl_line_push [] raw

theorem walk_trailers {xs : Bytes} (h : Trailers xs) :
    chunk_walk ⟨.Trailers, []⟩ xs = ⟨⟨.Trailers, []⟩, [], some .finished⟩ := by
  induction h with
  | @blank line hl ht =>
    rw [walk_trailer_line hl, trailer_text, ht]
    simp [chunk_walk, chunk_next, trailer_next]
  | @field line rest hl ht hr ih =>
    have hne : (lineText line).take CHUNK_LINE_CAP ≠ [] := by
      simp only [ne_eq, List.take_eq_nil_iff, not_or]
      exact ⟨by decide, ht⟩
    rw [walk_trailer_line hl, trailer_text, chunk_walk]
    simp only [chunk_next, trailer_next, if_true, if_neg hne]
    exact ih

/-- At the end of a size line. -/
theorem walk_size_end {raw xs : Bytes} {n : Nat} (hl : 10 ∉ raw)
    (hs : chunk_size (lineText raw) = some n)
    (hok : sizes_ok .start [] (raw ++ 10 :: xs) = true) :
    chunk_walk .start (raw ++ 10 :: xs)
      = chunk_walk ⟨if n = 0 then .Trailers else .Data n, []⟩ xs
    ∧ sizes_ok ⟨if n = 0 then .Trailers else .Data n, []⟩ [] xs = true := by
  obtain ⟨h₁, h₂⟩ := walk_size_line hl [] [] (10 :: xs)
  rw [ChunkPos.start] at hok ⊢
  rw [h₁]
  rw [h₂, sizes_ok, List.nil_append] at hok
  simp only [and_self, if_true, Bool.and_eq_true, decide_eq_true_eq] at hok
  obtain ⟨hparse, hrest⟩ := hok
  rw [hs] at hparse
  have hfull : full_push ⟨.SizeLine, raw.foldl line_push []⟩ (lineText raw) 10 = [] := by
    simp [full_push]
  have hnext : chunk_next ⟨.SizeLine, raw.foldl line_push []⟩ 10
      = .go ⟨if n = 0 then .Trailers else .Data n, []⟩ := by
    simp only [chunk_next, size_next, if_true, hparse]
    cases n <;> simp
  rw [hnext, hfull] at hrest
  rw [chunk_walk, hnext]
  exact ⟨rfl, hrest⟩

/-- **Completeness.** The decoder finishes behind every chunked body, with its
data. -/
theorem walk_complete {wire body : Bytes} (h : Chunked chunk_size wire body)
    (hok : sizes_ok .start [] wire = true) :
    (chunk_walk .start wire).stop = some .finished ∧ (chunk_walk .start wire).out = body := by
  induction h with
  | last hl hs ht =>
    obtain ⟨hwalk, -⟩ := walk_size_end hl hs hok
    rw [hwalk, if_pos rfl, walk_trailers ht]
    exact ⟨rfl, rfl⟩
  | @chunk line data sep rest body hl hs hd he hr ih =>
    obtain ⟨n, hn⟩ : ∃ n, data.length = n + 1 :=
      ⟨data.length - 1, by have := List.length_pos_of_ne_nil hd; omega⟩
    obtain ⟨hwalk, hok'⟩ := walk_size_end hl hs hok
    rw [hn, if_neg (by omega)] at hwalk hok'
    obtain ⟨hdata, hokd⟩ := walk_data hn (sep ++ rest)
    obtain ⟨hend, hoke⟩ := walk_end he rest
    rw [hokd, hoke] at hok'
    obtain ⟨hstop, hout⟩ := ih hok'
    rw [hwalk, hdata, hend]
    exact ⟨hstop, by rw [hout]⟩

end EveOS.Net
