/-
No line splits a character.

In a well-formed document the cursor always stands between characters: every
piece is a character, or it ends with an ASCII byte or at the end. Only the bytes
of a style element that is never closed are taken without looking, and that
element is never left. What is written is a whole character each time, and a line
takes it whole or not at all, whatever the width is.
-/
import EveOS.Html.PlainText
import EveOS.Html.Skip
import EveOS.Html.Writes
import EveOS.Lib.Utf8

set_option autoImplicit false

namespace EveOS.Html

/-! ## Reading -/

/-- What a piece shows is a character. -/
def Piece.Whole : Piece → Prop
  | .char _ c => c < 0x80
  | .glyph _ bytes => WellFormed bytes
  | _ => True

section Reading

variable {rest : Bytes} {piece : Piece} {n : Nat}

/-- A piece that ends with an ASCII byte leaves characters behind it. -/
theorem drop_behind (hwell : WellFormed rest) {k : Nat} {c : UInt8} (hk : rest[k]? = some c) (hc : c < 0x80) :
    WellFormed (rest.drop (k + 1)) := by
  obtain ⟨hlt, rfl⟩ := List.getElem?_eq_some_iff.mp hk
  rw [← List.take_append_drop k rest, List.drop_eq_getElem_cons hlt] at hwell
  exact (hwell.cut_ascii hc).2

/-- A byte that becomes an ASCII byte in lower case is one. -/
theorem ascii_of_to_lower {c : UInt8} (h : to_lower c < 0x80) : c < 0x80 := by
  have htable : ∀ k : Fin 256, to_lower (UInt8.ofFin k) < 0x80 → UInt8.ofFin k < 0x80 := by decide +kernel
  exact htable c.toFin h

/-- A pattern of ASCII characters leaves characters behind it. -/
theorem drop_behind_pattern (hwell : WellFormed rest) {k : Nat} {pat : Bytes} (hpat : ∀ c ∈ pat, c < 0x80)
    (hne : pat ≠ []) (h : starts_ci rest k pat = true) : WellFormed (rest.drop (k + pat.length)) := by
  have hpos := List.length_pos_iff.mpr hne
  obtain ⟨c, hc, hlower⟩ := starts_ci_getElem h (show pat.length - 1 < pat.length by omega)
  have hascii : c < 0x80 := by
    refine ascii_of_to_lower ?_
    rw [hlower]
    exact hpat _ (List.getElem_mem _)
  have hdrop := drop_behind hwell hc hascii
  rwa [show k + (pat.length - 1) + 1 = k + pat.length by omega] at hdrop

/-- The character at the front. -/
theorem utf8_char_whole {lead : UInt8} {tail : Bytes} (hwell : WellFormed (lead :: tail)) :
    ∃ bytes, utf8_char (lead :: tail) lead = some bytes ∧ WellFormed bytes ∧
      WellFormed ((lead :: tail).drop bytes.length) := by
  obtain ⟨u, t, rfl, hfirst, ht, hlead, hcont⟩ := hwell.cons
  have hmore : more_bytes lead = u.length ∧ (utf8_lead_len lead).isSome := by
    unfold more_bytes utf8_lead_len
    have hbounds := hlead.bounds
    simp only [UInt8.le_iff_toNat_le, UInt8.reduceToNat]
    rcases hbounds with ⟨hu, h⟩ | ⟨hu, h⟩ | ⟨hu, h⟩ | ⟨hu, h⟩
    · rw [hu, if_pos h]
      exact ⟨rfl, rfl⟩
    · rw [hu, if_neg (by omega), if_pos h]
      exact ⟨rfl, rfl⟩
    · rw [hu, if_neg (by omega), if_neg (by omega), if_pos h]
      exact ⟨rfl, rfl⟩
    · rw [hu, if_neg (by omega), if_neg (by omega), if_neg (by omega), if_pos h]
      exact ⟨rfl, rfl⟩
  have hvalid : utf8_seq_valid (lead :: (u ++ t)) = true := by
    rw [utf8_seq_valid_cons, hmore.1, List.take_left]
    refine ⟨hmore.2, ?_, hcont⟩
    rw [List.length_append]
    omega
  refine ⟨lead :: u, ?_, hfirst, ?_⟩
  · rw [utf8_char_eq, if_pos hvalid, hmore.1, List.take_left]
  · rw [List.length_cons, List.drop_succ_cons, List.drop_left]
    exact ht

/-- A numeric entity ends with `;`. -/
theorem parse_numeric_entity_ends {cp : Nat} (h : parse_numeric_entity rest = some (cp, n)) :
    ∃ j, n = j + 1 ∧ rest[j]? = some 59 := by
  unfold parse_numeric_entity at h
  split_ifs at h
  all_goals
    dsimp only at h
    split_ifs at h
  all_goals
    rename_i hend
    rw [not_or, not_not] at hend
    split at h
    · cases h
    · split_ifs at h
      obtain ⟨-, rfl⟩ := Prod.mk.inj (Option.some.inj h)
      exact ⟨_, rfl, hend.1⟩

theorem read_entity_whole (hwell : WellFormed rest) (h : read_entity rest = some (piece, n)) :
    piece.Whole ∧ WellFormed (rest.drop n) := by
  unfold read_entity at h
  split at h
  · rename_i name indent c hfind
    obtain ⟨rfl, rfl⟩ := Prod.mk.inj (Option.some.inj h)
    have hmem := List.mem_of_find?_eq_some hfind
    have hstarts := List.find?_some hfind
    have htable : ∀ e ∈ ENTITIES, e.2.2 < 0x80 ∧ e.1 ≠ [] ∧ ∀ c ∈ e.1, c < 0x80 := by
      decide +kernel
    obtain ⟨hc, hne, hname⟩ := htable _ hmem
    refine ⟨hc, ?_⟩
    have hdrop := drop_behind_pattern hwell hname hne hstarts
    rwa [Nat.zero_add] at hdrop
  · split at h
    · rename_i cp consumed hparse
      obtain ⟨rfl, rfl⟩ := Prod.mk.inj (Option.some.inj h)
      obtain ⟨j, rfl, hj⟩ := parse_numeric_entity_ends hparse
      exact ⟨.char _, drop_behind hwell hj (by decide)⟩
    · cases h

theorem read_char_whole {ch : UInt8} {tail : Bytes} (hwell : WellFormed (ch :: tail)) :
    (read_char (ch :: tail) ch).1.Whole ∧
      WellFormed ((ch :: tail).drop (read_char (ch :: tail) ch).2) := by
  have hbehind : ch < 0x80 → WellFormed ((ch :: tail).drop 1) := fun hc => hwell.behind_ascii hc
  unfold read_char
  by_cases hline : ch = 10 ∨ ch = 13
  · rw [if_pos hline]
    refine ⟨trivial, hbehind ?_⟩
    rcases hline with rfl | rfl <;> decide
  rw [if_neg hline]
  by_cases hblank : ch = 9 ∨ ch = 32
  · rw [if_pos hblank]
    refine ⟨trivial, hbehind ?_⟩
    rcases hblank with rfl | rfl <;> decide
  rw [if_neg hblank]
  by_cases hascii : ch < 0x80
  · rw [if_pos hascii]
    exact ⟨hascii, hbehind hascii⟩
  rw [if_neg hascii]
  obtain ⟨bytes, hbytes, hwhole, hrest⟩ := utf8_char_whole hwell
  rw [hbytes]
  exact ⟨hwhole, hrest⟩

theorem skip_until_gt_whole (hwell : WellFormed rest) : WellFormed (rest.drop (skip_until_gt rest 0)) := by
  unfold skip_until_gt
  dsimp only
  split_ifs with hend
  · have hgt := scan_stops hend
    have hc : rest[scan (· != 62) rest 0] = 62 := by simpa using hgt
    exact drop_behind hwell (List.getElem?_eq_getElem hend) (by rw [hc]; decide)
  · rw [List.drop_eq_nil_of_le (Nat.le_of_not_lt hend)]
    exact .nil

/-- A comment ends with `>`, or at the end. -/
theorem comment_len_ends (s : Bytes) :
    s.length < comment_len s + 3 ∨ s[comment_len s + 2]? = some 62 := by
  induction s with
  | nil => exact .inl (by simp [comment_len])
  | cons a s ih =>
    cases s with
    | nil => exact .inl (by simp [comment_len])
    | cons b s =>
      cases s with
      | nil => exact .inl (by simp [comment_len])
      | cons c s =>
        rw [comment_len]
        by_cases hclose : a = 45 ∧ b = 45 ∧ c = 62
        · rw [if_pos hclose]
          exact .inr (by simp [hclose.2.2])
        · rw [if_neg hclose]
          refine ih.imp (fun h => ?_) (fun h => ?_)
          · rw [List.length_cons]
            omega
          · rw [show comment_len (b :: c :: s) + 1 + 2 = comment_len (b :: c :: s) + 2 + 1 by omega,
              List.getElem?_cons_succ]
            exact h

/-- A tag that ends with its `>`. -/
theorem tag_end_whole (hwell : WellFormed rest) (h : ¬ rest.length ≤ scan (· != 62) rest 1) :
    WellFormed (rest.drop (scan (· != 62) rest 1 + 1)) := by
  rw [Nat.not_le] at h
  have hc : rest[scan (· != 62) rest 1] = 62 := by simpa using scan_stops h
  exact drop_behind hwell (List.getElem?_eq_getElem h) (by rw [hc]; decide)

theorem read_tag_whole (hwell : WellFormed rest) (h : read_tag rest = some (piece, n)) :
    piece.Whole ∧ WellFormed (rest.drop n) := by
  unfold read_tag at h
  split_ifs at h with hcomment hmeta hscript
  · obtain ⟨rfl, rfl⟩ := Prod.mk.inj (Option.some.inj h)
    refine ⟨trivial, ?_⟩
    rcases comment_len_ends (rest.drop 4) with hend | hend
    · rw [List.length_drop] at hend
      rw [List.drop_eq_nil_of_le (by omega)]
      exact .nil
    · rw [List.getElem?_drop] at hend
      have hlt := lt_of_getElem?_eq_some hend
      have hdrop := drop_behind hwell hend (by decide)
      rwa [show min (4 + comment_len (rest.drop 4) + 3) rest.length = 4 + (comment_len (rest.drop 4) + 2) + 1 by omega]
  · obtain ⟨rfl, rfl⟩ := Prod.mk.inj (Option.some.inj h)
    exact ⟨trivial, skip_until_gt_whole hwell⟩
  · unfold read_script at h
    dsimp only at h
    split_ifs at h with hend
    · obtain ⟨rfl, rfl⟩ := Prod.mk.inj (Option.some.inj h)
      exact ⟨trivial, hwell⟩
    · obtain ⟨tag_open, -, h⟩ := Returns.of_bind h
      obtain ⟨data, -, h⟩ := Returns.of_bind h
      obtain ⟨rfl, rfl⟩ := Prod.mk.inj (Option.some.inj h)
      exact ⟨trivial, tag_end_whole hwell hend⟩
  · split at h
    · rename_i name piece' hfind
      obtain ⟨rfl, rfl⟩ := Prod.mk.inj (Option.some.inj h)
      have htable : ∀ e ∈ DROPPED_TAGS, e.2.Whole := by
        intro e he
        fin_cases he <;> trivial
      exact ⟨htable _ (List.mem_of_find?_eq_some hfind), skip_until_gt_whole hwell⟩
    · unfold read_plain_tag at h
      dsimp only at h
      split_ifs at h with hend
      · obtain ⟨rfl, rfl⟩ := Prod.mk.inj (Option.some.inj h)
        exact ⟨trivial, hwell⟩
      · obtain ⟨tag_slice, -, h⟩ := Returns.of_bind h
        obtain ⟨rfl, rfl⟩ := Prod.mk.inj (Option.some.inj h)
        exact ⟨trivial, tag_end_whole hwell hend⟩

/-- **Every piece is a whole one**, and characters follow it. -/
theorem read_piece_whole {skip : Option SkipTag} {style_len : Nat} (hwell : WellFormed rest)
    (hstyle : skip = some .style → find_sub_ci rest SkipTag.style.close ≠ none)
    (h : read_piece skip style_len rest = some (piece, n)) : piece.Whole ∧ WellFormed (rest.drop n) := by
  unfold read_piece at h
  cases skip with
  | some m =>
    dsimp only at h
    unfold read_skipped at h
    cases hfind : find_sub_ci rest m.close with
    | some rel =>
      rw [hfind] at h
      obtain ⟨rfl, rfl⟩ := Prod.mk.inj (Option.some.inj h)
      have hstarts := ((find_sub_ci_eq_some m.close_ne).mp hfind).1
      refine ⟨trivial, drop_behind_pattern hwell ?_ m.close_ne hstarts⟩
      cases m <;> decide +kernel
    | none =>
      rw [hfind] at h
      dsimp only at h
      rw [if_neg] at h
      · obtain ⟨rfl, rfl⟩ := Prod.mk.inj (Option.some.inj h)
        exact ⟨trivial, hwell⟩
      · rintro rfl
        exact hstyle rfl hfind
  | none =>
    dsimp only at h
    cases rest with
    | nil => cases h
    | cons ch tail =>
      rw [List.getElem?_cons_zero, Option.bind_eq_bind, Option.bind_some] at h
      split_ifs at h with hch
      · have hpair := Option.some.inj h
        unfold read_text at hpair
        split at hpair
        · rename_i r hr
          split_ifs at hr
          rw [hpair] at hr
          exact read_entity_whole hwell hr
        · have hwhole := read_char_whole hwell
          rw [hpair] at hwhole
          exact hwhole
      · exact read_tag_whole hwell h

end Reading

/-! ## Writing -/

section Writing

variable {doc : Doc}

/-- What is written are whole characters. -/
def Writes.Whole (ws : Writes) : Prop := ∀ op ∈ ws.bytes, WellFormed op.cells

theorem Writes.Whole.append {ws more : Writes} (h₁ : ws.Whole) (h₂ : more.Whole) : Writes.Whole (ws ++ more) := by
  intro op hop
  rw [bytes_append] at hop
  exact (List.mem_append.mp hop).elim (h₁ op) (h₂ op)

theorem Writes.Whole.cons {op : Page.Op Cell} {ws : Writes} (hop : Writes.Whole [op]) (h : ws.Whole) :
    Writes.Whole (op :: ws) := hop.append h

theorem Writes.Whole.nil : Writes.Whole [] := by
  intro op hop
  cases hop

theorem Writes.Whole.put {w : Nat} {c : UInt8} (hc : c < 0x80) (place : Option Place) :
    Writes.Whole [.put w (c, place)] := by
  intro op hop
  rw [List.mem_singleton.mp hop]
  exact .of_ascii fun d hd => List.mem_singleton.mp hd ▸ hc

theorem Writes.Whole.replicate {n : Nat} {op : Page.Op Cell} (h : Writes.Whole [op]) :
    Writes.Whole (List.replicate n op) := by
  intro op' hop
  obtain ⟨q, hq, rfl⟩ := List.mem_map.mp hop
  rw [List.eq_of_mem_replicate hq]
  exact h _ (List.mem_singleton.mpr rfl)

theorem Writes.Whole.break_line (blank : Bool) : Writes.Whole [.break_line blank] := by
  intro op hop
  rw [List.mem_singleton.mp hop]
  exact .nil

theorem put_filling_whole (doc : Doc) (n : Nat) : Writes.Whole (doc.put_filling n) :=
  .replicate (.put (by decide) none)

theorem indentation_whole (doc : Doc) (cur : Bytes) : Writes.Whole (doc.indentation cur) := by
  unfold Doc.indentation
  split_ifs
  · exact put_filling_whole doc _
  · exact .nil

theorem close_writes_whole (name : Bytes) : (close_writes name).Whole := by
  unfold close_writes
  split_ifs
  · exact .nil
  · exact .break_line _
  · exact .nil

theorem open_writes_whole (doc : Doc) (left : Nat) (name : Bytes) (computed : BoxStyle) :
    (doc.open_writes left name computed).Whole := by
  unfold Doc.open_writes
  split_ifs
  · exact .break_line _
  · exact .break_line _
  · exact .break_line _
  · exact .nil
  · exact .replicate (.break_line _)
  · refine (Writes.Whole.append (.replicate (.break_line _)) (put_filling_whole doc _)).append ?_
    have hdash : (45 : UInt8) < 0x80 := by decide
    have hspace : (32 : UInt8) < 0x80 := by decide
    exact .cons (.put hdash _) (.put hspace _)
  · exact .nil

theorem tag_writes_whole {left : Nat} {tag_slice : Bytes} {ws : Writes}
    (h : doc.tag_writes left tag_slice = some ws) : ws.Whole := by
  unfold Doc.tag_writes at h
  split_ifs at h
  · rw [← Option.some.inj h]
    exact .nil
  · obtain ⟨mark, -, h⟩ := Returns.of_bind h
    obtain ⟨name, -, h⟩ := Returns.of_bind h
    split_ifs at h
    · rw [← Option.some.inj h]
      exact close_writes_whole name
    · obtain ⟨computed, -, h⟩ := Returns.of_bind h
      rw [← Option.some.inj h]
      split_ifs
      · exact .nil
      · exact open_writes_whole doc left name computed

theorem slice_whole {bytes : Bytes} (hbytes : WellFormed bytes) (w left : Nat) :
    Writes.Whole (if bytes = [] then [] else [.slice w (bytes.zipIdx.map fun b => (b.1, some (left, b.2)))]) := by
  split_ifs
  · exact .nil
  · intro op hop
    rw [List.mem_singleton.mp hop]
    show WellFormed (List.map _ _)
    rw [List.map_map]
    exact (List.zipIdx_map_fst 0 bytes).symm ▸ hbytes

theorem writes_whole {cur : Bytes} {left : Nat} {piece : Piece} {ws : Writes} (hpiece : piece.Whole)
    (h : doc.writes cur left piece = some ws) : ws.Whole := by
  have hindent : ∀ indent : Bool, Writes.Whole (if indent then doc.indentation cur else []) := by
    intro indent
    split_ifs
    · exact indentation_whole doc cur
    · exact .nil
  have hspace : (32 : UInt8) < 0x80 := by decide
  cases piece with
  | char indent c =>
    rw [← Option.some.inj h]
    exact (hindent indent).append (.put hpiece (some (left, 0)))
  | glyph indent bytes =>
    rw [← Option.some.inj h]
    exact (hindent indent).append (slice_whole hpiece doc.width left)
  | blank =>
    rw [← Option.some.inj h]
    split_ifs
    · exact .put hspace (some (left, 0))
    · exact .nil
  | tag tag_slice => exact tag_writes_whole h
  | _ =>
    rw [← Option.some.inj h]
    exact .nil

end Writing

/-! ## The loop -/

/-- Every line of the page is well formed. -/
def Screen.Whole (s : Screen) : Prop := s.page.Lines WellFormed

theorem act_whole {doc doc' : Doc} {piece : Piece} (hwhole : doc.toScreen.Whole) (hpiece : piece.Whole)
    (h : doc.act piece = some doc') : doc'.toScreen.Whole := by
  obtain ⟨ws, hws, hpage⟩ := act_writes 0 h
  have hops := writes_whole hpiece hws
  show doc'.page.Lines WellFormed
  rw [hpage]
  exact hwhole.run .nil fun op hop d hd => hd.append (hops op hop)

/-- What the loop keeps: whole lines, and the cursor between characters, unless
it is in a style element that is never closed. -/
def Whole (st : Bytes × Doc) : Prop :=
  st.2.toScreen.Whole ∧
    (WellFormed st.1 ∨ st.2.skip = some .style ∧ find_sub_ci st.1 SkipTag.style.close = none)

theorem doc_round_whole {s t : Bytes × Doc} (h : Whole s) (hround : doc_round s = some (.inl t)) : Whole t := by
  obtain ⟨rest, doc⟩ := s
  obtain ⟨rest', doc'⟩ := t
  obtain ⟨hlines, hcursor⟩ := h
  obtain ⟨-, -, piece, n, hread, -, hact, rfl⟩ := doc_round_inl hround
  by_cases hlost : doc.skip = some .style ∧ find_sub_ci rest SkipTag.style.close = none
  · -- a style element that is never closed shows nothing
    obtain ⟨hstill, hscreen⟩ := unclosed_style_round hlost.1 hlost.2 hround
    refine ⟨?_, .inr hstill⟩
    show doc'.toScreen.Whole
    rw [hscreen]
    exact hlines
  · have hwell : WellFormed rest := hcursor.resolve_right hlost
    obtain ⟨hpiece, hnext⟩ := read_piece_whole hwell (fun hs hnone => hlost ⟨hs, hnone⟩) hread
    exact ⟨act_whole hlines hpiece hact, .inl hnext⟩

/-- Where the loop over a well-formed document ends, every line is whole. -/
theorem doc_loop_whole {raw : Bytes} (hwell : WellFormed raw) (rgb : Rgb) :
    Returns (loop doc_round (raw.length + 1) (raw, Doc.start rgb)) fun doc =>
      DocOk doc ∧ doc.toScreen.Whole := by
  have hstart : Whole (raw, Doc.start rgb) := ⟨⟨nofun, .nil⟩, .inl hwell⟩
  refine loop_returns (I := fun st => DocOk st.2 ∧ Whole st) (m := fun st => st.1.length) ?_
    ⟨start_ok rgb, hstart⟩ (Nat.lt_succ_self _)
  rintro ⟨rest, doc⟩ ⟨hok, hwhole⟩
  have hreturns : Returns (doc_round (rest, doc))
      (RoundOk (fun st => DocOk st.2) (fun st => st.1.length) DocOk (rest, doc)) := doc_round_returns hok
  obtain ⟨o, ho, hround⟩ := hreturns
  refine ⟨o, ho, ?_⟩
  cases o with
  | inl t => exact ⟨⟨hround.1, doc_round_whole hwhole ho⟩, hround.2⟩
  | inr d =>
    refine ⟨hround, ?_⟩
    unfold doc_round at ho
    dsimp only at ho
    split_ifs at ho
    · rw [← Sum.inr.inj (Option.some.inj ho)]
      exact hwhole.1
    · rw [← Sum.inr.inj (Option.some.inj ho)]
      exact hwhole.1
    · obtain ⟨⟨piece, n⟩, -, ho⟩ := Returns.of_bind ho
      dsimp only at ho
      split_ifs at ho
      · rw [← Sum.inr.inj (Option.some.inj ho)]
        exact hwhole.1
      · obtain ⟨d', -, ho⟩ := Returns.of_bind ho
        cases Option.some.inj ho

/-- The lines of a screen that may get one more. -/
theorem put_line_whole {s t : Screen} {line : BrowserLine} {c : Prop} [Decidable c] (hwhole : s.Whole)
    (hline : WellFormed line.data) (h : (if c then s.put_line line else some s) = some t) : t.Whole := by
  split_ifs at h
  · show t.page.Lines WellFormed
    rw [put_line_page h]
    refine ⟨?_, hwhole.2⟩
    intro l hl
    rcases List.mem_append.mp hl with hl | hl
    · exact hwhole.1 l hl
    · rw [List.mem_singleton.mp hl]
      exact hline
  · rw [← Option.some.inj h]
    exact hwhole

theorem flush_line_whole {s t : Screen} {c : Prop} [Decidable c] (hwhole : s.Whole)
    (h : (if c then s.flush_line else some s) = some t) : t.Whole := by
  split_ifs at h
  · show t.page.Lines WellFormed
    rw [flush_line_page h]
    exact Page.Lines.flush .nil hwhole
  · rw [← Option.some.inj h]
    exact hwhole

/-- The lines of a rendering. -/
def LinesWhole (out : Rendered) : Prop := ∀ l ∈ out.lines, WellFormed l.data

theorem Screen.Whole.lines {s : Screen} (h : s.Whole) (stripped : Bool) :
    LinesWhole ⟨s.lines, s.html_truncated, stripped⟩ := fun l hl =>
  h.1 l.data (List.mem_map_of_mem hl)

theorem format_html_whole {raw : Bytes} (hwell : WellFormed raw) (rgb : Rgb) :
    Returns (format_html raw rgb) LinesWhole := by
  refine (doc_loop_whole hwell rgb).bind fun doc hdoc => ?_
  obtain ⟨out, hout, -⟩ := finish_returns hdoc.1
  refine ⟨out, hout, ?_⟩
  obtain ⟨s, hs, h⟩ := Returns.of_bind hout
  obtain ⟨t, ht, h⟩ := Returns.of_bind h
  have hnote : WellFormed SCRIPTS_NOTE.data := .of_ascii (by decide +kernel)
  rw [← Option.some.inj h]
  exact (put_line_whole (flush_line_whole hdoc.2 hs) hnote ht).lines _

/-! ## Plain text -/

/-- What the loop over a text keeps. -/
def PlainWhole (st : Bytes × Screen) : Prop := ScreenOk st.2 ∧ st.2.Whole ∧ WellFormed st.1

theorem emit_char_whole {s : Screen} (hok : ScreenOk s) (hwhole : s.Whole) {c : UInt8} (hc : c < 0x80) (fg : Rgb) :
    Returns (s.emit_char c fg) fun t => ScreenOk t ∧ t.Whole := by
  obtain ⟨t, ht, htok⟩ := emit_char_returns hok c fg
  refine ⟨t, ht, htok, ?_⟩
  show t.page.Lines WellFormed
  rw [emit_char_page ht]
  have hone : WellFormed [c] := .of_ascii fun d hd => List.mem_singleton.mp hd ▸ hc
  have hput : (s.page.apply screen_full (.put BROWSER_LINE_CAP c)).Lines WellFormed :=
    Page.Lines.apply .nil (fun d hd => hd.append hone) hwhole
  exact hput

theorem emit_slice_whole {s : Screen} (hok : ScreenOk s) (hwhole : s.Whole) {bytes : Bytes} (hne : bytes ≠ [])
    (hbytes : WellFormed bytes) (fg : Rgb) (cap : Nat) :
    Returns (s.emit_slice_cap bytes fg cap) fun t => ScreenOk t ∧ t.Whole := by
  obtain ⟨t, ht, htok⟩ := emit_slice_cap_returns hok bytes fg cap
  refine ⟨t, ht, htok, ?_⟩
  show t.page.Lines WellFormed
  rw [emit_slice_cap_page hne ht]
  have hslice : (s.page.apply screen_full (.slice (line_limit cap) bytes)).Lines WellFormed :=
    Page.Lines.apply .nil (fun d hd => hd.append hbytes) hwhole
  exact hslice

theorem plain_round_whole (fg : Rgb) {rest : Bytes} {s : Screen} (h : PlainWhole (rest, s)) :
    Returns (plain_round fg (rest, s))
      (RoundOk PlainWhole (fun st => st.1.length) (fun s => ScreenOk s ∧ s.Whole) (rest, s)) := by
  obtain ⟨hok, hwhole, hwell⟩ := h
  cases rest with
  | nil => exact .done ⟨hok, hwhole⟩
  | cons b tail =>
    have hless : tail.length < (b :: tail).length := Nat.lt_succ_self _
    rw [plain_round]
    by_cases hend : b = 10 ∨ b = 13
    · rw [if_pos hend]
      have hflush := (flush_line_returns hok).mono fun _ ht => ht.1
      have hends : Returns (if 0 < s.cur.len then s.flush_line else some s) ScreenOk :=
        .ite hflush (.ret hok)
      obtain ⟨t, ht, htok⟩ := hends
      have htwhole := flush_line_whole hwhole ht
      have hb : b < 0x80 := by rcases hend with rfl | rfl <;> decide
      rw [ht, Option.bind_eq_bind, Option.bind_some]
      exact .goOn ⟨htok.clear_with fg, ⟨htwhole.1, .nil⟩, hwell.behind_ascii hb⟩ hless
    rw [if_neg hend]
    by_cases htrunc : s.html_truncated = true
    · rw [if_pos htrunc]
      exact .done ⟨hok, hwhole⟩
    rw [if_neg htrunc]
    by_cases hascii : b < 0x80
    · rw [if_pos hascii]
      refine (emit_char_whole hok hwhole hascii fg).bind fun t ht => ?_
      exact .goOn ⟨ht.1, ht.2, hwell.behind_ascii hascii⟩ hless
    rw [if_neg hascii]
    obtain ⟨bytes, hbytes, hcharacter, hrest⟩ := utf8_char_whole hwell
    have hpos := utf8_char_pos (List.cons_ne_nil b tail) hbytes
    rw [hbytes]
    refine (emit_slice_whole hok hwhole (List.length_pos_iff.mp hpos) hcharacter fg _).bind fun t ht => ?_
    refine .goOn ⟨ht.1, ht.2, hrest⟩ ?_
    show ((b :: tail).drop bytes.length).length < (b :: tail).length
    rw [List.length_drop]
    omega

theorem plain_lines_whole {raw : Bytes} (hwell : WellFormed raw) (fg : Rgb) :
    Returns (plain_lines raw fg) LinesWhole := by
  have hstart : PlainWhole (raw, Screen.start fg) := ⟨(start_ok fg).screen, ⟨nofun, .nil⟩, hwell⟩
  have hloop : Returns (loop (plain_round fg) (raw.length + 1) (raw, Screen.start fg))
      fun s => ScreenOk s ∧ s.Whole :=
    loop_returns (fun st hst => plain_round_whole fg hst) hstart (Nat.lt_succ_self _)
  refine hloop.bind fun s hs => ?_
  have hflush := (flush_line_returns hs.1).mono fun _ ht => ht.1
  have hends : Returns (if 0 < s.cur.len ∧ (!s.html_truncated) = true then s.flush_line else some s)
      ScreenOk := .ite hflush (.ret hs.1)
  obtain ⟨t, ht, -⟩ := hends
  rw [ht, Option.bind_eq_bind, Option.bind_some]
  exact .ret ((flush_line_whole hs.2 ht).lines false)

/-- **No line splits a character.** A well-formed document is rendered in
well-formed lines, whatever widths and indentations it asks for. -/
theorem no_line_splits_a_character (mem : RenderMemory) {raw : Bytes} (hwell : WellFormed raw) (rgb : Rgb) :
    ∃ mem' out, format_document mem raw rgb = some (mem', out) ∧ ∀ l ∈ out.lines, WellFormed l.data := by
  obtain ⟨dom_tree, hdom, -⟩ := build_text_dom_returns raw mem.dom_tree
  have hout : Returns (if looks_like_html raw then format_html raw rgb else plain_lines raw rgb) LinesWhole :=
    .ite (format_html_whole hwell rgb) (plain_lines_whole hwell rgb)
  obtain ⟨out, hout, hlines⟩ := hout
  refine ⟨⟨out.lines ++ mem.html_render_lines.drop out.line_count, dom_tree⟩, out, ?_, hlines⟩
  unfold format_document
  rw [hdom, Option.bind_eq_bind, Option.bind_some, hout]
  rfl

/-- A narrow block, and a character of two bytes. -/
theorem narrow_block_is_whole :
    ∃ mem' out, format_document ⟨[], .new⟩
        (ascii "<div style=width:8ch>1234567" ++ String.utf8EncodeChar 'é' ++ ascii "&#x1F600;</div>")
        (0, 0, 0) = some (mem', out) ∧
      ∀ l ∈ out.lines, WellFormed l.data := by
  have hchar : WellFormed (String.utf8EncodeChar 'é') := .char 'é'
  have hfront : WellFormed (ascii "<div style=width:8ch>1234567") := .of_ascii (by decide +kernel)
  have hback : WellFormed (ascii "&#x1F600;</div>") := .of_ascii (by decide +kernel)
  exact no_line_splits_a_character ⟨[], .new⟩ ((hfront.append hchar).append hback) (0, 0, 0)

end EveOS.Html
