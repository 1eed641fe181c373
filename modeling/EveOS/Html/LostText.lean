/-
Text that is lost: `html_truncated` of `format_document`.

The loop is run with what it writes, every byte with the place in the document that it
comes from. Each way to leave something out sets the flag but the last one: what stands
on the open line behind the loop is dropped when 128 lines are complete, and nothing is
said about it.
-/
import EveOS.Html.Skip
import EveOS.Html.Writes

set_option autoImplicit false

namespace EveOS.Html

/-! ## The loop with what it writes -/

/-- A round, and what it writes behind `ws`. -/
def traced_round : (Bytes × Doc) × Writes → Option (((Bytes × Doc) × Writes) ⊕ (Doc × Writes))
  | ((rest, doc), ws) => do
    match ← doc_round (rest, doc) with
    | .inl st =>
      let (piece, _) ← read_piece doc.skip doc.style_buf.length rest
      let more ← doc.writes doc.cur.data rest.length piece
      return .inl (st, ws ++ more)
    | .inr doc => return .inr (doc, ws)

/-- What the loop ends with, and all it has written. -/
def traced (raw : Bytes) (rgb : Rgb) : Option (Doc × Writes) :=
  loop traced_round (raw.length + 1) ((raw, Doc.start rgb), [])

/-- A byte of the document: a character, an entity or a list marker, no filling. -/
def Cell.Visible (c : Cell) : Prop := c.2.isSome = true

instance (c : Cell) : Decidable (Cell.Visible c) := inferInstanceAs (Decidable (_ = _))

/-- The bytes of the document that were written. -/
def Writes.visible (ws : Writes) : List Cell := (Page.cells ws).filter fun c => c.2.isSome

/-- The page, when `ws` is written. -/
def Writes.page (ws : Writes) : Page Cell := Page.run screen_full ws .empty

/-- The lines that are shown of it: the open line is the last one if there is room. -/
def Writes.shown (ws : Writes) : List (List Cell) :=
  if ws.page.cur ≠ [] ∧ ws.page.lines.length < BROWSER_MAX_LINES then ws.page.lines ++ [ws.page.cur]
  else ws.page.lines

/-! ## What is promised -/

/-- Where a byte that was written is on no line, the flag is set. -/
def Reported (ws : Writes) (out : Rendered) : Prop :=
  (∃ c ∈ ws.visible, ∀ line ∈ ws.shown, c ∉ line) → out.html_truncated = true

/-- What is known about a document that was formatted: how the loop ended, what it wrote,
and that the lines are those of what it wrote, with a note behind them or without. -/
structure Formats (mem : RenderMemory) (raw : Bytes) (rgb : Rgb) (doc : Doc) (ws : Writes) (out : Rendered) : Prop where
  lays : Lays raw rgb doc
  traced : traced raw rgb = some (doc, ws)
  returns : ∃ mem', format_document mem raw rgb = some (mem', out)
  lines : ∃ note, out.lines.map BrowserLine.data = ws.shown.map (List.map Prod.fst) ++ note ∧
    (note = [] ∨ note = [SCRIPTS_NOTE.data])

/-- The loop ended behind 128 complete lines with something on the open one, and nothing
was left out before. -/
def Doc.DropsLine (doc : Doc) : Prop :=
  BROWSER_MAX_LINES ≤ doc.line_count ∧ 0 < doc.cur.len ∧ doc.html_truncated = false

/-! ## The places of a piece -/

section Places

theorem visible_append (ws more : Writes) : Writes.visible (ws ++ more) = ws.visible ++ more.visible := by
  simp [Writes.visible, Page.cells]

theorem visible_filling (doc : Doc) (n : Nat) : (doc.put_filling n).visible = [] := by
  simp [Writes.visible, Page.cells, Doc.put_filling, Page.Op.cells, List.flatMap_replicate]

theorem visible_indentation (doc : Doc) (cur : Bytes) : (doc.indentation cur).visible = [] := by
  unfold Doc.indentation
  split_ifs
  · exact visible_filling doc _
  · rfl

theorem visible_breaks (n : Nat) (blank : Bool) : Writes.visible (List.replicate n (.break_line blank)) = [] := by
  simp [Writes.visible, Page.cells, Page.Op.cells, List.flatMap_replicate]

/-- The bytes of a piece have different places, all with the same first part. -/
def PlacedAt (left : Nat) (cs : List Cell) : Prop := cs.Nodup ∧ ∀ c ∈ cs, ∃ k, c.2 = some (left, k)

theorem PlacedAt.nil (left : Nat) : PlacedAt left [] := ⟨List.nodup_nil, fun _ h => absurd h List.not_mem_nil⟩

theorem PlacedAt.one (left : Nat) (b : UInt8) (k : Nat) : PlacedAt left [(b, some (left, k))] := by
  refine ⟨List.nodup_singleton _, ?_⟩
  intro c hc
  rw [List.mem_singleton.mp hc]
  exact ⟨k, rfl⟩

theorem PlacedAt.slice (left : Nat) (bytes : Bytes) :
    PlacedAt left (bytes.zipIdx.map fun b => ((b.1, some (left, b.2)) : Cell)) := by
  constructor
  · -- the second parts of the places are the indices
    apply List.Nodup.of_map (fun c : Cell => c.2.map Prod.snd)
    have hindices : (bytes.zipIdx.map fun b => ((b.1, some (left, b.2)) : Cell)).map (fun c => c.2.map Prod.snd) =
        (List.range' 0 bytes.length).map some := by
      rw [List.map_map, ← List.zipIdx_map_snd 0 bytes, List.map_map]
      rfl
    rw [hindices]
    exact List.Nodup.map (Option.some_injective _) List.nodup_range'
  · intro c hc
    obtain ⟨b, -, rfl⟩ := List.mem_map.mp hc
    exact ⟨b.2, rfl⟩

theorem visible_open (doc : Doc) (left : Nat) (name : Bytes) (computed : BoxStyle) :
    PlacedAt left (doc.open_writes left name computed).visible := by
  unfold Doc.open_writes
  split_ifs
  · exact .nil left
  · exact .nil left
  · exact .nil left
  · exact .nil left
  · rw [visible_breaks]
    exact .nil left
  · rw [visible_append, visible_append, visible_breaks, visible_filling]
    refine ⟨by simp [Writes.visible, Page.cells, Page.Op.cells], ?_⟩
    intro c hc
    simp only [Writes.visible, Page.cells, Page.Op.cells, List.nil_append, List.flatMap_cons, List.flatMap_nil,
      List.append_nil, List.singleton_append, List.mem_filter, List.mem_cons, List.not_mem_nil, or_false] at hc
    rcases hc.1 with rfl | rfl
    · exact ⟨0, rfl⟩
    · exact ⟨1, rfl⟩
  · exact .nil left

/-- The bytes that a piece writes come from different places of it. -/
theorem writes_placed {doc : Doc} {cur : Bytes} {left : Nat} {piece : Piece} {ws : Writes}
    (h : doc.writes cur left piece = some ws) : PlacedAt left ws.visible := by
  have hindent : ∀ indent : Bool, Writes.visible (if indent then doc.indentation cur else []) = [] := by
    intro indent
    split_ifs
    · exact visible_indentation doc cur
    · rfl
  cases piece with
  | char indent c =>
    obtain rfl := Option.some.inj h
    rw [visible_append, hindent]
    exact .one left c 0
  | glyph indent bytes =>
    obtain rfl := Option.some.inj h
    rw [visible_append, hindent, List.nil_append]
    split_ifs
    · exact .nil left
    · have hall : Writes.visible [.slice doc.width (bytes.zipIdx.map fun b => (b.1, some (left, b.2)))] =
          bytes.zipIdx.map fun b => ((b.1, some (left, b.2)) : Cell) := by
        unfold Writes.visible Page.cells
        rw [List.flatMap_singleton]
        apply List.filter_eq_self.mpr
        intro c hc
        obtain ⟨b, -, rfl⟩ := List.mem_map.mp hc
        rfl
      rw [hall]
      exact .slice left bytes
  | blank =>
    obtain rfl := Option.some.inj h
    split_ifs
    · exact .one left 32 0
    · exact .nil left
  | tag tag_slice =>
    change doc.tag_writes left tag_slice = some ws at h
    unfold Doc.tag_writes at h
    split_ifs at h
    · obtain rfl := Option.some.inj h
      exact .nil left
    · obtain ⟨mark, -, h⟩ := Returns.of_bind h
      obtain ⟨name, -, h⟩ := Returns.of_bind h
      split_ifs at h
      · obtain rfl := Option.some.inj h
        unfold close_writes
        split_ifs <;> exact .nil left
      · obtain ⟨computed, -, h⟩ := Returns.of_bind h
        obtain rfl := Option.some.inj h
        split_ifs
        · exact .nil left
        · exact visible_open doc left name computed
  | _ =>
    obtain rfl := Option.some.inj h
    exact .nil left

end Places

/-! ## The open line -/

section OpenLine

/-- Unless something was left out, there is a byte of the document on an open line. -/
def Page.OpenLine (p : Page Cell) : Prop := p.truncated = false → p.cur ≠ [] → ∃ c ∈ p.cur, Cell.Visible c

/-- An operation behind which that is so. -/
def EndsWith : Page.Op Cell → Prop
  | .put _ c => Cell.Visible c
  | .slice _ cs => cs ≠ [] ∧ ∀ c ∈ cs, Cell.Visible c
  | .break_line _ => True

theorem apply_open_line (p : Page Cell) {op : Page.Op Cell} (hop : EndsWith op) :
    Page.OpenLine (p.apply screen_full op) := by
  cases op with
  | put w c =>
    intro _ _
    refine ⟨c, ?_, hop⟩
    exact List.mem_append_right _ List.mem_cons_self
  | slice w cs =>
    obtain ⟨hne, hall⟩ := hop
    obtain ⟨c, hc⟩ := List.exists_mem_of_ne_nil cs hne
    unfold Page.apply Page.slice
    dsimp only
    split_ifs
    · intro h
      cases h
    · intro _ _
      exact ⟨c, List.mem_append_right _ hc, hall c hc⟩
    · intro h
      cases h
    · intro _ _
      exact ⟨c, hc, hall c hc⟩
  | break_line blank =>
    intro _ hcur
    have hend := Page.end_line_cur screen_full p
    unfold Page.apply Page.break_line at hcur
    dsimp only at hcur
    split_ifs at hcur
    · exact absurd hend hcur
    · exact absurd hend hcur

/-- What a piece writes is nothing, or it ends with a byte of the document or a break. -/
def Writes.Ends (ws : Writes) : Prop := ws = [] ∨ ∃ front op, ws = front ++ [op] ∧ EndsWith op

theorem Writes.Ends.run {ws : Writes} (h : ws.Ends) {p : Page Cell} (hp : Page.OpenLine p) :
    Page.OpenLine (Page.run screen_full ws p) := by
  rcases h with rfl | ⟨front, op, rfl, hop⟩
  · exact hp
  · rw [Page.run_append]
    exact apply_open_line _ hop

theorem Writes.Ends.behind {ws : Writes} (front : Writes) {op : Page.Op Cell} (h : ws = front ++ [op])
    (hop : EndsWith op) : ws.Ends := .inr ⟨front, op, h, hop⟩

theorem ends_open (doc : Doc) (left : Nat) (name : Bytes) (computed : BoxStyle) :
    (doc.open_writes left name computed).Ends := by
  unfold Doc.open_writes
  split_ifs
  · exact .behind [] rfl trivial
  · exact .behind [] rfl trivial
  · exact .behind [] rfl trivial
  · exact .inl rfl
  · exact .behind _ List.replicate_succ' trivial
  · refine .inr ⟨List.replicate (min computed.lines_above 2) (.break_line false)
      ++ doc.put_filling (min (sat8 (doc.list_depth * 2) + computed.inline_indent) 16)
      ++ [.put doc.width (45, some (left, 0))], .put doc.width (32, some (left, 1)), ?_, rfl⟩
    rw [List.append_assoc _ [_] [_]]
    rfl
  · exact .inl rfl

/-- A glyph that is indented has bytes. -/
def Piece.Full : Piece → Prop
  | .glyph true bytes => bytes ≠ []
  | _ => True

theorem writes_end {doc : Doc} {cur : Bytes} {left : Nat} {piece : Piece} {ws : Writes} (hfull : piece.Full)
    (h : doc.writes cur left piece = some ws) : ws.Ends := by
  cases piece with
  | char indent c =>
    obtain rfl := Option.some.inj h
    exact .behind _ rfl rfl
  | glyph indent bytes =>
    obtain rfl := Option.some.inj h
    by_cases hempty : bytes = []
    · cases indent with
      | true => exact absurd hempty hfull
      | false =>
        rw [if_pos hempty]
        exact .inl rfl
    · rw [if_neg hempty]
      refine .behind _ rfl ⟨?_, ?_⟩
      · intro hnil
        exact hempty (List.zipIdx_eq_nil_iff.mp (List.map_eq_nil_iff.mp hnil))
      · intro c hc
        obtain ⟨b, -, rfl⟩ := List.mem_map.mp hc
        rfl
  | blank =>
    obtain rfl := Option.some.inj h
    split_ifs
    · exact .behind [] rfl rfl
    · exact .inl rfl
  | tag tag_slice =>
    change doc.tag_writes left tag_slice = some ws at h
    unfold Doc.tag_writes at h
    split_ifs at h
    · obtain rfl := Option.some.inj h
      exact .inl rfl
    · obtain ⟨mark, -, h⟩ := Returns.of_bind h
      obtain ⟨name, -, h⟩ := Returns.of_bind h
      split_ifs at h
      · obtain rfl := Option.some.inj h
        unfold close_writes
        split_ifs
        · exact .inl rfl
        · exact .behind [] rfl trivial
        · exact .inl rfl
      · obtain ⟨computed, -, h⟩ := Returns.of_bind h
        obtain rfl := Option.some.inj h
        split_ifs
        · exact .inl rfl
        · exact ends_open doc left name computed
  | _ =>
    obtain rfl := Option.some.inj h
    exact .inl rfl

theorem read_entity_full {rest : Bytes} {r : Piece × Nat} (h : read_entity rest = some r) : r.1.Full := by
  unfold read_entity at h
  split at h
  · obtain rfl := Option.some.inj h
    trivial
  · split at h
    · obtain rfl := Option.some.inj h
      trivial
    · cases h

theorem read_text_full {rest : Bytes} (hne : rest ≠ []) (ch : UInt8) : (read_text rest ch).1.Full := by
  unfold read_text
  split
  · rename_i r hr
    split_ifs at hr
    exact read_entity_full hr
  · unfold read_char
    split_ifs
    · trivial
    · trivial
    · trivial
    · split
      · trivial
      · rename_i bytes hbytes
        exact List.length_pos_iff.mp (utf8_char_pos hne hbytes)

theorem read_skipped_full {m : SkipTag} {style_len : Nat} {rest : Bytes} {piece : Piece} {n : Nat}
    (h : read_skipped m style_len rest = some (piece, n)) : piece.Full := by
  unfold read_skipped at h
  split at h
  · obtain ⟨rfl, -⟩ := Prod.mk.inj (Option.some.inj h)
    trivial
  · dsimp only at h
    split_ifs at h
    · obtain ⟨text, -, htext⟩ := Option.map_eq_some_iff.mp h
      obtain ⟨rfl, -⟩ := Prod.mk.inj htext
      trivial
    · obtain ⟨rfl, -⟩ := Prod.mk.inj (Option.some.inj h)
      trivial
    · obtain ⟨rfl, -⟩ := Prod.mk.inj (Option.some.inj h)
      trivial

theorem read_tag_full {rest : Bytes} {piece : Piece} {n : Nat} (h : read_tag rest = some (piece, n)) : piece.Full := by
  unfold read_tag at h
  split_ifs at h
  · obtain ⟨rfl, -⟩ := Prod.mk.inj (Option.some.inj h)
    trivial
  · obtain ⟨rfl, -⟩ := Prod.mk.inj (Option.some.inj h)
    trivial
  · unfold read_script at h
    dsimp only at h
    split_ifs at h
    · obtain ⟨rfl, -⟩ := Prod.mk.inj (Option.some.inj h)
      trivial
    · obtain ⟨tag_open, -, h⟩ := Returns.of_bind h
      obtain ⟨data, -, h⟩ := Returns.of_bind h
      obtain ⟨rfl, -⟩ := Prod.mk.inj (Option.some.inj h)
      trivial
  · split at h
    · rename_i name dropped hfind
      obtain ⟨rfl, -⟩ := Prod.mk.inj (Option.some.inj h)
      have hmem := List.mem_of_find?_eq_some hfind
      simp only [DROPPED_TAGS, List.mem_cons, Prod.mk.injEq, List.not_mem_nil, or_false] at hmem
      rcases hmem with ⟨-, rfl⟩ | ⟨-, rfl⟩ | ⟨-, rfl⟩ | ⟨-, rfl⟩ | ⟨-, rfl⟩ | ⟨-, rfl⟩ <;> trivial
    · unfold read_plain_tag at h
      dsimp only at h
      split_ifs at h
      · obtain ⟨rfl, -⟩ := Prod.mk.inj (Option.some.inj h)
        trivial
      · obtain ⟨tag_slice, -, h⟩ := Returns.of_bind h
        obtain ⟨rfl, -⟩ := Prod.mk.inj (Option.some.inj h)
        trivial

/-- What is read is never an indented glyph without bytes. -/
theorem read_piece_full {skip : Option SkipTag} {style_len : Nat} {rest : Bytes} {piece : Piece} {n : Nat}
    (hne : rest ≠ []) (h : read_piece skip style_len rest = some (piece, n)) : piece.Full := by
  unfold read_piece at h
  split at h
  · exact read_skipped_full h
  · obtain ⟨ch, -, h⟩ := Returns.of_bind h
    split_ifs at h
    · have htext := read_text_full hne ch
      rw [Option.some.inj h] at htext
      exact htext
    · exact read_tag_full h

end OpenLine

/-! ## The run -/

section Run

variable {raw rest : Bytes} {rgb : Rgb} {doc doc' : Doc} {ws : Writes}

/-- What is so in front of every round. -/
structure Traces (st : (Bytes × Doc) × Writes) : Prop where
  ok : DocOk st.1.2
  page : st.1.2.page = st.2.page.map Prod.fst
  nodup : st.2.visible.Nodup
  behind : ∀ c ∈ st.2.visible, ∃ p, c.2 = some p ∧ st.1.1.length < p.1
  open_line : Page.OpenLine st.2.page

/-- What is so behind the loop: the flag may have been set for want of lines. -/
structure Ended (r : Doc × Writes) : Prop where
  ok : DocOk r.1
  lines : r.1.page.lines = r.2.page.lines.map (List.map Prod.fst)
  cur : r.1.page.cur = r.2.page.cur.map Prod.fst
  truncated : r.1.html_truncated = false → r.2.page.truncated = false
  nodup : r.2.visible.Nodup
  open_line : Page.OpenLine r.2.page

theorem Traces.ended (h : Traces ((rest, doc), ws)) (hdoc : doc' = doc ∨ doc' = { doc with html_truncated := true }) :
    Ended (doc', ws) := by
  have hpage : doc.page = ws.page.map Prod.fst := h.page
  have hlines : doc.page.lines = ws.page.lines.map (List.map Prod.fst) := congrArg Page.lines hpage
  have hcur : doc.page.cur = ws.page.cur.map Prod.fst := congrArg Page.cur hpage
  have htruncated : doc.html_truncated = ws.page.truncated := congrArg Page.truncated hpage
  rcases hdoc with rfl | rfl
  · exact ⟨h.ok, hlines, hcur, fun hfalse => htruncated.symm.trans hfalse, h.nodup, h.open_line⟩
  · have hok : DocOk { doc with html_truncated := true } :=
      ⟨h.ok.screen.of_cur h.ok.screen.cur true, h.ok.style, h.ok.blocks, h.ok.colours⟩
    refine ⟨hok, hlines, hcur, fun hfalse => ?_, h.nodup, h.open_line⟩
    cases hfalse

/-- A round that ends the loop. -/
theorem doc_round_inr (h : doc_round (rest, doc) = some (.inr doc')) :
    doc' = doc ∨ doc' = { doc with html_truncated := true } := by
  unfold doc_round at h
  dsimp only at h
  split_ifs at h
  · exact .inl (Sum.inr.inj (Option.some.inj h)).symm
  · exact .inr (Sum.inr.inj (Option.some.inj h)).symm
  · obtain ⟨⟨piece, n⟩, -, h⟩ := Returns.of_bind h
    dsimp only at h
    split_ifs at h
    · exact .inl (Sum.inr.inj (Option.some.inj h)).symm
    · obtain ⟨d, -, h⟩ := Returns.of_bind h
      cases Option.some.inj h

theorem page_append (ws more : Writes) : Writes.page (ws ++ more) = Page.run screen_full more ws.page :=
  Page.run_append screen_full ws more _

/-- What a piece adds to the trace. -/
theorem Traces.round {rest' : Bytes} (h : Traces ((rest, doc), ws))
    (hround : doc_round (rest, doc) = some (.inl (rest', doc'))) :
    ∃ piece n more, read_piece doc.skip doc.style_buf.length rest = some (piece, n) ∧
      doc.writes doc.cur.data rest.length piece = some more ∧ Traces ((rest', doc'), ws ++ more) ∧
      rest'.length < rest.length := by
  obtain ⟨hne, -, piece, n, hread, -, hact, -⟩ := doc_round_inl hround
  obtain ⟨hok, hless⟩ := doc_round_drop h.ok hround
  obtain ⟨more, hmore, hpage⟩ := act_writes rest.length hact
  have hplaced := writes_placed hmore
  refine ⟨piece, n, more, hread, hmore, ⟨hok, ?_, ?_, ?_, ?_⟩, hless⟩
  · show doc'.page = (Writes.page (ws ++ more)).map Prod.fst
    have hbefore : doc.page = ws.page.map Prod.fst := h.page
    rw [page_append, Page.run_map, hpage, hbefore]
    rfl
  · show (Writes.visible (ws ++ more)).Nodup
    rw [visible_append]
    -- what was written before is from farther in front
    apply List.Nodup.append h.nodup hplaced.1
    intro c hold hnew
    obtain ⟨p, hp, hfar⟩ := h.behind c hold
    obtain ⟨k, hk⟩ := hplaced.2 c hnew
    rw [Option.some.inj (hp.symm.trans hk)] at hfar
    exact absurd hfar (Nat.lt_irrefl _)
  · show ∀ c ∈ Writes.visible (ws ++ more), _
    rw [visible_append]
    intro c hc
    rcases List.mem_append.mp hc with hold | hnew
    · obtain ⟨p, hp, hfar⟩ := h.behind c hold
      exact ⟨p, hp, Nat.lt_trans hless hfar⟩
    · obtain ⟨k, hk⟩ := hplaced.2 c hnew
      exact ⟨(rest.length, k), hk, hless⟩
  · show Page.OpenLine (Writes.page (ws ++ more))
    rw [page_append]
    exact (writes_end (read_piece_full hne hread) hmore).run h.open_line

theorem traced_round_returns (h : Traces ((rest, doc), ws)) :
    Returns (traced_round ((rest, doc), ws))
      (RoundOk Traces (fun st => st.1.1.length) Ended ((rest, doc), ws)) := by
  obtain ⟨o, ho, -⟩ := @doc_round_returns rest _ h.ok
  unfold traced_round
  dsimp only
  rw [ho]
  cases o with
  | inl st =>
    obtain ⟨piece, n, more, hread, hmore, htraces, hless⟩ := h.round ho
    rw [Option.bind_eq_bind, Option.bind_some]
    dsimp only
    rw [hread, Option.bind_eq_bind, Option.bind_some]
    dsimp only
    rw [hmore]
    exact .goOn htraces hless
  | inr d => exact .done (h.ended (doc_round_inr ho))

theorem traces_start (raw : Bytes) (rgb : Rgb) : Traces ((raw, Doc.start rgb), []) :=
  ⟨start_ok rgb, rfl, List.nodup_nil, fun _ h => absurd h List.not_mem_nil, fun _ hcur => absurd rfl hcur⟩

/-- The trace changes nothing. -/
theorem loop_of_traced {n : Nat} {st : Bytes × Doc} {ws ws' : Writes}
    (h : loop traced_round n (st, ws) = some (doc, ws')) : loop doc_round n st = some doc := by
  induction n generalizing st ws with
  | zero => cases h
  | succ n ih =>
    obtain ⟨rest, before⟩ := st
    rw [loop] at h ⊢
    unfold traced_round at h
    dsimp only at h
    cases ho : doc_round (rest, before) with
    | none =>
      rw [ho] at h
      cases h
    | some o =>
      rw [ho, Option.bind_eq_bind, Option.bind_some] at h
      cases o with
      | inr d =>
        obtain ⟨rfl, -⟩ := Prod.mk.inj (Option.some.inj h)
        rfl
      | inl st' =>
        dsimp only at h ⊢
        cases hread : read_piece before.skip before.style_buf.length rest with
        | none =>
          rw [hread] at h
          cases h
        | some r =>
          rw [hread, Option.bind_eq_bind, Option.bind_some] at h
          cases hmore : before.writes before.cur.data rest.length r.1 with
          | none =>
            rw [hmore] at h
            cases h
          | some more =>
            rw [hmore] at h
            exact ih h

/-- What follows the loop. -/
theorem finish_lines {out : Rendered} (h : doc.finish = some out) :
    out.html_truncated = doc.html_truncated ∧ ∃ note,
      out.lines.map BrowserLine.data =
        (if 0 < doc.cur.len ∧ doc.line_count < BROWSER_MAX_LINES then doc.page.lines ++ [doc.page.cur]
          else doc.page.lines) ++ note ∧ (note = [] ∨ note = [SCRIPTS_NOTE.data]) := by
  obtain ⟨s, hs, h⟩ := Returns.of_bind h
  obtain ⟨t, ht, h⟩ := Returns.of_bind h
  obtain rfl := Option.some.inj h
  have hflushed : s.html_truncated = doc.html_truncated ∧ s.page.lines =
      if 0 < doc.cur.len ∧ doc.line_count < BROWSER_MAX_LINES then doc.page.lines ++ [doc.page.cur]
      else doc.page.lines := by
    split_ifs at hs ⊢ with hroom
    · have hpage := flush_line_page hs
      have hopen : screen_full doc.page.lines.length = false := by
        rw [Bool.eq_false_iff]
        exact fun hfull => Nat.not_lt.mpr ((screen_full_iff doc.toScreen).mp hfull) hroom.2
      unfold Page.flush at hpage
      rw [hopen, if_neg Bool.false_ne_true] at hpage
      exact ⟨congrArg Page.truncated hpage, congrArg Page.lines hpage⟩
    · obtain rfl := Option.some.inj hs
      exact ⟨rfl, rfl⟩
  rw [← hflushed.2]
  split_ifs at ht
  · have hpage := put_line_page ht
    exact ⟨(congrArg Page.truncated hpage).trans hflushed.1, [SCRIPTS_NOTE.data], congrArg Page.lines hpage, .inr rfl⟩
  · obtain rfl := Option.some.inj ht
    exact ⟨hflushed.1, [], (List.append_nil _).symm, .inl rfl⟩

theorem Ended.lines_length {r : Doc × Writes} (h : Ended r) : r.2.page.lines.length = r.1.line_count := by
  rw [← page_lines_length]
  show _ = r.1.page.lines.length
  rw [h.lines, List.length_map]

theorem Ended.cur_empty_iff {r : Doc × Writes} (h : Ended r) : r.2.page.cur ≠ [] ↔ 0 < r.1.cur.len := by
  show _ ↔ 0 < r.1.page.cur.length
  rw [h.cur, List.length_map, List.length_pos_iff]

/-- What is shown of the trace is what is shown. -/
theorem Ended.shown {r : Doc × Writes} (h : Ended r) :
    (if 0 < r.1.cur.len ∧ r.1.line_count < BROWSER_MAX_LINES then r.1.page.lines ++ [r.1.page.cur]
      else r.1.page.lines) = r.2.shown.map (List.map Prod.fst) := by
  unfold Writes.shown
  simp only [h.cur_empty_iff, h.lines_length, h.lines, h.cur]
  split_ifs
  · rw [List.map_append, List.map_singleton]
  · rfl

/-- **Every document that looks like HTML is formatted**, and is known how. -/
theorem formats (mem : RenderMemory) (hhtml : looks_like_html raw = true) (rgb : Rgb) :
    ∃ doc ws out, Formats mem raw rgb doc ws out ∧ Ended (doc, ws) ∧ out.html_truncated = doc.html_truncated := by
  obtain ⟨⟨doc, ws⟩, htraced, hended⟩ := loop_returns (m := fun st : (Bytes × Doc) × Writes => st.1.1.length)
    (fun st hst => traced_round_returns hst) (traces_start raw rgb) (Nat.lt_succ_self _)
  have hlays : Lays raw rgb doc := loop_of_traced htraced
  obtain ⟨out, hout, -⟩ := finish_returns hended.ok
  obtain ⟨htruncated, note, hlines, hnote⟩ := finish_lines hout
  obtain ⟨dom_tree, hformat⟩ := format_document_eq hhtml ((format_html_of_lays hlays).trans hout) mem
  refine ⟨doc, ws, out, ⟨hlays, htraced, ⟨_, hformat⟩, note, ?_, hnote⟩, hended, htruncated⟩
  rw [hlines, hended.shown]

/-- Where nothing was left out before, a byte is on no line exactly if a line is dropped. -/
theorem Ended.lost_iff {r : Doc × Writes} (h : Ended r) (hkept : r.1.html_truncated = false) :
    (∃ c ∈ r.2.visible, ∀ line ∈ r.2.shown, c ∉ line) ↔ r.1.DropsLine := by
  have htext : r.2.page.text = Page.cells r.2 := (Page.run_text screen_full (h.truncated hkept)).2
  unfold Doc.DropsLine
  constructor
  · rintro ⟨c, hc, hlost⟩
    have hmem : c ∈ r.2.page.lines.flatten ++ r.2.page.cur := by
      rw [← Page.text, htext]
      exact (List.mem_filter.mp hc).1
    unfold Writes.shown at hlost
    by_cases hroom : r.2.page.cur ≠ [] ∧ r.2.page.lines.length < BROWSER_MAX_LINES
    · -- the open line is shown, so everything is
      rw [if_pos hroom] at hlost
      rcases List.mem_append.mp hmem with hline | hcur
      · obtain ⟨line, hline, hin⟩ := List.mem_flatten.mp hline
        exact absurd hin (hlost line (List.mem_append_left _ hline))
      · exact absurd hcur (hlost _ (List.mem_append_right _ List.mem_cons_self))
    · rw [if_neg hroom] at hlost
      have hcur : c ∈ r.2.page.cur := by
        rcases List.mem_append.mp hmem with hline | hcur
        · obtain ⟨line, hline, hin⟩ := List.mem_flatten.mp hline
          exact absurd hin (hlost line hline)
        · exact hcur
      have hne : r.2.page.cur ≠ [] := List.ne_nil_of_mem hcur
      rw [not_and, h.lines_length] at hroom
      exact ⟨Nat.le_of_not_lt (hroom hne), h.cur_empty_iff.mp hne, hkept⟩
  · rintro ⟨hfull, hcur, -⟩
    have hne := h.cur_empty_iff.mpr hcur
    obtain ⟨c, hc, hvisible⟩ := h.open_line (h.truncated hkept) hne
    have hall : r.2.visible = (r.2.page.lines.flatten ++ r.2.page.cur).filter fun c => c.2.isSome := by
      rw [← Page.text, htext]
      rfl
    refine ⟨c, ?_, ?_⟩
    · rw [hall]
      exact List.mem_filter.mpr ⟨List.mem_append_right _ hc, hvisible⟩
    · unfold Writes.shown
      rw [if_neg fun hroom => Nat.not_lt.mpr hfull (h.lines_length ▸ hroom.2)]
      intro line hline hin
      -- the byte on the open line would have been written twice
      have hnodup := h.nodup
      rw [hall, List.filter_append] at hnodup
      have hapart := (List.nodup_append.mp hnodup).2.2
      have hfront : c ∈ r.2.page.lines.flatten.filter fun c => c.2.isSome :=
        List.mem_filter.mpr ⟨List.mem_flatten.mpr ⟨line, hline, hin⟩, hvisible⟩
      exact hapart c hfront c (List.mem_filter.mpr ⟨hc, hvisible⟩) rfl

/-- Lines of eight characters, 127 empty ones and nine characters. -/
def NINE_CHARACTERS : Bytes :=
  ascii "<div style=width:8ch>" ++ (List.replicate 126 (ascii "<p>")).flatten ++ ascii "123456789"

end Run

end EveOS.Html
