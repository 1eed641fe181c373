/-
Skipped content cannot influence the page.

The loop gets to the end of a prefix `P` in the same state whatever tag follows
(`visits_cut`, from the locality of reading), reads the opening tag, which says
which element is skipped, and finds the closing tag where the body ends. So two
bodies lead to the same state in front of the same text, and the result of a loop
is the result from any state it gets to.
-/
import EveOS.Html.Locality
import EveOS.Html.Rendering

set_option autoImplicit false

namespace EveOS.Html

/-! ## Rounds -/

section Rounds

variable {rest rest' : Bytes} {doc doc' : Doc}

/-- A round that goes on. -/
theorem doc_round_inl (h : doc_round (rest, doc) = some (.inl (rest', doc'))) :
    rest ≠ [] ∧ doc.line_count < BROWSER_MAX_LINES ∧ ∃ piece n,
      read_piece doc.skip doc.style_buf.length rest = some (piece, n) ∧ piece ≠ .unclosed ∧
        doc.act piece = some doc' ∧ rest' = rest.drop n := by
  unfold doc_round at h
  dsimp only at h
  split_ifs at h with hend hfull
  · cases Option.some.inj h
  · cases Option.some.inj h
  · obtain ⟨⟨piece, n⟩, hread, h⟩ := Returns.of_bind h
    dsimp only at h
    split_ifs at h with hunclosed
    · cases Option.some.inj h
    · obtain ⟨d, hact, h⟩ := Returns.of_bind h
      obtain ⟨rfl, rfl⟩ := Prod.mk.inj (Sum.inl.inj (Option.some.inj h))
      exact ⟨hend, Nat.lt_of_not_le hfull, piece, n, hread, hunclosed, hact, rfl⟩

/-- What makes a round go on. -/
theorem doc_round_of_read {piece : Piece} {n : Nat} (hend : rest ≠ [])
    (hfull : doc.line_count < BROWSER_MAX_LINES)
    (hread : read_piece doc.skip doc.style_buf.length rest = some (piece, n))
    (hgo : piece ≠ .unclosed) (hact : doc.act piece = some doc') :
    doc_round (rest, doc) = some (.inl (rest.drop n, doc')) := by
  unfold doc_round
  dsimp only
  rw [if_neg hend, if_neg (Nat.not_le.mpr hfull), hread]
  dsimp only [Option.bind_eq_bind, Option.bind_some]
  rw [if_neg hgo, hact]
  rfl

/-- A round that has no room left ends the loop. -/
theorem doc_round_full (hend : rest ≠ []) (hfull : BROWSER_MAX_LINES ≤ doc.line_count) :
    doc_round (rest, doc) = some (.inr { doc with html_truncated := true }) := by
  unfold doc_round
  dsimp only
  rw [if_neg hend, if_pos hfull]

/-- A round uses up some of the document. -/
theorem doc_round_drop (hok : DocOk doc) (h : doc_round (rest, doc) = some (.inl (rest', doc'))) :
    DocOk doc' ∧ rest'.length < rest.length := (doc_round_returns hok).of_eq h

theorem visits_ok {s t : Bytes × Doc} (h : Visits doc_round s t) (hok : DocOk s.2) : DocOk t.2 :=
  h.invariant (I := fun st => DocOk st.2) (fun _ _ hs hround => (doc_round_drop hs hround).1) hok

theorem visits_length_le {s t : Bytes × Doc} (h : Visits doc_round s t) (hok : DocOk s.2) :
    t.1.length ≤ s.1.length := by
  refine (h.invariant (I := fun st => DocOk st.2 ∧ st.1.length ≤ s.1.length) ?_
    ⟨hok, Nat.le_refl _⟩).2
  intro u v hu hround
  have hdrop := doc_round_drop hu.1 hround
  exact ⟨hdrop.1, by have := hu.2; omega⟩

/-- A round in a style element that is never closed: the element is not left, and
nothing is shown. -/
theorem unclosed_style_round {s t : Bytes × Doc} (hskip : s.2.skip = some .style)
    (hnone : find_sub_ci s.1 SkipTag.style.close = none) (hround : doc_round s = some (.inl t)) :
    (t.2.skip = some .style ∧ find_sub_ci t.1 SkipTag.style.close = none) ∧
      t.2.toScreen = s.2.toScreen := by
  obtain ⟨rest, doc⟩ := s
  obtain ⟨rest', doc'⟩ := t
  obtain ⟨-, -, piece, n, hread, hgo, hact, rfl⟩ := doc_round_inl hround
  dsimp only at hskip hnone ⊢
  have hdrop := find_sub_ci_drop SkipTag.style.close_ne hnone n
  unfold read_piece at hread
  rw [hskip] at hread
  dsimp only at hread
  unfold read_skipped at hread
  rw [hnone] at hread
  dsimp only at hread
  rw [if_pos rfl] at hread
  split_ifs at hread
  · obtain ⟨text, -, hread⟩ := Option.map_eq_some_iff.mp hread
    obtain ⟨rfl, -⟩ := Prod.mk.inj hread
    unfold Doc.act Doc.add_style at hact
    dsimp only at hact
    split_ifs at hact
    obtain rfl := Option.some.inj hact
    exact ⟨⟨hskip, hdrop⟩, rfl⟩
  · obtain ⟨rfl, -⟩ := Prod.mk.inj (Option.some.inj hread)
    obtain rfl := Option.some.inj hact
    exact ⟨⟨hskip, hdrop⟩, rfl⟩

/-- A style element that is never closed is never left. -/
theorem unclosed_style_visits {s t : Bytes × Doc} (h : Visits doc_round s t)
    (hskip : s.2.skip = some .style) (hnone : find_sub_ci s.1 SkipTag.style.close = none) :
    t.2.skip = some .style :=
  (h.invariant (I := fun st => st.2.skip = some .style ∧
    find_sub_ci st.1 SkipTag.style.close = none)
    (fun _ _ hst hround => (unclosed_style_round hst.1 hst.2 hround).1) ⟨hskip, hnone⟩).1

/-- **The way to a tag does not depend on the tag.** -/
theorem visits_cut {p x : Bytes} {d doc : Doc} (hok : DocOk d)
    (h : Visits doc_round (p ++ 60 :: x, d) (60 :: x, doc)) (hskip : doc.skip = none) (y : Bytes) :
    Visits doc_round (p ++ 60 :: y, d) (60 :: y, doc) := by
  generalize hs : (p ++ 60 :: x, d) = s at h
  generalize ht : (60 :: x, doc) = t at h
  induction h generalizing p d with
  | refl s =>
    obtain ⟨hrest, rfl⟩ := Prod.mk.inj (hs.trans ht.symm)
    obtain rfl : p = [] := List.append_left_eq_self.mp hrest
    exact .refl _
  | @step s s' t hstep hrest ih =>
    subst hs
    subst ht
    obtain ⟨rest', d'⟩ := s'
    obtain ⟨hok', hless⟩ := doc_round_drop hok hstep
    have hlen := visits_length_le hrest hok'
    obtain ⟨-, hfull, piece, n, hread, hgo, hact, rfl⟩ := doc_round_inl hstep
    -- the piece ends inside `p`
    dsimp only at hlen
    simp only [List.length_drop, List.length_append, List.length_cons] at hlen hless
    have hn : n ≤ p.length := by omega
    have hp : p ≠ [] := by
      rintro rfl
      rw [List.length_nil] at hn
      omega
    have hstyle : d.skip = some .style → find_sub_ci (p ++ 60 :: x) SkipTag.style.close ≠ none := by
      intro hs hnone
      have hstill := unclosed_style_visits (.step hstep hrest) hs hnone
      rw [hskip] at hstill
      cases hstill
    have hread' := read_piece_cut hp hread hn hgo hstyle y
    refine .step (doc_round_of_read (by simp) hfull hread' hgo hact) ?_
    rw [List.drop_append_of_le_length hn] at hrest ih ⊢
    exact ih hok' rfl rfl

end Rounds

/-! ## An element whose content is skipped -/

/-- How the opening tag begins. -/
def SkipTag.opening : SkipTag → Bytes
  | .script => ascii "<script"
  | .template => ascii "<template"
  | .iframe => ascii "<iframe"
  | .object => ascii "<object"
  | .title => ascii "<title"
  | .style => ascii "<style"

/-- An opening tag, which its first `>` ends. -/
structure OpenTag (m : SkipTag) (T : Bytes) : Prop where
  begins : starts_ci T 0 m.opening = true
  ends : ∃ inside, T = inside ++ [62] ∧ (62 : UInt8) ∉ inside

/-- The closing tag, in any letter case. -/
def ClosingTag (m : SkipTag) (C : Bytes) : Prop := C.map to_lower = m.close

/-- The closing tag `C` stands nowhere in the body, also not across its end. -/
def BodyOf (m : SkipTag) (B C : Bytes) : Prop :=
  ∀ j < B.length, starts_ci (B ++ C) j m.close = false

section Element

variable {m : SkipTag} {T B C : Bytes}

/-- The closing tag is found where the body ends. -/
theorem find_closing_tag (hC : ClosingTag m C) (hB : BodyOf m B C) (S : Bytes) :
    find_sub_ci (B ++ (C ++ S)) m.close = some B.length := by
  have hlen : m.close.length = C.length := by rw [← hC, List.length_map]
  rw [find_sub_ci_eq_some m.close_ne, ← List.append_assoc]
  constructor
  · rw [List.append_assoc, starts_ci_append_right, starts_ci_iff, List.drop_zero, hlen,
      List.take_left, List.length_append]
    exact ⟨by omega, hC⟩
  · intro j hj
    rw [starts_ci_append (by rw [List.length_append]; omega)]
    exact hB j hj

/-- The tag's `>` is its last byte. -/
theorem OpenTag.scan_end (hT : OpenTag m T) {i : Nat} (hi : i < T.length) (Z : Bytes) :
    scan (· != 62) (T ++ Z) i + 1 = T.length := by
  obtain ⟨inside, rfl, hno⟩ := hT.ends
  rw [List.length_append, List.length_singleton] at hi ⊢
  unfold scan
  rw [List.append_assoc, List.drop_append_of_le_length (by omega), List.takeWhile_append_of_pos,
    List.singleton_append, List.takeWhile_cons_of_neg (by decide), List.append_nil, List.length_drop]
  · omega
  · intro c hc
    have hne : c ≠ 62 := fun h => hno (h ▸ List.mem_of_mem_drop hc)
    simpa using hne

/-- No opening begins another pattern. -/
theorem opening_alone (m : SkipTag) {b : Bytes}
    (hb : b ∈ ascii "<!--" :: ascii "<meta" :: ascii "<link" :: ascii "<base" :: ascii "<script" ::
      DROPPED_TAGS.map Prod.fst) (hne : b ≠ m.opening) : ¬ m.opening <+: b ∧ ¬ b <+: m.opening := by
  revert hne
  revert b
  cases m <;> decide

/-- The tag that begins an element whose content is dropped. -/
theorem find_dropped {s : Bytes} (hm : m ≠ .script) (h : starts_ci s 0 m.opening = true) :
    (DROPPED_TAGS.find? fun (name, _) => starts_ci s 0 name) = some (m.opening, .open_skip m) := by
  have hname : ∀ e ∈ DROPPED_TAGS, starts_ci s 0 e.1 = (e.1 == m.opening) := by
    intro e he
    by_cases heq : e.1 = m.opening
    · rw [heq, h, beq_self_eq_true]
    · have hpat : e.1 ∈ DROPPED_TAGS.map Prod.fst := List.mem_map_of_mem he
      obtain ⟨hab, hba⟩ := opening_alone m (by simp only [List.mem_cons, hpat, or_true]) heq
      rw [not_starts_ci h hab hba, beq_false_of_ne heq]
  refine (List.find?_congr hname).trans ?_
  cases m with
  | script => exact absurd rfl hm
  | _ => decide

/-- The piece an opening tag is read as. -/
def open_piece (m : SkipTag) (T : Bytes) : Option Piece :=
  if m = .script then (script_mime_is_non_javascript T).map fun data => .open_script (!data)
  else some (.open_skip m)

theorem open_piece_returns (m : SkipTag) (T : Bytes) : Returns (open_piece m T) fun piece =>
    piece = .open_skip m ∨ m = .script ∧ ∃ js, piece = .open_script js := by
  unfold open_piece
  split_ifs with hm
  · obtain ⟨data, hdata, -⟩ := script_mime_returns T
    rw [hdata]
    exact .ret (.inr ⟨hm, _, rfl⟩)
  · exact .ret (.inl rfl)

theorem OpenTag.length_pos (hT : OpenTag m T) : 1 < T.length := by
  have hlen := (starts_ci_iff.mp hT.begins).1
  have hopen : 1 < m.opening.length := by cases m <;> decide
  omega

theorem to_lower_eq_lt {c : UInt8} (h : to_lower c = 60) : c = 60 := by
  unfold to_lower lowerAscii at h
  split_ifs at h with hupper
  · exfalso
    have hval := congrArg UInt8.toNat h
    rw [UInt8.le_iff_toNat_le, UInt8.le_iff_toNat_le] at hupper
    rw [UInt8.toNat_add] at hval
    change 65 ≤ c.toNat ∧ c.toNat ≤ 90 at hupper
    change (c.toNat + 32) % 256 = 60 at hval
    omega
  · exact h

/-- The first byte is `<`. -/
theorem OpenTag.cons (hT : OpenTag m T) : ∃ T', T = 60 :: T' := by
  obtain ⟨c, T', rfl⟩ := List.exists_cons_of_ne_nil
    (List.length_pos_iff.mp (Nat.lt_of_succ_lt hT.length_pos))
  have hmatch := (starts_ci_iff.mp hT.begins).2
  have hopen : m.opening.head? = some 60 := by cases m <;> decide
  obtain ⟨name, hname⟩ := List.head?_eq_some_iff.mp hopen
  rw [hname, List.length_cons, List.drop_zero, List.take_succ_cons, List.map_cons] at hmatch
  obtain rfl := to_lower_eq_lt (List.cons.inj hmatch).1
  exact ⟨T', rfl⟩

/-- **An opening tag is read up to its `>`**, and the rest of the document does
not matter. -/
theorem read_open_tag (hT : OpenTag m T) {piece : Piece} (hpiece : open_piece m T = some piece)
    (style_len : Nat) (Z : Bytes) :
    read_piece none style_len (T ++ Z) = some (piece, T.length) := by
  have hpos := hT.length_pos
  have hbegins : starts_ci (T ++ Z) 0 m.opening = true := by
    rw [starts_ci_append (starts_ci_iff.mp hT.begins).1]
    exact hT.begins
  have hother (b : Bytes) (hb : b ∈ ascii "<!--" :: ascii "<meta" :: ascii "<link" :: ascii "<base" ::
      ascii "<script" :: DROPPED_TAGS.map Prod.fst) (hne : b ≠ m.opening) :
      starts_ci (T ++ Z) 0 b = false := by
    obtain ⟨hab, hba⟩ := opening_alone m hb hne
    exact not_starts_ci hbegins hab hba
  have hcomment := hother (ascii "<!--") (by simp) (by cases m <;> decide)
  have hmeta := hother (ascii "<meta") (by simp) (by cases m <;> decide)
  have hlink := hother (ascii "<link") (by simp) (by cases m <;> decide)
  have hbase := hother (ascii "<base") (by simp) (by cases m <;> decide)
  have htag : read_tag (T ++ Z) = some (piece, T.length) := by
    unfold read_tag
    rw [hcomment, hmeta, hlink, hbase, if_neg Bool.false_ne_true, if_neg (by decide)]
    unfold open_piece at hpiece
    by_cases hm : m = .script
    · subst hm
      obtain ⟨data, hdata, hpiece⟩ := Option.map_eq_some_iff.mp hpiece
      have hscript : starts_ci (T ++ Z) 0 (ascii "<script") = true := hbegins
      rw [if_pos hscript]
      unfold read_script
      dsimp only
      rw [hT.scan_end hpos Z, if_neg (by have := hT.scan_end hpos Z; rw [List.length_append]; omega),
        slice?_append 0 (Nat.le_refl _), slice?_eq (Nat.zero_le _) (Nat.le_refl _), List.drop_zero,
        Nat.sub_zero, List.take_length]
      dsimp only [Option.bind_eq_bind, Option.bind_some]
      rw [hdata]
      exact congrArg (fun piece => some (piece, T.length)) hpiece
    · have hscript := hother (ascii "<script") (by simp) (by revert hm; cases m <;> decide)
      rw [if_neg hm] at hpiece
      rw [hscript, if_neg Bool.false_ne_true, find_dropped hm hbegins]
      have hend := hT.scan_end (Nat.lt_of_succ_lt hpos) Z
      unfold skip_until_gt
      dsimp only
      rw [if_pos (by rw [List.length_append]; omega), hend, ← Option.some.inj hpiece]
  obtain ⟨T', rfl⟩ := hT.cons
  unfold read_piece
  dsimp only
  rw [List.cons_append, List.getElem?_cons_zero]
  dsimp only [Option.bind_eq_bind, Option.bind_some]
  rw [if_neg (by decide)]
  exact htag

/-- What entering and leaving an element leaves behind: a note that there was a
script. -/
theorem enter_and_leave {piece : Piece} (hpiece : open_piece m T = some piece) (doc : Doc) :
    ∃ d₁ d₂, doc.act piece = some d₁ ∧ d₁.skip = some m ∧ d₁.toScreen = doc.toScreen ∧
      d₁.act (.skip_end m) = some d₂ ∧
        (m = .style → doc.skip = none → doc.style_buf = [] → d₂ = doc) := by
  have hopen := (open_piece_returns m T).of_eq hpiece
  rcases hopen with rfl | ⟨rfl, js, rfl⟩
  · cases m with
    | style =>
      refine ⟨_, _, rfl, rfl, rfl, rfl, ?_⟩
      intro _ hskip hbuf
      rw [← hskip, ← hbuf]
    | _ => exact ⟨_, _, rfl, rfl, rfl, rfl, nofun⟩
  · exact ⟨_, _, rfl, rfl, rfl, rfl, nofun⟩

/-- **The loop passes an element without a trace of its body.** -/
theorem element_visits {doc : Doc} (hT : OpenTag m T) (hC : ClosingTag m C) (hskip : doc.skip = none)
    (hroom : doc.line_count < BROWSER_MAX_LINES) :
    ∃ d, (m = .style → doc.style_buf = [] → d = doc) ∧ ∀ B S, BodyOf m B C →
      Visits doc_round (T ++ (B ++ (C ++ S)), doc) (S, d) := by
  obtain ⟨piece, hpiece, hopen⟩ := open_piece_returns m T
  obtain ⟨d₁, d₂, hact₁, hskip₁, hscreen, hact₂, hstyle⟩ := enter_and_leave hpiece doc
  refine ⟨d₂, fun hm hbuf => hstyle hm hskip hbuf, ?_⟩
  intro B S hB
  have hgo : piece ≠ .unclosed := by
    rintro rfl
    rcases hopen with h | ⟨-, js, h⟩ <;> cases h
  -- the opening tag
  have hT₁ : doc_round (T ++ (B ++ (C ++ S)), doc) = some (.inl (B ++ (C ++ S), d₁)) := by
    have hread := read_open_tag hT hpiece doc.style_buf.length (B ++ (C ++ S))
    rw [← hskip] at hread
    have hround := doc_round_of_read (by
      have := hT.length_pos
      exact List.length_pos_iff.mp (by rw [List.length_append]; omega)) hroom hread hgo hact₁
    rwa [List.drop_left] at hround
  -- the body and the closing tag
  have hclose : m.close.length = C.length := by rw [← hC, List.length_map]
  have hC₁ : doc_round (B ++ (C ++ S), d₁) = some (.inl (S, d₂)) := by
    have hread : read_piece d₁.skip d₁.style_buf.length (B ++ (C ++ S))
        = some (.skip_end m, B.length + m.close.length) := by
      unfold read_piece
      rw [hskip₁]
      dsimp only
      unfold read_skipped
      rw [find_closing_tag hC hB S]
    have hroom₁ : d₁.line_count < BROWSER_MAX_LINES := by rw [hscreen]; exact hroom
    have hround := doc_round_of_read (by
      have := m.close_pos
      exact List.length_pos_iff.mp (by simp only [List.length_append]; omega)) hroom₁ hread nofun hact₂
    have hrest : (B ++ (C ++ S)).drop (B.length + m.close.length) = S := by
      rw [hclose, ← List.append_assoc, ← List.length_append, List.drop_left]
    rwa [hrest] at hround
  exact .step hT₁ (.step hC₁ (.refl _))

end Element

/-! ## Pages -/

/-- The loop gets to the end of `P` with nothing skipped, on some document that
goes on with a `<` there. -/
def AtTag (P : Bytes) (rgb : Rgb) (doc : Doc) : Prop :=
  doc.skip = none ∧ ∃ x, Visits doc_round (P ++ 60 :: x, Doc.start rgb) (60 :: x, doc)

/-- What the browser shows: the lines written, and the two flags. -/
def SamePage (r₁ r₂ : RenderMemory × Rendered) : Prop :=
  r₁.1.html_render_lines.take r₁.2.line_count = r₂.1.html_render_lines.take r₂.2.line_count ∧
    r₁.2.line_count = r₂.2.line_count ∧ r₁.2.html_truncated = r₂.2.html_truncated ∧
      r₁.2.scripts_stripped = r₂.2.scripts_stripped

/-- The document that the loop ends with. -/
def Lays (raw : Bytes) (rgb : Rgb) (doc : Doc) : Prop :=
  loop doc_round (raw.length + 1) (raw, Doc.start rgb) = some doc

section Pages

variable {P T B C S raw : Bytes} {rgb : Rgb} {m : SkipTag} {doc : Doc}

/-- The loop returns from wherever it is. -/
theorem loop_ends (hok : DocOk doc) (rest : Bytes) :
    ∃ out, DocOk out ∧ loop doc_round (rest.length + 1) (rest, doc) = some out := by
  obtain ⟨out, hout, hok'⟩ := loop_returns (m := fun st : Bytes × Doc => st.1.length)
    (fun st hst => doc_round_returns hst) (s := (rest, doc)) hok (Nat.lt_succ_self _)
  exact ⟨out, hok', hout⟩

/-- What the loop ends with is what it ends with from any place it gets to. -/
theorem lays_of_visits {t : Bytes × Doc} {n : Nat} {out : Doc}
    (h : Visits doc_round (raw, Doc.start rgb) t) (ht : loop doc_round n t = some out) :
    Lays raw rgb out := by
  obtain ⟨out', -, hout'⟩ := loop_ends (start_ok rgb) raw
  obtain rfl := h.loop_eq hout' ht
  exact hout'

/-- **An element after `P` lays out the same whatever its body.** -/
theorem element_lays (hP : AtTag P rgb doc) (hT : OpenTag m T) (hC : ClosingTag m C) (S : Bytes) :
    ∃ out, ∀ B, BodyOf m B C → Lays (P ++ (T ++ (B ++ (C ++ S)))) rgb out := by
  obtain ⟨hskip, x, hvisits⟩ := hP
  have hok : DocOk doc := visits_ok hvisits (start_ok rgb)
  obtain ⟨T', rfl⟩ := hT.cons
  have hway : ∀ Z, Visits doc_round (P ++ (60 :: T' ++ Z), Doc.start rgb) (60 :: T' ++ Z, doc) :=
    fun Z => visits_cut (start_ok rgb) hvisits hskip (T' ++ Z)
  by_cases hroom : doc.line_count < BROWSER_MAX_LINES
  · obtain ⟨d, -, hd⟩ := element_visits hT hC hskip hroom
    -- the rest of the document, from the state that every body leads to
    by_cases hsome : ∃ B, BodyOf m B C
    · obtain ⟨B₀, hB₀⟩ := hsome
      obtain ⟨out, -, hout⟩ := loop_ends (visits_ok (hd B₀ S hB₀) hok) S
      exact ⟨out, fun B hB => lays_of_visits ((hway _).trans (hd B S hB)) hout⟩
    · exact ⟨doc, fun B hB => absurd ⟨B, hB⟩ hsome⟩
  · -- no line is left: the loop ends in front of the tag
    refine ⟨{ doc with html_truncated := true }, fun B hB => lays_of_visits (n := 1) (hway _) ?_⟩
    rw [loop, doc_round_full (by simp) (Nat.le_of_not_lt hroom)]

/-- A prefix that looks like HTML makes the document look like it. -/
theorem looks_like_html_append (h : looks_like_html P = true) (Z : Bytes) :
    looks_like_html (P ++ Z) = true := by
  unfold looks_like_html at h ⊢
  rw [List.any_eq_true] at h ⊢
  obtain ⟨mark, hmark, hfound⟩ := h
  have hne : mark ≠ [] := by
    have hall : ∀ mark ∈ HTML_MARKS, mark ≠ [] := by decide
    exact hall mark hmark
  refine ⟨mark, hmark, ?_⟩
  rw [List.take_append]
  exact find_sub_ci_isSome_append hne hfound _

/-- What `format_document` returns for a document that looks like HTML. -/
theorem format_document_eq (hhtml : looks_like_html raw = true) {out : Rendered}
    (hformat : format_html raw rgb = some out) (mem : RenderMemory) :
    ∃ dom_tree, format_document mem raw rgb =
      some (⟨out.lines ++ mem.html_render_lines.drop out.line_count, dom_tree⟩, out) := by
  obtain ⟨dom_tree, hdom, -⟩ := build_text_dom_returns raw mem.dom_tree
  refine ⟨dom_tree, ?_⟩
  unfold format_document
  rw [hdom]
  dsimp only [Option.bind_eq_bind, Option.bind_some]
  rw [if_pos hhtml, hformat]
  rfl

theorem format_html_of_lays (h : Lays raw rgb doc) : format_html raw rgb = doc.finish := by
  unfold format_html
  rw [h]
  rfl

/-- Documents that look like HTML and lay out the same are the same page. -/
theorem same_page {raw' : Bytes} (hhtml : looks_like_html raw = true)
    (hhtml' : looks_like_html raw' = true) (h : Lays raw rgb doc) (h' : Lays raw' rgb doc)
    (mem mem' : RenderMemory) :
    ∃ r r', format_document mem raw rgb = some r ∧ format_document mem' raw' rgb = some r' ∧
      SamePage r r' := by
  obtain ⟨d, hok, hd⟩ := loop_ends (start_ok rgb) raw
  obtain rfl : doc = d := Option.some.inj (h.symm.trans hd)
  obtain ⟨out, hout, -⟩ := finish_returns hok
  obtain ⟨t, ht⟩ := format_document_eq hhtml ((format_html_of_lays h).trans hout) mem
  obtain ⟨t', ht'⟩ := format_document_eq hhtml' ((format_html_of_lays h').trans hout) mem'
  refine ⟨_, _, ht, ht', ?_, rfl, rfl, rfl⟩
  unfold Rendered.line_count
  rw [List.take_left, List.take_left]

/-- **Skipped content cannot influence the page.** The loop stands in front of a
tag at the end of `P`, and `P` looks like HTML; two bodies of a skipped element,
in which the closing tag does not occur, make the same page. -/
theorem skipped_content_is_invisible {B₁ B₂ : Bytes} (hP : AtTag P rgb doc)
    (hhtml : looks_like_html P = true) (hT : OpenTag m T) (hC : ClosingTag m C)
    (hB₁ : BodyOf m B₁ C) (hB₂ : BodyOf m B₂ C) (S : Bytes) (mem₁ mem₂ : RenderMemory) :
    ∃ r₁ r₂, format_document mem₁ (P ++ T ++ B₁ ++ C ++ S) rgb = some r₁ ∧
      format_document mem₂ (P ++ T ++ B₂ ++ C ++ S) rgb = some r₂ ∧ SamePage r₁ r₂ := by
  obtain ⟨out, hout⟩ := element_lays hP hT hC S
  simp only [List.append_assoc]
  exact same_page (looks_like_html_append hhtml _) (looks_like_html_append hhtml _)
    (hout B₁ hB₁) (hout B₂ hB₂) mem₁ mem₂

/-- Two scripts behind `<html>`. -/
theorem two_scripts_one_page :
    ∃ r₁ r₂,
      format_document ⟨[], .new⟩ (ascii "<html>" ++ ascii "<script>" ++ ascii "f()" ++ ascii "</SCRIPT>" ++
        ascii "<p>Hi") (0, 0, 0) = some r₁ ∧
      format_document ⟨[], .new⟩ (ascii "<html>" ++ ascii "<script>" ++ ascii "while(1);" ++
        ascii "</SCRIPT>" ++ ascii "<p>Hi") (0, 0, 0) = some r₂ ∧ SamePage r₁ r₂ := by
  have hround : doc_round (ascii "<html>" ++ [60], Doc.start (0, 0, 0))
      = some (.inl ([60], Doc.start (0, 0, 0))) := by decide
  have hP : AtTag (ascii "<html>") (0, 0, 0) (Doc.start (0, 0, 0)) := ⟨rfl, [], .step hround (.refl _)⟩
  have hT : OpenTag .script (ascii "<script>") := ⟨by decide, ascii "<script", by decide, by decide⟩
  exact skipped_content_is_invisible hP (by decide) hT (by unfold ClosingTag; decide)
    (by unfold BodyOf; decide) (by unfold BodyOf; decide) _ ⟨[], .new⟩ ⟨[], .new⟩

end Pages

end EveOS.Html
