/-
What a well-nested fragment leaves of the indentation and of the colours.

The block stack and the colour stack are scopes (`Scopes`), and a fragment is a
nesting: of each element it says whether its beginning saves something and
whether its end takes something back. The tags disagree about that in three
places: a closing tag does not know that its opening tag was hidden, `li` and the
headings close a block they never opened, and a full stack saves nothing. So
everything is as before exactly if nothing of that happens, or if nothing was
open (`Nesting.restores_iff`).
-/
import EveOS.Html.Fragment

set_option autoImplicit false

namespace EveOS.Html

/-! ## What a fragment nests -/

/-- The name of an opening tag. -/
def start_name (start : Bytes) : Bytes := (tag_name start false).getD []

/-- An opening tag that no style hides. -/
def Doc.shown (doc : Doc) (start : Bytes) : Bool :=
  (doc.tag_style start (start_name start)).any fun computed => computed.display != .None

/-- An opening tag that opens a block. -/
def Doc.opens_block (doc : Doc) (start : Bytes) : Bool :=
  doc.shown start && name_in (start_name start) OPENING_BLOCKS

/-- The blocks of a fragment: every end closes one. -/
def Frag.blocks (doc : Doc) : Frag → Nesting
  | text _ => .nil
  | elem _ start _ inside after =>
    .scope (doc.opens_block start) true (inside.blocks doc) (after.blocks doc)

def is_link (start : Bytes) : Bool := name_is (start_name start) (ascii "a")

/-- A link that gets the colour of links. -/
def Doc.opens_link (doc : Doc) (start : Bytes) : Bool :=
  doc.shown start && !(tag_href_value_dangerous start).getD false

def Frag.has_link : Frag → Bool
  | text _ => false
  | elem _ start _ inside after => is_link start || inside.has_link || after.has_link

/-- No link inside a link. -/
def Frag.LinksApart : Frag → Prop
  | text _ => True
  | elem _ start _ inside after =>
    (is_link start = true → inside.has_link = false) ∧ inside.LinksApart ∧ after.LinksApart

/-- The colours of a fragment that begins with `a_styled`: the end of a link only
takes a colour back if a link is styled. -/
def Frag.colours (doc : Doc) : Frag → Bool → Nesting
  | text _, _ => .nil
  | elem _ start _ inside after, styled =>
    if is_link start then
      .scope (doc.opens_link start) (doc.opens_link start || styled)
        (inside.colours doc (doc.opens_link start || styled)) (after.colours doc false)
    else
      .scope (doc.shown start) true (inside.colours doc styled)
        (after.colours doc (styled && !inside.has_link))

theorem blocks_closed (doc : Doc) (F : Frag) : (F.blocks doc).Closed := by
  induction F with
  | text bs => trivial
  | elem front start stop inside after ihinside ihafter => exact ⟨fun _ => rfl, ihinside, ihafter⟩

theorem colours_closed (doc : Doc) (F : Frag) (styled : Bool) : (F.colours doc styled).Closed := by
  induction F generalizing styled with
  | text bs => trivial
  | elem front start stop inside after ihinside ihafter =>
    unfold Frag.colours
    split_ifs
    · refine ⟨?_, ihinside _, ihafter _⟩
      intro h
      rw [h, Bool.true_or]
    · exact ⟨fun _ => rfl, ihinside _, ihafter _⟩

section Shapes

variable {doc d : Doc} {start stop name : Bytes}

/-- Which tags are shown only depends on the rules. -/
theorem shown_of_base (h : d.view.base = doc.view.base) (start : Bytes) : d.shown start = doc.shown start := by
  have hrules : d.style_rules = doc.style_rules := congrArg Base.style_rules h
  unfold Doc.shown Doc.tag_style
  rw [hrules]

/-- **What an opening tag does**, by whether it is shown. -/
theorem start_view (hplain : plain_name name = true) (hstart : StartOf name start) (h : doc.tag start = some d) :
    (start_name start).map to_lower = name ∧ ∃ rgb block, d.view =
      if doc.shown start then
        doc.view.open_tag (start_name start) ((tag_href_value_dangerous start).getD false) rgb block
      else doc.view := by
  obtain ⟨written, computed, hname, hwritten, hcomputed, hview⟩ := tag_start_view hplain hstart h
  have hsame : start_name start = written := by rw [start_name, hwritten, Option.getD_some]
  have hshown : doc.shown start = (computed.display != .None) := by
    rw [Doc.shown, hsame, hcomputed, Option.any_some]
  rw [hsame, hshown]
  refine ⟨hname, ?_⟩
  rcases hview with ⟨hhidden, hview⟩ | ⟨hdisplay, rgb, block, hview⟩
  · refine ⟨doc.cur_fg, PAGE_BLOCK, ?_⟩
    rw [hhidden, if_neg (by decide), hview]
  · refine ⟨rgb, block, ?_⟩
    rw [if_pos (bne_iff_ne.mpr hdisplay), hview]

/-- What a fragment does to the view, in a document with these rules. -/
def Frag.Changes (doc : Doc) : Frag → View → View → Prop
  | text _, v, v' => v' = v
  | elem _ start _ inside after, v, v' => ∃ rgb block v₁ n,
      inside.Changes doc
        (if doc.shown start then
          v.open_tag (start_name start) ((tag_href_value_dangerous start).getD false) rgb block
        else v) v₁ ∧
      n.map to_lower = (start_name start).map to_lower ∧ after.Changes doc (v₁.close_tag n) v'

/-- **A run over a fragment changes the view tag by tag.** -/
theorem processes_changes {names : List Bytes} (hplain : ∀ name ∈ names, plain_name name = true) {F : Frag}
    (hF : F.WellNested names) {doc₀ : Doc} (hbase : doc.view.base = doc₀.view.base) (h : F.Processes doc d) :
    d.view.base = doc.view.base ∧ F.Changes doc₀ doc.view d.view := by
  induction F generalizing doc d with
  | text bs =>
    have hview := shows_text_view h
    exact ⟨congrArg View.base hview, hview⟩
  | elem front start stop inside after ihinside ihafter =>
    obtain ⟨d₁, d₂, d₃, d₄, htext, hstart, hproc, hstop, hproc'⟩ := h
    obtain ⟨-, ⟨name, hname, hstartof, hstopof⟩, hinside, hafter⟩ := hF
    have hplain := hplain name hname
    have htext := shows_text_view htext
    have hbase₁ := congrArg View.base htext
    have hbase₂ := (tag_start_base hplain hstartof hstart).trans hbase₁
    obtain ⟨hbase₃, hchanges⟩ := ihinside hinside (hbase₂.trans hbase) hproc
    have hbase₃ := hbase₃.trans hbase₂
    have hbase₄ := (tag_stop_base hplain hstopof hstop).trans hbase₃
    obtain ⟨hbase', hchanges'⟩ := ihafter hafter (hbase₄.trans hbase) hproc'
    refine ⟨hbase'.trans hbase₄, ?_⟩
    obtain ⟨hname, rgb, block, hview⟩ := start_view hplain hstartof hstart
    obtain ⟨n, hn, hview'⟩ := tag_stop_view hplain hstopof hstop
    refine ⟨rgb, block, d₃.view, n, ?_, hn.trans hname.symm, ?_⟩
    · rw [← htext, ← shown_of_base (hbase₁.trans hbase) start, ← hview]
      exact hchanges
    · rw [← hview']
      exact hchanges'

/-- A name from a list is not in another. -/
theorem not_name_in {names : List Bytes} (others : List Bytes) {n : Bytes} (hn : name_in n names = true)
    (hlist : ∀ x ∈ names, x ∉ others) : ¬ name_in n others = true :=
  fun h => hlist _ (name_in_iff.mp hn) (name_in_iff.mp h)

theorem name_in_of_lower {names : List Bytes} {n m : Bytes} (h : n.map to_lower = m.map to_lower) :
    name_in n names = name_in m names := by
  rw [Bool.eq_iff_iff, name_in_iff, name_in_iff, h]

theorem name_is_of_lower {x n m : Bytes} (h : n.map to_lower = m.map to_lower) : name_is n x = name_is m x := by
  rw [Bool.eq_iff_iff, name_is_iff, name_is_iff, h]

/-- The tags of a fragment have its names. -/
theorem start_name_in {names : List Bytes} (hplain : ∀ name ∈ names, plain_name name = true)
    (h : ∃ name ∈ names, StartOf name start ∧ EndOf name stop) : name_in (start_name start) names = true := by
  obtain ⟨name, hname, hstart, -⟩ := h
  obtain ⟨written, hwritten, hread, -⟩ := tag_start (hplain name hname) hstart (Doc.start default)
  rw [name_in_iff, start_name, hread, Option.getD_some, hwritten]
  exact hname

end Shapes

/-! ## Blocks -/

section Blocks

variable {doc d : Doc} {F : Frag} {v v' : View}

theorem plain_blocks : ∀ name ∈ CLOSING_BLOCKS, plain_name name = true := by decide

/-- The block an opening tag opens. -/
theorem open_tag_blocks {n : Bytes} (hn : name_in n CLOSING_BLOCKS = true) (dangerous : Bool) (rgb : Rgb)
    (block : Nat × Nat) :
    (v.open_tag n dangerous rgb block).blocks =
      if name_in n OPENING_BLOCKS then v.blocks.enter BLOCK_STACK_CAP block else v.blocks := by
  have hlist := not_name_in [ascii "ul", ascii "ol"] hn (by decide)
  have hbr := not_name_in [ascii "br", ascii "hr"] hn (by decide)
  have hinline := not_name_in INLINE_TAGS hn (by decide)
  have hlink : ¬ name_is n (ascii "a") = true := by
    have h := not_name_in [ascii "a"] hn (by decide)
    rwa [name_in, List.any_cons, List.any_nil, Bool.or_false] at h
  unfold View.open_tag
  rw [if_neg hlist, if_neg hbr, if_neg hinline, if_neg hlink]
  split_ifs with hheading hopening
  · -- a heading opens no block
    have hheadings : ∀ x ∈ [ascii "h1", ascii "h2", ascii "h3"], x ∉ OPENING_BLOCKS := by decide
    exact absurd hopening (not_name_in _ hheading hheadings)
  · rfl
  · rfl
  · rfl

theorem close_tag_blocks {n : Bytes} (hn : name_in n CLOSING_BLOCKS = true) :
    (v.close_tag n).blocks = v.blocks.leave PAGE_BLOCK := by
  unfold View.close_tag
  dsimp only
  rw [if_pos hn]
  split_ifs <;> rfl

/-- **What a fragment does to the blocks.** -/
theorem changes_blocks (hF : F.WellNested CLOSING_BLOCKS) (h : F.Changes doc v v') :
    (F.blocks doc).Leads BLOCK_STACK_CAP PAGE_BLOCK v.blocks v'.blocks := by
  induction F generalizing v v' with
  | text bs => exact congrArg View.blocks h
  | elem front start stop inside after ihinside ihafter =>
    obtain ⟨-, hname, hinside, hafter⟩ := hF
    obtain ⟨rgb, block, v₁, n, hopen, hn, hclose⟩ := h
    have hname := start_name_in plain_blocks hname
    have hleads := ihinside hinside hopen
    have hleads' := ihafter hafter hclose
    rw [close_tag_blocks ((name_in_of_lower hn).trans hname)] at hleads'
    refine ⟨_, v₁.blocks, ?_, hleads, hleads'⟩
    unfold Doc.opens_block
    by_cases hshown : doc.shown start = true
    · rw [if_pos hshown, hshown, Bool.true_and, open_tag_blocks hname]
      split_ifs with hopening
      · exact ⟨block, rfl⟩
      · rfl
    · rw [if_neg hshown, Bool.eq_false_iff.mpr hshown, Bool.false_and, if_neg Bool.false_ne_true]

end Blocks

/-! ## Colours -/

section Colours

variable {doc : Doc} {F : Frag} {v v' : View}

/-- The tags of inline elements. -/
def COLOUR_TAGS : List Bytes := INLINE_TAGS ++ [ascii "a"]

theorem plain_colours : ∀ name ∈ COLOUR_TAGS, plain_name name = true := by decide

/-- The colour an opening tag sets. -/
theorem open_tag_colours {n : Bytes} (hn : name_in n COLOUR_TAGS = true) (dangerous : Bool) (rgb : Rgb)
    (block : Nat × Nat) :
    v.open_tag n dangerous rgb block =
      if name_is n (ascii "a") then (if dangerous then v else ({ v with a_styled := true } : View).push_fg rgb)
      else v.push_fg rgb := by
  have hlist := not_name_in [ascii "ul", ascii "ol"] hn (by decide)
  have hbr := not_name_in [ascii "br", ascii "hr"] hn (by decide)
  have hheading := not_name_in [ascii "h1", ascii "h2", ascii "h3"] hn (by decide)
  unfold View.open_tag
  rw [if_neg hlist, if_neg hbr, if_neg hheading]
  by_cases hlink : name_is n (ascii "a") = true
  · have hinline : ¬ name_in n INLINE_TAGS = true := by
      rw [name_in_iff, name_is_iff.mp hlink]
      decide
    rw [if_neg hinline, if_pos hlink, if_pos hlink]
  · have hinline : name_in n INLINE_TAGS = true := by
      rw [name_in_iff, COLOUR_TAGS, List.mem_append, List.mem_singleton] at hn
      exact name_in_iff.mpr (hn.resolve_right fun h => hlink (name_is_iff.mpr h))
    rw [if_pos hinline, if_neg hlink]

theorem close_tag_colours {n : Bytes} (hn : name_in n COLOUR_TAGS = true) :
    v.close_tag n =
      if name_is n (ascii "a") then (if v.a_styled then { v.pop_fg with a_styled := false } else v)
      else v.pop_fg := by
  have hblock := not_name_in CLOSING_BLOCKS hn (by decide)
  unfold View.close_tag
  dsimp only
  rw [if_neg hblock, if_neg hblock]
  by_cases hlink : name_is n (ascii "a") = true
  · rw [if_pos hlink, if_pos hlink]
  · have hinline : name_in n INLINE_TAGS = true := by
      rw [name_in_iff, COLOUR_TAGS, List.mem_append, List.mem_singleton] at hn
      exact name_in_iff.mpr (hn.resolve_right fun h => hlink (name_is_iff.mpr h))
    rw [if_neg hlink, if_neg hlink, if_pos hinline]

/-- The beginning of an element that is no link. -/
theorem shown_colours {start : Bytes} {rgb : Rgb} :
    (if doc.shown start then v.push_fg rgb else v).base = v.base ∧
      (if doc.shown start then v.push_fg rgb else v).a_styled = v.a_styled ∧
      (if doc.shown start then ∃ a, (if doc.shown start then v.push_fg rgb else v).colours =
          v.colours.enter FG_STACK_CAP a
        else (if doc.shown start then v.push_fg rgb else v).colours = v.colours) := by
  cases doc.shown start with
  | false => exact ⟨rfl, rfl, rfl⟩
  | true => exact ⟨rfl, rfl, rgb, rfl⟩

/-- The beginning of a link. -/
theorem link_colours {start : Bytes} {rgb : Rgb} {u : View}
    (hu : u = if doc.shown start then
      (if (tag_href_value_dangerous start).getD false then v
        else ({ v with a_styled := true } : View).push_fg rgb) else v) :
    u.base = v.base ∧ u.a_styled = (doc.opens_link start || v.a_styled) ∧
      (if doc.opens_link start then ∃ a, u.colours = v.colours.enter FG_STACK_CAP a
        else u.colours = v.colours) := by
  unfold Doc.opens_link
  subst hu
  cases hshown : doc.shown start with
  | false => exact ⟨rfl, rfl, rfl⟩
  | true =>
    cases (tag_href_value_dangerous start).getD false with
    | true => exact ⟨rfl, rfl, rfl⟩
    | false => exact ⟨rfl, rfl, rgb, rfl⟩

/-- **What a fragment does to the colours.** Behind a link no link is styled. -/
theorem changes_colours (hF : F.WellNested COLOUR_TAGS) (hapart : F.LinksApart) (h : F.Changes doc v v') :
    v'.base = v.base ∧ v'.a_styled = (v.a_styled && !F.has_link) ∧
      (F.colours doc v.a_styled).Leads FG_STACK_CAP v.base.default_fg v.colours v'.colours := by
  induction F generalizing v v' with
  | text bs =>
    rw [show v' = v from h, Frag.has_link, Bool.not_false, Bool.and_true]
    exact ⟨rfl, rfl, rfl⟩
  | elem front start stop inside after ihinside ihafter =>
    obtain ⟨-, hname, hinside, hafter⟩ := hF
    obtain ⟨hnested, hapart, hapart'⟩ := hapart
    obtain ⟨rgb, block, v₁, n, hopen, hn, hclose⟩ := h
    have hname := start_name_in plain_colours hname
    obtain ⟨hbase₁, hstyled₁, hleads⟩ := ihinside hinside hapart hopen
    obtain ⟨hbase, hstyled, hleads'⟩ := ihafter hafter hapart' hclose
    rw [open_tag_colours hname] at hbase₁ hstyled₁ hleads
    rw [close_tag_colours ((name_in_of_lower hn).trans hname), name_is_of_lower hn] at hbase hstyled hleads'
    rw [Frag.colours, Frag.has_link]
    unfold is_link at hnested ⊢
    by_cases hlink : name_is (start_name start) (ascii "a") = true
    · obtain ⟨hbase₀, hstyled₀, hopens⟩ := @link_colours doc v start rgb _ rfl
      rw [if_pos hlink] at hbase₁ hstyled₁ hleads hbase hstyled hleads' ⊢
      rw [hstyled₀, hnested hlink, Bool.not_false, Bool.and_true] at hstyled₁
      rw [hbase₀] at hbase₁ hleads
      rw [hstyled₀] at hleads
      rw [hlink, Bool.true_or, Bool.true_or, Bool.not_true, Bool.and_false]
      have hclosed : (if v₁.a_styled then ({ v₁.pop_fg with a_styled := false } : View) else v₁).a_styled = false := by
        split_ifs with h
        · rfl
        · exact Bool.eq_false_iff.mpr h
      rw [hclosed, Bool.false_and] at hstyled
      rw [hclosed] at hleads'
      have hsame : (if v₁.a_styled then ({ v₁.pop_fg with a_styled := false } : View) else v₁).base = v₁.base := by
        split_ifs <;> rfl
      rw [hsame] at hbase hleads'
      rw [hbase₁] at hbase hleads'
      refine ⟨hbase, hstyled, _, v₁.colours, hopens, hleads, ?_⟩
      rw [← hstyled₁]
      split_ifs at hleads' ⊢ with h
      · rw [← hbase₁]
        rw [← hbase₁] at hleads'
        exact hleads'
      · exact hleads'
    · obtain ⟨hbase₀, hstyled₀, hopens⟩ := @shown_colours doc v start rgb
      rw [if_neg hlink] at hbase₁ hstyled₁ hleads hbase hstyled hleads' ⊢
      rw [hstyled₀] at hstyled₁ hleads
      rw [hbase₀] at hbase₁ hleads
      rw [Bool.eq_false_iff.mpr hlink, Bool.false_or, Bool.not_or, ← Bool.and_assoc, ← hstyled₁]
      have hpop : v₁.pop_fg.base = v₁.base := rfl
      rw [hpop, hbase₁] at hbase hleads'
      refine ⟨hbase, hstyled, _, v₁.colours, hopens, hleads, ?_⟩
      rw [if_pos rfl, ← hbase₁]
      rw [← hbase₁] at hleads'
      exact hleads'

end Colours

/-! ## Runs -/

section Runs

variable {raw bs x : Bytes} {doc doc' : Doc}

/-- A run that uses up nothing does nothing. -/
theorem visits_same (hok : DocOk doc) (h : Visits doc_round (x, doc) (x, doc')) : doc' = doc := by
  generalize hs : (x, doc) = s at h
  cases h with
  | refl => exact (Prod.mk.inj hs).2.symm
  | @step s s' t hstep hrest =>
    subst hs
    obtain ⟨rest', d⟩ := s'
    obtain ⟨hok', hless⟩ := doc_round_drop hok hstep
    have hle := visits_length_le hrest hok'
    dsimp only at hle
    omega

/-- A skipped element that is not closed in a text is not left in it. -/
theorem skipped_visits {m : SkipTag} (hskip : doc.skip = some m) (hnone : find_sub_ci bs m.close = none)
    (hok : DocOk doc) (h : Visits doc_round (bs ++ x, doc) (x, doc')) :
    doc'.view.blocks = doc.view.blocks ∧ doc'.view.colours = doc.view.colours := by
  generalize hs : (bs ++ x, doc) = s at h
  generalize ht : (x, doc') = t at h
  induction h generalizing bs doc with
  | refl s =>
    subst ht
    rw [(Prod.mk.inj hs).2]
    exact ⟨rfl, rfl⟩
  | @step s s' t hstep hrest ih =>
    subst hs
    subst ht
    obtain ⟨rest', d⟩ := s'
    obtain ⟨hok', hless⟩ := doc_round_drop hok hstep
    have hle := visits_length_le hrest hok'
    obtain ⟨hne, -, piece, n, hread, hgo, hact, rfl⟩ := doc_round_inl hstep
    dsimp only at hle
    rw [List.length_drop, List.length_append] at hless hle
    have hkeep : d.skip = some m ∧ d.view.blocks = doc.view.blocks ∧ d.view.colours = doc.view.colours ∧
        n ≤ bs.length := by
      unfold read_piece at hread
      rw [hskip] at hread
      dsimp only at hread
      unfold read_skipped at hread
      split at hread
      · -- the closing tag would stand in the text
        rename_i rel hfind
        obtain ⟨-, rfl⟩ := Prod.mk.inj (Option.some.inj hread)
        have hfits := (starts_ci_iff.mp ((find_sub_ci_eq_some m.close_ne).mp hfind).1).1
        rw [List.length_append] at hfits
        have hin : rel + m.close.length ≤ bs.length := by omega
        have hfind' := find_sub_ci_append m.close_ne hfind hin []
        rw [List.append_nil, hnone] at hfind'
        cases hfind'
      · dsimp only at hread
        split_ifs at hread
        · obtain ⟨text, -, hread⟩ := Option.map_eq_some_iff.mp hread
          obtain ⟨rfl, rfl⟩ := Prod.mk.inj hread
          rw [List.length_append] at hless hle ⊢
          unfold Doc.act Doc.add_style at hact
          dsimp only at hact
          split_ifs at hact
          rw [← Option.some.inj hact]
          exact ⟨hskip, rfl, rfl, by omega⟩
        · obtain ⟨rfl, rfl⟩ := Prod.mk.inj (Option.some.inj hread)
          rw [List.length_append] at hless hle ⊢
          rw [← Option.some.inj hact]
          exact ⟨hskip, rfl, rfl, by omega⟩
        · obtain ⟨rfl, -⟩ := Prod.mk.inj (Option.some.inj hread)
          exact absurd rfl hgo
    obtain ⟨hskip', hblocks, hcolours, hn⟩ := hkeep
    rw [List.drop_append_of_le_length hn] at ih
    rw [← hblocks, ← hcolours]
    exact ih hskip' (find_sub_ci_drop m.close_ne hnone n) hok' rfl rfl

theorem open_tag_onBottom {v : View} (h : v.blocks.OnBottom PAGE_BLOCK) (name : Bytes) (dangerous : Bool) (rgb : Rgb)
    (block : Nat × Nat) : (v.open_tag name dangerous rgb block).blocks.OnBottom PAGE_BLOCK := by
  have henter := h.enter (show 0 < BLOCK_STACK_CAP by decide) block
  unfold View.open_tag
  split_ifs
  all_goals first | exact h | exact henter

theorem close_tag_onBottom {v : View} (h : v.blocks.OnBottom PAGE_BLOCK) (name : Bytes) :
    (v.close_tag name).blocks.OnBottom PAGE_BLOCK := by
  have hleave := h.leave
  unfold View.close_tag
  dsimp only
  split_ifs
  all_goals first | exact h | exact hleave

theorem tag_onBottom {t : Bytes} (hdoc : doc.view.blocks.OnBottom PAGE_BLOCK) (h : doc.tag t = some doc') :
    doc'.view.blocks.OnBottom PAGE_BLOCK := by
  unfold Doc.tag at h
  split_ifs at h
  · rw [← Option.some.inj h]
    exact hdoc
  · obtain ⟨mark, -, h⟩ := Returns.of_bind h
    obtain ⟨name, -, h⟩ := Returns.of_bind h
    split_ifs at h
    · rw [close_tag_view h]
      exact close_tag_onBottom hdoc name
    · obtain ⟨class_attr, -, h⟩ := Returns.of_bind h
      obtain ⟨id_attr, -, h⟩ := Returns.of_bind h
      obtain ⟨inline_style, -, h⟩ := Returns.of_bind h
      obtain ⟨computed, -, h⟩ := Returns.of_bind h
      split_ifs at h
      · rw [← Option.some.inj h]
        exact hdoc
      · obtain ⟨rgb, block, hview⟩ := open_tag_view h
        rw [hview]
        exact open_tag_onBottom hdoc name _ rgb block

theorem end_style_blocks (h : doc.end_style = some doc') : doc'.view.blocks = doc.view.blocks := by
  obtain ⟨d, hd, h⟩ := Returns.of_bind h
  have hscan : d.view.blocks = doc.view.blocks := by
    split_ifs at hd
    · obtain ⟨hints, -, hd⟩ := Returns.of_bind hd
      obtain ⟨rules, -, hd⟩ := Returns.of_bind hd
      dsimp only at hd
      split_ifs at hd
      · rw [← Option.some.inj hd]
        rfl
      · rw [← Option.some.inj hd]
        rfl
      · rw [← Option.some.inj hd]
        rfl
    · rw [Option.some.inj hd]
  rw [← Option.some.inj h, ← hscan]
  rfl

/-- The first block around everything is the page. -/
theorem act_onBottom {piece : Piece} (hdoc : doc.view.blocks.OnBottom PAGE_BLOCK) (h : doc.act piece = some doc') :
    doc'.view.blocks.OnBottom PAGE_BLOCK := by
  by_cases htext : piece.IsText
  · rw [text_act_view htext h]
    exact hdoc
  cases piece with
  | tag t => exact tag_onBottom hdoc h
  | skip_end m =>
    cases m with
    | style =>
      rw [end_style_blocks h]
      exact hdoc
    | _ =>
      rw [← Option.some.inj h]
      exact hdoc
  | style_text text =>
    unfold Doc.act Doc.add_style at h
    dsimp only at h
    split_ifs at h
    rw [← Option.some.inj h]
    exact hdoc
  | open_skip m =>
    cases m with
    | _ =>
      rw [← Option.some.inj h]
      exact hdoc
  | char indent c => exact absurd trivial htext
  | glyph indent bytes => exact absurd trivial htext
  | newline => exact absurd trivial htext
  | blank => exact absurd trivial htext
  | _ =>
    rw [← Option.some.inj h]
    exact hdoc

theorem reached_onBottom {rgb : Rgb} (h : Visits doc_round (raw, Doc.start rgb) (x, doc)) :
    doc.view.blocks.OnBottom PAGE_BLOCK := by
  refine h.invariant (I := fun st => st.2.view.blocks.OnBottom PAGE_BLOCK) ?_ rfl
  intro s s' hs hround
  obtain ⟨-, -, piece, n, -, -, hact, -⟩ := doc_round_inl hround
  exact act_onBottom hs hact

end Runs

section Scoping

variable {raw rest : Bytes} {rgb : Rgb} {doc doc' : Doc} {F : Frag}

/-- **When a fragment leaves the indentation and the width as they were**: in a
skipped element, outside all blocks, or if each of its elements opens a block for
which there is room. -/
theorem block_scope_iff (hF : F.WellNested CLOSING_BLOCKS)
    (hdoc : Visits doc_round (raw, Doc.start rgb) (F.bytes ++ rest, doc))
    (hskip : ∀ m, doc.skip = some m → find_sub_ci F.bytes m.close = none)
    (hrun : Visits doc_round (F.bytes ++ rest, doc) (rest, doc')) :
    (doc'.active_indent = doc.active_indent ∧ doc'.active_width = doc.active_width ∧
        doc'.block_stack.length = doc.block_stack.length) ↔
      doc.skip ≠ none ∨ doc.block_stack = [] ∨
        (F.blocks doc).Fits BLOCK_STACK_CAP doc.block_stack.length := by
  have hok := visits_ok hdoc (start_ok rgb)
  have hsame : (doc'.active_indent = doc.active_indent ∧ doc'.active_width = doc.active_width ∧
      doc'.block_stack.length = doc.block_stack.length) ↔
        (doc'.view.blocks.cur = doc.view.blocks.cur ∧
          doc'.view.blocks.saved.length = doc.view.blocks.saved.length) := by
    rw [← and_assoc]
    exact and_congr_left' Prod.mk_inj.symm
  rw [hsame]
  cases hs : doc.skip with
  | some m =>
    rw [(skipped_visits hs (hskip m hs) hok hrun).1]
    exact iff_of_true ⟨rfl, rfl⟩ (.inl (Option.some_ne_none m))
  | none =>
    obtain ⟨d, hproc, -, hok', hrest⟩ := frag_visits plain_blocks hF hs hok hrun (Nat.le_refl _) (.inl rfl)
    obtain rfl := visits_same hok' hrest
    have hleads := changes_blocks hF (processes_changes plain_blocks hF rfl hproc).2
    rw [Nesting.restores_iff (by decide) (blocks_closed doc F) hleads, ne_self_iff_false, false_or]
    refine or_congr_left ⟨And.left, ?_⟩
    intro hempty
    exact ⟨hempty, (reached_onBottom hdoc).cur_eq hempty⟩

theorem well_nested_element {names : List Bytes} (name attrs : Bytes) {bs : Bytes} (hname : name ∈ names)
    (hlower : name.map to_lower = name) (hattrs : attrs.head?.any is_alnum = false)
    (hgt : (62 : UInt8) ∉ attrs) (hbs : (60 : UInt8) ∉ bs) :
    (Frag.elem [] (60 :: (name ++ attrs)) (60 :: 47 :: name) (.text bs) (.text [])).WellNested names := by
  refine ⟨List.not_mem_nil, ⟨name, hname, ⟨name, attrs, rfl, hlower, ?_, hgt⟩, ?_⟩, hbs, List.not_mem_nil⟩
  · intro c hc
    rwa [hc] at hattrs
  · refine ⟨name, [], by rw [List.append_nil], hlower, ?_, List.not_mem_nil⟩
    intro c hc
    cases hc

/-- Rounds that get to `x`. -/
theorem visits_rest {n : Nat} {d : Doc} {t : Bytes × Doc} {x : Bytes} (h : rounds doc_round n (raw, d) = some t)
    (hx : t.1 = x) : Visits doc_round (raw, d) (x, t.2) := by
  rw [← hx]
  exact visits_of_rounds h

/-- A paragraph in a block. -/
theorem block_in_a_block :
    ∃ doc doc' : Doc,
      Visits doc_round (ascii "<div style=margin-left:16px><p>x</p>", Doc.start (0, 0, 0))
        (ascii "<p>x</p>", doc) ∧
      Visits doc_round (ascii "<p>x</p>", doc) ([], doc') ∧
      doc'.active_indent = doc.active_indent ∧ doc'.active_width = doc.active_width ∧
        doc'.block_stack.length = doc.block_stack.length := by
  have hrounds : ((rounds doc_round 1 (ascii "<div style=margin-left:16px><p>x</p>", Doc.start (0, 0, 0))).bind
      fun t => (rounds doc_round 3 t).map fun u =>
        (t.1, t.2.skip, t.2.block_stack.length, t.2.opens_block (ascii "<p"), u.1)) =
      some (ascii "<p>x</p>", none, 1, true, []) := by decide
  obtain ⟨t, ht, hrounds⟩ := Option.bind_eq_some_iff.mp hrounds
  obtain ⟨u, hu, hrounds⟩ := Option.map_eq_some_iff.mp hrounds
  simp only [Prod.mk.injEq] at hrounds
  obtain ⟨hrest, hskip, hdepth, hopens, hend⟩ := hrounds
  have hdoc := visits_rest ht hrest
  have hrun : Visits doc_round (t.1, t.2) ([], u.2) := visits_rest hu hend
  rw [hrest] at hrun
  refine ⟨t.2, u.2, hdoc, hrun, ?_⟩
  have hF : (Frag.elem [] (ascii "<p") (ascii "</p") (.text (ascii "x")) (.text [])).WellNested CLOSING_BLOCKS :=
    well_nested_element (ascii "p") [] (by decide) (by decide) rfl
      List.not_mem_nil (by decide)
  refine (block_scope_iff hF hdoc (fun m hm => ?_) hrun).mpr (.inr (.inr ⟨hopens, ?_, trivial, trivial⟩))
  · rw [hskip] at hm
    cases hm
  · intro _
    rw [hdepth]
    decide

/-- An item in a block: its end closes the block. -/
theorem item_closes_its_block :
    ∃ doc doc' : Doc,
      (Frag.elem [] (ascii "<li") (ascii "</li") (.text (ascii "x")) (.text [])).WellNested CLOSING_BLOCKS ∧
      Visits doc_round (ascii "<div style=margin-left:16px><li>x</li>", Doc.start (0, 0, 0))
        (ascii "<li>x</li>", doc) ∧
      doc.skip = none ∧
      Visits doc_round (ascii "<li>x</li>", doc) ([], doc') ∧
      doc.active_indent = 2 ∧ doc'.active_indent = 0 := by
  have hrounds : ((rounds doc_round 1 (ascii "<div style=margin-left:16px><li>x</li>", Doc.start (0, 0, 0))).bind
      fun t => (rounds doc_round 3 t).map fun u =>
        (t.1, t.2.skip, t.2.active_indent, u.1, u.2.active_indent)) =
      some (ascii "<li>x</li>", none, 2, [], 0) := by decide
  obtain ⟨t, ht, hrounds⟩ := Option.bind_eq_some_iff.mp hrounds
  obtain ⟨u, hu, hrounds⟩ := Option.map_eq_some_iff.mp hrounds
  simp only [Prod.mk.injEq] at hrounds
  obtain ⟨hrest, hskip, hindent, hend, hindent'⟩ := hrounds
  have hrun : Visits doc_round (t.1, t.2) ([], u.2) := visits_rest hu hend
  rw [hrest] at hrun
  have hF : (Frag.elem [] (ascii "<li") (ascii "</li") (.text (ascii "x")) (.text [])).WellNested CLOSING_BLOCKS :=
    well_nested_element (ascii "li") [] (by decide) (by decide) rfl
      List.not_mem_nil (by decide)
  exact ⟨t.2, u.2, hF, visits_rest ht hrest, hskip, hrun, hindent, hindent'⟩

end Scoping

end EveOS.Html
