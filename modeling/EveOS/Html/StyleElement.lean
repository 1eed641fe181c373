/-
A style element has no effect.

The bytes between `<style>` and `</style>` are skipped like a script: the branch
that finds the closing tag never puts them into `style_buf`, so there is nothing
to scan when it gets there. The specification is the document without the element,
in which each opening tag carries the declarations of the rules that match it;
the renderer shows the same page when no rule matches a tag of the body.
-/
import EveOS.Html.Skip

set_option autoImplicit false

namespace EveOS.Html

/-! ## Style sheets -/

/-- A rule with a simple selector. -/
structure CssRule where
  kind : SelectorKind
  name : Bytes
  decls : Bytes

def CssRule.selector (r : CssRule) : Bytes :=
  match r.kind with
  | .Tag => r.name
  | .Class => 46 :: r.name
  | .Id => 35 :: r.name

def CssRule.text (r : CssRule) : Bytes := r.selector ++ ascii "\x7b" ++ r.decls ++ ascii "\x7d"

def css_text (rules : List CssRule) : Bytes := rules.flatMap CssRule.text

def style_element (rules : List CssRule) : Bytes :=
  ascii "<style>" ++ css_text rules ++ ascii "</style>"

/-- A sheet of simple rules, which fits the renderer's arrays and does not close
its own element. -/
structure SimpleSheet (rules : List CssRule) : Prop where
  count : rules.length ≤ STYLE_RULES_CAP
  size : (css_text rules).length ≤ STYLE_SCRATCH_CAP
  names : ∀ r ∈ rules, r.name ≠ [] ∧ r.name.all is_name_byte = true
  decls : ∀ r ∈ rules, ∀ c ∈ r.decls, c ≠ 34 ∧ c ≠ 39 ∧ c ≠ 123 ∧ c ≠ 125
  closed : BodyOf .style (css_text rules) (ascii "</style>")

/-! ## The same document with inline styles -/

/-- The rule matches an opening tag, by the tests of the renderer. -/
def CssRule.applies (r : CssRule) (tag_slice : Bytes) : Bool :=
  let rule : StyleRule := ⟨r.kind, r.name.map to_lower, .empty⟩
  let matched := do
    let mark ← tag_slice[1]?
    let name ← tag_name tag_slice false
    let class_attr ← extract_attr_value tag_slice (ascii "class")
    let id_attr ← extract_attr_value tag_slice (ascii "id")
    let matched ← rule.matched name class_attr id_attr
    return mark != 47 && matched
  matched == some true

/-- A tag with the declarations of the rules that match it as its style attribute,
in front of those it has. -/
def with_style (rules : List CssRule) (tag_slice : Bytes) : Bytes :=
  match rules.filter fun r => r.applies tag_slice with
  | [] => tag_slice
  | matching =>
    let name_end := scan is_alnum tag_slice (scan is_name_gap tag_slice 1)
    let own := ((extract_attr_value tag_slice (ascii "style")).getD none).getD []
    tag_slice.take name_end ++ ascii " style=\"" ++ matching.flatMap (fun r => r.decls ++ [59]) ++ own
      ++ ascii "\"" ++ tag_slice.drop name_end

/-- The element that is skipped behind a piece. -/
def Piece.skip_after (skip : Option SkipTag) : Piece → Option SkipTag
  | .skip_end _ => none
  | .open_script _ => some .script
  | .open_skip m => some m
  | _ => skip

/-- The document with inline styles; the tags are those the renderer reads. -/
def inline_styles (rules : List CssRule) : Nat → Option SkipTag → Bytes → Bytes
  | 0, _, rest => rest
  | fuel + 1, skip, rest =>
    match read_piece skip 0 rest with
    | none => rest
    | some (.unclosed, _) => rest
    | some (.tag t, n) => with_style rules t ++ ascii ">" ++ inline_styles rules fuel skip (rest.drop n)
    | some (piece, n) =>
      rest.take n ++ inline_styles rules fuel (piece.skip_after skip) (rest.drop n)

def with_inline_styles (rules : List CssRule) (body : Bytes) : Bytes :=
  inline_styles rules body.length none body

/-- The tags of a document. -/
def tags_of : Nat → Option SkipTag → Bytes → List Bytes
  | 0, _, _ => []
  | fuel + 1, skip, rest =>
    match read_piece skip 0 rest with
    | none => []
    | some (.unclosed, _) => []
    | some (.tag t, n) => t :: tags_of fuel skip (rest.drop n)
    | some (piece, n) => tags_of fuel (piece.skip_after skip) (rest.drop n)

def body_tags (body : Bytes) : List Bytes := tags_of body.length none body

/-! ## A sheet that matches nothing -/

section NoMatch

variable {rules : List CssRule} {rest t : Bytes} {skip : Option SkipTag} {n style_len : Nat}

theorem with_style_of_no_match (h : ∀ r ∈ rules, r.applies t = false) : with_style rules t = t := by
  have hfilter : (rules.filter fun r => r.applies t) = [] := by
    rw [List.filter_eq_nil_iff]
    intro r hr
    rw [h r hr]
    exact Bool.false_ne_true
  unfold with_style
  rw [hfilter]

theorem read_text_not_tag (ch : UInt8) (t : Bytes) : (read_text rest ch).1 ≠ .tag t := by
  unfold read_text read_entity read_char
  intro h
  split at h
  · rename_i r hr
    split_ifs at hr
    split at hr
    · obtain rfl := Option.some.inj hr
      cases h
    · split at hr
      · obtain rfl := Option.some.inj hr
        cases h
      · cases hr
  · split_ifs at h
    all_goals first
      | cases h
      | split at h <;> cases h

theorem read_plain_tag_eq (h : read_plain_tag rest = some (.tag t, n)) : t ++ [62] = rest.take n := by
  unfold read_plain_tag at h
  dsimp only at h
  split_ifs at h with hend
  · cases h
  obtain ⟨tag_slice, hslice, h⟩ := Returns.of_bind h
  obtain ⟨rfl, rfl⟩ : tag_slice = t ∧ scan (· != 62) rest 1 + 1 = n := by
    obtain ⟨hpiece, hn⟩ := Prod.mk.inj (Option.some.inj h)
    exact ⟨Piece.tag.inj hpiece, hn⟩
  rw [Nat.not_le] at hend
  rw [slice?_eq (Nat.zero_le _) (Nat.le_of_lt hend), List.drop_zero, Nat.sub_zero] at hslice
  have hgt : rest[scan (· != 62) rest 1] = 62 := by simpa using scan_stops hend
  rw [← Option.some.inj hslice, List.take_succ_eq_append_getElem hend, hgt]

/-- **A tag is its bytes and the `>`.** -/
theorem read_tag_piece (h : read_piece skip style_len rest = some (.tag t, n)) :
    t ++ [62] = rest.take n := by
  unfold read_piece at h
  split at h
  · unfold read_skipped at h
    split at h
    · cases h
    · split_ifs at h
      · dsimp only at h
        split_ifs at h
        · obtain ⟨text, -, h⟩ := Option.map_eq_some_iff.mp h
          cases h
        · cases h
      · cases h
  · obtain ⟨ch, -, h⟩ := Returns.of_bind h
    split_ifs at h
    · exact absurd (congrArg Prod.fst (Option.some.inj h)) (read_text_not_tag ch t)
    · unfold read_tag at h
      split_ifs at h
      · cases h
      · cases h
      · unfold read_script at h
        dsimp only at h
        split_ifs at h
        · cases h
        · obtain ⟨tag_open, -, h⟩ := Returns.of_bind h
          obtain ⟨data, -, h⟩ := Returns.of_bind h
          cases h
      · split at h
        · rename_i name piece hfind
          obtain ⟨rfl, -⟩ := Prod.mk.inj (Option.some.inj h)
          have hmem := List.mem_of_find?_eq_some hfind
          simp [DROPPED_TAGS] at hmem
        · exact read_plain_tag_eq h

/-- Inline styles change nothing when there are none. -/
theorem inline_styles_of_no_match (fuel : Nat)
    (h : ∀ t ∈ tags_of fuel skip rest, ∀ r ∈ rules, r.applies t = false) :
    inline_styles rules fuel skip rest = rest := by
  induction fuel generalizing skip rest with
  | zero => rfl
  | succ fuel ih =>
    unfold inline_styles
    unfold tags_of at h
    cases hread : read_piece skip 0 rest with
    | none => rfl
    | some r =>
      obtain ⟨piece, n⟩ := r
      rw [hread] at h
      cases piece with
      | unclosed => rfl
      | tag t =>
        dsimp only at h
        rw [List.forall_mem_cons] at h
        dsimp only
        rw [with_style_of_no_match h.1, ih h.2]
        show t ++ [62] ++ rest.drop n = rest
        rw [read_tag_piece hread, List.take_append_drop]
      | _ =>
        dsimp only at h ⊢
        rw [ih h, List.take_append_drop]

end NoMatch

/-! ## The two pages -/

/-- What stands in front of the style element leaves no trace, whatever follows. -/
def Front (P : Bytes) (rgb : Rgb) : Prop :=
  ∀ x, Visits doc_round (P ++ x, Doc.start rgb) (x, Doc.start rgb)

section Pages

variable {P body : Bytes} {rgb : Rgb} {rules : List CssRule}

/-- **The loop passes a style element without a trace.** -/
theorem style_element_visits (hrules : BodyOf .style (css_text rules) (ascii "</style>")) (S : Bytes) :
    Visits doc_round (style_element rules ++ S, Doc.start rgb) (S, Doc.start rgb) := by
  have hT : OpenTag .style (ascii "<style>") := ⟨by decide, ascii "<style", by decide, by decide⟩
  have hC : ClosingTag .style (ascii "</style>") := by
    unfold ClosingTag
    decide
  have hroom : (Doc.start rgb).line_count < BROWSER_MAX_LINES := by
    show 0 < BROWSER_MAX_LINES
    decide
  obtain ⟨d, hd, hvisits⟩ := element_visits hT hC (show (Doc.start rgb).skip = none from rfl) hroom
  obtain rfl := hd rfl rfl
  have hway := hvisits (css_text rules) S hrules
  unfold style_element
  simpa only [List.append_assoc] using hway

/-- A document with a style element lays out like the one without. -/
theorem style_element_lays (hP : Front P rgb)
    (hrules : BodyOf .style (css_text rules) (ascii "</style>")) (body : Bytes) :
    ∃ out, Lays (P ++ style_element rules ++ body) rgb out ∧ Lays (P ++ body) rgb out := by
  obtain ⟨out, -, hout⟩ := loop_ends (start_ok rgb) body
  rw [List.append_assoc]
  exact ⟨out, lays_of_visits ((hP _).trans (style_element_visits hrules body)) hout,
    lays_of_visits (hP body) hout⟩

/-- **A sheet that matches no tag of the body is shown as its inline styles are.** -/
theorem unmatched_sheet_is_inline (hP : Front P rgb) (hrules : SimpleSheet rules)
    (hhtml : looks_like_html (P ++ style_element rules ++ body) = true)
    (hhtml' : looks_like_html (P ++ with_inline_styles rules body) = true)
    (hno : ∀ t ∈ body_tags body, ∀ r ∈ rules, r.applies t = false) (mem mem' : RenderMemory) :
    ∃ r r', format_document mem (P ++ style_element rules ++ body) rgb = some r ∧
      format_document mem' (P ++ with_inline_styles rules body) rgb = some r' ∧ SamePage r r' := by
  have hbody : with_inline_styles rules body = body := inline_styles_of_no_match body.length hno
  obtain ⟨out, hout, hout'⟩ := style_element_lays hP hrules.closed body
  rw [hbody] at hhtml' ⊢
  exact same_page hhtml hhtml' hout hout' mem mem'

/-- `<html>` is such a front. -/
theorem html_front : Front (ascii "<html>") (0, 0, 0) := by
  intro x
  have hstands : starts_ci (ascii "<html>" ++ x) 0 (ascii "<html>") = true :=
    (starts_ci_append (by decide) x).trans (by decide)
  have hother (b : Bytes) (hab : ¬ ascii "<html>" <+: b) (hba : ¬ b <+: ascii "<html>") :
      starts_ci (ascii "<html>" ++ x) 0 b = false := not_starts_ci hstands hab hba
  have hdropped : ∀ e ∈ DROPPED_TAGS, ¬ starts_ci (ascii "<html>" ++ x) 0 e.1 = true := by
    have hall : ∀ e ∈ DROPPED_TAGS, ¬ ascii "<html>" <+: e.1 ∧ ¬ e.1 <+: ascii "<html>" := by decide
    intro e he
    rw [hother e.1 (hall e he).1 (hall e he).2]
    exact Bool.false_ne_true
  have hend : scan (· != 62) (ascii "<html>" ++ x) 1 = 5 :=
    (scan_append (by decide) x).trans (by decide)
  have hread : read_piece none 0 (ascii "<html>" ++ x) = some (.tag (ascii "<html"), 6) := by
    show read_tag (ascii "<html>" ++ x) = _
    unfold read_tag
    rw [hother (ascii "<!--") (by decide) (by decide), hother (ascii "<meta") (by decide) (by decide),
      hother (ascii "<link") (by decide) (by decide), hother (ascii "<base") (by decide) (by decide),
      hother (ascii "<script") (by decide) (by decide), List.find?_eq_none.mpr hdropped, if_neg Bool.false_ne_true,
      if_neg (by decide), if_neg Bool.false_ne_true]
    dsimp only
    unfold read_plain_tag
    dsimp only
    rw [hend, if_neg (by rw [List.length_append]; exact Nat.not_le.mpr (Nat.lt_add_right _ (by decide))),
      slice?_append 0 (by decide)]
    rfl
  have hact : (Doc.start (0, 0, 0)).act (.tag (ascii "<html")) = some (Doc.start (0, 0, 0)) := by
    decide
  exact .step (doc_round_of_read (by simp [ascii]) (by decide) hread (fun h => by cases h) hact) (.refl _)

theorem one_rule_simple : SimpleSheet [⟨.Tag, ascii "h1", ascii "color:red"⟩] := by
  refine ⟨by decide +kernel, by decide +kernel, by decide +kernel, by decide +kernel, ?_⟩
  unfold BodyOf
  decide

/-- A sheet for headings, and a body without any. -/
theorem paragraph_without_heading :
    ∃ r r', format_document ⟨[], .new⟩ (ascii "<html>" ++
        style_element [⟨.Tag, ascii "h1", ascii "color:red"⟩] ++ ascii "<p>Hi</p>") (0, 0, 0) = some r ∧
      format_document ⟨[], .new⟩ (ascii "<html>" ++
        with_inline_styles [⟨.Tag, ascii "h1", ascii "color:red"⟩] (ascii "<p>Hi</p>")) (0, 0, 0)
          = some r' ∧ SamePage r r' :=
  unmatched_sheet_is_inline html_front one_rule_simple (by decide) (by decide)
    (by decide) ⟨[], .new⟩ ⟨[], .new⟩

/-- The heading `Hi` with the rule `h1{color:red}`, which is simple and matches
it: the colour of the sheet is not shown, that of the attribute is. -/
theorem red_heading_stays_blue :
    SimpleSheet [⟨.Tag, ascii "h1", ascii "color:red"⟩] ∧
      ∃ r r', format_document ⟨[], .new⟩ (ascii "<html>" ++
          style_element [⟨.Tag, ascii "h1", ascii "color:red"⟩] ++ ascii "<h1>Hi</h1>") (0, 0, 0)
            = some r ∧
        format_document ⟨[], .new⟩ (ascii "<html>" ++
          with_inline_styles [⟨.Tag, ascii "h1", ascii "color:red"⟩] (ascii "<h1>Hi</h1>")) (0, 0, 0)
            = some r' ∧
        ¬ SamePage r r' := by
  have hsheet : format_html (ascii "<html>" ++
      style_element [⟨.Tag, ascii "h1", ascii "color:red"⟩] ++ ascii "<h1>Hi</h1>") (0, 0, 0)
        = some ⟨[⟨[], 0x00, 0x40, 0x90⟩, ⟨ascii "Hi", 0x00, 0x40, 0x90⟩], false, false⟩ := by
    decide
  have hinline : format_html (ascii "<html>" ++
      with_inline_styles [⟨.Tag, ascii "h1", ascii "color:red"⟩] (ascii "<h1>Hi</h1>")) (0, 0, 0)
        = some ⟨[⟨[], 0x00, 0x40, 0x90⟩, ⟨ascii "Hi", 0xcc, 0x22, 0x22⟩], false, false⟩ := by
    decide
  obtain ⟨t, ht⟩ := format_document_eq (by decide) hsheet ⟨[], .new⟩
  obtain ⟨t', ht'⟩ := format_document_eq (by decide) hinline ⟨[], .new⟩
  refine ⟨one_rule_simple, _, _, ht, ht', ?_⟩
  rintro ⟨hlines, -⟩
  simp [Rendered.line_count] at hlines

end Pages

end EveOS.Html
