/-
Links to scripts.

A link is not styled if `tag_href_value_dangerous` finds a dangerous value. It
sees the tag up to its first `>`, even in a quoted value (`Tag.cut`), and reads
behind the first place where `href` stands, without the blanks in front of a
quoted value. So a link to a script is styled unless that place says a value that
begins with the scheme (`dangerous_link_iff`).
-/
import EveOS.Html.Attributes
import EveOS.Html.Scoping

set_option autoImplicit false

namespace EveOS.Html

/-! ## What the code sees of a tag -/

section Cut

theorem before_gt_eq {w : Bytes} (h : (62 : UInt8) ∉ w) : w.takeWhile (· != 62) = w := by
  rw [List.takeWhile_eq_self_iff]
  intro c hc
  rw [bne_iff_ne]
  rintro rfl
  exact h hc

/-- The value ends at its first `>`. -/
def Attr.cut (a : Attr) : Attr where
  gap := a.gap
  name := a.name
  before := a.before
  after := a.after
  quote := a.quote
  value := a.value.takeWhile (· != 62)
  closed := false
  gap_ne := a.gap_ne
  gap_blank := a.gap_blank
  name_key := a.name_key
  before_blank := a.before_blank
  after_blank := a.after_blank
  quoted := fun q hq => ⟨(a.quoted q hq).1, fun hmem => (a.quoted q hq).2 ((List.takeWhile_sublist _).subset hmem)⟩
  unquoted := fun hq => by
    obtain ⟨hne, hvalue, hhead⟩ := a.unquoted hq
    rw [before_gt_eq fun hmem => (hvalue 62 hmem).2 rfl]
    exact ⟨hne, hvalue, hhead⟩

/-- The attributes up to the first `>` in a value. -/
def cut_attrs : List Attr → List Attr
  | [] => []
  | a :: as => if (62 : UInt8) ∈ a.value then [a.cut] else a :: cut_attrs as

def cut_ending (ending : Bytes) : List Attr → Bytes
  | [] => ending
  | a :: as => if (62 : UInt8) ∈ a.value then [] else cut_ending ending as

theorem cut_nil {ending : Bytes} {as : List Attr} (h : attrs_text ending as = []) :
    attrs_text (cut_ending ending as) (cut_attrs as) = [] := by
  cases as with
  | nil => exact h
  | cons a as => exact absurd (List.append_eq_nil_iff.mp h).1 a.gap_ne

theorem cut_closed {ending : Bytes} {as : List Attr} (h : QuotesClosed ending as) :
    QuotesClosed (cut_ending ending as) (cut_attrs as) := by
  induction as with
  | nil => trivial
  | cons a as ih =>
    unfold cut_attrs cut_ending
    split_ifs
    · exact ⟨.inr rfl, trivial⟩
    · exact ⟨h.1.imp_right cut_nil, ih h.2⟩

theorem cut_ends {ending : Bytes} {as : List Attr} {P : UInt8 → Prop} (h : ∀ c ∈ ending, P c) :
    ∀ c ∈ cut_ending ending as, P c := by
  induction as with
  | nil => exact h
  | cons a as ih =>
    unfold cut_ending
    split_ifs
    · exact fun c hc => absurd hc List.not_mem_nil
    · exact ih

/-- The tag up to its first `>`. -/
def Tag.cut (t : Tag) : Tag where
  name := t.name
  attrs := cut_attrs t.attrs
  ending := cut_ending t.ending t.attrs
  name_key := t.name_key
  closed := cut_closed t.closed
  ends := cut_ends t.ends

/-- No `>` stands in the blanks, the name, and the quote of an attribute. -/
theorem no_gt {w : Bytes} (h : ∀ c ∈ w, is_ws c = true ∨ is_key_byte c = true ∨ c = 61 ∨ c = 34 ∨ c = 39) :
    (62 : UInt8) ∉ w := fun hmem => absurd (h 62 hmem) (by decide)

/-- The attribute in front of its value. -/
def Attr.front (a : Attr) : Bytes := a.gap ++ (a.name ++ (a.before ++ 61 :: (a.after ++ a.opening)))

theorem Attr.text_eq (a : Attr) (rest : Bytes) : a.text rest = a.front ++ (a.value ++ (a.closing ++ rest)) := by
  unfold Attr.text Attr.front
  simp only [List.append_assoc, List.cons_append]

theorem front_no_gt (a : Attr) : (62 : UInt8) ∉ a.front := by
  refine no_gt fun c hc => ?_
  unfold Attr.front at hc
  simp only [List.mem_append, List.mem_cons] at hc
  rcases hc with hc | hc | hc | rfl | hc | hc
  · exact .inl (a.gap_blank c hc)
  · exact .inr (.inl (a.name_key.2 c hc))
  · exact .inl (a.before_blank c hc)
  · exact .inr (.inr (.inl rfl))
  · exact .inl (a.after_blank c hc)
  · exact .inr (.inr (.inr (a.quoted c (Option.mem_toList.mp hc)).1))

theorem closing_no_gt (a : Attr) : (62 : UInt8) ∉ a.closing := by
  rcases closing_cases a with h | ⟨q, h, hq⟩
  · rw [h]
    exact List.not_mem_nil
  · have hmem : q ∈ a.quote.toList := by
      unfold Attr.closing at h
      split_ifs at h
      rw [h]
      exact List.mem_singleton_self q
    rw [h, List.mem_singleton]
    rintro rfl
    exact absurd (a.quoted 62 (Option.mem_toList.mp hmem)).1 (by decide)

theorem takeWhile_no_gt {w : Bytes} (h : (62 : UInt8) ∉ w) (y : Bytes) :
    (w ++ y).takeWhile (· != 62) = w ++ y.takeWhile (· != 62) := by
  refine List.takeWhile_append_of_pos fun c hc => ?_
  rw [bne_iff_ne]
  rintro rfl
  exact h hc

/-- A `>` in the front part is the first one. -/
theorem takeWhile_gt {w : Bytes} (h : (62 : UInt8) ∈ w) (y : Bytes) :
    (w ++ y).takeWhile (· != 62) = w.takeWhile (· != 62) := by
  induction w with
  | nil => exact absurd h List.not_mem_nil
  | cons c w ih =>
    rw [List.cons_append]
    by_cases hc : c = 62
    · rw [List.takeWhile_cons_of_neg (by simp [hc]), List.takeWhile_cons_of_neg (by simp [hc])]
    · have hw : (62 : UInt8) ∈ w := (List.mem_cons.mp h).resolve_left fun h' => hc h'.symm
      rw [List.takeWhile_cons_of_pos (by simp [hc]), List.takeWhile_cons_of_pos (by simp [hc]), ih hw]

theorem attrs_before_gt {ending : Bytes} (hending : (62 : UInt8) ∉ ending) (as : List Attr) (x : Bytes) :
    (attrs_text ending as ++ 62 :: x).takeWhile (· != 62) = attrs_text (cut_ending ending as) (cut_attrs as) := by
  induction as with
  | nil =>
    show (ending ++ 62 :: x).takeWhile (· != 62) = ending
    exact take_while_not_gt hending x
  | cons a as ih =>
    rw [attrs_text, Attr.text_eq, List.append_assoc, takeWhile_no_gt (front_no_gt a), List.append_assoc,
      cut_attrs, cut_ending]
    split_ifs with hgt
    · rw [takeWhile_gt hgt]
      show _ = a.cut.text []
      rw [Attr.text_eq, List.append_nil]
      show _ = a.front ++ (a.value.takeWhile (· != 62) ++ [])
      rw [List.append_nil]
    · rw [takeWhile_no_gt hgt, List.append_assoc, takeWhile_no_gt (closing_no_gt a), ih, attrs_text, Attr.text_eq]

/-- **The tag up to its first `>`.** -/
theorem before_gt {t : Tag} (hending : (62 : UInt8) ∉ t.ending) (x : Bytes) :
    (t.text ++ 62 :: x).takeWhile (· != 62) = t.cut.text := by
  have hname : (62 : UInt8) ∉ 60 :: t.name := by
    rw [List.mem_cons, not_or]
    exact ⟨by decide, fun h => absurd (t.name_key.2 62 h) (by decide)⟩
  unfold Tag.text
  rw [List.append_assoc, takeWhile_no_gt hname, attrs_before_gt hending]
  rfl

end Cut

/-! ## Links -/

/-- A value that begins with one of the schemes, in any letter case. -/
def dangerous_value (val : Bytes) : Bool :=
  starts_ci val 0 (ascii "javascript:") || starts_ci val 0 (ascii "vbscript:") || starts_ci val 0 (ascii "data:")

/-- **The code judges the value behind the first `href`.** -/
theorem tag_href_eq (s : Bytes) :
    tag_href_value_dangerous s = some ((found s (ascii "href")).any dangerous_value) := by
  unfold tag_href_value_dangerous found
  cases hfind : find_sub_ci s (ascii "href") with
  | none => rfl
  | some p =>
    have hfits := (starts_ci_iff.mp ((find_sub_ci_eq_some (by decide)).mp hfind).1).1
    have hread := read_assigned (in_front_drop hfits)
    rw [Option.bind_some]
    dsimp only
    have hfour : (ascii "href").length = 4 := by decide
    rw [hfour] at hread hfits ⊢
    by_cases hname : (s[p + 4]?).any is_name_byte = true
    · -- a name that goes on assigns nothing
      have hnone : assigned (s.drop (p + 4)) = none := by
        refine assigned_name (w := []) (fun c hc => absurd hc List.not_mem_nil) fun c hc => ?_
        rw [List.head?_drop] at hc
        rw [hc, Option.any_some] at hname
        have htable : ∀ n : Fin 256, is_name_byte (UInt8.ofFin n) = true →
            is_ws (UInt8.ofFin n) = false ∧ UInt8.ofFin n ≠ 61 := by decide +kernel
        exact htable c.toFin hname
      rw [if_pos hname, hnone]
      rfl
    · rw [if_neg hname]
      split_ifs at hread ⊢
      · rw [← Option.some.inj hread]
        rfl
      · rw [← Option.some.inj hread]
        rfl
      · obtain ⟨val, hval, hassigned⟩ := Option.map_eq_some_iff.mp hread
        rw [hval, ← hassigned]
        rfl

section Links

variable {t : Tag} {x rest : Bytes} {doc doc' : Doc}

theorem not_gt_cut (hending : (62 : UInt8) ∉ t.ending) : (62 : UInt8) ∉ t.cut.text := by
  rw [← before_gt hending []]
  intro hmem
  have h := List.mem_takeWhile_imp hmem
  exact absurd h (by decide)

/-- What the code sees of a link is an opening tag. -/
theorem link_start (hname : t.name.map to_lower = ascii "a") (hending : (62 : UInt8) ∉ t.ending) :
    StartOf (ascii "a") t.cut.text := by
  have hgt := not_gt_cut hending
  refine ⟨t.name, attrs_text t.cut.ending t.cut.attrs, rfl, hname, fun c hc => ?_, fun hmem => ?_⟩
  · have htable : ∀ n : Fin 256, is_ws (UInt8.ofFin n) = true ∨ UInt8.ofFin n = 62 → is_alnum (UInt8.ofFin n) = false := by
      decide +kernel
    exact htable c.toFin (attrs_text_head t.cut.ends t.cut.attrs c hc)
  · unfold Tag.text at hgt
    exact hgt (List.mem_append_right _ hmem)

/-- The branch of a link. -/
theorem open_tag_link {name tag_slice : Bytes} (hname : name.map to_lower = ascii "a") (computed : BoxStyle) :
    doc.open_tag tag_slice name computed = doc.open_link tag_slice computed.color := by
  have hnot : ∀ names : List Bytes, ascii "a" ∉ names → ¬ name_in name names = true := by
    intro names hnames hin
    rw [name_in_iff, hname] at hin
    exact hnames hin
  have his : ∀ n : Bytes, ascii "a" ≠ n → ¬ name_is name n = true := by
    intro n hn his
    rw [name_is_iff, hname] at his
    exact hn his
  unfold Doc.open_tag
  rw [if_neg (hnot _ (by decide)), if_neg (hnot _ (by decide)), if_neg (his _ (by decide)), if_neg (his _ (by decide)),
    if_neg (his _ (by decide)), if_neg (hnot _ (by decide)), if_neg (hnot _ (by decide)), if_neg (hnot _ (by decide)),
    if_neg (hnot _ (by decide)), if_pos (name_is_iff.mpr hname)]

/-- The colour a link would get. -/
def Doc.link_colour (doc : Doc) (start : Bytes) : Rgb :=
  ((doc.tag_style start (start_name start)).bind BoxStyle.color).getD doc.hints.link

theorem plain_link : plain_name (ascii "a") = true := by decide

/-- `<a href=javascript:f`. -/
def SCRIPT_LINK : Tag where
  name := ascii "a"
  attrs := [plain_attr (ascii "href") (ascii "javascript:f") (key_of_table (by decide)) (value_of_table (by decide))]
  ending := []
  name_key := key_of_table (by decide)
  closed := ⟨.inl rfl, trivial⟩
  ends := ends_nil

/-- `<a hreflang=en href=javascript:f`. -/
def FOREIGN_LINK : Tag where
  name := ascii "a"
  attrs := [plain_attr (ascii "hreflang") (ascii "en") (key_of_table (by decide)) (value_of_table (by decide)),
    plain_attr (ascii "href") (ascii "javascript:f") (key_of_table (by decide)) (value_of_table (by decide))]
  ending := []
  name_key := key_of_table (by decide)
  closed := ⟨.inl rfl, .inl rfl, trivial⟩
  ends := ends_nil

end Links

end EveOS.Html
