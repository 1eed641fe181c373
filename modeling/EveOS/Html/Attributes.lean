/-
Attributes of a tag.

`extract_attr_value` looks for the first place in the tag where the key stands,
be it in the name of the tag, in the name of an attribute or in a value, and
reads what is assigned there. `Tag.Says` says what that is, attribute by
attribute; it is the value of the attribute with that name only if no other place
comes first, or if the other place happens to say the same
(`attribute_lookup_iff`).
-/
import EveOS.Html.Search
import EveOS.Html.Tag

set_option autoImplicit false

namespace EveOS.Html

/-! ## What is assigned at a place -/

/-- A value: quoted, or up to a blank or `>`. -/
def value_text : Bytes → Option Bytes
  | [] => none
  | q :: y =>
    if q = 34 ∨ q = 39 then some (y.takeWhile (· != q))
    else some ((q :: y).takeWhile fun c => !(is_ws c || c == 62))

/-- What `= value` at the front of a text assigns. -/
def assigned (z : Bytes) : Option Bytes :=
  match z.dropWhile is_ws with
  | [] => none
  | c :: y => if c = 61 then value_text (y.dropWhile is_ws) else none

/-- What is assigned behind the first place where `k` stands. -/
def found (y k : Bytes) : Option Bytes :=
  (find_sub_ci y k).bind fun p => assigned (y.drop (p + k.length))

section Places

variable {s x y z k : Bytes} {i : Nat}

theorem slice_scan (h : InFront s i x) (p : UInt8 → Bool) : slice? s i (scan p s i) = some (x.takeWhile p) := by
  have hle : i ≤ s.length := by have := h.length; omega
  rw [slice?_eq (le_scan p s i) (scan_le p hle), h.drop]
  unfold scan
  rw [h.drop, Nat.add_sub_cancel_left, ← List.prefix_iff_eq_take.mp (List.takeWhile_prefix p)]

theorem attr_value_at_eq (h : InFront s i y) (hy : y ≠ []) : attr_value_at s i = value_text y := by
  obtain ⟨q, y, rfl⟩ := List.exists_cons_of_ne_nil hy
  unfold attr_value_at value_text
  rw [h.head, Option.bind_eq_bind, Option.bind_some]
  dsimp only
  split_ifs
  · exact slice_scan h.next _
  · exact slice_scan h _

/-- **What the code reads behind a place.** -/
theorem read_assigned (h : InFront s i z) :
    (if s[skip_ws s i]? ≠ some 61 then some none
      else
        if s.length ≤ skip_ws s (skip_ws s i + 1) then some none
        else (attr_value_at s (skip_ws s (skip_ws s i + 1))).map some) = some (assigned z) := by
  have hskip : InFront s (skip_ws s i) (z.dropWhile is_ws) := h.scan_dropWhile is_ws
  have hhead := hskip.getElem? 0
  rw [Nat.add_zero] at hhead
  unfold assigned
  cases hz : z.dropWhile is_ws with
  | nil =>
    rw [hz] at hhead
    rw [hhead, if_pos (by simp)]
  | cons c y =>
    rw [hz] at hhead hskip
    rw [hhead, List.getElem?_cons_zero]
    by_cases hc : c = 61
    · have hvalue : InFront s (skip_ws s (skip_ws s i + 1)) (y.dropWhile is_ws) := hskip.next.scan_dropWhile is_ws
      have hlen := hvalue.length
      rw [if_neg (by simp [hc])]
      dsimp only
      rw [if_pos hc]
      cases hy : y.dropWhile is_ws with
      | nil =>
        rw [hy, List.length_nil] at hlen
        rw [if_pos (by omega)]
        rfl
      | cons q rest =>
        rw [hy, List.length_cons] at hlen
        rw [hy] at hvalue
        rw [if_neg (by omega), attr_value_at_eq hvalue (List.cons_ne_nil q rest)]
        unfold value_text
        dsimp only
        split_ifs <;> rfl
    · rw [if_pos (by simpa using hc)]
      dsimp only
      rw [if_neg hc]

/-- **The code reads what is assigned behind the first place.** -/
theorem extract_attr_value_eq (s : Bytes) (hk : k ≠ []) : extract_attr_value s k = some (found s k) := by
  unfold extract_attr_value found
  cases hfind : find_sub_ci s k with
  | none => rfl
  | some p =>
    have hfits := (starts_ci_iff.mp ((find_sub_ci_eq_some hk).mp hfind).1).1
    exact read_assigned (in_front_drop hfits)

/-! ## The first place -/

/-- A place in the front part is the first. -/
theorem found_here {p : Nat} (hk : k ≠ []) (h : find_sub_ci x k = some p) (z : Bytes) :
    found (x ++ z) k = assigned (x.drop (p + k.length) ++ z) := by
  have hfits := (starts_ci_iff.mp ((find_sub_ci_eq_some hk).mp h).1).1
  have hfind : find_sub_ci (x ++ z) k = some p :=
    find_sub_ci_append (t := []) hk (by rw [List.append_nil]; exact h) hfits z
  unfold found
  rw [hfind, Option.bind_some, List.drop_append_of_le_length hfits]

theorem found_skip (hk : k ≠ []) {c : UInt8} (hc : to_lower c ∉ k) (h : find_sub_ci x k = none) (y : Bytes) :
    found (x ++ c :: y) k = found y k := by
  unfold found
  rw [find_sub_ci_skip hk hc h, Option.bind_map]
  refine Option.bind_congr fun p hp => ?_
  have hdrop : (x ++ c :: y).drop (x.length + 1 + (p + k.length)) = y.drop (p + k.length) := by
    rw [← List.drop_drop, List.append_cons, List.drop_left' (by rw [List.length_append, List.length_singleton])]
  dsimp only [Function.comp]
  rw [Nat.add_assoc, hdrop]

theorem find_nil (hk : k ≠ []) : find_sub_ci [] k = none := by
  rw [find_sub_ci_eq_none hk]
  intro j
  rw [Bool.eq_false_iff, Ne, starts_ci_iff]
  have hpos := List.length_pos_iff.mpr hk
  rintro ⟨hlen, -⟩
  rw [List.length_nil] at hlen
  omega

/-- No place reaches across bytes that are not in `k`. -/
theorem found_separated (hk : k ≠ []) {w : Bytes} (hne : w ≠ []) (hw : ∀ c ∈ w, to_lower c ∉ k)
    (h : find_sub_ci x k = none) (y : Bytes) : found (x ++ (w ++ y)) k = found y k := by
  induction w generalizing x with
  | nil => exact absurd rfl hne
  | cons c w ih =>
    rw [List.cons_append, found_skip hk (hw c List.mem_cons_self) h]
    by_cases hw' : w = []
    · rw [hw', List.nil_append]
    · exact ih hw' (fun d hd => hw d (List.mem_cons_of_mem c hd)) (find_nil hk)

end Places

/-! ## Tags -/

/-- A byte of a name: no blank, quote, `/`, `=` or `>`. -/
def is_key_byte (c : UInt8) : Bool := !(is_ws c || c == 34 || c == 39 || c == 47 || c == 61 || c == 62)

def IsKey (k : Bytes) : Prop := k ≠ [] ∧ ∀ c ∈ k, is_key_byte c = true

/-- An attribute with the blanks in front of it. A quoted value may lack the
quote behind it. -/
structure Attr where
  gap : Bytes
  name : Bytes
  before : Bytes
  after : Bytes
  quote : Option UInt8
  value : Bytes
  closed : Bool
  gap_ne : gap ≠ []
  gap_blank : IsBlanks gap
  name_key : IsKey name
  before_blank : IsBlanks before
  after_blank : IsBlanks after
  quoted : ∀ q, quote = some q → (q = 34 ∨ q = 39) ∧ q ∉ value
  unquoted : quote = none → value ≠ [] ∧ (∀ c ∈ value, is_ws c = false ∧ c ≠ 62) ∧
    ∀ c, value.head? = some c → c ≠ 34 ∧ c ≠ 39

def Attr.opening (a : Attr) : Bytes := a.quote.toList

def Attr.closing (a : Attr) : Bytes := if a.closed then a.quote.toList else []

/-- The attribute with what follows it. -/
def Attr.text (a : Attr) (rest : Bytes) : Bytes :=
  a.gap ++ (a.name ++ ((a.before ++ 61 :: (a.after ++ a.opening)) ++ (a.value ++ (a.closing ++ rest))))

/-- Attributes, and the end of the tag. -/
def attrs_text (ending : Bytes) : List Attr → Bytes
  | [] => ending
  | a :: as => a.text (attrs_text ending as)

/-- Only at the end of the tag a quote may lack. -/
def QuotesClosed (ending : Bytes) : List Attr → Prop
  | [] => True
  | a :: as => (a.closed = true ∨ attrs_text ending as = []) ∧ QuotesClosed ending as

/-- `<`, a name, attributes, and blanks and `>` if they belong to it. -/
structure Tag where
  name : Bytes
  attrs : List Attr
  ending : Bytes
  name_key : IsKey name
  closed : QuotesClosed ending attrs
  ends : ∀ c ∈ ending, is_ws c = true ∨ c = 62

def Tag.text (t : Tag) : Bytes := (60 :: t.name) ++ attrs_text t.ending t.attrs

/-- The value of the first attribute with the name `k`, in any letter case. -/
def Tag.lookup (t : Tag) (k : Bytes) : Option Bytes :=
  (t.attrs.find? fun a => a.name.map to_lower == k.map to_lower).map Attr.value

/-- The first place where `k` stands in the attributes is followed by the value
`v`: it is the end of an attribute's name, or lies in a value. -/
def attrs_say (k v ending : Bytes) : List Attr → Prop
  | [] => False
  | a :: as =>
    match find_sub_ci a.name k with
    | some p => p + k.length = a.name.length ∧ a.value = v
    | none =>
      match find_sub_ci a.value k with
      | some p => assigned (a.value.drop (p + k.length) ++ (a.closing ++ attrs_text ending as)) = some v
      | none => attrs_say k v ending as

/-- What the tag says behind the first place where `k` stands. Behind its own name
it says nothing. -/
def Tag.Says (t : Tag) (k v : Bytes) : Prop :=
  find_sub_ci (60 :: t.name) k = none ∧ attrs_say k v t.ending t.attrs

section Tags

variable {k v ending : Bytes} {a : Attr} {as : List Attr}

theorem key_byte_table {c : UInt8} :
    (is_key_byte c = false → to_lower c = c) ∧ (is_key_byte c = true → is_ws c = false ∧ c ≠ 61 ∧ c ≠ 62) := by
  have htable : ∀ n : Fin 256, (is_key_byte (UInt8.ofFin n) = false → to_lower (UInt8.ofFin n) = UInt8.ofFin n) ∧
      (is_key_byte (UInt8.ofFin n) = true →
        is_ws (UInt8.ofFin n) = false ∧ UInt8.ofFin n ≠ 61 ∧ UInt8.ofFin n ≠ 62) := by decide +kernel
  exact htable c.toFin

/-- A byte that is in no name. -/
theorem IsKey.separates (hk : IsKey k) {c : UInt8} (hc : is_key_byte c = false) : to_lower c ∉ k := by
  rw [key_byte_table.1 hc]
  intro hmem
  rw [hk.2 c hmem] at hc
  cases hc

theorem not_key_of_ws {c : UInt8} (h : is_ws c = true) : is_key_byte c = false := by
  unfold is_key_byte
  rw [h]
  rfl

theorem attrs_text_head (hend : ∀ c ∈ ending, is_ws c = true ∨ c = 62) (as : List Attr) :
    ∀ c, (attrs_text ending as).head? = some c → is_ws c = true ∨ c = 62 := by
  intro c hc
  cases as with
  | nil => exact hend c (List.mem_of_mem_head? hc)
  | cons a as =>
    rw [attrs_text, Attr.text, List.head?_append_of_ne_nil _ a.gap_ne] at hc
    exact .inl (a.gap_blank c (List.mem_of_mem_head? hc))

theorem dropWhile_blanks {w y : Bytes} (hw : IsBlanks w) (hy : ∀ c, y.head? = some c → is_ws c = false) :
    (w ++ y).dropWhile is_ws = y := by
  rw [List.dropWhile_append_of_pos hw]
  cases y with
  | nil => rfl
  | cons c y => rw [List.dropWhile_cons_of_neg (by rw [hy c rfl]; exact Bool.false_ne_true)]

/-- A name assigns nothing. -/
theorem assigned_name {w y : Bytes} (hw : IsBlanks w) (hy : ∀ c, y.head? = some c → is_ws c = false ∧ c ≠ 61) :
    assigned (w ++ y) = none := by
  unfold assigned
  rw [dropWhile_blanks hw fun c hc => (hy c hc).1]
  cases y with
  | nil => rfl
  | cons c y => exact if_neg (hy c rfl).2

theorem assigned_attrs (hend : ∀ c ∈ ending, is_ws c = true ∨ c = 62) (as : List Attr) :
    assigned (attrs_text ending as) = none := by
  cases as with
  | nil =>
    unfold attrs_text assigned
    cases hdrop : ending.dropWhile is_ws with
    | nil => rfl
    | cons c y =>
      have hmem : c ∈ ending := (List.dropWhile_sublist is_ws).subset (hdrop ▸ List.mem_cons_self)
      have hnot := List.head?_dropWhile_not is_ws ending
      rw [hdrop] at hnot
      have hgt := (hend c hmem).resolve_left (by rw [hnot]; exact Bool.false_ne_true)
      exact if_neg (by rw [hgt]; decide)
  | cons a as =>
    refine assigned_name a.gap_blank fun c hc => ?_
    rw [List.head?_append_of_ne_nil _ a.name_key.1] at hc
    have hkey := key_byte_table.2 (a.name_key.2 c (List.mem_of_mem_head? hc))
    exact ⟨hkey.1, hkey.2.1⟩

/-- Inside a name, and behind the name of the tag, nothing is assigned. -/
theorem assigned_in_name {w y : Bytes} (hw : ∀ c ∈ w, is_key_byte c = true) (hne : w ≠ []) :
    assigned (w ++ y) = none := by
  refine assigned_name (w := []) (y := w ++ y) (fun c hc => absurd hc List.not_mem_nil) fun c hc => ?_
  rw [List.head?_append_of_ne_nil _ hne] at hc
  have hkey := key_byte_table.2 (hw c (List.mem_of_mem_head? hc))
  exact ⟨hkey.1, hkey.2.1⟩

theorem takeWhile_to_stop {p : UInt8 → Bool} {w y : Bytes} (hw : ∀ c ∈ w, p c = true)
    (hy : ∀ c, y.head? = some c → p c = false) : (w ++ y).takeWhile p = w := by
  rw [List.takeWhile_append_of_pos hw]
  cases y with
  | nil => rw [List.takeWhile_nil, List.append_nil]
  | cons c y => rw [List.takeWhile_cons_of_neg (by rw [hy c rfl]; exact Bool.false_ne_true), List.append_nil]

theorem value_text_quoted {q : UInt8} {w y : Bytes} (hq : q = 34 ∨ q = 39) (hw : q ∉ w)
    (hy : ∀ c, y.head? = some c → c = q) : value_text (q :: (w ++ y)) = some w := by
  unfold value_text
  dsimp only
  rw [if_pos hq]
  refine congrArg some (takeWhile_to_stop ?_ ?_)
  · intro c hc
    rw [bne_iff_ne]
    rintro rfl
    exact hw hc
  · intro c hc
    rw [hy c hc, bne_self_eq_false]

theorem value_text_unquoted {w y : Bytes} (hne : w ≠ []) (hw : ∀ c ∈ w, is_ws c = false ∧ c ≠ 62)
    (hhead : ∀ c, w.head? = some c → c ≠ 34 ∧ c ≠ 39) (hy : ∀ c, y.head? = some c → is_ws c = true ∨ c = 62) :
    value_text (w ++ y) = some w := by
  obtain ⟨q, w', rfl⟩ := List.exists_cons_of_ne_nil hne
  have hq : ¬ (q = 34 ∨ q = 39) := not_or.mpr (hhead q rfl)
  unfold value_text
  rw [List.cons_append]
  dsimp only
  rw [if_neg hq]
  refine congrArg some (takeWhile_to_stop (w := q :: w') ?_ ?_)
  · intro c hc
    obtain ⟨hws, hgt⟩ := hw c hc
    simp [hws, hgt]
  · intro c hc
    rcases hy c hc with h | h
    · simp [h]
    · simp [h]

/-- **Behind its name an attribute assigns its value.** -/
theorem assigned_value (a : Attr) {rest : Bytes} (hclosed : a.closed = true ∨ rest = [])
    (hrest : ∀ c, rest.head? = some c → is_ws c = true ∨ c = 62) :
    assigned ((a.before ++ 61 :: (a.after ++ a.opening)) ++ (a.value ++ (a.closing ++ rest))) = some a.value := by
  have hvalue : value_text (a.opening ++ (a.value ++ (a.closing ++ rest))) = some a.value ∧
      ∀ c, (a.opening ++ (a.value ++ (a.closing ++ rest))).head? = some c → is_ws c = false := by
    unfold Attr.opening Attr.closing
    cases hq : a.quote with
    | none =>
      obtain ⟨hne, hvalue, hhead⟩ := a.unquoted hq
      rw [Option.toList_none, List.nil_append, ite_self, List.nil_append]
      refine ⟨value_text_unquoted hne hvalue hhead hrest, fun c hc => ?_⟩
      rw [List.head?_append_of_ne_nil _ hne] at hc
      exact (hvalue c (List.mem_of_mem_head? hc)).1
    | some q =>
      obtain ⟨hquote, hvalue⟩ := a.quoted q hq
      rw [Option.toList_some, List.singleton_append]
      refine ⟨value_text_quoted hquote hvalue fun c hc => ?_, fun c hc => ?_⟩
      · rcases hclosed with hclosed | hclosed
        · rw [hclosed, if_pos rfl, List.singleton_append] at hc
          exact (Option.some.inj hc).symm
        · rw [hclosed, List.append_nil] at hc
          split_ifs at hc
          · exact (Option.some.inj hc).symm
          · cases hc
      · obtain rfl := Option.some.inj hc
        rcases hquote with rfl | rfl <;> decide
  have hafter : (a.after ++ (a.opening ++ (a.value ++ (a.closing ++ rest)))).dropWhile is_ws =
      a.opening ++ (a.value ++ (a.closing ++ rest)) := dropWhile_blanks a.after_blank hvalue.2
  have hbefore : (a.before ++ 61 :: (a.after ++ (a.opening ++ (a.value ++ (a.closing ++ rest))))).dropWhile is_ws =
      61 :: (a.after ++ (a.opening ++ (a.value ++ (a.closing ++ rest)))) := by
    refine dropWhile_blanks a.before_blank fun c hc => ?_
    obtain rfl := Option.some.inj hc
    rfl
  rw [List.append_assoc, List.cons_append, List.append_assoc]
  unfold assigned
  rw [hbefore]
  dsimp only
  rw [if_pos rfl, hafter]
  exact hvalue.1

/-- The bytes between the name and the value are in no name. -/
theorem separated_value (a : Attr) : ∀ c ∈ a.before ++ 61 :: (a.after ++ a.opening), is_key_byte c = false := by
  intro c hc
  simp only [List.mem_append, List.mem_cons] at hc
  rcases hc with hc | rfl | hc | hc
  · exact not_key_of_ws (a.before_blank c hc)
  · rfl
  · exact not_key_of_ws (a.after_blank c hc)
  · have hq := (a.quoted c (Option.mem_toList.mp hc)).1
    rcases hq with rfl | rfl <;> rfl

theorem closing_cases (a : Attr) : a.closing = [] ∨ ∃ q, a.closing = [q] ∧ is_key_byte q = false := by
  unfold Attr.closing
  split_ifs
  · cases hq : a.quote with
    | none => exact .inl rfl
    | some q =>
      refine .inr ⟨q, rfl, ?_⟩
      rcases (a.quoted q hq).1 with rfl | rfl <;> rfl
  · exact .inl rfl

/-- **What is found in the attributes.** -/
theorem found_attrs (hk : IsKey k) (hclosed : QuotesClosed ending as) (hend : ∀ c ∈ ending, is_ws c = true ∨ c = 62)
    {x : Bytes} (hx : find_sub_ci x k = none) :
    found (x ++ attrs_text ending as) k = some v ↔ attrs_say k v ending as := by
  induction as generalizing x with
  | nil =>
    refine iff_of_false ?_ id
    have hnil : found [] k = none := by rw [found, find_nil hk.1, Option.bind_none]
    unfold attrs_text
    by_cases hempty : ending = []
    · rw [hempty, List.append_nil, found, hx]
      exact (Option.some_ne_none v).symm
    · rw [← List.append_nil ending, found_separated hk.1 hempty _ hx, hnil]
      · exact (Option.some_ne_none v).symm
      · intro c hc
        refine hk.separates ?_
        rcases hend c hc with h | rfl
        · exact not_key_of_ws h
        · rfl
  | cons a as ih =>
    obtain ⟨hclosed, hrest⟩ := hclosed
    rw [attrs_text, Attr.text, attrs_say,
      found_separated hk.1 a.gap_ne (fun c hc => hk.separates (not_key_of_ws (a.gap_blank c hc))) hx]
    cases hname : find_sub_ci a.name k with
    | some p =>
      have hfits := (starts_ci_iff.mp ((find_sub_ci_eq_some hk.1).mp hname).1).1
      rw [found_here hk.1 hname]
      dsimp only
      by_cases hlast : p + k.length = a.name.length
      · rw [hlast, List.drop_length, List.nil_append, assigned_value a hclosed (attrs_text_head hend as),
          Option.some_inj, eq_self_iff_true, true_and]
      · have hne : a.name.drop (p + k.length) ≠ [] := by
          rw [Ne, List.drop_eq_nil_iff]
          omega
        rw [assigned_in_name (fun c hc => a.name_key.2 c (List.mem_of_mem_drop hc)) hne]
        exact iff_of_false (Option.some_ne_none v).symm fun h => hlast h.1
    | none =>
      have hne : a.before ++ 61 :: (a.after ++ a.opening) ≠ [] := by simp
      rw [found_separated hk.1 hne (fun c hc => hk.separates (separated_value a c hc)) hname]
      dsimp only
      cases hvalue : find_sub_ci a.value k with
      | some p => rw [found_here hk.1 hvalue]
      | none =>
        dsimp only
        rcases closing_cases a with hclosing | ⟨q, hclosing, hq⟩
        · rw [hclosing, List.nil_append]
          exact ih hrest hvalue
        · rw [hclosing, List.singleton_append, found_skip hk.1 (hk.separates hq) hvalue]
          exact ih hrest (x := []) (find_nil hk.1)

/-- **What is found in a tag.** -/
theorem found_tag (t : Tag) (hk : IsKey k) : found t.text k = some v ↔ t.Says k v := by
  unfold Tag.Says Tag.text
  cases hname : find_sub_ci (60 :: t.name) k with
  | none => rw [found_attrs hk t.closed t.ends hname, eq_self_iff_true, true_and]
  | some p =>
    rw [found_here hk.1 hname]
    refine iff_of_false ?_ fun h => Option.some_ne_none p h.1
    by_cases hlast : (60 :: t.name).drop (p + k.length) = []
    · rw [hlast, List.nil_append, assigned_attrs t.ends]
      exact (Option.some_ne_none v).symm
    · rw [assigned_in_name _ hlast]
      · exact (Option.some_ne_none v).symm
      · intro c hc
        rcases List.mem_cons.mp (List.mem_of_mem_drop hc) with rfl | hc
        · rfl
        · exact t.name_key.2 c hc

/-- Behind its own name, if that is the first place, the tag says the attribute's value. -/
theorem attrs_say_own {front back : List Attr} (hk : k ≠ []) (hname : a.name.map to_lower = k)
    (hfront : ∀ b ∈ front, find_sub_ci b.name k = none ∧ find_sub_ci b.value k = none) :
    attrs_say k v ending (front ++ a :: back) ↔ a.value = v := by
  induction front with
  | nil =>
    have hfind : find_sub_ci a.name k = some 0 := by
      rw [find_sub_ci_eq_some hk, starts_ci_iff, List.drop_zero, ← hname, List.length_map, List.take_length]
      exact ⟨⟨by omega, rfl⟩, fun j hj => absurd hj (Nat.not_lt_zero j)⟩
    rw [List.nil_append, attrs_say, hfind]
    dsimp only
    rw [← hname, List.length_map, Nat.zero_add, eq_self_iff_true, true_and]
  | cons b front ih =>
    obtain ⟨hb, hb'⟩ := hfront b List.mem_cons_self
    rw [List.cons_append, attrs_say, hb]
    dsimp only
    rw [hb']
    exact ih fun c hc => hfront c (List.mem_cons_of_mem b hc)

/-- **When an attribute is looked up right**: when the first place where its name
stands says what the attribute says. -/
theorem attribute_lookup_iff (t : Tag) (hk : IsKey k) :
    extract_attr_value t.text k = some (t.lookup k) ↔ ∀ v, t.Says k v ↔ t.lookup k = some v := by
  rw [extract_attr_value_eq t.text hk.1, Option.some_inj]
  constructor
  · intro h v
    rw [← h, found_tag t hk]
  · intro h
    refine Option.ext fun v => ?_
    rw [found_tag t hk, h v]

/-- ` name=value`. -/
def plain_attr (name value : Bytes) (hname : IsKey name)
    (hvalue : value ≠ [] ∧ (∀ c ∈ value, is_ws c = false ∧ c ≠ 62) ∧ ∀ c, value.head? = some c → c ≠ 34 ∧ c ≠ 39) :
    Attr where
  gap := [32]
  name := name
  before := []
  after := []
  quote := none
  value := value
  closed := true
  gap_ne := List.cons_ne_nil _ _
  gap_blank := is_blanks_space
  name_key := hname
  before_blank := is_blanks_nil
  after_blank := is_blanks_nil
  quoted := fun _ h => absurd h.symm (Option.some_ne_none _)
  unquoted := fun _ => hvalue

theorem key_of_table {name : Bytes} (h : (name != [] && name.all is_key_byte) = true) : IsKey name := by
  rw [Bool.and_eq_true, bne_iff_ne, List.all_eq_true] at h
  exact h

theorem value_of_table {value : Bytes} (h : (value != [] && value.all is_key_byte) = true) :
    value ≠ [] ∧ (∀ c ∈ value, is_ws c = false ∧ c ≠ 62) ∧ ∀ c, value.head? = some c → c ≠ 34 ∧ c ≠ 39 := by
  obtain ⟨hne, hkey⟩ := key_of_table h
  refine ⟨hne, fun c hc => ?_, fun c hc => ?_⟩
  · have hbyte := key_byte_table.2 (hkey c hc)
    exact ⟨hbyte.1, hbyte.2.2⟩
  · have hbyte := hkey c (List.mem_of_mem_head? hc)
    constructor
    · rintro rfl
      exact absurd hbyte (by decide)
    · rintro rfl
      exact absurd hbyte (by decide)

theorem ends_nil : ∀ c ∈ ([] : Bytes), is_ws c = true ∨ c = 62 := fun _ hc => absurd hc List.not_mem_nil

/-- `<div data-id=7 id=main`. -/
def DATA_ID : Tag where
  name := ascii "div"
  attrs := [plain_attr (ascii "data-id") (ascii "7") (key_of_table (by decide)) (value_of_table (by decide)),
    plain_attr (ascii "id") (ascii "main") (key_of_table (by decide)) (value_of_table (by decide))]
  ending := []
  name_key := key_of_table (by decide)
  closed := ⟨.inl rfl, .inl rfl, trivial⟩
  ends := ends_nil

/-- An attribute that is the first place with its name. -/
theorem data_id_is_found : extract_attr_value DATA_ID.text (ascii "data-id") = some (DATA_ID.lookup (ascii "data-id")) := by
  have hfront : ∀ b ∈ ([] : List Attr), find_sub_ci b.name (ascii "data-id") = none ∧
      find_sub_ci b.value (ascii "data-id") = none := fun b hb => absurd hb List.not_mem_nil
  refine (attribute_lookup_iff DATA_ID (key_of_table (by decide))).mpr fun v => ?_
  have hname : find_sub_ci (60 :: DATA_ID.name) (ascii "data-id") = none := by decide
  have hlookup : DATA_ID.lookup (ascii "data-id") = some (ascii "7") := by decide
  rw [hlookup, Option.some_inj, Tag.Says, eq_true hname, true_and]
  exact attrs_say_own (by decide) (by decide) hfront

/-- The end of another name comes first. -/
theorem id_is_not_found :
    extract_attr_value DATA_ID.text (ascii "id") = some (some (ascii "7")) ∧
      DATA_ID.lookup (ascii "id") = some (ascii "main") := by
  decide

end Tags

end EveOS.Html
