/-
Well-nested fragments of a document.

A fragment is text and elements, each with its opening tag, the fragment inside
it and its closing tag. The loop gets from one end of a fragment to the other tag
by tag: no piece of text reaches across the next `<`, and a tag is read up to its
`>`. So what a run over a fragment does can be said by recursion on the fragment
(`Frag.Processes`).
-/
import EveOS.Html.Skip
import EveOS.Html.View
import EveOS.Html.WholeCharacters

set_option autoImplicit false

namespace EveOS.Html

/-- Text, and elements with the text in front of them. `start` and `stop` are the
tags without their `>`. -/
inductive Frag
  | text (bs : Bytes)
  | elem (front start stop : Bytes) (inside after : Frag)

def Frag.bytes : Frag → Bytes
  | text bs => bs
  | elem front start stop inside after =>
    front ++ (start ++ 62 :: (inside.bytes ++ (stop ++ 62 :: after.bytes)))

/-- `<`, the name in any letter case, and attributes. -/
def StartOf (name start : Bytes) : Prop :=
  ∃ written attrs, start = 60 :: (written ++ attrs) ∧ written.map to_lower = name ∧
    (∀ c, attrs.head? = some c → is_alnum c = false) ∧ (62 : UInt8) ∉ attrs

/-- `</`, the name in any letter case, and blanks. -/
def EndOf (name stop : Bytes) : Prop :=
  ∃ written blanks, stop = 60 :: 47 :: (written ++ blanks) ∧ written.map to_lower = name ∧
    (∀ c, blanks.head? = some c → is_alnum c = false) ∧ (62 : UInt8) ∉ blanks

/-- The fragment is well nested over elements with these names. -/
def Frag.WellNested (names : List Bytes) : Frag → Prop
  | text bs => (60 : UInt8) ∉ bs
  | elem front start stop inside after =>
    (60 : UInt8) ∉ front ∧ (∃ name ∈ names, StartOf name start ∧ EndOf name stop) ∧
      inside.WellNested names ∧ after.WellNested names

/-! ## Names -/

theorem name_is_iff {written n : Bytes} : name_is written n = true ↔ written.map to_lower = n := by
  unfold name_is
  rw [Bool.and_eq_true, decide_eq_true_eq, starts_ci_iff]
  constructor
  · rintro ⟨hlen, -, hmap⟩
    rwa [List.drop_zero, ← hlen, List.take_length] at hmap
  · rintro rfl
    rw [List.length_map, List.drop_zero, List.take_length]
    exact ⟨rfl, by omega, rfl⟩

/-- The name in lower case decides. -/
theorem name_in_iff {written : Bytes} {names : List Bytes} :
    name_in written names = true ↔ written.map to_lower ∈ names := by
  unfold name_in
  rw [List.any_eq_true]
  constructor
  · rintro ⟨n, hn, h⟩
    rwa [name_is_iff.mp h]
  · exact fun h => ⟨_, h, name_is_iff.mpr rfl⟩

/-- What is looked for behind `<` before any other tag. -/
def FIRST_TAGS : List Bytes :=
  ascii "!--" :: ascii "meta" :: ascii "link" :: ascii "base" :: ascii "script" ::
    DROPPED_TAGS.map fun e => e.1.tail

/-- No tag with this name is one of the first ones. -/
def plain_name (name : Bytes) : Bool :=
  name != [] && name.all is_alnum && FIRST_TAGS.all fun w =>
    !w.isPrefixOf name && (!name.isPrefixOf w || (w[name.length]?).any is_alnum)

theorem is_alnum_to_lower {c : UInt8} (h : is_alnum (to_lower c) = true) : is_alnum c = true := by
  have htable : ∀ k : Fin 256, is_alnum (to_lower (UInt8.ofFin k)) = true → is_alnum (UInt8.ofFin k) = true := by
    decide +kernel
  exact htable c.toFin h

section Names

variable {name written y : Bytes}

theorem plain_name_alnum (hplain : plain_name name = true) (hname : written.map to_lower = name) :
    written ≠ [] ∧ ∀ c ∈ written, is_alnum c = true := by
  unfold plain_name at hplain
  rw [Bool.and_eq_true, Bool.and_eq_true, List.all_eq_true] at hplain
  obtain ⟨⟨hne, halnum⟩, -⟩ := hplain
  subst hname
  refine ⟨?_, fun c hc => is_alnum_to_lower (halnum _ (List.mem_map_of_mem hc))⟩
  rintro rfl
  simp at hne

/-- A tag with a plain name does not begin like one of the first tags. -/
theorem not_first_tag (hplain : plain_name name = true) (hname : written.map to_lower = name)
    (hy : ∀ c, y.head? = some c → is_alnum c = false) {w : Bytes} (hw : w ∈ FIRST_TAGS) :
    starts_ci (60 :: (written ++ y)) 0 (60 :: w) = false := by
  rw [Bool.eq_false_iff]
  intro hstarts
  obtain ⟨hlen, hmatch⟩ := starts_ci_iff.mp hstarts
  rw [List.drop_zero, List.length_cons, List.take_succ_cons, List.map_cons] at hmatch
  have hmatch := (List.cons.inj hmatch).2
  unfold plain_name at hplain
  rw [Bool.and_eq_true, List.all_eq_true] at hplain
  have hcheck := hplain.2 w hw
  rw [Bool.and_eq_true, Bool.not_eq_true', Bool.or_eq_true, Bool.not_eq_true'] at hcheck
  have hsame : name.length = written.length := by rw [← hname, List.length_map]
  by_cases hshort : w.length ≤ written.length
  · -- the pattern would begin the name
    rw [List.take_append_of_le_length hshort, List.map_take, hname] at hmatch
    have hext : w.isPrefixOf name = true := by
      rw [List.isPrefixOf_iff_prefix, ← hmatch]
      exact List.take_prefix _ _
    rw [hext] at hcheck
    cases hcheck.1
  · -- the name would begin the pattern, and what stands behind it is no letter
    obtain ⟨k, hk⟩ : ∃ k, w.length = written.length + (k + 1) := ⟨w.length - written.length - 1, by omega⟩
    rw [hk, List.take_length_add_append, List.map_append, hname] at hmatch
    cases y with
    | nil =>
      have := congrArg List.length hmatch
      rw [List.take_nil, List.map_nil, List.append_nil] at this
      omega
    | cons c y =>
      rw [List.take_succ_cons, List.map_cons] at hmatch
      have hext : name.isPrefixOf w = true := by
        rw [List.isPrefixOf_iff_prefix, ← hmatch]
        exact List.prefix_append _ _
      have hnext : w[name.length]? = some (to_lower c) := by
        rw [← hmatch, List.getElem?_append_right (Nat.le_refl _), Nat.sub_self, List.getElem?_cons_zero]
      rw [hext, hnext] at hcheck
      have hc := hy c rfl
      rcases hcheck.2 with h | h
      · cases h
      · rw [is_alnum_to_lower h] at hc
        cases hc

end Names

/-! ## Reading a tag -/

section Tags

variable {name start stop x : Bytes}

theorem take_while_not_gt {s : Bytes} (h : (62 : UInt8) ∉ s) (x : Bytes) :
    (s ++ 62 :: x).takeWhile (· != 62) = s := by
  rw [List.takeWhile_append_of_pos, List.takeWhile_cons_of_neg (by decide), List.append_nil]
  intro c hc
  have hne : c ≠ 62 := fun h' => h (h' ▸ hc)
  simpa using hne

/-- A tag that is none of the first ones is read up to its `>`. -/
theorem read_tag_plain {s : Bytes} (hgt : (62 : UInt8) ∉ s)
    (hfirst : ∀ w ∈ FIRST_TAGS, starts_ci (60 :: (s ++ 62 :: x)) 0 (60 :: w) = false) (style_len : Nat) :
    read_piece none style_len (60 :: (s ++ 62 :: x)) = some (.tag (60 :: s), s.length + 2) := by
  have hnot : ∀ w ∈ FIRST_TAGS, ∀ pat, 60 :: w = pat → ¬ starts_ci (60 :: (s ++ 62 :: x)) 0 pat = true := by
    rintro w hw pat rfl
    rw [hfirst w hw]
    exact Bool.false_ne_true
  have hcomment := hnot (ascii "!--") (by simp [FIRST_TAGS]) (ascii "<!--") (by decide)
  have hmeta := hnot (ascii "meta") (by simp [FIRST_TAGS]) (ascii "<meta") (by decide)
  have hlink := hnot (ascii "link") (by simp [FIRST_TAGS]) (ascii "<link") (by decide)
  have hbase := hnot (ascii "base") (by simp [FIRST_TAGS]) (ascii "<base") (by decide)
  have hscript := hnot (ascii "script") (by simp [FIRST_TAGS]) (ascii "<script") (by decide)
  have hdropped : ∀ e ∈ DROPPED_TAGS, ¬ starts_ci (60 :: (s ++ 62 :: x)) 0 e.1 = true := by
    rintro ⟨pat, piece⟩ he
    have hmem : pat.tail ∈ FIRST_TAGS := by
      unfold FIRST_TAGS
      simp only [List.mem_cons]
      exact .inr (.inr (.inr (.inr (.inr (List.mem_map.mpr ⟨_, he, rfl⟩)))))
    have hcons : ∀ e ∈ DROPPED_TAGS, 60 :: e.1.tail = e.1 := by decide
    exact hnot _ hmem pat (hcons _ he)
  unfold read_piece
  dsimp only
  rw [List.getElem?_cons_zero]
  dsimp only [Option.bind_eq_bind, Option.bind_some]
  rw [if_neg (by decide)]
  unfold read_tag
  rw [if_neg hcomment, if_neg, if_neg hscript, List.find?_eq_none.mpr hdropped]
  · have hscan : scan (· != 62) (60 :: (s ++ 62 :: x)) 1 = s.length + 1 := by
      unfold scan
      rw [List.drop_succ_cons, List.drop_zero, take_while_not_gt hgt, Nat.add_comm]
    unfold read_plain_tag
    dsimp only
    rw [hscan, if_neg (by simp), slice?_eq (Nat.zero_le _) (by simp), List.drop_zero, Nat.sub_zero,
      List.take_succ_cons, List.take_left]
    rfl
  · rw [Bool.or_eq_true, Bool.or_eq_true]
    exact fun h => h.elim (fun h => h.elim hmeta hlink) hbase

theorem not_gt_of_alnum {c : UInt8} (h : is_alnum c = true) : c ≠ 62 ∧ c ≠ 47 ∧ is_name_gap c = false := by
  have htable : ∀ k : Fin 256, is_alnum (UInt8.ofFin k) = true →
      UInt8.ofFin k ≠ 62 ∧ UInt8.ofFin k ≠ 47 ∧ is_name_gap (UInt8.ofFin k) = false := by decide +kernel
  exact htable c.toFin h

/-- What may follow a name, and the `>` behind it. -/
theorem head_before_gt {attrs : Bytes} (h : ∀ c, attrs.head? = some c → is_alnum c = false) (x : Bytes) :
    ∀ c, (attrs ++ 62 :: x).head? = some c → is_alnum c = false := by
  intro c hc
  cases attrs with
  | nil =>
    obtain rfl := Option.some.inj hc
    decide
  | cons a attrs => exact h c hc

theorem read_start (hplain : plain_name name = true) (hstart : StartOf name start) (style_len : Nat) (x : Bytes) :
    read_piece none style_len (start ++ 62 :: x) = some (.tag start, start.length + 1) := by
  obtain ⟨written, attrs, rfl, hname, hattrs, hgt⟩ := hstart
  have halnum := (plain_name_alnum hplain hname).2
  have hnogt : (62 : UInt8) ∉ written ++ attrs := by
    rw [List.mem_append]
    rintro (h | h)
    · exact (not_gt_of_alnum (halnum 62 h)).1 rfl
    · exact hgt h
  refine read_tag_plain hnogt ?_ style_len
  intro w hw
  rw [List.append_assoc]
  exact not_first_tag hplain hname (head_before_gt hattrs x) hw

theorem read_stop (hplain : plain_name name = true) (hstop : EndOf name stop) (style_len : Nat) (x : Bytes) :
    read_piece none style_len (stop ++ 62 :: x) = some (.tag stop, stop.length + 1) := by
  obtain ⟨written, blanks, rfl, hname, hblanks, hgt⟩ := hstop
  have halnum := (plain_name_alnum hplain hname).2
  have hnogt : (62 : UInt8) ∉ 47 :: (written ++ blanks) := by
    rw [List.mem_cons, List.mem_append]
    rintro (h | h | h)
    · exact absurd h (by decide)
    · exact (not_gt_of_alnum (halnum 62 h)).1 rfl
    · exact hgt h
  refine read_tag_plain hnogt ?_ style_len
  intro w hw
  -- no first tag begins with `/`
  have hhead : ∀ w ∈ FIRST_TAGS, w ≠ [] ∧ w.head? ≠ some 47 := by decide
  obtain ⟨hne, hslash⟩ := hhead w hw
  obtain ⟨a, w, rfl⟩ := List.exists_cons_of_ne_nil hne
  rw [Bool.eq_false_iff]
  intro hstarts
  have hmatch := (starts_ci_iff.mp hstarts).2
  rw [List.drop_zero, List.length_cons, List.length_cons, List.take_succ_cons, List.map_cons,
    List.cons_append, List.take_succ_cons, List.map_cons] at hmatch
  have ha : to_lower 47 = a := (List.cons.inj (List.cons.inj hmatch).2).1
  have hlower : to_lower 47 = 47 := by decide
  exact hslash (congrArg some (ha.symm.trans hlower))

/-- The name of a tag, when `front` stands in front of it. -/
theorem tag_name_eq {front written attrs : Bytes} {is_close : Bool}
    (hfront : front.length = if is_close then 2 else 1) (hne : written ≠ [])
    (halnum : ∀ c ∈ written, is_alnum c = true) (hattrs : ∀ c, attrs.head? = some c → is_alnum c = false) :
    tag_name (front ++ (written ++ attrs)) is_close = some written := by
  have hgap : scan is_name_gap (front ++ (written ++ attrs)) front.length = front.length := by
    obtain ⟨c, w, rfl⟩ := List.exists_cons_of_ne_nil hne
    have hc := (not_gt_of_alnum (halnum c List.mem_cons_self)).2.2
    unfold scan
    rw [List.drop_left, List.cons_append, List.takeWhile_cons_of_neg (by rw [hc]; exact Bool.false_ne_true)]
    rfl
  have hword : (written ++ attrs).takeWhile is_alnum = written := by
    rw [List.takeWhile_append_of_pos halnum]
    cases attrs with
    | nil => rw [List.takeWhile_nil, List.append_nil]
    | cons c attrs =>
      rw [List.takeWhile_cons_of_neg (by rw [hattrs c rfl]; exact Bool.false_ne_true), List.append_nil]
  have hend : scan is_alnum (front ++ (written ++ attrs)) front.length = front.length + written.length := by
    unfold scan
    rw [List.drop_left, hword]
  unfold tag_name
  dsimp only
  rw [← hfront, hgap, hend, slice?_eq (Nat.le_add_right _ _) (by simp only [List.length_append]; omega),
    List.drop_left, Nat.add_sub_cancel_left, List.take_left]

/-- **An opening tag is looked up in the style, and opened unless it is hidden.** -/
theorem tag_start (hplain : plain_name name = true) (hstart : StartOf name start) (doc : Doc) :
    ∃ written, written.map to_lower = name ∧ tag_name start false = some written ∧
      doc.tag start = (doc.tag_style start written).bind fun computed =>
        if computed.display = .None then some doc else doc.open_tag start written computed := by
  obtain ⟨written, attrs, rfl, hname, hattrs, hgt⟩ := hstart
  obtain ⟨hne, halnum⟩ := plain_name_alnum hplain hname
  have hwritten := tag_name_eq (show ([60] : Bytes).length = if false then 2 else 1 from rfl) hne halnum hattrs
  refine ⟨written, hname, hwritten, ?_⟩
  obtain ⟨c, w, rfl⟩ := List.exists_cons_of_ne_nil hne
  have hc : c ≠ 47 := (not_gt_of_alnum (halnum c List.mem_cons_self)).2.1
  unfold Doc.tag
  rw [if_neg (by simp), List.cons_append, List.getElem?_cons_succ, List.getElem?_cons_zero]
  dsimp only [Option.bind_eq_bind, Option.bind_some]
  rw [show (c == 47) = false from beq_false_of_ne hc]
  rw [show tag_name (60 :: c :: (w ++ attrs)) false = some (c :: w) from hwritten]
  dsimp only [Option.bind_some]
  rw [if_neg hc]
  unfold Doc.tag_style
  simp only [Option.bind_eq_bind, Option.bind_assoc, Option.pure_def]

/-- **A closing tag closes.** -/
theorem tag_stop (hplain : plain_name name = true) (hstop : EndOf name stop) (doc : Doc) :
    ∃ written, written.map to_lower = name ∧ doc.tag stop = doc.close_tag written := by
  obtain ⟨written, blanks, rfl, hname, hblanks, hgt⟩ := hstop
  obtain ⟨hne, halnum⟩ := plain_name_alnum hplain hname
  refine ⟨written, hname, ?_⟩
  unfold Doc.tag
  rw [if_neg (by simp), List.getElem?_cons_succ, List.getElem?_cons_zero]
  dsimp only [Option.bind_eq_bind, Option.bind_some]
  rw [show ((47 : UInt8) == 47) = true from rfl,
    show tag_name (60 :: 47 :: (written ++ blanks)) true = some written from
      tag_name_eq (show ([60, 47] : Bytes).length = if true then 2 else 1 from rfl) hne halnum hblanks]
  dsimp only [Option.bind_some]
  rw [if_pos rfl]

end Tags

/-! ## Running over a fragment -/

/-- The pieces of text. -/
def Piece.IsText : Piece → Prop
  | .char _ _ | .glyph _ _ | .newline | .blank => True
  | _ => False

/-- Some text is shown. -/
def ShowsText : Doc → Doc → Prop :=
  Relation.ReflTransGen fun d d' => ∃ piece : Piece, piece.IsText ∧ d.act piece = some d'

/-- What a run over a fragment does. -/
def Frag.Processes : Frag → Doc → Doc → Prop
  | text _, d, d' => ShowsText d d'
  | elem _ start stop inside after, d, d' => ∃ d₁ d₂ d₃ d₄,
      ShowsText d d₁ ∧ d₁.tag start = some d₂ ∧ inside.Processes d₂ d₃ ∧ d₃.tag stop = some d₄ ∧
        after.Processes d₄ d'

section Running

variable {doc doc' : Doc} {x x' : Bytes}

/-- Text only changes the screen. -/
theorem text_act_view {piece : Piece} (htext : piece.IsText) (h : doc.act piece = some doc') :
    doc'.view = doc.view := by
  have hindent : ∀ (indent : Bool) (d : Doc), (if indent then doc.indent else some doc) = some d →
      d.view = doc.view := by
    intro indent d hd
    cases indent with
    | true => exact wrote_view (indent_wrote hd)
    | false => rw [Option.some.inj hd]
  cases piece with
  | char indent c =>
    obtain ⟨d, hd, h⟩ := Returns.of_bind h
    exact (wrote_view (emit_wrote none h)).trans (hindent indent d hd)
  | glyph indent bytes =>
    obtain ⟨d, hd, h⟩ := Returns.of_bind h
    exact (wrote_view (glyph_wrote 0 h)).trans (hindent indent d hd)
  | blank => exact wrote_view (blank_wrote 0 h)
  | newline => rw [← Option.some.inj h]
  | _ => exact htext.elim

theorem shows_text_view (h : ShowsText doc doc') : doc'.view = doc.view := by
  induction h with
  | refl => rfl
  | tail _ hlast ih =>
    obtain ⟨piece, htext, hact⟩ := hlast
    exact (text_act_view htext hact).trans ih

/-- The bytes of a character are a part of the text, and `<` is not the last. -/
theorem utf8_char_ends {ch : UInt8} {tail bytes : Bytes} (hch : ch ≠ 60)
    (h : utf8_char (ch :: tail) ch = some bytes) :
    bytes.length ≤ (ch :: tail).length ∧ (ch :: tail)[bytes.length - 1]? ≠ some 60 := by
  rw [utf8_char_eq] at h
  split_ifs at h with hvalid
  obtain ⟨-, hlen, hcont⟩ := (utf8_seq_valid_cons ch tail).mp hvalid
  have htake : (tail.take (more_bytes ch)).length = more_bytes ch := by
    rw [List.length_take, Nat.min_eq_left hlen]
  rw [← Option.some.inj h, List.length_cons, htake, Nat.add_sub_cancel]
  refine ⟨Nat.succ_le_succ hlen, ?_⟩
  cases hm : more_bytes ch with
  | zero => exact fun hc => hch (Option.some.inj hc)
  | succ k =>
    intro hc
    rw [List.getElem?_cons_succ] at hc
    rw [hm] at hcont hlen
    have hmem : (60 : UInt8) ∈ tail.take (k + 1) := by
      obtain ⟨hk, hget⟩ := List.getElem?_eq_some_iff.mp hc
      exact List.mem_take_iff_getElem.mpr ⟨k, by omega, hget⟩
    exact absurd (hcont 60 hmem) (by decide)

/-- A piece of text is a part of the text, and `<` is not its last byte. -/
theorem read_text_ends {ch : UInt8} {tail : Bytes} {piece : Piece} {n : Nat} (hch : ch ≠ 60)
    (h : read_text (ch :: tail) ch = (piece, n)) :
    piece.IsText ∧ n ≤ (ch :: tail).length ∧ (ch :: tail)[n - 1]? ≠ some 60 := by
  have hone : 1 ≤ (ch :: tail).length ∧ (ch :: tail)[1 - 1]? ≠ some 60 :=
    ⟨Nat.succ_le_succ (Nat.zero_le _), fun hc => hch (Option.some.inj hc)⟩
  unfold read_text at h
  split at h
  · rename_i r hr
    split_ifs at hr
    subst h
    unfold read_entity at hr
    split at hr
    · rename_i name indent c hfind
      obtain ⟨rfl, rfl⟩ := Prod.mk.inj (Option.some.inj hr)
      have hmem := List.mem_of_find?_eq_some hfind
      have hstarts := List.find?_some hfind
      have htable : ∀ e ∈ ENTITIES, 0 < e.1.length ∧ e.1[e.1.length - 1]? = some 59 := by decide
      obtain ⟨hpos, hlast⟩ := htable _ hmem
      dsimp only at hpos hlast hstarts
      refine ⟨trivial, ?_, ?_⟩
      · have hfits := (starts_ci_iff.mp hstarts).1
        rwa [Nat.zero_add] at hfits
      · obtain ⟨c, hc, hlower⟩ := starts_ci_getElem hstarts (show name.length - 1 < name.length by omega)
        rw [List.getElem?_eq_getElem (by omega)] at hlast
        rw [Nat.zero_add] at hc
        rw [hc]
        intro h60
        rw [Option.some.inj h60, Option.some.inj hlast] at hlower
        exact absurd hlower (by decide)
    · split at hr
      · rename_i cp consumed hparse
        obtain ⟨rfl, rfl⟩ := Prod.mk.inj (Option.some.inj hr)
        obtain ⟨j, rfl, hj⟩ := parse_numeric_entity_ends hparse
        refine ⟨trivial, lt_of_getElem?_eq_some hj, ?_⟩
        rw [Nat.add_sub_cancel, hj]
        exact fun h => absurd (Option.some.inj h) (by decide)
      · cases hr
  · unfold read_char at h
    split_ifs at h
    · obtain ⟨rfl, rfl⟩ := Prod.mk.inj h
      exact ⟨trivial, hone⟩
    · obtain ⟨rfl, rfl⟩ := Prod.mk.inj h
      exact ⟨trivial, hone⟩
    · obtain ⟨rfl, rfl⟩ := Prod.mk.inj h
      exact ⟨trivial, hone⟩
    · split at h
      · obtain ⟨rfl, rfl⟩ := Prod.mk.inj h
        exact ⟨trivial, hone⟩
      · rename_i bytes hbytes
        obtain ⟨rfl, rfl⟩ := Prod.mk.inj h
        exact ⟨trivial, utf8_char_ends hch hbytes⟩

/-- **A piece of text stands in front of the next tag.** -/
theorem read_text_span {ch : UInt8} {q : Bytes} {piece : Piece} {n : Nat} (hch : ch ≠ 60)
    (h : read_text (ch :: q ++ 60 :: x) ch = (piece, n)) : n ≤ (ch :: q).length := by
  rw [read_text_cut ch q x []] at h
  have h' : read_text (ch :: (q ++ [60])) ch = (piece, n) := h
  obtain ⟨-, hle, hlast⟩ := read_text_ends hch h'
  rw [List.length_cons, List.length_append, List.length_singleton] at hle
  by_contra hlt
  rw [List.length_cons] at hlt
  obtain rfl : n = q.length + 2 := by omega
  rw [show q.length + 2 - 1 = q.length + 1 by omega, List.getElem?_cons_succ,
    List.getElem?_append_right (Nat.le_refl _), Nat.sub_self] at hlast
  exact hlast rfl

/-- **Text leads to the next tag**, or to where the run ends. -/
theorem text_visits {bs : Bytes} (hbs : (60 : UInt8) ∉ bs) (hskip : doc.skip = none) (hok : DocOk doc)
    (hrun : Visits doc_round (bs ++ x, doc) (x', doc')) (hx : x'.length ≤ x.length)
    (hexact : x' = x ∨ ∃ y, x = 60 :: y) :
    ∃ d, ShowsText doc d ∧ Visits doc_round (x, d) (x', doc') := by
  generalize hs : (bs ++ x, doc) = s at hrun
  generalize ht : (x', doc') = t at hrun
  induction hrun generalizing bs doc with
  | refl s =>
    subst ht
    obtain ⟨hrest, rfl⟩ := Prod.mk.inj hs
    have hempty : bs = [] := by
      have hlen := congrArg List.length hrest
      rw [List.length_append] at hlen
      exact List.length_eq_zero_iff.mp (by omega)
    rw [hempty, List.nil_append] at hrest
    rw [← hrest]
    exact ⟨doc, .refl, .refl _⟩
  | @step s s' t hstep hrest ih =>
    subst hs
    subst ht
    cases bs with
    | nil => exact ⟨doc, .refl, .step hstep hrest⟩
    | cons ch q =>
      obtain ⟨rest', d⟩ := s'
      obtain ⟨hok', hless⟩ := doc_round_drop hok hstep
      have hlen := visits_length_le hrest hok'
      obtain ⟨-, -, piece, n, hread, -, hact, rfl⟩ := doc_round_inl hstep
      have hch : ch ≠ 60 := fun h => hbs (h ▸ List.mem_cons_self)
      have htext : read_text (ch :: q ++ x) ch = (piece, n) := by
        unfold read_piece at hread
        rw [hskip] at hread
        dsimp only at hread
        rw [List.cons_append, List.getElem?_cons_zero, Option.bind_eq_bind, Option.bind_some, if_pos hch] at hread
        exact Option.some.inj hread
      have hn : n ≤ (ch :: q).length := by
        rcases hexact with rfl | ⟨y, rfl⟩
        · have htext' : read_text (ch :: (q ++ x')) ch = (piece, n) := htext
          have hle := (read_text_ends hch htext').2.1
          dsimp only at hlen
          rw [List.length_drop] at hlen
          simp only [List.length_append, List.length_cons] at hlen hle ⊢
          omega
        · exact read_text_span hch htext
      have histext := (read_text_ends hch htext).1
      rw [List.drop_append_of_le_length hn] at hrest ih
      have hview := text_act_view histext hact
      have hskip' : d.skip = none := (congrArg (fun v : View => v.base.skip) hview).trans hskip
      have hq : (60 : UInt8) ∉ (ch :: q).drop n := fun h => hbs (List.mem_of_mem_drop h)
      obtain ⟨e, hshows, hvisits⟩ := ih hq hskip' hok' rfl rfl
      exact ⟨e, .head ⟨piece, histext, hact⟩ hshows, hvisits⟩

/-- One round over a tag. -/
theorem tag_visits {t : Bytes} (hread : ∀ style_len, read_piece none style_len (t ++ 62 :: x) = some (.tag t, t.length + 1))
    (hskip : doc.skip = none) (hrun : Visits doc_round (t ++ 62 :: x, doc) (x', doc'))
    (hx : x'.length ≤ x.length) :
    ∃ d, doc.tag t = some d ∧ Visits doc_round (x, d) (x', doc') := by
  generalize hs : (t ++ 62 :: x, doc) = s at hrun
  cases hrun with
  | refl s =>
    have hlen := congrArg (fun st : Bytes × Doc => st.1.length) hs
    dsimp only at hlen
    rw [List.length_append, List.length_cons] at hlen
    omega
  | @step s s' t' hstep hrest =>
    subst hs
    obtain ⟨rest', d⟩ := s'
    obtain ⟨-, -, piece, n, hpiece, -, hact, rfl⟩ := doc_round_inl hstep
    rw [hskip, hread] at hpiece
    obtain ⟨rfl, rfl⟩ := Prod.mk.inj (Option.some.inj hpiece)
    refine ⟨d, hact, ?_⟩
    have hdrop : (t ++ 62 :: x).drop (t.length + 1) = x := by
      rw [← List.singleton_append, ← List.append_assoc]
      exact List.drop_left' (by rw [List.length_append, List.length_singleton])
    rwa [hdrop] at hrest

/-- **What an opening tag does to the view.** A hidden one does nothing. -/
theorem tag_start_view {name start : Bytes} (hplain : plain_name name = true) (hstart : StartOf name start)
    (h : doc.tag start = some doc') :
    ∃ written computed, written.map to_lower = name ∧ tag_name start false = some written ∧
      doc.tag_style start written = some computed ∧
      (computed.display = .None ∧ doc'.view = doc.view ∨
        computed.display ≠ .None ∧ ∃ rgb block, doc'.view =
          doc.view.open_tag written ((tag_href_value_dangerous start).getD false) rgb block) := by
  obtain ⟨written, hname, hwritten, htag⟩ := tag_start hplain hstart doc
  rw [htag] at h
  obtain ⟨computed, hcomputed, h⟩ := Option.bind_eq_some_iff.mp h
  refine ⟨written, computed, hname, hwritten, hcomputed, ?_⟩
  by_cases hhidden : computed.display = .None
  · rw [if_pos hhidden] at h
    exact .inl ⟨hhidden, by rw [Option.some.inj h]⟩
  · rw [if_neg hhidden] at h
    exact .inr ⟨hhidden, open_tag_view h⟩

theorem tag_start_base {name start : Bytes} (hplain : plain_name name = true) (hstart : StartOf name start)
    (h : doc.tag start = some doc') : doc'.view.base = doc.view.base := by
  obtain ⟨written, computed, -, -, -, ⟨-, hview⟩ | ⟨-, rgb, block, hview⟩⟩ := tag_start_view hplain hstart h
  · rw [hview]
  · rw [hview, View.open_tag_base]

theorem tag_stop_view {name stop : Bytes} (hplain : plain_name name = true) (hstop : EndOf name stop)
    (h : doc.tag stop = some doc') :
    ∃ written, written.map to_lower = name ∧ doc'.view = doc.view.close_tag written := by
  obtain ⟨written, hname, htag⟩ := tag_stop hplain hstop doc
  rw [htag] at h
  exact ⟨written, hname, close_tag_view h⟩

theorem tag_stop_base {name stop : Bytes} (hplain : plain_name name = true) (hstop : EndOf name stop)
    (h : doc.tag stop = some doc') : doc'.view.base = doc.view.base := by
  obtain ⟨written, -, hview⟩ := tag_stop_view hplain hstop h
  rw [hview, View.close_tag_base]

theorem shows_text_ok (hok : DocOk doc) (h : ShowsText doc doc') : DocOk doc' := by
  induction h with
  | refl => exact hok
  | tail _ hlast ih =>
    obtain ⟨piece, htext, hact⟩ := hlast
    refine (act_returns ih ?_).of_eq hact
    rintro t rfl
    exact htext.elim

theorem skip_of_base {d : Doc} (h : d.view.base = doc.view.base) (hskip : doc.skip = none) : d.skip = none :=
  (congrArg Base.skip h).trans hskip

/-- **A run over a well-nested fragment goes from tag to tag.** -/
theorem frag_visits {names : List Bytes} (hplain : ∀ name ∈ names, plain_name name = true) {F : Frag}
    (hF : F.WellNested names) (hskip : doc.skip = none) (hok : DocOk doc)
    (hrun : Visits doc_round (F.bytes ++ x, doc) (x', doc')) (hx : x'.length ≤ x.length)
    (hexact : x' = x ∨ ∃ y, x = 60 :: y) :
    ∃ d, F.Processes doc d ∧ d.view.base = doc.view.base ∧ DocOk d ∧ Visits doc_round (x, d) (x', doc') := by
  induction F generalizing doc x with
  | text bs =>
    obtain ⟨d, hshows, hvisits⟩ := text_visits hF hskip hok hrun hx hexact
    exact ⟨d, hshows, congrArg View.base (shows_text_view hshows), shows_text_ok hok hshows, hvisits⟩
  | elem front start stop inside after ihinside ihafter =>
    obtain ⟨hfront, ⟨name, hname, hstart, hstop⟩, hinside, hafter⟩ := hF
    have hplain := hplain name hname
    obtain ⟨t, ht⟩ : ∃ t, start = 60 :: t := by
      obtain ⟨written, attrs, hs, -⟩ := hstart
      exact ⟨_, hs⟩
    obtain ⟨u, hu⟩ : ∃ u, stop = 60 :: u := by
      obtain ⟨written, blanks, hs, -⟩ := hstop
      exact ⟨_, hs⟩
    -- the text in front of the element
    rw [Frag.bytes, List.append_assoc, List.append_assoc, List.cons_append, List.append_assoc,
      List.append_assoc, List.cons_append] at hrun
    obtain ⟨d₁, htext, hrun⟩ := text_visits hfront hskip hok hrun
      (by simp only [List.length_append, List.length_cons]; omega)
      (.inr ⟨_, by rw [ht, List.cons_append]⟩)
    have hbase₁ := congrArg View.base (shows_text_view htext)
    have hok₁ := shows_text_ok hok htext
    have hskip₁ := skip_of_base hbase₁ hskip
    -- its opening tag
    obtain ⟨d₂, htag₂, hrun⟩ := tag_visits (fun sl => read_start hplain hstart sl _) hskip₁ hrun
      (by simp only [List.length_append, List.length_cons]; omega)
    have hbase₂ := (tag_start_base hplain hstart htag₂).trans hbase₁
    have hok₂ := (tag_returns hok₁ start).of_eq htag₂
    -- what is inside it
    obtain ⟨d₃, hproc₃, hbase₃, hok₃, hrun⟩ := ihinside hinside (skip_of_base hbase₂ hskip) hok₂ hrun
      (by simp only [List.length_append, List.length_cons]; omega)
      (.inr ⟨_, by rw [hu, List.cons_append]⟩)
    have hbase₃ := hbase₃.trans hbase₂
    -- its closing tag, and what follows it
    obtain ⟨d₄, htag₄, hrun⟩ := tag_visits (fun sl => read_stop hplain hstop sl _) (skip_of_base hbase₃ hskip) hrun
      (by rw [List.length_append]; omega)
    have hbase₄ := (tag_stop_base hplain hstop htag₄).trans hbase₃
    have hok₄ := (tag_returns hok₃ stop).of_eq htag₄
    obtain ⟨d, hproc, hbase, hok, hrun⟩ := ihafter hafter (skip_of_base hbase₄ hskip) hok₄ hrun hx hexact
    exact ⟨d, ⟨d₁, d₂, d₃, d₄, htext, htag₂, hproc₃, htag₄, hproc⟩, hbase.trans hbase₄, hok, hrun⟩

end Running

end EveOS.Html
