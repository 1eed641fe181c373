/-
The renderer reads no further than it must.

A document is `p ++ 60 :: x`: the cursor is at the front of `p`, which is not
empty, and a `<` follows `p`. When the piece at the cursor ends inside `p`, it is
the same piece whatever `x` is. Every reader stops at the `<` or at the end of
the piece: patterns contain `<` only in front, digits and continuation bytes are
no `<`, and the others look for a `>`.
-/
import EveOS.Html.Document
import EveOS.Html.Search

set_option autoImplicit false

namespace EveOS.Html

variable {p x : Bytes}

/-! ## Text -/

/-- The entities that stand at the cursor. -/
theorem find_entity_cut (hp : p ≠ []) (x : Bytes) :
    (ENTITIES.find? fun (name, _) => starts_ci (p ++ 60 :: x) 0 name)
      = ENTITIES.find? fun (name, _) => starts_ci p 0 name := by
  have hcut : ∀ e ∈ ENTITIES, starts_ci (p ++ 60 :: x) 0 e.1 = starts_ci p 0 e.1 := by
    intro e he
    simp only [ENTITIES, List.mem_cons, List.not_mem_nil, or_false] at he
    rcases he with rfl | rfl | rfl | rfl | rfl
    all_goals exact starts_ci_cut (by decide) hp x
  exact List.find?_congr hcut

/-- A `<` is no digit. -/
theorem entity_digit_lt (base : Nat) : (entity_digit base 60).isSome = false := by
  unfold entity_digit
  rw [if_neg (by decide)]
  split_ifs <;> decide

/-- The digits of a numeric entity end in front of the `<`. -/
theorem takeWhile_cut {f : UInt8 → Bool} (hf : f 60 = false) (q x : Bytes) :
    (q ++ 60 :: x).takeWhile f = q.takeWhile f := by
  rw [List.takeWhile_append]
  split_ifs with hall
  · rw [List.takeWhile_cons_of_neg (by rw [hf]; exact Bool.false_ne_true), List.append_nil]
    exact ((List.takeWhile_sublist f).eq_of_length hall).symm
  · rfl

/-- The bytes up to the `<`. -/
theorem getElem?_cut {j : Nat} (h : j ≤ p.length) (x y : Bytes) :
    (p ++ 60 :: x)[j]? = (p ++ 60 :: y)[j]? := by
  rcases Nat.lt_or_eq_of_le h with hlt | rfl
  · rw [List.getElem?_append_left hlt, List.getElem?_append_left hlt]
  · rw [List.getElem?_append_right (Nat.le_refl _), List.getElem?_append_right (Nat.le_refl _),
      Nat.sub_self, List.getElem?_cons_zero, List.getElem?_cons_zero]

theorem parse_numeric_entity_cut (hp : p ≠ []) (x y : Bytes) :
    parse_numeric_entity (p ++ 60 :: x) = parse_numeric_entity (p ++ 60 :: y) := by
  match p, hp with
  | [a], _ =>
    -- the second byte is the `<`
    unfold parse_numeric_entity
    rw [if_pos (.inr (.inr (by simp))), if_pos (.inr (.inr (by simp)))]
  | [a, b], _ =>
    -- the third byte is the `<`: no digit
    have hnone : ∀ z : Bytes, parse_numeric_entity ([a, b] ++ 60 :: z) = none := by
      intro z
      unfold parse_numeric_entity
      simp [entity_digit_lt]
    rw [hnone, hnone]
  | a :: b :: c :: q, _ =>
    have hlen : ∀ z : Bytes, ¬ (a :: b :: c :: q ++ 60 :: z).length < 4 := by
      intro z
      simp only [List.length_append, List.length_cons]
      omega
    have hbytes : ∀ j ≤ 3, (a :: b :: c :: q ++ 60 :: x)[j]? = (a :: b :: c :: q ++ 60 :: y)[j]? :=
      fun j hj => getElem?_cut (Nat.le_trans hj (by simp)) x y
    have hds : ∀ (base start : Nat) (z : Bytes), start ≤ 3 →
        ((a :: b :: c :: q ++ 60 :: z).drop start).takeWhile (fun c => (entity_digit base c).isSome)
          = ((a :: b :: c :: q).drop start).takeWhile fun c => (entity_digit base c).isSome := by
      intro base start z hstart
      rw [List.drop_append_of_le_length (by simp; omega), takeWhile_cut (entity_digit_lt base)]
    have hend : ∀ (base start : Nat), start ≤ 3 →
        (a :: b :: c :: q ++ 60 :: x)[start +
            (((a :: b :: c :: q).drop start).takeWhile fun c => (entity_digit base c).isSome).length]?
          = (a :: b :: c :: q ++ 60 :: y)[start +
            (((a :: b :: c :: q).drop start).takeWhile fun c => (entity_digit base c).isSome).length]? := by
      intro base start hstart
      refine getElem?_cut ?_ x y
      have hle := (List.takeWhile_sublist (fun c => (entity_digit base c).isSome)
        (l := (a :: b :: c :: q).drop start)).length_le
      rw [List.length_drop] at hle
      simp only [List.length_cons] at hle ⊢
      omega
    unfold parse_numeric_entity
    rw [hbytes 0 (by omega), hbytes 1 (by omega), hbytes 2 (by omega)]
    simp only [hlen, false_or]
    by_cases hex : (a :: b :: c :: q ++ 60 :: y)[2]? = some 120 ∨ (a :: b :: c :: q ++ 60 :: y)[2]? = some 88
    · simp only [if_pos hex, hds _ _ _ (Nat.le_refl 3), hend _ _ (Nat.le_refl 3)]
    · simp only [if_neg hex, hds _ _ _ (show 2 ≤ 3 by omega), hend _ _ (show 2 ≤ 3 by omega)]

/-- A character whose bytes would reach the `<` is not complete. -/
theorem utf8_char_short {lead : UInt8} {q : Bytes} {len : Nat} (hlead : utf8_lead_len lead = some len)
    (hlen : (lead :: q).length < len) (x : Bytes) : utf8_char (lead :: q ++ 60 :: x) lead = none := by
  unfold utf8_char
  rw [hlead]
  dsimp only
  rw [if_pos]
  by_cases hshort : (lead :: q ++ 60 :: x).length < len
  · exact .inl hshort
  · refine .inr ?_
    -- the `<` is no continuation byte
    rw [Bool.not_eq_true', Bool.eq_false_iff]
    intro hvalid
    obtain ⟨k, rfl⟩ : ∃ k, len = k + 1 := ⟨len - 1, by omega⟩
    rw [List.length_cons] at hlen
    have hmem : (60 : UInt8) ∈ (q ++ 60 :: x).take k := by
      rw [List.take_append, List.mem_append]
      refine .inr ?_
      obtain ⟨i, hi⟩ : ∃ i, k - q.length = i + 1 := ⟨k - q.length - 1, by omega⟩
      rw [hi, List.take_succ_cons]
      exact List.mem_cons_self
    unfold utf8_seq_valid at hvalid
    rw [List.cons_append, List.take_succ_cons, List.head?_cons, Option.bind_some, hlead] at hvalid
    dsimp only at hvalid
    rw [List.take_succ_cons, List.tail_cons, List.take_take, Nat.min_self, Bool.and_eq_true,
      List.all_eq_true] at hvalid
    exact absurd (hvalid.2 60 hmem) (by decide)

/-- The bytes of a character end in front of the `<`. -/
theorem utf8_char_cut (lead : UInt8) (q x y : Bytes) :
    utf8_char (lead :: q ++ 60 :: x) lead = utf8_char (lead :: q ++ 60 :: y) lead := by
  cases hlead : utf8_lead_len lead with
  | none =>
    unfold utf8_char
    rw [hlead]
  | some len =>
    by_cases hlen : len ≤ (lead :: q).length
    · unfold utf8_char
      rw [hlead]
      dsimp only
      rw [List.take_append_of_le_length hlen, List.take_append_of_le_length hlen]
      have hfits : ∀ z : Bytes, ¬ (lead :: q ++ 60 :: z).length < len := by
        intro z
        rw [List.length_append]
        omega
      simp only [hfits]
    · rw [utf8_char_short hlead (by omega), utf8_char_short hlead (by omega)]

/-- **Text in front of a tag is read without looking at the tag.** -/
theorem read_text_cut (ch : UInt8) (q x y : Bytes) :
    read_text (ch :: q ++ 60 :: x) ch = read_text (ch :: q ++ 60 :: y) ch := by
  have hp : ch :: q ≠ [] := List.cons_ne_nil ch q
  have hentity : read_entity (ch :: q ++ 60 :: x) = read_entity (ch :: q ++ 60 :: y) := by
    unfold read_entity
    rw [find_entity_cut hp, find_entity_cut hp, parse_numeric_entity_cut hp x y]
  have hchar : read_char (ch :: q ++ 60 :: x) ch = read_char (ch :: q ++ 60 :: y) ch := by
    unfold read_char
    rw [utf8_char_cut ch q x y]
  unfold read_text
  rw [hentity, hchar]

/-! ## Tags -/

/-- A tag whose `>` is in the front part. -/
theorem tag_end_cut {i : Nat} (hi : i ≤ p.length) {x : Bytes}
    (h : scan (· != 62) (p ++ 60 :: x) i ≤ p.length) (y : Bytes) :
    scan (· != 62) (p ++ 60 :: y) i = scan (· != 62) (p ++ 60 :: x) i := by
  have hend := scan_lt_of_scan_append_le (p := (· != 62)) hi (by decide) h
  rw [scan_append hend, scan_append hend]

theorem skip_until_gt_cut {x : Bytes} (h : skip_until_gt (p ++ 60 :: x) 0 ≤ p.length) (y : Bytes) :
    skip_until_gt (p ++ 60 :: y) 0 = skip_until_gt (p ++ 60 :: x) 0 := by
  have hlt : scan (· != 62) (p ++ 60 :: x) 0 ≤ p.length := by
    unfold skip_until_gt at h
    dsimp only at h
    split_ifs at h <;> omega
  have hend := scan_lt_of_scan_append_le (p := (· != 62)) (Nat.zero_le _) (by decide) hlt
  unfold skip_until_gt
  dsimp only
  rw [tag_end_cut (Nat.zero_le _) hlt y, scan_append hend, List.length_append, List.length_append,
    if_pos (by omega), if_pos (by omega)]

/-- A comment that ends in the front part. -/
theorem comment_len_cut (q x y : Bytes) (h : comment_len (q ++ x) + 3 ≤ q.length) :
    comment_len (q ++ y) = comment_len (q ++ x) := by
  induction q with
  | nil => simp at h
  | cons a q ih =>
    match q with
    | [] => simp at h
    | [b] => simp at h
    | b :: c :: q =>
      simp only [List.cons_append, comment_len] at h ih ⊢
      by_cases hclose : a = 45 ∧ b = 45 ∧ c = 62
      · rw [if_pos hclose, if_pos hclose]
      · rw [if_neg hclose] at h ⊢
        rw [if_neg hclose, ih (by rw [List.length_cons] at h; omega)]

variable {piece : Piece} {n : Nat}

theorem read_script_cut (hp : p ≠ []) (h : read_script (p ++ 60 :: x) = some (piece, n))
    (hn : n ≤ p.length) (hgo : piece ≠ .unclosed) (y : Bytes) :
    read_script (p ++ 60 :: y) = some (piece, n) := by
  have hpos : 1 ≤ p.length := List.length_pos_iff.mpr hp
  unfold read_script at h ⊢
  dsimp only at h ⊢
  split_ifs at h with hend
  · obtain ⟨rfl, -⟩ := Prod.mk.inj (Option.some.inj h)
    exact absurd rfl hgo
  · obtain ⟨tag_open, hslice, h⟩ := Returns.of_bind h
    obtain ⟨data, hdata, h⟩ := Returns.of_bind h
    obtain ⟨hpiece, hn'⟩ := Prod.mk.inj (Option.some.inj h)
    have hte : scan (· != 62) (p ++ 60 :: x) 1 + 1 ≤ p.length := by omega
    rw [slice?_append 0 hte] at hslice
    rw [tag_end_cut (x := x) hpos (by omega) y, if_neg (by rw [List.length_append]; omega),
      slice?_append 0 hte, hslice]
    show (do
      let data ← script_mime_is_non_javascript tag_open
      return (Piece.open_script (!data), scan (· != 62) (p ++ 60 :: x) 1 + 1)) = some (piece, n)
    rw [hdata]
    exact h

theorem read_plain_tag_cut (hp : p ≠ []) (h : read_plain_tag (p ++ 60 :: x) = some (piece, n))
    (hn : n ≤ p.length) (hgo : piece ≠ .unclosed) (y : Bytes) :
    read_plain_tag (p ++ 60 :: y) = some (piece, n) := by
  have hpos : 1 ≤ p.length := List.length_pos_iff.mpr hp
  unfold read_plain_tag at h ⊢
  dsimp only at h ⊢
  split_ifs at h with hend
  · obtain ⟨rfl, -⟩ := Prod.mk.inj (Option.some.inj h)
    exact absurd rfl hgo
  · obtain ⟨tag_slice, hslice, h⟩ := Returns.of_bind h
    obtain ⟨hpiece, hn'⟩ := Prod.mk.inj (Option.some.inj h)
    have hte : scan (· != 62) (p ++ 60 :: x) 1 + 1 ≤ p.length := by omega
    rw [slice?_append 0 (by omega)] at hslice
    rw [tag_end_cut (x := x) hpos (by omega) y, if_neg (by rw [List.length_append]; omega),
      slice?_append 0 (by omega), hslice]
    exact h

/-- The tags that are looked for by name. -/
theorem find_dropped_cut (hp : p ≠ []) (x : Bytes) :
    (DROPPED_TAGS.find? fun (name, _) => starts_ci (p ++ 60 :: x) 0 name)
      = DROPPED_TAGS.find? fun (name, _) => starts_ci p 0 name := by
  have hcut : ∀ e ∈ DROPPED_TAGS, starts_ci (p ++ 60 :: x) 0 e.1 = starts_ci p 0 e.1 := by
    intro e he
    simp only [DROPPED_TAGS, List.mem_cons, List.not_mem_nil, or_false] at he
    rcases he with rfl | rfl | rfl | rfl | rfl | rfl
    all_goals exact starts_ci_cut (by decide) hp x
  exact List.find?_congr hcut

theorem read_tag_cut (hp : p ≠ []) (h : read_tag (p ++ 60 :: x) = some (piece, n))
    (hn : n ≤ p.length) (hgo : piece ≠ .unclosed) (y : Bytes) :
    read_tag (p ++ 60 :: y) = some (piece, n) := by
  have hcut (pat : Bytes) (hpat : (60 : UInt8) ∉ pat.tail) (z : Bytes) :
      starts_ci (p ++ 60 :: z) 0 pat = starts_ci p 0 pat := starts_ci_cut hpat hp z
  unfold read_tag at h ⊢
  rw [hcut (ascii "<!--") (by decide), hcut (ascii "<meta") (by decide),
    hcut (ascii "<link") (by decide), hcut (ascii "<base") (by decide),
    hcut (ascii "<script") (by decide), find_dropped_cut hp] at h ⊢
  split_ifs at h ⊢ with hcomment hplain hscript
  · -- the comment ends inside `p`, or it would reach the end of the document
    obtain ⟨rfl, rfl⟩ := Prod.mk.inj (Option.some.inj h)
    have hfour : 4 ≤ p.length := by
      have := (starts_ci_iff.mp hcomment).1
      rwa [show (ascii "<!--").length = 4 from rfl, Nat.zero_add] at this
    rw [List.drop_append_of_le_length hfour] at hn ⊢
    rw [List.length_append, List.length_cons] at hn
    rw [List.drop_append_of_le_length hfour]
    have hlen : comment_len (p.drop 4 ++ 60 :: x) + 3 ≤ (p.drop 4).length := by
      rw [List.length_drop]
      omega
    rw [comment_len_cut _ _ (60 :: y) hlen, List.length_append, List.length_append,
      List.length_cons, List.length_cons, Nat.min_eq_left (by omega), Nat.min_eq_left (by omega)]
  · obtain ⟨rfl, rfl⟩ := Prod.mk.inj (Option.some.inj h)
    rw [skip_until_gt_cut hn]
  · exact read_script_cut hp h hn hgo y
  · split at h
    · obtain ⟨rfl, rfl⟩ := Prod.mk.inj (Option.some.inj h)
      rw [skip_until_gt_cut hn]
    · exact read_plain_tag_cut hp h hn hgo y

/-! ## Pieces -/

theorem SkipTag.close_ne (m : SkipTag) : m.close ≠ [] := by cases m <;> decide

/-- **A piece that ends inside `p` is the same whatever tag follows `p`.** Bytes
of a style element that is never closed are left out: how many are taken depends
on the end of the document. -/
theorem read_piece_cut {skip : Option SkipTag} {style_len : Nat} (hp : p ≠ [])
    (h : read_piece skip style_len (p ++ 60 :: x) = some (piece, n)) (hn : n ≤ p.length)
    (hgo : piece ≠ .unclosed)
    (hstyle : skip = some .style → find_sub_ci (p ++ 60 :: x) SkipTag.style.close ≠ none) (y : Bytes) :
    read_piece skip style_len (p ++ 60 :: y) = some (piece, n) := by
  unfold read_piece at h ⊢
  cases skip with
  | some m =>
    dsimp only at h ⊢
    unfold read_skipped at h ⊢
    cases hfind : find_sub_ci (p ++ 60 :: x) m.close with
    | some rel =>
      rw [hfind] at h
      obtain ⟨rfl, rfl⟩ := Prod.mk.inj (Option.some.inj h)
      rw [find_sub_ci_append m.close_ne hfind hn]
    | none =>
      rw [hfind] at h
      dsimp only at h
      rw [if_neg] at h
      · obtain ⟨rfl, -⟩ := Prod.mk.inj (Option.some.inj h)
        exact absurd rfl hgo
      · rintro rfl
        exact hstyle rfl hfind
  | none =>
    obtain ⟨ch, q, rfl⟩ := List.exists_cons_of_ne_nil hp
    dsimp only at h ⊢
    rw [List.cons_append, List.getElem?_cons_zero] at h ⊢
    dsimp only [Option.bind_eq_bind, Option.bind_some] at h ⊢
    split_ifs at h ⊢ with hch
    · rw [← List.cons_append] at h ⊢
      rw [read_text_cut ch q y x]
      exact h
    · exact read_tag_cut hp h hn hgo y

end EveOS.Html
