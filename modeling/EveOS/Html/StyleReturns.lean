/-
The style part never stops the machine.

Every function of `Css.lean` and `Tag.lean` returns on every input: its slices
and its unguarded indices are in range, and its loop moves on in every round. The
cursors only move forward, which is what the loops use up; some of them move
behind the end of the text (`rgba(` moves on by 6), where every later check fails.
-/
import EveOS.Html.Tag

set_option autoImplicit false

namespace EveOS.Html

/-! ## Cursors move forward -/

section Forward

variable (s : Bytes) (i : Nat)

theorem le_skip_ws : i ≤ skip_ws s i := le_scan _ _ _

variable {s i} in
theorem skip_ws_le (h : i ≤ s.length) : skip_ws s i ≤ s.length := scan_le _ h

theorem le_css_digits : i ≤ (css_digits s i).2 := le_scan _ _ _

variable {s i} in
theorem le_rgb_component {next : Nat → Nat → Option Rgb × Nat}
    (h : ∀ v j, i ≤ j → i ≤ (next v j).2) : i ≤ (rgb_component s i next).2 := by
  have h1 := le_skip_ws s i
  have h2 := le_css_digits s (skip_ws s i)
  unfold rgb_component
  rcases hd : css_digits s (skip_ws s i) with ⟨_ | v, j⟩
  · rw [hd] at h2
    exact h1.trans h2
  · rw [hd] at h2
    exact h v _ ((h1.trans h2).trans (le_skip_ws s j))

variable {s i} in
theorem le_rgb_comma {next : Nat → Option Rgb × Nat} {k : Nat} (hk : k ≤ i)
    (h : ∀ j, k ≤ j → k ≤ (next j).2) : k ≤ (rgb_comma s i next).2 := by
  unfold rgb_comma
  split_ifs
  · exact h _ (Nat.le_succ_of_le hk)
  · exact hk

theorem le_rgb_end (rgba : Bool) : i ≤ rgb_end s i rgba := by
  have h := le_scan (· != 41) s (i + 1)
  unfold rgb_end
  dsimp only
  split_ifs <;> omega

theorem le_parse_rgb_rgba : i ≤ (parse_rgb_rgba s i).2 := by
  have hparts : ∀ k rgba, k ≤ (rgb_component s k fun r i =>
      rgb_comma s i fun i =>
        rgb_component s i fun g i =>
          rgb_comma s i fun i =>
            rgb_component s i fun b i => (some (clip8 r, clip8 g, clip8 b), rgb_end s i rgba)).2 := by
    intro k rgba
    refine le_rgb_component fun r j hj => le_rgb_comma hj fun j hj => ?_
    refine hj.trans (le_rgb_component fun g l hl => le_rgb_comma hl fun l hl => ?_)
    exact hl.trans (le_rgb_component fun b m hm => hm.trans (le_rgb_end s m rgba))
  unfold parse_rgb_rgba
  dsimp only
  split_ifs
  · exact Nat.le_refl i
  · exact (Nat.le_add_right i 6).trans (hparts _ _)
  · exact (Nat.le_add_right i 4).trans (hparts _ _)

theorem le_parse_named_color : i ≤ (parse_named_color s i).2 := by
  unfold parse_named_color
  split
  · exact Nat.le_refl i
  · exact Nat.le_add_right _ _

theorem le_parse_css_number_unit : i ≤ (parse_css_number_unit s i).2 := by
  have h1 := le_skip_ws s i
  have h2 := le_css_digits s (skip_ws s i)
  unfold parse_css_number_unit
  rcases hd : css_digits s (skip_ws s i) with ⟨_ | v, j⟩
  · rw [hd] at h2
    exact h1.trans h2
  · rw [hd] at h2
    have hij : i ≤ j := h1.trans h2
    dsimp only
    split_ifs
    · exact Nat.le_add_right_of_le hij
    · exact Nat.le_add_right_of_le hij
    · exact Nat.le_add_right_of_le hij
    · exact hij

variable (out : BoxStyle)

theorem le_display_value : i ≤ (display_value s i out).2 := by
  unfold display_value
  split_ifs
  · exact Nat.le_add_right _ _
  · exact Nat.le_add_right _ _
  · exact Nat.le_add_right _ _
  · exact Nat.le_refl i

theorem le_number_value (set : Nat → CssUnit → BoxStyle) : i ≤ (number_value s i out set).2 := by
  have h := le_parse_css_number_unit s i
  unfold number_value
  rcases hn : parse_css_number_unit s i with ⟨_ | ⟨v, unit⟩, j⟩
  · rw [hn] at h
    exact h
  · rw [hn] at h
    exact h

end Forward

/-! ## Colours -/

section Returns

variable (s : Bytes) (i : Nat)

variable {s} in
theorem hex_byte_returns {k : Nat} (h : k + 1 < s.length) : Returns (hex_byte s k) fun _ => True :=
  (getElem?_returns (Nat.lt_of_succ_lt h)).bind fun _ _ =>
    (getElem?_returns h).bind fun _ _ => .ret trivial

variable {s} in
theorem hex_digit_returns {k : Nat} (h : k < s.length) : Returns (hex_digit s k) fun _ => True :=
  (getElem?_returns h).bind fun _ _ => .ret trivial

/-- The digits that are counted are there to be read. -/
theorem parse_hex_color_returns : Returns (parse_hex_color s i) fun r => i ≤ r.2 := by
  unfold parse_hex_color
  by_cases hash : s[i]? = some 35
  · have hi := lt_of_getElem?_eq_some hash
    have hle := le_scan (fun c => (hex_val c).isSome) s (i + 1)
    have hend := scan_le (s := s) (i := i + 1) (fun c => (hex_val c).isSome) hi
    rw [if_neg (not_not.mpr hash)]
    dsimp only
    split_ifs with h6 h3
    · refine (hex_byte_returns (by omega)).bind fun r _ => ?_
      refine (hex_byte_returns (by omega)).bind fun g _ => ?_
      refine (hex_byte_returns (by omega)).bind fun b _ => .ret ?_
      exact Nat.le_of_succ_le hle
    · refine (hex_digit_returns (by omega)).bind fun r _ => ?_
      refine (hex_digit_returns (by omega)).bind fun g _ => ?_
      refine (hex_digit_returns (by omega)).bind fun b _ => .ret ?_
      exact Nat.le_of_succ_le hle
    · exact .ret (Nat.le_of_succ_le hle)
  · rw [if_pos hash]
    exact .ret (Nat.le_refl i)

theorem parse_color_returns : Returns (parse_color_after_colon s i) fun r => i ≤ r.2 := by
  have h1 := le_skip_ws s i
  have h2 := le_parse_rgb_rgba s (skip_ws s i)
  unfold parse_color_after_colon
  rcases hp : parse_rgb_rgba s (skip_ws s i) with ⟨_ | rgb, j⟩
  · rw [hp] at h2
    dsimp only
    split_ifs
    · exact (parse_hex_color_returns s j).mono fun r hr => (h1.trans h2).trans hr
    · exact .ret ((h1.trans h2).trans (le_parse_named_color s j))
  · rw [hp] at h2
    exact .ret (h1.trans h2)

theorem scan_style_for_colors_returns (css : Bytes) (hints : CssHints) :
    Returns (scan_style_for_colors css hints) fun _ => True := by
  refine loop_returns (I := fun _ => True) (m := fun st => css.length - st.1) ?_ trivial (by simp)
  rintro ⟨i, hints⟩ -
  unfold style_colors_round
  dsimp only
  by_cases hi : css.length ≤ i
  · rw [if_pos hi]
    exact .done trivial
  · have hless : css.length - (i + 32) < css.length - i := by omega
    rw [if_neg hi]
    refine (slice?_returns (by omega) (Nat.min_le_right _ _)).bind fun win _ => ?_
    cases find_sub_ci win (ascii "color") with
    | none => exact .goOn trivial hless
    | some ci =>
      dsimp only
      split_ifs
      · exact .goOn trivial hless
      · refine (parse_color_returns css _).bind fun r _ => ?_
        rcases r with ⟨_ | rgb, j⟩
        · exact .goOn trivial hless
        · exact .goOn trivial hless

/-! ## Declarations -/

theorem box_property_returns (line_cap : Nat) (key : Bytes) (out : BoxStyle) :
    Returns (box_property s line_cap key i out) fun r => i ≤ r.2 := by
  unfold box_property
  split_ifs
  · exact (parse_color_returns s i).bind fun r hr => .ret hr
  · exact .ret (le_display_value s i out)
  all_goals first
    | exact .ret (le_number_value s i out _)
    | exact .ret (Nat.le_refl i)

/-- **`parse_inline_box_style` returns**: every round moves on. -/
theorem parse_inline_box_style_returns (style : Bytes) (line_cap : Nat) :
    Returns (parse_inline_box_style style line_cap) fun _ => True := by
  refine loop_returns (I := fun _ => True) (m := fun st => style.length - st.1) ?_ trivial (by simp)
  rintro ⟨i, out⟩ -
  unfold box_style_round
  dsimp only
  by_cases hi : style.length ≤ i
  · rw [if_pos hi]
    exact .done trivial
  · rw [if_neg hi]
    have hkey := le_skip_ws style i
    have hkey' := skip_ws_le (s := style) (i := i) (by omega)
    have hend := le_scan (fun c => is_alpha c || c == 45) style (skip_ws style i)
    have hend' := scan_le (fun c => is_alpha c || c == 45) hkey'
    refine (slice?_returns hend hend').bind fun key _ => ?_
    have hws := le_skip_ws style (scan (fun c => is_alpha c || c == 45) style (skip_ws style i))
    split_ifs
    · refine .goOn trivial ?_
      have := le_scan (· != 59) style
        (skip_ws style (scan (fun c => is_alpha c || c == 45) style (skip_ws style i)))
      dsimp only
      omega
    · refine (box_property_returns style _ line_cap key out).bind fun r hr => .goOn trivial ?_
      have := le_scan (· != 59) style r.2
      have := le_skip_ws style
        (skip_ws style (scan (fun c => is_alpha c || c == 45) style (skip_ws style i)) + 1)
      dsimp only
      omega

/-! ## Rules -/

theorem style_rule_returns (selector decl : Bytes) (line_cap : Nat) :
    Returns (style_rule selector decl line_cap) fun _ => True := by
  unfold style_rule
  dsimp only
  by_cases hsel : selector.length ≤ skip_ws selector 0
  · rw [if_pos hsel]
    exact .ret trivial
  · rw [if_neg hsel]
    refine (getElem?_returns (by omega)).bind fun c _ => ?_
    have hname : ∀ k, k ≤ selector.length → Returns (slice? selector k (scan is_name_byte selector k))
        fun _ => True := by
      intro k hk
      exact (slice?_returns (le_scan _ _ _) (scan_le _ hk)).mono fun _ _ => trivial
    refine (hname _ (by split_ifs <;> omega)).bind fun name _ => ?_
    by_cases hempty : name = []
    · rw [if_pos hempty]
      exact .ret trivial
    · rw [if_neg hempty]
      exact (parse_inline_box_style_returns decl line_cap).bind fun style _ => .ret trivial

/-- **`scan_style_rules` returns**, and its rules fit their array. -/
theorem scan_style_rules_returns (css : Bytes) (line_cap : Nat) :
    Returns (scan_style_rules css line_cap) fun rules => rules.length ≤ STYLE_RULES_CAP := by
  refine loop_returns (I := fun st => st.2.length ≤ STYLE_RULES_CAP)
    (m := fun st => css.length - st.1) ?_ (Nat.zero_le _) (by simp)
  rintro ⟨i, rules⟩ hrules
  unfold style_rules_round
  dsimp only at hrules ⊢
  by_cases hend : css.length ≤ i ∨ STYLE_RULES_CAP ≤ rules.length
  · rw [if_pos hend]
    exact .done hrules
  rw [if_neg hend]
  rw [not_or, Nat.not_le, Nat.not_le] at hend
  have hws := le_skip_ws css i
  by_cases hsel : css.length ≤ skip_ws css i
  · rw [if_pos hsel]
    exact .done hrules
  rw [if_neg hsel]
  have hopen := le_scan (· != 123) css (skip_ws css i)
  by_cases hbrace : css.length ≤ scan (· != 123) css (skip_ws css i)
  · rw [if_pos hbrace]
    exact .done hrules
  rw [if_neg hbrace]
  refine (slice?_returns hopen (by omega)).bind fun selector _ => ?_
  -- the cursor is behind the brace now, inside the text or at its end
  generalize scan (· != 123) css (skip_ws css i) = brace at hopen hbrace
  have hclose := le_scan (· != 125) css (brace + 1)
  refine (slice?_returns (by omega) (Nat.min_le_right _ _)).bind fun decl _ => ?_
  refine (style_rule_returns selector decl line_cap).bind fun rule _ => ?_
  have hless : css.length - (if scan (· != 125) css (brace + 1) < css.length
      then scan (· != 125) css (brace + 1) + 1 else scan (· != 125) css (brace + 1))
      < css.length - i := by
    split_ifs <;> omega
  cases rule with
  | none => exact .goOn hrules hless
  | some rule =>
    refine (push?_returns rule hend.2).bind fun rules' hpush => .goOn ?_ hless
    rw [hpush, List.length_append, List.length_singleton]
    exact hend.2

/-- **`class_matches` returns.** -/
theorem class_matches_returns (class_attr name : Bytes) :
    Returns (class_matches class_attr name) fun _ => True := by
  refine loop_returns (I := fun _ => True) (m := fun i => class_attr.length - i) ?_ trivial (by simp)
  rintro i -
  unfold class_round
  by_cases hi : class_attr.length ≤ i
  · rw [if_pos hi]
    exact .done trivial
  rw [if_neg hi]
  have hstart := le_scan is_ascii_whitespace class_attr i
  have hstart' := scan_le (s := class_attr) (i := i) is_ascii_whitespace (by omega)
  have hend := le_scan (fun c => !is_ascii_whitespace c) class_attr
    (scan is_ascii_whitespace class_attr i)
  refine (slice?_returns hend (scan_le _ hstart')).bind fun token _ => ?_
  split_ifs
  · exact .done trivial
  · refine .goOn trivial ?_
    -- the byte at `i` is a space, or the token is not empty
    have hin : i < class_attr.length := by omega
    have hmove : i < scan (fun c => !is_ascii_whitespace c) class_attr
        (scan is_ascii_whitespace class_attr i) := by
      by_cases hspace : is_ascii_whitespace class_attr[i] = true
      · have := lt_scan hin hspace
        omega
      · have := lt_scan (p := fun c => !is_ascii_whitespace c) hin (by simpa using hspace)
        have hstay : scan is_ascii_whitespace class_attr i = i := by
          unfold scan
          rw [List.drop_eq_getElem_cons hin, List.takeWhile_cons_of_neg hspace]
          rfl
        rw [hstay]
        exact this
    omega

/-! ## Attributes -/

theorem attr_value_at_returns {tag : Bytes} {j : Nat} (h : j < tag.length) :
    Returns (attr_value_at tag j) fun _ => True := by
  unfold attr_value_at
  refine (getElem?_returns h).bind fun q _ => ?_
  split_ifs
  · exact (slice?_returns (le_scan _ _ _) (scan_le _ h)).mono fun _ _ => trivial
  · exact (slice?_returns (le_scan _ _ _) (scan_le _ h.le)).mono fun _ _ => trivial

theorem extract_attr_value_returns (tag key : Bytes) :
    Returns (extract_attr_value tag key) fun _ => True := by
  unfold extract_attr_value
  cases find_sub_ci tag key with
  | none => exact .ret trivial
  | some pos =>
    dsimp only
    split_ifs
    · exact .ret trivial
    · exact .ret trivial
    · obtain ⟨val, hval, -⟩ := attr_value_at_returns (Nat.lt_of_not_le ‹_›)
      rw [hval]
      exact .ret trivial

theorem script_mime_returns (tag : Bytes) :
    Returns (script_mime_is_non_javascript tag) fun _ => True := by
  refine (extract_attr_value_returns tag (ascii "type")).bind fun typ _ => ?_
  cases typ with
  | none => exact .ret trivial
  | some typ => exact .ret trivial

theorem tag_href_value_dangerous_returns (tag : Bytes) :
    Returns (tag_href_value_dangerous tag) fun _ => True := by
  unfold tag_href_value_dangerous
  cases find_sub_ci tag (ascii "href") with
  | none => exact .ret trivial
  | some hi =>
    dsimp only
    split_ifs
    · exact .ret trivial
    · exact .ret trivial
    · exact .ret trivial
    · exact (attr_value_at_returns (Nat.lt_of_not_le ‹_›)).bind fun val _ => .ret trivial

end Returns

end EveOS.Html
