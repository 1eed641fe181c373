/-
The colours `rgb(..)` and `rgba(..)`.

Both forms have one reader, which moves its cursor over the form's name by a
literal. For `rgba(` the literal is one more than the name has bytes, so the
reader loses the first byte behind the parenthesis. That byte is a blank, or the
first digit of the red component: then the colour is the same exactly if the
other digits alone have the same value, up to 255 (`rgb_and_rgba_iff`).
-/
import EveOS.Html.Search
import EveOS.Lib.Decimal

set_option autoImplicit false

namespace EveOS.Html

/-- A component of a colour: digits with blanks around them. -/
structure Component where
  before : Bytes
  digits : Bytes
  behind : Bytes
  before_blank : IsBlanks before
  digits_ne : digits ≠ []
  are_digits : IsDigits digits
  behind_blank : IsBlanks behind

def Component.text (c : Component) : Bytes := c.before ++ (c.digits ++ c.behind)

/-- The number, or 255 if it is larger. -/
def Component.value (c : Component) : UInt8 := UInt8.ofNat (min (decimal c.digits) 255)

/-- `rgb(r,g,b)`. -/
def rgb_text (r g b : Component) : Bytes :=
  ascii "rgb(" ++ (r.text ++ 44 :: (g.text ++ 44 :: (b.text ++ [41])))

/-- `rgba(r,g,b,alpha)`. -/
def rgba_text (r g b : Component) (alpha : Bytes) : Bytes :=
  ascii "rgba(" ++ (r.text ++ 44 :: (g.text ++ 44 :: (b.text ++ 44 :: (alpha ++ [41]))))

/-- The digits that are left without the first byte behind the parenthesis. -/
def Component.kept (r : Component) : Bytes := if r.before = [] then r.digits.tail else r.digits

/-- The red component keeps its value without the first byte behind the
parenthesis. -/
def Component.SparesOne (r : Component) : Prop :=
  r.before ≠ [] ∨ (r.digits.tail ≠ [] ∧ (r.digits.head? = some 48 ∨ 255 ≤ decimal r.digits.tail))

/-! ## Digits -/

section Digits

variable {ds : Bytes} {s x w w' : Bytes} {i : Nat} {next : Nat → Nat → Option Rgb × Nat}

theorem is_digit_iff {c : UInt8} : is_digit c = true ↔ 48 ≤ c ∧ c ≤ 57 := by
  unfold is_digit
  rw [Bool.and_eq_true, decide_eq_true_eq, decide_eq_true_eq]

theorem not_digit_of_ws {c : UInt8} (h : is_ws c = true) : is_digit c = false := by
  have htable : ∀ k : Fin 256, is_ws (UInt8.ofFin k) = true → is_digit (UInt8.ofFin k) = false := by decide +kernel
  exact htable c.toFin h

theorem not_ws_of_digit {c : UInt8} (h : is_digit c = true) : is_ws c = false := by
  rw [Bool.eq_false_iff]
  intro hws
  rw [not_digit_of_ws hws] at h
  cases h

/-- **The digit loop saturates the value.** -/
theorem digits_value_eq (ds : Bytes) : digits_value ds = min (decimal ds) 65535 := by
  have hfrom : ∀ v, ds.foldl (fun v c => min (min (v * 10) 65535 + (c - 48).toNat) 65535) (min v 65535) =
      min (decimal_from v ds) 65535 := by
    induction ds with
    | nil => exact fun v => rfl
    | cons c ds ih =>
      intro v
      have hcons : decimal_from v (c :: ds) = decimal_from (v * 10 + (c - 48).toNat) ds := rfl
      rw [List.foldl_cons, hcons, ← ih]
      congr 1
      omega
  exact hfrom 0

theorem clip8_digits_value (ds : Bytes) : clip8 (digits_value ds) = UInt8.ofNat (min (decimal ds) 255) := by
  rw [digits_value_eq, clip8, Nat.min_assoc]
  rfl

/-- What stands behind a component is no blank and no digit. -/
def EndsComponent (x : Bytes) : Prop := ∀ c, x.head? = some c → is_ws c = false ∧ is_digit c = false

theorem ends_component {c : UInt8} (hws : is_ws c = false) (hdigit : is_digit c = false) (x : Bytes) :
    EndsComponent (c :: x) := by
  intro d hd
  obtain rfl := Option.some.inj hd
  exact ⟨hws, hdigit⟩

/-- **A component is read.** -/
theorem rgb_component_some (h : InFront s i (w ++ (ds ++ (w' ++ x)))) (hw : IsBlanks w) (hne : ds ≠ [])
    (hds : IsDigits ds) (hw' : IsBlanks w') (hx : EndsComponent x) :
    rgb_component s i next = next (digits_value ds) (i + (w ++ (ds ++ w')).length) := by
  have hdigit : ∀ c ∈ ds, is_digit c = true := fun c hc => is_digit_iff.mpr (hds c hc)
  have hfirst : ∀ c, (ds ++ (w' ++ x)).head? = some c → is_ws c = false := by
    intro c hc
    rw [List.head?_append_of_ne_nil _ hne] at hc
    exact not_ws_of_digit (hdigit c (List.mem_of_mem_head? hc))
  have hblank : ∀ c, (w' ++ x).head? = some c → is_digit c = false := by
    intro c hc
    cases w' with
    | nil => exact (hx c hc).2
    | cons d w' =>
      obtain rfl := Option.some.inj hc
      exact not_digit_of_ws (hw' d List.mem_cons_self)
  have hstart : skip_ws s i = i + w.length := h.scan_eq hw hfirst
  have hdigits : InFront s (i + w.length) (ds ++ (w' ++ x)) := h.skip
  have hend : scan is_digit s (i + w.length) = i + w.length + ds.length := hdigits.scan_eq hdigit hblank
  have hread : css_digits s (i + w.length) = (some (digits_value ds), i + w.length + ds.length) := by
    unfold css_digits
    rw [hdigits.takeWhile_eq hdigit hblank, hend]
    dsimp only
    rw [if_neg hne]
  have hbehind : skip_ws s (i + w.length + ds.length) = i + w.length + ds.length + w'.length :=
    hdigits.skip.scan_eq hw' fun c hc => (hx c hc).1
  unfold rgb_component
  rw [hstart, hread]
  dsimp only
  rw [hbehind, List.length_append, List.length_append, Nat.add_assoc, Nat.add_assoc]

/-- Without digits there is no component. -/
theorem rgb_component_none (h : InFront s i (w ++ x)) (hw : IsBlanks w) (hx : EndsComponent x) :
    rgb_component s i next = (none, i + w.length) := by
  have hstart : skip_ws s i = i + w.length := h.scan_eq hw fun c hc => (hx c hc).1
  have hat : InFront s (i + w.length) ([] ++ x) := h.skip
  have hnone : ∀ c ∈ ([] : Bytes), is_digit c = true := fun c hc => absurd hc List.not_mem_nil
  have hread : css_digits s (i + w.length) = (none, i + w.length) := by
    unfold css_digits
    rw [hat.takeWhile_eq hnone fun c hc => (hx c hc).2, hat.scan_eq hnone fun c hc => (hx c hc).2]
    rfl
  unfold rgb_component
  rw [hstart, hread]

theorem rgb_comma_eq {next : Nat → Option Rgb × Nat} (h : InFront s i (44 :: x)) : rgb_comma s i next = next (i + 1) := by
  unfold rgb_comma
  rw [if_pos h.head]

end Digits

/-! ## The reader -/

section Reader

variable {r g b : Component} {s y alpha rest : Bytes} {i : Nat}

theorem not_rgba (y : Bytes) : starts_ci (ascii "rgb(" ++ y) 0 (ascii "rgba(") = false := by
  rw [Bool.eq_false_iff]
  intro h
  obtain ⟨c, hc, hlower⟩ := starts_ci_getElem h (show 3 < (ascii "rgba(").length by decide)
  have hfour : (ascii "rgb(" ++ y)[0 + 3]? = some 40 := rfl
  rw [hfour] at hc
  obtain rfl := Option.some.inj hc
  exact absurd hlower (by decide)

theorem begins (word y : Bytes) (h : word.map to_lower = word) : starts_ci (word ++ y) 0 word = true := by
  rw [starts_ci_iff, List.drop_zero, List.take_left, List.length_append]
  exact ⟨by omega, h⟩

/-- What follows the name, from the cursor on. -/
def rgb_arguments (s : Bytes) (i : Nat) (rgba : Bool) : Option Rgb × Nat :=
  rgb_component s i fun r i =>
    rgb_comma s i fun i =>
      rgb_component s i fun g i =>
        rgb_comma s i fun i =>
          rgb_component s i fun b i => (some (clip8 r, clip8 g, clip8 b), rgb_end s i rgba)

theorem parse_rgb_eq (h : InFront s i (rgb_text r g b ++ y)) : parse_rgb_rgba s i = rgb_arguments s (i + 4) false := by
  unfold rgb_text at h
  rw [List.append_assoc] at h
  unfold parse_rgb_rgba
  rw [starts_ci_in_front h, starts_ci_in_front h, not_rgba, begins _ _ (by decide)]
  rfl

theorem parse_rgba_eq (h : InFront s i (rgba_text r g b alpha ++ y)) :
    parse_rgb_rgba s i = rgb_arguments s (i + 6) true := by
  unfold rgba_text at h
  rw [List.append_assoc] at h
  unfold parse_rgb_rgba
  rw [starts_ci_in_front h, begins _ _ (by decide)]
  rfl

theorem comma_ends (x : Bytes) : EndsComponent (44 :: x) := ends_component (by decide) (by decide) x

theorem Component.read (c : Component) {x : Bytes} {next : Nat → Nat → Option Rgb × Nat}
    (h : InFront s i (c.text ++ x)) (hx : EndsComponent x) :
    rgb_component s i next = next (digits_value c.digits) (i + c.text.length) := by
  have h' : InFront s i (c.before ++ (c.digits ++ (c.behind ++ x))) := by
    rw [Component.text, List.append_assoc, List.append_assoc] at h
    exact h
  exact rgb_component_some h' c.before_blank c.digits_ne c.are_digits c.behind_blank hx

/-- **The three components**, from a cursor that may already stand in the first. -/
theorem rgb_arguments_some (rgba : Bool) {w ds : Bytes} (hw : IsBlanks w) (hne : ds ≠ []) (hds : IsDigits ds)
    (h : InFront s i ((w ++ (ds ++ r.behind)) ++ 44 :: (g.text ++ 44 :: (b.text ++ y)))) (hy : EndsComponent y) :
    ∃ j, InFront s j y ∧ rgb_arguments s i rgba =
      (some (UInt8.ofNat (min (decimal ds) 255), g.value, b.value), rgb_end s j rgba) := by
  have hred : InFront s i (w ++ (ds ++ (r.behind ++ 44 :: (g.text ++ 44 :: (b.text ++ y))))) := by
    rw [List.append_assoc, List.append_assoc] at h
    exact h
  have hgreen := h.skip.next
  have hblue := hgreen.skip.next
  refine ⟨_, hblue.skip, ?_⟩
  unfold rgb_arguments
  rw [rgb_component_some hred hw hne hds r.behind_blank (comma_ends _), rgb_comma_eq h.skip,
    g.read hgreen (comma_ends _), rgb_comma_eq hgreen.skip, b.read hblue hy, clip8_digits_value, clip8_digits_value,
    clip8_digits_value]
  rfl

theorem rgb_end_eq (h : InFront s i (41 :: rest)) : rgb_end s i false = i + 1 := by
  have hnot : ¬ (false = true ∧ s[i]? = some 44) := fun h => Bool.false_ne_true h.1
  unfold rgb_end
  dsimp only
  rw [if_neg hnot, if_pos h.head]

theorem rgba_end_eq (halpha : (41 : UInt8) ∉ alpha) (h : InFront s i (44 :: (alpha ++ 41 :: rest))) :
    rgb_end s i true = i + 1 + alpha.length + 1 := by
  have hstop : scan (· != 41) s (i + 1) = i + 1 + alpha.length := by
    refine h.next.scan_eq ?_ ?_
    · intro c hc
      rw [bne_iff_ne]
      rintro rfl
      exact halpha hc
    · intro c hc
      obtain rfl := Option.some.inj hc
      rfl
  have hcomma : true = true ∧ s[i]? = some 44 := ⟨rfl, h.head⟩
  unfold rgb_end
  dsimp only
  rw [if_pos hcomma, hstop, if_pos h.next.skip.head]

/-- **`rgb(r,g,b)`.** -/
theorem parse_rgb (h : InFront s i (rgb_text r g b ++ rest)) :
    parse_rgb_rgba s i = (some (r.value, g.value, b.value), i + (rgb_text r g b).length) := by
  have harguments : InFront s (i + 4) ((r.before ++ (r.digits ++ r.behind)) ++ 44 :: (g.text ++ 44 ::
      (b.text ++ 41 :: rest))) := by
    have hskip := h
    unfold rgb_text at hskip
    rw [List.append_assoc] at hskip
    have hname : (ascii "rgb(").length = 4 := by decide
    rw [← hname]
    simpa [Component.text] using hskip.skip
  obtain ⟨j, hj, hread⟩ := rgb_arguments_some false r.before_blank r.digits_ne r.are_digits harguments
    (ends_component (by decide) (by decide) rest)
  rw [parse_rgb_eq h, hread, rgb_end_eq hj, h.skip.unique hj.next]
  rfl

/-- The cursor behind the first byte of the red component. -/
theorem rgba_arguments (h : InFront s i (rgba_text r g b alpha ++ rest)) :
    InFront s (i + 6) ((r.before ++ (r.digits ++ r.behind)).tail ++ 44 :: (g.text ++ 44 ::
      (b.text ++ 44 :: (alpha ++ 41 :: rest)))) := by
  have hskip := h
  unfold rgba_text at hskip
  rw [List.append_assoc] at hskip
  have hname : (ascii "rgba(").length = 5 := by decide
  have hred := hskip.skip
  rw [hname] at hred
  have hne : r.text ≠ [] := by
    intro hempty
    have hdigits := (List.append_eq_nil_iff.mp (List.append_eq_nil_iff.mp hempty).2).1
    exact r.digits_ne hdigits
  obtain ⟨c, tail, htext⟩ := List.exists_cons_of_ne_nil hne
  rw [htext] at hred
  have hnext := InFront.next (c := c) (x := tail ++ 44 :: (g.text ++ 44 :: (b.text ++ 44 :: (alpha ++ 41 :: rest))))
    (by simpa using hred)
  unfold Component.text at htext
  rw [htext]
  exact hnext

theorem Component.kept_digits (r : Component) : IsDigits r.kept := by
  unfold Component.kept
  split_ifs
  · exact fun c hc => r.are_digits c (List.mem_of_mem_tail hc)
  · exact r.are_digits

/-- What is left of a component: blanks, the digits, blanks. -/
theorem Component.tail_eq (r : Component) :
    ∃ w, IsBlanks w ∧ (r.before ++ (r.digits ++ r.behind)).tail = w ++ (r.kept ++ r.behind) := by
  unfold Component.kept
  split_ifs with hbefore
  · refine ⟨[], fun c hc => absurd hc List.not_mem_nil, ?_⟩
    rw [hbefore, List.nil_append, List.nil_append, List.tail_append_of_ne_nil r.digits_ne]
  · refine ⟨r.before.tail, fun c hc => r.before_blank c (List.mem_of_mem_tail hc), ?_⟩
    exact List.tail_append_of_ne_nil hbefore

/-- **`rgba(r,g,b,alpha)`**: the number that is left counts. -/
theorem parse_rgba (halpha : (41 : UInt8) ∉ alpha) (h : InFront s i (rgba_text r g b alpha ++ rest))
    (hkept : r.kept ≠ []) :
    parse_rgb_rgba s i =
      (some (UInt8.ofNat (min (decimal r.kept) 255), g.value, b.value), i + (rgba_text r g b alpha).length) := by
  obtain ⟨w, hw, htail⟩ := r.tail_eq
  have harguments := rgba_arguments h
  rw [htail] at harguments
  obtain ⟨j, hj, hread⟩ := rgb_arguments_some true hw hkept r.kept_digits harguments (comma_ends _)
  rw [parse_rgba_eq h, hread, rgba_end_eq halpha hj, h.skip.unique hj.next.skip.next]

/-- Without a digit there is no colour, and the cursor is at the comma. -/
theorem parse_rgba_none (h : InFront s i (rgba_text r g b alpha ++ rest)) (hkept : r.kept = []) :
    ∃ j, parse_rgb_rgba s i = (none, j) ∧ s[j]? = some 44 := by
  obtain ⟨w, hw, htail⟩ := r.tail_eq
  have harguments := rgba_arguments h
  rw [htail, hkept, List.nil_append] at harguments
  have hblanks : IsBlanks (w ++ r.behind) := by
    intro c hc
    rcases List.mem_append.mp hc with hc | hc
    · exact hw c hc
    · exact r.behind_blank c hc
  rw [parse_rgba_eq h]
  exact ⟨_, rgb_component_none harguments hblanks (comma_ends _), harguments.skip.head⟩

theorem named_color_letters : ∀ e ∈ NAMED_COLORS, 0 < e.1.length ∧ e.1[0]? ≠ some 44 := by decide

/-- No colour's name begins with a comma. -/
theorem no_named_color (h : s[i]? = some 44) : parse_named_color s i = (none, i) := by
  unfold parse_named_color
  rw [List.find?_eq_none.mpr]
  intro e he hstarts
  obtain ⟨hpos, hfirst⟩ := named_color_letters e he
  obtain ⟨c, hc, hlower⟩ := starts_ci_getElem (Bool.and_elim_left hstarts) hpos
  rw [Nat.add_zero, h] at hc
  obtain rfl := Option.some.inj hc
  rw [List.getElem?_eq_getElem hpos, ← hlower] at hfirst
  exact hfirst (by decide)

/-- **When the number that is left has the same value.** -/
theorem spares_one_iff (r : Component) :
    r.SparesOne ↔ r.kept ≠ [] ∧ min (decimal r.kept) 255 = min (decimal r.digits) 255 := by
  unfold Component.SparesOne Component.kept
  by_cases hbefore : r.before = []
  · rw [if_pos hbefore]
    obtain ⟨d, ds, hdigits⟩ := List.exists_cons_of_ne_nil r.digits_ne
    have hd := digit_of_value (r.are_digits d (hdigits ▸ List.mem_cons_self))
    have hzero : (d - 48).toNat = 0 ↔ d = 48 := by
      constructor
      · intro h
        rw [← hd.2, h]
        rfl
      · rintro rfl
        rfl
    have hpow : 0 < 10 ^ ds.length := Nat.pow_pos (by decide)
    rw [hdigits, List.tail_cons, List.head?_cons, Option.some_inj, decimal_cons, ← hzero]
    simp only [hbefore, ne_eq, not_true_eq_false, false_or]
    refine and_congr_right fun _ => ?_
    constructor
    · rintro (h | h)
      · rw [h, Nat.zero_mul, Nat.zero_add]
      · omega
    · intro h
      by_contra hnot
      have hone : 1 * 10 ^ ds.length ≤ (d - 48).toNat * 10 ^ ds.length := Nat.mul_le_mul_right _ (by omega)
      omega
  · rw [if_neg hbefore]
    exact iff_of_true (.inl hbefore) ⟨r.digits_ne, rfl⟩

/-- The blanks behind the colon, and the reader. -/
theorem parse_color_blanks (front : Bytes) {blanks : Bytes} (x : Bytes) (hblanks : IsBlanks blanks)
    (hx : ∀ c, x.head? = some c → is_ws c = false) :
    skip_ws (front ++ (blanks ++ x)) front.length = (front ++ blanks).length := by
  rw [List.length_append]
  exact (in_front front _).scan_eq hblanks hx

theorem ofNat_min_inj {m n : Nat} (h : UInt8.ofNat (min m 255) = UInt8.ofNat (min n 255)) : min m 255 = min n 255 := by
  have hnat := congrArg UInt8.toNat h
  rw [UInt8.toNat_ofNat', UInt8.toNat_ofNat', Nat.mod_eq_of_lt (by omega), Nat.mod_eq_of_lt (by omega)] at hnat
  exact hnat

end Reader

section Colours

variable {front blanks alpha rest : Bytes}

/-- **When both forms give the three numbers**: the first always does, the second
when the red one keeps its value without the byte that is lost. -/
theorem rgb_and_rgba_iff (hblanks : IsBlanks blanks) (r g b : Component) (halpha : (41 : UInt8) ∉ alpha) :
    (parse_color_after_colon (front ++ (blanks ++ (rgb_text r g b ++ rest))) front.length =
        some (some (r.value, g.value, b.value), (front ++ (blanks ++ rgb_text r g b)).length) ∧
      parse_color_after_colon (front ++ (blanks ++ (rgba_text r g b alpha ++ rest))) front.length =
        some (some (r.value, g.value, b.value), (front ++ (blanks ++ rgba_text r g b alpha)).length)) ↔
      r.SparesOne := by
  have hrgb : parse_color_after_colon (front ++ (blanks ++ (rgb_text r g b ++ rest))) front.length =
      some (some (r.value, g.value, b.value), (front ++ (blanks ++ rgb_text r g b)).length) := by
    have hstart := parse_color_blanks front (rgb_text r g b ++ rest) hblanks
      fun c hc => by obtain rfl := Option.some.inj hc; rfl
    have hat := in_front (front ++ blanks) (rgb_text r g b ++ rest)
    rw [List.append_assoc] at hat
    unfold parse_color_after_colon
    rw [hstart, parse_rgb hat]
    simp only [List.length_append, Nat.add_assoc]
  have hstart := parse_color_blanks front (rgba_text r g b alpha ++ rest) hblanks
    fun c hc => by obtain rfl := Option.some.inj hc; rfl
  have hat := in_front (front ++ blanks) (rgba_text r g b alpha ++ rest)
  rw [List.append_assoc] at hat
  rw [and_iff_right hrgb, spares_one_iff]
  unfold parse_color_after_colon
  rw [hstart]
  by_cases hkept : r.kept = []
  · obtain ⟨j, hread, hcomma⟩ := parse_rgba_none hat hkept
    rw [hread]
    dsimp only
    rw [hcomma, if_neg (by decide), no_named_color hcomma]
    refine iff_of_false ?_ fun h => h.1 hkept
    intro h
    cases (Prod.mk.inj (Option.some.inj h)).1
  · rw [parse_rgba halpha hat hkept, and_iff_right hkept]
    simp only [List.length_append, Nat.add_assoc, Option.some.injEq, Prod.mk.injEq, and_true]
    constructor
    · exact fun h => ofNat_min_inj h
    · exact fun h => congrArg UInt8.ofNat h

/-- ` 7`. -/
def SEVEN : Component where
  before := [32]
  digits := ascii "7"
  behind := []
  before_blank := is_blanks_space
  digits_ne := by decide
  are_digits := by unfold IsDigits; decide +kernel
  behind_blank := is_blanks_nil

/-- A blank in front of the red component. -/
theorem blank_before_red :
    parse_color_after_colon (ascii "color:" ++ ([] ++ (rgb_text SEVEN SEVEN SEVEN ++ []))) 6 =
        some (some (7, 7, 7), 19) ∧
      parse_color_after_colon (ascii "color:" ++ ([] ++ (rgba_text SEVEN SEVEN SEVEN (ascii "0.5") ++ []))) 6 =
        some (some (7, 7, 7), 24) := by
  have halpha : (41 : UInt8) ∉ ascii "0.5" := by decide
  exact (@rgb_and_rgba_iff (ascii "color:") [] (ascii "0.5") [] is_blanks_nil SEVEN SEVEN SEVEN halpha).mpr (.inl (List.cons_ne_nil _ _))

/-- The first digit is lost. -/
theorem rgba_loses_a_digit :
    parse_color_after_colon (ascii "rgb(200,100,50)") 0 = some (some (200, 100, 50), 15) ∧
      parse_color_after_colon (ascii "rgba(200,100,50,1)") 0 = some (some (0, 100, 50), 18) := by
  decide

end Colours

end EveOS.Html
