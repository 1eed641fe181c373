/-
Numeric character references: what `parse_numeric_entity` of `kernel/src/html.rs` accepts.

The scanner and the loop that adds up the digits are the same for both bases. The sum is
checked against `u32`, which refuses no code point: what is in front of a digit is never
more than what is behind it.
-/
import EveOS.Html.Tag
import EveOS.Lib.Decimal
import EveOS.Lib.Hex

set_option autoImplicit false

namespace EveOS.Html

/-- `text` is a reference to the number `v`. -/
def NumericReference (text : Bytes) (v : Nat) : Prop :=
  (∃ ds, ds ≠ [] ∧ IsDigits ds ∧ text = ascii "&#" ++ (ds ++ ascii ";") ∧ decimal ds = v) ∨
    ∃ x ds, (x = 120 ∨ x = 88) ∧ ds ≠ [] ∧ hexNumber ds = some v ∧ text = ascii "&#" ++ (x :: ds ++ ascii ";")

/-! ## Digits -/

section Digits

variable {base : Nat} {ds : Bytes} {v : Nat}

/-- The number behind `v` and some digits. -/
def numeral_from (base v : Nat) (ds : Bytes) : Nat := ds.foldl (fun v c => v * base + ((entity_digit base c).getD 0)) v

theorem le_numeral_from (hbase : 0 < base) (v : Nat) (ds : Bytes) : v ≤ numeral_from base v ds := by
  induction ds generalizing v with
  | nil => exact Nat.le_refl v
  | cons c ds ih =>
    have hstep : v ≤ v * base := Nat.le_mul_of_pos_right v hbase
    have hrest := ih (v * base + (entity_digit base c).getD 0)
    unfold numeral_from at hrest ⊢
    rw [List.foldl_cons]
    omega

/-- **The checked sum** of digits: it is the number, unless that is too large. -/
theorem entity_value_from (hbase : 0 < base) (hds : ∀ c ∈ ds, (entity_digit base c).isSome = true) {u : Nat}
    (hu : u < 4294967296) :
    ds.foldlM (fun v c => (entity_digit base c).bind fun d =>
        if v * base + d < 4294967296 then some (v * base + d) else none) u = some v ↔
      numeral_from base u ds = v ∧ v < 4294967296 := by
  induction ds generalizing u with
  | nil =>
    rw [List.foldlM_nil]
    constructor
    · intro h
      rw [← Option.some.inj h]
      exact ⟨rfl, hu⟩
    · rintro ⟨rfl, -⟩
      rfl
  | cons c ds ih =>
    obtain ⟨d, hd⟩ := Option.isSome_iff_exists.mp (hds c List.mem_cons_self)
    have hrest : ∀ c ∈ ds, (entity_digit base c).isSome = true := fun c hc => hds c (List.mem_cons_of_mem _ hc)
    have hnumber : numeral_from base u (c :: ds) = numeral_from base (u * base + d) ds := by
      unfold numeral_from
      rw [List.foldl_cons, hd, Option.getD_some]
    rw [List.foldlM_cons, hd, Option.bind_some, hnumber]
    by_cases hfits : u * base + d < 4294967296
    · rw [if_pos hfits]
      exact ih hrest hfits
    · rw [if_neg hfits]
      have hle := le_numeral_from hbase (u * base + d) ds
      constructor
      · intro h
        cases h
      · rintro ⟨rfl, hlt⟩
        omega

theorem decimal_digit_iff (c : UInt8) : (entity_digit 10 c).isSome = true ↔ 48 ≤ c ∧ c ≤ 57 := by
  unfold entity_digit is_digit
  by_cases hc : 48 ≤ c ∧ c ≤ 57
  · simp [hc]
  · rw [if_neg (by simpa using hc), if_neg (by decide)]
    exact iff_of_false (by simp) hc

theorem decimal_numeral (hds : IsDigits ds) : numeral_from 10 0 ds = decimal ds := by
  have hfrom : ∀ v, numeral_from 10 v ds = decimal_from v ds := by
    induction ds with
    | nil => exact fun v => rfl
    | cons c ds ih =>
      intro v
      have hc := hds c List.mem_cons_self
      have hdigit : entity_digit 10 c = some (c - 48).toNat := by
        unfold entity_digit is_digit
        rw [if_pos (by simpa using hc)]
      have hrest := ih (fun c hc => hds c (List.mem_cons_of_mem _ hc)) (v * 10 + (c - 48).toNat)
      unfold numeral_from decimal_from at hrest ⊢
      rw [List.foldl_cons, List.foldl_cons, hdigit, Option.getD_some]
      exact hrest
  exact hfrom 0

/-- Both of them read the same digits. -/
theorem hex_digit_eq (c : UInt8) : entity_digit 16 c = hexValue c := by
  have htable : ∀ k : Fin 256, entity_digit 16 (UInt8.ofFin k) = hexValue (UInt8.ofFin k) := by decide +kernel
  exact htable c.toFin

theorem hex_numeral_iff :
    hexNumber ds = some v ↔ (∀ c ∈ ds, (entity_digit 16 c).isSome = true) ∧ numeral_from 16 0 ds = v := by
  have hfrom : ∀ u, (ds.mapM hexValue).map (hexFold u) = some v ↔
      (∀ c ∈ ds, (entity_digit 16 c).isSome = true) ∧ numeral_from 16 u ds = v := by
    induction ds with
    | nil =>
      intro u
      simp [numeral_from, hexFold]
    | cons c ds ih =>
      intro u
      cases hd : hexValue c with
      | none =>
        rw [List.mapM_cons, hd]
        refine iff_of_false (by simp) ?_
        rintro ⟨hall, -⟩
        have hc := hall c List.mem_cons_self
        rw [hex_digit_eq, hd] at hc
        cases hc
      | some d =>
        have hstep := ih (u * 16 + d)
        have hnumber : numeral_from 16 u (c :: ds) = numeral_from 16 (u * 16 + d) ds := by
          unfold numeral_from
          rw [List.foldl_cons, hex_digit_eq, hd, Option.getD_some]
        have hmap : ((c :: ds).mapM hexValue).map (hexFold u) = (ds.mapM hexValue).map (hexFold (u * 16 + d)) := by
          rw [List.mapM_cons, hd]
          cases ds.mapM hexValue <;> rfl
        rw [hmap, hstep, hnumber, List.forall_mem_cons, hex_digit_eq, hd]
        simp
  exact hfrom 0

end Digits

/-! ## The scanner -/

/-- The digits behind `start` bytes. -/
def digits_at (base start : Nat) (s : Bytes) : Bytes := (s.drop start).takeWhile fun c => (entity_digit base c).isSome

/-- What `parse_numeric_entity` does behind the mark of the base. -/
def reference_at (base start : Nat) (s : Bytes) : Option (Nat × Nat) :=
  if s[start + (digits_at base start s).length]? ≠ some 59 ∨ digits_at base start s = [] then none
  else (entity_value base (digits_at base start s)).bind fun v =>
    if 0x10FFFF < v then none else some (v, start + (digits_at base start s).length + 1)

section Scanner

variable {s pre t ds : Bytes} {base v n : Nat}

theorem parse_numeric_entity_eq (s : Bytes) :
    parse_numeric_entity s =
      if s.length < 4 ∨ s[0]? ≠ some 38 ∨ s[1]? ≠ some 35 then none
      else if s[2]? = some 120 ∨ s[2]? = some 88 then reference_at 16 3 s else reference_at 10 2 s := by
  unfold parse_numeric_entity reference_at digits_at
  by_cases hhex : s[2]? = some 120 ∨ s[2]? = some 88
  · simp only [if_pos hhex]
    split_ifs
    · rfl
    · rfl
    · cases entity_value 16 ((s.drop 3).takeWhile fun c => (entity_digit 16 c).isSome) <;> rfl
  · simp only [if_neg hhex]
    split_ifs
    · rfl
    · rfl
    · cases entity_value 10 ((s.drop 2).takeWhile fun c => (entity_digit 10 c).isSome) <;> rfl

theorem semicolon_is_no_digit (base : Nat) : (entity_digit base 59).isSome = false := by
  unfold entity_digit
  rw [if_neg (by decide)]
  split_ifs <;> rfl

/-- Digits up to a semicolon are what the scanner takes. -/
theorem digits_at_eq (hs : s = pre ++ (ds ++ 59 :: t)) (hds : ∀ c ∈ ds, (entity_digit base c).isSome = true) :
    digits_at base pre.length s = ds := by
  have hfront : InFront s pre.length (ds ++ 59 :: t) := ⟨pre, hs, rfl⟩
  refine hfront.takeWhile_eq hds ?_
  intro c hc
  rw [← Option.some.inj hc]
  exact semicolon_is_no_digit base

/-- **What the scanner accepts** behind a prefix: digits, up to a semicolon. -/
theorem reference_at_iff (hbase : 0 < base) (hs : s = pre ++ t) :
    reference_at base pre.length s = some (v, n) ↔
      ∃ ds rest, t = ds ++ 59 :: rest ∧ ds ≠ [] ∧ (∀ c ∈ ds, (entity_digit base c).isSome = true) ∧
        numeral_from base 0 ds = v ∧ v ≤ 0x10FFFF ∧ n = pre.length + ds.length + 1 := by
  have hvalue : ∀ ds : Bytes, (∀ c ∈ ds, (entity_digit base c).isSome = true) → ∀ u,
      entity_value base ds = some u ↔ numeral_from base 0 ds = u ∧ u < 4294967296 :=
    fun ds hds u => entity_value_from hbase hds (by decide)
  unfold reference_at
  constructor
  · intro h
    split_ifs at h with hstop
    rw [not_or, not_not] at hstop
    obtain ⟨hsemi, hne⟩ := hstop
    have hall : ∀ c ∈ digits_at base pre.length s, (entity_digit base c).isSome = true := by
      intro c hc
      exact List.mem_takeWhile_imp (p := fun c => (entity_digit base c).isSome) hc
    have hsplit : digits_at base pre.length s ++ (t.dropWhile fun c => (entity_digit base c).isSome) = t := by
      unfold digits_at
      rw [hs, List.drop_left, List.takeWhile_append_dropWhile]
    generalize digits_at base pre.length s = ds at hsemi hne hall hsplit h
    generalize (t.dropWhile fun c => (entity_digit base c).isSome) = behind at hsplit
    -- the semicolon stands behind the digits
    obtain ⟨rest, rfl⟩ : ∃ rest, behind = 59 :: rest := by
      rw [hs, ← hsplit, List.getElem?_append_right (Nat.le_add_right _ _), Nat.add_sub_cancel_left,
        List.getElem?_append_right (Nat.le_refl _), Nat.sub_self] at hsemi
      cases behind with
      | nil => cases hsemi
      | cons c rest =>
        rw [List.getElem?_cons_zero] at hsemi
        exact ⟨rest, by rw [Option.some.inj hsemi]⟩
    obtain ⟨u, hu, hfits⟩ := Option.bind_eq_some_iff.mp h
    split_ifs at hfits with hlarge
    obtain ⟨rfl, rfl⟩ := Prod.mk.inj (Option.some.inj hfits)
    exact ⟨ds, rest, hsplit.symm, hne, hall, ((hvalue _ hall u).mp hu).1, Nat.not_lt.mp hlarge, rfl⟩
  · rintro ⟨ds, rest, rfl, hne, hall, hnumber, hlarge, rfl⟩
    have hdigits : digits_at base pre.length s = ds := digits_at_eq hs hall
    have hsemi : s[pre.length + ds.length]? = some 59 := by
      rw [hs, List.getElem?_append_right (Nat.le_add_right _ _), Nat.add_sub_cancel_left,
        List.getElem?_append_right (Nat.le_refl _), Nat.sub_self]
      rfl
    rw [hdigits, if_neg (by simp [hsemi, hne]), (hvalue ds hall v).mpr ⟨hnumber, by omega⟩, Option.bind_some,
      if_neg (Nat.not_lt.mpr hlarge)]

end Scanner

/-- What passes the first check begins with the mark. -/
theorem marked {s : Bytes} (h : ¬ (s.length < 4 ∨ s[0]? ≠ some 38 ∨ s[1]? ≠ some 35)) : ∃ t, s = ascii "&#" ++ t := by
  rw [not_or, not_or, not_not, not_not] at h
  obtain ⟨-, hamp, hhash⟩ := h
  cases s with
  | nil => cases hamp
  | cons a s =>
    cases s with
    | nil => cases hhash
    | cons b t =>
      rw [List.getElem?_cons_zero] at hamp
      rw [List.getElem?_cons_succ, List.getElem?_cons_zero] at hhash
      rw [Option.some.inj hamp, Option.some.inj hhash]
      exact ⟨t, rfl⟩

theorem marked_hex {t : Bytes} (hhex : (ascii "&#" ++ t)[2]? = some 120 ∨ (ascii "&#" ++ t)[2]? = some 88) :
    ∃ x u, t = x :: u ∧ (x = 120 ∨ x = 88) := by
  cases t with
  | nil => rcases hhex with h | h <;> cases h
  | cons x u =>
    refine ⟨x, u, rfl, ?_⟩
    rcases hhex with h | h
    · exact .inl (Option.some.inj h)
    · exact .inr (Option.some.inj h)

/-- A text with the mark, a byte and more passes it. -/
theorem marked_long (a : UInt8) (t : Bytes) (ht : 0 < t.length) :
    ¬ ((ascii "&#" ++ a :: t).length < 4 ∨ (ascii "&#" ++ a :: t)[0]? ≠ some 38 ∨ (ascii "&#" ++ a :: t)[1]? ≠ some 35) := by
  rintro (hlen | hamp | hhash)
  · rw [List.length_append, List.length_cons] at hlen
    have hmark : (ascii "&#").length = 2 := rfl
    omega
  · exact hamp rfl
  · exact hhash rfl

/-- **Numeric references**: what is parsed is a reference to a code point at the front of
the text, with its value and its length. -/
theorem parse_numeric_entity_iff (s : Bytes) (v n : Nat) :
    parse_numeric_entity s = some (v, n) ↔
      ∃ text rest, s = text ++ rest ∧ n = text.length ∧ NumericReference text v ∧ v ≤ 0x10FFFF := by
  have hmark : (ascii "&#").length = 2 := rfl
  have hsemi : ascii ";" = [59] := rfl
  rw [parse_numeric_entity_eq]
  constructor
  · intro h
    split_ifs at h with hshort hhex
    · obtain ⟨t, rfl⟩ := marked hshort
      obtain ⟨x, u, rfl, hx⟩ := marked_hex hhex
      have hpre : ascii "&#" ++ x :: u = (ascii "&#" ++ [x]) ++ u := by rw [List.append_assoc, List.singleton_append]
      obtain ⟨ds, rest, rfl, hne, hall, hnumber, hlarge, rfl⟩ := (reference_at_iff (by decide) hpre).mp h
      have hvalue : hexNumber ds = some v := hex_numeral_iff.mpr ⟨hall, hnumber⟩
      refine ⟨ascii "&#" ++ (x :: ds ++ ascii ";"), rest, ?_, ?_, .inr ⟨x, ds, hx, hne, hvalue, rfl⟩, hlarge⟩
      · simp only [hsemi, List.append_assoc, List.cons_append, List.nil_append]
      · simp only [hsemi, hmark, List.length_append, List.length_cons, List.length_nil]
        omega
    · obtain ⟨t, rfl⟩ := marked hshort
      obtain ⟨ds, rest, rfl, hne, hall, hnumber, hlarge, rfl⟩ := (reference_at_iff (by decide) rfl).mp h
      have hds : IsDigits ds := fun c hc => (decimal_digit_iff c).mp (hall c hc)
      have hvalue : decimal ds = v := by rw [← decimal_numeral hds, hnumber]
      refine ⟨ascii "&#" ++ (ds ++ ascii ";"), rest, ?_, ?_, .inl ⟨ds, hne, hds, rfl, hvalue⟩, hlarge⟩
      · simp only [hsemi, List.append_assoc, List.cons_append, List.nil_append]
      · simp only [hsemi, hmark, List.length_append, List.length_cons, List.length_nil]
        omega
  · rintro ⟨text, rest, rfl, rfl, ⟨ds, hne, hds, rfl, hnumber⟩ | ⟨x, ds, hx, hne, hnumber, rfl⟩, hlarge⟩
    · obtain ⟨c, ds, rfl⟩ := List.exists_cons_of_ne_nil hne
      have hdigit : 48 ≤ c ∧ c ≤ 57 := hds c List.mem_cons_self
      have hno_letter : ¬ (some c = some 120 ∨ some c = some 88) := by
        rintro (h | h)
        · rw [Option.some.inj h] at hdigit
          exact absurd hdigit (by decide)
        · rw [Option.some.inj h] at hdigit
          exact absurd hdigit (by decide)
      have hsplit : (ascii "&#" ++ (c :: ds ++ ascii ";")) ++ rest = ascii "&#" ++ (c :: ds ++ 59 :: rest) := by
        simp only [hsemi, List.append_assoc, List.cons_append, List.nil_append]
      have hlen : (ascii "&#" ++ (c :: ds ++ ascii ";")).length = (ascii "&#").length + (c :: ds).length + 1 := by
        simp only [hsemi, List.length_append, List.length_cons, List.length_nil]
        omega
      have hlong : ¬ _ := marked_long c (ds ++ 59 :: rest) (by simp)
      have hthird : (ascii "&#" ++ c :: (ds ++ 59 :: rest))[2]? = some c := rfl
      rw [hsplit, hlen, List.cons_append, if_neg hlong, hthird, if_neg hno_letter]
      refine (reference_at_iff (by decide) rfl).mpr ⟨c :: ds, rest, rfl, hne, ?_, ?_, hlarge, rfl⟩
      · exact fun d hd => (decimal_digit_iff d).mpr (hds d hd)
      · rw [decimal_numeral hds, hnumber]
    · obtain ⟨hall, hvalue⟩ := hex_numeral_iff.mp hnumber
      have hletter : some x = some 120 ∨ some x = some 88 := hx.imp (congrArg some) (congrArg some)
      have hsplit : (ascii "&#" ++ (x :: ds ++ ascii ";")) ++ rest = ascii "&#" ++ x :: (ds ++ 59 :: rest) := by
        simp only [hsemi, List.append_assoc, List.cons_append, List.nil_append]
      have hlen : (ascii "&#" ++ (x :: ds ++ ascii ";")).length = (ascii "&#" ++ [x]).length + ds.length + 1 := by
        simp only [hsemi, List.length_append, List.length_cons, List.length_nil]
        omega
      have hlong : ¬ _ := marked_long x (ds ++ 59 :: rest) (by simp)
      have hthird : (ascii "&#" ++ x :: (ds ++ 59 :: rest))[2]? = some x := rfl
      have hpre : ascii "&#" ++ x :: (ds ++ 59 :: rest) = (ascii "&#" ++ [x]) ++ (ds ++ 59 :: rest) := by
        rw [List.append_assoc, List.singleton_append]
      rw [hsplit, hlen, if_neg hlong, hthird, if_pos hletter]
      exact (reference_at_iff (by decide) hpre).mpr ⟨ds, rest, rfl, hne, hall, hvalue, hlarge, rfl⟩

end EveOS.Html
