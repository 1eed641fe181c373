/-
Decimal numerals.

The value of a text of digits, the reader that stops when the value exceeds a bound, and the
writer that takes digits from the low end. A number that was read from a text is written as
that text without its leading zeros (`render_decimal_eq`).

Nothing in this file knows about the kernel.
-/
import EveOS.Lib.Bytes

set_option autoImplicit false

namespace EveOS

/-- `v` and the digits behind it. -/
def decimal_from (v : Nat) (ds : Bytes) : Nat := ds.foldl (fun v c => v * 10 + (c - 48).toNat) v

/-- The value of a text of digits. -/
def decimal (ds : Bytes) : Nat := decimal_from 0 ds

def IsDigits (ds : Bytes) : Prop := ∀ c ∈ ds, 48 ≤ c ∧ c ≤ 57

/-- A reader that refuses what is no digit, and every value above `cap`. -/
def bounded_decimal (cap v : Nat) : Bytes → Option Nat
  | [] => some v
  | c :: rest =>
    if !(48 ≤ c && c ≤ 57) then none
    else
      let v' := v * 10 + (c - 48).toNat
      if cap < v' then none else bounded_decimal cap v' rest

/-- The text without its leading zeros, of which a zero keeps one. -/
def strip_zeros (ds : Bytes) : Bytes := if ds.dropWhile (· == 48) = [] then [48] else ds.dropWhile (· == 48)

/-- The digits of a number. -/
def render_decimal (n : Nat) : Bytes := (Nat.toDigits 10 n).map fun c => UInt8.ofNat c.toNat

/-- A writer that takes the digits from the low end, into a buffer with room for `room`. -/
def render_from : Nat → Nat → Bytes → Bytes
  | 0, _, ds => ds
  | room + 1, n, ds => if 0 < n then render_from room (n / 10) (UInt8.ofNat (48 + n % 10) :: ds) else ds

section Read

variable {ds : Bytes} {v cap : Nat}

theorem le_decimal_from (v : Nat) (ds : Bytes) : v ≤ decimal_from v ds := by
  induction ds generalizing v with
  | nil => exact Nat.le_refl v
  | cons c ds ih =>
    have hle := ih (v * 10 + (c - 48).toNat)
    unfold decimal_from at hle ⊢
    rw [List.foldl_cons]
    omega

/-- **What the reader accepts.** -/
theorem bounded_decimal_eq_some {n : Nat} (hv : v ≤ cap) :
    bounded_decimal cap v ds = some n ↔ IsDigits ds ∧ n = decimal_from v ds ∧ n ≤ cap := by
  induction ds generalizing v with
  | nil =>
    rw [bounded_decimal]
    constructor
    · rintro ⟨⟩
      exact ⟨by simp [IsDigits], rfl, hv⟩
    · rintro ⟨-, rfl, -⟩
      rfl
  | cons c ds ih =>
    have hle := le_decimal_from (v * 10 + (c - 48).toNat) ds
    have hcons : decimal_from v (c :: ds) = decimal_from (v * 10 + (c - 48).toNat) ds := rfl
    have hdigits : IsDigits (c :: ds) ↔ (48 ≤ c ∧ c ≤ 57) ∧ IsDigits ds := List.forall_mem_cons
    rw [bounded_decimal, hcons, hdigits]
    by_cases hc : 48 ≤ c ∧ c ≤ 57
    · rw [if_neg (by simp [hc])]
      by_cases hcap : cap < v * 10 + (c - 48).toNat
      · rw [if_pos hcap]
        constructor
        · intro h
          cases h
        · rintro ⟨-, rfl, hn⟩
          omega
      · rw [if_neg hcap, ih (Nat.not_lt.mp hcap)]
        simp [hc]
    · have htest : (48 ≤ c && c ≤ 57) = false := by simpa [not_and] using hc
      rw [htest]
      simp [hc]

theorem decimal_from_eq (v : Nat) (ds : Bytes) : decimal_from v ds = v * 10 ^ ds.length + decimal ds := by
  unfold decimal
  induction ds generalizing v with
  | nil => simp [decimal_from]
  | cons c ds ih =>
    have hcons : ∀ v, decimal_from v (c :: ds) = decimal_from (v * 10 + (c - 48).toNat) ds := fun _ => rfl
    rw [hcons, hcons, ih (v * 10 + (c - 48).toNat), ih (0 * 10 + (c - 48).toNat), List.length_cons, Nat.pow_succ]
    ring

theorem decimal_cons (c : UInt8) (ds : Bytes) :
    decimal (c :: ds) = (c - 48).toNat * 10 ^ ds.length + decimal ds := by
  have h := decimal_from_eq (c - 48).toNat ds
  rw [← h]
  unfold decimal decimal_from
  rw [List.foldl_cons, Nat.zero_mul, Nat.zero_add]

end Read

section Write

variable {ds : Bytes}

theorem decimal_concat (ds : Bytes) (c : UInt8) : decimal (ds ++ [c]) = decimal ds * 10 + (c - 48).toNat := by
  unfold decimal decimal_from
  rw [List.foldl_append]
  rfl

theorem render_decimal_digit {n : Nat} (h : n < 10) : render_decimal n = [UInt8.ofNat (48 + n)] := by
  interval_cases n <;> rfl

/-- The last digit of a number. -/
theorem render_decimal_step {n : Nat} (h : 10 ≤ n) :
    render_decimal n = render_decimal (n / 10) ++ [UInt8.ofNat (48 + n % 10)] := by
  have hlast := render_decimal_digit (Nat.mod_lt n (by decide : 0 < 10))
  unfold render_decimal at hlast ⊢
  rw [Nat.toDigits_of_lt_base (Nat.mod_lt n (by decide))] at hlast
  rw [Nat.toDigits_eq_if (by decide), if_neg (by omega), List.map_append]
  exact congrArg _ hlast

/-- A digit is written as itself. -/
theorem digit_of_value {c : UInt8} (h : 48 ≤ c ∧ c ≤ 57) :
    (c - 48).toNat < 10 ∧ UInt8.ofNat (48 + (c - 48).toNat) = c := by
  obtain ⟨hlo, hhi⟩ := h
  rw [UInt8.le_iff_toNat_le] at hlo hhi
  simp only [UInt8.reduceToNat] at hlo hhi
  have hsub : (c - 48).toNat = c.toNat - 48 := by
    rw [UInt8.toNat_sub_of_le _ _ (by rw [UInt8.le_iff_toNat_le]; exact hlo)]
    rfl
  refine ⟨by omega, ?_⟩
  apply UInt8.toNat_inj.mp
  rw [UInt8.toNat_ofNat', hsub, Nat.mod_eq_of_lt (by omega)]
  omega

/-- A text of zeros has the value zero, and no other text has. -/
theorem decimal_eq_zero_iff (hds : IsDigits ds) : decimal ds = 0 ↔ ds.dropWhile (· == 48) = [] := by
  rw [List.dropWhile_eq_nil_iff]
  induction ds using List.reverseRecOn with
  | nil => simp [decimal, decimal_from]
  | append_singleton ds c ih =>
    have hfront : IsDigits ds := fun d hd => hds d (List.mem_append_left _ hd)
    have hlast : (c - 48).toNat = 0 ↔ (c == 48) = true := by
      have hc := (digit_of_value (hds c (by simp))).2
      rw [beq_iff_eq]
      constructor
      · intro h
        rw [h] at hc
        exact hc.symm
      · rintro rfl
        rfl
    rw [decimal_concat, Nat.add_eq_zero_iff, hlast, Nat.mul_eq_zero, or_iff_left (by decide), ih hfront]
    simp [or_imp, forall_and]

/-- **A value is written as its text**, without leading zeros. -/
theorem render_decimal_eq (hne : ds ≠ []) (hds : IsDigits ds) : render_decimal (decimal ds) = strip_zeros ds := by
  induction ds using List.reverseRecOn with
  | nil => exact absurd rfl hne
  | append_singleton ds c ih =>
    have hfront : IsDigits ds := fun d hd => hds d (List.mem_append_left _ hd)
    obtain ⟨hlt, hdigit⟩ := digit_of_value (hds c (by simp))
    have hdrop : (ds ++ [c]).dropWhile (· == 48) =
        if ds.dropWhile (· == 48) = [] then [c].dropWhile (· == 48) else ds.dropWhile (· == 48) ++ [c] := by
      simp only [List.dropWhile_append, List.isEmpty_iff]
    by_cases hzero : decimal ds = 0
    · -- only zeros so far
      rw [decimal_concat, hzero, Nat.zero_mul, Nat.zero_add, render_decimal_digit hlt, hdigit, strip_zeros, hdrop,
        if_pos ((decimal_eq_zero_iff hfront).mp hzero)]
      by_cases hc : c = 48
      · subst hc
        rfl
      · simp [hc]
    · have hne' : ds ≠ [] := by
        rintro rfl
        exact hzero rfl
      have hkeep : ds.dropWhile (· == 48) ≠ [] := fun h => hzero ((decimal_eq_zero_iff hfront).mpr h)
      have hrest := ih hne' hfront
      have hdiv : (decimal ds * 10 + (c - 48).toNat) / 10 = decimal ds := by omega
      have hmod : (decimal ds * 10 + (c - 48).toNat) % 10 = (c - 48).toNat := by omega
      rw [strip_zeros, if_neg hkeep] at hrest
      rw [decimal_concat, render_decimal_step (by omega), hdiv, hmod, hdigit, hrest, strip_zeros, hdrop, if_neg hkeep,
        if_neg (by simp)]

/-- The writer with room enough. -/
theorem render_from_eq {n room : Nat} (hn : 0 < n) (hroom : n < 10 ^ room) (ds : Bytes) :
    render_from room n ds = render_decimal n ++ ds := by
  induction room generalizing n ds with
  | zero =>
    rw [Nat.pow_zero] at hroom
    omega
  | succ room ih =>
    rw [render_from, if_pos hn]
    by_cases hlast : n < 10
    · have hzero : n / 10 = 0 := Nat.div_eq_of_lt hlast
      have hstop : render_from room (n / 10) (UInt8.ofNat (48 + n % 10) :: ds) = UInt8.ofNat (48 + n % 10) :: ds := by
        rw [hzero]
        cases room <;> rfl
      rw [hstop, render_decimal_digit hlast, Nat.mod_eq_of_lt hlast]
      rfl
    · have hless : n / 10 < 10 ^ room := by
        rw [Nat.pow_succ] at hroom
        exact Nat.div_lt_of_lt_mul (by omega)
      rw [ih (by omega) hless (UInt8.ofNat (48 + n % 10) :: ds), render_decimal_step (Nat.not_lt.mp hlast),
        List.append_assoc]
      rfl

end Write

end EveOS
