/-
Hexadecimal numerals, in either case of their letters.

Nothing in this file knows about the kernel.
-/
import EveOS.Lib.Bytes

set_option autoImplicit false

namespace EveOS

/-- The value of a digit. -/
def hexValue (b : UInt8) : Option Nat :=
  ((ascii "0123456789abcdef").idxOf? b).orElse fun _ => (ascii "0123456789ABCDEF").idxOf? b

/-- Digits behind the number `v`. -/
def hexFold (v : Nat) (ds : List Nat) : Nat := ds.foldl (fun v d => v * 16 + d) v

/-- The number that a string of digits states. -/
def hexNumber (text : Bytes) : Option Nat := (text.mapM hexValue).map (hexFold 0)

/-- `text` is the shortest numeral for `n`. -/
def HexNumeral (n : Nat) (text : Bytes) : Prop := text.mapM hexValue = some (Nat.digits 16 n).reverse

instance (n : Nat) (text : Bytes) : Decidable (HexNumeral n text) :=
  inferInstanceAs (Decidable (_ = _))

variable {b : UInt8} {text : Bytes} {ds : List Nat} {n v : Nat}

theorem le_hexFold (v : Nat) (ds : List Nat) : v ≤ hexFold v ds := by
  induction ds generalizing v with
  | nil => exact Nat.le_refl v
  | cons d ds ih =>
    have hstep := ih (v * 16 + d)
    change v ≤ hexFold (v * 16 + d) ds
    omega

/-- The digits of a number state it. -/
theorem hexFold_digits (n : Nat) : hexFold 0 (Nat.digits 16 n).reverse = n := by
  have hfold : hexFold 0 (Nat.digits 16 n).reverse = Nat.ofDigits 16 (Nat.digits 16 n) := by
    rw [hexFold, List.foldl_reverse, Nat.ofDigits_eq_foldr]
    congr 1
    funext d v
    simp [Nat.mul_comm, Nat.add_comm]
  rw [hfold, Nat.ofDigits_digits]

theorem hexValue_mapM_cons (h : (b :: text).mapM hexValue = some ds) :
    ∃ d ds', hexValue b = some d ∧ text.mapM hexValue = some ds' ∧ ds = d :: ds' := by
  rw [List.mapM_cons] at h
  cases hd : hexValue b with
  | none => simp [hd] at h
  | some d =>
    cases hds : text.mapM hexValue with
    | none => simp [hd, hds] at h
    | some ds' =>
      refine ⟨d, ds', rfl, rfl, ?_⟩
      simpa [hd, hds, eq_comm] using h

theorem length_mapM_hexValue (h : text.mapM hexValue = some ds) : ds.length = text.length := by
  induction text generalizing ds with
  | nil =>
    rw [List.mapM_nil] at h
    obtain rfl := Option.some.inj h
    rfl
  | cons b text ih =>
    obtain ⟨d, ds', -, hrest, rfl⟩ := hexValue_mapM_cons h
    rw [List.length_cons, List.length_cons, ih hrest]

/-- Every byte of a numeral is a digit. -/
theorem isSome_of_mapM_hexValue {c : UInt8} (h : text.mapM hexValue = some ds) (hc : c ∈ text) :
    (hexValue c).isSome = true := by
  induction text generalizing ds with
  | nil => cases hc
  | cons b text ih =>
    obtain ⟨d, ds', hd, hrest, -⟩ := hexValue_mapM_cons h
    rcases List.mem_cons.mp hc with rfl | hc
    · rw [hd]
      rfl
    · exact ih hrest hc

/-- A numeral has no more digits than the powers of 16 below the number. -/
theorem HexNumeral.length_le {k : Nat} (h : HexNumeral n text) (hn : n < 16 ^ k) : text.length ≤ k := by
  rw [← length_mapM_hexValue h, List.length_reverse]
  exact (Nat.digits_length_le_iff (by decide) n).mpr hn

theorem HexNumeral.number (h : HexNumeral n text) : hexNumber text = some n := by
  rw [hexNumber, h, Option.map_some, hexFold_digits]

end EveOS
