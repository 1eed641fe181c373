/-
Fields of a string, recognised from an offset.

A function that moves an offset over a field recognises a set of strings: it succeeds exactly
where one of them stands, and ends behind it. Such functions compose like the sets.

Nothing in this file knows about the kernel.
-/
import EveOS.Lib.Bytes

set_option autoImplicit false

namespace EveOS

/-- `skip` moves over a string of `F`, wherever one stands, and fails elsewhere. -/
def Recognises (buf : Bytes) (skip : Nat → Option Nat) (F : Bytes → Prop) : Prop :=
  ∀ i j, i ≤ buf.length →
    (skip i = some j ↔ ∃ xs rest, F xs ∧ buf.drop i = xs ++ rest ∧ j = i + xs.length)

/-- A string of the one kind and then one of the other. -/
def Follows (F G : Bytes → Prop) (xs : Bytes) : Prop := ∃ a b, F a ∧ G b ∧ xs = a ++ b

/-- A field that is there only if a flag is set. -/
def Present (c : Prop) [Decidable c] (F : Bytes → Prop) (xs : Bytes) : Prop := if c then F xs else xs = []

variable {buf : Bytes} {skip skip' : Nat → Option Nat} {F G : Bytes → Prop}

/-- Behind a field the offset is still inside. -/
theorem end_le_of_drop {i : Nat} {xs rest : Bytes} (hi : i ≤ buf.length) (h : buf.drop i = xs ++ rest) :
    i + xs.length ≤ buf.length ∧ buf.drop (i + xs.length) = rest := by
  have hlen := congrArg List.length h
  rw [List.length_drop, List.length_append] at hlen
  refine ⟨by omega, ?_⟩
  rw [← List.drop_drop, h, List.drop_left]

theorem Recognises.end_le (h : Recognises buf skip F) {i j : Nat} (hi : i ≤ buf.length)
    (hj : skip i = some j) : j ≤ buf.length := by
  obtain ⟨xs, rest, -, hdrop, rfl⟩ := (h i j hi).mp hj
  exact (end_le_of_drop hi hdrop).1

/-- **One field behind another.** -/
theorem Recognises.bind (hF : Recognises buf skip F) (hG : Recognises buf skip' G) :
    Recognises buf (fun i => skip i >>= skip') (Follows F G) := by
  intro i j hi
  constructor
  · intro h
    obtain ⟨k, hk, hj⟩ := Option.bind_eq_some_iff.mp h
    obtain ⟨xs, rest, hxs, hdrop, rfl⟩ := (hF i k hi).mp hk
    obtain ⟨hk', hrest⟩ := end_le_of_drop hi hdrop
    obtain ⟨ys, rest', hys, hdrop', rfl⟩ := (hG _ j hk').mp hj
    refine ⟨xs ++ ys, rest', ⟨xs, ys, hxs, hys, rfl⟩, ?_, ?_⟩
    · rw [hdrop, ← hrest, hdrop', List.append_assoc]
    · rw [List.length_append, Nat.add_assoc]
  · rintro ⟨zs, rest, ⟨xs, ys, hxs, hys, rfl⟩, hdrop, rfl⟩
    rw [List.append_assoc] at hdrop
    obtain ⟨hk, hrest⟩ := end_le_of_drop hi hdrop
    refine Option.bind_eq_some_iff.mpr ⟨i + xs.length, (hF i _ hi).mpr ⟨xs, ys ++ rest, hxs, hdrop, rfl⟩, ?_⟩
    refine (hG _ _ hk).mpr ⟨ys, rest, hys, hrest, ?_⟩
    rw [List.length_append, Nat.add_assoc]

theorem Recognises.present {c : Prop} [Decidable c] (h : Recognises buf skip F) :
    Recognises buf (fun i => if c then skip i else some i) (Present c F) := by
  intro i j hi
  unfold Present
  split_ifs with hc
  · exact h i j hi
  · constructor
    · intro hj
      obtain rfl := Option.some.inj hj
      exact ⟨[], buf.drop i, rfl, rfl, rfl⟩
    · rintro ⟨xs, rest, rfl, -, rfl⟩
      rfl

/-- A field of a fixed length. -/
theorem recognises_length (buf : Bytes) (n : Nat) :
    Recognises buf (fun i => if buf.length < i + n then none else some (i + n)) (fun xs => xs.length = n) := by
  intro i j hi
  dsimp only
  split_ifs with hroom
  · constructor
    · intro h
      cases h
    · rintro ⟨xs, rest, hxs, hdrop, rfl⟩
      have hend := (end_le_of_drop hi hdrop).1
      omega
  · constructor
    · intro h
      obtain rfl := Option.some.inj h
      have htake : ((buf.drop i).take n).length = n := by
        rw [List.length_take, List.length_drop]
        omega
      exact ⟨_, _, htake, (List.take_append_drop n _).symm, by rw [htake]⟩
    · rintro ⟨xs, rest, hxs, -, rfl⟩
      rw [hxs]

/-- A string and the zero byte that ends it. -/
def ZeroEnded (xs : Bytes) : Prop := ∃ text, 0 ∉ text ∧ xs = text ++ [0]

/-- The first zero byte ends the string. -/
theorem recognises_zero_ended (buf : Bytes) :
    Recognises buf
      (fun i =>
        if buf.length ≤ i + (buf.drop i).findIdx (· == 0) then none
        else some (i + (buf.drop i).findIdx (· == 0) + 1))
      ZeroEnded := by
  intro i j hi
  constructor
  · intro h
    dsimp only at h
    split_ifs at h with hend
    obtain rfl := Option.some.inj h
    have hlt : (buf.drop i).findIdx (· == 0) < (buf.drop i).length := by
      rw [List.length_drop]
      omega
    have hzero : (buf.drop i)[(buf.drop i).findIdx (· == 0)] = 0 := by
      have hfound := List.findIdx_getElem (w := hlt)
      exact eq_of_beq hfound
    have htext : 0 ∉ (buf.drop i).take ((buf.drop i).findIdx (· == 0)) := by
      intro hmem
      obtain ⟨k, hk, hkz⟩ := List.mem_take_iff_getElem.mp hmem
      have hnot := List.not_of_lt_findIdx (show k < (buf.drop i).findIdx (· == 0) by omega)
      rw [hkz] at hnot
      cases hnot
    refine ⟨_, (buf.drop i).drop ((buf.drop i).findIdx (· == 0) + 1), ⟨_, htext, rfl⟩, ?_, ?_⟩
    · conv_lhs => rw [← List.take_append_drop ((buf.drop i).findIdx (· == 0)) (buf.drop i)]
      rw [List.append_assoc, List.singleton_append, List.drop_eq_getElem_cons hlt, hzero]
    · rw [List.length_append, List.length_take, List.length_singleton, Nat.min_eq_left (Nat.le_of_lt hlt)]
      omega
  · rintro ⟨_, rest, ⟨text, htext, rfl⟩, hdrop, rfl⟩
    have hfind : (buf.drop i).findIdx (· == 0) = text.length := by
      rw [hdrop, List.append_assoc, List.findIdx_append, if_neg]
      · simp [List.findIdx_cons]
      · rw [List.findIdx_lt_length]
        rintro ⟨b, hb, hbz⟩
        rw [eq_of_beq hbz] at hb
        exact htext hb
    obtain ⟨hend, -⟩ := end_le_of_drop hi hdrop
    rw [List.length_append, List.length_singleton] at hend ⊢
    dsimp only
    rw [hfind, if_neg (by omega)]
    congr 1

end EveOS
