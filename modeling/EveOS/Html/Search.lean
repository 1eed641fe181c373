/-
What `starts_ci` and `find_sub_ci` say, and how far they look.

`find_sub_ci` finds the first place where the pattern stands. Whether a pattern
stands somewhere depends on that place only, so a match inside the front part of a
document does not depend on what follows; and a pattern without `<` behind its
first byte does not reach beyond a `<`.
-/
import EveOS.Html.Css

set_option autoImplicit false

namespace EveOS.Html

def IsBlanks (w : Bytes) : Prop := ∀ c ∈ w, is_ws c = true

theorem is_blanks_nil : IsBlanks [] := fun _ hc => absurd hc List.not_mem_nil

theorem is_blanks_space : IsBlanks [32] := by
  intro c hc
  rw [List.mem_singleton.mp hc]
  decide

variable {s t pat : Bytes} {i k : Nat}

theorem starts_ci_iff : starts_ci s i pat = true ↔
    i + pat.length ≤ s.length ∧ ((s.drop i).take pat.length).map to_lower = pat := by
  unfold starts_ci
  rw [Bool.and_eq_true, decide_eq_true_eq, beq_iff_eq]

/-- The bytes of a match. -/
theorem starts_ci_getElem (h : starts_ci s i pat = true) {j : Nat} (hj : j < pat.length) :
    ∃ c, s[i + j]? = some c ∧ to_lower c = pat[j] := by
  obtain ⟨hfits, hmap⟩ := starts_ci_iff.mp h
  have hlt : i + j < s.length := by omega
  refine ⟨s[i + j], List.getElem?_eq_getElem hlt, ?_⟩
  have hget : ((s.drop i).take pat.length)[j]? = some s[i + j] := by
    rw [List.getElem?_take_of_lt hj, List.getElem?_drop, List.getElem?_eq_getElem hlt]
  have hmapped := congrArg (fun t : Bytes => t[j]?) hmap
  rw [List.getElem?_map, hget, List.getElem?_eq_getElem hj] at hmapped
  exact Option.some.inj hmapped

/-- A pattern that fits into the front part. -/
theorem starts_ci_append (h : i + pat.length ≤ s.length) (t : Bytes) :
    starts_ci (s ++ t) i pat = starts_ci s i pat := by
  rw [Bool.eq_iff_iff, starts_ci_iff, starts_ci_iff, List.drop_append_of_le_length (by omega),
    List.take_append_of_le_length (by rw [List.length_drop]; omega), List.length_append]
  constructor
  · rintro ⟨-, hmatch⟩
    exact ⟨h, hmatch⟩
  · rintro ⟨-, hmatch⟩
    exact ⟨by omega, hmatch⟩

/-- A pattern in the back part. -/
theorem starts_ci_append_right (s t pat : Bytes) :
    starts_ci (s ++ t) s.length pat = starts_ci t 0 pat := by
  rw [Bool.eq_iff_iff, starts_ci_iff, starts_ci_iff, List.drop_left, List.drop_zero,
    List.length_append]
  constructor
  · rintro ⟨hlen, hmatch⟩
    exact ⟨by omega, hmatch⟩
  · rintro ⟨hlen, hmatch⟩
    exact ⟨by omega, hmatch⟩

theorem starts_ci_in_front {x : Bytes} (h : InFront s i x) (pat : Bytes) : starts_ci s i pat = starts_ci x 0 pat := by
  obtain ⟨front, rfl, rfl⟩ := h
  exact starts_ci_append_right front x pat

/-- A pattern does not reach beyond a `<`, which can only be its first byte. -/
theorem starts_ci_cut (hpat : (60 : UInt8) ∉ pat.tail) (hs : s ≠ []) (t : Bytes) :
    starts_ci (s ++ 60 :: t) 0 pat = starts_ci s 0 pat := by
  by_cases hfits : 0 + pat.length ≤ s.length
  · exact starts_ci_append hfits _
  have hright : starts_ci s 0 pat = false := by
    rw [Bool.eq_false_iff, Ne, starts_ci_iff]
    exact fun h => hfits h.1
  have hleft : starts_ci (s ++ 60 :: t) 0 pat = false := by
    rw [Bool.eq_false_iff, Ne, starts_ci_iff]
    rintro ⟨-, hmatch⟩
    -- the byte of the pattern that stands at the `<`
    obtain ⟨b, s', rfl⟩ := List.exists_cons_of_ne_nil hs
    rw [List.length_cons] at hfits
    have hbyte : (b :: s' ++ 60 :: t)[s'.length + 1]? = some 60 := by simp
    have hat := congrArg (fun l => l[s'.length + 1]?) hmatch
    rw [List.getElem?_map, List.drop_zero, List.getElem?_take_of_lt (by omega), hbyte] at hat
    refine hpat (List.mem_of_getElem? (i := s'.length) ?_)
    rw [List.getElem?_tail]
    exact hat.symm
  rw [hright, hleft]

/-- Two patterns that stand at the same place: the shorter begins the longer. -/
theorem starts_ci_shorter {a b : Bytes} (ha : starts_ci s i a = true) (hb : starts_ci s i b = true)
    (hlen : a.length ≤ b.length) : a <+: b := by
  rw [starts_ci_iff] at ha hb
  have htake : b.take a.length = a := by
    rw [← hb.2, ← List.map_take, List.take_take, Nat.min_eq_left hlen]
    exact ha.2
  rw [← htake]
  exact List.take_prefix _ _

/-- Where one pattern stands, no other stands that differs from it. -/
theorem not_starts_ci {a b : Bytes} (ha : starts_ci s i a = true) (hab : ¬ a <+: b) (hba : ¬ b <+: a) :
    starts_ci s i b = false := by
  rw [Bool.eq_false_iff]
  intro hb
  rcases Nat.le_total a.length b.length with hlen | hlen
  · exact hab (starts_ci_shorter ha hb hlen)
  · exact hba (starts_ci_shorter hb ha hlen)

/-- **`find_sub_ci` finds the first match.** -/
theorem find_sub_ci_eq_some (hpat : pat ≠ []) : find_sub_ci s pat = some k ↔
    starts_ci s k pat = true ∧ ∀ j < k, starts_ci s j pat = false := by
  have hfits : ∀ j, starts_ci s j pat = true → j + pat.length ≤ s.length :=
    fun j hj => (starts_ci_iff.mp hj).1
  unfold find_sub_ci
  by_cases hshort : s.length < pat.length
  · rw [if_pos (.inr hshort)]
    constructor
    · exact nofun
    · rintro ⟨hk, -⟩
      have := hfits k hk
      omega
  · rw [if_neg (not_or.mpr ⟨hpat, hshort⟩), List.find?_range_eq_some, List.mem_range]
    constructor
    · rintro ⟨hk, -, hfirst⟩
      exact ⟨hk, fun j hj => by simpa using hfirst j hj⟩
    · rintro ⟨hk, hfirst⟩
      have := hfits k hk
      exact ⟨hk, by omega, fun j hj => by simp [hfirst j hj]⟩

theorem find_sub_ci_eq_none (hpat : pat ≠ []) : find_sub_ci s pat = none ↔
    ∀ j, starts_ci s j pat = false := by
  have hfits : ∀ j, starts_ci s j pat = true → j + pat.length ≤ s.length :=
    fun j hj => (starts_ci_iff.mp hj).1
  unfold find_sub_ci
  by_cases hshort : s.length < pat.length
  · rw [if_pos (.inr hshort)]
    refine ⟨fun _ j => ?_, fun _ => rfl⟩
    rw [Bool.eq_false_iff]
    intro hj
    have := hfits j hj
    omega
  · rw [if_neg (not_or.mpr ⟨hpat, hshort⟩), List.find?_range_eq_none]
    constructor
    · intro hno j
      by_cases hj : j < s.length - pat.length + 1
      · simpa using hno j hj
      · rw [Bool.eq_false_iff]
        intro hmatch
        have := hfits j hmatch
        omega
    · intro hno j _
      rw [hno j]
      rfl

/-- A match inside the front part is found whatever follows. -/
theorem find_sub_ci_append (hpat : pat ≠ []) (h : find_sub_ci (s ++ t) pat = some k)
    (hk : k + pat.length ≤ s.length) (u : Bytes) : find_sub_ci (s ++ u) pat = some k := by
  rw [find_sub_ci_eq_some hpat] at h ⊢
  have hsame : ∀ j ≤ k, starts_ci (s ++ u) j pat = starts_ci (s ++ t) j pat := by
    intro j hj
    rw [starts_ci_append (by omega), starts_ci_append (by omega)]
  refine ⟨(hsame k (Nat.le_refl k)).trans h.1, ?_⟩
  intro j hj
  exact (hsame j (Nat.le_of_lt hj)).trans (h.2 j hj)

/-- A pattern that is found stays found when something follows. -/
theorem find_sub_ci_isSome_append (hpat : pat ≠ []) (h : (find_sub_ci s pat).isSome = true) (t : Bytes) :
    (find_sub_ci (s ++ t) pat).isSome = true := by
  obtain ⟨k, hk⟩ := Option.isSome_iff_exists.mp h
  have hmatch := ((find_sub_ci_eq_some hpat).mp hk).1
  by_contra hnone
  rw [Bool.not_eq_true, Option.isSome_eq_false_iff, Option.isNone_iff_eq_none,
    find_sub_ci_eq_none hpat] at hnone
  have hno := hnone k
  rw [starts_ci_append (starts_ci_iff.mp hmatch).1, hmatch] at hno
  cases hno

/-- A text without the pattern still has none further on. -/
theorem find_sub_ci_drop (hpat : pat ≠ []) (h : find_sub_ci s pat = none) (n : Nat) :
    find_sub_ci (s.drop n) pat = none := by
  rw [find_sub_ci_eq_none hpat] at h ⊢
  intro j
  rw [Bool.eq_false_iff, Ne, starts_ci_iff, List.length_drop, List.drop_drop]
  rintro ⟨hlen, hmatch⟩
  by_cases hpos : pat.length = 0
  · exact hpat (List.length_eq_zero_iff.mp hpos)
  · have hno := h (n + j)
    rw [Bool.eq_false_iff, Ne, starts_ci_iff] at hno
    exact hno ⟨by omega, hmatch⟩

/-- **A byte that is not in the pattern separates.** -/
theorem find_sub_ci_skip (hpat : pat ≠ []) {c : UInt8} (hc : to_lower c ∉ pat) (hs : find_sub_ci s pat = none)
    (t : Bytes) : find_sub_ci (s ++ c :: t) pat = (find_sub_ci t pat).map fun k => s.length + 1 + k := by
  have hfront : ∀ j < s.length + 1, starts_ci (s ++ c :: t) j pat = false := by
    intro j hj
    by_cases hin : j + pat.length ≤ s.length
    · rw [starts_ci_append hin]
      exact (find_sub_ci_eq_none hpat).mp hs j
    · rw [Bool.eq_false_iff]
      intro hmatch
      obtain ⟨d, hd, hlower⟩ := starts_ci_getElem hmatch (show s.length - j < pat.length by omega)
      rw [show j + (s.length - j) = s.length by omega, List.getElem?_append_right (Nat.le_refl _), Nat.sub_self,
        List.getElem?_cons_zero] at hd
      obtain rfl := Option.some.inj hd
      exact hc (hlower ▸ List.getElem_mem _)
  have hback : ∀ j, starts_ci (s ++ c :: t) (s.length + 1 + j) pat = starts_ci t j pat := by
    intro j
    have hdrop : (s ++ c :: t).drop (s.length + 1 + j) = t.drop j := by
      rw [← List.drop_drop, List.append_cons, List.drop_left' (by rw [List.length_append, List.length_singleton])]
    rw [Bool.eq_iff_iff, starts_ci_iff, starts_ci_iff, hdrop, List.length_append, List.length_cons]
    exact and_congr_left' (by omega)
  cases hfind : find_sub_ci t pat with
  | none =>
    rw [Option.map_none, find_sub_ci_eq_none hpat]
    intro j
    by_cases hj : j < s.length + 1
    · exact hfront j hj
    · rw [show j = s.length + 1 + (j - (s.length + 1)) by omega, hback]
      exact (find_sub_ci_eq_none hpat).mp hfind _
  | some k =>
    obtain ⟨hmatch, hfirst⟩ := (find_sub_ci_eq_some hpat).mp hfind
    rw [Option.map_some, find_sub_ci_eq_some hpat, hback]
    refine ⟨hmatch, fun j hj => ?_⟩
    by_cases hlt : j < s.length + 1
    · exact hfront j hlt
    · rw [show j = s.length + 1 + (j - (s.length + 1)) by omega, hback]
      exact hfirst _ (by omega)

end EveOS.Html
