/-
Checked characters: `utf8_lead_len` and `utf8_seq_valid` of `kernel/src/emoji_glyph.rs`.

The first byte is checked against the forms that are too long or too large, as far as it
can tell: C0, C1 and F5 to FF begin nothing. What E0, ED, F0 and F4 say of the second
byte is not checked.
-/
import EveOS.Html.Tag
import EveOS.Lib.Utf8

set_option autoImplicit false

namespace EveOS.Html

/-- What the check should say of `s`, and what the length of a character should be. -/
structure Validated (s : Bytes) : Prop where
  valid_iff : utf8_seq_valid s = true ↔ ∃ c, String.utf8EncodeChar c <+: s
  length : ∀ c, String.utf8EncodeChar c <+: s → s.head?.bind utf8_lead_len = some (String.utf8EncodeChar c).length

/-- A first byte with its continuation bytes that are no character: the second byte is
one that the first does not allow. -/
def Misread (s : Bytes) : Prop :=
  ∃ b t rest, s = b :: (t ++ rest) ∧ Leads b t.length ∧ (∀ d ∈ t, IsContinuation d) ∧ NoCharacter b t

theorem lead_len_ne_zero {b : UInt8} {n : Nat} (h : utf8_lead_len b = some n) : n ≠ 0 := by
  rintro rfl
  unfold utf8_lead_len at h
  split_ifs at h <;> cases Option.some.inj h

theorem utf8_lead_len_iff (b : UInt8) (n : Nat) : utf8_lead_len b = some (n + 1) ↔ Leads b n := by
  constructor
  · intro h
    unfold utf8_lead_len at h
    split_ifs at h with h1 h2 h3 h4
    · obtain rfl : 0 = n := Nat.succ.inj (Option.some.inj h)
      exact h1
    · obtain rfl : 1 = n := Nat.succ.inj (Option.some.inj h)
      exact h2
    · obtain rfl : 2 = n := Nat.succ.inj (Option.some.inj h)
      exact h3
    · obtain rfl : 3 = n := Nat.succ.inj (Option.some.inj h)
      exact h4
  · intro h
    have hb := h.bounds
    unfold utf8_lead_len
    simp only [UInt8.le_iff_toNat_le, UInt8.reduceToNat]
    split_ifs <;> congr 1 <;> omega

/-- **What the check accepts**: a first byte with its continuation bytes. -/
theorem utf8_seq_valid_iff (s : Bytes) :
    utf8_seq_valid s = true ↔ ∃ b t rest, s = b :: (t ++ rest) ∧ Leads b t.length ∧ ∀ d ∈ t, IsContinuation d := by
  cases s with
  | nil =>
    refine iff_of_false (by decide) ?_
    rintro ⟨b, t, rest, hnil, -⟩
    cases hnil
  | cons b s =>
    unfold utf8_seq_valid
    rw [List.head?_cons, Option.bind_some]
    constructor
    · intro h
      cases hlen : utf8_lead_len b with
      | none =>
        rw [hlen] at h
        cases h
      | some n =>
        rw [hlen] at h
        obtain ⟨n, rfl⟩ : ∃ m, n = m + 1 := Nat.exists_eq_succ_of_ne_zero (lead_len_ne_zero hlen)
        simp only [Bool.and_eq_true, decide_eq_true_eq, List.length_cons, List.take_succ_cons, List.tail_cons,
          List.all_eq_true, beq_iff_eq] at h
        have htake : (s.take n).length = n := by
          rw [List.length_take]
          omega
        refine ⟨b, s.take n, s.drop n, by rw [List.take_append_drop], ?_, h.2⟩
        rw [htake]
        exact (utf8_lead_len_iff b n).mp hlen
    · rintro ⟨b', t, rest, heq, hlead, hcont⟩
      obtain ⟨rfl, rfl⟩ := List.cons.inj heq
      rw [(utf8_lead_len_iff b t.length).mpr hlead]
      simp only [Bool.and_eq_true, decide_eq_true_eq, List.length_cons, List.take_succ_cons, List.tail_cons,
        List.all_eq_true, beq_iff_eq, List.take_left, List.length_append]
      exact ⟨by omega, hcont⟩

/-- A character at the front. -/
theorem prefix_char_iff (s : Bytes) :
    (∃ c, String.utf8EncodeChar c <+: s) ↔
      ∃ b t rest, s = b :: (t ++ rest) ∧ Leads b t.length ∧ (∀ d ∈ t, IsContinuation d) ∧ ¬ NoCharacter b t := by
  constructor
  · rintro ⟨c, rest, rfl⟩
    obtain ⟨b, t, henc, -, -⟩ := utf8EncodeChar_shape c
    obtain ⟨hlead, hcont, hno⟩ := utf8EncodeChar_iff.mp ⟨c, henc⟩
    exact ⟨b, t, rest, by rw [henc, List.cons_append], hlead, hcont, hno⟩
  · rintro ⟨b, t, rest, rfl, hlead, hcont, hno⟩
    obtain ⟨c, hc⟩ := utf8EncodeChar_iff.mpr ⟨hlead, hcont, hno⟩
    exact ⟨c, rest, by rw [hc, List.cons_append]⟩

/-- The first byte says where the continuation bytes end. -/
theorem split_unique {b b' : UInt8} {t t' rest rest' : Bytes} (heq : b :: (t ++ rest) = b' :: (t' ++ rest'))
    (h : Leads b t.length) (h' : Leads b' t'.length) : b = b' ∧ t = t' := by
  obtain ⟨rfl, htail⟩ := List.cons.inj heq
  have hlen : t.length = t'.length := by
    have hb := h.bounds
    have hb' := h'.bounds
    omega
  exact ⟨rfl, (List.append_inj htail hlen).1⟩

/-- **When characters are checked**: if no second byte is there that its first byte does
not allow. -/
theorem validated_iff (s : Bytes) : Validated s ↔ ¬ Misread s := by
  constructor
  · rintro ⟨hvalid, -⟩ ⟨b, t, rest, rfl, hlead, hcont, hno⟩
    obtain ⟨b', t', rest', heq, hlead', -, hno'⟩ := (prefix_char_iff _).mp
      (hvalid.mp ((utf8_seq_valid_iff _).mpr ⟨b, t, rest, rfl, hlead, hcont⟩))
    obtain ⟨rfl, rfl⟩ := split_unique heq hlead hlead'
    exact hno' hno
  · intro hread
    refine ⟨?_, ?_⟩
    · rw [utf8_seq_valid_iff, prefix_char_iff]
      constructor
      · rintro ⟨b, t, rest, rfl, hlead, hcont⟩
        exact ⟨b, t, rest, rfl, hlead, hcont, fun hno => hread ⟨b, t, rest, rfl, hlead, hcont, hno⟩⟩
      · rintro ⟨b, t, rest, rfl, hlead, hcont, -⟩
        exact ⟨b, t, rest, rfl, hlead, hcont⟩
    · rintro c ⟨rest, rfl⟩
      obtain ⟨b, t, henc, hlead, -⟩ := utf8EncodeChar_shape c
      rw [henc, List.cons_append, List.head?_cons, Option.bind_some, List.length_cons]
      exact (utf8_lead_len_iff b t.length).mpr hlead

/-- A surrogate is taken for a character. -/
theorem surrogate_is_accepted : utf8_seq_valid [0xED, 0xA0, 0x80] = true ∧ ¬ Validated [0xED, 0xA0, 0x80] := by
  refine ⟨by decide, ?_⟩
  rintro ⟨hvalid, -⟩
  obtain ⟨b, t, rest, heq, hlead, hcont, hno⟩ := (prefix_char_iff _).mp (hvalid.mp (by decide))
  have hsplit : (0xED : UInt8) :: ([0xA0, 0x80] ++ []) = b :: (t ++ rest) := heq
  have hlead' : Leads 0xED [(0xA0 : UInt8), 0x80].length := ⟨by decide, by decide⟩
  obtain ⟨rfl, rfl⟩ := split_unique hsplit hlead' hlead
  exact hno (noCharacter_cons.mpr (.inr (.inl ⟨rfl, by decide⟩)))

end EveOS.Html
