/-
UTF-8: texts that are the encoding of a list of characters.

The first byte of a character says how long it is, and the others are
continuation bytes, which begin no character. So a text can be cut in front of any
byte that is none (`WellFormed.cut`).

Nothing in this file knows about the kernel.
-/
import EveOS.Lib.Bytes

set_option autoImplicit false

namespace EveOS

/-- The bytes encode characters. -/
def WellFormed (s : Bytes) : Prop := ∃ cs : List Char, s = cs.flatMap String.utf8EncodeChar

/-- A byte that stands inside a character. -/
def IsContinuation (c : UInt8) : Prop := c &&& 0xC0 = 0x80

instance (c : UInt8) : Decidable (IsContinuation c) := inferInstanceAs (Decidable (_ = _))

theorem WellFormed.nil : WellFormed [] := ⟨[], rfl⟩

theorem WellFormed.append {s t : Bytes} (hs : WellFormed s) (ht : WellFormed t) : WellFormed (s ++ t) := by
  obtain ⟨cs, rfl⟩ := hs
  obtain ⟨ds, rfl⟩ := ht
  exact ⟨cs ++ ds, List.flatMap_append.symm⟩

theorem WellFormed.char (c : Char) : WellFormed (String.utf8EncodeChar c) := ⟨[c], by simp⟩

theorem WellFormed.flatten {ss : List Bytes} (h : ∀ s ∈ ss, WellFormed s) : WellFormed ss.flatten := by
  induction ss with
  | nil => exact .nil
  | cons s ss ih =>
    rw [List.flatten_cons]
    exact (h s List.mem_cons_self).append (ih fun t ht => h t (List.mem_cons_of_mem s ht))

/-! ## The bytes of a character -/

theorem continuation_of_lt {k : Nat} (h : k < 64) : IsContinuation (UInt8.ofNat (k + 0x80)) := by
  have hall : ∀ k : Fin 64, IsContinuation (UInt8.ofNat (k.val + 0x80)) := by decide
  exact hall ⟨k, h⟩

/-- How many continuation bytes follow the first byte of a character. -/
def Leads (b : UInt8) : Nat → Prop
  | 0 => b ≤ 0x7F
  | 1 => 0xC2 ≤ b ∧ b ≤ 0xDF
  | 2 => 0xE0 ≤ b ∧ b ≤ 0xEF
  | 3 => 0xF0 ≤ b ∧ b ≤ 0xF4
  | _ => False

theorem ofNat_between {lo hi : UInt8} {n : Nat} (hlo : lo.toNat ≤ n) (hhi : n ≤ hi.toNat) :
    lo ≤ UInt8.ofNat n ∧ UInt8.ofNat n ≤ hi := by
  have hn : (UInt8.ofNat n).toNat = n := by
    have := hi.toNat_lt
    rw [UInt8.toNat_ofNat']
    exact Nat.mod_eq_of_lt (by omega)
  rw [UInt8.le_iff_toNat_le, UInt8.le_iff_toNat_le, hn]
  exact ⟨hlo, hhi⟩

/-- **The shape of a character.** -/
theorem utf8EncodeChar_shape (c : Char) :
    ∃ b t, String.utf8EncodeChar c = b :: t ∧ Leads b t.length ∧ ∀ d ∈ t, IsContinuation d := by
  have hmax : c.val.toNat ≤ 0x10ffff := by
    have hvalid := c.valid
    simp only [UInt32.isValidChar, Nat.isValidChar] at hvalid
    omega
  have hcont : ∀ n, IsContinuation (UInt8.ofNat (n % 0x40 + 0x80)) := fun n =>
    continuation_of_lt (Nat.mod_lt n (by decide))
  unfold String.utf8EncodeChar
  dsimp only
  generalize c.val.toNat = v at hmax
  by_cases h1 : v ≤ 0x7f
  · rw [if_pos h1]
    have hb : 0 ≤ UInt8.ofNat v ∧ UInt8.ofNat v ≤ 0x7F := ofNat_between (Nat.zero_le v) h1
    exact ⟨_, [], rfl, hb.2, by simp⟩
  rw [if_neg h1]
  by_cases h2 : v ≤ 0x7ff
  · rw [if_pos h2]
    refine ⟨_, _, rfl, ofNat_between ?_ ?_, ?_⟩
    · show 0xC2 ≤ v / 64 % 0x20 + 0xc0
      omega
    · show v / 64 % 0x20 + 0xc0 ≤ 0xDF
      omega
    · simp only [List.mem_singleton, forall_eq]
      exact hcont v
  rw [if_neg h2]
  by_cases h3 : v ≤ 0xffff
  · rw [if_pos h3]
    refine ⟨_, _, rfl, ofNat_between ?_ ?_, ?_⟩
    · show 0xE0 ≤ v / 4096 % 0x10 + 0xe0
      omega
    · show v / 4096 % 0x10 + 0xe0 ≤ 0xEF
      omega
    · simp only [List.mem_cons, List.not_mem_nil, or_false, forall_eq_or_imp, forall_eq]
      exact ⟨hcont _, hcont v⟩
  · rw [if_neg h3]
    refine ⟨_, _, rfl, ofNat_between ?_ ?_, ?_⟩
    · show 0xF0 ≤ v / 262144 % 0x08 + 0xf0
      omega
    · show v / 262144 % 0x08 + 0xf0 ≤ 0xF4
      omega
    · simp only [List.mem_cons, List.not_mem_nil, or_false, forall_eq_or_imp, forall_eq]
      exact ⟨hcont _, hcont _, hcont v⟩

theorem Leads.bounds {b : UInt8} {n : Nat} (h : Leads b n) :
    (n = 0 ∧ b.toNat ≤ 127) ∨ (n = 1 ∧ 194 ≤ b.toNat ∧ b.toNat ≤ 223) ∨
      (n = 2 ∧ 224 ≤ b.toNat ∧ b.toNat ≤ 239) ∨ (n = 3 ∧ 240 ≤ b.toNat ∧ b.toNat ≤ 244) := by
  unfold Leads at h
  split at h
  · exact .inl ⟨rfl, UInt8.le_iff_toNat_le.mp h⟩
  · exact .inr (.inl ⟨rfl, UInt8.le_iff_toNat_le.mp h.1, UInt8.le_iff_toNat_le.mp h.2⟩)
  · exact .inr (.inr (.inl ⟨rfl, UInt8.le_iff_toNat_le.mp h.1, UInt8.le_iff_toNat_le.mp h.2⟩))
  · exact .inr (.inr (.inr ⟨rfl, UInt8.le_iff_toNat_le.mp h.1, UInt8.le_iff_toNat_le.mp h.2⟩))
  · exact h.elim

theorem IsContinuation.bounds {b : UInt8} (h : IsContinuation b) : 128 ≤ b.toNat ∧ b.toNat ≤ 191 := by
  have htable : ∀ k : Fin 256, IsContinuation (UInt8.ofFin k) → 128 ≤ k.val ∧ k.val ≤ 191 := by
    decide +kernel
  exact htable b.toFin h

/-- The first byte of a character is no continuation byte. -/
theorem Leads.not_continuation {b : UInt8} {n : Nat} (h : Leads b n) : ¬ IsContinuation b := by
  intro hcont
  have hb := h.bounds
  have hc := hcont.bounds
  omega

theorem not_continuation_of_ascii {c : UInt8} (h : c < 0x80) : ¬ IsContinuation c := by
  refine Leads.not_continuation (n := 0) ?_
  rw [UInt8.lt_iff_toNat_lt] at h
  show c ≤ 0x7F
  rw [UInt8.le_iff_toNat_le]
  exact Nat.le_of_lt_succ h

/-! ## Which bytes are a character -/

/-- The second byte behind these first bytes makes a form that is too long, a surrogate,
or a number above the last character. -/
def NoCharacter (b : UInt8) (t : Bytes) : Prop :=
  ∃ d u, t = d :: u ∧
    (b = 0xE0 ∧ d < 0xA0 ∨ b = 0xED ∧ 0xA0 ≤ d ∨ b = 0xF0 ∧ d < 0x90 ∨ b = 0xF4 ∧ 0x90 ≤ d)

/-- The same as numbers. -/
theorem noCharacter_cons {b d : UInt8} {u : Bytes} :
    NoCharacter b (d :: u) ↔
      b.toNat = 224 ∧ d.toNat < 160 ∨ b.toNat = 237 ∧ 160 ≤ d.toNat ∨ b.toNat = 240 ∧ d.toNat < 144 ∨
        b.toNat = 244 ∧ 144 ≤ d.toNat := by
  have hbyte : ∀ {c : UInt8} (k : UInt8), c = k ↔ c.toNat = k.toNat := fun k => UInt8.toNat_inj.symm
  unfold NoCharacter
  constructor
  · rintro ⟨d', u', heq, h⟩
    obtain ⟨rfl, -⟩ := List.cons.inj heq
    simpa only [hbyte, UInt8.lt_iff_toNat_lt, UInt8.le_iff_toNat_le, UInt8.reduceToNat] using h
  · intro h
    refine ⟨d, u, rfl, ?_⟩
    simpa only [hbyte, UInt8.lt_iff_toNat_lt, UInt8.le_iff_toNat_le, UInt8.reduceToNat] using h

theorem toNat_ofNat_of_le {n : Nat} (h : n ≤ 255) : (UInt8.ofNat n).toNat = n := by
  rw [UInt8.toNat_ofNat']
  exact Nat.mod_eq_of_lt (by omega)

/-- No character begins so. -/
theorem not_noCharacter_of_char {c : Char} {b : UInt8} {t : Bytes} (h : String.utf8EncodeChar c = b :: t) :
    ¬ NoCharacter b t := by
  have hvalid : c.val.toNat < 0xD800 ∨ 0xDFFF < c.val.toNat ∧ c.val.toNat < 0x110000 := c.valid
  unfold String.utf8EncodeChar at h
  dsimp only at h
  generalize c.val.toNat = v at hvalid h
  by_cases h1 : v ≤ 0x7f
  · rw [if_pos h1] at h
    rw [← (List.cons.inj h).2]
    rintro ⟨d, u, hnil, -⟩
    cases hnil
  rw [if_neg h1] at h
  by_cases h2 : v ≤ 0x7ff
  · rw [if_pos h2] at h
    obtain ⟨rfl, rfl⟩ := List.cons.inj h
    rw [noCharacter_cons, toNat_ofNat_of_le (by omega), toNat_ofNat_of_le (by omega)]
    omega
  rw [if_neg h2] at h
  by_cases h3 : v ≤ 0xffff
  · rw [if_pos h3] at h
    obtain ⟨rfl, rfl⟩ := List.cons.inj h
    rw [noCharacter_cons, toNat_ofNat_of_le (by omega), toNat_ofNat_of_le (by omega)]
    omega
  · rw [if_neg h3] at h
    obtain ⟨rfl, rfl⟩ := List.cons.inj h
    rw [noCharacter_cons, toNat_ofNat_of_le (by omega), toNat_ofNat_of_le (by omega)]
    omega

/-- A number that is a character. -/
theorem exists_char {v : Nat} (h : v < 0xD800 ∨ 0xDFFF < v ∧ v < 0x110000) : ∃ c : Char, c.val.toNat = v := by
  have hval : (UInt32.ofNat v).toNat = v := by
    rw [UInt32.toNat_ofNat']
    exact Nat.mod_eq_of_lt (by omega)
  exact ⟨⟨UInt32.ofNat v, by rw [UInt32.isValidChar, hval]; exact h⟩, hval⟩

/-- Any other byte with its continuation bytes is one. -/
theorem exists_char_of_not {b : UInt8} {t : Bytes} (hlead : Leads b t.length) (hcont : ∀ d ∈ t, IsContinuation d)
    (hno : ¬ NoCharacter b t) : ∃ c, String.utf8EncodeChar c = b :: t := by
  have hbyte : ∀ {c : UInt8} {n : Nat}, n = c.toNat → UInt8.ofNat n = c := by
    rintro c n rfl
    exact UInt8.ofNat_toNat
  rcases hlead.bounds with ⟨hlen, hb⟩ | ⟨hlen, hb⟩ | ⟨hlen, hb⟩ | ⟨hlen, hb⟩
  · obtain rfl := List.length_eq_zero_iff.mp hlen
    obtain ⟨c, hc⟩ := exists_char (v := b.toNat) (by omega)
    refine ⟨c, ?_⟩
    unfold String.utf8EncodeChar
    dsimp only
    rw [hc, if_pos hb, hbyte rfl]
  · obtain ⟨d, rfl⟩ := List.length_eq_one_iff.mp hlen
    have hd := (hcont d (by simp)).bounds
    obtain ⟨c, hc⟩ := exists_char (v := (b.toNat - 192) * 64 + (d.toNat - 128)) (by omega)
    refine ⟨c, ?_⟩
    unfold String.utf8EncodeChar
    dsimp only
    rw [hc, if_neg (by omega), if_pos (by omega), hbyte (by omega : _ = b.toNat), hbyte (by omega : _ = d.toNat)]
  · obtain ⟨d, e, rfl⟩ := List.length_eq_two.mp hlen
    have hd := (hcont d (by simp)).bounds
    have he := (hcont e (by simp)).bounds
    rw [noCharacter_cons] at hno
    obtain ⟨c, hc⟩ := exists_char (v := (b.toNat - 224) * 4096 + (d.toNat - 128) * 64 + (e.toNat - 128)) (by omega)
    refine ⟨c, ?_⟩
    unfold String.utf8EncodeChar
    dsimp only
    rw [hc, if_neg (by omega), if_neg (by omega), if_pos (by omega), hbyte (by omega : _ = b.toNat),
      hbyte (by omega : _ = d.toNat), hbyte (by omega : _ = e.toNat)]
  · obtain ⟨d, e, f, rfl⟩ := List.length_eq_three.mp hlen
    have hd := (hcont d (by simp)).bounds
    have he := (hcont e (by simp)).bounds
    have hf := (hcont f (by simp)).bounds
    rw [noCharacter_cons] at hno
    obtain ⟨c, hc⟩ := exists_char
      (v := (b.toNat - 240) * 262144 + (d.toNat - 128) * 4096 + (e.toNat - 128) * 64 + (f.toNat - 128)) (by omega)
    refine ⟨c, ?_⟩
    unfold String.utf8EncodeChar
    dsimp only
    rw [hc, if_neg (by omega), if_neg (by omega), if_neg (by omega), hbyte (by omega : _ = b.toNat),
      hbyte (by omega : _ = d.toNat), hbyte (by omega : _ = e.toNat), hbyte (by omega : _ = f.toNat)]

/-- **Which bytes are a character.** -/
theorem utf8EncodeChar_iff {b : UInt8} {t : Bytes} :
    (∃ c, String.utf8EncodeChar c = b :: t) ↔
      Leads b t.length ∧ (∀ d ∈ t, IsContinuation d) ∧ ¬ NoCharacter b t := by
  constructor
  · rintro ⟨c, hc⟩
    obtain ⟨b', t', henc, hlead, hcont⟩ := utf8EncodeChar_shape c
    rw [hc] at henc
    obtain ⟨rfl, rfl⟩ := List.cons.inj henc
    exact ⟨hlead, hcont, not_noCharacter_of_char hc⟩
  · rintro ⟨hlead, hcont, hno⟩
    exact exists_char_of_not hlead hcont hno

/-! ## Cutting -/

/-- **A text is cut between characters in front of a byte that begins one.** -/
theorem WellFormed.cut {s t : Bytes} (h : WellFormed (s ++ t)) (ht : ∀ c, t.head? = some c → ¬ IsContinuation c) :
    WellFormed s ∧ WellFormed t := by
  obtain ⟨cs, hcs⟩ := h
  induction cs generalizing s with
  | nil =>
    obtain ⟨rfl, rfl⟩ := List.append_eq_nil_iff.mp hcs
    exact ⟨.nil, .nil⟩
  | cons c cs ih =>
    rw [List.flatMap_cons] at hcs
    obtain ⟨b, u, henc, hlead, hcont⟩ := utf8EncodeChar_shape c
    rcases List.append_eq_append_iff.mp hcs with ⟨inside, hs, ht'⟩ | ⟨more, rfl, hmore⟩
    · cases inside with
      | nil =>
        rw [List.append_nil] at hs
        rw [List.nil_append] at ht'
        exact ⟨hs ▸ .char c, cs, ht'⟩
      | cons d inside =>
        cases s with
        | nil => exact ⟨.nil, c :: cs, by rw [List.flatMap_cons, ← hcs, List.nil_append]⟩
        | cons a s =>
          -- `t` would begin inside the character
          rw [henc, List.cons_append] at hs
          have hd : IsContinuation d := hcont d (by rw [(List.cons.inj hs).2]; simp)
          exact absurd hd (ht d (by rw [ht']; rfl))
    · obtain ⟨hwell, ht⟩ := ih hmore.symm
      exact ⟨(WellFormed.char c).append hwell, ht⟩

/-- The text begins with a character. -/
theorem WellFormed.cons {b : UInt8} {s : Bytes} (h : WellFormed (b :: s)) :
    ∃ u t, s = u ++ t ∧ WellFormed (b :: u) ∧ WellFormed t ∧ Leads b u.length ∧ ∀ d ∈ u, IsContinuation d := by
  obtain ⟨cs, hcs⟩ := h
  cases cs with
  | nil => cases hcs
  | cons c cs =>
    obtain ⟨b', u, henc, hlead, hcont⟩ := utf8EncodeChar_shape c
    rw [List.flatMap_cons, henc, List.cons_append] at hcs
    obtain ⟨rfl, rfl⟩ := List.cons.inj hcs
    exact ⟨u, _, rfl, henc ▸ .char c, ⟨cs, rfl⟩, hlead, hcont⟩

/-- Behind an ASCII byte another character begins. -/
theorem WellFormed.behind_ascii {b : UInt8} {s : Bytes} (h : WellFormed (b :: s)) (hb : b < 0x80) :
    WellFormed s := by
  obtain ⟨u, t, rfl, -, ht, hlead, -⟩ := h.cons
  have hu : u = [] := by
    rw [← List.length_eq_zero_iff]
    have hlead := hlead.bounds
    have hb : b.toNat < 128 := UInt8.lt_iff_toNat_lt.mp hb
    omega
  rw [hu, List.nil_append]
  exact ht

/-- What stands in front of an ASCII byte, and what stands behind it. -/
theorem WellFormed.cut_ascii {s t : Bytes} {c : UInt8} (h : WellFormed (s ++ c :: t)) (hc : c < 0x80) :
    WellFormed s ∧ WellFormed t := by
  obtain ⟨hs, hct⟩ := h.cut (t := c :: t) fun d hd => by
    obtain rfl := Option.some.inj hd
    exact not_continuation_of_ascii hc
  exact ⟨hs, hct.behind_ascii hc⟩

theorem WellFormed.of_ascii {s : Bytes} (h : ∀ c ∈ s, c < 0x80) : WellFormed s := by
  induction s with
  | nil => exact .nil
  | cons c s ih =>
    have hc : c.toNat < 128 := UInt8.lt_iff_toNat_lt.mp (h c List.mem_cons_self)
    have hval : (Char.ofUInt8 c).val.toNat = c.toNat := UInt8.toNat_toUInt32 c
    have henc : String.utf8EncodeChar (Char.ofUInt8 c) = [c] := by
      unfold String.utf8EncodeChar
      dsimp only
      rw [hval, if_pos (Nat.le_of_lt_succ hc), UInt8.ofNat_toNat]
    have hfirst : WellFormed [c] := henc ▸ .char _
    exact hfirst.append (ih fun d hd => h d (List.mem_cons_of_mem c hd))

end EveOS
