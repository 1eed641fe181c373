/-
Byte strings.

A Rust `&[u8]` is a `List UInt8` here, and a buffer that the program keeps
together with a fill count (`page` and `page_len`, say) is the list of its
filled part: nothing ever reads past the count, so the bytes behind it carry
no information. This file holds what is common to every reader of such
strings: indexing, big-endian words, and searching for a pattern with the
meaning of `windows(n).position(..)`.

Nothing in this file knows about the kernel.
-/
import Mathlib

set_option autoImplicit false

namespace EveOS

/-- A byte string: the Rust slice `&[u8]`. -/
abbrev Bytes := List UInt8

/-- The bytes of an ASCII literal, `b"..."` in the source. -/
def ascii (s : String) : Bytes := s.toList.map (fun c => UInt8.ofNat c.toNat)

/-- `buf[i]`, with the default `0` past the end. Whether an index can be past
the end is the business of the checked model, not of this reader. -/
def byteAt (buf : Bytes) (i : Nat) : UInt8 := buf.getD i 0

/-- `&buf[a..b]`. -/
def slice (buf : Bytes) (a b : Nat) : Bytes := (buf.drop a).take (b - a)

/-- An index behind a prefix is an index into the rest. -/
theorem byteAt_append_add (pre buf : Bytes) (i : Nat) :
    byteAt (pre ++ buf) (pre.length + i) = byteAt buf i := by
  unfold byteAt
  rw [List.getD_eq_getElem?_getD, List.getD_eq_getElem?_getD,
    List.getElem?_append_right (Nat.le_add_right _ _), Nat.add_sub_cancel_left]

/-- A slice inside the string, byte by byte. -/
theorem slice_eq_map {buf : Bytes} {a b : Nat} (hb : b ≤ buf.length) :
    slice buf a b = (List.range (b - a)).map fun k => byteAt buf (a + k) := by
  apply List.ext_getElem
  · simp only [slice, List.length_take, List.length_drop, List.length_map, List.length_range]
    omega
  · intro k hk hk'
    simp only [List.length_map, List.length_range] at hk'
    simp only [slice, List.getElem_take, List.getElem_drop, List.getElem_map, List.getElem_range,
      byteAt]
    rw [List.getD_eq_getElem?_getD, List.getElem?_eq_getElem (by omega), Option.getD_some]

/-! ## Big-endian words -/

/-- `u16::from_be_bytes`. -/
def be16 (hi lo : UInt8) : UInt16 := UInt16.ofNat (hi.toNat * 256 + lo.toNat)

/-- `u32::from_be_bytes`. -/
def be32 (b0 b1 b2 b3 : UInt8) : UInt32 :=
  UInt32.ofNat (b0.toNat * 16777216 + b1.toNat * 65536 + b2.toNat * 256 + b3.toNat)

/-- The big-endian 16-bit word at offset `i`. -/
def u16At (buf : Bytes) (i : Nat) : UInt16 := be16 (byteAt buf i) (byteAt buf (i + 1))

/-- The big-endian 32-bit word at offset `i`. -/
def u32At (buf : Bytes) (i : Nat) : UInt32 :=
  be32 (byteAt buf i) (byteAt buf (i + 1)) (byteAt buf (i + 2)) (byteAt buf (i + 3))

/-- `u16::to_be_bytes`. -/
def u16Bytes (w : UInt16) : Bytes := [(w >>> 8).toUInt8, w.toUInt8]

/-- `u32::to_be_bytes`. -/
def u32Bytes (w : UInt32) : Bytes :=
  [(w >>> 24).toUInt8, (w >>> 16).toUInt8, (w >>> 8).toUInt8, w.toUInt8]

/-- Reading back the two bytes of a word gives the word. -/
theorem be16_u16Bytes (w : UInt16) : be16 (w >>> 8).toUInt8 w.toUInt8 = w := by
  have hw : w.toNat < 65536 := w.toNat_lt
  apply UInt16.toNat_inj.mp
  simp only [be16, UInt16.toNat_ofNat', UInt16.toNat_toUInt8, UInt16.toNat_shiftRight,
    Nat.shiftRight_eq_div_pow, UInt16.reduceToNat, Nat.reduceMod, Nat.reducePow]
  omega

/-- Reading back the four bytes of a word gives the word. -/
theorem be32_u32Bytes (w : UInt32) :
    be32 (w >>> 24).toUInt8 (w >>> 16).toUInt8 (w >>> 8).toUInt8 w.toUInt8 = w := by
  have hw : w.toNat < 4294967296 := w.toNat_lt
  apply UInt32.toNat_inj.mp
  simp only [be32, UInt32.toNat_ofNat', UInt32.toNat_toUInt8, UInt32.toNat_shiftRight,
    Nat.shiftRight_eq_div_pow, UInt32.reduceToNat, Nat.reduceMod, Nat.reducePow]
  omega

/-! ## Letters and patterns -/

/-- `u8::to_ascii_lowercase`. -/
def lowerAscii (b : UInt8) : UInt8 := if 65 ≤ b ∧ b ≤ 90 then b + 32 else b

/-- `buf.windows(pat.len()).position(|w| w == pat)`: the first index at which
`pat` stands in `buf`. -/
def findWindow (pat : Bytes) : Bytes → Option Nat
  | [] => if pat = [] then some 0 else none
  | b :: rest => if pat.isPrefixOf (b :: rest) then some 0 else (findWindow pat rest).map (· + 1)

section FindWindow

variable {pat : Bytes}

/-- A pattern that is found is found inside the string. -/
theorem findWindow_le {xs : Bytes} {p : Nat} (h : findWindow pat xs = some p) :
    p + pat.length ≤ xs.length := by
  induction xs generalizing p with
  | nil =>
    unfold findWindow at h
    split_ifs at h with hp
    simp only [Option.some.injEq] at h
    subst h hp
    simp
  | cons b xs ih =>
    unfold findWindow at h
    split_ifs at h with hp
    · have hle : pat.length ≤ (b :: xs).length := (List.isPrefixOf_iff_prefix.mp hp).length_le
      simp only [Option.some.injEq] at h
      omega
    · cases hx : findWindow pat xs with
      | none => rw [hx] at h; cases h
      | some q =>
        rw [hx] at h
        have hq := ih hx
        simp only [Option.map_some, Option.some.injEq] at h
        simp only [List.length_cons]
        omega

/-- Bytes behind a found pattern do not matter. -/
theorem findWindow_append {xs : Bytes} {p : Nat} (h : findWindow pat xs = some p) (ys : Bytes) :
    findWindow pat (xs ++ ys) = some p := by
  induction xs generalizing p with
  | nil =>
    unfold findWindow at h
    split_ifs at h with hp
    simp only [Option.some.injEq] at h
    subst h hp
    cases ys with
    | nil => rfl
    | cons y ys => simp [findWindow]
  | cons b xs ih =>
    rw [List.cons_append]
    unfold findWindow at h ⊢
    split_ifs at h with hp
    · rw [if_pos]
      · exact h
      · rw [List.isPrefixOf_iff_prefix] at hp ⊢
        exact hp.trans (List.prefix_append (b :: xs) ys)
    · cases hx : findWindow pat xs with
      | none => rw [hx] at h; cases h
      | some q =>
        rw [hx] at h
        have hnot : pat.isPrefixOf (b :: (xs ++ ys)) ≠ true := by
          -- the pattern stands inside `xs`, so it is no longer than `b :: xs`
          intro hpre
          have hlen := findWindow_le hx
          apply hp
          rw [List.isPrefixOf_iff_prefix] at hpre ⊢
          refine List.prefix_of_prefix_length_le hpre (List.prefix_append (b :: xs) ys) ?_
          simp only [List.length_cons]
          omega
        rw [if_neg hnot, ih hx]
        exact h

theorem findWindow_none_of_append {xs ys : Bytes} (h : findWindow pat (xs ++ ys) = none) :
    findWindow pat xs = none := by
  cases hx : findWindow pat xs with
  | none => rfl
  | some p =>
    rw [findWindow_append hx ys] at h
    cases h

/-- The string up to the end of a found pattern is enough to find it. -/
theorem findWindow_take {xs : Bytes} {p : Nat} (h : findWindow pat xs = some p) :
    findWindow pat (xs.take (p + pat.length)) = some p := by
  induction xs generalizing p with
  | nil => simpa using h
  | cons b xs ih =>
    unfold findWindow at h
    split_ifs at h with hp
    · simp only [Option.some.injEq] at h
      subst h
      rw [Nat.zero_add]
      have htake : (b :: xs).take pat.length = pat := by
        rw [List.isPrefixOf_iff_prefix] at hp
        exact (List.prefix_iff_eq_take.mp hp).symm
      rw [htake]
      cases pat with
      | nil => rfl
      | cons a pat => simp [findWindow]
    · cases hx : findWindow pat xs with
      | none => rw [hx] at h; cases h
      | some q =>
        rw [hx] at h
        simp only [Option.map_some, Option.some.injEq] at h
        subst h
        rw [show q + 1 + pat.length = (q + pat.length) + 1 by omega, List.take_succ_cons]
        unfold findWindow
        rw [if_neg, ih hx]
        · rfl
        · intro hpre
          apply hp
          rw [List.isPrefixOf_iff_prefix] at hpre ⊢
          refine hpre.trans ?_
          exact (List.prefix_cons_inj b).mpr (List.take_prefix _ _)

end FindWindow

end EveOS
