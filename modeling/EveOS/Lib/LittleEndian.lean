/-
Little-endian words.

A word of `n` bytes is a number below `256 ^ n`, and its bytes are its digits
in base 256 with the lowest one first. `u16::from_le_bytes`,
`u32::from_le_bytes` and `u64::from_le_bytes` are all `leNat`, and the three
`to_le_bytes` are `leBytes` at the widths 2, 4 and 8, so what is proved here at
every width serves all of them.

Nothing in this file knows about the kernel.
-/
import EveOS.Lib.Bytes

set_option autoImplicit false

namespace EveOS

/-- The number whose digits in base 256 are `bs`, lowest first. -/
def leNat : Bytes → Nat
  | [] => 0
  | b :: bs => b.toNat + 256 * leNat bs

/-- The lowest `n` digits of `v` in base 256, lowest first. -/
def leBytes : Nat → Nat → Bytes
  | 0, _ => []
  | n + 1, v => UInt8.ofNat v :: leBytes n (v / 256)

@[simp] theorem length_leBytes (n v : Nat) : (leBytes n v).length = n := by
  induction n generalizing v with
  | zero => rfl
  | succ n ih => rw [leBytes, List.length_cons, ih]

theorem leNat_lt (bs : Bytes) : leNat bs < 256 ^ bs.length := by
  induction bs with
  | nil => simp [leNat]
  | cons b bs ih =>
    have hb : b.toNat < 256 := b.toNat_lt
    rw [leNat, List.length_cons, Nat.pow_succ]
    omega

/-- Writing a number and reading it back keeps it modulo the width. -/
theorem leNat_leBytes (n v : Nat) : leNat (leBytes n v) = v % 256 ^ n := by
  induction n generalizing v with
  | zero => simp [leBytes, leNat, Nat.mod_one]
  | succ n ih =>
    have hb : (UInt8.ofNat v).toNat = v % 256 := UInt8.toNat_ofNat'
    rw [leBytes, leNat, ih, hb, Nat.pow_succ, Nat.mul_comm (256 ^ n), Nat.mod_mul]

/-- A 16-bit word is read back as it was written. -/
theorem leNat_leBytes_u16 (w : UInt16) : leNat (leBytes 2 w.toNat) = w.toNat := by
  have hpow : (256 : Nat) ^ 2 = 65536 := by decide
  have hw : w.toNat < 65536 := w.toNat_lt
  rw [leNat_leBytes, hpow, Nat.mod_eq_of_lt hw]

/-- A 32-bit word is read back as it was written. -/
theorem leNat_leBytes_u32 (w : UInt32) : leNat (leBytes 4 w.toNat) = w.toNat := by
  have hpow : (256 : Nat) ^ 4 = 4294967296 := by decide
  have hw : w.toNat < 4294967296 := w.toNat_lt
  rw [leNat_leBytes, hpow, Nat.mod_eq_of_lt hw]

/-- Reading a word and writing it back keeps its bytes. -/
theorem leBytes_leNat (bs : Bytes) : leBytes bs.length (leNat bs) = bs := by
  induction bs with
  | nil => rfl
  | cons b bs ih =>
    have hb : b.toNat < 256 := b.toNat_lt
    have hlow : UInt8.ofNat (b.toNat + 256 * leNat bs) = b := by
      apply UInt8.toNat_inj.mp
      rw [UInt8.toNat_ofNat']
      omega
    have hhigh : (b.toNat + 256 * leNat bs) / 256 = leNat bs := by omega
    rw [List.length_cons, leNat, leBytes, hlow, hhigh, ih]

/-- Words of one width with the same number have the same bytes. -/
theorem leNat_inj {bs cs : Bytes} (hlen : bs.length = cs.length) (h : leNat bs = leNat cs) :
    bs = cs := by
  rw [← leBytes_leNat bs, ← leBytes_leNat cs, hlen, h]

/-- Setting bits of the lowest byte leaves the others alone. -/
theorem leNat_cons_lor (b c : UInt8) (bs : Bytes) :
    leNat (b :: bs) ||| c.toNat = leNat ((b ||| c) :: bs) := by
  have hb : b.toNat < 2 ^ 8 := b.toNat_lt
  have hbc : (b ||| c).toNat < 2 ^ 8 := (b ||| c).toNat_lt
  simp only [leNat]
  rw [Nat.add_comm b.toNat, Nat.add_comm (b ||| c).toNat, show 256 = 2 ^ 8 by rfl,
    Nat.two_pow_add_eq_or_of_lt hb, Nat.two_pow_add_eq_or_of_lt hbc, UInt8.toNat_or, Nat.or_assoc]

end EveOS
