/-
The multiply-and-add checksum.

`c := c * m + b` over the bytes of a string, modulo `2 ^ 32`. When `m` has an
inverse a step can be undone, so two sums that differ once differ for good as
long as the same bytes follow (`rollingSum_inj`). A changed byte and a swap of
two neighbours are then judged at the place where they happen.

Nothing in this file knows about the kernel.
-/
import EveOS.Lib.Bytes

set_option autoImplicit false

namespace EveOS

variable {m k : UInt32}

/-- The sum of `bs`, started at `c`. -/
def rollingSum (m c : UInt32) (bs : Bytes) : UInt32 := bs.foldl (fun c b => c * m + b.toUInt32) c

theorem rollingSum_cons (c : UInt32) (b : UInt8) (bs : Bytes) :
    rollingSum m c (b :: bs) = rollingSum m (c * m + b.toUInt32) bs := rfl

theorem rollingSum_append (c : UInt32) (bs cs : Bytes) :
    rollingSum m c (bs ++ cs) = rollingSum m (rollingSum m c bs) cs := by
  simp only [rollingSum, List.foldl_append]

theorem toUInt32_inj {a b : UInt8} (h : a.toUInt32 = b.toUInt32) : a = b := by
  have hnat := congrArg UInt32.toNat h
  rw [UInt8.toNat_toUInt32, UInt8.toNat_toUInt32] at hnat
  exact UInt8.toNat_inj.mp hnat

/-- The same bytes take different sums to different sums. -/
theorem rollingSum_inj (hm : m * k = 1) {c d : UInt32} {bs : Bytes}
    (h : rollingSum m c bs = rollingSum m d bs) : c = d := by
  induction bs generalizing c d with
  | nil => exact h
  | cons b bs ih =>
    rw [rollingSum_cons, rollingSum_cons] at h
    have hstep : c * m + b.toUInt32 = d * m + b.toUInt32 := ih h
    have hmul : c * m = d * m := (UInt32.add_left_inj _).mp hstep
    calc c = c * m * k := by rw [UInt32.mul_assoc, hm, UInt32.mul_one]
      _ = d * m * k := by rw [hmul]
      _ = d := by rw [UInt32.mul_assoc, hm, UInt32.mul_one]

/-- A changed byte changes the sum. -/
theorem rollingSum_byte_inj (hm : m * k = 1) {c : UInt32} {pre post : Bytes} {a b : UInt8}
    (h : rollingSum m c (pre ++ a :: post) = rollingSum m c (pre ++ b :: post)) : a = b := by
  rw [rollingSum_append, rollingSum_append, rollingSum_cons, rollingSum_cons] at h
  exact toUInt32_inj ((UInt32.add_right_inj _).mp (rollingSum_inj hm h))

/-- A multiple below the word size is not lost: `x * n` tells the bytes apart. -/
theorem byte_mul_inj {n : UInt32} (hlo : 0 < n.toNat) (hhi : n.toNat ≤ 2 ^ 24) {a b : UInt8}
    (h : a.toUInt32 * n = b.toUInt32 * n) : a = b := by
  have ha : a.toNat < 2 ^ 8 := a.toNat_lt
  have hb : b.toNat < 2 ^ 8 := b.toNat_lt
  have hfit (x : Nat) (hx : x < 2 ^ 8) : x * n.toNat < 2 ^ 32 := by
    calc x * n.toNat ≤ 255 * 2 ^ 24 := Nat.mul_le_mul (by omega) hhi
      _ < 2 ^ 32 := by decide
  have hnat := congrArg UInt32.toNat h
  rw [UInt32.toNat_mul, UInt32.toNat_mul, UInt8.toNat_toUInt32, UInt8.toNat_toUInt32,
    Nat.mod_eq_of_lt (hfit _ ha), Nat.mod_eq_of_lt (hfit _ hb)] at hnat
  exact UInt8.toNat_inj.mp (Nat.eq_of_mul_eq_mul_right hlo hnat)

/-- Two neighbours that change places change the sum. -/
theorem rollingSum_swap_inj (hm : m * k = 1) (hlo : 1 < m.toNat) (hhi : m.toNat ≤ 2 ^ 24)
    {c : UInt32} {pre post : Bytes} {a b : UInt8}
    (h : rollingSum m c (pre ++ a :: b :: post) = rollingSum m c (pre ++ b :: a :: post)) :
    a = b := by
  rw [rollingSum_append, rollingSum_append, rollingSum_cons, rollingSum_cons, rollingSum_cons,
    rollingSum_cons] at h
  have hstep := rollingSum_inj hm h
  have hmul : a.toUInt32 * (m - 1) = b.toUInt32 * (m - 1) := by grind
  have hsub : (m - 1).toNat = m.toNat - 1 := by
    have hle : (1 : UInt32) ≤ m := by
      rw [UInt32.le_iff_toNat_le]
      simp only [UInt32.toNat_one]
      omega
    rw [UInt32.toNat_sub_of_le _ _ hle]
    rfl
  exact byte_mul_inj (by omega) (by omega) hmul

end EveOS
