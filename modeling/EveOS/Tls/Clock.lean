/-
The clock of certificate checks: `wall_clock_note_net_tick` of `kernel/src/eve_tls.rs`.

The ticks of the network driver are counted in 32 bits, and their differences are summed
in 64. The largest tick also stands for "none yet". So a counter that gets there and
goes on loses a tick every time, and one that starts there loses the first one.
-/
import EveOS.Lib.Bytes
import EveOS.Lib.Run

set_option autoImplicit false

namespace EveOS.Tls

/-- `u32::MAX`. -/
def UNSET : UInt32 := 0xFFFFFFFF

def MAIN_LOOP_TICK_HZ : UInt64 := 100
def TLS_TICK_HZ_ASSUME : UInt64 := MAIN_LOOP_TICK_HZ

/-- The statics. -/
structure TlsClock where
  TLS_PREV_TICK : UInt32
  TLS_ACCUM_TICKS : UInt64

def TlsClock.start : TlsClock := ⟨UNSET, 0⟩

def TlsClock.wall_clock_note_net_tick (s : TlsClock) (tick : UInt32) : TlsClock :=
  let prev := s.TLS_PREV_TICK
  if prev = UNSET then { s with TLS_PREV_TICK := tick }
  else
    let delta := (tick - prev).toUInt64
    { TLS_PREV_TICK := tick, TLS_ACCUM_TICKS := s.TLS_ACCUM_TICKS + delta }

/-- Sums and products stop at the largest number. -/
def saturating_u64 (n : Nat) : UInt64 := UInt64.ofNat (min n (2 ^ 64 - 1))

def parse_u64_ascii (s : Bytes) : Option UInt64 :=
  s.foldlM (fun out b =>
    if !(48 ≤ b && b ≤ 57) then none
    else some (saturating_u64 ((saturating_u64 (out.toNat * 10)).toNat + (b - 48).toNat))) 0

/-- `build_epoch` is what the build says. -/
def TlsClock.now (s : TlsClock) (build_epoch : Bytes) : Option UInt64 := do
  let epoch ← parse_u64_ascii build_epoch
  return saturating_u64 (epoch.toNat + (s.TLS_ACCUM_TICKS / TLS_TICK_HZ_ASSUME).toNat)

/-! ## Consecutive ticks -/

/-- `n` ticks from `t₀` on. -/
def ticks (t₀ : UInt32) (n : Nat) : List UInt32 := (List.range n).map fun k => t₀ + UInt32.ofNat k

/-- The clock behind `n` ticks. -/
def TlsClock.after (t₀ : UInt32) (n : Nat) : TlsClock := run TlsClock.wall_clock_note_net_tick TlsClock.start (ticks t₀ n)

section Ticks

variable (t₀ : UInt32)

theorem ticks_succ (n : Nat) : ticks t₀ (n + 1) = ticks t₀ n ++ [t₀ + UInt32.ofNat n] := by
  unfold ticks
  rw [List.range_succ, List.map_append, List.map_singleton]

theorem after_succ (n : Nat) :
    TlsClock.after t₀ (n + 1) = (TlsClock.after t₀ n).wall_clock_note_net_tick (t₀ + UInt32.ofNat n) := by
  unfold TlsClock.after
  rw [ticks_succ, run_append, run_cons, run_nil]

theorem toNat_tick (n : Nat) : (t₀ + UInt32.ofNat n).toNat = (t₀.toNat + n) % 2 ^ 32 := by
  rw [UInt32.toNat_add, UInt32.toNat_ofNat', Nat.add_mod_mod]

/-- **What is counted**: all ticks but the first one, and but one for every time the
counter wraps around. -/
theorem after_eq (n : Nat) :
    TlsClock.after t₀ (n + 1) = ⟨t₀ + UInt32.ofNat n, UInt64.ofNat (n - (t₀.toNat + n) / 2 ^ 32)⟩ := by
  induction n with
  | zero =>
    rw [after_succ, Nat.zero_sub]
    rfl
  | succ n ih =>
    have ht := t₀.toNat_lt
    have hprev := toNat_tick t₀ n
    have hwrap : t₀ + UInt32.ofNat n = UNSET ↔ (t₀.toNat + n) % 2 ^ 32 = 2 ^ 32 - 1 := by
      rw [← UInt32.toNat_inj, hprev]
      rfl
    rw [after_succ, ih]
    unfold TlsClock.wall_clock_note_net_tick
    dsimp only
    by_cases hlast : t₀ + UInt32.ofNat n = UNSET
    · -- the tick before stands for none
      rw [if_pos hlast]
      rw [hwrap] at hlast
      congr 2
      omega
    · rw [if_neg hlast]
      rw [hwrap] at hlast
      have hdelta : (t₀ + UInt32.ofNat (n + 1) - (t₀ + UInt32.ofNat n)).toUInt64 = 1 := by
        have hone : t₀ + UInt32.ofNat (n + 1) - (t₀ + UInt32.ofNat n) = 1 := by
          apply UInt32.toNat_inj.mp
          rw [UInt32.toNat_sub, toNat_tick, toNat_tick, UInt32.toNat_one]
          omega
        rw [hone]
        rfl
      rw [hdelta]
      have hmore : n + 1 - (t₀.toNat + (n + 1)) / 2 ^ 32 = n - (t₀.toNat + n) / 2 ^ 32 + 1 := by omega
      rw [hmore, UInt64.ofNat_add]
      rfl

theorem accum_after (n : Nat) (h : t₀.toNat + n < 2 ^ 32) :
    (TlsClock.after t₀ (n + 1)).TLS_ACCUM_TICKS = UInt64.ofNat n := by
  rw [after_eq, Nat.div_eq_of_lt h]
  rfl

/-- What is asked of the clock behind `n + 1` ticks: it has counted `n`, it tells the time
by them, and it told no later time before. -/
structure Counts (t₀ : UInt32) (n : Nat) : Prop where
  accum : (TlsClock.after t₀ (n + 1)).TLS_ACCUM_TICKS.toNat = n
  now : ∀ build_epoch epoch, parse_u64_ascii build_epoch = some epoch →
    (TlsClock.after t₀ (n + 1)).now build_epoch = some (saturating_u64 (epoch.toNat + n / 100))
  monotone : ∀ build_epoch m before now, m ≤ n → (TlsClock.after t₀ (m + 1)).now build_epoch = some before →
    (TlsClock.after t₀ (n + 1)).now build_epoch = some now → before ≤ now

theorem now_eq {s : TlsClock} {build_epoch : Bytes} {epoch : UInt64} (h : parse_u64_ascii build_epoch = some epoch) :
    s.now build_epoch = some (saturating_u64 (epoch.toNat + s.TLS_ACCUM_TICKS.toNat / 100)) := by
  unfold TlsClock.now
  rw [h, Option.bind_eq_bind, Option.bind_some, UInt64.toNat_div]
  rfl

theorem saturating_mono {n m : Nat} (h : n ≤ m) : saturating_u64 n ≤ saturating_u64 m := by
  unfold saturating_u64
  rw [UInt64.le_iff_toNat_le, UInt64.toNat_ofNat', UInt64.toNat_ofNat', Nat.mod_eq_of_lt (by omega),
    Nat.mod_eq_of_lt (by omega)]
  omega

/-- **When no tick is lost**: until the counter wraps around. -/
theorem counts_iff (n : Nat) : Counts t₀ n ↔ t₀.toNat + n < 2 ^ 32 := by
  constructor
  · intro h
    by_contra hwrap
    have haccum := h.accum
    rw [after_eq, UInt64.toNat_ofNat'] at haccum
    have hdiv : 0 < (t₀.toNat + n) / 2 ^ 32 := Nat.div_pos (Nat.not_lt.mp hwrap) (by decide)
    have hless := Nat.mod_le (n - (t₀.toNat + n) / 2 ^ 32) (2 ^ 64)
    have ht := t₀.toNat_lt
    omega
  · intro h
    have hcount : ∀ m ≤ n, (TlsClock.after t₀ (m + 1)).TLS_ACCUM_TICKS.toNat = m := by
      intro m hm
      rw [accum_after t₀ m (by omega), UInt64.toNat_ofNat', Nat.mod_eq_of_lt (by omega)]
    refine ⟨hcount n (Nat.le_refl n), ?_, ?_⟩
    · intro build_epoch epoch hepoch
      rw [now_eq hepoch, hcount n (Nat.le_refl n)]
    · intro build_epoch m before now hm hbefore hnow
      cases hepoch : parse_u64_ascii build_epoch with
      | none =>
        unfold TlsClock.now at hnow
        rw [hepoch] at hnow
        cases hnow
      | some epoch =>
        rw [now_eq hepoch, hcount m hm] at hbefore
        rw [now_eq hepoch, hcount n (Nat.le_refl n)] at hnow
        rw [← Option.some.inj hbefore, ← Option.some.inj hnow]
        exact saturating_mono (Nat.add_le_add_left (Nat.div_le_div_right hm) _)

end Ticks

/-- The driver begins with tick 1, and loses one when its counter is 0 again. -/
theorem tick_zero_is_lost : (TlsClock.after 1 (2 ^ 32)).TLS_ACCUM_TICKS.toNat = 2 ^ 32 - 2 ∧ ¬ Counts 1 (2 ^ 32 - 1) := by
  have haccum : (TlsClock.after 1 (2 ^ 32)).TLS_ACCUM_TICKS.toNat = 2 ^ 32 - 2 := by
    rw [show 2 ^ 32 = 2 ^ 32 - 1 + 1 from rfl, after_eq]
    decide
  refine ⟨haccum, ?_⟩
  intro h
  have hcounted := h.accum
  rw [show 2 ^ 32 - 1 + 1 = 2 ^ 32 from rfl, haccum] at hcounted
  omega

end EveOS.Tls
