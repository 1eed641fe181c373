/-
The generator for key material: `EveRng` of `kernel/src/eve_tls.rs` (xorshift64*).

A byte takes one step of the state. The step is three xorshifts, so it is injective, and
since it leaves 0 alone no other state gets there.
-/
import EveOS.Lib.Bytes
import EveOS.Lib.Xorshift

set_option autoImplicit false

namespace EveOS.Tls

structure EveRng where
  state : UInt64

/-- `seed.max(1)`. -/
def EveRng.new (seed : UInt64) : EveRng := ⟨max seed 1⟩

/-- The state behind a byte, which is written from it. -/
def step (x : UInt64) : UInt64 :=
  let x := x ^^^ (x >>> 12)
  let x := x ^^^ (x <<< 25)
  x ^^^ (x >>> 27)

/-- The byte of a state. -/
def output (x : UInt64) : UInt8 := ((x * 0x2545F4914F6CDD1D) >>> 56).toUInt8

/-- What is filled, for a buffer of `n` bytes. -/
def EveRng.fill_bytes (r : EveRng) : Nat → EveRng × Bytes
  | 0 => (r, [])
  | n + 1 =>
    let x := step r.state
    let (r, rest) := EveRng.fill_bytes ⟨x⟩ n
    (r, output x :: rest)

/-- Requests one after the other, and what each of them gets. -/
def EveRng.fills (r : EveRng) : List Nat → EveRng × List Bytes
  | [] => (r, [])
  | n :: lens =>
    let (r, bytes) := r.fill_bytes n
    let (r, rest) := r.fills lens
    (r, bytes :: rest)

/-! ## The step -/

theorem step_toBitVec (x : UInt64) :
    (step x).toBitVec = (fun v : BitVec 64 => v ^^^ (v >>> 27)) ((fun v : BitVec 64 => v ^^^ (v <<< 25))
      ((fun v : BitVec 64 => v ^^^ (v >>> 12)) x.toBitVec)) := rfl

/-- **The step is injective.** -/
theorem step_injective : Function.Injective step := by
  intro x y h
  have hbits := congrArg UInt64.toBitVec h
  rw [step_toBitVec, step_toBitVec] at hbits
  have h27 := xor_ushiftRight_injective (by decide : 0 < 27) hbits
  have h25 := xor_shiftLeft_injective (by decide : 0 < 25) h27
  have h12 := xor_ushiftRight_injective (by decide : 0 < 12) h25
  exact UInt64.toBitVec_inj.mp h12

theorem step_zero : step 0 = 0 := rfl

theorem step_ne_zero {x : UInt64} (h : x ≠ 0) : step x ≠ 0 := by
  intro hzero
  exact h (step_injective (hzero.trans step_zero.symm))

theorem new_ne_zero (seed : UInt64) : (EveRng.new seed).state ≠ 0 := by
  show (if seed ≤ 1 then 1 else seed) ≠ 0
  split_ifs with hle
  · decide
  · rintro rfl
    exact hle (by decide)

/-! ## Requests -/

section Requests

variable {r : EveRng}

theorem fill_bytes_ne_zero (h : r.state ≠ 0) (n : Nat) : (r.fill_bytes n).1.state ≠ 0 := by
  induction n generalizing r with
  | zero => exact h
  | succ n ih => exact ih (step_ne_zero h)

theorem fills_ne_zero (h : r.state ≠ 0) (lens : List Nat) : (r.fills lens).1.state ≠ 0 := by
  induction lens generalizing r with
  | nil => exact h
  | cons n lens ih => exact ih (fill_bytes_ne_zero h n)

/-- A request is one request behind another. -/
theorem fill_bytes_add (r : EveRng) (n m : Nat) :
    r.fill_bytes (n + m) =
      (((r.fill_bytes n).1.fill_bytes m).1, (r.fill_bytes n).2 ++ ((r.fill_bytes n).1.fill_bytes m).2) := by
  induction n generalizing r with
  | zero => rw [Nat.zero_add]; rfl
  | succ n ih =>
    rw [Nat.add_right_comm]
    simp only [EveRng.fill_bytes, ih, List.cons_append]

/-- Requests are one request for all their bytes. -/
theorem fills_eq (r : EveRng) (lens : List Nat) :
    (r.fills lens).1 = (r.fill_bytes lens.sum).1 ∧ (r.fills lens).2.flatten = (r.fill_bytes lens.sum).2 := by
  induction lens generalizing r with
  | nil => exact ⟨rfl, rfl⟩
  | cons n lens ih =>
    obtain ⟨hstate, hbytes⟩ := ih (r.fill_bytes n).1
    rw [List.sum_cons, fill_bytes_add]
    simp only [EveRng.fills, List.flatten_cons, hstate, hbytes, and_self]

theorem length_fill_bytes (r : EveRng) (n : Nat) : (r.fill_bytes n).2.length = n := by
  induction n generalizing r with
  | zero => rfl
  | succ n ih =>
    show (EveRng.fill_bytes ⟨step r.state⟩ n).2.length + 1 = n + 1
    rw [ih]

/-- Every request gets as many bytes as it has room for. -/
theorem fills_lengths (r : EveRng) (lens : List Nat) : (r.fills lens).2.map List.length = lens := by
  induction lens generalizing r with
  | nil => rfl
  | cons n lens ih =>
    show (r.fill_bytes n).2.length :: ((r.fill_bytes n).1.fills lens).2.map List.length = n :: lens
    rw [length_fill_bytes, ih]

end Requests

/-- **The generator does not degenerate**: its state is never 0, no two states become
one, and what is drawn is a stream of the seed, however the requests are split. -/
theorem rng_is_a_stream (seed : UInt64) (lens : List Nat) :
    ((EveRng.new seed).fills lens).1.state ≠ 0 ∧ Function.Injective step ∧
      ((EveRng.new seed).fills lens).2.map List.length = lens ∧
      ((EveRng.new seed).fills lens).2.flatten = ((EveRng.new seed).fill_bytes lens.sum).2 := by
  exact ⟨fills_ne_zero (new_ne_zero seed) lens, step_injective, fills_lengths _ lens, (fills_eq _ lens).2⟩

end EveOS.Tls
