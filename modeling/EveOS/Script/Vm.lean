/-
The stack machine of `kernel/src/script_runtime.rs`.

`Vm` runs a list of `Op` values (`run`) or their bytes (`run_bytes`, in
`Bytecode`). Both machines share the stack operations defined here: a push on
the full stack of 64 words does nothing, a pop of the empty one gives 0.

`usize` values are natural numbers. No program is longer than `isize::MAX`
bytes and every instruction is run at most once, so the step counter and
`pc + 4` stay far below `usize::MAX` and their `saturating_add` is `+`.
-/
import Mathlib

set_option autoImplicit false

namespace EveOS.Script

inductive Op
  | PushI32 (v : Int32)
  | Add
  | Sub
  | Mul
  | Div
  | CallHost (id : UInt8)
  | Ret
  deriving DecidableEq, Repr

inductive VmError
  | BadOpcode
  | TruncatedImm
  | StepLimit
  deriving DecidableEq, Repr

/-! ## The host -/

/-- `trait HostApi`, as a machine with state `σ`: what each call returns and
what it leaves behind. The defaults are those of the trait. -/
structure HostApi (σ : Type*) where
  timer_set (s : σ) (_ms : UInt32) : Int32 × σ := (-1, s)
  fetch_start (s : σ) (_url_id : Int32) : Int32 × σ := (-1, s)
  storage_get (s : σ) (_key_id : Int32) : Int32 × σ := (-1, s)
  storage_set (s : σ) (_key_id _value_id : Int32) : Int32 × σ := (-1, s)

/-- `NullHost` overrides nothing. -/
def NullHost : HostApi Unit := {}

/-- `enum HostCall`: the identifiers of the four calls. -/
def HostCall.TimerSet : UInt8 := 0
def HostCall.FetchStart : UInt8 := 1
def HostCall.StorageGet : UInt8 := 2
def HostCall.StorageSet : UInt8 := 3

/-- One call of the host, with its arguments. -/
inductive HostEvent
  | timer_set (ms : UInt32)
  | fetch_start (url_id : Int32)
  | storage_get (key_id : Int32)
  | storage_set (key_id value_id : Int32)
  deriving DecidableEq, Repr

/-- The host, with a list of the calls it has received beside its state. -/
def HostApi.recording {σ : Type*} (host : HostApi σ) : HostApi (σ × List HostEvent) where
  timer_set s ms := let r := host.timer_set s.1 ms
    (r.1, r.2, s.2 ++ [.timer_set ms])
  fetch_start s url_id := let r := host.fetch_start s.1 url_id
    (r.1, r.2, s.2 ++ [.fetch_start url_id])
  storage_get s key_id := let r := host.storage_get s.1 key_id
    (r.1, r.2, s.2 ++ [.storage_get key_id])
  storage_set s key_id value_id := let r := host.storage_set s.1 key_id value_id
    (r.1, r.2, s.2 ++ [.storage_set key_id value_id])

/-! ## The machine -/

/-- The source keeps `sp` within the stack; here the field `sp_le` says so. -/
structure Vm where
  stack : Vector Int32 64
  sp : Nat
  pc : Nat
  step_limit : Nat
  sp_le : sp ≤ 64

namespace Vm

def new : Vm := ⟨Vector.replicate 64 0, 0, 0, 4096, by omega⟩

def reset (vm : Vm) : Vm := { vm with sp := 0, pc := 0, sp_le := by omega }

def set_step_limit (vm : Vm) (n : Nat) : Vm := { vm with step_limit := max n 1 }

def push (vm : Vm) (v : Int32) : Vm :=
  if h : vm.sp < 64 then
    { vm with stack := vm.stack.set vm.sp v, sp := vm.sp + 1, sp_le := by omega }
  else vm

def pop (vm : Vm) : Int32 × Vm :=
  if h : vm.sp = 0 then (0, vm)
  else
    have hsp := vm.sp_le
    (vm.stack.get ⟨vm.sp - 1, by omega⟩, { vm with sp := vm.sp - 1, sp_le := by omega })

def binop (vm : Vm) (f : Int32 → Int32 → Int32) : Vm :=
  let (b, vm) := vm.pop
  let (a, vm) := vm.pop
  vm.push (f a b)

/-- `x.max(0) as u32`. -/
def non_negative (x : Int32) : UInt32 := (if x < 0 then 0 else x).toUInt32

section Ops

variable {σ : Type*}

/-- The body of the loop of `run`, behind the fetch of `op`: `some v` where the
source returns `v`. Division by zero is caught, and `Int32` division wraps at
`i32::MIN / -1` as `wrapping_div` does. -/
def run_op (vm : Vm) (op : Op) (host : HostApi σ) (w : σ) : Option Int32 × Vm × σ :=
  match op with
  | .PushI32 v => (none, vm.push v, w)
  | .Add => (none, vm.binop (fun a b => a + b), w)
  | .Sub => (none, vm.binop (fun a b => a - b), w)
  | .Mul => (none, vm.binop (fun a b => a * b), w)
  | .Div =>
    let (b, vm) := vm.pop
    let (a, vm) := vm.pop
    (none, vm.push (if b = 0 then 0 else a / b), w)
  | .CallHost id =>
    let (ret, vm, w) :=
      if id = HostCall.TimerSet then
        let (ms, vm) := vm.pop
        let (ret, w) := host.timer_set w (non_negative ms)
        (ret, vm, w)
      else if id = HostCall.FetchStart then
        let (url_id, vm) := vm.pop
        let (ret, w) := host.fetch_start w url_id
        (ret, vm, w)
      else if id = HostCall.StorageGet then
        let (key_id, vm) := vm.pop
        let (ret, w) := host.storage_get w key_id
        (ret, vm, w)
      else if id = HostCall.StorageSet then
        let (value_id, vm) := vm.pop
        let (key_id, vm) := vm.pop
        let (ret, w) := host.storage_set w key_id value_id
        (ret, vm, w)
      else (-1, vm, w)
    (none, vm.push ret, w)
  | .Ret =>
    let (v, vm) := vm.pop
    (some v, vm, w)

end Ops

/-! ## The stack operations and the program counter

None of them looks at `pc`. `vm.at_pc n` is the machine with its counter moved,
and every operation commutes with the move. -/

def at_pc (vm : Vm) (n : Nat) : Vm := { vm with pc := n }

@[simp] theorem at_pc_pc (vm : Vm) (n : Nat) : (vm.at_pc n).pc = n := rfl

@[simp] theorem at_pc_step_limit (vm : Vm) (n : Nat) :
    (vm.at_pc n).step_limit = vm.step_limit := rfl

@[simp] theorem at_pc_at_pc (vm : Vm) (m n : Nat) : (vm.at_pc m).at_pc n = vm.at_pc n := rfl

theorem at_pc_self (vm : Vm) : vm.at_pc vm.pc = vm := rfl

@[simp] theorem push_step_limit (vm : Vm) (v : Int32) :
    (vm.push v).step_limit = vm.step_limit := by
  unfold push
  split_ifs <;> rfl

@[simp] theorem pop_step_limit (vm : Vm) : vm.pop.2.step_limit = vm.step_limit := by
  unfold pop
  split_ifs <;> rfl

@[simp] theorem binop_step_limit (vm : Vm) (f : Int32 → Int32 → Int32) :
    (vm.binop f).step_limit = vm.step_limit := by
  simp [binop]

@[simp] theorem at_pc_push (vm : Vm) (n : Nat) (v : Int32) :
    (vm.at_pc n).push v = (vm.push v).at_pc n := by
  by_cases h : vm.sp < 64
  · simp [push, at_pc, h]
  · simp [push, at_pc, h]

@[simp] theorem at_pc_pop (vm : Vm) (n : Nat) :
    (vm.at_pc n).pop = (vm.pop.1, vm.pop.2.at_pc n) := by
  by_cases h : vm.sp = 0
  · simp [pop, at_pc, h]
  · simp [pop, at_pc, h]

@[simp] theorem at_pc_binop (vm : Vm) (n : Nat) (f : Int32 → Int32 → Int32) :
    (vm.at_pc n).binop f = (vm.binop f).at_pc n := by
  simp [binop]

section Loop

variable {σ : Type*}

theorem run_op_at_pc (vm : Vm) (n : Nat) (op : Op) (host : HostApi σ) (w : σ) :
    (vm.at_pc n).run_op op host w =
      ((vm.run_op op host w).1, (vm.run_op op host w).2.1.at_pc n, (vm.run_op op host w).2.2) := by
  cases op with
  | CallHost id =>
    simp only [run_op]
    -- the four calls and the unknown identifier
    split_ifs <;> simp
  | _ => simp [run_op]

/-- An instruction leaves the counter alone. -/
theorem run_op_pc (vm : Vm) (op : Op) (host : HostApi σ) (w : σ) :
    (vm.run_op op host w).2.1.pc = vm.pc := by
  have h := run_op_at_pc vm vm.pc op host w
  rw [at_pc_self] at h
  rw [h, at_pc_pc]

/-- An instruction leaves the limit alone. -/
theorem run_op_step_limit (vm : Vm) (op : Op) (host : HostApi σ) (w : σ) :
    (vm.run_op op host w).2.1.step_limit = vm.step_limit := by
  cases op with
  | CallHost id =>
    simp only [run_op]
    split_ifs <;> simp
  | _ => simp [run_op]

/-! ## `Vm::run` -/

/-- How the loop of `run` ends. The source returns 0 for the first and the last
of these, so its return value alone does not tell them apart. -/
inductive Exit
  | step_limit
  | ret (v : Int32)
  | fell_off
  deriving DecidableEq, Repr

/-- What `run` returns. -/
def Exit.value : Exit → Int32
  | .step_limit => 0
  | .ret v => v
  | .fell_off => 0

/-- The loop of `run`: `steps` counts the instructions begun. -/
def run_loop (code : List Op) (host : HostApi σ) (steps : Nat) (vm : Vm) (w : σ) :
    Exit × Vm × σ :=
  if h : vm.pc < code.length then
    if steps + 1 > vm.step_limit then (.step_limit, vm, w)
    else
      match hr : (vm.at_pc (vm.pc + 1)).run_op (code.get ⟨vm.pc, h⟩) host w with
      | (some ret, vm', w') => (.ret ret, vm', w')
      | (none, vm', w') => run_loop code host (steps + 1) vm' w'
  else (.fell_off, vm, w)
termination_by code.length - vm.pc
decreasing_by
  have hpc := run_op_pc (vm.at_pc (vm.pc + 1)) (code.get ⟨vm.pc, h⟩) host w
  rw [hr, at_pc_pc] at hpc
  simp only at hpc
  omega

def run (vm : Vm) (code : List Op) (host : HostApi σ) (w : σ) : Int32 × Vm × σ :=
  let (exit, vm, w) := run_loop code host 0 vm.reset w
  (exit.value, vm, w)

end Loop

end Vm

end EveOS.Script
