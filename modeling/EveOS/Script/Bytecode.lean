/-
The byte machine of `kernel/src/script_runtime.rs`, and that it refines the
list machine.

The two machines of the source write the meaning of the instructions twice:
`run` in its loop, `run_bytes` through `exec_one`. The first step is that the
two agree (`exec_one_eq_run_op`), the second that `decode_op` reads an
assembled instruction back wherever it stands (`decode_op_bytes`). A run of
one machine is then a run of the other with the counter moved: the list
machine stands at instruction `pre.length` while the byte machine stands at
byte `(assemble pre).length`.
-/
import EveOS.Lib.LittleEndian
import EveOS.Script.Vm

set_option autoImplicit false

namespace EveOS.Script

/-! ## `decode_op` -/

/-- `i32::from_le_bytes`. -/
def i32_from_le_bytes (b0 b1 b2 b3 : UInt8) : Int32 :=
  (UInt32.ofNat (leNat [b0, b1, b2, b3])).toInt32

/-- `decode_op`: the instruction at `pc`, and the counter behind what was read.
The source moves the counter before it finds an immediate cut short. -/
def decode_op (code : Bytes) (pc : Nat) : Except VmError Op × Nat :=
  if pc ≥ code.length then (.error .BadOpcode, pc)
  else
    let op := byteAt code pc
    let pc := pc + 1
    if op = 0x01 then
      if pc + 4 > code.length then (.error .TruncatedImm, pc)
      else
        let v := i32_from_le_bytes (byteAt code pc) (byteAt code (pc + 1)) (byteAt code (pc + 2))
          (byteAt code (pc + 3))
        (.ok (.PushI32 v), pc + 4)
    else if op = 0x02 then (.ok .Add, pc)
    else if op = 0x03 then (.ok .Sub, pc)
    else if op = 0x04 then (.ok .Mul, pc)
    else if op = 0x05 then (.ok .Div, pc)
    else if op = 0x06 then
      if pc ≥ code.length then (.error .TruncatedImm, pc)
      else (.ok (.CallHost (byteAt code pc)), pc + 1)
    else if op = 0x07 then (.ok .Ret, pc)
    else (.error .BadOpcode, pc)

/-- Inside the code, `decode_op` moves the counter on. -/
theorem decode_op_pc {code : Bytes} {pc : Nat} (h : pc < code.length) :
    pc < (decode_op code pc).2 := by
  unfold decode_op
  rw [if_neg (by omega)]
  dsimp only
  split_ifs <;> dsimp only <;> omega

namespace Vm

section

variable {σ : Type*}

/-! ## `Vm::run_bytes` -/

def exec_one (vm : Vm) (op : Op) (host : HostApi σ) (w : σ) : Option Int32 × Vm × σ :=
  match op with
  | .PushI32 v => (none, vm.push v, w)
  | .Add => (none, vm.binop (fun a b => a + b), w)
  | .Sub => (none, vm.binop (fun a b => a - b), w)
  | .Mul => (none, vm.binop (fun a b => a * b), w)
  | .Div =>
    let (b, vm) := vm.pop
    let (a, vm) := vm.pop
    (none, vm.push (if b = 0 then 0 else a / b), w)
  | .CallHost id =>
    let (ret, vm, w) :=
      if id = HostCall.TimerSet then
        let (ms, vm) := vm.pop
        let (ret, w) := host.timer_set w (non_negative ms)
        (ret, vm, w)
      else if id = HostCall.FetchStart then
        let (url_id, vm) := vm.pop
        let (ret, w) := host.fetch_start w url_id
        (ret, vm, w)
      else if id = HostCall.StorageGet then
        let (key_id, vm) := vm.pop
        let (ret, w) := host.storage_get w key_id
        (ret, vm, w)
      else if id = HostCall.StorageSet then
        let (value_id, vm) := vm.pop
        let (key_id, vm) := vm.pop
        let (ret, w) := host.storage_set w key_id value_id
        (ret, vm, w)
      else (-1, vm, w)
    (none, vm.push ret, w)
  | .Ret =>
    let (v, vm) := vm.pop
    (some v, vm, w)

/-- The two meanings of an instruction agree. -/
theorem exec_one_eq_run_op (vm : Vm) (op : Op) (host : HostApi σ) (w : σ) :
    vm.exec_one op host w = vm.run_op op host w := by
  cases op <;> rfl

/-- The loop of `run_bytes`. -/
def run_bytes_loop (code : Bytes) (host : HostApi σ) (steps : Nat) (vm : Vm) (w : σ) :
    Except VmError Int32 × Vm × σ :=
  if _h : vm.pc < code.length then
    if steps + 1 > vm.step_limit then (.error .StepLimit, vm, w)
    else
      match _hd : decode_op code vm.pc with
      | (.error e, pc) => (.error e, vm.at_pc pc, w)
      | (.ok op, pc) =>
        match hr : (vm.at_pc pc).exec_one op host w with
        | (some ret, vm', w') => (.ok ret, vm', w')
        | (none, vm', w') => run_bytes_loop code host (steps + 1) vm' w'
  else (.ok 0, vm, w)
termination_by code.length - vm.pc
decreasing_by
  have hnext := decode_op_pc _h
  have hpc := run_op_pc (vm.at_pc pc) op host w
  rw [_hd] at hnext
  rw [← exec_one_eq_run_op, hr, at_pc_pc] at hpc
  simp only at hpc hnext
  omega

def run_bytes (vm : Vm) (code : Bytes) (host : HostApi σ) (w : σ) :
    Except VmError Int32 × Vm × σ :=
  run_bytes_loop code host 0 vm.reset w

end

end Vm

/-! ## The assembler -/

/-- The bytes of an instruction. -/
def Op.bytes : Op → Bytes
  | .PushI32 v => 0x01 :: leBytes 4 v.toUInt32.toNat
  | .Add => [0x02]
  | .Sub => [0x03]
  | .Mul => [0x04]
  | .Div => [0x05]
  | .CallHost id => [0x06, id]
  | .Ret => [0x07]

def assemble (code : List Op) : Bytes := code.flatMap Op.bytes

theorem assemble_nil : assemble [] = [] := rfl

theorem assemble_cons (op : Op) (code : List Op) :
    assemble (op :: code) = op.bytes ++ assemble code := rfl

theorem assemble_append (code code' : List Op) :
    assemble (code ++ code') = assemble code ++ assemble code' := by
  simp only [assemble, List.flatMap_append]

theorem Op.bytes_length_pos (op : Op) : 0 < op.bytes.length := by
  cases op <;> simp [Op.bytes]

/-- An immediate is read back from its four bytes. -/
theorem i32_from_le_bytes_leBytes (v : Int32) :
    ∃ b0 b1 b2 b3, leBytes 4 v.toUInt32.toNat = [b0, b1, b2, b3] ∧
      i32_from_le_bytes b0 b1 b2 b3 = v := by
  refine ⟨_, _, _, _, rfl, ?_⟩
  have hread := leNat_leBytes_u32 v.toUInt32
  unfold i32_from_le_bytes
  have hbytes : UInt32.ofNat (leNat (leBytes 4 v.toUInt32.toNat)) = v.toUInt32 := by
    rw [hread, UInt32.ofNat_toNat]
  exact (congrArg UInt32.toInt32 hbytes).trans (Int32.toInt32_toUInt32 v)

/-- `decode_op` reads an assembled instruction back wherever it stands, and
moves the counter to the byte behind it. -/
theorem decode_op_bytes (pre : Bytes) (op : Op) (post : Bytes) :
    decode_op (pre ++ (op.bytes ++ post)) pre.length = (.ok op, pre.length + op.bytes.length) := by
  have hpos := op.bytes_length_pos
  have hat := byteAt_append_add pre (op.bytes ++ post)
  have hat0 : byteAt (pre ++ (op.bytes ++ post)) pre.length = byteAt (op.bytes ++ post) 0 := hat 0
  have hlen : (pre ++ (op.bytes ++ post)).length = pre.length + (op.bytes.length + post.length) := by
    simp only [List.length_append]
  unfold decode_op
  rw [if_neg (by omega), hat0]
  simp only [Nat.add_assoc, hat, hlen]
  cases op with
  | PushI32 v =>
    obtain ⟨b0, b1, b2, b3, hbytes, hv⟩ := i32_from_le_bytes_leBytes v
    have hfit : ¬ pre.length + (1 + 4) > pre.length + ([1, b0, b1, b2, b3].length + post.length) := by
      simp only [List.length_cons, List.length_nil]
      omega
    simp only [Op.bytes, hbytes]
    simp only [List.cons_append, List.nil_append, byteAt, List.getD_cons_zero, List.getD_cons_succ,
      if_true, if_neg hfit, hv]
    rfl
  | CallHost id =>
    simp [Op.bytes, byteAt]
    omega
  | _ => rfl

/-! ## The two machines side by side -/

namespace Vm

/-- What `run_bytes` returns where `run` ends so. -/
def Exit.result : Exit → Except VmError Int32
  | .step_limit => .error .StepLimit
  | .ret v => .ok v
  | .fell_off => .ok 0

/-- How many instructions a program without a limit runs: there are no jumps,
so that is up to its first `Ret`, or all of them. -/
def op_count : List Op → Nat
  | [] => 0
  | .Ret :: _ => 1
  | _ :: code => op_count code + 1

theorem op_count_cons (op : Op) (code : List Op) :
    op_count (op :: code) = if op = .Ret then 1 else op_count code + 1 := by
  cases op <;> rfl

section Simulation

variable {σ : Type*} (host : HostApi σ)

/-- Only `Ret` ends a program. -/
theorem run_op_isSome (vm : Vm) (op : Op) (w : σ) :
    (vm.run_op op host w).1.isSome = true ↔ op = .Ret := by
  cases op <;> simp [run_op]

/-- The list machine before the instruction `op`. -/
theorem run_loop_cons (pre : List Op) (op : Op) (post : List Op) (steps : Nat) (vm : Vm) (w : σ) :
    run_loop (pre ++ op :: post) host steps (vm.at_pc pre.length) w =
      if steps + 1 > vm.step_limit then (.step_limit, vm.at_pc pre.length, w)
      else
        let r := vm.run_op op host w
        match r.1 with
        | some ret => (.ret ret, r.2.1.at_pc (pre.length + 1), r.2.2)
        | none =>
          run_loop (pre ++ op :: post) host (steps + 1) (r.2.1.at_pc (pre.length + 1)) r.2.2 := by
  have hin : (vm.at_pc pre.length).pc < (pre ++ op :: post).length := by
    simp only [at_pc_pc, List.length_append, List.length_cons]
    omega
  have hop : (pre ++ op :: post).get ⟨(vm.at_pc pre.length).pc, hin⟩ = op := by
    simp
  rw [run_loop, dif_pos hin, at_pc_step_limit]
  split_ifs with hlim
  · rfl
  · rw [hop, at_pc_at_pc, at_pc_pc, run_op_at_pc]
    rcases vm.run_op op host w with ⟨_ | ret, vm', w'⟩
    · rfl
    · rfl

/-- The byte machine before the bytes of the instruction `op`. -/
theorem run_bytes_loop_cons (pre : List Op) (op : Op) (post : List Op) (steps : Nat) (vm : Vm)
    (w : σ) :
    run_bytes_loop (assemble (pre ++ op :: post)) host steps (vm.at_pc (assemble pre).length) w =
      if steps + 1 > vm.step_limit then
        (.error .StepLimit, vm.at_pc (assemble pre).length, w)
      else
        let r := vm.run_op op host w
        match r.1 with
        | some ret => (.ok ret, r.2.1.at_pc (assemble (pre ++ [op])).length, r.2.2)
        | none =>
          run_bytes_loop (assemble (pre ++ op :: post)) host (steps + 1)
            (r.2.1.at_pc (assemble (pre ++ [op])).length) r.2.2 := by
  have hpos := op.bytes_length_pos
  have hcode : assemble (pre ++ op :: post) = assemble pre ++ (op.bytes ++ assemble post) := by
    rw [assemble_append, assemble_cons]
  have hnext : (assemble pre).length + op.bytes.length = (assemble (pre ++ [op])).length := by
    rw [assemble_append, List.length_append, assemble_cons, assemble_nil, List.append_nil]
  have hin : (vm.at_pc (assemble pre).length).pc < (assemble (pre ++ op :: post)).length := by
    rw [hcode]
    simp only [at_pc_pc, List.length_append]
    omega
  have hdec : decode_op (assemble (pre ++ op :: post)) (vm.at_pc (assemble pre).length).pc =
      (.ok op, (assemble (pre ++ [op])).length) := by
    rw [at_pc_pc, hcode, decode_op_bytes, hnext]
  rw [run_bytes_loop, dif_pos hin, at_pc_step_limit]
  split_ifs with hlim
  · rfl
  · split
    · next e pc h => rw [hdec] at h; cases h
    · next op' pc h =>
      rw [hdec] at h
      obtain ⟨rfl, rfl⟩ : op = op' ∧ (assemble (pre ++ [op])).length = pc := by
        simpa using h
      rw [at_pc_at_pc, exec_one_eq_run_op, run_op_at_pc]
      rcases vm.run_op op host w with ⟨_ | ret, vm', w'⟩
      · rfl
      · rfl

/-- **The simulation.** Started in front of the same instructions with the same
stack and the same host, the two machines end with the same host and with
matching results. The induction is on the instructions still to come. -/
theorem run_bytes_loop_simulates (rest pre : List Op) (steps : Nat) (vm : Vm) (w : σ) :
    let r := run_loop (pre ++ rest) host steps (vm.at_pc pre.length) w
    let b := run_bytes_loop (assemble (pre ++ rest)) host steps (vm.at_pc (assemble pre).length) w
    b.1 = r.1.result ∧ b.2.2 = r.2.2 := by
  induction rest generalizing pre steps vm w with
  | nil =>
    rw [List.append_nil, run_loop, run_bytes_loop, dif_neg (by simp), dif_neg (by simp)]
    exact ⟨rfl, rfl⟩
  | cons op rest ih =>
    rw [run_loop_cons, run_bytes_loop_cons]
    split_ifs with hlim
    · exact ⟨rfl, rfl⟩
    · rcases vm.run_op op host w with ⟨_ | ret, vm', w'⟩
      · have hnext := ih (pre ++ [op]) (steps + 1) vm' w'
        simpa using hnext
      · exact ⟨rfl, rfl⟩

/-- The limit stops a program exactly if it has more instructions to run. -/
theorem run_loop_step_limit_iff (rest pre : List Op) (steps : Nat) (vm : Vm) (w : σ)
    (hsteps : steps ≤ vm.step_limit) :
    (run_loop (pre ++ rest) host steps (vm.at_pc pre.length) w).1 = .step_limit ↔
      vm.step_limit < steps + op_count rest := by
  induction rest generalizing pre steps vm w with
  | nil =>
    rw [List.append_nil, run_loop, dif_neg (by simp)]
    simp only [op_count, reduceCtorEq, false_iff]
    omega
  | cons op rest ih =>
    have hret := run_op_isSome host vm op w
    have hkeep := run_op_step_limit vm op host w
    rw [run_loop_cons, op_count_cons]
    by_cases hlim : steps + 1 > vm.step_limit
    · rw [if_pos hlim]
      simp only [true_iff]
      split_ifs <;> omega
    · rw [if_neg hlim]
      rcases hr : vm.run_op op host w with ⟨_ | ret, vm', w'⟩
      · rw [hr] at hret hkeep
        have hne : op ≠ .Ret := fun h => by simpa using hret.mpr h
        have hnext := ih (pre ++ [op]) (steps + 1) vm' w' (by simp only at hkeep; omega)
        simp only [List.append_assoc, List.cons_append, List.nil_append, List.length_append,
          List.length_cons, List.length_nil] at hnext
        simp only at hkeep
        rw [if_neg hne, ← hkeep]
        simp only
        rw [hnext]
        omega
      · rw [hr] at hret
        have heq : op = .Ret := hret.mp rfl
        rw [if_pos heq]
        simp only [reduceCtorEq, false_iff]
        omega

/-- Recording the calls of an instruction does not change what it does. -/
theorem run_op_recording (vm : Vm) (op : Op) (w : σ) (calls : List HostEvent) :
    let r := vm.run_op op host.recording (w, calls)
    (r.1, r.2.1, r.2.2.1) = vm.run_op op host w := by
  cases op with
  | CallHost id =>
    simp only [run_op]
    split_ifs <;> rfl
  | _ => rfl

/-- Recording the calls of a program does not change what it does. -/
theorem run_loop_recording (rest pre : List Op) (steps : Nat) (vm : Vm) (w : σ)
    (calls : List HostEvent) :
    let r := run_loop (pre ++ rest) host.recording steps (vm.at_pc pre.length) (w, calls)
    (r.1, r.2.1, r.2.2.1) = run_loop (pre ++ rest) host steps (vm.at_pc pre.length) w := by
  induction rest generalizing pre steps vm w calls with
  | nil =>
    rw [List.append_nil, run_loop, run_loop, dif_neg (by simp), dif_neg (by simp)]
  | cons op rest ih =>
    have hop := run_op_recording host vm op w calls
    rw [run_loop_cons, run_loop_cons, ← hop]
    split_ifs with hlim
    · rfl
    · rcases vm.run_op op host.recording (w, calls) with ⟨_ | ret, vm', w', calls'⟩
      · have hnext := ih (pre ++ [op]) (steps + 1) vm' w' calls'
        simpa using hnext
      · rfl

/-- **The byte machine refines the list machine.** For every program, host,
limit and machine: `run_bytes` on the assembled program makes the same calls as
`run` on the program, in the same order and with the same arguments, and leaves
the host in the same state; where the limit suffices it returns what `run`
returns, and `StepLimit` exactly where `run` is stopped by the limit, which is
where the program has more instructions to run than the limit allows. And
`decode_op` gives each instruction back at the place of its bytes. -/
theorem run_bytes_refines_run (vm : Vm) (code : List Op) (w : σ) :
    let stopped := (run_loop code host 0 vm.reset w).1 = .step_limit
    let r := vm.run code host.recording (w, [])
    let b := vm.run_bytes (assemble code) host.recording (w, [])
    b.2.2 = r.2.2
    ∧ (r.1, r.2.1, r.2.2.1) = vm.run code host w
    ∧ (op_count code ≤ vm.step_limit → b.1 = .ok r.1)
    ∧ (b.1 = .error .StepLimit ↔ stopped)
    ∧ (stopped ↔ vm.step_limit < op_count code)
    ∧ ∀ pre op post, code = pre ++ op :: post →
        decode_op (assemble code) (assemble pre).length =
          (.ok op, (assemble (pre ++ [op])).length) := by
  intro stopped r b
  have hsim := run_bytes_loop_simulates host.recording code [] 0 vm.reset (w, [])
  have hstop := run_loop_step_limit_iff host code [] 0 vm.reset w (Nat.zero_le _)
  have hrec := run_loop_recording host code [] 0 vm.reset w []
  simp only [List.nil_append, Nat.zero_add] at hsim hstop hrec
  -- the recorded run ends as the plain one does
  have hexit : (run_loop code host.recording 0 vm.reset (w, [])).1 =
      (run_loop code host 0 vm.reset w).1 := congrArg Prod.fst hrec
  have hb : b.1 = (run_loop code host 0 vm.reset w).1.result := hsim.1.trans (by rw [← hexit]; rfl)
  have hr : r.1 = (run_loop code host 0 vm.reset w).1.value := congrArg Exit.value hexit
  refine ⟨hsim.2, ?_, ?_, ?_, hstop, ?_⟩
  · exact congrArg (fun x => (Exit.value x.1, x.2.1, x.2.2)) hrec
  · intro hcount
    have hnot : (run_loop code host 0 vm.reset w).1 ≠ .step_limit := by
      intro h
      have hlt := hstop.mp h
      exact absurd hcount (Nat.not_le.mpr hlt)
    rw [hb, hr]
    cases hend : (run_loop code host 0 vm.reset w).1 with
    | step_limit => exact absurd hend hnot
    | ret v => rfl
    | fell_off => rfl
  · rw [hb]
    change _ ↔ (run_loop code host 0 vm.reset w).1 = .step_limit
    cases (run_loop code host 0 vm.reset w).1 with
    | step_limit => exact ⟨fun _ => rfl, fun _ => rfl⟩
    | ret v => exact ⟨nofun, nofun⟩
    | fell_off => exact ⟨nofun, nofun⟩
  · intro pre op post hcode
    rw [hcode, assemble_append, assemble_cons, decode_op_bytes, assemble_append, assemble_cons,
      assemble_nil, List.append_nil, List.length_append]

end Simulation

end Vm

end EveOS.Script
