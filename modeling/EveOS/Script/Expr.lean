/-
Expressions on the stack machine.

An expression is compiled to postfix code. The stack of the machine holds 64 words, and drops
a push on the full stack, so the code computes the expression only where the stack is deep
enough (`exec_compile`); an instruction for each literal bounds the depth (`depth_le`).
-/
import EveOS.Script.Bytecode

set_option autoImplicit false

namespace EveOS.Script

/-! ## Expressions -/

inductive Expr
  | lit (v : Int32)
  | add (a b : Expr)
  | sub (a b : Expr)
  | mul (a b : Expr)
  | div (a b : Expr)

namespace Expr

/-- The value in wrapping arithmetic, where a quotient by zero is zero. -/
def eval : Expr → Int32
  | .lit v => v
  | .add a b => a.eval + b.eval
  | .sub a b => a.eval - b.eval
  | .mul a b => a.eval * b.eval
  | .div a b => if b.eval = 0 then 0 else a.eval / b.eval

/-- Postfix code. -/
def compile : Expr → List Op
  | .lit v => [.PushI32 v]
  | .add a b => a.compile ++ (b.compile ++ [.Add])
  | .sub a b => a.compile ++ (b.compile ++ [.Sub])
  | .mul a b => a.compile ++ (b.compile ++ [.Mul])
  | .div a b => a.compile ++ (b.compile ++ [.Div])

/-- The words that the code needs on the stack. -/
def depth : Expr → Nat
  | .lit _ => 1
  | .add a b | .sub a b | .mul a b | .div a b => max a.depth (b.depth + 1)

/-- The literals. -/
def size : Expr → Nat
  | .lit _ => 1
  | .add a b | .sub a b | .mul a b | .div a b => a.size + b.size

theorem size_pos (e : Expr) : 0 < e.size := by
  induction e with
  | lit v => exact Nat.one_pos
  | add a b iha ihb | sub a b iha ihb | mul a b iha ihb | div a b iha ihb =>
    rw [size]
    omega

/-- No code is deeper than its literals. -/
theorem depth_le (e : Expr) : e.depth ≤ e.size := by
  induction e with
  | lit v => exact Nat.le_refl 1
  | add a b iha ihb | sub a b iha ihb | mul a b iha ihb | div a b iha ihb =>
    have ha := a.size_pos
    rw [depth, size]
    omega

/-- A literal takes five bytes, and all but one of them an operator. -/
theorem length_assemble_compile (e : Expr) : (assemble e.compile).length + 1 = 6 * e.size := by
  have hlit : ∀ v, (assemble [.PushI32 v]).length = 5 := fun _ => rfl
  have hop : (assemble [.Add]).length = 1 ∧ (assemble [.Sub]).length = 1 ∧ (assemble [.Mul]).length = 1 ∧
      (assemble [.Div]).length = 1 := ⟨rfl, rfl, rfl, rfl⟩
  induction e with
  | lit v => rw [compile, hlit, size]
  | add a b iha ihb | sub a b iha ihb | mul a b iha ihb | div a b iha ihb =>
    simp only [compile, assemble_append, List.length_append, hop, size]
    omega

theorem op_count_le (code : List Op) : Vm.op_count code ≤ code.length := by
  induction code with
  | nil => exact Nat.le_refl 0
  | cons op code ih =>
    rw [Vm.op_count_cons, List.length_cons]
    split_ifs
    · omega
    · omega

theorem length_le_assemble (code : List Op) : code.length ≤ (assemble code).length := by
  induction code with
  | nil => exact Nat.le_refl 0
  | cons op code ih =>
    have hpos := op.bytes_length_pos
    rw [assemble_cons, List.length_append, List.length_cons]
    omega

end Expr

/-! ## The stack -/

namespace Vm

/-- The words on the stack, from the top. -/
def items (vm : Vm) : List Int32 := (vm.stack.toList.take vm.sp).reverse

theorem length_items (vm : Vm) : vm.items.length = vm.sp := by
  have hle := vm.sp_le
  rw [items, List.length_reverse, List.length_take, Vector.length_toList]
  omega

@[simp] theorem items_at_pc (vm : Vm) (n : Nat) : (vm.at_pc n).items = vm.items := rfl

@[simp] theorem items_reset (vm : Vm) : vm.reset.items = [] := rfl

/-- A push on a stack with room. -/
theorem items_push {vm : Vm} (h : vm.items.length < 64) (v : Int32) : (vm.push v).items = v :: vm.items := by
  rw [length_items] at h
  unfold push
  rw [dif_pos h]
  unfold items
  have htake : (vm.stack.set vm.sp v).toList.take (vm.sp + 1) = vm.stack.toList.take vm.sp ++ [v] := by
    rw [Vector.toList_set, List.take_add_one, List.take_set_of_le (Nat.le_refl _),
      List.getElem?_set_self (by rw [Vector.length_toList]; exact h)]
    rfl
  dsimp only
  rw [htake, List.reverse_append]
  rfl

/-- A pop of a stack that is not empty. -/
theorem items_pop {vm : Vm} {v : Int32} {xs : List Int32} (h : vm.items = v :: xs) :
    vm.pop.1 = v ∧ vm.pop.2.items = xs := by
  have hlen := vm.length_items
  have hle := vm.sp_le
  rw [h, List.length_cons] at hlen
  have hin : vm.sp - 1 < vm.stack.toList.length := by
    rw [Vector.length_toList]
    omega
  have hsplit : vm.stack.toList.take vm.sp =
      vm.stack.toList.take (vm.sp - 1) ++ [vm.stack.get ⟨vm.sp - 1, by omega⟩] := by
    have hnext : vm.sp - 1 + 1 = vm.sp := by omega
    have htake := List.take_succ_eq_append_getElem hin
    rw [hnext, Vector.getElem_toList] at htake
    exact htake
  unfold items at h
  rw [hsplit, List.reverse_append, List.reverse_singleton, List.singleton_append, List.cons.injEq] at h
  unfold pop
  rw [dif_neg (by omega)]
  exact h

/-! ## Running the code -/

section Run

variable {σ : Type*} (host : HostApi σ)

/-- An operator takes two words and puts one there. -/
theorem items_binop {vm : Vm} {a b : Int32} {xs : List Int32} (h : vm.items = b :: a :: xs)
    (f : Int32 → Int32 → Int32) : (vm.binop f).items = f a b :: xs := by
  obtain ⟨hb, hrest⟩ := items_pop h
  obtain ⟨ha, hxs⟩ := items_pop hrest
  have hle := vm.sp_le
  have hlen := vm.length_items
  rw [h, List.length_cons, List.length_cons] at hlen
  change (vm.pop.2.pop.2.push (f vm.pop.2.pop.1 vm.pop.1)).items = _
  rw [items_push (by rw [hxs]; omega), hxs, ha, hb]

/-- An instruction that neither returns nor calls the host, on a stack of words. -/
theorem run_loop_op (pre post : List Op) {op : Op} {steps : Nat} {vm : Vm} {w : σ} {ys : List Int32}
    (hlim : steps + 1 ≤ vm.step_limit) (hret : (vm.run_op op host w).1 = none) (hhost : (vm.run_op op host w).2.2 = w)
    (hitems : (vm.run_op op host w).2.1.items = ys) :
    ∃ vm' : Vm, vm'.items = ys ∧ vm'.step_limit = vm.step_limit ∧
      run_loop (pre ++ op :: post) host steps (vm.at_pc pre.length) w =
        run_loop (pre ++ op :: post) host (steps + 1) (vm'.at_pc (pre.length + 1)) w := by
  refine ⟨_, hitems, run_op_step_limit vm op host w, ?_⟩
  rw [run_loop_cons, if_neg (by omega)]
  dsimp only
  rw [hret, hhost]

/-- Wherever it stands, the code puts `v` on the stack, if the stack has room for `depth` words. -/
def Computes (code : List Op) (v : Int32) (depth : Nat) : Prop :=
  ∀ (pre post : List Op) (steps : Nat) (vm : Vm) (w : σ), vm.items.length + depth ≤ 64 →
    steps + code.length ≤ vm.step_limit →
    ∃ vm' : Vm, vm'.items = v :: vm.items ∧ vm'.step_limit = vm.step_limit ∧
      run_loop (pre ++ (code ++ post)) host steps (vm.at_pc pre.length) w =
        run_loop (pre ++ (code ++ post)) host (steps + code.length) (vm'.at_pc (pre.length + code.length)) w

theorem computes_lit (v : Int32) : Computes host [.PushI32 v] v 1 := by
  intro pre post steps vm w hroom hlim
  exact run_loop_op host pre post hlim rfl rfl (items_push hroom v)

/-- An operator behind the code of its arguments. The second one is computed above the first. -/
theorem computes_operator {ca cb : List Op} {x y : Int32} {da db : Nat} {op : Op} (f : Int32 → Int32 → Int32)
    (ha : Computes host ca x da) (hb : Computes host cb y db)
    (hop : ∀ (vm : Vm) (w : σ) (xs : List Int32), vm.items = y :: x :: xs →
      (vm.run_op op host w).1 = none ∧ (vm.run_op op host w).2.2 = w ∧
        (vm.run_op op host w).2.1.items = f x y :: xs) :
    Computes host (ca ++ (cb ++ [op])) (f x y) (max da (db + 1)) := by
  intro pre post steps vm w hroom hlim
  simp only [List.length_append, List.length_singleton] at hlim
  obtain ⟨vm₁, hitems₁, hlim₁, hrun₁⟩ := ha pre (cb ++ op :: post) steps vm w (by omega) (by omega)
  obtain ⟨vm₂, hitems₂, hlim₂, hrun₂⟩ := hb (pre ++ ca) (op :: post) (steps + ca.length) vm₁ w
    (by rw [hitems₁, List.length_cons]; omega) (by rw [hlim₁]; omega)
  rw [hitems₁] at hitems₂
  obtain ⟨hret, hhost, hitems⟩ := hop vm₂ w vm.items hitems₂
  have hstep : steps + ca.length + cb.length + 1 ≤ vm₂.step_limit := by
    rw [hlim₂, hlim₁]
    omega
  obtain ⟨vm₃, hitems₃, hlim₃, hrun₃⟩ := run_loop_op host (pre ++ (ca ++ cb)) post hstep hret hhost hitems
  refine ⟨vm₃, hitems₃, by rw [hlim₃, hlim₂, hlim₁], ?_⟩
  simp only [List.append_assoc, List.length_append, List.cons_append, List.nil_append, List.length_singleton,
    ← Nat.add_assoc] at hrun₁ hrun₂ hrun₃ ⊢
  rw [hrun₁, hrun₂, hrun₃]

/-- **The code of an expression** computes its value. -/
theorem computes_compile (e : Expr) : Computes host e.compile e.eval e.depth := by
  induction e with
  | lit v => exact computes_lit host v
  | add a b iha ihb =>
    exact computes_operator host (fun x y => x + y) iha ihb fun vm w xs h => ⟨rfl, rfl, items_binop h _⟩
  | sub a b iha ihb =>
    exact computes_operator host (fun x y => x - y) iha ihb fun vm w xs h => ⟨rfl, rfl, items_binop h _⟩
  | mul a b iha ihb =>
    exact computes_operator host (fun x y => x * y) iha ihb fun vm w xs h => ⟨rfl, rfl, items_binop h _⟩
  | div a b iha ihb =>
    exact computes_operator host (fun x y => if y = 0 then 0 else x / y) iha ihb
      fun vm w xs h => ⟨rfl, rfl, items_binop h fun x y => if y = 0 then 0 else x / y⟩

/-- **The bytes of an expression** return its value, where the stack and the limit suffice. -/
theorem run_bytes_compile (e : Expr) (vm : Vm) (w : σ) (hdepth : e.depth ≤ 64)
    (hlim : e.compile.length + 1 ≤ vm.step_limit) :
    (vm.run_bytes (assemble (e.compile ++ [.Ret])) host w).1 = .ok e.eval := by
  have hreset : vm.reset.step_limit = vm.step_limit := rfl
  obtain ⟨vm', hitems, hlim', hrun⟩ := computes_compile host e [] [.Ret] 0 vm.reset w
    (by simpa using hdepth) (by omega)
  have hsim := (run_bytes_loop_simulates host (e.compile ++ [.Ret]) [] 0 vm.reset w).1
  obtain ⟨hv, -⟩ := items_pop hitems
  simp only [List.nil_append, List.length_nil, Nat.zero_add] at hrun hsim
  -- the last instruction
  have hret := run_loop_cons host e.compile .Ret [] e.compile.length vm' w
  rw [if_neg (by omega)] at hret
  change _ = (Exit.ret vm'.pop.1, _) at hret
  change (run_bytes_loop (assemble (e.compile ++ [.Ret])) host 0 (vm.reset.at_pc 0) w).1 = _
  rw [assemble_nil, List.length_nil] at hsim
  rw [hsim, hrun, hret, hv]
  rfl

end Run

end Vm

end EveOS.Script
