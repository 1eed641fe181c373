/-
Scripts that do not fit.

The script of a page is cut behind 256 bytes, and nothing reports it. Where the cut stands
inside an instruction the machine does, as an error. Where it stands between two instructions, and
no `Ret` is in front of it, the machine falls off the end and returns 0, whatever the rest of the
script would have computed. `falls_off` tells these scripts by their instructions.
-/
import EveOS.Script.Page

set_option autoImplicit false

namespace EveOS.Script

/-- From `pc` on the instructions follow each other up to the end of the code, and none of them
is `Ret`. -/
def falls_off (code : Bytes) : Nat → Nat → Bool
  | 0, _ => false
  | fuel + 1, pc =>
    if pc < code.length then
      match decode_op code pc with
      | (.ok .Ret, _) => false
      | (.ok _, pc) => falls_off code fuel pc
      | (.error _, _) => false
    else true

theorem byteAt_append_left {xs : Bytes} {i : Nat} (h : i < xs.length) (ys : Bytes) :
    byteAt (xs ++ ys) i = byteAt xs i := by
  rw [byteAt, byteAt, List.getD_append _ _ _ _ h]

/-- An instruction of the front part is an instruction of the code. -/
theorem decode_op_append {front : Bytes} {pc pc' : Nat} {op : Op} (h : decode_op front pc = (.ok op, pc'))
    (rest : Bytes) : decode_op (front ++ rest) pc = (.ok op, pc') := by
  have hlen : (front ++ rest).length = front.length + rest.length := List.length_append
  unfold decode_op at h ⊢
  by_cases hin : pc ≥ front.length
  · rw [if_pos hin] at h
    cases h
  rw [if_neg hin] at h
  rw [if_neg (by omega), byteAt_append_left (by omega)]
  dsimp only at h ⊢
  by_cases hpush : byteAt front pc = 0x01
  · rw [if_pos hpush] at h ⊢
    by_cases himm : pc + 1 + 4 > front.length
    · rw [if_pos himm] at h
      cases h
    · rw [if_neg himm] at h
      rw [if_neg (by omega), byteAt_append_left (by omega), byteAt_append_left (by omega),
        byteAt_append_left (by omega), byteAt_append_left (by omega)]
      exact h
  rw [if_neg hpush] at h ⊢
  by_cases hcall : byteAt front pc = 0x06
  · rw [hcall] at h ⊢
    by_cases hid : pc + 1 ≥ front.length
    · simp [hid] at h
    · have hid' : ¬pc + 1 ≥ (front ++ rest).length := by omega
      simp only [hid, hid', if_false] at h ⊢
      rw [byteAt_append_left (by omega)]
      exact h
  · rw [if_neg hcall] at h ⊢
    exact h

/-- An instruction that can be read ends inside the code. -/
theorem decode_op_le {code : Bytes} {pc pc' : Nat} {op : Op} (h : decode_op code pc = (.ok op, pc')) :
    pc' ≤ code.length := by
  unfold decode_op at h
  dsimp only at h
  split_ifs at h <;> cases h <;> omega

section Cut

variable {σ : Type*} (host : HostApi σ) {code : Bytes} {vm : Vm} {pc steps : Nat} {op : Op} {e : VmError}

/-- The machine at a `Ret`. -/
theorem run_bytes_loop_ret (w : σ) (hin : vm.pc < code.length) (hlim : steps < vm.step_limit)
    (hd : decode_op code vm.pc = (.ok .Ret, pc)) :
    (Vm.run_bytes_loop code host steps vm w).1 = .ok vm.pop.1 := by
  rw [Vm.run_bytes_loop, dif_pos hin, if_neg (by omega)]
  split
  · next e pc' h =>
    rw [hd] at h
    cases h
  · next op' pc' h =>
    rw [hd] at h
    cases h
    rw [Vm.exec_one_eq_run_op, Vm.run_op_at_pc]
    rfl

/-- The machine at any other instruction. -/
theorem run_bytes_loop_next (w : σ) (hin : vm.pc < code.length) (hlim : steps < vm.step_limit)
    (hd : decode_op code vm.pc = (.ok op, pc)) (hop : op ≠ .Ret) :
    Vm.run_bytes_loop code host steps vm w =
      Vm.run_bytes_loop code host (steps + 1) (((vm.at_pc pc).run_op op host w).2.1)
        (((vm.at_pc pc).run_op op host w).2.2) := by
  have hnone : ((vm.at_pc pc).run_op op host w).1 = none := by
    have hret := Vm.run_op_isSome host (vm.at_pc pc) op w
    rw [← Option.not_isSome_iff_eq_none, hret]
    exact hop
  conv_lhs => rw [Vm.run_bytes_loop, dif_pos hin, if_neg (by omega)]
  split
  · next e pc' h =>
    rw [hd] at h
    cases h
  · next op' pc' h =>
    rw [hd] at h
    cases h
    rw [Vm.exec_one_eq_run_op]
    rcases hr : (vm.at_pc pc).run_op op host w with ⟨_ | ret, vm', w'⟩
    · rfl
    · rw [hr] at hnone
      cases hnone

/-- The machine where no instruction can be read. -/
theorem run_bytes_loop_error (w : σ) (hin : vm.pc < code.length) (hlim : steps < vm.step_limit)
    (hd : decode_op code vm.pc = (.error e, pc)) : (Vm.run_bytes_loop code host steps vm w).1 = .error e := by
  rw [Vm.run_bytes_loop, dif_pos hin, if_neg (by omega)]
  split
  · next e' pc' h =>
    rw [hd] at h
    cases h
    rfl
  · next op' pc' h =>
    rw [hd] at h
    cases h

/-- **The machine falls off** code that nothing stops. -/
theorem run_bytes_loop_falls_off {fuel : Nat} (w : σ) (h : falls_off code fuel vm.pc = true) (hsteps : steps ≤ vm.pc)
    (hcode : code.length ≤ vm.step_limit) : (Vm.run_bytes_loop code host steps vm w).1 = .ok 0 := by
  induction fuel generalizing steps vm w with
  | zero => cases h
  | succ fuel ih =>
    rw [falls_off] at h
    by_cases hin : vm.pc < code.length
    · rw [if_pos hin] at h
      rcases hd : decode_op code vm.pc with ⟨e | op, pc⟩
      · rw [hd] at h
        cases h
      · have hnext := decode_op_pc hin
        have hpc := Vm.run_op_pc (vm.at_pc pc) op host w
        have hlimit := Vm.run_op_step_limit (vm.at_pc pc) op host w
        rw [hd] at h hnext
        dsimp only [Vm.at_pc_pc, Vm.at_pc_step_limit] at hnext hpc hlimit
        by_cases hret : op = .Ret
        · subst hret
          cases h
        · rw [run_bytes_loop_next host w hin (by omega) hd hret]
          refine ih _ ?_ (by omega) (by omega)
          rw [hpc]
          cases op with
          | Ret => exact absurd rfl hret
          | _ => exact h
    · rw [Vm.run_bytes_loop, dif_neg hin]

theorem falls_off_next {fuel : Nat} (hin : pc < code.length) {pc' : Nat} (hd : decode_op code pc = (.ok op, pc'))
    (hop : op ≠ .Ret) : falls_off code (fuel + 1) pc = falls_off code fuel pc' := by
  rw [falls_off, if_pos hin, hd]
  cases op with
  | Ret => exact absurd rfl hop
  | _ => rfl

/-- **A front part that returns** returns what the whole code returns, or has been fallen off. -/
theorem run_bytes_loop_append {front : Bytes} (rest : Bytes) {fuel : Nat} {v : Int32} (w : σ)
    (hpc : vm.pc ≤ front.length) (hfuel : front.length < vm.pc + fuel)
    (h : (Vm.run_bytes_loop front host steps vm w).1 = .ok v) :
    falls_off front fuel vm.pc = true ∨ (Vm.run_bytes_loop (front ++ rest) host steps vm w).1 = .ok v := by
  induction fuel generalizing steps vm w with
  | zero => omega
  | succ fuel ih =>
    by_cases hin : vm.pc < front.length
    · have hlim : steps < vm.step_limit := by
        by_contra hlim
        rw [Vm.run_bytes_loop, dif_pos hin, if_pos (by omega)] at h
        cases h
      have hin' : vm.pc < (front ++ rest).length := by
        rw [List.length_append]
        omega
      rcases hd : decode_op front vm.pc with ⟨e | op, pc⟩
      · rw [run_bytes_loop_error host w hin hlim hd] at h
        cases h
      · have hwhole := decode_op_append hd rest
        by_cases hret : op = .Ret
        · subst hret
          rw [run_bytes_loop_ret host w hin hlim hd] at h
          rw [run_bytes_loop_ret host w hin' hlim hwhole]
          exact .inr h
        · have hnext := decode_op_pc hin
          have hle := decode_op_le hd
          have hmoved := Vm.run_op_pc (vm.at_pc pc) op host w
          rw [hd] at hnext
          dsimp only [Vm.at_pc_pc] at hnext hmoved
          rw [run_bytes_loop_next host w hin hlim hd hret] at h
          have hrest := ih _ (by omega) (by omega) h
          rw [hmoved] at hrest
          rw [run_bytes_loop_next host w hin' hlim hwhole hret, falls_off_next hin hd hret]
          exact hrest
    · left
      rw [falls_off, if_neg hin]

end Cut

/-! ## Pages -/

/-- **When a script runs as a whole.** What a page returns is what its script as a whole returns, if
and only if the script fits the buffer, or its first 256 bytes are not fallen off, or the whole
script returns 0 too. -/
theorem page_script_whole_iff {page code : Bytes} {i : Nat} (hmarker : FirstMarker page i)
    (htext : ScriptText page i code) :
    (∀ v, run_page_eve_script page true = some (.ok v) → (Vm.new.run_bytes code NullHost ()).1 = .ok v) ↔
      code.length ≤ 256 ∨ falls_off (code.take 256) 257 0 = false ∨
        (Vm.new.run_bytes code NullHost ()).1 = .ok 0 := by
  have hpage := run_page_script hmarker htext
  have hlen : (code.take 256).length ≤ 256 := List.length_take_le 256 code
  have hlimit : Vm.new.reset.step_limit = 4096 := rfl
  by_cases hnil : code = []
  · subst hnil
    rw [if_pos rfl] at hpage
    rw [hpage]
    simp
  rw [if_neg hnil] at hpage
  by_cases hfits : code.length ≤ 256
  · rw [List.take_of_length_le hfits] at hpage
    rw [hpage]
    exact iff_of_true (fun v hv => Option.some.inj hv) (.inl hfits)
  · by_cases hfalls : falls_off (code.take 256) 257 0 = true
    · -- the cut script returns 0
      have hstart : falls_off (code.take 256) 257 Vm.new.reset.pc = true := hfalls
      have hzero : (Vm.new.run_bytes (code.take 256) NullHost ()).1 = .ok 0 :=
        run_bytes_loop_falls_off NullHost () hstart (Nat.zero_le _) (by omega)
      rw [hpage, hzero]
      constructor
      · intro h
        exact .inr (.inr (h 0 rfl))
      · rintro (h | h | h)
        · exact absurd h hfits
        · rw [hfalls] at h
          cases h
        · rintro v ⟨⟩
          exact h
    · rw [Bool.not_eq_true] at hfalls
      refine iff_of_true ?_ (.inr (.inl hfalls))
      intro v hv
      rw [hpage] at hv
      have hcut : (Vm.run_bytes_loop (code.take 256) NullHost 0 Vm.new.reset ()).1 = .ok v := Option.some.inj hv
      have hpc : Vm.new.reset.pc = 0 := rfl
      have hfuel : (code.take 256).length < Vm.new.reset.pc + 257 := by omega
      have hrun := run_bytes_loop_append NullHost (code.drop 256) () (Nat.zero_le _) hfuel hcut
      rw [List.take_append_drop] at hrun
      rcases hrun with hrun | hrun
      · exact absurd hrun (by rw [Bool.not_eq_true]; exact hfalls)
      · exact hrun

/-- A page with one word in front of its end. -/
theorem short_script_whole :
    (∀ v, run_page_eve_script (ascii "eve-script:010100000007") true = some (.ok v) →
      (Vm.new.run_bytes [1, 1, 0, 0, 0, 7] NullHost ()).1 = .ok v) ↔
      ([1, 1, 0, 0, 0, 7] : Bytes).length ≤ 256 ∨ falls_off (([1, 1, 0, 0, 0, 7] : Bytes).take 256) 257 0 = false ∨
        (Vm.new.run_bytes [1, 1, 0, 0, 0, 7] NullHost ()).1 = .ok 0 :=
  page_script_whole_iff
    (show FirstMarker (ascii "eve-script:010100000007") 0 from ⟨by decide, by decide⟩)
    ⟨[], ascii "010100000007", [], by decide +kernel, by decide +kernel, by decide +kernel, by decide +kernel⟩

/-- The sum of `n + 1` ones, each added to the sum of those behind it. -/
def ones : Nat → Expr
  | 0 => .lit 1
  | n + 1 => .add (.lit 1) (ones n)

/-- Code in lower-case digits. -/
def hex_text (code : Bytes) : Bytes := (code.flatMap nybbles).map fun d => byteAt (ascii "0123456789abcdef") d

/-- The code of 43 ones has 258 bytes, and the last two of them, an `Add` and the `Ret`, are cut off. -/
def ones_script : Bytes := assemble ((ones 42).compile ++ [.Ret])

def ones_page : Bytes := ascii "eve-script:" ++ hex_text ones_script

/-- The page returns 0, and its script 43. -/
theorem ones_page_cut :
    run_page_eve_script ones_page true = some (.ok 0) ∧
      (Vm.new.run_bytes ones_script NullHost ()).1 = .ok 43 := by
  have hmarker : FirstMarker ones_page 0 := ⟨by decide, by decide⟩
  have htext : ScriptText ones_page 0 ones_script :=
    ⟨[], hex_text ones_script, [], by decide +kernel, by decide +kernel, by decide +kernel, by decide +kernel⟩
  have hne : ones_script ≠ [] := by decide
  have hstart : falls_off (ones_script.take 256) 257 Vm.new.reset.pc = true := by decide +kernel
  have hlen : (ones_script.take 256).length ≤ Vm.new.reset.step_limit := by decide +kernel
  have hzero : (Vm.new.run_bytes (ones_script.take 256) NullHost ()).1 = .ok 0 :=
    run_bytes_loop_falls_off NullHost () hstart (Nat.zero_le _) hlen
  constructor
  · rw [run_page_script hmarker htext, if_neg hne, hzero]
  · exact Vm.run_bytes_compile NullHost (ones 42) Vm.new () (by decide +kernel) (by decide +kernel)

end EveOS.Script
