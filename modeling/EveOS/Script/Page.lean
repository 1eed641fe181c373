/-
The script of a page.

`run_page_eve_script` looks for the marker `eve-script:`, reads the hexadecimal digits behind it into a
buffer of 256 bytes, and runs them. `FirstMarker` and `ScriptText` say where the script of
a page stands and what its bytes are. A script that fits the buffer is run as a whole
(`run_page_whole`), and so the code of an expression computes it.
-/
import EveOS.Lib.Hex
import EveOS.Script.Expr

set_option autoImplicit false

namespace EveOS.Script

/-! ## The kernel -/

/-- `lower(hay[i + j]) == lower(needle[j])` for all `j`. -/
def matches_ci (hay needle : Bytes) (i : Nat) : Bool :=
  (List.range needle.length).all fun j => lowerAscii (byteAt hay (i + j)) == lowerAscii (byteAt needle j)

def find_ci (hay needle : Bytes) : Option Nat :=
  if needle = [] ∨ hay.length < needle.length then none
  else (List.range (hay.length - needle.length + 1)).find? (matches_ci hay needle)

def hex_nybble (b : UInt8) : Option UInt8 :=
  if 48 ≤ b && b ≤ 57 then some (b - 48)
  else if 97 ≤ b && b ≤ 102 then some (b - 97 + 10)
  else if 65 ≤ b && b ≤ 70 then some (b - 65 + 10)
  else none

def is_blank (b : UInt8) : Bool := b == 32 || b == 9 || b == 13 || b == 10

/-- The loop over the pairs of digits, into a buffer with room for `room` bytes. -/
def read_code : Nat → Bytes → Bytes
  | room + 1, a :: b :: rest =>
    match hex_nybble a with
    | none => []
    | some hi =>
      match hex_nybble b with
      | none => []
      | some lo => (hi <<< 4 ||| lo) :: read_code room rest
  | _, _ => []

def marker : Bytes := ascii "eve-script:"

def run_page_eve_script (raw : Bytes) (enabled : Bool) : Option (Except VmError Int32) :=
  if !enabled then none
  else do
    let at_ ← find_ci raw marker
    let code := read_code 256 ((raw.drop (at_ + marker.length)).dropWhile is_blank)
    if code = [] then return .error .TruncatedImm
    else return (Vm.new.run_bytes code NullHost ()).1

/-! ## Where the script stands -/

/-- The marker stands at `i`, in letters of any case. -/
def MarkerAt (page : Bytes) (i : Nat) : Prop := (slice page i (i + marker.length)).map lowerAscii = marker

instance (page : Bytes) (i : Nat) : Decidable (MarkerAt page i) := inferInstanceAs (Decidable (_ = _))

def FirstMarker (page : Bytes) (i : Nat) : Prop := MarkerAt page i ∧ ∀ k < i, ¬MarkerAt page k

/-- The two digits of a byte. -/
def nybbles (b : UInt8) : List Nat := [b.toNat / 16, b.toNat % 16]

/-- `code` in hexadecimal digits stands behind the marker at `i` and blanks, and no digit
stands behind it. Where there are no digits, all the blanks are in front. -/
def ScriptText (page : Bytes) (i : Nat) (code : Bytes) : Prop :=
  ∃ blanks text rest, page.drop (i + marker.length) = blanks ++ (text ++ rest) ∧
    (∀ b ∈ blanks, is_blank b = true) ∧ text.mapM hexValue = some (code.flatMap nybbles) ∧
    ∀ c ∈ rest.head?, hexValue c = none ∧ (code = [] → is_blank c = false)

section Marker

variable {page : Bytes} {i : Nat}

theorem matches_ci_iff (h : i + marker.length ≤ page.length) : matches_ci page marker i = true ↔ MarkerAt page i := by
  have hlow : ∀ j ∈ List.range marker.length, lowerAscii (byteAt marker j) = byteAt marker j := by decide
  have hbytes : marker = (List.range marker.length).map (byteAt marker) := by decide
  have hslice : slice page i (i + marker.length) = (List.range marker.length).map fun j => byteAt page (i + j) := by
    rw [slice_eq_map h, Nat.add_sub_cancel_left]
  rw [matches_ci, MarkerAt, hslice, List.map_map, List.all_eq_true]
  conv_rhs => rw [hbytes]
  rw [List.length_map, List.length_range, List.map_inj_left]
  refine forall₂_congr ?_
  intro j hj
  rw [beq_iff_eq, hlow j hj]
  rfl

/-- A marker stands inside the page. -/
theorem MarkerAt.le (h : MarkerAt page i) : i + marker.length ≤ page.length := by
  have hlen := congrArg List.length h
  have hmarker : marker.length = 11 := rfl
  rw [List.length_map, slice, List.length_take, List.length_drop] at hlen
  omega

/-- **The search finds the first marker.** -/
theorem find_ci_marker (h : FirstMarker page i) : find_ci page marker = some i := by
  obtain ⟨hat, hfirst⟩ := h
  have hle := hat.le
  have hne : marker ≠ [] := by decide
  rw [find_ci, if_neg (by simp [hne]; omega), List.find?_range_eq_some]
  refine ⟨(matches_ci_iff hle).mpr hat, by rw [List.mem_range]; omega, ?_⟩
  intro k hk
  rw [Bool.not_eq_true', ← Bool.not_eq_true, matches_ci_iff (by omega)]
  exact hfirst k hk

end Marker

/-! ## What the script is -/

section Text

variable {page code : Bytes} {i : Nat}

theorem hex_nybble_eq (b : UInt8) : hex_nybble b = (hexValue b).map UInt8.ofNat := by
  have hall : ∀ b : UInt8, hex_nybble b = (hexValue b).map UInt8.ofNat := by decide +kernel
  exact hall b

/-- A byte is put together from its digits. -/
theorem byte_of_nybbles (b : UInt8) : UInt8.ofNat (b.toNat / 16) <<< 4 ||| UInt8.ofNat (b.toNat % 16) = b := by
  have hall : ∀ b : UInt8, UInt8.ofNat (b.toNat / 16) <<< 4 ||| UInt8.ofNat (b.toNat % 16) = b := by decide +kernel
  exact hall b

theorem blank_no_digit {b : UInt8} (h : is_blank b = true) : hexValue b = none := by
  have hall : ∀ b : UInt8, is_blank b = true → hexValue b = none := by decide +kernel
  exact hall b h

/-- **The digits are read up to the end of the buffer.** -/
theorem read_code_text {text rest : Bytes} (room : Nat) (htext : text.mapM hexValue = some (code.flatMap nybbles))
    (hrest : ∀ c ∈ rest.head?, hexValue c = none) : read_code room (text ++ rest) = code.take room := by
  induction code generalizing room text with
  | nil =>
    have hlen := length_mapM_hexValue htext
    obtain rfl : text = [] := List.length_eq_zero_iff.mp hlen.symm
    rw [List.nil_append, List.take_nil]
    rcases room with _ | room
    · rfl
    · rcases rest with _ | ⟨a, _ | ⟨b, rest⟩⟩
      · rfl
      · rfl
      · rw [read_code, hex_nybble_eq, hrest a rfl]
        rfl
  | cons c code ih =>
    have hcons : (c :: code).flatMap nybbles = c.toNat / 16 :: c.toNat % 16 :: code.flatMap nybbles := rfl
    rw [hcons] at htext
    rcases text with _ | ⟨a, _ | ⟨b, text⟩⟩
    · cases htext
    · have hlen := length_mapM_hexValue htext
      simp at hlen
    · obtain ⟨hi, ds, ha, hds, heq⟩ := hexValue_mapM_cons htext
      obtain ⟨lo, ds', hb, htext', rfl⟩ := hexValue_mapM_cons hds
      obtain ⟨rfl, rfl, rfl⟩ : c.toNat / 16 = hi ∧ c.toNat % 16 = lo ∧ code.flatMap nybbles = ds' := by
        simpa using heq
      rcases room with _ | room
      · rfl
      · rw [List.cons_append, List.cons_append, read_code, hex_nybble_eq, ha, hex_nybble_eq, hb]
        dsimp only [Option.map_some]
        rw [byte_of_nybbles, ih room htext', List.take_succ_cons]

/-- **The script of a page.** Its first 256 bytes are run. -/
theorem run_page_script (hmarker : FirstMarker page i) (htext : ScriptText page i code) :
    run_page_eve_script page true =
      some (if code = [] then .error .TruncatedImm else (Vm.new.run_bytes (code.take 256) NullHost ()).1) := by
  obtain ⟨blanks, text, rest, hpage, hblanks, hdigits, hrest⟩ := htext
  have hdrop : (page.drop (i + marker.length)).dropWhile is_blank = text ++ rest := by
    rw [hpage, List.dropWhile_append_of_pos hblanks]
    rcases text with _ | ⟨a, text⟩
    · have hnil : code = [] := by
        have hlen := length_mapM_hexValue hdigits
        rcases code with _ | ⟨c, code⟩
        · rfl
        · simp [nybbles] at hlen
      rcases rest with _ | ⟨c, rest⟩
      · rfl
      · have hc := (hrest c rfl).2 hnil
        rw [List.nil_append, List.dropWhile_cons_of_neg (by simp [hc])]
    · obtain ⟨d, ds, hd, -, -⟩ := hexValue_mapM_cons hdigits
      have ha : is_blank a ≠ true := fun h => by
        rw [blank_no_digit h] at hd
        cases hd
      rw [List.cons_append, List.dropWhile_cons_of_neg ha]
  have hread := read_code_text 256 hdigits fun c hc => (hrest c hc).1
  have hempty : code.take 256 = [] ↔ code = [] := by simp
  unfold run_page_eve_script
  rw [Bool.not_true, if_neg Bool.false_ne_true, find_ci_marker hmarker, Option.bind_eq_bind, Option.bind_some, hdrop,
    hread]
  by_cases hnil : code = []
  · rw [if_pos (hempty.mpr hnil), if_pos hnil]
    rfl
  · rw [if_neg fun h => hnil (hempty.mp h), if_neg hnil]
    rfl

theorem length_read_code (room : Nat) (text : Bytes) : (read_code room text).length ≤ room := by
  fun_induction read_code room text with
  | case1 | case2 => exact Nat.zero_le _
  | case3 room a b rest hi _ lo _ ih =>
    rw [List.length_cons]
    omega
  | case4 => exact Nat.zero_le _

end Text

/-! ## The step limit -/

section StepLimit

variable {σ : Type*} (host : HostApi σ)

theorem decode_op_error {code : Bytes} {pc pc' : Nat} {e : VmError} (h : decode_op code pc = (.error e, pc')) :
    e ≠ .StepLimit := by
  rintro rfl
  unfold decode_op at h
  dsimp only at h
  split_ifs at h <;> cases h

/-- **The limit is not reached** by code that has no more bytes than it has steps: every step takes a byte. -/
theorem run_bytes_loop_no_limit (code : Bytes) (steps : Nat) (vm : Vm) (w : σ) (hsteps : steps ≤ vm.pc)
    (hcode : code.length ≤ vm.step_limit) :
    (Vm.run_bytes_loop code host steps vm w).1 ≠ .error .StepLimit := by
  induction hn : code.length - vm.pc using Nat.strong_induction_on generalizing steps vm w with
  | _ n ih =>
    rw [Vm.run_bytes_loop]
    by_cases hin : vm.pc < code.length
    · rw [dif_pos hin, if_neg (by omega)]
      split
      · next e pc hd =>
        intro h
        exact decode_op_error hd (Except.error.inj h)
      · next op pc hd =>
        have hnext := decode_op_pc hin
        rw [hd] at hnext
        dsimp only at hnext
        split
        · simp
        · next vm' w' hr =>
          have hpc := Vm.run_op_pc (vm.at_pc pc) op host w
          have hlimit := Vm.run_op_step_limit (vm.at_pc pc) op host w
          rw [← Vm.exec_one_eq_run_op, hr] at hpc hlimit
          dsimp only [Vm.at_pc_pc, Vm.at_pc_step_limit] at hpc hlimit
          exact ih _ (by omega) (steps + 1) vm' w' (by omega) (by omega) rfl
    · rw [dif_neg hin]
      simp

end StepLimit

/-- No page is stopped by the limit. -/
theorem run_page_no_limit (page : Bytes) (enabled : Bool) :
    run_page_eve_script page enabled ≠ some (.error .StepLimit) := by
  unfold run_page_eve_script
  cases enabled with
  | false => simp
  | true =>
    rw [Bool.not_true, if_neg Bool.false_ne_true]
    rcases find_ci page marker with _ | i
    · simp
    · rw [Option.bind_eq_bind, Option.bind_some]
      have hlen := length_read_code 256 ((page.drop (i + marker.length)).dropWhile is_blank)
      generalize read_code 256 ((page.drop (i + marker.length)).dropWhile is_blank) = code at hlen
      have hrun := run_bytes_loop_no_limit NullHost code 0 Vm.new.reset () (Nat.zero_le _)
        (by
          have hlimit : Vm.new.reset.step_limit = 4096 := rfl
          omega)
      dsimp only
      by_cases hnil : code = []
      · rw [if_pos hnil]
        simp
      · rw [if_neg hnil]
        intro h
        exact hrun (Option.some.inj h)

/-- **Page scripts compute their expression.** A page whose first marker is followed by the code
of an expression, of at most 256 bytes, returns its value; and no page is stopped by the step limit. -/
theorem page_script_value :
    (∀ (e : Expr) (page : Bytes) (i : Nat), FirstMarker page i →
      ScriptText page i (assemble (e.compile ++ [.Ret])) → (assemble (e.compile ++ [.Ret])).length ≤ 256 →
        run_page_eve_script page true = some (.ok e.eval)) ∧
    ∀ (page : Bytes) (enabled : Bool), run_page_eve_script page enabled ≠ some (.error .StepLimit) := by
  refine ⟨?_, run_page_no_limit⟩
  intro e page i hmarker htext hlen
  have hret : (assemble [.Ret]).length = 1 := rfl
  have hsize := e.length_assemble_compile
  have hdepth := e.depth_le
  have hops := Expr.length_le_assemble e.compile
  rw [assemble_append, List.length_append, hret] at hlen
  have hne : assemble (e.compile ++ [.Ret]) ≠ [] := by
    intro h
    have hzero := congrArg List.length h
    rw [assemble_append, List.length_append, hret, List.length_nil] at hzero
    omega
  have htake : (assemble (e.compile ++ [.Ret])).take 256 = assemble (e.compile ++ [.Ret]) := by
    apply List.take_of_length_le
    rw [assemble_append, List.length_append, hret]
    exact hlen
  have hlimit : Vm.new.step_limit = 4096 := rfl
  rw [run_page_script hmarker htext, if_neg hne, htake]
  exact congrArg some (Vm.run_bytes_compile NullHost e Vm.new () (by omega) (by omega))

/-- The sum of 3 and 4 in the middle of a page. -/
theorem seven_page_value :
    run_page_eve_script (ascii "<p>EVE-Script: 01030000000104000000020" ++ ascii "7</p>") true =
      some (.ok (Expr.add (.lit 3) (.lit 4)).eval) :=
  page_script_value.1 (.add (.lit 3) (.lit 4)) _ 3 ⟨by decide, by decide⟩
    ⟨[32], ascii "010300000001040000000207", ascii "</p>", by decide +kernel, by decide +kernel, by decide +kernel,
      by decide +kernel⟩ (by decide +kernel)

end EveOS.Script
