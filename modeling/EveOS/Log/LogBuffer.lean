/-
The lines of the LOG tab: `kernel/src/log_buffer.rs`.

A line is cut at 120 bytes and cleaned of control characters. The last 512 of them are
kept in a ring, which is a window on all lines that were ever pushed.
-/
import EveOS.Lib.Returns
import EveOS.Lib.Run
import EveOS.Lib.Bytes
import EveOS.Lib.Window

set_option autoImplicit false

namespace EveOS.Log

def CAP : Nat := 512
def LINE : Nat := 120

/-- The statics. An index into an array is below `CAP`. -/
structure LogBuffer where
  lines : Nat → Bytes
  lens : Nat → UInt8
  first : Nat
  len : Nat
  dirty : Bool

def LogBuffer.start : LogBuffer where
  lines := fun _ => List.replicate LINE 0
  lens := fun _ => 0
  first := 0
  len := 0
  dirty := false

/-- Control characters become spaces. -/
def clean (c : UInt8) : UInt8 := if c = 10 ∨ c = 13 ∨ c < 32 then 32 else c

def LogBuffer.push_line (s : LogBuffer) (msg : Bytes) : LogBuffer :=
  let n := min msg.length LINE
  let buf := (msg.take n).map clean ++ List.replicate (LINE - n) 0
  let (pos, first, len) :=
    if s.len < CAP then ((s.first + s.len) % CAP, s.first, s.len + 1) else (s.first, (s.first + 1) % CAP, s.len)
  { lines := Function.update s.lines pos buf, lens := Function.update s.lens pos (UInt8.ofNat n), first, len, dirty := true }

def LogBuffer.count (s : LogBuffer) : Nat := s.len

def LogBuffer.line_at (s : LogBuffer) (i : Nat) : Option (Option Bytes) :=
  if s.len ≤ i then some none
  else do
    let idx := (s.first + i) % CAP
    let n := (s.lens idx).toNat
    let line ← slice? (s.lines idx) 0 n
    return some line

/-! ## What the tab shows -/

/-- The first 120 bytes of a message, with spaces for control characters. -/
def shown (msg : Bytes) : Bytes := (msg.take 120).map fun c => if c < 32 then 32 else c

/-- A line as it is kept, with its length. -/
def entry (msg : Bytes) : Bytes × UInt8 :=
  ((msg.take (min msg.length LINE)).map clean ++ List.replicate (LINE - min msg.length LINE) 0,
    UInt8.ofNat (min msg.length LINE))

/-- The buffer after the messages `ms`. -/
structure LogBuffer.Holds (s : LogBuffer) (ms : List Bytes) : Prop where
  first_lt : s.first < CAP
  len : s.len = min ms.length CAP
  window : Window CAP (fun i => (s.lines i, s.lens i)) s.first (lastN CAP (ms.map entry))

section Lines

variable {s : LogBuffer} {ms : List Bytes}

theorem clean_eq (c : UInt8) : clean c = if c < 32 then 32 else c := by
  unfold clean
  by_cases hc : c < 32
  · rw [if_pos hc, if_pos (.inr (.inr hc))]
  · rw [if_neg hc, if_neg]
    rintro (rfl | rfl | hlt)
    · exact hc (by decide)
    · exact hc (by decide)
    · exact hc hlt

/-- A kept line is read back as it is shown. -/
theorem slice_entry (msg : Bytes) : slice? (entry msg).1 0 (entry msg).2.toNat = some (shown msg) := by
  have hn : (entry msg).2.toNat = min msg.length LINE := by
    unfold entry LINE
    rw [UInt8.toNat_ofNat']
    omega
  have hlen : ((msg.take (min msg.length LINE)).map clean).length = min msg.length LINE := by
    rw [List.length_map, List.length_take]
    omega
  have hclean : clean = fun c => if c < 32 then 32 else c := funext clean_eq
  have htake : msg.take (min msg.length LINE) = msg.take 120 := by
    rw [Nat.min_comm, ← List.take_eq_take_min]
    rfl
  unfold entry at hn ⊢
  rw [hn, slice?_append 0 (Nat.le_of_eq hlen.symm), slice?_eq (Nat.zero_le _) (Nat.le_of_eq hlen.symm), List.drop_zero,
    Nat.sub_zero, List.take_of_length_le (Nat.le_of_eq hlen), htake, hclean]
  rfl

theorem start_holds : LogBuffer.start.Holds [] := ⟨by decide, rfl, Window.nil _ _⟩

/-- An entry in both arrays. -/
theorem update_entry (s : LogBuffer) (pos : Nat) (msg : Bytes) :
    (fun i => (Function.update s.lines pos (entry msg).1 i, Function.update s.lens pos (entry msg).2 i)) =
      Function.update (fun i => (s.lines i, s.lens i)) pos (entry msg) := by
  funext i
  by_cases hi : i = pos
  · rw [hi, Function.update_self, Function.update_self, Function.update_self]
  · rw [Function.update_of_ne hi, Function.update_of_ne hi, Function.update_of_ne hi]

/-- **One more message**: it goes behind the others, or in the place of the oldest. -/
theorem push_line_holds (h : s.Holds ms) (msg : Bytes) : (s.push_line msg).Holds (ms ++ [msg]) := by
  have hlen := h.len
  have hfirst := h.first_lt
  have hpush := h.window.push (by decide : 0 < CAP) (entry msg)
  rw [← List.map_singleton, ← List.map_append, List.length_map] at hpush
  have hcount : (ms ++ [msg]).length = ms.length + 1 := by rw [List.length_append, List.length_singleton]
  by_cases hroom : s.len < CAP
  · have hstep : s.push_line msg = ⟨Function.update s.lines ((s.first + s.len) % CAP) (entry msg).1,
        Function.update s.lens ((s.first + s.len) % CAP) (entry msg).2, s.first, s.len + 1, true⟩ := by
      unfold LogBuffer.push_line
      rw [if_pos hroom]
      rfl
    rw [if_pos (by omega)] at hpush
    rw [hstep]
    refine ⟨hfirst, ?_, ?_⟩
    · show s.len + 1 = min (ms ++ [msg]).length CAP
      omega
    · have hsame : s.len = ms.length := by omega
      dsimp only
      rw [update_entry, hsame]
      exact hpush
  · have hstep : s.push_line msg = ⟨Function.update s.lines s.first (entry msg).1,
        Function.update s.lens s.first (entry msg).2, (s.first + 1) % CAP, s.len, true⟩ := by
      unfold LogBuffer.push_line
      rw [if_neg hroom]
      rfl
    rw [if_neg (by omega), Nat.mod_eq_of_lt hfirst] at hpush
    rw [hstep]
    refine ⟨Nat.mod_lt _ (by decide), ?_, ?_⟩
    · show s.len = min (ms ++ [msg]).length CAP
      omega
    · dsimp only
      rw [update_entry]
      exact hpush.congr (Nat.mod_mod _ _)

theorem run_holds (ms : List Bytes) : (run LogBuffer.push_line LogBuffer.start ms).Holds ms := by
  induction ms using List.reverseRecOn with
  | nil => exact start_holds
  | append_singleton ms msg ih =>
    rw [run_append, run_cons, run_nil]
    exact push_line_holds ih msg

/-- What a buffer that holds `ms` shows. -/
theorem line_at_eq (h : s.Holds ms) {i : Nat} (hi : i < s.count) :
    ∃ msg, ms[ms.length - s.count + i]? = some msg ∧ s.line_at i = some (some (shown msg)) := by
  have hlen := h.len
  unfold LogBuffer.count at hi ⊢
  have hentry := h.window.holds i (by rw [length_lastN, List.length_map]; omega)
  have hfrom : ms.length - CAP + i = ms.length - s.len + i := by omega
  obtain ⟨msg, hmsg⟩ : ∃ msg, ms[ms.length - s.len + i]? = some msg :=
    ⟨_, List.getElem?_eq_getElem (by omega : ms.length - s.len + i < ms.length)⟩
  rw [getElem?_lastN, List.length_map, hfrom, List.getElem?_map, hmsg, Option.map_some] at hentry
  have hpair := Option.some.inj hentry
  have hline : s.lines ((s.first + i) % CAP) = (entry msg).1 := (congrArg Prod.fst hpair).symm
  have hlens : s.lens ((s.first + i) % CAP) = (entry msg).2 := (congrArg Prod.snd hpair).symm
  refine ⟨msg, hmsg, ?_⟩
  unfold LogBuffer.line_at
  rw [if_neg (by omega)]
  dsimp only
  rw [hline, hlens, slice_entry]
  rfl

end Lines

/-- **The log has the last 512 messages**, the oldest one first, and nothing behind
them. -/
theorem log_keeps_the_last (ms : List Bytes) :
    (run LogBuffer.push_line LogBuffer.start ms).count = min ms.length 512 ∧
      (∀ i < (run LogBuffer.push_line LogBuffer.start ms).count,
        ∃ msg, ms[ms.length - (run LogBuffer.push_line LogBuffer.start ms).count + i]? = some msg ∧
          (run LogBuffer.push_line LogBuffer.start ms).line_at i = some (some (shown msg))) ∧
      ∀ i, (run LogBuffer.push_line LogBuffer.start ms).count ≤ i →
        (run LogBuffer.push_line LogBuffer.start ms).line_at i = some none := by
  have hholds := run_holds ms
  refine ⟨hholds.len, fun i hi => line_at_eq hholds hi, ?_⟩
  intro i hi
  unfold LogBuffer.count at hi
  unfold LogBuffer.line_at
  rw [if_pos hi]

example : (run LogBuffer.push_line LogBuffer.start [ascii "one", ascii "t\two"]).line_at 1 = some (some (ascii "t wo")) := by
  decide +kernel

end EveOS.Log
