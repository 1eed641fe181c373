/-
Fixed-size buffers and records laid out in them by hand.

A Rust `[u8; n]` is a `Vector UInt8 n`. Code that fills such a buffer field by
field is a list of writes, each an offset and the bytes put there. As long as
no two writes touch, what stands in the buffer afterwards is what each of them
wrote, whatever the order (`getElem_writeAll`). That the writes of a record do
not touch is a fact about their offsets and lengths only, which can be computed.

Nothing in this file knows about the kernel.
-/
import EveOS.Lib.Bytes

set_option autoImplicit false

namespace EveOS

variable {n : Nat}

/-- `out[off..off + bs.len()].copy_from_slice(bs)`. -/
def patch (out : Vector UInt8 n) (off : Nat) (bs : Bytes) : Vector UInt8 n :=
  ⟨(out.toList.mapIdx fun i b =>
    if off ≤ i ∧ i < off + bs.length then byteAt bs (i - off) else b).toArray, by simp⟩

theorem getElem_patch (out : Vector UInt8 n) (off : Nat) (bs : Bytes) (i : Nat) (hi : i < n) :
    (patch out off bs)[i] =
      if off ≤ i ∧ i < off + bs.length then byteAt bs (i - off) else out[i] := by
  simp [patch]

/-- The `k` bytes at `off`, as an array: `a.copy_from_slice(&data[off..off + k])`. -/
def readArray (k : Nat) (data : Bytes) (off : Nat) : Vector UInt8 k :=
  Vector.ofFn fun i => byteAt data (off + i)

/-- The bytes of a buffer, read through a slice. -/
theorem byteAt_toList (out : Vector UInt8 n) (i : Nat) (hi : i < n) :
    byteAt out.toList i = out[i] := by
  simp [byteAt, hi]

/-- A write inside the buffer, seen as a list. -/
theorem toList_patch (out : Vector UInt8 n) (off : Nat) (bs : Bytes) (h : off + bs.length ≤ n) :
    (patch out off bs).toList = out.toList.take off ++ (bs ++ out.toList.drop (off + bs.length)) := by
  have hlen : (out.toList.take off ++ (bs ++ out.toList.drop (off + bs.length))).length = n := by
    simp only [List.length_append, List.length_take, List.length_drop, Vector.length_toList]
    omega
  apply List.ext_getElem
  · rw [hlen, Vector.length_toList]
  · intro i hi hi'
    have hin : i < n := by rwa [Vector.length_toList] at hi
    have htake : (out.toList.take off).length = off := by
      rw [List.length_take, Vector.length_toList]
      omega
    rw [Vector.getElem_toList, getElem_patch _ _ _ _ hin]
    split_ifs with hcov
    · -- inside the bytes written
      rw [List.getElem_append_right (by omega), List.getElem_append_left (by omega)]
      simp only [byteAt, htake]
      rw [List.getD_eq_getElem?_getD, List.getElem?_eq_getElem (by omega), Option.getD_some]
    · by_cases hlo : i < off
      · rw [List.getElem_append_left (by omega), List.getElem_take, Vector.getElem_toList]
      · rw [List.getElem_append_right (by omega), List.getElem_append_right (by omega),
          List.getElem_drop, Vector.getElem_toList]
        congr 1
        omega

/-- The byte at `i` after a write. -/
theorem byteAt_patch (out : Vector UInt8 n) (off : Nat) (bs : Bytes) (i : Nat) (hi : i < n) :
    byteAt (patch out off bs).toList i =
      if off ≤ i ∧ i < off + bs.length then byteAt bs (i - off) else byteAt out.toList i := by
  rw [byteAt_toList _ i hi, getElem_patch, byteAt_toList _ i hi]

/-- What was written is what stands there. -/
theorem slice_patch (out : Vector UInt8 n) (off : Nat) (bs : Bytes) (h : off + bs.length ≤ n) :
    slice (patch out off bs).toList off (off + bs.length) = bs := by
  have hlen : (patch out off bs).toList.length = n := Vector.length_toList
  rw [slice_eq_map (by omega), Nat.add_sub_cancel_left]
  apply List.ext_getElem
  · simp
  · intro k hk hk'
    rw [List.getElem_map, List.getElem_range, byteAt_patch _ _ _ _ (by omega), if_pos (by omega),
      Nat.add_sub_cancel_left, byteAt, List.getD_eq_getElem?_getD, List.getElem?_eq_getElem hk',
      Option.getD_some]

/-- A write leaves what it does not touch. -/
theorem slice_patch_of_apart (out : Vector UInt8 n) {off : Nat} {bs : Bytes} {a b : Nat} (hb : b ≤ n)
    (h : b ≤ off ∨ off + bs.length ≤ a) :
    slice (patch out off bs).toList a b = slice out.toList a b := by
  have hlen : (patch out off bs).toList.length = n := Vector.length_toList
  have hlen' : out.toList.length = n := Vector.length_toList
  rw [slice_eq_map (by omega), slice_eq_map (by omega)]
  apply List.map_congr_left
  intro k hk
  rw [List.mem_range] at hk
  rw [byteAt_patch _ _ _ _ (by omega), if_neg (by omega)]

/-- A second write to the same bytes replaces the first. -/
theorem patch_patch (out : Vector UInt8 n) (off : Nat) {bs cs : Bytes} (h : bs.length = cs.length) :
    patch (patch out off bs) off cs = patch out off cs := by
  apply Vector.ext
  intro i hi
  rw [getElem_patch, getElem_patch, getElem_patch, h]
  split_ifs <;> rfl

/-! ## Lists of writes -/

/-- The buffer after a list of writes, first to last. -/
def writeAll (out : Vector UInt8 n) (ws : List (Nat × Bytes)) : Vector UInt8 n :=
  ws.foldl (fun out w => patch out w.1 w.2) out

/-- Two ranges, each an offset and a length, have no byte in common. -/
def Apart (v w : Nat × Nat) : Prop := v.1 + v.2 ≤ w.1 ∨ w.1 + w.2 ≤ v.1

instance (v w : Nat × Nat) : Decidable (Apart v w) :=
  inferInstanceAs (Decidable (_ ∨ _))

/-- The range a write covers. -/
def extent (w : Nat × Bytes) : Nat × Nat := (w.1, w.2.length)

/-- A byte no write covers keeps its value. -/
theorem getElem_writeAll_of_uncovered (out : Vector UInt8 n) (ws : List (Nat × Bytes)) (i : Nat)
    (hi : i < n) (h : ∀ w ∈ ws, i < w.1 ∨ w.1 + w.2.length ≤ i) :
    (writeAll out ws)[i] = out[i] := by
  induction ws generalizing out with
  | nil => rfl
  | cons w ws ih =>
    have hw := h w List.mem_cons_self
    rw [writeAll, List.foldl_cons]
    refine (ih (patch out w.1 w.2) (fun v hv => h v (List.mem_cons_of_mem w hv))).trans ?_
    rw [getElem_patch, if_neg (by omega)]

/-- **Writes that do not touch can be read back.** -/
theorem getElem_writeAll (out : Vector UInt8 n) {ws : List (Nat × Bytes)}
    (hws : (ws.map extent).Pairwise Apart) {w : Nat × Bytes} (hw : w ∈ ws) (i : Nat) (hi : i < n)
    (hlo : w.1 ≤ i) (hhi : i < w.1 + w.2.length) :
    (writeAll out ws)[i] = byteAt w.2 (i - w.1) := by
  induction ws generalizing out with
  | nil => cases hw
  | cons v ws ih =>
    rw [List.map_cons, List.pairwise_cons] at hws
    rw [writeAll, List.foldl_cons]
    rcases List.mem_cons.mp hw with rfl | hmem
    · -- the later writes stay away from this one
      refine (getElem_writeAll_of_uncovered _ ws i hi ?_).trans ?_
      · intro u hu
        have happ := hws.1 (extent u) (List.mem_map_of_mem hu)
        simp only [Apart, extent] at happ
        omega
      · rw [getElem_patch, if_pos ⟨hlo, hhi⟩]
    · exact ih (patch out v.1 v.2) hws.2 hmem

end EveOS
