/-
Frames with cursors: `prime_cursors` and any number of `patch_cursors_only`.

A frame leaves the image with the active cursors drawn over it, and in the slots what is
under them. So the next frame finds the image again, whatever moved in between.
-/
import EveOS.Gfx.SaveUnder

set_option autoImplicit false

namespace EveOS.Gfx

/-- The sum of a position with 9 is an `i32`. -/
def Cursors.Fits (state : Cursors) : Prop :=
  ∀ i, (state.cursor_x i).toInt + 9 < 2 ^ 31 ∧ (state.cursor_y i).toInt + 9 < 2 ^ 31

section Frame

variable {info : FrameBufferInfo} {image : Bytes} {eng : CursorEngine} {state : Cursors}

/-- A slot that was saved for a cursor of a state. -/
def SavedFor (info : FrameBufferInfo) (image : Bytes) (state : Cursors) (i : Fin MAX_CURSORS) (s : Slot) : Prop :=
  (s.save_valid = true → s.Holds info image) ∧
    ∀ k, Covers info (state.cursor_x i) (state.cursor_y i) k → s.save_valid = true ∧ s.Rect info k

/-- The loop that saves: the slots of active cursors are saved, the others stay. -/
theorem save_list_returns (hinfo : info.ForCursors) (himage : info.Holds image) (hfits : state.Fits)
    (is : List (Fin MAX_CURSORS)) :
    Returns (is.foldlM (fun (eng : CursorEngine) i => eng.save_one image info state i) eng) fun eng' =>
      ∀ i, i ∈ is ∧ state.cursor_active i = true ∧ SavedFor info image state i (eng' i) ∨
        ¬ (i ∈ is ∧ state.cursor_active i = true) ∧ eng' i = eng i := by
  induction is generalizing eng with
  | nil => exact .ret fun i => .inr ⟨fun h => List.not_mem_nil h.1, rfl⟩
  | cons i is ih =>
    have hslot := slot_save_returns (s := eng i) hinfo himage (hfits i).1 (hfits i).2
    rw [List.foldlM_cons]
    cases hactive : state.cursor_active i with
    | false =>
      have hone : eng.save_one image info state i = some eng := by
        unfold CursorEngine.save_one
        rw [hactive, if_neg Bool.false_ne_true]
      rw [hone, Option.bind_eq_bind, Option.bind_some]
      refine ih.mono fun eng' h j => ?_
      rcases h j with ⟨hmem, hrest⟩ | ⟨hnot, hsame⟩
      · exact .inl ⟨List.mem_cons_of_mem _ hmem, hrest⟩
      · refine .inr ⟨?_, hsame⟩
        rintro ⟨hmem, hj⟩
        rcases List.mem_cons.mp hmem with rfl | hmem
        · rw [hactive] at hj
          cases hj
        · exact hnot ⟨hmem, hj⟩
    | true =>
      obtain ⟨slot, hsave, hsaved⟩ := hslot
      have hone : eng.save_one image info state i = some (Function.update eng i slot) := by
        unfold CursorEngine.save_one
        rw [hactive, if_pos rfl, hsave]
        rfl
      rw [hone, Option.bind_eq_bind, Option.bind_some]
      refine ih.mono fun eng' h j => ?_
      rcases h j with ⟨hmem, hrest⟩ | ⟨hnot, hsame⟩
      · exact .inl ⟨List.mem_cons_of_mem _ hmem, hrest⟩
      · by_cases hij : j = i
        · rw [hij, Function.update_self] at hsame
          rw [hij, hsame]
          exact .inl ⟨List.mem_cons_self, hactive, hsaved⟩
        · rw [Function.update_of_ne hij] at hsame
          refine .inr ⟨?_, hsame⟩
          rintro ⟨hmem, hj⟩
          exact hnot ⟨(List.mem_cons.mp hmem).resolve_left hij, hj⟩

/-- Drawing changes at most what an active cursor covers. -/
theorem draw_all_returns (hinfo : info.ForCursors) (himage : info.Holds image) (hfits : state.Fits)
    (presets : Nat → Bytes) :
    Returns (draw_all_cursors presets image info state) fun out => out.length = image.length ∧
      ∀ k, (∀ i, state.cursor_active i = true → ¬ Covers info (state.cursor_x i) (state.cursor_y i) k) →
        out[k]? = image[k]? := by
  refine Returns.foldlM (fun out i hout => ?_) ⟨rfl, fun _ _ => rfl⟩ _
  split_ifs with hactive
  · refine (draw_sprite_returns hinfo.sound (himage.of_length hout.1) hinfo.width.2 hinfo.height.2 (hfits i).1
      (hfits i).2 presets state.cursor_emoji_preset i).mono ?_
    intro out' h
    refine ⟨h.1.trans hout.1, fun k hk => ?_⟩
    rw [h.2 k (hk i hactive), hout.2 k hk]
  · exact .ret hout

/-- **A frame** over the bare image: it shows the active cursors, and what is under them
is saved. -/
theorem frame_returns (hinfo : info.ForCursors) (himage : info.Holds image) (hfits : state.Fits)
    (hinvalid : ∀ i, (eng i).save_valid = false) (presets : Nat → Bytes) :
    Returns (eng.prime_cursors presets image info state) fun r =>
      Under info image r.1 r.2 ∧ draw_all_cursors presets image info state = some r.2 := by
  refine (save_list_returns hinfo himage hfits _).bind fun eng' hsaved => ?_
  obtain ⟨out, hout, hlen, hkept⟩ := draw_all_returns hinfo himage hfits presets
  rw [hout, Option.bind_eq_bind, Option.bind_some]
  refine .ret ⟨⟨hlen, ?_, ?_⟩, rfl⟩
  · intro i hvalid
    rcases hsaved i with ⟨-, hactive, hslot⟩ | ⟨-, hsame⟩
    · have hholds := hslot.1 hvalid
      exact ⟨hactive, hholds.width, hholds.sides, hholds.rows, hholds.nonempty, hholds.short⟩
    · have hfalse := hinvalid i
      rw [← hsame] at hfalse
      exact absurd (hfalse.symm.trans hvalid) Bool.false_ne_true
  · intro k hk
    refine hkept k ?_
    intro i hactive hcovers
    rcases hsaved i with ⟨-, -, hslot⟩ | ⟨hnot, -⟩
    · exact hk i (hslot.2 k hcovers).1 (hslot.2 k hcovers).2
    · exact hnot ⟨List.mem_finRange i, hactive⟩

/-- A patch is a frame over the image that it restores. -/
theorem patch_returns (hinfo : info.ForCursors) (himage : info.Holds image) (hfits : state.Fits) {buf : Bytes}
    (h : Under info image eng buf) (presets : Nat → Bytes) :
    Returns (eng.patch_cursors_only presets buf info state) fun r =>
      Under info image r.1 r.2 ∧ draw_all_cursors presets image info state = some r.2 := by
  obtain ⟨⟨eng', restored⟩, hrestore, himage', hinvalid⟩ := restore_active_returns hinfo himage h
  dsimp only at himage' hinvalid
  subst himage'
  unfold CursorEngine.patch_cursors_only
  rw [hrestore, Option.bind_eq_bind, Option.bind_some]
  exact frame_returns hinfo himage hfits hinvalid presets

end Frame

/-- A full paint, and patches behind it. -/
def CursorEngine.frames (presets : Nat → Bytes) (eng : CursorEngine) (image : Bytes) (info : FrameBufferInfo)
    (first : Cursors) (rest : List Cursors) : Option (CursorEngine × Bytes) := do
  let s ← eng.prime_cursors presets image info first
  rest.foldlM (fun (s : CursorEngine × Bytes) state => s.1.patch_cursors_only presets s.2 info state) s

/-- Patches, with the state that is shown. -/
theorem patches_return {info : FrameBufferInfo} {image : Bytes} (hinfo : info.ForCursors) (himage : info.Holds image)
    (presets : Nat → Bytes) {shown : Cursors} {rest : List Cursors} (hfits : ∀ state ∈ rest, state.Fits)
    {s : CursorEngine × Bytes} (h : Under info image s.1 s.2 ∧ draw_all_cursors presets image info shown = some s.2) :
    Returns (rest.foldlM (fun (s : CursorEngine × Bytes) state => s.1.patch_cursors_only presets s.2 info state) s)
      fun r => Under info image r.1 r.2 ∧
        draw_all_cursors presets image info (rest.getLastD shown) = some r.2 := by
  induction rest generalizing s shown with
  | nil => exact .ret h
  | cons state rest ih =>
    rw [List.foldlM_cons]
    refine (patch_returns hinfo himage (hfits state List.mem_cons_self) h.1 presets).bind fun r hr => ?_
    rw [List.getLastD_cons]
    exact ih (fun state hstate => hfits state (List.mem_cons_of_mem _ hstate)) hr

/-- **Cursors leave no trace**: what is shown is the image with the active cursors drawn
over it, and restoring them gives back the image. -/
theorem cursors_leave_no_trace {info : FrameBufferInfo} {image : Bytes} (hinfo : info.ForCursors)
    (himage : info.Holds image) (presets : Nat → Bytes) {eng : CursorEngine} (hinvalid : ∀ i, (eng i).save_valid = false)
    {first : Cursors} {rest : List Cursors} (hfits : ∀ state ∈ first :: rest, state.Fits) :
    Returns (eng.frames presets image info first rest) fun r =>
      draw_all_cursors presets image info (rest.getLastD first) = some r.2 ∧
        Returns (r.1.restore_active r.2 info) fun r' => r'.2 = image := by
  have hrest : ∀ state ∈ rest, state.Fits := fun state hstate => hfits state (List.mem_cons_of_mem _ hstate)
  refine (frame_returns hinfo himage (hfits first List.mem_cons_self) hinvalid presets).bind fun s hs => ?_
  refine (patches_return hinfo himage presets hrest hs).mono fun r hr => ⟨hr.2, ?_⟩
  exact (restore_active_returns hinfo himage hr.1).mono fun r' hr' => hr'.1

/-- `static_initial`. -/
def CursorEngine.static_initial : CursorEngine := fun _ => ⟨false, 0, 0, 0, 0, [], false⟩

/-- Two cursors on a small screen, the second one at `x`. -/
def two_cursors (x : Int32) : Cursors where
  cursor_x := fun i => if i.val = 0 then 0 else x
  cursor_y := fun _ => 0
  cursor_active := fun i => i.val = 0 ∨ i.val = 1
  cursor_emoji_preset := 0

theorem two_cursors_fit {x : Int32} (hx : x.toInt + 9 < 2 ^ 31) : (two_cursors x).Fits := by
  have hzero : (0 : Int32).toInt + 9 < 2 ^ 31 := by decide
  intro i
  refine ⟨?_, hzero⟩
  unfold two_cursors
  dsimp only
  split_ifs
  · exact hzero
  · exact hx

theorem two_cursors_leave_no_trace :
    Returns (CursorEngine.static_initial.frames (fun _ => List.replicate 1024 255) (List.replicate 32 7) ⟨3, 2, 4, .Bgr, 4⟩
        (two_cursors 1) [two_cursors (-20), two_cursors 2]) fun r =>
      draw_all_cursors (fun _ => List.replicate 1024 255) (List.replicate 32 7) ⟨3, 2, 4, .Bgr, 4⟩ (two_cursors 2) = some r.2 ∧
        Returns (r.1.restore_active r.2 ⟨3, 2, 4, .Bgr, 4⟩) fun r' => r'.2 = List.replicate 32 7 := by
  have hinfo : FrameBufferInfo.ForCursors ⟨3, 2, 4, .Bgr, 4⟩ := ⟨by decide, by decide, by decide, by decide⟩
  have himage : FrameBufferInfo.Holds ⟨3, 2, 4, .Bgr, 4⟩ (List.replicate 32 7) := ⟨by decide, by decide⟩
  refine cursors_leave_no_trace hinfo himage _ (fun _ => rfl) ?_
  simp only [List.forall_mem_cons, List.not_mem_nil, false_implies, implies_true, and_true]
  exact ⟨two_cursors_fit (by decide), two_cursors_fit (by decide), two_cursors_fit (by decide)⟩

/-- A line of 2^31 grey pixels. -/
def WIDE : FrameBufferInfo := ⟨2 ^ 31, 1, 2 ^ 31, .U8, 1⟩

/-- The width is no `i32`, and `clamp` stops the machine at the first cursor. -/
theorem wide_frame_stops (image : Bytes) :
    CursorEngine.static_initial.frames (fun _ => []) image WIDE (two_cursors 0) [] = none := by
  have hclip : clip_side 0 (2 ^ 31) = none := by decide
  have hrect : cursor_clip_rect 0 0 WIDE.width WIDE.height = none := by
    unfold cursor_clip_rect WIDE
    rw [hclip]
    rfl
  have hlist : List.finRange MAX_CURSORS = (⟨0, by decide⟩ : Fin MAX_CURSORS) :: (List.finRange MAX_CURSORS).tail := by decide
  have hsave : CursorEngine.static_initial.save_one image WIDE (two_cursors 0) ⟨0, by decide⟩ = none := by
    have hactive : (two_cursors 0).cursor_active ⟨0, by decide⟩ = true := rfl
    have hx : (two_cursors 0).cursor_x ⟨0, by decide⟩ = 0 := rfl
    have hy : (two_cursors 0).cursor_y ⟨0, by decide⟩ = 0 := rfl
    unfold CursorEngine.save_one Slot.save_one
    rw [hactive, if_pos rfl, hx, hy, hrect]
    rfl
  unfold CursorEngine.frames CursorEngine.prime_cursors CursorEngine.save_active
  rw [hlist, List.foldlM_cons, hsave]
  rfl

theorem wide_screen_stops :
    WIDE.Sound ∧ WIDE.Holds (List.replicate (2 ^ 31) 0) ∧ (two_cursors 0).Fits ∧
      CursorEngine.static_initial.frames (fun _ => []) (List.replicate (2 ^ 31) 0) WIDE (two_cursors 0) [] = none := by
  refine ⟨⟨by decide, by decide, by decide⟩, ⟨?_, ?_⟩, two_cursors_fit (by decide), wide_frame_stops _⟩
  · rw [List.length_replicate]
    decide
  · rw [List.length_replicate]
    decide

end EveOS.Gfx
