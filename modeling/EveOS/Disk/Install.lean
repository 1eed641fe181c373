/-
The disk install of `kernel/src/main.rs`: the destination becomes a copy of the
source.

A click requests the copy, and the main loop copies at most 32 sectors a frame. The
frame that finds every sector copied patches the boot flags and is done. Each
request to a disk can fail, and a failed write can leave anything in its sector.
Nothing else writes the two disks.
-/
import EveOS.Disk.GptPatch
import EveOS.Lib.Run

set_option autoImplicit false

namespace EveOS.Disk.Install

inductive DiskInstallPhase
  | Idle
  | Running
  | Done
  | Failed
  deriving DecidableEq

/-- How the two requests for one sector end. -/
inductive Outcome
  | ok
  | read_fails
  /-- `left` is what the sector holds afterwards. -/
  | write_fails (left : Sector)

/-- A request to one of the disks, and what it returned. -/
inductive Request
  | read (sector : Nat) (ok : Bool)
  | write (sector : Nat) (ok : Bool)
  deriving DecidableEq

def Request.ok : Request → Bool
  | .read _ ok => ok
  | .write _ ok => ok

/-- The part of `UiState` the install uses, the two disks, and the requests so
far. -/
structure World where
  disk_install_phase : DiskInstallPhase
  disk_install_cur : Nat
  disk_install_total : Nat
  disk_install_err : Bytes
  disk_install_start_request : Bool
  src : VirtioBlk
  dst : VirtioBlk
  requests : List Request

/-- The state at boot, when both disks were found. -/
def World.boot (src dst : VirtioBlk) : World where
  disk_install_phase := .Idle
  disk_install_cur := 0
  disk_install_total := min src.capacity dst.capacity
  disk_install_err := []
  disk_install_start_request := false
  src := src
  dst := dst
  requests := []

/-- `disk_install_err` holds 56 bytes. -/
def World.fail (w : World) (msg : Bytes) : World :=
  { w with disk_install_err := msg.take 56, disk_install_phase := .Failed }

/-- A click on the install screen; `hit` says whether it is on the button. -/
def World.click (w : World) (hit : Bool) : World :=
  if w.disk_install_phase = .Idle ∧ hit then { w with disk_install_start_request := true } else w

/-- The start request, when there is one. -/
def World.start (w : World) : World :=
  if w.disk_install_start_request then
    let w := { w with disk_install_start_request := false }
    if w.disk_install_phase = .Idle then
      if w.src.sector_size ≠ 512 ∨ w.dst.sector_size ≠ 512 then w.fail (ascii "NEED 512 BYTE SECTORS")
      else
        let t := min w.src.capacity w.dst.capacity
        if t = 0 then w.fail (ascii "ZERO CAPACITY")
        else
          { w with
            disk_install_phase := .Running
            disk_install_cur := 0
            disk_install_total := t }
    else w
  else w

/-- `read_sector` of the source. -/
def World.read (w : World) (outcome : Outcome) : Option Sector :=
  match outcome with
  | .read_fails => none
  | _ => w.src.read_sector w.disk_install_cur

/-- `write_sector` of the destination. -/
def World.write (w : World) (data : Sector) (outcome : Outcome) : Bool × VirtioBlk :=
  match outcome with
  | .write_fails left => (false, (w.dst.write_sector w.disk_install_cur left).2)
  | _ => w.dst.write_sector w.disk_install_cur data

/-- The two requests for the next sector: the state after them, and whether both
succeeded. -/
def World.copy_sector (w : World) (outcome : Outcome) : Bool × World :=
  match w.read outcome with
  | none => (false, { w with requests := w.requests ++ [.read w.disk_install_cur false] })
  | some data =>
    let written := w.write data outcome
    let w :=
      { w with
        dst := written.2
        requests := w.requests ++ [.read w.disk_install_cur true, .write w.disk_install_cur written.1] }
    if written.1 then (true, { w with disk_install_cur := w.disk_install_cur + 1 }) else (false, w)

/-- The sectors of one frame. -/
def CHUNK : Nat := 32

section Steps

/-! `patch` is `gpt_boot_patch::patch_install_target_boot`, whose requests can fail
as well; its result is ignored. -/
variable (patch : VirtioBlk → Bool × VirtioBlk)

/-- The loop of one frame, `n` sectors before its end; `true` stands for
`io_fail`. -/
def World.burst (outcomes : Nat → Outcome) : Nat → World → Bool × World
  | 0, w => (false, w)
  | n + 1, w =>
    if w.disk_install_cur ≥ w.disk_install_total then
      (false, { w with dst := (patch w.dst).2, disk_install_phase := .Done })
    else
      match w.copy_sector (outcomes w.disk_install_cur) with
      | (false, w) => (true, w)
      | (true, w) => World.burst outcomes n w

/-- One pass of the main loop; `outcomes` tells how the requests for each sector
end. -/
def World.frame (w : World) (outcomes : Nat → Outcome) : World :=
  let w := w.start
  if w.disk_install_phase = .Running then
    let (io_fail, w) := World.burst patch outcomes CHUNK w
    if io_fail then w.fail (ascii "DISK READ OR WRITE FAILED") else w
  else w

inductive Event
  | click (hit : Bool)
  | frame (outcomes : Nat → Outcome)

def World.step (w : World) : Event → World
  | .click hit => w.click hit
  | .frame outcomes => w.frame patch outcomes

/-! ## The invariant -/

/-- The requests that copy the first `n` sectors. -/
def copies : Nat → List Request
  | 0 => []
  | n + 1 => copies n ++ [.read n true, .write n true]

/-- The contents of a disk whose first `n` sectors are those of another. -/
def copied {α : Type*} (s d : Nat → α) (n : Nat) : Nat → α := fun i => if i < n then s i else d i

/-- The first `disk_install_cur` sectors were copied from `src` to `dst`, and
nothing else was touched. -/
structure World.Copied (w : World) (src dst : VirtioBlk) : Prop where
  src_same : w.src = src
  dst_copied : w.dst = { dst with sectors := copied src.sectors dst.sectors w.disk_install_cur }
  total : w.disk_install_total = min src.capacity dst.capacity
  within : w.disk_install_cur ≤ w.disk_install_total
  requests : w.requests = copies w.disk_install_cur

/-- Every sector was copied, and then the boot flags were patched. -/
def World.Complete (w : World) (src dst : VirtioBlk) : Prop :=
  ∃ d : VirtioBlk, w.dst = (patch d).2 ∧ { w with dst := d }.Copied src dst ∧
    w.disk_install_cur = w.disk_install_total

/-- A request failed, or none was made. -/
def World.Broken (w : World) : Prop := w.requests = [] ∨ ∃ r ∈ w.requests, r.ok = false

/-- What holds in each phase. -/
def World.Inv (src dst : VirtioBlk) (w : World) : Prop :=
  match w.disk_install_phase with
  | .Idle => w.Copied src dst ∧ w.disk_install_cur = 0
  | .Running => w.Copied src dst
  | .Done => w.Complete patch src dst
  | .Failed => w.Broken

/-- The requests of a copy all succeeded. -/
theorem copies_ok {n : Nat} {r : Request} (h : r ∈ copies n) : r.ok = true := by
  induction n with
  | zero => cases h
  | succ n ih =>
    rcases List.mem_append.mp h with h | h
    · exact ih h
    · rcases List.mem_cons.mp h with rfl | h
      · rfl
      · rw [List.mem_singleton.mp h]
        rfl

theorem copied_zero {α : Type*} (s d : Nat → α) : copied s d 0 = d := by
  funext i
  exact if_neg (Nat.not_lt_zero i)

/-- One more sector. -/
theorem copied_succ {α : Type*} (s d : Nat → α) (n : Nat) :
    Function.update (copied s d n) n (s n) = copied s d (n + 1) := by
  funext i
  unfold copied
  by_cases hi : i = n
  · rw [hi, Function.update_self, if_pos (Nat.lt_succ_self n)]
  · rw [Function.update_of_ne hi]
    by_cases hlt : i < n
    · rw [if_pos hlt, if_pos (Nat.lt_succ_of_lt hlt)]
    · rw [if_neg hlt, if_neg (by omega)]

variable {patch} {src dst : VirtioBlk} {w : World}

/-- **The two requests for one sector.** Either both succeed and one more sector is
copied, or one of them failed. -/
theorem copy_sector_cases (h : w.Copied src dst) (hlt : w.disk_install_cur < w.disk_install_total)
    (outcome : Outcome) :
    ((w.copy_sector outcome).1 = true ∧ (w.copy_sector outcome).2.Copied src dst ∧
      (w.copy_sector outcome).2.disk_install_phase = w.disk_install_phase) ∨
    ((w.copy_sector outcome).1 = false ∧ ∃ r ∈ (w.copy_sector outcome).2.requests, r.ok = false) := by
  have hsrc : w.disk_install_cur < src.capacity := by
    have htotal := h.total
    omega
  have hdst : w.disk_install_cur < dst.capacity := by
    have htotal := h.total
    omega
  have hread : w.src.read_sector w.disk_install_cur = some (src.sectors w.disk_install_cur) := by
    rw [h.src_same]
    exact if_neg (Nat.not_le_of_lt hsrc)
  unfold World.copy_sector
  cases outcome with
  | ok =>
    left
    have hwrite : w.dst.write_sector w.disk_install_cur (src.sectors w.disk_install_cur) =
        (true, { dst with sectors := copied src.sectors dst.sectors (w.disk_install_cur + 1) }) := by
      rw [h.dst_copied]
      unfold VirtioBlk.write_sector
      rw [if_neg (Nat.not_le_of_lt hdst)]
      dsimp only
      rw [copied_succ]
    unfold World.read World.write
    dsimp only
    rw [hread]
    dsimp only
    rw [hwrite]
    refine ⟨rfl, ⟨h.src_same, rfl, h.total, hlt, ?_⟩, rfl⟩
    show w.requests ++ _ = copies (w.disk_install_cur + 1)
    rw [h.requests]
    rfl
  | read_fails =>
    right
    refine ⟨rfl, .read w.disk_install_cur false, ?_, rfl⟩
    exact List.mem_append_right _ List.mem_cons_self
  | write_fails left =>
    right
    unfold World.read World.write
    dsimp only
    rw [hread]
    refine ⟨rfl, .write w.disk_install_cur false, ?_, rfl⟩
    exact List.mem_append_right _ (List.mem_cons_of_mem _ List.mem_cons_self)

/-- **A burst** ends with more sectors copied, with the copy complete, or with a
request that failed. -/
theorem burst_cases (n : Nat) (h : w.Copied src dst) (hphase : w.disk_install_phase = .Running)
    (outcomes : Nat → Outcome) :
    ((World.burst patch outcomes n w).1 = false ∧ (World.burst patch outcomes n w).2.Inv patch src dst) ∨
    ((World.burst patch outcomes n w).1 = true ∧
      ∃ r ∈ (World.burst patch outcomes n w).2.requests, r.ok = false) := by
  induction n generalizing w with
  | zero =>
    left
    refine ⟨rfl, ?_⟩
    unfold World.burst World.Inv
    rw [hphase]
    exact h
  | succ n ih =>
    unfold World.burst
    by_cases hend : w.disk_install_cur ≥ w.disk_install_total
    · rw [if_pos hend]
      left
      exact ⟨rfl, w.dst, rfl, ⟨h.src_same, h.dst_copied, h.total, h.within, h.requests⟩,
        Nat.le_antisymm h.within hend⟩
    · rw [if_neg hend]
      have hcopy := copy_sector_cases h (Nat.lt_of_not_le hend) (outcomes w.disk_install_cur)
      generalize w.copy_sector (outcomes w.disk_install_cur) = after at hcopy ⊢
      obtain ⟨ok, w'⟩ := after
      rcases hcopy with ⟨hok, hcopied, hsame⟩ | ⟨hok, hfailed⟩
      · obtain rfl : ok = true := hok
        exact ih hcopied (hsame.trans hphase)
      · obtain rfl : ok = false := hok
        exact .inr ⟨rfl, hfailed⟩

/-- The request flag plays no part in the invariant. -/
theorem request_inv (h : w.Inv patch src dst) (request : Bool) :
    { w with disk_install_start_request := request }.Inv patch src dst := by
  unfold World.Inv at h ⊢
  dsimp only
  cases hphase : w.disk_install_phase with
  | Idle =>
    rw [hphase] at h
    obtain ⟨hcopied, hcur⟩ := h
    exact ⟨⟨hcopied.src_same, hcopied.dst_copied, hcopied.total, hcopied.within, hcopied.requests⟩, hcur⟩
  | Running =>
    rw [hphase] at h
    exact ⟨h.src_same, h.dst_copied, h.total, h.within, h.requests⟩
  | Done =>
    rw [hphase] at h
    obtain ⟨d, hpatched, hcopied, hend⟩ := h
    exact ⟨d, hpatched,
      ⟨hcopied.src_same, hcopied.dst_copied, hcopied.total, hcopied.within, hcopied.requests⟩, hend⟩
  | Failed =>
    rw [hphase] at h
    exact h

theorem fail_inv (msg : Bytes) (h : w.Broken) : (w.fail msg).Inv patch src dst := h

theorem start_keeps (h : w.Inv patch src dst) : w.start.Inv patch src dst := by
  unfold World.start
  by_cases hreq : w.disk_install_start_request = true
  · rw [if_pos hreq]
    dsimp only
    by_cases hidle : w.disk_install_phase = .Idle
    · rw [if_pos hidle]
      unfold World.Inv at h
      rw [hidle] at h
      obtain ⟨hcopied, hcur⟩ := h
      have hnone : w.requests = [] := by
        rw [hcopied.requests, hcur]
        rfl
      split_ifs
      · exact fail_inv _ (.inl hnone)
      · exact fail_inv _ (.inl hnone)
      · refine ⟨hcopied.src_same, ?_, ?_, Nat.zero_le _, hnone⟩
        · rw [← hcur]
          exact hcopied.dst_copied
        · show min w.src.capacity w.dst.capacity = min src.capacity dst.capacity
          rw [hcopied.src_same, hcopied.dst_copied]
    · rw [if_neg hidle]
      exact request_inv h false
  · rw [if_neg hreq]
    exact h

theorem frame_keeps (h : w.Inv patch src dst) (outcomes : Nat → Outcome) :
    (w.frame patch outcomes).Inv patch src dst := by
  have hstart := start_keeps h
  unfold World.frame
  generalize w.start = w at hstart ⊢
  dsimp only
  by_cases hrun : w.disk_install_phase = .Running
  · rw [if_pos hrun]
    unfold World.Inv at hstart
    rw [hrun] at hstart
    rcases burst_cases CHUNK hstart hrun outcomes with ⟨hok, hinv⟩ | ⟨hfail, hbroken⟩
    · rw [hok]
      exact hinv
    · rw [hfail]
      exact fail_inv _ (.inr hbroken)
  · rw [if_neg hrun]
    exact hstart

theorem step_keeps (h : w.Inv patch src dst) (e : Event) : (w.step patch e).Inv patch src dst := by
  cases e with
  | click hit =>
    show (w.click hit).Inv patch src dst
    unfold World.click
    split_ifs
    · exact request_inv h true
    · exact h
  | frame outcomes => exact frame_keeps h outcomes

variable (patch) in
theorem inv_boot (src dst : VirtioBlk) : (World.boot src dst).Inv patch src dst := by
  refine ⟨⟨rfl, ?_, rfl, Nat.zero_le _, rfl⟩, rfl⟩
  show dst = { dst with sectors := copied src.sectors dst.sectors 0 }
  rw [copied_zero]

/-! ## Where the install ends -/

variable (patch) in
/-- Nothing moves a finished install. -/
theorem settled_step (h : w.disk_install_phase = .Done ∨ w.disk_install_phase = .Failed) (e : Event) :
    (w.step patch e).disk_install_phase = w.disk_install_phase := by
  have hidle : w.disk_install_phase ≠ .Idle := by
    rintro heq
    rcases h with h | h
    · cases heq.symm.trans h
    · cases heq.symm.trans h
  have hrun : w.disk_install_phase ≠ .Running := by
    rintro heq
    rcases h with h | h
    · cases heq.symm.trans h
    · cases heq.symm.trans h
  cases e with
  | click hit =>
    show (w.click hit).disk_install_phase = w.disk_install_phase
    unfold World.click
    rw [if_neg fun hc => hidle hc.1]
  | frame outcomes =>
    have hstart : w.start.disk_install_phase = w.disk_install_phase := by
      unfold World.start
      dsimp only
      split_ifs <;> rfl
    show (w.frame patch outcomes).disk_install_phase = w.disk_install_phase
    unfold World.frame
    dsimp only
    rw [if_neg (hstart ▸ hrun)]
    exact hstart

theorem settled_run (h : w.disk_install_phase = .Done ∨ w.disk_install_phase = .Failed)
    (es : List Event) :
    (run (World.step patch) w es).disk_install_phase = w.disk_install_phase := by
  induction es generalizing w with
  | nil => rfl
  | cons e es ih =>
    have hstep := settled_step patch h e
    rw [run_cons]
    exact (ih (hstep.symm ▸ h)).trans hstep

/-- A request that failed ends the install. -/
theorem failed_request_fails (h : w.Inv patch src dst) {r : Request} (hr : r ∈ w.requests)
    (hfailed : r.ok = false) : w.disk_install_phase = .Failed := by
  have hbad : ∀ n, w.requests ≠ copies n := by
    rintro n hn
    have hok := copies_ok (hn ▸ hr)
    rw [hfailed] at hok
    cases hok
  unfold World.Inv at h
  cases hphase : w.disk_install_phase with
  | Idle =>
    rw [hphase] at h
    exact absurd h.1.requests (hbad _)
  | Running =>
    rw [hphase] at h
    exact absurd h.requests (hbad _)
  | Done =>
    rw [hphase] at h
    obtain ⟨d, -, hcopied, -⟩ := h
    exact absurd hcopied.requests (hbad _)
  | Failed => rfl

end Steps

/-- **The clone is exact, or it fails.** For every two disks, every boot patch and
every sequence of clicks and frames with every pattern of failures: while the
install runs, the first `disk_install_cur` sectors of the destination are the
source's; it is done only after every sector was read and written, in order and
successfully; a request that fails leads to `Failed`; and `Done` and `Failed` are
never left. -/
theorem disk_install_clones (patch : VirtioBlk → Bool × VirtioBlk) (src dst : VirtioBlk)
    (es : List Event) :
    let w := run (World.step patch) (.boot src dst) es
    (w.disk_install_phase = .Running →
      (∀ i < w.disk_install_cur, w.dst.sectors i = w.src.sectors i) ∧ w.src = src ∧
        w.disk_install_cur ≤ w.disk_install_total ∧
        w.disk_install_total = min src.capacity dst.capacity) ∧
    (w.disk_install_phase = .Done →
      w.requests = copies w.disk_install_total ∧
        w.disk_install_total = min src.capacity dst.capacity ∧
        ∃ d : VirtioBlk, w.dst = (patch d).2 ∧ ∀ i < w.disk_install_total, d.sectors i = src.sectors i) ∧
    ((∃ r ∈ w.requests, r.ok = false) → w.disk_install_phase = .Failed) ∧
    (w.disk_install_phase = .Done ∨ w.disk_install_phase = .Failed → ∀ es',
      (run (World.step patch) w es').disk_install_phase = w.disk_install_phase) := by
  intro w
  have hinv : w.Inv patch src dst :=
    run_preserves (I := World.Inv patch src dst) (fun _ e h => step_keeps h e) (inv_boot patch src dst) es
  refine ⟨?_, ?_, ?_, fun hsettled es' => settled_run hsettled es'⟩
  · intro hrun
    unfold World.Inv at hinv
    rw [hrun] at hinv
    refine ⟨?_, hinv.src_same, hinv.within, hinv.total⟩
    intro i hi
    rw [hinv.dst_copied, hinv.src_same]
    exact if_pos hi
  · intro hdone
    unfold World.Inv at hinv
    rw [hdone] at hinv
    obtain ⟨d, hpatched, hcopied, hcur⟩ := hinv
    refine ⟨hcur ▸ hcopied.requests, hcopied.total, d, hpatched, ?_⟩
    intro i hi
    rw [← hcur] at hi
    have hd := congrArg (fun b : VirtioBlk => b.sectors i) hcopied.dst_copied
    exact hd.trans (if_pos hi)
  · rintro ⟨r, hr, hfailed⟩
    exact failed_request_fails hinv hr hfailed

/-- Two disks of one sector. -/
example (a b : Sector) :
    let w := run (World.step patch_install_target_boot) (.boot ⟨512, 1, fun _ => a⟩ ⟨512, 1, fun _ => b⟩)
      [.click true, .frame fun _ => .ok]
    w.disk_install_phase = .Done ∧ w.requests = [.read 0 true, .write 0 true] := ⟨rfl, rfl⟩

end EveOS.Disk.Install
