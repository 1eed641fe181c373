/-
`VirtioBlk::read_sector` and `write_sector` of `kernel/src/virtio_blk.rs`, and a
device.

All requests share one header, one data buffer and one status byte. The device
fetches a request, performs it, and writes the data, the status and `used.idx` in
steps of its own, also after the driver has given up. A late completion then
writes the status and the data that the next call reads. As long as every call
finds the queue at rest, a call that returns true tells the truth about the disk.
-/
import EveOS.Lib.Bytes
import EveOS.Lib.Ring
import EveOS.Lib.Run

set_option autoImplicit false

namespace EveOS.Virtio.Blk

/-- The reads of `used.idx` before a call gives up. -/
def SPIN : Nat := 2000000

def VIRTIO_BLK_S_OK : UInt8 := 0
def VIRTIO_BLK_S_IOERR : UInt8 := 1

/-- `VIRTIO_BLK_T_IN` and `VIRTIO_BLK_T_OUT`. -/
inductive ReqType
  | IN
  | OUT
  deriving DecidableEq

/-- A call: `read_sector` with a buffer of `out_len` bytes, or `write_sector`. -/
inductive Call
  | read (sector out_len : Nat)
  | write (sector : Nat) (data : Bytes)
  deriving DecidableEq

def Call.typ : Call → ReqType
  | .read _ _ => .IN
  | .write _ _ => .OUT

def Call.sector : Call → Nat
  | .read s _ => s
  | .write s _ => s

/-- The length that is checked against the sector size. -/
def Call.len : Call → Nat
  | .read _ n => n
  | .write _ d => d.length

/-- Where a call is. -/
inductive Pc
  | idle
  /-- In front of the writes into the header, the data and the status. -/
  | filling (c : Call)
  /-- In front of the write of `avail.idx`. -/
  | publishing (c : Call)
  /-- The loop that waits for the completion. -/
  | spinning (left : Nat) (c : Call)
  /-- In front of the check of the status. -/
  | checking (c : Call)
  /-- In front of the copy of the data of a read. -/
  | copying (c : Call)
  deriving DecidableEq

/-- Where the device is. -/
inductive Dev
  | idle
  | fetched (typ : ReqType) (sector : Nat)
  /-- A read was performed, and its data is to be written. -/
  | holding (bytes : Bytes)
  /-- The status is to be written. -/
  | answering (status : UInt8)
  /-- `used.idx` is to be written. -/
  | completing
  deriving DecidableEq

/-- What a call returned. -/
inductive Result
  | read (sector : Nat) (out : Option Bytes)
  | write (sector : Nat) (data : Bytes) (ok : Bool)
  deriving DecidableEq

/-- The queue, the driver, the device with its disk, and the results so far. Every
entry of the available ring is descriptor 0. -/
structure World where
  sector_size : Nat
  capacity : Nat
  req : ReqType × Nat
  data : Bytes
  status : UInt8
  avail_idx : UInt16
  used_idx : UInt16
  vq_last_seen : UInt16
  pc : Pc
  next_avail : UInt16
  dev : Dev
  disk : Nat → Bytes
  results : List Result

/-- `init`: the queue is empty. -/
def World.init (sector_size capacity : Nat) (disk : Nat → Bytes) : World where
  sector_size := sector_size
  capacity := capacity
  req := (.IN, 0)
  data := List.replicate sector_size 0
  status := 0
  avail_idx := 0
  used_idx := 0
  vq_last_seen := 0
  pc := .idle
  next_avail := 0
  dev := .idle
  disk := disk
  results := []

/-! ## The driver -/

/-- The call returns without success. -/
def Call.refused : Call → Result
  | .read s _ => .read s none
  | .write s d => .write s d false

def World.ret (w : World) (r : Result) : World := { w with pc := .idle, results := w.results ++ [r] }

/-- A call that makes a request. -/
def World.Legal (w : World) (c : Call) : Prop := w.sector_size ≤ c.len ∧ c.sector < w.capacity

instance (w : World) (c : Call) : Decidable (w.Legal c) := inferInstanceAs (Decidable (_ ∧ _))

def World.call (w : World) (c : Call) : World :=
  if w.pc = .idle then
    if w.Legal c then { w with pc := .filling c } else w.ret c.refused
  else w

/-- The data buffer with `bytes` in its front. -/
def World.put_data (w : World) (bytes : Bytes) : Bytes := bytes ++ w.data.drop bytes.length

/-- The next step of the call. -/
def World.tick (w : World) : World :=
  match w.pc with
  | .idle => w
  | .filling c =>
    { w with
      req := (c.typ, c.sector)
      data :=
        match c with
        | .read _ _ => w.data
        | .write _ d => w.put_data (d.take w.sector_size)
      status := 0xFF
      pc := .publishing c }
  | .publishing c => { w with avail_idx := w.avail_idx + 1, pc := .spinning SPIN c }
  | .spinning 0 c => { w with pc := .checking c }
  | .spinning (left + 1) c =>
    if w.used_idx ≠ w.vq_last_seen then { w with vq_last_seen := w.used_idx, pc := .checking c }
    else { w with pc := .spinning left c }
  | .checking c =>
    if w.status ≠ VIRTIO_BLK_S_OK then w.ret c.refused
    else
      match c with
      | .read _ _ => { w with pc := .copying c }
      | .write s d => w.ret (.write s d true)
  | .copying c => w.ret (.read c.sector (some (w.data.take w.sector_size)))

/-! ## The device -/

/-- The next step of the device; `ok` says whether the disk does what it is asked
to. -/
def World.work (w : World) (ok : Bool) : World :=
  match w.dev with
  | .idle =>
    if w.next_avail = w.avail_idx then w
    else { w with dev := .fetched w.req.1 w.req.2, next_avail := w.next_avail + 1 }
  | .fetched typ s =>
    if !ok then { w with dev := .answering VIRTIO_BLK_S_IOERR }
    else
      match typ with
      | .IN => { w with dev := .holding (w.disk s) }
      | .OUT =>
        { w with
          disk := Function.update w.disk s (w.data.take w.sector_size)
          dev := .answering VIRTIO_BLK_S_OK }
  | .holding bytes => { w with data := w.put_data bytes, dev := .answering VIRTIO_BLK_S_OK }
  | .answering status => { w with status := status, dev := .completing }
  | .completing => { w with used_idx := w.used_idx + 1, dev := .idle }

inductive Event
  | call (c : Call)
  | tick
  | work (ok : Bool)
  deriving DecidableEq

def World.step (w : World) : Event → World
  | .call c => w.call c
  | .tick => w.tick
  | .work ok => w.work ok

/-! ## What is promised -/

/-- A result that says what the disk holds. -/
def Result.Honest (sector_size : Nat) (disk : Nat → Bytes) : Result → Prop
  | .read s (some bytes) => bytes = disk s
  | .write s d true => disk s = d.take sector_size
  | _ => True

/-- What a step returns is honest. -/
def World.Honest (w : World) (e : Event) : Prop :=
  ∀ r, (w.step e).results = w.results ++ [r] → r.Honest w.sector_size (w.step e).disk

/-- No request is available or under way, and every completion was seen. -/
def World.AtRest (w : World) : Prop :=
  w.dev = .idle ∧ w.next_avail = w.avail_idx ∧ w.used_idx = w.vq_last_seen

instance (w : World) : Decidable w.AtRest := inferInstanceAs (Decidable (_ ∧ _ ∧ _))

/-- A call that makes a request begins with the queue at rest. -/
def World.FromRest (w : World) : Event → Prop
  | .call c => w.pc = .idle → w.Legal c → w.AtRest
  | _ => True

instance (w : World) : (e : Event) → Decidable (w.FromRest e)
  | .call _ => inferInstanceAs (Decidable (_ → _ → _))
  | .tick => isTrue trivial
  | .work _ => isTrue trivial

/-! ## The invariant -/

/-- The data of a write is in the buffer. -/
def World.Loaded (w : World) : Call → Prop
  | .read _ _ => True
  | .write _ d => w.data.take w.sector_size = d.take w.sector_size

/-- The request was performed, and the data of a read is in the buffer. -/
def World.Done (w : World) : Call → Prop
  | .read s _ => w.data.take w.sector_size = w.disk s
  | .write s d => w.disk s = d.take w.sector_size

/-- The device has answered. -/
def World.Answered (w : World) : Prop := w.dev = .completing ∨ w.dev = .idle ∧ w.next_avail = w.avail_idx

/-- The request of `c`, step by step. The status is OK only when it was performed. -/
inductive World.UnderWay (w : World) (c : Call) : Prop
  | available (hdev : w.dev = .idle) (hnext : w.next_avail + 1 = w.avail_idx)
      (hreq : w.req = (c.typ, c.sector)) (hstatus : w.status = 0xFF) (hload : w.Loaded c)
  | fetched (hdev : w.dev = .fetched c.typ c.sector) (hlast : w.next_avail = w.avail_idx)
      (hstatus : w.status = 0xFF) (hload : w.Loaded c)
  | holding (s n : Nat) (hc : c = .read s n) (hdev : w.dev = .holding (w.disk s))
      (hlast : w.next_avail = w.avail_idx) (hstatus : w.status = 0xFF)
  | answering (st : UInt8) (hdev : w.dev = .answering st) (hlast : w.next_avail = w.avail_idx)
      (hstatus : w.status = 0xFF) (hdone : st = VIRTIO_BLK_S_OK → w.Done c)
  | answered (hanswer : w.Answered) (hlast : w.next_avail = w.avail_idx)
      (hdone : w.status = VIRTIO_BLK_S_OK → w.Done c)

/-- Everything is a sector long. -/
structure World.Sized (w : World) : Prop where
  data : w.data.length = w.sector_size
  disk : ∀ s, (w.disk s).length = w.sector_size
  held : ∀ bytes, w.dev = .holding bytes → bytes.length = w.sector_size

def World.InCall (w : World) : Prop :=
  match w.pc with
  | .idle => True
  | .filling c => w.Legal c ∧ w.AtRest
  | .publishing c => w.dev = .idle ∧ w.next_avail = w.avail_idx ∧ w.req = (c.typ, c.sector) ∧
      w.status = 0xFF ∧ w.Loaded c
  | .spinning _ c => w.UnderWay c
  | .checking c => w.UnderWay c
  | .copying c => w.Answered ∧ w.next_avail = w.avail_idx ∧ w.Done c ∧ c.typ = .IN

structure World.Inv (w : World) : Prop where
  sized : w.Sized
  inCall : w.InCall

section Steps

variable {w : World} {c : Call}

/-- A sector put into the buffer is all it holds. -/
theorem put_data_eq (h : w.Sized) {bytes : Bytes} (hlen : bytes.length = w.sector_size) :
    w.put_data bytes = bytes := by
  unfold World.put_data
  rw [List.drop_eq_nil_of_le (Nat.le_of_eq (h.data.trans hlen.symm)), List.append_nil]

theorem take_sector (h : w.Sized) : w.data.take w.sector_size = w.data :=
  List.take_of_length_le (Nat.le_of_eq h.data)

/-! ### The device -/

theorem work_sized (h : w.Sized) (ok : Bool) : (w.work ok).Sized := by
  unfold World.work
  split
  · split_ifs
    · exact h
    · exact ⟨h.data, h.disk, nofun⟩
  · rename_i typ s hdev
    split_ifs
    · exact ⟨h.data, h.disk, nofun⟩
    · cases typ with
      | IN =>
        refine ⟨h.data, h.disk, ?_⟩
        intro bytes hbytes
        rw [← Dev.holding.inj hbytes]
        exact h.disk s
      | OUT =>
        refine ⟨h.data, ?_, nofun⟩
        intro k
        show (Function.update w.disk s (w.data.take w.sector_size) k).length = w.sector_size
        by_cases hk : k = s
        · rw [hk, Function.update_self, take_sector h, h.data]
        · rw [Function.update_of_ne hk]
          exact h.disk k
  · rename_i bytes hdev
    refine ⟨?_, h.disk, nofun⟩
    show (w.put_data bytes).length = w.sector_size
    rw [put_data_eq h (h.held bytes hdev), h.held bytes hdev]
  · exact ⟨h.data, h.disk, nofun⟩
  · exact ⟨h.data, h.disk, nofun⟩

/-- At rest the device does nothing. -/
theorem work_idle (hdev : w.dev = .idle) (hnext : w.next_avail = w.avail_idx) (ok : Bool) :
    w.work ok = w := by
  unfold World.work
  rw [hdev]
  exact if_pos hnext

/-- What the device does after its answer changes neither the disk nor what the
driver reads. -/
theorem work_answered (h : w.Answered) (hlast : w.next_avail = w.avail_idx) (ok : Bool) :
    (w.work ok).Answered ∧ (w.work ok).next_avail = (w.work ok).avail_idx ∧
      (w.work ok).status = w.status ∧ (w.work ok).data = w.data ∧ (w.work ok).disk = w.disk ∧
        (w.work ok).sector_size = w.sector_size := by
  rcases h with hdev | ⟨hdev, hnext⟩
  · unfold World.work
    rw [hdev]
    exact ⟨.inr ⟨rfl, hlast⟩, hlast, rfl, rfl, rfl, rfl⟩
  · rw [work_idle hdev hnext]
    exact ⟨.inr ⟨hdev, hnext⟩, hlast, rfl, rfl, rfl, rfl⟩

/-- **A step of the device takes the request one step further.** -/
theorem World.UnderWay.work (hs : w.Sized) (h : w.UnderWay c) (ok : Bool) :
    (w.work ok).UnderWay c := by
  cases h with
  | available hdev hnext hreq hstatus hload =>
    have hne : w.next_avail ≠ w.avail_idx := fun heq => index_moves w.next_avail (hnext.trans heq.symm)
    unfold World.work
    rw [hdev]
    dsimp only
    rw [if_neg hne, hreq]
    exact .fetched rfl hnext hstatus hload
  | fetched hdev hlast hstatus hload =>
    unfold World.work
    rw [hdev]
    dsimp only
    cases ok with
    | false => exact .answering _ rfl hlast hstatus fun hok => absurd hok (by decide)
    | true =>
      rw [if_neg (show ¬ (!true) = true by decide)]
      cases c with
      | read s n => exact .holding s n rfl rfl hlast hstatus
      | write s d =>
        refine .answering _ rfl hlast hstatus fun _ => ?_
        show Function.update w.disk s (w.data.take w.sector_size) s = d.take w.sector_size
        rw [Function.update_self]
        exact hload
  | holding s n hc hdev hlast hstatus =>
    subst hc
    unfold World.work
    rw [hdev]
    refine .answering _ rfl hlast hstatus fun _ => ?_
    show (w.put_data (w.disk s)).take w.sector_size = w.disk s
    rw [put_data_eq hs (hs.disk s)]
    exact List.take_of_length_le (Nat.le_of_eq (hs.disk s))
  | answering st hdev hlast hstatus hdone =>
    unfold World.work
    rw [hdev]
    exact .answered (.inl rfl) hlast hdone
  | answered hanswer hlast hdone =>
    obtain ⟨hanswer', hlast', hstatus, hdata, hdisk, hsize⟩ := work_answered hanswer hlast ok
    refine .answered hanswer' hlast' ?_
    rw [hstatus]
    intro hok
    have hd := hdone hok
    unfold World.Done at hd ⊢
    rw [hdata, hdisk, hsize]
    exact hd

theorem work_pc (ok : Bool) : (w.work ok).pc = w.pc := by
  unfold World.work
  split
  · split_ifs <;> rfl
  · split_ifs
    · rfl
    · split <;> rfl
  · rfl
  · rfl
  · rfl

theorem work_results (ok : Bool) : (w.work ok).results = w.results := by
  unfold World.work
  split
  · split_ifs <;> rfl
  · split_ifs
    · rfl
    · split <;> rfl
  · rfl
  · rfl
  · rfl

theorem work_keeps (h : w.Inv) (ok : Bool) : (w.work ok).Inv := by
  refine ⟨work_sized h.sized ok, ?_⟩
  have hcall := h.inCall
  unfold World.InCall at hcall ⊢
  rw [work_pc]
  cases hpc : w.pc with
  | idle => trivial
  | filling c =>
    rw [hpc] at hcall
    dsimp only
    rw [work_idle hcall.2.1 hcall.2.2.1]
    exact hcall
  | publishing c =>
    rw [hpc] at hcall
    dsimp only
    rw [work_idle hcall.1 hcall.2.1]
    exact hcall
  | spinning left c =>
    rw [hpc] at hcall
    exact World.UnderWay.work h.sized hcall ok
  | checking c =>
    rw [hpc] at hcall
    exact World.UnderWay.work h.sized hcall ok
  | copying c =>
    rw [hpc] at hcall
    obtain ⟨hanswer, hlast, hdone, hin⟩ := hcall
    obtain ⟨hanswer', hlast', -, hdata, hdisk, hsize⟩ := work_answered hanswer hlast ok
    refine ⟨hanswer', hlast', ?_, hin⟩
    unfold World.Done at hdone ⊢
    rw [hdata, hdisk, hsize]
    exact hdone

/-! ### The driver -/

theorem call_keeps (h : w.Inv) (hcond : w.FromRest (.call c)) : (w.call c).Inv := by
  unfold World.call
  by_cases hidle : w.pc = .idle
  · rw [if_pos hidle]
    by_cases hlegal : w.Legal c
    · rw [if_pos hlegal]
      exact ⟨⟨h.sized.data, h.sized.disk, h.sized.held⟩, hlegal, hcond hidle hlegal⟩
    · rw [if_neg hlegal]
      exact ⟨⟨h.sized.data, h.sized.disk, h.sized.held⟩, trivial⟩
  · rw [if_neg hidle]
    exact h

/-- The status is not OK until the request was performed. -/
theorem World.UnderWay.done_of_ok (h : w.UnderWay c) (hok : w.status = VIRTIO_BLK_S_OK) :
    w.Answered ∧ w.next_avail = w.avail_idx ∧ w.Done c := by
  have hne : (0xFF : UInt8) ≠ VIRTIO_BLK_S_OK := by decide
  cases h with
  | available _ _ _ hstatus _ => exact absurd (hstatus.symm.trans hok) hne
  | fetched _ _ hstatus _ => exact absurd (hstatus.symm.trans hok) hne
  | holding _ _ _ _ _ hstatus => exact absurd (hstatus.symm.trans hok) hne
  | answering _ _ _ hstatus _ => exact absurd (hstatus.symm.trans hok) hne
  | answered hanswer hlast hdone => exact ⟨hanswer, hlast, hdone hok⟩

/-- The sector the driver writes into the buffer is there. -/
theorem taken_sector (h : w.Sized) {s : Nat} {d : Bytes} (hlegal : w.Legal (.write s d)) :
    w.put_data (d.take w.sector_size) = d.take w.sector_size :=
  put_data_eq h (List.length_take_of_le hlegal.1)

theorem tick_sized (h : w.Inv) : w.tick.Sized := by
  have hsame : ∀ {w' : World}, w'.data = w.data → w'.disk = w.disk → w'.dev = w.dev →
      w'.sector_size = w.sector_size → w'.Sized := by
    intro w' hdata hdisk hdev hsize
    refine ⟨?_, ?_, ?_⟩
    · rw [hdata, hsize, h.sized.data]
    · intro k
      rw [hdisk, hsize, h.sized.disk k]
    · intro bytes hbytes
      rw [hsize]
      exact h.sized.held bytes (hdev.symm.trans hbytes)
  have hcall := h.inCall
  unfold World.InCall at hcall
  unfold World.tick
  cases hpc : w.pc with
  | idle => exact h.sized
  | filling c =>
    rw [hpc] at hcall
    cases c with
    | read s n => exact hsame rfl rfl rfl rfl
    | write s d =>
      refine ⟨?_, h.sized.disk, h.sized.held⟩
      show (w.put_data (d.take w.sector_size)).length = w.sector_size
      rw [taken_sector h.sized hcall.1]
      exact List.length_take_of_le hcall.1.1
  | publishing c => exact hsame rfl rfl rfl rfl
  | spinning left c =>
    cases left with
    | zero => exact hsame rfl rfl rfl rfl
    | succ left =>
      dsimp only
      split_ifs
      · exact hsame rfl rfl rfl rfl
      · exact hsame rfl rfl rfl rfl
  | checking c =>
    dsimp only
    split_ifs
    · exact hsame rfl rfl rfl rfl
    · cases c with
      | read s n => exact hsame rfl rfl rfl rfl
      | write s d => exact hsame rfl rfl rfl rfl
  | copying c => exact hsame rfl rfl rfl rfl

/-- Steps of the driver that change neither the device nor what it was given leave
the request as it is. -/
theorem World.UnderWay.of_same {w' : World} (h : w.UnderWay c)
    (hsame : w'.dev = w.dev ∧ w'.next_avail = w.next_avail ∧ w'.avail_idx = w.avail_idx ∧
      w'.req = w.req ∧ w'.status = w.status ∧ w'.data = w.data ∧ w'.disk = w.disk ∧
        w'.sector_size = w.sector_size) : w'.UnderWay c := by
  obtain ⟨sector_size, capacity, req, data, status, avail, used, seen, pc, next, dev, disk, results⟩ := w
  obtain ⟨sector_size', capacity', req', data', status', avail', used', seen', pc', next', dev', disk',
    results'⟩ := w'
  obtain ⟨rfl, rfl, rfl, rfl, rfl, rfl, rfl, rfl⟩ := hsame
  cases h with
  | available hdev hnext hreq hstatus hload => exact .available hdev hnext hreq hstatus hload
  | fetched hdev hlast hstatus hload => exact .fetched hdev hlast hstatus hload
  | holding s n hc hdev hlast hstatus => exact .holding s n hc hdev hlast hstatus
  | answering st hdev hlast hstatus hdone => exact .answering st hdev hlast hstatus hdone
  | answered hanswer hlast hdone => exact .answered hanswer hlast hdone

theorem tick_keeps (h : w.Inv) : w.tick.Inv := by
  refine ⟨tick_sized h, ?_⟩
  have hcall := h.inCall
  unfold World.InCall at hcall
  unfold World.tick
  cases hpc : w.pc with
  | idle =>
    dsimp only
    unfold World.InCall
    rw [hpc]
    trivial
  | filling c =>
    rw [hpc] at hcall
    obtain ⟨hlegal, hdev, hnext, -⟩ := hcall
    refine ⟨hdev, hnext, rfl, rfl, ?_⟩
    cases c with
    | read s n => trivial
    | write s d =>
      show (w.put_data (d.take w.sector_size)).take w.sector_size = d.take w.sector_size
      rw [taken_sector h.sized hlegal]
      exact List.take_of_length_le (List.length_take_le _ _)
  | publishing c =>
    rw [hpc] at hcall
    obtain ⟨hdev, hnext, hreq, hstatus, hload⟩ := hcall
    exact .available hdev (congrArg (· + 1) hnext) hreq hstatus hload
  | spinning left c =>
    rw [hpc] at hcall
    cases left with
    | zero => exact World.UnderWay.of_same hcall ⟨rfl, rfl, rfl, rfl, rfl, rfl, rfl, rfl⟩
    | succ left =>
      dsimp only
      split_ifs
      · exact World.UnderWay.of_same hcall ⟨rfl, rfl, rfl, rfl, rfl, rfl, rfl, rfl⟩
      · exact World.UnderWay.of_same hcall ⟨rfl, rfl, rfl, rfl, rfl, rfl, rfl, rfl⟩
  | checking c =>
    rw [hpc] at hcall
    dsimp only
    by_cases hok : w.status = VIRTIO_BLK_S_OK
    · rw [if_neg (not_not.mpr hok)]
      obtain ⟨hanswer, hlast, hdone⟩ := World.UnderWay.done_of_ok hcall hok
      cases c with
      | read s n => exact ⟨hanswer, hlast, hdone, rfl⟩
      | write s d => trivial
    · rw [if_pos hok]
      trivial
  | copying c => trivial

theorem step_keeps (h : w.Inv) {e : Event} (hcond : w.FromRest e) : (w.step e).Inv := by
  cases e with
  | call c => exact call_keeps h hcond
  | tick => exact tick_keeps h
  | work ok => exact work_keeps h ok

/-! ### What a step returns -/

/-- A step that returns nothing says nothing. -/
theorem not_returned {e : Event} (h : (w.step e).results = w.results) : w.Honest e := by
  intro r hr
  have hlen := congrArg List.length (h.symm.trans hr)
  rw [List.length_append, List.length_singleton] at hlen
  omega

/-- A step that returns `r` has to say the truth in `r`. -/
theorem returned {e : Event} {r : Result} (h : (w.step e).results = w.results ++ [r])
    (htrue : r.Honest w.sector_size (w.step e).disk) : w.Honest e := by
  intro r' hr
  have heq := List.append_cancel_left (h.symm.trans hr)
  rw [← List.singleton_inj.mp heq]
  exact htrue

theorem refused_honest (disk : Nat → Bytes) : c.refused.Honest w.sector_size disk := by
  cases c <;> trivial

theorem World.Inv.honest (h : w.Inv) (e : Event) : w.Honest e := by
  cases e with
  | call c =>
    by_cases hidle : w.pc = .idle
    · by_cases hlegal : w.Legal c
      · refine not_returned ?_
        show (w.call c).results = w.results
        unfold World.call
        rw [if_pos hidle, if_pos hlegal]
      · refine returned (r := c.refused) ?_ (refused_honest _)
        show (w.call c).results = _
        unfold World.call
        rw [if_pos hidle, if_neg hlegal]
        rfl
    · refine not_returned ?_
      show (w.call c).results = w.results
      unfold World.call
      rw [if_neg hidle]
  | work ok => exact not_returned (work_results ok)
  | tick =>
    have hcall := h.inCall
    unfold World.InCall at hcall
    have htick : w.step .tick = w.tick := rfl
    unfold World.tick at htick
    cases hpc : w.pc with
    | idle =>
      rw [hpc] at htick
      exact not_returned (by rw [htick])
    | filling c =>
      rw [hpc] at htick
      exact not_returned (by rw [htick])
    | publishing c =>
      rw [hpc] at htick
      exact not_returned (by rw [htick])
    | spinning left c =>
      rw [hpc] at htick
      refine not_returned (htick ▸ ?_)
      cases left with
      | zero => rfl
      | succ left =>
        dsimp only
        split_ifs <;> rfl
    | checking c =>
      rw [hpc] at htick hcall
      dsimp only at htick
      by_cases hok : w.status = VIRTIO_BLK_S_OK
      · rw [if_neg (not_not.mpr hok)] at htick
        obtain ⟨-, -, hdone⟩ := World.UnderWay.done_of_ok hcall hok
        cases c with
        | read s n => exact not_returned (by rw [htick])
        | write s d =>
          refine returned (r := .write s d true) (congrArg World.results htick) ?_
          rw [htick]
          exact hdone
      · rw [if_pos hok] at htick
        exact returned (congrArg World.results htick) (refused_honest _)
    | copying c =>
      rw [hpc] at htick hcall
      obtain ⟨-, -, hdone, hin⟩ := hcall
      refine returned (congrArg World.results htick) ?_
      rw [htick]
      cases c with
      | read s n => exact hdone
      | write s d => cases hin

end Steps

theorem inv_init {sector_size capacity : Nat} {disk : Nat → Bytes}
    (hdisk : ∀ s, (disk s).length = sector_size) : (World.init sector_size capacity disk).Inv :=
  ⟨⟨List.length_replicate, hdisk, nofun⟩, trivial⟩

/-- **Calls that begin with the queue at rest are answered by their own
completion.** In every run of calls, of the steps they take and of the device,
whose requests are made with every earlier request answered and its completion
seen: a read that returns bytes returns those the disk holds for its sector, and a
write returns true only when the disk holds its data. -/
theorem requests_answered_by_their_own_completion {sector_size capacity : Nat} {disk : Nat → Bytes}
    (hdisk : ∀ s, (disk s).length = sector_size) {es : List Event}
    (hcond : Along World.step World.FromRest (.init sector_size capacity disk) es) :
    Along World.step World.Honest (.init sector_size capacity disk) es :=
  along_of_invariant (fun _ _ h hc => step_keeps h hc) (fun _ e h _ => h.honest e) hcond
    (inv_init hdisk)

/-- A write of one sector, and a read of it. -/
theorem write_then_read_back :
    Along World.step World.Honest (.init 1 4 fun _ => [0])
      [.call (.write 2 [7]), .tick, .tick, .work true, .work true, .work true, .work true, .tick, .tick,
        .call (.read 2 1), .tick, .tick, .work true, .work true, .work true, .work true, .work true,
        .tick, .tick, .tick] :=
  @requests_answered_by_their_own_completion 1 4 (fun _ => [0]) (fun _ => rfl) _ (by decide)

/-! ## A call after one that gave up -/

/-- A call that sees no completion goes on to check the status. -/
theorem spin_out {w : World} {n : Nat} {c : Call} (hpc : w.pc = .spinning n c)
    (hused : w.used_idx = w.vq_last_seen) :
    run World.step w (List.replicate (n + 1) .tick) = { w with pc := .checking c } := by
  induction n generalizing w with
  | zero =>
    rw [List.replicate_one, run_cons, run_nil]
    show w.tick = _
    unfold World.tick
    rw [hpc]
  | succ n ih =>
    rw [List.replicate_succ, run_cons]
    have htick : w.step .tick = { w with pc := .spinning n c } := by
      show w.tick = _
      unfold World.tick
      rw [hpc]
      exact if_neg (not_not.mpr hused)
    rw [htick]
    exact ih (w := { w with pc := .spinning n c }) rfl hused

/-- A disk whose sectors hold their number. -/
def numbered (s : Nat) : Bytes := [UInt8.ofNat s]

/-- The device fetches the read of sector 1 and answers it only after the call gave
up, while the read of sector 2 waits. -/
theorem late_data_is_mistaken :
    let w := run World.step (.init 1 4 numbered)
      ([.call (.read 1 1), .tick, .tick, .work true] ++ List.replicate (SPIN + 1) .tick ++
        [.tick, .call (.read 2 1), .tick, .tick, .work true, .work true, .work true, .work true, .tick,
          .tick])
    (w.step .tick).results = w.results ++ [.read 2 (some [1])] ∧ ¬ w.Honest .tick := by
  have hspin := spin_out
    (w := run World.step (.init 1 4 numbered) [.call (.read 1 1), .tick, .tick, .work true])
    (n := SPIN) (c := .read 1 1) (by decide) (by decide)
  rw [run_append, run_append, hspin]
  have hret : (run World.step { run World.step (.init 1 4 numbered)
      [.call (.read 1 1), .tick, .tick, .work true] with pc := .checking (.read 1 1) }
        [.tick, .call (.read 2 1), .tick, .tick, .work true, .work true, .work true, .work true, .tick,
          .tick, .tick]).results = [.read 1 none] ++ [.read 2 (some [1])] := by decide
  have hbefore : (run World.step { run World.step (.init 1 4 numbered)
      [.call (.read 1 1), .tick, .tick, .work true] with pc := .checking (.read 1 1) }
        [.tick, .call (.read 2 1), .tick, .tick, .work true, .work true, .work true, .work true, .tick,
          .tick]).results = [.read 1 none] := by decide
  refine ⟨?_, ?_⟩
  · rw [hbefore]
    exact hret
  · intro hhonest
    have htrue := hhonest (.read 2 (some [1])) (hbefore ▸ hret)
    exact absurd (List.singleton_inj.mp htrue) (by decide)

end EveOS.Virtio.Blk
