/-
The receive ring of `kernel/src/rtl8139.rs`.

The NIC writes each frame, with a header in front and a checksum behind it, into a
ring of 8 KiB, and the driver follows. Two things go wrong at the end of a lap.
`RxConfig` has the WRAP bit set, so a frame that meets the end of the ring runs
past it; the driver refuses to read such a frame and never goes on. And the driver
takes whatever stands at its read index for a header when bit 0 is set, also a
byte of an earlier lap, since it neither clears what it has read nor asks the NIC
whether the ring is empty. As long as neither happens at a call, the frames
returned are the frames stored.
-/
import EveOS.Lib.LittleEndian
import EveOS.Lib.Memory
import EveOS.Lib.Ring
import EveOS.Lib.Run

set_option autoImplicit false

namespace EveOS.Nic.Rtl8139

def RX_BUF_SIZE : Nat := 8192
def TX_BUF : Nat := 2048

/-- What `probe` writes to `REG_RX_CONFIG`. -/
def RX_CONFIG : Nat := 0x0000_070F ||| (1 <<< 7)

/-- The WRAP bit: a frame that meets the end of the ring runs past it. -/
def WRAP : Bool := RX_CONFIG.testBit 7

/-- `(rx_size + 4 + 3) & !3`. -/
def record_len (rx_size : Nat) : Nat := (rx_size + 4 + 3) / 4 * 4

/-- The memory (`rx`, and `tx` behind it), the driver's index, and the NIC's read
and write pointers. -/
structure Ring where
  rx : Mem
  cur_rx : Nat
  capr : Nat
  write_ptr : Nat

/-- `probe`, on the zeroed pages. -/
def probe : Ring := ⟨fun _ => 0, 0, 0, 0⟩

/-- `sync_capr`: the NIC's read pointer is `(W + 16) % RX_BUF_SIZE`, where `W` is
what is written, `cur_rx.wrapping_sub(16) & 0xFFFC`. -/
def Ring.sync_capr (r : Ring) : Ring :=
  { r with capr := ((r.cur_rx + 65536 - 16) % 65536 / 4 * 4 + 16) % RX_BUF_SIZE }

/-- `cur_rx = (cur_rx + n) % RX_BUF_SIZE; sync_capr()`. -/
def Ring.advance (r : Ring) (n : Nat) : Ring :=
  { r with cur_rx := (r.cur_rx + n) % RX_BUF_SIZE }.sync_capr

/-- `poll_rx_packet` with a buffer of `out_len` bytes. -/
def Ring.poll_rx_packet (r : Ring) (out_len : Nat) : Ring × Option Bytes :=
  let ring_offset := r.cur_rx % RX_BUF_SIZE
  if RX_BUF_SIZE < ring_offset + 8 then (r, none)
  else
    let hdr := leNat (r.rx.read ring_offset 4)
    if hdr % 2 = 0 then (r, none)
    else
      let rx_size := hdr / 65536
      if rx_size < 4 + 14 ∨ RX_BUF_SIZE < rx_size then
        (r.advance (min (record_len rx_size) RX_BUF_SIZE), none)
      else
        let copy_len := rx_size - 4
        if out_len < copy_len ∨ TX_BUF < copy_len then (r.advance (record_len rx_size), none)
        else if RX_BUF_SIZE < ring_offset + 4 + copy_len then (r, none)
        else (r.advance (record_len rx_size), some (r.rx.read (ring_offset + 4) copy_len))

/-- What the NIC writes for a frame: the header with ROK and the length with the
checksum, the frame, the checksum. -/
def record (frame crc : Bytes) : Bytes := leBytes 4 (1 + (frame.length + 4) * 65536) ++ frame ++ crc

/-- The space a frame takes up. -/
def frame_len (frame : Bytes) : Nat := record_len (frame.length + 4)

/-- The NIC has room for `n` bytes without overrunning the driver's read pointer. -/
def Ring.has_room (r : Ring) (n : Nat) : Bool :=
  let avail := (r.capr + RX_BUF_SIZE - r.write_ptr) % RX_BUF_SIZE
  avail == 0 || n < avail

/-- The NIC stores a frame, if there is room. Without the WRAP bit, the bytes
behind the end would go to the front. -/
def Ring.store (r : Ring) (frame crc : Bytes) : Ring :=
  if !r.has_room (frame_len frame) then r
  else
    let bytes := record frame crc
    { r with
      rx :=
        if WRAP then r.rx.write r.write_ptr bytes
        else (r.rx.write r.write_ptr (bytes.take (RX_BUF_SIZE - r.write_ptr))).write 0
          (bytes.drop (RX_BUF_SIZE - r.write_ptr))
      write_ptr := (r.write_ptr + frame_len frame) % RX_BUF_SIZE }

/-! ## Both parties -/

inductive Event
  | store (frame crc : Bytes)
  | poll (out_len : Nat)
  deriving DecidableEq

/-- The ring, the frames stored and the frames returned. -/
structure World where
  ring : Ring
  traffic : Traffic Bytes

def World.store (w : World) (frame crc : Bytes) : World where
  ring := w.ring.store frame crc
  traffic :=
    if !w.ring.has_room (frame_len frame) then w.traffic
    else ⟨w.traffic.put ++ [frame], w.traffic.got⟩

def World.poll (w : World) (out_len : Nat) : World where
  ring := (w.ring.poll_rx_packet out_len).1
  traffic := ⟨w.traffic.put, w.traffic.got ++ (w.ring.poll_rx_packet out_len).2.toList⟩

def World.step (w : World) : Event → World
  | .store frame crc => w.store frame crc
  | .poll out_len => w.poll out_len

def World.start : World := ⟨probe, ⟨[], []⟩⟩

def MAX_FRAME : Nat := 1514

/-- Frames of 14 to 1514 bytes, and buffers large enough for them. -/
def Event.Ok : Event → Prop
  | .store frame crc => 14 ≤ frame.length ∧ frame.length ≤ MAX_FRAME ∧ crc.length = 4
  | .poll out_len => MAX_FRAME ≤ out_len

/-- The frames stored and not returned. -/
def World.pending (w : World) : List Bytes := w.traffic.put.drop w.traffic.got.length

/-- A call returns the next frame, and nothing only when none is pending. -/
def World.Faithful (w : World) : Event → Prop
  | .store _ _ => True
  | .poll out_len => (w.ring.poll_rx_packet out_len).2 = w.pending.head?

/-- The frame a call is to return ends inside the ring; and when there is none,
what stands at the read index does not look like a header. -/
def Ring.InPlace (r : Ring) : List Bytes → Prop
  | frame :: _ => r.cur_rx + 4 + frame.length ≤ RX_BUF_SIZE
  | [] => RX_BUF_SIZE < r.cur_rx + 8 ∨ leNat (r.rx.read r.cur_rx 4) % 2 = 0

instance (r : Ring) : (q : List Bytes) → Decidable (r.InPlace q)
  | _ :: _ => inferInstanceAs (Decidable (_ ≤ _))
  | [] => inferInstanceAs (Decidable (_ ∨ _))

/-- Every call finds the pending frames in place. -/
def World.InPlace (w : World) : Event → Prop
  | .store _ _ => True
  | .poll _ => w.ring.InPlace w.pending

instance (w : World) : (e : Event) → Decidable (w.InPlace e)
  | .store _ _ => isTrue trivial
  | .poll _ => inferInstanceAs (Decidable (w.ring.InPlace w.pending))

/-! ## The invariant -/

/-- The space the frames of a queue take up. -/
def used (q : List Bytes) : Nat := (q.map frame_len).sum

/-- The frames stand one behind the other from `p` on; of a frame that runs past
the end nothing is said. -/
def Placed (m : Mem) : Nat → List Bytes → Prop
  | _, [] => True
  | p, frame :: q =>
    (p + 4 + frame.length ≤ RX_BUF_SIZE →
      m.read p (4 + frame.length) = leBytes 4 (1 + (frame.length + 4) * 65536) ++ frame) ∧
    Placed m ((p + frame_len frame) % RX_BUF_SIZE) q

/-- Both parties agree where the pending frames are. -/
structure Synced (w : World) (q : List Bytes) : Prop where
  cur : w.ring.cur_rx < RX_BUF_SIZE
  aligned : w.ring.cur_rx % 4 = 0
  capr : w.ring.capr = w.ring.cur_rx
  room : used q < RX_BUF_SIZE
  ptr : w.ring.write_ptr = (w.ring.cur_rx + used q) % RX_BUF_SIZE
  placed : Placed w.ring.rx w.ring.cur_rx q
  lengths : ∀ f ∈ q, 14 ≤ f.length ∧ f.length ≤ MAX_FRAME
  onWay : w.traffic.OnWay q

theorem synced_start : Synced .start [] where
  cur := by decide
  aligned := rfl
  capr := rfl
  room := by decide
  ptr := rfl
  placed := trivial
  lengths := nofun
  onWay := rfl

theorem Synced.pending {w : World} {q : List Bytes} (h : Synced w q) : w.pending = q := by
  unfold World.pending
  rw [h.onWay, List.drop_left]

/-- A frame, its header and its checksum fit into the space it takes up. -/
theorem le_frame_len (frame : Bytes) : frame.length + 8 ≤ frame_len frame := by
  unfold frame_len record_len
  omega

theorem frame_len_le {frame : Bytes} (h : frame.length ≤ MAX_FRAME) : frame_len frame ≤ 1524 := by
  unfold MAX_FRAME at h
  unfold frame_len record_len
  omega

theorem used_append (q : List Bytes) (frame : Bytes) : used (q ++ [frame]) = used q + frame_len frame := by
  simp [used]

theorem placed_append {m : Mem} {frame : Bytes} {p : Nat} {q : List Bytes} (h : Placed m p q)
    (hf : Placed m ((p + used q) % RX_BUF_SIZE) [frame]) (hp : p < RX_BUF_SIZE) :
    Placed m p (q ++ [frame]) := by
  induction q generalizing p with
  | nil =>
    rw [used, List.map_nil, List.sum_nil, Nat.add_zero, Nat.mod_eq_of_lt hp] at hf
    exact hf
  | cons g q ih =>
    refine ⟨h.1, ih h.2 ?_ (Nat.mod_lt _ (by decide))⟩
    rw [Nat.mod_add_mod, Nat.add_assoc]
    exact hf

/-- A change elsewhere leaves the frames in place. -/
theorem placed_congr {m m' : Mem} {p : Nat} {q : List Bytes} (hp : p < RX_BUF_SIZE)
    (hm : ∀ k < used q, m' ((p + k) % RX_BUF_SIZE) = m ((p + k) % RX_BUF_SIZE)) (h : Placed m p q) :
    Placed m' p q := by
  induction q generalizing p with
  | nil => trivial
  | cons frame q ih =>
    have hused : used (frame :: q) = frame_len frame + used q := by simp [used]
    have hlen := le_frame_len frame
    refine ⟨?_, ih (Nat.mod_lt _ (by decide)) ?_ h.2⟩
    · intro hin
      rw [← h.1 hin]
      refine Mem.read_congr fun i hi => ?_
      have hk := hm i (by omega)
      rwa [Nat.mod_eq_of_lt (by omega)] at hk
    · intro k hk
      rw [Nat.mod_add_mod, Nat.add_assoc]
      exact hm _ (by omega)

section Steps

variable {w : World} {q : List Bytes}

/-- The NIC's registers say how much room there is. -/
theorem room_of_has_room (h : Synced w q) {frame : Bytes} (hframe : frame.length ≤ MAX_FRAME)
    (hroom : w.ring.has_room (frame_len frame) = true) : used q + frame_len frame < RX_BUF_SIZE := by
  have hlen := frame_len_le hframe
  have hcur := h.cur
  have hused := h.room
  unfold Ring.has_room at hroom
  rw [h.capr, h.ptr, Bool.or_eq_true, beq_iff_eq, decide_eq_true_eq] at hroom
  unfold RX_BUF_SIZE at hroom hcur hused ⊢
  omega

/-- **The NIC appends to the queue**, unless there is no room. -/
theorem store_keeps (h : Synced w q) {frame crc : Bytes} (he : (Event.store frame crc).Ok)
    (hroom : w.ring.has_room (frame_len frame) = true) : Synced (w.store frame crc) (q ++ [frame]) := by
  obtain ⟨hmin, hmax, hcrc⟩ := he
  have hfits := room_of_has_room h hmax hroom
  have hlen := le_frame_len frame
  have hrecord : (record frame crc).length = frame.length + 8 := by
    simp only [record, List.length_append, length_leBytes, hcrc]
    omega
  unfold World.store Ring.store
  rw [hroom, if_neg (show ¬ (!true) = true by decide), if_neg (show ¬ (!true) = true by decide)]
  dsimp only
  rw [if_pos (show WRAP = true by decide)]
  refine ⟨h.cur, h.aligned, h.capr, ?_, ?_, ?_, ?_, h.onWay.put frame⟩
  · rw [used_append]
    exact hfits
  · show (w.ring.write_ptr + frame_len frame) % RX_BUF_SIZE = _
    rw [h.ptr, used_append, Nat.mod_add_mod, Nat.add_assoc]
  · -- the frames in the queue are not written over
    have hapart : ∀ k < used q, (w.ring.rx.write w.ring.write_ptr (record frame crc))
        ((w.ring.cur_rx + k) % RX_BUF_SIZE) = w.ring.rx ((w.ring.cur_rx + k) % RX_BUF_SIZE) := by
      intro k hk
      refine Mem.write_apart ?_
      by_contra hin
      rw [not_or, Nat.not_lt, Nat.not_le, hrecord] at hin
      have ha : (w.ring.cur_rx + k) % RX_BUF_SIZE < RX_BUF_SIZE := Nat.mod_lt _ (by decide)
      obtain ⟨j, hj⟩ := Nat.exists_eq_add_of_le hin.1
      have hsame : (w.ring.cur_rx + k) % RX_BUF_SIZE = (w.ring.cur_rx + (used q + j)) % RX_BUF_SIZE := by
        rw [← Nat.add_assoc, ← Nat.mod_add_mod (w.ring.cur_rx + used q), ← h.ptr, ← hj,
          Nat.mod_eq_of_lt ha]
      have heq := (slot_inj (by omega) (by omega)).mp hsame
      omega
    refine placed_append (placed_congr h.cur hapart h.placed) ⟨?_, trivial⟩ h.cur
    intro _
    rw [← h.ptr]
    have hpart := Mem.read_write_part w.ring.rx w.ring.write_ptr (record frame crc)
      (show 0 + (4 + frame.length) ≤ _ by omega)
    rw [Nat.add_zero, List.drop_zero] at hpart
    refine hpart.trans ?_
    unfold record
    rw [List.take_append_of_le_length (by simp), List.take_of_length_le (by simp)]
  · intro f hf
    rcases List.mem_append.mp hf with hf | hf
    · exact h.lengths f hf
    · rw [List.mem_singleton.mp hf]
      exact ⟨hmin, hmax⟩

/-- Without room nothing changes. -/
theorem store_full {frame crc : Bytes} (hroom : w.ring.has_room (frame_len frame) = false) :
    w.store frame crc = w := by
  unfold World.store Ring.store
  rw [hroom]
  rfl

/-- The driver's index and the NIC's read pointer move together. -/
theorem sync_capr_eq {r : Ring} (hcur : r.cur_rx < RX_BUF_SIZE) (haligned : r.cur_rx % 4 = 0) :
    r.sync_capr = { r with capr := r.cur_rx } := by
  unfold Ring.sync_capr RX_BUF_SIZE at *
  congr 1
  omega

/-- **A call that finds the next frame inside the ring returns it.** -/
theorem poll_takes {frame : Bytes} (h : Synced w (frame :: q)) {out_len : Nat}
    (hout : MAX_FRAME ≤ out_len) (hin : w.ring.cur_rx + 4 + frame.length ≤ RX_BUF_SIZE) :
    w.ring.poll_rx_packet out_len = (w.ring.advance (frame_len frame), some frame) := by
  obtain ⟨hmin, hmax⟩ := h.lengths frame List.mem_cons_self
  have hmax' : frame.length ≤ 1514 := hmax
  have hread := h.placed.1 hin
  rw [Mem.read_add] at hread
  obtain ⟨hhdr, hdata⟩ := List.append_inj hread (by rw [Mem.length_read, length_leBytes])
  have hval : leNat (w.ring.rx.read w.ring.cur_rx 4) = 1 + (frame.length + 4) * 65536 := by
    rw [hhdr, leNat_leBytes]
    omega
  have hsize : (1 + (frame.length + 4) * 65536) / 65536 = frame.length + 4 := by omega
  have hcur := h.cur
  have htx : frame.length ≤ TX_BUF := Nat.le_trans hmax (by decide)
  unfold Ring.poll_rx_packet
  dsimp only
  rw [Nat.mod_eq_of_lt hcur, hval, hsize, Nat.add_sub_cancel, hdata, if_neg (by omega),
    if_neg (by omega), if_neg (by unfold RX_BUF_SIZE; omega), if_neg (by omega), if_neg (by omega)]
  rfl

/-- A call that finds no frame, and nothing that looks like one, returns none. -/
theorem poll_none (h : Synced w []) {out_len : Nat} (hin : w.InPlace (.poll out_len)) :
    w.ring.poll_rx_packet out_len = (w.ring, none) := by
  replace hin : w.ring.InPlace w.pending := hin
  rw [h.pending] at hin
  unfold Ring.poll_rx_packet
  dsimp only
  rw [Nat.mod_eq_of_lt h.cur]
  rcases hin with hend | heven
  · rw [if_pos hend]
  · rw [if_pos heven, ite_self]

theorem poll_faithful (h : Synced w q) {out_len : Nat} (he : (Event.poll out_len).Ok)
    (hin : w.InPlace (.poll out_len)) : w.Faithful (.poll out_len) := by
  show (w.ring.poll_rx_packet out_len).2 = w.pending.head?
  rw [h.pending]
  cases q with
  | nil =>
    rw [poll_none h hin]
    rfl
  | cons frame q =>
    replace hin : w.ring.InPlace w.pending := hin
    rw [h.pending] at hin
    rw [poll_takes h he hin]
    rfl

theorem poll_keeps (h : Synced w q) {out_len : Nat} (he : (Event.poll out_len).Ok)
    (hin : w.InPlace (.poll out_len)) : Synced (w.poll out_len) q.tail := by
  unfold World.poll
  cases q with
  | nil =>
    rw [poll_none h hin]
    refine ⟨h.cur, h.aligned, h.capr, h.room, h.ptr, h.placed, h.lengths, ?_⟩
    show Traffic.OnWay ⟨w.traffic.put, w.traffic.got ++ []⟩ []
    rw [List.append_nil]
    exact h.onWay
  | cons frame q =>
    replace hin : w.ring.InPlace w.pending := hin
    rw [h.pending] at hin
    rw [poll_takes h he hin]
    have hused : used (frame :: q) = frame_len frame + used q := by simp [used]
    have hroom := h.room
    have haligned := h.aligned
    have hcur : (w.ring.cur_rx + frame_len frame) % RX_BUF_SIZE < RX_BUF_SIZE := Nat.mod_lt _ (by decide)
    have haligned' : (w.ring.cur_rx + frame_len frame) % RX_BUF_SIZE % 4 = 0 := by
      unfold frame_len record_len RX_BUF_SIZE
      omega
    unfold Ring.advance
    rw [sync_capr_eq hcur haligned']
    refine ⟨hcur, haligned', rfl, show used q < RX_BUF_SIZE by omega, ?_, h.placed.2,
      fun f hf => h.lengths f (List.mem_cons_of_mem _ hf), h.onWay.get⟩
    show w.ring.write_ptr = ((w.ring.cur_rx + frame_len frame) % RX_BUF_SIZE + used q) % RX_BUF_SIZE
    rw [h.ptr, hused, Nat.mod_add_mod, Nat.add_assoc]

/-- A step in place keeps the parties in agreement. -/
theorem step_keeps (h : Synced w q) {e : Event} (he : e.Ok) (hin : w.InPlace e) :
    ∃ q', Synced (w.step e) q' := by
  cases e with
  | store frame crc =>
    cases hroom : w.ring.has_room (frame_len frame) with
    | true => exact ⟨_, store_keeps h he hroom⟩
    | false =>
      refine ⟨q, ?_⟩
      show Synced (w.store frame crc) q
      rw [store_full hroom]
      exact h
  | poll out_len => exact ⟨_, poll_keeps h he hin⟩

theorem faithful_from (h : Synced w q) {es : List Event} (hes : ∀ e ∈ es, e.Ok)
    (hin : Along World.step World.InPlace w es) :
    Along World.step World.Faithful w es ∧ ∃ q', Synced (run World.step w es) q' := by
  induction es generalizing w q with
  | nil => exact ⟨trivial, q, h⟩
  | cons e es ih =>
    have he := hes e List.mem_cons_self
    have hes' : ∀ e ∈ es, e.Ok := fun e he => hes e (List.mem_cons_of_mem _ he)
    obtain ⟨q', h'⟩ := step_keeps h he hin.1
    obtain ⟨hrest, hend⟩ := ih h' hes' hin.2
    refine ⟨⟨?_, hrest⟩, hend⟩
    cases e with
    | store frame crc => trivial
    | poll out_len => exact poll_faithful h he hin.1

end Steps

/-- **A ring whose frames are in place loses nothing.** In every run whose calls
find the next frame inside the ring, and nothing that looks like a header when
there is none, each call returns the next frame, and none only when none is
pending; so the frames returned are the first of the frames stored, in order and
each once. -/
theorem frames_in_place_are_returned {es : List Event} (hes : ∀ e ∈ es, e.Ok)
    (hin : Along World.step World.InPlace .start es) :
    Along World.step World.Faithful .start es ∧
      (run World.step .start es).traffic.got <+: (run World.step .start es).traffic.put := by
  obtain ⟨hfaithful, q, hend⟩ := faithful_from synced_start hes hin
  exact ⟨hfaithful, q, hend.onWay.symm⟩

/-- A frame, and calls before and after it. -/
theorem one_frame_in_place :
    Along World.step World.Faithful .start
        [.poll 1514, .store (List.replicate 14 7) [1, 2, 3, 4], .poll 1514, .poll 1514] ∧
      (run World.step .start
          [.poll 1514, .store (List.replicate 14 7) [1, 2, 3, 4], .poll 1514, .poll 1514]).traffic.got <+:
        (run World.step .start
          [.poll 1514, .store (List.replicate 14 7) [1, 2, 3, 4], .poll 1514, .poll 1514]).traffic.put := by
  refine frames_in_place_are_returned ?_ (by decide)
  intro e he
  simp only [List.mem_cons, List.not_mem_nil, or_false] at he
  rcases he with rfl | rfl | rfl | rfl
  · exact Nat.le_refl 1514
  · exact ⟨by decide, by decide, rfl⟩
  · exact Nat.le_refl 1514
  · exact Nat.le_refl 1514

/-! ## The end of the ring -/

section EndOfRing

variable {w : World}

/-- What a call returns lies inside the ring. -/
theorem poll_inside {r : Ring} {out_len : Nat} {bytes : Bytes}
    (h : (r.poll_rx_packet out_len).2 = some bytes) :
    r.cur_rx % RX_BUF_SIZE + 4 + bytes.length ≤ RX_BUF_SIZE := by
  unfold Ring.poll_rx_packet at h
  dsimp only at h
  split_ifs at h with _ _ _ _ hend
  obtain rfl := Option.some.inj h
  rw [Mem.length_read]
  omega

/-- **A frame that runs past the end is never returned.** -/
theorem poll_refuses {frame : Bytes} {q : List Bytes} (h : Synced w (frame :: q)) {out_len : Nat}
    (hpast : RX_BUF_SIZE < w.ring.cur_rx + 4 + frame.length) : ¬ w.Faithful (.poll out_len) := by
  intro hfaithful
  replace hfaithful : (w.ring.poll_rx_packet out_len).2 = w.pending.head? := hfaithful
  rw [h.pending] at hfaithful
  have hinside := poll_inside hfaithful
  rw [Nat.mod_eq_of_lt h.cur] at hinside
  omega

theorem has_room_of_empty (h : Synced w []) {n : Nat} : w.ring.has_room n = true := by
  have hcur := h.cur
  have hptr := h.ptr
  rw [used, List.map_nil, List.sum_nil, Nat.add_zero, Nat.mod_eq_of_lt hcur] at hptr
  unfold Ring.has_room
  rw [h.capr, hptr, Nat.add_sub_cancel_left, Nat.mod_self]
  rfl

/-- A frame that is stored and returned at once. -/
theorem store_and_poll (h : Synced w []) {frame crc : Bytes} (he : (Event.store frame crc).Ok)
    (hin : w.ring.cur_rx + 4 + frame.length ≤ RX_BUF_SIZE) :
    let w' := run World.step w [.store frame crc, .poll MAX_FRAME]
    Synced w' [] ∧ w'.ring.cur_rx = (w.ring.cur_rx + frame_len frame) % RX_BUF_SIZE := by
  have hstored : Synced (w.store frame crc) [frame] := store_keeps h he (has_room_of_empty h)
  have hcur : (w.store frame crc).ring.cur_rx = w.ring.cur_rx := by
    unfold World.store Ring.store
    split_ifs <;> rfl
  have hin' : (w.store frame crc).ring.cur_rx + 4 + frame.length ≤ RX_BUF_SIZE := by rwa [hcur]
  have hplace : (w.store frame crc).InPlace (.poll MAX_FRAME) := by
    show (w.store frame crc).ring.InPlace (w.store frame crc).pending
    rw [hstored.pending]
    exact hin'
  refine ⟨poll_keeps hstored (Nat.le_refl _) hplace, ?_⟩
  show ((w.store frame crc).ring.poll_rx_packet MAX_FRAME).1.cur_rx = _
  rw [poll_takes hstored (Nat.le_refl _) hin', ← hcur]
  rfl

end EndOfRing

/-- A frame of 1514 bytes, and the call that returns it. -/
def long_round : List Event := [.store (List.replicate 1514 0) [0, 0, 0, 0], .poll MAX_FRAME]

theorem long_frame_ok : (Event.store (List.replicate 1514 0) [0, 0, 0, 0]).Ok := by
  refine ⟨?_, ?_, rfl⟩ <;> rw [List.length_replicate] <;> decide

/-- Five such frames fit. -/
theorem long_rounds {n : Nat} (hn : n ≤ 5) :
    let w := run World.step .start (List.replicate n long_round).flatten
    Synced w [] ∧ w.ring.cur_rx = 1524 * n := by
  have hlen : (List.replicate 1514 (0 : UInt8)).length = 1514 := List.length_replicate
  induction n with
  | zero => exact ⟨synced_start, rfl⟩
  | succ n ih =>
    obtain ⟨hsynced, hcur⟩ := ih (by omega)
    rw [List.replicate_succ', List.flatten_append, List.flatten_singleton]
    dsimp only
    rw [run_append]
    have hround := store_and_poll hsynced long_frame_ok (by rw [hcur, hlen]; unfold RX_BUF_SIZE; omega)
    refine ⟨hround.1, hround.2.trans ?_⟩
    rw [hcur]
    unfold frame_len record_len RX_BUF_SIZE
    rw [hlen]
    omega

/-- Six frames of 1514 bytes, each to be returned before the next is stored; but
the sixth runs past the end of the ring. -/
theorem sixth_frame_stalls :
    (∀ e ∈ (List.replicate 6 long_round).flatten, e.Ok) ∧
      ¬ Along World.step World.Faithful .start (List.replicate 6 long_round).flatten := by
  have hlen : (List.replicate 1514 (0 : UInt8)).length = 1514 := List.length_replicate
  constructor
  · intro e he
    obtain ⟨l, hl, he⟩ := List.mem_flatten.mp he
    rw [List.eq_of_mem_replicate hl] at he
    simp only [long_round, List.mem_cons, List.not_mem_nil, or_false] at he
    rcases he with rfl | rfl
    · exact long_frame_ok
    · exact Nat.le_refl _
  · rw [List.replicate_succ', List.flatten_append, List.flatten_singleton, along_append]
    rintro ⟨-, hlast⟩
    obtain ⟨hsynced, hcur⟩ := long_rounds (Nat.le_refl 5)
    generalize run World.step .start (List.replicate 5 long_round).flatten = w at hsynced hcur hlast
    obtain ⟨-, hpoll, -⟩ := hlast
    have hstored := store_keeps hsynced long_frame_ok (has_room_of_empty hsynced)
    refine poll_refuses hstored ?_ hpoll
    have hkeep : (w.store (List.replicate 1514 0) [0, 0, 0, 0]).ring.cur_rx = 1524 * 5 := by
      rw [← hcur]
      unfold World.store Ring.store
      split_ifs <;> rfl
    rw [hkeep, hlen]
    decide

end EveOS.Nic.Rtl8139
