/-
The receive ring of `kernel/src/vmxnet3.rs`.

The device fills the descriptors it owns in turn. `poll_rx_packet` takes the frame
at `rx_head` and gives back two descriptors: the one it has read, and the one
behind it. When a second frame waits there, it is lost, and the driver then waits
at a descriptor that the device has passed. So nothing is lost exactly as long as
no call finds more than one frame.
-/
import EveOS.Lib.Bytes
import EveOS.Lib.Ring
import EveOS.Lib.Run

set_option autoImplicit false

namespace EveOS.Nic.Vmxnet3

def RX_RING_SIZE : Nat := 128
def RX_BUF_SIZE : Nat := 2048

/-- A descriptor with its buffer. `len`, `own_dev` and `done` are the parts of
`len_flags`: `DESC_LEN_MASK`, `DESC_OWN_DEV` and `DESC_DONE`. -/
structure RxDesc where
  buf : Bytes
  len : Nat
  own_dev : Bool
  done : Bool
  deriving DecidableEq

/-- `len_flags = RX_BUF_SIZE | DESC_OWN_DEV`. -/
def RxDesc.give_back (d : RxDesc) : RxDesc :=
  { d with len := RX_BUF_SIZE, own_dev := true, done := false }

/-- The ring, the driver's index and the device's. -/
structure Ring where
  rx_ring : Nat → RxDesc
  rx_head : Nat
  dev_next : Nat

/-- `seed_queue_state`, on the zeroed buffers. -/
def seed_queue_state : Ring where
  rx_ring := fun _ => RxDesc.give_back ⟨List.replicate RX_BUF_SIZE 0, 0, false, false⟩
  rx_head := 0
  dev_next := 0

/-- Give a descriptor back. -/
def Ring.give_back (r : Ring) (i : Nat) : Ring :=
  { r with rx_ring := Function.update r.rx_ring i (r.rx_ring i).give_back }

/-- `poll_rx_packet` of a seeded ring, with a buffer of `out_len` bytes. -/
def Ring.poll_rx_packet (r : Ring) (out_len : Nat) : Ring × Option Bytes :=
  let slot := r.rx_head % RX_RING_SIZE
  let desc := r.rx_ring slot
  if !desc.done then (r, none)
  else if desc.len = 0 then (r, none)
  else
    let n := min (min desc.len out_len) RX_BUF_SIZE
    let rx_head := (r.rx_head + 1) % 65536
    ({ (r.give_back slot).give_back (rx_head % RX_RING_SIZE) with rx_head := rx_head },
      some (desc.buf.take n))

/-- The device fills the next descriptor, if it owns it. -/
def Ring.fill (r : Ring) (frame : Bytes) : Ring :=
  let d := r.rx_ring r.dev_next
  if !d.own_dev then r
  else
    { r with
      rx_ring := Function.update r.rx_ring r.dev_next
        ⟨frame ++ d.buf.drop frame.length, frame.length, false, true⟩
      dev_next := (r.dev_next + 1) % RX_RING_SIZE }

/-! ## Both parties -/

inductive Event
  | fill (frame : Bytes)
  | poll (out_len : Nat)
  deriving DecidableEq

/-- The ring, the frames filled and the frames returned. -/
structure World where
  ring : Ring
  traffic : Traffic Bytes

/-- A frame that is filled; without a descriptor of its own the device waits. -/
def World.fill (w : World) (frame : Bytes) : World where
  ring := w.ring.fill frame
  traffic :=
    if !(w.ring.rx_ring w.ring.dev_next).own_dev then w.traffic
    else ⟨w.traffic.put ++ [frame], w.traffic.got⟩

def World.poll (w : World) (out_len : Nat) : World where
  ring := (w.ring.poll_rx_packet out_len).1
  traffic := ⟨w.traffic.put, w.traffic.got ++ (w.ring.poll_rx_packet out_len).2.toList⟩

def World.step (w : World) : Event → World
  | .fill frame => w.fill frame
  | .poll out_len => w.poll out_len

def World.start : World := ⟨seed_queue_state, ⟨[], []⟩⟩

/-- Frames of 1 to 2048 bytes, and buffers large enough for them. -/
def Event.Ok : Event → Prop
  | .fill frame => 1 ≤ frame.length ∧ frame.length ≤ RX_BUF_SIZE
  | .poll out_len => RX_BUF_SIZE ≤ out_len

/-- The frame that waits in a descriptor. -/
def RxDesc.waiting (d : RxDesc) : Option Bytes := if d.done then some (d.buf.take d.len) else none

/-- Nothing is lost: the frames filled are those returned, in order and each once,
and behind them those that wait in the descriptors from the read index on. -/
def World.Lossless (w : World) : Prop :=
  ∃ waiting, w.traffic.OnWay waiting ∧
    InRing RX_RING_SIZE (RxDesc.waiting ∘ w.ring.rx_ring) w.ring.rx_head waiting

/-- A call finds at most one frame that was filled and not returned. -/
def World.AtMostOne (w : World) : Event → Prop
  | .fill _ => True
  | .poll _ => w.traffic.put.length ≤ w.traffic.got.length + 1

/-! ## The invariant -/

/-- A descriptor is the device's unless a frame waits in it, which is in its
buffer. -/
def RxDesc.Ok (d : RxDesc) : Prop :=
  d.own_dev = !d.done ∧
    (d.done = true → 1 ≤ d.len ∧ d.len ≤ RX_BUF_SIZE ∧ d.len ≤ d.buf.length)

/-- `q` is the queue of the frames that wait, and the device is behind it. -/
structure Queued (w : World) (q : List Bytes) : Prop where
  slots : InRing RX_RING_SIZE (RxDesc.waiting ∘ w.ring.rx_ring) w.ring.rx_head q
  device : w.ring.dev_next = (w.ring.rx_head + q.length) % RX_RING_SIZE
  descs : ∀ i, (w.ring.rx_ring i).Ok
  onWay : w.traffic.OnWay q

theorem queued_start : Queued .start [] where
  slots := .nil fun _ => rfl
  device := rfl
  descs := fun _ => ⟨rfl, fun h => Bool.noConfusion h⟩
  onWay := rfl

theorem waiting_eq_some {d : RxDesc} {frame : Bytes} (h : d.waiting = some frame) :
    d.done = true ∧ d.buf.take d.len = frame := by
  unfold RxDesc.waiting at h
  split_ifs at h with hd
  exact ⟨hd, Option.some.inj h⟩

theorem waiting_eq_none {d : RxDesc} (h : d.waiting = none) : d.done = false := by
  unfold RxDesc.waiting at h
  split_ifs at h with hd
  exact Bool.eq_false_iff.mpr hd

theorem waiting_give_back (d : RxDesc) : d.give_back.waiting = none := rfl

/-- The read index wraps at `u16`, which is a multiple of the ring. -/
theorem next_index (head j : Nat) :
    ((head + 1) % 65536 + j) % RX_RING_SIZE = (head + (j + 1)) % RX_RING_SIZE := by
  unfold RX_RING_SIZE
  omega

section Steps

variable {w : World} {q : List Bytes}

/-- **The device appends to the queue**, unless it is full. -/
theorem fill_keeps (h : Queued w q) {frame : Bytes}
    (hframe : 1 ≤ frame.length ∧ frame.length ≤ RX_BUF_SIZE) : ∃ q', Queued (w.fill frame) q' := by
  have hown := (h.descs w.ring.dev_next).1
  unfold World.fill Ring.fill
  dsimp only
  by_cases hfull : (w.ring.rx_ring w.ring.dev_next).own_dev = false
  · rw [hfull]
    exact ⟨q, h⟩
  rw [Bool.not_eq_false] at hfull
  have hdone : (w.ring.rx_ring w.ring.dev_next).done = false := by
    rw [hfull] at hown
    simpa using hown.symm
  have hroom : q.length < RX_RING_SIZE := by
    by_contra hlen
    have hfits := h.slots.fits
    have hlen : q.length = RX_RING_SIZE := by omega
    -- the device has lapped the driver: the descriptor holds the first frame
    have hdev := h.device
    rw [hlen, Nat.add_mod_right] at hdev
    have hfront := h.slots.front (by decide)
    rw [← hdev] at hfront
    obtain ⟨f, q', rfl⟩ : ∃ f q', q = f :: q' := List.exists_cons_of_length_pos (by rw [hlen]; decide)
    obtain ⟨hd, -⟩ := waiting_eq_some hfront
    rw [hdone] at hd
    cases hd
  rw [hfull, if_neg (show ¬ (!true) = true by decide), if_neg (show ¬ (!true) = true by decide)]
  refine ⟨q ++ [frame], ?_, ?_, ?_, h.onWay.put frame⟩
  · have hput := h.slots.put hroom frame
    rw [← h.device] at hput
    show InRing RX_RING_SIZE (RxDesc.waiting ∘ Function.update w.ring.rx_ring w.ring.dev_next _) _ _
    rw [Function.comp_update]
    unfold RxDesc.waiting at hput ⊢
    rw [if_pos rfl, List.take_left]
    exact hput
  · show (w.ring.dev_next + 1) % RX_RING_SIZE = (w.ring.rx_head + (q ++ [frame]).length) % RX_RING_SIZE
    rw [h.device, Nat.mod_add_mod, List.length_append, List.length_singleton, Nat.add_assoc]
  · refine update_all h.descs ⟨rfl, ?_⟩ _
    intro _
    refine ⟨hframe.1, hframe.2, ?_⟩
    show frame.length ≤ (frame ++ _).length
    rw [List.length_append]
    exact Nat.le_add_right _ _

/-- What a call does when a frame waits: both descriptors are given back. -/
theorem poll_of_cons {frame : Bytes} (h : Queued w (frame :: q)) {out_len : Nat}
    (hout : RX_BUF_SIZE ≤ out_len) :
    w.ring.poll_rx_packet out_len =
      ({ (w.ring.give_back (w.ring.rx_head % RX_RING_SIZE)).give_back
          ((w.ring.rx_head + 1) % 65536 % RX_RING_SIZE) with
        rx_head := (w.ring.rx_head + 1) % 65536 }, some frame) := by
  obtain ⟨hdone, hframe⟩ := waiting_eq_some (h.slots.front (by decide))
  obtain ⟨hpos, hle, -⟩ := (h.descs _).2 hdone
  unfold Ring.poll_rx_packet
  dsimp only
  rw [hdone, if_neg (show ¬ (!true) = true by decide), if_neg (by omega),
    Nat.min_eq_left (Nat.le_trans hle hout), Nat.min_eq_left hle, hframe]

/-- **A call that finds at most one frame takes it**, and nothing when there is
none. -/
theorem poll_keeps (h : Queued w q) (hone : q.length ≤ 1) {out_len : Nat}
    (hout : RX_BUF_SIZE ≤ out_len) : Queued (w.poll out_len) [] := by
  have hfront := h.slots.front (by decide)
  unfold World.poll
  cases q with
  | nil =>
    unfold Ring.poll_rx_packet
    dsimp only
    rw [waiting_eq_none hfront]
    refine ⟨h.slots, h.device, h.descs, ?_⟩
    show Traffic.OnWay ⟨w.traffic.put, w.traffic.got ++ []⟩ []
    rw [List.append_nil]
    exact h.onWay
  | cons frame q =>
    obtain rfl : q = [] := by
      rw [List.length_cons] at hone
      exact List.length_eq_zero_iff.mp (by omega)
    rw [poll_of_cons h hout]
    have hback (d : RxDesc) : d.give_back.Ok := ⟨rfl, fun hd => Bool.noConfusion hd⟩
    refine ⟨?_, ?_, ?_, h.onWay.get⟩
    · have hget := (h.slots.get.clear ((w.ring.rx_head + 1) % 65536 % RX_RING_SIZE)).congr
        (next_index w.ring.rx_head 0)
      show InRing RX_RING_SIZE
        (RxDesc.waiting ∘ Function.update (Function.update w.ring.rx_ring _ _) _ _) _ _
      rw [Function.comp_update, Function.comp_update]
      exact hget
    · exact h.device.trans (next_index w.ring.rx_head 0).symm
    · exact update_all (update_all h.descs (hback _) _) (hback _) _

/-- The count of the frames that wait. -/
theorem at_most_one_iff (h : Queued w q) (out_len : Nat) :
    w.AtMostOne (.poll out_len) ↔ q.length ≤ 1 := by
  have hput := congrArg List.length h.onWay
  rw [List.length_append] at hput
  show w.traffic.put.length ≤ w.traffic.got.length + 1 ↔ _
  omega

/-- **A call that finds two frames loses the second.** -/
theorem poll_loses {f₀ f₁ : Bytes} (h : Queued w (f₀ :: f₁ :: q)) {out_len : Nat}
    (hout : RX_BUF_SIZE ≤ out_len) : ¬ (w.poll out_len).Lossless := by
  unfold World.poll
  rw [poll_of_cons h hout]
  rintro ⟨waiting, hway, hslots⟩
  -- the second frame is next, but its descriptor was given back
  obtain rfl : waiting = f₁ :: q := by
    have hnext := h.onWay.get
    exact List.append_cancel_left (hway.symm.trans hnext)
  have hfront := hslots.front (by decide)
  dsimp only [Function.comp_apply, Ring.give_back] at hfront
  rw [Function.update_self, waiting_give_back] at hfront
  cases hfront

end Steps

theorem Queued.lossless {w : World} {q : List Bytes} (h : Queued w q) : w.Lossless :=
  ⟨q, h.onWay, h.slots⟩

/-- A step that meets the condition keeps the invariant. -/
theorem step_keeps {w : World} {q : List Bytes} (h : Queued w q) {e : Event} (he : e.Ok)
    (hone : w.AtMostOne e) : ∃ q', Queued (w.step e) q' := by
  cases e with
  | fill frame => exact fill_keeps h he
  | poll out_len => exact ⟨[], poll_keeps h ((at_most_one_iff h out_len).mp hone) he⟩

/-- A step that keeps what is filled meets the condition. -/
theorem at_most_one_of_lossless {w : World} {q : List Bytes} (h : Queued w q) {e : Event} (he : e.Ok)
    (hloss : (w.step e).Lossless) : w.AtMostOne e := by
  cases e with
  | fill frame => trivial
  | poll out_len =>
    rw [at_most_one_iff h]
    by_contra hmany
    match q, h, hmany with
    | [], _, hmany => exact hmany (by simp)
    | [_], _, hmany => exact hmany (by simp)
    | _ :: _ :: _, h, _ => exact poll_loses h he hloss

theorem lossless_iff_from {w : World} {q : List Bytes} (h : Queued w q) {es : List Event}
    (hes : ∀ e ∈ es, e.Ok) :
    (∀ fs, fs <+: es → (run World.step w fs).Lossless) ↔ Along World.step World.AtMostOne w es := by
  induction es generalizing w q with
  | nil =>
    refine ⟨fun _ => trivial, ?_⟩
    intro _ fs hfs
    rw [List.prefix_nil.mp hfs]
    exact h.lossless
  | cons e es ih =>
    have he := hes e List.mem_cons_self
    have hes' : ∀ e ∈ es, e.Ok := fun e he => hes e (List.mem_cons_of_mem _ he)
    constructor
    · intro hall
      have hone := at_most_one_of_lossless h he (hall [e] ⟨es, rfl⟩)
      obtain ⟨q', h'⟩ := step_keeps h he hone
      refine ⟨hone, (ih h' hes').mp ?_⟩
      intro fs hfs
      exact hall (e :: fs) (List.cons_prefix_cons.mpr ⟨rfl, hfs⟩)
    · rintro ⟨hone, hrest⟩ fs hfs
      obtain ⟨q', h'⟩ := step_keeps h he hone
      cases fs with
      | nil => exact h.lossless
      | cons f fs =>
        obtain ⟨rfl, hrest'⟩ := List.cons_prefix_cons.mp hfs
        exact (ih h' hes').mpr hrest fs hrest'

/-- **The ring loses nothing exactly as long as no call finds two frames.** -/
theorem lossless_iff_at_most_one {es : List Event} (hes : ∀ e ∈ es, e.Ok) :
    (∀ fs, fs <+: es → (run World.step .start fs).Lossless) ↔
      Along World.step World.AtMostOne .start es := lossless_iff_from queued_start hes

/-- One frame at a time. -/
theorem one_at_a_time_lossless :
    (∀ fs, fs <+: [.fill [1], .poll 2048, .fill [2], .poll 2048] →
      (run World.step .start fs).Lossless) ↔
        Along World.step World.AtMostOne .start [.fill [1], .poll 2048, .fill [2], .poll 2048] := by
  refine lossless_iff_at_most_one ?_
  intro e he
  simp only [List.mem_cons, List.not_mem_nil, or_false] at he
  rcases he with rfl | rfl | rfl | rfl
  · exact ⟨by decide, by decide⟩
  · exact Nat.le_refl 2048
  · exact ⟨by decide, by decide⟩
  · exact Nat.le_refl 2048

/-- Two frames are filled before the first call; the second is never returned. -/
theorem second_frame_is_lost :
    ¬ (run World.step .start [.fill [1], .fill [2], .poll 2048]).Lossless ∧
      (run World.step .start [.fill [1], .fill [2], .poll 2048, .poll 2048]).traffic =
        ⟨[[1], [2]], [[1]]⟩ := by
  refine ⟨?_, by decide⟩
  rintro ⟨waiting, hway, hslots⟩
  have htraffic : (run World.step .start [.fill [1], .fill [2], .poll 2048]).traffic =
      ⟨[[1], [2]], [[1]]⟩ := by decide
  have hempty : ((run World.step .start [.fill [1], .fill [2], .poll 2048]).ring.rx_ring 1).waiting
      = none := by decide
  rw [htraffic] at hway
  obtain rfl : [[2]] = waiting := (List.cons.inj hway).2
  have hfront := hslots.front (by decide)
  exact absurd (hempty.symm.trans hfront) (by decide)

end EveOS.Nic.Vmxnet3
