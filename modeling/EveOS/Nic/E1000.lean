/-
The receive ring of `kernel/src/e1000.rs`.

The NIC and the driver share 32 descriptors. The NIC stores at `RDH` as long as
`RDH` differs from `RDT`; the driver reads at `rx_cur` and gives each descriptor
back by writing its number to `RDT`. So `RDT` trails the read index by one, one
descriptor always stays free, and the descriptors with `DD` set are those from the
read index up to `RDH`.
-/
import EveOS.Lib.Bytes
import EveOS.Lib.Ring
import EveOS.Lib.Run

set_option autoImplicit false

namespace EveOS.Nic.E1000

def NUM_RX : Nat := 32
def RX_BUF : Nat := 2048

/-- A descriptor with its buffer; `dd` is the bit `RX_DD` of the status. -/
structure RxDesc where
  buf : Bytes
  length : Nat
  dd : Bool

/-- The memory and the registers the two parties share, and the driver's index. -/
structure Ring where
  rx_desc : Nat → RxDesc
  rdh : Nat
  rdt : Nat
  rx_cur : Nat

/-- `try_init`, on the zeroed pages. -/
def try_init : Ring where
  rx_desc := fun _ => ⟨List.replicate RX_BUF 0, 0, false⟩
  rdh := 0
  rdt := NUM_RX - 1
  rx_cur := 0

def USIZE : Nat := 2 ^ 64

/-- Replace a descriptor. -/
def Ring.set_desc (r : Ring) (i : Nat) (d : RxDesc) : Ring :=
  { r with rx_desc := Function.update r.rx_desc i d }

/-- Give the descriptor back and go on to the next. -/
def Ring.give_back (r : Ring) (i : Nat) (d : RxDesc) : Ring :=
  { r.set_desc i d with rdt := i, rx_cur := (r.rx_cur + 1) % USIZE }

/-- `poll_rx_packet` with a buffer of `out_len` bytes. -/
def Ring.poll_rx_packet (r : Ring) (out_len : Nat) : Ring × Option Bytes :=
  let i := r.rx_cur % NUM_RX
  let d := r.rx_desc i
  if !d.dd then (r, none)
  else
    let len := min d.length RX_BUF
    if len = 0 ∨ out_len < len then (r.give_back i { d with dd := false }, none)
    else (r.give_back i { d with dd := false, length := 0 }, some (d.buf.take len))

/-- The NIC stores a frame, if it may: into the buffer at `RDH`, over what it
held. -/
def Ring.store (r : Ring) (frame : Bytes) : Ring :=
  if r.rdh = r.rdt then r
  else
    let d := r.rx_desc r.rdh
    { r.set_desc r.rdh ⟨frame ++ d.buf.drop frame.length, frame.length, true⟩ with
      rdh := (r.rdh + 1) % NUM_RX }

/-! ## Both parties -/

/-- One step of either party. -/
inductive Event
  | store (frame : Bytes)
  | poll
  deriving DecidableEq

/-- The ring, the frames stored and the frames returned. -/
structure World where
  ring : Ring
  traffic : Traffic Bytes

/-- A frame that is stored; the NIC drops it when the ring is full. -/
def World.store (w : World) (frame : Bytes) : World where
  ring := w.ring.store frame
  traffic := if w.ring.rdh = w.ring.rdt then w.traffic else ⟨w.traffic.put ++ [frame], w.traffic.got⟩

/-- A call with a buffer of 2048 bytes. -/
def World.poll (w : World) : World where
  ring := (w.ring.poll_rx_packet RX_BUF).1
  traffic := ⟨w.traffic.put, w.traffic.got ++ (w.ring.poll_rx_packet RX_BUF).2.toList⟩

def World.step (w : World) : Event → World
  | .store frame => w.store frame
  | .poll => w.poll

def World.start : World := ⟨try_init, ⟨[], []⟩⟩

/-- The frames the claim is about. -/
def Event.Ok : Event → Prop
  | .store frame => 1 ≤ frame.length ∧ frame.length ≤ RX_BUF
  | .poll => True

/-! ## The invariant -/

/-- The frame that waits in a descriptor. -/
def RxDesc.waiting (d : RxDesc) : Option Bytes := if d.dd then some (d.buf.take d.length) else none

/-- A frame that waits is in its buffer. -/
def RxDesc.Ok (d : RxDesc) : Prop :=
  d.dd = true → 1 ≤ d.length ∧ d.length ≤ RX_BUF ∧ d.length ≤ d.buf.length

/-- `q` is the queue of the frames that wait: `RDT` trails the read index by one,
`RDH` is behind the queue. -/
structure Queued (w : World) (q : List Bytes) : Prop where
  slots : InRing NUM_RX (RxDesc.waiting ∘ w.ring.rx_desc) w.ring.rx_cur q
  room : q.length < NUM_RX
  head : w.ring.rdh = (w.ring.rx_cur + q.length) % NUM_RX
  tail : w.ring.rdt = (w.ring.rx_cur + (NUM_RX - 1)) % NUM_RX
  descs : ∀ i, (w.ring.rx_desc i).Ok
  onWay : w.traffic.OnWay q

theorem queued_start : Queued .start [] where
  slots := .nil fun _ => rfl
  room := by decide
  head := rfl
  tail := rfl
  descs := fun _ h => Bool.noConfusion h
  onWay := rfl

/-- The read index wraps at `usize`, which is a multiple of the ring. -/
theorem next_index (cur j : Nat) : ((cur + 1) % USIZE + j) % NUM_RX = (cur + (j + 1)) % NUM_RX := by
  unfold USIZE NUM_RX
  omega

theorem waiting_eq_some {d : RxDesc} {frame : Bytes} (h : d.waiting = some frame) :
    d.dd = true ∧ d.buf.take d.length = frame := by
  unfold RxDesc.waiting at h
  split_ifs at h with hd
  exact ⟨hd, Option.some.inj h⟩

theorem waiting_eq_none {d : RxDesc} (h : d.waiting = none) : d.dd = false := by
  unfold RxDesc.waiting at h
  split_ifs at h with hd
  exact Bool.eq_false_iff.mpr hd

section Steps

variable {w : World} {q : List Bytes}

/-- **The NIC appends to the queue**, unless it is full. -/
theorem store_keeps (h : Queued w q) {frame : Bytes}
    (hframe : 1 ≤ frame.length ∧ frame.length ≤ RX_BUF) : ∃ q', Queued (w.store frame) q' := by
  unfold World.store Ring.store
  by_cases hfull : w.ring.rdh = w.ring.rdt
  · rw [if_pos hfull, if_pos hfull]
    exact ⟨q, h⟩
  rw [if_neg hfull, if_neg hfull]
  have hroom := h.room
  -- the last descriptor is never filled
  have hfree : q.length ≠ NUM_RX - 1 := by
    intro hlen
    rw [h.head, h.tail, hlen] at hfull
    exact hfull rfl
  refine ⟨q ++ [frame], ?_, ?_, ?_, h.tail, ?_, h.onWay.put frame⟩
  · have hput := h.slots.put hroom frame
    rw [← h.head] at hput
    show InRing NUM_RX (RxDesc.waiting ∘ Function.update w.ring.rx_desc w.ring.rdh _) _ _
    rw [Function.comp_update]
    unfold RxDesc.waiting at hput ⊢
    rw [if_pos rfl, List.take_left]
    exact hput
  · rw [List.length_append, List.length_singleton]
    omega
  · show (w.ring.rdh + 1) % NUM_RX = (w.ring.rx_cur + (q ++ [frame]).length) % NUM_RX
    rw [h.head, Nat.mod_add_mod, List.length_append, List.length_singleton, Nat.add_assoc]
  · refine update_all h.descs ?_ _
    intro _
    refine ⟨hframe.1, hframe.2, ?_⟩
    show frame.length ≤ (frame ++ _).length
    rw [List.length_append]
    exact Nat.le_add_right _ _

/-- **The driver takes the first frame of the queue**, and nothing when there is
none. -/
theorem poll_keeps (h : Queued w q) :
    (w.ring.poll_rx_packet RX_BUF).2 = q.head? ∧ Queued w.poll q.tail := by
  have hfront := h.slots.front (by decide)
  unfold World.poll Ring.poll_rx_packet
  dsimp only
  cases q with
  | nil =>
    rw [waiting_eq_none hfront]
    refine ⟨rfl, h.slots, h.room, h.head, h.tail, h.descs, ?_⟩
    show Traffic.OnWay ⟨w.traffic.put, w.traffic.got ++ []⟩ []
    rw [List.append_nil]
    exact h.onWay
  | cons frame q =>
    obtain ⟨hdd, hframe⟩ := waiting_eq_some hfront
    obtain ⟨hpos, hle, -⟩ := h.descs _ hdd
    have hroom := h.room
    rw [List.length_cons] at hroom
    rw [hdd, Nat.min_eq_left hle]
    rw [if_neg (show ¬ (!true) = true by decide), if_neg (by omega), hframe]
    refine ⟨rfl, ?_, Nat.lt_of_succ_lt hroom, ?_, ?_, ?_, h.onWay.get⟩
    · have hget := h.slots.get
      have hnext : (w.ring.rx_cur + 1) % USIZE % NUM_RX = (w.ring.rx_cur + 1) % NUM_RX :=
        next_index w.ring.rx_cur 0
      show InRing NUM_RX (RxDesc.waiting ∘ Function.update w.ring.rx_desc (w.ring.rx_cur % NUM_RX) _)
        ((w.ring.rx_cur + 1) % USIZE) q
      rw [Function.comp_update]
      exact hget.congr hnext
    · show w.ring.rdh = ((w.ring.rx_cur + 1) % USIZE + q.length) % NUM_RX
      rw [next_index, h.head, List.length_cons]
    · show w.ring.rx_cur % NUM_RX = ((w.ring.rx_cur + 1) % USIZE + (NUM_RX - 1)) % NUM_RX
      rw [next_index]
      exact (Nat.add_mod_right _ _).symm
    · exact update_all h.descs (fun hd => Bool.noConfusion hd) _

/-- The invariant holds in every state reached. -/
theorem queued_run {es : List Event} (hes : ∀ e ∈ es, e.Ok) (h : Queued w q) :
    ∃ q', Queued (run World.step w es) q' := by
  induction es generalizing w q with
  | nil => exact ⟨q, h⟩
  | cons e es ih =>
    have hstep : ∃ q', Queued (w.step e) q' := by
      cases e with
      | store frame => exact store_keeps h (hes (.store frame) List.mem_cons_self)
      | poll => exact ⟨q.tail, (poll_keeps h).2⟩
    obtain ⟨q', h'⟩ := hstep
    exact ih (fun e he => hes e (List.mem_cons_of_mem _ he)) h'

end Steps

/-- **The receive ring loses nothing.** After any stores and calls, the frames
returned are the first of the frames stored, in order and each once; those not
returned yet are in the descriptors from the read index on; a call returns the
next one, and nothing only when all were returned; and the descriptor the NIC may
store at holds no frame that waits. -/
theorem frames_returned_are_frames_stored {es : List Event} (hes : ∀ e ∈ es, e.Ok) :
    let w := run World.step .start es
    ∃ waiting, w.traffic.put = w.traffic.got ++ waiting ∧
      InRing NUM_RX (RxDesc.waiting ∘ w.ring.rx_desc) w.ring.rx_cur waiting ∧
      (w.ring.poll_rx_packet RX_BUF).2 = waiting.head? ∧
      (w.ring.rdh ≠ w.ring.rdt → (w.ring.rx_desc w.ring.rdh).waiting = none) := by
  obtain ⟨q, h⟩ := queued_run hes queued_start
  refine ⟨q, h.onWay, h.slots, (poll_keeps h).1, ?_⟩
  intro _
  have hbehind := h.slots.behind h.room
  rwa [← h.head] at hbehind

/-- Two frames, one of them taken. -/
theorem two_frames_one_returned :
    let w := run World.step .start [.store [1, 2], .store [3], .poll]
    ∃ waiting, w.traffic.put = w.traffic.got ++ waiting ∧
      InRing NUM_RX (RxDesc.waiting ∘ w.ring.rx_desc) w.ring.rx_cur waiting ∧
      (w.ring.poll_rx_packet RX_BUF).2 = waiting.head? ∧
      (w.ring.rdh ≠ w.ring.rdt → (w.ring.rx_desc w.ring.rdh).waiting = none) := by
  refine frames_returned_are_frames_stored ?_
  intro e he
  simp only [List.mem_cons, List.not_mem_nil, or_false] at he
  rcases he with rfl | rfl | rfl
  · exact ⟨by decide, by decide⟩
  · exact ⟨by decide, by decide⟩
  · trivial

end EveOS.Nic.E1000
