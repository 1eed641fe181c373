/-
`VirtioNet::transmit` of `kernel/src/virtio_net.rs`, and a device.

There is one buffer and one descriptor, and a call waits for `used.idx` to move.
The two parties take steps in any order: each read of `used.idx` is a step of its
own. A call that gives up leaves its request in the ring, clears `tx_inflight`
and forgets it. The next call then writes over a packet that was not sent, or
takes the late completion for its own. As long as every call finds the ring at
rest, the packets sent are those of the calls that returned true, and of some that
returned false.
-/
import EveOS.Lib.Bytes
import EveOS.Lib.Ring
import EveOS.Lib.Run

set_option autoImplicit false

namespace EveOS.Virtio.Net

def TX_BUFFER_BYTES : Nat := 4096

/-- The reads of `used.idx` before a call gives up. -/
def SPIN : Nat := 500000

/-- Where a call is. -/
inductive Pc
  | idle
  /-- The loop that waits for the request before, when one is in flight. -/
  | draining (left : Nat) (pkt : Bytes)
  /-- In front of the write into `TXQ.tx` and `TXQ.desc[0]`. -/
  | filling (pkt : Bytes)
  /-- In front of the write of `avail.idx`. -/
  | publishing (pkt : Bytes)
  /-- The loop that waits for the completion. -/
  | spinning (left : Nat) (pkt : Bytes)
  deriving DecidableEq

/-- The queue, the driver, the device, and what happened so far. Every entry of
the available ring is descriptor 0. -/
structure World where
  tx : Bytes
  desc_len : Nat
  avail_idx : UInt16
  used_idx : UInt16
  tx_last_used : UInt16
  tx_inflight : Bool
  pc : Pc
  next_avail : UInt16
  sent : List Bytes
  calls : List (Bytes × Bool)
  deriving DecidableEq

def World.start : World where
  tx := List.replicate TX_BUFFER_BYTES 0
  desc_len := 0
  avail_idx := 0
  used_idx := 0
  tx_last_used := 0
  tx_inflight := false
  pc := .idle
  next_avail := 0
  sent := []
  calls := []

/-- A packet that is not refused. -/
def Legal (pkt : Bytes) : Prop := ¬ (pkt = [] ∨ TX_BUFFER_BYTES < pkt.length)

instance (pkt : Bytes) : Decidable (Legal pkt) := inferInstanceAs (Decidable (¬ _))

/-- `transmit(pkt)` is called. -/
def World.call (w : World) (pkt : Bytes) : World :=
  if w.pc = .idle then { w with pc := if w.tx_inflight then .draining SPIN pkt else .filling pkt }
  else w

/-- The call returns. -/
def World.ret (w : World) (pkt : Bytes) (result : Bool) : World :=
  { w with pc := .idle, calls := w.calls ++ [(pkt, result)] }

/-- A completion is seen: `tx_last_used = uidx; tx_inflight = false`. -/
def World.see (w : World) : World := { w with tx_last_used := w.used_idx, tx_inflight := false }

/-- The next step of the call. -/
def World.tick (w : World) : World :=
  match w.pc with
  | .idle => w
  | .draining 0 pkt => { w with pc := .filling pkt }
  | .draining (left + 1) pkt =>
    if w.used_idx ≠ w.tx_last_used then { w.see with pc := .filling pkt }
    else { w with pc := .draining left pkt }
  | .filling pkt =>
    if Legal pkt then
      { w with tx := pkt ++ w.tx.drop pkt.length, desc_len := pkt.length, pc := .publishing pkt }
    else w.ret pkt false
  | .publishing pkt =>
    { w with avail_idx := w.avail_idx + 1, tx_inflight := true, pc := .spinning SPIN pkt }
  | .spinning 0 pkt => { w with tx_inflight := false }.ret pkt false
  | .spinning (left + 1) pkt =>
    if w.used_idx ≠ w.tx_last_used then w.see.ret pkt true
    else { w with pc := .spinning left pkt }

/-- The device sends what the descriptor refers to. -/
def World.consume (w : World) : World :=
  if w.next_avail = w.avail_idx then w
  else
    { w with
      sent := w.sent ++ [w.tx.take w.desc_len]
      next_avail := w.next_avail + 1
      used_idx := w.used_idx + 1 }

inductive Event
  | call (pkt : Bytes)
  | tick
  | consume
  deriving DecidableEq

def World.step (w : World) : Event → World
  | .call pkt => w.call pkt
  | .tick => w.tick
  | .consume => w.consume

/-! ## What is promised -/

/-- The packets sent are those of the calls that returned true, and of some that
returned false, in order. -/
inductive Explains : List (Bytes × Bool) → List Bytes → Prop
  | nil : Explains [] []
  | sent (pkt : Bytes) (result : Bool) {calls : List (Bytes × Bool)} {sent : List Bytes}
      (h : Explains calls sent) : Explains (calls ++ [(pkt, result)]) (sent ++ [pkt])
  | lost (pkt : Bytes) {calls : List (Bytes × Bool)} {sent : List Bytes} (h : Explains calls sent) :
      Explains (calls ++ [(pkt, false)]) sent

/-- The call whose request is in the ring; it has not returned true yet. -/
def World.current (w : World) : List (Bytes × Bool) :=
  match w.pc with
  | .spinning _ pkt => [(pkt, false)]
  | _ => []

/-- The device has consumed every request, and the driver has seen it. -/
def World.AtRest (w : World) : Prop := w.next_avail = w.avail_idx ∧ w.used_idx = w.tx_last_used

instance (w : World) : Decidable w.AtRest := inferInstanceAs (Decidable (_ ∧ _))

/-- The buffer is written only when no request refers to it; and a call returns
true only when its own packet was the last one sent, and no request is left. -/
def World.Owned (w : World) : Event → Prop
  | .tick =>
    match w.pc with
    | .filling pkt => Legal pkt → w.next_avail = w.avail_idx
    | .spinning (_ + 1) pkt =>
      w.used_idx ≠ w.tx_last_used → w.next_avail = w.avail_idx ∧ w.sent.getLast? = some pkt
    | _ => True
  | _ => True

/-- A call with a packet that is not refused begins with the ring at rest. -/
def World.FromRest (w : World) : Event → Prop
  | .call pkt => w.pc = .idle → Legal pkt → w.AtRest
  | _ => True

instance (w : World) : (e : Event) → Decidable (w.FromRest e)
  | .call _ => inferInstanceAs (Decidable (_ → _ → _))
  | .tick => isTrue trivial
  | .consume => isTrue trivial

/-! ## The invariant -/

/-- The request for `pkt`, made after `done`: it is in the ring, or it was
consumed and the driver has not seen it. -/
def World.UnderWay (w : World) (pkt : Bytes) (done : List (Bytes × Bool)) : Prop :=
  (w.next_avail + 1 = w.avail_idx ∧ w.used_idx = w.tx_last_used ∧ w.tx.take w.desc_len = pkt ∧
    Explains done w.sent) ∨
  (w.next_avail = w.avail_idx ∧ w.used_idx = w.tx_last_used + 1 ∧
    ∃ sent, Explains done sent ∧ w.sent = sent ++ [pkt])

/-- Between calls: the ring is at rest, or the last request of a call that gave
up is under way, and calls with refused packets came after it. -/
def World.Between (w : World) : Prop :=
  w.tx_inflight = false ∧
    (w.AtRest ∧ Explains w.calls w.sent ∨
      ∃ done pkt refused, w.calls = done ++ (pkt, false) :: refused ∧
        (∀ c ∈ refused, c.2 = false) ∧ w.UnderWay pkt done)

def World.Inv (w : World) : Prop :=
  match w.pc with
  | .idle => w.Between
  | .draining _ _ => False
  | .filling pkt => w.Between ∧ (Legal pkt → w.AtRest)
  | .publishing pkt => w.AtRest ∧ Explains w.calls w.sent ∧ w.tx.take w.desc_len = pkt
  | .spinning _ pkt => w.UnderWay pkt w.calls

/-- Calls that made no request explain nothing. -/
theorem Explains.refused {calls : List (Bytes × Bool)} {sent : List Bytes} (h : Explains calls sent)
    {refused : List (Bytes × Bool)} (hrefused : ∀ c ∈ refused, c.2 = false) :
    Explains (calls ++ refused) sent := by
  induction refused generalizing calls with
  | nil => rwa [List.append_nil]
  | cons c refused ih =>
    obtain ⟨pkt, result⟩ := c
    obtain rfl : result = false := hrefused (pkt, result) List.mem_cons_self
    have hrest := ih (h.lost pkt) fun c hc => hrefused c (List.mem_cons_of_mem _ hc)
    rwa [List.append_assoc, List.singleton_append] at hrest

/-- The packet of a call that returned true was sent. -/
theorem Explains.sent_of_true {calls : List (Bytes × Bool)} {sent : List Bytes}
    (h : Explains calls sent) {pkt : Bytes} (hcall : (pkt, true) ∈ calls) : pkt ∈ sent := by
  induction h with
  | nil => cases hcall
  | sent p result _ ih =>
    rcases List.mem_append.mp hcall with hc | hc
    · exact List.mem_append_left _ (ih hc)
    · obtain ⟨rfl, -⟩ := Prod.mk.inj (List.mem_singleton.mp hc)
      exact List.mem_append_right _ List.mem_cons_self
  | lost p _ ih =>
    rcases List.mem_append.mp hcall with hc | hc
    · exact ih hc
    · cases (Prod.mk.inj (List.mem_singleton.mp hc)).2

section Steps

variable {w : World} {pkt : Bytes} {done : List (Bytes × Bool)}

theorem World.UnderWay.explains (h : w.UnderWay pkt done) : Explains (done ++ [(pkt, false)]) w.sent := by
  rcases h with ⟨-, -, -, hdone⟩ | ⟨-, -, sent, hdone, hsent⟩
  · exact hdone.lost pkt
  · rw [hsent]
    exact hdone.sent pkt false

/-- A request that is under way is not at rest. -/
theorem World.UnderWay.not_at_rest (h : w.UnderWay pkt done) : ¬ w.AtRest := by
  rintro ⟨havail, hused⟩
  rcases h with ⟨hnext, -⟩ | ⟨-, hseen, -⟩
  · rw [havail] at hnext
    exact index_moves _ hnext
  · rw [hused] at hseen
    exact index_moves _ hseen.symm

theorem World.Between.explains (h : w.Between) : Explains w.calls w.sent := by
  rcases h.2 with ⟨-, hcalls⟩ | ⟨done, pkt, refused, hcalls, hrefused, hway⟩
  · exact hcalls
  · have hrest := hway.explains.refused hrefused
    rwa [List.append_assoc, List.singleton_append, ← hcalls] at hrest

/-- The invariant explains what was sent. -/
theorem World.Inv.explains (h : w.Inv) : Explains (w.calls ++ w.current) w.sent := by
  unfold World.Inv at h
  unfold World.current
  cases hpc : w.pc with
  | idle =>
    rw [hpc] at h
    rw [List.append_nil]
    exact World.Between.explains h
  | draining left p =>
    rw [hpc] at h
    exact h.elim
  | filling p =>
    rw [hpc] at h
    rw [List.append_nil]
    exact World.Between.explains h.1
  | publishing p =>
    rw [hpc] at h
    rw [List.append_nil]
    exact h.2.1
  | spinning left p =>
    rw [hpc] at h
    exact World.UnderWay.explains h

/-- **The device consumes the request that is under way.** -/
theorem World.UnderWay.consume (h : w.UnderWay pkt done) : w.consume.UnderWay pkt done := by
  unfold World.consume
  rcases h with ⟨hnext, hused, hbytes, hdone⟩ | ⟨hnext, hused, hsent⟩
  · rw [if_neg fun heq => index_moves w.next_avail (hnext.trans heq.symm)]
    refine .inr ⟨hnext, ?_, w.sent, hdone, ?_⟩
    · show w.used_idx + 1 = w.tx_last_used + 1
      rw [hused]
    · show w.sent ++ [w.tx.take w.desc_len] = w.sent ++ [pkt]
      rw [hbytes]
  · rw [if_pos hnext]
    exact .inr ⟨hnext, hused, hsent⟩

theorem World.AtRest.consume (h : w.AtRest) : w.consume = w := by
  unfold World.consume
  rw [if_pos h.1]

theorem consume_pc : w.consume.pc = w.pc := by
  unfold World.consume
  split_ifs <;> rfl

theorem consume_calls : w.consume.calls = w.calls := by
  unfold World.consume
  split_ifs <;> rfl

theorem consume_inflight : w.consume.tx_inflight = w.tx_inflight := by
  unfold World.consume
  split_ifs <;> rfl

theorem World.Between.consume (h : w.Between) : w.consume.Between := by
  refine ⟨consume_inflight.trans h.1, ?_⟩
  rcases h.2 with ⟨hrest, hcalls⟩ | ⟨done, pkt, refused, hcalls, hrefused, hway⟩
  · rw [World.AtRest.consume hrest]
    exact .inl ⟨hrest, hcalls⟩
  · exact .inr ⟨done, pkt, refused, consume_calls.trans hcalls, hrefused, hway.consume⟩

theorem consume_keeps (h : w.Inv) : w.consume.Inv := by
  unfold World.Inv at h ⊢
  rw [consume_pc]
  cases hpc : w.pc with
  | idle =>
    rw [hpc] at h
    exact World.Between.consume h
  | draining left p =>
    rw [hpc] at h
    exact h
  | filling p =>
    rw [hpc] at h
    refine ⟨World.Between.consume h.1, fun hlegal => ?_⟩
    rw [World.AtRest.consume (h.2 hlegal)]
    exact h.2 hlegal
  | publishing p =>
    rw [hpc] at h
    dsimp only
    rw [World.AtRest.consume h.1]
    exact h
  | spinning left p =>
    rw [hpc] at h
    dsimp only
    rw [consume_calls]
    exact World.UnderWay.consume h

theorem call_keeps (h : w.Inv) (hcond : w.FromRest (.call pkt)) : (w.call pkt).Inv := by
  unfold World.call
  by_cases hidle : w.pc = .idle
  · rw [if_pos hidle]
    unfold World.Inv at h
    rw [hidle] at h
    replace h : w.Between := h
    rw [h.1]
    exact ⟨⟨rfl, h.2⟩, fun hlegal => hcond hidle hlegal⟩
  · rw [if_neg hidle]
    exact h

theorem tick_keeps (h : w.Inv) : w.tick.Inv := by
  unfold World.Inv at h
  unfold World.tick
  cases hpc : w.pc with
  | idle =>
    rw [hpc] at h
    dsimp only
    unfold World.Inv
    rw [hpc]
    exact h
  | draining left p =>
    rw [hpc] at h
    exact h.elim
  | filling p =>
    rw [hpc] at h
    obtain ⟨hbetween, hrest⟩ := h
    dsimp only
    by_cases hlegal : Legal p
    · rw [if_pos hlegal]
      have hcalls : Explains w.calls w.sent := hbetween.explains
      exact ⟨hrest hlegal, hcalls, List.take_left⟩
    · rw [if_neg hlegal]
      refine ⟨hbetween.1, ?_⟩
      rcases hbetween.2 with ⟨hquiet, hcalls⟩ | ⟨done, pkt, refused, hcalls, hrefused, hway⟩
      · exact .inl ⟨hquiet, hcalls.lost p⟩
      · refine .inr ⟨done, pkt, refused ++ [(p, false)], ?_, ?_, hway⟩
        · show w.calls ++ [(p, false)] = _
          rw [hcalls, List.append_assoc, List.cons_append]
        · intro c hc
          rcases List.mem_append.mp hc with hc | hc
          · exact hrefused c hc
          · rw [List.mem_singleton.mp hc]
  | publishing p =>
    rw [hpc] at h
    obtain ⟨⟨havail, hused⟩, hcalls, hbytes⟩ := h
    exact .inl ⟨congrArg (· + 1) havail, hused, hbytes, hcalls⟩
  | spinning left p =>
    rw [hpc] at h
    cases left with
    | zero => exact ⟨rfl, .inr ⟨w.calls, p, [], rfl, nofun, h⟩⟩
    | succ left =>
      dsimp only
      by_cases hmoved : w.used_idx ≠ w.tx_last_used
      · rw [if_pos hmoved]
        rcases h with ⟨-, hused, -⟩ | ⟨hnext, -, sent, hcalls, hsent⟩
        · exact absurd hused hmoved
        · refine ⟨rfl, .inl ⟨⟨hnext, rfl⟩, ?_⟩⟩
          show Explains (w.calls ++ [(p, true)]) w.sent
          rw [hsent]
          exact hcalls.sent p true
      · rw [if_neg hmoved]
        exact h

theorem step_keeps (h : w.Inv) {e : Event} (hcond : w.FromRest e) : (w.step e).Inv := by
  cases e with
  | call pkt => exact call_keeps h hcond
  | tick => exact tick_keeps h
  | consume => exact consume_keeps h

theorem World.Inv.owned (h : w.Inv) (e : Event) : w.Owned e := by
  cases e with
  | tick =>
    unfold World.Owned
    unfold World.Inv at h
    dsimp only
    cases hpc : w.pc with
    | filling p =>
      rw [hpc] at h
      exact fun hlegal => (h.2 hlegal).1
    | spinning left p =>
      rw [hpc] at h
      cases left with
      | zero => trivial
      | succ left =>
        intro hmoved
        rcases h with ⟨-, hused, -⟩ | ⟨hnext, -, sent, -, hsent⟩
        · exact absurd hused hmoved
        · refine ⟨hnext, ?_⟩
          rw [hsent]
          exact List.getLast?_concat
    | _ => trivial
  | _ => trivial

end Steps

theorem inv_start : World.start.Inv := ⟨rfl, .inl ⟨⟨rfl, rfl⟩, .nil⟩⟩

/-- **Calls that begin with the ring at rest own the buffer.** In every run of
calls, of the steps they take and of the device, whose calls begin with every
earlier request consumed and its completion seen: the buffer is never written
while a request refers to it, a call returns true only when its own packet was
sent, and the packets sent are those of the calls that returned true and of some
that returned false, unmodified and in order. -/
theorem transmit_owns_its_buffer {es : List Event}
    (hcond : Along World.step World.FromRest .start es) :
    Along World.step World.Owned .start es ∧
      let w := run World.step .start es
      Explains (w.calls ++ w.current) w.sent :=
  ⟨along_of_invariant (fun _ _ h hc => step_keeps h hc) (fun _ e h _ => h.owned e) hcond inv_start,
    (run_invariant (fun _ _ h hc => step_keeps h hc) hcond inv_start).explains⟩

/-- Two packets, each consumed while the call waits. -/
theorem two_packets_sent :
    Along World.step World.Owned .start
        [.call [1], .tick, .tick, .consume, .tick, .call [2], .tick, .tick, .tick, .consume, .tick] ∧
      let w := run World.step .start
        [.call [1], .tick, .tick, .consume, .tick, .call [2], .tick, .tick, .tick, .consume, .tick]
      Explains (w.calls ++ w.current) w.sent :=
  transmit_owns_its_buffer (by decide)

/-! ## A call after one that gave up -/

/-- A call that sees no completion gives up. -/
theorem spin_out {w : World} {n : Nat} {pkt : Bytes} (hpc : w.pc = .spinning n pkt)
    (hused : w.used_idx = w.tx_last_used) :
    run World.step w (List.replicate (n + 1) .tick) = { w with tx_inflight := false }.ret pkt false := by
  induction n generalizing w with
  | zero =>
    rw [List.replicate_one, run_cons, run_nil]
    show w.tick = _
    unfold World.tick
    rw [hpc]
  | succ n ih =>
    rw [List.replicate_succ, run_cons]
    have htick : w.step .tick = { w with pc := .spinning n pkt } := by
      show w.tick = _
      unfold World.tick
      rw [hpc]
      exact if_neg (not_not.mpr hused)
    rw [htick]
    exact ih (w := { w with pc := .spinning n pkt }) rfl hused

/-- The first call gives up, its packet is sent late, and the second call takes
that completion for its own: it returns true, and its packet was not sent. -/
theorem late_completion_is_mistaken :
    let w := run World.step .start ([.call [1], .tick, .tick] ++ List.replicate (SPIN + 1) .tick ++
      [.consume, .call [2], .tick, .tick, .tick])
    w.calls = [([1], false), ([2], true)] ∧ w.sent = [[1]] ∧
      ¬ Explains (w.calls ++ w.current) w.sent := by
  have hspin := @spin_out (run World.step .start [.call [1], .tick, .tick]) SPIN [1]
    (by decide) (by decide)
  rw [run_append, run_append, hspin]
  have hend : (run World.step ({ run World.step .start [.call [1], .tick, .tick] with
      tx_inflight := false }.ret [1] false) [.consume, .call [2], .tick, .tick, .tick]).calls =
        [([1], false), ([2], true)] ∧
      (run World.step ({ run World.step .start [.call [1], .tick, .tick] with
        tx_inflight := false }.ret [1] false) [.consume, .call [2], .tick, .tick, .tick]).sent =
        [[1]] := by decide
  refine ⟨hend.1, hend.2, ?_⟩
  intro hexplains
  rw [hend.1, hend.2] at hexplains
  have hsent := hexplains.sent_of_true (List.mem_append_left _ (List.mem_cons_of_mem _ List.mem_cons_self))
  exact absurd hsent (by decide)

end EveOS.Virtio.Net
