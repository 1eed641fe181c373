/-
The data toggle of an endpoint: `kernel/src/uhci.rs` and `kernel/src/ohci.rs`.

A device flips its toggle with each transfer that goes through, and the driver has to
do the same. `interrupt_in` flips before the transfer and has one exit that flips back,
behind the wait; but a stall, an error and a timeout end the wait itself, and leave by
the `?` in front of that exit. A mouse does not notice, since it is polled with a copy
of its toggle that is thrown away. The keyboard is polled with its own.
-/
import EveOS.Usb.Hid

set_option autoImplicit false

namespace EveOS.Hid

/-- How many polls of an endpoint succeeded. -/
def successes (host : Host) (ep : Endpoint) (ps : List Poll) : Nat :=
  ps.countP (fun p => p.endpoint = ep ∧ host.Success p.device.reads)

/-- Behind the polls `ps`, the next transfer on any endpoint is made with DATA0, flipped
once for each transfer on it that succeeded. -/
def ToggleFollows (host : Host) (s : State) (ps : List Poll) : Prop :=
  ∀ p x, poll_transfer host (run (poll_step host) s ps) p = some x →
    host.data1 x.word = Bool.not^[successes host p.endpoint ps] false

/-! ## The toggle of an endpoint -/

variable {host : Host} {s : State} {p : Poll} {e : Endpoint}

/-- The toggle for the next transfer on an endpoint, if polls of it make any. -/
def State.toggle? (s : State) : Endpoint → Option Bool
  | .mouse idx =>
    if s.base then (s.mice[idx]?.filter (·.present)).map (·.toggle) else none
  | .keyboard => if s.kbd_ready ∧ s.base then some s.kbd_toggle else none

/-- The toggle that a poll leaves behind. A mouse slot keeps its own when the transfer
fails, the keyboard has what `interrupt_in` made of it. -/
def next_toggle (host : Host) : Poll → Bool → Bool
  | .mouse _ d, t => if host.Success d.reads then !t else t
  | .keyboard d, t => if host.Retired d.reads ∧ ¬host.Success d.reads then t else !t

variable (host) in
/-- What a poll of a mouse changes. -/
theorem poll_mouse_slot_spec {idx : Nat} {slot : MouseSlot} (d : Device) (hbase : s.base = true)
    (hslot : s.mice[idx]? = some slot) (hpresent : slot.present = true) :
    let x := host.interrupt_in slot.addr slot.ep slot.mps 8 slot.toggle d.reads
    let r := poll_mouse_slot host s idx d
    r.transfer = some x ∧ r.state.base = s.base ∧ r.state.kbd_ready = s.kbd_ready ∧
      r.state.kbd_toggle = s.kbd_toggle ∧
      r.state.mice = if host.Success d.reads then s.mice.set idx { slot with toggle := !slot.toggle }
        else s.mice := by
  by_cases hsuccess : host.Success d.reads
  · obtain ⟨⟨n, hresult⟩, htoggle⟩ :=
      interrupt_in_success host slot.addr slot.ep slot.mps 8 slot.toggle hsuccess
    simp only [poll_mouse_slot, hbase, hslot, hpresent, hresult, htoggle, hsuccess]
    by_cases hn : n < 3 <;> simp [hn]
  · have hresult := interrupt_in_failure host slot.addr slot.ep slot.mps 8 slot.toggle hsuccess
    simp [poll_mouse_slot, hbase, hslot, hpresent, hresult, hsuccess]

variable (host) in
/-- What a poll of the keyboard changes. -/
theorem poll_keyboard_report_spec (d : Device) (hready : s.kbd_ready = true) (hbase : s.base = true) :
    let x := host.interrupt_in s.kbd_addr s.kbd_ep s.kbd_mps 8 s.kbd_toggle d.reads
    let r := poll_keyboard_report host s d
    r.transfer = some x ∧ r.state.base = s.base ∧ r.state.kbd_ready = s.kbd_ready ∧
      r.state.kbd_toggle = next_toggle host (.keyboard d) s.kbd_toggle ∧
      r.state.mice = s.mice := by
  have hnext : (host.interrupt_in s.kbd_addr s.kbd_ep s.kbd_mps 8 s.kbd_toggle d.reads).toggle =
      next_toggle host (.keyboard d) s.kbd_toggle := by
    rw [next_toggle]
    by_cases hret : host.Retired d.reads
    · by_cases hsuccess : host.Success d.reads
      · rw [(interrupt_in_success host _ _ _ _ _ hsuccess).2, if_neg (fun h => h.2 hsuccess)]
      · rw [(interrupt_in_late_error host _ _ _ _ _ hret hsuccess).2, if_pos ⟨hret, hsuccess⟩]
    · rw [(interrupt_in_not_retired host _ _ _ _ _ hret).2, if_neg (fun h => hret h.1)]
  simp only [poll_keyboard_report, hready, hbase, ← hnext]
  cases hresult : (host.interrupt_in s.kbd_addr s.kbd_ep s.kbd_mps 8 s.kbd_toggle d.reads).result with
  | error => simp
  | ok n => by_cases hn : n < 8 <;> simp [hn]

/-! ### One poll -/

theorem poll_transfer_none (h : s.toggle? p.endpoint = none) :
    poll_transfer host s p = none ∧ poll_step host s p = s := by
  cases p with
  | mouse idx d =>
    simp only [Poll.endpoint, State.toggle?] at h
    by_cases hbase : s.base = true
    · rw [if_pos hbase] at h
      cases hslot : s.mice[idx]? with
      | none => simp [poll_transfer, poll_step, poll_mouse_slot, hbase, hslot]
      | some slot =>
        have hpresent : slot.present = false := by simpa [hslot, Option.filter] using h
        simp [poll_transfer, poll_step, poll_mouse_slot, hbase, hslot, hpresent]
    · simp [poll_transfer, poll_step, poll_mouse_slot, hbase]
  | keyboard d =>
    have hoff : s.kbd_ready = false ∨ s.base = false := by
      simp only [Poll.endpoint, State.toggle?] at h
      by_contra hon
      rw [not_or, Bool.not_eq_false, Bool.not_eq_false] at hon
      rw [if_pos hon] at h
      cases h
    simp [poll_transfer, poll_step, poll_keyboard_report, hoff]

/-- A slot that polls reach. -/
theorem toggle?_mouse {idx : Nat} {t : Bool} :
    s.toggle? (.mouse idx) = some t ↔
      s.base = true ∧ ∃ slot, s.mice[idx]? = some slot ∧ slot.present = true ∧ slot.toggle = t := by
  rw [State.toggle?]
  by_cases hbase : s.base = true
  · cases hslot : s.mice[idx]? with
    | none => simp
    | some slot =>
      cases hpresent : slot.present <;> simp [hbase, hpresent, Option.filter]
  · simp [hbase]

theorem toggle?_keyboard {t : Bool} :
    s.toggle? .keyboard = some t ↔ (s.kbd_ready = true ∧ s.base = true) ∧ s.kbd_toggle = t := by
  rw [State.toggle?]
  by_cases hon : s.kbd_ready = true ∧ s.base = true <;> simp [hon]

variable (host) in
/-- A poll makes its transfer with the toggle of the endpoint, and leaves the next one. -/
theorem poll_transfer_some {t : Bool} (h : s.toggle? p.endpoint = some t) :
    (∃ x, poll_transfer host s p = some x ∧ host.data1 x.word = t) ∧
      (poll_step host s p).toggle? p.endpoint = some (next_toggle host p t) := by
  cases p with
  | mouse idx d =>
    obtain ⟨hbase, slot, hslot, hpresent, rfl⟩ := toggle?_mouse.mp h
    obtain ⟨htransfer, hb, -, -, hmice⟩ := poll_mouse_slot_spec host d hbase hslot hpresent
    refine ⟨⟨_, htransfer, interrupt_in_word _ _ _ _ _ _⟩, ?_⟩
    refine toggle?_mouse.mpr ⟨hb.trans hbase, ?_⟩
    have hidx := (List.getElem?_eq_some_iff.mp hslot).1
    show ∃ slot', (poll_mouse_slot host s idx d).state.mice[idx]? = some slot' ∧ _
    rw [hmice, next_toggle]
    by_cases hsuccess : host.Success d.reads
    · rw [if_pos hsuccess, if_pos hsuccess, List.getElem?_set_self hidx]
      exact ⟨_, rfl, hpresent, rfl⟩
    · rw [if_neg hsuccess, if_neg hsuccess]
      exact ⟨slot, hslot, hpresent, rfl⟩
  | keyboard d =>
    obtain ⟨⟨hready, hbase⟩, rfl⟩ := toggle?_keyboard.mp h
    obtain ⟨htransfer, hb, hr, ht, -⟩ := poll_keyboard_report_spec host d hready hbase
    refine ⟨⟨_, htransfer, interrupt_in_word _ _ _ _ _ _⟩, ?_⟩
    exact toggle?_keyboard.mpr ⟨⟨hr.trans hready, hb.trans hbase⟩, ht⟩

/-- A poll of one endpoint leaves the others alone. -/
theorem poll_step_other (h : e ≠ p.endpoint) : (poll_step host s p).toggle? e = s.toggle? e := by
  cases hp : s.toggle? p.endpoint with
  | none => rw [(poll_transfer_none hp).2]
  | some t =>
    cases p with
    | mouse idx d =>
      obtain ⟨hbase, slot, hslot, hpresent, rfl⟩ := toggle?_mouse.mp hp
      obtain ⟨-, hb, hr, ht, hmice⟩ := poll_mouse_slot_spec host d hbase hslot hpresent
      cases e with
      | mouse j =>
        have hj : idx ≠ j := by
          rintro rfl
          exact h rfl
        have hget : (poll_mouse_slot host s idx d).state.mice[j]? = s.mice[j]? := by
          rw [hmice]
          by_cases hsuccess : host.Success d.reads
          · rw [if_pos hsuccess, List.getElem?_set_ne hj]
          · rw [if_neg hsuccess]
        simp only [poll_step, State.toggle?, hb, hget]
      | keyboard => simp only [poll_step, State.toggle?, hb, hr, ht]
    | keyboard d =>
      obtain ⟨⟨hready, hbase⟩, rfl⟩ := toggle?_keyboard.mp hp
      obtain ⟨-, hb, -, -, hmice⟩ := poll_keyboard_report_spec host d hready hbase
      cases e with
      | mouse j => simp only [poll_step, State.toggle?, hb, hmice]
      | keyboard => exact absurd rfl h

/-! ### A run of polls -/

theorem successes_append (host : Host) (e : Endpoint) (ps qs : List Poll) :
    successes host e (ps ++ qs) = successes host e ps + successes host e qs :=
  List.countP_append

/-- A poll that leaves the toggle right. -/
def Poll.Sound (host : Host) (p : Poll) : Prop := p.endpoint = .keyboard → host.Retired p.device.reads

/-- A sound poll flips the toggle if it succeeds, and only then. -/
theorem next_toggle_sound (h : p.Sound host) (t : Bool) :
    next_toggle host p t = Bool.not^[successes host p.endpoint [p]] t := by
  have hcount : successes host p.endpoint [p] = if host.Success p.device.reads then 1 else 0 := by
    simp [successes, List.countP_cons]
  rw [hcount]
  cases p with
  | mouse idx d =>
    rw [next_toggle]
    by_cases hsuccess : host.Success d.reads <;> simp [Poll.device, hsuccess]
  | keyboard d =>
    rw [next_toggle]
    by_cases hsuccess : host.Success d.reads
    · simp [Poll.device, hsuccess]
    · have hret : host.Retired d.reads := h rfl
      simp [Poll.device, hsuccess, hret]

/-- A poll counts for its own endpoint. -/
theorem successes_other (h : e ≠ p.endpoint) : successes host e [p] = 0 := by
  simp [successes, Ne.symm h]

/-- **The run lemma.** Sound polls flip every toggle once per success. -/
theorem run_toggle {ps : List Poll} {t : Bool} (ht : s.toggle? e = some t)
    (hps : ∀ p ∈ ps, p.endpoint = e → p.Sound host) :
    (run (poll_step host) s ps).toggle? e = some (Bool.not^[successes host e ps] t) := by
  induction ps generalizing s t with
  | nil => exact ht
  | cons p ps ih =>
    have hsplit : successes host e (p :: ps) = successes host e [p] + successes host e ps :=
      successes_append host e [p] ps
    have hrest : ∀ q ∈ ps, q.endpoint = e → q.Sound host := fun q hq => hps q (List.mem_cons_of_mem p hq)
    rw [run_cons, hsplit, Nat.add_comm, Function.iterate_add_apply]
    refine ih ?_ hrest
    by_cases he : e = p.endpoint
    · subst he
      rw [← next_toggle_sound (hps p List.mem_cons_self rfl)]
      exact (poll_transfer_some host ht).2
    · rw [poll_step_other he, successes_other he]
      exact ht

/-- No poll brings an endpoint up. -/
theorem run_toggle_none {ps : List Poll} (h : s.toggle? e = none) :
    (run (poll_step host) s ps).toggle? e = none := by
  refine run_preserves (I := fun s : State => s.toggle? e = none) ?_ h ps
  intro s p hs
  by_cases he : e = p.endpoint
  · subst he
    rw [(poll_transfer_none hs).2, hs]
  · rw [poll_step_other he, hs]

variable (host) in
/-- No poll takes one down. -/
theorem run_toggle_some {ps : List Poll} (h : ∃ t, s.toggle? e = some t) :
    ∃ t, (run (poll_step host) s ps).toggle? e = some t := by
  refine run_preserves (I := fun s : State => ∃ t, s.toggle? e = some t) ?_ h ps
  rintro s p ⟨t, ht⟩
  by_cases he : e = p.endpoint
  · subst he
    exact ⟨_, (poll_transfer_some host ht).2⟩
  · rw [poll_step_other he]
    exact ⟨t, ht⟩

/-! ## Behind `init` -/

/-- Every toggle stands at DATA0, and a keyboard was found if it is on. -/
structure AtData0 (s : State) (found : List Found) : Prop where
  mice : ∀ slot ∈ s.mice, slot.toggle = false
  kbd : s.kbd_toggle = false
  ready : s.kbd_ready = true ↔ ∃ f ∈ found, f.kind = .keyboard

theorem configure_at_data0 {found : List Found} (h : AtData0 s found) (f : Found) :
    AtData0 (s.configure_hid_boot f) (found ++ [f]) := by
  have hfound : (∃ g ∈ found ++ [f], g.kind = .keyboard) ↔
      (∃ g ∈ found, g.kind = .keyboard) ∨ f.kind = .keyboard := by
    simp only [List.mem_append, List.mem_singleton, or_and_right, exists_or, exists_eq_left]
  cases hkind : f.kind with
  | mouse =>
    have hready : s.kbd_ready = true ↔ ∃ g ∈ found ++ [f], g.kind = .keyboard := by
      rw [hfound, hkind, h.ready]
      simp
    simp only [State.configure_hid_boot, hkind, State.add_mouse_slot]
    by_cases hroom : MAX_USB_MICE ≤ s.mice.length
    · rw [if_pos hroom]
      exact ⟨h.mice, h.kbd, hready⟩
    · rw [if_neg hroom]
      refine ⟨?_, h.kbd, hready⟩
      intro slot hslot
      rcases List.mem_append.mp hslot with hold | hnew
      · exact h.mice slot hold
      · rw [List.mem_singleton.mp hnew]
  | keyboard =>
    have hfinds : ∃ g ∈ found ++ [f], g.kind = .keyboard := hfound.mpr (.inr hkind)
    simp only [State.configure_hid_boot, hkind]
    by_cases hready : s.kbd_ready = true
    · rw [if_pos hready]
      exact ⟨h.mice, h.kbd, iff_of_true hready hfinds⟩
    · rw [if_neg hready]
      exact ⟨h.mice, rfl, iff_of_true rfl hfinds⟩

theorem cleared_at_data0 (base : Bool) : AtData0 (.cleared base) [] :=
  ⟨by simp [State.cleared], rfl, by simp [State.cleared]⟩

theorem foldl_at_data0 (fs : List Found) {found : List Found} (h : AtData0 s found) :
    AtData0 (fs.foldl State.configure_hid_boot s) (found ++ fs) := by
  induction fs generalizing s found with
  | nil =>
    rw [List.append_nil]
    exact h
  | cons f fs ih =>
    have hnext := ih (configure_at_data0 h f)
    rwa [List.append_assoc, List.singleton_append] at hnext

theorem configure_base (s : State) (f : Found) : (s.configure_hid_boot f).base = s.base := by
  unfold State.configure_hid_boot State.add_mouse_slot
  cases f.kind with
  | mouse => dsimp only; split <;> rfl
  | keyboard => dsimp only; split <;> rfl

theorem foldl_base (fs : List Found) (s : State) :
    (fs.foldl State.configure_hid_boot s).base = s.base := by
  induction fs generalizing s with
  | nil => rfl
  | cons f fs ih => rw [List.foldl_cons, ih, configure_base]

/-- Whatever was found, the first transfer on an endpoint is made with DATA0. -/
theorem init_toggle {base : Bool} {found : List Found} {t : Bool}
    (h : (init base found).toggle? e = some t) : t = false := by
  have hstart : AtData0 (found.foldl State.configure_hid_boot (.cleared base)) found :=
    foldl_at_data0 found (cleared_at_data0 base)
  unfold init at h
  dsimp only at h
  split_ifs at h with hany
  · cases e with
    | mouse idx =>
      obtain ⟨-, slot, hslot, -, rfl⟩ := toggle?_mouse.mp h
      exact hstart.mice slot (List.mem_of_getElem? hslot)
    | keyboard =>
      obtain ⟨-, rfl⟩ := toggle?_keyboard.mp h
      exact hstart.kbd
  · -- without a device the driver gives its controller up
    cases e with
    | mouse idx => cases (toggle?_mouse.mp h).1
    | keyboard => cases (toggle?_keyboard.mp h).1.2

/-- The keyboard is polled if the driver has a controller and found one on it. -/
theorem init_keyboard {base : Bool} {found : List Found} :
    (init base found).toggle? .keyboard = some false ↔
      base = true ∧ ∃ f ∈ found, f.kind = .keyboard := by
  have hstart : AtData0 (found.foldl State.configure_hid_boot (.cleared base)) found :=
    foldl_at_data0 found (cleared_at_data0 base)
  have hbase : (found.foldl State.configure_hid_boot (.cleared base)).base = base := foldl_base _ _
  rw [toggle?_keyboard, ← hstart.ready]
  unfold init
  dsimp only
  split_ifs with hany
  · rw [hbase]
    constructor
    · rintro ⟨⟨hready, hb⟩, -⟩
      exact ⟨hb, hready⟩
    · rintro ⟨hb, hready⟩
      exact ⟨⟨hready, hb⟩, hstart.kbd⟩
  · rw [not_or] at hany
    constructor
    · rintro ⟨⟨hready, -⟩, -⟩
      exact absurd hready hany.2
    · rintro ⟨-, hready⟩
      exact absurd hready hany.2

/-- Where the toggle of the keyboard is right, a failed wait makes it wrong. -/
theorem keyboard_desynchronised {ps : List Poll} {d : Device} {t : Bool}
    (ht : (run (poll_step host) s ps).toggle? .keyboard = some t) (hret : ¬host.Retired d.reads)
    (h : ToggleFollows host s ps) : ¬ToggleFollows host s (ps ++ [.keyboard d]) := by
  intro hafter
  have hnext : (run (poll_step host) s (ps ++ [.keyboard d])).toggle? .keyboard = some (!t) := by
    have hstep := (poll_transfer_some host (p := .keyboard d) ht).2
    rw [next_toggle, if_neg (fun hr => hret hr.1)] at hstep
    rw [run_append]
    exact hstep
  obtain ⟨x, hx, hword⟩ := (poll_transfer_some host (p := .keyboard d) ht).1
  obtain ⟨y, hy, hword'⟩ := (poll_transfer_some host (p := .keyboard d) hnext).1
  -- the failed poll did not count
  have hcount : successes host .keyboard [.keyboard d] = 0 := by
    have hfail : ¬host.Success d.reads := fun hs => hret hs.retired
    simp [successes, Poll.endpoint, Poll.device, hfail]
  have hright := h (.keyboard d) x hx
  have hwrong := hafter (.keyboard d) y hy
  rw [hword, Poll.endpoint] at hright
  rw [hword', Poll.endpoint, successes_append, hcount, Nat.add_zero, ← hright] at hwrong
  cases t <;> cases hwrong

/-- In a run whose polls of the keyboard are sound, every toggle is right. -/
theorem toggle_follows {base : Bool} {found : List Found} {ps : List Poll}
    (h : base = true → (∃ f ∈ found, f.kind = .keyboard) →
      ∀ d, Poll.keyboard d ∈ ps → host.Retired d.reads) :
    ToggleFollows host (init base found) ps := by
  intro p x hx
  cases hrun : (run (poll_step host) (init base found) ps).toggle? p.endpoint with
  | none =>
    rw [(poll_transfer_none hrun).1] at hx
    cases hx
  | some t =>
    obtain ⟨y, hy, hword⟩ := (poll_transfer_some host hrun).1
    obtain rfl := Option.some.inj (hx.symm.trans hy)
    rw [hword]
    cases hstart : (init base found).toggle? p.endpoint with
    | none =>
      rw [run_toggle_none hstart] at hrun
      cases hrun
    | some t₀ =>
      obtain rfl := init_toggle hstart
      have hsound : ∀ q ∈ ps, q.endpoint = p.endpoint → q.Sound host := by
        intro q hq he hkbd
        rw [← he, hkbd] at hstart
        obtain ⟨hbase, hfound⟩ := init_keyboard.mp hstart
        cases q with
        | mouse idx d => cases hkbd
        | keyboard d => exact h hbase hfound d hq
      exact Option.some.inj (hrun.symm.trans (run_toggle hstart hsound))

/-- **When the toggle follows the device.** In every run of polls, each transfer is made
with DATA0 flipped once per success on its endpoint, if and only if no transfer from the
keyboard ends its wait with a stall, an error or a timeout. -/
theorem data_toggle_iff (host : Host) (base : Bool) (found : List Found) (ps : List Poll) :
    (∀ pre, pre <+: ps → ToggleFollows host (init base found) pre) ↔
      (base = true → (∃ f ∈ found, f.kind = .keyboard) →
        ∀ d, Poll.keyboard d ∈ ps → host.Retired d.reads) := by
  constructor
  · intro h hbase hkbd d hd
    by_contra hret
    obtain ⟨pre, post, rfl⟩ := List.append_of_mem hd
    obtain ⟨t, ht⟩ :=
      run_toggle_some host ⟨_, init_keyboard.mpr ⟨hbase, hkbd⟩⟩
    exact keyboard_desynchronised ht hret (h pre (List.prefix_append _ _))
      (h (pre ++ [.keyboard d]) ⟨post, by simp⟩)
  · intro h pre hpre
    exact toggle_follows fun hbase hkbd d hd => h hbase hkbd d (hpre.subset hd)

/-- A boot keyboard, at address 1. -/
def keyboard : Found := ⟨1, 0x81, 8, .keyboard⟩

/-- A device that has nothing to say: the controller never retires the descriptor. -/
def idle : Host → Device
  | .uhci => ⟨fun _ => Uhci.TD_CTRL_ACTIVE, .replicate 8 0⟩
  | .ohci => ⟨fun _ => Ohci.TD_CC, .replicate 8 0⟩

/-- Nobody touches the keyboard for the time of one wait: the next transfer is made with
DATA1, which the device does not send. -/
theorem idle_keyboard_flips :
    ¬ToggleFollows .uhci (init true [keyboard]) [.keyboard (idle .uhci)] ∧
      ¬ToggleFollows .ohci (init true [keyboard]) [.keyboard (idle .ohci)] := by
  have hflips : ∀ host : Host, ¬host.Retired (idle host).reads →
      ¬ToggleFollows host (init true [keyboard]) [.keyboard (idle host)] := by
    intro host hret
    have hstart : (run (poll_step host) (init true [keyboard]) []).toggle? .keyboard = some false :=
      init_keyboard.mpr ⟨rfl, keyboard, List.mem_singleton.mpr rfl, rfl⟩
    exact keyboard_desynchronised hstart hret (toggle_follows (by simp))
  refine ⟨hflips .uhci ?_, hflips .ohci ?_⟩
  · rintro ⟨i, -, -, hactive, -⟩
    have hidle : Uhci.active Uhci.TD_CTRL_ACTIVE = false := hactive
    exact absurd hidle (by decide)
  · rintro ⟨i, -, -, hcc⟩
    have hidle : Ohci.cc Ohci.TD_CC = 0 := hcc
    exact absurd hidle (by decide)

end EveOS.Hid
