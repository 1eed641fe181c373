/-
Who the client is bound to.

A run is watched by a ghost: the list of DHCP replies handed to
`handle_dhcp_reply` so far. `DhcpAgreed` says that the binding goes back to an
OFFER in that list and a later ACK of the same server.

`handle_dhcp_reply` stores the server identifier and the address of the offer
it takes and puts them into its REQUEST, but it compares neither of them with
the ACK, and it takes an offer of 0.0.0.0. So the agreement needs a condition on
the replies taken, `DhcpFollows`; it is stated in the code's own terms, before
the step.
-/
import EveOS.Net.DriveRun

set_option autoImplicit false

namespace EveOS.Net

variable (env : Env)

/-! ## The ghost -/

/-- The DHCP reply a received frame carries, when the stack reads one from it. -/
def NetStack.reply_in (s : NetStack) (frame : Bytes) : Option DhcpReply :=
  match s.rx_event frame with
  | .dhcp bootp => dhcp_reply bootp
  | _ => none

/-- The replies so far. -/
def noteReply (hist : List DhcpReply) (x : Node) (op : Op) (_ : Node) : List DhcpReply :=
  hist ++ (op.frame.bind x.1.reply_in).toList

/-- A run of operations together with the replies it has seen. -/
def dhcpStep : Node × List DhcpReply → Op → Node × List DhcpReply :=
  observe (Node.step env) noteReply

/-! ## The property -/

/-- An OFFER with the given transaction, client and server. -/
def DhcpReply.IsOffer (r : DhcpReply) (xid : UInt32) (mac : Mac) (sid : Ipv4) : Prop :=
  r.xid = xid ∧ r.chaddr = mac ∧ r.opts.msg = DHCP_OFFER ∧ r.opts.sid = some sid

/-- An ACK with the given transaction, client and server. -/
def DhcpReply.IsAck (r : DhcpReply) (xid : UInt32) (mac : Mac) (sid : Ipv4) : Prop :=
  r.xid = xid ∧ r.chaddr = mac ∧ r.opts.msg = DHCP_ACK ∧ r.opts.sid = some sid

/-- Some server offered a non-zero address to this client and acknowledged it
later, and that is the address in use. -/
def DhcpAgreed (s : NetStack) (hist : List DhcpReply) : Prop :=
  ∃ offer ack sid, List.Sublist [offer, ack] hist
    ∧ offer.IsOffer s.dhcp_xid env.our_mac sid ∧ offer.yi ≠ .zero
    ∧ ack.IsAck s.dhcp_xid env.our_mac sid
    ∧ s.addrs.our = offer.yi

/-! ## The condition -/

/-- If the stack takes the reply as an OFFER, it offers an address other than
0.0.0.0; if the stack takes it as the ACK, it names the server and the address
of the offer taken before. -/
def NetStack.ReplyFollows (s : NetStack) (r : DhcpReply) : Prop :=
  s.dhcp_reply_ours env r = true →
    (s.dhcp_phase = .WaitOffer → r.opts.msg = DHCP_OFFER → r.opts.sid ≠ none → r.yi ≠ .zero)
    ∧ (s.dhcp_phase = .WaitAck → r.opts.msg = DHCP_ACK →
        r.opts.sid = some s.dhcp_server_id ∧ r.yi = s.dhcp_offer_yi)

instance (s : NetStack) (r : DhcpReply) : Decidable (s.ReplyFollows env r) :=
  inferInstanceAs (Decidable (_ → (_ → _ → _ → _) ∧ (_ → _ → _ ∧ _)))

/-- The reply received in this step, if there is one, follows from the state. -/
def DhcpFollows (x : Node) (op : Op) : Prop :=
  ∀ r ∈ op.frame.bind x.1.reply_in, x.1.ReplyFollows env r

instance (x : Node) (op : Op) : Decidable (DhcpFollows env x op) :=
  inferInstanceAs (Decidable (∀ r ∈ op.frame.bind x.1.reply_in, x.1.ReplyFollows env r))

/-! ## The invariant -/

/-- While waiting for the ACK, the offer taken is in the history; once bound,
the agreement holds. -/
structure BindInv (s : NetStack) (hist : List DhcpReply) : Prop where
  offered : s.dhcp_phase = .WaitAck → ∃ offer ∈ hist,
    offer.IsOffer s.dhcp_xid env.our_mac s.dhcp_server_id
      ∧ offer.yi = s.dhcp_offer_yi ∧ s.dhcp_offer_yi ≠ .zero
  bound : s.dhcp_phase = .Bound → DhcpAgreed env s hist

/-- The invariant only looks at the DHCP state, and keeps when the history grows. -/
theorem BindInv.of_view {env : Env} {s s' : NetStack} {hist : List DhcpReply}
    (h : BindInv env s hist) (hv : s'.dhcpView = s.dhcpView) (more : List DhcpReply) :
    BindInv env s' (hist ++ more) := by
  have hphase : s'.dhcp_phase = s.dhcp_phase := congrArg (fun v => v.toDhcpClient.dhcp_phase) hv
  have hxid : s'.dhcp_xid = s.dhcp_xid := congrArg (fun v => v.toDhcpClient.dhcp_xid) hv
  have hsid : s'.dhcp_server_id = s.dhcp_server_id :=
    congrArg (fun v => v.toDhcpClient.dhcp_server_id) hv
  have hyi : s'.dhcp_offer_yi = s.dhcp_offer_yi :=
    congrArg (fun v => v.toDhcpClient.dhcp_offer_yi) hv
  have haddrs : s'.addrs = s.addrs := congrArg DhcpView.addrs hv
  constructor
  · intro hp
    obtain ⟨offer, hmem, hoffer⟩ := h.offered (hphase ▸ hp)
    refine ⟨offer, List.mem_append_left _ hmem, ?_⟩
    rw [hxid, hsid, hyi]
    exact hoffer
  · intro hp
    obtain ⟨offer, ack, sid, hsub, ho, hz, ha, haddr⟩ := h.bound (hphase ▸ hp)
    refine ⟨offer, ack, sid, hsub.trans (List.sublist_append_left _ _), ?_, hz, ?_, ?_⟩
    · rw [hxid]; exact ho
    · rw [hxid]; exact ha
    · rw [haddrs]; exact haddr

/-- Outside the two phases it is about, the invariant says nothing. -/
theorem BindInv.of_idle {env : Env} {s : NetStack} {hist : List DhcpReply}
    (hw : s.dhcp_phase ≠ .WaitAck) (hb : s.dhcp_phase ≠ .Bound) : BindInv env s hist :=
  ⟨fun h => absurd h hw, fun h => absurd h hb⟩

/-! ## One step -/

theorem bindInv_reply {s : NetStack} {vio : AnyNic} {hist : List DhcpReply} {bootp : Bytes}
    (h : BindInv env s hist)
    (hc : ∀ r ∈ dhcp_reply bootp, s.ReplyFollows env r) :
    BindInv env (s.handle_dhcp_reply env vio bootp).1 (hist ++ (dhcp_reply bootp).toList) := by
  obtain he | ⟨r, sid, ht, he⟩ | ⟨r, ht, he⟩ := handle_dhcp_reply_cases env s vio bootp
  · rw [he]
    exact h.of_view rfl _
  · -- the offer just taken is the last reply of the history
    rw [he, ht.reply]
    have hours : r.xid = s.dhcp_xid ∧ r.chaddr = env.our_mac := by
      simpa [NetStack.dhcp_reply_ours] using ht.ours
    refine ⟨fun _ => ⟨r, by simp, ⟨hours.1, hours.2, ht.msg, ht.server⟩, rfl, ?_⟩, ?_⟩
    · exact (hc r ht.reply ht.ours).1 ht.phase ht.msg (by simp [ht.server])
    · nofun
  · -- the ACK is the last reply, and the offer it follows is before it
    rw [he, ht.reply]
    have hours : r.xid = s.dhcp_xid ∧ r.chaddr = env.our_mac := by
      simpa [NetStack.dhcp_reply_ours] using ht.ours
    obtain ⟨hsid, hyi⟩ := (hc r ht.reply ht.ours).2 ht.phase ht.msg
    obtain ⟨offer, hmem, ho, hoyi, hz⟩ := h.offered ht.phase
    refine ⟨nofun, fun _ => ?_⟩
    refine ⟨offer, r, s.dhcp_server_id, ?_, ho, hoyi ▸ hz,
      ⟨hours.1, hours.2, ht.msg, hsid⟩, hyi.trans hoyi.symm⟩
    exact (List.singleton_sublist.mpr hmem).append (List.Sublist.refl [r])

theorem bindInv_rx {s : NetStack} {vio : AnyNic} {hist : List DhcpReply} {frame : Bytes}
    (h : BindInv env s hist) (hc : DhcpFollows env (s, vio) (.rx frame)) :
    BindInv env (s.handle_rx env vio frame).1 (hist ++ (s.reply_in frame).toList) := by
  have hc' : ∀ r ∈ s.reply_in frame, s.ReplyFollows env r := hc
  rw [handle_rx_eq]
  unfold NetStack.reply_in at hc' ⊢
  cases hev : s.rx_event frame with
  | ignored => exact h.of_view rfl _
  | arp mac =>
    apply h.of_view
    rfl
  | dhcp bootp =>
    rw [hev] at hc'
    exact bindInv_reply env h hc'
  | dns ip =>
    apply h.of_view
    rfl
  | tcp seg => exact h.of_view (dhcpView_of_rest (rest_take_segment env s vio seg)) _

/-- The settings put the client into `WaitOffer` or `Idle`, or leave it alone. -/
theorem bindInv_drive_begin {s : NetStack} {hist : List DhcpReply} (settings : DeviceSettings)
    (h : BindInv env s hist) : BindInv env (s.drive_begin settings) hist := by
  unfold NetStack.drive_begin NetStack.sync_ip_from_settings
  by_cases htag : settings.ip_settings_tag = s.ip_settings_tag
  · rw [if_pos htag]
    exact ⟨h.offered, h.bound⟩
  · rw [if_neg htag]
    cases settings.ip_config <;> exact .of_idle nofun nofun

/-- The timers leave the phase alone, or give the wait up. -/
theorem bindInv_dhcp_poll {s : NetStack} {vio : AnyNic} {hist : List DhcpReply}
    (h : BindInv env s hist) : BindInv env (s.dhcp_poll env vio).1 hist := by
  unfold NetStack.dhcp_poll NetStack.dhcp_timeout NetStack.dhcp_retransmit NetStack.dhcp_stamp
  dsimp only
  split_ifs <;> first
    | exact ⟨h.offered, h.bound⟩
    | exact .of_idle nofun nofun

theorem bindInv_step {x : Node} {hist : List DhcpReply} {op : Op} (h : BindInv env x.1 hist)
    (hc : DhcpFollows env x op) :
    BindInv env (dhcpStep env (x, hist) op).1.1 (dhcpStep env (x, hist) op).2 := by
  show BindInv env (Node.step env x op).1 (hist ++ (op.frame.bind x.1.reply_in).toList)
  cases op with
  | rx frame => exact bindInv_rx env h hc
  | drive_begin settings =>
    exact (bindInv_drive_begin env settings h).of_view rfl []
  | dhcp_poll => exact (bindInv_dhcp_poll env h).of_view rfl []
  | _ => exact h.of_view (step_dhcpView env x rfl) []

/-! ## Runs -/

/-- **Binding agreement.** In every run from the initial state in which the
replies taken follow each other, a bound client uses the non-zero address of an
OFFER that the same server acknowledged later. -/
theorem dhcp_binding_agreement (vio : AnyNic) (ops : List Op)
    (h : Along (dhcpStep env) (fun x op => DhcpFollows env x.1 op)
      ((NetStack.static_initial, vio), []) ops) :
    let x := run (dhcpStep env) ((NetStack.static_initial, vio), []) ops
    x.1.1.dhcp_phase = .Bound →
      DhcpAgreed env x.1.1 x.2 ∧ x.1.1.addrs.our ≠ .zero := by
  intro x hb
  have hinv : BindInv env x.1.1 x.2 := by
    refine run_invariant (I := fun y => BindInv env y.1.1 y.2) ?_ h (.of_idle nofun nofun)
    intro y op hy hc
    exact bindInv_step env hy hc
  obtain ⟨offer, ack, sid, hsub, ho, hz, ha, haddr⟩ := hinv.bound hb
  refine ⟨⟨offer, ack, sid, hsub, ho, hz, ha, haddr⟩, ?_⟩
  rw [haddr]
  exact hz

/-! ### Concrete runs -/

/-- A DHCP reply from server `sid` to the client of `Env.qemu`, as a frame. -/
def dhcp_reply_frame (msg : UInt8) (sid yi : Ipv4) : Bytes :=
  (build_udp .broadcast ⟨0x52, 0x55, 0, 0, 0, sid.b3⟩ sid .broadcast DHCP_SERVER_PORT
    DHCP_CLIENT_PORT
    ([2, 1, 6, 0] ++ u32Bytes 0x01020304 ++ List.replicate 8 0 ++ yi.bytes ++ List.replicate 8 0
      ++ Env.qemu.our_mac.bytes ++ List.replicate 202 0 ++ DHCP_MAGIC
      ++ dhcp_opt OPT_MSG_TYPE [msg] ++ dhcp_opt OPT_SERVER_ID sid.bytes ++ [OPT_END])
    0 2048).drop VIRTIO_NET_HDR

/-- One server offers and acknowledges the same address. -/
def bound_run : List Op :=
  [.drive_begin .dhcp, .rx (dhcp_reply_frame DHCP_OFFER ⟨10, 0, 2, 2⟩ ⟨10, 0, 2, 15⟩),
    .rx (dhcp_reply_frame DHCP_ACK ⟨10, 0, 2, 2⟩ ⟨10, 0, 2, 15⟩)]

theorem bound_run_agrees :
    let x := run (dhcpStep .qemu) ((NetStack.static_initial, .lossless), []) bound_run
    x.1.1.dhcp_phase = .Bound ∧ DhcpAgreed .qemu x.1.1 x.2 ∧ x.1.1.addrs.our ≠ .zero :=
  have hb : (run (dhcpStep .qemu) ((NetStack.static_initial, .lossless), [])
      bound_run).1.1.dhcp_phase = .Bound := by decide +kernel
  ⟨hb, dhcp_binding_agreement .qemu .lossless bound_run (by decide +kernel) hb⟩

/-- The first server's offer is taken, and then the ACK of a second server, with
another address. -/
def two_servers_run : List Op :=
  [.drive_begin .dhcp, .rx (dhcp_reply_frame DHCP_OFFER ⟨10, 0, 2, 2⟩ ⟨10, 0, 2, 15⟩),
    .rx (dhcp_reply_frame DHCP_ACK ⟨10, 0, 2, 9⟩ ⟨10, 0, 2, 77⟩)]

theorem two_servers_run_disagrees :
    let x := run (dhcpStep .qemu) ((NetStack.static_initial, .lossless), []) two_servers_run
    x.1.1.dhcp_phase = .Bound ∧ ¬ DhcpAgreed .qemu x.1.1 x.2 := by
  intro x
  have hsids : x.2.map (·.opts.sid) = [some ⟨10, 0, 2, 2⟩, some ⟨10, 0, 2, 9⟩] := by decide +kernel
  refine ⟨by decide +kernel, ?_⟩
  rintro ⟨offer, ack, sid, hsub, ⟨-, -, -, ho⟩, -, ⟨-, -, -, ha⟩, -⟩
  have hlen : [offer, ack].length = x.2.length := by
    simpa using (congrArg List.length hsids).symm
  rw [← hsub.eq_of_length hlen] at hsids
  simp only [List.map_cons, ho, ha, List.cons.injEq, Option.some.injEq] at hsids
  have hne : (⟨10, 0, 2, 2⟩ : Ipv4) ≠ ⟨10, 0, 2, 9⟩ := by decide
  exact hne (hsids.1.symm.trans hsids.2.1)

end EveOS.Net
