/-
The DHCP client of `kernel/src/net.rs`: the option walk, `handle_dhcp_reply`
and the two messages it sends.
-/
import EveOS.Net.Wire

set_option autoImplicit false

namespace EveOS.Net

/-- `if n > 0 { let _ = vio.transmit(&scratch[..n]); }`. -/
def AnyNic.send (vio : AnyNic) (pkt : Bytes) : AnyNic :=
  if pkt = [] then vio else (vio.transmit pkt).2

/-! ## Reading a reply -/

/-- What the option walk of `handle_dhcp_reply` collects. The `have_*` flags of
the source are the `Option`s. -/
structure DhcpOptions where
  msg : UInt8
  sid : Option Ipv4
  router : Option Ipv4
  dns : Option Ipv4
  deriving DecidableEq, Repr

def DhcpOptions.empty : DhcpOptions := ⟨0, none, none, none⟩

/-- One option with its value bytes. A later option overwrites an earlier one. -/
def DhcpOptions.set (o : DhcpOptions) (tag : UInt8) (value : Bytes) : DhcpOptions :=
  if tag = OPT_MSG_TYPE ∧ 1 ≤ value.length then { o with msg := byteAt value 0 }
  else if tag = OPT_SERVER_ID ∧ 4 ≤ value.length then { o with sid := some (.ofSlice value 0) }
  else if tag = OPT_ROUTER ∧ 4 ≤ value.length then { o with router := some (.ofSlice value 0) }
  else if tag = OPT_DNS ∧ 4 ≤ value.length then { o with dns := some (.ofSlice value 0) }
  else o

/-- The option walk over the bytes not yet read. Each round reads at least one
of them; `fuel` bounds the rounds. -/
def dhcp_options_from : Nat → DhcpOptions → Bytes → DhcpOptions
  | 0, o, _ => o
  | _ + 1, o, [] => o
  | fuel + 1, o, tag :: rest =>
    if tag = OPT_END then o
    else if tag = 0 then dhcp_options_from fuel o rest
    else
      match rest with
      | [] => o
      | ln :: values =>
        if values.length < ln.toNat then o
        else
          dhcp_options_from fuel (o.set tag (values.take ln.toNat)) (values.drop ln.toNat)

def dhcp_options (bootp : Bytes) : DhcpOptions :=
  if 244 ≤ bootp.length ∧ slice bootp 236 240 = DHCP_MAGIC then
    dhcp_options_from bootp.length .empty (bootp.drop 240)
  else .empty

/-- A BOOTP reply as `handle_dhcp_reply` reads it. -/
structure DhcpReply where
  xid : UInt32
  chaddr : Mac
  yi : Ipv4
  si : Ipv4
  opts : DhcpOptions
  deriving DecidableEq, Repr

/-- `none` when the message is too short or not a reply. -/
def dhcp_reply (bootp : Bytes) : Option DhcpReply :=
  if bootp.length < 240 then none
  else if byteAt bootp 0 ≠ 2 then none
  else some
    { xid := u32At bootp 4
      chaddr := .ofSlice bootp 28
      yi := .ofSlice bootp 16
      si := .ofSlice bootp 20
      opts := dhcp_options bootp }

/-! ## The client -/

/-- `dhcp_active`. -/
def DhcpClient.dhcp_active (s : DhcpClient) : Bool :=
  s.dhcp_phase = .WaitOffer || s.dhcp_phase = .WaitAck

variable (env : Env)

def NetStack.dhcp_send_discover (s : NetStack) (vio : AnyNic) : AnyNic :=
  vio.send (build_dhcp_packet env.our_mac .ZERO s.dhcp_xid env.our_mac DHCP_DISCOVER none none
    env.scratch_len)

def NetStack.dhcp_send_request (s : NetStack) (vio : AnyNic) : AnyNic :=
  vio.send (build_dhcp_packet env.our_mac .ZERO s.dhcp_xid env.our_mac DHCP_REQUEST
    (some s.dhcp_server_id) (some s.dhcp_offer_yi) env.scratch_len)

/-- An OFFER with a server identifier: remember it and ask for it. -/
def NetStack.take_offer (s : NetStack) (r : DhcpReply) (sid : Ipv4) : NetStack :=
  { s with
    dhcp_server_id := sid
    dhcp_offer_yi := r.yi
    dhcp_phase := .WaitAck
    dhcp_phase_start_tick := s.tick
    dhcp_last_tx_tick := s.tick }

/-- The gateway of an ACK: the router option, else `siaddr`, else ourselves. -/
def DhcpReply.gateway (r : DhcpReply) : Ipv4 :=
  let gw := r.opts.router.getD r.si
  if gw = .zero then r.yi else gw

/-- An ACK: the addresses are taken from it, whatever was offered before. -/
def NetStack.take_ack (s : NetStack) (r : DhcpReply) : NetStack :=
  { s with
    addrs := ⟨r.yi, r.gateway, r.opts.dns.getD r.gateway⟩
    dhcp_phase := .Bound
    gw_known := false
    fetch_err := [] }

/-- The reply is for this client and this transaction. -/
def NetStack.dhcp_reply_ours (s : NetStack) (r : DhcpReply) : Bool :=
  r.xid = s.dhcp_xid && r.chaddr = env.our_mac

def NetStack.handle_dhcp_reply (s : NetStack) (vio : AnyNic) (bootp : Bytes) :
    NetStack × AnyNic :=
  match dhcp_reply bootp with
  | none => (s, vio)
  | some r =>
    if !s.dhcp_reply_ours env r then (s, vio)
    else
      match s.dhcp_phase with
      | .WaitOffer =>
        if r.opts.msg = DHCP_OFFER then
          match r.opts.sid with
          | none => (s, vio)
          | some sid =>
            let s := s.take_offer r sid
            (s, s.dhcp_send_request env vio)
        else (s, vio)
      | .WaitAck => if r.opts.msg = DHCP_ACK then (s.take_ack r, vio) else (s, vio)
      | _ => (s, vio)

/-- The stack takes the reply as the offer of server `sid`. -/
structure NetStack.TakesOffer (s : NetStack) (bootp : Bytes) (r : DhcpReply) (sid : Ipv4) :
    Prop where
  reply : dhcp_reply bootp = some r
  ours : s.dhcp_reply_ours env r = true
  phase : s.dhcp_phase = .WaitOffer
  msg : r.opts.msg = DHCP_OFFER
  server : r.opts.sid = some sid

/-- The stack takes the reply as the ACK that binds it. -/
structure NetStack.TakesAck (s : NetStack) (bootp : Bytes) (r : DhcpReply) : Prop where
  reply : dhcp_reply bootp = some r
  ours : s.dhcp_reply_ours env r = true
  phase : s.dhcp_phase = .WaitAck
  msg : r.opts.msg = DHCP_ACK

/-- All that `handle_dhcp_reply` can do: nothing, take an offer, or bind. -/
theorem handle_dhcp_reply_cases (s : NetStack) (vio : AnyNic) (bootp : Bytes) :
    s.handle_dhcp_reply env vio bootp = (s, vio)
    ∨ (∃ r sid, s.TakesOffer env bootp r sid ∧ s.handle_dhcp_reply env vio bootp
        = (s.take_offer r sid, (s.take_offer r sid).dhcp_send_request env vio))
    ∨ (∃ r, s.TakesAck env bootp r ∧ s.handle_dhcp_reply env vio bootp = (s.take_ack r, vio)) := by
  unfold NetStack.handle_dhcp_reply
  cases hr : dhcp_reply bootp with
  | none => exact .inl rfl
  | some r =>
    dsimp only
    by_cases ho : s.dhcp_reply_ours env r = true
    · rw [if_neg (by simp [ho])]
      cases hp : s.dhcp_phase with
      | Idle => exact .inl rfl
      | Bound => exact .inl rfl
      | WaitOffer =>
        dsimp only
        by_cases hm : r.opts.msg = DHCP_OFFER
        · rw [if_pos hm]
          cases hs : r.opts.sid with
          | none => exact .inl rfl
          | some sid => exact .inr (.inl ⟨r, sid, ⟨hr, ho, hp, hm, hs⟩, rfl⟩)
        · rw [if_neg hm]
          exact .inl rfl
      | WaitAck =>
        dsimp only
        by_cases hm : r.opts.msg = DHCP_ACK
        · rw [if_pos hm]
          exact .inr (.inr ⟨r, ⟨hr, ho, hp, hm⟩, rfl⟩)
        · rw [if_neg hm]
          exact .inl rfl
    · rw [if_pos (by simpa using ho)]
      exact .inl rfl

end EveOS.Net
