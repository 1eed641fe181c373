/-
The packet builders in their buffers.

`Wire` gives the packets as functions of their fields. The builders fill a caller's buffer
field by field, at offsets that are laid out by hand, read back what they have written to
sum it up, and write the checksum into its field. Here they do so with checked writes and
checked sums: `none` is a panic, by a write outside of the buffer or by a 32-bit sum that
overflows. The `_eq` theorems say that the packet of `Wire` stands in the buffer, with
what was there behind it, and when the sum overflows.
-/
import EveOS.Lib.Buffer
import EveOS.Lib.OnesComplement
import EveOS.Net.DnsName

set_option autoImplicit false

namespace EveOS.Net

/-! ## Sums -/

/-- `sum += x` in 32 bits. -/
def add_u32? (sum x : Nat) : Option Nat := if sum + x < 4294967296 then some (sum + x) else none

/-- The sum loop of `sum16`. -/
def sum16_words? : Bytes → Nat → Option Nat
  | a :: b :: rest, sum => do
    let sum ← add_u32? sum (be16 a b).toNat
    sum16_words? rest sum
  | [a], sum => add_u32? sum (a.toNat * 256)
  | [], sum => some sum

/-- `sum16`. Its carry loop adds two halves of 16 bits. -/
def sum16? (data : Bytes) (sum : Nat) : Option UInt16 := do
  let sum ← sum16_words? data sum
  return ~~~ UInt16.ofNat (sum16_fold 32 sum)

def pseudo_sum? (src dst : Ipv4) (proto : UInt8) (len : UInt16) : Option Nat := do
  let s ← add_u32? 0 (be16 src.b0 src.b1).toNat
  let s ← add_u32? s (be16 src.b2 src.b3).toNat
  let s ← add_u32? s (be16 dst.b0 dst.b1).toNat
  let s ← add_u32? s (be16 dst.b2 dst.b3).toNat
  let s ← add_u32? s proto.toNat
  add_u32? s len.toNat

/-- A checksum: `out[start..start + len]` is summed up, and its field is at `field`. -/
def put_checksum (out : Bytes) (start len field sum : Nat) : Option Bytes := do
  let data ← slice? out start (start + len)
  let csum ← sum16? data sum
  write? out field (u16Bytes csum)

/-! ## The headers, which all builders lay out alike -/

/-- The fields up to the end of the IPv4 header, with their offsets. -/
def ipv4_fields (dst_mac src_mac : Mac) (ip_len ident : UInt16) (proto : UInt8) (src dst : Ipv4) : List (Nat × Bytes) :=
  let e := VIRTIO_NET_HDR
  let ip := e + 14
  [(0, List.replicate VIRTIO_NET_HDR 0), (e, dst_mac.bytes), (e + 6, src_mac.bytes), (e + 12, u16Bytes ETH_P_IP),
   (ip, [0x45]), (ip + 1, [0]), (ip + 2, u16Bytes ip_len), (ip + 4, u16Bytes ident), (ip + 6, u16Bytes 0),
   (ip + 8, [64]), (ip + 9, [proto]), (ip + 10, u16Bytes 0), (ip + 12, src.bytes), (ip + 16, dst.bytes)]

def fill_ipv4 (dst_mac src_mac : Mac) (ip_len ident : UInt16) (proto : UInt8) (src dst : Ipv4) (out : Bytes) :
    Option Bytes := do
  let ip := VIRTIO_NET_HDR + 14
  let out ← write_all? out (ipv4_fields dst_mac src_mac ip_len ident proto src dst)
  put_checksum out ip 20 (ip + 10) 0

/-- The fields of the TCP header, and the payload. -/
def tcp_fields (sport dport : UInt16) (seq ack : UInt32) (flg : UInt8) (window : UInt16) (payload : Bytes) :
    List (Nat × Bytes) :=
  let t := VIRTIO_NET_HDR + 14 + 20
  [(t, u16Bytes sport), (t + 2, u16Bytes dport), (t + 4, u32Bytes seq), (t + 8, u32Bytes ack), (t + 12, [0x50]),
   (t + 13, [flg]), (t + 14, u16Bytes window), (t + 16, u16Bytes 0), (t + 18, u16Bytes 0), (t + 20, payload)]

def fill_tcp (src dst : Ipv4) (sport dport : UInt16) (seq ack : UInt32) (flg : UInt8) (window : UInt16)
    (payload out : Bytes) : Option Bytes := do
  let t := VIRTIO_NET_HDR + 14 + 20
  let tcp_len := 20 + payload.length
  let out ← write_all? out (tcp_fields sport dport seq ack flg window payload)
  let ph ← pseudo_sum? src dst 6 (UInt16.ofNat tcp_len)
  put_checksum out t tcp_len (t + 16) ph

/-- The fields of the UDP header, and the payload. -/
def udp_fields (sport dport : UInt16) (payload : Bytes) : List (Nat × Bytes) :=
  let u := VIRTIO_NET_HDR + 14 + 20
  [(u, u16Bytes sport), (u + 2, u16Bytes dport), (u + 4, u16Bytes (UInt16.ofNat (8 + payload.length))),
   (u + 6, u16Bytes 0), (u + 8, payload)]

def fill_udp (src dst : Ipv4) (sport dport : UInt16) (payload out : Bytes) : Option Bytes := do
  let u := VIRTIO_NET_HDR + 14 + 20
  let udp_len := 8 + payload.length
  let out ← write_all? out (udp_fields sport dport payload)
  let ph ← pseudo_sum? src dst 17 (UInt16.ofNat udp_len)
  put_checksum out u udp_len (u + 6) ph

/-- The common body of the TCP builders: the buffer, and the length of the packet or 0. -/
def build_tcp? (our_mac gw_mac : Mac) (addrs : NetIpv4Addrs) (remote_ip : Ipv4) (sport dport : UInt16)
    (seq ack : UInt32) (flg : UInt8) (window : UInt16) (payload : Bytes) (ip_ident : UInt16) (out : Bytes) :
    Option (Bytes × Nat) :=
  let tcp_len := 20 + payload.length
  let ip_len := 20 + tcp_len
  let total := VIRTIO_NET_HDR + (14 + ip_len)
  if out.length < total then some (out, 0)
  else do
    let out ← fill_ipv4 gw_mac our_mac (UInt16.ofNat ip_len) ip_ident 6 addrs.our remote_ip out
    let out ← fill_tcp addrs.our remote_ip sport dport seq ack flg window payload out
    return (out, total)

/-- The common end of the UDP builders. -/
def build_udp? (dst_mac our_mac : Mac) (src dst : Ipv4) (sport dport : UInt16) (payload : Bytes) (ip_ident : UInt16)
    (out : Bytes) : Option (Bytes × Nat) :=
  let udp_len := 8 + payload.length
  let ip_len := 20 + udp_len
  let total := VIRTIO_NET_HDR + (14 + ip_len)
  if out.length < total then some (out, 0)
  else do
    let out ← fill_ipv4 dst_mac our_mac (UInt16.ofNat ip_len) ip_ident 17 src dst out
    let out ← fill_udp src dst sport dport payload out
    return (out, total)

/-! ## The builders -/

def build_tcp_syn? (our_mac gw_mac : Mac) (addrs : NetIpv4Addrs) (seq : UInt32) (remote_ip : Ipv4)
    (remote_port : UInt16) (out : Bytes) : Option (Bytes × Nat) :=
  build_tcp? our_mac gw_mac addrs remote_ip LOCAL_PORT remote_port seq 0 0x02 0x2000 [] 0 out

def build_tcp_ack_psh? (our_mac gw_mac : Mac) (addrs : NetIpv4Addrs) (remote_ip : Ipv4) (sport dport : UInt16)
    (seq ack : UInt32) (payload : Bytes) (ip_ident : UInt16) (out : Bytes) : Option (Bytes × Nat) :=
  build_tcp? our_mac gw_mac addrs remote_ip sport dport seq ack 0x18 0x8000 payload ip_ident out

def build_tcp_ack_only? (our_mac gw_mac : Mac) (addrs : NetIpv4Addrs) (remote_ip : Ipv4) (sport dport : UInt16)
    (seq ack : UInt32) (ip_ident : UInt16) (out : Bytes) : Option (Bytes × Nat) :=
  build_tcp? our_mac gw_mac addrs remote_ip sport dport seq ack 0x10 0x8000 [] ip_ident out

/-! ### DHCP -/

/-- `dhcp_push_opt`: the buffer, the position, and whether there was room. -/
def dhcp_push_opt? (buf : Bytes) (pos : Nat) (tag : UInt8) (data : Bytes) : Option (Bytes × Nat × Bool) :=
  if buf.length < pos + 2 + data.length then some (buf, pos, false)
  else do
    let buf ← write_all? buf [(pos, [tag]), (pos + 1, [UInt8.ofNat data.length]), (pos + 2, data)]
    return (buf, pos + (2 + data.length), true)

/-- An option that is only there with an address. -/
def dhcp_push_ip? (buf : Bytes) (pos : Nat) (tag : UInt8) : Option Ipv4 → Option (Bytes × Nat × Bool)
  | some ip => dhcp_push_opt? buf pos tag ip.bytes
  | none => some (buf, pos, true)

/-- `bp` and `plen` of `build_dhcp_packet`, or `none` where it returns 0. -/
def dhcp_message? (xid : UInt32) (client_mac : Mac) (msg_type : UInt8) (server_id requested_ip : Option Ipv4) :
    Option (Option (Bytes × Nat)) := do
  let bp ← write_all? (List.replicate 576 0)
    [(0, [1]), (1, [1]), (2, [6]), (4, u32Bytes xid), (10, u16Bytes 0x8000), (28, client_mac.bytes), (236, DHCP_MAGIC)]
  let (bp, o, ok) ← dhcp_push_opt? bp 240 OPT_MSG_TYPE [msg_type]
  if !ok then return none
  else
    let (bp, o, ok) ← dhcp_push_ip? bp o OPT_REQUESTED_IP requested_ip
    if !ok then return none
    else
      let (bp, o, ok) ← dhcp_push_ip? bp o OPT_SERVER_ID server_id
      if !ok then return none
      else if bp.length ≤ o then return none
      else
        let bp ← write? bp o [OPT_END]
        return some (bp, o + 1)

def build_dhcp_packet? (our_mac : Mac) (ip_src : NetIpv4Addrs) (xid : UInt32) (client_mac : Mac) (msg_type : UInt8)
    (server_id requested_ip : Option Ipv4) (out : Bytes) : Option (Bytes × Nat) := do
  let message ← dhcp_message? xid client_mac msg_type server_id requested_ip
  match message with
  | none => return (out, 0)
  | some (bp, plen) =>
    let payload ← slice? bp 0 plen
    build_udp? .broadcast our_mac ip_src.our .broadcast DHCP_CLIENT_PORT DHCP_SERVER_PORT payload 0 out

/-! ### DNS -/

/-- The loop of `encode_dns_qname` over `hostname[i..]` and what follows it. -/
def encode_qname_into (hostname : Bytes) : Bytes → Nat → Nat → Bytes → Nat → Option (Option (Bytes × Nat))
  | [], _, start, out, pos =>
    let lab := hostname.length - start
    if lab = 0 ∨ 63 < lab ∨ out.length < pos + 1 + lab + 1 then some none
    else do
      let label ← slice? hostname start hostname.length
      let out ← write_all? out [(pos, [UInt8.ofNat lab]), (pos + 1, label)]
      let out ← write? out (pos + 1 + lab) [0]
      return some (out, pos + 1 + lab + 1)
  | c :: rest, i, start, out, pos =>
    if c = 46 then
      let lab := i - start
      if lab = 0 ∨ 63 < lab ∨ out.length < pos + 1 + lab then some none
      else do
        let label ← slice? hostname start i
        let out ← write_all? out [(pos, [UInt8.ofNat lab]), (pos + 1, label)]
        encode_qname_into hostname rest (i + 1) (i + 1) out (pos + 1 + lab)
    else encode_qname_into hostname rest (i + 1) start out pos

/-- `encode_dns_qname`: the buffer and the length of the name. -/
def encode_dns_qname? (hostname out : Bytes) : Option (Option (Bytes × Nat)) :=
  if hostname = [] ∨ 200 < hostname.length then some none
  else encode_qname_into hostname hostname 0 0 out 0

/-- `dns` and `dp` of `build_dns_udp_packet`, or `none` where it returns 0. -/
def dns_query? (hostname : Bytes) (tx_id : UInt16) : Option (Option (Bytes × Nat)) := do
  let dns ← write_all? (List.replicate 512 0)
    [(0, u16Bytes tx_id), (2, u16Bytes 0x0100), (4, u16Bytes 1), (6, List.replicate 6 0)]
  let behind ← slice? dns 12 dns.length
  let name ← encode_dns_qname? hostname behind
  match name with
  | none => return none
  | some (behind, nq) =>
    let dns ← write? dns 12 behind
    let dp := 12 + nq
    let dns ← write_all? dns [(dp, u16Bytes 1), (dp + 2, u16Bytes 1)]
    return some (dns, dp + 4)

def build_dns_udp_packet? (our_mac gw_mac : Mac) (addrs : NetIpv4Addrs) (sport dport : UInt16) (hostname : Bytes)
    (tx_id ip_ident : UInt16) (out : Bytes) : Option (Bytes × Nat) := do
  let query ← dns_query? hostname tx_id
  match query with
  | none => return (out, 0)
  | some (dns, dp) =>
    let payload ← slice? dns 0 dp
    build_udp? gw_mac our_mac addrs.our addrs.dns sport dport payload ip_ident out

/-! ## The sums in closed form -/

section Sums

theorem be16_toNat (a b : UInt8) : (be16 a b).toNat = a.toNat * 256 + b.toNat := by
  have ha := a.toNat_lt
  have hb := b.toNat_lt
  rw [be16, UInt16.toNat_ofNat', Nat.mod_eq_of_lt (by omega)]

theorem sum16_words_eq (data : Bytes) (sum : Nat) : sum16_words data sum = sum + (words16 data).sum := by
  fun_induction sum16_words data sum with
  | case1 a b rest sum ih =>
    rw [ih, words16, List.sum_cons, be16_toNat, Nat.add_assoc]
  | case2 a sum => simp [words16]
  | case3 sum => simp [words16]

/-- **The 32-bit sum overflows** if and only if the sum of the words is too large. -/
theorem sum16_words?_eq (data : Bytes) {sum : Nat} (h : sum < 4294967296) :
    sum16_words? data sum =
      if sum16_words data sum < 4294967296 then some (sum16_words data sum) else none := by
  fun_induction sum16_words data sum with
  | case1 a b rest sum ih =>
    rw [sum16_words?, add_u32?]
    by_cases hsum : sum + (be16 a b).toNat < 4294967296
    · rw [if_pos hsum]
      exact ih hsum
    · have hle := sum16_words_eq rest (sum + (be16 a b).toNat)
      rw [if_neg hsum, if_neg (by omega)]
      rfl
  | case2 a sum => rfl
  | case3 sum =>
    rw [if_pos h]
    rfl

/-- Two rounds of carries are enough. -/
theorem sum16_fold_eq {sum : Nat} (h : sum < 4294967296) : sum16_fold 32 sum = ones_rep sum := by
  have hdone : ∀ fuel n, n < 65536 → sum16_fold fuel n = n := by
    intro fuel n hn
    cases fuel with
    | zero => rfl
    | succ fuel => rw [sum16_fold, if_pos (by omega)]
  have hround : ∀ fuel n, sum16_fold (fuel + 1) n = if n / 65536 = 0 then n else sum16_fold fuel (n % 65536 + n / 65536) :=
    fun _ _ => rfl
  rw [hround, hround]
  split_ifs with hfirst hsecond
  · exact (ones_rep_word (by omega)).symm
  · rw [← ones_rep_carry sum, ones_rep_word (by omega)]
  · rw [hdone _ _ (by omega), ← ones_rep_carry sum, ← ones_rep_carry (sum % 65536 + sum / 65536),
      ones_rep_word (by omega)]

theorem sum16?_eq (data : Bytes) {sum : Nat} (h : sum < 4294967296) :
    sum16? data sum = if sum16_words data sum < 4294967296 then some (sum16 data sum) else none := by
  rw [sum16?, sum16_words?_eq data h]
  split_ifs
  · rfl
  · rfl

/-- The checksum is the complement of the sum. -/
theorem sum16_toNat {data : Bytes} {sum : Nat} (h : sum16_words data sum < 4294967296) :
    (sum16 data sum).toNat = 65535 - ones_rep (sum16_words data sum) := by
  have hle := ones_rep_le (sum16_words data sum)
  rw [sum16, sum16_fold_eq h, UInt16.toNat_not, UInt16.toNat_ofNat', Nat.mod_eq_of_lt (by omega)]
  rfl

theorem pseudo_sum_lt (src dst : Ipv4) (proto : UInt8) (len : UInt16) :
    pseudo_sum src dst proto len ≤ 327935 := by
  have hs := (be16 src.b0 src.b1).toNat_lt
  have hs' := (be16 src.b2 src.b3).toNat_lt
  have hd := (be16 dst.b0 dst.b1).toNat_lt
  have hd' := (be16 dst.b2 dst.b3).toNat_lt
  have hp := proto.toNat_lt
  have hl := len.toNat_lt
  unfold pseudo_sum
  omega

/-- The sum over the pseudo-header never overflows. -/
theorem pseudo_sum?_eq (src dst : Ipv4) (proto : UInt8) (len : UInt16) :
    pseudo_sum? src dst proto len = some (pseudo_sum src dst proto len) := by
  have hlt := pseudo_sum_lt src dst proto len
  unfold pseudo_sum at hlt ⊢
  have hadd : ∀ a b, a + b < 4294967296 → add_u32? a b = some (a + b) := fun _ _ h => if_pos h
  unfold pseudo_sum?
  simp (disch := omega) only [Nat.zero_add, hadd, Option.bind_eq_bind, Option.bind_some]

end Sums

/-! ## What stands in the buffer -/

section Fill

/-- **A checksum is put in its field**, which was zero. -/
theorem put_checksum_eq (a b c r : Bytes) (start len field sum : Nat) (hstart : start = a.length) (hlen : len = (b ++ (u16Bytes 0 ++ c)).length)
    (hfield : field = start + b.length) (hsum : sum < 4294967296) :
    put_checksum (a ++ ((b ++ (u16Bytes 0 ++ c)) ++ r)) start len field sum =
      if sum16_words (b ++ (u16Bytes 0 ++ c)) sum < 4294967296 then
        some (a ++ ((b ++ (u16Bytes (sum16 (b ++ (u16Bytes 0 ++ c)) sum) ++ c)) ++ r))
      else none := by
  have hat : field = (a ++ b).length := by rw [hfield, hstart, List.length_append]
  have hwrite : ∀ w, write? (a ++ ((b ++ (u16Bytes 0 ++ c)) ++ r)) field (u16Bytes w) =
      some (a ++ ((b ++ (u16Bytes w ++ c)) ++ r)) := by
    intro w
    have hpart := write?_part (a ++ b) (c ++ r) (show (u16Bytes w).length = (u16Bytes 0).length from rfl)
    rw [hat]
    simpa only [List.append_assoc] using hpart
  unfold put_checksum
  rw [hlen, hstart, slice?_part, Option.bind_eq_bind, Option.bind_some, sum16?_eq _ hsum]
  split_ifs
  · rw [Option.bind_eq_bind, Option.bind_some, hwrite]
  · rfl

end Fill

section Headers

variable (dst_mac src_mac : Mac) (ip_len ident : UInt16) (proto : UInt8) (src dst : Ipv4) (sport dport : UInt16)
  (seq ack : UInt32) (flg : UInt8) (window : UInt16) (payload : Bytes)

/-- The words of the header of IPv4 do not overflow. -/
theorem ipv4_header_sum_lt : sum16_words (ipv4_header_with ip_len ident proto src dst 0) 0 < 4294967296 := by
  have hle := words16_sum_le (ipv4_header_with ip_len ident proto src dst 0)
  have hlen : (ipv4_header_with ip_len ident proto src dst 0).length = 20 := rfl
  rw [hlen] at hle
  rw [sum16_words_eq]
  omega

/-- **The headers in front.** -/
theorem fill_ipv4_eq {out : Bytes} (hroom : 46 ≤ out.length) :
    fill_ipv4 dst_mac src_mac ip_len ident proto src dst out =
      some ((virtio_header ++ eth_header dst_mac src_mac ETH_P_IP ++ ipv4_header ip_len ident proto src dst) ++
        out.drop 46) := by
  have hlaid := write_all?_laid [] out (ipv4_fields dst_mac src_mac ip_len ident proto src dst) (by
      simp [ipv4_fields, Ascending, VIRTIO_NET_HDR, Mac.bytes, Ipv4.bytes, u16Bytes]) (by
      simpa [ipv4_fields, parts_end, VIRTIO_NET_HDR, Ipv4.bytes] using hroom)
  have hbytes : laid 0 (ipv4_fields dst_mac src_mac ip_len ident proto src dst) out =
      (virtio_header ++ eth_header dst_mac src_mac ETH_P_IP) ++
        ((([0x45, 0] ++ u16Bytes ip_len ++ u16Bytes ident ++ [0, 0, 64, proto]) ++
          (u16Bytes 0 ++ (src.bytes ++ dst.bytes))) ++ out.drop 46) := by
    simp [ipv4_fields, laid, VIRTIO_NET_HDR, virtio_header, eth_header, Mac.bytes, Ipv4.bytes, u16Bytes]
  have hput := put_checksum_eq (virtio_header ++ eth_header dst_mac src_mac ETH_P_IP)
    ([0x45, 0] ++ u16Bytes ip_len ++ u16Bytes ident ++ [0, 0, 64, proto]) (src.bytes ++ dst.bytes) (out.drop 46)
    26 20 36 0 rfl rfl rfl (by decide)
  have hsum := ipv4_header_sum_lt ip_len ident proto src dst
  change (write_all? ([] ++ out) (ipv4_fields dst_mac src_mac ip_len ident proto src dst)).bind
    (fun out => put_checksum out 26 20 36 0) = _
  rw [hlaid, Option.bind_some, List.nil_append, List.length_nil, hbytes, hput]
  exact if_pos hsum

/-- The sum over a segment, whose checksum is still zero, and its pseudo-header. -/
def tcp_sum : Nat :=
  sum16_words (tcp_header_with sport dport seq ack flg window 0 ++ payload)
    (pseudo_sum src dst 6 (UInt16.ofNat (20 + payload.length)))

/-- The sum over a datagram, whose checksum is still zero, and its pseudo-header. -/
def udp_sum : Nat :=
  sum16_words (u16Bytes sport ++ u16Bytes dport ++ u16Bytes (UInt16.ofNat (8 + payload.length)) ++ [0, 0] ++ payload)
    (pseudo_sum src dst 17 (UInt16.ofNat (8 + payload.length)))

/-- **The segment behind them.** -/
theorem fill_tcp_eq {p r : Bytes} (hp : p.length = 46) (hroom : 20 + payload.length ≤ r.length) :
    fill_tcp src dst sport dport seq ack flg window payload (p ++ r) =
      if tcp_sum src dst sport dport seq ack flg window payload < 4294967296 then
        some (p ++ (tcp_segment src dst sport dport seq ack flg window payload ++ r.drop (20 + payload.length)))
      else none := by
  have hph := pseudo_sum_lt src dst 6 (UInt16.ofNat (20 + payload.length))
  have hlaid := write_all?_laid p r (tcp_fields sport dport seq ack flg window payload) (by
      simp [tcp_fields, Ascending, VIRTIO_NET_HDR, u16Bytes, u32Bytes, hp]) (by
      rw [hp]
      simp only [tcp_fields, parts_end, VIRTIO_NET_HDR]
      omega)
  have hbytes : laid p.length (tcp_fields sport dport seq ack flg window payload) r =
      (u16Bytes sport ++ u16Bytes dport ++ u32Bytes seq ++ u32Bytes ack ++ [0x50, flg] ++ u16Bytes window) ++
        (u16Bytes 0 ++ ([0, 0] ++ payload)) ++ r.drop (20 + payload.length) := by
    rw [hp]
    simp [tcp_fields, laid, VIRTIO_NET_HDR, u16Bytes, u32Bytes]
  have hput := put_checksum_eq p (u16Bytes sport ++ u16Bytes dport ++ u32Bytes seq ++ u32Bytes ack ++ [0x50, flg] ++
    u16Bytes window) ([0, 0] ++ payload) (r.drop (20 + payload.length)) 46 (20 + payload.length) 62
    (pseudo_sum src dst 6 (UInt16.ofNat (20 + payload.length))) hp.symm (by
      simp only [List.length_append, u16Bytes, u32Bytes, List.length_cons, List.length_nil]
      omega) rfl (by omega)
  change (write_all? (p ++ r) (tcp_fields sport dport seq ack flg window payload)).bind
    (fun out => (pseudo_sum? src dst 6 (UInt16.ofNat (20 + payload.length))).bind
      fun ph => put_checksum out 46 (20 + payload.length) 62 ph) = _
  have hsegment : ∀ w, (u16Bytes sport ++ u16Bytes dport ++ u32Bytes seq ++ u32Bytes ack ++ [0x50, flg] ++
      u16Bytes window) ++ (u16Bytes w ++ ([0, 0] ++ payload)) =
        tcp_header_with sport dport seq ack flg window w ++ payload := by
    simp [tcp_header_with]
  rw [hlaid, Option.bind_some, pseudo_sum?_eq, Option.bind_some, hbytes, hput, hsegment, hsegment]
  rfl

/-- **The datagram behind them.** -/
theorem fill_udp_eq {p r : Bytes} (hp : p.length = 46) (hroom : 8 + payload.length ≤ r.length) :
    fill_udp src dst sport dport payload (p ++ r) =
      if udp_sum src dst sport dport payload < 4294967296 then
        some (p ++ (udp_datagram src dst sport dport payload ++ r.drop (8 + payload.length)))
      else none := by
  have hph := pseudo_sum_lt src dst 17 (UInt16.ofNat (8 + payload.length))
  have hlaid := write_all?_laid p r (udp_fields sport dport payload) (by
      simp [udp_fields, Ascending, VIRTIO_NET_HDR, u16Bytes, hp]) (by
      rw [hp]
      simp only [udp_fields, parts_end, VIRTIO_NET_HDR]
      omega)
  have hbytes : laid p.length (udp_fields sport dport payload) r =
      (u16Bytes sport ++ u16Bytes dport ++ u16Bytes (UInt16.ofNat (8 + payload.length))) ++
        (u16Bytes 0 ++ payload) ++ r.drop (8 + payload.length) := by
    rw [hp]
    simp [udp_fields, laid, VIRTIO_NET_HDR, u16Bytes]
  have hput := put_checksum_eq p (u16Bytes sport ++ u16Bytes dport ++ u16Bytes (UInt16.ofNat (8 + payload.length)))
    payload (r.drop (8 + payload.length)) 46 (8 + payload.length) 52
    (pseudo_sum src dst 17 (UInt16.ofNat (8 + payload.length))) hp.symm (by
      simp only [List.length_append, u16Bytes, List.length_cons, List.length_nil]
      omega) rfl (by omega)
  have hdatagram : ∀ w, (u16Bytes sport ++ u16Bytes dport ++ u16Bytes (UInt16.ofNat (8 + payload.length))) ++
      (u16Bytes w ++ payload) =
        u16Bytes sport ++ u16Bytes dport ++ u16Bytes (UInt16.ofNat (8 + payload.length)) ++ u16Bytes w ++ payload := by
    simp
  change (write_all? (p ++ r) (udp_fields sport dport payload)).bind
    (fun out => (pseudo_sum? src dst 17 (UInt16.ofNat (8 + payload.length))).bind
      fun ph => put_checksum out 46 (8 + payload.length) 52 ph) = _
  rw [hlaid, Option.bind_some, pseudo_sum?_eq, Option.bind_some, hbytes, hput, hdatagram, hdatagram]
  rfl

/-- A sum over few bytes does not overflow. -/
theorem udp_sum_lt (h : payload.length ≤ 131050) : udp_sum src dst sport dport payload < 4294967296 := by
  have hph := pseudo_sum_lt src dst 17 (UInt16.ofNat (8 + payload.length))
  have hle := words16_sum_le (u16Bytes sport ++ u16Bytes dport ++ u16Bytes (UInt16.ofNat (8 + payload.length)) ++
    [0, 0] ++ payload)
  simp only [List.length_append, u16Bytes, List.length_cons, List.length_nil] at hle
  rw [udp_sum, sum16_words_eq]
  simp only [u16Bytes]
  omega

/-- The words of a segment, and the checksum among them. -/
theorem tcp_words (csum : UInt16) :
    (words16 (tcp_header_with sport dport seq ack flg window csum ++ payload)).sum =
      (words16 (u16Bytes sport ++ u16Bytes dport ++ u32Bytes seq ++ u32Bytes ack ++ [0x50, flg] ++
        u16Bytes window)).sum + (csum.toNat + (words16 payload).sum) := by
  have heven : (u16Bytes sport ++ u16Bytes dport ++ u32Bytes seq ++ u32Bytes ack ++ [0x50, flg] ++
      u16Bytes window).length % 2 = 0 := by
    simp [u16Bytes, u32Bytes]
  have hsegment : tcp_header_with sport dport seq ack flg window csum ++ payload =
      (u16Bytes sport ++ u16Bytes dport ++ u32Bytes seq ++ u32Bytes ack ++ [0x50, flg] ++ u16Bytes window) ++
        (u16Bytes csum ++ (u16Bytes 0 ++ payload)) := by
    simp [tcp_header_with, u16Bytes]
  have hurgent := words16_sum_field (show ([] : Bytes).length % 2 = 0 from rfl) 0 payload
  rw [List.nil_append, words16, List.sum_nil, UInt16.toNat_zero, Nat.zero_add, Nat.zero_add] at hurgent
  rw [hsegment, words16_sum_field heven, hurgent]

/-- A sum over few bytes does not overflow. -/
theorem tcp_sum_lt (h : payload.length ≤ 131042) :
    tcp_sum src dst sport dport seq ack flg window payload < 4294967296 := by
  have hph := pseudo_sum_lt src dst 6 (UInt16.ofNat (20 + payload.length))
  have hfront := words16_sum_le (u16Bytes sport ++ u16Bytes dport ++ u32Bytes seq ++ u32Bytes ack ++ [0x50, flg] ++
    u16Bytes window)
  have hlen : (u16Bytes sport ++ u16Bytes dport ++ u32Bytes seq ++ u32Bytes ack ++ [0x50, flg] ++
      u16Bytes window).length = 16 := rfl
  have hpayload := words16_sum_le payload
  rw [hlen] at hfront
  rw [tcp_sum, sum16_words_eq, tcp_words, UInt16.toNat_zero]
  omega

end Headers

/-! ## The packets -/

section Packets

variable (our_mac gw_mac : Mac) (addrs : NetIpv4Addrs) (remote_ip src dst : Ipv4) (sport dport : UInt16)
  (seq ack : UInt32) (flg : UInt8) (window : UInt16) (payload : Bytes) (ip_ident : UInt16) (out : Bytes)

/-- The headers in front of a segment or datagram have 46 bytes. -/
theorem length_front (dst_mac src_mac : Mac) (ip_len ident : UInt16) (proto : UInt8) :
    (virtio_header ++ eth_header dst_mac src_mac ETH_P_IP ++ ipv4_header ip_len ident proto src dst).length = 46 := rfl

/-- **The TCP builders.** -/
theorem build_tcp?_eq :
    build_tcp? our_mac gw_mac addrs remote_ip sport dport seq ack flg window payload ip_ident out =
      if out.length < 66 + payload.length then some (out, 0)
      else if tcp_sum addrs.our remote_ip sport dport seq ack flg window payload < 4294967296 then
        some (build_tcp our_mac gw_mac addrs remote_ip sport dport seq ack flg window payload ip_ident out.length ++
          out.drop (66 + payload.length), 66 + payload.length)
      else none := by
  have htotal : VIRTIO_NET_HDR + (14 + (20 + (20 + payload.length))) = 66 + payload.length := by
    simp only [VIRTIO_NET_HDR]
    omega
  have hlen : 20 + (20 + payload.length) = 40 + payload.length := by omega
  unfold build_tcp?
  dsimp only
  rw [htotal, hlen]
  by_cases hroom : out.length < 66 + payload.length
  · rw [if_pos hroom, if_pos hroom]
  · have hdrop : 20 + payload.length ≤ (out.drop 46).length := by
      rw [List.length_drop]
      omega
    rw [if_neg hroom, if_neg hroom, fill_ipv4_eq _ _ _ _ _ _ _ (by omega), Option.bind_eq_bind, Option.bind_some,
      fill_tcp_eq _ _ _ _ _ _ _ _ _ (length_front _ _ _ _ _ _ _) hdrop]
    have hcap : ¬out.length < VIRTIO_NET_HDR + 14 + (40 + payload.length) := by
      simp only [VIRTIO_NET_HDR]
      omega
    have hbehind : (out.drop 46).drop (20 + payload.length) = out.drop (66 + payload.length) := by
      rw [List.drop_drop]
      congr 1
      omega
    split_ifs
    · rw [build_tcp, if_neg hcap, hbehind, Option.bind_some, ← List.append_assoc]
      rfl
    · rfl

/-- **The UDP builders.** -/
theorem build_udp?_eq (dst_mac : Mac) :
    build_udp? dst_mac our_mac src dst sport dport payload ip_ident out =
      if out.length < 54 + payload.length then some (out, 0)
      else if udp_sum src dst sport dport payload < 4294967296 then
        some (build_udp dst_mac our_mac src dst sport dport payload ip_ident out.length ++
          out.drop (54 + payload.length), 54 + payload.length)
      else none := by
  have htotal : VIRTIO_NET_HDR + (14 + (20 + (8 + payload.length))) = 54 + payload.length := by
    simp only [VIRTIO_NET_HDR]
    omega
  have hlen : 20 + (8 + payload.length) = 28 + payload.length := by omega
  unfold build_udp?
  dsimp only
  rw [htotal, hlen]
  by_cases hroom : out.length < 54 + payload.length
  · rw [if_pos hroom, if_pos hroom]
  · have hdrop : 8 + payload.length ≤ (out.drop 46).length := by
      rw [List.length_drop]
      omega
    rw [if_neg hroom, if_neg hroom, fill_ipv4_eq _ _ _ _ _ _ _ (by omega), Option.bind_eq_bind, Option.bind_some,
      fill_udp_eq _ _ _ _ _ (length_front _ _ _ _ _ _ _) hdrop]
    have hcap : ¬out.length < VIRTIO_NET_HDR + 14 + (28 + payload.length) := by
      simp only [VIRTIO_NET_HDR]
      omega
    have hbehind : (out.drop 46).drop (8 + payload.length) = out.drop (54 + payload.length) := by
      rw [List.drop_drop]
      congr 1
      omega
    split_ifs
    · rw [build_udp, if_neg hcap, hbehind, Option.bind_some, ← List.append_assoc]
      rfl
    · rfl

end Packets

/-! ### DHCP -/

section Dhcp

/-- An option behind what has been written. -/
theorem dhcp_push_opt?_eq (w r : Bytes) (tag : UInt8) (data : Bytes) (hroom : 2 + data.length ≤ r.length) :
    dhcp_push_opt? (w ++ r) w.length tag data =
      some ((w ++ dhcp_opt tag data) ++ r.drop (2 + data.length), (w ++ dhcp_opt tag data).length, true) := by
  have hlaid := write_all?_laid w r
    [(w.length, [tag]), (w.length + 1, [UInt8.ofNat data.length]), (w.length + 2, data)] (by simp [Ascending]) (by
      simp only [parts_end]
      omega)
  have hbytes : laid w.length [(w.length, [tag]), (w.length + 1, [UInt8.ofNat data.length]), (w.length + 2, data)] r =
      dhcp_opt tag data ++ r.drop (2 + data.length) := by
    simp [laid, dhcp_opt]
  have hlen : w.length + (2 + data.length) = (w ++ dhcp_opt tag data).length := by
    simp only [List.length_append, dhcp_opt, List.length_cons]
    omega
  have hfits : ¬(w ++ r).length < w.length + 2 + data.length := by
    rw [List.length_append]
    omega
  rw [dhcp_push_opt?, if_neg hfits, hlaid, hbytes, hlen, ← List.append_assoc]
  rfl

/-- The bytes of an option that is only there with an address. -/
def dhcp_ip_opt (tag : UInt8) : Option Ipv4 → Bytes
  | some ip => dhcp_opt tag ip.bytes
  | none => []

theorem dhcp_push_ip?_eq (w r : Bytes) (tag : UInt8) (ip : Option Ipv4) (hroom : 6 ≤ r.length) :
    ∃ r', r.length ≤ r'.length + 6 ∧ dhcp_push_ip? (w ++ r) w.length tag ip =
      some ((w ++ dhcp_ip_opt tag ip) ++ r', (w ++ dhcp_ip_opt tag ip).length, true) := by
  cases ip with
  | none => exact ⟨r, by omega, by simp [dhcp_push_ip?, dhcp_ip_opt]⟩
  | some ip =>
    have hlen : ip.bytes.length = 4 := rfl
    refine ⟨r.drop (2 + ip.bytes.length), ?_, dhcp_push_opt?_eq w r tag ip.bytes (by omega)⟩
    rw [List.length_drop]
    omega

variable (xid : UInt32) (client_mac : Mac) (msg_type : UInt8) (server_id requested_ip : Option Ipv4)

/-- The fixed part of a message. -/
def dhcp_front : Bytes :=
  [1, 1, 6, 0] ++ u32Bytes xid ++ [0, 0] ++ u16Bytes 0x8000 ++ List.replicate 16 0 ++ client_mac.bytes ++
    List.replicate 202 0 ++ DHCP_MAGIC

theorem dhcp_message_eq :
    dhcp_message xid client_mac msg_type server_id requested_ip =
      dhcp_front xid client_mac ++ dhcp_opt OPT_MSG_TYPE [msg_type] ++ dhcp_ip_opt OPT_REQUESTED_IP requested_ip ++
        dhcp_ip_opt OPT_SERVER_ID server_id ++ [OPT_END] := by
  cases requested_ip <;> cases server_id <;> rfl

theorem write_dhcp_front :
    write_all? (List.replicate 576 (0 : UInt8))
      [(0, [1]), (1, [1]), (2, [6]), (4, u32Bytes xid), (10, u16Bytes 0x8000), (28, client_mac.bytes),
       (236, DHCP_MAGIC)] = some (dhcp_front xid client_mac ++ List.replicate 336 0) := by
  have hmac : client_mac.bytes.length = 6 := rfl
  have hxid : (u32Bytes xid).length = 4 := rfl
  have hflags : (u16Bytes 0x8000).length = 2 := rfl
  have hmagic : DHCP_MAGIC.length = 4 := rfl
  have hlaid := write_all?_laid [] (List.replicate 576 (0 : UInt8))
    [(0, [1]), (1, [1]), (2, [6]), (4, u32Bytes xid), (10, u16Bytes 0x8000), (28, client_mac.bytes),
     (236, DHCP_MAGIC)] (by simp [Ascending, hmac, hxid, hflags]) (by
      simp only [parts_end, hmagic, List.length_replicate, List.length_nil]
      omega)
  rw [List.nil_append, List.nil_append, List.length_nil] at hlaid
  rw [hlaid]
  simp only [laid, List.take_replicate, List.drop_replicate, List.length_singleton, hmac, hxid, hflags, hmagic,
    Nat.reduceAdd, Nat.reduceSub, dhcp_front, List.append_assoc, Nat.sub_zero]
  rfl

/-- **The message stands in its buffer**, and there was room for it. -/
theorem dhcp_message?_eq :
    ∃ r, dhcp_message? xid client_mac msg_type server_id requested_ip =
      some (some (dhcp_message xid client_mac msg_type server_id requested_ip ++ r,
        (dhcp_message xid client_mac msg_type server_id requested_ip).length)) := by
  have hfront : (dhcp_front xid client_mac).length = 240 := rfl
  have htype := dhcp_push_opt?_eq (dhcp_front xid client_mac) (List.replicate 336 0) OPT_MSG_TYPE [msg_type] (by
    rw [List.length_replicate, List.length_singleton]
    decide)
  rw [hfront] at htype
  generalize hr : List.drop (2 + [msg_type].length) (List.replicate 336 (0 : UInt8)) = r at htype
  have hroom : r.length = 333 := by rw [← hr, List.length_drop, List.length_replicate, List.length_singleton]
  obtain ⟨r₁, hr₁, hip⟩ := dhcp_push_ip?_eq (dhcp_front xid client_mac ++ dhcp_opt OPT_MSG_TYPE [msg_type]) r
    OPT_REQUESTED_IP requested_ip (by omega)
  obtain ⟨r₂, hr₂, hsid⟩ := dhcp_push_ip?_eq (dhcp_front xid client_mac ++ dhcp_opt OPT_MSG_TYPE [msg_type] ++
    dhcp_ip_opt OPT_REQUESTED_IP requested_ip) r₁ OPT_SERVER_ID server_id (by omega)
  generalize hw : dhcp_front xid client_mac ++ dhcp_opt OPT_MSG_TYPE [msg_type] ++
    dhcp_ip_opt OPT_REQUESTED_IP requested_ip ++ dhcp_ip_opt OPT_SERVER_ID server_id = w at hsid
  have hmessage : dhcp_message xid client_mac msg_type server_id requested_ip = w ++ [OPT_END] := by
    rw [dhcp_message_eq, hw]
  have hfits : ¬(w ++ r₂).length ≤ w.length := by
    rw [List.length_append]
    omega
  have hend := write?_part w (r₂.drop 1) (show [OPT_END].length = (r₂.take 1).length by
    rw [List.length_take, List.length_singleton]
    omega)
  rw [List.take_append_drop] at hend
  refine ⟨r₂.drop 1, ?_⟩
  rw [hmessage, List.length_append, List.length_singleton, List.append_assoc, dhcp_message?, write_dhcp_front,
    Option.bind_eq_bind, Option.bind_some, htype, Option.bind_eq_bind, Option.bind_some]
  dsimp only
  rw [Bool.not_true, if_neg Bool.false_ne_true, hip, Option.bind_some]
  dsimp only
  rw [Bool.not_true, if_neg Bool.false_ne_true, hsid, Option.bind_some]
  dsimp only
  rw [Bool.not_true, if_neg Bool.false_ne_true, if_neg hfits, hend]
  rfl

theorem length_dhcp_message_le : (dhcp_message xid client_mac msg_type server_id requested_ip).length ≤ 256 := by
  have hfront : (dhcp_front xid client_mac).length = 240 := rfl
  have hip : ∀ tag ip, (dhcp_ip_opt tag ip).length ≤ 6 := by
    intro tag ip
    cases ip <;> simp [dhcp_ip_opt, dhcp_opt, Ipv4.bytes]
  have hreq := hip OPT_REQUESTED_IP requested_ip
  have hsid := hip OPT_SERVER_ID server_id
  rw [dhcp_message_eq]
  simp only [List.length_append, dhcp_opt, List.length_cons, List.length_nil]
  omega

/-- **The DHCP builder.** -/
theorem build_dhcp_packet?_eq (our_mac : Mac) (ip_src : NetIpv4Addrs) (out : Bytes) :
    build_dhcp_packet? our_mac ip_src xid client_mac msg_type server_id requested_ip out =
      build_udp? .broadcast our_mac ip_src.our .broadcast DHCP_CLIENT_PORT DHCP_SERVER_PORT
        (dhcp_message xid client_mac msg_type server_id requested_ip) 0 out := by
  obtain ⟨r, hmessage⟩ := dhcp_message?_eq xid client_mac msg_type server_id requested_ip
  generalize dhcp_message xid client_mac msg_type server_id requested_ip = message at hmessage ⊢
  have hpart := slice?_part [] message r
  rw [List.nil_append, List.length_nil, Nat.zero_add] at hpart
  rw [build_dhcp_packet?, hmessage, Option.bind_eq_bind, Option.bind_some]
  dsimp only
  rw [hpart, Option.bind_eq_bind, Option.bind_some]

end Dhcp

/-! ### DNS -/

section Dns

/-- A label behind what has been written. -/
theorem write_label (w r label : Bytes) (hroom : 1 + label.length ≤ r.length) :
    write_all? (w ++ r) [(w.length, [UInt8.ofNat label.length]), (w.length + 1, label)] =
      some ((w ++ UInt8.ofNat label.length :: label) ++ r.drop (1 + label.length)) := by
  have hlaid := write_all?_laid w r [(w.length, [UInt8.ofNat label.length]), (w.length + 1, label)] (by simp [Ascending]) (by
      simp only [parts_end]
      omega)
  rw [hlaid]
  simp [laid, Nat.add_comm 1]

/-- The label that ends at `i`. -/
theorem slice?_label (hostname : Bytes) {start i : Nat} (hstart : start ≤ i) (hi : i ≤ hostname.length) :
    slice? hostname start i = some (slice hostname start i) ∧ (slice hostname start i).length = i - start := by
  refine ⟨slice?_eq hstart hi, ?_⟩
  rw [slice, List.length_take, List.length_drop]
  omega

/-- **The encoder in its buffer** writes what the encoder writes. -/
theorem encode_qname_into_eq (hostname rest w r : Bytes) (i start : Nat)
    (hi : i + rest.length = hostname.length) (hstart : start ≤ i) :
    (encode_qname_from hostname (w ++ r).length rest i start w = none ∧
      encode_qname_into hostname rest i start (w ++ r) w.length = some none) ∨
    ∃ name r', encode_qname_from hostname (w ++ r).length rest i start w = some name ∧
      (name ++ r').length = (w ++ r).length ∧
      encode_qname_into hostname rest i start (w ++ r) w.length = some (some (name ++ r', name.length)) := by
  induction rest generalizing w r i start with
  | nil =>
    rw [encode_qname_from, encode_qname_into]
    by_cases hbad : hostname.length - start = 0 ∨ 63 < hostname.length - start ∨
        (w ++ r).length < w.length + 1 + (hostname.length - start) + 1
    · rw [if_pos hbad, if_pos hbad]
      exact .inl ⟨rfl, rfl⟩
    · obtain ⟨hlabel, hlen⟩ := slice?_label hostname (show start ≤ hostname.length by
        rw [List.length_nil] at hi
        omega) (Nat.le_refl _)
      have hroom : 1 + (slice hostname start hostname.length).length < r.length := by
        rw [List.length_append] at hbad
        omega
      rw [if_neg hbad, if_neg hbad, hlabel, Option.bind_eq_bind, Option.bind_some, ← hlen, write_label w r _ (by omega)]
      generalize slice hostname start hostname.length = label at hroom
      -- the root behind the last label
      have hroot := write?_part (w ++ UInt8.ofNat label.length :: label) ((r.drop (1 + label.length)).drop 1)
        (show ([0] : Bytes).length = ((r.drop (1 + label.length)).take 1).length by
          rw [List.length_take, List.length_drop, List.length_singleton]
          omega)
      have hat : (w ++ UInt8.ofNat label.length :: label).length = w.length + 1 + label.length := by
        rw [List.length_append, List.length_cons]
        omega
      rw [List.take_append_drop, hat] at hroot
      refine .inr ⟨_, (r.drop (1 + label.length)).drop 1, rfl, ?_, ?_⟩
      · simp only [List.length_append, List.length_cons, List.length_drop, List.length_nil]
        omega
      · rw [Option.bind_some, hroot, Option.bind_some, List.length_append, hat]
        simp only [List.append_assoc]
        rfl
  | cons c rest ih =>
    rw [List.length_cons] at hi
    rw [encode_qname_from, encode_qname_into]
    by_cases hdot : c = 46
    · rw [if_pos hdot, if_pos hdot]
      by_cases hbad : i - start = 0 ∨ 63 < i - start ∨ (w ++ r).length < w.length + 1 + (i - start)
      · rw [if_pos hbad, if_pos hbad]
        exact .inl ⟨rfl, rfl⟩
      · obtain ⟨hlabel, hlen⟩ := slice?_label hostname hstart (by omega)
        have hroom : 1 + (slice hostname start i).length ≤ r.length := by
          rw [List.length_append] at hbad
          omega
        rw [if_neg hbad, if_neg hbad, hlabel, Option.bind_eq_bind, Option.bind_some, ← hlen, write_label w r _ hroom]
        generalize slice hostname start i = label at hroom
        have hnext := ih (w ++ UInt8.ofNat label.length :: label) (r.drop (1 + label.length)) (i + 1) (i + 1)
          (by omega) (Nat.le_refl _)
        have hsize : ((w ++ UInt8.ofNat label.length :: label) ++ r.drop (1 + label.length)).length =
            (w ++ r).length := by
          simp only [List.length_append, List.length_cons, List.length_drop]
          omega
        have hat : (w ++ UInt8.ofNat label.length :: label).length = w.length + 1 + label.length := by
          rw [List.length_append, List.length_cons]
          omega
        rw [hsize, hat] at hnext
        exact hnext
    · rw [if_neg hdot, if_neg hdot]
      exact ih w r (i + 1) start (by omega) (by omega)

/-- What the name takes. -/
theorem length_encode_dns_qname {hostname name : Bytes} {out_len : Nat}
    (h : encode_dns_qname_loop hostname out_len = some name) : name.length ≤ 202 := by
  obtain ⟨h200, -, -, rfl⟩ := encode_loop_some.mp h
  rw [List.length_append, length_labels_wire (List.splitOn_ne_nil 46 hostname), List.intercalate_splitOn,
    List.length_singleton]
  omega

theorem encode_dns_qname?_eq (hostname out : Bytes) :
    (encode_dns_qname_loop hostname out.length = none ∧ encode_dns_qname? hostname out = some none) ∨
    ∃ name r, encode_dns_qname_loop hostname out.length = some name ∧ (name ++ r).length = out.length ∧
      encode_dns_qname? hostname out = some (some (name ++ r, name.length)) := by
  unfold encode_dns_qname_loop encode_dns_qname?
  by_cases hbad : hostname = [] ∨ 200 < hostname.length
  · rw [if_pos hbad, if_pos hbad]
    exact .inl ⟨rfl, rfl⟩
  · rw [if_neg hbad, if_neg hbad]
    exact encode_qname_into_eq hostname hostname [] out 0 0 (Nat.zero_add _) (Nat.le_refl _)

/-- **The query stands in its buffer**, and there was room for it. -/
theorem dns_query?_eq (hostname : Bytes) (tx_id : UInt16) :
    (dns_query hostname tx_id = none ∧ dns_query? hostname tx_id = some none) ∨
    ∃ query r, dns_query hostname tx_id = some query ∧ query.length ≤ 512 ∧
      dns_query? hostname tx_id = some (some (query ++ r, query.length)) := by
  have htx : (u16Bytes tx_id).length = 2 := rfl
  have hflags : (u16Bytes 0x0100).length = 2 := rfl
  have hone : (u16Bytes 1).length = 2 := rfl
  have hlaid := write_all?_laid [] (List.replicate 512 (0 : UInt8))
    [(0, u16Bytes tx_id), (2, u16Bytes 0x0100), (4, u16Bytes 1), (6, List.replicate 6 0)] (by
      simp [Ascending, htx, hflags, hone]) (by
      simp only [parts_end, List.length_replicate, List.length_nil]
      omega)
  generalize hfront : u16Bytes tx_id ++ u16Bytes 0x0100 ++ u16Bytes 1 ++ List.replicate 6 0 = front
  have hlen : front.length = 12 := by rw [← hfront]; rfl
  have hbytes : laid 0 [(0, u16Bytes tx_id), (2, u16Bytes 0x0100), (4, u16Bytes 1), (6, List.replicate 6 0)]
      (List.replicate 512 (0 : UInt8)) = front ++ List.replicate 500 0 := by
    rw [← hfront]
    simp only [laid, List.take_replicate, List.drop_replicate, List.length_replicate, htx, hflags, hone, Nat.reduceAdd,
      Nat.reduceSub, List.append_assoc, Nat.sub_zero]
    rfl
  rw [List.nil_append, List.nil_append, List.length_nil, hbytes] at hlaid
  generalize hzeros : List.replicate 500 (0 : UInt8) = zeros at hlaid
  have hroom : zeros.length = 500 := by rw [← hzeros, List.length_replicate]
  have hbehind := slice?_part front zeros []
  rw [List.append_nil, hlen, hroom] at hbehind
  have hdns : (front ++ zeros).length = 12 + 500 := by rw [List.length_append, hlen, hroom]
  unfold dns_query dns_query?
  rw [hlaid, Option.bind_eq_bind, Option.bind_some, hdns, hbehind, Option.bind_eq_bind, Option.bind_some]
  rcases encode_dns_qname?_eq hostname zeros with ⟨hnone, hname⟩ | ⟨name, r, hsome, hall, hname⟩
  · rw [hroom] at hnone
    rw [hname]
    exact .inl ⟨by rw [hnone]; rfl, rfl⟩
  · rw [hroom] at hsome
    have h202 := length_encode_dns_qname hsome
    have hr : 298 ≤ r.length := by
      rw [List.length_append] at hall
      omega
    have hwrite := write?_part front [] hall
    rw [List.append_nil, List.append_nil, hlen] at hwrite
    have hat : (front ++ name).length = 12 + name.length := by rw [List.length_append, hlen]
    have htail := write_all?_laid (front ++ name) r
      [(12 + name.length, u16Bytes 1), (12 + name.length + 2, u16Bytes 1)] (by
        simp [Ascending, hat, hone]) (by
        simp only [parts_end, hat, hone]
        omega)
    have hquery : laid (front ++ name).length [(12 + name.length, u16Bytes 1), (12 + name.length + 2, u16Bytes 1)] r =
        u16Bytes 1 ++ (u16Bytes 1 ++ r.drop 4) := by
      rw [hat]
      simp [laid, hone]
    rw [hquery, List.append_assoc] at htail
    refine .inr ⟨front ++ name ++ u16Bytes 1 ++ u16Bytes 1, r.drop 4, ?_, ?_, ?_⟩
    · rw [hsome, ← hfront]
      rfl
    · simp only [List.length_append, hlen, hone]
      omega
    · have hdp : (front ++ name ++ u16Bytes 1 ++ u16Bytes 1).length = 12 + name.length + 4 := by
        simp only [List.length_append, hlen, hone]
      rw [hname, Option.bind_some]
      dsimp only
      rw [hwrite, Option.bind_some, htail, Option.bind_some, hdp]
      simp only [List.append_assoc]
      rfl

/-- **The DNS builder.** -/
theorem build_dns_udp_packet?_eq (our_mac gw_mac : Mac) (addrs : NetIpv4Addrs) (sport dport : UInt16)
    (hostname : Bytes) (tx_id ip_ident : UInt16) (out : Bytes) :
    (dns_query hostname tx_id = none ∧
      build_dns_udp_packet? our_mac gw_mac addrs sport dport hostname tx_id ip_ident out = some (out, 0)) ∨
    ∃ query, dns_query hostname tx_id = some query ∧ query.length ≤ 512 ∧
      build_dns_udp_packet? our_mac gw_mac addrs sport dport hostname tx_id ip_ident out =
        build_udp? gw_mac our_mac addrs.our addrs.dns sport dport query ip_ident out := by
  rcases dns_query?_eq hostname tx_id with ⟨hnone, hquery⟩ | ⟨query, r, hsome, hlen, hquery⟩
  · refine .inl ⟨hnone, ?_⟩
    rw [build_dns_udp_packet?, hquery]
    rfl
  · have hpart := slice?_part [] query r
    rw [List.nil_append, List.length_nil, Nat.zero_add] at hpart
    refine .inr ⟨query, hsome, hlen, ?_⟩
    rw [build_dns_udp_packet?, hquery, Option.bind_eq_bind, Option.bind_some]
    dsimp only
    rw [hpart, Option.bind_eq_bind, Option.bind_some]

end Dns

end EveOS.Net
