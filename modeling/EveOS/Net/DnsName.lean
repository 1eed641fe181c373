/-
Names in DNS messages: `skip_dns_name`, and the encoder of the name in a query.

The encoder walks over the hostname once and writes a label at every dot. `encode_dns_qname`
(`Wire`) gives its result in closed form; `encode_dns_qname_loop` is the loop of the source with
its checks, and `encode_loop_eq` says that the two agree.
-/
import EveOS.Lib.Labels
import EveOS.Net.Rx

set_option autoImplicit false

namespace EveOS.Net

/-! ## Skipping a name -/

section Skip

variable {labels : List Bytes}

/-- The name loop over labels. -/
theorem skip_labels (h : ∀ l ∈ labels, IsLabel l) (pre tail : Bytes) (fuel : Nat) :
    skip_dns_name_from (pre ++ (labels_wire labels ++ tail)) (labels.length + fuel) pre.length =
      skip_dns_name_from (pre ++ (labels_wire labels ++ tail)) fuel
        (pre.length + (labels_wire labels).length) := by
  induction labels generalizing pre with
  | nil => simp [labels_wire]
  | cons l labels ih =>
    obtain ⟨hlen, hne, hptr⟩ := (h l List.mem_cons_self).byte
    have hrest := ih (fun l' hl' => h l' (List.mem_cons_of_mem _ hl')) (pre ++ UInt8.ofNat l.length :: l)
    have hbuf : pre ++ (labels_wire (l :: labels) ++ tail) =
        (pre ++ UInt8.ofNat l.length :: l) ++ (labels_wire labels ++ tail) := by
      rw [labels_wire_cons]
      simp
    have hbyte : byteAt (pre ++ (labels_wire (l :: labels) ++ tail)) pre.length = UInt8.ofNat l.length := by
      have hat := byteAt_append_add pre (labels_wire (l :: labels) ++ tail) 0
      rw [Nat.add_zero] at hat
      rw [hat, labels_wire_cons]
      rfl
    have hpos : (pre ++ UInt8.ofNat l.length :: l).length = pre.length + 1 + l.length := by
      rw [List.length_append, List.length_cons]
      omega
    have hroom : pre.length + 1 + l.length ≤ (pre ++ (labels_wire (l :: labels) ++ tail)).length := by
      rw [hbuf, List.length_append, hpos]
      omega
    rw [List.length_cons, Nat.add_right_comm, skip_dns_name_from, if_neg (by omega)]
    simp only [hbyte]
    rw [if_neg hne, if_neg hptr, hlen, if_neg (by omega), hbuf, ← hpos, hrest, hpos, labels_wire_cons,
      List.length_cons, List.length_append]
    congr 1
    omega

/-- A list of labels has at least as many bytes as labels. -/
theorem length_le_labels_wire (labels : List Bytes) : labels.length ≤ (labels_wire labels).length := by
  induction labels with
  | nil => exact Nat.le_refl 0
  | cons l labels ih =>
    rw [labels_wire_cons, List.length_cons, List.length_cons, List.length_append]
    omega

/-- How a name ends: with the root, or with a pointer into the message. -/
inductive NameEnd
  | root
  | pointer (hi lo : UInt8) (hp : hi &&& 0xC0 = 0xC0)

def NameEnd.wire : NameEnd → Bytes
  | .root => [0]
  | .pointer hi lo _ => [hi, lo]

/-- **A name is skipped**, wherever it stands. -/
theorem skip_name (h : ∀ l ∈ labels, IsLabel l) (e : NameEnd) (pre post : Bytes) :
    skip_dns_name (pre ++ (labels_wire labels ++ (e.wire ++ post))) pre.length =
      some (pre.length + (labels_wire labels ++ e.wire).length) := by
  have hcount := length_le_labels_wire labels
  obtain ⟨fuel, hfuel⟩ : ∃ fuel,
      (pre ++ (labels_wire labels ++ (e.wire ++ post))).length + 1 = labels.length + (fuel + 1) := by
    refine ⟨(pre ++ (labels_wire labels ++ (e.wire ++ post))).length - labels.length, ?_⟩
    rw [List.length_append, List.length_append]
    omega
  have hat := byteAt_append_add (pre ++ labels_wire labels) (e.wire ++ post) 0
  rw [Nat.add_zero, List.append_assoc, List.length_append] at hat
  have hin : ¬(pre ++ (labels_wire labels ++ (e.wire ++ post))).length ≤
      pre.length + (labels_wire labels).length := by
    cases e <;> simp [NameEnd.wire]
  have hend : pre.length + (labels_wire labels ++ e.wire).length =
      pre.length + (labels_wire labels).length + e.wire.length := by
    rw [List.length_append, Nat.add_assoc]
  rw [skip_dns_name, hfuel, skip_labels h, skip_dns_name_from, if_neg hin, hat, hend]
  cases e with
  | root => rfl
  | pointer hi lo hp =>
    have hne : hi ≠ 0 := by
      rintro rfl
      cases hp
    change (if hi = 0 then _ else if hi &&& 0xC0 = 0xC0 then _ else _) = _
    rw [if_neg hne, if_pos hp]
    rfl

end Skip

/-! ## Encoding a hostname -/

/-- The loop of `encode_dns_qname` over `hostname[i..]` and what follows it. A label began at
`start`, and `w` has been written. -/
def encode_qname_from (hostname : Bytes) (out_len : Nat) : Bytes → Nat → Nat → Bytes → Option Bytes
  | [], _, start, w =>
    let lab := hostname.length - start
    if lab = 0 ∨ 63 < lab ∨ out_len < w.length + 1 + lab + 1 then none
    else some (w ++ UInt8.ofNat lab :: slice hostname start hostname.length ++ [0])
  | c :: rest, i, start, w =>
    if c = 46 then
      let lab := i - start
      if lab = 0 ∨ 63 < lab ∨ out_len < w.length + 1 + lab then none
      else encode_qname_from hostname out_len rest (i + 1) (i + 1)
        (w ++ UInt8.ofNat lab :: slice hostname start i)
    else encode_qname_from hostname out_len rest (i + 1) start w

/-- `encode_dns_qname` as the source has it. -/
def encode_dns_qname_loop (hostname : Bytes) (out_len : Nat) : Option Bytes :=
  if hostname = [] ∨ 200 < hostname.length then none
  else encode_qname_from hostname out_len hostname 0 0 []

theorem encode_labels_cons (lab : Bytes) (rest : List Bytes) :
    encode_labels (lab :: rest) =
      if IsLabel lab then (encode_labels rest).map (fun tl => UInt8.ofNat lab.length :: lab ++ tl) else none := by
  rw [encode_labels]
  by_cases h : IsLabel lab
  · obtain ⟨h1, h63⟩ := h
    rw [if_neg (by omega), if_pos ⟨h1, h63⟩]
  · rw [if_neg h, if_pos]
    unfold IsLabel at h
    omega

theorem encode_labels_eq (labels : List Bytes) :
    encode_labels labels = if ∀ l ∈ labels, IsLabel l then some (labels_wire labels) else none := by
  induction labels with
  | nil => simp [encode_labels, labels_wire]
  | cons l labels ih =>
    rw [encode_labels_cons, ih]
    simp only [List.forall_mem_cons]
    by_cases hl : IsLabel l <;> by_cases hrest : ∀ l' ∈ labels, IsLabel l' <;>
      simp [hl, hrest, labels_wire_cons]

/-- **The loop in closed form.** `cur` is the label that is being read. -/
theorem encode_from_eq (hostname : Bytes) (out_len : Nat) (rest front cur w : Bytes)
    (hsplit : hostname = front ++ (cur ++ rest)) (hdot : 46 ∉ cur) :
    encode_qname_from hostname out_len rest (front.length + cur.length) front.length w =
      if w.length + cur.length + rest.length + 2 ≤ out_len then
        (encode_labels ((cur ++ rest).splitOn 46)).map fun tl => w ++ tl ++ [0]
      else none := by
  induction rest generalizing front cur w with
  | nil =>
    have hlen : hostname.length = front.length + cur.length := by
      rw [hsplit, List.append_nil, List.length_append]
    have hcur : slice hostname front.length (front.length + cur.length) = cur := by
      rw [slice, hsplit, List.drop_left, Nat.add_sub_cancel_left, List.take_left]
    rw [encode_qname_from, List.append_nil, List.splitOn_eq_singleton hdot, encode_labels_cons]
    simp only [hlen, hcur, Nat.add_sub_cancel_left, List.length_nil, Nat.add_zero]
    by_cases hl : IsLabel cur
    · obtain ⟨h1, h63⟩ := hl
      by_cases hroom : w.length + cur.length + 2 ≤ out_len
      · rw [if_neg (by omega), if_pos hroom, if_pos ⟨h1, h63⟩]
        simp [encode_labels]
      · rw [if_pos (by omega), if_neg hroom]
    · rw [if_neg hl, if_pos (by unfold IsLabel at hl; omega)]
      simp
  | cons c rest ih =>
    have hcur : slice hostname front.length (front.length + cur.length) = cur := by
      rw [slice, hsplit, List.drop_left, Nat.add_sub_cancel_left, List.take_left]
    by_cases hc : c = 46
    · -- a dot: the label is written, and the next one is empty so far
      subst hc
      have hnext := ih (front ++ (cur ++ [46])) [] (w ++ UInt8.ofNat cur.length :: cur)
        (by simpa using hsplit) List.not_mem_nil
      have hpos : (front ++ (cur ++ [46])).length = front.length + cur.length + 1 := by
        simp only [List.length_append, List.length_singleton]
        omega
      have hlen : (w ++ UInt8.ofNat cur.length :: cur).length = w.length + cur.length + 1 := by
        rw [List.length_append, List.length_cons]
        omega
      rw [hpos, List.length_nil, Nat.add_zero, hlen, List.nil_append] at hnext
      rw [encode_qname_from, if_pos rfl, List.splitOn_append_cons_self_of_not_mem hdot, encode_labels_cons]
      simp only [Nat.add_sub_cancel_left, hcur]
      rw [hnext, List.length_cons]
      by_cases hl : IsLabel cur
      · obtain ⟨h1, h63⟩ := hl
        by_cases hroom : w.length + cur.length + 1 + 0 + rest.length + 2 ≤ out_len
        · rw [if_neg (by omega), if_pos hroom, if_pos (by omega), if_pos ⟨h1, h63⟩, Option.map_map]
          congr 1
          funext tl
          simp
        · rw [if_neg hroom, ite_self, if_neg (by omega)]
      · rw [if_neg hl, if_pos (by unfold IsLabel at hl; omega)]
        simp
    · -- the label goes on
      have hnext := ih front (cur ++ [c]) w (by simpa using hsplit) (by simp [hdot, Ne.symm hc])
      have hlen : (cur ++ [c]).length = cur.length + 1 := by
        rw [List.length_append, List.length_singleton]
      have happend : cur ++ [c] ++ rest = cur ++ c :: rest := by simp
      rw [hlen, happend] at hnext
      rw [encode_qname_from, if_neg hc, Nat.add_assoc, hnext, List.length_cons]
      congr 1
      rw [eq_iff_iff]
      omega

/-- **The loop and the closed form agree.** -/
theorem encode_loop_eq (hostname : Bytes) (out_len : Nat) :
    encode_dns_qname_loop hostname out_len = encode_dns_qname hostname out_len := by
  have hloop := encode_from_eq hostname out_len hostname [] [] [] rfl List.not_mem_nil
  simp only [List.length_nil, Nat.zero_add, List.nil_append] at hloop
  rw [encode_dns_qname_loop, encode_dns_qname, hloop]
  by_cases hbad : hostname = [] ∨ 200 < hostname.length
  · rw [if_pos hbad, if_pos (hbad.imp_right .inl)]
  · rw [if_neg hbad]
    rw [not_or] at hbad
    by_cases hroom : hostname.length + 2 ≤ out_len
    · rw [if_pos hroom, if_neg]
      rw [not_or, not_or]
      exact ⟨hbad.1, hbad.2, by omega⟩
    · rw [if_neg hroom, if_pos (.inr (.inr (by omega)))]

/-! ## Queries -/

/-- The bytes that `build_dns_udp_packet` writes to its DNS buffer. -/
def dns_query (hostname : Bytes) (tx_id : UInt16) : Option Bytes :=
  (encode_dns_qname_loop hostname (512 - 12)).map fun qname =>
    u16Bytes tx_id ++ u16Bytes 0x0100 ++ u16Bytes 1 ++ List.replicate 6 0 ++ qname ++ u16Bytes 1 ++ u16Bytes 1

/-- The query is what the packet carries. -/
theorem build_dns_udp_packet_eq (our_mac gw_mac : Mac) (addrs : NetIpv4Addrs) (sport dport : UInt16)
    (hostname : Bytes) (tx_id ip_ident : UInt16) (out_len : Nat) :
    build_dns_udp_packet our_mac gw_mac addrs sport dport hostname tx_id ip_ident out_len =
      (dns_query hostname tx_id).elim [] fun query =>
        build_udp gw_mac our_mac addrs.our addrs.dns sport dport query ip_ident out_len := by
  unfold build_dns_udp_packet dns_query
  rw [encode_loop_eq]
  cases encode_dns_qname hostname (512 - 12) <;> rfl

/-- What the encoder writes. -/
theorem encode_loop_some {hostname w : Bytes} {out_len : Nat} :
    encode_dns_qname_loop hostname out_len = some w ↔
      hostname.length ≤ 200 ∧ (∀ l ∈ hostname.splitOn 46, IsLabel l) ∧ hostname.length + 2 ≤ out_len ∧
        w = labels_wire (hostname.splitOn 46) ++ [0] := by
  rw [encode_loop_eq, encode_dns_qname, encode_labels_eq]
  by_cases hlabels : ∀ l ∈ hostname.splitOn 46, IsLabel l
  · have hne : hostname ≠ [] := by
      rintro rfl
      have hnil := hlabels [] (by simp)
      exact absurd hnil.1 (by decide)
    rw [if_pos hlabels, Option.map_some]
    split_ifs with hbad
    · have hlong := hbad.resolve_left hne
      constructor
      · intro h
        cases h
      · rintro ⟨h200, -, hroom, -⟩
        omega
    · rw [Option.some.injEq, eq_comm]
      rw [not_or, not_or] at hbad
      constructor
      · intro h
        exact ⟨by omega, hlabels, by omega, h⟩
      · exact fun h => h.2.2.2
  · rw [if_neg hlabels]
    simp [hlabels]

/-- A buffer with a string at an offset is split by it. -/
theorem eq_append_of_slice {buf w : Bytes} {o : Nat} (h : slice buf o (o + w.length) = w) (hw : w ≠ []) :
    buf = buf.take o ++ (w ++ buf.drop (o + w.length)) ∧ (buf.take o).length = o := by
  have hpos := List.length_pos_of_ne_nil hw
  rw [slice, Nat.add_sub_cancel_left] at h
  have hlen := congrArg List.length h
  rw [List.length_take, List.length_drop] at hlen
  constructor
  · have hdrop := List.take_append_drop w.length (buf.drop o)
    rw [h, List.drop_drop] at hdrop
    rw [hdrop, List.take_append_drop]
  · rw [List.length_take]
    omega

/-- **The name in a query.** The encoder succeeds exactly on the hostnames that split at the
dots into labels and fit; what it writes reads back as those labels and is skipped as one name,
and the query fits its buffer. -/
theorem encode_dns_qname_iff (hostname : Bytes) (out_len : Nat) :
    ((∃ w, encode_dns_qname_loop hostname out_len = some w) ↔
      hostname.length ≤ 200 ∧ (∀ l ∈ hostname.splitOn 46, 1 ≤ l.length ∧ l.length ≤ 63) ∧
        hostname.length + 2 ≤ out_len) ∧
    (∀ w, encode_dns_qname_loop hostname out_len = some w →
      w.length = hostname.length + 2 ∧ read_labels w = some (hostname.splitOn 46) ∧
      (∀ buf o, slice buf o (o + w.length) = w → skip_dns_name buf o = some (o + w.length)) ∧
      ∀ tx_id query, dns_query hostname tx_id = some query → query.length ≤ 512) := by
  constructor
  · constructor
    · rintro ⟨w, hw⟩
      obtain ⟨h200, hlabels, hroom, -⟩ := encode_loop_some.mp hw
      exact ⟨h200, hlabels, hroom⟩
    · rintro ⟨h200, hlabels, hroom⟩
      exact ⟨_, encode_loop_some.mpr ⟨h200, hlabels, hroom, rfl⟩⟩
  · intro w hw
    obtain ⟨h200, hlabels, hroom, rfl⟩ := encode_loop_some.mp hw
    have hwire : (labels_wire (hostname.splitOn 46)).length = hostname.length + 1 := by
      rw [length_labels_wire (List.splitOn_ne_nil 46 hostname), List.intercalate_splitOn]
    have hlen : (labels_wire (hostname.splitOn 46) ++ [0]).length = hostname.length + 2 := by
      rw [List.length_append, hwire, List.length_singleton]
    refine ⟨hlen, read_labels_wire hlabels, ?_, ?_⟩
    · intro buf o hbuf
      obtain ⟨hbufs, hpre⟩ := eq_append_of_slice hbuf (by simp)
      have hskip := skip_name hlabels .root (buf.take o)
        (buf.drop (o + (labels_wire (hostname.splitOn 46) ++ [0]).length))
      rw [hpre, ← List.append_assoc (labels_wire _)] at hskip
      change skip_dns_name (buf.take o ++ ((_ ++ [0]) ++ _)) o = _ at hskip
      rw [← hbufs] at hskip
      exact hskip
    · intro tx_id query hquery
      unfold dns_query at hquery
      obtain ⟨qname, hqname, rfl⟩ := Option.map_eq_some_iff.mp hquery
      obtain ⟨-, -, -, rfl⟩ := encode_loop_some.mp hqname
      simp only [List.length_append, List.length_replicate, hwire, u16Bytes, List.length_cons, List.length_nil]
      omega

end EveOS.Net
