/-
DNS messages as a server writes them, and what `parse_dns_a` finds in them.

A message is given by its parts: names of any labels, ended by the root or by a pointer, and
records of any type, class and data. The parser keeps an offset and moves it over one part after
the other, so every lemma below says where it stands behind a part.
-/
import EveOS.Net.DnsName

set_option autoImplicit false

namespace EveOS.Net

/-! ## Messages -/

structure DnsName where
  labels : List Bytes
  fine : ∀ l ∈ labels, IsLabel l
  tail : NameEnd

def DnsName.wire (n : DnsName) : Bytes := labels_wire n.labels ++ n.tail.wire

structure DnsQuestion where
  name : DnsName
  typ : UInt16
  cls : UInt16

def DnsQuestion.wire (q : DnsQuestion) : Bytes := q.name.wire ++ (u16Bytes q.typ ++ u16Bytes q.cls)

structure DnsRecord where
  name : DnsName
  typ : UInt16
  cls : UInt16
  ttl : UInt32
  rdata : Bytes
  fits : rdata.length < 2 ^ 16

/-- Type, class and TTL. -/
def DnsRecord.head (r : DnsRecord) : Bytes := u16Bytes r.typ ++ (u16Bytes r.cls ++ u32Bytes r.ttl)

def DnsRecord.wire (r : DnsRecord) : Bytes :=
  r.name.wire ++ (r.head ++ (u16Bytes (UInt16.ofNat r.rdata.length) ++ r.rdata))

/-- A record with an IPv4 address. -/
def DnsRecord.isA (r : DnsRecord) : Bool := r.typ = 1 ∧ r.rdata.length = 4

/-- `rest` is what follows the answers: the other two sections, of which the header only has the
counts `ns` and `ar`. -/
structure DnsMessage where
  id : UInt16
  flags : UInt16
  questions : List DnsQuestion
  answers : List DnsRecord
  ns : UInt16
  ar : UInt16
  rest : Bytes
  questions_fit : questions.length < 2 ^ 16
  answers_fit : answers.length < 2 ^ 16

namespace DnsMessage

variable (m : DnsMessage)

def header : Bytes :=
  u16Bytes m.id ++ u16Bytes m.flags ++ u16Bytes (UInt16.ofNat m.questions.length) ++
    u16Bytes (UInt16.ofNat m.answers.length) ++ u16Bytes m.ns ++ u16Bytes m.ar

def wire : Bytes :=
  m.header ++ ((m.questions.map DnsQuestion.wire).flatten ++ ((m.answers.map DnsRecord.wire).flatten ++ m.rest))

/-- The first address among the answers. -/
def first_a : Option Ipv4 := (m.answers.find? DnsRecord.isA).map fun r => .ofSlice r.rdata 0

end DnsMessage

/-! ## Reading at an offset -/

section Offset

variable (pre post : Bytes)

theorem byteAt_append_left {buf : Bytes} {i : Nat} (h : i < buf.length) (post : Bytes) :
    byteAt (buf ++ post) i = byteAt buf i := by
  unfold byteAt
  rw [List.getD_eq_getElem?_getD, List.getD_eq_getElem?_getD, List.getElem?_append_left h]

theorem u16At_append_add (buf : Bytes) (i : Nat) : u16At (pre ++ buf) (pre.length + i) = u16At buf i := by
  unfold u16At
  rw [Nat.add_assoc, byteAt_append_add, byteAt_append_add]

/-- A word that stands at an offset. -/
theorem u16At_u16Bytes (w : UInt16) : u16At (pre ++ (u16Bytes w ++ post)) pre.length = w := by
  have hat := u16At_append_add pre (u16Bytes w ++ post) 0
  rw [Nat.add_zero] at hat
  rw [hat]
  exact be16_u16Bytes w

/-- An address that stands at an offset. -/
theorem ofSlice_append {addr : Bytes} (h : addr.length = 4) :
    Ipv4.ofSlice (pre ++ (addr ++ post)) pre.length = .ofSlice addr 0 := by
  have hat : ∀ k, k < 4 → byteAt (pre ++ (addr ++ post)) (pre.length + k) = byteAt addr k := by
    intro k hk
    rw [byteAt_append_add, byteAt_append_left (by omega)]
  have h0 := hat 0 (by decide)
  rw [Nat.add_zero] at h0
  unfold Ipv4.ofSlice
  rw [h0, hat 1 (by decide), hat 2 (by decide), hat 3 (by decide)]

theorem skip_dns_name_wire (n : DnsName) :
    skip_dns_name (pre ++ (n.wire ++ post)) pre.length = some (pre.length + n.wire.length) := by
  rw [DnsName.wire, List.append_assoc]
  exact skip_name n.fine n.tail pre post

end Offset

/-! ## The sections -/

theorem length_question (q : DnsQuestion) : q.wire.length = q.name.wire.length + 4 := by
  simp [DnsQuestion.wire, u16Bytes]

theorem length_record (r : DnsRecord) : r.wire.length = r.name.wire.length + 10 + r.rdata.length := by
  simp [DnsRecord.wire, DnsRecord.head, u16Bytes, u32Bytes]
  omega

/-- **The question loop** stands behind the questions. -/
theorem skip_questions_wire (qs : List DnsQuestion) (pre post : Bytes) :
    skip_dns_questions (pre ++ ((qs.map DnsQuestion.wire).flatten ++ post)) qs.length pre.length =
      some (pre.length + (qs.map DnsQuestion.wire).flatten.length) := by
  induction qs generalizing pre with
  | nil => rfl
  | cons q qs ih =>
    have hnext := ih (pre ++ q.wire)
    have hskip := skip_dns_name_wire pre
      ((u16Bytes q.typ ++ u16Bytes q.cls) ++ ((qs.map DnsQuestion.wire).flatten ++ post)) q.name
    rw [← List.append_assoc q.name.wire] at hskip
    change skip_dns_name (pre ++ (q.wire ++ _)) pre.length = _ at hskip
    have hlen := length_question q
    rw [List.map_cons, List.flatten_cons, List.append_assoc, List.length_cons, skip_dns_questions, hskip]
    dsimp only
    rw [if_neg (by simp only [List.length_append]; omega), Nat.add_assoc, ← hlen, ← List.length_append,
      ← List.append_assoc pre, hnext]
    simp only [List.length_append]
    congr 1
    omega

/-- **The answer loop** finds the first address. -/
theorem find_dns_a_wire (rs : List DnsRecord) (pre post : Bytes) :
    find_dns_a (pre ++ ((rs.map DnsRecord.wire).flatten ++ post)) rs.length pre.length =
      (rs.find? DnsRecord.isA).map fun r => .ofSlice r.rdata 0 := by
  induction rs generalizing pre with
  | nil => rfl
  | cons r rs ih =>
    have hnext := ih (pre ++ r.wire)
    obtain ⟨tail, htail⟩ : ∃ tail, tail = (rs.map DnsRecord.wire).flatten ++ post := ⟨_, rfl⟩
    have hlen := length_record r
    have hfits := r.fits
    have hrdlen : (UInt16.ofNat r.rdata.length).toNat = r.rdata.length := UInt16.toNat_ofNat_of_lt' hfits
    -- where the parts of the record stand
    have hskip : skip_dns_name (pre ++ (r.wire ++ tail)) pre.length = some (pre.length + r.name.wire.length) := by
      have h := skip_dns_name_wire pre (r.head ++ (u16Bytes (UInt16.ofNat r.rdata.length) ++ r.rdata) ++ tail) r.name
      rw [← List.append_assoc r.name.wire] at h
      exact h
    have htyp : u16At (pre ++ (r.wire ++ tail)) (pre.length + r.name.wire.length) = r.typ := by
      have h := u16At_u16Bytes (pre ++ r.name.wire)
        ((u16Bytes r.cls ++ u32Bytes r.ttl) ++ (u16Bytes (UInt16.ofNat r.rdata.length) ++ r.rdata) ++ tail) r.typ
      rw [List.length_append] at h
      simpa [DnsRecord.wire, DnsRecord.head] using h
    have hsize : u16At (pre ++ (r.wire ++ tail)) (pre.length + r.name.wire.length + 8) =
        UInt16.ofNat r.rdata.length := by
      have h := u16At_u16Bytes (pre ++ r.name.wire ++ r.head) (r.rdata ++ tail) (UInt16.ofNat r.rdata.length)
      have hhead : r.head.length = 8 := rfl
      rw [List.length_append, List.length_append, hhead] at h
      simpa [DnsRecord.wire] using h
    have hdata : r.rdata.length = 4 →
        Ipv4.ofSlice (pre ++ (r.wire ++ tail)) (pre.length + r.name.wire.length + 10) = .ofSlice r.rdata 0 := by
      intro h4
      have h := ofSlice_append (pre ++ r.name.wire ++ r.head ++ u16Bytes (UInt16.ofNat r.rdata.length)) tail h4
      have hhead : (r.head ++ u16Bytes (UInt16.ofNat r.rdata.length)).length = 10 := rfl
      rw [List.append_assoc _ r.head, List.length_append, List.length_append, hhead] at h
      simpa [DnsRecord.wire] using h
    rw [List.map_cons, List.flatten_cons, List.append_assoc, ← htail, List.length_cons, find_dns_a, hskip]
    dsimp only
    rw [if_neg (by simp only [List.length_append]; omega), htyp, hsize, hrdlen,
      if_neg (by simp only [List.length_append]; omega), List.find?_cons]
    by_cases hA : r.typ = 1 ∧ r.rdata.length = 4
    · have hisA : r.isA = true := decide_eq_true hA
      rw [if_pos hA, hdata hA.2, hisA]
      rfl
    · have hisA : r.isA = false := decide_eq_false hA
      have hpos : pre.length + r.name.wire.length + 10 + r.rdata.length = (pre ++ r.wire).length := by
        rw [List.length_append]
        omega
      rw [if_neg hA, hisA, hpos, htail, ← List.append_assoc pre, hnext]

/-- **Parsing is complete.** In a message with the expected identifier the parser finds the
first address among the answers, if there is one. -/
theorem parse_dns_a_wire (m : DnsMessage) : parse_dns_a m.wire m.id = m.first_a := by
  have hheader : m.header.length = 12 := rfl
  have hcount : (UInt16.ofNat m.questions.length).toNat = m.questions.length :=
    UInt16.toNat_ofNat_of_lt' m.questions_fit
  have hcount' : (UInt16.ofNat m.answers.length).toNat = m.answers.length :=
    UInt16.toNat_ofNat_of_lt' m.answers_fit
  have hid : u16At m.wire 0 = m.id := be16_u16Bytes _
  have hqd : u16At m.wire 4 = UInt16.ofNat m.questions.length := be16_u16Bytes _
  have han : u16At m.wire 6 = UInt16.ofNat m.answers.length := be16_u16Bytes _
  have hquestions := skip_questions_wire m.questions m.header ((m.answers.map DnsRecord.wire).flatten ++ m.rest)
  have hanswers := find_dns_a_wire m.answers (m.header ++ (m.questions.map DnsQuestion.wire).flatten) m.rest
  rw [hheader] at hquestions
  rw [List.append_assoc, List.length_append, hheader] at hanswers
  have hlen : 12 ≤ m.wire.length := by
    rw [DnsMessage.wire, List.length_append, hheader]
    omega
  change skip_dns_questions m.wire _ 12 = _ at hquestions
  change find_dns_a m.wire _ _ = _ at hanswers
  rw [parse_dns_a, if_neg (by omega), hid, if_neg (by simp), hqd, hcount, han, hcount', hquestions]
  exact hanswers

end EveOS.Net
