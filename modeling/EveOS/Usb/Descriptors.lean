/-
`find_hid_boot_eps` of `kernel/src/usb_common.rs`.

A configuration is a chain of descriptors, each of which begins with its length.
The search goes over the chain, keeps the number of the interface it is in, and
returns the first IN interrupt endpoint of a boot interface. The number is also the
mark: 0xFF is an interface that does not match. So an interface that has this
number never matches; and before there is any interface the number is 0, which is
not the mark.
-/
import EveOS.Lib.FirstPlace
import EveOS.Lib.Returns
import EveOS.Lib.Scan

set_option autoImplicit false

namespace EveOS.Usb

/-- Interface number, endpoint address, and `wMaxPacketSize`. -/
abbrev HidEp := UInt8 × UInt8 × UInt16

/-- `u16::from_le_bytes`. -/
def le16 (lo hi : UInt8) : UInt16 := UInt16.ofNat (lo.toNat + hi.toNat * 256)

/-- A round of the loop; `s` is `(iface, i)`. -/
def find_hid_boot_round (cfg : Bytes) (protocol : UInt8) (s : UInt8 × Nat) :
    Option ((UInt8 × Nat) ⊕ Option HidEp) :=
  let iface := s.1
  let i := s.2
  if i + 2 ≤ cfg.length then do
    let len := (← cfg[i]?).toNat
    if len < 2 ∨ cfg.length < i + len then return .inr none
    else
      let ty ← cfg[i + 1]?
      if ty = 4 then
        if 9 ≤ len then
          let number ← cfg[i + 2]?
          let cls ← cfg[i + 5]?
          let sub ← cfg[i + 6]?
          let proto ← cfg[i + 7]?
          return .inl (if cls ≠ 3 ∨ sub ≠ 1 ∨ proto ≠ protocol then 0xFF else number, i + len)
        else return .inl (iface, i + len)
      else if ty = 5 then
        if 7 ≤ len ∧ iface ≠ 0xFF then
          let addr ← cfg[i + 2]?
          let attr ← cfg[i + 3]?
          let lo ← cfg[i + 4]?
          let hi ← cfg[i + 5]?
          if addr &&& 0x80 ≠ 0 ∧ attr &&& 3 = 3 then return .inr (some (iface, addr, le16 lo hi))
          else return .inl (iface, i + len)
        else return .inl (iface, i + len)
      else return .inl (iface, i + len)
  else return .inr none

/-- A chain of `n` bytes is over after `n` rounds. -/
def find_hid_boot_eps (cfg : Bytes) (protocol : UInt8) : Option (Option HidEp) :=
  loop (find_hid_boot_round cfg protocol) (cfg.length + 1) (0, 0)

/-- A round of the other loop of that file. -/
def has_hub_round (cfg : Bytes) (i : Nat) : Option (Nat ⊕ Bool) :=
  if i + 2 ≤ cfg.length then do
    let len := (← cfg[i]?).toNat
    if len < 2 ∨ cfg.length < i + len then return .inr false
    else
      let ty ← cfg[i + 1]?
      if ty = 4 ∧ 9 ≤ len then
        let cls ← cfg[i + 5]?
        if cls = 9 then return .inr true else return .inl (i + len)
      else return .inl (i + len)
  else return .inr false

def config_has_hub_interface (cfg : Bytes) : Option Bool := loop (has_hub_round cfg) (cfg.length + 1) 0

/-! ## The chain -/

def descriptors_from : Nat → Bytes → List Bytes
  | 0, _ => []
  | n + 1, x =>
    let len := (byteAt x 0).toNat
    if x.length < 2 ∨ len < 2 ∨ x.length < len then []
    else x.take len :: descriptors_from n (x.drop len)

/-- The descriptors up to the first malformed one. -/
def descriptors (cfg : Bytes) : List Bytes := descriptors_from cfg.length cfg

def is_interface (d : Bytes) : Bool := byteAt d 1 == 4

/-- An interface descriptor that is not cut short. -/
def is_full_interface (d : Bytes) : Bool := is_interface d && decide (9 ≤ d.length)

def number (d : Bytes) : UInt8 := byteAt d 2

def is_boot_interface (protocol : UInt8) (d : Bytes) : Bool :=
  is_full_interface d && byteAt d 5 == 3 && byteAt d 6 == 1 && byteAt d 7 == protocol

def is_interrupt_in (d : Bytes) : Bool :=
  byteAt d 1 == 5 && decide (7 ≤ d.length) && byteAt d 2 &&& 0x80 != 0 && byteAt d 3 &&& 3 == 3

/-- Address and `wMaxPacketSize` of an endpoint. -/
def endpoint (e : Bytes) : UInt8 × UInt16 := (byteAt e 2, le16 (byteAt e 4) (byteAt e 5))

/-- What stands behind `front` belongs to the boot interface with number `n`. -/
def Belongs (protocol : UInt8) (front : List Bytes) (n : UInt8) : Prop :=
  ∃ before d between, front = before ++ d :: between ∧ is_boot_interface protocol d = true ∧ number d = n ∧
    ∀ x ∈ between, is_interface x = false

/-- The interface and the endpoint that are asked for: the first IN interrupt
endpoint that belongs to a boot interface. -/
def Answer (protocol : UInt8) (ds : List Bytes) (r : HidEp) : Prop :=
  ∃ front e after, ds = front ++ e :: after ∧ is_interrupt_in e = true ∧ Belongs protocol front r.1 ∧
    r.2 = endpoint e ∧
    ∀ front' e' after', front = front' ++ e' :: after' → is_interrupt_in e' = true → ∀ n, ¬ Belongs protocol front' n

/-- The interface that the search takes itself to be in, behind `front`: number 0
before any interface, and none in one that has the number 0xFF. -/
def tracked (protocol : UInt8) (front : List Bytes) : Option UInt8 :=
  match front.reverse.find? is_full_interface with
  | none => some 0
  | some d => if is_boot_interface protocol d && number d != 0xFF then some (number d) else none

/-- **The first endpoint that belongs to a boot interface, or that the search takes
for one of a boot interface, is both, with the same number**; or the one that is
asked for comes later, with the same three values. -/
def Plain (protocol : UInt8) (ds : List Bytes) : Prop :=
  ∀ front e after, ds = front ++ e :: after → is_interrupt_in e = true →
    (∀ front' e' after', front = front' ++ e' :: after' → is_interrupt_in e' = true →
      tracked protocol front' = none ∧ ∀ n, ¬ Belongs protocol front' n) →
    (tracked protocol front ≠ none ∨ ∃ n, Belongs protocol front n) →
    ∃ n, tracked protocol front = some n ∧ (Belongs protocol front n ∨ Answer protocol ds (n, endpoint e))

/-! ## The search over the chain -/

/-- The interface that what stands behind `front` belongs to. -/
def owner (protocol : UInt8) (front : List Bytes) : Option UInt8 :=
  match front.reverse.find? is_interface with
  | none => none
  | some d => if is_boot_interface protocol d then some (number d) else none

/-- What a search that knows the interface says of a descriptor. -/
def answer (own : List Bytes → Option UInt8) (front : List Bytes) (e : Bytes) : Option HidEp :=
  if is_interrupt_in e then (own front).map fun n => (n, endpoint e) else none

section Chain

variable {cfg : Bytes} {protocol : UInt8} {front ds : List Bytes}

theorem answer_eq_some {own : List Bytes → Option UInt8} {e : Bytes} {r : HidEp} :
    answer own front e = some r ↔ is_interrupt_in e = true ∧ own front = some r.1 ∧ r.2 = endpoint e := by
  unfold answer
  by_cases he : is_interrupt_in e = true
  · rw [if_pos he, Option.map_eq_some_iff, and_iff_right he]
    constructor
    · rintro ⟨n, hn, rfl⟩
      exact ⟨hn, rfl⟩
    · intro h
      exact ⟨r.1, h.1, Prod.ext rfl h.2.symm⟩
  · rw [if_neg he]
    exact iff_of_false (Option.some_ne_none r).symm fun h => he h.1

theorem silent_answer_iff {own : List Bytes → Option UInt8} :
    Silent (answer own) [] ds ↔
      ∀ front e after, ds = front ++ e :: after → is_interrupt_in e = true → own front = none := by
  unfold Silent answer
  refine forall_congr' fun front => forall_congr' fun e => forall_congr' fun after => forall_congr' fun _ => ?_
  rw [List.nil_append]
  by_cases he : is_interrupt_in e = true
  · rw [if_pos he, Option.map_eq_none_iff]
    exact ⟨fun h _ => h, fun h => h he⟩
  · rw [if_neg he]
    exact iff_of_true rfl fun h => absurd h he

theorem is_full_of_boot {d : Bytes} (h : is_boot_interface protocol d = true) : is_full_interface d = true := by
  unfold is_boot_interface at h
  simp only [Bool.and_eq_true] at h
  exact h.1.1.1

theorem is_interface_of_full {d : Bytes} (h : is_full_interface d = true) : is_interface d = true := by
  unfold is_full_interface at h
  exact (Bool.and_eq_true_iff.mp h).1

theorem owner_iff {n : UInt8} : owner protocol front = some n ↔ Belongs protocol front n := by
  unfold owner Belongs
  constructor
  · intro h
    split at h
    · cases h
    · rename_i d hd
      split_ifs at h with hboot
      obtain ⟨-, behind, before, hrev, hbehind⟩ := List.find?_eq_some_iff_append.mp hd
      refine ⟨before.reverse, d, behind.reverse, ?_, hboot, Option.some.inj h, ?_⟩
      · rw [← List.reverse_reverse front, hrev, List.reverse_append, List.reverse_cons, List.append_assoc,
          List.singleton_append]
      · intro x hx
        exact Bool.not_eq_true' _ ▸ hbehind x (List.mem_reverse.mp hx)
  · rintro ⟨before, d, between, rfl, hboot, rfl, hbetween⟩
    have hfind : (before ++ d :: between).reverse.find? is_interface = some d := by
      apply List.find?_eq_some_iff_append.mpr
      refine ⟨is_interface_of_full (is_full_of_boot hboot), between.reverse, before.reverse, ?_, ?_⟩
      · rw [List.reverse_append, List.reverse_cons, List.append_assoc, List.singleton_append]
      · intro x hx
        rw [hbetween x (List.mem_reverse.mp hx)]
        rfl
    rw [hfind]
    exact if_pos hboot

theorem owner_none_iff : owner protocol front = none ↔ ∀ n, ¬ Belongs protocol front n := by
  rw [Option.eq_none_iff_forall_ne_some]
  exact forall_congr' fun n => not_congr owner_iff

theorem answer_iff {r : HidEp} : firstAnswer (answer (owner protocol)) [] ds = some r ↔ Answer protocol ds r := by
  rw [firstAnswer_some_iff]
  unfold Answer
  refine exists_congr fun front => exists_congr fun e => exists_congr fun after => and_congr_right fun _ => ?_
  rw [silent_answer_iff, List.nil_append, answer_eq_some, owner_iff]
  simp only [owner_none_iff]
  tauto

theorem tracked_ne_mark : tracked protocol front ≠ some 0xFF := by
  unfold tracked
  split
  · decide
  · split_ifs with h
    · intro hmark
      rw [Option.some.inj hmark, bne_self_eq_false, Bool.and_false] at h
      cases h
    · exact (Option.some_ne_none _).symm

/-- The search has missed an interface that has the number 0xFF. -/
theorem owner_of_untracked {n : UInt8} (hown : Belongs protocol front n) (htracked : tracked protocol front = none) :
    n = 0xFF := by
  obtain ⟨before, d, between, rfl, hboot, rfl, hbetween⟩ := hown
  have hfind : (before ++ d :: between).reverse.find? is_full_interface = some d := by
    apply List.find?_eq_some_iff_append.mpr
    refine ⟨is_full_of_boot hboot, between.reverse, before.reverse, ?_, ?_⟩
    · rw [List.reverse_append, List.reverse_cons, List.append_assoc, List.singleton_append]
    · intro x hx
      rw [is_full_interface, hbetween x (List.mem_reverse.mp hx)]
      rfl
  unfold tracked at htracked
  rw [hfind] at htracked
  dsimp only at htracked
  rw [hboot, Bool.true_and] at htracked
  by_contra hne
  rw [if_pos (bne_iff_ne.mpr hne)] at htracked
  cases htracked

/-- **When the two searches agree.** -/
theorem tracked_agrees_iff :
    firstAnswer (answer (tracked protocol)) [] ds = firstAnswer (answer (owner protocol)) [] ds ↔
      Plain protocol ds := by
  constructor
  · intro hsame front e after hds he hfront hlive
    subst hds
    have htracked : Silent (answer (tracked protocol)) [] front :=
      silent_answer_iff.mpr fun front' e' after' h he' => (hfront front' e' after' h he').1
    have howner : Silent (answer (owner protocol)) [] front :=
      silent_answer_iff.mpr fun front' e' after' h he' => owner_none_iff.mpr (hfront front' e' after' h he').2
    cases hn : tracked protocol front with
    | some n =>
      have hfirst : firstAnswer (answer (tracked protocol)) [] (front ++ e :: after) = some (n, endpoint e) :=
        firstAnswer_at htracked (answer_eq_some.mpr ⟨he, hn, rfl⟩)
      exact ⟨n, rfl, .inr (answer_iff.mp (hsame.symm.trans hfirst))⟩
    | none =>
      -- what belongs to an interface with the number of the mark is never returned
      obtain ⟨n, hown⟩ := hlive.resolve_left (not_not_intro hn)
      obtain rfl := owner_of_untracked hown hn
      have hfirst : firstAnswer (answer (owner protocol)) [] (front ++ e :: after) = some (0xFF, endpoint e) :=
        firstAnswer_at howner (answer_eq_some.mpr ⟨he, owner_iff.mpr hown, rfl⟩)
      obtain ⟨mid, a, rest, -, -, ha⟩ := firstAnswer_some_iff.mp (hsame.trans hfirst)
      exact absurd (answer_eq_some.mp ha).2.1 tracked_ne_mark
  · intro hplain
    rcases silent_or_first_of_two (answer (tracked protocol)) (answer (owner protocol)) [] ds with
      ⟨htracked, howner⟩ | ⟨front, e, after, rfl, htracked, howner, hlive⟩
    · rw [firstAnswer_of_silent htracked, firstAnswer_of_silent howner]
    · rw [List.nil_append] at hlive
      have hin : is_interrupt_in e = true := by
        by_contra hin
        unfold answer at hlive
        rw [if_neg hin, if_neg hin] at hlive
        exact hlive rfl
      have hlive' : tracked protocol front ≠ none ∨ ∃ n, Belongs protocol front n := by
        by_contra hnone
        rw [not_or, not_not, not_exists, ← owner_none_iff] at hnone
        unfold answer at hlive
        rw [hnone.1, hnone.2, if_pos hin] at hlive
        exact hlive rfl
      obtain ⟨n, hn, hright⟩ := hplain front e after rfl hin (fun front' e' after' h he' =>
        ⟨silent_answer_iff.mp htracked front' e' after' h he',
          owner_none_iff.mp (silent_answer_iff.mp howner front' e' after' h he')⟩) hlive'
      have hfirst : firstAnswer (answer (tracked protocol)) [] (front ++ e :: after) = some (n, endpoint e) :=
        firstAnswer_at htracked (answer_eq_some.mpr ⟨hin, hn, rfl⟩)
      rw [hfirst]
      rcases hright with hown | hanswer
      · have hfirst' : firstAnswer (answer (owner protocol)) [] (front ++ e :: after) = some (n, endpoint e) :=
          firstAnswer_at howner (answer_eq_some.mpr ⟨hin, owner_iff.mpr hown, rfl⟩)
        exact hfirst'.symm
      · exact (answer_iff.mpr hanswer).symm

/-! ## The loop -/

theorem tracked_snoc (d : Bytes) :
    tracked protocol (front ++ [d]) =
      if is_full_interface d then
        if is_boot_interface protocol d && number d != 0xFF then some (number d) else none
      else tracked protocol front := by
  unfold tracked
  rw [List.reverse_append, List.reverse_singleton, List.singleton_append, List.find?_cons]
  cases is_full_interface d <;> rfl

/-- What the search keeps of an interface. -/
theorem tracked_snoc_getD (d : Bytes) :
    (tracked protocol (front ++ [d])).getD 0xFF =
      if is_full_interface d then if is_boot_interface protocol d then number d else 0xFF
      else (tracked protocol front).getD 0xFF := by
  rw [tracked_snoc]
  by_cases hfull : is_full_interface d = true
  · rw [if_pos hfull, if_pos hfull]
    cases is_boot_interface protocol d with
    | false => rfl
    | true =>
      rw [Bool.true_and, if_pos rfl]
      by_cases hmark : number d = 0xFF
      · rw [hmark]
        rfl
      · rw [if_pos (bne_iff_ne.mpr hmark), Option.getD_some]
  · rw [if_neg hfull, if_neg hfull]

theorem is_interrupt_in_iff {d : Bytes} :
    is_interrupt_in d = true ↔
      byteAt d 1 = 5 ∧ 7 ≤ d.length ∧ byteAt d 2 &&& 0x80 ≠ 0 ∧ byteAt d 3 &&& 3 = 3 := by
  unfold is_interrupt_in
  simp only [Bool.and_eq_true, beq_iff_eq, bne_iff_ne, decide_eq_true_eq, and_assoc]

theorem is_full_interface_iff {d : Bytes} : is_full_interface d = true ↔ byteAt d 1 = 4 ∧ 9 ≤ d.length := by
  unfold is_full_interface is_interface
  rw [Bool.and_eq_true, beq_iff_eq, decide_eq_true_eq]

theorem is_boot_interface_iff {d : Bytes} (h : is_full_interface d = true) :
    is_boot_interface protocol d = true ↔ ¬ (byteAt d 5 ≠ 3 ∨ byteAt d 6 ≠ 1 ∨ byteAt d 7 ≠ protocol) := by
  unfold is_boot_interface
  rw [h, Bool.true_and]
  simp only [Bool.and_eq_true, beq_iff_eq, not_or, not_not, and_assoc]

/-- What a round does with a descriptor. -/
theorem round_eq {d x : Bytes} {i : Nat} {iface : UInt8} (hat : InFront cfg i (d ++ x)) (htwo : 2 ≤ d.length)
    (hlen : (byteAt d 0).toNat = d.length) :
    find_hid_boot_round cfg protocol (iface, i) =
      if is_full_interface d then
        some (.inl (if is_boot_interface protocol d then number d else 0xFF, i + d.length))
      else if is_interrupt_in d = true ∧ iface ≠ 0xFF then some (.inr (some (iface, endpoint d)))
      else some (.inl (iface, i + d.length)) := by
  have hbound : cfg.length = i + (d.length + x.length) := by rw [hat.length, List.length_append]
  have hget : ∀ k, k < d.length → cfg[i + k]? = some (byteAt d k) := by
    intro k hk
    rw [hat.getElem?, List.getElem?_append_left hk, byteAt, List.getD_eq_getElem?_getD,
      List.getElem?_eq_getElem hk, Option.getD_some]
  have hfirst : cfg[i]? = some (byteAt d 0) := hget 0 (by omega)
  unfold find_hid_boot_round
  dsimp only
  rw [if_pos (by omega), hfirst]
  simp only [Option.bind_eq_bind, Option.bind_some, hlen]
  rw [if_neg (by omega), hget 1 (by omega)]
  simp only [Option.bind_some]
  by_cases hiface : byteAt d 1 = 4
  · have hin : ¬ is_interrupt_in d = true := by
      rw [is_interrupt_in_iff, hiface]
      exact fun h => absurd h.1 (by decide)
    rw [if_pos hiface, if_neg (c := is_interrupt_in d = true ∧ _) fun h => hin h.1]
    by_cases hnine : 9 ≤ d.length
    · have hfull := is_full_interface_iff.mpr ⟨hiface, hnine⟩
      rw [if_pos hnine, if_pos hfull, hget 2 (by omega), hget 5 (by omega), hget 6 (by omega), hget 7 (by omega)]
      simp only [Option.bind_some]
      by_cases hboot : is_boot_interface protocol d = true
      · rw [if_pos hboot, if_neg ((is_boot_interface_iff hfull).mp hboot)]
        rfl
      · rw [if_neg hboot, if_pos (not_not.mp fun h => hboot ((is_boot_interface_iff hfull).mpr h))]
        rfl
    · rw [if_neg hnine, if_neg fun h => hnine (is_full_interface_iff.mp h).2]
      rfl
  · rw [if_neg hiface, if_neg (c := is_full_interface d = true) fun h => hiface (is_full_interface_iff.mp h).1]
    by_cases hendpoint : byteAt d 1 = 5
    · rw [if_pos hendpoint]
      by_cases hseven : 7 ≤ d.length ∧ iface ≠ 0xFF
      · rw [if_pos hseven, hget 2 (by omega), hget 3 (by omega), hget 4 (by omega), hget 5 (by omega)]
        simp only [Option.bind_some]
        by_cases hbits : byteAt d 2 &&& 0x80 ≠ 0 ∧ byteAt d 3 &&& 3 = 3
        · rw [if_pos hbits, if_pos ⟨is_interrupt_in_iff.mpr ⟨hendpoint, hseven.1, hbits⟩, hseven.2⟩]
          rfl
        · rw [if_neg hbits, if_neg fun h => hbits (is_interrupt_in_iff.mp h.1).2.2]
          rfl
      · rw [if_neg hseven, if_neg fun h => hseven ⟨(is_interrupt_in_iff.mp h.1).2.1, h.2⟩]
        rfl
    · rw [if_neg hendpoint, if_neg fun h => hendpoint (is_interrupt_in_iff.mp h.1).1]
      rfl

/-- A chain is over, or begins with a descriptor. -/
theorem descriptors_from_cases (n : Nat) (x : Bytes) :
    ((x.length < 2 ∨ (byteAt x 0).toNat < 2 ∨ x.length < (byteAt x 0).toNat) ∧ descriptors_from (n + 1) x = []) ∨
      ∃ d rest, x = d ++ rest ∧ 2 ≤ d.length ∧ (byteAt d 0).toNat = d.length ∧
        descriptors_from (n + 1) x = d :: descriptors_from n rest := by
  by_cases hbad : x.length < 2 ∨ (byteAt x 0).toNat < 2 ∨ x.length < (byteAt x 0).toNat
  · exact .inl ⟨hbad, if_pos hbad⟩
  · refine .inr ⟨x.take (byteAt x 0).toNat, x.drop (byteAt x 0).toNat, (List.take_append_drop _ x).symm, ?_, ?_,
      if_neg hbad⟩
    · rw [List.length_take]
      omega
    · have hzero : byteAt (x.take (byteAt x 0).toNat) 0 = byteAt x 0 := by
        unfold byteAt
        rw [List.getD_eq_getElem?_getD, List.getElem?_take_of_lt, ← List.getD_eq_getElem?_getD]
        unfold byteAt at hbad
        omega
      rw [hzero, List.length_take_of_le (by omega)]

/-- A round at the end of the chain. -/
theorem round_end {x : Bytes} {i : Nat} (hat : InFront cfg i x) (iface : UInt8)
    (hend : x.length < 2 ∨ (byteAt x 0).toNat < 2 ∨ x.length < (byteAt x 0).toNat) :
    find_hid_boot_round cfg protocol (iface, i) = some (.inr none) := by
  have hbound := hat.length
  unfold find_hid_boot_round
  by_cases hshort : x.length < 2
  · rw [if_neg (show ¬ i + 2 ≤ cfg.length by omega)]
    rfl
  · have hget : cfg[i]? = some (byteAt x 0) := by
      have hfirst : cfg[i]? = x[0]? := hat.getElem? 0
      rw [hfirst, byteAt, List.getD_eq_getElem?_getD, List.getElem?_eq_getElem (by omega), Option.getD_some]
    rw [if_pos (show i + 2 ≤ cfg.length by omega)]
    simp only [hget, Option.bind_eq_bind, Option.bind_some]
    rw [if_pos (by omega)]
    rfl

/-- The rest of the loop, behind the descriptors `front`. -/
theorem loop_eq {n i : Nat} {x : Bytes} (front : List Bytes) (hat : InFront cfg i x) (hn : x.length ≤ n) :
    loop (find_hid_boot_round cfg protocol) (n + 1) ((tracked protocol front).getD 0xFF, i) =
      some (firstAnswer (answer (tracked protocol)) front (descriptors_from n x)) := by
  induction n generalizing x i front with
  | zero =>
    rw [loop, round_end hat _ (.inl (by omega))]
    rfl
  | succ n ih =>
    rcases descriptors_from_cases n x with ⟨hend, hnil⟩ | ⟨d, rest, rfl, htwo, hlen, hcons⟩
    · rw [loop, round_end hat _ hend, hnil]
      rfl
    · have hrest : rest.length ≤ n := by
        rw [List.length_append] at hn
        omega
      have hih := ih (front ++ [d]) hat.skip hrest
      rw [tracked_snoc_getD] at hih
      rw [loop, round_eq hat htwo hlen, hcons, firstAnswer]
      by_cases hfull : is_full_interface d = true
      · have hin : ¬ is_interrupt_in d = true := by
          rw [is_interrupt_in_iff, (is_full_interface_iff.mp hfull).1]
          exact fun h => absurd h.1 (by decide)
        rw [if_pos hfull] at hih ⊢
        rw [answer, if_neg hin, Option.none_or]
        exact hih
      · rw [if_neg hfull] at hih ⊢
        cases hn : tracked protocol front with
        | none =>
          rw [hn] at hih
          rw [Option.getD_none, if_neg fun h => h.2 rfl, answer, hn, Option.map_none, ite_self, Option.none_or]
          exact hih
        | some n =>
          have hmark : n ≠ 0xFF := by
            rintro rfl
            exact tracked_ne_mark hn
          rw [hn] at hih
          by_cases hin : is_interrupt_in d = true
          · rw [if_pos ⟨hin, hmark⟩, answer, if_pos hin, hn]
            rfl
          · rw [if_neg fun h => hin h.1, answer, if_neg hin, Option.none_or]
            exact hih

theorem find_hid_boot_eps_eq (cfg : Bytes) (protocol : UInt8) :
    find_hid_boot_eps cfg protocol = some (firstAnswer (answer (tracked protocol)) [] (descriptors cfg)) :=
  loop_eq [] (in_front [] cfg) (Nat.le_refl _)

/-- **When the search finds what is asked for.** It always ends, inside the
configuration. -/
theorem find_hid_boot_eps_iff :
    (∃ found, find_hid_boot_eps cfg protocol = some found ∧
        (∀ r, found = some r ↔ Answer protocol (descriptors cfg) r) ∧
        ∀ r, (∀ front e after, descriptors cfg = front ++ e :: after → is_interrupt_in e = true → endpoint e = r.2 →
          ∀ x ∈ front, is_interface x = false) → found ≠ some r) ↔
      Plain protocol (descriptors cfg) := by
  rw [find_hid_boot_eps_eq, ← tracked_agrees_iff]
  constructor
  · rintro ⟨found, hfound, hanswer, -⟩
    rw [Option.some.inj hfound]
    apply Option.ext
    intro r
    rw [hanswer, answer_iff]
  · intro hsame
    rw [hsame]
    refine ⟨_, rfl, fun r => answer_iff, fun r hearly hr => ?_⟩
    obtain ⟨front, e, after, hds, he, ⟨before, d, between, rfl, hboot, -, -⟩, hend, -⟩ := answer_iff.mp hr
    have hno := hearly _ e after hds he hend.symm d (List.mem_append_right _ List.mem_cons_self)
    rw [is_interface_of_full (is_full_of_boot hboot)] at hno
    cases hno

/-- The other loop ends inside the configuration as well. -/
theorem config_has_hub_interface_returns (cfg : Bytes) : Returns (config_has_hub_interface cfg) fun _ => True := by
  apply loop_returns (I := fun _ => True) (m := fun i => cfg.length - i) ?_ trivial (Nat.lt_succ_self _)
  intro i _
  unfold has_hub_round
  split_ifs with hfits
  · refine Returns.bind (getElem?_returns (by omega)) fun b _ => ?_
    dsimp only
    split_ifs with hbad
    · exact .done trivial
    · refine Returns.bind (getElem?_returns (by omega)) fun ty _ => ?_
      have hgo : Returns (some (.inl (i + b.toNat)) : Option (Nat ⊕ Bool))
          (RoundOk (fun _ => True) (fun i => cfg.length - i) (fun _ => True) i) := .goOn trivial (by omega)
      split_ifs with hiface
      · refine Returns.bind (getElem?_returns (by omega)) fun cls _ => ?_
        split_ifs
        · exact .done trivial
        · exact hgo
      · exact hgo
  · exact .done trivial

/-- A configuration of an endpoint and no interface. -/
def BARE_ENDPOINT : Bytes := [9, 2, 16, 0, 0, 1, 0, 128, 50, 7, 5, 129, 3, 8, 0, 10]

/-- The endpoint is returned with the interface number 0. -/
theorem bare_endpoint_is_returned :
    find_hid_boot_eps BARE_ENDPOINT 1 = some (some (0, 129, 8)) ∧
      ¬ Answer 1 (descriptors BARE_ENDPOINT) (0, 129, 8) ∧
      ∀ front e after, descriptors BARE_ENDPOINT = front ++ e :: after → ∀ x ∈ front, is_interface x = false := by
  refine ⟨by decide, ?_, ?_⟩
  · rw [← answer_iff]
    decide
  · have hnone : ∀ x ∈ descriptors BARE_ENDPOINT, is_interface x = false := by decide
    intro front e after hds x hx
    apply hnone
    rw [hds]
    exact List.mem_append_left _ hx

end Chain

end EveOS.Usb
