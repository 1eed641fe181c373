/-
The URLs that are accepted.

`UrlText` is the text of a URL in its parts, with what makes it acceptable; `wire` puts the
parts together, and `Describes` says what a fetch is told about it. `parse_fetch_url` is
the inverse of `wire` (`parse_fetch_url_iff`): it accepts exactly these texts, and takes each of
them apart as it was put together.
-/
import EveOS.Lib.Decimal
import EveOS.Lib.Returns
import EveOS.Net.Url

set_option autoImplicit false

namespace EveOS.Net

/-! ## Texts -/

/-- The parts of a URL, with the spaces around it. -/
structure UrlParts where
  lead : Nat
  https : Bool
  scheme : Bytes
  host : Bytes
  port : Option Bytes
  suffix : Bytes
  trail : Nat

namespace UrlParts

def port_text (u : UrlParts) : Bytes := u.port.elim [] fun ds => 58 :: ds

def wire (u : UrlParts) : Bytes :=
  List.replicate u.lead 32 ++ (u.scheme ++ (u.host ++ (u.port_text ++ u.suffix)) ++ List.replicate u.trail 32)

def default_port (u : UrlParts) : UInt16 := if u.https then 443 else 80

def port_number (u : UrlParts) : UInt16 := u.port.elim u.default_port fun ds => UInt16.ofNat (decimal ds)

/-- The port is part of the `Host` header unless it is the scheme's own. -/
def host_header (u : UrlParts) : Bytes :=
  if u.port_number = u.default_port then u.host else u.host ++ 58 :: strip_zeros (u.port.getD [])

def path (u : UrlParts) : Bytes := if u.suffix.head? = some 47 then u.suffix else 47 :: u.suffix

end UrlParts

/-- A URL that can be fetched. -/
structure UrlText extends UrlParts where
  scheme_letters : scheme.map lowerAscii = if https then ascii "https://" else ascii "http://"
  host_length : 1 ≤ host.length ∧ host.length ≤ 95
  host_free : ∀ b ∈ host, b ≠ 47 ∧ b ≠ 63 ∧ b ≠ 35 ∧ b ≠ 58
  host_end : port = none → suffix = [] → host.getLast? ≠ some 32
  port_digits : ∀ ds ∈ port, ds ≠ [] ∧ IsDigits ds ∧ decimal ds ≤ 65535
  suffix_start : ∀ c ∈ suffix.head?, c = 47 ∨ c = 63 ∨ c = 35
  suffix_end : suffix.getLast? ≠ some 32
  path_length : toUrlParts.path.length ≤ 159
  header_length : toUrlParts.host_header.length ≤ 95

/-- A value of at most 255 in one to three digits. -/
structure Octet (s : Bytes) (b : UInt8) : Prop where
  length : 1 ≤ s.length ∧ s.length ≤ 3
  digits : IsDigits s
  value : decimal s = b.toNat

def DottedQuad (host : Bytes) (q : Ipv4) : Prop :=
  ∃ s0 s1 s2 s3, host = s0 ++ 46 :: (s1 ++ 46 :: (s2 ++ 46 :: s3)) ∧
    Octet s0 q.b0 ∧ Octet s1 q.b1 ∧ Octet s2 q.b2 ∧ Octet s3 q.b3

/-- What a fetch is told about a URL. An address that is not 0.0.0.0 needs no DNS. -/
structure UrlText.Describes (u : UrlText) (r : ParsedHttpUrl) : Prop where
  https : r.https = u.https
  port : r.port = u.port_number
  host_for_dns : r.host_for_dns = u.host
  host_header : r.host_header = u.host_header
  path : r.path = u.path
  quad : ∀ q, DottedQuad u.host q → q ≠ .zero → r.needs_dns = false ∧ r.ip = q
  name : (∀ q, DottedQuad u.host q → q = .zero) → r.needs_dns = true ∧ r.ip = .zero

/-! ## The loops of the source

`Url` gives two loops of the source in closed form. -/

section Loops

/-- The digit loop of `finish_parse`, into 16 bytes. -/
def port_digits_loop (port : UInt16) : Bytes := if port = 0 then [48] else render_from 16 port.toNat []

theorem port_digits_loop_eq (port : UInt16) : port_digits_loop port = port_digits port := by
  unfold port_digits_loop
  split_ifs with hzero
  · subst hzero
    rfl
  · have hpos : 0 < port.toNat := Nat.pos_of_ne_zero fun h => hzero (UInt16.toNat_inj.mp h)
    have hlt := port.toNat_lt
    rw [render_from_eq hpos (by omega), List.append_nil]
    rfl

def quad_of : List UInt8 → Option Ipv4
  | [b0, b1, b2, b3] => some ⟨b0, b1, b2, b3⟩
  | _ => none

/-- The loop of `parse_ipv4_host` over `host[i..]` and what follows it. A part began at `start`,
and `parts` are done. -/
def parse_ipv4_from (host : Bytes) : Bytes → Nat → Nat → List UInt8 → Option Ipv4
  | [], _, start, parts =>
    if parts.length ≠ 3 then none
    else do
      let b ← parse_u8 (slice host start host.length)
      quad_of (parts ++ [b])
  | c :: rest, i, start, parts =>
    if c = 46 then
      if 4 ≤ parts.length then none
      else do
        let b ← parse_u8 (slice host start i)
        parse_ipv4_from host rest (i + 1) (i + 1) (parts ++ [b])
    else parse_ipv4_from host rest (i + 1) start parts

theorem quad_of_length {parts : List UInt8} (h : parts.length ≠ 4) : quad_of parts = none := by
  unfold quad_of
  split
  · simp at h
  · rfl

/-- **The loop over the parts**, `cur` being the one that is read. -/
theorem parse_ipv4_from_eq (host rest front cur : Bytes) (parts : List UInt8)
    (hsplit : host = front ++ (cur ++ rest)) (hdot : 46 ∉ cur) :
    parse_ipv4_from host rest (front.length + cur.length) front.length parts =
      (((cur ++ rest).splitOn 46).mapM parse_u8).bind fun bs => quad_of (parts ++ bs) := by
  have hcur : slice host front.length (front.length + cur.length) = cur := by
    rw [slice, hsplit, List.drop_left, Nat.add_sub_cancel_left, List.take_left]
  induction rest generalizing front cur parts with
  | nil =>
    have hlen : host.length = front.length + cur.length := by
      rw [hsplit, List.append_nil, List.length_append]
    rw [parse_ipv4_from, List.append_nil, List.splitOn_eq_singleton hdot, hlen, hcur, List.mapM_cons, List.mapM_nil]
    rcases parse_u8 cur with _ | b
    · exact ite_self _
    · by_cases hthree : parts.length = 3
      · rw [if_neg (not_not_intro hthree)]
        rfl
      · rw [if_pos hthree]
        refine (quad_of_length ?_).symm
        rw [List.length_append, List.length_singleton]
        omega
  | cons c rest ih =>
    by_cases hc : c = 46
    · -- a dot: the part is done, and the next one is empty so far
      subst hc
      have hlen : (front ++ (cur ++ [46])).length = front.length + cur.length + 1 := by
        simp only [List.length_append, List.length_singleton]
        omega
      have hnext := fun b => ih (front ++ (cur ++ [46])) [] (parts ++ [b]) (by simpa using hsplit) List.not_mem_nil (by
        simp [slice])
      simp only [hlen, List.length_nil, Nat.add_zero, List.nil_append] at hnext
      rw [parse_ipv4_from, if_pos rfl, hcur, List.splitOn_append_cons_self_of_not_mem hdot, List.mapM_cons]
      rcases parse_u8 cur with _ | b
      · exact ite_self _
      · by_cases hfull : 4 ≤ parts.length
        · -- too many parts
          rw [if_pos hfull]
          rcases hrest : (rest.splitOn 46).mapM parse_u8 with _ | bs
          · rfl
          · refine (quad_of_length ?_).symm
            simp only [List.length_append, List.length_cons]
            omega
        · rw [if_neg hfull]
          refine (hnext b).trans ?_
          rcases (rest.splitOn 46).mapM parse_u8 with _ | bs
          · rfl
          · change quad_of _ = quad_of _
            rw [List.append_assoc]
            rfl
    · -- the part goes on
      have hnext := ih front (cur ++ [c]) parts (by simpa using hsplit) (by simp [hdot, Ne.symm hc]) (by
        rw [slice, hsplit, List.drop_left, Nat.add_sub_cancel_left]
        have happend : cur ++ c :: rest = (cur ++ [c]) ++ rest := by simp
        rw [happend, List.take_left])
      have hlen : (cur ++ [c]).length = cur.length + 1 := by rw [List.length_append, List.length_singleton]
      have happend : cur ++ [c] ++ rest = cur ++ c :: rest := by simp
      rw [hlen, happend] at hnext
      rw [parse_ipv4_from, if_neg hc, Nat.add_assoc, hnext]

theorem length_mapM_parse_u8 {texts : List Bytes} {bs : List UInt8} (h : texts.mapM parse_u8 = some bs) :
    bs.length = texts.length := by
  induction texts generalizing bs with
  | nil =>
    cases h
    rfl
  | cons p texts ih =>
    rw [List.mapM_cons] at h
    obtain ⟨b, -, h⟩ := Returns.of_bind h
    obtain ⟨bs', hbs, h⟩ := Returns.of_bind h
    cases h
    rw [List.length_cons, List.length_cons, ih hbs]

/-- Only four parts make an address. -/
theorem not_quad {texts : List Bytes} (h : texts.length ≠ 4) :
    ((texts.mapM parse_u8).bind fun bs => quad_of bs) = none := by
  rcases hbs : texts.mapM parse_u8 with _ | bs
  · rfl
  · refine quad_of_length ?_
    rw [length_mapM_parse_u8 hbs]
    exact h

theorem parse_ipv4_loop_eq (host : Bytes) : parse_ipv4_from host host 0 0 [] = parse_ipv4_host host := by
  have hloop := parse_ipv4_from_eq host host [] [] [] rfl List.not_mem_nil
  simp only [List.length_nil, Nat.add_zero, List.nil_append] at hloop
  rw [hloop, parse_ipv4_host]
  rcases host.splitOn 46 with _ | ⟨p0, _ | ⟨p1, _ | ⟨p2, _ | ⟨p3, _ | ⟨p4, rest⟩⟩⟩⟩⟩
  · exact not_quad (by simp)
  · exact not_quad (by simp)
  · exact not_quad (by simp)
  · exact not_quad (by simp)
  · simp only [List.mapM_cons, List.mapM_nil]
    rcases parse_u8 p0 with _ | b0 <;> rcases parse_u8 p1 with _ | b1 <;> rcases parse_u8 p2 with _ | b2 <;>
      rcases parse_u8 p3 with _ | b3 <;> rfl
  · exact not_quad (by simp)

end Loops

/-! ## Spaces -/

section Trim

variable {url : Bytes}

theorem trim_split (url : Bytes) :
    ∃ a b, url = List.replicate a 32 ++ (trim url ++ List.replicate b 32) := by
  have hspaces : ∀ xs : Bytes, (∀ x ∈ xs, (x == 32) = true) → xs = List.replicate xs.length 32 := by
    intro xs hxs
    exact List.eq_replicate_of_mem fun x hx => beq_iff_eq.mp (hxs x hx)
  have hfront : url.takeWhile (· == 32) = List.replicate (url.takeWhile (· == 32)).length 32 := by
    apply hspaces
    intro x hx
    exact List.mem_takeWhile_imp (p := (· == 32)) hx
  have hback : (url.dropWhile (· == 32)).rtakeWhile (· == 32) =
      List.replicate ((url.dropWhile (· == 32)).rtakeWhile (· == 32)).length 32 := by
    apply hspaces
    intro x hx
    exact List.mem_rtakeWhile_imp (p := (· == 32)) hx
  refine ⟨(url.takeWhile (· == 32)).length, ((url.dropWhile (· == 32)).rtakeWhile (· == 32)).length, ?_⟩
  rw [← hfront, ← hback, trim, List.rdropWhile_append_rtakeWhile, List.takeWhile_append_dropWhile]

/-- **Spaces around a text are stripped.** -/
theorem trim_spaces {x : Bytes} (a b : Nat) (hfirst : x.head? ≠ some 32) (hlast : x.getLast? ≠ some 32) :
    trim (List.replicate a 32 ++ (x ++ List.replicate b 32)) = x := by
  have hspaces : ∀ n, ∀ y ∈ List.replicate n (32 : UInt8), (y == 32) = true := by
    intro n y hy
    rw [List.eq_of_mem_replicate hy]
    rfl
  rw [trim, List.dropWhile_append_of_pos (hspaces a)]
  cases x with
  | nil =>
    have hall : (List.replicate b (32 : UInt8)).dropWhile (· == 32) = [] :=
      List.dropWhile_eq_nil_iff.mpr (hspaces b)
    rw [List.nil_append, hall, List.rdropWhile_nil]
  | cons c x =>
    have hc : (c == 32) = false := by simpa using hfirst
    have hkeep : (c :: x ++ List.replicate b 32).dropWhile (· == 32) = c :: x ++ List.replicate b 32 := by
      rw [List.cons_append, List.dropWhile_cons_of_neg (by simp [hc])]
    have hback : (c :: x ++ List.replicate b 32).rdropWhile (· == 32) = (c :: x).rdropWhile (· == 32) := by
      rw [List.rdropWhile, List.reverse_append, List.reverse_replicate, List.dropWhile_append_of_pos (hspaces b)]
      rfl
    rw [hkeep, hback, List.rdropWhile_eq_self_iff]
    intro hl
    rw [List.getLast?_eq_some_getLast hl] at hlast
    simpa using hlast

theorem trim_head (url : Bytes) : (trim url).head? ≠ some 32 := by
  rcases htrim : trim url with _ | ⟨c, rest⟩
  · simp
  · have hext : trim url <+: url.dropWhile (· == 32) := List.rdropWhile_prefix _ _
    rw [htrim] at hext
    have hhead := List.head?_dropWhile_not (· == (32 : UInt8)) url
    obtain ⟨t, ht⟩ := hext
    rw [← ht] at hhead
    simpa using hhead

theorem trim_last (url : Bytes) : (trim url).getLast? ≠ some 32 := by
  by_cases hne : trim url = []
  · simp [hne]
  · have hlast := List.rdropWhile_last_not (· == (32 : UInt8)) (url.dropWhile (· == 32)) hne
    rw [List.getLast?_eq_some_getLast hne]
    simpa [trim] using hlast

end Trim

/-! ## The parts of a text -/

section Parts

/-- **The scheme**, in letters of any case. -/
theorem starts_with_scheme_iff {p url rest : Bytes} (hp : p.map lowerAscii = p) :
    starts_with_scheme p url = some rest ↔ ∃ s, url = s ++ rest ∧ s.map lowerAscii = p := by
  have hmatch : ∀ (s p : Bytes), s.length = p.length → p.map lowerAscii = p →
      (((s.zip p).all fun e => eq_ci e.1 e.2) = true ↔ s.map lowerAscii = p) := by
    intro s
    induction s with
    | nil =>
      intro p hlen _
      rw [List.length_nil] at hlen
      rw [List.length_eq_zero_iff.mp hlen.symm]
      simp
    | cons a s ih =>
      intro p hlen hlow
      rcases p with _ | ⟨b, p⟩
      · simp at hlen
      rw [List.map_cons, List.cons.injEq] at hlow
      have heq : eq_ci a b = true ↔ lowerAscii a = b := by
        rw [← hlow.1]
        unfold eq_ci
        rw [beq_iff_eq, hlow.1, hlow.1]
      rw [List.zip_cons_cons, List.all_cons, Bool.and_eq_true, ih p (by simpa using hlen) hlow.2, List.map_cons,
        List.cons.injEq, heq]
  change (if url.length < p.length then none
    else if ((url.take p.length).zip p).all (fun e => eq_ci e.1 e.2) = true then some (url.drop p.length)
    else none) = _ ↔ _
  by_cases hlen : url.length < p.length
  · rw [if_pos hlen]
    constructor
    · intro h
      cases h
    · rintro ⟨s, rfl, hs⟩
      have hsame := congrArg List.length hs
      rw [List.length_map] at hsame
      rw [List.length_append] at hlen
      omega
  · have htake : (url.take p.length).length = p.length := by
      rw [List.length_take]
      omega
    rw [if_neg hlen]
    constructor
    · intro h
      split_ifs at h with hall
      rw [Option.some.injEq] at h
      refine ⟨url.take p.length, ?_, (hmatch _ p htake hp).mp hall⟩
      rw [← h, List.take_append_drop]
    · rintro ⟨s, rfl, hs⟩
      have hsame := congrArg List.length hs
      rw [List.length_map] at hsame
      rw [← hsame, List.take_left, List.drop_left, if_pos]
      exact (hmatch s p hsame hp).mpr hs

/-- A decimal port. -/
theorem parse_port_iff {ds : Bytes} {port : UInt16} :
    parse_port_from 0 ds = some port ↔ IsDigits ds ∧ decimal ds ≤ 65535 ∧ port = UInt16.ofNat (decimal ds) := by
  have hloop : ∀ v, parse_port_from v ds = (bounded_decimal 65535 v ds).map UInt16.ofNat := by
    induction ds with
    | nil =>
      intro v
      rfl
    | cons c ds ih =>
      intro v
      rw [parse_port_from, bounded_decimal, isDigit]
      dsimp only
      rw [ih]
      split_ifs
      · rfl
      · rfl
      · rfl
  rw [hloop, Option.map_eq_some_iff]
  constructor
  · rintro ⟨n, hn, rfl⟩
    obtain ⟨hds, rfl, hle⟩ := (bounded_decimal_eq_some (Nat.zero_le _)).mp hn
    exact ⟨hds, hle, rfl⟩
  · rintro ⟨hds, hle, rfl⟩
    exact ⟨decimal ds, (bounded_decimal_eq_some (Nat.zero_le _)).mpr ⟨hds, rfl, hle⟩, rfl⟩

theorem parse_u8_iff {s : Bytes} {b : UInt8} : parse_u8 s = some b ↔ Octet s b := by
  have hloop : ∀ v, parse_u8_from v s = (bounded_decimal 255 v s).map UInt8.ofNat := by
    induction s with
    | nil =>
      intro v
      rfl
    | cons c s ih =>
      intro v
      rw [parse_u8_from, bounded_decimal, isDigit]
      dsimp only
      rw [ih]
      split_ifs
      · rfl
      · rfl
      · rfl
  have hpos : 1 ≤ s.length ↔ s ≠ [] := List.length_pos_iff
  unfold parse_u8
  rw [hloop]
  split_ifs with hbad
  · constructor
    · intro h
      cases h
    · rintro ⟨hlen, -, -⟩
      rw [hpos] at hlen
      rcases hbad with hnil | hlong
      · exact absurd hnil hlen.1
      · omega
  · rw [not_or] at hbad
    rw [Option.map_eq_some_iff]
    constructor
    · rintro ⟨n, hn, rfl⟩
      obtain ⟨hds, rfl, hle⟩ := (bounded_decimal_eq_some (Nat.zero_le _)).mp hn
      refine ⟨⟨hpos.mpr hbad.1, by omega⟩, hds, ?_⟩
      rw [UInt8.toNat_ofNat', Nat.mod_eq_of_lt (by omega)]
      rfl
    · rintro ⟨-, hds, hvalue⟩
      have hlt := b.toNat_lt
      refine ⟨decimal s, (bounded_decimal_eq_some (Nat.zero_le _)).mpr ⟨hds, rfl, by omega⟩, ?_⟩
      rw [hvalue, UInt8.ofNat_toNat]

theorem Octet.no_dot {s : Bytes} {b : UInt8} (h : Octet s b) : 46 ∉ s := by
  intro hdot
  exact absurd (h.digits 46 hdot).1 (by decide)

/-- **A dotted quad** is read as its address. -/
theorem parse_ipv4_host_iff {host : Bytes} {q : Ipv4} : parse_ipv4_host host = some q ↔ DottedQuad host q := by
  constructor
  · intro h
    have hjoin : [46].intercalate (host.splitOn 46) = host := List.intercalate_splitOn 46
    unfold parse_ipv4_host at h
    rcases hsplit : host.splitOn 46 with _ | ⟨s0, _ | ⟨s1, _ | ⟨s2, _ | ⟨s3, _ | ⟨s4, rest⟩⟩⟩⟩⟩
    · rw [hsplit] at h
      cases h
    · rw [hsplit] at h
      cases h
    · rw [hsplit] at h
      cases h
    · rw [hsplit] at h
      cases h
    · rw [hsplit] at h hjoin
      obtain ⟨b0, h0, h⟩ := Returns.of_bind h
      obtain ⟨b1, h1, h⟩ := Returns.of_bind h
      obtain ⟨b2, h2, h⟩ := Returns.of_bind h
      obtain ⟨b3, h3, h⟩ := Returns.of_bind h
      cases h
      refine ⟨s0, s1, s2, s3, ?_, parse_u8_iff.mp h0, parse_u8_iff.mp h1, parse_u8_iff.mp h2, parse_u8_iff.mp h3⟩
      rw [← hjoin]
      simp [List.intercalate]
    · rw [hsplit] at h
      cases h
  · rintro ⟨s0, s1, s2, s3, rfl, h0, h1, h2, h3⟩
    unfold parse_ipv4_host
    rw [List.splitOn_append_cons_self_of_not_mem h0.no_dot, List.splitOn_append_cons_self_of_not_mem h1.no_dot,
      List.splitOn_append_cons_self_of_not_mem h2.no_dot, List.splitOn_eq_singleton h3.no_dot]
    dsimp only
    rw [parse_u8_iff.mpr h0, parse_u8_iff.mpr h1, parse_u8_iff.mpr h2, parse_u8_iff.mpr h3]
    rfl

/-- The front of a text that ends before the first byte without the property. -/
theorem takeWhile_front {p : UInt8 → Bool} {front : Bytes} (rest : Bytes) (hfront : ∀ b ∈ front, p b = true)
    (hrest : ∀ c ∈ rest.head?, p c = false) : (front ++ rest).takeWhile p = front := by
  rw [List.takeWhile_append_of_pos hfront]
  cases rest with
  | nil => simp
  | cons c rest => simp [hrest c rfl]

theorem ends_host_iff (c : UInt8) : ends_host c = true ↔ c = 47 ∨ c = 63 ∨ c = 35 := by
  simp [ends_host, or_assoc]

/-- **Host, port and suffix.** -/
theorem parse_host_port_path_iff {rest : Bytes} {default_port : UInt16} {https : Bool} {r : ParsedHttpUrl} :
    parse_host_port_path rest default_port https = some r ↔
      ∃ (host : Bytes) (port : Option Bytes) (suffix : Bytes),
        rest = host ++ ((port.elim [] fun ds => 58 :: ds) ++ suffix) ∧
        (∀ b ∈ host, b ≠ 47 ∧ b ≠ 63 ∧ b ≠ 35 ∧ b ≠ 58) ∧
        (∀ ds ∈ port, ds ≠ [] ∧ IsDigits ds ∧ decimal ds ≤ 65535) ∧
        (∀ c ∈ suffix.head?, c = 47 ∨ c = 63 ∨ c = 35) ∧
        finish_parse host (port.elim default_port fun ds => UInt16.ofNat (decimal ds))
          (if suffix = [] then [47] else suffix) https = some r := by
  have hdrop : ∀ (p : UInt8 → Bool) (xs : Bytes), xs.drop (xs.takeWhile p).length = xs.dropWhile p := by
    intro p xs
    have hjoin := congrArg (List.drop (xs.takeWhile p).length) (List.takeWhile_append_dropWhile (p := p) (l := xs))
    rw [List.drop_left] at hjoin
    exact hjoin.symm
  have hstop : ∀ (p : UInt8 → Bool) (xs : Bytes), ∀ c ∈ (xs.dropWhile p).head?, p c = false := by
    intro p xs c hc
    have hhead := List.head?_dropWhile_not p xs
    rw [hc] at hhead
    simpa using hhead
  constructor
  · intro h
    unfold parse_host_port_path at h
    dsimp only at h
    rw [hdrop] at h
    have hjoin := List.takeWhile_append_dropWhile (p := fun b => !ends_host b && b != 58) (l := rest)
    have hnext := hstop (fun b => !ends_host b && b != 58) rest
    have hfree : ∀ b ∈ rest.takeWhile (fun b => !ends_host b && b != 58), b ≠ 47 ∧ b ≠ 63 ∧ b ≠ 35 ∧ b ≠ 58 := by
      intro b hb
      have hp := List.mem_takeWhile_imp hb
      simp only [ends_host, Bool.and_eq_true, Bool.not_eq_true', Bool.or_eq_false_iff, beq_eq_false_iff_ne, ne_eq,
        bne_iff_ne] at hp
      exact ⟨hp.1.1.1, hp.1.1.2, hp.1.2, hp.2⟩
    generalize rest.takeWhile (fun b => !ends_host b && b != 58) = host at h hjoin hfree
    rcases hbehind : rest.dropWhile (fun b => !ends_host b && b != 58) with _ | ⟨c, tail⟩
    · rw [hbehind] at h hjoin
      exact ⟨host, none, [], hjoin.symm, hfree, by simp, by simp, h⟩
    · rw [hbehind] at h hjoin hnext
      dsimp only at h
      by_cases hcolon : c = 58
      · subst hcolon
        rw [if_pos rfl, hdrop] at h
        have hport := List.takeWhile_append_dropWhile (p := fun b => !ends_host b) (l := tail)
        have hsuffix := hstop (fun b => !ends_host b) tail
        generalize tail.takeWhile (fun b => !ends_host b) = ds at h hport
        generalize tail.dropWhile (fun b => !ends_host b) = suffix at h hport hsuffix
        by_cases hnil : ds = []
        · rw [if_pos hnil] at h
          cases h
        · rw [if_neg hnil] at h
          rcases hread : parse_port_from 0 ds with _ | port
          · rw [hread] at h
            cases h
          · rw [hread] at h
            obtain ⟨hds, hle, rfl⟩ := parse_port_iff.mp hread
            refine ⟨host, some ds, suffix, ?_, hfree, ?_, ?_, h⟩
            · rw [← hjoin, ← hport]
              rfl
            · rintro _ ⟨⟩
              exact ⟨hnil, hds, hle⟩
            · intro c hc
              rw [← ends_host_iff, ← Bool.not_eq_false]
              simpa using hsuffix c hc
      · rw [if_neg hcolon] at h
        refine ⟨host, none, c :: tail, hjoin.symm, hfree, by simp, ?_, ?_⟩
        · rintro _ ⟨⟩
          have hends := hnext c rfl
          rw [← ends_host_iff]
          simpa [hcolon] using hends
        · rw [if_neg (List.cons_ne_nil _ _)]
          exact h
  · rintro ⟨host, port, suffix, rfl, hfree, hport, hsuffix, h⟩
    have hhost : ∀ b ∈ host, (!ends_host b && b != 58) = true := by
      intro b hb
      obtain ⟨h47, h63, h35, h58⟩ := hfree b hb
      simp [ends_host, h47, h63, h35, h58]
    unfold parse_host_port_path
    cases port with
    | none =>
      have hfront := takeWhile_front suffix hhost (by
        intro c hc
        have hends := (ends_host_iff c).mpr (hsuffix c hc)
        simp [hends])
      dsimp only [Option.elim_none] at h ⊢
      rw [List.nil_append, hfront, List.drop_left]
      rcases suffix with _ | ⟨c, tail⟩
      · exact h
      · have hcolon : c ≠ 58 := by
          rintro rfl
          have hc := hsuffix 58 rfl
          exact absurd hc (by decide)
        rw [if_neg (List.cons_ne_nil _ _)] at h
        dsimp only
        rw [if_neg hcolon]
        exact h
    | some ds =>
      obtain ⟨hnil, hds, hle⟩ := hport ds rfl
      have hfront := takeWhile_front (58 :: (ds ++ suffix)) hhost (by
        rintro _ ⟨⟩
        rfl)
      have hdigits : ∀ b ∈ ds, (!ends_host b) = true := by
        intro b hb
        rw [Bool.not_eq_true', ← Bool.not_eq_true, ends_host_iff]
        rintro (rfl | rfl | rfl)
        · exact absurd (hds 47 hb).1 (by decide)
        · exact absurd (hds 63 hb).2 (by decide)
        · exact absurd (hds 35 hb).1 (by decide)
      have htext := takeWhile_front suffix hdigits (by
        intro c hc
        rw [(ends_host_iff c).mpr (hsuffix c hc)]
        rfl)
      have hread := parse_port_iff.mpr ⟨hds, hle, rfl⟩
      dsimp only [Option.elim_some] at h ⊢
      rw [List.cons_append, hfront, List.drop_left]
      dsimp only
      rw [if_pos rfl, htext, List.drop_left, if_neg hnil, hread]
      exact h

end Parts

/-! ## What is told about them -/

section Finish

/-- What `finish_parse` makes of the parts. -/
def UrlParts.parsed (u : UrlParts) : ParsedHttpUrl :=
  { https := u.https
    port := u.port_number
    ip := (parse_ipv4_host u.host).getD .zero
    needs_dns := (parse_ipv4_host u.host).getD .zero = .zero
    host_for_dns := u.host
    host_header := u.host_header
    path := u.path }

variable {u : UrlParts}

/-- A port is written back as its text, without leading zeros. -/
theorem port_digits_text {ds : Bytes} (hne : ds ≠ []) (hds : IsDigits ds) (hle : decimal ds ≤ 65535) :
    port_digits (UInt16.ofNat (decimal ds)) = strip_zeros ds := by
  have hrender : port_digits (UInt16.ofNat (decimal ds)) = render_decimal (UInt16.ofNat (decimal ds)).toNat := rfl
  rw [hrender, UInt16.toNat_ofNat', Nat.mod_eq_of_lt (by omega), render_decimal_eq hne hds]

theorem host_header_eq (hport : ∀ ds ∈ u.port, ds ≠ [] ∧ IsDigits ds ∧ decimal ds ≤ 65535) :
    (if u.port_number ≠ u.default_port then u.host ++ [58] ++ port_digits u.port_number else u.host) =
      u.host_header := by
  unfold UrlParts.host_header
  by_cases hdefault : u.port_number = u.default_port
  · rw [if_neg (not_not_intro hdefault), if_pos hdefault]
  · rw [if_pos hdefault, if_neg hdefault, List.append_assoc]
    rcases hp : u.port with _ | ds
    · refine absurd ?_ hdefault
      rw [UrlParts.port_number, hp]
      rfl
    · obtain ⟨hne, hds, hle⟩ := hport ds hp
      have hnumber : u.port_number = UInt16.ofNat (decimal ds) := by
        rw [UrlParts.port_number, hp]
        rfl
      rw [hnumber, port_digits_text hne hds hle]
      rfl

/-- The path, and the room that is asked for it. -/
theorem path_eq (hsuffix : ∀ c ∈ u.suffix.head?, c = 47 ∨ c = 63 ∨ c = 35) (path_src : Bytes)
    (hsrc : path_src = if u.suffix = [] then [47] else u.suffix) (bare : Bool)
    (hbare : bare = (path_src.head? == some 63 || path_src.head? == some 35)) :
    (if path_src = [] then [47] else if bare = true then 47 :: path_src else path_src) = u.path ∧
      path_src.length + (if bare = true then 1 else 0) = u.path.length := by
  unfold UrlParts.path
  rcases hs : u.suffix with _ | ⟨c, rest⟩
  · rw [hs, if_pos rfl] at hsrc
    subst hsrc hbare
    exact ⟨rfl, rfl⟩
  · rw [hs, if_neg (List.cons_ne_nil _ _)] at hsrc
    subst hsrc
    rcases hsuffix c (by rw [hs]; rfl) with rfl | rfl | rfl
    · subst hbare
      exact ⟨rfl, rfl⟩
    · subst hbare
      exact ⟨rfl, rfl⟩
    · subst hbare
      exact ⟨rfl, rfl⟩

theorem finish_parse_iff (hport : ∀ ds ∈ u.port, ds ≠ [] ∧ IsDigits ds ∧ decimal ds ≤ 65535)
    (hsuffix : ∀ c ∈ u.suffix.head?, c = 47 ∨ c = 63 ∨ c = 35) (r : ParsedHttpUrl) :
    finish_parse u.host u.port_number (if u.suffix = [] then [47] else u.suffix) u.https = some r ↔
      (1 ≤ u.host.length ∧ u.host.length ≤ 95) ∧ u.path.length ≤ 159 ∧ u.host_header.length ≤ 95 ∧ r = u.parsed := by
  generalize hsrc : (if u.suffix = [] then ([47] : Bytes) else u.suffix) = path_src
  obtain ⟨hpath, hroom⟩ := path_eq hsuffix path_src hsrc.symm _ rfl
  have hheader := host_header_eq hport
  have hdefault : (if u.https = true then (443 : UInt16) else 80) = u.default_port := rfl
  unfold finish_parse
  dsimp only
  rw [hroom, hdefault, hheader, hpath]
  have hpos : 1 ≤ u.host.length ↔ u.host ≠ [] := List.length_pos_iff
  by_cases hbad : u.host = [] ∨ 95 < u.host.length ∨ 159 < u.path.length
  · rw [if_pos hbad]
    constructor
    · intro h
      cases h
    · rintro ⟨⟨hone, hlong⟩, hpath, -, -⟩
      rw [hpos] at hone
      rcases hbad with hnil | hbad
      · exact absurd hnil hone
      · omega
  · rw [if_neg hbad]
    rw [not_or] at hbad
    have hhost : ¬u.port_number ≠ u.default_port → u.host_header = u.host := fun h => by
      rw [← hheader, if_neg h]
    by_cases hlong : u.port_number ≠ u.default_port ∧ 95 < u.host_header.length
    · rw [if_pos hlong]
      constructor
      · intro h
        cases h
      · rintro ⟨-, -, hheader, -⟩
        omega
    · rw [if_neg hlong, Option.some.injEq, hpos]
      have hfits : u.host_header.length ≤ 95 := by
        by_cases hp : u.port_number ≠ u.default_port
        · exact Nat.not_lt.mp fun h => hlong ⟨hp, h⟩
        · rw [hhost hp]
          omega
      constructor
      · rintro rfl
        exact ⟨⟨hbad.1, by omega⟩, by omega, hfits, rfl⟩
      · rintro ⟨-, -, -, rfl⟩
        rfl

end Finish

/-! ## URLs -/

theorem parse_fetch_url_split {url : Bytes} {r : ParsedHttpUrl} :
    parse_fetch_url url = some r ↔ ∃ (https : Bool) (scheme rest : Bytes), trim url = scheme ++ rest ∧
      scheme.map lowerAscii = (if https then ascii "https://" else ascii "http://") ∧
      parse_host_port_path rest (if https then 443 else 80) https = some r := by
  have hsecure : (ascii "https://").map lowerAscii = ascii "https://" := by decide
  have hplain : (ascii "http://").map lowerAscii = ascii "http://" := by decide
  -- no text begins with both schemes
  have hnone : ∀ {scheme rest : Bytes}, scheme.map lowerAscii = ascii "http://" →
      starts_with_https (scheme ++ rest) = none := by
    intro scheme rest hs
    rcases hhttps : starts_with_https (scheme ++ rest) with _ | rest'
    · rfl
    · obtain ⟨s, hurl, hs'⟩ := (starts_with_scheme_iff hsecure).mp hhttps
      have hboth : ((scheme ++ rest).map lowerAscii)[4]? = ((s ++ rest').map lowerAscii)[4]? := by rw [hurl]
      rw [List.map_append, List.map_append, hs, hs'] at hboth
      cases hboth
  unfold parse_fetch_url
  dsimp only
  constructor
  · intro h
    rcases hhttps : starts_with_https (trim url) with _ | rest
    · rw [hhttps] at h
      rcases hhttp : starts_with_http (trim url) with _ | rest
      · rw [hhttp] at h
        cases h
      · rw [hhttp] at h
        obtain ⟨s, hurl, hs⟩ := (starts_with_scheme_iff hplain).mp hhttp
        exact ⟨false, s, rest, hurl, hs, h⟩
    · rw [hhttps] at h
      obtain ⟨s, hurl, hs⟩ := (starts_with_scheme_iff hsecure).mp hhttps
      exact ⟨true, s, rest, hurl, hs, h⟩
  · rintro ⟨https, s, rest, hurl, hs, h⟩
    rw [hurl]
    cases https with
    | true =>
      have hhttps : starts_with_https (s ++ rest) = some rest := (starts_with_scheme_iff hsecure).mpr ⟨s, rfl, hs⟩
      rw [hhttps]
      exact h
    | false =>
      have hhttp : starts_with_http (s ++ rest) = some rest := (starts_with_scheme_iff hplain).mpr ⟨s, rfl, hs⟩
      rw [hnone hs, hhttp]
      exact h

theorem describes_iff (u : UrlText) (r : ParsedHttpUrl) : u.Describes r ↔ r = u.parsed := by
  constructor
  · rintro ⟨hhttps, hport, hhost, hheader, hpath, hquad, hname⟩
    have hip : r.needs_dns = decide ((parse_ipv4_host u.host).getD .zero = .zero) ∧
        r.ip = (parse_ipv4_host u.host).getD .zero := by
      rcases hparse : parse_ipv4_host u.host with _ | q
      · refine hname ?_
        intro q hq
        rw [parse_ipv4_host_iff.mpr hq] at hparse
        cases hparse
      · by_cases hzero : q = .zero
        · subst hzero
          refine hname ?_
          intro q' hq'
          rw [parse_ipv4_host_iff.mpr hq', Option.some.injEq] at hparse
          exact hparse
        · obtain ⟨hdns, hip⟩ := hquad q (parse_ipv4_host_iff.mp hparse) hzero
          exact ⟨by rw [hdns]; simp [hzero], hip⟩
    rcases r with ⟨https, port, ip, needs_dns, host, header, path⟩
    dsimp only at hhttps hport hhost hheader hpath hip
    rw [hhttps, hport, hhost, hheader, hpath, hip.1, hip.2]
    rfl
  · rintro rfl
    refine ⟨rfl, rfl, rfl, rfl, rfl, ?_, ?_⟩
    · intro q hq hzero
      unfold UrlParts.parsed
      rw [parse_ipv4_host_iff.mpr hq]
      exact ⟨by simp [hzero], rfl⟩
    · intro hall
      unfold UrlParts.parsed
      rcases hparse : parse_ipv4_host u.host with _ | q
      · exact ⟨rfl, rfl⟩
      · rw [hall q (parse_ipv4_host_iff.mp hparse)]
        exact ⟨rfl, rfl⟩

/-- No scheme begins with a space. -/
theorem UrlText.scheme_head (u : UrlText) : (u.scheme ++ (u.host ++ (u.port_text ++ u.suffix))).head? ≠ some 32 := by
  have hletters := u.scheme_letters
  rcases hs : u.scheme with _ | ⟨c, s⟩
  · rw [hs] at hletters
    rcases hsecure : u.https with _ | _
    · rw [hsecure] at hletters
      cases hletters
    · rw [hsecure] at hletters
      cases hletters
  · intro hspace
    obtain rfl : c = 32 := by simpa using hspace
    rw [hs] at hletters
    rcases hsecure : u.https with _ | _
    · rw [hsecure] at hletters
      cases hletters
    · rw [hsecure] at hletters
      cases hletters

/-- No URL ends in a space. -/
theorem UrlText.wire_end (u : UrlText) : (u.scheme ++ (u.host ++ (u.port_text ++ u.suffix))).getLast? ≠ some 32 := by
  have hhost : u.host ≠ [] := List.length_pos_iff.mp u.host_length.1
  by_cases hsuffix : u.suffix = []
  · rcases hport : u.port with _ | ds
    · have htext : u.port_text = [] := by rw [UrlParts.port_text, hport]; rfl
      rw [htext, hsuffix, List.nil_append, List.append_nil, List.getLast?_append_of_ne_nil _ hhost]
      exact u.host_end hport hsuffix
    · obtain ⟨hne, hds, -⟩ := u.port_digits ds hport
      have htext : u.port_text = [58] ++ ds := by rw [UrlParts.port_text, hport]; rfl
      rw [htext, hsuffix, List.append_nil, ← List.append_assoc, ← List.append_assoc,
        List.getLast?_append_of_ne_nil _ hne]
      intro hspace
      exact absurd (hds 32 (List.mem_of_getLast? hspace)).1 (by decide)
  · rw [← List.append_assoc, ← List.append_assoc, List.getLast?_append_of_ne_nil _ hsuffix]
    exact u.suffix_end

/-- **The parser inverts the writer.** It accepts a text if and only if it is put together from
the parts of a `UrlText`, and says of it what these parts say. -/
theorem parse_fetch_url_iff (url : Bytes) (r : ParsedHttpUrl) :
    parse_fetch_url url = some r ↔ ∃ u : UrlText, u.wire = url ∧ u.Describes r := by
  rw [parse_fetch_url_split]
  constructor
  · rintro ⟨https, scheme, rest, htrim, hscheme, h⟩
    obtain ⟨host, port, suffix, hrest, hfree, hport, hsuffix, hfinish⟩ := parse_host_port_path_iff.mp h
    obtain ⟨a, b, hurl⟩ := trim_split url
    obtain ⟨hlen, hpath, hheader, hr⟩ :=
      (finish_parse_iff (u := ⟨a, https, scheme, host, port, suffix, b⟩) hport hsuffix r).mp hfinish
    have hlast := trim_last url
    rw [htrim, hrest] at hlast
    refine ⟨{
      toUrlParts := ⟨a, https, scheme, host, port, suffix, b⟩
      scheme_letters := hscheme
      host_length := hlen
      host_free := hfree
      host_end := ?_
      port_digits := hport
      suffix_start := hsuffix
      suffix_end := ?_
      path_length := hpath
      header_length := hheader }, ?_, (describes_iff _ _).mpr hr⟩
    · rintro rfl rfl
      have hne : host ≠ [] := List.length_pos_iff.mp hlen.1
      rw [Option.elim_none, List.nil_append, List.append_nil, List.getLast?_append_of_ne_nil _ hne] at hlast
      exact hlast
    · by_cases hne : suffix = []
      · simp [hne]
      · rw [← List.append_assoc, ← List.append_assoc, List.getLast?_append_of_ne_nil _ hne] at hlast
        exact hlast
    · rw [hrest] at htrim
      rw [hurl, htrim]
      rfl
  · rintro ⟨u, rfl, hu⟩
    have hr := (describes_iff u r).mp hu
    refine ⟨u.https, u.scheme, u.host ++ (u.port_text ++ u.suffix), ?_, u.scheme_letters, ?_⟩
    · exact trim_spaces u.lead u.trail u.scheme_head u.wire_end
    · exact parse_host_port_path_iff.mpr ⟨u.host, u.port, u.suffix, rfl, u.host_free, u.port_digits, u.suffix_start,
        (finish_parse_iff u.port_digits u.suffix_start r).mpr ⟨u.host_length, u.path_length, u.header_length, hr⟩⟩

end EveOS.Net
