/-
One well-formed request per fetch.

`build_http_get` puts the path and the host of a URL between the literals of a
request, and nothing on the way from the URL bar looks at the bytes of either.
Both always fit the 512-byte buffer. The result is one request exactly when the
URL behind its scheme is clean: no CR or LF in its authority, and no space,
control byte or `#` in what follows the authority.

A request is read back here the way a server does, as the lines that CRLF cuts.
-/
import EveOS.Lib.Lines
import EveOS.Net.Url
import EveOS.Net.Wire

set_option autoImplicit false

namespace EveOS.Net

/-! ## What a request is -/

/-- A byte that may stand in a request target: no space, no control byte and no
`#`. -/
def target_byte (b : UInt8) : Bool := 32 < b && b ≠ 127 && b ≠ 35

/-- The bytes are one GET request for `target` at `host`: seven lines, the last
two of them empty, the blank line and what follows it. -/
structure OneRequest (req target host : Bytes) : Prop where
  lines : crlfLines req =
    [ascii "GET " ++ target ++ ascii " HTTP/1.0", ascii "Host: " ++ host,
      ascii "User-Agent: EveOS/0.1", ascii "Accept-Encoding: gzip, identity",
      ascii "Connection: close", [], []]
  two_spaces : (ascii "GET " ++ target ++ ascii " HTTP/1.0").count 32 = 2
  slash : target.head? = some 47
  target_ok : ∀ b ∈ target, target_byte b = true
  host_ok : 13 ∉ host ∧ 10 ∉ host

/-- The bytes are one well-formed GET request. -/
def WellFormedGet (req : Bytes) : Prop := ∃ target host, OneRequest req target host

/-! ## The condition -/

/-- The URL behind its scheme. -/
def after_scheme (url : Bytes) : Option Bytes :=
  (starts_with_https (trim url)).or (starts_with_http (trim url))

/-- No CR or LF in the authority, and no space, control byte or `#` behind it. -/
def clean_rest (rest : Bytes) : Bool :=
  (rest.takeWhile (fun b => !ends_host b)).all (fun b => b ≠ 13 && b ≠ 10)
    && (rest.dropWhile (fun b => !ends_host b)).all target_byte

def clean_url (url : Bytes) : Bool := (after_scheme url).all clean_rest

/-! ## The URL -/

theorem port_digits_clean (port : UInt16) : ∀ b ∈ port_digits port, b ≠ 13 ∧ b ≠ 10 := by
  intro b hb
  obtain ⟨c, hc, rfl⟩ := List.mem_map.mp hb
  have hdigit := Nat.isDigit_of_mem_toDigits (by decide) (by decide) hc
  simp only [Char.isDigit, Bool.and_eq_true, decide_eq_true_eq] at hdigit
  have hlo : 48 ≤ c.toNat := hdigit.1
  have hhi : c.toNat ≤ 57 := hdigit.2
  refine ⟨?_, ?_⟩
  · intro h
    have := congrArg UInt8.toNat h
    simp only [UInt8.toNat_ofNat', UInt8.reduceToNat] at this
    omega
  · intro h
    have := congrArg UInt8.toNat h
    simp only [UInt8.toNat_ofNat', UInt8.reduceToNat] at this
    omega

/-- A port text that is read has digits only. -/
theorem parse_port_clean {text : Bytes} {p : Nat} {port : UInt16}
    (h : parse_port_from p text = some port) : ∀ b ∈ text, b ≠ 13 ∧ b ≠ 10 := by
  induction text generalizing p with
  | nil => simp
  | cons c rest ih =>
    simp only [parse_port_from] at h
    split_ifs at h with hdigit
    simp only [Bool.not_eq_true', Bool.not_eq_false] at hdigit
    intro b hb
    rcases List.mem_cons.mp hb with rfl | hb
    · constructor
      · rintro rfl
        exact absurd hdigit (by decide)
      · rintro rfl
        exact absurd hdigit (by decide)
    · exact ih h b hb

/-- The path text of a request for what follows the authority in the URL. -/
def path_of (src : Bytes) : Bytes :=
  if src.head? = some 47 then src else 47 :: src

/-- What the parser makes of a URL with the given authority and what follows
it. -/
structure PiecesOf (p : ParsedHttpUrl) (authority src : Bytes) : Prop where
  path_len : p.path.length ≤ 159
  host_len : p.host_header.length ≤ 95
  path : p.path = path_of src
  host : (13 ∉ p.host_header ∧ 10 ∉ p.host_header) ↔
    authority.all (fun b => b ≠ 13 && b ≠ 10) = true

/-- A path text that begins with `?` or `#` gets a `/` in front. -/
def bare_path (path_src : Bytes) : Bool := path_src.head? == some 63 || path_src.head? == some 35

/-- All that a success of `finish_parse` says about the path and the host. -/
theorem finish_parse_spec {host path_src : Bytes} {port : UInt16} {https : Bool} {p : ParsedHttpUrl}
    (h : finish_parse host port path_src https = some p) :
    p.path = (if path_src = [] then [47] else if bare_path path_src then 47 :: path_src else path_src)
    ∧ path_src.length + (if bare_path path_src then 1 else 0) ≤ 159
    ∧ (p.host_header = host ∨ p.host_header = host ++ [58] ++ port_digits port)
    ∧ p.host_header.length ≤ 95 := by
  unfold finish_parse at h
  dsimp only at h
  rw [← bare_path] at h
  by_cases hbad : host = [] ∨ 95 < host.length
      ∨ 159 < path_src.length + (if bare_path path_src then 1 else 0)
  · rw [if_pos hbad] at h
    cases h
  · rw [if_neg hbad] at h
    simp only [not_or, Nat.not_lt] at hbad
    by_cases hport : port ≠ (if https = true then 443 else 80)
    · rw [if_pos hport] at h
      by_cases hlong : port ≠ (if https = true then 443 else 80)
          ∧ 95 < (host ++ [58] ++ port_digits port).length
      · rw [if_pos hlong] at h
        cases h
      · rw [if_neg hlong] at h
        obtain rfl := Option.some.inj h
        exact ⟨rfl, hbad.2.2, .inr rfl, Nat.le_of_not_lt fun hc => hlong ⟨hport, hc⟩⟩
    · rw [if_neg hport, if_neg (fun hc => hport hc.1)] at h
      obtain rfl := Option.some.inj h
      exact ⟨rfl, hbad.2.2, .inl rfl, hbad.2.1⟩

/-- `finish_parse`, called with what follows the authority, or with `/` for
nothing. -/
theorem finish_parse_pieces {host src authority : Bytes} {port : UInt16} {https : Bool}
    {p : ParsedHttpUrl}
    (h : finish_parse host port (if src = [] then [47] else src) https = some p)
    (hsrc : ∀ c ∈ src.head?, ends_host c = true)
    (hauth : ∀ b, b = 13 ∨ b = 10 → (b ∈ host ↔ b ∈ authority)) : PiecesOf p authority src := by
  obtain ⟨hpath, hlen, hhost, hhlen⟩ := finish_parse_spec h
  have hof : p.path = path_of src ∧ p.path.length ≤ 159 := by
    cases src with
    | nil => exact ⟨hpath, by rw [hpath]; decide⟩
    | cons c tl =>
      have hc := hsrc c rfl
      simp only [List.cons_ne_nil, if_false] at hpath hlen
      rw [hpath]
      simp only [ends_host, Bool.or_eq_true, beq_iff_eq] at hc
      rcases hc with (rfl | rfl) | rfl <;> simp_all [bare_path, path_of]
  refine ⟨hof.2, hhlen, hof.1, ?_⟩
  have hmem : ∀ b, b = 13 ∨ b = 10 → (b ∈ p.host_header ↔ b ∈ authority) := by
    intro b hb
    rw [← hauth b hb]
    rcases hhost with hh | hh
    · rw [hh]
    · rw [hh, List.mem_append, List.mem_append, List.mem_singleton]
      constructor
      · rintro ((hin | rfl) | hin)
        · exact hin
        · exact absurd hb (by decide)
        · have := port_digits_clean port b hin
          exact absurd hb (not_or.mpr this)
      · exact fun hin => .inl (.inl hin)
  rw [hmem 13 (.inl rfl), hmem 10 (.inr rfl), List.all_eq_true]
  constructor
  · rintro ⟨hcr, hlf⟩ b hb
    simp only [ne_eq, decide_not, Bool.and_eq_true, Bool.not_eq_true', decide_eq_false_iff_not]
    exact ⟨fun he => hcr (he ▸ hb), fun he => hlf (he ▸ hb)⟩
  · intro hall
    refine ⟨fun hb => ?_, fun hb => ?_⟩
    · exact absurd (hall _ hb) (by decide)
    · exact absurd (hall _ hb) (by decide)

/-- Where the authority ends. -/
theorem split_authority {a src : Bytes} (ha : ∀ b ∈ a, ends_host b = false)
    (hsrc : ∀ c ∈ src.head?, ends_host c = true) :
    (a ++ src).takeWhile (fun b => !ends_host b) = a
    ∧ (a ++ src).dropWhile (fun b => !ends_host b) = src := by
  have ha' : ∀ b ∈ a, (fun b => !ends_host b) b = true := by
    intro b hb
    simp [ha b hb]
  rw [List.takeWhile_append_of_pos ha', List.dropWhile_append_of_pos ha']
  cases src with
  | nil => simp
  | cons c tl =>
    have hc := hsrc c rfl
    simp [hc]

theorem drop_takeWhile (q : UInt8 → Bool) (bs : Bytes) :
    bs.drop (bs.takeWhile q).length = bs.dropWhile q := by
  have h := congrArg (List.drop (bs.takeWhile q).length)
    (List.takeWhile_append_dropWhile (p := q) (l := bs))
  rw [List.drop_left] at h
  exact h.symm

/-- The text up to the first byte that is not `q`, and what follows it. -/
theorem takeWhile_split (q : UInt8 → Bool) (bs : Bytes) :
    (∀ b ∈ bs.takeWhile q, q b = true)
    ∧ bs = bs.takeWhile q ++ bs.drop (bs.takeWhile q).length
    ∧ ∀ c ∈ (bs.drop (bs.takeWhile q).length).head?, q c = false := by
  rw [drop_takeWhile]
  refine ⟨fun b hb => List.mem_takeWhile_imp hb, List.takeWhile_append_dropWhile.symm, ?_⟩
  intro c hc
  have hnot := List.head?_dropWhile_not q bs
  rw [Option.mem_def.mp hc] at hnot
  exact hnot

/-- **The pieces of an accepted URL.** -/
theorem parse_host_port_path_pieces {rest : Bytes} {default_port : UInt16} {https : Bool}
    {p : ParsedHttpUrl} (h : parse_host_port_path rest default_port https = some p) :
    PiecesOf p (rest.takeWhile fun b => !ends_host b) (rest.dropWhile fun b => !ends_host b) := by
  obtain ⟨hhost, hsplit, hend⟩ := takeWhile_split (fun b => !ends_host b && b != 58) rest
  unfold parse_host_port_path at h
  dsimp only at h
  generalize rest.takeWhile (fun b => !ends_host b && b != 58) = host at h hhost hsplit hend
  have hhost' : ∀ b ∈ host, ends_host b = false := by
    intro b hb
    have := hhost b hb
    simp only [Bool.and_eq_true, Bool.not_eq_true'] at this
    exact this.1
  have hsame : ∀ b, b = 13 ∨ b = 10 → (b ∈ host ↔ b ∈ host) := fun _ _ => Iff.rfl
  cases hd : rest.drop host.length with
  | nil =>
    -- nothing follows the host
    rw [hd] at h hsplit
    obtain ⟨htake, hdrop⟩ := @split_authority _ [] hhost' (by simp)
    rw [← hsplit] at htake hdrop
    rw [htake, hdrop]
    exact finish_parse_pieces h (by simp) hsame
  | cons c tail =>
    rw [hd] at h hsplit hend
    dsimp only at h
    by_cases hc : c = 58
    · -- a port
      rw [if_pos hc] at h
      obtain ⟨hport, hpsplit, hpend⟩ := takeWhile_split (fun b => !ends_host b) tail
      generalize tail.takeWhile (fun b => !ends_host b) = port_text at h hport hpsplit hpend
      generalize tail.drop port_text.length = after at h hpsplit hpend
      by_cases hempty : port_text = []
      · rw [if_pos hempty] at h
        cases h
      rw [if_neg hempty] at h
      cases hp : parse_port_from 0 port_text with
      | none =>
        rw [hp] at h
        cases h
      | some port =>
        rw [hp] at h
        have hauth : ∀ b ∈ host ++ c :: port_text, ends_host b = false := by
          intro b hb
          rw [List.mem_append, List.mem_cons] at hb
          rcases hb with hb | rfl | hb
          · exact hhost' b hb
          · rw [hc]
            decide
          · simpa using hport b hb
        have hafter : ∀ c ∈ after.head?, ends_host c = true := by
          intro c hc
          simpa using hpend c hc
        obtain ⟨htake, hdrop⟩ := split_authority hauth hafter
        rw [List.append_assoc, List.cons_append, ← hpsplit, ← hsplit] at htake hdrop
        rw [htake, hdrop]
        refine finish_parse_pieces h hafter ?_
        intro b hb
        rw [List.mem_append, List.mem_cons]
        constructor
        · exact .inl
        · rintro (hin | rfl | hin)
          · exact hin
          · rw [hc] at hb
            exact absurd hb (by decide)
          · exact absurd hb (not_or.mpr (parse_port_clean hp b hin))
    · -- the path follows the host
      rw [if_neg hc] at h
      have hcend : ends_host c = true := by
        have := hend c rfl
        simpa [hc] using this
      have hsrc : ∀ b ∈ (c :: tail).head?, ends_host b = true := by
        intro b hb
        obtain rfl : c = b := Option.some.inj hb
        exact hcend
      obtain ⟨htake, hdrop⟩ := split_authority hhost' hsrc
      rw [← hsplit] at htake hdrop
      rw [htake, hdrop]
      exact finish_parse_pieces (by rw [if_neg (List.cons_ne_nil c tail)]; exact h) hsrc hsame

theorem parse_fetch_url_pieces {url : Bytes} {p : ParsedHttpUrl} (h : parse_fetch_url url = some p) :
    ∃ rest, after_scheme url = some rest
      ∧ PiecesOf p (rest.takeWhile fun b => !ends_host b) (rest.dropWhile fun b => !ends_host b) := by
  unfold parse_fetch_url at h
  unfold after_scheme
  dsimp only at h
  cases hs : starts_with_https (trim url) with
  | some rest =>
    rw [hs] at h
    exact ⟨rest, rfl, parse_host_port_path_pieces h⟩
  | none =>
    rw [hs] at h
    cases hp : starts_with_http (trim url) with
    | none =>
      rw [hp] at h
      cases h
    | some rest =>
      rw [hp] at h
      exact ⟨rest, rfl, parse_host_port_path_pieces h⟩

/-! ## The request -/

/-- The bytes of the request. -/
def get_request (path host : Bytes) : Bytes := GET_P1 ++ path ++ GET_P2 ++ host ++ GET_P3

/-- **The request always fits.** -/
theorem build_http_get_fits {p : ParsedHttpUrl} {authority src : Bytes}
    (h : PiecesOf p authority src) :
    build_http_get p.path p.host_header 512 = some (get_request p.path p.host_header) := by
  have hp := h.path_len
  have hh := h.host_len
  have h1 : GET_P1.length = 4 := by decide
  have h2 : GET_P2.length = 17 := by decide
  have h3 : GET_P3.length = 79 := by decide
  unfold build_http_get
  rw [if_neg (by omega)]
  rfl

/-- The lines of a request, whatever the path and the host are. -/
theorem get_request_lines (path host : Bytes) :
    crlfLines (get_request path host) =
      crlfLines (ascii "GET " ++ path ++ ascii " HTTP/1.0") ++ crlfLines (ascii "Host: " ++ host)
        ++ [ascii "User-Agent: EveOS/0.1", ascii "Accept-Encoding: gzip, identity",
          ascii "Connection: close", [], []] := by
  have hsplit : get_request path host =
      (ascii "GET " ++ path ++ ascii " HTTP/1.0") ++ 13 :: 10 ::
        ((ascii "Host: " ++ host) ++ 13 :: 10 ::
          (ascii "User-Agent: EveOS/0.1\r\nAccept-Encoding: gzip, identity\r\nConnection: close\r\n\r\n")) := by
    have h2 : GET_P2 = ascii " HTTP/1.0" ++ 13 :: 10 :: ascii "Host: " := by decide
    have h3 : GET_P3 = 13 :: 10 ::
        ascii "User-Agent: EveOS/0.1\r\nAccept-Encoding: gzip, identity\r\nConnection: close\r\n\r\n" := by
      decide
    rw [get_request, GET_P1, h2, h3]
    simp only [List.append_assoc, List.cons_append]
  have hrest : crlfLines
      (ascii "User-Agent: EveOS/0.1\r\nAccept-Encoding: gzip, identity\r\nConnection: close\r\n\r\n")
      = [ascii "User-Agent: EveOS/0.1", ascii "Accept-Encoding: gzip, identity",
          ascii "Connection: close", [], []] := by
    decide +kernel
  rw [hsplit, crlfLines_append, crlfLines_append, hrest]
  exact (List.append_assoc _ _ _).symm

/-- A path and a host without the bytes that do harm make a request. -/
theorem oneRequest_of_clean {path host : Bytes} (hslash : path.head? = some 47)
    (hpath : ∀ b ∈ path, target_byte b = true) (hhost : 13 ∉ host ∧ 10 ∉ host) :
    OneRequest (get_request path host) path host := by
  have hno : ∀ b, target_byte b = false → b ∉ path := by
    intro b hb hin
    rw [hpath b hin] at hb
    cases hb
  refine ⟨?_, ?_, hslash, hpath, hhost⟩
  · have h1 : 13 ∉ ascii "GET " ++ path ++ ascii " HTTP/1.0" := by
      rw [List.mem_append, List.mem_append, not_or, not_or]
      exact ⟨⟨by decide, hno 13 (by decide)⟩, by decide⟩
    have h2 : 13 ∉ ascii "Host: " ++ host := by
      rw [List.mem_append, not_or]
      exact ⟨by decide, hhost.1⟩
    rw [get_request_lines, crlfLines_of_no_cr h1, crlfLines_of_no_cr h2]
    rfl
  · rw [List.count_append, List.count_append, List.count_eq_zero.mpr (hno 32 (by decide))]
    decide

/-- A request has no other path and no other host than those it was built
from. -/
theorem clean_of_oneRequest {path host target name : Bytes}
    (h : OneRequest (get_request path host) target name) : path = target ∧ host = name := by
  have hlines := h.lines
  rw [get_request_lines] at hlines
  -- seven lines leave one for the path and one for the host
  obtain ⟨l1, more1, h1⟩ := List.exists_cons_of_ne_nil
    (crlfLines_ne_nil (ascii "GET " ++ path ++ ascii " HTTP/1.0"))
  obtain ⟨l2, more2, h2⟩ := List.exists_cons_of_ne_nil (crlfLines_ne_nil (ascii "Host: " ++ host))
  have hlen := congrArg List.length hlines
  rw [h1, h2] at hlines hlen
  simp only [List.length_append, List.length_cons, List.length_nil] at hlen
  obtain rfl : more1 = [] := List.eq_nil_of_length_eq_zero (by omega)
  obtain rfl : more2 = [] := List.eq_nil_of_length_eq_zero (by omega)
  simp only [List.cons_append, List.nil_append, List.cons.injEq] at hlines
  have hpath := (eq_of_crlfLines_eq_singleton h1).trans hlines.1
  have hhost := (eq_of_crlfLines_eq_singleton h2).trans hlines.2.1
  rw [List.append_assoc, List.append_assoc] at hpath
  exact ⟨List.append_cancel_right (List.append_cancel_left hpath), List.append_cancel_left hhost⟩

/-- A path text is as clean as what the URL gave for it. -/
theorem path_of_clean (src : Bytes) :
    (path_of src).head? = some 47 ∧ (path_of src).all target_byte = src.all target_byte := by
  unfold path_of
  split_ifs with h
  · exact ⟨h, rfl⟩
  · refine ⟨rfl, ?_⟩
    rw [List.all_cons, show target_byte 47 = true from rfl, Bool.true_and]

/-- **One well-formed request per fetch**, exactly when the URL is clean. -/
theorem one_request_iff_clean_url {url : Bytes} {p : ParsedHttpUrl}
    (h : parse_fetch_url url = some p) :
    (∃ req, build_http_get p.path p.host_header 512 = some req ∧ WellFormedGet req)
      ↔ clean_url url = true := by
  obtain ⟨rest, hrest, hp⟩ := parse_fetch_url_pieces h
  have hpath := path_of_clean (rest.dropWhile fun b => !ends_host b)
  rw [← hp.path] at hpath
  rw [build_http_get_fits hp, clean_url, hrest, Option.all_some, clean_rest, Bool.and_eq_true,
    ← hp.host, ← hpath.2, List.all_eq_true]
  constructor
  · rintro ⟨req, hreq, target, name, hone⟩
    obtain rfl := Option.some.inj hreq
    obtain ⟨rfl, rfl⟩ := clean_of_oneRequest hone
    exact ⟨hone.host_ok, hone.target_ok⟩
  · rintro ⟨hhost, htarget⟩
    exact ⟨_, rfl, p.path, p.host_header, oneRequest_of_clean hpath.1 htarget hhost⟩

/-! ### Concrete URLs -/

/-- A URL with a port and a query. -/
theorem query_url_one_request :
    ∃ p, parse_fetch_url (ascii " http://a.example:8080?q=1") = some p
      ∧ ∃ req, build_http_get p.path p.host_header 512 = some req ∧ WellFormedGet req := by
  refine ⟨_, by rfl, ?_⟩
  exact (@one_request_iff_clean_url (ascii " http://a.example:8080?q=1") _ (by rfl)).mpr
    (by decide)

/-- A fragment is sent as a part of the target. -/
theorem fragment_url_no_request :
    ∃ p, parse_fetch_url (ascii "http://a.example/page#top") = some p
      ∧ ¬ ∃ req, build_http_get p.path p.host_header 512 = some req ∧ WellFormedGet req := by
  refine ⟨_, by rfl, ?_⟩
  rintro ⟨req, hreq, target, name, hone⟩
  obtain rfl : get_request (ascii "/page#top") (ascii "a.example") = req := Option.some.inj hreq
  obtain ⟨rfl, -⟩ := clean_of_oneRequest hone
  exact absurd (hone.target_ok 35 (by decide)) (by decide)

end EveOS.Net
