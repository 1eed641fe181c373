/-
Tags, entities and characters: the parts of `kernel/src/html.rs` that read a
piece of the document, and the UTF-8 checks of `kernel/src/emoji_glyph.rs`.
-/
import EveOS.Html.Css

set_option autoImplicit false

namespace EveOS.Html

/-! ## Attributes -/

/-- The value that stands at `j`: quoted, or up to a space or `>`. -/
def attr_value_at (tag : Bytes) (j : Nat) : Option Bytes := do
  let q ← tag[j]?
  if q = 34 ∨ q = 39 then slice? tag (j + 1) (scan (· != q) tag (j + 1))
  else slice? tag j (scan (fun c => !(is_ws c || c == 62)) tag j)

def extract_attr_value (tag key : Bytes) : Option (Option Bytes) :=
  match find_sub_ci tag key with
  | none => some none
  | some pos =>
    let j := skip_ws tag (pos + key.length)
    if tag[j]? ≠ some 61 then some none
    else
      let j := skip_ws tag (j + 1)
      if tag.length ≤ j then some none else (attr_value_at tag j).map some

def trim_ascii_attr (val : Bytes) : Bytes := (val.dropWhile is_ws).rdropWhile is_ws

/-- `type=` values that carry data, by how they begin. -/
def DATA_TYPES : List Bytes :=
  [ascii "application/ld+json", ascii "application/json", ascii "application/importmap+json",
    ascii "application/speculationrules+json", ascii "text/plain", ascii "text/markdown",
    ascii "text/template", ascii "text/css", ascii "text/html", ascii "application/graphql"]

/-- The tests of `script_mime_is_non_javascript` on a trimmed value. -/
def mime_is_data (t : Bytes) : Bool :=
  if t = [] then false
  else if starts_ci t 0 (ascii "application/javascript") || starts_ci t 0 (ascii "text/javascript") then
    false
  else if DATA_TYPES.any (starts_ci t 0) then true
  else
    (starts_ci t 0 (ascii "application/") || starts_ci t 0 (ascii "text/"))
      && (find_sub_ci t (ascii "+json")).isSome

def script_mime_is_non_javascript (tag : Bytes) : Option Bool := do
  match ← extract_attr_value tag (ascii "type") with
  | none => return false
  | some typ => return mime_is_data (trim_ascii_attr typ)

def tag_href_value_dangerous (tag : Bytes) : Option Bool :=
  match find_sub_ci tag (ascii "href") with
  | none => some false
  | some hi =>
    let after := hi + 4
    if (tag[after]?).any is_name_byte then some false
    else
      let j := skip_ws tag after
      if tag[j]? ≠ some 61 then some false
      else
        let j := skip_ws tag (j + 1)
        if tag.length ≤ j then some false
        else do
          let val ← attr_value_at tag j
          return starts_ci val 0 (ascii "javascript:") || starts_ci val 0 (ascii "vbscript:")
            || starts_ci val 0 (ascii "data:")

/-! ## What a document is -/

/-- The patterns of `looks_like_html`. -/
def HTML_MARKS : List Bytes :=
  [ascii "<!doctype html", ascii "<html", ascii "<head", ascii "<body", ascii "<div",
    ascii "<section", ascii "<article", ascii "<main", ascii "<canvas", ascii "<p>", ascii "<br"]

/-- One of the patterns stands in the first 512 bytes. -/
def looks_like_html (raw : Bytes) : Bool :=
  HTML_MARKS.any fun mark => (find_sub_ci (raw.take 512) mark).isSome

/-! ## Characters -/

/-- The digits of a numeric entity, in base 16 or 10. -/
def entity_digit (base : Nat) (c : UInt8) : Option Nat :=
  if is_digit c then some (c - 48).toNat
  else if base = 16 then (hex_val c).map UInt8.toNat
  else none

/-- The value of the digits, when it fits in a `u32`. -/
def entity_value (base : Nat) (ds : Bytes) : Option Nat :=
  ds.foldlM (fun v c => (entity_digit base c).bind fun d =>
    if v * base + d < 4294967296 then some (v * base + d) else none) 0

/-- The code point and the length of a numeric entity at the front of `s`. -/
def parse_numeric_entity (s : Bytes) : Option (Nat × Nat) :=
  if s.length < 4 ∨ s[0]? ≠ some 38 ∨ s[1]? ≠ some 35 then none
  else
    let hex := s[2]? = some 120 ∨ s[2]? = some 88
    let base := if hex then 16 else 10
    let start := if hex then 3 else 2
    let ds := (s.drop start).takeWhile fun c => (entity_digit base c).isSome
    let j := start + ds.length
    if s[j]? ≠ some 59 ∨ ds = [] then none
    else
      match entity_value base ds with
      | none => none
      | some v => if 0x10FFFF < v then none else some (v, j + 1)

/-- `char::from_u32(cp).unwrap_or('\u{FFFD}')`, encoded. -/
def entity_bytes (cp : Nat) : Bytes :=
  String.utf8EncodeChar (if cp.isValidChar then Char.ofNat cp else Char.ofNat 0xFFFD)

def utf8_lead_len (b0 : UInt8) : Option Nat :=
  if b0 ≤ 0x7F then some 1
  else if 0xC2 ≤ b0 ∧ b0 ≤ 0xDF then some 2
  else if 0xE0 ≤ b0 ∧ b0 ≤ 0xEF then some 3
  else if 0xF0 ≤ b0 ∧ b0 ≤ 0xF4 then some 4
  else none

/-- The bytes behind the first are continuation bytes. -/
def utf8_seq_valid (s : Bytes) : Bool :=
  match s.head?.bind utf8_lead_len with
  | none => false
  | some n => n ≤ s.length && (s.take n).tail.all fun c => c &&& 0xC0 == 0x80

/-- The character at the front of `s`, which begins with a byte from 0x80 on:
its bytes, when they are all there. -/
def utf8_char (s : Bytes) (lead : UInt8) : Option Bytes :=
  match utf8_lead_len lead with
  | none => none
  | some len => if s.length < len ∨ !utf8_seq_valid (s.take len) then none else some (s.take len)

end EveOS.Html
