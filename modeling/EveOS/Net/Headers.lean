/-
The pure readers of `kernel/src/net.rs`: where the header block ends, what its
lines say about the framing and the codings of the body, and the gzip member
header.

The source scans the header lines with one and the same loop in
`response_headers_chunked`, `parse_content_length` and
`parse_content_encoding_layers`; `header_lines` is that loop.
-/
import EveOS.Net.State

set_option autoImplicit false

namespace EveOS.Net

/-- A space or a tab. -/
def isBlank (b : UInt8) : Bool := b == 32 || b == 9

/-- `b.is_ascii_digit()`. -/
def isDigit (b : UInt8) : Bool := 48 ≤ b && b ≤ 57

/-- The two trimming loops: blanks off the front, then off the back. -/
def trimBlanks (p : Bytes) : Bytes := (p.dropWhile isBlank).rdropWhile isBlank

/-! ## The header block -/

/-- The first `\r\n\r\n`, or else the first `\n\n`, with its length. -/
def find_http_header_end (buf : Bytes) : Option (Nat × Nat) :=
  match findWindow [13, 10, 13, 10] buf with
  | some pos => some (pos, 4)
  | none =>
    match findWindow [10, 10] buf with
    | some pos => some (pos, 2)
    | none => none

/-- A line without its trailing `\r`. -/
def strip_cr (line : Bytes) : Bytes :=
  if line.getLast? = some 13 then line.dropLast else line

/-- The line scan: `line` is what has been read of the current line. A last
line that no `\n` ends counts only if it is not empty. -/
def header_lines_from (line : Bytes) : Bytes → List Bytes
  | [] => if line = [] then [] else [strip_cr line]
  | b :: rest =>
    if b = 10 then strip_cr line :: header_lines_from [] rest
    else header_lines_from (line ++ [b]) rest

/-- The lines of a header block, each without its line end. -/
def header_lines (headers : Bytes) : List Bytes := header_lines_from [] headers

/-- `pfx` is all lower case. -/
def line_starts_with_ci (line pfx : Bytes) : Bool :=
  pfx.length ≤ line.length
    && ((line.take pfx.length).zip pfx).all (fun (a, b) => lowerAscii a == b)

def trim_http_line_prefix (line pfx : Bytes) : Option Bytes :=
  if line_starts_with_ci line pfx then some ((line.drop pfx.length).dropWhile isBlank) else none

/-- Some `Transfer-Encoding` line lists `chunked`. -/
def response_headers_chunked (headers : Bytes) : Bool :=
  (header_lines headers).any fun line =>
    match trim_http_line_prefix line (ascii "transfer-encoding:") with
    | none => false
    | some te =>
      (te.splitOn 44).any fun part => line_starts_with_ci (trimBlanks part) (ascii "chunked")

/-! ## Numbers -/

/-- The digit loop of `parse_usize_decimal`, with the `checked_mul` and
`checked_add` of a 64-bit `usize`. -/
def parse_usize_decimal_from (v : Nat) : Bytes → Option Nat
  | [] => some v
  | c :: rest =>
    if isBlank c then some v
    else if !isDigit c then none
    else
      let v' := v * 10 + (c - 48).toNat
      if v' ≤ USIZE_MAX then parse_usize_decimal_from v' rest else none

def parse_usize_decimal (s : Bytes) : Option Nat :=
  let s := s.dropWhile isBlank
  if s = [] then none else parse_usize_decimal_from 0 s

/-- The value of a hexadecimal digit. -/
def hex_digit (b : UInt8) : Option Nat :=
  if 48 ≤ b ∧ b ≤ 57 then some (b - 48).toNat
  else if 97 ≤ b ∧ b ≤ 102 then some (b - 97 + 10).toNat
  else if 65 ≤ b ∧ b ≤ 70 then some (b - 65 + 10).toNat
  else none

/-- The digit loop of `parse_chunk_size_line`: it stops at `;` or a blank. -/
def parse_chunk_size_from (size : Nat) : Bytes → Option Nat
  | [] => some size
  | b :: rest =>
    if b = 59 || isBlank b then some size
    else
      match hex_digit b with
      | none => none
      | some d =>
        let size' := size * 16 + d
        if size' ≤ USIZE_MAX then parse_chunk_size_from size' rest else none

def parse_chunk_size_line (line : Bytes) : Option Nat :=
  parse_chunk_size_from 0 (strip_cr line)

/-- The first `Content-Length` value that parses. -/
def parse_content_length (headers : Bytes) : Option Nat :=
  (header_lines headers).findSome? fun line =>
    match trim_http_line_prefix line (ascii "content-length:") with
    | none => none
    | some v => parse_usize_decimal v

/-! ## Content codings -/

def token_bytes_ci_eq (token expect : Bytes) : Bool :=
  token.length == expect.length
    && (token.zip expect).all (fun (a, b) => lowerAscii a == b)

/-- One item of a `Content-Encoding` list: `none` is the source's `Err(())`,
`some none` an item that is skipped. -/
def content_coding (raw_part : Bytes) : Option (Option BodyLayer) :=
  let p := trimBlanks raw_part
  let p := trimBlanks (p.takeWhile (· != 59))
  if p = [] then some none
  else if token_bytes_ci_eq p (ascii "gzip") || token_bytes_ci_eq p (ascii "x-gzip") then
    some (some .Gzip)
  else if token_bytes_ci_eq p (ascii "deflate") then some (some .DeflateZlib)
  else if token_bytes_ci_eq p (ascii "br") then some (some .Brotli)
  else if token_bytes_ci_eq p (ascii "identity") || token_bytes_ci_eq p (ascii "compress") then
    some none
  else none

/-- Take one list item into the layers found so far; at most four fit. -/
def push_layer (layers : List BodyLayer) (raw_part : Bytes) : Option (List BodyLayer) :=
  match content_coding raw_part with
  | none => none
  | some none => some layers
  | some (some layer) => if 4 ≤ layers.length then none else some (layers ++ [layer])

/-- The list items of a header line, if it is a `Content-Encoding` line. -/
def content_encoding_parts (line : Bytes) : List Bytes :=
  match trim_http_line_prefix line (ascii "content-encoding:") with
  | none => []
  | some v => v.splitOn 44

/-- The layers in header order; `none` is the source's `Err(())`. -/
def parse_content_encoding_layers (headers : Bytes) : Option (List BodyLayer) :=
  ((header_lines headers).flatMap content_encoding_parts).foldlM push_layer []

/-! ## Bodies -/

/-- After white space the body starts with `<`. -/
def body_starts_like_html (buf : Bytes) : Bool :=
  (buf.dropWhile (fun b => b == 32 || b == 9 || b == 13 || b == 10)).head? == some 60

/-- Skip a NUL-terminated string from `i`. -/
def skip_zstr (gzip : Bytes) (i : Nat) : Option Nat :=
  let i := i + (gzip.drop i).findIdx (· == 0)
  if gzip.length ≤ i then none else some (i + 1)

/-- The FEXTRA field of a gzip header. -/
def skip_fextra (gzip : Bytes) (i : Nat) : Option Nat :=
  if gzip.length < i + 2 then none
  else
    let xlen := (byteAt gzip i).toNat + 256 * (byteAt gzip (i + 1)).toNat
    let i := i + 2 + xlen
    if gzip.length < i then none else some i

/-- The FHCRC field of a gzip header. -/
def skip_fhcrc (gzip : Bytes) (i : Nat) : Option Nat :=
  if gzip.length < i + 2 then none else some (i + 2)

/-- Skip a field when its flag bit is set. -/
def skip_if (flg bit : UInt8) (skip : Nat → Option Nat) (i : Nat) : Option Nat :=
  if flg &&& bit ≠ 0 then skip i else some i

/-- The raw DEFLATE stream of a gzip member. -/
def gzip_deflate_payload (gzip : Bytes) : Option Bytes :=
  if gzip.length < 18 then none
  else if byteAt gzip 0 ≠ 0x1f ∨ byteAt gzip 1 ≠ 0x8b ∨ byteAt gzip 2 ≠ 8 then none
  else
    let flg := byteAt gzip 3
    if flg &&& 0xE0 ≠ 0 then none
    else do
      let i ← skip_if flg 4 (skip_fextra gzip) 10
      let i ← skip_if flg 8 (skip_zstr gzip) i
      let i ← skip_if flg 16 (skip_zstr gzip) i
      let i ← skip_if flg 2 (skip_fhcrc gzip) i
      let body_end := gzip.length - 8
      if body_end < i then none else some (slice gzip i body_end)

end EveOS.Net
