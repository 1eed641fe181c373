/-
From TCP payload to page: `ingest_tcp_payload`, the chunked decoder, the
content codings and the two ways a fetch ends (`set_err`, `finish_fetch`).

All of it works on the `HttpFetch` part of the stack. The chunked decoder is
written one byte at a time: `chunk_byte` is the body of the source's inner
loops, and it says whether the loop goes on or the function returns.
-/
import EveOS.Net.Headers

set_option autoImplicit false

namespace EveOS.Net

/-! ## Ending a fetch -/

/-- `set_err`: the message is cut to the 80 bytes of `fetch_err`. -/
def HttpFetch.set_err (s : HttpFetch) (msg : String) : HttpFetch :=
  { s with
    fetch_err := (ascii msg).take FETCH_ERR_CAP
    fetch_armed := false
    fetch_done := true
    page_gen := s.page_gen + 1 }

/-- The three assignments at the end of `finish_fetch`. -/
def HttpFetch.complete (s : HttpFetch) : HttpFetch :=
  { s with fetch_done := true, fetch_armed := false, page_gen := s.page_gen + 1 }

/-! ## Content codings

Each `decompress_*_once` either replaces the page or leaves it and reports a
message. -/

/-- Copy `n` decoded bytes back into the page, which holds at most 65536. -/
def take_decoded (out : Bytes) (int_msg : String) : Except String Bytes :=
  if PAGE_CAP < out.length then .error int_msg else .ok out

def decompress_gzip_once (dec : Decoders) (page : Bytes) : Except String Bytes :=
  if page.length < 18 then .error "GZIP SHORT"
  else
    match gzip_deflate_payload page with
    | none => .error "GZIP HDR"
    | some deflate =>
      match dec.inflate false deflate with
      | .ok out => take_decoded out "GZIP INT"
      | .error .HasMoreOutput => .error "GZIP BIG"
      | .error .Other => .error "GZIP BAD"

def decompress_zlib_once (dec : Decoders) (page : Bytes) : Except String Bytes :=
  match dec.inflate true page with
  | .ok out => take_decoded out "ZLIB INT"
  | .error .HasMoreOutput => .error "ZLIB BIG"
  | .error .Other => .error "ZLIB BAD"

def decompress_brotli_once (dec : Decoders) (page : Bytes) : Except String Bytes :=
  match dec.brotli page with
  | none => .error "BR BAD"
  | some out => take_decoded out "BR INT"

/-- One layer of `decompress_body_layers`. -/
def decompress_layer (dec : Decoders) (layer : BodyLayer) (page : Bytes) : Except String Bytes :=
  match layer with
  | .Identity => .ok page
  | .Gzip => decompress_gzip_once dec page
  | .DeflateZlib => decompress_zlib_once dec page
  | .Brotli => decompress_brotli_once dec page

/-- The layer loop, over the layers still to undo, outermost first. A failing
layer leaves the page as the layers before it made it. -/
def decompress_layers (dec : Decoders) : List BodyLayer → Bytes → Bytes × Option String
  | [], page => (page, none)
  | layer :: rest, page =>
    match decompress_layer dec layer page with
    | .ok page' => decompress_layers dec rest page'
    | .error msg => (page, some msg)

/-- `decompress_body_layers`: the last header token is undone first. -/
def decompress_body_layers (dec : Decoders) (layers : List BodyLayer) (page : Bytes) :
    Bytes × Option String :=
  decompress_layers dec layers.reverse page

/-- `finish_fetch`. -/
def HttpFetch.finish_fetch (dec : Decoders) (s : HttpFetch) : HttpFetch :=
  if s.fetch_done then s
  else if 0 < s.body_layers.length then
    match decompress_body_layers dec s.body_layers s.page with
    | (page, none) => { s with page := page }.complete
    | (page, some msg) =>
      if body_starts_like_html page then { s with page := page, body_layers := [] }.complete
      else { s with page := page }.set_err msg
  else if 2 ≤ s.page.length ∧ byteAt s.page 0 = 0x1f ∧ byteAt s.page 1 = 0x8b then
    -- a gzip member that no `Content-Encoding` announced
    match decompress_gzip_once dec s.page with
    | .ok page => { s with page := page }.complete
    | .error msg => s.set_err msg
  else s.complete

/-- `finish_plain_http_on_tcp_eof`. -/
def HttpFetch.finish_plain_http_on_tcp_eof (dec : Decoders) (s : HttpFetch) : HttpFetch :=
  if s.http_chunked && !s.fetch_done then s.set_err "HTTP CHUNK EOF" else s.finish_fetch dec

/-! ## Storing body bytes -/

def HttpFetch.page_push_byte (s : HttpFetch) (b : UInt8) : HttpFetch :=
  if s.page.length < PAGE_CAP then { s with page := s.page ++ [b] }
  else { s with page_truncated := true }

def HttpFetch.append_to_page (dec : Decoders) (s : HttpFetch) (data : Bytes) : HttpFetch :=
  let n := min data.length (PAGE_CAP - s.page.length)
  let s := { s with
    page := s.page ++ data.take n
    page_truncated := s.page_truncated || decide (n < data.length) }
  match s.http_body_remaining with
  | none => s
  | some rem =>
    let rem := rem - min rem n
    let s := { s with http_body_remaining := some rem }
    if rem = 0 then s.finish_fetch dec else s

/-! ## The chunked decoder -/

/-- The line buffer keeps the first 24 bytes of a line, without its `\r`. -/
def HttpFetch.chunk_line_push (s : HttpFetch) (b : UInt8) : HttpFetch :=
  if b ≠ 13 ∧ s.chunk_line.length < CHUNK_LINE_CAP then { s with chunk_line := s.chunk_line ++ [b] }
  else s

/-- A byte of a chunk-size line. -/
def HttpFetch.chunk_size_byte (s : HttpFetch) (b : UInt8) : HttpFetch × Bool :=
  if b = 10 then
    match parse_chunk_size_line s.chunk_line with
    | none => (s.set_err "HTTP CHUNK SZ", false)
    | some 0 => ({ s with chunk_line := [], chunk_phase := .Trailers }, true)
    | some size => ({ s with chunk_line := [], chunk_phase := .Data size }, true)
  else (s.chunk_line_push b, true)

/-- The byte, or the second of two bytes, that ends a chunk's data. -/
def HttpFetch.chunk_after_byte (s : HttpFetch) (step : Nat) (b : UInt8) : HttpFetch × Bool :=
  match step with
  | 0 =>
    if b = 13 then ({ s with chunk_phase := .AfterData 1 }, true)
    else if b = 10 then ({ s with chunk_phase := .SizeLine }, true)
    else (s.set_err "HTTP CHUNK CRLF", false)
  | 1 =>
    if b = 10 then ({ s with chunk_phase := .SizeLine }, true)
    else (s.set_err "HTTP CHUNK CRLF", false)
  | _ => (s, false)

/-- A byte of the trailer section. -/
def HttpFetch.chunk_trailer_byte (dec : Decoders) (s : HttpFetch) (b : UInt8) :
    HttpFetch × Bool :=
  if b = 10 then
    if s.chunk_line = [] then (s.finish_fetch dec, false)
    else ({ s with chunk_line := [] }, true)
  else (s.chunk_line_push b, true)

/-- One byte of a chunked body. The flag says whether the loop goes on. -/
def HttpFetch.chunk_byte (dec : Decoders) (s : HttpFetch) (b : UInt8) : HttpFetch × Bool :=
  match s.chunk_phase with
  | .SizeLine => s.chunk_size_byte b
  | .Data 0 => { s with chunk_phase := .AfterData 0 }.chunk_after_byte 0 b
  | .Data (n + 1) =>
    let s := s.page_push_byte b
    ({ s with chunk_phase := if n = 0 then .AfterData 0 else .Data n }, true)
  | .AfterData step => s.chunk_after_byte step b
  | .Trailers => s.chunk_trailer_byte dec b

/-- `ingest_chunked_bytes`. -/
def HttpFetch.ingest_chunked_bytes (dec : Decoders) : HttpFetch → Bytes → HttpFetch
  | s, [] => s
  | s, b :: rest =>
    match s.chunk_byte dec b with
    | (s', true) => ingest_chunked_bytes dec s' rest
    | (s', false) => s'

/-- The tail loop of the header branch: the body bytes that came with the
header go to the decoder in blocks of 256. `blocks` bounds the number of
rounds; the caller passes the length of the tail. -/
def HttpFetch.ingest_chunked_tail (dec : Decoders) : Nat → HttpFetch → Bytes → HttpFetch
  | 0, s, _ => s
  | blocks + 1, s, tail =>
    if tail = [] then s
    else ingest_chunked_tail dec blocks (s.ingest_chunked_bytes dec (tail.take 256)) (tail.drop 256)

/-! ## `ingest_tcp_payload` -/

/-- The last two statements of the header branch. -/
def HttpFetch.header_taken (s : HttpFetch) : HttpFetch :=
  { s with stream := [], page_gen := s.page_gen + 1 }

/-- A chunked response whose header ends at `hdr_end` of the stream buffer. -/
def HttpFetch.begin_chunked (dec : Decoders) (s : HttpFetch) (hdr_end : Nat) : HttpFetch :=
  let tail := s.stream.drop hdr_end
  let s := { s with http_chunked := true, chunk_phase := .SizeLine, chunk_line := [] }
  (s.ingest_chunked_tail dec tail.length tail).header_taken

/-- A response that is not chunked and whose header ends at `hdr_end`. -/
def HttpFetch.begin_identity (dec : Decoders) (s : HttpFetch) (hdr_end : Nat)
    (layers : List BodyLayer) : HttpFetch :=
  let headers := s.stream.take hdr_end
  let tail := s.stream.drop hdr_end
  let s := { s with
    body_layers := layers
    http_body_remaining :=
      (parse_content_length headers).map (fun cl => cl - min tail.length cl) }
  let s := tail.foldl HttpFetch.page_push_byte s
  let s := if s.http_body_remaining = some 0 then s.finish_fetch dec else s
  s.header_taken

/-- The header block is complete and ends at `hdr_end` of the stream buffer. -/
def HttpFetch.begin_body (dec : Decoders) (s : HttpFetch) (hdr_end : Nat) : HttpFetch :=
  let s := { s with header_found := true }
  let headers := s.stream.take hdr_end
  if response_headers_chunked headers then s.begin_chunked dec hdr_end
  else
    match parse_content_encoding_layers headers with
    | none => s.set_err "HTTP ENC"
    | some layers => s.begin_identity dec hdr_end layers

/-- Bytes that arrive before the header is complete. What does not fit the
4096-byte stream buffer is dropped. -/
def HttpFetch.ingest_header_bytes (dec : Decoders) (s : HttpFetch) (data : Bytes) : HttpFetch :=
  let s := { s with stream := s.stream ++ data.take (STREAM_CAP - s.stream.length) }
  match find_http_header_end s.stream with
  | none => if STREAM_CAP ≤ s.stream.length then s.set_err "HTTP HDR TOO BIG" else s
  | some (pos, sep_len) => s.begin_body dec (pos + sep_len)

/-- `ingest_tcp_payload`. -/
def HttpFetch.ingest_tcp_payload (dec : Decoders) (s : HttpFetch) (data : Bytes) : HttpFetch :=
  if !s.header_found then s.ingest_header_bytes dec data
  else if s.http_chunked then s.ingest_chunked_bytes dec data
  else s.append_to_page dec data

end EveOS.Net
