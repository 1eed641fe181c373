/-
`kernel/src/url.rs`: the URLs a fetch can be started with.
-/
import EveOS.Net.Headers

set_option autoImplicit false

namespace EveOS.Net

structure ParsedHttpUrl where
  https : Bool
  port : UInt16
  ip : Ipv4
  needs_dns : Bool
  host_for_dns : Bytes
  host_header : Bytes
  path : Bytes
  deriving DecidableEq, Repr

def eq_ci (a b : UInt8) : Bool := lowerAscii a == lowerAscii b

/-- `starts_with_http` and `starts_with_https`: the rest after the scheme. -/
def starts_with_scheme (p url : Bytes) : Option Bytes :=
  if url.length < p.length then none
  else if ((url.take p.length).zip p).all (fun (a, b) => eq_ci a b) then some (url.drop p.length)
  else none

def starts_with_http (url : Bytes) : Option Bytes := starts_with_scheme (ascii "http://") url

def starts_with_https (url : Bytes) : Option Bytes := starts_with_scheme (ascii "https://") url

/-- The digit loop of `parse_u8`. -/
def parse_u8_from (v : Nat) : Bytes → Option UInt8
  | [] => some (UInt8.ofNat v)
  | c :: rest =>
    if !isDigit c then none
    else
      let v' := v * 10 + (c - 48).toNat
      if 255 < v' then none else parse_u8_from v' rest

def parse_u8 (s : Bytes) : Option UInt8 :=
  if s = [] ∨ 3 < s.length then none else parse_u8_from 0 s

/-- A dotted quad. The source cuts the host at each `.` and wants three of
them; that is four pieces. -/
def parse_ipv4_host (host : Bytes) : Option Ipv4 :=
  match host.splitOn 46 with
  | [p0, p1, p2, p3] => do
    let b0 ← parse_u8 p0
    let b1 ← parse_u8 p1
    let b2 ← parse_u8 p2
    let b3 ← parse_u8 p3
    return ⟨b0, b1, b2, b3⟩
  | _ => none

/-- Strip spaces at both ends. -/
def trim (url : Bytes) : Bytes := (url.dropWhile (· == 32)).rdropWhile (· == 32)

/-- `/`, `?` or `#`: what ends the authority. -/
def ends_host (b : UInt8) : Bool := b == 47 || b == 63 || b == 35

/-- The port without leading zeros, as in the `Host` header. -/
def port_digits (port : UInt16) : Bytes :=
  (Nat.toDigits 10 port.toNat).map (fun c => UInt8.ofNat c.toNat)

def finish_parse (host : Bytes) (port : UInt16) (path_src : Bytes) (https : Bool) :
    Option ParsedHttpUrl :=
  let bare := path_src.head? == some 63 || path_src.head? == some 35
  let path_extra := if bare then 1 else 0
  if host = [] ∨ 95 < host.length ∨ 159 < path_src.length + path_extra then none
  else
    let default_port : UInt16 := if https then 443 else 80
    let host_header := if port ≠ default_port then host ++ [58] ++ port_digits port else host
    if port ≠ default_port ∧ 95 < host_header.length then none
    else
      let ip := (parse_ipv4_host host).getD .zero
      let path := if path_src = [] then [47] else if bare then 47 :: path_src else path_src
      some
        { https := https
          port := port
          ip := ip
          needs_dns := ip = .zero
          host_for_dns := host
          host_header := host_header
          path := path }

/-- The digit loop of the port. -/
def parse_port_from (p : Nat) : Bytes → Option UInt16
  | [] => some (UInt16.ofNat p)
  | c :: rest =>
    if !isDigit c then none
    else
      let p' := p * 10 + (c - 48).toNat
      if 65535 < p' then none else parse_port_from p' rest

def parse_host_port_path (rest : Bytes) (default_port : UInt16) (https : Bool) :
    Option ParsedHttpUrl :=
  let host := rest.takeWhile (fun b => !ends_host b && b != 58)
  match rest.drop host.length with
  | [] => finish_parse host default_port [47] https
  | c :: tail =>
    if c = 58 then
      let port_text := tail.takeWhile (fun b => !ends_host b)
      let after := tail.drop port_text.length
      if port_text = [] then none
      else
        match parse_port_from 0 port_text with
        | none => none
        | some port => finish_parse host port (if after = [] then [47] else after) https
    else finish_parse host default_port (c :: tail) https

def parse_fetch_url (url : Bytes) : Option ParsedHttpUrl :=
  let url := trim url
  match starts_with_https url with
  | some rest => parse_host_port_path rest 443 true
  | none =>
    match starts_with_http url with
    | none => none
    | some rest => parse_host_port_path rest 80 false

end EveOS.Net
