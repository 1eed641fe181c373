/-
The chunked transfer coding.

A grammar, as a relation between the bytes on the wire and the body they carry.
It takes the size of a line as a parameter, and it is as lenient about line ends
as readers in practice are: a line ends in `\n`, and a `\r` anywhere in a line
does not count.

Nothing in this file knows about the kernel.
-/
import EveOS.Lib.Bytes

set_option autoImplicit false

namespace EveOS

/-- The text of a line: its bytes without `\r`. -/
def lineText (line : Bytes) : Bytes := line.filter (· != 13)

@[simp] theorem lineText_nil : lineText [] = [] := rfl

theorem lineText_append (xs ys : Bytes) : lineText (xs ++ ys) = lineText xs ++ lineText ys :=
  List.filter_append ..

theorem lineText_singleton (b : UInt8) : lineText [b] = if b = 13 then [] else [b] := by
  by_cases h : b = 13 <;> simp [lineText, h]

/-- A trailer section: lines up to and with an empty one. -/
inductive Trailers : Bytes → Prop
  | blank {line : Bytes} (hl : 10 ∉ line) (ht : lineText line = []) : Trailers (line ++ [10])
  | field {line rest : Bytes} (hl : 10 ∉ line) (ht : lineText line ≠ []) (hr : Trailers rest) :
    Trailers (line ++ 10 :: rest)

/-- What may stand behind the data of a chunk. -/
def ChunkEnd (sep : Bytes) : Prop := sep = [10] ∨ sep = [13, 10]

/-- `Chunked size wire body`: the bytes `wire` carry `body`. -/
inductive Chunked (size : Bytes → Option Nat) : Bytes → Bytes → Prop
  | last {line trailers : Bytes} (hl : 10 ∉ line) (hs : size (lineText line) = some 0)
    (ht : Trailers trailers) : Chunked size (line ++ 10 :: trailers) []
  | chunk {line data sep rest body : Bytes} (hl : 10 ∉ line)
    (hs : size (lineText line) = some data.length) (hd : data ≠ []) (he : ChunkEnd sep)
    (hr : Chunked size rest body) :
    Chunked size (line ++ 10 :: (data ++ (sep ++ rest))) (data ++ body)

end EveOS
