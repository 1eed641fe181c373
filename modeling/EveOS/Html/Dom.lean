/-
`kernel/src/dom.rs`: the text-only DOM skeleton that `format_document` builds
in a tree that is left over from the document before.
-/
import EveOS.Lib.Bytes
import EveOS.Lib.Returns

set_option autoImplicit false

namespace EveOS.Html

inductive NodeKind
  | Element
  | Text
  deriving DecidableEq, Repr

structure StyleHints where
  display_none : Bool
  indent_spaces : Nat
  deriving DecidableEq

def StyleHints.new : StyleHints := ⟨false, 0⟩

structure DomNode where
  kind : NodeKind
  parent : Option Nat
  first_child : Option Nat
  next_sibling : Option Nat
  text_start : Nat
  text_len : Nat
  style : StyleHints
  deriving DecidableEq

def DomNode.empty : DomNode := ⟨.Element, none, none, none, 0, 0, .new⟩

def DOM_MAX_NODES : Nat := 512
def DOM_TEXT_ARENA : Nat := 8192

structure DomTree where
  nodes : Vector DomNode DOM_MAX_NODES
  node_count : Nat
  text : Vector UInt8 DOM_TEXT_ARENA
  text_len : Nat

/-- `DomTree::new`. -/
def DomTree.new : DomTree := ⟨.replicate _ .empty, 0, .replicate _ 0, 0⟩

def DomTree.reset (t : DomTree) : DomTree := { t with node_count := 0, text_len := 0 }

/-- `self.nodes[i] = node`. -/
def DomTree.set_node (t : DomTree) (i : Nat) (node : DomNode) : Option DomTree :=
  if h : i < DOM_MAX_NODES then some { t with nodes := t.nodes.set i node } else none

/-- `self.text[self.text_len] = b; self.text_len += 1`, when there is room. -/
def DomTree.push_byte (t : DomTree) (b : UInt8) : DomTree :=
  if h : t.text_len < DOM_TEXT_ARENA then
    { t with text := t.text.set t.text_len b, text_len := t.text_len + 1 }
  else t

/-- One round of the walk to the last child of the root. -/
def sibling_round (nodes : Vector DomNode DOM_MAX_NODES) (n : Nat) : Option (Nat ⊕ Nat) := do
  let node ← nodes[n]?
  match node.next_sibling with
  | some nx => return .inl nx
  | none => return .inr n

def DomTree.push_text_node (t : DomTree) (start len : Nat) : Option DomTree :=
  if DOM_MAX_NODES ≤ t.node_count then some t
  else do
    let idx := t.node_count
    let t ← { t with node_count := idx + 1 }.set_node idx
      { DomNode.empty with
        kind := .Text
        parent := some 0
        text_start := min start 65535
        text_len := min len 65535 }
    let root ← t.nodes[0]?
    match root.first_child with
    | none => t.set_node 0 { root with first_child := some (idx % 65536) }
    | some first =>
      let n ← loop (sibling_round t.nodes) DOM_MAX_NODES first
      let last ← t.nodes[n]?
      t.set_node n { last with next_sibling := some (idx % 65536) }

/-- The end of a line: what was read since `cur_text_start` becomes a node. -/
def DomTree.end_line (t : DomTree) (cur_text_start : Nat) : Option DomTree :=
  if cur_text_start < t.text_len then t.push_text_node cur_text_start (t.text_len - cur_text_start)
  else some t

/-- One byte of the loop of `build_text_dom`. -/
def dom_byte (st : DomTree × Nat) (b : UInt8) : Option (DomTree × Nat) :=
  let (t, cur_text_start) := st
  if b = 60 ∨ b = 13 then some st
  else if b = 10 then do
    let t ← t.end_line cur_text_start
    return (t, t.text_len)
  else some (t.push_byte b, cur_text_start)

def build_text_dom (raw : Bytes) (out : DomTree) : Option DomTree := do
  -- node 0: synthetic root
  let t ← { out.reset with node_count := 1 }.set_node 0 .empty
  let (t, cur_text_start) ← raw.foldlM dom_byte (t, t.text_len)
  t.end_line cur_text_start

end EveOS.Html
