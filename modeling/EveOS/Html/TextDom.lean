/-
What `build_text_dom` of `kernel/src/dom.rs` leaves: a list of lines.

The tree is compared with a sketch of it, the bytes of the arena and for each node the
place of its text there. The sketch is built by a fold over the document, and the tree
follows it byte by byte, whatever the document before left in the array.
-/
import EveOS.Html.DomReturns

set_option autoImplicit false

namespace EveOS.Html

/-! ## The sketch -/

/-- `pieces` has a start and a length for each node, and `start` is where the line that
is being read begins. -/
structure Sketch where
  text : Bytes
  pieces : List (Nat × Nat)
  start : Nat

def Sketch.end_line (s : Sketch) : Sketch where
  text := s.text
  pieces :=
    if s.start < s.text.length ∧ s.pieces.length + 1 < DOM_MAX_NODES then
      s.pieces ++ [(s.start, s.text.length - s.start)]
    else s.pieces
  start := s.text.length

def Sketch.byte (s : Sketch) (b : UInt8) : Sketch :=
  if b = 60 ∨ b = 13 then s
  else if b = 10 then s.end_line
  else if s.text.length < DOM_TEXT_ARENA then { s with text := s.text ++ [b] }
  else s

/-- The pieces stand in the text one behind the other. -/
structure Sketch.Ok (s : Sketch) : Prop where
  text_le : s.text.length ≤ DOM_TEXT_ARENA
  pieces_lt : s.pieces.length < DOM_MAX_NODES
  start_le : s.start ≤ s.text.length
  nonempty : ∀ p ∈ s.pieces, 0 < p.2
  inside : ∀ p ∈ s.pieces, p.1 + p.2 ≤ s.start
  increasing : s.pieces.Pairwise fun p q => p.1 + p.2 ≤ q.1

section Sketches

variable {s : Sketch}

theorem Sketch.Ok.end_line (h : s.Ok) : s.end_line.Ok := by
  have hstart := h.start_le
  unfold Sketch.end_line
  split_ifs with hnew
  · refine ⟨h.text_le, ?_, Nat.le_refl _, ?_, ?_, ?_⟩
    · rw [List.length_append, List.length_singleton]
      exact hnew.2
    · intro p hp
      rcases List.mem_append.mp hp with hp | hp
      · exact h.nonempty p hp
      · rw [List.mem_singleton.mp hp]
        exact Nat.sub_pos_of_lt hnew.1
    · intro p hp
      rcases List.mem_append.mp hp with hp | hp
      · exact Nat.le_trans (h.inside p hp) hstart
      · rw [List.mem_singleton.mp hp]
        dsimp only
        omega
    · refine List.pairwise_append.mpr ⟨h.increasing, List.pairwise_singleton _ _, ?_⟩
      intro p hp q hq
      rw [List.mem_singleton.mp hq]
      exact h.inside p hp
  · refine ⟨h.text_le, h.pieces_lt, Nat.le_refl _, h.nonempty, ?_, h.increasing⟩
    intro p hp
    exact Nat.le_trans (h.inside p hp) hstart

theorem Sketch.Ok.byte (h : s.Ok) (b : UInt8) : (s.byte b).Ok := by
  unfold Sketch.byte
  split_ifs with hskip hlf hroom
  · exact h
  · exact h.end_line
  · refine ⟨?_, h.pieces_lt, ?_, h.nonempty, h.inside, h.increasing⟩
    · rw [List.length_append, List.length_singleton]
      exact hroom
    · rw [List.length_append]
      exact Nat.le_trans h.start_le (Nat.le_add_right _ _)
  · exact h

end Sketches

/-! ## The tree follows the sketch -/

/-- What of a node does not change once it is made. -/
def DomNode.view (node : DomNode) : NodeKind × Option Nat × Nat × Nat :=
  (node.kind, node.parent, node.text_start, node.text_len)

structure Shows (t : DomTree) (s : Sketch) : Prop where
  tree : TreeOk t
  count : t.node_count = s.pieces.length + 1
  text_len : t.text_len = s.text.length
  text : t.text.toList.take s.text.length = s.text
  nodes : ∀ k, ∀ p, s.pieces[k]? = some p → (t.nodes[k + 1]?).map DomNode.view = some (.Text, some 0, p.1, p.2)

section Tree

variable {t t' : DomTree} {i start len : Nat} {node : DomNode} {s : Sketch}

theorem set_node_eq (h : t.set_node i node = some t') :
    t'.text = t.text ∧ t'.text_len = t.text_len ∧ t'.node_count = t.node_count ∧
      ∀ k, t'.nodes[k]? = if k = i then some node else t.nodes[k]? := by
  have hi : i < DOM_MAX_NODES := by
    by_contra hi
    unfold DomTree.set_node at h
    rw [dif_neg hi] at h
    cases h
  obtain ⟨hcount, hnodes⟩ := (set_node_returns t hi node).of_eq h
  unfold DomTree.set_node at h
  rw [dif_pos hi] at h
  have ht := Option.some.inj h
  refine ⟨?_, ?_, hcount, hnodes⟩
  · rw [← ht]
  · rw [← ht]

/-- A link that is written into a node. -/
theorem set_node_view {old : DomNode} (hold : t.nodes[i]? = some old) (hview : node.view = old.view)
    (h : t.set_node i node = some t') (k : Nat) :
    (t'.nodes[k]?).map DomNode.view = (t.nodes[k]?).map DomNode.view := by
  rw [(set_node_eq h).2.2.2 k]
  split_ifs with hk
  · rw [hk, hold, Option.map_some, Option.map_some, hview]
  · rfl

/-- What `push_text_node` adds, when there is a node left. -/
theorem push_text_node_eq (hroom : t.node_count < DOM_MAX_NODES) (h : t.push_text_node start len = some t') :
    t'.text = t.text ∧ t'.text_len = t.text_len ∧ t'.node_count = t.node_count + 1 ∧
      ∀ k, (t'.nodes[k]?).map DomNode.view =
        if k = t.node_count then some (.Text, some 0, min start 65535, min len 65535)
        else (t.nodes[k]?).map DomNode.view := by
  unfold DomTree.push_text_node at h
  rw [if_neg (by omega)] at h
  obtain ⟨t₁, hnew, h⟩ := Returns.of_bind h
  obtain ⟨htext, hlen, hcount, hnodes⟩ := set_node_eq hnew
  obtain ⟨root, hroot, h⟩ := Returns.of_bind h
  have hview : ∀ k, (t₁.nodes[k]?).map DomNode.view =
      if k = t.node_count then some (.Text, some 0, min start 65535, min len 65535)
      else (t.nodes[k]?).map DomNode.view := by
    intro k
    rw [hnodes k]
    split_ifs <;> rfl
  -- the rest writes one link
  have hlink : ∀ i node old, t₁.nodes[i]? = some old → node.view = old.view → t₁.set_node i node = some t' →
      t'.text = t.text ∧ t'.text_len = t.text_len ∧ t'.node_count = t.node_count + 1 ∧
        ∀ k, (t'.nodes[k]?).map DomNode.view =
          if k = t.node_count then some (.Text, some 0, min start 65535, min len 65535)
          else (t.nodes[k]?).map DomNode.view := by
    intro i node old hold hsame hset
    obtain ⟨htext', hlen', hcount', -⟩ := set_node_eq hset
    refine ⟨htext'.trans htext, hlen'.trans hlen, hcount'.trans hcount, fun k => ?_⟩
    rw [set_node_view hold hsame hset, hview]
  cases hfirst : root.first_child with
  | none =>
    rw [hfirst] at h
    dsimp only at h
    refine hlink 0 _ root hroot ?_ h
    rfl
  | some first =>
    rw [hfirst] at h
    obtain ⟨n, -, h⟩ := Returns.of_bind h
    obtain ⟨last, hlast, h⟩ := Returns.of_bind h
    refine hlink n _ last hlast ?_ h
    rfl

/-- The end of a line. -/
theorem end_line_shows (h : Shows t s) (hok : s.Ok) :
    Returns (t.end_line s.start) fun t' => Shows t' s.end_line := by
  have hreturns := end_line_returns h.tree s.start
  unfold DomTree.end_line at hreturns ⊢
  by_cases hline : s.start < t.text_len
  · rw [if_pos hline] at hreturns ⊢
    rw [h.text_len] at hline
    obtain ⟨t', ht', htree⟩ := hreturns
    refine ⟨t', ht', ?_⟩
    by_cases hroom : s.pieces.length + 1 < DOM_MAX_NODES
    · obtain ⟨htext, hlen, hcount, hview⟩ := push_text_node_eq (by rw [h.count]; exact hroom) ht'
      have hpieces : s.end_line.pieces = s.pieces ++ [(s.start, s.text.length - s.start)] := if_pos ⟨hline, hroom⟩
      refine ⟨htree, ?_, hlen.trans h.text_len, ?_, ?_⟩
      · rw [hcount, h.count, hpieces, List.length_append, List.length_singleton]
      · rw [htext]
        exact h.text
      · intro k p hp
        rw [hpieces] at hp
        rw [hview, h.count]
        by_cases hlast : k = s.pieces.length
        · -- offsets into the arena are 16-bit numbers
          have hsmall : s.text.length ≤ 65535 := Nat.le_trans hok.text_le (by decide)
          rw [hlast, List.getElem?_concat_length] at hp
          obtain rfl := Option.some.inj hp
          rw [if_pos (by rw [hlast]), h.text_len, Nat.min_eq_left (by omega), Nat.min_eq_left (by omega)]
        · rw [if_neg (by omega)]
          refine h.nodes k p ?_
          have hk := (List.getElem?_eq_some_iff.mp hp).1
          rw [List.length_append, List.length_singleton] at hk
          rwa [List.getElem?_append_left (by omega)] at hp
    · -- all nodes are taken
      have hfull : DOM_MAX_NODES ≤ t.node_count := by
        rw [h.count]
        omega
      have hpieces : s.end_line.pieces = s.pieces := if_neg fun hnew => hroom hnew.2
      unfold DomTree.push_text_node at ht'
      rw [if_pos hfull] at ht'
      obtain rfl := Option.some.inj ht'
      exact ⟨h.tree, hpieces ▸ h.count, h.text_len, h.text, hpieces ▸ h.nodes⟩
  · have hpieces : s.end_line.pieces = s.pieces := if_neg fun hnew => hline (h.text_len ▸ hnew.1)
    rw [if_neg hline]
    exact .ret ⟨h.tree, hpieces ▸ h.count, h.text_len, h.text, hpieces ▸ h.nodes⟩

/-- A byte for the arena. -/
theorem push_byte_shows (h : Shows t s) (hroom : s.text.length < DOM_TEXT_ARENA) (b : UInt8) :
    Shows (t.push_byte b) { s with text := s.text ++ [b] } := by
  have hlt : t.text_len < DOM_TEXT_ARENA := h.text_len ▸ hroom
  refine ⟨push_byte_ok h.tree b, ?_, ?_, ?_, ?_⟩
  · unfold DomTree.push_byte
    rw [dif_pos hlt]
    exact h.count
  · unfold DomTree.push_byte
    rw [dif_pos hlt, List.length_append, List.length_singleton, ← h.text_len]
  · unfold DomTree.push_byte
    rw [dif_pos hlt, List.length_append, List.length_singleton]
    dsimp only
    rw [Vector.toList_set, h.text_len, List.take_add_one, List.take_set_of_le (Nat.le_refl _), h.text,
      List.getElem?_set_self (by rw [Vector.length_toList]; exact hroom)]
    rfl
  · unfold DomTree.push_byte
    rw [dif_pos hlt]
    exact h.nodes

/-- **The tree follows the sketch** over a byte. -/
theorem dom_byte_shows (h : Shows t s) (hok : s.Ok) (b : UInt8) :
    Returns (dom_byte (t, s.start) b) fun st => Shows st.1 (s.byte b) ∧ st.2 = (s.byte b).start := by
  unfold dom_byte Sketch.byte
  dsimp only
  by_cases hskip : b = 60 ∨ b = 13
  · rw [if_pos hskip, if_pos hskip]
    exact .ret ⟨h, rfl⟩
  rw [if_neg hskip, if_neg hskip]
  by_cases hlf : b = 10
  · rw [if_pos hlf, if_pos hlf]
    refine (end_line_shows h hok).bind fun t' ht' => .ret ⟨ht', ?_⟩
    exact ht'.text_len
  rw [if_neg hlf, if_neg hlf]
  by_cases hroom : s.text.length < DOM_TEXT_ARENA
  · rw [if_pos hroom]
    exact .ret ⟨push_byte_shows h hroom b, rfl⟩
  · rw [if_neg hroom]
    have hsame : t.push_byte b = t := dif_neg (by rw [h.text_len]; exact hroom)
    rw [hsame]
    exact .ret ⟨h, rfl⟩

/-- The loop over a document. -/
theorem dom_bytes_show (raw : Bytes) (h : Shows t s) (hok : s.Ok) :
    Returns (raw.foldlM dom_byte (t, s.start)) fun st =>
      Shows st.1 (raw.foldl Sketch.byte s) ∧ st.2 = (raw.foldl Sketch.byte s).start ∧ (raw.foldl Sketch.byte s).Ok := by
  induction raw generalizing t s with
  | nil => exact .ret ⟨h, rfl, hok⟩
  | cons b raw ih =>
    rw [List.foldlM_cons, List.foldl_cons]
    refine (dom_byte_shows h hok b).bind fun st hst => ?_
    obtain ⟨t', start'⟩ := st
    obtain ⟨hshows, hstart⟩ := hst
    dsimp only at hshows hstart
    subst hstart
    exact ih hshows (hok.byte b)

end Tree

/-- The sketch of an empty tree. -/
def Sketch.empty : Sketch := ⟨[], [], 0⟩

def sketch (raw : Bytes) : Sketch := (raw.foldl Sketch.byte .empty).end_line

theorem Sketch.empty_ok : Sketch.empty.Ok :=
  ⟨Nat.zero_le _, by decide, Nat.le_refl _, by simp [Sketch.empty], by simp [Sketch.empty], List.Pairwise.nil⟩

/-- **The tree of a document** follows its sketch, whatever was there before. -/
theorem build_text_dom_shows (raw : Bytes) (out : DomTree) :
    Returns (build_text_dom raw out) fun t => Shows t (sketch raw) ∧ (sketch raw).Ok := by
  unfold build_text_dom
  obtain ⟨t, ht, -, -⟩ := set_node_returns { out.reset with node_count := 1 } (by decide : 0 < DOM_MAX_NODES) .empty
  obtain ⟨-, hlen, hcount, hnodes⟩ := set_node_eq ht
  have hstart : t.text_len = 0 := hlen
  have hroot : TreeOk t := by
    replace hcount : t.node_count = 1 := hcount
    refine ⟨by omega, by rw [hcount]; decide, ?_, ?_⟩
    · rw [hnodes, if_pos rfl, hcount]
      rfl
    · intro k hk hlt
      omega
  have hempty : Shows t .empty := by
    refine ⟨hroot, hcount, hstart, List.take_zero, ?_⟩
    intro k p hp
    cases hp
  rw [ht, Option.bind_eq_bind, Option.bind_some, hstart]
  refine (dom_bytes_show raw hempty Sketch.empty_ok).bind fun st hst => ?_
  obtain ⟨t', start'⟩ := st
  obtain ⟨hshows, hstart', hok⟩ := hst
  dsimp only at hshows hstart' ⊢
  subst hstart'
  exact (end_line_shows hshows hok).mono fun t' ht' => ⟨ht', hok.end_line⟩

/-! ## What is represented -/

/-- The list that begins with a link: the nodes it visits, and its end. -/
inductive Chain (nodes : Vector DomNode DOM_MAX_NODES) : Option Nat → List Nat → Prop
  | nil : Chain nodes none []
  | cons {k : Nat} {node : DomNode} {ks : List Nat} (hnode : nodes[k]? = some node)
      (hks : Chain nodes node.next_sibling ks) : Chain nodes (some k) (k :: ks)

/-- The text of a node. -/
def DomTree.node_text (t : DomTree) (k : Nat) : Bytes :=
  ((t.nodes[k]?).map fun node => slice t.text.toList node.text_start (node.text_start + node.text_len)).getD []

def DomTree.node_texts (t : DomTree) : List Bytes := (List.range' 1 (t.node_count - 1)).map t.node_text

/-- A root and its children, each with a part of the text. -/
structure Represents (t : DomTree) : Prop where
  children : Chain t.nodes ((t.nodes[0]?).bind DomNode.first_child) (List.range' 1 (t.node_count - 1))
  text_le : t.text_len ≤ DOM_TEXT_ARENA
  /-- A text node under the root, with a part of the text that is not empty. -/
  node : ∀ k, 1 ≤ k → k < t.node_count → ∃ node, t.nodes[k]? = some node ∧ node.kind = .Text ∧ node.parent = some 0 ∧
    0 < node.text_len ∧ node.text_start + node.text_len ≤ t.text_len
  /-- The parts of two nodes come in the order of the nodes. -/
  increasing : ∀ j k, 1 ≤ j → j < k → k < t.node_count → ∀ m n, t.nodes[j]? = some m → t.nodes[k]? = some n →
    m.text_start + m.text_len ≤ n.text_start

section Represents

variable {t : DomTree} {s : Sketch}

/-- The chain from a node on. -/
theorem TreeOk.chain (h : TreeOk t) (n : Nat) {k : Nat} (hk : 1 ≤ k) (hn : k + n = t.node_count) :
    Chain t.nodes (if k < t.node_count then some k else none) (List.range' k n) := by
  have hle := h.le
  induction n generalizing k with
  | zero =>
    rw [if_neg (by omega)]
    exact .nil
  | succ n ih =>
    have hnode : t.nodes[k]? = some t.nodes[k] := Vector.getElem?_eq_getElem (by omega)
    have hnext := h.next k hk (by omega)
    rw [hnode, Option.bind_some] at hnext
    rw [if_pos (by omega), List.range'_succ]
    refine .cons hnode ?_
    rw [hnext]
    exact ih (by omega) (by omega)

/-- A node of the sketch. -/
theorem Shows.piece (h : Shows t s) {k : Nat} (hk : 1 ≤ k) (hlt : k < t.node_count) :
    ∃ node p, t.nodes[k]? = some node ∧ s.pieces[k - 1]? = some p ∧ p ∈ s.pieces ∧ node.kind = .Text ∧
      node.parent = some 0 ∧ node.text_start = p.1 ∧ node.text_len = p.2 := by
  have hcount := h.count
  have hp : s.pieces[k - 1]? = some s.pieces[k - 1] := List.getElem?_eq_getElem (by omega)
  have hview := h.nodes (k - 1) _ hp
  rw [Nat.sub_add_cancel hk] at hview
  obtain ⟨node, hnode, hfields⟩ := Option.map_eq_some_iff.mp hview
  simp only [DomNode.view, Prod.mk.injEq] at hfields
  exact ⟨node, _, hnode, hp, List.getElem_mem _, hfields⟩

theorem Shows.represents (h : Shows t s) (hok : s.Ok) : Represents t := by
  have hcount := h.count
  refine ⟨?_, ?_, ?_, ?_⟩
  · rw [h.tree.first]
    have hchain := h.tree.chain (t.node_count - 1) (Nat.le_refl 1) (by omega)
    by_cases hone : t.node_count = 1
    · rw [if_neg (by omega)] at hchain
      rwa [if_pos hone]
    · rw [if_pos (by omega)] at hchain
      rwa [if_neg hone]
  · rw [h.text_len]
    exact hok.text_le
  · intro k hk hlt
    obtain ⟨node, p, hnode, -, hmem, hkind, hparent, hstart, hlen⟩ := h.piece hk hlt
    refine ⟨node, hnode, hkind, hparent, hlen ▸ hok.nonempty p hmem, ?_⟩
    rw [hstart, hlen, h.text_len]
    exact Nat.le_trans (hok.inside p hmem) hok.start_le
  · intro j k hj hjk hk m n hm hn
    obtain ⟨node, p, hnode, hp, -, -, -, hstart, hlen⟩ := h.piece hj (by omega)
    obtain ⟨node', q, hnode', hq, -, -, -, hstart', -⟩ := h.piece (by omega) hk
    obtain rfl := Option.some.inj (hm.symm.trans hnode)
    obtain rfl := Option.some.inj (hn.symm.trans hnode')
    obtain ⟨hj', rfl⟩ := List.getElem?_eq_some_iff.mp hp
    obtain ⟨hk', rfl⟩ := List.getElem?_eq_some_iff.mp hq
    rw [hstart, hlen, hstart']
    exact List.pairwise_iff_getElem.mp hok.increasing _ _ hj' hk' (by omega)

end Represents

/-! ## Lines -/

/-- The bytes that are read. -/
def is_kept (b : UInt8) : Bool := b != 60 && b != 13

def nonempty_lines (raw : Bytes) : List Bytes := ((raw.filter is_kept).splitOn 10).filter (· != [])

/-- The line that is being read, and the lines behind it, without the empty ones. -/
def Sketch.lines (s : Sketch) (raw : Bytes) : List Bytes :=
  (((raw.filter is_kept).splitOn 10).modifyHead (s.text.drop s.start ++ ·)).filter (· != [])

def Sketch.texts (s : Sketch) : List Bytes := s.pieces.map fun p => slice s.text p.1 (p.1 + p.2)

section Lines

variable {s : Sketch} {t : DomTree}

/-- Text behind the pieces does not matter to them. -/
theorem texts_append (hok : s.Ok) (w : Bytes) :
    s.pieces.map (fun p => slice (s.text ++ w) p.1 (p.1 + p.2)) = s.texts := by
  refine List.map_congr_left fun p hp => ?_
  have hle := Nat.le_trans (hok.inside p hp) hok.start_le
  unfold slice
  rw [List.drop_append_of_le_length (by omega), List.take_append_of_le_length]
  rw [List.length_drop]
  omega

/-- A line that ends is a text, if it is not empty. -/
theorem end_line_texts (hroom : s.pieces.length + ([s.text.drop s.start].filter (· != [])).length < DOM_MAX_NODES) :
    s.end_line.texts = s.texts ++ [s.text.drop s.start].filter (· != []) := by
  by_cases hline : s.start < s.text.length
  · have hne : s.text.drop s.start ≠ [] := by
      intro h
      rw [List.drop_eq_nil_iff] at h
      omega
    have hfilter : [s.text.drop s.start].filter (· != []) = [s.text.drop s.start] := by simp [hne]
    rw [hfilter, List.length_singleton] at hroom
    rw [hfilter]
    unfold Sketch.texts Sketch.end_line
    rw [if_pos ⟨hline, hroom⟩, List.map_append, List.map_singleton]
    unfold slice
    rw [Nat.add_sub_cancel_left, List.take_of_length_le (by rw [List.length_drop])]
  · have hnil : s.text.drop s.start = [] := List.drop_eq_nil_iff.mpr (Nat.le_of_not_lt hline)
    rw [hnil]
    unfold Sketch.texts Sketch.end_line
    rw [if_neg fun h => hline h.1]
    simp

theorem lines_nil (s : Sketch) : s.lines [] = [s.text.drop s.start].filter (· != []) := by
  unfold Sketch.lines
  rw [List.filter_nil, List.splitOn_nil, List.modifyHead_cons, List.append_nil]

theorem lines_skip {b : UInt8} (hb : b = 60 ∨ b = 13) (raw : Bytes) : s.lines (b :: raw) = s.lines raw := by
  have hkept : is_kept b = false := by
    rcases hb with rfl | rfl <;> rfl
  unfold Sketch.lines
  rw [List.filter_cons_of_neg (by rw [hkept]; decide)]

theorem lines_lf (raw : Bytes) : s.lines (10 :: raw) = [s.text.drop s.start].filter (· != []) ++ s.end_line.lines raw := by
  have hnone : s.end_line.text.drop s.end_line.start = [] := List.drop_length
  unfold Sketch.lines
  rw [hnone, List.filter_cons_of_pos (by decide), List.splitOn, List.splitOnP_cons_eq_if_modifyHead, if_pos (by decide),
    List.modifyHead_cons, List.append_nil, ← List.filter_append, List.singleton_append]
  simp only [List.nil_append]
  rw [show (fun x : Bytes => x) = id from rfl, List.modifyHead_id]
  rfl

theorem lines_byte (hok : s.Ok) {b : UInt8} (hskip : ¬ (b = 60 ∨ b = 13)) (hlf : b ≠ 10) (raw : Bytes) :
    s.lines (b :: raw) = Sketch.lines { s with text := s.text ++ [b] } raw := by
  have hkept : is_kept b = true := by
    rw [not_or] at hskip
    simp [is_kept, hskip.1, hskip.2]
  unfold Sketch.lines
  dsimp only
  rw [List.filter_cons_of_pos hkept, List.splitOn, List.splitOnP_cons_eq_if_modifyHead, if_neg (by simpa using hlf),
    List.modifyHead_modifyHead, List.drop_append_of_le_length hok.start_le]
  refine congrArg (List.filter _) (congrArg₂ _ ?_ rfl)
  funext w
  simp

/-- **The texts are the lines**, as long as there is room for both. -/
theorem texts_fold (raw : Bytes) (hok : s.Ok)
    (hroom : s.text.length + ((raw.filter is_kept).filter (· != 10)).length ≤ DOM_TEXT_ARENA)
    (hnodes : s.pieces.length + (s.lines raw).length < DOM_MAX_NODES) :
    (raw.foldl Sketch.byte s).end_line.texts = s.texts ++ s.lines raw := by
  induction raw generalizing s with
  | nil =>
    rw [lines_nil] at hnodes ⊢
    exact end_line_texts hnodes
  | cons b raw ih =>
    rw [List.foldl_cons]
    by_cases hskip : b = 60 ∨ b = 13
    · -- the byte is not looked at
      have hsame : s.byte b = s := if_pos hskip
      have hkept : is_kept b = false := by
        rcases hskip with rfl | rfl <;> rfl
      rw [List.filter_cons_of_neg (by rw [hkept]; decide)] at hroom
      rw [lines_skip hskip] at hnodes ⊢
      rw [hsame]
      exact ih hok hroom hnodes
    have hkept : is_kept b = true := by
      rw [not_or] at hskip
      simp [is_kept, hskip.1, hskip.2]
    rw [List.filter_cons_of_pos hkept] at hroom
    by_cases hlf : b = 10
    · subst hlf
      have hbyte : s.byte 10 = s.end_line := rfl
      rw [List.filter_cons_of_neg (by decide)] at hroom
      rw [lines_lf, List.length_append] at hnodes
      have htexts := end_line_texts (s := s) (by omega)
      have hcount : s.end_line.pieces.length = s.pieces.length + ([s.text.drop s.start].filter (· != [])).length := by
        have hlen := congrArg List.length htexts
        rwa [Sketch.texts, Sketch.texts, List.length_append, List.length_map, List.length_map] at hlen
      rw [hbyte, lines_lf, ih hok.end_line hroom (by omega), htexts, List.append_assoc]
    · rw [List.filter_cons_of_pos (by simpa using hlf), List.length_cons] at hroom
      have hbyte : s.byte b = { s with text := s.text ++ [b] } := by
        unfold Sketch.byte
        rw [if_neg hskip, if_neg hlf, if_pos (by omega)]
      have hok' : (s.byte b).Ok := hok.byte b
      rw [hbyte] at hok' ⊢
      rw [lines_byte hok hskip hlf] at hnodes ⊢
      rw [ih hok' (by rw [List.length_append, List.length_singleton]; omega) hnodes]
      exact congrArg (· ++ _) (texts_append hok [b])

/-- The texts of the tree are those of its sketch. -/
theorem Shows.texts (h : Shows t s) (hok : s.Ok) : t.node_texts = s.texts := by
  have hcount := h.count
  unfold DomTree.node_texts Sketch.texts
  rw [hcount, Nat.add_sub_cancel]
  apply List.ext_getElem
  · rw [List.length_map, List.length_map, List.length_range']
  · intro i hi hi'
    rw [List.length_map, List.length_range'] at hi
    obtain ⟨node, p, hnode, hp, hmem, -, -, hstart, hlen⟩ := h.piece (k := 1 + i) (by omega) (by omega)
    have hpi : s.pieces[i] = p := by
      rw [Nat.add_sub_cancel_left, List.getElem?_eq_getElem hi] at hp
      exact Option.some.inj hp
    have hle := Nat.le_trans (hok.inside p hmem) hok.start_le
    rw [List.getElem_map, List.getElem_map, List.getElem_range', Nat.one_mul, hpi]
    unfold DomTree.node_text
    rw [hnode, Option.map_some, Option.getD_some, hstart, hlen, ← h.text]
    unfold slice
    rw [List.drop_take, List.take_take, Nat.min_eq_left (by omega)]

end Lines

/-- **What `build_text_dom` leaves**: whatever the tree held before, a root whose children
are its text nodes in order, and their texts are the lines of the document, when it has
not too many of them. -/
theorem text_dom_represents (raw : Bytes) (out : DomTree) :
    Returns (build_text_dom raw out) fun t => Represents t ∧
      ((nonempty_lines raw).length ≤ 511 → ((raw.filter is_kept).filter (· != 10)).length ≤ DOM_TEXT_ARENA →
        t.node_texts = nonempty_lines raw) := by
  refine (build_text_dom_shows raw out).mono fun t ht => ⟨ht.1.represents ht.2, fun hlines hbytes => ?_⟩
  have hall : Sketch.empty.lines raw = nonempty_lines raw := by
    unfold Sketch.lines nonempty_lines Sketch.empty
    simp only [List.drop_nil, List.nil_append]
    rw [show (fun x : Bytes => x) = id from rfl, List.modifyHead_id]
    rfl
  have hroom : Sketch.empty.text.length + ((raw.filter is_kept).filter (· != 10)).length ≤ DOM_TEXT_ARENA := by
    rw [show Sketch.empty.text.length = 0 from rfl, Nat.zero_add]
    exact hbytes
  have hnodes : Sketch.empty.pieces.length + (Sketch.empty.lines raw).length < DOM_MAX_NODES := by
    rw [hall, show Sketch.empty.pieces.length = 0 from rfl, Nat.zero_add]
    exact Nat.lt_of_le_of_lt hlines (by decide)
  have htexts := texts_fold raw Sketch.empty_ok hroom hnodes
  rw [hall] at htexts
  rw [ht.1.texts ht.2]
  exact htexts

end EveOS.Html
