/-
`build_text_dom` never stops the machine.

The walk to the last child of the root follows `next_sibling` links through an
array that is full of what the document before left there. It ends because every
node that is linked was written by this call: the nodes from 1 on form one chain
in the order they were made.
-/
import EveOS.Html.Dom

set_option autoImplicit false

namespace EveOS.Html

/-- The nodes made so far are the root and one chain of children. -/
structure TreeOk (t : DomTree) : Prop where
  pos : 0 < t.node_count
  le : t.node_count ≤ DOM_MAX_NODES
  first : (t.nodes[0]?).bind DomNode.first_child = if t.node_count = 1 then none else some 1
  next : ∀ k, 1 ≤ k → k < t.node_count →
    (t.nodes[k]?).bind DomNode.next_sibling = if k + 1 < t.node_count then some (k + 1) else none

theorem TreeOk.of_text {t t' : DomTree} (h : TreeOk t) (hn : t'.nodes = t.nodes)
    (hc : t'.node_count = t.node_count) : TreeOk t' := by
  refine ⟨hc ▸ h.pos, hc ▸ h.le, ?_, ?_⟩
  · rw [hn, hc]
    exact h.first
  · rw [hn, hc]
    exact h.next

theorem push_byte_ok {t : DomTree} (h : TreeOk t) (b : UInt8) : TreeOk (t.push_byte b) := by
  unfold DomTree.push_byte
  split_ifs
  · exact h.of_text rfl rfl
  · exact h

/-- What a write into the node array does. -/
theorem set_node_returns (t : DomTree) {i : Nat} (h : i < DOM_MAX_NODES) (node : DomNode) :
    Returns (t.set_node i node) fun t' => t'.node_count = t.node_count
      ∧ ∀ k, t'.nodes[k]? = if k = i then some node else t.nodes[k]? := by
  unfold DomTree.set_node
  rw [dif_pos h]
  refine .ret ⟨rfl, ?_⟩
  intro k
  rw [Vector.getElem?_set]
  by_cases hk : k = i
  · rw [if_pos hk.symm, if_pos hk]
  · rw [if_neg (Ne.symm hk), if_neg hk]

/-- The walk along a chain of `n` nodes ends at the last one. -/
theorem sibling_walk_returns {nodes : Vector DomNode DOM_MAX_NODES} {n : Nat}
    (hn : n ≤ DOM_MAX_NODES) (hchain : ∀ k, 1 ≤ k → k < n →
      (nodes[k]?).bind DomNode.next_sibling = if k + 1 < n then some (k + 1) else none)
    {first : Nat} (hfirst : 1 ≤ first) (hlt : first < n) :
    Returns (loop (sibling_round nodes) DOM_MAX_NODES first) fun k => k + 1 = n := by
  refine loop_returns (I := fun k => 1 ≤ k ∧ k < n) (m := fun k => n - k) ?_ ⟨hfirst, hlt⟩ (by omega)
  rintro k ⟨hk, hkn⟩
  have hnode : k < DOM_MAX_NODES := by omega
  have hnext := hchain k hk hkn
  unfold sibling_round
  rw [Vector.getElem?_eq_getElem hnode] at hnext ⊢
  dsimp only [bind, Option.bind_some]
  change nodes[k].next_sibling = _ at hnext
  rw [hnext]
  by_cases hlast : k + 1 < n
  · rw [if_pos hlast]
    exact .goOn ⟨by omega, hlast⟩ (by omega)
  · rw [if_neg hlast]
    exact .done (by omega)

/-- **A new node is linked behind the others.** -/
theorem push_text_node_returns {t : DomTree} (h : TreeOk t) (start len : Nat) :
    Returns (t.push_text_node start len) TreeOk := by
  unfold DomTree.push_text_node
  by_cases hfull : DOM_MAX_NODES ≤ t.node_count
  · rw [if_pos hfull]
    exact .ret h
  rw [if_neg hfull]
  have hpos := h.pos
  have hidx : t.node_count < DOM_MAX_NODES := by omega
  have hcast : t.node_count % 65536 = t.node_count := Nat.mod_eq_of_lt (Nat.lt_trans hidx (by decide))
  refine (set_node_returns _ hidx _).bind ?_
  rintro t₁ ⟨hcount, hnodes⟩
  have hzero : (0 : Nat) < DOM_MAX_NODES := by decide
  have hroot : t₁.nodes[0]? = t.nodes[0]? := (hnodes 0).trans (if_neg (by omega))
  have hnew : (t₁.nodes[t.node_count]?).bind DomNode.next_sibling = none := by
    rw [hnodes, if_pos rfl]
    rfl
  have hold : ∀ k, 1 ≤ k → k < t.node_count → (t₁.nodes[k]?).bind DomNode.next_sibling
      = if k + 1 < t.node_count then some (k + 1) else none := by
    intro k hk hlt
    rw [hnodes, if_neg (by omega)]
    exact h.next k hk hlt
  have hfirst := h.first
  rw [← hroot, Vector.getElem?_eq_getElem hzero] at hfirst
  rw [Vector.getElem?_eq_getElem hzero]
  change t₁.nodes[0].first_child = _ at hfirst
  dsimp only [bind, Option.bind_some]
  rw [hfirst]
  by_cases hone : t.node_count = 1
  · -- the first child of the root
    rw [if_pos hone]
    refine (set_node_returns t₁ hzero _).mono ?_
    rintro t₂ ⟨hcount₂, hnodes₂⟩
    have hc : t₂.node_count = 2 := by rw [hcount₂, hcount, hone]
    refine ⟨by omega, by rw [hc]; decide, ?_, ?_⟩
    · rw [hnodes₂, if_pos rfl, hc, if_neg (by decide)]
      show some (t.node_count % 65536) = some 1
      rw [hcast, hone]
    · intro k hk hlt
      obtain rfl : k = t.node_count := by omega
      rw [hnodes₂, if_neg (by omega), hnew, if_neg (by omega)]
  · -- a further child
    rw [if_neg hone]
    refine (sibling_walk_returns h.le hold (Nat.le_refl 1) (by omega)).bind fun n hn => ?_
    have hnlt : n < DOM_MAX_NODES := by omega
    rw [Vector.getElem?_eq_getElem hnlt]
    refine (set_node_returns t₁ hnlt _).mono ?_
    rintro t₂ ⟨hcount₂, hnodes₂⟩
    have hc : t₂.node_count = t.node_count + 1 := hcount₂.trans hcount
    refine ⟨by omega, by omega, ?_, ?_⟩
    · rw [hnodes₂, if_neg (by omega), hc, if_neg (by omega), Vector.getElem?_eq_getElem hzero]
      exact hfirst.trans (if_neg hone)
    · intro k hk hlt
      rw [hc] at hlt ⊢
      rw [hnodes₂]
      by_cases hkn : k = n
      · rw [if_pos hkn, if_pos (by omega), hkn]
        show some (t.node_count % 65536) = some (n + 1)
        rw [hcast, hn]
      · rw [if_neg hkn]
        by_cases hlast : k = t.node_count
        · rw [hlast, hnew, if_neg (by omega)]
        · rw [hold k hk (by omega), if_pos (by omega), if_pos (by omega)]

theorem end_line_returns {t : DomTree} (h : TreeOk t) (start : Nat) : Returns (t.end_line start) TreeOk := by
  unfold DomTree.end_line
  split_ifs
  · exact push_text_node_returns h _ _
  · exact .ret h

/-- **`build_text_dom` returns**, whatever the tree held before. -/
theorem build_text_dom_returns (raw : Bytes) (out : DomTree) : Returns (build_text_dom raw out) TreeOk := by
  unfold build_text_dom
  refine (set_node_returns _ (by decide) _).bind fun t ⟨hcount, hnodes⟩ => ?_
  have hroot : TreeOk t := by
    replace hcount : t.node_count = 1 := hcount
    refine ⟨by omega, by rw [hcount]; decide, ?_, ?_⟩
    · rw [hnodes, if_pos rfl, hcount]
      rfl
    · intro k hk hlt
      omega
  have hbyte : ∀ (st : DomTree × Nat) (b : UInt8), TreeOk st.1 →
      Returns (dom_byte st b) fun st' => TreeOk st'.1 := by
    rintro ⟨t, start⟩ b ht
    unfold dom_byte
    dsimp only
    split_ifs
    · exact .ret ht
    · exact (end_line_returns ht start).bind fun t' ht' => .ret ht'
    · exact .ret (push_byte_ok ht b)
  refine (Returns.foldlM (I := fun st => TreeOk st.1) hbyte hroot raw).bind fun st hst => ?_
  exact end_line_returns hst _

end EveOS.Html
