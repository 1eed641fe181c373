/-
Programs that can stop the machine.

Rust code that indexes or slices out of range panics. Here a piece of such code
is a value of type `Option α`, with `none` for a panic, and a loop is `loop`,
which also yields `none` when it is given too few rounds. `Returns x Q` says that
neither happens and that the result has `Q`: it is the total-correctness triple
of this small language, with one rule for each way of putting programs together.

Nothing in this file knows about the kernel.
-/
import Mathlib

set_option autoImplicit false

namespace EveOS

universe u

variable {α β σ ρ : Type u}

/-- The program returns a value with the property `Q`. -/
def Returns (x : Option α) (Q : α → Prop) : Prop := ∃ a, x = some a ∧ Q a

theorem Returns.ret {Q : α → Prop} {a : α} (h : Q a) : Returns (some a) Q := ⟨a, rfl, h⟩

theorem Returns.mono {x : Option α} {Q R : α → Prop} (h : Returns x Q) (hQR : ∀ a, Q a → R a) :
    Returns x R := by
  obtain ⟨a, ha, hQ⟩ := h
  exact ⟨a, ha, hQR a hQ⟩

theorem Returns.bind {x : Option α} {f : α → Option β} {P : α → Prop} {Q : β → Prop}
    (hx : Returns x P) (hf : ∀ a, P a → Returns (f a) Q) : Returns (x >>= f) Q := by
  obtain ⟨a, rfl, ha⟩ := hx
  exact hf a ha

theorem Returns.ite {c : Prop} [Decidable c] {x y : Option α} {Q : α → Prop} (hx : Returns x Q)
    (hy : Returns y Q) : Returns (if c then x else y) Q := by
  split_ifs
  · exact hx
  · exact hy

/-- What a program that returns returns. -/
theorem Returns.of_eq {x : Option α} {Q : α → Prop} (h : Returns x Q) {a : α} (ha : x = some a) :
    Q a := by
  obtain ⟨b, hb, hQ⟩ := h
  rw [hb] at ha
  exact Option.some.inj ha ▸ hQ

theorem Returns.of_bind {x : Option α} {f : α → Option β} {b : β} (h : (x >>= f) = some b) :
    ∃ a, x = some a ∧ f a = some b := by
  cases x with
  | none => cases h
  | some a => exact ⟨a, rfl, h⟩

/-- The rounds of a list of elements, each of which keeps the invariant. -/
theorem Returns.foldlM {f : σ → α → Option σ} {I : σ → Prop}
    (hf : ∀ s a, I s → Returns (f s a) I) {s : σ} (hs : I s) (xs : List α) :
    Returns (xs.foldlM f s) I := by
  induction xs generalizing s with
  | nil => exact .ret hs
  | cons a xs ih =>
    rw [List.foldlM_cons]
    exact Returns.bind (hf s a hs) fun s' hs' => ih hs'

/-- The same where a round may use that its element is one of the list. -/
theorem Returns.foldlM_mem {f : σ → α → Option σ} {I : σ → Prop} {xs : List α}
    (hf : ∀ s, ∀ a ∈ xs, I s → Returns (f s a) I) {s : σ} (hs : I s) : Returns (xs.foldlM f s) I := by
  induction xs generalizing s with
  | nil => exact .ret hs
  | cons a xs ih =>
    rw [List.foldlM_cons]
    exact (hf s a List.mem_cons_self hs).bind fun s' hs' => ih (fun s a ha => hf s a (List.mem_cons_of_mem _ ha)) hs'

/-- A loop whose rounds change nothing. -/
theorem foldlM_stays {f : σ → α → Option σ} (hf : ∀ s a, f s a = some s) (xs : List α) (s : σ) :
    xs.foldlM f s = some s := by
  induction xs with
  | nil => rfl
  | cons a xs ih =>
    rw [List.foldlM_cons, hf]
    exact ih

/-- What every round that returns keeps. -/
theorem foldlM_keeps {f : σ → α → Option σ} {I : σ → Prop} (hf : ∀ s a s', f s a = some s' → I s → I s')
    {xs : List α} {s s' : σ} (h : xs.foldlM f s = some s') (hs : I s) : I s' := by
  induction xs generalizing s with
  | nil => exact Option.some.inj h ▸ hs
  | cons a xs ih =>
    rw [List.foldlM_cons] at h
    obtain ⟨t, ht, h⟩ := Returns.of_bind h
    exact ih h (hf s a t ht hs)

/-- What one round brings about and every round keeps holds behind a loop that has the
round. -/
theorem foldlM_once {f : σ → α → Option σ} {J Q : σ → Prop} {a : α} (hJ : ∀ s b s', f s b = some s' → J s → J s')
    (hQ : ∀ s b s', f s b = some s' → J s → Q s → Q s') (ha : ∀ s s', f s a = some s' → J s → Q s') {xs : List α}
    (hmem : a ∈ xs) {s s' : σ} (h : xs.foldlM f s = some s') (hs : J s) : Q s' := by
  induction xs generalizing s with
  | nil => exact absurd hmem List.not_mem_nil
  | cons b xs ih =>
    rw [List.foldlM_cons] at h
    obtain ⟨t, ht, hrest⟩ := Returns.of_bind h
    have hkeep : ∀ s b s', f s b = some s' → J s ∧ Q s → J s' ∧ Q s' := by
      intro s b s' hround hs
      exact ⟨hJ s b s' hround hs.1, hQ s b s' hround hs.1 hs.2⟩
    rcases List.mem_cons.mp hmem with rfl | hmem
    · exact (foldlM_keeps hkeep hrest ⟨hJ s a t ht hs, ha s t ht hs⟩).2
    · exact ih hmem hrest (hJ s b t ht hs)

/-! ## Checked access -/

/-- `&s[a..b]`. -/
def slice? (s : List α) (a b : Nat) : Option (List α) :=
  if a ≤ b ∧ b ≤ s.length then some ((s.drop a).take (b - a)) else none

theorem slice?_eq {s : List α} {a b : Nat} (hab : a ≤ b) (hb : b ≤ s.length) :
    slice? s a b = some ((s.drop a).take (b - a)) := if_pos ⟨hab, hb⟩

theorem slice?_returns {s : List α} {a b : Nat} (hab : a ≤ b) (hb : b ≤ s.length) :
    Returns (slice? s a b) fun t => t.length = b - a := by
  rw [slice?_eq hab hb]
  refine .ret ?_
  rw [List.length_take, List.length_drop]
  omega

/-- A slice of the front part. -/
theorem slice?_append {s : List α} {b : Nat} (a : Nat) (hb : b ≤ s.length) (t : List α) :
    slice? (s ++ t) a b = slice? s a b := by
  unfold slice?
  by_cases hab : a ≤ b
  · rw [if_pos ⟨hab, by rw [List.length_append]; omega⟩, if_pos ⟨hab, hb⟩,
      List.drop_append_of_le_length (by omega), List.take_append_of_le_length]
    rw [List.length_drop]
    omega
  · rw [if_neg fun h => hab h.1, if_neg fun h => hab h.1]

theorem getElem?_returns {s : List α} {i : Nat} (h : i < s.length) :
    Returns s[i]? fun a => a = s[i] := ⟨s[i], List.getElem?_eq_getElem h, rfl⟩

/-- Write behind the first `xs.length` entries of an array of `cap`; `xs` is the
part written so far. -/
def push? (cap : Nat) (xs : List α) (a : α) : Option (List α) :=
  if xs.length < cap then some (xs ++ [a]) else none

theorem push?_returns {cap : Nat} {xs : List α} (a : α) (h : xs.length < cap) :
    Returns (push? cap xs a) fun ys => ys = xs ++ [a] := ⟨_, if_pos h, rfl⟩

/-- An entry that is dropped when there is no room for it. -/
theorem push_if_room_returns {cap : Nat} {xs : List α} (a : α) (h : xs.length ≤ cap) :
    Returns (if xs.length < cap then push? cap xs a else some xs) fun ys => ys.length ≤ cap := by
  split_ifs with hroom
  · refine (push?_returns a hroom).mono ?_
    rintro ys rfl
    rw [List.length_append, List.length_singleton]
    exact hroom
  · exact .ret h

/-- Take the last entry of the part written so far. -/
def pop? (cap : Nat) (xs : List α) : Option (α × List α) :=
  match xs.getLast? with
  | none => none
  | some a => if xs.length ≤ cap then some (a, xs.dropLast) else none

theorem pop?_returns {cap : Nat} {xs : List α} (hne : xs ≠ []) (h : xs.length ≤ cap) :
    Returns (pop? cap xs) fun r => r.2.length + 1 = xs.length := by
  unfold pop?
  rw [List.getLast?_eq_some_getLast hne]
  refine ⟨_, if_pos h, ?_⟩
  have hpos := List.length_pos_iff.mpr hne
  show xs.dropLast.length + 1 = xs.length
  rw [List.length_dropLast]
  omega

/-! ## Loops -/

/-- A loop. A round stops the machine (`none`), goes on (`inl`) or ends the loop
(`inr`). -/
def loop (round : σ → Option (σ ⊕ ρ)) : Nat → σ → Option ρ
  | 0, _ => none
  | rounds + 1, s =>
    match round s with
    | none => none
    | some (.inl s') => loop round rounds s'
    | some (.inr r) => some r

/-- What a round from `s` owes the loop: to keep the invariant and use up some
of the measure, or to end with `Q`. -/
def RoundOk (I : σ → Prop) (m : σ → Nat) (Q : ρ → Prop) (s : σ) : σ ⊕ ρ → Prop
  | .inl s' => I s' ∧ m s' < m s
  | .inr r => Q r

theorem Returns.goOn {I : σ → Prop} {m : σ → Nat} {Q : ρ → Prop} {s s' : σ} (hI : I s')
    (hm : m s' < m s) : Returns (some (.inl s')) (RoundOk I m Q s) := ⟨_, rfl, hI, hm⟩

theorem Returns.done {I : σ → Prop} {m : σ → Nat} {Q : ρ → Prop} {s : σ} {r : ρ} (h : Q r) :
    Returns (some (.inr r)) (RoundOk I m Q s) := ⟨_, rfl, h⟩

/-- **The loop rule.** A loop whose rounds keep the invariant and use up the
measure returns, when it is given more rounds than the measure. -/
theorem loop_returns {round : σ → Option (σ ⊕ ρ)} {I : σ → Prop} {m : σ → Nat} {Q : ρ → Prop}
    (hround : ∀ s, I s → Returns (round s) (RoundOk I m Q s))
    {rounds : Nat} {s : σ} (hs : I s) (hm : m s < rounds) : Returns (loop round rounds s) Q := by
  induction rounds generalizing s with
  | zero => omega
  | succ rounds ih =>
    obtain ⟨o, ho, hQ⟩ := hround s hs
    rw [loop, ho]
    cases o with
    | inl s' => exact ih hQ.1 (by have := hQ.2; omega)
    | inr r => exact .ret hQ

/-- More rounds do not change the result. -/
theorem loop_mono {round : σ → Option (σ ⊕ ρ)} {rounds more : Nat} {s : σ} {r : ρ}
    (h : loop round rounds s = some r) (hle : rounds ≤ more) : loop round more s = some r := by
  induction rounds generalizing more s with
  | zero => cases h
  | succ rounds ih =>
    obtain ⟨k, rfl⟩ : ∃ k, more = k + 1 := ⟨more - 1, by omega⟩
    rw [loop] at h ⊢
    cases ho : round s with
    | none => rw [ho] at h; cases h
    | some o =>
      rw [ho] at h
      cases o with
      | inl s' => exact ih h (by omega)
      | inr r' => exact h

/-- Two counts of rounds that are both enough give the same result. -/
theorem loop_unique {round : σ → Option (σ ⊕ ρ)} {n m : Nat} {s : σ} {r r' : ρ}
    (h : loop round n s = some r) (h' : loop round m s = some r') : r = r' := by
  have hn := loop_mono h (Nat.le_max_left n m)
  have hm := loop_mono h' (Nat.le_max_right n m)
  rw [hn] at hm
  exact Option.some.inj hm

/-- The loop gets from one state to another. -/
inductive Visits (round : σ → Option (σ ⊕ ρ)) : σ → σ → Prop
  | refl (s : σ) : Visits round s s
  | step {s s' t : σ} (h : round s = some (.inl s')) (rest : Visits round s' t) : Visits round s t

/-- The result of a loop is the result from any state it gets to. -/
theorem Visits.loop_eq {round : σ → Option (σ ⊕ ρ)} {s t : σ} (h : Visits round s t) {n m : Nat}
    {r r' : ρ} (hs : loop round n s = some r) (ht : loop round m t = some r') : r = r' := by
  induction h generalizing n with
  | refl s => exact loop_unique hs ht
  | step hstep _ ih =>
    cases n with
    | zero => cases hs
    | succ n =>
      rw [loop, hstep] at hs
      exact ih hs ht

/-- The state after a number of rounds that all go on. -/
def rounds (round : σ → Option (σ ⊕ ρ)) : Nat → σ → Option σ
  | 0, s => some s
  | n + 1, s =>
    match round s with
    | some (.inl s') => rounds round n s'
    | _ => none

theorem visits_of_rounds {round : σ → Option (σ ⊕ ρ)} {n : Nat} {s t : σ} (h : rounds round n s = some t) :
    Visits round s t := by
  induction n generalizing s with
  | zero =>
    rw [← Option.some.inj h]
    exact .refl s
  | succ n ih =>
    unfold rounds at h
    split at h
    · rename_i s' hstep
      exact .step hstep (ih h)
    · cases h

theorem Visits.trans {round : σ → Option (σ ⊕ ρ)} {s t u : σ} (h₁ : Visits round s t)
    (h₂ : Visits round t u) : Visits round s u := by
  induction h₁ with
  | refl s => exact h₂
  | step h _ ih => exact .step h (ih h₂)

/-- What every round keeps holds wherever the loop gets to. -/
theorem Visits.invariant {round : σ → Option (σ ⊕ ρ)} {I : σ → Prop}
    (hround : ∀ s s', I s → round s = some (.inl s') → I s') {s t : σ} (h : Visits round s t)
    (hs : I s) : I t := by
  induction h with
  | refl s => exact hs
  | step hstep _ ih => exact ih (hround _ _ hs hstep)

end EveOS
