/-
Scopes kept on a stack of bounded depth.

Opening a scope saves the current value and sets another; without room it sets
the value and saves nothing. Closing a scope takes the last value saved, or
`bottom` when there is none. A nesting says of each scope whether its beginning
opens and whether its end closes.

A nesting whose scopes all open, close and have room leaves everything as it was.
Any other closes more than it opens, so it ends with fewer values saved, or at
the bottom (`Nesting.restores_iff`).

Nothing in this file knows about the kernel.
-/
import Mathlib

set_option autoImplicit false

namespace EveOS

universe u

/-- The values that were saved, and the current one. -/
structure Scopes (α : Type u) where
  saved : List α
  cur : α

variable {α : Type u}

namespace Scopes

def enter (cap : Nat) (a : α) (s : Scopes α) : Scopes α :=
  if s.saved.length < cap then ⟨s.saved ++ [s.cur], a⟩ else ⟨s.saved, a⟩

def leave (bottom : α) (s : Scopes α) : Scopes α := ⟨s.saved.dropLast, s.saved.getLast?.getD bottom⟩

theorem enter_room {cap : Nat} {s : Scopes α} (h : s.saved.length < cap) (a : α) :
    s.enter cap a = ⟨s.saved ++ [s.cur], a⟩ := if_pos h

theorem enter_full {cap : Nat} {s : Scopes α} (h : ¬ s.saved.length < cap) (a : α) :
    s.enter cap a = ⟨s.saved, a⟩ := if_neg h

theorem leave_enter {cap : Nat} {s : Scopes α} (h : s.saved.length < cap) (a bottom : α) :
    (s.enter cap a).leave bottom = s := by
  rw [enter_room h, leave, List.dropLast_concat, List.getLast?_concat, Option.getD_some]

theorem leave_length (bottom : α) (s : Scopes α) : (s.leave bottom).saved.length = s.saved.length - 1 :=
  List.length_dropLast

theorem enter_length_le (cap : Nat) (a : α) (s : Scopes α) :
    (s.enter cap a).saved.length ≤ s.saved.length + 1 := by
  unfold enter
  split_ifs
  · rw [List.length_append, List.length_singleton]
  · exact Nat.le_succ _

theorem leave_empty (bottom : α) {s : Scopes α} (h : s.saved = []) : s.leave bottom = ⟨[], bottom⟩ := by
  unfold leave
  rw [h]
  rfl

/-- The first value was `bottom`. -/
def OnBottom (bottom : α) (s : Scopes α) : Prop := (s.saved ++ [s.cur]).head? = some bottom

theorem OnBottom.cur_eq {bottom : α} {s : Scopes α} (h : s.OnBottom bottom) (hempty : s.saved = []) :
    s.cur = bottom := by
  unfold OnBottom at h
  rw [hempty] at h
  exact Option.some.inj h

theorem OnBottom.enter {cap : Nat} (hcap : 0 < cap) {bottom : α} {s : Scopes α} (h : s.OnBottom bottom) (a : α) :
    (s.enter cap a).OnBottom bottom := by
  unfold OnBottom at h ⊢
  by_cases hroom : s.saved.length < cap
  · rw [enter_room hroom]
    show ((s.saved ++ [s.cur]) ++ [a]).head? = _
    rw [List.head?_append, h]
    rfl
  · rw [enter_full hroom]
    have hne : s.saved ≠ [] := List.length_pos_iff.mp (by omega)
    rw [List.head?_append_of_ne_nil _ hne] at h ⊢
    exact h

theorem OnBottom.leave {bottom : α} {s : Scopes α} (h : s.OnBottom bottom) :
    (s.leave bottom).OnBottom bottom := by
  unfold OnBottom at h ⊢
  by_cases hempty : s.saved = []
  · rw [leave_empty bottom hempty]
    rfl
  · have hlast : s.saved = s.saved.dropLast ++ [s.saved.getLast?.getD bottom] := by
      rw [List.getLast?_eq_some_getLast hempty, Option.getD_some, List.dropLast_concat_getLast hempty]
    show (s.saved.dropLast ++ [s.saved.getLast?.getD bottom]).head? = _
    rw [← hlast]
    rwa [List.head?_append_of_ne_nil _ hempty] at h

end Scopes

/-- Scopes behind and inside each other. -/
inductive Nesting
  | nil
  | scope (opens closes : Bool) (inside after : Nesting)

namespace Nesting

/-- The scopes lead from one state to another, with some value in each scope. -/
def Leads (cap : Nat) (bottom : α) : Nesting → Scopes α → Scopes α → Prop
  | nil, s, t => t = s
  | scope opens closes inside after, s, t => ∃ u v : Scopes α,
      (if opens then ∃ a, u = s.enter cap a else u = s) ∧ inside.Leads cap bottom u v ∧
        after.Leads cap bottom (if closes then v.leave bottom else v) t

/-- What opens is closed. -/
def Closed : Nesting → Prop
  | nil => True
  | scope opens closes inside after => (opens = true → closes = true) ∧ inside.Closed ∧ after.Closed

/-- Every scope that is closed was opened, with room for it, when `depth` values
are saved. -/
def Fits (cap : Nat) : Nesting → Nat → Prop
  | nil, _ => True
  | scope opens closes inside after, depth =>
    opens = closes ∧ (opens = true → depth < cap) ∧
      inside.Fits cap (if opens then depth + 1 else depth) ∧ after.Fits cap depth

section

variable {cap : Nat} {bottom : α} {n : Nesting} {s t : Scopes α}

/-- **Scopes that fit leave everything as it was.** -/
theorem Fits.restores (hfits : n.Fits cap s.saved.length) (h : n.Leads cap bottom s t) : t = s := by
  induction n generalizing s t with
  | nil => exact h
  | scope opens closes inside after ihinside ihafter =>
    obtain ⟨rfl, hroom, hinside, hafter⟩ := hfits
    obtain ⟨u, v, hu, hv, ht⟩ := h
    cases opens with
    | true =>
      obtain ⟨a, rfl⟩ := hu
      have hlt := hroom rfl
      have hdepth : (s.enter cap a).saved.length = s.saved.length + 1 := by
        rw [Scopes.enter_room hlt, List.length_append, List.length_singleton]
      rw [if_pos rfl, ← hdepth] at hinside
      obtain rfl := ihinside hinside hv
      rw [if_pos rfl, Scopes.leave_enter hlt] at ht
      exact ihafter hafter ht
    | false =>
      rw [if_neg Bool.false_ne_true] at hu hinside ht
      subst hu
      obtain rfl := ihinside hinside hv
      exact ihafter hafter ht

/-- No more values are saved behind a nesting than in front of it. -/
theorem Closed.length_le (hclosed : n.Closed) (h : n.Leads cap bottom s t) :
    t.saved.length ≤ s.saved.length := by
  induction n generalizing s t with
  | nil => rw [show t = s from h]
  | scope opens closes inside after ihinside ihafter =>
    obtain ⟨hoc, hinside, hafter⟩ := hclosed
    obtain ⟨u, v, hu, hv, ht⟩ := h
    have hv := ihinside hinside hv
    have ht := ihafter hafter ht
    cases opens with
    | true =>
      obtain ⟨a, rfl⟩ := hu
      rw [hoc rfl, if_pos rfl, Scopes.leave_length] at ht
      have hlen := Scopes.enter_length_le cap a s
      omega
    | false =>
      rw [if_neg Bool.false_ne_true] at hu
      subst hu
      cases closes with
      | true =>
        rw [if_pos rfl, Scopes.leave_length] at ht
        omega
      | false => exact Nat.le_trans ht hv

theorem Leads.onBottom (hcap : 0 < cap) (h : n.Leads cap bottom s t) (hs : s.OnBottom bottom) :
    t.OnBottom bottom := by
  induction n generalizing s t with
  | nil => rw [show t = s from h]; exact hs
  | scope opens closes inside after ihinside ihafter =>
    obtain ⟨u, v, hu, hv, ht⟩ := h
    have hu : u.OnBottom bottom := by
      cases opens with
      | true =>
        obtain ⟨a, rfl⟩ := hu
        exact hs.enter hcap a
      | false =>
        rw [if_neg Bool.false_ne_true] at hu
        exact hu ▸ hs
    have hv := ihinside hv hu
    refine ihafter ht ?_
    split_ifs
    · exact hv.leave
    · exact hv

/-- At the bottom nothing can get lost. -/
theorem Closed.at_bottom (hcap : 0 < cap) (hclosed : n.Closed) (h : n.Leads cap bottom s t)
    (hsaved : s.saved = []) (hcur : s.cur = bottom) : t.saved = [] ∧ t.cur = bottom := by
  have hlen := hclosed.length_le h
  rw [hsaved, List.length_nil, Nat.le_zero, List.length_eq_zero_iff] at hlen
  have hs : s.OnBottom bottom := by
    unfold Scopes.OnBottom
    rw [hsaved, hcur]
    rfl
  exact ⟨hlen, (h.onBottom hcap hs).cur_eq hlen⟩

/-- Fewer values are saved, or everything is as at the beginning. -/
def Lost (bottom : α) (s t : Scopes α) : Prop :=
  t.saved.length < s.saved.length ∨ (t.saved = [] ∧ t.cur = bottom)

/-- What is lost stays lost. -/
theorem Lost.after (hcap : 0 < cap) (hclosed : n.Closed) {w : Scopes α} (hlost : Lost bottom s w)
    (h : n.Leads cap bottom w t) : Lost bottom s t := by
  rcases hlost with hless | ⟨hsaved, hcur⟩
  · exact .inl (Nat.lt_of_le_of_lt (hclosed.length_le h) hless)
  · exact .inr (hclosed.at_bottom hcap h hsaved hcur)

/-- A scope is closed that saved nothing. -/
theorem Lost.leave {v : Scopes α} (hv : v.saved.length ≤ s.saved.length) : Lost bottom s (v.leave bottom) := by
  by_cases hempty : v.saved = []
  · rw [Scopes.leave_empty bottom hempty]
    exact .inr ⟨rfl, rfl⟩
  · have hpos := List.length_pos_iff.mpr hempty
    refine .inl ?_
    rw [Scopes.leave_length]
    omega

/-- **Scopes that do not fit lose something.** -/
theorem Closed.loses (hcap : 0 < cap) (hclosed : n.Closed) (h : n.Leads cap bottom s t)
    (hfits : ¬ n.Fits cap s.saved.length) : Lost bottom s t := by
  induction n generalizing s t with
  | nil => exact absurd trivial hfits
  | scope opens closes inside after ihinside ihafter =>
    have hwhole := hclosed
    obtain ⟨hoc, hinside, hafter⟩ := hclosed
    obtain ⟨u, v, hu, hv, ht⟩ := h
    have hvlen := hinside.length_le hv
    cases opens with
    | false =>
      rw [if_neg Bool.false_ne_true] at hu
      subst hu
      cases closes with
      | true => exact (Lost.leave hvlen).after hcap hafter ht
      | false =>
        rw [if_neg Bool.false_ne_true] at ht
        by_cases hin : inside.Fits cap u.saved.length
        · obtain rfl := hin.restores hv
          refine ihafter hafter ht fun haf => hfits ⟨rfl, nofun, hin, haf⟩
        · exact (ihinside hinside hv hin).after hcap hafter ht
    | true =>
      obtain ⟨a, rfl⟩ := hu
      rw [hoc rfl, if_pos rfl] at ht
      by_cases hroom : s.saved.length < cap
      · have hdepth : (s.enter cap a).saved.length = s.saved.length + 1 := by
          rw [Scopes.enter_room hroom, List.length_append, List.length_singleton]
        by_cases hin : inside.Fits cap (s.enter cap a).saved.length
        · obtain rfl := hin.restores hv
          rw [Scopes.leave_enter hroom] at ht
          refine ihafter hafter ht fun haf => hfits ⟨(hoc rfl).symm, fun _ => hroom, ?_, haf⟩
          rw [if_pos rfl, ← hdepth]
          exact hin
        · -- the scope inside lost what this one saved
          rcases ihinside hinside hv hin with hless | ⟨hsaved, hcur⟩
          · rw [hdepth] at hless
            exact (Lost.leave (by omega)).after hcap hafter ht
          · exact (Lost.leave (by rw [hsaved]; exact Nat.zero_le _)).after hcap hafter ht
      · rw [Scopes.enter_full hroom] at hvlen
        exact (Lost.leave hvlen).after hcap hafter ht

/-- **When a nesting leaves everything as it was**: when all of it fits, or when
there is nothing to lose. -/
theorem restores_iff (hcap : 0 < cap) (hclosed : n.Closed) (h : n.Leads cap bottom s t) :
    (t.cur = s.cur ∧ t.saved.length = s.saved.length) ↔
      (s.saved = [] ∧ s.cur = bottom) ∨ n.Fits cap s.saved.length := by
  constructor
  · rintro ⟨hcur, hlen⟩
    by_contra hnot
    rw [not_or] at hnot
    rcases hclosed.loses hcap h hnot.2 with hless | ⟨hsaved, hbottom⟩
    · omega
    · rw [hsaved, List.length_nil, eq_comm, List.length_eq_zero_iff] at hlen
      exact hnot.1 ⟨hlen, hcur.symm.trans hbottom⟩
  · rintro (⟨hsaved, hcur⟩ | hfits)
    · obtain ⟨htsaved, htcur⟩ := hclosed.at_bottom hcap h hsaved hcur
      rw [htsaved, htcur, hsaved, hcur]
      exact ⟨rfl, rfl⟩
    · rw [hfits.restores h]
      exact ⟨rfl, rfl⟩

end

end Nesting

end EveOS
