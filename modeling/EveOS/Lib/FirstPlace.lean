/-
The first place of a list at which a search has an answer.

What a search says of an element may depend on everything in front of it, as when
a reader goes over a list of records and keeps what the last heading said. So the
search is a function of the elements in front and of the element. Two such
searches are compared at the first place where one of them has an answer; what
they say further behind does not matter.

Nothing in this file knows about the kernel.
-/
import Mathlib

set_option autoImplicit false

namespace EveOS

variable {α β : Type*}

/-- The answer at the first place of a list that has one; `front` stands in front. -/
def firstAnswer (f : List α → α → Option β) (front : List α) : List α → Option β
  | [] => none
  | a :: rest => (f front a).or (firstAnswer f (front ++ [a]) rest)

/-- No answer anywhere in `xs`. -/
def Silent (f : List α → α → Option β) (front xs : List α) : Prop :=
  ∀ mid a after, xs = mid ++ a :: after → f (front ++ mid) a = none

section FirstPlace

variable {f g : List α → α → Option β} {front xs : List α} {b : β}

theorem Silent.head {a : α} (h : Silent f front (a :: xs)) : f front a = none := by
  have hhead := h [] a xs rfl
  rwa [List.append_nil] at hhead

theorem Silent.tail {a : α} (h : Silent f front (a :: xs)) : Silent f (front ++ [a]) xs := by
  intro mid c after hxs
  rw [List.append_assoc, List.singleton_append]
  exact h (a :: mid) c after (by rw [hxs, List.cons_append])

theorem Silent.cons {a : α} (ha : f front a = none) (h : Silent f (front ++ [a]) xs) : Silent f front (a :: xs) := by
  intro mid c after hxs
  rcases List.cons_eq_append_iff.mp hxs with ⟨rfl, hcons⟩ | ⟨mid', rfl, hrest⟩
  · obtain ⟨rfl, rfl⟩ := List.cons.inj hcons
    rwa [List.append_nil]
  · have hmid := h mid' c after hrest
    rwa [List.append_assoc, List.singleton_append] at hmid

/-- What stands behind a silent part decides. -/
theorem firstAnswer_append {mid : List α} (after : List α) (h : Silent f front mid) :
    firstAnswer f front (mid ++ after) = firstAnswer f (front ++ mid) after := by
  induction mid generalizing front with
  | nil => rw [List.nil_append, List.append_nil]
  | cons a mid ih =>
    rw [List.cons_append, firstAnswer, h.head, Option.none_or, ih h.tail, List.append_assoc, List.singleton_append]

theorem firstAnswer_of_silent (h : Silent f front xs) : firstAnswer f front xs = none := by
  have hend := firstAnswer_append [] h
  rwa [List.append_nil] at hend

theorem firstAnswer_at {mid after : List α} {a : α} (hmid : Silent f front mid) (ha : f (front ++ mid) a = some b) :
    firstAnswer f front (mid ++ a :: after) = some b := by
  rw [firstAnswer_append _ hmid, firstAnswer, ha, Option.some_or]

/-- Either there is no answer, or there is a first one. -/
theorem silent_or_first (f : List α → α → Option β) (front xs : List α) :
    Silent f front xs ∨ ∃ mid a after, xs = mid ++ a :: after ∧ Silent f front mid ∧ f (front ++ mid) a ≠ none := by
  induction xs generalizing front with
  | nil =>
    left
    intro mid a after h
    exact absurd h.symm (List.append_ne_nil_of_right_ne_nil mid (List.cons_ne_nil a after))
  | cons a xs ih =>
    by_cases ha : f front a = none
    · rcases ih (front ++ [a]) with hsilent | ⟨mid, c, after, rfl, hmid, hc⟩
      · exact .inl (hsilent.cons ha)
      · refine .inr ⟨a :: mid, c, after, rfl, hmid.cons ha, ?_⟩
        rwa [List.append_assoc, List.singleton_append] at hc
    · refine .inr ⟨[], a, xs, rfl, ?_, ?_⟩
      · intro mid c after h
        exact absurd h.symm (List.append_ne_nil_of_right_ne_nil mid (List.cons_ne_nil c after))
      · rwa [List.append_nil]

theorem firstAnswer_some_iff :
    firstAnswer f front xs = some b ↔
      ∃ mid a after, xs = mid ++ a :: after ∧ Silent f front mid ∧ f (front ++ mid) a = some b := by
  constructor
  · intro h
    rcases silent_or_first f front xs with hsilent | ⟨mid, a, after, rfl, hmid, ha⟩
    · rw [firstAnswer_of_silent hsilent] at h
      cases h
    · obtain ⟨c, hc⟩ := Option.ne_none_iff_exists'.mp ha
      rw [firstAnswer_at hmid hc] at h
      exact ⟨mid, a, after, rfl, hmid, hc.trans h⟩
  · rintro ⟨mid, a, after, rfl, hmid, ha⟩
    exact firstAnswer_at hmid ha

/-- Either neither search has an answer, or there is a first place where one of them
has. -/
theorem silent_or_first_of_two (f g : List α → α → Option β) (front xs : List α) :
    (Silent f front xs ∧ Silent g front xs) ∨
      ∃ mid a after, xs = mid ++ a :: after ∧ Silent f front mid ∧ Silent g front mid ∧
        (f (front ++ mid) a).or (g (front ++ mid) a) ≠ none := by
  have hsplit : ∀ ys, Silent (fun front a => (f front a).or (g front a)) front ys →
      Silent f front ys ∧ Silent g front ys := by
    intro ys h
    constructor
    · exact fun mid a after hys => (Option.or_eq_none_iff.mp (h mid a after hys)).1
    · exact fun mid a after hys => (Option.or_eq_none_iff.mp (h mid a after hys)).2
  rcases silent_or_first (fun front a => (f front a).or (g front a)) front xs with
    hsilent | ⟨mid, a, after, hxs, hmid, ha⟩
  · exact .inl (hsplit xs hsilent)
  · exact .inr ⟨mid, a, after, hxs, (hsplit mid hmid).1, (hsplit mid hmid).2, ha⟩

end FirstPlace

end EveOS
