/-
Bounded queues.

`fifo_step` is the queue as its callers see it: data is taken as a whole or not at all,
and a pop gets the elements at the front, as many as are wanted and there. An
implementation answers every call as the queue does, with a state that stands for the
contents (`Fifo.Implements`), and so it answers runs. In a run of the queue what was
popped and what is left is what was taken (`fifo_run_conserves`).

Nothing in this file knows about the kernel.
-/
import EveOS.Lib.Returns

set_option autoImplicit false

namespace EveOS

inductive FifoCall (α : Type)
  | append (data : List α)
  | pop (n : Nat)

inductive FifoReply (α : Type)
  | appended (ok : Bool)
  | popped (xs : List α)

variable {α σ ι : Type}

/-- A queue of at most `cap` elements. -/
def fifo_step (cap : Nat) (q : List α) : FifoCall α → List α × FifoReply α
  | .append data =>
    if cap < q.length + data.length then (q, .appended false) else (q ++ data, .appended true)
  | .pop n => (q.drop n, .popped (q.take n))

/-- The state behind a list of calls, and the replies. -/
def answers {ρ : Type} (step : σ → ι → Option (σ × ρ)) : σ → List ι → Option (σ × List ρ)
  | s, [] => some (s, [])
  | s, c :: cs => do
    let (s, r) ← step s c
    let (s, rs) ← answers step s cs
    return (s, r :: rs)

/-- The data of the calls that took it. -/
def fifo_taken : List (FifoCall α) → List (FifoReply α) → List α
  | .append data :: cs, .appended true :: rs => data ++ fifo_taken cs rs
  | _ :: cs, _ :: rs => fifo_taken cs rs
  | _, _ => []

/-- What the calls got. -/
def fifo_given : List (FifoReply α) → List α
  | .popped xs :: rs => xs ++ fifo_given rs
  | .appended _ :: rs => fifo_given rs
  | [] => []

/-- A call neither loses nor makes nor reorders elements. -/
theorem fifo_step_conserves (cap : Nat) (q : List α) (c : FifoCall α) :
    fifo_given [(fifo_step cap q c).2] ++ (fifo_step cap q c).1 = q ++ fifo_taken [c] [(fifo_step cap q c).2] := by
  cases c with
  | append data =>
    simp only [fifo_step]
    by_cases hfull : cap < q.length + data.length
    · simp [hfull, fifo_given, fifo_taken]
    · simp [hfull, fifo_given, fifo_taken]
  | pop n => simp [fifo_step, fifo_given, fifo_taken]

/-- The contents behind a list of calls, and the replies. -/
def fifo_run (cap : Nat) (q : List α) : List (FifoCall α) → List α × List (FifoReply α)
  | [] => (q, [])
  | c :: cs =>
    let r := fifo_step cap q c
    let rest := fifo_run cap r.1 cs
    (rest.1, r.2 :: rest.2)

/-- **What was popped and what is left is what was taken.** -/
theorem fifo_run_conserves (cap : Nat) (q : List α) (cs : List (FifoCall α)) :
    fifo_given (fifo_run cap q cs).2 ++ (fifo_run cap q cs).1 = q ++ fifo_taken cs (fifo_run cap q cs).2 := by
  induction cs generalizing q with
  | nil => simp [fifo_run, fifo_given, fifo_taken]
  | cons c cs ih =>
    rw [fifo_run]
    dsimp only
    have hone := fifo_step_conserves cap q c
    have hrest := ih (fifo_step cap q c).1
    generalize (fifo_step cap q c).2 = reply at hone
    have hgiven : ∀ replies, fifo_given (reply :: replies) = fifo_given [reply] ++ fifo_given replies := by
      intro replies
      cases reply <;> simp [fifo_given]
    have htaken : ∀ replies, fifo_taken (c :: cs) (reply :: replies) =
        fifo_taken [c] [reply] ++ fifo_taken cs replies := by
      intro replies
      rcases c with data | n <;> rcases reply with (_ | _) | xs <;> simp [fifo_taken]
    rw [hgiven, htaken, List.append_assoc, hrest, ← List.append_assoc, hone, List.append_assoc]

/-- The state `s` stands for the contents `q`, and answers every call as the queue does. -/
def Fifo.Implements (cap : Nat) (step : σ → ι → Option (σ × FifoReply α)) (call : ι → FifoCall α)
    (R : σ → List α → Prop) : Prop :=
  ∀ s q c, R s q → Returns (step s c) fun r =>
    R r.1 (fifo_step cap q (call c)).1 ∧ r.2 = (fifo_step cap q (call c)).2

/-- **An implementation answers runs as the queue does.** -/
theorem Fifo.Implements.run {cap : Nat} {step : σ → ι → Option (σ × FifoReply α)} {call : ι → FifoCall α}
    {R : σ → List α → Prop} (himpl : Fifo.Implements cap step call R) {s : σ} {q : List α} (hs : R s q)
    (cs : List ι) :
    Returns (answers step s cs) fun r =>
      R r.1 (fifo_run cap q (cs.map call)).1 ∧ r.2 = (fifo_run cap q (cs.map call)).2 := by
  induction cs generalizing s q with
  | nil => exact .ret ⟨hs, rfl⟩
  | cons c cs ih =>
    refine (himpl s q c hs).bind ?_
    rintro ⟨t, reply⟩ ⟨ht, rfl⟩
    refine (ih ht).bind ?_
    rintro ⟨u, replies⟩ ⟨hu, rfl⟩
    exact .ret ⟨hu, rfl⟩

end EveOS
