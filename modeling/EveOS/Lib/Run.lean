/-
Runs of a deterministic transition system.

A system is a step function `σ → ε → σ`. A run feeds it a list of events.
A few notions are enough for the developments built on it: a property that
holds at every step of a run (`Along`), the invariant and the simulation rule, and
a ghost value that watches a run without taking part in it (`observe`).

Nothing in this file knows about the kernel.
-/
import Mathlib

set_option autoImplicit false

namespace EveOS

variable {σ ε γ : Type*}

/-- The state after a list of events. -/
def run (step : σ → ε → σ) (s : σ) (es : List ε) : σ := es.foldl step s

@[simp] theorem run_nil (step : σ → ε → σ) (s : σ) : run step s [] = s := rfl

@[simp] theorem run_cons (step : σ → ε → σ) (s : σ) (e : ε) (es : List ε) :
    run step s (e :: es) = run step (step s e) es := rfl

theorem run_append (step : σ → ε → σ) (s : σ) (es fs : List ε) :
    run step s (es ++ fs) = run step (run step s es) fs := by
  simp only [run, List.foldl_append]

/-- `cond` holds of every event of the run, in the state it is taken in. -/
def Along (step : σ → ε → σ) (cond : σ → ε → Prop) : σ → List ε → Prop
  | _, [] => True
  | s, e :: es => cond s e ∧ Along step cond (step s e) es

/-- Whether a condition holds along a concrete run can be computed. -/
instance Along.decidable (step : σ → ε → σ) (cond : σ → ε → Prop)
    [∀ s e, Decidable (cond s e)] : (s : σ) → (es : List ε) → Decidable (Along step cond s es)
  | _, [] => isTrue trivial
  | s, e :: es =>
    have := Along.decidable step cond (step s e) es
    inferInstanceAs (Decidable (cond s e ∧ Along step cond (step s e) es))

theorem along_append (step : σ → ε → σ) (cond : σ → ε → Prop) (s : σ) (es fs : List ε) :
    Along step cond s (es ++ fs) ↔
      Along step cond s es ∧ Along step cond (run step s es) fs := by
  induction es generalizing s with
  | nil => simp [Along]
  | cons e es ih => simp only [List.cons_append, Along, run_cons, ih, and_assoc]

/-- A weaker condition holds along the same run. -/
theorem Along.mono {step : σ → ε → σ} {cond cond' : σ → ε → Prop}
    (h : ∀ s e, cond s e → cond' s e) {s : σ} {es : List ε} (ha : Along step cond s es) :
    Along step cond' s es := by
  induction es generalizing s with
  | nil => trivial
  | cons e es ih => exact ⟨h s e ha.1, ih ha.2⟩

/-- **The invariant rule.** What every step that meets `cond` preserves holds
after every run whose steps all meet it. -/
theorem run_invariant {step : σ → ε → σ} {cond : σ → ε → Prop} {I : σ → Prop}
    (hstep : ∀ s e, I s → cond s e → I (step s e)) {s : σ} {es : List ε}
    (ha : Along step cond s es) (hs : I s) : I (run step s es) := by
  induction es generalizing s with
  | nil => exact hs
  | cons e es ih => exact ih ha.2 (hstep s e hs ha.1)

/-- The invariant rule without a condition. -/
theorem run_preserves {step : σ → ε → σ} {I : σ → Prop} (hstep : ∀ s e, I s → I (step s e)) {s : σ}
    (hs : I s) (es : List ε) : I (run step s es) := by
  induction es generalizing s with
  | nil => exact hs
  | cons e es ih => exact ih (hstep s e hs)

/-- With an invariant in hand, a condition that follows from it holds at every
step. -/
theorem along_of_invariant {step : σ → ε → σ} {cond post : σ → ε → Prop} {I : σ → Prop}
    (hstep : ∀ s e, I s → cond s e → I (step s e))
    (hpost : ∀ s e, I s → cond s e → post s e) {s : σ} {es : List ε}
    (ha : Along step cond s es) (hs : I s) : Along step post s es := by
  induction es generalizing s with
  | nil => trivial
  | cons e es ih => exact ⟨hpost s e hs ha.1, ih ha.2 (hstep s e hs ha.1)⟩

/-- The same without a condition. -/
theorem along_of_preserved {step : σ → ε → σ} {post : σ → ε → Prop} {I : σ → Prop}
    (hstep : ∀ s e, I s → I (step s e)) (hpost : ∀ s e, I s → post s e) {s : σ} (hs : I s)
    (es : List ε) : Along step post s es := by
  induction es generalizing s with
  | nil => trivial
  | cons e es ih => exact ⟨hpost s e hs, ih (hstep s e hs)⟩

/-- Two conditions that agree while an invariant holds are the same along a run, if the
second keeps the invariant. -/
theorem along_iff_of_invariant {step : σ → ε → σ} {cond cond' : σ → ε → Prop} {I : σ → Prop}
    (hiff : ∀ s e, I s → (cond s e ↔ cond' s e)) (hstep : ∀ s e, I s → cond' s e → I (step s e)) {s : σ}
    (hs : I s) (es : List ε) : Along step cond s es ↔ Along step cond' s es := by
  induction es generalizing s with
  | nil => exact Iff.rfl
  | cons e es ih =>
    simp only [Along]
    rw [hiff s e hs]
    exact and_congr_right fun h => ih (hstep s e hs h)

/-- **The simulation rule.** Two systems that take the same events stay related when
every step that meets `cond` keeps them so. -/
theorem run_simulates {τ : Type*} {step : σ → ε → σ} {step' : τ → ε → τ} {cond : σ → ε → Prop}
    {R : σ → τ → Prop} (hstep : ∀ s t e, R s t → cond s e → R (step s e) (step' t e)) {s : σ} {t : τ}
    {es : List ε} (ha : Along step cond s es) (h : R s t) : R (run step s es) (run step' t es) := by
  induction es generalizing s t with
  | nil => exact h
  | cons e es ih => exact ih ha.2 (hstep s t e h ha.1)

/-- **The budget rule.** Where each chosen event adds at most one to `size`, a run with
few of them takes each one below the bound. -/
theorem along_budget {α : Type*} {step : σ → ε → σ} (f : ε → Option α) (size : σ → Nat)
    (hsize : ∀ s e, size (step s e) ≤ size s + (f e).toList.length) {s : σ} {es : List ε} {n : Nat}
    (h : size s + (es.filterMap f).length ≤ n) :
    Along step (fun s e => (f e).isSome = true → size s < n) s es := by
  induction es generalizing s with
  | nil => trivial
  | cons e es ih =>
    have hstep := hsize s e
    cases he : f e with
    | none =>
      rw [List.filterMap_cons_none he] at h
      rw [he] at hstep
      refine ⟨?_, ih (Nat.le_trans (Nat.add_le_add_right hstep _) h)⟩
      intro hsome
      rw [he] at hsome
      cases hsome
    | some a =>
      rw [List.filterMap_cons_some he, List.length_cons] at h
      rw [he] at hstep
      have hone : (some a).toList.length = 1 := rfl
      exact ⟨fun _ => by omega, ih (by omega)⟩

/-! ## Reaching a state -/

/-- `t` is reached from `s` by events that are all `ok`. -/
def Reaches (step : σ → ε → σ) (ok : ε → Prop) (s t : σ) : Prop :=
  ∃ es : List ε, (∀ e ∈ es, ok e) ∧ run step s es = t

theorem Reaches.refl (step : σ → ε → σ) (ok : ε → Prop) (s : σ) : Reaches step ok s s :=
  ⟨[], by simp, rfl⟩

theorem Reaches.trans {step : σ → ε → σ} {ok : ε → Prop} {s t u : σ}
    (h₁ : Reaches step ok s t) (h₂ : Reaches step ok t u) : Reaches step ok s u := by
  obtain ⟨es, hes, rfl⟩ := h₁
  obtain ⟨fs, hfs, rfl⟩ := h₂
  refine ⟨es ++ fs, ?_, run_append step s es fs⟩
  intro e he
  rcases List.mem_append.mp he with h | h
  · exact hes e h
  · exact hfs e h

theorem Reaches.one {step : σ → ε → σ} {ok : ε → Prop} (s : σ) (e : ε) (he : ok e) :
    Reaches step ok s (step s e) :=
  ⟨[e], by simpa using he, rfl⟩

theorem Reaches.mono {step : σ → ε → σ} {ok ok' : ε → Prop} (hok : ∀ e, ok e → ok' e) {s t : σ}
    (h : Reaches step ok s t) : Reaches step ok' s t := by
  obtain ⟨es, hes, ht⟩ := h
  exact ⟨es, fun e he => hok e (hes e he), ht⟩

/-- What every `ok` event preserves holds in every state reached. -/
theorem Reaches.invariant {step : σ → ε → σ} {ok : ε → Prop} {I : σ → Prop}
    (hstep : ∀ s e, I s → ok e → I (step s e)) {s t : σ} (h : Reaches step ok s t)
    (hs : I s) : I t := by
  obtain ⟨es, hes, rfl⟩ := h
  induction es generalizing s with
  | nil => exact hs
  | cons e es ih =>
    rw [run_cons]
    exact ih (hstep s e hs (hes e List.mem_cons_self))
      (fun e' he' => hes e' (List.mem_cons_of_mem _ he'))

/-! ## Watching a run -/

/-- The system with a ghost value: `note` sees the state before the event, the
event and the state after it, and cannot change either. -/
def observe (step : σ → ε → σ) (note : γ → σ → ε → σ → γ) (x : σ × γ) (e : ε) : σ × γ :=
  (step x.1 e, note x.2 x.1 e (step x.1 e))

/-- The ghost does not take part in the run. -/
theorem run_observe_fst (step : σ → ε → σ) (note : γ → σ → ε → σ → γ) (x : σ × γ)
    (es : List ε) : (run (observe step note) x es).1 = run step x.1 es := by
  induction es generalizing x with
  | nil => rfl
  | cons e es ih => simp only [run_cons, ih, observe]

end EveOS
