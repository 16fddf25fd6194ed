/-
Deterministic machines that answer each call.

`step : σ → ι → ο × σ` answers a call and moves on.  Two machines are told apart by what
they answer only, so one implements the other if a relation between their states makes
every call answer alike and is kept.

* `answers` — what a machine answers to a list of calls;
* `Paced` — calls that meet a condition on a clock, or on whatever they carry along;
* `answers_eq_of_sim` — the simulation rule.
-/
import Mathlib.Logic.Basic

namespace Machines

variable {σ τ ι ο γ : Type*}

/-- The answers to the calls, in their order. -/
def answers (step : σ → ι → ο × σ) : σ → List ι → List ο
  | _, [] => []
  | s, i :: is => (step s i).1 :: answers step (step s i).2 is

/-- Every call may come where the calls before it have led to. -/
def Paced (may : γ → ι → γ → Prop) : γ → List ι → Prop
  | _, [] => True
  | g, i :: is => ∃ g', may g i g' ∧ Paced may g' is

theorem answers_cons {step : σ → ι → ο × σ} {s : σ} {i : ι} {is : List ι} :
    answers step s (i :: is) = (step s i).1 :: answers step (step s i).2 is := rfl

section Simulation

variable {step : σ → ι → ο × σ} {step' : τ → ι → ο × τ} {may : γ → ι → γ → Prop}
  {R : γ → σ → τ → Prop}
  {g : γ} {s : σ} {t : τ} {is : List ι}

/-- **Simulation rule.**  Calls that are paced are answered alike in related states, if one
call is and leads to related states. -/
theorem answers_eq_of_sim (hstep : ∀ g i g' s t, may g i g' → R g s t →
      (step s i).1 = (step' t i).1 ∧ R g' (step s i).2 (step' t i).2)
    (h0 : R g s t) (hpaced : Paced may g is) : answers step s is = answers step' t is := by
  induction is generalizing g s t with
  | nil => rfl
  | cons i is ih =>
    obtain ⟨g', hmay, hrest⟩ := hpaced
    obtain ⟨hanswer, hrelated⟩ := hstep g i g' s t hmay h0
    rw [answers_cons, answers_cons, hanswer, ih hrelated hrest]

end Simulation

end Machines
