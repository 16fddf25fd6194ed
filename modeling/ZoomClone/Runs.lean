/-
Runs of a deterministic event system.

`step : σ → ε → σ` says what each event does; a run is a list of events.  Two
predicates on runs carry every safety argument of the development, and two look
back from its end:

* `Always P` — `P` holds in every state the run passes through;
* `Guarded C` — every event of the run meets the condition `C` in the state in
  which it happens;
* `Happened C` — some event did;
* `Since C P` — some event did, and `P` has held ever since.

The rules below trade one for the other.  `Guarded.always` is the invariant
rule relative to a condition on the events, and `always_iff_guarded` says that
a condition which is exact for one step is exact for whole runs.
-/
import Mathlib.Data.List.Infix

namespace Runs

variable {σ ε : Type*} (step : σ → ε → σ)

/-- The state after the events. -/
def run (s : σ) (evs : List ε) : σ := evs.foldl step s

@[simp] theorem run_nil (s : σ) : run step s [] = s := rfl

@[simp] theorem run_cons (s : σ) (e : ε) (evs : List ε) :
    run step s (e :: evs) = run step (step s e) evs := rfl

theorem run_append (s : σ) (evs evs' : List ε) :
    run step s (evs ++ evs') = run step (run step s evs) evs' :=
  List.foldl_append

@[simp] theorem run_concat (s : σ) (evs : List ε) (e : ε) :
    run step s (evs ++ [e]) = step (run step s evs) e := by
  rw [run_append, run_cons, run_nil]

/-- `P` holds at the start and after every event. -/
def Always (P : σ → Prop) (s : σ) (evs : List ε) : Prop :=
  ∀ pre, pre <+: evs → P (run step s pre)

/-- Every event meets `C` in the state in which it happens. -/
def Guarded (C : σ → ε → Prop) (s : σ) (evs : List ε) : Prop :=
  ∀ pre e, pre ++ [e] <+: evs → C (run step s pre) e

/-- Some event met `C` in the state in which it happened. -/
def Happened (C : σ → ε → Prop) (s : σ) (evs : List ε) : Prop :=
  ∃ pre e, pre ++ [e] <+: evs ∧ C (run step s pre) e

/-- Some event met `C`, and `P` has held from then on. -/
def Since (C : σ → ε → Prop) (P : σ → Prop) (s : σ) (evs : List ε) : Prop :=
  ∃ pre e, pre ++ [e] <+: evs ∧ C (run step s pre) e ∧
    ∀ mid, pre ++ [e] <+: mid → mid <+: evs → P (run step s mid)

variable {step} {P Q I : σ → Prop} {C : σ → ε → Prop} {s : σ} {evs evs' : List ε} {e : ε}

theorem always_nil : Always step P s [] ↔ P s := by
  simp [Always]

theorem guarded_nil : Guarded step C s [] := by
  intro pre e h
  simp at h

theorem always_concat :
    Always step P s (evs ++ [e]) ↔ Always step P s evs ∧ P (run step s (evs ++ [e])) := by
  constructor
  · intro h
    exact ⟨fun pre hpre => h pre (hpre.trans (List.prefix_append _ _)),
      h _ (List.prefix_refl _)⟩
  · rintro ⟨h, he⟩ pre hpre
    rcases List.prefix_concat_iff.mp hpre with rfl | hpre
    · exact he
    · exact h pre hpre

theorem guarded_concat :
    Guarded step C s (evs ++ [e]) ↔ Guarded step C s evs ∧ C (run step s evs) e := by
  constructor
  · intro h
    exact ⟨fun pre e' hpre => h pre e' (hpre.trans (List.prefix_append _ _)),
      h _ _ (List.prefix_refl _)⟩
  · rintro ⟨h, he⟩ pre e' hpre
    rcases List.prefix_concat_iff.mp hpre with heq | hpre
    · obtain ⟨rfl, hee⟩ := List.append_inj' heq rfl
      obtain rfl : e' = e := by simpa using hee
      exact he
    · exact h pre e' hpre

theorem happened_concat :
    Happened step C s (evs ++ [e]) ↔ Happened step C s evs ∨ C (run step s evs) e := by
  constructor
  · rintro ⟨pre, e', hpre, hC⟩
    rcases List.prefix_concat_iff.mp hpre with heq | hpre
    · obtain ⟨rfl, hee⟩ := List.append_inj' heq rfl
      obtain rfl : e' = e := by simpa using hee
      exact .inr hC
    · exact .inl ⟨pre, e', hpre, hC⟩
  · rintro (⟨pre, e', hpre, hC⟩ | hC)
    · exact ⟨pre, e', hpre.trans (List.prefix_append _ _), hC⟩
    · exact ⟨evs, e, List.prefix_refl _, hC⟩

theorem since_concat : Since step C P s (evs ++ [e]) ↔
    (Since step C P s evs ∨ C (run step s evs) e) ∧ P (run step s (evs ++ [e])) := by
  constructor
  · rintro ⟨pre, e', hpre, hC, hP⟩
    refine ⟨?_, hP _ hpre (List.prefix_refl _)⟩
    rcases List.prefix_concat_iff.mp hpre with heq | hpre
    · obtain ⟨rfl, hee⟩ := List.append_inj' heq rfl
      obtain rfl : e' = e := by simpa using hee
      exact .inr hC
    · exact .inl ⟨pre, e', hpre, hC,
        fun mid hmid h => hP mid hmid (h.trans (List.prefix_append _ _))⟩
  · rintro ⟨⟨pre, e', hpre, hC, hP⟩ | hC, hlast⟩
    · refine ⟨pre, e', hpre.trans (List.prefix_append _ _), hC, fun mid hmid h => ?_⟩
      rcases List.prefix_concat_iff.mp h with rfl | h
      · exact hlast
      · exact hP mid hmid h
    · refine ⟨evs, e, List.prefix_refl _, hC, fun mid hmid h => ?_⟩
      obtain rfl := hmid.eq_of_length_le h.length_le
      exact hlast

theorem always_cons :
    Always step P s (e :: evs) ↔ P s ∧ Always step P (step s e) evs := by
  constructor
  · intro h
    refine ⟨h [] List.nil_prefix, ?_⟩
    intro pre hpre
    exact h (e :: pre) (List.cons_prefix_cons.mpr ⟨rfl, hpre⟩)
  · rintro ⟨hs, h⟩ pre hpre
    cases pre with
    | nil => exact hs
    | cons e' pre =>
      obtain ⟨rfl, htail⟩ := List.cons_prefix_cons.mp hpre
      exact h pre htail

theorem guarded_cons :
    Guarded step C s (e :: evs) ↔ C s e ∧ Guarded step C (step s e) evs := by
  constructor
  · intro h
    refine ⟨h [] e (by simp), ?_⟩
    intro pre e' hpre
    exact h (e :: pre) e' (List.cons_prefix_cons.mpr ⟨rfl, hpre⟩)
  · rintro ⟨hs, h⟩ pre e' hpre
    cases pre with
    | nil =>
      obtain ⟨rfl, -⟩ := List.cons_prefix_cons.mp hpre
      exact hs
    | cons e'' pre =>
      obtain ⟨rfl, htail⟩ := List.cons_prefix_cons.mp hpre
      exact h pre e' htail

theorem guarded_append :
    Guarded step C s (evs ++ evs') ↔ Guarded step C s evs ∧
      Guarded step C (run step s evs) evs' := by
  induction evs generalizing s with
  | nil => exact ⟨fun h => ⟨guarded_nil, h⟩, fun h => h.2⟩
  | cons e evs ih => rw [List.cons_append, guarded_cons, guarded_cons, ih, run_cons, and_assoc]

/-- Runs can be checked. -/
instance [∀ t, Decidable (P t)] : Decidable (Always step P s evs) :=
  let rec check : (evs : List ε) → (s : σ) → Decidable (Always step P s evs)
    | [], _ => decidable_of_iff _ always_nil.symm
    | e :: evs, s =>
      have := check evs (step s e)
      decidable_of_iff _ always_cons.symm
  check evs s

instance [∀ t e, Decidable (C t e)] : Decidable (Guarded step C s evs) :=
  let rec check : (evs : List ε) → (s : σ) → Decidable (Guarded step C s evs)
    | [], _ => isTrue guarded_nil
    | e :: evs, s =>
      have := check evs (step s e)
      decidable_of_iff _ guarded_cons.symm
  check evs s

theorem Always.last (h : Always step P s evs) : P (run step s evs) :=
  h evs (List.prefix_refl _)

theorem Always.mono (h : Always step P s evs) (hPQ : ∀ t, P t → Q t) : Always step Q s evs :=
  fun pre hpre => hPQ _ (h pre hpre)

theorem Guarded.mono {C' : σ → ε → Prop} (h : Guarded step C s evs) (hCC' : ∀ t e, C t e → C' t e) :
    Guarded step C' s evs :=
  fun pre e hpre => hCC' _ _ (h pre e hpre)

/-- **Invariant rule.**  What holds at the start and is kept by every event
that meets the condition holds throughout every run that meets it. -/
theorem Guarded.always (h0 : I s) (hstep : ∀ t e, I t → C t e → I (step t e))
    (hg : Guarded step C s evs) : Always step I s evs := by
  induction evs using List.reverseRecOn with
  | nil => exact always_nil.mpr h0
  | append_singleton evs e ih =>
    obtain ⟨hg, he⟩ := guarded_concat.mp hg
    have hi := ih hg
    refine always_concat.mpr ⟨hi, ?_⟩
    rw [run_concat]
    exact hstep _ _ hi.last he

/-- The invariant rule without a condition. -/
theorem always_of_step (h0 : I s) (hstep : ∀ t e, I t → I (step t e)) (evs : List ε) :
    Always step I s evs :=
  Guarded.always (C := fun _ _ => True) h0 (fun t e ht _ => hstep t e ht)
    (fun _ _ _ => trivial)

/-- The invariant rule for the events of one run. -/
theorem always_of_mem (h0 : I s) (hstep : ∀ t, ∀ e ∈ evs, I t → I (step t e)) :
    Always step I s evs := by
  refine Guarded.always (C := fun _ e => e ∈ evs) h0 (fun t e ht he => hstep t e he ht) ?_
  intro pre e hpre
  exact hpre.subset (List.mem_append_right pre (List.mem_singleton_self e))

/-- **Exactness rule.**  Where, under an invariant, an event keeps `P` exactly
when it meets `C`, a run keeps `P` throughout exactly when all its events meet
`C`. -/
theorem always_iff_guarded (hI : I s) (hP : P s) (hstepI : ∀ t e, I t → I (step t e))
    (hstep : ∀ t e, I t → P t → (P (step t e) ↔ C t e)) (evs : List ε) :
    Always step P s evs ↔ Guarded step C s evs := by
  induction evs using List.reverseRecOn with
  | nil => exact ⟨fun _ => guarded_nil, fun _ => always_nil.mpr hP⟩
  | append_singleton evs e ih =>
    have hi : I (run step s evs) := (always_of_step hI hstepI evs).last
    rw [always_concat, guarded_concat, ih, run_concat]
    constructor
    · rintro ⟨hg, he⟩
      exact ⟨hg, (hstep _ _ hi (ih.mpr hg).last).mp he⟩
    · rintro ⟨hg, he⟩
      exact ⟨hg, (hstep _ _ hi (ih.mpr hg).last).mpr he⟩

/-- The exactness rule for runs whose events all meet `A`. -/
theorem always_iff_guarded_of {A : σ → ε → Prop} (hI : I s) (hP : P s)
    (hstepI : ∀ t e, I t → A t e → I (step t e))
    (hstep : ∀ t e, I t → A t e → P t → (P (step t e) ↔ C t e)) (hA : Guarded step A s evs) :
    Always step P s evs ↔ Guarded step C s evs := by
  induction evs using List.reverseRecOn with
  | nil => exact ⟨fun _ => guarded_nil, fun _ => always_nil.mpr hP⟩
  | append_singleton evs e ih =>
    obtain ⟨hA, he⟩ := guarded_concat.mp hA
    have hi : I (run step s evs) := (Guarded.always hI hstepI hA).last
    rw [always_concat, guarded_concat, ih hA, run_concat]
    refine and_congr_right fun hg => ?_
    exact hstep _ _ hi he ((ih hA).mpr hg).last

/-- Two properties agree throughout a run when they agree at its start and after every
event of a state that has the second. -/
theorem always_iff_always (hI : I s) (h0 : P s ↔ Q s) (hstepI : ∀ t e, I t → I (step t e))
    (hstep : ∀ t e, I t → Q t → (P (step t e) ↔ Q (step t e))) (evs : List ε) :
    Always step P s evs ↔ Always step Q s evs := by
  induction evs using List.reverseRecOn with
  | nil => rw [always_nil, always_nil, h0]
  | append_singleton evs e ih =>
    have hi : I (run step s evs) := (always_of_step hI hstepI evs).last
    rw [always_concat, always_concat, ih, run_concat]
    exact and_congr_right fun hq => hstep _ _ hi hq.last

/-- Two conditions on the events agree on whole runs when they agree on each
event of a state that the runs meeting one of them reach. -/
theorem guarded_iff {L : σ → ε → Prop} (h0 : I s) (hstep : ∀ t e, I t → C t e → I (step t e))
    (hiff : ∀ t e, I t → (L t e ↔ C t e)) (evs : List ε) :
    Guarded step L s evs ↔ Guarded step C s evs := by
  induction evs using List.reverseRecOn with
  | nil => exact ⟨fun _ => guarded_nil, fun _ => guarded_nil⟩
  | append_singleton evs e ih =>
    rw [guarded_concat, guarded_concat, ih]
    refine and_congr_right ?_
    intro hg
    exact hiff _ _ (Guarded.always h0 hstep hg).last

end Runs
