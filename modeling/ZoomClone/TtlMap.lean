/-
Maps whose entries have deadlines.

A key maps to a value and an optional deadline, and is absent from its deadline on.  So
what a map holds beyond the deadlines does not matter: two maps are alike from an instant on
if every lookup from then on finds the same.

* `lookup` — the entry under a key that is not over;
* `AgreeFrom` — the maps are alike from an instant on; it is kept by the same update on both
  sides, and dropping what is over is no difference at all.
-/
import Mathlib.Logic.Function.Basic
import Mathlib.Order.Lattice

namespace TtlMap

variable {κ ν θ : Type*}

/-- A value, and the instant from which on it is absent. -/
structure Slot (ν θ : Type*) where
  value : ν
  deadline : Option θ

section Lookup

variable [LinearOrder θ]

/-- The deadline has come. -/
def Slot.Over (slot : Slot ν θ) (now : θ) : Prop := ∃ d, slot.deadline = some d ∧ d ≤ now

instance (slot : Slot ν θ) (now : θ) : Decidable (slot.Over now) :=
  match h : slot.deadline with
  | none => isFalse (by rintro ⟨d, hd, -⟩; rw [h] at hd; cases hd)
  | some d =>
    decidable_of_iff (d ≤ now) ⟨fun hle => ⟨d, h, hle⟩, by
      rintro ⟨d', hd, hle⟩
      rw [h] at hd
      obtain rfl := Option.some.inj hd
      exact hle⟩

/-- What is over stays over. -/
theorem Slot.Over.later {slot : Slot ν θ} {now now' : θ} (h : slot.Over now) (hle : now ≤ now') :
    slot.Over now' := by
  obtain ⟨d, hd, hover⟩ := h
  exact ⟨d, hd, hover.trans hle⟩

/-- The entry under a key, if it is not over. -/
def lookup (m : κ → Option (Slot ν θ)) (k : κ) (now : θ) : Option (Slot ν θ) :=
  (m k).filter fun slot => ¬ slot.Over now

variable {m m' m'' : κ → Option (Slot ν θ)} {k : κ} {t now : θ}

theorem lookup_of_none (h : m k = none) : lookup m k now = none := by
  rw [lookup, h]
  rfl

theorem lookup_of_over {slot : Slot ν θ} (h : m k = some slot) (hover : slot.Over now) :
    lookup m k now = none := by
  rw [lookup, h]
  simp [hover]

/-- Every lookup from `t` on finds the same in both. -/
def AgreeFrom (t : θ) (m m' : κ → Option (Slot ν θ)) : Prop :=
  ∀ k now, t ≤ now → lookup m k now = lookup m' k now

theorem AgreeFrom.refl (t : θ) (m : κ → Option (Slot ν θ)) : AgreeFrom t m m := fun _ _ _ => rfl

theorem AgreeFrom.trans (h : AgreeFrom t m m') (h' : AgreeFrom t m' m'') : AgreeFrom t m m'' :=
  fun k now hle => (h k now hle).trans (h' k now hle)

theorem AgreeFrom.later {t' : θ} (h : AgreeFrom t m m') (hle : t ≤ t') : AgreeFrom t' m m' :=
  fun k now hnow => h k now (hle.trans hnow)

/-- The same entry goes in on both sides, or none. -/
theorem AgreeFrom.update [DecidableEq κ] (h : AgreeFrom t m m') (k : κ) (slot : Option (Slot ν θ)) :
    AgreeFrom t (Function.update m k slot) (Function.update m' k slot) := by
  intro j now hle
  by_cases hj : j = k
  · rw [hj, lookup, lookup, Function.update_self, Function.update_self]
  · rw [lookup, lookup, Function.update_of_ne hj, Function.update_of_ne hj]
    exact h j now hle

/-- Entries that are over may be missing. -/
theorem agreeFrom_of_drops (h : ∀ k, m' k = m k ∨ m' k = none ∧ ∀ slot, m k = some slot →
      slot.Over t) :
    AgreeFrom t m' m := by
  intro k now hle
  rcases h k with hsame | ⟨hnone, hover⟩
  · rw [lookup, lookup, hsame]
  · rw [lookup_of_none hnone]
    cases hslot : m k with
    | none => rw [lookup_of_none hslot]
    | some slot => rw [lookup_of_over hslot ((hover slot hslot).later hle)]

end Lookup

end TtlMap
