/-
Requests that an effect makes for a key.

The effect runs again whenever its key changes, and its cleanup discards the response of
the request before.  So at most one request is awaited, the last one, and it was made for
the key that the effect ran with last (`Follows`).
-/
import Mathlib.Data.List.Infix

/-- The keys of the requests so far, and the key of the one that is awaited. -/
structure EffectRequests (κ : Type*) where
  made : List κ := []
  /-- The key of the last request, until it is answered or cancelled. -/
  awaited : Option κ := none

namespace EffectRequests

variable {κ : Type*}

/-- The cleanup, and the effect with its new key, if it asks for anything. -/
def restart (r : EffectRequests κ) : Option κ → EffectRequests κ
  | none => { r with awaited := none }
  | some key => ⟨r.made ++ [key], some key⟩

/-- The key that request `i` was made for, if its response counts. -/
def answer (r : EffectRequests κ) (i : ℕ) : Option κ :=
  if i + 1 = r.made.length then r.awaited else none

/-- The request that was awaited is answered. -/
def settle (r : EffectRequests κ) : EffectRequests κ := { r with awaited := none }

/-- What is awaited is the last request, and it was made for `key`. -/
def Follows (r : EffectRequests κ) (key : Option κ) : Prop :=
  ∀ k, r.awaited = some k → key = some k ∧ r.made.getLast? = some k

variable {r : EffectRequests κ} {key : Option κ} {i : ℕ} {k : κ}

@[simp] theorem awaited_restart : (r.restart key).awaited = key := by cases key <;> rfl

@[simp] theorem awaited_settle : r.settle.awaited = none := rfl

@[simp] theorem made_settle : r.settle.made = r.made := rfl

theorem made_prefix_restart : r.made <+: (r.restart key).made := by
  cases key with
  | none => exact List.prefix_refl _
  | some k => exact List.prefix_append _ _

/-- Only what is awaited is answered. -/
theorem awaited_of_answer (h : r.answer i = some k) : r.awaited = some k := by
  rw [answer] at h
  split at h
  · exact h
  · cases h

theorem follows_restart : (r.restart key).Follows key := by
  cases key with
  | none =>
    intro k hk
    cases hk
  | some key =>
    intro k hk
    cases hk
    exact ⟨rfl, by simp [restart]⟩

theorem follows_settle : r.settle.Follows key := by
  intro k hk
  cases hk

/-- A response that counts is one to a request for the key. -/
theorem Follows.made (h : r.Follows key) (hanswer : r.answer i = some k) :
    key = some k ∧ r.made[i]? = some k := by
  obtain ⟨hkey, hlast⟩ := h k (awaited_of_answer hanswer)
  refine ⟨hkey, ?_⟩
  rw [answer] at hanswer
  split at hanswer
  · rename_i hi
    rw [List.getLast?_eq_getElem?, ← hi] at hlast
    simpa using hlast
  · cases hanswer

end EffectRequests
