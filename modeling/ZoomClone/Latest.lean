/-
The latest members of a list in order.

`IsLatest key all shown count` says of a list `shown` what showing the latest `count`
members of `all` means: they are in order, they are as many as there are to show, and
whatever is left out is older.  A list in order has one such part, its tail end; its front
end is that one only if nothing is left out.

* `isLatest_iff` — the latest `count` are the last `count`;
* `isLatest_take_iff` — the front end is the latest part only if it is everything.
-/
import Mathlib.Data.List.DropRight
import Mathlib.Data.List.Perm.Subperm
import Mathlib.Order.Lattice

namespace Latest

variable {α β : Type*} [LinearOrder β] (key : α → β)

/-- Every member is older than those after it. -/
def InOrder (l : List α) : Prop := l.Pairwise fun a b => key a < key b

/-- `shown` are the latest `count` members of `all`, or all of them. -/
structure IsLatest (all shown : List α) (count : ℕ) : Prop where
  inOrder : InOrder key shown
  subset : shown ⊆ all
  length : shown.length = min all.length count
  latest : ∀ a ∈ shown, ∀ b ∈ all, b ∉ shown → key b < key a

variable {key} {all shown : List α} {count : ℕ}

theorem InOrder.nodup (h : InOrder key all) : all.Nodup :=
  h.imp fun hlt heq => absurd (congrArg key heq) hlt.ne

/-- What lies before a place is older than what lies behind it. -/
theorem InOrder.split (h : InOrder key all) {k : ℕ} {a b : α}
    (ha : a ∈ all.take k) (hb : b ∈ all.drop k) :
    key a < key b := by
  rw [InOrder, ← List.take_append_drop k all] at h
  exact (List.pairwise_append.mp h).2.2 a ha b hb

/-- Two lists in order with the same members are one. -/
theorem InOrder.eq_of_perm {l₁ l₂ : List α} (h₁ : InOrder key l₁)
    (h₂ : InOrder key l₂) (h : l₁.Perm l₂) :
    l₁ = l₂ :=
  h.eq_of_pairwise (fun _ _ _ _ hab hba => absurd hba hab.asymm) h₁ h₂

/-- The tail end is the latest part. -/
theorem isLatest_rtake (h : InOrder key all) (count : ℕ) :
    IsLatest key all (all.rtake count) count where
  inOrder := h.sublist (List.drop_sublist _ _)
  subset := List.drop_subset _ _
  length := by
    rw [List.rtake, List.length_drop]
    omega
  latest := by
    intro a ha b hb hleft
    rw [← List.take_append_drop (all.length - count) all] at hb
    exact h.split ((List.mem_append.mp hb).resolve_right hleft) ha

/-- Of two latest parts, neither has a member that the other lacks. -/
theorem IsLatest.subset_of {shown' : List α} (h : IsLatest key all shown count)
    (h' : IsLatest key all shown' count) : shown ⊆ shown' := by
  intro a ha
  by_contra hleft
  -- `shown'` is as long, so it has a member that `shown` lacks; each would be the older one
  have hmore : ¬ shown' ⊆ shown := by
    intro hsubset
    have hperm : shown'.Perm shown :=
      (List.Nodup.subperm h'.inOrder.nodup hsubset).perm_of_length_le (by rw [h.length, h'.length])
    exact hleft (hperm.mem_iff.mpr ha)
  obtain ⟨b, hb, hlack⟩ : ∃ b ∈ shown', b ∉ shown := by
    simpa [List.subset_def] using hmore
  exact (h.latest a ha b (h'.subset hb) hlack).asymm (h'.latest b hb a (h.subset ha) hleft)

/-- **The latest `count` members are the last `count`.** -/
theorem isLatest_iff (h : InOrder key all) :
    IsLatest key all shown count ↔ shown = all.rtake count := by
  constructor
  · intro hshown
    have htail := isLatest_rtake h count
    have hperm : shown.Perm (all.rtake count) :=
      (List.perm_ext_iff_of_nodup hshown.inOrder.nodup htail.inOrder.nodup).mpr fun _ =>
        ⟨fun ha => hshown.subset_of htail ha, fun ha => htail.subset_of hshown ha⟩
    exact hshown.inOrder.eq_of_perm htail.inOrder hperm
  · rintro rfl
    exact isLatest_rtake h count

/-- **The front end is the latest part only if it is everything.** -/
theorem isLatest_take_iff (h : InOrder key all) (hcount : 0 < count) :
    IsLatest key all (all.take count) count ↔ all.length ≤ count := by
  rw [isLatest_iff h, List.rtake]
  constructor
  · intro heq
    by_contra hlong
    have hpos : 0 < all.length := by omega
    -- the first member is in front of the tail end
    have hfirst : all[0] ∈ all.take count := List.mem_take_iff_getElem.mpr ⟨0, by omega, rfl⟩
    have hfront : all[0] ∈ all.take (all.length - count) :=
      List.mem_take_iff_getElem.mpr ⟨0, by omega, rfl⟩
    rw [heq] at hfirst
    exact lt_irrefl _ (h.split hfront hfirst)
  · intro hshort
    rw [List.take_of_length_le hshort, Nat.sub_eq_zero_of_le hshort, List.drop_zero]

end Latest
