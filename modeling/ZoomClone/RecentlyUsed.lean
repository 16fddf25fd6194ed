/-
Most-recently-used lists.

Such a list shows the values of a history, each once, from the last use of each back,
and at most so many.  Moving the value of a new use to the front of the bounded list
gives the list of the longer history, since what was cut off comes after whatever is
shown.
-/
import Mathlib.Data.List.Dedup

namespace RecentlyUsed

variable {α : Type*} [DecidableEq α]

/-- The values of a history in order of their most recent use, at most `n` of them.
`dedup` keeps the last occurrence of each. -/
def recent (n : ℕ) (uses : List α) : List α := uses.dedup.reverse.take n

/-- Put a value first, or move it there. -/
def touch (n : ℕ) (a : α) (shown : List α) : List α := (a :: shown.filter (· ≠ a)).take n

theorem dedup_concat (uses : List α) (a : α) :
    (uses ++ [a]).dedup = uses.dedup.filter (· ≠ a) ++ [a] := by
  induction uses with
  | nil => rfl
  | cons b uses ih =>
    rw [List.cons_append]
    by_cases hmem : b ∈ uses
    · rw [List.dedup_cons_of_mem (List.mem_append_left _ hmem), List.dedup_cons_of_mem hmem, ih]
    · rw [List.dedup_cons_of_notMem hmem]
      by_cases hba : b = a
      · rw [List.dedup_cons_of_mem (by simp [hba]), ih,
          List.filter_cons_of_neg (by simpa using hba)]
      · rw [List.dedup_cons_of_notMem (by simp [hmem, hba]), ih,
          List.filter_cons_of_pos (by simpa using hba),
          List.cons_append]

/-- A value that is dropped makes room for one more at most. -/
theorem take_filter_take {l : List α} (hnodup : l.Nodup) (a : α) (n : ℕ) :
    ((l.take (n + 1)).filter (· ≠ a)).take n = (l.filter (· ≠ a)).take n := by
  induction l generalizing n with
  | nil => simp
  | cons b l ih =>
    obtain ⟨hb, hl⟩ := List.nodup_cons.mp hnodup
    rw [List.take_succ_cons]
    by_cases hba : b = a
    · -- the value does not come again
      have hrest : ∀ c ∈ l, decide (c ≠ a) = true := by
        rintro c hc
        rw [decide_eq_true_eq]
        rintro rfl
        exact hb (hba ▸ hc)
      have htake : (l.take n).filter (· ≠ a) = l.take n :=
        List.filter_eq_self.mpr fun c hc => hrest c (List.mem_of_mem_take hc)
      rw [List.filter_cons_of_neg (by simpa using hba),
        List.filter_cons_of_neg (by simpa using hba), htake,
        List.filter_eq_self.mpr hrest, List.take_take, Nat.min_self]
    · rw [List.filter_cons_of_pos (by simpa using hba),
        List.filter_cons_of_pos (by simpa using hba)]
      cases n with
      | zero => simp
      | succ n => rw [List.take_succ_cons, List.take_succ_cons, ih hl n]

/-- **One more use.** -/
theorem touch_recent (n : ℕ) (a : α) (uses : List α) :
    touch n a (recent n uses) = recent n (uses ++ [a]) := by
  have hnodup : uses.dedup.reverse.Nodup := List.nodup_reverse.mpr (List.nodup_dedup uses)
  rw [touch, recent, recent, dedup_concat, List.reverse_append,
    List.reverse_singleton, List.singleton_append,
    ← List.filter_reverse]
  cases n with
  | zero => rfl
  | succ n => rw [List.take_succ_cons, List.take_succ_cons, take_filter_take hnodup]

theorem length_recent (n : ℕ) (uses : List α) : (recent n uses).length ≤ n := by
  rw [recent, List.length_take]
  omega

end RecentlyUsed
