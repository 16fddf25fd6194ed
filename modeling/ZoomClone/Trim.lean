/-
Lists trimmed at both ends.

`trim p l` drops the members satisfying `p` from the front of `l` and from its back.  The
two commute, so either end can be looked at first; trimming twice is trimming once; and
trimming a list that was cut is cutting the trimmed list exactly when the cut leaves the
trimmed part alone, or both ends of the cut are there to stay.

* `trim_eq` — the ends commute;
* `trim_trim` — trimming is idempotent;
* `trim_trim_eq_self_iff` — trimming by two predicates;
* `trim_take_iff` — when cutting and trimming commute.
-/
import Mathlib.Data.List.DropRight

namespace Trim

variable {α : Type*} (p : α → Bool)

/-- Drop the members satisfying `p` at both ends. -/
def trim (l : List α) : List α := (l.dropWhile p).rdropWhile p

@[simp] theorem trim_nil : trim p [] = [] := by simp [trim]

variable {p} {l : List α} {n : ℕ}

theorem rdropWhile_append_of_all {ws : List α} (h : ∀ x ∈ ws, p x) :
    (l ++ ws).rdropWhile p = l.rdropWhile p := by
  have hrev : ∀ x ∈ ws.reverse, p x := fun x hx => h x (List.mem_reverse.mp hx)
  rw [List.rdropWhile, List.rdropWhile, List.reverse_append, List.dropWhile_append_of_pos hrev]

theorem rdropWhile_cons (a : α) : (a :: l).rdropWhile p =
    if l.rdropWhile p = [] then [a].rdropWhile p else a :: l.rdropWhile p := by
  rw [List.rdropWhile, List.rdropWhile, List.reverse_cons, List.dropWhile_append]
  by_cases h : l.reverse.dropWhile p = []
  · simp [h, List.rdropWhile]
  · simp [h]

/-- A list whose first member stays keeps it when its back is trimmed. -/
theorem head_rdropWhile {a : α} (ha : p a = false) : ∃ rest, (a :: l).rdropWhile p = a :: rest := by
  rw [rdropWhile_cons]
  split
  · exact ⟨[], by simp [List.rdropWhile_singleton, ha]⟩
  · exact ⟨_, rfl⟩

/-- **The ends commute.** -/
theorem trim_eq (l : List α) : trim p l = (l.rdropWhile p).dropWhile p := by
  rw [trim]
  induction l with
  | nil => rfl
  | cons a l ih =>
    cases ha : p a with
    | true =>
      rw [List.dropWhile_cons_of_pos ha, ih, rdropWhile_cons]
      split
      · next hnil => simp [hnil, List.rdropWhile_singleton, ha]
      · rw [List.dropWhile_cons_of_pos ha]
    | false =>
      obtain ⟨rest, hrest⟩ := head_rdropWhile (l := l) ha
      rw [List.dropWhile_cons_of_neg (by simp [ha]), hrest,
        List.dropWhile_cons_of_neg (by simp [ha])]

/-- **Trimming twice is trimming once.** -/
theorem trim_trim (l : List α) : trim p (trim p l) = trim p l := by
  have hfront : (trim p l).dropWhile p = trim p l := by
    rw [trim_eq, List.dropWhile_idempotent]
  rw [trim, hfront, trim, List.rdropWhile_idempotent]

theorem length_dropWhile_add (l : List α) :
    (l.takeWhile p).length + (l.dropWhile p).length = l.length := by
  rw [← List.length_append, List.takeWhile_append_dropWhile]

theorem length_rdropWhile_le (l : List α) : (l.rdropWhile p).length ≤ l.length :=
  (List.rdropWhile_prefix p l).length_le

theorem length_trim_le (l : List α) : (trim p l).length ≤ (l.rdropWhile p).length := by
  have := length_dropWhile_add (p := p) (l.rdropWhile p)
  rw [trim_eq]
  omega

theorem trim_sublist : (trim p l).Sublist l :=
  ((List.rdropWhile_prefix p _).sublist).trans (List.dropWhile_sublist p)

/-- Nothing is left of a list exactly if all its members satisfy `p`. -/
theorem trim_eq_nil_iff : trim p l = [] ↔ ∀ x ∈ l, p x := by
  rw [trim, List.rdropWhile_eq_nil_iff]
  constructor
  · intro h x hx
    rw [← List.takeWhile_append_dropWhile (p := p) (l := l), List.mem_append] at hx
    rcases hx with hx | hx
    · exact List.mem_takeWhile_imp hx
    · exact h x hx
  · intro h x hx
    exact h x ((List.dropWhile_sublist p).mem hx)

theorem trim_take_of_trim_eq_nil (h : trim p l = []) : trim p (l.take n) = [] :=
  trim_eq_nil_iff.mpr fun x hx => trim_eq_nil_iff.mp h x (List.mem_of_mem_take hx)

/-- A trimmed list that is trimmed otherwise stays trimmed only if nothing happens to it. -/
theorem trim_trim_eq_self_iff {q : α → Bool} (h : trim p l = l) :
    trim p (trim q l) = l ↔ trim q l = l := by
  constructor
  · intro hboth
    have hlength : (trim q l).length = l.length := by
      refine le_antisymm trim_sublist.length_le ?_
      have hshort := (trim_sublist (p := p) (l := trim q l)).length_le
      rwa [hboth] at hshort
    exact trim_sublist.eq_of_length hlength
  · intro htrim
    rw [htrim, h]

/-- The front of a list that was cut. -/
theorem length_dropWhile_take (hn : n ≤ l.length) :
    ((l.take n).dropWhile p).length = n - min n (l.takeWhile p).length := by
  have hlength := length_dropWhile_add (p := p) (l.take n)
  rw [← List.take_takeWhile, List.length_take, List.length_take] at hlength
  omega

/-- Where the trimmed part fits, cutting does nothing to it. -/
theorem trim_take_of_fits (h : (l.rdropWhile p).length ≤ n) :
    trim p (l.take n) = (trim p l).take n := by
  have hback : (l.take n).rdropWhile p = l.rdropWhile p := by
    conv_lhs => rw [← List.rdropWhile_append_rtakeWhile (p := p) (l := l)]
    rw [List.take_append, List.take_of_length_le h,
      rdropWhile_append_of_all fun x hx => List.mem_rtakeWhile_imp (List.mem_of_mem_take hx),
      List.rdropWhile_idempotent]
  rw [List.take_of_length_le ((length_trim_le l).trans h), trim_eq, trim_eq, hback]

/-- Where it does not, both ends of the cut must stay. -/
theorem trim_take_of_exceeds (hn : 0 < n) (h : n < (l.rdropWhile p).length) :
    trim p (l.take n) = (trim p l).take n ↔ l.takeWhile p = [] ∧ ∃ x, l[n - 1]? = some x ∧
      p x = false := by
  have hle : n < l.length := h.trans_le (length_rdropWhile_le l)
  have hprefix : l.rdropWhile p = l.take (l.rdropWhile p).length :=
    List.prefix_iff_eq_take.mp (List.rdropWhile_prefix p l)
  by_cases hfront : l.takeWhile p = []
  · -- nothing is dropped in front, so the last member of the cut decides
    have hdrop {k : ℕ} : (l.take k).dropWhile p = l.take k := by
      have hsplit := List.takeWhile_append_dropWhile (p := p) (l := l.take k)
      rwa [← List.take_takeWhile, hfront, List.take_nil, List.nil_append] at hsplit
    have hcut : (trim p l).take n = l.take n := by
      rw [trim_eq, hprefix, hdrop, List.take_take, min_eq_left h.le]
    have hne : l.take n ≠ [] := by
      rw [← List.length_pos_iff, List.length_take]
      omega
    have hlast : (l.take n).getLast hne = l[n - 1] := by
      rw [List.getLast_eq_getElem, List.getElem_take]
      congr 1
      rw [List.length_take]
      omega
    rw [hcut, trim, hdrop, List.rdropWhile_eq_self_iff]
    constructor
    · intro hstays
      refine ⟨hfront, l[n - 1], List.getElem?_eq_getElem (by omega), ?_⟩
      have := hstays hne
      rw [hlast] at this
      simpa using this
    · rintro ⟨-, x, hx, hpx⟩ _
      obtain ⟨_, hget⟩ := List.getElem?_eq_some_iff.mp hx
      rw [hlast, hget, hpx]
      decide
  · -- what is dropped in front of the cut is missing at its end
    refine iff_of_false ?_ fun hstays => hfront hstays.1
    intro heq
    have hfrontpos : 0 < (l.takeWhile p).length := List.length_pos_iff.mpr hfront
    have htrim : (trim p l).length = (l.rdropWhile p).length - min (l.rdropWhile p).length
        (l.takeWhile p).length := by
      have hdrop := length_dropWhile_take (p := p) (length_rdropWhile_le (p := p) l)
      rwa [← hprefix, ← trim_eq] at hdrop
    have hsome : (trim p l).length ≠ 0 := by
      intro hzero
      have hall : ∀ x ∈ l.rdropWhile p, p x := by
        rw [List.length_eq_zero_iff, trim_eq, List.dropWhile_eq_nil_iff] at hzero
        exact hzero
      have hne : l.rdropWhile p ≠ [] := by
        rw [← List.length_pos_iff]
        omega
      exact List.rdropWhile_last_not p l hne (hall _ (List.getLast_mem hne))
    have hshort : (trim p (l.take n)).length ≤ n - min n (l.takeWhile p).length := by
      rw [← length_dropWhile_take hle.le]
      exact length_rdropWhile_le _
    rw [heq, List.length_take] at hshort
    omega

/-- **When cutting and trimming commute.**  What is left of the list without its back fits,
or its first member and the last one of the cut stay. -/
theorem trim_take_iff (hn : 0 < n) : trim p (l.take n) = (trim p l).take n ↔
    (l.rdropWhile p).length ≤ n ∨ l.takeWhile p = [] ∧ ∃ x, l[n - 1]? = some x ∧ p x = false := by
  rcases Nat.lt_or_ge n (l.rdropWhile p).length with hexceeds | hfits
  · rw [trim_take_of_exceeds hn hexceeds]
    simp only [Nat.not_le.mpr hexceeds, false_or]
  · exact iff_of_true (trim_take_of_fits hfits) (.inl hfits)

end Trim
