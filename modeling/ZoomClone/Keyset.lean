/-
Keyset pagination: rows in a strict total order of their positions, fetched page
by page, where a page holds the first rows after a position.

* `filter_after` — the rows after the last row of a page are those the page left;
* `mem_page_iff` — a page holds the rows between two positions;
* `exists_walk` — following the cursors from the first page on ends, and the pages
  make up the whole list.
-/
import Mathlib.Data.List.Sort
import Mathlib.Order.RelClasses

universe u v w

namespace Keyset

section Order

variable {α : Type u} {κ : Type v} (r : κ → κ → Prop) (pos : α → κ)

/-- The rows in the order of their positions. -/
def sorted [DecidableRel r] (rows : List α) : List α :=
  rows.insertionSort fun a b => ¬ r (pos b) (pos a)

/-- Each row is strictly before every later one. -/
def Ascending (rows : List α) : Prop := rows.Pairwise fun a b => r (pos a) (pos b)

/-- The row is strictly after the bound, if there is one. -/
def After (bound : Option κ) (a : α) : Prop := ∀ c ∈ bound, r c (pos a)

variable {r pos}

theorem sorted_perm [DecidableRel r] (rows : List α) : (sorted r pos rows).Perm rows :=
  List.perm_insertionSort _ rows

theorem mem_sorted [DecidableRel r] {rows : List α} {a : α} : a ∈ sorted r pos rows ↔ a ∈ rows :=
  (sorted_perm rows).mem_iff

theorem after_none (a : α) : After r pos none a := fun _ h => nomatch h

theorem after_some {c : κ} {a : α} : After r pos (some c) a ↔ r c (pos a) := by
  simp [After]

theorem Ascending.filter {xs : List α} (h : Ascending r pos xs) (p : α → Bool) :
    Ascending r pos (xs.filter p) :=
  List.Pairwise.filter p h

/-- A page that leaves rows over has a last row. -/
theorem exists_last_of_take {rows : List α} {n : ℕ} (hn : 0 < n) (hlt : n < rows.length) :
    ∃ xs c ys, rows = xs ++ c :: ys ∧ rows.take n = xs ++ [c] := by
  rcases List.eq_nil_or_concat (rows.take n) with hnil | ⟨xs, c, htake⟩
  · have hlength := congrArg List.length hnil
    rw [List.length_take, List.length_nil] at hlength
    omega
  · rw [List.concat_eq_append] at htake
    refine ⟨xs, c, rows.drop n, ?_, htake⟩
    have happend := List.take_append_drop n rows
    rw [htake, List.append_assoc] at happend
    exact happend.symm

variable [IsStrictTotalOrder κ r]

/-- Rows at distinct positions end up in strict order. -/
theorem ascending_sorted [DecidableRel r] {rows : List α}
    (hdistinct : rows.Pairwise fun a b => pos a ≠ pos b) : Ascending r pos (sorted r pos rows) := by
  have htotal : Std.Total fun a b : α => ¬ r (pos b) (pos a) :=
    ⟨fun a b => by
      by_cases h : r (pos b) (pos a)
      · exact .inr (asymm h)
      · exact .inl h⟩
  have htrans : IsTrans α fun a b : α => ¬ r (pos b) (pos a) :=
    ⟨fun a b c hab hbc hca => by
      rcases trichotomous_of r (pos a) (pos b) with h | h | h
      · exact hbc (trans_of r hca h)
      · exact hbc (h ▸ hca)
      · exact hab h⟩
  have hsorted := List.pairwise_insertionSort (fun a b : α => ¬ r (pos b) (pos a)) rows
  have hne : (sorted r pos rows).Pairwise fun a b => pos a ≠ pos b :=
    ((sorted_perm rows).pairwise_iff fun h => Ne.symm h).mpr hdistinct
  refine (hsorted.and hne).imp ?_
  rintro a b ⟨hnot, hne⟩
  rcases trichotomous_of r (pos a) (pos b) with h | h | h
  · exact h
  · exact absurd h hne
  · exact absurd h hnot

theorem Ascending.nodup {rows : List α} (h : Ascending r pos rows) : rows.Nodup := by
  refine h.imp ?_
  rintro a b hbefore rfl
  exact irrefl_of r _ hbefore

/-- A list of rows has one strict order. -/
theorem Ascending.eq_of_perm {xs ys : List α} (hxs : Ascending r pos xs) (hys : Ascending r pos ys)
    (h : xs.Perm ys) : xs = ys :=
  h.eq_of_pairwise (fun _ _ _ _ hab hba => absurd hba (asymm hab)) hxs hys

/-- Selecting rows and ordering them commute. -/
theorem sorted_filter [DecidableRel r] {rows : List α}
    (hdistinct : rows.Pairwise fun a b => pos a ≠ pos b) (p : α → Bool) :
    sorted r pos (rows.filter p) = (sorted r pos rows).filter p := by
  refine (ascending_sorted (hdistinct.filter p)).eq_of_perm
    ((ascending_sorted hdistinct).filter p) ?_
  exact (sorted_perm _).trans ((sorted_perm rows).filter p).symm

/-! ### One page -/

/-- The rows after a row are those that follow it. -/
theorem Ascending.filter_after [DecidableRel r] {xs ys : List α} {c : α}
    (h : Ascending r pos (xs ++ c :: ys)) :
    (xs ++ c :: ys).filter (fun a => r (pos c) (pos a)) = ys := by
  obtain ⟨-, htail, hbefore⟩ := List.pairwise_append.mp h
  obtain ⟨hafter, -⟩ := List.pairwise_cons.mp htail
  rw [List.filter_append, List.filter_cons_of_neg (by simpa using irrefl_of r (pos c))]
  have hxs : xs.filter (fun a => r (pos c) (pos a)) = [] := by
    refine List.filter_eq_nil_iff.mpr fun a ha => ?_
    simpa using asymm (hbefore a ha c (List.mem_cons_self ..))
  have hys : ys.filter (fun a => r (pos c) (pos a)) = ys :=
    List.filter_eq_self.mpr fun a ha => by simpa using hafter a ha
  rw [hxs, hys, List.nil_append]

/-- A page holds the rows that are not after its last one. -/
theorem Ascending.mem_page_iff {xs ys : List α} {c : α}
    (h : Ascending r pos (xs ++ c :: ys)) (a : α) :
    a ∈ xs ++ [c] ↔ a ∈ xs ++ c :: ys ∧ ¬ r (pos c) (pos a) := by
  obtain ⟨-, htail, hbefore⟩ := List.pairwise_append.mp h
  obtain ⟨hafter, -⟩ := List.pairwise_cons.mp htail
  simp only [List.mem_append, List.mem_cons, List.not_mem_nil, or_false]
  constructor
  · rintro (ha | rfl)
    · exact ⟨.inl ha, asymm (hbefore a ha c (List.mem_cons_self ..))⟩
    · exact ⟨.inr (.inl rfl), irrefl_of r (pos a)⟩
  · rintro ⟨ha | rfl | ha, hnot⟩
    · exact .inl ha
    · exact .inr rfl
    · exact absurd (hafter a ha) hnot

end Order

/-! ### Walking through the pages -/

section Walk

variable {α : Type u} {β : Type v} {γ : Type w} (fetch : Option γ → β → Prop) (next : β → Option γ)

/-- The pages that a client is served which follows the cursors until there is
none. -/
inductive Walk : Option γ → List β → Prop
  | last {cursor : Option γ} {page : β} (hfetch : fetch cursor page) (hlast : next page = none) :
      Walk cursor [page]
  | next {cursor : Option γ} {page : β} {c : γ} {pages : List β} (hfetch : fetch cursor page)
      (hnext : next page = some c) (hrest : Walk (some c) pages) : Walk cursor (page :: pages)

variable {fetch next}

/-- What holds of every answer holds of every page. -/
theorem Walk.forall_mem {P : β → Prop} (hfetch : ∀ cursor page, fetch cursor page → P page)
    {cursor : Option γ} {pages : List β} (h : Walk fetch next cursor pages) :
    ∀ page ∈ pages, P page := by
  induction h with
  | last hpage hlast =>
    intro page hmem
    obtain rfl := List.mem_singleton.mp hmem
    exact hfetch _ _ hpage
  | next hpage hnext hrest ih =>
    rintro page (_ | ⟨_, hmem⟩)
    · exact hfetch _ _ hpage
    · exact ih page hmem

/-- Where a request has one answer, there is one walk. -/
theorem Walk.unique (hfetch : ∀ cursor page page', fetch cursor page →
      fetch cursor page' → page = page')
    {cursor : Option γ} {pages pages' : List β} (h : Walk fetch next cursor pages)
    (h' : Walk fetch next cursor pages') : pages = pages' := by
  induction h generalizing pages' with
  | last hpage hlast =>
    cases h' with
    | last hpage' hlast' => rw [hfetch _ _ _ hpage hpage']
    | next hpage' hnext' hrest' =>
      rw [hfetch _ _ _ hpage hpage', hnext'] at hlast
      cases hlast
  | next hpage hnext hrest ih =>
    cases h' with
    | last hpage' hlast' =>
      rw [hfetch _ _ _ hpage hpage', hlast'] at hnext
      cases hnext
    | next hpage' hnext' hrest' =>
      obtain rfl := hfetch _ _ _ hpage hpage'
      obtain rfl := Option.some.inj (hnext.symm.trans hnext')
      rw [ih hrest']

/-- The request serves the list: after the rows `xs` it answers with the first
`n` of the others, and with the key of the last of them if others remain. -/
def Serves (fetch : Option γ → β → Prop) (next : β → Option γ) (items : β → List α) (key : α → γ)
    (n : ℕ) (rows : List α) : Prop :=
  ∀ xs ys, rows = xs ++ ys → ∃ page, fetch (xs.getLast?.map key) page ∧ items page = ys.take n ∧
    next page = if n < ys.length then (ys.take n).getLast?.map key else none

/-- From any row on, the walk ends, and its pages are the rows that follow. -/
theorem Serves.exists_walk_from {items : β → List α} {key : α → γ} {n : ℕ} {rows : List α}
    (h : Serves fetch next items key n rows) (hn : 0 < n) (xs ys : List α)
    (hrows : rows = xs ++ ys) :
    ∃ pages, Walk fetch next (xs.getLast?.map key) pages ∧ pages.flatMap items = ys ∧
      ∀ page ∈ pages.dropLast, (items page).length = n := by
  induction hlen : ys.length using Nat.strong_induction_on generalizing xs ys with
  | _ len ih =>
    subst hlen
    obtain ⟨page, hpage, hitems, hnext⟩ := h xs ys hrows
    by_cases hmore : n < ys.length
    · -- the rows after this page are fewer, since the page is not empty
      rw [if_pos hmore] at hnext
      obtain ⟨c, hc⟩ : ∃ c, (ys.take n).getLast? = some c := by
        obtain ⟨zs, c, -, -, htake⟩ := exists_last_of_take hn hmore
        exact ⟨c, by simp [htake]⟩
      have hlast : (xs ++ ys.take n).getLast? = some c := by
        rw [List.getLast?_append, hc]
        rfl
      have hrest : rows = (xs ++ ys.take n) ++ ys.drop n := by
        rw [List.append_assoc, List.take_append_drop, hrows]
      obtain ⟨pages, hwalk, hpages, hfull⟩ :=
        ih (ys.drop n).length (by rw [List.length_drop]; omega) _ _ hrest rfl
      rw [hlast] at hwalk
      rw [hc] at hnext
      have hne : pages ≠ [] := by
        rintro rfl
        cases hwalk
      refine ⟨page :: pages, .next hpage hnext hwalk, ?_, ?_⟩
      · rw [List.flatMap_cons, hitems, hpages, List.take_append_drop]
      · rw [List.dropLast_cons_of_ne_nil hne]
        rintro q (_ | ⟨_, hq⟩)
        · rw [hitems, List.length_take]
          omega
        · exact hfull q hq
    · rw [if_neg hmore] at hnext
      refine ⟨[page], .last hpage hnext, ?_, by simp⟩
      simp [hitems, List.take_of_length_le (not_lt.mp hmore)]

/-- **Following the cursors** ends, and the pages make up the whole list; every
page but the last is full. -/
theorem Serves.exists_walk {items : β → List α} {key : α → γ} {n : ℕ} {rows : List α}
    (h : Serves fetch next items key n rows) (hn : 0 < n) :
    ∃ pages, Walk fetch next none pages ∧ pages.flatMap items = rows ∧
      ∀ page ∈ pages.dropLast, (items page).length = n :=
  h.exists_walk_from hn [] rows rfl

end Walk

end Keyset
