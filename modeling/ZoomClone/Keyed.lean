/-
Keyed sequences: finite collections in insertion order with distinct keys.

`Keyed key` is a list of values in which no two have the same `key`.  It is
what three different things have in common:

* a database table with a primary key (`insert?` refuses a taken key);
* a Python `dict` and a JavaScript `Map` (`set` overwrites in place and puts a
  new key last; `erase` forgets the position);
* a roster keyed by an id that the values carry themselves.

The distinctness of the keys is a field, so every operation below keeps it and
no client of the module has to re-prove it.  Lookup is characterised by
`find?_eq_some`, and each operation by its membership and lookup lemmas.
-/
import Mathlib.Data.List.Induction
import Mathlib.Data.List.Nodup
import Mathlib.Data.List.Count

universe u v

/-- Values in insertion order, no two with the same key. -/
structure Keyed {α : Type u} {κ : Type v} (key : α → κ) where
  rows : List α
  nodup : (rows.map key).Nodup

namespace Keyed

variable {α : Type u} {κ : Type v} {key : α → κ}

@[ext] theorem ext {s t : Keyed key} (h : s.rows = t.rows) : s = t := by
  cases s
  cases t
  cases h
  rfl

instance [DecidableEq α] : DecidableEq (Keyed key) := fun _ _ =>
  decidable_of_iff _ Keyed.ext_iff.symm

instance : Membership α (Keyed key) := ⟨fun t a => a ∈ t.rows⟩

theorem mem_def {t : Keyed key} {a : α} : a ∈ t ↔ a ∈ t.rows := Iff.rfl

instance [DecidableEq α] (a : α) (t : Keyed key) : Decidable (a ∈ t) :=
  inferInstanceAs (Decidable (a ∈ t.rows))

instance {p : α → Prop} [DecidablePred p] (t : Keyed key) : Decidable (∀ a ∈ t, p a) :=
  inferInstanceAs (Decidable (∀ a ∈ t.rows, p a))

/-- The collection with nothing in it. -/
def empty : Keyed key := ⟨[], List.nodup_nil⟩

instance : Inhabited (Keyed key) := ⟨empty⟩

@[simp] theorem not_mem_empty (a : α) : a ∉ (empty : Keyed key) := List.not_mem_nil

/-- The keys, oldest first. -/
def keys (t : Keyed key) : List κ := t.rows.map key

theorem mem_keys {t : Keyed key} {k : κ} : k ∈ t.keys ↔ ∃ a ∈ t, key a = k :=
  List.mem_map

theorem key_mem_keys {t : Keyed key} {a : α} (h : a ∈ t) : key a ∈ t.keys :=
  List.mem_map_of_mem h

/-- Two members with one key are the same member. -/
theorem eq_of_key_eq {t : Keyed key} {a b : α} (ha : a ∈ t) (hb : b ∈ t)
    (h : key a = key b) : a = b :=
  List.inj_on_of_nodup_map t.nodup ha hb h

/-! ### Lookup -/

section Lookup

variable [DecidableEq κ]

/-- The value stored under a key. -/
def find? (t : Keyed key) (k : κ) : Option α := t.rows.find? fun a => key a = k

theorem find?_eq_some {t : Keyed key} {k : κ} {a : α} :
    t.find? k = some a ↔ a ∈ t ∧ key a = k := by
  constructor
  · intro h
    exact ⟨List.mem_of_find?_eq_some h, by simpa using List.find?_some h⟩
  · rintro ⟨ha, rfl⟩
    cases hf : t.find? (key a) with
    | none =>
      have := List.find?_eq_none.mp hf a ha
      simp at this
    | some b =>
      have hb : b ∈ t := List.mem_of_find?_eq_some hf
      have hk : key b = key a := by simpa using List.find?_some hf
      rw [eq_of_key_eq hb ha hk]

theorem find?_eq_none {t : Keyed key} {k : κ} : t.find? k = none ↔ k ∉ t.keys := by
  rw [find?, List.find?_eq_none, mem_keys]
  constructor
  · rintro h ⟨a, ha, rfl⟩
    have := h a ha
    simp at this
  · intro h a ha
    simpa using fun hk => h ⟨a, ha, hk⟩

theorem mem_of_find? {t : Keyed key} {k : κ} {a : α} (h : t.find? k = some a) : a ∈ t :=
  (find?_eq_some.mp h).1

theorem key_of_find? {t : Keyed key} {k : κ} {a : α} (h : t.find? k = some a) : key a = k :=
  (find?_eq_some.mp h).2

theorem find?_of_mem {t : Keyed key} {a : α} (h : a ∈ t) : t.find? (key a) = some a :=
  find?_eq_some.mpr ⟨h, rfl⟩

theorem isSome_find? {t : Keyed key} {k : κ} : (t.find? k).isSome ↔ k ∈ t.keys := by
  rw [← not_iff_not, Bool.not_eq_true, Option.isSome_eq_false_iff, Option.isNone_iff_eq_none,
    find?_eq_none]

/-- At most one value is stored under a key. -/
theorem filter_key (t : Keyed key) (k : κ) :
    t.rows.filter (fun a => key a = k) = (t.find? k).toList := by
  obtain ⟨rows, hnodup⟩ := t
  show rows.filter (fun a => key a = k) = (rows.find? fun a => key a = k).toList
  induction rows with
  | nil => rfl
  | cons a rows ih =>
    rw [List.map_cons, List.nodup_cons] at hnodup
    by_cases h : key a = k
    · have hnone : rows.filter (fun a => key a = k) = [] := by
        refine List.filter_eq_nil_iff.mpr ?_
        intro b hb
        rw [decide_eq_true_eq]
        exact fun hk => hnodup.1 (List.mem_map.mpr ⟨b, hb, hk.trans h.symm⟩)
      rw [List.filter_cons_of_pos (by simpa using h),
        List.find?_cons_of_pos (by simpa using h), hnone]
      rfl
    · rw [List.filter_cons_of_neg (by simpa using h), List.find?_cons_of_neg (by simpa using h)]
      exact ih hnodup.2

end Lookup

/-! ### Inserting a new key -/

/-- Append a value whose key is not taken. -/
def insert (t : Keyed key) (a : α) (h : key a ∉ t.keys) : Keyed key where
  rows := t.rows ++ [a]
  nodup := by
    rw [List.map_append, List.nodup_append]
    refine ⟨t.nodup, by simp, ?_⟩
    intro k hk k' hk'
    rw [List.map_singleton, List.mem_singleton] at hk'
    rintro rfl
    exact h (hk' ▸ hk)

@[simp] theorem rows_insert (t : Keyed key) (a : α) (h : key a ∉ t.keys) :
    (t.insert a h).rows = t.rows ++ [a] := rfl

theorem mem_insert {t : Keyed key} {a b : α} {h : key a ∉ t.keys} :
    b ∈ t.insert a h ↔ b ∈ t ∨ b = a := by
  simp [mem_def]

@[simp] theorem keys_insert (t : Keyed key) (a : α) (h : key a ∉ t.keys) :
    (t.insert a h).keys = t.keys ++ [key a] := by
  simp [keys]

section InsertLookup

variable [DecidableEq κ]

/-- Append a value, or fail when its key is taken. -/
def insert? (t : Keyed key) (a : α) : Option (Keyed key) :=
  if h : key a ∈ t.keys then none else some (t.insert a h)

theorem insert?_eq_some {t t' : Keyed key} {a : α} :
    t.insert? a = some t' ↔ ∃ h : key a ∉ t.keys, t' = t.insert a h := by
  rw [insert?]
  split
  · next h => simp [h]
  · next h =>
    simp only [Option.some.injEq, h, not_false_eq_true, exists_true_left]
    exact eq_comm

theorem find?_insert {t : Keyed key} {a : α} {h : key a ∉ t.keys} {k : κ} :
    (t.insert a h).find? k = if key a = k then some a else t.find? k := by
  split
  · next hk =>
    subst hk
    exact find?_of_mem (mem_insert.mpr (.inr rfl))
  · next hk =>
    cases hf : t.find? k with
    | none =>
      rw [find?_eq_none] at hf ⊢
      simpa [hf] using Ne.symm hk
    | some b =>
      rw [find?_eq_some] at hf ⊢
      exact ⟨mem_insert.mpr (.inl hf.1), hf.2⟩

end InsertLookup

/-! ### The order of insertion -/

section Before

variable [DecidableEq κ] {t t' : Keyed key} {a b : κ}

/-- Key `a` stands before key `b`; a key that is not there stands after all
others. -/
def Before (t : Keyed key) (a b : κ) : Prop := t.keys.idxOf a < t.keys.idxOf b

theorem Before.asymm (h : t.Before a b) : ¬ t.Before b a := Nat.lt_asymm h

theorem Before.ne (h : t.Before a b) : a ≠ b := by
  rintro rfl
  exact Nat.lt_irrefl _ h

theorem Before.mem (h : t.Before a b) : a ∈ t.keys :=
  List.idxOf_lt_length_iff.mp (Nat.lt_of_lt_of_le h List.idxOf_le_length)

theorem before_or_before (hb : b ∈ t.keys) (hne : a ≠ b) : t.Before a b ∨ t.Before b a := by
  have hidx : t.keys.idxOf b ≠ t.keys.idxOf a := by
    intro h
    exact hne ((List.idxOf_inj hb).mp h).symm
  unfold Before
  omega

variable {added : List κ} (h : t'.keys = t.keys ++ added) (hb : b ∈ t.keys)

include h hb

/-- Nothing gets before a key that is there. -/
theorem before_append_left : t'.Before a b ↔ t.Before a b := by
  unfold Before
  rw [h, List.idxOf_append, List.idxOf_append, if_pos hb]
  split
  · rfl
  · next ha =>
    have hlt : t.keys.idxOf b < t.keys.length := List.idxOf_lt_length_of_mem hb
    have hle : t.keys.idxOf a = t.keys.length := List.idxOf_eq_length ha
    omega

theorem before_append_right (hba : t.Before b a) : t'.Before b a := by
  rw [Before] at hba ⊢
  rw [h, List.idxOf_append, List.idxOf_append, if_pos hb]
  split
  · exact hba
  · have hlt : t.keys.idxOf b < t.keys.length := List.idxOf_lt_length_of_mem hb
    omega

end Before

/-! ### Changing values in place -/

/-- Change every value, keeping its key. -/
def map (t : Keyed key) (f : α → α) (hf : ∀ a, key (f a) = key a) : Keyed key where
  rows := t.rows.map f
  nodup := by
    rw [List.map_map, show key ∘ f = key from funext hf]
    exact t.nodup

@[simp] theorem rows_map (t : Keyed key) (f : α → α) (hf : ∀ a, key (f a) = key a) :
    (t.map f hf).rows = t.rows.map f := rfl

theorem mem_map {t : Keyed key} {f : α → α} {hf : ∀ a, key (f a) = key a} {b : α} :
    b ∈ t.map f hf ↔ ∃ a ∈ t, f a = b :=
  List.mem_map

@[simp] theorem keys_map (t : Keyed key) (f : α → α) (hf : ∀ a, key (f a) = key a) :
    (t.map f hf).keys = t.keys := by
  rw [keys, rows_map, List.map_map, show key ∘ f = key from funext hf, keys]

theorem find?_map [DecidableEq κ] {t : Keyed key} {f : α → α}
    {hf : ∀ a, key (f a) = key a} {k : κ} :
    (t.map f hf).find? k = (t.find? k).map f := by
  cases h : t.find? k with
  | none =>
    rw [find?_eq_none] at h
    rw [Option.map_none, find?_eq_none, keys_map]
    exact h
  | some a =>
    rw [find?_eq_some] at h
    rw [Option.map_some, find?_eq_some]
    exact ⟨mem_map.mpr ⟨a, h.1, rfl⟩, (hf a).trans h.2⟩

theorem map_eq_self {t : Keyed key} {f : α → α} {hf : ∀ a, key (f a) = key a} :
    t.map f hf = t ↔ ∀ a ∈ t, f a = a := by
  rw [Keyed.ext_iff, rows_map]
  have h := List.map_inj_left (l := t.rows) (f := f) (g := id)
  rwa [List.map_id] at h

/-- Change the value under one key. -/
def modify [DecidableEq κ] (t : Keyed key) (k : κ) (f : α → α)
    (hf : ∀ a, key (f a) = key a) : Keyed key :=
  t.map (fun a => if key a = k then f a else a) fun a => by
    split
    · exact hf a
    · rfl

theorem mem_modify [DecidableEq κ] {t : Keyed key} {k : κ} {f : α → α}
    {hf : ∀ a, key (f a) = key a} {b : α} :
    b ∈ t.modify k f hf ↔ ∃ a ∈ t, (if key a = k then f a else a) = b :=
  List.mem_map

@[simp] theorem keys_modify [DecidableEq κ] (t : Keyed key) (k : κ) (f : α → α)
    (hf : ∀ a, key (f a) = key a) : (t.modify k f hf).keys = t.keys := keys_map ..

/-! ### Removing values -/

/-- Keep the values that satisfy `p`. -/
def filter (t : Keyed key) (p : α → Bool) : Keyed key where
  rows := t.rows.filter p
  nodup := t.nodup.sublist (List.filter_sublist.map key)

theorem mem_filter {t : Keyed key} {p : α → Bool} {a : α} :
    a ∈ t.filter p ↔ a ∈ t ∧ p a = true :=
  List.mem_filter

theorem find?_filter [DecidableEq κ] {t : Keyed key} {p : α → Bool} {k : κ} :
    (t.filter p).find? k = (t.find? k).filter p := by
  cases h : t.find? k with
  | none =>
    rw [find?_eq_none] at h
    rw [Option.filter_none, find?_eq_none, mem_keys]
    rintro ⟨a, ha, hk⟩
    exact h (mem_keys.mpr ⟨a, (mem_filter.mp ha).1, hk⟩)
  | some a =>
    rw [find?_eq_some] at h
    cases hp : p a with
    | true => rw [Option.filter_some_pos hp, find?_eq_some, mem_filter]; exact ⟨⟨h.1, hp⟩, h.2⟩
    | false =>
      rw [Option.filter_some_neg (by simp [hp]), find?_eq_none, mem_keys]
      rintro ⟨b, hb, hk⟩
      obtain ⟨hb, hpb⟩ := mem_filter.mp hb
      rw [eq_of_key_eq hb h.1 (hk.trans h.2.symm), hp] at hpb
      cases hpb

/-- Forget one key. -/
def erase [DecidableEq κ] (t : Keyed key) (k : κ) : Keyed key :=
  t.filter fun a => key a ≠ k

section Erase

variable [DecidableEq κ] {t : Keyed key} {k : κ}

theorem mem_erase {a : α} : a ∈ t.erase k ↔ a ∈ t ∧ key a ≠ k := by
  rw [erase, mem_filter]
  simp

theorem mem_keys_erase {k' : κ} : k' ∈ (t.erase k).keys ↔ k' ∈ t.keys ∧ k' ≠ k := by
  rw [mem_keys, mem_keys]
  constructor
  · rintro ⟨a, ha, rfl⟩
    rw [mem_erase] at ha
    exact ⟨⟨a, ha.1, rfl⟩, ha.2⟩
  · rintro ⟨⟨a, ha, rfl⟩, hk⟩
    exact ⟨a, mem_erase.mpr ⟨ha, hk⟩, rfl⟩

theorem keys_erase : (t.erase k).keys = t.keys.filter (· ≠ k) := by
  rw [keys, keys, List.filter_map]
  rfl

theorem find?_erase {k' : κ} :
    (t.erase k).find? k' = if k' = k then none else t.find? k' := by
  split
  · next h =>
    rw [find?_eq_none, mem_keys_erase]
    exact fun hk => hk.2 h
  · next h =>
    cases hf : t.find? k' with
    | none =>
      rw [find?_eq_none] at hf ⊢
      exact fun hk => hf (mem_keys_erase.mp hk).1
    | some a =>
      rw [find?_eq_some] at hf ⊢
      exact ⟨mem_erase.mpr ⟨hf.1, fun hk => h (hf.2.symm.trans hk)⟩, hf.2⟩

end Erase

/-! ### Assignment: overwrite in place, or put last -/

/-- `d[k] = v` of a Python `dict`, `m.set(k, v)` of a JavaScript `Map`. -/
def set [DecidableEq κ] (t : Keyed key) (a : α) : Keyed key :=
  if h : key a ∈ t.keys then
    t.map (fun b => if key b = key a then a else b) fun b => by
      split
      · next hb => exact hb.symm
      · rfl
  else t.insert a h

section Set

variable [DecidableEq κ] {t : Keyed key} {a : α}

theorem set_of_not_mem (h : key a ∉ t.keys) : t.set a = t.insert a h := dif_neg h

theorem rows_set_of_mem (h : key a ∈ t.keys) :
    (t.set a).rows = t.rows.map fun b => if key b = key a then a else b := by
  rw [set, dif_pos h, rows_map]

theorem find?_set {k : κ} : (t.set a).find? k = if key a = k then some a else t.find? k := by
  by_cases h : key a ∈ t.keys
  · rw [set, dif_pos h, find?_map]
    obtain ⟨b, hb, hba⟩ := mem_keys.mp h
    by_cases hk : key a = k
    · subst hk
      rw [← hba, find?_of_mem hb]
      simp [hba]
    · rw [if_neg hk]
      cases hf : t.find? k with
      | none => rfl
      | some c =>
        have hc : key c ≠ key a := fun he => hk (he.symm.trans (key_of_find? hf))
        simp [hc]
  · rw [set_of_not_mem h, find?_insert]

theorem mem_keys_set {k : κ} : k ∈ (t.set a).keys ↔ k ∈ t.keys ∨ k = key a := by
  rw [← isSome_find?, find?_set]
  split
  · next h => simp [h]
  · next h =>
    rw [isSome_find?]
    simp [Ne.symm h]

theorem keys_set : (t.set a).keys = if key a ∈ t.keys then t.keys else t.keys ++ [key a] := by
  by_cases h : key a ∈ t.keys
  · rw [set, dif_pos h, keys_map, if_pos h]
  · rw [set_of_not_mem h, keys_insert, if_neg h]

theorem mem_set {b : α} : b ∈ t.set a ↔ b = a ∨ (b ∈ t ∧ key b ≠ key a) := by
  rw [← (find?_eq_some (t := t.set a) (k := key b)).trans (and_iff_left rfl), find?_set]
  by_cases h : key a = key b
  · simp [h, eq_comm]
  · rw [if_neg h, find?_eq_some]
    have hba : b ≠ a := fun hb => h (hb ▸ rfl)
    simp [hba, Ne.symm h]

/-- The keys after a list of values was set. -/
theorem mem_keys_foldl_set {as : List α} {k : κ} :
    k ∈ (as.foldl set t).keys ↔ k ∈ t.keys ∨ k ∈ as.map key := by
  induction as generalizing t with
  | nil => simp
  | cons a as ih => rw [List.foldl_cons, ih, mem_keys_set, List.map_cons, List.mem_cons, or_assoc]

/-- The keys come in the order in which they were first set. -/
theorem pairwise_keys_foldl_set (as : List α) : (as.foldl set (empty : Keyed key)).keys.Pairwise
    fun k k' => (as.map key).idxOf k < (as.map key).idxOf k' := by
  induction as using List.reverseRecOn with
  | nil => exact List.Pairwise.nil
  | append_singleton as a ih =>
    have hmem (k : κ) : k ∈ (as.foldl set (empty : Keyed key)).keys ↔ k ∈ as.map key := by
      rw [mem_keys_foldl_set]
      simp [keys, empty]
    have hold {k : κ} (hk : k ∈ as.map key) :
        (as.map key ++ [key a]).idxOf k = (as.map key).idxOf k :=
      List.idxOf_append_of_mem hk
    rw [List.foldl_append, List.foldl_cons, List.foldl_nil, List.map_append,
      List.map_singleton, keys_set]
    have hbefore := ih.imp_of_mem
      (S := fun k k' => (as.map key ++ [key a]).idxOf k < (as.map key ++ [key a]).idxOf k')
      fun {k k'} hk hk' hlt => by rwa [hold ((hmem k).mp hk), hold ((hmem k').mp hk')]
    by_cases ha : key a ∈ (as.foldl set (empty : Keyed key)).keys
    · rw [if_pos ha]
      exact hbefore
    · rw [if_neg ha]
      refine List.pairwise_append.mpr ⟨hbefore, List.pairwise_singleton _ _, fun k hk k' hk' => ?_⟩
      rw [List.mem_singleton] at hk'
      subst hk'
      rw [hold ((hmem k).mp hk), List.idxOf_append_of_notMem (mt (hmem _).mpr ha)]
      exact Nat.lt_add_right _ (List.idxOf_lt_length_of_mem ((hmem k).mp hk))

end Set

end Keyed
