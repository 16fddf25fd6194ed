/-
The in-process cache (`cache/memory.py`).

Expiry is handled in three places: `get` and `incr` look at the deadline of the entry they
find, and a sweep, at most one in an interval, drops what has expired.  Whether and when a
sweep happens cannot be seen: the cache answers as a map with deadlines does.

* `MemoryCache.step` — the cache, with what it reads off the clock;
* `TtlCache.step` — the map with deadlines;
* `memory_cache_is_ttl_map` — every sequence of calls is answered alike.
-/
import Mathlib.Algebra.Order.Group.Int
import ZoomClone.Calendar
import ZoomClone.Machines
import ZoomClone.TtlMap

namespace ZoomClone

/-! ### Integers as text -/

/-- `sys.int_info.default_max_str_digits`. -/
def maxStrDigits : ℕ := 4300

/-- The white space that `int` skips. -/
def isIntSpace (c : Char) : Bool := PyStr.isSpace c && !inRanges [(0x1c, 0x1f)] c

/-- One digit at least, with single underscores between digits. -/
def readDigits : List Char → Option (List ℕ)
  | [] => none
  | [c] => (decimal c).map fun d => [d]
  | c :: '_' :: rest => do
    let d ← decimal c
    let ds ← readDigits rest
    return d :: ds
  | c :: rest => do
    let d ← decimal c
    let ds ← readDigits rest
    return d :: ds

/-- The number with those digits; too many of them are refused. -/
def ofDigits (digits : List ℕ) : Option ℕ :=
  if digits.length ≤ maxStrDigits then some (digits.foldl (fun n d => 10 * n + d) 0) else none

/-- `int(s)`; `none` is a `ValueError`. -/
def intOfStr (s : String) : Option ℤ :=
  match Trim.trim isIntSpace s.toList with
  | '-' :: cs => ((readDigits cs).bind ofDigits).map fun n => -(n : ℤ)
  | '+' :: cs => ((readDigits cs).bind ofDigits).map fun n => (n : ℤ)
  | cs => ((readDigits cs).bind ofDigits).map fun n => (n : ℤ)

/-- `str(n)`; `none` is a `ValueError`. -/
def strOfInt (n : ℤ) : Option String :=
  if (toString n.natAbs).length ≤ maxStrDigits then some (toString n) else none

example : intOfStr " -1_000 " = some (-1000) := by decide
example : intOfStr "1__0" = none := by decide

/-! ### The cache -/

/-- `_Entry`, with its key. -/
structure CacheEntry (θ : Type*) where
  key : String
  value : String
  expiresAt : Option θ

/-- A call of the cache.  A `ttl` is given as the span of time that is added to the clock. -/
inductive CacheOp (θ : Type*) where
  | get (key : String)
  | set (key value : String) (ttl : Option θ)
  | delete (key : String)
  | incr (key : String)
  | clear

/-- A call with what it reads off the clock: once for the sweep, and once again. -/
structure CacheCall (θ : Type*) where
  op : CacheOp θ
  sweepAt : θ
  now : θ

inductive CacheReply where
  | none
  | value (value : Option String)
  | count (n : ℤ)
  | valueError
  deriving DecidableEq

structure MemoryCache (θ : Type*) where
  data : Keyed (CacheEntry.key (θ := θ))
  sweepInterval : θ
  lastSweep : θ

section Cache

variable {θ : Type*} [LinearOrder θ] [Add θ] [Sub θ]

def CacheEntry.isExpired (e : CacheEntry θ) (now : θ) : Bool := e.expiresAt.any fun d => d ≤ now

namespace MemoryCache

/-- `MemoryCache(sweep_interval)`, at an instant. -/
def new (sweepInterval now : θ) : MemoryCache θ :=
  { data := .empty, sweepInterval, lastSweep := now }

/-- Drop expired keys at most once per `sweep_interval`. -/
def maybeSweep (c : MemoryCache θ) (now : θ) : MemoryCache θ :=
  if now - c.lastSweep < c.sweepInterval then c
  else { c with lastSweep := now, data := c.data.filter fun e => !e.isExpired now }

def get (c : MemoryCache θ) (key : String) (sweepAt now : θ) : CacheReply × MemoryCache θ :=
  let c := c.maybeSweep sweepAt
  match c.data.find? key with
  | none => (.value none, c)
  | some entry =>
    if entry.isExpired now then (.value none, { c with data := c.data.erase key })
    else (.value (some entry.value), c)

def set (c : MemoryCache θ) (key value : String) (ttl : Option θ) (sweepAt now : θ) :
    CacheReply × MemoryCache θ :=
  let c := c.maybeSweep sweepAt
  (.none, { c with data := c.data.set ⟨key, value, ttl.map fun ttl => now + ttl⟩ })

def delete (c : MemoryCache θ) (key : String) : CacheReply × MemoryCache θ :=
  (.none, { c with data := c.data.erase key })

/-- The new count is stored, unless it has too many digits to be written. -/
def store (c : MemoryCache θ) (key : String) (current : ℤ) (expiresAt : Option θ) :
    CacheReply × MemoryCache θ :=
  match strOfInt (current + 1) with
  | none => (.valueError, c)
  | some value => (.count (current + 1), { c with data := c.data.set ⟨key, value, expiresAt⟩ })

/-- A key that is there keeps its deadline; a value that is no number counts as zero. -/
def incr (c : MemoryCache θ) (key : String) (now : θ) : CacheReply × MemoryCache θ :=
  match c.data.find? key with
  | none => c.store key 0 none
  | some entry =>
    if entry.isExpired now then c.store key 0 none
    else c.store key ((intOfStr entry.value).getD 0) entry.expiresAt

def clear (c : MemoryCache θ) : CacheReply × MemoryCache θ := (.none, { c with data := .empty })

def step (c : MemoryCache θ) (call : CacheCall θ) : CacheReply × MemoryCache θ :=
  match call.op with
  | .get key => c.get key call.sweepAt call.now
  | .set key value ttl => c.set key value ttl call.sweepAt call.now
  | .delete key => c.delete key
  | .incr key => c.incr key call.now
  | .clear => c.clear

end MemoryCache

/-! ### The map with deadlines -/

/-- A key maps to a value and an optional deadline. -/
abbrev TtlCache (θ : Type*) := String → Option (TtlMap.Slot String θ)

namespace TtlCache

def empty : TtlCache θ := fun _ => none

/-- One more than `current`, with that deadline. -/
def count (m : TtlCache θ) (key : String) (current : ℤ) (deadline : Option θ) :
    CacheReply × TtlCache θ :=
  match strOfInt (current + 1) with
  | none => (.valueError, m)
  | some value => (.count (current + 1), Function.update m key (some ⟨value, deadline⟩))

/-- What a map with deadlines answers; nothing is ever dropped but by a call. -/
def step (m : TtlCache θ) (call : CacheCall θ) : CacheReply × TtlCache θ :=
  match call.op with
  | .get key => (.value ((TtlMap.lookup m key call.now).map TtlMap.Slot.value), m)
  | .set key value ttl =>
    (.none, Function.update m key (some ⟨value, ttl.map fun ttl => call.now + ttl⟩))
  | .delete key => (.none, Function.update m key none)
  | .incr key =>
    match TtlMap.lookup m key call.now with
    | none => m.count key 0 none
    | some slot => m.count key ((intOfStr slot.value).getD 0) slot.deadline
  | .clear => (.none, empty)

end TtlCache

/-- The clock does not go back, between calls and within one. -/
def OnTime (last : θ) (call : CacheCall θ) (last' : θ) : Prop :=
  last ≤ call.sweepAt ∧ call.sweepAt ≤ call.now ∧ last' = call.now

end Cache

/-! ### The cache refines the map -/

section Refinement

variable {θ : Type*}

/-- The entry, as the map has it. -/
def CacheEntry.slot (e : CacheEntry θ) : TtlMap.Slot String θ := ⟨e.value, e.expiresAt⟩

/-- What the cache holds, as a map with deadlines. -/
def slots (data : Keyed (CacheEntry.key (θ := θ))) : TtlCache θ :=
  fun k => (data.find? k).map CacheEntry.slot

variable {data : Keyed (CacheEntry.key (θ := θ))}

theorem slots_set (e : CacheEntry θ) :
    slots (data.set e) = Function.update (slots data) e.key (some e.slot) := by
  funext k
  rw [slots, Keyed.find?_set]
  by_cases hk : e.key = k
  · rw [if_pos hk, ← hk, Function.update_self]
    rfl
  · rw [if_neg hk, Function.update_of_ne (Ne.symm hk)]
    rfl

theorem slots_erase (key : String) :
    slots (data.erase key) = Function.update (slots data) key none := by
  funext k
  rw [slots, Keyed.find?_erase]
  by_cases hk : k = key
  · rw [if_pos hk, hk, Function.update_self]
    rfl
  · rw [if_neg hk, Function.update_of_ne hk]
    rfl

variable [LinearOrder θ]

theorem CacheEntry.isExpired_iff {e : CacheEntry θ} {now : θ} :
    e.isExpired now ↔ e.slot.Over now := by
  rw [isExpired, Option.any_eq_true]
  simp [TtlMap.Slot.Over, slot]

/-- A sweep drops what is over. -/
theorem agreeFrom_swept (now : θ) :
    TtlMap.AgreeFrom now (slots (data.filter fun e => !e.isExpired now)) (slots data) := by
  refine TtlMap.agreeFrom_of_drops fun k => ?_
  rw [slots, slots, Keyed.find?_filter]
  cases data.find? k with
  | none => exact .inl rfl
  | some e =>
    by_cases hover : e.isExpired now = true
    · refine .inr ⟨by rw [Option.filter_some_neg (by simp [hover])]; rfl, ?_⟩
      rintro slot ⟨⟩
      exact CacheEntry.isExpired_iff.mp hover
    · rw [Option.filter_some_pos (by simpa using hover)]
      exact .inl rfl

/-- So does a `get` that finds an expired entry. -/
theorem agreeFrom_erased {e : CacheEntry θ} {key : String} {now : θ}
    (hfound : data.find? key = some e)
    (hover : e.isExpired now) : TtlMap.AgreeFrom now (slots (data.erase key)) (slots data) := by
  refine TtlMap.agreeFrom_of_drops fun k => ?_
  rw [slots_erase]
  by_cases hk : k = key
  · subst hk
    refine .inr ⟨Function.update_self .., ?_⟩
    rw [slots, hfound]
    rintro slot ⟨⟩
    exact CacheEntry.isExpired_iff.mp hover
  · exact .inl (Function.update_of_ne hk ..)

/-- An entry that is there and not expired is what a lookup finds. -/
theorem lookup_slots {key : String} {now : θ} : TtlMap.lookup (slots data) key now =
    ((data.find? key).filter fun e => !e.isExpired now).map CacheEntry.slot := by
  rw [TtlMap.lookup, slots]
  cases data.find? key with
  | none => rfl
  | some e => simp [Option.filter, ← CacheEntry.isExpired_iff, apply_ite]

namespace MemoryCache

variable {c : MemoryCache θ} {m : TtlCache θ} {key : String} {last sweepAt now : θ}

/-- A new count goes in on both sides. -/
theorem store_count (h : TtlMap.AgreeFrom now (slots c.data) m)
    (current : ℤ) (deadline : Option θ) :
    (c.store key current deadline).1 = (m.count key current deadline).1 ∧
      TtlMap.AgreeFrom now (slots (c.store key current deadline).2.data)
    (m.count key current deadline).2 := by
  rw [store, TtlCache.count]
  cases strOfInt (current + 1) with
  | none => exact ⟨rfl, h⟩
  | some value =>
    refine ⟨rfl, ?_⟩
    rw [slots_set]
    exact h.update key _

variable [Sub θ]

theorem agreeFrom_maybeSweep (h : TtlMap.AgreeFrom last (slots c.data) m) (hle : last ≤ sweepAt) :
    TtlMap.AgreeFrom sweepAt (slots (c.maybeSweep sweepAt).data) m := by
  have hlater := h.later hle
  rw [maybeSweep]
  split
  · exact hlater
  · exact (agreeFrom_swept sweepAt).trans hlater

variable [Add θ]

/-- **One call.**  It is answered as by the map, and the cache is like the map from then on. -/
theorem step_sim {call : CacheCall θ} {last' : θ} (hcall : OnTime last call last')
    (h : TtlMap.AgreeFrom last (slots c.data) m) : (c.step call).1 = (m.step call).1 ∧
      TtlMap.AgreeFrom last' (slots (c.step call).2.data) (m.step call).2 := by
  obtain ⟨hsweep, hnow, rfl⟩ := hcall
  have hswept := (agreeFrom_maybeSweep h hsweep).later hnow
  have hlater := h.later (hsweep.trans hnow)
  rw [step, TtlCache.step]
  cases call.op with
  | get key =>
    have hanswer := hswept key call.now le_rfl
    rw [lookup_slots] at hanswer
    dsimp only [get]
    rw [← hanswer]
    -- A read of an entry that is over drops it.
    cases hfound : (c.maybeSweep call.sweepAt).data.find? key with
    | none => exact ⟨rfl, hswept⟩
    | some entry =>
      dsimp only
      split
      · next hover =>
        rw [Option.filter_some_neg (by simp [hover])]
        exact ⟨rfl, (agreeFrom_erased hfound hover).trans hswept⟩
      · next hlive =>
        rw [Option.filter_some_pos (by simpa using hlive)]
        exact ⟨rfl, hswept⟩
  | set key value ttl =>
    refine ⟨rfl, ?_⟩
    dsimp only [set]
    rw [slots_set]
    exact hswept.update key _
  | delete key =>
    refine ⟨rfl, ?_⟩
    dsimp only [delete]
    rw [slots_erase]
    exact hlater.update key none
  | incr key =>
    have hanswer := hlater key call.now le_rfl
    rw [lookup_slots] at hanswer
    dsimp only [incr]
    rw [← hanswer]
    -- `incr` does not sweep: it starts again from 0 on an entry that is over.
    cases hfound : c.data.find? key with
    | none => exact store_count hlater 0 none
    | some entry =>
      dsimp only
      split
      · next hover =>
        rw [Option.filter_some_neg (by simp [hover])]
        exact store_count hlater 0 none
      · next hlive =>
        rw [Option.filter_some_pos (by simpa using hlive)]
        exact store_count hlater _ entry.expiresAt
  | clear => exact ⟨rfl, .refl _ _⟩

end MemoryCache

/-- **The cache is a map with deadlines, and the sweep is invisible.**  Whatever the interval
of the sweep, every sequence of calls on a new cache is answered as by the map. -/
theorem memory_cache_is_ttl_map [Add θ] [Sub θ] (sweepInterval start : θ)
    {calls : List (CacheCall θ)}
    (hclock : Machines.Paced OnTime start calls) :
    Machines.answers MemoryCache.step (.new sweepInterval start) calls =
      Machines.answers TtlCache.step TtlCache.empty calls :=
  Machines.answers_eq_of_sim
    (R := fun last (c : MemoryCache θ) m => TtlMap.AgreeFrom last (slots c.data) m)
    (fun _ _ _ _ _ hcall h => MemoryCache.step_sim hcall h) (.refl _ _) hclock

end Refinement

/-- A counter of a minute, read on after it is over. -/
def rateLimit : List (CacheCall ℤ) :=
  [⟨.set "rl" "1" (some 60), 500, 500⟩, ⟨.incr "rl", 530, 530⟩, ⟨.get "rl", 561, 561⟩,
   ⟨.incr "rl", 562, 562⟩, ⟨.get "rl", 700, 700⟩]

example : Machines.answers MemoryCache.step (.new 60 500) rateLimit =
    [.none, .count 2, .value none, .count 1, .value (some "1")] := by decide

theorem memory_cache_rateLimit : Machines.answers MemoryCache.step (.new 60 500) rateLimit =
    Machines.answers TtlCache.step TtlCache.empty rateLimit := by
  refine memory_cache_is_ttl_map 60 500 ?_
  exact ⟨500, ⟨by decide, by decide, rfl⟩, 530, ⟨by decide, by decide, rfl⟩, 561,
    ⟨by decide, by decide, rfl⟩,
    562, ⟨by decide, by decide, rfl⟩, 700, ⟨by decide, by decide, rfl⟩, trivial⟩

end ZoomClone
