/-
Programs that work in a session of a store.

A `Session` has three layers: what is committed and seen by everyone, what the open
transaction has flushed and sees itself, and the writes that still wait for a flush.  A
`Program` moves a session and returns a value or raises; what it did to the session before
it raised stays done, since nothing but `rollback` undoes it.  A `request` opens a session,
runs a program and closes the session, which discards all that was not committed.

* `Keeps` — the program commits nothing, with one rule for each operation;
* `Atomic` — the program has committed nothing when it raises; `request_of_error` says what
  that means for the store.
-/
import Mathlib.Control.Basic

namespace Transaction

/-- The layers of a session. -/
structure Session (S W : Type) where
  committed : S
  flushed : S
  pending : List W := []

/-- A session of which nothing was used yet. -/
def Session.fresh {S W : Type} (store : S) : Session S W := { committed := store, flushed := store }

/-- A computation in a session. -/
def Program (S W ε α : Type) := Session S W → Except ε α × Session S W

variable {S W ε α β : Type}

namespace Program

instance : Monad (Program S W ε) where
  pure a := fun s => (.ok a, s)
  bind p f := fun s =>
    match p s with
    | (.ok a, s') => f a s'
    | (.error e, s') => (.error e, s')

/-- A computation that touches no session. -/
def lift (x : Except ε α) : Program S W ε α := fun s => (x, s)

/-- The outcome as a value, in the session as the program left it. -/
def attempt (p : Program S W ε α) : Program S W ε (Except ε α) := fun s => (.ok (p s).1, (p s).2)

/-- Queue a write. -/
def add (w : W) : Program S W ε Unit := fun s => (.ok (), { s with pending := s.pending ++ [w] })

/-- Drop everything that was not committed. -/
def rollback : Program S W ε Unit := fun s => (.ok (), .fresh s.committed)

/-- Read what the transaction sees. -/
def read (f : S → Except ε α) : Program S W ε α := fun s => (f s.flushed, s)

/-- Let everyone see what the transaction sees. -/
def publish : Program S W ε Unit := fun s => (.ok (), { s with committed := s.flushed })

section Write

variable (write : S → W → Except ε S)

/-- Do the waiting writes; if the store refuses one, none is done. -/
def flush : Program S W ε Unit := fun s =>
  match s.pending.foldlM write s.flushed with
  | .ok flushed => (.ok (), { s with flushed, pending := [] })
  | .error e => (.error e, s)

/-- Read, after a flush. -/
def query (f : S → Except ε α) : Program S W ε α := do
  flush write
  read f

/-- Flush, and let everyone see it. -/
def commit : Program S W ε Unit := do
  flush write
  publish

end Write

/-- Open a session, run the program, close the session. -/
def request (p : Program S W ε α) (store : S) : Except ε α × S :=
  ((p (.fresh store)).1, (p (.fresh store)).2.committed)

/-! ### Running a program -/

section Run

variable {p : Program S W ε α} {f : α → Program S W ε β} {s s' : Session S W} {a : α} {e : ε}
  {write : S → W → Except ε S} {c d d' : S}

theorem bind_of_ok (h : p s = (.ok a, s')) : (p >>= f) s = f a s' := by
  show (match p s with
    | (.ok a, s') => f a s'
    | (.error e, s') => (.error e, s')) = _
  rw [h]

theorem bind_of_error (h : p s = (.error e, s')) : (p >>= f) s = (.error e, s') := by
  show (match p s with
    | (.ok a, s') => f a s'
    | (.error e, s') => (.error e, s')) = _
  rw [h]

@[simp] theorem lift_ok_bind : lift (.ok a) >>= f = f a := rfl

@[simp] theorem lift_error_bind : (lift (.error e) >>= f) s = (.error e, s) := rfl

@[simp] theorem add_bind {w : W} {f : Unit → Program S W ε β} :
    (add w >>= f) s = f () { s with pending := s.pending ++ [w] } := rfl

@[simp] theorem rollback_bind {f : Unit → Program S W ε β} : (rollback >>= f) s = f ()
    (.fresh s.committed) := rfl

theorem attempt_of {r : Except ε α} (h : p s = (r, s')) : p.attempt s = (.ok r, s') := by
  rw [attempt, h]

/-- A flush that the store lets through. -/
theorem flush_of_ok (h : s.pending.foldlM write s.flushed = .ok d) :
    flush write s = (.ok (), { s with flushed := d, pending := [] }) := by
  rw [flush, h]

/-- A flush that it does not leaves the session as it was. -/
theorem flush_of_error (h : s.pending.foldlM write s.flushed = .error e) :
    flush write s = (.error e, s) := by
  rw [flush, h]

theorem commit_of_ok (h : s.pending.foldlM write s.flushed = .ok d) :
    commit write s = (.ok (), .fresh d) :=
  bind_of_ok (flush_of_ok h)

theorem commit_of_error (h : s.pending.foldlM write s.flushed = .error e) :
    commit write s = (.error e, s) :=
  bind_of_error (flush_of_error h)

/-- With no write waiting, a query only reads. -/
theorem query_of_nil {g : S → Except ε α} (h : s.pending = []) :
    query write g s = (g s.flushed, s) := by
  have hflush : flush write s = (.ok (), { s with flushed := s.flushed, pending := [] }) :=
    flush_of_ok (by rw [h]; rfl)
  rw [query, bind_of_ok hflush, read, ← h]

/-- A request that starts with a query goes on with what it read. -/
theorem request_query {g : S → Except ε α} {store : S} : request (query write g >>= f) store =
    match g store with
    | .ok a => request (f a) store
    | .error e => (.error e, store) := by
  have hread : query write g (.fresh store) = (g store, .fresh store) := query_of_nil rfl
  cases hg : g store with
  | ok a =>
    rw [hg] at hread
    rw [request, bind_of_ok hread]
    rfl
  | error e =>
    rw [hg] at hread
    rw [request, bind_of_error hread]
    rfl

end Run

/-! ### Committing nothing -/

/-- However the program ends, what was committed before still is what is. -/
def Keeps (p : Program S W ε α) : Prop := ∀ s, (p s).2.committed = s.committed

/-- If the program raises, it has committed nothing. -/
def Atomic (p : Program S W ε α) : Prop :=
  ∀ s e, (p s).1 = .error e → (p s).2.committed = s.committed

section Rules

variable {p : Program S W ε α} {f : α → Program S W ε β} {write : S → W → Except ε S}

theorem keeps_pure (a : α) : Keeps (pure a : Program S W ε α) := fun _ => rfl

theorem keeps_lift (x : Except ε α) : Keeps (lift x : Program S W ε α) := fun _ => rfl

theorem keeps_add (w : W) : Keeps (add w : Program S W ε Unit) := fun _ => rfl

theorem keeps_rollback : Keeps (rollback : Program S W ε Unit) := fun _ => rfl

theorem keeps_read (g : S → Except ε α) : Keeps (read g : Program S W ε α) := fun _ => rfl

theorem keeps_flush : Keeps (flush write) := by
  intro s
  rw [flush]
  split
  · rfl
  · rfl

theorem Keeps.attempt (hp : Keeps p) : Keeps p.attempt := fun s => hp s

theorem Keeps.bind (hp : Keeps p) (hf : ∀ a, Keeps (f a)) : Keeps (p >>= f) := by
  intro s
  cases hs : p s with
  | mk r s' =>
    have hs' : s'.committed = s.committed := by
      rw [← hp s, hs]
    cases r with
    | ok a => rw [bind_of_ok hs, hf a s', hs']
    | error e => rw [bind_of_error hs, hs']

theorem keeps_query (g : S → Except ε α) : Keeps (query write g) :=
  keeps_flush.bind fun _ => keeps_read g

/-- What commits nothing may come before. -/
theorem Keeps.bind_atomic (hp : Keeps p) (hf : ∀ a, Atomic (f a)) : Atomic (p >>= f) := by
  intro s e he
  cases hs : p s with
  | mk r s' =>
    have hs' : s'.committed = s.committed := by
      rw [← hp s, hs]
    cases r with
    | ok a =>
      rw [bind_of_ok hs] at he ⊢
      rw [hf a s' e he, hs']
    | error e' => rw [bind_of_error hs, hs']

/-- What never raises may come after the commit. -/
theorem atomic_commit {f : Unit → Program S W ε β}
    (hf : ∀ s, s.pending = [] → ∃ b, (f () s).1 = .ok b) : Atomic (commit write >>= f) := by
  intro s e he
  cases hs : s.pending.foldlM write s.flushed with
  | ok d =>
    rw [bind_of_ok (commit_of_ok hs)] at he
    obtain ⟨b, hb⟩ := hf (.fresh d) rfl
    rw [hb] at he
    cases he
  | error e' => rw [bind_of_error (commit_of_error hs)]

end Rules

/-- **All or nothing.**  A request whose program raises leaves the store as it was. -/
theorem request_of_error {p : Program S W ε α} (hp : Atomic p) {store : S} {e : ε}
    (h : (p (.fresh store)).1 = .error e) : request p store = (.error e, store) := by
  rw [request, h, hp (.fresh store) e h]
  rfl

/-- A request whose program ends commits what it has left committed. -/
theorem request_of_ok {p : Program S W ε α} {store store' : S} {a : α}
    (h : p (.fresh store) = (.ok a, .fresh store')) : request p store = (.ok a, store') := by
  rw [request, h]
  rfl

end Program

end Transaction
