/-
Which socket owns a row.

`release_connection` compares connection ids and nothing else.  What that comparison means
rests on an invariant: the `connection_id` of an open row is the one bound last, and a
closed row has none.

* `Change.socket` — no operation but `bind_connection` gives a row a socket, and whatever
  closes the row takes it away;
* `Db.OwnedBy` — the invariant (`ownedBy_after`);
* `socket_ownership` — over every run, a release returns the row exactly for the last bind
  of an open row, and at most one release does.
-/
import ZoomClone.Rows
import ZoomClone.Runs

namespace ZoomClone

/-! ### The calls -/

/-- A service call: an operation, or `mark_left` on a row. -/
inductive RowCall where
  | call (op : Operation)
  | markLeft (participantId : ParticipantId) (now : DateTime)

/-- The database after a call. -/
def Db.after (db : Db) : RowCall → Db
  | .call op => db.apply op
  | .markLeft participantId now =>
    match db.getParticipant participantId with
    | none => db
    | some p => (markLeft db p now).2

/-- The connection that a call binds the row to. -/
def RowCall.binds (id : ParticipantId) : RowCall → Option ConnectionId
  | .call (.bindConnection participantId connectionId) =>
    if participantId = id then some connectionId else none
  | _ => none

/-- The id of the last bind of the row. -/
def lastBind (id : ParticipantId) (evs : List RowCall) : Option ConnectionId :=
  (evs.filterMap (RowCall.binds id)).getLast?

/-- The row is bound only while it is open. -/
def BindsOpen (id : ParticipantId) (db : Db) (e : RowCall) : Prop :=
  e.binds id ≠ none → db.isOpen id

instance (id : ParticipantId) (db : Db) (e : RowCall) : Decidable (BindsOpen id db e) :=
  inferInstanceAs (Decidable (_ → _))

/-- What a release should do when `last` is the id of the last bind of the row. -/
structure ReleasesRight (db : Db) (id : ParticipantId) (last : Option ConnectionId)
    (c : ConnectionId)
    (now : DateTime) : Prop where
  returns : (releaseConnection db id c now).1.isSome ↔ last = some c ∧ db.isOpen id
  stamps : ∀ v, (releaseConnection db id c now).1 = some v → v.leftAt = some now ∧
    ∃ q ∈ (releaseConnection db id c now).2.participants, q.id = id ∧ q.leftAt = some now
  keeps : (releaseConnection db id c now).1 = none → (releaseConnection db id c now).2 = db

@[simp] theorem lastBind_nil (id : ParticipantId) : lastBind id [] = none := rfl

theorem lastBind_concat (id : ParticipantId) (evs : List RowCall) (e : RowCall) :
    lastBind id (evs ++ [e]) = (e.binds id).or (lastBind id evs) := by
  rw [lastBind, lastBind, List.filterMap_append, List.getLast?_append]
  cases h : e.binds id <;> simp [h]

theorem binds_eq_some {id : ParticipantId} {e : RowCall} {c : ConnectionId} :
    e.binds id = some c ↔ e = .call (.bindConnection id c) := by
  constructor
  · intro h
    unfold RowCall.binds at h
    split at h
    · split at h
      · next hid => rw [hid, Option.some.inj h]
      · cases h
    · cases h
  · rintro rfl
    exact if_pos rfl

/-! ### One call -/

section Call

variable {db db' : Db} {op : Operation} {p : Participant} {id : ParticipantId}
  {last : Option ConnectionId} {e : RowCall}

/-- **The socket of a row.**  Whatever does not bind the row keeps its stamp and its
socket, or leaves it closed without one. -/
theorem Change.socket (h : Change db op db') (hp : p ∈ db.participants)
    (hbind : ∀ c, op ≠ .bindConnection p.id c) : ∃ q ∈ db'.participants, q.id = p.id ∧
      (q.leftAt = p.leftAt ∧ q.connectionId = p.connectionId ∨ q.leftAt ≠ none ∧
      q.connectionId = none) := by
  have hsame (h : p ∈ db'.participants) : ∃ q ∈ db'.participants, q.id = p.id ∧
      (q.leftAt = p.leftAt ∧ q.connectionId = p.connectionId ∨
        q.leftAt ≠ none ∧ q.connectionId = none) := ⟨p, h, rfl, .inl ⟨rfl, rfl⟩⟩
  cases h with
  | aside h => exact hsame (h.participants ▸ hp)
  | created m hnew hs hm hparticipants => exact hsame (hparticipants ▸ hp)
  | edited id f hf hn hs => exact hsame hp
  | cancelled m hm hs => exact hsame hp
  | started m now hm hs => exact hsame hp
  | ended m now hm =>
    refine ⟨_, Db.mem_updateRows.mpr ⟨p, hp, rfl⟩, ?_⟩
    split
    · exact ⟨rfl, .inr ⟨Option.some_ne_none now, rfl⟩⟩
    · exact ⟨rfl, .inl ⟨rfl, rfl⟩⟩
  | joined m user req draws now hm hs hlt hnew hsession hparticipants hmeetings =>
    exact hsame (hparticipants ▸ Keyed.mem_insert.mpr (.inl hp))
  | media P f hf he hl hc =>
    refine ⟨_, Db.mem_updateRows.mpr ⟨p, hp, rfl⟩, ?_⟩
    split
    · exact ⟨hf p, .inl ⟨hl p, hc p⟩⟩
    · exact ⟨rfl, .inl ⟨rfl, rfl⟩⟩
  | closed p' now hp' =>
    refine ⟨_, Db.mem_updateRow.mpr ⟨p, hp, rfl⟩, ?_⟩
    split
    · exact ⟨rfl, .inr ⟨Option.some_ne_none _, rfl⟩⟩
    · exact ⟨rfl, .inl ⟨rfl, rfl⟩⟩
  | @bound participantId c =>
    have hother : p.id ≠ participantId := by
      rintro rfl
      exact hbind c rfl
    exact ⟨_, Db.mem_updateRow.mpr ⟨p, hp, rfl⟩, by simp [hother]⟩

/-- The same for a call. -/
theorem socket_after (hp : p ∈ db.participants) (hbind : e.binds p.id = none) :
    ∃ q ∈ (db.after e).participants, q.id = p.id ∧
      (q.leftAt = p.leftAt ∧ q.connectionId = p.connectionId ∨ q.leftAt ≠ none ∧
      q.connectionId = none) := by
  cases e with
  | call op =>
    have hother (c : ConnectionId) : op ≠ .bindConnection p.id c := by
      rintro rfl
      rw [binds_eq_some.mpr rfl] at hbind
      cases hbind
    rcases apply_change db op with hsame | hchange
    · exact ⟨p, by rwa [Db.after, hsame], rfl, .inl ⟨rfl, rfl⟩⟩
    · exact hchange.socket hp hother
  | markLeft participantId now =>
    rw [Db.after]
    cases hfound : db.getParticipant participantId with
    | none => exact ⟨p, hp, rfl, .inl ⟨rfl, rfl⟩⟩
    | some p' =>
      have hchange : Change db (.leaveMeeting p'.sessionId now) (markLeft db p' now).2 :=
        .closed p' now (getParticipant_mem hfound)
      exact hchange.socket hp fun c => Operation.noConfusion

/-- The row is there, bound to the last bind while it is open, and to nothing once it is
closed. -/
def Db.OwnedBy (db : Db) (id : ParticipantId) (last : Option ConnectionId) : Prop :=
  ∃ p ∈ db.participants, p.id = id ∧ p.connectionId = if p.leftAt = none then last else none

/-- The row is there, and closed. -/
def Db.Closed (db : Db) (id : ParticipantId) : Prop :=
  ∃ p ∈ db.participants, p.id = id ∧ p.leftAt ≠ none

theorem Db.Closed.not_isOpen (h : db.Closed id) : ¬ db.isOpen id := by
  obtain ⟨p, hp, hid, hleft⟩ := h
  rw [Db.isOpen_iff]
  rintro ⟨q, hq, hqid, hopen⟩
  obtain rfl : p = q := Keyed.eq_of_key_eq hp hq (hid.trans hqid.symm)
  exact hleft hopen

/-- A bind writes its id into the row. -/
theorem mem_after_bind {c : ConnectionId} (hp : p ∈ db.participants) :
    p.bindTo c ∈ (db.after (.call (.bindConnection p.id c))).participants := by
  show p.bindTo c ∈ (bindConnection db p.id c).participants
  exact Db.mem_updateRow.mpr ⟨p, hp, by rw [if_pos rfl]⟩

theorem ownedBy_after (h : db.OwnedBy id last) (hopen : BindsOpen id db e) :
    (db.after e).OwnedBy id ((e.binds id).or last) := by
  obtain ⟨p, hp, rfl, hsocket⟩ := h
  cases hbind : e.binds p.id with
  | none =>
    obtain ⟨q, hq, hid, ⟨hleft, hconn⟩ | ⟨hleft, hconn⟩⟩ := socket_after hp hbind
    · exact ⟨q, hq, hid, by rw [hconn, hleft, hsocket]; rfl⟩
    · exact ⟨q, hq, hid, by rw [hconn, if_neg hleft]⟩
  | some c =>
    obtain rfl := binds_eq_some.mp hbind
    -- The row is bound only while it is open, so its socket is the one bound just now.
    obtain ⟨q, hq, hqid, hleft⟩ :=
      Db.isOpen_iff.mp (hopen (by rw [hbind]; exact Option.some_ne_none c))
    obtain rfl : q = p := Keyed.eq_of_key_eq hq hp hqid
    exact ⟨_, mem_after_bind hp, rfl, (if_pos hleft).symm⟩

/-- A closed row stays closed. -/
theorem closed_after (h : db.Closed id) (e : RowCall) : (db.after e).Closed id := by
  obtain ⟨p, hp, rfl, hleft⟩ := h
  cases hbind : e.binds p.id with
  | none =>
    obtain ⟨q, hq, hid, ⟨hsame, -⟩ | ⟨hclosed, -⟩⟩ := socket_after hp hbind
    · exact ⟨q, hq, hid, by rwa [hsame]⟩
    · exact ⟨q, hq, hid, hclosed⟩
  | some c =>
    obtain rfl := binds_eq_some.mp hbind
    exact ⟨_, mem_after_bind hp, rfl, hleft⟩

/-- What a release makes of the row it finds. -/
theorem releaseConnection_of_found {c : ConnectionId} (now : DateTime)
    (hp : db.getParticipant id = some p) : releaseConnection db id c now =
      if p.connectionId = some c then (some (markLeft db p now).1, (markLeft db p now).2)
      else (none, db) := by
  rw [releaseConnection, hp]

/-- **A release does what it should**, where the last bind owns the row. -/
theorem Db.OwnedBy.releasesRight (h : db.OwnedBy id last) (c : ConnectionId) (now : DateTime) :
    ReleasesRight db id last c now := by
  obtain ⟨p, hp, rfl, hsocket⟩ := h
  have hfound : db.getParticipant p.id = some p := Keyed.find?_of_mem hp
  have hrelease := releaseConnection_of_found (c := c) now hfound
  have hopen : db.isOpen p.id ↔ p.leftAt = none := by simp [Db.isOpen, hfound]
  have howner : p.connectionId = some c ↔ last = some c ∧ p.leftAt = none := by
    rw [hsocket]
    -- A closed row has no connection, so it cannot match.
    by_cases hleft : p.leftAt = none <;> simp [hleft]
  constructor
  · rw [hopen, ← howner, hrelease]
    split <;> simp_all
  · intro v hv
    by_cases hc : p.connectionId = some c
    · have hleft := (howner.mp hc).2
      rw [hrelease, if_pos hc] at hv ⊢
      obtain rfl := Option.some.inj hv
      have hmem : p.markLeft now ∈ (markLeft db p now).2.participants := by
        show p.markLeft now ∈
          (db.updateRow p.id (·.markLeft now) (Participant.markLeft_id · now)).participants
        exact Db.mem_updateRow.mpr ⟨p, hp, by rw [if_pos rfl]⟩
      refine ⟨?_, _, hmem, rfl, ?_⟩
      · simp [markLeft, serializeParticipant, Participant.markLeft, hleft]
      · simp [Participant.markLeft, hleft]
    · rw [hrelease, if_neg hc] at hv
      cases hv
  · intro hnone
    by_cases hc : p.connectionId = some c
    · rw [hrelease, if_pos hc] at hnone
      cases hnone
    · rw [hrelease, if_neg hc]

end Call

/-! ### Runs -/

section Run

variable {db : Db} {id : ParticipantId} {evs : List RowCall}

theorem ownedBy_run (h : db.OwnedBy id none) (hopen : Runs.Guarded Db.after (BindsOpen id) db evs) :
    (Runs.run Db.after db evs).OwnedBy id (lastBind id evs) := by
  induction evs using List.reverseRecOn with
  | nil => exact h
  | append_singleton evs e ih =>
    obtain ⟨hguard, he⟩ := Runs.guarded_concat.mp hopen
    rw [Runs.run_concat, lastBind_concat]
    exact ownedBy_after (ih hguard) he

/-- The release at the end of the run returns the row. -/
def Returns (db : Db) (id : ParticipantId) (pre : List RowCall) (c : ConnectionId)
    (now : DateTime) : Prop :=
  (releaseConnection (Runs.run Db.after db pre) id c now).1.isSome

/-- After a release that returned the row, no other one does. -/
theorem not_returns_again {pre pre' : List RowCall} {c c' : ConnectionId} {now now' : DateTime}
    (h : db.OwnedBy id none) (hopen : Runs.Guarded Db.after (BindsOpen id) db pre')
    (hpre : pre ++ [.call (.releaseConnection id c now)] <+: pre')
    (hreturns : Returns db id pre c now) :
    ¬ Returns db id pre' c' now' := by
  obtain ⟨rest, rfl⟩ := hpre
  rw [List.append_assoc] at hopen
  have hright := (ownedBy_run h (Runs.guarded_append.mp hopen).1).releasesRight c now
  obtain ⟨v, hv⟩ := Option.isSome_iff_exists.mp hreturns
  obtain ⟨-, q, hq, hid, hleft⟩ := hright.stamps v hv
  have hclosed :
      (Runs.run Db.after db (pre ++ [.call (.releaseConnection id c now)])).Closed id := by
    rw [Runs.run_concat]
    exact ⟨q, hq, hid, by rw [hleft]; exact Option.some_ne_none now⟩
  -- The release closed the row, and no later call opens it again.
  have hlater := (Runs.always_of_step (I := (Db.Closed · id)) hclosed
    (fun _ e h => closed_after h e) rest).last
  rw [← Runs.run_append] at hlater
  rw [← List.append_assoc] at hopen
  intro hagain
  have hlast := ((ownedBy_run h hopen).releasesRight c' now').returns.mp hagain
  exact hlater.not_isOpen hlast.2

end Run

/-- **Socket ownership of a row.**  In every run in which the row is bound only while it is
open, whatever else happens: a release returns the row exactly if its id is the one bound
last and the row is still open, it then stamps the row, and otherwise changes nothing; and
at most one release returns the row. -/
theorem socket_ownership {db : Db} {p : Participant} (hp : p ∈ db.participants)
    (hfree : p.connectionId = none) {evs : List RowCall}
    (hopen : Runs.Guarded Db.after (BindsOpen p.id) db evs) :
    (∀ pre c now, pre ++ [.call (.releaseConnection p.id c now)] <+: evs →
      ReleasesRight (Runs.run Db.after db pre) p.id (lastBind p.id pre) c now) ∧
    ∀ pre c now pre' c' now', pre ++ [.call (.releaseConnection p.id c now)] <+: evs →
      pre' ++ [.call (.releaseConnection p.id c' now')] <+: evs → Returns db p.id pre c now →
        Returns db p.id pre' c' now' → pre = pre' := by
  have howned : db.OwnedBy p.id none := ⟨p, hp, rfl, by rw [hfree, ite_self]⟩
  have hguard {pre : List RowCall} {e : RowCall} (hpre : pre ++ [e] <+: evs) :
      Runs.Guarded Db.after (BindsOpen p.id) db pre := fun pre' e' h' =>
    hopen pre' e' (h'.trans ((List.prefix_append pre [e]).trans hpre))
  constructor
  · intro pre c now hpre
    exact (ownedBy_run howned (hguard hpre)).releasesRight c now
  · intro pre c now pre' c' now' hpre hpre' hreturns hreturns'
    -- Of two releases in one run one comes first.
    rcases List.prefix_or_prefix_of_prefix hpre hpre' with hle | hle
    · rcases List.prefix_concat_iff.mp hle with heq | hlt
      · exact (List.append_inj' heq rfl).1
      · exact absurd hreturns' (not_returns_again howned (hguard hpre') hlt hreturns)
    · rcases List.prefix_concat_iff.mp hle with heq | hlt
      · exact (List.append_inj' heq rfl).1.symm
      · exact absurd hreturns (not_returns_again howned (hguard hpre) hlt hreturns')

/-- A row that a join has just added. -/
def freshRow : Participant :=
  { id := "1", meetingId := "m", userId := some "host", displayName := "Ada", role := .host,
    sessionId := "s1", joinedAt := 20 }

/-- A second socket takes the row over before the first one is released. -/
def takeover : List RowCall :=
  [.call (.bindConnection "1" "c1"), .call (.bindConnection "1" "c2"),
   .call (.releaseConnection "1" "c1" 30), .call (.releaseConnection "1" "c2" 40),
   .markLeft "1" 50, .call (.releaseConnection "1" "c2" 60)]

/-- The database with that row. -/
def freshRoom : Db := { participants := Keyed.empty.insert freshRow List.not_mem_nil }

theorem socket_ownership_takeover :
    (∀ pre c now, pre ++ [.call (.releaseConnection freshRow.id c now)] <+: takeover →
      ReleasesRight (Runs.run Db.after freshRoom pre) freshRow.id
        (lastBind freshRow.id pre) c now) ∧
    ∀ pre c now pre' c' now', pre ++ [.call (.releaseConnection freshRow.id c now)] <+: takeover →
      pre' ++ [.call (.releaseConnection freshRow.id c' now')] <+: takeover →
        Returns freshRoom freshRow.id pre c now → Returns freshRoom freshRow.id pre' c' now' →
          pre = pre' :=
  socket_ownership (by decide) rfl (by decide)

end ZoomClone
