/-
The participant rows over a run of operations.

* `Change.rows` — an operation lets every row evolve in place, in the order of
  the table, and adds at most one row, which a join inserts last;
* `Db.Valid` — the invariant of the database: rows belong to meetings, sessions
  are distinct, and no meeting has more open rows than the cap;
* `valid_apply` — every operation keeps it.
-/
import ZoomClone.Operations

namespace ZoomClone

/-- The open rows of a meeting are counted one by one. -/
theorem activeCount_eq_countP (db : Db) (meetingId : MeetingId) :
    activeCount db meetingId =
      db.participants.rows.countP fun p => p.meetingId = meetingId ∧ p.leftAt = none := by
  rw [activeCount, Db.activeRows, List.countP_eq_length_filter]

/-! ### One operation -/

/-- A row that a join inserts: open, in a meeting that exists, under an id and a
session that no row has. -/
structure Db.Inserts (db : Db) (row : Participant) : Prop where
  meeting : row.meetingId ∈ db.meetings.keys
  opened : row.leftAt = none
  unbound : row.connectionId = none
  newId : row.id ∉ db.participants.keys
  newSession : ∀ q ∈ db.participants, q.sessionId ≠ row.sessionId

/-- The rows of `db'` are the evolved rows of `db`, with at most one more. -/
structure RowsEvolve (db db' : Db) (f : Participant → Participant) (added : Option Participant) :
    Prop where
  evolves : ∀ p ∈ db.participants, p.Evolves (f p)
  rows : db'.participants.rows = db.participants.rows.map f ++ added.toList
  inserts : ∀ row, added = some row → db.Inserts row

theorem RowsEvolve.of_eq {db db' : Db} (h : db'.participants = db.participants) :
    RowsEvolve db db' id none where
  evolves := fun p _ => .refl p
  rows := by rw [h, List.map_id, Option.toList_none, List.append_nil]
  inserts := by
    intro row hrow
    cases hrow

/-- Updating the rows that satisfy `q` lets every row evolve. -/
theorem rowsEvolve_updateRows (db : Db) (q : Participant → Prop) [DecidablePred q]
    (f : Participant → Participant) (hf : ∀ p, (f p).id = p.id) (he : ∀ p, q p → p.Evolves (f p)) :
    RowsEvolve db (db.updateRows q f hf) (fun p => if q p then f p else p) none where
  evolves := by
    intro p _
    by_cases h : q p
    · rw [if_pos h]
      exact he p h
    · rw [if_neg h]
      exact .refl p
  rows := (List.append_nil _).symm
  inserts := by
    intro row hrow
    cases hrow

/-- A join that commits adds its own row, whatever it read before. -/
theorem rowsEvolve_commitJoin {db db' : Db} {meeting : Meeting} {user : User} {req : JoinRequest}
    {draws : JoinDraws} {now : DateTime} {r : JoinResponse} (hm : meeting.id ∈ db.meetings.keys)
    (h : commitJoin db meeting user req draws now = .ok (r, db')) :
    RowsEvolve db db' id (some (joinRow db meeting user req draws now)) := by
  obtain ⟨hid, hp, -, hsession⟩ := commitJoin_ok h
  refine ⟨fun p _ => .refl p, ?_, ?_⟩
  · rw [hp, List.map_id]
    rfl
  · intro row hrow
    cases hrow
    exact ⟨hm, rfl, rfl, hid, hsession⟩

theorem Participant.evolves_evict {p : Participant} (now : DateTime) (h : p.leftAt = none) :
    p.Evolves (p.evict now) :=
  ⟨rfl, rfl, rfl, rfl, rfl, rfl, rfl, fun hleft => absurd h hleft⟩

theorem Participant.evolves_bind (p : Participant) (connectionId : ConnectionId) :
    p.Evolves (p.bindTo connectionId) :=
  ⟨rfl, rfl, rfl, rfl, rfl, rfl, rfl, fun _ => rfl⟩

/-- **Rows are never lost.**  Every operation lets the rows evolve in place; one
that adds a row found its meeting below the cap. -/
theorem Change.rows {db db' : Db} {op : Operation} (h : Change db op db') :
    ∃ f added, RowsEvolve db db' f added ∧
      ∀ row, added = some row → activeCount db row.meetingId < maxMeshParticipants := by
  have hnone : ∀ row : Participant, none = some row →
      activeCount db row.meetingId < maxMeshParticipants := by
    intro row hrow
    cases hrow
  cases h with
  | aside h => exact ⟨id, none, .of_eq h.participants, hnone⟩
  | created m hid hs hm hp => exact ⟨id, none, .of_eq hp, hnone⟩
  | edited id f hf hn hs => exact ⟨_, none, .of_eq rfl, hnone⟩
  | cancelled m hm hs => exact ⟨_, none, .of_eq rfl, hnone⟩
  | started m now hm hs => exact ⟨_, none, .of_eq rfl, hnone⟩
  | ended m now hm =>
    have h := rowsEvolve_updateRows db (fun p => p.meetingId = m.id ∧ p.leftAt = none) (·.evict now)
      (Participant.evict_id · now) fun p hp => p.evolves_evict now hp.2
    exact ⟨_, none, ⟨h.evolves, h.rows, h.inserts⟩, hnone⟩
  | joined m user req draws now hm hs hlt hid hsession hp hmeetings =>
    refine ⟨id, some (joinRow db m user req draws now), ⟨fun p _ => .refl p, ?_, ?_⟩, ?_⟩
    · rw [hp, List.map_id]
      rfl
    · intro row hrow
      cases hrow
      exact ⟨Keyed.key_mem_keys hm, rfl, rfl, hid, hsession⟩
    · intro row hrow
      cases hrow
      exact hlt
  | media q f hf he hl hc => exact ⟨_, none, rowsEvolve_updateRows db q f hf fun p _ => he p, hnone⟩
  | closed p now hp =>
    exact ⟨_, none, rowsEvolve_updateRows db (fun q => q.id = p.id) (·.markLeft now)
      (Participant.markLeft_id · now) fun q _ => q.evolves_markLeft now, hnone⟩
  | @bound participantId connectionId =>
    exact ⟨_, none, rowsEvolve_updateRows db (fun q => q.id = participantId)
      (·.bindTo connectionId) (Participant.bindTo_id · connectionId)
      fun q _ => q.evolves_bind connectionId, hnone⟩

/-- An update of one meeting row that keeps the number. -/
theorem meeting_updateMeetingRow {db : Db} {m : Meeting} (hm : m ∈ db.meetings) (id : MeetingId)
    (f : Meeting → Meeting) (hf : ∀ m, (f m).id = m.id)
    (hn : ∀ m, (f m).meetingNumber = m.meetingNumber) :
    ∃ m' ∈ (db.updateMeetingRow id f hf).meetings,
      m'.id = m.id ∧ m'.meetingNumber = m.meetingNumber := by
  refine ⟨_, Db.mem_updateMeetingRow.mpr ⟨m, hm, rfl⟩, ?_⟩
  split
  · exact ⟨hf m, hn m⟩
  · exact ⟨rfl, rfl⟩

/-- **Meetings are never lost.**  A meeting row keeps its id and its number. -/
theorem Change.meeting {db db' : Db} {op : Operation} (h : Change db op db') {m : Meeting}
    (hm : m ∈ db.meetings) :
    ∃ m' ∈ db'.meetings, m'.id = m.id ∧ m'.meetingNumber = m.meetingNumber := by
  cases h with
  | aside h => exact ⟨m, h.meetings.symm ▸ hm, rfl, rfl⟩
  | created new hid hs hmeetings hp =>
    exact ⟨m, hmeetings.symm ▸ Keyed.mem_insert.mpr (.inl hm), rfl, rfl⟩
  | edited id f hf hn hs => exact meeting_updateMeetingRow hm id f hf hn
  | cancelled m' hm' hs => exact meeting_updateMeetingRow hm _ _ _ fun _ => rfl
  | started m' now hm' hs => exact meeting_updateMeetingRow hm _ _ _ fun _ => rfl
  | ended m' now hm' => exact meeting_updateMeetingRow hm _ _ (Meeting.finish_id · now) fun _ => rfl
  | joined m' user req draws now hm' hs hlt hid hsession hp hmeetings =>
    rw [hmeetings, Db.welcomeHost]
    split
    · exact meeting_updateMeetingRow hm _ _ _ fun _ => rfl
    · exact ⟨m, hm, rfl, rfl⟩
  | media q f hf he hl hc => exact ⟨m, hm, rfl, rfl⟩
  | closed p now hp => exact ⟨m, hm, rfl, rfl⟩
  | bound => exact ⟨m, hm, rfl, rfl⟩

theorem meeting_apply {db : Db} {m : Meeting} (hm : m ∈ db.meetings) (op : Operation) :
    ∃ m' ∈ (db.apply op).meetings, m'.id = m.id ∧ m'.meetingNumber = m.meetingNumber := by
  rcases apply_change db op with h | h
  · rw [h]
    exact ⟨m, hm, rfl, rfl⟩
  · exact h.meeting hm

theorem Change.meeting_keys {db db' : Db} {op : Operation} (h : Change db op db')
    {id : MeetingId} (hid : id ∈ db.meetings.keys) : id ∈ db'.meetings.keys := by
  obtain ⟨m, hm, rfl⟩ := Keyed.mem_keys.mp hid
  obtain ⟨m', hm', heq, -⟩ := h.meeting hm
  exact heq ▸ Keyed.key_mem_keys hm'

/-- The row of a table after an update of some of its rows. -/
theorem updateRows_row {db : Db} {P : Participant → Prop} [DecidablePred P]
    {f : Participant → Participant} (hf : ∀ p, (f p).id = p.id) {p q : Participant}
    (hp : p ∈ db.participants) (hq : q ∈ (db.updateRows P f hf).participants) (hid : q.id = p.id) :
    q = if P p then f p else p := by
  obtain ⟨p', hp', rfl⟩ := Db.mem_updateRows.mp hq
  have hkey : p'.id = p.id := by
    split at hid
    · exact (hf p').symm.trans hid
    · exact hid
  rw [Keyed.eq_of_key_eq hp' hp hkey]

/-- **The socket of an open row.**  Only `bind_connection` changes it. -/
theorem Change.connectionId {db db' : Db} {op : Operation} (h : Change db op db')
    {p q : Participant} (hp : p ∈ db.participants) (hq : q ∈ db'.participants) (hid : q.id = p.id)
    (hopen : q.leftAt = none) :
    q.connectionId = p.connectionId ∨
      ∃ c, op = .bindConnection p.id c ∧ q.connectionId = some c := by
  have hsame (h : q ∈ db.participants) : q.connectionId = p.connectionId := by
    rw [Keyed.eq_of_key_eq h hp hid]
  cases h with
  | aside h => exact .inl (hsame (h.participants ▸ hq))
  | created m hnew hs hm hparticipants => exact .inl (hsame (hparticipants ▸ hq))
  | edited id f hf hn hs => exact .inl (hsame hq)
  | cancelled m hm hs => exact .inl (hsame hq)
  | started m now hm hs => exact .inl (hsame hq)
  | ended m now hm =>
    obtain rfl := updateRows_row (Participant.evict_id · now) hp hq hid
    split at hopen
    · exact absurd hopen (Option.some_ne_none now)
    · next hkeep => exact .inl (by rw [if_neg hkeep])
  | joined m user req draws now hm hs hlt hnew hsession hparticipants hmeetings =>
    rw [hparticipants, Keyed.mem_insert] at hq
    rcases hq with hq | rfl
    · exact .inl (hsame hq)
    · exact absurd (hid ▸ Keyed.key_mem_keys hp) hnew
  | media P f hf he hl hc =>
    obtain rfl := updateRows_row hf hp hq hid
    left
    split
    · exact hc p
    · rfl
  | closed p' now hp' =>
    obtain rfl := updateRows_row (Participant.markLeft_id · now) hp hq hid
    split at hopen
    · exact absurd hopen (Option.some_ne_none _)
    · next hkeep => exact .inl (by rw [if_neg hkeep])
  | @bound participantId c =>
    obtain rfl := updateRows_row (Participant.bindTo_id · c) hp hq hid
    split
    · next hbind => exact .inr ⟨c, by rw [hbind], rfl⟩
    · exact .inl rfl

/-! ### The invariant of the database -/

/-- Rows belong to meetings, sessions are distinct, and the open rows of a
meeting respect the cap. -/
structure Db.Valid (db : Db) : Prop where
  meeting : ∀ p ∈ db.participants, p.meetingId ∈ db.meetings.keys
  sessions : (db.participants.rows.map Participant.sessionId).Nodup
  capped : ∀ m, activeCount db m ≤ maxMeshParticipants

theorem valid_empty : Db.empty.Valid where
  meeting := by
    intro p hp
    exact absurd hp (Keyed.not_mem_empty p)
  sessions := List.nodup_nil
  capped := fun _ => Nat.zero_le _

/-- A row that evolves to an open row is open. -/
theorem Participant.Evolves.open_of_open {p q : Participant} (h : p.Evolves q)
    (hq : q.leftAt = none) : p.leftAt = none := by
  by_contra hp
  exact hp ((h.leftAt hp).symm.trans hq)

/-- The rows of the meeting that an operation closes. -/
def closedRows (m : MeetingId) (f : Participant → Participant) (rows : List Participant) : ℕ :=
  rows.countP fun p => (p.meetingId = m ∧ p.leftAt = none) ∧ (f p).leftAt ≠ none

/-- Open before is open after or closed. -/
theorem countP_map_evolves {rows : List Participant} {f : Participant → Participant}
    (h : ∀ p ∈ rows, p.Evolves (f p)) (m : MeetingId) :
    ((rows.map f).countP fun p => p.meetingId = m ∧ p.leftAt = none) + closedRows m f rows =
      rows.countP fun p => p.meetingId = m ∧ p.leftAt = none := by
  induction rows with
  | nil => rfl
  | cons p rows ih =>
    have ih := ih fun q hq => h q (List.mem_cons_of_mem p hq)
    have he := h p List.mem_cons_self
    unfold closedRows at ih ⊢
    rw [List.map_cons, List.countP_cons, List.countP_cons, List.countP_cons, ← ih]
    simp only [decide_eq_true_eq, he.meetingId]
    by_cases hopen : p.meetingId = m ∧ p.leftAt = none
    · by_cases hleft : (f p).leftAt = none <;> simp [hopen, hleft] <;> omega
    · have hclosed : ¬ (p.meetingId = m ∧ (f p).leftAt = none) :=
        fun hf => hopen ⟨hf.1, he.open_of_open hf.2⟩
      simp only [hopen, hclosed, if_false, false_and]
      omega

/-- **Every open row is accounted for.** -/
theorem RowsEvolve.activeCount_eq {db db' : Db} {f : Participant → Participant}
    {added : Option Participant} (h : RowsEvolve db db' f added) (m : MeetingId) :
    activeCount db' m + closedRows m f db.participants.rows =
      activeCount db m + added.toList.countP fun row => row.meetingId = m := by
  have hevolve := countP_map_evolves h.evolves m
  have hadded : (added.toList.countP fun p => p.meetingId = m ∧ p.leftAt = none) =
      added.toList.countP fun row => row.meetingId = m := by
    refine List.countP_congr ?_
    intro row hrow
    have hopen := (h.inserts row (Option.mem_toList.mp hrow)).opened
    simp [hopen]
  rw [activeCount_eq_countP, activeCount_eq_countP, h.rows, List.countP_append, hadded]
  omega

theorem Change.capped {db db' : Db} {op : Operation} (h : Change db op db')
    (hcap : ∀ m, activeCount db m ≤ maxMeshParticipants) (m : MeetingId) :
    activeCount db' m ≤ maxMeshParticipants := by
  obtain ⟨f, added, hf, hbelow⟩ := h.rows
  have hcount := hf.activeCount_eq m
  have hm := hcap m
  cases added with
  | none =>
    rw [Option.toList_none, List.countP_nil] at hcount
    omega
  | some row =>
    -- The row that is added found its meeting below the cap.
    have hlt := hbelow row rfl
    rw [Option.toList_some, List.countP_singleton] at hcount
    by_cases hrow : row.meetingId = m
    · rw [hrow] at hlt
      simp only [hrow, decide_true, if_true] at hcount
      omega
    · simp only [hrow, decide_false, Bool.false_eq_true, if_false] at hcount
      omega

theorem RowsEvolve.mem {db db' : Db} {f : Participant → Participant} {added : Option Participant}
    (h : RowsEvolve db db' f added) {p : Participant} :
    p ∈ db'.participants ↔ (∃ q ∈ db.participants, f q = p) ∨ added = some p := by
  rw [Keyed.mem_def, h.rows, List.mem_append, List.mem_map, Option.mem_toList]
  rfl

theorem RowsEvolve.sessions {db db' : Db} {f : Participant → Participant}
    {added : Option Participant} (h : RowsEvolve db db' f added)
    (hnodup : (db.participants.rows.map Participant.sessionId).Nodup) :
    (db'.participants.rows.map Participant.sessionId).Nodup := by
  have hsame : (db.participants.rows.map f).map Participant.sessionId =
      db.participants.rows.map Participant.sessionId := by
    rw [List.map_map]
    exact List.map_congr_left fun p hp => (h.evolves p hp).sessionId
  rw [h.rows, List.map_append, hsame, List.nodup_append]
  cases added with
  | none => exact ⟨hnodup, List.nodup_nil, fun s _ t ht => absurd ht List.not_mem_nil⟩
  | some row =>
    refine ⟨hnodup, List.nodup_singleton _, ?_⟩
    intro s hs t ht
    obtain ⟨q, hq, rfl⟩ := List.mem_map.mp hs
    rw [Option.toList_some, List.map_singleton, List.mem_singleton] at ht
    rw [ht]
    exact (h.inserts row rfl).newSession q hq

theorem Change.valid {db db' : Db} {op : Operation} (h : Change db op db') (hv : db.Valid) :
    db'.Valid := by
  obtain ⟨f, added, hf, -⟩ := h.rows
  refine ⟨?_, hf.sessions hv.sessions, h.capped hv.capped⟩
  intro p hp
  rcases hf.mem.mp hp with ⟨q, hq, rfl⟩ | hadded
  · rw [(hf.evolves q hq).meetingId]
    exact h.meeting_keys (hv.meeting q hq)
  · exact h.meeting_keys (hf.inserts p hadded).meeting

/-- **Every operation keeps the invariant.** -/
theorem valid_apply {db : Db} (hv : db.Valid) (op : Operation) : (db.apply op).Valid := by
  rcases apply_change db op with h | h
  · rw [h]
    exact hv
  · exact h.valid hv

end ZoomClone
