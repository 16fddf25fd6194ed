/-
Joins that overlap.

A `POST /join` reads and checks first and writes later; the code takes no lock
and no row version, so other transactions may commit in between.  A join is
therefore two events here, and everything else stays one transaction.

The state also keeps the books: how many rows of each meeting were inserted and
closed so far, and what these numbers were when a pending join made its check.
`always_capped_iff` reads the books: the cap holds exactly as long as every join
that commits has room for the rows that were inserted since its check.
-/
import ZoomClone.Rows
import ZoomClone.Runs

namespace ZoomClone

/-- A join between its two steps: what it read, how many open rows it counted,
and the books of the meeting at that moment. -/
structure PendingJoin where
  ticket : String
  user : User
  meeting : Meeting
  req : JoinRequest
  counted : ℕ
  inserted : ℕ
  closed : ℕ

structure Joins where
  db : Db := .empty
  pending : Keyed PendingJoin.ticket := .empty
  inserted : MeetingId → ℕ := fun _ => 0
  closed : MeetingId → ℕ := fun _ => 0

inductive JoinEvent where
  | check (ticket : String) (userId : UserId) (meetingNumber : String) (req : JoinRequest)
  | commit (ticket : String) (draws : JoinDraws) (now : DateTime)
  | other (op : Operation)

/-- Open rows of the meeting that are there after a transaction only. -/
def insertedBetween (db db' : Db) (m : MeetingId) : ℕ :=
  (db'.activeRows m).countP fun p => p.id ∉ db.participants.keys

/-- Open rows of the meeting that a transaction closes. -/
def closedBetween (db db' : Db) (m : MeetingId) : ℕ :=
  (db.activeRows m).countP fun p => !db'.isOpen p.id

/-- Commit a transaction and keep the books. -/
def Joins.write (s : Joins) (db : Db) : Joins :=
  { s with
    db
    inserted := fun m => s.inserted m + insertedBetween s.db db m
    closed := fun m => s.closed m + closedBetween s.db db m }

def Joins.step (s : Joins) : JoinEvent → Joins
  | .check ticket userId meetingNumber req =>
    match currentUser s.db userId with
    | .error _ => s
    | .ok user =>
      match checkJoin s.db meetingNumber user req with
      | .error _ => s
      | .ok meeting =>
        let j : PendingJoin :=
          { ticket, user, meeting, req, counted := activeCount s.db meeting.id
            inserted := s.inserted meeting.id, closed := s.closed meeting.id }
        { s with pending := s.pending.set j }
  | .commit ticket draws now =>
    match s.pending.find? ticket with
    | none => s
    | some j =>
      let s := { s with pending := s.pending.erase ticket }
      match commitJoin s.db j.meeting j.user j.req draws now with
      | .error _ => s
      | .ok (_, db) => s.write db
  | .other op => s.write (s.db.apply op)

/-- No meeting has more open rows than the cap. -/
def Capped (s : Joins) : Prop := ∀ m, activeCount s.db m ≤ maxMeshParticipants

/-- Rows of its meeting that were inserted since a pending join made its check. -/
def insertedSince (s : Joins) (j : PendingJoin) : ℕ := s.inserted j.meeting.id - j.inserted

/-- Rows of its meeting that were closed since. -/
def closedSince (s : Joins) (j : PendingJoin) : ℕ := s.closed j.meeting.id - j.closed

/-- A join that commits under a fresh id and session still has room: the rows it
counted and those inserted since are fewer than the cap, give or take the rows
closed since. -/
def RoomAtCommit (s : Joins) : JoinEvent → Prop
  | .commit ticket draws _ =>
    ∀ j, s.pending.find? ticket = some j → draws.id ∉ s.db.participants.keys →
      (∀ q ∈ s.db.participants, q.sessionId ≠ draws.sessionId) →
      j.counted + insertedSince s j < maxMeshParticipants + closedSince s j
  | _ => True

/-! ### The books balance -/

/-- The books: open rows are the inserted ones less the closed ones, now and at
every check that is pending. -/
structure Joins.Balanced (s : Joins) : Prop where
  meeting : ∀ j ∈ s.pending, j.meeting.id ∈ s.db.meetings.keys
  balance : ∀ m, activeCount s.db m + s.closed m = s.inserted m
  pending : ∀ j ∈ s.pending, j.counted + j.closed = j.inserted
  inserted : ∀ j ∈ s.pending, j.inserted ≤ s.inserted j.meeting.id
  closed : ∀ j ∈ s.pending, j.closed ≤ s.closed j.meeting.id

/-- In balanced books, a pending join has room exactly when its meeting is below
the cap now. -/
theorem Joins.Balanced.room_iff {s : Joins} (hb : s.Balanced)
    {j : PendingJoin} (hj : j ∈ s.pending) :
    j.counted + insertedSince s j < maxMeshParticipants + closedSince s j ↔
      activeCount s.db j.meeting.id < maxMeshParticipants := by
  have h1 := hb.balance j.meeting.id
  have h2 := hb.pending j hj
  have h3 := hb.inserted j hj
  have h4 := hb.closed j hj
  rw [insertedSince, closedSince]
  omega

theorem RowsEvolve.isOpen_iff {db db' : Db} {f : Participant → Participant}
    {added : Option Participant} (h : RowsEvolve db db' f added) {p : Participant}
    (hp : p ∈ db.participants) : db'.isOpen p.id ↔ (f p).leftAt = none := by
  have hmem : f p ∈ db'.participants := h.mem.mpr (.inl ⟨p, hp, rfl⟩)
  rw [Db.isOpen_iff]
  constructor
  · rintro ⟨q, hq, hid, hopen⟩
    rwa [Keyed.eq_of_key_eq hmem hq ((h.evolves p hp).id.trans hid.symm)]
  · intro hopen
    exact ⟨f p, hmem, (h.evolves p hp).id, hopen⟩

theorem RowsEvolve.closedBetween_eq {db db' : Db} {f : Participant → Participant}
    {added : Option Participant} (h : RowsEvolve db db' f added) (m : MeetingId) :
    closedBetween db db' m = closedRows m f db.participants.rows := by
  rw [closedBetween, closedRows, Db.activeRows]
  rw [List.countP_filter]
  refine List.countP_congr ?_
  intro p hp
  have hopen := h.isOpen_iff hp
  by_cases hf : (f p).leftAt = none <;> simp_all

theorem RowsEvolve.insertedBetween_eq {db db' : Db} {f : Participant → Participant}
    {added : Option Participant} (h : RowsEvolve db db' f added) (m : MeetingId) :
    insertedBetween db db' m = added.toList.countP fun row => row.meetingId = m := by
  rw [insertedBetween, Db.activeRows]
  rw [List.countP_filter, h.rows, List.countP_append]
  have hold : (db.participants.rows.map f).countP (fun p => decide (p.id ∉ db.participants.keys) &&
      decide (p.meetingId = m ∧ p.leftAt = none)) = 0 := by
    rw [List.countP_eq_zero]
    intro p hp
    obtain ⟨q, hq, rfl⟩ := List.mem_map.mp hp
    have hkey : (f q).id ∈ db.participants.keys := by
      rw [(h.evolves q hq).id]
      exact Keyed.key_mem_keys hq
    simp [hkey]
  rw [hold, Nat.zero_add]
  refine List.countP_congr ?_
  intro row hrow
  have hins := h.inserts row (Option.mem_toList.mp hrow)
  simp [hins.newId, hins.opened]

/-- A transaction on the rows keeps the books balanced. -/
theorem Joins.Balanced.write {s : Joins} (hb : s.Balanced) {db : Db}
    {f : Participant → Participant} {added : Option Participant} (h : RowsEvolve s.db db f added)
    (hkeys : ∀ id ∈ s.db.meetings.keys, id ∈ db.meetings.keys) : (s.write db).Balanced where
  meeting := fun j hj => hkeys _ (hb.meeting j hj)
  balance := by
    intro m
    have hcount := h.activeCount_eq m
    have hbalance := hb.balance m
    show activeCount db m + (s.closed m + closedBetween s.db db m) =
      s.inserted m + insertedBetween s.db db m
    rw [h.closedBetween_eq, h.insertedBetween_eq]
    omega
  pending := hb.pending
  inserted := fun j hj => (hb.inserted j hj).trans (Nat.le_add_right _ _)
  closed := fun j hj => (hb.closed j hj).trans (Nat.le_add_right _ _)

theorem apply_rows (db : Db) (op : Operation) :
    (∃ f added, RowsEvolve db (db.apply op) f added) ∧
      ∀ id ∈ db.meetings.keys, id ∈ (db.apply op).meetings.keys := by
  rcases apply_change db op with h | h
  · rw [h]
    exact ⟨⟨id, none, .of_eq rfl⟩, fun _ hid => hid⟩
  · obtain ⟨f, added, hf, -⟩ := h.rows
    exact ⟨⟨f, added, hf⟩, fun _ hid => h.meeting_keys hid⟩

theorem commitJoin_meeting_keys {db db' : Db} {meeting : Meeting} {user : User} {req : JoinRequest}
    {draws : JoinDraws} {now : DateTime} {r : JoinResponse}
    (h : commitJoin db meeting user req draws now = .ok (r, db')) :
    ∀ id ∈ db.meetings.keys, id ∈ db'.meetings.keys := by
  obtain ⟨-, -, hmeetings, -⟩ := commitJoin_ok h
  intro id hid
  rw [hmeetings, Db.welcomeHost]
  split
  · rwa [Db.keys_updateMeetingRow]
  · exact hid

/-! ### One event -/

/-- Forgetting a pending join keeps the books balanced. -/
theorem Joins.Balanced.erase {s : Joins} (hb : s.Balanced) (ticket : String) :
    Joins.Balanced { s with pending := s.pending.erase ticket } where
  meeting := fun j hj => hb.meeting j (Keyed.mem_erase.mp hj).1
  balance := hb.balance
  pending := fun j hj => hb.pending j (Keyed.mem_erase.mp hj).1
  inserted := fun j hj => hb.inserted j (Keyed.mem_erase.mp hj).1
  closed := fun j hj => hb.closed j (Keyed.mem_erase.mp hj).1

theorem Joins.Balanced.step {s : Joins} (hb : s.Balanced) (e : JoinEvent) :
    (s.step e).Balanced := by
  cases e with
  | check ticket userId meetingNumber req =>
    rw [Joins.step]
    dsimp only
    split
    · exact hb
    · next user huser =>
      split
      · exact hb
      · next meeting hcheck =>
        have hm := mem_of_meetingByNumber (checkJoin_eq_ok.mp hcheck).1
        have hnew := hb.balance meeting.id
        refine ⟨?_, hb.balance, ?_, ?_, ?_⟩ <;> intro j hj <;>
          rcases Keyed.mem_set.mp hj with rfl | ⟨hj, -⟩
        · exact Keyed.key_mem_keys hm
        · exact hb.meeting j hj
        · exact hnew
        · exact hb.pending j hj
        · exact le_refl _
        · exact hb.inserted j hj
        · exact le_refl _
        · exact hb.closed j hj
  | commit ticket draws now =>
    rw [Joins.step]
    dsimp only
    split
    · exact hb
    · next j hj =>
      split
      · exact hb.erase ticket
      · next r db hcommit =>
        have hm := hb.meeting j (Keyed.mem_of_find? hj)
        exact (hb.erase ticket).write (rowsEvolve_commitJoin hm hcommit)
          (commitJoin_meeting_keys hcommit)
  | other op =>
    obtain ⟨⟨f, added, hf⟩, hkeys⟩ := apply_rows s.db op
    exact hb.write hf hkeys

/-- A join that commits keeps the cap exactly when its meeting is below it. -/
theorem capped_commitJoin_iff {db db' : Db} (hcap : ∀ m, activeCount db m ≤ maxMeshParticipants)
    {meeting : Meeting} {user : User} {req : JoinRequest} {draws : JoinDraws} {now : DateTime}
    {r : JoinResponse} (hm : meeting.id ∈ db.meetings.keys)
    (h : commitJoin db meeting user req draws now = .ok (r, db')) :
    (∀ m, activeCount db' m ≤ maxMeshParticipants) ↔
      activeCount db meeting.id < maxMeshParticipants := by
  have hrows := rowsEvolve_commitJoin hm h
  have hclosed : ∀ m, closedRows m id db.participants.rows = 0 := by
    intro m
    rw [closedRows]
    rw [List.countP_eq_zero]
    intro p hp
    simp only [id, decide_eq_true_eq]
    exact fun hq => hq.2 hq.1.2
  have hcount : ∀ m, activeCount db' m =
      activeCount db m + if meeting.id = m then 1 else 0 := by
    intro m
    have hbalance := hrows.activeCount_eq m
    rw [hclosed, Option.toList_some, List.countP_singleton] at hbalance
    rw [show (joinRow db meeting user req draws now).meetingId = meeting.id from rfl] at hbalance
    by_cases hmeeting : meeting.id = m
    · rw [if_pos hmeeting]
      rwa [if_pos (decide_eq_true hmeeting)] at hbalance
    · rw [if_neg hmeeting]
      rwa [if_neg (by simpa using hmeeting)] at hbalance
  constructor
  · intro hcap'
    have hnow := hcap' meeting.id
    rw [hcount, if_pos rfl] at hnow
    omega
  · intro hlt m
    have hbefore := hcap m
    rw [hcount]
    by_cases hmeeting : meeting.id = m
    · rw [if_pos hmeeting]
      rw [hmeeting] at hlt
      omega
    · rw [if_neg hmeeting]
      omega

/-- **One event.**  The cap survives it exactly when it is no join that lost its
room between its two steps. -/
theorem capped_step_iff {s : Joins} (hb : s.Balanced) (hcap : Capped s) (e : JoinEvent) :
    Capped (s.step e) ↔ RoomAtCommit s e := by
  cases e with
  | check ticket userId meetingNumber req =>
    refine iff_of_true ?_ trivial
    rw [Joins.step]
    dsimp only
    split
    · exact hcap
    · split <;> exact hcap
  | commit ticket draws now =>
    rw [Joins.step, RoomAtCommit]
    dsimp only
    split
    · next hnone => simp [hnone, hcap]
    · next j hj =>
      have hmem := Keyed.mem_of_find? hj
      simp only [hj, Option.some.injEq, forall_eq']
      split
      · next e herror =>
        refine iff_of_true hcap ?_
        intro hid hsession
        obtain ⟨r, db', hok⟩ := commitJoin_of_fresh hid hsession j.meeting j.user j.req now
        rw [hok] at herror
        cases herror
      · next r db hcommit =>
        obtain ⟨hid, -, -, hsession⟩ := commitJoin_ok hcommit
        have hiff := capped_commitJoin_iff hcap (hb.meeting j hmem) hcommit
        rw [← hb.room_iff hmem] at hiff
        refine hiff.trans ?_
        constructor
        · intro h _ _
          exact h
        · intro h
          exact h hid hsession
  | other op =>
    refine iff_of_true ?_ trivial
    rcases apply_change s.db op with h | h
    · intro m
      show activeCount (s.db.apply op) m ≤ maxMeshParticipants
      rw [h]
      exact hcap m
    · exact h.capped hcap

/-! ### Runs -/

theorem Joins.balanced_init : Joins.Balanced {} where
  meeting := fun j hj => absurd hj (Keyed.not_mem_empty j)
  balance := fun _ => rfl
  pending := fun j hj => absurd hj (Keyed.not_mem_empty j)
  inserted := fun j hj => absurd hj (Keyed.not_mem_empty j)
  closed := fun j hj => absurd hj (Keyed.not_mem_empty j)

/-- **Overlapping joins.**  In a run of joins in two steps and of any other
transactions, no meeting ever has more open rows than the cap if and only if
every join that commits still has room when it does. -/
theorem always_capped_iff (events : List JoinEvent) :
    Runs.Always Joins.step Capped {} events ↔ Runs.Guarded Joins.step RoomAtCommit {} events :=
  Runs.always_iff_guarded Joins.balanced_init (fun _ => Nat.zero_le _)
    (fun _ e hb => hb.step e) (fun _ e hb hcap => capped_step_iff hb hcap e) events

/-- A host opens a meeting that a guest can join. -/
def joinableMeeting : List JoinEvent :=
  [.other (.request (.signInGoogle { sub := "g-host", email := some "ada@example.com" }
      ⟨"host", "", fun _ => (0, 1)⟩)),
   .other (.request (.signInGuest "Bob" ⟨"guest", "b0b", fun _ => (0, 2)⟩)),
   .other (.request (.createMeeting "host" {}
      { passcode := "hRtz4K", inviteToken := "tok", ids := fun _ => "m"
        numbers := fun _ => (0, 3), inviteeIds := fun _ => "" } 10))]

def checkStep (k : String) : JoinEvent :=
  .check k "guest" "10000000003" { inviteToken := some "tok" }

def commitStep (k : String) : JoinEvent := .commit k { id := k, sessionId := "s" ++ k } 20

/-- Five rows are open; two joins both find the last place free. -/
theorem overlapping_joins_break_cap :
    ¬ ∀ events : List JoinEvent, Runs.Always Joins.step Capped {} events := by
  intro h
  have hlast := (h (joinableMeeting ++
    ["1", "2", "3", "4", "5"].flatMap (fun k => [checkStep k, commitStep k]) ++
    [checkStep "6", checkStep "7", commitStep "6", commitStep "7"])).last "m"
  revert hlast
  decide +kernel

end ZoomClone
