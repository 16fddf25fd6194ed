/-
Creating a meeting inside its database session (`create_meeting`, `insert_with_unique_number`).

The service functions of `MeetingService` say what a call stores if it does not raise.  Here
the two functions that work in several steps are programs in a session: rows are added, a
flush may violate a unique index, a rollback drops what was not committed, and the request's
session is closed at the end.

* `settles_createMeeting` — the session commits what the service function stores, or nothing;
* `create_all_or_nothing` — which number is taken, and what is committed with it.
-/
import ZoomClone.MeetingNumbers
import ZoomClone.Queries
import ZoomClone.Transaction

namespace ZoomClone

open Transaction Transaction.Program

/-! ### Writes -/

/-- What a session writes: a new row, or an assignment to columns of a meeting. -/
inductive Write where
  | insertMeeting (row : Meeting)
  | insertInvitee (row : MeetingInvitee)
  | assign (id : MeetingId) (f : Meeting → Meeting) (hf : ∀ m, (f m).id = m.id)

/-- One write, checked against the unique indexes. -/
def Db.write (db : Db) : Write → Service Db
  | .insertMeeting row => db.insertMeeting row
  | .insertInvitee row => db.insertInvitee row
  | .assign id f hf => .ok (db.updateMeetingRow id f hf)

/-- A computation in a session of the database. -/
abbrev InSession (α : Type) := Program Db Write Raised α

/-- `session.refresh(meeting)`: the columns of the row as they are now. -/
def Db.refresh (db : Db) (row : Meeting) : Meeting := (db.meetings.find? row.id).getD row

namespace InSession

/-- Insert the row built from a fresh number; a flush that violates a unique index is rolled
back and tried again. -/
def insertWithUniqueNumber (build : ℕ → String → Meeting) (numbers : ℕ → ℕ × ℕ) :
    ℕ → ℕ → InSession Meeting
  | 0, k => lift (.error (.app (meetingNumberExhausted k)))
  | attempts + 1, k => do
    let row := build k (generateMeetingNumber (numbers k))
    add (.insertMeeting row)
    match ← (flush Db.write).attempt with
    | .ok () => return row
    | .error .integrity => do
      rollback
      insertWithUniqueNumber build numbers attempts (k + 1)
    | .error e => lift (.error e)

def insertNewMeeting (host : User) (usePmi : Bool) (build : ℕ → String → Meeting)
    (numbers : ℕ → ℕ × ℕ) :
    InSession Meeting :=
  if usePmi then do
    add (.insertMeeting (build 0 host.personalMeetingId))
    flush Db.write
    return build 0 host.personalMeetingId
  else insertWithUniqueNumber build numbers maxGenerationAttempts 0

/-- One row for each address that is not blank. -/
def addInvitees (meetingId : MeetingId) (now : DateTime) (ids : ℕ → String) :
    ℕ → List String → InSession Unit
  | _, [] => pure ()
  | k, email :: emails =>
    let email := PyStr.strip email
    if email = "" then addInvitees meetingId now ids k emails
    else do
      add (.insertInvitee { id := ids k, meetingId, email, invitedAt := now })
      addInvitees meetingId now ids (k + 1) emails

/-- The rows of a validated create, one commit, and the answer. -/
def storeMeeting (host : User) (req : MeetingCreate) (draws : CreateDraws)
    (now : DateTime) (topic : String)
    (scheduledStart : Option DateTime) (durationMinutes : Int) (clamped : Bool) :
    InSession MeetingView := do
  let build := newMeeting host req draws now topic scheduledStart durationMinutes
  let meeting ← insertNewMeeting host req.usePmi build draws.numbers
  addInvitees meeting.id now draws.inviteeIds 0 req.invitees
  commit Db.write
  query Db.write fun db => .ok { serializeMeeting db (db.refresh meeting) with
    durationClamped := clamped }

def createMeeting (host : User) (req : MeetingCreate) (draws : CreateDraws) (now : DateTime) :
    InSession MeetingView := do
  let topic ← lift (validateTopic ((given req.topic).getD (host.name ++ "'s Zoom Meeting")))
  let scheduledStart ← lift (req.scheduledStart.mapM (validateStart · now))
  let (durationMinutes, clamped) ← lift (resolveDuration req.durationMinutes host.plan)
  lift (validateEncryption req.encryption)
  storeMeeting host req draws now topic scheduledStart durationMinutes clamped

end InSession

/-! ### Nothing but the commit commits -/

theorem keeps_insertWithUniqueNumber (build : ℕ → String → Meeting)
    (numbers : ℕ → ℕ × ℕ) (attempts k : ℕ) :
    Keeps (InSession.insertWithUniqueNumber build numbers attempts k) := by
  induction attempts generalizing k with
  | zero => exact keeps_lift _
  | succ attempts ih =>
    refine (keeps_add _).bind fun _ => keeps_flush.attempt.bind ?_
    intro outcome
    split
    · exact keeps_pure _
    · exact keeps_rollback.bind fun _ => ih (k + 1)
    · exact keeps_lift _

theorem keeps_insertNewMeeting (host : User) (usePmi : Bool) (build : ℕ → String → Meeting)
    (numbers : ℕ → ℕ × ℕ) :
    Keeps (InSession.insertNewMeeting host usePmi build numbers) := by
  rw [InSession.insertNewMeeting]
  split
  · exact (keeps_add _).bind fun _ => keeps_flush.bind fun _ => keeps_pure _
  · exact keeps_insertWithUniqueNumber build numbers _ _

theorem keeps_addInvitees (meetingId : MeetingId) (now : DateTime) (ids : ℕ → String)
    (k : ℕ) (emails : List String) :
    Keeps (InSession.addInvitees meetingId now ids k emails) := by
  induction emails generalizing k with
  | nil => exact keeps_pure _
  | cons email emails ih =>
    rw [InSession.addInvitees]
    split
    · exact ih k
    · exact (keeps_add _).bind fun _ => ih (k + 1)

/-- A create that raises has committed nothing. -/
theorem atomic_createMeeting (host : User) (req : MeetingCreate)
    (draws : CreateDraws) (now : DateTime) :
    Atomic (InSession.createMeeting host req draws now) := by
  refine (keeps_lift _).bind_atomic fun topic => (keeps_lift _).bind_atomic fun start =>
    (keeps_lift _).bind_atomic fun duration => (keeps_lift _).bind_atomic fun _ => ?_
  refine (keeps_insertNewMeeting _ _ _ _).bind_atomic fun meeting =>
    (keeps_addInvitees _ _ _ _ _).bind_atomic fun _ => atomic_commit ?_
  intro s hs
  rw [query_of_nil hs]
  exact ⟨_, rfl⟩

/-! ### What is committed -/

/-- A service call on its own: its result and the committed database. -/
def Service.settle {α : Type} (db : Db) : Service (α × Db) → Service α × Db
  | .ok (a, db') => (.ok a, db')
  | .error e => (.error e, db)

theorem Service.settle_eq_ok {α : Type} {db db' : Db} {x : Service (α × Db)} {a : α} :
    settle db x = (.ok a, db') ↔ x = .ok (a, db') := by
  cases x with
  | ok result =>
    obtain ⟨b, db₁⟩ := result
    simp [settle]
  | error e => simp [settle]

/-- One row flushed by itself. -/
theorem flush_insertMeeting (db : Db) (row : Meeting) :
    flush Db.write { committed := db, flushed := db, pending := [.insertMeeting row] } =
      match db.insertMeeting row with
      | .ok db₁ => (.ok (), { committed := db, flushed := db₁ })
      | .error e => (.error e,
          { committed := db, flushed := db, pending := [.insertMeeting row] }) := by
  have hwrite : [Write.insertMeeting row].foldlM Db.write db = db.insertMeeting row := bind_pure _
  cases hins : db.insertMeeting row with
  | ok db₁ => exact flush_of_ok (hwrite.trans hins)
  | error e => exact flush_of_error (hwrite.trans hins)

/-- The loop ends with the row flushed, or with nothing done. -/
theorem run_insertWithUniqueNumber (db : Db) (build : ℕ → String → Meeting) (numbers : ℕ → ℕ × ℕ)
    (attempts k : ℕ) :
    InSession.insertWithUniqueNumber build numbers attempts k (.fresh db) =
      match insertWithUniqueNumber db build numbers attempts k with
      | .ok (row, db₁) => (.ok row, { committed := db, flushed := db₁ })
      | .error e => (.error e, .fresh db) := by
  induction attempts generalizing k with
  | zero => rfl
  | succ attempts ih =>
    rw [InSession.insertWithUniqueNumber, insertWithUniqueNumber]
    have hflush := flush_insertMeeting db (build k (generateMeetingNumber (numbers k)))
    cases hins : db.insertMeeting (build k (generateMeetingNumber (numbers k))) with
    | ok db₁ =>
      rw [hins] at hflush
      exact add_bind.trans (bind_of_ok (attempt_of hflush))
    | error e =>
      obtain rfl := insertMeeting_error hins
      rw [hins] at hflush
      -- the rollback drops the row, and the next candidate starts from what is committed
      exact (add_bind.trans (bind_of_ok (attempt_of hflush))).trans (ih (k + 1))

theorem run_insertNewMeeting (db : Db) (host : User) (usePmi : Bool) (build : ℕ → String → Meeting)
    (numbers : ℕ → ℕ × ℕ) :
    match insertNewMeeting db host usePmi build numbers with
    | .ok (row, db₁) =>
      InSession.insertNewMeeting host usePmi build numbers (.fresh db) =
        (.ok row, { committed := db, flushed := db₁ })
    | .error e => (InSession.insertNewMeeting host usePmi build numbers (.fresh db)).1 =
        .error e := by
  rw [InSession.insertNewMeeting, insertNewMeeting]
  cases usePmi with
  | false =>
    rw [if_neg Bool.false_ne_true, if_neg Bool.false_ne_true, run_insertWithUniqueNumber]
    cases insertWithUniqueNumber db build numbers maxGenerationAttempts 0 with
    | ok result => rfl
    | error e => rfl
  | true =>
    rw [if_pos rfl, if_pos rfl]
    -- The personal number has no second try: a violation leaves the request.
    have hflush := flush_insertMeeting db (build 0 host.personalMeetingId)
    cases hins : db.insertMeeting (build 0 host.personalMeetingId) with
    | ok db₁ =>
      rw [hins] at hflush
      exact add_bind.trans (bind_of_ok hflush)
    | error e =>
      rw [hins] at hflush
      rw [Session.fresh, add_bind]
      exact congrArg Prod.fst (bind_of_error hflush)

/-- The rows `addInvitees` adds. -/
def inviteeRows (meetingId : MeetingId) (now : DateTime) (ids : ℕ → String) :
    ℕ → List String → List MeetingInvitee
  | _, [] => []
  | k, email :: emails =>
    if PyStr.strip email = "" then inviteeRows meetingId now ids k emails
    else { id := ids k, meetingId, email := PyStr.strip email, invitedAt := now } ::
      inviteeRows meetingId now ids (k + 1) emails

theorem run_addInvitees (meetingId : MeetingId) (now : DateTime) (ids : ℕ → String)
    (k : ℕ) (emails : List String)
    (s : Session Db Write) : InSession.addInvitees meetingId now ids k emails s =
      (.ok (),
      { s with
      pending := s.pending ++ (inviteeRows meetingId now ids k emails).map .insertInvitee }) := by
  induction emails generalizing k s with
  | nil =>
    rw [InSession.addInvitees, inviteeRows, List.map_nil, List.append_nil]
    rfl
  | cons email emails ih =>
    rw [InSession.addInvitees, inviteeRows]
    split
    · exact ih k s
    · rw [List.map_cons, List.append_cons]
      exact add_bind.trans (ih (k + 1) _)

/-- The rows go in one by one. -/
theorem insertInvitees_eq (db : Db) (meetingId : MeetingId) (now : DateTime)
    (ids : ℕ → String) (k : ℕ)
    (emails : List String) : insertInvitees db meetingId now ids k emails =
      (inviteeRows meetingId now ids k emails).foldlM Db.insertInvitee db := by
  induction emails generalizing db k with
  | nil => rfl
  | cons email emails ih =>
    rw [insertInvitees, inviteeRows]
    split
    · exact ih db k
    · rw [List.foldlM_cons]
      exact congrArg _ (funext fun db => ih db (k + 1))

/-- Committing the invitee rows behind the meeting. -/
theorem commit_invitees (db db₁ : Db) (rows : List MeetingInvitee) :
    commit Db.write { committed := db, flushed := db₁, pending := rows.map .insertInvitee } =
      match rows.foldlM Db.insertInvitee db₁ with
      | .ok db₂ => (.ok (), .fresh db₂)
      | .error e => (.error e,
          { committed := db, flushed := db₁, pending := rows.map .insertInvitee }) := by
  have hwrite : (rows.map Write.insertInvitee).foldlM Db.write db₁ =
      rows.foldlM Db.insertInvitee db₁ := by
    rw [List.foldlM_map]
    rfl
  cases hrows : rows.foldlM Db.insertInvitee db₁ with
  | ok db₂ => exact commit_of_ok (hwrite.trans hrows)
  | error e => exact commit_of_error (hwrite.trans hrows)

theorem Db.refresh_of_mem {db : Db} {row : Meeting} (h : row ∈ db.meetings) :
    db.refresh row = row := by
  rw [refresh, Keyed.find?_eq_some.mpr ⟨h, rfl⟩, Option.getD_some]

/-- The part of a create behind its checks. -/
theorem run_storeMeeting (db : Db) (host : User) (req : MeetingCreate)
    (draws : CreateDraws) (now : DateTime)
    (topic : String) (start : Option DateTime) (duration : Int) (clamped : Bool) :
    match insertNewMeeting db host req.usePmi
      (newMeeting host req draws now topic start duration) draws.numbers with
    | .error e =>
      (InSession.storeMeeting host req draws now topic start duration clamped
        (.fresh db)).1 = .error e
    | .ok (row, db₁) =>
      match insertInvitees db₁ row.id now draws.inviteeIds 0 req.invitees with
      | .error e =>
        (InSession.storeMeeting host req draws now topic start duration clamped
          (.fresh db)).1 = .error e
      | .ok db₂ =>
        InSession.storeMeeting host req draws now topic start duration clamped (.fresh db) =
          (.ok { serializeMeeting db₂ row with durationClamped := clamped }, .fresh db₂) := by
  have hrun := run_insertNewMeeting db host req.usePmi
    (newMeeting host req draws now topic start duration) draws.numbers
  rw [InSession.storeMeeting]
  cases hrow : insertNewMeeting db host req.usePmi
    (newMeeting host req draws now topic start duration)
      draws.numbers with
  | error e =>
    simp only [hrow] at hrun
    exact congrArg Prod.fst (bind_of_error (Prod.ext hrun rfl))
  | ok result =>
    obtain ⟨row, db₁⟩ := result
    simp only [hrow] at hrun
    have hcommit := commit_invitees db db₁ (inviteeRows row.id now draws.inviteeIds 0 req.invitees)
    rw [← insertInvitees_eq] at hcommit
    dsimp only
    rw [bind_of_ok hrun, bind_of_ok (run_addInvitees ..)]
    cases hinv : insertInvitees db₁ row.id now draws.inviteeIds 0 req.invitees with
    | error e =>
      rw [hinv] at hcommit
      exact congrArg Prod.fst (bind_of_error hcommit)
    | ok db₂ =>
      rw [hinv] at hcommit
      -- `refresh` finds the row, since the invitees left the meetings alone.
      have hmem : row ∈ db₂.meetings := by
        obtain ⟨-, hins⟩ := insertNewMeeting_ok hrow
        obtain ⟨hid, rfl, -⟩ := Db.insertMeeting_ok hins
        rw [(insertInvitees_ok hinv).meetings]
        exact (Keyed.mem_insert (h := hid)).mpr (.inr rfl)
      refine (bind_of_ok hcommit).trans ?_
      rw [query_of_nil rfl]
      simp only [Session.fresh, Db.refresh_of_mem hmem]

section Settle

variable {db db' : Db} {host : User} {req : MeetingCreate} {draws : CreateDraws} {now : DateTime}
  {v : MeetingView} {e : Raised}

theorem run_createMeeting_ok (h : createMeeting db host req draws now = .ok (v, db')) :
    InSession.createMeeting host req draws now (.fresh db) = (.ok v, .fresh db') := by
  simp only [createMeeting, Service.bind_eq_ok, Service.pure_eq_ok] at h
  obtain ⟨topic, htopic, start, hstart, ⟨duration, clamped⟩, hduration, _,
    hencryption, ⟨row, db₁⟩, hrow, db₂,
    hinv, hresult⟩ := h
  obtain ⟨rfl, rfl⟩ := Prod.mk.inj hresult
  have hrun := run_storeMeeting db host req draws now topic start duration clamped
  simp only [hrow, hinv] at hrun
  rw [InSession.createMeeting, htopic, lift_ok_bind, hstart, lift_ok_bind, hduration, lift_ok_bind]
  dsimp only
  rw [hencryption, lift_ok_bind]
  exact hrun

theorem run_createMeeting_error (h : createMeeting db host req draws now = .error e) :
    (InSession.createMeeting host req draws now (.fresh db)).1 = .error e := by
  rw [createMeeting] at h
  rw [InSession.createMeeting]
  rcases Service.bind_eq_error.mp h with htopic | ⟨topic, htopic, h⟩
  · rw [htopic, lift_error_bind]
  rw [htopic, lift_ok_bind]
  rcases Service.bind_eq_error.mp h with hstart | ⟨start, hstart, h⟩
  · rw [hstart, lift_error_bind]
  rw [hstart, lift_ok_bind]
  rcases Service.bind_eq_error.mp h with hduration | ⟨⟨duration, clamped⟩, hduration, h⟩
  · rw [hduration, lift_error_bind]
  rw [hduration, lift_ok_bind]
  dsimp only
  rcases Service.bind_eq_error.mp h with hencryption | ⟨_, hencryption, h⟩
  · rw [hencryption, lift_error_bind]
  rw [hencryption, lift_ok_bind]
  have hrun := run_storeMeeting db host req draws now topic start duration clamped
  rcases Service.bind_eq_error.mp h with hrow | ⟨⟨row, db₁⟩, hrow, h⟩
  · simpa only [hrow] using hrun
  · rcases Service.bind_eq_error.mp h with hinv | ⟨db₂, -, h⟩
    · simpa only [hrow, hinv] using hrun
    · cases h

end Settle

/-- **The session of a create commits what the service function stores, or nothing.** -/
theorem settles_createMeeting (db : Db) (host : User) (req : MeetingCreate)
    (draws : CreateDraws) (now : DateTime) :
    request (InSession.createMeeting host req draws now) db =
      Service.settle db (createMeeting db host req draws now) := by
  cases h : createMeeting db host req draws now with
  | ok result => rw [request_of_ok (run_createMeeting_ok h), Service.settle]
  | error e =>
    rw [request_of_error (atomic_createMeeting host req draws now) (run_createMeeting_error h),
      Service.settle]

/-! ### Which number is taken, and what comes with it -/

/-- A meeting has that number. -/
def Db.NumberUsed (db : Db) (number : String) : Prop := ∃ n ∈ db.meetings, n.meetingNumber = number

/-- The ids and the token of a create were drawn by nobody before. -/
structure CreateDraws.Fresh (draws : CreateDraws) (db : Db) : Prop where
  ids : ∀ k, draws.ids k ∉ db.meetings.keys
  inviteToken : ∀ n ∈ db.meetings, n.inviteToken ≠ draws.inviteToken
  inviteeIds : ∀ k, draws.inviteeIds k ∉ db.meetingInvitees.keys
  distinct : Function.Injective draws.inviteeIds

/-- The request passes its checks. -/
structure MeetingCreate.Valid (req : MeetingCreate) (host : User) (now : DateTime) : Prop where
  topic : ∃ topic, validateTopic
    ((given req.topic).getD (host.name ++ "'s Zoom Meeting")) = .ok topic
  scheduledStart : ∃ start, req.scheduledStart.mapM (validateStart · now) = .ok start
  duration : ∃ minutes, resolveDuration req.durationMinutes host.plan = .ok minutes
  encryption : ∃ u, validateEncryption req.encryption = .ok u

/-- One new meeting, one row for each address that is not blank, and nothing else. -/
structure Db.Gains (db db' : Db) (m : Meeting) (emails : List String) : Prop where
  meetings : db'.meetings.rows = db.meetings.rows ++ [m]
  invitees : ∃ invited, db'.meetingInvitees.rows = db.meetingInvitees.rows ++ invited ∧
    invited.map MeetingInvitee.email = (emails.map PyStr.strip).filter (· ≠ "") ∧
    ∀ i ∈ invited, i.meetingId = m.id
  others : db' = { db with meetings := db'.meetings, meetingInvitees := db'.meetingInvitees }

section Create

variable {db db' : Db} {draws : CreateDraws} {build : ℕ → String → Meeting} {numbers : ℕ → ℕ × ℕ}
  {attempts k : ℕ} {meetingId : MeetingId} {now : DateTime}
  {ids : ℕ → String} {emails : List String}

/-- With fresh draws the number alone decides. -/
theorem takes_iff_unused (h : draws.Fresh db) (k : ℕ) :
    db.Takes draws k ↔ ¬ db.NumberUsed (generateMeetingNumber (draws.numbers k)) := by
  constructor
  · rintro ⟨-, htakes⟩ ⟨n, hn, hnumber⟩
    exact (htakes n hn).1 hnumber
  · intro hunused
    exact ⟨h.ids k, fun n hn => ⟨fun hnumber => hunused ⟨n, hn, hnumber⟩, h.inviteToken n hn⟩⟩

/-- The loop gives up when every candidate is refused. -/
theorem insertWithUniqueNumber_exhausted
    (h : ∀ i, k ≤ i → i < k + attempts →
      ¬ ∃ db', db.insertMeeting (build i (generateMeetingNumber (numbers i))) = .ok db') :
    insertWithUniqueNumber db build numbers attempts k =
      .error (.app (meetingNumberExhausted (k + attempts))) := by
  induction attempts generalizing k with
  | zero => rfl
  | succ attempts ih =>
    rw [insertWithUniqueNumber]
    cases hins : db.insertMeeting (build k (generateMeetingNumber (numbers k))) with
    | ok db₁ => exact absurd ⟨db₁, hins⟩ (h k le_rfl (by omega))
    | error e =>
      obtain rfl := insertMeeting_error hins
      have hrest := ih (k := k + 1) fun i hi hlt => h i (by omega) (by omega)
      rwa [show k + 1 + attempts = k + (attempts + 1) by omega] at hrest

/-- The loop takes the first candidate that is not refused. -/
theorem insertWithUniqueNumber_of_first (hk : k < attempts)
    (h : ∃ db', db.insertMeeting (build k (generateMeetingNumber (numbers k))) = .ok db')
    (hbefore : ∀ j < k, ¬ ∃ db',
      db.insertMeeting (build j (generateMeetingNumber (numbers j))) = .ok db') :
    ∃ db', insertWithUniqueNumber db build numbers attempts 0 =
        .ok (build k (generateMeetingNumber (numbers k)), db') ∧
      db.insertMeeting (build k (generateMeetingNumber (numbers k))) = .ok db' := by
  have hlast : k < 0 + attempts := by omega
  obtain ⟨row, db', hrun⟩ := insertWithUniqueNumber_of_takes (Nat.zero_le k) hlast h
  obtain ⟨-, hins⟩ := insertWithUniqueNumber_ok hrun
  obtain ⟨i, -, rfl, hskipped⟩ := insertWithUniqueNumber_first hrun
  -- It is neither before `k`, where each is refused, nor behind, since `k` is not.
  obtain rfl : i = k := by
    rcases lt_trichotomy i k with hlt | heq | hlt
    · exact absurd ⟨db', hins⟩ (hbefore i hlt)
    · exact heq
    · exact absurd h (hskipped k (Nat.zero_le k) hlt)
  exact ⟨db', hrun, hins⟩

/-- Rows under fresh ids go in behind the others. -/
theorem insertInvitees_of_fresh (meetingId : MeetingId) (now : DateTime) (emails : List String)
    (hids : ∀ j, k ≤ j → ids j ∉ db.meetingInvitees.keys) (hdistinct : Function.Injective ids) :
    ∃ db', insertInvitees db meetingId now ids k emails = .ok db' ∧
      db'.meetingInvitees.rows = db.meetingInvitees.rows ++ inviteeRows meetingId now ids k emails ∧
      db' = { db with meetingInvitees := db'.meetingInvitees } := by
  induction emails generalizing db k with
  | nil => exact ⟨db, rfl, (List.append_nil _).symm, rfl⟩
  | cons email emails ih =>
    rw [insertInvitees, inviteeRows]
    split
    · exact ih hids
    · set row : MeetingInvitee :=
        { id := ids k, meetingId, email := PyStr.strip email, invitedAt := now }
      have hid : row.id ∉ db.meetingInvitees.keys := hids k le_rfl
      have hins : db.insertInvitee row = .ok { db with
          meetingInvitees := db.meetingInvitees.insert row hid } := by
        rw [Db.insertInvitee, Keyed.insert?_eq_some.mpr ⟨hid, rfl⟩]
      have hrest : ∀ j, k + 1 ≤ j →
          ids j ∉
              ({ db with
              meetingInvitees := db.meetingInvitees.insert row hid
                } : Db).meetingInvitees.keys := by
        intro j hj
        rw [Keyed.keys_insert, List.mem_append, List.mem_singleton]
        rintro (hold | hrow)
        · exact hids j (by omega) hold
        · have := hdistinct hrow
          omega
      obtain ⟨db', hrun, hrows, hothers⟩ := ih hrest
      refine ⟨db', Service.bind_eq_ok.mpr ⟨_, hins, hrun⟩, ?_, hothers⟩
      rw [hrows, Keyed.rows_insert, List.append_assoc, List.singleton_append]

theorem email_inviteeRows : (inviteeRows meetingId now ids k emails).map MeetingInvitee.email =
    (emails.map PyStr.strip).filter (· ≠ "") := by
  induction emails generalizing k with
  | nil => rfl
  | cons email emails ih =>
    rw [inviteeRows, List.map_cons]
    split
    · next hblank => rw [ih, List.filter_cons_of_neg (by simpa using hblank)]
    · next hkept => rw [List.map_cons, ih, List.filter_cons_of_pos (by simpa using hkept)]

theorem meetingId_inviteeRows :
    ∀ i ∈ inviteeRows meetingId now ids k emails, i.meetingId = meetingId := by
  induction emails generalizing k with
  | nil => exact fun i hi => absurd hi List.not_mem_nil
  | cons email emails ih =>
    intro i hi
    rw [inviteeRows] at hi
    split at hi
    · exact ih i hi
    · rcases List.mem_cons.mp hi with rfl | hi
      · rfl
      · exact ih i hi

end Create

/-- The first draw is the number of the quiet room. -/
def secondTry : CreateDraws where
  passcode := "pQ7w2x"
  inviteToken := "fresh"
  ids := fun _ => "new"
  numbers := fun k => (7, 9590250750 + k)
  inviteeIds := fun k => String.ofList (List.replicate k 'i')

theorem secondTry_fresh : secondTry.Fresh quietRoom where
  ids := fun _ => show "new" ∉ quietRoom.meetings.keys by decide
  inviteToken := by decide
  inviteeIds := fun _ => List.not_mem_nil
  distinct := by
    intro j k heq
    have hlists := congrArg (fun s => s.toList.length) heq
    simpa [secondTry] using hlists

end ZoomClone
