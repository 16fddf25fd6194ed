/-
The preferences row with all its columns (`user_preferences.py`, `user_service.py`, the
preferences routes of `users.py`).

A `PUT` changes the columns its body gives and keeps the others; a `GET` shows the row, or
the defaults while there is none.  The join reads two of the columns, and the operations
on the database know only these: `PreferencesDb` holds both tables, with the proof that
they agree.

* `PreferencesDb.next` — a request on both tables; the two-column table refines;
* `preferences_run` — what a `GET` shows after any run is, column by column, the last
  value that a `PUT` gave, and a join starts with it.
-/
import ZoomClone.Operations
import ZoomClone.Runs

namespace ZoomClone

/-! ### The table -/

/-- `THEMES`, sorted as the message of a refusal lists them. -/
def themes : List String := ["agave", "bloom", "classic", "rose"]

/-- `GALLERY_SIZES`. -/
def gallerySizes : List Int := [9, 25]

/-- A row of `user_preferences`. -/
structure PreferencesRow where
  userId : UserId
  theme : String := "classic"
  muteOnJoin : Bool := false
  videoOffOnJoin : Bool := false
  gallerySize : Int := 9
  mirrorVideo : Bool := true
  alwaysShowControls : Bool := false
  audioInputId : Option String := none
  audioOutputId : Option String := none
  videoInputId : Option String := none
  updatedAt : DateTime
  deriving DecidableEq

/-- The columns hold values that the API accepts. -/
def PreferencesRow.Valid (row : PreferencesRow) : Prop :=
  row.theme ∈ themes ∧ row.gallerySize ∈ gallerySizes

/-- The columns that `join_meeting` reads. -/
def PreferencesRow.joinColumns (row : PreferencesRow) : UserPreferences :=
  ⟨row.userId, row.muteOnJoin, row.videoOffOnJoin⟩

abbrev PreferencesTable := Keyed PreferencesRow.userId

/-- The body of a `PUT`: a field is left out, `null`, or has a value. -/
structure PreferencesUpdate where
  theme : Option (Option String) := none
  muteOnJoin : Option (Option Bool) := none
  videoOffOnJoin : Option (Option Bool) := none
  gallerySize : Option (Option Int) := none
  mirrorVideo : Option (Option Bool) := none
  alwaysShowControls : Option (Option Bool) := none
  audioInputId : Option (Option String) := none
  audioOutputId : Option (Option String) := none
  videoInputId : Option (Option String) := none
  deriving DecidableEq

namespace PreferencesUpdate

/-- The schema takes the literals of `theme` and `gallery_size` only. -/
def wellFormed (changes : PreferencesUpdate) : Bool :=
  changes.theme.join.all (· ∈ themes) && changes.gallerySize.join.all (· ∈ gallerySizes)

/-- The assignments of `upsert_preferences`: `null` changes nothing, except that it clears
a device. -/
def assign (changes : PreferencesUpdate) (row : PreferencesRow) : PreferencesRow :=
  { row with
    theme := changes.theme.join.getD row.theme
    muteOnJoin := changes.muteOnJoin.join.getD row.muteOnJoin
    videoOffOnJoin := changes.videoOffOnJoin.join.getD row.videoOffOnJoin
    gallerySize := changes.gallerySize.join.getD row.gallerySize
    mirrorVideo := changes.mirrorVideo.join.getD row.mirrorVideo
    alwaysShowControls := changes.alwaysShowControls.join.getD row.alwaysShowControls
    audioInputId := changes.audioInputId.getD row.audioInputId
    audioOutputId := changes.audioOutputId.getD row.audioOutputId
    videoInputId := changes.videoInputId.getD row.videoInputId }

end PreferencesUpdate

namespace PreferencesTable

/-- The row of a user, or the unpersisted defaults. -/
def rowOf (t : PreferencesTable) (userId : UserId) (now : DateTime) : PreferencesRow :=
  (t.find? userId).getD { userId, updatedAt := now }

/-- `get_preferences`. -/
def getPreferences (t : PreferencesTable) (userId : UserId) (now : DateTime) : PreferencesRow :=
  t.rowOf userId now

/-- `upsert_preferences`: the row it returns, and the table. -/
def upsertPreferences (t : PreferencesTable) (userId : UserId) (changes : PreferencesUpdate)
    (now : DateTime) :
    Service (PreferencesRow × PreferencesTable) := do
  .require (changes.theme.join.all (· ∈ themes))
    (.validation ("`theme` must be one of: " ++ ", ".intercalate themes ++
      ".") [("field", .str "theme")])
  .require (changes.gallerySize.join.all (· ∈ gallerySizes))
    (.validation "`gallery_size` must be 9 or 25." [("field", .str "gallery_size")])
  let prefs := { changes.assign (t.rowOf userId now) with updatedAt := now }
  return (prefs, t.set prefs)

/-- The table as the operations on the database know it. -/
def joinColumns (t : PreferencesTable) : Keyed UserPreferences.userId where
  rows := t.rows.map PreferencesRow.joinColumns
  nodup := by
    rw [List.map_map]
    exact t.nodup

variable {t : PreferencesTable} {row : PreferencesRow} {userId : UserId}
  {changes : PreferencesUpdate}
  {now : DateTime}

theorem find?_joinColumns :
    t.joinColumns.find? userId = (t.find? userId).map PreferencesRow.joinColumns := by
  simp only [Keyed.find?, joinColumns, List.find?_map]
  rfl

theorem keys_joinColumns : t.joinColumns.keys = t.keys := by
  simp only [Keyed.keys, joinColumns, List.map_map]
  rfl

theorem joinColumns_set : joinColumns (t.set row) = t.joinColumns.set row.joinColumns := by
  apply Keyed.ext
  by_cases h : row.userId ∈ t.keys
  · have h' : row.joinColumns.userId ∈ t.joinColumns.keys := by rwa [keys_joinColumns]
    rw [Keyed.rows_set_of_mem h']
    simp only [joinColumns, Keyed.rows_set_of_mem h, List.map_map]
    refine List.map_congr_left fun r _ => ?_
    show (if r.userId = row.userId then row else r).joinColumns =
      if r.userId = row.userId then row.joinColumns else r.joinColumns
    split <;> rfl
  · have h' : row.joinColumns.userId ∉ t.joinColumns.keys := by rwa [keys_joinColumns]
    rw [Keyed.set_of_not_mem h', Keyed.rows_insert]
    simp only [joinColumns, Keyed.set_of_not_mem h, Keyed.rows_insert, List.map_append,
      List.map_cons, List.map_nil]

/-- A body that the schema takes is accepted, and its assignments are stored. -/
theorem upsertPreferences_of_wellFormed (h : changes.wellFormed = true) :
    t.upsertPreferences userId changes now =
    .ok ({ changes.assign (t.rowOf userId now) with updatedAt := now },
      t.set { changes.assign (t.rowOf userId now) with updatedAt := now }) := by
  obtain ⟨htheme, hsize⟩ := Bool.and_eq_true_iff.mp h
  simp [upsertPreferences, Service.require, htheme, hsize]
  rfl

@[simp] theorem assign_userId : (changes.assign row).userId = row.userId := rfl

theorem rowOf_userId : (t.rowOf userId now).userId = userId := by
  rw [rowOf]
  cases h : t.find? userId with
  | none => rfl
  | some row => exact Keyed.key_of_find? h

theorem valid_assign (hrow : row.Valid) (h : changes.wellFormed = true) :
    (changes.assign row).Valid := by
  obtain ⟨htheme, hsize⟩ := Bool.and_eq_true_iff.mp h
  refine ⟨?_, ?_⟩
  · simp only [PreferencesUpdate.assign]
    cases hgiven : changes.theme.join with
    | none => exact hrow.1
    | some theme => simpa [hgiven] using htheme
  · simp only [PreferencesUpdate.assign]
    cases hgiven : changes.gallerySize.join with
    | none => exact hrow.2
    | some size => simpa [hgiven] using hsize

/-- The defaults pass their own check. -/
theorem valid_rowOf (ht : ∀ row ∈ t, row.Valid) : (t.rowOf userId now).Valid := by
  rw [rowOf]
  cases h : t.find? userId with
  | none => exact ⟨by simp [themes], by simp [gallerySizes]⟩
  | some row => exact ht row (Keyed.mem_of_find? h)

end PreferencesTable

/-! ### Both tables -/

/-- The operations other than a `PUT` leave the preferences alone. -/
def Operation.KeepsPreferences : Operation → Bool
  | .request (.savePreferences _ _ _) => false
  | _ => true

section Frame

variable {db db' : Db}

/-- The two databases have the same preferences and the same invitees. -/
structure Db.SameAside (db db' : Db) : Prop where
  userPreferences : db'.userPreferences = db.userPreferences
  meetingInvitees : db'.meetingInvitees = db.meetingInvitees

theorem insertUser_aside {u : User} (h : db.insertUser u = .ok db') : db.SameAside db' := by
  rw [Db.insertUser] at h
  split at h
  · cases h
  · split at h
    · cases h
    · obtain rfl := Except.ok.inj h
      exact ⟨rfl, rfl⟩

theorem updateUser_aside {id : UserId} {f : User → User} {hf : ∀ u, (f u).id = u.id}
    (h : db.updateUser id f hf = .ok db') : db.SameAside db' := by
  unfold Db.updateUser at h
  dsimp only at h
  split at h
  · cases h
  · obtain rfl := Except.ok.inj h
    exact ⟨rfl, rfl⟩

theorem createGuest_aside {displayName : String} {draws : SignInDraws} {u : User}
    (h : createGuest db displayName draws = .ok (u, db')) : db.SameAside db' := by
  simp only [createGuest, Service.bind_eq_ok, Service.pure_eq_ok] at h
  obtain ⟨name, -, pmi, -, db₁, hins, h⟩ := h
  obtain ⟨-, rfl⟩ := Prod.mk.inj h
  exact insertUser_aside hins

theorem upsertGoogleUser_aside {claims : GoogleClaims} {draws : SignInDraws} {u : User}
    (h : upsertGoogleUser db claims draws = .ok (u, db')) : db.SameAside db' := by
  obtain ⟨email, -, h⟩ := Service.bind_eq_ok.mp h
  dsimp only at h
  split at h
  · simp only [Service.bind_eq_ok, Service.pure_eq_ok] at h
    obtain ⟨pmi, -, db₁, hins, h⟩ := h
    obtain ⟨-, rfl⟩ := Prod.mk.inj h
    exact insertUser_aside hins
  · simp only [Service.bind_eq_ok, Service.pure_eq_ok] at h
    obtain ⟨db₁, hupd, h⟩ := h
    obtain ⟨-, rfl⟩ := Prod.mk.inj h
    exact updateUser_aside hupd

theorem updateProfile_aside {user u : User} {name : Option String}
    {avatarUrl : Option (Option String)}
    (h : updateProfile db user name avatarUrl = .ok (u, db')) : db.SameAside db' := by
  simp only [updateProfile, Service.bind_eq_ok, Service.pure_eq_ok] at h
  obtain ⟨name, -, db₁, hupd, h⟩ := h
  obtain ⟨-, rfl⟩ := Prod.mk.inj h
  exact updateUser_aside hupd

theorem commitJoin_aside {m : Meeting} {user : User} {req : JoinRequest} {draws : JoinDraws}
    {now : DateTime} {r : JoinResponse} (h : commitJoin db m user req draws now = .ok (r, db')) :
    db.SameAside db' := by
  obtain ⟨db₁, hins, h⟩ := Service.bind_eq_ok.mp h
  obtain ⟨-, rfl⟩ := Prod.mk.inj (Service.pure_eq_ok.mp h)
  obtain ⟨hid, rfl, -⟩ := Db.insertParticipant_ok hins
  have hwelcome : db.SameAside (db.welcomeHost m user now) := by
    unfold Db.welcomeHost
    split <;> exact ⟨rfl, rfl⟩
  exact ⟨hwelcome.userPreferences, hwelcome.meetingInvitees⟩

theorem postMessage_aside {meetingId : MeetingId} {participantId : ParticipantId} {body id : String}
    {now : DateTime} {v : MessageView}
    (h : postMessage db meetingId participantId body id now = .ok (v, db')) :
    db.SameAside db' := by
  obtain ⟨-, p, -, -, hins, -⟩ := postMessage_eq_ok.mp h
  obtain ⟨hid, rfl⟩ := Db.insertMessage_eq_ok.mp hins
  exact ⟨rfl, rfl⟩

/-- The invitees of a new meeting are added, and the preferences stay. -/
theorem insertInvitees_aside {meetingId : MeetingId} {now : DateTime} {ids : ℕ → String} {k : ℕ}
    {emails : List String} (h : insertInvitees db meetingId now ids k emails = .ok db') :
    db'.userPreferences = db.userPreferences ∧
      ∀ i ∈ db'.meetingInvitees, i ∈ db.meetingInvitees ∨ i.meetingId = meetingId := by
  induction emails generalizing db k with
  | nil =>
    obtain rfl := Except.ok.inj h
    exact ⟨rfl, fun i hi => .inl hi⟩
  | cons email emails ih =>
    simp only [insertInvitees] at h
    split at h
    · exact ih h
    · obtain ⟨db₁, hins, h⟩ := Service.bind_eq_ok.mp h
      obtain ⟨hpreferences, hinvitees⟩ := ih h
      rw [Db.insertInvitee] at hins
      split at hins
      · cases hins
      · rename_i hinsert
        obtain ⟨hid, rfl⟩ := Keyed.insert?_eq_some.mp hinsert
        obtain rfl := Except.ok.inj hins
        refine ⟨hpreferences, ?_⟩
        intro i hi
        rcases hinvitees i hi with hi | hmeeting
        · rcases (Keyed.mem_insert (h := hid)).mp hi with hi | rfl
          · exact .inl hi
          · exact .inr rfl
        · exact .inr hmeeting

theorem createMeeting_aside {host : User} {req : MeetingCreate}
    {draws : CreateDraws} {now : DateTime}
    {v : MeetingView} (h : createMeeting db host req draws now = .ok (v, db')) :
    db'.userPreferences = db.userPreferences ∧
      ∀ i ∈ db'.meetingInvitees, i ∈ db.meetingInvitees ∨ i.meetingId ∈ db'.meetings.keys := by
  simp only [createMeeting, Service.bind_eq_ok, Service.pure_eq_ok] at h
  obtain ⟨topic, -, start, -, ⟨duration, clamped⟩, -, -, -, ⟨meeting, db₁⟩,
    hmeeting, db₂, hinvitees, h⟩ := h
  obtain ⟨-, rfl⟩ := Prod.mk.inj h
  obtain ⟨hid, rfl, -⟩ := Db.insertMeeting_ok (insertNewMeeting_ok hmeeting).2
  obtain ⟨hpreferences, hnew⟩ := insertInvitees_aside hinvitees
  refine ⟨hpreferences, fun i hi => ?_⟩
  rcases hnew i hi with hi | hmeetingId
  · exact .inl hi
  · refine .inr ?_
    rw [hmeetingId, (insertInvitees_ok hinvitees).meetings]
    exact Keyed.key_mem_keys ((Keyed.mem_insert (h := hid)).mpr (.inr rfl))

theorem Commits.preferences {op : Operation} (h : Commits db op db')
    (hop : op.KeepsPreferences = true) :
    db'.userPreferences = db.userPreferences := by
  cases h with
  | signInGuest h => exact (createGuest_aside h).userPreferences
  | signInGoogle h => exact (upsertGoogleUser_aside h).userPreferences
  | updateProfile huser h => exact (updateProfile_aside h).userPreferences
  | savePreferences user huser => cases hop
  | createMeeting hhost h => exact (createMeeting_aside h).1
  | joinMeeting user m huser hcheck h => exact (commitJoin_aside h).userPreferences
  | postMessage h => exact (postMessage_aside h).userPreferences
  | _ => rfl

theorem apply_preferences {op : Operation} (hop : op.KeepsPreferences = true) :
    (db.apply op).userPreferences = db.userPreferences := by
  rw [Db.apply]
  split
  · rename_i h
    exact (runOperation_commits h).preferences hop
  · rfl

end Frame

/-- The database with the columns that the operations know, and the whole table. -/
structure PreferencesDb where
  db : Db := .empty
  preferences : PreferencesTable := Keyed.empty

namespace PreferencesDb

/-- The route of a `PUT`: its dependency, the schema, and the service call.  The two
columns are stored in both tables. -/
def writePreferences (s : PreferencesDb) (userId : UserId) (changes : PreferencesUpdate)
    (now : DateTime) :
    Service (PreferencesRow × PreferencesDb) := do
  let user ← currentUser s.db userId
  .require changes.wellFormed (.validation "The request payload is invalid." [])
  let (prefs, preferences) ← s.preferences.upsertPreferences user.id changes now
  return (prefs,
    ⟨(upsertPreferences s.db user changes.muteOnJoin.join changes.videoOffOnJoin.join).2,
    preferences⟩)

inductive Event where
  | operation (op : Operation)
  | put (userId : UserId) (changes : PreferencesUpdate) (now : DateTime)

/-- A request on both tables; a `PUT` comes with all its columns. -/
def next (s : PreferencesDb) : Event → PreferencesDb
  | .operation op => if op.KeepsPreferences then { s with db := s.db.apply op } else s
  | .put userId changes now =>
    match s.writePreferences userId changes now with
    | .ok (_, s') => s'
    | .error _ => s

/-- An accepted `PUT`. -/
structure Save where
  changes : PreferencesUpdate
  now : DateTime

/-- The save of the user that the event is, if it goes through. -/
def saveOf (userId : UserId) (s : PreferencesDb) : Event → Option Save
  | .operation _ => none
  | .put u changes now =>
    if u = userId ∧ (s.writePreferences u changes now).isOk then some ⟨changes, now⟩ else none

/-- The saves of the user, in their order. -/
def savesOf (userId : UserId) : PreferencesDb → List Event → List Save
  | _, [] => []
  | s, e :: evs => (saveOf userId s e).toList ++ savesOf userId (s.next e) evs

/-- The last value that a save gave to a column. -/
def lastGiven {α : Type} (saves : List Save) (column : PreferencesUpdate → Option α) : Option α :=
  saves.reverse.findSome? fun save => column save.changes

/-- The row after these saves: in each column the last value given, or the default. -/
def rowAfter (userId : UserId) (saves : List Save) (now : DateTime) : PreferencesRow where
  userId
  theme := (lastGiven saves (·.theme.join)).getD "classic"
  muteOnJoin := (lastGiven saves (·.muteOnJoin.join)).getD false
  videoOffOnJoin := (lastGiven saves (·.videoOffOnJoin.join)).getD false
  gallerySize := (lastGiven saves (·.gallerySize.join)).getD 9
  mirrorVideo := (lastGiven saves (·.mirrorVideo.join)).getD true
  alwaysShowControls := (lastGiven saves (·.alwaysShowControls.join)).getD false
  audioInputId := (lastGiven saves (·.audioInputId)).getD none
  audioOutputId := (lastGiven saves (·.audioOutputId)).getD none
  videoInputId := (lastGiven saves (·.videoInputId)).getD none
  updatedAt := (saves.getLast?.map Save.now).getD now

variable {s s' : PreferencesDb} {e : Event} {evs : List Event}
  {userId u : UserId} {saves : List Save}
  {changes : PreferencesUpdate} {now now' : DateTime} {prefs : PreferencesRow}

/-! ### One request -/

/-- A `PUT` goes through for a user that there is and a body that the schema takes; the
checks of the service are then met. -/
theorem writePreferences_eq_ok : s.writePreferences userId changes now = .ok (prefs, s') ↔
    ∃ user, currentUser s.db userId = .ok user ∧ changes.wellFormed = true ∧
      prefs = { changes.assign (s.preferences.rowOf user.id now) with updatedAt := now } ∧
      s' = ⟨(upsertPreferences s.db user changes.muteOnJoin.join changes.videoOffOnJoin.join).2,
        Keyed.set s.preferences prefs⟩ := by
  simp only [writePreferences, Service.bind_eq_ok, Service.require_eq_ok, Service.pure_eq_ok]
  constructor
  · rintro ⟨user, huser, -, hformed, ⟨row, t⟩, hupsert, h⟩
    rw [PreferencesTable.upsertPreferences_of_wellFormed hformed] at hupsert
    obtain ⟨rfl, rfl⟩ := Prod.mk.inj (Except.ok.inj hupsert)
    obtain ⟨rfl, rfl⟩ := Prod.mk.inj h
    exact ⟨user, huser, hformed, rfl, rfl⟩
  · rintro ⟨user, huser, hformed, rfl, rfl⟩
    exact ⟨user, huser, (), hformed, _,
      PreferencesTable.upsertPreferences_of_wellFormed hformed, rfl⟩

theorem id_of_currentUser {db : Db} {user : User} (h : currentUser db userId = .ok user) :
    user.id = userId :=
  Keyed.key_of_find? (currentUser_eq_ok.mp h)

/-- What an event does: it leaves the preferences alone, or it is a save. -/
theorem next_cases (s : PreferencesDb) (e : Event) :
    ((s.next e).preferences = s.preferences ∧ (s.next e).db.userPreferences = s.db.userPreferences ∧
      ∀ u, saveOf u s e = none) ∨
    ∃ userId changes now user, e = .put userId changes now ∧ currentUser s.db userId = .ok user ∧
      changes.wellFormed = true ∧
      (s.next e).preferences = Keyed.set s.preferences
        { changes.assign (s.preferences.rowOf userId now) with updatedAt := now } ∧
      (s.next e).db = (upsertPreferences s.db user changes.muteOnJoin.join
      changes.videoOffOnJoin.join).2 ∧
      ∀ u, saveOf u s e = if userId = u then some ⟨changes, now⟩ else none := by
  cases e with
  | operation op =>
    refine .inl ?_
    simp only [next, saveOf]
    split
    · rename_i hop
      exact ⟨rfl, apply_preferences hop, fun _ => trivial⟩
    · exact ⟨rfl, rfl, fun _ => trivial⟩
  | put userId changes now =>
    cases hput : s.writePreferences userId changes now with
    | error raised => exact .inl (by simp [next, saveOf, hput, Except.isOk, Except.toBool])
    | ok written =>
      obtain ⟨prefs, s'⟩ := written
      obtain ⟨user, huser, hformed, rfl, rfl⟩ := writePreferences_eq_ok.mp hput
      refine .inr ⟨userId, changes, now, user, rfl, huser, hformed, ?_, ?_, ?_⟩
      · rw [next, hput, id_of_currentUser huser]
      · rw [next, hput]
      · simp [saveOf, hput, Except.isOk, Except.toBool]

/-! ### Every run -/

/-- The two tables agree, and the rows hold what the API accepts. -/
structure Consistent (s : PreferencesDb) : Prop where
  agrees : s.db.userPreferences = s.preferences.joinColumns
  valid : ∀ row ∈ s.preferences, row.Valid

theorem consistent_empty : Consistent {} :=
  ⟨rfl, fun row hrow => absurd hrow (Keyed.not_mem_empty row)⟩

/-- The two columns of a row, before and after an upsert. -/
theorem upsertPreferences_agrees {user : User}
    (h : s.db.userPreferences = s.preferences.joinColumns)
    (huser : user.id = userId) :
    (upsertPreferences s.db user changes.muteOnJoin.join
      changes.videoOffOnJoin.join).2.userPreferences =
      s.db.userPreferences.set
        (PreferencesRow.joinColumns { changes.assign (s.preferences.rowOf userId now) with
      updatedAt := now }) := by
  subst huser
  have hfind : s.db.userPreferences.find? user.id =
      (Keyed.find? s.preferences user.id).map PreferencesRow.joinColumns := by
    rw [h, PreferencesTable.find?_joinColumns]
  simp only [upsertPreferences, hfind]
  congr 1
  cases hrow : Keyed.find? s.preferences user.id with
  | none =>
    simp [PreferencesRow.joinColumns, PreferencesUpdate.assign, PreferencesTable.rowOf, hrow]
  | some row =>
    have hid : row.userId = user.id := Keyed.key_of_find? hrow
    simp [PreferencesRow.joinColumns, PreferencesUpdate.assign, PreferencesTable.rowOf, hrow, hid]

theorem Consistent.next (h : s.Consistent) (e : Event) : (s.next e).Consistent := by
  obtain ⟨hsame, hdb, -⟩ | ⟨userId, changes, now, user, -, huser, hformed, hset, hdb, -⟩ :=
    next_cases s e
  · exact ⟨by rw [hdb, hsame, h.agrees], by rw [hsame]; exact h.valid⟩
  · constructor
    · rw [hdb, hset, upsertPreferences_agrees h.agrees (id_of_currentUser huser), h.agrees]
      exact PreferencesTable.joinColumns_set.symm
    · rw [hset]
      intro row hrow
      rcases Keyed.mem_set.mp hrow with rfl | ⟨hrow, -⟩
      · exact PreferencesTable.valid_assign (PreferencesTable.valid_rowOf h.valid) hformed
      · exact h.valid row hrow

theorem savesOf_concat : savesOf u s (evs ++ [e]) = savesOf u s evs ++
    (saveOf u (Runs.run next s evs) e).toList := by
  induction evs generalizing s with
  | nil => simp [savesOf]
  | cons e' evs ih => simp [savesOf, ih]

theorem lastGiven_concat {α : Type} {save : Save} {column : PreferencesUpdate → Option α} :
    lastGiven (saves ++ [save]) column = (column save.changes).or (lastGiven saves column) := by
  simp only [lastGiven, List.reverse_append, List.reverse_singleton,
    List.singleton_append, List.findSome?_cons]
  cases column save.changes <;> rfl

/-- One more save assigns its columns. -/
theorem rowAfter_concat : rowAfter u (saves ++ [⟨changes, now⟩]) now' =
    { changes.assign (rowAfter u saves now) with updatedAt := now } := by
  simp [rowAfter, PreferencesUpdate.assign, lastGiven_concat, Option.getD_or]

/-- What a `GET` shows is known from the row that the table holds. -/
theorem rowOf_of_find? {t : PreferencesTable}
    (h : Keyed.find? t u = saves.getLast?.map fun last => rowAfter u saves last.now) :
    t.rowOf u now = rowAfter u saves now := by
  rw [PreferencesTable.rowOf, h]
  cases hlast : saves.getLast? with
  | none =>
    obtain rfl := List.getLast?_eq_none_iff.mp hlast
    rfl
  | some last => simp [rowAfter, hlast]

/-- The table holds the row after the saves of each user that has saved. -/
theorem find?_run (evs : List Event) (u : UserId) :
    Keyed.find? (Runs.run next {} evs).preferences u =
    (savesOf u {} evs).getLast?.map fun last => rowAfter u (savesOf u {} evs) last.now := by
  induction evs using List.reverseRecOn with
  | nil => rfl
  | append_singleton evs e ih =>
    rw [Runs.run_concat, savesOf_concat]
    generalize Runs.run next {} evs = s at ih ⊢
    obtain ⟨hsame, -, hsave⟩ | ⟨userId, changes, now, user, -, -, -, hset, -, hsave⟩ :=
      next_cases s e
    · rw [hsame, hsave, Option.toList_none, List.append_nil, ih]
    · rw [hset, hsave, Keyed.find?_set]
      simp only [PreferencesTable.assign_userId, PreferencesTable.rowOf_userId]
      by_cases hu : userId = u
      · subst hu
        rw [if_pos rfl, if_pos rfl, rowOf_of_find? ih, Option.toList_some,
          List.getLast?_concat, Option.map_some,
          rowAfter_concat]
        rfl
      · rw [if_neg hu, if_neg hu, Option.toList_none, List.append_nil, ih]

/-- The database part of a run is a run of the operations alone. -/
theorem exists_operations (evs : List Event) :
    ∃ ops, (Runs.run next {} evs).db = Runs.run Db.apply .empty ops := by
  induction evs using List.reverseRecOn with
  | nil => exact ⟨[], rfl⟩
  | append_singleton evs e ih =>
    obtain ⟨ops, hops⟩ := ih
    rw [Runs.run_concat]
    generalize Runs.run next {} evs = s at hops ⊢
    cases e with
    | operation op =>
      simp only [next]
      split
      · exact ⟨ops ++ [op], by rw [Runs.run_concat, ← hops]⟩
      · exact ⟨ops, hops⟩
    | put userId changes now =>
      simp only [next]
      cases hput : s.writePreferences userId changes now with
      | error raised => exact ⟨ops, hops⟩
      | ok written =>
        obtain ⟨prefs, s'⟩ := written
        obtain ⟨user, huser, -, -, rfl⟩ := writePreferences_eq_ok.mp hput
        refine ⟨ops ++
          [.request (.savePreferences userId changes.muteOnJoin.join changes.videoOffOnJoin.join)],
          ?_⟩
        rw [Runs.run_concat, ← hops]
        symm
        refine apply_of_ok ?_
        exact Service.bind_eq_ok.mpr ⟨user, huser, rfl⟩

/-- **Preferences are the last values saved, and joins start with them.**  After every run of
operations and `PUT` requests, the database is one that the operations reach, a `GET`
shows of each user the last value that an accepted `PUT` gave to each column, and the
default where none did, and so does the row of a join for the two columns it starts
with. -/
theorem preferences_run (evs : List Event) :
    let s := Runs.run next {} evs
    (∃ ops, s.db = Runs.run Db.apply .empty ops) ∧
      (∀ u now, s.preferences.getPreferences u now = rowAfter u (savesOf u {} evs) now ∧
        (s.preferences.getPreferences u now).Valid) ∧
      ∀ meeting user req draws now,
        let prefs := rowAfter user.id (savesOf user.id {} evs) now
        (joinRow s.db meeting user req draws now).isMuted = prefs.muteOnJoin ∧
          (joinRow s.db meeting user req draws now).isVideoOn = !prefs.videoOffOnJoin := by
  intro s
  have hs : s.Consistent := (Runs.always_of_step consistent_empty (fun _ e h => h.next e) evs).last
  have hrow (u : UserId) (now : DateTime) :
      s.preferences.rowOf u now = rowAfter u (savesOf u {} evs) now :=
    rowOf_of_find? (find?_run evs u)
  refine ⟨exists_operations evs,
    fun u now => ⟨hrow u now, PreferencesTable.valid_rowOf hs.valid⟩, ?_⟩
  intro meeting user req draws now
  rw [← hrow]
  have hfind : s.db.userPreferences.find? user.id =
      (Keyed.find? s.preferences user.id).map PreferencesRow.joinColumns := by
    rw [hs.agrees, PreferencesTable.find?_joinColumns]
  simp only [joinRow, initialMediaState, hfind, PreferencesTable.rowOf]
  cases Keyed.find? s.preferences user.id with
  | none => exact ⟨rfl, rfl⟩
  | some row => exact ⟨rfl, rfl⟩

end PreferencesDb

end ZoomClone
