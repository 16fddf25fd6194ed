/-
Editing a meeting inside its database session (`update_meeting`).

An edit assigns the columns one by one and validates in between, so a check may fail after
other columns have been assigned.  The assignments wait for the flush of the commit; an
exception leaves the request before that.

* `settles_updateMeeting` — the session commits the whole edit, or nothing;
* `stored_meetings_valid` — what every run of creates and edits keeps true of the meetings,
  and what one edit leaves alone.
-/
import ZoomClone.InSession
import ZoomClone.Operations

namespace ZoomClone

open Transaction Transaction.Program

/-! ### The edit in its session -/

namespace InSession

/-- `if field in changes and changes[field] is not None`: check the value and assign it. -/
def assignChange {α β : Type} (id : MeetingId) (change : Option α) (check : α → Service β)
    (set : Meeting → β → Meeting) (hset : ∀ m b, (set m b).id = m.id) : InSession Unit :=
  match change with
  | none => pure ()
  | some value => do
    let checked ← lift (check value)
    add (.assign id (set · checked) (hset · checked))

/-- The fields of an edit, in the order in which the source looks at them. -/
def assignChanges (id : MeetingId) (host : User) (changes : MeetingChanges)
    (now : DateTime) : InSession Unit := do
  assignChange id changes.topic validateTopic (fun m topic => { m with topic }) fun _ _ => rfl
  assignChange id changes.description pure (fun m description => { m with description })
    fun _ _ => rfl
  assignChange id changes.scheduledStart (validateStart · now)
    (fun m start => { m with scheduledStart := some start }) fun _ _ => rfl
  assignChange id changes.durationMinutes (resolveDuration · host.plan)
    (fun m resolved => { m with durationMinutes := resolved.1 }) fun _ _ => rfl
  assignChange id changes.timezone pure (fun m timezone => { m with timezone }) fun _ _ => rfl
  assignChange id changes.waitingRoom pure (fun m waitingRoom => { m with waitingRoom })
    fun _ _ => rfl
  assignChange id changes.hostVideoOn pure (fun m hostVideoOn => { m with hostVideoOn })
    fun _ _ => rfl
  assignChange id changes.participantVideoOn pure
    (fun m participantVideoOn => { m with participantVideoOn }) fun _ _ => rfl
  assignChange id changes.allowTranscription pure
    (fun m allowTranscription => { m with allowTranscription }) fun _ _ => rfl
  assignChange id changes.chatBeforeAfter pure
    (fun m chatBeforeAfter => { m with chatBeforeAfter }) fun _ _ => rfl
  assignChange id changes.encryption
    (fun encryption => (validateEncryption encryption).map fun _ => encryption)
    (fun m encryption => { m with encryption }) fun _ _ => rfl

def updateMeeting (meetingNumber : String) (host : User) (changes : MeetingChanges)
    (now : DateTime) :
    InSession MeetingView := do
  let meeting ← query Db.write (getByNumber · meetingNumber)
  lift (requireMeetingHost meeting host)
  lift (Service.require (meeting.status = .scheduled)
    (.conflict "Only a scheduled meeting can be edited." "MEETING_NOT_EDITABLE"
      [("status", .str meeting.status.name)]))
  assignChanges meeting.id host changes now
  commit Db.write
  query Db.write fun db => .ok (serializeMeeting db (db.refresh meeting))

end InSession

theorem keeps_assignChange {α β : Type} (id : MeetingId) (change : Option α) (check : α → Service β)
    (set : Meeting → β → Meeting) (hset : ∀ m b, (set m b).id = m.id) :
    Keeps (InSession.assignChange id change check set hset) := by
  cases change with
  | none => exact keeps_pure _
  | some value => exact (keeps_lift _).bind fun _ => keeps_add _

theorem keeps_assignChanges (id : MeetingId) (host : User) (changes : MeetingChanges)
    (now : DateTime) :
    Keeps (InSession.assignChanges id host changes now) := by
  rw [InSession.assignChanges]
  repeat' refine Keeps.bind (keeps_assignChange _ _ _ _ _) fun _ => ?_
  exact keeps_assignChange _ _ _ _ _

/-- An edit that raises has committed nothing. -/
theorem atomic_updateMeeting (meetingNumber : String) (host : User) (changes : MeetingChanges)
    (now : DateTime) :
    Atomic (InSession.updateMeeting meetingNumber host changes now) := by
  refine (keeps_query _).bind_atomic fun meeting => (keeps_lift _).bind_atomic fun _ =>
    (keeps_lift _).bind_atomic fun _ => (keeps_assignChanges _ _ _ _).bind_atomic fun _ =>
      atomic_commit ?_
  intro s hs
  rw [query_of_nil hs]
  exact ⟨_, rfl⟩

/-! ### Assignments that wait -/

/-- The waiting writes put the row through `f`. -/
def Edits (id : MeetingId) (ws : List Write) (f : Meeting → Meeting) : Prop :=
  ∃ hf : ∀ m, (f m).id = m.id, ∀ db : Db, ws.foldlM Db.write db = .ok (db.updateMeetingRow id f hf)

theorem edits_nil (id : MeetingId) : Edits id [] fun m => m := by
  refine ⟨fun _ => rfl, ?_⟩
  intro db
  have hsame : db.meetings.modify id (fun m => m) (fun _ => rfl) = db.meetings :=
    Keyed.ext (by simp [Keyed.modify, Keyed.map])
  rw [Db.updateMeetingRow, hsame]
  rfl

/-- Two assignments to a row are one. -/
theorem updateMeetingRow_trans {db : Db} {id : MeetingId} {f g : Meeting → Meeting}
    (hf : ∀ m, (f m).id = m.id)
    (hg : ∀ m, (g m).id = m.id) : (db.updateMeetingRow id f hf).updateMeetingRow id g hg =
      db.updateMeetingRow id (fun m => g (f m)) fun m => (hg _).trans (hf m) := by
  have hrow (m : Meeting) :
    (if (if m.id = id then f m else m).id = id then g (if m.id = id then f m else m)
      else if m.id = id then f m else m) = if m.id = id then g (f m) else m := by
    by_cases hid : m.id = id
    · simp [hid, hf]
    · simp [hid]
  have hmeetings : (db.meetings.modify id f hf).modify id g hg =
      db.meetings.modify id (fun m => g (f m)) fun m => (hg _).trans (hf m) := by
    apply Keyed.ext
    simp only [Keyed.modify, Keyed.rows_map, List.map_map]
    exact List.map_congr_left fun m _ => hrow m
  simp only [Db.updateMeetingRow, hmeetings]

/-- One more assignment. -/
theorem Edits.concat {id : MeetingId} {ws : List Write} {f g : Meeting → Meeting}
    (h : Edits id ws f)
    (hg : ∀ m, (g m).id = m.id) : Edits id (ws ++ [.assign id g hg]) fun m => g (f m) := by
  obtain ⟨hf, hws⟩ := h
  refine ⟨fun m => (hg _).trans (hf m), ?_⟩
  intro db
  rw [List.foldlM_append, hws db, ← updateMeetingRow_trans hf hg]
  rfl

/-- An edit of that meeting is under way: nothing is flushed, and the waiting writes put the
row through `f`. -/
structure Editing (db : Db) (id : MeetingId) (f : Meeting → Meeting) (s : Session Db Write) :
    Prop where
  committed : s.committed = db
  flushed : s.flushed = db
  pending : Edits id s.pending f

/-- The program runs to its end, and the row is then put through `f`. -/
def Ends (p : InSession Unit) (db : Db) (id : MeetingId) (f : Meeting → Meeting)
    (s : Session Db Write) : Prop :=
  ∃ s', p s = (.ok (), s') ∧ Editing db id f s'

/-- A change that is given is checked. -/
theorem mapM_some_eq_ok {α β : Type} {check : α → Service β} {value : α} {checked : Option β} :
    (some value).mapM check = .ok checked ↔ ∃ b, check value = .ok b ∧ some b = checked := by
  constructor
  · intro h
    obtain ⟨b, hb, h⟩ := Service.bind_eq_ok.mp h
    exact ⟨b, hb, Except.ok.inj h⟩
  · rintro ⟨b, hb, rfl⟩
    exact Service.bind_eq_ok.mpr ⟨b, hb, rfl⟩

/-- Checking a change: nothing is given, or the value that is given passes. -/
theorem mapM_cases {α β : Type} {change : Option α} {check : α → Service β} {checked : Option β}
    (h : change.mapM check = .ok checked) :
    change = none ∧ checked = none ∨ ∃ value b, change = some value ∧
      check value = .ok b ∧ checked = some b := by
  cases change with
  | none => exact .inl ⟨rfl, (Except.ok.inj h).symm⟩
  | some value =>
    obtain ⟨b, hb, rfl⟩ := mapM_some_eq_ok.mp h
    exact .inr ⟨value, b, rfl, hb, rfl⟩

section Assign

variable {α β : Type} {db : Db} {id : MeetingId} {f F : Meeting → Meeting}
  {s : Session Db Write} {change : Option α}
  {check : α → Service β} {set : Meeting → β → Meeting} {hset : ∀ m b, (set m b).id = m.id}
  {checked : Option β}
  {k : Unit → InSession Unit} {e : Raised}

/-- A change that passes its check is one more assignment, if there is one. -/
theorem Editing.assignChange (h : Editing db id f s) (hchange : change.mapM check = .ok checked)
    (g : Meeting → Meeting) (hg : ∀ m, g m = (checked.map (set m)).getD m) :
    Ends (InSession.assignChange id change check set hset) db id (fun m => g (f m)) s := by
  rcases mapM_cases hchange with ⟨rfl, rfl⟩ | ⟨value, b, rfl, hb, rfl⟩
  · refine ⟨s, rfl, ?_⟩
    have hsame : (fun m => g (f m)) = f := funext fun m => hg (f m)
    rwa [hsame]
  · refine ⟨{ s with pending := s.pending ++ [.assign id (set · b) (hset · b)] }, ?_, ?_⟩
    · show (lift (check value) >>= _) s = _
      rw [hb, lift_ok_bind]
      rfl
    · have hsame : (fun m => g (f m)) = fun m => set (f m) b := funext fun m => hg (f m)
      rw [hsame]
      exact ⟨h.committed, h.flushed, h.pending.concat (hset · b)⟩

/-- The same with the rest of the program behind it. -/
theorem Editing.bind (h : Editing db id f s) (hchange : change.mapM check = .ok checked)
    (g : Meeting → Meeting) (hg : ∀ m, g m = (checked.map (set m)).getD m)
    (hrest : ∀ s', Editing db id (fun m => g (f m)) s' → Ends (k ()) db id F s') :
    Ends (InSession.assignChange id change check set hset >>= k) db id F s := by
  obtain ⟨s₁, hrun, hs₁⟩ := h.assignChange hchange g hg
  rw [Ends, bind_of_ok hrun]
  exact hrest s₁ hs₁

/-- A change that does not pass its check raises. -/
theorem assignChange_error (hchange : change.mapM check = .error e) :
    InSession.assignChange id change check set hset s = (.error e, s) := by
  cases change with
  | none => cases hchange
  | some value =>
    rcases Service.bind_eq_error.mp hchange with hvalue | ⟨_, _, hpure⟩
    · show (lift (check value) >>= _) s = _
      rw [hvalue, lift_error_bind]
    · cases hpure

/-- One that does leaves it to the rest of the program to raise. -/
theorem raises_bind (hchange : change.mapM check = .ok checked)
    (hrest : ∀ s', (k () s').1 = .error e) :
    ((InSession.assignChange id change check set hset >>= k) s).1 = .error e := by
  rcases mapM_cases hchange with ⟨rfl, -⟩ | ⟨value, b, rfl, hb, -⟩
  · exact hrest s
  · have hrun : InSession.assignChange id (some value) check set hset s =
        (.ok (), { s with pending := s.pending ++ [.assign id (set · b) (hset · b)] }) := by
      show (lift (check value) >>= _) s = _
      rw [hb, lift_ok_bind]
      rfl
    rw [bind_of_ok hrun]
    exact hrest _

end Assign

theorem mapM_pure {α : Type} (change : Option α) :
    change.mapM (pure : α → Service α) = .ok change := by
  cases change <;> rfl

/-- The checks of an edit, in their order. -/
def validateChanges (host : User) (changes : MeetingChanges) (now : DateTime) :
    Service (Option String × Option DateTime × Option Int) := do
  let topic ← changes.topic.mapM validateTopic
  let scheduledStart ← changes.scheduledStart.mapM (validateStart · now)
  let duration ← changes.durationMinutes.mapM (resolveDuration · host.plan)
  let _ ← changes.encryption.mapM validateEncryption
  return (topic, scheduledStart, duration.map Prod.fst)

theorem mapM_encryption {change : Option String} {checked : Option Unit}
    (h : change.mapM validateEncryption = .ok checked) :
    change.mapM (fun encryption => (validateEncryption encryption).map fun _ => encryption) =
      .ok change := by
  rcases mapM_cases h with ⟨rfl, -⟩ | ⟨encryption, u, rfl, hu, -⟩
  · rfl
  · exact mapM_some_eq_ok.mpr ⟨encryption, congrArg (Except.map _) hu, rfl⟩

theorem mapM_encryption_error {change : Option String} {e : Raised}
    (h : change.mapM validateEncryption = .error e) :
    change.mapM (fun encryption => (validateEncryption encryption).map fun _ => encryption) =
      .error e := by
  cases change with
  | none => cases h
  | some encryption =>
    rcases Service.bind_eq_error.mp h with hvalue | ⟨_, _, hpure⟩
    · exact Service.bind_eq_error.mpr (.inl (congrArg (Except.map _) hvalue))
    · cases hpure

section Changes

variable {db db' : Db} {id : MeetingId} {s : Session Db Write} {host : User}
  {changes : MeetingChanges}
  {now : DateTime} {topic : Option String} {start : Option DateTime}
  {duration : Option Int} {e : Raised}

/-- Changes that pass their checks are the edit. -/
theorem run_assignChanges_ok (hs : Editing db id (fun m => m) s)
    (h : validateChanges host changes now = .ok (topic, start, duration)) :
    Ends (InSession.assignChanges id host changes now) db id
      (·.edit changes topic start duration) s := by
  simp only [validateChanges, Service.bind_eq_ok, Service.pure_eq_ok] at h
  obtain ⟨topic, htopic, start, hstart, resolved, hduration, checked, hencryption, hresult⟩ := h
  simp only [Prod.mk.injEq] at hresult
  obtain ⟨rfl, rfl, rfl⟩ := hresult
  rw [InSession.assignChanges]
  refine hs.bind htopic (fun m => { m with topic := topic.getD m.topic }) ?_ fun s hs => ?_
  · intro m
    cases topic <;> rfl
  refine hs.bind (mapM_pure _)
    (fun m => { m with description := changes.description.getD m.description }) ?_
    fun s hs => ?_
  · intro m
    cases changes.description <;> rfl
  refine hs.bind hstart (fun m => { m with scheduledStart := start <|> m.scheduledStart }) ?_
    fun s hs => ?_
  · intro m
    cases start <;> rfl
  refine hs.bind hduration
    (fun m => { m with durationMinutes := (resolved.map Prod.fst).getD m.durationMinutes })
    ?_ fun s hs => ?_
  · intro m
    cases resolved <;> rfl
  refine hs.bind (mapM_pure _) (fun m => { m with timezone := changes.timezone.getD m.timezone }) ?_
    fun s hs => ?_
  · intro m
    cases changes.timezone <;> rfl
  refine hs.bind (mapM_pure _)
    (fun m => { m with waitingRoom := changes.waitingRoom.getD m.waitingRoom }) ?_
    fun s hs => ?_
  · intro m
    cases changes.waitingRoom <;> rfl
  refine hs.bind (mapM_pure _)
    (fun m => { m with hostVideoOn := changes.hostVideoOn.getD m.hostVideoOn }) ?_
    fun s hs => ?_
  · intro m
    cases changes.hostVideoOn <;> rfl
  refine hs.bind (mapM_pure _)
    (fun m => { m with participantVideoOn := changes.participantVideoOn.getD m.participantVideoOn })
      ?_ fun s hs => ?_
  · intro m
    cases changes.participantVideoOn <;> rfl
  refine hs.bind (mapM_pure _)
    (fun m => { m with allowTranscription := changes.allowTranscription.getD m.allowTranscription })
      ?_ fun s hs => ?_
  · intro m
    cases changes.allowTranscription <;> rfl
  refine hs.bind (mapM_pure _)
    (fun m => { m with chatBeforeAfter := changes.chatBeforeAfter.getD m.chatBeforeAfter }) ?_
      fun s hs => ?_
  · intro m
    cases changes.chatBeforeAfter <;> rfl
  refine hs.assignChange (mapM_encryption hencryption)
    (fun m => { m with encryption := changes.encryption.getD m.encryption }) ?_
  intro m
  cases changes.encryption <;> rfl

/-- Changes that do not pass raise what the first check that fails raises. -/
theorem run_assignChanges_error (h : validateChanges host changes now = .error e) :
    (InSession.assignChanges id host changes now s).1 = .error e := by
  rw [validateChanges] at h
  rw [InSession.assignChanges]
  rcases Service.bind_eq_error.mp h with htopic | ⟨topic, htopic, h⟩
  · rw [bind_of_error (assignChange_error htopic)]
  refine raises_bind htopic fun s => raises_bind (mapM_pure _) fun s => ?_
  rcases Service.bind_eq_error.mp h with hstart | ⟨start, hstart, h⟩
  · rw [bind_of_error (assignChange_error hstart)]
  refine raises_bind hstart fun s => ?_
  rcases Service.bind_eq_error.mp h with hduration | ⟨duration, hduration, h⟩
  · rw [bind_of_error (assignChange_error hduration)]
  refine raises_bind hduration fun s => ?_
  rcases Service.bind_eq_error.mp h with hencryption | ⟨_, _, hpure⟩
  · -- the six fields of the loop take every value
    refine raises_bind (mapM_pure _) fun s => raises_bind (mapM_pure _) fun s =>
      raises_bind (mapM_pure _) fun s =>
      raises_bind (mapM_pure _) fun s => raises_bind (mapM_pure _) fun s =>
        raises_bind (mapM_pure _) fun s => ?_
    rw [assignChange_error (mapM_encryption_error hencryption)]
  · cases hpure

end Changes

/-! ### What is committed -/

theorem updateMeeting_eq (db : Db) (meetingNumber : String) (host : User) (changes : MeetingChanges)
    (now : DateTime) : updateMeeting db meetingNumber host changes now = (do
      let meeting ← getByNumber db meetingNumber
      requireMeetingHost meeting host
      Service.require (meeting.status = .scheduled)
        (.conflict "Only a scheduled meeting can be edited." "MEETING_NOT_EDITABLE"
          [("status", .str meeting.status.name)])
      let checked ← validateChanges host changes now
      return (serializeMeeting db (meeting.edit changes checked.1 checked.2.1 checked.2.2),
        db.updateMeetingRow meeting.id (·.edit changes checked.1 checked.2.1 checked.2.2) fun m =>
          m.edit_id ..)) := by
  rw [updateMeeting]
  simp only [validateChanges, bind_assoc, pure_bind]

theorem refresh_updateMeetingRow {db : Db} {m : Meeting} {f : Meeting → Meeting}
    {hf : ∀ m, (f m).id = m.id}
    (hm : m ∈ db.meetings) : (db.updateMeetingRow m.id f hf).refresh m = f m := by
  have hmem : f m ∈ (db.updateMeetingRow m.id f hf).meetings :=
    Db.mem_updateMeetingRow.mpr ⟨m, hm, if_pos rfl⟩
  rw [Db.refresh, Keyed.find?_eq_some.mpr ⟨hmem, hf m⟩, Option.getD_some]

section Settle

variable {db db' : Db} {meetingNumber : String} {host : User} {changes : MeetingChanges}
  {now : DateTime}
  {v : MeetingView} {e : Raised}

theorem run_updateMeeting_ok (h : updateMeeting db meetingNumber host changes now = .ok (v, db')) :
    InSession.updateMeeting meetingNumber host changes now (.fresh db) = (.ok v, .fresh db') := by
  rw [updateMeeting_eq] at h
  obtain ⟨m, hm, h⟩ := Service.bind_eq_ok.mp h
  obtain ⟨_, hhost, h⟩ := Service.bind_eq_ok.mp h
  obtain ⟨_, hstatus, h⟩ := Service.bind_eq_ok.mp h
  obtain ⟨⟨topic, start, duration⟩, hchecked, h⟩ := Service.bind_eq_ok.mp h
  obtain ⟨rfl, rfl⟩ := Prod.mk.inj (Service.pure_eq_ok.mp h)
  have hread : query Db.write (getByNumber · meetingNumber) (.fresh db) = (.ok m, .fresh db) := by
    rw [query_of_nil rfl]
    exact congrArg (·, _) hm
  have hfresh : Editing db m.id (fun m => m) (.fresh db) := ⟨rfl, rfl, edits_nil m.id⟩
  obtain ⟨s, hrun, hs⟩ := run_assignChanges_ok hfresh hchecked
  obtain ⟨hid, hwrites⟩ := hs.pending
  have hcommit : commit Db.write s =
      (.ok (), .fresh (db.updateMeetingRow m.id (·.edit changes topic start duration) hid)) :=
    commit_of_ok (by rw [hs.flushed, hwrites])
  have hmem : m ∈ db.meetings := mem_of_meetingByNumber (getByNumber_eq_ok.mp hm)
  rw [InSession.updateMeeting, bind_of_ok hread, hhost, lift_ok_bind, hstatus,
    lift_ok_bind, bind_of_ok hrun,
    bind_of_ok hcommit, query_of_nil rfl]
  simp only [Session.fresh, refresh_updateMeetingRow hmem]
  rfl

theorem run_updateMeeting_error (h : updateMeeting db meetingNumber host changes now = .error e) :
    (InSession.updateMeeting meetingNumber host changes now (.fresh db)).1 = .error e := by
  rw [updateMeeting_eq] at h
  rw [InSession.updateMeeting]
  have hread : query Db.write (getByNumber · meetingNumber) (.fresh db) =
      (getByNumber db meetingNumber, .fresh db) := query_of_nil rfl
  rcases Service.bind_eq_error.mp h with hm | ⟨m, hm, h⟩
  · rw [hm] at hread
    rw [bind_of_error hread]
  rw [hm] at hread
  rw [bind_of_ok hread]
  rcases Service.bind_eq_error.mp h with hhost | ⟨_, hhost, h⟩
  · rw [hhost, lift_error_bind]
  rw [hhost, lift_ok_bind]
  rcases Service.bind_eq_error.mp h with hstatus | ⟨_, hstatus, h⟩
  · rw [hstatus, lift_error_bind]
  rw [hstatus, lift_ok_bind]
  rcases Service.bind_eq_error.mp h with hchecked | ⟨checked, -, h⟩
  · exact congrArg Prod.fst (bind_of_error (Prod.ext (run_assignChanges_error hchecked) rfl))
  · cases h

end Settle

/-- **The session of an edit commits the whole edit, or nothing.** -/
theorem settles_updateMeeting (db : Db) (meetingNumber : String) (host : User)
    (changes : MeetingChanges)
    (now : DateTime) : request (InSession.updateMeeting meetingNumber host changes now) db =
      Service.settle db (updateMeeting db meetingNumber host changes now) := by
  cases h : updateMeeting db meetingNumber host changes now with
  | ok result => rw [request_of_ok (run_updateMeeting_ok h), Service.settle]
  | error e =>
    rw [request_of_error (atomic_updateMeeting meetingNumber host changes now)
      (run_updateMeeting_error h),
      Service.settle]

/-! ### Requests -/

/-- A create or an edit, by the user behind the token. -/
inductive MeetingRequest where
  | create (userId : UserId) (req : MeetingCreate) (draws : CreateDraws) (now : DateTime)
  | update (userId : UserId) (meetingNumber : String) (changes : MeetingChanges) (now : DateTime)

namespace MeetingRequest

/-- What runs in the session of the request. -/
def program : MeetingRequest → InSession MeetingView
  | create userId req draws now => do
    let host ← query Db.write (currentFullUser · userId)
    InSession.createMeeting host req draws now
  | update userId meetingNumber changes now => do
    let host ← query Db.write (currentFullUser · userId)
    InSession.updateMeeting meetingNumber host changes now

/-- What it commits. -/
def next (db : Db) (r : MeetingRequest) : Db := (request r.program db).2

/-- The service call behind it. -/
def service (db : Db) : MeetingRequest → Service (MeetingView × Db)
  | create userId req draws now => do
    let host ← currentFullUser db userId
    createMeeting db host req draws now
  | update userId meetingNumber changes now => do
    let host ← currentFullUser db userId
    updateMeeting db meetingNumber host changes now

def toRequest : MeetingRequest → Request
  | create userId req draws now => .createMeeting userId req draws now
  | update userId meetingNumber changes now => .updateMeeting userId meetingNumber changes now

end MeetingRequest

/-- A program behind a query settles what the service call does with what was read. -/
theorem settles_query {α β : Type} {db : Db} {g : Db → Service α} {f : α → Service (β × Db)}
    {p : α → InSession β}
    (h : ∀ a, request (p a) db = Service.settle db (f a)) :
    request (query Db.write g >>= p) db = Service.settle db (g db >>= f) := by
  rw [request_query]
  cases g db with
  | ok a => exact h a
  | error e => rfl

/-- The session of a request commits what its service call stores, or nothing. -/
theorem settles_request (db : Db) (r : MeetingRequest) :
    request r.program db = Service.settle db (r.service db) := by
  cases r with
  | create userId req draws now =>
    exact settles_query fun host => settles_createMeeting db host req draws now
  | update userId meetingNumber changes now =>
    exact settles_query fun host => settles_updateMeeting db meetingNumber host changes now

theorem commit_bind {α β : Type} {x : Service α} {f : α → Service (β × Db)} :
    (x >>= f).commit = x >>= fun a => (f a).commit := by
  cases x <;> rfl

/-- In the system it is the operation of that request. -/
theorem next_eq_apply (db : Db) (r : MeetingRequest) :
    MeetingRequest.next db r = db.apply (.request r.toRequest) := by
  have hrun : runOperation db (.request r.toRequest) = (r.service db).commit := by
    cases r with
    | create userId req draws now =>
      rw [MeetingRequest.service, commit_bind, MeetingRequest.toRequest, runOperation, runRequest]
    | update userId meetingNumber changes now =>
      rw [MeetingRequest.service, commit_bind, MeetingRequest.toRequest, runOperation, runRequest]
  rw [MeetingRequest.next, settles_request, Db.apply, hrun]
  cases r.service db <;> rfl

/-! ### What is stored is valid -/

/-- The columns that are checked, for a meeting of that host. -/
structure Meeting.Valid (m : Meeting) (host : Option User) : Prop where
  trimmed : PyStr.strip m.topic = m.topic
  topic : 1 ≤ m.topic.length ∧ m.topic.length ≤ maxTopicLength
  duration : minDurationMinutes ≤ m.durationMinutes ∧ m.durationMinutes ≤ maxDurationMinutes
  plan : ∀ u, host = some u → u.plan = .basic → m.durationMinutes ≤ basicPlanDurationCap
  encryption : m.encryption ∈ encryptionModes

def Db.MeetingsValid (db : Db) : Prop := ∀ m ∈ db.meetings, m.Valid (db.getUser m.hostId)

/-- Beside the columns that `changes` names, the row is the same. -/
structure Meeting.EditedBy (m m' : Meeting) (changes : MeetingChanges) : Prop where
  id : m'.id = m.id
  meetingNumber : m'.meetingNumber = m.meetingNumber
  hostId : m'.hostId = m.hostId
  passcode : m'.passcode = m.passcode
  inviteToken : m'.inviteToken = m.inviteToken
  status : m'.status = m.status
  usePmi : m'.usePmi = m.usePmi
  startedAt : m'.startedAt = m.startedAt
  endedAt : m'.endedAt = m.endedAt
  createdAt : m'.createdAt = m.createdAt
  topic : changes.topic = none → m'.topic = m.topic
  description : changes.description = none → m'.description = m.description
  scheduledStart : changes.scheduledStart = none → m'.scheduledStart = m.scheduledStart
  durationMinutes : changes.durationMinutes = none → m'.durationMinutes = m.durationMinutes
  timezone : changes.timezone = none → m'.timezone = m.timezone
  waitingRoom : changes.waitingRoom = none → m'.waitingRoom = m.waitingRoom
  hostVideoOn : changes.hostVideoOn = none → m'.hostVideoOn = m.hostVideoOn
  participantVideoOn : changes.participantVideoOn = none →
    m'.participantVideoOn = m.participantVideoOn
  allowTranscription : changes.allowTranscription = none →
    m'.allowTranscription = m.allowTranscription
  chatBeforeAfter : changes.chatBeforeAfter = none → m'.chatBeforeAfter = m.chatBeforeAfter
  encryption : changes.encryption = none → m'.encryption = m.encryption

/-- One row is edited, and nothing else changes. -/
structure Db.Edits (db db' : Db) (m m' : Meeting) (changes : MeetingChanges) : Prop where
  row : m.EditedBy m' changes
  rows : db'.meetings.rows = db.meetings.rows.map fun n => if n.id = m.id then m' else n
  others : db' = { db with meetings := db'.meetings }

/-- What raises commits nothing; an edit that does not changes what it names. -/
structure MeetingRequest.Handled (db : Db) (r : MeetingRequest) : Prop where
  atomic : ∀ e db', request r.program db = (.error e, db') → db' = db
  framed : ∀ userId meetingNumber changes now v db', r = .update userId meetingNumber changes now →
    request r.program db = (.ok v, db') →
      ∃ m m', db.meetingByNumber meetingNumber = some m ∧ v.meeting = m' ∧ db.Edits db' m m' changes

section Checks

theorem validateTopic_eq_ok {text topic : String} : validateTopic text = .ok topic ↔
    topic = PyStr.strip text ∧ topic ≠ "" ∧ topic.length ≤ maxTopicLength := by
  simp only [validateTopic, Service.bind_eq_ok, Service.require_eq_ok, Service.pure_eq_ok]
  constructor
  · rintro ⟨-, hblank, -, hlength, rfl⟩
    exact ⟨rfl, hblank, hlength⟩
  · rintro ⟨rfl, hblank, hlength⟩
    exact ⟨(), hblank, (), hlength, rfl⟩

theorem resolveDuration_eq_ok {minutes stored : Int} {plan : Plan} {clamped : Bool} :
    resolveDuration minutes plan = .ok (stored, clamped) ↔
      (minDurationMinutes ≤ minutes ∧ minutes ≤ maxDurationMinutes) ∧
        (stored, clamped) = if plan = .basic ∧ basicPlanDurationCap < minutes then
      (basicPlanDurationCap, true)
          else (minutes, false) := by
  simp only [resolveDuration, Service.bind_eq_ok, Service.require_eq_ok, Service.pure_eq_ok]
  constructor
  · rintro ⟨-, hrange, hstored⟩
    exact ⟨hrange, hstored.symm⟩
  · rintro ⟨hrange, hstored⟩
    exact ⟨(), hrange, hstored.symm⟩

theorem validateEncryption_eq_ok {encryption : String} {u : Unit} :
    validateEncryption encryption = .ok u ↔ encryption ∈ encryptionModes :=
  Service.require_eq_ok

/-- A topic that passes its check. -/
theorem valid_topic {text topic : String} (h : validateTopic text = .ok topic) :
    PyStr.strip topic = topic ∧ 1 ≤ topic.length ∧ topic.length ≤ maxTopicLength := by
  obtain ⟨rfl, hblank, hlength⟩ := validateTopic_eq_ok.mp h
  refine ⟨PyStr.strip_strip text, ?_, hlength⟩
  by_contra hempty
  exact hblank (String.length_eq_zero_iff.mp (by omega))

/-- A duration that passes its check, as it is stored. -/
theorem valid_duration {minutes stored : Int} {plan : Plan} {clamped : Bool}
    (h : resolveDuration minutes plan = .ok (stored, clamped)) :
    (minDurationMinutes ≤ stored ∧ stored ≤ maxDurationMinutes) ∧
      (plan = .basic → stored ≤ basicPlanDurationCap) := by
  obtain ⟨hrange, hstored⟩ := resolveDuration_eq_ok.mp h
  split at hstored
  · obtain ⟨rfl, -⟩ := Prod.mk.inj hstored
    exact ⟨by decide, fun _ => le_rfl⟩
  · next hkept =>
    obtain ⟨rfl, -⟩ := Prod.mk.inj hstored
    exact ⟨hrange, fun hbasic => not_lt.mp fun hlong => hkept ⟨hbasic, hlong⟩⟩

end Checks

section Stored

variable {db db' : Db} {host : User} {v : MeetingView} {now : DateTime}

/-- The row of a create is valid. -/
theorem createMeeting_valid {req : MeetingCreate} {draws : CreateDraws} (hvalid : db.MeetingsValid)
    (hhost : db.getUser host.id = some host)
    (h : createMeeting db host req draws now = .ok (v, db')) :
    db'.MeetingsValid := by
  have husers : db'.users = db.users := (createMeeting_people h).users
  simp only [createMeeting, Service.bind_eq_ok, Service.pure_eq_ok] at h
  obtain ⟨topic, htopic, start, -, ⟨duration, clamped⟩, hduration, _, hencryption,
    ⟨row, db₁⟩, hrow, db₂, hinv, h⟩ := h
  obtain ⟨-, rfl⟩ := Prod.mk.inj h
  obtain ⟨⟨k, number, -, rfl⟩, hins⟩ := insertNewMeeting_ok hrow
  obtain ⟨hid, rfl, -⟩ := Db.insertMeeting_ok hins
  intro m hm
  rw [Db.getUser, husers, ← Db.getUser]
  rw [(insertInvitees_ok hinv).meetings] at hm
  rcases (Keyed.mem_insert (h := hid)).mp hm with hm | rfl
  · exact hvalid m hm
  · obtain ⟨htrimmed, hlength⟩ := valid_topic htopic
    obtain ⟨hrange, hplan⟩ := valid_duration hduration
    exact {
      trimmed := htrimmed
      topic := hlength
      duration := hrange
      plan := fun u hu hbasic => by
        obtain rfl := Option.some.inj (hhost.symm.trans hu)
        exact hplan hbasic
      encryption := validateEncryption_eq_ok.mp hencryption }

/-- A valid row is valid after an edit that passes its checks. -/
theorem Meeting.Valid.edit {m : Meeting} {changes : MeetingChanges} {topic : Option String}
    {start : Option DateTime}
    {duration : Option Int} (hvalid : m.Valid (some host))
    (h : validateChanges host changes now = .ok (topic, start, duration)) :
    (m.edit changes topic start duration).Valid (some host) := by
  simp only [validateChanges, Service.bind_eq_ok, Service.pure_eq_ok, Prod.mk.injEq] at h
  obtain ⟨topic, htopic, start, -, resolved, hduration, checked, hencryption, rfl, rfl, rfl⟩ := h
  -- each checked column holds the old value, or one that has passed its check
  have hnewTopic : PyStr.strip (topic.getD m.topic) = topic.getD m.topic ∧
      1 ≤ (topic.getD m.topic).length ∧ (topic.getD m.topic).length ≤ maxTopicLength := by
    rcases mapM_cases htopic with ⟨-, rfl⟩ | ⟨text, t, -, ht, rfl⟩
    · exact ⟨hvalid.trimmed, hvalid.topic⟩
    · exact valid_topic ht
  have hnewDuration : (minDurationMinutes ≤ (resolved.map Prod.fst).getD m.durationMinutes ∧
      (resolved.map Prod.fst).getD m.durationMinutes ≤ maxDurationMinutes) ∧
      (host.plan = .basic → (resolved.map Prod.fst).getD m.durationMinutes ≤
          basicPlanDurationCap) := by
    rcases mapM_cases hduration with ⟨-, rfl⟩ | ⟨minutes, ⟨stored, clamped⟩, -, hstored, rfl⟩
    · exact ⟨hvalid.duration, hvalid.plan host rfl⟩
    · exact valid_duration hstored
  have hnewEncryption : changes.encryption.getD m.encryption ∈ encryptionModes := by
    rcases mapM_cases hencryption with ⟨hnone, -⟩ | ⟨encryption, u, hsome, hu, -⟩
    · rw [hnone]
      exact hvalid.encryption
    · rw [hsome]
      exact validateEncryption_eq_ok.mp hu
  exact {
    trimmed := hnewTopic.1
    topic := hnewTopic.2
    duration := hnewDuration.1
    plan := fun u hu hbasic => by
      obtain rfl := Option.some.inj hu
      exact hnewDuration.2 hbasic
    encryption := hnewEncryption }

theorem updateMeeting_checked {meetingNumber : String} {changes : MeetingChanges}
    (h : updateMeeting db meetingNumber host changes now = .ok (v, db')) :
    ∃ m topic start duration, db.meetingByNumber meetingNumber = some m ∧ m.hostId = host.id ∧
      validateChanges host changes now = .ok (topic, start, duration) ∧
      v = serializeMeeting db (m.edit changes topic start duration) ∧
      db' = db.updateMeetingRow m.id (·.edit changes topic start duration) fun m =>
        m.edit_id .. := by
  rw [updateMeeting_eq] at h
  obtain ⟨m, hm, h⟩ := Service.bind_eq_ok.mp h
  obtain ⟨_, hhost, h⟩ := Service.bind_eq_ok.mp h
  obtain ⟨_, -, h⟩ := Service.bind_eq_ok.mp h
  obtain ⟨⟨topic, start, duration⟩, hchecked, h⟩ := Service.bind_eq_ok.mp h
  obtain ⟨rfl, rfl⟩ := Prod.mk.inj (Service.pure_eq_ok.mp h)
  exact ⟨m, topic, start, duration, getByNumber_eq_ok.mp hm, Service.require_eq_ok.mp hhost,
    hchecked, rfl, rfl⟩

/-- An edit keeps the stored rows valid. -/
theorem updateMeeting_valid {meetingNumber : String} {changes : MeetingChanges}
    (hvalid : db.MeetingsValid)
    (hhost : db.getUser host.id = some host)
    (h : updateMeeting db meetingNumber host changes now = .ok (v, db')) :
    db'.MeetingsValid := by
  obtain ⟨m, topic, start, duration, hm, hown, hchecked, -, rfl⟩ := updateMeeting_checked h
  intro n' hn'
  obtain ⟨n, hn, rfl⟩ := Db.mem_updateMeetingRow.mp hn'
  have hold := hvalid n hn
  split
  · next hid =>
    -- the row with that id is the host's own
    obtain rfl := Keyed.eq_of_key_eq hn (mem_of_meetingByNumber hm) hid
    rw [hown, hhost] at hold
    show Meeting.Valid _ (db.getUser n.hostId)
    rw [hown, hhost]
    exact hold.edit hchecked
  · exact hold

/-- Nothing is stored for a change that is not given. -/
theorem mapM_eq_none {α β : Type} {change : Option α} {check : α → Service β} {checked : Option β}
    (h : change.mapM check = .ok checked) (hnone : change = none) : checked = none := by
  rw [hnone] at h
  exact (Except.ok.inj h).symm

/-- A column that `changes` does not name keeps its value. -/
theorem getD_none {α : Type} {change : Option α} {old : α} (hnone : change = none) :
    change.getD old = old := by
  rw [hnone, Option.getD_none]

/-- An edit that passes its checks writes the columns it names. -/
theorem edit_editedBy {changes : MeetingChanges} {topic : Option String} {start : Option DateTime}
    {duration : Option Int} (h : validateChanges host changes now = .ok (topic, start, duration))
    (m : Meeting) :
    m.EditedBy (m.edit changes topic start duration) changes := by
  simp only [validateChanges, Service.bind_eq_ok, Service.pure_eq_ok, Prod.mk.injEq] at h
  obtain ⟨topic, htopic, start, hstart, resolved, hduration, -, -, rfl, rfl, rfl⟩ := h
  exact {
    id := rfl, meetingNumber := rfl, hostId := rfl, passcode := rfl,
      inviteToken := rfl, status := rfl
    usePmi := rfl, startedAt := rfl, endedAt := rfl, createdAt := rfl
    topic := fun hnone => getD_none (mapM_eq_none htopic hnone)
    description := getD_none
    scheduledStart := fun hnone => by
      rw [mapM_eq_none hstart hnone]
      rfl
    durationMinutes := fun hnone => by
      rw [mapM_eq_none hduration hnone]
      rfl
    timezone := getD_none
    waitingRoom := getD_none
    hostVideoOn := getD_none
    participantVideoOn := getD_none
    allowTranscription := getD_none
    chatBeforeAfter := getD_none
    encryption := getD_none }

/-- An edit changes one row, in the columns it names. -/
theorem updateMeeting_edits {meetingNumber : String} {changes : MeetingChanges}
    (h : updateMeeting db meetingNumber host changes now = .ok (v, db')) :
    ∃ m m', db.meetingByNumber meetingNumber = some m ∧ v.meeting = m' ∧
      db.Edits db' m m' changes := by
  obtain ⟨m, topic, start, duration, hm, -, hchecked, rfl, rfl⟩ := updateMeeting_checked h
  refine ⟨m, m.edit changes topic start duration, hm, rfl, edit_editedBy hchecked m, ?_, rfl⟩
  refine List.map_congr_left fun n hn => ?_
  split
  · next hid => rw [Keyed.eq_of_key_eq hn (mem_of_meetingByNumber hm) hid]
  · rfl

end Stored

theorem next_valid {db : Db} (hvalid : db.MeetingsValid) (r : MeetingRequest) :
    (MeetingRequest.next db r).MeetingsValid := by
  rw [MeetingRequest.next, settles_request]
  cases hservice : r.service db with
  | error e => exact hvalid
  | ok result =>
    obtain ⟨v, db'⟩ := result
    have hown {userId : UserId} {host : User} (h : currentFullUser db userId = .ok host) :
        db.getUser host.id = some host := by
      have hget := (currentFullUser_eq_ok.mp h).1
      rwa [(Keyed.find?_eq_some.mp hget).2]
    cases r with
    | create userId req draws now =>
      obtain ⟨host, hhost, hcreate⟩ := Service.bind_eq_ok.mp hservice
      exact createMeeting_valid hvalid (hown hhost) hcreate
    | update userId meetingNumber changes now =>
      obtain ⟨host, hhost, hupdate⟩ := Service.bind_eq_ok.mp hservice
      exact updateMeeting_valid hvalid (hown hhost) hupdate

/-- Each request is all or nothing, and each edit changes what it names. -/
theorem handled (db : Db) (r : MeetingRequest) : r.Handled db where
  atomic := by
    intro e db' h
    rw [settles_request] at h
    cases hservice : r.service db with
    | ok result =>
      rw [hservice] at h
      cases h
    | error e' =>
      rw [hservice] at h
      exact (Prod.mk.inj h).2.symm
  framed := by
    rintro userId meetingNumber changes now v db' rfl h
    rw [settles_request, Service.settle_eq_ok] at h
    obtain ⟨host, -, hupdate⟩ := Service.bind_eq_ok.mp h
    exact updateMeeting_edits hupdate

/-- **Stored meetings stay valid, and requests are handled whole.**  In every run of creates
and edits, each in its own session, every row is valid in every state, what raises commits
nothing, and an edit that does not changes only the columns it names. -/
theorem stored_meetings_valid {db : Db} (hvalid : db.MeetingsValid)
    (requests : List MeetingRequest) :
    Runs.Always MeetingRequest.next Db.MeetingsValid db requests ∧
      Runs.Guarded MeetingRequest.next (fun db r => r.Handled db) db requests :=
  ⟨Runs.always_of_step hvalid (fun _ r h => next_valid h r) requests, fun _ r _ => handled _ r⟩

/-- A host on the basic plan. -/
def basicHost : User :=
  { id := "ada", email := "ada@example.com", name := "Ada", personalMeetingId := "10000000001" }

/-- One scheduled meeting of that host. -/
def plannedRoom : Db where
  users := Keyed.empty.insert basicHost List.not_mem_nil
  meetings := Keyed.empty.insert ⟨"m", "89590250750", "ada", "Standup", none, some 100,
    30, "UTC", "hRtz4K", "tok",
    .scheduled, false, true, true, true, false, true, "enhanced", none, none, 0⟩ List.not_mem_nil

/-- A new topic, with a duration that is too short behind it; then a duration over the cap. -/
def twoEdits : List MeetingRequest :=
  [.update "ada" "895 9025 0750" { topic := some " Retro ", durationMinutes := some 5 } 30,
   .update "ada" "895 9025 0750" { durationMinutes := some 60 } 40]

/-- Both edits are handled whole. -/
theorem two_edits_handled : Runs.Always MeetingRequest.next Db.MeetingsValid plannedRoom twoEdits ∧
    Runs.Guarded MeetingRequest.next (fun db r => r.Handled db) plannedRoom twoEdits := by
  refine stored_meetings_valid ?_ twoEdits
  intro m hm
  obtain rfl := List.mem_singleton.mp hm
  exact ⟨by decide, by decide, by decide, fun _ _ _ => by decide, by decide⟩

end ZoomClone
