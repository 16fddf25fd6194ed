/-
What an operation makes of the meeting rows, and on whose behalf.

`Change` says what a transaction can do to the tables.  Here it is said row by
row, with the grounds on which a row may move:

* `Operation.time`, `Operation.organizer` — the clock an operation reads, and
  the user it acts for: the one behind the token of a request, or the one of the
  row that sends `host.end`;
* `Meeting.Moves` — what becomes of one meeting row.  The organizer is its host in
  every case but `kept`;
* `runOperation_meetings` — every committed operation moves each meeting row and
  adds at most one.
-/
import ZoomClone.Rows

namespace ZoomClone

/-! ### The clock and the organizer of an operation -/

/-- The user behind the token; a sign-in has none yet. -/
def Request.userId : Request → Option UserId
  | .signInGuest _ _ => none
  | .signInGoogle _ _ => none
  | .updateProfile userId _ _ => some userId
  | .savePreferences userId _ _ => some userId
  | .createMeeting userId _ _ _ => some userId
  | .updateMeeting userId _ _ _ => some userId
  | .cancelMeeting userId _ => some userId
  | .startMeeting userId _ _ => some userId
  | .endMeeting userId _ _ => some userId
  | .joinMeeting userId _ _ _ _ => some userId
  | .updateParticipant userId _ _ => some userId
  | .removeParticipant userId _ _ => some userId

/-- What `utcnow` returns to a request that reads it. -/
def Request.time : Request → Option DateTime
  | .createMeeting _ _ _ now => some now
  | .updateMeeting _ _ _ now => some now
  | .startMeeting _ _ now => some now
  | .endMeeting _ _ now => some now
  | .joinMeeting _ _ _ _ now => some now
  | .removeParticipant _ _ now => some now
  | _ => none

def Operation.time : Operation → Option DateTime
  | .request r => r.time
  | .leaveMeeting _ now => some now
  | .releaseConnection _ _ now => some now
  | .postMessage _ _ _ _ now => some now
  | .hostRemove _ _ now => some now
  | .hostEndMeeting _ now => some now
  | _ => none

/-- The user on whose behalf an operation may write meetings. -/
def Operation.organizer (db : Db) : Operation → Option UserId
  | .request r => r.userId
  | .hostEndMeeting actorId _ => (db.getParticipant actorId).bind Participant.userId
  | _ => none

/-! ### One row -/

/-- What an operation may make of a meeting row. -/
inductive Meeting.Moves (db : Db) (op : Operation) (m : Meeting) : Meeting → Prop
  | kept : Moves db op m m
  | edited (changes : MeetingChanges) (topic : Option String) (start : Option DateTime)
      (duration : Option Int) (ha : op.organizer db = some m.hostId) (hs : m.status = .scheduled) :
      Moves db op m (m.edit changes topic start duration)
  | cancelled (ha : op.organizer db = some m.hostId) (hs : m.status = .scheduled) :
      Moves db op m m.cancel
  | started (now : DateTime) (ha : op.organizer db = some m.hostId) (ht : op.time = some now)
      (hs : m.status = .scheduled ∨ m.status = .ended) : Moves db op m (m.goLive now)
  /-- Either the table allows it, or a row with role `host` asks for it. -/
  | ended (now : DateTime) (ha : op.organizer db = some m.hostId) (ht : op.time = some now)
      (hs : m.status = .live ∨ ∃ p ∈ db.participants, p.meetingId = m.id ∧ p.role = .host) :
      Moves db op m (m.finish now)

/-- A meeting row that an operation adds. -/
structure Db.Creates (db : Db) (op : Operation) (m : Meeting) : Prop where
  newId : m.id ∉ db.meetings.keys
  newNumber : ∀ n ∈ db.meetings, n.meetingNumber ≠ m.meetingNumber
  organizer : op.organizer db = some m.hostId
  host : ∃ host, db.getUser m.hostId = some host ∧ host.isGuest = false ∧
    NewNumber host m.meetingNumber
  stamped : ∃ now, op.time = some now ∧ m.endedAt = none ∧
    (m.status = .scheduled ∧ m.scheduledStart ≠ none ∧ m.startedAt = none ∨
      m.status = .live ∧ m.startedAt = some now)

theorem Meeting.Moves.id {db : Db} {op : Operation} {m m' : Meeting} (h : m.Moves db op m') :
    m'.id = m.id := by
  cases h <;> rfl

theorem Meeting.Moves.hostId {db : Db} {op : Operation} {m m' : Meeting} (h : m.Moves db op m') :
    m'.hostId = m.hostId := by
  cases h <;> rfl

theorem Meeting.Moves.meetingNumber {db : Db} {op : Operation} {m m' : Meeting}
    (h : m.Moves db op m') : m'.meetingNumber = m.meetingNumber := by
  cases h <;> rfl

/-! ### All rows -/

/-- The meetings of `db'` are the moved meetings of `db`, with at most one more. -/
structure MeetingsMove (db : Db) (op : Operation) (db' : Db) (f : Meeting → Meeting)
    (added : Option Meeting) : Prop where
  moves : ∀ m ∈ db.meetings, m.Moves db op (f m)
  rows : db'.meetings.rows = db.meetings.rows.map f ++ added.toList
  creates : ∀ m, added = some m → db.Creates op m

section Moves

variable {db db' : Db} {op : Operation}

theorem MeetingsMove.of_eq (h : db'.meetings = db.meetings) : MeetingsMove db op db' id none where
  moves := fun m _ => .kept
  rows := by rw [h, List.map_id, Option.toList_none, List.append_nil]
  creates := by
    intro m hm
    cases hm

/-- An update of one row moves the meetings when it moves that row. -/
theorem MeetingsMove.of_update {m : Meeting} (hm : m ∈ db.meetings) {f : Meeting → Meeting}
    (hf : ∀ m, (f m).id = m.id) (h : db'.meetings = (db.updateMeetingRow m.id f hf).meetings)
    (hmoves : m.Moves db op (f m)) :
    MeetingsMove db op db' (fun n => if n.id = m.id then f n else n) none where
  moves := by
    intro n hn
    split
    · next hid =>
      obtain rfl := Keyed.eq_of_key_eq hn hm hid
      exact hmoves
    · exact .kept
  rows := by
    rw [h, Option.toList_none, List.append_nil]
    rfl
  creates := by
    intro n hn
    cases hn

theorem MeetingsMove.mem {f : Meeting → Meeting} {added : Option Meeting}
    (h : MeetingsMove db op db' f added) {m' : Meeting} :
    m' ∈ db'.meetings ↔ (∃ m ∈ db.meetings, f m = m') ∨ added = some m' := by
  rw [Keyed.mem_def, h.rows, List.mem_append, List.mem_map, Option.mem_toList]
  rfl

/-- A meeting after the operation was moved there by it, or created. -/
theorem MeetingsMove.cases {f : Meeting → Meeting} {added : Option Meeting}
    (h : MeetingsMove db op db' f added) {m' : Meeting} (hm' : m' ∈ db'.meetings) :
    (∃ m ∈ db.meetings, m.Moves db op m') ∨ db.Creates op m' := by
  rcases h.mem.mp hm' with ⟨m, hm, rfl⟩ | hadded
  · exact .inl ⟨m, hm, h.moves m hm⟩
  · exact .inr (h.creates m' hadded)

/-! ### Every operation -/

/-- The user a route runs for. -/
theorem id_of_currentUser {userId : UserId} {u : User} (h : currentUser db userId = .ok u) :
    u.id = userId :=
  Keyed.key_of_find? (currentUser_eq_ok.mp h)

theorem id_of_currentFullUser {userId : UserId} {u : User}
    (h : currentFullUser db userId = .ok u) : u.id = userId :=
  Keyed.key_of_find? (currentFullUser_eq_ok.mp h).1

/-- `live` is a target of `scheduled` and of `ended` only. -/
theorem live_mem_allowedTargets {status : MeetingStatus} :
    .live ∈ allowedTargets status ↔ status = .scheduled ∨ status = .ended := by
  cases status <;> simp [allowedTargets]

/-- `ended` is a target of `live` only. -/
theorem ended_mem_allowedTargets {status : MeetingStatus} :
    .ended ∈ allowedTargets status ↔ status = .live := by
  cases status <;> simp [allowedTargets]

theorem createMeeting_creates {host : User} {req : MeetingCreate} {draws : CreateDraws}
    {now : DateTime} {v : MeetingView} (h : createMeeting db host req draws now = .ok (v, db'))
    (hhost : db.getUser host.id = some host) (hguest : host.isGuest = false)
    (ha : op.organizer db = some host.id) (ht : op.time = some now) :
    ∃ m, MeetingsMove db op db' id (some m) := by
  obtain ⟨topic, start, duration, k, number, db₁, hnumber, hins, hsame⟩ := createMeeting_ok h
  obtain ⟨hid, rfl, hnew⟩ := Db.insertMeeting_ok hins
  refine ⟨newMeeting host req draws now topic start duration k number, fun m _ => .kept, ?_, ?_⟩
  · rw [hsame.meetings, List.map_id]
    rfl
  · intro m hm
    obtain rfl := Option.some.inj hm
    refine ⟨hid, fun n hn => (hnew n hn).1, ha, ⟨host, hhost, hguest, hnumber⟩, now, ht, rfl, ?_⟩
    cases start with
    | none => exact .inr ⟨rfl, rfl⟩
    | some t => exact .inl ⟨rfl, Option.some_ne_none t, rfl⟩

/-- A join moves its meeting to `live` when its host finds it scheduled, and
leaves the meetings alone otherwise. -/
theorem commitJoin_meetings {meeting : Meeting} {user : User} {req : JoinRequest}
    {draws : JoinDraws} {now : DateTime} {r : JoinResponse} (hm : meeting ∈ db.meetings)
    (hs : meeting.status ≠ .ended ∧ meeting.status ≠ .cancelled)
    (h : commitJoin db meeting user req draws now = .ok (r, db'))
    (ha : op.organizer db = some user.id) (ht : op.time = some now) :
    ∃ f, MeetingsMove db op db' f none := by
  obtain ⟨-, -, hmeetings, -⟩ := commitJoin_ok h
  rw [Db.welcomeHost] at hmeetings
  split at hmeetings
  · next hhost =>
    obtain ⟨hhost, hlive⟩ := hhost
    have hscheduled : meeting.status = .scheduled := by
      cases hstatus : meeting.status <;> simp_all
    rw [← hhost] at ha
    exact ⟨_, .of_update hm (Meeting.goLive_id · now) hmeetings
      (.started now ha ht (.inl hscheduled))⟩
  · exact ⟨_, .of_eq hmeetings⟩

/-- **What an operation makes of the meetings.**  Every row moves as
`Meeting.Moves` allows, and at most one row is added. -/
theorem runOperation_meetings (h : runOperation db op = .ok db') :
    ∃ f added, MeetingsMove db op db' f added := by
  have hsame (h : db.SameRooms db') : ∃ f added, MeetingsMove db op db' f added :=
    ⟨_, _, .of_eq h.meetings⟩
  cases runOperation_commits h with
  | signInGuest h => exact hsame (createGuest_ok h)
  | signInGoogle h => exact hsame (upsertGoogleUser_ok h)
  | updateProfile huser h => exact hsame (updateProfile_ok h)
  | postMessage h =>
    obtain ⟨-, p, -, -, hins, -⟩ := postMessage_eq_ok.mp h
    exact hsame (Db.insertMessage_ok hins)
  | @createMeeting _ req draws now host v _ huser hcreate =>
    obtain rfl := id_of_currentFullUser huser
    obtain ⟨hget, hguest⟩ := currentFullUser_eq_ok.mp huser
    have ha : Operation.organizer db (.request (.createMeeting host.id req draws now)) =
      some host.id := rfl
    obtain ⟨m, hm⟩ := createMeeting_creates hcreate hget hguest ha rfl
    exact ⟨id, some m, hm⟩
  | @updateMeeting userId _ changes _ host m topic start duration huser hm hhost hs =>
    have ha : some userId = some m.hostId := by rw [hhost, id_of_currentFullUser huser]
    exact ⟨_, _, .of_update (mem_of_meetingByNumber hm) (fun m => m.edit_id ..) rfl
      (.edited changes topic start duration ha hs)⟩
  | @cancelMeeting userId _ host m huser hm hhost hs =>
    have ha : some userId = some m.hostId := by rw [hhost, id_of_currentFullUser huser]
    exact ⟨_, _, .of_update (mem_of_meetingByNumber hm) Meeting.cancel_id rfl (.cancelled ha hs)⟩
  | @startMeeting userId _ now host m huser hm hhost hs =>
    have ha : some userId = some m.hostId := by rw [hhost, id_of_currentFullUser huser]
    exact ⟨_, _, .of_update (mem_of_meetingByNumber hm) (Meeting.goLive_id · now) rfl
      (.started now ha rfl (live_mem_allowedTargets.mp hs))⟩
  | @endMeeting userId _ now host m huser hm hhost hs =>
    have ha : some userId = some m.hostId := by rw [hhost, id_of_currentFullUser huser]
    exact ⟨_, _, .of_update (mem_of_meetingByNumber hm) (Meeting.finish_id · now) rfl
      (.ended now ha rfl (.inl (ended_mem_allowedTargets.mp hs)))⟩
  | @joinMeeting _ meetingNumber req draws now _ _ user m huser hcheck hcommit =>
    obtain ⟨hm, hs, -, -⟩ := checkJoin_eq_ok.mp hcheck
    obtain rfl := id_of_currentUser huser
    have ha : Operation.organizer db (.request (.joinMeeting user.id meetingNumber req draws now)) =
        some user.id := rfl
    obtain ⟨f, hf⟩ := commitJoin_meetings (mem_of_meetingByNumber hm) hs hcommit ha rfl
    exact ⟨f, none, hf⟩
  | @hostEndMeeting actorId now actor m hactor hm =>
    obtain ⟨hget, hrole, huser⟩ := requireHost_eq_ok.mp hm
    have hrow := actorRow_eq_ok.mp hactor
    have ha : Operation.organizer db (.hostEndMeeting actorId now) = some m.hostId := by
      rw [Operation.organizer, hrow, huser]
      rfl
    -- The acting row itself is the host row of the meeting.
    have hs : ∃ p ∈ db.participants, p.meetingId = m.id ∧ p.role = .host :=
      ⟨actor, getParticipant_mem hrow, (Keyed.key_of_find? hget).symm, hrole⟩
    exact ⟨_, _, .of_update (getMeeting_mem hget) (Meeting.finish_id · now) rfl
      (.ended now ha rfl (.inr hs))⟩
  | _ => exact ⟨_, _, .of_eq rfl⟩

theorem apply_meetings (db : Db) (op : Operation) :
    ∃ f added, MeetingsMove db op (db.apply op) f added := by
  cases h : runOperation db op with
  | error e => exact ⟨_, _, .of_eq (by rw [Db.apply, h])⟩
  | ok db' =>
    rw [apply_of_ok h]
    exact runOperation_meetings h

/-- A row keeps its key, so what is in the table afterwards under the key of an
old row is what that row moved to. -/
theorem moves_apply {m m' : Meeting} (hm : m ∈ db.meetings) (hm' : m' ∈ (db.apply op).meetings)
    (hid : m'.id = m.id) : m.Moves db op m' := by
  obtain ⟨f, added, h⟩ := apply_meetings db op
  rcases h.mem.mp hm' with ⟨n, hn, rfl⟩ | hadded
  · have hmoves := h.moves n hn
    obtain rfl := Keyed.eq_of_key_eq hn hm (hmoves.id.symm.trans hid)
    exact hmoves
  · exact absurd (hid ▸ Keyed.key_mem_keys hm) (h.creates m' hadded).newId

end Moves

end ZoomClone
