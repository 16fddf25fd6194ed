/-
Whose meetings a listing depends on.

The page query is restricted to the host, but the anchor of a cursor is looked up
among the meetings of everybody.

* `listForHost_congr` — without a cursor, or with one that names a meeting of the
  host, a listing depends on the host's meetings only;
* `own_listing_iff` — and in no other case, unless the request fails before it comes
  to the cursor.
-/
import ZoomClone.Listing

namespace ZoomClone

/-- The databases agree on the users, on the meetings of the host and on their
participants. -/
structure AgreeFor (host : UserId) (db db' : Db) : Prop where
  users : db'.users = db.users
  meetings : ∀ m, m.hostId = host → (m ∈ db'.meetings ↔ m ∈ db.meetings)
  participants : ∀ m ∈ db.meetings, m.hostId = host →
    ∀ p, p.meetingId = m.id → (p ∈ db'.participants ↔ p ∈ db.participants)

/-- A listing that asks for no row of another host: there is no cursor, or the request
fails before it, or the cursor names a meeting of the host. -/
def AsksOwn (db : Db) (host : User) (filter : String) (date cursor : Option String) : Prop :=
  given cursor = none ∨ (∃ e, readFilter filter date = .error e) ∨
    ∃ m ∈ db.meetings, given cursor = some m.id ∧ m.hostId = host.id

section Agree

variable {db db' : Db} {host : User}

/-- The participants of a meeting are counted alike. -/
theorem AgreeFor.activeParticipantCount (h : AgreeFor host.id db db') {m : Meeting}
    (hm : m ∈ db.meetings) (hhost : m.hostId = host.id) :
    activeParticipantCount db' m.id = ZoomClone.activeParticipantCount db m.id := by
  have hnodup (db : Db) : (db.activeRows m.id).Nodup :=
    (List.Nodup.of_map _ db.participants.nodup).filter _
  refine ((List.perm_ext_iff_of_nodup (hnodup db') (hnodup db)).mpr fun p => ?_).length_eq
  rw [Db.mem_activeRows, Db.mem_activeRows]
  constructor
  · rintro ⟨hp, hmeeting, hopen⟩
    exact ⟨(h.participants m hm hhost p hmeeting).mp hp, hmeeting, hopen⟩
  · rintro ⟨hp, hmeeting, hopen⟩
    exact ⟨(h.participants m hm hhost p hmeeting).mpr hp, hmeeting, hopen⟩

theorem AgreeFor.serializeMeeting (h : AgreeFor host.id db db') {m : Meeting} (hm : m ∈ db.meetings)
    (hhost : m.hostId = host.id) : serializeMeeting db' m = ZoomClone.serializeMeeting db m := by
  simp only [ZoomClone.serializeMeeting, hostSummary, Db.getUser, h.users,
    h.activeParticipantCount hm hhost]

theorem AgreeFor.cutPage (h : AgreeFor host.id db db') {limit : ℕ} {rows : List Meeting}
    (hrows : ∀ m ∈ rows, m ∈ db.meetings ∧ m.hostId = host.id) :
    cutPage db' limit rows = ZoomClone.cutPage db limit rows := by
  have hitems : ((rows.take (limit + 1)).take limit).map (ZoomClone.serializeMeeting db') =
      ((rows.take (limit + 1)).take limit).map (ZoomClone.serializeMeeting db) := by
    refine List.map_congr_left fun m hm => ?_
    obtain ⟨hmem, hhost⟩ := hrows m (List.mem_of_mem_take (List.mem_of_mem_take hm))
    exact h.serializeMeeting hmem hhost
  simp only [ZoomClone.cutPage, hitems]

/-- The clause of a cursor is the same where its anchor is. -/
theorem AgreeFor.cursorClause (h : AgreeFor host.id db db')
    {f : ListFilter} {cursor : Option String}
    (hown : given cursor = none ∨ ∃ m ∈ db.meetings, given cursor = some m.id ∧
      m.hostId = host.id) :
    cursorClause db' f cursor = ZoomClone.cursorClause db f cursor := by
  unfold ZoomClone.cursorClause
  rcases hown with hnone | ⟨m, hm, hcursor, hhost⟩
  · rw [hnone]
  · rw [hcursor]
    have hfound : db.getMeeting m.id = some m := Keyed.find?_of_mem hm
    have hfound' : db'.getMeeting m.id = some m := Keyed.find?_of_mem ((h.meetings m hhost).mpr hm)
    simp only [applyCursor, hfound, hfound']

/-- A listing that asks for no foreign row depends on the host's meetings only. -/
theorem listForHost_congr (h : AgreeFor host.id db db') {filter : String}
    {date cursor : Option String}
    (hown : AsksOwn db host filter date cursor) (limit : Int) (now : DateTime) :
    listForHost db' host filter date limit cursor now =
      listForHost db host filter date limit cursor now := by
  unfold listForHost
  cases hfilter : readFilter filter date with
  | error e => rfl
  | ok f =>
    have hclause : cursorClause db' f cursor = cursorClause db f cursor := by
      rcases hown with hnone | ⟨e, he⟩ | hcursor
      · exact h.cursorClause (.inl hnone)
      · rw [hfilter] at he
        cases he
      · exact h.cursorClause (.inr hcursor)
    simp only [bind, Except.bind, hclause]
    cases cursorClause db f cursor with
    | error e => rfl
    | ok after =>
      simp only [hostRows_congr h.meetings]
      refine congrArg _ (h.cutPage fun m hm => ?_)
      obtain ⟨hmem, hhost, -⟩ := mem_hostRows.mp hm
      exact ⟨hmem, hhost⟩

end Agree

/-! ### A foreign anchor -/

/-- A meeting of somebody else, with a key for every filter. -/
def foreignMeeting (id : MeetingId) (host : UserId) : Meeting :=
  { id, meetingNumber := "", hostId := host ++ "'", topic := "", scheduledStart := some 0
    passcode := "", inviteToken := "", endedAt := some 0, createdAt := 0 }

theorem foreignMeeting_hostId (id : MeetingId) (host : UserId) :
    (foreignMeeting id host).hostId ≠ host := by
  intro h
  have hlength := congrArg String.length h
  simp [foreignMeeting] at hlength

section Foreign

variable {db : Db} {host : User} {filter cursor : String} {date : Option String} {f : ListFilter}
  {limit : Int} {now : DateTime} {o : Option String}

/-- A cursor that names nothing is refused. -/
theorem listForHost_unknown (hfilter : readFilter filter date = .ok f)
    (hcursor : given o = some cursor)
    (h : db.getMeeting cursor = none) : listForHost db host filter date limit o now =
      .error (.app (.validation "Unknown pagination cursor." [("field", .str "cursor")])) := by
  simp [listForHost, hfilter, bind, Except.bind, cursorClause, hcursor,
    applyCursor, h, Service.getOrRaise]

/-- A cursor that names a row is not refused, though its key may be missing. -/
theorem listForHost_known (hfilter : readFilter filter date = .ok f)
    (hcursor : given o = some cursor)
    {m : Meeting} (h : db.getMeeting cursor = some m) :
    listForHost db host filter date limit o now =
      (f.resume m).map fun after => cutPage db (pageLimit limit)
      (hostRows db host f now after) := by
  simp only [listForHost, hfilter, bind, Except.bind, cursorClause, hcursor, applyCursor, h,
    Service.getOrRaise]
  cases f.resume m <;> rfl

theorem resume_ne_app {m : Meeting} {α : Type} {g : (Meeting → Bool) → α} {e : AppError} :
    (f.resume m).map g ≠ .error (.app e) := by
  unfold ListFilter.resume
  split
  · intro h
    cases h
  · intro h
    cases h

end Foreign

/-- Somebody else's meeting may have an id that is free. -/
theorem agreeFor_insert {db : Db} {host : User} {c : MeetingId} (h : db.getMeeting c = none) :
    ∃ db', AgreeFor host.id db db' ∧ db'.getMeeting c = some (foreignMeeting c host.id) := by
  have hid : (foreignMeeting c host.id).id ∉ db.meetings.keys := Keyed.find?_eq_none.mp h
  refine ⟨{ db with meetings := db.meetings.insert _ hid },
    ⟨rfl, fun m hm => ?_, fun _ _ _ _ _ => Iff.rfl⟩,
    Keyed.find?_eq_some.mpr ⟨(Keyed.mem_insert (h := hid)).mpr (.inr rfl), rfl⟩⟩
  rw [Keyed.mem_insert (h := hid), or_iff_left]
  rintro rfl
  exact foreignMeeting_hostId c host.id hm

/-- Somebody else's meeting may be missing. -/
theorem agreeFor_erase {db : Db} {host : User} {m : Meeting} (hm : m ∈ db.meetings)
    (hhost : m.hostId ≠ host.id) : ∃ db', AgreeFor host.id db db' ∧ db'.getMeeting m.id = none := by
  refine ⟨{ db with meetings := db.meetings.erase m.id },
    ⟨rfl, fun n hn => ?_, fun _ _ _ _ _ => Iff.rfl⟩, ?_⟩
  · rw [Keyed.mem_erase, and_iff_left_of_imp]
    intro hmem hid
    exact hhost (Keyed.eq_of_key_eq hmem hm hid ▸ hn)
  · refine Keyed.find?_eq_none.mpr ?_
    rw [Keyed.mem_keys_erase]
    exact fun h => h.2 rfl

/-- **Whose meetings a listing depends on.**  It is the same in every database that
agrees on the host's own meetings exactly when it asks for no row of another host. -/
theorem own_listing_iff (db : Db) (host : User) (filter : String)
    (date : Option String) (limit : Int)
    (cursor : Option String) (now : DateTime) :
    (∀ db', AgreeFor host.id db db' → listForHost db' host filter date limit cursor now =
      listForHost db host filter date limit cursor now) ↔ AsksOwn db host filter date cursor := by
  refine ⟨fun hsame => ?_, fun hown db' hagree => listForHost_congr hagree hown limit now⟩
  cases hcursor : given cursor with
  | none => exact .inl hcursor
  | some c =>
    cases hfilter : readFilter filter date with
    | error e => exact .inr (.inl ⟨e, hfilter⟩)
    | ok f =>
      cases hfound : db.getMeeting c with
      | none =>
        -- a stranger may create a meeting under this id
        obtain ⟨db', hagree, hfound'⟩ := agreeFor_insert hfound
        have heq := hsame db' hagree
        rw [listForHost_unknown hfilter hcursor hfound,
          listForHost_known hfilter hcursor hfound'] at heq
        exact absurd heq resume_ne_app
      | some m =>
        obtain ⟨hm, rfl⟩ := Keyed.find?_eq_some.mp hfound
        by_cases hhost : m.hostId = host.id
        · exact .inr (.inr ⟨m, hm, hcursor, hhost⟩)
        · -- the stranger's meeting may be missing
          obtain ⟨db', hagree, hfound'⟩ := agreeFor_erase hm hhost
          have heq := hsame db' hagree
          rw [listForHost_unknown hfilter hcursor hfound',
            listForHost_known hfilter hcursor hfound] at heq
          exact absurd heq.symm resume_ne_app

/-- A database whose one meeting is hosted by `other`. -/
def othersMeeting : Db :=
  { meetings := Keyed.empty.insert { id := "m", meetingNumber := "10000000003", hostId := "other"
                                     topic := "1:1", passcode := "hRtz4K", inviteToken := "tok"
                                     status := .live, startedAt := some 10, createdAt := 10 }
      List.not_mem_nil }

/-- Whether the cursor of a stranger's meeting is refused depends on that meeting. -/
theorem foreign_cursor_shows : ¬ ∀ db db' : Db, ∀ host : User, AgreeFor host.id db db' →
    listForHost db' host "all" none 20 (some "m") 0 = listForHost db host "all" none 20
      (some "m") 0 := by
  intro h
  let host : User := { id := "host", email := "ada@example.com", name := "Ada"
                       personalMeetingId := "10000000001" }
  have hagree : AgreeFor host.id .empty othersMeeting := by
    refine ⟨rfl, fun m hm => ?_, fun m hm => absurd hm (Keyed.not_mem_empty m)⟩
    refine iff_of_false ?_ (Keyed.not_mem_empty m)
    intro hmem
    obtain rfl := List.mem_singleton.mp hmem
    exact absurd hm (by decide)
  have heq := h .empty othersMeeting host hagree
  cases heq

end ZoomClone
