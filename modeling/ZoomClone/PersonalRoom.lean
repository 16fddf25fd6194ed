/-
Personal rooms.

`create_meeting` with `use_pmi` stores the meeting under the personal number of its
host.  The unique index on the number spans meetings of every status, and no row is
ever deleted.

* `createMeeting_personal_iff` — a create that is valid otherwise goes through exactly
  if no meeting at all is stored under the number;
* `personal_taken` — so it goes through once;
* `reusable_iff` — when a collision means that the room is live.
-/
import ZoomClone.MeetingNumbers
import ZoomClone.TwoEndings

namespace ZoomClone

/-- Nothing but the number is in the way of a create under the personal number: it
passes its checks, and the drawn id and invite token are free. -/
structure OtherwiseValid (db : Db) (host : User) (req : MeetingCreate) (draws : CreateDraws)
    (now : DateTime) : Prop where
  accepted : CreateAccepted db host req draws now
  id : draws.ids 0 ∉ db.meetings.keys
  inviteToken : ∀ m ∈ db.meetings, m.inviteToken ≠ draws.inviteToken

/-- A meeting stored under the personal number of the host, whatever its status. -/
def Db.OnPersonal (db : Db) (host : User) (m : Meeting) : Prop :=
  m ∈ db.meetings ∧ m.meetingNumber = host.personalMeetingId

section Create

variable {db : Db} {host : User} {req : MeetingCreate} {draws : CreateDraws} {now : DateTime}

theorem insertNewMeeting_personal (h : OtherwiseValid db host req draws now)
    (hpmi : req.usePmi = true)
    (topic : String) (start : Option DateTime) (duration : Int) :
    (∃ r, insertNewMeeting db host req.usePmi (newMeeting host req draws now topic start duration)
      draws.numbers = .ok r) ↔ ∀ m, ¬ db.OnPersonal host m := by
  rw [insertNewMeeting, if_pos hpmi]
  constructor
  · rintro ⟨r, hr⟩ m ⟨hm, hnumber⟩
    cases hins : db.insertMeeting (newMeeting host req draws now topic start duration 0
        host.personalMeetingId) with
    | error e =>
      rw [hins] at hr
      cases hr
    | ok db' =>
      obtain ⟨-, -, hnew⟩ := Db.insertMeeting_ok hins
      exact (hnew m hm).1 hnumber
  · intro hfree
    obtain ⟨db', hins⟩ := insertMeeting_isOk.mpr
      (show (newMeeting host req draws now topic start duration 0 host.personalMeetingId).id ∉
          db.meetings.keys ∧ ∀ n ∈ db.meetings, n.meetingNumber ≠ host.personalMeetingId ∧
            n.inviteToken ≠ draws.inviteToken from
        ⟨h.id, fun n hn => ⟨fun hnumber => hfree n ⟨hn, hnumber⟩, h.inviteToken n hn⟩⟩)
    exact ⟨_, by rw [hins]; rfl⟩

/-- A create that is valid otherwise goes through exactly if the number is free. -/
theorem createMeeting_personal_iff (h : OtherwiseValid db host req draws now)
    (hpmi : req.usePmi = true) :
    (∃ v db', createMeeting db host req draws now = .ok (v, db')) ↔
      ∀ m, ¬ db.OnPersonal host m := by
  constructor
  · rintro ⟨v, db', hcreate⟩
    simp only [createMeeting, Service.bind_eq_ok] at hcreate
    obtain ⟨topic, -, start, -, ⟨duration, clamped⟩, -, -, -, r, hr, -⟩ := hcreate
    exact (insertNewMeeting_personal h hpmi topic start duration).mp ⟨r, hr⟩
  · intro hfree
    obtain ⟨⟨topic, htopic⟩, ⟨start, hstart⟩, ⟨⟨minutes, clamped⟩, hminutes⟩, ⟨u, hu⟩,
      ⟨db₀, hinv₀⟩⟩ := h.accepted
    obtain ⟨⟨row, db₁⟩, hm⟩ := (insertNewMeeting_personal h hpmi topic start minutes).mpr hfree
    obtain ⟨-, hins⟩ := insertNewMeeting_ok hm
    obtain ⟨db₂, hinv⟩ := insertInvitees_of_keys (insertMeeting_invitees hins) hinv₀
    refine ⟨{ serializeMeeting db₂ row with durationClamped := clamped }, db₂, ?_⟩
    simp only [createMeeting, Service.bind_eq_ok, Service.pure_eq_ok]
    exact ⟨topic, htopic, start, hstart, (minutes, clamped), hminutes, u, hu,
      (row, db₁), hm, db₂, hinv, rfl⟩

/-- The collision surfaces as the violated index. -/
theorem createMeeting_collision_iff (h : OtherwiseValid db host req draws now)
    (hpmi : req.usePmi = true) :
    createMeeting db host req draws now = .error .integrity ↔ ∃ m, db.OnPersonal host m := by
  constructor
  · intro herror
    by_contra hfree
    obtain ⟨v, db', hok⟩ := (createMeeting_personal_iff h hpmi).mpr (not_exists.mp hfree)
    rw [hok] at herror
    cases herror
  · rintro ⟨m, hm, hnumber⟩
    obtain ⟨⟨topic, htopic⟩, ⟨start, hstart⟩, ⟨⟨minutes, clamped⟩, hminutes⟩, ⟨u, hu⟩, -⟩ :=
      h.accepted
    have hins : db.insertMeeting (newMeeting host req draws now topic start minutes 0
        host.personalMeetingId) = .error .integrity := by
      rw [Db.insertMeeting, if_pos]
      simp only [List.any_eq_true, Bool.or_eq_true, decide_eq_true_eq]
      exact ⟨m, hm, .inl hnumber⟩
    simp only [createMeeting, htopic, hstart, hminutes, hu, bind,
      Except.bind, insertNewMeeting, hpmi,
      if_true, hins]
    rfl

end Create

/-! ### The number over a run -/

/-- A meeting keeps the personal number it is stored under. -/
theorem onPersonal_apply {db : Db} {host : User} (h : ∃ m, db.OnPersonal host m) (op : Operation) :
    ∃ m, (db.apply op).OnPersonal host m := by
  obtain ⟨m, hm, hnumber⟩ := h
  obtain ⟨f, added, hmove⟩ := apply_meetings db op
  exact ⟨f m, hmove.mem.mpr (.inl ⟨m, hm, rfl⟩), (hmove.moves m hm).meetingNumber.trans hnumber⟩

/-- **A personal room can be opened once.**  After the first meeting under the number
every further create collides, whatever was done to that meeting. -/
theorem personal_taken {db : Db} {host : User} (h : ∃ m, db.OnPersonal host m)
    (ops : List Operation) :
    ∃ m, (Runs.run Db.apply db ops).OnPersonal host m :=
  (Runs.always_of_step (I := fun db : Db => ∃ m, db.OnPersonal host m) h
    (fun _ op h => onPersonal_apply h op) ops).last

/-- **Reusing a personal room.**  In every database that the operations reach, a
collision under the personal number means that a live meeting has it, exactly if no
meeting that is not live is stored under it. -/
theorem reusable_iff (ops : List Operation) {host : User}
    {req : MeetingCreate} {draws : CreateDraws}
    {now : DateTime} (hpmi : req.usePmi = true)
    (h : OtherwiseValid (Runs.run Db.apply .empty ops) host req draws now) :
    (createMeeting (Runs.run Db.apply .empty ops) host req draws now = .error .integrity →
        ∃ m, (Runs.run Db.apply .empty ops).OnPersonal host m ∧ m.status = .live) ↔
      ∀ m, (Runs.run Db.apply .empty ops).OnPersonal host m → m.status = .live := by
  rw [createMeeting_collision_iff h hpmi]
  constructor
  · intro hlive m hm
    obtain ⟨n, hn, hstatus⟩ := hlive ⟨m, hm⟩
    -- only one meeting has the number
    have hdistinct := (always_numbered ops).last.distinct
    rw [hdistinct m hm.1 n hn.1 (hm.2.trans hn.2.symm)]
    exact hstatus
  · rintro hall ⟨m, hm⟩
    exact ⟨m, hm, hall m hm⟩

def roomOwner : User :=
  { id := "host", googleId := some "g-host", email := "ada@example.com", name := "ada"
    personalMeetingId := "10000000001" }

/-- The owner signs in and opens the personal room. -/
def openRoom : List Operation :=
  [.request (.signInGoogle { sub := "g-host", email := some "ada@example.com" }
      ⟨"host", "", fun _ => (0, 1)⟩),
   .request (.createMeeting "host" { usePmi := true }
      { passcode := "hRtz4K", inviteToken := "tok", ids := fun _ => "m"
        numbers := fun _ => (0, 3), inviteeIds := fun _ => "" } 10)]

/-- The draws of the next create. -/
def nextDraws : CreateDraws where
  passcode := "pQ7w2x"
  inviteToken := "tok2"
  ids := fun _ => "m2"
  numbers := fun _ => (0, 4)
  inviteeIds := fun _ => ""

theorem openRoom_valid (ops : List Operation) (hops : ops = openRoom ∨
    ops = openRoom ++ [.request (.endMeeting "host" "10000000001" 20)]) :
    OtherwiseValid (Runs.run Db.apply .empty ops) roomOwner { usePmi := true } nextDraws 30 := by
  refine ⟨⟨⟨_, rfl⟩, ⟨none, rfl⟩, ⟨_, rfl⟩, ⟨_, rfl⟩, ⟨_, rfl⟩⟩, ?_, ?_⟩ <;>
    rcases hops with rfl | rfl <;> decide +kernel

/-- While the room is live, the next create collides with a live meeting. -/
theorem reusable_iff_live :
    createMeeting (Runs.run Db.apply .empty openRoom) roomOwner { usePmi := true } nextDraws 30 =
        .error .integrity ∧
      ∃ m, (Runs.run Db.apply .empty openRoom).OnPersonal roomOwner m ∧ m.status = .live := by
  have hvalid := openRoom_valid openRoom (.inl rfl)
  have hlive : ∀ m ∈ (Runs.run Db.apply .empty openRoom).meetings, m.status = .live := by
    decide +kernel
  have hstored : ∃ m ∈ (Runs.run Db.apply .empty openRoom).meetings.rows,
      m.meetingNumber = roomOwner.personalMeetingId := by
    decide +kernel
  have hcollides := (createMeeting_collision_iff hvalid rfl).mpr hstored
  exact ⟨hcollides, (reusable_iff openRoom rfl hvalid).mpr (fun m hm => hlive m hm.1) hcollides⟩

/-- Once it has ended, the room cannot be opened again. -/
theorem ended_room_collides : ¬ ∀ (ops : List Operation) (host : User) (req : MeetingCreate)
    (draws : CreateDraws) (now : DateTime), req.usePmi = true →
      OtherwiseValid (Runs.run Db.apply .empty ops) host req draws now →
        createMeeting (Runs.run Db.apply .empty ops) host req draws now = .error .integrity →
          ∃ m, (Runs.run Db.apply .empty ops).OnPersonal host m ∧ m.status = .live := by
  intro h
  have hvalid := openRoom_valid _ (.inr rfl)
  have hended : ∀ m ∈ (Runs.run Db.apply .empty
      (openRoom ++ [.request (.endMeeting "host" "10000000001" 20)])).meetings,
          m.status = .ended := by
    decide +kernel
  have hstored : ∃ m ∈ (Runs.run Db.apply .empty
      (openRoom ++ [.request (.endMeeting "host" "10000000001" 20)])).meetings.rows,
        m.meetingNumber = roomOwner.personalMeetingId := by
    decide +kernel
  have hcollides := (createMeeting_collision_iff hvalid rfl).mpr hstored
  obtain ⟨m, ⟨hm, -⟩, hlive⟩ := h _ _ _ _ _ rfl hvalid hcollides
  rw [hended m hm] at hlive
  cases hlive

end ZoomClone
