/-
Phantom participants: open rows in a meeting that is over.

A row is open while its participant is present, so a meeting that is ended or
cancelled should have none (`NoPhantom`).  Of all operations only a cancellation
can leave one: `cancel_meeting` changes the status and evicts nobody, although
anyone with the invite token may sit in a scheduled meeting.

* `noPhantom_apply_iff` — an operation keeps `NoPhantom` exactly when it is not
  the cancellation of a meeting somebody is in;
* `always_noPhantom_iff` — the same for whole runs.
-/
import ZoomClone.Rows
import ZoomClone.Runs

namespace ZoomClone

/-- Ended or cancelled. -/
def Meeting.Over (m : Meeting) : Prop := m.status = .ended ∨ m.status = .cancelled

instance (m : Meeting) : Decidable m.Over := inferInstanceAs (Decidable (_ ∨ _))

/-- No row of a meeting that is over is open. -/
def NoPhantom (db : Db) : Prop :=
  ∀ m ∈ db.meetings, m.Over → ∀ p ∈ db.participants, p.meetingId = m.id → p.leftAt ≠ none

instance (db : Db) : Decidable (NoPhantom db) :=
  inferInstanceAs (Decidable (∀ m ∈ db.meetings.rows, m.Over → ∀ p ∈ db.participants.rows,
    p.meetingId = m.id → p.leftAt ≠ none))

/-- A cancellation that goes through finds nobody in the meeting. -/
def CancelsEmpty (db : Db) : Operation → Prop
  | .request (.cancelMeeting userId meetingNumber) =>
    ∀ u m, db.getUser userId = some u → u.isGuest = false →
      db.meetingByNumber meetingNumber = some m → m.hostId = u.id → m.status = .scheduled →
      db.activeRows m.id = []
  | _ => True

/-! ### One operation -/

/-- Evolving rows keeps every row of a meeting that is over closed. -/
theorem noPhantom_updateRows {db : Db} (hn : NoPhantom db) (q : Participant → Prop)
    [DecidablePred q] (f : Participant → Participant) (hf : ∀ p, (f p).id = p.id)
    (he : ∀ p, q p → p.Evolves (f p)) : NoPhantom (db.updateRows q f hf) := by
  intro m hm hover p' hp' hmeeting
  have h := rowsEvolve_updateRows db q f hf he
  obtain ⟨p, hp, rfl⟩ := Db.mem_updateRows.mp hp'
  have hev := h.evolves p hp
  have hleft : p.leftAt ≠ none := hn m hm hover p hp (hev.meetingId.symm.trans hmeeting)
  rw [hev.leftAt hleft]
  exact hleft

/-- A change of one meeting row that makes no meeting over. -/
theorem noPhantom_updateMeetingRow {db : Db} (hn : NoPhantom db) {id : MeetingId}
    {f : Meeting → Meeting} {hf : ∀ m, (f m).id = m.id} (ho : ∀ m, (f m).Over → m.Over) :
    NoPhantom (db.updateMeetingRow id f hf) := by
  intro m' hm' hover p hp hmeeting
  obtain ⟨m, hm, rfl⟩ := Db.mem_updateMeetingRow.mp hm'
  by_cases h : m.id = id
  · rw [if_pos h] at hover hmeeting
    exact hn m hm (ho m hover) p hp (hmeeting.trans (hf m))
  · rw [if_neg h] at hover hmeeting
    exact hn m hm hover p hp hmeeting

/-- Ending a meeting closes its rows along with it. -/
theorem noPhantom_end {db : Db} (hn : NoPhantom db) (m : Meeting) (now : DateTime) :
    NoPhantom ((db.updateMeetingRow m.id (·.finish now) (Meeting.finish_id · now)).evictAll
      m.id now) := by
  intro m' hm' hover p' hp' hmeeting
  obtain ⟨p, hp, rfl⟩ := Db.mem_updateRows.mp hp'
  by_cases hq : p.meetingId = m.id ∧ p.leftAt = none
  · rw [if_pos hq]
    exact Option.some_ne_none now
  · rw [if_neg hq] at hmeeting ⊢
    have hmodified : m' ∈ (db.updateMeetingRow m.id (·.finish now)
        (Meeting.finish_id · now)).meetings := hm'
    obtain ⟨m₀, hm₀, rfl⟩ := Db.mem_updateMeetingRow.mp hmodified
    by_cases h : m₀.id = m.id
    · -- The meeting that ends: its open rows were the ones evicted.
      rw [if_pos h] at hmeeting
      exact fun hopen => hq ⟨hmeeting.trans h, hopen⟩
    · rw [if_neg h] at hover hmeeting
      exact hn m₀ hm₀ hover p hp hmeeting

/-- No operation but a cancellation makes a phantom. -/
theorem Change.noPhantom {db db' : Db} {op : Operation} (h : Change db op db') (hn : NoPhantom db)
    (hc : ∀ userId number, op ≠ .request (.cancelMeeting userId number)) : NoPhantom db' := by
  cases h with
  | aside h =>
    intro m hm hover p hp hmeeting
    rw [h.meetings] at hm
    rw [h.participants] at hp
    exact hn m hm hover p hp hmeeting
  | created m hid hs hm hp =>
    intro m' hm' hover p hp' hmeeting
    rw [hp] at hp'
    rw [hm, Keyed.mem_insert] at hm'
    rcases hm' with hm' | rfl
    · exact hn m' hm' hover p hp' hmeeting
    · rcases hover with hover | hover <;> simp [hover] at hs
  | edited id f hf hn' hs =>
    refine noPhantom_updateMeetingRow hn ?_
    intro m hover
    rwa [Meeting.Over, hs m] at hover
  | cancelled m hm hs => exact absurd rfl (hc _ _)
  | started m now hm hs =>
    refine noPhantom_updateMeetingRow hn ?_
    intro m' hover
    rcases hover with hover | hover <;> simp [Meeting.goLive] at hover
  | ended m now hm => exact noPhantom_end hn m now
  | joined m user req draws now hm hs hlt hid hsession hp hmeetings =>
    have hwelcome : NoPhantom (db.welcomeHost m user now) := by
      unfold Db.welcomeHost
      split
      · refine noPhantom_updateMeetingRow hn ?_
        intro m' hover
        rcases hover with hover | hover <;> simp [Meeting.goLive] at hover
      · exact hn
    intro m' hm' hover p hp' hmeeting
    rw [hmeetings] at hm'
    rw [hp, Keyed.mem_insert] at hp'
    rcases hp' with hp' | rfl
    · rw [← welcomeHost_participants db m user now] at hp'
      exact hwelcome m' hm' hover p hp' hmeeting
    · -- The new row sits in a meeting that a join accepts.
      unfold Db.welcomeHost at hm'
      split at hm'
      · obtain ⟨m₀, hm₀, rfl⟩ := Db.mem_updateMeetingRow.mp hm'
        split at hover
        · rcases hover with hover | hover <;> simp [Meeting.goLive] at hover
        · next hne =>
          rw [if_neg hne] at hmeeting
          exact absurd hmeeting.symm hne
      · obtain rfl : m = m' := Keyed.eq_of_key_eq hm hm' hmeeting
        exact absurd hover (not_or.mpr hs)
  | media q f hf he hl hc => exact noPhantom_updateRows hn q f hf fun p _ => he p
  | closed p now hp =>
    exact noPhantom_updateRows hn (fun q => q.id = p.id) (·.markLeft now)
      (Participant.markLeft_id · now) fun q _ => q.evolves_markLeft now
  | @bound participantId connectionId =>
    exact noPhantom_updateRows hn (fun q => q.id = participantId) (·.bindTo connectionId)
      (Participant.bindTo_id · connectionId) fun q _ => q.evolves_bind connectionId

/-- A cancellation makes no phantom exactly when nobody is in the meeting. -/
theorem noPhantom_cancel_iff {db : Db} (hn : NoPhantom db) {m : Meeting} (hm : m ∈ db.meetings) :
    NoPhantom (db.updateMeetingRow m.id Meeting.cancel Meeting.cancel_id) ↔
      db.activeRows m.id = [] := by
  constructor
  · intro h
    rw [List.eq_nil_iff_forall_not_mem]
    intro p hp
    obtain ⟨hp, hmeeting, hopen⟩ := Db.mem_activeRows.mp hp
    refine h m.cancel ?_ (.inr rfl) p hp hmeeting hopen
    exact Db.mem_updateMeetingRow.mpr ⟨m, hm, if_pos rfl⟩
  · intro h m' hm' hover p hp hmeeting
    obtain ⟨m₀, hm₀, rfl⟩ := Db.mem_updateMeetingRow.mp hm'
    by_cases hid : m₀.id = m.id
    · rw [if_pos hid] at hmeeting
      intro hopen
      have hactive : p ∈ db.activeRows m.id := Db.mem_activeRows.mpr ⟨hp, hmeeting.trans hid, hopen⟩
      rw [h] at hactive
      cases hactive
    · rw [if_neg hid] at hover hmeeting
      exact hn m₀ hm₀ hover p hp hmeeting

theorem runRequest_cancelMeeting_eq_ok {db db' : Db} {userId : UserId} {number : String} :
    runRequest db (.cancelMeeting userId number) = .ok db' ↔
      ∃ u m, db.getUser userId = some u ∧ u.isGuest = false ∧ db.meetingByNumber number = some m ∧
        m.hostId = u.id ∧ m.status = .scheduled ∧
        db' = db.updateMeetingRow m.id Meeting.cancel Meeting.cancel_id := by
  simp only [runRequest, Service.bind_eq_ok, Service.commit_eq_ok, currentFullUser_eq_ok,
    cancelMeeting_eq_ok]
  constructor
  · rintro ⟨u, ⟨hu, hguest⟩, v, m, hm, hhost, hs, -, h⟩
    exact ⟨u, m, hu, hguest, hm, hhost, hs, h⟩
  · rintro ⟨u, m, hu, hguest, hm, hhost, hs, h⟩
    exact ⟨u, ⟨hu, hguest⟩, _, m, hm, hhost, hs, rfl, h⟩

/-- **One operation.**  `NoPhantom` survives it exactly when it does not cancel
a meeting that somebody is in. -/
theorem noPhantom_apply_iff {db : Db} (hn : NoPhantom db) (op : Operation) :
    NoPhantom (db.apply op) ↔ CancelsEmpty db op := by
  by_cases hop : ∃ userId number, op = .request (.cancelMeeting userId number)
  · obtain ⟨userId, number, rfl⟩ := hop
    constructor
    · intro h u m hu hguest hm hhost hs
      have hrun := runRequest_cancelMeeting_eq_ok.mpr ⟨u, m, hu, hguest, hm, hhost, hs, rfl⟩
      have happly := apply_of_ok (show runOperation db (.request (.cancelMeeting userId number)) = _
        from hrun)
      rw [happly] at h
      exact (noPhantom_cancel_iff hn (mem_of_meetingByNumber hm)).mp h
    · intro h
      cases hrun : runOperation db (.request (.cancelMeeting userId number)) with
      | error e => rwa [Db.apply, hrun]
      | ok db' =>
        rw [apply_of_ok hrun]
        obtain ⟨u, m, hu, hguest, hm, hhost, hs, rfl⟩ := runRequest_cancelMeeting_eq_ok.mp hrun
        exact (noPhantom_cancel_iff hn (mem_of_meetingByNumber hm)).mpr
          (h u m hu hguest hm hhost hs)
  · have hcancel : ∀ userId number, op ≠ .request (.cancelMeeting userId number) :=
      fun userId number h => hop ⟨userId, number, h⟩
    have htrivial : CancelsEmpty db op := by
      unfold CancelsEmpty
      split
      · exact absurd rfl (hcancel _ _)
      · trivial
    refine iff_of_true ?_ htrivial
    rcases apply_change db op with h | h
    · rwa [h]
    · exact h.noPhantom hn hcancel

/-! ### Runs -/

/-- **Phantoms come from cancellations only.**  In a run from the empty database
no meeting that is over ever has an open row exactly when every cancellation
that goes through finds its meeting empty. -/
theorem always_noPhantom_iff (ops : List Operation) :
    Runs.Always Db.apply NoPhantom Db.empty ops ↔
      Runs.Guarded Db.apply CancelsEmpty Db.empty ops := by
  refine Runs.always_iff_guarded (I := fun _ => True) trivial ?_ (fun _ _ _ => trivial) ?_ ops
  · intro m hm
    exact absurd hm (Keyed.not_mem_empty m)
  · intro db op _ hn
    exact noPhantom_apply_iff hn op

/-- A host schedules a meeting, somebody joins it with the invite token, and the
host cancels. -/
def cancelOccupied : List Operation :=
  [.request (.signInGoogle { sub := "g-host", email := some "ada@example.com" }
      ⟨"host", "", fun _ => (0, 1)⟩),
   .request (.signInGuest "Bob" ⟨"guest", "b0b", fun _ => (0, 2)⟩),
   .request (.createMeeting "host" { scheduledStart := some { wall := 1000 } }
      { passcode := "hRtz4K", inviteToken := "tok", ids := fun _ => "m"
        numbers := fun _ => (0, 3), inviteeIds := fun _ => "" } 10),
   .request (.joinMeeting "guest" "10000000003" { inviteToken := some "tok" }
      { id := "p", sessionId := "s" } 20),
   .request (.cancelMeeting "host" "10000000003")]

/-- After that run the meeting is cancelled and the guest is still in it. -/
theorem cancelOccupied_phantom :
    ¬ ∀ ops : List Operation, Runs.Always Db.apply NoPhantom Db.empty ops := by
  intro h
  have hlast : NoPhantom (Runs.run Db.apply Db.empty cancelOccupied) := (h cancelOccupied).last
  revert hlast
  decide +kernel

end ZoomClone
