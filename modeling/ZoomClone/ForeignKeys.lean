/-
Foreign keys and roles.

SQLite runs with `foreign_keys=ON`, and the services insert and update rows without
looking at it.  They need not: in every database that the operations reach, every
reference points at a row (`references_hold`).  Beyond that the references agree with each
other: a message is in the meeting of its sender, a meeting is hosted by a full account,
and a row has the role `host` exactly if it is one of its meeting's host.
-/
import ZoomClone.Authorization
import ZoomClone.Preferences

namespace ZoomClone

/-- Every reference points at a row, and the references agree. -/
structure Db.ReferencesHold (db : Db) : Prop where
  /-- `meetings.host_id`, which is no guest. -/
  hosts : db.FullHosts
  /-- `participants.meeting_id`. -/
  meetings : ∀ p ∈ db.participants, p.meetingId ∈ db.meetings.keys
  /-- `participants.user_id`. -/
  users : ∀ p ∈ db.participants, ∀ userId, p.userId = some userId → userId ∈ db.users.keys
  /-- `chat_messages.participant_id` and `chat_messages.meeting_id`. -/
  senders : ∀ c ∈ db.chatMessages, ∃ p ∈ db.participants, p.id = c.participantId ∧
    p.meetingId = c.meetingId
  /-- `meeting_invitees.meeting_id`. -/
  invitees : ∀ i ∈ db.meetingInvitees, i.meetingId ∈ db.meetings.keys
  /-- `user_preferences.user_id`. -/
  preferences : ∀ prefs ∈ db.userPreferences, prefs.userId ∈ db.users.keys
  roles : ∀ p ∈ db.participants, ∀ m ∈ db.meetings, m.id = p.meetingId →
    (p.role = .host ↔ p.userId = some m.hostId)

theorem referencesHold_empty : Db.empty.ReferencesHold where
  hosts := fun m hm => absurd hm (Keyed.not_mem_empty m)
  meetings := fun p hp => absurd hp (Keyed.not_mem_empty p)
  users := fun p hp => absurd hp (Keyed.not_mem_empty p)
  senders := fun c hc => absurd hc (Keyed.not_mem_empty c)
  invitees := fun i hi => absurd hi (Keyed.not_mem_empty i)
  preferences := fun prefs hprefs => absurd hprefs (Keyed.not_mem_empty prefs)
  roles := fun p hp => absurd hp (Keyed.not_mem_empty p)

section Step

variable {db db' : Db} {op : Operation}

/-! ### New rows -/

theorem keys_updateRows (q : Participant → Prop) [DecidablePred q] (f : Participant → Participant)
    (hf : ∀ p, (f p).id = p.id) :
    (db.updateRows q f hf).participants.keys = db.participants.keys := by
  simp [Db.updateRows]

/-- The participants keep their keys, or a join of a user that there is adds one. -/
theorem Commits.participant_keys (h : Commits db op db') :
    db'.participants.keys = db.participants.keys ∨
    ∃ user m req draws now r, db.getUser user.id = some user ∧ m ∈ db.meetings ∧
      commitJoin db m user req draws now = .ok (r, db') := by
  cases h with
  | signInGuest h => exact .inl (congrArg Keyed.keys (createGuest_ok h).participants)
  | signInGoogle h => exact .inl (congrArg Keyed.keys (upsertGoogleUser_ok h).participants)
  | updateProfile huser h => exact .inl (congrArg Keyed.keys (updateProfile_ok h).participants)
  | createMeeting hhost h =>
    obtain ⟨topic, start, duration, k, number, db₁, -, hins, hsame⟩ := createMeeting_ok h
    obtain ⟨hid, rfl, -⟩ := Db.insertMeeting_ok hins
    exact .inl (congrArg Keyed.keys hsame.participants)
  | joinMeeting user m huser hcheck h =>
    obtain rfl := id_of_currentUser huser
    exact .inr ⟨user, m, _, _, _, _, currentUser_eq_ok.mp huser,
      mem_of_meetingByNumber (checkJoin_eq_ok.mp hcheck).1, h⟩
  | postMessage h =>
    obtain ⟨-, p, -, -, hins, -⟩ := postMessage_eq_ok.mp h
    exact .inl (congrArg Keyed.keys (Db.insertMessage_ok hins).participants)
  | savePreferences user huser => exact .inl rfl
  | staleConnection hp => exact .inl rfl
  | updateMeeting => exact .inl rfl
  | cancelMeeting => exact .inl rfl
  | startMeeting => exact .inl rfl
  | endMeeting => exact .inl (keys_updateRows _ _ (Participant.evict_id · _))
  | hostEndMeeting => exact .inl (keys_updateRows _ _ (Participant.evict_id · _))
  | bindConnection => exact .inl (keys_updateRows _ _ (Participant.bindTo_id · _))
  | _ => exact .inl (by simp [markLeft, Db.updateRow, keys_updateRows])

/-- A row after an operation is an old one that evolved, or that of a user who joins. -/
theorem Commits.participant_cases (h : Commits db op db') (hchange : Change db op db')
    {q : Participant}
    (hq : q ∈ db'.participants) : (∃ p ∈ db.participants, p.Evolves q) ∨
      ∃ user m req draws now, db.getUser user.id = some user ∧ m ∈ db.meetings ∧
        q = joinRow db m user req draws now := by
  obtain ⟨f, added, hf, -⟩ := hchange.rows
  rcases hf.mem.mp hq with ⟨p, hp, rfl⟩ | hadded
  · exact .inl ⟨p, hp, hf.evolves p hp⟩
  · have hnew := (hf.inserts q hadded).newId
    rcases h.participant_keys with hkeys | ⟨user, m, req, draws, now, r, huser, hm, hjoin⟩
    · exact absurd (hkeys ▸ Keyed.key_mem_keys hq) hnew
    · obtain ⟨hid, hrows, -⟩ := commitJoin_ok hjoin
      rw [hrows] at hq
      rcases (Keyed.mem_insert (h := hid)).mp hq with hold | rfl
      · exact absurd (Keyed.key_mem_keys hold) hnew
      · exact .inr ⟨user, m, req, draws, now, huser, hm, rfl⟩

/-- An invitee after an operation was one before, or belongs to a meeting that there is. -/
theorem Commits.invitee_cases (h : Commits db op db') {i : MeetingInvitee}
    (hi : i ∈ db'.meetingInvitees) :
    i ∈ db.meetingInvitees ∨ i.meetingId ∈ db'.meetings.keys := by
  cases h with
  | signInGuest h => exact .inl ((createGuest_aside h).meetingInvitees ▸ hi)
  | signInGoogle h => exact .inl ((upsertGoogleUser_aside h).meetingInvitees ▸ hi)
  | updateProfile huser h => exact .inl ((updateProfile_aside h).meetingInvitees ▸ hi)
  | createMeeting hhost h => exact (createMeeting_aside h).2 i hi
  | joinMeeting user m huser hcheck h => exact .inl ((commitJoin_aside h).meetingInvitees ▸ hi)
  | postMessage h => exact .inl ((postMessage_aside h).meetingInvitees ▸ hi)
  | _ => exact .inl hi

/-- A preferences row after an operation was one before, or belongs to a user that there is. -/
theorem Commits.preferences_cases (h : Commits db op db') {prefs : UserPreferences}
    (hprefs : prefs ∈ db'.userPreferences) :
    prefs ∈ db.userPreferences ∨ prefs.userId ∈ db.users.keys := by
  by_cases hop : op.KeepsPreferences = true
  · exact .inl (h.preferences hop ▸ hprefs)
  · cases h with
    | savePreferences user huser =>
      rcases Keyed.mem_set.mp hprefs with rfl | ⟨hold, -⟩
      · have hget := currentUser_eq_ok.mp huser
        exact .inr (Keyed.mem_keys.mpr ⟨user, Keyed.mem_of_find? hget, rfl⟩)
      · exact .inl hold
    | _ => exact absurd rfl hop

/-! ### One operation -/

theorem UsersEvolve.keys (h : UsersEvolve db db') {userId : UserId} (hid : userId ∈ db.users.keys) :
    userId ∈ db'.users.keys := by
  obtain ⟨u, hu, rfl⟩ := Keyed.mem_keys.mp hid
  obtain ⟨v, hv, he⟩ := h.kept u hu
  exact Keyed.mem_keys.mpr ⟨v, hv, he.id⟩

theorem RowsEvolve.kept {f : Participant → Participant} {added : Option Participant}
    (h : RowsEvolve db db' f added) {p : Participant} (hp : p ∈ db.participants) :
    ∃ q ∈ db'.participants, p.Evolves q :=
  ⟨f p, h.mem.mpr (.inl ⟨p, hp, rfl⟩), h.evolves p hp⟩

/-- The role of a row says whose it is. -/
theorem role_joinRow {m : Meeting} {user : User} {req : JoinRequest}
    {draws : JoinDraws} {now : DateTime} :
    (joinRow db m user req draws now).role = .host ↔
      (joinRow db m user req draws now).userId = some m.hostId := by
  show (if m.hostId = user.id then Role.host else Role.participant) = .host ↔
    some user.id = some m.hostId
  split
  · rename_i hhost
    simp [hhost]
  · rename_i hother
    simpa using Ne.symm hother

theorem Db.ReferencesHold.commits (h : db.ReferencesHold) (hrun : runOperation db op = .ok db') :
    db'.ReferencesHold := by
  have hcommits := runOperation_commits hrun
  have hchange := runOperation_change hrun
  obtain ⟨husers, hmessages⟩ := runOperation_people hrun
  obtain ⟨f, added, hrows, -⟩ := hchange.rows
  have hmoves {m m' : Meeting} (hm : m ∈ db.meetings) (hm' : m' ∈ db'.meetings)
    (hid : m'.id = m.id) :
      m.Moves db op m' := by
    rw [← apply_of_ok hrun] at hm'
    exact moves_apply hm hm' hid
  constructor
  · rw [← apply_of_ok hrun]
    exact fullHosts_apply h.hosts op
  · intro q hq
    rcases hcommits.participant_cases hchange hq with ⟨p, hp, he⟩ |
      ⟨user, m, req, draws, now, -, hm, rfl⟩
    · rw [he.meetingId]
      exact hchange.meeting_keys (h.meetings p hp)
    · exact hchange.meeting_keys (Keyed.key_mem_keys hm)
  · intro q hq userId huserId
    rcases hcommits.participant_cases hchange hq with ⟨p, hp, he⟩ |
      ⟨user, m, req, draws, now, huser, -, rfl⟩
    · exact husers.keys (h.users p hp userId (he.userId ▸ huserId))
    · obtain rfl : user.id = userId := Option.some.inj huserId
      exact husers.keys (Keyed.key_mem_keys (Keyed.mem_of_find? huser))
  · intro c hc
    -- the sender is a row of before, and evolves
    obtain ⟨p, hp, hid, hmeeting⟩ :
        ∃ p ∈ db.participants, p.id = c.participantId ∧ p.meetingId = c.meetingId := by
      cases hmessages with
      | kept hsame => exact h.senders c (hsame ▸ hc)
      | posted c' hid hp hinsert =>
        rw [hinsert] at hc
        rcases (Keyed.mem_insert (h := hid)).mp hc with hold | rfl
        · exact h.senders c hold
        · obtain ⟨p, hp, hmeeting⟩ := hp
          exact ⟨p, Keyed.mem_of_find? hp, Keyed.key_of_find? hp, hmeeting⟩
    obtain ⟨q, hq, he⟩ := hrows.kept hp
    exact ⟨q, hq, he.id.trans hid, he.meetingId.trans hmeeting⟩
  · intro i hi
    rcases hcommits.invitee_cases hi with hold | hnew
    · exact hchange.meeting_keys (h.invitees i hold)
    · exact hnew
  · intro prefs hprefs
    rcases hcommits.preferences_cases hprefs with hold | hnew
    · exact husers.keys (h.preferences prefs hold)
    · exact husers.keys hnew
  · intro q hq m' hm' hid
    rcases hcommits.participant_cases hchange hq with ⟨p, hp, he⟩ |
      ⟨user, m, req, draws, now, -, hm, rfl⟩
    · -- an old row, in a meeting that has kept its host
      obtain ⟨m, hm, hmid⟩ := Keyed.mem_keys.mp (h.meetings p hp)
      have hmove := hmoves hm hm' (hid.trans (he.meetingId.trans hmid.symm))
      rw [he.role, he.userId, hmove.hostId]
      exact h.roles p hp m hm hmid
    · have hmove := hmoves hm hm' hid
      rw [hmove.hostId]
      exact role_joinRow

end Step

/-- **Every reference points at a row.**  In every database that the operations reach, no
foreign key dangles, a message is in the meeting of its sender, the host of a meeting has a
full account, and the role of a participant says whether it is the host's. -/
theorem references_hold (ops : List Operation) : (Runs.run Db.apply .empty ops).ReferencesHold := by
  refine (Runs.always_of_step referencesHold_empty ?_ ops).last
  intro db op h
  cases hrun : runOperation db op with
  | error e =>
    rw [Db.apply, hrun]
    exact h
  | ok db' =>
    rw [apply_of_ok hrun]
    exact h.commits hrun

end ZoomClone
