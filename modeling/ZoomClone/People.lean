/-
What an operation makes of the users and of the chat.

* `runOperation_users` — a user is never lost, keeps its id and its personal
  number, and never becomes a guest again; a new one gets a drawn number;
* `runOperation_messages` — only a post adds a message, under the participant
  and the meeting it names.
-/
import ZoomClone.Rows

namespace ZoomClone

/-! ### The insertions -/

/-- The two databases have the same users and the same messages. -/
structure Db.SamePeople (db db' : Db) : Prop where
  users : db'.users = db.users
  chatMessages : db'.chatMessages = db.chatMessages

theorem Db.SamePeople.refl (db : Db) : SamePeople db db := ⟨rfl, rfl⟩

theorem Db.SamePeople.trans {db₁ db₂ db₃ : Db} (h : SamePeople db₁ db₂) (h' : SamePeople db₂ db₃) :
    SamePeople db₁ db₃ :=
  ⟨h'.users.trans h.users, h'.chatMessages.trans h.chatMessages⟩

theorem insertMeeting_people {db db' : Db} {m : Meeting} (h : db.insertMeeting m = .ok db') :
    db.SamePeople db' := by
  obtain ⟨hid, rfl, -⟩ := Db.insertMeeting_ok h
  exact ⟨rfl, rfl⟩

theorem insertInvitees_people {db db' : Db} {meetingId : MeetingId} {now : DateTime}
    {ids : ℕ → String} {k : ℕ} {emails : List String}
    (h : insertInvitees db meetingId now ids k emails = .ok db') : db.SamePeople db' := by
  induction emails generalizing db k with
  | nil =>
    obtain rfl := Except.ok.inj h
    exact .refl db
  | cons email emails ih =>
    rw [insertInvitees] at h
    split at h
    · exact ih h
    · obtain ⟨db₁, hins, h⟩ := Service.bind_eq_ok.mp h
      have hone : db.SamePeople db₁ := by
        rw [Db.insertInvitee] at hins
        split at hins
        · cases hins
        · obtain rfl := Except.ok.inj hins
          exact ⟨rfl, rfl⟩
      exact hone.trans (ih h)

theorem createMeeting_people {db db' : Db} {host : User} {req : MeetingCreate} {draws : CreateDraws}
    {now : DateTime} {v : MeetingView} (h : createMeeting db host req draws now = .ok (v, db')) :
    db.SamePeople db' := by
  simp only [createMeeting, Service.bind_eq_ok, Service.pure_eq_ok] at h
  obtain ⟨topic, -, start, -, ⟨duration, clamped⟩, -, -, -, ⟨m, db₁⟩, hm, db₂, hinv, h⟩ := h
  obtain ⟨-, rfl⟩ := Prod.mk.inj h
  obtain ⟨-, hins⟩ := insertNewMeeting_ok hm
  exact (insertMeeting_people hins).trans (insertInvitees_people hinv)

theorem commitJoin_people {db db' : Db} {meeting : Meeting} {user : User} {req : JoinRequest}
    {draws : JoinDraws} {now : DateTime} {r : JoinResponse}
    (h : commitJoin db meeting user req draws now = .ok (r, db')) : db.SamePeople db' := by
  obtain ⟨db₁, hins, h⟩ := Service.bind_eq_ok.mp h
  obtain ⟨-, rfl⟩ := Prod.mk.inj (Service.pure_eq_ok.mp h)
  obtain ⟨hid, rfl, -⟩ := Db.insertParticipant_ok hins
  have hwelcome : db.SamePeople (db.welcomeHost meeting user now) := by
    rw [Db.welcomeHost]
    split <;> exact ⟨rfl, rfl⟩
  exact ⟨hwelcome.users, hwelcome.chatMessages⟩

/-! ### Users -/

/-- What a user row may become. -/
structure User.Evolves (u v : User) : Prop where
  id : v.id = u.id
  personalMeetingId : v.personalMeetingId = u.personalMeetingId
  isGuest : u.isGuest = false → v.isGuest = false

theorem User.Evolves.refl (u : User) : u.Evolves u := ⟨rfl, rfl, fun h => h⟩

/-- Users evolve in place, and a new one has a drawn personal number. -/
structure UsersEvolve (db db' : Db) : Prop where
  kept : ∀ u ∈ db.users, ∃ v ∈ db'.users, u.Evolves v
  known : ∀ v ∈ db'.users, (∃ u ∈ db.users, u.Evolves v) ∨
    ∃ draw, v.personalMeetingId = generateMeetingNumber draw

theorem UsersEvolve.of_eq {db db' : Db} (h : db'.users = db.users) : UsersEvolve db db' where
  kept := fun u hu => ⟨u, h ▸ hu, .refl u⟩
  known := fun v hv => .inl ⟨v, h ▸ hv, .refl v⟩

theorem mem_insertUser {db db' : Db} {u : User} (h : db.insertUser u = .ok db') {v : User} :
    v ∈ db'.users ↔ v ∈ db.users ∨ v = u := by
  rw [Db.insertUser] at h
  split at h
  · cases h
  · split at h
    · cases h
    · next users hins =>
      obtain ⟨hid, rfl⟩ := Keyed.insert?_eq_some.mp hins
      obtain rfl := Except.ok.inj h
      exact Keyed.mem_insert (h := hid)

theorem insertUser_chatMessages {db db' : Db} {u : User} (h : db.insertUser u = .ok db') :
    db'.chatMessages = db.chatMessages := by
  rw [Db.insertUser] at h
  split at h
  · cases h
  · split at h
    · cases h
    · obtain rfl := Except.ok.inj h
      rfl

theorem insertUser_users {db db' : Db} {u : User} (h : db.insertUser u = .ok db')
    (hu : ∃ draw, u.personalMeetingId = generateMeetingNumber draw) :
    UsersEvolve db db' ∧ db'.chatMessages = db.chatMessages := by
  refine ⟨⟨fun v hv => ⟨v, (mem_insertUser h).mpr (.inl hv), .refl v⟩, ?_⟩,
    insertUser_chatMessages h⟩
  intro v hv
  rcases (mem_insertUser h).mp hv with hv | rfl
  · exact .inl ⟨v, hv, .refl v⟩
  · exact .inr hu

theorem updateUser_eq {db db' : Db} {id : UserId} {f : User → User} {hf : ∀ u, (f u).id = u.id}
    (h : db.updateUser id f hf = .ok db') : db' = { db with users := db.users.modify id f hf } := by
  unfold Db.updateUser at h
  dsimp only at h
  split at h
  · cases h
  · exact (Except.ok.inj h).symm

theorem mem_updateUser {db db' : Db} {id : UserId} {f : User → User} {hf : ∀ u, (f u).id = u.id}
    (h : db.updateUser id f hf = .ok db') {v : User} :
    v ∈ db'.users ↔ ∃ u ∈ db.users, (if u.id = id then f u else u) = v := by
  have hmem : v ∈ db.users.modify id f hf ↔ ∃ u ∈ db.users, (if u.id = id then f u else u) = v :=
    Keyed.mem_modify
  rw [updateUser_eq h]
  exact hmem

theorem updateUser_users {db db' : Db} {id : UserId} {f : User → User} {hf : ∀ u, (f u).id = u.id}
    (h : db.updateUser id f hf = .ok db') (hevolves : ∀ u : User, u.Evolves (f u)) :
    UsersEvolve db db' ∧ db'.chatMessages = db.chatMessages := by
  have hone (u : User) : u.Evolves (if u.id = id then f u else u) := by
    split
    · exact hevolves u
    · exact .refl u
  refine ⟨⟨fun u hu => ⟨_, (mem_updateUser h).mpr ⟨u, hu, rfl⟩, hone u⟩, ?_⟩,
    by rw [updateUser_eq h]⟩
  intro v hv
  obtain ⟨u, hu, rfl⟩ := (mem_updateUser h).mp hv
  exact .inl ⟨u, hu, hone u⟩

/-- An allocated number is one of the drawn candidates. -/
theorem allocateMeetingNumber_ok {db : Db} {numbers : ℕ → ℕ × ℕ} {attempts k : ℕ} {number : String}
    (h : allocateMeetingNumber db numbers attempts k = .ok number) :
    ∃ draw, number = generateMeetingNumber draw := by
  induction attempts generalizing k with
  | zero => cases h
  | succ attempts ih =>
    rw [allocateMeetingNumber] at h
    split at h
    · exact ih h
    · exact ⟨_, (Except.ok.inj h).symm⟩

theorem createGuest_users {db db' : Db} {displayName : String} {draws : SignInDraws} {u : User}
    (h : createGuest db displayName draws = .ok (u, db')) :
    UsersEvolve db db' ∧ db'.chatMessages = db.chatMessages := by
  simp only [createGuest, Service.bind_eq_ok, Service.pure_eq_ok] at h
  obtain ⟨name, -, pmi, hpmi, db₁, hins, h⟩ := h
  obtain ⟨-, rfl⟩ := Prod.mk.inj h
  exact insertUser_users hins (allocateMeetingNumber_ok hpmi)

theorem upsertGoogleUser_users {db db' : Db} {claims : GoogleClaims}
    {draws : SignInDraws} {u : User}
    (h : upsertGoogleUser db claims draws = .ok (u, db')) :
    UsersEvolve db db' ∧ db'.chatMessages = db.chatMessages := by
  obtain ⟨email, -, h⟩ := Service.bind_eq_ok.mp h
  dsimp only at h
  split at h
  · simp only [Service.bind_eq_ok, Service.pure_eq_ok] at h
    obtain ⟨pmi, hpmi, db₁, hins, h⟩ := h
    obtain ⟨-, rfl⟩ := Prod.mk.inj h
    exact insertUser_users hins (allocateMeetingNumber_ok hpmi)
  · simp only [Service.bind_eq_ok, Service.pure_eq_ok] at h
    obtain ⟨db₁, hupd, h⟩ := h
    obtain ⟨-, rfl⟩ := Prod.mk.inj h
    exact updateUser_users hupd fun u => ⟨rfl, rfl, fun _ => rfl⟩

theorem updateProfile_users {db db' : Db} {user u : User} {name : Option String}
    {avatarUrl : Option (Option String)} (h : updateProfile db user name avatarUrl = .ok (u, db')) :
    UsersEvolve db db' ∧ db'.chatMessages = db.chatMessages := by
  simp only [updateProfile, Service.bind_eq_ok, Service.pure_eq_ok] at h
  obtain ⟨name, -, db₁, hupd, h⟩ := h
  obtain ⟨-, rfl⟩ := Prod.mk.inj h
  exact updateUser_users hupd fun u => ⟨rfl, rfl, fun h => h⟩

/-! ### Every operation -/

/-- What an operation makes of the messages: a post that succeeds adds one. -/
inductive MessagesChange (db : Db) : Operation → Db → Prop
  | kept {op : Operation} {db' : Db} (h : db'.chatMessages = db.chatMessages) :
      MessagesChange db op db'
  | posted {body : String} {db' : Db} (c : ChatMessage) (hid : c.id ∉ db.chatMessages.keys)
      (hp : ∃ p, db.getParticipant c.participantId = some p ∧ p.meetingId = c.meetingId)
      (h : db'.chatMessages = db.chatMessages.insert c hid) :
      MessagesChange db (.postMessage c.meetingId c.participantId body c.id c.sentAt) db'

/-- The request writes users. -/
def Request.IsAccount : Request → Prop
  | .signInGuest _ _ => True
  | .signInGoogle _ _ => True
  | .updateProfile _ _ _ => True
  | _ => False

/-- The operation writes users or messages. -/
def Operation.TouchesPeople : Operation → Prop
  | .request r => r.IsAccount
  | .postMessage _ _ _ _ _ => True
  | _ => False

/-- Every other operation leaves the users and the messages alone. -/
theorem runOperation_samePeople {db db' : Db} {op : Operation} (h : runOperation db op = .ok db')
    (hop : ¬ op.TouchesPeople) : db.SamePeople db' := by
  cases runOperation_commits h with
  | signInGuest => exact absurd trivial hop
  | signInGoogle => exact absurd trivial hop
  | updateProfile => exact absurd trivial hop
  | createMeeting hhost h => exact createMeeting_people h
  | joinMeeting user m huser hcheck h => exact commitJoin_people h
  | postMessage => exact absurd trivial hop
  | _ => exact ⟨rfl, rfl⟩

/-- A post that succeeds adds its message, and writes no user. -/
theorem postMessage_people {db db' : Db} {meetingId : MeetingId} {participantId : ParticipantId}
    {body id : String} {now : DateTime} {v : MessageView}
    (h : postMessage db meetingId participantId body id now = .ok (v, db')) :
    db'.users = db.users ∧
      MessagesChange db (.postMessage meetingId participantId body id now) db' := by
  obtain ⟨-, p, hp, hmeeting, hins, -⟩ := postMessage_eq_ok.mp h
  obtain ⟨hid, rfl⟩ := Db.insertMessage_eq_ok.mp hins
  exact ⟨rfl, .posted ⟨id, meetingId, participantId, storedBody body, now⟩ hid
    ⟨p, hp, hmeeting⟩ rfl⟩

/-- **What an operation makes of the users and the messages.** -/
theorem runOperation_people {db db' : Db} {op : Operation} (h : runOperation db op = .ok db') :
    UsersEvolve db db' ∧ MessagesChange db op db' := by
  by_cases hop : op.TouchesPeople
  · cases runOperation_commits h with
    | signInGuest h =>
      obtain ⟨husers, hmessages⟩ := createGuest_users h
      exact ⟨husers, .kept hmessages⟩
    | signInGoogle h =>
      obtain ⟨husers, hmessages⟩ := upsertGoogleUser_users h
      exact ⟨husers, .kept hmessages⟩
    | updateProfile huser h =>
      obtain ⟨husers, hmessages⟩ := updateProfile_users h
      exact ⟨husers, .kept hmessages⟩
    | postMessage h =>
      obtain ⟨husers, hmessages⟩ := postMessage_people h
      exact ⟨.of_eq husers, hmessages⟩
    | _ => cases hop
  · have hsame := runOperation_samePeople h hop
    exact ⟨.of_eq hsame.users, .kept hsame.chatMessages⟩

theorem apply_people (db : Db) (op : Operation) :
    UsersEvolve db (db.apply op) ∧ MessagesChange db op (db.apply op) := by
  cases h : runOperation db op with
  | error e =>
    have hsame : db.apply op = db := by rw [Db.apply, h]
    rw [hsame]
    exact ⟨.of_eq rfl, .kept rfl⟩
  | ok db' =>
    rw [apply_of_ok h]
    exact runOperation_people h

end ZoomClone
