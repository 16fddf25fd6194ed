/-
Drawn numbers and personal numbers.

`allocate_meeting_number` draws the personal number of a new user and looks it up
in both tables.  `insert_with_unique_number` draws the number of a new meeting and
leaves the check to the unique index, which knows the meetings only.

* `noClash_apply_iff` — exactly which operations keep the drawn numbers of meetings
  apart from the personal numbers of users;
* `noClash_iff` — the same for runs.
-/
import ZoomClone.Lifecycle
import ZoomClone.People

namespace ZoomClone

/-- No meeting with a drawn number has the personal number of a user. -/
def Db.NoClash (db : Db) : Prop :=
  ∀ m ∈ db.meetings, m.usePmi = false → ∀ u ∈ db.users, m.meetingNumber ≠ u.personalMeetingId

instance (db : Db) : Decidable db.NoClash :=
  inferInstanceAs (Decidable (∀ m ∈ db.meetings.rows, m.usePmi = false → ∀ u ∈ db.users.rows, _))

/-- The unique indexes of the meetings let in the row of the `k`-th attempt. -/
def Db.Takes (db : Db) (draws : CreateDraws) (k : ℕ) : Prop :=
  draws.ids k ∉ db.meetings.keys ∧ ∀ n ∈ db.meetings,
    n.meetingNumber ≠ generateMeetingNumber (draws.numbers k) ∧ n.inviteToken ≠ draws.inviteToken

/-- What a create checks beside the unique indexes of the meetings. -/
structure CreateAccepted (db : Db) (host : User) (req : MeetingCreate) (draws : CreateDraws)
    (now : DateTime) : Prop where
  topic : ∃ topic, validateTopic
    ((given req.topic).getD (host.name ++ "'s Zoom Meeting")) = .ok topic
  scheduledStart : ∃ start, req.scheduledStart.mapM (validateStart · now) = .ok start
  duration : ∃ minutes, resolveDuration req.durationMinutes host.plan = .ok minutes
  encryption : ∃ u, validateEncryption req.encryption = .ok u
  invitees : ∃ db', insertInvitees db "" now draws.inviteeIds 0 req.invitees = .ok db'

/-- An accepted create under a drawn number: the first candidate that the indexes
let in is not the personal number of a user. -/
def FreshNumber (db : Db) : Operation → Prop
  | .request (.createMeeting userId req draws now) =>
    req.usePmi = false → ∀ host, currentFullUser db userId = .ok host →
      CreateAccepted db host req draws now → ∀ k < maxGenerationAttempts, db.Takes draws k →
        (∀ j < k, ¬ db.Takes draws j) →
          ∀ u ∈ db.users, generateMeetingNumber (draws.numbers k) ≠ u.personalMeetingId
  | _ => True

/-! ### The two allocators -/

/-- A personal number is no number of a meeting. -/
theorem allocateMeetingNumber_free {db : Db} {numbers : ℕ → ℕ × ℕ}
    {attempts k : ℕ} {number : String}
    (h : allocateMeetingNumber db numbers attempts k = .ok number) :
    ∀ m ∈ db.meetings, m.meetingNumber ≠ number := by
  induction attempts generalizing k with
  | zero => cases h
  | succ attempts ih =>
    rw [allocateMeetingNumber] at h
    split at h
    · exact ih h
    · next hfree =>
      obtain rfl := Except.ok.inj h
      intro m hm heq
      refine hfree ?_
      simp only [Bool.or_eq_true, List.any_eq_true, decide_eq_true_eq]
      exact .inl ⟨m, hm, heq⟩

/-- An insertion goes through exactly when the unique indexes let the row in. -/
theorem insertMeeting_isOk {db : Db} {m : Meeting} : (∃ db', db.insertMeeting m = .ok db') ↔
    m.id ∉ db.meetings.keys ∧
      ∀ n ∈ db.meetings, n.meetingNumber ≠ m.meetingNumber ∧ n.inviteToken ≠ m.inviteToken := by
  constructor
  · rintro ⟨db', h⟩
    obtain ⟨hid, -, hnew⟩ := Db.insertMeeting_ok h
    exact ⟨hid, hnew⟩
  · rintro ⟨hid, hnew⟩
    refine ⟨{ db with meetings := db.meetings.insert m hid }, ?_⟩
    rw [Db.insertMeeting, if_neg, Keyed.insert?_eq_some.mpr ⟨hid, rfl⟩]
    simp only [List.any_eq_true, Bool.or_eq_true, decide_eq_true_eq, not_exists, not_and, not_or]
    exact hnew

/-- The row that is inserted is that of the first attempt the indexes let in. -/
theorem insertWithUniqueNumber_first {db db' : Db} {build : ℕ → String → Meeting}
    {numbers : ℕ → ℕ × ℕ} {attempts k : ℕ} {row : Meeting}
    (h : insertWithUniqueNumber db build numbers attempts k = .ok (row, db')) :
    ∃ i, (k ≤ i ∧ i < k + attempts) ∧ row = build i (generateMeetingNumber (numbers i)) ∧
      ∀ j, k ≤ j → j < i →
        ¬ ∃ db₁, db.insertMeeting (build j (generateMeetingNumber (numbers j))) = .ok db₁ := by
  induction attempts generalizing k with
  | zero => cases h
  | succ attempts ih =>
    unfold insertWithUniqueNumber at h
    dsimp only at h
    split at h
    · obtain ⟨rfl, rfl⟩ := Prod.mk.inj (Except.ok.inj h)
      exact ⟨k, by omega, rfl, fun j hj hlt => absurd hj (by omega)⟩
    · next hfailed =>
      -- the index refused the row of attempt `k`: the next candidate is drawn
      obtain ⟨i, hi, hrow, hbefore⟩ := ih h
      refine ⟨i, by omega, hrow, ?_⟩
      intro j hj hlt
      by_cases hjk : j = k
      · rw [hjk, hfailed]
        rintro ⟨db₁, hok⟩
        cases hok
      · exact hbefore j (by omega) hlt
    · cases h

theorem insertMeeting_error {db : Db} {m : Meeting} {e : Raised}
    (h : db.insertMeeting m = .error e) :
    e = .integrity := by
  rw [Db.insertMeeting] at h
  split at h
  · exact (Except.error.inj h).symm
  · split at h
    · exact (Except.error.inj h).symm
    · cases h

/-- Some attempt succeeds if the indexes let one of the candidates in. -/
theorem insertWithUniqueNumber_of_takes {db : Db} {build : ℕ → String → Meeting}
    {numbers : ℕ → ℕ × ℕ} {attempts k i : ℕ} (hk : k ≤ i) (hi : i < k + attempts)
    (h : ∃ db', db.insertMeeting (build i (generateMeetingNumber (numbers i))) = .ok db') :
    ∃ row db', insertWithUniqueNumber db build numbers attempts k = .ok (row, db') := by
  induction attempts generalizing k with
  | zero => omega
  | succ attempts ih =>
    unfold insertWithUniqueNumber
    dsimp only
    split
    · exact ⟨_, _, rfl⟩
    · next hfailed =>
      have hne : k ≠ i := by
        rintro rfl
        obtain ⟨db', hok⟩ := h
        rw [hok] at hfailed
        cases hfailed
      exact ih (by omega) (by omega)
    · next e hne hfailed => exact absurd (insertMeeting_error hfailed) hne

theorem insertMeeting_invitees {db db' : Db} {m : Meeting} (h : db.insertMeeting m = .ok db') :
    db'.meetingInvitees.keys = db.meetingInvitees.keys := by
  obtain ⟨hid, rfl, -⟩ := Db.insertMeeting_ok h
  rfl

theorem insertInvitee_keys {db db' : Db} {i : MeetingInvitee} (h : db.insertInvitee i = .ok db') :
    i.id ∉ db.meetingInvitees.keys ∧
      db'.meetingInvitees.keys = db.meetingInvitees.keys ++ [i.id] := by
  rw [Db.insertInvitee] at h
  split at h
  · cases h
  · next meetingInvitees hins =>
    obtain ⟨hid, rfl⟩ := Keyed.insert?_eq_some.mp hins
    obtain rfl := Except.ok.inj h
    exact ⟨hid, Keyed.keys_insert _ _ hid⟩

theorem insertInvitee_of_fresh {db : Db} {i : MeetingInvitee}
    (hid : i.id ∉ db.meetingInvitees.keys) :
    ∃ db', db.insertInvitee i = .ok db' := by
  refine ⟨{ db with meetingInvitees := db.meetingInvitees.insert i hid }, ?_⟩
  rw [Db.insertInvitee, Keyed.insert?_eq_some.mpr ⟨hid, rfl⟩]

/-- Whether the invitees go in depends on their ids alone. -/
theorem insertInvitees_of_keys {db db₁ db' : Db} {meetingId meetingId₁ : MeetingId} {now : DateTime}
    {ids : ℕ → String} {k : ℕ} {emails : List String}
    (hkeys : db₁.meetingInvitees.keys = db.meetingInvitees.keys)
    (h : insertInvitees db meetingId now ids k emails = .ok db') :
    ∃ db₂, insertInvitees db₁ meetingId₁ now ids k emails = .ok db₂ := by
  induction emails generalizing db db₁ k with
  | nil => exact ⟨db₁, rfl⟩
  | cons email emails ih =>
    unfold insertInvitees at h ⊢
    dsimp only at h ⊢
    split at h
    · next hblank =>
      rw [if_pos hblank]
      exact ih hkeys h
    · next hblank =>
      rw [if_neg hblank]
      obtain ⟨db₂, hins, h⟩ := Service.bind_eq_ok.mp h
      obtain ⟨hid, hkeys₂⟩ := insertInvitee_keys hins
      obtain ⟨db₃, hins₁⟩ := insertInvitee_of_fresh
        (i := ⟨ids k, meetingId₁, PyStr.strip email, now⟩)
        (hkeys ▸ hid : ids k ∉ db₁.meetingInvitees.keys)
      obtain ⟨-, hkeys₃⟩ := insertInvitee_keys hins₁
      obtain ⟨db₄, hrest⟩ := ih (hkeys₃.trans (hkeys ▸ hkeys₂.symm)) h
      exact ⟨db₄, Service.bind_eq_ok.mpr ⟨db₃, hins₁, hrest⟩⟩

/-! ### A create -/

section Create

variable {db db' : Db} {host : User} {req : MeetingCreate} {draws : CreateDraws} {now : DateTime}
  {v : MeetingView}

theorem takes_iff {topic : String} {start : Option DateTime} {duration : Int} {k : ℕ} :
    db.Takes draws k ↔ ∃ db', db.insertMeeting (newMeeting host req draws now topic start duration k
      (generateMeetingNumber (draws.numbers k))) = .ok db' := by
  rw [insertMeeting_isOk]
  rfl

/-- A create without the personal number stores its first candidate that the
indexes let in. -/
theorem createMeeting_first (h : createMeeting db host req draws now = .ok (v, db'))
    (hpmi : req.usePmi = false) : ∃ k < maxGenerationAttempts, db.Takes draws k ∧
      (∀ j < k, ¬ db.Takes draws j) ∧
      ∃ row, row.meetingNumber = generateMeetingNumber (draws.numbers k) ∧ row.usePmi = false ∧
        ∀ m, m ∈ db'.meetings ↔ m ∈ db.meetings ∨ m = row := by
  simp only [createMeeting, Service.bind_eq_ok, Service.pure_eq_ok] at h
  obtain ⟨topic, -, start, -, ⟨duration, clamped⟩, -, -, -, ⟨row, db₁⟩, hm, db₂, hinv, h⟩ := h
  obtain ⟨-, rfl⟩ := Prod.mk.inj h
  obtain ⟨-, hins⟩ := insertNewMeeting_ok hm
  rw [insertNewMeeting, hpmi, if_neg Bool.false_ne_true] at hm
  obtain ⟨k, ⟨-, hk⟩, rfl, hbefore⟩ := insertWithUniqueNumber_first hm
  refine ⟨k, by omega, takes_iff.mpr ⟨db₁, hins⟩, ?_,
    newMeeting host req draws now topic start duration k
    (generateMeetingNumber (draws.numbers k)), rfl, hpmi, ?_⟩
  · intro j hj htakes
    exact hbefore j (Nat.zero_le j) hj (takes_iff.mp htakes)
  · intro m
    obtain ⟨hid, rfl, -⟩ := Db.insertMeeting_ok hins
    rw [(insertInvitees_ok hinv).meetings]
    exact Keyed.mem_insert (h := hid)

/-- A create that goes through was accepted. -/
theorem createMeeting_accepted (h : createMeeting db host req draws now = .ok (v, db')) :
    CreateAccepted db host req draws now := by
  simp only [createMeeting, Service.bind_eq_ok, Service.pure_eq_ok] at h
  obtain ⟨topic, htopic, start, hstart, minutes, hminutes, u, hu, ⟨row, db₁⟩, hm, db₂, hinv, -⟩ := h
  obtain ⟨-, hins⟩ := insertNewMeeting_ok hm
  refine ⟨⟨topic, htopic⟩, ⟨start, hstart⟩, ⟨minutes, hminutes⟩, ⟨u, hu⟩, ?_⟩
  exact insertInvitees_of_keys (insertMeeting_invitees hins).symm hinv

/-- An accepted create goes through once the indexes let a candidate in. -/
theorem createMeeting_of_accepted (h : CreateAccepted db host req draws now)
    (hpmi : req.usePmi = false) {k : ℕ} (hk : k < maxGenerationAttempts)
    (htakes : db.Takes draws k) :
    ∃ v db', createMeeting db host req draws now = .ok (v, db') := by
  obtain ⟨⟨topic, htopic⟩, ⟨start, hstart⟩, ⟨⟨minutes, clamped⟩, hminutes⟩,
    ⟨u, hu⟩, ⟨db₀, hinv₀⟩⟩ := h
  obtain ⟨row, db₁, hm⟩ : ∃ row db₁, insertNewMeeting db host req.usePmi
      (newMeeting host req draws now topic start minutes) draws.numbers = .ok (row, db₁) := by
    rw [insertNewMeeting, hpmi, if_neg Bool.false_ne_true]
    exact insertWithUniqueNumber_of_takes (Nat.zero_le k) (by omega) (takes_iff.mp htakes)
  obtain ⟨-, hins⟩ := insertNewMeeting_ok hm
  obtain ⟨db₂, hinv⟩ := insertInvitees_of_keys (insertMeeting_invitees hins) hinv₀
  refine ⟨{ serializeMeeting db₂ row with durationClamped := clamped }, db₂, ?_⟩
  simp only [createMeeting, Service.bind_eq_ok, Service.pure_eq_ok]
  exact ⟨topic, htopic, start, hstart, (minutes, clamped), hminutes, u, hu,
    (row, db₁), hm, db₂, hinv, rfl⟩

/-- A create under the personal number stores no drawn one. -/
theorem createMeeting_personal (h : createMeeting db host req draws now = .ok (v, db'))
    (hpmi : req.usePmi = true) {m : Meeting} (hm : m ∈ db'.meetings) (hdrawn : m.usePmi = false) :
    m ∈ db.meetings := by
  obtain ⟨topic, start, duration, k, number, db₁, -, hins, hsame⟩ := createMeeting_ok h
  obtain ⟨hid, rfl, -⟩ := Db.insertMeeting_ok hins
  rw [hsame.meetings] at hm
  rcases (Keyed.mem_insert (h := hid)).mp hm with hm | rfl
  · exact hm
  · have hnew : req.usePmi = false := hdrawn
    rw [hpmi] at hnew
    cases hnew

end Create

/-! ### Every operation -/

/-- The operation is a create. -/
def Operation.IsCreate : Operation → Prop
  | .request (.createMeeting _ _ _ _) => True
  | _ => False

/-- Every meeting of `db'` was there before, under its number. -/
def Db.SameNumbers (db db' : Db) : Prop :=
  ∀ m' ∈ db'.meetings, ∃ m ∈ db.meetings,
    m'.id = m.id ∧ m'.meetingNumber = m.meetingNumber ∧ m'.usePmi = m.usePmi

section Numbers

variable {db db' : Db} {op : Operation}

theorem Db.SameNumbers.of_eq (h : db'.meetings = db.meetings) : db.SameNumbers db' :=
  fun m hm => ⟨m, h ▸ hm, rfl, rfl, rfl⟩

theorem sameNumbers_updateMeetingRow (db : Db) (id : MeetingId) (f : Meeting → Meeting)
    (hf : ∀ m, (f m).id = m.id) (hnumber : ∀ m, (f m).meetingNumber = m.meetingNumber)
    (hpmi : ∀ m, (f m).usePmi = m.usePmi) : db.SameNumbers (db.updateMeetingRow id f hf) := by
  intro m' hm'
  obtain ⟨m, hm, rfl⟩ := Db.mem_updateMeetingRow.mp hm'
  refine ⟨m, hm, ?_⟩
  split
  · exact ⟨hf m, hnumber m, hpmi m⟩
  · exact ⟨rfl, rfl, rfl⟩

/-- Only a create brings a new number. -/
theorem runOperation_numbers (h : runOperation db op = .ok db') (hop : ¬ op.IsCreate) :
    db.SameNumbers db' := by
  cases runOperation_commits h with
  | signInGuest h => exact .of_eq (createGuest_ok h).meetings
  | signInGoogle h => exact .of_eq (upsertGoogleUser_ok h).meetings
  | updateProfile huser h => exact .of_eq (updateProfile_ok h).meetings
  | createMeeting => exact absurd trivial hop
  | updateMeeting host m =>
    exact sameNumbers_updateMeetingRow db m.id _ _ (fun _ => rfl) fun _ => rfl
  | cancelMeeting host m =>
    exact sameNumbers_updateMeetingRow db m.id _ _ (fun _ => rfl) fun _ => rfl
  | startMeeting host m =>
    exact sameNumbers_updateMeetingRow db m.id _ _ (fun _ => rfl) fun _ => rfl
  | @endMeeting _ _ now host m =>
    exact sameNumbers_updateMeetingRow db m.id _ (Meeting.finish_id · now)
      (fun _ => rfl) fun _ => rfl
  | @joinMeeting _ _ _ _ now _ _ user m huser hcheck hcommit =>
    obtain ⟨-, -, hmeetings, -⟩ := commitJoin_ok hcommit
    rw [Db.welcomeHost] at hmeetings
    split at hmeetings
    · have hsame := sameNumbers_updateMeetingRow db m.id (·.goLive now) (Meeting.goLive_id · now)
        (fun _ => rfl) fun _ => rfl
      exact fun m' hm' => hsame m' (hmeetings ▸ hm')
    · exact .of_eq hmeetings
  | postMessage h =>
    obtain ⟨-, p, -, -, hins, -⟩ := postMessage_eq_ok.mp h
    exact .of_eq (Db.insertMessage_ok hins).meetings
  | @hostEndMeeting _ now actor m =>
    exact sameNumbers_updateMeetingRow db m.id _ (Meeting.finish_id · now)
      (fun _ => rfl) fun _ => rfl
  | _ => exact .of_eq rfl

end Numbers

/-- A user after an account request was there, or has a number that no meeting has. -/
theorem runRequest_personal {db db' : Db} {r : Request} (h : runRequest db r = .ok db')
    (hr : r.IsAccount) : ∀ v ∈ db'.users,
      (∃ u ∈ db.users, v.personalMeetingId = u.personalMeetingId) ∨
        ∀ m ∈ db.meetings, m.meetingNumber ≠ v.personalMeetingId := by
  intro v hv
  cases runRequest_commits h with
  | signInGuest h =>
    simp only [createGuest, Service.bind_eq_ok, Service.pure_eq_ok] at h
    obtain ⟨name, -, pmi, hpmi, db₁, hins, h⟩ := h
    obtain ⟨rfl, rfl⟩ := Prod.mk.inj h
    rcases (mem_insertUser hins).mp hv with hv | rfl
    · exact .inl ⟨v, hv, rfl⟩
    · exact .inr (allocateMeetingNumber_free hpmi)
  | signInGoogle h =>
    obtain ⟨email, -, h⟩ := Service.bind_eq_ok.mp h
    dsimp only at h
    split at h
    · simp only [Service.bind_eq_ok, Service.pure_eq_ok] at h
      obtain ⟨pmi, hpmi, db₁, hins, h⟩ := h
      obtain ⟨rfl, rfl⟩ := Prod.mk.inj h
      rcases (mem_insertUser hins).mp hv with hv | rfl
      · exact .inl ⟨v, hv, rfl⟩
      · exact .inr (allocateMeetingNumber_free hpmi)
    · simp only [Service.bind_eq_ok, Service.pure_eq_ok] at h
      obtain ⟨db₁, hupd, h⟩ := h
      obtain ⟨-, rfl⟩ := Prod.mk.inj h
      obtain ⟨u, hu, rfl⟩ := (mem_updateUser hupd).mp hv
      exact .inl ⟨u, hu, by split <;> rfl⟩
  | updateProfile huser h =>
    simp only [updateProfile, Service.bind_eq_ok, Service.pure_eq_ok] at h
    obtain ⟨name, -, db₁, hupd, h⟩ := h
    obtain ⟨-, rfl⟩ := Prod.mk.inj h
    obtain ⟨u, hu, rfl⟩ := (mem_updateUser hupd).mp hv
    exact .inl ⟨u, hu, by split <;> rfl⟩
  | _ => cases hr

/-- An operation other than a create keeps the numbers apart. -/
theorem noClash_of_not_create {db db' : Db} {op : Operation} (h : runOperation db op = .ok db')
    (hop : ¬ op.IsCreate) (hclash : db.NoClash) : db'.NoClash := by
  have hnumbers := runOperation_numbers h hop
  have hkept (v : User) (hv : ∃ u ∈ db.users, v.personalMeetingId = u.personalMeetingId)
      (m' : Meeting) (hm' : m' ∈ db'.meetings) (hdrawn : m'.usePmi = false) :
      m'.meetingNumber ≠ v.personalMeetingId := by
    obtain ⟨u, hu, hvu⟩ := hv
    obtain ⟨m, hm, -, hnumber, hpmi⟩ := hnumbers m' hm'
    rw [hnumber, hvu]
    exact hclash m hm (hpmi.symm.trans hdrawn) u hu
  intro m' hm' hdrawn v hv
  by_cases hpeople : op.TouchesPeople
  · cases op with
    | request r =>
      -- a new personal number was looked up in the meetings as well
      rcases runRequest_personal h hpeople v hv with hold | hfree
      · exact hkept v hold m' hm' hdrawn
      · obtain ⟨m, hm, -, hnumber, -⟩ := hnumbers m' hm'
        rw [hnumber]
        exact hfree m hm
    | postMessage meetingId participantId body id now =>
      obtain ⟨view, h⟩ := Service.commit_eq_ok.mp h
      have husers := (postMessage_people h).1
      exact hkept v ⟨v, husers ▸ hv, rfl⟩ m' hm' hdrawn
    | _ => cases hpeople
  · have husers := (runOperation_samePeople h hpeople).users
    exact hkept v ⟨v, husers ▸ hv, rfl⟩ m' hm' hdrawn

/-- A create keeps the numbers apart exactly when it takes a fresh one. -/
theorem noClash_create_iff {db : Db} (hclash : db.NoClash) (userId : UserId) (req : MeetingCreate)
    (draws : CreateDraws) (now : DateTime) :
    (db.apply (.request (.createMeeting userId req draws now))).NoClash ↔
      FreshNumber db (.request (.createMeeting userId req draws now)) := by
  rw [Db.apply, FreshNumber, runOperation]
  cases h : runRequest db (.createMeeting userId req draws now) with
  | error e =>
    -- an accepted create with a candidate would have gone through
    refine iff_of_true hclash ?_
    intro hpmi host hhost haccepted k hk htakes
    obtain ⟨v, db', hcreate⟩ := createMeeting_of_accepted haccepted hpmi hk htakes
    have hok : runRequest db (.createMeeting userId req draws now) = .ok db' :=
      Service.bind_eq_ok.mpr ⟨host, hhost, Service.commit_eq_ok.mpr ⟨v, hcreate⟩⟩
    rw [hok] at h
    cases h
  | ok db' =>
    dsimp only
    obtain ⟨user, huser, hcreate⟩ := Service.bind_eq_ok.mp h
    obtain ⟨v, hcreate⟩ := Service.commit_eq_ok.mp hcreate
    have husers : db'.users = db.users := (createMeeting_people hcreate).users
    by_cases hpmi : req.usePmi = false
    · obtain ⟨k, hk, htakes, hfirst, row, hnumber, hdrawn, hrows⟩ :=
        createMeeting_first hcreate hpmi
      constructor
      · intro hnew _ _ _ _ i _ hi hbefore u hu
        -- the first candidate that the indexes let in is the one that is stored
        have hik : i = k := by
          rcases lt_trichotomy i k with hlt | rfl | hlt
          · exact absurd hi (hfirst i hlt)
          · rfl
          · exact absurd htakes (hbefore k hlt)
        rw [hik, ← hnumber]
        exact hnew row ((hrows row).mpr (.inr rfl)) hdrawn u (husers ▸ hu)
      · intro hfresh m hm hm' u hu
        rw [husers] at hu
        rcases (hrows m).mp hm with hm | rfl
        · exact hclash m hm hm' u hu
        · rw [hnumber]
          exact hfresh hpmi user huser (createMeeting_accepted hcreate) k hk htakes hfirst u hu
    · -- the host's personal number: its clash with that user is allowed
      refine iff_of_true ?_ fun hfalse => absurd hfalse hpmi
      intro m hm hdrawn u hu
      have hpersonal : req.usePmi = true := by simpa using hpmi
      exact hclash m (createMeeting_personal hcreate hpersonal hm hdrawn) hdrawn u (husers ▸ hu)

/-- **One operation.**  It keeps the numbers apart exactly when the number of the
meeting it creates, if it does, is drawn apart. -/
theorem noClash_apply_iff {db : Db} (hclash : db.NoClash) (op : Operation) :
    (db.apply op).NoClash ↔ FreshNumber db op := by
  by_cases hop : op.IsCreate
  · cases op with
    | request r =>
      cases r with
      | createMeeting userId req draws now => exact noClash_create_iff hclash userId req draws now
      | _ => cases hop
    | _ => cases hop
  · have hfresh : FreshNumber db op := by
      unfold FreshNumber
      split
      · exact absurd trivial hop
      · trivial
    refine iff_of_true ?_ hfresh
    cases h : runOperation db op with
    | error e =>
      rw [Db.apply, h]
      exact hclash
    | ok db' =>
      rw [apply_of_ok h]
      exact noClash_of_not_create h hop hclash

theorem noClash_empty : Db.empty.NoClash := fun m hm => absurd hm (Keyed.not_mem_empty m)

/-- **Drawn numbers and personal numbers.**  In a run from the empty database they
never clash, in any state, if and only if every create takes a fresh number. -/
theorem noClash_iff (ops : List Operation) :
    Runs.Always Db.apply Db.NoClash .empty ops ↔ Runs.Guarded Db.apply FreshNumber .empty ops :=
  Runs.always_iff_guarded (I := fun _ => True) trivial noClash_empty (fun _ _ _ => trivial)
    (fun _ op _ h => noClash_apply_iff h op) ops

/-- A host signs in, and creates a meeting that draws the personal number of that
host. -/
def createOnPersonal : List Operation :=
  [.request (.signInGoogle { sub := "g-host", email := some "ada@example.com" }
      ⟨"host", "", fun _ => (0, 1)⟩),
   .request (.createMeeting "host" {}
      { passcode := "hRtz4K", inviteToken := "tok", ids := fun _ => "m"
        numbers := fun _ => (0, 1), inviteeIds := fun _ => "" } 10)]

/-- The unique index knows the meetings only. -/
theorem createOnPersonal_clashes : ¬ Runs.Always Db.apply Db.NoClash .empty createOnPersonal := by
  intro h
  have hclash := h.last
  revert hclash
  decide +kernel

end ZoomClone
