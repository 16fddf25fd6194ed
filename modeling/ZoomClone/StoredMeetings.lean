/-
What is stored of a meeting, over all operations.

A create and an edit check the topic, the duration and the encryption of a meeting, and cut
its duration to what the plan of the host allows.  No other operation writes these columns,
and none changes the plan of a user, so whatever runs, every stored meeting would pass the
checks again (`meetingsValid_run`).
-/
import ZoomClone.ForeignKeys
import ZoomClone.MeetingEdits

namespace ZoomClone

section Plans

variable {db db' : Db}

/-- A user who was there before has kept the plan. -/
def Db.KeepsPlans (db db' : Db) : Prop :=
  ∀ v ∈ db'.users, v.id ∈ db.users.keys → ∃ u ∈ db.users, u.id = v.id ∧ u.plan = v.plan

theorem Db.KeepsPlans.of_eq (h : db'.users = db.users) : db.KeepsPlans db' :=
  fun v hv _ => ⟨v, h ▸ hv, rfl, rfl⟩

theorem insertUser_keepsPlans {u : User} (h : db.insertUser u = .ok db') : db.KeepsPlans db' := by
  intro v hv hid
  rcases (mem_insertUser h).mp hv with hold | rfl
  · exact ⟨v, hold, rfl, rfl⟩
  · -- the id of a new row is new
    rw [Db.insertUser] at h
    split at h
    · cases h
    · split at h
      · cases h
      · next hins => exact absurd hid (Keyed.insert?_eq_some.mp hins).1

theorem updateUser_keepsPlans {id : UserId} {f : User → User} {hf : ∀ u, (f u).id = u.id}
    (h : db.updateUser id f hf = .ok db') (hplan : ∀ u, (f u).plan = u.plan) :
    db.KeepsPlans db' := by
  intro v hv _
  obtain ⟨u, hu, rfl⟩ := (mem_updateUser h).mp hv
  refine ⟨u, hu, ?_⟩
  split
  · exact ⟨(hf u).symm, (hplan u).symm⟩
  · exact ⟨rfl, rfl⟩

theorem createGuest_keepsPlans {displayName : String} {draws : SignInDraws} {u : User}
    (h : createGuest db displayName draws = .ok (u, db')) : db.KeepsPlans db' := by
  simp only [createGuest, Service.bind_eq_ok, Service.pure_eq_ok] at h
  obtain ⟨name, -, pmi, -, db₁, hins, h⟩ := h
  obtain ⟨-, rfl⟩ := Prod.mk.inj h
  exact insertUser_keepsPlans hins

theorem upsertGoogleUser_keepsPlans {claims : GoogleClaims} {draws : SignInDraws} {u : User}
    (h : upsertGoogleUser db claims draws = .ok (u, db')) : db.KeepsPlans db' := by
  obtain ⟨email, -, h⟩ := Service.bind_eq_ok.mp h
  dsimp only at h
  split at h
  · simp only [Service.bind_eq_ok, Service.pure_eq_ok] at h
    obtain ⟨pmi, -, db₁, hins, h⟩ := h
    obtain ⟨-, rfl⟩ := Prod.mk.inj h
    exact insertUser_keepsPlans hins
  · simp only [Service.bind_eq_ok, Service.pure_eq_ok] at h
    obtain ⟨db₁, hupdate, h⟩ := h
    obtain ⟨-, rfl⟩ := Prod.mk.inj h
    exact updateUser_keepsPlans hupdate fun _ => rfl

theorem updateProfile_keepsPlans {user u : User} {name : Option String}
    {avatarUrl : Option (Option String)}
    (h : updateProfile db user name avatarUrl = .ok (u, db')) : db.KeepsPlans db' := by
  simp only [updateProfile, Service.bind_eq_ok, Service.pure_eq_ok] at h
  obtain ⟨name, -, db₁, hupdate, h⟩ := h
  obtain ⟨-, rfl⟩ := Prod.mk.inj h
  exact updateUser_keepsPlans hupdate fun _ => rfl

/-- A meeting stays valid while the plan of its host stays. -/
theorem Meeting.Valid.of_keepsPlans {m : Meeting} (h : m.Valid (db.getUser m.hostId))
    (hplans : db.KeepsPlans db')
    (hhost : m.hostId ∈ db.users.keys) : m.Valid (db'.getUser m.hostId) where
  trimmed := h.trimmed
  topic := h.topic
  duration := h.duration
  plan := fun v hv hbasic => by
    have hid : v.id = m.hostId := Keyed.key_of_find? hv
    obtain ⟨u, hu, huid, hplan⟩ := hplans v (Keyed.mem_of_find? hv) (hid ▸ hhost)
    refine h.plan u ?_ (hplan.trans hbasic)
    rw [Db.getUser, ← hid, ← huid]
    exact Keyed.find?_of_mem hu
  encryption := h.encryption

end Plans

section Step

variable {db db' : Db} {op : Operation}

/-- The meetings are the same, and so are the plans of their hosts. -/
theorem Db.MeetingsValid.of_eq (h : db.MeetingsValid) (hhosts : db.FullHosts)
    (hplans : db.KeepsPlans db')
    (hmeetings : db'.meetings = db.meetings) : db'.MeetingsValid := by
  intro m hm
  rw [hmeetings] at hm
  obtain ⟨u, hu, hid, -⟩ := hhosts m hm
  exact (h m hm).of_keepsPlans hplans (hid ▸ Keyed.key_mem_keys hu)

/-- A change of columns that nobody checks. -/
theorem Db.MeetingsValid.update (h : db.MeetingsValid) {id : MeetingId} {f : Meeting → Meeting}
    (hf : ∀ m, (f m).id = m.id) (hrow : ∀ (m : Meeting) host, m.Valid host → (f m).Valid host)
    (hhost : ∀ m, (f m).hostId = m.hostId) (husers : db'.users = db.users)
    (hmeetings : db'.meetings = (db.updateMeetingRow id f hf).meetings) : db'.MeetingsValid := by
  intro m hm
  rw [hmeetings] at hm
  rw [Db.getUser, husers, ← Db.getUser]
  obtain ⟨n, hn, rfl⟩ := Db.mem_updateMeetingRow.mp hm
  split
  · rw [hhost]
    exact hrow n _ (h n hn)
  · exact h n hn

theorem Meeting.Valid.cancel {m : Meeting} {host : Option User} (h : m.Valid host) :
    m.cancel.Valid host :=
  ⟨h.trimmed, h.topic, h.duration, h.plan, h.encryption⟩

theorem Meeting.Valid.goLive {m : Meeting} {host : Option User}
    (h : m.Valid host) (now : DateTime) :
    (m.goLive now).Valid host :=
  ⟨h.trimmed, h.topic, h.duration, h.plan, h.encryption⟩

theorem Meeting.Valid.finish {m : Meeting} {host : Option User}
    (h : m.Valid host) (now : DateTime) :
    (m.finish now).Valid host :=
  ⟨h.trimmed, h.topic, h.duration, h.plan, h.encryption⟩

theorem currentFullUser_getUser {userId : UserId} {host : User}
    (h : currentFullUser db userId = .ok host) :
    db.getUser host.id = some host := by
  have hget := (currentFullUser_eq_ok.mp h).1
  rwa [(Keyed.find?_eq_some.mp hget).2]

/-- **One operation.**  Only a create and an edit write a column that is checked. -/
theorem Db.MeetingsValid.commits (h : db.MeetingsValid) (hhosts : db.FullHosts)
    (hrun : runOperation db op = .ok db') :
    db'.MeetingsValid := by
  cases runOperation_commits hrun with
  | signInGuest hcall =>
    exact h.of_eq hhosts (createGuest_keepsPlans hcall) (createGuest_ok hcall).meetings
  | signInGoogle hcall =>
    exact h.of_eq hhosts (upsertGoogleUser_keepsPlans hcall) (upsertGoogleUser_ok hcall).meetings
  | updateProfile huser hcall =>
    exact h.of_eq hhosts (updateProfile_keepsPlans hcall) (updateProfile_ok hcall).meetings
  | createMeeting hhost hcall => exact createMeeting_valid h (currentFullUser_getUser hhost) hcall
  | updateMeeting =>
    obtain ⟨host, hhost, hcall⟩ := Service.bind_eq_ok.mp hrun
    obtain ⟨v, hcall⟩ := Service.commit_eq_ok.mp hcall
    exact updateMeeting_valid h (currentFullUser_getUser hhost) hcall
  | cancelMeeting =>
    exact h.update Meeting.cancel_id (fun _ _ hm => hm.cancel) (fun _ => rfl) rfl rfl
  | @startMeeting _ _ now =>
    exact h.update (Meeting.goLive_id · now) (fun _ _ hm => hm.goLive now) (fun _ => rfl) rfl rfl
  | @endMeeting _ _ now =>
    exact h.update (Meeting.finish_id · now) (fun _ _ hm => hm.finish now) (fun _ => rfl) rfl rfl
  | @hostEndMeeting _ now =>
    exact h.update (Meeting.finish_id · now) (fun _ _ hm => hm.finish now) (fun _ => rfl) rfl rfl
  | @joinMeeting _ _ _ _ now _ _ user m huser hcheck hcommit =>
    obtain ⟨-, -, hmeetings, -⟩ := commitJoin_ok hcommit
    have husers := (commitJoin_people hcommit).users
    rw [Db.welcomeHost] at hmeetings
    split at hmeetings
    · exact h.update (Meeting.goLive_id · now) (fun _ _ hm => hm.goLive now)
        (fun _ => rfl) husers hmeetings
    · exact h.of_eq hhosts (.of_eq husers) hmeetings
  | postMessage hcall =>
    obtain ⟨-, p, -, -, hins, -⟩ := postMessage_eq_ok.mp hcall
    exact h.of_eq hhosts (.of_eq (postMessage_people hcall).1) (Db.insertMessage_ok hins).meetings
  | _ => exact h.of_eq hhosts (.of_eq rfl) rfl

end Step

theorem meetingsValid_empty : Db.empty.MeetingsValid :=
  fun m hm => absurd hm (Keyed.not_mem_empty m)

/-- **Every stored meeting is valid**, whatever operations have run. -/
theorem meetingsValid_run (ops : List Operation) :
    (Runs.run Db.apply .empty ops).MeetingsValid := by
  have hstep (db : Db) (op : Operation) (h : db.MeetingsValid ∧ db.FullHosts) :
      (db.apply op).MeetingsValid ∧ (db.apply op).FullHosts := by
    refine ⟨?_, fullHosts_apply h.2 op⟩
    cases hrun : runOperation db op with
    | error e =>
      rw [Db.apply, hrun]
      exact h.1
    | ok db' =>
      rw [apply_of_ok hrun]
      exact h.1.commits h.2 hrun
  have halways : Runs.Always Db.apply (fun db => db.MeetingsValid ∧ db.FullHosts) .empty ops :=
    Runs.always_of_step ⟨meetingsValid_empty, referencesHold_empty.hosts⟩ hstep ops
  exact halways.last.1

end ZoomClone
