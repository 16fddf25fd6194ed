/-
The cap on the mesh and the live sockets.

The cap is enforced on open rows: at the join, and again when a socket connects.
What it protects is the number of participants with a registered socket
(`RoomRegistry.size`).  The two part ways where a row is closed without its
socket: a REST removal, a REST end, a second socket of a removed participant.

* `meshCap_next` — a step keeps the cap when no socket of a closed row is in the
  room that somebody enters;
* `meshCap_of_liveRooms` — the same for runs;
* `meshCap_broken` — a removed participant whose socket stays makes seven.
-/
import ZoomClone.Server

namespace ZoomClone

/-- No meeting has more participants with a registered socket than the cap. -/
def MeshCap (s : Server) : Prop := ∀ m, s.registry.size m ≤ maxMeshParticipants

/-- Every registered socket of the room belongs to an open row. -/
def LiveRoom (s : Server) (m : MeetingId) : Prop :=
  ∀ c ∈ s.registry.connections m, s.db.isOpen c.participantId

/-- A socket that is let in finds only sockets of open rows in its room. -/
def EntersLiveRoom (s : Server) : Event → Prop
  | .connect meetingNumber sessionId _ =>
    match authenticate s.db meetingNumber sessionId with
    | .ok (meeting, _) => LiveRoom s meeting.id
    | .error _ => True
  | _ => True

instance (s : Server) (m : MeetingId) : Decidable (LiveRoom s m) :=
  inferInstanceAs (Decidable (∀ c ∈ _, _))

instance (s : Server) (e : Event) : Decidable (EntersLiveRoom s e) := by
  unfold EntersLiveRoom
  split
  · split <;> infer_instance
  · infer_instance

/-! ### Counting the participants of a room -/

theorem participantIds_nodup (r : RoomRegistry) (m : MeetingId) : (r.participantIds m).Nodup :=
  List.nodup_dedup _

/-- A room has at most as many participants as a list that names them all. -/
theorem size_le_length {r : RoomRegistry} {m : MeetingId} {ids : List ParticipantId}
    (h : ∀ c ∈ r.connections m, c.participantId ∈ ids) : r.size m ≤ ids.length := by
  refine (List.subperm_of_subset (participantIds_nodup r m) ?_).length_le
  intro p hp
  obtain ⟨c, hc, rfl⟩ := RoomRegistry.mem_participantIds.mp hp
  exact h c hc

theorem size_le_of_sub {r r' : RoomRegistry} {m : MeetingId}
    (h : ∀ c ∈ r'.connections m, c ∈ r.connections m) : r'.size m ≤ r.size m := by
  refine size_le_length ?_
  intro c hc
  exact RoomRegistry.mem_participantIds.mpr ⟨c, h c hc, rfl⟩

/-- A room whose sockets all belong to open rows of its meeting. -/
theorem size_le_activeCount {db : Db} {r : RoomRegistry} {m : MeetingId}
    (h : ∀ c ∈ r.connections m, ∃ p ∈ db.activeRows m, p.id = c.participantId) :
    r.size m ≤ activeCount db m := by
  have hle : r.size m ≤ ((db.activeRows m).map Participant.id).length := by
    refine size_le_length ?_
    intro c hc
    obtain ⟨p, hp, hid⟩ := h c hc
    exact hid ▸ List.mem_map_of_mem hp
  rwa [List.length_map] at hle

/-! ### One event -/

/-- In a valid state the sockets of a live room belong to open rows of the
meeting itself. -/
theorem LiveRoom.row {s : Server} (hv : s.Valid) {m : MeetingId} (h : LiveRoom s m)
    {c : Connection} (hc : c ∈ s.registry.connections m) :
    ∃ p ∈ s.db.activeRows m, p.id = c.participantId := by
  obtain ⟨p, hp, hpid, hopen⟩ := Db.isOpen_iff.mp (h c hc)
  obtain ⟨hmeeting, hsocket⟩ := hv.registered m c hc
  obtain ⟨q, hq, hid, hqm⟩ := hv.row c hsocket
  obtain rfl : p = q := Keyed.eq_of_key_eq hp hq (hpid.trans hid.symm)
  exact ⟨p, Db.mem_activeRows.mpr ⟨hp, hqm.trans hmeeting, hopen⟩, hpid⟩

/-- Only an accepted socket adds a connection to a room. -/
theorem mem_connections_acceptSocket {s : Server} {meeting : Meeting} {p : Participant}
    {c : ConnectionId} {m : MeetingId} {d : Connection}
    (h : d ∈ (acceptSocket s meeting p c).1.registry.connections m) :
    d ∈ s.registry.connections m ∨ (d = ⟨c, p.id, meeting.id⟩ ∧ m = meeting.id) := by
  rw [acceptSocket] at h
  split at h
  · obtain ⟨hd, hne⟩ := RoomRegistry.mem_connections_remove.mp h
    rcases RoomRegistry.mem_connections_add.mp hd with ⟨rfl, hm⟩ | ⟨hd, -⟩
    · exact absurd rfl (hne hm)
    · exact .inl hd
  · rcases RoomRegistry.mem_connections_add.mp h with ⟨rfl, hm⟩ | ⟨hd, -⟩
    · exact .inr ⟨rfl, hm.symm⟩
    · exact .inl hd

theorem mem_connections_connect {s : Server} {number : String} {sessionId : SessionId}
    {c : ConnectionId} {m : MeetingId} {d : Connection}
    (h : d ∈ (s.connect number sessionId c).1.registry.connections m) :
    d ∈ s.registry.connections m ∨ ∃ meeting p,
      authenticate s.db number sessionId = .ok (meeting, p) ∧
      d = ⟨c, p.id, meeting.id⟩ ∧ m = meeting.id := by
  rw [Server.connect] at h
  split at h
  · exact .inl h
  · next meeting p hauth =>
    have haccept : d ∈ (acceptSocket s meeting p c).1.registry.connections m := by
      split at h
      · next h' => rwa [h']
      · next h' =>
        rw [h']
        exact send_sub h
    rcases mem_connections_acceptSocket haccept with hd | ⟨hd, hm⟩
    · exact .inl hd
    · exact .inr ⟨meeting, p, hauth, hd, hm⟩

/-- Events other than connects add no socket to any room. -/
theorem connections_next_sub {s : Server} {e : Event} {m : MeetingId} {d : Connection}
    (hd : d ∈ (s.next e).registry.connections m) :
    d ∈ s.registry.connections m ∨ ∃ number sessionId c, e = .connect number sessionId c ∧
      d ∈ (s.connect number sessionId c).1.registry.connections m := by
  cases e with
  | request r => exact .inl hd
  | connect number sessionId c =>
    unfold Server.next Server.step at hd
    dsimp only at hd
    split at hd
    · exact .inl hd
    · exact .inr ⟨number, sessionId, c, rfl, hd⟩
  | message c message id now =>
    unfold Server.next Server.step at hd
    dsimp only at hd
    split at hd
    · exact .inl (send_sub hd)
    · exact .inl hd
  | disconnect c now =>
    unfold Server.next Server.step at hd
    dsimp only at hd
    split at hd
    · exact .inl (RoomRegistry.mem_connections_remove.mp (send_sub hd)).1
    · exact .inl hd

/-- **One event.**  The cap survives it when nobody enters a room that holds the
socket of a closed row. -/
theorem meshCap_next {s : Server} (hv : s.Valid) (hc : MeshCap s) {e : Event}
    (hlive : EntersLiveRoom s e) : MeshCap (s.next e) := by
  intro m
  by_cases hsub : ∀ d ∈ (s.next e).registry.connections m, d ∈ s.registry.connections m
  · exact (size_le_of_sub hsub).trans (hc m)
  · -- Some socket is new in the room: the event let it in, so the room was live.
    push Not at hsub
    obtain ⟨d, hd, hnew⟩ := hsub
    rcases connections_next_sub hd with hold | ⟨number, sessionId, c, rfl, hconnect⟩
    · exact absurd hold hnew
    rcases mem_connections_connect hconnect with hold | ⟨meeting, p, hauth, hdc, rfl⟩
    · exact absurd hold hnew
    have hroom : LiveRoom s meeting.id := by
      have h := hlive
      unfold EntersLiveRoom at h
      dsimp only at h
      rw [hauth] at h
      exact h
    obtain ⟨hp, hmeeting, -, -, hopen⟩ := authenticate_eq_ok.mp hauth
    suffices h : (s.next (.connect number sessionId c)).registry.size meeting.id ≤
        activeCount s.db meeting.id from h.trans (hv.db.capped meeting.id)
    refine size_le_activeCount ?_
    intro d' hd'
    rcases connections_next_sub hd' with hold | ⟨number', sessionId', c', heq, hconnect'⟩
    · exact hroom.row hv hold
    cases heq
    rcases mem_connections_connect hconnect' with hold | ⟨meeting', p', hauth', rfl, -⟩
    · exact hroom.row hv hold
    · rw [hauth] at hauth'
      obtain ⟨rfl, rfl⟩ := Prod.mk.inj (Except.ok.inj hauth')
      refine ⟨p, Db.mem_activeRows.mpr ⟨participantBySession_mem hp, ?_, hopen⟩, rfl⟩
      exact (Keyed.key_of_find? hmeeting).symm

/-! ### Runs -/

/-- **The cap on live sockets.**  In a run in which every socket that is let in
finds only sockets of open rows in its room, no room ever has more participants
than the cap. -/
theorem meshCap_of_liveRooms (events : List Event)
    (h : Runs.Guarded Server.next EntersLiveRoom {} events) :
    Runs.Always Server.next MeshCap {} events := by
  have hinit : MeshCap {} := fun m => Nat.zero_le _
  have hrun := Runs.Guarded.always (I := fun s => s.Valid ∧ MeshCap s)
    ⟨Server.valid_init, hinit⟩ (fun s e hs he => ⟨hs.1.next e, meshCap_next hs.1 hs.2 he⟩) h
  exact hrun.mono fun s hs => hs.2

/-- A room fills up and its sockets respect the cap. -/
theorem meshCap_of_liveRooms_full :
    Runs.Always Server.next MeshCap {}
    (openMeeting ++ ["1", "2", "3", "4", "5", "6"].flatMap enter) :=
  meshCap_of_liveRooms _ (by decide +kernel)

/-- A participant removed over REST keeps its socket, and the place of its row is
taken by a seventh. -/
theorem meshCap_broken : ¬ ∀ events : List Event, Runs.Always Server.next MeshCap {} events := by
  intro h
  have hlast := (h (openMeeting ++ ["1", "2", "3", "4", "5", "6"].flatMap enter ++
    [.request (.removeParticipant "host" "1" 30)] ++ enter "7")).last "m"
  revert hlast
  decide +kernel

end ZoomClone
