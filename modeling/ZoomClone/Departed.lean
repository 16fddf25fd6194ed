/-
What a departed participant can still do.

A socket outlives its row when the row is closed by a REST request or when a
second socket of the same participant is left registered.  The handlers check
the session of the socket, the room of the target and the host's row, but none
of them checks that the acting row is open.

* `Quiet` — a message changes no row and sends no frame to anybody else;
* `Harmless` — the conditions on the message and on the state under which a
  handler has nothing to do, or refuses;
* `quiet_iff_harmless` — for a departed participant the two agree.
-/
import ZoomClone.Server

namespace ZoomClone

/-! ### Who is sent a frame -/

/-- Every frame goes to a socket of that participant. -/
def OwnFrames (p : ParticipantId) (sent : List Delivery) : Prop :=
  ∀ d ∈ sent, ∀ f, d.item = .frame f → d.connection.participantId = p

/-- No other participant has a socket in the room. -/
def Alone (r : RoomRegistry) (c : Connection) : Prop :=
  ∀ d ∈ r.connections c.meetingId, d.participantId = c.participantId

@[simp] theorem ownFrames_nil (p : ParticipantId) : OwnFrames p [] := by
  intro d hd
  cases hd

theorem ownFrames_append {p : ParticipantId} {xs ys : List Delivery} :
    OwnFrames p (xs ++ ys) ↔ OwnFrames p xs ∧ OwnFrames p ys :=
  List.forall_mem_append

theorem performAll_cons_sent (r : RoomRegistry) (a : Action) (as : List Action) :
    (performAll r (a :: as)).2 = (perform r a).2 ++ (performAll (perform r a).1 as).2 := rfl

theorem ownFrames_send {r : RoomRegistry} {c : Connection} {f : Frame} :
    OwnFrames c.participantId (performAll r [.send c f]).2 := by
  intro d hd g hg
  obtain rfl : d = ⟨c, .frame f⟩ := by simpa [performAll, perform] using hd
  rfl

theorem ownFrames_sendToParticipant {r : RoomRegistry} {m : MeetingId} {t p : ParticipantId}
    {f : Frame} :
    OwnFrames p (perform r (.sendToParticipant m t f)).2 ↔ (r.isInRoom m t → t = p) := by
  cases h : r.find m t with
  | none => simp [perform, RoomRegistry.isInRoom, h]
  | some c =>
    have ht : c.participantId = t := (RoomRegistry.find_mem h).2
    simp [perform, RoomRegistry.isInRoom, h, OwnFrames, ht]

theorem ownFrames_broadcast {r : RoomRegistry} {c : Connection} {f : Frame} :
    OwnFrames c.participantId (perform r (.broadcast c.meetingId f none)).2 ↔ Alone r c := by
  simp [perform, OwnFrames, Alone, broadcastTargets]

/-- In a room where one is alone, a frame to a participant comes back to oneself. -/
theorem Alone.sendToParticipant {r : RoomRegistry} {c : Connection} (h : Alone r c)
    {t : ParticipantId} {f : Frame} :
    OwnFrames c.participantId (perform r (.sendToParticipant c.meetingId t f)).2 := by
  rw [ownFrames_sendToParticipant, RoomRegistry.isInRoom_iff]
  rintro ⟨d, hd, rfl⟩
  exact h d hd

/-! ### Harmless messages -/

/-- The acting row passes the check in front of the host tools. -/
def ActsAsHost (db : Db) (c : Connection) (actor : Participant) : Prop :=
  db.getParticipant c.participantId = some actor ∧ ∃ m, requireHost db actor = .ok m

/-- A message that its handler refuses, or that finds nothing to change and
nobody else to tell. -/
def HarmlessInbound (db : Db) (r : RoomRegistry) (c : Connection) (inbound : Inbound) (id : String)
    (now : DateTime) : Prop :=
  match inbound.handler with
  | .ping => True
  | .signal _ =>
    ∀ t, signalTarget inbound = some t → r.isInRoom c.meetingId t → t = c.participantId
  | .stateUpdate =>
    ∀ p, db.getParticipant c.participantId = some p →
      p.applyMedia (.ofPayload inbound.payload) = p ∧ Alone r c
  | .chatSend =>
    ∀ body, Json.get inbound.payload "body" = .str body →
      PyStr.strip (PyStr.take body maxChatBodyLength) = "" ∨ id ∈ db.chatMessages.keys
  | .hostMute =>
    ∀ actor targetId t, ActsAsHost db c actor → hostTarget inbound = some targetId →
      targetRow db actor targetId = .ok t → t.isMuted = true ∧ Alone r c
  | .hostMuteAll =>
    ∀ actor, ActsAsHost db c actor →
      (∀ p ∈ db.activeRows c.meetingId, p.isMuted = true) ∧
        (db.activeRows c.meetingId = [] ∨ Alone r c)
  | .hostRemove =>
    ∀ actor targetId t, ActsAsHost db c actor → hostTarget inbound = some targetId →
      targetRow db actor targetId = .ok t → t.id ≠ actor.id →
      t.leftAt ≠ none ∧ t.connectionId = none ∧ Alone r c
  | .hostEnd =>
    ∀ actor m, ActsAsHost db c actor → db.getMeeting c.meetingId = some m →
      m.status = .ended ∧ m.endedAt = some now ∧ db.activeRows c.meetingId = [] ∧ Alone r c

def Harmless (db : Db) (r : RoomRegistry) (c : Connection) (message : Json) (id : String)
    (now : DateTime) : Prop :=
  ∀ inbound, readMessage message = .ok inbound → HarmlessInbound db r c inbound id now

/-! ### Handler by handler -/

/-- A handled message changes no row and sends no frame to anybody else. -/
def QuietResult (db : Db) (r : RoomRegistry) (c : Connection)
    (result : Service (Db × List Action)) :
    Prop :=
  ∀ db' actions, result = .ok (db', actions) →
    db' = db ∧ OwnFrames c.participantId (performAll r actions).2

section Handlers

variable {db : Db} {r : RoomRegistry} {c : Connection} {inbound : Inbound}

theorem quiet_handleSignal {kind : SignalKind} :
    QuietResult db r c (handleSignal db r c kind inbound) ↔
      ∀ t, signalTarget inbound = some t → r.isInRoom c.meetingId t → t = c.participantId := by
  constructor
  · intro h t ht hroom
    have hown := (h _ _ (handleSignal_eq_ok.mpr ⟨t, ht, hroom, rfl, rfl⟩)).2
    rw [performAll_cons_sent, ownFrames_append, ownFrames_sendToParticipant] at hown
    exact hown.1 hroom
  · intro h db' actions hok
    obtain ⟨t, ht, hroom, rfl, rfl⟩ := handleSignal_eq_ok.mp hok
    refine ⟨rfl, ?_⟩
    rw [performAll_cons_sent, ownFrames_append, ownFrames_sendToParticipant]
    exact ⟨fun _ => h t ht hroom, ownFrames_nil _⟩

/-- A single broadcast is quiet exactly when nobody else is there. -/
theorem ownFrames_singleBroadcast {f : Frame} :
    OwnFrames c.participantId (performAll r [.broadcast c.meetingId f none]).2 ↔ Alone r c := by
  rw [performAll_cons_sent, ownFrames_append, ownFrames_broadcast]
  exact and_iff_left (ownFrames_nil _)

theorem quiet_handleStateUpdate :
    QuietResult db r c (handleStateUpdate db c inbound) ↔
      ∀ p, db.getParticipant c.participantId = some p →
        p.applyMedia (.ofPayload inbound.payload) = p ∧ Alone r c := by
  constructor
  · intro h p hp
    obtain ⟨hdb, hown⟩ := h _ _ (handleStateUpdate_eq_ok.mpr
      ⟨_, applyStateUpdate_eq_ok.mpr ⟨p, hp, rfl, rfl⟩, rfl⟩)
    exact ⟨(Db.updateRow_eq_self (getParticipant_mem hp) _ _).mp hdb,
      ownFrames_singleBroadcast.mp hown⟩
  · intro h db' actions hok
    obtain ⟨v, hv, rfl⟩ := handleStateUpdate_eq_ok.mp hok
    obtain ⟨p, hp, -, rfl⟩ := applyStateUpdate_eq_ok.mp hv
    obtain ⟨hsame, halone⟩ := h p hp
    exact ⟨(Db.updateRow_eq_self (getParticipant_mem hp) _ _).mpr hsame,
      ownFrames_singleBroadcast.mpr halone⟩

/-- A chat message that is stored is never quiet, whoever is there to hear it. -/
theorem quiet_handleChatSend {p : Participant} (hp : db.getParticipant c.participantId = some p)
    (hmeeting : p.meetingId = c.meetingId) (id : String) (now : DateTime) :
    QuietResult db r c (handleChatSend db c inbound id now) ↔
      ∀ body, Json.get inbound.payload "body" = .str body →
        PyStr.strip (PyStr.take body maxChatBodyLength) = "" ∨ id ∈ db.chatMessages.keys := by
  constructor
  · intro h body hbody
    by_contra hcon
    obtain ⟨hblank, hid⟩ := not_or.mp hcon
    obtain ⟨db', hins⟩ := Db.insertMessage_of_not_mem (c := ⟨id, c.meetingId, c.participantId,
      storedBody (PyStr.take body maxChatBodyLength), now⟩) hid
    have hpost := postMessage_eq_ok.mpr ⟨hblank, p, hp, hmeeting, hins, rfl⟩
    obtain ⟨hdb, -⟩ := h _ _ (handleChatSend_eq_ok.mpr ⟨body, _, hbody, hpost, rfl⟩)
    exact (Db.insertMessage_ne hins).2 hdb
  · intro h db' actions hok
    obtain ⟨body, v, hbody, hpost, -⟩ := handleChatSend_eq_ok.mp hok
    obtain ⟨hblank, -, -, -, hins, -⟩ := postMessage_eq_ok.mp hpost
    rcases h body hbody with hempty | hid
    · exact absurd hempty hblank
    · exact absurd hid (Db.insertMessage_ne hins).1

theorem mute_eq_self {p : Participant} : p.mute = p ↔ p.isMuted = true := by
  cases p
  simp [Participant.mute, eq_comm]

/-- A mute order and its echo are quiet exactly when nobody else is there. -/
theorem ownFrames_mutedYou {t : ParticipantId} {v : ParticipantView} {as : List Action} :
    OwnFrames c.participantId (performAll r (mutedYou c t :: peerUpdated c v :: as)).2 ↔
      Alone r c ∧ OwnFrames c.participantId (performAll r as).2 := by
  rw [performAll_cons_sent, ownFrames_append, performAll_cons_sent, ownFrames_append]
  have hbroadcast : OwnFrames c.participantId (perform r (peerUpdated c v)).2 ↔ Alone r c :=
    ownFrames_broadcast
  constructor
  · rintro ⟨-, h, hrest⟩
    exact ⟨hbroadcast.mp h, hrest⟩
  · rintro ⟨halone, hrest⟩
    exact ⟨halone.sendToParticipant, hbroadcast.mpr halone, hrest⟩

theorem quiet_handleHostMute :
    QuietResult db r c (handleHostMute db c inbound) ↔
      ∀ actor targetId t, ActsAsHost db c actor → hostTarget inbound = some targetId →
        targetRow db actor targetId = .ok t → t.isMuted = true ∧ Alone r c := by
  constructor
  · intro h actor targetId t hactor htarget ht
    have hmute := hostMute_eq_ok.mpr ⟨hactor.2, t, ht, rfl, rfl⟩
    obtain ⟨hdb, hown⟩ := h _ _ (handleHostMute_eq_ok.mpr
      ⟨targetId, actor, _, htarget, hactor.1, hmute, rfl⟩)
    have hmem := getParticipant_mem (targetRow_eq_ok.mp ht).1
    exact ⟨mute_eq_self.mp ((Db.updateRow_eq_self hmem _ _).mp hdb), (ownFrames_mutedYou.mp hown).1⟩
  · intro h db' actions hok
    obtain ⟨targetId, actor, v, htarget, hactor, hmute, rfl⟩ := handleHostMute_eq_ok.mp hok
    obtain ⟨hhost, t, ht, -, rfl⟩ := hostMute_eq_ok.mp hmute
    obtain ⟨hmuted, halone⟩ := h actor targetId t ⟨hactor, hhost⟩ htarget ht
    have hmem := getParticipant_mem (targetRow_eq_ok.mp ht).1
    exact ⟨(Db.updateRow_eq_self hmem _ _).mpr (mute_eq_self.mpr hmuted),
      ownFrames_mutedYou.mpr ⟨halone, ownFrames_nil _⟩⟩

theorem ownFrames_muteAll {vs : List ParticipantView} :
    OwnFrames c.participantId
        (performAll r (vs.flatMap fun v => [mutedYou c v.id, peerUpdated c v])).2 ↔
      vs = [] ∨ Alone r c := by
  induction vs with
  | nil => simp [performAll]
  | cons v vs ih =>
    rw [List.flatMap_cons, List.cons_append, List.cons_append, List.nil_append, ownFrames_mutedYou,
      ih]
    simp only [reduceCtorEq, false_or]
    exact ⟨fun h => h.1, fun h => ⟨h, .inr h⟩⟩

/-- The open rows of the meeting never include a departed actor. -/
theorem activeRows_filter_departed {actor : Participant} (hactor : actor ∈ db.participants)
    (hleft : actor.leftAt ≠ none) (m : MeetingId) :
    ((db.activeRows m).filter fun p => p.id ≠ actor.id) = db.activeRows m := by
  rw [List.filter_eq_self]
  intro p hp
  obtain ⟨hp, -, hopen⟩ := Db.mem_activeRows.mp hp
  rw [decide_eq_true_eq]
  rintro hid
  rw [Keyed.eq_of_key_eq hp hactor hid] at hopen
  exact hleft hopen

theorem quiet_handleHostMuteAll {p : Participant} (hp : db.getParticipant c.participantId = some p)
    (hmeeting : p.meetingId = c.meetingId) (hleft : p.leftAt ≠ none) :
    QuietResult db r c (handleHostMuteAll db c) ↔
      ∀ actor, ActsAsHost db c actor →
        (∀ q ∈ db.activeRows c.meetingId, q.isMuted = true) ∧
          (db.activeRows c.meetingId = [] ∨ Alone r c) := by
  have hrows := activeRows_filter_departed (getParticipant_mem hp) hleft c.meetingId
  have hsame : db.updateRows
      (fun q => q.meetingId = p.meetingId ∧ q.leftAt = none ∧ q.id ≠ p.id)
      Participant.mute Participant.mute_id = db ↔
        ∀ q ∈ db.activeRows c.meetingId, q.isMuted = true := by
    rw [Db.updateRows_eq_self, ← hrows, hmeeting]
    simp only [List.mem_filter, Db.mem_activeRows, decide_eq_true_eq, mute_eq_self]
    constructor
    · rintro h q ⟨⟨hq, hqm, hopen⟩, hid⟩
      exact h q hq ⟨hqm, hopen, hid⟩
    · rintro h q hq ⟨hqm, hopen, hid⟩
      exact h q ⟨⟨hq, hqm, hopen⟩, hid⟩
  constructor
  · rintro h actor ⟨hactor, hhost⟩
    obtain rfl : p = actor := Option.some.inj (hp.symm.trans hactor)
    have hmute := hostMuteAll_eq_ok.mpr ⟨hhost, rfl, rfl⟩
    obtain ⟨hdb, hown⟩ := h _ _ (handleHostMuteAll_eq_ok.mpr ⟨p, _, hp, hmute, rfl⟩)
    rw [hmeeting, hrows, ownFrames_muteAll, List.map_eq_nil_iff] at hown
    exact ⟨hsame.mp hdb, hown⟩
  · intro h db' actions hok
    obtain ⟨actor, vs, hactor, hmute, rfl⟩ := handleHostMuteAll_eq_ok.mp hok
    obtain rfl : p = actor := Option.some.inj (hp.symm.trans hactor)
    obtain ⟨hhost, rfl, rfl⟩ := hostMuteAll_eq_ok.mp hmute
    obtain ⟨hmuted, halone⟩ := h p ⟨hp, hhost⟩
    rw [hmeeting, hrows, ownFrames_muteAll, List.map_eq_nil_iff]
    rw [← hmeeting] at halone ⊢
    exact ⟨hmeeting ▸ hsame.mpr hmuted, halone⟩

theorem markLeft_eq_self {p : Participant} {now : DateTime} :
    p.markLeft now = p ↔ p.leftAt ≠ none ∧ p.connectionId = none := by
  obtain ⟨id, meetingId, userId, displayName, role, sessionId, connectionId, isMuted, isVideoOn,
    isHandRaised, joinedAt, leftAt⟩ := p
  cases leftAt <;> simp [Participant.markLeft, eq_comm]

/-- Closing a socket sends no frame. -/
theorem ownFrames_closes {p : ParticipantId} (cs : List Connection) {code : ℕ} :
    OwnFrames p (cs.map fun c => ⟨c, .close code⟩) := by
  intro d hd f hf
  obtain ⟨c, -, rfl⟩ := List.mem_map.mp hd
  cases hf

theorem ownFrames_closeParticipant {p : ParticipantId} {m : MeetingId} {t : ParticipantId}
    {code : ℕ} : OwnFrames p (perform r (.closeParticipant m t code)).2 := by
  unfold perform
  dsimp only
  split
  · exact ownFrames_nil p
  · next d _ => exact ownFrames_closes [d]

theorem ownFrames_removal {t : ParticipantId} :
    OwnFrames c.participantId (performAll r (removal c t)).2 ↔ Alone r c := by
  have hbroadcast : OwnFrames c.participantId (perform r (peerLeft c t)).2 ↔ Alone r c :=
    ownFrames_broadcast
  rw [removal]
  rw [performAll_cons_sent, ownFrames_append, performAll_cons_sent, ownFrames_append,
    performAll_cons_sent, ownFrames_append]
  constructor
  · rintro ⟨-, h, -⟩
    exact hbroadcast.mp h
  · intro h
    exact ⟨h.sendToParticipant, hbroadcast.mpr h, ownFrames_closeParticipant, ownFrames_nil _⟩

theorem quiet_handleHostRemove {now : DateTime} :
    QuietResult db r c (handleHostRemove db c inbound now) ↔
      ∀ actor targetId t, ActsAsHost db c actor → hostTarget inbound = some targetId →
        targetRow db actor targetId = .ok t → t.id ≠ actor.id →
        t.leftAt ≠ none ∧ t.connectionId = none ∧ Alone r c := by
  constructor
  · intro h actor targetId t hactor htarget ht hself
    have hremove : hostRemove db actor targetId now = .ok ((markLeft db t now).1, _) :=
      hostRemove_eq_ok.mpr ⟨hactor.2, t, ht, hself, rfl⟩
    obtain ⟨hdb, hown⟩ := h _ _ (handleHostRemove_eq_ok.mpr
      ⟨targetId, actor, _, htarget, hactor.1, hremove, rfl⟩)
    have hmem := getParticipant_mem (targetRow_eq_ok.mp ht).1
    obtain ⟨hleft, hconnection⟩ := markLeft_eq_self.mp ((Db.updateRow_eq_self hmem _ _).mp hdb)
    exact ⟨hleft, hconnection, ownFrames_removal.mp hown⟩
  · intro h db' actions hok
    obtain ⟨targetId, actor, v, htarget, hactor, hremove, rfl⟩ := handleHostRemove_eq_ok.mp hok
    obtain ⟨hhost, t, ht, hself, hleft⟩ := hostRemove_eq_ok.mp hremove
    obtain ⟨-, rfl⟩ := Prod.mk.inj hleft
    obtain ⟨hclosed, hconnection, halone⟩ := h actor targetId t ⟨hactor, hhost⟩ htarget ht hself
    have hmem := getParticipant_mem (targetRow_eq_ok.mp ht).1
    exact ⟨(Db.updateRow_eq_self hmem _ _).mpr (markLeft_eq_self.mpr ⟨hclosed, hconnection⟩),
      ownFrames_removal.mpr halone⟩

theorem ownFrames_ending : OwnFrames c.participantId (performAll r (ending c)).2 ↔ Alone r c := by
  rw [ending]
  rw [performAll_cons_sent, ownFrames_append, ownFrames_broadcast, performAll_cons_sent,
    ownFrames_append]
  exact and_iff_left ⟨ownFrames_closes _, ownFrames_nil _⟩

theorem finish_eq_self {m : Meeting} {now : DateTime} :
    m.finish now = m ↔ m.status = .ended ∧ m.endedAt = some now := by
  cases m
  simp [Meeting.finish, eq_comm]

/-- Ending a meeting changes nothing exactly when it ended at this very moment
and nobody is in it. -/
theorem end_eq_self {m : Meeting} (hm : m ∈ db.meetings) (now : DateTime) :
    (db.updateMeetingRow m.id (·.finish now) (Meeting.finish_id · now)).evictAll m.id now = db ↔
      m.finish now = m ∧ db.activeRows m.id = [] := by
  have hmeetings : db.meetings.modify m.id (·.finish now) (Meeting.finish_id · now) = db.meetings ↔
      m.finish now = m := by
    rw [Keyed.modify, Keyed.map_eq_self]
    constructor
    · intro h
      simpa using h m hm
    · intro h m' hm'
      split
      · next hid => rwa [Keyed.eq_of_key_eq hm' hm hid]
      · rfl
  have hrows : (db.evictAll m.id now).participants = db.participants ↔ db.activeRows m.id = [] := by
    rw [Db.evictAll, Db.participants_updateRows_eq_self, List.eq_nil_iff_forall_not_mem]
    simp only [Db.mem_activeRows]
    constructor
    · rintro h p ⟨hp, hpm, hopen⟩
      have hleft : some now = p.leftAt := congrArg Participant.leftAt (h p hp ⟨hpm, hopen⟩)
      rw [hopen] at hleft
      cases hleft
    · intro h p hp hq
      exact absurd ⟨hp, hq⟩ (h p)
  constructor
  · intro h
    have hparticipants := congrArg Db.participants h
    exact ⟨hmeetings.mp (congrArg Db.meetings h), hrows.mp hparticipants⟩
  · rintro ⟨hfinish, hnone⟩
    have hsame : db.updateMeetingRow m.id (·.finish now) (Meeting.finish_id · now) = db := by
      rw [Db.updateMeetingRow, hmeetings.mpr hfinish]
    rw [hsame, Db.evictAll, Db.updateRows_eq_self, ← Db.participants_updateRows_eq_self]
    exact hrows.mpr hnone

theorem quiet_handleHostEnd {p : Participant} (hp : db.getParticipant c.participantId = some p)
    (hmeeting : p.meetingId = c.meetingId) {now : DateTime} :
    QuietResult db r c (handleHostEnd db c now) ↔
      ∀ actor m, ActsAsHost db c actor → db.getMeeting c.meetingId = some m →
        m.status = .ended ∧ m.endedAt = some now ∧ db.activeRows c.meetingId = [] ∧ Alone r c := by
  constructor
  · rintro h actor m ⟨hactor, m', hhost⟩ hm
    obtain rfl : p = actor := Option.some.inj (hp.symm.trans hactor)
    obtain rfl : m = m' := by
      have hm' := (requireHost_eq_ok.mp hhost).1
      rw [hmeeting] at hm'
      exact Option.some.inj (hm.symm.trans hm')
    have hend : hostEndMeeting db p now = .ok (_, _) :=
      hostEndMeeting_eq_ok.mpr ⟨m, hhost, rfl, rfl⟩
    obtain ⟨hdb, hown⟩ := h _ _ (handleHostEnd_eq_ok.mpr ⟨p, _, hp, hend, rfl⟩)
    obtain ⟨hfinish, hnone⟩ := (end_eq_self (getMeeting_mem hm) now).mp hdb
    obtain ⟨hs, hended⟩ := finish_eq_self.mp hfinish
    rw [show m.id = c.meetingId from Keyed.key_of_find? hm] at hnone
    exact ⟨hs, hended, hnone, ownFrames_ending.mp hown⟩
  · intro h db' actions hok
    obtain ⟨actor, v, hactor, hend, rfl⟩ := handleHostEnd_eq_ok.mp hok
    obtain rfl : p = actor := Option.some.inj (hp.symm.trans hactor)
    obtain ⟨m, hhost, -, rfl⟩ := hostEndMeeting_eq_ok.mp hend
    have hm := (requireHost_eq_ok.mp hhost).1
    rw [hmeeting] at hm
    obtain ⟨hs, hended, hnone, halone⟩ := h p m ⟨hp, m, hhost⟩ hm
    rw [← show m.id = c.meetingId from Keyed.key_of_find? hm] at hnone
    exact ⟨(end_eq_self (getMeeting_mem hm) now).mpr ⟨finish_eq_self.mpr ⟨hs, hended⟩, hnone⟩,
      ownFrames_ending.mpr halone⟩

end Handlers

/-! ### Any message -/

/-- A message leaves the database as it is and sends no frame to anybody else. -/
def Quiet (s : Server) (e : Event) (p : ParticipantId) : Prop :=
  (s.step e).1.db = s.db ∧ OwnFrames p (s.step e).2

theorem quiet_handle_iff {s : Server} {c : Connection} {p : Participant} {inbound : Inbound}
    {id : String} {now : DateTime} (hp : s.db.getParticipant c.participantId = some p)
    (hmeeting : p.meetingId = c.meetingId) (hleft : p.leftAt ≠ none) :
    QuietResult s.db s.registry c (handle s.db s.registry c inbound id now) ↔
      HarmlessInbound s.db s.registry c inbound id now := by
  rw [handle, HarmlessInbound]
  cases inbound.handler with
  | ping =>
    refine iff_of_true ?_ trivial
    intro db' actions hok
    obtain ⟨rfl, rfl⟩ := Prod.mk.inj (Except.ok.inj hok)
    exact ⟨rfl, ownFrames_send⟩
  | signal kind => exact quiet_handleSignal
  | stateUpdate => exact quiet_handleStateUpdate
  | chatSend => exact quiet_handleChatSend hp hmeeting id now
  | hostMute => exact quiet_handleHostMute
  | hostMuteAll => exact quiet_handleHostMuteAll hp hmeeting hleft
  | hostRemove => exact quiet_handleHostRemove
  | hostEnd => exact quiet_handleHostEnd hp hmeeting

theorem quiet_receive_iff {s : Server} {c : Connection} {message : Json} {id : String}
    {now : DateTime} :
    ((s.receive c message id now).1.db = s.db ∧
        OwnFrames c.participantId (s.receive c message id now).2) ↔
      ∀ inbound, readMessage message = .ok inbound →
        QuietResult s.db s.registry c (handle s.db s.registry c inbound id now) := by
  rw [Server.receive, onMessage]
  cases hread : readMessage message with
  | error answer =>
    refine iff_of_true ⟨rfl, ownFrames_send (r := s.registry)⟩ ?_
    intro inbound hinbound
    cases hinbound
  | ok inbound =>
    cases hrun : handle s.db s.registry c inbound id now with
    | error e =>
      refine iff_of_true ⟨?_, ?_⟩ ?_
      · simp only [hrun]
        rfl
      · simp only [hrun]
        exact ownFrames_send (r := s.registry)
      · intro inbound' hinbound db' actions hok
        cases hinbound
        rw [hrun] at hok
        cases hok
    | ok result =>
      simp only [hrun]
      constructor
      · rintro h inbound' hinbound db' actions hok
        cases hinbound
        rw [hrun] at hok
        cases hok
        exact h
      · intro h
        exact h inbound rfl _ _ hrun

/-- Two guests are in the meeting; one is removed over REST. -/
def removedOverRest : List Event :=
  openMeeting ++ enter "1" ++ enter "2" ++ [.request (.removeParticipant "host" "1" 30)]

/-- The socket the removed guest still holds. -/
def removedSocket : Connection := ⟨"c1", "1", "m"⟩

end ZoomClone
