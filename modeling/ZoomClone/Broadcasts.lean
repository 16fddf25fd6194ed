/-
What the sockets are told about media state.

The handlers of `state.update`, `host.mute` and `host.mute_all` serialize rows when
they commit, and broadcast the copies later.  `state.update` does so without an
await in between; the host's handlers first await the `host.muted_you` frame, and
other handlers may commit meanwhile.

* `MediaRoom.next` — the three handlers, from one await to the next;
* `MediaRoom.Tracks` — the last `peer.updated` on a socket shows the row, unless
  another one is pending;
* `broadcasts_converge` — so they agree once no handler has sent an old copy.
-/
import ZoomClone.Scripts

namespace ZoomClone

/-! ### Media flags on the wire -/

/-- `is_muted`, `is_video_on` and `is_hand_raised`. -/
abbrev Media := Bool × Bool × Bool

def Participant.media (p : Participant) : Media := (p.isMuted, p.isVideoOn, p.isHandRaised)

def ParticipantView.media (v : ParticipantView) : Media := (v.isMuted, v.isVideoOn, v.isHandRaised)

/-- The participant a `peer.updated` frame is about, and the flags it carries. -/
def Frame.update? (f : Frame) : Option (ParticipantId × Media) :=
  match f.body with
  | .peerUpdated p isMuted isVideoOn isHandRaised => some (p, isMuted, isVideoOn, isHandRaised)
  | _ => none

/-- The flags an item carries for the participant. -/
def WireItem.mediaOf (p : ParticipantId) : WireItem → Option Media
  | .frame f => (f.update?.filter fun u => u.1 = p).map Prod.snd
  | .close _ => none

/-- The flags of the last `peer.updated` about the participant. -/
def lastUpdate (p : ParticipantId) (items : List WireItem) : Option Media :=
  (items.filterMap (WireItem.mediaOf p)).getLast?

/-- The frame an action broadcasts about media, with the flags. -/
def Action.update? : Action → Option (ParticipantId × Media)
  | .broadcast _ f _ => f.update?
  | _ => none

theorem lastUpdate_append {p : ParticipantId} {items items' : List WireItem} :
    lastUpdate p (items ++ items') = (lastUpdate p items').or (lastUpdate p items) := by
  rw [lastUpdate, List.filterMap_append, List.getLast?_append, lastUpdate, lastUpdate]

/-- Items that do not concern the participant. -/
theorem lastUpdate_of_none {p : ParticipantId} {items : List WireItem}
    (h : ∀ i ∈ items, i.mediaOf p = none) : lastUpdate p items = none := by
  rw [lastUpdate, List.filterMap_eq_nil_iff.mpr h, List.getLast?_nil]

/-- Items that all carry the same flags. -/
theorem lastUpdate_of_some {p : ParticipantId} {items : List WireItem} {v : Media}
    (h : ∀ i ∈ items, i.mediaOf p = some v) (hne : items ≠ []) : lastUpdate p items = some v := by
  obtain ⟨i, hi⟩ := List.exists_mem_of_ne_nil items hne
  have hmem : v ∈ items.filterMap (WireItem.mediaOf p) := List.mem_filterMap.mpr ⟨i, hi, h i hi⟩
  cases hlast : lastUpdate p items with
  | none =>
    rw [List.getLast?_eq_none_iff.mp hlast] at hmem
    cases hmem
  | some v' =>
    obtain ⟨j, hj, hv⟩ := List.mem_filterMap.mp (List.mem_of_getLast? hlast)
    rw [← hv, h j hj]

/-! ### The three handlers -/

/-- The sockets of a meeting, what their handlers have left to send, and what was
put on them. -/
structure MediaRoom where
  server : Server
  scripts : ConnectionId → List Action := fun _ => []
  wires : ConnectionId → List WireItem := fun _ => []

inductive MediaEvent where
  /-- The handler of an idle socket takes a message, up to its first await. -/
  | message (c : Connection) (message : Json) (id : String) (now : DateTime)
  /-- The send that a handler awaits completes, and it goes on to the next. -/
  | resume (c : ConnectionId)
  /-- An idle socket goes away. -/
  | unregister (c : Connection)

/-- The message is for one of the three handlers. -/
def IsMedia (message : Json) : Prop :=
  match readMessage message with
  | .ok inbound => inbound.handler = .stateUpdate ∨ inbound.handler = .hostMute ∨
      inbound.handler = .hostMuteAll
  | .error _ => False

instance (message : Json) : Decidable (IsMedia message) := by
  unfold IsMedia
  cases readMessage message <;> infer_instance

theorem IsMedia.read {message : Json} (h : IsMedia message) :
    ∃ inbound, readMessage message = .ok inbound ∧
      (inbound.handler = .stateUpdate ∨ inbound.handler = .hostMute ∨
      inbound.handler = .hostMuteAll) := by
  rw [IsMedia] at h
  split at h
  · next inbound hread => exact ⟨inbound, hread, h⟩
  · exact h.elim

namespace MediaRoom

/-- What the handler commits, and what it has left to send. -/
def commit (n : MediaRoom) (c : Connection) (message : Json) (id : String) (now : DateTime) :
    MediaRoom :=
  let (db, actions) := onMessage n.server.db n.server.registry c message id now
  { n with
    server := { n.server with db }, scripts := Function.update n.scripts c.connectionId actions }

/-- The next send of a handler. -/
def resume (n : MediaRoom) (c : ConnectionId) : MediaRoom :=
  match n.scripts c with
  | [] => n
  | a :: script =>
    let (registry, sent) := perform n.server.registry a
    { server := { n.server with registry }
      scripts := Function.update n.scripts c script
      wires := fun d => n.wires d ++ itemsFor d sent }

/-- One event.  An event that cannot happen changes nothing. -/
def next (n : MediaRoom) : MediaEvent → MediaRoom
  | .message c message id now =>
    if (c ∈ n.server.registry.connections c.meetingId ∧ n.scripts c.connectionId = []) ∧
        IsMedia message then
      -- There is no await between the commit and the first send.
      (n.commit c message id now).resume c.connectionId
    else n
  | .resume c => n.resume c
  | .unregister c =>
    if n.scripts c.connectionId = [] then
      { n with server := { n.server with registry := n.server.registry.remove c } }
    else n

/-- No handler that goes on sends a copy of a row that has changed since. -/
def Current (n : MediaRoom) : MediaEvent → Prop
  | .resume c => ∀ u ∈ (n.scripts c).head?.bind Action.update?, ∀ p ∈ n.server.db.participants,
      p.id = u.1 → p.media = u.2
  | _ => True

instance (n : MediaRoom) (e : MediaEvent) : Decidable (n.Current e) := by
  cases e <;> unfold Current <;> infer_instance

/-- All handlers have finished. -/
def Quiet (n : MediaRoom) : Prop := ∀ c, n.scripts c = []

/-- The last `peer.updated` on every registered socket shows the row. -/
def Converged (n : MediaRoom) : Prop :=
  ∀ m, ∀ w ∈ n.server.registry.connections m, ∀ p ∈ n.server.db.participants, ∀ media,
    lastUpdate p.id (n.wires w.connectionId) = some media → media = p.media

end MediaRoom

/-! ### What the handlers leave to send -/

/-- What a handler of media state may have left to send: frames that are not about
media, and copies of rows for the room of the row. -/
inductive Action.Speaks (db : Db) : Action → Prop
  | other (a : Action) (f : Frame) (hf : a.frame = some f) (hupdate : f.update? = none) :
    Speaks db a
  | update (m : MeetingId) (f : Frame) (p : Participant) (media : Media) (hp : p ∈ db.participants)
      (hf : f.update? = some (p.id, media)) (hm : p.meetingId = m) : Speaks db (.broadcast m f none)

/-- A committed write of media flags, with the sends that follow it. -/
structure MediaCommit (db db' : Db) (actions : List Action) : Prop where
  rows : ∀ p' ∈ db'.participants, ∃ p ∈ db.participants, p'.id = p.id ∧ p'.meetingId = p.meetingId ∧
    (p'.media = p.media ∨ ∃ a ∈ actions, ∃ media, a.update? = some (p.id, media))
  speaks : ∀ a ∈ actions, a.Speaks db'
  current : ∀ a ∈ actions, ∀ u, a.update? = some u → ∀ p ∈ db'.participants,
    p.id = u.1 → p.media = u.2

section Commit

variable {db : Db} {r : RoomRegistry} {c : Connection}

theorem update?_of_frame {a : Action} {f : Frame} (hf : a.frame = some f) (h : f.update? = none) :
    a.update? = none := by
  cases a with
  | broadcast m f' exclude =>
    obtain rfl := Option.some.inj hf
    exact h
  | _ => rfl

/-- A handler that only answers. -/
theorem mediaCommit_answer (f : Frame) (hf : f.update? = none) : MediaCommit db db [.send c f] where
  rows := fun p hp => ⟨p, hp, rfl, rfl, .inl rfl⟩
  speaks := by
    intro a ha
    obtain rfl := List.mem_singleton.mp ha
    exact .other _ f rfl hf
  current := by
    intro a ha u hu
    obtain rfl := List.mem_singleton.mp ha
    cases hu

/-- An update of rows, each of which is broadcast as it was committed. -/
theorem mediaCommit_updateRows {P : Participant → Prop} [DecidablePred P]
    {f : Participant → Participant} (hf : ∀ p, (f p).id = p.id)
    (hmeeting : ∀ p, (f p).meetingId = p.meetingId) {actions : List Action}
    (hall : ∀ p ∈ db.participants, P p → peerUpdated c (serializeParticipant (f p)) ∈ actions)
    (honly : ∀ a ∈ actions, (∃ g, a.frame = some g ∧ g.update? = none) ∨
      ∃ p ∈ db.participants, P p ∧ p.meetingId = c.meetingId ∧
        a = peerUpdated c (serializeParticipant (f p))) :
    MediaCommit db (db.updateRows P f hf) actions where
  rows := by
    intro p' hp'
    obtain ⟨p, hp, rfl⟩ := Db.mem_updateRows.mp hp'
    refine ⟨p, hp, ?_⟩
    split
    · next hP => exact ⟨hf p, hmeeting p, .inr ⟨_, hall p hp hP, _, by rw [← hf p]; rfl⟩⟩
    · exact ⟨rfl, rfl, .inl rfl⟩
  speaks := by
    intro a ha
    rcases honly a ha with ⟨g, hg, hupdate⟩ | ⟨p, hp, hP, hroom, rfl⟩
    · exact .other a g hg hupdate
    · have hmem : f p ∈ (db.updateRows P f hf).participants :=
        Db.mem_updateRows.mpr ⟨p, hp, if_pos hP⟩
      exact .update _ _ (f p) _ hmem rfl ((hmeeting p).trans hroom)
  current := by
    intro a ha u hu p' hp' hid
    rcases honly a ha with ⟨g, hg, hupdate⟩ | ⟨p, hp, hP, -, rfl⟩
    · rw [update?_of_frame hg hupdate] at hu
      cases hu
    · obtain rfl := Option.some.inj hu
      -- The row with that id is the one that was written.
      have hrow := updateRows_row hf hp hp' (hid.trans (hf p))
      rw [hrow, if_pos hP]
      rfl

theorem failureFrame_update? (e : Raised) : (failureFrame e).update? = none := by
  cases e <;> rfl

/-- What `host.mute_all` sends. -/
theorem mem_muteAll {db : Db} {m : MeetingId} {p₀ : ParticipantId} {c : Connection} {a : Action} :
    a ∈ ((((db.activeRows m).filter fun p => p.id ≠ p₀).map fun p =>
      serializeParticipant p.mute).flatMap
        fun v => [mutedYou c v.id, peerUpdated c v]) ↔
      ∃ p ∈ db.participants, (p.meetingId = m ∧ p.leftAt = none ∧ p.id ≠ p₀) ∧
        (a = mutedYou c p.id ∨ a = peerUpdated c (serializeParticipant p.mute)) := by
  simp only [List.mem_flatMap, List.mem_map, List.mem_filter, Db.mem_activeRows, decide_eq_true_eq,
    List.mem_cons, List.not_mem_nil, or_false]
  constructor
  · rintro ⟨v, ⟨p, ⟨⟨hp, hm, hopen⟩, hne⟩, rfl⟩, ha⟩
    exact ⟨p, hp, ⟨hm, hopen, hne⟩, ha⟩
  · rintro ⟨p, hp, ⟨hm, hopen, hne⟩, ha⟩
    exact ⟨_, ⟨p, ⟨⟨hp, hm, hopen⟩, hne⟩, rfl⟩, ha⟩

/-- **A handler of media state.**  Every row it writes is broadcast as it was
committed. -/
theorem onMessage_mediaCommit {s : Server} (hv : s.Valid) {c : Connection} (hc : c ∈ s.sockets)
    {message : Json} (hmedia : IsMedia message) (id : String) (now : DateTime) :
    MediaCommit s.db (onMessage s.db s.registry c message id now).1
      (onMessage s.db s.registry c message id now).2 := by
  have hroom {p : Participant} (hp : s.db.getParticipant c.participantId = some p) :
      p.meetingId = c.meetingId := by
    obtain ⟨q, hq, hid, hm⟩ := hv.row c hc
    rwa [Keyed.eq_of_key_eq (getParticipant_mem hp) hq ((Keyed.key_of_find? hp).trans hid.symm)]
  obtain ⟨inbound, hread, hmedia⟩ := hmedia.read
  rw [onMessage, hread]
  dsimp only
  cases hhandle : handle s.db s.registry c inbound id now with
  | error e => exact mediaCommit_answer _ (failureFrame_update? e)
  | ok result =>
    obtain ⟨db', actions⟩ := result
    rw [handle] at hhandle
    -- Each handler announces the copy of the row that it has just written.
    rcases hmedia with hhandler | hhandler | hhandler <;> rw [hhandler] at hhandle
    · obtain ⟨v, hv', rfl⟩ := handleStateUpdate_eq_ok.mp hhandle
      obtain ⟨p, hp, rfl, rfl⟩ := applyStateUpdate_eq_ok.mp hv'
      refine mediaCommit_updateRows (c := c) (Participant.applyMedia_id · _) (fun _ => rfl) ?_ ?_
      · intro q hq hid
        rw [Keyed.eq_of_key_eq hq (getParticipant_mem hp) hid]
        exact List.mem_singleton_self _
      · intro a ha
        exact .inr ⟨p, getParticipant_mem hp, rfl, hroom hp, List.mem_singleton.mp ha⟩
    · obtain ⟨t, actor, v, -, hactor, hv', rfl⟩ := handleHostMute_eq_ok.mp hhandle
      obtain ⟨-, q, hq, rfl, rfl⟩ := hostMute_eq_ok.mp hv'
      obtain ⟨hget, hsame⟩ := targetRow_eq_ok.mp hq
      have hmem := getParticipant_mem hget
      refine mediaCommit_updateRows (c := c) Participant.mute_id (fun _ => rfl) ?_ ?_
      · intro p hp hid
        rw [Keyed.eq_of_key_eq hp hmem hid]
        exact List.mem_cons_of_mem _ (List.mem_singleton_self _)
      · intro a ha
        rcases List.mem_cons.mp ha with rfl | ha
        · exact .inl ⟨_, rfl, rfl⟩
        · exact .inr ⟨q, hmem, rfl, hsame.trans (hroom hactor), List.mem_singleton.mp ha⟩
    · obtain ⟨actor, vs, hactor, hv', rfl⟩ := handleHostMuteAll_eq_ok.mp hhandle
      obtain ⟨-, rfl, rfl⟩ := hostMuteAll_eq_ok.mp hv'
      refine mediaCommit_updateRows (c := c) Participant.mute_id (fun _ => rfl) ?_ ?_
      · intro p hp hP
        exact mem_muteAll.mpr ⟨p, hp, hP, .inr rfl⟩
      · intro a ha
        obtain ⟨p, hp, hP, rfl | ha⟩ := mem_muteAll.mp ha
        · exact .inl ⟨_, rfl, rfl⟩
        · exact .inr ⟨p, hp, hP, hP.1.trans (hroom hactor), ha⟩

end Commit

/-! ### What the sockets have been told -/

theorem perform_frame {a : Action} {f : Frame} (hf : a.frame = some f) (r : RoomRegistry) :
    (perform r a).1 = r ∧ ∀ d ∈ (perform r a).2, d.item = .frame f := by
  cases a with
  | send c g =>
    obtain rfl := Option.some.inj hf
    simp [perform]
  | sendToParticipant m p g =>
    obtain rfl := Option.some.inj hf
    simp [perform]
  | broadcast m g exclude =>
    obtain rfl := Option.some.inj hf
    simp [perform]
  | closeConnection c code => cases hf
  | closeParticipant m p code => cases hf
  | closePeers m exclude code => cases hf

/-- A frame about another participant, or about nobody. -/
theorem mediaOf_frame {f : Frame} {p : ParticipantId} (h : ∀ media, f.update? ≠ some (p, media)) :
    (WireItem.frame f).mediaOf p = none := by
  rw [WireItem.mediaOf]
  cases hu : f.update? with
  | none => rfl
  | some u =>
    obtain ⟨q, media⟩ := u
    have hne : q ≠ p := fun hq => h media (hq ▸ hu)
    simp [Option.filter, hne]

theorem mediaOf_update {f : Frame} {p : ParticipantId} {media : Media}
    (h : f.update? = some (p, media)) : (WireItem.frame f).mediaOf p = some media := by
  simp [WireItem.mediaOf, h, Option.filter]

namespace MediaRoom

/-- A handler is still to broadcast a copy of the row. -/
def Pending (n : MediaRoom) (p : ParticipantId) : Prop :=
  ∃ c, ∃ a ∈ n.scripts c, ∃ media, a.update? = some (p, media)

/-- The last `peer.updated` on a socket is for its room, and shows the row unless a
copy of it is still to come. -/
structure Tracks (n : MediaRoom) : Prop where
  server : n.server.Valid
  speaks : ∀ c, ∀ a ∈ n.scripts c, a.Speaks n.server.db
  wires : ∀ m, ∀ w ∈ n.server.registry.connections m, ∀ p ∈ n.server.db.participants, ∀ media,
    lastUpdate p.id (n.wires w.connectionId) = some media →
      p.meetingId = m ∧ (media = p.media ∨ n.Pending p.id)

variable {n : MediaRoom}

/-- **A commit** of an idle handler. -/
theorem Tracks.commit (ht : n.Tracks) {c : Connection}
    (hc : c ∈ n.server.registry.connections c.meetingId) (hidle : n.scripts c.connectionId = [])
    {message : Json} (hmedia : IsMedia message) (id : String) (now : DateTime) :
    (n.commit c message id now).Tracks ∧
      (n.commit c message id now).Current (.resume c.connectionId) := by
  have hcommit := onMessage_mediaCommit ht.server (ht.server.registered _ c hc).2 hmedia id now
  have hdb := onMessage_db n.server.db n.server.registry c message id now
  rw [MediaRoom.commit]
  generalize onMessage n.server.db n.server.registry c message id now = result at hcommit hdb ⊢
  obtain ⟨db', actions⟩ := result
  dsimp only at hcommit hdb ⊢
  have hserver : Server.Valid { n.server with db := db' } := by
    rcases hdb with h | ⟨op, -, h⟩
    · rw [show db' = n.server.db from h]
      exact ht.server
    · rw [show db' = n.server.db.apply op from h]
      exact ht.server.apply op
  -- Rows keep their meeting.
  have hkept {a : Action} (ha : a.Speaks n.server.db) : a.Speaks db' := by
    rcases hdb with h | ⟨op, -, h⟩
    · rw [show db' = n.server.db from h]
      exact ha
    · cases ha with
      | other a f hf hupdate => exact .other a f hf hupdate
      | update m f p media hp hf hm =>
        obtain ⟨q, hq, he⟩ := row_apply hp op
        rw [show db' = n.server.db.apply op from h]
        exact .update m f q media hq (he.id.symm ▸ hf) (he.meetingId.trans hm)
  -- The script of `c` was empty, so every pending copy is kept.
  have hpending {p : ParticipantId} (h : n.Pending p) :
      Pending { n with
        server := { n.server with db := db' }
        scripts := Function.update n.scripts c.connectionId actions } p := by
    obtain ⟨d, a, ha, hu⟩ := h
    have hd : d ≠ c.connectionId := by
      rintro rfl
      rw [hidle] at ha
      cases ha
    refine ⟨d, a, ?_, hu⟩
    show a ∈ Function.update n.scripts c.connectionId actions d
    rwa [Function.update_of_ne hd]
  refine ⟨⟨hserver, ?_, ?_⟩, ?_⟩
  · intro d a ha
    dsimp only at ha
    by_cases hd : d = c.connectionId
    · subst hd
      rw [Function.update_self] at ha
      exact hcommit.speaks a ha
    · rw [Function.update_of_ne hd] at ha
      exact hkept (ht.speaks d a ha)
  · intro m w hw p' hp' media hlast
    obtain ⟨p, hp, hid, hm, hsame⟩ := hcommit.rows p' hp'
    rw [hid] at hlast
    obtain ⟨hroom, hshown⟩ := ht.wires m w hw p hp media hlast
    refine ⟨hm.trans hroom, ?_⟩
    rw [hid]
    rcases hsame with hsame | ⟨a, ha, media', hu⟩
    · rcases hshown with hshown | hlater
      · exact .inl (hshown.trans hsame.symm)
      · exact .inr (hpending hlater)
    · refine .inr ⟨c.connectionId, a, ?_, media', hu⟩
      show a ∈ Function.update n.scripts c.connectionId actions c.connectionId
      rwa [Function.update_self]
  · intro u hu p hp hid
    simp only [Function.update_self] at hu
    obtain ⟨a, ha, hu⟩ := Option.bind_eq_some_iff.mp hu
    exact hcommit.current a (List.mem_of_mem_head? ha) u hu p hp hid

theorem resume_nil {c : ConnectionId} (h : n.scripts c = []) : n.resume c = n := by
  rw [resume, h]

/-- The next send leaves the registry alone, and reaches the wires. -/
theorem resume_cons {c : ConnectionId} {a : Action} {script : List Action} {f : Frame}
    (h : n.scripts c = a :: script) (hf : a.frame = some f) :
    n.resume c = { n with
      scripts := Function.update n.scripts c script
      wires := fun d => n.wires d ++ itemsFor d (perform n.server.registry a).2 } := by
  rw [resume, h]
  dsimp only
  rw [(perform_frame hf n.server.registry).1]

/-- A copy stays pending until its own send. -/
theorem Pending.of_resume {c : ConnectionId} {a : Action} {script : List Action} {p : ParticipantId}
    (hp : n.Pending p) (h : n.scripts c = a :: script)
    (ha : ∀ media, a.update? ≠ some (p, media)) (wires : ConnectionId → List WireItem) :
    Pending { n with scripts := Function.update n.scripts c script, wires } p := by
  obtain ⟨d, a', ha', media, hu⟩ := hp
  refine ⟨d, a', ?_, media, hu⟩
  show a' ∈ Function.update n.scripts c script d
  by_cases hd : d = c
  · subst hd
    rw [h] at ha'
    rw [Function.update_self]
    rcases List.mem_cons.mp ha' with rfl | ha'
    · exact absurd hu (ha media)
    · exact ha'
  · rwa [Function.update_of_ne hd]

/-- A socket is in one room only. -/
theorem room_unique (hv : n.server.Valid) {m m' : MeetingId} {d w : Connection}
    (hd : d ∈ n.server.registry.connections m) (hw : w ∈ n.server.registry.connections m')
    (h : d.connectionId = w.connectionId) : m = m' := by
  obtain ⟨hm, hd⟩ := hv.registered m d hd
  obtain ⟨hm', hw⟩ := hv.registered m' w hw
  rw [← hm, ← hm', Keyed.eq_of_key_eq hd hw h]

/-- **The next send** of a handler, when it is no old copy. -/
theorem Tracks.resume (ht : n.Tracks) {c : ConnectionId} (hcurrent : n.Current (.resume c)) :
    (n.resume c).Tracks := by
  cases h : n.scripts c with
  | nil =>
    rw [resume_nil h]
    exact ht
  | cons a script =>
  have ha : a.Speaks n.server.db := ht.speaks c a (h ▸ List.mem_cons_self)
  have hspeaks (d : ConnectionId) :
      ∀ b ∈ Function.update n.scripts c script d, b.Speaks n.server.db := by
    intro b hb
    by_cases hd : d = c
    · subst hd
      rw [Function.update_self] at hb
      exact ht.speaks d b (h ▸ List.mem_cons_of_mem a hb)
    · rw [Function.update_of_ne hd] at hb
      exact ht.speaks d b hb
  -- What is said about the others is as before.
  have hother {f : Frame} (hf : a.frame = some f) {m : MeetingId} {w : Connection}
      (hw : w ∈ n.server.registry.connections m) {q : Participant}
      (hq : q ∈ n.server.db.participants)
      (hitems : ∀ i ∈ itemsFor w.connectionId (perform n.server.registry a).2,
        i.mediaOf q.id = none)
      {media : Media} (hlast : lastUpdate q.id (n.wires w.connectionId ++
        itemsFor w.connectionId (perform n.server.registry a).2) = some media) :
      q.meetingId = m ∧ (media = q.media ∨ n.Pending q.id) := by
    rw [lastUpdate_append, lastUpdate_of_none hitems, Option.none_or] at hlast
    exact ht.wires m w hw q hq media hlast
  cases ha with
  | other _ f hf hupdate =>
    have hsilent (media : Media) (p : ParticipantId) : a.update? ≠ some (p, media) := by
      rw [update?_of_frame hf hupdate]
      exact Option.some_ne_none _ ∘ Eq.symm
    rw [resume_cons h hf]
    refine ⟨ht.server, hspeaks, ?_⟩
    intro m w hw q hq media hlast
    have hitems : ∀ i ∈ itemsFor w.connectionId (perform n.server.registry a).2,
        i.mediaOf q.id = none := by
      intro i hi
      obtain ⟨d, hd, -, rfl⟩ := mem_itemsFor.mp hi
      rw [(perform_frame hf _).2 d hd]
      exact mediaOf_frame (by simp [hupdate])
    obtain ⟨hroom, hshown⟩ := hother hf hw hq hitems hlast
    exact ⟨hroom, hshown.imp_right fun hlater =>
      hlater.of_resume h (fun media => hsilent media q.id) _⟩
  | update m f p media hp hf hm =>
    rw [resume_cons h rfl]
    refine ⟨ht.server, hspeaks, ?_⟩
    intro m' w hw q hq media' hlast
    have hitem (i : WireItem) (hi : i ∈ itemsFor w.connectionId
        (perform n.server.registry (.broadcast m f none)).2) : i = .frame f ∧ m = m' := by
      obtain ⟨delivery, hdelivery, hdw, rfl⟩ := mem_itemsFor.mp hi
      obtain ⟨d, hd, rfl⟩ := List.mem_map.mp hdelivery
      rw [broadcastTargets_none] at hd
      exact ⟨rfl, room_unique ht.server hd hw hdw⟩
    by_cases hqp : q.id = p.id
    · obtain rfl := Keyed.eq_of_key_eq hq hp hqp
      by_cases hmm : m = m'
      · -- The copy reaches this room, and it is the row.
        subst hmm
        have hreached : WireItem.frame f ∈ itemsFor w.connectionId
            (perform n.server.registry (.broadcast m f none)).2 := by
          refine mem_itemsFor.mpr ⟨⟨w, .frame f⟩, List.mem_map.mpr ⟨w, ?_, rfl⟩, rfl, rfl⟩
          rwa [broadcastTargets_none]
        have hnew : lastUpdate q.id (itemsFor w.connectionId
            (perform n.server.registry (.broadcast m f none)).2) = some media := by
          refine lastUpdate_of_some (fun i hi => ?_) (List.ne_nil_of_mem hreached)
          rw [(hitem i hi).1]
          exact mediaOf_update hf
        rw [lastUpdate_append, hnew, Option.some_or] at hlast
        obtain rfl := Option.some.inj hlast
        have hsame : q.media = media :=
          hcurrent (q.id, media) (by simp [h, Action.update?, hf]) q hq rfl
        exact ⟨hm, .inl hsame.symm⟩
      · obtain ⟨hroom, -⟩ := hother rfl hw hq (fun i hi => absurd (hitem i hi).2 hmm) hlast
        exact absurd (hm.symm.trans hroom) hmm
    · have hnot (media : Media) : f.update? ≠ some (q.id, media) := by
        intro hu
        rw [hf] at hu
        exact hqp (Prod.mk.inj (Option.some.inj hu)).1.symm
      obtain ⟨hroom, hshown⟩ := hother rfl hw hq
        (fun i hi => (hitem i hi).1 ▸ mediaOf_frame hnot) hlast
      exact ⟨hroom, hshown.imp_right fun hlater => hlater.of_resume h hnot _⟩

/-- **One event.** -/
theorem Tracks.next (ht : n.Tracks) {e : MediaEvent} (hcurrent : n.Current e) :
    (n.next e).Tracks := by
  cases e with
  | message c message id now =>
    rw [MediaRoom.next]
    split
    · next h =>
      obtain ⟨⟨hc, hidle⟩, hmedia⟩ := h
      obtain ⟨hcommit, hfirst⟩ := ht.commit hc hidle hmedia id now
      exact hcommit.resume hfirst
    · exact ht
  | resume c => exact ht.resume hcurrent
  | unregister c =>
    rw [MediaRoom.next]
    split
    · have hsub {m : MeetingId} {d : Connection}
          (hd : d ∈ (n.server.registry.remove c).connections m) :
          d ∈ n.server.registry.connections m := (RoomRegistry.mem_connections_remove.mp hd).1
      refine ⟨⟨ht.server.db, fun m d hd => ht.server.registered m d (hsub hd), ht.server.row⟩,
        ht.speaks, ?_⟩
      exact fun m w hw => ht.wires m w (hsub hw)
    · exact ht

/-- **Media broadcasts converge.**  From every reachable server: in every run in
which no handler sends an old copy, whenever all handlers have finished, the last
`peer.updated` about a participant on every registered socket shows its row. -/
theorem broadcasts_converge (pre : List Event) (events : List MediaEvent)
    (hcurrent : Runs.Guarded next Current { server := Runs.run Server.next {} pre } events) :
    Runs.Always next (fun n => n.Quiet → n.Converged) { server := Runs.run Server.next {} pre }
      events := by
  have hstart : Tracks { server := Runs.run Server.next {} pre } := by
    refine ⟨(Server.always_valid pre).last, ?_, ?_⟩
    · intro c a ha
      cases ha
    · intro m w hw p hp media hlast
      cases hlast
  have htracks := Runs.Guarded.always hstart (fun _ _ ht hc => ht.next hc) hcurrent
  refine htracks.mono ?_
  intro n ht hquiet m w hw p hp media hlast
  obtain ⟨-, hshown | ⟨c, a, ha, -⟩⟩ := ht.wires m w hw p hp media hlast
  · exact hshown
  · rw [hquiet c] at ha
    cases ha

/-- The socket whose handler an event concerns. -/
def socketOf : MediaEvent → ConnectionId
  | .message c _ _ _ => c.connectionId
  | .resume c => c
  | .unregister c => c.connectionId

theorem scripts_resume {c d : ConnectionId} (hne : d ≠ c) :
    (n.resume c).scripts d = n.scripts d := by
  rw [resume]
  split
  · rfl
  · exact Function.update_of_ne hne ..

theorem scripts_next {e : MediaEvent} {d : ConnectionId} (hne : d ≠ socketOf e) :
    (n.next e).scripts d = n.scripts d := by
  cases e with
  | message c message id now =>
    rw [next]
    split
    · have hc : d ≠ c.connectionId := hne
      rw [scripts_resume hc]
      exact Function.update_of_ne hc ..
    · rfl
  | resume c => exact scripts_resume hne
  | unregister c =>
    rw [next]
    split <;> rfl

/-- A frame of the host that mutes the guest. -/
def muteGuest : Json :=
  .obj [("type", .str "host.mute"), ("payload", .obj [("participant_id", .str "1")])]

/-- A frame of the guest that unmutes itself. -/
def unmuteSelf : Json :=
  .obj [("type", .str "state.update"), ("payload", .obj [("is_muted", .bool false)])]

def guestSocket : Connection := ⟨"c1", "1", "m"⟩

/-- The guest unmutes once the order of the host is through. -/
theorem broadcasts_converge_guest :
    Runs.Always next (fun n => n.Quiet → n.Converged)
    { server := Runs.run Server.next {} hostAndGuest }
      [.message hostSocket muteGuest "" 30, .resume "ch", .message guestSocket unmuteSelf "" 40] :=
  broadcasts_converge hostAndGuest _ (by decide +kernel)

/-- The guest unmutes while the host's handler awaits the frame to the guest. -/
def unmuteCrosses : List MediaEvent :=
  [.message hostSocket muteGuest "" 30, .message guestSocket unmuteSelf "" 40, .resume "ch"]

/-- The guest unmutes while the host's handler awaits `host.muted_you`: the room is
told last that it is muted, and its row says that it is not. -/
theorem broadcasts_diverge : ¬ ∀ (pre : List Event) (events : List MediaEvent),
    Runs.Always next (fun n => n.Quiet → n.Converged) { server := Runs.run Server.next {} pre }
      events := by
  intro h
  have hquiet :
      (Runs.run next { server := Runs.run Server.next {} hostAndGuest } unmuteCrosses).Quiet := by
    intro c
    by_cases hhost : c = "ch"
    · subst hhost
      decide +kernel
    by_cases hguest : c = "c1"
    · subst hguest
      decide +kernel
    rw [unmuteCrosses, Runs.run_cons, Runs.run_cons, Runs.run_cons,
      Runs.run_nil, scripts_next hhost,
      scripts_next hguest, scripts_next hhost]
  have htold : ∃ p ∈ (Runs.run next { server := Runs.run Server.next {} hostAndGuest }
      unmuteCrosses).server.db.participants.rows,
      (lastUpdate p.id ((Runs.run next { server := Runs.run Server.next {} hostAndGuest }
        unmuteCrosses).wires "c1")).any fun media => media ≠ p.media := by decide +kernel
  have hregistered : guestSocket ∈ (Runs.run next { server := Runs.run Server.next {} hostAndGuest }
      unmuteCrosses).server.registry.connections "m" := by decide +kernel
  obtain ⟨p, hp, htold⟩ := htold
  cases hlast : lastUpdate p.id ((Runs.run next { server := Runs.run Server.next {} hostAndGuest }
      unmuteCrosses).wires "c1") with
  | none => simp [hlast] at htold
  | some media =>
    have hne : media ≠ p.media := by simpa [hlast] using htold
    exact hne ((h hostAndGuest unmuteCrosses).last hquiet "m" guestSocket
      hregistered p hp media hlast)

end MediaRoom

end ZoomClone
