/-
A snapshot and the mesh it meets.

After an outage a `room.state` finds the peers, streams and connection states from
before it.  The store drops what the snapshot does not list.  The mesh only gains peers.

* `mem_peerIds_afterSnapshot` — which peers there are after a snapshot;
* `reconciled_iff` — mesh and store agree with the snapshot, and the store stays within
  its participants whatever follows, exactly when no older peer is left out of the
  snapshot and nobody but a participant signals.
-/
import ZoomClone.Microphone
import ZoomClone.Runs

namespace ZoomClone

/-- The ids of the peers that are held. -/
def PeerManager.getPeerIds (pm : PeerManager) : List ParticipantId := pm.peers.keys

/-! ### What can follow a snapshot -/

/-- The frames that concern the mesh. -/
inductive MeshFrame where
  | peerJoined (participant : ParticipantView)
  | peerLeft (participantId : ParticipantId)
  | signal (sender : Option ParticipantId) (kind : SignalKind) (payload : JsonObj)

def MeshFrame.frame : MeshFrame → Frame
  | .peerJoined participant => { body := .peerJoined participant }
  | .peerLeft participantId => { body := .peerLeft participantId }
  | .signal sender kind payload => { body := .signal kind payload, sender }

/-- A frame, or a callback of a connection. -/
inductive MeshEvent where
  | frame (f : MeshFrame)
  | remoteStream (participantId : ParticipantId) (streamId : String)
  | connectionState (participantId : ParticipantId) (state : PeerConnectionState)

def MeshEvent.frame? : MeshEvent → Option MeshFrame
  | .frame f => some f
  | _ => none

namespace MeetingRoom

/-- The peers of the room's mesh, if it has one. -/
def peerIds (room : MeetingRoom) : List ParticipantId :=
  (room.peers.map PeerManager.getPeerIds).getD []

/-- A frame, or a callback; a connection that is not held has no callbacks. -/
def onMesh (room : MeetingRoom) : MeshEvent → MeetingRoom
  | .frame f => (room.handleFrame f.frame).1
  | .remoteStream participantId streamId =>
    if participantId ∈ room.peerIds then
      { room with store := room.store.setRemoteStream participantId streamId }
    else room
  | .connectionState participantId state =>
    if participantId ∈ room.peerIds then
      { room with store := room.store.setConnectionState participantId state }
    else room

/-- The room after a `room.state`. -/
def afterSnapshot (room : MeetingRoom) (snapshot : RoomSnapshot) : MeetingRoom :=
  (room.handleFrame { body := .roomState snapshot }).1

/-- Streams and connection states belong to participants. -/
structure InRoom (room : MeetingRoom) : Prop where
  remoteStreams : ∀ id ∈ room.store.remoteStreams.keys, id ∈ room.store.participants.keys
  connectionStates : ∀ id ∈ room.store.connectionStates.keys, id ∈ room.store.participants.keys

/-- After the snapshot the peers are the others in it, and through all that follows with
the given frames, and any callbacks between them, the store stays within its
participants. -/
structure Reconciles (room : MeetingRoom) (snapshot : RoomSnapshot) (frames : List MeshFrame) :
    Prop where
  peers : ∀ id, id ∈ (room.afterSnapshot snapshot).peerIds ↔
    id ≠ snapshot.you.id ∧ ∃ p ∈ snapshot.participants, p.id = id
  inRoom : ∀ evs : List MeshEvent, evs.filterMap MeshEvent.frame? = frames →
    Runs.Always onMesh InRoom (room.afterSnapshot snapshot) evs

/-- Every peer held is another participant of the snapshot. -/
def Listed (room : MeetingRoom) (snapshot : RoomSnapshot) : Prop :=
  ∀ id ∈ room.peerIds, id ≠ snapshot.you.id ∧ ∃ p ∈ snapshot.participants, p.id = id

/-- A signal comes from a participant. -/
def KnowsSender (room : MeetingRoom) : MeshFrame → Prop
  | .signal (some sender) _ _ => sender ∈ room.store.participants.keys
  | _ => True

/-- A frame that concerns the mesh. -/
def onMeshFrame (room : MeetingRoom) (f : MeshFrame) : MeetingRoom := room.onMesh (.frame f)

/-! ### The snapshot -/

/-- The room holds a mesh that is not destroyed. -/
def HasMesh (room : MeetingRoom) : Prop := ∃ pm, room.peers = some pm ∧ pm.destroyed = false

section Snapshot

variable {room : MeetingRoom} {snapshot : RoomSnapshot} {pm : PeerManager} {id : ParticipantId}

theorem mem_peers_addPeer (hlive : pm.destroyed = false) {initiator : Bool} {k : ParticipantId} :
    k ∈ (pm.addPeer id initiator).peers.keys ↔ k ∈ pm.peers.keys ∨ k = id := by
  rw [PeerManager.addPeer]
  by_cases hknown : id ∈ pm.peers.keys
  · rw [if_pos (.inr hknown)]
    refine (or_iff_left_of_imp ?_).symm
    rintro rfl
    exact hknown
  · rw [if_neg (by simp [hlive, hknown])]
    exact Keyed.mem_keys_set

theorem mem_peers_foldl_addPeer {others : List ParticipantView} (hlive : pm.destroyed = false) :
    let pm' := others.foldl (fun pm peer => pm.addPeer peer.id false) pm
    pm'.destroyed = false ∧ ∀ k, k ∈ pm'.peers.keys ↔ k ∈ pm.peers.keys ∨
        ∃ p ∈ others, p.id = k := by
  induction others generalizing pm with
  | nil => simp [hlive]
  | cons p others ih =>
    have hadded : (pm.addPeer p.id false).destroyed = false := by
      rw [PeerManager.destroyed_addPeer, hlive]
    obtain ⟨hlive', hkeys⟩ := ih hadded
    refine ⟨hlive', fun k => ?_⟩
    rw [List.foldl_cons, hkeys, mem_peers_addPeer hlive, or_assoc,
      List.exists_mem_cons_iff, eq_comm]

/-- The mesh after a snapshot. -/
def addOthers (snapshot : RoomSnapshot) (pm : PeerManager) : PeerManager :=
  (snapshot.participants.filter fun peer => peer.id ≠ snapshot.you.id).foldl
    (fun pm peer => pm.addPeer peer.id false) pm

theorem peers_afterSnapshot : (room.afterSnapshot snapshot).peers = room.peers.map
    (addOthers snapshot) := rfl

theorem HasMesh.afterSnapshot (h : room.HasMesh) : (room.afterSnapshot snapshot).HasMesh := by
  obtain ⟨pm, hpm, hlive⟩ := h
  refine ⟨addOthers snapshot pm, ?_, (mem_peers_foldl_addPeer hlive).1⟩
  rw [peers_afterSnapshot, hpm]
  rfl

/-- A snapshot adds the others in it to the peers. -/
theorem mem_peerIds_afterSnapshot (h : room.HasMesh) : id ∈ (room.afterSnapshot snapshot).peerIds ↔
    id ∈ room.peerIds ∨ id ≠ snapshot.you.id ∧ ∃ p ∈ snapshot.participants, p.id = id := by
  obtain ⟨pm, hpm, hlive⟩ := h
  have hmem : id ∈ (addOthers snapshot pm).peers.keys ↔ id ∈ pm.peers.keys ∨
      ∃ p ∈ snapshot.participants.filter fun peer => peer.id ≠ snapshot.you.id, p.id = id :=
    (mem_peers_foldl_addPeer hlive).2 id
  rw [peerIds, peers_afterSnapshot, peerIds, hpm]
  refine hmem.trans (or_congr_right ?_)
  simp only [List.mem_filter, decide_eq_true_eq]
  constructor
  · rintro ⟨p, ⟨hp, hne⟩, rfl⟩
    exact ⟨hne, p, hp, rfl⟩
  · rintro ⟨hne, p, hp, rfl⟩
    exact ⟨p, ⟨hp, hne⟩, rfl⟩

@[simp] theorem participants_keys_patchParticipant (s : MeetingStore) (id : ParticipantId)
    (changes : MediaPatch) :
    (s.patchParticipant id changes).participants.keys = s.participants.keys := by
  rw [MeetingStore.patchParticipant]
  split
  · exact Keyed.keys_modify s.participants id (·.patch changes) (ParticipantView.patch_id · changes)
  · rfl

theorem streams_patchParticipant (s : MeetingStore) (id : ParticipantId) (changes : MediaPatch) :
    (s.patchParticipant id changes).remoteStreams = s.remoteStreams ∧
      (s.patchParticipant id changes).connectionStates = s.connectionStates := by
  rw [MeetingStore.patchParticipant]
  split <;> exact ⟨rfl, rfl⟩

/-- The participants are those of the snapshot. -/
theorem participants_afterSnapshot : (room.afterSnapshot snapshot).store.participants.keys =
    (snapshot.participants.foldl Keyed.set (.empty : Keyed ParticipantView.id)).keys := by
  show ((MeetingStore.patchParticipant _ _ _).participants).keys = _
  rw [participants_keys_patchParticipant]
  rfl

theorem mem_participants_afterSnapshot :
    id ∈ (room.afterSnapshot snapshot).store.participants.keys ↔
    ∃ p ∈ snapshot.participants, p.id = id := by
  rw [participants_afterSnapshot, Keyed.mem_keys_foldl_set, List.mem_map]
  exact or_iff_right List.not_mem_nil

/-- The store drops what the snapshot does not list. -/
theorem inRoom_afterSnapshot : (room.afterSnapshot snapshot).InRoom := by
  constructor
  · intro id hid
    rw [participants_afterSnapshot]
    have hstreams : (room.afterSnapshot snapshot).store.remoteStreams =
      room.store.remoteStreams.filter
        fun r => r.participantId ∈
          (snapshot.participants.foldl Keyed.set (.empty : Keyed ParticipantView.id)).keys :=
      (streams_patchParticipant ..).1
    rw [hstreams] at hid
    obtain ⟨r, hr, rfl⟩ := Keyed.mem_keys.mp hid
    simpa using (Keyed.mem_filter.mp hr).2
  · intro id hid
    rw [participants_afterSnapshot]
    have hstates : (room.afterSnapshot snapshot).store.connectionStates =
      room.store.connectionStates.filter
        fun c => c.participantId ∈
          (snapshot.participants.foldl Keyed.set (.empty : Keyed ParticipantView.id)).keys :=
      (streams_patchParticipant ..).2
    rw [hstates] at hid
    obtain ⟨c, hc, rfl⟩ := Keyed.mem_keys.mp hid
    simpa using (Keyed.mem_filter.mp hc).2

end Snapshot

/-! ### What follows -/

/-- Mesh and store stay within the participants. -/
structure Meshed (room : MeetingRoom) : Prop where
  hasMesh : room.HasMesh
  peers : ∀ id ∈ room.peerIds, id ∈ room.store.participants.keys
  inRoom : room.InRoom

/-- A frame or a callback whose sender, if it is a signal, is known. -/
def Safe (room : MeetingRoom) (e : MeshEvent) : Prop := ∀ f ∈ e.frame?, room.KnowsSender f

section Follows

variable {room room' : MeetingRoom} {id : ParticipantId}

theorem peerIds_of_some {pm : PeerManager} (h : room.peers = some pm) :
    room.peerIds = pm.peers.keys := by
  rw [peerIds, h]
  rfl

/-- A newcomer is entered into the store and into the mesh. -/
theorem Meshed.peerJoined (h : room.Meshed) (participant : ParticipantView) :
    (room.onMesh (.frame (.peerJoined participant))).Meshed := by
  obtain ⟨⟨pm, hpm, hlive⟩, hpeers, hstreams, hstates⟩ := h
  have hnew : (room.onMesh (.frame (.peerJoined participant))).peers =
      some (pm.addPeer participant.id true) := by
    show room.peers.map _ = _
    rw [hpm]
    rfl
  have hmem (k : ParticipantId) (hk : k ∈ room.store.participants.keys) :
      k ∈ (room.onMesh (.frame (.peerJoined participant))).store.participants.keys :=
    Keyed.mem_keys_set.mpr (.inl hk)
  refine ⟨⟨_, hnew, by rw [PeerManager.destroyed_addPeer, hlive]⟩, ?_,
    fun k hk => hmem k (hstreams k hk), fun k hk => hmem k (hstates k hk)⟩
  intro k hk
  rw [peerIds_of_some hnew] at hk
  rw [peerIds_of_some hpm] at hpeers
  rcases (mem_peers_addPeer hlive).mp hk with hk | rfl
  · exact hmem k (hpeers k hk)
  · exact Keyed.mem_keys_set.mpr (.inr rfl)

/-- Who leaves is dropped everywhere. -/
theorem Meshed.peerLeft (h : room.Meshed) (gone : ParticipantId) :
    (room.onMesh (.frame (.peerLeft gone))).Meshed := by
  obtain ⟨⟨pm, hpm, hlive⟩, hpeers, hstreams, hstates⟩ := h
  have hnew : (room.onMesh (.frame (.peerLeft gone))).peers = some (pm.removePeer gone) := by
    show room.peers.map _ = _
    rw [hpm]
    rfl
  rw [peerIds_of_some hpm] at hpeers
  refine ⟨⟨_, hnew, hlive⟩, ?_, ?_, ?_⟩
  · intro k hk
    rw [peerIds_of_some hnew] at hk
    obtain ⟨hk, hne⟩ := Keyed.mem_keys_erase.mp hk
    exact Keyed.mem_keys_erase.mpr ⟨hpeers k hk, hne⟩
  · intro k hk
    obtain ⟨hk, hne⟩ := Keyed.mem_keys_erase.mp hk
    exact Keyed.mem_keys_erase.mpr ⟨hstreams k hk, hne⟩
  · intro k hk
    obtain ⟨hk, hne⟩ := Keyed.mem_keys_erase.mp hk
    exact Keyed.mem_keys_erase.mpr ⟨hstates k hk, hne⟩

/-- A signal enters its sender into the mesh alone. -/
theorem onMesh_signal (hmesh : room.HasMesh) (sender : ParticipantId)
    (kind : SignalKind) (payload : JsonObj) :
    let room' := room.onMesh (.frame (.signal (some sender) kind payload))
    room'.HasMesh ∧ room'.store = room.store ∧ ∀ k, k ∈ room'.peerIds ↔
        k ∈ room.peerIds ∨ k = sender := by
  obtain ⟨pm, hpm, hlive⟩ := hmesh
  have hnew : (room.onMesh (.frame (.signal (some sender) kind payload))).peers =
      some (pm.addPeer sender false) := by
    show room.peers.map _ = _
    rw [hpm, ← PeerManager.handleSignal_eq_addPeer]
    rfl
  refine ⟨⟨_, hnew, by rw [PeerManager.destroyed_addPeer, hlive]⟩, rfl, fun k => ?_⟩
  rw [peerIds_of_some hnew, peerIds_of_some hpm, mem_peers_addPeer hlive]

theorem onMesh_connectionState {state : PeerConnectionState} (hheld : id ∈ room.peerIds) :
    room.onMesh (.connectionState id state) =
      { room with store := room.store.setConnectionState id state } := if_pos hheld

theorem Meshed.signal (h : room.Meshed) {sender : Option ParticipantId} {kind : SignalKind}
    {payload : JsonObj} (hsender : room.KnowsSender (.signal sender kind payload)) :
    (room.onMesh (.frame (.signal sender kind payload))).Meshed := by
  cases sender with
  | none => exact h
  | some sender =>
    obtain ⟨hmesh, hstore, hmem⟩ := onMesh_signal h.hasMesh sender kind payload
    refine ⟨hmesh, ?_, ?_⟩
    · intro k hk
      rw [hstore]
      rcases (hmem k).mp hk with hk | rfl
      · exact h.peers k hk
      · exact hsender
    · exact ⟨h.inRoom.remoteStreams, h.inRoom.connectionStates⟩

/-- **One step.**  A frame or a callback keeps mesh and store within the participants. -/
theorem Meshed.onMesh (h : room.Meshed) {e : MeshEvent} (he : room.Safe e) :
    (room.onMesh e).Meshed := by
  cases e with
  | frame f =>
    cases f with
    | peerJoined participant => exact h.peerJoined participant
    | peerLeft gone => exact h.peerLeft gone
    | signal sender kind payload => exact h.signal (he _ rfl)
  | remoteStream participantId streamId =>
    rw [MeetingRoom.onMesh]
    split
    · next hheld =>
      refine ⟨h.hasMesh, h.peers, ?_, h.inRoom.connectionStates⟩
      intro k hk
      rcases Keyed.mem_keys_set.mp hk with hk | rfl
      · exact h.inRoom.remoteStreams k hk
      · exact h.peers _ hheld
    · exact h
  | connectionState participantId state =>
    rw [MeetingRoom.onMesh]
    split
    · next hheld =>
      refine ⟨h.hasMesh, h.peers, h.inRoom.remoteStreams, ?_⟩
      intro k hk
      rcases Keyed.mem_keys_set.mp hk with hk | rfl
      · exact h.inRoom.connectionStates k hk
      · exact h.peers _ hheld
    · exact h

/-! ### Callbacks between the frames -/

/-- The two rooms have the same mesh and the same participants. -/
structure SameMesh (room room' : MeetingRoom) : Prop where
  peers : room.peers = room'.peers
  participants : room.store.participants = room'.store.participants

theorem SameMesh.refl (room : MeetingRoom) : room.SameMesh room := ⟨rfl, rfl⟩

/-- A callback changes neither. -/
theorem SameMesh.callback (h : room.SameMesh room') {e : MeshEvent} (he : e.frame? = none) :
    (room.onMesh e).SameMesh room' := by
  cases e with
  | frame f => cases he
  | remoteStream participantId streamId =>
    rw [MeetingRoom.onMesh]
    split <;> exact ⟨h.peers, h.participants⟩
  | connectionState participantId state =>
    rw [MeetingRoom.onMesh]
    split <;> exact ⟨h.peers, h.participants⟩

theorem SameMesh.frame (h : room.SameMesh room') (f : MeshFrame) :
    (room.onMesh (.frame f)).SameMesh (room'.onMeshFrame f) := by
  obtain ⟨hpeers, hparticipants⟩ := h
  cases f with
  | peerJoined participant =>
    exact ⟨congrArg (Option.map _) hpeers, congrArg (Keyed.set · participant) hparticipants⟩
  | peerLeft gone =>
    exact ⟨congrArg (Option.map _) hpeers, congrArg (Keyed.erase · gone) hparticipants⟩
  | signal sender kind payload =>
    cases sender with
    | none => exact ⟨hpeers, hparticipants⟩
    | some sender => exact ⟨congrArg (Option.map _) hpeers, hparticipants⟩

theorem SameMesh.knowsSender (h : room.SameMesh room') (f : MeshFrame) :
    room.KnowsSender f ↔ room'.KnowsSender f := by
  cases f with
  | signal sender kind payload =>
    cases sender with
    | none => exact Iff.rfl
    | some sender =>
      rw [KnowsSender, KnowsSender, h.participants]
  | _ => exact Iff.rfl

/-- The senders are known with callbacks between the frames if they are without. -/
theorem guarded_safe {evs : List MeshEvent} (hsame : room.SameMesh room')
    (h : Runs.Guarded onMeshFrame KnowsSender room' (evs.filterMap MeshEvent.frame?)) :
    Runs.Guarded MeetingRoom.onMesh Safe room evs := by
  induction evs generalizing room room' with
  | nil => exact Runs.guarded_nil
  | cons e evs ih =>
    cases hframe : e.frame? with
    | none =>
      rw [List.filterMap_cons_none hframe] at h
      refine Runs.guarded_cons.mpr ⟨?_, ih (hsame.callback hframe) h⟩
      intro f hf
      rw [hframe] at hf
      cases hf
    | some f =>
      rw [List.filterMap_cons_some hframe] at h
      obtain ⟨hknown, h⟩ := Runs.guarded_cons.mp h
      obtain rfl : e = .frame f := by
        cases e with
        | frame g => exact congrArg MeshEvent.frame (Option.some.inj hframe)
        | _ => cases hframe
      refine Runs.guarded_cons.mpr ⟨?_, ih (hsame.frame f) h⟩
      rintro g ⟨⟩
      exact (hsame.knowsSender f).mpr hknown

/-- A signal of somebody who is no participant lets the next callback out of the room. -/
theorem knowsSender_of_always {frames : List MeshFrame} (hmeshed : room.Meshed)
    (h : ∀ evs : List MeshEvent, evs.filterMap MeshEvent.frame? = frames →
      Runs.Always MeetingRoom.onMesh InRoom room evs) :
    Runs.Guarded onMeshFrame KnowsSender room frames := by
  induction frames generalizing room with
  | nil => exact Runs.guarded_nil
  | cons f frames ih =>
    have hknown : room.KnowsSender f := by
      cases f with
      | signal sender kind payload =>
        cases sender with
        | none => trivial
        | some sender =>
          -- the first callback of the connection to the sender, right after the signal
          obtain ⟨-, hstore, hmem⟩ := onMesh_signal hmeshed.hasMesh sender kind payload
          have hframes : (frames.map MeshEvent.frame).filterMap MeshEvent.frame? = frames := by
            rw [List.filterMap_map]
            exact List.filterMap_some
          have halways := h (.frame (.signal (some sender) kind payload) ::
            .connectionState sender .new ::
            frames.map .frame) (congrArg _ hframes)
          have hroom := (Runs.always_cons.mp (Runs.always_cons.mp halways).2).2 [] List.nil_prefix
          rw [Runs.run_nil, onMesh_connectionState ((hmem sender).mpr (.inr rfl)), hstore] at hroom
          exact hroom.connectionStates sender (Keyed.mem_keys_set.mpr (.inr rfl))
      | _ => trivial
    refine Runs.guarded_cons.mpr ⟨hknown, ih (hmeshed.onMesh ?_) fun evs hevs => ?_⟩
    · rintro g ⟨⟩
      exact hknown
    · have halways := h (.frame f :: evs) (by simp [MeshEvent.frame?, hevs])
      exact (Runs.always_cons.mp halways).2

end Follows

/-- **A snapshot reconciles the mesh** exactly when no older peer is left out of it and
only participants signal afterwards. -/
theorem reconciled_iff {room : MeetingRoom} (hmesh : room.HasMesh) (snapshot : RoomSnapshot)
    (frames : List MeshFrame) : room.Reconciles snapshot frames ↔
      room.Listed snapshot ∧
        Runs.Guarded onMeshFrame KnowsSender (room.afterSnapshot snapshot) frames := by
  have hmeshed (hlisted : room.Listed snapshot) : (room.afterSnapshot snapshot).Meshed := by
    refine ⟨hmesh.afterSnapshot, ?_, inRoom_afterSnapshot⟩
    intro id hid
    rw [mem_participants_afterSnapshot]
    rcases (mem_peerIds_afterSnapshot hmesh).mp hid with hid | ⟨-, hp⟩
    · exact (hlisted id hid).2
    · exact hp
  constructor
  · intro h
    have hlisted : room.Listed snapshot := fun id hid =>
      (h.peers id).mp ((mem_peerIds_afterSnapshot hmesh).mpr (.inl hid))
    exact ⟨hlisted, knowsSender_of_always (hmeshed hlisted) h.inRoom⟩
  · rintro ⟨hlisted, hknown⟩
    constructor
    · intro id
      rw [mem_peerIds_afterSnapshot hmesh]
      exact or_iff_right_of_imp (hlisted id)
    · rintro evs rfl
      exact ((guarded_safe (.refl _) hknown).always (hmeshed hlisted) fun room e h he =>
        h.onMesh he).mono
        fun room h => h.inRoom

/-- What Bob is sent when he is alone in the room. -/
def bobAlone : RoomSnapshot := { participants := [bob], you := bob, meeting := bobsMeeting }

def bobsFriend : ParticipantView := { bob with id := "q", displayName := "Grace" }

/-- Bob's room, with the peers it held before an outage. -/
def bobReturns (held : List ParticipantId) : MeetingRoom :=
  { mount "10000000003" none with peers := some (held.foldl (·.addPeer · true) {}) }

/-- Alone again, Bob meets a friend. -/
theorem bob_reconciles : (bobReturns []).Reconciles bobAlone
    [.peerJoined bobsFriend, .signal (some "q") .offer []] := by
  have hmesh : (bobReturns []).HasMesh := ⟨_, rfl, rfl⟩
  refine (reconciled_iff hmesh bobAlone _).mpr ⟨fun id hid => absurd hid List.not_mem_nil, ?_⟩
  refine Runs.guarded_cons.mpr ⟨trivial, Runs.guarded_cons.mpr ⟨?_, Runs.guarded_nil⟩⟩
  show "q" ∈ _
  decide

/-- A peer that left during the outage is still held after the snapshot. -/
theorem gone_peer_is_held :
    ¬ ∀ (room : MeetingRoom) (snapshot : RoomSnapshot) (frames : List MeshFrame),
    room.HasMesh → room.Reconciles snapshot frames := by
  intro h
  have hpeers := (h (bobReturns ["q"]) bobAlone [] ⟨_, rfl, rfl⟩).peers "q"
  revert hpeers
  decide

end MeetingRoom

end ZoomClone
