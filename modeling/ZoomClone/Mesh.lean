/-
The mesh of a browser, item by item.

`meshStep` is what one item off the socket does to the peers of a room
(`peers_receive`).  The items that are still on the wire are a run of it: what a
browser will have made of them is the state at the end of that run.

* `Knows` — a browser would not take this participant for a new one;
* `roleIn_meshStep_true` — only a `peer.joined` about a participant that is not
  known makes this side the initiator.
-/
import ZoomClone.NetworkValid

namespace ZoomClone

/-! ### What an item is about -/

namespace WireItem

/-- Whom a `peer.joined` announces. -/
def joins : WireItem → Option ParticipantId
  | .frame f =>
    match f.body with
    | .peerJoined v => some v.id
    | _ => none
  | .close _ => none

/-- Whom a `peer.left` names. -/
def parts : WireItem → Option ParticipantId
  | .frame f =>
    match f.body with
    | .peerLeft t => some t
    | _ => none
  | .close _ => none

end WireItem

/-! ### One item -/

/-- What a frame does to the mesh. -/
def Frame.onPeers (f : Frame) (peers : Option PeerManager) : Option PeerManager :=
  match f.body with
  | .roomState snapshot => peers.map fun pm =>
    (snapshot.participants.filter fun peer => peer.id ≠ snapshot.you.id).foldl
      (fun pm peer => pm.addPeer peer.id false) pm
  | .peerJoined participant => peers.map (·.addPeer participant.id true)
  | .peerLeft participantId => peers.map (·.removePeer participantId)
  | .signal _ _ =>
    match f.sender with
    | none => peers
    | some sender => peers.map (·.handleSignal sender)
  | .hostRemovedYou _ => none
  | .meetingEnded _ => none
  | _ => peers

/-- What an item off the socket does to the mesh. -/
def meshStep (peers : Option PeerManager) : WireItem → Option PeerManager
  | .frame f => f.onPeers peers
  | .close _ => peers

/-- A room that was torn down takes nothing in. -/
theorem meshStep_none (item : WireItem) : meshStep none item = none := by
  cases item with
  | close code => rfl
  | frame f =>
    show f.onPeers none = none
    rw [Frame.onPeers]
    cases f.body with
    | signal kind payload =>
      cases f.sender with
      | none => rfl
      | some sender => rfl
    | _ => rfl

/-- **The mesh of a room** sees nothing of an item but this. -/
theorem peers_receive (room : MeetingRoom) (item : WireItem) :
    (room.receive item).peers = meshStep room.peers item := by
  cases item with
  | close code => rfl
  | frame f =>
    show (room.opened.handleFrame f).1.peers = f.onPeers room.peers
    rw [MeetingRoom.handleFrame, Frame.onPeers]
    cases f.body with
    | signal kind payload =>
      cases f.sender with
      | none => rfl
      | some sender => rfl
    | _ => rfl

/-! ### Who is known -/

/-- This participant would not be taken for a new one: there is no mesh to add it
to, or it is in there. -/
def Knows (peers : Option PeerManager) (a : ParticipantId) : Prop :=
  ∀ pm ∈ peers, pm.destroyed = true ∨ a ∈ pm.peers.keys

/-- The role of this side towards a participant. -/
def roleIn (peers : Option PeerManager) (a : ParticipantId) : Option Bool := peers.bind (·.role a)

section Knows

variable {peers : Option PeerManager} {pm : PeerManager} {a b : ParticipantId} {initiator : Bool}

theorem knows_none : Knows none a := by
  intro pm hpm
  cases hpm

theorem knows_some : Knows (some pm) a ↔ pm.destroyed = true ∨ a ∈ pm.peers.keys := by
  constructor
  · exact fun h => h pm rfl
  · rintro h pm' hpm'
    obtain rfl := Option.some.inj hpm'
    exact h

theorem knows_addPeer_self : Knows (some (pm.addPeer a initiator)) a := by
  rw [knows_some, PeerManager.addPeer]
  split
  · next h => exact h
  · exact .inr (Keyed.mem_keys_set.mpr (.inr rfl))

theorem Knows.addPeer (h : Knows (some pm) a) : Knows (some (pm.addPeer b initiator)) a := by
  rw [knows_some] at h ⊢
  rw [PeerManager.addPeer]
  split
  · exact h
  · exact h.imp_right fun hmem => Keyed.mem_keys_set.mpr (.inl hmem)

theorem Knows.removePeer (h : Knows (some pm) a) (hne : a ≠ b) :
    Knows (some (pm.removePeer b)) a := by
  rw [knows_some] at h ⊢
  exact h.imp_right fun hmem => Keyed.mem_keys_erase.mpr ⟨hmem, hne⟩

/-- A snapshot makes its participants known, and forgets nobody. -/
theorem knows_foldl_addPeer {others : List ParticipantView} {pm : PeerManager}
    (h : Knows (some pm) a ∨ ∃ v ∈ others, v.id = a) :
    Knows (some (others.foldl (fun pm peer => pm.addPeer peer.id false) pm)) a := by
  induction others generalizing pm with
  | nil =>
    rcases h with h | ⟨v, hv, -⟩
    · exact h
    · cases hv
  | cons v others ih =>
    rw [List.foldl_cons]
    refine ih ?_
    rcases h with h | ⟨v', hv', rfl⟩
    · exact .inl h.addPeer
    · rcases List.mem_cons.mp hv' with rfl | hv'
      · exact .inl knows_addPeer_self
      · exact .inr ⟨v', hv', rfl⟩

/-- **Who is known stays known**, until a `peer.left` names it. -/
theorem Knows.meshStep (h : Knows peers a) {item : WireItem} (hleft : item.parts ≠ some a) :
    Knows (meshStep peers item) a := by
  cases peers with
  | none =>
    rw [meshStep_none]
    exact knows_none
  | some pm =>
    cases item with
    | close code => exact h
    | frame f =>
      obtain ⟨body, sender, recipient⟩ := f
      cases body with
      | roomState snapshot => exact knows_foldl_addPeer (.inl h)
      | peerJoined v => exact h.addPeer
      | peerLeft t => exact h.removePeer fun heq => hleft (congrArg some heq.symm)
      | signal kind payload =>
        cases sender with
        | none => exact h
        | some s =>
          show Knows (some (pm.handleSignal s)) a
          rw [PeerManager.handleSignal_eq_addPeer]
          exact h.addPeer
      | hostRemovedYou sentBy => exact knows_none
      | meetingEnded sentBy => exact knows_none
      | _ => exact h

/-- After a snapshot everyone in it is known. -/
theorem knows_roomState {f : Frame} {snapshot : RoomSnapshot} {v : ParticipantView}
    (hf : f.body = .roomState snapshot) (hv : v ∈ snapshot.participants)
    (hne : v.id ≠ snapshot.you.id) : Knows (meshStep peers (.frame f)) v.id := by
  cases peers with
  | none =>
    rw [meshStep_none]
    exact knows_none
  | some pm =>
    show Knows (f.onPeers (some pm)) v.id
    rw [Frame.onPeers, hf]
    refine knows_foldl_addPeer (.inr ⟨v, ?_, rfl⟩)
    exact List.mem_filter.mpr ⟨hv, by simpa using hne⟩

/-! ### Who starts -/

theorem role_addPeer_true (h : (pm.addPeer b initiator).role a = some true) :
    pm.role a = some true ∨ (b = a ∧ initiator = true ∧ ¬ Knows (some pm) a) := by
  by_cases hskip : pm.destroyed = true ∨ b ∈ pm.peers.keys
  · rw [PeerManager.addPeer, if_pos hskip] at h
    exact .inl h
  · rw [PeerManager.addPeer, if_neg hskip, PeerManager.role_set] at h
    split at h
    · next heq =>
      subst heq
      exact .inr ⟨rfl, Option.some.inj h, fun hknows => hskip (knows_some.mp hknows)⟩
    · exact .inl h

theorem role_foldl_addPeer_true {others : List ParticipantView} {pm : PeerManager}
    (h : (others.foldl (fun pm peer => pm.addPeer peer.id false) pm).role a = some true) :
    pm.role a = some true := by
  induction others generalizing pm with
  | nil => exact h
  | cons v others ih =>
    rcases role_addPeer_true (ih h) with h | ⟨-, hfalse, -⟩
    · exact h
    · cases hfalse

theorem destroyed_foldl_addPeer (views : List ParticipantView) (pm : PeerManager) :
    (views.foldl (fun pm peer => pm.addPeer peer.id false) pm).destroyed = pm.destroyed := by
  induction views generalizing pm with
  | nil => rfl
  | cons v views ih => rw [List.foldl_cons, ih, PeerManager.destroyed_addPeer]

/-- The participants of a snapshot are entered as peers that initiate, if at all. -/
theorem role_foldl_addPeer {views : List ParticipantView} {pm : PeerManager}
    (hlive : pm.destroyed = false) (b : ParticipantId) :
    (views.foldl (fun pm peer => pm.addPeer peer.id false) pm).role b =
      if b ∈ views.map ParticipantView.id then some ((pm.role b).getD false) else pm.role b := by
  induction views generalizing pm with
  | nil => rfl
  | cons v views ih =>
    rw [List.foldl_cons, ih (by rw [PeerManager.destroyed_addPeer, hlive]),
      PeerManager.role_addPeer hlive, List.map_cons]
    by_cases hv : v.id = b
    · subst hv
      simp
    · have hv' : b ≠ v.id := Ne.symm hv
      simp [hv, hv']

/-- **How this side becomes the initiator.** -/
theorem roleIn_meshStep_true {item : WireItem} (h : roleIn (meshStep peers item) a = some true) :
    roleIn peers a = some true ∨ (item.joins = some a ∧ ¬ Knows peers a) := by
  cases peers with
  | none =>
    rw [meshStep_none] at h
    cases h
  | some pm =>
    cases item with
    | close code => exact .inl h
    | frame f =>
      obtain ⟨body, sender, recipient⟩ := f
      cases body with
      | roomState snapshot => exact .inl (role_foldl_addPeer_true h)
      | peerJoined v =>
        rcases role_addPeer_true (b := v.id) h with h | ⟨heq, -, hnew⟩
        · exact .inl h
        · exact .inr ⟨congrArg some heq, hnew⟩
      | peerLeft t =>
        have hremoved : (pm.removePeer t).role a = some true := h
        rw [PeerManager.role_removePeer] at hremoved
        split at hremoved
        · cases hremoved
        · exact .inl hremoved
      | signal kind payload =>
        cases sender with
        | none => exact .inl h
        | some s =>
          have hsignal : (pm.handleSignal s).role a = some true := h
          rw [PeerManager.handleSignal_eq_addPeer] at hsignal
          rcases role_addPeer_true hsignal with h | ⟨-, hfalse, -⟩
          · exact .inl h
          · cases hfalse
      | hostRemovedYou sentBy => cases h
      | meetingEnded sentBy => cases h
      | _ => exact .inl h

end Knows

/-! ### A browser over one event -/

namespace Network

variable {n n' : Network} {e : NetEvent}

/-- What an event does to the browser of `p`. -/
inductive ClientStep (n n' : Network) (p : ParticipantId) : NetEvent → Prop
  | kept {e : NetEvent} (he : e ≠ .deliver p) (hclient : n'.clients p = n.clients p) :
      ClientStep n n' p e
  | took (c : ConnectionId) (item : WireItem) (hsocket : (n.clients p).socket = some c)
      (hpending : (n.wires c).pending = item :: (n'.wires c).pending)
      (hclient : n'.clients p = (n.clients p).receive item) : ClientStep n n' p (.deliver p)
  | joined {e : NetEvent} (c : ConnectionId) (hfresh : n.tasks c = none)
      (hsocket : (n'.clients p).socket = some c) (hnew : p ∉ n.server.db.participants.keys)
      (hpeers : (n'.clients p).peers = some {}) : ClientStep n n' p e
  | reconnected (c : ConnectionId) (hfresh : n.tasks c = none)
      (hsocket : (n'.clients p).socket = some c)
      (hpeers : (n'.clients p).peers = (n.clients p).peers) : ClientStep n n' p (.reconnect p c)
  | dropped (hsocket : (n'.clients p).socket = none)
      (hpeers : (n'.clients p).peers = (n.clients p).peers) : ClientStep n n' p (.drop p)
  | left (hsocket : (n'.clients p).socket = none) (hpeers : (n'.clients p).peers = none) :
      ClientStep n n' p (.leave p)

theorem socket_closed (room : MeetingRoom) : room.closed.socket = none := by
  rw [MeetingRoom.socket, MeetingRoom.closed]
  cases room.signaling with
  | none => rfl
  | some client => exact client.live_onClose

/-- **The browser of `p` over one event.** -/
theorem Step.client (h : n.Step e n') (p : ParticipantId) : ClientStep n n' p e := by
  cases h with
  | @joined userId meetingNumber inviteToken stream draws now c response db room req hroom hfresh
      hpost =>
    by_cases hp : p = draws.id
    · subst hp
      refine .joined c hfresh ?_ (postJoin_names hpost).1 ?_
      · show MeetingRoom.socket
          (Function.update n.clients draws.id (room.joined response c) draws.id) = _
        rw [Function.update_self]
        rfl
      · show MeetingRoom.peers
          (Function.update n.clients draws.id (room.joined response c) draws.id) = _
        rw [Function.update_self]
        rfl
    · refine .kept ?_ (Function.update_of_ne hp ..)
      intro he
      cases he
  | @reconnected q c client hfresh hclient htimer =>
    by_cases hp : p = q
    · subst hp
      refine .reconnected c hfresh ?_ ?_
      · show MeetingRoom.socket (Function.update n.clients p _ p) = _
        rw [Function.update_self]
        rfl
      · show MeetingRoom.peers (Function.update n.clients p _ p) = _
        rw [Function.update_self]
    · refine .kept ?_ (Function.update_of_ne hp ..)
      intro he
      cases he
  | @delivered q c item rest hsocket hpending =>
    by_cases hp : p = q
    · subst hp
      refine .took c item hsocket ?_ (Function.update_self ..)
      show _ = item :: (Function.update n.wires c _ c).pending
      rw [Function.update_self, hpending]
    · refine .kept ?_ (Function.update_of_ne hp ..)
      intro he
      exact hp (NetEvent.deliver.inj he).symm
  | @dropped q hsocket =>
    by_cases hp : p = q
    · subst hp
      refine .dropped ?_ ?_
      · show MeetingRoom.socket (Function.update n.clients p _ p) = _
        rw [Function.update_self]
        exact socket_closed _
      · show MeetingRoom.peers (Function.update n.clients p _ p) = _
        rw [Function.update_self]
        rfl
    · refine .kept ?_ (Function.update_of_ne hp ..)
      intro he
      cases he
  | @left q hphase =>
    by_cases hp : p = q
    · subst hp
      refine .left ?_ ?_
      · show MeetingRoom.socket (Function.update n.clients p _ p) = _
        rw [Function.update_self]
        rfl
      · show MeetingRoom.peers (Function.update n.clients p _ p) = _
        rw [Function.update_self]
        rfl
    · refine .kept ?_ (Function.update_of_ne hp ..)
      intro he
      cases he
  | _ =>
    refine .kept ?_ rfl
    intro he
    cases he

end Network

end ZoomClone
