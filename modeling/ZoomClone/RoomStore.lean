/-
The meeting-room store with the identity of its participant `Map`s (`meetingStore.ts`).

`MeetingStore` has the values of the store.  Here its state refers to the `Map` of the
participants by address: an action that makes a `Map` copies, changes the copy and lets
the new state refer to it, and the `Map`s of earlier states stay as they were.  A patch
may set any field of the row, the id included, which the `Map` still holds under the old
key.

* `maps_apply` — no action changes a `Map` that was made before;
* `inOrder_apply` — the ids of the `Map` are in the order of their insertion;
* `Agrees.run` — the actions are those of `MeetingStore` as far as values go.
-/
import ZoomClone.MeetingStore

namespace ZoomClone

/-- `Map<string, Participant>`. -/
abbrev ParticipantMap := Keyed (Prod.fst : ParticipantId × ParticipantView → ParticipantId)

/-- `Partial<Participant>`. -/
structure ParticipantPatch where
  id : Option ParticipantId := none
  meetingId : Option MeetingId := none
  displayName : Option String := none
  role : Option Role := none
  isMuted : Option Bool := none
  isVideoOn : Option Bool := none
  isHandRaised : Option Bool := none

/-- `{ ...participant, ...patch }`. -/
def ParticipantView.assign (p : ParticipantView) (patch : ParticipantPatch) : ParticipantView :=
  { p with
    id := patch.id.getD p.id
    meetingId := patch.meetingId.getD p.meetingId
    displayName := patch.displayName.getD p.displayName
    role := patch.role.getD p.role
    isMuted := patch.isMuted.getD p.isMuted
    isVideoOn := patch.isVideoOn.getD p.isVideoOn
    isHandRaised := patch.isHandRaised.getD p.isHandRaised }

/-- A state of the store; `participants` is the address of its `Map`, the streams of the
browser are named by their ids. -/
structure RoomState where
  meeting : Option MeetingView := none
  self : Option ParticipantView := none
  participants : ℕ := 0
  remoteStreams : Keyed RemoteStream.participantId := .empty
  localStream : Option String := none
  connectionStates : Keyed ConnectionState.participantId := .empty
  messages : List MessageView := []
  activeSpeakerId : Option ParticipantId := none
  panel : MeetingPanel := .none
  isMuted : Bool := false
  isVideoOn : Bool := true
  isScreenSharing : Bool := false

/-- The `Map`s of participants made so far, by address, and the current state. -/
structure RoomStore where
  maps : List ParticipantMap := [.empty]
  state : RoomState := {}

/-- The `Map` at an address. -/
def RoomStore.mapAt (s : RoomStore) (address : ℕ) : ParticipantMap := s.maps.getD address .empty

inductive StoreAction where
  | setRoomState (meeting : MeetingView) (self : ParticipantView)
      (participants : List ParticipantView)
  | upsertParticipant (participant : ParticipantView)
  | removeParticipant (participantId : ParticipantId)
  | patchParticipant (participantId : ParticipantId) (patch : ParticipantPatch)
  | setRemoteStream (participantId : ParticipantId) (streamId : String)
  | setConnectionState (participantId : ParticipantId) (state : PeerConnectionState)
  | setLocalStream (streamId : Option String)
  | addMessage (message : MessageView)
  | setMessages (messages : List MessageView)
  | setPanel (panel : MeetingPanel)
  | togglePanel (panel : MeetingPanel)
  | setMuted (isMuted : Bool)
  | setVideoOn (isVideoOn : Bool)
  | setScreenSharing (isScreenSharing : Bool)
  | setActiveSpeaker (participantId : Option ParticipantId)
  | reset

namespace RoomStore

/-- The `Map` of the current state. -/
def participants (s : RoomStore) : ParticipantMap := s.mapAt s.state.participants

/-- A state that refers to a new `Map`. -/
def withMap (s : RoomStore) (next : ParticipantMap) (state : RoomState) : RoomStore where
  maps := s.maps ++ [next]
  state := { state with participants := s.maps.length }

/-- The entries `participants.map((p) => [p.id, p])` of a new `Map`. -/
def mapOf (participants : List ParticipantView) : ParticipantMap :=
  (participants.map fun p => (p.id, p)).foldl Keyed.set .empty

def setRoomState (s : RoomStore) (meeting : MeetingView) (self : ParticipantView)
    (participants : List ParticipantView) : RoomStore :=
  let next := mapOf participants
  s.withMap next
    { s.state with
      meeting := some meeting
      self := some self
      remoteStreams := s.state.remoteStreams.filter fun r => r.participantId ∈ next.keys
      connectionStates := s.state.connectionStates.filter fun c => c.participantId ∈ next.keys
      isMuted := self.isMuted
      isVideoOn := self.isVideoOn }

def upsertParticipant (s : RoomStore) (participant : ParticipantView) : RoomStore :=
  s.withMap (s.participants.set (participant.id, participant)) s.state

def removeParticipant (s : RoomStore) (participantId : ParticipantId) : RoomStore :=
  s.withMap (s.participants.erase participantId)
    { s.state with
      remoteStreams := s.state.remoteStreams.erase participantId
      connectionStates := s.state.connectionStates.erase participantId
      activeSpeakerId := s.state.activeSpeakerId.filter fun id => id ≠ participantId }

def patchParticipant (s : RoomStore) (participantId : ParticipantId) (patch : ParticipantPatch) :
    RoomStore :=
  match s.participants.find? participantId with
  | none => s
  | some existing =>
    s.withMap (s.participants.set (participantId, existing.2.assign patch))
      { s.state with
        self := s.state.self.map fun self => if self.id = participantId then
          self.assign patch else self }

/-- `{ ...initialState, participants: new Map(), … }`. -/
def reset (s : RoomStore) : RoomStore := s.withMap .empty {}

/-- What the other actions set. -/
def setState (s : RoomStore) (f : RoomState → RoomState) : RoomStore :=
  { s with state := f s.state }

def apply (s : RoomStore) : StoreAction → RoomStore
  | .setRoomState meeting self participants => s.setRoomState meeting self participants
  | .upsertParticipant participant => s.upsertParticipant participant
  | .removeParticipant participantId => s.removeParticipant participantId
  | .patchParticipant participantId patch => s.patchParticipant participantId patch
  | .setRemoteStream participantId streamId => s.setState fun state =>
    { state with remoteStreams := state.remoteStreams.set ⟨participantId, streamId⟩ }
  | .setConnectionState participantId connectionState => s.setState fun state =>
    { state with connectionStates := state.connectionStates.set ⟨participantId, connectionState⟩ }
  | .setLocalStream streamId => s.setState fun state => { state with localStream := streamId }
  | .addMessage message => s.setState fun state =>
    if state.messages.any fun m => m.id = message.id then state
    else { state with messages := state.messages ++ [message] }
  | .setMessages messages => s.setState fun state => { state with messages }
  | .setPanel panel => s.setState fun state => { state with panel }
  | .togglePanel panel => s.setState fun state =>
    { state with panel := if state.panel = panel then .none else panel }
  | .setMuted isMuted => s.setState fun state => { state with isMuted }
  | .setVideoOn isVideoOn => s.setState fun state => { state with isVideoOn }
  | .setScreenSharing isScreenSharing => s.setState fun state => { state with isScreenSharing }
  | .setActiveSpeaker participantId => s.setState fun state => { state with
    activeSpeakerId := participantId }
  | .reset => s.reset

/-! ### The `Map`s of earlier states -/

variable {s : RoomStore} {a : StoreAction}

/-- No action changes a `Map` that was made before. -/
theorem maps_apply (s : RoomStore) (a : StoreAction) : s.maps <+: (s.apply a).maps := by
  cases a with
  | patchParticipant participantId patch =>
    rw [apply, patchParticipant]
    split
    · exact List.prefix_refl _
    · exact List.prefix_append _ _
  | setRoomState | upsertParticipant | removeParticipant | reset => exact List.prefix_append _ _
  | _ => exact List.prefix_refl _

theorem mapAt_of_prefix {s' : RoomStore} (h : s.maps <+: s'.maps) {address : ℕ}
    (haddress : address < s.maps.length) :
    s'.mapAt address = s.mapAt address := by
  obtain ⟨made, hmade⟩ := h
  rw [mapAt, mapAt, ← hmade, List.getD_eq_getElem?_getD, List.getD_eq_getElem?_getD,
    List.getElem?_append_left haddress]

/-- The address of the current state is that of a `Map`. -/
def Allocated (s : RoomStore) : Prop := s.state.participants < s.maps.length

theorem allocated_withMap (s : RoomStore) (next : ParticipantMap) (state : RoomState) :
    (s.withMap next state).Allocated := by
  simp [Allocated, withMap]

theorem participants_withMap (s : RoomStore) (next : ParticipantMap) (state : RoomState) :
    (s.withMap next state).participants = next := by
  simp [participants, withMap, mapAt]

theorem Allocated.apply (h : s.Allocated) (a : StoreAction) : (s.apply a).Allocated := by
  cases a with
  | patchParticipant participantId patch =>
    rw [RoomStore.apply, patchParticipant]
    split
    · exact h
    · exact allocated_withMap ..
  | setRoomState | upsertParticipant | removeParticipant | reset => exact allocated_withMap ..
  | addMessage message =>
    simp only [RoomStore.apply, setState, Allocated]
    split <;> exact h
  | _ => exact h

/-- The action leaves the participants alone: it sets something else, or patches an id
that is not there. -/
def Quiet (s : RoomStore) : StoreAction → Prop
  | .setRoomState .. | .upsertParticipant _ | .removeParticipant _ | .reset => False
  | .patchParticipant participantId _ => participantId ∉ s.participants.keys
  | _ => True

/-- A quiet action keeps the address of the `Map`, and the own row. -/
theorem Quiet.apply (h : s.Quiet a) : (s.apply a).state.participants = s.state.participants ∧
    (s.apply a).state.self = s.state.self := by
  cases a with
  | patchParticipant participantId patch =>
    have hnone : s.participants.find? participantId = none := Keyed.find?_eq_none.mpr h
    simp [RoomStore.apply, patchParticipant, hnone]
  | addMessage message =>
    simp only [RoomStore.apply, setState]
    split <;> exact ⟨rfl, rfl⟩
  | setRoomState | upsertParticipant | removeParticipant | reset => exact h.elim
  | _ => exact ⟨rfl, rfl⟩

end RoomStore

/-! ### The order of insertion -/

/-- When the entry of an id was inserted that is there after the actions, given from the
last one back: the number of actions before, and the place in the snapshot. -/
def insertedAt : List StoreAction → ParticipantId → Option (ℕ × ℕ)
  | [], _ => none
  | .setRoomState _ _ participants :: before, k =>
    let ids := participants.map ParticipantView.id
    if k ∈ ids then some (before.length, ids.idxOf k) else none
  | .upsertParticipant p :: before, k =>
    if k = p.id then some ((insertedAt before k).getD (before.length, 0)) else insertedAt before k
  | .removeParticipant id :: before, k => if k = id then none else insertedAt before k
  | .reset :: _, _ => none
  | _ :: before, k => insertedAt before k

/-- The entry of the first id was inserted before that of the second. -/
def InsertedBefore (actions : List StoreAction) (k k' : ParticipantId) : Prop :=
  ∃ t t', insertedAt actions k = some t ∧ insertedAt actions k' = some t' ∧
    (t.1 < t'.1 ∨ t.1 = t'.1 ∧ t.2 < t'.2)

/-- The ids are those that are there, in the order of their insertion. -/
structure InOrder (actions : List StoreAction) (keys : List ParticipantId) : Prop where
  mem : ∀ k, k ∈ keys ↔ insertedAt actions k ≠ none
  order : keys.Pairwise (InsertedBefore actions)

section

variable {actions : List StoreAction} {keys : List ParticipantId}

theorem insertedAt_lt {k : ParticipantId} {t : ℕ × ℕ} (h : insertedAt actions k = some t) :
    t.1 < actions.length := by
  induction actions generalizing t with
  | nil => cases h
  | cons a before ih =>
    rw [List.length_cons]
    cases a with
    | setRoomState meeting self participants =>
      simp only [insertedAt] at h
      split_ifs at h
      rw [← Option.some.inj h]
      omega
    | upsertParticipant p =>
      simp only [insertedAt] at h
      split_ifs at h
      · -- An id that is there keeps its place.
        rw [← Option.some.inj h]
        cases hold : insertedAt before k with
        | none => exact Nat.lt_succ_self _
        | some told => exact Nat.lt_succ_of_lt (ih hold)
      · exact Nat.lt_succ_of_lt (ih h)
    | removeParticipant id =>
      simp only [insertedAt] at h
      split_ifs at h
      exact Nat.lt_succ_of_lt (ih h)
    | reset => cases h
    | _ => exact Nat.lt_succ_of_lt (ih h)

theorem inOrder_nil : InOrder [] [] := ⟨by simp [insertedAt], List.Pairwise.nil⟩

/-- The same insertions keep their order. -/
theorem InsertedBefore.congr {actions' : List StoreAction} {k k' : ParticipantId}
    (h : InsertedBefore actions k k') (hk : insertedAt actions' k = insertedAt actions k)
    (hk' : insertedAt actions' k' = insertedAt actions k') : InsertedBefore actions' k k' := by
  rwa [InsertedBefore, hk, hk']

theorem InOrder.congr {actions' : List StoreAction} (h : InOrder actions keys)
    (hsame : ∀ k, insertedAt actions' k = insertedAt actions k) : InOrder actions' keys :=
  ⟨fun k => by rw [hsame, h.mem], h.order.imp fun hbefore => hbefore.congr (hsame _) (hsame _)⟩

theorem InOrder.upsertParticipant (h : InOrder actions keys) (p : ParticipantView) :
    InOrder (.upsertParticipant p :: actions) (if p.id ∈ keys then keys else keys ++ [p.id]) := by
  by_cases hp : p.id ∈ keys
  · rw [if_pos hp]
    refine h.congr fun k => ?_
    rw [insertedAt]
    split_ifs with hk
    · obtain ⟨t, ht⟩ := Option.ne_none_iff_exists'.mp ((h.mem k).mp (hk ▸ hp))
      rw [ht, Option.getD_some]
    · rfl
  · rw [if_neg hp]
    have hold : ∀ k ∈ keys, insertedAt (.upsertParticipant p :: actions) k =
        insertedAt actions k := by
      rintro k hk
      rw [insertedAt, if_neg]
      rintro rfl
      exact hp hk
    -- A new id is inserted after all actions so far.
    have hnone : insertedAt actions p.id = none := by
      by_contra hsome
      exact hp ((h.mem _).mpr hsome)
    have hnew : insertedAt (.upsertParticipant p :: actions) p.id = some (actions.length, 0) := by
      rw [insertedAt, if_pos rfl, hnone, Option.getD_none]
    refine ⟨fun k => ?_, List.pairwise_append.mpr ⟨?_, List.pairwise_singleton _ _, ?_⟩⟩
    · rw [List.mem_append, List.mem_singleton]
      by_cases hk : k = p.id
      · subst hk
        simp [hnew]
      · rw [insertedAt, if_neg hk, h.mem]
        simp [hk]
    · exact h.order.imp_of_mem fun hk hk' hbefore => hbefore.congr (hold _ hk) (hold _ hk')
    · intro k hk k' hk'
      rw [List.mem_singleton] at hk'
      subst hk'
      obtain ⟨t, ht⟩ := Option.ne_none_iff_exists'.mp ((h.mem k).mp hk)
      exact ⟨t, _, (hold k hk).trans ht, hnew, .inl (insertedAt_lt ht)⟩

theorem InOrder.removeParticipant (h : InOrder actions keys) (id : ParticipantId) :
    InOrder (.removeParticipant id :: actions) (keys.filter (· ≠ id)) := by
  refine ⟨fun k => ?_, ?_⟩
  · rw [List.mem_filter, h.mem, insertedAt]
    by_cases hk : k = id <;> simp [hk]
  · refine (h.order.filter _).imp_of_mem fun hk hk' hbefore => ?_
    have hne : ∀ k ∈ keys.filter (· ≠ id), insertedAt (.removeParticipant id :: actions) k =
        insertedAt actions k := by
      intro k hk
      rw [insertedAt, if_neg (by simpa using (List.mem_filter.mp hk).2)]
    exact hbefore.congr (hne _ hk) (hne _ hk')

theorem InOrder.setRoomState (actions : List StoreAction) (meeting : MeetingView)
    (self : ParticipantView)
    (participants : List ParticipantView) :
    InOrder (.setRoomState meeting self participants :: actions)
    (RoomStore.mapOf participants).keys := by
  have hids : (participants.map fun p => (p.id, p)).map Prod.fst =
      participants.map ParticipantView.id := by
    simp [Function.comp_def]
  have hmem (k : ParticipantId) :
      k ∈ (RoomStore.mapOf participants).keys ↔ k ∈ participants.map ParticipantView.id := by
    rw [RoomStore.mapOf, Keyed.mem_keys_foldl_set, hids]
    simp [Keyed.keys, Keyed.empty]
  have hinserted {k : ParticipantId} (hk : k ∈ participants.map ParticipantView.id) :
      insertedAt (.setRoomState meeting self participants :: actions) k =
        some (actions.length, (participants.map ParticipantView.id).idxOf k) := if_pos hk
  have horder : (RoomStore.mapOf participants).keys.Pairwise fun k k' =>
      ((participants.map fun p => (p.id, p)).map Prod.fst).idxOf k <
        ((participants.map fun p => (p.id, p)).map Prod.fst).idxOf k' :=
          Keyed.pairwise_keys_foldl_set _
  rw [hids] at horder
  refine ⟨fun k => ?_, horder.imp_of_mem fun {k k'} hk hk' hlt => ?_⟩
  · rw [hmem, insertedAt]
    simp
  · exact ⟨_, _, hinserted ((hmem k).mp hk), hinserted ((hmem k').mp hk'), .inr ⟨rfl, hlt⟩⟩

end

namespace RoomStore

variable {s : RoomStore} {a : StoreAction}

theorem Quiet.participants_eq (h : s.Quiet a) (hs : s.Allocated) :
    (s.apply a).participants = s.participants := by
  rw [participants, h.apply.1, mapAt_of_prefix (maps_apply s a) hs]
  rfl

/-- A quiet action inserts nothing. -/
theorem Quiet.insertedAt_eq (h : s.Quiet a) (actions : List StoreAction) (k : ParticipantId) :
    insertedAt (a :: actions) k = insertedAt actions k := by
  cases a with
  | setRoomState | upsertParticipant | removeParticipant | reset => exact h.elim
  | _ => rfl

/-- The ids of the `Map` stay in the order of their insertion. -/
theorem inOrder_apply {actions : List StoreAction} (hs : s.Allocated)
    (h : InOrder actions s.participants.keys)
    (a : StoreAction) : InOrder (a :: actions) (s.apply a).participants.keys := by
  by_cases hquiet : s.Quiet a
  · rw [hquiet.participants_eq hs]
    exact h.congr (hquiet.insertedAt_eq actions)
  cases a with
  | setRoomState meeting self participants =>
    rw [apply, setRoomState, participants_withMap]
    exact InOrder.setRoomState actions meeting self participants
  | upsertParticipant p =>
    rw [apply, upsertParticipant, participants_withMap, Keyed.keys_set]
    exact h.upsertParticipant p
  | removeParticipant id =>
    rw [apply, removeParticipant, participants_withMap, Keyed.keys_erase]
    exact h.removeParticipant id
  | patchParticipant id patch =>
    -- The row is set under the old key, whatever its id is now.
    have hsame : InOrder (.patchParticipant id patch :: actions) s.participants.keys :=
      h.congr fun _ => rfl
    rw [apply, patchParticipant]
    split
    · exact hsame
    · next existing hfound =>
      have hmem : id ∈ s.participants.keys := Keyed.isSome_find?.mp (hfound ▸ rfl)
      rw [participants_withMap, Keyed.keys_set, if_pos hmem]
      exact hsame
  | reset =>
    rw [apply, reset, participants_withMap]
    exact ⟨by simp [insertedAt, Keyed.keys, Keyed.empty], List.Pairwise.nil⟩
  | _ => exact absurd trivial hquiet

end RoomStore

/-! ### The values -/

/-- The `Map` that has every row under its id. -/
def entriesOf (rows : Keyed ParticipantView.id) : ParticipantMap where
  rows := rows.rows.map fun p => (p.id, p)
  nodup := by simpa [Function.comp_def] using rows.nodup

section

variable {rows : Keyed ParticipantView.id}

theorem rows_entriesOf : (entriesOf rows).rows = rows.rows.map fun p => (p.id, p) := rfl

theorem keys_entriesOf : (entriesOf rows).keys = rows.keys := by
  simp [Keyed.keys, entriesOf, Function.comp_def]

theorem entriesOf_set (p : ParticipantView) :
    (entriesOf rows).set (p.id, p) = entriesOf (rows.set p) := by
  apply Keyed.ext
  by_cases hp : p.id ∈ rows.keys
  · have hentry : p.id ∈ (entriesOf rows).keys := keys_entriesOf ▸ hp
    rw [Keyed.rows_set_of_mem hentry, rows_entriesOf, rows_entriesOf, Keyed.rows_set_of_mem hp,
      List.map_map, List.map_map]
    refine List.map_congr_left fun q _ => ?_
    by_cases hq : q.id = p.id <;> simp [hq]
  · have hentry : p.id ∉ (entriesOf rows).keys := keys_entriesOf ▸ hp
    rw [Keyed.set_of_not_mem hentry, Keyed.set_of_not_mem hp]
    simp [rows_entriesOf]

theorem entriesOf_foldl_set (participants : List ParticipantView) :
    (participants.map fun p => (p.id, p)).foldl Keyed.set (entriesOf rows) =
      entriesOf (participants.foldl Keyed.set rows) := by
  induction participants generalizing rows with
  | nil => rfl
  | cons p participants ih =>
    rw [List.map_cons, List.foldl_cons, entriesOf_set, ih, List.foldl_cons]

theorem entriesOf_erase (id : ParticipantId) :
    (entriesOf rows).erase id = entriesOf (rows.erase id) := by
  apply Keyed.ext
  simp [Keyed.erase, Keyed.filter, entriesOf, List.filter_map, Function.comp_def]

theorem find?_entriesOf (id : ParticipantId) :
    (entriesOf rows).find? id = (rows.find? id).map fun p => (p.id, p) := by
  rw [Keyed.find?, rows_entriesOf, List.find?_map]
  rfl

/-- A patch of the media fields. -/
def ParticipantPatch.ofMedia (changes : MediaPatch) : ParticipantPatch where
  isMuted := changes.isMuted
  isVideoOn := changes.isVideoOn
  isHandRaised := changes.isHandRaised

theorem assign_ofMedia (p : ParticipantView) (changes : MediaPatch) :
    p.assign (.ofMedia changes) = p.patch changes := rfl

theorem entriesOf_patch {p : ParticipantView} (hp : p ∈ rows) (changes : MediaPatch) :
    (entriesOf rows).set (p.id, p.patch changes) =
      entriesOf (rows.modify p.id (·.patch changes) (ParticipantView.patch_id · changes)) := by
  have hentry : p.id ∈ (entriesOf rows).keys := keys_entriesOf ▸ Keyed.key_mem_keys hp
  apply Keyed.ext
  rw [Keyed.rows_set_of_mem hentry, rows_entriesOf, rows_entriesOf, Keyed.modify, Keyed.rows_map,
    List.map_map, List.map_map]
  refine List.map_congr_left fun q hq => ?_
  by_cases hid : q.id = p.id
  · obtain rfl := Keyed.eq_of_key_eq hq hp hid
    simp
  · simp [hid]

end

/-- The values of a state with these rows. -/
def RoomState.withRows (state : RoomState) (rows : Keyed ParticipantView.id) : MeetingStore where
  meeting := state.meeting
  self := state.self
  participants := rows
  remoteStreams := state.remoteStreams
  connectionStates := state.connectionStates
  messages := state.messages
  activeSpeakerId := state.activeSpeakerId
  panel := state.panel
  isMuted := state.isMuted
  isVideoOn := state.isVideoOn
  isScreenSharing := state.isScreenSharing

/-- The store has the values of the other. -/
def Agrees (s : RoomStore) (t : MeetingStore) : Prop :=
  ∃ rows, s.participants = entriesOf rows ∧ t = s.state.withRows rows

/-- The action and what it does to the values. -/
inductive Writes : StoreAction → (MeetingStore → MeetingStore) → Prop
  | setRoomState (meeting : MeetingView) (self : ParticipantView)
    (participants : List ParticipantView) :
    Writes (.setRoomState meeting self participants) (·.setRoomState meeting self participants)
  | upsertParticipant (participant : ParticipantView) :
    Writes (.upsertParticipant participant) (·.upsertParticipant participant)
  | removeParticipant (participantId : ParticipantId) :
    Writes (.removeParticipant participantId) (·.removeParticipant participantId)
  | patchParticipant (participantId : ParticipantId) (changes : MediaPatch) :
    Writes (.patchParticipant participantId (.ofMedia changes))
      (·.patchParticipant participantId changes)
  | setRemoteStream (participantId : ParticipantId) (streamId : String) :
    Writes (.setRemoteStream participantId streamId) (·.setRemoteStream participantId streamId)
  | setConnectionState (participantId : ParticipantId) (state : PeerConnectionState) :
    Writes (.setConnectionState participantId state) (·.setConnectionState participantId state)
  | addMessage (message : MessageView) : Writes (.addMessage message) (·.addMessage message)
  | setMessages (messages : List MessageView) :
    Writes (.setMessages messages) (·.setMessages messages)
  | setMuted (isMuted : Bool) : Writes (.setMuted isMuted) (·.setMuted isMuted)
  | setVideoOn (isVideoOn : Bool) : Writes (.setVideoOn isVideoOn) (·.setVideoOn isVideoOn)
  | reset : Writes .reset MeetingStore.reset

section

variable {s : RoomStore} {t : MeetingStore} {a : StoreAction} {f : MeetingStore → MeetingStore}

theorem agrees_initial : Agrees {} .initial := ⟨.empty, rfl, rfl⟩

/-- A new `Map` with these rows. -/
theorem agrees_withMap (rows : Keyed ParticipantView.id) (state : RoomState) :
    Agrees (s.withMap (entriesOf rows) state) (state.withRows rows) :=
  ⟨rows, RoomStore.participants_withMap .., rfl⟩

theorem Agrees.apply (h : Agrees s t) (hw : Writes a f) : Agrees (s.apply a) (f t) := by
  obtain ⟨rows, hrows, rfl⟩ := h
  cases hw with
  | setRoomState meeting self participants =>
    have hmap : RoomStore.mapOf participants = entriesOf (participants.foldl Keyed.set .empty) :=
      @entriesOf_foldl_set .empty participants
    simp only [RoomStore.apply, RoomStore.setRoomState, hmap, keys_entriesOf]
    exact agrees_withMap _ _
  | upsertParticipant participant =>
    simp only [RoomStore.apply, RoomStore.upsertParticipant, hrows, entriesOf_set]
    exact agrees_withMap _ _
  | removeParticipant participantId =>
    simp only [RoomStore.apply, RoomStore.removeParticipant, hrows, entriesOf_erase]
    exact agrees_withMap _ _
  | patchParticipant participantId changes =>
    simp only [RoomStore.apply, RoomStore.patchParticipant, hrows, find?_entriesOf]
    cases hfound : rows.find? participantId with
    | none =>
      have hunknown : participantId ∉ rows.keys := Keyed.find?_eq_none.mp hfound
      exact ⟨rows, hrows, if_neg hunknown⟩
    | some p =>
      obtain ⟨hp, rfl⟩ := Keyed.find?_eq_some.mp hfound
      have hknown : p.id ∈ (s.state.withRows rows).participants.keys := Keyed.key_mem_keys hp
      simp only [Option.map_some, assign_ofMedia, entriesOf_patch hp, MeetingStore.patchParticipant,
        if_pos hknown]
      exact agrees_withMap _ _
  | addMessage message =>
    have hmessages : (s.state.withRows rows).messages = s.state.messages := rfl
    simp only [RoomStore.apply, RoomStore.setState, MeetingStore.addMessage, hmessages]
    split_ifs <;> exact ⟨rows, hrows, rfl⟩
  | reset => exact agrees_withMap .empty {}
  | _ => exact ⟨rows, hrows, rfl⟩

/-- The stores agree after any actions. -/
theorem Agrees.run (h : Agrees s t) (steps : List (StoreAction × (MeetingStore → MeetingStore)))
    (hsteps : ∀ w ∈ steps, Writes w.1 w.2) :
    Agrees (steps.foldl (fun s w => s.apply w.1) s) (steps.foldl (fun t w => w.2 t) t) := by
  induction steps generalizing s t with
  | nil => exact h
  | cons w steps ih =>
    rw [List.forall_mem_cons] at hsteps
    exact ih (h.apply hsteps.1) hsteps.2

end

end ZoomClone
