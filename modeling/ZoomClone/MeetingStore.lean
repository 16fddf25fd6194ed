/-
The meeting-room store of the browser (`meetingStore.ts`).

Its maps are JavaScript `Map`s, so they keep insertion order and overwrite in
place.  A remote stream and a connection state carry the id of the peer they
belong to.  The local stream is held by `MeetingRoom`, which shares the object
with the store.
-/
import ZoomClone.SignalingService

namespace ZoomClone

/-- Which side drawer is open. -/
inductive MeetingPanel where
  | none
  | participants
  | chat
  deriving DecidableEq, Repr

/-- `RTCPeerConnectionState`. -/
inductive PeerConnectionState where
  | new
  | connecting
  | connected
  | disconnected
  | failed
  | closed
  deriving DecidableEq, Repr

/-- The stream of a peer; the browser's object is named by its id. -/
structure RemoteStream where
  participantId : ParticipantId
  streamId : String
  deriving DecidableEq

structure ConnectionState where
  participantId : ParticipantId
  state : PeerConnectionState
  deriving DecidableEq

structure MeetingStore where
  meeting : Option MeetingView := none
  self : Option ParticipantView := none
  participants : Keyed ParticipantView.id := .empty
  remoteStreams : Keyed RemoteStream.participantId := .empty
  connectionStates : Keyed ConnectionState.participantId := .empty
  messages : List MessageView := []
  activeSpeakerId : Option ParticipantId := none
  panel : MeetingPanel := .none
  isMuted : Bool := false
  isVideoOn : Bool := true
  isScreenSharing : Bool := false
  deriving DecidableEq

/-- `{ ...participant, ...patch }`. -/
def ParticipantView.patch (p : ParticipantView) (changes : MediaPatch) : ParticipantView :=
  { p with
    isMuted := changes.isMuted.getD p.isMuted
    isVideoOn := changes.isVideoOn.getD p.isVideoOn
    isHandRaised := changes.isHandRaised.getD p.isHandRaised }

@[simp] theorem ParticipantView.patch_id (p : ParticipantView) (changes : MediaPatch) :
    (p.patch changes).id = p.id := rfl

namespace MeetingStore

/-- The store before a meeting. -/
def initial : MeetingStore := {}

/-- Apply a `room.state` snapshot: streams and connection states of peers that
are not in it are dropped, and the flags are those of the own row. -/
def setRoomState (s : MeetingStore) (meeting : MeetingView) (self : ParticipantView)
    (participants : List ParticipantView) : MeetingStore :=
  let next : Keyed ParticipantView.id := participants.foldl Keyed.set .empty
  { s with
    meeting := some meeting
    self := some self
    participants := next
    remoteStreams := s.remoteStreams.filter fun r => r.participantId ∈ next.keys
    connectionStates := s.connectionStates.filter fun c => c.participantId ∈ next.keys
    isMuted := self.isMuted
    isVideoOn := self.isVideoOn }

def upsertParticipant (s : MeetingStore) (participant : ParticipantView) : MeetingStore :=
  { s with participants := s.participants.set participant }

def removeParticipant (s : MeetingStore) (participantId : ParticipantId) : MeetingStore :=
  { s with
    participants := s.participants.erase participantId
    remoteStreams := s.remoteStreams.erase participantId
    connectionStates := s.connectionStates.erase participantId
    activeSpeakerId := s.activeSpeakerId.filter fun id => id ≠ participantId }

/-- Nothing happens for a participant the store does not hold; the own row stays
in step. -/
def patchParticipant (s : MeetingStore) (participantId : ParticipantId) (changes : MediaPatch) :
    MeetingStore :=
  if participantId ∈ s.participants.keys then
    { s with
      participants := s.participants.modify participantId (·.patch changes)
        (ParticipantView.patch_id · changes)
      self := s.self.map fun self => if self.id = participantId then self.patch changes else self }
  else s

def setRemoteStream (s : MeetingStore) (participantId : ParticipantId) (streamId : String) :
    MeetingStore :=
  { s with remoteStreams := s.remoteStreams.set ⟨participantId, streamId⟩ }

def setConnectionState (s : MeetingStore) (participantId : ParticipantId)
    (state : PeerConnectionState) : MeetingStore :=
  { s with connectionStates := s.connectionStates.set ⟨participantId, state⟩ }

/-- The sender receives its own broadcast, so a known id is not added again. -/
def addMessage (s : MeetingStore) (message : MessageView) : MeetingStore :=
  if s.messages.any fun m => m.id = message.id then s
  else { s with messages := s.messages ++ [message] }

def setMessages (s : MeetingStore) (messages : List MessageView) : MeetingStore :=
  { s with messages }

def setMuted (s : MeetingStore) (isMuted : Bool) : MeetingStore := { s with isMuted }

def setVideoOn (s : MeetingStore) (isVideoOn : Bool) : MeetingStore := { s with isVideoOn }

/-- The store after a meeting. -/
def reset (_ : MeetingStore) : MeetingStore := initial

/-! ### The mute flag

Only `setRoomState`, `setMuted` and `reset` write it. -/

section Muted

variable (s : MeetingStore)

@[simp] theorem isMuted_setMuted (b : Bool) : (s.setMuted b).isMuted = b := rfl

@[simp] theorem isMuted_setVideoOn (b : Bool) : (s.setVideoOn b).isMuted = s.isMuted := rfl

@[simp] theorem isMuted_upsertParticipant (p : ParticipantView) :
    (s.upsertParticipant p).isMuted = s.isMuted := rfl

@[simp] theorem isMuted_removeParticipant (id : ParticipantId) :
    (s.removeParticipant id).isMuted = s.isMuted := rfl

@[simp] theorem isMuted_patchParticipant (id : ParticipantId) (changes : MediaPatch) :
    (s.patchParticipant id changes).isMuted = s.isMuted := by
  rw [patchParticipant]
  split
  · rfl
  · rfl

@[simp] theorem isMuted_addMessage (m : MessageView) : (s.addMessage m).isMuted = s.isMuted := by
  rw [addMessage]
  split
  · rfl
  · rfl

end Muted

end MeetingStore

end ZoomClone
