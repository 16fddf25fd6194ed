/-
The room orchestrator of the browser (`MeetingRoom.tsx`).

It owns the local stream, the `PeerManager` and the `SignalingClient`, and turns
frames into store updates.  What a handler does outside its own state (a frame
to send, a toast, a page change) is returned as a list of `Effect`s.

The store shares the local stream object with `localStreamRef`; the object's
tracks are kept here, once.
-/
import ZoomClone.MeetingStore
import ZoomClone.PeerManager
import ZoomClone.SignalingClient

namespace ZoomClone

inductive Phase where
  | prejoin
  | joining
  | live
  | left
  | error
  deriving DecidableEq, Repr

/-- A track is muted by `enabled`, never removed. -/
structure Track where
  enabled : Bool
  deriving DecidableEq, Repr

structure MediaStream where
  audioTracks : List Track := []
  videoTracks : List Track := []
  deriving DecidableEq

/-- What `join` remembers of the stream it was given. -/
structure InitialMedia where
  isMuted : Bool := false
  isVideoOn : Bool := true
  deriving DecidableEq

/-- A frame for the server. -/
structure OutboundFrame where
  type : String
  recipient : Option ParticipantId := none
  payload : JsonObj := []

/-- What `write` puts on the socket. -/
def OutboundFrame.json (f : OutboundFrame) : Json :=
  .obj [("type", .str f.type), ("to", (f.recipient.map Json.str).getD .null),
    ("payload", .obj f.payload)]

inductive Effect where
  | send (frame : OutboundFrame)
  | toast (text : String)
  | navigate (path : String)

structure MeetingRoom where
  meetingNumber : String
  /-- The `pwd` of an invite link. -/
  inviteToken : Option String := none
  phase : Phase := .prejoin
  fatal : Option String := none
  store : MeetingStore := .initial
  signaling : Option SignalingClient := none
  peers : Option PeerManager := none
  localStream : Option MediaStream := none
  initialMedia : InitialMedia := {}
  selfId : Option ParticipantId := none
  deriving DecidableEq

namespace MeetingRoom

/-- A room that was just opened. -/
def mount (meetingNumber : String) (inviteToken : Option String) : MeetingRoom :=
  { meetingNumber, inviteToken }

/-! ### Media -/

/-- Every track with the given flag. -/
def setEnabled (tracks : List Track) (enabled : Bool) : List Track :=
  tracks.map fun _ => ⟨enabled⟩

/-- Mute or unmute the microphone itself. -/
def applyAudioEnabled (stream : Option MediaStream) (enabled : Bool) : Option MediaStream :=
  stream.map fun s => { s with audioTracks := setEnabled s.audioTracks enabled }

def applyVideoEnabled (stream : Option MediaStream) (enabled : Bool) : Option MediaStream :=
  stream.map fun s => { s with videoTracks := setEnabled s.videoTracks enabled }

/-- The audio tracks of a stream, if there is one. -/
def audioTracksOf (stream : Option MediaStream) : List Track :=
  (stream.map MediaStream.audioTracks).getD []

/-- What is muted and shown when a stream is brought into the room. -/
def initialMediaOf (stream : Option MediaStream) : InitialMedia where
  isMuted := (audioTracksOf stream).all fun track => !track.enabled
  isVideoOn := ((stream.map MediaStream.videoTracks).getD []).any Track.enabled

/-- Some audio track of the local stream is enabled. -/
def micLive (room : MeetingRoom) : Bool := (audioTracksOf room.localStream).any Track.enabled

/-! ### Leaving -/

/-- Tear everything down. -/
def teardown (room : MeetingRoom) : MeetingRoom :=
  { room with
    signaling := none
    peers := none
    localStream := none
    store := room.store.reset }

def leave (room : MeetingRoom) : MeetingRoom × List Effect :=
  ({ room.teardown with phase := .left }, [.navigate "/home"])

/-! ### Frames -/

/-- The three flags a `state.update` may carry. -/
def stateUpdate (isMuted isVideoOn : Option Bool) : OutboundFrame where
  type := "state.update"
  payload := (isMuted.map fun b => ("is_muted", Json.bool b)).toList ++
    (isVideoOn.map fun b => ("is_video_on", Json.bool b)).toList

/-- A frame through the signaling client, if there is one. -/
def sends (room : MeetingRoom) (frame : OutboundFrame) : List Effect :=
  if room.signaling.isSome then [.send frame] else []

/-- A snapshot: the store takes it over, then the media flags of the join are
put back and reported, and every other row is a peer to connect to. -/
def onRoomState (room : MeetingRoom) (snapshot : RoomSnapshot) : MeetingRoom × List Effect :=
  let initial := room.initialMedia
  let store :=
    ((room.store.setRoomState snapshot.meeting snapshot.you snapshot.participants).setMuted
      initial.isMuted).setVideoOn initial.isVideoOn
  -- Of the two sides the newcomer never initiates.
  let others := snapshot.participants.filter fun peer => peer.id ≠ snapshot.you.id
  ({ room with
      -- The row of the snapshot gives way to what was remembered at the join.
      store := store.patchParticipant snapshot.you.id
        { isMuted := some initial.isMuted, isVideoOn := some initial.isVideoOn }
      selfId := some snapshot.you.id
      peers := room.peers.map fun peers =>
        others.foldl (fun peers peer => peers.addPeer peer.id false) peers
      phase := .live },
    room.sends (stateUpdate (some initial.isMuted) (some initial.isVideoOn)))

/-- Frame dispatch. -/
def handleFrame (room : MeetingRoom) (frame : Frame) : MeetingRoom × List Effect :=
  match frame.body with
  | .roomState snapshot => room.onRoomState snapshot
  | .peerJoined participant =>
    -- We were already here, so we are the initiator.
    ({ room with
        store := room.store.upsertParticipant participant
        peers := room.peers.map (·.addPeer participant.id true) }, [])
  | .peerLeft participantId =>
    -- The connection goes with the row.
    ({ room with
        store := room.store.removeParticipant participantId
        peers := room.peers.map (·.removePeer participantId) }, [])
  | .peerUpdated participantId isMuted isVideoOn isHandRaised =>
    ({ room with
        store := room.store.patchParticipant participantId
          { isMuted := some isMuted, isVideoOn := some isVideoOn
            isHandRaised := some isHandRaised } }, [])
  | .signal _ _ =>
    -- The server stamps its sender on every frame it relays.
    match frame.sender with
    | none => (room, [])
    | some sender => ({ room with peers := room.peers.map (·.handleSignal sender) }, [])
  | .chatMessage message => ({ room with store := room.store.addMessage message }, [])
  | .hostMutedYou _ =>
    -- The flag of the row is cosmetic: only this client can stop the microphone.
    ({ room with
        localStream := applyAudioEnabled room.localStream false
        store := room.store.setMuted true }, [.toast "You have been muted by the host."])
  | .hostRemovedYou _ =>
    -- Leaving closes the socket that brought the frame.
    let (room, effects) := room.leave
    (room, .toast "You were removed from the meeting." :: effects)
  | .meetingEnded _ =>
    let (room, effects) := room.leave
    (room, .toast "This meeting has ended." :: effects)
  | .error _ message _ => (room, [.toast message])
  | .pong => (room, [])

/-- A frame leaves the signaling client alone, or closes it. -/
theorem handleFrame_signaling (room : MeetingRoom) (f : Frame) :
    (room.handleFrame f).1.signaling = room.signaling ∨
      (room.handleFrame f).1.signaling = none := by
  -- being removed and the end of the meeting tear the room down, nothing else does
  rw [handleFrame]
  cases f.body with
  | signal kind payload =>
    cases f.sender with
    | none => exact .inl rfl
    | some sender => exact .inl rfl
  | hostRemovedYou sentBy => exact .inr rfl
  | meetingEnded sentBy => exact .inr rfl
  | _ => exact .inl rfl

/-- A frame never takes a room back to the gate. -/
theorem handleFrame_phase {room : MeetingRoom} (h : room.phase ≠ .prejoin) (f : Frame) :
    (room.handleFrame f).1.phase ≠ .prejoin := by
  -- a snapshot makes the room live, and leaving makes it left
  rw [handleFrame]
  cases f.body with
  | roomState snapshot => exact nofun
  | signal kind payload =>
    cases f.sender with
    | none => exact h
    | some sender => exact h
  | hostRemovedYou sentBy => exact nofun
  | meetingEnded sentBy => exact nofun
  | _ => exact h

/-! ### Joining -/

/-- `join` up to its await: what it remembers, and the body it posts to
`/join`. -/
def join (room : MeetingRoom) (stream : Option MediaStream) : MeetingRoom × JoinRequest :=
  let initial := initialMediaOf stream
  ({ room with
      phase := .joining
      -- Kept for the whole mount: each later snapshot brings these flags back.
      localStream := stream
      initialMedia := initial
      store := (room.store.setMuted initial.isMuted).setVideoOn initial.isVideoOn },
    { inviteToken := given room.inviteToken })

/-- The rest of `join`: a fresh mesh, and the socket of the session that the
response names. -/
def joined (room : MeetingRoom) (response : JoinResponse) (c : ConnectionId) : MeetingRoom :=
  let client : SignalingClient := { url := ⟨room.meetingNumber, response.sessionId⟩ }
  { room with peers := some {}, signaling := some (client.connect c) }

/-- The rest of `join` when the request fails. -/
def joinFailed (room : MeetingRoom) (message : String) : MeetingRoom :=
  { room with fatal := some message, phase := .error }

/-! ### Controls -/

def toggleMute (room : MeetingRoom) : MeetingRoom × List Effect :=
  let next := !room.store.isMuted
  ({ room with
      localStream := applyAudioEnabled room.localStream (!next)
      store := room.store.setMuted next },
    room.sends (stateUpdate (some next) none))

def toggleVideo (room : MeetingRoom) : MeetingRoom × List Effect :=
  let next := !room.store.isVideoOn
  let store := room.store.setVideoOn next
  ({ room with
      localStream := applyVideoEnabled room.localStream next
      store := match room.selfId with
        | none => store
        | some selfId => store.patchParticipant selfId { isVideoOn := some next } },
    room.sends (stateUpdate none (some next)))

end MeetingRoom

end ZoomClone
