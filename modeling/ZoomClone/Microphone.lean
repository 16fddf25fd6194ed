/-
The mute indicator and the microphone.

`store.isMuted` is what the control bar shows; the audio tracks of the local
stream are what the others hear.  `Truthful` says that the indicator never shows
"muted" over a live microphone.  Every handler keeps it but one: a `room.state`
puts back the mute flag of the join, and the tracks stay as they are.

`always_truthful_iff` is exact: a session stays truthful as long as no snapshot
arrives after the user, having joined muted, has unmuted.
-/
import ZoomClone.MeetingRoom
import ZoomClone.Runs

namespace ZoomClone

/-! ### One session of a room -/

/-- What happens in a room after `join` was called. -/
inductive RoomEvent where
  | joined (response : JoinResponse) (connectionId : ConnectionId)
  | joinFailed (message : String)
  | frame (f : Frame)
  | remoteStream (participantId : ParticipantId) (streamId : String)
  | connectionState (participantId : ParticipantId) (state : PeerConnectionState)
  | history (messages : List MessageView)
  | toggleMute
  | toggleVideo
  | leave

namespace MeetingRoom

/-- One event.  Frames come from a signaling client, and the controls are shown
while the room is live. -/
def next (room : MeetingRoom) : RoomEvent → MeetingRoom
  | .joined response c => room.joined response c
  | .joinFailed message => room.joinFailed message
  | .frame f => if room.signaling.isSome then (room.handleFrame f).1 else room
  | .remoteStream p streamId => { room with store := room.store.setRemoteStream p streamId }
  | .connectionState p state => { room with store := room.store.setConnectionState p state }
  | .history messages => { room with store := room.store.setMessages messages }
  | .toggleMute => if room.phase = .live then room.toggleMute.1 else room
  | .toggleVideo => if room.phase = .live then room.toggleVideo.1 else room
  | .leave => if room.phase = .live then room.leave.1 else room

/-! ### The indicator -/

/-- "Muted" is never shown over a live microphone. -/
def Truthful (room : MeetingRoom) : Prop := room.store.isMuted = true → room.micLive = false

instance (room : MeetingRoom) : Decidable room.Truthful :=
  inferInstanceAs (Decidable (_ → _))

/-- A snapshot finds the user, who joined muted, with a live microphone. -/
def Unmuted (room : MeetingRoom) : Prop := room.initialMedia.isMuted = true ∧ room.micLive = true

instance (room : MeetingRoom) : Decidable room.Unmuted :=
  inferInstanceAs (Decidable (_ ∧ _))

/-- The event is no snapshot, or one that finds no such user. -/
def Restores (room : MeetingRoom) : RoomEvent → Prop
  | .frame ⟨.roomState _, _, _⟩ => room.signaling.isSome → ¬ room.Unmuted
  | _ => True

variable {room room' : MeetingRoom}

/-- The indicator and the tracks are all that matters. -/
theorem truthful_congr (hmuted : room'.store.isMuted = room.store.isMuted)
    (htracks : audioTracksOf room'.localStream = audioTracksOf room.localStream) :
    room'.Truthful ↔ room.Truthful := by
  rw [Truthful, Truthful, micLive, micLive, hmuted, htracks]

theorem Truthful.congr (h : room.Truthful) (hmuted : room'.store.isMuted = room.store.isMuted)
    (htracks : audioTracksOf room'.localStream = audioTracksOf room.localStream) :
    room'.Truthful :=
  (truthful_congr hmuted htracks).mpr h

theorem Truthful.of_not_muted (h : room.store.isMuted = false) : room.Truthful := by
  intro hmuted
  rw [h] at hmuted
  cases hmuted

/-- No track of a stream that was switched off is enabled. -/
theorem audioTracksOf_applyAudioEnabled (stream : Option MediaStream) (enabled : Bool) :
    ∀ track ∈ audioTracksOf (applyAudioEnabled stream enabled), track.enabled = enabled := by
  intro track htrack
  cases stream with
  | none => exact absurd htrack List.not_mem_nil
  | some s =>
    obtain ⟨-, -, rfl⟩ := List.mem_map.mp htrack
    rfl

theorem audioTracksOf_applyVideoEnabled (stream : Option MediaStream) (enabled : Bool) :
    audioTracksOf (applyVideoEnabled stream enabled) = audioTracksOf stream := by
  cases stream with
  | none => rfl
  | some s => rfl

theorem Truthful.of_switched_off {stream : Option MediaStream}
    (h : room.localStream = applyAudioEnabled stream false) : room.Truthful := by
  intro _
  rw [micLive, h, List.any_eq_false]
  intro track htrack
  rw [audioTracksOf_applyAudioEnabled stream false track htrack]
  exact Bool.false_ne_true

/-! ### What each event does to it -/

theorem truthful_toggleMute : room.toggleMute.1.Truthful := by
  cases hmuted : room.store.isMuted with
  | true => exact .of_not_muted (by simp [toggleMute, hmuted])
  | false => exact .of_switched_off (by simp [toggleMute, hmuted]; rfl)

theorem truthful_toggleVideo : room.toggleVideo.1.Truthful ↔ room.Truthful := by
  refine truthful_congr ?_ (audioTracksOf_applyVideoEnabled _ _)
  rw [toggleVideo]
  cases room.selfId with
  | none => rfl
  | some selfId => simp

theorem truthful_leave : room.leave.1.Truthful := .of_not_muted rfl

/-- A snapshot shows the flag of the join, over the tracks as they are. -/
theorem truthful_onRoomState {snapshot : RoomSnapshot} :
    (room.onRoomState snapshot).1.Truthful ↔ ¬ room.Unmuted := by
  have hmuted : (room.onRoomState snapshot).1.store.isMuted = room.initialMedia.isMuted := by
    simp [onRoomState]
  have hmic : (room.onRoomState snapshot).1.micLive = room.micLive := rfl
  rw [Truthful, Unmuted, hmuted, hmic, not_and, Bool.not_eq_true]

theorem truthful_handleFrame (h : room.Truthful) (f : Frame) :
    (room.handleFrame f).1.Truthful ↔
      match f.body with
      | .roomState _ => ¬ room.Unmuted
      | _ => True := by
  rw [handleFrame]
  cases f.body with
  | roomState snapshot => exact truthful_onRoomState
  | peerJoined participant => exact iff_true_intro h
  | peerLeft participantId => exact iff_true_intro h
  | peerUpdated participantId isMuted isVideoOn isHandRaised =>
    exact iff_true_intro (h.congr (MeetingStore.isMuted_patchParticipant ..) rfl)
  | signal kind payload =>
    cases f.sender with
    | none => exact iff_true_intro h
    | some sender => exact iff_true_intro h
  | chatMessage message =>
    exact iff_true_intro (h.congr (MeetingStore.isMuted_addMessage ..) rfl)
  | hostMutedYou sentBy => exact iff_true_intro (.of_switched_off rfl)
  | hostRemovedYou sentBy => exact iff_true_intro truthful_leave
  | meetingEnded sentBy => exact iff_true_intro truthful_leave
  | error code message details => exact iff_true_intro h
  | pong => exact iff_true_intro h

/-- **One event.**  A truthful room stays truthful exactly when the event is no
snapshot that finds an unmuted user. -/
theorem truthful_next (h : room.Truthful) (e : RoomEvent) :
    (room.next e).Truthful ↔ room.Restores e := by
  cases e with
  | frame f =>
    obtain ⟨body, sender, recipient⟩ := f
    rw [next]
    by_cases hclient : room.signaling.isSome
    · rw [if_pos hclient, truthful_handleFrame h]
      cases body <;> simp [Restores, hclient]
    · rw [if_neg hclient]
      refine iff_of_true h ?_
      cases body <;> simp [Restores, hclient]
  | toggleMute =>
    refine iff_of_true ?_ trivial
    rw [next]
    split
    · exact truthful_toggleMute
    · exact h
  | toggleVideo =>
    refine iff_of_true ?_ trivial
    rw [next]
    split
    · exact truthful_toggleVideo.mpr h
    · exact h
  | leave =>
    refine iff_of_true ?_ trivial
    rw [next]
    split
    · exact truthful_leave
    · exact h
  | joined response c => exact iff_of_true h trivial
  | joinFailed message => exact iff_of_true h trivial
  | remoteStream p streamId => exact iff_of_true h trivial
  | connectionState p state => exact iff_of_true h trivial
  | history messages => exact iff_of_true h trivial

/-- Joining takes the indicator from the stream. -/
theorem truthful_join (stream : Option MediaStream) : (room.join stream).1.Truthful := by
  intro hmuted
  have hall : (audioTracksOf stream).all fun track => !track.enabled := hmuted
  show (audioTracksOf stream).any Track.enabled = false
  rw [List.any_eq_false]
  intro track htrack
  simpa using List.all_eq_true.mp hall track htrack

end MeetingRoom

/-- **The indicator over whole sessions.**  A session that starts with a join
stays truthful throughout exactly when no snapshot arrives while the user, who
joined muted, has a live microphone. -/
theorem always_truthful_iff (meetingNumber : String) (inviteToken : Option String)
    (stream : Option MediaStream) (events : List RoomEvent) :
    Runs.Always MeetingRoom.next MeetingRoom.Truthful
        ((MeetingRoom.mount meetingNumber inviteToken).join stream).1 events ↔
      Runs.Guarded MeetingRoom.next MeetingRoom.Restores
        ((MeetingRoom.mount meetingNumber inviteToken).join stream).1 events :=
  Runs.always_iff_guarded (I := fun _ => True) trivial (MeetingRoom.truthful_join stream)
    (fun _ _ _ => trivial) (fun _ e _ h => MeetingRoom.truthful_next h e) events

/-! ### A reconnect after unmuting -/

/-- A guest's own row. -/
def bob : ParticipantView :=
  { id := "p", meetingId := "m", userId := some "guest", displayName := "Bob", role := .participant
    isMuted := false, isVideoOn := true, isHandRaised := false, joinedAt := 20, leftAt := none }

/-- The meeting the guest is in. -/
def bobsMeeting : MeetingView :=
  { meeting := { id := "m", meetingNumber := "10000000003", hostId := "host", topic := "Standup"
                 passcode := "hRtz4K", inviteToken := "tok", status := .live, createdAt := 10 }
    meetingNumberDisplay := "100 0000 0003", host := none,
      isInstant := true, participantCount := 1 }

/-- The snapshot that the guest is sent on every connect. -/
def bobsRoom : Frame :=
  { body := .roomState { participants := [bob], you := bob, meeting := bobsMeeting }
    recipient := some "p" }

/-- **The bad order.**  A guest joins with a switched-off microphone, unmutes,
and is sent a second snapshot. -/
theorem reconnect_shows_muted :
    ¬ Runs.Always MeetingRoom.next MeetingRoom.Truthful
      ((MeetingRoom.mount "10000000003" none).join (some ⟨[⟨false⟩], []⟩)).1
      [.joined { sessionId := "s", participant := bob, meeting := bobsMeeting } "c",
       .frame bobsRoom, .toggleMute, .frame bobsRoom] := by
  decide

end ZoomClone
