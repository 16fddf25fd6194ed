/-
Wire format of the signaling socket (`protocol.py`): the frames the server
sends, the close codes, and how an inbound message is read.

A frame's `ts` stamp is left out, since nothing reads it.  A `Delivery` is one
thing put on one socket: a frame, or the close of the socket by the server.
-/
import ZoomClone.SignalingService
import ZoomClone.Registry

namespace ZoomClone

/-- The three relayed signal kinds. -/
inductive SignalKind where
  | offer
  | answer
  | ice
  deriving DecidableEq, Repr

/-! ### Server to client -/

/-- The type of a frame with its payload. -/
inductive FrameBody where
  | roomState (snapshot : RoomSnapshot)
  | peerJoined (participant : ParticipantView)
  | peerLeft (participantId : ParticipantId)
  | peerUpdated (participantId : ParticipantId) (isMuted isVideoOn isHandRaised : Bool)
  | signal (kind : SignalKind) (payload : JsonObj)
  | chatMessage (message : MessageView)
  | hostMutedYou (sentBy : ParticipantId)
  | hostRemovedYou (sentBy : ParticipantId)
  | meetingEnded (sentBy : ParticipantId)
  | error (code message : String) (details : JsonObj)
  | pong

/-- One envelope; without a `recipient` (`to`) it is a broadcast to the room. -/
structure Frame where
  body : FrameBody
  sender : Option ParticipantId := none
  recipient : Option ParticipantId := none

/-- `error_frame(code, message, **details)`. -/
def errorFrame (code message : String) (details : JsonObj := []) : Frame :=
  { body := .error code message details }

/-- The frame an expected failure is answered with. -/
def AppError.frame (e : AppError) : Frame := errorFrame e.code e.message e.details

def closeUnauthorized : ℕ := 4401
def closeMeetingFull : ℕ := 4403
def closeRemoved : ℕ := 4404
def closeMeetingEnded : ℕ := 4405

inductive WireItem where
  | frame (f : Frame)
  | close (code : ℕ)

/-- Something sent on one socket. -/
structure Delivery where
  connection : Connection
  item : WireItem

/-! ### Client to server -/

/-- The entries of the dispatch table. -/
inductive Handler where
  | ping
  | signal (kind : SignalKind)
  | stateUpdate
  | chatSend
  | hostMute
  | hostMuteAll
  | hostRemove
  | hostEnd
  deriving DecidableEq, Repr

/-- `_HANDLERS.get(type_)`. -/
def handlers : String → Option Handler
  | "ping" => some .ping
  | "signal.offer" => some (.signal .offer)
  | "signal.answer" => some (.signal .answer)
  | "signal.ice" => some (.signal .ice)
  | "state.update" => some .stateUpdate
  | "chat.send" => some .chatSend
  | "host.mute" => some .hostMute
  | "host.mute_all" => some .hostMuteAll
  | "host.remove" => some .hostRemove
  | "host.end" => some .hostEnd
  | _ => none

/-- A message that reached a handler, with its payload. -/
structure Inbound where
  handler : Handler
  message : JsonObj
  payload : JsonObj

/-- The frame a message that reaches no handler is answered with, or the
handler's input. -/
def readMessage : Json → Except Frame Inbound
  | .obj message =>
    let payload := match Json.get message "payload" with
      | .obj payload => payload
      | _ => []
    let unknown := errorFrame "UNKNOWN_FRAME"
      ("Unsupported frame type: " ++ (Json.get message "type").repr)
    match Json.get message "type" with
    | .str type =>
      match handlers type with
      | some handler => .ok ⟨handler, message, payload⟩
      | none => .error unknown
    | _ => .error unknown
  | _ => .error (errorFrame "BAD_FRAME" "A frame must be a JSON object.")

/-- A text value that is not empty. -/
def Json.text? : Json → Option String
  | .str s => if s = "" then none else some s
  | _ => none

/-- `message.get("to") or payload.get("to")`, when it names a participant. -/
def signalTarget (inbound : Inbound) : Option ParticipantId :=
  let named := Json.get inbound.message "to"
  (if named.truthy then named else Json.get inbound.payload "to").text?

/-- The `participant_id` a host frame names. -/
def hostTarget (inbound : Inbound) : Option ParticipantId :=
  (Json.get inbound.payload "participant_id").text?

end ZoomClone
