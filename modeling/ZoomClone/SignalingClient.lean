/-
The socket side of `SignalingClient.ts`: which socket the client holds, and when
it opens the next one.

A browser socket is named by the connection id that the server will know it by.
The server names a socket when it accepts it, so the name is an argument of the
functions that open one.  The outbound queue and the heartbeat are not part of
this module.
-/
import ZoomClone.Protocol

namespace ZoomClone

/-- Milliseconds before each retry; the last one is the cap. -/
def reconnectDelaysMs : List ℕ := [1000, 2000, 4000, 8000, 16000, 30000]

inductive SignalingStatus where
  | connecting
  | open
  | reconnecting
  | closed
  deriving DecidableEq, Repr

/-- `WebSocket.readyState`. -/
inductive ReadyState where
  | connecting
  | open
  | closed
  deriving DecidableEq, Repr

/-- A browser socket. -/
structure BrowserSocket where
  connectionId : ConnectionId
  readyState : ReadyState := .connecting
  deriving DecidableEq

/-- `signalingUrl(meetingNumber, sessionId)`. -/
structure SignalingUrl where
  meetingNumber : String
  sessionId : SessionId
  deriving DecidableEq

structure SignalingClient where
  url : SignalingUrl
  socket : Option BrowserSocket := none
  attempt : ℕ := 0
  /-- The delay the pending retry was armed with. -/
  reconnectTimer : Option ℕ := none
  closedByCaller : Bool := false
  status : SignalingStatus := .closed
  deriving DecidableEq

namespace SignalingClient

def openSocket (s : SignalingClient) (c : ConnectionId) : SignalingClient :=
  { s with
    status := if s.attempt = 0 then .connecting else .reconnecting
    socket := some { connectionId := c } }

def connect (s : SignalingClient) (c : ConnectionId) : SignalingClient :=
  { s with closedByCaller := false }.openSocket c

/-- The handshake of the current socket completed. -/
def onOpen (s : SignalingClient) : SignalingClient :=
  { s with
    socket := s.socket.map fun socket => { socket with readyState := .open }
    attempt := 0
    status := .open }

/-- A retry that is pending already is not armed again. -/
def scheduleReconnect (s : SignalingClient) : SignalingClient :=
  if s.reconnectTimer.isSome then s
  else
    { s with
      reconnectTimer := reconnectDelaysMs[min s.attempt (reconnectDelaysMs.length - 1)]?
      attempt := s.attempt + 1
      status := .reconnecting }

/-- What the browser does to a socket that closed, on either side. -/
def markClosed (s : SignalingClient) : SignalingClient :=
  { s with socket := s.socket.map fun socket => { socket with readyState := .closed } }

/-- The current socket closed. -/
def onClose (s : SignalingClient) : SignalingClient :=
  if s.closedByCaller then s.markClosed else s.markClosed.scheduleReconnect

/-- The retry timer fired. -/
def onTimer (s : SignalingClient) (c : ConnectionId) : SignalingClient :=
  { s with reconnectTimer := none }.openSocket c

def close (s : SignalingClient) : SignalingClient :=
  { s with
    closedByCaller := true
    reconnectTimer := none
    attempt := 0
    socket := none
    status := .closed }

/-- The connection of the current socket, while it is not closed. -/
def live (s : SignalingClient) : Option ConnectionId :=
  (s.socket.filter fun socket => socket.readyState ≠ .closed).map BrowserSocket.connectionId

@[simp] theorem live_connect (s : SignalingClient) (c : ConnectionId) :
    (s.connect c).live = some c := rfl

@[simp] theorem live_onTimer (s : SignalingClient) (c : ConnectionId) :
    (s.onTimer c).live = some c := rfl

@[simp] theorem live_scheduleReconnect (s : SignalingClient) :
    s.scheduleReconnect.live = s.live := by
  rw [scheduleReconnect]
  split
  · rfl
  · rfl

@[simp] theorem live_markClosed (s : SignalingClient) : s.markClosed.live = none := by
  rw [live, markClosed]
  cases s.socket with
  | none => rfl
  | some socket => rfl

@[simp] theorem live_onClose (s : SignalingClient) : s.onClose.live = none := by
  rw [onClose]
  split
  · exact s.live_markClosed
  · rw [live_scheduleReconnect, live_markClosed]

@[simp] theorem url_onClose (s : SignalingClient) : s.onClose.url = s.url := by
  rw [onClose, scheduleReconnect]
  split
  · rfl
  · split
    · rfl
    · rfl

theorem live_onOpen {s : SignalingClient} {c : ConnectionId} (h : s.live = some c) :
    s.onOpen.live = some c := by
  obtain ⟨socket, hsocket, hc⟩ := Option.map_eq_some_iff.mp h
  rw [Option.filter_eq_some_iff] at hsocket
  rw [live, onOpen, hsocket.1, ← hc]
  rfl

end SignalingClient

end ZoomClone
