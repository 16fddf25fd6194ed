/-
All of `SignalingClient.ts`, over the sockets and the timers of the browser.

`SignalingClient` keeps only which socket is the current one.  Here every socket that
was ever made stays in sight, with its state and whether its handlers are still
attached, and so do the timers that are armed and the frames that are queued.  A call
from inside `onFrame` is the next event: nothing follows `onFrame` in its handler.

* `SocketClient.Sound` — the invariant: only the current socket is attached;
* `one_socket` — so there is one socket at a time, and nothing after `close()`.
-/
import ZoomClone.MeetingRoom
import ZoomClone.Runs

namespace ZoomClone

/-! ### The browser -/

inductive WebSocketState where
  | connecting
  | open
  | closing
  | closed
  deriving DecidableEq, Repr

/-- A socket the client made. -/
structure WebSocket where
  readyState : WebSocketState := .connecting
  /-- `onopen`, `onmessage`, `onerror` and `onclose` are set. -/
  handlers : Bool := true
  /-- The texts `send` took without throwing. -/
  accepted : List Json := []

/-- `socket.close()`. -/
def WebSocket.close (w : WebSocket) : WebSocket :=
  { w with readyState := if w.readyState = .closed then .closed else .closing }

def WebSocket.detach (w : WebSocket) : WebSocket :=
  { w with handlers := false }.close

/-- A timeout that is pending, or an interval that is running. -/
structure Timer where
  id : ℕ
  delay : ℕ

/-! ### The client -/

def heartbeatIntervalMs : ℕ := 25000

structure SocketClient where
  /-- The current socket, as its place in `sockets`. -/
  socket : Option ℕ := none
  queue : List OutboundFrame := []
  attempt : ℕ := 0
  reconnectTimer : Option ℕ := none
  heartbeatTimer : Option ℕ := none
  closedByCaller : Bool := false
  status : SignalingStatus := .closed
  /-- Every socket that was made, in order. -/
  sockets : List WebSocket := []
  timeouts : List Timer := []
  intervals : List Timer := []
  /-- The next timer id. -/
  timers : ℕ := 0
  /-- What `onFrame` was given. -/
  frames : List Json := []
  /-- What `send` was given. -/
  calls : List OutboundFrame := []

namespace SocketClient

/-- `this.socket?.readyState`. -/
def readyState (s : SocketClient) : Option WebSocketState :=
  s.socket.bind fun i => s.sockets[i]?.map WebSocket.readyState

def modifySocket (s : SocketClient) (i : ℕ) (f : WebSocket → WebSocket) : SocketClient :=
  { s with sockets := s.sockets.modify i f }

/-- `open`: the socket is made and its handlers are attached. -/
def openSocket (s : SocketClient) : SocketClient :=
  { s with
    status := if s.attempt = 0 then .connecting else .reconnecting
    sockets := s.sockets ++ [{}]
    socket := some s.sockets.length }

def connect (s : SocketClient) : SocketClient :=
  { s with closedByCaller := false }.openSocket

/-- `throws` says whether `socket.send` throws, if it is called. -/
def write (s : SocketClient) (frame : OutboundFrame) (throws : Bool) : SocketClient :=
  match s.socket with
  | none => s
  | some i =>
    if throws then { s with queue := s.queue ++ [frame] }
    else s.modifySocket i fun w => { w with accepted := w.accepted ++ [frame.json] }

def send (s : SocketClient) (frame : OutboundFrame) (throws : Bool) : SocketClient :=
  let s := { s with calls := s.calls ++ [frame] }
  if s.readyState = some .open then s.write frame throws
  else { s with queue := s.queue ++ [frame] }

def clearReconnect (s : SocketClient) : SocketClient :=
  match s.reconnectTimer with
  | none => { s with attempt := 0 }
  | some id =>
    { s with
      timeouts := s.timeouts.filter fun t => t.id ≠ id
      reconnectTimer := none
      attempt := 0 }

def stopHeartbeat (s : SocketClient) : SocketClient :=
  match s.heartbeatTimer with
  | none => s
  | some id =>
    { s with
      intervals := s.intervals.filter fun t => t.id ≠ id
      heartbeatTimer := none }

def startHeartbeat (s : SocketClient) : SocketClient :=
  let s := s.stopHeartbeat
  { s with
    heartbeatTimer := some s.timers
    intervals := s.intervals ++ [⟨s.timers, heartbeatIntervalMs⟩]
    timers := s.timers + 1 }

/-- The current socket loses its handlers, and is closed. -/
def detach (s : SocketClient) : SocketClient :=
  match s.socket with
  | none => s
  | some i => { s.modifySocket i WebSocket.detach with socket := none }

def close (s : SocketClient) : SocketClient :=
  { { s with closedByCaller := true }.clearReconnect.stopHeartbeat.detach with status := .closed }

def scheduleReconnect (s : SocketClient) : SocketClient :=
  if s.reconnectTimer.isSome then s
  else
    { s with
      attempt := s.attempt + 1
      status := .reconnecting
      reconnectTimer := some s.timers
      timeouts := s.timeouts ++
        [⟨s.timers, reconnectDelaysMs.getD (min s.attempt (reconnectDelaysMs.length - 1)) 0⟩]
      timers := s.timers + 1 }

/-- The writes of a flush; `throws` says which of them throw. -/
def writeAll (s : SocketClient) : List OutboundFrame → List Bool → SocketClient
  | [], _ => s
  | frame :: frames, throws => (s.write frame (throws.headD false)).writeAll frames throws.tail

def flush (s : SocketClient) (throws : List Bool) : SocketClient :=
  { s with queue := [] }.writeAll s.queue throws

/-! ### The handlers -/

def onOpen (s : SocketClient) (throws : List Bool) : SocketClient :=
  ({ s with attempt := 0, status := .open }.flush throws).startHeartbeat

/-- Data that is not JSON is ignored. -/
def onMessage (s : SocketClient) : Option Json → SocketClient
  | none => s
  | some frame => { s with frames := s.frames ++ [frame] }

def onClose (s : SocketClient) : SocketClient :=
  let s := s.stopHeartbeat
  if s.closedByCaller then s else s.scheduleReconnect

/-- The retry that was armed. -/
def onTimeout (s : SocketClient) (id : ℕ) : SocketClient :=
  { s with timeouts := s.timeouts.filter fun t => t.id ≠ id, reconnectTimer := none }.openSocket

def onInterval (s : SocketClient) (throws : Bool) : SocketClient :=
  if s.readyState = some .open then s.write { type := "ping" } throws else s

/-! ### Events -/

inductive Event where
  | connect
  | send (frame : OutboundFrame) (throws : Bool)
  | close
  | opened (i : ℕ) (throws : List Bool)
  /-- What `JSON.parse` makes of the data. -/
  | message (i : ℕ) (data : Option Json)
  /-- The other side starts the closing handshake. -/
  | closing (i : ℕ)
  | closed (i : ℕ)
  | timeout (id : ℕ)
  | interval (id : ℕ) (throws : Bool)

/-- One event.  A socket or a timer that cannot fire changes nothing. -/
def next (s : SocketClient) : Event → SocketClient
  | .connect => s.connect
  | .send frame throws => s.send frame throws
  | .close => s.close
  | .opened i throws =>
    match s.sockets[i]? with
    | none => s
    | some w =>
      if w.readyState = .connecting then
        let s := s.modifySocket i fun w => { w with readyState := .open }
        if w.handlers then s.onOpen throws else s
      else s
  | .message i data =>
    match s.sockets[i]? with
    | none => s
    | some w =>
      if w.readyState = .open ∧ w.handlers then s.onMessage data else s
  | .closing i =>
    match s.sockets[i]? with
    | none => s
    | some w =>
      if w.readyState = .open then
        s.modifySocket i fun w => { w with readyState := .closing } else s
  | .closed i =>
    match s.sockets[i]? with
    | none => s
    | some w =>
      if w.readyState = .closed then s
      else
        let s := s.modifySocket i fun w => { w with readyState := .closed }
        if w.handlers then s.onClose else s
  | .timeout id => if id ∈ s.timeouts.map Timer.id then s.onTimeout id else s
  | .interval id throws => if id ∈ s.intervals.map Timer.id then s.onInterval throws else s

/-- `connect()` is only called while the status is `closed`. -/
def ConnectsClosed (s : SocketClient) : Event → Prop
  | .connect => s.status = .closed
  | _ => True

/-- The socket is not closed and still has its handlers. -/
def Attached (s : SocketClient) (i : ℕ) : Prop :=
  ∃ w, s.sockets[i]? = some w ∧ w.handlers = true ∧ w.readyState ≠ .closed

/-- One socket at a time, and none while a retry is pending. -/
structure OneSocket (s : SocketClient) : Prop where
  one : ∀ i j, s.Attached i → s.Attached j → i = j
  retry : s.timeouts ≠ [] → ∀ i, ¬ s.Attached i

/-! ### The invariant -/

/-- Only the current socket is attached, and every timer is one that a field names. -/
structure Sound (s : SocketClient) : Prop where
  current : ∀ i, s.Attached i → s.socket = some i
  newest : ∀ i, s.socket = some i → i + 1 = s.sockets.length
  armed : s.timeouts.map Timer.id = s.reconnectTimer.toList
  waiting : s.reconnectTimer ≠ none → ∀ i, ¬ s.Attached i
  beating : s.intervals.map Timer.id = s.heartbeatTimer.toList
  idle : s.status = .closed → s.socket = none ∧ s.reconnectTimer = none ∧ s.heartbeatTimer = none

variable {s : SocketClient}

/-! ### What an event does -/

theorem next_opened (i : ℕ) (throws : List Bool) :
    s.next (.opened i throws) = s ∨ ∃ w, s.sockets[i]? = some w ∧ w.readyState = .connecting ∧
      s.next (.opened i throws) =
        if w.handlers then (s.modifySocket i fun w => { w with readyState := .open }).onOpen throws
        else s.modifySocket i fun w => { w with readyState := .open } := by
  dsimp only [next]
  split
  · exact .inl rfl
  · rename_i w hw
    split
    · rename_i hstate
      exact .inr ⟨w, hw, hstate, rfl⟩
    · exact .inl rfl

theorem next_message (i : ℕ) (data : Option Json) :
    s.next (.message i data) = s ∨ ∃ w frame, s.sockets[i]? = some w ∧
      w.readyState = .open ∧ w.handlers = true ∧
      s.next (.message i data) = { s with frames := s.frames ++ [frame] } := by
  dsimp only [next]
  split
  · exact .inl rfl
  · rename_i w hw
    split
    · rename_i hattached
      cases data with
      | none => exact .inl rfl
      | some frame => exact .inr ⟨w, frame, hw, hattached.1, hattached.2, rfl⟩
    · exact .inl rfl

theorem next_closing (i : ℕ) :
    s.next (.closing i) = s ∨ ∃ w, s.sockets[i]? = some w ∧ w.readyState = .open ∧
      s.next (.closing i) = s.modifySocket i fun w => { w with readyState := .closing } := by
  dsimp only [next]
  split
  · exact .inl rfl
  · rename_i w hw
    split
    · rename_i hstate
      exact .inr ⟨w, hw, hstate, rfl⟩
    · exact .inl rfl

theorem next_closed (i : ℕ) :
    s.next (.closed i) = s ∨ ∃ w, s.sockets[i]? = some w ∧ w.readyState ≠ .closed ∧
      s.next (.closed i) =
        if w.handlers then (s.modifySocket i fun w => { w with readyState := .closed }).onClose
        else s.modifySocket i fun w => { w with readyState := .closed } := by
  dsimp only [next]
  split
  · exact .inl rfl
  · rename_i w hw
    split
    · exact .inl rfl
    · rename_i hstate
      exact .inr ⟨w, hw, hstate, rfl⟩

/-- A timeout that fires is the retry that is armed. -/
theorem next_timeout (h : s.Sound) (id : ℕ) :
    s.next (.timeout id) = s ∨ s.reconnectTimer = some id ∧
      s.next (.timeout id) = s.onTimeout id := by
  dsimp only [next]
  split
  · rename_i hid
    rw [h.armed, Option.mem_toList] at hid
    exact .inr ⟨hid, rfl⟩
  · exact .inl rfl

/-- An interval that fires is the heartbeat. -/
theorem next_interval (h : s.Sound) (id : ℕ) (throws : Bool) :
    s.next (.interval id throws) = s ∨ s.heartbeatTimer = some id ∧ s.readyState = some .open ∧
      s.next (.interval id throws) = s.write { type := "ping" } throws := by
  dsimp only [next, onInterval]
  split
  · rename_i hid
    rw [h.beating, Option.mem_toList] at hid
    split
    · rename_i hopen
      exact .inr ⟨hid, hopen, rfl⟩
    · exact .inl rfl
  · exact .inl rfl

/-! ### The invariant is kept -/

theorem sound_empty : Sound {} where
  current := by
    rintro i ⟨w, hw, -⟩
    simp at hw
  newest := by
    intro i hi
    cases hi
  armed := rfl
  waiting := fun h => absurd rfl h
  beating := rfl
  idle := fun _ => ⟨rfl, rfl, rfl⟩

theorem Sound.oneSocket (h : s.Sound) : s.OneSocket where
  one := by
    intro i j hi hj
    exact Option.some.inj ((h.current i hi).symm.trans (h.current j hj))
  retry := by
    intro hne
    refine h.waiting fun hnone => hne ?_
    have harmed := h.armed
    rw [hnone] at harmed
    exact List.map_eq_nil_iff.mp harmed

/-- Nothing is attached while no socket is current. -/
theorem Sound.not_attached (h : s.Sound) (hsocket : s.socket = none) (i : ℕ) : ¬ s.Attached i := by
  intro hi
  have hcurrent := h.current i hi
  rw [hsocket] at hcurrent
  cases hcurrent

theorem attached_modifySocket {i j : ℕ} {f : WebSocket → WebSocket} :
    (s.modifySocket i f).Attached j ↔
      if i = j then ∃ w, s.sockets[i]? = some w ∧ (f w).handlers = true ∧ (f w).readyState ≠ .closed
      else s.Attached j := by
  simp only [Attached, modifySocket, List.getElem?_modify]
  by_cases hij : i = j
  · subst hij
    simp [Option.map_eq_some_iff]
  · simp [hij]

/-- A change of one socket that attaches nothing. -/
theorem Sound.modifySocket (h : s.Sound) (i : ℕ) {f : WebSocket → WebSocket}
    (hf : ∀ w, s.sockets[i]? = some w → (f w).handlers = true → (f w).readyState ≠ .closed →
      w.handlers = true ∧ w.readyState ≠ .closed) :
    (s.modifySocket i f).Sound := by
  have hsub : ∀ j, (s.modifySocket i f).Attached j → s.Attached j := by
    intro j hj
    rw [attached_modifySocket] at hj
    by_cases hij : i = j
    · subst hij
      rw [if_pos rfl] at hj
      obtain ⟨w, hw, hhandlers, hstate⟩ := hj
      exact ⟨w, hw, hf w hw hhandlers hstate⟩
    · rwa [if_neg hij] at hj
  constructor
  case current => exact fun j hj => h.current j (hsub j hj)
  case newest =>
    intro j hj
    show j + 1 = (s.sockets.modify i f).length
    rw [List.length_modify]
    exact h.newest j hj
  case armed => exact h.armed
  case waiting => exact fun hne j hj => h.waiting hne j (hsub j hj)
  case beating => exact h.beating
  case idle => exact h.idle

/-- The next socket, once nothing is attached and no retry is pending. -/
theorem Sound.openSocket (h : s.Sound) (hnone : ∀ i, ¬ s.Attached i)
    (hretry : s.reconnectTimer = none) :
    s.openSocket.Sound := by
  have hsub : ∀ i, s.openSocket.Attached i → i = s.sockets.length := by
    rintro i ⟨w, hw, hattached⟩
    by_contra hne
    refine hnone i ⟨w, ?_, hattached⟩
    have hw : (s.sockets ++ [({} : WebSocket)])[i]? = some w := hw
    have hlt : i < (s.sockets ++ [({} : WebSocket)]).length := (List.getElem?_eq_some_iff.mp hw).1
    rw [List.length_append, List.length_singleton] at hlt
    rwa [List.getElem?_append_left (by omega)] at hw
  constructor
  case current =>
    intro i hi
    rw [hsub i hi]
    rfl
  case newest =>
    intro i hi
    obtain rfl : s.sockets.length = i := Option.some.inj hi
    show s.sockets.length + 1 = (s.sockets ++ [({} : WebSocket)]).length
    simp
  case armed => exact h.armed
  case waiting => exact fun hne => absurd hretry hne
  case beating => exact h.beating
  case idle =>
    intro hclosed
    have hclosed : (if s.attempt = 0 then SignalingStatus.connecting else .reconnecting) =
      .closed := hclosed
    split at hclosed <;> cases hclosed

theorem Sound.write (h : s.Sound) (frame : OutboundFrame) (throws : Bool) :
    (s.write frame throws).Sound := by
  rw [SocketClient.write]
  split
  · exact h
  · split
    · exact ⟨h.current, h.newest, h.armed, h.waiting, h.beating, h.idle⟩
    · exact h.modifySocket _ fun w _ hhandlers hstate => ⟨hhandlers, hstate⟩

theorem Sound.writeAll (h : s.Sound) (frames : List OutboundFrame) (throws : List Bool) :
    (s.writeAll frames throws).Sound := by
  induction frames generalizing s throws with
  | nil => exact h
  | cons frame frames ih => exact ih (h.write frame _) throws.tail

theorem Sound.send (h : s.Sound) (frame : OutboundFrame) (throws : Bool) :
    (s.send frame throws).Sound := by
  have hcall : Sound { s with calls := s.calls ++ [frame] } :=
    ⟨h.current, h.newest, h.armed, h.waiting, h.beating, h.idle⟩
  dsimp only [SocketClient.send]
  split
  · exact hcall.write frame throws
  · exact ⟨h.current, h.newest, h.armed, h.waiting, h.beating, h.idle⟩

theorem filter_id_eq_nil {timers : List Timer} {id : ℕ} (h : timers.map Timer.id = [id]) :
    timers.filter (fun t => t.id ≠ id) = [] := by
  rw [List.filter_eq_nil_iff]
  intro t ht
  have hid : t.id ∈ [id] := h ▸ List.mem_map_of_mem ht
  simp [List.mem_singleton.mp hid]

theorem clearReconnect_eq (harmed : s.timeouts.map Timer.id = s.reconnectTimer.toList) :
    s.clearReconnect = { s with timeouts := [], reconnectTimer := none, attempt := 0 } := by
  obtain ⟨socket, queue, attempt, reconnectTimer, heartbeatTimer, closedByCaller,
    status, sockets, timeouts,
    intervals, timers, frames, calls⟩ := s
  cases reconnectTimer with
  | none =>
    obtain rfl : timeouts = [] := List.map_eq_nil_iff.mp harmed
    rfl
  | some id =>
    rw [clearReconnect]
    dsimp only
    rw [filter_id_eq_nil harmed]

theorem stopHeartbeat_eq (hbeating : s.intervals.map Timer.id = s.heartbeatTimer.toList) :
    s.stopHeartbeat = { s with intervals := [], heartbeatTimer := none } := by
  obtain ⟨socket, queue, attempt, reconnectTimer, heartbeatTimer, closedByCaller,
    status, sockets, timeouts,
    intervals, timers, frames, calls⟩ := s
  cases heartbeatTimer with
  | none =>
    obtain rfl : intervals = [] := List.map_eq_nil_iff.mp hbeating
    rfl
  | some id =>
    rw [stopHeartbeat]
    dsimp only
    rw [filter_id_eq_nil hbeating]

theorem Sound.stopHeartbeat (h : s.Sound) : s.stopHeartbeat.Sound := by
  rw [stopHeartbeat_eq h.beating]
  exact ⟨h.current, h.newest, h.armed, h.waiting, rfl,
    fun hclosed => ⟨(h.idle hclosed).1, (h.idle hclosed).2.1, rfl⟩⟩

theorem Sound.startHeartbeat (h : s.Sound) (hstatus : s.status ≠ .closed) :
    s.startHeartbeat.Sound := by
  rw [SocketClient.startHeartbeat, stopHeartbeat_eq h.beating]
  exact ⟨h.current, h.newest, h.armed, h.waiting, rfl, fun hclosed => absurd hclosed hstatus⟩

@[simp] theorem status_write (frame : OutboundFrame) (throws : Bool) :
    (s.write frame throws).status = s.status := by
  rw [write]
  split
  · rfl
  · split
    · rfl
    · rfl

theorem status_writeAll (frames : List OutboundFrame) (throws : List Bool) :
    (s.writeAll frames throws).status = s.status := by
  induction frames generalizing s throws with
  | nil => rfl
  | cons frame frames ih => rw [writeAll, ih, status_write]

theorem Sound.onOpen (h : s.Sound) (throws : List Bool) : (s.onOpen throws).Sound := by
  have hopen : Sound { s with attempt := 0, status := .open, queue := [] } :=
    ⟨h.current, h.newest, h.armed, h.waiting, h.beating, nofun⟩
  refine (hopen.writeAll s.queue throws).startHeartbeat ?_
  rw [status_writeAll]
  exact nofun

theorem Sound.scheduleReconnect (h : s.Sound) (hnone : ∀ i, ¬ s.Attached i) :
    s.scheduleReconnect.Sound := by
  rw [SocketClient.scheduleReconnect]
  split
  · exact h
  · rename_i hpending
    rw [Option.not_isSome_iff_eq_none] at hpending
    have harmed := h.armed
    rw [hpending] at harmed
    refine ⟨h.current, h.newest, ?_, fun _ => hnone, h.beating, nofun⟩
    show (s.timeouts ++ [_]).map Timer.id = [s.timers]
    rw [List.map_append, harmed]
    rfl

theorem Sound.onClose (h : s.Sound) (hnone : ∀ i, ¬ s.Attached i) : s.onClose.Sound := by
  have hstopped : ∀ i, ¬ s.stopHeartbeat.Attached i := by
    rw [stopHeartbeat_eq h.beating]
    exact hnone
  dsimp only [SocketClient.onClose]
  split
  · exact h.stopHeartbeat
  · exact h.stopHeartbeat.scheduleReconnect hstopped

theorem not_attached_detach (h : s.Sound) (j : ℕ) : ¬ s.detach.Attached j := by
  intro hj
  cases hsocket : s.socket with
  | none =>
    rw [detach, hsocket] at hj
    exact h.not_attached hsocket j hj
  | some i =>
    rw [detach, hsocket] at hj
    have hj : (s.modifySocket i WebSocket.detach).Attached j := hj
    rw [attached_modifySocket] at hj
    by_cases hij : i = j
    · rw [if_pos hij] at hj
      obtain ⟨w, -, hhandlers, -⟩ := hj
      cases hhandlers
    · rw [if_neg hij] at hj
      have hcurrent := h.current j hj
      rw [hsocket] at hcurrent
      exact hij (Option.some.inj hcurrent)

/-- What `detach` does to the rest of the client. -/
theorem detach_eq :
    s.detach.socket = none ∧ s.detach.sockets.length = s.sockets.length ∧
      s.detach = { s with socket := none, sockets := s.detach.sockets } := by
  obtain ⟨socket, queue, attempt, reconnectTimer, heartbeatTimer, closedByCaller,
    status, sockets, timeouts,
    intervals, timers, frames, calls⟩ := s
  cases socket with
  | none => exact ⟨rfl, rfl, rfl⟩
  | some i => exact ⟨rfl, List.length_modify .., rfl⟩

/-- `close()` in one piece. -/
theorem close_eq (h : s.Sound) :
    s.close =
      { s with
        closedByCaller := true
        timeouts := []
        reconnectTimer := none
        attempt := 0
        intervals := []
        heartbeatTimer := none
        sockets := s.detach.sockets
        socket := none
        status := .closed } := by
  rw [SocketClient.close, clearReconnect_eq (s := { s with closedByCaller := true }) h.armed,
    stopHeartbeat_eq (by exact h.beating), detach_eq.2.2]
  rw [detach, detach]
  cases s.socket with
  | none => rfl
  | some i => rfl

theorem Sound.close (h : s.Sound) : s.close.Sound := by
  rw [close_eq h]
  have hnone := not_attached_detach h
  constructor
  case current => exact fun j hj => absurd hj (hnone j)
  case newest => exact nofun
  case armed => rfl
  case waiting => exact fun hne => absurd rfl hne
  case beating => rfl
  case idle => exact fun _ => ⟨rfl, rfl, rfl⟩

/-- What `close()` leaves. -/
theorem close_idle (h : s.Sound) :
    s.close.status = .closed ∧ s.close.sockets.length = s.sockets.length ∧
      s.close.frames = s.frames := by
  rw [close_eq h]
  exact ⟨rfl, detach_eq.2.1, rfl⟩

theorem Sound.closeSocket (h : s.Sound) (i : ℕ) :
    (s.modifySocket i fun w => { w with readyState := .closed }).Sound :=
  h.modifySocket i fun _ _ _ hstate => absurd rfl hstate

theorem Sound.next (h : s.Sound) (e : Event) (he : s.ConnectsClosed e) : (s.next e).Sound := by
  cases e with
  | connect =>
    have hidle := h.idle he
    have hcalled : Sound { s with closedByCaller := false } :=
      ⟨h.current, h.newest, h.armed, h.waiting, h.beating, h.idle⟩
    exact hcalled.openSocket (h.not_attached hidle.1) hidle.2.1
  | send frame throws => exact h.send frame throws
  | close => exact h.close
  | opened i throws =>
    rcases next_opened i throws with heq | ⟨w, hw, hstate, heq⟩
    · rwa [heq]
    · have hopen : (s.modifySocket i fun w => { w with readyState := .open }).Sound := by
        refine h.modifySocket i ?_
        intro w' hw' hhandlers _
        obtain rfl := Option.some.inj (hw.symm.trans hw')
        exact ⟨hhandlers, by rw [hstate]; nofun⟩
      rw [heq]
      split
      · exact hopen.onOpen throws
      · exact hopen
  | message i data =>
    rcases next_message i data with heq | ⟨w, frame, -, -, -, heq⟩
    · rwa [heq]
    · rw [heq]
      exact ⟨h.current, h.newest, h.armed, h.waiting, h.beating, h.idle⟩
  | closing i =>
    rcases next_closing i with heq | ⟨w, hw, hstate, heq⟩
    · rwa [heq]
    · rw [heq]
      refine h.modifySocket i ?_
      intro w' hw' hhandlers _
      obtain rfl := Option.some.inj (hw.symm.trans hw')
      exact ⟨hhandlers, by rw [hstate]; nofun⟩
  | closed i =>
    rcases next_closed i with heq | ⟨w, hw, hstate, heq⟩
    · rwa [heq]
    · rw [heq]
      split
      · rename_i hhandlers
        -- the current socket is the one that closed, so nothing is attached any more
        refine (h.closeSocket i).onClose ?_
        intro j hj
        have hcurrent := h.current i ⟨w, hw, hhandlers, hstate⟩
        rw [attached_modifySocket] at hj
        by_cases hij : i = j
        · rw [if_pos hij] at hj
          obtain ⟨_, _, _, hclosed⟩ := hj
          exact hclosed rfl
        · rw [if_neg hij] at hj
          exact hij (Option.some.inj (hcurrent.symm.trans (h.current j hj)))
      · exact h.closeSocket i
  | timeout id =>
    rcases next_timeout h id with heq | ⟨hid, heq⟩
    · rwa [heq]
    · have harmed := h.armed
      rw [hid] at harmed
      have hpending : s.reconnectTimer ≠ none := by
        rw [hid]
        nofun
      have hfired : Sound { s with
          timeouts := s.timeouts.filter fun t => t.id ≠ id, reconnectTimer := none } := by
        rw [filter_id_eq_nil harmed]
        exact ⟨h.current, h.newest, rfl, fun hne => absurd rfl hne, h.beating,
          fun hclosed => ⟨(h.idle hclosed).1, rfl, (h.idle hclosed).2.2⟩⟩
      rw [heq]
      exact hfired.openSocket (h.waiting hpending) rfl
  | interval id throws =>
    rcases next_interval h id throws with heq | ⟨-, -, heq⟩
    · rwa [heq]
    · rw [heq]
      exact h.write _ throws

/-! ### After `close()` -/

/-- The client is closed, and has the sockets and the frames it had in `t`. -/
structure IdleSince (s t : SocketClient) : Prop where
  status : s.status = .closed
  sockets : s.sockets.length = t.sockets.length
  frames : s.frames = t.frames

/-- Without a `connect()`, a closed client stays closed: no socket, no frame. -/
theorem IdleSince.next {t : SocketClient} (h : s.Sound) (hidle : s.IdleSince t)
    {e : Event} (he : e ≠ .connect) :
    (s.next e).IdleSince t := by
  have hfields := h.idle hidle.status
  have hdetached : ∀ (i : ℕ) (w : WebSocket), s.sockets[i]? = some w → w.readyState ≠ .closed →
      w.handlers = false := by
    intro i w hw hstate
    by_contra hhandlers
    exact h.not_attached hfields.1 i ⟨w, hw, Bool.eq_true_of_not_eq_false hhandlers, hstate⟩
  have hmodify : ∀ i f, (s.modifySocket i f).IdleSince t := by
    intro i f
    refine ⟨hidle.status, ?_, hidle.frames⟩
    show (s.sockets.modify i f).length = _
    rw [List.length_modify]
    exact hidle.sockets
  cases e with
  | connect => exact absurd rfl he
  | send frame throws =>
    have hstate : s.readyState ≠ some .open := by
      rw [readyState, hfields.1]
      nofun
    dsimp only [SocketClient.next, SocketClient.send]
    rw [if_neg (by exact hstate)]
    exact ⟨hidle.status, hidle.sockets, hidle.frames⟩
  | close =>
    obtain ⟨hstatus, hsockets, hframes⟩ := close_idle h
    exact ⟨hstatus, hsockets.trans hidle.sockets, hframes.trans hidle.frames⟩
  | opened i throws =>
    rcases next_opened i throws with heq | ⟨w, hw, hstate, heq⟩
    · rwa [heq]
    · rw [heq, hdetached i w hw (by rw [hstate]; nofun)]
      exact hmodify i _
  | message i data =>
    rcases next_message i data with heq | ⟨w, frame, hw, hstate, hhandlers, -⟩
    · rwa [heq]
    · rw [hdetached i w hw (by rw [hstate]; nofun)] at hhandlers
      cases hhandlers
  | closing i =>
    rcases next_closing i with heq | ⟨w, -, -, heq⟩
    · rwa [heq]
    · rw [heq]
      exact hmodify i _
  | closed i =>
    rcases next_closed i with heq | ⟨w, hw, hstate, heq⟩
    · rwa [heq]
    · rw [heq, hdetached i w hw hstate]
      exact hmodify i _
  | timeout id =>
    rcases next_timeout h id with heq | ⟨hid, -⟩
    · rwa [heq]
    · cases hfields.2.1.symm.trans hid
  | interval id throws =>
    rcases next_interval h id throws with heq | ⟨hid, -, -⟩
    · rwa [heq]
    · cases hfields.2.2.symm.trans hid

end SocketClient

/-- **One socket at a time.**  Whatever the order of calls, socket events and timers, at
most one socket is attached, none while a retry is pending; and after `close()` nothing
happens any more until the next `connect()`. -/
theorem one_socket (events : List SocketClient.Event)
    (hconnects : Runs.Guarded SocketClient.next SocketClient.ConnectsClosed {} events) :
    Runs.Always SocketClient.next SocketClient.OneSocket {} events ∧
      ∀ pre post, pre ++ .close :: post <+: events → .connect ∉ post →
        (Runs.run SocketClient.next {} (pre ++ .close :: post)).sockets.length =
          (Runs.run SocketClient.next {} pre).sockets.length ∧
        (Runs.run SocketClient.next {} (pre ++ .close :: post)).frames =
          (Runs.run SocketClient.next {} pre).frames ∧
        (Runs.run SocketClient.next {} (pre ++ .close :: post)).timeouts = [] ∧
        (Runs.run SocketClient.next {} (pre ++ .close :: post)).intervals = [] := by
  have hsound : Runs.Always SocketClient.next SocketClient.Sound {} events :=
    hconnects.always SocketClient.sound_empty fun _ e h he => h.next e he
  refine ⟨hsound.mono fun _ h => h.oneSocket, ?_⟩
  intro pre post hpref hpost
  have hpre : (Runs.run SocketClient.next {} pre).Sound :=
    hsound pre ((List.prefix_append pre _).trans hpref)
  obtain ⟨hstatus, hsockets, hframes⟩ := SocketClient.close_idle hpre
  -- nothing of the run after `close()` is a `connect()`, so the client stays idle
  have hidle : Runs.Always SocketClient.next
      (fun s => s.Sound ∧ s.IdleSince (Runs.run SocketClient.next {} pre))
      (Runs.run SocketClient.next {} pre).close post := by
    refine Runs.always_of_mem ⟨hpre.close, hstatus, hsockets, hframes⟩ ?_
    rintro s e he ⟨hs, hs'⟩
    have hne : e ≠ .connect := fun heq => hpost (heq ▸ he)
    refine ⟨hs.next e ?_, hs'.next hs hne⟩
    cases e with
    | connect => exact absurd rfl hne
    | _ => trivial
  obtain ⟨hs, hs'⟩ := hidle.last
  obtain ⟨-, hretry, hbeat⟩ := hs.idle hs'.status
  have harmed := hs.armed
  have hbeating := hs.beating
  rw [hretry] at harmed
  rw [hbeat] at hbeating
  rw [Runs.run_append, Runs.run_cons]
  exact ⟨hs'.sockets, hs'.frames, List.map_eq_nil_iff.mp harmed, List.map_eq_nil_iff.mp hbeating⟩

/-- A socket drops, the retry opens the next one, and the caller leaves. -/
def dropsAndLeaves : List SocketClient.Event :=
  [.connect, .opened 0 [], .closed 0, .timeout 1, .opened 1 [], .close]

/-- The rule for a client that reconnects once. -/
theorem one_socket_reconnect :
    Runs.Guarded SocketClient.next SocketClient.ConnectsClosed {} dropsAndLeaves ∧
      Runs.Always SocketClient.next SocketClient.OneSocket {} dropsAndLeaves := by
  have hconnects : Runs.Guarded SocketClient.next SocketClient.ConnectsClosed
      {} dropsAndLeaves := by
    simp only [dropsAndLeaves, Runs.guarded_cons, SocketClient.ConnectsClosed, true_and]
    exact Runs.guarded_nil
  exact ⟨hconnects, (one_socket dropsAndLeaves hconnects).1⟩

/-- That run makes a second socket. -/
example : (Runs.run SocketClient.next {} dropsAndLeaves).sockets.length = 2 := by decide

end ZoomClone
