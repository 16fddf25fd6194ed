/-
The small client of `SignalingClient.lean` is the full one, seen from its current socket.

The rooms and the network are about `SignalingClient`, which has no queue, no heartbeat
and one socket.  `SocketClient` has all of the source.  Each of its events is one
operation of the small client, or leaves it as it is, so whatever holds of the small
client in every order of operations holds of the full one.

* `SocketClient.live_iff` — the live connection is the one attached socket;
* `SocketClient.step_next` — one event;
* `SocketClient.steps_run` — a run.
-/
import ZoomClone.SocketClient
import Mathlib.Logic.Relation

namespace ZoomClone

/-- One operation of the small client, in a state where the browser allows it. -/
inductive SignalingClient.Step (s : SignalingClient) : SignalingClient → Prop where
  | connect (c : ConnectionId) : s.status = .closed → Step s (s.connect c)
  | onOpen (c : ConnectionId) : s.socket = some ⟨c, .connecting⟩ → Step s s.onOpen
  | onClose (c : ConnectionId) : s.live = some c → Step s s.onClose
  | onTimer (c : ConnectionId) : s.reconnectTimer ≠ none → Step s (s.onTimer c)
  | close : Step s s.close

/-- A socket whose closing handshake is under way has not closed yet. -/
def WebSocketState.readyState : WebSocketState → ReadyState
  | .connecting => .connecting
  | .open => .open
  | .closing => .open
  | .closed => .closed

theorem WebSocketState.readyState_eq_closed {state : WebSocketState} :
    state.readyState = .closed ↔ state = .closed := by
  cases state with
  | closed => exact ⟨fun _ => rfl, fun _ => rfl⟩
  | _ => exact ⟨nofun, nofun⟩

namespace SocketClient

/-- The client, seen from its current socket; `name` says what the server calls each one. -/
def toSignalingClient (s : SocketClient) (url : SignalingUrl) (name : ℕ → ConnectionId) :
    SignalingClient where
  url
  socket := s.socket.bind fun i =>
    (s.sockets[i]?.filter WebSocket.handlers).map fun w => ⟨name i, w.readyState.readyState⟩
  attempt := s.attempt
  reconnectTimer := s.timeouts.head?.map Timer.delay
  closedByCaller := s.closedByCaller
  status := s.status

variable {s : SocketClient} {url : SignalingUrl} {name : ℕ → ConnectionId}

/-! ### The current socket -/

theorem socket_toSignalingClient (h : s.Sound) {i : ℕ} {w : WebSocket} (hw : s.sockets[i]? = some w)
    (hhandlers : w.handlers = true) (hstate : w.readyState ≠ .closed) :
    (s.toSignalingClient url name).socket = some ⟨name i, w.readyState.readyState⟩ := by
  have hcurrent := h.current i ⟨w, hw, hhandlers, hstate⟩
  simp [toSignalingClient, hcurrent, hw, Option.filter, hhandlers]

/-- What the server takes for the client's connection is the one attached socket. -/
theorem live_iff (h : s.Sound) {c : ConnectionId} :
    (s.toSignalingClient url name).live = some c ↔ ∃ i, s.Attached i ∧ name i = c := by
  constructor
  · intro hlive
    obtain ⟨socket, hsocket, hc⟩ := Option.map_eq_some_iff.mp hlive
    obtain ⟨hsocket, hopen⟩ := Option.filter_eq_some_iff.mp hsocket
    obtain ⟨i, -, hsocket⟩ := Option.bind_eq_some_iff.mp hsocket
    obtain ⟨w, hw, rfl⟩ := Option.map_eq_some_iff.mp hsocket
    obtain ⟨hw, hhandlers⟩ := Option.filter_eq_some_iff.mp hw
    refine ⟨i, ⟨w, hw, hhandlers, fun hclosed => ?_⟩, hc⟩
    exact of_decide_eq_true hopen (WebSocketState.readyState_eq_closed.mpr hclosed)
  · rintro ⟨i, ⟨w, hw, hhandlers, hstate⟩, rfl⟩
    rw [SignalingClient.live, socket_toSignalingClient h hw hhandlers hstate,
      Option.filter_some, if_pos]
    · rfl
    · exact decide_eq_true fun hclosed => hstate (WebSocketState.readyState_eq_closed.mp hclosed)

/-- A change of a socket that cannot be seen. -/
theorem toSignalingClient_modifySocket {i : ℕ} {f : WebSocket → WebSocket}
    (hf : ∀ w, s.sockets[i]? = some w → (f w).handlers = w.handlers ∧
      (w.handlers = true → (f w).readyState.readyState = w.readyState.readyState)) :
    (s.modifySocket i f).toSignalingClient url name = s.toSignalingClient url name := by
  have hsocket : ∀ j, ((s.sockets.modify i f)[j]?.filter WebSocket.handlers).map
      (fun w => (⟨name j, w.readyState.readyState⟩ : BrowserSocket)) =
      (s.sockets[j]?.filter WebSocket.handlers).map fun w => ⟨name j, w.readyState.readyState⟩ := by
    intro j
    rw [List.getElem?_modify]
    by_cases hij : i = j
    · subst hij
      cases hw : s.sockets[i]? with
      | none => simp
      | some w =>
        obtain ⟨hhandlers, hstate⟩ := hf w hw
        cases hattached : w.handlers with
        | true => simp [Option.filter, hhandlers, hattached, hstate hattached]
        | false => simp [Option.filter, hhandlers, hattached]
    · simp [hij]
  simp only [toSignalingClient, modifySocket, hsocket]

theorem toSignalingClient_modify_current {i : ℕ} {w : WebSocket} {f : WebSocket → WebSocket}
    (hcurrent : s.socket = some i) (hw : s.sockets[i]? = some w) (hf : (f w).handlers = true) :
    (s.modifySocket i f).toSignalingClient url name =
      { s.toSignalingClient url name with
      socket := some ⟨name i, (f w).readyState.readyState⟩ } := by
  simp [toSignalingClient, modifySocket, List.getElem?_modify, hcurrent, hw, Option.filter, hf]

theorem toSignalingClient_modify_detached {i : ℕ} {w : WebSocket} {f : WebSocket → WebSocket}
    (hw : s.sockets[i]? = some w) (hhandlers : ¬ w.handlers = true)
    (hf : (f w).handlers = w.handlers) :
    (s.modifySocket i f).toSignalingClient url name = s.toSignalingClient url name := by
  refine toSignalingClient_modifySocket ?_
  intro w' hw'
  obtain rfl := Option.some.inj (hw.symm.trans hw')
  exact ⟨hf, fun htrue => absurd htrue hhandlers⟩

/-! ### What cannot be seen -/

theorem toSignalingClient_write (frame : OutboundFrame) (throws : Bool) :
    (s.write frame throws).toSignalingClient url name = s.toSignalingClient url name := by
  rw [write]
  split
  · rfl
  · split
    · rfl
    · exact toSignalingClient_modifySocket fun w _ => ⟨rfl, fun _ => rfl⟩

theorem toSignalingClient_writeAll (frames : List OutboundFrame) (throws : List Bool) :
    (s.writeAll frames throws).toSignalingClient url name = s.toSignalingClient url name := by
  induction frames generalizing s throws with
  | nil => rfl
  | cons frame frames ih => rw [writeAll, ih, toSignalingClient_write]

theorem toSignalingClient_send (frame : OutboundFrame) (throws : Bool) :
    (s.send frame throws).toSignalingClient url name = s.toSignalingClient url name := by
  dsimp only [send]
  split
  · exact toSignalingClient_write frame throws
  · rfl

theorem toSignalingClient_stopHeartbeat :
    s.stopHeartbeat.toSignalingClient url name = s.toSignalingClient url name := by
  rw [stopHeartbeat]
  split
  · rfl
  · rfl

/-! ### What can be seen -/

theorem toSignalingClient_openSocket :
    s.openSocket.toSignalingClient url name = (s.toSignalingClient url name).openSocket
      (name s.sockets.length) := by
  have hnew : (s.sockets ++ [({} : WebSocket)])[s.sockets.length]? = some {} :=
    List.getElem?_concat_length
  simp only [toSignalingClient, openSocket, Option.bind_some, hnew]
  rfl

theorem toSignalingClient_onOpen (throws : List Bool) :
    (s.onOpen throws).toSignalingClient url name =
      { s.toSignalingClient url name with attempt := 0, status := .open } := by
  have hstarted : ∀ t : SocketClient,
      t.startHeartbeat.toSignalingClient url name = t.stopHeartbeat.toSignalingClient url name :=
        fun _ => rfl
  rw [onOpen, hstarted, toSignalingClient_stopHeartbeat, flush, toSignalingClient_writeAll]
  rfl

theorem isSome_reconnectTimer (h : s.Sound) :
    (s.toSignalingClient url name).reconnectTimer.isSome = s.reconnectTimer.isSome := by
  have harmed := congrArg List.length h.armed
  rw [List.length_map] at harmed
  rw [toSignalingClient, Option.isSome_map]
  cases htimeouts : s.timeouts with
  | nil =>
    rw [htimeouts] at harmed
    cases htimer : s.reconnectTimer with
    | none => rfl
    | some id => simp [htimer] at harmed
  | cons t rest =>
    rw [htimeouts] at harmed
    cases htimer : s.reconnectTimer with
    | none => simp [htimer] at harmed
    | some id => rfl

theorem toSignalingClient_scheduleReconnect (h : s.Sound) :
    s.scheduleReconnect.toSignalingClient url name =
      (s.toSignalingClient url name).scheduleReconnect := by
  rw [scheduleReconnect, SignalingClient.scheduleReconnect, isSome_reconnectTimer h]
  split
  · rfl
  · rename_i hpending
    have htimeouts : s.timeouts = [] := by
      have harmed := h.armed
      rw [Option.not_isSome_iff_eq_none.mp hpending] at harmed
      exact List.map_eq_nil_iff.mp harmed
    have hlt : min s.attempt (reconnectDelaysMs.length - 1) < reconnectDelaysMs.length :=
      (Nat.min_le_right _ _).trans_lt (by decide)
    have hdelay : reconnectDelaysMs[min s.attempt (reconnectDelaysMs.length - 1)]? =
        some (reconnectDelaysMs.getD (min s.attempt (reconnectDelaysMs.length - 1)) 0) := by
      rw [List.getD_eq_getElem?_getD, List.getElem?_eq_getElem hlt, Option.getD_some]
    dsimp only [toSignalingClient]
    rw [htimeouts, hdelay]
    rfl

theorem toSignalingClient_onClose (h : s.Sound) :
    s.onClose.toSignalingClient url name =
      if s.closedByCaller then s.toSignalingClient url name
      else (s.toSignalingClient url name).scheduleReconnect := by
  have hcalled : s.stopHeartbeat.closedByCaller = s.closedByCaller := by
    rw [stopHeartbeat_eq h.beating]
  dsimp only [onClose]
  rw [hcalled]
  split
  · exact toSignalingClient_stopHeartbeat
  · rw [toSignalingClient_scheduleReconnect h.stopHeartbeat, toSignalingClient_stopHeartbeat]

theorem toSignalingClient_onTimeout (h : s.Sound) {id : ℕ} (hid : s.reconnectTimer = some id) :
    (s.onTimeout id).toSignalingClient url name = (s.toSignalingClient url name).onTimer
      (name s.sockets.length) := by
  have harmed := h.armed
  rw [hid] at harmed
  rw [onTimeout, filter_id_eq_nil harmed, toSignalingClient_openSocket]
  rfl

theorem toSignalingClient_close (h : s.Sound) :
    s.close.toSignalingClient url name = (s.toSignalingClient url name).close := by
  rw [close_eq h]
  rfl

/-! ### One event -/

/-- The handshake of the attached socket completes. -/
theorem step_onOpen (h : s.Sound) {i : ℕ} {w : WebSocket} (hw : s.sockets[i]? = some w)
    (hhandlers : w.handlers = true)
    (hstate : w.readyState = .connecting) (throws : List Bool) :
    (s.toSignalingClient url name).Step
      (((s.modifySocket i fun w => { w with readyState := .open }).onOpen throws).toSignalingClient
      url name) := by
  have hopen : w.readyState ≠ .closed := by
    rw [hstate]
    nofun
  have hcurrent := h.current i ⟨w, hw, hhandlers, hopen⟩
  have hsocket : (s.toSignalingClient url name).socket = some ⟨name i, w.readyState.readyState⟩ :=
    socket_toSignalingClient h hw hhandlers hopen
  rw [hstate] at hsocket
  have hstep := SignalingClient.Step.onOpen (name i) hsocket
  rw [SignalingClient.onOpen, hsocket] at hstep
  rw [toSignalingClient_onOpen, toSignalingClient_modify_current hcurrent hw hhandlers]
  exact hstep

/-- The attached socket closes. -/
theorem step_onClose (h : s.Sound) {i : ℕ} {w : WebSocket} (hw : s.sockets[i]? = some w)
    (hhandlers : w.handlers = true)
    (hstate : w.readyState ≠ .closed) :
    (s.toSignalingClient url name).Step
      ((s.modifySocket i fun w => { w with readyState := .closed }).onClose.toSignalingClient
      url name) := by
  have hcurrent := h.current i ⟨w, hw, hhandlers, hstate⟩
  have hlive : (s.toSignalingClient url name).live = some (name i) :=
    (live_iff h).mpr ⟨i, ⟨w, hw, hhandlers, hstate⟩, rfl⟩
  have hmarked : (s.modifySocket i fun w => { w with
    readyState := .closed }).toSignalingClient url name =
      (s.toSignalingClient url name).markClosed := by
    rw [toSignalingClient_modify_current hcurrent hw hhandlers, SignalingClient.markClosed,
      socket_toSignalingClient h hw hhandlers hstate]
    rfl
  have hstep := SignalingClient.Step.onClose (name i) hlive
  rw [SignalingClient.onClose, ← hmarked] at hstep
  rw [toSignalingClient_onClose (h.closeSocket i)]
  exact hstep

/-- Each event is one operation of the small client, or none. -/
theorem step_next (h : s.Sound) (e : Event) (he : s.ConnectsClosed e) :
    (s.next e).toSignalingClient url name = s.toSignalingClient url name ∨
      (s.toSignalingClient url name).Step ((s.next e).toSignalingClient url name) := by
  cases e with
  | connect =>
    refine .inr ?_
    rw [next, connect, toSignalingClient_openSocket]
    exact .connect _ he
  | send frame throws => exact .inl (toSignalingClient_send frame throws)
  | close =>
    refine .inr ?_
    rw [next, toSignalingClient_close h]
    exact .close
  | opened i throws =>
    rcases next_opened i throws with heq | ⟨w, hw, hstate, heq⟩
    · rw [heq]
      exact .inl rfl
    · rw [heq]
      split
      · rename_i hhandlers
        exact .inr (step_onOpen h hw hhandlers hstate throws)
      · rename_i hhandlers
        exact .inl (toSignalingClient_modify_detached hw hhandlers rfl)
  | message i data =>
    refine .inl ?_
    rcases next_message i data with heq | ⟨w, frame, -, -, -, heq⟩
    · rw [heq]
    · rw [heq]
      rfl
  | closing i =>
    refine .inl ?_
    rcases next_closing i with heq | ⟨w, hw, hstate, heq⟩
    · rw [heq]
    · rw [heq]
      refine toSignalingClient_modifySocket ?_
      intro w' hw'
      obtain rfl := Option.some.inj (hw.symm.trans hw')
      exact ⟨rfl, fun _ => by rw [hstate]; rfl⟩
  | closed i =>
    rcases next_closed i with heq | ⟨w, hw, hstate, heq⟩
    · rw [heq]
      exact .inl rfl
    · rw [heq]
      split
      · rename_i hhandlers
        exact .inr (step_onClose h hw hhandlers hstate)
      · rename_i hhandlers
        exact .inl (toSignalingClient_modify_detached hw hhandlers rfl)
  | timeout id =>
    rcases next_timeout h id with heq | ⟨hid, heq⟩
    · rw [heq]
      exact .inl rfl
    · refine .inr ?_
      rw [heq, toSignalingClient_onTimeout h hid]
      refine .onTimer _ fun hnone => ?_
      have hpending : (s.toSignalingClient url name).reconnectTimer.isSome =
          s.reconnectTimer.isSome :=
        isSome_reconnectTimer h
      rw [hnone, hid] at hpending
      cases hpending
  | interval id throws =>
    refine .inl ?_
    rcases next_interval h id throws with heq | ⟨-, -, heq⟩
    · rw [heq]
    · rw [heq]
      exact toSignalingClient_write _ throws

/-! ### A run -/

/-- The small client, seen from a run of the full one, only ever took its own steps. -/
theorem steps_run (url : SignalingUrl) (name : ℕ → ConnectionId) {events : List Event}
    (hconnects : Runs.Guarded next ConnectsClosed {} events) :
    Runs.Always next
      (fun s => s.Sound ∧ Relation.ReflTransGen SignalingClient.Step { url }
      (s.toSignalingClient url name))
      {} events := by
  refine hconnects.always ⟨sound_empty, .refl⟩ ?_
  rintro s e ⟨hs, hsteps⟩ he
  refine ⟨hs.next e he, ?_⟩
  rcases step_next hs e he with hsame | hstep
  · rw [hsame]
    exact hsteps
  · exact hsteps.tail hstep

end SocketClient

end ZoomClone
