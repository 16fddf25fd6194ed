/-
One socket, and the row it is for, over one event.

* `Network.Step.task` — what an event does to the task of a socket (`Moves`);
* `Network.Step.wire` — what was put on a socket stays there, in order;
* `Network.Step.row` — a row evolves, and while it is open only the registration
  of a socket ties it to that socket.
-/
import ZoomClone.NetworkValid

namespace ZoomClone

/-! ### Reading a socket task -/

namespace SocketTask

/-- The connection, once it is registered and until it is torn down. -/
def up : SocketTask → Option Connection
  | .handling d false _ => some d
  | _ => none

/-- The connection, while its handler waits for a message. -/
def idle : SocketTask → Option Connection
  | .handling d false [] => some d
  | _ => none

/-- The row that was let in, while the handshake is awaited. -/
def admitted : SocketTask → Option Participant
  | .accepting _ q => some q
  | _ => none

/-- The server is through with the handshake. -/
def answered : SocketTask → Bool
  | .requested _ => false
  | .accepting _ _ => false
  | _ => true

theorem up_eq_some {t : SocketTask} {d : Connection} :
    t.up = some d ↔ ∃ script, t = .handling d false script := by
  constructor
  · intro h
    unfold up at h
    split at h
    · next script => exact ⟨script, by rw [Option.some.inj h]⟩
    · cases h
  · rintro ⟨script, rfl⟩
    rfl

theorem idle_eq_some {t : SocketTask} {d : Connection} :
    t.idle = some d ↔ t = .handling d false [] := by
  constructor
  · intro h
    unfold idle at h
    split at h
    · rw [Option.some.inj h]
    · cases h
  · rintro rfl
    rfl

theorem admitted_eq_some {t : SocketTask} {q : Participant} :
    t.admitted = some q ↔ ∃ m, t = .accepting m q := by
  constructor
  · intro h
    unfold admitted at h
    split at h
    · next m q' => exact ⟨m, by rw [Option.some.inj h]⟩
    · cases h
  · rintro ⟨m, rfl⟩
    rfl

end SocketTask

/-! ### One event -/

/-- The socket whose end the server notices. -/
def NetEvent.disconnects : NetEvent → Option ConnectionId
  | .disconnect c _ => some c
  | _ => none

/-- How an event moves the task of socket `c` on. -/
inductive SocketTask.Moves (n : Network) (c : ConnectionId) :
    NetEvent → SocketTask → SocketTask → Prop
  | refused (url : SignalingUrl) (e : Raised)
      (hauth : authenticate n.server.db url.meetingNumber url.sessionId = .error e) :
      Moves n c (.authenticate c) (.requested url) .finished
  | admitted (url : SignalingUrl) (m : Meeting) (q : Participant)
      (hauth : authenticate n.server.db url.meetingNumber url.sessionId = .ok (m, q)) :
      Moves n c (.authenticate c) (.requested url) (.accepting m q)
  | registered (m : Meeting) (q : Participant) (you : ParticipantView) (hyou : you.id = q.id) :
      Moves n c (.register c) (.accepting m q)
        (.handling ⟨c, q.id, m.id⟩ false
          [.broadcast m.id { body := .peerJoined you, sender := some q.id } (some c)])
  | acted (d : Connection) (down : Bool) (a : Action) (script left : List Action)
      (hleft : (performNext n.server.registry a script).2.2 = left) :
      Moves n c (.act c) (.handling d down (a :: script)) (.handling d down left)
  | handled (d : Connection) (message : Json) (id : String) (now : DateTime) (actions : List Action)
      (hactions : (onMessage n.server.db n.server.registry d message id now).2 = actions) :
      Moves n c (.message c message id now) (.handling d false []) (.handling d false actions)
  | tornDown (d : Connection) (now : DateTime) (actions : List Action)
      (hactions : (teardown n.server d now).2 = actions) :
      Moves n c (.disconnect c now) (.handling d false []) (.handling d true actions)
  | unrequested (url : SignalingUrl) (now : DateTime) :
      Moves n c (.disconnect c now) (.requested url) .finished
  | unaccepted (m : Meeting) (q : Participant) (now : DateTime) :
      Moves n c (.disconnect c now) (.accepting m q) .finished

/-- Everything that was put on a socket, oldest first. -/
def Wire.items (w : Wire) : List WireItem := w.taken ++ w.pending

@[simp] theorem Wire.items_push (w : Wire) (sent : List WireItem) :
    (w.push sent).items = w.items ++ sent :=
  (List.append_assoc ..).symm

namespace Network

def up (n : Network) (c : ConnectionId) : Option Connection := (n.tasks c).bind SocketTask.up

def idle (n : Network) (c : ConnectionId) : Option Connection := (n.tasks c).bind SocketTask.idle

def admitted (n : Network) (c : ConnectionId) : Option Participant :=
  (n.tasks c).bind SocketTask.admitted

@[simp] theorem up_setTask_self (n : Network) (c : ConnectionId) (t : SocketTask) :
    (n.setTask c t).up c = t.up := by
  rw [up, tasks_setTask, Function.update_self, Option.bind_some]

theorem up_setTask_of_ne (n : Network) {c c' : ConnectionId} (hc : c' ≠ c) (t : SocketTask) :
    (n.setTask c t).up c' = n.up c' := by
  rw [up, tasks_setTask, Function.update_of_ne hc, up]

variable {n n' : Network} {e : NetEvent}

/-- Socket `c` is asked for by a browser, with its url. -/
def Asks (n : Network) (c : ConnectionId) (url : SignalingUrl) : Prop :=
  ∃ p client, (n.clients p).signaling = some client ∧ client.live = some c ∧ client.url = url

/-- The task of socket `c` stays, is started on an empty wire, or moves on. -/
def TaskStep (n n' : Network) (e : NetEvent) (c : ConnectionId) : Prop :=
  n'.tasks c = n.tasks c ∨
    (n.tasks c = none ∧ n'.wires c = {} ∧
      ∃ url, n'.tasks c = some (.requested url) ∧ n'.Asks c url) ∨
    ∃ t t', n.tasks c = some t ∧ n'.tasks c = some t' ∧ SocketTask.Moves n c e t t'

section TaskStep

variable {c c' : ConnectionId}

theorem taskStep_requested (hfresh : n.tasks c' = none) {url : SignalingUrl}
    (hn : n'.tasks = Function.update n.tasks c' (some (.requested url)))
    (hw : n'.wires = Function.update n.wires c' {}) (hasks : n'.Asks c' url) :
    TaskStep n n' e c := by
  by_cases hc : c = c'
  · subst hc
    refine .inr (.inl ⟨hfresh, ?_, url, ?_, hasks⟩)
    · rw [hw, Function.update_self]
    · rw [hn, Function.update_self]
  · exact .inl (by rw [hn, Function.update_of_ne hc])

theorem taskStep_moves {t t' : SocketTask} (htask : n.tasks c' = some t)
    (hmoves : SocketTask.Moves n c' e t t')
    (hn : n'.tasks = Function.update n.tasks c' (some t')) : TaskStep n n' e c := by
  by_cases hc : c = c'
  · subst hc
    exact .inr (.inr ⟨t, t', htask, by rw [hn, Function.update_self], hmoves⟩)
  · exact .inl (by rw [hn, Function.update_of_ne hc])

end TaskStep

/-- **The task of a socket over one event.** -/
theorem Step.task (h : n.Step e n') (c : ConnectionId) : TaskStep n n' e c := by
  cases h with
  | asked => exact .inl rfl
  | @joined userId meetingNumber inviteToken stream draws now c' response db room req hroom hfresh
      hpost =>
    obtain ⟨rfl, -⟩ := Prod.mk.inj hroom
    let client : SignalingClient := { url := ⟨meetingNumber, response.sessionId⟩ }
    refine taskStep_requested hfresh rfl rfl
      ⟨draws.id, client.connect c', ?_, client.live_connect c', rfl⟩
    show MeetingRoom.signaling (Function.update n.clients draws.id _ draws.id) = _
    rw [Function.update_self]
    rfl
  | @reconnected p c' client hfresh hclient htimer =>
    refine taskStep_requested hfresh rfl rfl
      ⟨p, client.onTimer c', ?_, client.live_onTimer c', rfl⟩
    show MeetingRoom.signaling (Function.update n.clients p _ p) = _
    rw [Function.update_self]
  | refused url err htask hauth => exact taskStep_moves htask (.refused url err hauth) rfl
  | admitted url meeting participant htask hauth =>
    exact taskStep_moves htask (.admitted url meeting participant hauth) rfl
  | registered meeting participant snapshot hyou hroster htask =>
    exact taskStep_moves htask (.registered meeting participant snapshot.you hyou) rfl
  | acted connection down a script left registry sent htask hperform =>
    refine taskStep_moves htask (.acted connection down a script left ?_) rfl
    rw [hperform]
  | @handled c' message id now connection db actions htask hlive hmessage =>
    refine taskStep_moves htask (.handled connection message id now actions ?_) rfl
    rw [hmessage]
  | @tornDown c' now connection server actions htask hteardown =>
    refine taskStep_moves htask (.tornDown connection now actions ?_) rfl
    rw [hteardown]
  | @abandoned c' now htask =>
    rcases htask with ⟨url, htask⟩ | ⟨m, q, htask⟩
    · exact taskStep_moves htask (.unrequested url now) rfl
    · exact taskStep_moves htask (.unaccepted m q now) rfl
  | delivered c' item rest hsocket hpending => exact .inl rfl
  | dropped hsocket => exact .inl rfl
  | left hphase => exact .inl rfl

/-- A socket that is refused is given up. -/
theorem Step.refused_task {c : ConnectionId} {url : SignalingUrl} {err : Raised} {t' : SocketTask}
    (h : n.Step (.authenticate c) n') (htask : n.tasks c = some (.requested url))
    (hauth : authenticate n.server.db url.meetingNumber url.sessionId = .error err)
    (htask' : n'.tasks c = some t') : t' = .finished := by
  cases h with
  | refused url₁ err₁ htask₁ hauth₁ =>
    have hdone : (n.setTask c .finished).tasks c = some .finished := Function.update_self ..
    exact (Option.some.inj (hdone.symm.trans htask')).symm
  | admitted url₁ meeting participant htask₁ hauth₁ =>
    rw [htask] at htask₁
    cases htask₁
    rw [hauth] at hauth₁
    cases hauth₁

/-- A socket whose handshake is through. -/
theorem Step.registered_task {c : ConnectionId} {m : Meeting} {q : Participant}
    (h : n.Step (.register c) n') (htask : n.tasks c = some (.accepting m q)) :
    n'.server.db = bindConnection n.server.db q.id c ∧
      ∃ script, n'.tasks c = some (.handling ⟨c, q.id, m.id⟩ false script) := by
  cases h with
  | registered m₁ q₁ snapshot hyou hroster htask₁ =>
    rw [htask] at htask₁
    cases htask₁
    exact ⟨rfl, _, Function.update_self ..⟩

/-- A socket stays up until the server notices its end. -/
theorem Step.up (h : n.Step e n') {d : Connection} (hup : n.up c = some d)
    (hstays : e.disconnects ≠ some c) : n'.up c = some d := by
  obtain ⟨t, ht, hdown⟩ := Option.bind_eq_some_iff.mp hup
  obtain ⟨script, rfl⟩ := SocketTask.up_eq_some.mp hdown
  rcases h.task c with heq | ⟨hnone, -⟩ | ⟨t, t', ht₁, ht', hmoves⟩
  · rw [Network.up, heq]
    exact hup
  · rw [ht] at hnone
    cases hnone
  · rw [ht] at ht₁
    obtain rfl := Option.some.inj ht₁
    rw [Network.up, ht']
    cases hmoves with
    | acted _ _ a script left hleft => rfl
    | handled _ message id now actions hactions => rfl
    | tornDown _ now actions hactions => exact absurd rfl hstays

/-- **The wire of a socket over one event.** -/
theorem Step.wire (h : n.Step e n') {c : ConnectionId} (htask : n.tasks c ≠ none) :
    ∃ sent, (n'.wires c).items = (n.wires c).items ++ sent := by
  have hkept : ∃ sent, (n.wires c).items = (n.wires c).items ++ sent :=
    ⟨[], (List.append_nil _).symm⟩
  -- A socket that has a task is not the one that is asked for.
  have hother {c' : ConnectionId} (hfresh : n.tasks c' = none) (w : Wire) :
      Function.update n.wires c' w c = n.wires c := by
    refine Function.update_of_ne ?_ ..
    rintro rfl
    exact htask hfresh
  cases h with
  | joined response db room req hroom hfresh hpost =>
    refine ⟨[], ?_⟩
    rw [List.append_nil]
    exact congrArg Wire.items (hother hfresh {})
  | reconnected client hfresh hclient htimer =>
    refine ⟨[], ?_⟩
    rw [List.append_nil]
    exact congrArg Wire.items (hother hfresh {})
  | @refused c' url err htask' hauth =>
    by_cases hc : c = c'
    · subst hc
      refine ⟨refusal, ?_⟩
      show (Function.update n.wires c _ c).items = _
      rw [Function.update_self, Wire.items_push]
    · refine ⟨[], ?_⟩
      show (Function.update n.wires c' _ c).items = _
      rw [Function.update_of_ne hc, List.append_nil]
  | registered meeting participant snapshot hyou hroster htask' => exact ⟨_, Wire.items_push ..⟩
  | acted connection down a script left registry sent htask' hperform =>
    exact ⟨_, Wire.items_push ..⟩
  | @delivered p c' item rest hsocket hpending =>
    refine ⟨[], ?_⟩
    rw [List.append_nil]
    show (Function.update n.wires c' _ c).items = _
    by_cases hc : c = c'
    · subst hc
      rw [Function.update_self, Wire.items, Wire.items, hpending, List.append_assoc]
      rfl
    · rw [Function.update_of_ne hc]
  | asked => exact hkept
  | admitted url meeting participant htask' hauth => exact hkept
  | handled connection db actions htask' hlive hmessage => exact hkept
  | tornDown connection server actions htask' hteardown => exact hkept
  | abandoned htask' => exact hkept
  | dropped hsocket => exact hkept
  | left hphase => exact hkept

/-- **The row of a participant over one event.** -/
theorem Step.row (h : n.Step e n') {p q : Participant} (hp : p ∈ n.server.db.participants)
    (hq : q ∈ n'.server.db.participants) (hid : q.id = p.id) :
    p.Evolves q ∧ (q.leftAt = none → q.connectionId = p.connectionId ∨
      ∃ c m p', e = .register c ∧ n.tasks c = some (.accepting m p') ∧ p'.id = p.id ∧
        q.connectionId = some c) := by
  obtain ⟨q', hq', he⟩ := h.rows hp
  obtain rfl := Keyed.eq_of_key_eq hq hq' (hid.trans he.id.symm)
  refine ⟨he, ?_⟩
  intro hopen
  rcases h.db with heq | ⟨op, heq, hbind⟩
  · left
    rw [heq] at hq
    rw [Keyed.eq_of_key_eq hq hp hid]
  · rw [heq] at hq
    rcases apply_change n.server.db op with hsame | hchange
    · left
      rw [hsame] at hq
      rw [Keyed.eq_of_key_eq hq hp hid]
    · rcases hchange.connectionId hp hq hid hopen with hc | ⟨c, hop, hc⟩
      · exact .inl hc
      · obtain ⟨he', m, p', htask, hid'⟩ := hbind _ _ hop
        exact .inr ⟨c, m, p', he', htask, hid', hc⟩

/-- **The table only grows at its end.** -/
theorem Step.keys (h : n.Step e n') :
    ∃ added, n'.server.db.participants.keys = n.server.db.participants.keys ++ added := by
  have hsame : ∃ added, n.server.db.participants.keys = n.server.db.participants.keys ++ added :=
    ⟨[], (List.append_nil _).symm⟩
  rcases h.db with heq | ⟨op, heq, -⟩
  · rwa [heq]
  · rw [heq]
    rcases apply_change n.server.db op with heq | hchange
    · rwa [heq]
    · obtain ⟨f, added, hf, -⟩ := hchange.rows
      refine ⟨added.toList.map Participant.id, ?_⟩
      rw [Keyed.keys, hf.rows, List.map_append, List.map_map, Keyed.keys]
      congr 1
      exact List.map_congr_left fun p hp => (hf.evolves p hp).id

/-- The url of a participant goes on naming its row. -/
theorem Step.names (h : n.Step e n') {url : SignalingUrl} {p : ParticipantId}
    (hurl : url.Names n.server.db p) : url.Names n'.server.db p := by
  rcases h.db with heq | ⟨op, heq, -⟩
  · rwa [heq]
  · rw [heq]
    exact hurl.apply op

end Network

end ZoomClone
