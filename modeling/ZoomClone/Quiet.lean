/-
Runs in which nobody leaves.

No browser drops its socket, opens another one or leaves, no socket is torn down,
and every row stays open: participants only join, connect and talk.  Then a socket
that was accepted stays registered, its browser stays on it, and nothing that
sends a participant home is on any wire.

* `Network.Quiet` — the condition on one event;
* `Network.Attended` — what holds of every state of such a run
  (`always_attended`).
-/
import ZoomClone.Scripts

namespace ZoomClone

/-- Nobody leaves with this event, and no socket comes or goes. -/
def NetEvent.quiet : NetEvent → Bool
  | .reconnect _ _ => false
  | .disconnect _ _ => false
  | .drop _ => false
  | .leave _ => false
  | _ => true

/-- Nobody is disconnected or removed by this event. -/
def Network.Quiet (n : Network) (e : NetEvent) : Prop :=
  e.quiet = true ∧ ∀ row ∈ (n.next e).server.db.participants.rows, row.leftAt = none

instance (n : Network) (e : NetEvent) : Decidable (n.Quiet e) := inferInstanceAs (Decidable (_ ∧ _))

/-- An action that sends a frame leaves the registry alone. -/
theorem performNext_registry {r : RoomRegistry} {a : Action} {script : List Action} {f : Frame}
    (ha : a.frame = some f) : (performNext r a script).1 = r := by
  cases a with
  | send d g => rfl
  | sendToParticipant m p g => rfl
  | broadcast m g exclude => rfl
  | closeConnection d code => cases ha
  | closeParticipant m p code => cases ha
  | closePeers m exclude code => cases ha

theorem not_evicts_of_plain {f : Frame} (hf : f.body.plain) : ¬ (WireItem.frame f).Evicts := by
  intro hevicts
  rw [WireItem.Evicts] at hevicts
  cases hbody : f.body with
  | hostRemovedYou sentBy =>
    rw [hbody] at hf
    cases hf
  | meetingEnded sentBy =>
    rw [hbody] at hf
    cases hf
  | _ =>
    rw [hbody] at hevicts
    cases hevicts

/-- Only an eviction takes a browser off its socket. -/
theorem socket_receive_mild {room : MeetingRoom} {c : ConnectionId} {item : WireItem}
    (hsocket : room.socket = some c) (hmild : ¬ item.Evicts) :
    (room.receive item).socket = some c := by
  cases item with
  | close code => exact absurd trivial hmild
  | frame f =>
    have hsame : (room.opened.handleFrame f).1.signaling = room.opened.signaling := by
      rw [MeetingRoom.handleFrame]
      cases hbody : f.body with
      | signal kind payload =>
        cases f.sender with
        | none => rfl
        | some sender => rfl
      | hostRemovedYou sentBy => exact absurd (congrArg FrameBody.evicts hbody) hmild
      | meetingEnded sentBy => exact absurd (congrArg FrameBody.evicts hbody) hmild
      | _ => rfl
    obtain ⟨client, hclient, hlive⟩ := Option.bind_eq_some_iff.mp hsocket
    have hopened : room.opened.signaling = some client.onOpen := by
      rw [MeetingRoom.opened, hclient]
      rfl
    show MeetingRoom.socket (room.opened.handleFrame f).1 = some c
    rw [MeetingRoom.socket, hsame, hopened]
    exact SignalingClient.live_onOpen hlive

namespace Network

/-- Everybody who joined is still there: the rows are open, every socket that was
not given up is held by its browser, the sockets whose handshake is through are
registered, and nothing on the wires sends a browser home. -/
structure Attended (n : Network) : Prop where
  opened : ∀ row ∈ n.server.db.participants, row.leftAt = none
  held : ∀ c t, n.tasks c = some t → t ≠ .finished → ∃ p, (n.clients p).socket = some c
  registered : ∀ c d down script, n.tasks c = some (.handling d down script) →
    down = false ∧ d ∈ n.server.registry.connections d.meetingId
  mild : ∀ c t, n.tasks c = some t → t ≠ .finished → ∀ item ∈ (n.wires c).pending, ¬ item.Evicts

variable {n n' : Network} {e : NetEvent}

theorem attended_init : ({} : Network).Attended where
  opened := by
    intro row hrow
    exact absurd hrow (Keyed.not_mem_empty row)
  held := by
    intro c t h
    cases h
  registered := by
    intro c d down script h
    cases h
  mild := by
    intro c t h
    cases h

/-- Nobody has departed. -/
theorem Attended.not_departed (ha : n.Attended) {t : ParticipantId} : ¬ n.server.db.Departed t := by
  rintro ⟨row, hrow, -, hleft⟩
  exact hleft (ha.opened row hrow)

/-- The browser of a socket that is not given up. -/
theorem Attended.socket (hv : n.Valid) (ha : n.Attended) {c : ConnectionId} {d : Connection}
    {down : Bool} {script : List Action} (htask : n.tasks c = some (.handling d down script)) :
    (n.clients d.participantId).socket = some c := by
  obtain ⟨p, hsocket⟩ := ha.held c _ htask (fun heq => by cases heq)
  rw [hv.owner htask hsocket]
  exact hsocket

/-- A reply evicts nobody: it sends a frame. -/
theorem Attended.reply_frame (ha : n.Attended) {d : Connection} {a : Action}
    (hreply : a.Reply n.server.db d) : ∃ f, a.frame = some f := by
  cases hreply with
  | farewell t hclosed => exact absurd hclosed ha.not_departed
  | relay kind inbound t => exact ⟨_, rfl⟩
  | evict a hevicts hclosed =>
    obtain ⟨t, hclosed⟩ := hclosed
    exact absurd hclosed ha.not_departed
  | plain a hplain =>
    obtain ⟨f, hf, -⟩ := hplain
    exact ⟨f, hf⟩

/-- What a reply puts on a socket: a signal that is relayed to it, or a frame that
is nothing to a mesh. -/
theorem Attended.reply_item (ha : n.Attended) {r : RoomRegistry} {d : Connection} {b : ConnectionId}
    {item : WireItem} (hreply : item.Reply n.server.db r d b) :
    ∃ f, item = .frame f ∧
      ((∃ kind payload, f.body = .signal kind payload ∧ f.sender = some d.participantId ∧
          ∃ c ∈ r.connections d.meetingId, c.connectionId = b) ∨ f.body.plain) := by
  cases hreply with
  | farewell t f hf hclosed => exact absurd hclosed ha.not_departed
  | relay kind payload f hf hsender htarget =>
    exact ⟨f, rfl, .inl ⟨kind, payload, hf, hsender, htarget⟩⟩
  | evict item hevicts hclosed =>
    obtain ⟨t, hclosed⟩ := hclosed
    exact absurd hclosed ha.not_departed
  | plain f hplain => exact ⟨f, rfl, .inr hplain⟩

theorem Attended.reply_mild (ha : n.Attended) {r : RoomRegistry} {d : Connection} {b : ConnectionId}
    {item : WireItem} (hreply : item.Reply n.server.db r d b) : ¬ item.Evicts := by
  obtain ⟨f, rfl, ⟨kind, payload, hf, -⟩ | hplain⟩ := ha.reply_item hreply
  · intro hevicts
    rw [WireItem.Evicts, hf] at hevicts
    cases hevicts
  · exact not_evicts_of_plain hplain

/-! ### One event keeps it -/

/-- A task that is not given up was not given up before, or is new. -/
theorem Step.before (h : n.Step e n') {c : ConnectionId} {t' : SocketTask}
    (htask' : n'.tasks c = some t') (hopen' : t' ≠ .finished) :
    (n'.wires c = {} ∧ ∃ url, n'.Asks c url) ∨ ∃ t, n.tasks c = some t ∧ t ≠ .finished := by
  rcases h.task c with heq | ⟨-, hwire, url, -, hasks⟩ | ⟨t, t'', ht, -, hmoves⟩
  · exact .inr ⟨t', heq ▸ htask', hopen'⟩
  · exact .inl ⟨hwire, url, hasks⟩
  · refine .inr ⟨t, ht, ?_⟩
    rintro rfl
    cases hmoves

section Step

variable (hv : n.Valid) (hs : n.Scripted) (ha : n.Attended) (h : n.Step e n')
  (hquiet : e.quiet = true)

include hv ha h hquiet in
/-- A browser stays on its socket. -/
theorem Attended.socket_step {c : ConnectionId} {t : SocketTask} (htask : n.tasks c = some t)
    (hopen : t ≠ .finished) {p : ParticipantId} (hsocket : (n.clients p).socket = some c) :
    (n'.clients p).socket = some c := by
  cases h.client p with
  | kept he hclient => rwa [hclient]
  | took c' item hsocket₀ hpending hclient =>
    obtain rfl := Option.some.inj (hsocket₀.symm.trans hsocket)
    rw [hclient]
    refine socket_receive_mild hsocket (ha.mild _ t htask hopen item ?_)
    rw [hpending]
    exact List.mem_cons_self
  | joined c' hfresh hsocket' hnew hpeers =>
    -- A browser that holds a socket has a row.
    obtain ⟨client, hclient, -⟩ := Option.bind_eq_some_iff.mp hsocket
    obtain ⟨row, hrow, hid, -⟩ := hv.client p client hclient
    exact absurd (Keyed.mem_keys.mpr ⟨row, hrow, hid⟩) hnew
  | reconnected c' hfresh hsocket' hpeers => cases hquiet
  | dropped hsocket' hpeers => cases hquiet
  | left hsocket' hpeers => cases hquiet

include hv hs ha h hquiet in
/-- A registered socket stays registered. -/
theorem Attended.registry_step {m : MeetingId} {d : Connection}
    (hd : d ∈ n.server.registry.connections m) : d ∈ n'.server.registry.connections m := by
  cases h with
  | @registered c meeting participant snapshot hyou hroster htask =>
    refine RoomRegistry.mem_connections_add.mpr (.inr ⟨hd, ?_⟩)
    rintro - hc
    -- The socket that is registered now was not registered before.
    obtain ⟨script, htask'⟩ := hv.registered m d hd
    rw [hc, htask] at htask'
    cases htask'
  | @acted c connection down a script left registry sent htask hperform =>
    obtain ⟨f, hf⟩ : ∃ f, a.frame = some f := by
      rcases hs c connection down (a :: script) htask with ⟨you, -, -, hscript⟩ | hreply
      · obtain ⟨rfl, -⟩ := List.cons.inj hscript
        exact ⟨_, rfl⟩
      · exact ha.reply_frame (hreply a List.mem_cons_self)
    have hsame : (performNext n.server.registry a script).1 = n.server.registry :=
      performNext_registry hf
    rw [hperform] at hsame
    have hregistry : registry = n.server.registry := hsame
    show d ∈ registry.connections m
    rwa [hregistry]
  | tornDown connection server actions htask hteardown => cases hquiet
  | _ => exact hd

include hv ha h hquiet in
theorem Attended.held_step {c : ConnectionId} {t' : SocketTask} (htask' : n'.tasks c = some t')
    (hopen' : t' ≠ .finished) : ∃ p, (n'.clients p).socket = some c := by
  rcases h.before htask' hopen' with ⟨-, url, p, client, hclient, hlive, -⟩ | ⟨t, htask, hopen⟩
  · refine ⟨p, ?_⟩
    rw [MeetingRoom.socket, hclient]
    exact hlive
  · obtain ⟨p, hsocket⟩ := ha.held c t htask hopen
    exact ⟨p, ha.socket_step hv h hquiet htask hopen hsocket⟩

include hv hs ha h hquiet in
theorem Attended.registered_step {c : ConnectionId} {d : Connection} {down : Bool}
    {script : List Action} (htask' : n'.tasks c = some (.handling d down script)) :
    down = false ∧ d ∈ n'.server.registry.connections d.meetingId := by
  rcases h.task c with heq | ⟨-, -, url, hurl, -⟩ | ⟨t, t', ht, ht', hmoves⟩
  · obtain ⟨hup, hd⟩ := ha.registered c d down script (heq ▸ htask')
    exact ⟨hup, ha.registry_step hv hs h hquiet hd⟩
  · rw [hurl] at htask'
    cases htask'
  · rw [htask'] at ht'
    obtain rfl := Option.some.inj ht'
    cases hmoves with
    | registered m q you hyou =>
      refine ⟨rfl, ?_⟩
      cases h with
      | registered m₁ q₁ snapshot hyou₁ hroster htask =>
        rw [ht] at htask
        cases htask
        exact RoomRegistry.mem_connections_add.mpr (.inl ⟨rfl, rfl⟩)
    | acted _ _ a script₀ left hleft =>
      obtain ⟨hup, hd⟩ := ha.registered c d down (a :: script₀) ht
      exact ⟨hup, ha.registry_step hv hs h hquiet hd⟩
    | handled _ message id now actions hactions =>
      obtain ⟨hup, hd⟩ := ha.registered c d false [] ht
      exact ⟨hup, ha.registry_step hv hs h hquiet hd⟩
    | tornDown _ now actions hactions => cases hquiet

include hv hs ha h in
theorem Attended.mild_step {c : ConnectionId} {t' : SocketTask} (htask' : n'.tasks c = some t')
    (hopen' : t' ≠ .finished) {item : WireItem} (hitem : item ∈ (n'.wires c).pending) :
    ¬ item.Evicts := by
  rcases h.before htask' hopen' with ⟨hwire, -⟩ | ⟨t, htask, hopen⟩
  · rw [hwire] at hitem
    cases hitem
  · have hold := ha.mild c t htask hopen
    have hsome : n.tasks c ≠ none := by
      rw [htask]
      exact Option.some_ne_none t
    rcases h.sends hv hs hsome with ⟨sent, hsent, hpending⟩ | ⟨p, item', -, -, hpending⟩
    · rw [hpending] at hitem
      rcases List.mem_append.mp hitem with hitem | hitem
      · exact hold item hitem
      · cases hsent with
        | nothing hregister hact => cases hitem
        | refusal url err htask₁ hauth =>
          -- A refused socket is given up.
          exact absurd (h.refused_task htask₁ hauth htask') hopen'
        | snapshot m q snapshot htask₁ hyou hroster =>
          obtain rfl := List.mem_singleton.mp hitem
          exact nofun
        | announced c₁ d you htask₁ hyou htarget hne =>
          obtain rfl := List.mem_singleton.mp hitem
          exact nofun
        | replies c₁ d down a script items htask₁ hreply hitems =>
          exact ha.reply_mild (hitems item hitem)
    · refine hold item ?_
      rw [hpending]
      exact List.mem_cons_of_mem item' hitem

include hv hs ha h hquiet in
/-- **One event keeps everybody.** -/
theorem Attended.step (hopened : ∀ row ∈ n'.server.db.participants, row.leftAt = none) :
    n'.Attended where
  opened := hopened
  held := fun _ _ htask hopen => ha.held_step hv h hquiet htask hopen
  registered := fun _ _ _ _ htask => ha.registered_step hv hs h hquiet htask
  mild := fun _ _ htask hopen _ hitem => ha.mild_step hv hs h htask hopen hitem

end Step

/-- **Every state of a run in which nobody leaves.** -/
theorem always_attended (events : List NetEvent)
    (hquiet : Runs.Guarded Network.next Quiet {} events) :
    Runs.Always Network.next (fun n => n.Valid ∧ n.Scripted ∧ n.Attended) {} events := by
  refine Runs.Guarded.always ⟨valid_init, scripted_init, attended_init⟩ ?_ hquiet
  rintro n e ⟨hv, hs, ha⟩ ⟨hquiet, hopened⟩
  refine ⟨hv.next e, hs.next hv e, ?_⟩
  rcases next_cases hv.server e with h | h
  · rwa [h]
  · exact ha.step hv hs h hquiet hopened

end Network

end ZoomClone
