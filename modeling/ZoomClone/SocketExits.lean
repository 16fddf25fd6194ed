/-
How the handler of a socket can end.

`meeting_socket` registers the socket before its first database call and before
its first send, and only the message loop is covered by the `finally` that tears
it down.  Every database call may raise, and at every await the task may be
cancelled, while other tasks do what they want.

* `SocketHandler.next` — the handler from `registry.add` on, with a fault in each
  place where it can have one;
* `enterRoom_ok`, `tearDown_ok` — without a fault it does what `acceptSocket` and
  `teardown` do;
* `exits_clean_iff` — nothing is leaked exactly when every fault is covered.
-/
import ZoomClone.Rows
import ZoomClone.Server

namespace ZoomClone

/-! ### Faults -/

/-- The database calls between `registry.add` and the first send. -/
inductive EntryCall where
  /-- The count of `assert_room_has_space`. -/
  | countRows
  /-- The commit and the refresh of `bind_connection`. -/
  | commitBind
  | refreshRow
  /-- The queries of `room_snapshot`. -/
  | readSnapshot
  | closeSession
  deriving DecidableEq

/-- The database calls of `_teardown`. -/
inductive ReleaseCall where
  | getRow
  | commitLeft
  | refreshLeft
  | closeSession
  deriving DecidableEq

/-- How an await can end the task. -/
inductive Abort where
  | raised
  | cancelled
  /-- `WebSocketDisconnect`, out of `receive_json`. -/
  | disconnected
  deriving DecidableEq

/-- Where the handler stands. -/
inductive Stage where
  /-- The handshake is through, and the socket is about to be registered. -/
  | accepted
  /-- The meeting is full: `MEETING_FULL` is being sent, and then the close. -/
  | refusing
  | closing
  /-- `room.state` is being sent, and then `peer.joined`. -/
  | greeting
  | announcing
  /-- In the message loop, inside the `try`. -/
  | serving
  /-- In the `finally`: the shielded teardown is about to run. -/
  | leaving
  /-- `peer.left` is being sent. -/
  | notifying
  | terminated
  deriving DecidableEq

/-! ### The handler between its awaits -/

/-- From `registry.add` up to the first await, where `fault` is the database call
that raises, if it is reached.  A full room is refused before the row is bound. -/
def enterRoom (s : Server) (meeting : Meeting) (participant : Participant) (c : ConnectionId)
    (fault : Option EntryCall) : Server × Stage :=
  let connection : Connection := ⟨c, participant.id, meeting.id⟩
  let entered : Server :=
    { s with registry := s.registry.add connection, sockets := s.sockets.set connection }
  if fault = some .countRows then (entered, .terminated)
  else
    match assertRoomHasSpace s.db meeting.id with
    | .error _ => ({ entered with registry := entered.registry.remove connection }, .refusing)
    | .ok _ =>
      if fault = some .commitBind then (entered, .terminated)
      else
        let bound := { entered with db := bindConnection s.db participant.id c }
        if fault = none then (bound, .greeting) else (bound, .terminated)

/-- `_teardown` up to its first await, where `fault` is the database call that
raises, if it is reached. -/
def tearDown (s : Server) (connection : Connection) (now : DateTime) (fault : Option ReleaseCall) :
    Server × Stage :=
  let removed : Server := { s with registry := s.registry.remove connection }
  if fault = some .getRow then (removed, .terminated)
  else
    match (s.db.getParticipant connection.participantId).filter
        (·.connectionId = some connection.connectionId) with
    | none => (removed, .terminated)
    | some row =>
      if fault = some .commitLeft then (removed, .terminated)
      else
        let left := { removed with db := (markLeft s.db row now).2 }
        if fault = none then (left, .notifying) else (left, .terminated)

theorem enterRoom_ok (s : Server) (meeting : Meeting) (participant : Participant)
    (c : ConnectionId) :
    (enterRoom s meeting participant c none).1 = (acceptSocket s meeting participant c).1 := by
  rw [enterRoom, acceptSocket]
  cases assertRoomHasSpace s.db meeting.id <;> rfl

theorem tearDown_ok (s : Server) (connection : Connection) (now : DateTime) :
    (tearDown s connection now none).1 = (teardown s connection now).1 := by
  rw [tearDown, teardown, releaseConnection_eq]
  cases (s.db.getParticipant connection.participantId).filter
    (·.connectionId = some connection.connectionId) <;> rfl

/-- The await is over. -/
def Stage.afterSend : Stage → Stage
  | .refusing => .closing
  | .closing => .terminated
  | .greeting => .announcing
  | .announcing => .serving
  | .notifying => .terminated
  | stage => stage

/-- The await raises.  Only the message loop is inside the `try`, and the teardown
is shielded. -/
def Stage.afterAbort (how : Abort) : Stage → Stage
  | .serving => .leaving
  | .leaving => .leaving
  | .notifying => if how = .cancelled then .notifying else .terminated
  | .accepted => .accepted
  | _ => .terminated

/-! ### Other tasks -/

/-- What other tasks do between two steps of the handler; so does its own message
loop. -/
inductive Elsewhere where
  | operation (op : Operation)
  | register (d : Connection)
  | unregister (d : Connection)
  | perform (a : Action)

/-- The operation ties a row to the socket, or releases it from it.  Only the
handler of the socket does that. -/
def Operation.OfSocket (c : ConnectionId) : Operation → Prop
  | .bindConnection _ d => d = c
  | .releaseConnection _ d _ => d = c
  | _ => False

instance (c : ConnectionId) (op : Operation) : Decidable (op.OfSocket c) := by
  cases op <;> unfold Operation.OfSocket <;> infer_instance

def Elsewhere.next (c : ConnectionId) (s : Server) : Elsewhere → Server
  | .operation op => if op.OfSocket c then s else { s with db := s.db.apply op }
  | .register d =>
    if d.connectionId = c then s
    else { s with registry := s.registry.add d, sockets := s.sockets.set d }
  | .unregister d => if d.connectionId = c then s else { s with registry := s.registry.remove d }
  | .perform a => { s with registry := (ZoomClone.perform s.registry a).1 }

/-! ### The handler -/

/-- The handler of one socket, with the rows `authenticate` read. -/
structure SocketHandler where
  server : Server
  meeting : Meeting
  participant : Participant
  connectionId : ConnectionId
  stage : Stage

inductive HandlerEvent where
  | elsewhere (e : Elsewhere)
  | enter (fault : Option EntryCall)
  /-- The send that is awaited completes. -/
  | sent
  | abort (how : Abort)
  | tearDown (now : DateTime) (fault : Option ReleaseCall)

namespace SocketHandler

def connection (h : SocketHandler) : Connection := ⟨h.connectionId, h.participant.id, h.meeting.id⟩

/-- `uuid4` never returned this id before. -/
def Fresh (h : SocketHandler) : Prop :=
  (∀ room ∈ h.server.registry.rooms, ∀ d ∈ room.members, d.connectionId ≠ h.connectionId) ∧
    ∀ p ∈ h.server.db.participants, p.connectionId ≠ some h.connectionId

instance (h : SocketHandler) : Decidable h.Fresh := inferInstanceAs (Decidable (_ ∧ _))

/-- One event.  An event that cannot happen changes nothing. -/
def next (h : SocketHandler) : HandlerEvent → SocketHandler
  | .elsewhere e => { h with server := e.next h.connectionId h.server }
  | .enter fault =>
    if h.stage = .accepted ∧ h.Fresh then
      let (server, stage) := enterRoom h.server h.meeting h.participant h.connectionId fault
      { h with server, stage }
    else h
  | .sent => { h with stage := h.stage.afterSend }
  | .abort how => { h with stage := h.stage.afterAbort how }
  | .tearDown now fault =>
    if h.stage = .leaving then
      let (server, stage) := ZoomClone.tearDown h.server h.connection now fault
      { h with server, stage }
    else h

/-! ### What must not be left behind -/

/-- The socket is in no room. -/
def OutOfRoom (h : SocketHandler) : Prop :=
  ∀ m, ∀ d ∈ h.server.registry.connections m, d.connectionId ≠ h.connectionId

/-- If the row of the participant is bound to the socket, it is closed. -/
def RowReleased (h : SocketHandler) : Prop :=
  ∀ p ∈ h.server.db.participants, p.id = h.participant.id → p.connectionId = some h.connectionId →
    p.leftAt ≠ none

/-- The handler left nothing behind. -/
def Clean (h : SocketHandler) : Prop := h.OutOfRoom ∧ h.RowReleased

/-- The faults that leave nothing behind: after the handler was refused, inside the
`try`, and those of a socket that others have evicted already. -/
def Covered (h : SocketHandler) : HandlerEvent → Prop
  | .enter fault => h.stage = .accepted → h.Fresh → fault = none ∨
      fault ≠ some .countRows ∧ ¬ activeCount h.server.db h.meeting.id ≤ maxMeshParticipants
  | .abort _ => h.stage = .greeting ∨ h.stage = .announcing → h.OutOfRoom ∧ h.RowReleased
  | .tearDown _ fault => h.stage = .leaving → fault = some .getRow ∨ fault = some .commitLeft →
      h.RowReleased
  | _ => True

/-! ### Other tasks never bring the socket back -/

/-- Nobody else registers the socket. -/
theorem mem_of_elsewhere {c : ConnectionId} {s : Server} {e : Elsewhere} {m : MeetingId}
    {d : Connection} (hc : d.connectionId = c) (hd : d ∈ (e.next c s).registry.connections m) :
    d ∈ s.registry.connections m := by
  cases e with
  | operation op =>
    rw [Elsewhere.next] at hd
    split at hd <;> exact hd
  | register d' =>
    rw [Elsewhere.next] at hd
    split at hd
    · exact hd
    · next hne =>
      rcases RoomRegistry.mem_connections_add.mp hd with ⟨rfl, -⟩ | ⟨hd, -⟩
      · exact absurd hc hne
      · exact hd
  | unregister d' =>
    rw [Elsewhere.next] at hd
    split at hd
    · exact hd
    · exact (RoomRegistry.mem_connections_remove.mp hd).1
  | perform a => exact perform_sub hd

/-- Nobody else binds a row to the socket, and no closed row is opened again. -/
theorem closed_of_elsewhere {c : ConnectionId} {s : Server} {p : ParticipantId} (e : Elsewhere)
    (h : ∀ q ∈ s.db.participants, q.id = p → q.connectionId = some c → q.leftAt ≠ none) :
    ∀ q ∈ (e.next c s).db.participants, q.id = p → q.connectionId = some c → q.leftAt ≠ none := by
  intro q hq hid hbound hopen
  cases e with
  | operation op =>
    rw [Elsewhere.next] at hq
    split at hq
    · exact h q hq hid hbound hopen
    · next hop =>
      rcases apply_change s.db op with heq | hchange
      · exact h q (heq ▸ hq) hid hbound hopen
      · obtain ⟨f, added, hf, -⟩ := hchange.rows
        rcases hf.mem.mp hq with ⟨q₀, hq₀, rfl⟩ | hadded
        · have he := hf.evolves q₀ hq₀
          rcases hchange.connectionId hq₀ hq he.id hopen with hsame | ⟨c', rfl, hc'⟩
          · exact h q₀ hq₀ (he.id.symm.trans hid) (hsame.symm.trans hbound) (he.open_of_open hopen)
          · -- A bind of another socket.
            exact hop (Option.some.inj (hc'.symm.trans hbound))
        · rw [(hf.inserts q hadded).unbound] at hbound
          cases hbound
  | register d =>
    rw [Elsewhere.next] at hq
    split at hq <;> exact h q hq hid hbound hopen
  | unregister d =>
    rw [Elsewhere.next] at hq
    split at hq <;> exact h q hq hid hbound hopen
  | perform a => exact h q hq hid hbound hopen

variable {h : SocketHandler}

theorem OutOfRoom.elsewhere (hout : h.OutOfRoom) (e : Elsewhere) :
    OutOfRoom { h with server := e.next h.connectionId h.server } :=
  fun m d hd hc => hout m d (mem_of_elsewhere hc hd) hc

theorem Clean.elsewhere (hclean : h.Clean) (e : Elsewhere) :
    Clean { h with server := e.next h.connectionId h.server } :=
  ⟨hclean.1.elsewhere e, closed_of_elsewhere e hclean.2⟩

/-! ### The handler's own steps -/

/-- The socket is in no room but its own. -/
def OnlyInRoom (h : SocketHandler) : Prop :=
  ∀ m, ∀ d ∈ h.server.registry.connections m, d.connectionId = h.connectionId → m = h.meeting.id

theorem OnlyInRoom.elsewhere (honly : h.OnlyInRoom) (e : Elsewhere) :
    OnlyInRoom { h with server := e.next h.connectionId h.server } :=
  fun m d hd hc => honly m d (mem_of_elsewhere hc hd) hc

theorem Fresh.outOfRoom (hfresh : h.Fresh) : h.OutOfRoom := by
  intro m d hd
  rw [RoomRegistry.mem_connections, RoomRegistry.members] at hd
  cases hroom : h.server.registry.rooms.find? m with
  | none =>
    rw [hroom] at hd
    exact absurd hd (Keyed.not_mem_empty d)
  | some room =>
    rw [hroom] at hd
    exact hfresh.1 room (Keyed.mem_of_find? hroom) d hd

theorem Fresh.rowReleased (hfresh : h.Fresh) : h.RowReleased :=
  fun p hp _ hbound => absurd hbound (hfresh.2 p hp)

/-- What the handler owes its room at each stage. -/
def Owes (h : SocketHandler) : Prop :=
  match h.stage with
  | .accepted => True
  | .terminated => True
  | .refusing => h.Clean
  | .closing => h.Clean
  | .notifying => h.Clean
  | _ => h.OnlyInRoom

/-- A terminated handler left nothing behind. -/
def LeavesNothing (h : SocketHandler) : Prop := h.stage = .terminated → h.Clean

theorem not_clean_of_registered (hmem : h.connection ∈ h.server.registry.connections h.meeting.id) :
    ¬ h.Clean :=
  fun hclean => hclean.1 h.meeting.id h.connection hmem rfl

/-- Entering.  Every fault leaks that is not preceded by a refusal. -/
theorem enter_spec (hstage : h.stage = .accepted) (hfresh : h.Fresh) (fault : Option EntryCall) :
    (h.next (.enter fault)).Owes ∧
      ((h.next (.enter fault)).LeavesNothing ↔ h.Covered (.enter fault)) := by
  have hadded (m : MeetingId) (d : Connection)
      (hd : d ∈ (h.server.registry.add h.connection).connections m)
      (hc : d.connectionId = h.connectionId) : m = h.meeting.id := by
    rcases RoomRegistry.mem_connections_add.mp hd with ⟨-, hm⟩ | ⟨hd, -⟩
    · exact hm.symm
    · exact absurd hc (hfresh.outOfRoom m d hd)
  have hleaks {db : Db} (hfault : fault ≠ none)
      (hcovered : ¬ (fault ≠ some .countRows ∧
        ¬ activeCount h.server.db h.meeting.id ≤ maxMeshParticipants)) :
      LeavesNothing { h with
          server := ⟨db, h.server.registry.add h.connection, h.server.sockets.set h.connection⟩
          stage := .terminated } ↔ h.Covered (.enter fault) := by
    refine iff_of_false (fun hleaves => ?_) fun h' => ?_
    · refine not_clean_of_registered ?_ (hleaves rfl)
      exact RoomRegistry.mem_connections_add.mpr (.inl ⟨rfl, rfl⟩)
    · rcases h' hstage hfresh with hnone | hfull
      · exact hfault hnone
      · exact hcovered hfull
  rw [next, if_pos ⟨hstage, hfresh⟩, enterRoom]
  by_cases hcount : fault = some .countRows
  · rw [if_pos hcount]
    exact ⟨trivial, hleaks (by simp [hcount]) (by simp [hcount])⟩
  rw [if_neg hcount]
  cases hspace : assertRoomHasSpace h.server.db h.meeting.id with
  | error e =>
    -- Refused: the registry is left before the first await.
    have hfull : ¬ activeCount h.server.db h.meeting.id ≤ maxMeshParticipants := by
      intro hle
      have hok : assertRoomHasSpace h.server.db h.meeting.id = .ok () :=
        Service.require_eq_ok.mpr hle
      rw [hok] at hspace
      cases hspace
    refine ⟨⟨fun m d hd hc => ?_, hfresh.rowReleased⟩, ?_⟩
    · obtain ⟨hd, hne⟩ := RoomRegistry.mem_connections_remove.mp hd
      exact hne (hadded m d hd hc).symm hc
    · refine iff_of_true (fun hterminated => ?_) fun _ _ => .inr ⟨hcount, hfull⟩
      cases hterminated
  | ok u =>
    have hspace : activeCount h.server.db h.meeting.id ≤ maxMeshParticipants :=
      Service.require_eq_ok.mp hspace
    by_cases hcommit : fault = some .commitBind
    · simp only [if_pos hcommit]
      exact ⟨trivial, hleaks (by simp [hcommit]) fun h => h.2 hspace⟩
    simp only [if_neg hcommit]
    by_cases hnone : fault = none
    · rw [if_pos hnone]
      refine ⟨hadded, iff_of_true (fun hterminated => ?_) fun _ _ => .inl hnone⟩
      cases hterminated
    · rw [if_neg hnone]
      exact ⟨trivial, hleaks hnone fun h => h.2 hspace⟩

/-- The teardown.  It always leaves the registry; a fault before its commit leaves
the row open. -/
theorem tearDown_spec (hstage : h.stage = .leaving) (honly : h.OnlyInRoom) (now : DateTime)
    (fault : Option ReleaseCall) : (h.next (.tearDown now fault)).Owes ∧
      ((h.next (.tearDown now fault)).LeavesNothing ↔ h.Covered (.tearDown now fault)) := by
  have hout (m : MeetingId) (d : Connection)
      (hd : d ∈ (h.server.registry.remove h.connection).connections m) :
      d.connectionId ≠ h.connectionId := by
    obtain ⟨hd, hne⟩ := RoomRegistry.mem_connections_remove.mp hd
    exact fun hc => hne (honly m d hd hc).symm hc
  -- A fault before the commit leaves the row as it was.
  have hkept (hfault : fault = some .getRow ∨ fault = some .commitLeft) :
      LeavesNothing { h with
          server := { h.server with registry := h.server.registry.remove h.connection }
          stage := .terminated } ↔ h.Covered (.tearDown now fault) :=
    ⟨fun hleaves _ _ => (hleaves rfl).2, fun hcovered _ => ⟨hout, hcovered hstage hfault⟩⟩
  rw [next, if_pos hstage, ZoomClone.tearDown]
  by_cases hget : fault = some .getRow
  · simp only [if_pos hget]
    exact ⟨trivial, hkept (.inl hget)⟩
  simp only [if_neg hget]
  cases hrow : (h.server.db.getParticipant h.connection.participantId).filter
      (·.connectionId = some h.connection.connectionId) with
  | none =>
    -- The row is not bound to the socket any more.
    have hreleased : h.RowReleased := by
      intro p hp hid hbound
      rw [← show p.id = h.connection.participantId from hid, Db.getParticipant,
        Keyed.find?_of_mem hp] at hrow
      simp [Option.filter, connection, hbound] at hrow
    exact ⟨trivial, iff_of_true (fun _ => ⟨hout, hreleased⟩) fun _ _ => hreleased⟩
  | some row =>
    obtain ⟨hget', hbound⟩ := Option.filter_eq_some_iff.mp hrow
    have hid : row.id = h.participant.id := Keyed.key_of_find? hget'
    dsimp only
    by_cases hcommit : fault = some .commitLeft
    · rw [if_pos hcommit]
      exact ⟨trivial, hkept (.inr hcommit)⟩
    rw [if_neg hcommit]
    have hclosed : ∀ q ∈ (markLeft h.server.db row now).2.participants, q.id = h.participant.id →
        q.connectionId = some h.connectionId → q.leftAt ≠ none := by
      intro q hq hqid _
      obtain rfl := updateRows_row (Participant.markLeft_id · now) (getParticipant_mem hget') hq
        (hqid.trans hid.symm)
      simp [Participant.markLeft]
    have hcovered : h.Covered (.tearDown now fault) := by
      rintro - (hfault | hfault)
      · exact absurd hfault hget
      · exact absurd hfault hcommit
    split
    · refine ⟨⟨hout, hclosed⟩, iff_of_true (fun hterminated => ?_) hcovered⟩
      cases hterminated
    · exact ⟨trivial, iff_of_true (fun _ => ⟨hout, hclosed⟩) hcovered⟩

/-- **One event.**  It keeps what the handler owes, and ends the handler with
something left behind exactly when its fault is not covered. -/
theorem next_spec (howes : h.Owes) (e : HandlerEvent) : (h.next e).Owes ∧
    (h.LeavesNothing → ((h.next e).LeavesNothing ↔ h.Covered e)) := by
  obtain ⟨s, m, p, c, stage⟩ := h
  cases e with
  | elsewhere e =>
    have hkeep (hclean : Clean ⟨s, m, p, c, stage⟩) := hclean.elsewhere e
    refine ⟨?_, fun hleaves => iff_of_true (fun hterminated => hkeep (hleaves hterminated)) trivial⟩
    cases stage
    case accepted => exact trivial
    case terminated => exact trivial
    case refusing => exact hkeep howes
    case closing => exact hkeep howes
    case notifying => exact hkeep howes
    all_goals exact OnlyInRoom.elsewhere howes e
  | enter fault =>
    by_cases hpossible : stage = .accepted ∧ Fresh ⟨s, m, p, c, stage⟩
    · obtain ⟨howes', hiff⟩ := enter_spec hpossible.1 hpossible.2 fault
      exact ⟨howes', fun _ => hiff⟩
    · rw [next, if_neg hpossible]
      exact ⟨howes, fun hleaves => iff_of_true hleaves
        fun hstage hfresh => absurd ⟨hstage, hfresh⟩ hpossible⟩
  | sent =>
    constructor
    · cases stage <;> first | exact trivial | exact howes
    · intro hleaves
      refine iff_of_true ?_ trivial
      intro hterminated
      cases stage
      case closing => exact howes
      case notifying => exact howes
      case terminated => exact hleaves rfl
      all_goals cases hterminated
  | abort how =>
    have hcovered (hstage : stage ≠ .greeting ∧ stage ≠ .announcing) :
        Covered ⟨s, m, p, c, stage⟩ (.abort how) := by
      rintro (rfl | rfl)
      · exact absurd rfl hstage.1
      · exact absurd rfl hstage.2
    cases stage
    case refusing => exact ⟨trivial, fun _ => iff_of_true (fun _ => howes) (hcovered (by decide))⟩
    case closing => exact ⟨trivial, fun _ => iff_of_true (fun _ => howes) (hcovered (by decide))⟩
    case greeting => exact ⟨trivial, fun _ => ⟨fun h _ => h rfl, fun h _ => h (.inl rfl)⟩⟩
    case announcing => exact ⟨trivial, fun _ => ⟨fun h _ => h rfl, fun h _ => h (.inr rfl)⟩⟩
    case notifying =>
      -- The teardown goes on when the handler is cancelled.
      have hclean : Clean ⟨s, m, p, c, .notifying⟩ := howes
      cases how with
      | cancelled => exact ⟨howes, fun _ => iff_of_true (fun _ => hclean) (hcovered (by decide))⟩
      | raised => exact ⟨trivial, fun _ => iff_of_true (fun _ => hclean) (hcovered (by decide))⟩
      | disconnected =>
        exact ⟨trivial, fun _ => iff_of_true (fun _ => hclean) (hcovered (by decide))⟩
    case terminated =>
      exact ⟨trivial, fun h => iff_of_true (fun _ => h rfl) (hcovered (by decide))⟩
    all_goals
      refine ⟨howes, fun _ => iff_of_true ?_ (hcovered (by decide))⟩
      intro hterminated
      cases hterminated
  | tearDown now fault =>
    by_cases hstage : stage = .leaving
    · subst hstage
      obtain ⟨howes', hiff⟩ := tearDown_spec rfl howes now fault
      exact ⟨howes', fun _ => hiff⟩
    · rw [next, if_neg hstage]
      exact ⟨howes, fun hleaves => iff_of_true hleaves fun h => absurd h hstage⟩

/-- **No exit leaks, where its faults are covered.**  For every server, every socket
on its way in and every schedule of the handler and the tasks around it. -/
theorem exits_clean_iff (s : Server) (meeting : Meeting) (participant : Participant)
    (c : ConnectionId) (events : List HandlerEvent) :
    Runs.Always next LeavesNothing ⟨s, meeting, participant, c, .accepted⟩ events ↔
      Runs.Guarded next Covered ⟨s, meeting, participant, c, .accepted⟩ events := by
  have howes : Owes ⟨s, meeting, participant, c, .accepted⟩ := trivial
  have hleaves : LeavesNothing ⟨s, meeting, participant, c, .accepted⟩ := by
    intro hterminated
    cases hterminated
  exact Runs.always_iff_guarded howes hleaves (fun _ e h => (next_spec h e).1)
    (fun _ e h => (next_spec h e).2) events

/-- A guest joins, but does not connect. -/
def guestJoins : List Event := openMeeting ++ (enter "1").take 1

/-- The handler that accepted the guest's socket. -/
def acceptedGuest : Option SocketHandler :=
  match authenticate (Runs.run Server.next {} guestJoins).db "10000000003" "s1" with
  | .ok (meeting, participant) =>
    some ⟨Runs.run Server.next {} guestJoins, meeting, participant, "c1", .accepted⟩
  | .error _ => none

/-- The task is cancelled while `room.state` is being sent: the dead socket stays in
the room. -/
theorem cancelled_greeting : ¬ ∀ (pre : List Event) (number : String) (sessionId : SessionId)
    (meeting : Meeting) (participant : Participant) (c : ConnectionId) (events : List HandlerEvent),
    authenticate (Runs.run Server.next {} pre).db number sessionId = .ok (meeting, participant) →
    Runs.Always next LeavesNothing
      ⟨Runs.run Server.next {} pre, meeting, participant, c, .accepted⟩ events := by
  intro h
  have hleft : ∀ h ∈ acceptedGuest, (Runs.run next h [.enter none, .abort .cancelled]).stage =
        .terminated ∧
      (Runs.run next h [.enter none, .abort .cancelled]).connection ∈
        (Runs.run next h [.enter none, .abort .cancelled]).server.registry.connections
          (Runs.run next h [.enter none, .abort .cancelled]).meeting.id := by decide +kernel
  have haccepted : acceptedGuest.isSome := by decide +kernel
  rw [acceptedGuest] at hleft haccepted
  cases hauth : authenticate (Runs.run Server.next {} guestJoins).db "10000000003" "s1" with
  | error e =>
    rw [hauth] at haccepted
    cases haccepted
  | ok rows =>
    obtain ⟨meeting, participant⟩ := rows
    rw [hauth] at hleft
    obtain ⟨hterminated, hregistered⟩ := hleft _ rfl
    have hleaves := h guestJoins _ _ meeting participant "c1" [.enter none, .abort .cancelled] hauth
    exact not_clean_of_registered hregistered (hleaves.last hterminated)

end SocketHandler

end ZoomClone
