/-
The message loop of one socket (`_message_loop`).

It reads text, decodes it, and answers whatever it cannot handle with an `error`
frame.  Only the decoding stands outside of that.

* `namesFields_handle` — no failure of a handler carries a detail that `error_frame`
  cannot take;
* `turn_eq` — so a turn never raises;
* `loop_survives_iff` — the loop survives a run, and answers all that it should, exactly
  when every text that reaches it can be decoded.
-/
import ZoomClone.Eviction

namespace ZoomClone

/-! ### Reporting a failure -/

/-- `error_frame(exc.code, exc.message, **exc.details)`: a detail under the name of a
parameter is a `TypeError`. -/
def AppError.reported (e : AppError) : Option Frame :=
  if e.details.any fun d => d.1 = "code" || d.1 = "message" then none else some e.frame

section Details

variable {db : Db} {r : RoomRegistry} {c : Connection} {inbound : Inbound}
  {id : String} {now : DateTime}

/-- The only detail is the field of a failed check. -/
def AppError.NamesField (e : AppError) : Prop := ∀ d ∈ e.details, d.1 = "field"

theorem AppError.NamesField.reported {e : AppError} (h : e.NamesField) :
    e.reported = some e.frame := by
  rw [AppError.reported, if_neg]
  rw [List.any_eq_true]
  rintro ⟨d, hd, hclash⟩
  rw [h d hd] at hclash
  revert hclash
  decide

theorem namesField_nil {e : AppError} (h : e.details = []) : e.NamesField := by
  intro d hd
  rw [h] at hd
  cases hd

/-- The failures of a call name a field at most. -/
def NamesFields {α : Type} (x : Service α) : Prop := ∀ e, x = .error (.app e) → e.NamesField

theorem NamesFields.bind {α β : Type} {x : Service α} {f : α → Service β} (hx : NamesFields x)
    (hf : ∀ a, NamesFields (f a)) : NamesFields (x >>= f) := by
  intro e he
  rcases Service.bind_eq_error.mp he with he | ⟨a, -, he⟩
  · exact hx e he
  · exact hf a e he

theorem namesFields_require {p : Prop} [Decidable p] {e : AppError} (h : e.NamesField) :
    NamesFields (Service.require p e) := by
  intro e' he
  obtain ⟨-, heq⟩ := Service.require_eq_error.mp he
  obtain rfl := Raised.app.inj heq
  exact h

theorem namesFields_getOrRaise {α : Type} {o : Option α} {e : AppError} (h : e.NamesField) :
    NamesFields (Service.getOrRaise o e) := by
  intro e' he
  obtain ⟨-, heq⟩ := Service.getOrRaise_eq_error.mp he
  obtain rfl := Raised.app.inj heq
  exact h

theorem namesFields_pure {α : Type} (a : α) : NamesFields (pure a : Service α) := nofun

theorem namesFields_actorRow {p : ParticipantId} : NamesFields (actorRow db p) :=
  namesFields_getOrRaise (namesField_nil rfl)

theorem namesFields_requireHost {p : Participant} : NamesFields (requireHost db p) :=
  (namesFields_getOrRaise (namesField_nil rfl)).bind fun _ =>
    (namesFields_require (namesField_nil rfl)).bind fun _ => namesFields_pure _

theorem namesFields_targetRow {p : Participant} {t : ParticipantId} :
    NamesFields (targetRow db p t) :=
  namesFields_getOrRaise (namesField_nil rfl)

theorem namesFields_requiredTarget : NamesFields (requiredTarget inbound) :=
  namesFields_getOrRaise (namesField_nil rfl)

theorem namesFields_postMessage {m : MeetingId} {p : ParticipantId} {body : String} :
    NamesFields (postMessage db m p body id now) := by
  refine (namesFields_require ?_).bind fun _ =>
    (namesFields_getOrRaise (namesField_nil rfl)).bind fun _ =>
    NamesFields.bind ?_ fun _ => namesFields_pure _
  · intro d hd
    rw [List.mem_singleton.mp hd]
  · intro e he
    rw [Db.insertMessage] at he
    split at he <;> cases he

/-- **What a failed handler reports.** -/
theorem namesFields_handle : NamesFields (handle db r c inbound id now) := by
  rw [handle]
  cases inbound.handler with
  | ping =>
    intro e he
    cases he
  | signal kind =>
    exact (namesFields_getOrRaise (namesField_nil rfl)).bind fun _ =>
      (namesFields_require (namesField_nil rfl)).bind fun _ => namesFields_pure _
  | stateUpdate =>
    exact NamesFields.bind
      ((namesFields_getOrRaise (namesField_nil rfl)).bind fun _ => namesFields_pure _)
      fun _ => namesFields_pure _
  | chatSend =>
    dsimp only
    rw [handleChatSend]
    split
    · exact namesFields_postMessage.bind fun _ => namesFields_pure _
    · rintro e ⟨⟩
      exact namesField_nil rfl
  | hostMute =>
    exact namesFields_requiredTarget.bind fun _ => namesFields_actorRow.bind fun _ =>
      NamesFields.bind
      (namesFields_requireHost.bind fun _ => namesFields_targetRow.bind fun _ => namesFields_pure _)
      fun _ => namesFields_pure _
  | hostMuteAll =>
    exact namesFields_actorRow.bind fun _ => NamesFields.bind
      (namesFields_requireHost.bind fun _ => namesFields_pure _) fun _ => namesFields_pure _
  | hostRemove =>
    exact namesFields_requiredTarget.bind fun _ => namesFields_actorRow.bind fun _ =>
      NamesFields.bind
      (namesFields_requireHost.bind fun _ => namesFields_targetRow.bind fun _ =>
        (namesFields_require (namesField_nil rfl)).bind fun _ => namesFields_pure _)
      fun _ => namesFields_pure _
  | hostEnd =>
    exact namesFields_actorRow.bind fun _ => NamesFields.bind
      (namesFields_requireHost.bind fun _ => namesFields_pure _) fun _ => namesFields_pure _

end Details

/-! ### One turn -/

/-- The body of the loop for a decoded message; `none` if an exception leaves it. -/
def turn (s : Server) (c : Connection) (message : Json) (id : String) (now : DateTime) :
    Option (Server × List Delivery) :=
  match readMessage message with
  | .error answer => some (s.send [.send c answer])
  | .ok inbound =>
    match handle s.db s.registry c inbound id now with
    | .ok (db, actions) => some (Server.send { s with db } actions)
    | .error (.app e) => e.reported.map fun answer => s.send [.send c answer]
    | .error _ =>
      some (s.send [.send c (errorFrame "INTERNAL_ERROR" "That action could not be completed.")])

/-- No exception leaves a turn. -/
theorem turn_eq (s : Server) (c : Connection) (message : Json) (id : String) (now : DateTime) :
    turn s c message id now = some (s.receive c message id now) := by
  rw [turn, Server.receive, onMessage]
  cases readMessage message with
  | error answer => rfl
  | ok inbound =>
    dsimp only
    cases hhandle : handle s.db s.registry c inbound id now with
    | ok result => rfl
    | error e =>
      cases e with
      | app e =>
        dsimp only
        rw [(namesFields_handle e hhandle).reported]
        rfl
      | _ => rfl

/-! ### The loop -/

/-- A known frame: an object whose `type` is in the dispatch table. -/
def Json.IsKnownFrame (message : Json) : Prop :=
  ∃ fields type, message = .obj fields ∧ Json.get fields "type" = .str type ∧ (handlers type).isSome

/-- What one text led to. -/
structure Turn where
  text : String
  id : String
  now : DateTime
  before : Server
  after : Server
  sent : List Delivery

/-- The loop of one socket, and the texts it has consumed.  `accepted` is cleared once
the server itself closes the socket: no text comes after that. -/
structure MessageLoop where
  server : Server
  connection : Connection
  accepted : Bool := true
  looping : Bool := true
  turns : List Turn := []

inductive LoopEvent where
  | text (text id : String) (now : DateTime)
  /-- Whatever else the server does in the meantime. -/
  | others (server : Server) (sent : List Delivery)

/-- The socket is among those the server closes here. -/
def Connection.isClosedBy (c : Connection) (sent : List Delivery) : Bool :=
  sent.any fun d => match d.item with
    | .close _ => d.connection = c
    | .frame _ => false

section Loop

variable (loads : String → Option Json)

/-- The text is no known frame, or its handler fails. -/
def Turn.Fails (c : Connection) (t : Turn) : Prop :=
  (∀ message, loads t.text = some message → ¬ message.IsKnownFrame) ∨
    ∃ message inbound e, loads t.text = some message ∧ readMessage message = .ok inbound ∧
      handle t.before.db t.before.registry c inbound t.id t.now = .error e

/-- One error frame is sent, to the socket, and the database stays as it was. -/
def Turn.Answered (c : Connection) (t : Turn) : Prop :=
  (∃ code message details, t.sent = [⟨c, .frame (errorFrame code message details)⟩]) ∧
    t.after.db = t.before.db

namespace MessageLoop

/-- A text that `loads` rejects raises out of the loop, and the socket is torn down. -/
def next (n : MessageLoop) : LoopEvent → MessageLoop
  | .text text id now =>
    if n.accepted ∧ n.looping then
      match (loads text).bind fun message => turn n.server n.connection message id now with
      | some (server, sent) =>
        { n with
          server
          accepted := !n.connection.isClosedBy sent
          turns := n.turns ++ [⟨text, id, now, n.server, server, sent⟩] }
      | none =>
        let (server, sent) := n.server.disconnect n.connection now
        { n with
          server
          looping := false
          turns := n.turns ++ [⟨text, id, now, n.server, server, sent⟩] }
    else n
  | .others server sent => { n with
    server, accepted := n.accepted && !n.connection.isClosedBy sent }

/-- No message has ended the loop, and it has answered all that it should. -/
structure Converses (n : MessageLoop) : Prop where
  looping : n.looping = true
  answered : ∀ t ∈ n.turns, t.Fails loads n.connection → t.Answered n.connection

/-- A text that reaches the loop is JSON. -/
def Decodes (n : MessageLoop) : LoopEvent → Prop
  | .text text _ _ => n.accepted → (loads text).isSome
  | .others _ _ => True

end MessageLoop

/-! ### Every turn is answered -/

variable {loads} {s : Server} {c : Connection} {message : Json} {text id : String} {now : DateTime}

/-- What is not dispatched is no known frame, and the reason is an `error` frame. -/
theorem readMessage_error {answer : Frame} (h : readMessage message = .error answer) :
    ¬ message.IsKnownFrame ∧ ∃ code text, answer = errorFrame code text := by
  cases message with
  | obj fields =>
    simp only [readMessage] at h
    cases htype : Json.get fields "type" with
    | str type =>
      simp only [htype] at h
      cases hhandler : handlers type with
      | none =>
        simp only [hhandler] at h
        refine ⟨?_, _, _, (Except.error.inj h).symm⟩
        rintro ⟨fields', type', ⟨⟩, htype', hknown⟩
        obtain rfl := Json.str.inj (htype.symm.trans htype')
        simp [hhandler] at hknown
      | some handler => simp [hhandler] at h
    | _ =>
      simp only [htype] at h
      refine ⟨?_, _, _, (Except.error.inj h).symm⟩
      rintro ⟨fields', type', ⟨⟩, htype', -⟩
      cases htype.symm.trans htype'
  | _ =>
    refine ⟨?_, _, _, (Except.error.inj h).symm⟩
    rintro ⟨fields', type', ⟨⟩, -⟩

theorem readMessage_ok {inbound : Inbound} (h : readMessage message = .ok inbound) :
    message.IsKnownFrame := by
  cases message with
  | obj fields =>
    simp only [readMessage] at h
    cases htype : Json.get fields "type" with
    | str type =>
      simp only [htype] at h
      cases hhandler : handlers type with
      | none => simp [hhandler] at h
      | some handler => exact ⟨fields, type, rfl, htype, by simp [hhandler]⟩
    | _ => simp [htype] at h
  | _ => cases h

theorem send_one (s : Server) (c : Connection) (f : Frame) :
    s.send [.send c f] = (s, [⟨c, .frame f⟩]) := rfl

/-- A turn that fails is answered. -/
theorem answered_of_fails {turn : Turn} (htext : loads turn.text = some message)
    (hturn : (turn.after, turn.sent) = turn.before.receive c message turn.id turn.now)
    (hfails : turn.Fails loads c) : turn.Answered c := by
  rw [Server.receive, onMessage] at hturn
  cases hread : readMessage message with
  | error answer =>
    obtain ⟨-, code, reason, rfl⟩ := readMessage_error hread
    simp only [hread, send_one, Prod.mk.injEq] at hturn
    exact ⟨⟨code, reason, [], hturn.2⟩, by rw [hturn.1]⟩
  | ok inbound =>
    cases hhandle : handle turn.before.db turn.before.registry c inbound turn.id turn.now with
    | error e =>
      simp only [hread, hhandle, send_one, Prod.mk.injEq] at hturn
      refine ⟨?_, by rw [hturn.1]⟩
      cases e with
      | app e => exact ⟨e.code, e.message, e.details, hturn.2⟩
      | _ => exact ⟨_, _, [], hturn.2⟩
    | ok result =>
      -- a known frame whose handler succeeds has not failed
      rcases hfails with hunknown | ⟨message', inbound', e, htext', hread', hhandle'⟩
      · exact absurd (readMessage_ok hread) (hunknown message htext)
      · obtain rfl := Option.some.inj (htext.symm.trans htext')
        obtain rfl := Except.ok.inj (hread.symm.trans hread')
        cases hhandle.symm.trans hhandle'

namespace MessageLoop

theorem converses_next {n : MessageLoop} (h : n.Converses loads) (e : LoopEvent) :
    (n.next loads e).Converses loads ↔ n.Decodes loads e := by
  cases e with
  | others server sent => exact ⟨fun _ => trivial, fun _ => ⟨h.looping, h.answered⟩⟩
  | text text id now =>
    by_cases haccepted : n.accepted = true
    · have hnext : n.next loads (.text text id now) =
          match (loads text).bind fun message => turn n.server n.connection message id now with
          | some (server, sent) =>
            { n with
              server
              accepted := !n.connection.isClosedBy sent
              turns := n.turns ++ [⟨text, id, now, n.server, server, sent⟩] }
          | none =>
            { n with
              server := (n.server.disconnect n.connection now).1
              looping := false
              turns :=
                n.turns ++ [⟨text, id, now, n.server, (n.server.disconnect n.connection now).1,
                (n.server.disconnect n.connection now).2⟩] } := if_pos ⟨haccepted, h.looping⟩
      cases hloads : loads text with
      | none =>
        simp only [hloads, Option.bind_none] at hnext
        refine iff_of_false ?_ ?_
        · intro hconverses
          rw [hnext] at hconverses
          cases hconverses.looping
        · intro hdecodes
          have := hdecodes haccepted
          simp [hloads] at this
      | some message =>
        simp only [hloads, Option.bind_some, turn_eq] at hnext
        refine iff_of_true ?_ fun _ => by simp [hloads]
        rw [hnext]
        refine ⟨h.looping, ?_⟩
        intro t ht hfails
        rcases List.mem_append.mp ht with ht | ht
        · exact h.answered t ht hfails
        · obtain rfl := List.mem_singleton.mp ht
          exact answered_of_fails hloads rfl hfails
    · have hnext : n.next loads (.text text id now) = n := if_neg fun hboth => haccepted hboth.1
      rw [hnext]
      exact iff_of_true h fun hacc => absurd hacc haccepted

end MessageLoop

end Loop

/-- **The loop survives a run, and answers all that it should, exactly if it can decode
every text that reaches it.** -/
theorem loop_survives_iff (loads : String → Option Json) (s : Server) (c : Connection)
    (events : List LoopEvent) :
    Runs.Always (MessageLoop.next loads) (MessageLoop.Converses loads)
    { server := s, connection := c } events ↔
      Runs.Guarded (MessageLoop.next loads) (MessageLoop.Decodes loads)
        { server := s, connection := c } events :=
  Runs.always_iff_guarded (I := fun _ => True) trivial ⟨rfl, fun _ ht => absurd ht List.not_mem_nil⟩
    (fun _ _ _ => trivial) (fun _ e _ h => MessageLoop.converses_next h e) events

/-- `json.loads` on the texts of the example. -/
def loadsNull (text : String) : Option Json := if text = "null" then some .null else none

/-- The host sends two texts; the second is not JSON. -/
def nullThenGarbage : List LoopEvent := [.text "null" "" 30, .text "hello" "" 40]

/-- The second text ends the loop. -/
theorem garbage_ends_the_loop : ¬ ∀ (loads : String → Option Json) (s : Server) (c : Connection)
    (events : List LoopEvent), Runs.Always (MessageLoop.next loads) (MessageLoop.Converses loads)
      { server := s, connection := c } events := by
  intro h
  have hlooping :=
    (h loadsNull (Runs.run Server.next {} hostAndGuest) hostSocket nullThenGarbage).last.looping
  revert hlooping
  decide +kernel

end ZoomClone
