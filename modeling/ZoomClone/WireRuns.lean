/-
Runs of the server on texts.

What reaches a socket is a text, and so is what leaves it.  A text that `json.loads` does
not take ends the loop of its socket; any other is a message.  Whatever a run puts on a
socket is made of the rows of the database, of the ids of the sockets and of payloads that
were read from a text, so it can be written, and the browser reads it as it was meant.

* `timed_apply` — the durations that a snapshot shows stay in range;
* `sound_step` — every frame that an event sends is sound;
* `texts_refine` — so browsers that read texts do what they would do with the frames;
* `signals_verbatim` — and a signal is read at the other end as it was sent.
-/
import ZoomClone.Authorization
import ZoomClone.MeetingEdits
import ZoomClone.MessageLoop
import ZoomClone.Scripts
import ZoomClone.WireFormat

namespace ZoomClone

/-! ### Durations -/

/-- A duration that the checks let through. -/
def Meeting.Timed (m : Meeting) : Prop :=
  minDurationMinutes ≤ m.durationMinutes ∧ m.durationMinutes ≤ maxDurationMinutes

def Db.Timed (db : Db) : Prop := ∀ m ∈ db.meetings, m.Timed

section Durations

variable {db db' : Db} {op : Operation} {host : User} {now : DateTime} {v : MeetingView}

theorem Db.Timed.of_eq (h : db.Timed) (hmeetings : db'.meetings = db.meetings) : db'.Timed := by
  intro m hm
  rw [hmeetings] at hm
  exact h m hm

/-- An update of one row, with a duration that is in range again. -/
theorem Db.Timed.update (h : db.Timed) {id : MeetingId} {f : Meeting → Meeting}
    (hf : ∀ m, (f m).id = m.id)
    (hrow : ∀ m, m.Timed → (f m).Timed)
    (hmeetings : db'.meetings = (db.updateMeetingRow id f hf).meetings) :
    db'.Timed := by
  intro m hm
  rw [hmeetings] at hm
  obtain ⟨n, hn, rfl⟩ := Db.mem_updateMeetingRow.mp hm
  split
  · exact hrow n (h n hn)
  · exact h n hn

theorem createMeeting_timed {req : MeetingCreate} {draws : CreateDraws} (h : db.Timed)
    (hcreate : createMeeting db host req draws now = .ok (v, db')) : db'.Timed := by
  simp only [createMeeting, Service.bind_eq_ok, Service.pure_eq_ok] at hcreate
  obtain ⟨topic, -, start, -, ⟨duration, clamped⟩, hduration, _, -, ⟨row, db₁⟩, hrow, db₂,
    hinv, hresult⟩ := hcreate
  obtain ⟨-, rfl⟩ := Prod.mk.inj hresult
  obtain ⟨⟨k, number, -, rfl⟩, hins⟩ := insertNewMeeting_ok hrow
  obtain ⟨hid, rfl, -⟩ := Db.insertMeeting_ok hins
  -- the invitees write no meeting, so a row is an old one or the new one
  intro m hm
  rw [(insertInvitees_ok hinv).meetings] at hm
  rcases (Keyed.mem_insert (h := hid)).mp hm with hm | rfl
  · exact h m hm
  · exact (valid_duration hduration).1

theorem updateMeeting_timed {meetingNumber : String} {changes : MeetingChanges} (h : db.Timed)
    (hupdate : updateMeeting db meetingNumber host changes now = .ok (v, db')) : db'.Timed := by
  obtain ⟨m, topic, start, duration, -, -, hchecked, -, rfl⟩ := updateMeeting_checked hupdate
  refine h.update (fun m => m.edit_id ..) ?_ rfl
  intro n hn
  simp only [validateChanges, Service.bind_eq_ok, Service.pure_eq_ok, Prod.mk.injEq] at hchecked
  obtain ⟨_, -, _, -, resolved, hduration, -, -, -, -, rfl⟩ := hchecked
  -- a request without a duration keeps the stored one
  rcases mapM_cases hduration with ⟨-, rfl⟩ | ⟨minutes, ⟨stored, clamped⟩, -, hstored, rfl⟩
  · exact hn
  · exact (valid_duration hstored).1

/-- **Durations stay in range.**  Only a create and an edit write one. -/
theorem timed_apply (h : db.Timed) (op : Operation) : (db.apply op).Timed := by
  cases hrun : runOperation db op with
  | error e =>
    rw [Db.apply, hrun]
    exact h
  | ok db' =>
    rw [apply_of_ok hrun]
    cases runOperation_commits hrun with
    | signInGuest hcall => exact h.of_eq (createGuest_ok hcall).meetings
    | signInGoogle hcall => exact h.of_eq (upsertGoogleUser_ok hcall).meetings
    | updateProfile huser hcall => exact h.of_eq (updateProfile_ok hcall).meetings
    | createMeeting hhost hcall => exact createMeeting_timed h hcall
    | updateMeeting =>
      obtain ⟨host, -, hcall⟩ := Service.bind_eq_ok.mp hrun
      obtain ⟨v, hcall⟩ := Service.commit_eq_ok.mp hcall
      exact updateMeeting_timed h hcall
    | cancelMeeting => exact h.update Meeting.cancel_id (fun _ hm => hm) rfl
    | @startMeeting _ _ now => exact h.update (Meeting.goLive_id · now) (fun _ hm => hm) rfl
    | @endMeeting _ _ now => exact h.update (Meeting.finish_id · now) (fun _ hm => hm) rfl
    | @hostEndMeeting _ now => exact h.update (Meeting.finish_id · now) (fun _ hm => hm) rfl
    | @joinMeeting _ _ _ _ now _ _ user m huser hcheck hcommit =>
      -- the first to join a scheduled meeting starts it
      obtain ⟨-, -, hmeetings, -⟩ := commitJoin_ok hcommit
      rw [Db.welcomeHost] at hmeetings
      split at hmeetings
      · exact h.update (Meeting.goLive_id · now) (fun _ hm => hm) hmeetings
      · exact h.of_eq hmeetings
    | postMessage hcall =>
      obtain ⟨-, p, -, -, hins, -⟩ := postMessage_eq_ok.mp hcall
      exact h.of_eq (Db.insertMessage_ok hins).meetings
    | _ => exact h.of_eq rfl

end Durations

/-- What the server shows of its rows is sound. -/
structure Server.Shows (s : Server) : Prop where
  valid : s.Valid
  timed : s.db.Timed

theorem Server.Shows.next {s : Server} (h : s.Shows) (e : Event) : (s.next e).Shows where
  valid := h.valid.next e
  timed := by
    rcases s.next_operation e with hdb | ⟨op, -, hdb⟩
    · rw [hdb]
      exact h.timed
    · rw [hdb]
      exact timed_apply h.timed op

theorem Server.shows_init : Server.Shows {} where
  valid := Server.valid_init
  timed := fun m hm => absurd hm (Keyed.not_mem_empty m)

/-- The snapshot of a meeting that there is. -/
theorem sound_roomSnapshot {db : Db} (hvalid : db.Valid) {m : Meeting}
    (hm : m.Timed) (p : Participant) :
    (roomSnapshot db m p).Sound where
  duration := by
    obtain ⟨hlow, hhigh⟩ : minDurationMinutes ≤ m.durationMinutes ∧
      m.durationMinutes ≤ maxDurationMinutes := hm
    show m.durationMinutes.natAbs ≤ maxSafeInteger
    simp only [minDurationMinutes, maxDurationMinutes, maxSafeInteger] at hlow hhigh ⊢
    omega
  count := (hvalid.capped m.id).trans (by decide)
  unclamped := rfl

/-! ### Failures -/

section Failures

variable {α β : Type} {P : AppError → Prop}

/-- The failures of a call satisfy `P`. -/
def Raises (P : AppError → Prop) (x : Service α) : Prop := ∀ e, x = .error (.app e) → P e

theorem Raises.bind {x : Service α} {f : α → Service β} (hx : Raises P x)
    (hf : ∀ a, Raises P (f a)) :
    Raises P (x >>= f) := by
  intro e he
  rcases Service.bind_eq_error.mp he with he | ⟨a, -, he⟩
  · exact hx e he
  · exact hf a e he

theorem raises_pure (a : α) : Raises P (pure a : Service α) := fun _ he => by cases he

theorem raises_require {p : Prop} [Decidable p] {e : AppError} (h : P e) :
    Raises P (Service.require p e) := by
  intro e' he
  obtain ⟨-, heq⟩ := Service.require_eq_error.mp he
  exact Raised.app.inj heq ▸ h

theorem raises_getOrRaise {o : Option α} {e : AppError} (h : P e) :
    Raises P (Service.getOrRaise o e) := by
  intro e' he
  obtain ⟨-, heq⟩ := Service.getOrRaise_eq_error.mp he
  exact Raised.app.inj heq ▸ h

/-- The details of a failure can be written. -/
def AppError.Plain (e : AppError) : Prop := (Json.obj e.details).Plain

theorem AppError.plain_nil {e : AppError} (h : e.details = []) : e.Plain := by
  rw [AppError.Plain, h]
  exact ⟨List.nodup_nil, trivial⟩

variable {db : Db} {r : RoomRegistry} {c : Connection} {inbound : Inbound}
  {id : String} {now : DateTime}

theorem raises_actorRow (p : ParticipantId) : Raises AppError.Plain (actorRow db p) :=
  raises_getOrRaise (AppError.plain_nil rfl)

theorem raises_requireHost (p : Participant) : Raises AppError.Plain (requireHost db p) := by
  refine (raises_getOrRaise (AppError.plain_nil rfl)).bind ?_
  intro m
  refine (raises_require (AppError.plain_nil rfl)).bind ?_
  intro _
  exact raises_pure m

theorem raises_targetRow (p : Participant) (t : ParticipantId) :
    Raises AppError.Plain (targetRow db p t) :=
  raises_getOrRaise (AppError.plain_nil rfl)

theorem raises_requiredTarget : Raises AppError.Plain (requiredTarget inbound) :=
  raises_getOrRaise (AppError.plain_nil rfl)

theorem raises_insertMessage (message : ChatMessage) : Raises P (db.insertMessage message) := by
  intro e he
  rw [Db.insertMessage] at he
  split at he <;> cases he

theorem raises_postMessage (m : MeetingId) (p : ParticipantId) (body : String) :
    Raises AppError.Plain (postMessage db m p body id now) := by
  refine (raises_require ⟨List.nodup_singleton _, trivial, trivial⟩).bind ?_
  intro _
  refine (raises_getOrRaise (AppError.plain_nil rfl)).bind ?_
  intro participant
  refine (raises_insertMessage _).bind ?_
  intro db
  exact raises_pure _

theorem raises_hostMute (actor : Participant) (t : ParticipantId) :
    Raises AppError.Plain (hostMute db actor t) := by
  refine (raises_requireHost actor).bind ?_
  intro m
  refine (raises_targetRow actor t).bind ?_
  intro target
  exact raises_pure _

theorem raises_hostMuteAll (actor : Participant) :
    Raises AppError.Plain (hostMuteAll db actor) := by
  refine (raises_requireHost actor).bind ?_
  intro m
  exact raises_pure _

theorem raises_hostRemove (actor : Participant) (t : ParticipantId) :
    Raises AppError.Plain (hostRemove db actor t now) := by
  refine (raises_requireHost actor).bind ?_
  intro m
  refine (raises_targetRow actor t).bind ?_
  intro target
  refine (raises_require (AppError.plain_nil rfl)).bind ?_
  intro _
  exact raises_pure _

theorem raises_hostEndMeeting (actor : Participant) :
    Raises AppError.Plain (hostEndMeeting db actor now) := by
  refine (raises_requireHost actor).bind ?_
  intro m
  exact raises_pure _

theorem raises_applyStateUpdate (p : ParticipantId) (changes : MediaPatch) :
    Raises AppError.Plain (applyStateUpdate db p changes) := by
  refine (raises_getOrRaise (AppError.plain_nil rfl)).bind ?_
  intro row
  exact raises_pure _

/-- **What a failed handler reports can be written.** -/
theorem raises_handle : Raises AppError.Plain (handle db r c inbound id now) := by
  rw [handle]
  cases inbound.handler with
  | ping =>
    intro e he
    cases he
  | signal kind =>
    refine (raises_getOrRaise (AppError.plain_nil rfl)).bind ?_
    intro target
    refine (raises_require (AppError.plain_nil rfl)).bind ?_
    intro _
    exact raises_pure _
  | stateUpdate =>
    refine (raises_applyStateUpdate _ _).bind ?_
    intro updated
    exact raises_pure _
  | chatSend =>
    -- a body that is no text is refused before anything is stored
    dsimp only
    rw [handleChatSend]
    split
    · refine (raises_postMessage _ _ _).bind ?_
      intro saved
      exact raises_pure _
    · intro e he
      cases he
      exact AppError.plain_nil rfl
  | hostMute =>
    refine raises_requiredTarget.bind ?_
    intro target
    refine (raises_actorRow _).bind ?_
    intro actor
    refine (raises_hostMute actor target).bind ?_
    intro updated
    exact raises_pure _
  | hostMuteAll =>
    refine (raises_actorRow _).bind ?_
    intro actor
    refine (raises_hostMuteAll actor).bind ?_
    intro rows
    exact raises_pure _
  | hostRemove =>
    refine raises_requiredTarget.bind ?_
    intro target
    refine (raises_actorRow _).bind ?_
    intro actor
    refine (raises_hostRemove actor target).bind ?_
    intro removed
    exact raises_pure _
  | hostEnd =>
    refine (raises_actorRow _).bind ?_
    intro actor
    refine (raises_hostEndMeeting actor).bind ?_
    intro ended
    exact raises_pure _

end Failures

/-! ### What an event sends -/

section Sends

variable {float : PyFloat} {db db' : Db} {r : RoomRegistry} {c : Connection}
  {message : Json} {inbound : Inbound}
  {id : String} {now : DateTime} {actions : List Action} {s : Server}

/-- A frame that can be written and is read as it was meant. -/
def Frame.Sound (float : PyFloat) (f : Frame) : Prop := f.body.Sound float

def Action.Sound (float : PyFloat) (a : Action) : Prop := ∀ f ∈ a.frame, f.Sound float

/-- A handler gets the `payload` of the message, or an empty one. -/
theorem payload_of_readMessage (h : readMessage message = .ok inbound) : inbound.payload = [] ∨
    ∃ fields, message = .obj fields ∧ Json.get fields "payload" = .obj inbound.payload := by
  cases message with
  | obj fields =>
    cases hpayload : Json.get fields "payload" with
    | obj payload =>
      simp only [readMessage, hpayload] at h
      split at h
      · split at h
        · obtain rfl := Except.ok.inj h
          exact .inr ⟨fields, rfl, hpayload⟩
        · cases h
      · cases h
    | _ =>
      simp only [readMessage, hpayload] at h
      split at h
      · split at h
        · obtain rfl := Except.ok.inj h
          exact .inl rfl
        · cases h
      · cases h
  | _ => cases h

theorem decoded_payload (h : message.Decoded float) (hread : readMessage message = .ok inbound) :
    (Json.obj inbound.payload).Decoded float := by
  rcases payload_of_readMessage hread with hempty | ⟨fields, rfl, hpayload⟩
  · rw [hempty]
    exact ⟨List.nodup_nil, trivial⟩
  · rw [← hpayload]
    exact Json.WellFormed.get h "payload"

theorem sound_of_readMessage {answer : Frame} (h : readMessage message = .error answer) :
    answer.Sound float := by
  obtain ⟨-, code, text, rfl⟩ := readMessage_error h
  exact ⟨List.nodup_nil, trivial⟩

/-- A failure is answered with a frame that can be written. -/
theorem sound_failureFrame {e : Raised} (h : ∀ e', e = .app e' → e'.Plain) :
    (failureFrame e).Sound float := by
  cases e with
  | app e' => exact h e' rfl
  | _ => exact ⟨List.nodup_nil, trivial⟩

/-- What a handler sends is sound; only a signal carries something that was read. -/
theorem sound_handle (hpayload : (Json.obj inbound.payload).Decoded float)
    (h : handle db r c inbound id now = .ok (db', actions)) : ∀ a ∈ actions, a.Sound float := by
  unfold handle at h
  split at h
  -- in the order of the handlers: `ping`, the signals, `state.update`, `chat.send`, `host.*`
  · obtain ⟨-, rfl⟩ := Prod.mk.inj (Except.ok.inj h)
    simp [Action.Sound, Action.frame, Frame.Sound, FrameBody.Sound]
  · obtain ⟨t, -, -, -, rfl⟩ := handleSignal_eq_ok.mp h
    intro a ha f hf
    rw [List.mem_singleton.mp ha] at hf
    obtain rfl := Option.some.inj hf
    -- the payload of the sender, less its address
    exact Json.WellFormed.filter hpayload _
  · obtain ⟨v, -, rfl⟩ := handleStateUpdate_eq_ok.mp h
    simp [Action.Sound, Action.frame, Frame.Sound, FrameBody.Sound, peerUpdated]
  · obtain ⟨body, v, -, -, rfl⟩ := handleChatSend_eq_ok.mp h
    simp [Action.Sound, Action.frame, Frame.Sound, FrameBody.Sound, chatMessage]
  · obtain ⟨t, actor, v, -, -, -, rfl⟩ := handleHostMute_eq_ok.mp h
    simp [Action.Sound, Action.frame, Frame.Sound, FrameBody.Sound, mutedYou, peerUpdated]
  · obtain ⟨actor, vs, -, -, rfl⟩ := handleHostMuteAll_eq_ok.mp h
    intro a ha
    obtain ⟨v, -, ha⟩ := List.mem_flatMap.mp ha
    simp only [List.mem_cons, List.not_mem_nil, or_false] at ha
    rcases ha with rfl | rfl <;>
      simp [Action.Sound, Action.frame, Frame.Sound, FrameBody.Sound, mutedYou, peerUpdated]
  · obtain ⟨t, actor, v, -, -, -, rfl⟩ := handleHostRemove_eq_ok.mp h
    simp [Action.Sound, Action.frame, Frame.Sound, FrameBody.Sound, removal, peerLeft]
  · obtain ⟨actor, v, -, -, rfl⟩ := handleHostEnd_eq_ok.mp h
    simp [Action.Sound, Action.frame, Frame.Sound, FrameBody.Sound, ending]

theorem sound_onMessage (h : message.Decoded float) :
    ∀ a ∈ (onMessage db r c message id now).2, a.Sound float := by
  unfold onMessage
  split
  · next answer hread =>
    intro a ha f hf
    rw [List.mem_singleton.mp ha] at hf
    obtain rfl := Option.some.inj hf
    exact sound_of_readMessage hread
  · next inbound hread =>
    split
    · next result hhandle => exact sound_handle (decoded_payload h hread) hhandle
    · next e herror =>
      intro a ha f hf
      rw [List.mem_singleton.mp ha] at hf
      obtain rfl := Option.some.inj hf
      refine sound_failureFrame ?_
      rintro e' rfl
      exact raises_handle e' herror

/-- What an action puts on a socket is its frame, or a close. -/
theorem item_of_perform {a : Action} {d : Delivery} (h : d ∈ (perform r a).2) :
    (∃ f ∈ a.frame, d.item = .frame f) ∨ ∃ code, d.item = .close code := by
  cases a with
  | send e f =>
    obtain rfl := List.mem_singleton.mp h
    exact .inl ⟨f, rfl, rfl⟩
  | sendToParticipant m p f =>
    obtain ⟨e, -, rfl⟩ := List.mem_map.mp h
    exact .inl ⟨f, rfl, rfl⟩
  | broadcast m f exclude =>
    obtain ⟨e, -, rfl⟩ := List.mem_map.mp h
    exact .inl ⟨f, rfl, rfl⟩
  | closeConnection e code =>
    obtain rfl := List.mem_singleton.mp h
    exact .inr ⟨code, rfl⟩
  | closeParticipant m p code =>
    rw [perform] at h
    split at h
    · cases h
    · obtain rfl := List.mem_singleton.mp h
      exact .inr ⟨code, rfl⟩
  | closePeers m exclude code =>
    obtain ⟨e, -, rfl⟩ := List.mem_map.mp h
    exact .inr ⟨code, rfl⟩

/-- Every frame among the deliveries is sound. -/
def AllSound (float : PyFloat) (sent : List Delivery) : Prop :=
  ∀ d ∈ sent, ∀ f, d.item = .frame f → f.Sound float

theorem AllSound.append {sent rest : List Delivery} (h : AllSound float sent)
    (hrest : AllSound float rest) :
    AllSound float (sent ++ rest) := by
  intro d hd
  rcases List.mem_append.mp hd with hd | hd
  · exact h d hd
  · exact hrest d hd

theorem allSound_performAll (h : ∀ a ∈ actions, a.Sound float) :
    AllSound float (performAll r actions).2 := by
  induction actions generalizing r with
  | nil => exact fun d hd => absurd hd List.not_mem_nil
  | cons a actions ih =>
    obtain ⟨ha, hactions⟩ := List.forall_mem_cons.mp h
    refine AllSound.append ?_ (ih hactions)
    intro d hd f hf
    rcases item_of_perform hd with ⟨g, hg, hitem⟩ | ⟨code, hitem⟩
    · obtain rfl := WireItem.frame.inj (hf.symm.trans hitem)
      exact ha f hg
    · cases hf.symm.trans hitem

/-- What a socket is sent while it is accepted, and what is left to send. -/
theorem sound_acceptSocket (hvalid : s.db.Valid) {m : Meeting} (hm : m.Timed)
    (p : Participant) (d : ConnectionId) :
    AllSound float (acceptSocket s m p d).2.1 ∧
      ∀ actions, (acceptSocket s m p d).2.2 = some actions → ∀ a ∈ actions, a.Sound float := by
  rw [acceptSocket]
  split
  -- a full room: the error that names its size, and a close
  · next e hfull =>
    refine ⟨?_, fun actions hactions => by cases hactions⟩
    obtain ⟨-, rfl⟩ := Service.require_eq_error.mp hfull
    intro d hd f hf
    simp only [List.mem_cons, List.not_mem_nil, or_false] at hd
    rcases hd with rfl | rfl
    · obtain rfl := WireItem.frame.inj hf
      exact ⟨List.nodup_singleton _,
        (by decide : (maxMeshParticipants : Int).natAbs ≤ maxSafeInteger), trivial⟩
    · cases hf
  -- else the snapshot is read after the row was bound to the socket
  · have hbound := valid_apply hvalid (.bindConnection p.id d)
    constructor
    · intro d hd f hf
      obtain rfl := List.mem_singleton.mp hd
      obtain rfl := WireItem.frame.inj hf
      exact sound_roomSnapshot hbound hm _
    · rintro actions hactions a ha f hf
      obtain rfl := Option.some.inj hactions
      rw [List.mem_singleton.mp ha] at hf
      obtain rfl := Option.some.inj hf
      trivial

theorem sound_connect (h : s.Shows) (number : String) (sessionId : SessionId) (d : ConnectionId) :
    AllSound float (s.connect number sessionId d).2 := by
  rw [Server.connect]
  split
  · exact fun d hd => absurd hd List.not_mem_nil
  · next m p hauth =>
    obtain ⟨-, hm, -⟩ := authenticate_eq_ok.mp hauth
    have haccepted : AllSound float _ ∧ _ :=
      sound_acceptSocket h.valid.db (h.timed m (getMeeting_mem hm)) p d
    obtain ⟨hsent, hleft⟩ := haccepted
    split
    · next s' sent haccept =>
      rw [haccept] at hsent
      exact hsent
    · next s' sent actions haccept =>
      rw [haccept] at hsent hleft
      exact hsent.append (allSound_performAll (hleft actions rfl))

/-- A message of the event was read from a text. -/
def Event.Decoded (float : PyFloat) : Event → Prop
  | .message _ message _ _ => message.Decoded float
  | _ => True

/-- **What an event sends is sound.** -/
theorem sound_step (h : s.Shows) {e : Event} (he : e.Decoded float) :
    AllSound float (s.step e).2 := by
  have hnothing : AllSound float [] := fun d hd => absurd hd List.not_mem_nil
  cases e with
  | request r => exact hnothing
  | connect number sessionId d =>
    rw [Server.step]
    split
    · exact hnothing
    · exact sound_connect h number sessionId d
  | message c message id now =>
    rw [Server.step]
    split
    · exact allSound_performAll (sound_onMessage he)
    · exact hnothing
  | disconnect c now =>
    rw [Server.step]
    split
    · refine allSound_performAll ?_
      show ∀ a ∈ (if (releaseConnection s.db c.participantId c.connectionId now).1.isSome then
        [peerLeft c c.participantId] else []), a.Sound float
      split
      · intro a ha f hf
        rw [List.mem_singleton.mp ha] at hf
        obtain rfl := Option.some.inj hf
        trivial
      · exact fun a ha => absurd ha List.not_mem_nil
    · exact hnothing

end Sends

/-! ### Texts -/

/-- An event as it comes in: a message is a text. -/
inductive TextEvent where
  | request (r : Request)
  | connect (meetingNumber : String) (sessionId : SessionId) (connectionId : ConnectionId)
  | text (connection : Connection) (text : List Char) (id : String) (now : DateTime)
  | disconnect (connection : Connection) (now : DateTime)

/-- What the server makes of it. -/
def TextEvent.event (float : PyFloat) : TextEvent → Event
  | .request r => .request r
  | .connect meetingNumber sessionId connectionId => .connect meetingNumber sessionId connectionId
  | .disconnect connection now => .disconnect connection now
  | .text connection received id now =>
    match loads float received with
    | some message => .message connection message id now
    -- the error leaves the loop, and the socket is torn down
    | none => .disconnect connection now

theorem TextEvent.decoded_event (float : PyFloat) (e : TextEvent) :
    (e.event float).Decoded float := by
  cases e with
  | text connection text id now =>
    rw [event]
    split
    · next message hloads => exact decoded_of_loads hloads
    · trivial
  | _ => trivial

/-- A frame of the browser arrives as it was sent. -/
theorem TextEvent.event_stringify {float : PyFloat} {f : OutboundFrame}
    (h : (Json.obj f.payload).Plain)
    (c : Connection) (id : String) (now : DateTime) :
    event float (.text c (stringify f.json) id now) = .message c f.json id now := by
  have hrecipient : ((f.recipient.map Json.str).getD .null).Plain := by
    cases f.recipient <;> trivial
  have hplain : f.json.Plain := by
    simp [OutboundFrame.json, Json.WellFormed, Json.FieldsWellFormed, hrecipient]
    exact h
  rw [event, loads_stringify float hplain]

/-! ### The server and the browsers -/

/-- The server, the browsers behind its sockets, and what is on its way to them. -/
structure Wired (α : Type) where
  server : Server := {}
  rooms : ConnectionId → MeetingRoom
  wires : ConnectionId → List α := fun _ => []
  effects : ConnectionId → List Effect := fun _ => []

inductive WiredEvent where
  /-- `now_ms()` of a frame is its stamp. -/
  | server (e : TextEvent) (stamp : Delivery → ℕ)
  | arrive (c : ConnectionId)
  /-- Whatever else the browser does. -/
  | act (c : ConnectionId) (act : MeetingRoom → MeetingRoom × List Effect)

namespace Wired

variable {α : Type} (float : PyFloat) (write : Frame → ℕ → α)
  (read : MeetingRoom → α → MeetingRoom × List Effect)

/-- What the socket is sent. -/
def written (c : ConnectionId) (stamp : Delivery → ℕ) (sent : List Delivery) : List α :=
  sent.filterMap fun d =>
    match d.item with
    | .frame f => if d.connection.connectionId = c then some (write f (stamp d)) else none
    | .close _ => none

/-- The browser goes on to the next state. -/
def goOn (n : Wired α) (c : ConnectionId) (after : MeetingRoom × List Effect) : Wired α :=
  { n with
    rooms := Function.update n.rooms c after.1
    effects := Function.update n.effects c (n.effects c ++ after.2) }

def next (n : Wired α) : WiredEvent → Wired α
  | .server e stamp =>
    { n with
      server := (n.server.step (e.event float)).1
      wires := fun c => n.wires c ++ written write c stamp (n.server.step (e.event float)).2 }
  | .arrive c =>
    match n.wires c with
    | [] => n
    | item :: rest =>
      { n.goOn c (read (n.rooms c) item) with wires := Function.update n.wires c rest }
  | .act c act => n.goOn c (act (n.rooms c))

end Wired

/-- The wires carry texts. -/
def nextText (float : PyFloat) : Wired (List Char) → WiredEvent → Wired (List Char) :=
  Wired.next float encodeFrame MeetingRoom.handleText

/-- The browser handles the frame itself, unless it is no JSON. -/
def handleFinite (room : MeetingRoom) (f : Frame) : MeetingRoom × List Effect :=
  if f.isFinite then room.handleFrame f else (room, [])

/-- The wires carry frames. -/
def nextFrame (float : PyFloat) : Wired Frame → WiredEvent → Wired Frame :=
  Wired.next float (fun f _ => f) handleFinite

/-- The text is one of the frame, which can be read. -/
def Spells (float : PyFloat) (text : List Char) (f : Frame) : Prop :=
  (∃ ts, text = encodeFrame f ts) ∧ f.Sound float

/-- The two systems differ in nothing but what is on the wires. -/
structure Refines (float : PyFloat) (t : Wired (List Char)) (n : Wired Frame) : Prop where
  server : t.server = n.server
  shows : n.server.Shows
  rooms : t.rooms = n.rooms
  effects : t.effects = n.effects
  wires : ∀ c, List.Forall₂ (Spells float) (t.wires c) (n.wires c)

section Refinement

variable {float : PyFloat} {t : Wired (List Char)} {n : Wired Frame}

/-- Sound frames are written as texts of them. -/
theorem spells_written {sent : List Delivery} (h : AllSound float sent)
    (c : ConnectionId) (stamp : Delivery → ℕ) :
    List.Forall₂ (Spells float) (Wired.written encodeFrame c stamp sent)
    (Wired.written (fun f _ => f) c stamp sent) := by
  induction sent with
  | nil => exact .nil
  | cons d sent ih =>
    obtain ⟨hd, hsent⟩ := List.forall_mem_cons.mp h
    have ih := ih hsent
    rw [Wired.written, Wired.written, List.filterMap_cons, List.filterMap_cons]
    cases hitem : d.item with
    | close code => exact ih
    | frame f =>
      by_cases hc : d.connection.connectionId = c
      · simp only [hc, if_true]
        exact .cons ⟨⟨stamp d, rfl⟩, hd f hitem⟩ ih
      · simp only [hc, if_false]
        exact ih

theorem sound_of_spells {texts : List (List Char)} {frames : List Frame}
    (h : List.Forall₂ (Spells float) texts frames) :
    ∀ f ∈ frames, f.Sound float := by
  induction h with
  | nil => exact fun f hf => absurd hf List.not_mem_nil
  | cons hspells _ ih => exact List.forall_mem_cons.mpr ⟨hspells.2, ih⟩

theorem Refines.goOn (h : Refines float t n) (c : ConnectionId)
    (after : MeetingRoom × List Effect) :
    Refines float (t.goOn c after) (n.goOn c after) where
  server := h.server
  shows := h.shows
  rooms := by
    show Function.update t.rooms c after.1 = Function.update n.rooms c after.1
    rw [h.rooms]
  effects := by
    show Function.update t.effects c (t.effects c ++ after.2) =
      Function.update n.effects c (n.effects c ++ after.2)
    rw [h.effects]
  wires := h.wires

theorem Refines.next (h : Refines float t n) (e : WiredEvent) :
    Refines float (nextText float t e) (nextFrame float n e) := by
  cases e with
  | server e stamp =>
    -- the same step on both sides; its frames are sound, so each text spells its frame
    have hsound := sound_step h.shows (e.decoded_event float)
    refine ⟨?_, h.shows.next _, h.rooms, h.effects, ?_⟩
    · show (t.server.step _).1 = (n.server.step _).1
      rw [h.server]
    · intro c
      show List.Forall₂ (Spells float)
        (t.wires c ++ Wired.written encodeFrame c stamp (t.server.step _).2)
        (n.wires c ++ Wired.written (fun f _ => f) c stamp (n.server.step _).2)
      rw [h.server]
      exact List.rel_append (h.wires c) (spells_written hsound c stamp)
  | act c act =>
    have hgoOn := h.goOn c (act (n.rooms c))
    rw [← h.rooms] at hgoOn
    rw [nextText, nextFrame, Wired.next, Wired.next, ← h.rooms]
    exact hgoOn
  | arrive c =>
    have hwires := h.wires c
    rw [nextText, nextFrame, Wired.next, Wired.next]
    cases htexts : t.wires c with
    | nil =>
      rw [htexts] at hwires
      rw [List.forall₂_nil_left_iff.mp hwires]
      exact h
    | cons text texts =>
      -- the text at the head of the wire is handled as the frame it spells
      rw [htexts] at hwires
      obtain ⟨f, frames, ⟨⟨ts, rfl⟩, hf⟩, hrest, hframes⟩ := List.forall₂_cons_left_iff.mp hwires
      rw [hframes]
      dsimp only
      rw [h.rooms, handleText_encodeFrame hf]
      have hgoOn := h.goOn c (handleFinite (n.rooms c) f)
      refine ⟨hgoOn.server, hgoOn.shows, hgoOn.rooms, hgoOn.effects, ?_⟩
      intro d
      by_cases hd : d = c
      · rw [hd]
        simpa using hrest
      · simpa [hd] using h.wires d

theorem refines_run (rooms : ConnectionId → MeetingRoom) (events : List WiredEvent) :
    Refines float (Runs.run (nextText float) { rooms } events)
    (Runs.run (nextFrame float) { rooms } events) := by
  have hinit : Refines float { rooms } { rooms } :=
    ⟨rfl, Server.shows_init, rfl, rfl, fun _ => .nil⟩
  -- by induction on the events, from any two systems that correspond
  generalize ({ rooms } : Wired (List Char)) = t at hinit ⊢
  generalize ({ rooms } : Wired Frame) = n at hinit ⊢
  induction events generalizing t n with
  | nil => exact hinit
  | cons e events ih => exact ih _ _ (hinit.next e)

end Refinement

/-- A frame that a browser may drop. -/
def Frame.IsSignal (f : Frame) : Prop := ∃ kind payload, f.body = .signal kind payload

/-- What is on its way will be handled, unless it is a signal. -/
def Wired.DropsSignalsOnly (n : Wired Frame) : Prop := ∀ c, ∀ f ∈ n.wires c, f.isFinite ∨ f.IsSignal

/-! ### Signals -/

/-- `signal.offer`, `signal.answer` or `signal.ice`, for one peer. -/
def signalTo (kind : SignalKind) (target : ParticipantId) (payload : JsonObj) : OutboundFrame where
  type := "signal." ++ kind.name
  recipient := some target
  payload := payload

/-- The socket of a delivery, and what its browser makes of the text. -/
def Delivery.received (d : Delivery) (ts : ℕ) : Connection × Option Frame :=
  (d.connection, match d.item with
    | .frame f => readFrame (encodeFrame f ts)
    | .close _ => none)

/-- What the sockets of a room are to receive for a signal: the peer gets it as it was sent, under
the sender's name; if the peer is not there the sender is told so. -/
def RoomRegistry.receipts (r : RoomRegistry) (c : Connection) (kind : SignalKind)
    (target : ParticipantId) (payload : JsonObj) : List (Connection × Option Frame) :=
  match r.find c.meetingId target with
  | some peer => [(peer, some {
      body := .signal kind (payload.filter fun field => field.1 ≠ "to")
      sender := some c.participantId
      recipient := some target })]
  | none => [(c, some (errorFrame "" peerNotInRoom.message))]

section Signals

variable {float : PyFloat} {db : Db} {r : RoomRegistry} {c : Connection}
  {kind : SignalKind} {target : ParticipantId}
  {payload : JsonObj} {id : String} {now : DateTime}

/-- What the handler of a signal gets. -/
theorem readMessage_signalTo (htarget : target ≠ "") :
    ∃ inbound, readMessage (signalTo kind target payload).json = .ok inbound ∧
      inbound.handler = .signal kind ∧
      inbound.payload = payload ∧ signalTarget inbound = some target := by
  refine ⟨⟨.signal kind,
    [("type", .str ("signal." ++ kind.name)), ("to", .str target), ("payload", .obj payload)],
    payload⟩, ?_, rfl, rfl, ?_⟩
  · cases kind <;> rfl
  · simp [signalTarget, Json.get, Json.truthy, Json.text?, htarget]

/-- The sends of a signal: the relay, or the refusal. -/
theorem onMessage_signalTo (htarget : target ≠ "") :
    (onMessage db r c (signalTo kind target payload).json id now).2 =
      if r.isInRoom c.meetingId target then
        [.sendToParticipant c.meetingId target {
          body := .signal kind (payload.filter fun field => field.1 ≠ "to")
          sender := some c.participantId
          recipient := some target }]
      else [.send c peerNotInRoom.frame] := by
  obtain ⟨inbound, hread, hhandler, rfl, hnamed⟩ :=
    @readMessage_signalTo kind target payload htarget
  rw [onMessage, hread]
  simp only [handle, hhandler]
  by_cases hroom : r.isInRoom c.meetingId target
  · have hok : handleSignal db r c kind inbound = .ok (db, _) :=
      handleSignal_eq_ok.mpr ⟨target, hnamed, hroom, rfl, rfl⟩
    rw [hok, if_pos hroom]
    rfl
  · have herror : handleSignal db r c kind inbound = .error (.app peerNotInRoom) := by
      rw [handleSignal, hnamed]
      show Service.require (r.isInRoom c.meetingId target) peerNotInRoom >>= _ = _
      rw [Service.require, if_neg hroom]
      rfl
    rw [herror, if_neg hroom]
    rfl

/-- A payload of safe integers is read as it is written. -/
theorem readFrame_signal (float : PyFloat) (h : (Json.obj payload).Plain)
    (sender recipient : Option ParticipantId)
    (ts : ℕ) : readFrame (encodeFrame ⟨.signal kind payload, sender, recipient⟩ ts) =
      some ⟨.signal kind payload, sender, recipient⟩ := by
  have hsound : FrameBody.Sound float (.signal kind payload) := Json.Plain.decoded h
  have hfinite : Frame.isFinite ⟨.signal kind payload, sender, recipient⟩ :=
    Json.numbersPass_toText (fun n _ => isNumber_toString n) (fun _ _ hn => hn.elim) _ h
  have hself : Json.rereadFields jsNumber payload = payload :=
    Json.obj.inj (Json.reread_eq_self (fun _ hn => jsNumber_toString hn)
      (fun _ _ hn => hn.elim) _ h)
  rw [@readFrame_encodeFrame float _ hsound, if_pos hfinite, Frame.inBrowser,
    FrameBody.inBrowser, hself]

end Signals

/-- **A signal is relayed as it was sent**, from the text of one browser to the text of the
other: it is sent by a registered socket, to a peer that is named, and its numbers are safe
integers. -/
theorem signals_verbatim (float : PyFloat) {s : Server} {c : Connection} (kind : SignalKind)
    {target : ParticipantId} {payload : JsonObj} (id : String) (now : DateTime) (ts : ℕ)
    (hc : c ∈ s.registry.connections c.meetingId) (htarget : target ≠ "")
    (hpayload : (Json.obj payload).Plain) :
    (s.step (TextEvent.event float
        (.text c (stringify (signalTo kind target payload).json) id now))).2.map (·.received ts) =
      s.registry.receipts c kind target payload := by
  have hplain : (Json.obj (signalTo kind target payload).payload).Plain := hpayload
  rw [TextEvent.event_stringify hplain, Server.step, if_pos hc]
  show (performAll s.registry (onMessage s.db s.registry c _ id now).2).2.map _ = _
  rw [onMessage_signalTo htarget, RoomRegistry.isInRoom, RoomRegistry.receipts]
  cases hfind : s.registry.find c.meetingId target with
  | none =>
    -- the refusal is no signal: its text is read like that of any sound frame
    have hsound : FrameBody.Sound float peerNotInRoom.frame.body := AppError.plain_nil rfl
    show [(c, readFrame (encodeFrame peerNotInRoom.frame ts))] = _
    rw [readFrame_encodeFrame hsound]
    rfl
  | some peer =>
    simp only [Option.isSome_some, if_true, performAll, perform, hfind]
    show [(peer, readFrame (encodeFrame _ ts))] = _
    rw [readFrame_signal float (Json.WellFormed.filter hpayload _)]

/-- Two participants of a room, and their sockets. -/
def caller : Connection := { connectionId := "k1", meetingId := "n", participantId := "1" }

def callee : Connection := { connectionId := "k2", meetingId := "n", participantId := "2" }

def calledRoom : Server := { registry := (RoomRegistry.empty.add caller).add callee }

/-- An offer reaches the other one. -/
theorem offer_relayed : (calledRoom.step (TextEvent.event default (.text caller
      (stringify (signalTo .offer "2" [("sdp", .str "v=0")]).json) "" 0))).2.map (·.received 0) =
    [(callee, some ⟨.signal .offer [("sdp", .str "v=0")], some "1", some "2"⟩)] :=
  signals_verbatim default .offer "" 0 0 (by decide) (by decide)
    ⟨List.nodup_singleton _, trivial, trivial⟩

end ZoomClone
