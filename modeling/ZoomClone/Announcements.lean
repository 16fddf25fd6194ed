/-
What a room is told of those who come and go (`router.py`, `registry.py`).

A socket is handed the open rows when it is registered; the rest it hears: a
`peer.joined` for every connection that is bound, a `peer.left` for every row that a
teardown or `host.remove` closes.  A handler commits first and announces later, and what
it has left to announce is lost when it is cancelled.

* `Unanswered` — a log with news that no later entry answers;
* `RoomLog.Gapless` — the news that a registered socket has not been told are still to
  be sent;
* `RoomLog.Gapless.next` — an event keeps it, unless it cancels a handler that alone has
  a `peer.left` to send;
* `no_gap` — so it holds throughout a run, and the news are sent.
-/
import ZoomClone.RoomLog
import Mathlib.Logic.Relation

namespace ZoomClone

/-! ### Logs -/

section Logs

variable {α : Type*} {news answers : α → Prop}

/-- Some news of the log has no answer after it. -/
def Unanswered (news answers : α → Prop) : List α → Prop
  | [] => False
  | i :: log => (news i ∧ ∀ j ∈ log, ¬ answers j) ∨ Unanswered news answers log

instance [DecidablePred news] [DecidablePred answers] : DecidablePred (Unanswered news answers) :=
  let rec check : (log : List α) → Decidable (Unanswered news answers log)
    | [] => isFalse id
    | i :: log =>
      have := check log
      inferInstanceAs (Decidable ((news i ∧ ∀ j ∈ log, ¬ answers j) ∨ Unanswered news answers log))
  check

theorem Unanswered.exists_news {log : List α} (h : Unanswered news answers log) :
    ∃ i ∈ log, news i := by
  induction log with
  | nil => exact h.elim
  | cons i log ih =>
    rcases h with ⟨hi, -⟩ | h
    · exact ⟨i, List.mem_cons_self, hi⟩
    · obtain ⟨j, hj, hnews⟩ := ih h
      exact ⟨j, List.mem_cons_of_mem _ hj, hnews⟩

/-- What is unanswered in a longer log was so before and got no answer, or is new. -/
theorem Unanswered.append {log more : List α} (h : Unanswered news answers (log ++ more)) :
    (Unanswered news answers log ∧ ∀ j ∈ more, ¬ answers j) ∨ Unanswered news answers more := by
  induction log with
  | nil => exact .inr h
  | cons i log ih =>
    rw [List.cons_append, Unanswered] at h
    rcases h with ⟨hi, hnone⟩ | h
    · rw [List.forall_mem_append] at hnone
      exact .inl ⟨.inl ⟨hi, hnone.1⟩, hnone.2⟩
    · rcases ih h with ⟨hlog, hmore⟩ | hmore
      · exact .inl ⟨.inr hlog, hmore⟩
      · exact .inr hmore

/-- Entries that are no news leave nothing new unanswered. -/
theorem Unanswered.of_append {log more : List α} (h : Unanswered news answers (log ++ more))
    (hmore : ∀ i ∈ more, ¬ news i) : Unanswered news answers log ∧ ∀ j ∈ more, ¬ answers j := by
  refine h.append.resolve_right fun hnew => ?_
  obtain ⟨i, hi, hnews⟩ := hnew.exists_news
  exact hmore i hi hnews

end Logs

namespace RoomLog

/-! ### What a room is told -/

/-- A handler has a `peer.joined` of the participant left to send. -/
def WillJoin (n : RoomLog) (m : MeetingId) (c : ConnectionId) (p : ParticipantId) : Prop :=
  ∃ a ∈ n.script c, a.joins m = some p

/-- Some handler of the meeting has a `peer.left` of the participant left to send. -/
def WillPart (n : RoomLog) (m : MeetingId) (p : ParticipantId) : Prop :=
  ∃ d ∈ n.server.sockets, d.meetingId = m ∧ ∃ a ∈ n.script d.connectionId, a.parts m = some p

instance (n : RoomLog) (m : MeetingId) (c : ConnectionId) (p : ParticipantId) :
    Decidable (n.WillJoin m c p) := inferInstanceAs (Decidable (∃ a ∈ n.script c, _))

instance (n : RoomLog) (m : MeetingId) (p : ParticipantId) : Decidable (n.WillPart m p) :=
  inferInstanceAs (Decidable (∃ d ∈ n.server.sockets.rows, d.meetingId = m ∧
    ∃ a ∈ n.script d.connectionId, a.parts m = some p))

/-- A connection was bound since the registration of the socket, and no `peer.joined`
of its participant was sent to it since. -/
def MissesJoin (n : RoomLog) (b c : ConnectionId) (p : ParticipantId) : Prop :=
  Unanswered (fun i => i.bound? = some (p, c)) (fun i => i.joins = some p) (n.log b)

/-- A row was closed since the registration of the socket, and no `peer.left` was sent
to it since. -/
def MissesPart (n : RoomLog) (b : ConnectionId) (p : ParticipantId) : Prop :=
  Unanswered (fun i => i.closed? = some p) (fun i => i.parts = some p) (n.log b)

instance (n : RoomLog) (b : ConnectionId) (p : ParticipantId) : Decidable (n.MissesPart b p) :=
  inferInstanceAs (Decidable (Unanswered _ _ _))

/-- The log of a socket begins with its registration and `room.state`, which lists the
rows that were open. -/
def Greeted (log : List Moment) : Prop :=
  ∃ present snapshot f rest, log = .registered present :: .sent (.frame f) :: rest ∧
    f.body = .roomState snapshot ∧ ∀ p ∈ present, p ∈ snapshot.participants.map ParticipantView.id

/-- **No gap** between the snapshot and the stream: what a registered socket was not
told is still to be sent. -/
structure Gapless (n : RoomLog) : Prop where
  greeted : ∀ c, n.connection c ≠ none → Greeted (n.log c)
  joins : ∀ m, ∀ b ∈ n.server.registry.connections m, ∀ c p,
    n.MissesJoin b.connectionId c p → n.WillJoin m c p
  parts : ∀ m, ∀ b ∈ n.server.registry.connections m, ∀ p,
    n.MissesPart b.connectionId p → n.WillPart m p

/-- No handler has anything left to send. -/
def Quiet (n : RoomLog) : Prop := ∀ c, n.script c = []

/-- The registered sockets have been told everything. -/
def Told (n : RoomLog) : Prop :=
  ∀ m, ∀ b ∈ n.server.registry.connections m,
    (∀ c p, ¬ n.MissesJoin b.connectionId c p) ∧ ∀ p, ¬ n.MissesPart b.connectionId p

/-- A handler of the meeting other than that of `d` has a `peer.left` of the participant
left to send. -/
def OtherWillPart (n : RoomLog) (d : Connection) (p : ParticipantId) : Prop :=
  ∃ d' ∈ n.server.sockets, d' ≠ d ∧ d'.meetingId = d.meetingId ∧
    ∃ a ∈ n.script d'.connectionId, a.parts d.meetingId = some p

instance (n : RoomLog) (d : Connection) (p : ParticipantId) : Decidable (n.OtherWillPart d p) :=
  inferInstanceAs (Decidable (∃ d' ∈ n.server.sockets.rows, d' ≠ d ∧ d'.meetingId = d.meetingId ∧
    ∃ a ∈ n.script d'.connectionId, a.parts d.meetingId = some p))

/-- The handler can be cancelled: a `peer.left` of its script that a registered socket
still misses is going out to it, or another handler has it to send as well. -/
def Spares (n : RoomLog) (d : Connection) (script : List Action) (went : List ConnectionId) :
    Prop :=
  ∀ a ∈ script, ∀ b ∈ n.server.registry.connections d.meetingId, ∀ p ∈ a.parts d.meetingId,
    n.MissesPart b.connectionId p →
      (script.head?.bind (·.parts d.meetingId) = some p ∧ b.connectionId ∈ went) ∨
        n.OtherWillPart d p

instance (n : RoomLog) (d : Connection) (script : List Action) (went : List ConnectionId) :
    Decidable (n.Spares d script went) :=
  inferInstanceAs (Decidable (∀ a ∈ script, ∀ b ∈ n.server.registry.connections d.meetingId,
    ∀ p ∈ a.parts d.meetingId, _))

/-- The event cancels no handler that alone has a `peer.left` to send. -/
def Uncut (n : RoomLog) : TaskEvent → Prop
  | .message c message id now (.cancelled went) =>
    ∀ r ∈ n.running c, (n.commit r.1 message id now).Spares r.1
      ((n.commit r.1 message id now).script c) went
  | .resume c (.cancelled went) => ∀ r ∈ n.running c, n.Spares r.1 r.2 went
  | _ => True

instance (n : RoomLog) (e : TaskEvent) : Decidable (n.Uncut e) := by
  unfold Uncut
  split <;> infer_instance

end RoomLog

/-! ### What a transaction closes -/

theorem mem_closings {db db' : Db} {m : MeetingId} {x : ParticipantId} :
    x ∈ closings db db' m ↔ ∃ p ∈ db.participants, p.meetingId = m ∧ p.leftAt = none ∧ p.id = x ∧
      ¬ db'.isOpen x := by
  simp only [closings, List.mem_map, List.mem_filter, Db.mem_activeRows, Bool.not_eq_true']
  constructor
  · rintro ⟨p, ⟨⟨hp, hm, hopen⟩, hclosed⟩, rfl⟩
    exact ⟨p, hp, hm, hopen, rfl, by simp [hclosed]⟩
  · rintro ⟨p, hp, hm, hopen, rfl, hclosed⟩
    exact ⟨p, ⟨⟨hp, hm, hopen⟩, by simpa using hclosed⟩, rfl⟩

theorem closings_self (db : Db) (m : MeetingId) {x : ParticipantId} : x ∉ closings db db m := by
  rw [mem_closings]
  rintro ⟨p, hp, -, hopen, rfl, hclosed⟩
  exact hclosed (Db.isOpen_iff.mpr ⟨p, hp, rfl, hopen⟩)

/-- Marking a row as left closes that row alone. -/
theorem closings_markLeft {db : Db} {t : Participant} {now : DateTime}
    {m : MeetingId} {x : ParticipantId}
    (h : x ∈ closings db (markLeft db t now).2 m) : x = t.id := by
  obtain ⟨p, hp, -, hopen, rfl, hclosed⟩ := mem_closings.mp h
  by_contra hne
  have hkept :
      p ∈ (db.updateRow t.id (·.markLeft now) (Participant.markLeft_id · now)).participants :=
    Db.mem_updateRow.mpr ⟨p, hp, if_neg hne⟩
  exact hclosed (Db.isOpen_iff.mpr ⟨p, hkept, rfl, hopen⟩)

/-- A message that closes a row by asking for its removal announces it. -/
theorem closings_removal {db : Db} {r : RoomRegistry} {d : Connection}
    {message : Json} {id : String}
    {now : DateTime} {m : MeetingId} {x : ParticipantId} (hremoval : IsRemoval message)
    (h : x ∈ closings db (onMessage db r d message id now).1 m) :
    (onMessage db r d message id now).2 = removal d x := by
  rw [IsRemoval] at hremoval
  rw [onMessage] at h ⊢
  cases hread : readMessage message with
  | error f =>
    rw [hread] at hremoval
    exact hremoval.elim
  | ok inbound =>
    rw [hread] at hremoval h
    dsimp only at hremoval h ⊢
    rw [handle, hremoval] at h ⊢
    dsimp only at h ⊢
    cases hhandle : handleHostRemove db d inbound now with
    -- A removal that is refused closes nothing.
    | error e =>
      rw [hhandle] at h
      exact absurd h (closings_self db m)
    | ok result =>
      obtain ⟨db', actions⟩ := result
      rw [hhandle] at h
      obtain ⟨t, actor, v, -, -, hremove, rfl⟩ := handleHostRemove_eq_ok.mp hhandle
      obtain ⟨-, row, hrow, -, hleft⟩ := hostRemove_eq_ok.mp hremove
      obtain ⟨-, rfl⟩ := Prod.mk.inj hleft
      have hid : row.id = t := Keyed.key_of_find? (targetRow_eq_ok.mp hrow).1
      rw [closings_markLeft h, hid]

/-- A teardown that closes a row announces it. -/
theorem closings_teardown {s : Server} {d : Connection} {now : DateTime} {m : MeetingId}
    {x : ParticipantId} (h : x ∈ closings s.db (teardown s d now).1.db m) :
    (teardown s d now).2 = [peerLeft d x] := by
  rw [teardown, releaseConnection_eq] at h ⊢
  cases hrow : (s.db.getParticipant d.participantId).filter fun p =>
    p.connectionId = some d.connectionId with
  -- Another connection owns the row, so it stays open.
  | none =>
    rw [hrow] at h
    exact absurd h (closings_self s.db m)
  | some p =>
    rw [hrow] at h
    have hid : p.id = d.participantId := Keyed.key_of_find? (Option.filter_eq_some_iff.mp hrow).1
    rw [closings_markLeft h, hid]
    rfl

namespace RoomLog

/-! ### News -/

section News

variable {n : RoomLog} {c b : ConnectionId} {d : Connection}
  {m m' : MeetingId} {moments : List Moment}

theorem Greeted.mono {log log' : List Moment} (h : Greeted log) (hle : log <+: log') :
    Greeted log' := by
  obtain ⟨present, snapshot, f, rest, rfl, hrest⟩ := h
  obtain ⟨more, rfl⟩ := hle
  exact ⟨present, snapshot, f, rest ++ more, rfl, hrest⟩

theorem log_le_note (b : ConnectionId) : n.log b <+: (n.note m moments).log b := by
  rcases log_note b with h | ⟨-, h⟩
  · rw [h]
  · rw [h]
    exact List.prefix_append ..

/-- What is unanswered after something happened was so before, or is what happened. -/
theorem unanswered_note {news answers : Moment → Prop}
    (h : Unanswered news answers ((n.note m moments).log b)) :
    Unanswered news answers (n.log b) ∨
      (b ∈ (n.server.registry.connections m).map Connection.connectionId ∧
      ∃ i ∈ moments, news i) := by
  rcases log_note b with hlog | ⟨hb, hlog⟩
  · rw [hlog] at h
    exact .inl h
  · rw [hlog] at h
    rcases h.append with ⟨hold, -⟩ | hnew
    · exact .inl hold
    · exact .inr ⟨hb, hnew.exists_news⟩

/-- What is missed after some frames were sent was missed before, and is in none of them. -/
theorem MissesJoin.of_deliver {sent : List Delivery} {p : ParticipantId}
    (h : (n.deliver sent).MissesJoin b c p) :
    n.MissesJoin b c p ∧ ∀ item ∈ itemsFor b sent, item.joins ≠ some p := by
  obtain ⟨hold, hnone⟩ := Unanswered.of_append h (by simp [Moment.bound?])
  exact ⟨hold, fun item hitem => hnone _ (List.mem_map_of_mem hitem)⟩

theorem MissesPart.of_deliver {sent : List Delivery} {p : ParticipantId}
    (h : (n.deliver sent).MissesPart b p) :
    n.MissesPart b p ∧ ∀ item ∈ itemsFor b sent, item.parts ≠ some p := by
  obtain ⟨hold, hnone⟩ := Unanswered.of_append h (by simp [Moment.closed?])
  exact ⟨hold, fun item hitem => hnone _ (List.mem_map_of_mem hitem)⟩

/-- A socket is registered in one room. -/
theorem Valid.same_room (hv : n.Valid) {s : Connection} (hs : s ∈ n.server.registry.connections m)
    (hmem : s.connectionId ∈ (n.server.registry.connections m').map Connection.connectionId) :
    m = m' := by
  obtain ⟨s', hs', hid⟩ := List.mem_map.mp hmem
  obtain ⟨hm, hsocket⟩ := hv.registered m s hs
  obtain ⟨hm', hsocket'⟩ := hv.registered m' s' hs'
  rw [← hm, ← hm', Keyed.eq_of_key_eq hsocket' hsocket hid]

/-- An event that drops nothing keeps the promise, if all its news are answered at once
or have a handler that will answer them. -/
theorem Gapless.of_frame {n' : RoomLog} (hg : n.Gapless)
    (hgreeted : ∀ c, n'.connection c ≠ none → Greeted (n'.log c))
    (hscript : ∀ c, ∀ a ∈ n.script c, a ∈ n'.script c)
    (hsockets : ∀ d ∈ n.server.sockets, d ∈ n'.server.sockets)
    (hjoins : ∀ m, ∀ b ∈ n'.server.registry.connections m, ∀ c p, n'.MissesJoin b.connectionId c p →
      (b ∈ n.server.registry.connections m ∧ n.MissesJoin b.connectionId c p) ∨ n'.WillJoin m c p)
    (hparts : ∀ m, ∀ b ∈ n'.server.registry.connections m, ∀ p, n'.MissesPart b.connectionId p →
      (b ∈ n.server.registry.connections m ∧ n.MissesPart b.connectionId p) ∨ n'.WillPart m p) :
    n'.Gapless where
  greeted := hgreeted
  joins := by
    intro m b hb c p hmiss
    rcases hjoins m b hb c p hmiss with ⟨hb, hold⟩ | hwill
    · obtain ⟨a, ha, ha'⟩ := hg.joins m b hb c p hold
      exact ⟨a, hscript c a ha, ha'⟩
    · exact hwill
  parts := by
    intro m b hb p hmiss
    rcases hparts m b hb p hmiss with ⟨hb, hold⟩ | hwill
    · obtain ⟨d, hd, hm, a, ha, ha'⟩ := hg.parts m b hb p hold
      exact ⟨d, hsockets d hd, hm, a, hscript _ a ha, ha'⟩
    · exact hwill

theorem script_of_task {t : HandlerTask} (htask : n.tasks c = some t) :
    n.script c = (t.running.map Prod.snd).getD [] := by
  rw [RoomLog.script, RoomLog.running, htask]
  rfl

/-- Only the handler of `c` goes on, which has nothing left to send. -/
theorem script_mono {n' : RoomLog} {t : HandlerTask} (hidle : n.script c = [])
    (htasks : n'.tasks = (n.setTask c t).tasks) (c' : ConnectionId) :
    ∀ a ∈ n.script c', a ∈ n'.script c' := by
  intro a ha
  have hne : c' ≠ c := by
    rintro rfl
    rw [hidle] at ha
    cases ha
  rw [← script_setTask_of_ne t hne] at ha
  rwa [RoomLog.script, RoomLog.running, htasks]

end News

/-! ### The next send -/

section Events

variable {n : RoomLog} {c : ConnectionId} {d : Connection} {m : MeetingId}
  {message : Json} {id : String}
  {now : DateTime} {meeting : Meeting} {participant : Participant}

/-- **The next send keeps the promise**, unless it is the last of a handler that is
cancelled with a `peer.left` to send. -/
theorem Gapless.resume (hv : n.Valid) (hg : n.Gapless) {outcome : Outcome}
    (hgreeting : ∀ d script, n.tasks c = some (.greeting d script) → outcome = .completes)
    (hspares : ∀ went, outcome = .cancelled went → ∀ r ∈ n.running c, n.Spares r.1 r.2 went) :
    (n.resume c outcome).Gapless := by
  by_cases hidle : ∀ d a script, n.running c ≠ some (d, a :: script)
  · rw [resume_idle hidle]
    exact hg
  · push Not at hidle
    obtain ⟨d, a, script, hrun⟩ := hidle
    obtain ⟨t, htask, ht⟩ := Option.bind_eq_some_iff.mp hrun
    obtain ⟨hid, hd, -, hkind⟩ := (hv.tasks c t htask).running ht
    have hscript := script_eq hrun
    rw [resume_eq hrun]
    refine ⟨?_, ?_, ?_⟩
    · intro c' hc'
      refine (hg.greeted c' ?_).mono (List.prefix_append ..)
      by_cases hsame : c' = c
      · subst hsame
        rw [connection, htask]
        rcases hkind with ⟨you, rfl, -⟩ | ⟨rfl, -⟩ <;> exact Option.some_ne_none d
      · rwa [connection_setTask_of_ne _ hsame] at hc'
    · intro m b hb c' p hmiss
      replace hb : b ∈ n.server.registry.connections m := performNext_sub hb
      obtain ⟨hold, hnone⟩ := MissesJoin.of_deliver hmiss
      obtain ⟨a', ha', hjoins⟩ := hg.joins m b hb c' p hold
      by_cases hsame : c' = c
      · subst hsame
        rw [hscript] at ha'
        rcases hkind with ⟨you, rfl, hannounce⟩ | ⟨-, hother⟩
        · -- The announcement goes out to all sockets but its own, which has no such entry.
          obtain ⟨rfl, rfl⟩ := List.cons.inj hannounce
          obtain rfl := List.mem_singleton.mp ha'
          obtain ⟨f, exclude, hbroadcast, hf⟩ := Action.exists_broadcast_of_joins hjoins
          obtain ⟨i, hi, hbound⟩ := hold.exists_news
          have hne : b.connectionId ≠ c' := fun h => hv.bound _ i hi p (h ▸ hbound)
          obtain ⟨rfl, rfl, rfl⟩ := Action.broadcast.inj hbroadcast
          obtain rfl := hgreeting _ _ htask
          have hexclude : some b.connectionId ≠ some d.connectionId := by simpa [hid] using hne
          have hitem := Action.mem_itemsFor_broadcast []
            { body := .peerJoined you, sender := some d.participantId }
            hb hexclude (show Outcome.completes.lets b.connectionId from rfl)
          exact absurd hf (hnone _ hitem)
        · rw [hother a' ha' m] at hjoins
          cases hjoins
      · exact ⟨a', by rwa [script_setTask_of_ne _ hsame], hjoins⟩
    · intro m b hb p hmiss
      replace hb : b ∈ n.server.registry.connections m := performNext_sub hb
      obtain ⟨hold, hnone⟩ := MissesPart.of_deliver hmiss
      obtain ⟨d', hd', rfl, a', ha', hparts⟩ := hg.parts m b hb p hold
      by_cases hsame : d'.connectionId = c
      · obtain rfl : d' = d := Keyed.eq_of_key_eq hd' hd (hsame.trans hid.symm)
        rw [hsame, hscript] at ha'
        -- If it is the next send, it does not reach the socket.
        have hstuck : a.parts d'.meetingId = some p → outcome.lets b.connectionId ≠ true := by
          intro hhead hlets
          obtain ⟨f, rfl, hf⟩ := Action.exists_broadcast_of_parts hhead
          have hitem := Action.mem_itemsFor_broadcast script f hb (Option.some_ne_none _) hlets
          exact hnone _ hitem hf
        cases outcome with
        | completes =>
          have hmem := (List.mem_cons.mp ha').resolve_left fun heq => hstuck (heq ▸ hparts) rfl
          refine ⟨d', hd', rfl, a', ?_, hparts⟩
          rw [hsame, script_setTask_self]
          exact Action.mem_performNext_left hmem
        | cancelled went =>
          -- The script is dropped: the frame went out, or another handler has it.
          rcases hspares went rfl _ hrun a' ha' b hb p hparts hold with ⟨hhead, hwent⟩ | hother
          · exact absurd (decide_eq_true hwent) (hstuck hhead)
          · obtain ⟨d₂, hd₂, hne, hm, a₂, ha₂, hparts₂⟩ := hother
            refine ⟨d₂, hd₂, hm, a₂, ?_, hparts₂⟩
            rwa [script_setTask_of_ne _ fun h => hne (Keyed.eq_of_key_eq hd₂ hd (h.trans hid.symm))]
      · exact ⟨d', hd', rfl, a', by rwa [script_setTask_of_ne _ hsame], hparts⟩

/-! ### What a handler commits -/

/-- **A message keeps the promise**: a row that it removes is announced next. -/
theorem Gapless.commit (hv : n.Valid) (hg : n.Gapless) (htask : n.tasks c = some (.serving d [])) :
    (n.commit d message id now).Gapless := by
  obtain ⟨hid, hd, -⟩ := (hv.tasks c _ htask).running rfl
  subst hid
  have hidle : n.script d.connectionId = [] := script_of_task htask
  refine hg.of_frame ?_ (script_mono hidle rfl) (fun _ h => h) ?_ ?_
  · intro c hc
    refine (hg.greeted c ?_).mono (log_le_note c)
    by_cases hsame : c = d.connectionId
    · rw [hsame, connection, htask]
      exact Option.some_ne_none d
    · rwa [RoomLog.commit, connection_setTask_of_ne _ hsame] at hc
  · intro m b hb c p hmiss
    rcases unanswered_note hmiss with hold | ⟨-, i, hi, hbound⟩
    · exact .inl ⟨hb, hold⟩
    · split at hi
      · obtain ⟨x, -, rfl⟩ := List.mem_map.mp hi
        cases hbound
      · cases hi
  · intro m b hb p hmiss
    rcases unanswered_note hmiss with hold | ⟨hmem, i, hi, hclosed⟩
    · exact .inl ⟨hb, hold⟩
    · -- The row was closed just now, and the `peer.left` is in the script.
      obtain rfl := hv.same_room hb hmem
      split at hi
      · next hremoval =>
        obtain ⟨x, hx, rfl⟩ := List.mem_map.mp hi
        obtain rfl := Option.some.inj hclosed
        refine .inr ⟨d, hd, rfl, peerLeft d x, ?_, Action.parts_peerLeft d x⟩
        rw [RoomLog.commit, script_setTask_self, closings_removal hremoval hx]
        exact List.mem_cons_of_mem _ List.mem_cons_self
      · cases hi

theorem performAll_peerLeft (r : RoomRegistry) (x : ParticipantId) {s : Connection}
    (hs : s ∈ r.connections d.meetingId) :
    ∃ item ∈ itemsFor s.connectionId (performAll r [peerLeft d x]).2, item.parts = some x := by
  refine ⟨.frame { body := .peerLeft x, sender := some d.participantId }, ?_, rfl⟩
  refine mem_itemsFor.mpr ⟨⟨s, _⟩, List.mem_append_left _ (List.mem_map.mpr ⟨s, ?_, rfl⟩), rfl, rfl⟩
  rwa [broadcastTargets_none]

theorem log_tearDown (n : RoomLog) (d : Connection) (now : DateTime) (c : ConnectionId) :
    n.log c <+: (n.tearDown d now).log c := by
  let n' : RoomLog := { n with server := (n.tearDown d now).server }
  let moments := (closings n.server.db (teardown n.server d now).1.db d.meetingId).map Moment.closed
  have hnote : n'.log c <+: (n'.note d.meetingId moments).log c := log_le_note c
  exact hnote.trans (List.prefix_append ..)

/-- **A teardown keeps the promise**: a row that it closes is announced at once. -/
theorem Gapless.tearDown (hv : n.Valid) (hg : n.Gapless)
    (htask : n.tasks d.connectionId = some (.leaving d)) :
    (n.tearDown d now).Gapless := by
  have hidle : n.script d.connectionId = [] := script_of_task htask
  refine hg.of_frame ?_ (script_mono hidle rfl) (fun _ h => h) ?_ ?_
  · intro c hc
    exact (hg.greeted c (connection_finished hc).2).mono (n.log_tearDown d now c)
  · intro m b hb c p hmiss
    refine .inl ⟨(tearDown_sub hb).2, ?_⟩
    rcases unanswered_note (MissesJoin.of_deliver hmiss).1 with hold | ⟨-, i, hi, hbound⟩
    · exact hold
    · obtain ⟨x, -, rfl⟩ := List.mem_map.mp hi
      cases hbound
  · intro m b hb p hmiss
    have hnone : ∀ item ∈ itemsFor b.connectionId
        (performAll (teardown n.server d now).1.registry (teardown n.server d now).2).2,
            item.parts ≠ some p :=
      (MissesPart.of_deliver hmiss).2
    rcases unanswered_note (MissesPart.of_deliver hmiss).1 with hold | ⟨hmem, i, hi, hclosed⟩
    · exact .inl ⟨(tearDown_sub hb).2, hold⟩
    · -- The row was closed just now, and the `peer.left` went out to the socket.
      obtain ⟨s, hs, hid⟩ := List.mem_map.mp hmem
      obtain rfl := hv.same_room (tearDown_sub hb).2
        (List.mem_map.mpr ⟨s, (tearDown_sub hs).2, hid⟩)
      obtain ⟨x, hx, rfl⟩ := List.mem_map.mp hi
      obtain rfl := Option.some.inj hclosed
      rw [closings_teardown hx] at hnone
      obtain ⟨item, hitem, hparts⟩ := performAll_peerLeft (d := d) _ x (tearDown_sub hb).1
      exact absurd hparts (hnone item hitem)

/-! ### A socket arrives -/

theorem Gapless.rejected {c : ConnectionId} (hv : n.Valid) (hg : n.Gapless)
    (htask : n.tasks c = none) :
    (n.rejected c).Gapless := by
  have hw := waits_none htask
  have hidle : n.script c = [] := by simp [RoomLog.script, RoomLog.running, htask]
  refine hg.of_frame ?_ (script_mono hidle rfl) (fun _ hd => hd) ?_ ?_
  · intro c' hc'
    obtain ⟨hne, hold⟩ := connection_finished hc'
    rw [log_rejected_of_ne hne]
    exact hg.greeted c' hold
  · intro m b hb c' p hmiss
    rw [MissesJoin, log_rejected_of_ne (hv.unregistered hw hb)] at hmiss
    exact .inl ⟨hb, hmiss⟩
  · intro m b hb p hmiss
    rw [MissesPart, log_rejected_of_ne (hv.unregistered hw hb)] at hmiss
    exact .inl ⟨hb, hmiss⟩

theorem Gapless.refused (hv : n.Valid) (hg : n.Gapless)
    (htask : n.tasks c = some (.accepting meeting participant)) :
    (n.refused meeting participant c sent).Gapless := by
  have hw := waits_accepting htask
  refine hg.of_frame ?_ (script_mono (script_of_task htask) rfl) (mem_set_fresh hv hw rfl) ?_ ?_
  · intro c' hc'
    exact (hg.greeted c' (connection_finished hc').2).mono (List.prefix_append ..)
  · intro m b hb c' p hmiss
    exact .inl ⟨refused_sub hb, (MissesJoin.of_deliver hmiss).1⟩
  · intro m b hb p hmiss
    exact .inl ⟨refused_sub hb, (MissesPart.of_deliver hmiss).1⟩

theorem Gapless.accepted (hv : n.Valid) (hg : n.Gapless)
    (htask : n.tasks c = some (.accepting meeting participant)) {snapshot : RoomSnapshot}
    (hf : f.body = .roomState snapshot) (hyou : you.id = participant.id)
    (hpresent : ∀ p ∈ (n.server.db.activeRows meeting.id).map Participant.id,
      p ∈ snapshot.participants.map ParticipantView.id) :
    (n.accepted meeting participant c you f).Gapless := by
  have hw := waits_accepting htask
  refine hg.of_frame ?_ (script_mono (script_of_task htask) rfl) (mem_set_fresh hv hw rfl) ?_ ?_
  · intro c' hc'
    by_cases hsame : c' = c
    · subst hsame
      rw [log_accepted_self hv hw]
      exact ⟨_, snapshot, f, [], rfl, hf, hpresent⟩
    · rw [log_accepted_of_ne hsame]
      rw [RoomLog.accepted, connection_setTask_of_ne _ hsame] at hc'
      exact (hg.greeted c' hc').mono (log_le_note c')
  · intro m b hb c' p hmiss
    rcases RoomRegistry.mem_connections_add.mp hb with ⟨rfl, hm⟩ | ⟨hb, -⟩
    · -- The new socket has heard of nothing.
      rw [MissesJoin, log_accepted_self hv hw] at hmiss
      obtain ⟨i, hi, hbound⟩ := hmiss.exists_news
      simp only [List.mem_cons, List.not_mem_nil, or_false] at hi
      rcases hi with rfl | rfl <;> cases hbound
    · rw [MissesJoin, log_accepted_of_ne (hv.unregistered hw hb)] at hmiss
      rcases unanswered_note hmiss with hold | ⟨hmem, i, hi, hbound⟩
      · exact .inl ⟨hb, hold⟩
      · -- The binding is news to the others, and the announcement is the script.
        obtain rfl := hv.same_room hb hmem
        obtain rfl := List.mem_singleton.mp hi
        obtain ⟨rfl, rfl⟩ := Prod.mk.inj (Option.some.inj hbound)
        refine .inr ⟨announce ⟨c, participant.id, meeting.id⟩ you, ?_, ?_⟩
        · rw [RoomLog.accepted, script_setTask_self]
          exact List.mem_singleton_self _
        · rw [← hyou]
          exact Action.joins_announce ⟨c, participant.id, meeting.id⟩ you
  · intro m b hb p hmiss
    rcases RoomRegistry.mem_connections_add.mp hb with ⟨rfl, hm⟩ | ⟨hb, -⟩
    · rw [MissesPart, log_accepted_self hv hw] at hmiss
      obtain ⟨i, hi, hclosed⟩ := hmiss.exists_news
      simp only [List.mem_cons, List.not_mem_nil, or_false] at hi
      rcases hi with rfl | rfl <;> cases hclosed
    · rw [MissesPart, log_accepted_of_ne (hv.unregistered hw hb)] at hmiss
      rcases unanswered_note hmiss with hold | ⟨-, i, hi, hclosed⟩
      · exact .inl ⟨hb, hold⟩
      · obtain rfl := List.mem_singleton.mp hi
        cases hclosed

theorem Gapless.request (hg : n.Gapless) (r : Request) : (n.next (.request r)).Gapless :=
  hg.of_frame hg.greeted (fun _ _ ha => ha) (fun _ hd => hd)
    (fun _ _ hb _ _ hmiss => .inl ⟨hb, hmiss⟩)
    fun _ _ hb _ hmiss => .inl ⟨hb, hmiss⟩

/-- The handler of a socket that has nothing left to send goes on, and the socket logs no news. -/
theorem Gapless.go (hg : n.Gapless) {c : ConnectionId} {t : HandlerTask} (hidle : n.script c = [])
    (ht : t.connection ≠ none → n.connection c ≠ none) : (n.setTask c t).Gapless := by
  refine hg.of_frame ?_ (script_mono hidle rfl) (fun _ hd => hd)
    (fun _ _ hb _ _ hmiss => .inl ⟨hb, hmiss⟩)
    fun _ _ hb _ hmiss => .inl ⟨hb, hmiss⟩
  intro c' hc'
  refine hg.greeted c' ?_
  by_cases hsame : c' = c
  · subst hsame
    rw [connection_setTask_self] at hc'
    exact ht hc'
  · rwa [connection_setTask_of_ne _ hsame] at hc'

/-- **An event that does not cut a script short keeps the promise.** -/
theorem Gapless.next (hv : n.Valid) (hg : n.Gapless) {e : TaskEvent} (he : n.Uncut e) :
    (n.next e).Gapless := by
  cases e with
  | request r => exact hg.request r
  | authenticate meetingNumber sessionId c =>
    rw [RoomLog.next]
    split
    · next htask =>
      split
      · exact hg.rejected hv htask
      · refine hg.go ?_ fun h => absurd rfl h
        simp [RoomLog.script, RoomLog.running, htask]
    · exact hg
  | register c =>
    by_cases htask : ∃ meeting participant, n.tasks c = some (.accepting meeting participant)
    · obtain ⟨meeting, participant, htask⟩ := htask
      rcases register_cases htask with ⟨sent, hnext, -⟩ | ⟨snapshot, f, hnext, hf, hyou, hpresent⟩
      · rw [hnext]
        exact hg.refused hv htask
      · rw [hnext]
        exact hg.accepted hv htask hf hyou hpresent
    · rw [RoomLog.next]
      split
      · next meeting participant h => exact absurd ⟨meeting, participant, h⟩ htask
      · exact hg
  | message c message id now outcome =>
    rw [RoomLog.next]
    split
    · next d htask =>
      obtain ⟨rfl, hd, -⟩ := (hv.tasks c _ htask).running rfl
      have hrun : (n.commit d message id now).running d.connectionId =
          some (d, (onMessage n.server.db n.server.registry d message id now).2) := by
        simp [RoomLog.running, RoomLog.commit, setTask, HandlerTask.running]
      refine Gapless.resume (hv.commit hd) (hg.commit hv htask) (fun d' script h => ?_)
        fun went heq r hr => ?_
      · rw [RoomLog.commit, tasks_setTask_self] at h
        cases h
      · subst heq
        rw [hrun] at hr
        obtain rfl := Option.some.inj hr
        have hspares := he (d, []) (by simp [RoomLog.running, htask, HandlerTask.running])
        rwa [script_eq hrun] at hspares
    · exact hg
  | resume c outcome =>
    rcases n.next_resume c outcome with hnext | ⟨hnext, hgreeting⟩
    · rw [hnext]
      exact hg
    · rw [hnext]
      refine Gapless.resume hv hg hgreeting fun went heq r hr => ?_
      subst heq
      exact he r hr
  | hangUp c =>
    rw [RoomLog.next]
    split
    · next d htask =>
      refine hg.go (by simp [RoomLog.script, RoomLog.running, htask, HandlerTask.running])
        fun _ => ?_
      rw [connection, htask]
      exact Option.some_ne_none d
    · exact hg
  | teardown c now =>
    rw [RoomLog.next]
    split
    · next d htask =>
      cases hv.tasks c _ htask with
      | leaving d hid hd =>
        subst hid
        exact hg.tearDown hv htask
    · exact hg

end Events

/-! ### What is promised is sent -/

section Sends

variable {n : RoomLog}

/-- Handlers get on with their sends. -/
abbrev Sends : RoomLog → RoomLog → Prop :=
  Relation.ReflTransGen fun n n' => ∃ c, n' = n.next (.resume c .completes)

/-- A send that completes: the others are as they were. -/
theorem sends_step {c : ConnectionId} {d : Connection} {a : Action} {script : List Action}
    (hrun : n.running c = some (d, a :: script)) : ∃ n', n.Sends n' ∧
      n'.running c = some (d, (performNext n.server.registry a script).2.2) ∧
        (∀ c', c' ≠ c → n'.running c' = n.running c') ∧ n'.server.sockets = n.server.sockets := by
  have hnext : n.next (.resume c .completes) = n.resume c .completes := by
    rw [next]
    intro _ _ _ _ hcancelled
    cases hcancelled
  refine ⟨n.resume c .completes, .single ⟨c, hnext.symm⟩, ?_, ?_, ?_⟩
  · simp [resume_eq hrun, running, setTask, Outcome.after, HandlerTask.running]
  · intro c' hne
    simp [resume_eq hrun, running, setTask, hne, deliver]
  · rw [resume_eq hrun]
    rfl

/-- A handler gets to the end of its script. -/
theorem sends_all {c : ConnectionId} {d : Connection} {script : List Action}
    (hrun : n.running c = some (d, script)) : ∃ n', n.Sends n' ∧ n'.running c = some (d, []) ∧
      (∀ c', c' ≠ c → n'.running c' = n.running c') ∧ n'.server.sockets = n.server.sockets := by
  induction script generalizing n with
  | nil => exact ⟨n, .refl, hrun, fun _ _ => rfl, rfl⟩
  | cons a script ih =>
    -- Only `closePeers` leaves more than the rest of the script: closes, one for each peer.
    have hcloses : ∀ (peers : List Connection) (code : ℕ) (n₁ : RoomLog),
        n₁.running c = some (d, peers.map (.closeConnection · code) ++ script) →
        ∃ n', n₁.Sends n' ∧ n'.running c = some (d, []) ∧
          (∀ c', c' ≠ c → n'.running c' = n₁.running c') ∧
              n'.server.sockets = n₁.server.sockets := by
      intro peers code
      induction peers with
      | nil => exact fun n₁ hrun => ih hrun
      | cons peer peers ihpeers =>
        intro n₁ hrun
        obtain ⟨n₂, hsends, hrun₂, hothers, hsockets⟩ := sends_step hrun
        obtain ⟨n', hsends', hrun', hothers', hsockets'⟩ := ihpeers n₂ hrun₂
        exact ⟨n', hsends.trans hsends', hrun',
          fun c' hne => (hothers' c' hne).trans (hothers c' hne),
          hsockets'.trans hsockets⟩
    obtain ⟨n₁, hsends, hrun₁, hothers, hsockets⟩ := sends_step hrun
    have hleft : ∃ (peers : List Connection) (code : ℕ),
      (performNext n.server.registry a script).2.2 =
        peers.map (.closeConnection · code) ++ script := by
      cases a with
      | closePeers m exclude code =>
        simp only [performNext]
        split
        · exact ⟨[], code, rfl⟩
        · next peer peers hpeers => exact ⟨peers, code, rfl⟩
      | _ => exact ⟨[], 0, rfl⟩
    obtain ⟨peers, code, hleft⟩ := hleft
    rw [hleft] at hrun₁
    obtain ⟨n', hsends', hrun', hothers', hsockets'⟩ := hcloses peers code n₁ hrun₁
    exact ⟨n', hsends.trans hsends', hrun', fun c' hne => (hothers' c' hne).trans (hothers c' hne),
      hsockets'.trans hsockets⟩

/-- The handlers of some sockets get to the end of their scripts. -/
theorem sends_each (n : RoomLog) (cs : List ConnectionId) : ∃ n', n.Sends n' ∧
    (∀ c ∈ cs, n'.script c = []) ∧ ∀ c, n.script c = [] → n'.script c = [] := by
  induction cs generalizing n with
  | nil => exact ⟨n, .refl, fun _ hc => absurd hc List.not_mem_nil, fun _ h => h⟩
  | cons c cs ih =>
    have hfirst : ∃ n₁, n.Sends n₁ ∧ n₁.script c = [] ∧ ∀ c', n.script c' = [] →
        n₁.script c' = [] := by
      cases hrun : n.running c with
      | none => exact ⟨n, .refl, by simp [RoomLog.script, hrun], fun _ h => h⟩
      | some r =>
        obtain ⟨n₁, hsends, hrun₁, hothers, -⟩ := sends_all hrun
        refine ⟨n₁, hsends, script_eq hrun₁, fun c' hnone => ?_⟩
        by_cases hsame : c' = c
        · rw [hsame]
          exact script_eq hrun₁
        · rwa [RoomLog.script, hothers c' hsame]
    obtain ⟨n₁, hsends, hc, hkeeps⟩ := hfirst
    obtain ⟨n', hsends', hcs, hkeeps'⟩ := ih n₁
    exact ⟨n', hsends.trans hsends', List.forall_mem_cons.mpr ⟨hkeeps' c hc, hcs⟩,
      fun c' h => hkeeps' c' (hkeeps c' h)⟩

/-- A handler with something left to send has a socket. -/
theorem Valid.idle (hv : n.Valid) {c : ConnectionId} (hc : c ∉ n.server.sockets.keys) :
    n.script c = [] := by
  by_contra hne
  cases hrun : n.running c with
  | none => exact hne (by simp [RoomLog.script, hrun])
  | some r =>
    obtain ⟨t, htask, ht⟩ := Option.bind_eq_some_iff.mp hrun
    obtain ⟨hid, hd, -⟩ := (hv.tasks c t htask).running ht
    exact hc (hid ▸ Keyed.key_mem_keys hd)

/-- Where nothing is left to send, everything was told. -/
theorem Gapless.told (hg : n.Gapless) (hquiet : n.Quiet) : n.Told := by
  intro m b hb
  refine ⟨fun c p hmiss => ?_, fun p hmiss => ?_⟩
  · obtain ⟨a, ha, -⟩ := hg.joins m b hb c p hmiss
    rw [hquiet c] at ha
    cases ha
  · obtain ⟨d, -, -, a, ha, -⟩ := hg.parts m b hb p hmiss
    rw [hquiet d.connectionId] at ha
    cases ha

/-- **What is promised is sent**, as the handlers get on. -/
theorem Gapless.sends (hv : n.Valid) (hg : n.Gapless) : ∃ n', n.Sends n' ∧ n'.Quiet ∧ n'.Told := by
  -- Only handlers of sockets have something left to send.
  obtain ⟨n', hsends, hkeys, hkeeps⟩ := n.sends_each n.server.sockets.keys
  have hquiet : n'.Quiet := by
    intro c
    by_cases hc : c ∈ n.server.sockets.keys
    · exact hkeys c hc
    · exact hkeeps c (hv.idle hc)
  -- A send that completes cuts no script short.
  have hkept : n'.Valid ∧ n'.Gapless := by
    clear hquiet hkeys hkeeps
    induction hsends with
    | refl => exact ⟨hv, hg⟩
    | tail _ hstep ih =>
      obtain ⟨c, rfl⟩ := hstep
      exact ⟨ih.1.next _, ih.2.next ih.1 trivial⟩
  exact ⟨n', hsends, hquiet, hkept.2.told hquiet⟩

theorem gapless_init : Gapless {} where
  greeted := fun _ h => absurd rfl h
  joins := fun _ _ hb => nomatch hb
  parts := fun _ _ hb => nomatch hb

end Sends

end RoomLog

/-- **No gap between the snapshot and the stream**: as long as no handler is cancelled
while it has a `peer.left` to send, a registered socket got `room.state` first, and the
arrivals and departures that it was not told of are to be sent by a handler; once the
handlers got on, it was told of all of them. -/
theorem no_gap (events : List TaskEvent)
    (huncut : Runs.Guarded RoomLog.next RoomLog.Uncut {} events) :
    Runs.Always RoomLog.next (fun n => n.Gapless ∧ ∃ n', n.Sends n' ∧ n'.Quiet ∧ n'.Told)
    {} events := by
  have hkeeps : Runs.Always RoomLog.next (fun n => n.Valid ∧ n.Gapless) {} events :=
    huncut.always ⟨RoomLog.valid_init, RoomLog.gapless_init⟩ fun n e h he =>
      ⟨h.1.next e, h.2.next h.1 he⟩
  exact hkeeps.mono fun n h => ⟨h.2, h.2.sends h.1⟩

/-- The user joins as participant `p`, connects and is announced. -/
def arrive (userId : UserId) (p : String) : List TaskEvent :=
  [.request (.joinMeeting userId "10000000003" { inviteToken := some "tok" }
      { id := p, sessionId := "s" ++ p } 20),
   .authenticate "10000000003" ("s" ++ p) ("c" ++ p), .register ("c" ++ p),
     .resume ("c" ++ p) .completes]

/-- The host removes guest 3 while guest 2 is there; so ends the send of `host.removed_you`. -/
def removal3 (outcome : Outcome) : List TaskEvent :=
  openRequests.map .request ++ arrive "host" "1" ++ arrive "guest" "2" ++ arrive "guest" "3" ++
    [.message "c1" (.obj [("type", .str "host.remove"),
      ("payload", .obj [("participant_id", .str "3")])]) ""
      30 outcome]

/-- The host's handler is cancelled after the `peer.left`. -/
theorem no_gap_removal3 : Runs.Always RoomLog.next
    (fun n => n.Gapless ∧ ∃ n', n.Sends n' ∧ n'.Quiet ∧ n'.Told) {}
    (removal3 .completes ++
      [.resume "c1" .completes, .resume "c1" (.cancelled []), .teardown "c1" 31]) :=
  no_gap _ (by decide +kernel)

/-- The host's socket drops while `host.removed_you` is sent; then guest 3 leaves. -/
def cutRemoval3 : List TaskEvent :=
  removal3 (.cancelled ["c3"]) ++ [.teardown "c1" 31, .hangUp "c3", .teardown "c3" 32]

/-- Guest 2 is in the room, was not told that guest 3 is gone, and nobody is about to tell it. -/
theorem cutRemoval3_unheard :
    ⟨"c2", "2", "m"⟩ ∈ (Runs.run RoomLog.next {} cutRemoval3).server.registry.connections "m" ∧
      (Runs.run RoomLog.next {} cutRemoval3).MissesPart "c2" "3" ∧
        ¬ (Runs.run RoomLog.next {} cutRemoval3).WillPart "m" "3" ∧
          ¬ Runs.Always RoomLog.next (fun n => n.Gapless ∧ ∃ n', n.Sends n' ∧ n'.Quiet ∧ n'.Told) {}
            cutRemoval3 := by
  have hb : ⟨"c2", "2", "m"⟩ ∈
      (Runs.run RoomLog.next {} cutRemoval3).server.registry.connections "m" := by
    decide +kernel
  have hmiss : (Runs.run RoomLog.next {} cutRemoval3).MissesPart "c2" "3" := by decide +kernel
  have hnone : ¬ (Runs.run RoomLog.next {} cutRemoval3).WillPart "m" "3" := by decide +kernel
  exact ⟨hb, hmiss, hnone, fun h => hnone (h.last.1.parts "m" _ hb "3" hmiss)⟩

end ZoomClone
