/-
The audit trail.

The participant rows record who was in a meeting, the chat messages what was said
there.  Five operations write `left_at`, and several of them can hit one row again
and again; the row keeps the first stamp.

* `Participant.Stamps` — where the stamps of a row come from, for every operation
  (`apply_stamps`);
* `Db.Keeps` — nothing that is on record is deleted or rewritten;
* `audit_trail` — both, along every run whose clock does not go back.
-/
import ZoomClone.Lifecycle
import ZoomClone.People

namespace ZoomClone

/-! ### The stamps of one row -/

/-- Where the stamps of a row come from: they are old, or the clock of the
operation that closed or inserted the row. -/
inductive Participant.Stamps (db : Db) (op : Operation) (q : Participant) : Prop
  | kept (p : Participant) (hp : p ∈ db.participants) (hjoined : q.joinedAt = p.joinedAt)
      (hleft : q.leftAt = p.leftAt)
  | closed (p : Participant) (hp : p ∈ db.participants) (hjoined : q.joinedAt = p.joinedAt)
      (now : DateTime) (ht : op.time = some now) (hleft : q.leftAt = some now)
  | joined (ht : op.time = some q.joinedAt) (hleft : q.leftAt = none)

section Stamps

variable {db db' : Db} {op : Operation} {p q : Participant}

theorem Participant.Stamps.of_mem (hq : q ∈ db.participants) : q.Stamps db op :=
  .kept q hq rfl rfl

/-- An update of rows that leaves the stamps alone. -/
theorem stamps_updateRows {P : Participant → Prop} [DecidablePred P] {f : Participant → Participant}
    {hf : ∀ p, (f p).id = p.id} (hq : q ∈ (db.updateRows P f hf).participants)
    (hjoined : ∀ p, (f p).joinedAt = p.joinedAt) (hleft : ∀ p, (f p).leftAt = p.leftAt) :
    q.Stamps db op := by
  obtain ⟨p, hp, rfl⟩ := Db.mem_updateRows.mp hq
  by_cases h : P p
  · rw [if_pos h]
    exact .kept p hp (hjoined p) (hleft p)
  · rw [if_neg h]
    exact .of_mem hp

/-- A row that is closed already keeps its stamp. -/
theorem stamps_markLeft {now : DateTime} (ht : op.time = some now)
    (hq : q ∈ (markLeft db p now).2.participants) : q.Stamps db op := by
  have hrow : q ∈ (db.updateRow p.id (·.markLeft now)
    (Participant.markLeft_id · now)).participants := hq
  obtain ⟨r, hr, rfl⟩ := Db.mem_updateRow.mp hrow
  by_cases h : r.id = p.id
  · rw [if_pos h]
    cases hleft : r.leftAt with
    | none => exact .closed r hr rfl now ht (by simp [Participant.markLeft, hleft])
    | some t => exact .kept r hr rfl (by simp [Participant.markLeft, hleft])
  · rw [if_neg h]
    exact .of_mem hr

/-- Ending a meeting closes its open rows. -/
theorem stamps_evictAll {id : MeetingId} {now : DateTime} (ht : op.time = some now)
    (hq : q ∈ (db.evictAll id now).participants) : q.Stamps db op := by
  obtain ⟨r, hr, rfl⟩ := Db.mem_updateRows.mp hq
  by_cases h : r.meetingId = id ∧ r.leftAt = none
  · rw [if_pos h]
    exact .closed r hr rfl now ht rfl
  · rw [if_neg h]
    exact .of_mem hr

/-- **Where the stamps come from.** -/
theorem runOperation_stamps (h : runOperation db op = .ok db') (hq : q ∈ db'.participants) :
    q.Stamps db op := by
  have hsame (h : db.SameRooms db') : q.Stamps db op := .of_mem (h.participants ▸ hq)
  cases runOperation_commits h with
  | signInGuest h => exact hsame (createGuest_ok h)
  | signInGoogle h => exact hsame (upsertGoogleUser_ok h)
  | updateProfile huser h => exact hsame (updateProfile_ok h)
  | savePreferences user => exact hsame (upsertPreferences_sameRooms db user ..)
  | createMeeting hhost h =>
    obtain ⟨topic, start, duration, k, number, db₁, -, hins, hrooms⟩ := createMeeting_ok h
    obtain ⟨hid, rfl, -⟩ := Db.insertMeeting_ok hins
    exact .of_mem (hrooms.participants ▸ hq)
  | updateMeeting => exact .of_mem hq
  | cancelMeeting => exact .of_mem hq
  | startMeeting => exact .of_mem hq
  | endMeeting => exact stamps_evictAll rfl hq
  | joinMeeting user m huser hcheck h =>
    obtain ⟨hid, hp, -, -⟩ := commitJoin_ok h
    rw [hp, Keyed.mem_insert] at hq
    rcases hq with hq | rfl
    · exact .of_mem hq
    · exact .joined rfl rfl
  | updateParticipant => exact stamps_updateRows hq (fun _ => rfl) fun _ => rfl
  | removeParticipant => exact stamps_markLeft rfl hq
  | leaveMeeting => exact stamps_markLeft rfl hq
  | @bindConnection participantId connectionId =>
    have hrow : q ∈ (db.updateRow participantId (·.bindTo connectionId)
      (Participant.bindTo_id · connectionId)).participants := hq
    exact stamps_updateRows hrow (fun _ => rfl) fun _ => rfl
  | staleConnection => exact .of_mem hq
  | releaseConnection => exact stamps_markLeft rfl hq
  | applyStateUpdate => exact stamps_updateRows hq (fun _ => rfl) fun _ => rfl
  | postMessage h =>
    obtain ⟨-, p, -, -, hins, -⟩ := postMessage_eq_ok.mp h
    exact hsame (Db.insertMessage_ok hins)
  | hostMute => exact stamps_updateRows hq (fun _ => rfl) fun _ => rfl
  | hostMuteAll => exact stamps_updateRows hq (fun _ => rfl) fun _ => rfl
  | hostRemove => exact stamps_markLeft rfl hq
  | hostEndMeeting => exact stamps_evictAll rfl hq

theorem apply_stamps (hq : q ∈ (db.apply op).participants) : q.Stamps db op := by
  cases h : runOperation db op with
  | error e =>
    rw [Db.apply, h] at hq
    exact .of_mem hq
  | ok db' =>
    rw [apply_of_ok h] at hq
    exact runOperation_stamps h hq

end Stamps

/-! ### What is on record -/

theorem Participant.Evolves.trans {p q r : Participant} (h : p.Evolves q) (h' : q.Evolves r) :
    p.Evolves r where
  id := h'.id.trans h.id
  meetingId := h'.meetingId.trans h.meetingId
  userId := h'.userId.trans h.userId
  displayName := h'.displayName.trans h.displayName
  role := h'.role.trans h.role
  sessionId := h'.sessionId.trans h.sessionId
  joinedAt := h'.joinedAt.trans h.joinedAt
  leftAt := by
    intro hp
    have hq := h.leftAt hp
    exact (h'.leftAt (hq ▸ hp)).trans hq

/-- Rows and messages are never deleted; a message never changes, and of a row only
the columns that are no part of the record do. -/
structure Db.Keeps (db db' : Db) : Prop where
  rows : ∀ p ∈ db.participants, ∃ q ∈ db'.participants, p.Evolves q
  messages : ∀ c ∈ db.chatMessages, c ∈ db'.chatMessages

theorem Db.Keeps.refl (db : Db) : db.Keeps db where
  rows := fun p hp => ⟨p, hp, .refl p⟩
  messages := fun _ hc => hc

theorem Db.Keeps.trans {db₁ db₂ db₃ : Db} (h : db₁.Keeps db₂) (h' : db₂.Keeps db₃) :
    db₁.Keeps db₃ where
  rows := by
    intro p hp
    obtain ⟨q, hq, hpq⟩ := h.rows p hp
    obtain ⟨r, hr, hqr⟩ := h'.rows q hq
    exact ⟨r, hr, hpq.trans hqr⟩
  messages := fun c hc => h'.messages c (h.messages c hc)

theorem keeps_apply (db : Db) (op : Operation) : db.Keeps (db.apply op) where
  rows := fun _ hp => row_apply hp op
  messages := by
    intro c hc
    have hmessages := (apply_people db op).2
    generalize db.apply op = db' at hmessages
    cases hmessages with
    | kept h => exact h ▸ hc
    | posted c' hid hp h => exact h ▸ Keyed.mem_insert.mpr (.inl hc)

/-- Stamps are in order, and a message belongs to the meeting of its sender. -/
structure Db.Recorded (db : Db) : Prop where
  leftAt : ∀ p ∈ db.participants, ∀ t, p.leftAt = some t → p.joinedAt ≤ t
  message : ∀ c ∈ db.chatMessages,
    ∃ p ∈ db.participants, p.id = c.participantId ∧ p.meetingId = c.meetingId

theorem recorded_empty : Db.empty.Recorded where
  leftAt := fun p hp => absurd hp (Keyed.not_mem_empty p)
  message := fun c hc => absurd hc (Keyed.not_mem_empty c)

/-- Nobody joined after the operation. -/
def JoinedNotAfter (db : Db) (op : Operation) : Prop :=
  ∀ p ∈ db.participants, ∀ now, op.time = some now → p.joinedAt ≤ now

theorem recorded_apply {db : Db} (h : db.Recorded) {op : Operation}
    (hclock : JoinedNotAfter db op) :
    (db.apply op).Recorded where
  leftAt := by
    intro q hq t hleft
    cases apply_stamps hq with
    | kept p hp hj hl =>
      rw [hj]
      exact h.leftAt p hp t (hl.symm.trans hleft)
    | closed p hp hj now ht hl =>
      -- the stamp is the time of this operation, and nobody joined after it
      obtain rfl := Option.some.inj (hleft.symm.trans hl)
      rw [hj]
      exact hclock p hp t ht
    | joined ht hl =>
      rw [hl] at hleft
      cases hleft
  message := by
    intro c hc
    have hrow {p : Participant} (hp : p ∈ db.participants) (hid : p.id = c.participantId)
        (hmeeting : p.meetingId = c.meetingId) : ∃ q ∈ (db.apply op).participants,
          q.id = c.participantId ∧ q.meetingId = c.meetingId := by
      obtain ⟨q, hq, he⟩ := row_apply hp op
      exact ⟨q, hq, he.id.trans hid, he.meetingId.trans hmeeting⟩
    -- the sender's row evolves, but keeps its id and its meeting
    have hmessages := (apply_people db op).2
    generalize db.apply op = db' at hmessages hc hrow
    cases hmessages with
    | kept heq =>
      obtain ⟨p, hp, hid, hmeeting⟩ := h.message c (heq ▸ hc)
      exact hrow hp hid hmeeting
    | posted c' hid hp heq =>
      rcases Keyed.mem_insert.mp (heq ▸ hc) with hc | rfl
      · obtain ⟨p, hp, hid, hmeeting⟩ := h.message c hc
        exact hrow hp hid hmeeting
      · obtain ⟨p, hp, hmeeting⟩ := hp
        exact hrow (getParticipant_mem hp) (Keyed.key_of_find? hp) hmeeting

/-! ### Runs -/

theorem keeps_run (db : Db) (ops : List Operation) : db.Keeps (Runs.run Db.apply db ops) := by
  induction ops generalizing db with
  | nil => exact .refl db
  | cons op ops ih => exact (keeps_apply db op).trans (ih (db.apply op))

/-- Every join stamp is the time of an operation of the run. -/
theorem joinedAt_mem_times (ops : List Operation) {p : Participant}
    (hp : p ∈ (Runs.run Db.apply .empty ops).participants) : p.joinedAt ∈ times ops := by
  -- from the end: a row either was there before the last operation or is its join
  induction ops using List.reverseRecOn generalizing p with
  | nil => exact absurd hp (Keyed.not_mem_empty p)
  | append_singleton ops op ih =>
    rw [Runs.run_concat] at hp
    rw [times, List.filterMap_append, List.mem_append]
    cases apply_stamps hp with
    | kept q hq hj _ => exact .inl (hj ▸ ih hq)
    | closed q hq hj _ _ _ => exact .inl (hj ▸ ih hq)
    | joined ht _ => exact .inr (List.mem_filterMap.mpr ⟨op, List.mem_singleton_self op, ht⟩)

theorem joinedNotAfter_of_times {ops : List Operation} (h : (times ops).Pairwise (· ≤ ·)) :
    Runs.Guarded Db.apply JoinedNotAfter .empty ops := by
  intro pre op hpre p hp now hnow
  have hsorted : (times (pre ++ [op])).Pairwise (· ≤ ·) :=
    h.sublist (hpre.sublist.filterMap Operation.time)
  rw [times, List.filterMap_append, List.pairwise_append] at hsorted
  exact hsorted.2.2 p.joinedAt (joinedAt_mem_times pre hp) now (by simp [hnow])

/-- **The audit trail is write-once.**  In every run whose clock does not go back,
what was on record at any time is on record at any later time, and in every state
the stamps are in order and the messages belong to their meetings. -/
theorem audit_trail (ops : List Operation) (hclock : (times ops).Pairwise (· ≤ ·)) :
    (∀ pre mid, pre ++ mid <+: ops →
      (Runs.run Db.apply .empty pre).Keeps (Runs.run Db.apply .empty (pre ++ mid))) ∧
      Runs.Always Db.apply Db.Recorded .empty ops := by
  constructor
  · intro pre mid _
    rw [Runs.run_append]
    exact keeps_run _ mid
  · exact Runs.Guarded.always recorded_empty (fun _ _ h hop => recorded_apply h hop)
      (joinedNotAfter_of_times hclock)

/-- A host who leaves twice. -/
theorem audit_trail_left :
    (∀ pre mid, pre ++ mid <+: openRequests.map .request ++
          [.request (.joinMeeting "host" "10000000003" {} ⟨"1", "s1"⟩ 20), .leaveMeeting "s1" 30,
            .leaveMeeting "s1" 40] →
        (Runs.run Db.apply .empty pre).Keeps (Runs.run Db.apply .empty (pre ++ mid))) ∧
      Runs.Always Db.apply Db.Recorded .empty (openRequests.map .request ++
        [.request (.joinMeeting "host" "10000000003" {} ⟨"1", "s1"⟩ 20), .leaveMeeting "s1" 30,
          .leaveMeeting "s1" 40]) :=
  audit_trail _ (by decide)

end ZoomClone
