/-
The life of a meeting.

`start_meeting`, `end_meeting` and `cancel_meeting` consult `TRANSITIONS`; the
host's join and `host.end` write the status without it.  Their changes are legal
all the same, because a row with role `host` is only ever inserted together with
its meeting going live:

* `Db.Hosted` — a meeting with such a row is live or ended (`hosted_apply`);
* `Meeting.Moves.legal`, `Meeting.Moves.stamped` — what that gives for one row;
* `lifecycle` — legality and stamps along every run whose clock does not go back.
-/
import ZoomClone.MeetingRows
import ZoomClone.Server

namespace ZoomClone

/-- Between the two databases every change of a meeting's status is a pair of
`TRANSITIONS`. -/
def LegalChange (db db' : Db) : Prop :=
  ∀ m ∈ db.meetings, ∀ m' ∈ db'.meetings, m'.id = m.id →
    m'.status = m.status ∨ m'.status ∈ allowedTargets m.status

/-- The stamps that go with a status. -/
structure Meeting.Stamped (m : Meeting) : Prop where
  scheduled : m.status = .scheduled →
    m.scheduledStart ≠ none ∧ m.startedAt = none ∧ m.endedAt = none
  live : m.status = .live → m.startedAt ≠ none ∧ m.endedAt = none
  ended : m.status = .ended → ∃ s e, m.startedAt = some s ∧ m.endedAt = some e ∧ s ≤ e
  cancelled : m.status = .cancelled → m.startedAt = none ∧ m.endedAt = none

def Db.Stamped (db : Db) : Prop := ∀ m ∈ db.meetings, m.Stamped

/-- The meeting is live, or was once. -/
def Meeting.BeenLive (m : Meeting) : Prop := m.status = .live ∨ m.status = .ended

/-- A row with role `host` belongs to a meeting that has been live. -/
def Db.Hosted (db : Db) : Prop :=
  ∀ p ∈ db.participants, p.role = .host → ∀ m ∈ db.meetings, m.id = p.meetingId → m.BeenLive

/-! ### One meeting row -/

section Row

variable {db : Db} {op : Operation} {m m' : Meeting}

theorem Meeting.Moves.beenLive (h : m.Moves db op m') (hm : m.BeenLive) : m'.BeenLive := by
  cases h with
  | kept => exact hm
  | edited changes topic start duration ha hs => exact hm
  | cancelled ha hs => rcases hm with hm | hm <;> rw [hs] at hm <;> cases hm
  | started now ha ht hs => exact .inl rfl
  | ended now ha ht hs => exact .inr rfl

/-- In a hosted database a meeting is ended from `live` or from `ended`. -/
theorem beenLive_of_ended (hhosted : db.Hosted) (hm : m ∈ db.meetings)
    (hs : m.status = .live ∨ ∃ p ∈ db.participants, p.meetingId = m.id ∧ p.role = .host) :
    m.BeenLive := by
  rcases hs with hlive | ⟨p, hp, hmeeting, hrole⟩
  · exact .inl hlive
  · exact hhosted p hp hrole m hm hmeeting.symm

theorem Meeting.Moves.legal (h : m.Moves db op m') (hhosted : db.Hosted) (hm : m ∈ db.meetings) :
    m'.status = m.status ∨ m'.status ∈ allowedTargets m.status := by
  cases h with
  | kept => exact .inl rfl
  | edited changes topic start duration ha hs => exact .inl rfl
  | cancelled ha hs =>
    right
    simp [Meeting.cancel, hs, allowedTargets]
  | started now ha ht hs => exact .inr (live_mem_allowedTargets.mpr hs)
  | ended now ha ht hs =>
    rcases beenLive_of_ended hhosted hm hs with hlive | hended
    · exact .inr (ended_mem_allowedTargets.mpr hlive)
    · -- Ending twice over `host.end` rewrites the stamp, not the status.
      exact .inl hended.symm

/-- The stamps survive a move at a time not before the start of the meeting. -/
theorem Meeting.Moves.stamped (h : m.Moves db op m') (hhosted : db.Hosted) (hm : m ∈ db.meetings)
    (hstamped : m.Stamped)
    (hclock : ∀ s now, m.startedAt = some s → op.time = some now → s ≤ now) : m'.Stamped := by
  cases h with
  | kept => exact hstamped
  | edited changes topic start duration ha hs =>
    obtain ⟨hscheduled, hstarted, hended⟩ := hstamped.scheduled hs
    have hstart : (start <|> m.scheduledStart) ≠ none := by
      cases start with
      | none => exact hscheduled
      | some t => exact Option.some_ne_none t
    exact ⟨fun _ => ⟨hstart, hstarted, hended⟩, hstamped.live, hstamped.ended, hstamped.cancelled⟩
  | cancelled ha hs =>
    obtain ⟨-, hstarted, hended⟩ := hstamped.scheduled hs
    refine ⟨?_, ?_, ?_, fun _ => ⟨hstarted, hended⟩⟩ <;> intro hstatus <;> cases hstatus
  | started now ha ht hs =>
    refine ⟨?_, fun _ => ⟨Option.some_ne_none now, rfl⟩, ?_, ?_⟩ <;> intro hstatus <;> cases hstatus
  | ended now ha ht hs =>
    have hstarted : ∃ s, m.startedAt = some s := by
      rcases beenLive_of_ended hhosted hm hs with hlive | hended
      · exact Option.ne_none_iff_exists'.mp (hstamped.live hlive).1
      · obtain ⟨s, -, hs, -⟩ := hstamped.ended hended
        exact ⟨s, hs⟩
    obtain ⟨s, hs⟩ := hstarted
    refine ⟨?_, ?_, fun _ => ⟨s, now, hs, rfl, hclock s now hs ht⟩, ?_⟩ <;> intro hstatus <;>
      cases hstatus

theorem Db.Creates.isStamped (h : db.Creates op m) : m.Stamped := by
  obtain ⟨now, -, hended, ⟨hs, hscheduled, hstarted⟩ | ⟨hs, hstarted⟩⟩ := h.stamped
  · refine ⟨fun _ => ⟨hscheduled, hstarted, hended⟩, ?_, ?_, ?_⟩ <;> intro hstatus <;>
      rw [hs] at hstatus <;> cases hstatus
  · refine ⟨?_, fun _ => ⟨by simp [hstarted], hended⟩, ?_, ?_⟩ <;> intro hstatus <;>
      rw [hs] at hstatus <;> cases hstatus

/-- A start stamp is old, or the time of the operation that wrote it. -/
theorem Meeting.Moves.startedAt (h : m.Moves db op m') {s : DateTime} (hs : m'.startedAt = some s) :
    m.startedAt = some s ∨ op.time = some s := by
  cases h with
  | kept => exact .inl hs
  | edited changes topic start duration ha hstatus => exact .inl hs
  | cancelled ha hstatus => exact .inl hs
  | started now ha ht hstatus =>
    obtain rfl := Option.some.inj hs
    exact .inr ht
  | ended now ha ht hstatus => exact .inl hs

theorem Db.Creates.startedAt (h : db.Creates op m) {s : DateTime} (hs : m.startedAt = some s) :
    op.time = some s := by
  obtain ⟨now, ht, -, ⟨-, -, hstarted⟩ | ⟨-, hstarted⟩⟩ := h.stamped
  · rw [hstarted] at hs
    cases hs
  · rw [hstarted] at hs
    rw [ht, hs]

end Row

/-! ### The host rows -/

/-- A row after an operation is an old one that evolved, or the row of a join. -/
theorem Change.row_cases {db db' : Db} {op : Operation} (h : Change db op db') {q : Participant}
    (hq : q ∈ db'.participants) :
    (∃ p ∈ db.participants, p.Evolves q) ∨
      ∃ m user req draws now, m ∈ db.meetings ∧ (m.status ≠ .ended ∧ m.status ≠ .cancelled) ∧
        q = joinRow db m user req draws now ∧
        db'.meetings = (db.welcomeHost m user now).meetings := by
  by_cases hold : ∃ p ∈ db.participants, p.Evolves q
  · exact .inl hold
  right
  obtain ⟨f, added, hf, -⟩ := h.rows
  have hnew : q ∉ db.participants := fun hmem => hold ⟨q, hmem, .refl q⟩
  have hadded : q.id ∉ db.participants.keys := by
    rcases hf.mem.mp hq with ⟨p, hp, rfl⟩ | hadded
    · exact absurd ⟨p, hp, hf.evolves p hp⟩ hold
    · exact (hf.inserts q hadded).newId
  have hsame {P : Participant → Prop} [DecidablePred P] {g : Participant → Participant}
      (hg : ∀ p, (g p).id = p.id) (hmem : q ∈ (db.updateRows P g hg).participants) : False := by
    obtain ⟨p, hp, rfl⟩ := Db.mem_updateRows.mp hmem
    refine hadded ?_
    have hkey := Keyed.key_mem_keys hp
    split
    · rwa [hg p]
    · exact hkey
  cases h with
  | aside h => exact absurd (h.participants ▸ hq) hnew
  | created m hid hs hm hp => exact absurd (hp ▸ hq) hnew
  | edited id f hf hn hs => exact absurd hq hnew
  | cancelled m hm hs => exact absurd hq hnew
  | started m now hm hs => exact absurd hq hnew
  | ended m now hm => exact (hsame (Participant.evict_id · now) hq).elim
  | joined m user req draws now hm hs hlt hid hsession hp hmeetings =>
    rw [hp, Keyed.mem_insert] at hq
    rcases hq with hq | rfl
    · exact absurd hq hnew
    · exact ⟨m, user, req, draws, now, hm, hs, rfl, hmeetings⟩
  | media P g hg he hl hc => exact (hsame hg hq).elim
  | closed p now hp => exact (hsame (Participant.markLeft_id · now) hq).elim
  | @bound participantId c => exact (hsame (Participant.bindTo_id · c) hq).elim

/-- A join of the host leaves its meeting live. -/
theorem live_welcomeHost {db : Db} {m : Meeting} {user : User}
    {now : DateTime} (hm : m ∈ db.meetings)
    (hhost : m.hostId = user.id) {m' : Meeting} (hm' : m' ∈ (db.welcomeHost m user now).meetings)
    (hid : m'.id = m.id) : m'.status = .live := by
  rw [Db.welcomeHost] at hm'
  split at hm'
  · obtain ⟨n, hn, rfl⟩ := Db.mem_updateMeetingRow.mp hm'
    by_cases hkey : n.id = m.id
    · rw [if_pos hkey]
      rfl
    · rw [if_neg hkey] at hid
      exact absurd hid hkey
  · next hlive =>
    obtain rfl := Keyed.eq_of_key_eq hm' hm hid
    by_contra hstatus
    exact hlive ⟨hhost, hstatus⟩

/-- **Host rows only exist in meetings that have been live.** -/
theorem hosted_apply {db : Db} (hv : db.Valid) (hhosted : db.Hosted) (op : Operation) :
    (db.apply op).Hosted := by
  intro q hq hrole m' hm' hid
  rcases apply_change db op with h | h
  · rw [h] at hq hm'
    exact hhosted q hq hrole m' hm' hid
  rcases h.row_cases hq with ⟨p, hp, he⟩ | ⟨m, user, req, draws, now, hm, hs, rfl, hmeetings⟩
  · -- An old row: its meeting was there, and only moved.
    obtain ⟨m, hm, hmid⟩ := Keyed.mem_keys.mp (hv.meeting p hp)
    have hmoves := moves_apply hm hm' (hid.trans (he.meetingId.trans hmid.symm))
    exact hmoves.beenLive (hhosted p hp (he.role.symm.trans hrole) m hm hmid)
  · have hhost : m.hostId = user.id := by
      by_contra hne
      simp [joinRow, hne] at hrole
    rw [hmeetings] at hm'
    exact .inl (live_welcomeHost hm hhost hm' hid)

theorem hosted_empty : Db.empty.Hosted := by
  intro p hp
  exact absurd hp (Keyed.not_mem_empty p)

/-! ### Runs -/

/-- The database is valid and hosted in every reachable state. -/
theorem always_hosted (ops : List Operation) :
    Runs.Always Db.apply (fun db => db.Valid ∧ db.Hosted) .empty ops :=
  Runs.always_of_step ⟨valid_empty, hosted_empty⟩
    (fun _ op h => ⟨valid_apply h.1 op, hosted_apply h.1 h.2 op⟩) ops

/-- The times at which a run reads the clock. -/
def times (ops : List Operation) : List DateTime := ops.filterMap Operation.time

/-- Every start stamp is the time of an operation of the run. -/
theorem startedAt_mem_times (ops : List Operation) {m : Meeting}
    (hm : m ∈ (Runs.run Db.apply .empty ops).meetings) {s : DateTime} (hs : m.startedAt = some s) :
    s ∈ times ops := by
  induction ops using List.reverseRecOn generalizing m with
  | nil => exact absurd hm (Keyed.not_mem_empty m)
  | append_singleton ops op ih =>
    rw [Runs.run_concat] at hm
    rw [times, List.filterMap_append, List.mem_append]
    have hnow (h : op.time = some s) : s ∈ [op].filterMap Operation.time := by simp [h]
    obtain ⟨f, added, h⟩ := apply_meetings (Runs.run Db.apply .empty ops) op
    rcases h.cases hm with ⟨n, hn, hmoves⟩ | hcreates
    · rcases hmoves.startedAt hs with hold | hop
      · exact .inl (ih hn hold)
      · exact .inr (hnow hop)
    · exact .inr (hnow (hcreates.startedAt hs))

/-- No meeting starts after the operation. -/
def ClockNotBefore (db : Db) (op : Operation) : Prop :=
  ∀ m ∈ db.meetings, ∀ s now, m.startedAt = some s → op.time = some now → s ≤ now

/-- A clock that does not go back never shows a time before a start stamp. -/
theorem clockNotBefore_of_times {ops : List Operation} (h : (times ops).Pairwise (· ≤ ·)) :
    Runs.Guarded Db.apply ClockNotBefore .empty ops := by
  intro pre op hpre m hm s now hs hnow
  have hsorted : (times (pre ++ [op])).Pairwise (· ≤ ·) :=
    h.sublist (hpre.sublist.filterMap Operation.time)
  rw [times, List.filterMap_append, List.pairwise_append] at hsorted
  exact hsorted.2.2 s (startedAt_mem_times pre hm hs) now (by simp [hnow])

theorem stamped_apply {db : Db} (hhosted : db.Hosted) (hstamped : db.Stamped) {op : Operation}
    (hclock : ClockNotBefore db op) : (db.apply op).Stamped := by
  intro m' hm'
  obtain ⟨f, added, h⟩ := apply_meetings db op
  rcases h.cases hm' with ⟨m, hm, hmoves⟩ | hcreates
  · exact hmoves.stamped hhosted hm (hstamped m hm) fun s now => hclock m hm s now
  · exact hcreates.isStamped

/-- **The lifecycle of a meeting.**  In every run whose clock does not go back,
each change of a status is a pair of `TRANSITIONS`, and the stamps of every
meeting fit its status in every state. -/
theorem lifecycle (ops : List Operation) (hclock : (times ops).Pairwise (· ≤ ·)) :
    Runs.Guarded Db.apply (fun db op => LegalChange db (db.apply op)) .empty ops ∧
      Runs.Always Db.apply Db.Stamped .empty ops := by
  constructor
  · intro pre op hpre m hm m' hm' hid
    have hhosted := (always_hosted pre).last.2
    exact (moves_apply hm hm' hid).legal hhosted hm
  · have hempty : Db.empty.Stamped := fun m hm => absurd hm (Keyed.not_mem_empty m)
    have hrun := Runs.Guarded.always (I := fun db => (db.Valid ∧ db.Hosted) ∧ db.Stamped)
      ⟨⟨valid_empty, hosted_empty⟩, hempty⟩
      (fun db op h hop => ⟨⟨valid_apply h.1.1 op, hosted_apply h.1.1 h.1.2 op⟩,
        stamped_apply h.1.2 h.2 hop⟩)
      (clockNotBefore_of_times hclock)
    exact hrun.mono fun db h => h.2

/-- A meeting that is opened, joined by its host and ended. -/
theorem lifecycle_ended :
    Runs.Guarded Db.apply (fun db op => LegalChange db (db.apply op)) .empty
        (openRequests.map .request ++
      [.request (.joinMeeting "host" "10000000003" {} ⟨"1", "s1"⟩ 20),
          .hostEndMeeting "1" 30]) ∧
      Runs.Always Db.apply Db.Stamped .empty
        (openRequests.map .request ++
      [.request (.joinMeeting "host" "10000000003" {} ⟨"1", "s1"⟩ 20),
          .hostEndMeeting "1" 30]) :=
  lifecycle _ (by decide)

end ZoomClone
