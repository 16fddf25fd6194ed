/-
Resuming after a drop.

A participant is connected, its socket drops, and its client opens the same url
again.  The server notices the old socket's end and handles the new socket's
handshake in any order.

* `Network.HandsOver` — an event of a hand-over that goes right: no socket that
  owns the row is torn down, and once the new socket is registered no other one
  is registered for the row;
* `Network.resumed_iff_handsOver` — the new socket takes the row over exactly when
  every event since the drop is one of those.

`authenticate` refuses a closed row, and `release_connection` closes the row
unless a newer socket is bound to it, so that with two sockets the condition says
that the new one was registered before the old one was torn down.
-/
import ZoomClone.SocketSteps

namespace ZoomClone

namespace Db

/-- The row of `p` is open, and the meeting is not over. -/
def Present (db : Db) (p : ParticipantId) : Prop :=
  ∃ row ∈ db.getParticipant p, row.leftAt = none ∧
    ∃ m ∈ db.getMeeting row.meetingId, m.status ≠ .ended ∧ m.status ≠ .cancelled

/-- The row of `p` is open, and socket `c` owns it. -/
def Bound (db : Db) (p : ParticipantId) (c : ConnectionId) : Prop :=
  ∃ row ∈ db.getParticipant p, row.leftAt = none ∧ row.connectionId = some c

instance (db : Db) (p : ParticipantId) : Decidable (db.Present p) :=
  inferInstanceAs (Decidable (∃ row ∈ db.getParticipant p, _))

instance (db : Db) (p : ParticipantId) (c : ConnectionId) : Decidable (db.Bound p c) :=
  inferInstanceAs (Decidable (∃ row ∈ db.getParticipant p, _))

end Db

/-- The socket that is registered. -/
def NetEvent.registers : NetEvent → Option ConnectionId
  | .register c => some c
  | _ => none

def WireItem.IsRoomState : WireItem → Prop
  | .frame f => ∃ snapshot, f.body = .roomState snapshot
  | .close _ => False

namespace Network

/-- `p` is in the meeting, over socket `c`. -/
structure Connected (n : Network) (p : ParticipantId) (c : ConnectionId) : Prop where
  socket : (n.clients p).socket = some c
  up : (n.up c).map Connection.participantId = some p
  present : n.server.db.Present p
  bound : n.server.db.Bound p c

/-- The client of `p` waits to open its next socket, and `c` is a new one. -/
structure CanReopen (n : Network) (p : ParticipantId) (c : ConnectionId) : Prop where
  fresh : n.tasks c = none
  timer : ∃ client ∈ (n.clients p).signaling, client.reconnectTimer.isSome

/-- Socket `c` was accepted for `p` and was sent a snapshot; the row of `p` is
open, and the socket owns it. -/
structure Resumed (n : Network) (p : ParticipantId) (c : ConnectionId) : Prop where
  up : (n.up c).map Connection.participantId = some p
  greeted : ∃ item ∈ (n.wires c).items, item.IsRoomState
  bound : n.server.db.Bound p c

/-- `p` is not removed and does not leave, its meeting is not ended or cancelled,
and the new socket `c` does not drop: nothing but the end of an older socket can
end the presence of `p`. -/
def Stays (p : ParticipantId) (c : ConnectionId) (n : Network) (e : NetEvent) : Prop :=
  e.disconnects ≠ some c ∧
    (e.disconnects = none → n.server.db.Present p → (n.next e).server.db.Present p)

instance (p : ParticipantId) (c : ConnectionId) (n : Network) (e : NetEvent) :
    Decidable (Stays p c n e) :=
  inferInstanceAs (Decidable (_ ∧ _))

/-- No socket that owns the row of `p` is torn down, and once socket `c` is
registered no other one is registered for `p`. -/
def HandsOver (p : ParticipantId) (c : ConnectionId) (n : Network) (e : NetEvent) : Prop :=
  (∀ d ∈ e.disconnects, (n.idle d).map Connection.participantId = some p →
    ¬ n.server.db.Bound p d) ∧
    ∀ d ∈ e.registers, (n.admitted d).map Participant.id = some p → d = c ∨ n.up c = none

instance (p : ParticipantId) (c : ConnectionId) (n : Network) (e : NetEvent) :
    Decidable (HandsOver p c n e) :=
  inferInstanceAs (Decidable ((∀ d ∈ e.disconnects, _) ∧ ∀ d ∈ e.registers, _))

/-! ### Rows over one event -/

variable {n n' : Network} {e : NetEvent} {p : ParticipantId} {c : ConnectionId}

theorem getParticipant_eq_some {db : Db} {row : Participant} :
    db.getParticipant p = some row ↔ row ∈ db.participants ∧ row.id = p :=
  Keyed.find?_eq_some

theorem getParticipant_updateRow (db : Db) (id : ParticipantId) (f : Participant → Participant)
    (hf : ∀ p, (f p).id = p.id) : (db.updateRow id f hf).getParticipant p =
      (db.getParticipant p).map fun row => if p = id then f row else row := by
  have hmap : (db.updateRow id f hf).getParticipant p =
      (db.getParticipant p).map fun row => if row.id = id then f row else row := by
    rw [Db.getParticipant, Db.updateRow, Db.updateRows, Keyed.find?_map]
    rfl
  rw [hmap]
  cases h : db.getParticipant p with
  | none => rfl
  | some row => rw [Option.map_some, Option.map_some, (getParticipant_eq_some.mp h).2]

/-- The row after an event. -/
theorem Step.getParticipant (h : n.Step e n') {row : Participant}
    (hrow : n.server.db.getParticipant p = some row) :
    ∃ row', n'.server.db.getParticipant p = some row' ∧ row.Evolves row' ∧
      (row'.leftAt = none → row'.connectionId = row.connectionId ∨
        ∃ c m q, e = .register c ∧ n.tasks c = some (.accepting m q) ∧ q.id = p ∧
          row'.connectionId = some c) := by
  obtain ⟨hmem, rfl⟩ := getParticipant_eq_some.mp hrow
  obtain ⟨row', hmem', he⟩ := h.rows hmem
  obtain ⟨-, hconnection⟩ := h.row hmem hmem' he.id
  exact ⟨row', getParticipant_eq_some.mpr ⟨hmem', he.id⟩, he, hconnection⟩

/-- The server notices the end of an idle socket. -/
theorem next_disconnect {d : Connection} (htask : n.idle c = some d) (now : DateTime) :
    n.next (.disconnect c now) =
      { n with server := (teardown n.server d now).1 }.setTask c
        (.handling d true (teardown n.server d now).2) := by
  obtain ⟨t, ht, hidle⟩ := Option.bind_eq_some_iff.mp htask
  rw [SocketTask.idle_eq_some.mp hidle] at ht
  simp only [next, ht]

/-- A socket whose handshake is through. -/
theorem next_register (hv : n.server.Valid) {q : Participant} (htask : n.admitted c = some q) :
    (n.next (.register c)).server.db = bindConnection n.server.db q.id c ∧
      (∃ m, (n.next (.register c)).up c = some ⟨c, q.id, m⟩) ∧
      (∀ c', c' ≠ c → (n.next (.register c)).up c' = n.up c') ∧
      ∃ item ∈ ((n.next (.register c)).wires c).items, item.IsRoomState := by
  obtain ⟨t, ht, hadmitted⟩ := Option.bind_eq_some_iff.mp htask
  obtain ⟨m, rfl⟩ := SocketTask.admitted_eq_some.mp hadmitted
  obtain ⟨snapshot, -, -, heq⟩ := acceptSocket_eq hv m q c
  simp only [next, ht, heq]
  refine ⟨rfl, ⟨m.id, up_setTask_self ..⟩, fun c' hc => up_setTask_of_ne _ hc _, ?_⟩
  · refine ⟨.frame { body := .roomState snapshot, recipient := some q.id }, ?_, snapshot, rfl⟩
    show _ ∈ ((n.wires c).push (itemsFor c _)).items
    rw [Wire.items_push]
    refine List.mem_append_right _ ?_
    simp [itemsFor]

/-! ### The hand-over keeps the row -/

theorem getMeeting_eq_some {db : Db} {id : MeetingId} {m : Meeting} :
    db.getMeeting id = some m ↔ m ∈ db.meetings ∧ m.id = id :=
  Keyed.find?_eq_some

/-- A teardown leaves the row of `p` alone unless the socket owns it. -/
theorem present_release {db : Db} (h : db.Present p) {q : ParticipantId} (now : DateTime)
    (howner : q = p → ¬ db.Bound p c) : (releaseConnection db q c now).2.Present p := by
  obtain ⟨row, hrow, hopen, hmeeting⟩ := h
  rw [releaseConnection_eq]
  split
  · exact ⟨row, hrow, hopen, hmeeting⟩
  · next closed hclosed =>
    obtain ⟨hget, hbound⟩ := Option.filter_eq_some_iff.mp hclosed
    have hid := (getParticipant_eq_some.mp hget).2
    have hne : p ≠ closed.id := by
      -- Otherwise the socket owns the open row.
      intro hp
      have hq : q = p := hid.symm.trans hp.symm
      rw [hq] at hget
      obtain rfl := Option.some.inj (hget.symm.trans hrow)
      exact howner hq ⟨closed, hget, hopen, by simpa using hbound⟩
    refine ⟨row, ?_, hopen, hmeeting⟩
    show (markLeft db closed now).2.getParticipant p = some row
    rw [markLeft, getParticipant_updateRow, hrow, Option.map_some, if_neg hne]

/-- **`p` stays present** through every event of the hand-over. -/
theorem present_next (hv : n.Valid) (h : n.server.db.Present p) (hstays : Stays p c n e)
    (hover : HandsOver p c n e) : (n.next e).server.db.Present p := by
  cases e with
  | disconnect d now =>
    rcases next_cases hv.server (.disconnect d now) with heq | hstep
    · rwa [heq]
    · generalize n.next (.disconnect d now) = n' at hstep
      cases hstep with
      | tornDown connection server actions htask hteardown =>
        cases hteardown
        obtain ⟨hid, -⟩ := hv.handling d connection false [] htask
        refine present_release h now ?_
        intro hparticipant
        rw [hid]
        refine hover.1 d rfl ?_
        rw [idle, htask, ← hparticipant]
        rfl
      | abandoned htask => exact h
  | _ => exact hstays.2 rfl h

/-- A row of a present participant passes `authenticate`. -/
theorem present_authenticate (hv : n.server.db.Valid) (h : n.server.db.Present p)
    {url : SignalingUrl}
    (hurl : url.Names n.server.db p) :
    ∃ m q, ZoomClone.authenticate n.server.db url.meetingNumber url.sessionId = .ok (m, q) ∧
      q.id = p := by
  obtain ⟨row, hrow, hopen, m, hm, hstatus⟩ := h
  obtain ⟨q, hq, hid, hsession, m', hm', hmeeting, hnumber⟩ := hurl
  have hrowq : row = q := by
    obtain ⟨hmem, hrowid⟩ := getParticipant_eq_some.mp hrow
    exact Keyed.eq_of_key_eq hmem hq (hrowid.trans hid.symm)
  subst hrowq
  have hmm' : m = m' := by
    obtain ⟨hmem, hmid⟩ := getMeeting_eq_some.mp hm
    exact Keyed.eq_of_key_eq hmem hm' (hmid.trans hmeeting.symm)
  subst hmm'
  have hfind : n.server.db.participantBySession url.sessionId = some row := by
    cases hfound : n.server.db.participantBySession url.sessionId with
    | none =>
      have := List.find?_eq_none.mp hfound row hq
      simp [hsession] at this
    | some row' =>
      have hsession' : row'.sessionId = url.sessionId := by simpa using List.find?_some hfound
      rw [eq_of_session hv (participantBySession_mem hfound) hq (hsession'.trans hsession.symm)]
  exact ⟨m, row, authenticate_eq_ok.mpr ⟨hfind, hm, hnumber, hstatus, hopen⟩, hid⟩

/-- The new socket `c` of `p` is on its way, or has taken over. -/
inductive Resuming (n : Network) (p : ParticipantId) (c : ConnectionId) : Prop
  | requested (url : SignalingUrl) (htask : n.tasks c = some (.requested url))
      (hnames : url.Names n.server.db p)
  | accepting (m : Meeting) (q : Participant) (htask : n.tasks c = some (.accepting m q))
      (hid : q.id = p)
  | resumed (h : n.Resumed p c)

/-- A socket that is registered for a present participant takes over. -/
theorem present_register (hv : n.server.Valid) (h : n.server.db.Present p)
    {m : Meeting} {q : Participant}
    (htask : n.tasks c = some (.accepting m q)) (hid : q.id = p) :
    (n.next (.register c)).Resumed p c := by
  have hadmitted : n.admitted c = some q := by
    rw [admitted, htask]
    rfl
  obtain ⟨hdb, ⟨m', hup⟩, -, hgreeted⟩ := next_register hv hadmitted
  refine ⟨?_, hgreeted, ?_⟩
  · rw [hup, ← hid]
    rfl
  · obtain ⟨row, hrow, hopen, -⟩ := h
    refine ⟨row.bindTo c, ?_, hopen, rfl⟩
    rw [hdb, bindConnection, hid]
    show (n.server.db.updateRow p _ _).getParticipant p = some (row.bindTo c)
    rw [getParticipant_updateRow, hrow, Option.map_some, if_pos rfl]

/-- A socket that has taken over keeps the row. -/
theorem Resumed.step (h : n.Resumed p c) (hstep : n.Step e n') (hpresent : n'.server.db.Present p)
    (hstays : e.disconnects ≠ some c) (hover : HandsOver p c n e) : n'.Resumed p c := by
  obtain ⟨d, hup, hd⟩ := Option.map_eq_some_iff.mp h.up
  refine ⟨?_, ?_, ?_⟩
  · rw [hstep.up hup hstays, ← hd]
    rfl
  · have htask : n.tasks c ≠ none := by
      intro hnone
      rw [Network.up, hnone] at hup
      cases hup
    obtain ⟨sent, hsent⟩ := hstep.wire htask
    obtain ⟨item, hitem, hroom⟩ := h.greeted
    exact ⟨item, hsent ▸ List.mem_append_left _ hitem, hroom⟩
  · obtain ⟨row, hrow, -, hc⟩ := h.bound
    obtain ⟨row', hrow', -, hconnection⟩ := hstep.getParticipant hrow
    obtain ⟨row'', hrow'', hopen, -⟩ := hpresent
    obtain rfl := Option.some.inj (hrow'.symm.trans hrow'')
    refine ⟨row', hrow', hopen, ?_⟩
    rcases hconnection hopen with heq | ⟨c', m, q, rfl, htask, hid, hc'⟩
    · exact heq.trans hc
    · -- Another socket is registered for `p`: only the new one can be.
      have hadmitted : (n.admitted c').map Participant.id = some p := by
        rw [admitted, htask, ← hid]
        rfl
      rcases hover.2 c' rfl hadmitted with rfl | hnone
      · exact hc'
      · rw [hup] at hnone
        cases hnone

/-- **One event of the hand-over** brings the new socket on. -/
theorem Resuming.next (hv : n.Valid) (hpresent : n.server.db.Present p) (h : n.Resuming p c)
    (hstays : Stays p c n e) (hover : HandsOver p c n e) : (n.next e).Resuming p c := by
  have hpresent' := present_next hv hpresent hstays hover
  rcases next_cases hv.server e with heq | hstep
  · rwa [heq]
  cases h with
  | requested url htask hnames =>
    rcases hstep.task c with heq | ⟨hnone, -⟩ | ⟨t, t', ht, ht', hmoves⟩
    · exact .requested url (heq.trans htask) (hstep.names hnames)
    · rw [htask] at hnone
      cases hnone
    · rw [htask] at ht
      obtain rfl := Option.some.inj ht
      obtain ⟨m, q, hok, hid⟩ := present_authenticate hv.server.db hpresent hnames
      cases hmoves with
      | refused url e hauth =>
        rw [hok] at hauth
        cases hauth
      | admitted url m' q' hauth =>
        rw [hok] at hauth
        cases hauth
        exact .accepting m q ht' hid
      | unrequested url now => exact absurd rfl hstays.1
  | accepting m q htask hid =>
    rcases hstep.task c with heq | ⟨hnone, -⟩ | ⟨t, t', ht, ht', hmoves⟩
    · exact .accepting m q (heq.trans htask) hid
    · rw [htask] at hnone
      cases hnone
    · rw [htask] at ht
      obtain rfl := Option.some.inj ht
      cases hmoves with
      | registered m q you hyou => exact .resumed (present_register hv.server hpresent htask hid)
      | unaccepted m q now => exact absurd rfl hstays.1
  | resumed h => exact .resumed (h.step hstep hpresent' hstays.1 hover)

/-! ### Anything else loses it -/

/-- The row of `p` is closed, or another socket was bound to it after `c`. -/
def Lost (n : Network) (p : ParticipantId) (c : ConnectionId) : Prop :=
  ∃ row ∈ n.server.db.getParticipant p,
    row.leftAt ≠ none ∨ (n.up c ≠ none ∧ row.connectionId ≠ some c)

theorem Lost.not_resumed (h : n.Lost p c) : ¬ n.Resumed p c := by
  intro hresumed
  obtain ⟨row, hrow, hlost⟩ := h
  obtain ⟨row', hrow', hopen, hc⟩ := hresumed.bound
  obtain rfl := Option.some.inj (hrow.symm.trans hrow')
  rcases hlost with hclosed | ⟨-, hne⟩
  · exact hclosed hopen
  · exact hne hc

/-- **What is lost stays lost.** -/
theorem Lost.next (hv : n.server.Valid) (h : n.Lost p c) (hstays : e.disconnects ≠ some c) :
    (n.next e).Lost p c := by
  rcases next_cases hv e with heq | hstep
  · rwa [heq]
  obtain ⟨row, hrow, hlost⟩ := h
  obtain ⟨row', hrow', hevolves, hconnection⟩ := hstep.getParticipant hrow
  refine ⟨row', hrow', ?_⟩
  by_cases hopen : row'.leftAt = none
  · right
    rcases hlost with hclosed | ⟨hup, hne⟩
    · exact absurd (hevolves.open_of_open hopen) hclosed
    · obtain ⟨d, hd⟩ := Option.ne_none_iff_exists'.mp hup
      refine ⟨by rw [hstep.up hd hstays]; exact Option.some_ne_none d, ?_⟩
      rcases hconnection hopen with heq | ⟨c', m, q, -, htask, -, hc'⟩
      · rwa [heq]
      · -- Socket `c` was registered before, so this is another one.
        rintro hc
        obtain rfl : c' = c := Option.some.inj (hc'.symm.trans hc)
        rw [up, htask] at hd
        cases hd
  · exact .inl hopen

/-- **An event that is not part of a hand-over** loses the row. -/
theorem lost_of_not_handsOver (hv : n.Valid) (h : ¬ HandsOver p c n e) : (n.next e).Lost p c := by
  rw [HandsOver, not_and_or] at h
  rcases h with h | h
  · -- The socket that owns the row is torn down.
    push Not at h
    obtain ⟨c', he, hidle, hbound⟩ := h
    cases e with
    | disconnect c'' now =>
      obtain rfl : c'' = c' := Option.some.inj he
      obtain ⟨d, hd, hp⟩ := Option.map_eq_some_iff.mp hidle
      obtain ⟨row, hrow, -, hc⟩ := hbound
      have hid : d.connectionId = c'' := by
        obtain ⟨t, ht, hit⟩ := Option.bind_eq_some_iff.mp hd
        rw [SocketTask.idle_eq_some.mp hit] at ht
        exact (hv.handling _ _ _ _ ht).1
      have hfilter : (n.server.db.getParticipant d.participantId).filter
          (fun q => q.connectionId = some d.connectionId) = some row := by
        rw [hp, Option.filter_eq_some_iff]
        exact ⟨hrow, by simp [hc, hid]⟩
      rw [next_disconnect hd]
      refine ⟨row.markLeft now, ?_, .inl (Option.some_ne_none _)⟩
      show (releaseConnection n.server.db d.participantId d.connectionId now).2.getParticipant p =
        some (row.markLeft now)
      rw [releaseConnection_eq, hfilter]
      show (markLeft n.server.db row now).2.getParticipant p = some (row.markLeft now)
      have hrowid := (getParticipant_eq_some.mp hrow).2
      rw [markLeft, getParticipant_updateRow, hrow, Option.map_some, if_pos hrowid.symm]
    | _ => cases he
  · -- Another socket is registered after the new one.
    push Not at h
    obtain ⟨c', he, hadmitted, hne, hup⟩ := h
    cases e with
    | register c'' =>
      obtain rfl : c'' = c' := Option.some.inj he
      obtain ⟨q, hq, hid⟩ := Option.map_eq_some_iff.mp hadmitted
      obtain ⟨hdb, -, hother, -⟩ := next_register hv.server hq
      obtain ⟨t, ht, hadm⟩ := Option.bind_eq_some_iff.mp hq
      obtain ⟨m, rfl⟩ := SocketTask.admitted_eq_some.mp hadm
      obtain ⟨row, hrow, hrowid, -⟩ := hv.accepting c'' m q ht
      have hget : n.server.db.getParticipant p = some row :=
        getParticipant_eq_some.mpr ⟨hrow, hrowid.trans hid⟩
      refine ⟨row.bindTo c'', ?_, .inr ⟨?_, ?_⟩⟩
      · rw [hdb, bindConnection, hid]
        show (n.server.db.updateRow p _ _).getParticipant p = some (row.bindTo c'')
        rw [getParticipant_updateRow, hget, Option.map_some, if_pos rfl]
      · rwa [hother c hne.symm]
      · exact fun h => hne (Option.some.inj h)
    | _ => cases he

/-! ### Every order -/

/-- A row that is lost stays lost. -/
theorem Lost.run {events : List NetEvent} (hv : n.Valid) (h : n.Lost p c)
    (hstays : Runs.Guarded Network.next (Stays p c) n events) :
    (Runs.run Network.next n events).Lost p c := by
  have halways : Runs.Always Network.next (fun n => n.Valid ∧ n.Lost p c) n events :=
    Runs.Guarded.always ⟨hv, h⟩
      (fun _ e h hstays => ⟨h.1.next e, h.2.next h.1.server hstays.1⟩) hstays
  exact halways.last.2

/-- `p` stays present as long as sockets are handed over. -/
theorem present_run {events : List NetEvent} (hv : n.Valid) (hpresent : n.server.db.Present p)
    (hstays : Runs.Guarded Network.next (Stays p c) n events)
    (hover : Runs.Guarded Network.next (HandsOver p c) n events) :
    (Runs.run Network.next n events).Valid ∧ (Runs.run Network.next n events).server.db.Present p :=
  (Runs.Guarded.always (I := fun n => n.Valid ∧ n.server.db.Present p)
    (C := fun n e => Stays p c n e ∧ HandsOver p c n e) ⟨hv, hpresent⟩
    (fun _ e h he => ⟨h.1.next e, present_next h.1 h.2 he.1 he.2⟩)
    fun pre e hpre => ⟨hstays pre e hpre, hover pre e hpre⟩).last

/-- A socket that resumes comes through as long as sockets are handed over. -/
theorem Resuming.run {events : List NetEvent} (hv : n.Valid) (hpresent : n.server.db.Present p)
    (h : n.Resuming p c) (hstays : Runs.Guarded Network.next (Stays p c) n events)
    (hover : Runs.Guarded Network.next (HandsOver p c) n events) :
    (Runs.run Network.next n events).Resuming p c :=
  (Runs.Guarded.always (I := fun n => n.Valid ∧ n.server.db.Present p ∧ n.Resuming p c)
    (C := fun n e => Stays p c n e ∧ HandsOver p c n e) ⟨hv, hpresent, h⟩
    (fun _ e h he => ⟨h.1.next e, present_next h.1 h.2.1 he.1 he.2, h.2.2.next h.1 h.2.1 he.1 he.2⟩)
    fun pre e hpre => ⟨hstays pre e hpre, hover pre e hpre⟩).last.2.2

/-- **When a dropped socket is resumed.**  `p` is connected over `c`, its socket
drops and its client opens socket `c'` for the same url, while `p` stays and the
meeting goes on.  Once the server has answered the new socket, and from then on,
`c'` was accepted and owns the open row exactly when every event since the drop
was part of a hand-over. -/
theorem resumed_iff_handsOver {pre mid post : List NetEvent} {p : ParticipantId}
    {c c' : ConnectionId} (hconnected : (Runs.run Network.next {} pre).Connected p c)
    (hreopen : (Runs.run Network.next {} (pre ++ .drop p :: mid)).CanReopen p c')
    (hstays : Runs.Guarded Network.next (Stays p c') (Runs.run Network.next {} pre)
      (.drop p :: mid ++ .reconnect p c' :: post))
    (hanswered : ((Runs.run Network.next {}
      (pre ++ (.drop p :: mid ++ .reconnect p c' :: post))).tasks c').any SocketTask.answered) :
    (Runs.run Network.next {} (pre ++ (.drop p :: mid ++ .reconnect p c' :: post))).Resumed p c' ↔
      Runs.Guarded Network.next (HandsOver p c') (Runs.run Network.next {} pre)
        (.drop p :: mid ++ .reconnect p c' :: post) := by
  have hvalid : (Runs.run Network.next {} pre).Valid := (always_valid pre).last
  rw [Runs.run_append] at hreopen hanswered ⊢
  generalize Runs.run Network.next {} pre = n at *
  constructor
  · intro hresumed pre' e hprefix
    obtain ⟨rest, hrest⟩ := hprefix
    by_contra hnot
    -- From the first wrong event on, the row is lost.
    rw [← hrest] at hresumed hstays
    obtain ⟨hbefore, hafter⟩ := Runs.guarded_append.mp hstays
    have hv := (Runs.always_of_step hvalid (fun _ e hv => hv.next e) pre').last
    have hlost := lost_of_not_handsOver hv hnot
    rw [Runs.run_concat] at hafter
    rw [Runs.run_append, Runs.run_concat] at hresumed
    exact (hlost.run (hv.next e) hafter).not_resumed hresumed
  · intro hover
    obtain ⟨hstays₁, hstays₂⟩ := Runs.guarded_append.mp hstays
    obtain ⟨hover₁, hover₂⟩ := Runs.guarded_append.mp hover
    rw [Runs.run_append] at hanswered ⊢
    -- `p` is present until its client opens the new socket.
    obtain ⟨hv₁, hpresent₁⟩ := present_run hvalid hconnected.present hstays₁ hover₁
    generalize Runs.run Network.next n (.drop p :: mid) = n₁ at *
    obtain ⟨hreconnect, hstays₂⟩ := Runs.guarded_cons.mp hstays₂
    obtain ⟨hreconnect', hover₂⟩ := Runs.guarded_cons.mp hover₂
    have hresuming : (n₁.next (.reconnect p c')).Resuming p c' := by
      obtain ⟨client, hclient, htimer⟩ := hreopen.timer
      have hclient : (n₁.clients p).signaling = some client := hclient
      refine .requested client.url ?_ ?_
      · simp only [Network.next, hreopen.fresh, hclient, htimer, if_true]
        exact Function.update_self ..
      · simp only [Network.next, hreopen.fresh, hclient, htimer, if_true]
        exact hv₁.client p client hclient
    -- From there on it comes through.
    have hpresent₂ := present_next hv₁ hpresent₁ hreconnect hreconnect'
    have hlast := hresuming.run (hv₁.next _) hpresent₂ hstays₂ hover₂
    rw [Runs.run_cons] at hanswered ⊢
    cases hlast with
    | requested url htask hnames =>
      rw [htask] at hanswered
      cases hanswered
    | accepting m q htask hid =>
      rw [htask] at hanswered
      cases hanswered
    | resumed h => exact h

/-- A guest joins and connects. -/
def connectGuest : List NetEvent :=
  openRequests.map .request ++
    [.join "guest" "10000000003" (some "tok") none { id := "1", sessionId := "s1" } 20 "c1",
     .authenticate "c1", .register "c1", .act "c1", .deliver "1"]

theorem connectGuest_connected : (Runs.run Network.next {} connectGuest).Connected "1" "c1" :=
  ⟨by decide +kernel, by decide +kernel, by decide +kernel, by decide +kernel⟩

/-- The new socket is registered before the old one is torn down. -/
theorem resumed_iff_handsOver_overtaking :
    (Runs.run Network.next {} (connectGuest ++ (.drop "1" :: [] ++ .reconnect "1" "c2" ::
      [.authenticate "c2", .register "c2", .disconnect "c1" 30]))).Resumed "1" "c2" := by
  refine (@resumed_iff_handsOver connectGuest [] _ "1" "c1" "c2" connectGuest_connected ⟨?_, ?_⟩
    ?_ ?_).mpr ?_
  · exact Option.isNone_iff_eq_none.mp (by decide +kernel)
  · decide +kernel
  · decide +kernel
  · decide +kernel
  · decide +kernel

/-- The old socket is torn down first: the guest, which was never removed and
never left, is refused. -/
theorem blip_refused :
    (Runs.run Network.next {} connectGuest).Connected "1" "c1" ∧
      (Runs.run Network.next {} (connectGuest ++ .drop "1" :: [.disconnect "c1" 30])).CanReopen
        "1" "c2" ∧
      Runs.Guarded Network.next (Stays "1" "c2") (Runs.run Network.next {} connectGuest)
        (.drop "1" :: [.disconnect "c1" 30] ++ .reconnect "1" "c2" :: [.authenticate "c2"]) ∧
      (let n := Runs.run Network.next {} (connectGuest ++
        (.drop "1" :: [.disconnect "c1" 30] ++ .reconnect "1" "c2" :: [.authenticate "c2"]))
      n.up "c1" = none ∧ (n.tasks "c1").any SocketTask.answered ∧
        (n.tasks "c2").any SocketTask.answered ∧ n.up "c2" = none ∧ ¬ n.server.db.Bound "1" "c2" ∧
          ¬ n.Resumed "1" "c2") := by
  refine ⟨connectGuest_connected, ⟨?_, ?_⟩, ?_, ?_, ?_, ?_, ?_, ?_, ?_⟩
  · exact Option.isNone_iff_eq_none.mp (by decide +kernel)
  · decide +kernel
  · decide +kernel
  · decide +kernel
  · decide +kernel
  · decide +kernel
  · decide +kernel
  · decide +kernel
  · intro hresumed
    exact absurd hresumed.bound (by decide +kernel)

end Network

end ZoomClone
