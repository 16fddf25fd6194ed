/-
What an eviction reaches.

There are two ways to remove a participant and two ways to end a meeting.  The
REST ways write rows only; the ways over the socket also tell the room and close
sockets:

* `host.remove` closes the row, tells everybody in the room, and closes the most
  recently added socket of the target;
* `host.end` closes every row, tells everybody, and closes every socket of the
  room except the one the host sent it on, which the host's client closes itself.
-/
import ZoomClone.Server

namespace ZoomClone

/-! ### What the two scripts send -/

/-- The frame to an evicted participant. -/
def removedYouFrame (c : Connection) (t : ParticipantId) : Frame :=
  { body := .hostRemovedYou c.participantId, sender := some c.participantId, recipient := some t }

def peerLeftFrame (c : Connection) (t : ParticipantId) : Frame :=
  { body := .peerLeft t, sender := some c.participantId }

def meetingEndedFrame (c : Connection) : Frame :=
  { body := .meetingEnded c.participantId, sender := some c.participantId }

theorem performAll_removal (r : RoomRegistry) (c : Connection) (t : ParticipantId) :
    performAll r (removal c t) =
      match r.find c.meetingId t with
      | none => (r, (r.connections c.meetingId).map fun d => ⟨d, .frame (peerLeftFrame c t)⟩)
      | some target =>
        (r.remove target, ⟨target, .frame (removedYouFrame c t)⟩ ::
          (r.connections c.meetingId).map (fun d => ⟨d, .frame (peerLeftFrame c t)⟩) ++
            [⟨target, .close closeRemoved⟩]) := by
  cases h : r.find c.meetingId t with
  | none => simp [removal, performAll, perform, peerLeft, h, peerLeftFrame]
  | some target =>
    simp [removal, performAll, perform, peerLeft, h, peerLeftFrame, removedYouFrame,
      closeConnection]

theorem performAll_ending (r : RoomRegistry) (c : Connection) :
    performAll r (ending c) =
      ((peersToClose r c.meetingId c.connectionId).foldl RoomRegistry.remove r,
        (r.connections c.meetingId).map (fun d => ⟨d, .frame (meetingEndedFrame c)⟩) ++
          (peersToClose r c.meetingId c.connectionId).map
            fun d => ⟨d, .close closeMeetingEnded⟩) := by
  simp [ending, performAll, perform, meetingEndedFrame]

/-! ### What the evictions reach -/

/-- After `host.remove`: the row of the target is closed, its newest socket was
told, closed and forgotten, and everybody in the room heard of it. -/
structure RemovalReaches (s : Server) (c : Connection) (t : ParticipantId)
    (result : Server × List Delivery) : Prop where
  row : ∃ p ∈ result.1.db.participants, p.id = t ∧ p.leftAt ≠ none ∧ p.connectionId = none
  target : ∀ d, s.registry.find c.meetingId t = some d →
    ⟨d, .frame (removedYouFrame c t)⟩ ∈ result.2 ∧ ⟨d, .close closeRemoved⟩ ∈ result.2 ∧
      d ∉ result.1.registry.connections c.meetingId
  room : ∀ d ∈ s.registry.connections c.meetingId, ⟨d, .frame (peerLeftFrame c t)⟩ ∈ result.2

/-- After `host.end`: every row of the meeting is closed, everybody in the room
heard of it, and only the host's own socket is left. -/
structure EndingReaches (s : Server) (c : Connection) (result : Server × List Delivery) : Prop where
  rows : ∀ p ∈ result.1.db.participants, p.meetingId = c.meetingId → p.leftAt ≠ none
  room : ∀ d ∈ s.registry.connections c.meetingId,
    ⟨d, .frame (meetingEndedFrame c)⟩ ∈ result.2
  sockets : ∀ d, d ∈ result.1.registry.connections c.meetingId ↔ d = c

/-- The target of an accepted removal ends up closed and unbound. -/
theorem markLeft_row {db : Db} {p : Participant} (hp : p ∈ db.participants) (now : DateTime) :
    ∃ q ∈ (markLeft db p now).2.participants, q.id = p.id ∧ q.leftAt ≠ none ∧
      q.connectionId = none := by
  refine ⟨p.markLeft now, ?_, rfl, Option.some_ne_none _, rfl⟩
  show p.markLeft now ∈
    (db.updateRow p.id (·.markLeft now) (Participant.markLeft_id · now)).participants
  exact Db.mem_updateRow.mpr ⟨p, hp, if_pos rfl⟩

/-- Ending a meeting leaves none of its rows open. -/
theorem evictAll_rows (db : Db) (m : MeetingId) (now : DateTime) :
    ∀ p ∈ (db.evictAll m now).participants, p.meetingId = m → p.leftAt ≠ none := by
  intro p hp hm
  obtain ⟨q, hq, rfl⟩ := Db.mem_updateRows.mp hp
  split
  · exact Option.some_ne_none now
  · next h =>
    rw [if_neg h] at hm
    exact fun hopen => h ⟨hm, hopen⟩

theorem removalReaches {s : Server} {c : Connection} {t : ParticipantId} {db : Db}
    (hrow : ∃ p ∈ db.participants, p.id = t ∧ p.leftAt ≠ none ∧ p.connectionId = none)
    (hv : s.Valid) : RemovalReaches s c t (Server.send { s with db } (removal c t)) := by
  rw [Server.send]
  rw [performAll_removal]
  cases hfind : s.registry.find c.meetingId t with
  | none =>
    refine ⟨hrow, ?_, ?_⟩
    · intro d hd
      rw [hfind] at hd
      cases hd
    · intro d hd
      exact List.mem_map_of_mem hd
  | some target =>
    refine ⟨hrow, ?_, ?_⟩
    · intro d hd
      obtain rfl : target = d := Option.some.inj (hfind.symm.trans hd)
      refine ⟨by simp, by simp, ?_⟩
      intro hmem
      have hmeeting := (hv.registered _ _ (RoomRegistry.find_mem hfind).1).1
      exact (RoomRegistry.mem_connections_remove.mp hmem).2 hmeeting rfl
    · intro d hd
      refine List.mem_append_left _ (List.mem_cons_of_mem _ ?_)
      exact List.mem_map_of_mem hd

theorem endingReaches {s : Server} {c : Connection} {db : Db}
    (hrows : ∀ p ∈ db.participants, p.meetingId = c.meetingId → p.leftAt ≠ none) (hv : s.Valid)
    (hc : c ∈ s.registry.connections c.meetingId) :
    EndingReaches s c (Server.send { s with db } (ending c)) := by
  rw [Server.send]
  rw [performAll_ending]
  refine ⟨hrows, ?_, ?_⟩
  · intro d hd
    exact List.mem_append_left _ (List.mem_map_of_mem hd)
  · intro d
    rw [mem_foldl_remove]
    constructor
    · rintro ⟨hd, hkept⟩
      by_contra hne
      -- A socket other than the host's own is among those that are closed.
      have hid : d.connectionId ≠ c.connectionId :=
        fun h => hne (RoomRegistry.connections_inj hd hc h)
      have hclosed : d ∈ peersToClose s.registry c.meetingId c.connectionId := by
        rw [peersToClose]
        rw [List.mem_filter, decide_eq_true_eq]
        exact ⟨hd, hid⟩
      exact hkept d hclosed (hv.registered _ _ hd).1 rfl
    · rintro rfl
      refine ⟨hc, ?_⟩
      intro d hd hmeeting
      rw [peersToClose] at hd
      rw [List.mem_filter, decide_eq_true_eq] at hd
      exact Ne.symm hd.2

/-! ### The four operations -/

/-- A message that reaches its handler and is accepted is carried out. -/
theorem step_message_of_ok {s : Server} {c : Connection} {message : Json} {id : String}
    {now : DateTime} {inbound : Inbound} {db : Db} {actions : List Action}
    (hc : c ∈ s.registry.connections c.meetingId) (hread : readMessage message = .ok inbound)
    (hrun : handle s.db s.registry c inbound id now = .ok (db, actions)) :
    s.step (.message c message id now) = Server.send { s with db } actions := by
  rw [Server.step, Server.receive, onMessage]
  simp only [if_pos hc, hread, hrun]

/-- **What evictions reach.**  In every reachable state, whatever sockets the
participants hold: an accepted `host.remove` and an accepted `host.end` reach
what `RemovalReaches` and `EndingReaches` say, and an accepted REST removal or
REST end closes the rows. -/
theorem evictions_reach (events : List Event) :
    let s := Runs.run Server.next {} events
    (∀ c message id now inbound t actor v db, c ∈ s.registry.connections c.meetingId →
      readMessage message = .ok inbound → inbound.handler = .hostRemove →
      hostTarget inbound = some t → s.db.getParticipant c.participantId = some actor →
      hostRemove s.db actor t now = .ok (v, db) →
      RemovalReaches s c t (s.step (.message c message id now))) ∧
    (∀ c message id now inbound actor v db, c ∈ s.registry.connections c.meetingId →
      readMessage message = .ok inbound → inbound.handler = .hostEnd →
      s.db.getParticipant c.participantId = some actor →
      hostEndMeeting s.db actor now = .ok (v, db) →
      EndingReaches s c (s.step (.message c message id now))) ∧
    (∀ userId t now db, runRequest s.db (.removeParticipant userId t now) = .ok db →
      ∃ p ∈ db.participants, p.id = t ∧ p.leftAt ≠ none ∧ p.connectionId = none) ∧
    (∀ userId number now db, runRequest s.db (.endMeeting userId number now) = .ok db →
      ∃ m, s.db.meetingByNumber number = some m ∧
        ∀ p ∈ db.participants, p.meetingId = m.id → p.leftAt ≠ none) := by
  intro s
  have hv : s.Valid := (Server.always_valid events).last
  refine ⟨?_, ?_, ?_, ?_⟩
  · intro c message id now inbound t actor v db hc hread hhandler htarget hactor hremove
    have hrun : handle s.db s.registry c inbound id now = .ok (db, removal c t) := by
      rw [handle]
      rw [hhandler]
      exact handleHostRemove_eq_ok.mpr ⟨t, actor, v, htarget, hactor, hremove, rfl⟩
    rw [step_message_of_ok hc hread hrun]
    obtain ⟨-, p, hp, -, hleft⟩ := hostRemove_eq_ok.mp hremove
    obtain ⟨-, rfl⟩ := Prod.mk.inj hleft
    have hfind := (targetRow_eq_ok.mp hp).1
    have hrow := markLeft_row (getParticipant_mem hfind) now
    rw [show p.id = t from Keyed.key_of_find? hfind] at hrow
    exact removalReaches hrow hv
  · intro c message id now inbound actor v db hc hread hhandler hactor hend
    have hrun : handle s.db s.registry c inbound id now = .ok (db, ending c) := by
      rw [handle]
      rw [hhandler]
      exact handleHostEnd_eq_ok.mpr ⟨actor, v, hactor, hend, rfl⟩
    rw [step_message_of_ok hc hread hrun]
    obtain ⟨m, hhost, -, rfl⟩ := hostEndMeeting_eq_ok.mp hend
    -- The meeting that ends is the one of the room.
    have hm : m.id = c.meetingId := by
      obtain ⟨q, hq, hid, hmeeting⟩ := hv.row c (hv.registered _ _ hc).2
      obtain ⟨hactorMem, hactorId⟩ := Keyed.find?_eq_some.mp hactor
      obtain rfl : actor = q := Keyed.eq_of_key_eq hactorMem hq (hactorId.trans hid.symm)
      exact (Keyed.key_of_find? (requireHost_eq_ok.mp hhost).1).trans hmeeting
    refine endingReaches ?_ hv hc
    rw [← hm]
    exact evictAll_rows _ m.id now
  · intro userId t now db hrun
    obtain ⟨user, -, hrun⟩ := Service.bind_eq_ok.mp hrun
    obtain ⟨v, hrun⟩ := Service.commit_eq_ok.mp hrun
    obtain ⟨p, m, hp, -, -, -, hleft⟩ := removeParticipant_eq_ok.mp hrun
    obtain ⟨-, rfl⟩ := Prod.mk.inj hleft
    have hrow := markLeft_row (getParticipant_mem hp) now
    rwa [show p.id = t from Keyed.key_of_find? hp] at hrow
  · intro userId number now db hrun
    obtain ⟨user, -, hrun⟩ := Service.bind_eq_ok.mp hrun
    obtain ⟨v, hrun⟩ := Service.commit_eq_ok.mp hrun
    obtain ⟨m, hm, -, -, rfl⟩ := endMeeting_ok hrun
    exact ⟨m, hm, evictAll_rows _ m.id now⟩

/-- The host and a guest are in the meeting. -/
def hostAndGuest : List Event := openMeeting ++ enterAs "host" "h" ++ enter "1"

/-- The socket of the host. -/
def hostSocket : Connection := ⟨"ch", "h", "m"⟩

def removeGuest : Json :=
  .obj [("type", .str "host.remove"), ("payload", .obj [("participant_id", .str "1")])]

def endForAll : Json := .obj [("type", .str "host.end")]

/-- The host removes the guest. -/
theorem evictions_reach_guest :
    RemovalReaches (Runs.run Server.next {} hostAndGuest) hostSocket "1"
      ((Runs.run Server.next {} hostAndGuest).step (.message hostSocket removeGuest "x" 40)) := by
  have hactor : ∃ actor v db,
      (Runs.run Server.next {} hostAndGuest).db.getParticipant "h" = some actor ∧
        hostRemove (Runs.run Server.next {} hostAndGuest).db actor "1" 40 = .ok (v, db) :=
    ⟨_, _, _, rfl, rfl⟩
  obtain ⟨actor, v, db, hactor, hremove⟩ := hactor
  exact (evictions_reach hostAndGuest).1 hostSocket removeGuest "x" 40 _ "1" actor v db
    (by decide +kernel) rfl rfl (by decide +kernel) hactor hremove

/-- An ending does not reach the socket it came from: the host is evicted with
everybody else, and its socket stays registered. -/
theorem ending_keeps_host :
    ¬ ∀ (events : List Event) (c : Connection) (message : Json) (id : String) (now : DateTime)
        (inbound : Inbound) (actor : Participant) (v : MeetingView) (db : Db),
      c ∈ (Runs.run Server.next {} events).registry.connections c.meetingId →
      readMessage message = .ok inbound → inbound.handler = .hostEnd →
      (Runs.run Server.next {} events).db.getParticipant c.participantId = some actor →
      hostEndMeeting (Runs.run Server.next {} events).db actor now = .ok (v, db) →
      ∀ d ∈ ((Runs.run Server.next {} events).step
          (.message c message id now)).1.registry.connections c.meetingId,
        (Runs.run Server.next {} events).db.isOpen d.participantId →
          ((Runs.run Server.next {} events).step
            (.message c message id now)).1.db.isOpen d.participantId := by
  intro h
  have hopen := h hostAndGuest hostSocket endForAll "x" 40 _ _ _ _ (by decide +kernel) rfl rfl rfl
    rfl hostSocket (by decide +kernel) (by decide +kernel)
  revert hopen
  decide +kernel

end ZoomClone
