/-
In-process room state (`registry.py`): meeting to live connections.

`RoomRegistry` is the Python `dict` of `dict`s, in insertion order.  What the
rest of the development needs to know about it is what `connections` returns
after an `add` and after a `remove`; everything else (`find`, `size`,
`isInRoom`, fan-out) is computed from that list.
-/
import ZoomClone.Models
import Mathlib.Data.List.Dedup

namespace ZoomClone

/-- One live socket, keyed by a per-connection id.  The WebSocket object itself
is named by the same id. -/
structure Connection where
  connectionId : ConnectionId
  participantId : ParticipantId
  meetingId : MeetingId
  deriving DecidableEq

/-- One entry of the outer `dict`. -/
structure Room where
  meetingId : MeetingId
  members : Keyed Connection.connectionId
  deriving DecidableEq

structure RoomRegistry where
  rooms : Keyed Room.meetingId := .empty
  deriving DecidableEq

namespace RoomRegistry

def empty : RoomRegistry := {}

/-- The inner `dict` of a meeting, or an empty one. -/
def members (r : RoomRegistry) (meetingId : MeetingId) : Keyed Connection.connectionId :=
  ((r.rooms.find? meetingId).map Room.members).getD .empty

/-- `self._rooms.setdefault(meeting_id, {})[connection_id] = connection`. -/
def add (r : RoomRegistry) (c : Connection) : RoomRegistry where
  rooms := r.rooms.set ⟨c.meetingId, (r.members c.meetingId).set c⟩

/-- Forget a connection, and its room when that leaves it empty. -/
def remove (r : RoomRegistry) (c : Connection) : RoomRegistry :=
  match r.rooms.find? c.meetingId with
  | none => r
  | some room =>
    let left := room.members.erase c.connectionId
    if left.rows = [] then { rooms := r.rooms.erase c.meetingId }
    else { rooms := r.rooms.set ⟨c.meetingId, left⟩ }

def connections (r : RoomRegistry) (meetingId : MeetingId) : List Connection :=
  (r.members meetingId).rows

def participantIds (r : RoomRegistry) (meetingId : MeetingId) : List ParticipantId :=
  ((r.connections meetingId).map Connection.participantId).dedup

/-- The live socket of a participant: the most recently added one. -/
def find (r : RoomRegistry) (meetingId : MeetingId) (participantId : ParticipantId) :
    Option Connection :=
  ((r.connections meetingId).filter fun c => c.participantId = participantId).getLast?

def isInRoom (r : RoomRegistry) (meetingId : MeetingId) (participantId : ParticipantId) : Bool :=
  (r.find meetingId participantId).isSome

/-- Distinct participants present, not sockets. -/
def size (r : RoomRegistry) (meetingId : MeetingId) : ℕ := (r.participantIds meetingId).length

/-! ### What `add` and `remove` do to the members of a room -/

theorem members_add (r : RoomRegistry) (c : Connection) (m : MeetingId) :
    (r.add c).members m = if c.meetingId = m then (r.members m).set c else r.members m := by
  unfold members add
  rw [Keyed.find?_set]
  split
  · next h => rw [← h]; rfl
  · rfl

theorem members_remove (r : RoomRegistry) (c : Connection) (m : MeetingId) :
    (r.remove c).members m =
      if c.meetingId = m then (r.members m).erase c.connectionId else r.members m := by
  rw [remove]
  cases hf : r.rooms.find? c.meetingId with
  | none =>
    by_cases h : c.meetingId = m
    · -- There is no such room, so there is nothing to erase from it.
      have hroom : r.members m = .empty := by simp [members, ← h, hf]
      rw [if_pos h, hroom]
      rfl
    · rw [if_neg h]
  | some room =>
    by_cases h : c.meetingId = m
    · have hroom : r.members m = room.members := by simp [members, ← h, hf]
      rw [if_pos h, hroom]
      by_cases hleft : (room.members.erase c.connectionId).rows = []
      · simp only [hleft, if_true, members, Keyed.find?_erase, h]
        exact Keyed.ext hleft.symm
      · simp only [hleft, if_false, members, Keyed.find?_set, h, if_true]
        rfl
    · rw [if_neg h]
      by_cases hleft : (room.members.erase c.connectionId).rows = []
      · simp [hleft, members, Keyed.find?_erase, Ne.symm h]
      · simp [hleft, members, Keyed.find?_set, h]

theorem mem_connections {r : RoomRegistry} {m : MeetingId} {c : Connection} :
    c ∈ r.connections m ↔ c ∈ r.members m := Iff.rfl

theorem mem_connections_add {r : RoomRegistry} {c d : Connection} {m : MeetingId} :
    d ∈ (r.add c).connections m ↔
      (d = c ∧ c.meetingId = m) ∨
        (d ∈ r.connections m ∧ (c.meetingId = m → d.connectionId ≠ c.connectionId)) := by
  rw [mem_connections, mem_connections, members_add]
  split
  · next h => simp [Keyed.mem_set, h]
  · next h => simp [h]

theorem mem_connections_remove {r : RoomRegistry} {c d : Connection} {m : MeetingId} :
    d ∈ (r.remove c).connections m ↔
      d ∈ r.connections m ∧ (c.meetingId = m → d.connectionId ≠ c.connectionId) := by
  rw [mem_connections, mem_connections, members_remove]
  split
  · next h => simp [Keyed.mem_erase, h]
  · next h => simp [h]

/-- A connection id names one connection of a room. -/
theorem connections_inj {r : RoomRegistry} {m : MeetingId} {c d : Connection}
    (hc : c ∈ r.connections m) (hd : d ∈ r.connections m)
    (h : c.connectionId = d.connectionId) : c = d :=
  Keyed.eq_of_key_eq (t := r.members m) hc hd h

theorem find_mem {r : RoomRegistry} {m : MeetingId} {p : ParticipantId} {c : Connection}
    (h : r.find m p = some c) : c ∈ r.connections m ∧ c.participantId = p := by
  have := List.mem_of_getLast? h
  simpa using this

/-- The socket that was added last is the one that is found. -/
theorem find_add {r : RoomRegistry} {c : Connection}
    (hfresh : c.connectionId ∉ (r.members c.meetingId).keys) :
    (r.add c).find c.meetingId c.participantId = some c := by
  rw [find, connections, members_add, if_pos rfl, Keyed.set_of_not_mem hfresh, Keyed.rows_insert,
    List.filter_append, List.filter_cons_of_pos (by simp), List.filter_nil, List.getLast?_concat]

theorem isInRoom_iff {r : RoomRegistry} {m : MeetingId} {p : ParticipantId} :
    r.isInRoom m p ↔ ∃ c ∈ r.connections m, c.participantId = p := by
  rw [isInRoom, find, List.getLast?_isSome]
  simp [List.filter_eq_nil_iff]

theorem mem_participantIds {r : RoomRegistry} {m : MeetingId} {p : ParticipantId} :
    p ∈ r.participantIds m ↔ ∃ c ∈ r.connections m, c.participantId = p := by
  rw [participantIds, List.mem_dedup, List.mem_map]

end RoomRegistry

end ZoomClone
