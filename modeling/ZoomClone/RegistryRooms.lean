/-
What the registry holds after any history of calls.

A history determines its live connections: those that were added and that no later
call removes, in the order in which they were added.  The room of a meeting lists
exactly the live connections of that meeting in that order, and everything that the
registry answers is read off this list.

* `connections_run` — the rooms are the live connections, meeting by meeting;
* `registry_represents` — what every query answers, for every history.
-/
import Mathlib.Data.Finset.Card
import ZoomClone.Router
import ZoomClone.Runs

namespace ZoomClone

/-- One call: an `add` with the connection that it makes, or a `remove` of any
connection. -/
inductive RegistryCall where
  | add (c : Connection)
  | remove (c : Connection)
  deriving DecidableEq

def RoomRegistry.call (r : RoomRegistry) : RegistryCall → RoomRegistry
  | .add c => r.add c
  | .remove c => r.remove c

/-- The ids that `uuid4` draws. -/
def drawnIds (calls : List RegistryCall) : List ConnectionId :=
  calls.filterMap fun
    | .add c => some c.connectionId
    | .remove _ => none

/-- A removal names a connection by its meeting and its id. -/
def RegistryCall.Removes (c : Connection) : RegistryCall → Prop
  | .add _ => False
  | .remove d => d.meetingId = c.meetingId ∧ d.connectionId = c.connectionId

instance (c : Connection) : DecidablePred (RegistryCall.Removes c)
  | .add _ => inferInstanceAs (Decidable False)
  | .remove d => inferInstanceAs
    (Decidable (d.meetingId = c.meetingId ∧ d.connectionId = c.connectionId))

/-- The connections that were added and not removed afterwards, in the order of their
addition. -/
def liveConnections : List RegistryCall → List Connection
  | [] => []
  | .add c :: later =>
    if ∃ e ∈ later, e.Removes c then liveConnections later else c :: liveConnections later
  | .remove _ :: later => liveConnections later

/-- Live means added, and not removed by a later call. -/
theorem mem_liveConnections {calls : List RegistryCall} {c : Connection} :
    c ∈ liveConnections calls ↔
    ∃ before later, calls = before ++ .add c :: later ∧ ∀ e ∈ later, ¬ e.Removes c := by
  induction calls with
  | nil => simp [liveConnections]
  | cons e calls ih =>
    -- the addition is this call or a later one
    have hsplit : (∃ before later, e :: calls = before ++ .add c :: later ∧
      ∀ e ∈ later, ¬ e.Removes c) ↔
        (e = .add c ∧ ∀ e ∈ calls, ¬ e.Removes c) ∨ c ∈ liveConnections calls := by
      rw [ih]
      constructor
      · rintro ⟨before, later, heq, hlater⟩
        cases before with
        | nil => exact .inl ⟨(List.cons.inj heq).1, (List.cons.inj heq).2 ▸ hlater⟩
        | cons e' before => exact .inr ⟨before, later, (List.cons.inj heq).2, hlater⟩
      · rintro (⟨rfl, hlater⟩ | ⟨before, later, rfl, hlater⟩)
        · exact ⟨[], calls, rfl, hlater⟩
        · exact ⟨e :: before, later, rfl, hlater⟩
    rw [hsplit]
    cases e with
    | add d =>
      rw [liveConnections]
      by_cases hremoved : ∃ e ∈ calls, e.Removes d
      · rw [if_pos hremoved]
        refine ⟨.inr, ?_⟩
        rintro (⟨heq, hlater⟩ | hlive)
        · obtain rfl := RegistryCall.add.inj heq
          obtain ⟨e, he, hremoves⟩ := hremoved
          exact absurd hremoves (hlater e he)
        · exact hlive
      · rw [if_neg hremoved, List.mem_cons]
        push Not at hremoved
        refine or_congr ⟨?_, ?_⟩ Iff.rfl
        · rintro rfl
          exact ⟨rfl, hremoved⟩
        · exact fun h => (RegistryCall.add.inj h.1).symm
    | remove d => simp [liveConnections]

/-! ### The live connections as the history grows -/

section

variable {calls : List RegistryCall} {c d : Connection}

theorem liveConnections_add (calls : List RegistryCall) (c : Connection) :
    liveConnections (calls ++ [.add c]) = liveConnections calls ++ [c] := by
  induction calls with
  | nil => simp [liveConnections]
  | cons e calls ih =>
    cases e with
    | add d =>
      have hsame : (∃ e ∈ calls ++ [RegistryCall.add c], e.Removes d) ↔
          ∃ e ∈ calls, e.Removes d := by
        simp [RegistryCall.Removes, or_and_right, exists_or]
      simp only [List.cons_append, liveConnections, hsame, ih]
      split_ifs <;> rfl
    | remove d => exact ih

theorem liveConnections_remove (calls : List RegistryCall) (d : Connection) :
    liveConnections (calls ++ [.remove d]) =
      (liveConnections calls).filter fun c => ¬ (RegistryCall.remove d).Removes c := by
  induction calls with
  | nil => simp [liveConnections]
  | cons e calls ih =>
    cases e with
    | add c =>
      simp only [List.cons_append, liveConnections, List.mem_append,
        List.mem_singleton, or_and_right,
        exists_or, exists_eq_left, ih]
      by_cases hlater : ∃ e ∈ calls, e.Removes c
      · simp [hlater]
      · by_cases hd : (RegistryCall.remove d).Removes c
        · simp [hlater, hd]
        · simp [hlater, hd]
    | remove c => exact ih

theorem sublist_drawnIds (calls : List RegistryCall) :
    List.Sublist ((liveConnections calls).map Connection.connectionId) (drawnIds calls) := by
  induction calls with
  | nil => exact List.Sublist.slnil
  | cons e calls ih =>
    cases e with
    | add c =>
      simp only [liveConnections, drawnIds, List.filterMap_cons]
      split
      · exact ih.cons _
      · exact ih.cons_cons _
    | remove c => exact ih

end

/-! ### The rooms -/

namespace RoomRegistry

variable {r : RoomRegistry} {calls : List RegistryCall}

/-- The registry holds the connections `cs`, in this order within each meeting. -/
structure Holds (r : RoomRegistry) (cs : List Connection) : Prop where
  connections : ∀ m, r.connections m = cs.filter fun c => c.meetingId = m
  nonempty : ∀ room ∈ r.rooms, room.members.rows ≠ []

theorem holds_empty : empty.Holds [] :=
  ⟨fun _ => rfl, fun room h => absurd h (Keyed.not_mem_empty room)⟩

theorem Holds.add {cs : List Connection} (h : r.Holds cs) {c : Connection}
    (hfresh : c.connectionId ∉ cs.map Connection.connectionId) : (r.add c).Holds (cs ++ [c]) := by
  refine ⟨fun m => ?_, fun room hroom => ?_⟩
  · rw [RoomRegistry.connections, members_add]
    by_cases hm : c.meetingId = m
    · have hkey : c.connectionId ∉ (r.members m).keys := by
        show c.connectionId ∉ (r.connections m).map Connection.connectionId
        rw [h.connections]
        exact fun hmem => hfresh ((List.filter_sublist.map _).subset hmem)
      rw [if_pos hm, Keyed.set_of_not_mem hkey, Keyed.rows_insert, List.filter_append]
      simp [hm, ← h.connections, RoomRegistry.connections]
    · rw [if_neg hm, List.filter_append]
      simp [hm, ← h.connections, RoomRegistry.connections]
  · rcases Keyed.mem_set.mp hroom with rfl | ⟨hold, -⟩
    · -- the room holds the new connection
      have hmem : c ∈ (r.members c.meetingId).set c := Keyed.mem_set.mpr (.inl rfl)
      exact List.ne_nil_of_mem hmem
    · exact h.nonempty room hold

theorem Holds.remove {cs : List Connection} (h : r.Holds cs) (d : Connection) :
    (r.remove d).Holds (cs.filter fun c => ¬ (RegistryCall.remove d).Removes c) := by
  refine ⟨fun m => ?_, fun room hroom => ?_⟩
  · have hbefore : (r.members m).rows = cs.filter fun c => c.meetingId = m := h.connections m
    have herase : ((r.members m).erase d.connectionId).rows =
        (r.members m).rows.filter fun c => c.connectionId ≠ d.connectionId := rfl
    rw [RoomRegistry.connections, members_remove, List.filter_filter]
    by_cases hm : d.meetingId = m
    · rw [if_pos hm, herase, hbefore, List.filter_filter]
      refine List.filter_congr fun c _ => ?_
      by_cases hc : c.meetingId = m
      · simp [RegistryCall.Removes, hm, hc, eq_comm]
      · simp [hc]
    · rw [if_neg hm, hbefore]
      refine List.filter_congr fun c _ => ?_
      by_cases hc : c.meetingId = m
      · simp [RegistryCall.Removes, hm, hc]
      · simp [hc]
  · -- A room goes with its last connection.
    rw [RoomRegistry.remove] at hroom
    split at hroom
    · exact h.nonempty room hroom
    · next found hfound =>
      dsimp only at hroom
      split at hroom
      · exact h.nonempty room (Keyed.mem_erase.mp hroom).1
      · next hleft =>
        rcases Keyed.mem_set.mp hroom with rfl | ⟨hold, -⟩
        · exact hleft
        · exact h.nonempty room hold

/-- **The rooms after any history** of calls hold its live connections. -/
theorem holds_run {calls : List RegistryCall} (hids : (drawnIds calls).Nodup) :
    (Runs.run call .empty calls).Holds (liveConnections calls) := by
  induction calls using List.reverseRecOn with
  | nil => exact holds_empty
  | append_singleton calls e ih =>
    rw [drawnIds, List.filterMap_append, List.nodup_append] at hids
    obtain ⟨hbefore, -, hfresh⟩ := hids
    rw [Runs.run_concat]
    cases e with
    | add c =>
      rw [liveConnections_add]
      refine (ih hbefore).add fun hmem => ?_
      exact hfresh _ ((sublist_drawnIds calls).subset hmem) c.connectionId (by simp) rfl
    | remove d =>
      rw [liveConnections_remove]
      exact (ih hbefore).remove d

/-! ### What is read off the rooms -/

/-- All entries of all rooms. -/
def stored (r : RoomRegistry) : List Connection :=
  r.rooms.rows.flatMap fun room => room.members.rows

/-- The entries of a room are those that the meeting lists. -/
theorem connections_of_mem {room : Room} (h : room ∈ r.rooms) :
    r.connections room.meetingId = room.members.rows := by
  rw [connections, members, Keyed.find?_of_mem h]
  rfl

/-- Each connection is in the room of its own meeting. -/
theorem Holds.own_meeting {cs : List Connection} (h : r.Holds cs)
    {room : Room} (hroom : room ∈ r.rooms)
    {c : Connection} (hc : c ∈ room.members) : c.meetingId = room.meetingId := by
  have hmem : c ∈ r.connections room.meetingId := connections_of_mem hroom ▸ hc
  rw [h.connections] at hmem
  simpa using (List.mem_filter.mp hmem).2

theorem Holds.mem_stored {cs : List Connection} (h : r.Holds cs) {c : Connection} :
    c ∈ r.stored ↔ c ∈ cs := by
  rw [stored, List.mem_flatMap]
  constructor
  · rintro ⟨room, hroom, hc⟩
    have hmem : c ∈ r.connections room.meetingId := connections_of_mem hroom ▸ hc
    rw [h.connections] at hmem
    exact (List.mem_filter.mp hmem).1
  · intro hc
    have hmem : c ∈ r.connections c.meetingId := by
      rw [h.connections]
      exact List.mem_filter.mpr ⟨hc, by simp⟩
    cases hfound : r.rooms.find? c.meetingId with
    | none => simp [RoomRegistry.connections, RoomRegistry.members, hfound, Keyed.empty] at hmem
    | some room =>
      simp only [RoomRegistry.connections, RoomRegistry.members, hfound] at hmem
      exact ⟨room, Keyed.mem_of_find? hfound, hmem⟩

theorem Holds.nodup_stored {cs : List Connection} (h : r.Holds cs) : r.stored.Nodup := by
  rw [stored, List.nodup_flatMap]
  refine ⟨fun room _ => List.Nodup.of_map _ room.members.nodup, ?_⟩
  refine (List.pairwise_map.mp r.rooms.nodup).imp_of_mem fun {room room'} hroom hroom' hne => ?_
  intro c hc hc'
  exact hne ((h.own_meeting hroom hc).symm.trans (h.own_meeting hroom' hc'))

theorem Holds.count_stored {cs : List Connection} (h : r.Holds cs) (c : Connection) :
    r.stored.count c = if c ∈ cs then 1 else 0 := by
  rw [h.nodup_stored.count]
  simp only [h.mem_stored]

/-- The live connections of a participant in a meeting. -/
theorem Holds.find_eq {cs : List Connection} (h : r.Holds cs) (m : MeetingId) (p : ParticipantId) :
    r.find m p = (cs.filter fun c => c.meetingId = m ∧ c.participantId = p).getLast? := by
  rw [find, h.connections, List.filter_filter]
  congr 2
  funext c
  simp [Bool.and_comm]

theorem Holds.size_eq {cs : List Connection} (h : r.Holds cs) (m : MeetingId) :
    r.size m = ((cs.filter fun c => c.meetingId = m).map
      Connection.participantId).toFinset.card := by
  rw [size, participantIds, h.connections, List.card_toFinset]

theorem Holds.count_broadcastTargets {cs : List Connection} (h : r.Holds cs) (m : MeetingId)
    (exclude : Option ConnectionId) (c : Connection) : (broadcastTargets r m exclude).count c =
      if c ∈ cs ∧ c.meetingId = m ∧ some c.connectionId ≠ exclude then 1 else 0 := by
  have hnodup : (broadcastTargets r m exclude).Nodup :=
    (List.Nodup.of_map _ (r.members m).nodup).filter _
  rw [hnodup.count, broadcastTargets, h.connections]
  simp [and_comm]

end RoomRegistry

/-- What a registry answers when the connections `cs` are the live ones, in the order
of their addition. -/
structure Represents (r : RoomRegistry) (cs : List Connection) : Prop where
  noEmptyRoom : ∀ room ∈ r.rooms, room.members.rows ≠ []
  ownMeeting : ∀ room ∈ r.rooms, ∀ c ∈ room.members, c.meetingId = room.meetingId
  ownId : ∀ room ∈ r.rooms, ∀ c ∈ room.members, room.members.find? c.connectionId = some c
  storedOnce : ∀ c, r.stored.count c = if c ∈ cs then 1 else 0
  inRoom : ∀ m p, (r.isInRoom m p ↔ p ∈ r.participantIds m) ∧ (r.isInRoom m p ↔ r.find m p ≠ none)
  found : ∀ m p, r.find m p = (cs.filter fun c => c.meetingId = m ∧ c.participantId = p).getLast?
  size : ∀ m, r.size m =
    ((cs.filter fun c => c.meetingId = m).map Connection.participantId).toFinset.card
  targets : ∀ m exclude c, (broadcastTargets r m exclude).count c =
    if c ∈ cs ∧ c.meetingId = m ∧ some c.connectionId ≠ exclude then 1 else 0

/-- **Registry representation.**  After any sequence of additions and removals, in which
no drawn id repeats, the registry holds and answers what the connections that were
added and not yet removed determine. -/
theorem registry_represents {calls : List RegistryCall} (hids : (drawnIds calls).Nodup) :
    Represents (Runs.run RoomRegistry.call .empty calls) (liveConnections calls) ∧
      ∀ c, c ∈ liveConnections calls ↔
        ∃ before later, calls = before ++ .add c :: later ∧ ∀ e ∈ later, ¬ e.Removes c := by
  have h := RoomRegistry.holds_run hids
  refine ⟨?_, fun c => mem_liveConnections⟩
  refine ⟨h.nonempty, fun room hroom c hc => h.own_meeting hroom hc,
    fun room _ c hc => Keyed.find?_of_mem hc, h.count_stored,
      fun m p => ⟨?_, ?_⟩, h.find_eq, h.size_eq,
    h.count_broadcastTargets⟩
  · rw [RoomRegistry.isInRoom_iff, RoomRegistry.mem_participantIds]
  · rw [RoomRegistry.isInRoom, Option.isSome_iff_ne_none]

/-- A refresh in a room of two, and a removal that comes twice. -/
theorem registry_represents_refresh :
    Represents (Runs.run RoomRegistry.call .empty
      [.add ⟨"c1", "ada", "m"⟩, .add ⟨"c2", "bob", "m"⟩, .add ⟨"c3", "ada", "m"⟩,
      .remove ⟨"c1", "ada", "m"⟩,
        .remove ⟨"c1", "ada", "m"⟩]) [⟨"c2", "bob", "m"⟩, ⟨"c3", "ada", "m"⟩] := by
  have hids : (drawnIds [.add ⟨"c1", "ada", "m"⟩, .add ⟨"c2", "bob", "m"⟩, .add ⟨"c3", "ada", "m"⟩,
      .remove ⟨"c1", "ada", "m"⟩, .remove ⟨"c1", "ada", "m"⟩]).Nodup := by decide
  exact (registry_represents hids).1

end ZoomClone
