/-
One visit of a room, from mount to unmount and beyond (`MeetingRoom.tsx`,
`PreJoinGate.tsx`).

`join` is called from the gate, and goes on after two awaits: the media request of the
gate, and `joinMeeting`.  Neither looks whether the room is still there, or whether
another `join` came first.  `teardown` reaches what the refs hold at that moment.

* `Pool` — resources that are acquired one by one, and the ref that holds the last one;
* `RoomVisit` — the room, with every client, mesh and stream it ever made;
* `one_session_iff` — when a visit has one session, and none after it.
-/
import ZoomClone.Microphone

namespace ZoomClone

/-! ### Resources behind a ref -/

/-- Which of the resources are live, and which one the ref holds. -/
structure Pool where
  live : List Bool := []
  current : Option ℕ := none

namespace Pool

/-- A new resource; the ref holds it. -/
def acquire (p : Pool) : Pool where
  live := p.live ++ [true]
  current := some p.live.length

/-- What the ref holds is released. -/
def release (p : Pool) : Pool where
  live := p.current.elim p.live fun i => p.live.set i false
  current := none

/-- The ref is overwritten. -/
def forget (p : Pool) : Pool := { p with current := none }

def IsLive (p : Pool) (i : ℕ) : Prop := p.live[i]? = some true

instance (p : Pool) (i : ℕ) : Decidable (p.IsLive i) := inferInstanceAs (Decidable (_ = some true))

def Quiet (p : Pool) : Prop := ∀ i, ¬ p.IsLive i

def AtMostOne (p : Pool) : Prop := ∀ i j, p.IsLive i → p.IsLive j → i = j

/-- Whatever is live is what the ref holds. -/
def Held (p : Pool) : Prop := ∀ i, p.IsLive i → p.current = some i

variable {p : Pool} {i : ℕ}

theorem quiet_empty : ({} : Pool).Quiet := by
  intro i hi
  simp [IsLive] at hi

theorem Quiet.held (h : p.Quiet) : p.Held := fun i hi => absurd hi (h i)

theorem Held.atMostOne (h : p.Held) : p.AtMostOne :=
  fun i j hi hj => Option.some.inj ((h i hi).symm.trans (h j hj))

theorem isLive_acquire : p.acquire.IsLive i ↔ p.IsLive i ∨ i = p.live.length := by
  simp only [IsLive, acquire]
  rcases Nat.lt_trichotomy i p.live.length with hlt | heq | hgt
  · rw [List.getElem?_append_left hlt]
    simp [Nat.ne_of_lt hlt]
  · subst heq
    simp
  · rw [List.getElem?_append_right (by omega), List.getElem?_eq_none (by simp; omega),
      List.getElem?_eq_none (by omega)]
    simp
    omega

theorem isLive_release : p.release.IsLive i ↔ p.IsLive i ∧ p.current ≠ some i := by
  simp only [IsLive, release]
  cases hcurrent : p.current with
  | none => simp
  | some j =>
    by_cases hij : j = i
    · subst hij
      simp [List.getElem?_set]
    · simp [List.getElem?_set_ne hij, hij]

theorem held_acquire (h : p.Quiet) : p.acquire.Held := by
  intro i hi
  rcases isLive_acquire.mp hi with hi | rfl
  · exact absurd hi (h i)
  · rfl

theorem not_quiet_acquire : ¬ p.acquire.Quiet :=
  fun h => h p.live.length (isLive_acquire.mpr (.inr rfl))

theorem atMostOne_acquire : p.acquire.AtMostOne ↔ p.Quiet := by
  constructor
  · intro h i hi
    have heq := h i p.live.length (isLive_acquire.mpr (.inl hi)) (isLive_acquire.mpr (.inr rfl))
    rw [heq, IsLive, List.getElem?_eq_none (Nat.le_refl _)] at hi
    cases hi
  · exact fun h => (held_acquire h).atMostOne

/-- A release leaves nothing live exactly if all that was live was held. -/
theorem quiet_release : p.release.Quiet ↔ p.Held := by
  constructor
  · intro h i hi
    by_contra hne
    exact h i (isLive_release.mpr ⟨hi, hne⟩)
  · intro h i hi
    obtain ⟨hi, hne⟩ := isLive_release.mp hi
    exact hne (h i hi)

end Pool

/-! ### The visit -/

/-- The frame makes the room leave. -/
def FrameBody.Leaves : FrameBody → Bool
  | .hostRemovedYou _ => true
  | .meetingEnded _ => true
  | _ => false

structure RoomVisit where
  room : MeetingRoom
  mounted : Bool := true
  /-- The phase on the screen; it follows `room.phase` at the next render. -/
  rendered : Phase := .prejoin
  /-- The gate waits for the media it asked for. -/
  requesting : Bool := false
  /-- The `joinMeeting` requests that are under way. -/
  joins : List JoinRequest := []
  clients : Pool := {}
  managers : Pool := {}
  streams : Pool := {}
  /-- `teardown` has run. -/
  tornDown : Bool := false

namespace RoomVisit

def mount (meetingNumber : String) (inviteToken : Option String) : RoomVisit :=
  { room := .mount meetingNumber inviteToken }

def teardown (v : RoomVisit) : RoomVisit :=
  { v with
    room := v.room.teardown
    clients := v.clients.release
    managers := v.managers.release
    streams := v.streams.release
    tornDown := true }

/-- `join`, up to its await. -/
def join (v : RoomVisit) (stream : Option MediaStream) : RoomVisit :=
  let (room, req) := v.room.join stream
  { v with room, joins := v.joins ++ [req] }

inductive Event where
  | requestMedia
  | granted (stream : MediaStream)
  | denied
  | continueWithout
  | joined (k : ℕ) (response : JoinResponse) (connectionId : ConnectionId)
  | joinFailed (k : ℕ) (message : String)
  | frame (client : ℕ) (f : Frame)
  | leave
  | unmount
  | render

/-- One event.  The buttons of the gate are there while the gate is on the screen; what
was awaited comes back at any time, and an open client delivers frames. -/
def next (v : RoomVisit) : Event → RoomVisit
  | .requestMedia =>
    if v.mounted ∧ v.rendered = .prejoin ∧ v.requesting = false then
      { v with requesting := true } else v
  | .granted stream =>
    if v.requesting then
      { v.join (some stream) with requesting := false, streams := v.streams.acquire } else v
  | .denied => { v with requesting := false }
  | .continueWithout =>
    if v.mounted ∧ v.rendered = .prejoin then
      { v.join none with streams := v.streams.forget } else v
  | .joined k response c =>
    if k < v.joins.length then
      { v with
        room := v.room.joined response c
        joins := v.joins.eraseIdx k
        clients := v.clients.acquire
        managers := v.managers.acquire }
    else v
  | .joinFailed k message =>
    if k < v.joins.length then
      { v with room := v.room.joinFailed message, joins := v.joins.eraseIdx k } else v
  | .frame i f =>
    if v.clients.IsLive i then
      { (if f.body.Leaves then v.teardown else v) with room := (v.room.handleFrame f).1 }
    else v
  | .leave => if v.mounted ∧ v.rendered = .live then
    { v.teardown with room := v.room.leave.1 } else v
  | .unmount => if v.mounted then { v.teardown with mounted := false } else v
  | .render => if v.mounted then { v with rendered := v.room.phase } else v

/-- One session at a time, and nothing left of it once the room was torn down. -/
structure OneSession (v : RoomVisit) : Prop where
  client : v.clients.AtMostOne
  manager : v.managers.AtMostOne
  torn : v.tornDown = true → v.clients.Quiet ∧ v.managers.Quiet ∧ v.streams.Quiet

/-- What comes back comes back in time: media before `teardown`, a `joinMeeting` before
`teardown` and while no client is open; and a `teardown` finds every live stream in the ref. -/
def InTime (v : RoomVisit) : Event → Prop
  | .granted _ => v.requesting = true → v.tornDown = false
  | .joined k _ _ => k < v.joins.length → v.tornDown = false ∧ v.clients.Quiet
  | .frame i f => v.clients.IsLive i → f.body.Leaves = true → v.streams.Held
  | .leave => v.mounted = true ∧ v.rendered = .live → v.streams.Held
  | .unmount => v.mounted = true → v.streams.Held
  | _ => True

/-! ### The refs of the room -/

variable {v w : RoomVisit}

/-- The room holds a client, a mesh and a stream when the refs say so. -/
structure RefsAgree (v : RoomVisit) : Prop where
  signaling : v.room.signaling.isSome = v.clients.current.isSome
  peers : v.room.peers.isSome = v.managers.current.isSome
  localStream : v.room.localStream.isSome = v.streams.current.isSome

theorem handleFrame_leaves {room : MeetingRoom} {f : Frame} (h : f.body.Leaves = true) :
    (room.handleFrame f).1 = room.leave.1 := by
  rw [MeetingRoom.handleFrame]
  cases hbody : f.body with
  | hostRemovedYou sentBy => rfl
  | meetingEnded sentBy => rfl
  | _ =>
    rw [hbody] at h
    cases h

/-- A frame that does not leave keeps what the room holds. -/
theorem handleFrame_stays (room : MeetingRoom) {f : Frame} (h : f.body.Leaves = false) :
    (room.handleFrame f).1.signaling = room.signaling ∧
      (room.handleFrame f).1.peers.isSome = room.peers.isSome ∧
      (room.handleFrame f).1.localStream.isSome = room.localStream.isSome := by
  rw [MeetingRoom.handleFrame]
  cases hbody : f.body with
  | roomState snapshot => exact ⟨rfl, Option.isSome_map, rfl⟩
  | peerJoined participant => exact ⟨rfl, Option.isSome_map, rfl⟩
  | peerLeft id => exact ⟨rfl, Option.isSome_map, rfl⟩
  | signal kind payload =>
    cases f.sender with
    | none => exact ⟨rfl, rfl, rfl⟩
    | some sender => exact ⟨rfl, Option.isSome_map, rfl⟩
  | hostMutedYou sentBy => exact ⟨rfl, rfl, Option.isSome_map⟩
  | hostRemovedYou sentBy =>
    rw [hbody] at h
    cases h
  | meetingEnded sentBy =>
    rw [hbody] at h
    cases h
  | _ => exact ⟨rfl, rfl, rfl⟩

/-- The visit follows the room it is about. -/
theorem RefsAgree.next (h : v.RefsAgree) (e : Event) : (v.next e).RefsAgree := by
  cases e with
  | granted stream =>
    dsimp only [RoomVisit.next]
    split
    · exact ⟨h.signaling, h.peers, rfl⟩
    · exact h
  | continueWithout =>
    dsimp only [RoomVisit.next]
    split
    · exact ⟨h.signaling, h.peers, rfl⟩
    · exact h
  | joined k response c =>
    dsimp only [RoomVisit.next]
    split
    · exact ⟨rfl, rfl, h.localStream⟩
    · exact h
  | frame i f =>
    dsimp only [RoomVisit.next]
    split
    · cases hleaves : f.body.Leaves with
      | true =>
        rw [handleFrame_leaves hleaves]
        exact ⟨rfl, rfl, rfl⟩
      | false =>
        obtain ⟨hsignaling, hpeers, hstream⟩ := handleFrame_stays v.room hleaves
        exact ⟨hsignaling ▸ h.signaling, hpeers.trans h.peers, hstream.trans h.localStream⟩
    · exact h
  | leave =>
    dsimp only [RoomVisit.next]
    split
    · exact ⟨rfl, rfl, rfl⟩
    · exact h
  | unmount =>
    dsimp only [RoomVisit.next]
    split
    · exact ⟨rfl, rfl, rfl⟩
    · exact h
  | denied => exact ⟨h.signaling, h.peers, h.localStream⟩
  | _ =>
    dsimp only [RoomVisit.next]
    split
    · exact ⟨h.signaling, h.peers, h.localStream⟩
    · exact h

/-- The refs agree in every visit. -/
theorem always_refsAgree (meetingNumber : String) (inviteToken : Option String)
    (events : List Event) :
    Runs.Always RoomVisit.next RefsAgree (mount meetingNumber inviteToken) events :=
  Runs.always_of_step ⟨rfl, rfl, rfl⟩ (fun _ e h => h.next e) events

/-! ### Every event -/

/-- The meshes go with the clients. -/
def Paired (v : RoomVisit) : Prop := v.managers = v.clients

theorem Paired.next (h : v.Paired) (e : Event) : (v.next e).Paired := by
  have hrelease : v.managers.release = v.clients.release := congrArg Pool.release h
  cases e with
  | requestMedia =>
    dsimp only [RoomVisit.next]
    split
    · exact h
    · exact h
  | granted stream =>
    dsimp only [RoomVisit.next]
    split
    · exact h
    · exact h
  | denied => exact h
  | continueWithout =>
    dsimp only [RoomVisit.next]
    split
    · exact h
    · exact h
  | joined k response c =>
    dsimp only [RoomVisit.next]
    split
    · exact congrArg Pool.acquire h
    · exact h
  | joinFailed k message =>
    dsimp only [RoomVisit.next]
    split
    · exact h
    · exact h
  | frame i f =>
    dsimp only [RoomVisit.next]
    split
    · split
      · exact hrelease
      · exact h
    · exact h
  | leave =>
    dsimp only [RoomVisit.next]
    split
    · exact hrelease
    · exact h
  | unmount =>
    dsimp only [RoomVisit.next]
    split
    · exact hrelease
    · exact h
  | render =>
    dsimp only [RoomVisit.next]
    split
    · exact h
    · exact h

/-- One session, and the ref holds it. -/
structure InHand (v : RoomVisit) : Prop extends v.OneSession where
  held : v.clients.Held

theorem InHand.congr (h : v.InHand) (hclients : w.clients = v.clients)
    (hmanagers : w.managers = v.managers)
    (hstreams : v.tornDown = true → w.streams.Quiet) (htorn : w.tornDown = v.tornDown) :
    w.InHand where
  client := hclients ▸ h.client
  manager := hmanagers ▸ h.manager
  torn := by
    rw [htorn, hclients, hmanagers]
    exact fun ht => ⟨(h.torn ht).1, (h.torn ht).2.1, hstreams ht⟩
  held := hclients ▸ h.held

theorem InHand.same (h : v.InHand) (hclients : w.clients = v.clients)
    (hmanagers : w.managers = v.managers)
    (hstreams : w.streams = v.streams) (htorn : w.tornDown = v.tornDown) : w.InHand :=
  h.congr hclients hmanagers (fun ht => hstreams ▸ (h.torn ht).2.2) htorn

/-- `teardown` leaves nothing behind exactly if the ref held every live stream. -/
theorem teardown_cases (h : v.InHand) (hpaired : v.Paired) (room : MeetingRoom) (mounted : Bool) :
    RoomVisit.InHand { v.teardown with room, mounted } ∧ v.streams.Held ∨
      ¬ RoomVisit.OneSession { v.teardown with room, mounted } ∧ ¬ v.streams.Held := by
  have hquiet : v.clients.release.Quiet := Pool.quiet_release.mpr h.held
  have hquiet' : v.managers.release.Quiet := by
    rw [hpaired]
    exact hquiet
  by_cases hheld : v.streams.Held
  · refine .inl ⟨⟨⟨hquiet.held.atMostOne, hquiet'.held.atMostOne, fun _ => ?_⟩, hquiet.held⟩, hheld⟩
    exact ⟨hquiet, hquiet', Pool.quiet_release.mpr hheld⟩
  · refine .inr ⟨fun hone => hheld ?_, hheld⟩
    exact Pool.quiet_release.mp (hone.torn rfl).2.2

/-- A stream that is granted after a teardown is never stopped. -/
theorem granted_cases (h : v.InHand) (stream : MediaStream) :
    (v.next (.granted stream)).InHand ∧ v.InTime (.granted stream) ∨
      ¬ (v.next (.granted stream)).OneSession ∧ ¬ v.InTime (.granted stream) := by
  dsimp only [RoomVisit.next, InTime]
  by_cases hrequesting : v.requesting = true
  · rw [if_pos hrequesting]
    cases htorn : v.tornDown with
    | false =>
      refine .inl ⟨h.congr rfl rfl (fun ht => ?_) rfl, fun _ => rfl⟩
      rw [htorn] at ht
      cases ht
    | true =>
      refine .inr ⟨fun hone => ?_, fun hin => ?_⟩
      · exact Pool.not_quiet_acquire (hone.torn htorn).2.2
      · cases hin hrequesting
  · rw [if_neg hrequesting]
    exact .inl ⟨h, fun hreq => absurd hreq hrequesting⟩

/-- A join that succeeds after a teardown, or beside an open client, is one too many. -/
theorem joined_cases (h : v.InHand) (hpaired : v.Paired) (k : ℕ) (response : JoinResponse)
    (c : ConnectionId) :
    (v.next (.joined k response c)).InHand ∧ v.InTime (.joined k response c) ∨
      ¬ (v.next (.joined k response c)).OneSession ∧ ¬ v.InTime (.joined k response c) := by
  dsimp only [RoomVisit.next, InTime]
  by_cases hk : k < v.joins.length
  · rw [if_pos hk]
    by_cases hin : v.tornDown = false ∧ v.clients.Quiet
    · refine .inl ⟨?_, fun _ => hin⟩
      have hheld := Pool.held_acquire hin.2
      refine ⟨⟨hheld.atMostOne, ?_, ?_⟩, hheld⟩
      · show v.managers.acquire.AtMostOne
        rw [hpaired]
        exact hheld.atMostOne
      · intro ht
        have ht : v.tornDown = true := ht
        rw [hin.1] at ht
        cases ht
    · refine .inr ⟨fun hone => hin ⟨?_, Pool.atMostOne_acquire.mp hone.client⟩,
        fun hin' => hin (hin' hk)⟩
      by_contra htorn
      exact Pool.not_quiet_acquire (hone.torn (Bool.eq_true_of_not_eq_false htorn)).1
  · rw [if_neg hk]
    exact .inl ⟨h, fun hk' => absurd hk' hk⟩

/-- After an event that is in time the visit is in hand; after any other it is not one session. -/
theorem next_cases (h : v.InHand) (hpaired : v.Paired) (e : Event) :
    (v.next e).InHand ∧ v.InTime e ∨ ¬ (v.next e).OneSession ∧ ¬ v.InTime e := by
  cases e with
  | requestMedia =>
    refine .inl ⟨?_, trivial⟩
    dsimp only [RoomVisit.next]
    split
    · exact h.same rfl rfl rfl rfl
    · exact h
  | granted stream => exact granted_cases h stream
  | denied => exact .inl ⟨h.same rfl rfl rfl rfl, trivial⟩
  | continueWithout =>
    refine .inl ⟨?_, trivial⟩
    dsimp only [RoomVisit.next]
    split
    · exact h.congr rfl rfl (fun ht => (h.torn ht).2.2) rfl
    · exact h
  | joined k response c => exact joined_cases h hpaired k response c
  | joinFailed k message =>
    refine .inl ⟨?_, trivial⟩
    dsimp only [RoomVisit.next]
    split
    · exact h.same rfl rfl rfl rfl
    · exact h
  | frame i f =>
    dsimp only [RoomVisit.next, InTime]
    by_cases hlive : v.clients.IsLive i
    · rw [if_pos hlive]
      cases hleaves : f.body.Leaves with
      | false => exact .inl ⟨h.same rfl rfl rfl rfl, nofun⟩
      | true =>
        rcases teardown_cases h hpaired (v.room.handleFrame f).1 v.mounted with ⟨hnext, hheld⟩ |
          ⟨hnext, hheld⟩
        · exact .inl ⟨hnext, fun _ _ => hheld⟩
        · exact .inr ⟨hnext, fun hin => hheld (hin hlive rfl)⟩
    · rw [if_neg hlive]
      exact .inl ⟨h, fun hlive' => absurd hlive' hlive⟩
  | leave =>
    dsimp only [RoomVisit.next, InTime]
    by_cases hleave : v.mounted = true ∧ v.rendered = .live
    · rw [if_pos hleave]
      rcases teardown_cases h hpaired v.room.leave.1 v.mounted with ⟨hnext, hheld⟩ | ⟨hnext, hheld⟩
      · exact .inl ⟨hnext, fun _ => hheld⟩
      · exact .inr ⟨hnext, fun hin => hheld (hin hleave)⟩
    · rw [if_neg hleave]
      exact .inl ⟨h, fun hleave' => absurd hleave' hleave⟩
  | unmount =>
    dsimp only [RoomVisit.next, InTime]
    by_cases hmounted : v.mounted = true
    · rw [if_pos hmounted]
      rcases teardown_cases h hpaired v.room.teardown false with ⟨hnext, hheld⟩ | ⟨hnext, hheld⟩
      · exact .inl ⟨hnext, fun _ => hheld⟩
      · exact .inr ⟨hnext, fun hin => hheld (hin hmounted)⟩
    · rw [if_neg hmounted]
      exact .inl ⟨h, fun hmounted' => absurd hmounted' hmounted⟩
  | render =>
    refine .inl ⟨?_, trivial⟩
    dsimp only [RoomVisit.next]
    split
    · exact h.same rfl rfl rfl rfl
    · exact h

theorem inHand_mount (meetingNumber : String) (inviteToken : Option String) :
    (mount meetingNumber inviteToken).InHand where
  client := Pool.quiet_empty.held.atMostOne
  manager := Pool.quiet_empty.held.atMostOne
  torn := nofun
  held := Pool.quiet_empty.held

end RoomVisit

/-- **One session per visit, and none after it.**  A visit keeps to it exactly if all that it
awaits comes back in time. -/
theorem one_session_iff (meetingNumber : String) (inviteToken : Option String)
    (events : List RoomVisit.Event) :
    Runs.Always RoomVisit.next RoomVisit.OneSession (.mount meetingNumber inviteToken) events ↔
      Runs.Guarded RoomVisit.next RoomVisit.InTime (.mount meetingNumber inviteToken) events := by
  have hmount := RoomVisit.inHand_mount meetingNumber inviteToken
  have hpaired : (RoomVisit.mount meetingNumber inviteToken).Paired := rfl
  have hhand : Runs.Always RoomVisit.next RoomVisit.OneSession
    (.mount meetingNumber inviteToken) events ↔
      Runs.Always RoomVisit.next RoomVisit.InHand (.mount meetingNumber inviteToken) events := by
    refine Runs.always_iff_always (I := RoomVisit.Paired) hpaired
      ⟨fun _ => hmount, fun h => h.toOneSession⟩
      (fun _ e h => h.next e)
      (fun v e hpaired h => ⟨fun hone => ?_, fun h' => h'.toOneSession⟩) events
    rcases RoomVisit.next_cases h hpaired e with ⟨hnext, -⟩ | ⟨hnext, -⟩
    · exact hnext
    · exact absurd hone hnext
  rw [hhand]
  refine Runs.always_iff_guarded (I := RoomVisit.Paired) hpaired hmount (fun _ e h => h.next e)
    (fun v e hpaired h => ?_) events
  rcases RoomVisit.next_cases h hpaired e with ⟨hnext, hin⟩ | ⟨hnext, hin⟩
  · exact iff_of_true hnext hin
  · exact iff_of_false (fun h' => hnext h'.toOneSession) hin

/-- The visitor goes in without media, and closes the page while `joinMeeting` is under
way. -/
def leavesWhileJoining : List RoomVisit.Event :=
  [.continueWithout, .unmount, .joined 0 ⟨"s", bob, bobsMeeting, maxMeshParticipants⟩ "c"]

/-- The request comes back, and a client is opened for a room that is gone. -/
theorem hidden_participant : ¬ ∀ (meetingNumber : String) (inviteToken : Option String)
    (events : List RoomVisit.Event),
    Runs.Always RoomVisit.next RoomVisit.OneSession (.mount meetingNumber inviteToken) events := by
  intro h
  have hone := (h "1" none leavesWhileJoining).last
  exact (hone.torn rfl).1 0 rfl

/-- A visitor whose media come back after the room was joined without them joins twice. -/
example : ¬ RoomVisit.OneSession (Runs.run RoomVisit.next (.mount "1" none)
    [.requestMedia, .continueWithout, .joined 0 ⟨"s", bob, bobsMeeting, maxMeshParticipants⟩ "c",
      .granted ⟨[⟨true⟩], [⟨true⟩]⟩,
        .joined 0 ⟨"t", bob, bobsMeeting, maxMeshParticipants⟩ "d"]) := by
  intro h
  exact absurd (h.client 0 1 rfl rfl) (by decide)

end ZoomClone
