/-
One join per entry.

A join screen that succeeds has made a `POST /join` and leaves its session in
the handoff slot, so that the room need not join again.  The room never takes
it: `MeetingRoom.join` posts a second time and opens its socket with whatever
session that post returns.

`entered_twice` says so for every visitor of every run: after an entry and a
press on join, two posts were made, and the socket does not carry the session of
the join screen.
-/
import ZoomClone.JoinFlow
import ZoomClone.Server

namespace ZoomClone

/-! ### Visitors -/

/-- What a visitor does in a tab. -/
inductive TabEvent where
  | signIn (session : Option StoredSession)
  | openJoin
  | setMeetingId (value : String)
  | setPasscode (value : String)
  | submit (trip : Trip)
  | openInvite (meetingId : String) (pwd : Option String)
  | setName (value : String)
  | handleJoin (trip : Trip)
  | openRoom (meetingNumber : String) (pwd : Option String)
  | pressJoin (stream : Option MediaStream) (c : ConnectionId) (trip : Trip)
  | frame (f : Frame)
  | close

namespace Tab

/-- Go to a page that belongs to no entry. -/
def goTo (tab : Tab) (page : Page) : Tab := { tab with page, entry := none, posts := [] }

/-- The event on the page that the tab shows; on another page it does nothing. -/
def act (tab : Tab) (db : Db) (e : TabEvent) : Tab × Db :=
  match e, tab.page with
  | .signIn session, _ => ({ tab with session }, db)
  | .openJoin, _ => (tab.goTo (.join {}), db)
  | .setMeetingId value, .join form => ({ tab with page := .join (form.setMeetingId value) }, db)
  | .setPasscode value, .join form =>
    ({ tab with page := .join { form with passcode := value } }, db)
  | .submit trip, .join form => tab.submit form db trip
  | .openInvite meetingId pwd, _ => (tab.goTo (.invite (openInvite db meetingId pwd)), db)
  | .setName value, .invite card =>
    ({ tab with page := .invite { card with nameDraft := some value } }, db)
  | .setPasscode value, .invite card =>
    ({ tab with page := .invite { card with passcode := value, formError := none } }, db)
  | .handleJoin trip, .invite card => tab.handleJoin card db trip
  | .openRoom meetingNumber pwd, _ =>
    (tab.goTo (.room (.mount meetingNumber pwd)), db)
  | .pressJoin stream c trip, .room room =>
    if room.phase = .prejoin then tab.pressJoin room db stream c trip else (tab, db)
  | .frame f, .room room =>
    if room.signaling.isSome then ({ tab with page := .room (room.handleFrame f).1 }, db)
    else (tab, db)
  | .close, _ => (tab.goTo .elsewhere, db)
  | _, _ => (tab, db)

/-- The session that the room's socket was opened with. -/
def socketSession (tab : Tab) : Option SessionId :=
  match tab.page with
  | .room room => room.signaling.map fun client => client.url.sessionId
  | _ => none

/-- Join was pressed in the room that the tab shows. -/
def inRoom (tab : Tab) : Bool :=
  match tab.page with
  | .room room => room.phase ≠ .prejoin
  | _ => false

/-- The visitor entered with session `s` and has pressed join in the room. -/
def Pressed (tab : Tab) (s : SessionId) : Prop := tab.entry = some s ∧ tab.inRoom = true

instance (tab : Tab) (s : SessionId) : Decidable (tab.Pressed s) :=
  inferInstanceAs (Decidable (_ ∧ _))

/-- The visitor's only post was that of the entry, and the room's socket carries
the session it returned. -/
def OneJoin (tab : Tab) (s : SessionId) : Prop :=
  tab.posts = [some s] ∧ tab.socketSession = some s

instance (tab : Tab) (s : SessionId) : Decidable (tab.OneJoin s) :=
  inferInstanceAs (Decidable (_ ∧ _))

end Tab

/-- A visitor, with a tab of their own. -/
abbrev Visitor := ℕ

structure Lobby where
  db : Db := .empty
  tabs : Visitor → Tab := fun _ => {}

inductive LobbyEvent where
  /-- Any request that is not made by a tab. -/
  | request (r : Request)
  | visit (v : Visitor) (e : TabEvent)

def Lobby.next (l : Lobby) : LobbyEvent → Lobby
  | .request r => { l with db := l.db.apply (.request r) }
  | .visit v e =>
    let (tab, db) := (l.tabs v).act l.db e
    { db, tabs := Function.update l.tabs v tab }

/-! ### Sessions are never lost -/

/-- Every session of `db` is one of `db'`. -/
def Db.KeepsSessions (db db' : Db) : Prop :=
  ∀ p ∈ db.participants, ∃ q ∈ db'.participants, q.sessionId = p.sessionId

/-- Some row has the session. -/
def Db.HasSession (db : Db) (s : SessionId) : Prop := ∃ p ∈ db.participants, p.sessionId = s

section Sessions

variable {db db' : Db} {s : SessionId}

theorem Db.HasSession.mono (h : db.HasSession s) (hkeep : db.KeepsSessions db') :
    db'.HasSession s := by
  obtain ⟨p, hp, rfl⟩ := h
  exact hkeep p hp

theorem Db.KeepsSessions.refl (db : Db) : db.KeepsSessions db := fun p hp => ⟨p, hp, rfl⟩

theorem Db.KeepsSessions.trans {db'' : Db} (h : db.KeepsSessions db')
    (h' : db'.KeepsSessions db'') : db.KeepsSessions db'' := by
  intro p hp
  obtain ⟨q, hq, hqs⟩ := h p hp
  obtain ⟨r, hr, hrs⟩ := h' q hq
  exact ⟨r, hr, hrs.trans hqs⟩

theorem keepsSessions_apply (db : Db) (op : Operation) : db.KeepsSessions (db.apply op) := by
  intro p hp
  obtain ⟨q, hq, he⟩ := row_apply hp op
  exact ⟨q, hq, he.sessionId⟩

theorem reply_eq_ok {α : Type} {x : Service α} {a : α} : reply x = .ok a ↔ x = .ok a := by
  cases x with
  | error e => simp [reply]
  | ok b => simp [reply]

/-- A guest sign-in writes no participant. -/
theorem keepsSessions_identify {tab : Tab} {name : String} {trip : Trip}
    {session : StoredSession} (h : tab.identify db name trip = .ok (session, db')) :
    db.KeepsSessions db' := by
  unfold Tab.identify at h
  split at h
  · obtain ⟨-, rfl⟩ := Prod.mk.inj (Except.ok.inj h)
    exact .refl db
  · split at h
    · cases h
    · next user db₁ hguest =>
      obtain ⟨-, rfl⟩ := Prod.mk.inj (Except.ok.inj h)
      have hsame := createGuest_ok (reply_eq_ok.mp hguest)
      intro p hp
      rw [← hsame.participants] at hp
      exact ⟨p, hp, rfl⟩

/-- **Every join is a new session.** -/
theorem postJoin_ok {userId : UserId} {number : String} {req : JoinRequest} {trip : Trip}
    {response : JoinResponse} (h : postJoin db userId number req trip = .ok (response, db')) :
    ¬ db.HasSession response.sessionId ∧ db'.HasSession response.sessionId ∧
      db.KeepsSessions db' := by
  unfold postJoin at h
  split at h
  · cases h
  · split at h
    · cases h
    · obtain ⟨user, -, h⟩ := Service.bind_eq_ok.mp (reply_eq_ok.mp h)
      obtain ⟨m, -, hcommit⟩ := joinMeeting_ok h
      obtain ⟨hid, hp, -, hsession⟩ := commitJoin_ok hcommit
      have hresponse : response.sessionId = trip.draws.sessionId := by
        obtain ⟨db₁, -, hret⟩ := Service.bind_eq_ok.mp hcommit
        obtain ⟨rfl, -⟩ := Prod.mk.inj (Service.pure_eq_ok.mp hret)
        rfl
      refine ⟨?_, ?_, ?_⟩
      · rintro ⟨q, hq, hqs⟩
        exact hsession q hq (hqs.trans hresponse)
      · refine ⟨joinRow db m user req trip.draws trip.now, ?_, hresponse.symm⟩
        rw [hp]
        exact Keyed.mem_insert.mpr (.inr rfl)
      · intro q hq
        refine ⟨q, ?_, rfl⟩
        rw [hp]
        exact Keyed.mem_insert.mpr (.inl hq)

end Sessions

/-! ### What an entry leads to -/

/-- The room of an entry: not joined yet, or joined by a second post. -/
inductive Tab.Entered (db : Db) (tab : Tab) (s : SessionId) : Prop
  | waiting (room : MeetingRoom) (hpage : tab.page = .room room) (hphase : room.phase = .prejoin)
      (hsocket : room.signaling = none) (hposts : tab.posts = [some s]) (hs : db.HasSession s)
  | again (room : MeetingRoom) (hpage : tab.page = .room room) (hphase : room.phase ≠ .prejoin)
      (hsocket : tab.socketSession ≠ some s) (hposts : tab.posts.length = 2)

/-- Every entry of the tab is accounted for. -/
def Tab.Accounted (db : Db) (tab : Tab) : Prop := ∀ s, tab.entry = some s → tab.Entered db s

section Accounted

variable {db db' : Db} {tab tab' : Tab}

theorem Tab.Accounted.mono (h : tab.Accounted db) (hkeep : db.KeepsSessions db') :
    tab.Accounted db' := by
  intro s hs
  cases h s hs with
  | waiting room hpage hphase hsocket hposts hsession =>
    exact .waiting room hpage hphase hsocket hposts (hsession.mono hkeep)
  | again room hpage hphase hsocket hposts => exact .again room hpage hphase hsocket hposts

theorem Tab.Accounted.of_no_entry (h : tab.entry = none) : tab.Accounted db := by
  intro s hs
  rw [h] at hs
  cases hs

/-- A tab that shows no room has no entry. -/
theorem Tab.Accounted.entry_eq_none (h : tab.Accounted db) (hpage : ∀ room, tab.page ≠ .room room) :
    tab.entry = none := by
  cases hentry : tab.entry with
  | none => rfl
  | some s =>
    cases h s hentry with
    | waiting room hp => exact absurd hp (hpage room)
    | again room hp => exact absurd hp (hpage room)

theorem Tab.Accounted.congr (h : tab.Accounted db) (hentry : tab'.entry = tab.entry)
    (hpage : tab'.page = tab.page) (hposts : tab'.posts = tab.posts) : tab'.Accounted db := by
  intro s hs
  rw [hentry] at hs
  cases h s hs with
  | waiting room hp hphase hsocket hone hsession =>
    exact .waiting room (hpage.trans hp) hphase hsocket (hposts.trans hone) hsession
  | again room hp hphase hsocket htwo =>
    refine .again room (hpage.trans hp) hphase ?_ (hposts ▸ htwo)
    rwa [socketSession, hpage]

theorem Tab.accounted_enter {number name : String} {response : JoinResponse} {nowMs : Int}
    (hs : db.HasSession response.sessionId) :
    (tab.enter number name response nowMs).Accounted db := by
  intro s hentry
  obtain rfl := Option.some.inj hentry
  exact .waiting _ rfl rfl rfl rfl hs

/-- A submit of the form stays without an entry, or enters. -/
theorem Tab.accounted_submit {form : JoinForm} {trip : Trip} (hentry : tab.entry = none) :
    (tab.submit form db trip).1.Accounted (tab.submit form db trip).2 ∧
      db.KeepsSessions (tab.submit form db trip).2 := by
  unfold Tab.submit
  dsimp only
  split
  · exact ⟨.of_no_entry hentry, .refl db⟩
  · split
    · exact ⟨.of_no_entry hentry, .refl db⟩
    · split
      · exact ⟨.of_no_entry hentry, .refl db⟩
      · split
        · exact ⟨.of_no_entry hentry, .refl db⟩
        · split
          · exact ⟨.of_no_entry hentry, .refl db⟩
          · next session db₁ hidentify =>
            have hkeep := keepsSessions_identify hidentify
            split
            · exact ⟨.of_no_entry hentry, hkeep⟩
            · next response db₂ hpost =>
              obtain ⟨-, hs, hkeep'⟩ := postJoin_ok hpost
              exact ⟨accounted_enter hs, hkeep.trans hkeep'⟩

theorem Tab.accounted_handleJoin {card : JoinInterstitial} {trip : Trip}
    (hentry : tab.entry = none) :
    (tab.handleJoin card db trip).1.Accounted (tab.handleJoin card db trip).2 ∧
      db.KeepsSessions (tab.handleJoin card db trip).2 := by
  unfold Tab.handleJoin
  dsimp only
  split
  · exact ⟨.of_no_entry hentry, .refl db⟩
  · split
    · exact ⟨.of_no_entry hentry, .refl db⟩
    · split
      · exact ⟨.of_no_entry hentry, .refl db⟩
      · split
        · exact ⟨.of_no_entry hentry, .refl db⟩
        · next session db₁ hidentify =>
          have hkeep := keepsSessions_identify hidentify
          split
          · exact ⟨.of_no_entry hentry, hkeep⟩
          · next response db₂ hpost =>
            obtain ⟨-, hs, hkeep'⟩ := postJoin_ok hpost
            exact ⟨accounted_enter hs, hkeep.trans hkeep'⟩

/-- **The second post.**  Pressing join on a waiting room posts again, and the
socket, if there is one, carries the new session. -/
theorem Tab.accounted_pressJoin {room : MeetingRoom} {stream : Option MediaStream}
    {c : ConnectionId}
    {trip : Trip} (h : tab.Accounted db) (hpage : tab.page = .room room)
    (hphase : room.phase = .prejoin) :
    (tab.pressJoin room db stream c trip).1.Accounted (tab.pressJoin room db stream c trip).2 ∧
      db.KeepsSessions (tab.pressJoin room db stream c trip).2 := by
  have hwaiting : ∀ s, tab.entry = some s →
      room.signaling = none ∧ tab.posts = [some s] ∧ db.HasSession s := by
    intro s hs
    cases h s hs with
    | waiting room' hpage' hphase' hsocket hposts hsession =>
      obtain rfl : room = room' := Page.room.inj (hpage.symm.trans hpage')
      exact ⟨hsocket, hposts, hsession⟩
    | again room' hpage' hphase' hsocket hposts =>
      obtain rfl : room = room' := Page.room.inj (hpage.symm.trans hpage')
      exact absurd hphase hphase'
  unfold Tab.pressJoin
  split
  · exact ⟨h, .refl db⟩
  · dsimp only
    split
    · -- The second post failed: there is no socket at all.
      refine ⟨?_, .refl db⟩
      intro s hs
      obtain ⟨hsocket, hposts, -⟩ := hwaiting s hs
      refine .again _ rfl (by simp [MeetingRoom.joinFailed]) ?_ (by simp [hposts])
      simp [socketSession, MeetingRoom.joinFailed, MeetingRoom.join, hsocket]
    · next response db' hpost =>
      -- It succeeded: the session of the socket is a new one.
      obtain ⟨hnew, -, hkeep⟩ := postJoin_ok hpost
      refine ⟨?_, hkeep⟩
      intro s hs
      obtain ⟨-, hposts, hsession⟩ := hwaiting s hs
      refine .again _ rfl (by simp [MeetingRoom.joined, MeetingRoom.join]) ?_ (by simp [hposts])
      intro hsame
      have hsame : response.sessionId = s := by
        simpa [socketSession, MeetingRoom.joined, SignalingClient.connect,
          SignalingClient.openSocket] using hsame
      exact hnew (hsame ▸ hsession)

theorem Tab.accounted_frame {room : MeetingRoom} {f : Frame} (h : tab.Accounted db)
    (hpage : tab.page = .room room) (hsocket : room.signaling.isSome) :
    Tab.Accounted db { tab with page := .room (room.handleFrame f).1 } := by
  intro s hs
  cases h s hs with
  | waiting room' hpage' hphase hnone hposts hsession =>
    obtain rfl : room = room' := Page.room.inj (hpage.symm.trans hpage')
    rw [hnone] at hsocket
    cases hsocket
  | again room' hpage' hphase hother hposts =>
    obtain rfl : room = room' := Page.room.inj (hpage.symm.trans hpage')
    refine .again _ rfl (MeetingRoom.handleFrame_phase hphase f) ?_ hposts
    simp only [socketSession, hpage] at hother ⊢
    rcases room.handleFrame_signaling f with hsame | hnone
    · rwa [hsame]
    · simp [hnone]

/-- **One event of a tab.** -/
theorem Tab.accounted_act (h : tab.Accounted db) (e : TabEvent) :
    (tab.act db e).1.Accounted (tab.act db e).2 ∧ db.KeepsSessions (tab.act db e).2 := by
  have hstay : tab.Accounted db ∧ db.KeepsSessions db := ⟨h, .refl db⟩
  have hform (form : JoinForm) (hpage : tab.page = .join form) : tab.entry = none :=
    h.entry_eq_none fun room hroom => nomatch hpage.symm.trans hroom
  have hcard (card : JoinInterstitial) (hpage : tab.page = .invite card) : tab.entry = none :=
    h.entry_eq_none fun room hroom => nomatch hpage.symm.trans hroom
  unfold Tab.act
  split
  · exact ⟨h.congr rfl rfl rfl, .refl db⟩
  · exact ⟨.of_no_entry rfl, .refl db⟩
  · next form hpage => exact ⟨.of_no_entry (hform form hpage), .refl db⟩
  · next form hpage => exact ⟨.of_no_entry (hform form hpage), .refl db⟩
  · next form hpage => exact accounted_submit (hform form hpage)
  · exact ⟨.of_no_entry rfl, .refl db⟩
  · next card hpage => exact ⟨.of_no_entry (hcard card hpage), .refl db⟩
  · next card hpage => exact ⟨.of_no_entry (hcard card hpage), .refl db⟩
  · next card hpage => exact accounted_handleJoin (hcard card hpage)
  · exact ⟨.of_no_entry rfl, .refl db⟩
  · next room hpage =>
    split
    · next hphase => exact accounted_pressJoin h hpage hphase
    · exact hstay
  · next room hpage =>
    split
    · next hsocket => exact ⟨accounted_frame h hpage hsocket, .refl db⟩
    · exact hstay
  · exact ⟨.of_no_entry rfl, .refl db⟩
  · exact hstay

end Accounted

/-! ### Runs -/

/-- Every tab's entry is accounted for. -/
def Lobby.Accounted (l : Lobby) : Prop := ∀ v, (l.tabs v).Accounted l.db

theorem Lobby.Accounted.next {l : Lobby} (h : l.Accounted) (e : LobbyEvent) :
    (l.next e).Accounted := by
  intro w
  cases e with
  | request r => exact (h w).mono (keepsSessions_apply l.db (.request r))
  | visit v e =>
    obtain ⟨htab, hkeep⟩ := Tab.accounted_act (h v) e
    show (Function.update l.tabs v ((l.tabs v).act l.db e).1 w).Accounted ((l.tabs v).act l.db e).2
    by_cases hw : w = v
    · rw [hw, Function.update_self]
      exact htab
    · rw [Function.update_of_ne hw]
      exact (h w).mono hkeep

theorem Lobby.accounted_run (events : List LobbyEvent) :
    (Runs.run Lobby.next {} events).Accounted :=
  (Runs.always_of_step (I := Lobby.Accounted) (fun _ => .of_no_entry rfl)
    (fun _ e h => h.next e) events).last

/-- **Two joins per entry.**  In every run, a visitor who entered with session
`s` and pressed join in the room has made a second post, and the room's socket
does not carry `s`. -/
theorem entered_twice (events : List LobbyEvent) (v : Visitor) (s : SessionId)
    (h : ((Runs.run Lobby.next {} events).tabs v).Pressed s) :
    ((Runs.run Lobby.next {} events).tabs v).posts ≠ [some s] ∧
      ((Runs.run Lobby.next {} events).tabs v).socketSession ≠ some s := by
  obtain ⟨hentry, hroom⟩ := h
  cases Lobby.accounted_run events v s hentry with
  | waiting room hpage hphase _ _ _ =>
    rw [Tab.inRoom, hpage] at hroom
    simp [hphase] at hroom
  | again room hpage hphase hsocket hposts =>
    refine ⟨?_, hsocket⟩
    intro hone
    rw [hone] at hposts
    cases hposts

/-! ### Two visitors -/

/-- A request whose random draws are given. -/
def trip (id session : String) : Trip :=
  ⟨⟨"visitor", "e", fun _ => (0, 9)⟩, ⟨id, session⟩, 30, 30, none⟩

/-- A guest follows the invite link, and presses join in the room. -/
def guestEnters : List LobbyEvent :=
  openRequests.map .request ++
    ([.openInvite "100 0000 0003" (some "tok"), .setName "Bob", .handleJoin (trip "p1" "s1"),
      .pressJoin none "c1" (trip "p2" "s2")] : List TabEvent).map (.visit 0)

/-- The host enters through the form, and presses join in the room. -/
def hostEnters : List LobbyEvent :=
  openRequests.map .request ++
    ([.signIn (some ⟨"host", "ada"⟩), .openJoin, .setMeetingId "100 0000 0003",
      .submit (trip "p1" "s1"), .setPasscode "hRtz4K", .submit (trip "p1" "s1"),
      .pressJoin none "c1" (trip "p2" "s2")] : List TabEvent).map (.visit 0)

/-- The guest's second post is refused, and there is no socket. -/
theorem entered_twice_guest :
    ((Runs.run Lobby.next {} guestEnters).tabs 0).posts ≠ [some "s1"] ∧
      ((Runs.run Lobby.next {} guestEnters).tabs 0).socketSession ≠ some "s1" :=
  entered_twice guestEnters 0 "s1" (by decide +kernel)

/-- The host's second post succeeds: one visitor, two open rows. -/
theorem host_has_two_rows :
    ((Runs.run Lobby.next {} hostEnters).tabs 0).Pressed "s1" ∧
      ¬ ((Runs.run Lobby.next {} hostEnters).tabs 0).OneJoin "s1" ∧
      activeCount (Runs.run Lobby.next {} hostEnters).db "m" = 2 := by
  decide +kernel

end ZoomClone
