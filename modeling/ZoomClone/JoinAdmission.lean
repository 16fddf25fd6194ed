/-
Who may join a meeting.

`join_meeting` looks the meeting up, checks its status, the invite token or passcode and
the room left, and commits once.  The texts are compared by `compare_digest`, which
raises on text that is not ASCII.

* `checkCredentials_of_ascii`, `checkCredentials_of_not_ascii` — what comes of the
  comparison;
* `refused_of_error`, `joinedBy_of_commitJoin` — the two ways a join ends;
* `joinsRight_iff` — a join does what it should exactly when it compares nothing but
  ASCII.
-/
import ZoomClone.Operations
import ZoomClone.Queries

namespace ZoomClone

/-! ### What a join should do -/

/-- The user is the host, or shows the invite token or the passcode, or none is needed. -/
def Meeting.Admits (m : Meeting) (user : User) (req : JoinRequest) : Prop :=
  m.hostId = user.id ∨ req.inviteToken = some m.inviteToken ∨ m.passcode = "" ∨
    req.passcode = some m.passcode

/-- The join is admissible into the meeting. -/
structure Admissible (db : Db) (meetingNumber : String) (user : User) (req : JoinRequest)
    (m : Meeting) : Prop where
  mem : m ∈ db.meetings
  meetingNumber : m.meetingNumber = normalizeMeetingNumber meetingNumber
  status : m.status = .scheduled ∨ m.status = .live
  admits : m.Admits user req
  space : activeCount db m.id < maxMeshParticipants

/-- The join adds one open row for the user, and takes a scheduled meeting live if the
user is its host.  Nothing else changes. -/
structure JoinedBy (db db' : Db) (user : User) (now : DateTime) (m : Meeting) : Prop where
  row : ∃ row, ∃ hid : row.id ∉ db.participants.keys,
    db'.participants = db.participants.insert row hid ∧
    row.meetingId = m.id ∧ row.userId = some user.id ∧ row.leftAt = none ∧
      (row.role = .host ↔ m.hostId = user.id)
  meetings : db'.meetings = if m.hostId = user.id ∧ m.status = .scheduled then
      db.meetings.modify m.id (·.goLive now) (Meeting.goLive_id · now)
    else db.meetings
  users : db'.users = db.users
  userPreferences : db'.userPreferences = db.userPreferences
  meetingInvitees : db'.meetingInvitees = db.meetingInvitees
  chatMessages : db'.chatMessages = db.chatMessages

/-- `MeetingNotFound`, `MeetingNotJoinable`, `InvalidPasscode` or `MeetingFull`. -/
inductive JoinRefusal : AppError → Prop
  | notFound (number : String) : JoinRefusal (meetingNotFound number)
  | notJoinable (status : MeetingStatus) : JoinRefusal (meetingNotJoinable status)
  | invalidPasscode : JoinRefusal invalidPasscode
  | full : JoinRefusal meetingFull

/-- A join succeeds if it is admissible, and then does what a join does; otherwise it is
refused, and commits nothing. -/
structure JoinsRight (db : Db) (meetingNumber : String) (user : User) (req : JoinRequest)
    (draws : JoinDraws) (now : DateTime) : Prop where
  succeeds : (∃ r db', joinMeeting db meetingNumber user req draws now = .ok (r, db')) ↔
    ∃ m, Admissible db meetingNumber user req m
  joined : ∀ r db', joinMeeting db meetingNumber user req draws now = .ok (r, db') →
    ∃ m, Admissible db meetingNumber user req m ∧ JoinedBy db db' user now m
  refused : ∀ e, joinMeeting db meetingNumber user req draws now = .error e →
    (∃ refusal, e = .app refusal ∧ JoinRefusal refusal) ∧
      db.apply (.request (.joinMeeting user.id meetingNumber req draws now)) = db

/-! ### Comparing -/

/-- The texts that a join compares, and the stored ones they are compared with, are
ASCII.  The passcode is compared only where one is needed. -/
structure Meeting.ComparesAscii (m : Meeting) (req : JoinRequest) : Prop where
  inviteToken : ∀ token, given req.inviteToken = some token →
    PyStr.isAscii token ∧ PyStr.isAscii m.inviteToken
  passcode : given req.inviteToken ≠ some m.inviteToken → m.passcode ≠ "" →
    ∀ passcode, given req.passcode = some passcode → PyStr.isAscii passcode ∧
      PyStr.isAscii m.passcode

/-- What the comparison is about: the empty text counts as absent. -/
def Meeting.Accepts (m : Meeting) (req : JoinRequest) : Prop :=
  given req.inviteToken = some m.inviteToken ∨ m.passcode = "" ∨
    given req.passcode = some m.passcode

instance (m : Meeting) (req : JoinRequest) : Decidable (m.Accepts req) :=
  inferInstanceAs (Decidable (_ ∨ _ ∨ _))

theorem compareDigest_of_ascii {a b : String} (ha : PyStr.isAscii a) (hb : PyStr.isAscii b) :
    compareDigest a b = .ok (a = b) := by
  simp [compareDigest, ha, hb]

theorem compareDigest_of_not_ascii {a b : String} (h : ¬ (PyStr.isAscii a ∧ PyStr.isAscii b)) :
    compareDigest a b = .error .typeError := by
  rw [compareDigest, if_neg]
  rwa [Bool.and_eq_true]

/-- The check of the invite token. -/
def checkToken (m : Meeting) (req : JoinRequest) : Service Bool :=
  match given req.inviteToken with
  | none => .ok false
  | some token => compareDigest token m.inviteToken

/-- The check of the passcode, once the outcome for the invite token is known. -/
def checkPasscode (m : Meeting) (req : JoinRequest) (tokenOk : Bool) : Service Unit :=
  if tokenOk = true ∨ m.passcode = "" then .ok ()
  else
    match given req.passcode with
    | none => .error (.app invalidPasscode)
    | some passcode => compareDigest passcode m.passcode >>= fun ok => .require ok invalidPasscode

section Credentials

variable {m : Meeting} {req : JoinRequest}

theorem checkCredentials_eq :
    checkCredentials m req = checkToken m req >>= checkPasscode m req := by
  have hpasscode (tokenOk : Bool) : (if !tokenOk && m.passcode ≠ "" then
        match given req.passcode with
        | none => .error (.app invalidPasscode)
        | some passcode => do
          let passcodeOk ← compareDigest passcode m.passcode
          Service.require passcodeOk invalidPasscode
      else pure ()) = checkPasscode m req tokenOk := by
    rw [checkPasscode]
    by_cases hneeds : m.passcode = ""
    · simp [hneeds]
      rfl
    · cases tokenOk with
      | false => simp [hneeds]
      | true =>
        simp [hneeds]
        rfl
  rw [checkCredentials, checkToken]
  cases given req.inviteToken with
  | none => exact hpasscode false
  | some token =>
    dsimp only
    cases compareDigest token m.inviteToken with
    | error e => rfl
    | ok tokenOk => exact hpasscode tokenOk

/-- A comparison of ASCII accepts who it should, and refuses everybody else. -/
theorem checkCredentials_of_ascii (h : m.ComparesAscii req) :
    checkCredentials m req = if m.Accepts req then .ok () else .error (.app invalidPasscode) := by
  have htoken : checkToken m req = .ok (decide (given req.inviteToken = some m.inviteToken)) := by
    rw [checkToken]
    cases hgiven : given req.inviteToken with
    | none => simp
    | some token =>
      obtain ⟨ha, hb⟩ := h.inviteToken token hgiven
      simp [compareDigest_of_ascii ha hb]
  rw [checkCredentials_eq, htoken]
  simp only [bind, Except.bind, checkPasscode, decide_eq_true_eq]
  by_cases hok : given req.inviteToken = some m.inviteToken ∨ m.passcode = ""
  · rw [if_pos hok, if_pos]
    rcases hok with hok | hok
    · exact .inl hok
    · exact .inr (.inl hok)
  · rw [if_neg hok]
    obtain ⟨hwrong, hneeds⟩ := not_or.mp hok
    cases hgiven : given req.passcode with
    | none => rw [if_neg (by simp [Meeting.Accepts, hwrong, hneeds, hgiven])]
    | some passcode =>
      obtain ⟨ha, hb⟩ := h.passcode hwrong hneeds passcode hgiven
      dsimp only
      rw [compareDigest_of_ascii ha hb]
      by_cases hright : passcode = m.passcode
      · simp [Service.require, Meeting.Accepts, hright, hgiven]
      · simp [Service.require, Meeting.Accepts, hright, hgiven, hwrong, hneeds]

/-- Any other comparison raises. -/
theorem checkCredentials_of_not_ascii (h : ¬ m.ComparesAscii req) :
    checkCredentials m req = .error .typeError := by
  rw [checkCredentials_eq]
  by_cases htoken : ∀ token, given req.inviteToken = some token →
      PyStr.isAscii token ∧ PyStr.isAscii m.inviteToken
  · -- the token compares, so the passcode does not
    have hpasscode : ¬ (given req.inviteToken ≠ some m.inviteToken → m.passcode ≠ "" →
        ∀ passcode, given req.passcode = some passcode →
          PyStr.isAscii passcode ∧ PyStr.isAscii m.passcode) :=
            fun hpasscode => h ⟨htoken, hpasscode⟩
    push Not at hpasscode
    obtain ⟨hwrong, hneeds, passcode, hgiven, hascii⟩ := hpasscode
    have hfalse : checkToken m req = .ok false := by
      rw [checkToken]
      cases htok : given req.inviteToken with
      | none => rfl
      | some token =>
        obtain ⟨ha, hb⟩ := htoken token htok
        dsimp only
        rw [compareDigest_of_ascii ha hb]
        simp only [Except.ok.injEq, decide_eq_false_iff_not]
        rintro rfl
        exact hwrong htok
    rw [hfalse]
    simp only [bind, Except.bind, checkPasscode, hgiven]
    rw [if_neg (by simp [hneeds]), compareDigest_of_not_ascii (by simpa using hascii)]
  · push Not at htoken
    obtain ⟨token, hgiven, hascii⟩ := htoken
    rw [checkToken, hgiven]
    simp only [compareDigest_of_not_ascii
        (show ¬ (PyStr.isAscii token ∧ PyStr.isAscii m.inviteToken) by
      simpa using hascii), bind, Except.bind]

end Credentials

/-! ### A join -/

/-- A user who is not the host enters a meeting that is open: only ASCII is compared,
and the empty text is not relied on as an invite token. -/
structure Comparable (db : Db) (req : JoinRequest) (m : Meeting) : Prop where
  ascii : m.ComparesAscii req
  emptyToken : req.inviteToken = some "" → m.inviteToken = "" →
    activeCount db m.id < maxMeshParticipants →
    m.passcode = "" ∨ req.passcode = some m.passcode

section Join

variable {db db' : Db} {meetingNumber : String} {user : User}
  {req : JoinRequest} {draws : JoinDraws}
  {now : DateTime} {m : Meeting}

/-- Where the empty token is not relied on, the check accepts those that the meeting
admits. -/
theorem Comparable.accepts_iff (h : Comparable db req m) (hhost : m.hostId ≠ user.id)
    (hspace : activeCount db m.id < maxMeshParticipants) : m.Accepts req ↔ m.Admits user req := by
  simp only [Meeting.Accepts, Meeting.Admits, hhost, false_or, given_eq_some]
  constructor
  · rintro (⟨htoken, -⟩ | hnone | ⟨hpasscode, -⟩)
    · exact .inl htoken
    · exact .inr (.inl hnone)
    · exact .inr (.inr hpasscode)
  · rintro (htoken | hnone | hpasscode)
    · by_cases hempty : m.inviteToken = ""
      · rcases h.emptyToken (hempty ▸ htoken) hempty hspace with hnone | hpasscode
        · exact .inr (.inl hnone)
        · by_cases hneeds : m.passcode = ""
          · exact .inr (.inl hneeds)
          · exact .inr (.inr ⟨hpasscode, hneeds⟩)
      · exact .inl ⟨htoken, hempty⟩
    · exact .inr (.inl hnone)
    · by_cases hneeds : m.passcode = ""
      · exact .inr (.inl hneeds)
      · exact .inr (.inr ⟨hpasscode, hneeds⟩)

theorem number_of_meetingByNumber (h : db.meetingByNumber meetingNumber = some m) :
    m.meetingNumber = normalizeMeetingNumber meetingNumber := by
  simpa using List.find?_some h

/-- The checks of a join into a meeting that is open. -/
theorem checkJoin_of_open (hm : getByNumber db meetingNumber = .ok m)
    (hopen : m.status ≠ .ended ∧ m.status ≠ .cancelled) : checkJoin db meetingNumber user req =
      checkEntry m user req >>= fun _ =>
        if activeCount db m.id < maxMeshParticipants then .ok m else .error (.app meetingFull) := by
  rw [checkJoin, hm]
  simp only [bind, Except.bind, Service.require, if_pos hopen]
  cases checkEntry m user req with
  | error e => rfl
  | ok u =>
    by_cases hspace : activeCount db m.id < maxMeshParticipants
    · simp only [if_pos hspace]
      rfl
    · simp only [if_neg hspace]

theorem open_iff : (m.status ≠ .ended ∧ m.status ≠ .cancelled) ↔
    m.status = .scheduled ∨ m.status = .live := by
  cases m.status <;> simp

/-- A join that commits does what a join does. -/
theorem joinedBy_of_commitJoin {r : JoinResponse} (hopen : m.status = .scheduled ∨ m.status = .live)
    (h : commitJoin db m user req draws now = .ok (r, db')) : JoinedBy db db' user now m := by
  obtain ⟨hid, hrows, hmeetings, -⟩ := commitJoin_ok h
  obtain ⟨db₁, hins, h⟩ := Service.bind_eq_ok.mp h
  obtain ⟨-, hdb⟩ := Prod.mk.inj (Service.pure_eq_ok.mp h)
  obtain ⟨hid₁, hdb₁, -⟩ := Db.insertParticipant_ok hins
  rw [hdb] at hdb₁
  have hlive : m.status ≠ .live ↔ m.status = .scheduled := by
    rcases hopen with hs | hs <;> simp [hs]
  have hwelcome : db.welcomeHost m user now = if m.hostId = user.id ∧ m.status = .scheduled then
      db.updateMeetingRow m.id (·.goLive now) (Meeting.goLive_id · now) else db := by
    simp only [Db.welcomeHost, hlive]
  have hrole : (joinRow db m user req draws now).role = .host ↔ m.hostId = user.id := by
    by_cases hhost : m.hostId = user.id <;> simp [joinRow, hhost]
  constructor
  · exact ⟨_, hid, hrows, rfl, rfl, rfl, hrole⟩
  · rw [hmeetings, hwelcome]
    split <;> rfl
  all_goals
    rw [hdb₁]
    dsimp only
    rw [hwelcome]
    split <;> rfl

/-- Who passes the entry check of a meeting that compares well. -/
theorem checkEntry_of_comparable (hspace : activeCount db m.id < maxMeshParticipants)
    (h : m.hostId ≠ user.id → Comparable db req m) :
    checkEntry m user req = .ok () ↔ m.Admits user req := by
  rw [checkEntry]
  by_cases hhost : m.hostId = user.id
  · simp [hhost, Meeting.Admits]
  · rw [if_neg hhost, checkCredentials_of_ascii (h hhost).ascii,
      ← (h hhost).accepts_iff hhost hspace]
    by_cases haccepts : m.Accepts req <;> simp [haccepts]

/-- The entry check refuses with `InvalidPasscode`, where it compares ASCII. -/
theorem checkEntry_refuses {e : Raised} (h : m.hostId ≠ user.id → m.ComparesAscii req)
    (he : checkEntry m user req = .error e) : e = .app invalidPasscode := by
  rw [checkEntry] at he
  by_cases hhost : m.hostId = user.id
  · simp [hhost] at he
  · rw [if_neg hhost, checkCredentials_of_ascii (h hhost)] at he
    by_cases haccepts : m.Accepts req
    · simp [haccepts] at he
    · simpa [haccepts] using he.symm

/-- The open meeting of that number, if it is not the user's own, compares well. -/
def AllComparable (db : Db) (meetingNumber : String) (user : User) (req : JoinRequest) : Prop :=
  ∀ m ∈ db.meetings, m.meetingNumber = normalizeMeetingNumber meetingNumber →
    (m.status = .scheduled ∨ m.status = .live) → m.hostId ≠ user.id → Comparable db req m

/-- A failed join commits nothing. -/
theorem apply_of_joinMeeting_error {e : Raised} (huser : db.getUser user.id = some user)
    (h : joinMeeting db meetingNumber user req draws now = .error e) :
    db.apply (.request (.joinMeeting user.id meetingNumber req draws now)) = db := by
  have hcurrent : currentUser db user.id = .ok user := Service.getOrRaise_eq_ok.mpr huser
  have hraises : runOperation db (.request (.joinMeeting user.id meetingNumber req draws now)) =
      .error e := by
    rw [runOperation, runRequest, hcurrent]
    exact congrArg Service.commit h
  rw [Db.apply, hraises]

/-- A join is refused where its meeting is missing, over, full or not for the user. -/
theorem refused_of_error {e : Raised} (hall : AllComparable db meetingNumber user req)
    (hid : draws.id ∉ db.participants.keys)
    (hsession : ∀ q ∈ db.participants, q.sessionId ≠ draws.sessionId)
    (h : joinMeeting db meetingNumber user req draws now = .error e) :
    ∃ refusal, e = .app refusal ∧ JoinRefusal refusal := by
  rcases Service.bind_eq_error.mp h with hcheck | ⟨m, -, hcommit⟩
  · rcases Service.bind_eq_error.mp hcheck with hm | ⟨m, hm, hcheck⟩
    · obtain ⟨-, rfl⟩ := Service.getOrRaise_eq_error.mp hm
      exact ⟨_, rfl, .notFound _⟩
    have hfind := getByNumber_eq_ok.mp hm
    rcases Service.bind_eq_error.mp hcheck with hstatus | ⟨_, hopen, hcheck⟩
    · obtain ⟨-, rfl⟩ := Service.require_eq_error.mp hstatus
      exact ⟨_, rfl, .notJoinable _⟩
    rcases Service.bind_eq_error.mp hcheck with hentry | ⟨_, -, hcheck⟩
    · have hascii (hhost : m.hostId ≠ user.id) : m.ComparesAscii req :=
        (hall m (mem_of_meetingByNumber hfind) (number_of_meetingByNumber hfind)
          (open_iff.mp (Service.require_eq_ok.mp hopen)) hhost).ascii
      exact ⟨_, checkEntry_refuses hascii hentry, .invalidPasscode⟩
    rcases Service.bind_eq_error.mp hcheck with hspace | ⟨_, -, hcheck⟩
    · obtain ⟨-, rfl⟩ := Service.require_eq_error.mp hspace
      exact ⟨_, rfl, .full⟩
    · cases hcheck
  · -- the commit cannot fail
    obtain ⟨r, db', hok⟩ := commitJoin_of_fresh hid hsession m user req now
    rw [hok] at hcommit
    cases hcommit

/-- **Who may join.**  A join succeeds exactly if it is admissible, adds its one row, and
otherwise is refused without a trace — exactly if it compares nothing but ASCII. -/
theorem joinsRight_iff (hunique : db.UniqueNumbers) (huser : db.getUser user.id = some user)
    (hid : draws.id ∉ db.participants.keys)
    (hsession : ∀ q ∈ db.participants, q.sessionId ≠ draws.sessionId) :
    JoinsRight db meetingNumber user req draws now ↔ AllComparable db meetingNumber user req := by
  constructor
  · intro hright m hm hnumber hopen hhost
    have hget : getByNumber db meetingNumber = .ok m :=
      getByNumber_of_spelling hunique hm hnumber.symm
    have hcheck : checkJoin db meetingNumber user req = checkEntry m user req >>= fun _ =>
        if activeCount db m.id < maxMeshParticipants then .ok m else .error (.app meetingFull) :=
      checkJoin_of_open hget (open_iff.mpr hopen)
    have hascii : m.ComparesAscii req := by
      by_contra hascii
      have hraises : joinMeeting db meetingNumber user req draws now = .error .typeError := by
        rw [joinMeeting, hcheck, checkEntry, if_neg hhost, checkCredentials_of_not_ascii hascii]
        rfl
      obtain ⟨⟨refusal, hrefusal, -⟩, -⟩ := hright.refused _ hraises
      cases hrefusal
    refine ⟨hascii, fun htoken hempty hspace => ?_⟩
    -- the empty token admits, so the join succeeds, so something else was accepted
    have hadmissible : Admissible db meetingNumber user req m :=
      ⟨hm, hnumber, hopen, .inr (.inl (htoken.trans (by rw [hempty]))), hspace⟩
    obtain ⟨r, db', hok⟩ := hright.succeeds.mpr ⟨m, hadmissible⟩
    obtain ⟨m', hok, -⟩ := joinMeeting_ok hok
    obtain ⟨hfind, -, hentry, -⟩ := checkJoin_eq_ok.mp hok
    obtain rfl : m = m' := Except.ok.inj (hget.symm.trans (getByNumber_eq_ok.mpr hfind))
    rw [checkEntry, if_neg hhost, checkCredentials_of_ascii hascii] at hentry
    have haccepts : m.Accepts req := by
      by_contra hno
      rw [if_neg hno] at hentry
      cases hentry
    rcases haccepts with hgiven | hnone | hgiven
    · exact absurd hempty (given_eq_some.mp hgiven).2
    · exact .inl hnone
    · exact .inr (given_eq_some.mp hgiven).1
  · intro hall
    have hjoined (r : JoinResponse) (db' : Db)
        (h : joinMeeting db meetingNumber user req draws now = .ok (r, db')) :
        ∃ m, Admissible db meetingNumber user req m ∧ JoinedBy db db' user now m := by
      obtain ⟨m, hcheck, hcommit⟩ := joinMeeting_ok h
      obtain ⟨hfind, hopen, hentry, hspace⟩ := checkJoin_eq_ok.mp hcheck
      have hm := mem_of_meetingByNumber hfind
      have hnumber := number_of_meetingByNumber hfind
      have hadmits :=
        (checkEntry_of_comparable hspace (hall m hm hnumber (open_iff.mp hopen))).mp hentry
      exact ⟨m, ⟨hm, hnumber, open_iff.mp hopen, hadmits, hspace⟩,
        joinedBy_of_commitJoin (open_iff.mp hopen) hcommit⟩
    refine ⟨⟨?_, ?_⟩, hjoined, fun e he =>
      ⟨refused_of_error hall hid hsession he, apply_of_joinMeeting_error huser he⟩⟩
    · rintro ⟨r, db', h⟩
      obtain ⟨m, hadmissible, -⟩ := hjoined r db' h
      exact ⟨m, hadmissible⟩
    · rintro ⟨m, hadmissible⟩
      have hget := getByNumber_of_spelling hunique hadmissible.mem hadmissible.meetingNumber.symm
      have hentry : checkEntry m user req = .ok () :=
        (checkEntry_of_comparable hadmissible.space
          (hall m hadmissible.mem hadmissible.meetingNumber hadmissible.status)).mpr
            hadmissible.admits
      have hcheck : checkJoin db meetingNumber user req = .ok m :=
        checkJoin_eq_ok.mpr ⟨getByNumber_eq_ok.mp hget, open_iff.mpr hadmissible.status, hentry,
          hadmissible.space⟩
      obtain ⟨r, db', hcommit⟩ := commitJoin_of_fresh hid hsession m user req now
      exact ⟨r, db', Service.bind_eq_ok.mpr ⟨m, hcheck, hcommit⟩⟩

end Join

/-- A meeting that a visitor has the passcode of. -/
def guardedRoom : Db :=
  { quietRoom with users := Keyed.empty.insert visitor List.not_mem_nil }

def visitorDraws : JoinDraws := ⟨"p1", "s1"⟩

/-- The visitor joins with the passcode alone. -/
theorem visitor_joins : JoinsRight guardedRoom "895 9025 0750" visitor { passcode := some "hRtz4K" }
    visitorDraws 10 := by
  refine (joinsRight_iff (by decide) (by decide) (by decide) (by decide)).mpr ?_
  intro m hm _ _ _
  obtain rfl := List.mem_singleton.mp hm
  refine ⟨⟨?_, ?_⟩, ?_⟩
  · rintro token ⟨⟩
  · intro _ _ passcode hgiven
    obtain rfl : "hRtz4K" = passcode := Option.some.inj (given_eq_some.mp hgiven).1
    decide
  · rintro ⟨⟩

/-- Beside an invite token that is not ASCII, the passcode is not even looked at. -/
theorem accented_token_raises :
    ¬ ∀ (db : Db) (meetingNumber : String) (user : User) (req : JoinRequest)
    (draws : JoinDraws) (now : DateTime), db.UniqueNumbers → db.getUser user.id = some user →
      draws.id ∉ db.participants.keys → (∀ q ∈ db.participants, q.sessionId ≠ draws.sessionId) →
        JoinsRight db meetingNumber user req draws now := by
  intro h
  have hright := h guardedRoom "895 9025 0750" visitor
    { passcode := some "hRtz4K", inviteToken := some "é" } visitorDraws 10
    (by decide) (by decide) (by decide) (by decide)
  have hraises : joinMeeting guardedRoom "895 9025 0750" visitor
      { passcode := some "hRtz4K",
        inviteToken := some "é" } visitorDraws 10 = .error .typeError := by
    rfl
  obtain ⟨⟨refusal, hrefusal, -⟩, -⟩ := hright.refused _ hraises
  cases hrefusal

end ZoomClone
