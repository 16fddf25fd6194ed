/-
Invite links (`invitation.ts`, `RoomTopBar.tsx`, the pages `/j` and `/wc`) and the secrets in them
(`security.py`).

A link names a meeting by its number and carries the invite token.  The token and the passcode are
drawn when the meeting is created; the index of the table keeps the tokens apart.

* `secured_run` — every stored meeting has a passcode and a token of its own;
* `followLink_invite`, `followLink_room` — both kinds of links are read back by the page they lead
  to;
* `link_opens_iff` — a link opens a meeting exactly if its number and its token belong together;
* `socketAddress_read` — the address of a room's socket is read back by the server.
-/
import ZoomClone.JoinAdmission
import ZoomClone.JoinFlow
import ZoomClone.MeetingIds
import ZoomClone.MeetingNumbers
import ZoomClone.Percent
import ZoomClone.TwoEndings

namespace ZoomClone

/-! ### Secrets -/

/-- The alphabet of URL-safe base64. -/
def base64Alphabet : List Char :=
  "ABCDEFGHIJKLMNOPQRSTUVWXYZabcdefghijklmnopqrstuvwxyz0123456789-_".toList

def base64Char (n : ℕ) : Char := base64Alphabet.getD n 'A'

/-- `urlsafe_b64encode(…).rstrip(b"=")`: three bytes are four characters. -/
def urlsafeBase64 : List UInt8 → List Char
  | [] => []
  | [a] => [base64Char (a.toNat / 4), base64Char (a.toNat % 4 * 16)]
  | [a, b] => [base64Char (a.toNat / 4), base64Char (a.toNat % 4 * 16 + b.toNat / 16),
    base64Char (b.toNat % 16 * 4)]
  | a :: b :: c :: rest =>
    base64Char (a.toNat / 4) :: base64Char (a.toNat % 4 * 16 + b.toNat / 16) ::
      base64Char (b.toNat % 16 * 4 + c.toNat / 64) :: base64Char (c.toNat % 64) ::
        urlsafeBase64 rest

def inviteTokenBytes : ℕ := 24

/-- `secrets.token_urlsafe(24)`, of the bytes that are drawn. -/
def generateInviteToken (draw : Fin inviteTokenBytes → UInt8) : String :=
  String.ofList (urlsafeBase64 (List.ofFn draw))

/-- Mixed case and digits, without 0, O, 1, l and I. -/
def passcodeAlphabet : List Char :=
  "abcdefghijkmnopqrstuvwxyzABCDEFGHJKLMNPQRSTUVWXYZ23456789".toList

def passcodeLength : ℕ := 6

/-- The passcode of the choices that are drawn. -/
def generatePasscode (draw : Fin passcodeLength → Fin passcodeAlphabet.length) : String :=
  String.ofList ((List.ofFn draw).map passcodeAlphabet.get)

theorem base64Char_mem (n : ℕ) : base64Char n ∈ base64Alphabet := by
  rw [base64Char, List.getD_eq_getElem?_getD]
  cases h : base64Alphabet[n]? with
  | none => decide
  | some c => exact List.mem_of_getElem? h

theorem urlsafeBase64_mem (bytes : List UInt8) : ∀ c ∈ urlsafeBase64 bytes, c ∈ base64Alphabet := by
  induction bytes using urlsafeBase64.induct with
  | case1 => simp [urlsafeBase64]
  | case2 a => simp [urlsafeBase64, base64Char_mem]
  | case3 a b => simp [urlsafeBase64, base64Char_mem]
  | case4 a b c rest ih => simpa [urlsafeBase64, base64Char_mem] using ih

theorem generateInviteToken_mem (draw : Fin inviteTokenBytes → UInt8) :
    ∀ c ∈ (generateInviteToken draw).toList, c ∈ base64Alphabet := by
  rw [generateInviteToken, String.toList_ofList]
  exact urlsafeBase64_mem _

theorem urlsafeBase64_eq_nil {bytes : List UInt8} : urlsafeBase64 bytes = [] ↔ bytes = [] := by
  cases bytes using urlsafeBase64.fun_cases <;> simp [urlsafeBase64]

/-- A token is not empty. -/
theorem generateInviteToken_ne (draw : Fin inviteTokenBytes → UInt8) :
    generateInviteToken draw ≠ "" := by
  rw [generateInviteToken, ne_eq, String.ofList_eq_empty_iff,
    urlsafeBase64_eq_nil, List.ofFn_eq_nil_iff]
  decide

theorem generatePasscode_ne (draw : Fin passcodeLength → Fin passcodeAlphabet.length) :
    generatePasscode draw ≠ "" := by
  rw [generatePasscode, ne_eq, String.ofList_eq_empty_iff,
    List.map_eq_nil_iff, List.ofFn_eq_nil_iff]
  decide

/-- The secrets of a create are drawn as the service draws them. -/
def Operation.DrawsSecrets (op : Operation) : Prop :=
  ∀ userId req draws now, op = .request (.createMeeting userId req draws now) →
    (∃ draw, draws.passcode = generatePasscode draw) ∧
      ∃ draw, draws.inviteToken = generateInviteToken draw

/-- The secrets of a stored meeting are its own. -/
structure Db.Secured (db : Db) : Prop where
  passcode : ∀ m ∈ db.meetings, ∃ draw, m.passcode = generatePasscode draw
  inviteToken : ∀ m ∈ db.meetings, ∃ draw, m.inviteToken = generateInviteToken draw
  distinct : ∀ m ∈ db.meetings, ∀ n ∈ db.meetings, m.inviteToken = n.inviteToken → m = n

theorem secured_empty : Db.empty.Secured where
  passcode m hm := absurd hm (Keyed.not_mem_empty m)
  inviteToken m hm := absurd hm (Keyed.not_mem_empty m)
  distinct m hm := absurd hm (Keyed.not_mem_empty m)

theorem Meeting.Moves.secrets {db : Db} {op : Operation} {m m' : Meeting} (h : m.Moves db op m') :
    m'.passcode = m.passcode ∧ m'.inviteToken = m.inviteToken := by
  cases h <;> exact ⟨rfl, rfl⟩

/-- Only a create writes secrets. -/
theorem secured_of_not_create {db : Db} {op : Operation} (h : db.Secured) (hop : ¬ op.IsCreate) :
    (db.apply op).Secured := by
  -- no other operation adds a row, so each row goes back to one of before
  have hold (m' : Meeting) (hm' : m' ∈ (db.apply op).meetings) : ∃ m ∈ db.meetings, m'.id = m.id ∧
      m'.passcode = m.passcode ∧ m'.inviteToken = m.inviteToken := by
    cases hrun : runOperation db op with
    | error e =>
      rw [Db.apply, hrun] at hm'
      exact ⟨m', hm', rfl, rfl, rfl⟩
    | ok db' =>
      have hsame := runOperation_numbers hrun hop
      rw [← apply_of_ok hrun] at hsame
      obtain ⟨m, hm, hid, -⟩ := hsame m' hm'
      exact ⟨m, hm, hid, (moves_apply hm hm' hid).secrets⟩
  refine ⟨fun m' hm' => ?_, fun m' hm' => ?_, fun m' hm' n' hn' heq => ?_⟩
  · obtain ⟨m, hm, -, hpasscode, -⟩ := hold m' hm'
    rw [hpasscode]
    exact h.passcode m hm
  · obtain ⟨m, hm, -, -, htoken⟩ := hold m' hm'
    rw [htoken]
    exact h.inviteToken m hm
  · obtain ⟨m, hm, hid, -, htoken⟩ := hold m' hm'
    obtain ⟨n, hn, hid', -, htoken'⟩ := hold n' hn'
    obtain rfl := h.distinct m hm n hn (htoken.symm.trans (heq.trans htoken'))
    exact Keyed.eq_of_key_eq hm' hn' (hid.trans hid'.symm)

/-- A create writes the secrets that were drawn, and the index keeps the token apart. -/
theorem secured_createMeeting {db db' : Db} {host : User} {req : MeetingCreate}
    {draws : CreateDraws} {now : DateTime}
    {v : MeetingView} (h : db.Secured) (hpasscode : ∃ draw, draws.passcode = generatePasscode draw)
    (htoken : ∃ draw, draws.inviteToken = generateInviteToken draw)
    (hcreate : createMeeting db host req draws now = .ok (v, db')) : db'.Secured := by
  simp only [createMeeting, Service.bind_eq_ok, Service.pure_eq_ok] at hcreate
  obtain ⟨topic, -, start, -, ⟨duration, clamped⟩, -, _, -, ⟨row, db₁⟩, hrow, db₂, hinv, h'⟩ :=
    hcreate
  obtain ⟨-, rfl⟩ := Prod.mk.inj h'
  obtain ⟨⟨k, number, -, rfl⟩, hins⟩ := insertNewMeeting_ok hrow
  obtain ⟨hid, rfl, hapart⟩ := Db.insertMeeting_ok hins
  have hmem {m : Meeting} (hm : m ∈ db₂.meetings) : m ∈ db.meetings ∨
      m = newMeeting host req draws now topic start duration k number := by
    rw [(insertInvitees_ok hinv).meetings] at hm
    exact (Keyed.mem_insert (h := hid)).mp hm
  refine ⟨fun m hm => ?_, fun m hm => ?_, fun m hm n hn heq => ?_⟩
  · rcases hmem hm with hm | rfl
    · exact h.passcode m hm
    · exact hpasscode
  · rcases hmem hm with hm | rfl
    · exact h.inviteToken m hm
    · exact htoken
  · rcases hmem hm with hm | rfl
    · rcases hmem hn with hn | rfl
      · exact h.distinct m hm n hn heq
      · exact absurd heq (hapart m hm).2
    · rcases hmem hn with hn | rfl
      · exact absurd heq.symm (hapart n hn).2
      · rfl

theorem secured_apply {db : Db} {op : Operation} (h : db.Secured) (hdraws : op.DrawsSecrets) :
    (db.apply op).Secured := by
  by_cases hop : op.IsCreate
  · cases op with
    | request r =>
      cases r with
      | createMeeting userId req draws now =>
        obtain ⟨hpasscode, htoken⟩ := hdraws userId req draws now rfl
        cases hrun : runOperation db (.request (.createMeeting userId req draws now)) with
        | error e =>
          rw [Db.apply, hrun]
          exact h
        | ok db' =>
          rw [apply_of_ok hrun]
          cases runOperation_commits hrun with
          | createMeeting hhost hcreate => exact secured_createMeeting h hpasscode htoken hcreate
      | _ => cases hop
    | _ => cases hop
  · exact secured_of_not_create h hop

/-- **Every stored meeting has secrets of its own.** -/
theorem secured_run {ops : List Operation} (hdraws : ∀ op ∈ ops, op.DrawsSecrets) :
    (Runs.run Db.apply .empty ops).Secured :=
  (Runs.always_of_mem secured_empty fun _ op hop h => secured_apply h (hdraws op hop)).last

/-! ### Numbers -/

theorem isDigit_of_mem_generateMeetingNumber {draw : ℕ × ℕ} {c : Char}
    (h : c ∈ (generateMeetingNumber draw).toList) :
    c.isDigit := by
  rw [generateMeetingNumber, String.toList_append, List.mem_append] at h
  rcases h with h | h
  · rw [Nat.toString_eq_repr, Nat.toList_repr] at h
    exact Nat.isDigit_of_mem_toDigits (by decide) (by decide) h
  · exact Decimals.isDigit_of_mem_zeroPadded h

theorem digits_of_isDigit {s : String} (h : ∀ c ∈ s.toList, c.isDigit) : JsStr.digits s = s := by
  rw [JsStr.digits, List.filter_eq_self.mpr, String.ofList_toList]
  intro c hc
  rw [inRanges_ascii]
  exact h c hc

/-- Numbers of meetings and people are drawn. -/
structure Db.NumbersDrawn (db : Db) : Prop where
  meetings : ∀ m ∈ db.meetings, ∃ draw, m.meetingNumber = generateMeetingNumber draw
  users : ∀ u ∈ db.users, ∃ draw, u.personalMeetingId = generateMeetingNumber draw

theorem numbersDrawn_apply {db : Db} (h : db.NumbersDrawn) (op : Operation) :
    (db.apply op).NumbersDrawn := by
  obtain ⟨f, added, hmove⟩ := apply_meetings db op
  obtain ⟨husers, -⟩ := apply_people db op
  refine ⟨fun m' hm' => ?_, fun v hv => ?_⟩
  · rcases hmove.cases hm' with ⟨m, hm, hmoves⟩ | hcreates
    · rw [hmoves.meetingNumber]
      exact h.meetings m hm
    · obtain ⟨host, hhost, -, hnumber | hdrawn⟩ := hcreates.host
      · rw [hnumber]
        exact h.users host (Keyed.mem_of_find? hhost)
      · exact hdrawn
  · rcases husers.known v hv with ⟨u, hu, he⟩ | hdrawn
    · rw [he.personalMeetingId]
      exact h.users u hu
    · exact hdrawn

theorem numbersDrawn_empty : Db.empty.NumbersDrawn where
  meetings m hm := absurd hm (Keyed.not_mem_empty m)
  users u hu := absurd hu (Keyed.not_mem_empty u)

theorem numbersDrawn_run (ops : List Operation) : (Runs.run Db.apply .empty ops).NumbersDrawn :=
  (Runs.always_of_step numbersDrawn_empty (fun _ op h => numbersDrawn_apply h op) ops).last

/-! ### Links -/

/-- The link of the meetings page. -/
def buildInviteLink (meeting : Meeting) (origin : String) : String :=
  origin ++ "/j/" ++ meeting.meetingNumber ++ "?pwd=" ++ meeting.inviteToken

/-- What `URLSearchParams` writes as it is. -/
def isFormKept (c : Char) : Bool := c.isAlphanum || c = '*' || c = '-' || c = '.' || c = '_'

/-- The link that the bar of a room copies. -/
def roomInviteLink (meetingNumber : String) (inviteToken : Option String) (origin : String) :
    String :=
  let url := origin ++ "/wc/" ++ meetingNumber
  match given inviteToken with
  | none => url
  | some token => url ++ "?" ++
    String.ofList (Percent.serialize isFormKept [("pwd".toList, token.toList)])

/-- The segments of the path and the query of an address, without what stands behind `#`. -/
structure Address where
  path : List (List Char)
  query : List (List Char × List Char)

/-- `none` for another site. -/
def Address.read (origin url : String) : Option Address := do
  let rest ← url.toList.dropPrefix? origin.toList
  let rest := rest.takeWhile (· ≠ '#')
  let query ← Percent.parseQuery ((rest.dropWhile (· ≠ '?')).drop 1)
  return ⟨(rest.takeWhile (· ≠ '?')).splitOn '/', query⟩

def Address.param (address : Address) (name : String) : Option String :=
  (Percent.get address.query name.toList).map String.ofList

/-- The page that a link leads to. -/
def Tab.followLink (tab : Tab) (db : Db) (origin url : String) : Option Tab := do
  let address ← Address.read origin url
  match address.path with
  | [[], ['j'], meetingId] =>
    some { tab with
      page := .invite (openInvite db (String.ofList meetingId) (address.param "pwd")) }
  | [[], ['w', 'c'], meetingNumber] =>
    some (tab.visitRoom (String.ofList meetingNumber) (address.param "pwd"))
  | _ => none

/-- A character that means nothing in an address. -/
def IsPlain (c : Char) : Prop := c ≠ '/' ∧ c ≠ '?' ∧ c ≠ '#' ∧ isFormKept c

theorem isPlain_of_base64 : ∀ c ∈ base64Alphabet, IsPlain c := by
  have hall : base64Alphabet.all fun c => c ≠ '/' ∧ c ≠ '?' ∧ c ≠ '#' ∧ isFormKept c := by decide
  intro c hc
  have hplain := of_decide_eq_true (List.all_eq_true.mp hall c hc)
  exact hplain

/-- The pages that a link names are spelled in the alphabet of its token. -/
theorem isBase64_page : "j".toList ⊆ base64Alphabet ∧ "wc".toList ⊆ base64Alphabet := by decide

theorem isPlain_of_digit {c : Char} (h : c.isDigit) : IsPlain c := by
  have hkept : isFormKept c := by simp [isFormKept, Char.isAlphanum, h]
  refine ⟨?_, ?_, ?_, hkept⟩ <;> rintro rfl <;> exact absurd h (by decide)

theorem reserves_isFormKept : Percent.Reserves isFormKept where
  percent := by decide
  plus := by decide
  ampersand := by decide
  equals := by decide

/-- A plain value is written as it is. -/
theorem serialize_pwd {token : List Char} (h : ∀ c ∈ token, IsPlain c) :
    Percent.serialize isFormKept [("pwd".toList, token)] = "pwd=".toList ++ token := by
  have htoken : Percent.encodeForm isFormKept token = token :=
    Percent.encodeForm_eq_self (fun c hc => (h c hc).2.2.2) (by decide)
  have hname : Percent.encodeForm isFormKept "pwd".toList = "pwd".toList := by decide
  rw [Percent.serialize, List.map_singleton, List.intercalate_singleton,
    Percent.writePair, htoken, hname]
  rfl

/-- An address is read part by part. -/
theorem Address.read_parts {origin url : String} {path query : List Char}
    (hurl : url.toList = origin.toList ++ (path ++ '?' :: query))
    (hpath : ∀ c ∈ path, c ≠ '?' ∧ c ≠ '#')
    (hquery : ∀ c ∈ query, c ≠ '#') :
    Address.read origin url = (Percent.parseQuery query).map (Address.mk (path.splitOn '/')) := by
  have hdrop : url.toList.dropPrefix? origin.toList = some (path ++ '?' :: query) :=
    List.dropPrefix?_eq_some_iff.mpr ⟨origin.toList, hurl, beq_self_eq_true _⟩
  -- there is no fragment to take off
  have hwhole : (path ++ '?' :: query).takeWhile (· ≠ '#') = path ++ '?' :: query := by
    refine List.takeWhile_eq_self_iff.mpr fun c hc => decide_eq_true ?_
    rcases List.mem_append.mp hc with hc | hc
    · exact (hpath c hc).2
    · rcases List.mem_cons.mp hc with rfl | hc
      · decide
      · exact hquery c hc
  obtain ⟨hbefore, hbehind⟩ := Percent.cut_at query fun hmark => (hpath '?' hmark).1 rfl
  rw [Address.read, hdrop]
  simp only [bind, Option.bind_some, hwhole]
  rw [hbefore, hbehind]
  cases Percent.parseQuery query <;> rfl

/-- An address of two plain segments and a plain token is read back. -/
theorem read_link {origin page number token : String} (hpage : ∀ c ∈ page.toList, IsPlain c)
    (hnumber : ∀ c ∈ number.toList, IsPlain c) (htoken : ∀ c ∈ token.toList, IsPlain c) :
    Address.read origin (origin ++ "/" ++ page ++ "/" ++ number ++ "?pwd=" ++ token) =
      some ⟨[[], page.toList, number.toList], [("pwd".toList, token.toList)]⟩ := by
  have hpath : '/' :: (page.toList ++ '/' :: number.toList) =
      ['/'].intercalate [[], page.toList, number.toList] := by
    simp [List.intercalate]
  have hsegments : ('/' :: (page.toList ++ '/' :: number.toList)).splitOn '/' =
      [[], page.toList, number.toList] := by
    rw [hpath]
    refine List.splitOn_intercalate '/' (fun segment hsegment hslash => ?_) (by simp)
    rcases List.mem_cons.mp hsegment with rfl | hsegment
    · cases hslash
    · rcases List.mem_pair.mp hsegment with rfl | rfl
      · exact (hpage _ hslash).1 rfl
      · exact (hnumber _ hslash).1 rfl
  have hurl : (origin ++ "/" ++ page ++ "/" ++ number ++ "?pwd=" ++ token).toList =
      origin.toList ++ ('/' :: (page.toList ++ '/' :: number.toList) ++
          '?' :: ("pwd=".toList ++ token.toList)) := by
    simp [String.toList_append]
  rw [Address.read_parts hurl, ← serialize_pwd htoken,
    Percent.parseQuery_serialize reserves_isFormKept, hsegments]
  · rfl
  · intro c hc
    rcases List.mem_cons.mp hc with rfl | hc
    · decide
    · rcases List.mem_append.mp hc with hc | hc
      · exact ⟨(hpage c hc).2.1, (hpage c hc).2.2.1⟩
      · rcases List.mem_cons.mp hc with rfl | hc
        · decide
        · exact ⟨(hnumber c hc).2.1, (hnumber c hc).2.2.1⟩
  · intro c hc
    rcases List.mem_append.mp hc with hc | hc
    · rintro rfl
      exact absurd hc (by decide)
    · exact (htoken c hc).2.2.1

section Follow

variable {tab : Tab} {db : Db} {origin number token : String} {m : Meeting}

/-- **The link of the meetings page** leads to the card of an invitation. -/
theorem followLink_invite (hnumber : ∀ c ∈ m.meetingNumber.toList, IsPlain c)
    (htoken : ∀ c ∈ m.inviteToken.toList, IsPlain c) :
    tab.followLink db origin (buildInviteLink m origin) =
      some { tab with page := .invite (openInvite db m.meetingNumber (some m.inviteToken)) } := by
  have hpage : ∀ c ∈ "j".toList, IsPlain c := fun c hc => isPlain_of_base64 c (isBase64_page.1 hc)
  have hurl : buildInviteLink m origin = origin ++ "/" ++ "j" ++ "/" ++ m.meetingNumber ++
      "?pwd=" ++ m.inviteToken := by
    rw [← String.toList_inj]
    simp [buildInviteLink, String.toList_append]
  rw [Tab.followLink, hurl, read_link hpage hnumber htoken]
  simp [Address.param, Percent.get]

/-- **The link that a room copies** leads to that room. -/
theorem followLink_room (hnumber : ∀ c ∈ number.toList, IsPlain c)
    (htoken : ∀ c ∈ token.toList, IsPlain c)
    (hne : token ≠ "") : tab.followLink db origin (roomInviteLink number (some token) origin) =
      some (tab.visitRoom number (some token)) := by
  have hpage : ∀ c ∈ "wc".toList, IsPlain c := fun c hc => isPlain_of_base64 c (isBase64_page.2 hc)
  have hgiven : given (some token) = some token := given_eq_some.mpr ⟨rfl, hne⟩
  have hurl : roomInviteLink number (some token) origin =
      origin ++ "/" ++ "wc" ++ "/" ++ number ++ "?pwd=" ++ token := by
    rw [← String.toList_inj]
    simpa [roomInviteLink, hgiven, String.toList_append] using serialize_pwd htoken
  rw [Tab.followLink, hurl, read_link hpage hnumber htoken]
  simp [Address.param, Percent.get]

end Follow

/-! ### Entering -/

/-- A signed-in visitor stands before an open meeting of somebody else that has room. -/
structure AtDoor (db : Db) (m : Meeting) (user : User) (trip : Trip) : Prop where
  stored : db.getUser user.id = some user
  visitor : m.hostId ≠ user.id
  isOpen : m.status = .scheduled ∨ m.status = .live
  space : activeCount db m.id < maxMeshParticipants
  arrives : trip.outage = none
  id : trip.draws.id ∉ db.participants.keys
  sessionId : ∀ q ∈ db.participants, q.sessionId ≠ trip.draws.sessionId

section Enter

variable {db db' : Db} {m n : Meeting} {user : User} {trip : Trip} {req : JoinRequest}

theorem not_joinedBy_self {now : DateTime} : ¬ JoinedBy db db user now m := by
  intro h
  obtain ⟨row, hid, hrows, -⟩ := h.row
  have hmem : row ∈ db.participants := by
    rw [hrows]
    exact (Keyed.mem_insert (h := hid)).mpr (.inr rfl)
  exact hid (Keyed.key_mem_keys hmem)

theorem isAscii_of_base64 {s : String} (h : ∀ c ∈ s.toList, c ∈ base64Alphabet) :
    PyStr.isAscii s := by
  have hall : base64Alphabet.all fun c => c.toNat < 128 := by decide
  rw [PyStr.isAscii, List.all_eq_true]
  exact fun c hc => List.all_eq_true.mp hall c (h c hc)

/-- A token is accepted by its own meeting only. -/
theorem checkEntry_token (hsecured : db.Secured) (hm : m ∈ db.meetings) (hn : n ∈ db.meetings)
    (hvisitor : m.hostId ≠ user.id) (htoken : req.inviteToken = some n.inviteToken)
    (hpasscode : req.passcode = none) :
    checkEntry m user req = if m = n then .ok () else .error (.app invalidPasscode) := by
  obtain ⟨draw, hdraw⟩ := hsecured.inviteToken n hn
  obtain ⟨draw', hdraw'⟩ := hsecured.inviteToken m hm
  obtain ⟨chosen, hchosen⟩ := hsecured.passcode m hm
  have hgiven : given req.inviteToken = some n.inviteToken := by
    rw [htoken, given_eq_some, hdraw]
    exact ⟨rfl, generateInviteToken_ne draw⟩
  have hascii : m.ComparesAscii req := by
    refine ⟨fun token h => ?_, fun _ _ passcode h => ?_⟩
    · obtain rfl := Option.some.inj (hgiven.symm.trans h)
      rw [hdraw, hdraw']
      exact ⟨isAscii_of_base64 (generateInviteToken_mem draw),
        isAscii_of_base64 (generateInviteToken_mem draw')⟩
    · rw [hpasscode] at h
      cases h
  -- every meeting has a passcode and none is given, so the token decides
  have haccepts : m.Accepts req ↔ m = n := by
    have hnone : given (none : Option String) ≠ some m.passcode := fun h => by cases h
    have hneeds : m.passcode ≠ "" := hchosen ▸ generatePasscode_ne chosen
    rw [Meeting.Accepts, hgiven, hpasscode, Option.some.injEq,
      or_iff_left hnone, or_iff_left hneeds]
    exact ⟨fun h => (hsecured.distinct n hn m hm h).symm, fun h => by rw [h]⟩
  rw [checkEntry, if_neg hvisitor, checkCredentials_of_ascii hascii]
  exact if_congr haccepts rfl rfl

/-- **What comes of a token** shown at a meeting. -/
theorem postJoin_token (hnumbered : db.Numbered) (hsecured : db.Secured)
    (hm : m ∈ db.meetings) (hn : n ∈ db.meetings)
    (hdoor : AtDoor db m user trip) (htoken : req.inviteToken = some n.inviteToken)
    (hpasscode : req.passcode = none)
    (hname : (req.displayName.getD "").length ≤ maxDisplayNameLength) :
    (m = n ∧ ∃ r db', postJoin db user.id m.meetingNumber req trip = .ok (r, db') ∧
      JoinedBy db db' user trip.now m) ∨
      m ≠ n ∧ postJoin db user.id m.meetingNumber req trip =
        .error ⟨"INVALID_PASSCODE", "That passcode is not correct."⟩ := by
  have hcurrent : currentUser db user.id = .ok user := Service.getOrRaise_eq_ok.mpr hdoor.stored
  have hget : getByNumber db m.meetingNumber = .ok m :=
    getByNumber_eq_ok.mpr (meetingByNumber_self hnumbered hm)
  have hentry := checkEntry_token hsecured hm hn hdoor.visitor htoken hpasscode
  have hcheck : checkJoin db m.meetingNumber user req = checkEntry m user req >>= fun _ =>
      if activeCount db m.id < maxMeshParticipants then .ok m else .error (.app meetingFull) :=
    checkJoin_of_open hget (open_iff.mpr hdoor.isOpen)
  rw [hentry, if_pos hdoor.space] at hcheck
  have hpost : postJoin db user.id m.meetingNumber req trip =
      reply (joinMeeting db m.meetingNumber user req trip.draws trip.now) := by
    rw [postJoin, hdoor.arrives]
    dsimp only
    rw [if_neg (not_lt.mpr hname), hcurrent]
    rfl
  -- the commit finds the draws unused, so it cannot fail after the check
  by_cases heq : m = n
  · left
    rw [if_pos heq] at hcheck
    obtain ⟨r, db', hcommit⟩ := commitJoin_of_fresh hdoor.id hdoor.sessionId m user req trip.now
    have hjoin : joinMeeting db m.meetingNumber user req trip.draws trip.now = .ok (r, db') :=
      Service.bind_eq_ok.mpr ⟨m, hcheck, hcommit⟩
    refine ⟨heq, r, db', ?_, joinedBy_of_commitJoin hdoor.isOpen hcommit⟩
    rw [hpost, hjoin]
    rfl
  · right
    rw [if_neg heq] at hcheck
    have hjoin : joinMeeting db m.meetingNumber user req trip.draws trip.now =
        .error (.app invalidPasscode) := by
      rw [joinMeeting, hcheck]
      rfl
    rw [hpost, hjoin]
    exact ⟨heq, rfl⟩

/-- What a page says of a failed join. -/
def Page.message : Page → Option String
  | .invite c => c.formError
  | .room r => r.fatal
  | .join f => f.error
  | .elsewhere => none

/-- The visitor gets into the meeting exactly if the token is its own, and is told otherwise. -/
structure TokenDecides (db : Db) (result : Tab × Db) (user : User) (trip : Trip) (m n : Meeting) :
    Prop where
  enters : JoinedBy db result.2 user trip.now m ↔ m = n
  refused : m ≠ n → result.2 = db ∧ result.1.page.message = some "That passcode is not correct."

theorem tokenDecides_of_entered {result : Tab × Db} (heq : m = n)
    (h : JoinedBy db result.2 user trip.now m) :
    TokenDecides db result user trip m n :=
  ⟨iff_of_true h heq, fun hne => absurd heq hne⟩

theorem tokenDecides_of_refused {result : Tab × Db} (hne : m ≠ n) (hdb : result.2 = db)
    (hmessage : result.1.page.message = some "That passcode is not correct.") :
    TokenDecides db result user trip m n := by
  refine ⟨iff_of_false ?_ hne, fun _ => ⟨hdb, hmessage⟩⟩
  rw [hdb]
  exact not_joinedBy_self

/-- A name that the card accepts. -/
def NameFits (name : String) : Prop :=
  nameMin ≤ JsStr.length (JsStr.trim name) ∧ JsStr.length (JsStr.trim name) ≤ nameMax

/-- The card that a link opens. -/
theorem openInvite_eq (hnumbered : db.Numbered) (hm : m ∈ db.meetings)
    (hdigits : JsStr.digits m.meetingNumber = m.meetingNumber)
    (hopen : m.status = .scheduled ∨ m.status = .live)
    {token : String} (hne : token ≠ "") :
    openInvite db m.meetingNumber (some token) =
      { meetingNumber := m.meetingNumber, inviteToken := some token,
        lookup := some (serializeLookup m) } := by
  have hget : getByNumber db m.meetingNumber = .ok m :=
    getByNumber_eq_ok.mpr (meetingByNumber_self hnumbered hm)
  have hstatus := open_iff.mpr hopen
  have hlookup : getLookup db m.meetingNumber = .ok (serializeLookup m) := by
    rw [getLookup, lookup, hget]
    simp only [bind, Except.bind, Service.require, if_pos hstatus.2]
    rfl
  have hgiven : given (some token) = some token := given_eq_some.mpr ⟨rfl, hne⟩
  have hshown : ¬ ((serializeLookup m).status = .ended ∨ (serializeLookup m).status = .cancelled) :=
    not_or.mpr hstatus
  rw [openInvite, hdigits, hlookup]
  dsimp only
  rw [if_neg hshown, hgiven]

/-- What a card with a token joins with. -/
def JoinInterstitial.tokenRequest (card : JoinInterstitial) (name : String) : JoinRequest :=
  { displayName := some (JsStr.trim name), inviteToken := card.inviteToken }

/-- A card with a token asks for no passcode, and joins. -/
theorem handleJoin_eq {tab : Tab} {session : StoredSession} {card : JoinInterstitial}
    (hsession : tab.session = some session)
    (htoken : card.inviteToken.isSome) (hready : card.lookup.isSome ∧ card.fatal = none)
    (hname : NameFits ((card.nameDraft <|> some session.name).getD "")) :
    tab.handleJoin card db trip =
      match postJoin db session.userId card.meetingNumber
        (card.tokenRequest ((card.nameDraft <|> some session.name).getD "")) trip with
      | .error e =>
        ({ tab with
            session := some session
            page := .invite (({ card with formError := none } : JoinInterstitial).fail e) }, db)
      | .ok (response, db) =>
        (({ tab with session := some session } : Tab).enter card.meetingNumber
          (JsStr.trim ((card.nameDraft <|> some session.name).getD "")) response trip.browserNowMs,
              db) := by
  have hneeds : ({ card with formError := none } : JoinInterstitial).needsPasscode = false := by
    obtain ⟨token, htoken⟩ := Option.isSome_iff_exists.mp htoken
    simp [JoinInterstitial.needsPasscode, htoken]
  have hshown : ¬ (card.lookup.isNone ∨ card.fatal.isSome) := by
    rw [hready.2, ← Option.not_isSome]
    simp [hready.1]
  have hfits : ¬ ¬ (nameMin ≤ JsStr.length
    (JsStr.trim ((card.nameDraft <|> some session.name).getD "")) ∧
      JsStr.length (JsStr.trim ((card.nameDraft <|> some session.name).getD "")) ≤ nameMax) :=
        not_not.mpr hname
  rw [Tab.handleJoin]
  simp only [hsession, Option.map_some, if_neg hshown, if_neg hfits, hneeds, Tab.identify]
  rfl

/-- The card joins with the token of its link. -/
theorem handleJoin_token (name : String) (hnumbered : db.Numbered)
    (hsecured : db.Secured) (hm : m ∈ db.meetings)
    (hn : n ∈ db.meetings) (hdoor : AtDoor db m user trip) {tab : Tab}
    (hsession : tab.session = some ⟨user.id, name⟩)
    {card : JoinInterstitial} (hnumber : card.meetingNumber = m.meetingNumber)
    (htoken : card.inviteToken = some n.inviteToken)
    (hready : card.lookup.isSome ∧ card.fatal = none)
    (hname : NameFits ((card.nameDraft <|> some name).getD "")) :
    TokenDecides db (tab.handleJoin card db trip) user trip m n := by
  have hrequest : (card.tokenRequest ((card.nameDraft <|> some name).getD "")).inviteToken =
    some n.inviteToken := htoken
  have hlength :
    ((card.tokenRequest ((card.nameDraft <|> some name).getD "")).displayName.getD "").length ≤
      maxDisplayNameLength := (JsStr.length_le _).trans hname.2
  rw [handleJoin_eq hsession (by simp [htoken]) hready hname, hnumber]
  rcases postJoin_token hnumbered hsecured hm hn hdoor hrequest rfl hlength with ⟨heq, r, db',
    hpost, hjoined⟩ | ⟨hne, hpost⟩
  · rw [hpost]
    exact tokenDecides_of_entered heq hjoined
  · rw [hpost]
    exact tokenDecides_of_refused hne rfl rfl

/-- And so does the gate of the room. -/
theorem pressJoin_token (hnumbered : db.Numbered) (hsecured : db.Secured)
    (hm : m ∈ db.meetings) (hn : n ∈ db.meetings)
    (hdoor : AtDoor db m user trip) {tab : Tab} {name : String}
    (hsession : tab.session = some ⟨user.id, name⟩)
    (stream : Option MediaStream) (c : ConnectionId) :
    TokenDecides db (tab.pressJoin (.mount m.meetingNumber (some n.inviteToken)) db stream c trip)
      user trip m n := by
  obtain ⟨draw, hdraw⟩ := hsecured.inviteToken n hn
  have hgiven : given (some n.inviteToken) = some n.inviteToken :=
    given_eq_some.mpr ⟨rfl, hdraw ▸ generateInviteToken_ne draw⟩
  have hrequest :
    ((MeetingRoom.mount m.meetingNumber (some n.inviteToken)).join stream).2.inviteToken =
      some n.inviteToken := hgiven
  have hnumber : (MeetingRoom.mount m.meetingNumber (some n.inviteToken)).meetingNumber =
    m.meetingNumber := rfl
  rw [Tab.pressJoin, hsession]
  dsimp only
  rw [hnumber]
  -- the request of a room carries no name
  rcases postJoin_token hnumbered hsecured hm hn hdoor hrequest rfl (Nat.zero_le _) with
    ⟨heq, r, db', hpost, hjoined⟩ | ⟨hne, hpost⟩
  · rw [hpost]
    exact tokenDecides_of_entered heq hjoined
  · rw [hpost]
    exact tokenDecides_of_refused hne rfl rfl

/-- Both links, followed in one state of the database. -/
theorem links_decide (hnumbered : db.Numbered) (hdrawn : db.NumbersDrawn)
    (hsecured : db.Secured) (hm : m ∈ db.meetings)
    (hn : n ∈ db.meetings) (hdoor : AtDoor db m user trip) {tab : Tab} {name : String}
    (hsession : tab.session = some ⟨user.id, name⟩) (origin : String) :
    (∃ opened card, tab.followLink db origin
      (buildInviteLink { m with inviteToken := n.inviteToken } origin) = some opened ∧
      opened.page = .invite card ∧ card.needsPasscode = false ∧
      ∀ draft : Option String, NameFits ((draft <|> some name).getD "") →
        TokenDecides db (opened.handleJoin { card with nameDraft := draft } db trip)
          user trip m n) ∧
    ∃ opened room, tab.followLink db origin
      (roomInviteLink m.meetingNumber (some n.inviteToken) origin) = some opened ∧
      opened.page = .room room ∧
      ∀ stream c, TokenDecides db (opened.pressJoin room db stream c trip) user trip m n := by
  obtain ⟨draw, hdraw⟩ := hsecured.inviteToken n hn
  obtain ⟨drawn, hnumberDrawn⟩ := hdrawn.meetings m hm
  have hne : n.inviteToken ≠ "" := hdraw ▸ generateInviteToken_ne draw
  have hdigit : ∀ c ∈ m.meetingNumber.toList, c.isDigit := by
    rw [hnumberDrawn]
    exact fun c hc => isDigit_of_mem_generateMeetingNumber hc
  have hnumber : ∀ c ∈ m.meetingNumber.toList, IsPlain c :=
    fun c hc => isPlain_of_digit (hdigit c hc)
  have htoken : ∀ c ∈ n.inviteToken.toList, IsPlain c := by
    rw [hdraw]
    exact fun c hc => isPlain_of_base64 c (generateInviteToken_mem draw c hc)
  -- digits go through `normalizeMeetingId` of the page as they are
  have hcard := openInvite_eq hnumbered hm (digits_of_isDigit hdigit) hdoor.isOpen hne
  have hinvite : tab.followLink db origin
    (buildInviteLink { m with inviteToken := n.inviteToken } origin) = some { tab with
      page := .invite (openInvite db m.meetingNumber (some n.inviteToken)) } :=
    followLink_invite (m := { m with inviteToken := n.inviteToken }) hnumber htoken
  rw [hcard] at hinvite
  constructor
  · refine ⟨_, _, hinvite, rfl, ?_, fun draft hname => ?_⟩
    · simp [JoinInterstitial.needsPasscode]
    · refine handleJoin_token name hnumbered hsecured hm hn hdoor ?_ ?_ ?_ ⟨rfl, rfl⟩ hname
      · exact hsession
      · rfl
      · rfl
  · exact ⟨_, _, followLink_room hnumber htoken hne, rfl,
      pressJoin_token hnumbered hsecured hm hn hdoor hsession⟩

end Enter

def drawnPasscode : String := generatePasscode fun _ => ⟨0, by decide⟩

def drawnToken : String := generateInviteToken fun _ => 0

/-- A host plans a meeting, and a guest has signed in. -/
def planAndInvite : List Operation :=
  [.request (.signInGoogle { sub := "g-host", email := some "ada@example.com" }
    ⟨"host", "", fun _ => (0, 1)⟩),
   .request (.signInGuest "Bob" ⟨"bob", "t", fun _ => (0, 2)⟩),
   .request (.createMeeting "host"
     { topic := some "Retro", scheduledStart := some { wall := 1786714200000000 } }
      { passcode := drawnPasscode, inviteToken := drawnToken, ids := fun _ => "m",
        numbers := fun _ => (0, 3),
        inviteeIds := fun _ => "" } 10)]

theorem planAndInvite_draws : ∀ op ∈ planAndInvite, op.DrawsSecrets := by
  intro op hop userId req draws now heq
  subst heq
  simp only [planAndInvite, List.mem_cons, List.not_mem_nil, or_false, Operation.request.injEq,
    Request.createMeeting.injEq,
    reduceCtorEq, false_or] at hop
  obtain ⟨-, -, rfl, -⟩ := hop
  exact ⟨⟨_, rfl⟩, ⟨_, rfl⟩⟩

def invitedMeeting : Meeting where
  id := "m"
  meetingNumber := "10000000003"
  hostId := "host"
  topic := "Retro"
  scheduledStart := some 1786714200000000
  passcode := drawnPasscode
  inviteToken := drawnToken
  createdAt := 10

def invitedGuest : User :=
  { id := "bob", email := "guest-t@guest.zoomclone.local", name := "Bob",
    personalMeetingId := "10000000002"
    isGuest := true }

def guestTrip : Trip where
  guest := ⟨"", "", fun _ => (0, 0)⟩
  draws := ⟨"p1", "s1"⟩
  now := 20
  browserNowMs := 0

theorem guest_atDoor :
    AtDoor (Runs.run Db.apply .empty planAndInvite) invitedMeeting invitedGuest guestTrip where
  stored := by decide +kernel
  visitor := by decide
  isOpen := .inl rfl
  space := by decide +kernel
  arrives := rfl
  id := by decide +kernel
  sessionId := by decide +kernel

/-! ### The address of a socket -/

/-- What `encodeURIComponent` writes as it is. -/
def isUriKept (c : Char) : Bool :=
  c.isAlphanum || c = '-' || c = '_' || c = '.' || c = '!' || c = '~' || c = '*' || c =
    '\'' || c = '(' || c = ')'

def encodeURIComponent (text : String) : String :=
  String.ofList (Percent.encode isUriKept text.toList)

/-- `signalingUrl`, for the address of the client's model. -/
def signalingUrl (base : String) (url : SignalingUrl) : String :=
  base ++ "/ws/meeting/" ++ encodeURIComponent url.meetingNumber ++ "?session_id=" ++
    encodeURIComponent url.sessionId

/-- What the server reads in the address.  The browser removes the segments `.` and `..`, and the
server decodes the path before it finds the route. -/
def readSocketAddress (base url : String) : Option SignalingUrl := do
  let rest ← url.toList.dropPrefix? base.toList
  let path ← Percent.decode (rest.takeWhile (· ≠ '?'))
  let query ← Percent.parseQuery ((rest.dropWhile (· ≠ '?')).drop 1)
  let meetingNumber ← path.dropPrefix? "/ws/meeting/".toList
  let sessionId ← Percent.get query.reverse "session_id".toList
  if meetingNumber ∈ [[], ['.'], ['.', '.']] ∨ '/' ∈ meetingNumber then none
  else some ⟨String.ofList meetingNumber, String.ofList sessionId⟩

section SocketAddress

variable {base : String} {url : SignalingUrl}

theorem not_mem_encodeURIComponent {d : Char} (hkeep : isUriKept d = false) (hpercent : d ≠ '%')
    (hdigit : d ∉ Percent.hexDigits) (text : String) : d ∉ (encodeURIComponent text).toList := by
  rw [encodeURIComponent, String.toList_ofList]
  exact Percent.not_mem_encode hkeep hpercent hdigit _

theorem decode_encodeURIComponent {plain : List Char} (hplain : '%' ∉ plain) (text : String) :
    Percent.decode (plain ++ (encodeURIComponent text).toList) = some (plain ++ text.toList) := by
  rw [encodeURIComponent, String.toList_ofList]
  exact Percent.decode_append_encode (by decide) hplain text.toList

theorem parse_socketQuery :
    Percent.parseQuery ("session_id".toList ++ '=' :: (encodeURIComponent url.sessionId).toList) =
      some [("session_id".toList, url.sessionId.toList)] := by
  have hsession : Percent.decodeForm (encodeURIComponent url.sessionId).toList =
      some url.sessionId.toList := by
    rw [encodeURIComponent, String.toList_ofList]
    exact Percent.decodeForm_encode (by decide) (by decide) url.sessionId.toList
  have hname : Percent.decodeForm "session_id".toList = some "session_id".toList := by decide
  refine Percent.parseQuery_pair (by decide) (fun hmem => ?_) hname hsession
  rcases List.mem_append.mp hmem with hmem | hmem
  · exact absurd hmem (by decide)
  · rcases List.mem_cons.mp hmem with heq | hmem
    · exact absurd heq (by decide)
    · exact not_mem_encodeURIComponent (by decide) (by decide) (by decide) _ hmem

/-- What is left of an address behind its site, cut at the `?`. -/
theorem socketAddress_parts (base : String) (url : SignalingUrl) :
    (signalingUrl base url).toList.dropPrefix? base.toList =
      some ("/ws/meeting/".toList ++ (encodeURIComponent url.meetingNumber).toList ++ '?' ::
        ("session_id".toList ++ '=' :: (encodeURIComponent url.sessionId).toList)) ∧
    '?' ∉ "/ws/meeting/".toList ++ (encodeURIComponent url.meetingNumber).toList := by
  constructor
  · refine List.dropPrefix?_eq_some_iff.mpr ⟨base.toList, ?_, beq_self_eq_true _⟩
    simp [signalingUrl, String.toList_append]
  · intro hmark
    rcases List.mem_append.mp hmark with hmark | hmark
    · exact absurd hmark (by decide)
    · exact not_mem_encodeURIComponent (by decide) (by decide) (by decide) _ hmark

/-- The server reads both texts, and looks at the segment. -/
theorem readSocketAddress_eq : readSocketAddress base (signalingUrl base url) =
    if url.meetingNumber.toList ∈ [[], ['.'], ['.', '.']] ∨ '/' ∈ url.meetingNumber.toList then
      none else some url := by
  obtain ⟨hrest, hmark⟩ := socketAddress_parts base url
  obtain ⟨hbefore, hbehind⟩ :=
    Percent.cut_at ("session_id".toList ++ '=' :: (encodeURIComponent url.sessionId).toList) hmark
  have hroute : ("/ws/meeting/".toList ++ url.meetingNumber.toList).dropPrefix?
    "/ws/meeting/".toList =
      some url.meetingNumber.toList := List.dropPrefix?_eq_some_iff.mpr ⟨_, rfl, beq_self_eq_true _⟩
  rw [readSocketAddress, hrest]
  simp only [bind, Option.bind_some]
  rw [hbefore, hbehind, decode_encodeURIComponent (by decide), parse_socketQuery]
  have hsession : Percent.get [("session_id".toList, url.sessionId.toList)].reverse
    "session_id".toList =
      some url.sessionId.toList := by
    rw [List.reverse_singleton, Percent.get_singleton]
  simp only [Option.bind_some, hroute, hsession, String.ofList_toList]

end SocketAddress

/-- **The address of a socket is read back** exactly if the number is a segment of a path. -/
theorem socketAddress_read (base : String) (url : SignalingUrl) :
    readSocketAddress base (signalingUrl base url) = some url ↔
      url.meetingNumber ∉ ["", ".", ".."] ∧ '/' ∉ url.meetingNumber.toList := by
  have htexts : url.meetingNumber.toList ∈ [[], ['.'], ['.', '.']] ↔
      url.meetingNumber ∈ ["", ".", ".."] := by
    simp only [List.mem_cons, List.not_mem_nil, or_false, ← String.toList_inj]
    rfl
  rw [readSocketAddress_eq, ← htexts]
  split_ifs with hsegment
  · exact iff_of_false (by simp) fun h => hsegment.elim h.1 h.2
  · exact iff_of_true rfl (not_or.mp hsegment)

end ZoomClone
