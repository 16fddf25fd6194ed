/-
The two join screens and the way from them into a room: `JoinForm.tsx`,
`JoinInterstitial.tsx`, the `sessionStorage` handoff of `handoff.ts`, and the
routes `/join`, `/j/{id}` and `/wc/{id}`.

A `Tab` is one browser tab: who is signed in, the page it shows, and its handoff
slot.  The tab also keeps the outcome of every `POST /join` made since its last
successful join screen.  A submit runs against one state of the database; a
request may also fail on the way, by the rate limiter or the network.
-/
import ZoomClone.MeetingRoom
import ZoomClone.Operations
import ZoomClone.Queries

namespace ZoomClone

/-! ### Requests -/

/-- The error that `lib/api.ts` throws. -/
structure ApiError where
  code : String
  message : String
  deriving DecidableEq

/-- The error envelope of a failure. -/
def Raised.apiError : Raised → ApiError
  | .app e => ⟨e.code, e.message⟩
  | _ => ⟨"INTERNAL_ERROR", "An unexpected error occurred."⟩

/-- The answer to a request. -/
def reply {α : Type} : Service α → Except ApiError α
  | .ok a => .ok a
  | .error e => .error e.apiError

/-- What a request draws on the server, the clocks of server and browser, and the
error the request fails with if it does not arrive. -/
structure Trip where
  guest : SignInDraws
  draws : JoinDraws
  now : DateTime
  browserNowMs : Int
  outage : Option ApiError := none

/-- `GET /lookup`. -/
def getLookup (db : Db) (meetingNumber : String) : Except ApiError MeetingLookup :=
  reply (lookup db meetingNumber)

/-- `POST /join` of the user behind the token.  The schema bounds the display
name. -/
def postJoin (db : Db) (userId : UserId) (meetingNumber : String)
    (req : JoinRequest) (trip : Trip) :
    Except ApiError (JoinResponse × Db) :=
  match trip.outage with
  | some e => .error e
  | none =>
    if maxDisplayNameLength < (req.displayName.getD "").length then
      .error ⟨"VALIDATION_ERROR", "The request payload is invalid."⟩
    else
      reply do
        let user ← currentUser db userId
        joinMeeting db meetingNumber user req trip.draws trip.now

/-! ### The handoff -/

/-- What the join flows hand to the room. -/
structure JoinHandoff where
  meetingNumber : String
  sessionId : SessionId
  displayName : String
  response : JoinResponse
  createdAt : Int

/-- Milliseconds after which a handoff is ignored. -/
def maxAgeMs : Int := 60000

/-- Put a handoff into the tab's slot; without storage nothing happens. -/
def putJoinHandoff (storage : Bool) (slot : Option JoinHandoff) (meetingNumber displayName : String)
    (response : JoinResponse) (nowMs : Int) : Option JoinHandoff :=
  if storage then
    some ⟨meetingNumber, response.sessionId, displayName, response, nowMs⟩
  else slot

/-- Consume the handoff for a meeting; the slot is cleared in any case. -/
def takeJoinHandoff (storage : Bool) (slot : Option JoinHandoff) (meetingNumber : String)
    (nowMs : Int) : Option JoinHandoff × Option JoinHandoff :=
  if storage then
    (slot.filter fun handoff => handoff.meetingNumber = meetingNumber ∧
      nowMs - handoff.createdAt ≤ maxAgeMs ∧ handoff.sessionId ≠ "", none)
  else (none, slot)

/-- Within its minute, a room of the same number would take the session that
the join screen got. -/
example (response : JoinResponse) (hs : response.sessionId ≠ "") :
    takeJoinHandoff true (putJoinHandoff true none "89590250750" "Ada" response 0) "89590250750"
        60000 =
      (some ⟨"89590250750", response.sessionId, "Ada", response, 0⟩, none) := by
  simp [takeJoinHandoff, putJoinHandoff, Option.filter, hs, maxAgeMs]

/-! ### Tabs -/

/-- The stored session: whose token it is, and the cached name. -/
structure StoredSession where
  userId : UserId
  name : String
  deriving DecidableEq

/-- The form of `/join`. -/
structure JoinForm where
  meetingId : String := ""
  passcode : String := ""
  error : Option String := none
  lookup : Option MeetingLookup := none

inductive FatalKind where
  | notFound
  | ended
  | full
  | rateLimited
  | error
  deriving DecidableEq, Repr

structure Fatal where
  kind : FatalKind
  message : String

/-- The card of an invite link. -/
structure JoinInterstitial where
  meetingNumber : String
  inviteToken : Option String
  lookup : Option MeetingLookup := none
  fatal : Option Fatal := none
  nameDraft : Option String := none
  passcode : String := ""
  formError : Option String := none

inductive Page where
  | elsewhere
  | join (form : JoinForm)
  | invite (card : JoinInterstitial)
  | room (room : MeetingRoom)

structure Tab where
  session : Option StoredSession := none
  page : Page := .elsewhere
  /-- `sessionStorage` works in this tab. -/
  storage : Bool := true
  handoff : Option JoinHandoff := none
  /-- The session id of the last join screen that succeeded. -/
  entry : Option SessionId := none
  /-- What every `POST /join` since then was answered with, that one included. -/
  posts : List (Option SessionId) := []

/-- `/wc/{number}`, with the `pwd` of its query. -/
def Tab.visitRoom (tab : Tab) (meetingNumber : String) (pwd : Option String) : Tab :=
  { tab with page := .room (.mount meetingNumber pwd) }

/-- What both join screens do with a successful join: remember it for the room
and go to `/wc/{number}`. -/
def Tab.enter (tab : Tab) (meetingNumber displayName : String) (response : JoinResponse)
    (nowMs : Int) : Tab :=
  { tab with
    handoff := putJoinHandoff tab.storage tab.handoff meetingNumber displayName response nowMs
    entry := some response.sessionId
    posts := [some response.sessionId] }.visitRoom meetingNumber none

/-- The token to join with; a visitor without one becomes a guest. -/
def Tab.identify (tab : Tab) (db : Db) (guestName : String) (trip : Trip) :
    Except ApiError (StoredSession × Db) :=
  match tab.session with
  | some session => .ok (session, db)
  | none =>
    match reply (createGuest db guestName trip.guest) with
    | .error e => .error e
    | .ok (user, db) => .ok (⟨user.id, user.name⟩, db)

/-! ### `JoinForm` -/

/-- The inline text for a failed lookup or join. -/
def messageForError (e : ApiError) : String :=
  match e.code with
  | "MEETING_NOT_FOUND" => "Invalid meeting ID"
  | "INVALID_PASSCODE" => "That passcode is not correct."
  | "MEETING_FULL" => "This meeting is full. It has reached its 6-participant limit."
  | "MEETING_NOT_JOINABLE" => "This meeting has already ended."
  | "RATE_LIMITED" => "Too many attempts. Please wait a minute and try again."
  | "NETWORK_ERROR" => "Could not reach the server. Check your connection and try again."
  | "REQUEST_TIMEOUT" => "Could not reach the server. Check your connection and try again."
  | _ => if e.message = "" then "Something went wrong. Please try again." else e.message

/-- Changing the id forgets what the last lookup established. -/
def JoinForm.setMeetingId (_ : JoinForm) (value : String) : JoinForm := { meetingId := value }

/-- The form after an error; an unknown meeting also forgets the lookup. -/
def JoinForm.fail (form : JoinForm) (e : ApiError) : JoinForm :=
  { form with
    error := some (messageForError e)
    lookup := if e.code = "MEETING_NOT_FOUND" then none else form.lookup }

/-- `submit`: probe, ask for the passcode if there is one, become somebody, and
join. -/
def Tab.submit (tab : Tab) (form : JoinForm) (db : Db) (trip : Trip) : Tab × Db :=
  let number := JsStr.digits form.meetingId
  let stay (tab : Tab) (form : JoinForm) : Tab := { tab with page := .join form }
  if number = "" then (tab, db)
  else
    match form.lookup.elim (getLookup db number) .ok with
    | .error e => (stay tab (form.fail e), db)
    | .ok probe =>
      if probe.status = .ended ∨ probe.status = .cancelled then
        (stay tab { form with
          lookup := some probe, error := some "This meeting has already ended." }, db)
      else if probe.passcodeRequired ∧ JsStr.trim form.passcode = "" then
        (stay tab { form with lookup := some probe, error := none }, db)
      else
        match tab.identify db ((tab.session.map StoredSession.name).getD "Guest") trip with
        | .error e => (stay tab (form.fail e), db)
        | .ok (session, db) =>
          -- The name shown is the one of before a guest sign-in.
          let req : JoinRequest :=
            { displayName := tab.session.map StoredSession.name
              passcode := if probe.passcodeRequired then some (JsStr.trim form.passcode) else none }
          let tab := { tab with session := some session }
          match postJoin db session.userId number req trip with
          | .error e => (stay tab (form.fail e), db)
          | .ok (response, db) =>
            (tab.enter number response.participant.displayName response trip.browserNowMs, db)

/-! ### `JoinInterstitial` -/

def nameMin : ℕ := 1
def nameMax : ℕ := 50

def fatalFromError (e : ApiError) : Fatal :=
  match e.code with
  | "MEETING_NOT_FOUND" =>
    ⟨.notFound,
      "This meeting ID is not valid. Check the link, or ask the host for a new invitation."⟩
  | "MEETING_NOT_JOINABLE" => ⟨.ended, "The host has ended this meeting. There is nothing to join."⟩
  | "MEETING_FULL" =>
    ⟨.full, "This meeting has reached its participant limit. " ++
      "Ask the host to let someone out, then try again."⟩
  | "RATE_LIMITED" => ⟨.rateLimited,
      "Too many join attempts from this network. Please wait about a minute and try again."⟩
  | "NETWORK_ERROR" => ⟨.error, "Could not reach the server. Check your connection and try again."⟩
  | "REQUEST_TIMEOUT" =>
    ⟨.error, "Could not reach the server. Check your connection and try again."⟩
  | _ => ⟨.error, if e.message = "" then "Something went wrong. Please try again." else e.message⟩

/-- The card of an invite link, after its lookup. -/
def openInvite (db : Db) (meetingId : String) (pwd : Option String) : JoinInterstitial :=
  let meetingNumber := JsStr.digits meetingId
  let card : JoinInterstitial := { meetingNumber, inviteToken := given pwd }
  match getLookup db meetingNumber with
  | .error e => { card with fatal := some (fatalFromError e) }
  | .ok probe =>
    if probe.status = .ended ∨ probe.status = .cancelled then
      { card with
        fatal := some ⟨.ended, "The host has ended this meeting. There is nothing to join."⟩ }
    else { card with lookup := some probe }

/-- A wrong passcode keeps the form; most other errors replace the card. -/
def JoinInterstitial.fail (card : JoinInterstitial) (e : ApiError) : JoinInterstitial :=
  if e.code = "INVALID_PASSCODE" then
    { card with formError := some "That passcode is not correct." }
  else if (fatalFromError e).kind = .error then
    { card with formError := some (fatalFromError e).message }
  else { card with fatal := some (fatalFromError e) }

/-- A passcode is asked for when the meeting has one and the link carried no
token. -/
def JoinInterstitial.needsPasscode (card : JoinInterstitial) : Bool :=
  (card.lookup.any MeetingLookup.passcodeRequired) && card.inviteToken.isNone

/-- `handleJoin`, on a card that shows its form. -/
def Tab.handleJoin (tab : Tab) (card : JoinInterstitial) (db : Db) (trip : Trip) : Tab × Db :=
  let stay (tab : Tab) (card : JoinInterstitial) : Tab := { tab with page := .invite card }
  let card := { card with formError := none }
  let name := JsStr.trim ((card.nameDraft <|> tab.session.map StoredSession.name).getD "")
  if card.lookup.isNone ∨ card.fatal.isSome then (tab, db)
  else if ¬ (nameMin ≤ JsStr.length name ∧ JsStr.length name ≤ nameMax) then
    (stay tab card, db)
  else if card.needsPasscode ∧ JsStr.trim card.passcode = "" then
    (stay tab { card with formError := some "Enter the meeting passcode to continue." }, db)
  else
    match tab.identify db name trip with
    | .error e => (stay tab (card.fail e), db)
    | .ok (session, db) =>
      let req : JoinRequest :=
        { displayName := some name, inviteToken := card.inviteToken
          passcode := if card.needsPasscode then some (JsStr.trim card.passcode) else none }
      let tab := { tab with session := some session }
      match postJoin db session.userId card.meetingNumber req trip with
      | .error e => (stay tab (card.fail e), db)
      | .ok (response, db) => (tab.enter card.meetingNumber name response trip.browserNowMs, db)

/-! ### The room -/

/-- The user presses join on the gate of a room.  The gate offers it to a
visitor with an identity, before the room was joined. -/
def Tab.pressJoin (tab : Tab) (room : MeetingRoom) (db : Db) (stream : Option MediaStream)
    (c : ConnectionId) (trip : Trip) : Tab × Db :=
  match tab.session with
  | none => (tab, db)
  | some session =>
    let (joining, req) := room.join stream
    match postJoin db session.userId room.meetingNumber req trip with
    | .error e =>
      ({ tab with page := .room (joining.joinFailed e.message), posts := tab.posts ++ [none] }, db)
    | .ok (response, db) =>
      ({ tab with
          page := .room (joining.joined response c)
          posts := tab.posts ++ [some response.sessionId] }, db)

end ZoomClone
