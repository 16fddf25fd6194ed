/-
The answers of the REST API on their way to the browser (`main.py`, `errors.py`, `lib/api.ts`).

The server writes every failure as the text of one envelope.  The client takes a response apart:
what is no envelope it reports by the status line, and what is no response by what `fetch` threw.
The answer to an exception that nobody expected is sent outside of the CORS middleware, and a
browser does not show it to a page of another origin.

* `request_errorResponse`, `request_jsonResponse` — what was sent is read back;
* `raises_runRequest` — every failure of a request can be sent;
* `request_arrives` — the page gets the outcome of the request, and the failure that was raised,
  if it is an `AppError`.
-/
import ZoomClone.JoinAdmission
import ZoomClone.ScheduleForm
import ZoomClone.WireRuns

namespace ZoomClone

/-! ### The server -/

/-- A response, as `fetch` resolves with it; a body that cannot be read is `none`. -/
structure Response where
  status : ℕ
  statusText : String
  contentLength : Option String
  body : Option (List Char)

/-- `JSONResponse`; the text of the status is left to the server that sends it. -/
def jsonResponse (statusCode : ℕ) (statusText : String) (content : Json) : Response :=
  let body := JsonText.Style.compact.write content.toText
  { status := statusCode, statusText,
    contentLength := some (toString (String.ofList body).utf8ByteSize), body := some body }

def envelope (code message : String) (details : JsonObj) : Json :=
  .obj [("error", .obj [("code", .str code), ("message", .str message), ("details", .obj details)])]

/-- The one place where the envelope is rendered. -/
def errorResponse (statusCode : ℕ) (statusText code message : String) (details : JsonObj) :
    Response :=
  jsonResponse statusCode statusText (envelope code message details)

def handleAppError (statusText : String) (e : AppError) : Response :=
  errorResponse e.statusCode statusText e.code e.message e.details

/-- What pydantic says about one field, with its location as texts. -/
structure FieldError where
  loc : List String
  msg : String
  type : String

def FieldError.json (e : FieldError) : Json :=
  .obj [("loc", .arr (e.loc.map .str)), ("msg", .str e.msg), ("type", .str e.type)]

def handleValidationError (statusText : String) (errors : List FieldError) : Response :=
  errorResponse 422 statusText "VALIDATION_ERROR" "The request payload is invalid."
    [("errors", .arr (errors.map FieldError.json))]

def handleRateLimit (statusText detail : String) : Response :=
  errorResponse 429 statusText "RATE_LIMITED"
    "Too many requests. Please slow down and try again shortly."
    [("limit", .str detail)]

def handleUnexpected (statusText : String) : Response :=
  errorResponse 500 statusText "INTERNAL_ERROR" "An unexpected error occurred." []

/-- The status of a route that succeeds. -/
def Request.statusCode : Request → ℕ
  | .createMeeting .. => 201
  | _ => 200

/-! ### The client -/

/-- `ApiError` with all its fields. -/
structure ClientError where
  code : String
  message : String
  status : ℕ
  details : Json := .obj []

namespace ClientError

/-- The request never reached the server. -/
def isNetworkError (e : ClientError) : Bool := e.status = 0

/-- What the join pages look at. -/
def apiError (e : ClientError) : ApiError := ⟨e.code, e.message⟩

/-- What the schedule form looks at: `error.details?.field` besides. -/
def saveFailure (e : ClientError) : SaveFailure :=
  .api e.status e.apiError (match e.details with
    | .obj details => (Json.get details "field").text?
    | _ => none)

end ClientError

namespace Response

/-- `response.ok`. -/
def ok (response : Response) : Bool := 200 ≤ response.status ∧ response.status ≤ 299

/-- `response.json()`; `none` if it throws. -/
def json (response : Response) : Option Json := response.body.bind jsonParse

/-- The code, the message and the details, if the payload is an envelope. -/
def failure (response : Response) : Option (String × String × Json) :=
  match response.json with
  | some (.obj body) =>
    match Json.get body "error" with
    | .obj err =>
      match Json.get err "code", Json.get err "message" with
      | .str code, .str message => some (code, message, Json.get err "details")
      | _, _ => none
    | _ => none
  | _ => none

end Response

def normalizeErrorResponse (response : Response) : ClientError :=
  match response.failure with
  | some (code, message, details) =>
    { code, message, status := response.status, details := match details with
        | .null => .obj []
        | details => details }
  | none =>
    { code := "HTTP_ERROR"
      message := if response.statusText = "" then
        "Request failed with status " ++ toString response.status
        else response.statusText
      status := response.status }

/-- The outcome of `fetch`. -/
inductive Fetched where
  | response (response : Response)
  /-- It threw: the caller cancelled it, it ran out of time, or it did not get through. -/
  | thrown (aborted timedOut : Bool) (cause : Option String)

/-- `request`, from the outcome of its `fetch` on; without a body it returns nothing. -/
def request (timeoutMs : ℕ) : Fetched → Except ClientError (Option Json)
  | .thrown true _ _ =>
    .error { code := "REQUEST_ABORTED", message := "The request was cancelled.", status := 0 }
  | .thrown false true _ =>
    .error
      { code := "REQUEST_TIMEOUT",
        message := "The request timed out after " ++ toString timeoutMs ++ "ms.", status := 0 }
  | .thrown false false cause =>
    .error
      { code := "NETWORK_ERROR", message := cause.getD "Could not reach the server.", status := 0 }
  | .response response =>
    if ¬ response.ok then .error (normalizeErrorResponse response)
    else if response.status = 204 ∨ response.contentLength = some "0" then .ok none
    else match response.json with
      | some value => .ok (some value)
      | none =>
        .error
          { code := "INVALID_RESPONSE", message := "The server returned a malformed response."
            status := response.status }

/-! ### What is read back -/

section Read

variable {statusCode timeoutMs : ℕ} {statusText code message : String}
  {details : JsonObj} {v : Json}

theorem jsonParse_compact (hv : v.Plain) :
    jsonParse (JsonText.Style.compact.write v.toText) = some v := by
  have hwords : JsonText.numbersPass JsonText.isWord v.toText :=
    Json.numbersPass_toText (fun n _ => isWord_toString n) (fun _ _ h => h.elim) v hv
  have hnumbers : JsonText.numbersPass JsonText.isNumber v.toText :=
    Json.numbersPass_toText (fun n _ => isNumber_toString n) (fun _ _ h => h.elim) v hv
  have hself : v.reread jsNumber = v :=
    Json.reread_eq_self (fun n h => jsNumber_toString h) (fun _ _ h => h.elim) v hv
  rw [jsonParse, JsonText.readText_write _ hwords, hnumbers, if_pos rfl, Option.map_some,
    Json.ofText_toText v hv, hself]

theorem json_jsonResponse (hv : v.Plain) : (jsonResponse statusCode statusText v).json = some v :=
  jsonParse_compact hv

/-- Nothing but zero is written so. -/
theorem eq_zero_of_toString {n : ℕ} (h : toString n = "0") : n = 0 := by
  have hint := intOf_toString n
  rw [Int.natAbs_natCast, h] at hint
  have hdigit : intOf (decide ((n : Int) < 0)) "0".toList = 0 := by
    cases decide ((n : Int) < 0) <;> rfl
  exact Int.natCast_eq_zero.mp (hint.symm.trans hdigit)

/-- The text of a value is not empty, so the client does not take it for a missing body. -/
theorem contentLength_jsonResponse (hv : v.Plain) :
    (jsonResponse statusCode statusText v).contentLength ≠ some "0" := by
  intro h
  have hempty : JsonText.Style.compact.write v.toText = [] :=
    String.ofList_eq_empty_iff.mp
      (String.utf8ByteSize_eq_zero_iff.mp (eq_zero_of_toString (Option.some.inj h)))
  have hnothing : jsonParse [] = none := by decide
  have hparse := jsonParse_compact hv
  rw [hempty, hnothing] at hparse
  cases hparse

/-- **A value is read back.** -/
theorem request_jsonResponse (hv : v.Plain) (hstatus : 200 ≤ statusCode ∧ statusCode < 204) :
    request timeoutMs (.response (jsonResponse statusCode statusText v)) = .ok (some v) := by
  have hle : statusCode ≤ 299 := by omega
  have hok : (jsonResponse statusCode statusText v).ok = true := decide_eq_true ⟨hstatus.1, hle⟩
  have hbody : ¬ ((jsonResponse statusCode statusText v).status = 204 ∨
      (jsonResponse statusCode statusText v).contentLength = some "0") :=
    not_or.mpr ⟨hstatus.2.ne, contentLength_jsonResponse hv⟩
  rw [request, if_neg (not_not.mpr hok), if_neg hbody, json_jsonResponse hv]

theorem plain_envelope (h : (Json.obj details).Plain) : (envelope code message details).Plain := by
  have hkeys : ["code", "message", "details"].Nodup := by decide
  exact ⟨List.nodup_singleton _, ⟨hkeys, trivial, trivial, h, trivial⟩, trivial⟩

/-- **An envelope is read back.** -/
theorem request_errorResponse (h : (Json.obj details).Plain) (hstatus : 400 ≤ statusCode) :
    request timeoutMs (.response (errorResponse statusCode statusText code message details)) =
      .error { code, message, status := statusCode, details := .obj details } := by
  have hok : ¬ (errorResponse statusCode statusText code message details).ok = true := by
    intro hok
    have hle : statusCode ≤ 299 := (of_decide_eq_true hok).2
    omega
  have hjson : (errorResponse statusCode statusText code message details).json =
      some (envelope code message details) :=
    json_jsonResponse (plain_envelope h)
  have hfailure : (errorResponse statusCode statusText code message details).failure =
      some (code, message, .obj details) := by
    rw [Response.failure, hjson]
    rfl
  rw [request, if_pos hok, normalizeErrorResponse, hfailure]
  rfl

end Read

/-! ### What the services raise -/

/-- A failure that an envelope can carry. -/
structure AppError.Sent (e : AppError) : Prop where
  details : e.Plain
  status : 400 ≤ e.statusCode

namespace AppError

variable {e : AppError}

theorem sent_nil (hdetails : e.details = []) (hstatus : decide (400 ≤ e.statusCode) = true) :
    e.Sent :=
  ⟨plain_nil hdetails, of_decide_eq_true hstatus⟩

/-- The details of a validation error name a field. -/
theorem sent_text {key value : String} (hdetails : e.details = [(key, .str value)])
    (hstatus : decide (400 ≤ e.statusCode) = true) : e.Sent := by
  refine ⟨?_, of_decide_eq_true hstatus⟩
  rw [Plain, hdetails]
  exact ⟨List.nodup_singleton _, trivial, trivial⟩

end AppError

section Raised

variable {α β : Type} {P : AppError → Prop}

theorem Raises.map {x : Service α} {f : α → β} (hx : Raises P x) : Raises P (x.map f) := by
  intro e he
  cases x with
  | error e' => exact hx e (congrArg Except.error (Except.error.inj he))
  | ok a => cases he

theorem Raises.commit {x : Service (α × Db)} (hx : Raises P x) : Raises P x.commit := hx.map

theorem Raises.mapM {o : Option α} {f : α → Service β} (hf : ∀ a, Raises P (f a)) :
    Raises P (o.mapM f) := by
  cases o with
  | none => exact raises_pure none
  | some a => exact (hf a).bind fun b => raises_pure (some b)

variable {db : Db}

/-- A violated index is no `AppError`. -/
theorem raises_insertMeeting (m : Meeting) : Raises P (db.insertMeeting m) := by
  intro e he
  rw [Db.insertMeeting] at he
  split at he
  · cases he
  · split at he <;> cases he

theorem raises_insertUser (u : User) : Raises P (db.insertUser u) := by
  intro e he
  rw [Db.insertUser] at he
  split at he
  · cases he
  · split at he <;> cases he

theorem raises_updateUser (id : UserId) (f : User → User) (hf : ∀ u, (f u).id = u.id) :
    Raises P (db.updateUser id f hf) := by
  intro e he
  rw [Db.updateUser] at he
  split at he <;> cases he

theorem raises_insertInvitee (i : MeetingInvitee) : Raises P (db.insertInvitee i) := by
  intro e he
  rw [Db.insertInvitee] at he
  split at he <;> cases he

theorem raises_insertParticipant (p : Participant) : Raises P (db.insertParticipant p) := by
  intro e he
  rw [Db.insertParticipant] at he
  split at he
  · cases he
  · split at he <;> cases he

theorem raises_compareDigest (a b : String) : Raises P (compareDigest a b) := by
  intro e he
  rw [compareDigest] at he
  split at he <;> cases he

end Raised

section Services

open AppError

variable {db : Db} {user host : User} {m : Meeting} {now : DateTime} {userId : UserId}
  {number : String}

theorem raises_currentUser : Raises Sent (currentUser db userId) :=
  raises_getOrRaise (sent_nil rfl rfl)

theorem raises_currentFullUser : Raises Sent (currentFullUser db userId) := by
  refine raises_currentUser.bind ?_
  intro user
  refine (raises_require (sent_nil rfl rfl)).bind ?_
  intro _
  exact raises_pure user

theorem raises_getByNumber : Raises Sent (getByNumber db number) :=
  raises_getOrRaise (sent_text rfl rfl)

theorem raises_requireMeetingHost : Raises Sent (requireMeetingHost m host) :=
  raises_require (sent_nil rfl rfl)

/-- The targets that the details list are texts. -/
theorem sent_invalidStateTransition (current target : MeetingStatus) :
    (invalidStateTransition current target).Sent := by
  refine ⟨⟨?_, trivial, trivial, ?_, trivial⟩, ?_⟩
  · show ["from", "to", "allowed"].Nodup
    decide
  · cases current <;> simp [allowedTargets, Json.WellFormed, Json.ItemsWellFormed]
  · show 400 ≤ 409
    decide

theorem raises_assertCanTransition (current target : MeetingStatus) :
    Raises Sent (assertCanTransition current target) :=
  raises_require (sent_invalidStateTransition current target)

/-! ### The values of a meeting -/

theorem raises_validateTopic (topic : String) : Raises Sent (validateTopic topic) := by
  refine (raises_require (sent_text rfl rfl)).bind ?_
  intro _
  refine (raises_require (sent_text rfl rfl)).bind ?_
  intro _
  exact raises_pure _

theorem raises_validateStart (value : ApiDateTime) : Raises Sent (validateStart value now) := by
  refine (raises_require (sent_text rfl rfl)).bind ?_
  intro _
  exact raises_pure _

theorem raises_resolveDuration (duration : Int) (plan : Plan) :
    Raises Sent (resolveDuration duration plan) := by
  refine (raises_require (sent_text rfl rfl)).bind ?_
  intro _
  exact raises_pure _

theorem raises_validateEncryption (encryption : String) :
    Raises Sent (validateEncryption encryption) :=
  raises_require (sent_text rfl rfl)

/-- The attempts that the details count are the five that were made. -/
theorem raises_insertWithUniqueNumber {build : ℕ → String → Meeting} {numbers : ℕ → ℕ × ℕ}
    {attempts k : ℕ} (h : k + attempts ≤ maxGenerationAttempts) :
    Raises Sent (insertWithUniqueNumber db build numbers attempts k) := by
  induction attempts generalizing k with
  | zero =>
    intro e he
    obtain rfl := Raised.app.inj (Except.error.inj he)
    have hsafe : ((k : Int)).natAbs ≤ maxSafeInteger := by
      rw [Int.natAbs_natCast]
      exact h.trans (by decide)
    refine ⟨⟨List.nodup_singleton _, hsafe, trivial⟩, ?_⟩
    show 400 ≤ 503
    decide
  | succ attempts ih =>
    intro e he
    unfold insertWithUniqueNumber at he
    dsimp only at he
    split at he
    · cases he
    · exact ih (by omega) e he
    · -- what is not a collision is raised as it is, and the insert raises no `AppError`
      next e' _ hins =>
      obtain rfl := Except.error.inj he
      exact raises_insertMeeting _ e hins

theorem raises_insertInvitees {meetingId : MeetingId} {ids : ℕ → String} {k : ℕ}
    {emails : List String} : Raises Sent (insertInvitees db meetingId now ids k emails) := by
  induction emails generalizing db k with
  | nil =>
    intro e he
    cases he
  | cons email emails ih =>
    unfold insertInvitees
    dsimp only
    split
    · exact ih
    · refine (raises_insertInvitee _).bind ?_
      intro db
      exact ih

theorem raises_insertNewMeeting {usePmi : Bool} {build : ℕ → String → Meeting}
    {numbers : ℕ → ℕ × ℕ} : Raises Sent (insertNewMeeting db host usePmi build numbers) := by
  rw [insertNewMeeting]
  split
  · exact (raises_insertMeeting _).map
  · exact raises_insertWithUniqueNumber (by decide)

theorem raises_createMeeting {req : MeetingCreate} {draws : CreateDraws} :
    Raises Sent (createMeeting db host req draws now) := by
  refine (raises_validateTopic _).bind ?_
  intro topic
  refine (Raises.mapM raises_validateStart).bind ?_
  intro start
  refine (raises_resolveDuration _ _).bind ?_
  intro duration
  refine (raises_validateEncryption _).bind ?_
  intro _
  refine raises_insertNewMeeting.bind ?_
  intro row
  refine raises_insertInvitees.bind ?_
  intro db
  exact raises_pure _

theorem raises_updateMeeting {changes : MeetingChanges} :
    Raises Sent (updateMeeting db number host changes now) := by
  refine raises_getByNumber.bind ?_
  intro m
  refine raises_requireMeetingHost.bind ?_
  intro _
  refine (raises_require (sent_text rfl rfl)).bind ?_
  intro _
  refine (Raises.mapM raises_validateTopic).bind ?_
  intro topic
  refine (Raises.mapM raises_validateStart).bind ?_
  intro start
  refine (Raises.mapM fun minutes => raises_resolveDuration minutes _).bind ?_
  intro duration
  refine (Raises.mapM raises_validateEncryption).bind ?_
  intro _
  exact raises_pure _

/-- Cancelling, starting and ending look for the meeting, its host and its status. -/
theorem raises_transition {α : Type} {target : MeetingStatus} {finish : Meeting → α} :
    Raises Sent (getByNumber db number >>= fun m => requireMeetingHost m host >>= fun _ =>
      assertCanTransition m.status target >>= fun _ => pure (finish m)) := by
  refine raises_getByNumber.bind ?_
  intro m
  refine raises_requireMeetingHost.bind ?_
  intro _
  refine (raises_assertCanTransition _ _).bind ?_
  intro _
  exact raises_pure (finish m)

/-! ### People and rows -/

theorem raises_normalizeDisplayName (raw : String) : Raises Sent (normalizeDisplayName raw) := by
  refine (raises_require (sent_text rfl rfl)).bind ?_
  intro _
  refine (raises_require (sent_text rfl rfl)).bind ?_
  intro _
  exact raises_pure _

theorem raises_allocateMeetingNumber {numbers : ℕ → ℕ × ℕ} {attempts k : ℕ} :
    Raises Sent (allocateMeetingNumber db numbers attempts k) := by
  induction attempts generalizing k with
  | zero =>
    intro e he
    obtain rfl := Raised.app.inj (Except.error.inj he)
    exact sent_nil rfl rfl
  | succ attempts ih =>
    unfold allocateMeetingNumber
    dsimp only
    split
    · exact ih
    · intro e he
      cases he

theorem raises_createGuest {name : String} {draws : SignInDraws} :
    Raises Sent (createGuest db name draws) := by
  refine (raises_normalizeDisplayName _).bind ?_
  intro displayName
  refine raises_allocateMeetingNumber.bind ?_
  intro personalMeetingId
  refine (raises_insertUser _).bind ?_
  intro db
  exact raises_pure _

theorem raises_updateProfile {name : Option String} {avatarUrl : Option (Option String)} :
    Raises Sent (updateProfile db user name avatarUrl) := by
  refine (Raises.mapM raises_normalizeDisplayName).bind ?_
  intro displayName
  refine (raises_updateUser _ _ _).bind ?_
  intro db
  exact raises_pure _

theorem raises_checkEntry {req : JoinRequest} : Raises Sent (checkEntry m user req) := by
  have hinvalid : invalidPasscode.Sent := sent_nil rfl rfl
  rw [checkEntry]
  split
  · intro e he
    cases he
  · rw [checkCredentials_eq]
    refine Raises.bind ?_ ?_
    · rw [checkToken]
      split
      · exact raises_pure false
      · exact raises_compareDigest _ _
    · intro tokenOk
      rw [checkPasscode]
      split
      · exact raises_pure ()
      · split
        · intro e he
          exact Raised.app.inj (Except.error.inj he) ▸ hinvalid
        · refine (raises_compareDigest _ _).bind ?_
          intro passcodeOk
          exact raises_require hinvalid

theorem raises_checkJoin {req : JoinRequest} : Raises Sent (checkJoin db number user req) := by
  have hlimit : (maxMeshParticipants : Int).natAbs ≤ maxSafeInteger := by decide
  have hfull : meetingFull.Sent := ⟨⟨List.nodup_singleton _, hlimit, trivial⟩, by decide⟩
  refine raises_getByNumber.bind ?_
  intro m
  refine (raises_require (sent_text rfl rfl)).bind ?_
  intro _
  refine raises_checkEntry.bind ?_
  intro _
  refine (raises_require hfull).bind ?_
  intro _
  exact raises_pure m

theorem raises_joinMeeting {req : JoinRequest} {draws : JoinDraws} :
    Raises Sent (joinMeeting db number user req draws now) := by
  refine raises_checkJoin.bind ?_
  intro m
  refine (raises_insertParticipant _).bind ?_
  intro db
  exact raises_pure _

theorem raises_rowWithMeeting {id : ParticipantId} : Raises Sent (rowWithMeeting db id) := by
  refine (raises_getOrRaise (sent_nil rfl rfl)).bind ?_
  intro p
  refine (raises_getOrRaise (sent_nil rfl rfl)).bind ?_
  intro m
  exact raises_pure (p, m)

theorem raises_updateParticipant {id : ParticipantId} {changes : MediaPatch} :
    Raises Sent (updateParticipant db id user changes) := by
  refine raises_rowWithMeeting.bind ?_
  intro row
  refine (raises_require (sent_nil rfl rfl)).bind ?_
  intro _
  exact raises_pure _

theorem raises_removeParticipant {id : ParticipantId} :
    Raises Sent (removeParticipant db id user now) := by
  refine raises_rowWithMeeting.bind ?_
  intro row
  refine (raises_require (sent_nil rfl rfl)).bind ?_
  intro _
  refine (raises_require (sent_nil rfl rfl)).bind ?_
  intro _
  exact raises_pure _

/-- Requests of the browser; the callback of a Google sign-in is the web server's own. -/
def Request.FromBrowser : Request → Prop
  | .signInGoogle .. => False
  | _ => True

/-- **Every failure of a request can be sent.** -/
theorem raises_runRequest (db : Db) {r : Request} (hr : r.FromBrowser) :
    Raises Sent (runRequest db r) := by
  have huser {α : Type} {userId : UserId} {call : User → Service α}
      (h : ∀ user, Raises Sent (call user)) : Raises Sent (currentUser db userId >>= call) :=
    raises_currentUser.bind h
  have hhost {α : Type} {userId : UserId} {call : User → Service α}
      (h : ∀ user, Raises Sent (call user)) : Raises Sent (currentFullUser db userId >>= call) :=
    raises_currentFullUser.bind h
  cases r with
  | signInGuest name draws => exact raises_createGuest.commit
  | signInGoogle claims draws => exact hr.elim
  | updateProfile userId name avatarUrl => exact huser fun user => raises_updateProfile.commit
  | savePreferences userId mute video => exact huser fun user => raises_pure _
  | createMeeting userId req draws now => exact hhost fun user => raises_createMeeting.commit
  | updateMeeting userId number changes now => exact hhost fun user => raises_updateMeeting.commit
  | cancelMeeting userId number => exact hhost fun user => raises_transition.commit
  | startMeeting userId number now => exact hhost fun user => raises_transition.commit
  | endMeeting userId number now => exact hhost fun user => raises_transition.commit
  | joinMeeting userId number req draws now => exact huser fun user => raises_joinMeeting.commit
  | updateParticipant userId id changes =>
    exact huser fun user => raises_updateParticipant.commit
  | removeParticipant userId id now => exact huser fun user => raises_removeParticipant.commit

end Services

/-! ### From end to end -/

/-- What `fetch` makes of a response to a page of another origin: one without the headers of the
CORS middleware is kept from the page. -/
def fetched (cors : Bool) (cause : Option String) (response : Response) : Fetched :=
  if cors then .response response else .thrown false false cause

/-- A route, with the value that it returns and the handlers for what it raises.  The outermost
middleware, around that for CORS, answers for an exception that nobody expected. -/
def respond {α : Type} (statusCode : ℕ) (statusText : String) (cause : Option String)
    (content : α → Json) : Service α → Fetched
  | .ok a => fetched true cause (jsonResponse statusCode statusText (content a))
  | .error (.app e) => fetched true cause (handleAppError statusText e)
  | .error _ => fetched false cause (handleUnexpected statusText)

section EndToEnd

variable {α : Type} {timeoutMs statusCode : ℕ} {statusText : String} {cause : Option String}

/-- The exception, as `request` throws it. -/
def AppError.clientError (e : AppError) : ClientError :=
  { code := e.code, message := e.message, status := e.statusCode, details := .obj e.details }

/-- The page gets the failure that was raised, and takes it for an answer of the server; so do
the join pages and the schedule form. -/
structure Arrives (outcome : Except ClientError (Option Json)) (e : AppError) : Prop where
  thrown : outcome = .error e.clientError
  answered : e.clientError.isNetworkError = false
  joining : e.clientError.apiError = (Raised.app e).apiError
  saving : e.clientError.saveFailure = (Raised.app e).saveFailure

theorem arrives_of_sent {content : α → Json} {call : Service α} {e : AppError}
    (h : Raises AppError.Sent call) (hcall : call = .error (.app e)) :
    Arrives (request timeoutMs (respond statusCode statusText cause content call)) e := by
  obtain ⟨hplain, hstatus⟩ := h e hcall
  have hanswered : ¬ e.statusCode = 0 := by omega
  rw [hcall, respond, fetched, if_pos rfl, handleAppError, request_errorResponse hplain hstatus]
  exact ⟨rfl, decide_eq_false hanswered, rfl, rfl⟩

/-- An exception that nobody expected is a network error to the page. -/
theorem request_unexpected {content : α → Json} {call : Service α} {e : Raised}
    (hcall : call = .error e) (hunexpected : ∀ a, e ≠ .app a) : ∃ error,
    request timeoutMs (respond statusCode statusText cause content call) = .error error ∧
      error.code = "NETWORK_ERROR" ∧ error.isNetworkError = true := by
  rw [hcall]
  cases e with
  | app a => exact absurd rfl (hunexpected a)
  | _ => exact ⟨_, rfl, rfl, rfl⟩

theorem plain_fieldErrors (errors : List FieldError) :
    (Json.obj [("errors", .arr (errors.map FieldError.json))]).Plain := by
  have htexts (texts : List String) : Json.ItemsWellFormed Json.IsSafe (texts.map .str) := by
    induction texts with
    | nil => trivial
    | cons text texts ih => exact ⟨trivial, ih⟩
  have hitems : Json.ItemsWellFormed Json.IsSafe (errors.map FieldError.json) := by
    induction errors with
    | nil => trivial
    | cons e errors ih =>
      have hkeys : ["loc", "msg", "type"].Nodup := by decide
      exact ⟨⟨hkeys, htexts e.loc, trivial, trivial, trivial⟩, ih⟩
  exact ⟨List.nodup_singleton _, hitems, trivial⟩

end EndToEnd

/-- **What comes of a request reaches the page**: the value that the route returns, or the
`AppError` that the service raised, with the field that it is about; any other exception is a
network error.  A body that no schema accepts and a request above the limit are told apart by
their codes. -/
theorem request_arrives (db : Db) (r : Request) (timeoutMs : ℕ) (statusText : String)
    (cause : Option String) (content : Db → Json) (hr : r.FromBrowser)
    (hcontent : ∀ db, (content db).Plain) :
    (∀ db', runRequest db r = .ok db' →
      request timeoutMs (respond r.statusCode statusText cause content (runRequest db r)) =
        .ok (some (content db'))) ∧
    (∀ e, runRequest db r = .error (.app e) →
      Arrives (request timeoutMs
        (respond r.statusCode statusText cause content (runRequest db r))) e) ∧
    (∀ e, runRequest db r = .error e → (∀ a, e ≠ .app a) → ∃ error,
      request timeoutMs (respond r.statusCode statusText cause content (runRequest db r)) =
        .error error ∧ error.code = "NETWORK_ERROR" ∧ error.isNetworkError = true) ∧
    (∀ errors, ∃ error,
      request timeoutMs (fetched true cause (handleValidationError statusText errors)) =
        .error error ∧ error.saveFailure = invalidPayload) ∧
    ∀ detail, ∃ error,
      request timeoutMs (fetched true cause (handleRateLimit statusText detail)) = .error error ∧
        error.code = "RATE_LIMITED" := by
  have hlimit (detail : String) : (Json.obj [("limit", .str detail)]).Plain :=
    ⟨List.nodup_singleton _, trivial, trivial⟩
  have hstatus : r.statusCode = 200 ∨ r.statusCode = 201 := by
    cases r with
    | createMeeting userId req draws now => exact .inr rfl
    | _ => exact .inl rfl
  refine ⟨?_, ?_, ?_, ?_, ?_⟩
  · intro db' hrun
    rw [hrun, respond, fetched, if_pos rfl, request_jsonResponse (hcontent db') (by omega)]
  · intro e hrun
    exact arrives_of_sent (raises_runRequest db hr) hrun
  · intro e hrun hunexpected
    exact request_unexpected hrun hunexpected
  · intro errors
    exact ⟨_, request_errorResponse (plain_fieldErrors errors) (by decide), rfl⟩
  · intro detail
    exact ⟨_, request_errorResponse (hlimit detail) (by decide), rfl⟩

/-- Somebody without an account schedules a meeting. -/
theorem stranger_told : Arrives (request 15000 (respond 200 "" none (fun _ => .null)
    (runRequest .empty (.cancelMeeting "nobody" "895 9025 0750"))))
    (.unauthorized "The session token is missing, expired, or invalid." "INVALID_TOKEN") :=
  (request_arrives .empty (.cancelMeeting "nobody" "895 9025 0750") 15000 "" none (fun _ => .null)
    trivial fun _ => trivial).2.1 _ rfl

end ZoomClone
