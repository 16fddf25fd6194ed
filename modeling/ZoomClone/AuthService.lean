/-
Identities (`auth_service.py`, `user_service.py`): guests, Google accounts, the
profile and the join preferences.

Tokens are not modelled: an operation names the user its verified bearer token
stands for, and the route's dependency looks that user up (`currentUser`).
-/
import ZoomClone.MeetingService

namespace ZoomClone

def guestEmailDomain : String := "guest.zoomclone.local"
def maxDisplayNameLength : ℕ := 50

/-- Trim and bound a user-supplied name. -/
def normalizeDisplayName (raw : String) : Service String := do
  let name := PyStr.joinWords raw
  .require (name ≠ "")
    (.validation "A display name is required." [("field", .str "display_name")])
  .require (name.length ≤ maxDisplayNameLength)
    (.validation "Display name must be 50 characters or fewer." [("field", .str "display_name")])
  return name

/-- The first of the drawn numbers that neither a meeting nor a user has. -/
def allocateMeetingNumber (db : Db) (numbers : ℕ → ℕ × ℕ) : ℕ → ℕ → Service String
  | 0, _ => .error (.app { meetingNumberExhausted 0 with details := [] })
  | attempts + 1, k =>
    let candidate := generateMeetingNumber (numbers k)
    if (db.meetings.rows.any fun m => m.meetingNumber = candidate) ||
        db.users.rows.any fun u => u.personalMeetingId = candidate then
      allocateMeetingNumber db numbers attempts (k + 1)
    else .ok candidate

/-- What a sign-in draws at random. -/
structure SignInDraws where
  id : UserId
  emailToken : String
  numbers : ℕ → ℕ × ℕ

/-- Create a guest identity. -/
def createGuest (db : Db) (displayName : String) (draws : SignInDraws) : Service (User × Db) := do
  let name ← normalizeDisplayName displayName
  let pmi ← allocateMeetingNumber db draws.numbers maxGenerationAttempts 0
  let user : User :=
    { id := draws.id, email := "guest-" ++ draws.emailToken ++ "@" ++ guestEmailDomain
      name, personalMeetingId := pmi, isGuest := true }
  let db ← db.insertUser user
  return (user, db)

/-- The verified claims of a Google ID token. -/
structure GoogleClaims where
  sub : String
  email : Option String := none
  name : Option String := none
  picture : Option String := none

/-- Find or create the user behind a verified Google identity: by `google_id`
first, then by email. -/
def upsertGoogleUser (db : Db) (claims : GoogleClaims) (draws : SignInDraws) :
    Service (User × Db) := do
  let email ← .getOrRaise (given claims.email)
    (.validation "Google token did not include an email address." [])
  let known := (db.users.rows.find? fun u => u.googleId = some claims.sub) <|>
    db.users.rows.find? fun u => u.email = email
  match known with
  | none =>
    let pmi ← allocateMeetingNumber db draws.numbers maxGenerationAttempts 0
    let user : User :=
      { id := draws.id, googleId := some claims.sub, email
        name := (given claims.name).getD (PyStr.before '@' email)
        avatarUrl := claims.picture, personalMeetingId := pmi }
    let db ← db.insertUser user
    return (user, db)
  | some user =>
    let adopt (u : User) : User :=
      { u with
        googleId := some claims.sub, email, name := (given claims.name).getD u.name
        avatarUrl := given claims.picture <|> u.avatarUrl, isGuest := false }
    let db ← db.updateUser user.id adopt fun _ => rfl
    return (adopt user, db)

/-- Update the display name and the avatar; `null` clears the avatar. -/
def updateProfile (db : Db) (user : User) (name : Option String)
    (avatarUrl : Option (Option String)) : Service (User × Db) := do
  let name ← name.mapM normalizeDisplayName
  let change (u : User) : User :=
    { u with name := name.getD u.name, avatarUrl := avatarUrl.getD u.avatarUrl }
  let db ← db.updateUser user.id change fun _ => rfl
  return (change user, db)

/-- Create or update the preferences row; of its columns only the two that
`initialMediaState` reads are modelled. -/
def upsertPreferences (db : Db) (user : User) (muteOnJoin videoOffOnJoin : Option Bool) :
    UserPreferences × Db :=
  let prefs := (db.userPreferences.find? user.id).getD { userId := user.id }
  let prefs : UserPreferences :=
    { userId := user.id
      muteOnJoin := muteOnJoin.getD prefs.muteOnJoin
      videoOffOnJoin := videoOffOnJoin.getD prefs.videoOffOnJoin }
  (prefs, { db with userPreferences := db.userPreferences.set prefs })

/-! ### No sign-in touches a meeting or a participant -/

theorem createGuest_ok {db db' : Db} {displayName : String} {draws : SignInDraws} {u : User}
    (h : createGuest db displayName draws = .ok (u, db')) : db.SameRooms db' := by
  simp only [createGuest, Service.bind_eq_ok, Service.pure_eq_ok] at h
  obtain ⟨name, -, pmi, -, db₁, hins, h⟩ := h
  obtain ⟨-, rfl⟩ := Prod.mk.inj h
  exact Db.insertUser_ok hins

theorem upsertGoogleUser_ok {db db' : Db} {claims : GoogleClaims} {draws : SignInDraws} {u : User}
    (h : upsertGoogleUser db claims draws = .ok (u, db')) : db.SameRooms db' := by
  obtain ⟨email, -, h⟩ := Service.bind_eq_ok.mp h
  dsimp only at h
  split at h
  · simp only [Service.bind_eq_ok, Service.pure_eq_ok] at h
    obtain ⟨pmi, -, db₁, hins, h⟩ := h
    obtain ⟨-, rfl⟩ := Prod.mk.inj h
    exact Db.insertUser_ok hins
  · simp only [Service.bind_eq_ok, Service.pure_eq_ok] at h
    obtain ⟨db₁, hupd, h⟩ := h
    obtain ⟨-, rfl⟩ := Prod.mk.inj h
    exact Db.updateUser_ok hupd

theorem updateProfile_ok {db db' : Db} {user u : User} {name : Option String}
    {avatarUrl : Option (Option String)} (h : updateProfile db user name avatarUrl = .ok (u, db')) :
    db.SameRooms db' := by
  simp only [updateProfile, Service.bind_eq_ok, Service.pure_eq_ok] at h
  obtain ⟨name, -, db₁, hupd, h⟩ := h
  obtain ⟨-, rfl⟩ := Prod.mk.inj h
  exact Db.updateUser_ok hupd

theorem upsertPreferences_sameRooms (db : Db) (user : User)
    (muteOnJoin videoOffOnJoin : Option Bool) :
    db.SameRooms (upsertPreferences db user muteOnJoin videoOffOnJoin).2 :=
  ⟨rfl, rfl⟩

end ZoomClone
