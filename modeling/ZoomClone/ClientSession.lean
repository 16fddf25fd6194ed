/-
Signing out of the web client (`session.ts`, `AuthProvider.tsx`).

The session is a token and a user in `localStorage`.  Three writers share them without
versions: `refreshUser` stores what its response brings under the token that it read
before the request, the OAuth bridge stores the Auth.js session whenever the stored
token is another one, and `signOut` drops both.  `localStorage` works throughout, and
`JSON.stringify` and `JSON.parse` are any two functions.

* `Coherent.getSession` — the cache of `getSession` is never stale;
* `signed_out_iff` — a sign-out lasts iff whatever stores a session after it is
  followed by a refusal.
-/
import Mathlib.Data.Option.Basic
import ZoomClone.Models
import ZoomClone.Runs

namespace ZoomClone

namespace ClientSession

/-- `JSON.stringify` of a user, and `JSON.parse`, which throws (`none`) or not. -/
structure UserJson (User : Type) where
  stringify : User → String
  parse : String → Option User

/-- What every consumer of identity sees. -/
structure Session (User : Type) where
  token : String
  user : User
  deriving DecidableEq

/-- The storage of the browser, the variables of the module, and the tokens of the
`refreshUser` calls that wait for their responses.  A cached value is `none` while it is
`undefined`. -/
structure Tab (User : Type) where
  token : Option String
  userRaw : Option String
  cachedSessionToken : Option (Option String) := none
  cachedSessionUserRaw : Option (Option String) := none
  cachedSession : Option (Session User) := none
  pending : List String := []

/-- How `GET /users/me` ends: with a user, with an `ApiError`, or without an answer. -/
inductive Reply (User : Type) where
  | user (user : User)
  | apiError (status : ℕ)
  | networkError

inductive AuthStatus where
  | loading
  | authenticated
  | unauthenticated
  deriving DecidableEq

/-- What `useAuthSession` reports. -/
structure AuthSession (User : Type) where
  status : AuthStatus
  appAccessToken : Option String
  appUser : Option User

/-- What can happen in the tab.  `signedIn` is the end of a sign-in. -/
inductive Event (User : Type) where
  | signedIn (token : String) (user : User)
  | refreshUser
  | response (call : ℕ) (reply : Reply User)
  | bridge (auth : AuthSession User)
  | getSession
  | signOut

section

variable {User : Type} (json : UserJson User)

namespace Tab

def setSession (tab : Tab User) (token : String) (user : User) : Tab User :=
  { tab with token := some token, userRaw := some (json.stringify user) }

def clearSession (tab : Tab User) : Tab User := { tab with token := none, userRaw := none }

/-- The session behind the stored values. -/
def readSession (token userRaw : Option String) : Option (Session User) := do
  let token ← given token
  let userRaw ← given userRaw
  let user ← json.parse userRaw
  return ⟨token, user⟩

/-- The session, and the tab with its cache. -/
def getSession (tab : Tab User) : Option (Session User) × Tab User :=
  if some tab.token = tab.cachedSessionToken ∧ some tab.userRaw = tab.cachedSessionUserRaw then
    (tab.cachedSession, tab)
  else
    let session := readSession json tab.token tab.userRaw
    (session,
      { tab with
        cachedSessionToken := some tab.token, cachedSessionUserRaw := some tab.userRaw
        cachedSession := session })

/-- `refreshUser` up to its `await`. -/
def refreshUser (tab : Tab User) : Tab User :=
  match given tab.token with
  | none => tab
  | some token => { tab with pending := tab.pending ++ [token] }

/-- `refreshUser` after its `await`, with the token that it read before. -/
def settle (tab : Tab User) (token : String) : Reply User → Tab User
  | .user user => tab.setSession json token user
  | .apiError status => if status = 401 ∨ status = 403 then tab.clearSession else tab
  | .networkError => tab

def respond (tab : Tab User) (call : ℕ) (reply : Reply User) : Tab User :=
  match tab.pending[call]? with
  | none => tab
  | some token => { tab with pending := tab.pending.eraseIdx call }.settle json token reply

/-- The effect of `AppSessionBridge`. -/
def appSessionBridge (tab : Tab User) (auth : AuthSession User) : Tab User :=
  if auth.status = .authenticated then
    match given auth.appAccessToken, auth.appUser with
    | some token, some user =>
      if tab.token ≠ some token then tab.setSession json token user else tab
    | _, _ => tab
  else tab

def step (tab : Tab User) : Event User → Tab User
  | .signedIn token user => tab.setSession json token user
  | .refreshUser => tab.refreshUser
  | .response call reply => tab.respond json call reply
  | .bridge auth => tab.appSessionBridge json auth
  | .getSession => (tab.getSession json).2
  | .signOut => tab.clearSession

end Tab

/-- No token and no user are stored, and `getSession()` is null. -/
structure SignedOut (tab : Tab User) : Prop where
  token : tab.token = none
  user : tab.userRaw = none
  session : (tab.getSession json).1 = none

/-! ### The cache -/

/-- What the cache holds is the session behind the values that it was made from. -/
def Coherent (tab : Tab User) : Prop :=
  ∀ token userRaw, tab.cachedSessionToken = some token → tab.cachedSessionUserRaw = some userRaw →
    tab.cachedSession = Tab.readSession json token userRaw

variable {json}

theorem Coherent.getSession {tab : Tab User} (h : Coherent json tab) :
    (tab.getSession json).1 = Tab.readSession json tab.token tab.userRaw := by
  unfold Tab.getSession
  split_ifs with hcached
  · exact h _ _ hcached.1.symm hcached.2.symm
  · rfl

/-- Only `getSession` writes the cache. -/
theorem Coherent.step {tab : Tab User} (h : Coherent json tab) (e : Event User) :
    Coherent json (tab.step json e) := by
  cases e with
  | signedIn token user => exact h
  | refreshUser =>
    simp only [Tab.step, Tab.refreshUser]
    split <;> exact h
  | response call reply =>
    simp only [Tab.step, Tab.respond]
    split
    · exact h
    · cases reply with
      | user user => exact h
      | apiError status =>
        simp only [Tab.settle]
        split_ifs <;> exact h
      | networkError => exact h
  | bridge auth =>
    simp only [Tab.step, Tab.appSessionBridge]
    split_ifs
    · split
      · split_ifs <;> exact h
      · exact h
    · exact h
  | getSession =>
    -- The only event that fills the cache: it reads both keys at once.
    simp only [Tab.step, Tab.getSession]
    split_ifs with hcached
    · exact h
    · rintro token userRaw ⟨⟩ ⟨⟩
      rfl
  | signOut => exact h

/-- A tab of a coherent cache is signed out as soon as nothing is stored. -/
theorem signedOut_iff {tab : Tab User} (h : Coherent json tab) :
    SignedOut json tab ↔ tab.token = none ∧ tab.userRaw = none := by
  refine ⟨fun hout => ⟨hout.token, hout.user⟩, fun ⟨htoken, huser⟩ => ⟨htoken, huser, ?_⟩⟩
  rw [h.getSession, htoken, huser]
  rfl

/-! ### What comes after a sign-out -/

/-- The event would leave a session behind: a response with a user, or an effect of the
bridge that finds an authenticated session with a token and a user. -/
def Event.Stores : Event User → Prop
  | .response _ (.user _) => True
  | .bridge auth => auth.status = .authenticated ∧ given auth.appAccessToken ≠ none ∧
    auth.appUser ≠ none
  | _ => False

/-- A response that says the token is not valid any more. -/
def Event.Refuses : Event User → Prop
  | .response _ (.apiError status) => status = 401 ∨ status = 403
  | _ => False

/-- What can still happen after the sign-out when no new sign-in and no new call is
started. -/
def Event.Late : Event User → Prop
  | .response _ _ | .bridge _ | .getSession => True
  | .signedIn _ _ | .refreshUser | .signOut => False

/-- A response answers a call that waits for one. -/
def Answers (tab : Tab User) : Event User → Prop
  | .response call _ => call < tab.pending.length
  | _ => True

instance (tab : Tab User) : (e : Event User) → Decidable (Answers tab e)
  | .response call _ => inferInstanceAs (Decidable (call < tab.pending.length))
  | .signedIn _ _ | .refreshUser | .bridge _ | .getSession | .signOut =>
    inferInstanceAs (Decidable True)

/-- Whatever stores a session is followed by a refusal. -/
def StoresRefused (events : List (Event User)) : Prop :=
  ∀ earlier e later, events = earlier ++ e :: later → e.Stores → ∃ e' ∈ later, e'.Refuses

/-- Nothing is stored. -/
def NothingStored (tab : Tab User) : Prop := tab.token = none ∧ tab.userRaw = none

variable (json) in
theorem respond_eq {tab : Tab User} {call : ℕ} (h : call < tab.pending.length)
    (reply : Reply User) :
    ∃ token, tab.respond json call reply =
      ({ tab with pending := tab.pending.eraseIdx call }).settle json token reply := by
  refine ⟨tab.pending[call], ?_⟩
  rw [Tab.respond, List.getElem?_eq_getElem h]

theorem stored_of_stores {tab : Tab User} {e : Event User} (he : e.Stores)
    (hvalid : Answers tab e) :
    ¬ NothingStored (tab.step json e) := by
  intro hempty
  have htoken := hempty.1
  cases e with
  | response call reply =>
    cases reply with
    | user user =>
      obtain ⟨token, hstep⟩ := respond_eq json hvalid (.user user)
      rw [Tab.step, hstep] at htoken
      simp [Tab.settle, Tab.setSession] at htoken
    | apiError status => exact he
    | networkError => exact he
  | bridge auth =>
    obtain ⟨hstatus, hgiven, huser⟩ := he
    obtain ⟨token, hgiven⟩ := Option.ne_none_iff_exists'.mp hgiven
    obtain ⟨user, huser⟩ := Option.ne_none_iff_exists'.mp huser
    simp only [Tab.step, Tab.appSessionBridge, hstatus, hgiven, huser, if_true] at htoken
    split_ifs at htoken with hother
    · simp [Tab.setSession] at htoken
    · simp [htoken] at hother
  | _ => exact he

theorem nothingStored_of_refuses {tab : Tab User} {e : Event User} (he : e.Refuses)
    (hvalid : Answers tab e) :
    NothingStored (tab.step json e) := by
  cases e with
  | response call reply =>
    cases reply with
    | apiError status =>
      obtain ⟨token, hstep⟩ := respond_eq json hvalid (.apiError status)
      rw [Tab.step, hstep, Tab.settle, if_pos (show status = 401 ∨ status = 403 from he)]
      exact ⟨rfl, rfl⟩
    | user user => exact he.elim
    | networkError => exact he.elim
  | _ => exact he.elim

/-- The other late events leave the storage as it is. -/
theorem nothingStored_step_iff {tab : Tab User} {e : Event User}
    (hlate : e.Late) (hstores : ¬ e.Stores)
    (hrefuses : ¬ e.Refuses) (hvalid : Answers tab e) :
    NothingStored (tab.step json e) ↔ NothingStored tab := by
  cases e with
  | response call reply =>
    obtain ⟨token, hstep⟩ := respond_eq json hvalid reply
    rw [Tab.step, hstep]
    cases reply with
    | user user => exact absurd trivial hstores
    | apiError status =>
      rw [Tab.settle, if_neg (show ¬ (status = 401 ∨ status = 403) from hrefuses)]
      exact Iff.rfl
    | networkError => exact Iff.rfl
  | bridge auth =>
    simp only [Tab.step, Tab.appSessionBridge]
    split_ifs with hstatus
    · split
      · next token user hgiven huser =>
          exact absurd ⟨hstatus, by simp [hgiven], by simp [huser]⟩ hstores
      · exact Iff.rfl
    · exact Iff.rfl
  | getSession =>
    simp only [Tab.step, Tab.getSession]
    split_ifs <;> exact Iff.rfl
  | _ => exact hlate.elim

theorem storesRefused_nil : StoresRefused ([] : List (Event User)) := by
  intro earlier e later heq
  simp at heq

/-- The last event decides, unless it does nothing. -/
theorem storesRefused_concat {events : List (Event User)} {e : Event User} :
    StoresRefused (events ++ [e]) ↔ ¬ e.Stores ∧ (e.Refuses ∨ StoresRefused events) := by
  constructor
  · intro h
    refine ⟨fun hstores => ?_,
      or_iff_not_imp_left.mpr fun hrefuses earlier e' later heq hstores => ?_⟩
    · obtain ⟨e', he', -⟩ := h events e [] rfl hstores
      cases he'
    · obtain ⟨e'', he'', hrefuses'⟩ := h earlier e' (later ++ [e]) (by simp [heq]) hstores
      rcases List.mem_append.mp he'' with he'' | he''
      · exact ⟨e'', he'', hrefuses'⟩
      · exact absurd (List.mem_singleton.mp he'' ▸ hrefuses') hrefuses
  · -- The event that stores is the last one or comes before it.
    rintro ⟨hstores, hbefore⟩ earlier e' later heq hstores'
    rcases List.eq_nil_or_concat later with rfl | ⟨later, last, rfl⟩
    · obtain ⟨-, hlast⟩ := List.append_inj' heq rfl
      obtain rfl : e = e' := by simpa using hlast
      exact absurd hstores' hstores
    · rw [List.concat_eq_append, ← List.cons_append, ← List.append_assoc] at heq
      obtain ⟨hfront, hlast⟩ := List.append_inj' heq rfl
      obtain rfl : e = last := by simpa using hlast
      rcases hbefore with hrefuses | hbefore
      · exact ⟨e, by simp, hrefuses⟩
      · obtain ⟨e'', he'', hrefuses⟩ := hbefore earlier e' later hfront hstores'
        exact ⟨e'', by simp [he''], hrefuses⟩

/-- The storage after the events that follow a sign-out. -/
theorem nothingStored_run_iff {tab : Tab User} (hempty : NothingStored tab)
    {after : List (Event User)}
    (hlate : ∀ e ∈ after, e.Late) (hvalid : Runs.Guarded (Tab.step json) Answers tab after) :
    NothingStored (Runs.run (Tab.step json) tab after) ↔ StoresRefused after := by
  induction after using List.reverseRecOn with
  | nil => exact iff_of_true hempty storesRefused_nil
  | append_singleton after e ih =>
    rw [Runs.guarded_concat] at hvalid
    have hbefore := ih (fun e he => hlate e (List.mem_append_left _ he)) hvalid.1
    rw [Runs.run_concat, storesRefused_concat]
    by_cases hstores : e.Stores
    · simp [hstores, stored_of_stores hstores hvalid.2]
    · by_cases hrefuses : e.Refuses
      · simp [hstores, hrefuses, nothingStored_of_refuses hrefuses hvalid.2]
      · rw [nothingStored_step_iff (hlate e (by simp)) hstores hrefuses hvalid.2, hbefore]
        simp [hstores, hrefuses]

theorem coherent_run {tab : Tab User} (h : Coherent json tab) (events : List (Event User)) :
    Coherent json (Runs.run (Tab.step json) tab events) :=
  (Runs.always_of_step h (fun _ e h => h.step e) events).last

/-- The page has just been loaded over what the storage holds. -/
def loaded (token userRaw : Option String) : Tab User := { token, userRaw }

theorem coherent_loaded (token userRaw : Option String) :
    Coherent json (loaded token userRaw : Tab User) := by
  intro token userRaw htoken
  cases htoken

variable (json)

/-- **When a sign-out lasts.**  Whatever happened before the sign-out and whatever the
storage held: after the responses of the calls started before it, the effects of the
bridge and the reads that follow it, the tab is signed out exactly if every one of them
that stores a session is followed by a refusal. -/
theorem signed_out_iff (token userRaw : Option String) {before after : List (Event User)}
    (hlate : ∀ e ∈ after, e.Late)
    (hvalid : Runs.Guarded (Tab.step json) Answers (loaded token userRaw)
      (before ++ .signOut :: after)) :
    SignedOut json (Runs.run (Tab.step json) (loaded token userRaw) (before ++ .signOut :: after)) ↔
      StoresRefused after := by
  rw [signedOut_iff (coherent_run (coherent_loaded token userRaw) _),
    Runs.run_append, Runs.run_cons]
  rw [Runs.guarded_append, Runs.guarded_cons] at hvalid
  exact nothingStored_run_iff ⟨rfl, rfl⟩ hlate hvalid.2.2

end

/-- Users are texts, stored as they are. -/
def plain : UserJson String := ⟨id, some⟩

/-- A response that stores the session again, and a refusal after it. -/
theorem signed_out_refused :
    SignedOut plain (Runs.run (Tab.step plain) (loaded (some "t") (some "ada"))
    ([.refreshUser, .refreshUser] ++
      .signOut :: ([.response 0 (.user "ada")] ++ [.response 0 (.apiError 401)]))) := by
  have hlasts := signed_out_iff plain (some "t") (some "ada")
    (show ∀ e ∈ [.response 0 (.user "ada")] ++ [.response 0 (.apiError 401)],
      Event.Late e by simp [Event.Late])
    (show Runs.Guarded (Tab.step plain) Answers _ ([.refreshUser, .refreshUser] ++
      .signOut :: _) by decide)
  exact hlasts.mpr (storesRefused_concat.mpr ⟨id, .inl (.inl rfl)⟩)

/-- A response that arrives after the sign-out signs the tab in again. -/
theorem signed_in_again : ¬ ∀ (token userRaw : Option String) (before after : List (Event String)),
    (∀ e ∈ before, e ≠ .signOut) → (∀ e ∈ after, e.Late) →
      Runs.Guarded (Tab.step plain) Answers (loaded token userRaw) (before ++ .signOut :: after) →
        (Runs.run (Tab.step plain) (loaded token userRaw)
      (before ++ .signOut :: after)).pending = [] →
          SignedOut plain (Runs.run (Tab.step plain) (loaded token userRaw)
            (before ++ .signOut :: after)) := by
  intro h
  have hout := h (some "t") (some "ada") [.refreshUser] [.response 0 (.user "ada")]
    (by simp) (by simp [Event.Late])
    (by decide) rfl
  exact absurd hout.token (by decide)

end ClientSession

end ZoomClone
