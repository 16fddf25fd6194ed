/-
The meetings screen (`MeetingsView.tsx`, with the tabs of `Tabs.tsx` and the buttons of
`MeetingDetail.tsx`).

The list of a tab is loaded by an effect, whose cleanup discards the response of a tab
that was left.  The refresh after a cancellation is no effect: it loads the tab that it
was created with, and its response is shown on whatever tab it arrives at.

* `ownList_iff` — the list on the screen is the one of the active tab iff every refresh
  that comes back to a list comes back to its own tab;
* `idle_spinner_iff` — when the screen waits for a list that nobody asked for, and that
  it does so until another tab is chosen;
* `requests_legal` — what the screen asks the API to start or to cancel, and the rooms
  that it enters.
-/
import ZoomClone.EffectRequests
import ZoomClone.JoinFlow
import ZoomClone.Runs

namespace ZoomClone

/-! ### The screen -/

inductive TabValue where
  | upcoming
  | previous
  | personal
  deriving DecidableEq, Repr

/-- `TAB_FILTER`: the API filter behind a tab; the personal room has no list. -/
def TabValue.filter : TabValue → Option String
  | .upcoming => some "upcoming"
  | .previous => some "recent"
  | .personal => none

/-- The tab that an effect with this tab as its dependency asks the list of. -/
def TabValue.listed (tab : TabValue) : Option TabValue :=
  if tab.filter.isSome then some tab else none

/-- An `async` handler that stands at an `await`. -/
inductive MeetingAction where
  /-- `handleStart`, at `startMeeting`. -/
  | start (meeting : MeetingView)
  /-- `handleConfirmDelete` at `cancelMeeting`, with the tab of its `refresh`. -/
  | cancel (meeting : MeetingView) (tab : TabValue)
  /-- `handleConfirmDelete` at `refresh`, which waits for the list of the tab. -/
  | refresh (tab : TabValue)

/-- A failed request: an `ApiError` with its status, or anything else. -/
inductive RequestFailure where
  | api (status : ℕ) (error : ApiError)
  | other

def RequestFailure.messageOr (fallback : String) : RequestFailure → String
  | .api _ error => error.message
  | .other => fallback

/-- A request to change the status of a meeting, as the screen sends it. -/
structure TransitionRequest where
  meeting : MeetingView
  target : MeetingStatus

structure MeetingsView where
  /-- `?selected=` of the address. -/
  requestedNumber : Option String
  tab : TabValue := .upcoming
  meetings : List MeetingView := []
  selectedId : Option MeetingId := none
  loading : Bool := true
  authError : Option String := none
  busy : Bool := false
  pendingDelete : Option MeetingView := none
  detailOpenOnMobile : Bool := false
  /-- The requests of the load effect. -/
  loads : EffectRequests TabValue := {}
  actions : List MeetingAction := []
  toasts : List String := []
  /-- Where `router.push` was told to go. -/
  routes : List String := []
  /-- The requests `startMeeting` and `cancelMeeting` so far. -/
  requests : List TransitionRequest := []
  /-- The tab whose list `meetings` is; nobody's while it is reset. -/
  owner : Option TabValue := none

namespace MeetingsView

/-- The first render, and its effect. -/
def mount (requestedNumber : Option String) : MeetingsView :=
  { requestedNumber, loads := ({} : EffectRequests TabValue).restart (some .upcoming) }

/-- The selected meeting is derived from the list: the row clicked last, the row of the
address, or the first row. -/
def selected (v : MeetingsView) : Option MeetingView :=
  ((v.meetings.find? fun m => some m.meeting.id == v.selectedId).or
    ((given v.requestedNumber).bind fun number => v.meetings.find? fun m =>
      m.meeting.meetingNumber == number)).or
    v.meetings.head?

/-- A list is on the screen, or the text that there are no meetings: the personal room has
none, and a spinner or a message takes its place. -/
def ListShown (v : MeetingsView) : Prop :=
  ¬ (v.tab = .personal ∨ v.loading = true ∨ (given v.authError).isSome = true)

instance (v : MeetingsView) : Decidable v.ListShown := inferInstanceAs (Decidable (¬ _))

/-- The rows on the screen. -/
def rows (v : MeetingsView) : List MeetingView := if v.ListShown then v.meetings else []

/-- `canStart` and `canDelete` of the detail pane. -/
def canStart (m : MeetingView) : Bool := m.meeting.status = .scheduled ∨ m.meeting.status = .ended

def canDelete (m : MeetingView) : Bool := m.meeting.status = .scheduled

/-- `changeTab`, and the effect if the tab is another one. -/
def changeTab (v : MeetingsView) (next : TabValue) : MeetingsView :=
  { v with
    tab := next
    detailOpenOnMobile := false
    authError := none
    meetings := []
    owner := none
    loading := next ≠ .personal
    loads := if next = v.tab then v.loads else v.loads.restart next.listed }

/-- The `then` of the effect. -/
def loaded (v : MeetingsView) (i : ℕ) (items : List MeetingView) : MeetingsView :=
  match v.loads.answer i with
  | none => v
  | some tab => { v with
    meetings := items, owner := some tab, loading := false, loads := v.loads.settle }

/-- The `catch` of the effect. -/
def loadFailed (v : MeetingsView) (i : ℕ) (failure : RequestFailure) : MeetingsView :=
  match v.loads.answer i with
  | none => v
  | some tab =>
    { v with
      meetings := []
      owner := some tab
      loading := false
      loads := v.loads.settle
      authError :=
        match failure with
        | .api status error =>
          if status = 401 ∨ status = 403 then
            some "Sign in to see your meetings." else some error.message
        | .other => v.authError }

def handleSelect (v : MeetingsView) (m : MeetingView) : MeetingsView :=
  { v with selectedId := some m.meeting.id, detailOpenOnMobile := true }

/-- `handleStart`, up to its await. -/
def handleStart (v : MeetingsView) (m : MeetingView) : MeetingsView :=
  if m.meeting.status ≠ .live then
    { v with
      busy := true, actions := v.actions ++ [.start m], requests := v.requests ++ [⟨m, .live⟩] }
  else { v with busy := true, routes := v.routes ++ ["/wc/" ++ m.meeting.meetingNumber] }

/-- `handleConfirmDelete`, up to its await. -/
def handleConfirmDelete (v : MeetingsView) : MeetingsView :=
  match v.pendingDelete with
  | none => v
  | some m =>
    { v with
      busy := true, actions := v.actions ++ [.cancel m v.tab],
      requests := v.requests ++ [⟨m, .cancelled⟩] }

/-- `cancelMeeting` is answered: `handleConfirmDelete` goes on to the `refresh` of the tab. -/
def cancelled (v : MeetingsView) (k : ℕ) (tab : TabValue) : MeetingsView :=
  let v := { v with
    toasts := v.toasts ++ ["Meeting cancelled"]
    pendingDelete := none
    selectedId := none
    detailOpenOnMobile := false }
  if tab.filter.isSome then { v with actions := v.actions.set k (.refresh tab) }
  else { v with actions := v.actions.eraseIdx k, busy := false }

/-- The handler is over. -/
def finish (v : MeetingsView) (k : ℕ) : MeetingsView :=
  { v with actions := v.actions.eraseIdx k, busy := false }

inductive Event where
  | changeTab (next : TabValue)
  | loaded (i : ℕ) (items : List MeetingView)
  | loadFailed (i : ℕ) (failure : RequestFailure)
  | select (m : MeetingView)
  | back
  | start
  | delete
  | keep
  | confirmDelete
  /-- The request that action `k` waits for is answered; the items are those of a list. -/
  | answered (k : ℕ) (items : List MeetingView)
  | failed (k : ℕ) (failure : RequestFailure)
  | startPersonalRoom (personalMeetingId : String)

/-- One event.  A click changes something if what it is made on is on the screen and is
not disabled; responses come at any time. -/
def next (v : MeetingsView) : Event → MeetingsView
  | .changeTab tab => v.changeTab tab
  | .loaded i items => v.loaded i items
  | .loadFailed i failure => v.loadFailed i failure
  | .select m => if m ∈ v.rows then v.handleSelect m else v
  | .back => { v with detailOpenOnMobile := false }
  | .start =>
    match v.selected with
    | none => v
    | some m => if v.tab ≠ .personal ∧ ¬ v.busy ∧ canStart m then v.handleStart m else v
  | .delete =>
    match v.selected with
    | none => v
    | some m => if v.tab ≠ .personal ∧ ¬ v.busy ∧ canDelete m then
      { v with pendingDelete := some m } else v
  | .keep => if v.tab ≠ .personal then { v with pendingDelete := none } else v
  | .confirmDelete => if v.tab ≠ .personal ∧ ¬ v.busy then v.handleConfirmDelete else v
  | .answered k items =>
    match v.actions[k]? with
    | none => v
    | some (.start m) =>
      { v with
        actions := v.actions.eraseIdx k, routes := v.routes ++ ["/wc/" ++ m.meeting.meetingNumber] }
    | some (.cancel _ tab) => v.cancelled k tab
    | some (.refresh tab) => { v.finish k with meetings := items, owner := some tab }
  | .failed k failure =>
    match v.actions[k]? with
    | none => v
    | some (.start _) =>
      { v.finish k with toasts := v.toasts ++ [failure.messageOr "Could not start the meeting."] }
    | some (.cancel _ _) =>
      { v.finish k with toasts := v.toasts ++ [failure.messageOr "Could not cancel the meeting."] }
    | some (.refresh _) => v.finish k
  | .startPersonalRoom number =>
    if v.tab = .personal ∧ ¬ v.busy then { v with routes := v.routes ++ ["/wc/" ++ number] } else v

variable {v : MeetingsView} {e : Event} {requestedNumber : Option String} {evs : List Event}

/-! ### What the events leave alone -/

/-- Choosing a tab, and what comes of the load effect. -/
def Event.Loads : Event → Bool
  | .changeTab _ => true
  | .loaded _ _ => true
  | .loadFailed _ _ => true
  | _ => false

/-- The tab whose refresh the event brings back. -/
def refreshOf (v : MeetingsView) : Event → Option TabValue
  | .answered k _ =>
    match v.actions[k]? with
    | some (.refresh tab) => some tab
    | _ => none
  | _ => none

/-- The list, its tab and what may take its place are those of before. -/
structure SameList (v w : MeetingsView) : Prop where
  tab : w.tab = v.tab
  loads : w.loads = v.loads
  loading : w.loading = v.loading
  authError : w.authError = v.authError
  owner : w.owner = v.owner
  meetings : w.meetings = v.meetings

theorem SameList.refl (v : MeetingsView) : SameList v v := ⟨rfl, rfl, rfl, rfl, rfl, rfl⟩

theorem sameList_handleStart (v : MeetingsView) (m : MeetingView) :
    SameList v (v.handleStart m) := by
  rw [handleStart]
  split <;> exact ⟨rfl, rfl, rfl, rfl, rfl, rfl⟩

theorem sameList_handleConfirmDelete (v : MeetingsView) : SameList v v.handleConfirmDelete := by
  rw [handleConfirmDelete]
  split <;> exact ⟨rfl, rfl, rfl, rfl, rfl, rfl⟩

theorem sameList_cancelled (v : MeetingsView) (k : ℕ) (tab : TabValue) :
    SameList v (v.cancelled k tab) := by
  rw [cancelled]
  split <;> exact ⟨rfl, rfl, rfl, rfl, rfl, rfl⟩

/-- The buttons and the handlers behind them leave the list alone, but for a refresh. -/
theorem sameList_next (h : e.Loads = false) (hrefresh : v.refreshOf e = none) :
    SameList v (v.next e) := by
  cases e with
  | changeTab tab => cases h
  | loaded i items => cases h
  | loadFailed i failure => cases h
  | back => exact ⟨rfl, rfl, rfl, rfl, rfl, rfl⟩
  | start =>
    dsimp only [next]
    split
    · exact .refl v
    · split
      · exact sameList_handleStart v _
      · exact .refl v
  | delete =>
    dsimp only [next]
    split
    · exact .refl v
    · split <;> exact ⟨rfl, rfl, rfl, rfl, rfl, rfl⟩
  | confirmDelete =>
    dsimp only [next]
    split
    · exact sameList_handleConfirmDelete v
    · exact .refl v
  | answered k items =>
    dsimp only [next, refreshOf] at hrefresh ⊢
    split
    · exact .refl v
    · exact ⟨rfl, rfl, rfl, rfl, rfl, rfl⟩
    · exact sameList_cancelled v k _
    · rename_i haction
      rw [haction] at hrefresh
      cases hrefresh
  | failed k failure =>
    dsimp only [next]
    split <;> exact ⟨rfl, rfl, rfl, rfl, rfl, rfl⟩
  | _ =>
    dsimp only [next]
    split <;> exact ⟨rfl, rfl, rfl, rfl, rfl, rfl⟩

/-- A refresh shows its list, on whatever tab is active. -/
theorem next_refresh {tab : TabValue} (h : v.refreshOf e = some tab) :
    (v.next e).owner = some tab ∧ (v.next e).tab = v.tab ∧ (v.next e).loads = v.loads ∧
      (v.next e).loading = v.loading ∧ (v.next e).authError = v.authError := by
  cases e with
  | answered k items =>
    dsimp only [next, refreshOf] at h ⊢
    split at h
    · rename_i haction
      obtain rfl : _ = tab := Option.some.inj h
      rw [haction]
      exact ⟨rfl, rfl, rfl, rfl, rfl⟩
    · cases h
  | _ => cases h

/-- Nothing but the load effect and the tabs have to do with the spinner. -/
theorem next_loads (h : e.Loads = false) :
    (v.next e).tab = v.tab ∧ (v.next e).loads = v.loads ∧ (v.next e).loading = v.loading := by
  cases hrefresh : v.refreshOf e with
  | none =>
    have hsame := sameList_next h hrefresh
    exact ⟨hsame.tab, hsame.loads, hsame.loading⟩
  | some tab =>
    obtain ⟨-, htab, hsame, hloading, -⟩ := next_refresh hrefresh
    exact ⟨htab, hsame, hloading⟩

/-! ### The lists of the load effect -/

/-- What the effect waits for is the list of the active tab, which is not the personal
room, and the spinner stands in for it. -/
def LoadsActive (v : MeetingsView) : Prop :=
  ∀ t, v.loads.awaited = some t → t = v.tab ∧ t ≠ .personal ∧ v.loading = true

theorem loadsActive_mount : (mount requestedNumber).LoadsActive := by
  intro t ht
  cases ht
  exact ⟨rfl, by simp, rfl⟩

theorem ne_personal_of_listed {tab t : TabValue} (h : tab.listed = some t) :
    t = tab ∧ t ≠ .personal := by
  cases tab with
  | personal => cases h
  | _ =>
    cases h
    simp

theorem LoadsActive.next (h : v.LoadsActive) (e : Event) : (v.next e).LoadsActive := by
  by_cases hloads : e.Loads = false
  · obtain ⟨htab, hsame, hloading⟩ := next_loads (v := v) hloads
    rwa [LoadsActive, htab, hsame, hloading]
  · intro t ht
    cases e with
    | changeTab tab =>
      simp only [MeetingsView.next, changeTab] at ht ⊢
      split at ht
      · -- the active tab is chosen again, and its list may still be on its way
        rename_i hsame
        obtain ⟨htab, hne, -⟩ := h t ht
        subst hsame htab
        exact ⟨rfl, hne, by simpa using hne⟩
      · rw [EffectRequests.awaited_restart] at ht
        obtain ⟨htab, hne⟩ := ne_personal_of_listed ht
        subst htab
        exact ⟨rfl, hne, by simpa using hne⟩
    | loaded i items =>
      simp only [MeetingsView.next, loaded] at ht ⊢
      cases hanswer : v.loads.answer i with
      | none =>
        rw [hanswer] at ht
        exact h t ht
      | some tab =>
        rw [hanswer] at ht
        simp at ht
    | loadFailed i failure =>
      simp only [MeetingsView.next, loadFailed] at ht ⊢
      cases hanswer : v.loads.answer i with
      | none =>
        rw [hanswer] at ht
        exact h t ht
      | some tab =>
        rw [hanswer] at ht
        simp at ht
    | _ => exact absurd rfl hloads

/-! ### Whose list it is -/

/-- A list on the screen is the one of the active tab. -/
def OwnList (v : MeetingsView) : Prop := v.ListShown → v.owner = some v.tab

/-- A refresh that comes back to a list on the screen comes back to the tab that it was made
for. -/
def RefreshInTime (v : MeetingsView) (e : Event) : Prop :=
  ∀ t, v.refreshOf e = some t → v.ListShown → t = v.tab

theorem listShown_congr {w : MeetingsView} (htab : w.tab = v.tab) (hloading : w.loading = v.loading)
    (herror : w.authError = v.authError) : w.ListShown ↔ v.ListShown := by
  rw [ListShown, ListShown, htab, hloading, herror]

/-- The load effect shows the list of the active tab. -/
theorem OwnList.next_of_loads (hawaits : v.LoadsActive) (h : v.OwnList) (hloads : e.Loads = true) :
    (v.next e).OwnList := by
  cases e with
  | changeTab tab =>
    -- the spinner is on the screen, or the personal room
    intro hshown
    refine absurd ?_ hshown
    by_cases hpersonal : tab = .personal
    · exact .inl hpersonal
    · exact .inr (.inl (decide_eq_true hpersonal))
  | loaded i items =>
    simp only [MeetingsView.next, loaded]
    cases hanswer : v.loads.answer i with
    | none => exact h
    | some tab =>
      intro _
      exact congrArg some (hawaits tab (EffectRequests.awaited_of_answer hanswer)).1
  | loadFailed i failure =>
    simp only [MeetingsView.next, loadFailed]
    cases hanswer : v.loads.answer i with
    | none => exact h
    | some tab =>
      intro _
      exact congrArg some (hawaits tab (EffectRequests.awaited_of_answer hanswer)).1
  | _ => cases hloads

/-- One event keeps the list that of the active tab iff it is no refresh out of time. -/
theorem ownList_next_iff (hawaits : v.LoadsActive) (h : v.OwnList) :
    (v.next e).OwnList ↔ v.RefreshInTime e := by
  cases hrefresh : v.refreshOf e with
  | some tab =>
    obtain ⟨howner, htab, -, hloading, herror⟩ := next_refresh hrefresh
    rw [OwnList, RefreshInTime, listShown_congr htab hloading herror, howner, htab, hrefresh]
    simp only [Option.some.injEq, forall_eq']
  | none =>
    have hin : v.RefreshInTime e := by simp [RefreshInTime, hrefresh]
    refine iff_of_true ?_ hin
    by_cases hloads : e.Loads = false
    · have hsame := sameList_next hloads hrefresh
      rwa [OwnList, listShown_congr hsame.tab hsame.loading hsame.authError, hsame.owner, hsame.tab]
    · exact h.next_of_loads hawaits (by simpa using hloads)

/-- The tab whose request the event answers, and the list that it brings. -/
def answers (v : MeetingsView) : Event → Option (TabValue × List MeetingView)
  | .loaded i items => (v.loads.answer i).map (·, items)
  | .loadFailed i _ => (v.loads.answer i).map (·, [])
  | .answered k items => (v.refreshOf (.answered k items)).map (·, items)
  | _ => none

/-- The list is the one of before, nobody's, or the one that the event brings. -/
theorem owner_next {t : TabValue} (h : (v.next e).owner = some t) :
    v.answers e = some (t, (v.next e).meetings) ∨
      v.owner = some t ∧ (v.next e).meetings = v.meetings := by
  have hsame (hloads : e.Loads = false) (hrefresh : v.refreshOf e = none) :
      v.owner = some t ∧ (v.next e).meetings = v.meetings := by
    have hlist := sameList_next hloads hrefresh
    exact ⟨hlist.owner ▸ h, hlist.meetings⟩
  cases e with
  | changeTab tab => cases h
  | loaded i items =>
    simp only [next, loaded, answers] at h ⊢
    cases hanswer : v.loads.answer i with
    | none =>
      rw [hanswer] at h
      exact .inr ⟨h, rfl⟩
    | some tab =>
      rw [hanswer] at h
      exact .inl (by rw [Option.map_some, Option.some.inj h])
  | loadFailed i failure =>
    simp only [next, loadFailed, answers] at h ⊢
    cases hanswer : v.loads.answer i with
    | none =>
      rw [hanswer] at h
      exact .inr ⟨h, rfl⟩
    | some tab =>
      rw [hanswer] at h
      exact .inl (by rw [Option.map_some, Option.some.inj h])
  | answered k items =>
    cases hrefresh : v.refreshOf (.answered k items) with
    | none => exact .inr (hsame rfl hrefresh)
    | some tab =>
      left
      have howner := (next_refresh hrefresh).1.symm.trans h
      simp only [refreshOf] at hrefresh
      split at hrefresh
      · rename_i haction
        simp only [next, answers, refreshOf, haction, Option.map_some]
        rw [Option.some.inj hrefresh, Option.some.inj howner]
      · cases hrefresh
  | _ => exact .inr (hsame rfl rfl)

/-- A list that is somebody's was brought for that tab. -/
theorem happened_of_owner {t : TabValue}
    (h : (Runs.run next (mount requestedNumber) evs).owner = some t) :
    Runs.Happened next
      (fun v e => v.answers e = some (t, (Runs.run next (mount requestedNumber) evs).meetings))
      (mount requestedNumber) evs := by
  induction evs using List.reverseRecOn with
  | nil => cases h
  | append_singleton evs e ih =>
    rw [Runs.run_concat] at h ⊢
    rw [Runs.happened_concat]
    rcases owner_next h with hanswer | ⟨howner, hmeetings⟩
    · exact .inr hanswer
    · rw [hmeetings]
      exact .inl (ih howner)

/-- **Whose list is on the screen.**  In every run, the list on the screen is the one of the
active tab throughout iff every refresh after a cancellation that comes back to a list on the
screen comes back to the tab that it was made for; and the list of a tab is what the API
answered to a request for that tab. -/
theorem ownList_iff (requestedNumber : Option String) (evs : List Event) :
    (Runs.Always next OwnList (mount requestedNumber) evs ↔
      Runs.Guarded next RefreshInTime (mount requestedNumber) evs) ∧
    ∀ t, (Runs.run next (mount requestedNumber) evs).owner = some t →
      Runs.Happened next
        (fun v e => v.answers e = some (t, (Runs.run next (mount requestedNumber) evs).meetings))
        (mount requestedNumber) evs := by
  refine ⟨Runs.always_iff_guarded loadsActive_mount ?_ (fun v e h => h.next e)
    (fun v e hawaits h => ownList_next_iff hawaits h) evs, fun t ht => happened_of_owner ht⟩
  intro hshown
  exact absurd (.inr (.inl rfl)) hshown

/-! ### The spinner -/

/-- The screen waits for a list, and no response will bring it. -/
structure IdleSpinner (v : MeetingsView) : Prop where
  onScreen : v.tab ≠ .personal
  loading : v.loading = true
  awaited : v.loads.awaited = none

/-- The active tab is not chosen again once its list has come or failed to. -/
def ChoosesAnother (v : MeetingsView) : Event → Prop
  | .changeTab tab => tab = v.tab → tab ≠ .personal → v.loading = true
  | _ => True

theorem idleSpinner_congr {w : MeetingsView} (htab : w.tab = v.tab) (hloads : w.loads = v.loads)
    (hloading : w.loading = v.loading) : w.IdleSpinner ↔ v.IdleSpinner := by
  constructor <;> rintro ⟨h₁, h₂, h₃⟩ <;> constructor <;> simp_all

theorem awaited_listed {tab : TabValue} (h : tab ≠ .personal) : tab.listed ≠ none := by
  cases tab <;> simp_all [TabValue.listed, TabValue.filter]

/-- Choosing a tab leaves an idle spinner behind if it is the active one with its list. -/
theorem idleSpinner_changeTab {tab : TabValue} (h : v.LoadsActive) (hidle : ¬ v.IdleSpinner) :
    ¬ (v.changeTab tab).IdleSpinner ↔ v.ChoosesAnother (.changeTab tab) := by
  by_cases hsame : tab = v.tab
  · subst hsame
    constructor
    · intro hnot _ hne
      by_contra hloaded
      -- nothing is awaited any more, and the effect does not run
      have hawaited : v.loads.awaited = none := by
        cases hawaits : v.loads.awaited with
        | none => rfl
        | some t => exact absurd (h t hawaits).2.2 hloaded
      exact hnot ⟨hne, by simpa [changeTab] using hne, by simpa [changeTab] using hawaited⟩
    · intro hanother hnew
      have hne : v.tab ≠ .personal := hnew.onScreen
      exact hidle ⟨hne, hanother rfl hne, by simpa [changeTab] using hnew.awaited⟩
  · refine iff_of_true ?_ (fun heq => absurd heq hsame)
    intro hnew
    have hlisted : tab.listed = none := by simpa [changeTab, hsame] using hnew.awaited
    exact awaited_listed hnew.onScreen hlisted

theorem not_idleSpinner_loaded {i : ℕ} {items : List MeetingView} (hidle : ¬ v.IdleSpinner) :
    ¬ (v.loaded i items).IdleSpinner := by
  rw [loaded]
  split
  · exact hidle
  · rintro ⟨-, hloading, -⟩
    cases hloading

theorem not_idleSpinner_loadFailed {i : ℕ} {failure : RequestFailure} (hidle : ¬ v.IdleSpinner) :
    ¬ (v.loadFailed i failure).IdleSpinner := by
  unfold loadFailed
  cases v.loads.answer i with
  | none => exact hidle
  | some tab =>
    rintro ⟨-, hloading, -⟩
    cases hloading

theorem idleSpinner_next_iff (h : v.LoadsActive) (hidle : ¬ v.IdleSpinner) :
    ¬ (v.next e).IdleSpinner ↔ v.ChoosesAnother e := by
  by_cases hloads : e.Loads = false
  · obtain ⟨htab, hsame, hloading⟩ := next_loads (v := v) hloads
    rw [idleSpinner_congr htab hsame hloading]
    refine iff_of_true hidle ?_
    cases e with
    | changeTab tab => cases hloads
    | _ => trivial
  · cases e with
    | changeTab tab => exact idleSpinner_changeTab h hidle
    | loaded i items => exact iff_of_true (not_idleSpinner_loaded hidle) trivial
    | loadFailed i failure => exact iff_of_true (not_idleSpinner_loadFailed hidle) trivial
    | _ => exact absurd rfl hloads

/-- Only another tab ends an idle spinner. -/
theorem IdleSpinner.next (h : v.IdleSpinner) (hstay : ∀ t, e = .changeTab t → t = v.tab) :
    (v.next e).IdleSpinner ∧ (v.next e).tab = v.tab := by
  by_cases hloads : e.Loads = false
  · obtain ⟨htab, hsame, hloading⟩ := next_loads (v := v) hloads
    exact ⟨(idleSpinner_congr htab hsame hloading).mpr h, htab⟩
  · have hnone (i : ℕ) : v.loads.answer i = none := by
      cases hanswer : v.loads.answer i with
      | none => rfl
      | some t => simpa [h.awaited] using EffectRequests.awaited_of_answer hanswer
    cases e with
    | changeTab tab =>
      obtain rfl := hstay tab rfl
      refine ⟨⟨h.onScreen, ?_, ?_⟩, rfl⟩
      · simpa [MeetingsView.next, changeTab] using h.onScreen
      · simpa [MeetingsView.next, changeTab] using h.awaited
    | loaded i items =>
      dsimp only [MeetingsView.next, loaded]
      rw [hnone]
      exact ⟨h, rfl⟩
    | loadFailed i failure =>
      dsimp only [MeetingsView.next, loadFailed]
      rw [hnone]
      exact ⟨h, rfl⟩
    | _ => exact absurd rfl hloads

theorem IdleSpinner.run (h : v.IdleSpinner) (hstay : ∀ t, .changeTab t ∈ evs → t = v.tab) :
    (Runs.run MeetingsView.next v evs).IdleSpinner := by
  induction evs generalizing v with
  | nil => exact h
  | cons e evs ih =>
    obtain ⟨hidle, htab⟩ := h.next (e := e) fun t ht => hstay t (by simp [ht])
    exact ih hidle fun t ht => by rw [htab]; exact hstay t (by simp [ht])

theorem IdleSpinner.rows (h : v.IdleSpinner) : v.rows = [] := by
  have hshown : ¬ v.ListShown := not_not.mpr (.inr (.inl h.loading))
  rw [MeetingsView.rows, if_neg hshown]

/-- **The spinner nobody ends.**  In every run, the spinner is on the screen with no request
behind it at some time iff the active tab was chosen again after its list had come or failed
to; from then on the screen has no rows until another tab is chosen. -/
theorem idle_spinner_iff (requestedNumber : Option String) (evs : List Event) :
    (Runs.Always next (¬ IdleSpinner ·) (mount requestedNumber) evs ↔
      Runs.Guarded next ChoosesAnother (mount requestedNumber) evs) ∧
    ((Runs.run next (mount requestedNumber) evs).IdleSpinner → ∀ later : List Event,
      (∀ t, .changeTab t ∈ later → t = (Runs.run next (mount requestedNumber) evs).tab) →
        (Runs.run next (mount requestedNumber) (evs ++ later)).rows = []) := by
  constructor
  · refine Runs.always_iff_guarded loadsActive_mount ?_ (fun v e h => h.next e)
      (fun v e h hidle => idleSpinner_next_iff h hidle) evs
    rintro ⟨-, -, hawaited⟩
    cases hawaited
  · intro hidle later hstay
    rw [Runs.run_append]
    exact (hidle.run hstay).rows

/-! ### What the screen asks for -/

/-- The meeting that the detail pane shows: the selected row of the list. -/
structure Details (v : MeetingsView) (m : MeetingView) : Prop where
  pane : v.tab ≠ .personal
  selected : v.selected = some m
  listed : m ∈ v.meetings

/-- The selected meeting is one of the list. -/
theorem mem_of_selected {m : MeetingView} (h : v.selected = some m) : m ∈ v.meetings := by
  simp only [selected, Option.or_eq_some_iff, Option.bind_eq_some_iff] at h
  rcases h with (h | ⟨-, number, -, h⟩) | ⟨-, h⟩
  · exact List.mem_of_find?_eq_some h
  · exact List.mem_of_find?_eq_some h
  · exact List.mem_of_head? h

theorem details_of_selected {m : MeetingView} (htab : v.tab ≠ .personal) (h : v.selected = some m) :
    v.Details m :=
  ⟨htab, h, mem_of_selected h⟩

theorem canTransition_of_canStart {m : MeetingView} (h : canStart m = true) :
    canTransition m.meeting.status .live = true := by
  simp only [canStart, decide_eq_true_eq] at h
  rcases h with h | h <;> rw [h] <;> rfl

theorem canTransition_of_canDelete {m : MeetingView} (h : canDelete m = true) :
    canTransition m.meeting.status .cancelled = true := by
  simp only [canDelete, decide_eq_true_eq] at h
  rw [h]
  rfl

/-- A row that can be started is not live, so `handleStart` asks for the start. -/
theorem handleStart_eq {m : MeetingView} (h : canStart m = true) : v.handleStart m =
    { v with
      busy := true, actions := v.actions ++ [.start m],
      requests := v.requests ++ [⟨m, .live⟩] } := by
  have hlive : m.meeting.status ≠ .live := by
    intro hlive
    have hlegal := canTransition_of_canStart h
    rw [hlive] at hlegal
    cases hlegal
  rw [handleStart, if_pos hlive]

/-- What the buttons and the handlers behind them work on. -/
structure Handlers where
  busy : Bool
  actions : List MeetingAction
  requests : List TransitionRequest
  routes : List String
  pendingDelete : Option MeetingView

def handlers (v : MeetingsView) : Handlers :=
  ⟨v.busy, v.actions, v.requests, v.routes, v.pendingDelete⟩

/-- What an event does to them. -/
inductive Acts (v : MeetingsView) : Event → Handlers → Prop where
  | same {e : Event} : Acts v e v.handlers
  | keep {e : Event} : Acts v e { v.handlers with pendingDelete := none }
  | start {m : MeetingView} (hm : v.Details m) (hcan : canStart m = true) (hbusy : v.busy = false) :
    Acts v .start { v.handlers with
      busy := true
      actions := v.actions ++ [.start m]
      requests := v.requests ++ [⟨m, .live⟩] }
  | delete {m : MeetingView} (hm : v.Details m) (hcan : canDelete m = true) :
    Acts v .delete { v.handlers with pendingDelete := some m }
  | confirmDelete {m : MeetingView} (hm : v.pendingDelete = some m) (hbusy : v.busy = false) :
    Acts v .confirmDelete { v.handlers with
      busy := true
      actions := v.actions ++ [.cancel m v.tab]
      requests := v.requests ++ [⟨m, .cancelled⟩] }
  /-- `startMeeting` is answered. -/
  | enter {k : ℕ} {items : List MeetingView} {m : MeetingView}
      (ha : v.actions[k]? = some (.start m)) :
    Acts v (.answered k items) { v.handlers with
      actions := v.actions.eraseIdx k
      routes := v.routes ++ ["/wc/" ++ m.meeting.meetingNumber] }
  /-- `cancelMeeting` is answered, and the list is asked for again. -/
  | refresh {e : Event} {k : ℕ} {m : MeetingView} {tab : TabValue}
    (ha : v.actions[k]? = some (.cancel m tab)) :
    Acts v e { v.handlers with actions := v.actions.set k (.refresh tab), pendingDelete := none }
  /-- A handler is over, and the dialog stays as it is or is closed. -/
  | finish {e : Event} {k : ℕ} {a : MeetingAction} {pendingDelete : Option MeetingView}
    (ha : v.actions[k]? = some a) (hpending : ∀ m, pendingDelete = some m →
      v.pendingDelete = some m) :
    Acts v e { v.handlers with
      busy := false
      actions := v.actions.eraseIdx k
      pendingDelete }
  | personalRoom {number : String} (htab : v.tab = .personal) :
    Acts v (.startPersonalRoom number) { v.handlers with routes := v.routes ++ ["/wc/" ++ number] }

theorem acts_cancelled {k : ℕ} {m : MeetingView} {tab : TabValue}
    (ha : v.actions[k]? = some (.cancel m tab)) : v.Acts e (v.cancelled k tab).handlers := by
  rw [cancelled]
  split
  · exact .refresh ha
  · refine .finish ha ?_
    rintro m' ⟨⟩

/-- **What an event does to the handlers.** -/
theorem acts_next (v : MeetingsView) (e : Event) : v.Acts e (v.next e).handlers := by
  cases e with
  | loaded i items =>
    simp only [next, loaded]
    split <;> exact .same
  | loadFailed i failure =>
    simp only [next, loadFailed]
    split <;> exact .same
  | select m =>
    simp only [next]
    split <;> exact .same
  | start =>
    simp only [next]
    split
    · exact .same
    · rename_i m hm
      split
      · rename_i hcan
        rw [handleStart_eq hcan.2.2]
        exact .start (details_of_selected hcan.1 hm) hcan.2.2 (by simpa using hcan.2.1)
      · exact .same
  | delete =>
    simp only [next]
    split
    · exact .same
    · rename_i m hm
      split
      · rename_i hcan
        exact .delete (details_of_selected hcan.1 hm) hcan.2.2
      · exact .same
  | keep =>
    simp only [next]
    split
    · exact .keep
    · exact .same
  | confirmDelete =>
    simp only [next]
    split
    · rename_i hcan
      rw [handleConfirmDelete]
      split
      · exact .same
      · rename_i m hm
        exact .confirmDelete hm (by simpa using hcan.2)
    · exact .same
  | answered k items =>
    simp only [next]
    split
    · exact .same
    · rename_i ha
      exact .enter ha
    · rename_i ha
      exact acts_cancelled ha
    · rename_i ha
      exact .finish ha fun m hm => hm
  | failed k failure =>
    simp only [next]
    split
    · exact .same
    all_goals
      rename_i ha
      exact .finish ha fun m hm => hm
  | startPersonalRoom number =>
    simp only [next]
    split
    · rename_i hcan
      exact .personalRoom hcan.1
    · exact .same
  | _ => exact .same

/-- At most one action is under way, and only while the screen is busy. -/
def OneAction (h : Handlers) : Prop := h.actions.length ≤ if h.busy then 1 else 0

theorem OneAction.no_actions {h : Handlers} (hone : OneAction h) (hbusy : h.busy = false) :
    h.actions = [] := by
  rw [OneAction, hbusy] at hone
  simpa using hone

/-- The only action under way is over. -/
theorem eraseIdx_eq_nil {actions : List MeetingAction} {k : ℕ} {a : MeetingAction}
    (hone : actions.length ≤ 1) (ha : actions[k]? = some a) : actions.eraseIdx k = [] := by
  obtain ⟨hk, -⟩ := List.getElem?_eq_some_iff.mp ha
  rw [← List.length_eq_zero_iff, List.length_eraseIdx_of_lt hk]
  omega

theorem OneAction.next (hone : OneAction v.handlers) : OneAction (v.next e).handlers := by
  have hatMost : v.actions.length ≤ 1 := by
    have hlength : v.actions.length ≤ if v.busy then 1 else 0 := hone
    split at hlength <;> omega
  have hacts := acts_next v e
  generalize (v.next e).handlers = h at hacts
  cases hacts with
  | same => exact hone
  | keep => exact hone
  | start hm hcan hbusy =>
    have hnone : v.actions = [] := hone.no_actions hbusy
    simp [OneAction, hnone]
  | delete hm hcan => exact hone
  | confirmDelete hm hbusy =>
    have hnone : v.actions = [] := hone.no_actions hbusy
    simp [OneAction, hnone]
  | enter ha => simp [OneAction, eraseIdx_eq_nil hatMost ha]
  | refresh ha =>
    rw [OneAction] at hone ⊢
    rwa [List.length_set]
  | finish ha hpending => simp [OneAction, eraseIdx_eq_nil hatMost ha]
  | personalRoom htab => exact hone

/-- Somebody who waits for a start has asked for it. -/
def StartsAsked (h : Handlers) : Prop := ∀ m, .start m ∈ h.actions → ⟨m, .live⟩ ∈ h.requests

theorem StartsAsked.next (hasked : StartsAsked v.handlers) : StartsAsked (v.next e).handlers := by
  have hacts := acts_next v e
  generalize (v.next e).handlers = h at hacts
  cases hacts with
  | same => exact hasked
  | keep => exact hasked
  | start hm hcan hbusy =>
    intro m' hm'
    rcases List.mem_append.mp hm' with hm' | hm'
    · exact List.mem_append_left _ (hasked m' hm')
    · cases List.mem_singleton.mp hm'
      exact List.mem_append_right _ (List.mem_singleton_self _)
  | delete hm hcan => exact hasked
  | confirmDelete hm hbusy =>
    intro m' hm'
    rcases List.mem_append.mp hm' with hm' | hm'
    · exact List.mem_append_left _ (hasked m' hm')
    · cases List.mem_singleton.mp hm'
  | enter ha => exact fun m' hm' => hasked m' (List.mem_of_mem_eraseIdx hm')
  | refresh ha =>
    intro m' hm'
    rcases List.mem_or_eq_of_mem_set hm' with hm' | hm'
    · exact hasked m' hm'
    · cases hm'
  | finish ha hpending => exact fun m' hm' => hasked m' (List.mem_of_mem_eraseIdx hm')
  | personalRoom htab => exact hasked

/-- The dialog was opened from the detail pane of the meeting, and has asked about it ever
since. -/
def Chosen (requestedNumber : Option String) (evs : List Event) (m : MeetingView) : Prop :=
  Runs.Since next (fun v e => e = .delete ∧ v.Details m) (fun v => v.pendingDelete = some m)
    (mount requestedNumber) evs

/-- The start of a meeting is asked for by a click in its detail pane, its cancellation by a
click in the dialog that was opened there. -/
def Asked (requestedNumber : Option String) (evs : List Event) (r : TransitionRequest) : Prop :=
  (r.target = .live ∧
    Runs.Happened next (fun v e => e = .start ∧ v.Details r.meeting) (mount requestedNumber) evs) ∨
  (r.target = .cancelled ∧
    ∃ pre, pre ++ [.confirmDelete] <+: evs ∧ Chosen requestedNumber pre r.meeting)

theorem Asked.concat {r : TransitionRequest} (h : Asked requestedNumber evs r) :
    Asked requestedNumber (evs ++ [e]) r := by
  rcases h with ⟨htarget, h⟩ | ⟨htarget, pre, hpre, h⟩
  · exact .inl ⟨htarget, Runs.happened_concat.mpr (.inl h)⟩
  · exact .inr ⟨htarget, pre, hpre.trans (List.prefix_append _ _), h⟩

/-- The event takes the screen to the room of a meeting, for its start was asked for and is
answered, or to the personal room. -/
def Enters (route : String) (v : MeetingsView) (e : Event) : Prop :=
  (∃ k items m, e = .answered k items ∧ v.actions[k]? = some (.start m) ∧
    ⟨m, .live⟩ ∈ v.requests ∧ route = "/wc/" ++ m.meeting.meetingNumber) ∨
  ∃ number, e = .startPersonalRoom number ∧ v.tab = .personal ∧ route = "/wc/" ++ number

/-- What the events of a run leave in the handlers. -/
structure Sound (requestedNumber : Option String) (evs : List Event) (h : Handlers) : Prop where
  pendingDelete : ∀ m, h.pendingDelete = some m → canDelete m = true ∧ Chosen requestedNumber evs m
  requests : ∀ r ∈ h.requests, canTransition r.meeting.meeting.status r.target = true ∧
    Asked requestedNumber evs r
  routes : ∀ route ∈ h.routes, Runs.Happened next (Enters route) (mount requestedNumber) evs

theorem sound_mount : Sound requestedNumber [] (mount requestedNumber).handlers where
  pendingDelete := by simp [mount, handlers]
  requests := by simp [mount, handlers]
  routes := by simp [mount, handlers]

theorem Sound.concat (hv : Runs.run next (mount requestedNumber) evs = v)
    (hstarts : StartsAsked v.handlers) (h : Sound requestedNumber evs v.handlers) :
    Sound requestedNumber (evs ++ [e]) (v.next e).handlers := by
  have hacts := acts_next v e
  generalize hw : (v.next e).handlers = w at hacts ⊢
  -- what stays as it is has been so before
  have hchosen (m : MeetingView) (hnew : w.pendingDelete = some m)
      (hsince : Chosen requestedNumber evs m ∨ e = .delete ∧ v.Details m) :
      Chosen requestedNumber (evs ++ [e]) m := by
    refine Runs.since_concat.mpr ⟨by rwa [hv], ?_⟩
    rw [Runs.run_concat, hv]
    exact (congrArg Handlers.pendingDelete hw).trans hnew
  have hpending (hle : ∀ m, w.pendingDelete = some m → v.pendingDelete = some m) (m : MeetingView)
      (hnew : w.pendingDelete = some m) :
      canDelete m = true ∧ Chosen requestedNumber (evs ++ [e]) m := by
    obtain ⟨hcan, hsince⟩ := h.pendingDelete m (hle m hnew)
    exact ⟨hcan, hchosen m hnew (.inl hsince)⟩
  have hrequests (r : TransitionRequest) (hr : r ∈ v.requests) :
      canTransition r.meeting.meeting.status r.target = true ∧
        Asked requestedNumber (evs ++ [e]) r :=
    ⟨(h.requests r hr).1, (h.requests r hr).2.concat⟩
  have hroutes (route : String) (hroute : route ∈ v.routes) :
      Runs.Happened next (Enters route) (mount requestedNumber) (evs ++ [e]) :=
    Runs.happened_concat.mpr (.inl (h.routes route hroute))
  cases hacts with
  | same => exact ⟨hpending fun m hm => hm, hrequests, hroutes⟩
  | keep =>
    refine ⟨?_, hrequests, hroutes⟩
    rintro m ⟨⟩
  | @start m hm hcan hbusy =>
    refine ⟨hpending fun m hm => hm, ?_, hroutes⟩
    intro r hr
    rcases List.mem_append.mp hr with hr | hr
    · exact hrequests r hr
    · obtain rfl := List.mem_singleton.mp hr
      exact ⟨canTransition_of_canStart hcan,
        .inl ⟨rfl, Runs.happened_concat.mpr (.inr ⟨rfl, by rwa [hv]⟩)⟩⟩
  | @delete m hm hcan =>
    refine ⟨?_, hrequests, hroutes⟩
    rintro m' ⟨⟩
    exact ⟨hcan, hchosen m rfl (.inr ⟨rfl, hm⟩)⟩
  | @confirmDelete m hm hbusy =>
    refine ⟨hpending fun m hm => hm, ?_, hroutes⟩
    intro r hr
    rcases List.mem_append.mp hr with hr | hr
    · exact hrequests r hr
    · obtain rfl := List.mem_singleton.mp hr
      obtain ⟨hcan, hsince⟩ := h.pendingDelete m hm
      exact ⟨canTransition_of_canDelete hcan, .inr ⟨rfl, evs, List.prefix_refl _, hsince⟩⟩
  | @enter k items m ha =>
    refine ⟨hpending fun m hm => hm, hrequests, ?_⟩
    intro route hroute
    rcases List.mem_append.mp hroute with hroute | hroute
    · exact hroutes route hroute
    · have hasked := hstarts m (List.mem_of_getElem? ha)
      refine Runs.happened_concat.mpr (.inr (.inl ⟨k, items, m, rfl, ?_, ?_, ?_⟩))
      · rwa [hv]
      · rwa [hv]
      · exact List.mem_singleton.mp hroute
  | refresh ha =>
    refine ⟨?_, hrequests, hroutes⟩
    rintro m ⟨⟩
  | finish ha hle => exact ⟨hpending hle, hrequests, hroutes⟩
  | @personalRoom number htab =>
    refine ⟨hpending fun m hm => hm, hrequests, ?_⟩
    intro route hroute
    rcases List.mem_append.mp hroute with hroute | hroute
    · exact hroutes route hroute
    · refine Runs.happened_concat.mpr (.inr (.inr ⟨number, rfl, ?_, List.mem_singleton.mp hroute⟩))
      rwa [hv]

theorem oneAction_run (requestedNumber : Option String) (evs : List Event) :
    OneAction (Runs.run next (mount requestedNumber) evs).handlers :=
  (Runs.always_of_step (I := fun v : MeetingsView => OneAction v.handlers) (Nat.zero_le _)
    (fun _ _ h => h.next) evs).last

theorem startsAsked_run (requestedNumber : Option String) (evs : List Event) :
    StartsAsked (Runs.run next (mount requestedNumber) evs).handlers :=
  (Runs.always_of_step (I := fun v : MeetingsView => StartsAsked v.handlers)
    (by simp [StartsAsked, mount, handlers]) (fun _ _ h => h.next) evs).last

theorem sound_run (requestedNumber : Option String) (evs : List Event) :
    Sound requestedNumber evs (Runs.run next (mount requestedNumber) evs).handlers := by
  induction evs using List.reverseRecOn with
  | nil => exact sound_mount
  | append_singleton evs e ih =>
    rw [Runs.run_concat]
    exact Sound.concat rfl (startsAsked_run requestedNumber evs) ih

/-- **What the screen asks for.**  In every run, each start was asked for by a click in the
detail pane of the meeting, the selected row of the list at that moment; each cancellation by
a click in a dialog that was opened there and has asked about that meeting ever since; both
are changes that `TRANSITIONS` allows for the status of the row; at most one handler is under
way; and a room is entered only when a start of its meeting that was asked for is answered, so
never by way of the branch for a meeting that is already live, or as the personal room. -/
theorem requests_legal (requestedNumber : Option String) (evs : List Event) :
    let v := Runs.run next (mount requestedNumber) evs
    (∀ r ∈ v.requests, canTransition r.meeting.meeting.status r.target = true ∧
        Asked requestedNumber evs r) ∧
      v.actions.length ≤ 1 ∧
      ∀ route ∈ v.routes, Runs.Happened next (Enters route) (mount requestedNumber) evs := by
  intro v
  have h := sound_run requestedNumber evs
  refine ⟨h.requests, ?_, h.routes⟩
  have hone : v.actions.length ≤ if v.busy then 1 else 0 := oneAction_run requestedNumber evs
  split at hone <;> omega

end MeetingsView

end ZoomClone
