/-
One visit of the schedule page (the component of `ScheduleForm.tsx`).

While a save is under way the button is off, and after a save it stays off until the page has
changed.  If the plan has shortened the meeting, the form stays on the screen for a while to say
so, with the button on.  If the answer to a save is lost, the button is on again, whether the API
has stored the meeting or not.

* `stored_once_iff` — when a visit stores its meeting once, and that a visit within the plan
  that loses no answer does so always;
* `sends_accepted` — the schema of the API accepts what a visit sends;
* `minutes_shown_iff` — when the minutes on the screen are those that are sent.
-/
import ZoomClone.ScheduleForm
import ZoomClone.Runs

namespace ZoomClone

/-! ### The controls -/

def hourOptions : List Int := (List.range 25).map Int.ofNat

/-- Quarter hours only. -/
def minuteOptions : List Int := [0, 15, 30, 45]

/-- `set(key, value)` of the form, with its key. -/
inductive FieldEdit where
  | topic (value : String)
  | description (value : String)
  | date (value : String)
  | time (value : String)
  | meridiem (value : Meridiem)
  | durationHours (value : Int)
  | durationMinutes (value : Int)
  | timezone (value : String)
  | recurring (value : Bool)
  | usePmi (value : Bool)
  | waitingRoom (value : Bool)
  | hostVideoOn (value : Bool)
  | participantVideoOn (value : Bool)
  | invitees (value : String)
  | encryption (value : String)
  | chatBeforeAfter (value : Bool)

def FormState.set (form : FormState) : FieldEdit → FormState
  | .topic value => { form with topic := value }
  | .description value => { form with description := value }
  | .date value => { form with date := value }
  | .time value => { form with time := value }
  | .meridiem value => { form with meridiem := value }
  | .durationHours value => { form with durationHours := value }
  | .durationMinutes value => { form with durationMinutes := value }
  | .timezone value => { form with timezone := value }
  | .recurring value => { form with recurring := value }
  | .usePmi value => { form with usePmi := value }
  | .waitingRoom value => { form with waitingRoom := value }
  | .hostVideoOn value => { form with hostVideoOn := value }
  | .participantVideoOn value => { form with participantVideoOn := value }
  | .invitees value => { form with invitees := value }
  | .encryption value => { form with encryption := value }
  | .chatBeforeAfter value => { form with chatBeforeAfter := value }

/-- The message under the field that was set goes away. -/
def FormErrors.clear (errors : FormErrors) : FieldEdit → FormErrors
  | .topic _ => { errors with topic := none }
  | .date _ => { errors with date := none }
  | .durationMinutes _ => { errors with durationMinutes := none }
  | _ => errors

/-- What the controls offer; two of them are off for a meeting that is edited. -/
def FieldEdit.Offered (editing : Bool) : FieldEdit → Prop
  | .durationHours value => value ∈ hourOptions
  | .durationMinutes value => value ∈ minuteOptions
  | .usePmi _ => editing = false
  | .invitees _ => editing = false
  | .encryption value => value = "enhanced" ∨ value = "e2ee"
  | _ => True

instance (editing : Bool) : (edit : FieldEdit) → Decidable (edit.Offered editing)
  | .durationHours value => inferInstanceAs (Decidable (value ∈ hourOptions))
  | .durationMinutes value => inferInstanceAs (Decidable (value ∈ minuteOptions))
  | .usePmi _ | .invitees _ => inferInstanceAs (Decidable (editing = false))
  | .encryption value => inferInstanceAs (Decidable (value = "enhanced" ∨ value = "e2ee"))
  | .topic _ | .description _ | .date _ | .time _ | .meridiem _ | .timezone _ |
    .recurring _ | .waitingRoom _
  | .hostVideoOn _ | .participantVideoOn _ | .chatBeforeAfter _ => .isTrue trivial

/-! ### The page -/

/-- A save that was sent. -/
inductive SaveRequest where
  | create (req : MeetingCreate)
  | update (meetingNumber : String) (changes : MeetingChanges)

namespace SaveRequest

def scheduledStart : SaveRequest → Option ApiDateTime
  | create req => req.scheduledStart
  | update _ changes => changes.scheduledStart

/-- Its schema accepts the body. -/
def Accepted : SaveRequest → Prop
  | create req => BodyAccepted req.topic req.scheduledStart (some req.durationMinutes)
    (some req.encryption)
  | update _ changes =>
    BodyAccepted changes.topic changes.scheduledStart changes.durationMinutes changes.encryption

end SaveRequest

/-- What the API handles a save with. -/
structure SaveCall where
  db : Db
  host : User
  draws : CreateDraws
  now : DateTime

/-- The meeting that a save stores, if it is a create and the API handles it. -/
def SaveRequest.storedBy : SaveRequest → Option SaveCall → List Meeting
  | create req, some call =>
    match postMeeting call.db call.host req call.draws call.now with
    | .ok (view, _) => [view.meeting]
    | .error _ => []
  | _, _ => []

structure ScheduleForm where
  viewer : Viewer
  form : FormState
  errors : FormErrors := {}
  saving : Bool := false
  loadingMeeting : Bool
  loadError : Option String := none
  clampedNotice : Bool := false
  editing : Option Meeting := none
  mounted : Bool := true
  /-- The save that `handleSubmit` waits for. -/
  pending : Option SaveRequest := none
  /-- The timers that wait after a shortened save, with the address they go to. -/
  timers : List String := []
  /-- Where `router.push` was told to go. -/
  routes : List String := []
  /-- The saves so far. -/
  sends : List SaveRequest := []
  /-- The meetings that were stored so far. -/
  stored : List Meeting := []
  /-- Those of them whose answers were lost. -/
  unseen : List Meeting := []
  /-- The creates that were sent after one that is stored. -/
  repeats : List MeetingCreate := []

namespace ScheduleForm

/-- The first render, for a new meeting or with the number of one to load. -/
def mount (viewer : Viewer) (editNumber : Option String) (now : ℤ) : ScheduleForm :=
  { viewer, form := initialState viewer now, loadingMeeting := (given editNumber).isSome }

/-- The form is on the screen. -/
def Shown (v : ScheduleForm) : Prop :=
  v.mounted = true ∧ v.loadingMeeting = false ∧ v.loadError = none

instance (v : ScheduleForm) : Decidable v.Shown := inferInstanceAs (Decidable (_ ∧ _ ∧ _))

/-- The body of a save. -/
def request (v : ScheduleForm) (start : ℤ) (duration : Int) : SaveRequest :=
  match v.editing with
  | some meeting => .update meeting.meetingNumber (v.form.toChanges start duration)
  | none => .create (v.form.toCreate start duration)

/-- A create after one that is stored. -/
def repeated (v : ScheduleForm) : SaveRequest → List MeetingCreate
  | .create req => if v.stored = [] then [] else [req]
  | .update _ _ => []

/-- `handleSubmit`, up to its await. -/
def handleSubmit (v : ScheduleForm) (clock : ℤ) : ScheduleForm :=
  match v.form.validate v.viewer clock with
  | .error errors => { v with errors }
  | .ok (start, duration) =>
    let request := v.request start duration
    { v with
      errors := {}
      saving := true
      clampedNotice := false
      pending := some request
      sends := v.sends ++ [request]
      repeats := v.repeats ++ v.repeated request }

/-- The address of a meeting on the meetings page. -/
def selectedRoute (meeting : Meeting) : String := "/meetings?selected=" ++ meeting.meetingNumber

/-- `handleSubmit` after a save: a shortened meeting keeps the page for a moment. -/
def saved (v : ScheduleForm) (view : MeetingView) : ScheduleForm :=
  if view.durationClamped then
    { v with
      pending := none
      clampedNotice := true
      saving := false
      timers := v.timers ++ [selectedRoute view.meeting] }
  else { v with pending := none, routes := v.routes ++ [selectedRoute view.meeting] }

/-- The `catch` of `handleSubmit`. -/
def saveFailed (v : ScheduleForm) (failure : SaveFailure) : ScheduleForm :=
  let errors := FormErrors.ofFailure failure
  { v with pending := none, saving := false, errors := if errors = {} then v.errors else errors }

/-- The answer of the API to the save that is waited for. -/
def answered (v : ScheduleForm) (db : Db) (host : User) (draws : CreateDraws) (now : DateTime) :
    ScheduleForm :=
  match v.pending with
  | none => v
  | some (.create req) =>
    match postMeeting db host req draws now with
    | .ok (view, _) => { v.saved view with stored := v.stored ++ [view.meeting] }
    | .error failure => v.saveFailed failure
  | some (.update meetingNumber changes) =>
    match patchMeeting db host meetingNumber changes now with
    | .ok (view, _) => v.saved view
    | .error failure => v.saveFailed failure

/-- The answer to the save that is waited for is lost; what the API makes of the save does not
depend on it. -/
def lost (v : ScheduleForm) (handled : Option SaveCall) : ScheduleForm :=
  match v.pending with
  | none => v
  | some request =>
    { v.saveFailed .other with
      stored := v.stored ++ request.storedBy handled
      unseen := v.unseen ++ request.storedBy handled }

inductive Event where
  /-- `getMeeting` is answered. -/
  | loaded (meeting : Meeting) (now : ℤ)
  | loadFailed (message : String)
  | set (edit : FieldEdit)
  | submit (clock : ℤ)
  /-- The save is answered by the API. -/
  | answered (db : Db) (host : User) (draws : CreateDraws) (now : DateTime)
  /-- No answer to the save reaches the page, for the request ran out of time or the connection
  was lost; the API handles the save all the same, now or later, or it does not. -/
  | lost (handled : Option SaveCall)
  /-- The oldest timer runs out. -/
  | timeout
  | cancel
  /-- Another page is shown. -/
  | leave

/-- One event.  The controls work if they are on the screen and not off; answers and timers come
at any time. -/
def next (v : ScheduleForm) : Event → ScheduleForm
  | .loaded meeting now =>
    if v.mounted ∧ v.loadingMeeting then
      { v with
        editing := some meeting, form := stateFromMeeting v.viewer now meeting,
        loadingMeeting := false }
    else v
  | .loadFailed message =>
    if v.mounted ∧ v.loadingMeeting then
      { v with loadingMeeting := false, loadError := some message } else v
  | .set edit =>
    if v.Shown ∧ edit.Offered v.editing.isSome then
      { v with form := v.form.set edit, errors := v.errors.clear edit }
    else v
  | .submit clock => if v.Shown ∧ v.saving = false then v.handleSubmit clock else v
  | .answered db host draws now => v.answered db host draws now
  | .lost handled => v.lost handled
  | .timeout =>
    match v.timers with
    | [] => v
    | route :: timers => { v with timers, routes := v.routes ++ [route] }
  | .cancel => if v.Shown ∧ v.saving = false then
    { v with routes := v.routes ++ ["/meetings"] } else v
  | .leave => { v with mounted := false }

variable {v : ScheduleForm} {e : Event} {viewer : Viewer} {editNumber : Option String}
  {now : ℤ} {evs : List Event}

/-! ### One meeting -/

/-- What a visit knows of the meetings that it stored. -/
structure Orderly (v : ScheduleForm) : Prop where
  busy : v.pending.isSome → v.saving = true
  loading : v.loadingMeeting = true → v.pending = none ∧ v.stored = []
  edits : v.editing.isSome → v.stored = []
  creates : ∀ req, v.pending = some (.create req) → v.editing = none
  updates : ∀ number changes, v.pending = some (.update number changes) → v.editing.isSome
  /-- The banner after a save is about a meeting that was stored. -/
  noticed : v.clampedNotice = true → v.editing = none → v.stored ≠ []
  unseen : v.unseen ≠ [] → v.stored ≠ []
  once : v.repeats = [] → v.stored.length ≤ 1
  /-- As long as nothing is repeated, a stored meeting leaves the button off or shows the banner,
  or its answer was lost. -/
  settled : v.repeats = [] → v.stored ≠ [] →
    v.pending = none ∧ (v.saving = true ∨ v.clampedNotice = true ∨ v.unseen ≠ [])

theorem orderly_mount : (mount viewer editNumber now).Orderly where
  busy h := by cases h
  loading _ := ⟨rfl, rfl⟩
  edits _ := rfl
  creates _ h := by cases h
  updates _ _ h := by cases h
  noticed h := by cases h
  unseen h := absurd rfl h
  once _ := Nat.zero_le _
  settled _ h := absurd rfl h

/-- A save that is sent. -/
theorem orderly_handleSubmit {clock : ℤ} (h : v.Orderly) (hloaded : v.loadingMeeting = false) :
    (v.handleSubmit clock).Orderly := by
  rw [handleSubmit]
  split
  · exact { h with }
  · rename_i start duration _
    dsimp only
    refine {
      busy := fun _ => rfl
      loading := fun hloading => absurd hloading (by simp [hloaded])
      edits := h.edits
      creates := fun req hreq => ?_
      updates := fun number changes hreq => ?_
      noticed := fun hnotice => absurd hnotice (by simp)
      unseen := h.unseen
      once := fun hnone => h.once (List.append_eq_nil_iff.mp hnone).1
      settled := fun hnone hstored => ?_ }
    · cases hediting : v.editing with
      | none => rfl
      | some meeting => simp [request, hediting] at hreq
    · cases hediting : v.editing with
      | none => simp [request, hediting] at hreq
      | some meeting => rfl
    · -- a meeting was stored, so the request is a create, which is a repeated one
      exfalso
      have hrepeated := (List.append_eq_nil_iff.mp hnone).2
      cases hediting : v.editing with
      | none => simp [request, hediting, repeated, hstored] at hrepeated
      | some meeting => exact hstored (h.edits (by simp [hediting]))

/-- A save that failed. -/
theorem orderly_saveFailed (failure : SaveFailure) (h : v.Orderly)
    (hpending : v.pending.isSome) : (v.saveFailed failure).Orderly where
  busy hbusy := by cases hbusy
  loading hloading := ⟨rfl, (h.loading hloading).2⟩
  edits := h.edits
  creates _ hreq := by cases hreq
  updates _ _ hreq := by cases hreq
  noticed := h.noticed
  unseen := h.unseen
  once := h.once
  settled hnone hstored := by
    rw [(h.settled hnone hstored).1] at hpending
    cases hpending

/-- An edit that was saved. -/
theorem orderly_saved {view : MeetingView} (h : v.Orderly) (hediting : v.editing.isSome) :
    (v.saved view).Orderly := by
  have hstored := h.edits hediting
  -- whether the banner comes up or not: it is only about a new meeting
  rw [saved]
  split <;> exact {
    busy := fun hbusy => by cases hbusy
    loading := fun hloading => ⟨rfl, hstored⟩
    edits := h.edits
    creates := fun _ hreq => by cases hreq
    updates := fun _ _ hreq => by cases hreq
    noticed := fun _ (hnone : v.editing = none) => by simp [hnone] at hediting
    unseen := h.unseen
    once := h.once
    settled := fun _ hsome => absurd hstored hsome }

/-- A meeting that was stored. -/
theorem orderly_stored {req : MeetingCreate} {view : MeetingView} (h : v.Orderly)
    (hpending : v.pending = some (.create req)) :
    { v.saved view with stored := v.stored ++ [view.meeting] : ScheduleForm }.Orderly := by
  have hbusy : v.saving = true := h.busy (by simp [hpending])
  have hloaded : ¬ v.loadingMeeting = true :=
    fun hloading => by simp [(h.loading hloading).1] at hpending
  have hnew : v.editing = none := h.creates req hpending
  have hfirst (hnone : v.repeats = []) : v.stored = [] := by
    by_contra hstored
    simp [(h.settled hnone hstored).1] at hpending
  -- the banner is shown, or the button stays off as it was
  rw [saved]
  split <;> exact {
    busy := fun hbusy => by cases hbusy
    loading := fun hloading => absurd hloading hloaded
    edits := fun hediting => by simp [hnew] at hediting
    creates := fun _ hreq => by cases hreq
    updates := fun _ _ hreq => by cases hreq
    noticed := fun _ _ => by simp
    unseen := fun _ => by simp
    once := fun hnone => by simp [hfirst hnone]
    settled := fun _ _ => ⟨rfl, by simp [hbusy]⟩ }

/-- An edit stores no new meeting. -/
theorem storedBy_update {number : String} {changes : MeetingChanges} {handled : Option SaveCall} :
    (SaveRequest.update number changes).storedBy handled = [] := by
  cases handled <;> rfl

/-- At most one meeting is stored by a save. -/
theorem length_storedBy {request : SaveRequest} {handled : Option SaveCall} :
    (request.storedBy handled).length ≤ 1 := by
  unfold SaveRequest.storedBy
  split
  · split
    · exact le_rfl
    · exact Nat.zero_le 1
  · exact Nat.zero_le 1

/-- A save whose answer is lost. -/
theorem orderly_lost {handled : Option SaveCall} (h : v.Orderly) : (v.lost handled).Orderly := by
  rw [lost]
  split
  · exact h
  · rename_i request hpending
    have hsome : v.pending.isSome := by simp [hpending]
    have hloaded : ¬ v.loadingMeeting = true :=
      fun hloading => by simp [(h.loading hloading).1] at hpending
    have hedits (hediting : v.editing.isSome) : request.storedBy handled = [] := by
      cases request with
      | create req => simp [h.creates req hpending] at hediting
      | update number changes => exact storedBy_update
    have hfirst (hnone : v.repeats = []) : v.stored = [] := by
      by_contra hstored
      simp [(h.settled hnone hstored).1] at hpending
    exact { orderly_saveFailed .other h hsome with
      loading := fun hloading => absurd hloading hloaded
      edits := fun hediting => by simp [h.edits hediting, hedits hediting]
      noticed := fun hnotice hnew => by simp [h.noticed hnotice hnew]
      unseen := fun hunseen hstored => by
        obtain ⟨hold, hnew⟩ := List.append_eq_nil_iff.mp hstored
        have hseen : v.unseen = [] := by
          by_contra hne
          exact h.unseen hne hold
        exact hunseen (by rw [hseen, hnew]; rfl)
      once := fun hnone => by
        have hlength : (v.stored ++ request.storedBy handled).length ≤ 1 := by
          rw [hfirst hnone, List.nil_append]
          exact length_storedBy
        exact hlength
      settled := fun hnone hstored => by
        refine ⟨rfl, .inr (.inr fun hunseen => hstored ?_)⟩
        exact List.append_eq_nil_iff.mpr ⟨hfirst hnone, (List.append_eq_nil_iff.mp hunseen).2⟩ }

theorem orderly_answered {db : Db} {host : User} {draws : CreateDraws} {now : DateTime}
    (h : v.Orderly) : (v.answered db host draws now).Orderly := by
  rw [answered]
  split
  · exact h
  · rename_i req hpending
    split
    · exact orderly_stored h hpending
    · exact orderly_saveFailed _ h (by simp [hpending])
  · rename_i number changes hpending
    split
    · exact orderly_saved h (h.updates number changes hpending)
    · exact orderly_saveFailed _ h (by simp [hpending])

theorem orderly_next (h : v.Orderly) : (v.next e).Orderly := by
  cases e with
  | loaded meeting now =>
    dsimp only [next]
    split
    · rename_i hloading
      obtain ⟨hpending, hstored⟩ := h.loading hloading.2
      exact { h with
        loading := fun hloading => by cases hloading
        edits := fun _ => hstored
        creates := fun _ hreq => by simp [hpending] at hreq
        updates := fun _ _ hreq => by simp [hpending] at hreq
        noticed := fun _ hnone => by cases hnone }
    · exact h
  | loadFailed message =>
    dsimp only [next]
    split
    · exact { h with loading := fun hloading => by cases hloading }
    · exact h
  | submit clock =>
    dsimp only [next]
    split
    · rename_i hshown
      exact orderly_handleSubmit h hshown.1.2.1
    · exact h
  | answered db host draws now => exact orderly_answered h
  | lost handled => exact orderly_lost h
  | leave => exact { h with }
  | _ =>
    dsimp only [next]
    split
    · exact { h with }
    · exact { h with }

/-- Save is clicked for a new meeting while the banner says that it was saved, or after the
answer to a create that is stored was lost. -/
def SavesAgain (v : ScheduleForm) (e : Event) : Prop :=
  ∃ clock, e = .submit clock ∧ (v.Shown ∧ v.saving = false) ∧ v.editing = none ∧
    (v.clampedNotice = true ∨ v.unseen ≠ []) ∧
    ∃ result, v.form.validate v.viewer clock = .ok result

/-- A click of Save that sends something. -/
theorem repeats_handleSubmit {clock start : ℤ} {duration : Int}
    (hvalid : v.form.validate v.viewer clock = .ok (start, duration)) :
    (v.handleSubmit clock).repeats = v.repeats ++ v.repeated (v.request start duration) := by
  simp only [handleSubmit, hvalid]

theorem repeated_eq_nil {start : ℤ} {duration : Int} :
    v.repeated (v.request start duration) = [] ↔ v.editing.isSome ∨ v.stored = [] := by
  cases hediting : v.editing with
  | none => simp [request, hediting, repeated]
  | some meeting => simp [request, hediting, repeated]

/-- What an answer leaves alone. -/
theorem answered_frame (v : ScheduleForm) (db : Db) (host : User) (draws : CreateDraws)
    (now : DateTime) :
    (v.answered db host draws now).form = v.form ∧
      (v.answered db host draws now).editing = v.editing ∧
      (v.answered db host draws now).loadingMeeting = v.loadingMeeting ∧
      (v.answered db host draws now).sends = v.sends ∧
      (v.answered db host draws now).repeats = v.repeats := by
  have hsaved (view : MeetingView) :
      (v.saved view).form = v.form ∧ (v.saved view).editing = v.editing ∧
        (v.saved view).loadingMeeting = v.loadingMeeting ∧ (v.saved view).sends = v.sends ∧
        (v.saved view).repeats = v.repeats := by
    rw [saved]
    split <;> exact ⟨rfl, rfl, rfl, rfl, rfl⟩
  rw [answered]
  split
  · exact ⟨rfl, rfl, rfl, rfl, rfl⟩
  · split
    · exact hsaved _
    · exact ⟨rfl, rfl, rfl, rfl, rfl⟩
  · split
    · exact hsaved _
    · exact ⟨rfl, rfl, rfl, rfl, rfl⟩

/-- The fields of the form and the meeting that is edited are those of before. -/
structure SameForm (v w : ScheduleForm) : Prop where
  form : w.form = v.form
  editing : w.editing = v.editing
  loading : w.loadingMeeting = true → v.loadingMeeting = true

theorem SameForm.refl (v : ScheduleForm) : SameForm v v := ⟨rfl, rfl, id⟩

/-- What a lost answer leaves alone. -/
theorem lost_frame (v : ScheduleForm) (handled : Option SaveCall) :
    SameForm v (v.lost handled) ∧ (v.lost handled).sends = v.sends ∧
      (v.lost handled).repeats = v.repeats ∧ (v.lost handled).clampedNotice = v.clampedNotice := by
  rw [lost]
  split <;> exact ⟨⟨rfl, rfl, id⟩, rfl, rfl, rfl⟩

/-- Nothing but a click of Save repeats anything. -/
theorem repeats_next (h : ∀ clock, e = .submit clock → ¬ (v.Shown ∧ v.saving = false)) :
    (v.next e).repeats = v.repeats := by
  cases e with
  | submit clock => rw [next, if_neg (h clock rfl)]
  | answered db host draws now =>
    obtain ⟨-, -, -, -, hrepeats⟩ := v.answered_frame db host draws now
    exact hrepeats
  | lost handled => exact (v.lost_frame handled).2.2.1
  | leave => rfl
  | _ =>
    dsimp only [next]
    split <;> rfl

/-- Nothing is repeated exactly if Save is not clicked again. -/
theorem repeats_iff (h : v.Orderly) (hnone : v.repeats = []) :
    (v.next e).repeats = [] ↔ ¬ v.SavesAgain e := by
  by_cases hclick : ∃ clock, e = .submit clock ∧ v.Shown ∧ v.saving = false
  · obtain ⟨clock, rfl, hshown⟩ := hclick
    rw [next, if_pos hshown]
    cases hvalid : v.form.validate v.viewer clock with
    | error errors =>
      refine iff_of_true ?_ ?_
      · rw [handleSubmit, hvalid]
        exact hnone
      · rintro ⟨clock', heq, -, -, -, result, hok⟩
        obtain rfl := Event.submit.inj heq
        rw [hvalid] at hok
        cases hok
    | ok result =>
      obtain ⟨start, duration⟩ := result
      rw [repeats_handleSubmit hvalid, hnone, List.nil_append, repeated_eq_nil]
      -- a create is repeated if a meeting is stored, and then the banner or the lost answer is
      -- what let the click through
      constructor
      · rintro hfirst ⟨clock', -, -, hnew, hcause, -⟩
        have hstored : v.stored ≠ [] := by
          rcases hcause with hnotice | hunseen
          · exact h.noticed hnotice hnew
          · exact h.unseen hunseen
        rcases hfirst with hediting | hnothing
        · simp [hnew] at hediting
        · exact hstored hnothing
      · intro hagain
        by_contra hrepeated
        obtain ⟨hnew, hstored⟩ := not_or.mp hrepeated
        have hediting : v.editing = none := by simpa using hnew
        -- the button is on, so the banner is shown or the answer was lost
        have hcause : v.clampedNotice = true ∨ v.unseen ≠ [] := by
          refine (h.settled hnone hstored).2.resolve_left ?_
          simp [hshown.2]
        exact hagain ⟨clock, rfl, hshown, hediting, hcause, _, hvalid⟩
  · refine iff_of_true ?_ ?_
    · rw [repeats_next fun clock heq hshown => hclick ⟨clock, heq, hshown⟩, hnone]
    · rintro ⟨clock, rfl, hshown, -⟩
      exact hclick ⟨clock, rfl, hshown⟩

/-- A create that is stored does not exceed the plan. -/
def WithinPlan (v : ScheduleForm) (e : Event) : Prop :=
  ∀ db host draws now req, e = .answered db host draws now → v.pending = some (.create req) →
    ¬ (host.plan = .basic ∧ basicPlanDurationCap < req.durationMinutes)

/-- No answer to a create that is stored is lost. -/
def LosesNone (v : ScheduleForm) (e : Event) : Prop :=
  ∀ handled request, e = .lost handled → v.pending = some request → request.storedBy handled = []

/-- The answer to a create says whether the plan shortened it. -/
theorem postMeeting_clamped {db db' : Db} {host : User} {req : MeetingCreate}
    {draws : CreateDraws} {now : DateTime} {view : MeetingView}
    (h : postMeeting db host req draws now = .ok (view, db')) :
    view.durationClamped = decide (host.plan = .basic ∧
      basicPlanDurationCap < req.durationMinutes) := by
  obtain ⟨-, hcreate⟩ := postMeeting_eq_ok.mp h
  simp only [createMeeting, Service.bind_eq_ok, Service.pure_eq_ok] at hcreate
  obtain ⟨topic, -, start, -, ⟨minutes, clamped⟩, hduration, _, -, ⟨row, db₁⟩, -, db₂, -, hview⟩ :=
    hcreate
  obtain ⟨rfl, -⟩ := Prod.mk.inj hview
  have hclamped := (resolveDuration_eq_ok.mp hduration).2
  split_ifs at hclamped with hexceeds
  · exact (congrArg Prod.snd hclamped).trans (decide_eq_true hexceeds).symm
  · exact (congrArg Prod.snd hclamped).trans (decide_eq_false hexceeds).symm

/-- The answer to an edit never says so. -/
theorem patchMeeting_unclamped {db db' : Db} {host : User} {meetingNumber : String}
    {changes : MeetingChanges} {now : DateTime} {view : MeetingView}
    (h : patchMeeting db host meetingNumber changes now = .ok (view, db')) :
    view.durationClamped = false := by
  obtain ⟨m, topic, start, duration, -, -, -, rfl, -⟩ :=
    updateMeeting_checked (patchMeeting_eq_ok.mp h).2
  rfl

theorem saved_unclamped {view : MeetingView} (h : view.durationClamped = false) :
    (v.saved view).clampedNotice = v.clampedNotice := by
  rw [saved, if_neg (by simp [h])]

/-- Within the plan the banner after a save is not shown. -/
theorem notice_next (h : v.WithinPlan e) (hnotice : v.clampedNotice = false) :
    (v.next e).clampedNotice = false := by
  cases e with
  | answered db host draws now =>
    dsimp only [next, answered]
    split
    · exact hnotice
    · rename_i req hpending
      split
      · rename_i view db' hstored
        have hwithin : view.durationClamped = false :=
          (postMeeting_clamped hstored).trans
            (decide_eq_false (h db host draws now req rfl hpending))
        exact (saved_unclamped hwithin).trans hnotice
      · exact hnotice
    · split
      · rename_i view db' hsaved
        exact (saved_unclamped (patchMeeting_unclamped hsaved)).trans hnotice
      · exact hnotice
  | submit clock =>
    dsimp only [next, handleSubmit]
    split
    · split
      · exact hnotice
      · rfl
    · exact hnotice
  | lost handled => exact (v.lost_frame handled).2.2.2.trans hnotice
  | leave => exact hnotice
  | _ =>
    dsimp only [next]
    split <;> exact hnotice

/-- Without a lost answer every stored meeting was seen. -/
theorem unseen_next (h : v.LosesNone e) (hseen : v.unseen = []) : (v.next e).unseen = [] := by
  have hsaved (view : MeetingView) : (v.saved view).unseen = [] := by
    rw [saved]
    split <;> exact hseen
  cases e with
  | submit clock =>
    dsimp only [next, handleSubmit]
    split
    · split <;> exact hseen
    · exact hseen
  | answered db host draws now =>
    dsimp only [next, answered]
    split
    · exact hseen
    · split
      · exact hsaved _
      · exact hseen
    · split
      · exact hsaved _
      · exact hseen
  | lost handled =>
    dsimp only [next, lost]
    split
    · exact hseen
    · rename_i request hpending
      exact List.append_eq_nil_iff.mpr ⟨hseen, h handled request rfl hpending⟩
  | leave => exact hseen
  | _ =>
    dsimp only [next]
    split <;> exact hseen

/-- At most one meeting was stored, and nothing was sent after it. -/
def StoredOnce (v : ScheduleForm) : Prop := v.repeats = [] ∧ v.stored.length ≤ 1

theorem storedOnce_iff (h : v.Orderly) : v.StoredOnce ↔ v.repeats = [] :=
  and_iff_left_of_imp h.once

/-- **A visit stores its meeting once** exactly if Save is not clicked again while the banner says
that the meeting was saved, or after the answer to a create that is stored was lost; within the
plan there is no such banner. -/
theorem stored_once_iff (viewer : Viewer) (editNumber : Option String)
    (now : ℤ) (evs : List Event) :
    (Runs.Always next StoredOnce (mount viewer editNumber now) evs ↔
      Runs.Guarded next (fun v e => ¬ v.SavesAgain e) (mount viewer editNumber now) evs) ∧
    (Runs.Guarded next (fun v e => v.WithinPlan e ∧ v.LosesNone e)
      (mount viewer editNumber now) evs →
      Runs.Always next StoredOnce (mount viewer editNumber now) evs) := by
  have hiff : Runs.Always next StoredOnce (mount viewer editNumber now) evs ↔
      Runs.Guarded next (fun v e => ¬ v.SavesAgain e) (mount viewer editNumber now) evs := by
    refine Runs.always_iff_guarded (I := Orderly) orderly_mount ⟨rfl, Nat.zero_le _⟩
      (fun v e h => orderly_next h) (fun v e h honce => ?_) evs
    rw [storedOnce_iff (orderly_next h)]
    exact repeats_iff h honce.1
  refine ⟨hiff, fun hguarded => hiff.mpr fun pre e hpre hagain => ?_⟩
  have hquiet : Runs.Always next (fun v => v.clampedNotice = false ∧ v.unseen = [])
      (mount viewer editNumber now) evs := by
    refine Runs.Guarded.always ⟨rfl, rfl⟩ (fun v e hquiet hevent => ?_) hguarded
    exact ⟨notice_next hevent.1 hquiet.1, unseen_next hevent.2 hquiet.2⟩
  obtain ⟨hhidden, hseen⟩ := hquiet pre ((List.prefix_append pre [e]).trans hpre)
  obtain ⟨clock, -, -, -, hcause, -⟩ := hagain
  rcases hcause with hnotice | hunseen
  · rw [hhidden] at hnotice
    cases hnotice
  · exact hunseen hseen

/-! ### What is sent -/

/-- The schema has nothing against the bodies that were sent but a year. -/
def SendsAccepted (v : ScheduleForm) : Prop :=
  ∀ req ∈ v.sends, req.Accepted ↔ ∀ value ∈ req.scheduledStart, value.IsPython

/-- The encryption of the form is one that the API knows. -/
structure Acceptable (v : ScheduleForm) : Prop where
  encryption : v.form.encryption ∈ encryptionModes
  sends : v.SendsAccepted

/-- The API answers with meetings that have `P`. -/
def Loads (P : Meeting → Prop) (_ : ScheduleForm) (e : Event) : Prop :=
  ∀ meeting now, e = .loaded meeting now → P meeting

/-- The encryption of a stored meeting. -/
def EncryptionKnown (meeting : Meeting) : Prop := meeting.encryption ∈ encryptionModes

/-- The duration of a stored meeting. -/
def DurationStored (meeting : Meeting) : Prop :=
  0 ≤ meeting.durationMinutes ∧ meeting.durationMinutes ≤ maxDurationMinutes

theorem accepted_request {clock start : ℤ} {duration : Int}
    (hencryption : v.form.encryption ∈ encryptionModes)
    (hvalid : v.form.validate v.viewer clock = .ok (start, duration)) :
    (v.request start duration).Accepted ↔ ∀ value ∈ (v.request start duration).scheduledStart,
      value.IsPython := by
  have hbody := (bodyAccepted_iff (validate_eq_ok.mp hvalid)).trans (and_iff_left hencryption)
  have hstart : (∀ value ∈ some (toApiDate start), value.IsPython) ↔
    (toApiDate start).IsPython := by simp
  rw [request]
  split
  · exact hbody.trans hstart.symm
  · exact hbody.trans hstart.symm

/-- The form is filled and set, and else it stays as it is. -/
theorem sameForm_next (hloaded : ∀ meeting now, e ≠ .loaded meeting now)
    (hset : ∀ edit, e ≠ .set edit) : SameForm v (v.next e) := by
  cases e with
  | loaded meeting now => exact absurd rfl (hloaded meeting now)
  | set edit => exact absurd rfl (hset edit)
  | loadFailed message =>
    dsimp only [next]
    split
    · exact ⟨rfl, rfl, fun h => by cases h⟩
    · exact .refl v
  | submit clock =>
    dsimp only [next, handleSubmit]
    split
    · split <;> exact ⟨rfl, rfl, id⟩
    · exact .refl v
  | answered db host draws now =>
    obtain ⟨hform, hediting, hloading, -, -⟩ := v.answered_frame db host draws now
    exact ⟨hform, hediting, hloading.symm.trans⟩
  | lost handled => exact (v.lost_frame handled).1
  | leave => exact ⟨rfl, rfl, id⟩
  | _ =>
    dsimp only [next]
    split <;> exact ⟨rfl, rfl, id⟩

/-- Nothing but a click of Save sends anything. -/
theorem sends_next (hsubmit : ∀ clock, e ≠ .submit clock) : (v.next e).sends = v.sends := by
  cases e with
  | submit clock => exact absurd rfl (hsubmit clock)
  | answered db host draws now =>
    obtain ⟨-, -, -, hsends, -⟩ := v.answered_frame db host draws now
    exact hsends
  | lost handled => exact (v.lost_frame handled).2.1
  | leave => rfl
  | _ =>
    dsimp only [next]
    split <;> rfl

theorem encryption_set {edit : FieldEdit} {form : FormState} {editing : Bool}
    (h : form.encryption ∈ encryptionModes) (hoffered : edit.Offered editing) :
    (form.set edit).encryption ∈ encryptionModes := by
  cases edit with
  | encryption value =>
    show value ∈ encryptionModes
    rcases hoffered with rfl | rfl
    · decide
    · decide
  | _ => exact h

/-- The form keeps an encryption that the API knows. -/
theorem encryption_next (h : v.form.encryption ∈ encryptionModes)
    (hloads : Loads EncryptionKnown v e) :
    (v.next e).form.encryption ∈ encryptionModes := by
  cases e with
  | loaded meeting now =>
    dsimp only [next]
    split
    · show (if meeting.encryption = "" then "enhanced" else meeting.encryption) ∈ encryptionModes
      split
      · decide
      · exact hloads meeting now rfl
    · exact h
  | set edit =>
    dsimp only [next]
    split
    · rename_i hoffered
      exact encryption_set h hoffered.2
    · exact h
  | _ =>
    rw [(sameForm_next (fun meeting now heq => by cases heq) fun edit heq => by cases heq).form]
    exact h

theorem acceptable_next (h : v.Acceptable) (hloads : Loads EncryptionKnown v e) :
    (v.next e).Acceptable := by
  refine ⟨encryption_next h.encryption hloads, ?_⟩
  by_cases hsubmit : ∃ clock, e = .submit clock
  · obtain ⟨clock, rfl⟩ := hsubmit
    dsimp only [next, handleSubmit]
    split
    · split
      · exact h.sends
      · rename_i start duration hvalid
        intro req hreq
        rcases List.mem_append.mp hreq with hreq | hreq
        · exact h.sends req hreq
        · obtain rfl := List.mem_singleton.mp hreq
          exact accepted_request h.encryption hvalid
    · exact h.sends
  · rw [SendsAccepted, sends_next fun clock heq => hsubmit ⟨clock, heq⟩]
    exact h.sends

/-- A visit that loads no meeting. -/
theorem loads_of_new {P : Meeting → Prop} (h : ∀ e ∈ evs, ∀ meeting now, e ≠ .loaded meeting now) :
    Runs.Guarded next (Loads P) v evs :=
  fun pre e hpre meeting now heq =>
    absurd heq
      (h e (hpre.subset (List.mem_append_right pre (List.mem_singleton_self e))) meeting now)

/-- An hour is chosen, and the minutes are left as they are. -/
def planHour : List Event := [.set (.topic "Kickoff"), .set (.durationHours 1)]

/-! ### What is shown -/

/-- The minutes that the form was filled with. -/
def filledMinutes (v : ScheduleForm) : Int :=
  match v.editing with
  | some meeting => meeting.durationMinutes.tmod 60
  | none => 40

/-- The minutes are set to one of their options. -/
def SetsMinutes (v : ScheduleForm) (e : Event) : Prop :=
  ∃ minutes, e = .set (.durationMinutes minutes) ∧ v.Shown ∧ minutes ∈ minuteOptions

/-- The duration that the two selects show. -/
def shownDuration (v : ScheduleForm) (shows : List Int → Int → Int) : Int :=
  shows hourOptions v.form.durationHours * 60 + shows minuteOptions v.form.durationMinutes

/-- The hours are one of their options; until the minutes are set they are those of the filling. -/
structure Filled (v : ScheduleForm) (touched : Prop) : Prop where
  hours : v.form.durationHours ∈ hourOptions
  minutes : v.form.durationMinutes ∈ minuteOptions ↔ v.filledMinutes ∈ minuteOptions ∨ touched
  waits : v.loadingMeeting = true → v.editing = none ∧ ¬ touched

theorem mem_hourOptions {hours : Int} : hours ∈ hourOptions ↔ 0 ≤ hours ∧ hours < 25 := by
  simp only [hourOptions, List.mem_map, List.mem_range]
  constructor
  · rintro ⟨n, hn, rfl⟩
    exact ⟨Int.natCast_nonneg n, Int.ofNat_lt.mpr hn⟩
  · rintro ⟨hnonneg, hlt⟩
    exact ⟨hours.toNat, by omega, Int.toNat_of_nonneg hnonneg⟩

theorem filled_of_same {touched : Prop} {w : ScheduleForm}
    (h : v.Filled touched) (hsame : SameForm v w) (hset : ¬ v.SetsMinutes e) :
    w.Filled (touched ∨ v.SetsMinutes e) := by
  have hfilled : w.filledMinutes = v.filledMinutes := by
    rw [filledMinutes, filledMinutes, hsame.editing]
  rw [or_iff_left hset]
  refine ⟨?_, ?_, fun hwaits => ?_⟩
  · rw [hsame.form]
    exact h.hours
  · rw [hsame.form, hfilled]
    exact h.minutes
  · rw [hsame.editing]
    exact h.waits (hsame.loading hwaits)

theorem filled_set {touched : Prop} {edit : FieldEdit} (h : v.Filled touched) :
    (v.next (.set edit)).Filled (touched ∨ v.SetsMinutes (.set edit)) := by
  by_cases hshown : v.Shown ∧ edit.Offered v.editing.isSome
  · rw [next, if_pos hshown]
    cases edit with
    | durationMinutes minutes =>
      have hset : v.SetsMinutes (.set (.durationMinutes minutes)) := ⟨minutes, rfl, hshown⟩
      refine ⟨h.hours, iff_of_true hshown.2 (.inr (.inr hset)), fun hloading => ?_⟩
      simp [hshown.1.2.1] at hloading
    | durationHours hours =>
      rw [or_iff_left]
      · exact ⟨hshown.2, h.minutes, h.waits⟩
      · rintro ⟨minutes, heq, -⟩
        cases heq
    | _ =>
      rw [or_iff_left]
      · exact ⟨h.hours, h.minutes, h.waits⟩
      · rintro ⟨minutes, heq, -⟩
        cases heq
  · rw [next, if_neg hshown]
    refine filled_of_same h (.refl v) ?_
    rintro ⟨minutes, heq, hset⟩
    obtain rfl := Event.set.inj heq
    exact hshown hset

theorem filled_next {touched : Prop} (h : v.Filled touched) (hloads : Loads DurationStored v e) :
    (v.next e).Filled (touched ∨ v.SetsMinutes e) := by
  have hother (he : ∀ edit, e ≠ .set edit) : ¬ v.SetsMinutes e := by
    rintro ⟨minutes, heq, -⟩
    exact he _ heq
  cases e with
  | set edit => exact filled_set h
  | loaded meeting now =>
    have hset := hother fun edit heq => by cases heq
    dsimp only [next]
    split
    · rename_i hloading
      obtain ⟨hnonneg, hle⟩ := hloads meeting now rfl
      have hmax : maxDurationMinutes = 1440 := rfl
      rw [or_iff_left hset]
      refine ⟨mem_hourOptions.mpr ?_, ?_, fun hwaits => by cases hwaits⟩
      · -- a whole day is the last option of the hours
        show 0 ≤ meeting.durationMinutes / 60 ∧ meeting.durationMinutes / 60 < 25
        omega
      · exact (or_iff_left (h.waits hloading.2).2).symm
    · exact filled_of_same h (.refl v) hset
  | _ =>
    exact filled_of_same h
      (sameForm_next (fun meeting now heq => by cases heq) fun edit heq => by cases heq)
      (hother fun edit heq => by cases heq)

/-- The minutes were set at some time. -/
def MinutesWereSet (v : ScheduleForm) (evs : List Event) : Prop :=
  ¬ Runs.Guarded next (fun v e => ¬ v.SetsMinutes e) v evs

theorem filled_run
    (h : Runs.Guarded next (Loads DurationStored) (mount viewer editNumber now) evs) :
    (Runs.run next (mount viewer editNumber now) evs).Filled
      (MinutesWereSet (mount viewer editNumber now) evs) := by
  induction evs using List.reverseRecOn with
  | nil =>
    have huntouched : ¬ MinutesWereSet (mount viewer editNumber now) [] :=
      not_not.mpr Runs.guarded_nil
    have hhours : (0 : Int) ∈ hourOptions := by decide
    exact ⟨hhours, (or_iff_left huntouched).symm, fun _ => ⟨rfl, huntouched⟩⟩
  | append_singleton evs e ih =>
    obtain ⟨hevs, he⟩ := Runs.guarded_concat.mp h
    have hsplit : MinutesWereSet (mount viewer editNumber now) (evs ++ [e]) ↔
        MinutesWereSet (mount viewer editNumber now) evs ∨
          (Runs.run next (mount viewer editNumber now) evs).SetsMinutes e := by
      rw [MinutesWereSet, Runs.guarded_concat, not_and_or, not_not]
      rfl
    rw [Runs.run_concat, hsplit]
    exact filled_next (ih hevs) he

/-- **The minutes on the screen are those that are sent** exactly if the form was filled with a
quarter hour, or they were set; the minutes of a new meeting are neither. -/
theorem minutes_shown_iff {viewer : Viewer} {editNumber : Option String}
    {now : ℤ} {evs : List Event}
    {shows : List Int → Int → Int}
    (hoption : ∀ options, options ≠ [] → ∀ value, shows options value ∈ options)
    (hvalue : ∀ options, ∀ value ∈ options, shows options value = value)
    (h : Runs.Guarded next (Loads DurationStored) (mount viewer editNumber now) evs) :
    (Runs.run next (mount viewer editNumber now) evs).shownDuration shows =
        (Runs.run next (mount viewer editNumber now) evs).form.totalDuration ↔
      (Runs.run next (mount viewer editNumber now) evs).filledMinutes ∈ minuteOptions ∨
        ∃ pre minutes, pre ++ [.set (.durationMinutes minutes)] <+: evs ∧
          (Runs.run next (mount viewer editNumber now) pre).Shown ∧ minutes ∈ minuteOptions := by
  obtain ⟨hhours, hminutes, -⟩ := filled_run h
  have hset : MinutesWereSet (mount viewer editNumber now) evs ↔
      ∃ pre minutes, pre ++ [.set (.durationMinutes minutes)] <+: evs ∧
        (Runs.run next (mount viewer editNumber now) pre).Shown ∧ minutes ∈ minuteOptions := by
    simp only [MinutesWereSet, Runs.Guarded, SetsMinutes, not_forall, not_not]
    constructor
    · rintro ⟨pre, e, hpre, minutes, rfl, hshown⟩
      exact ⟨pre, minutes, hpre, hshown⟩
    · rintro ⟨pre, minutes, hpre, hshown⟩
      exact ⟨pre, _, hpre, minutes, rfl, hshown⟩
  rw [← hset, ← hminutes, shownDuration, FormState.totalDuration,
    hvalue _ _ hhours, Int.add_right_inj]
  constructor
  · intro hshows
    rw [← hshows]
    exact hoption _ (by decide) _
  · exact hvalue _ _

/-- What a select shows: the option of its value, and the first one if there is none. -/
def shownOption (options : List Int) (value : Int) : Int :=
  if value ∈ options then value else options.headD value

theorem shownOption_mem :
    ∀ options, options ≠ [] → ∀ value, shownOption options value ∈ options := by
  intro options hne value
  rw [shownOption]
  split
  · assumption
  · obtain ⟨first, rest, rfl⟩ := List.exists_cons_of_ne_nil hne
    exact List.mem_cons_self

theorem planHour_shown :
    (Runs.run next (mount utcViewer none 0) planHour).shownDuration shownOption =
      (Runs.run next (mount utcViewer none 0) planHour).form.totalDuration ↔
    (Runs.run next (mount utcViewer none 0) planHour).filledMinutes ∈ minuteOptions ∨
      ∃ pre minutes, pre ++ [.set (.durationMinutes minutes)] <+: planHour ∧
        (Runs.run next (mount utcViewer none 0) pre).Shown ∧ minutes ∈ minuteOptions :=
  minutes_shown_iff shownOption_mem (fun _ _ h => if_pos h) (loads_of_new (by simp [planHour]))

/-- An hour on the screen, and a hundred minutes that are sent. -/
example : (Runs.run next (mount utcViewer none 0) planHour).shownDuration shownOption = 60 ∧
    (Runs.run next (mount utcViewer none 0) planHour).form.totalDuration = 100 := by decide +kernel

end ScheduleForm

end ZoomClone
