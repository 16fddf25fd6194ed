/-
The requests of the day strip (`DayStrip.tsx`).

The arrows and the Today pill change the date, and the effect asks for it.  The list is
not reset in between: a result carries its date, and counts as loading on any other.  So
unlike the meetings screen the strip can neither show the rows of another date nor wait
for a request that was never made (`dayStrip_own_date`).
-/
import ZoomClone.DayStrip
import ZoomClone.EffectRequests
import ZoomClone.Runs

namespace ZoomClone

structure DayStripView where
  selectedDate : CalendarDate
  result : Option DayStripResult := none
  requests : EffectRequests String := {}

namespace DayStripView

/-- The first render on a date, and its effect. -/
def mount (today : CalendarDate) : DayStripView :=
  { selectedDate := today, requests := ({} : EffectRequests String).restart (some today.iso) }

/-- `loading`. -/
def loading (v : DayStripView) : Bool := v.result.all fun result => result.date ≠ v.selectedDate.iso

def rows (v : DayStripView) : List MeetingView := dayStripMeetings v.selectedDate v.result

inductive Event where
  /-- The Today pill or an arrow chooses a date. -/
  | select (date : CalendarDate)
  | answered (i : ℕ) (items : List MeetingView)
  | failed (i : ℕ)

/-- `setResult` in the effect of a request, unless its cleanup has run. -/
def store (v : DayStripView) (i : ℕ) (items : List MeetingView) : DayStripView :=
  match v.requests.answer i with
  | none => v
  | some dateStr => { v with result := some ⟨dateStr, items⟩, requests := v.requests.settle }

/-- The effect depends on the text of the date. -/
def next (v : DayStripView) : Event → DayStripView
  | .select date =>
    { v with
      selectedDate := date
      requests := if date.iso = v.selectedDate.iso then
        v.requests else v.requests.restart (some date.iso) }
  | .answered i items => v.store i items
  | .failed i => v.store i []

variable {v : DayStripView} {e : Event} {evs : List Event} {today : CalendarDate}

/-- The rows are what the API answered to a request for the date. -/
def Fetched (evs : List Event) (v : DayStripView) (result : DayStripResult) : Prop :=
  ∃ i, v.requests.made[i]? = some result.date ∧
    (.answered i result.meetings ∈ evs ∨ .failed i ∈ evs ∧ result.meetings = [])

theorem Fetched.mono {w : DayStripView} {result : DayStripResult} (h : Fetched evs v result)
    (hmade : v.requests.made <+: w.requests.made) : Fetched evs w result := by
  obtain ⟨i, hi, h⟩ := h
  obtain ⟨later, hlater⟩ := hmade
  refine ⟨i, ?_, h⟩
  rw [← hlater, List.getElem?_append_left (List.getElem?_eq_some_iff.mp hi).1, hi]

/-- What holds of the strip in every run. -/
structure OwnDate (evs : List Event) (v : DayStripView) : Prop where
  follows : v.requests.Follows (some v.selectedDate.iso)
  fetched : ∀ result, v.result = some result → Fetched evs v result
  awaits : v.loading = true → v.requests.awaited = some v.selectedDate.iso

theorem ownDate_mount : (mount today).OwnDate evs where
  follows := EffectRequests.follows_restart
  fetched := by simp [mount]
  awaits := fun _ => rfl

theorem OwnDate.select (h : v.OwnDate evs) (date : CalendarDate) :
    (v.next (.select date)).OwnDate evs := by
  by_cases hsame : date.iso = v.selectedDate.iso
  · simp only [next, if_pos hsame]
    refine ⟨by simpa only [hsame] using h.follows, h.fetched, ?_⟩
    simpa only [loading, hsame] using h.awaits
  · simp only [next, if_neg hsame]
    refine ⟨EffectRequests.follows_restart, ?_, fun _ => EffectRequests.awaited_restart⟩
    intro result hresult
    exact (h.fetched result hresult).mono EffectRequests.made_prefix_restart

theorem OwnDate.store {i : ℕ} {items : List MeetingView} (h : v.OwnDate evs)
    (he : .answered i items ∈ evs ∨ .failed i ∈ evs ∧ items = []) :
    (v.store i items).OwnDate evs := by
  unfold DayStripView.store
  cases hanswer : v.requests.answer i with
  | none => exact h
  | some dateStr =>
    obtain ⟨hkey, hmade⟩ := h.follows.made hanswer
    obtain rfl : v.selectedDate.iso = dateStr := Option.some.inj hkey
    refine ⟨EffectRequests.follows_settle, ?_, by simp [loading]⟩
    intro result hresult
    obtain rfl := Option.some.inj hresult
    exact ⟨i, hmade, he⟩

theorem OwnDate.next (h : v.OwnDate evs) (he : e ∈ evs) : (v.next e).OwnDate evs := by
  cases e with
  | select date => exact h.select date
  | answered i items => exact h.store (.inl he)
  | failed i => exact h.store (.inr ⟨he, rfl⟩)

/-- **The strip shows its own date.**  In every run, while the strip is loading the request
for the selected date is under way, and the rows it shows are the answer to a request for
the selected date. -/
theorem dayStrip_own_date (today : CalendarDate) (evs : List Event) :
    let v := Runs.run next (mount today) evs
    (v.loading = true → v.requests.awaited = some v.selectedDate.iso) ∧
      (v.rows ≠ [] → ∃ i, v.requests.made[i]? = some v.selectedDate.iso ∧
          .answered i v.rows ∈ evs) := by
  intro v
  have h : v.OwnDate evs := (Runs.always_of_mem ownDate_mount fun w e he hw => hw.next he).last
  refine ⟨h.awaits, ?_⟩
  intro hrows
  cases hresult : v.result with
  | none => simp [rows, dayStripMeetings, hresult] at hrows
  | some result =>
    by_cases hdate : result.date = v.selectedDate.iso
    · have heq : v.rows = result.meetings := by simp [rows, dayStripMeetings, hresult, hdate]
      obtain ⟨i, hi, hanswered | ⟨-, hempty⟩⟩ := h.fetched result hresult
      · exact ⟨i, hdate ▸ hi, heq ▸ hanswered⟩
      · rw [heq, hempty] at hrows
        exact absurd rfl hrows
    · simp [rows, dayStripMeetings, hresult, hdate] at hrows

end DayStripView

end ZoomClone
