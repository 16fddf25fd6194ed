/-
The tabs of the meetings screen.

Upcoming asks for the meetings that are scheduled or live and start from now on,
Previous for those that have ended.  No meeting is in both lists, and one that was
cancelled is in neither.  A meeting whose start has passed without its end is in
neither as well: it leaves Upcoming with its start and enters Previous with its end.

* `listedBy_iff` — a meeting is on some page of a listing iff the filter selects it;
* `tabs_of_scheduled` — which tabs show a scheduled meeting, in every database that the
  operations reach.
-/
import ZoomClone.Pagination
import ZoomClone.Lifecycle

namespace ZoomClone

/-- Following the cursors of a listing comes upon the meeting. -/
def ListedBy (db : Db) (host : User) (filter : String) (limit : Int)
    (now : DateTime) (m : Meeting) : Prop :=
  ∃ pages, Keyset.Walk (Fetches db host filter none limit now) MeetingPage.nextCursor none pages ∧
    serializeMeeting db m ∈ pages.flatMap MeetingPage.items

/-- Exactly one of the tabs Upcoming and Previous shows the meeting. -/
def InOneTab (db : Db) (host : User) (limit : Int) (now : DateTime) (m : Meeting) : Prop :=
  (ListedBy db host "upcoming" limit now m ∧ ¬ ListedBy db host "recent" limit now m) ∨
    (ListedBy db host "recent" limit now m ∧ ¬ ListedBy db host "upcoming" limit now m)

section

variable {db : Db} {host : User} {m : Meeting} {now : DateTime}

theorem serializeMeeting_injective (db : Db) : Function.Injective (serializeMeeting db) :=
  fun _ _ h => congrArg MeetingView.meeting h

/-- The pages hold the meetings of the host that the filter selects. -/
theorem listedBy_iff (hdb : db.Listable) {filter : String} {f : ListFilter}
    (hfilter : readFilter filter none = .ok f) (limit : Int) :
    ListedBy db host filter limit now m ↔ m ∈ db.meetings ∧
      m.hostId = host.id ∧ f.selects now m := by
  have hserves := serves_hostList hdb host now hfilter limit
  obtain ⟨pages, hwalk, hpages, -⟩ := hserves.exists_walk (pageLimit_pos limit)
  have hmem : serializeMeeting db m ∈ pages.flatMap MeetingPage.items ↔
      m ∈ db.meetings ∧ m.hostId = host.id ∧ f.selects now m := by
    rw [hpages, List.mem_map_of_injective (serializeMeeting_injective db), hostList, mem_hostRows]
    simp
  rw [← hmem]
  constructor
  · rintro ⟨pages', hwalk', h⟩
    have hsame : pages' = pages :=
      hwalk'.unique (fun cursor page page' hpage hpage' => Except.ok.inj
        (hpage.symm.trans hpage')) hwalk
    exact hsame ▸ h
  · intro h
    exact ⟨pages, hwalk, h⟩

variable {start : DateTime}

theorem selects_upcoming (hstart : m.scheduledStart = some start) (hkept : m.status ≠ .cancelled) :
    ListFilter.upcoming.selects now m ↔ m.status ≠ .ended ∧ now ≤ start := by
  cases hs : m.status <;> simp_all [ListFilter.selects]

theorem selects_recent : ListFilter.recent.selects now m ↔ m.status = .ended := by
  simp [ListFilter.selects]

/-- The Upcoming tab. -/
theorem listedBy_upcoming (hdb : db.Listable) (hm : m ∈ db.meetings) (hhost : m.hostId = host.id)
    (hstart : m.scheduledStart = some start) (hkept : m.status ≠ .cancelled) (limit : Int) :
    ListedBy db host "upcoming" limit now m ↔ m.status ≠ .ended ∧ now ≤ start := by
  rw [listedBy_iff hdb (f := .upcoming) rfl, selects_upcoming hstart hkept]
  simp [hm, hhost]

/-- The Previous tab. -/
theorem listedBy_recent (hdb : db.Listable) (hm : m ∈ db.meetings) (hhost : m.hostId = host.id)
    (limit : Int) :
    ListedBy db host "recent" limit now m ↔ m.status = .ended := by
  rw [listedBy_iff hdb (f := .recent) rfl, selects_recent]
  simp [hm, hhost]

end

/-- **The tabs of a scheduled meeting.**  In every database that the operations reach
and at every instant, no meeting of a host that has a start and was not cancelled is in
both tabs, and it is in one of them exactly if it has ended or its start has not
passed. -/
theorem tabs_of_scheduled {ops : List Operation} (hops : ∀ op ∈ ops, op.DrawsIds) (now : DateTime)
    (host : User) (limit : Int) :
    let db := Runs.run Db.apply .empty ops
    ∀ m ∈ db.meetings, m.hostId = host.id → ∀ start, m.scheduledStart = some start →
      m.status ≠ .cancelled →
      ¬ (ListedBy db host "upcoming" limit now m ∧ ListedBy db host "recent" limit now m) ∧
      (InOneTab db host limit now m ↔ m.status = .ended ∨ now ≤ start) := by
  intro db m hm hhost start hstart hkept
  have hdb : db.Listable := listable_run ops hops
  rw [InOneTab, listedBy_upcoming hdb hm hhost hstart hkept, listedBy_recent hdb hm hhost]
  by_cases hended : m.status = .ended
  · simp [hended]
  · simp [hended]

/-- Meetings that start later are in the Upcoming tab. -/
theorem tabs_of_threeScheduled : ∃ m ∈ (Runs.run Db.apply .empty threeScheduled).meetings,
    InOneTab (Runs.run Db.apply .empty threeScheduled) ada 2 20 m := by
  have hops : ∀ op ∈ threeScheduled, op.DrawsIds := by
    simp [threeScheduled, schedule, Operation.DrawsIds]
  obtain ⟨m, hm, hhost, hstart, hstatus⟩ :
    ∃ m ∈ (Runs.run Db.apply .empty threeScheduled).meetings.rows,
      m.hostId = ada.id ∧ m.scheduledStart = some 50 ∧ m.status = .scheduled := by decide +kernel
  have htabs := tabs_of_scheduled hops 20 ada 2 m hm hhost 50 hstart (by simp [hstatus])
  exact ⟨m, hm, htabs.2.mpr (.inr (by decide))⟩

/-- Nobody starts a meeting, and its start passes: no tab shows it. -/
theorem overdue_in_no_tab : ¬ ∀ ops :
    List Operation, (∀ op ∈ ops, op.DrawsIds) → (times ops).Pairwise (· ≤ ·) →
    ∀ now : DateTime, (∀ t ∈ times ops, t ≤ now) → ∀ host ∈ (Runs.run Db.apply .empty ops).users,
      ∀ m ∈ (Runs.run Db.apply .empty ops).meetings, m.hostId = host.id → m.scheduledStart ≠ none →
        m.status ≠ .cancelled →
          ∀ limit, InOneTab (Runs.run Db.apply .empty ops) host limit now m := by
  intro h
  have hops : ∀ op ∈ threeScheduled, op.DrawsIds := by
    simp [threeScheduled, schedule, Operation.DrawsIds]
  obtain ⟨host, huser, hid⟩ : ∃ host ∈ (Runs.run Db.apply .empty threeScheduled).users.rows,
      host.id = "host" := by decide +kernel
  obtain ⟨m, hm, hhost, hstart, hstatus⟩ :
    ∃ m ∈ (Runs.run Db.apply .empty threeScheduled).meetings.rows,
      m.hostId = "host" ∧ m.scheduledStart = some 50 ∧ m.status = .scheduled := by decide +kernel
  rw [← hid] at hhost
  have hkept : m.status ≠ .cancelled := by simp [hstatus]
  have hone := h threeScheduled hops (by decide +kernel) 55
    (by decide +kernel) host huser m hm hhost
    (by simp [hstart]) hkept 20
  rw [InOneTab, listedBy_upcoming (listable_run _ hops) hm hhost hstart hkept,
    listedBy_recent (listable_run _ hops) hm hhost, hstatus] at hone
  revert hone
  decide +kernel

end ZoomClone
