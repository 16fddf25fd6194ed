/-
The list of a host's meetings, page by page (`list_for_host`).

A query restricts the meetings to the host's, to the filter and to what comes after
the cursor, orders them by the filter's key with the id as tiebreak, and fetches one
row more than the page has.  The cursor is the id of the last row seen; its key is
read again from the row.  `NULL` sorts lowest, and no comparison with it holds.
-/
import Mathlib.Data.Int.ConditionallyCompleteOrder
import ZoomClone.Calendar
import ZoomClone.Keyset
import ZoomClone.ParticipantService

namespace ZoomClone

def defaultPageLimit : ℕ := 20
def maxPageLimit : ℕ := 100

/-- `filter_`, with the date of `day`. -/
inductive ListFilter where
  | upcoming
  | recent
  | day (date : CalendarDate)
  | all
  deriving DecidableEq

/-- The filter that is asked for.  The bounds of `day` are computed here: the last
date has no next one. -/
def readFilter (filter : String) (date : Option String) : Service ListFilter :=
  if filter = "upcoming" then .ok .upcoming
  else if filter = "recent" then .ok .recent
  else if filter = "day" then
    match given date with
    | none => .error (.app (.validation "filter=day requires a `date` query parameter (YYYY-MM-DD)."
        [("field", .str "date")]))
    | some date =>
      match strptimeDate date with
      | none =>
        .error (.app (.validation "`date` must be formatted YYYY-MM-DD." [("field", .str "date")]))
      | some day => if day = lastDate then .error .overflowError else .ok (.day day)
  else if filter = "all" then .ok .all
  else .error (.app (.validation "`filter` must be one of: upcoming, recent, day, all."
    [("field", .str "filter"), ("value", .str filter)]))

theorem given_iso (d : CalendarDate) : given (some d.iso) = some d.iso := by
  have hne : d.iso ≠ "" := by
    intro h
    have hlength := congrArg String.length h
    simp [CalendarDate.iso] at hlength
  simp [given, hne]

/-- `day` with the ISO form of a date that has a next one. -/
theorem readFilter_day {d : CalendarDate} (h : d.HasNext) :
    readFilter "day" (some d.iso) = .ok (.day d) := by
  simp [readFilter, given_iso, strptimeDate_iso, h.1, h.2]

/-- A date without a next one makes the request fail. -/
theorem readFilter_day_error {d : CalendarDate} (h : ¬ d.HasNext) :
    ∃ e, readFilter "day" (some d.iso) = .error e := by
  by_cases hyear : d.year ≤ 9999
  · have hlast : d = lastDate := by
      by_contra hne
      exact h ⟨hyear, hne⟩
    subst hlast
    exact ⟨.overflowError, by simp [readFilter, given_iso, strptimeDate_iso, if_pos hyear]⟩
  · exact ⟨_, by simp [readFilter, given_iso, strptimeDate_iso, hyear]; rfl⟩

namespace ListFilter

/-- The `WHERE` clause of the filter. -/
def selects (now : DateTime) : ListFilter → Meeting → Bool
  | upcoming, m => (m.status = .scheduled || m.status = .live) && m.scheduledStart.any (now ≤ ·)
  | recent, m => m.status = .ended
  | day date, m => m.status ≠ .cancelled &&
      m.scheduledStart.any fun start =>
        date.midnight ≤ start && start < date.midnight + microsPerDay
  | all, _ => true

/-- The column that the filter orders by. -/
def sortKey : ListFilter → Meeting → Option DateTime
  | upcoming, m => m.scheduledStart
  | day _, m => m.scheduledStart
  | recent, m => m.endedAt
  | all, m => some m.createdAt

/-- Newest first. -/
def descending : ListFilter → Bool
  | upcoming => false
  | day _ => false
  | recent => true
  | all => true

/-- Where a meeting stands in the order of the filter. -/
abbrev Position := WithBot DateTime × MeetingId

def position (f : ListFilter) (m : Meeting) : Position := (f.sortKey m, m.id)

/-- `ORDER BY key, id`, either both ascending or both descending. -/
def Before (f : ListFilter) (p q : Position) : Prop :=
  if f.descending then Prod.Lex (· < ·) (· < ·) q p else Prod.Lex (· < ·) (· < ·) p q

instance (f : ListFilter) : DecidableRel f.Before := fun p q =>
  inferInstanceAs (Decidable (if f.descending then Prod.Lex (· < ·) (· < ·) q p
    else Prod.Lex (· < ·) (· < ·) p q))

/-- The clause that resumes after the anchor: `key > anchor.key`, or `key =
anchor.key` and `id > anchor.id`; the other way round for newest first. -/
def resume (f : ListFilter) (anchor : Meeting) : Service (Meeting → Bool) :=
  match f.sortKey anchor with
  | none => .error .argumentError
  | some key => .ok fun m =>
    match f.sortKey m with
    | none => false
    | some k =>
      if f.descending then k < key || (k = key && m.id < anchor.id)
      else key < k || (k = key && anchor.id < m.id)

end ListFilter

/-- Resume after the row that the cursor names. -/
def applyCursor (db : Db) (f : ListFilter) (cursor : String) : Service (Meeting → Bool) := do
  let anchor ← .getOrRaise (db.getMeeting cursor)
    (.validation "Unknown pagination cursor." [("field", .str "cursor")])
  f.resume anchor

/-- The clause that a request adds for its cursor. -/
def cursorClause (db : Db) (f : ListFilter) (cursor : Option String) : Service (Meeting → Bool) :=
  match given cursor with
  | none => .ok fun _ => true
  | some cursor => applyCursor db f cursor

/-- `max(1, min(limit, MAX_PAGE_LIMIT))`. -/
def pageLimit (limit : Int) : ℕ := (max 1 (min limit maxPageLimit)).toNat

structure MeetingPage where
  items : List MeetingView
  nextCursor : Option MeetingId
  hasMore : Bool
  deriving DecidableEq

/-- The rows of the host that the filter and the cursor let through, in order. -/
def hostRows (db : Db) (host : User) (f : ListFilter) (now : DateTime) (after : Meeting → Bool) :
    List Meeting :=
  Keyset.sorted f.Before f.position
    (db.meetings.rows.filter fun m => m.hostId = host.id && f.selects now m && after m)

/-- The page cut from the fetched rows: one more is fetched than is served. -/
def cutPage (db : Db) (limit : ℕ) (rows : List Meeting) : MeetingPage :=
  let fetched := rows.take (limit + 1)
  let hasMore := limit < fetched.length
  let rows := fetched.take limit
  { items := rows.map (serializeMeeting db)
    nextCursor := if hasMore then rows.getLast?.map Meeting.id else none
    hasMore := hasMore }

/-- List the host's meetings. -/
def listForHost (db : Db) (host : User) (filter : String := "upcoming")
    (date : Option String := none)
    (limit : Int := defaultPageLimit) (cursor : Option String := none) (now : DateTime := 0) :
    Service MeetingPage := do
  let f ← readFilter filter date
  let after ← cursorClause db f cursor
  return cutPage db (pageLimit limit) (hostRows db host f now after)

/-! ### The order of a listing -/

instance (f : ListFilter) : IsStrictTotalOrder ListFilter.Position f.Before := by
  have hlex : IsStrictTotalOrder ListFilter.Position (Prod.Lex (· < ·) (· < ·)) := {}
  cases h : f.descending with
  | false =>
    have heq : f.Before = Prod.Lex (· < ·) (· < ·) := by
      funext p q
      simp [ListFilter.Before, h]
    exact heq ▸ hlex
  | true =>
    have heq : f.Before = Function.swap (Prod.Lex (· < ·) (· < ·)) := by
      funext p q
      simp [ListFilter.Before, h, Function.swap]
    rw [heq]
    infer_instance

/-- No two meetings stand at the same place: the id breaks ties. -/
theorem positions_distinct (f : ListFilter) (t : Keyed Meeting.id) (p : Meeting → Bool) :
    (t.rows.filter p).Pairwise fun m n => f.position m ≠ f.position n :=
  ((List.pairwise_map.mp t.nodup).imp fun hid heq => hid (Prod.mk.inj heq).2).filter p

theorem mem_hostRows {db : Db} {host : User} {f : ListFilter}
    {now : DateTime} {after : Meeting → Bool}
    {m : Meeting} : m ∈ hostRows db host f now after ↔
      m ∈ db.meetings ∧ m.hostId = host.id ∧ f.selects now m ∧ after m := by
  rw [hostRows, Keyset.mem_sorted, List.mem_filter]
  simp only [Bool.and_eq_true, decide_eq_true_eq, and_assoc]
  rfl

theorem ascending_hostRows (db : Db) (host : User) (f : ListFilter) (now : DateTime)
    (after : Meeting → Bool) :
    Keyset.Ascending f.Before f.position (hostRows db host f now after) :=
  Keyset.ascending_sorted (positions_distinct f db.meetings _)

/-- A listing is determined by the rows in it. -/
theorem hostRows_congr {db db' : Db} {host : User} {f : ListFilter} {now : DateTime}
    {after : Meeting → Bool} (h : ∀ m, m.hostId = host.id → (m ∈ db'.meetings ↔ m ∈ db.meetings)) :
    hostRows db' host f now after = hostRows db host f now after := by
  refine (ascending_hostRows ..).eq_of_perm (ascending_hostRows ..) ?_
  have hnodup (db : Db) : (hostRows db host f now after).Nodup := (ascending_hostRows ..).nodup
  refine (List.perm_ext_iff_of_nodup (hnodup db') (hnodup db)).mpr fun m => ?_
  rw [mem_hostRows, mem_hostRows]
  constructor
  · rintro ⟨hm, hhost, hrest⟩
    exact ⟨(h m hhost).mp hm, hhost, hrest⟩
  · rintro ⟨hm, hhost, hrest⟩
    exact ⟨(h m hhost).mpr hm, hhost, hrest⟩

end ZoomClone
