/-
Following the cursors of a listing.

The clause of a cursor selects what comes after the anchor in the order of the filter,
for every row that the filter selects: such a row has a key.  So a request serves the
list in the sense of `Keyset.Serves`, and the pages make it up.
-/
import ZoomClone.Listing
import ZoomClone.MeetingNumbers

namespace ZoomClone

/-! ### What the listings rest on -/

/-- The ids that are drawn for meetings are not empty: an empty cursor is none. -/
def Operation.DrawsIds : Operation → Prop
  | .request (.createMeeting _ _ draws _) => ∀ k, draws.ids k ≠ ""
  | _ => True

/-- A meeting has an id, and one that has ended says when. -/
structure Meeting.Listable (m : Meeting) : Prop where
  id : m.id ≠ ""
  endedAt : m.status = .ended → m.endedAt ≠ none

def Db.Listable (db : Db) : Prop := ∀ m ∈ db.meetings, m.Listable

theorem Meeting.Moves.endedAt {db : Db} {op : Operation} {m m' : Meeting} (h : m.Moves db op m')
    (hm : m.status = .ended → m.endedAt ≠ none) : m'.status = .ended → m'.endedAt ≠ none := by
  cases h with
  | kept => exact hm
  | edited changes topic start duration ha hs => exact hm
  | cancelled ha hs => exact fun hended => nomatch hended
  | started now ha ht hs => exact fun hended => nomatch hended
  | ended now ha ht hs => exact fun _ => Option.some_ne_none now

/-- A meeting that an operation adds has a drawn id. -/
theorem id_ne_empty_apply {db : Db} {op : Operation} (hop : op.DrawsIds)
    (h : ∀ m ∈ db.meetings, m.id ≠ "") : ∀ m ∈ (db.apply op).meetings, m.id ≠ "" := by
  cases hrun : runOperation db op with
  | error e =>
    rw [Db.apply, hrun]
    exact h
  | ok db' =>
    rw [apply_of_ok hrun]
    by_cases hcreate : op.IsCreate
    · cases runOperation_commits hrun with
      | createMeeting hhost hmake =>
        obtain ⟨topic, start, duration, k, number, db₁, -, hins, hsame⟩ := createMeeting_ok hmake
        obtain ⟨hid, rfl, -⟩ := Db.insertMeeting_ok hins
        intro m hm
        rw [hsame.meetings] at hm
        rcases (Keyed.mem_insert (h := hid)).mp hm with hm | rfl
        · exact h m hm
        · exact hop k
      | _ => cases hcreate
    · -- nothing else adds a row
      intro m' hm'
      obtain ⟨m, hm, hid, -⟩ := runOperation_numbers hrun hcreate m' hm'
      rw [hid]
      exact h m hm

theorem listable_apply {db : Db} {op : Operation} (hop : op.DrawsIds) (h : db.Listable) :
    (db.apply op).Listable := by
  intro m' hm'
  refine ⟨id_ne_empty_apply hop (fun m hm => (h m hm).id) m' hm', ?_⟩
  obtain ⟨f, added, hmove⟩ := apply_meetings db op
  rcases hmove.cases hm' with ⟨m, hm, hmoves⟩ | hcreates
  · exact hmoves.endedAt (h m hm).endedAt
  · obtain ⟨now, -, -, ⟨hs, -⟩ | ⟨hs, -⟩⟩ :=
      hcreates.stamped <;> rw [hs] <;> exact fun hended => nomatch hended

theorem listable_run (ops : List Operation) (hops : ∀ op ∈ ops, op.DrawsIds) :
    (Runs.run Db.apply .empty ops).Listable := by
  have hempty : Db.empty.Listable := fun m hm => absurd hm (Keyed.not_mem_empty m)
  exact (Runs.always_of_mem hempty fun db op hop h => listable_apply (hops op hop) h).last

/-! ### The clause of a cursor -/

/-- A row that the filter selects has a key. -/
theorem Meeting.Listable.sortKey {m : Meeting} (h : m.Listable) {f : ListFilter} {now : DateTime}
    (hselects : f.selects now m) : ∃ key, f.sortKey m = some key := by
  cases f with
  | upcoming =>
    simp only [ListFilter.selects, Bool.and_eq_true, Option.any_eq_true] at hselects
    obtain ⟨-, start, hstart, -⟩ := hselects
    exact ⟨start, hstart⟩
  | recent =>
    have hended : m.status = .ended := by simpa [ListFilter.selects] using hselects
    exact Option.ne_none_iff_exists'.mp (h.endedAt hended)
  | day date =>
    simp only [ListFilter.selects, Bool.and_eq_true, Option.any_eq_true] at hselects
    obtain ⟨-, start, hstart, -⟩ := hselects
    exact ⟨start, hstart⟩
  | all => exact ⟨m.createdAt, rfl⟩

/-- The clause holds of the rows after the anchor. -/
theorem resume_of_key {f : ListFilter} {anchor : Meeting} {key : DateTime}
    (h : f.sortKey anchor = some key) : ∃ after, f.resume anchor = .ok after ∧
      ∀ m k, f.sortKey m = some k →
        (after m = true ↔ f.Before (f.position anchor) (f.position m)) := by
  unfold ListFilter.resume
  rw [h]
  refine ⟨_, rfl, fun m k hk => ?_⟩
  have hanchor : f.position anchor = ((key : WithBot DateTime), anchor.id) := by
    rw [ListFilter.position, h]
    rfl
  have hm : f.position m = ((k : WithBot DateTime), m.id) := by
    rw [ListFilter.position, hk]
    rfl
  rw [hanchor, hm, ListFilter.Before]
  cases f.descending with
  | false => simp [hk, Prod.lex_iff, @eq_comm _ k key]
  | true => simp [hk, Prod.lex_iff]

/-! ### One page -/

section Page

variable {db : Db} {host : User} {f : ListFilter} {now : DateTime}

/-- The list that the pages enumerate. -/
def hostList (db : Db) (host : User) (f : ListFilter) (now : DateTime) : List Meeting :=
  hostRows db host f now fun _ => true

theorem hostRows_eq_filter (after : Meeting → Bool) :
    hostRows db host f now after = (hostList db host f now).filter after := by
  rw [hostList, hostRows, hostRows, ← Keyset.sorted_filter (positions_distinct f db.meetings _),
    List.filter_filter]
  congr 1
  refine List.filter_congr fun m _ => ?_
  simp [Bool.and_comm]

theorem sortKey_of_mem_hostList (hdb : db.Listable) {m : Meeting}
    (hm : m ∈ hostList db host f now) :
    ∃ key, f.sortKey m = some key := by
  obtain ⟨hmem, -, hselects, -⟩ := mem_hostRows.mp hm
  exact (hdb m hmem).sortKey hselects

/-- The rows served under a cursor are those of the list that come after the anchor,
which may have left the list. -/
theorem hostRows_resume (hdb : db.Listable) (host : User) (now : DateTime)
    {anchor : Meeting} {key : DateTime}
    (hkey : f.sortKey anchor = some key) : ∃ after, f.resume anchor = .ok after ∧
      hostRows db host f now after =
        (hostList db host f now).filter fun m => f.Before (f.position anchor) (f.position m) := by
  obtain ⟨after, hresume, hafter⟩ := resume_of_key hkey
  refine ⟨after, hresume, ?_⟩
  rw [hostRows_eq_filter]
  refine List.filter_congr fun m hm => ?_
  obtain ⟨k, hk⟩ := sortKey_of_mem_hostList hdb hm
  rw [Bool.eq_iff_iff, hafter m k hk, decide_eq_true_eq]

theorem cutPage_items (n : ℕ) (rows : List Meeting) :
    (cutPage db n rows).items = (rows.take n).map (serializeMeeting db) := by
  simp [cutPage, List.take_take]

theorem cutPage_hasMore (n : ℕ) (rows : List Meeting) :
    (cutPage db n rows).hasMore = decide (n < rows.length) := by
  simp [cutPage, List.length_take]

theorem cutPage_nextCursor (n : ℕ) (rows : List Meeting) : (cutPage db n rows).nextCursor =
    if n < rows.length then (rows.take n).getLast?.map Meeting.id else none := by
  have hmore : n < (rows.take (n + 1)).length ↔ n < rows.length := by
    rw [List.length_take]
    omega
  simp only [cutPage, List.take_take, hmore, Nat.min_eq_left (Nat.le_succ n)]

/-- More rows are announced exactly with a cursor for them. -/
theorem cutPage_hasMore_iff {n : ℕ} (hn : 0 < n) (rows : List Meeting) :
    (cutPage db n rows).hasMore = true ↔ (cutPage db n rows).nextCursor ≠ none := by
  rw [cutPage_hasMore, cutPage_nextCursor, decide_eq_true_eq]
  constructor
  · intro hmore
    have hne : rows.take n ≠ [] := by
      intro hnil
      have hlength := congrArg List.length hnil
      rw [List.length_take, List.length_nil] at hlength
      omega
    rw [if_pos hmore, List.getLast?_eq_some_getLast hne]
    exact Option.some_ne_none _
  · intro hsome
    by_contra hmore
    exact hsome (if_neg hmore)

/-! ### All pages -/

/-- The answer to a request for a page. -/
def Fetches (db : Db) (host : User) (filter : String) (date : Option String)
    (limit : Int) (now : DateTime)
    (cursor : Option String) (page : MeetingPage) : Prop :=
  listForHost db host filter date limit cursor now = .ok page

theorem pageLimit_pos (limit : Int) : 0 < pageLimit limit := by
  unfold pageLimit
  omega

theorem serves_hostList (hdb : db.Listable) (host : User) (now : DateTime)
    {filter : String} {date : Option String}
    (hfilter : readFilter filter date = .ok f) (limit : Int) :
    Keyset.Serves (Fetches db host filter date limit now) MeetingPage.nextCursor MeetingPage.items
      (fun v => v.meeting.id) (pageLimit limit)
      ((hostList db host f now).map (serializeMeeting db)) := by
  intro xs ys hrows
  obtain ⟨ms, ns, hlist, rfl, rfl⟩ := List.map_eq_append_iff.mp hrows
  have hcut (cursor : Option String) (after : Meeting → Bool)
    (hclause : cursorClause db f cursor = .ok after)
      (hns : hostRows db host f now after = ns) :
      Fetches db host filter date limit now cursor (cutPage db (pageLimit limit) ns) := by
    simp only [Fetches, listForHost, hfilter, hclause, bind, Except.bind, hns]
    rfl
  have hpage (cursor : Option String)
      (hfetch : Fetches db host filter date limit now cursor (cutPage db (pageLimit limit) ns)) :
      ∃ page, Fetches db host filter date limit now cursor page ∧
        page.items = (ns.map (serializeMeeting db)).take (pageLimit limit) ∧
        page.nextCursor = if pageLimit limit < (ns.map (serializeMeeting db)).length then
          ((ns.map (serializeMeeting db)).take (pageLimit limit)).getLast?.map fun v => v.meeting.id
        else none := by
    refine ⟨_, hfetch, ?_, ?_⟩
    · rw [cutPage_items, List.map_take]
    · rw [cutPage_nextCursor, List.length_map, ← List.map_take, List.getLast?_map, Option.map_map]
      rfl
  -- the cursor after the rows `ms` is the id of their last one
  rcases List.eq_nil_or_concat ms with rfl | ⟨zs, c, rfl⟩
  · exact hpage none (hcut none _ rfl hlist)
  · rw [List.concat_eq_append] at hlist ⊢
    rw [List.append_assoc] at hlist
    have hc : c ∈ hostList db host f now := by simp [hlist]
    have hmem : c ∈ db.meetings := (mem_hostRows.mp hc).1
    obtain ⟨key, hkey⟩ := sortKey_of_mem_hostList hdb hc
    obtain ⟨after, hresume, hrows⟩ := hostRows_resume hdb host now hkey
    have hascending : Keyset.Ascending f.Before f.position (zs ++ c :: ns) :=
      hlist ▸ ascending_hostRows db host f now _
    have hns : hostRows db host f now after = ns := by
      rw [hrows, hlist]
      exact hascending.filter_after
    have hfound : db.getMeeting c.id = some c := Keyed.find?_of_mem hmem
    have hclause : cursorClause db f (some c.id) = .ok after := by
      have hgiven : given (some c.id) = some c.id := by simp [given, (hdb c hmem).id]
      rw [cursorClause, hgiven]
      simp [applyCursor, hfound, Service.getOrRaise, bind, Except.bind, hresume]
    have hlast : ((zs ++ [c]).map (serializeMeeting db)).getLast?.map
        (fun v => v.meeting.id) = some c.id := by
      simp [serializeMeeting]
    rw [hlast]
    exact hpage (some c.id) (hcut (some c.id) after hclause hns)

end Page

/-- **Cursor pagination enumerates the list.**  In every database that the operations
reach, following the cursors of a listing ends after some pages, and with no others.
The pages hold the host's meetings that the filter selects, each once and in the order
of the filter; all but the last are full; and a page announces more exactly when it
has a cursor. -/
theorem pages_enumerate {ops : List Operation} (hops : ∀ op ∈ ops, op.DrawsIds) {filter : String}
    {date : Option String} {f : ListFilter} (hfilter : readFilter filter date = .ok f) (host : User)
    (limit : Int) (now : DateTime) :
    let db := Runs.run Db.apply .empty ops
    let Walk := Keyset.Walk (Fetches db host filter date limit now) MeetingPage.nextCursor none
    ∃ pages, Walk pages ∧ (∀ pages', Walk pages' → pages' = pages) ∧
      (∃ ms : List Meeting,
        ms.Perm (db.meetings.rows.filter fun m => m.hostId = host.id && f.selects now m) ∧
        ms.Pairwise (fun m n => f.Before (f.position m) (f.position n)) ∧
        pages.flatMap MeetingPage.items = ms.map (serializeMeeting db)) ∧
      (∀ page ∈ pages.dropLast, page.items.length = pageLimit limit) ∧
      ∀ page ∈ pages, page.hasMore = true ↔ page.nextCursor ≠ none := by
  intro db Walk
  have hserves := serves_hostList (listable_run ops hops) host now hfilter limit
  obtain ⟨pages, hwalk, hpages, hfull⟩ := hserves.exists_walk (pageLimit_pos limit)
  refine ⟨pages, hwalk, fun pages' hwalk' => ?_,
    ⟨hostList db host f now, ?_, ?_, hpages⟩, hfull, ?_⟩
  · refine hwalk'.unique (fun cursor page page' hpage hpage' => ?_) hwalk
    exact Except.ok.inj (hpage.symm.trans hpage')
  · have hperm : (hostList db host f now).Perm
        (db.meetings.rows.filter fun m => m.hostId = host.id && f.selects now m && true) :=
      Keyset.sorted_perm _
    simpa using hperm
  · exact ascending_hostRows db host f now _
  · refine hwalk.forall_mem fun cursor page hpage => ?_
    simp only [Fetches, listForHost, hfilter, Service.bind_eq_ok, Service.pure_eq_ok] at hpage
    obtain ⟨f', hf', after, -, rfl⟩ := hpage
    exact cutPage_hasMore_iff (pageLimit_pos limit) _

/-- A host schedules a meeting under the id `id`. -/
def schedule (id : MeetingId) (draw : ℕ) (start : DateTime) : Operation :=
  .request (.createMeeting "host" { scheduledStart := some ⟨start, none⟩ }
    { passcode := "hRtz4K", inviteToken := id, ids := fun _ => id, numbers := fun _ => (0, draw)
      inviteeIds := fun _ => "" } 10)

/-- Three scheduled meetings, two of them at the same time. -/
def threeScheduled : List Operation :=
  [.request (.signInGoogle { sub := "g-host", email := some "ada@example.com" }
      ⟨"host", "", fun _ => (0, 1)⟩),
   schedule "m1" 3 50, schedule "m3" 4 60, schedule "m2" 5 60]

def ada : User := { id := "host", email := "ada@example.com", name := "ada"
                    personalMeetingId := "10000000001" }

/-- They are enumerated in pages of two. -/
theorem pages_enumerate_scheduled :
    ∃ pages, Keyset.Walk
      (Fetches (Runs.run Db.apply .empty threeScheduled) ada "upcoming" none 2 20)
      MeetingPage.nextCursor none pages ∧ ∀ page ∈ pages.dropLast, page.items.length = 2 := by
  have hops : ∀ op ∈ threeScheduled, op.DrawsIds := by
    simp [threeScheduled, schedule, Operation.DrawsIds]
  have hfilter : readFilter "upcoming" none = .ok .upcoming := rfl
  obtain ⟨pages, hwalk, -, -, hfull, -⟩ := pages_enumerate hops hfilter ada 2 20
  exact ⟨pages, hwalk, hfull⟩

end ZoomClone
