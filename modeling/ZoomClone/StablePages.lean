/-
Pages and mutations.

A client follows the cursors of a listing while operations run between its requests.
The cursor is an id, and the key it stands for is read again from the row at each
request.

* `stable_walk` — as long as no operation between two requests changes the key of the
  anchor, every meeting that stays listed and unmodified is shown exactly once.
-/
import ZoomClone.Pagination

namespace ZoomClone

/-- What a client asks for, apart from the cursor. -/
structure ListRequest where
  host : User
  filter : String
  date : Option String := none
  limit : Int := defaultPageLimit

/-- How far a client has come. -/
inductive Progress where
  | asking (cursor : Option MeetingId)
  | complete
  | failed
  deriving DecidableEq

/-- A client that walks through a listing, and the database. -/
structure PageWalk where
  db : Db
  pages : List MeetingPage := []
  progress : Progress := .asking none
  deriving DecidableEq

inductive WalkEvent where
  | operate (op : Operation)
  | request (now : DateTime)

namespace PageWalk

/-- The answer to a request for a page. -/
def receive (w : PageWalk) : Service MeetingPage → PageWalk
  | .error _ => { w with progress := .failed }
  | .ok page =>
    { w with
      pages := w.pages ++ [page]
      progress := match page.nextCursor with
        | none => .complete
        | some c => .asking (some c) }

def step (q : ListRequest) (w : PageWalk) : WalkEvent → PageWalk
  | .operate op => { w with db := w.db.apply op }
  | .request now =>
    match w.progress with
    | .asking cursor => w.receive (listForHost w.db q.host q.filter q.date q.limit cursor now)
    | _ => w

/-- How often a meeting was shown. -/
def timesShown (w : PageWalk) (m : Meeting) : ℕ :=
  (w.pages.flatMap MeetingPage.items).countP fun v => v.meeting.id = m.id

/-- The walk has not failed, has not shown the meeting twice, and has shown it if it is
complete. -/
structure ShowsOnce (m : Meeting) (w : PageWalk) : Prop where
  notFailed : w.progress ≠ .failed
  atMostOnce : w.timesShown m ≤ 1
  once : w.progress = .complete → w.timesShown m = 1

end PageWalk

/-- At every request the meeting is there, the same row, and matches the filter. -/
def StaysListed (q : ListRequest) (f : ListFilter) (m : Meeting) (w : PageWalk) : WalkEvent → Prop
  | .operate _ => True
  | .request now => m ∈ w.db.meetings ∧ m.hostId = q.host.id ∧ f.selects now m

/-- Between two requests no operation changes the key of the anchor, the meeting that
the cursor of the next request names. -/
def KeepsAnchor (f : ListFilter) (w : PageWalk) : WalkEvent → Prop
  | .operate op => ∀ c, w.progress = .asking (some c) →
      ((w.db.apply op).getMeeting c).map f.sortKey = (w.db.getMeeting c).map f.sortKey
  | .request _ => True

def WalkEvent.DrawsIds : WalkEvent → Prop
  | .operate op => op.DrawsIds
  | .request _ => True

/-! ### Where the next page starts -/

/-- The position after which the next page starts; there is none for the first page. -/
inductive StartsAfter (f : ListFilter) (db : Db) :
    Option MeetingId → Option ListFilter.Position → Prop
  | first : StartsAfter f db none none
  | anchor {a : Meeting} (ha : a ∈ db.meetings) (hkey : ∃ key, f.sortKey a = some key) :
      StartsAfter f db (some a.id) (some (f.position a))

section Page

variable {db : Db} {q : ListRequest} {f : ListFilter} {cursor : Option MeetingId}
  {bound : Option ListFilter.Position}

/-- A request is answered with the rows of the list after that position. -/
theorem StartsAfter.listForHost (h : StartsAfter f db cursor bound) (hdb : db.Listable)
    (hfilter : readFilter q.filter q.date = .ok f) (now : DateTime) :
    ∃ rows, listForHost db q.host q.filter q.date q.limit cursor now =
        .ok (cutPage db (pageLimit q.limit) rows) ∧ Keyset.Ascending f.Before f.position rows ∧
      ∀ m, m ∈ rows ↔ m ∈ hostList db q.host f now ∧ Keyset.After f.Before f.position bound m := by
  cases h with
  | first =>
    -- no clause: the page is cut from the whole list
    refine ⟨hostList db q.host f now, ?_, ascending_hostRows .., fun m => ?_⟩
    · simp only [ZoomClone.listForHost, hfilter, bind, Except.bind]
      rfl
    · exact (and_iff_left (Keyset.after_none m)).symm
  | @anchor a ha hkey =>
    -- the clause is built from the key the anchor has now
    obtain ⟨key, hkey⟩ := hkey
    obtain ⟨after, hresume, hrows⟩ := hostRows_resume hdb q.host now hkey
    refine ⟨hostRows db q.host f now after, ?_, ascending_hostRows .., fun m => ?_⟩
    · have hgiven : given (some a.id) = some a.id := by simp [given, (hdb a ha).id]
      have hfound : db.getMeeting a.id = some a := Keyed.find?_of_mem ha
      simp only [ZoomClone.listForHost, hfilter, bind, Except.bind,
        cursorClause, hgiven, applyCursor,
        hfound, Service.getOrRaise, hresume]
      rfl
    · rw [hrows, List.mem_filter, decide_eq_true_eq, Keyset.after_some]

/-- A page shows a meeting of the database once, if at all. -/
theorem countP_cutPage {rows : List Meeting} (hrows : ∀ m ∈ rows, m ∈ db.meetings)
    (hascending : Keyset.Ascending f.Before f.position rows) {m : Meeting}
    (hm : m ∈ db.meetings) (n : ℕ) :
    (cutPage db n rows).items.countP (fun v => v.meeting.id = m.id) =
      if m ∈ rows.take n then 1 else 0 := by
  have hid : ∀ k ∈ rows.take n, (serializeMeeting db k).meeting.id = m.id ↔ k = m := by
    intro k hk
    constructor
    · exact Keyed.eq_of_key_eq (hrows k (List.mem_of_mem_take hk)) hm
    · rintro rfl
      rfl
  have hcount : (cutPage db n rows).items.countP (fun v => v.meeting.id = m.id) =
      (rows.take n).count m := by
    rw [cutPage_items, List.countP_map, List.count]
    refine List.countP_congr fun k hk => ?_
    simpa using hid k hk
  rw [hcount]
  split
  · next hmem =>
      exact List.count_eq_one_of_mem (hascending.nodup.sublist (List.take_sublist n rows)) hmem
  · next hmem => exact List.count_eq_zero.mpr hmem

end Page

/-! ### The invariant of a walk -/

/-- What was shown so far is what comes before the next page. -/
def PageWalk.Shows (f : ListFilter) (m : Meeting) (w : PageWalk) : Progress → Prop
  | .asking cursor => ∃ bound, StartsAfter f w.db cursor bound ∧
      (Keyset.After f.Before f.position bound m → w.timesShown m = 0) ∧
      (¬ Keyset.After f.Before f.position bound m → w.timesShown m = 1)
  | .complete => w.timesShown m = 1
  | .failed => False

structure PageWalk.Inv (f : ListFilter) (m : Meeting) (w : PageWalk) : Prop where
  listable : w.db.Listable
  shows : w.Shows f m w.progress

section Walk

variable {q : ListRequest} {f : ListFilter} {m : Meeting} {w : PageWalk}

theorem PageWalk.Inv.showsOnce (h : w.Inv f m) : w.ShowsOnce m := by
  have hshows := h.shows
  cases hprogress : w.progress with
  | asking cursor =>
    rw [hprogress] at hshows
    obtain ⟨bound, -, hzero, hone⟩ := hshows
    refine ⟨by simp [hprogress], ?_, by simp [hprogress]⟩
    by_cases hafter : Keyset.After f.Before f.position bound m
    · rw [hzero hafter]
      exact Nat.zero_le 1
    · exact (hone hafter).le
  | complete =>
    rw [hprogress] at hshows
    exact ⟨by simp [hprogress], Nat.le_of_eq hshows, fun _ => hshows⟩
  | failed =>
    rw [hprogress] at hshows
    exact hshows.elim

/-- An operation that keeps the key of the anchor keeps the start of the next page. -/
theorem StartsAfter.apply {db : Db} {cursor : Option MeetingId} {bound : Option ListFilter.Position}
    (h : StartsAfter f db cursor bound) {op : Operation}
    (hkeeps : ∀ c, cursor = some c →
      ((db.apply op).getMeeting c).map f.sortKey = (db.getMeeting c).map f.sortKey) :
    StartsAfter f (db.apply op) cursor bound := by
  cases h with
  | first => exact .first
  | @anchor a ha hkey =>
    have hfound : db.getMeeting a.id = some a := Keyed.find?_of_mem ha
    have hsame := hkeeps a.id rfl
    rw [hfound] at hsame
    -- the row may have changed otherwise: only its place matters
    obtain ⟨a', hfound', hkey'⟩ := Option.map_eq_some_iff.mp hsame
    obtain ⟨ha', hid⟩ := Keyed.find?_eq_some.mp hfound'
    have hposition : f.position a' = f.position a := Prod.ext hkey' hid
    rw [← hposition, ← hid]
    exact .anchor ha' (hkey'.symm ▸ hkey)

theorem PageWalk.Inv.operate (h : w.Inv f m) {op : Operation} (hop : op.DrawsIds)
    (hkeeps : KeepsAnchor f w (.operate op)) : (w.step q (.operate op)).Inv f m := by
  refine ⟨listable_apply hop h.listable, ?_⟩
  have hshows := h.shows
  cases hprogress : w.progress with
  | asking cursor =>
    rw [hprogress] at hshows
    obtain ⟨bound, hstart, hcount⟩ := hshows
    show PageWalk.Shows f m (w.step q (.operate op)) w.progress
    rw [hprogress]
    refine ⟨bound, hstart.apply fun c hc => ?_, hcount⟩
    exact hkeeps c (by rw [hprogress, hc])
  | complete =>
    rw [hprogress] at hshows
    show PageWalk.Shows f m (w.step q (.operate op)) w.progress
    rw [hprogress]
    exact hshows
  | failed =>
    rw [hprogress] at hshows
    exact hshows.elim

theorem PageWalk.timesShown_receive (w : PageWalk) (page : MeetingPage) (m : Meeting) :
    (w.receive (.ok page)).timesShown m =
      w.timesShown m + page.items.countP fun v => v.meeting.id = m.id := by
  simp [timesShown, receive]

section Served

variable {rows : List Meeting} {bound : Option ListFilter.Position} {now : DateTime} {n : ℕ}
  (hdb : w.db.Listable) (hascending : Keyset.Ascending f.Before f.position rows)
  (hrows : ∀ k, k ∈ rows ↔ k ∈ hostList w.db q.host f now ∧
    Keyset.After f.Before f.position bound k)
  (hlisted : m ∈ hostList w.db q.host f now)
  (hzero : Keyset.After f.Before f.position bound m → w.timesShown m = 0)
  (hone : ¬ Keyset.After f.Before f.position bound m → w.timesShown m = 1)

include hascending hrows hlisted in
theorem timesShown_served (n : ℕ) : (w.receive (.ok (cutPage w.db n rows))).timesShown m =
    w.timesShown m + if m ∈ rows.take n then 1 else 0 := by
  have hmeetings (k : Meeting) (hk : k ∈ rows) : k ∈ w.db.meetings :=
    (mem_hostRows.mp ((hrows k).mp hk).1).1
  rw [PageWalk.timesShown_receive, countP_cutPage hmeetings hascending (mem_hostRows.mp hlisted).1]

include hdb hascending hrows hlisted hzero hone in
/-- A page that leaves rows over shows what comes before the next page. -/
theorem shows_of_more (hn : 0 < n) (hmore : n < rows.length) :
    (w.receive (.ok (cutPage w.db n rows))).Shows f m
      (w.receive (.ok (cutPage w.db n rows))).progress := by
  have hshown := timesShown_served hascending hrows hlisted n
  -- `c` is the last row of the page, and the anchor of the next one
  obtain ⟨xs, c, ys, rfl, htake⟩ := Keyset.exists_last_of_take hn hmore
  obtain ⟨hclisted, hcafter⟩ := (hrows c).mp (by simp)
  have hnext : (cutPage w.db n (xs ++ c :: ys)).nextCursor = some c.id := by
    rw [cutPage_nextCursor, if_pos hmore, htake]
    simp
  have hprogress : (w.receive (.ok (cutPage w.db n (xs ++ c :: ys)))).progress =
      .asking (some c.id) := by
    simp only [PageWalk.receive, hnext]
  rw [htake] at hshown
  rw [hprogress]
  refine ⟨some (f.position c), .anchor (mem_hostRows.mp hclisted).1
    (sortKey_of_mem_hostList hdb hclisted),
    fun hafter => ?_, fun hnot => ?_⟩
  · -- still to come: after `c`, so after the old bound too, and not on this page
    rw [Keyset.after_some] at hafter
    have hbound : Keyset.After f.Before f.position bound m :=
      fun b hb => trans_of f.Before (hcafter b hb) hafter
    have hnotMem : m ∉ xs ++ [c] := fun hpage => ((hascending.mem_page_iff m).mp hpage).2 hafter
    rw [hshown, hzero hbound, if_neg hnotMem]
  · -- shown by now: on this page if it is after the old bound, else on an earlier one
    rw [Keyset.after_some] at hnot
    by_cases hbound : Keyset.After f.Before f.position bound m
    · have hmem : m ∈ xs ++ [c] :=
        (hascending.mem_page_iff m).mpr ⟨(hrows m).mpr ⟨hlisted, hbound⟩, hnot⟩
      rw [hshown, hzero hbound, if_pos hmem]
    · have hnotMem : m ∉ xs ++ [c] := fun hpage =>
        hbound ((hrows m).mp ((hascending.mem_page_iff m).mp hpage).1).2
      rw [hshown, hone hbound, if_neg hnotMem]

include hascending hrows hlisted hzero hone in
/-- A page that leaves no rows over completes the walk. -/
theorem shows_of_last (hmore : ¬ n < rows.length) :
    (w.receive (.ok (cutPage w.db n rows))).Shows f m
      (w.receive (.ok (cutPage w.db n rows))).progress := by
  have hshown := timesShown_served hascending hrows hlisted n
  rw [List.take_of_length_le (not_lt.mp hmore)] at hshown
  have hnext : (cutPage w.db n rows).nextCursor = none := by rw [cutPage_nextCursor, if_neg hmore]
  have hprogress : (w.receive (.ok (cutPage w.db n rows))).progress = .complete := by
    simp only [PageWalk.receive, hnext]
  rw [hprogress]
  show (w.receive (.ok (cutPage w.db n rows))).timesShown m = 1
  by_cases hbound : Keyset.After f.Before f.position bound m
  · rw [hshown, hzero hbound, if_pos ((hrows m).mpr ⟨hlisted, hbound⟩)]
  · rw [hshown, hone hbound, if_neg fun hmem => hbound ((hrows m).mp hmem).2]

end Served

theorem PageWalk.Inv.request (h : w.Inv f m) (hfilter : readFilter q.filter q.date = .ok f)
    {now : DateTime} (hlists : StaysListed q f m w (.request now)) :
    (w.step q (.request now)).Inv f m := by
  obtain ⟨hm, hhost, hselects⟩ := hlists
  have hshows := h.shows
  cases hprogress : w.progress with
  | asking cursor =>
    rw [hprogress] at hshows
    obtain ⟨bound, hstart, hzero, hone⟩ := hshows
    obtain ⟨rows, hpage, hascending, hrows⟩ := hstart.listForHost h.listable hfilter now
    have hlisted : m ∈ hostList w.db q.host f now := mem_hostRows.mpr ⟨hm, hhost, hselects, rfl⟩
    have hstep : w.step q (.request now) = w.receive
        (.ok (cutPage w.db (pageLimit q.limit) rows)) := by
      simp only [PageWalk.step, hprogress, hpage]
    rw [hstep]
    refine ⟨h.listable, ?_⟩
    by_cases hmore : pageLimit q.limit < rows.length
    · exact shows_of_more h.listable hascending hrows hlisted hzero hone
        (pageLimit_pos q.limit) hmore
    · exact shows_of_last hascending hrows hlisted hzero hone hmore
  | complete =>
    have hstep : w.step q (.request now) = w := by simp only [PageWalk.step, hprogress]
    rw [hstep]
    exact h
  | failed =>
    rw [hprogress] at hshows
    exact hshows.elim

end Walk

/-- **Pages and mutations.**  A walk through a listing starts in a database that the
operations reach.  If no operation between two requests changes the key of the anchor,
then the walk does not fail, and every meeting that is the same row and matches the
filter at all requests is shown at most once, and once when the walk is complete. -/
theorem stable_walk {ops : List Operation} (hops : ∀ op ∈ ops, op.DrawsIds) {q : ListRequest}
    {f : ListFilter} (hfilter : readFilter q.filter q.date = .ok f) {m : Meeting}
    {events : List WalkEvent}
    (hevents : ∀ e ∈ events, e.DrawsIds)
    (hlisted : Runs.Guarded (PageWalk.step q) (StaysListed q f m)
      { db := Runs.run Db.apply .empty ops } events)
    (hkeeps : Runs.Guarded (PageWalk.step q) (KeepsAnchor f)
      { db := Runs.run Db.apply .empty ops } events) :
    Runs.Always (PageWalk.step q) (PageWalk.ShowsOnce m)
    { db := Runs.run Db.apply .empty ops } events := by
  have hstart : PageWalk.Inv f m { db := Runs.run Db.apply .empty ops } :=
    ⟨listable_run ops hops, none, .first, fun _ => rfl,
      fun hnot => absurd (Keyset.after_none m) hnot⟩
  have hguard : Runs.Guarded (PageWalk.step q)
      (fun w e => e ∈ events ∧ StaysListed q f m w e ∧ KeepsAnchor f w e)
      { db := Runs.run Db.apply .empty ops } events := by
    intro pre e hpre
    exact ⟨hpre.subset (by simp), hlisted pre e hpre, hkeeps pre e hpre⟩
  refine (Runs.Guarded.always hstart (fun w e hinv he => ?_) hguard).mono fun w h => h.showsOnce
  obtain ⟨hmem, hlists, hanchor⟩ := he
  cases e with
  | operate op => exact hinv.operate (hevents _ hmem) hanchor
  | request now => exact hinv.request hfilter hlists

instance (q : ListRequest) (f : ListFilter) (m : Meeting) (w : PageWalk) :
    DecidablePred (StaysListed q f m w)
  | .operate _ => isTrue trivial
  | .request now => inferInstanceAs
    (Decidable (m ∈ w.db.meetings ∧ m.hostId = q.host.id ∧ f.selects now m))

/-- One upcoming meeting a page. -/
def oneByOne : ListRequest := { host := ada, filter := "upcoming", limit := 1 }

/-- The host edits the first meeting. -/
def edit (changes : MeetingChanges) : WalkEvent :=
  .operate (.request (.updateMeeting "host" "10000000003" changes 20))

/-- The second meeting of the list. -/
def second : Meeting :=
  { id := "m2", meetingNumber := "10000000005", hostId := "host", topic := "ada's Zoom Meeting"
    scheduledStart := some 60, passcode := "hRtz4K", inviteToken := "m2", createdAt := 10 }

/-- A new topic of the anchor does no harm. -/
theorem stable_walk_topic : Runs.Always (PageWalk.step oneByOne) (PageWalk.ShowsOnce second)
    { db := Runs.run Db.apply .empty threeScheduled }
    [.request 20, edit { topic := some "Standup" }, .request 20, .request 20] := by
  have hops : ∀ op ∈ threeScheduled, op.DrawsIds := by
    simp [threeScheduled, schedule, Operation.DrawsIds]
  have hfilter : readFilter oneByOne.filter oneByOne.date = .ok .upcoming := rfl
  refine stable_walk hops hfilter (by simp [edit, WalkEvent.DrawsIds, Operation.DrawsIds])
    (by decide +kernel) ?_
  simp only [Runs.guarded_cons, Runs.guarded_nil, KeepsAnchor, edit, and_true, true_and]
  intro c hc
  have hanchor : (PageWalk.step oneByOne { db := Runs.run Db.apply .empty threeScheduled }
      (.request 20)).progress = .asking (some "m1") := by decide +kernel
  rw [hanchor] at hc
  obtain rfl := Option.some.inj (Progress.asking.inj hc)
  decide +kernel

/-- A new start of the anchor takes the walk past the others. -/
theorem moved_anchor_skips : ¬ ∀ m : Meeting,
    Runs.Guarded (PageWalk.step oneByOne) (StaysListed oneByOne .upcoming m)
      { db := Runs.run Db.apply .empty threeScheduled }
      [.request 20, edit { scheduledStart := some ⟨100, none⟩ }, .request 20] →
    Runs.Always (PageWalk.step oneByOne) (PageWalk.ShowsOnce m)
      { db := Runs.run Db.apply .empty threeScheduled }
      [.request 20, edit { scheduledStart := some ⟨100, none⟩ }, .request 20] := by
  intro h
  have honce := (h second (by decide +kernel)).last.once
  revert honce
  decide +kernel

end ZoomClone
