/-
The recently used meeting ids of the join form (`recentMeetingIds.ts`).

They are a JSON array in `localStorage`, read leniently and rewritten whole, with the
parsed list cached for `useSyncExternalStore`.  `localStorage` works throughout.

* `getRecentMeetingIds_clean` — whatever is stored, a few digit strings are read;
* `recent_ids` — after any calls from an empty storage, the list and the snapshot are
  the ids in order of most recent use.
-/
import ZoomClone.JsonText
import ZoomClone.MeetingIds
import ZoomClone.RecentlyUsed
import ZoomClone.Runs

namespace ZoomClone

open RecentlyUsed

def maxRecent : ℕ := 5

/-- `typeof value === "string"`, with the text. -/
def textOf : JsonText.Json → Option String
  | .string text => some (String.ofList text)
  | _ => none

/-- The body of the `try`; `none` is what `JSON.parse` throws. -/
def readIds (raw : String) : Option (List String) := do
  let parsed ← JsonText.parse raw.toList
  match parsed with
  | .array items =>
    return (((items.filterMap textOf).map normalizeMeetingId).filter fun value =>
      0 < value.length).take maxRecent
  | _ => return []

/-- The list that the stored item gives, newest first. -/
def getRecentMeetingIds (stored : Option String) : List String :=
  match given stored with
  | none => []
  | some raw => (readIds raw).getD []

/-- `JSON.stringify` of the ids. -/
def stringifyIds (ids : List String) : String :=
  String.ofList (JsonText.stringifyStrings (ids.map String.toList))

/-- The stored item and the variable of the module. -/
structure RecentIds where
  stored : Option String := none
  cachedSnapshot : Option (List String) := none

namespace RecentIds

/-- The list that is returned, and what is left behind. -/
def rememberMeetingId (tab : RecentIds) (meetingNumber : String) : List String × RecentIds :=
  let id := normalizeMeetingId meetingNumber
  if id = "" then (getRecentMeetingIds tab.stored, tab)
  else
    let next := (id :: (getRecentMeetingIds tab.stored).filter (· ≠ id)).take maxRecent
    (next, { stored := some (stringifyIds next), cachedSnapshot := some next })

def getRecentMeetingIdsSnapshot (tab : RecentIds) : List String × RecentIds :=
  let snapshot := tab.cachedSnapshot.getD (getRecentMeetingIds tab.stored)
  (snapshot, { tab with cachedSnapshot := some snapshot })

end RecentIds

/-- The calls, and the event by which the browser says that another tab wrote the item. -/
inductive RecentIdsCall where
  | remember (meetingNumber : String)
  | read
  | snapshot
  | storageEvent

def RecentIds.call (tab : RecentIds) : RecentIdsCall → RecentIds
  | .remember meetingNumber => (tab.rememberMeetingId meetingNumber).2
  | .read => tab
  | .snapshot => tab.getRecentMeetingIdsSnapshot.2
  | .storageEvent => { tab with cachedSnapshot := none }

/-! ### What is read -/

/-- An id as the list holds it. -/
def IsId (id : String) : Prop := id ≠ "" ∧ ∀ c ∈ id.toList, c.isDigit

theorem isId_normalizeMeetingId {s : String} (h : normalizeMeetingId s ≠ "") :
    IsId (normalizeMeetingId s) :=
  ⟨h, fun _ hc => (mem_normalizeMeetingId.mp hc).2⟩

theorem normalizeMeetingId_eq_self {id : String} (h : IsId id) : normalizeMeetingId id = id := by
  rw [normalizeMeetingId, JsStr.digits, List.filter_eq_self.mpr, String.ofList_toList]
  intro c hc
  rw [inRanges_ascii]
  exact h.2 c hc

/-- **Whatever is stored**, at most five digit strings are read from it. -/
theorem getRecentMeetingIds_clean (stored : Option String) :
    (getRecentMeetingIds stored).length ≤ maxRecent ∧
      ∀ id ∈ getRecentMeetingIds stored, IsId id := by
  unfold getRecentMeetingIds
  split
  · simp
  · next raw hraw =>
    unfold readIds
    cases JsonText.parse raw.toList with
    | none => simp
    | some parsed =>
      cases parsed with
      | array items =>
        simp only [Option.bind_eq_bind, Option.bind_some, Option.pure_def, Option.getD_some]
        refine ⟨List.length_take_le _ _, fun id hid => ?_⟩
        obtain ⟨hmem, hpos⟩ := List.mem_filter.mp (List.mem_of_mem_take hid)
        obtain ⟨s, -, rfl⟩ := List.mem_map.mp hmem
        refine isId_normalizeMeetingId ?_
        rintro hempty
        rw [hempty] at hpos
        exact absurd hpos (by decide)
      | _ => simp

/-- What was written is read back. -/
theorem getRecentMeetingIds_stringify {ids : List String} (hlength : ids.length ≤ maxRecent)
    (hids : ∀ id ∈ ids, IsId id) : getRecentMeetingIds (some (stringifyIds ids)) = ids := by
  have hgiven : given (some (stringifyIds ids)) = some (stringifyIds ids) := by
    refine given_eq_some.mpr ⟨rfl, fun hempty => ?_⟩
    have hlist := congrArg String.toList hempty
    simp [stringifyIds, JsonText.stringifyStrings] at hlist
  have htexts : ((ids.map String.toList).map JsonText.Json.string).filterMap textOf = ids := by
    simp [List.filterMap_map, Function.comp_def, textOf]
  have hnormal : ids.map normalizeMeetingId = ids :=
    (List.map_congr_left fun id hid => normalizeMeetingId_eq_self (hids id hid)).trans
      (List.map_id' ids)
  have hkept : (ids.filter fun value => 0 < value.length) = ids := by
    refine List.filter_eq_self.mpr fun id hid => ?_
    have := (hids id hid).1
    simpa [Nat.pos_iff_ne_zero, String.length_eq_zero_iff] using this
  rw [getRecentMeetingIds, hgiven]
  simp only [readIds, stringifyIds, String.toList_ofList, JsonText.parse_stringifyStrings,
    Option.bind_eq_bind,
    Option.bind_some, Option.pure_def, Option.getD_some, htexts, hnormal, hkept]
  exact List.take_of_length_le hlength

/-! ### Runs -/

/-- The id that a call uses. -/
def usedId : RecentIdsCall → Option String
  | .remember meetingNumber => given (some (normalizeMeetingId meetingNumber))
  | .read | .snapshot | .storageEvent => none

/-- The tab holds the list of the uses, in the storage and in the cache. -/
structure Tracks (tab : RecentIds) (uses : List String) : Prop where
  stored : getRecentMeetingIds tab.stored = recent maxRecent uses
  cached : ∀ ids, tab.cachedSnapshot = some ids → ids = recent maxRecent uses

theorem tracks_empty : Tracks {} [] :=
  ⟨rfl, fun _ h => nomatch h⟩

variable {tab : RecentIds} {uses : List String}

theorem Tracks.snapshot (h : Tracks tab uses) :
    tab.getRecentMeetingIdsSnapshot.1 = recent maxRecent uses := by
  show tab.cachedSnapshot.getD (getRecentMeetingIds tab.stored) = _
  cases hcached : tab.cachedSnapshot with
  | none => exact h.stored
  | some ids => exact h.cached ids hcached

/-- A call with an id puts it first. -/
theorem Tracks.remember (h : Tracks tab uses) {meetingNumber : String}
    (hid : normalizeMeetingId meetingNumber ≠ "") :
    (tab.rememberMeetingId meetingNumber).1 = recent maxRecent
      (uses ++ [normalizeMeetingId meetingNumber]) ∧
      Tracks (tab.rememberMeetingId meetingNumber).2
        (uses ++ [normalizeMeetingId meetingNumber]) := by
  have hnext : (normalizeMeetingId meetingNumber :: (getRecentMeetingIds tab.stored).filter
      (· ≠ normalizeMeetingId meetingNumber)).take maxRecent =
        recent maxRecent (uses ++ [normalizeMeetingId meetingNumber]) := by
    rw [← touch_recent, touch, h.stored]
  have hread : getRecentMeetingIds (some (stringifyIds (recent maxRecent
      (uses ++ [normalizeMeetingId meetingNumber])))) = recent maxRecent (uses ++
          [normalizeMeetingId meetingNumber]) := by
    refine getRecentMeetingIds_stringify (length_recent _ _) fun id hmem => ?_
    rw [← hnext] at hmem
    rcases List.mem_cons.mp (List.mem_of_mem_take hmem) with rfl | hold
    · exact isId_normalizeMeetingId hid
    · exact (getRecentMeetingIds_clean tab.stored).2 id (List.mem_filter.mp hold).1
  simp only [RecentIds.rememberMeetingId, if_neg hid, hnext]
  exact ⟨trivial, hread, fun ids hcached => (Option.some.inj hcached).symm⟩

theorem Tracks.call (h : Tracks tab uses) (e : RecentIdsCall) :
    Tracks (tab.call e) (uses ++ (usedId e).toList) := by
  cases e with
  | remember meetingNumber =>
    by_cases hid : normalizeMeetingId meetingNumber = ""
    · have hnone : usedId (.remember meetingNumber) = none := by simp [usedId, given, hid]
      rw [hnone, RecentIds.call, RecentIds.rememberMeetingId]
      simpa [hid] using h
    · have hsome : usedId (.remember meetingNumber) = some (normalizeMeetingId meetingNumber) :=
        given_eq_some.mpr ⟨rfl, hid⟩
      rw [hsome]
      exact (h.remember hid).2
  | read =>
    rw [usedId, Option.toList_none, List.append_nil]
    exact h
  | snapshot =>
    rw [usedId, Option.toList_none, List.append_nil]
    exact ⟨h.stored, fun ids hcached => (Option.some.inj hcached).symm.trans h.snapshot⟩
  | storageEvent =>
    -- The cache is dropped, what is stored stays.
    rw [usedId, Option.toList_none, List.append_nil]
    exact ⟨h.stored, by simp [RecentIds.call]⟩

theorem tracks_run (calls : List RecentIdsCall) :
    Tracks (Runs.run RecentIds.call {} calls) (calls.filterMap usedId) := by
  induction calls using List.reverseRecOn with
  | nil => exact tracks_empty
  | append_singleton calls e ih =>
    rw [Runs.run_concat, List.filterMap_append]
    have hlast : [e].filterMap usedId = (usedId e).toList := by
      cases h : usedId e <;> simp [h]
    rw [hlast]
    exact ih.call e

/-- **The recent ids.**  After any calls from an empty storage, the list that is read,
the snapshot, and what the next call returns are the used ids in order of most recent
use, at most five; and from whatever is stored, at most five digit strings are read. -/
theorem recent_ids (calls : List RecentIdsCall) :
    let tab := Runs.run RecentIds.call {} calls
    getRecentMeetingIds tab.stored = recent maxRecent (calls.filterMap usedId) ∧
    tab.getRecentMeetingIdsSnapshot.1 = recent maxRecent (calls.filterMap usedId) ∧
    (∀ meetingNumber, (tab.rememberMeetingId meetingNumber).1 =
      recent maxRecent ((calls ++ [RecentIdsCall.remember meetingNumber]).filterMap usedId)) ∧
    ∀ stored, (getRecentMeetingIds stored).length ≤ maxRecent ∧
        ∀ id ∈ getRecentMeetingIds stored, IsId id := by
  intro tab
  have htracks : Tracks tab (calls.filterMap usedId) := tracks_run calls
  refine ⟨htracks.stored, htracks.snapshot, fun meetingNumber => ?_, getRecentMeetingIds_clean⟩
  rw [List.filterMap_append]
  by_cases hid : normalizeMeetingId meetingNumber = ""
  · have hnone : [RecentIdsCall.remember meetingNumber].filterMap usedId = [] := by
      simp [usedId, given, hid]
    simp only [hnone, List.append_nil, ← htracks.stored, RecentIds.rememberMeetingId, if_pos hid]
  · have hsome : usedId (.remember meetingNumber) = some (normalizeMeetingId meetingNumber) :=
      given_eq_some.mpr ⟨rfl, hid⟩
    rw [List.filterMap_cons_some hsome, List.filterMap_nil]
    exact (htracks.remember hid).1

end ZoomClone
