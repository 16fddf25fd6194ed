/-
The selector of everyone in the room (`selectOrderedParticipants`).

The grid shows the own row first and the others in the order in which they came.  React
compares the arrays it gets by identity, so the selector keeps the last one and builds
another only for another `Map` or another own id.

* `Sound` — the array that is kept is the one of its key, and every state reached has its
  rows in the order of their insertion;
* `Steady` — the states between which the participants were left alone have one key;
* `ordered_participants` — the two together, over all runs.
-/
import ZoomClone.RoomStore
import ZoomClone.Runs

namespace ZoomClone

/-- `state.self?.id ?? null`. -/
def RoomState.selfId (state : RoomState) : Option ParticipantId := state.self.map ParticipantView.id

/-- The list for an own id and the rows; an empty id is taken for none. -/
def orderedParticipants (selfId : Option ParticipantId) (all : List ParticipantView) :
    List ParticipantView :=
  match given selfId with
  | some id => all.filter (fun p => p.id = id) ++ all.filter (fun p => p.id ≠ id)
  | none => all

/-- An array, with its identity. -/
structure ArrayRef where
  address : ℕ
  items : List ParticipantView

/-- The variables of the module, and how many arrays were made. -/
structure OrderedCache where
  participants : Option ℕ := none
  selfId : Option (Option ParticipantId) := none
  result : ArrayRef := ⟨0, []⟩
  arrays : ℕ := 1

/-- `[...participants.values()]`. -/
def RoomStore.valuesAt (s : RoomStore) (address : ℕ) : List ParticipantView :=
  (s.mapAt address).rows.map Prod.snd

def selectOrderedParticipants (store : RoomStore) (cache : OrderedCache) (state : RoomState) :
    ArrayRef × OrderedCache :=
  let selfId := state.selfId
  if some state.participants = cache.participants ∧ some selfId = cache.selfId then
    (cache.result, cache)
  else
    let all := store.valuesAt state.participants
    let result : ArrayRef := ⟨cache.arrays, orderedParticipants selfId all⟩
    (result,
      { participants := some state.participants, selfId := some selfId, result,
        arrays := cache.arrays + 1 })

/-- The store, the states it has had, and the selector. -/
structure RoomTab where
  store : RoomStore := {}
  reached : List RoomState := [{}]
  cache : OrderedCache := {}

/-- An action, or a call of the selector on the state with this number. -/
inductive RoomCall where
  | dispatch (action : StoreAction)
  | select (number : ℕ)

namespace RoomTab

def step (tab : RoomTab) : RoomCall → RoomTab
  | .dispatch action =>
    { tab with
      store := tab.store.apply action, reached := tab.reached ++ [(tab.store.apply action).state] }
  | .select number =>
    match tab.reached[number]? with
    | some state => { tab with cache := (selectOrderedParticipants tab.store tab.cache state).2 }
    | none => tab

/-- What a call on the state returns. -/
def selected (tab : RoomTab) (state : RoomState) : ArrayRef :=
  (selectOrderedParticipants tab.store tab.cache state).1

end RoomTab

/-- The actions of a run. -/
def dispatched (calls : List RoomCall) : List StoreAction :=
  calls.filterMap fun
    | .dispatch action => some action
    | .select _ => none

/-! ### The list -/

/-- The list is that of the entries with the own row first. -/
structure IsRoster (selfId : Option ParticipantId)
    (entries : List (ParticipantId × ParticipantView))
    (list : List ParticipantView) : Prop where
  perm : list.Perm (entries.map Prod.snd)
  own : ∀ id, selfId = some id → id ≠ "" → id ∈ (entries.map Prod.snd).map ParticipantView.id →
    list.head?.map ParticipantView.id = some id
  others : list.filter (fun p => some p.id ≠ selfId) = (entries.map Prod.snd).filter fun p =>
    some p.id ≠ selfId

theorem isRoster_orderedParticipants (selfId : Option ParticipantId)
    (entries : List (ParticipantId × ParticipantView)) :
    IsRoster selfId entries (orderedParticipants selfId (entries.map Prod.snd)) := by
  cases h : given selfId with
  | none =>
    refine ⟨by simp [orderedParticipants, h], ?_, by simp [orderedParticipants, h]⟩
    rintro id rfl hid
    simp [given, hid] at h
  | some id =>
    obtain ⟨rfl, hid⟩ := given_eq_some.mp h
    simp only [orderedParticipants, h]
    refine ⟨?_, ?_, by simp [List.filter_filter]⟩
    · simpa using List.filter_append_perm (fun p : ParticipantView => decide (p.id = id))
        (entries.map Prod.snd)
    · rintro _ ⟨⟩ - hmem
      obtain ⟨p, hp, hpid⟩ := List.mem_map.mp hmem
      have hown : p ∈ (entries.map Prod.snd).filter fun p => p.id = id :=
        List.mem_filter.mpr ⟨hp, by simpa using hpid⟩
      cases hfirst : (entries.map Prod.snd).filter fun p => p.id = id with
      | nil => simp [hfirst] at hown
      | cons q rest =>
        have hq : q ∈ (entries.map Prod.snd).filter fun p => p.id = id :=
          hfirst ▸ List.mem_cons_self
        simpa using (List.mem_filter.mp hq).2

/-! ### The selector -/

section

variable (store : RoomStore) (cache : OrderedCache) (state : RoomState)

/-- A call keeps its own key and its own array. -/
theorem select_cache :
    (selectOrderedParticipants store cache state).2.participants = some state.participants ∧
      (selectOrderedParticipants store cache state).2.selfId = some state.selfId ∧
        (selectOrderedParticipants store cache state).2.result =
      (selectOrderedParticipants store cache state).1 := by
  rw [selectOrderedParticipants]
  split_ifs with h
  · exact ⟨h.1.symm, h.2.symm, rfl⟩
  · exact ⟨rfl, rfl, rfl⟩

end

/-- What is kept is the list of its key. -/
def OrderedCache.Current (cache : OrderedCache) (store : RoomStore) : Prop :=
  ∀ address selfId, cache.participants = some address → cache.selfId = some selfId →
    address < store.maps.length ∧
      cache.result.items = orderedParticipants selfId (store.valuesAt address)

section

variable {store : RoomStore} {cache : OrderedCache} {state : RoomState}

theorem OrderedCache.Current.items (h : cache.Current store) :
    (selectOrderedParticipants store cache state).1.items =
      orderedParticipants state.selfId (store.valuesAt state.participants) := by
  rw [selectOrderedParticipants]
  split_ifs with hkey
  · exact (h _ _ hkey.1.symm hkey.2.symm).2
  · rfl

theorem OrderedCache.Current.select (h : cache.Current store)
    (hstate : state.participants < store.maps.length) :
    (selectOrderedParticipants store cache state).2.Current store := by
  obtain ⟨hparticipants, hselfId, hresult⟩ := select_cache store cache state
  intro address selfId haddress hself
  rw [hparticipants] at haddress
  rw [hselfId] at hself
  cases haddress
  cases hself
  rw [hresult]
  exact ⟨hstate, h.items⟩

theorem OrderedCache.Current.apply (h : cache.Current store) (action : StoreAction) :
    cache.Current (store.apply action) := by
  intro address selfId haddress hself
  obtain ⟨hlt, hitems⟩ := h address selfId haddress hself
  have hmaps := RoomStore.maps_apply store action
  rw [hitems, RoomStore.valuesAt, RoomStore.valuesAt, RoomStore.mapAt_of_prefix hmaps hlt]
  exact ⟨hlt.trans_le hmaps.length_le, rfl⟩

end

/-! ### Every state reached -/

namespace RoomTab

/-- The states are those after the actions, and the array that is kept is the one of its key. -/
structure Sound (actions : List StoreAction) (tab : RoomTab) : Prop where
  count : tab.reached.length = actions.length + 1
  last : tab.reached[actions.length]? = some tab.store.state
  allocated : ∀ state ∈ tab.reached, state.participants < tab.store.maps.length
  order : ∀ (i : ℕ) (state : RoomState), tab.reached[i]? = some state →
    InOrder (actions.take i).reverse (tab.store.mapAt state.participants).keys
  cache : tab.cache.Current tab.store

section

variable {actions : List StoreAction} {tab : RoomTab}

theorem sound_initial : Sound [] {} where
  count := rfl
  last := rfl
  allocated := by simp
  order := by
    intro i state h
    cases i with
    | zero =>
      cases h
      exact inOrder_nil
    | succ i => simp at h
  cache := by
    intro address selfId h
    cases h

theorem Sound.dispatch (h : Sound actions tab) (action : StoreAction) :
    Sound (actions ++ [action]) (tab.step (.dispatch action)) := by
  have hmaps := RoomStore.maps_apply tab.store action
  have hcurrent : tab.store.Allocated := h.allocated _ (List.mem_of_getElem? h.last)
  have hnext : (tab.store.apply action).Allocated := hcurrent.apply action
  refine ⟨by simp [step, h.count], by simp [step, h.count], ?_, ?_, h.cache.apply action⟩
  · intro state hstate
    rcases List.mem_append.mp hstate with hold | hnew
    · exact (h.allocated state hold).trans_le hmaps.length_le
    · rw [List.mem_singleton] at hnew
      subst hnew
      exact hnext
  · intro i state hstate
    simp only [step, List.getElem?_append] at hstate
    split_ifs at hstate with hi
    · -- A state of before: its `Map` is as it was.
      have hle : i ≤ actions.length := by
        have := h.count
        omega
      rw [List.take_append_of_le_length hle]
      simp only [step]
      rw [RoomStore.mapAt_of_prefix hmaps (h.allocated state (List.mem_of_getElem? hstate))]
      exact h.order i state hstate
    · -- The state that the action leads to.
      have hlt := (List.getElem?_eq_some_iff.mp hstate).1
      have hi : i = actions.length + 1 := by
        have := h.count
        simp only [List.length_singleton] at hlt
        omega
      have hlast := h.order _ _ h.last
      rw [List.take_length] at hlast
      rw [List.mem_singleton.mp (List.mem_of_getElem? hstate), hi, List.take_of_length_le (by simp),
        List.reverse_append]
      exact RoomStore.inOrder_apply hcurrent hlast action

theorem Sound.select (h : Sound actions tab) (number : ℕ) :
    Sound actions (tab.step (.select number)) := by
  rw [step]
  split
  · next state hstate =>
    exact { h with cache := h.cache.select (h.allocated state (List.mem_of_getElem? hstate)) }
  · exact h

theorem sound_run (calls : List RoomCall) : Sound (dispatched calls) (Runs.run step {} calls) := by
  induction calls using List.reverseRecOn with
  | nil => exact sound_initial
  | append_singleton calls call ih =>
    rw [Runs.run_concat]
    cases call with
    | dispatch action => simpa [dispatched] using ih.dispatch action
    | select number => simpa [dispatched] using ih.select number

end

/-! ### Calls between which nothing happened -/

/-- The call leaves the participants alone, or asks for a state from this number on. -/
def Undisturbed (first : ℕ) (tab : RoomTab) : RoomCall → Prop
  | .dispatch action => tab.store.Quiet action
  | .select number => first ≤ number

/-- The current state, and the states from this number on, have one key. -/
structure Steady (first : ℕ) (key : ℕ × Option ParticipantId) (tab : RoomTab) : Prop where
  current : (tab.store.state.participants, tab.store.state.selfId) = key
  later : ∀ i state, first ≤ i → tab.reached[i]? = some state →
    (state.participants, state.selfId) = key

/-- The array is kept under the key. -/
structure Kept (key : ℕ × Option ParticipantId) (result : ArrayRef) (tab : RoomTab) : Prop where
  participants : tab.cache.participants = some key.1
  selfId : tab.cache.selfId = some key.2
  result : tab.cache.result = result

section

variable {first : ℕ} {key : ℕ × Option ParticipantId} {result : ArrayRef}
  {tab : RoomTab} {call : RoomCall}
  {state : RoomState}

theorem Sound.steady {actions : List StoreAction} (h : Sound actions tab) :
    Steady actions.length (tab.store.state.participants, tab.store.state.selfId) tab where
  current := rfl
  later := by
    intro i state hi hstate
    have hlt := (List.getElem?_eq_some_iff.mp hstate).1
    obtain rfl : i = actions.length := by
      have := h.count
      omega
    rw [h.last] at hstate
    cases hstate
    rfl

theorem Steady.step (h : Steady first key tab) (hcall : Undisturbed first tab call) :
    Steady first key (tab.step call) := by
  cases call with
  | dispatch action =>
    obtain ⟨hparticipants, hself⟩ := RoomStore.Quiet.apply hcall
    have hcurrent : ((tab.store.apply action).state.participants,
        (tab.store.apply action).state.selfId) = key := by
      rw [hparticipants, RoomState.selfId, hself]
      exact h.current
    refine ⟨hcurrent, fun i state hi hstate => ?_⟩
    simp only [RoomTab.step, List.getElem?_append] at hstate
    split_ifs at hstate with hold
    · exact h.later i state hi hstate
    · rw [List.mem_singleton.mp (List.mem_of_getElem? hstate)]
      exact hcurrent
  | select number =>
    rw [RoomTab.step]
    split
    · exact ⟨h.current, h.later⟩
    · exact h

/-- A call on a state with the key returns the array that is kept under it. -/
theorem Kept.selected (h : Kept key result tab)
    (hstate : (state.participants, state.selfId) = key) :
    tab.selected state = result := by
  subst hstate
  rw [RoomTab.selected, selectOrderedParticipants,
    if_pos ⟨h.participants.symm, h.selfId.symm⟩, h.result]

theorem kept_select (number : ℕ) (hstate : tab.reached[number]? = some state) :
    Kept (state.participants, state.selfId) (tab.selected state) (tab.step (.select number)) := by
  obtain ⟨hparticipants, hselfId, hresult⟩ := select_cache tab.store tab.cache state
  simp only [step, hstate]
  exact ⟨hparticipants, hselfId, hresult⟩

theorem Kept.step (h : Kept key result tab) (hsteady : Steady first key tab)
    (hcall : Undisturbed first tab call) :
    Kept key result (tab.step call) := by
  cases call with
  | dispatch action => exact ⟨h.participants, h.selfId, h.result⟩
  | select number =>
    cases hstate : tab.reached[number]? with
    | none => simpa [RoomTab.step, hstate] using h
    | some state =>
      have hkey := hsteady.later number state hcall hstate
      have hkept := kept_select number hstate
      rwa [hkey, h.selected hkey] at hkept

/-- Two calls between which the participants were left alone return one array. -/
theorem Steady.selected_eq {i j : ℕ} {state' : RoomState} {before between : List RoomCall}
    (h : Steady first key tab)
    (hcalls : Runs.Guarded RoomTab.step (Undisturbed first) tab
      (before ++ .select i :: (between ++ [.select j])))
    (hi : (Runs.run RoomTab.step tab before).reached[i]? = some state)
    (hj : (Runs.run RoomTab.step tab (before ++ .select i :: between)).reached[j]? = some state') :
    (Runs.run RoomTab.step tab (before ++ .select i :: between)).selected state' =
      (Runs.run RoomTab.step tab before).selected state := by
  rw [Runs.guarded_append, Runs.guarded_cons, Runs.guarded_concat] at hcalls
  obtain ⟨hbefore, hselect, hbetween, hlast⟩ := hcalls
  -- From the first of the two calls on, its array is kept under the key.
  rw [Runs.run_append, Runs.run_cons] at hj ⊢
  have hfirst : Steady first key (Runs.run RoomTab.step tab before) :=
    (Runs.Guarded.always h (fun _ _ ht he => ht.step he) hbefore).last
  have hkept : Kept key ((Runs.run RoomTab.step tab before).selected state)
      ((Runs.run RoomTab.step tab before).step (.select i)) :=
    hfirst.later i state hselect hi ▸ kept_select i hi
  obtain ⟨hsteady, hsecond⟩ := (Runs.Guarded.always
    (I := fun t => Steady first key t ∧
      Kept key ((Runs.run RoomTab.step tab before).selected state) t)
    ⟨hfirst.step hselect, hkept⟩ (fun _ _ ht he => ⟨ht.1.step he, ht.2.step ht.1 he⟩) hbetween).last
  exact hsecond.selected (hsteady.later j state' hlast hj)

end

/-- On every state that was reached the selector returns the list that is computed without
a memory, and two calls between which the participants were left alone return one array. -/
theorem ordered_participants (calls : List RoomCall) :
    let tab := Runs.run RoomTab.step {} calls
    (∀ i state, tab.reached[i]? = some state →
      (tab.selected state).items = orderedParticipants state.selfId
        (tab.store.valuesAt state.participants) ∧
        IsRoster state.selfId (tab.store.mapAt state.participants).rows (tab.selected state).items ∧
        InOrder ((dispatched calls).take i).reverse (tab.store.mapAt state.participants).keys) ∧
      ∀ before between i j,
        Runs.Guarded RoomTab.step (Undisturbed (dispatched calls).length) tab
          (before ++ .select i :: (between ++ [.select j])) →
        ∀ state state', (Runs.run RoomTab.step tab before).reached[i]? = some state →
          (Runs.run RoomTab.step tab (before ++ .select i :: between)).reached[j]? = some state' →
            (Runs.run RoomTab.step tab (before ++ .select i :: between)).selected state' =
              (Runs.run RoomTab.step tab before).selected state := by
  intro tab
  have hsound : Sound (dispatched calls) tab := sound_run calls
  refine ⟨fun i state hstate => ?_, fun before between i j hcalls state state' hi hj => ?_⟩
  · have hitems : (tab.selected state).items = _ := hsound.cache.items
    refine ⟨hitems, ?_, hsound.order i state hstate⟩
    rw [hitems]
    exact isRoster_orderedParticipants _ _
  · exact hsound.steady.selected_eq hcalls hi hj

/-! ### Two in a room -/

/-- The row of a guest. -/
def guest (id : ParticipantId) : ParticipantView :=
  { id, meetingId := "m", userId := none, displayName := id, role := .participant, isMuted := false,
    isVideoOn := true, isHandRaised := false, joinedAt := 0, leftAt := none }

def guestMeeting : MeetingView :=
  { meeting :=
      { id := "m", meetingNumber := "82345678901", hostId := "h",
        topic := "Standup", passcode := "",
        inviteToken := "t", createdAt := 0 },
    meetingNumberDisplay := "823 4567 8901", host := none,
      isInstant := true, participantCount := 2 }

/-- The snapshot that a guest gets who comes second. -/
def arrival (id : ParticipantId) : RoomCall :=
  .dispatch (.setRoomState guestMeeting (guest id) [guest "a", guest id])

/-- A mute between two renders leaves the grid alone. -/
theorem ordered_participants_arrival :
    let tab := Runs.run RoomTab.step {} [arrival "b"]
    (tab.selected tab.store.state).items = [guest "b", guest "a"] ∧
      ∀ state', (Runs.run RoomTab.step tab [.select 1, .dispatch (.setMuted true)]).reached[2]? =
        some state' →
        (Runs.run RoomTab.step tab [.select 1, .dispatch (.setMuted true)]).selected state' =
          tab.selected tab.store.state := by
  intro tab
  obtain ⟨hitems, hsame⟩ := ordered_participants [arrival "b"]
  refine ⟨((hitems 1 _ rfl).1).trans (by decide), fun state' hstate' => ?_⟩
  refine hsame [] [.dispatch (.setMuted true)] 1 2 ?_ tab.store.state state' rfl hstate'
  simp [Runs.guarded_cons, Runs.guarded_nil, Undisturbed, RoomStore.Quiet, dispatched, arrival]

/-- A row with an empty id is not put first. -/
theorem empty_id_not_first :
    ¬ ∀ (calls : List RoomCall) (i : ℕ) (state : RoomState) (id : ParticipantId),
      (Runs.run RoomTab.step {} calls).reached[i]? = some state → state.selfId = some id →
        id ∈ ((Runs.run RoomTab.step {} calls).store.valuesAt state.participants).map
          ParticipantView.id →
          ((Runs.run RoomTab.step {} calls).selected state).items.head?.map
      ParticipantView.id = some id := by
  intro h
  have hfirst := h [arrival ""] 1 _ "" rfl rfl (by decide)
  exact absurd hfirst (by decide)

end RoomTab

end ZoomClone
