/-
The settings dialog (`SettingsModal.tsx`).

The dialog holds a camera for the preview and a microphone for the level meter, and stops
both when it closes.  What `requestUserMedia` brings is put into a ref without a look at
whether the dialog is still open or the ref is empty.  The form is overwritten with what a
save brings back.

* `devices_iff` — when no stream is lost to the dialog, and that a stream that is lost stays
  live;
* `form_kept_iff` — when the form keeps what the user has chosen.
-/
import ZoomClone.Preferences
import ZoomClone.RoomVisit

namespace ZoomClone

/-! ### Device tests -/

/-- A device test: the streams it was granted, the one in its ref, and the
`requestUserMedia` calls under way. -/
structure MediaTest where
  streams : Pool := {}
  requests : ℕ := 0

namespace MediaTest

/-- `startPreview` and `startMicTest`, up to their await: the stream in the ref is stopped. -/
def start (t : MediaTest) : MediaTest := ⟨t.streams.release, t.requests + 1⟩

/-- `stopPreview` and `stopMicTest`. -/
def stop (t : MediaTest) : MediaTest := { t with streams := t.streams.release }

/-- A request is granted, and its stream goes into the ref. -/
def granted (t : MediaTest) : MediaTest :=
  if 0 < t.requests then ⟨t.streams.acquire, t.requests - 1⟩ else t

def failed (t : MediaTest) : MediaTest := { t with requests := t.requests - 1 }

variable {t : MediaTest} {i : ℕ}

theorem quiet_start (h : t.streams.Held) : t.start.streams.Quiet := Pool.quiet_release.mpr h

theorem quiet_stop (h : t.streams.Held) : t.stop.streams.Quiet := Pool.quiet_release.mpr h

/-- A granted stream is the only one if there was none. -/
theorem held_granted (h : t.streams.Held) :
    t.granted.streams.Held ↔ (0 < t.requests → t.streams.Quiet) := by
  rw [granted]
  split
  · rename_i hrequested
    constructor
    · intro hheld _
      exact Pool.atMostOne_acquire.mp hheld.atMostOne
    · intro hquiet
      exact Pool.held_acquire (hquiet hrequested)
  · rename_i hnone
    exact iff_of_true h fun hrequested => absurd hrequested hnone

theorem quiet_granted (h : t.streams.Quiet) : t.granted.streams.Quiet ↔ t.requests = 0 := by
  rw [granted]
  split
  · exact iff_of_false Pool.not_quiet_acquire (by omega)
  · exact iff_of_true h (by omega)

/-- The stream is live, and the ref does not hold it. -/
def Displaced (t : MediaTest) (i : ℕ) : Prop := t.streams.IsLive i ∧ t.streams.current ≠ some i

/-- The stream is live, and the dialog will not stop it: it is closed, or its ref holds another
stream. -/
def Lost (t : MediaTest) (mounted : Bool) (i : ℕ) : Prop :=
  t.streams.IsLive i ∧ (mounted = false ∨ t.streams.current ≠ some i)

/-- Every stream that was lost is lost still, and a live one that the ref did not hold is live
and not held. -/
structure StillLost (t t' : MediaTest) (mounted mounted' : Bool) : Prop where
  displaced : ∀ i, t.Displaced i → t'.Displaced i
  lost : ∀ i, t.Lost mounted i → t'.Lost mounted' i

/-- A test that has lost nothing holds what is live, and is quiet once the dialog is closed. -/
theorem not_lost_iff {mounted : Bool} :
    (∀ i, ¬ t.Lost mounted i) ↔ t.streams.Held ∧ (mounted = false → t.streams.Quiet) := by
  constructor
  · intro h
    refine ⟨fun i hi => ?_, fun hclosed i hi => h i ⟨hi, .inl hclosed⟩⟩
    by_contra hother
    exact h i ⟨hi, .inr hother⟩
  · rintro ⟨hheld, hquiet⟩ i ⟨hi, hclosed | hother⟩
    · exact hquiet hclosed i hi
    · exact hother (hheld i hi)

/-- What an event does to the streams of a test; only an open dialog stops one. -/
inductive Moves (mounted : Bool) (t : MediaTest) : Pool → Prop where
  | same : Moves mounted t t.streams
  | acquire : Moves mounted t t.streams.acquire
  | release (hopen : mounted = true) : Moves mounted t t.streams.release

theorem moves_granted {mounted : Bool} : Moves mounted t t.granted.streams := by
  rw [granted]
  split
  · exact .acquire
  · exact .same

/-- The ref takes up new streams only. -/
theorem Displaced.moves {t' : MediaTest} {mounted : Bool} (h : t.Displaced i)
    (hmoves : Moves mounted t t'.streams) : t'.Displaced i := by
  obtain ⟨hlive, hother⟩ := h
  generalize hp : t'.streams = p at hmoves
  rw [Displaced, hp]
  cases hmoves with
  | same => exact ⟨hlive, hother⟩
  | acquire =>
    refine ⟨Pool.isLive_acquire.mpr (.inl hlive), ?_⟩
    intro hcurrent
    obtain ⟨hi, -⟩ := List.getElem?_eq_some_iff.mp hlive
    exact absurd (Option.some.inj hcurrent) (Nat.ne_of_gt hi)
  | release hopen => exact ⟨Pool.isLive_release.mpr ⟨hlive, hother⟩, by simp [Pool.release]⟩

/-- **A stream that is lost stays so.** -/
theorem Moves.stillLost {t' : MediaTest} {mounted mounted' : Bool}
    (hmoves : Moves mounted t t'.streams) (hclosed : mounted = false → mounted' = false) :
    StillLost t t' mounted mounted' where
  displaced i h := h.moves hmoves
  lost i h := by
    obtain ⟨hlive, hshut | hother⟩ := h
    · -- a closed dialog stops nothing
      refine ⟨?_, .inl (hclosed hshut)⟩
      generalize t'.streams = p at hmoves ⊢
      cases hmoves with
      | same => exact hlive
      | acquire => exact Pool.isLive_acquire.mpr (.inl hlive)
      | release hopen => exact absurd hopen (by simp [hshut])
    · obtain ⟨hlive', hother'⟩ := Displaced.moves ⟨hlive, hother⟩ hmoves
      exact ⟨hlive', .inr hother'⟩

theorem StillLost.refl (t : MediaTest) (mounted : Bool) : StillLost t t mounted mounted :=
  ⟨fun _ h => h, fun _ h => h⟩

theorem StillLost.trans {t' t'' : MediaTest} {mounted mounted' mounted'' : Bool}
    (h : StillLost t t' mounted mounted') (h' : StillLost t' t'' mounted' mounted'') :
    StillLost t t'' mounted mounted'' :=
  ⟨fun i hi => h'.displaced i (h.displaced i hi), fun i hi => h'.lost i (h.lost i hi)⟩

end MediaTest

/-! ### The dialog -/

/-- `patch(key, value)`. -/
inductive SettingsPatch where
  | theme (value : String)
  | muteOnJoin (value : Bool)
  | videoOffOnJoin (value : Bool)
  | gallerySize (value : Int)
  | mirrorVideo (value : Bool)
  | alwaysShowControls (value : Bool)
  | audioInputId (value : Option String)
  | audioOutputId (value : Option String)
  | videoInputId (value : Option String)

def SettingsPatch.apply (row : PreferencesRow) : SettingsPatch → PreferencesRow
  | .theme value => { row with theme := value }
  | .muteOnJoin value => { row with muteOnJoin := value }
  | .videoOffOnJoin value => { row with videoOffOnJoin := value }
  | .gallerySize value => { row with gallerySize := value }
  | .mirrorVideo value => { row with mirrorVideo := value }
  | .alwaysShowControls value => { row with alwaysShowControls := value }
  | .audioInputId value => { row with audioInputId := value }
  | .audioOutputId value => { row with audioOutputId := value }
  | .videoInputId value => { row with videoInputId := value }

/-- The body of a save: every setting, whether it was changed or not. -/
def PreferencesRow.payload (row : PreferencesRow) : PreferencesUpdate where
  theme := some (some row.theme)
  muteOnJoin := some (some row.muteOnJoin)
  videoOffOnJoin := some (some row.videoOffOnJoin)
  gallerySize := some (some row.gallerySize)
  mirrorVideo := some (some row.mirrorVideo)
  alwaysShowControls := some (some row.alwaysShowControls)
  audioInputId := some row.audioInputId
  audioOutputId := some row.audioOutputId
  videoInputId := some row.videoInputId

/-- The dialog of a signed-in user. -/
structure SettingsModal where
  mounted : Bool := true
  /-- `getPreferences` is under way. -/
  loading : Bool := true
  preferences : Option PreferencesRow := none
  /-- The form that `updatePreferences` is under way with. -/
  saving : Option PreferencesRow := none
  error : Option String := none
  camera : MediaTest := {}
  mic : MediaTest := {}
  micTesting : Bool := false
  toasts : List String := []
  /-- The settings that were loaded, with what the user has chosen since. -/
  chosen : Option PreferencesRow := none

namespace SettingsModal

inductive Event where
  | loaded (row : PreferencesRow)
  | loadFailed (message : String)
  | patch (p : SettingsPatch)
  | save
  /-- The API answers the save that is under way. -/
  | saved (db : PreferencesDb) (userId : UserId) (now : DateTime)
  | saveFailed (message : String)
  | startPreview
  | cameraGranted
  | cameraFailed (message : String)
  | micTest
  | micGranted
  | micFailed (message : String)
  | close

def patch (v : SettingsModal) (p : SettingsPatch) : SettingsModal :=
  { v with preferences := v.preferences.map p.apply, chosen := v.chosen.map p.apply }

def stopMicTest (v : SettingsModal) : SettingsModal :=
  { v with mic := v.mic.stop, micTesting := false }

/-- One event.  The controls are there while the dialog is mounted and has its
preferences. -/
def next (v : SettingsModal) : Event → SettingsModal
  | .loaded row =>
    if v.loading ∧ v.mounted then
      { v with loading := false, preferences := some row, chosen := some row } else v
  | .loadFailed message =>
    if v.loading ∧ v.mounted then { v with loading := false, error := some message } else v
  | .patch p => if v.mounted then v.patch p else v
  | .save =>
    if v.mounted ∧ v.saving.isNone then { v with saving := v.preferences, error := none } else v
  | .saved db userId now =>
    match v.saving with
    | none => v
    | some form =>
      match db.writePreferences userId form.payload now with
      | .error _ => v
      | .ok (row, _) =>
        { v with
          saving := none
          preferences := if v.mounted then some row else v.preferences
          toasts := v.toasts ++ ["Settings saved."] }
  | .saveFailed message =>
    if v.saving.isSome then { v with saving := none, error := some message } else v
  | .startPreview => if v.mounted ∧ v.preferences.isSome then
    { v with camera := v.camera.start } else v
  | .cameraGranted => { v with camera := v.camera.granted }
  | .cameraFailed message =>
    if 0 < v.camera.requests then { v with camera := v.camera.failed, error := some message } else v
  | .micTest =>
    if v.mounted ∧ v.preferences.isSome then
      if v.micTesting then v.stopMicTest else { v.stopMicTest with mic := v.mic.start }
    else v
  | .micGranted => { v with mic := v.mic.granted, micTesting := v.micTesting || 0 < v.mic.requests }
  | .micFailed message =>
    if 0 < v.mic.requests then { v with mic := v.mic.failed, error := some message } else v
  | .close => if v.mounted then
    { v.stopMicTest with camera := v.camera.stop, mounted := false } else v

variable {v : SettingsModal} {e : Event} {evs : List Event}

/-! ### The streams -/

/-- The refs hold every live stream, and a closed dialog has none. -/
structure DevicesHeld (v : SettingsModal) : Prop where
  camera : v.camera.streams.Held
  mic : v.mic.streams.Held
  closed : v.mounted = false → v.camera.streams.Quiet ∧ v.mic.streams.Quiet

/-- A device is granted while the dialog is open and its ref is empty. -/
def GrantedInTime (v : SettingsModal) : Event → Prop
  | .cameraGranted => 0 < v.camera.requests → v.mounted = true ∧ v.camera.streams.Quiet
  | .micGranted => 0 < v.mic.requests → v.mounted = true ∧ v.mic.streams.Quiet
  | _ => True

theorem devicesHeld_mount : DevicesHeld {} :=
  ⟨Pool.quiet_empty.held, Pool.quiet_empty.held, fun h => absurd h (by simp)⟩

/-- Granting keeps the one ref if it comes in time. -/
theorem granted_iff {t : MediaTest} {mounted : Bool} (h : t.streams.Held)
    (hclosed : mounted = false → t.streams.Quiet) :
    (t.granted.streams.Held ∧ (mounted = false → t.granted.streams.Quiet)) ↔
      (0 < t.requests → mounted = true ∧ t.streams.Quiet) := by
  rw [MediaTest.held_granted h]
  cases mounted with
  | true => simp
  | false =>
    have hquiet := hclosed rfl
    rw [MediaTest.quiet_granted hquiet]
    simp [hquiet]

theorem devicesHeld_iff (h : v.DevicesHeld) : (v.next e).DevicesHeld ↔ v.GrantedInTime e := by
  cases e with
  | cameraGranted =>
    show DevicesHeld { v with camera := v.camera.granted } ↔ (0 < v.camera.requests → _)
    rw [← granted_iff h.camera fun hm => (h.closed hm).1]
    constructor
    · intro hnew
      exact ⟨hnew.camera, fun hm => (hnew.closed hm).1⟩
    · rintro ⟨hheld, hclosed⟩
      exact ⟨hheld, h.mic, fun hm => ⟨hclosed hm, (h.closed hm).2⟩⟩
  | micGranted =>
    show DevicesHeld { v with mic := v.mic.granted, micTesting := _ } ↔ (0 < v.mic.requests → _)
    rw [← granted_iff h.mic fun hm => (h.closed hm).2]
    constructor
    · intro hnew
      exact ⟨hnew.mic, fun hm => (hnew.closed hm).2⟩
    · rintro ⟨hheld, hclosed⟩
      exact ⟨h.camera, hheld, fun hm => ⟨(h.closed hm).1, hclosed hm⟩⟩
  | startPreview =>
    refine iff_of_true ?_ trivial
    dsimp only [next]
    split
    · rename_i hopen
      exact ⟨(MediaTest.quiet_start h.camera).held, h.mic,
        fun hm => absurd hopen.1 (by simpa using hm)⟩
    · exact h
  | micTest =>
    refine iff_of_true ?_ trivial
    dsimp only [next]
    split
    · rename_i hopen
      split
      · exact ⟨h.camera, (MediaTest.quiet_stop h.mic).held,
          fun hm => absurd hopen.1 (by simpa [stopMicTest] using hm)⟩
      · exact ⟨h.camera, (MediaTest.quiet_start h.mic).held,
          fun hm => absurd hopen.1 (by simpa [stopMicTest] using hm)⟩
    · exact h
  | close =>
    refine iff_of_true ?_ trivial
    dsimp only [next]
    split
    · have hcamera := MediaTest.quiet_stop h.camera
      have hmic := MediaTest.quiet_stop h.mic
      exact ⟨hcamera.held, hmic.held, fun _ => ⟨hcamera, hmic⟩⟩
    · exact h
  | saved db userId now =>
    refine iff_of_true ?_ trivial
    dsimp only [next]
    split
    · exact h
    · split
      · exact h
      · exact ⟨h.camera, h.mic, h.closed⟩
  | _ =>
    refine iff_of_true ?_ trivial
    dsimp only [next]
    split
    · exact ⟨h.camera, h.mic, h.closed⟩
    · exact h

/-- The dialog holds its streams exactly if it has lost none. -/
theorem devicesHeld_iff_not_lost :
    v.DevicesHeld ↔ ∀ i, ¬ v.camera.Lost v.mounted i ∧ ¬ v.mic.Lost v.mounted i := by
  rw [forall_and, MediaTest.not_lost_iff, MediaTest.not_lost_iff]
  constructor
  · rintro ⟨hcamera, hmic, hclosed⟩
    exact ⟨⟨hcamera, fun h => (hclosed h).1⟩, hmic, fun h => (hclosed h).2⟩
  · rintro ⟨⟨hcamera, hquiet⟩, hmic, hquiet'⟩
    exact ⟨hcamera, hmic, fun h => ⟨hquiet h, hquiet' h⟩⟩

/-- **What an event does to the streams**; a closed dialog stays closed. -/
theorem moves_next (v : SettingsModal) (e : Event) :
    (v.mounted = false → (v.next e).mounted = false) ∧
      MediaTest.Moves v.mounted v.camera (v.next e).camera.streams ∧
      MediaTest.Moves v.mounted v.mic (v.next e).mic.streams := by
  cases e with
  | saved db userId now =>
    dsimp only [next]
    split
    · exact ⟨id, .same, .same⟩
    · split <;> exact ⟨id, .same, .same⟩
  | startPreview =>
    dsimp only [next]
    split
    · rename_i hopen
      exact ⟨id, .release hopen.1, .same⟩
    · exact ⟨id, .same, .same⟩
  | cameraGranted => exact ⟨id, MediaTest.moves_granted, .same⟩
  | micTest =>
    dsimp only [next]
    split
    · rename_i hopen
      split <;> exact ⟨id, .same, .release hopen.1⟩
    · exact ⟨id, .same, .same⟩
  | micGranted => exact ⟨id, .same, MediaTest.moves_granted⟩
  | close =>
    dsimp only [next]
    split
    · rename_i hopen
      exact ⟨fun _ => rfl, .release hopen, .release hopen⟩
    · exact ⟨id, .same, .same⟩
  | _ =>
    dsimp only [next]
    split <;> exact ⟨id, .same, .same⟩

theorem stillLost_run (v : SettingsModal) (evs : List Event) :
    MediaTest.StillLost v.camera (Runs.run next v evs).camera v.mounted
        (Runs.run next v evs).mounted ∧
      MediaTest.StillLost v.mic (Runs.run next v evs).mic v.mounted
        (Runs.run next v evs).mounted := by
  induction evs generalizing v with
  | nil => exact ⟨.refl _ _, .refl _ _⟩
  | cons e evs ih =>
    obtain ⟨hclosed, hcamera, hmic⟩ := moves_next v e
    obtain ⟨ihcamera, ihmic⟩ := ih (v.next e)
    exact ⟨(hcamera.stillLost hclosed).trans ihcamera, (hmic.stillLost hclosed).trans ihmic⟩

/-! ### The form -/

/-- The form has the settings that the user has chosen. -/
def FormKept (v : SettingsModal) : Prop :=
  v.preferences.map PreferencesRow.payload = v.chosen.map PreferencesRow.payload

/-- A save comes back to the settings that it was made with, or to a closed dialog. -/
def SavedInTime (v : SettingsModal) : Event → Prop
  | .saved db userId now => ∀ form row db', v.saving = some form →
      db.writePreferences userId form.payload now = .ok (row, db') → v.mounted = true →
      v.chosen.map PreferencesRow.payload = some form.payload
  | _ => True

/-- The API answers a save with the settings that it was sent. -/
theorem payload_of_saved {s s' : PreferencesDb} {userId : UserId} {form row : PreferencesRow}
    {now : DateTime}
    (h : s.writePreferences userId form.payload now = .ok (row, s')) :
    row.payload = form.payload := by
  obtain ⟨user, -, -, rfl, -⟩ := PreferencesDb.writePreferences_eq_ok.mp h
  rfl

theorem payload_apply {row row' : PreferencesRow} (h : row.payload = row'.payload)
    (p : SettingsPatch) :
    (p.apply row).payload = (p.apply row').payload := by
  simp only [PreferencesRow.payload, PreferencesUpdate.mk.injEq, Option.some.injEq] at h
  obtain ⟨h₁, h₂, h₃, h₄, h₅, h₆, h₇, h₈, h₉⟩ := h
  cases p <;> simp [SettingsPatch.apply, PreferencesRow.payload, *]

/-- A choice is made in the form and in what is chosen. -/
theorem FormKept.patch (h : v.FormKept) (p : SettingsPatch) : (v.patch p).FormKept := by
  simp only [FormKept, SettingsModal.patch] at h ⊢
  cases hform : v.preferences with
  | none =>
    rw [hform] at h
    rw [Option.map_eq_none_iff.mp h.symm]
  | some form =>
    rw [hform] at h
    obtain ⟨row, hrow, hpayload⟩ := Option.map_eq_some_iff.mp h.symm
    rw [hrow]
    exact congrArg some (payload_apply hpayload.symm p)

theorem formKept_iff (h : v.FormKept) : (v.next e).FormKept ↔ v.SavedInTime e := by
  cases e with
  | loaded row =>
    refine iff_of_true ?_ trivial
    dsimp only [next]
    split
    · rfl
    · exact h
  | patch p =>
    refine iff_of_true ?_ trivial
    dsimp only [next]
    split
    · exact h.patch p
    · exact h
  | saved db userId now =>
    dsimp only [next, SavedInTime]
    cases hsaving : v.saving with
    | none => exact iff_of_true h (by simp)
    | some form =>
      dsimp only
      cases hwrite : db.writePreferences userId form.payload now with
      | error e =>
        refine iff_of_true h ?_
        rintro form' row db' ⟨⟩ hwritten
        cases hwrite.symm.trans hwritten
      | ok answer =>
        obtain ⟨row, db'⟩ := answer
        have hpayload := payload_of_saved hwrite
        cases hmounted : v.mounted with
        | true =>
          simp only [FormKept, if_true, Option.map_some, hpayload]
          constructor
          · rintro hkept form' _ _ ⟨⟩ - -
            exact hkept.symm
          · intro htime
            exact (htime form row db' rfl hwrite trivial).symm
        | false => exact iff_of_true h (by simp)
  | micTest =>
    refine iff_of_true ?_ trivial
    dsimp only [next]
    split
    · split
      · exact h
      · exact h
    · exact h
  | cameraGranted => exact iff_of_true h trivial
  | micGranted => exact iff_of_true h trivial
  | _ =>
    refine iff_of_true ?_ trivial
    dsimp only [next]
    split
    · exact h
    · exact h

/-- **The form keeps what was chosen.**  In every run, the form has the settings that the
user has chosen throughout iff no save comes back to an open dialog in which a setting differs
from what was sent. -/
theorem form_kept_iff (evs : List Event) :
    Runs.Always next FormKept {} evs ↔ Runs.Guarded next SavedInTime {} evs := by
  have hmount : FormKept {} := rfl
  exact Runs.always_iff_guarded (I := fun _ => True) trivial hmount (fun _ _ _ => trivial)
    (fun _ _ _ h => formKept_iff h) evs

end SettingsModal

end ZoomClone
