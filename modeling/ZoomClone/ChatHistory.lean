/-
What the chat history shows (`chat_service.py`).

The history is cut at its front end: `list_messages` orders the transcript from the oldest
message and takes as many as the limit allows.

* `history_shows_latest_iff` — when the history is the latest part of the transcript;
* `just_sent_shown_iff` — when it shows a message that was just sent.
-/
import ZoomClone.ChatDrawer
import ZoomClone.Latest

namespace ZoomClone

/-! ### The history -/

/-- How many messages a limit lets through. -/
def shownAtMost (limit : Int) : ℕ := (max 1 (min limit defaultMessageLimit)).toNat

theorem shownAtMost_pos (limit : Int) : 0 < shownAtMost limit := by
  rw [shownAtMost]
  omega

section History

variable {db db' : Db} {raw : String} {viewer : User} {limit : Int} {m : Meeting}

/-- Members are shown the front end of the transcript. -/
theorem listMessages_eq (hm : getByNumber db raw = .ok m)
    (hmember : requireMembership db m viewer = .ok ()) :
    listMessages db raw viewer limit = .ok ((transcript db m.id).take (shownAtMost limit)) := by
  rw [listMessages, hm]
  simp only [bind, Except.bind, hmember]
  rfl

/-- Messages sent at different times are in order. -/
theorem transcript_chronological {meetingId : MeetingId}
    (hdistinct : ((transcript db meetingId).map MessageView.sentAt).Nodup) :
    Latest.InOrder MessageView.sentAt (transcript db meetingId) :=
  ((transcript_inOrder db meetingId).and (List.pairwise_map.mp hdistinct)).imp fun h =>
    lt_of_le_of_ne h.1 h.2

end History

/-- **The history is the latest part of the transcript exactly if it is all of it.** -/
theorem history_shows_latest_iff {db : Db} {raw : String} {viewer : User}
    {m : Meeting} (limit : Int)
    (hm : getByNumber db raw = .ok m) (hmember : requireMembership db m viewer = .ok ())
    (hdistinct : ((transcript db m.id).map MessageView.sentAt).Nodup) :
    (∃ shown, listMessages db raw viewer limit = .ok shown ∧
        Latest.IsLatest MessageView.sentAt (transcript db m.id) shown (shownAtMost limit)) ↔
      (transcript db m.id).length ≤ shownAtMost limit := by
  rw [listMessages_eq hm hmember, ← Latest.isLatest_take_iff (transcript_chronological hdistinct)
    (shownAtMost_pos limit)]
  constructor
  · rintro ⟨shown, hshown, hlatest⟩
    rwa [Except.ok.inj hshown]
  · intro hlatest
    exact ⟨_, rfl, hlatest⟩

/-- A room in which one participant has sent two messages. -/
def talkedRoom : Db :=
  { busyRoom with
    chatMessages := busyRoom.chatMessages.insert ⟨"c2", "n", "1", "anyone there?", 9⟩ (by decide) }

/-- Their account. -/
def grace : User := { id := "guest", email := "g@example.com", name := "Grace"
                      personalMeetingId := "10000000003" }

/-- Two messages are the latest two. -/
theorem history_shows_latest_two :
    (∃ shown, listMessages talkedRoom "895 9025 0750" grace 2 = .ok shown ∧
      Latest.IsLatest MessageView.sentAt (transcript talkedRoom "n") shown 2) ↔
    (transcript talkedRoom "n").length ≤ 2 :=
  history_shows_latest_iff (m := busyRoom.meetings.rows[0]) 2 rfl rfl (by decide)

/-- Of two messages, a limit of one shows the older. -/
theorem history_shows_oldest :
    ¬ ∀ (db : Db) (raw : String) (viewer : User) (m : Meeting) (limit : Int),
    getByNumber db raw = .ok m → requireMembership db m viewer = .ok () →
    ((transcript db m.id).map MessageView.sentAt).Nodup →
    ∃ shown, listMessages db raw viewer limit = .ok shown ∧
      Latest.IsLatest MessageView.sentAt (transcript db m.id) shown (shownAtMost limit) := by
  intro h
  obtain ⟨shown, hshown, hlatest⟩ :=
    h talkedRoom "895 9025 0750" grace busyRoom.meetings.rows[0] 1 rfl rfl (by decide)
  rw [listMessages_eq (m := busyRoom.meetings.rows[0]) rfl rfl] at hshown
  obtain rfl := Except.ok.inj hshown
  rw [Latest.isLatest_take_iff (transcript_chronological (by decide))
    (shownAtMost_pos _)] at hlatest
  revert hlatest
  decide

/-! ### A message just sent -/

section JustSent

variable {db db' : Db} {meetingId : MeetingId} {participantId : ParticipantId} {body id : String}
  {now : DateTime} {v : MessageView}

/-- A post adds one message to what is stored. -/
theorem stores_postMessage (h : postMessage db meetingId participantId body id now = .ok (v, db'))
    {w : MessageView} :
    db'.Stores w ↔ db.Stores w ∨ w = v := by
  obtain ⟨-, p, hp, -, hins, rfl⟩ := postMessage_eq_ok.mp h
  obtain ⟨hid, rfl⟩ := Db.insertMessage_eq_ok.mp hins
  constructor
  · rintro ⟨c, hc, q, hq, rfl⟩
    rcases (Keyed.mem_insert (h := hid)).mp hc with hc | rfl
    · exact .inl ⟨c, hc, q, hq, rfl⟩
    · obtain rfl := Option.some.inj (hp.symm.trans hq)
      exact .inr rfl
  · rintro (⟨c, hc, q, hq, rfl⟩ | rfl)
    · exact ⟨c, (Keyed.mem_insert (h := hid)).mpr (.inl hc), q, hq, rfl⟩
    · exact ⟨_, (Keyed.mem_insert (h := hid)).mpr (.inr rfl), p, hp, rfl⟩

/-- A message newer than the transcript is put behind it. -/
theorem transcript_postMessage
    (hdistinct : ((transcript db meetingId).map MessageView.sentAt).Nodup)
    (hnewest : ∀ w ∈ transcript db meetingId, w.sentAt < now)
    (h : postMessage db meetingId participantId body id now = .ok (v, db')) :
    transcript db' meetingId = transcript db meetingId ++ [v] := by
  obtain ⟨hstores, hnew, rfl, hmeeting⟩ := postMessage_stores h
  have hbehind : Latest.InOrder MessageView.sentAt (transcript db meetingId ++ [v]) :=
    List.pairwise_append.mpr ⟨transcript_chronological hdistinct, List.pairwise_singleton _ _,
      fun w hw x hx => List.mem_singleton.mp hx ▸ hnewest w hw⟩
  have hperm : (transcript db' meetingId).Perm (transcript db meetingId ++ [v]) := by
    rw [List.perm_ext_iff_of_nodup
      (List.Nodup.of_map _ (transcript_once db' meetingId)) hbehind.nodup]
    intro w
    rw [List.mem_append, List.mem_singleton, mem_transcript, mem_transcript, stores_postMessage h]
    constructor
    · rintro ⟨hw | rfl, hw'⟩
      · exact .inl ⟨hw, hw'⟩
      · exact .inr rfl
    · rintro (⟨hw, hw'⟩ | rfl)
      · exact ⟨.inl hw, hw'⟩
      · exact ⟨.inr rfl, hmeeting⟩
  refine Latest.InOrder.eq_of_perm ?_ hbehind hperm
  refine transcript_chronological ?_
  rw [(hperm.map _).nodup_iff]
  exact List.pairwise_map.mpr (hbehind.imp ne_of_lt)

end JustSent

/-- **A message just sent is shown exactly if the limit lets it through behind all the
others.** -/
theorem just_sent_shown_iff {db db' : Db} {raw : String} {viewer : User} {m : Meeting} {limit : Int}
    {participantId : ParticipantId} {body id : String} {now : DateTime} {v : MessageView}
    {history : List MessageView} (hdistinct : ((transcript db m.id).map MessageView.sentAt).Nodup)
    (hnewest : ∀ w ∈ transcript db m.id, w.sentAt < now)
    (hpost : postMessage db m.id participantId body id now = .ok (v, db'))
    (hm : getByNumber db' raw = .ok m) (hmember : requireMembership db' m viewer = .ok ())
    (hhistory : listMessages db' raw viewer limit = .ok history) :
    v ∈ history ↔ (transcript db m.id).length < shownAtMost limit := by
  rw [listMessages_eq hm hmember, transcript_postMessage hdistinct hnewest hpost] at hhistory
  obtain rfl := Except.ok.inj hhistory
  constructor
  · intro hshown
    by_contra hfull
    rw [List.take_append_of_le_length (by omega)] at hshown
    have holder := hnewest v (List.mem_of_mem_take hshown)
    rw [(postMessage_stores hpost).2.2.1] at holder
    exact lt_irrefl _ holder
  · intro hroom
    rw [List.take_of_length_le (by rw [List.length_append, List.length_singleton]; omega)]
    exact List.mem_append.mpr (.inr (List.mem_singleton_self v))

end ZoomClone
