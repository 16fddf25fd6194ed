/-
The mesh of one browser (`PeerManager.ts`): one peer per remote participant.

What is kept of a peer is who starts the negotiation.  `addPeer` and
`handleSignal` enter the peer before their first await, so their effect on the
map is immediate.  The `RTCPeerConnection` behind a peer, and the offers and
answers it produces, are not part of this module.
-/
import ZoomClone.Protocol

namespace ZoomClone

/-- `initiator` is fixed for the peer's lifetime. -/
structure Peer where
  id : ParticipantId
  initiator : Bool
  deriving DecidableEq

structure PeerManager where
  peers : Keyed Peer.id := .empty
  destroyed : Bool := false
  deriving DecidableEq

namespace PeerManager

/-- A peer that is known already keeps its role. -/
def addPeer (pm : PeerManager) (id : ParticipantId) (initiator : Bool) : PeerManager :=
  if pm.destroyed ∨ id ∈ pm.peers.keys then pm
  else { pm with peers := pm.peers.set ⟨id, initiator⟩ }

/-- A signal from an unknown peer creates it: whoever signals first drives the
negotiation. -/
def handleSignal (pm : PeerManager) (sender : ParticipantId) : PeerManager :=
  if pm.destroyed then pm
  else if sender ∈ pm.peers.keys then pm
  else { pm with peers := pm.peers.set ⟨sender, false⟩ }

def removePeer (pm : PeerManager) (id : ParticipantId) : PeerManager :=
  { pm with peers := pm.peers.erase id }

def destroy (_ : PeerManager) : PeerManager := { peers := .empty, destroyed := true }

/-- The role this side plays towards a peer it holds. -/
def role (pm : PeerManager) (id : ParticipantId) : Option Bool :=
  (pm.peers.find? id).map Peer.initiator

/-! ### The role after each operation -/

section Role

variable {pm : PeerManager} {id id' : ParticipantId} {initiator : Bool}

theorem role_eq_none : pm.role id = none ↔ id ∉ pm.peers.keys := by
  rw [role, Option.map_eq_none_iff, Keyed.find?_eq_none]

theorem role_set : ({ pm with peers := pm.peers.set ⟨id', initiator⟩ } : PeerManager).role id =
    if id' = id then some initiator else pm.role id := by
  rw [role, Keyed.find?_set]
  split
  · rfl
  · rfl

theorem role_addPeer (hlive : pm.destroyed = false) : (pm.addPeer id' initiator).role id =
    if id' = id then some ((pm.role id).getD initiator) else pm.role id := by
  unfold addPeer
  by_cases hknown : id' ∈ pm.peers.keys
  · rw [if_pos (.inr hknown)]
    split
    · next h =>
      -- A known peer keeps its role.
      have hsome : pm.role id ≠ none := fun hnone => role_eq_none.mp hnone (h ▸ hknown)
      obtain ⟨b, hb⟩ := Option.ne_none_iff_exists'.mp hsome
      rw [hb, Option.getD_some]
    · rfl
  · rw [if_neg (by simp [hlive, hknown]), role_set]
    split
    · next h =>
      rw [role_eq_none.mpr (h ▸ hknown), Option.getD_none]
    · rfl

theorem role_addPeer_of_some (hlive : pm.destroyed = false) {b : Bool} (h : pm.role id = some b) :
    (pm.addPeer id' initiator).role id = some b := by
  rw [role_addPeer hlive, h]
  split
  · rfl
  · rfl

theorem role_addPeer_of_ne (hlive : pm.destroyed = false) (h : id' ≠ id) :
    (pm.addPeer id' initiator).role id = pm.role id := by
  rw [role_addPeer hlive, if_neg h]

theorem handleSignal_eq_addPeer : pm.handleSignal id = pm.addPeer id false := by
  unfold handleSignal addPeer
  by_cases hdestroyed : pm.destroyed = true
  · simp [hdestroyed]
  · simp [hdestroyed]

theorem role_removePeer :
    (pm.removePeer id').role id = if id = id' then none else pm.role id := by
  rw [role, removePeer, Keyed.find?_erase]
  split
  · rfl
  · rfl

@[simp] theorem destroyed_addPeer : (pm.addPeer id initiator).destroyed = pm.destroyed := by
  unfold addPeer
  split
  · rfl
  · rfl

end Role

end PeerManager

end ZoomClone
