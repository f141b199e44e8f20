import PD.Core.Region

/-! # Copies of regions -/

namespace PD.RegionInfo

def withLeader (leader : Option Peer) (r : RegionInfo) : RegionInfo := { r with leader := leader }

def setPeers (peers : List Peer) (r : RegionInfo) : RegionInfo :=
  { r with getMeta := { r.getMeta with peers := peers } }

def withAddPeer (peer : Peer) (r : RegionInfo) : RegionInfo := r.setPeers (r.getPeers ++ [peer])

def withRemoveStorePeer (storeID : Nat) (r : RegionInfo) : RegionInfo :=
  r.setPeers (r.getPeers.filter fun p => p.storeId != storeID)

section
variable (r : RegionInfo) (peer : Peer) (storeID : Nat)

@[simp] lemma getPeers_withAddPeer : (r.withAddPeer peer).getPeers = r.getPeers ++ [peer] := rfl

@[simp] lemma getPeers_withRemoveStorePeer :
    (r.withRemoveStorePeer storeID).getPeers = r.getPeers.filter fun p => p.storeId != storeID := rfl

end

section
variable {r : RegionInfo} {storeID : Nat} {peer : Peer}

lemma mem_storeIds : storeID ∈ r.storeIds ↔ ∃ p ∈ r.getPeers, p.storeId = storeID := List.mem_map

lemma getStorePeer_eq_none : r.getStorePeer storeID = none ↔ storeID ∉ r.storeIds := by
  rw [mem_storeIds]
  simp [getStorePeer, getPeers]

lemma getStorePeer_some (h : r.getStorePeer storeID = some peer) : peer ∈ r.getPeers ∧ peer.storeId = storeID :=
  ⟨List.mem_of_find?_eq_some h, by simpa using List.find?_some h⟩

end
end PD.RegionInfo
