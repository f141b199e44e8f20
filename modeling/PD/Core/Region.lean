import PD.Lib.Intervals
import PD.Lib.Words

/-! # Regions, their peers and their key ranges -/

namespace PD

abbrev Key := List UInt8

structure Peer where
  id : Nat
  storeId : Nat
  isLearner : Bool
  deriving DecidableEq

structure PeerStats where
  peer : Option Peer
  downSeconds : Nat
  deriving DecidableEq

structure RegionEpoch where
  confVer : Nat
  version : Nat
  deriving DecidableEq

structure Region where
  id : Nat
  startKey : Key
  endKey : Key
  regionEpoch : Option RegionEpoch
  peers : List Peer
  deriving DecidableEq

namespace Region
variable (r : Region)

def getVersion : Nat := (r.regionEpoch.map RegionEpoch.version).getD 0
def getConfVer : Nat := (r.regionEpoch.map RegionEpoch.confVer).getD 0
def contains (key : Key) : Bool := decide (r.startKey ≤ key) && (r.endKey.isEmpty || decide (key < r.endKey))
def upper : WithTop Key := if r.endKey.isEmpty then ⊤ else (r.endKey : WithTop Key)
def span : Ival Key := ⟨r.startKey, r.upper⟩
def Nonempty : Prop := r.startKey < r.endKey ∨ r.endKey = []
def Overlaps (a b : Region) : Prop := ∃ k, a.contains k = true ∧ b.contains k = true
instance (r : Region) : Decidable r.Nonempty := inferInstanceAs (Decidable (_ ∨ _))

variable {r : Region} {k : Key}

lemma lt_upper : (k : WithTop Key) < r.upper ↔ r.endKey = [] ∨ k < r.endKey := by
  unfold upper
  split
  next h => exact ⟨fun _ => .inl (List.isEmpty_iff.mp h), fun _ => WithTop.coe_lt_top k⟩
  next h =>
    rw [WithTop.coe_lt_coe]
    exact ⟨.inr, fun h' => h'.resolve_left (fun e => h (List.isEmpty_iff.mpr e))⟩

lemma contains_iff : r.contains k = true ↔ r.span.Contains k := by
  unfold contains
  rw [Bool.and_eq_true, Bool.or_eq_true, decide_eq_true_eq, decide_eq_true_eq, List.isEmpty_iff]
  show _ ↔ r.startKey ≤ k ∧ (k : WithTop Key) < r.upper
  rw [lt_upper]

lemma nonempty_span : r.span.Nonempty ↔ r.Nonempty := by
  show (r.startKey : WithTop Key) < r.upper ↔ _
  rw [lt_upper]
  exact or_comm

lemma overlaps_span {a b : Region} (ha : a.Nonempty) (hb : b.Nonempty) : a.span.Overlaps b.span ↔ a.Overlaps b := by
  rw [Ival.overlaps_iff (nonempty_span.mpr ha) (nonempty_span.mpr hb)]
  unfold Overlaps
  simp only [contains_iff]

end Region

def emptyRegionApproximateSize : Int := 1

structure RegionInfo where
  getMeta : Region
  leader : Option Peer
  downPeers : List PeerStats
  pendingPeers : List Peer
  writtenBytes : Nat
  readBytes : Nat
  approximateSize : Int
  approximateKeys : Int
  deriving DecidableEq

def newRegionInfo (region : Region) (leader : Option Peer) : RegionInfo := ⟨region, leader, [], [], 0, 0, 0, 0⟩

namespace RegionInfo
variable (r : RegionInfo)

def getID : Nat := r.getMeta.id
def getPeers : List Peer := r.getMeta.peers
def getVoters : List Peer := r.getMeta.peers.filter fun p => !p.isLearner
def getLearners : List Peer := r.getMeta.peers.filter fun p => p.isLearner
def leaderId : Nat := (r.leader.map Peer.id).getD 0
def leaderStore : Nat := (r.leader.map Peer.storeId).getD 0
def getStorePeer (storeID : Nat) : Option Peer := r.getMeta.peers.find? fun p => p.storeId == storeID
def getStoreVoter (storeID : Nat) : Option Peer := r.getVoters.find? fun p => p.storeId == storeID
def getStoreLearner (storeID : Nat) : Option Peer := r.getLearners.find? fun p => p.storeId == storeID
def getPendingVoter (peerID : Nat) : Option Peer := r.pendingPeers.find? fun p => p.id == peerID && !p.isLearner
def getPendingLearner (peerID : Nat) : Option Peer := r.pendingPeers.find? fun p => p.id == peerID && p.isLearner
def getFollowers : List Peer := r.getVoters.filter fun p => r.leader.isNone || decide (r.leaderId ≠ p.id)
def storeIds : List Nat := r.getPeers.map Peer.storeId

variable {r : RegionInfo} {leader : Peer}

lemma leaderId_of_some (h : r.leader = some leader) : r.leaderId = leader.id := by
  rw [leaderId, h]
  rfl

lemma leaderStore_of_some (h : r.leader = some leader) : r.leaderStore = leader.storeId := by
  rw [leaderStore, h]
  rfl

lemma leaderStore_mem (h : r.leader = some leader) (hmem : leader ∈ r.getPeers) : r.leaderStore ∈ r.storeIds := by
  rw [leaderStore_of_some h]
  exact List.mem_map_of_mem hmem

end RegionInfo
end PD
