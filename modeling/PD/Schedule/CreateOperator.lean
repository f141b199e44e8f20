import PD.Core.StoreMeta
import PD.Schedule.Operator

/-! # The construction of operators -/

namespace PD

structure Cluster where
  getRegion : Nat → Option RegionInfo
  getStore : Nat → Option StoreProto
  maxReplicas : Int
  isRaftLearnerEnabled : Bool
  rejectLeader : List StoreLabel
  allocID : Nat → Except String Nat

namespace Cluster

def checkRejectLeader (c : Cluster) (labels : List StoreLabel) : Bool :=
  c.rejectLeader.any fun cfg => labels.any fun l => l.key == cfg.key && l.value == cfg.value

def allocPeer (c : Cluster) (n storeID : Nat) : Except String Peer :=
  (c.allocID n).map fun peerID => ⟨peerID, storeID, false⟩

end Cluster

def createAddPeerSteps (newStore peerID : Nat) (c : Cluster) : List OperatorStep :=
  if c.isRaftLearnerEnabled then [.addLearner newStore peerID, .promoteLearner newStore peerID]
  else [.addPeer newStore peerID]

def createAddLightPeerSteps (newStore peerID : Nat) (c : Cluster) : List OperatorStep :=
  if c.isRaftLearnerEnabled then [.addLightLearner newStore peerID, .promoteLearner newStore peerID]
  else [.addLightPeer newStore peerID]

def regionFollowerIDs (region : RegionInfo) : List Nat := (region.getFollowers.map Peer.storeId).dedup

def suitableFollower (c : Cluster) (id : Nat) : Bool :=
  (c.getStore id).any fun follower => !c.checkRejectLeader follower.labels

def removePeerSteps (c : Cluster) (region : RegionInfo) (storeID : Nat) (followerIDs : List Nat) :
  Except String (OperatorKind × List OperatorStep) :=
  if region.leader ≠ none ∧ region.leaderStore = storeID then
    match followerIDs.find? (suitableFollower c) with
    | some id => .ok (.opLeader ||| .opRegion, [.transferLeader storeID id, .removePeer storeID])
    | none => .error "no suitable follower to become region leader"
  else .ok (.opRegion, [.removePeer storeID])

variable (desc : String)

def Cluster.createRemovePeerOperator (c : Cluster) (kind : OperatorKind) (region : RegionInfo)
  (storeID : Nat) (followers : List Nat) : Except String Operator :=
  match removePeerSteps c region storeID followers with
  | .error e => .error e
  | .ok (removeKind, steps) =>
    .ok (newOperator desc region.getID region.getMeta.regionEpoch (removeKind ||| kind) steps)

def createMovePeerOperator (c : Cluster) (region : RegionInfo) (kind : OperatorKind)
  (oldStore newStore peerID : Nat) (followers : List Nat) : Except String Operator :=
  match removePeerSteps c region oldStore (followers ++ [newStore]) with
  | .error e => .error e
  | .ok (removeKind, steps) =>
    .ok (newOperator desc region.getID region.getMeta.regionEpoch (removeKind ||| kind ||| .opRegion)
      (createAddPeerSteps newStore peerID c ++ steps))

def createTransferLeaderOperator (region : RegionInfo) (sourceStoreID targetStoreID : Nat)
  (kind : OperatorKind) : Operator :=
  newOperator desc region.getID region.getMeta.regionEpoch (kind ||| .opLeader)
    [.transferLeader sourceStoreID targetStoreID]

def createMoveLeaderOperator (c : Cluster) (region : RegionInfo) (kind : OperatorKind)
  (oldStore newStore peerID : Nat) : Except String Operator :=
  match removePeerSteps c region oldStore [newStore] with
  | .error e => .error e
  | .ok (removeKind, steps) =>
    .ok (newOperator desc region.getID region.getMeta.regionEpoch (removeKind ||| kind ||| .opLeader ||| .opRegion)
      (createAddPeerSteps newStore peerID c ++ [.transferLeader oldStore newStore] ++ steps))

def addStores (c : Cluster) (region : RegionInfo) : Nat → List Nat → Except String (List OperatorStep)
  | _, [] => .ok []
  | n, id :: rest =>
    if (region.getStorePeer id).isSome then addStores c region n rest
    else
      match c.allocPeer n id with
      | .error e => .error e
      | .ok peer => (addStores c region (n+1) rest).map fun steps => createAddPeerSteps id peer.id c ++ steps

def removeFromStore (region : RegionInfo) (storeIDs targets : List Nat) (peer : Peer) : List OperatorStep :=
  if storeIDs.contains peer.storeId then []
  else if region.leaderId = peer.id then
    (targets.take 1).map (.transferLeader peer.storeId) ++ [.removePeer peer.storeId]
  else [.removePeer peer.storeId]

def createMoveRegionOperator (c : Cluster) (region : RegionInfo) (kind : OperatorKind)
  (adds targets : List Nat) : Except String Operator :=
  (addStores c region 0 adds).map fun steps =>
    newOperator desc region.getID region.getMeta.regionEpoch (kind ||| .opRegion)
      (steps ++ region.getPeers.flatMap (removeFromStore region adds targets))

def intersectionStores (a b : List Peer) : List Nat :=
  ((b.map Peer.storeId).filter fun storeID => (a.map Peer.storeId).contains storeID).dedup

structure Adds where
  toAdds : List (List OperatorStep)
  targetLeader : Nat
  kind : OperatorKind
  allocs : Nat

def addMissing (c : Cluster) (intersection : List Nat) : Adds → List Peer → Except String Adds
  | acc, [] => .ok acc
  | acc, peer :: rest =>
    if intersection.contains peer.storeId then addMissing c intersection acc rest
    else
      match c.allocPeer acc.allocs peer.storeId with
      | .error e => .error e
      | .ok new =>
        addMissing c intersection
          { toAdds := acc.toAdds ++ [createAddPeerSteps peer.storeId new.id c]
            targetLeader := if acc.targetLeader = 0 then peer.storeId else acc.targetLeader
            kind := acc.kind ||| .opRegion
            allocs := acc.allocs + 1 } rest

def overlapLeader (leaderID : Nat) : Nat → List Nat → Nat
  | targetLeader, [] => targetLeader
  | _, storeID :: rest => if storeID = leaderID then 0 else overlapLeader leaderID storeID rest

structure Removes where
  index : Nat
  steps : List OperatorStep
  kind : OperatorKind

def removeRedundant (intersection : List Nat) (toAdds : List (List OperatorStep))
    (leaderID targetLeader : Nat) : Removes → List Peer → Option Removes
  | acc, [] => some acc
  | acc, peer :: rest =>
    if intersection.contains peer.storeId then
      removeRedundant intersection toAdds leaderID targetLeader acc rest
    else if targetLeader ≠ 0 ∧ peer.storeId = leaderID then
      removeRedundant intersection toAdds leaderID targetLeader acc rest
    else
      match toAdds[acc.index]? with
      | none => none
      | some adds =>
        removeRedundant intersection toAdds leaderID targetLeader
          { index := acc.index + 1
            steps := acc.steps ++ adds ++ [.removePeer peer.storeId]
            kind := acc.kind ||| .opRegion } rest

def removeLeader (toAdds : List (List OperatorStep)) (leaderID targetLeader : Nat) (acc : Removes) : Option Removes :=
  if targetLeader ≠ 0 then
    match toAdds[acc.index]? with
    | none => none
    | some adds =>
      some
        { index := acc.index + 1
          steps := acc.steps ++ adds ++ [.transferLeader leaderID targetLeader, .removePeer leaderID]
          kind := acc.kind ||| (.opLeader ||| .opRegion) }
  else some acc

def matchAdds (source : RegionInfo) (order : List Nat) (adds : Adds) : Option Removes :=
  let leaderID := source.leaderStore
  let targetLeader := overlapLeader leaderID adds.targetLeader order
  -- a leader outside the intersection goes to a store of the intersection first
  let (start, targetLeader) : Removes × Nat :=
    if order ≠ [] ∧ targetLeader ≠ 0 then
      (⟨0, [.transferLeader leaderID targetLeader], adds.kind ||| .opLeader⟩, 0)
    else (⟨0, [], adds.kind⟩, targetLeader)
  (removeRedundant order adds.toAdds leaderID targetLeader start source.getPeers).bind
    (removeLeader adds.toAdds leaderID targetLeader)

def matchPeerSteps (c : Cluster) (source target : RegionInfo) (order : List Nat) :
  Option (Except String (List OperatorStep × OperatorKind)) :=
  if source.getPeers.length ≠ target.getPeers.length then some (.error "mismatch count of peer")
  else
    match addMissing c order ⟨[], 0, 0, 0⟩ target.getPeers with
    | .error e => some (.error e)
    | .ok adds =>
      (matchAdds source order adds).map fun removes =>
        if removes.index ≠ adds.toAdds.length then .error "wrong count of add steps"
        else .ok (removes.steps, removes.kind)

def createMergeRegionOperator (c : Cluster) (source target : RegionInfo)
  (kind : OperatorKind) (order : List Nat) : Option (Except String (Operator × Operator)) :=
  (matchPeerSteps c source target order).map fun r =>
    match r with
    | .error e => .error e
    | .ok (steps, kinds) =>
      .ok (newOperator desc source.getID source.getMeta.regionEpoch (kinds ||| kind ||| .opMerge)
          (steps ++ [.mergeRegion source.getMeta target.getMeta false]),
        newOperator desc target.getID target.getMeta.regionEpoch (kinds ||| kind ||| .opMerge)
          [.mergeRegion source.getMeta target.getMeta true])

end PD
