import PD.Core.TreeQueries
import PD.Schedulers.Utils

/-! # The checkers -/

namespace PD

structure PatrolConfig where
  opt : ScheduleOptions
  maxReplicas : Int
  leaderScheduleLimit : Nat
  regionScheduleLimit : Nat
  replicaScheduleLimit : Nat
  mergeScheduleLimit : Nat
  schedulerMaxWaitingOperator : Nat
  isNamespaceRelocationEnabled : Bool
  isRemoveDownReplicaEnabled : Bool
  isReplaceOfflineReplicaEnabled : Bool
  isMakeUpReplicaEnabled : Bool
  isRemoveExtraReplicaEnabled : Bool
  isLocationReplacementEnabled : Bool
  enableOneWayMerge : Bool
  maxMergeRegionSize : Nat
  maxMergeRegionKeys : Nat
  isRegionMergeSupported : Bool

structure PatrolView where
  regions : RegionsInfo
  stores : SortedMap Nat StoreView
  isRegionHot : Nat → Bool
  classifier : Classifier
  installed : Bool
  plugins : PluginsMap
  splitCache : List Nat
  choices : Choices

namespace PatrolView
variable (v : PatrolView)

def toCluster (cfg : PatrolConfig) (i : Nat) : Cluster where
  getRegion := v.regions.getRegion
  getStore := fun id => (v.stores.lookup id).map StoreView.getMeta
  maxReplicas := cfg.maxReplicas
  isRaftLearnerEnabled := cfg.opt.isRaftLearnerEnabled
  rejectLeader := cfg.opt.rejectLeader
  allocID := v.choices.allocID i

def getStores (i : Nat) : List StoreView := v.choices.listing i v.stores.values
/-- In peer order, as `clusterInfo` has it. -/
def getRegionStores (region : RegionInfo) : List StoreView := region.storeIds.filterMap v.stores.lookup
def followerIDs (i : Nat) (region : RegionInfo) : List Nat := v.choices.removal i (regionFollowerIDs region)

end PatrolView

def orNil {α : Type} : Except String α → Option α
  | .ok a => some a
  | .error _ => none

def learnerCheck (region : RegionInfo) : Option Operator :=
  (region.getLearners.find? fun p => (region.getPendingLearner p.id).isNone).map fun p =>
    newOperator "promote-learner" region.getID region.getMeta.regionEpoch .opRegion [.promoteLearner p.storeId p.id]

def relocate (cfg : PatrolConfig) (v : PatrolView) (region : RegionInfo) : Option Operator :=
  let ns := v.classifier.regionNamespace region
  let targets := (v.getStores 0).filter (passesTarget cfg.opt [.namespace v.classifier.storeNamespace ns])
  if targets.isEmpty then none
  else
    match region.getPeers.find? fun p => !(targets.map StoreView.getID).contains p.storeId with
    | none => none
    | some peer =>
      match RandomSelector.selectTarget cfg.opt [.excluded [] region.storeIds, .storeState false true] targets
          (v.choices.coin 0) with
      | none => none
      | some target =>
        if target.getID = 0 then none
        else
          match v.choices.allocID 0 0 with
          | .error _ => none
          | .ok peerID =>
            orNil (createMovePeerOperator "make-namespace-relocation" (v.toCluster cfg 0) region .opReplica
              peer.storeId target.getID peerID (v.followerIDs 0 region))

def namespaceCheck (cfg : PatrolConfig) (v : PatrolView) (region : RegionInfo) : Option (Option Operator) :=
  if !cfg.isNamespaceRelocationEnabled then some none
  else
    let filtered := if v.installed then
      ruleFilter v.regions v.plugins v.choices.now false region (v.choices.rules 0 v.plugins.keys) else some false
    match filtered with
    | none => none
    | some true => some none
    | some false =>
      if v.classifier.allNamespaces.length = 1 then some none else some (relocate cfg v region)

section
variable (cfg : PatrolConfig) (v : PatrolView)
variable (region : RegionInfo)

def namespaceFilter : Option StoreFilter :=
  some (.namespace v.classifier.storeNamespace (v.classifier.regionNamespace region))

def createRemovePeerOperator (desc : String) (region : RegionInfo) (storeID : Nat) : Option Operator :=
  match removePeerSteps (v.toCluster cfg 1) region storeID (v.followerIDs 1 region) with
  | .error _ => none
  | .ok (removeKind, steps) =>
    some (newOperator desc region.getID region.getMeta.regionEpoch (removeKind ||| .opReplica) steps)

def replaceReplica (desc : String) (region : RegionInfo) (oldStore newStore : Nat) : Option Operator :=
  match v.choices.allocID 1 0 with
  | .error _ => none
  | .ok peerID =>
    orNil (createMovePeerOperator desc (v.toCluster cfg 1) region .opReplica oldStore newStore peerID
      (v.followerIDs 1 region))

def fixPeer (peer : Peer) (status : String) : Option Operator :=
  if cfg.maxReplicas < region.getPeers.length then
    createRemovePeerOperator cfg v ("remove-extra-" ++ status ++ "-replica") region peer.storeId
  else if region.pendingPeers.any fun p => p.id == peer.id then
    createRemovePeerOperator cfg v ("remove-pending-" ++ status ++ "-replica") region peer.storeId
  else
    let best := selectBestReplacementStore cfg.opt (namespaceFilter v) (v.getStores 1) v.getRegionStores region
      peer.storeId [.storageThreshold]
    if best.1 = 0 then none else replaceReplica cfg v ("replace-" ++ status ++ "-replica") region peer.storeId best.1

def downLoop (region : RegionInfo) : List PeerStats → Option Operator
  | [] => none
  | stats :: rest =>
    match stats.peer with
    | none => downLoop region rest
    | some peer =>
      match v.stores.lookup peer.storeId with
      | none => none
      | some store =>
        if store.downTime < cfg.opt.maxStoreDownTime then downLoop region rest
        else if (stats.downSeconds : Int) < cfg.opt.maxStoreDownTime / 1000000000 then downLoop region rest
        else fixPeer cfg v region peer "down"

def checkDownPeer : Option Operator :=
  if !cfg.isRemoveDownReplicaEnabled then none else downLoop cfg v region region.downPeers

def offlineLoop (region : RegionInfo) : List Peer → Option Operator
  | [] => none
  | peer :: rest =>
    match v.stores.lookup peer.storeId with
    | none => none
    | some store => if store.isUp then offlineLoop region rest else fixPeer cfg v region peer "offline"

def checkOfflinePeer : Option Operator :=
  if !cfg.isReplaceOfflineReplicaEnabled then none
  else if !region.getLearners.isEmpty then none
  else offlineLoop cfg v region region.getPeers

def selectWorstPeer : Option (Nat × Nat) :=
  let regionStores := v.getRegionStores region
  (ReplicaSelector.selectSource cfg.opt regionStores replicaFilters regionStores).map fun worst =>
    (worst.getID, distinctScore cfg.opt.locationLabels regionStores worst)

def checkBestReplacement : Option Operator :=
  if !cfg.isLocationReplacementEnabled then none
  else
    match selectWorstPeer cfg v region with
    | none => none
    | some (oldStore, oldScore) =>
      let best := selectBestReplacementStore cfg.opt (namespaceFilter v) (v.getStores 1) v.getRegionStores region
        oldStore [.storageThreshold]
      if best.1 = 0 then none
      else if best.2 ≤ oldScore then none
      else replaceReplica cfg v "move-to-better-location" region oldStore best.1

def makeUpReplica : Option Operator :=
  let best := selectBestStoreToAddReplica cfg.opt (namespaceFilter v) (v.getStores 1) v.getRegionStores region
    [.storageThreshold]
  if best.1 = 0 then none
  else
    (orNil (v.choices.allocID 1 0)).map fun peerID =>
      newOperator "make-up-replica" region.getID region.getMeta.regionEpoch (.opReplica ||| .opRegion)
        (createAddPeerSteps best.1 peerID (v.toCluster cfg 1))

def removeExtraReplica : Option Operator := (selectWorstPeer cfg v region).bind fun worst =>
    createRemovePeerOperator cfg v "remove-extra-replica" region worst.1

def replicaCheck : Option Operator :=
  match (checkDownPeer cfg v region).or (checkOfflinePeer cfg v region) with
  | some op => some { op with level := .highPriority }
  | none =>
    if (region.getPeers.length : Int) < cfg.maxReplicas ∧ cfg.isMakeUpReplicaEnabled = true then
      makeUpReplica cfg v region
    else if cfg.maxReplicas < region.getVoters.length ∧ cfg.isRemoveExtraReplicaEnabled = true then
      removeExtraReplica cfg v region
    else checkBestReplacement cfg v region

end

def checkTarget (cfg : PatrolConfig) (v : PatrolView) (region adjacent : RegionInfo) : Bool :=
  !v.isRegionHot adjacent.getID && v.classifier.allowMerge region adjacent && healthRegion adjacent &&
    decide ((adjacent.getPeers.length : Int) = cfg.maxReplicas)

def checkTargetFrom (cfg : PatrolConfig) (v : PatrolView) (region : RegionInfo) (adjacent target : Option RegionInfo) :
  Option RegionInfo :=
  match adjacent with
  | none => target
  | some adj =>
    if !v.isRegionHot adj.getID && v.classifier.allowMerge region adj && healthRegion adj then
      if target.all fun t => decide (adj.approximateSize < t.approximateSize) then
        if (adj.getPeers.length : Int) = cfg.maxReplicas then some adj else target
      else target
    else target

def chooseTarget (cfg : PatrolConfig) (v : PatrolView) (region : RegionInfo) : Option RegionInfo :=
  let adjacent := v.regions.getAdjacentRegions region
  let targetNext := checkTargetFrom cfg v region adjacent.2 none
  let target := checkTargetFrom cfg v region adjacent.1 none
  if target ≠ targetNext ∧ cfg.enableOneWayMerge then targetNext else target

section
open Option
variable {cfg : PatrolConfig} {v : PatrolView} {region : RegionInfo}

lemma checkTargetFrom_none (adjacent : Option RegionInfo) :
  checkTargetFrom cfg v region adjacent none = adjacent.filter (checkTarget cfg v region) := by
  cases adjacent with
  | none => rfl
  | some adj =>
    have hsplit : checkTarget cfg v region adj =
        ((!v.isRegionHot adj.getID && v.classifier.allowMerge region adj && healthRegion adj) &&
          decide ((adj.getPeers.length : Int) = cfg.maxReplicas)) := rfl
    rw [filter_some, hsplit]
    simp only [checkTargetFrom, all_none, if_true]
    by_cases hok : (!v.isRegionHot adj.getID && v.classifier.allowMerge region adj && healthRegion adj) = true
    · rw [if_pos hok, hok, Bool.true_and]
      simp only [decide_eq_true_eq]
    · rw [if_neg hok, Bool.eq_false_of_not_eq_true hok, Bool.false_and, if_neg Bool.false_ne_true]

/-- Both calls of `checkTarget` start from no target, so the sizes are never compared. -/
lemma chooseTarget_eq : chooseTarget cfg v region =
  (if cfg.enableOneWayMerge then (v.regions.getAdjacentRegions region).2
    else (v.regions.getAdjacentRegions region).1).filter (checkTarget cfg v region) := by
  unfold chooseTarget
  simp only [checkTargetFrom_none]
  by_cases hway : cfg.enableOneWayMerge = true
  · rw [if_pos hway]
    by_cases hsame : (v.regions.getAdjacentRegions region).1.filter (checkTarget cfg v region) =
        (v.regions.getAdjacentRegions region).2.filter (checkTarget cfg v region)
    · rw [if_neg fun h => h.1 hsame, hsame]
    · rw [if_pos ⟨hsame, hway⟩]
  · rw [if_neg fun h => hway h.2, if_neg hway]

end

def mergeable (cfg : PatrolConfig) (v : PatrolView) (region : RegionInfo) : Bool :=
  !v.splitCache.contains 0 && !v.splitCache.contains region.getID && region.approximateSize != 0 &&
    decide (region.approximateSize ≤ Words.wrap cfg.maxMergeRegionSize) &&
    decide (region.approximateKeys ≤ Words.wrap cfg.maxMergeRegionKeys) && healthRegion region &&
    decide ((region.getPeers.length : Int) = cfg.maxReplicas) && !v.isRegionHot region.getID

def mergeCheck (cfg : PatrolConfig) (v : PatrolView) (region : RegionInfo) : Option (List Operator) :=
  if !mergeable cfg v region then some []
  else
    match chooseTarget cfg v region with
    | none => some []
    | some target =>
      (createMergeRegionOperator "merge-region" (v.toCluster cfg 2) region target .opMerge
        (v.choices.ids 2 (intersectionStores region.getPeers target.getPeers))).map fun result =>
        match result with
        | .error _ => []
        | .ok (op, op') => [op, op']

end PD
