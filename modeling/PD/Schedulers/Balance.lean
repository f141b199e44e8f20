import PD.Schedulers.Utils

/-! # The schedulers balance-leader, label and balance-region -/

namespace PD
open List Option StoreView

def balanceLeaderRetryLimit : Nat := 10
def balanceLeaderFilters (taint : List Nat) : List StoreFilter := [.storeState true false, .cache taint]

/-- What a range cluster answers in its own way among the methods of `schedule.Cluster` that the balance schedulers
call: `GetStores`, and `RandLeaderRegion` and `RandFollowerRegion`, which take healthy regions. -/
structure BalanceView where
  cluster : NamespaceCluster
  getStores : Choices → Nat → List StoreView
  randRoleRegion : Role → Nat → (Nat → Nat → Nat) → Option RegionInfo

/-- A namespace cluster overrides nothing. -/
instance coeBalanceView : Coe NamespaceCluster BalanceView :=
  ⟨fun nc => ⟨nc, nc.getStores, fun role storeID => nc.randRoleRegion role storeID healthRegion⟩⟩

variable (s : Setting)
variable (nc : NamespaceCluster)
variable (v : BalanceView)

def balanceLeaderOperator (influence : OpInfluence) (region : RegionInfo)
  (source target : StoreView) : Option Operator :=
  if nc.cluster.isRegionHot region.getID then none
  else if !shouldBalance s.measures source target region true influence then none
  else some (createTransferLeaderOperator "balance-leader" region region.leaderStore target.getID .opBalance)

def transferLeaderOut (influence : OpInfluence) (taint : List Nat)
  (source : StoreView) (i : Nat) : Option (Option Operator) :=
  match v.randRoleRegion .leader source.getID (s.choices.draw i .leader) with
  | none => some none
  | some region =>
    match ruleFiltered s v.cluster (2 * i) true region with
    | none => none
    | some true => some none
    | some false =>
      match BalanceSelector.selectTarget leaderScore v.cluster.opt (balanceLeaderFilters taint)
          (v.cluster.getFollowerStores s.choices i region) with
      | none => some none
      | some target => some (balanceLeaderOperator s v.cluster influence region source target)

def transferLeaderIn (influence : OpInfluence) (target : StoreView) (i : Nat) : Option (Option Operator) :=
  match v.randRoleRegion .follower target.getID (s.choices.draw i .follower) with
  | none => some none
  | some region =>
    match ruleFiltered s v.cluster (2 * i + 1) true region with
    | none => none
    | some true => some none
    | some false =>
      match v.cluster.getStore region.leaderStore with
      | none => some none
      | some source => some (balanceLeaderOperator s v.cluster influence region source target)

def balanceLeaderAttempt (influence : OpInfluence) (source target : StoreView)
  (i : Nat) (taint : List Nat) : Option (List Nat × Option Operator) :=
  match transferLeaderOut s v influence taint source i with
  | none => none
  | some (some op) => some (taint, some op)
  | some none => (transferLeaderIn s v influence target i).map fun op => (taint, op)

def balanceLeader (taint : List Nat) : Option (List Nat × Option Operator) :=
  let stores := v.getStores s.choices 0
  match BalanceSelector.selectSource leaderScore v.cluster.opt (balanceLeaderFilters taint) stores,
      BalanceSelector.selectTarget leaderScore v.cluster.opt (balanceLeaderFilters taint) stores with
  | some source, some target =>
    match retry (balanceLeaderAttempt s v (v.cluster.opInfluence s) source target) balanceLeaderRetryLimit 0 taint with
    | none => none
    | some (taint, some op) => some (taint, some op)
    | some (taint, none) => some (taint ++ [source.getID, target.getID], none)
  | _, _ => some ([], none)

def unhealthyStores (region : RegionInfo) : List Nat :=
  region.downPeers.map (fun p => (p.peer.map Peer.storeId).getD 0) ++ region.pendingPeers.map Peer.storeId

def labelLoop (s : Setting) (nc : NamespaceCluster) : Nat → List Nat → Option (Option Operator)
  | _, [] => some none
  | i, id :: rest =>
    match nc.randRoleRegion .leader id (fun _ => true) (s.choices.draw i .leader) with
    | none => labelLoop s nc (i+1) rest
    | some region =>
      match ruleFiltered s nc i true region with
      | none => none
      | some true => labelLoop s nc (i+1) rest
      | some false =>
        match BalanceSelector.selectTarget leaderScore nc.opt
            [.excluded [] (unhealthyStores region), .storeState true false]
            (nc.getFollowerStores s.choices i region) with
        | none => labelLoop s nc (i+1) rest
        | some target =>
          some (some (createTransferLeaderOperator "label-reject-leader" region id target.getID .opLeader))

def label : Option (Option Operator) :=
  let rejecting := (nc.getStores s.choices 0).filter fun store => nc.opt.checkRejectLeader store.getMeta.labels
  labelLoop s nc 0 (s.choices.ids 0 (rejecting.map StoreView.getID).dedup)

def balanceRegionRetryLimit : Nat := 10

/-- `listed` are the stores that `GetStores` gives, which a range cluster changes. -/
def transferPeer (listed : List StoreView) (influence : OpInfluence) (hitTargets : Nat → List Nat)
  (i : Nat) (region : RegionInfo) (oldStore : Nat) : Option (Option Operator) :=
  let stores := nc.getRegionStores region
  match stores, nc.getStore oldStore with
  | [], _ => none
  | _, none => none
  | _, some source =>
    let scoreGuard := distinctScoreFilter nc.opt.locationLabels stores source
    let (storeID, _) := selectBestReplacementStore nc.opt (fun _ => none) listed
      nc.getRegionStores region oldStore [scoreGuard, .blacklistTarget (hitTargets i)]
    if storeID = 0 then some none
    else
      match nc.getStore storeID with
      | none => none
      | some target =>
        if !shouldBalance s.measures source target region false influence then some none
        else
          match s.choices.allocID i 0 with
          | .error _ => some none
          | .ok peerID =>
            match createMovePeerOperator "balance-region" (nc.toCluster (s.choices.allocID i)) region .opBalance
                oldStore storeID peerID (s.choices.removal i (regionFollowerIDs region)) with
            | .error _ => some none
            | .ok op => some (some op)

def balanceRegionPick (sourceID i : Nat) : Option RegionInfo :=
  (v.cluster.randPendingRegion sourceID healthRegionAllowPending (s.choices.draw i .pending 0)).or
    ((v.randRoleRegion .follower sourceID (s.choices.draw i .follower)).or
      (v.randRoleRegion .leader sourceID (s.choices.draw i .leader)))

def balanceRegionAttempt (influence : OpInfluence)
  (hitTargets : Nat → List Nat) (sourceID i : Nat) : Option (Option Operator) :=
  match balanceRegionPick s v sourceID i with
  | none => some none
  | some region =>
    if (region.getPeers.length : Int) ≠ v.cluster.getMaxReplicas then some none
    else if v.cluster.cluster.isRegionHot region.getID then some none
    else
      match ruleFiltered s v.cluster i false region with
      | none => none
      | some true => some none
      | some false =>
        transferPeer s v.cluster (v.getStores s.choices (i+1)) influence hitTargets i region
          (((region.getStorePeer sourceID).map Peer.storeId).getD 0)

def balanceRegion (hitSources : List Nat) (hitTargets : Nat → List Nat) : Option (Option Operator) :=
  match BalanceSelector.selectSource regionScore v.cluster.opt
      [.blacklistSource hitSources, .storeState false true] (v.getStores s.choices 0) with
  | none => some none
  | some source =>
    (retry (fun i (_ : Unit) => (balanceRegionAttempt s v (v.cluster.opInfluence s) hitTargets source.getID i).map
      fun op => ((), op)) balanceRegionRetryLimit 0 ()).map Prod.snd

def NamespaceCluster.Cached (x : RegionInfo) : Prop := ∃ id, nc.regions.getRegion id = some x

def Passed (Drawn : RegionInfo → Prop) (leaderOnly : Bool) (op : Operator) : Prop :=
  ∃ x i, Drawn x ∧ op.regionID = x.getID ∧ ruleFiltered s nc i leaderOnly x = some false

section
variable {s : Setting} {nc : NamespaceCluster} {v : BalanceView} {influence : OpInfluence} {op : Operator}
variable {x : RegionInfo} {source target : StoreView} {oldStore i : Nat} {taint taint' : List Nat}
variable {hitTargets : Nat → List Nat} {Drawn : RegionInfo → Prop}

lemma balanceLeaderOperator_regionID
  (h : balanceLeaderOperator s nc influence x source target = some op) : op.regionID = x.getID := by
  unfold balanceLeaderOperator at h
  split at h
  · cases h
  split at h
  · cases h
  cases h
  rfl

lemma createMovePeerOperator_regionID {desc : String} {c : Cluster} {kind : OperatorKind} {newStore peerID : Nat}
  {followers : List Nat} (h : createMovePeerOperator desc c x kind oldStore newStore peerID followers = .ok op) :
  op.regionID = x.getID := by
  unfold createMovePeerOperator at h
  split at h
  · cases h
  cases h
  rfl

section
variable (hv : ∀ role storeID draw x, v.randRoleRegion role storeID draw = some x → Drawn x)
include hv

lemma transferLeaderOut_passed
  (h : transferLeaderOut s v influence taint source i = some (some op)) : Passed s v.cluster Drawn true op := by
  unfold transferLeaderOut at h
  split at h
  · cases h
  next x hx =>
    split at h
    · cases h
    · cases h
    next hpass =>
      split at h
      · cases h
      · exact ⟨x, _, hv _ _ _ x hx, balanceLeaderOperator_regionID (some.inj h), hpass⟩

lemma transferLeaderIn_passed
  (h : transferLeaderIn s v influence target i = some (some op)) : Passed s v.cluster Drawn true op := by
  unfold transferLeaderIn at h
  split at h
  · cases h
  next x hx =>
    split at h
    · cases h
    · cases h
    next hpass =>
      split at h
      · cases h
      · exact ⟨x, _, hv _ _ _ x hx, balanceLeaderOperator_regionID (some.inj h), hpass⟩

lemma balanceLeader_passed (h : balanceLeader s v taint = some (taint', some op)) :
  Passed s v.cluster Drawn true op := by
  simp only [balanceLeader] at h
  split at h
  · split at h
    · cases h
    next hretry =>
      cases h
      obtain ⟨j, t, t', hj⟩ := retry_some hretry
      unfold balanceLeaderAttempt at hj
      split at hj
      · cases hj
      next hout =>
        cases hj
        exact transferLeaderOut_passed hv hout
      · obtain ⟨res, hin, hres⟩ := map_eq_some_iff.mp hj
        cases hres
        exact transferLeaderIn_passed hv hin
    · cases h
  · cases h

end

lemma labelLoop_passed (hr : nc.regions.Held) {ids : List Nat} (h : labelLoop s nc i ids = some (some op)) :
  Passed s nc nc.Cached true op := by
  induction ids generalizing i with
  | nil => cases h
  | cons _ _ ih =>
    rw [labelLoop] at h
    split at h
    · exact ih h
    next x hx =>
      split at h
      · cases h
      · exact ih h
      next hpass =>
        split at h
        · exact ih h
        cases h
        exact ⟨x, i, randRoleRegion_some hr hx, rfl, hpass⟩

def OperatorStep.addsTo : OperatorStep → Option Nat
  | .addPeer toStore _ | .addLearner toStore _ | .addLightPeer toStore _ | .addLightLearner toStore _ => some toStore
  | _ => none

section
variable {opt : ScheduleOptions} {listed : List StoreView} {regionStores : RegionInfo → List StoreView}
  {filters : List StoreFilter} {ns : RegionInfo → Option StoreFilter} {newStore peerID : Nat} {c : Cluster}
  {followers : List Nat} {kind : OperatorKind}

lemma passesTarget_excluded {fs : List StoreFilter} {ids : List Nat} {s : StoreView}
  (hf : StoreFilter.excluded [] ids ∈ fs) (h : passesTarget opt fs s = true) : s.getID ∉ ids := by
  intro hin
  have htarget : (StoreFilter.excluded [] ids).target opt s = true := contains_iff_mem.mpr hin
  rw [passesTarget_eq_false hf htarget] at h
  cases h

lemma selectBestReplacementStore_spec
  (h : (selectBestReplacementStore opt ns listed regionStores x oldStore filters).1 ≠ 0) :
  ∃ target ∈ listed, target.getID = (selectBestReplacementStore opt ns listed regionStores x oldStore filters).1 ∧
    (selectBestReplacementStore opt ns listed regionStores x oldStore filters).1 ∉ x.storeIds := by
  simp only [selectBestReplacementStore, selectBestStoreToAddReplica] at h ⊢
  split at h
  · exact absurd rfl h
  next target hselect =>
    obtain ⟨hselect, -⟩ := filter_eq_some_iff.mp hselect
    obtain ⟨hmem, hpass⟩ := (selectBy_mem hselect).resolve_left fun e => by cases e
    refine ⟨target, hmem, rfl, passesTarget_excluded ?_ hpass⟩
    simp

lemma addsTo_createAddPeerSteps {step : OperatorStep} {t : Nat}
  (h : step ∈ createAddPeerSteps newStore peerID c) (ht : step.addsTo = some t) : t = newStore := by
  unfold createAddPeerSteps at h
  split at h
  · rcases mem_pair.mp h with rfl | rfl
    · exact (some.inj ht).symm
    · cases ht
  rw [mem_singleton.mp h] at ht
  exact (some.inj ht).symm

lemma addsTo_removePeerSteps {steps : List OperatorStep}
  (h : removePeerSteps c x oldStore followers = .ok (kind, steps)) : ∀ step ∈ steps, step.addsTo = none := by
  intro step hstep
  unfold removePeerSteps at h
  split at h
  · split at h
    · cases h
      rcases mem_pair.mp hstep with rfl | rfl <;> rfl
    · cases h
  cases h
  rw [mem_singleton.mp hstep]
  rfl

lemma createMovePeerOperator_adds {desc : String} {op : Operator}
  (h : createMovePeerOperator desc c x kind oldStore newStore peerID followers = .ok op) :
  ∀ step ∈ op.steps, ∀ t, step.addsTo = some t → t = newStore := by
  unfold createMovePeerOperator at h
  split at h
  · cases h
  next hremove =>
    cases h
    intro step hstep t ht
    rcases mem_append.mp hstep with hstep | hstep
    · exact addsTo_createAddPeerSteps hstep ht
    rw [addsTo_removePeerSteps hremove step hstep] at ht
    cases ht

lemma transferPeer_spec (h : transferPeer s nc listed influence hitTargets i x oldStore = some (some op)) :
  op.regionID = x.getID ∧ (nc.getStore oldStore).isSome ∧ ∃ t, (nc.getStore t).isSome ∧ t ∉ x.storeIds ∧
    ∀ step ∈ op.steps, ∀ u, step.addsTo = some u → u = t := by
  simp only [transferPeer] at h
  split at h
  · cases h
  · cases h
  next _ hsource _ =>
    split at h
    · cases h
    next hne =>
      split at h
      · cases h
      next target htarget =>
        split at h
        · cases h
        split at h
        · cases h
        split at h
        · cases h
        next hop =>
          cases h
          obtain ⟨-, -, -, hnew⟩ := selectBestReplacementStore_spec hne
          have hadds := createMovePeerOperator_adds hop
          refine ⟨createMovePeerOperator_regionID hop, by rw [hsource]; rfl, _, isSome_iff_exists.mpr ⟨target, htarget⟩,
            hnew, hadds⟩

end

/-- Every operator of `balanceRegion` comes from one `transferPeer`, for a region picked on a store of `getStores`. -/
lemma balanceRegion_spec {hitSources : List Nat} (h : balanceRegion s v hitSources hitTargets = some (some op)) :
  ∃ source ∈ v.getStores s.choices 0, ∃ x i, balanceRegionPick s v source.getID i = some x ∧
    ruleFiltered s v.cluster i false x = some false ∧
    transferPeer s v.cluster (v.getStores s.choices (i+1)) (v.cluster.opInfluence s) hitTargets i x
      (((x.getStorePeer source.getID).map Peer.storeId).getD 0) = some (some op) := by
  unfold balanceRegion at h
  split at h
  · cases h
  next source hselect =>
    obtain ⟨hmem, -⟩ := (selectBy_mem hselect).resolve_left nofun
    obtain ⟨⟨⟨⟩, found⟩, hretry, hfound⟩ := map_eq_some_iff.mp h
    cases hfound
    obtain ⟨j, t, t', hj⟩ := retry_some hretry
    obtain ⟨res, hres, heq⟩ := map_eq_some_iff.mp hj
    cases heq
    unfold balanceRegionAttempt at hres
    split at hres
    · cases hres
    next x hx =>
      split at hres
      · cases hres
      split at hres
      · cases hres
      split at hres
      · cases hres
      · cases hres
      next hpass => exact ⟨source, hmem, x, j, hx, hpass, hres⟩

lemma balanceRegion_eq {hitSources : List Nat} (hsource : BalanceSelector.selectSource regionScore v.cluster.opt
    [.blacklistSource hitSources, .storeState false true] (v.getStores s.choices 0) = some source)
  (hpick : balanceRegionPick s v source.getID 0 = some x)
  (hreplicas : (x.getPeers.length : Int) = v.cluster.getMaxReplicas)
  (hhot : v.cluster.cluster.isRegionHot x.getID = false) (hpass : ruleFiltered s v.cluster 0 false x = some false)
  (h : transferPeer s v.cluster (v.getStores s.choices 1) (v.cluster.opInfluence s) hitTargets 0 x
    (((x.getStorePeer source.getID).map Peer.storeId).getD 0) = some (some op)) :
  balanceRegion s v hitSources hitTargets = some (some op) := by
  have hattempt : balanceRegionAttempt s v (v.cluster.opInfluence s) hitTargets source.getID 0 = some (some op) := by
    unfold balanceRegionAttempt
    simp only [hpick, hreplicas, ne_eq, not_true_eq_false, if_false, hhot, Bool.false_eq_true, hpass]
    exact h
  unfold balanceRegion
  rw [hsource]
  simp only [balanceRegionRetryLimit, retry, hattempt, map_some]

lemma balanceRegionPick_some (hr : nc.regions.Held) {sourceID : Nat}
  (h : balanceRegionPick s nc sourceID i = some x) : ∃ id, nc.regions.getRegion id = some x := by
  rcases or_eq_some_iff.mp h with hpending | ⟨-, h⟩
  · exact randPendingRegion_some hr hpending
  rcases or_eq_some_iff.mp h with hfollower | ⟨-, hleader⟩
  · exact randRoleRegion_some hr hfollower
  · exact randRoleRegion_some hr hleader

end
end PD
