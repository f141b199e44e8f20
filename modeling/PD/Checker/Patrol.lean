import PD.Checker.Checkers
import PD.Schedule.OperatorController

/-! # The patrol and region rules -/

namespace PD
open List Option

structure Stage where
  waiting : Bool
  check : OperatorController → Option (List Operator)

structure Handover where
  clock : Nat
  exceeds : Bool
  draws : List Draw

def submit (w : World) (ho : Handover) (waiting : Bool) (oc : OperatorController) (ops : List Operator) :
  Option (Bool × OperatorController) :=
  let made := oc.objects.allocAll ops
  let oc := { oc with objects := made.1 }
  if waiting then oc.addWaitingOperator w made.2 ho.draws else some (oc.addOperator w ho.exceeds made.2)

def runStages (w : World) (ho : Handover) : List Stage → OperatorController →
    Option (List Operator × OperatorController)
  | [], oc => some ([], oc)
  | stage :: rest, oc =>
    match stage.check oc with
    | none => none
    | some [] => runStages w ho rest oc
    | some (op :: ops) =>
      match submit w ho stage.waiting oc (op :: ops) with
      | none => none
      | some (true, oc) => some (op :: ops, oc)
      | some (false, oc) => runStages w ho rest oc

def patrolWorld (cfg : PatrolConfig) (v : PatrolView) (ho : Handover) : World :=
  ⟨v.regions.getRegion, ho.clock, cfg.schedulerMaxWaitingOperator⟩

section
variable (cfg : PatrolConfig) (v : PatrolView) (region : RegionInfo)

def learnerStage : Stage := ⟨false, fun _ => some (learnerCheck region).toList⟩

def namespaceStage : Stage where
  waiting := true
  check := fun oc =>
    if oc.operatorCount .opLeader < cfg.leaderScheduleLimit ∧ oc.operatorCount .opRegion < cfg.regionScheduleLimit ∧
        oc.operatorCount .opReplica < cfg.replicaScheduleLimit then
      (namespaceCheck cfg v region).map Option.toList
    else some []

def replicaStage : Stage where
  waiting := true
  check := fun oc =>
    if oc.operatorCount .opReplica < cfg.replicaScheduleLimit then some (replicaCheck cfg v region).toList
    else some []

def mergeStage : Stage where
  waiting := true
  check := fun oc =>
    if cfg.isRegionMergeSupported = true ∧ oc.operatorCount .opMerge < cfg.mergeScheduleLimit then
      mergeCheck cfg v region
    else some []

def checkRegion (ho : Handover) (oc : OperatorController) : Option (List Operator × OperatorController) :=
  runStages (patrolWorld cfg v ho) ho
    [learnerStage region, namespaceStage cfg v region, replicaStage cfg v region, mergeStage cfg v region] oc

end

structure StoreView.Healthy (s : StoreView) (opt : ScheduleOptions) : Prop where
  up : s.isUp = true
  connected : s.isDisconnected = false
  well : StoreFilter.unhealthy opt s = false

structure Ruled (cfg : PatrolConfig) (x : Region) (info : PluginInfo) (now : Int) (startKey endKey : Key) : Prop where
  range : x.Nonempty
  voters : ∀ p ∈ x.peers, p.isLearner = false
  count : (x.peers.length : Int) = cfg.maxReplicas
  placed : ∀ p ∈ x.peers, p.storeId ≠ 0
  active : info.active now = true
  start : decodeString info.keyStart = some startKey
  stop : decodeString info.keyEnd = some endKey
  inside : inRange startKey endKey x.startKey
  stores : ∀ s ∈ info.storeIDs, s ∈ x.peers.map Peer.storeId

structure OfKind (cfg : PatrolConfig) (x : Region) (info : PluginInfo) (now : Int) (v : PatrolView)
    (region : RegionInfo) : Prop where
  sound : v.regions.Sound
  cached : v.regions.getRegion x.id = some region
  meta_eq : region.getMeta = x
  noDown : region.downPeers = []
  noPending : region.pendingPeers = []
  size : 0 ≤ region.approximateSize
  keyed : ∀ id s, v.stores.lookup id = some s → s.getID = id
  healthy : ∀ id ∈ region.storeIds, ∃ s, v.stores.lookup id = some s ∧ s.Healthy cfg.opt
  installed : v.installed = true
  rule : ∃ i, v.plugins.lookup (.region i) = some info
  now_eq : v.choices.now = now

def Kept (cfg : PatrolConfig) (x : Region) (info : PluginInfo) (now : Int) : Prop :=
  ∀ v region ho oc added oc', OfKind cfg x info now v region → checkRegion cfg v region ho oc = some (added, oc') →
    ∀ op ∈ added, op.regionID = x.id → ∀ s ∈ info.storeIDs, .removePeer s ∉ op.steps

def Accepts (opt : ScheduleOptions) : Prop := opt.maxPendingPeerCount = 0 ∨ 0 ≤ Words.wrap opt.maxPendingPeerCount

def Relocates (cfg : PatrolConfig) (x : Region) (endKey : Key) : Prop :=
  Accepts cfg.opt ∧ cfg.isNamespaceRelocationEnabled = true ∧ 0 < cfg.leaderScheduleLimit ∧
    0 < cfg.regionScheduleLimit ∧ 0 < cfg.replicaScheduleLimit ∧ x.isWhole = true ∧ endKey ≠ []

def Replaces (cfg : PatrolConfig) (x : Region) : Prop :=
  Accepts cfg.opt ∧ cfg.isLocationReplacementEnabled = true ∧ 0 < cfg.replicaScheduleLimit ∧
    cfg.opt.locationLabels ≠ [] ∧ ∃ a ∈ x.peers, ∃ b ∈ x.peers, a.storeId ≠ b.storeId

def Merges (cfg : PatrolConfig) (x : Region) : Prop :=
  cfg.isRegionMergeSupported = true ∧ 0 < cfg.mergeScheduleLimit ∧ 0 < Words.wrap cfg.maxMergeRegionSize ∧
    if cfg.enableOneWayMerge then x.endKey ≠ [] else x.startKey ≠ []

section
variable {cfg : PatrolConfig} {v : PatrolView} {region : RegionInfo} {ho : Handover} {w : World}
  {x : Region} {info : PluginInfo} {now : Int} {startKey endKey : Key}
variable {stages : List Stage} {oc oc' : OperatorController} {added : List Operator} {s : StoreView}
variable {ns : RegionInfo → Option StoreFilter} {listed : List StoreView}
variable {getRegionStores : RegionInfo → List StoreView} {filters : List StoreFilter} {oldStore : Nat}

lemma runStages_empty (h : ∀ st ∈ stages, ∀ oc, st.check oc = some [])
  (oc : OperatorController) : runStages w ho stages oc = some ([], oc) := by
  induction stages with
  | nil => rfl
  | cons stage _ ih =>
    rw [runStages, h stage mem_cons_self oc]
    exact ih fun st hst => h st (mem_cons_of_mem _ hst)

lemma submit_waiting_full (hw : w.schedulerMaxWaitingOperator = 0)
  {ops : List Operator} (h : submit w ho true oc ops = some (true, oc')) : False := by
  simp only [submit, if_true, OperatorController.addWaitingOperator] at h
  split at h
  · cases h
  · cases h
  next hlocked =>
    unfold OperatorController.addWaitingLocked at hlocked
    split at hlocked
    · cases hlocked
    split at hlocked
    · cases hlocked
    rw [hw, if_pos (Nat.zero_le _)] at hlocked
    cases hlocked

lemma runStages_full (hw : w.schedulerMaxWaitingOperator = 0) (hwait : ∀ st ∈ stages, st.waiting = true)
  (h : runStages w ho stages oc = some (added, oc')) : added = [] := by
  induction stages generalizing oc with
  | nil =>
    cases h
    rfl
  | cons stage _ ih =>
    have hrest := fun st hst => hwait st (mem_cons_of_mem _ hst)
    rw [runStages, hwait stage mem_cons_self] at h
    split at h
    · cases h
    · exact ih hrest h
    split at h
    · cases h
    next hsub => exact (submit_waiting_full hw hsub).elim
    · exact ih hrest h

lemma offlineLoop_none {peers : List Peer} (h : ∀ p ∈ peers, ∃ s, v.stores.lookup p.storeId = some s ∧ s.isUp = true) :
  offlineLoop cfg v region peers = none := by
  induction peers with
  | nil => rfl
  | cons p _ ih =>
    obtain ⟨s, hs, hup⟩ := h p mem_cons_self
    rw [offlineLoop, hs]
    simp only [hup, if_true]
    exact ih fun q hq => h q (mem_cons_of_mem _ hq)

lemma distinctScore_nil (labels : List String) (s : StoreView) : distinctScore labels [] s = 0 := rfl

lemma distinctScore_eq_zero {labels : List String} {stores : List StoreView}
  (h : ∀ t ∈ stores, compareLocation t s labels = none) : distinctScore labels stores s = 0 := by
  refine sum_eq_zero fun n hn => ?_
  obtain ⟨t, ht, rfl⟩ := List.mem_map.mp hn
  rw [distinctFrom, h t ht]
  split <;> rfl

lemma bestStore_score {opt : ScheduleOptions}
  (h : ∀ s, distinctScore opt.locationLabels (getRegionStores region) s = 0) :
  (selectBestStoreToAddReplica opt ns listed getRegionStores region filters).2 = 0 := by
  simp only [selectBestStoreToAddReplica]
  split
  · rfl
  · exact h _

lemma checkBestReplacement_none (h : ∀ oldStore oldScore, selectWorstPeer cfg v region = some (oldStore, oldScore) →
    ∀ s, distinctScore cfg.opt.locationLabels (v.getRegionStores (region.withRemoveStorePeer oldStore)) s = 0) :
  checkBestReplacement cfg v region = none := by
  unfold checkBestReplacement
  split
  · rfl
  split
  · rfl
  next oldStore oldScore hworst =>
    simp only
    split
    · rfl
    have hzero : (selectBestReplacementStore cfg.opt (namespaceFilter v) (v.getStores 1) v.getRegionStores
        region oldStore [.storageThreshold]).2 = 0 := bestStore_score (h oldStore oldScore hworst)
    rw [hzero, if_pos (Nat.zero_le _)]

lemma mem_getRegionStores {y : RegionInfo} :
    s ∈ v.getRegionStores y ↔ ∃ id ∈ y.storeIds, v.stores.lookup id = some s := mem_filterMap

lemma selectWorstPeer_mem {oldScore : Nat} (hk : OfKind cfg x info now v region)
  (h : selectWorstPeer cfg v region = some (oldStore, oldScore)) : oldStore ∈ region.storeIds := by
  obtain ⟨worst, hworst, he⟩ := map_eq_some_iff.mp h
  obtain ⟨hid, -⟩ := Prod.mk.inj he
  obtain ⟨hsel, -⟩ := filter_eq_some_iff.mp hworst
  have hmem := ((selectBy_mem hsel).resolve_left nofun).1
  obtain ⟨id, hidmem, hlookup⟩ := mem_getRegionStores.mp hmem
  rw [← hid, hk.keyed id worst hlookup]
  exact hidmem

lemma removeOnly_nil (hk : OfKind cfg x info now v region)
  (hone : ¬ ∃ a ∈ x.peers, ∃ b ∈ x.peers, a.storeId ≠ b.storeId) (hold : oldStore ∈ region.storeIds) :
  v.getRegionStores (region.withRemoveStorePeer oldStore) = [] := by
  have hpeers : region.getPeers = x.peers := congrArg Region.peers hk.meta_eq
  obtain ⟨p, hp, rfl⟩ := RegionInfo.mem_storeIds.mp hold
  have hnil : (region.withRemoveStorePeer p.storeId).getPeers = [] := by
    rw [RegionInfo.getPeers_withRemoveStorePeer, filter_eq_nil_iff]
    intro q hq
    have hsame : q.storeId = p.storeId := by
      by_contra hne
      exact hone ⟨q, hpeers ▸ hq, p, hpeers ▸ hp, hne⟩
    simp [hsame]
  rw [PatrolView.getRegionStores, RegionInfo.storeIds, hnil]
  rfl

lemma tooManyPending_of_not (h : ¬ Accepts cfg.opt) (s : StoreView) : cfg.opt.tooManyPending s = true := by
  obtain ⟨hne, hneg⟩ := not_or.mp h
  rw [ScheduleOptions.tooManyPending, bne_iff_ne.mpr hne, Bool.true_and, decide_eq_true_eq]
  exact lt_of_lt_of_le (not_le.mp hneg) (Int.natCast_nonneg _)

lemma relocate_none (h : ¬ Accepts cfg.opt) : relocate cfg v region = none := by
  have hrandom : ∀ stores n, RandomSelector.selectTarget cfg.opt
      [.excluded [] region.storeIds, .storeState false true] stores n = none := by
    intro stores n
    have hnil : stores.filter (passesTarget cfg.opt [.excluded [] region.storeIds, .storeState false true]) = [] := by
      refine filter_eq_nil_iff.mpr fun s _ => ?_
      have hrefused : (StoreFilter.storeState false true).target cfg.opt s = true := by
        simp [StoreFilter.target, tooManyPending_of_not h s]
      rw [passesTarget_eq_false (mem_cons_of_mem _ mem_cons_self) hrefused]
      exact Bool.false_ne_true
    rw [RandomSelector.selectTarget, hnil]
    rfl
  unfold relocate
  simp only [hrandom]
  split
  · rfl
  · split <;> rfl

lemma bestStore_none (h : ¬ Accepts cfg.opt) :
  (selectBestStoreToAddReplica cfg.opt ns listed getRegionStores region filters).1 = 0 := by
  simp only [selectBestStoreToAddReplica]
  split
  · rfl
  next target htarget =>
    obtain ⟨hsel, -⟩ := filter_eq_some_iff.mp htarget
    have hpass := ((selectBy_mem hsel).resolve_left nofun).2
    rw [passesTarget_eq_false (f := .pendingPeerCount) (by simp) (tooManyPending_of_not h target)] at hpass
    cases hpass

lemma namespaceCheck_passed (henabled : cfg.isNamespaceRelocationEnabled = true) (hi : v.installed = true)
  (hf : ruleFilter v.regions v.plugins v.choices.now false region (v.choices.rules 0 v.plugins.keys) = some false)
  (hns : v.classifier.allNamespaces.length ≠ 1) : namespaceCheck cfg v region = some (relocate cfg v region) := by
  unfold namespaceCheck
  simp only [henabled, Bool.not_true, Bool.false_eq_true, if_false, if_pos hi, hf, if_neg hns]

lemma namespaceCheck_none (hr : v.regions.Sound)
  (h : v.classifier.allNamespaces.length = 1 ∨ relocate cfg v region = none) :
  namespaceCheck cfg v region = some none := by
  have hunruled : (if v.classifier.allNamespaces.length = 1 then some none else some (relocate cfg v region)) =
      some none := by
    rcases h with h | h
    · exact if_pos h
    · rw [h, ite_self]
  unfold namespaceCheck
  split
  · rfl
  cases hi : v.installed with
  | false => exact hunruled
  | true =>
    cases hf : ruleFilter v.regions v.plugins v.choices.now false region
        (v.choices.rules 0 v.plugins.keys) with
    | none => exact absurd hf (ruleFilter_isSome hr)
    | some refused =>
      cases refused with
      | true => simp only [if_true]
      | false => simpa only [if_true, hf] using hunruled

lemma getAdjacentRegions_prev (h : region.getMeta.startKey = []) : (v.regions.getAdjacentRegions region).1 = none := by
  have hnil : (v.regions.tree.items.filter fun i => decide (i.startKey < region.getMeta.startKey)) = [] := by
    refine filter_eq_nil_iff.mpr fun i _ => ?_
    rw [h]
    simp
  show ((List.getLast? _).filter _).bind _ = none
  rw [hnil]
  rfl

lemma getAdjacentRegions_next (h : region.getMeta.endKey = []) : (v.regions.getAdjacentRegions region).2 = none := by
  show ((List.head? _).filter _).bind _ = none
  rw [bind_eq_none_iff]
  intro next hnext
  obtain ⟨hhead, htouch⟩ := filter_eq_some_iff.mp hnext
  have hlt := (mem_filter.mp (List.mem_of_head? hhead)).2
  rw [h] at htouch
  rw [← beq_iff_eq.mp htouch, decide_eq_true_eq] at hlt
  exact absurd hlt (not_lt_nil _)

lemma mergeStage_empty (hk : OfKind cfg x info now v region) (hclosed : ¬ Merges cfg x) (oc : OperatorController) :
  (mergeStage cfg v region).check oc = some [] := by
  show (if _ then _ else _) = _
  split
  next hcount =>
    have hmerge : 0 < cfg.mergeScheduleLimit := Nat.zero_lt_of_lt hcount.2
    unfold mergeCheck
    split
    · rfl
    next hsmall =>
      have hsize : 0 < Words.wrap cfg.maxMergeRegionSize := by
        have hpos := hk.size
        simp only [mergeable, Bool.not_eq_true', Bool.not_eq_false, Bool.and_eq_true, bne_iff_ne,
          decide_eq_true_eq] at hsmall
        omega
      have hnone : chooseTarget cfg v region = none := by
        rw [chooseTarget_eq]
        by_cases hway : cfg.enableOneWayMerge = true
        · have hend : region.getMeta.endKey = [] := by
            by_contra hne
            exact hclosed ⟨hcount.1, hmerge, hsize, by rw [if_pos hway, ← hk.meta_eq]; exact hne⟩
          simp only [if_pos hway, getAdjacentRegions_next hend, filter_none]
        have hstart : region.getMeta.startKey = [] := by
          by_contra hne
          exact hclosed ⟨hcount.1, hmerge, hsize, by rw [if_neg hway, ← hk.meta_eq]; exact hne⟩
        simp only [if_neg hway, getAdjacentRegions_prev hstart, filter_none]
      rw [hnone]
  · rfl

variable (hx : Ruled cfg x info now startKey endKey) (hk : OfKind cfg x info now v region)
include hx hk

lemma OfKind.noLearners : region.getLearners = [] := by
  refine filter_eq_nil_iff.mpr fun p hp => ?_
  rw [hk.meta_eq] at hp
  rw [hx.voters p hp]
  exact Bool.false_ne_true

lemma OfKind.getVoters : region.getVoters = x.peers := by
  rw [RegionInfo.getVoters, hk.meta_eq]
  exact filter_eq_self.mpr fun p hp => by rw [hx.voters p hp]; rfl

lemma learnerStage_empty (oc : OperatorController) : (learnerStage region).check oc = some [] := by
  show some (learnerCheck region).toList = _
  rw [learnerCheck, hk.noLearners hx]
  rfl

lemma replicaCheck_eq : replicaCheck cfg v region = checkBestReplacement cfg v region := by
  have hdown : checkDownPeer cfg v region = none := by
    rw [checkDownPeer, hk.noDown]
    split <;> rfl
  have hoffline : checkOfflinePeer cfg v region = none := by
    unfold checkOfflinePeer
    split
    · rfl
    split
    · rfl
    refine offlineLoop_none fun p hp => ?_
    obtain ⟨s, hs, hhealthy⟩ := hk.healthy p.storeId (List.mem_map_of_mem hp)
    exact ⟨s, hs, hhealthy.up⟩
  have hpeers : (region.getPeers.length : Int) = cfg.maxReplicas := by
    rw [← hx.count, ← hk.meta_eq]
    rfl
  rw [replicaCheck, hdown, hoffline, or_none]
  simp only
  rw [if_neg (by rw [hpeers]; exact fun h => lt_irrefl _ h.1),
    if_neg (by rw [hk.getVoters hx, hx.count]; exact fun h => lt_irrefl _ h.1)]

lemma namespaceCheck_ruled (hseen : x.isWhole = false ∨ endKey = []) : namespaceCheck cfg v region = some none := by
  obtain ⟨i, hi⟩ := hk.rule
  have hmem : region ∈ v.regions.ordered := (RegionsInfo.mem_ordered hk.sound).mpr ⟨_, hk.cached⟩
  have hkey : RuleKey.region i ∈ v.choices.rules 0 v.plugins.keys :=
    (v.choices.rules_perm 0 _).mem_iff.mpr (SortedMap.mem_keys.mpr ⟨info, hi⟩)
  have hactive : info.active v.choices.now = true := by
    rw [hk.now_eq]
    exact hx.active
  have hfilter : ruleFilter v.regions v.plugins v.choices.now false region
      (v.choices.rules 0 v.plugins.keys) = some true := by
    refine ruleFilter_refuses hk.sound hmem hkey hi (fun hl => (Bool.false_ne_true hl).elim) hactive hx.start hx.stop
      ?_ ?_
    · rw [hk.meta_eq]
      exact hx.inside
    rw [hk.meta_eq]
    exact hseen
  unfold namespaceCheck
  split
  · rfl
  · simp only [if_pos hk.installed, hfilter]

lemma namespaceStage_empty (hclosed : ¬ Relocates cfg x endKey) (oc : OperatorController) :
  (namespaceStage cfg v region).check oc = some [] := by
  show (if _ then _ else _) = _
  split
  next hcount =>
    have hleader : 0 < cfg.leaderScheduleLimit := Nat.zero_lt_of_lt hcount.1
    have hregion : 0 < cfg.regionScheduleLimit := Nat.zero_lt_of_lt hcount.2.1
    have hreplica : 0 < cfg.replicaScheduleLimit := Nat.zero_lt_of_lt hcount.2.2
    have hnone : namespaceCheck cfg v region = some none := by
      by_cases henabled : cfg.isNamespaceRelocationEnabled = true
      swap
      · rw [namespaceCheck, if_pos (by simpa using henabled)]
      by_cases haccepts : Accepts cfg.opt
      swap
      · -- a peer has nowhere to go
        exact namespaceCheck_none hk.sound (.inr (relocate_none haccepts))
      refine namespaceCheck_ruled hx hk ?_
      by_contra hne
      obtain ⟨hwhole, hend⟩ := not_or.mp hne
      exact hclosed ⟨haccepts, henabled, hleader, hregion, hreplica, Bool.not_eq_false _ ▸ hwhole, hend⟩
    rw [hnone]
    rfl
  · rfl

lemma replicaStage_empty
  (hclosed : ¬ Replaces cfg x) (oc : OperatorController) : (replicaStage cfg v region).check oc = some [] := by
  show (if _ then _ else _) = _
  split
  next hcount =>
    have hreplica : 0 < cfg.replicaScheduleLimit := Nat.zero_lt_of_lt hcount
    have hnone : checkBestReplacement cfg v region = none := by
      by_cases haccepts : Accepts cfg.opt
      swap
      · unfold checkBestReplacement
        split
        · rfl
        split
        · rfl
        · exact if_pos (bestStore_none haccepts)
      by_cases henabled : cfg.isLocationReplacementEnabled = true
      · refine checkBestReplacement_none fun oldStore oldScore hworst s => ?_
        by_cases hlabels : cfg.opt.locationLabels = []
        · refine distinctScore_eq_zero fun t _ => ?_
          rw [hlabels]
          rfl
        have hone : ¬ ∃ a ∈ x.peers, ∃ b ∈ x.peers, a.storeId ≠ b.storeId := fun htwo =>
          hclosed ⟨haccepts, henabled, hreplica, hlabels, htwo⟩
        rw [removeOnly_nil hk hone (selectWorstPeer_mem hk hworst), distinctScore_nil]
      · rw [checkBestReplacement, if_pos (by simpa using henabled)]
    rw [replicaCheck_eq hx hk, hnone]
    rfl
  · rfl

lemma quiet
  (hclosed : cfg.schedulerMaxWaitingOperator = 0 ∨ ¬ Relocates cfg x endKey ∧ ¬ Replaces cfg x ∧ ¬ Merges cfg x)
  (h : checkRegion cfg v region ho oc = some (added, oc')) : added = [] := by
  unfold checkRegion at h
  rw [runStages, learnerStage_empty hx hk] at h
  simp only at h
  rcases hclosed with hfull | ⟨hrelocates, hreplaces, hmerges⟩
  · refine runStages_full hfull (fun st hst => ?_) h
    simp only [mem_cons, not_mem_nil, or_false] at hst
    rcases hst with rfl | rfl | rfl <;> rfl
  rw [runStages_empty (fun st hst => ?_) oc] at h
  · cases h
    rfl
  simp only [mem_cons, not_mem_nil, or_false] at hst
  rcases hst with rfl | rfl | rfl
  · exact namespaceStage_empty hx hk hrelocates
  · exact replicaStage_empty hx hk hreplaces
  · exact mergeStage_empty hk hmerges

end
end PD
