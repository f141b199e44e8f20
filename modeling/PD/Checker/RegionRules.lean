import Mathlib.Algebra.Order.BigOperators.Group.List
import PD.Checker.Patrol
import PD.Plugin.UserSchedulers
import PD.Schedule.MatchPeers
import PD.Schedule.StepEffects

/-! # When the patrol keeps a region rule

For each way to break the rule a cluster is built in which the patrol does; `quiet` is the converse. -/

namespace PD
open List Option SortedMap RegionsInfo OperatorController StoreFilter

def wellStore (opt : ScheduleOptions) (labels : List StoreLabel) (score : Int) (id : Nat) : StoreView :=
  ⟨⟨id, "", .up, labels, ""⟩, false, false, false, min 0 opt.maxStoreDownTime, 0, 0, 0, 0, false, none, some score⟩

section
variable {opt : ScheduleOptions} {labels : List StoreLabel} {score : Int} {id : Nat}

@[simp] lemma wellStore_getID : (wellStore opt labels score id).getID = id := rfl
@[simp] lemma wellStore_isUp : (wellStore opt labels score id).isUp = true := rfl
@[simp] lemma wellStore_isTombstone : (wellStore opt labels score id).isTombstone = false := rfl
@[simp] lemma wellStore_isOffline : (wellStore opt labels score id).isOffline = false := rfl
@[simp] lemma wellStore_overloaded : (wellStore opt labels score id).overloaded = false := rfl
@[simp] lemma wellStore_isBusy : (wellStore opt labels score id).isBusy = false := rfl
@[simp] lemma wellStore_lowSpace : (wellStore opt labels score id).lowSpace = false := rfl
@[simp] lemma wellStore_downTime : (wellStore opt labels score id).downTime ≤ opt.maxStoreDownTime := min_le_right _ _

@[simp] lemma wellStore_snapshots : opt.tooManySnapshots (wellStore opt labels score id) = false := by
  simp [ScheduleOptions.tooManySnapshots, wellStore]

@[simp] lemma wellStore_unhealthy : unhealthy opt (wellStore opt labels score id) = false := by simp [unhealthy]

lemma wellStore_pending (h : Accepts opt) : opt.tooManyPending (wellStore opt labels score id) = false := by
  have hzero : (((wellStore opt labels score id).pendingPeerCount : Nat) : Int) = 0 := rfl
  rw [ScheduleOptions.tooManyPending, hzero]
  rcases h with h | h
  · rw [h]
    rfl
  · rw [decide_eq_false (not_lt.mpr h), Bool.and_false]

lemma wellStore_healthy : (wellStore opt labels score id).Healthy opt where
  up := rfl
  connected := decide_eq_false (by
    show ¬ 20000000000 < min 0 opt.maxStoreDownTime
    omega)
  well := wellStore_unhealthy

lemma wellStore_source : passesSource opt replicaFilters (wellStore opt labels score id) = true := by
  simp [passesSource, replicaFilters, source]

lemma wellStore_own : passesTarget opt replicaFilters (wellStore opt labels score id) = true := by
  simp [passesTarget, replicaFilters, target]

end

def storesOf (f : Nat → StoreView) : List Nat → SortedMap Nat StoreView
  | [] => .empty
  | id :: ids => (storesOf f ids).insert id (f id)

lemma lookup_storesOf (f : Nat → StoreView) (ids : List Nat) (id : Nat) :
  (storesOf f ids).lookup id = if id ∈ ids then some (f id) else none := by
  induction ids with
  | nil => rfl
  | cons j _ ih =>
    rw [storesOf, lookup_insert, ih]
    by_cases h : id = j
    · rw [if_pos h, if_pos (h ▸ mem_cons_self), h]
    · simp [h]

lemma mem_values_storesOf {f : Nat → StoreView} {ids : List Nat} {s : StoreView} :
  s ∈ (storesOf f ids).values ↔ ∃ id ∈ ids, f id = s := by
  rw [mem_values]
  simp only [lookup_storesOf]
  constructor
  · rintro ⟨id, h⟩
    split at h
    next hid => exact ⟨id, hid, some.inj h⟩
    · cases h
  rintro ⟨id, hid, rfl⟩
  exact ⟨id, if_pos hid⟩

lemma head?_eq_of_all {α : Type*} {l : List α} {a : α} (hin : a ∈ l) (hall : ∀ b ∈ l, b = a) : l.head? = some a := by
  cases l with
  | nil => cases hin
  | cons b => rw [List.head?_cons, hall b mem_cons_self]

lemma getLast?_eq_of_all {α : Type*} {l : List α} {a : α} (hin : a ∈ l) (hall : ∀ b ∈ l, b = a) :
  l.getLast? = some a := by
  rw [← List.head?_reverse]
  exact head?_eq_of_all (mem_reverse.mpr hin) fun b hb => hall b (mem_reverse.mp hb)

def smallRegion (x : Region) (leader : Option Peer) (keys : Int) : RegionInfo := ⟨x, leader, [], [], 0, 0, 1, keys⟩

def patrolled (r : RegionsInfo) (stores : SortedMap Nat StoreView) (cl : Classifier) (info : PluginInfo)
  (now : Int) : PatrolView :=
  ⟨r, stores, fun _ => false, cl, true, SortedMap.empty.insert (.region 0) info, [], plainChoices now 0⟩

def idle : Handover := ⟨0, false, []⟩

section
variable {cfg : PatrolConfig} {x : Region} {info : PluginInfo} {now : Int} {startKey endKey : Key}
  {r : RegionsInfo} {cl : Classifier} {f : Nat → StoreView} {t s : Nat} {region : RegionInfo}
variable {keys : List String} {ids : List Nat} {w : World} {op : Operator} {ops : List Operator} {stage : Stage}
variable {v : PatrolView} {opt : ScheduleOptions} {key : String} {id j : Nat} {oneWay : Bool}

lemma patrolled_ofKind (hr : r.Sound) {leader : Option Peer} {keys : Int}
  (hcached : r.getRegion x.id = some (smallRegion x leader keys)) (hid : ∀ id, (f id).getID = id)
  (hwell : ∀ id, (f id).Healthy cfg.opt) (t : Nat) :
  OfKind cfg x info now (patrolled r (storesOf f (t :: x.peers.map Peer.storeId)) cl info now)
    (smallRegion x leader keys) where
  sound := hr
  cached := hcached
  meta_eq := rfl
  noDown := rfl
  noPending := rfl
  size := Int.one_nonneg
  keyed := fun id st h => by
    change (storesOf f _).lookup id = some st at h
    rw [lookup_storesOf] at h
    split at h
    · rw [← some.inj h, hid]
    · cases h
  healthy := fun id hmem => by
    refine ⟨f id, ?_, hwell id⟩
    have hin : id ∈ t :: x.peers.map Peer.storeId := mem_cons_of_mem _ hmem
    show (storesOf f _).lookup id = _
    rw [lookup_storesOf, if_pos hin]
  installed := rfl
  rule := ⟨0, lookup_insert_self ..⟩
  now_eq := rfl

lemma getRegionStores_patrolled {y : RegionInfo} (h : ∀ id ∈ y.storeIds, id ∈ ids) :
  (patrolled r (storesOf f ids) cl info now).getRegionStores y = y.storeIds.map f := by
  show y.storeIds.filterMap (storesOf f ids).lookup = _
  rw [← filterMap_eq_map]
  refine filterMap_congr fun id hid => ?_
  rw [lookup_storesOf, if_pos (h id hid)]
  rfl

lemma submit_accepts (hw : w.schedulerMaxWaitingOperator ≠ 0)
  (hops : ∀ o ∈ op :: ops, ∃ y, w.getRegion o.regionID = some y ∧ y.getMeta.regionEpoch = o.regionEpoch) :
  ∃ oc, submit w idle true (.new []) (op :: ops) = some (true, oc) := by
  have hmade : submit w idle true (.new []) (op :: ops) =
      (OperatorController.new (op :: ops)).addWaitingOperator w (0 :: List.range' 1 ops.length) [] := rfl
  have hcheck : (OperatorController.new (op :: ops)).checkAddOperator w (0 :: List.range' 1 ops.length) = true := by
    refine List.all_eq_true.mpr fun o ho => ?_
    have hlt : o < (op :: ops).length := by
      rw [mem_cons, mem_range'_1] at ho
      rw [length_cons]
      omega
    have hmem : (OperatorController.new (op :: ops)).op o ∈ op :: ops := by
      show (op :: ops).getD o default ∈ op :: ops
      rw [getD_eq_getElem _ _ hlt]
      exact getElem_mem hlt
    obtain ⟨y, hy, hepoch⟩ := hops _ hmem
    have hsame : y.getMeta.getVersion = ((OperatorController.new (op :: ops)).op o).getVersion ∧
        y.getMeta.getConfVer = ((OperatorController.new (op :: ops)).op o).getConfVer := by
      rw [Region.getVersion, Region.getConfVer, Operator.getVersion, Operator.getConfVer, hepoch]
      exact ⟨rfl, rfl⟩
    rw [canAdd, regionOf, hy]
    simp only
    rw [if_neg (not_or.mpr ⟨not_not.mpr hsame.1, not_not.mpr hsame.2⟩)]
    rfl
  have hcount : (OperatorController.new (op :: ops)).waitingCount
      ((OperatorController.new (op :: ops)).op 0).desc = 0 := rfl
  rw [hmade]
  simp only [addWaitingOperator, addWaitingLocked, hcheck, Bool.not_true,
    Bool.false_eq_true, if_false, hcount, Nat.le_zero, hw]
  exact ⟨_, rfl⟩

structure TakesOff (x : Region) (s : Nat) (op : Operator) : Prop where
  id : op.regionID = x.id
  epoch : op.regionEpoch = x.regionEpoch
  step : .removePeer s ∈ op.steps

lemma runStages_accepts {before : List Stage} (after : List Stage)
  (hbefore : ∀ st ∈ before, st.check (.new []) = some []) (hwait : stage.waiting = true)
  (hcheck : stage.check (.new []) = some (op :: ops)) (hw : w.schedulerMaxWaitingOperator ≠ 0)
  (hops : ∀ o ∈ op :: ops, ∃ y, w.getRegion o.regionID = some y ∧ y.getMeta.regionEpoch = o.regionEpoch) :
  ∃ oc, runStages w idle (before ++ stage :: after) (.new []) = some (op :: ops, oc) := by
  induction before with
  | nil =>
    obtain ⟨oc, hoc⟩ := submit_accepts hw hops
    refine ⟨oc, ?_⟩
    rw [nil_append, runStages, hcheck]
    simp only [hwait, hoc]
  | cons st _ ih =>
    obtain ⟨oc, hoc⟩ := ih fun st' h => hbefore st' (mem_cons_of_mem _ h)
    refine ⟨oc, ?_⟩
    rw [cons_append, runStages, hbefore st mem_cons_self]
    exact hoc

lemma not_kept {after : List Stage} (hx : Ruled cfg x info now startKey endKey) (hk : OfKind cfg x info now v region)
  (before : List Stage)
  (hstages :
    [namespaceStage cfg v region, replicaStage cfg v region, mergeStage cfg v region] = before ++ stage :: after)
  (hbefore : ∀ st ∈ before, st.check (.new []) = some []) (hwait : stage.waiting = true)
  (hcheck : stage.check (.new []) = some (op :: ops)) (hw : cfg.schedulerMaxWaitingOperator ≠ 0)
  (hs : s ∈ info.storeIDs) (hop : TakesOff x s op)
  (hops : ∀ o ∈ ops, ∃ y, v.regions.getRegion o.regionID = some y ∧ y.getMeta.regionEpoch = o.regionEpoch) :
  ¬ Kept cfg x info now := by
  intro hkept
  have hall : ∀ o ∈ op :: ops, ∃ y, v.regions.getRegion o.regionID = some y ∧
      y.getMeta.regionEpoch = o.regionEpoch := by
    refine forall_mem_cons.mpr ⟨⟨region, ?_, ?_⟩, hops⟩
    · rw [hop.id, hk.cached]
    · rw [hop.epoch, hk.meta_eq]
  obtain ⟨oc, hoc⟩ := runStages_accepts (w := patrolWorld cfg v idle) after
    (forall_mem_cons.mpr ⟨learnerStage_empty hx hk _, hbefore⟩) hwait hcheck hw hall
  rw [cons_append, ← hstages] at hoc
  exact hkept v region idle (.new []) _ oc hk hoc op mem_cons_self hop.id s hs hop.step

lemma namespaceStage_single (hr : v.regions.Sound) (h : v.classifier.allNamespaces.length = 1)
  (oc : OperatorController) : (namespaceStage cfg v region).check oc = some [] := by
  show (if _ then _ else _) = _
  rw [namespaceCheck_none hr (.inl h)]
  split <;> rfl

lemma createMovePeer_leaderless (desc : String) (c : Cluster) (kind : OperatorKind) (s newStore peerID : Nat)
  (followers : List Nat) (hlead : region.leader = none) :
  ∃ op, createMovePeerOperator desc c region kind s newStore peerID followers = .ok op ∧
    TakesOff region.getMeta s op := by
  have hsteps : removePeerSteps c region s (followers ++ [newStore]) = .ok (.opRegion, [.removePeer s]) :=
    if_neg fun h => h.1 hlead
  refine ⟨_, by rw [createMovePeerOperator, hsteps], rfl, rfl, ?_⟩
  exact mem_append_right _ mem_cons_self

def placed (opt : ScheduleOptions) (key : String) (s t id : Nat) : StoreView :=
  wellStore opt [⟨key, if id = t then "b" else "a"⟩] (if id = s then 1 else 0) id

lemma equalFoldASCII_self (a : String) : equalFoldASCII a a = true := beq_self_eq_true _

lemma compareLocation_same {a b : StoreView} (h : a.getMeta.labels = b.getMeta.labels) (keys : List String) :
  compareLocation a b keys = none := by
  refine List.findIdx?_eq_none_iff.mpr fun key _ => ?_
  have hvalue : a.getLabelValue key = b.getLabelValue key := by
    unfold StoreView.getLabelValue
    rw [h]
  rw [hvalue, equalFoldASCII_self, Bool.not_true, Bool.and_false]

lemma placed_value (opt : ScheduleOptions) (key : String) (s t id : Nat) :
  (placed opt key s t id).getLabelValue key = if id = t then "b" else "a" := by
  simp [placed, wellStore, StoreView.getLabelValue, equalFoldASCII_self]

lemma compareLocation_placed (h : id ≠ t) :
  compareLocation (placed opt key s t id) (placed opt key s t t) (key :: keys) = some 0 := by
  rw [compareLocation, List.findIdx?_cons, placed_value, placed_value, if_neg h, if_pos rfl]
  have hdiffer : ("a" != "" && "b" != "" && !equalFoldASCII "a" "b") = true := by decide +kernel
  rw [hdiffer]
  rfl

lemma distinctScore_placed_same (opt : ScheduleOptions) (key : String) (keys : List String) (s : Nat)
  (hids : ∀ j ∈ ids, j ≠ t) (hid : id ≠ t) :
  distinctScore keys (ids.map (placed opt key s t)) (placed opt key s t id) = 0 := by
  refine distinctScore_eq_zero fun st hst => ?_
  obtain ⟨j, hj, rfl⟩ := List.mem_map.mp hst
  refine compareLocation_same ?_ _
  show [StoreLabel.mk key (if j = t then "b" else "a")] = [StoreLabel.mk key (if id = t then "b" else "a")]
  rw [if_neg (hids j hj), if_neg hid]

lemma distinctScore_placed_pos (opt : ScheduleOptions) (key : String) (keys : List String) (s : Nat) (hj : j ∈ ids)
  (hne : j ≠ t) : 0 < distinctScore (key :: keys) (ids.map (placed opt key s t)) (placed opt key s t t) := by
  have hterm : distinctFrom (key :: keys) (placed opt key s t t) (placed opt key s t j) =
      replicaBaseScore ^ ((key :: keys).length - 0 - 1) := by
    unfold distinctFrom
    rw [if_neg (show ¬ (placed opt key s t j).getID = (placed opt key s t t).getID from hne),
      compareLocation_placed hne]
  have hmem : replicaBaseScore ^ ((key :: keys).length - 0 - 1) ∈
      (ids.map (placed opt key s t)).map (distinctFrom (key :: keys) (placed opt key s t t)) :=
    hterm ▸ List.mem_map_of_mem (List.mem_map_of_mem hj)
  exact lt_of_lt_of_le (Nat.pow_pos (by decide)) (single_le_sum (fun _ _ => Nat.zero_le _) _ hmem)

def placedView (opt : ScheduleOptions) (r : RegionsInfo) (info : PluginInfo) (now : Int) (key : String) (s t : Nat)
  (region : RegionInfo) : PatrolView :=
  patrolled r (storesOf (placed opt key s t) (t :: region.storeIds)) UserScheduler.globalOnly info now

lemma selectWorstPeer_placed (r : RegionsInfo) (info : PluginInfo) (now : Int) (key : String)
  (hs : s ∈ region.storeIds) (ht : t ∉ region.storeIds) :
  selectWorstPeer cfg (placedView cfg.opt r info now key s t region) region = some (s, 0) := by
  have hne : ∀ j ∈ region.storeIds, j ≠ t := fun j hj e => ht (e ▸ hj)
  have hzero : ∀ id ∈ region.storeIds, distinctScore cfg.opt.locationLabels
      (region.storeIds.map (placed cfg.opt key s t)) (placed cfg.opt key s t id) = 0 := fun id hid =>
    distinctScore_placed_same _ _ _ _ hne (hne id hid)
  have hstores : (placedView cfg.opt r info now key s t region).getRegionStores region =
      region.storeIds.map (placed cfg.opt key s t) :=
    getRegionStores_patrolled fun id hid => mem_cons_of_mem _ hid
  have hsel : ReplicaSelector.selectSource cfg.opt (region.storeIds.map (placed cfg.opt key s t)) replicaFilters
      (region.storeIds.map (placed cfg.opt key s t)) = some (placed cfg.opt key s t s) := by
    simp only [ReplicaSelector.selectSource]
    rw [selectBy_eq (s := placed cfg.opt key s t s) rfl (fun u hu hus _ => ?_) (fun b hb => by cases hb)
      (.inl (List.mem_map_of_mem hs))]
    · exact filter_some_pos wellStore_source
    obtain ⟨j, hj, rfl⟩ := List.mem_map.mp hu
    have hjs : j ≠ s := fun e => hus (by rw [e])
    rw [hzero j hj, hzero s hs]
    simp [compareStoreScore, placed, wellStore, scoreLt, hjs]
  simp only [selectWorstPeer, hstores]
  rw [hsel, map_some, hzero s hs]
  rfl

lemma selectBest_placed (r : RegionsInfo) (info : PluginInfo) (now : Int)
  (haccepts : Accepts cfg.opt) (hlabels : cfg.opt.locationLabels = key :: keys) (ht : t ∉ region.storeIds)
  (hj : j ∈ region.storeIds) (hjs : j ≠ s) : ∃ score, 0 < score ∧ selectBestReplacementStore cfg.opt
    (namespaceFilter (placedView cfg.opt r info now key s t region))
    ((placedView cfg.opt r info now key s t region).getStores 1)
    (placedView cfg.opt r info now key s t region).getRegionStores region s [.storageThreshold] = (t, score) := by
  have hstores : (placedView cfg.opt r info now key s t region).getRegionStores (region.withRemoveStorePeer s) =
      (region.withRemoveStorePeer s).storeIds.map (placed cfg.opt key s t) :=
    getRegionStores_patrolled fun id hid => mem_cons_of_mem _ (mem_storeIds_withRemoveStorePeer.mp hid).1
  have hlisted : (placedView cfg.opt r info now key s t region).getStores 1 =
      (storesOf (placed cfg.opt key s t) (t :: region.storeIds)).values := rfl
  have hleft : j ∈ (region.withRemoveStorePeer s).storeIds := mem_storeIds_withRemoveStorePeer.mpr ⟨hj, hjs⟩
  have htleft : t ∉ (region.withRemoveStorePeer s).storeIds := fun h => ht (mem_storeIds_withRemoveStorePeer.mp h).1
  have hsel : ∀ filters, passesTarget cfg.opt filters (placed cfg.opt key s t t) = true →
      .excluded [] region.storeIds ∈ filters →
      ReplicaSelector.selectTarget cfg.opt
        ((region.withRemoveStorePeer s).storeIds.map (placed cfg.opt key s t)) replicaFilters filters
        (storesOf (placed cfg.opt key s t) (t :: region.storeIds)).values = some (placed cfg.opt key s t t) := by
    intro filters hpass hexcluded
    simp only [ReplicaSelector.selectTarget]
    rw [selectBy_eq (s := placed cfg.opt key s t t) hpass (fun u hu hut hupass => ?_) (fun b hb => by cases hb)
      (.inl (mem_values_storesOf.mpr ⟨t, mem_cons_self, rfl⟩))]
    · exact filter_some_pos wellStore_own
    obtain ⟨i, hi, rfl⟩ := mem_values_storesOf.mp hu
    have hmem : i ∈ region.storeIds := (mem_cons.mp hi).resolve_left fun e => hut (by rw [e])
    have hrefused : (excluded [] region.storeIds).target cfg.opt (placed cfg.opt key s t i) = true :=
      contains_iff_mem.mpr hmem
    rw [passesTarget_eq_false hexcluded hrefused] at hupass
    cases hupass
  refine ⟨distinctScore cfg.opt.locationLabels
    ((region.withRemoveStorePeer s).storeIds.map (placed cfg.opt key s t)) (placed cfg.opt key s t t), ?_, ?_⟩
  · rw [hlabels]
    exact distinctScore_placed_pos _ _ _ _ hleft fun e => ht (e ▸ hj)
  simp only [selectBestReplacementStore, selectBestStoreToAddReplica, hstores, hlisted]
  rw [hsel _ ?_ (by simp)]
  · rfl
  simp [passesTarget, replicaFilters, target, namespaceFilter, placedView, patrolled, placed,
    UserScheduler.globalOnly, wellStore_pending haccepts, ht, htleft]

lemma exists_fresh (ids : List Nat) : ∃ t, t ∉ ids ∧ t ≠ 0 := by
  refine ⟨ids.sum + 1, fun h => ?_, Nat.succ_ne_zero _⟩
  have hle := single_le_sum (fun _ _ => Nat.zero_le _) _ h
  omega

lemma exists_cached (hx : x.Nonempty) : ∃ r : RegionsInfo, r.Sound ∧ r.getRegion x.id = some (smallRegion x none 0) ∧
  ∀ y ∈ r.ordered, y = smallRegion x none 0 := by
  have hne : (smallRegion x none 0).getMeta.Nonempty := hx
  obtain ⟨r, -, hsound, hcached, -⟩ := setRegion_sound sound_new hne
  have hlookup : ∀ id y, r.getRegion id = some y ↔ id = x.id ∧ y = smallRegion x none 0 := by
    intro id y
    rw [getRegion_eq, hcached, lookup_setCached sound_new hne]
    refine ⟨fun h => h.resolve_right fun ⟨_, hy, _⟩ => (by cases hy), .inl⟩
  refine ⟨r, hsound, (hlookup _ _).mpr ⟨rfl, rfl⟩, fun y hy => ?_⟩
  obtain ⟨id, hid⟩ := (mem_ordered hsound).mp hy
  exact ((hlookup id y).mp hid).2

lemma checkBestReplacement_placed (r : RegionsInfo) (region : RegionInfo) (info : PluginInfo) (now : Int)
  (haccepts : Accepts cfg.opt) (henabled : cfg.isLocationReplacementEnabled = true)
  (hlabels : cfg.opt.locationLabels = key :: keys) (hlead : region.leader = none) (hs : s ∈ region.storeIds)
  (ht : t ∉ region.storeIds) (ht0 : t ≠ 0) (hj : j ∈ region.storeIds) (hjs : j ≠ s) :
  ∃ op, checkBestReplacement cfg (placedView cfg.opt r info now key s t region) region = some op ∧
    TakesOff region.getMeta s op := by
  obtain ⟨score, hscore, hbest⟩ := selectBest_placed (s := s) r info now haccepts hlabels ht hj hjs
  obtain ⟨op, hop, hremoves⟩ := createMovePeer_leaderless "move-to-better-location"
    ((placedView cfg.opt r info now key s t region).toCluster cfg 1) .opReplica s t 1
    ((placedView cfg.opt r info now key s t region).followerIDs 1 region) hlead
  have halloc : (placedView cfg.opt r info now key s t region).choices.allocID 1 0 = .ok 1 := rfl
  refine ⟨op, ?_, hremoves⟩
  rw [checkBestReplacement, henabled, selectWorstPeer_placed r info now key hs ht]
  simp only [Bool.not_true, Bool.false_eq_true, if_false, hbest, ht0, Nat.not_le.mpr hscore]
  rw [replaceReplica, halloc]
  simp only [hop, orNil]

lemma replaces_breaks (hx : Ruled cfg x info now startKey endKey) (hw : cfg.schedulerMaxWaitingOperator ≠ 0)
  (hs : s ∈ info.storeIDs) (hopen : Replaces cfg x) : ¬ Kept cfg x info now := by
  obtain ⟨haccepts, henabled, hlimit, hlabels, htwo⟩ := hopen
  obtain ⟨key, keys, hlabels⟩ := exists_cons_of_ne_nil hlabels
  obtain ⟨t, ht, ht0⟩ := exists_fresh (x.peers.map Peer.storeId)
  obtain ⟨r, hr, hcached, -⟩ := exists_cached hx.range
  obtain ⟨j, hj, hjs⟩ : ∃ j ∈ x.peers.map Peer.storeId, j ≠ s := by
    obtain ⟨a, ha, b, hb, hab⟩ := htwo
    by_cases has : a.storeId = s
    · exact ⟨b.storeId, List.mem_map_of_mem hb, fun e => hab (has.trans e.symm)⟩
    · exact ⟨a.storeId, List.mem_map_of_mem ha, has⟩
  have hk : OfKind cfg x info now (placedView cfg.opt r info now key s t (smallRegion x none 0))
      (smallRegion x none 0) := patrolled_ofKind hr hcached (fun _ => rfl) (fun _ => wellStore_healthy) t
  obtain ⟨op, hreplace, hremoves⟩ := checkBestReplacement_placed r (smallRegion x none 0) info now haccepts
    henabled hlabels rfl (hx.stores s hs) ht ht0 hj hjs
  have hcheck : (replicaStage cfg (placedView cfg.opt r info now key s t (smallRegion x none 0))
      (smallRegion x none 0)).check (.new []) = some [op] := by
    show (if 0 < cfg.replicaScheduleLimit then _ else _) = _
    rw [if_pos hlimit, replicaCheck_eq hx hk, hreplace]
    rfl
  exact not_kept hx hk [namespaceStage cfg _ _] rfl (forall_mem_singleton.mpr (namespaceStage_single hr rfl _)) rfl
    hcheck hw hs hremoves (forall_mem_nil _)

def apart (s : Nat) : Classifier := ⟨["a", "b"], fun id => if id = s then "a" else "b", fun _ => "b", fun _ _ => true⟩

def apartView (opt : ScheduleOptions) (r : RegionsInfo) (info : PluginInfo) (now : Int) (s t : Nat)
  (region : RegionInfo) : PatrolView :=
  patrolled r (storesOf (wellStore opt [] 0) (t :: region.storeIds)) (apart s) info now

lemma getRegionIDs_whole (hr : r.Sound) (honly : ∀ y ∈ r.ordered, y = region)
  (hwhole : region.getMeta.isWhole = true) {keyStart keyEnd : String} (hstart : decodeString keyStart = some startKey)
  (hend : decodeString keyEnd = some endKey) (hne : endKey ≠ []) : getRegionIDs r keyStart keyEnd = some [] := by
  rw [getRegionIDs_eq hr hstart hend]
  cases hl : startingAt r startKey with
  | nil => rfl
  | cons y =>
    have hy : y = region := honly y (mem_startingAt.mp (hl ▸ mem_cons_self)).1
    have hendless : region.getMeta.endKey = [] := by
      simp only [Region.isWhole, Bool.and_eq_true, List.isEmpty_iff] at hwhole
      exact hwhole.2
    rw [hy, rangeRegions, if_neg, if_pos hwhole]
    · rfl
    · simp [RegionsInfo.endsBefore, hendless, hne]

lemma ruleFilter_single (h : getRegionIDs r info.keyStart info.keyEnd = some []) :
  ruleFilter r (SortedMap.empty.insert (.region 0) info) now false region [.region 0] = some false := by
  rw [ruleFilter, lookup_insert_self]
  simp [h, violentFilter, ruleFilter]

def apartTargets (opt : ScheduleOptions) (s t : Nat) (region : RegionInfo) : List StoreView :=
  (storesOf (wellStore opt [] 0) (t :: region.storeIds)).values.filter
    (passesTarget opt [.namespace (apart s).storeNamespace "b"])

lemma mem_apartTargets {st : StoreView} :
  st ∈ apartTargets opt s t region ↔ ∃ id ∈ t :: region.storeIds, id ≠ s ∧ wellStore opt [] 0 id = st := by
  rw [apartTargets, mem_filter, mem_values_storesOf]
  constructor
  · rintro ⟨⟨id, hid, rfl⟩, hpass⟩
    refine ⟨id, hid, fun e => ?_, rfl⟩
    rw [e] at hpass
    simp [passesTarget, target, apart] at hpass
  rintro ⟨id, hid, hne, rfl⟩
  exact ⟨⟨id, hid, rfl⟩, by simp [passesTarget, target, apart, hne]⟩

lemma contains_apartTargets (hid : id ∈ region.storeIds) :
  (!((apartTargets opt s t region).map StoreView.getID).contains id) = true ↔ id = s := by
  rw [Bool.not_eq_true', ← Bool.not_eq_true, contains_iff_mem, List.mem_map, not_iff_comm]
  constructor
  · intro hne
    exact ⟨_, mem_apartTargets.mpr ⟨id, mem_cons_of_mem _ hid, hne, rfl⟩, rfl⟩
  rintro ⟨st, hst, rfl⟩
  obtain ⟨j, -, hne, rfl⟩ := mem_apartTargets.mp hst
  exact hne

lemma find_apart (opt : ScheduleOptions) (t : Nat) (hs : s ∈ region.storeIds) :
  ∃ p, region.getPeers.find? (fun p => !((apartTargets opt s t region).map StoreView.getID).contains p.storeId) =
    some p ∧ p.storeId = s := by
  obtain ⟨q, hq, hqs⟩ := List.mem_map.mp hs
  have hout : (!((apartTargets opt s t region).map StoreView.getID).contains q.storeId) = true :=
    (contains_apartTargets (List.mem_map_of_mem hq)).mpr hqs
  have hsome : (region.getPeers.find?
      fun p => !((apartTargets opt s t region).map StoreView.getID).contains p.storeId).isSome = true :=
    List.find?_isSome.mpr ⟨q, hq, hout⟩
  obtain ⟨p, hp⟩ := isSome_iff_exists.mp hsome
  have hmem : p.storeId ∈ region.storeIds := List.mem_map_of_mem (List.mem_of_find?_eq_some hp)
  have hfound := List.find?_some hp
  exact ⟨p, hp, (contains_apartTargets hmem).mp hfound⟩

lemma selectTarget_apart (haccepts : Accepts opt) (hs : s ∈ region.storeIds) (ht : t ∉ region.storeIds) :
  RandomSelector.selectTarget opt [.excluded [] region.storeIds, .storeState false true]
    (apartTargets opt s t region) 0 = some (wellStore opt [] 0 t) := by
  have hcand : ∀ st ∈ (apartTargets opt s t region).filter (passesTarget opt
      [.excluded [] region.storeIds, .storeState false true]), st = wellStore opt [] 0 t := by
    intro st hst
    obtain ⟨hst, hpass⟩ := mem_filter.mp hst
    obtain ⟨id, hid, -, rfl⟩ := mem_apartTargets.mp hst
    rcases mem_cons.mp hid with rfl | hid
    · rfl
    have hrefused : (excluded [] region.storeIds).target opt (wellStore opt [] 0 id) = true := contains_iff_mem.mpr hid
    rw [passesTarget_eq_false mem_cons_self hrefused] at hpass
    cases hpass
  have hin : wellStore opt [] 0 t ∈ (apartTargets opt s t region).filter (passesTarget opt
      [.excluded [] region.storeIds, .storeState false true]) := by
    refine mem_filter.mpr ⟨mem_apartTargets.mpr ⟨t, mem_cons_self, fun e => ht (e ▸ hs), rfl⟩, ?_⟩
    simp [passesTarget, target, filterMoveRegion, wellStore_pending haccepts, ht]
  simp only [RandomSelector.selectTarget, Nat.zero_mod]
  rw [← List.head?_eq_getElem?, head?_eq_of_all hin hcand]

lemma relocate_apart (r : RegionsInfo) (region : RegionInfo) (info : PluginInfo) (now : Int)
  (haccepts : Accepts cfg.opt) (hlead : region.leader = none) (hs : s ∈ region.storeIds)
  (ht : t ∉ region.storeIds) (ht0 : t ≠ 0) :
  ∃ op, relocate cfg (apartView cfg.opt r info now s t region) region = some op ∧ TakesOff region.getMeta s op := by
  obtain ⟨op, hop, hremoves⟩ := createMovePeer_leaderless "make-namespace-relocation"
    ((apartView cfg.opt r info now s t region).toCluster cfg 0) .opReplica s t 1
    ((apartView cfg.opt r info now s t region).followerIDs 0 region) hlead
  obtain ⟨p, hp, hps⟩ := find_apart cfg.opt t hs
  have htargets : ((apartView cfg.opt r info now s t region).getStores 0).filter (passesTarget cfg.opt
      [.namespace (apart s).storeNamespace "b"]) = apartTargets cfg.opt s t region := rfl
  have hclass : (apartView cfg.opt r info now s t region).classifier = apart s := rfl
  have hregion : (apart s).regionNamespace region = "b" := rfl
  have hcoin : (apartView cfg.opt r info now s t region).choices.coin 0 = 0 := rfl
  have halloc : (apartView cfg.opt r info now s t region).choices.allocID 0 0 = .ok 1 := rfl
  have hnew : wellStore cfg.opt [] 0 t ∈ apartTargets cfg.opt s t region :=
    mem_apartTargets.mpr ⟨t, mem_cons_self, fun e => ht (e ▸ hs), rfl⟩
  have hnonempty : (apartTargets cfg.opt s t region).isEmpty = false := by
    rw [isEmpty_eq_false_iff]
    exact ne_nil_of_mem hnew
  refine ⟨op, ?_, hremoves⟩
  simp only [relocate, hclass, hregion, htargets, hnonempty, Bool.false_eq_true, if_false, hp, hcoin,
    selectTarget_apart haccepts hs ht, wellStore_getID, ht0, halloc, hps, hop, orNil]

lemma relocates_breaks (hx : Ruled cfg x info now startKey endKey) (hw : cfg.schedulerMaxWaitingOperator ≠ 0)
  (hs : s ∈ info.storeIDs) (hopen : Relocates cfg x endKey) : ¬ Kept cfg x info now := by
  obtain ⟨haccepts, henabled, hleader, hregion, hreplica, hwhole, hne⟩ := hopen
  obtain ⟨t, ht, ht0⟩ := exists_fresh (x.peers.map Peer.storeId)
  obtain ⟨r, hr, hcached, honly⟩ := exists_cached hx.range
  have hk : OfKind cfg x info now (apartView cfg.opt r info now s t (smallRegion x none 0)) (smallRegion x none 0) :=
    patrolled_ofKind hr hcached (fun _ => rfl) (fun _ => wellStore_healthy) t
  obtain ⟨op, hop, hremoves⟩ := relocate_apart r (smallRegion x none 0) info now haccepts rfl
    (hx.stores s hs) ht ht0
  have hmissed : getRegionIDs r info.keyStart info.keyEnd = some [] :=
    getRegionIDs_whole hr honly hwhole hx.start hx.stop hne
  have hcheck : (namespaceStage cfg (apartView cfg.opt r info now s t (smallRegion x none 0))
      (smallRegion x none 0)).check (.new []) = some [op] := by
    show (if 0 < cfg.leaderScheduleLimit ∧ 0 < cfg.regionScheduleLimit ∧ 0 < cfg.replicaScheduleLimit then _ else _) = _
    rw [if_pos ⟨hleader, hregion, hreplica⟩]
    rw [namespaceCheck_passed henabled hk.installed (ruleFilter_single hmissed) (show 2 ≠ 1 by decide), hop]
    rfl
  exact not_kept hx hk [] rfl (forall_mem_nil _) rfl hcheck hw hs hremoves (forall_mem_nil _)

def rehomed (s t : Nat) (p : Peer) : Peer := if p.storeId = s then { p with storeId := t } else p

def neighbour (oneWay : Bool) (x : Region) (s t : Nat) : Region where
  id := x.id + 1
  startKey := if oneWay then x.endKey else []
  endKey := if oneWay then [] else x.startKey
  regionEpoch := x.regionEpoch
  peers := x.peers.map (rehomed s t)

lemma storeId_rehomed (p : Peer) : (rehomed s t p).storeId = if p.storeId = s then t else p.storeId := by
  unfold rehomed
  split <;> rfl

lemma stores_rehomed (s t : Nat) (peers : List Peer) :
  (peers.map (rehomed s t)).map Peer.storeId = (peers.map Peer.storeId).map fun id => if id = s then t else id := by
  rw [List.map_map, List.map_map]
  exact map_congr_left fun p _ => storeId_rehomed p

lemma nil_lt_of_ne {key : Key} (h : key ≠ []) : ([] : Key) < key := by
  obtain ⟨a, l, rfl⟩ := exists_cons_of_ne_nil h
  exact nil_lt_cons a l

lemma neighbour_apart (hopen : if oneWay then x.endKey ≠ [] else x.startKey ≠ []) :
  (neighbour oneWay x s t).Nonempty ∧ ¬ x.Overlaps (neighbour oneWay x s t) := by
  cases oneWay with
  | true =>
    have hend : x.endKey ≠ [] := hopen
    refine ⟨.inr rfl, fun ⟨k, hk, hk'⟩ => ?_⟩
    simp only [Region.contains, neighbour, if_true, Bool.and_eq_true, Bool.or_eq_true, decide_eq_true_eq,
      List.isEmpty_iff, hend, false_or] at hk hk'
    exact absurd hk'.1 (not_le.mpr hk.2)
  | false =>
    have hstart : x.startKey ≠ [] := hopen
    refine ⟨.inl (nil_lt_of_ne hstart), fun ⟨k, hk, hk'⟩ => ?_⟩
    simp only [Region.contains, neighbour, Bool.false_eq_true, if_false, Bool.and_eq_true, Bool.or_eq_true,
      decide_eq_true_eq, List.isEmpty_iff, hstart, false_or] at hk hk'
    exact absurd hk.1 (not_le.mpr hk'.2)

lemma exists_cached_pair (hx : x.Nonempty)
  (hopen : if oneWay then x.endKey ≠ [] else x.startKey ≠ []) (s t : Nat) (keys : Int) :
  ∃ r : RegionsInfo, r.Sound ∧ r.getRegion x.id = some (smallRegion x none keys) ∧
    r.getRegion (x.id + 1) = some (smallRegion (neighbour oneWay x s t) none 0) ∧
    ∀ m, m ∈ r.tree.items ↔ m = x ∨ m = neighbour oneWay x s t := by
  obtain ⟨hne, hapart⟩ := neighbour_apart (s := s) (t := t) hopen
  have hyne : (smallRegion (neighbour oneWay x s t) none 0).getMeta.Nonempty := hne
  have hxne : (smallRegion x none keys).getMeta.Nonempty := hx
  obtain ⟨r₁, -, hr₁, hcached₁, -⟩ := setRegion_sound sound_new hyne
  obtain ⟨r, -, hr, hcached, -⟩ := setRegion_sound hr₁ hxne
  refine ⟨r, hr, ?_, ?_, fun m => ?_⟩
  · rw [getRegion_eq, hcached, lookup_setCached hr₁ hxne]
    exact .inl ⟨rfl, rfl⟩
  · rw [getRegion_eq, hcached, lookup_setCached hr₁ hxne]
    refine .inr ⟨Nat.succ_ne_self _, ?_, hapart⟩
    rw [hcached₁, lookup_setCached sound_new hyne]
    exact .inl ⟨rfl, rfl⟩
  rw [mem_items_setRegion hr₁ hxne hr hcached, mem_items_setRegion sound_new hyne hr₁ hcached₁]
  constructor
  · rintro (h | ⟨h | ⟨h, -⟩, -⟩)
    · exact .inl h
    · exact .inr h
    · exact absurd h not_mem_nil
  rintro (h | rfl)
  · exact .inl h
  · exact .inr ⟨.inl rfl, Nat.succ_ne_self _, hapart⟩

lemma adjacent_neighbour (keys : Int) (hx : x.Nonempty) (hopen : if oneWay then x.endKey ≠ [] else x.startKey ≠ [])
  (hy : r.getRegion (x.id + 1) = some (smallRegion (neighbour oneWay x s t) none 0))
  (hitems : ∀ m, m ∈ r.tree.items ↔ m = x ∨ m = neighbour oneWay x s t) :
  (if oneWay then (r.getAdjacentRegions (smallRegion x none keys)).2
    else (r.getAdjacentRegions (smallRegion x none keys)).1) = some (smallRegion (neighbour oneWay x s t) none 0) := by
  have hmeta : (smallRegion x none keys).getMeta = x := rfl
  -- of the two items, the region itself is not on the side that is looked at
  have hother : ∀ p : Region → Bool, p x = false → p (neighbour oneWay x s t) = true →
      neighbour oneWay x s t ∈ r.tree.items.filter p ∧ ∀ m ∈ r.tree.items.filter p, m = neighbour oneWay x s t := by
    intro p hpx hpy
    refine ⟨mem_filter.mpr ⟨(hitems _).mpr (.inr rfl), hpy⟩, fun m hm => ?_⟩
    obtain ⟨hm, hpm⟩ := mem_filter.mp hm
    refine ((hitems m).mp hm).resolve_left fun e => ?_
    rw [e, hpx] at hpm
    cases hpm
  cases oneWay with
  | true =>
    have hlt : x.startKey < (neighbour true x s t).startKey := hx.resolve_right hopen
    obtain ⟨hin, hall⟩ := hother (fun i => decide (x.startKey < i.startKey)) (decide_eq_false (lt_irrefl _))
      (decide_eq_true hlt)
    have htouch : (some (neighbour true x s t)).filter (fun next => x.endKey == next.startKey) =
        some (neighbour true x s t) := filter_some_pos (beq_self_eq_true x.endKey)
    show ((List.head? _).filter _).bind _ = _
    rw [hmeta, head?_eq_of_all hin hall, htouch]
    exact hy
  | false =>
    have hlt : (neighbour false x s t).startKey < x.startKey := nil_lt_of_ne hopen
    obtain ⟨hin, hall⟩ := hother (fun i => decide (i.startKey < x.startKey)) (decide_eq_false (lt_irrefl _))
      (decide_eq_true hlt)
    have htouch : (some (neighbour false x s t)).filter (fun prev => prev.endKey == x.startKey) =
        some (neighbour false x s t) := filter_some_pos (beq_self_eq_true x.startKey)
    show ((List.getLast? _).filter _).bind _ = _
    rw [hmeta, getLast?_eq_of_all hin hall, htouch]
    exact hy

def mergeView (opt : ScheduleOptions) (r : RegionsInfo) (info : PluginInfo) (now : Int) (t : Nat) (x : Region) :
  PatrolView :=
  patrolled r (storesOf (wellStore opt [] 0) (t :: x.peers.map Peer.storeId)) UserScheduler.globalOnly info now

lemma replicaStage_unlabelled (hx : Ruled cfg x info now startKey endKey)
  (hk : OfKind cfg x info now v region) (h : ∀ id st, v.stores.lookup id = some st → st.getMeta.labels = [])
  (oc : OperatorController) : (replicaStage cfg v region).check oc = some [] := by
  have hnone : checkBestReplacement cfg v region = none := by
    refine checkBestReplacement_none fun oldStore _ _ st => distinctScore_eq_zero fun u hu => ?_
    obtain ⟨id, -, hid⟩ := mem_getRegionStores.mp hu
    refine List.findIdx?_eq_none_iff.mpr fun key _ => ?_
    have hvalue : u.getLabelValue key = "" := by
      rw [StoreView.getLabelValue, h id u hid]
      rfl
    rw [hvalue]
    rfl
  show (if _ then _ else _) = _
  rw [replicaCheck_eq hx hk, hnone]
  split <;> rfl

def mergeSource (cfg : PatrolConfig) (x : Region) : RegionInfo :=
  smallRegion x none (min 0 (Words.wrap cfg.maxMergeRegionKeys))

def mergeInto (cfg : PatrolConfig) (x : Region) (s t : Nat) : RegionInfo :=
  smallRegion (neighbour cfg.enableOneWayMerge x s t) none 0

lemma mergeable_source (hx : Ruled cfg x info now startKey endKey)
  (hk : OfKind cfg x info now v (mergeSource cfg x)) (hsize : 0 < Words.wrap cfg.maxMergeRegionSize)
  (hsplit : v.splitCache = []) (hhot : ∀ id, v.isRegionHot id = false) :
  mergeable cfg v (mergeSource cfg x) = true := by
  have hone : (mergeSource cfg x).approximateSize = 1 := rfl
  have hsmall : (1 : Int) ≤ Words.wrap cfg.maxMergeRegionSize := hsize
  have hkeys : (mergeSource cfg x).approximateKeys ≤ Words.wrap cfg.maxMergeRegionKeys := min_le_right _ _
  have hpeers : ((mergeSource cfg x).getPeers.length : Int) = cfg.maxReplicas := hx.count
  have hhealth : healthRegion (mergeSource cfg x) = true := by
    rw [healthRegion, hk.noDown, hk.noPending, hk.noLearners hx]
    rfl
  simp only [mergeable, hsplit, hhot, hone, hhealth, decide_eq_true hsmall, decide_eq_true hkeys, decide_eq_true hpeers]
  rfl

lemma checkTarget_into (hx : Ruled cfg x info now startKey endKey) (hhot : ∀ id, v.isRegionHot id = false)
  (hallow : ∀ y z, v.classifier.allowMerge y z = true) : checkTarget cfg v region (mergeInto cfg x s t) = true := by
  have hpeers : ((mergeInto cfg x s t).getPeers.length : Int) = cfg.maxReplicas := by
    rw [← hx.count]
    exact congrArg _ (length_map _)
  have hlearners : (mergeInto cfg x s t).getLearners = [] := by
    refine filter_eq_nil_iff.mpr fun p hp => ?_
    obtain ⟨q, hq, rfl⟩ := List.mem_map.mp hp
    have hvoter : (rehomed s t q).isLearner = q.isLearner := by
      unfold rehomed
      split <;> rfl
    rw [hvoter, hx.voters q hq]
    exact Bool.false_ne_true
  have hhealth : healthRegion (mergeInto cfg x s t) = true := by
    rw [healthRegion, hlearners]
    rfl
  simp [checkTarget, hhot, hallow, hhealth, hpeers]

lemma mem_shared (ht : t ∉ x.peers.map Peer.storeId) :
  id ∈ intersectionStores (mergeSource cfg x).getPeers (mergeInto cfg x s t).getPeers ↔
    id ∈ x.peers.map Peer.storeId ∧ id ≠ s := by
  have hinto : (mergeInto cfg x s t).getPeers.map Peer.storeId =
      (x.peers.map Peer.storeId).map fun id => if id = s then t else id := stores_rehomed s t x.peers
  have hsource : (mergeSource cfg x).getPeers.map Peer.storeId = x.peers.map Peer.storeId := rfl
  rw [mem_intersectionStores, hinto, hsource]
  constructor
  · rintro ⟨hid, hnew⟩
    obtain ⟨j, -, he⟩ := List.mem_map.mp hnew
    refine ⟨hid, fun e => ?_⟩
    split at he
    · exact ht (he ▸ hid)
    next hne => exact hne (he.trans e)
  rintro ⟨hid, hne⟩
  exact ⟨hid, List.mem_map.mpr ⟨id, hid, if_neg hne⟩⟩

lemma matchPeers_into (cfg : PatrolConfig) {c : Cluster} (halloc : ∀ n, ∃ id, c.allocID n = .ok id)
  (hs : s ∈ x.peers.map Peer.storeId) (ht : t ∉ x.peers.map Peer.storeId)
  (hshare : (∃ j ∈ x.peers.map Peer.storeId, j ≠ s) ∨ t = 0) :
  ∃ steps kind, matchPeerSteps c (mergeSource cfg x) (mergeInto cfg x s t)
    (intersectionStores (mergeSource cfg x).getPeers (mergeInto cfg x s t).getPeers) = some (.ok (steps, kind)) ∧
    .removePeer s ∈ steps := by
  generalize horder : intersectionStores (mergeSource cfg x).getPeers (mergeInto cfg x s t).getPeers = order
  have hmem : ∀ id, id ∈ order ↔ id ∈ x.peers.map Peer.storeId ∧ id ≠ s := fun id => horder ▸ mem_shared ht
  have hlen : (mergeSource cfg x).getPeers.length = (mergeInto cfg x s t).getPeers.length := (length_map _).symm
  -- the peers that are missing are those that have been moved
  have hcount : (missing order (mergeInto cfg x s t).getPeers).length =
      (missing order (mergeSource cfg x).getPeers).length := by
    show (missing order (x.peers.map (rehomed s t))).length = (missing order x.peers).length
    rw [missing, List.filter_map, length_map]
    refine congrArg List.length (filter_congr fun p hp => ?_)
    show (!order.contains (rehomed s t p).storeId) = !order.contains p.storeId
    rw [storeId_rehomed]
    split
    next hps =>
      have hold : order.contains p.storeId = false := by
        rw [← Bool.not_eq_true, contains_iff_mem, hmem]
        exact fun h => h.2 hps
      have hnew : order.contains t = false := by
        rw [← Bool.not_eq_true, contains_iff_mem, hmem]
        exact fun h => ht h.1
      rw [hold, hnew]
    · rfl
  have hzero : order ≠ [] ∨ ∀ p ∈ (mergeInto cfg x s t).getPeers, p.storeId = 0 := by
    by_cases hother : ∃ j ∈ x.peers.map Peer.storeId, j ≠ s
    · obtain ⟨j, hj, hjs⟩ := hother
      exact .inl (ne_nil_of_mem ((hmem j).mpr ⟨hj, hjs⟩))
    refine .inr fun p hp => ?_
    obtain ⟨q, hq, rfl⟩ := List.mem_map.mp hp
    have hqs : q.storeId = s := by
      by_contra hne
      exact hother ⟨_, List.mem_map_of_mem hq, hne⟩
    rw [storeId_rehomed, if_pos hqs]
    exact hshare.resolve_left hother
  obtain ⟨steps, kind, hmatch, hremoves⟩ := matchPeerSteps_removes hlen hcount hzero halloc
  exact ⟨steps, kind, hmatch, hremoves s hs fun h => ((hmem s).mp h).2 rfl⟩

lemma merges_breaks (hx : Ruled cfg x info now startKey endKey) (hw : cfg.schedulerMaxWaitingOperator ≠ 0)
  (hs : s ∈ info.storeIDs) (hopen : Merges cfg x) : ¬ Kept cfg x info now := by
  obtain ⟨hsupported, hlimit, hsize, hside⟩ := hopen
  have hmem : s ∈ x.peers.map Peer.storeId := hx.stores s hs
  -- all peers may be on one store: then the counts of `matchPeerSteps` agree only for a neighbour on no store
  obtain ⟨t, ht, hshare⟩ : ∃ t, t ∉ x.peers.map Peer.storeId ∧ ((∃ j ∈ x.peers.map Peer.storeId, j ≠ s) ∨ t = 0) := by
    by_cases hother : ∃ j ∈ x.peers.map Peer.storeId, j ≠ s
    · obtain ⟨t, ht, -⟩ := exists_fresh (x.peers.map Peer.storeId)
      exact ⟨t, ht, .inl hother⟩
    refine ⟨0, fun h0 => ?_, .inr rfl⟩
    obtain ⟨p, hp, hp0⟩ := List.mem_map.mp h0
    exact hx.placed p hp hp0
  obtain ⟨r, hr, hcached, hy, hitems⟩ := exists_cached_pair hx.range hside s t
    (min 0 (Words.wrap cfg.maxMergeRegionKeys))
  have hk : OfKind cfg x info now (mergeView cfg.opt r info now t x) (mergeSource cfg x) :=
    patrolled_ofKind hr hcached (fun _ => rfl) (fun _ => wellStore_healthy) t
  have htarget : chooseTarget cfg (mergeView cfg.opt r info now t x) (mergeSource cfg x) =
      some (mergeInto cfg x s t) := by
    have hadjacent := adjacent_neighbour (min 0 (Words.wrap cfg.maxMergeRegionKeys)) hx.range hside hy hitems
    rw [chooseTarget_eq]
    show (if cfg.enableOneWayMerge then (r.getAdjacentRegions (mergeSource cfg x)).2
      else (r.getAdjacentRegions (mergeSource cfg x)).1).filter _ = _
    rw [mergeSource, hadjacent]
    exact filter_some_pos (checkTarget_into hx (fun _ => rfl) fun _ _ => rfl)
  obtain ⟨steps, kind, hmatch, hremoves⟩ := matchPeers_into cfg
    (c := (mergeView cfg.opt r info now t x).toCluster cfg 2) (fun n => ⟨n + 1, rfl⟩) hmem ht hshare
  have hcheck : ∃ op op', (mergeStage cfg (mergeView cfg.opt r info now t x) (mergeSource cfg x)).check
      (.new []) = some [op, op'] ∧ TakesOff x s op ∧ op'.regionID = x.id + 1 ∧ op'.regionEpoch = x.regionEpoch := by
    have hids : (mergeView cfg.opt r info now t x).choices.ids 2 = id := rfl
    simp only [mergeStage]
    rw [if_pos ⟨hsupported, hlimit⟩]
    rw [mergeCheck, mergeable_source hx hk hsize rfl fun _ => rfl, htarget]
    simp only [Bool.not_true, Bool.false_eq_true, if_false, hids, id, createMergeRegionOperator, hmatch, map_some]
    exact ⟨_, _, rfl, ⟨rfl, rfl, mem_append_left _ hremoves⟩, rfl, rfl⟩
  obtain ⟨op, op', hcheck, hremoves, hid, hepoch⟩ := hcheck
  refine not_kept hx hk [namespaceStage cfg _ _, replicaStage cfg _ _] rfl (forall_mem_cons.mpr ⟨?_, ?_⟩) rfl hcheck
    hw hs hremoves (fun o ho => ?_)
  · exact namespaceStage_single hr rfl _
  · refine forall_mem_singleton.mpr (replicaStage_unlabelled hx hk (fun id st hst => ?_) _)
    change (storesOf _ _).lookup id = some st at hst
    rw [lookup_storesOf] at hst
    split at hst
    · rw [← some.inj hst]
      rfl
    · cases hst
  rw [mem_singleton.mp ho, hid]
  exact ⟨_, hy, hepoch.symm⟩

/-- **Region rules under the patrol** -/
theorem patrol_keeps_iff (hx : Ruled cfg x info now startKey endKey) :
  Kept cfg x info now ↔ cfg.schedulerMaxWaitingOperator = 0 ∨ info.storeIDs = [] ∨
    (¬ Relocates cfg x endKey ∧ ¬ Replaces cfg x ∧ ¬ Merges cfg x) := by
  constructor
  · intro hkept
    by_contra hnot
    obtain ⟨hw, hrest⟩ := not_or.mp hnot
    obtain ⟨hne, hopen⟩ := not_or.mp hrest
    obtain ⟨s, hs⟩ := exists_mem_of_ne_nil _ hne
    refine hopen ⟨fun h => ?_, fun h => ?_, fun h => ?_⟩
    · exact relocates_breaks hx hw hs h hkept
    · exact replaces_breaks hx hw hs h hkept
    · exact merges_breaks hx hw hs h hkept
  intro hclosed v region ho oc added oc' hk hrun op hop _ s hs
  have hempty : added = [] := by
    rcases hclosed with hw | hnone | hclosed
    · exact quiet hx hk (.inl hw) hrun
    · rw [hnone] at hs
      cases hs
    · exact quiet hx hk (.inr hclosed) hrun
  rw [hempty] at hop
  cases hop

end

def defaultPatrol (locationLabels : List String) (merges : Bool) : PatrolConfig where
  opt := ⟨3, 16, 1800000000000, locationLabels, true, []⟩
  maxReplicas := 3
  leaderScheduleLimit := 4
  regionScheduleLimit := 64
  replicaScheduleLimit := 64
  mergeScheduleLimit := 8
  schedulerMaxWaitingOperator := 3
  isNamespaceRelocationEnabled := true
  isRemoveDownReplicaEnabled := true
  isReplaceOfflineReplicaEnabled := true
  isMakeUpReplicaEnabled := true
  isRemoveExtraReplicaEnabled := true
  isLocationReplacementEnabled := true
  enableOneWayMerge := false
  maxMergeRegionSize := 20
  maxMergeRegionKeys := 200000
  isRegionMergeSupported := merges

def regionFromM : Region := ⟨2, [109], [], some ⟨1, 1⟩, [⟨21, 1, false⟩, ⟨22, 2, false⟩, ⟨23, 3, false⟩]⟩
def ruleFromM : PluginInfo := ⟨false, "6d", "", some ⟨0, 100⟩, [[⟨"host", "h1"⟩]], [1]⟩

lemma regionFromM_ruled (locationLabels : List String) (merges : Bool) :
  Ruled (defaultPatrol locationLabels merges) regionFromM ruleFromM 50 [109] [] where
  range := by decide
  voters := by decide
  count := rfl
  placed := by decide
  active := by decide
  start := by decide +kernel
  stop := by decide +kernel
  inside := ⟨le_refl _, .inl rfl⟩
  stores := by decide

theorem patrol_keeps_iff_unlabelled : Ruled (defaultPatrol [] false) regionFromM ruleFromM 50 [109] [] ∧
  Kept (defaultPatrol [] false) regionFromM ruleFromM 50 := by
  refine ⟨regionFromM_ruled _ _, (patrol_keeps_iff (regionFromM_ruled _ _)).mpr (.inr (.inr ⟨?_, ?_, ?_⟩))⟩
  · exact fun h => h.2.2.2.2.2.2 rfl
  · exact fun h => h.2.2.2.1 rfl
  · exact fun h => Bool.false_ne_true h.1

def reportedFromM : RegionInfo := smallRegion regionFromM (some ⟨22, 2, false⟩) 1000

/-- with the stores of the region in one zone and a fourth one in another zone, the peer on the store of the rule is
moved to it -/
theorem better_location_breaks_rule : Ruled (defaultPatrol ["zone"] true) regionFromM ruleFromM 50 [109] [] ∧
  ∃ r oc, Runs.exec RegionsInfo.step .new [.set reportedFromM] = some r ∧
    OfKind (defaultPatrol ["zone"] true) regionFromM ruleFromM 50
      (placedView (defaultPatrol ["zone"] true).opt r ruleFromM 50 "zone" 1 4 reportedFromM) reportedFromM ∧
    checkRegion (defaultPatrol ["zone"] true)
      (placedView (defaultPatrol ["zone"] true).opt r ruleFromM 50 "zone" 1 4 reportedFromM) reportedFromM idle
      (.new []) = some ([newOperator "move-to-better-location" 2 (some ⟨1, 1⟩) (.opRegion ||| .opReplica)
        [.addLearner 4 1, .promoteLearner 4 1, .removePeer 1]], oc) := by
  have hrun : (Runs.exec RegionsInfo.step .new [.set reportedFromM]).map (fun r =>
      (r.getRegion 2, (checkRegion (defaultPatrol ["zone"] true)
        (placedView (defaultPatrol ["zone"] true).opt r ruleFromM 50 "zone" 1 4 reportedFromM) reportedFromM idle
        (.new [])).map Prod.fst)) =
      some (some reportedFromM, some [newOperator "move-to-better-location" 2 (some ⟨1, 1⟩) (.opRegion ||| .opReplica)
        [.addLearner 4 1, .promoteLearner 4 1, .removePeer 1]]) := by
    decide +kernel
  obtain ⟨r, hr, he⟩ := map_eq_some_iff.mp hrun
  obtain ⟨hcached, he⟩ := Prod.mk.inj he
  obtain ⟨⟨added, oc⟩, hcheck, rfl⟩ := map_eq_some_iff.mp he
  have hinv : r.Inv := RegionsInfo.inv_exec (by decide) hr
  exact ⟨regionFromM_ruled _ _, r, oc, hr, patrolled_ofKind hinv.sound hcached (fun _ => rfl)
    (fun _ => wellStore_healthy) 4, hcheck⟩

end PD
