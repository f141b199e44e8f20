import Mathlib.Data.List.Dedup
import PD.Plugin.Reload
import PD.Server.NamespaceCluster

/-! # The schedulers of user rules -/

namespace PD
open List Option

structure Draws where
  now : Int
  rules : Nat → List RuleKey → List RuleKey
  peers : Nat → List Nat → List Nat
  adds : Nat → List Nat → List Nat
  targets : Nat → List Nat → List Nat
  allocID : Nat → Nat → Except String Nat

structure Draws.Valid (d : Draws) : Prop where
  rules : ∀ id l, (d.rules id l).Perm l
  peers : ∀ id l, (d.peers id l).Perm l
  adds : ∀ id l, (d.adds id l).Perm l
  targets : ∀ id l, (d.targets id l).Perm l

def beginOf (i : Option TimeInterval) : Int := (i.map TimeInterval.beginTime).getD 0
def endOf (i : Option TimeInterval) : Int := (i.map TimeInterval.endTime).getD 0

def intervalsOverlap (a b : Option TimeInterval) : Bool :=
  ((decide (beginOf a < beginOf b) || decide (beginOf a = beginOf b)) && decide (beginOf b < endOf a)) ||
    ((decide (beginOf b < beginOf a) || decide (beginOf b = beginOf a)) && decide (beginOf a < endOf b))

namespace UserScheduler

def active (s : UserScheduler) (now : Int) : Bool := s.timeInterval.all fun i => i.active now

def targetFor (s : UserScheduler) (r : RegionsInfo) (m : PluginsMap) (regionID first : Nat) :
    List RuleKey → Option Nat
  | [] => some first
  | .leader _ :: rest => targetFor s r m regionID first rest
  | .region i :: rest =>
    let info := m.lookup (.region i)
    match getRegionIDs r ((info.map PluginInfo.keyStart).getD "") ((info.map PluginInfo.keyEnd).getD "") with
    | none => none
    | some regionIDs =>
      if regionIDs.contains regionID && intervalsOverlap s.timeInterval (info.bind PluginInfo.interval) then
        match ifOverlap s.storeIDs ((info.map PluginInfo.storeIDs).getD []) with
        | target :: _ => some target
        | [] => targetFor s r m regionID first rest
      else targetFor s r m regionID first rest

def leaderOperator (nc : NamespaceCluster) (d : Draws) (region : RegionInfo) (sourceID targetID : Nat) :
  List Operator :=
  if region.storeIds.contains targetID then
    [{ createTransferLeaderOperator "move-leader-user" region sourceID targetID .opLeader with
        level := .highPriority }]
  else
    match d.allocID region.getID 0 with
    | .error _ => []
    | .ok peerID =>
      match createMoveLeaderOperator "move-leader-user" (nc.toCluster (d.allocID region.getID)) region .opAdmin
          sourceID targetID peerID with
      | .error _ => []
      | .ok op => [{ op with level := .highPriority }]

variable (s : UserScheduler)

def moveLeaderOf (nc : NamespaceCluster) (m : PluginsMap) (d : Draws) (regionID seq : Nat) :
  Option (Nat × List Operator) :=
  match nc.getRegion regionID with
  | none => some (seq, [])
  | some region =>
    let sourceID := region.leaderStore
    let source := nc.getStore sourceID
    if s.storeIDs.contains sourceID then some (seq, [])
    else
      match s.storeIDs[seq]? with
      | none => none
      | some first =>
        match s.targetFor nc.regions m regionID first (d.rules regionID m.keys) with
        | none => none
        | some targetID =>
          let seq' := if seq + 1 < s.storeIDs.length then seq + 1 else 0
          let target := nc.getStore targetID
          -- transfer the leader to a peer, or else move a peer
          let transfer := region.storeIds.contains targetID
          let filters := [StoreFilter.storeState transfer (!transfer)]
          match filterSource nc.opt source filters with
          | none => none
          | some true => some (seq', [])
          | some false =>
            match filterTarget nc.opt target filters with
            | none => none
            | some true => some (seq', [])
            | some false => some (seq', leaderOperator nc d region sourceID targetID)

def moveLeaders (s : UserScheduler) (nc : NamespaceCluster) (m : PluginsMap) (d : Draws) :
    List Nat → Nat → Option (Nat × List Operator)
  | [], seq => some (seq, [])
  | regionID :: rest, seq =>
    match s.moveLeaderOf nc m d regionID seq with
    | none => none
    | some (seq', []) => moveLeaders s nc m d rest seq'
    | some (seq', op :: ops) => some (seq', op :: ops)

def filterStores (nc : NamespaceCluster) : List Nat → Option (List Nat)
  | [] => some []
  | storeID :: rest =>
    match filterTarget nc.opt (nc.getStore storeID) [.storeState false true] with
    | none => none
    | some true => filterStores nc rest
    | some false => (filterStores nc rest).map fun ids => storeID :: ids

def fillStores (nc : NamespaceCluster) (replicas : Int) : List Nat → List Nat → Option (List Nat)
  | [], storeMap => some storeMap
  | storeID :: rest, storeMap =>
    if replicas ≤ storeMap.length then some storeMap
    else if storeMap.contains storeID then fillStores nc replicas rest storeMap
    else
      match filterTarget nc.opt (nc.getStore storeID) [.storeState false true] with
      | none => none
      | some true => fillStores nc replicas rest storeMap
      | some false => fillStores nc replicas rest (storeMap ++ [storeID])

def moveRegionOf (nc : NamespaceCluster) (d : Draws) (storeIDs : List Nat) (regionID : Nat)
  (storeMap : List Nat) : Option (List Nat × List Operator) :=
  match nc.getRegion regionID with
  | none => some (storeMap, [])
  | some region =>
    if storeIDs.all fun id => region.storeIds.contains id then some (storeMap, [])
    else
      match fillStores nc nc.getMaxReplicas (d.peers regionID region.storeIds.dedup) storeMap with
      | none => none
      | some storeMap =>
        if (storeMap.length : Int) < nc.getMaxReplicas then some (storeMap, [])
        else
          match createMoveRegionOperator "move-region-user" (nc.toCluster (d.allocID regionID)) region .opAdmin
              (d.adds regionID storeMap) (d.targets regionID storeMap) with
          | .error _ => some (storeMap, [])
          | .ok op => some (storeMap, [op])

def moveRegions (nc : NamespaceCluster) (d : Draws) (storeIDs : List Nat) :
    List Nat → List Nat → Option (List Operator)
  | [], _ => some []
  | regionID :: rest, storeMap =>
    match moveRegionOf nc d storeIDs regionID storeMap with
    | none => none
    | some (storeMap, []) => moveRegions nc d storeIDs rest storeMap
    | some (_, op :: ops) => some (op :: ops)

def scheduleLeaders (nc : NamespaceCluster) (m : PluginsMap) (d : Draws) :
  Option (UserScheduler × List Operator) :=
  (s.moveLeaders nc m d s.regionIDs s.storeSeq).map fun x => ({ s with storeSeq := x.1 }, x.2)

def scheduleRegions (nc : NamespaceCluster) (d : Draws) :
  Option (UserScheduler × List Operator) :=
  match filterStores nc s.storeIDs with
  | none => none
  | some [] => some (s, [])
  | some storeIDs => (moveRegions nc d storeIDs s.regionIDs storeIDs.dedup).map fun ops => (s, ops)

def schedule (nc : NamespaceCluster) (m : PluginsMap) (d : Draws) :
  Option (UserScheduler × List Operator) :=
  if s.active d.now = false then some (s, [])
  else
    match getRegionIDs nc.regions s.keyStart s.keyEnd with
    | none => none
    | some regionIDs =>
      let s := { s with regionIDs := regionIDs }
      if s.storeIDs = [] then some (s, [])
      else
        match s.name with
        | .leader _ => s.scheduleLeaders nc m d
        | .region _ => s.scheduleRegions nc d

variable (rule : UserScheduler)

def inState (regionIDs : List Nat) (seq : Nat) : UserScheduler := { rule with regionIDs := regionIDs, storeSeq := seq }
def Of (rule s : UserScheduler) : Prop := ∃ regionIDs seq, seq < rule.storeIDs.length ∧ s = rule.inState regionIDs seq

def Safe (r : RegionsInfo) (cl : Classifier) (present : List Nat) : Prop :=
  ∀ s, rule.Of s → ∀ c : ClusterView, c.regions = r → c.Stored present →
    ∀ (m : PluginsMap) (d : String → Draws), (∀ ns, (d ns).Valid) → ∀ order, order.Perm cl.allNamespaces →
      ∃ s' ops, scheduleByNamespace c cl (fun s nc => s.schedule nc m (d nc.ns)) order s = some (s', ops) ∧ rule.Of s'

def Misplaced (r : RegionsInfo) (cl : Classifier) (present : List Nat) (ns : String)
  (x : RegionInfo) : Prop :=
  (∃ ids, getRegionIDs r rule.keyStart rule.keyEnd = some ids ∧ ∃ id ∈ ids, r.getRegion id = some x) ∧
    cl.inside present ns x ∧ x.leaderStore ∉ rule.storeIDs

def CoveredIn (r : RegionsInfo) (cl : Classifier) (present : List Nat) (ns : String) : Prop :=
  match rule.name with
  | .leader _ => ∀ x, rule.Misplaced r cl present ns x →
      cl.here present ns x.leaderStore ∧ ∀ t ∈ rule.storeIDs, cl.here present ns t
  | .region _ => ∀ t ∈ rule.storeIDs, cl.here present ns t

def Covered (r : RegionsInfo) (cl : Classifier) (present : List Nat) : Prop :=
  ∀ ns ∈ cl.allNamespaces, ∀ i ∈ rule.timeInterval, i.beginTime ≤ i.endTime → rule.CoveredIn r cl present ns

section
variable {s : UserScheduler} {nc : NamespaceCluster} {m : PluginsMap} {d : Draws}
variable {t seq regionID k : Nat} {ids storeIDs old : List Nat} {x : RegionInfo} {rule : UserScheduler}

lemma mem_ifOverlap {first second : List Nat} : t ∈ ifOverlap first second ↔ t ∈ first ∧ t ∈ second := by
  unfold ifOverlap
  simp only [mem_flatMap, mem_filter, beq_iff_eq]
  constructor
  · intro ⟨i, hi, ht, hit⟩
    exact ⟨hit ▸ hi, ht⟩
  intro ⟨hf, hs⟩
  exact ⟨t, hf, hs, rfl⟩

lemma targetFor_mem (hr : nc.regions.Sound) (regionID : Nat) {first : Nat} (hfirst : first ∈ s.storeIDs)
  (keys : List RuleKey) : ∃ t ∈ s.storeIDs, s.targetFor nc.regions m regionID first keys = some t := by
  induction keys with
  | nil => exact ⟨first, hfirst, rfl⟩
  | cons k _ ih =>
    cases k with
    | leader => exact ih
    | region i =>
      obtain ⟨ids, hids⟩ := getRegionIDs_isSome hr
        (((m.lookup (.region i)).map PluginInfo.keyStart).getD "")
        (((m.lookup (.region i)).map PluginInfo.keyEnd).getD "")
      rw [targetFor]
      simp only [hids]
      split
      · cases hov : ifOverlap s.storeIDs (((m.lookup (.region i)).map PluginInfo.storeIDs).getD []) with
        | nil => exact ih
        | cons t => exact ⟨t, (mem_ifOverlap.mp (hov ▸ mem_cons_self)).1, rfl⟩
      · exact ih

lemma nextSeq_lt {n : Nat} (h : seq < n) : (if seq + 1 < n then seq + 1 else 0) < n := by split <;> omega

lemma moveLeaderOf_returns (hr : nc.regions.Sound) (hseq : seq < s.storeIDs.length)
  (hstores : ∀ x, nc.getRegion regionID = some x → x.leaderStore ∉ s.storeIDs →
    (nc.getStore x.leaderStore).isSome ∧ ∀ t ∈ s.storeIDs, (nc.getStore t).isSome) :
  ∃ seq' ops, s.moveLeaderOf nc m d regionID seq = some (seq', ops) ∧ seq' < s.storeIDs.length := by
  unfold moveLeaderOf
  cases hx : nc.getRegion regionID with
  | none => exact ⟨seq, [], rfl, hseq⟩
  | some x =>
    dsimp only
    split
    · exact ⟨seq, [], rfl, hseq⟩
    next hlead =>
      obtain ⟨hsource, htargets⟩ := hstores x hx (by simpa using hlead)
      rw [List.getElem?_eq_getElem hseq]
      obtain ⟨t, ht, htarget⟩ := targetFor_mem (m := m) hr regionID (getElem_mem hseq)
        (d.rules regionID m.keys)
      obtain ⟨source, hsource⟩ := isSome_iff_exists.mp hsource
      obtain ⟨target, htgt⟩ := isSome_iff_exists.mp (htargets t ht)
      simp only [htarget, hsource, htgt, filterSource, filterTarget, map_some]
      have hnext := nextSeq_lt hseq
      split
      next h => cases h
      · exact ⟨_, [], rfl, hnext⟩
      split
      next h => cases h
      · exact ⟨_, [], rfl, hnext⟩
      · exact ⟨_, _, rfl, hnext⟩

lemma moveLeaders_returns (hr : nc.regions.Sound) (hseq : seq < s.storeIDs.length)
  (hstores : ∀ id ∈ ids, ∀ x, nc.getRegion id = some x → x.leaderStore ∉ s.storeIDs →
    (nc.getStore x.leaderStore).isSome ∧ ∀ t ∈ s.storeIDs, (nc.getStore t).isSome) :
  ∃ seq' ops, s.moveLeaders nc m d ids seq = some (seq', ops) ∧ seq' < s.storeIDs.length := by
  induction ids generalizing seq with
  | nil => exact ⟨seq, [], rfl, hseq⟩
  | cons id _ ih =>
    obtain ⟨seq', ops, hone, hseq'⟩ := moveLeaderOf_returns (m := m) (d := d) hr hseq (hstores id mem_cons_self)
    rw [moveLeaders, hone]
    cases ops with
    | nil => exact ih hseq' fun id' h' => hstores id' (mem_cons_of_mem _ h')
    | cons op ops => exact ⟨seq', op :: ops, rfl, hseq'⟩

lemma filterStores_returns (h : ∀ t ∈ storeIDs, (nc.getStore t).isSome) :
  ∃ ids, filterStores nc storeIDs = some ids := by
  induction storeIDs with
  | nil => exact ⟨[], rfl⟩
  | cons t _ ih =>
    obtain ⟨store, hstore⟩ := isSome_iff_exists.mp (h t mem_cons_self)
    obtain ⟨ids, hids⟩ := ih fun t' h' => h t' (mem_cons_of_mem _ h')
    unfold filterStores
    rw [hstore, filterTarget, map_some, hids]
    split
    next hnone => cases hnone
    · exact ⟨ids, rfl⟩
    · exact ⟨t :: ids, rfl⟩

lemma filterStores_panics (ht : t ∈ storeIDs) (hnone : nc.getStore t = none) : filterStores nc storeIDs = none := by
  induction storeIDs with
  | nil => cases ht
  | cons _ _ ih =>
    unfold filterStores
    rcases mem_cons.mp ht with rfl | ht
    · rw [hnone]
      rfl
    rw [ih ht]
    split <;> rfl

lemma fillStores_returns (replicas : Int) {order : List Nat} (h : ∀ t ∈ order, (nc.getStore t).isSome)
  (storeMap : List Nat) : ∃ ids, fillStores nc replicas order storeMap = some ids := by
  induction order generalizing storeMap with
  | nil => exact ⟨storeMap, rfl⟩
  | cons t _ ih =>
    have ih' := ih fun t' h' => h t' (mem_cons_of_mem _ h')
    obtain ⟨store, hstore⟩ := isSome_iff_exists.mp (h t mem_cons_self)
    unfold fillStores
    split
    · exact ⟨storeMap, rfl⟩
    split
    · exact ih' _
    rw [hstore, filterTarget, map_some]
    split
    next hnone => cases hnone
    · exact ih' _
    · exact ih' _

lemma moveRegions_returns (hpeers : ∀ id x, nc.getRegion id = some x → ∀ t ∈ x.storeIds, (nc.getStore t).isSome)
  (hd : d.Valid) (storeIDs ids storeMap : List Nat) : ∃ ops, moveRegions nc d storeIDs ids storeMap = some ops := by
  induction ids generalizing storeMap with
  | nil => exact ⟨[], rfl⟩
  | cons id _ ih =>
    have hone : ∃ storeMap' ops, moveRegionOf nc d storeIDs id storeMap = some (storeMap', ops) := by
      unfold moveRegionOf
      cases hx : nc.getRegion id with
      | none => exact ⟨storeMap, [], rfl⟩
      | some x =>
        dsimp only
        split
        · exact ⟨storeMap, [], rfl⟩
        have hin : ∀ t ∈ d.peers id x.storeIds.dedup, (nc.getStore t).isSome := fun t ht =>
          hpeers id x hx t (mem_dedup.mp ((hd.peers id _).mem_iff.mp ht))
        obtain ⟨filled, hfill⟩ := fillStores_returns nc.getMaxReplicas hin storeMap
        rw [hfill]
        dsimp only
        split
        · exact ⟨filled, [], rfl⟩
        split
        · exact ⟨filled, [], rfl⟩
        · exact ⟨filled, _, rfl⟩
    obtain ⟨storeMap', ops, hone⟩ := hone
    rw [moveRegions, hone]
    cases ops with
    | nil => exact ih _
    | cons op ops => exact ⟨op :: ops, rfl⟩

lemma moveLeaderOf_noSource (hr : nc.regions.Sound)
  (hseq : seq < s.storeIDs.length) (hx : nc.getRegion regionID = some x) (hlead : x.leaderStore ∉ s.storeIDs)
  (hnone : nc.getStore x.leaderStore = none) : s.moveLeaderOf nc m d regionID seq = none := by
  obtain ⟨t, -, htarget⟩ := targetFor_mem (m := m) hr regionID (getElem_mem hseq) (d.rules regionID m.keys)
  unfold moveLeaderOf
  simp only [hx, contains_iff_mem, hlead, if_false, List.getElem?_eq_getElem hseq, htarget, hnone]
  rfl

lemma moveLeaderOf_dead (hr : nc.regions.Sound) (hseq : seq < s.storeIDs.length)
  (hdead : ∀ id store, nc.getStore id = some store → store.isTombstone = true) :
  s.moveLeaderOf nc m d regionID seq = none ∨
    ∃ seq', s.moveLeaderOf nc m d regionID seq = some (seq', []) ∧ seq' < s.storeIDs.length := by
  obtain ⟨t, -, htarget⟩ := targetFor_mem (m := m) hr regionID (getElem_mem hseq) (d.rules regionID m.keys)
  unfold moveLeaderOf
  cases hx : nc.getRegion regionID with
  | none => exact .inr ⟨seq, rfl, hseq⟩
  | some x =>
    dsimp only
    split
    · exact .inr ⟨seq, rfl, hseq⟩
    rw [List.getElem?_eq_getElem hseq]
    simp only [htarget]
    cases hsource : nc.getStore x.leaderStore with
    | none => exact .inl rfl
    | some store =>
      have hfilter : ∀ a b, filterSource nc.opt (some store) [.storeState a b] = some true := by
        intro a b
        simp [filterSource, StoreFilter.source, hdead _ store hsource]
      rw [hfilter]
      exact .inr ⟨_, rfl, nextSeq_lt hseq⟩

lemma moveLeaders_noSource (hr : nc.regions.Sound)
  (hdead : ∀ id store, nc.getStore id = some store → store.isTombstone = true) {id : Nat}
  (hx : nc.getRegion id = some x) (hlead : x.leaderStore ∉ s.storeIDs) (hnone : nc.getStore x.leaderStore = none)
  (hid : id ∈ ids) (hseq : seq < s.storeIDs.length) : s.moveLeaders nc m d ids seq = none := by
  induction ids generalizing seq with
  | nil => cases hid
  | cons j _ ih =>
    rw [moveLeaders]
    rcases mem_cons.mp hid with rfl | hid
    · rw [moveLeaderOf_noSource hr hseq hx hlead hnone]
    rcases moveLeaderOf_dead (m := m) (d := d) hr hseq hdead with hj | ⟨seq', hj, hseq'⟩
    · rw [hj]
    rw [hj]
    exact ih hid hseq'

lemma moveLeaders_noTarget (hd : d.Valid)
  (hfit : ∀ id store, nc.getStore id = some store → StoreFilter.source nc.opt store (.storeState false true) = false)
  (hpeers : ∀ id x, nc.getRegion id = some x → ∀ t ∈ x.storeIds, (nc.getStore t).isSome)
  (hseq : s.storeIDs[seq]? = some t) (hnone : nc.getStore t = none)
  (hsource : ∀ id ∈ ids, ∀ x, nc.getRegion id = some x → x.leaderStore ∉ s.storeIDs →
    (nc.getStore x.leaderStore).isSome)
  (hsome : ∃ id ∈ ids, ∃ x, nc.getRegion id = some x ∧ x.leaderStore ∉ s.storeIDs) :
  s.moveLeaders nc .empty d ids seq = none := by
  induction ids with
  | nil => obtain ⟨_, h, -⟩ := hsome; cases h
  | cons id ids ih =>
    have hrest : (¬ ∃ x, nc.getRegion id = some x ∧ x.leaderStore ∉ s.storeIDs) →
        s.moveLeaders nc .empty d ids seq = none := by
      intro hno
      refine ih (fun id' h' => hsource id' (mem_cons_of_mem _ h')) ?_
      obtain ⟨id', h', hx⟩ := hsome
      rcases mem_cons.mp h' with rfl | h'
      · exact absurd hx hno
      · exact ⟨id', h', hx⟩
    rw [moveLeaders]
    unfold moveLeaderOf
    cases hx : nc.getRegion id with
    | none => exact hrest fun ⟨_, h, _⟩ => by cases hx.symm.trans h
    | some x =>
      dsimp only
      by_cases hlead : x.leaderStore ∈ s.storeIDs
      · rw [if_pos (contains_iff_mem.mpr hlead)]
        exact hrest fun ⟨_, h, h'⟩ => by cases hx.symm.trans h; exact h' hlead
      obtain ⟨store, hstore⟩ := isSome_iff_exists.mp (hsource id mem_cons_self x hx hlead)
      have hrules : d.rules id (SortedMap.empty : PluginsMap).keys = [] := (hd.rules id []).eq_nil
      have htx : t ∉ x.storeIds := fun ht => by
        have hin := hpeers id x hx t ht
        rw [hnone] at hin
        cases hin
      rw [if_neg (fun h => hlead (contains_iff_mem.mp h)), hseq, hrules]
      have htransfer : x.storeIds.contains t = false := by simpa using htx
      simp only [targetFor, htransfer, hstore, hnone, filterSource, map_some, Bool.not_false,
        any_cons, any_nil, Bool.or_false, hfit _ _ hstore]
      rfl

section
variable (nc : NamespaceCluster) (hactive : rule.active d.now = true)
  (hids : getRegionIDs nc.regions rule.keyStart rule.keyEnd = some ids) (hne : rule.storeIDs ≠ [])
include hactive hids hne

lemma schedule_leader (hname : rule.name = .leader k) :
  (rule.inState old seq).schedule nc m d = (rule.inState ids seq).scheduleLeaders nc m d := by
  unfold schedule
  rw [show (rule.inState old seq).active d.now = true from hactive]
  simp only [inState, hids, hne, hname, Bool.true_eq_false, if_false]

lemma schedule_region (hname : rule.name = .region k) :
  (rule.inState old seq).schedule nc m d = (rule.inState ids seq).scheduleRegions nc d := by
  unfold schedule
  rw [show (rule.inState old seq).active d.now = true from hactive]
  simp only [inState, hids, hne, hname, Bool.true_eq_false, if_false]

end

end

def storeIn (state : StoreState) (id : Nat) : StoreView :=
  ⟨⟨id, "", state, [], ""⟩, false, false, false, 0, 0, 0, 0, 0, false, none, none⟩

def storesIn (state : StoreState) : List Nat → SortedMap Nat StoreView
  | [] => .empty
  | id :: ids => (storesIn state ids).insert id (storeIn state id)

def clusterIn (r : RegionsInfo) (state : StoreState) (present : List Nat) : ClusterView :=
  ⟨r, storesIn state present, ⟨0, 0, 0, [], false, []⟩, fun _ => 3, fun _ => false⟩

def plainDraws (now : Int) : Draws :=
  ⟨now, fun _ l => l, fun _ l => l, fun _ l => l, fun _ l => l, fun _ _ => .error "alloc id failed"⟩

lemma plainDraws_valid (now : Int) : (plainDraws now).Valid :=
  ⟨fun _ _ => .refl _, fun _ _ => .refl _, fun _ _ => .refl _, fun _ _ => .refl _⟩

section
variable {r : RegionsInfo} {cl : Classifier} {present : List Nat} {state : StoreState} {ns : String}

lemma lookup_storesIn (id : Nat) :
  (storesIn state present).lookup id = if id ∈ present then some (storeIn state id) else none := by
  induction present with
  | nil => rfl
  | cons j _ ih =>
    unfold storesIn
    rw [SortedMap.lookup_insert, ih]
    by_cases h : id = j
    · rw [if_pos h, if_pos (h ▸ mem_cons_self), h]
    · simp [h]

lemma clusterIn_stored : (clusterIn r state present).Stored present where
  present := fun id => by
    show ((storesIn state present).lookup id).isSome ↔ _
    rw [lookup_storesIn]
    split <;> simp [*]
  keyed := fun id store h => by
    change (storesIn state present).lookup id = some store at h
    rw [lookup_storesIn] at h
    split at h
    · cases h; rfl
    · cases h

lemma getStore_clusterIn {id : Nat} {store : StoreView}
  (h : (newNamespaceCluster (clusterIn r state present) cl ns).getStore id = some store) :
  store = storeIn state id := by
  change ((storesIn state present).keep _).lookup id = some store at h
  rw [SortedMap.lookup_keep, lookup_storesIn] at h
  obtain ⟨h, -⟩ := filter_eq_some_iff.mp h
  split at h
  · cases h; rfl
  · cases h

variable {rule s : UserScheduler} {c : ClusterView} {i : TimeInterval}

lemma peers_here (hst : c.Stored present) :
  ∀ id x, (newNamespaceCluster c cl ns).getRegion id = some x → ∀ t ∈ x.storeIds,
    ((newNamespaceCluster c cl ns).getStore t).isSome := by
  intro id x hx t ht
  obtain ⟨p, hp, rfl⟩ := List.mem_map.mp ht
  exact (getStore_isSome hst _).mpr (((getRegion_eq_some hst).mp hx).2.2 p hp)

lemma scheduleLeaders_returns (hr : c.regions.Sound) (hst : c.Stored present) (m : PluginsMap) (d : Draws)
  {ids : List Nat} {seq : Nat} (hids : getRegionIDs c.regions rule.keyStart rule.keyEnd = some ids)
  (hseq : seq < rule.storeIDs.length) (hcov : ∀ x, rule.Misplaced c.regions cl present ns x →
    cl.here present ns x.leaderStore ∧ ∀ t ∈ rule.storeIDs, cl.here present ns t) :
  ∃ s' ops, (rule.inState ids seq).scheduleLeaders (newNamespaceCluster c cl ns) m d = some (s', ops) ∧
    rule.Of s' := by
  have hr' : (newNamespaceCluster c cl ns).regions.Sound := hr
  have hmoves : ∃ seq' ops, (rule.inState ids seq).moveLeaders (newNamespaceCluster c cl ns) m d ids seq =
      some (seq', ops) ∧ seq' < rule.storeIDs.length := by
    refine moveLeaders_returns (s := rule.inState ids seq) hr' hseq fun id hid x hx hlead => ?_
    obtain ⟨hreg, hin⟩ := (getRegion_eq_some hst).mp hx
    obtain ⟨hsource, htargets⟩ := hcov x ⟨⟨ids, hids, id, hid, hreg⟩, hin, hlead⟩
    exact ⟨(getStore_isSome hst _).mpr hsource, fun t ht => (getStore_isSome hst t).mpr (htargets t ht)⟩
  obtain ⟨seq', ops, hmoves, hseq'⟩ := hmoves
  refine ⟨rule.inState ids seq', ops, ?_, ids, seq', hseq', rfl⟩
  show ((rule.inState ids seq).moveLeaders (newNamespaceCluster c cl ns) m d ids seq).map _ = _
  rw [hmoves]
  rfl

lemma scheduleRegions_returns (hst : c.Stored present) {d : Draws} (hd : d.Valid) (ids : List Nat) {seq : Nat}
  (hseq : seq < rule.storeIDs.length) (hcov : ∀ t ∈ rule.storeIDs, cl.here present ns t) :
  ∃ s' ops, (rule.inState ids seq).scheduleRegions (newNamespaceCluster c cl ns) d = some (s', ops) ∧ rule.Of s' := by
  have hstores : ∀ t ∈ (rule.inState ids seq).storeIDs, ((newNamespaceCluster c cl ns).getStore t).isSome :=
    fun t ht => (getStore_isSome hst t).mpr (hcov t ht)
  obtain ⟨kept, hkept⟩ := filterStores_returns hstores
  unfold scheduleRegions
  rw [hkept]
  cases kept with
  | nil => exact ⟨_, [], rfl, ids, seq, hseq, rfl⟩
  | cons t ts =>
    obtain ⟨ops, hops⟩ := moveRegions_returns (peers_here hst) hd (t :: ts) ids (t :: ts).dedup
    refine ⟨rule.inState ids seq, ops, ?_, ids, seq, hseq, rfl⟩
    show (moveRegions (newNamespaceCluster c cl ns) d (t :: ts) ids (t :: ts).dedup).map _ = _
    rw [hops]
    rfl

lemma schedule_returns (hr : c.regions.Sound) (hst : c.Stored present) {m : PluginsMap} {d : Draws} (hd : d.Valid)
  (hs : rule.Of s) (hcov : rule.active d.now = true → rule.CoveredIn c.regions cl present ns) :
  ∃ s' ops, s.schedule (newNamespaceCluster c cl ns) m d = some (s', ops) ∧ rule.Of s' := by
  obtain ⟨old, seq, hseq, rfl⟩ := hs
  cases hactive : rule.active d.now with
  | false =>
    refine ⟨_, [], ?_, old, seq, hseq, rfl⟩
    exact if_pos hactive
  | true =>
    obtain ⟨ids, hids⟩ := getRegionIDs_isSome hr rule.keyStart rule.keyEnd
    have hne : rule.storeIDs ≠ [] := ne_nil_of_length_pos (Nat.zero_lt_of_lt hseq)
    have hc := hcov hactive
    unfold CoveredIn at hc
    cases hname : rule.name with
    | leader =>
      rw [hname] at hc
      obtain ⟨s', ops, hsch, hs'⟩ := scheduleLeaders_returns hr hst m d hids hseq hc
      exact ⟨s', ops, (schedule_leader (newNamespaceCluster c cl ns) hactive hids hne hname).trans hsch, hs'⟩
    | region =>
      rw [hname] at hc
      obtain ⟨s', ops, hsch, hs'⟩ := scheduleRegions_returns hst hd ids hseq hc
      exact ⟨s', ops, (schedule_region (newNamespaceCluster c cl ns) hactive hids hne hname).trans hsch, hs'⟩

section
variable {ids : List Nat} {m : PluginsMap} {d : Draws}
variable {t seq : Nat} {x : RegionInfo}

lemma getStore_gone (hst : c.Stored present) (ht : ¬ cl.here present ns t) :
  (newNamespaceCluster c cl ns).getStore t = none :=
  not_isSome_iff_eq_none.mp fun h => ht ((getStore_isSome hst t).mp h)

lemma scheduleLeaders_noSource (hr : r.Sound) (hids : getRegionIDs r rule.keyStart rule.keyEnd = some ids)
  (hne : rule.storeIDs ≠ []) (hx : rule.Misplaced r cl present ns x) (hgone : ¬ cl.here present ns x.leaderStore) :
  (rule.inState ids 0).scheduleLeaders (newNamespaceCluster (clusterIn r .tombstone present) cl ns) m d = none := by
  have hr' : (newNamespaceCluster (clusterIn r .tombstone present) cl ns).regions.Sound := hr
  obtain ⟨⟨ids', hids', id, hid, hreg⟩, hin, hlead⟩ := hx
  cases hids.symm.trans hids'
  have hmoves : (rule.inState ids 0).moveLeaders (newNamespaceCluster (clusterIn r .tombstone present) cl ns) m d
      ids 0 = none := by
    refine moveLeaders_noSource (s := rule.inState ids 0) hr' (fun id store h => ?_)
      ((getRegion_eq_some clusterIn_stored).mpr ⟨hreg, hin⟩) hlead (getStore_gone clusterIn_stored hgone) hid
      (length_pos_iff.mpr hne)
    rw [getStore_clusterIn h]
    rfl
  show (UserScheduler.moveLeaders _ _ m d ids 0).map _ = none
  rw [hmoves]
  rfl

lemma scheduleLeaders_noTarget (hids : getRegionIDs r rule.keyStart rule.keyEnd = some ids) (hd : d.Valid)
  (hx : rule.Misplaced r cl present ns x)
  (hleads : ∀ x, rule.Misplaced r cl present ns x → cl.here present ns x.leaderStore)
  (hseq : rule.storeIDs[seq]? = some t) (hgone : ¬ cl.here present ns t) :
  (rule.inState ids seq).scheduleLeaders (newNamespaceCluster (clusterIn r .up present) cl ns) .empty d = none := by
  have hmoves : (rule.inState ids seq).moveLeaders (newNamespaceCluster (clusterIn r .up present) cl ns) .empty d
      ids seq = none := by
    refine moveLeaders_noTarget (s := rule.inState ids seq) hd (fun id store h => ?_) (peers_here clusterIn_stored) hseq
      (getStore_gone clusterIn_stored hgone) (fun id hid x hx hlead => ?_) ?_
    · rw [getStore_clusterIn h]
      rfl
    · obtain ⟨hreg, hin⟩ := (getRegion_eq_some clusterIn_stored).mp hx
      exact (getStore_isSome clusterIn_stored _).mpr (hleads x ⟨⟨ids, hids, id, hid, hreg⟩, hin, hlead⟩)
    obtain ⟨⟨ids', hids', id, hid, hreg⟩, hin, hlead⟩ := hx
    cases hids.symm.trans hids'
    exact ⟨id, hid, x, (getRegion_eq_some clusterIn_stored).mpr ⟨hreg, hin⟩, hlead⟩
  show (UserScheduler.moveLeaders _ _ _ d ids seq).map _ = none
  rw [hmoves]
  rfl

lemma scheduleRegions_noTarget (ht : t ∈ rule.storeIDs) (hgone : ¬ cl.here present ns t) :
  (rule.inState ids seq).scheduleRegions (newNamespaceCluster (clusterIn r .up present) cl ns) d = none := by
  unfold scheduleRegions
  have hpanic : filterStores (newNamespaceCluster (clusterIn r .up present) cl ns) (rule.inState ids seq).storeIDs =
      none := filterStores_panics ht (getStore_gone clusterIn_stored hgone)
  rw [hpanic]

end

lemma schedule_panics (hr : r.Sound) (hi : rule.timeInterval = some i) (hle : i.beginTime ≤ i.endTime)
  (hne : rule.storeIDs ≠ []) (hnot : ¬ rule.CoveredIn r cl present ns) : ∃ s state, rule.Of s ∧
    s.schedule (newNamespaceCluster (clusterIn r state present) cl ns) .empty (plainDraws i.beginTime) = none := by
  have hactive : rule.active (plainDraws i.beginTime).now = true := by
    unfold active TimeInterval.active plainDraws
    simp [hi, hle]
  have hd := plainDraws_valid i.beginTime
  have hpos : 0 < rule.storeIDs.length := length_pos_iff.mpr hne
  obtain ⟨ids, hids⟩ := getRegionIDs_isSome hr rule.keyStart rule.keyEnd
  unfold CoveredIn at hnot
  cases hname : rule.name with
  | leader =>
    rw [hname] at hnot
    obtain ⟨x, hnot⟩ := not_forall.mp hnot
    obtain ⟨hx, hnot⟩ := Classical.not_imp.mp hnot
    by_cases hleads : ∀ x, rule.Misplaced r cl present ns x → cl.here present ns x.leaderStore
    · have hgone : ∃ t ∈ rule.storeIDs, ¬ cl.here present ns t := by
        by_contra hall
        exact hnot ⟨hleads x hx, fun t ht => by_contra fun h => hall ⟨t, ht, h⟩⟩
      obtain ⟨t, ht, hgone⟩ := hgone
      obtain ⟨seq, hseq⟩ := List.mem_iff_getElem?.mp ht
      refine ⟨rule.inState [] seq, .up, ⟨[], seq, (List.getElem?_eq_some_iff.mp hseq).1, rfl⟩, ?_⟩
      exact (schedule_leader (newNamespaceCluster (clusterIn r .up present) cl ns) hactive hids hne hname).trans
        (scheduleLeaders_noTarget hids hd hx hleads hseq hgone)
    obtain ⟨y, hleads⟩ := not_forall.mp hleads
    obtain ⟨hy, hgone⟩ := Classical.not_imp.mp hleads
    refine ⟨rule.inState [] 0, .tombstone, ⟨[], 0, hpos, rfl⟩, ?_⟩
    exact (schedule_leader (newNamespaceCluster (clusterIn r .tombstone present) cl ns) hactive hids hne hname).trans
      (scheduleLeaders_noSource hr hids hne hy hgone)
  | region =>
    rw [hname] at hnot
    obtain ⟨t, hnot⟩ := not_forall.mp hnot
    obtain ⟨ht, hgone⟩ := Classical.not_imp.mp hnot
    refine ⟨rule.inState [] 0, .up, ⟨[], 0, hpos, rfl⟩, ?_⟩
    exact (schedule_region (newNamespaceCluster (clusterIn r .up present) cl ns) hactive hids hne hname).trans
      (scheduleRegions_noTarget ht hgone)

lemma safe_iff_covered (hr : r.Sound) (hi : rule.timeInterval = some i) (hne : rule.storeIDs ≠ []) :
  rule.Safe r cl present ↔ rule.Covered r cl present := by
  constructor
  · intro hsafe ns hns i' hi' hle
    cases hi.symm.trans hi'
    by_contra hnot
    obtain ⟨s, state, hs, hpanic⟩ := schedule_panics hr hi hle hne hnot
    obtain ⟨s', ops, hsch, -⟩ := hsafe s hs (clusterIn r state present) rfl clusterIn_stored .empty
      (fun _ => plainDraws i.beginTime) (fun _ => plainDraws_valid _) (ns :: cl.allNamespaces.erase ns)
      (perm_cons_erase hns).symm
    rw [scheduleByNamespace, hpanic] at hsch
    cases hsch
  rintro hcov s hs c rfl hst m d hd order horder
  refine scheduleByNamespace_total rule.Of (fun ns hns s hs => ?_) hs
  refine schedule_returns hr hst (hd ns) hs fun hactive => ?_
  refine hcov ns (horder.mem_iff.mp hns) i hi ?_
  unfold active TimeInterval.active at hactive
  simp only [hi, all_some, Bool.not_eq_true', Bool.or_eq_false_iff, decide_eq_false_iff_not, not_lt] at hactive
  exact le_trans hactive.2 hactive.1

end

lemma produced {cfg : DispatchConfig} {found updated : Listing} {order : List RuleKey} {rule : UserScheduler}
  (hord : order.Perm (cfg.getStoreId found).keys)
  (hrule : rule ∈ (produceScheduler cfg found updated order cfg.pluginsMap).2) :
  rule.storeIDs ≠ [] ∧ (∃ i, rule.timeInterval = some i) ∧ rule.Of rule := by
  unfold produceScheduler at hrule
  dsimp only at hrule
  split at hrule
  · rw [produceLoop_schedulers (hord.nodup_iff.mpr (SortedMap.keys_nodup _))] at hrule
    obtain ⟨k, hk, rfl⟩ := List.mem_map.mp hrule
    obtain ⟨ids, hids⟩ := SortedMap.mem_keys.mp (hord.mem_iff.mp hk)
    obtain ⟨a, ha, -, hne⟩ := lookup_getStoreId.mp hids
    have hstores : (schedulerFor cfg (cfg.getStoreId found) k (cfg.pluginsMap.lookup k)).storeIDs = ids := by
      show ((cfg.getStoreId found).lookup k).getD [] = ids
      rw [hids]
      rfl
    refine ⟨hstores ▸ hne, ⟨a.interval, ?_⟩, [], 0, ?_, rfl⟩
    · show cfg.getInterval k = some a.interval
      unfold DispatchConfig.getInterval
      rw [ha]
      rfl
    rw [hstores]
    exact length_pos_iff.mpr hne
  · cases hrule

/-- **Crashes of user schedulers.**  No call panics exactly if every store that a call can look up is there. -/
theorem user_scheduler_safe_iff (cfg : DispatchConfig) (maxReplicas : Int) (found updated : Listing)
  (order : List RuleKey) (rule : UserScheduler) (_hok : cfg.ifConflict maxReplicas = false)
  (hord : order.Perm (cfg.getStoreId found).keys)
  (hrule : rule ∈ (produceScheduler cfg found updated order cfg.pluginsMap).2) (r : RegionsInfo) (hr : r.Sound)
  (cl : Classifier) (present : List Nat) : rule.Of rule ∧ (rule.Safe r cl present ↔ rule.Covered r cl present) := by
  obtain ⟨hne, ⟨i, hi⟩, hof⟩ := produced hord hrule
  exact ⟨hof, safe_iff_covered hr hi hne⟩

def globalOnly : Classifier := ⟨["global"], fun _ => "global", fun _ => "global", fun _ _ => true⟩
def fromM : UserScheduler := ⟨.leader 0, [], [1], "6d", "", 0, some ⟨0, 100⟩⟩

def ledFromM : Option RegionsInfo := Runs.exec RegionsInfo.step .new
    [.set (newRegionInfo ⟨1, [], [109], some ⟨1, 1⟩, [⟨11, 1, false⟩]⟩ (some ⟨11, 1, false⟩)),
      .set (newRegionInfo ⟨2, [109], [], some ⟨1, 1⟩, [⟨21, 1, false⟩, ⟨22, 2, false⟩, ⟨23, 3, false⟩]⟩
        (some ⟨23, 3, false⟩))]

lemma ledFromM_sound {r : RegionsInfo} (h : ledFromM = some r) : r.Sound := (RegionsInfo.inv_exec (by decide) h).sound

theorem user_scheduler_safe_iff_led : ∃ r x, ledFromM = some r ∧ x.leaderStore = 3 ∧
  fromM.Misplaced r globalOnly [1, 2, 3] "global" x ∧ fromM.Safe r globalOnly [1, 2, 3] := by
  have heval : ledFromM.map (fun r => (getRegionIDs r "6d" "", (r.getRegion 2).map fun x =>
      (x.leaderStore, x.storeIds))) = some (some [2], some (3, [1, 2, 3])) := by decide +kernel
  obtain ⟨r, hr, he⟩ := map_eq_some_iff.mp heval
  obtain ⟨hids, he⟩ := Prod.mk.inj he
  obtain ⟨x, hx, he⟩ := map_eq_some_iff.mp he
  obtain ⟨hlead, hstores⟩ := Prod.mk.inj he
  have hinside : ∀ p ∈ x.getPeers, globalOnly.here [1, 2, 3] "global" p.storeId := fun p hp =>
    ⟨hstores ▸ List.mem_map_of_mem hp, rfl⟩
  refine ⟨r, x, hr, hlead, ⟨⟨[2], hids, 2, mem_singleton_self 2, hx⟩, ⟨rfl, hinside⟩, by rw [hlead]; decide⟩, ?_⟩
  -- the scheduler looks up the stores 3, the leader's, and 1, the rule's
  refine (user_scheduler_safe_iff (Reload.leaderFile [("6d", "")]) 3 (Reload.leaderRound [("6d", "")]).found
    (Reload.leaderRound [("6d", "")]).updated [.leader 0] fromM (by decide +kernel) (by decide +kernel)
    (by decide +kernel) r (ledFromM_sound hr) globalOnly [1, 2, 3]).2.mpr ?_
  intro ns hns _ _ _ y hy
  obtain ⟨⟨ids, hids', id, hid, hy⟩, -, -⟩ := hy
  cases mem_singleton.mp hns
  cases hids.symm.trans hids'
  cases mem_singleton.mp hid
  cases hx.symm.trans hy
  refine ⟨⟨by rw [hlead]; decide, rfl⟩, fun t ht => ⟨?_, rfl⟩⟩
  cases mem_singleton.mp ht
  decide

def loadedAtM : Option RegionsInfo := (RegionsInfo.new.setRegion
    (newRegionInfo ⟨1, [], [109], some ⟨1, 1⟩, [⟨11, 1, false⟩, ⟨12, 2, false⟩]⟩ none)).bind fun r =>
    (r.1.setRegion (newRegionInfo ⟨2, [109], [], some ⟨1, 1⟩, [⟨21, 1, false⟩, ⟨22, 2, false⟩]⟩ none)).map Prod.fst

theorem leaderless_region_panics : (Reload.leaderFile [("6d", "")]).ifConflict 3 = false ∧
    (produceScheduler (Reload.leaderFile [("6d", "")]) (Reload.leaderRound [("6d", "")]).found
      (Reload.leaderRound [("6d", "")]).updated [.leader 0] (Reload.leaderFile [("6d", "")]).pluginsMap).2 = [fromM] ∧
    loadedAtM.map (fun r => (scheduleByNamespace (clusterIn r .up [1, 2]) globalOnly
      (fun s nc => s.schedule nc (Reload.leaderFile [("6d", "")]).pluginsMap (plainDraws 50)) ["global"]
      fromM).isNone) = some true := by
  decide +kernel

end UserScheduler
end PD
