import PD.Server.RegionHeartbeat
import PD.Lib.Runs

/-! # Store counters -/

namespace PD
open List Option SortedMap RegionMap RegionInfo

structure StoreCounters where
  leaderCount : Nat
  regionCount : Nat
  pendingPeerCount : Nat
  leaderSize : Int
  regionSize : Int
  deriving DecidableEq

def StoreInfo.counters (s : StoreInfo) : StoreCounters :=
  ⟨s.leaderCount, s.regionCount, s.pendingPeerCount, s.leaderSize, s.regionSize⟩

def StoreInfo.setCounters (n : StoreCounters) (s : StoreInfo) : StoreInfo :=
  { s with
    leaderCount := n.leaderCount
    regionCount := n.regionCount
    pendingPeerCount := n.pendingPeerCount
    leaderSize := n.leaderSize
    regionSize := n.regionSize }

namespace RegionsInfo
variable (r : RegionsInfo)

def counters (storeID : Nat) : StoreCounters :=
  ⟨r.getStoreLeaderCount storeID, r.getStoreRegionCount storeID, r.getStorePendingPeerCount storeID,
    r.getStoreLeaderRegionSize storeID, r.getStoreRegionSize storeID⟩

def hasPeerOn (regionID storeID : Nat) : Bool := (r.getRegion regionID).any fun x => decide (storeID ∈ x.storeIds)
def under (role : Role) (s : Nat) : SortedMap Nat RegionInfo := ((r.index role).at s).view

structure Seated (r : RegionsInfo) : Prop extends Keyed r where
  seat : ∀ id x, r.cached.lookup id = some x → ∀ s ∈ x.storeIds,
    ∃ role, role ≠ .pending ∧ ∃ y, (r.under role s).lookup id = some y

section
variable {r r' : RegionsInfo} {s : Nat}
variable {id : Nat} {x region : RegionInfo} {overlaps : List Region}

lemma hasPeerOn_some (h : r.cached.lookup id = some x) : r.hasPeerOn id s = decide (s ∈ x.storeIds) := by
  unfold hasPeerOn
  rw [getRegion_eq, h]
  rfl

lemma hasPeerOn_erase {k : Nat} (hc : r'.cached = r.cached.erase k)
  (h : ∃ x, r'.cached.lookup id = some x) : r'.hasPeerOn id s = r.hasPeerOn id s := by
  obtain ⟨x, hx⟩ := h
  rw [hasPeerOn_some hx]
  rw [hc] at hx
  rw [hasPeerOn_some (lookup_erase_some.mp hx).2]

lemma regionCount_eq (r : RegionsInfo) (s : Nat) : r.getStoreRegionCount s =
  (r.under .leader s).size + (r.under .follower s).size + (r.under .learner s).size := by
  show (r.leaders.at s).len + (r.followers.at s).len + (r.learners.at s).len = _
  rw [len_eq, len_eq, len_eq]
  rfl

lemma counters_congr (h : r.MapsWf) (h' : r'.MapsWf)
  (hseat : ∀ role, role ≠ .pending → r'.under role s = r.under role s)
  (hpending : (r'.under .pending s).size = (r.under .pending s).size) : r'.counters s = r.counters s := by
  have hlen : ∀ role, (r'.under role s).size = (r.under role s).size →
      ((r'.index role).at s).len = ((r.index role).at s).len := by
    intro role e
    rw [len_eq, len_eq]
    exact e
  have hsize : ∀ role, role ≠ .pending → ((r'.index role).at s).getTotalSize = ((r.index role).at s).getTotalSize := by
    intro role hrole
    rw [totalSize_eq (at_wf (h.maps role) s), totalSize_eq (at_wf (h'.maps role) s)]
    exact congrArg _ (congrArg _ (hseat role hrole))
  have hleader : r'.getStoreLeaderCount s = r.getStoreLeaderCount s := hlen .leader (by rw [hseat .leader nofun])
  have hregion : r'.getStoreRegionCount s = r.getStoreRegionCount s := by
    rw [regionCount_eq, regionCount_eq, hseat .leader nofun, hseat .follower nofun, hseat .learner nofun]
  have hpend : r'.getStorePendingPeerCount s = r.getStorePendingPeerCount s := hlen .pending hpending
  have hls : r'.getStoreLeaderRegionSize s = r.getStoreLeaderRegionSize s := hsize .leader nofun
  have hfs : r'.getStoreFollowerRegionSize s = r.getStoreFollowerRegionSize s := hsize .follower nofun
  have hes : r'.getStoreLearnerRegionSize s = r.getStoreLearnerRegionSize s := hsize .learner nofun
  unfold counters getStoreRegionSize
  rw [hleader, hregion, hpend, hls, hfs, hes]

lemma pendingCount_of_counters (h : r'.counters s = r.counters s) :
  (r'.under .pending s).size = (r.under .pending s).size := by
  have e : r'.getStorePendingPeerCount s = r.getStorePendingPeerCount s := congrArg StoreCounters.pendingPeerCount h
  change (r'.pendingPeers.at s).len = (r.pendingPeers.at s).len at e
  rw [len_eq, len_eq] at e
  exact e

lemma removeRegion_seated (h : r.Seated) (hx : r.cached.lookup id = some x) (hr : r.removeRegion x = some r') :
  r'.Seated ∧ r'.cached = r.cached.erase id ∧ ∀ s, (s ∉ x.storeIds → ∀ role, r'.under role s = r.under role s) ∧
    (s ∈ x.storeIds → r'.getStoreRegionCount s < r.getStoreRegionCount s) := by
  have hid : x.getID = id := h.ids id x hx
  obtain ⟨r1, e, hw, _, hc, hv⟩ := removeRegion_index h.wf x
  obtain rfl := some.inj (e.symm.trans hr)
  rw [hid] at hc hv
  have hon : ∀ s ∈ x.storeIds, ∀ role, r1.under role s = (r.under role s).erase id :=
    fun s hs role => (hv role s).trans (if_pos hs)
  have hoff : ∀ s, s ∉ x.storeIds → ∀ role, r1.under role s = r.under role s :=
    fun s hs role => (hv role s).trans (if_neg hs)
  refine ⟨⟨⟨hw, fun k y hy => ?_⟩, fun k y hy s hs => ?_⟩, hc, fun s => ⟨hoff s, fun hs => ?_⟩⟩
  · rw [hc] at hy
    exact h.ids k y (lookup_erase_some.mp hy).2
  · rw [hc] at hy
    obtain ⟨hne, hy⟩ := lookup_erase_some.mp hy
    obtain ⟨role, hrole, z, hz⟩ := h.seat k y hy s hs
    refine ⟨role, hrole, z, ?_⟩
    by_cases hxs : s ∈ x.storeIds
    · rw [hon s hxs role, lookup_erase_of_ne _ hne]
      exact hz
    rw [hoff s hxs role]
    exact hz
  -- the id was under the store in one of the three roles, and is under it in none of them now
  obtain ⟨role, hrole, y, hy⟩ := h.seat id x hx s hs
  have hlt : (r1.under role s).size < (r.under role s).size := by
    rw [hon s hs role, size_erase hy]
    exact Nat.lt_succ_self _
  have hle : ∀ role, (r1.under role s).size ≤ (r.under role s).size := by
    intro role
    rw [hon s hs role]
    exact size_erase_le _ _
  have hleader := hle .leader
  have hfollower := hle .follower
  have hlearner := hle .learner
  rw [regionCount_eq, regionCount_eq]
  cases role with
  | pending => exact absurd rfl hrole
  | _ => omega

lemma evictAll_seated (items : List Region) (h : r.Seated) (he : items.foldlM evict r = some r') : r'.Seated ∧ ∀ s,
  ((∀ o ∈ items, r.hasPeerOn o.id s = false) ∧ ∀ role, r'.under role s = r.under role s) ∨
  ((∃ o ∈ items, r.hasPeerOn o.id s = true) ∧ r'.getStoreRegionCount s < r.getStoreRegionCount s) := by
  induction items generalizing r with
  | nil =>
    cases he
    exact ⟨h, fun s => .inl ⟨fun o ho => absurd ho not_mem_nil, fun _ => rfl⟩⟩
  | cons o items ih =>
    rw [foldlM_cons] at he
    obtain ⟨r1, h1, hrest⟩ := bind_eq_some_iff.mp he
    obtain ⟨x, hx, hrem⟩ := bind_eq_some_iff.mp h1
    rw [getRegion_eq] at hx
    obtain ⟨hs1, hc1, hat⟩ := removeRegion_seated h hx hrem
    obtain ⟨hs', hrun⟩ := ih hs1 hrest
    -- the later items are still cached, so that their peers are those they had at the start
    have hsame : ∀ o' ∈ items, ∀ s, r1.hasPeerOn o'.id s = r.hasPeerOn o'.id s := by
      intro o' ho' s
      exact hasPeerOn_erase hc1 ((evictAll_keyed items hs1.toKeyed hrest).2.2 o' ho').1
    refine ⟨hs', fun s => ?_⟩
    have ho := hasPeerOn_some (s := s) hx
    by_cases hxs : s ∈ x.storeIds
    · have hlt := (hat s).2 hxs
      refine .inr ⟨⟨o, mem_cons_self, by rw [ho]; exact decide_eq_true hxs⟩, ?_⟩
      rcases hrun s with ⟨_, heq⟩ | ⟨_, hlt'⟩
      · rw [regionCount_eq r' s, heq, heq, heq, ← regionCount_eq]
        exact hlt
      · exact hlt'.trans hlt
    have heq1 := (hat s).1 hxs
    have hcount : r1.getStoreRegionCount s = r.getStoreRegionCount s := by
      rw [regionCount_eq, regionCount_eq, heq1, heq1, heq1]
    rcases hrun s with ⟨hno, heq⟩ | ⟨⟨o', ho', hp⟩, hlt⟩
    · refine .inl ⟨fun o' ho' => ?_, fun role => (heq role).trans (heq1 role)⟩
      rcases mem_cons.mp ho' with rfl | ho'
      · rw [ho]
        exact decide_eq_false hxs
      rw [← hsame o' ho']
      exact hno o' ho'
    rw [hcount] at hlt
    exact .inr ⟨⟨o', mem_cons_of_mem _ ho', by rw [← hsame o' ho']; exact hp⟩, hlt⟩

lemma enter_seated (h : r.Seated) : (enter region r).Seated := by
  obtain ⟨hw, _, hc, _⟩ := enter_spec h.wf region
  have hat : ∀ role s, (enter region r).under role s = if region.on role s = true then
      (r.under role s).insert region.getID region else r.under role s := enter_index h.wf region
  refine ⟨⟨hw, fun id x hx => ?_⟩, fun id x hx s hs => ?_⟩
  · rw [hc] at hx
    exact forall_insert (P := fun id (x : RegionInfo) => x.getID = id) rfl h.ids id x hx
  rw [hc] at hx
  rcases lookup_insert_some.mp hx with ⟨rfl, rfl⟩ | ⟨hne, hx⟩
  · obtain ⟨role, hrole, hon⟩ := exists_seat hs
    refine ⟨role, hrole, x, ?_⟩
    rw [hat, if_pos hon]
    exact lookup_insert_self ..
  obtain ⟨role, hrole, y, hy⟩ := h.seat id x hx s hs
  refine ⟨role, hrole, y, ?_⟩
  rw [hat]
  split
  · rw [lookup_insert_of_ne _ _ hne]
    exact hy
  · exact hy

def PendingKept (r : RegionsInfo) (region : RegionInfo) (s : Nat) : Prop :=
  region.on .pending s = true → (r.pendingPeers.at s).get region.getID ≠ none

instance (r : RegionsInfo) (region : RegionInfo) (s : Nat) : Decidable (r.PendingKept region s) :=
  inferInstanceAs (Decidable (_ → _))

lemma counters_of_under (h : r.MapsWf) (h' : r'.MapsWf) (heq : ∀ role, r'.under role s = r.under role s)
  (region : RegionInfo) : r'.counters s = r.counters s ∧ (r'.PendingKept region s ↔ r.PendingKept region s) := by
  refine ⟨counters_congr h h' (fun role _ => heq role) (by rw [heq]), ?_⟩
  unfold PendingKept
  rw [get_eq, get_eq]
  have hview : (r'.pendingPeers.at s).view = (r.pendingPeers.at s).view := heq .pending
  rw [hview]

lemma enter_counters (h : r.Seated) (hs : s ∉ region.storeIds) :
  (enter region r).getStoreRegionCount s = r.getStoreRegionCount s ∧
    ((enter region r).counters s = r.counters s ↔ r.PendingKept region s) := by
  have hat : ∀ role, (enter region r).under role s = if region.on role s = true then
      (r.under role s).insert region.getID region else r.under role s :=
    fun role => enter_index h.wf region role s
  have hseat : ∀ role, role ≠ .pending → (enter region r).under role s = r.under role s := by
    intro role hrole
    rw [hat, if_neg fun hon => hs (mem_of_seat hrole hon)]
  refine ⟨?_, ?_⟩
  · rw [regionCount_eq, regionCount_eq, hseat .leader nofun, hseat .follower nofun, hseat .learner nofun]
  have hget : (r.pendingPeers.at s).get region.getID = (r.under .pending s).lookup region.getID := get_eq _ _
  have hsize : (enter region r).counters s = r.counters s ↔
      ((enter region r).under .pending s).size = (r.under .pending s).size :=
    ⟨pendingCount_of_counters, counters_congr h.wf (enter_spec h.wf region).1 hseat⟩
  unfold PendingKept
  rw [hsize, hat, hget]
  by_cases hon : region.on .pending s = true
  · rw [if_pos hon, size_insert]
    cases hl : (r.under .pending s).lookup region.getID with
    | none =>
      rw [erase_of_lookup_none hl]
      exact ⟨fun e => absurd e (Nat.succ_ne_self _), fun hk => absurd rfl (hk hon)⟩
    | some =>
      rw [size_erase hl]
      exact ⟨fun _ _ => nofun, fun _ => rfl⟩
  rw [if_neg hon]
  exact ⟨fun _ hon' => absurd hon' hon, fun _ => rfl⟩

lemma addRegion_counters (h : r.Seated) (ha : r.addRegion region = some (r', overlaps)) :
  r'.Seated ∧ ∀ s, s ∉ region.storeIds → (r'.counters s = r.counters s ↔
    (∀ o ∈ overlaps, r.hasPeerOn o.id s = false) ∧ r.PendingKept region s) := by
  obtain ⟨r1, h1, e⟩ := map_eq_some_iff.mp ha
  obtain ⟨rfl, rfl⟩ := Prod.mk.inj e
  obtain ⟨hs1, hevict⟩ := evictAll_seated _ (r := { r with tree := (r.tree.update region.getMeta).1 })
    ⟨⟨⟨h.wf.regions, h.wf.maps⟩, h.ids⟩, h.seat⟩ h1
  refine ⟨enter_seated hs1, fun s hs => ?_⟩
  obtain ⟨hcount, hiff⟩ := enter_counters hs1 hs
  rcases hevict s with ⟨hno, heq⟩ | ⟨⟨o, ho, hp⟩, hlt⟩
  · -- no evicted region was here
    obtain ⟨hc, hkept⟩ := counters_of_under h.wf hs1.wf heq region
    rw [← hc, hiff, hkept]
    exact ⟨fun hk => ⟨hno, hk⟩, And.right⟩
  change r.hasPeerOn o.id s = true at hp
  change r1.getStoreRegionCount s < r.getStoreRegionCount s at hlt
  refine ⟨fun e => ?_, fun ⟨hno, _⟩ => ?_⟩
  · have he : (enter region r1).getStoreRegionCount s = r.getStoreRegionCount s := congrArg StoreCounters.regionCount e
    omega
  rw [hno o ho] at hp
  cases hp

lemma setRegion_counters (h : r.Seated) (hset : r.setRegion region = some (r', overlaps)) :
  r'.Seated ∧ ∀ s, s ∉ region.storeIds → (∀ origin, r.getRegion region.getID = some origin → s ∉ origin.storeIds) →
    (r'.counters s = r.counters s ↔
      (∀ o ∈ r.evicted region, r.hasPeerOn o.id s = false) ∧ r.PendingKept region s) := by
  obtain rfl := (setRegion_keyed h.toKeyed hset).2.2.2.1
  unfold setRegion at hset
  cases ho : r.regions.get region.getID with
  | none =>
    rw [ho] at hset
    obtain ⟨hs', hiff⟩ := addRegion_counters h hset
    exact ⟨hs', fun s hs _ => hiff s hs⟩
  | some origin =>
    rw [ho] at hset
    obtain ⟨r1, h1, ha⟩ := bind_eq_some_iff.mp hset
    have hx : r.cached.lookup region.getID = some origin := (get_eq _ _).symm.trans ho
    obtain ⟨hs1, hc1, hat⟩ := removeRegion_seated h hx h1
    obtain ⟨hs', hiff⟩ := addRegion_counters hs1 ha
    have hkept := (addRegion_keyed hs1.toKeyed (by rw [hc1]; exact lookup_erase_self ..) ha).2.2.2.2
    have hsame : ∀ o ∈ r.evicted region, ∀ s, r1.hasPeerOn o.id s = r.hasPeerOn o.id s := by
      intro o ho' s
      exact hasPeerOn_erase hc1 (hkept o ho').1
    refine ⟨hs', fun s hs horigin => ?_⟩
    have heq := (hat s).1 (horigin origin ho)
    obtain ⟨hc, hk⟩ := counters_of_under h.wf hs1.wf heq region
    rw [← hc, hiff s hs, hk]
    exact and_congr_left fun _ => forall_congr' fun o => imp_congr_right fun ho' => by rw [hsame o ho']

end

lemma seated_new : new.Seated where
  wf := ⟨new_wf, fun role s rm h => by cases role <;> cases h⟩
  ids := fun _ _ h => by cases h
  seat := fun _ _ h => by cases h

end RegionsInfo

namespace ClusterInfo

section
variable {V : Type}
variable (c : ClusterInfo V)

def dropRegion (id : Nat) : Option (ClusterInfo V) :=
  match c.regions.getRegion id with
  | none => some c
  | some region => (c.regions.removeRegion region).map fun regions => { c with regions := regions }

inductive RegionCall where
  | heartbeat (hb : Heartbeat)
  | drop (id : Nat)

def regionStep (codec : Codec V) (bad : Key → Bool) (opts : StatisticsOptions) (c : ClusterInfo V) :
    RegionCall → Option (ClusterInfo V)
  | .heartbeat hb => c.heartbeat codec bad opts hb
  | .drop id => c.dropRegion id

def CountersMatch : Prop := ∀ id store, c.stores.lookup id = some store → store.counters = c.regions.counters id

def writesCache (hb : Heartbeat) : Bool :=
  match c.checkHeartbeat hb with
  | .error _ => false
  | .ok call => call.flags.saveCache

def refreshedStores (hb : Heartbeat) : List Nat :=
  ((c.regions.getRegion hb.region.getID).map storeIds).getD [] ++ hb.region.storeIds

def Covered : RegionCall → Prop
  | .heartbeat hb => c.writesCache hb = true → ∀ s ∈ c.stores.keys, s ∉ c.refreshedStores hb →
      (∀ o ∈ c.regions.evicted hb.region, c.regions.hasPeerOn o.id s = false) ∧ c.regions.PendingKept hb.region s
  | .drop id => ∀ s ∈ c.stores.keys, c.regions.hasPeerOn id s = false

instance (c : ClusterInfo V) : ∀ call, Decidable (c.Covered call)
  | .heartbeat hb => inferInstanceAs (Decidable (c.writesCache hb = true → ∀ s ∈ c.stores.keys,
      s ∉ c.refreshedStores hb → (∀ o ∈ c.regions.evicted hb.region,
        c.regions.hasPeerOn o.id s = false) ∧ c.regions.PendingKept hb.region s))
  | .drop id => inferInstanceAs (Decidable (∀ s ∈ c.stores.keys, c.regions.hasPeerOn id s = false))

structure Accounted (c : ClusterInfo V) : Prop where
  stores : ∀ id store, c.stores.lookup id = some store → store.id = id
  regions : c.regions.Seated

variable {codec : Codec V} {bad : Key → Bool} {opts : StatisticsOptions} {c c' : ClusterInfo V}
  {hb : Heartbeat}

lemma updateStoreStatusLocked_lookup (hk : ∀ id store, c.stores.lookup id = some store → store.id = id)
  (id s : Nat) : (c.updateStoreStatusLocked id).stores.lookup s =
    if s = id then (c.stores.lookup s).map (StoreInfo.setCounters (c.regions.counters s)) else c.stores.lookup s := by
  show SortedMap.lookup (StoresInfo.updateStoreStatusLocked _ _ _ _ _ _ _) s = _
  unfold StoresInfo.updateStoreStatusLocked
  split
  next hnone =>
    by_cases e : s = id
    · rw [if_pos e, e, hnone]
      rfl
    · rw [if_neg e]
  next store hstore =>
    have hid : store.id = id := hk id store hstore
    rw [lookup_insert]
    by_cases e : s = id
    · rw [if_pos (e.trans hid.symm), if_pos e, e, hstore]
      rfl
    · rw [if_neg fun e' => e (e'.trans hid), if_neg e]

lemma refreshStores_lookup (hk : ∀ id store, c.stores.lookup id = some store → store.id = id)
  (peers : List Peer) (s : Nat) : (c.refreshStores peers).stores.lookup s =
    if s ∈ peers.map Peer.storeId then (c.stores.lookup s).map (StoreInfo.setCounters (c.regions.counters s))
    else c.stores.lookup s := by
  induction peers generalizing c with
  | nil => rfl
  | cons p peers ih =>
    have hone := updateStoreStatusLocked_lookup hk p.storeId
    have hk' : ∀ id store, (c.updateStoreStatusLocked p.storeId).stores.lookup id = some store → store.id = id := by
      intro id store h
      rw [hone] at h
      split at h
      · obtain ⟨old, hold, rfl⟩ := map_eq_some_iff.mp h
        exact hk id old hold
      · exact hk id store h
    change ((c.updateStoreStatusLocked p.storeId).refreshStores peers).stores.lookup s = _
    rw [ih hk', hone, map_cons]
    change (if _ then Option.map (StoreInfo.setCounters (c.regions.counters s)) _ else _) = _
    by_cases e : s = p.storeId
    · have hmem : s ∈ p.storeId :: peers.map Peer.storeId := by rw [e]; exact mem_cons_self
      rw [if_pos e, if_pos hmem]
      split
      · rw [Option.map_map]
        rfl
      · rfl
    rw [if_neg e]
    by_cases e' : s ∈ peers.map Peer.storeId
    · rw [if_pos e', if_pos (mem_cons_of_mem _ e')]
    · rw [if_neg e', if_neg fun hm => (mem_cons.mp hm).elim e e']

lemma refreshStores_append (c : ClusterInfo V) (ps qs : List Peer) :
    (c.refreshStores ps).refreshStores qs = c.refreshStores (ps ++ qs) := foldl_append.symm

lemma writeCache_stores {call : HeartbeatCall} (hk : ∀ id store, c.stores.lookup id = some store → store.id = id)
  (h : c.writeCache bad call = some c') :
  ∃ overlaps, c.regions.setRegion call.region = some (c'.regions, overlaps) ∧ ∀ s, c'.stores.lookup s =
      if s ∈ (call.origin.map storeIds).getD [] ++ call.region.storeIds then
        (c.stores.lookup s).map (StoreInfo.setCounters (c'.regions.counters s)) else c.stores.lookup s := by
  obtain ⟨set, hset, h'⟩ := bind_eq_some_iff.mp h
  obtain ⟨storage, _, rfl⟩ := map_eq_some_iff.mp h'
  rw [refreshStores_append]
  have hregions : ∀ peers, ((c.afterSet set.1 set.2 storage).refreshStores peers).regions = set.1 := by
    intro peers
    obtain ⟨stores, e⟩ := refreshStores_eq (c.afterSet set.1 set.2 storage) peers
    rw [e]
    rfl
  have hids : (call.origin.map storeIds).getD [] ++ call.region.storeIds =
      ((call.origin.map getPeers).getD [] ++ call.region.getPeers).map Peer.storeId := by
    rw [map_append]
    cases call.origin with
    | _ => rfl
  refine ⟨set.2, by rw [hregions]; exact hset, fun s => ?_⟩
  rw [hregions, hids]
  exact refreshStores_lookup (c := c.afterSet set.1 set.2 storage) hk _ s

lemma heartbeat_cases (hk : ∀ id store, c.stores.lookup id = some store → store.id = id)
  (h : c.heartbeat codec bad opts hb = some c') :
  (c.writesCache hb = false ∧ c'.regions = c.regions ∧ c'.stores = c.stores) ∨
    (c.writesCache hb = true ∧ ∃ overlaps, c.regions.setRegion hb.region = some (c'.regions, overlaps) ∧
      ∀ s, c'.stores.lookup s = if s ∈ c.refreshedStores hb then
        (c.stores.lookup s).map (StoreInfo.setCounters (c'.regions.counters s)) else c.stores.lookup s) := by
  obtain ⟨⟨c1, e⟩, h1, rfl⟩ := map_eq_some_iff.mp h
  rcases handleRegionHeartbeat_some h1 with ⟨err, hcheck, rfl, _⟩ | ⟨_, call, c2, hcheck, hsave, hrest⟩
  · exact .inl ⟨by unfold writesCache; rw [hcheck], rfl, rfl⟩
  have hwrites : c.writesCache hb = call.flags.saveCache := by unfold writesCache; rw [hcheck]
  obtain ⟨hcall, horigin, _⟩ := checkHeartbeat_ok hcheck
  obtain ⟨storage, changed, rfl⟩ := saveHeartbeat_some hsave
  rcases hrest with ⟨hidle, rfl⟩ | ⟨_, hwrite⟩
  · -- an idle call does not write the cache
    refine .inl ⟨?_, rfl, rfl⟩
    rw [hwrites, Bool.eq_false_iff]
    intro hf
    rw [not_idle hf] at hidle
    cases hidle
  obtain ⟨c3, h3, rfl⟩ := map_eq_some_iff.mp hwrite
  rw [hwrites]
  cases hf : call.flags.saveCache with
  | false =>
    rw [if_neg (by rw [hf]; exact Bool.false_ne_true)] at h3
    cases h3
    refine .inl ⟨rfl, ?_, ?_⟩
    · cases call.flags.isNew <;> rfl
    · cases call.flags.isNew <;> rfl
  | true =>
    rw [if_pos hf] at h3
    refine .inr ⟨rfl, ?_⟩
    have hrefreshed : c.refreshedStores hb = (call.origin.map storeIds).getD [] ++ call.region.storeIds := by
      rw [horigin, ← hcall]
      rfl
    rw [hrefreshed, ← hcall]
    -- collecting the region leaves the cache and the stores alone
    have hcollect : ∃ c4 : ClusterInfo V, c4.regions = c.regions ∧ c4.stores = c.stores ∧
        c4.writeCache bad call = some c3 := by
      refine ⟨_, ?_, ?_, h3⟩
      · split <;> rfl
      split <;> rfl
    obtain ⟨c4, hr4, hs4, h4⟩ := hcollect
    rw [← hs4] at hk
    obtain ⟨overlaps, hset, hlook⟩ := writeCache_stores hk h4
    rw [hr4] at hset
    rw [hs4] at hlook
    exact ⟨overlaps, hset, hlook⟩

lemma countersMatch_heartbeat (ha : c.Accounted) (hm : c.CountersMatch)
  (h : c.heartbeat codec bad opts hb = some c') : c'.Accounted ∧ (c'.CountersMatch ↔ c.Covered (.heartbeat hb)) := by
  rcases heartbeat_cases ha.stores h with ⟨hw, hr, hs⟩ | ⟨hw, overlaps, hset, hlook⟩
  · have hc : c'.CountersMatch := by
      unfold CountersMatch
      rw [hr, hs]
      exact hm
    exact ⟨⟨by rw [hs]; exact ha.stores, by rw [hr]; exact ha.regions⟩,
      ⟨fun _ hw' => absurd (hw.symm.trans hw') Bool.false_ne_true, fun _ => hc⟩⟩
  obtain ⟨hseated, hcount⟩ := RegionsInfo.setRegion_counters ha.regions hset
  have hstay : ∀ s, s ∉ c.refreshedStores hb → (c'.regions.counters s = c.regions.counters s ↔
      (∀ o ∈ c.regions.evicted hb.region, c.regions.hasPeerOn o.id s = false) ∧
        c.regions.PendingKept hb.region s) := by
    intro s hs
    refine hcount s (fun hm => hs (mem_append_right _ hm)) fun origin ho hm => hs ?_
    refine mem_append_left _ ?_
    rw [ho]
    exact hm
  refine ⟨⟨fun id store hl => ?_, hseated⟩, fun hm' _ s hs href => ?_, fun hcov id store hl => ?_⟩
  · rw [hlook] at hl
    split at hl
    · obtain ⟨old, hold, rfl⟩ := map_eq_some_iff.mp hl
      exact ha.stores id old hold
    · exact ha.stores id store hl
  · -- the store keeps its counters, so those of the cache have to be the same before and after
    obtain ⟨store, hl⟩ := SortedMap.mem_keys.mp hs
    have hl' : c'.stores.lookup s = some store := by rw [hlook, if_neg href]; exact hl
    exact (hstay s href).mp ((hm' s store hl').symm.trans (hm s store hl))
  rw [hlook] at hl
  by_cases href : id ∈ c.refreshedStores hb
  · rw [if_pos href] at hl
    obtain ⟨old, _, rfl⟩ := map_eq_some_iff.mp hl
    rfl
  rw [if_neg href] at hl
  rw [hm id store hl]
  exact ((hstay id href).mpr (hcov hw id (SortedMap.mem_keys.mpr ⟨store, hl⟩) href)).symm

lemma countersMatch_drop {id : Nat} (ha : c.Accounted) (hm : c.CountersMatch)
  (h : c.dropRegion id = some c') : c'.Accounted ∧ (c'.CountersMatch ↔ c.Covered (.drop id)) := by
  unfold dropRegion at h
  split at h
  next hnone =>
    cases h
    refine ⟨ha, fun _ s _ => ?_, fun _ => hm⟩
    unfold RegionsInfo.hasPeerOn
    rw [hnone]
    rfl
  next region hsome =>
    obtain ⟨r', hr, rfl⟩ := map_eq_some_iff.mp h
    have hx : c.regions.cached.lookup id = some region := (RegionsInfo.getRegion_eq _ _).symm.trans hsome
    obtain ⟨hseated, _, hat⟩ := RegionsInfo.removeRegion_seated ha.regions hx hr
    refine ⟨⟨ha.stores, hseated⟩, fun hm' s hs => ?_, fun hcov s store hl => ?_⟩
    · rw [RegionsInfo.hasPeerOn_some hx]
      refine decide_eq_false fun hmem => ?_
      obtain ⟨store, hl⟩ := SortedMap.mem_keys.mp hs
      have he : r'.getStoreRegionCount s = c.regions.getStoreRegionCount s :=
        congrArg StoreCounters.regionCount ((hm' s store hl).symm.trans (hm s store hl))
      have hlt := (hat s).2 hmem
      omega
    have hoff := hcov s (SortedMap.mem_keys.mpr ⟨store, hl⟩)
    rw [RegionsInfo.hasPeerOn_some hx] at hoff
    rw [hm s store hl]
    exact (RegionsInfo.counters_of_under ha.regions.wf hseated.wf
      ((hat s).1 (of_decide_eq_false hoff)) region).1.symm

end

section
variable {V : Type} (codec : Codec V) (bad : Key → Bool) (opts : StatisticsOptions)

/-- **Store counters** match exactly if each call covers the stores it changes. -/
theorem countersMatch_iff (c : ClusterInfo V) (ha : c.Accounted) (hm : c.CountersMatch) (calls : List RegionCall) :
  Runs.Steps (regionStep codec bad opts) (fun _ _ t => t.CountersMatch) c calls ↔
    Runs.Steps (regionStep codec bad opts) (fun s call _ => s.Covered call) c calls := by
  refine Runs.steps_iff (fun s => s.Accounted ∧ s.CountersMatch) (fun s call t hs ht => ?_) ⟨ha, hm⟩
  have hone : t.Accounted ∧ (t.CountersMatch ↔ s.Covered call) := by
    cases call with
    | heartbeat => exact countersMatch_heartbeat hs.1 hs.2 ht
    | drop => exact countersMatch_drop hs.1 hs.2 ht
  exact ⟨hone.2, fun hm' => ⟨hone.1, hm'⟩⟩

end

lemma new_matches {V : Type} {stores : StoresInfo} (hk : ∀ id store, stores.lookup id = some store → store.id = id)
  (hz : ∀ id store, stores.lookup id = some store → store.counters = ⟨0, 0, 0, 0, 0⟩) (storage : Option (Storage V))
  (regionStats : Option RegionStatistics) : (newClusterInfo stores storage regionStats).Accounted ∧
    (newClusterInfo stores storage regionStats).CountersMatch :=
  ⟨⟨hk, RegionsInfo.seated_new⟩, hz⟩

def idleStore (id : Nat) : StoreInfo := ⟨id, .up, 0, 0, 0, 0, 0⟩

def twoStores : ClusterInfo Region := newClusterInfo ((SortedMap.empty.insert 1 (idleStore 1)).insert 2 (idleStore 2))
    (some ⟨.empty, none, false⟩) none

def reportOn (id version : Nat) (stores : List Nat) : Heartbeat :=
  ⟨⟨⟨id, [], [], some ⟨1, version⟩, stores.map fun s => ⟨10 * id + s, s, false⟩⟩,
    stores.head?.map fun s => ⟨10 * id + s, s, false⟩, [], [], 0, 0, 10, 100⟩, false, false⟩

lemma twoStores_matches : twoStores.Accounted ∧ twoStores.CountersMatch := by
  have hall : ∀ id store, twoStores.stores.lookup id = some store → store = idleStore id := by
    intro id store h
    refine forall_insert (P := fun id store => store = idleStore id) rfl ?_ id store h
    exact forall_insert (P := fun id store => store = idleStore id) rfl nofun
  exact new_matches (fun id store h => by rw [hall id store h]; rfl)
    (fun id store h => by rw [hall id store h]; rfl) _ _

theorem countersMatch_iff_replaced :
  Runs.Steps (regionStep Codec.plain noFaults plainOptions) (fun _ _ t => t.CountersMatch) twoStores
    [.heartbeat (reportOn 1 1 [1]), .heartbeat (reportOn 2 2 [2, 1]), .drop 7] := by
  refine (countersMatch_iff Codec.plain noFaults plainOptions twoStores twoStores_matches.1
    twoStores_matches.2 _).mpr ?_
  have hok : Runs.Along (regionStep Codec.plain noFaults plainOptions) Covered twoStores
      [.heartbeat (reportOn 1 1 [1]), .heartbeat (reportOn 2 2 [2, 1]), .drop 7] := by decide +kernel
  exact Runs.steps_of_inv (fun _ => True) (fun _ _ _ _ hcov _ => ⟨trivial, hcov⟩) trivial hok

def firstCounters (c : ClusterInfo Region) : Option StoreCounters × StoreCounters :=
  ((c.stores.lookup 1).map StoreInfo.counters, c.regions.counters 1)

lemma not_match_of_firstCounters {c : ClusterInfo Region} {n n' : StoreCounters}
  (h : firstCounters c = (some n, n')) (hne : n ≠ n') : ¬ c.CountersMatch := by
  intro hm
  obtain ⟨h1, h2⟩ := Prod.mk.inj h
  obtain ⟨store, hl, hn⟩ := map_eq_some_iff.mp h1
  exact hne (hn.symm.trans ((hm 1 store hl).trans h2))

/-- store `1` still counts its only region after the drop of the region, and after the report of another
region on store `2` that covers it -/
theorem dropped_region_still_counted : (∃ c, Runs.exec (regionStep Codec.plain noFaults plainOptions) twoStores
      [.heartbeat (reportOn 1 1 [1]), .drop 1] = some c ∧
    firstCounters c = (some ⟨1, 1, 0, 10, 10⟩, ⟨0, 0, 0, 0, 0⟩) ∧ ¬ c.CountersMatch) ∧
  ∃ c, Runs.exec (regionStep Codec.plain noFaults plainOptions) twoStores
      [.heartbeat (reportOn 1 1 [1]), .heartbeat (reportOn 2 2 [2])] = some c ∧
    firstCounters c = (some ⟨1, 1, 0, 10, 10⟩, ⟨0, 0, 0, 0, 0⟩) ∧ ¬ c.CountersMatch := by
  have hdrop : (Runs.exec (regionStep Codec.plain noFaults plainOptions) twoStores
      [.heartbeat (reportOn 1 1 [1]), .drop 1]).map firstCounters =
        some (some ⟨1, 1, 0, 10, 10⟩, ⟨0, 0, 0, 0, 0⟩) := by decide +kernel
  have hcover : (Runs.exec (regionStep Codec.plain noFaults plainOptions) twoStores
      [.heartbeat (reportOn 1 1 [1]), .heartbeat (reportOn 2 2 [2])]).map firstCounters =
        some (some ⟨1, 1, 0, 10, 10⟩, ⟨0, 0, 0, 0, 0⟩) := by decide +kernel
  obtain ⟨c, hc, hn⟩ := map_eq_some_iff.mp hdrop
  obtain ⟨d, hd, hn'⟩ := map_eq_some_iff.mp hcover
  exact ⟨⟨c, hc, hn, not_match_of_firstCounters hn (by decide)⟩,
    d, hd, hn', not_match_of_firstCounters hn' (by decide)⟩

end ClusterInfo
end PD
