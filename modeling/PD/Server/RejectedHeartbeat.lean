import PD.Core.RegionCache
import PD.Server.RegionHeartbeat

/-! # Rejected heartbeats -/

namespace PD
open Option SortedMap RegionsInfo

lemma RegionsInfo.setRegion_again {r r' : RegionsInfo} {region : RegionInfo} {overlaps : List Region}
  (h : r.Keyed) (ho : r.regions.get region.getID = some region) (hp : region.getPeers = [])
  (hev : r.evicted region = []) (hs : r.setRegion region = some (r', overlaps)) :
  r'.tree = (r.tree.remove region.getMeta).replaceOrInsert region.getMeta ∧ r'.cached = r.cached ∧
    ∀ role s, ((r'.index role).at s).view = if region.on role s = true then
      ((r.index role).at s).view.insert region.getID region else ((r.index role).at s).view := by
  obtain ⟨regions, hd, _, hview⟩ := RegionMap.delete_spec h.wf.regions region.getID
  have hrem : r.removeRegion region = some { r with tree := r.tree.remove region.getMeta, regions := regions } := by
    unfold removeRegion
    rw [hd, hp]
    rfl
  have hov : (r.tree.remove region.getMeta).getOverlaps region.getMeta = [] := by
    unfold evicted at hev
    rw [ho] at hev
    exact hev
  unfold setRegion at hs
  rw [ho] at hs
  change (r.removeRegion region).bind _ = _ at hs
  rw [hrem, bind_some] at hs
  unfold addRegion RegionTree.update at hs
  simp only [hov, List.foldl_nil] at hs
  obtain ⟨rfl, _⟩ := Prod.mk.inj (some.inj hs)
  obtain ⟨ht, hg, hi⟩ := enter_eq region { r with
    tree := (r.tree.remove region.getMeta).replaceOrInsert region.getMeta
    regions := regions }
  have hlook : r.cached.lookup region.getID = some region := (getRegion_eq _ _).symm.trans ho
  refine ⟨ht, ?_, fun role s => ?_⟩
  · show (enter region _).regions.view = r.cached
    rw [hg, RegionMap.view_put]
    rw [hview]
    show (r.cached.erase region.getID).insert region.getID region = r.cached
    rw [insert_erase, insert_of_lookup hlook]
  rw [hi role]
  show (StoreIndex.at ((storesOf region role).foldl (StoreIndex.put region) (r.index role)) s).view = _
  rw [(foldl_put_spec _ (h.wf.maps role) region).2 s]
  simp only [mem_storesOf]

namespace ClusterInfo

section
variable {V : Type}

structure Unchanged (c c' : ClusterInfo V) : Prop where
  tree : c'.regions.tree = c.regions.tree
  cached : c'.regions.cached = c.regions.cached
  indexes : ∀ role s, ((c'.regions.index role).at s).view = ((c.regions.index role).at s).view
  storage : c'.storage = c.storage
  stores : c'.stores = c.stores
  regionStats : c'.regionStats = c.regionStats
  labelLevelStats : c'.labelLevelStats = c.labelLevelStats

def Stale (c : ClusterInfo V) (region : RegionInfo) : Prop :=
  match c.regions.getRegion region.getID with
  | none => ∃ item ∈ c.regions.getOverlaps region, region.getMeta.getVersion < item.getVersion
  | some origin => isStale region.getMeta origin.getMeta = true

structure Entered (c : ClusterInfo V) (region : RegionInfo) : Prop where
  cached : c.regions.getRegion region.getID = some region
  alone : c.regions.evicted region = []
  tree : region.getMeta ∈ c.regions.tree.items
  indexes : ∀ role s, region.on role s = true → ((c.regions.index role).at s).get region.getID = some region

def Settled (opts : StatisticsOptions) (c : ClusterInfo V) (hb : Heartbeat) : Prop :=
  ∃ origin, c.regions.getRegion hb.region.getID = some origin ∧
    ((heartbeatFlags hb.region origin).saveCache = true → c.Entered hb.region) ∧
    ((heartbeatFlags hb.region origin).saveCache = true ∨ hb.isWriteUpdate = true ∨ hb.isReadUpdate = true →
      ∀ stats, c.regionStats = some stats → stats.Recorded opts hb.region [])

variable {codec : Codec V} {bad : Key → Bool} {opts : StatisticsOptions} {c c' : ClusterInfo V}
  {hb : Heartbeat} {call : HeartbeatCall}
variable {region : RegionInfo} {c1 : ClusterInfo V}

lemma Unchanged.refl (c : ClusterInfo V) : Unchanged c c := ⟨rfl, rfl, fun _ _ => rfl, rfl, rfl, rfl, rfl⟩

lemma stale_iff : Stale c hb.region ↔ ∃ e, c.checkHeartbeat hb = .error e := by
  unfold Stale checkHeartbeat
  cases c.regions.getRegion hb.region.getID with
  | none =>
    cases hf : (c.regions.getOverlaps hb.region).find? fun item =>
        decide (hb.region.getMeta.getVersion < item.getVersion) with
    | none =>
      constructor
      · intro h
        obtain ⟨item, hi, hlt⟩ := h
        exact absurd (decide_eq_true hlt) (List.find?_eq_none.mp hf item hi)
      intro h
      obtain ⟨e, he⟩ := h
      cases he
    | some item =>
      have hlt : hb.region.getMeta.getVersion < item.getVersion := by simpa using List.find?_some hf
      exact ⟨fun _ => ⟨_, rfl⟩, fun _ => ⟨item, List.mem_of_find?_eq_some hf, hlt⟩⟩
  | some origin =>
    cases hst : isStale hb.region.getMeta origin.getMeta with
    | _ => simp [hst]

lemma write_observe (hf : call.flags.saveCache = false) (h : c.writeHeartbeat bad opts call = some c') :
  ∃ checker, c' = ClusterInfo.observe opts { c with prepareChecker := checker } call.region := by
  unfold writeHeartbeat at h
  rw [hf] at h
  cases hn : call.flags.isNew with
  | false =>
    rw [hn] at h
    exact ⟨c.prepareChecker, (some.inj h).symm⟩
  | true =>
    rw [hn] at h
    exact ⟨_, (some.inj h).symm⟩

lemma write_alone (hf : call.flags.saveCache = true) (hp : call.region.getPeers = [])
    (ho : (call.origin.map RegionInfo.getPeers).getD [] = []) (h : c.writeHeartbeat bad opts call = some c') :
    ∃ checker regions overlaps storage, c.regions.setRegion call.region = some (regions, overlaps) ∧
      deleteOverlaps bad c.storage overlaps = some storage ∧
      c' = ClusterInfo.observe opts ({ c with prepareChecker := checker }.afterSet regions overlaps storage)
        call.region := by
  have hcache : ∀ c1 c2 : ClusterInfo V, c1.writeCache bad call = some c2 →
      ∃ regions overlaps storage, c1.regions.setRegion call.region = some (regions, overlaps) ∧
        deleteOverlaps bad c1.storage overlaps = some storage ∧
        c2 = c1.afterSet regions overlaps storage := by
    intro c1 c2 h1
    obtain ⟨set, hset, h2⟩ := bind_eq_some_iff.mp h1
    obtain ⟨storage, hdel, rfl⟩ := map_eq_some_iff.mp h2
    refine ⟨set.1, set.2, storage, hset, hdel, ?_⟩
    rw [hp, ho]
    rfl
  unfold writeHeartbeat at h
  rw [hf] at h
  obtain ⟨c2, h2, rfl⟩ := map_eq_some_iff.mp h
  rw [if_pos rfl] at h2
  cases hn : call.flags.isNew with
  | false =>
    rw [hn] at h2
    obtain ⟨regions, overlaps, storage, hset, hdel, rfl⟩ := hcache _ _ h2
    exact ⟨c.prepareChecker, regions, overlaps, storage, hset, hdel, rfl⟩
  | true =>
    rw [hn] at h2
    obtain ⟨regions, overlaps, storage, hset, hdel, rfl⟩ := hcache _ _ h2
    exact ⟨_, regions, overlaps, storage, hset, hdel, rfl⟩

lemma observe_stats {stats : Option RegionStatistics} : stats.map (fun r => r.observe opts region []) = stats ↔
    ∀ r, stats = some r → r.Recorded opts region [] := by
  cases stats with
  | none => exact ⟨fun _ _ h => (by cases h), fun _ => rfl⟩
  | some r =>
    rw [map_some, Option.some.injEq, RegionStatistics.observe_eq_self]
    exact ⟨fun h r' e => some.inj e ▸ h, fun h => h r rfl⟩

lemma take_none (hp : region.getPeers = []) : c.takeRegionStoresLocked region = [] := by
  unfold takeRegionStoresLocked
  rw [hp]
  rfl

lemma observe_regionStats (opts : StatisticsOptions) (c : ClusterInfo V) (hp : region.getPeers = []) :
  (ClusterInfo.observe opts c region).regionStats = c.regionStats.map fun r => r.observe opts region [] := by
  unfold ClusterInfo.observe
  rw [take_none hp]

lemma save_none (hf : call.flags.saveKV = false) (h : c.saveHeartbeat codec bad call = some c') : c' = c := by
  unfold saveHeartbeat at h
  rw [hf] at h
  exact (some.inj h).symm

lemma saveKV_self (region : RegionInfo) : (heartbeatFlags region region).saveKV = false := by
  unfold heartbeatFlags
  simp

lemma deleteOverlaps_nil (storage : Option (Storage V)) : deleteOverlaps bad storage [] = some storage := by
  cases storage with
  | _ => rfl

lemma unchanged_observe_iff (hp : call.region.getPeers = []) (hf : call.flags.saveCache = false)
  (h : c.writeHeartbeat bad opts call = some c') :
  Unchanged c c' ↔ ∀ stats, c.regionStats = some stats → stats.Recorded opts call.region [] := by
  obtain ⟨checker, rfl⟩ := write_observe hf h
  rw [← observe_stats]
  refine ⟨fun hu => ?_, fun hs => ⟨rfl, rfl, fun _ _ => rfl, rfl, rfl, ?_, rfl⟩⟩
  · rw [← observe_regionStats opts { c with prepareChecker := checker } hp]
    exact hu.regionStats
  rw [observe_regionStats opts _ hp]
  exact hs

lemma same_of_unchanged (hk : c.regions.Keyed) (hf : call.flags.saveCache = true)
  (hsave : c.saveHeartbeat codec bad call = some c1) (h : c1.writeHeartbeat bad opts call = some c')
  (hu : Unchanged c c') :
  c.regions.getRegion call.region.getID = some call.region ∧ c.regions.evicted call.region = [] := by
  obtain ⟨storage, changed, rfl⟩ := saveHeartbeat_some hsave
  rcases writeHeartbeat_some h with ⟨hf', _⟩ | ⟨_, overlaps, hset, _⟩
  · rw [hf] at hf'
    cases hf'
  obtain ⟨_, hcur, _, hov, hgone⟩ := setRegion_keyed hk hset
  rw [hu.cached] at hcur
  refine ⟨(getRegion_eq _ _).trans hcur, ?_⟩
  rw [← hov]
  refine List.eq_nil_iff_forall_not_mem.mpr fun o hmem => ?_
  obtain ⟨⟨x, hx⟩, hnone⟩ := hgone o hmem
  rw [hu.cached, hx] at hnone
  cases hnone

section
variable (hk : c.regions.Keyed) (ho : c.regions.getRegion call.region.getID = some call.region)
  (hev : c.regions.evicted call.region = []) (horigin : call.origin = some call.region)
  (hp : call.region.getPeers = []) (hf : call.flags.saveCache = true) (h : c.writeHeartbeat bad opts call = some c')
include hk ho hev horigin hp hf h

lemma write_again :
  c'.regions.tree = (c.regions.tree.remove call.region.getMeta).replaceOrInsert call.region.getMeta ∧
    c'.regions.cached = c.regions.cached ∧
    (∀ role s, ((c'.regions.index role).at s).view = if call.region.on role s = true then
      ((c.regions.index role).at s).view.insert call.region.getID call.region
      else ((c.regions.index role).at s).view) ∧ c'.storage = c.storage ∧ c'.stores = c.stores ∧
    c'.regionStats = (c.regionStats.map fun r => r.observe opts call.region []) ∧
    c'.labelLevelStats = c.labelLevelStats := by
  obtain ⟨checker, regions, overlaps, storage, hset, hdel, rfl⟩ := write_alone hf hp
    (by rw [horigin]; exact hp) h
  obtain ⟨_, _, _, hov, _⟩ := setRegion_keyed hk hset
  obtain ⟨ht, hc, hv⟩ := setRegion_again hk ho hp hev hset
  rw [hev] at hov
  subst hov
  rw [deleteOverlaps_nil] at hdel
  cases hdel
  refine ⟨ht, hc, hv, rfl, rfl, ?_, rfl⟩
  rw [observe_regionStats opts _ hp]
  show Option.map _ (Option.map _ c.regionStats) = _
  rw [Option.map_map]
  rfl

lemma unchanged_again_iff : Unchanged c c' ↔ c.Entered call.region ∧
    ∀ stats, c.regionStats = some stats → stats.Recorded opts call.region [] := by
  obtain ⟨ht, hc, hv, hstorage, hstores, hstats, hlabels⟩ := write_again hk ho hev horigin hp hf h
  rw [← observe_stats]
  constructor
  · intro hu
    refine ⟨⟨ho, hev, ?_, fun role s hon => ?_⟩, hstats.symm.trans hu.regionStats⟩
    · rw [RegionTree.mem_items, ← hu.tree, ht]
      exact lookup_insert_self ..
    rw [RegionMap.get_eq, ← hu.indexes role s, hv role s, if_pos hon]
    exact lookup_insert_self ..
  intro ⟨hent, hrec⟩
  refine ⟨?_, hc, fun role s => ?_, hstorage, hstores, hstats.trans hrec, hlabels⟩
  · rw [ht, RegionTree.remove_replaceOrInsert hent.tree]
  rw [hv role s]
  split
  next hon =>
    refine insert_of_lookup ?_
    rw [← RegionMap.get_eq]
    exact hent.indexes role s hon
  · rfl

end

lemma unchanged_write_iff (hk : c.regions.Keyed) {origin : RegionInfo}
  (ho : c.regions.getRegion call.region.getID = some origin) (horigin : call.origin = some origin)
  (hp : call.region.getPeers = []) (hf : call.flags.saveCache = true)
  (hflags : call.flags = heartbeatFlags call.region origin)
  (hsave : c.saveHeartbeat codec bad call = some c1) (h : c1.writeHeartbeat bad opts call = some c') :
  Unchanged c c' ↔ c.Entered call.region ∧
    ∀ stats, c.regionStats = some stats → stats.Recorded opts call.region [] := by
  -- on either side the region that the call has read is the reported one, and nothing is saved
  have hiff : c.regions.getRegion call.region.getID = some call.region →
      c.regions.evicted call.region = [] → (Unchanged c c' ↔ c.Entered call.region ∧
        ∀ stats, c.regionStats = some stats → stats.Recorded opts call.region []) := by
    intro ho' hev
    obtain rfl := some.inj (ho.symm.trans ho')
    obtain rfl := save_none (by rw [hflags]; exact saveKV_self _) hsave
    exact unchanged_again_iff hk ho hev horigin hp hf h
  constructor
  · intro hu
    obtain ⟨ho', hev⟩ := same_of_unchanged hk hf hsave h hu
    exact (hiff ho' hev).mp hu
  intro hent
  exact (hiff hent.1.cached hent.1.alone).mpr hent

lemma unchanged_iff_settled (hk : c.regions.Keyed) (hp : hb.region.getPeers = [])
  (h : c.handleRegionHeartbeat codec bad opts hb = some (c', none)) : Unchanged c c' ↔ Settled opts c hb := by
  rcases handleRegionHeartbeat_some h with ⟨_, _, _, he⟩ | ⟨_, call, c1, hcall, hsave, hrest⟩
  · cases he
  obtain ⟨rfl, horigin, hcases⟩ := checkHeartbeat_ok hcall
  rcases hcases with ⟨hnone, hflags, _⟩ | ⟨origin, ho, _, hflags⟩
  · -- a new region is cached afterwards
    refine ⟨fun hu => ?_, fun ⟨origin, ho, _⟩ => by rw [hnone] at ho; cases ho⟩
    obtain ⟨storage, changed, rfl⟩ := saveHeartbeat_some hsave
    rcases hrest with ⟨hidle, _⟩ | ⟨_, hwrite⟩
    · rw [not_idle (by rw [hflags])] at hidle
      cases hidle
    rcases writeHeartbeat_some hwrite with ⟨hf, _⟩ | ⟨_, overlaps, hset, _⟩
    · rw [hflags] at hf
      cases hf
    obtain ⟨_, hcur, _⟩ := setRegion_keyed hk hset
    rw [hu.cached] at hcur
    rw [getRegion_eq, hcur] at hnone
    cases hnone
  cases hf : call.flags.saveCache with
  | false =>
    have hf' : (heartbeatFlags call.region origin).saveCache = false := by rw [← hflags]; exact hf
    obtain ⟨hkv, hnew⟩ := flags_of_saveCache hf'
    obtain rfl := save_none (by rw [hflags]; exact hkv) hsave
    rcases hrest with ⟨hidle, rfl⟩ | ⟨hidle, hwrite⟩
    · refine ⟨fun _ => ⟨origin, ho, fun hs => ?_, fun hor => ?_⟩, fun _ => Unchanged.refl _⟩
      · rw [hf'] at hs
        cases hs
      unfold HeartbeatCall.idle at hidle
      rw [hf'] at hor
      simp only [Bool.and_eq_true, Bool.not_eq_true'] at hidle
      rw [hidle.1.1.1, hidle.1.1.2] at hor
      simp at hor
    have hflow : call.isWriteUpdate = true ∨ call.isReadUpdate = true := by
      unfold HeartbeatCall.idle at hidle
      rw [hflags, hf', hnew] at hidle
      simp only [Bool.not_false, Bool.and_true, Bool.and_eq_false_iff, Bool.not_eq_false'] at hidle
      exact hidle
    rw [unchanged_observe_iff hp hf hwrite]
    refine ⟨fun hrec => ⟨origin, ho, fun hs => ?_, fun _ => hrec⟩, fun ⟨origin', ho', _, hrec⟩ => hrec (.inr hflow)⟩
    rw [hf'] at hs
    cases hs
  | true =>
    have hf' : (heartbeatFlags call.region origin).saveCache = true := by rw [← hflags]; exact hf
    rcases hrest with ⟨hidle, _⟩ | ⟨_, hwrite⟩
    · rw [not_idle hf] at hidle
      cases hidle
    rw [unchanged_write_iff hk ho (horigin.trans ho) hp hf hflags hsave hwrite]
    constructor
    · intro ⟨hent, hrec⟩
      exact ⟨origin, ho, fun _ => hent, fun _ => hrec⟩
    intro ⟨origin', ho', hent, hrec⟩
    obtain rfl := some.inj (ho.symm.trans ho')
    exact ⟨hent hf', hrec (.inl hf')⟩

/-- **A rejected heartbeat changes nothing exactly when** the region has peers, or is stale, or finds
everything settled. -/
theorem rejected_unchanged_iff (c : ClusterInfo V) (hk : c.regions.Keyed) (hb : Heartbeat)
  {e : Option HeartbeatError} (h : c.raftHandleRegionHeartbeat codec noFaults opts hb = some (c', e)) :
  (e ≠ none → Unchanged c c') ↔ hb.region.getPeers ≠ [] ∨ Stale c hb.region ∨ Settled opts c hb := by
  obtain ⟨⟨c1, inner⟩, hin, hres⟩ := map_eq_some_iff.mp h
  cases inner with
  | some =>
    cases hres
    obtain rfl := rejected_eq hin
    rcases handleRegionHeartbeat_some hin with ⟨err', herr, _⟩ | ⟨hnone, _⟩
    · exact ⟨fun _ => .inr (.inl (stale_iff.mpr ⟨err', herr⟩)), fun _ _ => Unchanged.refl _⟩
    · cases hnone
  | none =>
    have hfresh : ¬ Stale c hb.region := by
      rw [stale_iff]
      intro ⟨err, herr⟩
      unfold handleRegionHeartbeat at hin
      rw [herr] at hin
      cases hin
    by_cases hp : hb.region.getPeers = []
    · rw [if_pos (by rw [hp]; rfl)] at hres
      cases hres
      rw [← unchanged_iff_settled hk hp hin]
      refine ⟨fun hu => .inr (.inr (hu (some_ne_none _))), fun hor _ => ?_⟩
      exact (hor.resolve_left fun hne => hne hp).resolve_left hfresh
    rw [if_neg (fun hlen => hp (List.length_eq_zero_iff.mp hlen))] at hres
    cases hres
    exact ⟨fun _ => .inl hp, fun _ hne => absurd rfl hne⟩

theorem rejected_unchanged_stale :
  ∃ c c' e, emptyCluster.heartbeat Codec.plain noFaults plainOptions (report 1 [] [] 2) = some c ∧
    c.raftHandleRegionHeartbeat Codec.plain noFaults plainOptions (report 1 [] [] 1) =
      some (c', some e) ∧ Unchanged c c' := by
  have hrun : ((emptyCluster.heartbeat Codec.plain noFaults plainOptions (report 1 [] [] 2)).bind fun c =>
      (c.raftHandleRegionHeartbeat Codec.plain noFaults plainOptions (report 1 [] [] 1)).map fun r =>
        r.2.isSome) = some true := by decide +kernel
  obtain ⟨c, hc, hmap⟩ := bind_eq_some_iff.mp hrun
  obtain ⟨⟨c', e⟩, h, he⟩ := map_eq_some_iff.mp hmap
  obtain ⟨e, rfl⟩ := isSome_iff_exists.mp he
  have hk : c.regions.Keyed := keyed_heartbeat (c := emptyCluster) sound_new.toKeyed hc
  exact ⟨c, c', e, hc, h, (rejected_unchanged_iff c hk _ h).mpr (.inl (by decide))
    (some_ne_none e)⟩

def bare : Heartbeat := ⟨⟨⟨1, [], [], some ⟨1, 1⟩, []⟩, none, [], [], 0, 0, 10, 100⟩, false, false⟩

theorem rejected_region_cached : ∃ c', emptyCluster.raftHandleRegionHeartbeat Codec.plain noFaults plainOptions bare =
    some (c', some (.zeroPeerCount bare.region.getMeta)) ∧ c'.regions.getRegion 1 = some bare.region ∧
  (c'.storage.map fun s => s.base.values) = some [bare.region.getMeta] ∧ ¬ Unchanged emptyCluster c' := by
  have hrun : (emptyCluster.raftHandleRegionHeartbeat Codec.plain noFaults plainOptions bare).map
      (fun r => (r.2, r.1.regions.getRegion 1, r.1.storage.map fun s => s.base.values)) =
      some (some (.zeroPeerCount bare.region.getMeta), some bare.region,
        some [bare.region.getMeta]) := by decide +kernel
  obtain ⟨⟨c', e⟩, h, he⟩ := map_eq_some_iff.mp hrun
  simp only [Prod.mk.injEq] at he
  obtain ⟨rfl, hreg, hst⟩ := he
  refine ⟨c', h, hreg, hst, fun hu => ?_⟩
  have hcur : c'.regions.cached.lookup 1 = some bare.region := (getRegion_eq _ _).symm.trans hreg
  rw [hu.cached] at hcur
  cases hcur

end
end ClusterInfo
end PD
