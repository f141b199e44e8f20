import PD.Core.RegionsInfo
import PD.Core.Storage
import PD.Statistics.RegionCollection

/-! # Region heartbeats -/

namespace PD
open Option

inductive HeartbeatError where
  | regionIsStale (region origin : Region)
  | zeroPeerCount (region : Region)
  deriving DecidableEq

structure PrepareChecker where
  reactiveRegions : SortedMap Nat Nat
  sum : Nat

def PrepareChecker.collect (checker : PrepareChecker) (region : RegionInfo) : PrepareChecker where
  reactiveRegions := region.getPeers.foldl (fun m p =>
    m.insert p.storeId ((m.lookup p.storeId).getD 0 + 1)) checker.reactiveRegions
  sum := checker.sum + 1

structure ClusterInfo (V : Type) where
  regions : RegionsInfo
  stores : StoresInfo
  storage : Option (Storage V)
  regionStats : Option RegionStatistics
  labelLevelStats : LabelLevelStatistics
  prepareChecker : PrepareChecker
  changedRegions : List RegionInfo

def defaultChangedRegionsLimit : Nat := 10000

def newClusterInfo {V : Type} (stores : StoresInfo) (storage : Option (Storage V))
  (regionStats : Option RegionStatistics) : ClusterInfo V :=
  ⟨.new, stores, storage, regionStats, .new, ⟨.empty, 0⟩, []⟩

structure HeartbeatFlags where
  saveKV : Bool
  saveCache : Bool
  isNew : Bool
  deriving DecidableEq

structure Heartbeat where
  region : RegionInfo
  isWriteUpdate : Bool
  isReadUpdate : Bool

structure HeartbeatCall extends Heartbeat where
  origin : Option RegionInfo
  flags : HeartbeatFlags

def HeartbeatCall.idle (call : HeartbeatCall) : Bool :=
  !call.isWriteUpdate && !call.isReadUpdate && !call.flags.saveCache && !call.flags.isNew

def heartbeatFlags (region origin : RegionInfo) : HeartbeatFlags :=
  let versionChanged := decide (region.getMeta.getVersion > origin.getMeta.getVersion)
  let confVerChanged := decide (region.getMeta.getConfVer > origin.getMeta.getConfVer)
  let leaderChanged := decide (region.leaderId ≠ origin.leaderId)
  let peersChanged := decide (region.getPeers.length ≠ origin.getPeers.length)
  { saveKV := versionChanged || confVerChanged || peersChanged
    saveCache := versionChanged || confVerChanged || leaderChanged ||
      decide (region.downPeers.length > 0) || decide (region.pendingPeers.length > 0) ||
      decide (origin.downPeers.length > 0) || decide (origin.pendingPeers.length > 0) || peersChanged ||
      decide (region.approximateSize ≠ origin.approximateSize) ||
      decide (region.approximateKeys ≠ origin.approximateKeys)
    isNew := leaderChanged && decide (origin.leaderId = 0) }

def isStale (region origin : Region) : Bool :=
  decide (region.getVersion < origin.getVersion) || decide (region.getConfVer < origin.getConfVer)

namespace ClusterInfo

section
variable {V : Type} (codec : Codec V) (bad : Key → Bool) (opts : StatisticsOptions)
variable (c : ClusterInfo V)

def checkHeartbeat (hb : Heartbeat) : Except HeartbeatError HeartbeatCall :=
  match c.regions.getRegion hb.region.getID with
  | none =>
    match (c.regions.getOverlaps hb.region).find? fun item =>
        decide (hb.region.getMeta.getVersion < item.getVersion) with
    | some item => .error (.regionIsStale hb.region.getMeta item)
    | none => .ok { hb with origin := none, flags := ⟨true, true, true⟩ }
  | some origin =>
    if isStale hb.region.getMeta origin.getMeta then
      .error (.regionIsStale hb.region.getMeta origin.getMeta)
    else .ok { hb with origin := some origin, flags := heartbeatFlags hb.region origin }

variable (call : HeartbeatCall)

def saveHeartbeat : Option (ClusterInfo V) :=
  if call.flags.saveKV then
    match c.storage with
    | none => some c
    | some storage => (storage.saveRegion codec bad call.region.getMeta).map fun saved =>
        { c with
          storage := some saved.1
          changedRegions := if c.changedRegions.length < defaultChangedRegionsLimit then
            c.changedRegions ++ [call.region] else c.changedRegions }
  else some c

def updateStoreStatusLocked (c : ClusterInfo V) (id : Nat) : ClusterInfo V :=
  let stores := c.stores.updateStoreStatusLocked id (c.regions.getStoreLeaderCount id)
    (c.regions.getStoreRegionCount id) (c.regions.getStorePendingPeerCount id)
    (c.regions.getStoreLeaderRegionSize id) (c.regions.getStoreRegionSize id)
  { c with stores := stores }

def takeRegionStoresLocked (region : RegionInfo) : List StoreInfo :=
  region.getPeers.filterMap fun p => c.stores.lookup p.storeId

def deleteOverlap (s : Storage V) (item : Region) : Option (Storage V) := (s.deleteRegion bad item).map Prod.fst

def deleteOverlaps (storage : Option (Storage V)) (overlaps : List Region) : Option (Option (Storage V)) :=
  match storage with
  | none => some none
  | some s => (overlaps.foldlM (deleteOverlap bad) s).map some

def afterSet (regions : RegionsInfo) (overlaps : List Region) (storage : Option (Storage V)) : ClusterInfo V :=
  { c with
    regions := regions
    storage := storage
    regionStats := c.regionStats.map fun r =>
      overlaps.foldl (fun r item => r.clearDefunctRegion item.id) r
    labelLevelStats := overlaps.foldl (fun l item => l.clearDefunctRegion item.id) c.labelLevelStats }

def refreshStores (peers : List Peer) : ClusterInfo V := peers.foldl (fun c p => c.updateStoreStatusLocked p.storeId) c

def writeCache : Option (ClusterInfo V) := (c.regions.setRegion call.region).bind fun set =>
  (deleteOverlaps bad c.storage set.2).map fun storage =>
    ((c.afterSet set.1 set.2 storage).refreshStores
      ((call.origin.map RegionInfo.getPeers).getD [])).refreshStores call.region.getPeers

def observe (c : ClusterInfo V) (region : RegionInfo) : ClusterInfo V :=
  { c with regionStats := c.regionStats.map fun r =>
      r.observe opts region (c.takeRegionStoresLocked region) }

def writeHeartbeat : Option (ClusterInfo V) :=
  let c := if call.flags.isNew then
    { c with prepareChecker := c.prepareChecker.collect call.region } else c
  (if call.flags.saveCache then c.writeCache bad call else some c).map fun c =>
    c.observe opts call.region

def handleRegionHeartbeat (hb : Heartbeat) : Option (ClusterInfo V × Option HeartbeatError) :=
  match c.checkHeartbeat hb with
  | .error e => some (c, some e)
  | .ok call => (c.saveHeartbeat codec bad call).bind fun c =>
    if call.idle then some (c, none) else (c.writeHeartbeat bad opts call).map fun c => (c, none)

def raftHandleRegionHeartbeat (hb : Heartbeat) : Option (ClusterInfo V × Option HeartbeatError) :=
  (c.handleRegionHeartbeat codec bad opts hb).map fun result =>
    match result.2 with
    | some e => (result.1, some e)
    | none =>
      if hb.region.getPeers.length = 0 then (result.1, some (.zeroPeerCount hb.region.getMeta))
      else (result.1, none)

end

section
variable {V : Type} {codec : Codec V} {bad : Key → Bool} {opts : StatisticsOptions}
  {c c' : ClusterInfo V} {hb : Heartbeat} {call : HeartbeatCall}

lemma checkHeartbeat_ok (h : c.checkHeartbeat hb = .ok call) :
  call.toHeartbeat = hb ∧ call.origin = c.regions.getRegion hb.region.getID ∧
    ((c.regions.getRegion hb.region.getID = none ∧ call.flags = ⟨true, true, true⟩ ∧
        ∀ item ∈ c.regions.getOverlaps hb.region, item.getVersion ≤ hb.region.getMeta.getVersion) ∨
      ∃ origin, c.regions.getRegion hb.region.getID = some origin ∧ isStale hb.region.getMeta origin.getMeta = false ∧
        call.flags = heartbeatFlags hb.region origin) := by
  unfold checkHeartbeat at h
  split at h
  next hnone =>
    split at h
    · cases h
    next hfind =>
      cases h
      refine ⟨rfl, hnone.symm, .inl ⟨hnone, rfl, fun item hi => ?_⟩⟩
      have hlt := List.find?_eq_none.mp hfind item hi
      rw [decide_eq_true_eq] at hlt
      exact not_lt.mp hlt
  next origin hsome =>
    split at h
    · cases h
    next hst =>
      cases h
      exact ⟨rfl, hsome.symm, .inr ⟨origin, hsome, Bool.eq_false_iff.mpr hst, rfl⟩⟩

lemma not_stale {region origin : Region} (h : isStale region origin = false) :
  origin.getVersion ≤ region.getVersion ∧ origin.getConfVer ≤ region.getConfVer := by
  unfold isStale at h
  rw [Bool.or_eq_false_iff, decide_eq_false_iff_not, decide_eq_false_iff_not] at h
  exact ⟨not_lt.mp h.1, not_lt.mp h.2⟩

lemma saveHeartbeat_some (h : c.saveHeartbeat codec bad call = some c') :
  ∃ storage changed, c' = { c with storage := storage, changedRegions := changed } := by
  unfold saveHeartbeat at h
  split at h
  · split at h
    · cases h
      exact ⟨c.storage, c.changedRegions, rfl⟩
    obtain ⟨saved, _, rfl⟩ := map_eq_some_iff.mp h
    exact ⟨_, _, rfl⟩
  cases h
  exact ⟨c.storage, c.changedRegions, rfl⟩

lemma refreshStores_eq (c : ClusterInfo V) (peers : List Peer) :
  ∃ stores, c.refreshStores peers = { c with stores := stores } := by
  induction peers generalizing c with
  | nil => exact ⟨c.stores, rfl⟩
  | cons p _ ih => exact ih (c.updateStoreStatusLocked p.storeId)

lemma writeCache_some (h : c.writeCache bad call = some c') :
  ∃ overlaps, c.regions.setRegion call.region = some (c'.regions, overlaps) ∧
    deleteOverlaps bad c.storage overlaps = some c'.storage := by
  obtain ⟨set, hset, h'⟩ := bind_eq_some_iff.mp h
  obtain ⟨storage, hdel, rfl⟩ := map_eq_some_iff.mp h'
  obtain ⟨s1, e1⟩ := refreshStores_eq (c.afterSet set.1 set.2 storage)
    ((call.origin.map RegionInfo.getPeers).getD [])
  rw [e1]
  obtain ⟨s2, e2⟩ := refreshStores_eq { c.afterSet set.1 set.2 storage with stores := s1 }
    call.region.getPeers
  rw [e2]
  exact ⟨set.2, hset, hdel⟩

lemma writeHeartbeat_some (h : c.writeHeartbeat bad opts call = some c') :
  (call.flags.saveCache = false ∧ c'.regions = c.regions ∧ c'.storage = c.storage) ∨
    (call.flags.saveCache = true ∧ ∃ overlaps, c.regions.setRegion call.region = some (c'.regions, overlaps) ∧
        deleteOverlaps bad c.storage overlaps = some c'.storage) := by
  obtain ⟨c1, h1, rfl⟩ := map_eq_some_iff.mp h
  -- collecting the region leaves the cache and the storage alone
  have hcollect : ∀ b : Bool, (if b then
      { c with prepareChecker := c.prepareChecker.collect call.region } else c).regions = c.regions ∧
      (if b then { c with prepareChecker := c.prepareChecker.collect call.region } else c).storage =
        c.storage := fun b => by cases b <;> exact ⟨rfl, rfl⟩
  obtain ⟨hr, hs⟩ := hcollect call.flags.isNew
  cases hf : call.flags.saveCache with
  | false =>
    rw [if_neg (by rw [hf]; exact Bool.false_ne_true)] at h1
    cases h1
    exact .inl ⟨rfl, hr, hs⟩
  | true =>
    rw [if_pos hf] at h1
    obtain ⟨overlaps, hset, hdel⟩ := writeCache_some h1
    rw [hr] at hset
    rw [hs] at hdel
    exact .inr ⟨rfl, overlaps, hset, hdel⟩

lemma handleRegionHeartbeat_some {e : Option HeartbeatError}
  (h : c.handleRegionHeartbeat codec bad opts hb = some (c', e)) :
  (∃ err, c.checkHeartbeat hb = .error err ∧ c' = c ∧ e = some err) ∨
    (e = none ∧ ∃ call c1, c.checkHeartbeat hb = .ok call ∧ c.saveHeartbeat codec bad call = some c1 ∧
      ((call.idle = true ∧ c' = c1) ∨ (call.idle = false ∧ c1.writeHeartbeat bad opts call = some c'))) := by
  unfold handleRegionHeartbeat at h
  split at h
  next err herr =>
    cases h
    exact .inl ⟨err, herr, rfl, rfl⟩
  next call hcall =>
    obtain ⟨c1, h1, h2⟩ := bind_eq_some_iff.mp h
    split at h2
    next hidle =>
      cases h2
      exact .inr ⟨rfl, call, c', hcall, h1, .inl ⟨hidle, rfl⟩⟩
    next hidle =>
      obtain ⟨c2, h3, e2⟩ := map_eq_some_iff.mp h2
      cases e2
      exact .inr ⟨rfl, call, c1, hcall, h1, .inr ⟨Bool.eq_false_iff.mpr hidle, h3⟩⟩

lemma flags_of_saveCache {region origin : RegionInfo} (h : (heartbeatFlags region origin).saveCache = false) :
  (heartbeatFlags region origin).saveKV = false ∧ (heartbeatFlags region origin).isNew = false := by
  simp only [heartbeatFlags, Bool.or_eq_false_iff, Bool.and_eq_false_iff] at h ⊢
  tauto

lemma not_idle (hf : call.flags.saveCache = true) : call.idle = false := by
  unfold HeartbeatCall.idle
  rw [hf]
  simp

lemma accepted_cases (h : c.handleRegionHeartbeat codec bad opts hb = some (c', none)) :
  (c'.regions = c.regions ∧ c'.storage = c.storage ∧ ∃ origin, c.regions.getRegion hb.region.getID = some origin ∧
      isStale hb.region.getMeta origin.getMeta = false ∧ (heartbeatFlags hb.region origin).saveCache = false) ∨
    ∃ call c1 overlaps, c.checkHeartbeat hb = .ok call ∧ call.region = hb.region ∧
      call.flags.saveCache = true ∧ c.saveHeartbeat codec bad call = some c1 ∧
      c.regions.setRegion hb.region = some (c'.regions, overlaps) ∧
      deleteOverlaps bad c1.storage overlaps = some c'.storage := by
  rcases handleRegionHeartbeat_some h with ⟨_, _, _, he⟩ | ⟨_, call, c1, hcall, hsave, hrest⟩
  · cases he
  obtain ⟨hhb, _, hcases⟩ := checkHeartbeat_ok hcall
  have hregion : call.region = hb.region := by rw [← hhb]
  cases hf : call.flags.saveCache with
  | false =>
    -- without `saveCache` the region is cached, and neither storage nor cache is written
    refine .inl ?_
    rcases hcases with ⟨_, hflags, _⟩ | ⟨origin, ho, hst, hflags⟩
    · rw [hflags] at hf
      cases hf
    rw [hflags] at hf
    have hc1 : c1 = c := by
      unfold saveHeartbeat at hsave
      rw [hflags, if_neg (by rw [(flags_of_saveCache hf).1]; exact Bool.false_ne_true)] at hsave
      exact (Option.some.inj hsave).symm
    subst hc1
    rcases hrest with ⟨_, rfl⟩ | ⟨_, hwrite⟩
    · exact ⟨rfl, rfl, origin, ho, hst, hf⟩
    rcases writeHeartbeat_some hwrite with ⟨_, hr, hs⟩ | ⟨hf', _⟩
    · exact ⟨hr, hs, origin, ho, hst, hf⟩
    rw [hflags, hf] at hf'
    cases hf'
  | true =>
    obtain ⟨storage, changed, rfl⟩ := saveHeartbeat_some hsave
    rcases hrest with ⟨hidle, _⟩ | ⟨_, hwrite⟩
    · rw [not_idle hf] at hidle
      cases hidle
    rcases writeHeartbeat_some hwrite with ⟨hf', _⟩ | ⟨_, overlaps, hset, hdel⟩
    · rw [hf] at hf'
      cases hf'
    rw [hregion] at hset
    exact .inr ⟨call, _, overlaps, hcall, hregion, hf, hsave, hset, hdel⟩

lemma rejected_eq {e : HeartbeatError}
  (h : c.handleRegionHeartbeat codec bad opts hb = some (c', some e)) : c' = c := by
  rcases handleRegionHeartbeat_some h with ⟨_, _, hc, _⟩ | ⟨he, _⟩
  · exact hc
  · cases he

end

section
variable {V : Type} (codec : Codec V) (bad : Key → Bool) (opts : StatisticsOptions)

def heartbeat (c : ClusterInfo V) (hb : Heartbeat) : Option (ClusterInfo V) :=
  (c.handleRegionHeartbeat codec bad opts hb).map Prod.fst

variable {codec bad opts} {c c' : ClusterInfo V} {hb : Heartbeat}

lemma heartbeat_regions (h : c.heartbeat codec bad opts hb = some c') :
  c'.regions = c.regions ∨ ∃ call overlaps, c.checkHeartbeat hb = .ok call ∧ call.flags.saveCache = true ∧
    c.regions.setRegion hb.region = some (c'.regions, overlaps) := by
  obtain ⟨⟨c1, e⟩, h1, rfl⟩ := map_eq_some_iff.mp h
  cases e with
  | some =>
    obtain rfl := rejected_eq h1
    exact .inl rfl
  | none =>
    rcases accepted_cases h1 with ⟨heq, _⟩ | ⟨call, _, overlaps, hcall, _, hcache, _, hset, _⟩
    · exact .inl heq
    · exact .inr ⟨call, overlaps, hcall, hcache, hset⟩

lemma sound_heartbeat (hs : c.regions.Sound) (hr : hb.region.getMeta.Nonempty)
  (h : c.heartbeat codec bad opts hb = some c') : c'.regions.Sound := by
  rcases heartbeat_regions h with heq | ⟨_, _, _, _, hset⟩
  · rw [heq]
    exact hs
  obtain ⟨r', e', hs', _⟩ := RegionsInfo.setRegion_sound hs hr
  obtain ⟨rfl, _⟩ := Prod.mk.inj (Option.some.inj (e'.symm.trans hset))
  exact hs'

lemma keyed_heartbeat (hk : c.regions.Keyed) (h : c.heartbeat codec bad opts hb = some c') : c'.regions.Keyed := by
  rcases heartbeat_regions h with heq | ⟨_, _, _, _, hset⟩
  · rw [heq]
    exact hk
  · exact (RegionsInfo.setRegion_keyed hk hset).1

end

def report (id : Nat) (startKey endKey : Key) (version : Nat) : Heartbeat :=
  ⟨⟨⟨id, startKey, endKey, some ⟨1, version⟩, [⟨10 * id, 1, false⟩]⟩, some ⟨10 * id, 1, false⟩, [], [],
    0, 0, 10, 100⟩, false, false⟩

def plainOptions : StatisticsOptions := ⟨fun _ => 3, fun _ => "", fun _ => ""⟩
def emptyCluster : ClusterInfo Region := newClusterInfo .empty (some ⟨.empty, none, false⟩) none

end ClusterInfo
end PD
