import Mathlib.Data.List.TakeWhile
import PD.Core.Paging
import PD.Schedule.CreateOperator
import PD.Server.StoreCounters

/-! # The cluster of a key range -/

namespace PD
open List Option RegionsInfo
namespace RangeCluster

def scanLimit : Int := 128

def collectPage (endKey : Key) : List (Option RegionInfo) → RegionsInfo → Key → Option (RegionsInfo × Key × Bool)
  | [], regions, scanKey => some (regions, scanKey, false)
  | none :: _, _, _ => none
  | some r :: collect, regions, scanKey =>
    if r.getMeta.startKey < endKey then
      (regions.setRegion r).bind fun (regions, _) =>
        if r.getMeta.endKey = [] then some (regions, scanKey, true)
        else collectPage endKey collect regions r.getMeta.endKey
    else some (regions, scanKey, true)

def collectLoop (cluster : RegionsInfo) (endKey : Key) : Nat → Key → RegionsInfo → Option RegionsInfo
  | 0, _, _ => none
  | fuel + 1, scanKey, regions =>
    (cluster.scanRange scanKey scanLimit).bind fun collect =>
      if collect.isEmpty then some regions
      else (collectPage endKey collect regions scanKey).bind fun (regions, scanKey, loopEnd) =>
        if loopEnd then some regions else collectLoop cluster endKey fuel scanKey regions

def genRangeCluster (cluster : RegionsInfo) (startKey endKey : Key) (fuel : Nat) : Option RegionsInfo :=
  collectLoop cluster endKey fuel startKey .new

section
variable {c regions : RegionsInfo} {done pre post page : List RegionInfo} {x : RegionInfo} {key startKey endKey : Key}

structure Part (c : RegionsInfo) (done : List RegionInfo) (regions : RegionsInfo) : Prop where
  inv : regions.Inv
  sub : ∀ x ∈ done, x ∈ c.ordered
  cached : ∀ id x, regions.getRegion id = some x ↔ x ∈ done ∧ x.getID = id

lemma part_new : Part c [] .new := ⟨inv_new, by simp, fun id x => ⟨nofun, fun h => absurd h.1 not_mem_nil⟩⟩

lemma Part.setRegion (h : Part c done regions) (hc : c.Inv) (hx : x ∈ c.ordered) :
  ∃ regions' overlaps, regions.setRegion x = some (regions', overlaps) ∧ Part c (done ++ [x]) regions' := by
  have hself := getRegion_ordered hc.sound hx
  rw [getRegion_eq] at hself
  have hrange := hc.sound.range _ x hself
  obtain ⟨regions', hset, hsound, hcached, hindexed⟩ := setRegion_sound h.inv.sound hrange
  refine ⟨regions', _, hset, ⟨hsound, hindexed h.inv.indexed (hc.indexed.pending _ x hself)⟩, ?_, ?_⟩
  · intro y hy
    rcases mem_append.mp hy with hy | hy
    · exact h.sub y hy
    · exact mem_singleton.mp hy ▸ hx
  intro id y
  rw [getRegion_eq, hcached, lookup_setCached h.inv.sound hrange, ← getRegion_eq, h.cached, mem_append, mem_singleton]
  constructor
  · rintro (⟨rfl, rfl⟩ | ⟨-, ⟨hy, hid⟩, -⟩)
    · exact ⟨.inr rfl, rfl⟩
    · exact ⟨.inl hy, hid⟩
  rintro ⟨hy | rfl, rfl⟩
  · by_cases hid : y.getID = x.getID
    · have hyc := getRegion_ordered hc.sound (h.sub y hy)
      rw [getRegion_eq, hid, hself] at hyc
      exact .inl ⟨hid, (some.inj hyc).symm⟩
    refine .inr ⟨hid, ⟨hy, rfl⟩, fun hov => hid ?_⟩
    exact (congrArg Region.id (RegionTree.eq_of_overlaps hc.sound.tiles
      (getMeta_mem_items hc.sound hx) (getMeta_mem_items hc.sound (h.sub y hy)) hov)).symm
  · exact .inl ⟨rfl, rfl⟩

lemma collectPage_spec (hc : c.Inv) (hl : c.ordered = pre ++ (page ++ post)) (h : Part c done regions)
  (endKey key : Key) :
  ∃ regions' key' loopEnd, collectPage endKey (page.map some) regions key = some (regions', key', loopEnd) ∧
    Part c (done ++ page.takeWhile (·.getMeta.startKey < endKey)) regions' ∧
    (loopEnd = true → (page ++ post).takeWhile (·.getMeta.startKey < endKey) =
      page.takeWhile (·.getMeta.startKey < endKey)) ∧
    (loopEnd = false → (page.takeWhile (·.getMeta.startKey < endKey) = page) ∧
      (page = [] → key' = key) ∧ ∀ last ∈ page.getLast?, last.getMeta.endKey ≠ [] ∧ key' = last.getMeta.endKey) := by
  induction page generalizing pre done regions key with
  | nil => exact ⟨regions, key, false, rfl, by simpa using h, nofun, by simp⟩
  | cons x page ih =>
    rw [map_cons, collectPage]
    by_cases hlt : x.getMeta.startKey < endKey
    · have hx : x ∈ c.ordered := by rw [hl]; simp
      obtain ⟨_, _, hset, hpart⟩ := h.setRegion hc hx
      rw [if_pos hlt, hset, bind_some, takeWhile_cons_of_pos (by simpa using hlt)]
      have hl' : c.ordered = pre ++ x :: (page ++ post) := hl
      by_cases hend : x.getMeta.endKey = []
      · obtain ⟨rfl, rfl⟩ := append_eq_nil_iff.mp (last_of_end hc.sound hl' hend)
        refine ⟨_, key, true, if_pos hend, hpart, fun _ => ?_, nofun⟩
        simp [hlt]
      obtain ⟨regions', key', loopEnd, hrun, hpart', hstop, hgo⟩ :=
        ih (hl'.trans (append_cons ..)) hpart x.getMeta.endKey
      refine ⟨regions', key', loopEnd, (if_neg hend).trans hrun, ?_, fun e => ?_, fun e => ?_⟩
      · rwa [append_assoc] at hpart'
      · rw [cons_append, takeWhile_cons_of_pos (by simpa using hlt), hstop e]
      obtain ⟨hall, hnil, hlast⟩ := hgo e
      refine ⟨congrArg (x :: ·) hall, nofun, ?_⟩
      cases page with
      | nil =>
        intro last hx
        cases hx
        exact ⟨hend, hnil rfl⟩
      | cons => rwa [List.getLast?_cons_cons]
    refine ⟨regions, key, true, if_neg hlt, ?_, fun _ => ?_, nofun⟩
    · simpa [hlt] using h
    · simp [hlt]

lemma mem_takeWhile_startKey {l : List RegionInfo}
  (h : l.Pairwise fun x y => x.getMeta.startKey < y.getMeta.startKey) :
  x ∈ l.takeWhile (·.getMeta.startKey < endKey) ↔ x ∈ l ∧ x.getMeta.startKey < endKey := by
  induction l with
  | nil => simp
  | cons y l ih =>
    obtain ⟨hy, hl⟩ := pairwise_cons.mp h
    by_cases hlt : y.getMeta.startKey < endKey
    · rw [takeWhile_cons_of_pos (by simpa using hlt), mem_cons, mem_cons, ih hl]
      constructor
      · rintro (rfl | ⟨hx, hend⟩)
        · exact ⟨.inl rfl, hlt⟩
        · exact ⟨.inr hx, hend⟩
      rintro ⟨rfl | hx, hend⟩
      · exact .inl rfl
      · exact .inr ⟨hx, hend⟩
    rw [takeWhile_cons_of_neg (by simpa using hlt), mem_cons]
    refine ⟨fun hx => absurd hx not_mem_nil, fun ⟨hx, hend⟩ => absurd hend ?_⟩
    rcases hx with rfl | hx
    · exact hlt
    · exact fun hend => hlt ((hy x hx).trans hend)

lemma collectLoop_spec (hc : c.Inv) (endKey : Key) (h : Part c done regions) {fuel : Nat}
  (hfuel : (c.startingAt key).length < fuel) : ∃ regions', collectLoop c endKey fuel key regions = some regions' ∧
    Part c (done ++ (c.startingAt key).takeWhile (·.getMeta.startKey < endKey)) regions' := by
  induction fuel generalizing key done regions with
  | zero => omega
  | succ fuel ih =>
    obtain ⟨pre, hpre⟩ := startingAt_suffix hc.sound key
    have hsplit := take_append_drop scanLimit.toNat (c.startingAt key)
    have hlen : (c.startingAt key).take scanLimit.toNat = [] → c.startingAt key = [] := by
      intro hnil
      exact (take_eq_nil_iff.mp hnil).resolve_left (by decide)
    rw [collectLoop, scanRange_startingAt hc.sound key (by decide), bind_some]
    generalize (c.startingAt key).take scanLimit.toNat = page at *
    generalize (c.startingAt key).drop scanLimit.toNat = post at *
    rw [← hsplit] at hpre hfuel hlen ⊢
    split
    next hempty =>
      rw [hlen (by simpa using hempty)]
      exact ⟨regions, rfl, by simpa using h⟩
    next hne =>
      obtain ⟨regions', key', loopEnd, hpage, hpart, hstop, hgo⟩ := collectPage_spec hc hpre h endKey key
      rw [hpage, bind_some]
      cases loopEnd with
      | true => exact ⟨regions', rfl, by rwa [hstop rfl]⟩
      | false =>
        obtain ⟨hall, -, hlast⟩ := hgo rfl
        cases page using List.reverseRecOn with
        | nil => simp at hne
        | append_singleton front last _ =>
          obtain ⟨hend, rfl⟩ := hlast last (by simp)
          -- the scan goes on after the last region of the page
          have hordered : c.ordered = (pre ++ front) ++ last :: post := by rw [hpre]; simp
          have hrest := filter_end hc.sound hordered hend
          have hlt : (c.startingAt last.getMeta.endKey).length < fuel := by
            rw [hrest]
            simp at hfuel
            omega
          obtain ⟨final, hrun, hfinal⟩ := ih hpart hlt
          refine ⟨final, hrun, ?_⟩
          rw [takeWhile_append_of_pos (takeWhile_eq_self_iff.mp hall)]
          rwa [hrest, hall, append_assoc] at hfinal

lemma genRangeCluster_spec (hc : c.Inv) (startKey endKey : Key) {fuel : Nat} (hfuel : c.tree.length < fuel) :
  ∃ range, genRangeCluster c startKey endKey fuel = some range ∧ range.Inv ∧ ∀ id x, range.getRegion id = some x ↔
      c.getRegion id = some x ∧ startKey ≤ x.getMeta.startKey ∧ x.getMeta.startKey < endKey := by
  obtain ⟨range, hrun, hpart⟩ := collectLoop_spec hc endKey part_new
    ((length_startingAt_le hc.sound startKey).trans_lt hfuel)
  refine ⟨range, hrun, hpart.inv, fun id x => ?_⟩
  rw [hpart.cached, nil_append, RegionsInfo.startingAt,
    mem_takeWhile_startKey ((ordered_sorted hc.sound).filter _), mem_filter, mem_ordered hc.sound, decide_eq_true_eq]
  constructor
  · rintro ⟨⟨⟨⟨id', hx⟩, hstart⟩, hend⟩, rfl⟩
    rw [RegionsInfo.getID_of_getRegion hc.sound hx]
    exact ⟨hx, hstart, hend⟩
  rintro ⟨hx, hstart, hend⟩
  exact ⟨⟨⟨⟨id, hx⟩, hstart⟩, hend⟩, RegionsInfo.getID_of_getRegion hc.sound hx⟩

end
end RangeCluster

structure RangeStore extends StoreInfo where
  capacity : Nat
  usedSize : Nat
  available : Nat

structure RangeCluster where
  stores : SortedMap Nat RangeStore
  keyed : ∀ id s, stores.lookup id = some s → s.id = id
  regions : RegionsInfo
  amplified : Int → Nat → Nat

namespace RangeCluster
variable (r : RangeCluster)

def updateStoreInfo (s : RangeStore) : RangeStore :=
  if s.usedSize = 0 then s
  else { s with
    toStoreInfo := s.setCounters (r.regions.counters s.id)
    usedSize := r.amplified s.regionSize s.usedSize * 2 ^ 20 % 2 ^ 64
    available := (s.capacity + 2 ^ 64 - s.usedSize) % 2 ^ 64 }

def getStore (id : Nat) : Option RangeStore := r.stores.lookup id
def getStores : List RangeStore := r.stores.values.map r.updateStoreInfo

variable (region : RegionInfo)

def getRegionStores : List RangeStore := region.storeIds.filterMap r.stores.lookup
def getFollowerStores : List RangeStore := (regionFollowerIDs region).filterMap r.stores.lookup
def getLeaderStore : Option RangeStore := r.stores.lookup region.leaderStore

def Returned (s : RangeStore) : Prop := (∃ id, r.getStore id = some s) ∨
    ∃ region, s ∈ r.getRegionStores region ∨ s ∈ r.getFollowerStores region ∨ r.getLeaderStore region = some s

def Agrees (s : RangeStore) : Prop := ∀ t ∈ r.getStores, t.id = s.id → s.counters = t.counters

variable {r : RangeCluster} {s : RangeStore}

lemma updateStoreInfo_id (r : RangeCluster) (s : RangeStore) : (r.updateStoreInfo s).id = s.id := by
  unfold updateStoreInfo
  split <;> rfl

lemma updateStoreInfo_counters (r : RangeCluster) (s : RangeStore) :
  (r.updateStoreInfo s).counters = if s.usedSize = 0 then s.counters else r.regions.counters s.id := by
  unfold updateStoreInfo
  split <;> rfl

lemma Returned.stored (h : r.Returned s) : r.stores.lookup s.id = some s := by
  have hkey : ∀ id, r.stores.lookup id = some s → r.stores.lookup s.id = some s := fun id hs =>
    (r.keyed id s hs).symm ▸ hs
  have hmem : ∀ ids : List Nat, s ∈ ids.filterMap r.stores.lookup → r.stores.lookup s.id = some s := by
    intro ids hs
    obtain ⟨id, -, hs⟩ := mem_filterMap.mp hs
    exact hkey id hs
  rcases h with ⟨id, hs⟩ | ⟨region, hs | hs | hs⟩
  · exact hkey id hs
  · exact hmem _ hs
  · exact hmem _ hs
  · exact hkey _ hs

/-- **The views agree** exactly on unused stores and equal counters. -/
theorem store_views_agree_iff (r : RangeCluster) (s : RangeStore) (h : r.Returned s) :
  r.Agrees s ↔ s.usedSize = 0 ∨ s.counters = r.regions.counters s.id := by
  have hmem : r.updateStoreInfo s ∈ r.getStores := List.mem_map_of_mem (SortedMap.mem_values.mpr ⟨s.id, h.stored⟩)
  constructor
  · intro hagrees
    have heq := hagrees _ hmem (updateStoreInfo_id r s)
    rw [updateStoreInfo_counters] at heq
    split at heq
    next hused => exact .inl hused
    · exact .inr heq
  intro hsame t ht hid
  obtain ⟨s', hs', rfl⟩ := List.mem_map.mp ht
  obtain ⟨id', hs'⟩ := SortedMap.mem_values.mp hs'
  rw [updateStoreInfo_id] at hid
  rw [← r.keyed id' s' hs', hid, h.stored] at hs'
  cases hs'
  rw [updateStoreInfo_counters]
  split
  · rfl
  next hused => exact hsame.resolve_left hused

def oneStore (c range : RegionsInfo) : RangeCluster where
  stores := .insert .empty 1 ⟨StoreInfo.setCounters (c.counters 1) ⟨1, .up, 0, 0, 0, 0, 0⟩, 2 ^ 30, 2 ^ 20, 0⟩
  keyed := fun id s h => by
    rcases SortedMap.lookup_insert_some.mp h with ⟨rfl, rfl⟩ | ⟨-, h⟩
    · rfl
    · cases h
  regions := range
  amplified := fun _ _ => 1

def ledByOne : RegionInfo := newRegionInfo ⟨1, [], [], none, [⟨11, 1, false⟩]⟩ (some ⟨11, 1, false⟩)

theorem store_views_agree_iff_one : ∃ c range s, Runs.exec RegionsInfo.step .new [.set ledByOne] = some c ∧
  genRangeCluster c [] [10] 2 = some range ∧ (oneStore c range).getStore 1 = some s ∧ s.usedSize ≠ 0 ∧
  s.regionCount = 1 ∧ (oneStore c range).Agrees s := by
  have hrun : ((Runs.exec RegionsInfo.step .new [.set ledByOne]).bind fun c =>
      (genRangeCluster c [] [10] 2).map fun range =>
        (c.getStoreRegionCount 1, decide (c.counters 1 = range.counters 1))) = some (1, true) := by decide +kernel
  obtain ⟨c, hc, hrun⟩ := bind_eq_some_iff.mp hrun
  obtain ⟨range, hrange, hcounts⟩ := map_eq_some_iff.mp hrun
  obtain ⟨hone, hsame⟩ := Prod.mk.inj hcounts
  exact ⟨c, range, _, hc, hrange, rfl, show 2 ^ 20 ≠ 0 by decide, hone,
    (store_views_agree_iff (oneStore c range) _ (.inl ⟨1, rfl⟩)).mpr (.inr (of_decide_eq_true hsame))⟩

/-- `GetStore` counts the region, `GetStores` does not: it starts outside the range. -/
theorem store_views_differ : ∃ c range s t, Runs.exec RegionsInfo.step .new [.set ledByOne] = some c ∧
  genRangeCluster c [9] [10] 2 = some range ∧ (oneStore c range).getStore 1 = some s ∧
  t ∈ (oneStore c range).getStores ∧ t.id = s.id ∧ s.regionCount = 1 ∧ t.regionCount = 0 := by
  have hrun : ((Runs.exec RegionsInfo.step .new [.set ledByOne]).bind fun c =>
      (genRangeCluster c [9] [10] 2).map fun range => (c.getStoreRegionCount 1, range.getStoreRegionCount 1)) =
      some (1, 0) := by decide +kernel
  obtain ⟨c, hc, hrun⟩ := bind_eq_some_iff.mp hrun
  obtain ⟨range, hrange, hcounts⟩ := map_eq_some_iff.mp hrun
  obtain ⟨hone, hzero⟩ := Prod.mk.inj hcounts
  exact ⟨c, range, _, _, hc, hrange, rfl, mem_singleton.mpr rfl, rfl, hone, hzero⟩

end RangeCluster
end PD
