import PD.Core.RegionCache
import PD.Core.ScanRange

/-! # Queries of the region tree -/

namespace PD

def Region.Touches (a b : Region) : Prop := a.endKey ≠ [] ∧ a.endKey = b.startKey
def Region.ofKey (regionKey : Key) : Region := ⟨0, regionKey, [], none, []⟩

namespace RegionTree

def search (t : RegionTree) (regionKey : Key) : Option Region := t.find (.ofKey regionKey)

def getAdjacentRegions (t : RegionTree) (region : Region) : Option Region × Option Region :=
  ((t.items.filter fun i => decide (i.startKey < region.startKey)).getLast?,
    (t.items.filter fun i => decide (region.startKey < i.startKey)).head?)

def searchPrev (t : RegionTree) (regionKey : Key) : Option Region :=
  match t.find (.ofKey regionKey) with
  | none => none
  | some cur => (t.getAdjacentRegions cur).1.filter fun prev => prev.endKey == cur.startKey

end RegionTree

namespace RegionsInfo

def searchRegion (r : RegionsInfo) (regionKey : Key) : Option RegionInfo :=
  (r.tree.search regionKey).bind fun item => r.getRegion item.id

def getAdjacentRegions (r : RegionsInfo) (region : RegionInfo) : Option RegionInfo × Option RegionInfo :=
  let adjacent := r.tree.getAdjacentRegions region.getMeta
  ((adjacent.1.filter fun prev => prev.endKey == region.getMeta.startKey).bind fun prev => r.getRegion prev.id,
    (adjacent.2.filter fun next => region.getMeta.endKey == next.startKey).bind fun next => r.getRegion next.id)

end RegionsInfo

namespace RegionTree

section
variable {t : RegionTree} {key : Key} {m region : Region}

lemma start_lt_of_touches (h : t.Disjoint) {a b : Region} (ha : a ∈ t.items) (htouch : a.Touches b) :
  a.startKey < b.startKey := by
  have hlt : a.startKey < a.endKey := (nonempty_of_mem h ha).resolve_right htouch.1
  rw [htouch.2] at hlt
  exact hlt

lemma search_eq_some (h : t.Disjoint) : t.search key = some m ↔ m ∈ t.items ∧ m.contains key = true :=
  ⟨fun hs => find_some hs, fun hm => find_eq h hm.1 hm.2⟩

lemma prev_touches (h : t.Disjoint) (hr : region ∈ t.items) :
  (t.getAdjacentRegions region).1.filter (fun prev => prev.endKey == region.startKey) = some m ↔
    m ∈ t.items ∧ m.Touches region := by
  rw [Option.filter_eq_some_iff, beq_iff_eq]
  constructor
  · rintro ⟨hlast, hend⟩
    obtain ⟨hm, hlt⟩ := List.mem_filter.mp (List.mem_of_getLast? hlast)
    exact ⟨hm, (end_le_start h hm hr (of_decide_eq_true hlt)).1, hend⟩
  rintro ⟨hm, htouch⟩
  refine ⟨SortedMap.getLast?_filter_of_max t.items_sorted hm (decide_eq_true (start_lt_of_touches h hm htouch)) ?_,
    htouch.2⟩
  -- an item between the two would start before the first one ends
  intro i hi hlt
  by_contra hnot
  have hle := (end_le_start h hm hi (not_le.mp hnot)).2
  rw [htouch.2] at hle
  exact absurd (of_decide_eq_true hlt) (not_lt.mpr hle)

lemma next_touches (h : t.Disjoint) (hr : region ∈ t.items) :
  (t.getAdjacentRegions region).2.filter (fun next => region.endKey == next.startKey) = some m ↔
    m ∈ t.items ∧ region.Touches m := by
  rw [Option.filter_eq_some_iff, beq_iff_eq]
  constructor
  · rintro ⟨hhead, hend⟩
    obtain ⟨hm, hlt⟩ := List.mem_filter.mp (List.mem_of_head? hhead)
    exact ⟨hm, (end_le_start h hr hm (of_decide_eq_true hlt)).1, hend⟩
  rintro ⟨hm, htouch⟩
  refine ⟨SortedMap.head?_filter_of_min t.items_sorted hm (decide_eq_true (start_lt_of_touches h hr htouch)) ?_,
    htouch.2⟩
  intro i hi hlt
  rw [← htouch.2]
  exact (end_le_start h hr hi (of_decide_eq_true hlt)).2

lemma searchPrev_eq_some (h : t.Disjoint) :
  t.searchPrev key = some m ↔ m ∈ t.items ∧ ∃ cur ∈ t.items, cur.contains key = true ∧ m.Touches cur := by
  unfold searchPrev
  cases hf : t.find (.ofKey key) with
  | none =>
    refine ⟨nofun, ?_⟩
    rintro ⟨-, cur, hcur, hkey, -⟩
    rw [find_eq h hcur hkey] at hf
    cases hf
  | some cur =>
    obtain ⟨hcur, hkey⟩ := find_some hf
    refine (prev_touches h hcur).trans (and_congr_right fun _ => ⟨fun ht => ⟨cur, hcur, hkey, ht⟩, ?_⟩)
    rintro ⟨cur', hcur', hkey', ht⟩
    rw [eq_of_overlaps h hcur hcur' ⟨key, hkey, hkey'⟩]
    exact ht

lemma getOverlaps_sorted (h : t.Disjoint) (region : Region) :
  (t.getOverlaps region).Pairwise fun a b => a.startKey < b.startKey := by
  rw [getOverlaps_eq h]
  exact t.items_sorted.filter _

end

structure ExactQueries (t : RegionTree) : Prop where
  sorted : ∀ range, (t.getOverlaps range).Pairwise fun a b => a.startKey < b.startKey
  between : ∀ range m, m ∈ t.getOverlaps range ↔
    m ∈ t.items ∧ (range.startKey : WithTop Key) < m.upper ∧ (m.startKey : WithTop Key) < range.upper
  overlaps : ∀ range, range.Nonempty → ∀ m, m ∈ t.getOverlaps range ↔ m ∈ t.items ∧ range.Overlaps m
  search : ∀ key m, t.search key = some m ↔ m ∈ t.items ∧ m.contains key = true
  unique : ∀ key, ∀ a ∈ t.items, ∀ b ∈ t.items, a.contains key = true → b.contains key = true → a = b
  searchPrev : ∀ key m, t.searchPrev key = some m ↔
    m ∈ t.items ∧ ∃ cur ∈ t.items, cur.contains key = true ∧ m.Touches cur

lemma exactQueries {t : RegionTree} (h : t.Disjoint) : t.ExactQueries where
  sorted := getOverlaps_sorted h
  between := by
    intro range m
    rw [getOverlaps_eq h, List.mem_filter, decide_eq_true_eq]
    rfl
  overlaps := fun _ hn _ => mem_getOverlaps h hn
  search := fun _ _ => search_eq_some h
  unique := fun key _ ha _ hb hka hkb => eq_of_overlaps h ha hb ⟨key, hka, hkb⟩
  searchPrev := fun _ _ => searchPrev_eq_some h

end RegionTree

namespace RegionsInfo

section
variable {r : RegionsInfo} {x y : RegionInfo}

lemma bind_getRegion (h : r.Sound) {item : Option Region} {P : Region → Prop}
  (hitem : ∀ m, item = some m ↔ m ∈ r.tree.items ∧ P m) :
  (item.bind fun m => r.getRegion m.id) = some y ↔ r.getRegion y.getID = some y ∧ P y.getMeta := by
  constructor
  · intro hy
    obtain ⟨m, hm, hget⟩ := Option.bind_eq_some_iff.mp hy
    obtain ⟨hmem, hP⟩ := (hitem m).mp hm
    obtain ⟨z, hz, hmeta⟩ := getRegion_item h hmem
    obtain rfl := Option.some.inj (hget.symm.trans hz)
    rw [hmeta, ← getID_of_getRegion h hget] at *
    exact ⟨hget, hP⟩
  rintro ⟨hget, hP⟩
  have hmem : y.getMeta ∈ r.tree.items := (h.same _).mpr ⟨y, (getRegion_eq r _).symm.trans hget, rfl⟩
  exact Option.bind_eq_some_iff.mpr ⟨y.getMeta, (hitem _).mpr ⟨hmem, hP⟩, hget⟩

lemma searchRegion_eq_some (h : r.Sound) {key : Key} :
  r.searchRegion key = some y ↔ r.getRegion y.getID = some y ∧ y.getMeta.contains key = true :=
  bind_getRegion h fun _ => RegionTree.search_eq_some h.tiles

section
variable (h : r.Sound) (hx : r.getRegion x.getID = some x)
include h hx

lemma getMeta_of_getRegion : x.getMeta ∈ r.tree.items :=
  (h.same _).mpr ⟨x, (getRegion_eq r _).symm.trans hx, rfl⟩

lemma getAdjacentRegions_prev_iff :
  (r.getAdjacentRegions x).1 = some y ↔ r.getRegion y.getID = some y ∧ y.getMeta.Touches x.getMeta :=
  bind_getRegion h (P := fun m => m.Touches x.getMeta)
    fun _ => RegionTree.prev_touches h.tiles (getMeta_of_getRegion h hx)

lemma getAdjacentRegions_next_iff :
  (r.getAdjacentRegions x).2 = some y ↔ r.getRegion y.getID = some y ∧ x.getMeta.Touches y.getMeta :=
  bind_getRegion h (P := fun m => x.getMeta.Touches m)
    fun _ => RegionTree.next_touches h.tiles (getMeta_of_getRegion h hx)

end

end

/-- **The queries of the tree are exact** -/
theorem tree_queries_exact (t : RegionTree) (h : t.Disjoint) :
  t.ExactQueries ∧ ∀ r : RegionsInfo, r.Sound → r.tree = t → ∀ x, r.getRegion x.getID = some x → ∀ y,
    ((r.getAdjacentRegions x).1 = some y ↔ r.getRegion y.getID = some y ∧ y.getMeta.Touches x.getMeta) ∧
    ((r.getAdjacentRegions x).2 = some y ↔ r.getRegion y.getID = some y ∧ x.getMeta.Touches y.getMeta) := by
  refine ⟨RegionTree.exactQueries h, ?_⟩
  intro r hr ht x hx y
  exact ⟨getAdjacentRegions_prev_iff hr hx, getAdjacentRegions_next_iff hr hx⟩

def holed : List Op :=
  [.set (newRegionInfo ⟨1, [], [5], none, []⟩ none), .set (newRegionInfo ⟨2, [5], [7], none, []⟩ none),
    .set (newRegionInfo ⟨3, [9], [], none, []⟩ none)]

lemma holed_sound {r : RegionsInfo} (h : Runs.exec step new holed = some r) : r.Sound := (inv_exec (by decide) h).sound

theorem tree_queries_exact_holed :
  ∃ r, Runs.exec step new holed = some r ∧ r.tree.ExactQueries ∧ r.tree.search [8] = none ∧
    (r.tree.searchPrev [6]).map Region.id = some 1 ∧ r.tree.searchPrev [9] = none := by
  have hrun : (Runs.exec step new holed).map (fun r => (r.tree.search [8], (r.tree.searchPrev [6]).map Region.id,
      r.tree.searchPrev [9])) = some (none, some 1, none) := by decide +kernel
  obtain ⟨r, hr, he⟩ := Option.map_eq_some_iff.mp hrun
  obtain ⟨hsearch, he⟩ := Prod.mk.inj he
  obtain ⟨hprev, hnone⟩ := Prod.mk.inj he
  exact ⟨r, hr, (tree_queries_exact r.tree (holed_sound hr).tiles).1, hsearch, hprev, hnone⟩

/-- **`SetRegion` overrides the map from keys to regions**: its range leads to it, and another key keeps its region
unless that region was replaced or overlapped. -/
theorem searchRegion_setRegion {ops : List Op} {r : RegionsInfo} (hops : ∀ op ∈ ops, op.Ranged)
  (hrun : Runs.exec step new ops = some r) (region : RegionInfo) (hr : region.getMeta.Nonempty) :
  ∃ r', r.setRegion region = some (r', r.evicted region) ∧ ∀ key y, r'.searchRegion key = some y ↔
    if region.getMeta.contains key then y = region
    else r.searchRegion key = some y ∧ y.getID ≠ region.getID ∧ ¬ region.getMeta.Overlaps y.getMeta := by
  have h := sound_exec hops hrun
  obtain ⟨r', hset, h', hc, -⟩ := setRegion_sound h hr
  refine ⟨r', hset, fun key y => ?_⟩
  rw [searchRegion_eq_some h', searchRegion_eq_some h, getRegion_eq, hc, lookup_setCached h hr, getRegion_eq]
  split
  next hin =>
    -- a region that is still cached does not overlap the new one, so the key is in the new one alone
    constructor
    · rintro ⟨⟨-, rfl⟩ | ⟨-, -, hov⟩, hkey⟩
      · rfl
      · exact absurd ⟨key, hin, hkey⟩ hov
    rintro rfl
    exact ⟨.inl ⟨rfl, rfl⟩, hin⟩
  next hout =>
    constructor
    · rintro ⟨⟨-, rfl⟩ | ⟨hne, hy, hov⟩, hkey⟩
      · exact absurd hkey hout
      · exact ⟨⟨hy, hkey⟩, hne, hov⟩
    rintro ⟨⟨hy, hkey⟩, hne, hov⟩
    exact ⟨.inr ⟨hne, hy, hov⟩, hkey⟩

def spanning : RegionInfo := newRegionInfo ⟨4, [4], [8], none, []⟩ none

theorem searchRegion_setRegion_holed : ∃ r r', Runs.exec step new holed = some r ∧ r.setRegion spanning = some r' ∧
    r'.1.searchRegion [6] = some spanning := by
  obtain ⟨r, hr⟩ := Option.isSome_iff_exists.mp (by decide +kernel : (Runs.exec step new holed).isSome = true)
  obtain ⟨r', hset, hsearch⟩ := searchRegion_setRegion (by decide) hr spanning (by decide)
  exact ⟨r, _, hr, hset, (hsearch [6] _).mpr rfl⟩

end RegionsInfo
end PD
