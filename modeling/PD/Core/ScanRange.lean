import PD.Core.RegionsInfo

/-! # Scans of the region cache -/

namespace PD
open List RegionInfo

def iterate {σ α : Type*} (f : σ → α → σ × Bool) : σ → List α → σ
  | s, [] => s
  | s, a :: as => if (f s a).2 then iterate f (f s a).1 as else (f s a).1

lemma iterate_collect {α β : Type*} (g : α → β) (limit : Int) (as : List α) (acc : List β) :
  iterate (fun acc a => (acc ++ [g a], decide (((acc ++ [g a]).length : Int) < limit))) acc as =
    acc ++ (as.take (max 1 (limit.toNat - acc.length))).map g := by
  induction as generalizing acc with
  | nil => simp [iterate]
  | cons a _ ih =>
    unfold iterate
    by_cases hlt : ((acc ++ [g a]).length : Int) < limit
    · have hmax : max 1 (limit.toNat - acc.length) = max 1 (limit.toNat - (acc ++ [g a]).length) + 1 := by
        rw [length_append, length_singleton] at hlt ⊢
        omega
      rw [if_pos (by simpa using hlt), ih, hmax, take_succ_cons, map_cons, append_assoc]
      rfl
    have hmax : max 1 (limit.toNat - acc.length) = 1 := by
      rw [length_append, length_singleton] at hlt
      omega
    rw [if_neg (by simpa using hlt), hmax, take_succ_cons, take_zero]
    rfl

lemma iterate_takeWhile {α β : Type*} (p : α → Bool) (g : α → Option β) (as : List α) (acc : List β) :
  iterate (fun acc a => if p a then (acc ++ (g a).toList, true) else (acc, false)) acc as =
    acc ++ (as.takeWhile p).filterMap g := by
  induction as generalizing acc with
  | nil => simp [iterate]
  | cons a _ ih =>
    unfold iterate
    by_cases hp : p a = true
    · simp only [hp, if_true, takeWhile_cons, ih, append_assoc]
      cases hg : g a <;> simp [hg]
    · simp [hp]

def RegionTree.scanRange {σ : Type*} (t : RegionTree) (startKey : Key) (f : σ → Region → σ × Bool) (s : σ) : σ :=
  iterate f s ((t.tree.ascend startKey).map Prod.snd)

namespace RegionsInfo

def scanRange (r : RegionsInfo) (startKey : Key) (limit : Int) : Option (List (Option RegionInfo)) :=
  if limit < 0 then none
  else some (r.tree.scanRange startKey (fun res region =>
    (res ++ [r.getRegion region.id], decide (((res ++ [r.getRegion region.id]).length : Int) < limit))) [])

def endsBefore (endKey : Key) (region : Region) : Bool :=
  endKey.isEmpty || (!region.endKey.isEmpty && decide (region.endKey < endKey))

def scanRangeWithEndKey (r : RegionsInfo) (startKey endKey : Key) : List RegionInfo :=
  r.tree.scanRange startKey (fun regions region =>
    if endsBefore endKey region then (regions ++ (r.getRegion region.id).toList, true) else (regions, false)) []

def ordered (r : RegionsInfo) : List RegionInfo := r.tree.items.filterMap fun item => r.getRegion item.id

section
variable {r : RegionsInfo}
variable {x : RegionInfo}

section
variable (h : r.Sound)
include h

lemma getRegion_item {item : Region} (hi : item ∈ r.tree.items) :
  ∃ x, r.getRegion item.id = some x ∧ x.getMeta = item := by
  obtain ⟨x, hx, e⟩ := (h.same item).mp hi
  exact ⟨x, (getRegion_eq r item.id).trans hx, e⟩

lemma getID_of_getRegion {id : Nat} (hx : r.getRegion id = some x) : x.getID = id :=
  h.ids id x ((getRegion_eq r id).symm.trans hx)

lemma mem_ordered : x ∈ r.ordered ↔ ∃ id, r.getRegion id = some x := by
  unfold ordered
  rw [mem_filterMap]
  constructor
  · rintro ⟨item, _, hx⟩
    exact ⟨item.id, hx⟩
  rintro ⟨id, hx⟩
  obtain rfl := getID_of_getRegion h hx
  exact ⟨x.getMeta, (h.same _).mpr ⟨x, (getRegion_eq r _).symm.trans hx, rfl⟩, hx⟩

lemma map_getMeta_ordered : r.ordered.map getMeta = r.tree.items := by
  unfold ordered
  have hall : ∀ item ∈ r.tree.items, (r.getRegion item.id).map getMeta = some item := by
    intro item hi
    obtain ⟨x, hx, e⟩ := getRegion_item h hi
    rw [hx, Option.map_some, e]
  rw [map_filterMap]
  generalize r.tree.items = items at hall
  induction items with
  | nil => rfl
  | cons item _ ih =>
    rw [filterMap_cons, hall item mem_cons_self]
    exact congrArg (item :: ·) (ih fun i hi => hall i (mem_cons_of_mem _ hi))

lemma ordered_sorted : r.ordered.Pairwise fun x y => x.getMeta.startKey < y.getMeta.startKey := by
  have hitems := r.tree.items_sorted
  rw [← map_getMeta_ordered h, pairwise_map] at hitems
  exact hitems

lemma getRegion_ordered (hx : x ∈ r.ordered) : r.getRegion x.getID = some x := by
  obtain ⟨id, hid⟩ := (mem_ordered h).mp hx
  rw [getID_of_getRegion h hid, hid]

lemma items_ascend (key : Key) : (r.tree.tree.ascend key).map Prod.snd =
  (r.ordered.filter fun x => key ≤ x.getMeta.startKey).map getMeta := by
  have hfilter : (r.tree.tree.ascend key).map Prod.snd = r.tree.items.filter fun item => key ≤ item.startKey := by
    unfold SortedMap.ascend RegionTree.items SortedMap.values
    rw [List.filter_map]
    refine congrArg _ (filter_congr fun e he => ?_)
    show _ = decide (key ≤ e.2.startKey)
    rw [r.tree.keyed e.1 e.2 (SortedMap.mem_entries.mp he)]
  rw [hfilter, ← map_getMeta_ordered h, List.filter_map]
  rfl

lemma map_ascend (key : Key) : ((r.tree.tree.ascend key).map Prod.snd).map (fun item => r.getRegion item.id) =
    (r.ordered.filter fun x => key ≤ x.getMeta.startKey).map some := by
  rw [items_ascend h, List.map_map]
  exact map_congr_left fun x hx => getRegion_ordered h (mem_filter.mp hx).1

lemma scanRange_eq (key : Key) (limit : Int) : r.scanRange key limit = if limit < 0 then none
    else some (((r.ordered.filter fun x => key ≤ x.getMeta.startKey).take (max 1 limit.toNat)).map some) := by
  unfold scanRange RegionTree.scanRange
  split
  · rfl
  rw [iterate_collect (fun item : Region => r.getRegion item.id), nil_append, length_nil,
    Nat.sub_zero, map_take, map_ascend h, map_take]

end

lemma scanRangeWithEndKey_eq (h : r.Sound) (startKey endKey : Key) : r.scanRangeWithEndKey startKey endKey =
  (r.ordered.filter fun x => startKey ≤ x.getMeta.startKey).takeWhile fun x => endsBefore endKey x.getMeta := by
  unfold scanRangeWithEndKey RegionTree.scanRange
  rw [iterate_takeWhile (endsBefore endKey) fun region => r.getRegion region.id, nil_append, items_ascend h,
    takeWhile_map, filterMap_map]
  have hall : ∀ x ∈ (r.ordered.filter fun x => startKey ≤ x.getMeta.startKey).takeWhile
      (endsBefore endKey ∘ getMeta), r.getRegion x.getMeta.id = some x := fun x hx =>
    getRegion_ordered h (mem_filter.mp (takeWhile_subset _ hx)).1
  exact (filterMap_congr hall).trans filterMap_some

lemma nonempty_ordered (h : r.Sound) (hx : x ∈ r.ordered) : x.getMeta.Nonempty :=
  h.range x.getID x ((getRegion_eq r _).symm.trans (getRegion_ordered h hx))

lemma getMeta_mem_items (h : r.Sound) (hx : x ∈ r.ordered) : x.getMeta ∈ r.tree.items :=
  map_getMeta_ordered h ▸ List.mem_map_of_mem hx

lemma end_le_start (h : r.Sound) {y : RegionInfo} (hx : x ∈ r.ordered) (hy : y ∈ r.ordered)
  (hlt : x.getMeta.startKey < y.getMeta.startKey) : x.getMeta.endKey ≠ [] ∧ x.getMeta.endKey ≤ y.getMeta.startKey :=
  RegionTree.end_le_start h.tiles (getMeta_mem_items h hx) (getMeta_mem_items h hy) hlt

end
end RegionsInfo
end PD
