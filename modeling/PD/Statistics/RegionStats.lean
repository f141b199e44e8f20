import PD.Core.RegionCache
import PD.Core.ScanRange

/-! # Statistics of a key range -/

namespace PD
open List Option RegionInfo

structure RegionStats where
  count : Nat
  emptyCount : Nat
  storageSize : Int
  storageKeys : Int
  storeLeaderCount : SortedMap Nat Nat
  storePeerCount : SortedMap Nat Nat
  storeLeaderSize : SortedMap Nat Int
  storeLeaderKeys : SortedMap Nat Int
  storePeerSize : SortedMap Nat Int
  storePeerKeys : SortedMap Nat Int
  deriving DecidableEq

def addAt (m : SortedMap Nat Int) (k : Nat) (n : Int) : SortedMap Nat Int :=
  m.insert k (Words.wrap ((m.lookup k).getD 0 + n))

namespace RegionStats

def new : RegionStats := ⟨0, 0, 0, 0, .empty, .empty, .empty, .empty, .empty, .empty⟩

def observeLeader (r : RegionInfo) (s : RegionStats) (storeID : Nat) : RegionStats :=
  { s with
    storeLeaderCount := s.storeLeaderCount.bump storeID
    storeLeaderSize := addAt s.storeLeaderSize storeID r.approximateSize
    storeLeaderKeys := addAt s.storeLeaderKeys storeID r.approximateKeys }

def observePeer (r : RegionInfo) (s : RegionStats) (storeID : Nat) : RegionStats :=
  { s with
    storePeerCount := s.storePeerCount.bump storeID
    storePeerSize := addAt s.storePeerSize storeID r.approximateSize
    storePeerKeys := addAt s.storePeerKeys storeID r.approximateKeys }

def observe (s : RegionStats) (r : RegionInfo) : RegionStats :=
  let s := { s with
    count := s.count + 1
    emptyCount := if r.approximateSize ≤ emptyRegionApproximateSize then s.emptyCount + 1 else s.emptyCount
    storageSize := Words.wrap (s.storageSize + r.approximateSize)
    storageKeys := Words.wrap (s.storageKeys + r.approximateKeys) }
  let s := (r.leader.map Peer.storeId).toList.foldl (observeLeader r) s
  (r.getPeers.map Peer.storeId).foldl (observePeer r) s

end RegionStats

def RegionsInfo.getRegionStats (r : RegionsInfo) (startKey endKey : Key) : RegionStats :=
  (r.scanRangeWithEndKey startKey endKey).foldl RegionStats.observe .new

def leaderSeats (regions : List RegionInfo) : List (Nat × RegionInfo) :=
  regions.flatMap fun x => (x.leader.map Peer.storeId).toList.map fun s => (s, x)

def peerSeats (regions : List RegionInfo) : List (Nat × RegionInfo) :=
  regions.flatMap fun x => (x.getPeers.map Peer.storeId).map fun s => (s, x)

variable (seats : List (Nat × RegionInfo))

def seated (s : Nat) : List RegionInfo := (seats.filter fun e => decide (e.1 = s)).map Prod.snd

def counted (s : Nat) : Option Nat :=
  if seated seats s = [] then none else some (seated seats s).length

def summed (f : RegionInfo → Int) (seats : List (Nat × RegionInfo)) (s : Nat) : Option Int :=
  if seated seats s = [] then none else some (Words.wrap ((seated seats s).map f).sum)

namespace RegionStats

structure Sums (stats : RegionStats) (regions : List RegionInfo) : Prop where
  count : stats.count = regions.length
  emptyCount : stats.emptyCount =
    (regions.filter fun x => decide (x.approximateSize ≤ emptyRegionApproximateSize)).length
  storageSize : stats.storageSize = Words.wrap (regions.map approximateSize).sum
  storageKeys : stats.storageKeys = Words.wrap (regions.map approximateKeys).sum
  storeLeaderCount : ∀ s, stats.storeLeaderCount.lookup s = counted (leaderSeats regions) s
  storePeerCount : ∀ s, stats.storePeerCount.lookup s = counted (peerSeats regions) s
  storeLeaderSize : ∀ s, stats.storeLeaderSize.lookup s = summed approximateSize (leaderSeats regions) s
  storeLeaderKeys : ∀ s, stats.storeLeaderKeys.lookup s = summed approximateKeys (leaderSeats regions) s
  storePeerSize : ∀ s, stats.storePeerSize.lookup s = summed approximateSize (peerSeats regions) s
  storePeerKeys : ∀ s, stats.storePeerKeys.lookup s = summed approximateKeys (peerSeats regions) s

section
variable (regions : List RegionInfo) (s : RegionStats)
variable (x : RegionInfo)

lemma leaderSeats_cons : leaderSeats (x :: regions) = leaderSeats [x] ++ leaderSeats regions := by
  show leaderSeats ([x] ++ regions) = _
  exact flatMap_append

lemma peerSeats_cons : peerSeats (x :: regions) = peerSeats [x] ++ peerSeats regions := by
  show peerSeats ([x] ++ regions) = _
  exact flatMap_append

lemma foldl_observeLeader (stores : List Nat) : stores.foldl (observeLeader x) s = { s with
      storeLeaderCount := stores.foldl SortedMap.bump s.storeLeaderCount
      storeLeaderSize := stores.foldl (fun m k => addAt m k x.approximateSize) s.storeLeaderSize
      storeLeaderKeys := stores.foldl (fun m k => addAt m k x.approximateKeys) s.storeLeaderKeys } := by
  induction stores generalizing s with
  | nil => rfl
  | cons k _ ih =>
    rw [foldl_cons, ih]
    rfl

lemma foldl_observePeer (stores : List Nat) : stores.foldl (observePeer x) s = { s with
      storePeerCount := stores.foldl SortedMap.bump s.storePeerCount
      storePeerSize := stores.foldl (fun m k => addAt m k x.approximateSize) s.storePeerSize
      storePeerKeys := stores.foldl (fun m k => addAt m k x.approximateKeys) s.storePeerKeys } := by
  induction stores generalizing s with
  | nil => rfl
  | cons k _ ih =>
    rw [foldl_cons, ih]
    rfl

lemma observe_eq : s.observe x = {
      count := s.count + 1
      emptyCount := s.emptyCount + if x.approximateSize ≤ emptyRegionApproximateSize then 1 else 0
      storageSize := Words.wrap (s.storageSize + x.approximateSize)
      storageKeys := Words.wrap (s.storageKeys + x.approximateKeys)
      storeLeaderCount := (leaderSeats [x]).foldl (fun m e => m.bump e.1) s.storeLeaderCount
      storePeerCount := (peerSeats [x]).foldl (fun m e => m.bump e.1) s.storePeerCount
      storeLeaderSize := (leaderSeats [x]).foldl (fun m e => addAt m e.1 e.2.approximateSize) s.storeLeaderSize
      storeLeaderKeys := (leaderSeats [x]).foldl (fun m e => addAt m e.1 e.2.approximateKeys) s.storeLeaderKeys
      storePeerSize := (peerSeats [x]).foldl (fun m e => addAt m e.1 e.2.approximateSize) s.storePeerSize
      storePeerKeys := (peerSeats [x]).foldl (fun m e => addAt m e.1 e.2.approximateKeys) s.storePeerKeys } := by
  unfold observe
  rw [foldl_observePeer, foldl_observeLeader]
  simp only [leaderSeats, peerSeats, flatMap_cons, flatMap_nil, append_nil, foldl_map]
  congr 1
  split <;> rfl

lemma foldl_observe_totals : (regions.foldl observe s).count = s.count + regions.length ∧
  (regions.foldl observe s).emptyCount = s.emptyCount +
    (regions.filter fun x => decide (x.approximateSize ≤ emptyRegionApproximateSize)).length := by
  induction regions generalizing s with
  | nil => exact ⟨rfl, rfl⟩
  | cons x _ ih =>
    obtain ⟨hcount, hempty⟩ := ih (s.observe x)
    rw [foldl_cons, hcount, hempty, observe_eq, length_cons]
    refine ⟨by dsimp only; omega, ?_⟩
    by_cases hsize : x.approximateSize ≤ emptyRegionApproximateSize
    · rw [if_pos hsize, filter_cons, if_pos (decide_eq_true hsize), length_cons]
      dsimp only
      omega
    rw [if_neg hsize, filter_cons, if_neg (by simpa using hsize)]
    rfl

lemma foldl_observe_sizes (size keys : Int) (hsize : s.storageSize = Words.wrap size)
  (hkeys : s.storageKeys = Words.wrap keys) :
  (regions.foldl observe s).storageSize = Words.wrap (size + (regions.map approximateSize).sum) ∧
    (regions.foldl observe s).storageKeys = Words.wrap (keys + (regions.map approximateKeys).sum) := by
  induction regions generalizing s size keys with
  | nil => simpa using ⟨hsize, hkeys⟩
  | cons x _ ih =>
    have hobserve : (s.observe x).storageSize = Words.wrap (size + x.approximateSize) ∧
        (s.observe x).storageKeys = Words.wrap (keys + x.approximateKeys) := by
      rw [observe_eq, ← Words.wrap_wrap_add size, ← Words.wrap_wrap_add keys, hsize, hkeys]
      exact ⟨rfl, rfl⟩
    have hrest := ih (s.observe x) _ _ hobserve.1 hobserve.2
    rw [add_assoc, add_assoc] at hrest
    exact hrest

lemma foldl_observe_maps : (regions.foldl observe s).storeLeaderCount =
      (leaderSeats regions).foldl (fun m e => m.bump e.1) s.storeLeaderCount ∧
    (regions.foldl observe s).storePeerCount = (peerSeats regions).foldl (fun m e => m.bump e.1) s.storePeerCount ∧
    (regions.foldl observe s).storeLeaderSize =
      (leaderSeats regions).foldl (fun m e => addAt m e.1 e.2.approximateSize) s.storeLeaderSize ∧
    (regions.foldl observe s).storeLeaderKeys =
      (leaderSeats regions).foldl (fun m e => addAt m e.1 e.2.approximateKeys) s.storeLeaderKeys ∧
    (regions.foldl observe s).storePeerSize =
      (peerSeats regions).foldl (fun m e => addAt m e.1 e.2.approximateSize) s.storePeerSize ∧
    (regions.foldl observe s).storePeerKeys =
      (peerSeats regions).foldl (fun m e => addAt m e.1 e.2.approximateKeys) s.storePeerKeys := by
  induction regions generalizing s with
  | nil => exact ⟨rfl, rfl, rfl, rfl, rfl, rfl⟩
  | cons x _ ih =>
    have hobserve := ih (s.observe x)
    rw [observe_eq] at hobserve
    rw [foldl_cons, leaderSeats_cons, peerSeats_cons, observe_eq]
    simp only [foldl_append]
    exact hobserve

end

section
variable {α : Type*}

lemma foldl_count (l : List α) (n : Nat) :
  l.foldl (fun o _ => some (o.getD 0 + 1)) (some n) = some (n + l.length) := by
  induction l generalizing n with
  | nil => rfl
  | cons a l ih =>
    rw [foldl_cons, getD_some, ih, length_cons]
    congr 1
    omega

lemma foldl_sum (f : α → Int) (l : List α) (n : Int) :
  l.foldl (fun o a => some (Words.wrap (o.getD 0 + f a))) (some (Words.wrap n)) =
    some (Words.wrap (n + (l.map f).sum)) := by
  induction l generalizing n with
  | nil => simp
  | cons a l ih => rw [foldl_cons, getD_some, Words.wrap_wrap_add, ih, map_cons, sum_cons, add_assoc]

end

lemma lookup_bumps (seats : List (Nat × RegionInfo)) (k : Nat) :
  (seats.foldl (fun m e => m.bump e.1) SortedMap.empty).lookup k = counted seats k := by
  have h := SortedMap.lookup_foldl_update (fun o (_ : RegionInfo) => o.getD 0 + 1) seats .empty k
  refine h.trans ?_
  show (seated seats k).foldl _ none = _
  unfold counted
  cases seated seats k with
  | nil => rfl
  | cons x l =>
    rw [foldl_cons, if_neg (cons_ne_nil x l), getD_none, foldl_count, length_cons]
    congr 1
    omega

lemma lookup_addAts (f : RegionInfo → Int) (seats : List (Nat × RegionInfo)) (k : Nat) :
  (seats.foldl (fun m e => addAt m e.1 (f e.2)) SortedMap.empty).lookup k = summed f seats k := by
  have h := SortedMap.lookup_foldl_update (fun o (x : RegionInfo) => Words.wrap (o.getD 0 + f x)) seats .empty k
  refine h.trans ?_
  show (seated seats k).foldl _ none = _
  unfold summed
  cases seated seats k with
  | nil => rfl
  | cons x l => rw [foldl_cons, if_neg (cons_ne_nil x l), getD_none, foldl_sum, map_cons, sum_cons, zero_add]

lemma sums_observe (regions : List RegionInfo) : (regions.foldl observe new).Sums regions := by
  obtain ⟨hcount, hempty⟩ := foldl_observe_totals regions new
  obtain ⟨hsize, hkeys⟩ := foldl_observe_sizes regions new 0 0 Words.wrap_zero.symm Words.wrap_zero.symm
  rw [zero_add] at hsize hkeys
  obtain ⟨hlc, hpc, hls, hlk, hps, hpk⟩ := foldl_observe_maps regions new
  exact {
    count := hcount.trans (Nat.zero_add _)
    emptyCount := hempty.trans (Nat.zero_add _)
    storageSize := hsize
    storageKeys := hkeys
    storeLeaderCount := fun k => hlc ▸ lookup_bumps _ k
    storePeerCount := fun k => hpc ▸ lookup_bumps _ k
    storeLeaderSize := fun k => hls ▸ lookup_addAts _ _ k
    storeLeaderKeys := fun k => hlk ▸ lookup_addAts _ _ k
    storePeerSize := fun k => hps ▸ lookup_addAts _ _ k
    storePeerKeys := fun k => hpk ▸ lookup_addAts _ _ k }

end RegionStats

namespace RegionsInfo

def Inside (r : RegionsInfo) (startKey endKey : Key) (regions : List RegionInfo) : Prop := regions.Nodup ∧
    ∀ x, x ∈ regions ↔ (∃ id, r.getRegion id = some x) ∧ startKey ≤ x.getMeta.startKey ∧
      (endKey ≠ [] → x.getMeta.endKey ≠ [] ∧ x.getMeta.endKey ≤ endKey)

lemma endsBefore_iff {endKey : Key} {region : Region} :
  endsBefore endKey region = true ↔ (endKey ≠ [] → region.endKey ≠ [] ∧ region.endKey < endKey) := by
  unfold endsBefore
  by_cases hend : endKey = [] <;> simp [hend]

section
variable {r : RegionsInfo} {x : RegionInfo}

lemma scan_eq_filter (h : r.Sound) (startKey endKey : Key) : r.scanRangeWithEndKey startKey endKey =
  (r.ordered.filter fun x => startKey ≤ x.getMeta.startKey).filter fun x => endsBefore endKey x.getMeta := by
  rw [scanRangeWithEndKey_eq h]
  refine SortedMap.takeWhile_eq_filter ((ordered_sorted h).filter _) ?_
  intro x hx y hy hlt hends
  obtain ⟨hfull, hle⟩ := end_le_start h (mem_of_mem_filter hx) (mem_of_mem_filter hy) hlt
  have hy' : y.getMeta.startKey < y.getMeta.endKey ∨ y.getMeta.endKey = [] := nonempty_ordered h (mem_of_mem_filter hy)
  refine endsBefore_iff.mpr ?_
  intro hend
  obtain ⟨hyfull, hylt⟩ := endsBefore_iff.mp hends hend
  have hself : y.getMeta.startKey < y.getMeta.endKey := hy'.resolve_right hyfull
  exact ⟨hfull, lt_of_le_of_lt hle (lt_trans hself hylt)⟩

lemma mem_scan (h : r.Sound) {startKey endKey : Key} :
  x ∈ r.scanRangeWithEndKey startKey endKey ↔ (∃ id, r.getRegion id = some x) ∧
    startKey ≤ x.getMeta.startKey ∧ (endKey ≠ [] → x.getMeta.endKey ≠ [] ∧ x.getMeta.endKey < endKey) := by
  rw [scan_eq_filter h, mem_filter, mem_filter, mem_ordered h, decide_eq_true_eq, endsBefore_iff, and_assoc]

lemma nodup_scan (h : r.Sound) (startKey endKey : Key) : (r.scanRangeWithEndKey startKey endKey).Nodup := by
  rw [scan_eq_filter h]
  refine List.Nodup.filter _ (List.Nodup.filter _ ?_)
  refine (ordered_sorted h).imp ?_
  intro x y hlt heq
  exact absurd (heq ▸ hlt) (lt_irrefl _)

end

lemma ends_of_sums {r : RegionsInfo} (h : r.Sound) {startKey endKey : Key} {regions : List RegionInfo}
  (hinside : r.Inside startKey endKey regions) (hregions : (r.getRegionStats startKey endKey).Sums regions)
  (hend : endKey ≠ []) {id : Nat} {x : RegionInfo} (hx : r.getRegion id = some x)
  (hstart : startKey ≤ x.getMeta.startKey) : x.getMeta.endKey ≠ endKey := by
  obtain ⟨hnodup, hmem⟩ := hinside
  intro heq
  have hsub : r.scanRangeWithEndKey startKey endKey ⊆ regions := by
    intro y hy
    obtain ⟨hcached, hystart, hyend⟩ := (mem_scan h).mp hy
    refine (hmem y).mpr ⟨hcached, hystart, ?_⟩
    intro hne
    exact ⟨(hyend hne).1, le_of_lt (hyend hne).2⟩
  have hlength : regions.length ≤ (r.scanRangeWithEndKey startKey endKey).length :=
    le_of_eq (hregions.count.symm.trans (RegionStats.sums_observe _).count)
  have hperm := ((nodup_scan h startKey endKey).subperm hsub).perm_of_length_le hlength
  have hin : x ∈ regions := (hmem x).mpr ⟨⟨id, hx⟩, hstart, fun _ => ⟨heq ▸ hend, le_of_eq heq⟩⟩
  obtain ⟨-, -, hbefore⟩ := (mem_scan h).mp (hperm.mem_iff.mpr hin)
  exact absurd heq (ne_of_lt (hbefore hend).2)

/-- **The statistics of a range** are right exactly if no region ends where it does. -/
theorem regionStats_iff (ops : List Op) (hops : ∀ op ∈ ops, op.Ranged) (r : RegionsInfo)
  (hr : Runs.exec step new ops = some r) (startKey endKey : Key) :
  (∃ regions, r.Inside startKey endKey regions ∧ (r.getRegionStats startKey endKey).Sums regions) ↔
    endKey = [] ∨ ∀ id x, r.getRegion id = some x → startKey ≤ x.getMeta.startKey → x.getMeta.endKey ≠ endKey := by
  have h : r.Sound := sound_exec hops hr
  constructor
  · intro ⟨regions, hinside, hregions⟩
    by_cases hend : endKey = []
    · exact .inl hend
    · exact .inr fun id x hx hstart => ends_of_sums h hinside hregions hend hx hstart
  intro hcond
  refine ⟨_, ⟨nodup_scan h startKey endKey, ?_⟩, RegionStats.sums_observe _⟩
  intro x
  rw [mem_scan h]
  refine and_congr_right ?_
  intro ⟨id, hx⟩
  refine and_congr_right ?_
  intro hstart
  refine forall_congr' ?_
  intro hend
  have hne : x.getMeta.endKey ≠ endKey := (hcond.resolve_left hend) id x hx hstart
  exact and_congr_right fun _ => ⟨le_of_lt, fun hle => lt_of_le_of_ne hle hne⟩

def fourRegions : List Op :=
  [.set ⟨⟨1, [], [97], some ⟨1, 1⟩, [⟨101, 1, false⟩, ⟨102, 2, false⟩, ⟨103, 3, false⟩]⟩, some ⟨101, 1, false⟩,
      [], [], 0, 0, 100, 50⟩,
    .set ⟨⟨2, [97], [116], some ⟨1, 1⟩, [⟨104, 1, false⟩, ⟨105, 4, false⟩, ⟨106, 5, false⟩]⟩, some ⟨105, 4, false⟩,
      [], [], 0, 0, 200, 150⟩,
    .set ⟨⟨3, [116], [120], some ⟨1, 1⟩, [⟨106, 1, false⟩, ⟨107, 5, false⟩]⟩, some ⟨107, 5, false⟩,
      [], [], 0, 0, 1, 1⟩,
    .set ⟨⟨4, [120], [], some ⟨1, 1⟩, [⟨108, 4, false⟩]⟩, some ⟨108, 4, false⟩, [], [], 0, 0, 50, 20⟩]

lemma fourRegions_ranged : ∀ op ∈ fourRegions, op.Ranged := by decide

theorem regionStats_inside : ∃ r, Runs.exec step new fourRegions = some r ∧
  (r.getRegionStats [1, 2] [120, 121]).count = 2 ∧
  ∃ regions, r.Inside [1, 2] [120, 121] regions ∧ (r.getRegionStats [1, 2] [120, 121]).Sums regions := by
  have hrun : (Runs.exec step new fourRegions).map (fun r => ((r.getRegionStats [1, 2] [120, 121]).count,
      r.ordered.all fun x => decide (x.getMeta.endKey ≠ [120, 121]))) = some (2, true) := by decide +kernel
  obtain ⟨r, hr, he⟩ := map_eq_some_iff.mp hrun
  obtain ⟨hcount, hends⟩ := Prod.mk.inj he
  refine ⟨r, hr, hcount, (regionStats_iff fourRegions fourRegions_ranged r hr [1, 2] [120, 121]).mpr (.inr ?_)⟩
  intro id x hx _
  have hin : x ∈ r.ordered := (mem_ordered (sound_exec fourRegions_ranged hr)).mpr ⟨id, hx⟩
  exact of_decide_eq_true (List.all_eq_true.mp hends x hin)

theorem regionStats_misses : ∃ r, Runs.exec step new fourRegions = some r ∧ (r.getRegionStats [97] [120]).count = 1 ∧
  ¬ ∃ regions, r.Inside [97] [120] regions ∧ (r.getRegionStats [97] [120]).Sums regions := by
  have hrun : (Runs.exec step new fourRegions).map (fun r => ((r.getRegionStats [97] [120]).count,
      (r.getRegion 3).map fun x => (x.getMeta.startKey, x.getMeta.endKey))) =
        some (1, some ([116], [120])) := by decide +kernel
  obtain ⟨r, hr, he⟩ := map_eq_some_iff.mp hrun
  obtain ⟨hcount, hthird⟩ := Prod.mk.inj he
  obtain ⟨x, hx, hkeys⟩ := map_eq_some_iff.mp hthird
  obtain ⟨hstart, hend⟩ := Prod.mk.inj hkeys
  refine ⟨r, hr, hcount, ?_⟩
  intro ⟨regions, hinside, hregions⟩
  have h : r.Sound := sound_exec fourRegions_ranged hr
  exact ends_of_sums h hinside hregions (by decide) hx (hstart ▸ by decide) hend

end RegionsInfo
end PD
