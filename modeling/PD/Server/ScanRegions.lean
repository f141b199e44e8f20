import PD.Core.RegionCache
import PD.Core.ScanRange

/-! # The request `ScanRegions` -/

namespace PD
open List

structure ScanRegionsResponse where
  regions : List Region
  leaders : List Peer
  deriving DecidableEq

namespace RegionsInfo

def response (regions : List RegionInfo) : ScanRegionsResponse :=
  ⟨regions.map RegionInfo.getMeta, regions.map fun x => x.leader.getD ⟨0, 0, false⟩⟩

def scanRegions (r : RegionsInfo) (startKey : Key) (limit : Int) : Option ScanRegionsResponse :=
  (r.scanRange startKey limit).bind fun regions => (regions.mapM id).map response

structure IsScan (r : RegionsInfo) (key : Key) (l : List RegionInfo) : Prop where
  sorted : l.Pairwise fun x y => x.getMeta.startKey < y.getMeta.startKey
  exact : ∀ x, x ∈ l ↔ (∃ id, r.getRegion id = some x) ∧ (x.getMeta.contains key = true ∨ key < x.getMeta.startKey)

section
variable {r : RegionsInfo} {key : Key} {limit : Int}

lemma mapM_some (l : List RegionInfo) : (l.map some).mapM id = some l := by
  induction l with
  | nil => rfl
  | cons x l ih => simp [mapM_cons, ih]

lemma scanRegions_eq (h : r.Sound) (hl : 0 ≤ limit) : r.scanRegions key limit = some (response
  ((r.ordered.filter fun x => key ≤ x.getMeta.startKey).take (max 1 limit.toNat))) := by
  unfold scanRegions
  rw [scanRange_eq h, if_neg (not_lt.mpr hl), Option.bind_some, mapM_some, Option.map_some]

lemma isScan_ordered (h : r.Sound) : r.IsScan key
  (r.ordered.filter fun x => x.getMeta.contains key || decide (key < x.getMeta.startKey)) where
  sorted := (ordered_sorted h).filter _
  exact x := by rw [mem_filter, mem_ordered h, Bool.or_eq_true, decide_eq_true_eq]

lemma start_le_of_contains {m : Region} (h : m.contains key = true) : m.startKey ≤ key := (Region.contains_iff.mp h).1

lemma filter_scan (h : r.Sound)
  (hstart : ∀ id x, r.getRegion id = some x → x.getMeta.contains key = true → x.getMeta.startKey = key) :
  (r.ordered.filter fun x => x.getMeta.contains key || decide (key < x.getMeta.startKey)) =
    r.ordered.filter fun x => key ≤ x.getMeta.startKey := by
  refine filter_congr fun x hx => ?_
  obtain ⟨id, hid⟩ := (mem_ordered h).mp hx
  have hrange := h.range id x ((getRegion_eq r id).symm.trans hid)
  rw [Bool.eq_iff_iff, Bool.or_eq_true, decide_eq_true_eq, decide_eq_true_eq]
  constructor
  · rintro (hc | hlt)
    · exact le_of_eq (hstart id x hid hc).symm
    · exact le_of_lt hlt
  intro hle
  rcases lt_or_eq_of_le hle with hlt | heq
  · exact .inr hlt
  left
  rw [heq]
  exact Region.contains_iff.mpr ⟨le_refl _, Region.nonempty_span.mpr hrange⟩

lemma start_of_agree {l : List RegionInfo} (hl : r.IsScan key l) {n k : Nat} (hn : 0 < n)
  (heq : response (l.take n) = response ((r.ordered.filter fun x => key ≤ x.getMeta.startKey).take k))
  {x : RegionInfo} (hx : x ∈ l) : key ≤ x.getMeta.startKey := by
  cases l with
  | nil => exact absurd hx not_mem_nil
  | cons y =>
    have hy : y.getMeta ∈ (response ((r.ordered.filter fun x => key ≤ x.getMeta.startKey).take k)).regions := by
      rw [← heq]
      obtain ⟨n, rfl⟩ := Nat.exists_eq_succ_of_ne_zero (Nat.ne_of_gt hn)
      exact mem_cons_self
    obtain ⟨z, hz, e⟩ := List.mem_map.mp hy
    have hfirst : key ≤ y.getMeta.startKey := by
      rw [← e]
      exact of_decide_eq_true (mem_filter.mp (mem_of_mem_take hz)).2
    rcases mem_cons.mp hx with rfl | hx
    · exact hfirst
    · exact le_trans hfirst (le_of_lt ((pairwise_cons.mp hl.sorted).1 x hx))

/-- **Scans** are right if `key` is inside no region, or nothing is asked for. -/
theorem scanRegions_iff (ops : List Op) (hops : ∀ op ∈ ops, op.Ranged) (r : RegionsInfo)
  (hr : Runs.exec step new ops = some r) (key : Key) (limit : Int) :
  (∃ l, r.IsScan key l ∧ r.scanRegions key limit = some (response (l.take limit.toNat))) ↔
    (0 < limit ∧ ∀ id x, r.getRegion id = some x → x.getMeta.contains key = true → x.getMeta.startKey = key) ∨
    (limit = 0 ∧ ∀ id x, r.getRegion id = some x → x.getMeta.startKey < key) := by
  have hs := sound_exec hops hr
  constructor
  · rintro ⟨l, hl, heq⟩
    rcases lt_trichotomy limit 0 with hneg | rfl | hpos
    · -- the capacity of the result is negative
      unfold scanRegions at heq
      rw [scanRange_eq hs, if_pos hneg] at heq
      cases heq
    · refine .inr ⟨rfl, fun id x hx => not_le.mp fun hle => ?_⟩
      have hmem : x ∈ r.ordered.filter fun x => key ≤ x.getMeta.startKey :=
        mem_filter.mpr ⟨(mem_ordered hs).mpr ⟨id, hx⟩, decide_eq_true hle⟩
      rw [scanRegions_eq hs le_rfl, Option.some.injEq] at heq
      have hnil := congrArg ScanRegionsResponse.regions heq
      cases hf : r.ordered.filter fun x => key ≤ x.getMeta.startKey with
      | nil => rw [hf] at hmem; exact absurd hmem not_mem_nil
      | cons => rw [hf] at hnil; cases hnil
    refine .inl ⟨hpos, fun id x hx hc => le_antisymm (start_le_of_contains hc) ?_⟩
    rw [scanRegions_eq hs hpos.le, Option.some.injEq] at heq
    exact start_of_agree hl (by omega) heq.symm ((hl.exact x).mpr ⟨⟨id, hx⟩, .inl hc⟩)
  rintro (⟨hpos, hstart⟩ | ⟨rfl, hlast⟩)
  · refine ⟨_, isScan_ordered hs, ?_⟩
    rw [scanRegions_eq hs hpos.le, filter_scan hs hstart, show max 1 limit.toNat = limit.toNat by omega]
  refine ⟨_, isScan_ordered hs, ?_⟩
  rw [scanRegions_eq hs le_rfl]
  have hnil : (r.ordered.filter fun x => decide (key ≤ x.getMeta.startKey)) = [] := by
    refine filter_eq_nil_iff.mpr fun x hx => ?_
    obtain ⟨id, hid⟩ := (mem_ordered hs).mp hx
    rw [decide_eq_true_eq]
    exact not_le.mpr (hlast id x hid)
  rw [hnil, take_nil]
  rfl

def twoRegions : List Op := [.set (newRegionInfo ⟨1, [], [98], some ⟨1, 1⟩, [⟨11, 1, false⟩]⟩ none),
    .set (newRegionInfo ⟨2, [98], [], some ⟨1, 1⟩, [⟨12, 1, false⟩]⟩ none)]

theorem scanRegions_whole : ∃ r, Runs.exec step new twoRegions = some r ∧
  ∃ l, r.IsScan [] l ∧ r.scanRegions [] 2 = some (response (l.take 2)) := by
  have hsome : (Runs.exec step new twoRegions).isSome = true := by decide +kernel
  obtain ⟨r, hr⟩ := Option.isSome_iff_exists.mp hsome
  have hops : ∀ op ∈ twoRegions, op.Ranged := by
    intro op hop
    simp only [twoRegions, mem_cons, not_mem_nil, or_false] at hop
    rcases hop with rfl | rfl
    · exact .inl (by decide)
    · exact .inr rfl
  refine ⟨r, hr, (scanRegions_iff twoRegions hops r hr [] 2).mpr (.inl ⟨by decide, ?_⟩)⟩
  intro id x _ hc
  cases hkey : x.getMeta.startKey with
  | nil => rfl
  | cons b key =>
    have hle := start_le_of_contains hc
    rw [hkey] at hle
    exact absurd (nil_lt_cons b key) (not_lt.mpr hle)

/-- The key lies inside region 1; the scan starts at region 2. -/
theorem scanRegions_misses :
  ((Runs.exec step new twoRegions).map fun r => (r.getRegion 1).map fun x => x.getMeta.contains [97]) =
      some (some true) ∧ ((Runs.exec step new twoRegions).bind fun r => r.scanRegions [97] 2) =
      some ⟨[⟨2, [98], [], some ⟨1, 1⟩, [⟨12, 1, false⟩]⟩], [⟨0, 0, false⟩]⟩ ∧
    ((Runs.exec step new twoRegions).bind fun r => r.scanRegions [97] (-1)) = none := by
  decide +kernel

end
end RegionsInfo
end PD
