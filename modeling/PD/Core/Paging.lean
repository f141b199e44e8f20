import PD.Core.TreeQueries

/-! # Paging through the region cache -/

namespace PD
namespace RegionsInfo
open List

def paging (r : RegionsInfo) (limit : Int) : Nat → Key → Option (List (Option RegionInfo))
  | 0, _ => none
  | fuel + 1, key =>
    (r.scanRange key limit).bind fun page =>
      match page.getLast? with
      | none => some []
      | some none => none
      | some (some last) =>
        if last.getMeta.endKey.isEmpty then some page
        else (paging r limit fuel last.getMeta.endKey).map fun rest => page ++ rest

section
variable {r : RegionsInfo} {pre post : List RegionInfo} {x : RegionInfo}

def startingAt (r : RegionsInfo) (key : Key) : List RegionInfo := r.ordered.filter fun x => key ≤ x.getMeta.startKey

lemma last_of_end (h : r.Sound) (hl : r.ordered = pre ++ x :: post) (hend : x.getMeta.endKey = []) : post = [] := by
  have hsorted := ordered_sorted h
  rw [hl] at hsorted
  have hx : x ∈ r.ordered := by rw [hl]; simp
  refine eq_nil_iff_forall_not_mem.mpr ?_
  intro y hy
  have hlt := (pairwise_cons.mp (pairwise_append.mp hsorted).2.1).1 y hy
  have hy' : y ∈ r.ordered := by rw [hl]; simp [hy]
  exact (end_le_start h hx hy' hlt).1 hend

lemma filter_end (h : r.Sound) (hl : r.ordered = pre ++ x :: post) (hend : x.getMeta.endKey ≠ []) :
  r.startingAt x.getMeta.endKey = post := by
  have hsorted := ordered_sorted h
  rw [hl] at hsorted
  obtain ⟨-, hrest, hbefore⟩ := pairwise_append.mp hsorted
  have hx : x ∈ r.ordered := by rw [hl]; simp
  have hself : x.getMeta.startKey < x.getMeta.endKey := (nonempty_ordered h hx).resolve_right hend
  have hpre : pre.filter (fun y => x.getMeta.endKey ≤ y.getMeta.startKey) = [] := by
    refine filter_eq_nil_iff.mpr ?_
    intro y hy
    have hlt := hbefore y hy x mem_cons_self
    simpa using lt_trans hlt hself
  have hpost : post.filter (fun y => x.getMeta.endKey ≤ y.getMeta.startKey) = post := by
    refine filter_eq_self.mpr ?_
    intro y hy
    have hlt := (pairwise_cons.mp hrest).1 y hy
    have hy' : y ∈ r.ordered := by rw [hl]; simp [hy]
    simpa using (end_le_start h hx hy' hlt).2
  unfold startingAt
  rw [hl, filter_append, hpre, filter_cons_of_neg (by simpa using hself), hpost]
  rfl

lemma startingAt_suffix (h : r.Sound) (key : Key) : ∃ pre, r.ordered = pre ++ r.startingAt key := by
  have hsorted := ordered_sorted h
  unfold startingAt
  generalize r.ordered = l at hsorted
  induction l with
  | nil => exact ⟨[], rfl⟩
  | cons y l ih =>
    obtain ⟨hy, hl⟩ := pairwise_cons.mp hsorted
    by_cases hkey : key ≤ y.getMeta.startKey
    · refine ⟨[], ?_⟩
      rw [nil_append]
      symm
      apply filter_eq_self.mpr
      intro z hz
      rcases mem_cons.mp hz with rfl | hz
      · exact decide_eq_true hkey
      · exact decide_eq_true (le_trans hkey (le_of_lt (hy z hz)))
    obtain ⟨pre, hpre⟩ := ih hl
    rw [filter_cons_of_neg (by simpa using hkey)]
    exact ⟨y :: pre, congrArg (y :: ·) hpre⟩

lemma scanRange_startingAt (h : r.Sound) (key : Key) {limit : Int} (hlimit : 1 ≤ limit) :
  r.scanRange key limit = some (((r.startingAt key).take limit.toNat).map some) := by
  have hmax : max 1 limit.toNat = limit.toNat := by omega
  rw [scanRange_eq h, if_neg (by omega), hmax]
  rfl

lemma paging_eq (h : r.Sound) {limit : Int} (hlimit : 1 ≤ limit) {fuel : Nat} {key : Key}
  (hfuel : (r.startingAt key).length < fuel) : r.paging limit fuel key = some ((r.startingAt key).map some) := by
  induction fuel generalizing key with
  | zero => omega
  | succ fuel ih =>
    rw [paging, scanRange_startingAt h key hlimit, Option.bind_some]
    obtain ⟨pre, hpre⟩ := startingAt_suffix h key
    cases hlast : ((r.startingAt key).take limit.toNat).getLast? with
    | none =>
      have hnil := List.getLast?_eq_none_iff.mp hlast
      have hempty : r.startingAt key = [] := by
        rcases take_eq_nil_iff.mp hnil with hzero | hnil
        · omega
        · exact hnil
      rw [hempty, take_nil]
      rfl
    | some last =>
      obtain ⟨front, hfront⟩ := List.getLast?_eq_some_iff.mp hlast
      have hsplit : r.startingAt key = front ++ last :: (r.startingAt key).drop limit.toNat := by
        calc r.startingAt key = (r.startingAt key).take limit.toNat ++ (r.startingAt key).drop limit.toNat :=
              (take_append_drop ..).symm
          _ = front ++ last :: (r.startingAt key).drop limit.toNat := by rw [hfront, append_assoc]; rfl
      have hordered : r.ordered = (pre ++ front) ++ last :: (r.startingAt key).drop limit.toNat := by
        rw [append_assoc, ← hsplit]
        exact hpre
      rw [List.getLast?_map, hlast]
      show (if last.getMeta.endKey.isEmpty then _ else _) = _
      split
      next hend =>
        have hdrop := last_of_end h hordered (List.isEmpty_iff.mp hend)
        rw [take_of_length_le (drop_eq_nil_iff.mp hdrop)]
      next hend =>
        have hrest := filter_end h hordered fun e => hend (List.isEmpty_iff.mpr e)
        have hlt : ((r.startingAt key).drop limit.toNat).length < fuel := by
          have hlen := congrArg List.length hsplit
          rw [length_append, length_cons] at hlen
          omega
        rw [ih (hrest.symm ▸ hlt), hrest, Option.map_some, ← map_append, take_append_drop]

lemma length_startingAt_le (h : r.Sound) (key : Key) : (r.startingAt key).length ≤ r.tree.length := by
  have hlen : r.ordered.length = r.tree.items.length := by rw [← map_getMeta_ordered h, length_map]
  have hle : (r.startingAt key).length ≤ r.ordered.length := length_filter_le ..
  rw [hlen] at hle
  exact le_trans hle (le_of_eq (SortedMap.size_eq _).symm)

end

/-- **Paging enumerates every region once.** -/
theorem paging_enumerates (ops : List Op) (hops : ∀ op ∈ ops, op.Ranged) (r : RegionsInfo)
  (hr : Runs.exec step new ops = some r) (key : Key) (limit : Int) (hlimit : 1 ≤ limit) :
  ∃ regions : List RegionInfo, (∀ fuel, r.tree.length < fuel → r.paging limit fuel key = some (regions.map some)) ∧
    regions.Pairwise (fun x y => x.getMeta.startKey < y.getMeta.startKey) ∧
    ∀ x, x ∈ regions ↔ (∃ id, r.getRegion id = some x) ∧ key ≤ x.getMeta.startKey := by
  have h : r.Sound := sound_exec hops hr
  refine ⟨r.startingAt key, ?_, (ordered_sorted h).filter _, ?_⟩
  · intro fuel hfuel
    exact paging_eq h hlimit (lt_of_le_of_lt (length_startingAt_le h key) hfuel)
  intro x
  unfold startingAt
  rw [mem_filter, mem_ordered h, decide_eq_true_eq]

theorem paging_enumerates_holed : ∃ r, Runs.exec step new holed = some r ∧ r.tree.length = 3 ∧
  ∃ regions : List RegionInfo, r.paging 2 4 [5] = some (regions.map some) ∧
    ∀ x, x ∈ regions ↔ (∃ id, r.getRegion id = some x) ∧ [5] ≤ x.getMeta.startKey := by
  have hrun : (Runs.exec step new holed).map (fun r => r.tree.length) = some 3 := by decide +kernel
  obtain ⟨r, hr, hlength⟩ := Option.map_eq_some_iff.mp hrun
  obtain ⟨regions, hpaging, -, hmem⟩ := paging_enumerates holed (by decide) r hr [5] 2 (by decide)
  exact ⟨r, hr, hlength, regions, hpaging 4 (by omega), hmem⟩

end RegionsInfo
end PD
