import PD.Core.Paging
import PD.Lib.Blocks

/-! # The adjacent region scheduler -/

namespace PD
open List RegionsInfo
open Blocks

def scanLimit : Int := 1000

structure AdjacentState where
  assignedStoreIds : List Nat
  regions : List RegionInfo
  head : Nat

def AdjacentState.len (a : AdjacentState) : Nat := a.regions.length - a.head

structure AdjacentScheduler where
  lastKey : Key
  cacheRegions : Option AdjacentState
  adjacentRegionsCount : Nat

def adjacent (lastRegion r : RegionInfo) : Bool :=
  lastRegion.leaderStore = r.leaderStore && lastRegion.getMeta.endKey = r.getMeta.startKey

namespace AdjacentScheduler

structure Scan where
  adjacentRegions : List RegionInfo
  nonempty : adjacentRegions ≠ []
  maxLen : Nat
  regions : List RegionInfo
  lastKey : Key

def Scan.lastRegion (s : Scan) : RegionInfo := s.adjacentRegions.getLast s.nonempty

def Scan.endRun (s : Scan) (r : RegionInfo) : Scan :=
  if s.adjacentRegions.length = 1 then { s with adjacentRegions := [r], nonempty := by simp }
  else if s.maxLen < s.adjacentRegions.length then
    { s with adjacentRegions := [r], nonempty := by simp, maxLen := s.adjacentRegions.length,
             regions := s.adjacentRegions }
  else s

def Scan.visit (s : Scan) (r : RegionInfo) : Scan := { s with lastKey := r.getMeta.startKey }

def Scan.join (s : Scan) (r : RegionInfo) : Scan :=
  { s with adjacentRegions := s.adjacentRegions ++ [r], nonempty := by simp }

def Scan.step (s : Scan) (r : RegionInfo) (isLast : Bool) : Scan :=
  let s := s.visit r
  if adjacent s.lastRegion r then
    if isLast then (s.join r).endRun r else s.join r
  else s.endRun r

def scanLoop : Scan → List RegionInfo → Scan
  | s, [] => s
  | s, r :: regions => scanLoop (s.step r regions.isEmpty) regions

-- what `unsafeToBalance`, `disperseLeader` and `dispersePeer` make of two regions: the operator, and the assigned
-- stores after them
variable {O : Type} (op : RegionInfo → RegionInfo → List Nat → Option O × List Nat) (l : AdjacentScheduler)

def process (cache : AdjacentState) : AdjacentScheduler × Option O :=
  match cache.regions.drop cache.head with
  | r1 :: r2 :: _ =>
    let (operator, assignedStoreIds) := op r1 r2 cache.assignedStoreIds
    ({ l with lastKey := r2.getMeta.startKey,
              cacheRegions := some { cache with assignedStoreIds, head := cache.head + 1 } }, operator)
  | _ => ({ l with cacheRegions := some cache }, none)

def schedule (regions : List RegionInfo) : AdjacentScheduler × Option O :=
  let cache := l.cacheRegions.getD ⟨[], [], 0⟩
  if 2 ≤ cache.len then l.process op cache
  else match regions with
    | first :: second :: rest =>
      let s := scanLoop ⟨[first], by simp, 0, [], l.lastKey⟩ (second :: rest)
      process op { l with lastKey := s.lastKey, adjacentRegionsCount := l.adjacentRegionsCount + s.maxLen }
        ⟨[], s.regions, 0⟩
    | _ => ({ lastKey := [], cacheRegions := some ⟨[], [], 0⟩, adjacentRegionsCount := 0 }, none)

section
variable {s : Scan} {x r : RegionInfo} {run page : List RegionInfo}

def Tight (page : List RegionInfo) : Prop := ∀ x y z, [x, y, z].Sublist page → adjacent x z = false

lemma endRun_one (r : RegionInfo) (h : s.adjacentRegions.length = 1) :
    s.endRun r = { s with adjacentRegions := [r], nonempty := by simp } := if_pos h

lemma endRun_longer (r : RegionInfo) (htwo : 2 ≤ s.adjacentRegions.length) (h : s.maxLen < s.adjacentRegions.length) :
    s.endRun r = { s with adjacentRegions := [r], nonempty := by simp, maxLen := s.adjacentRegions.length,
                          regions := s.adjacentRegions } := by
  rw [Scan.endRun, if_neg (by omega), if_pos h]

lemma endRun_not_longer (r : RegionInfo) (htwo : 2 ≤ s.adjacentRegions.length)
  (h : s.adjacentRegions.length ≤ s.maxLen) : s.endRun r = s := by
  rw [Scan.endRun, if_neg (by omega), if_neg (by omega)]

lemma step_apart (isLast : Bool) (h : adjacent s.lastRegion r = false) :
    s.step r isLast = (s.visit r).endRun r := if_neg (Bool.eq_false_iff.mp h)

lemma step_join (isLast : Bool) (h : adjacent s.lastRegion r = true) :
    s.step r isLast = if isLast then ((s.visit r).join r).endRun r else (s.visit r).join r := if_pos h

lemma scanLoop_stuck (htwo : 2 ≤ s.adjacentRegions.length) (hmax : s.adjacentRegions.length ≤ s.maxLen)
  (regions : List RegionInfo) (hno : ∀ r ∈ regions, adjacent s.lastRegion r = false) :
  (scanLoop s regions).regions = s.regions := by
  induction regions generalizing s with
  | nil => rfl
  | cons r _ ih =>
    rw [scanLoop, step_apart _ (hno r mem_cons_self), endRun_not_longer (s := s.visit r) r htwo hmax]
    exact ih htwo hmax fun r' hr' => hno r' (mem_cons_of_mem _ hr')

lemma chain_snoc (h : s.adjacentRegions.IsChain fun x y => adjacent x y) (hadj : adjacent s.lastRegion r = true) :
  (s.adjacentRegions ++ [r]).IsChain fun x y => adjacent x y := by
  refine h.append (isChain_singleton r) fun x hx y hy => ?_
  rw [List.getLast?_eq_some_getLast s.nonempty] at hx
  simp only [Option.mem_def, Option.some.injEq, List.head?_cons] at hx hy
  rw [← hx, ← hy]
  exact hadj

lemma Tight.apart {regions : List RegionInfo} (h : Tight (s.adjacentRegions ++ r :: regions)) :
  ∀ r' ∈ regions, adjacent s.lastRegion r' = false := by
  intro r' hr'
  have hlast : [s.lastRegion] <+ s.adjacentRegions := singleton_sublist.mpr (getLast_mem _)
  exact h _ r r' (hlast.append ((singleton_sublist.mpr hr').cons_cons r))

lemma scanLoop_eq (regions : List RegionInfo) (hchain : s.adjacentRegions.IsChain fun x y => adjacent x y)
  (hmax : s.maxLen = s.regions.length) (hone : s.adjacentRegions.length = 1 ∨ regions ≠ [])
  (htight : Tight (s.adjacentRegions ++ regions)) :
  (scanLoop s regions).regions = pick s.regions ((s.adjacentRegions ++ regions).splitBy adjacent) := by
  induction regions generalizing s with
  | nil =>
    have hlen := hone.resolve_right fun h => h rfl
    rw [append_nil, splitBy_of_isChain s.nonempty hchain, pick, if_pos (by omega)]
    rfl
  | cons r regions ih =>
    have hpos := length_pos_of_ne_nil s.nonempty
    by_cases hadj : adjacent s.lastRegion r = true
    · have hjoin := chain_snoc hchain hadj
      cases regions with
      | nil =>
        have htwo : 2 ≤ (s.adjacentRegions ++ [r]).length := by
          rw [length_append]
          exact Nat.add_le_add_right hpos 1
        rw [splitBy_of_isChain (by simp) hjoin, pick, if_neg (Nat.not_lt.mpr htwo), scanLoop, step_join _ hadj, ← hmax]
        show (((s.visit r).join r).endRun r).regions = _
        split
        next hlt => rw [endRun_longer (s := (s.visit r).join r) r htwo hlt]; rfl
        next hle => rw [endRun_not_longer (s := (s.visit r).join r) r htwo (Nat.le_of_not_lt hle)]; rfl
      | cons =>
        rw [append_cons, scanLoop, step_join _ hadj]
        exact ih (s := (s.visit r).join r) hjoin hmax (.inr (by simp)) (by rwa [append_cons] at htight)
    have hadj : adjacent s.lastRegion r = false := by simpa using hadj
    have hnext : Tight ([r] ++ regions) := fun x y z h => htight x y z (h.trans (sublist_append_right ..))
    have hsplit : (s.adjacentRegions ++ r :: regions).splitBy adjacent =
        s.adjacentRegions :: ([r] ++ regions).splitBy adjacent := by
      rw [splitBy_append_cons regions, splitBy_of_isChain s.nonempty hchain]
      · rfl
      intro x hx
      rw [List.getLast?_eq_some_getLast s.nonempty] at hx
      cases hx
      exact hadj
    rw [hsplit, pick, scanLoop, step_apart _ hadj, ← hmax]
    split
    next _ =>
      rw [endRun_one (s := s.visit r) r (by show s.adjacentRegions.length = 1; omega)]
      exact ih (isChain_singleton r) hmax (.inl rfl) hnext
    next htwo =>
      have htwo := Nat.le_of_not_lt htwo
      split
      next hlt =>
        rw [endRun_longer (s := s.visit r) r htwo hlt]
        exact ih (isChain_singleton r) rfl (.inl rfl) hnext
      next hle =>
        have hle := Nat.le_of_not_lt hle
        rw [endRun_not_longer (s := s.visit r) r htwo hle]
        exact scanLoop_stuck (s := s.visit r) htwo hle regions htight.apart

lemma tight_scan {c : RegionsInfo} (h : c.Sound) {key : Key}
  (hscan : c.scanRange key scanLimit = some (page.map some)) : Tight page := by
  intro x y z hsub
  rw [scanRange_startingAt h key (by decide)] at hscan
  have hpage := map_injective_iff.mpr (Option.some_injective _) (Option.some.inj hscan)
  have hsub : [x, y, z].Sublist c.ordered := hsub.trans (hpage ▸ (take_sublist _ _).trans filter_sublist)
  have hsorted := (ordered_sorted h).sublist hsub
  simp only [pairwise_cons, mem_cons, not_mem_nil, or_false, forall_eq_or_imp, forall_eq] at hsorted
  have hend := end_le_start h (hsub.subset (by simp)) (hsub.subset (by simp)) hsorted.1.1
  have hlt := hend.2.trans_lt hsorted.2.1
  simp only [adjacent, Bool.and_eq_false_iff, decide_eq_false_iff_not]
  exact .inr (ne_of_lt hlt)

end

lemma process_regions (cache : AdjacentState) :
  ((l.process op cache).1.cacheRegions.map AdjacentState.regions) = some cache.regions := by
  unfold process
  split <;> rfl

/-- **When a longest run is picked.** -/
theorem schedule_longest_iff (ops : List RegionsInfo.Op) (hops : ∀ op ∈ ops, op.Ranged) (c : RegionsInfo)
  (hc : Runs.exec RegionsInfo.step .new ops = some c)
  (hcache : (l.cacheRegions.getD ⟨[], [], 0⟩).len < 2) (page : List RegionInfo)
  (hscan : c.scanRange l.lastKey scanLimit = some (page.map some)) (hpage : 2 ≤ page.length) :
  ∃ left, (l.schedule op page).1.cacheRegions.map AdjacentState.regions = some left ∧
    (Longest adjacent page left ↔ Grows (page.splitBy adjacent)) := by
  have htight := tight_scan (sound_exec hops hc) hscan
  match page, hpage with
  | first :: second :: rest, _ =>
    refine ⟨pick [] ((first :: second :: rest).splitBy adjacent), ?_, longest_pick_iff⟩
    unfold schedule
    rw [if_neg (by omega)]
    refine (process_regions ..).trans (congrArg some ?_)
    exact scanLoop_eq (s := ⟨[first], by simp, 0, [], l.lastKey⟩) (second :: rest) (isChain_singleton first) rfl
      (.inl rfl) htight

def ledRegions : List RegionInfo := [(1, 1), (2, 1), (3, 2), (4, 2), (5, 3), (6, 3), (7, 3)].map fun (id, store) =>
    newRegionInfo ⟨id, [.ofNat id], [.ofNat (id+1)], none, [⟨id, store, false⟩]⟩ (some ⟨id, store, false⟩)

theorem schedule_longest_iff_led : ∃ c, Runs.exec RegionsInfo.step .new (ledRegions.map .set) = some c ∧
  ∃ left, (schedule (fun _ _ _ => (none, [])) ⟨[], none, 0⟩ ledRegions : _ × Option Unit).1.cacheRegions.map
    AdjacentState.regions = some left ∧ (Longest adjacent ledRegions left ↔ Grows (ledRegions.splitBy adjacent)) := by
  have hrun : (Runs.exec RegionsInfo.step .new (ledRegions.map .set)).map (·.scanRange [] scanLimit) =
      some (some (ledRegions.map some)) := by decide +kernel
  obtain ⟨c, hc, hscan⟩ := Option.map_eq_some_iff.mp hrun
  exact ⟨c, hc, schedule_longest_iff _ ⟨[], none, 0⟩ (ledRegions.map .set) (by decide) c hc (by decide) ledRegions hscan
    (by decide)⟩

theorem longest_run_missed : ∃ c, Runs.exec RegionsInfo.step .new (ledRegions.map .set) = some c ∧
  c.scanRange [] scanLimit = some (ledRegions.map some) ∧
  (schedule (fun _ _ _ => (none, [])) ⟨[], none, 0⟩ ledRegions : _ × Option Unit).1.cacheRegions.map
    AdjacentState.regions = some (ledRegions.take 2) ∧
  IsRun adjacent ledRegions (ledRegions.drop 4) ∧ ¬ Longest adjacent ledRegions (ledRegions.take 2) := by
  have hrun : (Runs.exec RegionsInfo.step .new (ledRegions.map .set)).map (·.scanRange [] scanLimit) =
      some (some (ledRegions.map some)) := by decide +kernel
  obtain ⟨c, hc, hscan⟩ := Option.map_eq_some_iff.mp hrun
  have hthree : IsRun adjacent ledRegions (ledRegions.drop 4) :=
    ⟨⟨ledRegions.take 4, [], by decide⟩, by decide, by decide⟩
  refine ⟨c, hc, hscan, by decide, hthree, fun h => ?_⟩
  exact absurd ((h.1 ⟨_, hthree⟩).2 _ hthree) (by decide)

end AdjacentScheduler
end PD
