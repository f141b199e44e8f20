import PD.Checker.RegionRules

/-! # The target of a merge -/

namespace PD
open Option RegionsInfo

def neighbours (v : PatrolView) (region : RegionInfo) : List RegionInfo :=
  (v.regions.getAdjacentRegions region).1.toList ++ (v.regions.getAdjacentRegions region).2.toList

def createMerge (cfg : PatrolConfig) (v : PatrolView) (region target : RegionInfo) :
  Option (Except String (Operator × Operator)) :=
  createMergeRegionOperator "merge-region" (v.toCluster cfg 2) region target .opMerge
    (v.choices.ids 2 (intersectionStores region.getPeers target.getPeers))

def MergesInto (cfg : PatrolConfig) (v : PatrolView) (region target : RegionInfo) : Prop :=
  ∃ op op', createMerge cfg v region target = some (.ok (op, op')) ∧ mergeCheck cfg v region = some [op, op']

def PrefersSmaller (cfg : PatrolConfig) (v : PatrolView) (region : RegionInfo) : Prop :=
  if cfg.enableOneWayMerge then
    (∀ next, (v.regions.getAdjacentRegions region).2 = some next → checkTarget cfg v region next = true →
      MergesInto cfg v region next) ∧
    ((∀ next, (v.regions.getAdjacentRegions region).2 = some next → checkTarget cfg v region next = false) →
      mergeCheck cfg v region = some [])
  else
    (∃ t ∈ neighbours v region, checkTarget cfg v region t = true) →
      ∃ t ∈ neighbours v region, checkTarget cfg v region t = true ∧
        (∀ t' ∈ neighbours v region, checkTarget cfg v region t' = true → t.approximateSize ≤ t'.approximateSize) ∧
        MergesInto cfg v region t

section
variable {cfg : PatrolConfig} {v : PatrolView} {region : RegionInfo}
variable {t prev next : RegionInfo} {op op' : Operator}

lemma mem_neighbours : t ∈ neighbours v region ↔
  (v.regions.getAdjacentRegions region).1 = some t ∨ (v.regions.getAdjacentRegions region).2 = some t := by
  rw [neighbours, List.mem_append, mem_toList, mem_toList]

lemma mergeCheck_none (hm : mergeable cfg v region = true) (ht : chooseTarget cfg v region = none) :
  mergeCheck cfg v region = some [] := by
  rw [mergeCheck, hm, ht]
  rfl

lemma mergeCheck_some (hm : mergeable cfg v region = true) (ht : chooseTarget cfg v region = some t)
  (hcreate : createMerge cfg v region t = some (.ok (op, op'))) : mergeCheck cfg v region = some [op, op'] := by
  unfold createMerge at hcreate
  rw [mergeCheck, hm, ht]
  simp only [hcreate]
  rfl

lemma createMerge_regionID (h : createMerge cfg v region t = some (.ok (op, op'))) : op'.regionID = t.getID := by
  obtain ⟨r, -, hr⟩ := map_eq_some_iff.mp h
  cases r with
  | error => cases hr
  | ok =>
    have hops := (Prod.mk.inj (Except.ok.inj hr)).2
    rw [← hops]
    rfl

lemma getAdjacentRegions_start (h : v.regions.Sound) (hp : (v.regions.getAdjacentRegions region).1 = some prev)
  (hn : (v.regions.getAdjacentRegions region).2 = some next) : prev.getMeta.startKey < next.getMeta.startKey := by
  obtain ⟨p, hpf, hpc⟩ := bind_eq_some_iff.mp hp
  obtain ⟨n, hnf, hnc⟩ := bind_eq_some_iff.mp hn
  have hpmem := List.mem_filter.mp (List.mem_of_getLast? (filter_eq_some_iff.mp hpf).1)
  have hnmem := List.mem_filter.mp (List.mem_of_head? (filter_eq_some_iff.mp hnf).1)
  obtain ⟨x, hx, hxmeta⟩ := getRegion_item h hpmem.1
  obtain ⟨y, hy, hymeta⟩ := getRegion_item h hnmem.1
  rw [hpc, Option.some.injEq] at hx
  rw [hnc, Option.some.injEq] at hy
  rw [hx, hy, hxmeta, hymeta]
  exact lt_trans (of_decide_eq_true hpmem.2) (of_decide_eq_true hnmem.2)

lemma getRegion_adjacent (h : v.regions.Sound) (ht : t ∈ neighbours v region) :
  v.regions.getRegion t.getID = some t := by
  have hget : ∃ id, v.regions.getRegion id = some t := by
    rcases mem_neighbours.mp ht with ht | ht
    · obtain ⟨p, -, hp⟩ := bind_eq_some_iff.mp ht
      exact ⟨_, hp⟩
    obtain ⟨n, -, hn⟩ := bind_eq_some_iff.mp ht
    exact ⟨_, hn⟩
  exact getRegion_ordered h ((mem_ordered h).mpr hget)

lemma not_both (h : v.regions.Sound) (hp : (v.regions.getAdjacentRegions region).1 = some prev)
  (hn : (v.regions.getAdjacentRegions region).2 = some next) :
  ¬ (MergesInto cfg v region prev ∧ MergesInto cfg v region next) := by
  rintro ⟨⟨op, op', hcreate, hcheck⟩, ⟨oq, oq', hcreate', hcheck'⟩⟩
  have hops : op' = oq' := by
    rw [hcheck] at hcheck'
    injection hcheck' with hlist
    exact (List.cons.inj (List.cons.inj hlist).2).1
  have hid : prev.getID = next.getID := by rw [← createMerge_regionID hcreate, ← createMerge_regionID hcreate', hops]
  have hprev := getRegion_adjacent h (mem_neighbours.mpr (.inl hp))
  rw [hid, getRegion_adjacent h (mem_neighbours.mpr (.inr hn))] at hprev
  have hlt := getAdjacentRegions_start h hp hn
  rw [some.inj hprev] at hlt
  exact lt_irrefl _ hlt

lemma prefers_oneWay (hm : mergeable cfg v region = true) (hway : cfg.enableOneWayMerge = true)
  (hcreate : ∀ t ∈ neighbours v region, checkTarget cfg v region t = true →
    ∃ ops, createMerge cfg v region t = some (.ok ops)) : PrefersSmaller cfg v region := by
  have htarget : chooseTarget cfg v region =
      (v.regions.getAdjacentRegions region).2.filter (checkTarget cfg v region) := by
    rw [chooseTarget_eq, if_pos hway]
  rw [PrefersSmaller, if_pos hway]
  refine ⟨fun next hnext hok => ?_, fun hnone => mergeCheck_none hm ?_⟩
  · obtain ⟨⟨op, op'⟩, hops⟩ := hcreate next (mem_neighbours.mpr (.inr hnext)) hok
    refine ⟨op, op', hops, mergeCheck_some hm ?_ hops⟩
    rw [htarget, hnext]
    exact filter_some_pos hok
  rw [htarget, filter_eq_none_iff]
  intro next hnext
  rw [hnone next hnext]
  exact Bool.false_ne_true

lemma chooseTarget_prev (hway : ¬ cfg.enableOneWayMerge = true) :
  chooseTarget cfg v region = (v.regions.getAdjacentRegions region).1.filter (checkTarget cfg v region) := by
  rw [chooseTarget_eq, if_neg hway]

lemma mergesInto_prev (hm : mergeable cfg v region = true) (hway : ¬ cfg.enableOneWayMerge = true)
  (hp : (v.regions.getAdjacentRegions region).1 = some prev) (hok : checkTarget cfg v region prev = true)
  {ops : Operator × Operator} (hops : createMerge cfg v region prev = some (.ok ops)) :
  MergesInto cfg v region prev := by
  refine ⟨ops.1, ops.2, hops, mergeCheck_some hm ?_ hops⟩
  rw [chooseTarget_prev hway, hp]
  exact filter_some_pos hok

lemma prev_of_mergesInto (hm : mergeable cfg v region = true) (hway : ¬ cfg.enableOneWayMerge = true)
  (h : MergesInto cfg v region t) :
  ∃ prev, (v.regions.getAdjacentRegions region).1 = some prev ∧ checkTarget cfg v region prev = true := by
  obtain ⟨op, op', -, hcheck⟩ := h
  cases htarget : chooseTarget cfg v region with
  | none =>
    rw [mergeCheck_none hm htarget] at hcheck
    cases hcheck
  | some prev =>
    rw [chooseTarget_prev hway] at htarget
    exact ⟨prev, filter_eq_some_iff.mp htarget⟩

end

/-- **The merge target** is the smaller neighbour if merging is one way or that is the previous one. -/
theorem prefersSmaller_iff (cfg : PatrolConfig) (v : PatrolView) (region : RegionInfo) (h : v.regions.Sound)
  (hm : mergeable cfg v region = true) (hcreate : ∀ t ∈ neighbours v region, checkTarget cfg v region t = true →
    ∃ ops, createMerge cfg v region t = some (.ok ops)) : PrefersSmaller cfg v region ↔ cfg.enableOneWayMerge = true ∨
    ∀ next, (v.regions.getAdjacentRegions region).2 = some next → checkTarget cfg v region next = true →
      ∃ prev, (v.regions.getAdjacentRegions region).1 = some prev ∧ checkTarget cfg v region prev = true ∧
        prev.approximateSize ≤ next.approximateSize := by
  by_cases hway : cfg.enableOneWayMerge = true
  · exact iff_of_true (prefers_oneWay hm hway hcreate) (.inl hway)
  constructor
  · intro hprefers
    refine .inr fun next hnext hok => ?_
    unfold PrefersSmaller at hprefers
    rw [if_neg hway] at hprefers
    obtain ⟨t, ht, htok, hleast, hinto⟩ := hprefers ⟨next, mem_neighbours.mpr (.inr hnext), hok⟩
    obtain ⟨prev, hprev, hpok⟩ := prev_of_mergesInto hm hway hinto
    refine ⟨prev, hprev, hpok, ?_⟩
    obtain ⟨ops, hops⟩ := hcreate prev (mem_neighbours.mpr (.inl hprev)) hpok
    have hpinto := mergesInto_prev hm hway hprev hpok hops
    rcases mem_neighbours.mp ht with ht | ht
    · rw [hprev, Option.some.injEq] at ht
      subst ht
      exact hleast next (mem_neighbours.mpr (.inr hnext)) hok
    · exact absurd ⟨hpinto, hinto⟩ (not_both h hprev ht)
  rintro (hway' | hsmaller)
  · exact absurd hway' hway
  rw [PrefersSmaller, if_neg hway]
  rintro ⟨t, ht, htok⟩
  -- the previous region may be merged with, whichever neighbour may
  obtain ⟨prev, hprev, hpok⟩ : ∃ prev, (v.regions.getAdjacentRegions region).1 = some prev ∧
      checkTarget cfg v region prev = true := by
    rcases mem_neighbours.mp ht with ht | ht
    · exact ⟨t, ht, htok⟩
    obtain ⟨prev, hprev, hpok, -⟩ := hsmaller t ht htok
    exact ⟨prev, hprev, hpok⟩
  obtain ⟨ops, hops⟩ := hcreate prev (mem_neighbours.mpr (.inl hprev)) hpok
  refine ⟨prev, mem_neighbours.mpr (.inl hprev), hpok, fun t' ht' htok' => ?_, mergesInto_prev hm hway hprev hpok hops⟩
  rcases mem_neighbours.mp ht' with ht' | ht'
  · rw [hprev, Option.some.injEq] at ht'
    rw [ht']
  obtain ⟨prev', hprev', -, hle⟩ := hsmaller t' ht' htok'
  rw [hprev, Option.some.injEq] at hprev'
  rw [hprev']
  exact hle

def smallHalf (id : Nat) : RegionInfo :=
  smallRegion ⟨id, if id = 1 then [] else [109], if id = 1 then [109] else [], some ⟨1, 1⟩,
    [⟨11, 1, false⟩, ⟨12, 2, false⟩, ⟨13, 3, false⟩]⟩ (some ⟨11, 1, false⟩) 10

def smallHalves (r : RegionsInfo) : PatrolView :=
  ⟨r, .empty, fun _ => false, UserScheduler.globalOnly, false, .empty, [], plainChoices 0 0⟩

lemma smallHalves_ready : ∃ r, Runs.exec RegionsInfo.step .new [.set (smallHalf 1), .set (smallHalf 2)] = some r ∧
  r.Sound ∧ r.getAdjacentRegions (smallHalf 1) = (none, some (smallHalf 2)) ∧
  r.getAdjacentRegions (smallHalf 2) = (some (smallHalf 1), none) ∧
  mergeCheck (defaultPatrol [] true) (smallHalves r) (smallHalf 1) = some [] := by
  have heval : (Runs.exec RegionsInfo.step .new [.set (smallHalf 1), .set (smallHalf 2)]).map (fun r =>
      (r.getAdjacentRegions (smallHalf 1), r.getAdjacentRegions (smallHalf 2),
        mergeCheck (defaultPatrol [] true) (smallHalves r) (smallHalf 1))) =
      some ((none, some (smallHalf 2)), (some (smallHalf 1), none), some []) := by
    decide +kernel
  obtain ⟨r, hr, he⟩ := map_eq_some_iff.mp heval
  obtain ⟨h1, he⟩ := Prod.mk.inj he
  obtain ⟨h2, h3⟩ := Prod.mk.inj he
  exact ⟨r, hr, (RegionsInfo.inv_exec (by decide) hr).sound, h1, h2, h3⟩

lemma smallHalves_create (r : RegionsInfo) {a b : Nat} (h : a = 1 ∧ b = 2 ∨ a = 2 ∧ b = 1) :
  mergeable (defaultPatrol [] true) (smallHalves r) (smallHalf a) = true ∧
    checkTarget (defaultPatrol [] true) (smallHalves r) (smallHalf a) (smallHalf b) = true ∧
    ∃ ops, createMerge (defaultPatrol [] true) (smallHalves r) (smallHalf a) (smallHalf b) = some (.ok ops) := by
  rcases h with ⟨rfl, rfl⟩ | ⟨rfl, rfl⟩ <;> exact ⟨rfl, rfl, _, rfl⟩

theorem prefersSmaller_iff_last :
  ∃ r, r.Sound ∧ PrefersSmaller (defaultPatrol [] true) (smallHalves r) (smallHalf 2) := by
  obtain ⟨r, -, hsound, -, hadj, -⟩ := smallHalves_ready
  have hready := smallHalves_create r (.inr ⟨rfl, rfl⟩)
  have hadj' : (smallHalves r).regions.getAdjacentRegions (smallHalf 2) = (some (smallHalf 1), none) := hadj
  refine ⟨r, hsound, (prefersSmaller_iff _ _ _ hsound hready.1 fun t ht _ => ?_).mpr (.inr fun next hnext _ => ?_)⟩
  · rw [mem_neighbours, hadj'] at ht
    rcases ht with ht | ht
    · rw [← some.inj ht]
      exact hready.2.2
    · cases ht
  rw [hadj'] at hnext
  cases hnext

theorem first_region_not_merged : ∃ r, r.Sound ∧
  (smallHalves r).regions.getAdjacentRegions (smallHalf 1) = (none, some (smallHalf 2)) ∧
  mergeable (defaultPatrol [] true) (smallHalves r) (smallHalf 1) = true ∧
  checkTarget (defaultPatrol [] true) (smallHalves r) (smallHalf 1) (smallHalf 2) = true ∧
  (∃ ops, createMerge (defaultPatrol [] true) (smallHalves r) (smallHalf 1) (smallHalf 2) = some (.ok ops)) ∧
  mergeCheck (defaultPatrol [] true) (smallHalves r) (smallHalf 1) = some [] ∧
  ¬ PrefersSmaller (defaultPatrol [] true) (smallHalves r) (smallHalf 1) := by
  obtain ⟨r, -, hsound, hadj, -, hcheck⟩ := smallHalves_ready
  have hadj' : (smallHalves r).regions.getAdjacentRegions (smallHalf 1) = (none, some (smallHalf 2)) := hadj
  obtain ⟨hm, hok, hops⟩ := smallHalves_create r (.inl ⟨rfl, rfl⟩)
  refine ⟨r, hsound, hadj', hm, hok, hops, hcheck, fun hprefers => ?_⟩
  have hnext : smallHalf 2 ∈ neighbours (smallHalves r) (smallHalf 1) := by
    rw [mem_neighbours, hadj']
    exact .inr rfl
  obtain ⟨t, -, -, -, op, op', -, hops'⟩ := hprefers ⟨smallHalf 2, hnext, hok⟩
  rw [hcheck] at hops'
  cases hops'

end PD
