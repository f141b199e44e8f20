import PD.Core.RegionCache

/-! # The regions of a store -/

namespace PD
namespace RegionsInfo
open List Option SortedMap RegionMap
variable (order : RegionMap → List RegionInfo)

def RangeOrder : Prop := ∀ rm, (order rm).Perm rm.view.values

def getStoreRegions (r : RegionsInfo) (storeID : Nat) : List RegionInfo :=
  order (r.leaders.at storeID) ++ order (r.followers.at storeID)

structure Seats (r : RegionsInfo) : Prop extends Keyed r where
  exact : ∀ role, role ≠ .pending → ∀ s, ((r.index role).at s).view = r.cached.keep fun x => x.on role s

section
variable {r r' : RegionsInfo}
variable {id s : Nat} {x region : RegionInfo} {overlaps : List Region}

lemma seats_new : new.Seats where
  wf := sound_new.wf
  ids := sound_new.ids
  exact := by
    intro role _ s
    cases role <;> rfl

lemma seats_removeRegion (h : r.Seats) (hx : r.cached.lookup id = some x)
  (hr : r.removeRegion x = some r') : r'.Seats ∧ r'.cached = r.cached.erase id := by
  have hid : x.getID = id := h.ids id x hx
  obtain ⟨r1, e, hw, -, hc, hv⟩ := removeRegion_index h.wf x
  obtain rfl := some.inj (e.symm.trans hr)
  rw [hid] at hc hv
  refine ⟨⟨⟨hw, ?_⟩, ?_⟩, hc⟩
  · intro k y hy
    rw [hc] at hy
    exact h.ids k y (lookup_erase_some.mp hy).2
  intro role hrole s
  rw [hv role s, hc, h.exact role hrole s]
  split
  · rw [keep_erase]
  next hs =>
    have hoff : x.on role s = false := by
      rw [Bool.eq_false_iff]
      exact fun hon => hs (mem_of_seat hrole hon)
    rw [keep_erase_of_not _ hx hoff]

lemma seats_evictAll (items : List Region) (h : r.Seats) (he : items.foldlM evict r = some r') : r'.Seats := by
  induction items generalizing r with
  | nil =>
    cases he
    exact h
  | cons o _ ih =>
    rw [foldlM_cons] at he
    obtain ⟨r1, h1, hrest⟩ := bind_eq_some_iff.mp he
    obtain ⟨x, hx, hrem⟩ := bind_eq_some_iff.mp h1
    rw [getRegion_eq] at hx
    exact ih (seats_removeRegion h hx hrem).1 hrest

lemma seats_enter (h : r.Seats) (hnone : r.cached.lookup region.getID = none) : (enter region r).Seats := by
  obtain ⟨hw, -, hc, -⟩ := enter_spec h.wf region
  refine ⟨⟨hw, ?_⟩, ?_⟩
  · intro id x hx
    rw [hc] at hx
    exact forall_insert (P := fun id (x : RegionInfo) => x.getID = id) rfl h.ids id x hx
  intro role hrole s
  rw [enter_index h.wf, hc, h.exact role hrole s, keep_insert _ _ _ hnone]

lemma seats_addRegion (h : r.Seats)
  (hnone : r.cached.lookup region.getID = none) (ha : r.addRegion region = some (r', overlaps)) : r'.Seats := by
  obtain ⟨r1, h1, e⟩ := map_eq_some_iff.mp ha
  obtain ⟨rfl, rfl⟩ := Prod.mk.inj e
  have htree : RegionsInfo.Seats { r with tree := (r.tree.update region.getMeta).1 } :=
    ⟨⟨⟨h.wf.regions, h.wf.maps⟩, h.ids⟩, h.exact⟩
  refine seats_enter (seats_evictAll _ htree h1) ?_
  obtain ⟨-, hkeeps, -⟩ := evictAll_keyed _ htree.toKeyed h1
  refine eq_none_iff_forall_ne_some.mpr ?_
  intro x hx
  have hold : r.cached.lookup region.getID = some x := hkeeps _ x hx
  rw [hnone] at hold
  cases hold

lemma seats_setRegion (h : r.Seats) (hset : r.setRegion region = some (r', overlaps)) : r'.Seats := by
  unfold setRegion at hset
  cases ho : r.regions.get region.getID with
  | none =>
    rw [ho] at hset
    rw [get_eq] at ho
    exact seats_addRegion h ho hset
  | some origin =>
    rw [ho] at hset
    obtain ⟨r1, h1, ha⟩ := bind_eq_some_iff.mp hset
    have hx : r.cached.lookup region.getID = some origin := (get_eq _ _).symm.trans ho
    obtain ⟨hs1, hc1⟩ := seats_removeRegion h hx h1
    refine seats_addRegion hs1 ?_ ha
    rw [hc1]
    exact lookup_erase_self ..

lemma seats_step {op : Op} (h : r.Seats) (hstep : r.step op = some r') : r'.Seats := by
  cases op with
  | set =>
    obtain ⟨⟨r1, overlaps⟩, hset, rfl⟩ := map_eq_some_iff.mp hstep
    exact seats_setRegion h hset
  | remove =>
    obtain ⟨x, hx, hrem⟩ := bind_eq_some_iff.mp hstep
    rw [getRegion_eq] at hx
    exact (seats_removeRegion h hx hrem).1

lemma seats_exec {ops : List Op} (hr : Runs.exec step new ops = some r) : r.Seats :=
  Runs.exec_inv Seats (fun _ _ _ h _ ht => seats_step h ht) seats_new
    (Runs.along_of_forall (P := fun _ => True) _ fun _ _ => trivial) hr

lemma mem_seat (h : r.Seats) (role : Role) (hrole : role ≠ .pending) :
  x ∈ ((r.index role).at s).view.values ↔ (∃ id, r.getRegion id = some x) ∧ x.on role s = true := by
  rw [h.exact role hrole s, values_keep, mem_filter, mem_values]
  simp only [getRegion_eq]

lemma nodup_seat (h : r.Seats) (role : Role) (hrole : role ≠ .pending) (s : Nat) :
  ((r.index role).at s).view.values.Nodup := by
  rw [h.exact role hrole s, values_keep]
  exact (values_nodup_of_keyed RegionInfo.getID h.ids).filter _

lemma not_follower_of_leader (hx : x.storeIds.Nodup) (hl : x.on .leader s = true) : x.on .follower s = false := by
  rw [Bool.eq_false_iff]
  intro hf
  obtain ⟨p, hp, hps⟩ := List.any_eq_true.mp hl
  obtain ⟨q, hq, hqs⟩ := List.any_eq_true.mp hf
  obtain ⟨hpstore, hplead⟩ := Bool.and_eq_true_iff.mp hps
  obtain ⟨hqstore, hqlead⟩ := Bool.and_eq_true_iff.mp hqs
  have hsame : p.storeId = q.storeId := (of_decide_eq_true hpstore).trans (of_decide_eq_true hqstore).symm
  have hpq : p = q := inj_on_of_nodup_map hx (mem_of_mem_filter hp) (mem_of_mem_filter hq) hsame
  rw [← hpq, hplead] at hqlead
  cases hqlead

lemma mem_storeIds : s ∈ x.storeIds ↔ x.on .leader s = true ∨ x.on .follower s = true ∨ x.on .learner s = true := by
  constructor
  · intro hs
    obtain ⟨role, hrole, hon⟩ := exists_seat hs
    cases role with
    | leader => exact .inl hon
    | follower => exact .inr (.inl hon)
    | learner => exact .inr (.inr hon)
    | pending => exact absurd rfl hrole
  intro hon
  rcases hon with hon | hon | hon
  · exact mem_of_seat (show Role.leader ≠ .pending from nofun) hon
  · exact mem_of_seat (show Role.follower ≠ .pending from nofun) hon
  · exact mem_of_seat (show Role.learner ≠ .pending from nofun) hon

variable {order : RegionMap → List RegionInfo}

lemma mem_getStoreRegions (h : r.Seats) (ho : RangeOrder order) : x ∈ r.getStoreRegions order s ↔
  (∃ id, r.getRegion id = some x) ∧ (x.on .leader s = true ∨ x.on .follower s = true) := by
  unfold getStoreRegions
  rw [mem_append, (ho _).mem_iff, (ho _).mem_iff, and_or_left]
  exact or_congr (mem_seat h .leader nofun) (mem_seat h .follower nofun)

lemma nodup_getStoreRegions (h : r.Seats) (ho : RangeOrder order) (s : Nat)
  (hdistinct : ∀ id x, r.getRegion id = some x → x.storeIds.Nodup) : (r.getStoreRegions order s).Nodup := by
  refine nodup_append.mpr ⟨?_, ?_, ?_⟩
  · exact (ho _).nodup_iff.mpr (nodup_seat h .leader nofun s)
  · exact (ho _).nodup_iff.mpr (nodup_seat h .follower nofun s)
  intro x hx y hy heq
  obtain ⟨⟨id, hid⟩, hlead⟩ := (mem_seat h .leader nofun).mp ((ho _).mem_iff.mp hx)
  obtain ⟨-, hfollow⟩ := (mem_seat h .follower nofun).mp ((ho _).mem_iff.mp hy)
  rw [← heq, not_follower_of_leader (hdistinct id x hid) hlead] at hfollow
  cases hfollow

lemma length_getStoreRegions (ho : RangeOrder order) (r : RegionsInfo) (s : Nat) :
  (r.getStoreRegions order s).length + r.getStoreLearnerCount s = r.getStoreRegionCount s := by
  unfold getStoreRegions getStoreRegionCount getStoreLeaderCount getStoreFollowerCount
  rw [length_append, (ho _).length_eq, (ho _).length_eq, len_eq, len_eq, size_eq, size_eq]

lemma seatCount_eq_zero (h : r.Seats) (role : Role) (hrole : role ≠ .pending) :
  ((r.index role).at s).len = 0 ↔ ∀ id x, r.getRegion id = some x → x.on role s = false := by
  rw [len_eq, size_eq, length_eq_zero_iff, eq_nil_iff_forall_not_mem]
  constructor
  · intro hnone id x hx
    rw [Bool.eq_false_iff]
    exact fun hon => hnone x ((mem_seat h role hrole).mpr ⟨⟨id, hx⟩, hon⟩)
  intro hnone x hx
  obtain ⟨⟨id, hid⟩, hon⟩ := (mem_seat h role hrole).mp hx
  rw [hnone id x hid] at hon
  cases hon

lemma learnerCount_eq_zero (h : r.Seats) :
  r.getStoreLearnerCount s = 0 ↔ ∀ id x, r.getRegion id = some x → x.on .learner s = false :=
  seatCount_eq_zero h .learner nofun

lemma not_mem_of_regionCount (h : r.Seats) (hcount : r.getStoreRegionCount s = 0)
  (hx : r.getRegion id = some x) : s ∉ x.storeIds := by
  intro hs
  obtain ⟨role, hrole, hon⟩ := exists_seat hs
  have hzero : ((r.index role).at s).len = 0 := by
    cases role with
    | leader => exact (Nat.add_eq_zero_iff.mp (Nat.add_eq_zero_iff.mp hcount).1).1
    | follower => exact (Nat.add_eq_zero_iff.mp (Nat.add_eq_zero_iff.mp hcount).1).2
    | learner => exact (Nat.add_eq_zero_iff.mp hcount).2
    | pending => exact absurd rfl hrole
  rw [(seatCount_eq_zero h role hrole).mp hzero id x hx] at hon
  cases hon

end

structure ListsStore (r : RegionsInfo) (s : Nat) (regions : List RegionInfo) : Prop where
  nodup : regions.Nodup
  members : ∀ x, x ∈ regions ↔ (∃ id, r.getRegion id = some x) ∧ s ∈ x.storeIds
  count : regions.length = r.getStoreRegionCount s

/-- **The regions of a store** are listed exactly if it has no learner. -/
theorem storeRegions_iff (ops : List Op) (r : RegionsInfo) (hr : Runs.exec step new ops = some r)
  (hdistinct : ∀ id x, r.getRegion id = some x → x.storeIds.Nodup)
  (order : RegionMap → List RegionInfo) (ho : RangeOrder order) (s : Nat) :
  r.ListsStore s (r.getStoreRegions order s) ↔ ∀ id x, r.getRegion id = some x → x.on .learner s = false := by
  have h : r.Seats := seats_exec hr
  have hlength := length_getStoreRegions ho r s
  constructor
  · intro hlists
    refine (learnerCount_eq_zero h).mp ?_
    have hcount := hlists.count
    omega
  intro hnone
  have hzero := (learnerCount_eq_zero h).mpr hnone
  refine ⟨nodup_getStoreRegions h ho s hdistinct, ?_, by omega⟩
  intro x
  rw [mem_getStoreRegions h ho, mem_storeIds]
  refine and_congr_right ?_
  intro ⟨id, hx⟩
  rw [hnone id x hx]
  simp

def learning : List Op :=
  [.set (newRegionInfo ⟨1, [], [], some ⟨1, 1⟩, [⟨11, 1, false⟩, ⟨12, 2, false⟩, ⟨13, 3, true⟩]⟩
    (some ⟨11, 1, false⟩))]

theorem storeRegions_voters : ∃ r, Runs.exec step new learning = some r ∧
  r.ListsStore 2 (r.getStoreRegions (fun rm => rm.view.values) 2) := by
  have hrun : (Runs.exec step new learning).map (fun r => r.cached.values.all fun x =>
      decide x.storeIds.Nodup && !x.on .learner 2) = some true := by decide +kernel
  obtain ⟨r, hr, hall⟩ := map_eq_some_iff.mp hrun
  have hcached : ∀ id x, r.getRegion id = some x → x.storeIds.Nodup ∧ x.on .learner 2 = false := by
    intro id x hx
    have hin : x ∈ r.cached.values := mem_values.mpr ⟨id, (getRegion_eq _ _).symm.trans hx⟩
    simpa using List.all_eq_true.mp hall x hin
  refine ⟨r, hr, (storeRegions_iff learning r hr ?_ _ (fun _ => .rfl) 2).mpr ?_⟩
  · exact fun id x hx => (hcached id x hx).1
  · exact fun id x hx => (hcached id x hx).2

theorem storeRegions_misses : ∃ r, Runs.exec step new learning = some r ∧
  (r.getRegion 1).map RegionInfo.storeIds = some [1, 2, 3] ∧ r.getStoreRegionCount 3 = 1 ∧
  ∀ order, RangeOrder order → r.getStoreRegions order 3 = [] ∧ ¬ r.ListsStore 3 (r.getStoreRegions order 3) := by
  have hrun : (Runs.exec step new learning).map (fun r => ((r.getRegion 1).map RegionInfo.storeIds,
      r.getStoreRegionCount 3, r.getStoreLearnerCount 3)) = some (some [1, 2, 3], 1, 1) := by decide +kernel
  obtain ⟨r, hr, he⟩ := map_eq_some_iff.mp hrun
  obtain ⟨hstores, he⟩ := Prod.mk.inj he
  obtain ⟨hcount, hlearner⟩ := Prod.mk.inj he
  refine ⟨r, hr, hstores, hcount, ?_⟩
  intro order ho
  have hlength := length_getStoreRegions ho r 3
  refine ⟨length_eq_zero_iff.mp (by omega), ?_⟩
  intro hlists
  have hsame := hlists.count
  omega

end RegionsInfo
end PD
