import PD.Core.RegionsInfo
import PD.Lib.Runs

/-! # Runs of the region cache -/

namespace PD
namespace RegionsInfo
open RegionMap SortedMap

inductive Op where
  | set (region : RegionInfo)
  | remove (regionID : Nat)

def step (r : RegionsInfo) : Op → Option RegionsInfo
  | .set region => (r.setRegion region).map Prod.fst
  | .remove regionID => (r.getRegion regionID).bind r.removeRegion

def Op.Valid : Op → Prop
  | .set region => region.Valid
  | .remove _ => True

instance : ∀ op : Op, Decidable op.Valid
  | .set region => inferInstanceAs (Decidable region.Valid)
  | .remove _ => .isTrue trivial

def Op.Ranged : Op → Prop
  | .set region => region.getMeta.Nonempty
  | .remove _ => True

instance opRangedDecidable : ∀ op : Op, Decidable op.Ranged
  | .set region => inferInstanceAs (Decidable region.getMeta.Nonempty)
  | .remove _ => .isTrue trivial

def playing (r : RegionsInfo) (role : Role) (s : Nat) : List RegionInfo := r.cached.values.filter fun x => x.on role s
def sizeSum (xs : List RegionInfo) : Int := (xs.map RegionInfo.approximateSize).sum

structure Consistent (r : RegionsInfo) : Prop where
  disjoint : r.tree.items.Pairwise fun a b => ¬ a.Overlaps b
  distinct : r.tree.items.Pairwise fun a b => a.id ≠ b.id
  same : ∀ m, m ∈ r.tree.items ↔ ∃ x, r.getRegion m.id = some x ∧ x.getMeta = m
  keyed : ∀ id x, r.getRegion id = some x → x.getID = id
  roles : ∀ role s id x, ((r.index role).at s).get id = some x ↔ r.getRegion id = some x ∧ x.on role s = true
  leaderCount : ∀ s, r.getStoreLeaderCount s = (r.playing .leader s).length
  followerCount : ∀ s, r.getStoreFollowerCount s = (r.playing .follower s).length
  learnerCount : ∀ s, r.getStoreLearnerCount s = (r.playing .learner s).length
  pendingCount : ∀ s, r.getStorePendingPeerCount s = (r.playing .pending s).length
  leaderSize : ∀ s, r.getStoreLeaderRegionSize s = Words.wrap (sizeSum (r.playing .leader s))
  followerSize : ∀ s, r.getStoreFollowerRegionSize s = Words.wrap (sizeSum (r.playing .follower s))
  learnerSize : ∀ s, r.getStoreLearnerRegionSize s = Words.wrap (sizeSum (r.playing .learner s))
  regionSize : ∀ s, r.getStoreRegionSize s = Words.wrap (sizeSum (r.playing .leader s) +
    sizeSum (r.playing .follower s) + sizeSum (r.playing .learner s))

section
variable {r : RegionsInfo}
variable {t : RegionsInfo} {op : Op} {ops : List Op}

lemma sound_new : new.Sound where
  wf := ⟨new_wf, fun role s rm h => by cases role <;> cases h⟩
  tiles := Tiles.empty
  ids := fun _ _ h => by cases h
  range := fun _ _ h => by cases h
  same := fun m => ⟨fun h => absurd h List.not_mem_nil, fun ⟨_, h, _⟩ => by cases h⟩

lemma inv_new : new.Inv where
  sound := sound_new
  indexed := ⟨fun role s => by cases role <;> rfl, fun _ _ h => by cases h⟩

lemma inv_step (h : r.Inv) (hv : op.Valid) (ht : r.step op = some t) : t.Inv := by
  cases op with
  | set region =>
    obtain ⟨r', e, hs, _, hi⟩ := setRegion_sound h.sound hv.range
    change (r.setRegion region).map Prod.fst = some t at ht
    rw [e] at ht
    cases ht
    exact ⟨hs, hi h.indexed hv.pending⟩
  | remove id =>
    obtain ⟨x, hx, hrem⟩ := Option.bind_eq_some_iff.mp ht
    change r.regions.get id = some x at hx
    rw [get_eq] at hx
    have hid := h.sound.ids id x hx
    obtain ⟨r', e, hs, _, _, hi⟩ := removeRegion_sound h.sound (x := x) (by rw [hid]; exact hx)
    rw [hrem] at e
    cases e
    exact ⟨hs, hi h.indexed⟩

lemma inv_exec (hv : ∀ op ∈ ops, op.Valid) (h : Runs.exec step new ops = some r) : r.Inv := by
  have hok : Runs.Along step (fun _ op => Op.Valid op) new ops := Runs.along_of_forall new hv
  exact Runs.exec_inv Inv (fun _ _ _ hI hok h => inv_step hI hok h) inv_new hok h

lemma sound_step (h : r.Sound) (hv : op.Ranged) (ht : r.step op = some t) : t.Sound := by
  cases op with
  | set region =>
    obtain ⟨r', e, hs, _, _⟩ := setRegion_sound h hv
    change (r.setRegion region).map Prod.fst = some t at ht
    rw [e] at ht
    cases ht
    exact hs
  | remove id =>
    obtain ⟨x, hx, hrem⟩ := Option.bind_eq_some_iff.mp ht
    rw [getRegion_eq] at hx
    obtain ⟨r', e, hs, _⟩ := removeRegion_sound h (x := x) (by rw [h.ids id x hx]; exact hx)
    rw [hrem] at e
    cases e
    exact hs

lemma sound_exec (hops : ∀ op ∈ ops, op.Ranged) (hr : Runs.exec step new ops = some r) : r.Sound := by
  refine Runs.exec_inv Sound (fun r op t h hv ht => ?_) sound_new (Runs.along_of_forall _ hops) hr
  exact sound_step h hv ht

lemma Inv.count (h : r.Inv) (role : Role) (s : Nat) : ((r.index role).at s).len = (r.playing role s).length := by
  rw [len_eq, h.indexed.exact role s, size_eq, values_keep]
  rfl

lemma Inv.size (h : r.Inv) (role : Role) (s : Nat) :
  ((r.index role).at s).getTotalSize = Words.wrap (sizeSum (r.playing role s)) := by
  rw [totalSize_eq (at_wf (h.sound.wf.maps role) s), h.indexed.exact role s]
  unfold SortedMap.total
  rw [values_keep]
  rfl

lemma Inv.consistent (h : r.Inv) : r.Consistent where
  disjoint := by
    have hitems : r.tree.items.Nodup := values_nodup_of_keyed Region.startKey r.tree.keyed
    exact hitems.imp_of_mem fun ha hb hne ho => hne (RegionTree.eq_of_overlaps h.sound.tiles ha hb ho)
  distinct := by
    have hitems : r.tree.items.Nodup := values_nodup_of_keyed Region.startKey r.tree.keyed
    exact hitems.imp_of_mem fun ha hb hne e => hne (h.sound.eq_of_id ha hb e)
  same := by
    intro m
    unfold getRegion
    rw [get_eq]
    exact h.sound.same m
  keyed := by
    intro id x
    unfold getRegion
    rw [get_eq]
    exact h.sound.ids id x
  roles := by
    intro role s id x
    unfold getRegion
    rw [get_eq, get_eq, h.indexed.exact role s, lookup_keep, Option.filter_eq_some_iff]
    exact Iff.rfl
  leaderCount := h.count .leader
  followerCount := h.count .follower
  learnerCount := h.count .learner
  pendingCount := h.count .pending
  leaderSize := h.size .leader
  followerSize := h.size .follower
  learnerSize := h.size .learner
  regionSize := by
    intro s
    show Words.wrap (Words.wrap (((r.index .leader).at s).getTotalSize +
      ((r.index .follower).at s).getTotalSize) + ((r.index .learner).at s).getTotalSize) = _
    rw [h.size, h.size, h.size, Words.wrap_wrap_add, Words.wrap_add_wrap,
      add_assoc, Words.wrap_wrap_add, ← add_assoc, add_right_comm, Words.wrap_add_wrap]
    congr 1
    ring

end

/-- **The indexes of the region cache are consistent** -/
theorem cache_consistent (ops : List Op) (hv : ∀ op ∈ ops, op.Valid) (r : RegionsInfo)
  (h : Runs.exec step new ops = some r) :
  r.Consistent ∧ (∀ region, region.Valid → ∃ r', r.step (.set region) = some r') ∧
    ∀ id x, r.getRegion id = some x → ∃ r', r.step (.remove id) = some r' := by
  have hi : r.Inv := inv_exec hv h
  refine ⟨hi.consistent, fun region hr => ?_, fun id x hx => ?_⟩
  · obtain ⟨r', e, _⟩ := setRegion_sound hi.sound hr.range
    exact ⟨r', by show (r.setRegion region).map Prod.fst = _; rw [e]; rfl⟩
  have hx' : r.cached.lookup id = some x := (getRegion_eq _ _).symm.trans hx
  have hid := hi.sound.ids id x hx'
  obtain ⟨r', e, _⟩ := removeRegion_sound hi.sound (x := x) (by rw [hid]; exact hx')
  exact ⟨r', by show (r.getRegion id).bind _ = _; rw [hx]; exact e⟩

def splitOff : List Op := [.set ⟨⟨1, [], [], some ⟨1, 1⟩, [⟨11, 1, false⟩, ⟨12, 2, false⟩]⟩, some ⟨11, 1, false⟩, [],
      [⟨12, 2, false⟩], 0, 0, 10, 100⟩,
    .set ⟨⟨2, [5], [], some ⟨1, 2⟩, [⟨21, 1, false⟩, ⟨22, 2, true⟩]⟩, some ⟨21, 1, false⟩, [], [], 0, 0, 4, 40⟩,
    .set ⟨⟨1, [], [5], some ⟨1, 2⟩, [⟨11, 1, false⟩, ⟨12, 2, false⟩]⟩, some ⟨12, 2, false⟩, [], [], 0, 0, 6, 60⟩,
    .remove 1]

theorem cache_consistent_splitOff : ∃ r, Runs.exec step new splitOff = some r ∧ r.tree.items.map Region.id = [2] ∧
  r.getStoreLeaderRegionSize 1 = 4 ∧ r.Consistent := by
  have hrun : (Runs.exec step new splitOff).map
      (fun r => (r.tree.items.map Region.id, r.getStoreLeaderRegionSize 1)) = some ([2], 4) := by
    decide +kernel
  obtain ⟨r, hr, he⟩ := Option.map_eq_some_iff.mp hrun
  obtain ⟨h1, h2⟩ := Prod.mk.inj he
  exact ⟨r, hr, h1, h2, (cache_consistent splitOff (by decide) r hr).1⟩

end RegionsInfo
end PD
