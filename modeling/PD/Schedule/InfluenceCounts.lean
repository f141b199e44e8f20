import PD.Schedule.Influence
import PD.Schedule.OperatorController
import PD.Schedule.Placements

/-! # Counted peers and leaders -/

namespace PD
open List Option
namespace RegionInfo

def peersOn (r : RegionInfo) (x : Nat) : Int := r.storeIds.count x
def leadersOn (r : RegionInfo) (x : Nat) : Int := (r.leader.toList.map Peer.storeId).count x

def leaderPeersOn (r : RegionInfo) (x : Nat) : Int :=
  r.getPeers.countP fun p => decide (p.storeId = x) && decide (r.leaderId = p.id)

end RegionInfo

namespace OperatorStep

def regionChange (region : RegionInfo) (x : Nat) : OperatorStep → Int
  | addPeer toStore _ | addLearner toStore _ | addLightPeer toStore _ | addLightLearner toStore _ =>
    if x = toStore then 1 else 0
  | removePeer fromStore => if x = fromStore then -1 else 0
  | mergeRegion _ _ isPassive => if isPassive then -region.peersOn x else 0
  | splitRegion .. => region.peersOn x
  | transferLeader .. | promoteLearner .. => 0

def leaderChange (region : RegionInfo) (x : Nat) : OperatorStep → Int
  | transferLeader fromStore toStore => (if x = toStore then 1 else 0) - (if x = fromStore then 1 else 0)
  | mergeRegion _ _ isPassive => if isPassive then -region.leaderPeersOn x else 0
  | splitRegion .. => region.leaderPeersOn x
  | _ => 0

end OperatorStep

def OpInfluence.CountsBy (m m' : OpInfluence) (peers leaders : Nat → Int) : Prop :=
  ∀ x, (m'.getStoreInfluence x).regionCount = (m.getStoreInfluence x).regionCount + peers x ∧
    (m'.getStoreInfluence x).leaderCount = (m.getStoreInfluence x).leaderCount + leaders x

section
variable (region : RegionInfo) (m : OpInfluence) (x : Nat)

lemma getStoreInfluence_update (id : Nat) (f : StoreInfluence → StoreInfluence) :
  (m.update id f).getStoreInfluence x = if x = id then f (m.getStoreInfluence id) else m.getStoreInfluence x := by
  unfold OpInfluence.update OpInfluence.getStoreInfluence
  rw [SortedMap.lookup_insert]
  split <;> rfl

lemma counts_update (id : Nat) {f : StoreInfluence → StoreInfluence} (a b : Int)
  (hf : ∀ i, (f i).regionCount = i.regionCount + a ∧ (f i).leaderCount = i.leaderCount + b) :
  m.CountsBy (m.update id f) (fun x => if x = id then a else 0) (fun x => if x = id then b else 0) := by
  intro x
  rw [getStoreInfluence_update]
  by_cases e : x = id
  · simp [e, hf]
  · simp [e]

lemma counts_addPeers (n : Int) :
  m.CountsBy (m.addPeers region n) (n * region.peersOn ·) (n * region.leaderPeersOn ·) := by
  unfold OpInfluence.addPeers RegionInfo.peersOn RegionInfo.leaderPeersOn RegionInfo.storeIds
  intro x
  induction region.getPeers generalizing m with
  | nil => simp
  | cons p _ ih =>
    obtain ⟨h1, h2⟩ := ih (m.update p.storeId fun i =>
      { i with
        regionCount := i.regionCount + n
        leaderCount := if region.leaderId = p.id then i.leaderCount + n else i.leaderCount })
    rw [foldl_cons, h1, h2, getStoreInfluence_update]
    dsimp only
    rw [map_cons, count_cons, countP_cons]
    by_cases e : x = p.storeId
    · subst e
      by_cases hid : region.leaderId = p.id
      · simp [hid]
        constructor <;> ring
      simp [hid]
      ring
    · simp [e, Ne.symm e]

lemma counts_addInfluence (toStore : Nat) (cost : Int) :
  m.CountsBy (OperatorStep.addInfluence m region toStore cost) (if · = toStore then 1 else 0) fun _ => 0 := by
  have hone := counts_update m toStore 1 0 (f := fun i => { i with
    regionSize := i.regionSize + region.approximateSize
    regionCount := i.regionCount + 1
    stepCost := i.stepCost + cost }) fun i => ⟨rfl, (Int.add_zero _).symm⟩
  simp only [ite_self] at hone
  exact hone

lemma counts_influence (s : OperatorStep) :
  m.CountsBy (s.influence region m) (s.regionChange region ·) (s.leaderChange region ·) := by
  cases s with
  | transferLeader fromStore toStore =>
    intro x
    obtain ⟨hfrom, hfrom'⟩ := counts_update m fromStore 0 (-1) (f := fun i => { i with
      leaderSize := i.leaderSize - region.approximateSize
      leaderCount := i.leaderCount - 1 }) (fun i => ⟨(Int.add_zero _).symm, rfl⟩) x
    obtain ⟨hto, hto'⟩ := counts_update _ toStore 0 1 (f := fun i => { i with
      leaderSize := i.leaderSize + region.approximateSize
      leaderCount := i.leaderCount + 1 }) (fun i => ⟨(Int.add_zero _).symm, rfl⟩) x
    refine ⟨hto.trans ?_, hto'.trans ?_⟩
    · simp only [hfrom, ite_self, Int.add_zero, OperatorStep.regionChange]
    rw [hfrom']
    by_cases hx : x = fromStore
    · simp only [hx, if_true, OperatorStep.leaderChange]
      ring
    simp only [hx, if_false, OperatorStep.leaderChange]
    ring
  | promoteLearner => exact fun x => ⟨(Int.add_zero _).symm, (Int.add_zero _).symm⟩
  | removePeer fromStore =>
    have hone := counts_update m fromStore (-1) 0 (f := fun i => { i with
      regionSize := i.regionSize - region.approximateSize
      regionCount := i.regionCount - 1 }) fun i => ⟨rfl, (Int.add_zero _).symm⟩
    simp only [ite_self] at hone
    exact hone
  | mergeRegion _ _ isPassive =>
    cases isPassive with
    | false => exact fun x => ⟨(Int.add_zero _).symm, (Int.add_zero _).symm⟩
    | true =>
      have hpeers := counts_addPeers region m (-1)
      simp only [neg_one_mul] at hpeers
      exact hpeers
  | splitRegion =>
    have hpeers := counts_addPeers region m 1
    simp only [one_mul] at hpeers
    exact hpeers
  | _ => exact counts_addInfluence region m _ _

lemma counts_total (o : Operator) : m.CountsBy (o.totalInfluence m region)
    (fun x => (o.steps.map (OperatorStep.regionChange region x)).sum)
    fun x => (o.steps.map (OperatorStep.leaderChange region x)).sum := by
  unfold Operator.totalInfluence
  intro x
  induction o.steps generalizing m with
  | nil => simp
  | cons s _ ih =>
    obtain ⟨hregion, hleader⟩ := counts_influence region m s x
    simp only [foldl_cons, ih, hregion, hleader, map_cons, sum_cons, Int.add_assoc, and_self]

end

def removes (steps : List OperatorStep) : List Nat := steps.filterMap OperatorStep.removedStore?
def transfers (steps : List OperatorStep) : List (Nat × Nat) := steps.filterMap OperatorStep.transfer?

def transferSum (ts : List (Nat × Nat)) (x : Nat) : Int :=
  (ts.map fun z => (if x = z.2 then (1 : Int) else 0) - (if x = z.1 then 1 else 0)).sum

lemma removes_append (as bs : List OperatorStep) : removes (as ++ bs) = removes as ++ removes bs := filterMap_append

lemma transfers_append (as bs : List OperatorStep) : transfers (as ++ bs) = transfers as ++ transfers bs :=
  filterMap_append

lemma removes_of_adds {steps : List OperatorStep} (h : ∀ s ∈ steps, s.addsPeer = true) : removes steps = [] := by
  refine filterMap_eq_nil_iff.mpr fun s hs => ?_
  have hadd := h s hs
  cases s with
  | removePeer => cases hadd
  | _ => rfl

lemma transfers_of_adds {steps : List OperatorStep} (h : ∀ s ∈ steps, s.addsPeer = true) : transfers steps = [] := by
  refine filterMap_eq_nil_iff.mpr fun s hs => ?_
  have hadd := h s hs
  cases s with
  | transferLeader => cases hadd
  | _ => rfl

section
variable (region : RegionInfo) (x : Nat) {p q : Placement} {s : OperatorStep} {steps : List OperatorStep} {a : Nat}

lemma changes_of_added (h : s.addedStore? = some a) : s.removedStore? = none ∧ s.transfer? = none ∧
  s.regionChange region x = (if x = a then 1 else 0) ∧ s.leaderChange region x = 0 := by
  cases s with
  | addPeer | addLearner | addLightPeer | addLightLearner => exact some.inj h ▸ ⟨rfl, rfl, rfl, rfl⟩
  | _ => cases h

lemma place_cases (h : p.place s = some q) :
  (∃ a, s.addedStore? = some a ∧ a ∉ p.stores ∧ q.stores = insert a p.stores ∧ q.leader = p.leader) ∨
    (∃ a, s = .removePeer a ∧ q = p.drop a) ∨ (∃ f t, s = .transferLeader f t ∧ q = p.lead t) ∨
    ∃ a id, s = .promoteLearner a id ∧ q = p.promote a := by
  have hadd : ∀ {a id : Nat} {p' : Placement}, (if a ∈ p.stores ∨ id ∈ p.pending then none else some p') = some q →
      p'.stores = insert a p.stores ∧ p'.leader = p.leader →
      a ∉ p.stores ∧ q.stores = insert a p.stores ∧ q.leader = p.leader := by
    intro a id p' h hp'
    split at h
    · cases h
    next hno => exact some.inj h ▸ ⟨fun ha => hno (.inl ha), hp'⟩
  cases s with
  | addPeer toStore | addLearner toStore | addLightPeer toStore | addLightLearner toStore =>
    exact .inl ⟨toStore, rfl, hadd h ⟨rfl, rfl⟩⟩
  | removePeer fromStore =>
    rw [Placement.place] at h
    split at h
    · cases h
    · exact .inr (.inl ⟨fromStore, rfl, (some.inj h).symm⟩)
  | transferLeader fromStore toStore =>
    rw [Placement.place] at h
    split at h
    · exact .inr (.inr (.inl ⟨fromStore, toStore, rfl, (some.inj h).symm⟩))
    · cases h
  | promoteLearner toStore peerID =>
    rw [Placement.place] at h
    split at h
    · exact .inr (.inr (.inr ⟨toStore, peerID, rfl, (some.inj h).symm⟩))
    · cases h
  | _ => cases h

lemma place_keeps (h : p.place s = some q) (ha : a ∈ p.stores) (hs : s.removedStore? ≠ some a) : a ∈ q.stores := by
  rcases place_cases h with ⟨b, -, -, e, -⟩ | ⟨b, rfl, rfl⟩ | ⟨f, t, -, rfl⟩ | ⟨b, id, -, rfl⟩
  · rw [e]
    exact Finset.mem_insert_of_mem ha
  · exact Finset.mem_erase.mpr ⟨fun e => hs (by rw [e]; rfl), ha⟩
  · exact ha
  · exact ha

lemma stores_of_place (h : p.place s = some q) (hs : ∀ a, s.removedStore? = some a → a ∈ p.stores) :
  (if x ∈ q.stores then (1 : Int) else 0) = (if x ∈ p.stores then 1 else 0) + s.regionChange region x := by
  rcases place_cases h with ⟨a, hadd, hout, e, -⟩ | ⟨a, rfl, rfl⟩ | ⟨f, t, rfl, rfl⟩ | ⟨a, id, rfl, rfl⟩
  · rw [(changes_of_added region x hadd).2.2.1, e]
    by_cases hx : x = a
    · subst hx
      simp [hout]
    · simp [hx]
  · have ha := hs a rfl
    show (if x ∈ p.stores.erase a then (1 : Int) else 0) = _ + if x = a then -1 else 0
    by_cases hx : x = a
    · subst hx
      simp [ha]
    · simp [hx]
  · exact (Int.add_zero _).symm
  · exact (Int.add_zero _).symm

lemma stores_of_exec (h : Runs.exec Placement.place p steps = some q) (hnodup : (removes steps).Nodup)
  (hin : ∀ a ∈ removes steps, a ∈ p.stores) : (steps.map (OperatorStep.regionChange region x)).sum =
    (if x ∈ q.stores then 1 else 0) - (if x ∈ p.stores then 1 else 0) := by
  induction steps generalizing p with
  | nil =>
    cases h
    simp
  | cons s steps ih =>
    obtain ⟨t, ht, h⟩ := Runs.exec_cons_some.mp h
    have hfirst : ∀ a, s.removedStore? = some a → a ∈ removes (s :: steps) := fun a ha =>
      mem_filterMap.mpr ⟨s, mem_cons_self, ha⟩
    have hrest : ∀ a ∈ removes steps, a ∈ removes (s :: steps) ∧ s.removedStore? ≠ some a := by
      intro a ha
      obtain ⟨s', hs', e⟩ := mem_filterMap.mp ha
      refine ⟨mem_filterMap.mpr ⟨s', mem_cons_of_mem _ hs', e⟩, fun hs => ?_⟩
      rw [removes, filterMap_cons_some hs] at hnodup
      exact (nodup_cons.mp hnodup).1 ha
    have htail : (removes steps).Nodup := hnodup.sublist ((sublist_cons_self s steps).filterMap _)
    have hone := stores_of_place region x ht fun a ha => hin a (hfirst a ha)
    rw [map_cons, sum_cons, ih h htail fun a ha => place_keeps ht (hin a (hrest a ha).1) (hrest a ha).2, hone]
    ring

lemma leaders_of_exec (h : Runs.exec Placement.place p steps = some q) :
  (steps.map (OperatorStep.leaderChange region x)).sum = transferSum (transfers steps) x ∧
    q.leader = (transfers steps).foldl (fun _ z => z.2) p.leader := by
  induction steps generalizing p with
  | nil =>
    cases h
    exact ⟨rfl, rfl⟩
  | cons s steps ih =>
    obtain ⟨t, ht, h⟩ := Runs.exec_cons_some.mp h
    obtain ⟨hsum, hleader⟩ := ih h
    rw [map_cons, sum_cons, hsum, hleader]
    rcases place_cases ht with ⟨a, hadd, -, -, e⟩ | ⟨a, rfl, rfl⟩ | ⟨f, u, rfl, rfl⟩ | ⟨a, id, rfl, rfl⟩
    · obtain ⟨-, hno, -, hzero⟩ := changes_of_added region x hadd
      have hsame : transfers (s :: steps) = transfers steps := filterMap_cons_none hno
      rw [hzero, e, hsame]
      exact ⟨Int.zero_add _, rfl⟩
    · exact ⟨Int.zero_add _, rfl⟩
    · exact ⟨rfl, rfl⟩
    · exact ⟨Int.zero_add _, rfl⟩

end

section
variable {region : RegionInfo} {op : Operator} {p : Placement} {x : Nat}

lemma peersOn_eq (h : region.storeIds.Nodup) : region.peersOn x = if x ∈ region.placement.stores then 1 else 0 := by
  unfold RegionInfo.peersOn
  by_cases hx : x ∈ region.storeIds
  · rw [if_pos (RegionInfo.mem_placement_stores.mpr hx), count_eq_one_of_mem h hx]
    rfl
  rw [if_neg (fun h => hx (RegionInfo.mem_placement_stores.mp h)), count_eq_zero_of_not_mem hx]
  rfl

lemma leadersOn_eq (h : region.leader ≠ none) : region.leadersOn x = if x = region.leaderStore then 1 else 0 := by
  unfold RegionInfo.leadersOn RegionInfo.leaderStore
  cases hleader : region.leader with
  | none => exact absurd hleader h
  | some l =>
    by_cases e : x = l.storeId
    · simp [e]
    · simp [e, Ne.symm e]

lemma leader_of_applyAdd {r r' : RegionInfo} {peer : Peer} (h : OperatorStep.applyAdd r peer = some r') :
  r'.leader = r.leader := by
  unfold OperatorStep.applyAdd at h
  split at h
  · cases h
  · exact some.inj h ▸ rfl

lemma leader_of_step {r r' : RegionInfo} {s : OperatorStep} (hrun : runStep r s = some r')
  (hplace : r.placement.place s = some p) (hleader : r.leader ≠ none) : r'.leader ≠ none := by
  unfold runStep at hrun
  split at hrun
  · exact some.inj hrun ▸ hleader
  obtain ⟨r₁, happly, h⟩ := bind_eq_some_iff.mp hrun
  split at h
  · cases h
    cases s with
    | transferLeader =>
      rw [Placement.place] at hplace
      split at hplace
      next hto =>
        cases happly
        exact fun e => RegionInfo.getStorePeer_eq_none.mp e (RegionInfo.mem_placement_stores.mp hto)
      · cases hplace
    | promoteLearner =>
      rw [OperatorStep.apply] at happly
      split at happly
      · cases happly
      · exact some.inj happly ▸ hleader
    | removePeer =>
      rw [OperatorStep.apply] at happly
      split at happly
      · cases happly
      split at happly
      · cases happly
      · exact some.inj happly ▸ hleader
    | mergeRegion => cases happly
    | splitRegion => cases happly
    | _ => exact leader_of_applyAdd happly ▸ hleader
  · cases h

lemma executes_led {I : Placement → Prop} (hnodup : region.storeIds.Nodup) (hleader : region.leader ≠ none)
  (h : Runs.Reaches Placement.place I region.placement op.rest p) :
  ∃ region', Executes region op region' ∧ region'.storeIds.Nodup ∧ region'.leader ≠ none ∧ region'.placement = p := by
  obtain ⟨region', hreach, ⟨hnodup', hleader'⟩, hp⟩ := Runs.Reaches.simulates
    (fun (r : RegionInfo) (p : Placement) => (r.storeIds.Nodup ∧ r.leader ≠ none) ∧ r.placement = p)
    (fun r p s q hr hq => by
      obtain ⟨⟨hr, hl⟩, rfl⟩ := hr
      obtain ⟨r', hrun, hr', e⟩ := placement_step hr hq
      exact ⟨r', hrun, ⟨hr', leader_of_step hrun hq hl⟩, e⟩) ⟨⟨hnodup, hleader⟩, rfl⟩ h
  refine ⟨region', executes_of_runSteps ?_, hnodup', hleader', hp⟩
  rw [runSteps_eq_exec]
  exact hreach.exec_eq

lemma influence_counts {I : Placement → Prop} (m : OpInfluence) (hnodup : region.storeIds.Nodup)
  (hleader : region.leader ≠ none) (hop : op.rest = op.steps)
  (h : Runs.Reaches Placement.place I region.placement op.steps p) (hremoves : (removes op.steps).Nodup)
  (hin : ∀ a ∈ removes op.steps, a ∈ region.storeIds) : ∃ region', Executes region op region' ∧
    (m.CountsBy (op.totalInfluence m region) (fun x => region'.peersOn x - region.peersOn x)
        (fun x => region'.leadersOn x - region.leadersOn x) ↔ ∀ x, transferSum (transfers op.steps) x =
        (if x = p.leader then 1 else 0) - (if x = region.leaderStore then 1 else 0)) := by
  obtain ⟨region', hexec, hnodup', hleader', hp⟩ := executes_led hnodup hleader (hop ▸ h)
  refine ⟨region', hexec, forall_congr' fun x => ?_⟩
  rw [(counts_total region m op x).1, (counts_total region m op x).2]
  dsimp only
  rw [(leaders_of_exec region x h.exec_eq).1,
    stores_of_exec region x h.exec_eq hremoves fun a ha => RegionInfo.mem_placement_stores.mpr (hin a ha)]
  rw [peersOn_eq hnodup, peersOn_eq hnodup', leadersOn_eq hleader, leadersOn_eq hleader', hp]
  have hlead : region'.leaderStore = p.leader := congrArg Placement.leader hp
  rw [hlead]
  exact (and_iff_right rfl).trans (add_right_inj _)

end
end PD
