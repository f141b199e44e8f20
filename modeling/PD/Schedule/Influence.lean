import PD.Schedule.Operator

/-! # The influence of operators on stores -/

namespace PD

structure StoreInfluence where
  regionSize : Int
  regionCount : Int
  leaderSize : Int
  leaderCount : Int
  stepCost : Int
  deriving DecidableEq

abbrev OpInfluence := SortedMap Nat StoreInfluence
def regionInfluence : Int := 1000
def smallRegionInfluence : Int := 200
def smallRegionThreshold : Int := 20

namespace OpInfluence
variable (m : OpInfluence)

def getStoreInfluence (id : Nat) : StoreInfluence := (m.lookup id).getD ⟨0, 0, 0, 0, 0⟩
def update (id : Nat) (f : StoreInfluence → StoreInfluence) : OpInfluence := m.insert id (f (getStoreInfluence m id))

def addPeers (region : RegionInfo) (n : Int) : OpInfluence :=
  region.getPeers.foldl (fun m p => update m p.storeId fun i =>
    { i with
      regionCount := i.regionCount + n
      leaderCount := if region.leaderId = p.id then i.leaderCount + n else i.leaderCount }) m

def stepCost (m : OpInfluence) (id : Nat) : Int := (getStoreInfluence m id).stepCost

end OpInfluence

namespace OperatorStep

def addCost (regionSize : Int) : Int :=
  if smallRegionThreshold < regionSize then regionInfluence
  else if emptyRegionApproximateSize < regionSize then smallRegionInfluence
  else 0

def addInfluence (m : OpInfluence) (region : RegionInfo) (toStore : Nat) (cost : Int) : OpInfluence :=
  m.update toStore fun i =>
    { i with
      regionSize := i.regionSize + region.approximateSize
      regionCount := i.regionCount + 1
      stepCost := i.stepCost + cost }

def influence (region : RegionInfo) (m : OpInfluence) : OperatorStep → OpInfluence
  | transferLeader fromStore toStore =>
    (m.update fromStore fun i =>
        { i with leaderSize := i.leaderSize - region.approximateSize, leaderCount := i.leaderCount - 1 }).update
      toStore fun i =>
        { i with leaderSize := i.leaderSize + region.approximateSize, leaderCount := i.leaderCount + 1 }
  | addPeer toStore _ => addInfluence m region toStore (addCost region.approximateSize)
  | addLearner toStore _ => addInfluence m region toStore (addCost region.approximateSize)
  | promoteLearner .. => m
  | removePeer fromStore =>
    m.update fromStore fun i =>
      { i with regionSize := i.regionSize - region.approximateSize, regionCount := i.regionCount - 1 }
  | mergeRegion _ _ isPassive => if isPassive then m.addPeers region (-1) else m
  | splitRegion .. => m.addPeers region 1
  | addLightPeer toStore _ => addInfluence m region toStore 0
  | addLightLearner toStore _ => addInfluence m region toStore 0

def heavyStore? : OperatorStep → Option Nat
  | addPeer toStore _ => some toStore
  | addLearner toStore _ => some toStore
  | _ => none

end OperatorStep

namespace Operator
variable (o : Operator)

def totalInfluence (m : OpInfluence) (region : RegionInfo) : OpInfluence :=
  o.steps.foldl (fun m s => s.influence region m) m

def unfinishedInfluence (m : OpInfluence) (region : RegionInfo) : OpInfluence :=
  o.rest.foldl (fun m s => if s.isFinish region then m else s.influence region m) m

def heavyStores : List Nat := o.steps.filterMap OperatorStep.heavyStore?

def Costs (region : Option RegionInfo) (store : Nat) : Prop :=
  store ∈ o.heavyStores ∧ ∃ r, region = some r ∧ emptyRegionApproximateSize < r.approximateSize

end Operator

def addOpInfluence (m : OpInfluence) (o : Operator) (region : Option RegionInfo) : OpInfluence :=
  match region with
  | some region => o.totalInfluence m region
  | none => m

def newTotalOpInfluence (reads : List (Operator × Option RegionInfo)) : OpInfluence :=
  reads.foldl (fun m r => addOpInfluence m r.1 r.2) .empty

def addUnfinished (clock : Nat) (m : OpInfluence) (o : Operator) (region : Option RegionInfo) : OpInfluence :=
  match region with
  | some region => if !o.isTimeout clock && !o.isFinish then o.unfinishedInfluence m region else m
  | none => m

def getOpInfluence (clock : Nat) (reads : List (Operator × Option RegionInfo)) : OpInfluence :=
  reads.foldl (fun m r => addUnfinished clock m r.1 r.2) .empty

def StoreInfluence.resourceSize (i : StoreInfluence) (leader : Bool) : Int :=
  if leader then i.leaderSize else i.regionSize

section
variable {m : OpInfluence} {region : RegionInfo} {o : Operator} {store : Nat}

lemma OpInfluence.stepCost_update (m : OpInfluence) (id : Nat) (f : StoreInfluence → StoreInfluence) (store : Nat) :
  (m.update id f).stepCost store = if store = id then (f (m.getStoreInfluence id)).stepCost else m.stepCost store := by
  unfold OpInfluence.stepCost OpInfluence.update
  rw [OpInfluence.getStoreInfluence, SortedMap.lookup_insert]
  split <;> rfl

lemma OpInfluence.stepCost_update_of_keep (m : OpInfluence) (id : Nat) {f : StoreInfluence → StoreInfluence}
  (hf : ∀ i, (f i).stepCost = i.stepCost) (store : Nat) : (m.update id f).stepCost store = m.stepCost store := by
  rw [stepCost_update]
  split
  next e => rw [hf, e]; rfl
  · rfl

lemma OpInfluence.stepCost_addPeers (m : OpInfluence) (region : RegionInfo) (n : Int) (store : Nat) :
  (m.addPeers region n).stepCost store = m.stepCost store := by
  unfold OpInfluence.addPeers
  induction region.getPeers generalizing m with
  | nil => rfl
  | cons p _ ih =>
    rw [List.foldl_cons, ih]
    exact OpInfluence.stepCost_update_of_keep m p.storeId (by intro i; rfl) store

lemma OperatorStep.stepCost_addInfluence (m : OpInfluence) (region : RegionInfo) (toStore : Nat) (cost : Int)
  (store : Nat) : (addInfluence m region toStore cost).stepCost store =
    m.stepCost store + if store = toStore then cost else 0 := by
  unfold addInfluence
  rw [OpInfluence.stepCost_update]
  split
  next e => rw [e]; rfl
  · exact (Int.add_zero _).symm

lemma OperatorStep.stepCost_influence (region : RegionInfo) (m : OpInfluence) (s : OperatorStep) (store : Nat) :
  (s.influence region m).stepCost store =
    m.stepCost store + if s.heavyStore? = some store then addCost region.approximateSize else 0 := by
  cases s with
  | transferLeader =>
    rw [influence, OpInfluence.stepCost_update_of_keep _ _ (by intro i; rfl),
      OpInfluence.stepCost_update_of_keep _ _ (by intro i; rfl)]
    exact (Int.add_zero _).symm
  | addPeer | addLearner =>
    rw [influence, stepCost_addInfluence]
    simp only [heavyStore?, Option.some.injEq, eq_comm]
  | promoteLearner => exact (Int.add_zero _).symm
  | removePeer =>
    rw [influence, OpInfluence.stepCost_update_of_keep _ _ (by intro i; rfl)]
    exact (Int.add_zero _).symm
  | mergeRegion =>
    rw [influence]
    split
    · rw [OpInfluence.stepCost_addPeers]
      exact (Int.add_zero _).symm
    · exact (Int.add_zero _).symm
  | splitRegion =>
    rw [influence, OpInfluence.stepCost_addPeers]
    exact (Int.add_zero _).symm
  | addLightPeer | addLightLearner =>
    rw [influence, stepCost_addInfluence, ite_self]
    rfl

lemma OperatorStep.addCost_nonneg (regionSize : Int) : 0 ≤ addCost regionSize := by
  unfold addCost smallRegionThreshold regionInfluence emptyRegionApproximateSize smallRegionInfluence
  split <;> [skip; split] <;> omega

lemma OperatorStep.addCost_pos_iff {regionSize : Int} :
  0 < addCost regionSize ↔ emptyRegionApproximateSize < regionSize := by
  unfold addCost smallRegionThreshold regionInfluence emptyRegionApproximateSize smallRegionInfluence
  split <;> [skip; split] <;> omega

lemma Operator.stepCost_totalInfluence (o : Operator) (m : OpInfluence) (region : RegionInfo) (store : Nat) :
  (o.totalInfluence m region).stepCost store =
    m.stepCost store + o.heavyStores.count store * OperatorStep.addCost region.approximateSize := by
  unfold Operator.totalInfluence Operator.heavyStores
  induction o.steps generalizing m with
  | nil => simp
  | cons s _ ih =>
    rw [List.foldl_cons, ih, OperatorStep.stepCost_influence]
    cases hs : s.heavyStore? with
    | none => simp [hs]
    | some id =>
      by_cases e : id = store
      · subst e
        simp [hs]
        ring
      · simp [hs, e]

lemma stepCost_addOpInfluence (m : OpInfluence) (o : Operator) (region : Option RegionInfo) (store : Nat) :
  m.stepCost store ≤ (addOpInfluence m o region).stepCost store ∧
    (m.stepCost store < (addOpInfluence m o region).stepCost store ↔ o.Costs region store) := by
  cases region with
  | none =>
    refine ⟨Int.le_refl _, iff_of_false (Int.lt_irrefl _) ?_⟩
    rintro ⟨-, r, hr, -⟩
    cases hr
  | some region =>
    show _ ≤ (o.totalInfluence m region).stepCost store ∧ (_ < (o.totalInfluence m region).stepCost store ↔ _)
    rw [Operator.stepCost_totalInfluence]
    have hcost := OperatorStep.addCost_nonneg region.approximateSize
    have hcount : (0 : Int) ≤ o.heavyStores.count store := Int.natCast_nonneg _
    refine ⟨le_add_of_nonneg_right (mul_nonneg hcount hcost), ?_⟩
    rw [lt_add_iff_pos_right]
    constructor
    · intro h
      have hmem : 0 < o.heavyStores.count store := by
        by_contra h0
        rw [Nat.eq_zero_of_not_pos h0] at h
        simp at h
      refine ⟨List.count_pos_iff.mp hmem, region, rfl, OperatorStep.addCost_pos_iff.mp ?_⟩
      exact pos_of_mul_pos_right h hcount
    rintro ⟨hmem, r, hr, hsize⟩
    cases hr
    exact mul_pos (Int.natCast_pos.mpr (List.count_pos_iff.mpr hmem)) (OperatorStep.addCost_pos_iff.mpr hsize)

lemma stepCost_single (o : Operator) (region : Option RegionInfo) (store : Nat) :
  (newTotalOpInfluence [(o, region)]).stepCost store ≠ 0 ↔ o.Costs region store := by
  obtain ⟨hle, hlt⟩ := stepCost_addOpInfluence .empty o region store
  rw [← hlt]
  show (addOpInfluence .empty o region).stepCost store ≠ 0 ↔ (0 : Int) < (addOpInfluence .empty o region).stepCost store
  have h0 : (0 : Int) ≤ (addOpInfluence .empty o region).stepCost store := hle
  omega

end
end PD
