import PD.Lib.Runs
import PD.Schedule.Influence
import PD.Schedule.OperatorController

/-! # Store limits and the regions they are computed from -/

namespace PD.StoreLimit
open OperatorController (Same)

inductive Pc where
  | unlocked
  | drawing
  | limiting (promote : Bool) (done todo : List Nat) (influence : OpInfluence)
  | checking (promote : Bool) (group todo : List Nat)
  | adding (todo : List Nat)
  | notifying (o : Nat) (todo : List Nat)
  | crashed (storeID : Nat)

structure State where
  oc : OperatorController
  regions : SortedMap Nat RegionInfo
  storesLimit : List Nat
  pc : Pc

inductive Label where
  | heartbeat (region : RegionInfo)
  | dropRegion (regionID : Nat)
  | setStoreLimit (storeID : Nat)
  | addOperator (ops : List Nat)
  | addWaitingOperator (w : World) (ops : List Nat)
  | promoteWaitingOperator
  | next (now : Nat) (bucket : Option PriorityLevel) (available : Nat → Int) (order : List Nat)

def init (operators : List Operator) : State := ⟨.new operators, .empty, [], .unlocked⟩

def getOrCreateStoreLimit (limits : List Nat) (storeID : Nat) : List Nat :=
  if limits.contains storeID then limits else storeID :: limits

def exceedStoreLimit (available : Nat → Int) (influence : OpInfluence) : List Nat → List Nat → Bool × List Nat
  | [], limits => (false, limits)
  | storeID :: rest, limits =>
    if influence.stepCost storeID = 0 then exceedStoreLimit available influence rest limits
    else if available storeID < influence.stepCost storeID then (true, getOrCreateStoreLimit limits storeID)
    else exceedStoreLimit available influence rest (getOrCreateStoreLimit limits storeID)

def missingLimit (influence : OpInfluence) (limits : List Nat) : Option Nat :=
  influence.keys.find? fun storeID => influence.stepCost storeID != 0 && !limits.contains storeID

variable (s : State)

def reject (promote : Bool) (group : List Nat) : State :=
  match promote, group with
  | true, o :: _ => { s with oc := (s.oc.recordAll .cancel group).taken o, pc := .drawing }
  | true, [] => { s with pc := .drawing }
  | false, _ => { s with oc := s.oc.recordAll .cancel group, pc := .unlocked }

def accept (promote : Bool) (group : List Nat) : State :=
  match promote, group with
  | true, o :: _ => { s with oc := s.oc.taken o, pc := .adding group }
  | _, _ => { s with pc := .adding group }

def State.region (o : Nat) : Option RegionInfo := s.regions.lookup (s.oc.regionOf o)
def State.world (now : Nat) : World := ⟨s.regions.lookup, now, 0⟩

def next (now : Nat) (bucket : Option PriorityLevel) (available : Nat → Int) (order : List Nat) : Pc → Option State
  | .unlocked => none
  | .crashed _ => none
  | .drawing =>
    match s.oc.getOperator bucket with
    | none => none
    | some ([], oc) => some { s with oc := oc, pc := .unlocked }
    | some (group, oc) => some { s with oc := oc, pc := .limiting true [] group .empty }
  | .limiting promote done (o :: todo) influence =>
    some { s with pc := .limiting promote (done ++ [o]) todo (addOpInfluence influence (s.oc.op o) (s.region o)) }
  | .limiting promote done [] influence =>
    if order.Perm influence.keys then
      let r := exceedStoreLimit available influence order s.storesLimit
      if r.1 then some (reject { s with storesLimit := r.2 } promote done)
      else some { s with storesLimit := r.2, pc := .checking promote done done }
    else none
  | .checking promote group (o :: todo) =>
    if s.oc.canAdd (s.world now) o then some { s with pc := .checking promote group todo }
    else some (reject s promote group)
  | .checking promote group [] => some (accept s promote group)
  | .adding [] => some { s with pc := .unlocked }
  | .adding (o :: todo) =>
    match missingLimit (newTotalOpInfluence [(s.oc.op o, s.region o)]) s.storesLimit with
    | some storeID => some { s with pc := .crashed storeID }
    | none => some { s with oc := (s.oc.replaceOld o).start now o, pc := .notifying o todo }
  | .notifying o todo => some { s with oc := s.oc.notify (s.world now) o, pc := .adding todo }

def State.free : Bool :=
  match s.pc with
  | .unlocked => true
  | _ => false

def step : Label → Option State
  | .heartbeat region => some { s with regions := s.regions.insert region.getID region }
  | .dropRegion regionID => some { s with regions := s.regions.erase regionID }
  | .setStoreLimit storeID =>
    if s.free then some { s with storesLimit := getOrCreateStoreLimit s.storesLimit storeID } else none
  | .addOperator ops => if s.free then some { s with pc := .limiting false [] ops .empty } else none
  | .addWaitingOperator w ops =>
    if s.free then (s.oc.addWaitingLocked w ops).map fun r => { s with oc := r.2 } else none
  | .promoteWaitingOperator => if s.free then some { s with pc := .drawing } else none
  | .next now bucket available order => next s now bucket available order s.pc

def Pc.crash? : Pc → Option Nat
  | crashed storeID => some storeID
  | _ => none

def Pc.pending : Pc → List Nat
  | limiting _ done _ _ => done
  | checking _ group _ => group
  | adding todo => todo
  | notifying _ todo => todo
  | _ => []

def Sized (region : Option RegionInfo) : Prop := ∃ r, region = some r ∧ emptyRegionApproximateSize < r.approximateSize

instance sizedDecidable : ∀ region, Decidable (Sized region)
  | none => .isFalse fun ⟨_, h, _⟩ => by cases h
  | some r => decidable_of_iff (emptyRegionApproximateSize < r.approximateSize)
      ⟨fun h => ⟨r, rfl, h⟩, fun ⟨_, h, hr⟩ => Option.some.inj h ▸ hr⟩

def Quiet : Label → Prop
  | .heartbeat region => Sized (some region) → ∀ o ∈ s.pc.pending, s.oc.regionOf o = region.getID →
      Sized (s.region o) ∨ ∀ storeID ∈ (s.oc.op o).heavyStores, storeID ∈ s.storesLimit
  | _ => True

instance quietDecidable (s : State) : ∀ l : Label, Decidable (Quiet s l)
  | .heartbeat region => inferInstanceAs (Decidable (Sized (some region) → ∀ o ∈ s.pc.pending, _ → _ ∨ _))
  | .dropRegion _ => .isTrue trivial
  | .setStoreLimit _ => .isTrue trivial
  | .addOperator _ => .isTrue trivial
  | .addWaitingOperator .. => .isTrue trivial
  | .promoteWaitingOperator => .isTrue trivial
  | .next .. => .isTrue trivial

section
variable {influence : OpInfluence} {limits : List Nat} {available : Nat → Int} {storeID : Nat}

lemma mem_getOrCreate {x : Nat} : x ∈ getOrCreateStoreLimit limits storeID ↔ x = storeID ∨ x ∈ limits := by
  unfold getOrCreateStoreLimit
  split
  next h =>
    refine ⟨.inr, ?_⟩
    rintro (rfl | hx)
    · exact List.contains_iff_mem.mp h
    · exact hx
  · exact List.mem_cons

lemma subset_exceedStoreLimit (order : List Nat) (limits : List Nat) :
  limits ⊆ (exceedStoreLimit available influence order limits).2 := by
  induction order generalizing limits with
  | nil => exact List.Subset.refl _
  | cons storeID _ ih =>
    have hmake : limits ⊆ getOrCreateStoreLimit limits storeID := fun x hx => mem_getOrCreate.mpr (.inr hx)
    unfold exceedStoreLimit
    split
    · exact ih limits
    split
    · exact hmake
    · exact List.Subset.trans hmake (ih _)

lemma mem_exceedStoreLimit {order : List Nat} (h : (exceedStoreLimit available influence order limits).1 = false)
  (hmem : storeID ∈ order) (hcost : influence.stepCost storeID ≠ 0) :
  storeID ∈ (exceedStoreLimit available influence order limits).2 := by
  induction order generalizing limits with
  | nil => cases hmem
  | cons x rest ih =>
    unfold exceedStoreLimit at h ⊢
    split at h
    next h0 =>
      rw [if_pos h0]
      refine ih h ((List.mem_cons.mp hmem).resolve_left ?_)
      rintro rfl
      exact hcost h0
    next h0 =>
      rw [if_neg h0]
      split at h
      · cases h
      next havail =>
        rw [if_neg havail]
        rcases List.mem_cons.mp hmem with rfl | hmem
        · exact subset_exceedStoreLimit rest _ (mem_getOrCreate.mpr (.inl rfl))
        · exact ih h hmem

lemma mem_keys_of_stepCost (h : influence.stepCost storeID ≠ 0) : storeID ∈ influence.keys := by
  unfold OpInfluence.stepCost OpInfluence.getStoreInfluence at h
  cases hl : influence.lookup storeID with
  | none => rw [hl] at h; exact absurd rfl h
  | some i => exact SortedMap.mem_keys.mpr ⟨i, hl⟩

lemma missingLimit_eq_none (h : ∀ storeID, influence.stepCost storeID ≠ 0 → storeID ∈ limits) :
  missingLimit influence limits = none := by
  refine List.find?_eq_none.mpr fun storeID _ => ?_
  by_cases h0 : influence.stepCost storeID = 0
  · simp [h0]
  · simp [h storeID h0]

end

section
variable {s t : State} {l : Label}

def State.Costs (s : State) (o storeID : Nat) : Prop := storeID ∈ (s.oc.op o).heavyStores ∧ Sized (s.region o)

def Pc.influence : Pc → OpInfluence
  | limiting _ _ _ influence => influence
  | _ => .empty

structure Inv (s : State) : Prop where
  nonneg : ∀ storeID, 0 ≤ s.pc.influence.stepCost storeID
  covered : ∀ o ∈ s.pc.pending, ∀ storeID, s.Costs o storeID →
    storeID ∈ s.storesLimit ∨ 0 < s.pc.influence.stepCost storeID
  alive : s.pc.crash? = none

lemma heavyStores_same {oc oc₁ : OperatorController} (hs : Same oc oc₁) (o : Nat) :
    (oc₁.op o).heavyStores = (oc.op o).heavyStores := hs.field Operator.heavyStores (fun _ => rfl) o

lemma costs_same (hs : Same s.oc t.oc) (hregions : t.regions = s.regions) {o storeID : Nat}
  (h : t.Costs o storeID) : s.Costs o storeID := by
  unfold State.Costs State.region at h ⊢
  rw [heavyStores_same hs, hs.regionOf, hregions] at h
  exact h

lemma inv_of_no_pending (hpending : t.pc.pending = []) (hinf : t.pc.influence = .empty)
  (halive : t.pc.crash? = none) : Inv t := by
  refine ⟨fun storeID => ?_, fun o ho => ?_, halive⟩
  · rw [hinf]
    exact Int.le_refl _
  rw [hpending] at ho
  cases ho

lemma inv_reject (s : State) (promote : Bool) (group : List Nat) : Inv (reject s promote group) := by
  unfold reject
  split <;> exact inv_of_no_pending rfl rfl rfl

lemma Inv.keep (hi : Inv s) (hs : Same s.oc t.oc) (hregions : t.regions = s.regions)
  (hlimits : s.storesLimit ⊆ t.storesLimit) (hpending : t.pc.pending ⊆ s.pc.pending)
  (hinf : s.pc.influence = .empty) (hinf' : t.pc.influence = .empty) (halive : t.pc.crash? = none) : Inv t := by
  refine ⟨fun storeID => ?_, fun o ho storeID hcost => .inl ?_, halive⟩
  · rw [hinf']
    exact Int.le_refl _
  rcases hi.covered o (hpending ho) storeID (costs_same hs hregions hcost) with hmem | hpos
  · exact hlimits hmem
  rw [hinf] at hpos
  exact absurd hpos (Int.lt_irrefl _)

section
variable {now : Nat} {bucket : Option PriorityLevel} {available : Nat → Int} {order : List Nat}

lemma inv_limiting {promote : Bool} {done todo : List Nat} {influence : OpInfluence} (hi : Inv s)
  (hpc : s.pc = .limiting promote done todo influence)
  (h : next s now bucket available order (.limiting promote done todo influence) = some t) : Inv t := by
  have hcovered := hi.covered
  have hnonneg := hi.nonneg
  rw [hpc] at hcovered hnonneg
  cases todo with
  | cons o =>
    cases h
    have hgrow := fun storeID => stepCost_addOpInfluence influence (s.oc.op o) (s.region o) storeID
    refine ⟨fun storeID => (hnonneg storeID).trans (hgrow storeID).1, fun x hx storeID hcost => ?_, rfl⟩
    rcases List.mem_append.mp hx with hx | hx
    · exact (hcovered x hx storeID hcost).imp_right fun hpos => hpos.trans_le (hgrow storeID).1
    rw [List.mem_singleton.mp hx] at hcost
    exact .inr ((hnonneg storeID).trans_lt ((hgrow storeID).2.mpr hcost))
  | nil =>
    simp only [next] at h
    split at h
    next hperm =>
      split at h
      · cases h
        exact inv_reject _ promote done
      next hexceed =>
        cases h
        have hfalse := Bool.eq_false_iff.mpr hexceed
        refine ⟨fun storeID => Int.le_refl _, fun o ho storeID hcost => .inl ?_, rfl⟩
        rcases hcovered o ho storeID hcost with hmem | hpos
        · exact subset_exceedStoreLimit order _ hmem
        have hne : influence.stepCost storeID ≠ 0 := hpos.ne'
        exact mem_exceedStoreLimit hfalse (hperm.mem_iff.mpr (mem_keys_of_stepCost hne)) hne
    · cases h

lemma inv_checking {promote : Bool} {group todo : List Nat} (hi : Inv s) (hpc : s.pc = .checking promote group todo)
  (h : next s now bucket available order (.checking promote group todo) = some t) : Inv t := by
  have hpend : s.pc.pending = group := by rw [hpc]; rfl
  have hinf : s.pc.influence = .empty := by rw [hpc]; rfl
  cases todo with
  | cons =>
    simp only [next] at h
    split at h
    · cases h
      exact hi.keep (Same.refl _) rfl (List.Subset.refl _) (hpend ▸ List.Subset.refl _) hinf rfl rfl
    cases h
    exact inv_reject s promote group
  | nil =>
    cases h
    unfold accept
    split
    · exact hi.keep (Same.of_objects rfl) rfl (List.Subset.refl _) (hpend ▸ List.Subset.refl _) hinf rfl rfl
    · exact hi.keep (Same.refl _) rfl (List.Subset.refl _) (hpend ▸ List.Subset.refl _) hinf rfl rfl

lemma inv_adding {todo : List Nat} (hi : Inv s) (hpc : s.pc = .adding todo)
  (h : next s now bucket available order (.adding todo) = some t) : Inv t := by
  have hpend : s.pc.pending = todo := by rw [hpc]; rfl
  have hinf : s.pc.influence = .empty := by rw [hpc]; rfl
  cases todo with
  | nil =>
    cases h
    exact inv_of_no_pending rfl rfl rfl
  | cons o todo =>
    -- every store that the operator costs something now has a limit
    have hlimit : missingLimit (newTotalOpInfluence [(s.oc.op o, s.region o)]) s.storesLimit = none := by
      refine missingLimit_eq_none fun storeID hcost => ?_
      rcases hi.covered o (hpend ▸ List.mem_cons_self) storeID ((stepCost_single _ _ _).mp hcost) with hmem | hpos
      · exact hmem
      rw [hinf] at hpos
      exact absurd hpos (Int.lt_irrefl _)
    simp only [next, hlimit] at h
    cases h
    have hs : Same s.oc ((s.oc.replaceOld o).start now o) :=
      (OperatorController.same_replaceOld s.oc o).trans (OperatorController.same_start _ now o)
    exact hi.keep hs rfl (List.Subset.refl _) (hpend ▸ List.subset_cons_self o todo) hinf rfl rfl

lemma next_inv (hi : Inv s) (h : next s now bucket available order s.pc = some t) : Inv t := by
  cases hpc : s.pc with
  | drawing =>
    simp only [hpc, next] at h
    split at h
    · cases h
    · cases h
      exact inv_of_no_pending rfl rfl rfl
    cases h
    exact inv_of_no_pending rfl rfl rfl
  | limiting => exact inv_limiting hi hpc (hpc ▸ h)
  | checking => exact inv_checking hi hpc (hpc ▸ h)
  | adding => exact inv_adding hi hpc (hpc ▸ h)
  | notifying o todo =>
    have hpend : s.pc.pending = todo := by rw [hpc]; rfl
    have hinf : s.pc.influence = .empty := by rw [hpc]; rfl
    rw [hpc] at h
    cases h
    exact hi.keep (OperatorController.same_notify s.oc _ o) rfl (List.Subset.refl _)
      (hpend ▸ List.Subset.refl _) hinf rfl rfl
  | _ => rw [hpc] at h; cases h

end

lemma inv_heartbeat (hi : Inv s) {region : RegionInfo} (hquiet : Quiet s (.heartbeat region)) :
  Inv { s with regions := s.regions.insert region.getID region } := by
  refine ⟨hi.nonneg, fun o ho storeID hcost => ?_, hi.alive⟩
  obtain ⟨hheavy, hsized⟩ := hcost
  unfold State.region at hsized
  rw [SortedMap.lookup_insert] at hsized
  split at hsized
  next e =>
    rcases hquiet hsized o ho e with hold | hlimits
    · exact hi.covered o ho storeID ⟨hheavy, hold⟩
    · exact .inl (hlimits storeID hheavy)
  · exact hi.covered o ho storeID ⟨hheavy, hsized⟩

lemma inv_dropRegion (hi : Inv s) (regionID : Nat) : Inv { s with regions := s.regions.erase regionID } := by
  refine ⟨hi.nonneg, fun o ho storeID hcost => hi.covered o ho storeID ⟨hcost.1, ?_⟩, hi.alive⟩
  obtain ⟨r, hr, hsize⟩ := hcost.2
  exact ⟨r, (SortedMap.lookup_erase_some.mp hr).2, hsize⟩

lemma pc_of_free (h : s.free = true) : s.pc = .unlocked := by
  unfold State.free at h
  split at h
  next hpc => exact hpc
  · cases h

lemma step_inv (hi : Inv s) (hquiet : Quiet s l) (h : step s l = some t) : Inv t := by
  cases l with
  | heartbeat =>
    cases h
    exact inv_heartbeat hi hquiet
  | dropRegion regionID =>
    cases h
    exact inv_dropRegion hi regionID
  | setStoreLimit =>
    simp only [step] at h
    split at h
    next hfree =>
      cases h
      exact inv_of_no_pending (by rw [pc_of_free hfree]; rfl) (by rw [pc_of_free hfree]; rfl) hi.alive
    · cases h
  | addOperator | promoteWaitingOperator =>
    simp only [step] at h
    split at h
    · cases h
      exact inv_of_no_pending rfl rfl rfl
    · cases h
  | addWaitingOperator =>
    simp only [step] at h
    split at h
    next hfree =>
      obtain ⟨r, -, rfl⟩ := Option.map_eq_some_iff.mp h
      exact inv_of_no_pending (by rw [pc_of_free hfree]; rfl) (by rw [pc_of_free hfree]; rfl) hi.alive
    · cases h
  | next => exact next_inv hi h

end

/-- **Store limits** exist where they are read, if no region grows meanwhile. -/
theorem store_limits_exist (operators : List Operator) (labels : List Label) (s : State)
  (hquiet : Runs.Along step Quiet (init operators) labels)
  (hrun : Runs.exec step (init operators) labels = some s) : s.pc.crash? = none := by
  have hinit : Inv (init operators) := inv_of_no_pending rfl rfl rfl
  refine Inv.alive (Runs.exec_inv Inv (fun s l t hi hq hs => ?_) hinit hquiet hrun)
  exact step_inv hi hq hs

def addsPeer : Operator := newOperator "balance-region" 1 (some ⟨1, 1⟩) .opRegion [.addPeer 4 10]

def sizedRegion (size : Int) : RegionInfo :=
  { newRegionInfo ⟨1, [], [], some ⟨1, 1⟩, [⟨1, 1, false⟩]⟩ (some ⟨1, 1, false⟩) with approximateSize := size }

def goOn (order : List Nat) : Label := .next 0 none (fun _ => 1000) order

def addWhile (size size' : Int) : List Label :=
  [.heartbeat (sizedRegion size), .addOperator [0], goOn [], goOn [4], .heartbeat (sizedRegion size'),
    goOn [], goOn [], goOn [], goOn [], goOn []]

theorem store_limits_exist_growing :
  ∃ s, Runs.exec step (init [addsPeer]) (addWhile 10 30) = some s ∧ s.pc.crash? = none ∧
    s.storesLimit = [4] ∧ s.oc.operators.entries = [(1, 0)] := by
  have hrun : (Runs.exec step (init [addsPeer]) (addWhile 10 30)).map
      (fun s => (s.storesLimit, s.oc.operators.entries)) = some ([4], [(1, 0)]) := by decide +kernel
  obtain ⟨s, hs, he⟩ := Option.map_eq_some_iff.mp hrun
  obtain ⟨hlimits, hops⟩ := Prod.ext_iff.mp he
  exact ⟨s, hs, store_limits_exist [addsPeer] (addWhile 10 30) s (by decide +kernel) hs, hlimits, hops⟩

/-- At the check the region costs nothing, so store 4 gets no bucket; it grows before the take. -/
theorem grown_region_crashes : (Runs.exec step (init [addsPeer])
  [.heartbeat (sizedRegion 1), .addOperator [0], goOn [], goOn [4], .heartbeat (sizedRegion 30), goOn [], goOn [],
    goOn []]).map (fun s => s.pc.crash?) = some (some 4) := by
  decide +kernel

end PD.StoreLimit
