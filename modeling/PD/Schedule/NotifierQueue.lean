import PD.Schedule.RunningOperators

/-! # The notifier queue -/

namespace PD
open List Option Operator RunningOperators

section
variable {region : RegionInfo}

lemma Operator.check_again (op : Operator) (region : RegionInfo) :
  (op.check region).2.isFinish = (op.check region).1.isNone ∧ (op.check region).2.check region = op.check region := by
  generalize hrest : op.rest = steps
  induction steps generalizing op with
  | nil =>
    have hcheck : op.check region = (none, op) := by
      unfold Operator.check
      rw [hrest]
      rfl
    rw [hcheck]
    exact ⟨isFinish_iff_rest.mpr hrest, hcheck⟩
  | cons a _ ih =>
    by_cases ha : a.isFinish region = true
    · rw [check_finished hrest ha]
      exact ih op.advance (rest_advance hrest)
    have hcheck : op.check region = (some a, op) := by
      unfold Operator.check
      rw [hrest, checkFrom, if_neg ha]
    rw [hcheck]
    exact ⟨not_finish hrest, hcheck⟩

lemma Operator.check_of_isFinish {op : Operator} (h : op.isFinish = true) (region : RegionInfo) :
  (op.check region).1 = none := by
  unfold Operator.check
  rw [isFinish_iff_rest.mp h]
  rfl

end

namespace OperatorController

def popMin (queue : List (Nat × Nat)) (k : Nat) : Option ((Nat × Nat) × List (Nat × Nat)) := queue[k]?.bind fun item =>
    if queue.all fun e => decide (item.2 ≤ e.2) then some (item, queue.eraseIdx k) else none

variable (oc : OperatorController)

def pollNeedDispatchRegion (w : World) (k : Nat) : Option ((Option RegionInfo × Bool) × OperatorController) :=
  if oc.opNotifierQueue.isEmpty then some ((none, false), oc)
  else (popMin oc.opNotifierQueue k).map fun (item, rest) =>
    let regionID := oc.regionOf item.1
    let oc := { oc with opNotifierQueue := rest }
    match oc.operators.lookup regionID with
    | none => ((none, true), oc)
    | some o =>
      match w.getRegion regionID with
      | none => ((none, true), oc)
      | some region =>
        let checked := { oc with objects := oc.objects.modify o fun op => (op.check region).2 }
        match ((oc.op o).check region).1 with
        | none => ((none, true), checked)
        | some step =>
          if w.now < item.2 then ((none, false), { checked with opNotifierQueue := item :: rest })
          else
            let time := getNextPushOperatorTime (some step) w.now
            ((some region, true), { checked with opNotifierQueue := (item.1, time) :: rest })

def entries (r : Nat) : List Nat := (oc.opNotifierQueue.map Prod.fst).filter fun o => decide (oc.regionOf o = r)
def Covered : Prop := ∀ r o, oc.operators.lookup r = some o → (oc.op o).isFinish = false → oc.entries r = [o]
def offered (ops : List Nat) (r : Nat) : List Nat := ops.filter fun o => decide (oc.regionOf o = r)

def stepLeft (w : World) (o : Nat) : Option OperatorStep :=
  (w.getRegion (oc.regionOf o)).bind fun region => ((oc.op o).check region).1

section
variable {oc oc₁ : OperatorController} {w : World} {o : Nat}

lemma lookup_withGroup (oc : OperatorController) (ops : List Nat) (r : Nat) :
  (oc.withGroup ops).lookup r = (oc.offered ops r).getLast?.or (oc.operators.lookup r) := by
  unfold withGroup offered
  rw [SortedMap.lookup_insertAll_last, List.filter_map, List.map_map]
  congr 2
  exact List.map_id _

lemma regionOf_mem_offered {ops : List Nat} {r : Nat} (h : o ∈ oc.offered ops r) : o ∈ ops ∧ oc.regionOf o = r := by
  obtain ⟨hmem, hr⟩ := mem_filter.mp h
  exact ⟨hmem, of_decide_eq_true hr⟩

lemma op_addOperatorLocked {region : RegionInfo} (hregion : w.getRegion (oc.regionOf o) = some region) :
  (addOperatorLocked w oc o).opNotifierQueue.map Prod.fst = o :: oc.opNotifierQueue.map Prod.fst ∧
    (∀ o', o' ≠ o → (addOperatorLocked w oc o).op o' = oc.op o') ∧
    ((addOperatorLocked w oc o).op o).isFinish = ((oc.op o).check region).1.isNone ∧
    (((addOperatorLocked w oc o).op o).check region).1 = ((oc.op o).check region).1 := by
  have hregion' : w.getRegion (((oc.replaceOld o).start w.now o).regionOf o) = some region := by
    rw [(same_start _ w.now o).regionOf, (same_replaceOld oc o).regionOf, hregion]
  have hqueue : (oc.replaceOld o).opNotifierQueue = oc.opNotifierQueue := by
    unfold replaceOld
    split <;> rfl
  have hobjects : (oc.replaceOld o).objects = oc.objects := by
    unfold replaceOld
    split <;> rfl
  have hmodify : (addOperatorLocked w oc o).objects =
      (oc.objects.modify o fun op => { op with startTime := some w.now }).modify o fun op => (op.check region).2 := by
    unfold addOperatorLocked notify
    rw [hregion', ← hobjects]
    rfl
  refine ⟨?_, ?_, ?_⟩
  · unfold addOperatorLocked notify
    rw [hregion', ← hqueue]
    rfl
  · intro o' hne
    unfold OperatorController.op
    rw [hmodify, Heap.get_modify_of_ne hne, Heap.get_modify_of_ne hne]
  have hop : (addOperatorLocked w oc o).op o =
      (((oc.objects.modify o fun op => { op with startTime := some w.now }).get o).check region).2 := by
    unfold OperatorController.op
    rw [hmodify, Heap.get_modify_of_default rfl]
  have hstart : (((oc.objects.modify o fun op => { op with startTime := some w.now }).get o).check region).1 =
      ((oc.op o).check region).1 :=
    Heap.apply_get_modify (fun op : Operator => (op.check region).1) fun _ => rfl
  rw [hop, ← hstart, (check_again _ region).2]
  exact ⟨(check_again _ region).1, rfl⟩

lemma same_addOperatorLocked (w : World) (oc : OperatorController) (o : Nat) : Same oc (addOperatorLocked w oc o) :=
  (same_replaceOld oc o).trans ((same_start _ w.now o).trans (same_notify _ w o))

lemma addAll_queue {ops : List Nat} (hregions : ∀ o ∈ ops, ∃ region, w.getRegion (oc.regionOf o) = some region) :
  (ops.foldl (addOperatorLocked w) oc).opNotifierQueue.map Prod.fst = ops.reverse ++ oc.opNotifierQueue.map Prod.fst ∧
    ∀ o, ((ops.foldl (addOperatorLocked w) oc).op o).isFinish =
      if o ∈ ops then (oc.stepLeft w o).isNone else (oc.op o).isFinish := by
  induction ops generalizing oc with
  | nil => exact ⟨rfl, fun _ => rfl⟩
  | cons a ops ih =>
    obtain ⟨region, hregion⟩ := hregions a mem_cons_self
    obtain ⟨hqueue, hother, hfinish, hcheck⟩ := op_addOperatorLocked hregion
    have hs := same_addOperatorLocked w oc a
    have hleft : ∀ o, (addOperatorLocked w oc a).stepLeft w o = oc.stepLeft w o := by
      intro o
      unfold stepLeft
      rw [hs.regionOf]
      by_cases ha : o = a
      · rw [ha, hregion]
        exact hcheck
      · rw [hother o ha]
    have hrest : ∀ o ∈ ops, ∃ region, w.getRegion ((addOperatorLocked w oc a).regionOf o) = some region := by
      intro o ho
      rw [hs.regionOf]
      exact hregions o (mem_cons_of_mem _ ho)
    obtain ⟨hqueue', hfinish'⟩ := ih hrest
    refine ⟨?_, ?_⟩
    · rw [foldl_cons, hqueue', hqueue, reverse_cons, append_assoc]
      rfl
    intro o
    rw [foldl_cons, hfinish' o, hleft]
    by_cases hmem : o ∈ ops
    · rw [if_pos hmem, if_pos (mem_cons_of_mem _ hmem)]
    rw [if_neg hmem]
    by_cases ha : o = a
    · rw [ha, hfinish, if_pos mem_cons_self, stepLeft, hregion]
      rfl
    · rw [hother o ha, if_neg (fun h => (mem_cons.mp h).elim ha hmem)]

end
end OperatorController

namespace NotifierQueue
open OperatorController

inductive Label where
  | addOperator (w : World) (exceeds : Bool) (ops : List Nat)
  | removeOperator (o : Nat)
  | poll (w : World) (k : Nat)

def step (oc : OperatorController) : Label → Option OperatorController
  | .addOperator w exceeds ops => some (oc.addOperator w exceeds ops).2
  | .removeOperator o => some (oc.removeOperatorLocked o)
  | .poll w k => (oc.pollNeedDispatchRegion w k).map Prod.snd

def Keeps (oc : OperatorController) : Label → Prop
  | .addOperator w exceeds ops => (exceeds || !oc.checkAddOperator w ops) = false →
      ∀ r o, (oc.offered ops r).getLast? = some o → oc.stepLeft w o ≠ none → oc.offered ops r = [o] ∧ oc.entries r = []
  | .removeOperator _ => True
  | .poll w k => ∀ item rest, popMin oc.opNotifierQueue k = some (item, rest) →
      ∀ o, oc.operators.lookup (oc.regionOf item.1) = some o → (oc.op o).isFinish = false →
        w.getRegion (oc.regionOf item.1) ≠ none

structure Inv (oc : OperatorController) : Prop where
  keyed : Keyed oc
  counted : oc.Counted
  covered : Covered oc

section
variable {oc oc₁ : OperatorController} {w : World}
variable {k : Nat} {item : Nat × Nat} {rest : List (Nat × Nat)}

lemma covered_addAll (hi : Inv oc) {ops : List Nat} (hcheck : oc.checkAddOperator w ops = true) :
  Covered (ops.foldl (addOperatorLocked w) oc) ↔ ∀ r o, (oc.offered ops r).getLast? = some o → oc.stepLeft w o ≠ none →
      oc.offered ops r = [o] ∧ oc.entries r = [] := by
  obtain ⟨hb, -⟩ := addAll_spec hi.keyed hi.counted w ops
  have hregions : ∀ o ∈ ops, ∃ region, w.getRegion (oc.regionOf o) = some region := by
    intro o ho
    obtain ⟨region, hregion, -⟩ := canAdd_of_check hcheck ho
    exact ⟨region, hregion⟩
  obtain ⟨hqueue, hfinish⟩ := addAll_queue hregions
  have hentries : ∀ r, (ops.foldl (addOperatorLocked w) oc).entries r = (oc.offered ops r).reverse ++ oc.entries r := by
    intro r
    unfold entries offered
    rw [hqueue, filter_append, filter_reverse]
    simp only [hb.same.regionOf]
  have hlookup : ∀ r, (ops.foldl (addOperatorLocked w) oc).operators.lookup r =
      (oc.offered ops r).getLast?.or (oc.operators.lookup r) := by
    intro r
    rw [hb.operators_eq, lookup_withGroup]
  constructor
  · intro hcovered r o hlast hleft
    have hmem := (regionOf_mem_offered (List.mem_of_getLast? hlast)).1
    have hone := hcovered r o (by rw [hlookup, hlast]; rfl) (by
      rw [hfinish, if_pos hmem]
      exact isNone_eq_false_iff.mpr (isSome_iff_ne_none.mpr hleft))
    rw [hentries] at hone
    rcases append_eq_singleton_iff.mp hone with ⟨hnil, -⟩ | ⟨hoffered, hnone⟩
    · rw [reverse_eq_nil_iff.mp hnil] at hlast
      cases hlast
    rw [← reverse_reverse (oc.offered ops r), hoffered]
    exact ⟨rfl, hnone⟩
  intro hkeeps r o ho hunfinished
  rw [hlookup] at ho
  rw [hfinish] at hunfinished
  rw [hentries]
  cases hlast : (oc.offered ops r).getLast? with
  | none =>
    rw [hlast] at ho
    have hnil := List.getLast?_eq_none_iff.mp hlast
    have hnot : o ∉ ops := by
      intro hmem
      have hin : o ∈ oc.offered ops r := mem_filter.mpr ⟨hmem, decide_eq_true (hi.keyed r o ho)⟩
      rw [hnil] at hin
      cases hin
    rw [if_neg hnot] at hunfinished
    rw [hnil, hi.covered r o ho hunfinished]
    rfl
  | some =>
    rw [hlast] at ho
    cases ho
    rw [if_pos (regionOf_mem_offered (List.mem_of_getLast? hlast)).1] at hunfinished
    obtain ⟨hoffered, hnone⟩ := hkeeps r _ hlast fun h => by rw [h] at hunfinished; cases hunfinished
    rw [hoffered, hnone]
    rfl

lemma popMin_some {queue : List (Nat × Nat)} (h : popMin queue k = some (item, rest)) : queue.Perm (item :: rest) := by
  obtain ⟨e, he, h⟩ := bind_eq_some_iff.mp h
  split at h
  · cases h
    obtain ⟨hk, rfl⟩ := List.getElem?_eq_some_iff.mp he
    exact (getElem_cons_eraseIdx_perm hk).symm
  · cases h

lemma covered_of (hc : Covered oc) (hs : Same oc oc₁) (hops : oc₁.operators = oc.operators)
  (hfinish : ∀ o, (oc₁.op o).isFinish = false → (oc.op o).isFinish = false)
  (hentries : ∀ r o, oc.operators.lookup r = some o → (oc₁.op o).isFinish = false →
    (oc.entries r).Perm ((oc₁.opNotifierQueue.map Prod.fst).filter fun o => decide (oc.regionOf o = r))) :
  Covered oc₁ := by
  intro r o ho hunfinished
  rw [hops] at ho
  unfold entries
  simp only [hs.regionOf]
  have hperm := hentries r o ho hunfinished
  rw [hc r o ho (hfinish o hunfinished)] at hperm
  exact (singleton_perm.mp hperm).symm

lemma entries_pop (hp : oc.opNotifierQueue.Perm (item :: rest))
  (r : Nat) : (oc.entries r).Perm (((item :: rest).map Prod.fst).filter fun o => decide (oc.regionOf o = r)) :=
  (hp.map Prod.fst).filter _

lemma entries_pop_of_ne {r : Nat} (hp : oc.opNotifierQueue.Perm (item :: rest)) (hne : oc.regionOf item.1 ≠ r) :
  (oc.entries r).Perm ((rest.map Prod.fst).filter fun o => decide (oc.regionOf o = r)) := by
  have h := entries_pop hp r
  rw [map_cons, filter_cons_of_neg (by simpa using hne)] at h
  exact h

lemma unfinished_of_checked {o x : Nat} {region : RegionInfo}
  (h : ((oc.objects.modify o fun op => (op.check region).2).get x).isFinish = false) :
  (oc.op x).isFinish = false ∧ (x = o → ((oc.op o).check region).1 ≠ none) := by
  by_cases hx : x = o
  · rw [hx, Heap.get_modify_of_default rfl, (check_again _ region).1] at h
    have hstep : ((oc.op o).check region).1 ≠ none := by
      intro hnone
      change ((oc.op o).check region).1.isNone = false at h
      rw [hnone] at h
      cases h
    refine ⟨?_, fun _ => hstep⟩
    rw [hx, Bool.eq_false_iff]
    exact fun hf => hstep (check_of_isFinish hf region)
  rw [Heap.get_modify_of_ne hx] at h
  exact ⟨h, fun e => absurd e hx⟩

lemma covered_poll (hi : Inv oc) (h : step oc (.poll w k) = some oc₁) :
  (Covered oc₁ ↔ Keeps oc (.poll w k)) ∧ Keyed oc₁ ∧ oc₁.Counted := by
  obtain ⟨⟨res, oc'⟩, hpoll, rfl⟩ := map_eq_some_iff.mp h
  unfold pollNeedDispatchRegion at hpoll
  split at hpoll
  next hempty =>
    obtain ⟨-, rfl⟩ := Prod.mk.inj (some.inj hpoll)
    refine ⟨iff_of_true hi.covered ?_, hi.keyed, hi.counted⟩
    intro item rest hpop
    have hperm := popMin_some hpop
    rw [List.isEmpty_iff.mp hempty] at hperm
    exact absurd hperm.length_eq (by simp)
  · obtain ⟨⟨item, rest⟩, hpop, hres⟩ := map_eq_some_iff.mp hpoll
    have hperm := popMin_some hpop
    have hkeeps : Keeps oc (.poll w k) ↔ ∀ o, oc.operators.lookup (oc.regionOf item.1) = some o →
        (oc.op o).isFinish = false → w.getRegion (oc.regionOf item.1) ≠ none := by
      constructor
      · intro hk
        exact hk item rest hpop
      intro hk item' rest' hpop'
      obtain ⟨rfl, rfl⟩ := Prod.mk.inj (some.inj (hpop.symm.trans hpop'))
      exact hk
    rw [hkeeps]
    dsimp only at hres
    cases hop : oc.operators.lookup (oc.regionOf item.1) with
    | none =>
      rw [hop] at hres
      obtain ⟨-, rfl⟩ := Prod.mk.inj hres
      refine ⟨iff_of_true ?_ nofun, hi.keyed, hi.counted⟩
      refine covered_of hi.covered (Same.of_objects rfl) rfl (fun _ h => h) ?_
      intro r o ho _
      refine entries_pop_of_ne hperm ?_
      intro heq
      rw [heq, ho] at hop
      cases hop
    | some o =>
      rw [hop] at hres
      cases hr : w.getRegion (oc.regionOf item.1) with
      | none =>
        rw [hr] at hres
        obtain ⟨-, rfl⟩ := Prod.mk.inj hres
        refine ⟨?_, hi.keyed, hi.counted⟩
        constructor
        · intro hcovered x hx hunfinished
          cases hx
          have hone := entries_pop hperm (oc.regionOf item.1)
          rw [hi.covered _ o hop hunfinished, map_cons, filter_cons_of_pos (by simp)] at hone
          have hrest : (rest.map Prod.fst).filter (fun x => decide (oc.regionOf x = oc.regionOf item.1)) = [o] :=
            hcovered _ o hop hunfinished
          rw [hrest] at hone
          exact absurd hone.length_eq (by simp)
        intro hfinished
        refine covered_of hi.covered (Same.of_objects rfl) rfl (fun _ h => h) ?_
        intro r x hx hunfinished
        refine entries_pop_of_ne hperm ?_
        rintro rfl
        obtain rfl := some.inj (hop.symm.trans hx)
        exact hfinished o rfl hunfinished rfl
      | some region =>
        rw [hr] at hres
        dsimp only at hres
        have hs : ∀ queue, Same oc { oc with
            objects := oc.objects.modify o fun op => (op.check region).2, opNotifierQueue := queue } := fun _ =>
          Same.of_modify (f := fun op => (op.check region).2) rfl fun _ => rfl
        have hcovered : ∀ time, Covered { oc with
            objects := oc.objects.modify o fun op => (op.check region).2
            opNotifierQueue := (item.1, time) :: rest } := fun _ =>
          covered_of hi.covered (hs _) rfl (fun _ h => (unfinished_of_checked h).1) fun r _ _ _ => entries_pop hperm r
        split at hres
        next hstep =>
          obtain ⟨-, rfl⟩ := Prod.mk.inj hres
          refine ⟨iff_of_true ?_ nofun, hi.keyed.of_same (hs _) rfl, hi.counted.of_same (hs _) rfl rfl⟩
          refine covered_of hi.covered (hs _) rfl (fun _ h => (unfinished_of_checked h).1) ?_
          intro r x hx hunfinished
          refine entries_pop_of_ne hperm ?_
          rintro rfl
          obtain rfl := some.inj (hop.symm.trans hx)
          exact (unfinished_of_checked hunfinished).2 rfl hstep
        · split at hres
          · obtain ⟨-, rfl⟩ := Prod.mk.inj hres
            exact ⟨iff_of_true (hcovered item.2) nofun, hi.keyed.of_same (hs _) rfl, hi.counted.of_same (hs _) rfl rfl⟩
          obtain ⟨-, rfl⟩ := Prod.mk.inj hres
          exact ⟨iff_of_true (hcovered _) nofun, hi.keyed.of_same (hs _) rfl, hi.counted.of_same (hs _) rfl rfl⟩

lemma covered_step (hi : Inv oc) {l : Label} (h : step oc l = some oc₁) :
  (Covered oc₁ ↔ Keeps oc l) ∧ Keyed oc₁ ∧ oc₁.Counted := by
  cases l with
  | addOperator w exceeds ops =>
    cases h
    unfold addOperator
    by_cases hreject : (exceeds || !oc.checkAddOperator w ops) = true
    · rw [if_pos hreject]
      obtain ⟨records, he⟩ := recordAll_eq oc .cancel ops
      rw [he]
      exact ⟨iff_of_true hi.covered (fun hf => by rw [hreject] at hf; cases hf), hi.keyed, hi.counted⟩
    rw [if_neg hreject]
    have hcheck : oc.checkAddOperator w ops = true := by simp at hreject; exact hreject.2
    obtain ⟨hb, hk⟩ := addAll_spec hi.keyed hi.counted w ops
    refine ⟨?_, hk, hb.counted⟩
    rw [covered_addAll hi hcheck]
    exact ⟨fun hkeeps _ => hkeeps, fun hkeeps => hkeeps (by simpa using hreject)⟩
  | removeOperator o =>
    cases h
    refine ⟨iff_of_true ?_ trivial, hi.keyed.removeOperatorLocked o, (removeOperatorLocked_spec oc o).counted⟩
    intro r x hx hunfinished
    exact hi.covered r x (lookup_of_removeOperatorLocked hx) hunfinished
  | poll => exact covered_poll hi h

end

/-- **The notifier queue covers the running operators** all along a run exactly when every call keeps it so. -/
theorem covered_iff (operators : List Operator) (ls : List Label) :
  Runs.Steps step (fun _ _ oc => Covered oc) (.new operators) ls ↔
    Runs.Steps step (fun oc l _ => Keeps oc l) (.new operators) ls := by
  refine Runs.steps_iff Inv ?_ ⟨nofun, rfl, nofun⟩
  intro oc l oc₁ hi h
  obtain ⟨hiff, hk, hc⟩ := covered_step hi h
  exact ⟨hiff, fun hcovered => ⟨hk, hc, hcovered⟩⟩

def twoTransfers : List Operator := [newOperator "balance-leader" 1 (some ⟨1, 1⟩) .opLeader [.transferLeader 1 2],
    { newOperator "grant-leader" 1 (some ⟨1, 1⟩) .opLeader [.transferLeader 1 3] with level := .highPriority }]

def noRegions : World := { twoRegions with getRegion := fun _ => none }

theorem entry_lost : ∃ oc, Runs.exec step (.new twoTransfers)
    [.addOperator twoRegions false [0], .poll noRegions 0] = some oc ∧
  oc.operators.lookup 1 = some 0 ∧ (oc.op 0).isFinish = false ∧ oc.entries 1 = [] ∧ ¬Covered oc := by
  refine ⟨_, rfl, by decide, by decide, by decide, fun hcovered => ?_⟩
  exact absurd (hcovered 1 0 (by decide) (by decide)) (by decide)

lemma entry_stale : ∃ oc, Runs.exec step (.new twoTransfers)
    [.addOperator twoRegions false [0], .addOperator twoRegions false [1]] = some oc ∧
  oc.operators.lookup 1 = some 1 ∧ (oc.op 1).isFinish = false ∧ oc.entries 1 = [1, 0] ∧ ¬Covered oc := by
  refine ⟨_, rfl, by decide, by decide, by decide, fun hcovered => ?_⟩
  exact absurd (hcovered 1 1 (by decide) (by decide)) (by decide)

end NotifierQueue
end PD
