import Mathlib.Data.String.Basic
import PD.Lib.Heap
import PD.Schedule.Operator

/-! # The operator controller

Operators are objects and the tables hold their addresses. `Became` and `Aside` say what a call changes. -/

namespace PD
open Function List SortedMap

inductive OperatorStatus where
  | success
  | timeout
  | cancel
  | replace
  deriving DecidableEq

inductive ResourceKind where
  | leaderKind
  | regionKind
  deriving DecidableEq

structure OperatorHistory where
  finishTime : Nat
  fromStore : Nat
  toStore : Nat
  kind : ResourceKind
  deriving DecidableEq

instance operatorInhabited : Inhabited Operator := ⟨newOperator "" 0 none 0 []⟩
def Operator.fixed (o : Operator) : Operator := { o with currentStep := 0, startTime := none }

namespace OperatorStep

def transfer? : OperatorStep → Option (Nat × Nat)
  | transferLeader fromStore toStore => some (fromStore, toStore)
  | _ => none

def addedStore? : OperatorStep → Option Nat
  | addPeer toStore _ => some toStore
  | addLightPeer toStore _ => some toStore
  | addLearner toStore _ => some toStore
  | addLightLearner toStore _ => some toStore
  | _ => none

def removedStore? : OperatorStep → Option Nat
  | removePeer fromStore => some fromStore
  | _ => none

end OperatorStep

def Operator.history (o : Operator) (now : Nat) : List OperatorHistory :=
  (o.steps.filterMap OperatorStep.transfer?).map (fun t => ⟨now, t.1, t.2, .leaderKind⟩) ++
    ((o.steps.filterMap OperatorStep.removedStore?).zip (o.steps.filterMap OperatorStep.addedStore?)).map
      fun t => ⟨now, t.1, t.2, .regionKind⟩

structure World where
  getRegion : Nat → Option RegionInfo
  now : Nat
  schedulerMaxWaitingOperator : Nat

structure OperatorController where
  objects : Heap Operator
  operators : SortedMap Nat Nat
  counts : SortedMap OperatorKind Nat
  wop : PriorityLevel → List Nat
  wopStatus : SortedMap String Nat
  opRecords : List (Nat × OperatorStatus)
  histories : List OperatorHistory
  opNotifierQueue : List (Nat × Nat)

structure Draw where
  bucket : Option PriorityLevel
  exceeds : Bool
  deriving DecidableEq

namespace OperatorController

def new (operators : List Operator) : OperatorController :=
  ⟨⟨operators⟩, .empty, .empty, fun _ => [], .empty, [], [], []⟩

variable (oc : OperatorController)
variable (o : Nat)

def op : Operator := oc.objects.get o
def regionOf : Nat := (oc.op o).regionID
def levelOf : PriorityLevel := (oc.op o).level
def isMerge : Bool := (oc.op o).kind.has .opMerge

def record (status : OperatorStatus) (o : Nat) : OperatorController :=
  { oc with opRecords := (o, status) :: oc.opRecords }

def recordAll (status : OperatorStatus) (ops : List Nat) : OperatorController :=
  ops.foldl (fun oc o => oc.record status o) oc

def isHigherPriorityOperator (new old : Operator) : Bool := decide (old.level.val < new.level.val)

variable (w : World)

def canAdd (o : Nat) : Bool :=
  match w.getRegion (oc.regionOf o) with
  | none => false
  | some region =>
    if region.getMeta.getVersion ≠ (oc.op o).getVersion ∨ region.getMeta.getConfVer ≠ (oc.op o).getConfVer then
      false
    else
      match oc.operators.lookup (oc.regionOf o) with
      | none => true
      | some old => isHigherPriorityOperator (oc.op o) (oc.op old)

def checkAddOperator (ops : List Nat) : Bool := ops.all (oc.canAdd w)
def updateCounts : OperatorController := { oc with counts := .tally (oc.operators.values.map fun o => (oc.op o).kind) }
def operatorCount (mask : OperatorKind) : Nat := oc.counts.sumKeys fun k => OperatorKind.has k mask

def removeOperatorLocked : OperatorController :=
  updateCounts { oc with operators := oc.operators.erase (oc.regionOf o) }

def slowNotifyInterval : Nat := 5000000000
def fastNotifyInterval : Nat := 2000000000

def getNextPushOperatorTime (step : Option OperatorStep) (now : Nat) : Nat :=
  match step with
  | some (.transferLeader ..) => now + fastNotifyInterval
  | some (.promoteLearner ..) => now + fastNotifyInterval
  | _ => now + slowNotifyInterval

def replaceOld : OperatorController :=
  match oc.operators.lookup (oc.regionOf o) with
  | some old => (oc.record .replace old).removeOperatorLocked old
  | none => oc

def start (now o : Nat) : OperatorController := updateCounts { oc with
    operators := oc.operators.insert (oc.regionOf o) o
    objects := oc.objects.modify o fun op => { op with startTime := some now } }

def notify (o : Nat) : OperatorController :=
  match w.getRegion (oc.regionOf o) with
  | none => { oc with opNotifierQueue := (o, getNextPushOperatorTime none w.now) :: oc.opNotifierQueue }
  | some region =>
    { oc with
      objects := oc.objects.modify o fun op => (op.check region).2
      opNotifierQueue := (o, getNextPushOperatorTime ((oc.op o).check region).1 w.now) :: oc.opNotifierQueue }

def addOperatorLocked (oc : OperatorController) (o : Nat) : OperatorController :=
  ((oc.replaceOld o).start w.now o).notify w o

def putOperator : OperatorController := { oc with wop := update oc.wop (oc.levelOf o) (oc.wop (oc.levelOf o) ++ [o]) }

def setBucket (level : PriorityLevel) (ops : List Nat) : OperatorController :=
  { oc with wop := update oc.wop level ops }

def getOperator : Option PriorityLevel → Option (List Nat × OperatorController)
  | none => some ([], oc)
  | some level =>
    match oc.wop level with
    | [] => some ([], oc)
    | o :: rest =>
      if oc.isMerge o then
        match rest with
        | [] => none
        | o' :: rest => some ([o, o'], oc.setBucket level rest)
      else some ([o], oc.setBucket level rest)

def waitingCount (desc : String) : Nat := (oc.wopStatus.lookup desc).getD 0

def setWaitingCount (desc : String) (n : Nat) : OperatorController :=
  { oc with wopStatus := oc.wopStatus.insert desc (n % 2 ^ 64) }

def taken : OperatorController := oc.setWaitingCount (oc.op o).desc (oc.waitingCount (oc.op o).desc + (2 ^ 64 - 1))

def addOperator (exceeds : Bool) (ops : List Nat) : Bool × OperatorController :=
  if exceeds || !oc.checkAddOperator w ops then (false, oc.recordAll .cancel ops)
  else (true, ops.foldl (addOperatorLocked w) oc)

def addWaitingLocked (ops : List Nat) : Option (Bool × OperatorController) :=
  if !oc.checkAddOperator w ops then some (false, oc.recordAll .cancel ops)
  else
    match ops with
    | [] => none
    | o :: rest =>
      if w.schedulerMaxWaitingOperator ≤ oc.waitingCount (oc.op o).desc then some (false, oc)
      else
        let put := (rest.take 1).foldl putOperator (oc.putOperator o)
        some (true, put.setWaitingCount (oc.op o).desc (oc.waitingCount (oc.op o).desc + 1))

def drawGroup (w : World) : List Draw → OperatorController → Option (List Nat × OperatorController)
  | [], oc => some ([], oc)
  | d :: draws, oc =>
    match oc.getOperator d.bucket with
    | none => none
    | some ([], oc) => some ([], oc)
    | some (o :: rest, oc) =>
      if d.exceeds || !oc.checkAddOperator w (o :: rest) then
        drawGroup w draws ((oc.recordAll .cancel (o :: rest)).taken o)
      else some (o :: rest, oc.taken o)

def promoteWaitingOperator (draws : List Draw) : Option OperatorController :=
  (drawGroup w draws oc).map fun r => r.1.foldl (addOperatorLocked w) r.2

def addWaitingOperator (ops : List Nat) (draws : List Draw) : Option (Bool × OperatorController) :=
  match oc.addWaitingLocked w ops with
  | none => none
  | some (false, oc) => some (false, oc)
  | some (true, oc) => (oc.promoteWaitingOperator w draws).map fun oc => (true, oc)

def pushHistory (o now : Nat) : OperatorController :=
  { oc with histories := ((oc.op o).history now).reverse ++ oc.histories }

def Same (oc oc' : OperatorController) : Prop := ∀ o, (oc'.op o).fixed = (oc.op o).fixed

section
variable {oc oc₁ oc₂ : OperatorController} {w : World} {o : Nat}
variable {r : Nat} {ops g : List Nat}

lemma Same.refl (oc : OperatorController) : Same oc oc := fun _ => rfl
lemma Same.trans (h : Same oc oc₁) (h' : Same oc₁ oc₂) : Same oc oc₂ := fun o => (h' o).trans (h o)
lemma Same.of_objects (h : oc₁.objects = oc.objects) : Same oc oc₁ := fun o => by rw [op, op, h]

lemma Same.of_modify {f : Operator → Operator} (h : oc₁.objects = oc.objects.modify o f)
  (hf : ∀ op, (f op).fixed = op.fixed) : Same oc oc₁ := by
  intro o'
  rw [op, op, h]
  exact Heap.apply_get_modify Operator.fixed hf

lemma Same.field {β : Type*} (h : Same oc oc₁) (f : Operator → β) (hf : ∀ op, f op.fixed = f op) (o : Nat) :
    f (oc₁.op o) = f (oc.op o) := by rw [← hf, h o, hf]

lemma Same.regionOf (h : Same oc oc₁) (o : Nat) : oc₁.regionOf o = oc.regionOf o :=
  h.field Operator.regionID (fun _ => rfl) o

lemma Same.levelOf (h : Same oc oc₁) (o : Nat) : oc₁.levelOf o = oc.levelOf o :=
  h.field Operator.level (fun _ => rfl) o

lemma Same.kind (h : Same oc oc₁) (o : Nat) : (oc₁.op o).kind = (oc.op o).kind :=
  h.field Operator.kind (fun _ => rfl) o

lemma Same.isMerge (h : Same oc oc₁) (o : Nat) : oc₁.isMerge o = oc.isMerge o :=
  congrArg (fun k => OperatorKind.has k .opMerge) (h.kind o)

lemma same_replaceOld (oc : OperatorController) (o : Nat) : Same oc (oc.replaceOld o) := by
  unfold replaceOld
  split
  · exact Same.of_objects rfl
  · exact Same.refl oc

lemma same_start (oc : OperatorController) (now o : Nat) : Same oc (oc.start now o) :=
  Same.of_modify (f := fun op => { op with startTime := some now }) rfl fun _ => rfl

lemma same_notify (oc : OperatorController) (w : World) (o : Nat) : Same oc (oc.notify w o) := by
  unfold notify
  split
  · exact Same.of_objects rfl
  next region _ => exact Same.of_modify (f := fun op => (op.check region).2) rfl fun _ => rfl

def Keyed (oc : OperatorController) : Prop := ∀ r o, oc.operators.lookup r = some o → oc.regionOf o = r
def Counted (oc : OperatorController) : Prop := oc.counts = .tally (oc.operators.values.map fun o => (oc.op o).kind)

lemma Counted.of_same (h : Counted oc) (hs : Same oc oc₁) (hops : oc₁.operators = oc.operators)
  (hcounts : oc₁.counts = oc.counts) : Counted oc₁ := by
  unfold Counted
  rw [hcounts, h, hops]
  exact congrArg SortedMap.tally (map_congr_left fun o _ => (hs.kind o).symm)

lemma Keyed.of_same (h : Keyed oc) (hs : Same oc oc₁) (hops : oc₁.operators = oc.operators) : Keyed oc₁ := by
  intro r o hr
  rw [hops] at hr
  exact (hs.regionOf o).trans (h r o hr)

structure Became (oc oc₁ : OperatorController) (operators : SortedMap Nat Nat) : Prop where
  same : Same oc oc₁
  operators_eq : oc₁.operators = operators
  counted : Counted oc₁
  wop : oc₁.wop = oc.wop

lemma removeOperatorLocked_spec (oc : OperatorController) (o : Nat) :
  Became oc (oc.removeOperatorLocked o) (oc.operators.erase (oc.regionOf o)) :=
  ⟨Same.of_objects rfl, rfl, rfl, rfl⟩

lemma lookup_of_removeOperatorLocked {x : Nat}
  (h : (oc.removeOperatorLocked o).operators.lookup r = some x) : oc.operators.lookup r = some x := by
  rw [(removeOperatorLocked_spec oc o).operators_eq] at h
  exact (lookup_erase_some.mp h).2

lemma Keyed.removeOperatorLocked (hk : Keyed oc) (o : Nat) : Keyed (oc.removeOperatorLocked o) :=
  fun r x hr => ((removeOperatorLocked_spec oc o).same.regionOf x).trans
    (hk r x (lookup_of_removeOperatorLocked hr))

lemma replaceOld_spec (hk : Keyed oc) : Same oc (oc.replaceOld o) ∧ (oc.replaceOld o).wop = oc.wop ∧
  (oc.replaceOld o).operators = oc.operators.erase (oc.regionOf o) := by
  refine ⟨same_replaceOld oc o, ?_⟩
  unfold replaceOld
  cases hold : oc.operators.lookup (oc.regionOf o) with
  | none => exact ⟨rfl, (erase_of_lookup_none hold).symm⟩
  | some old =>
    refine ⟨rfl, ?_⟩
    show oc.operators.erase (oc.regionOf old) = _
    rw [hk _ old hold]

lemma start_spec (oc : OperatorController) (now o : Nat) :
  Became oc (oc.start now o) (oc.operators.insert (oc.regionOf o) o) :=
  ⟨same_start oc now o, rfl, rfl, rfl⟩

lemma notify_spec (hc : Counted oc) : Became oc (oc.notify w o) oc.operators := by
  have hs := same_notify oc w o
  have hparts : (oc.notify w o).operators = oc.operators ∧ (oc.notify w o).counts = oc.counts ∧
      (oc.notify w o).wop = oc.wop := by
    unfold notify
    cases w.getRegion (oc.regionOf o) <;> exact ⟨rfl, rfl, rfl⟩
  obtain ⟨hops, hcounts, hwop⟩ := hparts
  exact ⟨hs, hops, hc.of_same hs hops hcounts, hwop⟩

lemma addOperatorLocked_spec (hk : Keyed oc) :
  Became oc (addOperatorLocked w oc o) (oc.operators.insert (oc.regionOf o) o) := by
  obtain ⟨hs₁, hwop₁, hops₁⟩ := replaceOld_spec (o := o) hk
  have h₂ := start_spec (oc.replaceOld o) w.now o
  have h₃ : Became _ (addOperatorLocked w oc o) _ := notify_spec (w := w) (o := o) h₂.counted
  refine ⟨hs₁.trans (h₂.same.trans h₃.same), ?_, h₃.counted, h₃.wop.trans (h₂.wop.trans hwop₁)⟩
  rw [h₃.operators_eq, h₂.operators_eq, hops₁, hs₁.regionOf, insert_erase]

def withGroup (oc : OperatorController) (ops : List Nat) : SortedMap Nat Nat :=
  oc.operators.insertAll (ops.map fun o => (oc.regionOf o, o))

lemma lookup_withGroup_of_ne (h : ∀ o ∈ ops, oc.regionOf o ≠ r) :
  (oc.withGroup ops).lookup r = oc.operators.lookup r := by
  refine lookup_insertAll_of_not_mem _ fun hmem => ?_
  rw [map_map] at hmem
  obtain ⟨o, ho, he⟩ := mem_map.mp hmem
  exact h o ho he

lemma Keyed.insert (hk : Keyed oc) (hs : Same oc oc₁)
  (hops : oc₁.operators = oc.operators.insert (oc.regionOf o) o) : Keyed oc₁ := by
  intro r x hr
  rw [hops] at hr
  rcases lookup_insert_some.mp hr with ⟨rfl, rfl⟩ | ⟨_, hr⟩
  · exact hs.regionOf _
  · exact (hs.regionOf x).trans (hk r x hr)

lemma addAll_spec (hk : Keyed oc) (hc : Counted oc) (w : World) (ops : List Nat) :
  Became oc (ops.foldl (addOperatorLocked w) oc) (oc.withGroup ops) ∧ Keyed (ops.foldl (addOperatorLocked w) oc) := by
  induction ops generalizing oc with
  | nil => exact ⟨⟨Same.refl oc, rfl, hc, rfl⟩, hk⟩
  | cons o ops ih =>
    have h := addOperatorLocked_spec (w := w) (o := o) hk
    obtain ⟨hrest, hk'⟩ := ih (hk.insert h.same h.operators_eq) h.counted
    refine ⟨⟨h.same.trans hrest.same, ?_, hrest.counted, hrest.wop.trans h.wop⟩, hk'⟩
    have hmap : (ops.map fun x => ((addOperatorLocked w oc o).regionOf x, x)) = ops.map fun x => (oc.regionOf x, x) :=
      map_congr_left fun x _ => by rw [h.same.regionOf x]
    refine hrest.operators_eq.trans ?_
    rw [withGroup, hmap, h.operators_eq]
    rfl

lemma recordAll_eq (oc : OperatorController) (status : OperatorStatus) (ops : List Nat) :
  ∃ records, oc.recordAll status ops = { oc with opRecords := records } := by
  induction ops generalizing oc with
  | nil => exact ⟨oc.opRecords, rfl⟩
  | cons o _ ih =>
    obtain ⟨records, h⟩ := ih (oc.record status o)
    exact ⟨records, h⟩

structure Aside (oc oc₁ : OperatorController) : Prop where
  objects : oc₁.objects = oc.objects
  operators : oc₁.operators = oc.operators
  counts : oc₁.counts = oc.counts

lemma Aside.refl (oc : OperatorController) : Aside oc oc := ⟨rfl, rfl, rfl⟩

lemma Aside.trans (h : Aside oc oc₁) (h' : Aside oc₁ oc₂) : Aside oc oc₂ :=
  ⟨h'.objects.trans h.objects, h'.operators.trans h.operators, h'.counts.trans h.counts⟩

lemma Aside.same (h : Aside oc oc₁) : Same oc oc₁ := Same.of_objects h.objects
lemma Keyed.aside (hk : Keyed oc) (h : Aside oc oc₁) : Keyed oc₁ := hk.of_same h.same h.operators
lemma Counted.aside (hc : Counted oc) (h : Aside oc oc₁) : Counted oc₁ := hc.of_same h.same h.operators h.counts

lemma Aside.op (h : Aside oc oc₁) (o : Nat) : oc₁.op o = oc.op o := by
  rw [OperatorController.op, h.objects]
  rfl

lemma Aside.check (h : Aside oc oc₁) (ops : List Nat) : oc₁.checkAddOperator w ops = oc.checkAddOperator w ops := by
  unfold checkAddOperator
  congr 1
  funext o
  unfold canAdd OperatorController.regionOf
  simp only [h.op, h.operators]

lemma aside_record (oc : OperatorController) (status : OperatorStatus) (ops : List Nat) :
  Aside oc (oc.recordAll status ops) ∧ (oc.recordAll status ops).wop = oc.wop := by
  obtain ⟨records, h⟩ := recordAll_eq oc status ops
  rw [h]
  exact ⟨⟨rfl, rfl, rfl⟩, rfl⟩

structure Took (oc : OperatorController) (g : List Nat) (oc₁ : OperatorController) : Prop where
  aside : Aside oc oc₁
  mem : ∀ o ∈ g, ∃ level, o ∈ oc.wop level
  wop : ∀ level, oc₁.wop level ⊆ oc.wop level

lemma took_nil (oc : OperatorController) : Took oc [] oc :=
  ⟨Aside.refl oc, fun _ ho => absurd ho not_mem_nil, fun _ => Subset.refl _⟩

lemma Took.trans {g' : List Nat} (h : Took oc g oc₁) (h' : Took oc₁ g' oc₂) : Took oc g' oc₂ := by
  refine ⟨h.aside.trans h'.aside, fun o ho => ?_, fun level => Subset.trans (h'.wop level) (h.wop level)⟩
  obtain ⟨level, hmem⟩ := h'.mem o ho
  exact ⟨level, h.wop level hmem⟩

lemma took_setBucket {level : PriorityLevel} {rest : List Nat} (hwop : oc.wop level = g ++ rest) :
  Took oc g (oc.setBucket level rest) := by
  refine ⟨⟨rfl, rfl, rfl⟩, fun o ho => ⟨level, hwop ▸ mem_append_left _ ho⟩, fun level' => ?_⟩
  show update oc.wop level rest level' ⊆ oc.wop level'
  by_cases e : level' = level
  · rw [e, update_self, hwop]
    exact subset_append_right g rest
  rw [update_of_ne e]
  exact Subset.refl _

lemma took_getOperator {pick : Option PriorityLevel} (h : oc.getOperator pick = some (g, oc₁)) : Took oc g oc₁ := by
  cases pick with
  | none =>
    cases h
    exact took_nil oc
  | some level =>
    unfold getOperator at h
    cases hwop : oc.wop level with
    | nil =>
      simp only [hwop] at h
      cases h
      exact took_nil oc
    | cons o rest =>
      simp only [hwop] at h
      split at h
      · cases rest with
        | nil => cases h
        | cons o' =>
          cases h
          exact took_setBucket (g := [o, o']) hwop
      cases h
      exact took_setBucket (g := [o]) hwop

lemma took_drawGroup {draws : List Draw} (h : drawGroup w draws oc = some (g, oc₁)) : Took oc g oc₁ := by
  induction draws generalizing oc with
  | nil =>
    cases h
    exact took_nil _
  | cons d _ ih =>
    unfold drawGroup at h
    split at h
    · cases h
    next hget =>
      cases h
      exact took_getOperator hget
    next o rest oc' hget =>
      have htook := took_getOperator hget
      split at h
      · -- cancelled
        obtain ⟨hrecord, hwop⟩ := aside_record oc' .cancel (o :: rest)
        have haside : Took oc (o :: rest) ((oc'.recordAll .cancel (o :: rest)).taken o) :=
          ⟨htook.aside.trans (hrecord.trans ⟨rfl, rfl, rfl⟩), htook.mem,
            fun level => (congrFun hwop level).symm ▸ htook.wop level⟩
        exact haside.trans (ih h)
      cases h
      exact ⟨htook.aside.trans ⟨rfl, rfl, rfl⟩, htook.mem, htook.wop⟩

lemma aside_putOperator (oc : OperatorController) (o : Nat) : Aside oc (oc.putOperator o) := ⟨rfl, rfl, rfl⟩

lemma aside_putAll (ops : List Nat) (oc : OperatorController) : Aside oc (ops.foldl putOperator oc) := by
  induction ops generalizing oc with
  | nil => exact Aside.refl oc
  | cons o _ ih => exact (aside_putOperator oc o).trans (ih (oc.putOperator o))

lemma aside_addWaiting {added : Bool} (h : oc.addWaitingLocked w ops = some (added, oc₁)) : Aside oc oc₁ := by
  unfold addWaitingLocked at h
  split at h
  · cases h
    exact (aside_record oc .cancel ops).1
  split at h
  · cases h
  next o rest _ =>
    split at h
    · cases h
      exact Aside.refl oc
    cases h
    exact ((aside_putOperator oc o).trans (aside_putAll (rest.take 1) _)).trans ⟨rfl, rfl, rfl⟩

end
end OperatorController
end PD
