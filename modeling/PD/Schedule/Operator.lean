import PD.Core.RegionOption

/-! # Operators -/

namespace PD
open Option

abbrev OperatorKind := Nat

namespace OperatorKind

def opLeader : OperatorKind := 1
def opRegion : OperatorKind := 2
def opAdmin : OperatorKind := 4
def opHotRegion : OperatorKind := 8
def opAdjacent : OperatorKind := 16
def opReplica : OperatorKind := 32
def opBalance : OperatorKind := 64
def opMerge : OperatorKind := 128
def opRange : OperatorKind := 256
def has (k mask : OperatorKind) : Bool := k &&& mask != 0

end OperatorKind

inductive PriorityLevel where
  | lowPriority
  | normalPriority
  | highPriority
  deriving DecidableEq

def PriorityLevel.val : PriorityLevel → Nat
  | .lowPriority => 0
  | .normalPriority => 1
  | .highPriority => 2

inductive OperatorStep where
  | transferLeader (fromStore toStore : Nat)
  | addPeer (toStore peerID : Nat)
  | addLearner (toStore peerID : Nat)
  | promoteLearner (toStore peerID : Nat)
  | removePeer (fromStore : Nat)
  | mergeRegion (fromRegion toRegion : Region) (isPassive : Bool)
  | splitRegion (startKey endKey : Key) (policy : Nat)
  | addLightPeer (toStore peerID : Nat)
  | addLightLearner (toStore peerID : Nat)
  deriving DecidableEq

namespace OperatorStep
variable (region : RegionInfo)

def voterAdded (toStore peerID : Nat) : Bool :=
  match region.getStoreVoter toStore with
  | some p => if p.id ≠ peerID then false else (region.getPendingVoter p.id).isNone
  | none => false

def learnerAdded (toStore peerID : Nat) : Bool :=
  match region.getStoreLearner toStore with
  | some p => if p.id ≠ peerID then false else (region.getPendingLearner p.id).isNone
  | none => false

def isFinish : OperatorStep → Bool
  | transferLeader _ toStore => region.leaderStore == toStore
  | addPeer toStore peerID => voterAdded region toStore peerID
  | addLearner toStore peerID => learnerAdded region toStore peerID
  | promoteLearner toStore peerID =>
    match region.getStoreVoter toStore with
    | some p => p.id == peerID
    | none => false
  | removePeer fromStore => (region.getStorePeer fromStore).isNone
  | mergeRegion _ toRegion isPassive =>
    if isPassive then
      region.getMeta.startKey != toRegion.startKey || region.getMeta.endKey != toRegion.endKey
    else false
  | splitRegion startKey endKey _ => region.getMeta.startKey != startKey || region.getMeta.endKey != endKey
  | addLightPeer toStore peerID => voterAdded region toStore peerID
  | addLightLearner toStore peerID => learnerAdded region toStore peerID

def applyAdd (peer : Peer) : Option RegionInfo :=
  if region.getStorePeer peer.storeId ≠ none then none else some (region.withAddPeer peer)

def apply : OperatorStep → Option RegionInfo
  | transferLeader _ toStore => some (region.withLeader (region.getStorePeer toStore))
  | addPeer toStore peerID => applyAdd region ⟨peerID, toStore, false⟩
  | addLightPeer toStore peerID => applyAdd region ⟨peerID, toStore, false⟩
  | removePeer fromStore =>
    if region.getStorePeer fromStore = none then none
    else if region.leaderStore = fromStore then none
    else some (region.withRemoveStorePeer fromStore)
  | addLearner toStore peerID => applyAdd region ⟨peerID, toStore, true⟩
  | addLightLearner toStore peerID => applyAdd region ⟨peerID, toStore, true⟩
  | promoteLearner toStore peerID =>
    if region.getStoreLearner toStore = none then none
    else some ((region.withRemoveStorePeer toStore).withAddPeer ⟨peerID, toStore, false⟩)
  | mergeRegion .. => none
  | splitRegion .. => none

end OperatorStep

structure Operator where
  desc : String
  regionID : Nat
  regionEpoch : Option RegionEpoch
  kind : OperatorKind
  steps : List OperatorStep
  currentStep : Nat
  startTime : Option Nat
  level : PriorityLevel
  deriving DecidableEq

def newOperator (desc : String) (regionID : Nat) (regionEpoch : Option RegionEpoch) (kind : OperatorKind)
  (steps : List OperatorStep) : Operator :=
  ⟨desc, regionID, regionEpoch, kind, steps, 0, none, .normalPriority⟩

def leaderOperatorWaitTime : Nat := 10000000000
def regionOperatorWaitTime : Nat := 600000000000

namespace Operator
variable (o : Operator)

def getVersion : Nat := (o.regionEpoch.map RegionEpoch.version).getD 0
def getConfVer : Nat := (o.regionEpoch.map RegionEpoch.confVer).getD 0
def isFinish : Bool := decide (o.steps.length ≤ o.currentStep)

def isTimeout (now : Nat) : Bool :=
  if o.isFinish then false
  else
    match o.startTime with
    | none => false
    | some t =>
      if o.kind.has .opRegion then decide (regionOperatorWaitTime < now - t)
      else decide (leaderOperatorWaitTime < now - t)

def checkFrom (region : RegionInfo) : Nat → List OperatorStep → Option OperatorStep × Nat
  | step, [] => (none, step)
  | step, s :: rest => if s.isFinish region then checkFrom region (step+1) rest else (some s, step)

def rest : List OperatorStep := o.steps.drop o.currentStep

def check (region : RegionInfo) : Option OperatorStep × Operator :=
  let r := checkFrom region o.currentStep o.rest
  (r.1, { o with currentStep := r.2 })

end Operator

variable (region : RegionInfo)

def applyOperatorStep (op : Operator) : Option (RegionInfo × Operator) :=
  match op.check region with
  | (none, op) => some (region, op)
  | (some s, op) => (s.apply region).map fun region => (region, op)

def applyOperator : Nat → RegionInfo → Operator → Option (RegionInfo × Operator)
  | 0, region, op => some (region, op)
  | n + 1, region, op =>
    if op.isFinish then some (region, op)
    else (applyOperatorStep region op).bind fun r => applyOperator n r.1 r.2

def Executes (op : Operator) (region' : RegionInfo) : Prop := (∀ n, applyOperator n region op ≠ none) ∧
    ∃ n op', applyOperator n region op = some (region', op') ∧ op'.isFinish = true

def runSteps : RegionInfo → List OperatorStep → Option RegionInfo
  | region, [] => some region
  | region, s :: rest =>
    if s.isFinish region then runSteps region rest
    else (s.apply region).bind fun region' => if s.isFinish region' then runSteps region' rest else none

lemma runSteps_append (as bs : List OperatorStep) :
  runSteps region (as ++ bs) = (runSteps region as).bind fun region' => runSteps region' bs := by
  induction as generalizing region with
  | nil => rfl
  | cons s _ ih =>
    simp only [List.cons_append, runSteps]
    split
    · exact ih region
    cases s.apply region with
    | none => rfl
    | some region' =>
      simp only [bind_some]
      split
      · exact ih region'
      · rfl

section
variable {region region' : RegionInfo} {op : Operator} {s : OperatorStep} {rest : List OperatorStep}
variable {n : Nat} {region₁ region₂ : RegionInfo}

def Operator.advance (op : Operator) : Operator := { op with currentStep := op.currentStep + 1 }

lemma isFinish_iff_rest : op.isFinish = true ↔ op.rest = [] := by
  rw [Operator.isFinish, decide_eq_true_eq, Operator.rest, List.drop_eq_nil_iff]

lemma rest_advance (h : op.rest = s :: rest) : op.advance.rest = rest := by
  have e : op.advance.rest = op.rest.drop 1 := by
    show op.steps.drop (op.currentStep + 1) = (op.steps.drop op.currentStep).drop 1
    rw [List.drop_drop]
  rw [e, h]
  rfl

lemma check_finished (h : op.rest = s :: rest) (hs : s.isFinish region = true) :
  op.check region = op.advance.check region := by
  have hrest := rest_advance h
  unfold Operator.check
  rw [h, hrest, Operator.checkFrom, if_pos hs]
  rfl

lemma applyOperatorStep_unfinished (h : op.rest = s :: rest) (hs : s.isFinish region = false) :
  applyOperatorStep region op = (s.apply region).map fun region => (region, op) := by
  unfold applyOperatorStep Operator.check
  rw [h, Operator.checkFrom, hs]
  rfl

lemma applyOperatorStep_finished (h : op.rest = s :: rest) (hs : s.isFinish region = true) :
  applyOperatorStep region op = applyOperatorStep region op.advance := by
  unfold applyOperatorStep
  rw [check_finished h hs]

lemma applyOperatorStep_done (h : op.isFinish = true) : applyOperatorStep region op = some (region, op) := by
  unfold applyOperatorStep Operator.check
  rw [isFinish_iff_rest.mp h]
  rfl

lemma applyOperator_succ (n : Nat) (h : op.isFinish = false) :
  applyOperator (n+1) region op = (applyOperatorStep region op).bind fun r => applyOperator n r.1 r.2 := by
  rw [applyOperator, h]
  rfl

lemma applyOperator_done (n : Nat) (h : op.isFinish = true) : applyOperator n region op = some (region, op) := by
  cases n with
  | zero => rfl
  | succ => rw [applyOperator, if_pos h]

lemma not_finish (h : op.rest = s :: rest) : op.isFinish = false := by
  cases hf : op.isFinish with
  | false => rfl
  | true => rw [isFinish_iff_rest.mp hf] at h; cases h

lemma applyOperator_ne_none {op' : Operator} (h : applyOperator n region op = some (region', op'))
  (hf : op'.isFinish = true) (m : Nat) : applyOperator m region op ≠ none := by
  induction n generalizing region op m with
  | zero =>
    cases h
    rw [applyOperator_done m hf]
    exact some_ne_none _
  | succ n ih =>
    cases m with
    | zero => exact some_ne_none _
    | succ m =>
      cases hop : op.isFinish with
      | true => rw [applyOperator_done _ hop]; exact some_ne_none _
      | false =>
        rw [applyOperator_succ n hop] at h
        rw [applyOperator_succ m hop]
        obtain ⟨⟨r, o⟩, hstep, h⟩ := bind_eq_some_iff.mp h
        rw [hstep]
        exact ih h m

lemma applyOperator_end {m : Nat} {op₁ op₂ : Operator}
  (h₁ : applyOperator n region op = some (region₁, op₁)) (hf₁ : op₁.isFinish = true)
  (h₂ : applyOperator m region op = some (region₂, op₂)) (hf₂ : op₂.isFinish = true) : region₁ = region₂ := by
  induction n generalizing region op m with
  | zero =>
    cases h₁
    rw [applyOperator_done m hf₁] at h₂
    exact (Prod.mk.inj (some.inj h₂)).1
  | succ n ih =>
    cases hop : op.isFinish with
    | true =>
      rw [applyOperator_done _ hop] at h₁ h₂
      exact (Prod.mk.inj (some.inj (h₁.symm.trans h₂))).1
    | false =>
      cases m with
      | zero =>
        obtain ⟨-, rfl⟩ := Prod.mk.inj (some.inj h₂)
        rw [hop] at hf₂
        cases hf₂
      | succ =>
        rw [applyOperator_succ _ hop] at h₁ h₂
        obtain ⟨r, hstep, h₁⟩ := bind_eq_some_iff.mp h₁
        rw [hstep] at h₂
        exact ih h₁ h₂

lemma ends_of_advance (h : op.rest = s :: rest) (hs : s.isFinish region = true)
  (hend : ∃ n op', applyOperator n region op.advance = some (region', op') ∧ op'.isFinish = true) :
  ∃ n op', applyOperator n region op = some (region', op') ∧ op'.isFinish = true := by
  obtain ⟨n, op', hn, hf⟩ := hend
  cases hadv : op.advance.isFinish with
  | true =>
    rw [applyOperator_done n hadv] at hn
    cases hn
    refine ⟨1, op.advance, ?_, hadv⟩
    rw [applyOperator_succ 0 (not_finish h), applyOperatorStep_finished h hs, applyOperatorStep_done hadv]
    rfl
  | false =>
    cases n with
    | zero =>
      obtain ⟨_, rfl⟩ := Prod.mk.inj (some.inj hn)
      rw [hadv] at hf
      cases hf
    | succ n =>
      refine ⟨n + 1, op', ?_, hf⟩
      rw [applyOperator_succ n (not_finish h), applyOperatorStep_finished h hs, ← applyOperator_succ n hadv]
      exact hn

lemma ends_of_runSteps (h : runSteps region op.rest = some region') :
  ∃ n op', applyOperator n region op = some (region', op') ∧ op'.isFinish = true := by
  generalize hrest : op.rest = steps at h
  induction steps generalizing region op with
  | nil =>
    cases h
    exact ⟨0, op, rfl, isFinish_iff_rest.mpr hrest⟩
  | cons s _ ih =>
    rw [runSteps] at h
    split at h
    next hs => exact ends_of_advance hrest hs (ih (rest_advance hrest) h)
    next hs =>
      obtain ⟨region₁, happly, h⟩ := bind_eq_some_iff.mp h
      split at h
      next hs' =>
        obtain ⟨n, op', hn, hf⟩ := ends_of_advance hrest hs' (ih (rest_advance hrest) h)
        refine ⟨n + 1, op', ?_, hf⟩
        rw [applyOperator_succ n (not_finish hrest), applyOperatorStep_unfinished hrest (by simpa using hs), happly]
        exact hn
      · cases h

lemma executes_of_runSteps (h : runSteps region op.rest = some region') : Executes region op region' := by
  obtain ⟨n, op', hn, hf⟩ := ends_of_runSteps h
  exact ⟨applyOperator_ne_none hn hf, n, op', hn, hf⟩

lemma executes_unique (h₁ : Executes region op region₁) (h₂ : Executes region op region₂) : region₁ = region₂ := by
  obtain ⟨-, n, op₁, hn, hf₁⟩ := h₁
  obtain ⟨-, m, op₂, hm, hf₂⟩ := h₂
  exact applyOperator_end hn hf₁ hm hf₂

lemma not_executes_of_apply (h : op.rest = s :: rest) (hs : s.isFinish region = false)
  (happly : s.apply region = none) : ¬ Executes region op region' := by
  intro hex
  refine hex.1 1 ?_
  rw [applyOperator_succ 0 (not_finish h), applyOperatorStep_unfinished h hs, happly]
  rfl

end
end PD
