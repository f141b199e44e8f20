import PD.Lib.Runs
import PD.Schedule.Operator

/-! # Concurrent checks of one operator -/

namespace PD.OperatorProgress
open SortedMap

structure Checking where
  region : RegionInfo
  step : Nat
  deriving DecidableEq

structure State where
  op : Operator
  calls : SortedMap Nat Checking

inductive Event where
  | load (n : Nat) (region : RegionInfo)
  | store (n : Nat)
  | leave (n : Nat)
  deriving DecidableEq

def Checking.finished (op : Operator) (c : Checking) : Bool := (op.steps[c.step]?).any fun s => s.isFinish c.region

def step (s : State) : Event → Option State
  | .load n region =>
    if s.calls.lookup n = none then some { s with calls := s.calls.insert n ⟨region, s.op.currentStep⟩ }
    else none
  | .store n =>
    (s.calls.lookup n).bind fun c =>
      if c.finished s.op then
        some ⟨{ s.op with currentStep := c.step + 1 }, s.calls.insert n { c with step := c.step + 1 }⟩
      else none
  | .leave n =>
    (s.calls.lookup n).bind fun c =>
      if c.finished s.op then none else some { s with calls := s.calls.erase n }

def init (op : Operator) : State := ⟨op, .empty⟩

def Exclusive (s : State) : Event → Prop
  | .store n => ∀ m ∈ s.calls.keys, m = n
  | _ => True

instance exclusiveDecidable (s : State) : ∀ e : Event, Decidable (Exclusive s e)
  | .load .. => .isTrue trivial
  | .store n => inferInstanceAs (Decidable (∀ m ∈ s.calls.keys, m = n))
  | .leave _ => .isTrue trivial

def Monotone (s : State) (_ : Event) (t : State) : Prop := s.op.currentStep ≤ t.op.currentStep

section
variable {op : Operator} {region : RegionInfo} {n : Nat}

lemma finished_eq (op : Operator) (region : RegionInfo) :
  Checking.finished op ⟨region, op.currentStep⟩ = op.rest.head?.any fun s => s.isFinish region := by
  unfold Checking.finished Operator.rest
  rw [List.head?_drop]

lemma loop_alone (op : Operator) {rest : List OperatorStep} {calls : SortedMap Nat Checking} (hrest : op.rest = rest)
  (hcall : calls.lookup n = some ⟨region, op.currentStep⟩) :
  ∃ k, Runs.exec step ⟨op, calls⟩ (List.replicate k (.store n) ++ [.leave n]) =
    some ⟨(op.check region).2, calls.erase n⟩ := by
  have hfinished := finished_eq op region
  induction rest generalizing op calls with
  | nil =>
    rw [hrest] at hfinished
    refine ⟨0, ?_⟩
    have hcheck : op.check region = (none, op) := by
      unfold Operator.check
      rw [hrest]
      rfl
    simp [Runs.exec, step, hcall, hfinished, hcheck]
  | cons s _ ih =>
    rw [hrest] at hfinished
    by_cases hs : s.isFinish region = true
    · -- the call stores, and goes on with the next step
      obtain ⟨k, hk⟩ := ih op.advance (rest_advance hrest)
        (lookup_insert_self calls n ⟨region, op.currentStep + 1⟩) (finished_eq op.advance region)
      refine ⟨k + 1, ?_⟩
      rw [erase_insert, ← check_finished hrest hs] at hk
      rw [List.replicate_succ, List.cons_append, Runs.exec_cons]
      simp only [step, hcall, Option.bind_some, hfinished, List.head?_cons, Option.any_some, hs, if_true]
      exact hk
    refine ⟨0, ?_⟩
    have hcheck : op.check region = (some s, op) := by
      unfold Operator.check
      rw [hrest, Operator.checkFrom, if_neg hs]
    simp [Runs.exec, step, hcall, hfinished, hcheck, hs]

lemma check_alone (s : State) (region : RegionInfo) (hn : s.calls.lookup n = none) :
  ∃ k, Runs.exec step s (.load n region :: (List.replicate k (.store n) ++ [.leave n])) =
    some ⟨(s.op.check region).2, s.calls⟩ := by
  obtain ⟨k, hk⟩ := loop_alone s.op rfl
    (lookup_insert_self s.calls n ⟨region, s.op.currentStep⟩)
  refine ⟨k, ?_⟩
  rw [erase_insert, erase_of_lookup_none hn] at hk
  rw [Runs.exec_cons, step, if_pos hn]
  exact hk

end

section
variable {s t : State} {e : Event}

def Fresh (s : State) : Prop := ∀ n c, s.calls.lookup n = some c → c.step = s.op.currentStep

lemma step_fresh (hf : Fresh s) (he : Exclusive s e) (hs : step s e = some t) : Fresh t ∧ Monotone s e t := by
  cases e with
  | load =>
    simp only [step] at hs
    split at hs
    · cases hs
      refine ⟨?_, Nat.le_refl _⟩
      exact forall_insert (P := fun _ (c : Checking) => c.step = s.op.currentStep) rfl hf
    · cases hs
  | store n =>
    obtain ⟨c, hc, hs⟩ := Option.bind_eq_some_iff.mp hs
    split at hs
    · cases hs
      have hstep := hf n c hc
      refine ⟨fun m d hd => ?_, ?_⟩
      · rcases lookup_insert_some.mp hd with ⟨rfl, rfl⟩ | ⟨hne, hd⟩
        · rfl
        exact absurd (he m (SortedMap.mem_keys.mpr ⟨d, hd⟩)) hne
      rw [hstep]
      exact Nat.le_succ _
    · cases hs
  | leave =>
    obtain ⟨c, hc, hs⟩ := Option.bind_eq_some_iff.mp hs
    split at hs
    · cases hs
    cases hs
    exact ⟨fun m d hd => hf m d (lookup_erase_some.mp hd).2, Nat.le_refl _⟩

end

/-- **Progress**: one `Check` at a time never steps back. -/
theorem progress_monotone (op : Operator) (events : List Event)
  (hexclusive : Runs.Along step Exclusive (init op) events) : Runs.Steps step Monotone (init op) events := by
  have hinit : Fresh (init op) := fun n c hc => by cases hc
  refine Runs.steps_of_inv Fresh (fun s e t hf he hs => ?_) hinit hexclusive
  exact step_fresh hf he hs

def twoSteps : Operator := newOperator "balance-region" 1 (some ⟨1, 1⟩) .opRegion [.transferLeader 1 2, .removePeer 1]
def moved : RegionInfo := newRegionInfo ⟨1, [], [], some ⟨1, 1⟩, [⟨2, 2, false⟩]⟩ (some ⟨2, 2, false⟩)
def oneByOne : List Event := [.load 1 moved, .store 1, .store 1, .leave 1, .load 2 moved, .leave 2]

theorem progress_monotone_two : (Runs.exec step (init twoSteps) oneByOne).map (fun s => s.op.currentStep) = some 2 ∧
    Runs.Steps step Monotone (init twoSteps) oneByOne :=
  ⟨by decide +kernel, progress_monotone twoSteps oneByOne (by decide +kernel)⟩

/-- Call 1 stores the index it read before call 2 went on. -/
theorem stale_check_steps_back :
  (Runs.exec step (init twoSteps) [.load 1 moved, .load 2 moved, .store 2, .store 2, .leave 2]).map
      (fun s => s.op.currentStep) = some 2 ∧
    (Runs.exec step (init twoSteps) [.load 1 moved, .load 2 moved, .store 2, .store 2, .leave 2, .store 1]).map
      (fun s => s.op.currentStep) = some 1 := by
  decide +kernel

end PD.OperatorProgress
