import PD.Lib.RwLock

/-! # The lock of the cluster -/

namespace PD.ClusterLock
open List
open RwLock (Instr Safe Flat rereads System)

def reading : List Instr := [.rlock, .internal, .runlock]
def writing : List Instr := [.lock, .internal, .unlock]

inductive Request (ε : Type) where
  | rejected
  | notRunning
  | refused
  | handled (e : ε)
  deriving DecidableEq

inductive SplitEnd where
  | invalidRegion
  | allocFailed (allocs : Nat)
  | recorded (allocs : Nat)
  deriving DecidableEq

inductive BatchSplitEnd where
  | invalidRegion
  | recorded (steps : Nat)
  deriving DecidableEq

def isRunning : List Instr := reading
def getRegionByKey : List Instr := reading
def validRequestRegion : List Instr := getRegionByKey ++ [.internal]

def handleAskSplit : SplitEnd → List Instr
  | .invalidRegion => validRequestRegion
  | .allocFailed n => validRequestRegion ++ replicate n .internal
  | .recorded n => validRequestRegion ++ (replicate n .internal ++ reading)

def handleAskBatchSplit : BatchSplitEnd → List Instr
  | .invalidRegion => validRequestRegion
  | .recorded n => validRequestRegion ++ .rlock :: (replicate n .internal ++ [.runlock])

def askSplit : Request SplitEnd → List Instr
  | .rejected => [.internal]
  | .notRunning => .internal :: isRunning
  | .refused => .internal :: (isRunning ++ [.internal])
  | .handled e => .internal :: (isRunning ++ handleAskSplit e)

def askBatchSplit : Request BatchSplitEnd → List Instr
  | .rejected => [.internal]
  | .notRunning => .internal :: isRunning
  | .refused => .internal :: (isRunning ++ reading)
  | .handled e => .internal :: (isRunning ++ .rlock :: .internal :: (handleAskBatchSplit e ++ [.runlock]))

def handleRegionHeartbeat : List Instr := reading
def putStore : List Instr := reading
def removeStore : List Instr := reading
def getClusterStatus : List Instr := writing
def stop (running : Bool) : List Instr := if running then writing ++ [.internal] else writing

inductive Call where
  | askBatchSplit (request : Request BatchSplitEnd)
  | askSplit (request : Request SplitEnd)
  | handleRegionHeartbeat
  | putStore
  | removeStore
  | getClusterStatus
  | stop (running : Bool)
  deriving DecidableEq

def Call.program : Call → List Instr
  | .askBatchSplit request => ClusterLock.askBatchSplit request
  | .askSplit request => ClusterLock.askSplit request
  | .handleRegionHeartbeat => ClusterLock.handleRegionHeartbeat
  | .putStore => ClusterLock.putStore
  | .removeStore => ClusterLock.removeStore
  | .getClusterStatus => ClusterLock.getClusterStatus
  | .stop running => ClusterLock.stop running

def Call.isAskBatchSplit : Call → Bool
  | .askBatchSplit _ => true
  | _ => false

def start (calls : SortedMap Nat Call) : System := System.start (calls.mapVal Call.program)

def noLockInBatchSplit (calls : SortedMap Nat Call) (s : System) : RwLock.Label → Bool
  | .step _ => true
  | .wait n =>
    ((s.threads.lookup n).bind fun p => p.rest.head?) != some .lock ||
      calls.keys.all fun m =>
        !(calls.lookup m).any Call.isAskBatchSplit ||
          !(s.threads.lookup m).any fun q => rereads q.held q.rest

lemma safe_replicate (held : Nat) (writing : Bool) (n : Nat) (rest : List Instr) :
  Safe held writing (replicate n .internal ++ rest) ↔ Safe held writing rest := by
  induction n with
  | zero => rfl
  | succ n ih => exact ih

lemma flat_replicate (held n : Nat) (rest : List Instr) :
  Flat held (replicate n .internal ++ rest) ↔ Flat held rest := by
  induction n with
  | zero => rfl
  | succ n ih => exact ih

lemma handleAskSplit_safe (e : SplitEnd) : Safe 0 false (handleAskSplit e) := by
  cases e with
  | invalidRegion => decide
  | allocFailed n =>
    have h : Safe 0 false (replicate n .internal) := by
      have := (safe_replicate 0 false n []).mpr ⟨rfl, rfl⟩
      rwa [append_nil] at this
    exact Safe.append (by decide) h
  | recorded n => exact Safe.append (by decide) ((safe_replicate 0 false n _).mpr (by decide))

lemma handleAskBatchSplit_safe (e : BatchSplitEnd) : Safe 1 false (handleAskBatchSplit e ++ [.runlock]) := by
  cases e with
  | invalidRegion => decide
  | recorded n =>
    have h : Safe 2 false (replicate n .internal ++ [.runlock, .runlock]) :=
      (safe_replicate 2 false n _).mpr (by decide)
    simpa [handleAskBatchSplit, validRequestRegion, getRegionByKey, reading, Safe] using h

lemma Call.safe (c : Call) : Safe 0 false c.program := by
  cases c with
  | askBatchSplit request =>
    cases request with
    | handled e =>
      have hrun : Safe 0 false (.internal :: isRunning) := by decide
      exact hrun.append ⟨rfl, handleAskBatchSplit_safe e⟩
    | _ => decide
  | askSplit request =>
    cases request with
    | handled e =>
      have hrun : Safe 0 false (.internal :: isRunning) := by decide
      exact hrun.append (handleAskSplit_safe e)
    | _ => decide
  | stop running => cases running <;> decide
  | _ => decide

lemma handleAskSplit_flat (e : SplitEnd) : Flat 0 (handleAskSplit e) := by
  cases e with
  | invalidRegion => decide
  | allocFailed n =>
    have h : Flat 0 (replicate n .internal) := by
      have := (flat_replicate 0 n []).mpr trivial
      rwa [append_nil] at this
    exact ⟨rfl, h⟩
  | recorded n => exact ⟨rfl, (flat_replicate 0 n reading).mpr (by decide)⟩

lemma Call.flat {c : Call} (h : c.isAskBatchSplit = false) : Flat 0 c.program := by
  cases c with
  | askBatchSplit => cases h
  | askSplit request =>
    cases request with
    | handled e => exact ⟨rfl, handleAskSplit_flat e⟩
    | _ => decide
  | stop running => cases running <;> decide
  | _ => decide

section
variable {calls : SortedMap Nat Call} {s t : System} {l : RwLock.Label}

structure Inv (calls : SortedMap Nat Call) (s : System) : Prop where
  lock : RwLock.Inv s
  flat : ∀ m, (∀ c, calls.lookup m = some c → c.isAskBatchSplit = false) →
    ∀ q, s.threads.lookup m = some q → Flat q.held q.rest

lemma lookup_start {n : Nat} {p : RwLock.Thread} (h : (start calls).threads.lookup n = some p) :
  ∃ c, calls.lookup n = some c ∧ p = ⟨c.program, 0, false, .running⟩ := by
  rw [start, System.start, SortedMap.lookup_mapVal, SortedMap.lookup_mapVal, Option.map_map] at h
  obtain ⟨c, hc, rfl⟩ := Option.map_eq_some_iff.mp h
  exact ⟨c, hc, rfl⟩

lemma inv_start (calls : SortedMap Nat Call) : Inv calls (start calls) := by
  refine ⟨RwLock.inv_start fun n program h => ?_, fun m hm q hq => ?_⟩
  · rw [SortedMap.lookup_mapVal] at h
    obtain ⟨c, _, rfl⟩ := Option.map_eq_some_iff.mp h
    exact c.safe
  obtain ⟨c, hc, rfl⟩ := lookup_start hq
  exact Call.flat (hm c hc)

lemma quiet_of (hi : Inv calls s) (h : noLockInBatchSplit calls s l = true) : s.quiet l := by
  cases l with
  | step => trivial
  | wait =>
    intro p rest hp hrest m q hq
    by_cases hflat : ∀ c, calls.lookup m = some c → c.isAskBatchSplit = false
    · exact (hi.flat m hflat q hq).not_rereads
    push Not at hflat
    obtain ⟨c, hc, hbatch⟩ := hflat
    have hall : (calls.keys.all fun m => !(calls.lookup m).any Call.isAskBatchSplit ||
          !(s.threads.lookup m).any fun q => rereads q.held q.rest) = true := by
      simpa [noLockInBatchSplit, hp, hrest] using h
    have hm := all_eq_true.mp hall m (SortedMap.mem_keys.mpr ⟨c, hc⟩)
    simpa [hc, hq, hbatch] using hm

lemma inv_step (hi : Inv calls s) (h : noLockInBatchSplit calls s l = true) (hs : s.step l = some t) : Inv calls t :=
  ⟨RwLock.inv_step hi.lock (quiet_of hi h) hs, fun m hm _ hq => RwLock.flat_step hi.lock hs (hi.flat m hm) hq⟩

lemma inv_exec {ls : List RwLock.Label}
  (hcond : Runs.Along System.step (fun s l => noLockInBatchSplit calls s l = true) (start calls) ls)
  (hrun : Runs.exec System.step (start calls) ls = some s) : Inv calls s := by
  refine Runs.exec_inv (Inv calls) (fun s l t hi hc hs => ?_) (inv_start calls) hcond hrun
  exact inv_step hi hc hs

/-- **No deadlock**: some unfinished call can step. -/
theorem some_call_steps (calls : SortedMap Nat Call) (ls : List RwLock.Label) (s : System)
  (hcond : Runs.Along System.step (fun s l => noLockInBatchSplit calls s l = true) (start calls) ls)
  (hrun : Runs.exec System.step (start calls) ls = some s) (hunfinished : s.unfinished = true) : s.canStep = true :=
  (inv_exec hcond hrun).lock.canStep hunfinished

def splitAndStatus : SortedMap Nat Call :=
  (SortedMap.empty.insert 0 (.askBatchSplit (.handled (.recorded 1)))).insert 1 .getClusterStatus

theorem some_call_steps_status :
  ∃ s, Runs.exec System.step (start splitAndStatus) [.step 0, .step 0, .wait 1, .step 0, .step 0] = some s ∧
    s.unfinished = true ∧ s.canStep = true := by
  have hrun : (Runs.exec System.step (start splitAndStatus)
      [.step 0, .step 0, .wait 1, .step 0, .step 0]).map System.unfinished = some true := by decide +kernel
  obtain ⟨s, hs, hu⟩ := Option.map_eq_some_iff.mp hrun
  exact ⟨s, hs, hu, some_call_steps splitAndStatus _ s (by decide +kernel) hs hu⟩

/-- the status request waits when the split has the read lock for the whole request: the split waits for
the status request in `GetRegionByKey`, and the status request waits for the split -/
theorem split_and_status_stuck : (Runs.exec System.step (start splitAndStatus)
    [.step 0, .step 0, .step 0, .step 0, .step 0, .wait 1, .step 0, .wait 0]).map
      (fun s => (s.unfinished, s.canStep, s.threads.values.map (·.mode))) =
    some (true, false, [.waitRead, .waitWrite]) := by
  decide +kernel

end
end PD.ClusterLock
