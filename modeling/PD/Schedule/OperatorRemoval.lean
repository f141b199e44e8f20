import PD.Lib.Runs
import PD.Schedule.OperatorController

/-! # The removal of operators that were looked up before -/

namespace PD.OperatorRemoval
open List Option SortedMap OperatorController

inductive After where
  | promote (timeout : Bool)
  | done
  | check (rest : List Nat)
  deriving DecidableEq

inductive Pc where
  | dispatched (region : RegionInfo) (o : Nat)
  | finished (o : Nat)
  | removing (o : Nat) (after : After)
  | promoting
  | checking (ops : List Nat)
  deriving DecidableEq

structure State where
  oc : OperatorController
  calls : SortedMap Nat Pc

inductive Label where
  | dispatch (n : Nat) (region : RegionInfo)
  | removeOperator (n regionID : Nat)
  | checkOperators (n : Nat) (ops : List Nat)
  | next (n : Nat) (w : World) (draws : List Draw)
  | addOperator (w : World) (exceeds : Bool) (ops : List Nat)
  | addWaitingOperator (w : World) (ops : List Nat)
  | promoteWaitingOperator (w : World) (draws : List Draw)

def init (operators : List Operator) : State := ⟨.new operators, .empty⟩

def State.goto (calls : SortedMap Nat Pc) (n : Nat) : Option Pc → SortedMap Nat Pc
  | some pc => calls.insert n pc
  | none => calls.erase n

def After.pc : After → Option Pc
  | .promote _ => some .promoting
  | .done => none
  | .check rest => some (.checking rest)

variable (oc : OperatorController)

def advance (o : Nat) (region : RegionInfo) : OperatorController :=
  { oc with objects := oc.objects.modify o fun op => (op.check region).2 }

def dispatchPc (op : Operator) (region : RegionInfo) (now o : Nat) : Option Pc :=
  if (op.check region).1 ≠ none ∧ op.isTimeout now = false then none
  else if (op.check region).2.isFinish then some (.finished o)
  else if op.isTimeout now then some (.removing o (.promote true))
  else none

def checkPc (w : World) (o : Nat) (rest : List Nat) : Pc :=
  if w.getRegion (oc.regionOf o) = none ∨ (oc.op o).isTimeout w.now = true then .removing o (.check rest)
  else .checking rest

def removeHeld (o : Nat) (after : After) : OperatorController :=
  if after = .promote true then (oc.removeOperatorLocked o).record .timeout o else oc.removeOperatorLocked o

variable (s : State)

def nextSection (n : Nat) (w : World) (draws : List Draw) : Pc → Option State
  | .dispatched region o =>
    some ⟨advance s.oc o region, State.goto s.calls n (dispatchPc (s.oc.op o) region w.now o)⟩
  | .finished o =>
    some ⟨(s.oc.pushHistory o w.now).record .success o, s.calls.insert n (.removing o (.promote false))⟩
  | .removing o after => some ⟨removeHeld s.oc o after, State.goto s.calls n after.pc⟩
  | .promoting => (s.oc.promoteWaitingOperator w draws).map fun oc => ⟨oc, s.calls.erase n⟩
  | .checking [] => some ⟨s.oc, s.calls.erase n⟩
  | .checking (o :: rest) => some ⟨s.oc, s.calls.insert n (checkPc s.oc w o rest)⟩

def begin (n : Nat) (pc : Option Pc) : Option State :=
  if s.calls.lookup n = none then some ⟨s.oc, State.goto s.calls n pc⟩ else none

def step : Label → Option State
  | .dispatch n region => begin s n ((s.oc.operators.lookup region.getID).map fun o => .dispatched region o)
  | .removeOperator n regionID => begin s n ((s.oc.operators.lookup regionID).map fun o => .removing o .done)
  | .checkOperators n ops => if ops.Perm s.oc.operators.values then begin s n (some (.checking ops)) else none
  | .next n w draws => (s.calls.lookup n).bind (nextSection s n w draws)
  | .addOperator w exceeds ops => some ⟨(s.oc.addOperator w exceeds ops).2, s.calls⟩
  | .addWaitingOperator w ops => (s.oc.addWaitingLocked w ops).map fun r => ⟨r.2, s.calls⟩
  | .promoteWaitingOperator w draws => (s.oc.promoteWaitingOperator w draws).map fun oc => ⟨oc, s.calls⟩

def After.held : After → List Nat
  | .promote _ => []
  | .done => []
  | .check rest => rest

def Pc.held : Pc → List Nat
  | .dispatched _ o => [o]
  | .finished o => [o]
  | .removing o after => o :: after.held
  | .promoting => []
  | .checking ops => ops

def State.held (s : State) : List Nat := s.calls.values.flatMap Pc.held
def waiting : List Nat := oc.wop .lowPriority ++ oc.wop .normalPriority ++ oc.wop .highPriority

def Label.adds : Label → List Nat
  | .addOperator _ _ ops => ops
  | .promoteWaitingOperator .. => waiting s.oc
  | .next n .. => if s.calls.lookup n = some .promoting then waiting s.oc else []
  | _ => []

def Undisturbed (l : Label) : Prop := ∀ o ∈ l.adds s, ∀ h ∈ s.held, s.oc.regionOf h ≠ s.oc.regionOf o

instance undisturbedDecidable (s : State) (l : Label) : Decidable (Undisturbed s l) :=
  inferInstanceAs (Decidable (∀ o ∈ l.adds s, _))

def RemovesOwn (l : Label) (t : State) : Prop :=
  ∀ n w draws o after, l = .next n w draws → s.calls.lookup n = some (.removing o after) →
    ∀ r x, s.oc.operators.lookup r = some x → t.oc.operators.lookup r ≠ some x → x = o

def OwnEntry (h : Nat) : Prop := ∀ x, oc.operators.lookup (oc.regionOf h) = some x → x = h

structure Inv (s : State) : Prop where
  keyed : Keyed s.oc
  counted : OperatorController.Counted s.oc
  held : ∀ h ∈ s.held, OwnEntry s.oc h

section
variable {s t : State} {oc oc₁ : OperatorController} {w : World} {n : Nat} {l : Label}
  {calls : SortedMap Nat Pc}
variable {h o : Nat} {pc : Pc} {draws : List Draw}

lemma inv_init (operators : List Operator) : Inv (init operators) :=
  ⟨fun r o h => (by cases h), rfl, fun h hh => (by cases hh)⟩

lemma mem_held : h ∈ s.held ↔ ∃ n pc, s.calls.lookup n = some pc ∧ h ∈ pc.held := by
  unfold State.held
  rw [mem_flatMap]
  constructor
  · rintro ⟨pc, hpc, hh⟩
    obtain ⟨n, hn⟩ := mem_values.mp hpc
    exact ⟨n, pc, hn, hh⟩
  rintro ⟨n, pc, hn, hh⟩
  exact ⟨pc, mem_values.mpr ⟨n, hn⟩, hh⟩

lemma mem_held_goto {pc : Option Pc} (hh : h ∈ (⟨oc, State.goto s.calls n pc⟩ : State).held) :
  h ∈ s.held ∨ ∃ pc', pc = some pc' ∧ h ∈ pc'.held := by
  obtain ⟨m, pc', hm, hpc'⟩ := mem_held.mp hh
  cases pc with
  | none =>
    have hold := (lookup_erase_some.mp hm).2
    exact .inl (mem_held.mpr ⟨m, pc', hold, hpc'⟩)
  | some =>
    rcases lookup_insert_some.mp hm with ⟨_, rfl⟩ | ⟨_, hold⟩
    · exact .inr ⟨pc', rfl, hpc'⟩
    · exact .inl (mem_held.mpr ⟨m, pc', hold, hpc'⟩)

def Quiet (s : State) (oc₁ : OperatorController) : Prop :=
  ∀ h ∈ s.held, ∀ x, oc₁.operators.lookup (s.oc.regionOf h) = some x → s.oc.operators.lookup (s.oc.regionOf h) = some x

lemma OwnEntry.of_quiet (hi : Inv s) (hs : Same s.oc oc₁) (hq : Quiet s oc₁) (hh : h ∈ s.held) : OwnEntry oc₁ h := by
  intro x hx
  rw [hs.regionOf] at hx
  exact hi.held h hh x (hq h hh x hx)

structure Keeps (s : State) (oc₁ : OperatorController) : Prop where
  same : Same s.oc oc₁
  keyed : Keyed oc₁
  counted : OperatorController.Counted oc₁
  quiet : Quiet s oc₁

lemma Keeps.inv (hi : Inv s) (hk : Keeps s oc₁) (pc : Option Pc)
  (hpc : ∀ pc', pc = some pc' → ∀ h ∈ pc'.held, h ∈ s.held ∨ OwnEntry oc₁ h) : Inv ⟨oc₁, State.goto s.calls n pc⟩ := by
  refine ⟨hk.keyed, hk.counted, fun h hh => ?_⟩
  rcases mem_held_goto hh with hold | ⟨pc', rfl, hnew⟩
  · exact OwnEntry.of_quiet hi hk.same hk.quiet hold
  rcases hpc pc' rfl h hnew with hold | hown
  · exact OwnEntry.of_quiet hi hk.same hk.quiet hold
  · exact hown

lemma Keeps.inv_calls (hi : Inv s) (hk : Keeps s oc₁) : Inv ⟨oc₁, s.calls⟩ :=
  ⟨hk.keyed, hk.counted, fun _ hh => OwnEntry.of_quiet hi hk.same hk.quiet hh⟩

lemma keeps_of_operators (hi : Inv s) (hs : Same s.oc oc₁) (hops : oc₁.operators = s.oc.operators)
  (hcounts : oc₁.counts = s.oc.counts) : Keeps s oc₁ :=
  ⟨hs, hi.keyed.of_same hs hops, hi.counted.of_same hs hops hcounts, fun h _ x hx => by rwa [hops] at hx⟩

lemma keeps_aside (hi : Inv s) (h : Aside s.oc oc₁) : Keeps s oc₁ := keeps_of_operators hi h.same h.operators h.counts

lemma Keeps.aside {oc₂ : OperatorController} (h : Keeps s oc₁) (h' : Aside oc₁ oc₂) : Keeps s oc₂ :=
  ⟨h.same.trans h'.same, h.keyed.aside h', h.counted.aside h', fun x hx y hy => h.quiet x hx y (h'.operators ▸ hy)⟩

lemma aside_removeHeld (oc : OperatorController) (o : Nat) (after : After) :
  Aside (oc.removeOperatorLocked o) (removeHeld oc o after) := by
  unfold removeHeld
  split
  · exact ⟨rfl, rfl, rfl⟩
  · exact Aside.refl _

lemma keeps_remove (hi : Inv s) (o : Nat) : Keeps s (s.oc.removeOperatorLocked o) := by
  have h := removeOperatorLocked_spec s.oc o
  exact ⟨h.same, hi.keyed.removeOperatorLocked o, h.counted, fun _ _ _ hx => lookup_of_removeOperatorLocked hx⟩

lemma keeps_addAll (hi : Inv s) (haside : Aside s.oc oc₁) {g : List Nat}
  (hg : ∀ o ∈ g, ∀ h ∈ s.held, s.oc.regionOf h ≠ s.oc.regionOf o) (w : World) :
  Keeps s (g.foldl (addOperatorLocked w) oc₁) := by
  obtain ⟨hb, hkeyed⟩ := addAll_spec (hi.keyed.aside haside) (hi.counted.aside haside) w g
  refine ⟨haside.same.trans hb.same, hkeyed, hb.counted, fun h hh x hx => ?_⟩
  have hne : ∀ o ∈ g, oc₁.regionOf o ≠ s.oc.regionOf h := by
    intro o ho he
    exact hg o ho h hh (he.symm.trans (haside.same.regionOf o))
  rw [hb.operators_eq, lookup_withGroup_of_ne hne, haside.operators] at hx
  exact hx

lemma mem_waiting {level : PriorityLevel} (h : o ∈ oc.wop level) : o ∈ waiting oc := by
  cases level
  · exact mem_append_left _ (mem_append_left _ h)
  · exact mem_append_left _ (mem_append_right _ h)
  · exact mem_append_right _ h

lemma keeps_promote (hi : Inv s) (hw : ∀ o ∈ waiting s.oc, ∀ h ∈ s.held, s.oc.regionOf h ≠ s.oc.regionOf o)
  (h : s.oc.promoteWaitingOperator w draws = some oc₁) : Keeps s oc₁ := by
  obtain ⟨⟨g, oc₂⟩, hdraw, rfl⟩ := map_eq_some_iff.mp h
  have htook := took_drawGroup hdraw
  refine keeps_addAll hi htook.aside (fun o ho => ?_) w
  obtain ⟨level, hlevel⟩ := htook.mem o ho
  exact hw o (mem_waiting hlevel)

lemma keeps_addOperator (hi : Inv s) {exceeds : Bool} {ops : List Nat}
  (hops : ∀ o ∈ ops, ∀ h ∈ s.held, s.oc.regionOf h ≠ s.oc.regionOf o) :
  Keeps s (s.oc.addOperator w exceeds ops).2 := by
  unfold OperatorController.addOperator
  split
  · exact keeps_aside hi (aside_record s.oc .cancel ops).1
  · exact keeps_addAll hi (Aside.refl s.oc) hops w

lemma same_advance (oc : OperatorController) (o : Nat) (region : RegionInfo) : Same oc (advance oc o region) :=
  Same.of_modify (f := fun op => (op.check region).2) rfl fun _ => rfl

lemma dispatchPc_held {op : Operator} {region : RegionInfo} {now : Nat}
  (h : dispatchPc op region now o = some pc) : pc.held = [o] := by
  unfold dispatchPc at h
  split at h
  · cases h
  split at h
  · cases h
    rfl
  split at h
  · cases h
    rfl
  · cases h

lemma checkPc_held (oc : OperatorController) (w : World) (o : Nat) (rest : List Nat)
  (hh : h ∈ (checkPc oc w o rest).held) : h ∈ o :: rest := by
  unfold checkPc at hh
  split at hh
  · exact hh
  · exact mem_cons_of_mem o hh

lemma After.pc_held {after : After} (h : after.pc = some pc) : pc.held = after.held := by
  cases after <;> cases h <;> rfl

lemma inv_nextSection (hi : Inv s) (hpc : s.calls.lookup n = some pc)
  (hok : Undisturbed s (.next n w draws)) (h : nextSection s n w draws pc = some t) : Inv t := by
  have hheld : ∀ x ∈ pc.held, x ∈ s.held := fun x hx => mem_held.mpr ⟨n, pc, hpc, hx⟩
  cases pc with
  | dispatched region o =>
    cases h
    refine (keeps_of_operators hi (same_advance s.oc o region) rfl rfl).inv hi _ fun pc' hpc' x hx => .inl ?_
    rw [dispatchPc_held hpc'] at hx
    exact hheld x hx
  | finished o =>
    cases h
    have hk : Keeps s ((s.oc.pushHistory o w.now).record .success o) := keeps_aside hi ⟨rfl, rfl, rfl⟩
    refine hk.inv hi (some _) fun pc' hpc' x hx => .inl ?_
    cases hpc'
    exact hheld x hx
  | removing o after =>
    cases h
    have hk := (keeps_remove hi o).aside (aside_removeHeld s.oc o after)
    refine hk.inv hi _ fun pc' hpc' x hx => .inl ?_
    rw [After.pc_held hpc'] at hx
    exact hheld x (mem_cons_of_mem o hx)
  | promoting =>
    obtain ⟨oc₁, hpromote, rfl⟩ := map_eq_some_iff.mp h
    have hk : Keeps s oc₁ := by
      refine keeps_promote hi (fun o ho => hok o ?_) hpromote
      rw [Label.adds, if_pos hpc]
      exact ho
    exact hk.inv hi none fun pc' hpc' => (by cases hpc')
  | checking ops =>
    have hk : Keeps s s.oc := keeps_aside hi (Aside.refl s.oc)
    cases ops with
    | nil =>
      cases h
      exact hk.inv hi none fun pc' hpc' => (by cases hpc')
    | cons o rest =>
      cases h
      refine hk.inv hi (some _) fun pc' hpc' x hx => .inl ?_
      cases hpc'
      exact hheld x (checkPc_held s.oc w o rest hx)

lemma Inv.ownEntry (hi : Inv s) {r : Nat} (h : s.oc.operators.lookup r = some o) : OwnEntry s.oc o := by
  intro x hx
  rw [hi.keyed r o h, h] at hx
  exact (some.inj hx).symm

lemma inv_begin (hi : Inv s) {pc : Option Pc} (hpc : ∀ pc', pc = some pc' → ∀ x ∈ pc'.held, OwnEntry s.oc x)
  (h : begin s n pc = some t) : Inv t := by
  unfold begin at h
  split at h
  · cases h
    exact (keeps_aside hi (Aside.refl s.oc)).inv hi _ fun pc' hpc' x hx => .inr (hpc pc' hpc' x hx)
  · cases h

lemma inv_step (hi : Inv s) (hok : Undisturbed s l) (h : step s l = some t) : Inv t := by
  cases l with
  | dispatch | removeOperator =>
    refine inv_begin hi (fun pc' hpc' x hx => ?_) h
    obtain ⟨o, ho, rfl⟩ := map_eq_some_iff.mp hpc'
    rw [mem_singleton.mp hx]
    exact hi.ownEntry ho
  | checkOperators =>
    simp only [step] at h
    split at h
    next hperm =>
      refine inv_begin hi (fun pc' hpc' x hx => ?_) h
      cases hpc'
      obtain ⟨r, hr⟩ := mem_values.mp (hperm.mem_iff.mp hx)
      exact hi.ownEntry hr
    · cases h
  | next =>
    obtain ⟨pc, hpc, hnext⟩ := bind_eq_some_iff.mp h
    exact inv_nextSection hi hpc hok hnext
  | addOperator =>
    cases h
    exact (keeps_addOperator hi hok).inv_calls hi
  | addWaitingOperator =>
    obtain ⟨⟨added, oc₁⟩, hadd, rfl⟩ := map_eq_some_iff.mp h
    exact (keeps_aside hi (aside_addWaiting hadd)).inv_calls hi
  | promoteWaitingOperator =>
    obtain ⟨oc₁, hpromote, rfl⟩ := map_eq_some_iff.mp h
    exact (keeps_promote hi hok hpromote).inv_calls hi

lemma removesOwn_step (hi : Inv s) (h : step s l = some t) : RemovesOwn s l t := by
  rintro n w draws o after rfl hpc r x hx hgone
  have ht : t.oc = removeHeld s.oc o after := by
    obtain ⟨pc, hpc', hnext⟩ := bind_eq_some_iff.mp h
    rw [hpc] at hpc'
    cases hpc'
    cases hnext
    rfl
  rw [ht, (aside_removeHeld s.oc o after).operators, (removeOperatorLocked_spec s.oc o).operators_eq] at hgone
  have hr : r = s.oc.regionOf o := by
    by_contra hne
    exact hgone (lookup_erase_some.mpr ⟨hne, hx⟩)
  have ho : o ∈ s.held := mem_held.mpr ⟨n, _, hpc, mem_cons_self⟩
  exact hi.held o ho x (hr ▸ hx)

end

/-- **Removals** take out their own operator, if none is added for its region meanwhile. -/
theorem removals_own (operators : List Operator) (ls : List Label)
  (hok : Runs.Along step Undisturbed (init operators) ls) : Runs.Steps step RemovesOwn (init operators) ls := by
  refine Runs.steps_of_inv Inv (fun s l t hi hok h => ?_) (inv_init operators) hok
  exact ⟨inv_step hi hok h, removesOwn_step hi h⟩

def twoRemovals : List Operator := [newOperator "balance-region" 1 (some ⟨1, 1⟩) .opRegion [.removePeer 3],
    { newOperator "admin-remove-peer" 1 (some ⟨2, 1⟩) .opAdmin [.removePeer 2] with level := .highPriority }]

def threePeers : RegionInfo :=
  newRegionInfo ⟨1, [], [], some ⟨1, 1⟩, [⟨1, 1, false⟩, ⟨2, 2, false⟩, ⟨3, 3, false⟩]⟩ (some ⟨1, 1, false⟩)

def twoPeers : RegionInfo :=
  newRegionInfo ⟨1, [], [], some ⟨2, 1⟩, [⟨1, 1, false⟩, ⟨2, 2, false⟩]⟩ (some ⟨1, 1, false⟩)

def oneRegion (region : RegionInfo) : World where
  getRegion id := if id = 1 then some region else none
  now := 0
  schedulerMaxWaitingOperator := 5

def untilRemoval : List Label :=
  [.addOperator (oneRegion threePeers) false [0], .dispatch 0 twoPeers, .next 0 (oneRegion twoPeers) [],
    .next 0 (oneRegion twoPeers) []]

def addedAfter : List Label := untilRemoval ++ [.next 0 (oneRegion twoPeers) [], .next 0 (oneRegion twoPeers) [],
    .addOperator (oneRegion twoPeers) false [1]]

theorem removals_own_addedAfter :
  (Runs.exec step (init twoRemovals) addedAfter).map (fun s => (s.oc.operators.entries, s.calls.entries)) =
    some ([(1, 1)], []) ∧ Runs.Steps step RemovesOwn (init twoRemovals) addedAfter :=
  ⟨by decide +kernel, removals_own twoRemovals addedAfter (by decide +kernel)⟩

/-- Operator 1 replaces the one that is being removed, and goes with it. -/
theorem removal_takes_replacement :
  (Runs.exec step (init twoRemovals) (untilRemoval ++ [.addOperator (oneRegion twoPeers) false [1]])).map
      (fun s => (s.oc.operators.entries, s.calls.entries)) = some ([(1, 1)], [(0, .removing 0 (.promote false))]) ∧
  (Runs.exec step (init twoRemovals)
    (untilRemoval ++ [.addOperator (oneRegion twoPeers) false [1], .next 0 (oneRegion twoPeers) []])).map
      (fun s => s.oc.operators.entries) = some [] := by
  decide +kernel

end PD.OperatorRemoval
