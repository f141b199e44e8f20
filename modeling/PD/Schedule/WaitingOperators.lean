import PD.Schedule.CreateOperator
import PD.Schedule.RunningOperators

/-! # The account of the waiting operators -/

namespace PD.WaitingOperators
open List OperatorController Function
open RunningOperators (waitable waitable_same)

def groupsOf (oc : OperatorController) : List Nat → List (List Nat)
  | [] => []
  | [o] => [[o]]
  | o :: o' :: rest =>
    if oc.isMerge o then [o, o'] :: groupsOf oc rest else [o] :: groupsOf oc (o' :: rest)

def priorities : List PriorityLevel := [.lowPriority, .normalPriority, .highPriority]
def waiting (oc : OperatorController) : List (List Nat) := priorities.flatMap fun level => groupsOf oc (oc.wop level)

def describes (oc : OperatorController) (desc : String) (g : List Nat) : Bool :=
  decide (g.head?.map (fun o => (oc.op o).desc) = some desc)

lemma waitable_mergePair {desc : String} {c : Cluster} {source target : RegionInfo} {kind : OperatorKind}
    {order : List Nat} {ops : Operator × Operator} {oc : OperatorController} {o o' : Nat} {level : PriorityLevel}
    (h : createMergeRegionOperator desc c source target kind order = some (.ok ops))
    (ho : oc.op o = { ops.1 with level := level }) (ho' : oc.op o' = { ops.2 with level := level }) :
    waitable oc [o, o'] = true := by
  obtain ⟨r, -, hr⟩ := Option.map_eq_some_iff.mp h
  cases r with
  | error => cases hr
  | ok =>
    obtain rfl := Except.ok.inj hr
    have hmerge : oc.isMerge o = true := by
      unfold isMerge
      rw [ho]
      refine bne_iff_ne.mpr fun h0 => ?_
      have hmask : Nat.testBit 128 7 = true := by decide
      have hbit := congrArg (Nat.testBit · 7) h0
      simp only [newOperator, OperatorKind.opMerge, Nat.testBit_and, Nat.testBit_or, hmask, Bool.or_true,
        Nat.zero_testBit, Bool.and_self] at hbit
      cases hbit
    have hlevel : oc.levelOf o' = oc.levelOf o := by
      unfold levelOf
      rw [ho, ho']
    exact Bool.and_eq_true_iff.mpr ⟨hmerge, decide_eq_true hlevel⟩

structure Taken where
  group : List Nat
  started : Bool
  counter : Nat
  deriving DecidableEq

def drawLog (w : World) : List Draw → OperatorController → List Taken
  | [], _ => []
  | d :: draws, oc =>
    match oc.getOperator d.bucket with
    | none => []
    | some ([], _) => []
    | some (o :: rest, oc) =>
      if d.exceeds || !oc.checkAddOperator w (o :: rest) then
        ⟨o :: rest, false, oc.waitingCount (oc.op o).desc⟩ ::
          drawLog w draws ((oc.recordAll .cancel (o :: rest)).taken o)
      else [⟨o :: rest, true, oc.waitingCount (oc.op o).desc⟩]

inductive Call where
  | addWaitingOperator (w : World) (ops : List Nat) (draws : List Draw)
  | promoteWaitingOperator (w : World) (draws : List Draw)

namespace Call

def world : Call → World
  | addWaitingOperator w .. => w
  | promoteWaitingOperator w _ => w

variable (oc : OperatorController)

def run : Call → Option OperatorController
  | addWaitingOperator w ops draws => (oc.addWaitingOperator w ops draws).map Prod.snd
  | promoteWaitingOperator w draws => oc.promoteWaitingOperator w draws

def accepts : Call → List (List Nat)
  | addWaitingOperator w ops _ =>
    match oc.addWaitingLocked w ops with
    | some (true, _) => [ops]
    | _ => []
  | promoteWaitingOperator .. => []

def takes : Call → List Taken
  | addWaitingOperator w ops draws =>
    match oc.addWaitingLocked w ops with
    | some (true, oc) => drawLog w draws oc
    | _ => []
  | promoteWaitingOperator w draws => drawLog w draws oc

def Proper : Call → Prop
  | addWaitingOperator w ops _ => waitable oc ops = true ∧ (∀ o ∈ ops, o < oc.objects.next) ∧
      w.schedulerMaxWaitingOperator < 2 ^ 64
  | promoteWaitingOperator .. => True

instance properDecidable (oc : OperatorController) : ∀ c : Call, Decidable (c.Proper oc)
  | addWaitingOperator .. => inferInstanceAs (Decidable (_ ∧ _))
  | promoteWaitingOperator .. => .isTrue trivial

end Call

structure State where
  oc : OperatorController
  accepted : List (List Nat)
  taken : List Taken

def init (operators : List Operator) : State := ⟨.new operators, [], []⟩

def step (s : State) (c : Call) : Option State :=
  (c.run s.oc).map fun oc => ⟨oc, s.accepted ++ c.accepts s.oc, s.taken ++ c.takes s.oc⟩

structure Accounted (s : State) : Prop where
  grouped : ∀ g ∈ waiting s.oc, waitable s.oc g = true
  counter : ∀ desc, s.oc.waitingCount desc = (waiting s.oc).countP (describes s.oc desc)
  noUnderflow : ∀ e ∈ s.taken, 0 < e.counter
  account : s.accepted.Perm (waiting s.oc ++ s.taken.map Taken.group)

structure Started (oc : OperatorController) (now o : Nat) : Prop where
  time : (oc.op o).startTime = some now
  runs : RunningOperators.running oc o ∨ (o, .replace) ∈ oc.opRecords

def Handled (s : State) (c : Call) (t : State) : Prop := ∀ e ∈ c.takes s.oc, ∀ o ∈ e.group,
    if e.started then Started t.oc c.world.now o else (o, .cancel) ∈ t.oc.opRecords

section
variable {oc oc₁ oc₂ : OperatorController} {w : World} {o : Nat} {g : List Nat}
variable {ops rest : List Nat}

lemma groupsOf_same (hs : Same oc oc₁) (ops : List Nat) : groupsOf oc₁ ops = groupsOf oc ops := by
  induction ops using groupsOf.induct oc with
  | case3 o _ _ hmerge ih => rw [groupsOf, groupsOf, hs.isMerge, if_pos hmerge, if_pos hmerge, ih]
  | case4 o _ _ hmerge ih => rw [groupsOf, groupsOf, hs.isMerge, if_neg hmerge, if_neg hmerge, ih]
  | _ => rfl

lemma flatten_groupsOf (oc : OperatorController) (ops : List Nat) : (groupsOf oc ops).flatten = ops := by
  induction ops using groupsOf.induct oc with
  | case3 o _ _ hmerge ih => rw [groupsOf, if_pos hmerge, flatten_cons, ih]; rfl
  | case4 o _ _ hmerge ih => rw [groupsOf, if_neg hmerge, flatten_cons, ih]; rfl
  | _ => rfl

lemma groupsOf_append (hg : waitable oc g = true) (rest : List Nat) :
  groupsOf oc (g ++ rest) = g :: groupsOf oc rest := by
  match g, hg with
  | [o], hg =>
    have hmerge : ¬ oc.isMerge o = true := by simpa [waitable] using hg
    cases rest with
    | nil => rfl
    | cons o' rest =>
      show groupsOf oc (o :: o' :: rest) = _
      rw [groupsOf, if_neg hmerge]
  | [o, o'], hg =>
    have hmerge : oc.isMerge o = true := (Bool.and_eq_true_iff.mp hg).1
    show groupsOf oc (o :: o' :: rest) = _
    rw [groupsOf, if_pos hmerge]

lemma groupsOf_flatten {gs : List (List Nat)} (h : ∀ g ∈ gs, waitable oc g = true) : groupsOf oc gs.flatten = gs := by
  induction gs with
  | nil => rfl
  | cons g _ ih =>
    rw [flatten_cons, groupsOf_append (h g mem_cons_self), ih fun g' hg' => h g' (mem_cons_of_mem _ hg')]

lemma mem_waiting {level : PriorityLevel} (h : g ∈ groupsOf oc (oc.wop level)) : g ∈ waiting oc := by
  refine mem_flatMap.mpr ⟨level, ?_, h⟩
  cases level <;> decide

lemma waiting_same (hs : Same oc oc₁) (hwop : oc₁.wop = oc.wop) : waiting oc₁ = waiting oc := by
  unfold waiting
  rw [hwop]
  exact congrArg (fun f => priorities.flatMap f) (funext fun level => groupsOf_same hs _)

lemma waiting_setWaitingCount (oc : OperatorController) (desc : String) (n : Nat) :
    waiting (oc.setWaitingCount desc n) = waiting oc := waiting_same (Same.of_objects rfl) rfl

lemma waiting_taken (oc : OperatorController) (o : Nat) : waiting (oc.taken o) = waiting oc :=
  waiting_setWaitingCount oc _ _

lemma waiting_perm (level : PriorityLevel)
  (hone : (groupsOf oc₁ (oc₁.wop level)).Perm (g :: groupsOf oc (oc.wop level)))
  (hrest : ∀ level', level' ≠ level → groupsOf oc₁ (oc₁.wop level') = groupsOf oc (oc.wop level')) :
  (waiting oc₁).Perm (g :: waiting oc) := by
  simp only [waiting, priorities, flatMap_cons, flatMap_nil, append_nil]
  cases level with
  | lowPriority =>
    rw [hrest .normalPriority (by decide), hrest .highPriority (by decide)]
    exact hone.append_right _
  | normalPriority =>
    rw [hrest .lowPriority (by decide), hrest .highPriority (by decide)]
    exact ((hone.append_right _).append_left _).trans perm_middle
  | highPriority =>
    rw [hrest .lowPriority (by decide), hrest .normalPriority (by decide)]
    refine ((hone.append_left _).append_left _).trans ?_
    exact (perm_middle.append_left _).trans perm_middle

lemma describes_same (hs : Same oc oc₁) (desc : String) : describes oc₁ desc = describes oc desc := by
  have hdesc : (fun o => (oc₁.op o).desc) = fun o => (oc.op o).desc :=
    funext fun o => hs.field Operator.desc (fun _ => rfl) o
  unfold describes
  rw [hdesc]

structure Fine (oc : OperatorController) : Prop where
  grouped : ∀ g ∈ waiting oc, waitable oc g = true
  exist : ∀ g ∈ waiting oc, ∀ o ∈ g, o < oc.objects.next
  counter : ∀ desc, oc.waitingCount desc = (waiting oc).countP (describes oc desc)
  bounded : ∀ desc, oc.waitingCount desc < 2 ^ 64
  keyed : Keyed oc

lemma fine_new (operators : List Operator) : Fine (.new operators) :=
  ⟨fun g hg => (by cases hg), fun g hg => (by cases hg), fun _ => rfl, fun _ => Nat.two_pow_pos 64,
    fun r o h => (by cases h)⟩

lemma waitingCount_set (oc : OperatorController) (desc : String) (n : Nat) (desc' : String) :
  (oc.setWaitingCount desc n).waitingCount desc' = if desc' = desc then n % 2 ^ 64 else oc.waitingCount desc' := by
  unfold setWaitingCount waitingCount
  rw [SortedMap.lookup_insert]
  split <;> rfl

structure Keeps (oc oc₁ : OperatorController) : Prop where
  same : Same oc oc₁
  wop : oc₁.wop = oc.wop
  wopStatus : oc₁.wopStatus = oc.wopStatus
  next : oc₁.objects.next = oc.objects.next
  records : oc.opRecords ⊆ oc₁.opRecords

lemma Keeps.refl (oc : OperatorController) : Keeps oc oc := ⟨Same.refl oc, rfl, rfl, rfl, List.Subset.refl _⟩

lemma Keeps.trans (h : Keeps oc oc₁) (h' : Keeps oc₁ oc₂) : Keeps oc oc₂ :=
  ⟨h.same.trans h'.same, h'.wop.trans h.wop, h'.wopStatus.trans h.wopStatus, h'.next.trans h.next,
    List.Subset.trans h.records h'.records⟩

lemma Keeps.fine (h : Keeps oc oc₁) (hf : Fine oc) (hk : Keyed oc₁) : Fine oc₁ := by
  have hcount : ∀ desc, oc₁.waitingCount desc = oc.waitingCount desc := fun desc => by
    unfold waitingCount
    rw [h.wopStatus]
  have hwaiting := waiting_same h.same h.wop
  refine ⟨fun g hg => ?_, fun g hg o ho => ?_, fun desc => ?_, fun desc => ?_, hk⟩
  · exact (waitable_same h.same g).trans (hf.grouped g (hwaiting ▸ hg))
  · exact h.next ▸ hf.exist g (hwaiting ▸ hg) o ho
  · rw [hcount, hwaiting, describes_same h.same, hf.counter]
  · exact hcount desc ▸ hf.bounded desc

lemma keeps_recordAll (oc : OperatorController) (status : OperatorStatus) (ops : List Nat) :
  Keeps oc (oc.recordAll status ops) := by
  induction ops generalizing oc with
  | nil => exact Keeps.refl oc
  | cons o _ ih =>
    have hrecord : Keeps oc (oc.record status o) := ⟨Same.of_objects rfl, rfl, rfl, rfl, subset_cons_self _ _⟩
    exact hrecord.trans (ih _)

lemma mem_recordAll (status : OperatorStatus) (ho : o ∈ ops) : (o, status) ∈ (oc.recordAll status ops).opRecords := by
  induction ops generalizing oc with
  | nil => cases ho
  | cons x ops ih =>
    rcases mem_cons.mp ho with rfl | ho
    · exact (keeps_recordAll (oc.record status o) status ops).records mem_cons_self
    · exact ih ho

lemma keeps_addOperatorLocked (w : World) (oc : OperatorController) (o : Nat) :
  Keeps oc (addOperatorLocked w oc o) := by
  have hreplace : Keeps oc (oc.replaceOld o) := by
    unfold replaceOld
    split
    · exact ⟨Same.of_objects rfl, rfl, rfl, rfl, subset_cons_self _ _⟩
    · exact Keeps.refl oc
  have hstart : Keeps (oc.replaceOld o) ((oc.replaceOld o).start w.now o) :=
    ⟨same_start _ w.now o, rfl, rfl, Heap.next_modify, List.Subset.refl _⟩
  refine hreplace.trans (hstart.trans ?_)
  unfold addOperatorLocked notify
  split
  · exact ⟨Same.of_objects rfl, rfl, rfl, rfl, List.Subset.refl _⟩
  next region _ =>
    exact ⟨Same.of_modify (f := fun op => (op.check region).2) rfl fun _ => rfl, rfl, rfl,
      Heap.next_modify, List.Subset.refl _⟩

lemma startTime_addOperatorLocked (w : World) (ho : o < oc.objects.next) (x : Nat) :
  ((addOperatorLocked w oc o).op x).startTime = if x = o then some w.now else (oc.op x).startTime := by
  have hobjects : (oc.replaceOld o).objects = oc.objects := by
    unfold replaceOld
    split <;> rfl
  have hstart : (((oc.replaceOld o).start w.now o).op x).startTime =
      if x = o then some w.now else (oc.op x).startTime := by
    show (((oc.replaceOld o).objects.modify o fun op => { op with startTime := some w.now }).get x).startTime = _
    rw [hobjects, Heap.get_modify ho]
    split <;> rfl
  rw [← hstart]
  unfold addOperatorLocked notify
  split
  · rfl
  next region _ =>
    exact Heap.apply_get_modify (f := fun op : Operator => (op.check region).2) Operator.startTime fun _ => rfl

lemma started_addOperatorLocked (hk : Keyed oc) (w : World) (ho : o < oc.objects.next) {x : Nat}
  (hx : x = o ∨ Started oc w.now x) : Started (addOperatorLocked w oc o) w.now x := by
  have hadd := addOperatorLocked_spec (w := w) (o := o) hk
  refine ⟨?_, ?_⟩
  · rw [startTime_addOperatorLocked w ho]
    split
    · rfl
    next e => exact (hx.resolve_left e).time
  unfold RunningOperators.running
  rw [hadd.same.regionOf, hadd.operators_eq]
  by_cases e : x = o
  · exact .inl (e ▸ SortedMap.lookup_insert_self ..)
  rcases (hx.resolve_left e).runs with hrun | hreplaced
  · by_cases hregion : oc.regionOf x = oc.regionOf o
    · -- both are for one region
      have hold : oc.operators.lookup (oc.regionOf o) = some x := hregion ▸ hrun
      have hrecords : (addOperatorLocked w oc o).opRecords = (oc.replaceOld o).opRecords := by
        unfold addOperatorLocked notify
        split <;> rfl
      rw [hrecords, replaceOld, hold]
      exact .inr mem_cons_self
    · exact .inl ((SortedMap.lookup_insert_of_ne _ _ hregion).trans hrun)
  · exact .inr ((keeps_addOperatorLocked w oc o).records hreplaced)

lemma addAll_account (hk : Keyed oc) (w : World) (ops : List Nat) (hops : ∀ o ∈ ops, o < oc.objects.next) :
  Keeps oc (ops.foldl (addOperatorLocked w) oc) ∧ Keyed (ops.foldl (addOperatorLocked w) oc) ∧
    ∀ x, (x ∈ ops ∨ Started oc w.now x) → Started (ops.foldl (addOperatorLocked w) oc) w.now x := by
  induction ops generalizing oc with
  | nil => exact ⟨Keeps.refl oc, hk, fun x hx => hx.resolve_left not_mem_nil⟩
  | cons o _ ih =>
    have hkeeps := keeps_addOperatorLocked w oc o
    have hadd := addOperatorLocked_spec (w := w) (o := o) hk
    obtain ⟨hrest, hkeyed, hstarted⟩ := ih (hk.insert hadd.same hadd.operators_eq)
      fun x hx => hkeeps.next ▸ hops x (mem_cons_of_mem _ hx)
    refine ⟨hkeeps.trans hrest, hkeyed, fun x hx => hstarted x ?_⟩
    have hstep := started_addOperatorLocked hk w (hops o mem_cons_self) (x := x)
    rcases hx with hmem | hx
    · exact (mem_cons.mp hmem).symm.imp_right fun e => hstep (.inl e)
    · exact .inr (hstep (.inr hx))

lemma fine_taken (hf : Fine oc) (haside : Aside oc oc₁) (hstatus : oc₁.wopStatus = oc.wopStatus)
  (hwaiting : (waiting oc).Perm ((o :: rest) :: waiting oc₁)) :
  0 < oc₁.waitingCount (oc₁.op o).desc ∧ Fine (oc₁.taken o) := by
  have hcount : ∀ desc, oc₁.waitingCount desc = oc.waitingCount desc := fun desc => by
    unfold waitingCount
    rw [hstatus]
  have hdesc : describes oc (oc₁.op o).desc (o :: rest) = true := by
    rw [← describes_same haside.same]
    exact decide_eq_true rfl
  have hbefore : ∀ desc, oc.waitingCount desc =
      (waiting oc₁).countP (describes oc₁ desc) + if desc = (oc₁.op o).desc then 1 else 0 := by
    intro desc
    rw [hf.counter, hwaiting.countP_eq, countP_cons, describes_same haside.same]
    congr 1
    by_cases e : desc = (oc₁.op o).desc
    · rw [e, if_pos hdesc, if_pos rfl]
    have hne : describes oc desc (o :: rest) ≠ true := by
      rw [← describes_same haside.same]
      intro h
      exact e (Option.some.inj (of_decide_eq_true h)).symm
    rw [if_neg hne, if_neg e]
  have hpos : 0 < oc₁.waitingCount (oc₁.op o).desc := by
    rw [hcount, hbefore, if_pos rfl]
    exact Nat.succ_pos _
  have hsame : Same oc₁ (oc₁.taken o) := Same.of_objects rfl
  have hkeep := waiting_taken oc₁ o
  refine ⟨hpos, fun g hg => ?_, fun g hg x hx => ?_, fun desc => ?_, fun desc => ?_,
    hf.keyed.aside (haside.trans ⟨rfl, rfl, rfl⟩)⟩
  · rw [waitable_same hsame, waitable_same haside.same]
    exact hf.grouped g (hwaiting.mem_iff.mpr (mem_cons_of_mem _ (hkeep ▸ hg)))
  · have hnext : (oc₁.taken o).objects.next = oc.objects.next := congrArg Heap.next haside.objects
    rw [hnext]
    exact hf.exist g (hwaiting.mem_iff.mpr (mem_cons_of_mem _ (hkeep ▸ hg))) x hx
  · rw [hkeep, describes_same hsame, OperatorController.taken, waitingCount_set]
    have hb := hbefore desc
    have hlt := hf.bounded desc
    split
    next e =>
      rw [← e, hcount]
      rw [if_pos e] at hb
      omega
    next e => rw [hcount, hb, if_neg e, Nat.add_zero]
  rw [OperatorController.taken, waitingCount_set]
  split
  · exact Nat.mod_lt _ (Nat.two_pow_pos 64)
  · exact hcount desc ▸ hf.bounded desc

lemma getOperator_account (hf : Fine oc) (pick : Option PriorityLevel) :
  oc.getOperator pick = some ([], oc) ∨ ∃ o rest oc₁, oc.getOperator pick = some (o :: rest, oc₁) ∧
    Aside oc oc₁ ∧ oc₁.wopStatus = oc.wopStatus ∧ oc₁.opRecords = oc.opRecords ∧
    (waiting oc).Perm ((o :: rest) :: waiting oc₁) := by
  cases pick with
  | none => exact .inl rfl
  | some level =>
    have hwop := (flatten_groupsOf oc (oc.wop level)).symm
    have hgroups : ∀ g ∈ groupsOf oc (oc.wop level), waitable oc g = true := fun g hg => hf.grouped g (mem_waiting hg)
    cases hgs : groupsOf oc (oc.wop level) with
    | nil =>
      rw [hgs] at hwop
      exact .inl (RunningOperators.getOperator_of_empty hwop)
    | cons g gs =>
      rw [hgs] at hwop hgroups
      have hg := hgroups g mem_cons_self
      have hget := RunningOperators.getOperator_of_waitable hg hwop
      have hcut : groupsOf oc gs.flatten = gs := groupsOf_flatten fun g' hg' => hgroups g' (mem_cons_of_mem _ hg')
      have hsame : Same oc (oc.setBucket level gs.flatten) := Same.of_objects rfl
      have hperm : (waiting oc).Perm (g :: waiting (oc.setBucket level gs.flatten)) := by
        refine waiting_perm level (List.Perm.of_eq ?_) fun level' hne => ?_
        · rw [groupsOf_same hsame, hgs]
          refine congrArg (g :: ·) ?_
          show gs = groupsOf oc (update oc.wop level gs.flatten level)
          rw [update_self, hcut]
        rw [groupsOf_same hsame]
        exact congrArg (groupsOf oc) (update_of_ne hne ..).symm
      cases g with
      | nil => cases hg
      | cons o rest => exact .inr ⟨o, rest, _, hget, ⟨rfl, rfl, rfl⟩, rfl, rfl, hperm⟩

structure Drawn (oc : OperatorController) (log : List Taken) (g : List Nat) (oc₁ : OperatorController) : Prop where
  fine : Fine oc₁
  aside : Aside oc oc₁
  records : oc.opRecords ⊆ oc₁.opRecords
  waiting : (waiting oc).Perm (log.map Taken.group ++ WaitingOperators.waiting oc₁)
  positive : ∀ e ∈ log, 0 < e.counter
  started : ∀ e ∈ log, e.started = true → e.group = g
  cancelled : ∀ e ∈ log, e.started = false → ∀ o ∈ e.group, (o, .cancel) ∈ oc₁.opRecords
  exist : ∀ o ∈ g, o < oc.objects.next

lemma drawn_nil (hf : Fine oc) : Drawn oc [] [] oc :=
  ⟨hf, Aside.refl oc, List.Subset.refl _, List.Perm.refl _, fun e he => (by cases he), fun e he => (by cases he),
    fun e he => (by cases he), fun o ho => (by cases ho)⟩

lemma drawGroup_account (hf : Fine oc) (w : World) (draws : List Draw) :
  ∃ g oc₁, drawGroup w draws oc = some (g, oc₁) ∧ Drawn oc (drawLog w draws oc) g oc₁ := by
  induction draws generalizing oc with
  | nil => exact ⟨[], oc, rfl, drawn_nil hf⟩
  | cons d _ ih =>
    rcases getOperator_account hf d.bucket with hget | ⟨o, rest, oc₁, hget, haside, hstatus, hrecords, hwaiting⟩
    · simp only [drawGroup, drawLog, hget]
      exact ⟨[], oc, rfl, drawn_nil hf⟩
    obtain ⟨hpos, hfine⟩ := fine_taken hf haside hstatus hwaiting
    have hmem : (o :: rest) ∈ waiting oc := hwaiting.mem_iff.mpr mem_cons_self
    simp only [drawGroup, drawLog, hget]
    split
    · -- cancelled: the records change nothing that the counters and buckets depend on
      have hkeeps := keeps_recordAll oc₁ .cancel (o :: rest)
      have haside₂ : Aside oc (oc₁.recordAll .cancel (o :: rest)) :=
        haside.trans (aside_record oc₁ .cancel (o :: rest)).1
      have hwaiting₂ : (waiting oc).Perm ((o :: rest) :: waiting (oc₁.recordAll .cancel (o :: rest))) := by
        rw [waiting_same hkeeps.same hkeeps.wop]
        exact hwaiting
      obtain ⟨-, hfine₂⟩ := fine_taken hf haside₂ (hkeeps.wopStatus.trans hstatus) hwaiting₂
      obtain ⟨g, oc₃, hdraw, hdrawn⟩ := ih hfine₂
      have haside₃ : Aside oc ((oc₁.recordAll .cancel (o :: rest)).taken o) := haside₂.trans ⟨rfl, rfl, rfl⟩
      refine ⟨g, oc₃, hdraw, hdrawn.fine, haside₃.trans hdrawn.aside, ?_, ?_, ?_, ?_, ?_, ?_⟩
      · rw [← hrecords]
        exact List.Subset.trans hkeeps.records hdrawn.records
      · have hrest := hdrawn.waiting
        rw [waiting_taken] at hrest
        exact hwaiting₂.trans (hrest.cons _)
      · exact forall_mem_cons.mpr ⟨hpos, hdrawn.positive⟩
      · exact forall_mem_cons.mpr ⟨fun h => (by cases h), hdrawn.started⟩
      · refine forall_mem_cons.mpr ⟨fun _ x hx => ?_, hdrawn.cancelled⟩
        exact hdrawn.records (mem_recordAll .cancel hx)
      rw [← congrArg Heap.next haside₃.objects]
      exact hdrawn.exist
    refine ⟨o :: rest, oc₁.taken o, rfl, hfine, haside.trans ⟨rfl, rfl, rfl⟩, ?_, ?_, ?_, ?_, ?_, ?_⟩
    · rw [← hrecords]
      exact List.Subset.refl _
    · rw [waiting_taken]
      exact hwaiting
    · exact forall_mem_singleton.mpr hpos
    · exact forall_mem_singleton.mpr fun _ => rfl
    · exact forall_mem_singleton.mpr fun h => (by cases h)
    · exact hf.exist _ hmem

lemma promote_account (hf : Fine oc) (w : World) (draws : List Draw) :
  ∃ oc₁, oc.promoteWaitingOperator w draws = some oc₁ ∧ Fine oc₁ ∧
    (waiting oc).Perm ((drawLog w draws oc).map Taken.group ++ waiting oc₁) ∧
    ∀ e ∈ drawLog w draws oc, 0 < e.counter ∧ ∀ o ∈ e.group,
      if e.started then Started oc₁ w.now o else (o, .cancel) ∈ oc₁.opRecords := by
  obtain ⟨g, oc₁, hdraw, hdrawn⟩ := drawGroup_account hf w draws
  have hnext : oc₁.objects.next = oc.objects.next := congrArg Heap.next hdrawn.aside.objects
  obtain ⟨hkeeps, hkeyed, hstarted⟩ := addAll_account hdrawn.fine.keyed w g (hnext ▸ hdrawn.exist)
  refine ⟨g.foldl (addOperatorLocked w) oc₁, ?_, hkeeps.fine hdrawn.fine hkeyed, ?_, fun e he =>
    ⟨hdrawn.positive e he, ?_⟩⟩
  · rw [OperatorController.promoteWaitingOperator, hdraw]
    rfl
  · rw [waiting_same hkeeps.same hkeeps.wop]
    exact hdrawn.waiting
  intro o ho
  split
  next hs => exact hstarted o (.inl (hdrawn.started e he hs ▸ ho))
  next hs => exact hkeeps.records (hdrawn.cancelled e he (Bool.eq_false_iff.mpr hs) o ho)

lemma fine_put (hf : Fine oc) (hwait : waitable oc (o :: rest) = true)
  (hexist : ∀ x ∈ o :: rest, x < oc.objects.next) (haside : Aside oc oc₁)
  (hwop : oc₁.wop = update oc.wop (oc.levelOf o) (oc.wop (oc.levelOf o) ++ o :: rest))
  (hstatus : oc₁.wopStatus = oc.wopStatus) (hroom : oc.waitingCount (oc.op o).desc + 1 < 2 ^ 64) :
  (waiting oc₁).Perm ((o :: rest) :: waiting oc) ∧
    Fine (oc₁.setWaitingCount (oc.op o).desc (oc.waitingCount (oc.op o).desc + 1)) := by
  have hgroups : ∀ g ∈ groupsOf oc (oc.wop (oc.levelOf o)) ++ [o :: rest], waitable oc g = true := by
    intro g hg
    rcases mem_append.mp hg with hg | hg
    · exact hf.grouped g (mem_waiting hg)
    · exact mem_singleton.mp hg ▸ hwait
  have hcut : groupsOf oc (oc.wop (oc.levelOf o) ++ o :: rest) =
      groupsOf oc (oc.wop (oc.levelOf o)) ++ [o :: rest] := by
    rw [← groupsOf_flatten hgroups, flatten_append, flatten_groupsOf, flatten_singleton]
  have hperm : (waiting oc₁).Perm ((o :: rest) :: waiting oc) := by
    refine waiting_perm (oc.levelOf o) ?_ fun level' hne => ?_
    · rw [groupsOf_same haside.same, hwop, update_self, hcut]
      exact perm_append_singleton _ _
    · rw [groupsOf_same haside.same, hwop, update_of_ne hne]
  have hcount : ∀ desc, oc₁.waitingCount desc = oc.waitingCount desc := fun desc => by
    unfold waitingCount
    rw [hstatus]
  let oc₂ := oc₁.setWaitingCount (oc.op o).desc (oc.waitingCount (oc.op o).desc + 1)
  have hsame : Same oc oc₂ := haside.same.trans (Same.of_objects rfl)
  have hkeep : waiting oc₂ = waiting oc₁ := waiting_setWaitingCount oc₁ _ _
  have hnext : oc₂.objects.next = oc.objects.next := congrArg Heap.next haside.objects
  refine ⟨hperm, fun g hg => ?_, fun g hg x hx => ?_, fun desc => ?_, fun desc => ?_,
    hf.keyed.aside (haside.trans ⟨rfl, rfl, rfl⟩)⟩
  · rw [waitable_same hsame]
    rcases mem_cons.mp (hperm.mem_iff.mp (hkeep ▸ hg)) with rfl | hg
    · exact hwait
    · exact hf.grouped g hg
  · rw [hnext]
    rcases mem_cons.mp (hperm.mem_iff.mp (hkeep ▸ hg)) with rfl | hg
    · exact hexist x hx
    · exact hf.exist g hg x hx
  · have hone : describes oc desc (o :: rest) = decide ((oc.op o).desc = desc) := decide_eq_decide.mpr Option.some_inj
    rw [hkeep, describes_same hsame, hperm.countP_eq, countP_cons, ← hf.counter, waitingCount_set, hcount, hone]
    by_cases e : desc = (oc.op o).desc
    · rw [if_pos e, ← e, decide_eq_true rfl, if_pos rfl]
      rw [← e] at hroom
      exact Nat.mod_eq_of_lt hroom
    rw [if_neg e, decide_eq_false (Ne.symm e)]
    rfl
  rw [waitingCount_set]
  split
  · exact Nat.mod_lt _ (Nat.two_pow_pos 64)
  · exact hcount desc ▸ hf.bounded desc

lemma addWaitingLocked_account (hf : Fine oc) (hwait : waitable oc ops = true)
  (hexist : ∀ o ∈ ops, o < oc.objects.next) (hmax : w.schedulerMaxWaitingOperator < 2 ^ 64) :
  ∃ b oc₁, oc.addWaitingLocked w ops = some (b, oc₁) ∧ Fine oc₁ ∧
    (waiting oc₁).Perm (if b then ops :: waiting oc else waiting oc) := by
  unfold addWaitingLocked
  split
  · have hkeeps := keeps_recordAll oc .cancel ops
    exact ⟨false, _, rfl, hkeeps.fine hf (hf.keyed.aside (aside_record oc .cancel ops).1),
      List.Perm.of_eq (waiting_same hkeeps.same hkeeps.wop)⟩
  cases ops with
  | nil => cases hwait
  | cons o rest =>
    dsimp only
    split
    · exact ⟨false, oc, rfl, hf, List.Perm.refl _⟩
    next hroom =>
      have haside := (aside_putOperator oc o).trans
        (aside_putAll (rest.take 1) (oc.putOperator o))
      have hstatus : ((rest.take 1).foldl putOperator (oc.putOperator o)).wopStatus = oc.wopStatus := by
        match rest with
        | [] => rfl
        | _ :: _ => rfl
      obtain ⟨hperm, hfine⟩ := fine_put hf hwait hexist haside (RunningOperators.wop_putAll hwait) hstatus
        (Nat.lt_of_le_of_lt (Nat.not_le.mp hroom) hmax)
      refine ⟨true, _, rfl, hfine, ?_⟩
      rw [waiting_setWaitingCount]
      exact hperm

structure Inv (s : State) : Prop where
  fine : Fine s.oc
  noUnderflow : ∀ e ∈ s.taken, 0 < e.counter
  account : s.accepted.Perm (waiting s.oc ++ s.taken.map Taken.group)

variable {s : State} {c : Call}

lemma Inv.accounted (hi : Inv s) : Accounted s := ⟨hi.fine.grouped, hi.fine.counter, hi.noUnderflow, hi.account⟩

lemma Inv.extend (hi : Inv s) {news : List (List Nat)} {log : List Taken} (hfine : Fine oc₁)
  (hpos : ∀ e ∈ log, 0 < e.counter) (hperm : (waiting s.oc ++ news).Perm (log.map Taken.group ++ waiting oc₁)) :
  Inv ⟨oc₁, s.accepted ++ news, s.taken ++ log⟩ := by
  refine ⟨hfine, fun e he => ?_, ?_⟩
  · rcases mem_append.mp he with he | he
    · exact hi.noUnderflow e he
    · exact hpos e he
  have hmove : (waiting s.oc ++ s.taken.map Taken.group ++ news).Perm
      (waiting s.oc ++ news ++ s.taken.map Taken.group) := by
    rw [append_assoc, append_assoc]
    exact perm_append_comm.append_left _
  refine (hi.account.append_right news).trans (hmove.trans ((hperm.append_right _).trans ?_))
  rw [map_append, append_assoc]
  have hswap : (log.map Taken.group ++ (waiting oc₁ ++ s.taken.map Taken.group)).Perm
      (waiting oc₁ ++ s.taken.map Taken.group ++ log.map Taken.group) := perm_append_comm
  rw [append_assoc] at hswap
  exact hswap

lemma step_account (hi : Inv s) (hp : c.Proper s.oc) : ∃ t, step s c = some t ∧ Inv t ∧ Handled s c t := by
  cases c with
  | addWaitingOperator w ops draws =>
    obtain ⟨hwait, hexist, hmax⟩ := hp
    obtain ⟨b, oc₁, hlocked, hfine, hperm⟩ := addWaitingLocked_account hi.fine hwait hexist hmax
    cases b with
    | false =>
      refine ⟨⟨oc₁, s.accepted ++ [], s.taken ++ []⟩, ?_, hi.extend hfine (fun e he => (by cases he)) ?_, ?_⟩
      · simp only [step, Call.run, Call.accepts, Call.takes, OperatorController.addWaitingOperator, hlocked]
        rfl
      · rw [append_nil]
        exact hperm.symm
      simp only [Handled, Call.takes, hlocked]
      exact fun e he => (by cases he)
    | true =>
      obtain ⟨oc₂, hpromote, hfine₂, hperm₂, hlog⟩ := promote_account hfine w draws
      refine ⟨⟨oc₂, s.accepted ++ [ops], s.taken ++ drawLog w draws oc₁⟩, ?_,
        hi.extend hfine₂ (fun e he => (hlog e he).1) ?_, ?_⟩
      · simp only [step, Call.run, Call.accepts, Call.takes, OperatorController.addWaitingOperator, hlocked, hpromote]
        rfl
      · exact (perm_append_singleton ops _).trans (hperm.symm.trans hperm₂)
      simp only [Handled, Call.takes, hlocked]
      exact fun e he => (hlog e he).2
  | promoteWaitingOperator w draws =>
    obtain ⟨oc₁, hpromote, hfine, hperm, hlog⟩ := promote_account hi.fine w draws
    refine ⟨⟨oc₁, s.accepted ++ [], s.taken ++ drawLog w draws s.oc⟩, ?_,
      hi.extend hfine (fun e he => (hlog e he).1) ?_, fun e he => (hlog e he).2⟩
    · simp only [step, Call.run, Call.accepts, Call.takes, hpromote]
      rfl
    rw [append_nil]
    exact hperm

end

/-- **The waiting operators are accounted for.** -/
theorem waiting_operators_accounted (operators : List Operator) (calls : List Call)
  (hproper : Runs.Along step (fun s c => c.Proper s.oc) (init operators) calls) :
  (∃ s, Runs.exec step (init operators) calls = some s ∧ Accounted s) ∧
    Runs.Steps step Handled (init operators) calls := by
  have hinit : Inv (init operators) := ⟨fine_new operators, fun e he => (by cases he), List.Perm.refl _⟩
  constructor
  · obtain ⟨s, hs, hi⟩ := Runs.exec_total Inv (fun s c hi hp => by
      obtain ⟨t, ht, hit, -⟩ := step_account hi hp
      exact ⟨t, ht, hit⟩) hinit hproper
    exact ⟨s, hs, hi.accounted⟩
  refine Runs.steps_of_inv Inv (fun s c t hi hp ht => ?_) hinit hproper
  obtain ⟨t', ht', hit, hhandled⟩ := step_account hi hp
  obtain rfl := Option.some.inj (ht'.symm.trans ht)
  exact ⟨hit, hhandled⟩

def cancelledPair : List Call := [.addWaitingOperator RunningOperators.twoRegions [2, 3] [],
    .addWaitingOperator RunningOperators.twoRegions [0] [⟨some .highPriority, true⟩, ⟨some .normalPriority, false⟩]]

theorem waiting_operators_accounted_pair :
  ∃ s, Runs.exec step (init RunningOperators.fourOperators) cancelledPair = some s ∧ Accounted s ∧
    s.taken = [⟨[2, 3], false, 1⟩, ⟨[0], true, 1⟩] ∧ s.oc.opRecords = [(3, .cancel), (2, .cancel)] := by
  have hrun : (Runs.exec step (init RunningOperators.fourOperators) cancelledPair).map
      (fun s => (s.taken, s.oc.opRecords)) =
      some ([⟨[2, 3], false, 1⟩, ⟨[0], true, 1⟩], [(3, .cancel), (2, .cancel)]) := by decide +kernel
  obtain ⟨⟨s, hs, hacc⟩, -⟩ := waiting_operators_accounted RunningOperators.fourOperators cancelledPair
    (by decide +kernel)
  rw [hs] at hrun
  obtain ⟨htaken, hrecords⟩ := Prod.ext_iff.mp (Option.some.inj hrun)
  exact ⟨s, hs, hacc, htaken, hrecords⟩

end PD.WaitingOperators
