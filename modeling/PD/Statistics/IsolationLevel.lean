import PD.Statistics.RegionCollection
import Mathlib.Data.List.Dedup

/-! # The isolation level of a region -/

namespace PD.LabelLevelStatistics
open List SortedMap

structure MapOrder (S : Type) where
  order : Nat → List S → List String → List String
  perm : ∀ level stores values, (order level stores values).Perm values

section
-- `value s label` is `s.GetLabelValue(label)`
variable {S : Type} (value : S → String → String) (o : MapOrder S)

def notIsolatedStoresWithLabel (level : Nat) (stores : List S) (label : String) : List (List S) :=
  let values := ((stores.map (value · label)).filter (· ≠ "")).dedup
  ((o.order level stores values).map fun v => stores.filter (value · label = v)).filter (1 < ·.length)

def levelLoop : Nat → List (List S) → List String → Nat
  | _, _, [] => 0
  | level, queueStores, label :: labels =>
    let newQueueStores := queueStores.flatMap (notIsolatedStoresWithLabel value o level · label)
    if newQueueStores.isEmpty then level + 1 else levelLoop (level+1) newQueueStores labels

variable (stores : List S)
variable (labels : List String)

def getRegionLabelIsolationLevel : Nat :=
  if stores.isEmpty || labels.isEmpty then 0 else levelLoop value o 0 [stores] labels

def Alike (a b : S) : Prop := ∀ label ∈ labels, value a label = value b label ∧ value a label ≠ ""
def IsolatedBy : Prop := stores.Pairwise fun a b => ¬ Alike value labels a b

def IsLevel (n : Nat) : Prop :=
  (n = 0 ∧ (stores = [] ∨ ∀ k < labels.length, ¬ IsolatedBy value stores (labels.take (k+1)))) ∨
    ∃ k < labels.length, n = k + 1 ∧ stores ≠ [] ∧ IsolatedBy value stores (labels.take (k+1)) ∧
      ∀ j < k, ¬ IsolatedBy value stores (labels.take (j+1))

variable {value o} {stores : List S} {label : String} {labels : List String} {level n : Nat}

lemma mem_notIsolated {g : List S} : g ∈ notIsolatedStoresWithLabel value o level stores label ↔
  ∃ v, v ≠ "" ∧ g = stores.filter (value · label = v) ∧ 1 < g.length := by
  simp only [notIsolatedStoresWithLabel, mem_filter, List.mem_map, (o.perm _ _ _).mem_iff, mem_dedup,
    decide_eq_true_eq]
  constructor
  · rintro ⟨⟨v, ⟨-, hv⟩, rfl⟩, hlen⟩
    exact ⟨v, hv, rfl, hlen⟩
  rintro ⟨v, hv, rfl, hlen⟩
  obtain ⟨s, hs⟩ := exists_mem_of_length_pos (Nat.lt_of_succ_lt hlen)
  obtain ⟨hs, hsv⟩ := mem_filter.mp hs
  exact ⟨⟨v, ⟨⟨s, hs, by simpa using hsv⟩, hv⟩, rfl⟩, hlen⟩

lemma pairwise_notIsolated {R : S → S → Prop} :
  (∀ g ∈ notIsolatedStoresWithLabel value o level stores label, g.Pairwise R) ↔
    stores.Pairwise fun a b => value a label = value b label → value a label ≠ "" → R a b := by
  constructor
  · intro h
    rw [pairwise_iff_forall_sublist]
    intro a b hab heq hne
    have hsub : [a, b].Sublist (stores.filter (value · label = value a label)) := by
      have hfilter := hab.filter (value · label = value a label)
      simpa [heq] using hfilter
    exact pairwise_iff_forall_sublist.mp (h _ (mem_notIsolated.mpr ⟨_, hne, rfl, hsub.length_le⟩)) hsub
  intro h g hg
  obtain ⟨v, hv, rfl, -⟩ := mem_notIsolated.mp hg
  refine (h.filter _).imp_of_mem fun ha hb hab => ?_
  have ha' := of_decide_eq_true (mem_filter.mp ha).2
  have hb' := of_decide_eq_true (mem_filter.mp hb).2
  exact hab (ha'.trans hb'.symm) (ha' ▸ hv)

lemma isolatedBy_cons (o : MapOrder S) (level : Nat) : IsolatedBy value stores (label :: labels) ↔
  ∀ g ∈ notIsolatedStoresWithLabel value o level stores label, IsolatedBy value g labels := by
  unfold IsolatedBy
  rw [pairwise_notIsolated]
  have hpair : ∀ a b : S, ¬ Alike value (label :: labels) a b ↔
      (value a label = value b label → value a label ≠ "" → ¬ Alike value labels a b) := by
    intro a b
    simp only [Alike, forall_mem_cons]
    tauto
  simp only [hpair]

lemma notIsolated_empty_iff : notIsolatedStoresWithLabel value o level stores label = [] ↔
  IsolatedBy value stores [label] := by
  rw [isolatedBy_cons o level, eq_nil_iff_forall_not_mem]
  refine forall_congr' fun g => imp_congr_right fun hg => ⟨False.elim, fun h => ?_⟩
  obtain ⟨v, -, -, hlen⟩ := mem_notIsolated.mp hg
  match g, hlen, h with
  | a :: b :: _, _, h => exact rel_of_pairwise_cons h mem_cons_self fun _ hl => absurd hl not_mem_nil

lemma levelLoop_spec (level : Nat) (queue : List (List S)) : (levelLoop value o level queue labels = 0 ∧
    ∀ k < labels.length, ¬ ∀ g ∈ queue, IsolatedBy value g (labels.take (k+1))) ∨
  ∃ k < labels.length, levelLoop value o level queue labels = level + k + 1 ∧
    (∀ g ∈ queue, IsolatedBy value g (labels.take (k+1))) ∧
    ∀ j < k, ¬ ∀ g ∈ queue, IsolatedBy value g (labels.take (j+1)) := by
  induction labels generalizing level queue with
  | nil => exact .inl ⟨rfl, by simp⟩
  | cons label labels ih =>
    have hsplit : ∀ ls : List String, (∀ g ∈ queue, IsolatedBy value g (label :: ls)) ↔
        ∀ g ∈ queue.flatMap (notIsolatedStoresWithLabel value o level · label), IsolatedBy value g ls := by
      intro ls
      simp only [mem_flatMap, forall_exists_index, and_imp]
      exact ⟨fun h g q hq hg => (isolatedBy_cons o level).mp (h q hq) g hg,
        fun h q hq => (isolatedBy_cons o level).mpr fun g => h g q hq⟩
    have hfirst : (queue.flatMap (notIsolatedStoresWithLabel value o level · label)).isEmpty = true ↔
        ∀ g ∈ queue, IsolatedBy value g [label] := by
      rw [List.isEmpty_iff, flatMap_eq_nil_iff]
      exact forall₂_congr fun g _ => notIsolated_empty_iff
    rw [levelLoop]
    split
    next h => exact .inr ⟨0, by simp, rfl, hfirst.mp h, by simp⟩
    next h =>
      have hno : ¬ ∀ g ∈ queue, IsolatedBy value g ((label :: labels).take 1) := fun hiso => h (hfirst.mpr hiso)
      rcases ih (level+1) (queue.flatMap (notIsolatedStoresWithLabel value o level · label)) with
        ⟨hzero, hall⟩ | ⟨k, hk, heq, hiso, hmin⟩
      · refine .inl ⟨hzero, fun k hk => ?_⟩
        cases k with
        | zero => exact hno
        | succ k =>
          rw [take_succ_cons, hsplit]
          exact hall k (by simpa using hk)
      refine .inr ⟨k + 1, by simpa using hk, by rw [heq]; omega, ?_, fun j hj => ?_⟩
      · rw [take_succ_cons, hsplit]
        exact hiso
      cases j with
      | zero => exact hno
      | succ j =>
        rw [take_succ_cons, hsplit]
        exact hmin j (by omega)

lemma isLevel (stores : List S) (labels : List String) :
  IsLevel value stores labels (getRegionLabelIsolationLevel value o stores labels) := by
  unfold getRegionLabelIsolationLevel IsLevel
  by_cases hs : stores = []
  · simp [hs]
  by_cases hl : labels = []
  · simp [hl]
  · simpa [hs, hl] using levelLoop_spec 0 [stores]

lemma IsLevel.unique {m : Nat} (h : IsLevel value stores labels n) (h' : IsLevel value stores labels m) : n = m := by
  rcases h with ⟨rfl, h⟩ | ⟨k, hk, rfl, hne, hiso, hmin⟩
  · rcases h' with ⟨rfl, -⟩ | ⟨k', hk', rfl, hne', hiso', -⟩
    · rfl
    · exact absurd hiso' (h.resolve_left hne' k' hk')
  rcases h' with ⟨rfl, h'⟩ | ⟨k', hk', rfl, -, hiso', hmin'⟩
  · exact absurd hiso (h'.resolve_left hne k hk)
  rcases Nat.lt_trichotomy k k' with hlt | rfl | hgt
  · exact absurd hiso (hmin' k hlt)
  · rfl
  · exact absurd hiso' (hmin k' hgt)

lemma isolatedBy_perm {stores' : List S} (h : stores'.Perm stores) :
  IsolatedBy value stores' labels ↔ IsolatedBy value stores labels := by
  refine h.pairwise_iff fun {a b} hab halike => hab fun label hlabel => ?_
  obtain ⟨heq, hne⟩ := halike label hlabel
  exact ⟨heq.symm, heq ▸ hne⟩

lemma isLevel_perm {stores' : List S} (h : stores'.Perm stores) :
  IsLevel value stores' labels n ↔ IsLevel value stores labels n := by
  have hnil : stores' = [] ↔ stores = [] := by rw [← length_eq_zero_iff, ← length_eq_zero_iff, h.length_eq]
  simp only [IsLevel, isolatedBy_perm h, hnil, ne_eq]

end

def observe (l : LabelLevelStatistics) (regionID regionLabelLevel : Nat) : LabelLevelStatistics :=
  let record (counter : SortedMap Nat Int) : LabelLevelStatistics :=
    ⟨l.regionLabelLevelStats.insert regionID regionLabelLevel,
      counter.insert regionLabelLevel ((counter.lookup regionLabelLevel).getD 0 + 1)⟩
  match l.regionLabelLevelStats.lookup regionID with
  | some level =>
    if level = regionLabelLevel then l
    else record (l.labelLevelCounter.insert level ((l.labelLevelCounter.lookup level).getD 0 - 1))
  | none => record l.labelLevelCounter

inductive Call (S : Type) where
  | observe (regionID : Nat) (stores : List S) (labels : List String) (o : MapOrder S)
  | clearDefunctRegion (regionID : Nat)

section
variable {S : Type} (value : S → String → String)

def apply (l : LabelLevelStatistics) : Call S → LabelLevelStatistics
  | .observe regionID stores labels o => l.observe regionID (getRegionLabelIsolationLevel value o stores labels)
  | .clearDefunctRegion regionID => l.clearDefunctRegion regionID

def lastLevel (regionID : Nat) : List (Call S) → Option Nat → Option Nat
  | [], last => last
  | .observe id stores labels o :: calls, last => lastLevel regionID calls
      (if regionID = id then some (getRegionLabelIsolationLevel value o stores labels) else last)
  | .clearDefunctRegion id :: calls, last => lastLevel regionID calls (if regionID = id then none else last)

def Counted (l : LabelLevelStatistics) : Prop :=
  ∀ level, (l.labelLevelCounter.lookup level).getD 0 = l.regionLabelLevelStats.total fun v => if v = level then 1 else 0

variable {l : LabelLevelStatistics}

lemma counted_observe (h : l.Counted) (id new : Nat) : (l.observe id new).Counted := by
  intro level
  have hlevel := h level
  unfold observe
  cases hold : l.regionLabelLevelStats.lookup id with
  | none =>
    simp only [total_insert, erase_of_lookup_none hold, lookup_insert]
    grind
  | some =>
    have herase := total_erase (fun v => if v = level then 1 else 0) hold
    simp only
    split
    · exact hlevel
    next _ =>
      simp only [total_insert, lookup_insert]
      grind

lemma counted_clear (h : l.Counted) (id : Nat) : (l.clearDefunctRegion id).Counted := by
  intro level
  have hlevel := h level
  unfold clearDefunctRegion
  cases hold : l.regionLabelLevelStats.lookup id with
  | none => exact hlevel
  | some =>
    have herase := total_erase (fun v => if v = level then 1 else 0) hold
    simp only [lookup_insert]
    grind

lemma lookup_observe (id new k : Nat) : (l.observe id new).regionLabelLevelStats.lookup k =
  if k = id then some new else l.regionLabelLevelStats.lookup k := by
  unfold observe
  cases hold : l.regionLabelLevelStats.lookup id with
  | none => exact lookup_insert ..
  | some =>
    simp only
    split
    next heq =>
      subst heq
      split
      next hk => rw [hk, hold]
      · rfl
    · exact lookup_insert ..

lemma lookup_clear (id k : Nat) : (l.clearDefunctRegion id).regionLabelLevelStats.lookup k =
  if k = id then none else l.regionLabelLevelStats.lookup k := by
  unfold clearDefunctRegion
  cases hold : l.regionLabelLevelStats.lookup id with
  | none =>
    show l.regionLabelLevelStats.lookup k = _
    split
    next hk => rw [hk, hold]
    · rfl
  | some => exact lookup_erase ..

lemma counted_foldl (calls : List (Call S)) (h : l.Counted) : (calls.foldl (apply value) l).Counted := by
  induction calls generalizing l with
  | nil => exact h
  | cons c _ ih =>
    cases c with
    | observe id => exact ih (counted_observe h id _)
    | clearDefunctRegion id => exact ih (counted_clear h id)

variable {value}

lemma lookup_foldl (calls : List (Call S)) (id : Nat) : (calls.foldl (apply value) l).regionLabelLevelStats.lookup id =
  lastLevel value id calls (l.regionLabelLevelStats.lookup id) := by
  induction calls generalizing l with
  | nil => rfl
  | cons c _ ih =>
    cases c with
    | observe => rw [foldl_cons, ih, apply, lookup_observe, lastLevel]
    | clearDefunctRegion => rw [foldl_cons, ih, apply, lookup_clear, lastLevel]

lemma total_eq_count (m : SortedMap Nat Nat) (level : Nat) :
  m.total (fun v => if v = level then 1 else 0) = (m.values.count level : Int) := by
  unfold SortedMap.total
  induction m.values with
  | nil => rfl
  | cons v _ ih =>
    rw [map_cons, sum_cons, ih, count_cons]
    by_cases hv : v = level <;> simp [hv, Int.add_comm]

/-- **The isolation level and its counter.** -/
theorem isolation_level_and_counter (o o' : MapOrder S) (stores : List S) (labels : List String)
    (calls : List (Call S)) : IsLevel value stores labels (getRegionLabelIsolationLevel value o stores labels) ∧
    (∀ stores', stores'.Perm stores → getRegionLabelIsolationLevel value o' stores' labels =
      getRegionLabelIsolationLevel value o stores labels) ∧
    let l := calls.foldl (apply value) new
    (∀ id, l.regionLabelLevelStats.lookup id = lastLevel value id calls none) ∧
      ∀ level, (l.labelLevelCounter.lookup level).getD 0 = (l.regionLabelLevelStats.values.count level : Int) ∧
        0 ≤ (l.labelLevelCounter.lookup level).getD 0 := by
  refine ⟨isLevel stores labels, fun stores' h => ?_, fun id => lookup_foldl calls id, fun level => ?_⟩
  · exact ((isLevel_perm h).mp (isLevel stores' labels)).unique (isLevel stores labels)
  have hcount := counted_foldl value calls (fun _ => rfl : new.Counted) level
  rw [hcount, total_eq_count]
  exact ⟨rfl, Int.natCast_nonneg _⟩

end
end PD.LabelLevelStatistics
