import PD.Lib.Runs
import PD.Schedule.OperatorController

/-! # Invariants of the running operators -/

namespace PD.RunningOperators
open List Option SortedMap Function OperatorController

structure State where
  oc : OperatorController
  groups : List (List Nat)

inductive Call where
  | addOperator (w : World) (exceeds : Bool) (ops : List Nat)
  | addWaitingOperator (w : World) (ops : List Nat) (draws : List Draw)
  | promoteWaitingOperator (w : World) (draws : List Draw)
  | removeOperator (o : Nat)
  | removeTimeoutOperator (o : Nat)

def init (operators : List Operator) : State := ⟨.new operators, []⟩

def step (s : State) : Call → Option State
  | .addOperator w exceeds ops => some ⟨(s.oc.addOperator w exceeds ops).2, s.groups⟩
  | .addWaitingOperator w ops draws =>
    (s.oc.addWaitingOperator w ops draws).map fun r => ⟨r.2, if r.1 then ops :: s.groups else s.groups⟩
  | .promoteWaitingOperator w draws => (s.oc.promoteWaitingOperator w draws).map fun oc => ⟨oc, s.groups⟩
  | .removeOperator o => some ⟨s.oc.removeOperatorLocked o, s.groups⟩
  | .removeTimeoutOperator o => some ⟨s.oc.removeOperatorLocked o, s.groups⟩

variable (oc : OperatorController)

def waitable : List Nat → Bool
  | [o] => !oc.isMerge o
  | [o, o'] => oc.isMerge o && decide (oc.levelOf o' = oc.levelOf o)
  | _ => false

def distinct (ops : List Nat) : Prop := (ops.map oc.regionOf).Nodup

instance distinctDecidable (oc : OperatorController) (ops : List Nat) : Decidable (distinct oc ops) :=
  inferInstanceAs (Decidable (List.Nodup _))

def Call.Proper (s : State) : Call → Prop
  | .addOperator _ _ ops => distinct s.oc ops
  | .addWaitingOperator _ ops _ => distinct s.oc ops ∧ waitable s.oc ops = true
  | _ => True

instance properDecidable (s : State) : ∀ c : Call, Decidable (c.Proper s)
  | .addOperator .. => inferInstanceAs (Decidable (distinct ..))
  | .addWaitingOperator .. => inferInstanceAs (Decidable (_ ∧ _))
  | .promoteWaitingOperator .. => .isTrue trivial
  | .removeOperator _ => .isTrue trivial
  | .removeTimeoutOperator _ => .isTrue trivial

def Call.world : Call → Option World
  | .addOperator w .. => some w
  | .addWaitingOperator w .. => some w
  | .promoteWaitingOperator w _ => some w
  | .removeOperator _ => none
  | .removeTimeoutOperator _ => none

def Call.offers (t : State) : Call → List (List Nat)
  | .addOperator _ _ ops => [ops]
  | .addWaitingOperator .. => t.groups
  | .promoteWaitingOperator .. => t.groups
  | .removeOperator _ => []
  | .removeTimeoutOperator _ => []

def running (o : Nat) : Prop := oc.operators.lookup (oc.regionOf o) = some o

structure Sound (s : State) : Prop where
  oneEach : (s.oc.operators.values.map s.oc.regionOf).Nodup
  counts : ∀ mask, s.oc.operatorCount mask = (s.oc.operators.values.filter fun o => (s.oc.op o).kind.has mask).length

structure Correct (s : State) (c : Call) (t : State) : Prop where
  allOrNone : ∃ g, (g = [] ∨ g ∈ c.offers t) ∧ (∀ o ∈ g, running t.oc o) ∧ ∀ o, running t.oc o → o ∈ g ∨ running s.oc o
  replaced : ∀ r o o', s.oc.operators.lookup r = some o → t.oc.operators.lookup r = some o' → o' ≠ o →
    (s.oc.levelOf o).val < (s.oc.levelOf o').val ∧ ∃ w region, c.world = some w ∧
      w.getRegion r = some region ∧ region.getMeta.getVersion = (s.oc.op o').getVersion ∧
      region.getMeta.getConfVer = (s.oc.op o').getConfVer

def Queued (groups : List (List Nat)) (oc : OperatorController) : Prop :=
  ∀ level, ∃ gs : List (List Nat), oc.wop level = gs.flatten ∧ ∀ g ∈ gs, g ∈ groups

section
variable {groups : List (List Nat)} {oc oc₁ oc₂ : OperatorController} {w : World} {o : Nat}
  {level : PriorityLevel}
variable {g rest ops : List Nat}

lemma waitable_same (hs : Same oc oc₁) (g : List Nat) : waitable oc₁ g = waitable oc g := by
  unfold waitable
  split
  · rw [hs.isMerge]
  · rw [hs.isMerge, hs.levelOf, hs.levelOf]
  · rfl

lemma distinct_same (hs : Same oc oc₁) (g : List Nat) : distinct oc₁ g ↔ distinct oc g := by
  unfold distinct
  rw [map_congr_left fun o _ => hs.regionOf o]

lemma Queued.setBucket (h : Queued groups oc) (level : PriorityLevel) {gs : List (List Nat)}
  (hgs : ∀ g ∈ gs, g ∈ groups) : Queued groups (oc.setBucket level gs.flatten) := by
  intro level'
  by_cases e : level' = level
  · subst e
    exact ⟨gs, update_self .., hgs⟩
  obtain ⟨gs', hwop, hgs'⟩ := h level'
  exact ⟨gs', (update_of_ne e ..).trans hwop, hgs'⟩

lemma Queued.of_wop (h : Queued groups oc) (hwop : oc₁.wop = oc.wop) : Queued groups oc₁ := by
  unfold Queued
  rw [hwop]
  exact h

lemma getOperator_of_waitable (hg : waitable oc g = true) (hwop : oc.wop level = g ++ rest) :
  oc.getOperator (some level) = some (g, oc.setBucket level rest) := by
  match g, hg with
  | [o], hg =>
    have hmerge : oc.isMerge o = false := by simpa [waitable] using hg
    simp only [getOperator, hwop, singleton_append, hmerge]
    rfl
  | [o, o'], hg =>
    have hmerge : oc.isMerge o = true := (Bool.and_eq_true_iff.mp hg).1
    simp only [getOperator, hwop, cons_append, nil_append, hmerge, if_true]

lemma getOperator_of_empty (hwop : oc.wop level = []) : oc.getOperator (some level) = some ([], oc) := by
  simp only [getOperator, hwop]

lemma getOperator_spec (h : Queued groups oc) (hw : ∀ g ∈ groups, waitable oc g = true) (pick : Option PriorityLevel) :
  ∃ g oc₁, oc.getOperator pick = some (g, oc₁) ∧ Aside oc oc₁ ∧ Queued groups oc₁ ∧ (g = [] ∨ g ∈ groups) := by
  cases pick with
  | none => exact ⟨[], oc, rfl, Aside.refl oc, h, .inl rfl⟩
  | some level =>
    obtain ⟨gs, hwop, hgs⟩ := h level
    cases gs with
    | nil => exact ⟨[], oc, getOperator_of_empty hwop, Aside.refl oc, h, .inl rfl⟩
    | cons g gs =>
      have hg := hgs g mem_cons_self
      refine ⟨g, oc.setBucket level gs.flatten, getOperator_of_waitable (hw g hg) hwop, ⟨rfl, rfl, rfl⟩, ?_, .inr hg⟩
      exact h.setBucket level fun g' hg' => hgs g' (mem_cons_of_mem _ hg')

lemma drawGroup_spec (h : Queued groups oc) (hw : ∀ g ∈ groups, waitable oc g = true) (draws : List Draw) :
  ∃ g oc₁, drawGroup w draws oc = some (g, oc₁) ∧ Aside oc oc₁ ∧ Queued groups oc₁ ∧
    (g = [] ∨ (g ∈ groups ∧ oc.checkAddOperator w g = true)) := by
  induction draws generalizing oc with
  | nil => exact ⟨[], oc, rfl, Aside.refl oc, h, .inl rfl⟩
  | cons d draws ih =>
    obtain ⟨g, oc₁, hget, haside, hqueued, hg⟩ := getOperator_spec h hw d.bucket
    rw [drawGroup, hget]
    cases g with
    | nil => exact ⟨[], oc₁, rfl, haside, hqueued, .inl rfl⟩
    | cons o rest =>
      have hmem : (o :: rest) ∈ groups := hg.resolve_left (cons_ne_nil o rest)
      show ∃ g oc₂, (if (d.exceeds || !oc₁.checkAddOperator w (o :: rest)) = true then
        drawGroup w draws ((oc₁.recordAll .cancel (o :: rest)).taken o)
        else some (o :: rest, oc₁.taken o)) = some (g, oc₂) ∧ _
      split
      · -- cancelled
        obtain ⟨hrecord, hwop⟩ := aside_record oc₁ .cancel (o :: rest)
        have haside₂ : Aside oc ((oc₁.recordAll .cancel (o :: rest)).taken o) :=
          haside.trans (hrecord.trans ⟨rfl, rfl, rfl⟩)
        have hqueued₂ : Queued groups ((oc₁.recordAll .cancel (o :: rest)).taken o) := hqueued.of_wop hwop
        obtain ⟨g, oc₃, hdraw, haside₃, hqueued₃, hg₃⟩ := ih hqueued₂
          fun g hg => (waitable_same haside₂.same g).trans (hw g hg)
        rw [haside₂.check] at hg₃
        exact ⟨g, oc₃, hdraw, haside₂.trans haside₃, hqueued₃, hg₃⟩
      next hok =>
        obtain ⟨_, hcheck⟩ : d.exceeds = false ∧ oc₁.checkAddOperator w (o :: rest) = true := by simpa using hok
        rw [haside.check] at hcheck
        exact ⟨o :: rest, oc₁.taken o, rfl, haside.trans ⟨rfl, rfl, rfl⟩, hqueued.of_wop rfl, .inr ⟨hmem, hcheck⟩⟩

lemma Queued.put (h : Queued groups oc) (level : PriorityLevel)
  (hwop : oc₁.wop = update oc.wop level (oc.wop level ++ ops)) : Queued (ops :: groups) oc₁ := by
  intro level'
  rw [hwop]
  obtain ⟨gs, hgs, hmem⟩ := h level'
  by_cases e : level' = level
  · subst e
    refine ⟨gs ++ [ops], ?_, fun g hg => ?_⟩
    · rw [update_self, hgs, flatten_append]
      simp
    rcases mem_append.mp hg with hg | hg
    · exact mem_cons_of_mem _ (hmem g hg)
    rw [mem_singleton.mp hg]
    exact mem_cons_self
  · exact ⟨gs, (update_of_ne e ..).trans hgs, fun g hg => mem_cons_of_mem _ (hmem g hg)⟩

lemma wop_putAll (hwait : waitable oc (o :: rest) = true) : ((rest.take 1).foldl putOperator (oc.putOperator o)).wop =
  update oc.wop (oc.levelOf o) (oc.wop (oc.levelOf o) ++ o :: rest) := by
  match rest, hwait with
  | [], _ => rfl
  | [o'], hwait =>
    have hlevel : oc.levelOf o' = oc.levelOf o := of_decide_eq_true (Bool.and_eq_true_iff.mp hwait).2
    show update (update oc.wop (oc.levelOf o) (oc.wop (oc.levelOf o) ++ [o]))
      (oc.levelOf o') (update oc.wop (oc.levelOf o) (oc.wop (oc.levelOf o) ++ [o]) (oc.levelOf o') ++ [o']) = _
    rw [hlevel, update_self, update_idem, append_assoc]
    rfl

lemma addWaitingLocked_spec (h : Queued groups oc) (hwait : waitable oc ops = true) :
  ∃ b oc₁, oc.addWaitingLocked w ops = some (b, oc₁) ∧ Aside oc oc₁ ∧
    Queued (if b then ops :: groups else groups) oc₁ := by
  unfold addWaitingLocked
  split
  · obtain ⟨hrecord, hwop⟩ := aside_record oc .cancel ops
    exact ⟨false, _, rfl, hrecord, h.of_wop hwop⟩
  cases ops with
  | nil => cases hwait
  | cons o rest =>
    dsimp only
    split
    · exact ⟨false, oc, rfl, Aside.refl oc, h⟩
    refine ⟨true, _, rfl, ?_, h.put (oc.levelOf o) (wop_putAll hwait)⟩
    exact ((aside_putOperator oc o).trans
      (aside_putAll (rest.take 1) _)).trans ⟨rfl, rfl, rfl⟩

structure Inv (s : State) : Prop where
  keyed : Keyed s.oc
  counted : OperatorController.Counted s.oc
  queued : Queued s.groups s.oc
  groups : ∀ g ∈ s.groups, waitable s.oc g = true ∧ distinct s.oc g

variable {s t : State} {c : Call}

lemma inv_init (operators : List Operator) : Inv (init operators) :=
  ⟨fun r o h => (by cases h), rfl, fun level => ⟨[], rfl, fun g hg => (by cases hg)⟩, fun g hg => (by cases hg)⟩

lemma Inv.sound (hi : Inv s) : Sound s := by
  refine ⟨?_, fun mask => ?_⟩
  · -- the regions of the values are the keys
    have hkeys : s.oc.operators.values.map s.oc.regionOf = s.oc.operators.keys := by
      unfold SortedMap.values SortedMap.keys
      rw [List.map_map]
      refine map_congr_left fun e he => ?_
      exact hi.keyed e.1 e.2 (mem_entries.mp he)
    rw [hkeys]
    exact keys_nodup _
  unfold operatorCount
  rw [hi.counted, sumKeys_tally, countP_map, countP_eq_length_filter]
  rfl

structure Starts (oc oc₁ : OperatorController) (w : World) (g : List Nat) : Prop where
  became : Became oc oc₁ (oc.withGroup g)
  keyed : Keyed oc₁
  distinct : distinct oc g
  check : oc.checkAddOperator w g = true

lemma starts_nil (h : Aside oc oc₁) (hk : Keyed oc) (hc : OperatorController.Counted oc) (hwop : oc₁.wop = oc.wop) :
  Starts oc oc₁ w [] :=
  ⟨⟨h.same, h.operators, hc.aside h, hwop⟩, hk.aside h, nodup_nil, rfl⟩

lemma starts_addAll (hk : Keyed oc) (hc : OperatorController.Counted oc) (hd : distinct oc g)
  (hcheck : oc.checkAddOperator w g = true) : Starts oc (g.foldl (addOperatorLocked w) oc) w g := by
  obtain ⟨hb, hk'⟩ := addAll_spec hk hc w g
  exact ⟨hb, hk', hd, hcheck⟩

lemma promote_spec (hi : Inv s) (w : World) (draws : List Draw) :
  ∃ g oc₁ oc₂, s.oc.promoteWaitingOperator w draws = some oc₂ ∧ (g = [] ∨ g ∈ s.groups) ∧
    Aside s.oc oc₁ ∧ Queued s.groups oc₁ ∧ Starts oc₁ oc₂ w g := by
  obtain ⟨g, oc₁, hdraw, haside, hqueued, hg⟩ :=
    drawGroup_spec (w := w) hi.queued (fun g hg => (hi.groups g hg).1) draws
  have hk := hi.keyed.aside haside
  have hc := hi.counted.aside haside
  refine ⟨g, oc₁, g.foldl (addOperatorLocked w) oc₁, ?_, ?_, haside, hqueued, ?_⟩
  · rw [OperatorController.promoteWaitingOperator, hdraw]
    rfl
  · exact hg.imp_right And.left
  rcases hg with rfl | ⟨hmem, hcheck⟩
  · exact starts_nil (Aside.refl oc₁) hk hc rfl
  rw [← haside.check] at hcheck
  exact starts_addAll hk hc ((distinct_same haside.same g).mpr (hi.groups g hmem).2) hcheck

lemma canAdd_of_check (h : oc.checkAddOperator w g = true) (ho : o ∈ g) :
  ∃ region, w.getRegion (oc.regionOf o) = some region ∧
    region.getMeta.getVersion = (oc.op o).getVersion ∧ region.getMeta.getConfVer = (oc.op o).getConfVer ∧
    ∀ old, oc.operators.lookup (oc.regionOf o) = some old → (oc.levelOf old).val < (oc.levelOf o).val := by
  have hcan := List.all_eq_true.mp h o ho
  unfold canAdd at hcan
  split at hcan
  · cases hcan
  next region hregion =>
    split at hcan
    · cases hcan
    next hepoch =>
      obtain ⟨hver, hconf⟩ := not_or.mp hepoch
      refine ⟨region, hregion, not_not.mp hver, not_not.mp hconf, fun old hold => ?_⟩
      rw [hold] at hcan
      exact of_decide_eq_true hcan

lemma Starts.lookup_of_mem (h : Starts oc oc₁ w g) (ho : o ∈ g) : oc₁.operators.lookup (oc.regionOf o) = some o := by
  rw [h.became.operators_eq]
  refine lookup_insertAll_of_mem _ ?_ (List.mem_map_of_mem ho)
  rw [List.map_map]
  exact h.distinct

lemma Starts.lookup_of_not (h : Starts oc oc₁ w g) {r : Nat}
  (hr : ∀ o ∈ g, oc.regionOf o ≠ r) : oc₁.operators.lookup r = oc.operators.lookup r := by
  rw [h.became.operators_eq]
  exact lookup_withGroup_of_ne hr

lemma correct_of_starts (haside : Aside s.oc oc₁) (hstart : Starts oc₁ t.oc w g)
  (hworld : c.world = some w) (hoffer : g = [] ∨ g ∈ c.offers t) : Correct s c t := by
  have hops : oc₁.operators = s.oc.operators := haside.operators
  have hregion : ∀ o, oc₁.regionOf o = s.oc.regionOf o := haside.same.regionOf
  refine ⟨⟨g, hoffer, fun o ho => ?_, fun o ho => ?_⟩, fun r o o' hold hnew hne => ?_⟩
  · unfold running
    rw [hstart.became.same.regionOf]
    exact hstart.lookup_of_mem ho
  · unfold running at ho
    rw [hstart.became.same.regionOf] at ho
    by_cases hmem : ∃ x ∈ g, oc₁.regionOf x = oc₁.regionOf o
    · obtain ⟨x, hx, he⟩ := hmem
      have hlook := hstart.lookup_of_mem hx
      rw [he, ho] at hlook
      exact .inl (some.inj hlook ▸ hx)
    push Not at hmem
    rw [hstart.lookup_of_not hmem, hops, hregion] at ho
    exact .inr ho
  by_cases hmem : ∃ x ∈ g, oc₁.regionOf x = r
  · obtain ⟨x, hx, rfl⟩ := hmem
    have hlook := hstart.lookup_of_mem hx
    obtain rfl := some.inj (hnew.symm.trans hlook)
    obtain ⟨region, hget, hver, hconf, hhigher⟩ := canAdd_of_check hstart.check hx
    rw [haside.op] at hver hconf
    have hlt := hhigher o (by rw [hops]; exact hold)
    rw [haside.same.levelOf, haside.same.levelOf] at hlt
    exact ⟨hlt, w, region, hworld, hget, hver, hconf⟩
  push Not at hmem
  rw [hstart.lookup_of_not hmem, hops, hold] at hnew
  exact absurd (some.inj hnew).symm hne

section
variable (haside : Aside s.oc oc₁) (hqueued : Queued t.groups oc₁) (hstart : Starts oc₁ t.oc w g)
  (hgroups : ∀ g ∈ t.groups, waitable s.oc g = true ∧ distinct s.oc g)
include haside hqueued hstart hgroups

lemma inv_of_starts : Inv t := by
  have hs : Same s.oc t.oc := haside.same.trans hstart.became.same
  refine ⟨hstart.keyed, hstart.became.counted, hqueued.of_wop hstart.became.wop, fun g hg => ?_⟩
  obtain ⟨hw, hd⟩ := hgroups g hg
  exact ⟨(waitable_same hs g).trans hw, (distinct_same hs g).mpr hd⟩

lemma step_starts (hworld : c.world = some w) (hoffer : g = [] ∨ g ∈ c.offers t) : Inv t ∧ Correct s c t :=
  ⟨inv_of_starts haside hqueued hstart hgroups, correct_of_starts haside hstart hworld hoffer⟩

end

lemma step_remove (hi : Inv s) (c : Call) (o : Nat) :
  Inv ⟨s.oc.removeOperatorLocked o, s.groups⟩ ∧ Correct s c ⟨s.oc.removeOperatorLocked o, s.groups⟩ := by
  have h := removeOperatorLocked_spec s.oc o
  refine ⟨⟨hi.keyed.removeOperatorLocked o, h.counted, hi.queued.of_wop h.wop, fun g hg => ?_⟩,
    ⟨⟨[], .inl rfl, fun x hx => (by cases hx), fun x hx => .inr ?_⟩, fun r x x' hold hnew hne => ?_⟩⟩
  · obtain ⟨hw, hd⟩ := hi.groups g hg
    exact ⟨(waitable_same h.same g).trans hw, (distinct_same h.same g).mpr hd⟩
  · have hlook := lookup_of_removeOperatorLocked hx
    rw [h.same.regionOf] at hlook
    exact hlook
  have hlook := lookup_of_removeOperatorLocked hnew
  exact absurd (some.inj (hlook.symm.trans hold)) hne

lemma step_correct (hi : Inv s) (hp : c.Proper s) (hs : step s c = some t) : Inv t ∧ Correct s c t := by
  cases c with
  | addOperator w exceeds ops =>
    cases hs
    unfold OperatorController.addOperator
    split
    · obtain ⟨hrecord, hwop⟩ := aside_record s.oc .cancel ops
      have hstart : Starts s.oc (s.oc.recordAll .cancel ops) w [] := starts_nil hrecord hi.keyed hi.counted hwop
      exact step_starts (Aside.refl s.oc) hi.queued hstart hi.groups rfl (.inl rfl)
    next hok =>
      obtain ⟨_, hcheck⟩ : exceeds = false ∧ s.oc.checkAddOperator w ops = true := by simpa using hok
      have hstart := starts_addAll hi.keyed hi.counted hp hcheck
      exact step_starts (Aside.refl s.oc) hi.queued hstart hi.groups rfl (.inr mem_cons_self)
  | addWaitingOperator w ops draws =>
    obtain ⟨hd, hwait⟩ := hp
    obtain ⟨b, oc₁, hlocked, haside, hqueued⟩ := addWaitingLocked_spec (w := w) hi.queued hwait
    simp only [step, OperatorController.addWaitingOperator, hlocked] at hs
    have hk := hi.keyed.aside haside
    have hc := hi.counted.aside haside
    cases b with
    | false =>
      cases hs
      have hstart : Starts oc₁ oc₁ w [] := starts_nil (Aside.refl oc₁) hk hc rfl
      exact step_starts haside hqueued hstart hi.groups rfl (.inl rfl)
    | true =>
      have hgroups : ∀ g ∈ ops :: s.groups, waitable s.oc g = true ∧ distinct s.oc g := by
        intro g hg
        rcases mem_cons.mp hg with rfl | hg
        · exact ⟨hwait, hd⟩
        · exact hi.groups g hg
      have hi₁ : Inv ⟨oc₁, ops :: s.groups⟩ := ⟨hk, hc, hqueued, fun g hg =>
        ⟨(waitable_same haside.same g).trans (hgroups g hg).1, (distinct_same haside.same g).mpr (hgroups g hg).2⟩⟩
      obtain ⟨g, oc₂, oc₃, hpromote, hg, haside₂, hqueued₂, hstart⟩ := promote_spec hi₁ w draws
      simp only at hpromote
      simp only [hpromote] at hs
      cases hs
      exact step_starts (haside.trans haside₂) hqueued₂ hstart hgroups rfl hg
  | promoteWaitingOperator w draws =>
    obtain ⟨g, oc₁, oc₂, hpromote, hg, haside, hqueued, hstart⟩ := promote_spec hi w draws
    simp only [step, hpromote] at hs
    cases hs
    exact step_starts haside hqueued hstart hi.groups rfl hg
  | removeOperator o | removeTimeoutOperator o =>
    cases hs
    exact step_remove hi _ o

end

/-- **Running operators**: one a region, counted, started all or none. -/
theorem running_operators_sound (operators : List Operator) (calls : List Call) (s : State)
  (hproper : Runs.Along step (fun s c => c.Proper s) (init operators) calls)
  (hrun : Runs.exec step (init operators) calls = some s) :
  Sound s ∧ Runs.Steps step Correct (init operators) calls := by
  constructor
  · refine Inv.sound (Runs.exec_inv Inv (fun s c t hi hp hs => ?_) (inv_init operators) hproper hrun)
    exact (step_correct hi hp hs).1
  refine Runs.steps_of_inv Inv (fun s c t hi hp hs => ?_) (inv_init operators) hproper
  exact step_correct hi hp hs

def fourOperators : List Operator := [newOperator "balance-region" 1 (some ⟨1, 1⟩) .opRegion [],
    newOperator "balance-region" 2 (some ⟨1, 1⟩) .opRegion [],
    { newOperator "random-merge" 1 (some ⟨1, 1⟩) .opMerge [] with level := .highPriority },
    { newOperator "random-merge" 2 (some ⟨1, 1⟩) .opMerge [] with level := .highPriority }]

def twoRegions : World where
  getRegion id := if id = 1 ∨ id = 2 then some (newRegionInfo ⟨id, [], [], some ⟨1, 1⟩, []⟩ none) else none
  now := 0
  schedulerMaxWaitingOperator := 5

def replaceByMerge : List Call := [.addOperator twoRegions false [0],
    .addWaitingOperator twoRegions [2, 3] [⟨some .highPriority, false⟩]]

theorem running_operators_sound_merge : ∃ s, Runs.exec step (init fourOperators) replaceByMerge = some s ∧
  s.oc.operators.entries = [(1, 2), (2, 3)] ∧ Sound s ∧
  Runs.Steps step Correct (init fourOperators) replaceByMerge := by
  have hrun : (Runs.exec step (init fourOperators) replaceByMerge).map (fun s => s.oc.operators.entries) =
      some [(1, 2), (2, 3)] := by decide +kernel
  obtain ⟨s, hs, he⟩ := map_eq_some_iff.mp hrun
  exact ⟨s, hs, he, running_operators_sound fourOperators replaceByMerge s (by decide +kernel) hs⟩

/-- two operators for distinct regions that are no merge wait one by one: after the call that hands them
over, the first one runs and the second one does not -/
theorem waiting_pair_splits : distinct (init fourOperators).oc [0, 1] ∧ (Runs.exec step (init fourOperators)
  [.addWaitingOperator twoRegions [0, 1] [⟨some .normalPriority, false⟩]]).map
    (fun s => (s.groups, s.oc.operators.entries, s.oc.wop .normalPriority)) = some ([[0, 1]], [(1, 0)], [1]) := by
  decide +kernel

end PD.RunningOperators
