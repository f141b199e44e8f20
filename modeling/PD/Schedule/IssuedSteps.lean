import PD.Schedule.Placements

/-! # The steps that are issued -/

namespace PD
open List Option OperatorStep

def Operator.Issues (op : Operator) (region r : RegionInfo) (s : OperatorStep) : Prop :=
  ∃ n o, applyOperator n region op = some (r, o) ∧ (o.check r).1 = some s

section
variable {region r : RegionInfo} {op o : Operator} {s a : OperatorStep} {rest : List OperatorStep}
  {I : RegionInfo → List OperatorStep → Prop}

section
variable (hdone : ∀ r s rest, I r (s :: rest) → s.isFinish r = true → I r rest)
  (happly : ∀ r s rest r', I r (s :: rest) → s.apply r = some r' → I r' (s :: rest))
include hdone

lemma issued_of_check (h : I r o.rest) (hcheck : (o.check r).1 = some s) :
  ∃ rest, I r (s :: rest) ∧ s.isFinish r = false := by
  generalize hrest : o.rest = steps at h
  induction steps generalizing o with
  | nil =>
    unfold Operator.check at hcheck
    rw [hrest] at hcheck
    cases hcheck
  | cons a rest ih =>
    by_cases ha : a.isFinish r = true
    · rw [check_finished hrest ha] at hcheck
      exact ih hcheck (rest_advance hrest) (hdone r a rest h ha)
    have ha : a.isFinish r = false := by simpa using ha
    unfold Operator.check at hcheck
    rw [hrest, Operator.checkFrom, ha] at hcheck
    obtain rfl : a = s := some.inj hcheck
    exact ⟨rest, h, ha⟩

include happly

lemma applyOperatorStep_inv (h : I region op.rest) (hstep : applyOperatorStep region op = some (r, o)) :
  I r o.rest := by
  generalize hrest : op.rest = steps at h
  induction steps generalizing op with
  | nil =>
    rw [applyOperatorStep_done (isFinish_iff_rest.mpr hrest)] at hstep
    cases hstep
    rw [hrest]
    exact h
  | cons a rest ih =>
    by_cases ha : a.isFinish region = true
    · rw [applyOperatorStep_finished hrest ha] at hstep
      exact ih hstep (rest_advance hrest) (hdone region a rest h ha)
    rw [applyOperatorStep_unfinished hrest (by simpa using ha)] at hstep
    obtain ⟨r', hr', e⟩ := map_eq_some_iff.mp hstep
    obtain ⟨rfl, rfl⟩ := Prod.mk.inj e
    rw [hrest]
    exact happly region a rest r' h hr'

lemma applyOperator_inv {n : Nat} (h : I region op.rest) (hn : applyOperator n region op = some (r, o)) :
  I r o.rest := by
  induction n generalizing region op with
  | zero =>
    cases hn
    exact h
  | succ n ih =>
    by_cases hf : op.isFinish = true
    · rw [applyOperator_done _ hf] at hn
      cases hn
      exact h
    rw [applyOperator_succ n (by simpa using hf)] at hn
    obtain ⟨⟨r', o'⟩, hstep, hn⟩ := bind_eq_some_iff.mp hn
    exact ih (applyOperatorStep_inv hdone happly h hstep) hn

lemma issues_inv (h : I region op.rest) (hs : op.Issues region r s) :
  ∃ rest, I r (s :: rest) ∧ s.isFinish r = false := by
  obtain ⟨n, o, hn, hcheck⟩ := hs
  exact issued_of_check hdone (applyOperator_inv hdone happly h hn) hcheck

end

lemma Operator.Issues.of_advance (hrest : op.rest = a :: rest) (ha : a.isFinish region = true)
  (h : op.advance.Issues region r s) : op.Issues region r s := by
  obtain ⟨n, o, hn, hcheck⟩ := h
  by_cases hadv : op.advance.isFinish = true
  · -- nothing is left to be issued
    rw [applyOperator_done n hadv] at hn
    cases hn
    unfold Operator.check at hcheck
    rw [isFinish_iff_rest.mp hadv] at hcheck
    cases hcheck
  cases n with
  | zero =>
    cases hn
    refine ⟨0, op, rfl, ?_⟩
    rw [check_finished hrest ha]
    exact hcheck
  | succ n =>
    refine ⟨n + 1, o, ?_, hcheck⟩
    rw [applyOperator_succ n (not_finish hrest), applyOperatorStep_finished hrest ha,
      ← applyOperator_succ n (by simpa using hadv)]
    exact hn

lemma Operator.Issues.of_apply {t : RegionInfo} (hrest : op.rest = a :: rest) (ha : a.isFinish region = false)
  (happly : a.apply region = some t) (h : op.Issues t r s) : op.Issues region r s := by
  obtain ⟨n, o, hn, hcheck⟩ := h
  refine ⟨n + 1, o, ?_, hcheck⟩
  rw [applyOperator_succ n (not_finish hrest), applyOperatorStep_unfinished hrest ha, happly]
  exact hn

lemma mem_of_issues (hs : op.Issues region r s) : s ∈ op.rest := by
  obtain ⟨rest, hrest, -⟩ := issues_inv (I := fun _ steps => ∀ x ∈ steps, x ∈ op.rest)
    (fun _ _ _ h _ x hx => h x (mem_cons_of_mem _ hx)) (fun _ _ _ _ h _ => h) (fun _ hx => hx) hs
  exact hrest s mem_cons_self

lemma issues_of_reaches {as bs : List OperatorStep} {J : RegionInfo → Prop} (h : Runs.Reaches runStep J region as r)
  (hrest : op.rest = as ++ s :: bs) (hs : s.isFinish r = false) : op.Issues region r s := by
  induction as generalizing region op with
  | nil =>
    obtain ⟨-, rfl⟩ := h
    refine ⟨0, op, rfl, ?_⟩
    unfold Operator.check
    rw [hrest, nil_append, Operator.checkFrom, hs]
    rfl
  | cons a as ih =>
    obtain ⟨-, t, ht, h⟩ := h
    have hcons : op.rest = a :: (as ++ s :: bs) := hrest
    unfold runStep at ht
    split at ht
    next ha =>
      cases ht
      exact (ih h (rest_advance hcons)).of_advance hcons ha
    next ha =>
      obtain ⟨t', happly, ht⟩ := bind_eq_some_iff.mp ht
      split at ht
      next hend =>
        cases ht
        exact ((ih h (rest_advance hcons)).of_advance hcons hend).of_apply hcons (by simpa using ha) happly
      · cases ht

end

namespace RegionInfo

def Unmixed (r : RegionInfo) (t : Nat) : Prop :=
  ∀ p ∈ r.getPeers, ∀ q ∈ r.getPeers, p.storeId = t → q.storeId = t → p.isLearner = q.isLearner

def VoterOn (r : RegionInfo) (t : Nat) : Prop :=
  (∃ p ∈ r.getPeers, p.storeId = t) ∧ ∀ p ∈ r.getPeers, p.storeId = t → p.isLearner = false

variable {r : RegionInfo} {t : Nat}

lemma unmixed_of_nodup (h : r.storeIds.Nodup) (t : Nat) : r.Unmixed t := by
  intro p hp q hq ep eq
  rw [inj_on_of_nodup_map h hp hq (ep.trans eq.symm)]

lemma unmixed_of_not_mem (h : t ∉ r.storeIds) : r.Unmixed t := by
  intro p hp q hq ep eq
  exact absurd (RegionInfo.mem_storeIds.mpr ⟨p, hp, ep⟩) h

lemma VoterOn.unmixed (h : r.VoterOn t) : r.Unmixed t := by
  intro p hp q hq ep eq
  rw [h.2 p hp ep, h.2 q hq eq]

lemma voterOn_of_unmixed {p : Peer} (h : r.Unmixed t) (hp : p ∈ r.getPeers)
  (ht : p.storeId = t) (hvoter : p.isLearner = false) : r.VoterOn t := by
  refine ⟨⟨p, hp, ht⟩, fun q hq hqt => ?_⟩
  rw [← hvoter]
  exact h q hq p hp hqt ht

end RegionInfo

section
variable {r r' : RegionInfo} {t : Nat} {s : OperatorStep}

lemma applyAdd_some {peer : Peer} (h : applyAdd r peer = some r') :
  peer.storeId ∉ r.storeIds ∧ r'.getPeers = r.getPeers ++ [peer] := by
  unfold applyAdd at h
  split at h
  · cases h
  next hnone =>
    cases h
    exact ⟨RegionInfo.getStorePeer_eq_none.mp (not_not.mp hnone), rfl⟩

lemma apply_peers (h : s.apply r = some r') : r'.getPeers = r.getPeers ∨
    (∃ peer : Peer, peer.storeId ∉ r.storeIds ∧ r'.getPeers = r.getPeers ++ [peer]) ∨
    (∃ a, s = .removePeer a ∧ r'.getPeers = r.getPeers.filter fun p => p.storeId != a) ∨
    ∃ a id, r'.getPeers = (r.getPeers.filter fun p => p.storeId != a) ++ [⟨id, a, false⟩] := by
  cases s with
  | transferLeader =>
    cases h
    exact .inl rfl
  | promoteLearner toStore peerID =>
    rw [OperatorStep.apply] at h
    split at h
    · cases h
    cases h
    exact .inr (.inr (.inr ⟨toStore, peerID, rfl⟩))
  | removePeer fromStore =>
    rw [OperatorStep.apply] at h
    split at h
    · cases h
    split at h
    · cases h
    cases h
    exact .inr (.inr (.inl ⟨fromStore, rfl, rfl⟩))
  | mergeRegion => cases h
  | splitRegion => cases h
  | _ => exact .inr (.inl ⟨_, applyAdd_some h⟩)

lemma apply_unmixed (h : s.apply r = some r') (hu : r.Unmixed t) : r'.Unmixed t := by
  intro p hp q hq ep eq
  rcases apply_peers h with e | ⟨peer, hout, e⟩ | ⟨a, -, e⟩ | ⟨a, id, e⟩
  · rw [e] at hp hq
    exact hu p hp q hq ep eq
  · rw [e] at hp hq
    have hnot : ∀ x ∈ r.getPeers, peer.storeId = t → x.storeId ≠ t := fun x hx ept ext =>
      hout (RegionInfo.mem_storeIds.mpr ⟨x, hx, ext.trans ept.symm⟩)
    rcases mem_append.mp hp with hp | hp
    · rcases mem_append.mp hq with hq | hq
      · exact hu p hp q hq ep eq
      rw [mem_singleton.mp hq] at eq
      exact absurd ep (hnot p hp eq)
    rw [mem_singleton.mp hp] at ep ⊢
    rcases mem_append.mp hq with hq | hq
    · exact absurd eq (hnot q hq ep)
    · rw [mem_singleton.mp hq]
  · rw [e] at hp hq
    exact hu p (mem_filter.mp hp).1 q (mem_filter.mp hq).1 ep eq
  rw [e] at hp hq
  have hgone : ∀ x ∈ r.getPeers.filter (fun p => p.storeId != a), x.storeId ≠ a := fun x hx => by
    simpa using (mem_filter.mp hx).2
  rcases mem_append.mp hp with hp | hp
  · rcases mem_append.mp hq with hq | hq
    · exact hu p (mem_filter.mp hp).1 q (mem_filter.mp hq).1 ep eq
    rw [mem_singleton.mp hq] at eq
    exact absurd (ep.trans eq.symm) (hgone p hp)
  rw [mem_singleton.mp hp] at ep ⊢
  rcases mem_append.mp hq with hq | hq
  · exact absurd (eq.trans ep.symm) (hgone q hq)
  · rw [mem_singleton.mp hq]

lemma apply_voterOn (h : s.apply r = some r') (hv : r.VoterOn t) (hne : s ≠ .removePeer t) : r'.VoterOn t := by
  obtain ⟨p, hp, ht⟩ := hv.1
  have hu := apply_unmixed h hv.unmixed
  have hvoter := hv.2 p hp ht
  rcases apply_peers h with e | ⟨peer, -, e⟩ | ⟨a, rfl, e⟩ | ⟨a, id, e⟩
  · exact RegionInfo.voterOn_of_unmixed hu (e ▸ hp) ht hvoter
  · exact RegionInfo.voterOn_of_unmixed hu (e ▸ mem_append_left _ hp) ht hvoter
  · have hpa : p.storeId ≠ a := fun e' => hne (by rw [← e', ht])
    exact RegionInfo.voterOn_of_unmixed hu (e ▸ mem_filter.mpr ⟨hp, by simpa using hpa⟩) ht hvoter
  by_cases hpa : p.storeId = a
  · refine RegionInfo.voterOn_of_unmixed hu (p := ⟨id, a, false⟩) ?_ (hpa.symm.trans ht) rfl
    rw [e]
    exact mem_append_right _ mem_cons_self
  refine RegionInfo.voterOn_of_unmixed hu ?_ ht hvoter
  rw [e]
  exact mem_append_left _ (mem_filter.mpr ⟨hp, by simpa using hpa⟩)

end

def OperatorStep.makesVoter (t : Nat) : OperatorStep → Bool
  | .addPeer toStore _ => toStore == t
  | .addLightPeer toStore _ => toStore == t
  | .promoteLearner toStore _ => toStore == t
  | _ => false

def Prepared (t : Nat) (r : RegionInfo) (steps : List OperatorStep) : Prop :=
  ∀ as f bs, steps = as ++ .transferLeader f t :: bs → (r.VoterOn t ∧ .removePeer t ∉ as) ∨
      (r.Unmixed t ∧ ∃ as₁ a as₂, as = as₁ ++ a :: as₂ ∧ a.makesVoter t = true ∧ .removePeer t ∉ as₂)

section
variable {region r r' : RegionInfo} {t : Nat} {s : OperatorStep} {rest : List OperatorStep} {op : Operator}

lemma finished_voterOn (hs : s.makesVoter t = true) (hf : s.isFinish r = true) (hu : r.Unmixed t) : r.VoterOn t := by
  have hvoter : ∃ p, r.getStoreVoter t = some p := by
    cases s with
    | addPeer toStore | addLightPeer toStore =>
      obtain rfl : toStore = t := by simpa [makesVoter] using hs
      cases h : r.getStoreVoter toStore with
      | none => simp [isFinish, voterAdded, h] at hf
      | some p => exact ⟨p, rfl⟩
    | promoteLearner toStore =>
      obtain rfl : toStore = t := by simpa [makesVoter] using hs
      cases h : r.getStoreVoter toStore with
      | none => simp [isFinish, h] at hf
      | some p => exact ⟨p, rfl⟩
    | _ => cases hs
  obtain ⟨p, hp⟩ := hvoter
  obtain ⟨hmem, hrole⟩ := mem_filter.mp (List.mem_of_find?_eq_some hp)
  exact RegionInfo.voterOn_of_unmixed hu hmem (by simpa using List.find?_some hp) (by simpa using hrole)

lemma Prepared.done (h : Prepared t r (s :: rest)) (hs : s.isFinish r = true) : Prepared t r rest := by
  intro as f bs e
  rcases h (s :: as) f bs (by rw [e]; rfl) with ⟨hv, hno⟩ | ⟨hu, as₁, a, as₂, has, ha, hno⟩
  · exact .inl ⟨hv, fun hmem => hno (mem_cons_of_mem _ hmem)⟩
  cases as₁ with
  | nil =>
    obtain ⟨rfl, rfl⟩ := List.cons.inj has
    exact .inl ⟨finished_voterOn ha hs hu, hno⟩
  | cons b as₁ =>
    obtain ⟨-, rfl⟩ := List.cons.inj has
    exact .inr ⟨hu, as₁, a, as₂, rfl, ha, hno⟩

lemma Prepared.apply (h : Prepared t r (s :: rest)) (happly : s.apply r = some r') : Prepared t r' (s :: rest) := by
  intro as f bs e
  rcases h as f bs e with ⟨hv, hno⟩ | ⟨hu, hmade⟩
  · refine .inl ⟨apply_voterOn happly hv fun hs => ?_, hno⟩
    cases as with
    | nil =>
      obtain ⟨rfl, -⟩ := List.cons.inj e
      cases hs
    | cons =>
      obtain ⟨rfl, -⟩ := List.cons.inj e
      exact hno (hs ▸ mem_cons_self)
  · exact .inr ⟨apply_unmixed happly hu, hmade⟩

lemma issued_voter (h : Prepared t region op.rest) {f : Nat} (hs : op.Issues region r (.transferLeader f t)) :
  r.VoterOn t := by
  obtain ⟨rest, hrest, -⟩ := issues_inv (I := Prepared t) (fun _ _ _ h hs => h.done hs)
    (fun _ _ _ _ h happly => h.apply happly) h hs
  rcases hrest [] f rest rfl with ⟨hv, -⟩ | ⟨-, as₁, a, as₂, has, -, -⟩
  · exact hv
  · exact absurd has (by simp)

lemma prepared_of_not_mem {steps : List OperatorStep} (h : ∀ f, .transferLeader f t ∉ steps) : Prepared t r steps := by
  intro as f bs e
  refine absurd ?_ (h f)
  rw [e]
  exact mem_append_right _ mem_cons_self

lemma Prepared.append {steps cs : List OperatorStep} (h : Prepared t r steps)
  (hcs : ∀ f, .transferLeader f t ∉ cs) : Prepared t r (steps ++ cs) := by
  intro as f bs e
  rcases append_eq_append_iff.mp e with ⟨es, -, rfl⟩ | ⟨es, rfl, hes⟩
  · exact absurd (mem_append_right es mem_cons_self) (hcs f)
  cases es with
  | nil =>
    refine absurd ?_ (hcs f)
    rw [nil_append] at hes
    exact hes ▸ mem_cons_self
  | cons b es =>
    obtain ⟨rfl, rfl⟩ := List.cons.inj hes
    exact h as f es rfl

lemma prepared_append {as bs : List OperatorStep} (hno : .removePeer t ∉ as ++ bs)
  (has : ∀ f, .transferLeader f t ∉ as)
  (h : r.VoterOn t ∨ r.Unmixed t ∧ ∃ a ∈ as, a.makesVoter t = true) : Prepared t r (as ++ bs) := by
  intro cs f ds e
  have hcs : .removePeer t ∉ cs := fun hmem => hno (e ▸ mem_append_left _ hmem)
  rcases h with hv | ⟨hu, a, ha, hmakes⟩
  · exact .inl ⟨hv, hcs⟩
  obtain ⟨es, rfl⟩ : ∃ es, cs = as ++ es := by
    rcases append_eq_append_iff.mp e with ⟨es, rfl, -⟩ | ⟨es, rfl, hes⟩
    · exact ⟨es, rfl⟩
    cases es with
    | nil => exact ⟨[], by simp⟩
    | cons =>
      obtain ⟨rfl, -⟩ := List.cons.inj hes
      exact absurd (mem_append_right cs mem_cons_self) (has f)
  obtain ⟨as₁, as₂, rfl⟩ := append_of_mem ha
  refine .inr ⟨hu, as₁, a, as₂ ++ es, by simp, hmakes, fun hmem => hcs ?_⟩
  rw [append_assoc]
  exact mem_append_right _ (mem_cons_of_mem _ hmem)

end
end PD
