import Mathlib.Data.Finset.Card
import PD.Lib.Runs
import PD.Schedule.StepEffects

/-! # Placements -/

namespace PD
open List Option OperatorStep Peer Runs

structure Placement where
  stores : Finset Nat
  learners : Finset Nat
  leader : Nat
  pending : Finset Nat
  learners_sub : learners ⊆ stores

namespace Placement
variable (p : Placement)

def add (s : Nat) : Placement :=
  { p with
    stores := insert s p.stores
    learners_sub := p.learners_sub.trans (Finset.subset_insert s p.stores) }

def addLearner (s : Nat) : Placement :=
  { p with
    stores := insert s p.stores
    learners := insert s p.learners
    learners_sub := Finset.insert_subset_insert s p.learners_sub }

def promote (s : Nat) : Placement :=
  { p with
    learners := p.learners.erase s
    learners_sub := (Finset.erase_subset s p.learners).trans p.learners_sub }

def lead (s : Nat) : Placement := { p with leader := s }

def drop (s : Nat) : Placement :=
  { p with
    stores := p.stores.erase s
    learners := p.learners.erase s
    learners_sub := Finset.erase_subset_erase s p.learners_sub }

def place : OperatorStep → Option Placement
  | .transferLeader _ toStore => if toStore ∈ p.stores then some (p.lead toStore) else none
  | .addPeer toStore peerID => if toStore ∈ p.stores ∨ peerID ∈ p.pending then none else some (p.add toStore)
  | .addLightPeer toStore peerID => if toStore ∈ p.stores ∨ peerID ∈ p.pending then none else some (p.add toStore)
  | .addLearner toStore peerID =>
    if toStore ∈ p.stores ∨ peerID ∈ p.pending then none else some (p.addLearner toStore)
  | .addLightLearner toStore peerID =>
    if toStore ∈ p.stores ∨ peerID ∈ p.pending then none else some (p.addLearner toStore)
  | .promoteLearner toStore _ => if toStore ∈ p.learners then some (p.promote toStore) else none
  | .removePeer fromStore =>
    if fromStore ∈ p.stores ∧ p.leader = fromStore then none else some (p.drop fromStore)
  | .mergeRegion .. => none
  | .splitRegion .. => none

lemma ext' {p q : Placement} (hs : p.stores = q.stores) (hl : p.learners = q.learners)
  (hleader : p.leader = q.leader) (hp : p.pending = q.pending) : p = q := by
  cases p
  cases q
  subst hs hl hleader hp
  rfl

section
variable {p : Placement} {s : Nat}

lemma promote_addLearner (h : s ∉ p.stores) : (p.addLearner s).promote s = p.add s :=
  ext' rfl (Finset.erase_insert fun hs => h (p.learners_sub hs)) rfl rfl

lemma add_drop (h : s ∈ p.stores) : (p.drop s).add s = p.promote s := ext' (Finset.insert_erase h) rfl rfl rfl

lemma drop_of_not_mem (h : s ∉ p.stores) : p.drop s = p :=
  ext' (Finset.erase_eq_of_notMem h) (Finset.erase_eq_of_notMem fun hs => h (p.learners_sub hs)) rfl rfl

end
end Placement

namespace RegionInfo

def placement (r : RegionInfo) : Placement where
  stores := r.storeIds.toFinset
  learners := (r.getLearners.map storeId).toFinset
  leader := r.leaderStore
  pending := (r.pendingPeers.map Peer.id).toFinset
  learners_sub := by
    intro s hs
    obtain ⟨p, hp, rfl⟩ := List.mem_map.mp (List.mem_toFinset.mp hs)
    exact List.mem_toFinset.mpr (List.mem_map_of_mem (mem_filter.mp hp).1)

section
variable {r r' : RegionInfo} {s id : Nat}

lemma mem_placement_stores : s ∈ r.placement.stores ↔ s ∈ r.storeIds := List.mem_toFinset

lemma not_pending (h : id ∉ r.placement.pending) : ∀ p ∈ r.pendingPeers, p.id ≠ id := by
  intro p hp e
  exact h (List.mem_toFinset.mpr (List.mem_map.mpr ⟨p, hp, e⟩))

lemma not_mem_pending (h : ∀ p ∈ r.pendingPeers, p.id ≠ id) : id ∉ r.placement.pending := by
  intro hid
  obtain ⟨p, hp, e⟩ := List.mem_map.mp (List.mem_toFinset.mp hid)
  exact h p hp e

lemma card_placement (h : r.storeIds.Nodup) : r.placement.stores.card = r.getPeers.length := by
  show r.storeIds.toFinset.card = _
  rw [toFinset_card_of_nodup h]
  exact length_map _

lemma placement_congr (hpeers : r'.getPeers = r.getPeers) (hpending : r'.pendingPeers = r.pendingPeers)
  (hleader : r'.leaderStore = s) : r'.placement = r.placement.lead s := by
  have hlearners : r'.getLearners = r.getLearners := congrArg (List.filter fun p : Peer => p.isLearner) hpeers
  refine Placement.ext' ?_ ?_ hleader ?_
  · show (r'.getPeers.map storeId).toFinset = _
    rw [hpeers]
    rfl
  · show (r'.getLearners.map storeId).toFinset = _
    rw [hlearners]
    rfl
  show (r'.pendingPeers.map Peer.id).toFinset = _
  rw [hpending]
  rfl

lemma storeIds_withAddPeer (r : RegionInfo) (peer : Peer) :
  (r.withAddPeer peer).storeIds = r.storeIds ++ [peer.storeId] := by
  show (r.getPeers ++ [peer]).map storeId = _
  rw [map_append]
  rfl

lemma placement_addVoter : (r.withAddPeer ⟨id, s, false⟩).placement = r.placement.add s := by
  have hlearners : (r.withAddPeer ⟨id, s, false⟩).getLearners = r.getLearners := by
    show (r.getPeers ++ [_]).filter _ = _
    rw [filter_append]
    exact append_nil _
  refine Placement.ext' ?_ ?_ rfl rfl
  · show (r.withAddPeer ⟨id, s, false⟩).storeIds.toFinset = insert s r.storeIds.toFinset
    rw [storeIds_withAddPeer]
    ext t
    simp
  show ((r.withAddPeer ⟨id, s, false⟩).getLearners.map storeId).toFinset = _
  rw [hlearners]
  rfl

lemma placement_addLearner : (r.withAddPeer ⟨id, s, true⟩).placement = r.placement.addLearner s := by
  have hlearners : (r.withAddPeer ⟨id, s, true⟩).getLearners = r.getLearners ++ [⟨id, s, true⟩] := filter_append ..
  refine Placement.ext' ?_ ?_ rfl rfl
  · show (r.withAddPeer ⟨id, s, true⟩).storeIds.toFinset = insert s r.storeIds.toFinset
    rw [storeIds_withAddPeer]
    ext t
    simp
  show ((r.withAddPeer ⟨id, s, true⟩).getLearners.map storeId).toFinset = insert s (r.getLearners.map storeId).toFinset
  rw [hlearners]
  ext t
  simp

lemma storeIds_withRemoveStorePeer (r : RegionInfo) (s : Nat) :
  (r.withRemoveStorePeer s).storeIds = r.storeIds.filter fun t => t != s := by
  show (r.getPeers.filter _).map storeId = (r.getPeers.map storeId).filter _
  rw [List.filter_map]
  rfl

lemma placement_remove : (r.withRemoveStorePeer s).placement = r.placement.drop s := by
  refine Placement.ext' ?_ ?_ rfl rfl
  · show (r.withRemoveStorePeer s).storeIds.toFinset = r.storeIds.toFinset.erase s
    rw [storeIds_withRemoveStorePeer]
    ext t
    simp [and_comm]
  show (((r.getPeers.filter _).filter _).map storeId).toFinset = ((r.getPeers.filter _).map storeId).toFinset.erase s
  ext t
  simp only [List.mem_toFinset, List.mem_map, mem_filter, Finset.mem_erase]
  constructor
  · rintro ⟨p, ⟨⟨hp, hne⟩, hl⟩, rfl⟩
    exact ⟨by simpa using hne, p, ⟨hp, hl⟩, rfl⟩
  rintro ⟨hne, p, ⟨hp, hl⟩, rfl⟩
  exact ⟨p, ⟨⟨hp, by simpa using hne⟩, hl⟩, rfl⟩

lemma nodup_withAddPeer {peer : Peer} (h : r.storeIds.Nodup) (hs : peer.storeId ∉ r.storeIds) :
  (r.withAddPeer peer).storeIds.Nodup := by
  rw [storeIds_withAddPeer]
  exact nodup_append.mpr ⟨h, nodup_singleton _, fun a ha b hb e => by
    rw [e, mem_singleton.mp hb] at ha
    exact hs ha⟩

lemma nodup_withRemoveStorePeer (h : r.storeIds.Nodup) : (r.withRemoveStorePeer s).storeIds.Nodup := by
  rw [storeIds_withRemoveStorePeer]
  exact h.filter _

lemma getStoreVoter_of_learner (h : r.storeIds.Nodup) (hs : s ∈ r.placement.learners) :
  r.getStoreVoter s = none ∧ r.getStoreLearner s ≠ none := by
  obtain ⟨p, hp, rfl⟩ := List.mem_map.mp (List.mem_toFinset.mp hs)
  obtain ⟨hmem, hlearner⟩ := mem_filter.mp hp
  constructor
  · refine List.find?_eq_none.mpr fun q hq hqs => ?_
    obtain ⟨hq, hvoter⟩ := mem_filter.mp hq
    have e : q = p := inj_on_of_nodup_map h hq hmem (by simpa using hqs)
    rw [e, hlearner] at hvoter
    cases hvoter
  intro hnone
  exact List.find?_eq_none.mp hnone p hp (by simp)

end
end RegionInfo

def runStep (region : RegionInfo) (s : OperatorStep) : Option RegionInfo :=
  if s.isFinish region then some region
  else (s.apply region).bind fun region' => if s.isFinish region' then some region' else none

lemma runSteps_eq_exec (region : RegionInfo) (steps : List OperatorStep) :
  runSteps region steps = Runs.exec runStep region steps := by
  induction steps generalizing region with
  | nil => rfl
  | cons s _ ih =>
    rw [runSteps, exec_cons, runStep]
    split
    · exact ih region
    cases s.apply region with
    | none => rfl
    | some region' =>
      simp only [bind_some]
      split
      · exact ih region'
      · rfl

lemma runStep_of_runSteps {region region' : RegionInfo} {s : OperatorStep}
  (h : runSteps region [s] = some region') : runStep region s = some region' := by
  rw [runSteps_eq_exec] at h
  obtain ⟨t, ht, h⟩ := exec_cons_some.mp h
  rw [ht]
  exact h

section
variable {r : RegionInfo} {p : Placement} {s id : Nat}

lemma runStep_promoteLearner (h : r.storeIds.Nodup) (hs : s ∈ r.placement.learners) :
  runStep r (.promoteLearner s id) = some ((r.withRemoveStorePeer s).withAddPeer ⟨id, s, false⟩) := by
  obtain ⟨hvoter, hlearner⟩ := RegionInfo.getStoreVoter_of_learner h hs
  have hgone : s ∉ (r.withRemoveStorePeer s).storeIds := fun hmem => (mem_storeIds_withRemoveStorePeer.mp hmem).2 rfl
  have hend : (OperatorStep.promoteLearner s id).isFinish
      ((r.withRemoveStorePeer s).withAddPeer ⟨id, s, false⟩) = true := by
    simp [isFinish, getStoreVoter_withAddPeer hgone]
  have hstart : (OperatorStep.promoteLearner s id).isFinish r = false := by simp [isFinish, hvoter]
  have happly : (OperatorStep.promoteLearner s id).apply r =
      some ((r.withRemoveStorePeer s).withAddPeer ⟨id, s, false⟩) := if_neg hlearner
  rw [runStep, hstart, happly]
  simp [hend]

lemma addPeer_step {q : Placement} {step : OperatorStep} {learner : Bool} (hnodup : r.storeIds.Nodup)
  (h : (if s ∈ r.placement.stores ∨ id ∈ r.placement.pending then none else some q) = some p)
  (hrun : s ∉ r.storeIds → (∀ p ∈ r.pendingPeers, p.id ≠ id) →
    runSteps r [step] = some (r.withAddPeer ⟨id, s, learner⟩))
  (hplace : (r.withAddPeer ⟨id, s, learner⟩).placement = q) :
  ∃ r', runStep r step = some r' ∧ r'.storeIds.Nodup ∧ r'.placement = p := by
  split at h
  · cases h
  next hno =>
    obtain rfl := some.inj h
    obtain ⟨hs, hid⟩ := not_or.mp hno
    have hs' : s ∉ r.storeIds := fun hmem => hs (RegionInfo.mem_placement_stores.mpr hmem)
    exact ⟨_, runStep_of_runSteps (hrun hs' (RegionInfo.not_pending hid)), RegionInfo.nodup_withAddPeer hnodup hs',
      hplace⟩

lemma placement_step {step : OperatorStep} (hnodup : r.storeIds.Nodup) (h : r.placement.place step = some p) :
  ∃ r', runStep r step = some r' ∧ r'.storeIds.Nodup ∧ r'.placement = p := by
  cases step with
  | transferLeader fromStore =>
    rw [Placement.place] at h
    split at h
    next hto =>
      obtain rfl := some.inj h
      obtain ⟨r', hrun, hpeers, hpending, hleader⟩ :=
        runSteps_transferLeader fromStore (RegionInfo.mem_placement_stores.mp hto)
      have hstores : r'.storeIds = r.storeIds := congrArg (List.map storeId) hpeers
      exact ⟨r', runStep_of_runSteps hrun, hstores ▸ hnodup, RegionInfo.placement_congr hpeers hpending hleader⟩
    · cases h
  | addPeer => exact addPeer_step hnodup h runSteps_addPeer RegionInfo.placement_addVoter
  | addLearner => exact addPeer_step hnodup h runSteps_addLearner RegionInfo.placement_addLearner
  | promoteLearner toStore =>
    rw [Placement.place] at h
    split at h
    next hs =>
      obtain rfl := some.inj h
      have hgone : toStore ∉ (r.withRemoveStorePeer toStore).storeIds := fun hmem =>
        (mem_storeIds_withRemoveStorePeer.mp hmem).2 rfl
      refine ⟨_, runStep_promoteLearner hnodup hs,
        RegionInfo.nodup_withAddPeer (RegionInfo.nodup_withRemoveStorePeer hnodup) hgone, ?_⟩
      rw [RegionInfo.placement_addVoter, RegionInfo.placement_remove]
      exact Placement.add_drop (r.placement.learners_sub hs)
    · cases h
  | removePeer fromStore =>
    rw [Placement.place] at h
    split at h
    · cases h
    next hno =>
      obtain rfl := some.inj h
      by_cases hs : fromStore ∈ r.storeIds
      · have hlead : r.leaderStore ≠ fromStore := fun e => hno ⟨RegionInfo.mem_placement_stores.mpr hs, e⟩
        exact ⟨_, runStep_of_runSteps (runSteps_removePeer hs hlead),
          RegionInfo.nodup_withRemoveStorePeer hnodup, RegionInfo.placement_remove⟩
      have hdone : (OperatorStep.removePeer fromStore).isFinish r = true := by
        show (r.getStorePeer fromStore).isNone = true
        rw [RegionInfo.getStorePeer_eq_none.mpr hs]
        rfl
      refine ⟨r, if_pos hdone, hnodup, ?_⟩
      exact (Placement.drop_of_not_mem fun hmem => hs (RegionInfo.mem_placement_stores.mp hmem)).symm
  -- light steps are carried out and finished like the others
  | addLightPeer _ _ => exact addPeer_step hnodup h runSteps_addPeer RegionInfo.placement_addVoter
  | addLightLearner _ _ => exact addPeer_step hnodup h runSteps_addLearner RegionInfo.placement_addLearner
  | _ => cases h

end

section
variable {region region' : RegionInfo} {op : Operator} {J : RegionInfo → Prop}

lemma applyOperatorStep_reaches (h : Reaches runStep J region op.rest region') :
  ∃ r o, applyOperatorStep region op = some (r, o) ∧ Reaches runStep J r o.rest region' := by
  generalize hrest : op.rest = steps at h
  induction steps generalizing op with
  | nil =>
    refine ⟨region, op, applyOperatorStep_done (isFinish_iff_rest.mpr hrest), ?_⟩
    rw [hrest]
    exact h
  | cons s _ ih =>
    obtain ⟨hJ, t, ht, h⟩ := h
    unfold runStep at ht
    split at ht
    next hs =>
      obtain rfl := some.inj ht
      rw [applyOperatorStep_finished hrest hs]
      exact ih (rest_advance hrest) h
    next hs =>
      obtain ⟨r, happly, ht⟩ := bind_eq_some_iff.mp ht
      split at ht
      next hend =>
        obtain rfl := some.inj ht
        refine ⟨r, op, ?_, ?_⟩
        · rw [applyOperatorStep_unfinished hrest (by simpa using hs), happly]
          rfl
        rw [hrest]
        exact ⟨h.start, r, if_pos hend, h⟩
      · cases ht

lemma applyOperator_reaches (n : Nat) (h : Reaches runStep J region op.rest region') :
  ∃ r o, applyOperator n region op = some (r, o) ∧ J r := by
  induction n generalizing region op with
  | zero => exact ⟨region, op, rfl, h.start⟩
  | succ n ih =>
    by_cases hf : op.isFinish = true
    · exact ⟨region, op, applyOperator_done _ hf, h.start⟩
    obtain ⟨r, o, hstep, hr⟩ := applyOperatorStep_reaches h
    obtain ⟨r', o', hn, hJ⟩ := ih hr
    refine ⟨r', o', ?_, hJ⟩
    rw [applyOperator_succ n (by simpa using hf), hstep]
    exact hn

lemma executes_of_reaches {I : Placement → Prop} {p : Placement} (hnodup : region.storeIds.Nodup)
  (h : Reaches Placement.place I region.placement op.rest p) :
  ∃ region', Executes region op region' ∧ region'.storeIds.Nodup ∧ region'.placement = p ∧
    ∀ n r o, applyOperator n region op = some (r, o) → r.storeIds.Nodup ∧ I r.placement := by
  obtain ⟨region', hreach, hnodup', hp⟩ := Reaches.simulates
    (fun (r : RegionInfo) (p : Placement) => r.storeIds.Nodup ∧ r.placement = p)
    (fun r p s q hr hq => placement_step hr.1 (hr.2 ▸ hq)) ⟨hnodup, rfl⟩ h
  refine ⟨region', executes_of_runSteps ?_, hnodup', hp, fun n r o hn => ?_⟩
  · rw [runSteps_eq_exec]
    exact hreach.exec_eq
  obtain ⟨r', o', hn', q, ⟨hr, rfl⟩, hI⟩ := applyOperator_reaches n hreach
  obtain ⟨rfl, rfl⟩ := Prod.mk.inj (some.inj (hn.symm.trans hn'))
  exact ⟨hr, hI⟩

end

def OperatorStep.addsPeer : OperatorStep → Bool
  | .addPeer .. | .addLearner .. | .promoteLearner .. | .addLightPeer .. | .addLightLearner .. => true
  | .transferLeader .. | .removePeer .. | .mergeRegion .. | .splitRegion .. => false

lemma addsPeer_createAddPeerSteps (c : Cluster) (a id : Nat) : ∀ s ∈ createAddPeerSteps a id c, s.addsPeer = true := by
  unfold createAddPeerSteps
  split <;> simp [addsPeer]

lemma addsPeer_createAddLightPeerSteps (c : Cluster) (a id : Nat) :
  ∀ s ∈ createAddLightPeerSteps a id c, s.addsPeer = true := by
  unfold createAddLightPeerSteps
  split <;> simp [addsPeer]

def Placement.Safe (n : Nat) (p : Placement) : Prop := n ≤ p.stores.card ∧ p.leader ∈ p.stores

section
variable {n s id : Nat} {p : Placement}

lemma Placement.Safe.add (h : p.Safe n) (s : Nat) : (p.add s).Safe n :=
  ⟨h.1.trans (Finset.card_le_card (Finset.subset_insert s p.stores)), Finset.mem_insert_of_mem h.2⟩

lemma Placement.Safe.lead (h : p.Safe n) (hs : s ∈ p.stores) : (p.lead s).Safe n := ⟨h.1, hs⟩

lemma Placement.Safe.drop (h : p.Safe n) (hs : p.leader ≠ s) (hn : n + 1 ≤ p.stores.card) : (p.drop s).Safe n := by
  refine ⟨?_, Finset.mem_erase.mpr ⟨hs, h.2⟩⟩
  have := Finset.pred_card_le_card_erase (s := p.stores) (a := s)
  show n ≤ (p.stores.erase s).card
  omega

lemma RegionInfo.safe_placement {r : RegionInfo} (hnodup : r.storeIds.Nodup) (hleader : r.leaderStore ∈ r.storeIds)
  (hn : n ≤ r.getPeers.length) : r.placement.Safe n := by
  refine ⟨?_, RegionInfo.mem_placement_stores.mpr hleader⟩
  rw [RegionInfo.card_placement hnodup]
  exact hn

lemma executes_safely {region : RegionInfo} {op : Operator} (hnodup : region.storeIds.Nodup)
  (h : Reaches Placement.place (Placement.Safe n) region.placement op.rest p) :
  ∃ region', Executes region op region' ∧ region'.storeIds.Nodup ∧ (∀ s, s ∈ region'.storeIds ↔ s ∈ p.stores) ∧
    region'.leaderStore = p.leader ∧ ∀ m r o, applyOperator m region op = some (r, o) →
      r.leaderStore ∈ r.storeIds ∧ n ≤ r.getPeers.length := by
  obtain ⟨region', hexec, hnodup', hplace, halong⟩ := executes_of_reaches hnodup h
  refine ⟨region', hexec, hnodup', fun s => ?_, congrArg Placement.leader hplace, fun m r o hm => ?_⟩
  · rw [← RegionInfo.mem_placement_stores, hplace]
  obtain ⟨hr, hcard, hleader⟩ := halong m r o hm
  rw [RegionInfo.card_placement hr] at hcard
  exact ⟨RegionInfo.mem_placement_stores.mp hleader, hcard⟩

lemma reaches_learner {first : OperatorStep} (hfirst : p.place first = some (p.addLearner s)) (hs : s ∉ p.stores)
  (h : p.Safe n) : Reaches Placement.place (Placement.Safe n) p [first, .promoteLearner s id] (p.add s) := by
  have hpromote : (p.addLearner s).place (.promoteLearner s id) = some (p.add s) := by
    rw [← Placement.promote_addLearner hs]
    exact if_pos (Finset.mem_insert_self s p.learners)
  exact ⟨h, _, hfirst, h.add s, _, hpromote, h.add s, rfl⟩

lemma reaches_addPeerSteps (c : Cluster) (hs : s ∉ p.stores) (hid : id ∉ p.pending) (h : p.Safe n) :
  Reaches Placement.place (Placement.Safe n) p (createAddPeerSteps s id c) (p.add s) := by
  have hno : ¬ (s ∈ p.stores ∨ id ∈ p.pending) := not_or.mpr ⟨hs, hid⟩
  unfold createAddPeerSteps
  split
  · exact reaches_learner (if_neg hno) hs h
  · exact Reaches.single h (if_neg hno) (h.add s)

lemma reaches_addLightPeerSteps (c : Cluster) (hs : s ∉ p.stores) (hid : id ∉ p.pending) (h : p.Safe n) :
  Reaches Placement.place (Placement.Safe n) p (createAddLightPeerSteps s id c) (p.add s) := by
  have hno : ¬ (s ∈ p.stores ∨ id ∈ p.pending) := not_or.mpr ⟨hs, hid⟩
  unfold createAddLightPeerSteps
  split
  · exact reaches_learner (if_neg hno) hs h
  · exact Reaches.single h (if_neg hno) (h.add s)

lemma reaches_transferLeader (fromStore : Nat) (hs : s ∈ p.stores) (h : p.Safe n) :
  Reaches Placement.place (Placement.Safe n) p [.transferLeader fromStore s] (p.lead s) :=
  Reaches.single h (if_pos hs) (h.lead hs)

lemma reaches_removePeer (hs : p.leader ≠ s) (hn : n + 1 ≤ p.stores.card) (h : p.Safe n) :
  Reaches Placement.place (Placement.Safe n) p [.removePeer s] (p.drop s) :=
  Reaches.single h (if_neg fun hno => hs hno.2) (h.drop hs hn)

lemma reaches_handOver {t : Nat} (fromStore : Nat) (ht : t ∈ p.stores) (hne : t ≠ s) (hn : n + 1 ≤ p.stores.card)
  (h : p.Safe n) : Reaches Placement.place (Placement.Safe n) p [.transferLeader fromStore t, .removePeer s]
    ((p.lead t).drop s) :=
  (reaches_transferLeader fromStore ht h).append (reaches_removePeer hne hn (h.lead ht))

end
end PD
