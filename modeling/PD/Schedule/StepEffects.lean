import Mathlib.Data.List.Dedup
import PD.Schedule.CreateOperator

/-! # What the steps of a construction do -/

namespace PD
open List RegionInfo OperatorStep

section
variable {r : RegionInfo} {storeID peerID : Nat} {peer : Peer}
variable {p : Peer} {s : Nat}

lemma find?_append_self {α : Type*} {p : α → Bool} {l : List α} {x : α} (hl : ∀ y ∈ l, p y = false)
  (hx : p x = true) : (l ++ [x]).find? p = some x := by
  rw [List.find?_append, List.find?_eq_none.mpr fun y hy => by simp [hl y hy]]
  simp [hx]

section
variable (h : storeID ∉ r.storeIds)
include h

lemma store_ne (hp : p ∈ r.getPeers) : (p.storeId == storeID) = false := by
  have hne : p.storeId ≠ storeID := fun e => h (mem_storeIds.mpr ⟨p, hp, e⟩)
  simpa using hne

lemma getStoreVoter_eq_none : r.getStoreVoter storeID = none :=
  List.find?_eq_none.mpr fun p hp => by simp [store_ne h (mem_filter.mp hp).1]

lemma getStoreLearner_eq_none : r.getStoreLearner storeID = none :=
  List.find?_eq_none.mpr fun p hp => by simp [store_ne h (mem_filter.mp hp).1]

lemma getStoreVoter_withAddPeer :
  (r.withAddPeer ⟨peerID, storeID, false⟩).getStoreVoter storeID = some ⟨peerID, storeID, false⟩ := by
  have hvoters : (r.withAddPeer ⟨peerID, storeID, false⟩).getVoters =
      r.getVoters ++ [⟨peerID, storeID, false⟩] := filter_append ..
  rw [getStoreVoter, hvoters]
  exact find?_append_self (fun p hp => store_ne h (mem_filter.mp hp).1) (beq_self_eq_true storeID)

lemma getStoreLearner_withAddPeer :
  (r.withAddPeer ⟨peerID, storeID, true⟩).getStoreLearner storeID = some ⟨peerID, storeID, true⟩ := by
  have hlearners : (r.withAddPeer ⟨peerID, storeID, true⟩).getLearners =
      r.getLearners ++ [⟨peerID, storeID, true⟩] := filter_append ..
  rw [getStoreLearner, hlearners]
  exact find?_append_self (fun p hp => store_ne h (mem_filter.mp hp).1) (beq_self_eq_true storeID)

lemma getStoreVoter_withAddLearner : (r.withAddPeer ⟨peerID, storeID, true⟩).getStoreVoter storeID = none := by
  have hvoters : (r.withAddPeer ⟨peerID, storeID, true⟩).getVoters = r.getVoters :=
    (filter_append ..).trans (append_nil _)
  rw [getStoreVoter, hvoters]
  exact getStoreVoter_eq_none h

end

lemma getPendingVoter_eq_none (h : ∀ p ∈ r.pendingPeers, p.id ≠ peerID) :
    r.getPendingVoter peerID = none := List.find?_eq_none.mpr fun p hp => by simp [h p hp]

lemma getPendingLearner_eq_none (h : ∀ p ∈ r.pendingPeers, p.id ≠ peerID) :
    r.getPendingLearner peerID = none := List.find?_eq_none.mpr fun p hp => by simp [h p hp]

lemma applyAdd_eq (h : peer.storeId ∉ r.storeIds) : applyAdd r peer = some (r.withAddPeer peer) := by
  rw [applyAdd, getStorePeer_eq_none.mpr h]
  rfl

lemma applyAdd_eq_none (h : peer.storeId ∈ r.storeIds) : applyAdd r peer = none := by
  rw [applyAdd, if_pos fun e => getStorePeer_eq_none.mp e h]

lemma promote_withAddPeer (h : storeID ∉ r.storeIds) :
  ((r.withAddPeer ⟨peerID, storeID, true⟩).withRemoveStorePeer storeID).withAddPeer
      ⟨peerID, storeID, false⟩ = r.withAddPeer ⟨peerID, storeID, false⟩ := by
  have hpeers : (r.getPeers ++ [(⟨peerID, storeID, true⟩ : Peer)]).filter (fun p => p.storeId != storeID) =
      r.getPeers := by
    rw [filter_append, filter_eq_self.mpr fun p hp => by simp [bne, store_ne h hp]]
    simp
  show ((r.withAddPeer ⟨peerID, storeID, true⟩).withRemoveStorePeer storeID).setPeers _ = _
  rw [getPeers_withRemoveStorePeer, getPeers_withAddPeer, hpeers]
  rfl

lemma runSteps_single {s : OperatorStep} {r' : RegionInfo} (hstart : s.isFinish r = false)
  (happly : s.apply r = some r') (hend : s.isFinish r' = true) : runSteps r [s] = some r' := by
  rw [runSteps, hstart, happly]
  simp [hend, runSteps]

lemma runSteps_addPeer (h : storeID ∉ r.storeIds) (hfresh : ∀ p ∈ r.pendingPeers, p.id ≠ peerID) :
  runSteps r [.addPeer storeID peerID] = some (r.withAddPeer ⟨peerID, storeID, false⟩) := by
  refine runSteps_single (by simp [isFinish, voterAdded, getStoreVoter_eq_none h]) (applyAdd_eq h) ?_
  have hp := getPendingVoter_eq_none (r := r.withAddPeer ⟨peerID, storeID, false⟩) hfresh
  simp [isFinish, voterAdded, getStoreVoter_withAddPeer h, hp]

lemma runSteps_addLearner (h : storeID ∉ r.storeIds) (hfresh : ∀ p ∈ r.pendingPeers, p.id ≠ peerID) :
  runSteps r [.addLearner storeID peerID] = some (r.withAddPeer ⟨peerID, storeID, true⟩) := by
  refine runSteps_single (by simp [isFinish, learnerAdded, getStoreLearner_eq_none h]) (applyAdd_eq h) ?_
  have hp := getPendingLearner_eq_none (r := r.withAddPeer ⟨peerID, storeID, true⟩) hfresh
  simp [isFinish, learnerAdded, getStoreLearner_withAddPeer h, hp]

lemma runSteps_promoteLearner (h : storeID ∉ r.storeIds) :
  runSteps (r.withAddPeer ⟨peerID, storeID, true⟩) [.promoteLearner storeID peerID] =
    some (r.withAddPeer ⟨peerID, storeID, false⟩) := by
  refine runSteps_single (by simp [isFinish, getStoreVoter_withAddLearner h]) ?_
    (by simp [isFinish, getStoreVoter_withAddPeer h])
  rw [OperatorStep.apply, getStoreLearner_withAddPeer h, promote_withAddPeer h]
  rfl

lemma runSteps_addPeerSteps (c : Cluster) (h : storeID ∉ r.storeIds) (hfresh : ∀ p ∈ r.pendingPeers, p.id ≠ peerID) :
  runSteps r (createAddPeerSteps storeID peerID c) = some (r.withAddPeer ⟨peerID, storeID, false⟩) := by
  unfold createAddPeerSteps
  split
  · rw [← singleton_append, runSteps_append, runSteps_addLearner h hfresh, Option.bind_some]
    exact runSteps_promoteLearner h
  · exact runSteps_addPeer h hfresh

lemma runSteps_transferLeader_away (fromStore : Nat) (hpeer : r.getStorePeer storeID = some p)
  (hlead : r.leaderStore ≠ storeID) :
  runSteps r [.transferLeader fromStore storeID] = some (r.withLeader (some p)) := by
  have hstore : (r.withLeader (some p)).leaderStore = storeID := (getStorePeer_some hpeer).2
  simp [runSteps, isFinish, OperatorStep.apply, hlead, hpeer, hstore]

lemma runSteps_transferLeader (fromStore : Nat) (h : storeID ∈ r.storeIds) :
  ∃ r', runSteps r [.transferLeader fromStore storeID] = some r' ∧ r'.getPeers = r.getPeers ∧
    r'.pendingPeers = r.pendingPeers ∧ r'.leaderStore = storeID := by
  by_cases hlead : r.leaderStore = storeID
  · refine ⟨r, ?_, rfl, rfl, hlead⟩
    simp [runSteps, isFinish, hlead]
  cases hpeer : r.getStorePeer storeID with
  | none => exact absurd h (getStorePeer_eq_none.mp hpeer)
  | some p =>
    exact ⟨r.withLeader (some p), runSteps_transferLeader_away fromStore hpeer hlead, rfl, rfl,
      (getStorePeer_some hpeer).2⟩

lemma mem_storeIds_withRemoveStorePeer :
  s ∈ (r.withRemoveStorePeer storeID).storeIds ↔ s ∈ r.storeIds ∧ s ≠ storeID := by
  rw [mem_storeIds, mem_storeIds, getPeers_withRemoveStorePeer]
  constructor
  · rintro ⟨p, hp, rfl⟩
    obtain ⟨hp, hne⟩ := mem_filter.mp hp
    exact ⟨⟨p, hp, rfl⟩, by simpa using hne⟩
  rintro ⟨⟨p, hp, rfl⟩, hne⟩
  exact ⟨p, mem_filter.mpr ⟨hp, by simpa using hne⟩, rfl⟩

lemma mem_storeIds_withAddPeer : s ∈ (r.withAddPeer peer).storeIds ↔ s ∈ r.storeIds ∨ s = peer.storeId := by
  rw [storeIds, getPeers_withAddPeer, map_append, mem_append]
  exact or_congr_right mem_singleton

lemma runSteps_removePeer (h : storeID ∈ r.storeIds) (hlead : r.leaderStore ≠ storeID) :
  runSteps r [.removePeer storeID] = some (r.withRemoveStorePeer storeID) := by
  have hthere : r.getStorePeer storeID ≠ none := fun e => getStorePeer_eq_none.mp e h
  have hgone : (r.withRemoveStorePeer storeID).getStorePeer storeID = none :=
    getStorePeer_eq_none.mpr fun hmem => (mem_storeIds_withRemoveStorePeer.mp hmem).2 rfl
  simp [runSteps, isFinish, OperatorStep.apply, hthere, hlead, hgone]

lemma removePeerSteps_ok {c : Cluster} {ids : List Nat} {kind : OperatorKind} {steps : List OperatorStep}
  (h : removePeerSteps c r storeID ids = .ok (kind, steps)) :
  (r.leaderStore = storeID ∧ ∃ id, ids.find? (suitableFollower c) = some id ∧
      steps = [.transferLeader storeID id, .removePeer storeID]) ∨
    (¬ (r.leader ≠ none ∧ r.leaderStore = storeID) ∧ steps = [.removePeer storeID]) := by
  unfold removePeerSteps at h
  split at h
  next hlead =>
    split at h
    next id hfind =>
      obtain ⟨_, rfl⟩ := Prod.mk.inj (Except.ok.inj h)
      exact .inl ⟨hlead.2, id, hfind, rfl⟩
    · cases h
  next hno =>
    obtain ⟨_, rfl⟩ := Prod.mk.inj (Except.ok.inj h)
    exact .inr ⟨hno, rfl⟩

lemma follower_apart {leader : Peer} (hnodup : r.storeIds.Nodup) (hleader : r.leader = some leader)
  (hmem : leader ∈ r.getPeers) (hs : s ∈ regionFollowerIDs r) : s ∈ r.storeIds ∧ s ≠ leader.storeId := by
  obtain ⟨p, hp, rfl⟩ := List.mem_map.mp (mem_dedup.mp hs)
  obtain ⟨hvoter, hid⟩ := mem_filter.mp hp
  have hpeer : p ∈ r.getPeers := (mem_filter.mp hvoter).1
  refine ⟨List.mem_map_of_mem hpeer, fun e => ?_⟩
  have hsame : p = leader := inj_on_of_nodup_map hnodup hpeer hmem e
  simp [leaderId, hleader, hsame] at hid

end
end PD
