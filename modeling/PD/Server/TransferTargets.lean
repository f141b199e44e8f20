import PD.Schedule.IssuedSteps
import PD.Schedule.MoveRegion
import PD.Schedule.ScatterOperator
import PD.Server.AdminTransferPeer

/-! # Where leaders are transferred to -/

namespace PD
open List Option RegionInfo OperatorStep

def TransfersToVoters (region : RegionInfo) (op : Operator) : Prop :=
  ∀ r f t, op.Issues region r (.transferLeader f t) → r.VoterOn t

inductive Construction where
  | moveRegion (adds targets : List Nat)
  | scatter (targetPeers : List Peer) (i : Nat)
  | movePeer (oldStore newStore peerID : Nat) (followers : List Nat)
  | removePeer (storeID : Nat) (followers : List Nat)

def RegionInfo.NoLearnerOn (region : RegionInfo) (t : Nat) : Prop :=
  ∀ p ∈ region.getPeers, p.storeId = t → p.isLearner = false

namespace Construction

def build (desc : String) (kind : OperatorKind) (c : Cluster) (region : RegionInfo) : Construction → Option Operator
  | moveRegion adds targets => (createMoveRegionOperator desc c region kind adds targets).toOption
  | scatter targetPeers i => (createScatterRegionOperator desc c region region.getPeers targetPeers i).join
  | movePeer oldStore newStore peerID followers =>
    (createMovePeerOperator desc c region kind oldStore newStore peerID followers).toOption
  | removePeer storeID followers => (c.createRemovePeerOperator desc kind region storeID followers).toOption

def Accepted (c : Cluster) (region : RegionInfo) : Construction → Prop
  | moveRegion adds targets => adds.Nodup ∧ targets.Perm adds ∧
    ∀ n id, c.allocID n = .ok id → ∀ p ∈ region.pendingPeers, p.id ≠ id
  | scatter targetPeers _ =>
    List.Forall₂ (fun t s => t = s ∨ t.storeId ∉ region.storeIds) targetPeers region.getPeers
  | movePeer _ _ _ followers => followers.Perm (regionFollowerIDs region)
  | removePeer _ followers => followers.Perm (regionFollowerIDs region)

/-- The store that the leader is handed to holds no learner, or not beside a voter. -/
def Clear (c : Cluster) (region : RegionInfo) : Construction → Prop
  | moveRegion adds targets => (∃ p ∈ region.getPeers, p.storeId ∉ adds ∧ p.id = region.leaderId) →
    ∀ t, targets.head? = some t → region.NoLearnerOn t
  | scatter targetPeers i => ∀ t, targetPeers[i]? = some t → t.storeId ≠ region.leaderStore →
    region.NoLearnerOn t.storeId
  | movePeer oldStore newStore _ followers => region.leaderStore = oldStore →
    ∀ t, (followers ++ [newStore]).find? (suitableFollower c) = some t → region.Unmixed t
  | removePeer storeID followers => region.leaderStore = storeID →
    ∀ t, followers.find? (suitableFollower c) = some t → region.Unmixed t

end Construction

section
variable {c : Cluster} {region : RegionInfo} {s : OperatorStep} {a id t : Nat}
variable {steps : List OperatorStep}

lemma voterOn_of_noLearner (h : region.NoLearnerOn t) (ht : t ∈ region.storeIds) : region.VoterOn t :=
  ⟨RegionInfo.mem_storeIds.mp ht, h⟩

lemma not_transfer_of_adds (h : ∀ s ∈ steps, s.addsPeer = true) (f t : Nat) :
    .transferLeader f t ∉ steps := fun hs => by cases h _ hs

lemma not_remove_of_adds (h : ∀ s ∈ steps, s.addsPeer = true) (t : Nat) :
    .removePeer t ∉ steps := fun hs => by cases h _ hs

lemma makesVoter_createAddPeerSteps (c : Cluster) (a id : Nat) :
  ∃ s ∈ createAddPeerSteps a id c, s.makesVoter a = true := by
  unfold createAddPeerSteps
  split
  · exact ⟨.promoteLearner a id, by simp, beq_self_eq_true a⟩
  · exact ⟨.addPeer a id, by simp, beq_self_eq_true a⟩

lemma makesVoter_createAddLightPeerSteps (c : Cluster) (a id : Nat) :
  ∃ s ∈ createAddLightPeerSteps a id c, s.makesVoter a = true := by
  unfold createAddLightPeerSteps
  split
  · exact ⟨.promoteLearner a id, by simp, beq_self_eq_true a⟩
  · exact ⟨.addLightPeer a id, by simp, beq_self_eq_true a⟩

lemma mem_addStores {ids : List Nat} (hok : addStores c region 0 ids = .ok steps) : (∀ s ∈ steps, s.addsPeer = true) ∧
  ∀ a ∈ ids, a ∉ region.storeIds → ∃ s ∈ steps, s.makesVoter a = true := by
  obtain ⟨groups, rfl, hmap, -⟩ := addStores_ok hok
  constructor
  · intro s hs
    obtain ⟨z, -, hs⟩ := mem_flatMap.mp hs
    exact addsPeer_createAddPeerSteps c z.1 z.2 s hs
  intro a ha hout
  have hmem : a ∈ groups.map Prod.fst := by
    rw [hmap]
    exact mem_filter.mpr ⟨ha, decide_eq_true hout⟩
  obtain ⟨z, hz, rfl⟩ := List.mem_map.mp hmem
  obtain ⟨s, hs, h⟩ := makesVoter_createAddPeerSteps c z.1 z.2
  exact ⟨s, mem_flatMap.mpr ⟨z, hz, hs⟩, h⟩

lemma mem_removeFromStore {adds targets : List Nat} {q : Peer}
  (h : s ∈ removeFromStore region adds targets q) : q.storeId ∉ adds ∧ (s = .removePeer q.storeId ∨
      q.id = region.leaderId ∧ ∃ t, targets.head? = some t ∧ s = .transferLeader q.storeId t) := by
  unfold removeFromStore at h
  split at h
  · cases h
  next hout =>
    refine ⟨by simpa using hout, ?_⟩
    split at h
    next hid =>
      rcases mem_append.mp h with h | h
      · refine .inr ⟨hid.symm, ?_⟩
        cases targets with
        | nil => cases h
        | cons t => exact ⟨t, rfl, mem_singleton.mp h⟩
      · exact .inl (mem_singleton.mp h)
    · exact .inl (mem_singleton.mp h)

section
variable {adds targets : List Nat} {steps : List OperatorStep} {op : Operator}

lemma moveRegion_prepared (hsteps : addStores c region 0 adds = .ok steps) (hsub : ∀ s ∈ targets, s ∈ adds)
  (hclear : (Construction.moveRegion adds targets).Clear c region) {f : Nat}
  (hmem : .transferLeader f t ∈ steps ++ region.getPeers.flatMap (removeFromStore region adds targets)) :
  Prepared t region (steps ++ region.getPeers.flatMap (removeFromStore region adds targets)) := by
  obtain ⟨hadd, hmakes⟩ := mem_addStores hsteps
  obtain ⟨q, hq, hs⟩ := mem_flatMap.mp ((mem_append.mp hmem).resolve_left (not_transfer_of_adds hadd f t))
  obtain ⟨hout, h | ⟨hid, t', ht, h⟩⟩ := mem_removeFromStore hs
  · cases h
  obtain ⟨-, rfl⟩ := transferLeader.inj h
  have htadds : t ∈ adds := hsub t (List.mem_of_head? ht)
  refine prepared_append (fun hs => ?_) (fun f => not_transfer_of_adds hadd f t) ?_
  · rcases mem_append.mp hs with hs | hs
    · exact not_remove_of_adds hadd t hs
    obtain ⟨q', -, hs⟩ := mem_flatMap.mp hs
    obtain ⟨hout', h | ⟨-, t', -, h⟩⟩ := mem_removeFromStore hs
    · exact hout' (OperatorStep.removePeer.inj h ▸ htadds)
    · cases h
  by_cases hin : t ∈ region.storeIds
  · exact .inl (voterOn_of_noLearner (hclear ⟨q, hq, hout, hid⟩ t ht) hin)
  · exact .inr ⟨unmixed_of_not_mem hin, hmakes t htadds hin⟩

lemma removeLoop_keeps {as : List Peer} {leader : Nat} {p q : Placement} (htadds : t ∈ adds)
  (has : ∀ x ∈ as, ¬ (x.storeId ∉ adds ∧ x.id = region.leaderId))
  (h : Runs.exec Placement.place p (as.flatMap (removeFromStore region adds targets)) = some q)
  (hp : p.leader = leader ∧ t ∈ p.learners) : q.leader = leader ∧ t ∈ q.learners := by
  have hlabels : ∀ s ∈ as.flatMap (removeFromStore region adds targets), ∃ a, a ≠ t ∧ s = .removePeer a := by
    intro s hs
    obtain ⟨x, hx, hs⟩ := mem_flatMap.mp hs
    obtain ⟨hout, h | ⟨hid, -⟩⟩ := mem_removeFromStore hs
    · exact ⟨x.storeId, fun e => hout (e ▸ htadds), h⟩
    · exact absurd ⟨hout, hid⟩ (has x hx)
  refine Runs.exec_inv (fun p : Placement => p.leader = leader ∧ t ∈ p.learners) ?_ hp
    (Runs.along_of_forall p hlabels) h
  rintro p s q ⟨hleader, ht⟩ ⟨a, hne, rfl⟩ hstep
  rw [Placement.place] at hstep
  split at hstep
  · cases hstep
  cases hstep
  exact ⟨hleader, Finset.mem_erase.mpr ⟨hne.symm, ht⟩⟩

lemma exists_first {α : Type*} {P : α → Prop} {l : List α} (h : ∃ x ∈ l, P x) :
  ∃ as x bs, l = as ++ x :: bs ∧ P x ∧ ∀ y ∈ as, ¬ P y := by
  classical
  obtain ⟨x, hx⟩ := isSome_iff_exists.mp (List.find?_isSome (p := fun x => decide (P x)).mpr (by simpa using h))
  obtain ⟨hP, as, bs, hl, has⟩ := List.find?_eq_some_iff_append.mp hx
  exact ⟨as, x, bs, hl, by simpa using hP, fun y hy => by simpa using has y hy⟩

lemma not_voterOn_learner (h : t ∈ region.placement.learners) : ¬ region.VoterOn t := by
  intro hv
  obtain ⟨x, hx, hxt⟩ := List.mem_map.mp (List.mem_toFinset.mp h)
  obtain ⟨hx, hxl⟩ := mem_filter.mp hx
  rw [hv.2 x hx hxt] at hxl
  cases hxl

lemma moveRegion_to_learner {leader : Peer} (hleader : region.leader = some leader)
  (hmem : leader ∈ region.getPeers) (hvoter : leader.isLearner = false) (hnodup : region.storeIds.Nodup)
  (hacc : (Construction.moveRegion adds targets).Accepted c region) (hsteps : addStores c region 0 adds = .ok steps)
  (hrest : op.rest = steps ++ region.getPeers.flatMap (removeFromStore region adds targets))
  (hout : ∃ p ∈ region.getPeers, p.storeId ∉ adds ∧ p.id = region.leaderId) (ht : targets.head? = some t) {l : Peer}
  (hl : l ∈ region.getPeers) (hlt : l.storeId = t) (hlearner : l.isLearner = true) :
  ∃ r f, op.Issues region r (.transferLeader f t) ∧ ¬ r.VoterOn t := by
  obtain ⟨hset, horder, hfresh⟩ := hacc
  have hleaderStore := leaderStore_of_some hleader
  have htake : targets.take 1 = [t] := by
    cases targets with
    | nil => cases ht
    | cons => rw [some.inj ht]; rfl
  have htadds : t ∈ adds := horder.mem_iff.mp (List.mem_of_head? ht)
  have htlearner : t ∈ region.placement.learners :=
    List.mem_toFinset.mpr (List.mem_map.mpr ⟨l, mem_filter.mpr ⟨hl, hlearner⟩, hlt⟩)
  -- up to the first peer that is transferred from, the leader and the learner stay
  obtain ⟨as, q, bs, hpeers, hqc, has⟩ := exists_first hout
  obtain ⟨p, hadd, hstores, hlead, hlearners⟩ := reaches_addStores hsteps hset hfresh
    (safe_placement hnodup (leaderStore_mem hleader hmem) (Nat.zero_le _))
  have hremoving := removing_start hnodup hmem hstores (hlead.trans hleaderStore)
  rw [hpeers] at hremoving
  obtain ⟨p', hremove, -⟩ := reaches_removeLoop (leaderId_of_some hleader) htake htadds (Nat.zero_le _)
    hremoving hadd.last
  obtain ⟨hlead', hlearner'⟩ := removeLoop_keeps htadds has hremove.exec_eq ⟨hlead, hlearners ▸ htlearner⟩
  obtain ⟨r, hreach, hr, hplace⟩ := Runs.Reaches.simulates
    (fun (r : RegionInfo) (p : Placement) => r.storeIds.Nodup ∧ r.placement = p)
    (fun r p s q hr hq => placement_step hr.1 (hr.2 ▸ hq)) ⟨hnodup, rfl⟩ (hadd.append hremove)
  have hsplit : op.rest = (steps ++ as.flatMap (removeFromStore region adds targets)) ++
      .transferLeader q.storeId t :: .removePeer q.storeId :: bs.flatMap (removeFromStore region adds targets) := by
    rw [hrest, hpeers, flatMap_append, flatMap_cons, append_assoc, removeFromStore,
      if_neg (by simpa using hqc.1), if_pos hqc.2.symm, htake]
    rfl
  refine ⟨r, q.storeId, issues_of_reaches hreach hsplit ?_, not_voterOn_learner (hplace ▸ hlearner')⟩
  have hne : r.leaderStore ≠ t := by
    intro e
    have hstore : leader.storeId = t := by
      rw [← e, ← hleaderStore]
      exact ((congrArg Placement.leader hplace).trans hlead').symm
    rw [inj_on_of_nodup_map hnodup hmem hl (hstore.trans hlt.symm), hlearner] at hvoter
    cases hvoter
  show (r.leaderStore == t) = false
  simpa using hne

end

section
variable {targets : List Peer} {zi : Peer × Peer} {first : ScatterSteps} {i : Nat} {deferred : Bool}

lemma mem_exchanges_steps
  (h : s ∈ (scatterExchanges c region zi.1 deferred (targets.zip region.getPeers)).flatMap Exchange.steps) :
  s.addsPeer = true ∨ ∃ a ∈ region.storeIds, s = .removePeer a := by
  obtain ⟨x, hx, hs⟩ := mem_flatMap.mp h
  obtain ⟨z, hz, -, rfl⟩ := mem_scatterExchanges.mp hx
  rcases mem_append.mp hs with hs | hs
  · exact .inl (addsPeer_createAddLightPeerSteps c _ _ s hs)
  · exact .inr ⟨z.2.storeId, List.mem_map_of_mem (of_mem_zip hz).2, mem_singleton.mp hs⟩

lemma not_transfer_exchanges (f t : Nat) : .transferLeader f t ∉
  (scatterExchanges c region zi.1 deferred (targets.zip region.getPeers)).flatMap Exchange.steps := by
  intro h
  rcases mem_exchanges_steps h with h | ⟨a, -, h⟩ <;> cases h

lemma not_remove_exchanges (ht : t ∉ region.storeIds) : .removePeer t ∉
  (scatterExchanges c region zi.1 deferred (targets.zip region.getPeers)).flatMap Exchange.steps := by
  intro h
  rcases mem_exchanges_steps h with h | ⟨a, ha, h⟩
  · cases h
  · exact ht (OperatorStep.removePeer.inj h ▸ ha)

lemma scatter_prepared_inside (hin : zi.1.storeId ∈ region.storeIds)
  (hclear : zi.1.storeId ≠ region.leaderStore → region.NoLearnerOn zi.1.storeId) (t : Nat) {steps : List OperatorStep}
  (hsteps : steps = [] ∨ zi.1.storeId ≠ region.leaderStore ∧
    steps = [.transferLeader region.leaderStore zi.1.storeId]) : Prepared t region ((steps ++
      (scatterExchanges c region zi.1 false (targets.zip region.getPeers)).flatMap Exchange.steps) ++
    ([] ++ (scatterExchanges c region zi.1 true (targets.zip region.getPeers)).flatMap Exchange.steps)) := by
  refine Prepared.append (Prepared.append ?_ fun f => not_transfer_exchanges f t) fun f => not_transfer_exchanges f t
  rcases hsteps with rfl | ⟨hne, rfl⟩
  · exact prepared_of_not_mem fun f => not_mem_nil
  by_cases ht : t = zi.1.storeId
  · subst ht
    rw [← nil_append [transferLeader region.leaderStore zi.1.storeId]]
    exact prepared_append (by simp) (fun f => not_mem_nil) (.inl (voterOn_of_noLearner (hclear hne) hin))
  refine prepared_of_not_mem fun f hf => ht ?_
  exact (transferLeader.inj (mem_singleton.mp hf)).2

lemma scatter_prepared_outside (hout : zi.1.storeId ∉ region.storeIds) (hold : zi.2.storeId ∈ region.storeIds)
  (t : Nat) : Prepared t region ((createAddLightPeerSteps zi.1.storeId zi.1.id c ++
      (scatterExchanges c region zi.1 false (targets.zip region.getPeers)).flatMap Exchange.steps) ++
    ([.transferLeader region.leaderStore zi.1.storeId, .removePeer zi.2.storeId] ++
      (scatterExchanges c region zi.1 true (targets.zip region.getPeers)).flatMap Exchange.steps)) := by
  have hadd := addsPeer_createAddLightPeerSteps c zi.1.storeId zi.1.id
  by_cases ht : t = zi.1.storeId
  · subst ht
    rw [append_assoc]
    refine prepared_append (fun h => ?_) (fun f => not_transfer_of_adds hadd f _)
      (.inr ⟨unmixed_of_not_mem hout, makesVoter_createAddLightPeerSteps c _ _⟩)
    simp only [mem_append, mem_cons, reduceCtorEq, not_mem_nil, false_or, or_false, OperatorStep.removePeer.injEq] at h
    rcases h with h | h | h | h
    · exact not_remove_of_adds hadd _ h
    · exact not_remove_exchanges hout h
    · exact hout (h ▸ hold)
    · exact not_remove_exchanges hout h
  refine prepared_of_not_mem fun f h => ?_
  simp only [mem_append, mem_cons, reduceCtorEq, not_mem_nil, or_false, transferLeader.injEq] at h
  rcases h with (h | h) | h | h
  · exact not_transfer_of_adds hadd f t h
  · exact not_transfer_exchanges f t h
  · exact ht h.2
  · exact not_transfer_exchanges f t h

lemma scatter_prepared (hold : region.getPeers[i]? = some zi.2)
  (hfirst : scatterFirst c region region.getPeers i zi.1 = some first)
  (hclear : zi.1.storeId ≠ region.leaderStore → region.NoLearnerOn zi.1.storeId) (t : Nat) :
  Prepared t region ((first.steps ++
      (scatterExchanges c region zi.1 false (targets.zip region.getPeers)).flatMap Exchange.steps) ++
    (first.deferSteps ++
      (scatterExchanges c region zi.1 true (targets.zip region.getPeers)).flatMap Exchange.steps)) := by
  unfold scatterFirst at hfirst
  rw [hold] at hfirst
  split at hfirst
  next hin =>
    have hin : zi.1.storeId ∈ region.storeIds := by simpa using hin
    split at hfirst
    · cases hfirst
      exact scatter_prepared_inside hin hclear t (.inl rfl)
    next hne =>
      cases hfirst
      exact scatter_prepared_inside hin hclear t (.inr ⟨hne, rfl⟩)
  next hout =>
    have hout : zi.1.storeId ∉ region.storeIds := by simpa using hout
    cases hfirst
    exact scatter_prepared_outside hout (List.mem_map_of_mem (List.mem_of_getElem? hold)) t

end

section
variable {oldStore : Nat} {followers : List Nat} {kind : OperatorKind} {adds steps : List OperatorStep}

lemma voterOn_follower (hunmixed : region.Unmixed t) (ht : t ∈ regionFollowerIDs region) : region.VoterOn t := by
  obtain ⟨p, hp, rfl⟩ := List.mem_map.mp (mem_dedup.mp ht)
  obtain ⟨hmem, hvoter⟩ := mem_filter.mp (mem_filter.mp hp).1
  exact voterOn_of_unmixed hunmixed hmem rfl (by simpa using hvoter)

lemma removePeerSteps_prepared (hok : removePeerSteps c region oldStore followers = .ok (kind, steps))
  (hadds : ∀ s ∈ adds, s.addsPeer = true)
  (h : region.leaderStore = oldStore → followers.find? (suitableFollower c) = some t →
    region.VoterOn t ∨ region.Unmixed t ∧ ∃ a ∈ adds, a.makesVoter t = true) : Prepared t region (adds ++ steps) := by
  rcases removePeerSteps_ok hok with ⟨hlead, x, hx, rfl⟩ | ⟨-, rfl⟩
  · have hsplit : adds ++ [transferLeader oldStore x, .removePeer oldStore] =
        (adds ++ [.transferLeader oldStore x]) ++ [.removePeer oldStore] := by simp
    rw [hsplit]
    refine Prepared.append ?_ (fun f => by simp)
    by_cases ht : t = x
    · subst ht
      refine prepared_append (fun hs => ?_) (fun f => not_transfer_of_adds hadds f t) (h hlead hx)
      rcases mem_append.mp hs with hs | hs
      · exact not_remove_of_adds hadds t hs
      · simp at hs
    refine prepared_of_not_mem fun f hs => ?_
    rcases mem_append.mp hs with hs | hs
    · exact not_transfer_of_adds hadds f t hs
    · exact ht (transferLeader.inj (mem_singleton.mp hs)).2
  refine prepared_of_not_mem fun f hs => ?_
  rcases mem_append.mp hs with hs | hs
  · exact not_transfer_of_adds hadds f t hs
  · simp at hs

end
end

section
variable {desc : String} {kind : OperatorKind} {c : Cluster} {region : RegionInfo} {op : Operator}
  {targets : List Peer} {i : Nat}

lemma scatter_rest (hacc : (Construction.scatter targets i).Accepted c region)
  (hop : (Construction.scatter targets i).build desc kind c region = some op) :
  ∃ (zi : Peer × Peer) (first : ScatterSteps), targets[i]? = some zi.1 ∧ region.getPeers[i]? = some zi.2 ∧
    scatterFirst c region region.getPeers i zi.1 = some first ∧ op.rest = (first.steps ++
        (scatterExchanges c region zi.1 false (targets.zip region.getPeers)).flatMap Exchange.steps) ++
      (first.deferSteps ++
        (scatterExchanges c region zi.1 true (targets.zip region.getPeers)).flatMap Exchange.steps) := by
  have hbuild : (createScatterRegionOperator desc c region region.getPeers targets i).join = some op := hop
  have hlen := hacc.length_eq
  cases hget : targets[i]? with
  | none =>
    unfold createScatterRegionOperator at hbuild
    rw [hget] at hbuild
    cases hbuild
  | some t =>
    have hi : i < region.getPeers.length := hlen ▸ (List.getElem?_eq_some_iff.mp hget).1
    obtain ⟨s, hold⟩ : ∃ s, region.getPeers[i]? = some s := ⟨_, List.getElem?_eq_getElem hi⟩
    by_cases hmove : (t.storeId == region.leaderStore &&
        targets.all fun p => region.storeIds.contains p.storeId) = true
    · unfold createScatterRegionOperator at hbuild
      rw [hget] at hbuild
      dsimp only at hbuild
      rw [if_pos hmove] at hbuild
      cases hbuild
    obtain ⟨first, op', hfirst, hop', hrest⟩ := createScatterRegionOperator_some desc c (t, s) hlen hget hold hmove
    rw [hop'] at hbuild
    cases hbuild
    exact ⟨(t, s), first, rfl, hold, hfirst, hrest⟩

lemma toOption_eq_some {α : Type*} {x : Except String α} {a : α} (h : x.toOption = some a) : x = .ok a := by
  cases x with
  | error => cases h
  | ok => exact congrArg Except.ok (some.inj h)

lemma transfersToVoters_of_clear (k : Construction) (hacc : k.Accepted c region)
  (hop : k.build desc kind c region = some op) (hclear : k.Clear c region) : TransfersToVoters region op := by
  intro r f t hs
  cases k with
  | moveRegion =>
    obtain ⟨steps, hsteps, hrest⟩ := createMoveRegionOperator_ok (toOption_eq_some hop)
    refine issued_voter ?_ hs
    rw [hrest]
    exact moveRegion_prepared hsteps (fun s hs => hacc.2.1.mem_iff.mp hs) hclear (hrest ▸ mem_of_issues hs)
  | scatter =>
    obtain ⟨zi, first, hget, hold, hfirst, hrest⟩ := scatter_rest hacc hop
    refine issued_voter ?_ hs
    rw [hrest]
    exact scatter_prepared hold hfirst (hclear zi.1 hget) t
  | movePeer oldStore newStore peerID followers =>
    have hmove : createMovePeerOperator desc c region kind oldStore newStore peerID followers = .ok op :=
      toOption_eq_some hop
    unfold createMovePeerOperator at hmove
    split at hmove
    · cases hmove
    next _ _ hok =>
      obtain rfl := Except.ok.inj hmove
      refine issued_voter (removePeerSteps_prepared hok (addsPeer_createAddPeerSteps c newStore peerID)
        fun hlead hfind => ?_) hs
      have hunmixed : region.Unmixed t := hclear hlead t hfind
      rcases mem_append.mp (mem_of_find?_eq_some hfind) with ht | ht
      · exact .inl (voterOn_follower hunmixed (hacc.mem_iff.mp ht))
      obtain rfl := mem_singleton.mp ht
      exact .inr ⟨hunmixed, makesVoter_createAddPeerSteps c t peerID⟩
  | removePeer storeID followers =>
    have hremove : c.createRemovePeerOperator desc kind region storeID followers = .ok op := toOption_eq_some hop
    unfold Cluster.createRemovePeerOperator at hremove
    split at hremove
    · cases hremove
    next kind' steps hok =>
      obtain rfl := Except.ok.inj hremove
      exact issued_voter (@removePeerSteps_prepared c region t storeID followers kind' [] steps hok
        (fun s hs => by cases hs)
        fun hlead hfind => .inl (voterOn_follower (hclear hlead t hfind)
          (hacc.mem_iff.mp (mem_of_find?_eq_some hfind)))) hs

lemma clear_of_transfersToVoters (k : Construction) {leader : Peer} (hleader : region.leader = some leader)
  (hmem : leader ∈ region.getVoters) (hnodup : region.storeIds.Nodup) (hacc : k.Accepted c region)
  (hop : k.build desc kind c region = some op) (h : TransfersToVoters region op) : k.Clear c region := by
  obtain ⟨hpeer, hvoter⟩ := mem_filter.mp hmem
  cases k with
  | moveRegion =>
    intro hout t ht l hl hlt
    obtain ⟨steps, hsteps, hrest⟩ := createMoveRegionOperator_ok (toOption_eq_some hop)
    by_contra hlearner
    obtain ⟨r, f, hissue, hno⟩ := moveRegion_to_learner hleader hpeer (by simpa using hvoter) hnodup hacc hsteps hrest
      hout ht hl hlt (by simpa using hlearner)
    exact hno (h r f t hissue)
  | scatter =>
    intro t ht hne l hl hlt
    obtain ⟨zi, first, hget, hold, hfirst, hrest⟩ := scatter_rest hacc hop
    obtain rfl : zi.1 = t := some.inj (hget.symm.trans ht)
    unfold scatterFirst at hfirst
    have hin : region.storeIds.contains zi.1.storeId = true := by simpa using RegionInfo.mem_storeIds.mpr ⟨l, hl, hlt⟩
    rw [if_pos hin, if_neg hne] at hfirst
    cases hfirst
    have hissue : op.Issues region region (.transferLeader region.leaderStore zi.1.storeId) := by
      refine issues_of_reaches (J := fun _ => True) (Runs.Reaches.nil trivial) hrest ?_
      show (region.leaderStore == zi.1.storeId) = false
      simpa using hne.symm
    exact (h region _ _ hissue).2 l hl hlt
  | _ => exact fun _ t _ => unmixed_of_nodup hnodup t

end

/-- **Transfers** go to voters if the target is clear. -/
theorem transfers_to_voters_iff (desc : String) (kind : OperatorKind) (c : Cluster) (region : RegionInfo)
  (leader : Peer) (k : Construction) (op : Operator) (hleader : region.leader = some leader)
  (hmem : leader ∈ region.getVoters) (hacc : k.Accepted c region) (hop : k.build desc kind c region = some op) :
  (k.Clear c region → TransfersToVoters region op) ∧
    (region.storeIds.Nodup → (TransfersToVoters region op ↔ k.Clear c region)) :=
  ⟨transfersToVoters_of_clear k hacc hop,
    fun hnodup => ⟨clear_of_transfersToVoters k hleader hmem hnodup hacc hop, transfersToVoters_of_clear k hacc hop⟩⟩

def learnerRegion : RegionInfo :=
  newRegionInfo ⟨1, [], [], some ⟨1, 1⟩, [⟨11, 1, false⟩, ⟨12, 2, false⟩, ⟨13, 3, true⟩]⟩ (some ⟨11, 1, false⟩)

def learnerCluster : Cluster := { smallCluster with getRegion := fun id => if id = 1 then some learnerRegion else none }

theorem transfers_to_voters_new :
  ∃ op, createMoveRegionOperator "" learnerCluster learnerRegion 0 [3, 4] [4, 3] = .ok op ∧
    TransfersToVoters learnerRegion op := by
  refine ⟨_, rfl, (transfers_to_voters_iff "" 0 learnerCluster learnerRegion ⟨11, 1, false⟩
    (.moveRegion [3, 4] [4, 3]) _ rfl (by decide) ⟨by decide, by decide, fun n id _ p hp => by cases hp⟩ rfl).1 ?_⟩
  intro _ t ht p hp hpt
  obtain rfl : 4 = t := some.inj ht
  revert hpt
  revert p
  decide

theorem transferRegion_to_learner :
  ∃ op, transferRegionOperator (some learnerCluster) 1 [3, 4] [3, 4] [3, 4] = .ok op ∧
    ¬ TransfersToVoters learnerRegion op := by
  refine ⟨_, rfl, fun h => ?_⟩
  have hvoter := h _ 1 3 ⟨2, _, rfl, rfl⟩
  exact absurd (hvoter.2 ⟨13, 3, true⟩ (by decide) rfl) (by decide)

end PD
