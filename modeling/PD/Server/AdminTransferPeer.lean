import PD.Schedule.StepEffects
import PD.Server.AdminOperators

/-! # The transfer of a peer by an administrator -/

namespace PD
open OperatorStep

section
variable {c : Cluster} {region : RegionInfo} {regionID fromStoreID toStoreID : Nat} {followers : List Nat}
  {op : Operator}

structure RegionInfo.Led (region : RegionInfo) (leader : Peer) : Prop where
  voters : ∀ p ∈ region.getPeers, p.isLearner = false
  nodup : region.storeIds.Nodup
  leader_eq : region.leader = some leader
  leader_mem : leader ∈ region.getPeers

lemma transferPeerOperator_ok (hregion : c.getRegion regionID = some region)
  (h : transferPeerOperator (some c) regionID fromStoreID toStoreID followers = .ok op) :
  fromStoreID ∈ region.storeIds ∧ ∃ id kind steps, c.allocID 0 = .ok id ∧
    removePeerSteps c region fromStoreID (followers ++ [toStoreID]) = .ok (kind, steps) ∧
    op.rest = createAddPeerSteps toStoreID id c ++ steps := by
  simp only [transferPeerOperator, hregion] at h
  split at h
  · cases h
  next hfrom =>
    split at h
    · cases h
    split at h
    · cases h
    refine ⟨?_, ?_⟩
    · by_contra hno
      exact hfrom (RegionInfo.getStorePeer_eq_none.mpr hno)
    split at h
    · cases h
    next new halloc =>
      obtain ⟨id, hid, rfl⟩ : ∃ id, c.allocID 0 = .ok id ∧ new = ⟨id, toStoreID, false⟩ := by
        unfold Cluster.allocPeer at halloc
        cases hid : c.allocID 0 with
        | error => rw [hid] at halloc; cases halloc
        | ok id => rw [hid] at halloc; exact ⟨id, rfl, (Except.ok.inj halloc).symm⟩
      split at h
      · cases h
      next _ hmove =>
        obtain rfl := Except.ok.inj h
        unfold createMovePeerOperator at hmove
        split at hmove
        · cases hmove
        next kind steps hremove =>
          obtain rfl := Except.ok.inj hmove
          exact ⟨id, kind, steps, hid, hremove, rfl⟩

lemma removePeerSteps_runs {ids : List Nat} {kind : OperatorKind} {steps : List OperatorStep}
  (h : removePeerSteps c region fromStoreID ids = .ok (kind, steps)) (hleader : region.leader ≠ none)
  {r : RegionInfo} (hsame : r.leader = region.leader) (hfrom : fromStoreID ∈ r.storeIds)
  (hids : region.leaderStore = fromStoreID → ∀ id ∈ ids, id ∈ r.storeIds ∧ id ≠ fromStoreID) :
  ∃ r', runSteps r steps = some r' ∧ ∀ s, s ∈ r'.storeIds ↔ s ∈ r.storeIds ∧ s ≠ fromStoreID := by
  rcases removePeerSteps_ok h with ⟨hlead, id, hid, rfl⟩ | ⟨hno, rfl⟩
  · obtain ⟨hmem, hne⟩ := hids hlead id (List.mem_of_find?_eq_some hid)
    obtain ⟨r₁, hrun, hpeers, _, hlead'⟩ := runSteps_transferLeader fromStoreID hmem
    have hstores : r₁.storeIds = r.storeIds := congrArg (List.map Peer.storeId) hpeers
    refine ⟨r₁.withRemoveStorePeer fromStoreID, ?_, fun s => ?_⟩
    · rw [← List.singleton_append, runSteps_append, hrun, Option.bind_some]
      exact runSteps_removePeer (hstores ▸ hfrom) (hlead' ▸ hne)
    · rw [mem_storeIds_withRemoveStorePeer, hstores]
  have hlead : r.leaderStore ≠ fromStoreID := by
    intro e
    rw [RegionInfo.leaderStore, hsame] at e
    exact hno ⟨hleader, e⟩
  exact ⟨_, runSteps_removePeer hfrom hlead, fun s => mem_storeIds_withRemoveStorePeer⟩

end

section
variable {c : Cluster} {region : RegionInfo} {leader : Peer} {toStoreID id : Nat} {op : Operator}
  {steps : List OperatorStep}

lemma not_executes_of_peer (hled : region.Led leader) (hto : toStoreID ∈ region.storeIds)
  (hfresh : ∀ p ∈ region.getPeers, p.id ≠ id) (hrest : op.rest = createAddPeerSteps toStoreID id c ++ steps)
  (region' : RegionInfo) : ¬ Executes region op region' := by
  unfold createAddPeerSteps at hrest
  split at hrest
  · have hnone : region.getStoreLearner toStoreID = none := List.find?_eq_none.mpr fun p hp => by
        obtain ⟨hmem, hlearner⟩ := List.mem_filter.mp hp
        rw [hled.voters p hmem] at hlearner
        cases hlearner
    have hstart : (addLearner toStoreID id).isFinish region = false := by simp [isFinish, learnerAdded, hnone]
    exact not_executes_of_apply hrest hstart (applyAdd_eq_none hto)
  have hstart : (addPeer toStoreID id).isFinish region = false := by
    simp only [isFinish, voterAdded]
    split
    next p hp =>
      have hmem : p ∈ region.getPeers := (List.mem_filter.mp (List.mem_of_find?_eq_some hp)).1
      rw [if_pos (hfresh p hmem)]
    · rfl
  exact not_executes_of_apply hrest hstart (applyAdd_eq_none hto)

end

/-- **Transfer** ends right exactly if the target store was free. -/
theorem transferPeer_executes_iff (c : Cluster) (region : RegionInfo) (leader : Peer)
  (regionID fromStoreID toStoreID : Nat) (followers : List Nat) (op : Operator)
  (hregion : c.getRegion regionID = some region) (hled : region.Led leader)
  (hfollowers : followers.Perm (regionFollowerIDs region))
  (hfresh : ∀ id, c.allocID 0 = .ok id → (∀ p ∈ region.getPeers, p.id ≠ id) ∧ ∀ p ∈ region.pendingPeers, p.id ≠ id)
  (hop : transferPeerOperator (some c) regionID fromStoreID toStoreID followers = .ok op) :
  (∃ region', Executes region op region' ∧
      ∀ s, s ∈ region'.storeIds ↔ (s ∈ region.storeIds ∧ s ≠ fromStoreID) ∨ s = toStoreID) ↔
    toStoreID ∉ region.storeIds := by
  obtain ⟨hfrom, id, kind, steps, hid, hremove, hrest⟩ := transferPeerOperator_ok hregion hop
  obtain ⟨hpeers, hpending⟩ := hfresh id hid
  constructor
  · rintro ⟨region', hex, _⟩ hto
    exact not_executes_of_peer hled hto hpeers hrest region' hex
  intro hto
  have hadd := runSteps_addPeerSteps c hto hpending
  have hleader : region.leader ≠ none := by
    rw [hled.leader_eq]
    exact Option.some_ne_none _
  obtain ⟨region', hrun, hstores⟩ := removePeerSteps_runs hremove hleader
    (r := region.withAddPeer ⟨id, toStoreID, false⟩) rfl (mem_storeIds_withAddPeer.mpr (.inl hfrom))
    (fun hlead s hs => by
      rw [mem_storeIds_withAddPeer]
      rcases List.mem_append.mp hs with hs | hs
      · -- a follower
        obtain ⟨hmem, hne⟩ := follower_apart hled.nodup hled.leader_eq hled.leader_mem (hfollowers.mem_iff.mp hs)
        rw [RegionInfo.leaderStore, hled.leader_eq] at hlead
        exact ⟨.inl hmem, fun e => hne (e.trans hlead.symm)⟩
      obtain rfl := List.mem_singleton.mp hs
      exact ⟨.inr rfl, fun e => hto (e ▸ hfrom)⟩)
  refine ⟨region', executes_of_runSteps ?_, fun s => ?_⟩
  · rw [hrest, runSteps_append, hadd, Option.bind_some]
    exact hrun
  rw [hstores, mem_storeIds_withAddPeer]
  have hne : toStoreID ≠ fromStoreID := fun e => hto (e ▸ hfrom)
  constructor
  · rintro ⟨hs | rfl, hs'⟩
    · exact .inl ⟨hs, hs'⟩
    · exact .inr rfl
  rintro (⟨hs, hs'⟩ | rfl)
  · exact ⟨.inl hs, hs'⟩
  · exact ⟨.inr rfl, hne⟩

def ledRegion : RegionInfo := (loadedRegion 1 [] [1] [1, 2, 3]).withLeader (some ⟨11, 1, false⟩)
def ledCluster : Cluster := { smallCluster with getRegion := fun id => if id = 1 then some ledRegion else none }

theorem transferPeer_executes_leader :
  ∃ op, transferPeerOperator (some ledCluster) 1 1 4 [2, 3] = .ok op ∧ ∃ region', Executes ledRegion op region' ∧
      ∀ s, s ∈ region'.storeIds ↔ (s ∈ ledRegion.storeIds ∧ s ≠ 1) ∨ s = 4 := by
  refine ⟨_, rfl, (transferPeer_executes_iff ledCluster ledRegion ⟨11, 1, false⟩ 1 1 4 [2, 3] _ rfl
    ⟨by decide, by decide, rfl, by decide⟩ (by decide) (fun id hid => ?_) rfl).mpr (by decide)⟩
  obtain rfl : 100 = id := Except.ok.inj hid
  decide

/-- Store 2 has a peer of the region already. -/
theorem transferPeer_occupied :
  ∃ op, transferPeerOperator (some ledCluster) 1 1 2 [2, 3] = .ok op ∧ applyOperator 1 ledRegion op = none := by
  refine ⟨_, rfl, ?_⟩
  decide

end PD
