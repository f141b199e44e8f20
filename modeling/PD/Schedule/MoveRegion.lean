import PD.Schedule.MatchPeers
import PD.Schedule.Placements

/-! # Moving a region -/

namespace PD
open List RegionInfo Runs

section
variable {c : Cluster} {region : RegionInfo} {p : Placement} {k : Nat}
variable {ids : List Nat} {steps : List OperatorStep}

lemma isSome_getStorePeer {s : Nat} : (region.getStorePeer s).isSome = true ↔ s ∈ region.storeIds := by
  rw [Option.isSome_iff_ne_none, Ne, getStorePeer_eq_none, not_not]

lemma addStores_ok {n : Nat} (hok : addStores c region n ids = .ok steps) :
  ∃ groups : List (Nat × Nat), steps = groups.flatMap (fun z => createAddPeerSteps z.1 z.2 c) ∧
    groups.map Prod.fst = ids.filter (fun s => decide (s ∉ region.storeIds)) ∧
    ∀ z ∈ groups, ∃ n, c.allocID n = .ok z.2 := by
  induction ids generalizing n steps with
  | nil =>
    obtain rfl := Except.ok.inj hok
    exact ⟨[], rfl, rfl, fun z hz => absurd hz not_mem_nil⟩
  | cons a ids ih =>
    rw [addStores] at hok
    split at hok
    next hthere =>
      have hin : a ∈ region.storeIds := isSome_getStorePeer.mp hthere
      rw [filter_cons_of_neg (by simpa using hin)]
      exact ih hok
    next hmissing =>
      have hout : a ∉ region.storeIds := fun hmem => hmissing (isSome_getStorePeer.mpr hmem)
      rw [filter_cons_of_pos (by simpa using hout)]
      unfold Cluster.allocPeer at hok
      cases halloc : c.allocID n with
      | error =>
        rw [halloc] at hok
        cases hok
      | ok id =>
        rw [halloc] at hok
        cases hsteps : addStores c region (n+1) ids with
        | error =>
          rw [hsteps] at hok
          cases hok
        | ok =>
          rw [hsteps] at hok
          obtain rfl := Except.ok.inj hok
          obtain ⟨groups, rfl, hstores, hids⟩ := ih hsteps
          refine ⟨(a, id) :: groups, rfl, congrArg (List.cons a) hstores, fun z hz => ?_⟩
          rcases mem_cons.mp hz with rfl | hz
          · exact ⟨n, halloc⟩
          · exact hids z hz

lemma reaches_addGroups {groups : List (Nat × Nat)} (hnodup : (groups.map Prod.fst).Nodup)
  (hout : ∀ z ∈ groups, z.1 ∉ p.stores) (hfresh : ∀ z ∈ groups, z.2 ∉ p.pending) (hsafe : p.Safe k) :
  ∃ q, Reaches Placement.place (Placement.Safe k) p (groups.flatMap fun z => createAddPeerSteps z.1 z.2 c) q ∧
    (∀ s, s ∈ q.stores ↔ s ∈ p.stores ∨ s ∈ groups.map Prod.fst) ∧ q.leader = p.leader ∧ q.learners = p.learners := by
  induction groups generalizing p with
  | nil => exact ⟨p, Reaches.nil hsafe, fun s => by simp, rfl, rfl⟩
  | cons z groups ih =>
    obtain ⟨hz, hnodup⟩ := nodup_cons.mp hnodup
    have hadd := reaches_addPeerSteps c (hout z mem_cons_self) (hfresh z mem_cons_self) hsafe
    have hout' : ∀ y ∈ groups, y.1 ∉ (p.add z.1).stores := by
      intro y hy hmem
      rcases Finset.mem_insert.mp hmem with e | hmem
      · exact hz (e ▸ List.mem_map_of_mem hy)
      · exact hout y (mem_cons_of_mem _ hy) hmem
    obtain ⟨q, hq, hstores, hleader, hlearners⟩ := ih (p := p.add z.1) hnodup hout'
      (fun y hy => hfresh y (mem_cons_of_mem _ hy)) (hsafe.add z.1)
    refine ⟨q, hadd.append hq, fun s => ?_, hleader, hlearners⟩
    rw [hstores s, map_cons, mem_cons]
    show s ∈ insert z.1 p.stores ∨ _ ↔ _
    rw [Finset.mem_insert]
    tauto

lemma reaches_addStores (hok : addStores c region 0 ids = .ok steps) (hnodup : ids.Nodup)
  (hfresh : ∀ n id, c.allocID n = .ok id → ∀ p ∈ region.pendingPeers, p.id ≠ id) (hsafe : region.placement.Safe k) :
  ∃ q, Reaches Placement.place (Placement.Safe k) region.placement steps q ∧
    (∀ s, s ∈ q.stores ↔ s ∈ region.storeIds ∨ s ∈ ids) ∧ q.leader = region.leaderStore ∧
    q.learners = region.placement.learners := by
  obtain ⟨groups, rfl, hmap, hids⟩ := addStores_ok hok
  have hmem : ∀ s, s ∈ groups.map Prod.fst ↔ s ∈ ids ∧ s ∉ region.storeIds := fun s => by
    rw [hmap, mem_filter, decide_eq_true_iff]
  obtain ⟨q, hq, hstores, hkeep⟩ := reaches_addGroups (hmap ▸ hnodup.filter _)
    (fun z hz h => ((hmem z.1).mp (List.mem_map_of_mem hz)).2 (mem_placement_stores.mp h))
    (fun z hz => by
      obtain ⟨n, hn⟩ := hids z hz
      exact not_mem_pending (hfresh n z.2 hn)) hsafe
  refine ⟨q, hq, fun s => ?_, hkeep⟩
  rw [hstores s, hmem s, mem_placement_stores]
  tauto

section
variable {leader : Peer} {adds targets : List Nat} {t : Nat}
variable {q : Peer} {peers : List Peer}

structure Removing (leader : Peer) (adds : List Nat) (p : Placement) (peers : List Peer) : Prop where
  stores : ∀ s, s ∈ p.stores ↔ s ∈ adds ∨ s ∈ peers.map Peer.storeId
  nodup : (peers.map Peer.storeId).Nodup
  leader : p.leader ∈ adds ∨ leader ∈ peers ∧ p.leader = leader.storeId

lemma removing_start (hnodup : region.storeIds.Nodup) (hmem : leader ∈ region.getPeers)
  (hstores : ∀ s, s ∈ p.stores ↔ s ∈ region.storeIds ∨ s ∈ adds) (hlead : p.leader = leader.storeId) :
  Removing leader adds p region.getPeers :=
  ⟨fun s => (hstores s).trans Or.comm, hnodup, .inr ⟨hmem, hlead⟩⟩

lemma Removing.tail {p' : Placement} (h : Removing leader adds p (q :: peers)) (hout : q.storeId ∉ adds)
  (hstores : p'.stores = p.stores.erase q.storeId)
  (hleader : p'.leader ∈ adds ∨ leader ∈ peers ∧ p'.leader = leader.storeId) : Removing leader adds p' peers := by
  have hnodup := nodup_cons.mp h.nodup
  refine ⟨fun s => ?_, hnodup.2, hleader⟩
  rw [hstores, Finset.mem_erase, h.stores s, map_cons, mem_cons]
  constructor
  · rintro ⟨hne, hs | rfl | hs⟩
    · exact .inl hs
    · exact absurd rfl hne
    · exact .inr hs
  rintro (hs | hs)
  · exact ⟨fun e => hout (e ▸ hs), .inl hs⟩
  · exact ⟨fun e => hnodup.1 (e ▸ hs), .inr (.inr hs)⟩

lemma Removing.succ_le (h : Removing leader adds p (q :: peers))
  (hout : q.storeId ∉ adds) (hk : k ≤ adds.toFinset.card) : k + 1 ≤ p.stores.card := by
  have hsub : insert q.storeId adds.toFinset ⊆ p.stores := by
    intro s hs
    rw [h.stores s]
    rcases Finset.mem_insert.mp hs with rfl | hs
    · exact .inr mem_cons_self
    · exact .inl (List.mem_toFinset.mp hs)
  have hcard := Finset.card_le_card hsub
  rw [Finset.card_insert_of_notMem (fun hs => hout (List.mem_toFinset.mp hs))] at hcard
  omega

section
variable (hleaderID : region.leaderId = leader.id) (htargets : targets.take 1 = [t]) (ht : t ∈ adds)
  (hk : k ≤ adds.toFinset.card)
include hleaderID htargets ht hk

lemma reaches_removeFromStore (h : Removing leader adds p (q :: peers)) (hsafe : p.Safe k) :
  ∃ p', Reaches Placement.place (Placement.Safe k) p (removeFromStore region adds targets q) p' ∧
    Removing leader adds p' peers := by
  have htmem : t ∈ p.stores := (h.stores t).mpr (.inl ht)
  unfold removeFromStore
  split
  next hin =>
    have hin : q.storeId ∈ adds := by simpa using hin
    refine ⟨p, Reaches.nil hsafe, fun s => ?_, (nodup_cons.mp h.nodup).2, ?_⟩
    · rw [h.stores s, map_cons, mem_cons]
      constructor
      · rintro (hs | rfl | hs)
        · exact .inl hs
        · exact .inl hin
        · exact .inr hs
      · exact fun hs => hs.imp_right .inr
    rcases h.leader with hl | ⟨hl, e⟩
    · exact .inl hl
    rcases mem_cons.mp hl with rfl | hl
    · exact .inl (e ▸ hin)
    · exact .inr ⟨hl, e⟩
  next hout =>
    have hout : q.storeId ∉ adds := by simpa using hout
    have hcard := h.succ_le hout hk
    split
    next _ =>
      have hne : t ≠ q.storeId := fun e => hout (e ▸ ht)
      rw [htargets, map_singleton]
      exact ⟨_, reaches_handOver q.storeId htmem hne hcard hsafe, h.tail hout rfl (.inl ht)⟩
    next hid =>
      have hne : p.leader ≠ q.storeId := by
        rcases h.leader with hl | ⟨hl, e⟩
        · exact fun e => hout (e ▸ hl)
        rcases mem_cons.mp hl with rfl | hl
        · exact absurd hleaderID hid
        rw [e]
        exact fun e' => (nodup_cons.mp h.nodup).1 (e' ▸ List.mem_map_of_mem hl)
      refine ⟨p.drop q.storeId, reaches_removePeer hne hcard hsafe, h.tail hout rfl ?_⟩
      rcases h.leader with hl | ⟨hl, e⟩
      · exact .inl hl
      rcases mem_cons.mp hl with rfl | hl
      · exact absurd hleaderID hid
      · exact .inr ⟨hl, e⟩

lemma reaches_removeLoop {as bs : List Peer}
  (h : Removing leader adds p (as ++ bs)) (hsafe : p.Safe k) : ∃ q, Reaches Placement.place (Placement.Safe k) p
      (as.flatMap (removeFromStore region adds targets)) q ∧ Removing leader adds q bs := by
  induction as generalizing p with
  | nil => exact ⟨p, Reaches.nil hsafe, h⟩
  | cons a _ ih =>
    obtain ⟨p', hone, h'⟩ := reaches_removeFromStore hleaderID htargets ht hk h hsafe
    obtain ⟨q, hrest, hq⟩ := ih h' hone.last
    exact ⟨q, hone.append hrest, hq⟩

end

end
end

section
variable {desc : String} {c : Cluster} {region : RegionInfo} {kind : OperatorKind} {adds targets : List Nat}
  {op : Operator}

lemma createMoveRegionOperator_ok (h : createMoveRegionOperator desc c region kind adds targets = .ok op) :
  ∃ steps, addStores c region 0 adds = .ok steps ∧
    op.rest = steps ++ region.getPeers.flatMap (removeFromStore region adds targets) := by
  unfold createMoveRegionOperator at h
  cases hsteps : addStores c region 0 adds with
  | error =>
    rw [hsteps] at h
    cases h
  | ok steps =>
    rw [hsteps] at h
    obtain rfl := Except.ok.inj h
    exact ⟨steps, rfl, rfl⟩

lemma take_one_of_ne_nil (hne : targets ≠ []) : ∃ t ∈ targets, targets.take 1 = [t] := by
  cases targets with
  | nil => exact absurd rfl hne
  | cons t => exact ⟨t, mem_cons_self, rfl⟩

end

/-- **Moving a region** ends on the given stores. -/
theorem moveRegion_executes (desc : String) (c : Cluster) (region : RegionInfo) (kind : OperatorKind)
  (adds targets : List Nat) (leader : Peer) (op : Operator) (hnodup : region.storeIds.Nodup)
  (hleader : region.leader = some leader) (hmem : leader ∈ region.getPeers) (hne : adds ≠ [])
  (hset : adds.Nodup) (horder : targets.Perm adds)
  (hfresh : ∀ n id, c.allocID n = .ok id → ∀ p ∈ region.pendingPeers, p.id ≠ id)
  (hop : createMoveRegionOperator desc c region kind adds targets = .ok op) :
  ∃ region', Executes region op region' ∧ region'.storeIds.Perm adds ∧ region'.leaderStore ∈ adds ∧
    ∀ n r o, applyOperator n region op = some (r, o) →
      r.leaderStore ∈ r.storeIds ∧ min region.getPeers.length adds.length ≤ r.getPeers.length := by
  obtain ⟨steps, hsteps, hrest⟩ := createMoveRegionOperator_ok hop
  have hcard : adds.toFinset.card = adds.length := toFinset_card_of_nodup hset
  have hled := leaderStore_mem hleader hmem
  obtain ⟨p, hadd, hstores, hlead, -⟩ := reaches_addStores hsteps hset hfresh
    (safe_placement hnodup hled (Nat.min_le_left region.getPeers.length adds.length))
  have hremoving := removing_start hnodup hmem hstores (hlead.trans (leaderStore_of_some hleader))
  have htne : targets ≠ [] := fun e => hne (List.Perm.nil_eq (e ▸ horder)).symm
  obtain ⟨t, ht, htake⟩ := take_one_of_ne_nil htne
  rw [← append_nil region.getPeers] at hremoving
  obtain ⟨q, hremove, hq⟩ := reaches_removeLoop (leaderId_of_some hleader) htake (horder.mem_iff.mp ht)
    (hcard ▸ Nat.min_le_right _ _) hremoving hadd.last
  have hreach := hadd.append hremove
  rw [← hrest] at hreach
  obtain ⟨region', hexec, hnodup', hmem', hleader', halong⟩ := executes_safely hnodup hreach
  refine ⟨region', hexec, ?_, ?_, halong⟩
  · refine (perm_ext_iff_of_nodup hnodup' hset).mpr fun s => ?_
    rw [hmem' s, hq.stores s]
    simp
  rw [hleader']
  exact hq.leader.resolve_right fun h => not_mem_nil h.1

theorem moveRegion_executes_led : ∃ op region', createMoveRegionOperator "" smallCluster
    ((loadedRegion 2 [1] [2] [1, 2, 3]).withLeader (some ⟨21, 1, false⟩)) 0 [3, 4, 5] [4, 5, 3] = .ok op ∧
  Executes ((loadedRegion 2 [1] [2] [1, 2, 3]).withLeader (some ⟨21, 1, false⟩)) op region' ∧
  region'.storeIds.Perm [3, 4, 5] := by
  obtain ⟨region', hexec, hperm, -⟩ := moveRegion_executes "" smallCluster
    ((loadedRegion 2 [1] [2] [1, 2, 3]).withLeader (some ⟨21, 1, false⟩)) 0 [3, 4, 5] [4, 5, 3] ⟨21, 1, false⟩ _
    (by decide) rfl (by decide) (by decide) (by decide) (by decide) (fun n id _ p hp => by cases hp) rfl
  exact ⟨_, region', rfl, hexec, hperm⟩

end PD
