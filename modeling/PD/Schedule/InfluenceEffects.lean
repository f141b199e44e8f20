import PD.Schedule.InfluenceCounts
import PD.Schedule.MatchExecution
import PD.Schedule.MoveRegion

/-! # Influence and effect of the operators -/

set_option linter.unusedSectionVars false

namespace PD
open List RegionInfo OperatorStep Peer

inductive Move where
  | movePeer (oldStore newStore peerID : Nat) (followers : List Nat)
  | moveLeader (oldStore newStore peerID : Nat)
  | moveRegion (adds targets : List Nat)
  | removePeer (storeID : Nat) (followers : List Nat)

namespace Move

def build (desc : String) (kind : OperatorKind) (c : Cluster) (region : RegionInfo) : Move → Except String Operator
  | movePeer oldStore newStore peerID followers =>
    createMovePeerOperator desc c region kind oldStore newStore peerID followers
  | moveLeader oldStore newStore peerID => createMoveLeaderOperator desc c region kind oldStore newStore peerID
  | moveRegion adds targets => createMoveRegionOperator desc c region kind adds targets
  | removePeer storeID followers => c.createRemovePeerOperator desc kind region storeID followers

def Accepted (c : Cluster) (region : RegionInfo) : Move → Prop
  | movePeer oldStore newStore peerID followers => oldStore ∈ region.storeIds ∧ newStore ∉ region.storeIds ∧
    followers.Perm (regionFollowerIDs region) ∧ ∀ p ∈ region.pendingPeers, p.id ≠ peerID
  | moveLeader oldStore newStore peerID => region.leaderStore = oldStore ∧ newStore ∉ region.storeIds ∧
    ∀ p ∈ region.pendingPeers, p.id ≠ peerID
  | moveRegion adds targets => adds ≠ [] ∧ adds.Nodup ∧ targets.Perm adds ∧
    ∀ n id, c.allocID n = .ok id → ∀ p ∈ region.pendingPeers, p.id ≠ id
  | removePeer _ followers => followers.Perm (regionFollowerIDs region)

def Counted (region : RegionInfo) : Move → Prop
  | movePeer .. => True
  | moveLeader .. => False
  | moveRegion adds _ => ∀ q ∈ region.getPeers, q.id = region.leaderId → q.storeId ∉ adds →
    q.storeId = region.leaderStore
  | removePeer storeID _ => storeID ∈ region.storeIds

end Move

def FromLeader (l : Nat) (ts : List (Nat × Nat)) : Prop := ts = [] ∨ ∃ t, ts = [(l, t)]

section
variable {p q : Placement} {steps : List OperatorStep}

lemma transferSum_nil (x : Nat) : transferSum [] x = 0 := rfl

lemma transferSum_cons (z : Nat × Nat) (ts : List (Nat × Nat)) (x : Nat) :
    transferSum (z :: ts) x = (if x = z.2 then 1 else 0) - (if x = z.1 then 1 else 0) + transferSum ts x := rfl

lemma transferSum_fromLeader (h : Runs.exec Placement.place p steps = some q)
  (hts : FromLeader p.leader (transfers steps)) (region : RegionInfo) (x : Nat) :
  transferSum (transfers steps) x = (if x = q.leader then 1 else 0) - (if x = p.leader then 1 else 0) := by
  obtain ⟨-, hlead⟩ := leaders_of_exec region x h
  rw [hlead]
  rcases hts with e | ⟨t, e⟩
  · rw [e]
    exact (Int.sub_self _).symm
  rw [e, transferSum_cons, transferSum_nil, Int.add_zero]
  rfl

end

section
variable {c : Cluster} {region : RegionInfo} {oldStore : Nat} {ids : List Nat} {kind : OperatorKind}
  {steps : List OperatorStep} {p : Placement}

lemma succ_le_card (h : p.Safe 0) : 0 + 1 ≤ p.stores.card := Finset.card_pos.mpr ⟨p.leader, h.2⟩

lemma reaches_removePeerSteps (hok : removePeerSteps c region oldStore ids = .ok (kind, steps))
  (hleader : region.leader ≠ none) (hp : p.leader = region.leaderStore)
  (hids : region.leaderStore = oldStore → ∀ id ∈ ids, id ∈ p.stores ∧ id ≠ oldStore) (hsafe : p.Safe 0) :
  ∃ q, Runs.Reaches Placement.place (Placement.Safe 0) p steps q ∧ removes steps = [oldStore] ∧
    FromLeader region.leaderStore (transfers steps) := by
  rcases removePeerSteps_ok hok with ⟨hlead, id, hid, rfl⟩ | ⟨hno, rfl⟩
  · obtain ⟨hmem, hne⟩ := hids hlead id (mem_of_find?_eq_some hid)
    exact ⟨_, reaches_handOver oldStore hmem hne (succ_le_card hsafe) hsafe, rfl, .inr ⟨id, by rw [hlead]; rfl⟩⟩
  have hne : p.leader ≠ oldStore := fun e => hno ⟨hleader, hp.symm.trans e⟩
  exact ⟨_, reaches_removePeer hne (succ_le_card hsafe) hsafe, rfl, .inl rfl⟩

lemma removes_single (h : removes steps = [oldStore]) (hin : oldStore ∈ region.storeIds) :
  (removes steps).Nodup ∧ ∀ a ∈ removes steps, a ∈ region.storeIds := by
  rw [h]
  refine ⟨nodup_singleton oldStore, fun a ha => ?_⟩
  rw [mem_singleton.mp ha]
  exact hin

end

section
variable {region : RegionInfo} {adds targets : List Nat} {t : Nat}

def leaving (adds : List Nat) (peers : List Peer) : List Peer := peers.filter fun q => decide (q.storeId ∉ adds)

def leadersLeaving (region : RegionInfo) (adds : List Nat) (peers : List Peer) : List Peer :=
  (leaving adds peers).filter fun q => decide (q.id = region.leaderId)

lemma removes_removeLoop (peers : List Peer) :
  removes (peers.flatMap (removeFromStore region adds targets)) = (leaving adds peers).map storeId := by
  induction peers with
  | nil => rfl
  | cons q _ ih =>
    rw [flatMap_cons, removes_append, ih, removeFromStore]
    by_cases hin : q.storeId ∈ adds
    · rw [if_pos (by simpa using hin), leaving, leaving, filter_cons_of_neg (by simpa using hin)]
      rfl
    rw [if_neg (by simpa using hin), leaving, leaving, filter_cons_of_pos (by simpa using hin), map_cons]
    split
    · have hno : removes ((targets.take 1).map (transferLeader q.storeId)) = [] :=
        filterMap_eq_nil_iff.mpr fun s hs => by
          obtain ⟨t, -, rfl⟩ := mem_map.mp hs
          rfl
      rw [removes_append, hno]
      rfl
    · rfl

lemma transfers_removeLoop (htake : targets.take 1 = [t]) (peers : List Peer) :
  transfers (peers.flatMap (removeFromStore region adds targets)) =
    (leadersLeaving region adds peers).map fun q => (q.storeId, t) := by
  unfold leadersLeaving
  induction peers with
  | nil => rfl
  | cons q _ ih =>
    rw [flatMap_cons, transfers_append, ih, removeFromStore]
    by_cases hin : q.storeId ∈ adds
    · rw [if_pos (by simpa using hin), leaving, leaving, filter_cons_of_neg (by simpa using hin)]
      rfl
    rw [if_neg (by simpa using hin), leaving, leaving, filter_cons_of_pos (by simpa using hin)]
    by_cases hid : region.leaderId = q.id
    · rw [if_pos hid, htake, filter_cons_of_pos (by simpa using hid.symm)]
      rfl
    rw [if_neg hid, filter_cons_of_neg (by simpa using Ne.symm hid)]
    rfl

lemma mem_leadersLeaving {q : Peer} : q ∈ leadersLeaving region adds region.getPeers ↔
  q ∈ region.getPeers ∧ q.storeId ∉ adds ∧ q.id = region.leaderId := by
  simp [leadersLeaving, leaving, and_comm]

lemma nil_or_singleton {α : Type*} {l : List α} {a : α} (hnodup : l.Nodup) (h : ∀ b ∈ l, b = a) :
  l = [] ∨ l = [a] := by
  cases l with
  | nil => exact .inl rfl
  | cons b =>
    obtain rfl := h b mem_cons_self
    refine .inr (congrArg (List.cons b) ?_)
    refine eq_nil_iff_forall_not_mem.mpr fun x hx => ?_
    rw [h x (mem_cons_of_mem _ hx)] at hx
    exact (nodup_cons.mp hnodup).1 hx

lemma transferSum_nonpos {x : Nat} (hx : x ≠ t) (qs : List Peer) :
  transferSum (qs.map fun q => (q.storeId, t)) x ≤ 0 := by
  induction qs with
  | nil => exact Int.le_refl 0
  | cons =>
    rw [map_cons, transferSum_cons, if_neg hx]
    split <;> omega

lemma transferSum_neg {qs : List Peer} {x : Nat} (hx : x ≠ t) (hmem : x ∈ qs.map storeId) :
  transferSum (qs.map fun q => (q.storeId, t)) x < 0 := by
  induction qs with
  | nil => cases hmem
  | cons q qs ih =>
    rw [map_cons, transferSum_cons, if_neg hx]
    by_cases e : x = q.storeId
    · have hle := transferSum_nonpos hx qs
      rw [if_pos e]
      omega
    have hlt := ih ((mem_cons.mp hmem).resolve_left e)
    rw [if_neg e]
    omega

end

section
variable {desc : String} {kind : OperatorKind} {c : Cluster} {region : RegionInfo} {leader : Peer} {op : Operator}
  {m : OpInfluence}

def Effective (m : OpInfluence) (op : Operator) (region region' : RegionInfo) : Prop :=
  m.CountsBy (op.totalInfluence m region) (fun x => region'.peersOn x - region.peersOn x)
    (fun x => region'.leadersOn x - region.leadersOn x)

lemma build_rest {k : Move} (h : k.build desc kind c region = .ok op) : op.rest = op.steps := by
  cases k with
  | movePeer =>
    rw [Move.build, createMovePeerOperator] at h
    split at h
    · cases h
    · exact Except.ok.inj h ▸ rfl
  | moveLeader =>
    rw [Move.build, createMoveLeaderOperator] at h
    split at h
    · cases h
    · exact Except.ok.inj h ▸ rfl
  | moveRegion adds =>
    rw [Move.build, createMoveRegionOperator] at h
    cases hsteps : addStores c region 0 adds with
    | error =>
      rw [hsteps] at h
      cases h
    | ok =>
      rw [hsteps] at h
      exact Except.ok.inj h ▸ rfl
  | removePeer =>
    rw [Move.build, Cluster.createRemovePeerOperator] at h
    split at h
    · cases h
    · exact Except.ok.inj h ▸ rfl

section
variable (hnodup : region.storeIds.Nodup) (hleader : region.leader = some leader) (hmem : leader ∈ region.getPeers)
variable {followers adds targets : List Nat} {storeID oldStore newStore peerID : Nat}
include hnodup hleader hmem

lemma safe_led : region.placement.Safe 0 := safe_placement hnodup (leaderStore_mem hleader hmem) (Nat.zero_le _)

lemma effective_of_fromLeader {q : Placement} (hrest : op.rest = op.steps)
  (hreach : Runs.Reaches Placement.place (Placement.Safe 0) region.placement op.steps q)
  (hremoves : (removes op.steps).Nodup) (hin : ∀ a ∈ removes op.steps, a ∈ region.storeIds)
  (hts : FromLeader region.leaderStore (transfers op.steps)) :
  ∃ region', Executes region op region' ∧ Effective m op region region' := by
  have hled : region.leader ≠ none := by simp [hleader]
  obtain ⟨region', hexec, hiff⟩ := influence_counts m hnodup hled hrest hreach hremoves hin
  exact ⟨region', hexec, hiff.mpr (transferSum_fromLeader hreach.exec_eq hts region)⟩

lemma followers_apart (hperm : followers.Perm (regionFollowerIDs region))
  (hlead : region.leaderStore = storeID) : ∀ id ∈ followers, id ∈ region.storeIds ∧ id ≠ storeID := by
  intro id hid
  obtain ⟨hin, hne⟩ := follower_apart hnodup hleader hmem (hperm.mem_iff.mp hid)
  rw [← leaderStore_of_some hleader, hlead] at hne
  exact ⟨hin, hne⟩

lemma movePeer_effective (hacc : (Move.movePeer oldStore newStore peerID followers).Accepted c region)
  (hop : (Move.movePeer oldStore newStore peerID followers).build desc kind c region = .ok op) :
  ∃ region', Executes region op region' ∧ Effective m op region region' := by
  obtain ⟨hold, hnew, hperm, hfresh⟩ := hacc
  have hrest := build_rest hop
  rw [Move.build, createMovePeerOperator] at hop
  split at hop
  · cases hop
  next _ steps hok =>
    obtain rfl := Except.ok.inj hop
    have hsafe := safe_led hnodup hleader hmem
    have hadd := reaches_addPeerSteps c (fun h => hnew (mem_placement_stores.mp h))
      (not_mem_pending hfresh) hsafe
    obtain ⟨q, hq, hremoves, hts⟩ := reaches_removePeerSteps (p := region.placement.add newStore) hok
      (by simp [hleader]) rfl
      (fun hlead id hid => by
        rcases mem_append.mp hid with hid | hid
        · obtain ⟨hin, hne⟩ := followers_apart hnodup hleader hmem hperm hlead id hid
          exact ⟨Finset.mem_insert_of_mem (mem_placement_stores.mpr hin), hne⟩
        rw [mem_singleton.mp hid]
        exact ⟨Finset.mem_insert_self _ _, fun e => hnew (e ▸ hold)⟩) hadd.last
    have hadds := addsPeer_createAddPeerSteps c newStore peerID
    have hremoves' : removes (createAddPeerSteps newStore peerID c ++ steps) = [oldStore] := by
      rw [removes_append, removes_of_adds hadds, hremoves]
      rfl
    obtain ⟨hone, hin⟩ := removes_single hremoves' hold
    refine effective_of_fromLeader hnodup hleader hmem hrest (hadd.append hq) hone hin ?_
    show FromLeader _ (transfers (createAddPeerSteps newStore peerID c ++ steps))
    rw [transfers_append, transfers_of_adds hadds]
    exact hts

lemma removePeer_not_effective (hsteps : op.steps = [.removePeer storeID]) (hrest : op.rest = op.steps)
  (hout : storeID ∉ region.storeIds) : ∃ region', Executes region op region' ∧ ¬ Effective m op region region' := by
  have hsafe := safe_led hnodup hleader hmem
  have hne : region.placement.leader ≠ storeID := fun e => hout (e ▸ leaderStore_mem hleader hmem)
  have hreach := reaches_removePeer hne (succ_le_card hsafe) hsafe
  rw [← hsteps, ← hrest] at hreach
  obtain ⟨region', hexec, hnodup', -, hplace⟩ := executes_led hnodup (by simp [hleader]) hreach
  refine ⟨region', hexec, fun heff => ?_⟩
  have hgone : storeID ∉ (region.placement.drop storeID).stores := fun h => (Finset.mem_erase.mp h).1 rfl
  have hcount := (heff storeID).1
  rw [(counts_total region m op storeID).1, hsteps] at hcount
  dsimp only at hcount
  rw [peersOn_eq hnodup, peersOn_eq hnodup', hplace, if_neg fun h => hout (mem_placement_stores.mp h),
    if_neg hgone] at hcount
  have hstep : ([OperatorStep.removePeer storeID].map (regionChange region storeID)).sum = -1 := by
    show (if storeID = storeID then (-1 : Int) else 0) + 0 = -1
    simp
  omega

lemma removePeer_effective (hacc : (Move.removePeer storeID followers).Accepted c region)
  (hop : (Move.removePeer storeID followers).build desc kind c region = .ok op) :
  ∃ region', Executes region op region' ∧ (Effective m op region region' ↔ storeID ∈ region.storeIds) := by
  have hrest := build_rest hop
  rw [Move.build, Cluster.createRemovePeerOperator] at hop
  split at hop
  · cases hop
  next _ steps hok =>
    obtain rfl := Except.ok.inj hop
    by_cases hin : storeID ∈ region.storeIds
    · obtain ⟨q, hq, hremoves, hts⟩ := reaches_removePeerSteps (p := region.placement) hok (by simp [hleader]) rfl
        (fun hlead id hid => by
          obtain ⟨hin, hne⟩ := followers_apart hnodup hleader hmem hacc hlead id hid
          exact ⟨mem_placement_stores.mpr hin, hne⟩) (safe_led hnodup hleader hmem)
      obtain ⟨hone, hall⟩ := removes_single hremoves hin
      obtain ⟨region', hexec, heff⟩ := effective_of_fromLeader (m := m) hnodup hleader hmem hrest hq hone hall hts
      exact ⟨region', hexec, iff_of_true heff hin⟩
    have hsteps : steps = [.removePeer storeID] := by
      rcases removePeerSteps_ok hok with ⟨hlead, -⟩ | ⟨-, hsteps⟩
      · exact absurd (hlead ▸ leaderStore_mem hleader hmem) hin
      · exact hsteps
    obtain ⟨region', hexec, hno⟩ := removePeer_not_effective (m := m) hnodup hleader hmem hsteps hrest hin
    exact ⟨region', hexec, iff_of_false hno hin⟩

lemma moveLeader_steps (hold : region.leaderStore = oldStore)
  (hop : (Move.moveLeader oldStore newStore peerID).build desc kind c region = .ok op) :
  op.steps = createAddPeerSteps newStore peerID c ++ [.transferLeader oldStore newStore] ++
    [.transferLeader oldStore newStore, .removePeer oldStore] := by
  rw [Move.build, createMoveLeaderOperator] at hop
  split at hop
  · cases hop
  next _ _ hok =>
    obtain rfl := Except.ok.inj hop
    rcases removePeerSteps_ok hok with ⟨-, id, hid, rfl⟩ | ⟨hno, -⟩
    · rw [mem_singleton.mp (mem_of_find?_eq_some hid)]
      rfl
    · exact absurd ⟨by simp [hleader], hold⟩ hno

lemma moveLeader_not_effective (hacc : (Move.moveLeader oldStore newStore peerID).Accepted c region)
  (hop : (Move.moveLeader oldStore newStore peerID).build desc kind c region = .ok op) :
  ∃ region', Executes region op region' ∧ ¬ Effective m op region region' := by
  obtain ⟨hold, hnew, hfresh⟩ := hacc
  have hsteps := moveLeader_steps hnodup hleader hmem hold hop
  have hin : oldStore ∈ region.storeIds := hold ▸ leaderStore_mem hleader hmem
  have hne : newStore ≠ oldStore := fun e => hnew (e ▸ hin)
  have hadd := reaches_addPeerSteps c (fun h => hnew (mem_placement_stores.mp h))
    (not_mem_pending hfresh) (safe_led hnodup hleader hmem)
  have hstore : newStore ∈ (region.placement.add newStore).stores := Finset.mem_insert_self _ _
  have hfirst := reaches_transferLeader oldStore hstore hadd.last
  have hagain := reaches_handOver (p := (region.placement.add newStore).lead newStore) oldStore hstore hne
    (succ_le_card hfirst.last) hfirst.last
  have hreach := (hadd.append hfirst).append hagain
  rw [← hsteps] at hreach
  have hadds := addsPeer_createAddPeerSteps c newStore peerID
  have hremoves : removes op.steps = [oldStore] := by
    rw [hsteps, removes_append, removes_append, removes_of_adds hadds]
    rfl
  have htransfers : transfers op.steps = [(oldStore, newStore), (oldStore, newStore)] := by
    rw [hsteps, transfers_append, transfers_append, transfers_of_adds hadds]
    rfl
  obtain ⟨hone, hall⟩ := removes_single hremoves hin
  obtain ⟨region', hexec, hiff⟩ := influence_counts m hnodup (by simp [hleader]) (build_rest hop) hreach hone hall
  refine ⟨region', hexec, fun heff => ?_⟩
  have hsum : transferSum (transfers op.steps) oldStore =
      (if oldStore = newStore then (1 : Int) else 0) - (if oldStore = region.leaderStore then 1 else 0) :=
    hiff.mp heff oldStore
  have htwice : transferSum [(oldStore, newStore), (oldStore, newStore)] oldStore = -2 := by
    simp [transferSum, Ne.symm hne]
  rw [htransfers, htwice, if_neg (Ne.symm hne), if_pos hold.symm] at hsum
  omega

lemma moveRegion_run (hacc : (Move.moveRegion adds targets).Accepted c region)
  (hop : (Move.moveRegion adds targets).build desc kind c region = .ok op) :
  ∃ t q, t ∈ adds ∧ Runs.Reaches Placement.place (Placement.Safe 0) region.placement op.steps q ∧ q.leader ∈ adds ∧
    removes op.steps = (leaving adds region.getPeers).map storeId ∧
    transfers op.steps = (leadersLeaving region adds region.getPeers).map fun q => (q.storeId, t) := by
  obtain ⟨hne, hset, horder, hfresh⟩ := hacc
  obtain ⟨steps, hsteps, hshape⟩ := createMoveRegionOperator_ok hop
  rw [build_rest hop] at hshape
  have hleaderID := leaderId_of_some hleader
  obtain ⟨p, hadd, hstores, hlead, -⟩ := reaches_addStores hsteps hset hfresh (safe_led hnodup hleader hmem)
  have hremoving := removing_start hnodup hmem hstores (hlead.trans (leaderStore_of_some hleader))
  rw [← append_nil region.getPeers] at hremoving
  have htne : targets ≠ [] := fun e => hne (List.Perm.nil_eq (e ▸ horder)).symm
  obtain ⟨t, ht, htake⟩ := take_one_of_ne_nil htne
  have htadds : t ∈ adds := horder.mem_iff.mp ht
  obtain ⟨q, hremove, hq⟩ := reaches_removeLoop hleaderID htake htadds (Nat.zero_le _) hremoving hadd.last
  obtain ⟨groups, rfl, -, -⟩ := addStores_ok hsteps
  have hadds : ∀ s ∈ groups.flatMap (fun z => createAddPeerSteps z.1 z.2 c), s.addsPeer = true := by
    intro s hs
    obtain ⟨z, -, hs⟩ := mem_flatMap.mp hs
    exact addsPeer_createAddPeerSteps c z.1 z.2 s hs
  refine ⟨t, q, htadds, hshape ▸ hadd.append hremove, hq.leader.resolve_right fun h => not_mem_nil h.1, ?_, ?_⟩
  · rw [hshape, removes_append, removes_of_adds hadds, removes_removeLoop]
    rfl
  rw [hshape, transfers_append, transfers_of_adds hadds, transfers_removeLoop htake]
  rfl

lemma fromLeader_leadersLeaving (h : (Move.moveRegion adds targets).Counted region) (t : Nat) :
  FromLeader region.leaderStore ((leadersLeaving region adds region.getPeers).map fun q => (q.storeId, t)) := by
  have hleaderStore := leaderStore_of_some hleader
  have hall : ∀ x ∈ leadersLeaving region adds region.getPeers, x = leader := by
    intro x hx
    obtain ⟨hx, hout, hid⟩ := mem_leadersLeaving.mp hx
    exact inj_on_of_nodup_map hnodup hx hmem ((h x hx hid hout).trans hleaderStore)
  have hnodup' : (leadersLeaving region adds region.getPeers).Nodup :=
    ((List.Nodup.of_map storeId hnodup).filter _).filter _
  rcases nil_or_singleton hnodup' hall with e | e
  · rw [e]
    exact .inl rfl
  rw [e]
  exact .inr ⟨t, by rw [hleaderStore]; rfl⟩

lemma moveRegion_effective (hacc : (Move.moveRegion adds targets).Accepted c region)
  (hop : (Move.moveRegion adds targets).build desc kind c region = .ok op) : ∃ region', Executes region op region' ∧
    (Effective m op region region' ↔ (Move.moveRegion adds targets).Counted region) := by
  obtain ⟨t, q, ht, hreach, hqlead, hremoves, htransfers⟩ := moveRegion_run hnodup hleader hmem hacc hop
  have hsub : Sublist ((leaving adds region.getPeers).map storeId) region.storeIds := filter_sublist.map storeId
  obtain ⟨region', hexec, hiff⟩ := influence_counts m hnodup (by simp [hleader]) (build_rest hop) hreach
    (hremoves ▸ hnodup.sublist hsub) (fun a ha => hsub.subset (hremoves ▸ ha))
  refine ⟨region', hexec, hiff.trans ⟨fun h => ?_, fun h => ?_⟩⟩
  · intro x hx hid hout
    by_contra hother
    have hneg : transferSum ((leadersLeaving region adds region.getPeers).map fun q => (q.storeId, t)) x.storeId < 0 :=
      transferSum_neg (fun e => hout (e ▸ ht)) (mem_map_of_mem (mem_leadersLeaving.mpr ⟨hx, hout, hid⟩))
    have hsum := h x.storeId
    rw [htransfers, if_neg fun e : x.storeId = q.leader => hout (e ▸ hqlead), if_neg hother] at hsum
    omega
  have hfrom : FromLeader region.leaderStore (transfers op.steps) :=
    htransfers ▸ fromLeader_leadersLeaving hnodup hleader hmem h t
  exact transferSum_fromLeader hreach.exec_eq hfrom region

end
end

section
variable {c : Cluster} {source target : RegionInfo} {order : List Nat} {adds : Adds} {steps : List OperatorStep}
  {kind : OperatorKind} {groups : List (List OperatorStep)} {news olds : List Peer}

lemma adds_exchanges (h : Forall₂ (Adder c) groups news) (olds : List Peer) :
  ∀ x ∈ exchanges groups news olds, ∀ s ∈ x.adds, s.addsPeer = true := by
  intro x hx
  obtain ⟨n, id, -, hadds⟩ := mem_exchanges h olds hx
  rw [hadds]
  exact addsPeer_createAddPeerSteps c _ id

lemma removes_exchanges {xs : List Exchange} (h : ∀ x ∈ xs, ∀ s ∈ x.adds, s.addsPeer = true) :
  removes (xs.flatMap Exchange.steps) = xs.map Exchange.old ∧ transfers (xs.flatMap Exchange.steps) = [] := by
  induction xs with
  | nil => exact ⟨rfl, rfl⟩
  | cons x _ ih =>
    obtain ⟨h1, h2⟩ := ih fun y hy => h y (mem_cons_of_mem _ hy)
    have hadds := h x mem_cons_self
    rw [flatMap_cons, removes_append, transfers_append, h1, h2, Exchange.steps, removes_append, transfers_append,
      removes_of_adds hadds, transfers_of_adds hadds]
    exact ⟨rfl, rfl⟩

lemma disjoint_moves {first id : Nat} {last : Peer} (hs : source.storeIds.Nodup)
  (hleader : source.leaderStore ∈ source.storeIds) (hle : (nonLeaders source).length ≤ news.length)
  (hgroups : Forall₂ (Adder c) groups news)
  (hsteps : steps = (exchanges groups news (nonLeaders source)).flatMap Exchange.steps ++
    createAddPeerSteps last.storeId id c ++
    [.transferLeader source.leaderStore first, .removePeer source.leaderStore]) :
  (removes steps).Nodup ∧ (∀ a ∈ removes steps, a ∈ source.storeIds) ∧
    FromLeader source.leaderStore (transfers steps) := by
  obtain ⟨h1, h2⟩ := removes_exchanges (adds_exchanges hgroups (nonLeaders source))
  rw [map_old_exchanges hgroups (nonLeaders source) hle] at h1
  have hadds := addsPeer_createAddPeerSteps c last.storeId id
  have hremoves : removes steps = (nonLeaders source).map storeId ++ [source.leaderStore] := by
    rw [hsteps, removes_append, removes_append, h1, removes_of_adds hadds, append_nil]
    rfl
  have hsub : Sublist ((nonLeaders source).map storeId) source.storeIds := filter_sublist.map storeId
  refine ⟨?_, ?_, .inr ⟨first, ?_⟩⟩
  · rw [hremoves]
    refine nodup_append.mpr ⟨hs.sublist hsub, nodup_singleton _, fun a ha b hb e => ?_⟩
    rw [e, mem_singleton.mp hb] at ha
    exact (mem_nonLeaders_stores.mp ha).2 rfl
  · intro a ha
    rw [hremoves] at ha
    rcases mem_append.mp ha with ha | ha
    · exact hsub.subset ha
    rw [mem_singleton.mp ha]
    exact hleader
  rw [hsteps, transfers_append, transfers_append, h2, transfers_of_adds hadds]
  rfl

lemma sharedTransfer_moves (source : RegionInfo) (order : List Nat) : removes (sharedTransfer source order) = [] ∧
  FromLeader source.leaderStore (transfers (sharedTransfer source order)) := by
  unfold sharedTransfer
  split
  · exact ⟨rfl, .inl rfl⟩
  cases order.getLast? with
  | none => exact ⟨rfl, .inl rfl⟩
  | some s => exact ⟨rfl, .inr ⟨s, rfl⟩⟩

lemma matchPeerSteps_moves (h : Matching c source target order adds)
  (hsteps : matchPeerSteps c source target order = some (.ok (steps, kind))) :
  (removes steps).Nodup ∧ (∀ a ∈ removes steps, a ∈ source.storeIds) ∧
    FromLeader source.leaderStore (transfers steps) := by
  by_cases hne : order = []
  · subst hne
    obtain ⟨groups, adds', kind', first, last, hgroups, -, -, ⟨n, id, -, rfl⟩, hsteps'⟩ := matchPeerSteps_disjoint h
    obtain ⟨hshape, -⟩ := Prod.mk.inj (Except.ok.inj (Option.some.inj (hsteps.symm.trans hsteps')))
    have hcount := length_nonLeaders h.nodup h.leader
    have hlen := h.length
    exact disjoint_moves h.nodup h.leader (by omega) hgroups hshape
  have hmissing := length_missing h.nodup h.targets h.length h.shared
  obtain ⟨groups, kind', hgroups, hsteps'⟩ := matchPeerSteps_shared h hne
  obtain ⟨rfl, -⟩ := Prod.mk.inj (Except.ok.inj (Option.some.inj (hsteps.symm.trans hsteps')))
  obtain ⟨h1, h2⟩ := removes_exchanges (adds_exchanges hgroups (missing order source.getPeers))
  rw [map_old_exchanges hgroups (missing order source.getPeers) hmissing.ge] at h1
  obtain ⟨hnone, hfrom⟩ := sharedTransfer_moves source order
  rw [removes_append, transfers_append, h1, h2, hnone, nil_append, append_nil]
  exact ⟨nodup_missing_stores h.nodup, fun a ha => (mem_missing_stores.mp ha).1, hfrom⟩

structure Mergeable (c : Cluster) (source target : RegionInfo) (order : List Nat) : Prop where
  nodup : target.storeIds.Nodup
  leader : ∃ l ∈ target.getPeers, target.leader = some l
  zero : 0 ∉ target.storeIds
  order : order.Perm (intersectionStores source.getPeers target.getPeers)
  fresh : ∀ n id, c.allocID n = .ok id → ∀ p ∈ source.pendingPeers, p.id ≠ id

lemma leaderPeersOn_iff {s : Nat} (ht : target.storeIds.Nodup)
  (hleader : ∃ l ∈ target.getPeers, target.leader = some l) : (∀ x, target.leaderPeersOn x = if x = s then 1 else 0) ↔
    ∀ q ∈ target.getPeers, q.id = target.leaderId → q.storeId = s := by
  constructor
  · intro h q hq hid
    by_contra hne
    have hpos : 0 < target.getPeers.countP fun p => decide (p.storeId = q.storeId) && decide (target.leaderId = p.id) :=
      countP_pos_iff.mpr ⟨q, hq, by simp [hid]⟩
    have hzero := h q.storeId
    rw [if_neg hne, RegionInfo.leaderPeersOn] at hzero
    omega
  intro h x
  obtain ⟨l, hl, hlead⟩ := hleader
  have hid := leaderId_of_some hlead
  have hstore : l.storeId = s := h l hl hid.symm
  unfold RegionInfo.leaderPeersOn
  have hcongr : (target.getPeers.countP fun p => decide (p.storeId = x) && decide (target.leaderId = p.id)) =
      target.getPeers.countP fun p => decide (p = l) && decide (x = s) := by
    refine countP_congr fun p hp => ?_
    simp only [Bool.and_eq_true, decide_eq_true_eq]
    constructor
    · rintro ⟨rfl, hpid⟩
      have hps := h p hp hpid.symm
      exact ⟨inj_on_of_nodup_map ht hp hl (hps.trans hstore.symm), hps⟩
    rintro ⟨rfl, rfl⟩
    exact ⟨hstore, hid⟩
  rw [hcongr]
  by_cases hx : x = s
  · have hcount : target.getPeers.countP (fun p => decide (p = l) && decide (x = s)) = target.getPeers.count l := by
      refine countP_congr fun p _ => ?_
      simp [hx]
    rw [hcount, count_eq_one_of_mem (List.Nodup.of_map storeId ht) hl, if_pos hx]
    rfl
  rw [if_neg hx]
  simp [hx]

lemma matchPeerSteps_ok (h : matchPeerSteps c source target order = some (.ok (steps, kind))) :
  source.getPeers.length = target.getPeers.length ∧
    ∃ adds, addMissing c order ⟨[], 0, 0, 0⟩ target.getPeers = .ok adds := by
  unfold matchPeerSteps at h
  split at h
  · cases h
  next hlen =>
    refine ⟨not_not.mp hlen, ?_⟩
    split at h
    · cases h
    next adds hadd => exact ⟨adds, hadd⟩

def PairEffective (m : OpInfluence) (op₁ op₂ : Operator) (source target source' : RegionInfo) : Prop :=
  m.CountsBy (op₂.totalInfluence (op₁.totalInfluence m source) target)
    (fun x => (source'.peersOn x - source.peersOn x) - source'.peersOn x)
    (fun x => (source'.leadersOn x - source.leadersOn x) - source'.leadersOn x)

lemma merge_effective {desc : String} {m : OpInfluence} {op₁ op₂ : Operator} {leader : Peer}
    (hnodup : source.storeIds.Nodup) (hleader : source.leader = some leader) (hmem : leader ∈ source.getPeers)
    (hmerge : Mergeable c source target order)
    (hop : createMergeRegionOperator desc c source target kind order = some (.ok (op₁, op₂))) :
    ∃ steps source', op₁.steps = steps ++ [.mergeRegion source.getMeta target.getMeta false] ∧
      Executes source { op₁ with steps := steps } source' ∧
      (PairEffective m op₁ op₂ source target source' ↔
        ∀ q ∈ target.getPeers, q.id = target.leaderId → q.storeId = matchedLeader source target order) := by
  obtain ⟨r, hr, hop⟩ := Option.map_eq_some_iff.mp hop
  split at hop
  · cases hop
  next steps kinds =>
    obtain ⟨rfl, rfl⟩ := Prod.mk.inj (Except.ok.inj hop)
    obtain ⟨hlen, adds, hadd⟩ := matchPeerSteps_ok hr
    have hled := leaderStore_mem hleader hmem
    have hmatching : Matching c source target order adds := ⟨hnodup, hmerge.nodup, hlen, hmerge.zero, hled,
      fun s => hmerge.order.mem_iff.trans mem_intersectionStores, hadd,
      fun n id h => not_mem_pending (hmerge.fresh n id h)⟩
    obtain ⟨steps', kinds', q, hr', hreach, hstores, hlead⟩ := reaches_matchPeerSteps hmatching
    obtain ⟨rfl, rfl⟩ := Prod.mk.inj (Except.ok.inj (Option.some.inj (hr.symm.trans hr')))
    obtain ⟨hremoves, hin, hfrom⟩ := matchPeerSteps_moves hmatching hr
    obtain ⟨source', hexec, -⟩ := @executes_led source
      (newOperator desc source.getID source.getMeta.regionEpoch (kinds ||| kind ||| .opMerge) steps) _ _
      hnodup (by simp [hleader]) hreach
    refine ⟨steps, source', rfl, hexec, ?_⟩
    rw [← leaderPeersOn_iff hmerge.nodup hmerge.leader]
    refine forall_congr' fun x => ?_
    have hregion := stores_of_exec source x hreach.exec_eq hremoves
      fun a ha => mem_placement_stores.mpr (hin a ha)
    have hleaders : (steps.map (leaderChange source x)).sum =
        (if x = q.leader then 1 else 0) - (if x = source.leaderStore then 1 else 0) :=
      (leaders_of_exec source x hreach.exec_eq).1.trans (transferSum_fromLeader hreach.exec_eq hfrom source x)
    have htarget : target.peersOn x = if x ∈ q.stores then 1 else 0 := by
      rw [peersOn_eq hmerge.nodup]
      simp only [hstores x, mem_placement_stores]
    rw [(counts_total target _ _ x).1, (counts_total target _ _ x).2, (counts_total source m _ x).1,
      (counts_total source m _ x).2]
    show _ + ((steps ++ [_]).map _).sum + (-target.peersOn x + 0) = _ ∧
      _ + ((steps ++ [_]).map _).sum + (-target.leaderPeersOn x + 0) = _ ↔ _
    rw [map_append, map_append, sum_append, sum_append, hregion, hleaders, htarget, ← hlead]
    have hsome : source.leader ≠ none := by simp [hleader]
    -- the first operator's own step of the merge counts nothing
    have hzero : ([mergeRegion source.getMeta target.getMeta false].map (regionChange source x)).sum = 0 := rfl
    have hzero' : ([mergeRegion source.getMeta target.getMeta false].map (leaderChange source x)).sum = 0 := rfl
    dsimp only
    rw [hzero, hzero', peersOn_eq hnodup, leadersOn_eq hsome]
    constructor
    · rintro ⟨-, h⟩
      linarith
    intro h
    exact ⟨by ring, by linarith⟩

end

/-- **Influence** is the effect exactly for the counted moves. -/
theorem influence_is_effect_iff (desc : String) (kind : OperatorKind) (c : Cluster) (region : RegionInfo)
    (leader : Peer) (m : OpInfluence) (hnodup : region.storeIds.Nodup) (hleader : region.leader = some leader)
    (hmem : leader ∈ region.getPeers) :
    (∀ (k : Move) (op : Operator), k.Accepted c region → k.build desc kind c region = .ok op →
      ∃ region', Executes region op region' ∧ (Effective m op region region' ↔ k.Counted region)) ∧
    ∀ (target : RegionInfo) (order : List Nat) (op₁ op₂ : Operator), Mergeable c region target order →
      createMergeRegionOperator desc c region target kind order = some (.ok (op₁, op₂)) →
      ∃ steps region', op₁.steps = steps ++ [.mergeRegion region.getMeta target.getMeta false] ∧
        Executes region { op₁ with steps := steps } region' ∧
        (PairEffective m op₁ op₂ region target region' ↔
          ∀ q ∈ target.getPeers, q.id = target.leaderId → q.storeId = matchedLeader region target order) := by
  refine ⟨fun k op hacc hop => ?_, fun target order op₁ op₂ hmerge hop =>
    merge_effective hnodup hleader hmem hmerge hop⟩
  cases k with
  | movePeer =>
    obtain ⟨region', hexec, heff⟩ := movePeer_effective (m := m) hnodup hleader hmem hacc hop
    exact ⟨region', hexec, iff_of_true heff trivial⟩
  | moveLeader =>
    obtain ⟨region', hexec, hno⟩ := moveLeader_not_effective (m := m) hnodup hleader hmem hacc hop
    exact ⟨region', hexec, iff_of_false hno id⟩
  | moveRegion => exact moveRegion_effective hnodup hleader hmem hacc hop
  | removePeer => exact removePeer_effective hnodup hleader hmem hacc hop

def countedRegion : RegionInfo := (loadedRegion 2 [1] [2] [1, 2, 3]).withLeader (some ⟨21, 1, false⟩)

theorem influence_is_effect_moved :
  ∃ op region', createMovePeerOperator "" smallCluster countedRegion 0 2 4 100 [2, 3] = .ok op ∧
    Executes countedRegion op region' ∧ Effective .empty op countedRegion region' := by
  obtain ⟨region', hexec, hiff⟩ := (influence_is_effect_iff "" 0 smallCluster countedRegion ⟨21, 1, false⟩ .empty
    (by decide) rfl (by decide)).1 (.movePeer 2 4 100 [2, 3]) _
    ⟨by decide, by decide, by decide, fun p hp => by cases hp⟩ rfl
  exact ⟨_, region', rfl, hexec, hiff.mpr trivial⟩

theorem moveLeader_counted_twice :
  ∃ op region', createMoveLeaderOperator "" smallCluster countedRegion 0 1 4 100 = .ok op ∧
    Executes countedRegion op region' ∧
    ((op.totalInfluence .empty countedRegion).getStoreInfluence 1).leaderCount = -2 ∧
    region'.leadersOn 1 - countedRegion.leadersOn 1 = -1 ∧ ¬ Effective .empty op countedRegion region' := by
  refine ⟨_, _, rfl, executes_of_runSteps rfl, by decide, by decide, fun h => ?_⟩
  exact absurd (h 1).2 (by decide)

end PD
