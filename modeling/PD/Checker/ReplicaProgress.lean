import PD.Checker.RegionRules
import PD.Lib.PairSums
import PD.Schedule.Placements

/-! # Progress of the replica checker -/

namespace PD
open List Option RegionInfo
open PairSums

structure RegionInfo.Sound (r : RegionInfo) : Prop where
  nodup : r.storeIds.Nodup
  nonzero : 0 ∉ r.storeIds
  leader_mem : ∀ l, r.leader = some l → l ∈ r.getPeers

section
variable {c : Cluster} {region : RegionInfo} {oldStore newStore peerID : Nat} {followers : List Nat} {op : Operator}

lemma RegionInfo.Sound.leaderStore_ne (h : region.Sound) (hold : oldStore ∈ region.storeIds)
  (hno : ¬ (region.leader ≠ none ∧ region.leaderStore = oldStore)) : region.leaderStore ≠ oldStore := by
  intro e
  refine hno ⟨fun hnone => ?_, e⟩
  have hzero : region.leaderStore = 0 := by rw [leaderStore, hnone]; rfl
  exact h.nonzero (hzero ▸ e ▸ hold)

lemma removePeerSteps_moves (peerID : Nat) {kind : OperatorKind} {steps : List OperatorStep} (h : region.Sound)
  (hold : oldStore ∈ region.storeIds) (hnew : newStore ∉ region.storeIds)
  (hfollowers : followers.Perm (regionFollowerIDs region))
  (hsteps : removePeerSteps c region oldStore (followers ++ [newStore]) = .ok (kind, steps)) :
  ∃ leader : Option Peer, (∀ l, leader = some l →
      l ∈ (region.withAddPeer ⟨peerID, newStore, false⟩).getPeers ∧ l.storeId ≠ oldStore) ∧
    runSteps (region.withAddPeer ⟨peerID, newStore, false⟩) steps =
      some (((region.withAddPeer ⟨peerID, newStore, false⟩).withLeader leader).withRemoveStorePeer oldStore) := by
  have hold' : oldStore ∈ (region.withAddPeer ⟨peerID, newStore, false⟩).storeIds :=
    mem_storeIds_withAddPeer.mpr (.inl hold)
  rcases removePeerSteps_ok hsteps with ⟨hlead, id, hid, rfl⟩ | ⟨hno, rfl⟩
  · -- the leader goes to a follower or to the new peer
    have hapart : id ∈ (region.withAddPeer ⟨peerID, newStore, false⟩).storeIds ∧ id ≠ oldStore := by
      rcases mem_append.mp (mem_of_find?_eq_some hid) with hid | hid
      · cases hleader : region.leader with
        | none => exact absurd (hlead ▸ hold) (by rw [leaderStore, hleader]; exact h.nonzero)
        | some l =>
          obtain ⟨hmem, hne⟩ := follower_apart h.nodup hleader (h.leader_mem l hleader) (hfollowers.mem_iff.mp hid)
          rw [← leaderStore_of_some hleader, hlead] at hne
          exact ⟨mem_storeIds_withAddPeer.mpr (.inl hmem), hne⟩
      rw [mem_singleton.mp hid]
      exact ⟨mem_storeIds_withAddPeer.mpr (.inr rfl), fun e => hnew (e ▸ hold)⟩
    obtain ⟨p, hp⟩ : ∃ p, (region.withAddPeer ⟨peerID, newStore, false⟩).getStorePeer id = some p := by
      cases hp : (region.withAddPeer ⟨peerID, newStore, false⟩).getStorePeer id with
      | none => exact absurd hapart.1 (getStorePeer_eq_none.mp hp)
      | some p => exact ⟨p, rfl⟩
    obtain ⟨hpeer, hstore⟩ := getStorePeer_some hp
    have hne : p.storeId ≠ oldStore := hstore ▸ hapart.2
    refine ⟨some p, fun l hl => some.inj hl ▸ ⟨hpeer, hne⟩, ?_⟩
    have haway : (region.withAddPeer ⟨peerID, newStore, false⟩).leaderStore ≠ id := fun e =>
      hapart.2 (e.symm.trans hlead)
    rw [← singleton_append, runSteps_append, runSteps_transferLeader_away oldStore hp haway, bind_some]
    exact runSteps_removePeer hold' hne
  have hne := h.leaderStore_ne hold hno
  refine ⟨region.leader, fun l hl => ⟨mem_append_left _ (h.leader_mem l hl), ?_⟩, ?_⟩
  · rw [← leaderStore_of_some hl]
    exact hne
  · exact runSteps_removePeer hold' hne

lemma movePeer_runs {desc : String} {kind : OperatorKind} (h : region.Sound) (hold : oldStore ∈ region.storeIds)
  (hnew : newStore ∉ region.storeIds) (hzero : newStore ≠ 0) (hfresh : ∀ p ∈ region.pendingPeers, p.id ≠ peerID)
  (hfollowers : followers.Perm (regionFollowerIDs region))
  (hop : createMovePeerOperator desc c region kind oldStore newStore peerID followers = .ok op) :
  ∃ region', Executes region op region' ∧ region'.Sound ∧
    region'.storeIds = (region.storeIds ++ [newStore]).filter fun s => s != oldStore := by
  unfold createMovePeerOperator at hop
  split at hop
  · cases hop
  next _ steps hsteps =>
    obtain rfl := Except.ok.inj hop
    obtain ⟨leader, hleader, hrun⟩ := removePeerSteps_moves peerID h hold hnew hfollowers hsteps
    have hstores : (((region.withAddPeer ⟨peerID, newStore, false⟩).withLeader leader).withRemoveStorePeer
        oldStore).storeIds = (region.storeIds ++ [newStore]).filter fun s => s != oldStore := by
      rw [storeIds_withRemoveStorePeer]
      exact congrArg _ (storeIds_withAddPeer region _)
    refine ⟨_, executes_of_runSteps ?_, ⟨?_, ?_, fun l hl => ?_⟩, hstores⟩
    · show runSteps region (createAddPeerSteps newStore peerID c ++ steps) = _
      rw [runSteps_append, runSteps_addPeerSteps c hnew hfresh, bind_some]
      exact hrun
    · exact nodup_withRemoveStorePeer (nodup_withAddPeer h.nodup hnew)
    · rw [hstores]
      intro hmem
      rcases mem_append.mp (mem_filter.mp hmem).1 with hmem | hmem
      · exact h.nonzero hmem
      · exact hzero (mem_singleton.mp hmem).symm
    obtain ⟨hmem, hne⟩ := hleader l hl
    exact mem_filter.mpr ⟨hmem, by simpa using hne⟩

end

def StoreView.location (s : StoreView) : Nat × List StoreLabel := (s.getID, s.getMeta.labels)

lemma distinctFrom_location (labels : List String) {a a' b b' : StoreView} (ha : a.location = a'.location)
  (hb : b.location = b'.location) : distinctFrom labels a b = distinctFrom labels a' b' := by
  obtain ⟨hida, hlabelsa⟩ := Prod.mk.inj ha
  obtain ⟨hidb, hlabelsb⟩ := Prod.mk.inj hb
  unfold distinctFrom compareLocation StoreView.getLabelValue
  rw [hida, hidb, hlabelsa, hlabelsb]

namespace PatrolView

def locationScore (v : PatrolView) (labels : List String) (region : RegionInfo) : Nat :=
  pairSum (distinctFrom labels) (v.getRegionStores region)

def Keyed (v : PatrolView) : Prop := ∀ id s, v.stores.lookup id = some s → s.getID = id

def SameStores (v v' : PatrolView) : Prop :=
  ∀ id, (v.stores.lookup id).map StoreView.location = (v'.stores.lookup id).map StoreView.location

section
variable {v v' : PatrolView} {labels : List String} {region region' : RegionInfo}

lemma SameStores.forall₂ (h : v.SameStores v') (ids : List Nat) :
  List.Forall₂ (fun a b => a.location = b.location) (ids.filterMap v.stores.lookup)
    (ids.filterMap v'.stores.lookup) := by
  induction ids with
  | nil => exact .nil
  | cons id _ ih =>
    have hid := h id
    cases hs : v.stores.lookup id with
    | none =>
      rw [hs, map_none] at hid
      rw [filterMap_cons_none hs, filterMap_cons_none (map_eq_none_iff.mp hid.symm)]
      exact ih
    | some =>
      rw [hs, map_some] at hid
      obtain ⟨s', hs', hloc⟩ := map_eq_some_iff.mp hid.symm
      rw [filterMap_cons_some hs, filterMap_cons_some hs']
      exact .cons hloc.symm ih

lemma SameStores.locationScore_eq (h : v.SameStores v') (labels : List String) (region : RegionInfo) :
  v.locationScore labels region = v'.locationScore labels region := by
  refine pairSum_congr ?_ (h.forall₂ region.storeIds)
  intro a a' b b' ha hb
  exact distinctFrom_location labels ha hb

lemma locationScore_perm (h : region.storeIds.Perm region'.storeIds) :
  v.locationScore labels region = v.locationScore labels region' :=
  pairSum_perm (distinctFrom_comm labels) (h.filterMap _)

lemma locationScore_le (v : PatrolView) (labels : List String) (region : RegionInfo) : v.locationScore labels region ≤
  region.getPeers.length * region.getPeers.length * replicaBaseScore ^ labels.length := by
  have hlen : (v.getRegionStores region).length ≤ region.getPeers.length :=
    (length_filterMap_le ..).trans (length_map _).le
  have hle : ∀ a b, distinctFrom labels a b ≤ replicaBaseScore ^ labels.length := fun a b =>
    (distinctFrom_le labels a b).trans (Nat.pow_le_pow_right (by decide) (Nat.sub_le ..))
  calc v.locationScore labels region ≤ _ := pairSum_le hle _
    _ ≤ _ := Nat.mul_le_mul_right _ (Nat.mul_le_mul hlen hlen)

end
end PatrolView

section
variable {cfg : PatrolConfig} {v : PatrolView} {region region' : RegionInfo} {op : Operator}

lemma selectWorstPeer_some {oldStore oldScore : Nat} (h : selectWorstPeer cfg v region = some (oldStore, oldScore)) :
  ∃ worst ∈ v.getRegionStores region, worst.getID = oldStore ∧
    distinctScore cfg.opt.locationLabels (v.getRegionStores region) worst = oldScore := by
  obtain ⟨worst, hsel, heq⟩ := map_eq_some_iff.mp h
  obtain ⟨hid, hscore⟩ := Prod.mk.inj heq
  obtain ⟨hsel, -⟩ := filter_eq_some_iff.mp hsel
  rcases selectBy_mem hsel with hnone | ⟨hmem, -⟩
  · cases hnone
  · exact ⟨worst, hmem, hid, hscore⟩

lemma selectBestReplacementStore_some {oldStore : Nat} {filters : List StoreFilter}
  (h : (selectBestReplacementStore cfg.opt (namespaceFilter v) (v.getStores 1) v.getRegionStores region oldStore
    filters).1 ≠ 0) : ∃ target ∈ v.stores.values, target.getID ∉ region.storeIds ∧
    selectBestReplacementStore cfg.opt (namespaceFilter v) (v.getStores 1) v.getRegionStores region oldStore filters =
      (target.getID, distinctScore cfg.opt.locationLabels
        (v.getRegionStores (region.withRemoveStorePeer oldStore)) target) := by
  unfold selectBestReplacementStore selectBestStoreToAddReplica at h ⊢
  dsimp only at h ⊢
  split at h
  · exact absurd rfl h
  next target htarget =>
    obtain ⟨hsel, -⟩ := filter_eq_some_iff.mp htarget
    rcases selectBy_mem hsel with hnone | ⟨hmem, hpass⟩
    · cases hnone
    refine ⟨target, (v.choices.listing_perm 1 v.stores.values).mem_iff.mp hmem, fun hin => ?_, rfl⟩
    have hrefused : (StoreFilter.excluded [] region.storeIds).target cfg.opt target = true := by
      exact contains_iff_mem.mpr hin
    rw [passesTarget_eq_false (by simp) hrefused] at hpass
    cases hpass

lemma checkBestReplacement_some (h : checkBestReplacement cfg v region = some op) :
  ∃ worst ∈ v.getRegionStores region, ∃ target ∈ v.stores.values, ∃ peerID,
    target.getID ∉ region.storeIds ∧ target.getID ≠ 0 ∧ v.choices.allocID 1 0 = .ok peerID ∧
    distinctScore cfg.opt.locationLabels (v.getRegionStores region) worst <
      distinctScore cfg.opt.locationLabels (v.getRegionStores (region.withRemoveStorePeer worst.getID)) target ∧
    createMovePeerOperator "move-to-better-location" (v.toCluster cfg 1) region .opReplica worst.getID target.getID
      peerID (v.followerIDs 1 region) = .ok op := by
  unfold checkBestReplacement at h
  split at h
  · cases h
  split at h
  · cases h
  next _ _ hworst =>
    obtain ⟨worst, hmem, rfl, rfl⟩ := selectWorstPeer_some hworst
    dsimp only at h
    split at h
    · cases h
    next hzero =>
      obtain ⟨target, htarget, hnew, hbest⟩ := selectBestReplacementStore_some hzero
      rw [hbest] at h hzero
      split at h
      · cases h
      next hlt =>
        unfold replaceReplica at h
        split at h
        · cases h
        next peerID halloc =>
          refine ⟨worst, hmem, target, htarget, peerID, hnew, hzero, halloc, Nat.lt_of_not_le hlt, ?_⟩
          unfold orNil at h
          split at h
          next hop => exact (some.inj h) ▸ hop
          · cases h

lemma getRegionStores_perm (hkeyed : v.Keyed) (hnodup : region.storeIds.Nodup) {s : StoreView}
  (hs : s ∈ v.getRegionStores region) :
  (v.getRegionStores region).Perm (s :: v.getRegionStores (region.withRemoveStorePeer s.getID)) ∧
    s.getID ∈ region.storeIds := by
  obtain ⟨id, hid, hlookup⟩ := mem_filterMap.mp hs
  obtain rfl := hkeyed id s hlookup
  refine ⟨?_, hid⟩
  have herase : (region.withRemoveStorePeer s.getID).storeIds = region.storeIds.erase s.getID := by
    rw [storeIds_withRemoveStorePeer, hnodup.erase_eq_filter]
  unfold PatrolView.getRegionStores
  rw [herase]
  exact ((perm_cons_erase hid).filterMap _).trans (.of_eq (filterMap_cons_some hlookup))

lemma locationScore_lt (hkeyed : v.Keyed) (h : region.Sound)
  (hfresh : ∀ id, v.choices.allocID 1 0 = .ok id → ∀ p ∈ region.pendingPeers, p.id ≠ id)
  (hop : checkBestReplacement cfg v region = some op) :
  ∃ region', Executes region op region' ∧ region'.Sound ∧ region'.storeIds.length = region.storeIds.length ∧
    v.locationScore cfg.opt.locationLabels region < v.locationScore cfg.opt.locationLabels region' := by
  obtain ⟨worst, hworst, target, htarget, peerID, hnew, hzero, halloc, hlt, hmove⟩ := checkBestReplacement_some hop
  obtain ⟨hperm, hold⟩ := getRegionStores_perm hkeyed h.nodup hworst
  obtain ⟨region', hexec, hsound, hstores⟩ := movePeer_runs h hold hnew hzero (hfresh peerID halloc)
    (v.choices.removal_perm 1 _) hmove
  have hne : target.getID ≠ worst.getID := fun e => hnew (e ▸ hold)
  have hids : region'.storeIds.Perm (target.getID :: (region.withRemoveStorePeer worst.getID).storeIds) := by
    rw [hstores, storeIds_withRemoveStorePeer, filter_append]
    have hkept : [target.getID].filter (fun s => s != worst.getID) = [target.getID] := by simp [hne]
    rw [hkept]
    exact perm_append_singleton ..
  refine ⟨region', hexec, hsound, ?_, ?_⟩
  · rw [hids.length_eq, storeIds_withRemoveStorePeer, ← h.nodup.erase_eq_filter, length_cons, length_erase_of_mem hold]
    have := length_pos_of_mem hold
    omega
  obtain ⟨id, hlookup⟩ := SortedMap.mem_values.mp htarget
  obtain rfl := hkeyed id target hlookup
  have hperm' : (v.getRegionStores region').Perm
      (target :: v.getRegionStores (region.withRemoveStorePeer worst.getID)) :=
    (hids.filterMap _).trans (.of_eq (filterMap_cons_some hlookup))
  have hscore : distinctScore cfg.opt.locationLabels (v.getRegionStores region) worst =
      distinctScore cfg.opt.locationLabels (v.getRegionStores (region.withRemoveStorePeer worst.getID)) worst := by
    unfold distinctScore
    rw [(hperm.map _).sum_eq, map_cons, sum_cons, distinctFrom_self, Nat.zero_add]
  exact pairSum_replace_lt (distinctFrom_comm _) hperm hperm' (lt_of_eq_of_lt hscore.symm hlt)

end

def Round (labels : List String) (v₀ : PatrolView) (r r' : RegionInfo) : Prop :=
  ∃ cfg v op e, cfg.opt.locationLabels = labels ∧ v.Keyed ∧ v.SameStores v₀ ∧
    (∀ id, v.choices.allocID 1 0 = .ok id → ∀ p ∈ r.pendingPeers, p.id ≠ id) ∧
    checkBestReplacement cfg v r = some op ∧ Executes r op e ∧ e.storeIds.Perm r'.storeIds ∧ r'.Sound

section
variable {labels : List String} {v₀ : PatrolView} {r r' : RegionInfo}

lemma round_lt (hr : r.Sound) (h : Round labels v₀ r r') : r'.Sound ∧ r'.storeIds.length = r.storeIds.length ∧
  v₀.locationScore labels r < v₀.locationScore labels r' := by
  obtain ⟨cfg, v, op, e, rfl, hkeyed, hsame, hfresh, hop, hexec, hperm, hsound⟩ := h
  obtain ⟨e', hexec', -, hlen, hlt⟩ := locationScore_lt hkeyed hr hfresh hop
  obtain rfl := executes_unique hexec hexec'
  rw [hsame.locationScore_eq, hsame.locationScore_eq, PatrolView.locationScore_perm hperm] at hlt
  exact ⟨hsound, hperm.length_eq.symm.trans hlen, hlt⟩

variable {n : Nat} {rs : Nat → RegionInfo}

lemma rounds_le (h₀ : (rs 0).Sound) (hrs : ∀ i < n, Round labels v₀ (rs i) (rs (i+1))) :
  ∀ i ≤ n, (rs i).Sound ∧ (rs i).storeIds.length = (rs 0).storeIds.length ∧ i ≤ v₀.locationScore labels (rs i) := by
  intro i
  induction i with
  | zero => exact fun _ => ⟨h₀, rfl, Nat.zero_le _⟩
  | succ i ih =>
    intro hi
    obtain ⟨hsound, hlen, hle⟩ := ih (Nat.le_of_succ_le hi)
    obtain ⟨hsound', hlen', hlt⟩ := round_lt hsound (hrs i hi)
    exact ⟨hsound', hlen'.trans hlen, Nat.lt_of_le_of_lt hle hlt⟩

lemma rounds_lt (h₀ : (rs 0).Sound) (hrs : ∀ i < n, Round labels v₀ (rs i) (rs (i+1))) {i j : Nat} (hij : i < j)
  (hj : j ≤ n) : v₀.locationScore labels (rs i) < v₀.locationScore labels (rs j) := by
  have hstep : ∀ k < n, v₀.locationScore labels (rs k) < v₀.locationScore labels (rs (k+1)) := fun k hk =>
    (round_lt (rounds_le h₀ hrs k hk.le).1 (hrs k hk)).2.2
  induction j with
  | zero => exact absurd hij (Nat.not_lt_zero i)
  | succ j ih =>
    rcases Nat.lt_succ_iff_lt_or_eq.mp hij with h | rfl
    · exact (ih h (Nat.le_of_succ_le hj)).trans (hstep j hj)
    · exact hstep i hj

end

/-- **Progress**: replacements raise the location score, so they end. -/
theorem replacement_progress (labels : List String) (v₀ : PatrolView) :
  (∀ cfg v region op, cfg.opt.locationLabels = labels → v.Keyed → region.Sound →
      (∀ id, v.choices.allocID 1 0 = .ok id → ∀ p ∈ region.pendingPeers, p.id ≠ id) →
      checkBestReplacement cfg v region = some op → (∃ region', Executes region op region' ∧ region'.Sound) ∧
      ∀ region', Executes region op region' → v.locationScore labels region < v.locationScore labels region') ∧
  ∀ (rs : Nat → RegionInfo) n, (rs 0).Sound → (∀ i < n, Round labels v₀ (rs i) (rs (i+1))) →
    n ≤ (rs 0).getPeers.length * (rs 0).getPeers.length * replicaBaseScore ^ labels.length ∧
      ∀ i j, i < j → j ≤ n → v₀.locationScore labels (rs i) < v₀.locationScore labels (rs j) ∧
        ¬ (rs i).storeIds.Perm (rs j).storeIds := by
  constructor
  · rintro cfg v region op rfl hkeyed hsound hfresh hop
    obtain ⟨region', hexec, hsound', -, hlt⟩ := locationScore_lt hkeyed hsound hfresh hop
    exact ⟨⟨region', hexec, hsound'⟩, fun region'' h => executes_unique hexec h ▸ hlt⟩
  intro rs n h₀ hrs
  constructor
  · obtain ⟨-, hlen, hle⟩ := rounds_le h₀ hrs n le_rfl
    have hpeers : (rs n).getPeers.length = (rs 0).getPeers.length := by simpa [storeIds] using hlen
    exact hpeers ▸ hle.trans (v₀.locationScore_le labels (rs n))
  intro i j hij hj
  have hlt := rounds_lt h₀ hrs hij hj
  exact ⟨hlt, fun hperm => absurd hlt (PatrolView.locationScore_perm hperm).not_lt⟩

def zoneStore (id : Nat) : StoreView :=
  wellStore (defaultPatrol ["zone"] false).opt [⟨"zone", if id = 3 then "b" else if id = 4 then "c" else "a"⟩] 0 id

def zoneView : PatrolView :=
  ⟨.new, storesOf zoneStore [1, 2, 3, 4], fun _ => false, UserScheduler.globalOnly, false, .empty, [], plainChoices 0 0⟩

def zoneRegion : RegionInfo := (loadedRegion 1 [] [1] [1, 2, 3]).withLeader (some ⟨11, 1, false⟩)

lemma zoneView_keyed : zoneView.Keyed := by
  intro id s h
  change (storesOf zoneStore [1, 2, 3, 4]).lookup id = some s at h
  rw [lookup_storesOf] at h
  split at h
  · rw [← some.inj h]
    rfl
  · cases h

lemma zoneRegion_sound : zoneRegion.Sound := ⟨by decide, by decide, fun l hl => by
  rw [← some.inj hl]
  decide⟩

theorem replacement_progress_zones :
  ∃ op region', checkBestReplacement (defaultPatrol ["zone"] false) zoneView zoneRegion = some op ∧
    Executes zoneRegion op region' ∧
    zoneView.locationScore ["zone"] zoneRegion < zoneView.locationScore ["zone"] region' ∧
    ¬ zoneRegion.storeIds.Perm region'.storeIds := by
  have hsome : (checkBestReplacement (defaultPatrol ["zone"] false) zoneView zoneRegion).isSome = true := by
    decide +kernel
  obtain ⟨op, hop⟩ := isSome_iff_exists.mp hsome
  have hfresh : ∀ id, zoneView.choices.allocID 1 0 = .ok id → ∀ p ∈ zoneRegion.pendingPeers, p.id ≠ id :=
    fun _ _ p hp => absurd hp (by rw [show zoneRegion.pendingPeers = [] from rfl]; exact not_mem_nil)
  obtain ⟨⟨region', hexec, hsound⟩, hlt⟩ := (replacement_progress ["zone"] zoneView).1 _ _ _ op rfl zoneView_keyed
    zoneRegion_sound hfresh hop
  have hround : Round ["zone"] zoneView zoneRegion region' :=
    ⟨_, zoneView, op, region', rfl, zoneView_keyed, fun _ => rfl, hfresh, hop, hexec, .refl _, hsound⟩
  have hrounds := (replacement_progress ["zone"] zoneView).2 (fun i => if i = 0 then zoneRegion else region') 1
    zoneRegion_sound (fun i hi => by
      obtain rfl : i = 0 := by omega
      exact hround)
  exact ⟨op, region', hop, hexec, hlt region' hexec, (hrounds.2 0 1 Nat.zero_lt_one le_rfl).2⟩

end PD
