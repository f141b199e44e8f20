import PD.Checker.RegionRules
import PD.Schedulers.Balance
import PD.Schedulers.RandomRegion

/-! # Region balance in a namespace -/

namespace PD
open List Option SortedMap RegionsInfo

variable (r : RegionsInfo)

def Isolated (cl : Classifier) (present : List Nat) (ns : String) (op : Operator) : Prop :=
  ∃ x, r.getRegion op.regionID = some x ∧ cl.inside present ns x ∧
    ∀ step ∈ op.steps, ∀ t, step.addsTo = some t → cl.here present ns t

def Isolates (cl : Classifier) (present : List Nat) (ns : String) : Prop :=
  ∀ c : ClusterView, c.regions = r → c.Stored present → ∀ s hitSources hitTargets op,
    balanceRegion s (newNamespaceCluster c cl ns) hitSources hitTargets = some (some op) → Isolated r cl present ns op

/-- Region `x` may be drawn for its pending peer on store `s` of the namespace and be moved to another store of it. -/
structure Movable (r : RegionsInfo) (cl : Classifier) (present : List Nat) (ns : String) (s : Nat) (x : RegionInfo) :
    Prop where
  source : cl.here present ns s
  pending : ∃ id, ((r.index .pending).at s).get id = some x
  healthy : healthRegionAllowPending x = true
  peer : s ∈ x.storeIds
  target : ∃ t, cl.here present ns t ∧ t ∉ x.storeIds

structure Strays (r : RegionsInfo) (cl : Classifier) (present : List Nat) (ns : String) (s : Nat) (x : RegionInfo) :
    Prop extends Movable r cl present ns s x where
  outside : ¬ cl.inside present ns x

section
variable {opt : ScheduleOptions} {listed : List StoreView} {regionStores : RegionInfo → List StoreView}
  {x : RegionInfo} {oldStore : Nat} {filters : List StoreFilter}
variable {ns : RegionInfo → Option StoreFilter} {newStore peerID : Nat} {c : Cluster} {followers : List Nat}
variable {kind : OperatorKind}

lemma selectBestReplacementStore_eq {target : StoreView}
  (h : ReplicaSelector.selectTarget opt (regionStores (x.withRemoveStorePeer oldStore)) replicaFilters
    (filters ++ ([.excluded [] x.storeIds] : List StoreFilter) ++ replicaFilters ++
      ([.state, .pendingPeerCount, .excluded [] (x.withRemoveStorePeer oldStore).storeIds] : List StoreFilter) ++
      (ns (x.withRemoveStorePeer oldStore)).toList) listed = some target) :
  (selectBestReplacementStore opt ns listed regionStores x oldStore filters).1 = target.getID := by
  simp only [selectBestReplacementStore, selectBestStoreToAddReplica, h]

lemma createMovePeerOperator_ok (desc : String) (x : RegionInfo) (kind : OperatorKind)
  (oldStore : Nat) (peerID : Nat) (followers : List Nat) (h : suitableFollower c newStore = true) :
  ∃ op, createMovePeerOperator desc c x kind oldStore newStore peerID followers = .ok op := by
  have hfind : ((followers ++ [newStore]).find? (suitableFollower c)).isSome :=
    List.find?_isSome.mpr ⟨newStore, by simp, h⟩
  obtain ⟨id, hid⟩ := isSome_iff_exists.mp hfind
  unfold createMovePeerOperator removePeerSteps
  rw [hid]
  by_cases hleader : x.leader ≠ none ∧ x.leaderStore = oldStore
  · rw [if_pos hleader]
    exact ⟨_, rfl⟩
  rw [if_neg hleader]
  exact ⟨_, rfl⟩

end

section
variable {s : Setting} {nc : NamespaceCluster} {influence : OpInfluence} {op : Operator}
variable {hitTargets : Nat → List Nat} {i oldStore : Nat} {x : RegionInfo} {listed : List StoreView}

lemma transferPeer_eq {storeID peerID : Nat}
  {source target : StoreView} (hstores : nc.getRegionStores x ≠ []) (hsource : nc.getStore oldStore = some source)
  (hbest : (selectBestReplacementStore nc.opt (fun _ => none) listed nc.getRegionStores x
    oldStore [distinctScoreFilter nc.opt.locationLabels (nc.getRegionStores x) source,
      .blacklistTarget (hitTargets i)]).1 = storeID) (hne : storeID ≠ 0) (htarget : nc.getStore storeID = some target)
  (hbalance : shouldBalance s.measures source target x false influence = true)
  (halloc : s.choices.allocID i 0 = .ok peerID)
  (hop : createMovePeerOperator "balance-region" (nc.toCluster (s.choices.allocID i)) x .opBalance oldStore storeID
    peerID (s.choices.removal i (regionFollowerIDs x)) = .ok op) :
  transferPeer s nc listed influence hitTargets i x oldStore = some (some op) := by
  obtain ⟨first, rest, hcons⟩ := exists_cons_of_ne_nil hstores
  rw [hcons] at hbest
  simp only [transferPeer, hcons, hsource, hbest, if_neg hne, htarget, hbalance, halloc, hop]
  rfl

lemma pickUntil_passes {pick : Nat → Option RegionInfo} {pass : RegionInfo → Bool} {n : Nat}
  (h : pickUntil pick pass n = some x) : pass x = true := by
  induction n with
  | zero => cases h
  | succ n ih =>
    rw [pickUntil] at h
    split at h
    · cases h
    next _ _ =>
      split at h
      next hok => exact some.inj h ▸ hok
      · exact ih h

end

section
variable {c : ClusterView} {cl : Classifier} {present : List Nat} {ns : String} {s : Setting}
variable {hitTargets : Nat → List Nat} {op : Operator}

lemma checkRegion_inside (hst : c.Stored present) {x : RegionInfo}
  (h : (newNamespaceCluster c cl ns).checkRegion x = true) : cl.inside present ns x := by
  obtain ⟨hns, hpeers⟩ := Bool.and_eq_true_iff.mp h
  exact ⟨eq_of_beq hns, fun p hp => (getStore_isSome hst p.storeId).mp (List.all_eq_true.mp hpeers p hp)⟩

lemma movable_of_transfer (hst : c.Stored present) (hzero : 0 ∉ present) {source : Nat}
  (hsource : cl.here present ns source) {x : RegionInfo} {draw : Nat → Nat} {listed : List StoreView}
  {influence : OpInfluence} {i : Nat}
  (hpending : (newNamespaceCluster c cl ns).randPendingRegion source healthRegionAllowPending draw = some x)
  (h : transferPeer s (newNamespaceCluster c cl ns) listed influence hitTargets i x
    (((x.getStorePeer source).map Peer.storeId).getD 0) = some (some op)) :
  Movable c.regions cl present ns source x := by
  obtain ⟨-, hold, t, ht, hnew, -⟩ := transferPeer_spec h
  have hpeer : source ∈ x.storeIds := by
    by_contra hout
    rw [RegionInfo.getStorePeer_eq_none.mpr hout] at hold
    exact hzero ((getStore_isSome hst 0).mp hold).1
  exact ⟨hsource, randRegion_some hpending, pickUntil_passes hpending, hpeer, t, (getStore_isSome hst t).mp ht, hnew⟩

lemma balanceRegion_isolated (hr : c.regions.Held) (hst : c.Stored present) (hzero : 0 ∉ present)
  (hno : ∀ source x, ¬ Strays c.regions cl present ns source x) {hitSources : List Nat}
  (h : balanceRegion s (newNamespaceCluster c cl ns) hitSources hitTargets = some (some op)) :
  Isolated c.regions cl present ns op := by
  obtain ⟨source, hmem, x, i, hx, -, h⟩ := balanceRegion_spec h
  have hsource : cl.here present ns source.getID := by
    have hvalues := (s.choices.listing_perm 0 _).mem_iff.mp hmem
    obtain ⟨id, hid⟩ := mem_values.mp hvalues
    have hstore := hid
    change (c.stores.keep fun st => cl.storeNamespace st.getID == ns).lookup id = some source at hstore
    rw [lookup_keep] at hstore
    rw [hst.keyed id source (filter_eq_some_iff.mp hstore).1]
    exact (getStore_isSome hst id).mp (isSome_iff_exists.mpr ⟨source, hid⟩)
  obtain ⟨hop, -, t, ht, -, hadds⟩ := transferPeer_spec h
  have hregion : c.regions.getRegion op.regionID = some x := by
    have hr' : (newNamespaceCluster c cl ns).regions.Held := hr
    obtain ⟨id, hid⟩ := balanceRegionPick_some hr' hx
    rw [hop, hr.sound.ids id x ((getRegion_eq _ id).symm.trans hid)]
    exact hid
  have hinside : cl.inside present ns x := by
    rcases or_eq_some_iff.mp hx with hpending | ⟨-, hx⟩
    · -- a region of the whole cluster
      by_contra hout
      exact hno source.getID x ⟨movable_of_transfer hst hzero hsource hpending h, hout⟩
    rcases or_eq_some_iff.mp hx with hfollower | ⟨-, hleader⟩
    · exact checkRegion_inside hst (pickUntil_passes hfollower)
    · exact checkRegion_inside hst (pickUntil_passes hleader)
  exact ⟨x, hregion, hinside, fun step hstep u hu => (hadds step hstep u hu) ▸ (getStore_isSome hst t).mp ht⟩

end

def noLimits : ScheduleOptions := ⟨0, 0, 0, [], false, []⟩
def scored (source : Nat) (id : Nat) : StoreView := wellStore noLimits [] (if id = source then 1 else 0) id

def strayCluster (present : List Nat) (source : Nat) (x : RegionInfo) : ClusterView :=
  ⟨r, storesOf (scored source) present, noLimits, fun _ => x.getPeers.length, fun _ => false⟩

def strayNamespace (cl : Classifier) (present : List Nat) (ns : String) (source : Nat)
    (x : RegionInfo) : NamespaceCluster := newNamespaceCluster (strayCluster r present source x) cl ns

def straySetting (n : Nat) : Setting :=
  ⟨false, .empty, ⟨0, id, fun _ store _ => store.regionScore⟩, [], 0, plainChoices 0 n⟩

section
variable {r : RegionsInfo} {cl : Classifier} {present : List Nat} {ns : String} {source : Nat} {x : RegionInfo}
variable {id t : Nat}

lemma strayCluster_stored : (strayCluster r present source x).Stored present where
  present := fun id => by
    show ((storesOf (scored source) present).lookup id).isSome ↔ _
    rw [lookup_storesOf]
    split <;> simp [*]
  keyed := fun id store h => by
    change (storesOf (scored source) present).lookup id = some store at h
    rw [lookup_storesOf] at h
    split at h
    · rw [← some.inj h]
      rfl
    · cases h

lemma getStore_stray (id : Nat) (h : cl.here present ns id) :
  (strayNamespace r cl present ns source x).getStore id = some (scored source id) := by
  show ((storesOf (scored source) present).keep fun st => cl.storeNamespace st.getID == ns).lookup id = _
  rw [lookup_keep, lookup_storesOf, if_pos h.1]
  have hns : (cl.storeNamespace (scored source id).getID == ns) = true := beq_iff_eq.mpr h.2
  exact filter_some_pos hns

lemma mem_values_stray {st : StoreView} (h : st ∈ (strayNamespace r cl present ns source x).stores.values) :
  ∃ id, cl.here present ns id ∧ st = scored source id := by
  obtain ⟨id, hid⟩ := mem_values.mp h
  have hhere : cl.here present ns id := (getStore_isSome strayCluster_stored id).mp (isSome_iff_exists.mpr ⟨st, hid⟩)
  have hst : (strayNamespace r cl present ns source x).getStore id = some (scored source id) := getStore_stray id hhere
  exact ⟨id, hhere, some.inj (hid.symm.trans hst)⟩

lemma scored_regionScore (id : Nat) : (scored source id).regionScore = some (if id = source then 1 else 0) := rfl

lemma scored_source :
  passesSource noLimits [.blacklistSource [], .storeState false true] (scored source source) = true := by
  simp only [passesSource, StoreFilter.source, StoreFilter.filterMoveRegion, scored, any_cons, any_nil,
    wellStore_isTombstone, wellStore_isBusy, wellStore_overloaded, wellStore_snapshots,
    decide_eq_false (not_lt.mpr wellStore_downTime)]
  rfl

lemma selectSource_stray (hsource : cl.here present ns source) (n : Nat) :
  BalanceSelector.selectSource StoreView.regionScore
    (strayNamespace r cl present ns source x).opt [.blacklistSource [], .storeState false true]
    ((strayNamespace r cl present ns source x).getStores (straySetting n).choices 0) =
    some (scored source source) := by
  refine selectBy_eq ?_ (fun t ht hne _ => ?_) (fun b hb => by cases hb) (.inl ?_)
  · exact scored_source
  · obtain ⟨id, -, rfl⟩ := mem_values_stray ht
    have hid : id ≠ source := fun e => hne (by rw [e])
    rw [scored_regionScore, scored_regionScore, if_pos rfl, if_neg hid]
    exact ⟨rfl, rfl⟩
  · exact mem_values.mpr ⟨source, getStore_stray source hsource⟩

lemma selectBy_isSome {pass : StoreView → Bool} (better : StoreView → StoreView → Bool) (best : Option StoreView)
  {stores : List StoreView} (h : best.isSome ∨ ∃ s ∈ stores, pass s = true) :
  (selectBy pass better best stores).isSome := by
  induction stores generalizing best with
  | nil =>
    rcases h with h | ⟨s, hs, -⟩
    · cases best with
      | none => cases h
      | some => rfl
    · cases hs
  | cons a _ ih =>
    cases best with
    | none =>
      obtain ⟨s, hs, hpass⟩ := h.resolve_left nofun
      rw [selectBy]
      rcases mem_cons.mp hs with rfl | hs
      · exact ih _ (.inl (by rw [if_pos hpass]; rfl))
      · exact ih _ (.inr ⟨s, hs, hpass⟩)
    | some =>
      rw [selectBy]
      refine ih _ (.inl ?_)
      split <;> rfl

lemma distinctScore_unlabelled (stores : List StoreView) (other : StoreView) : distinctScore [] stores other = 0 :=
  distinctScore_eq_zero fun _ _ => rfl

lemma scored_target (stores : List StoreView) (hid : id ∉ x.storeIds) : passesTarget noLimits
  (([distinctScoreFilter [] stores (scored source source), .blacklistTarget []] : List StoreFilter) ++
    ([.excluded [] x.storeIds] : List StoreFilter) ++ replicaFilters ++
    ([.state, .pendingPeerCount, .excluded [] (x.withRemoveStorePeer source).storeIds] : List StoreFilter) ++
    (none : Option StoreFilter).toList) (scored source id) = true := by
  have hremoved : id ∉ (x.withRemoveStorePeer source).storeIds := by
    intro hin
    obtain ⟨p, hp, rfl⟩ := List.mem_map.mp hin
    exact hid (List.mem_map_of_mem (mem_of_mem_filter hp))
  have hpending : noLimits.tooManyPending (scored source id) = false := wellStore_pending (.inl rfl)
  have hgetID : (scored source id).getID = id := rfl
  simp only [passesTarget, distinctScoreFilter, replicaFilters, StoreFilter.target, distinctScore_unlabelled,
    any_append, any_cons, any_nil, hgetID, hpending, Option.toList]
  simp [scored, hid, hremoved]

lemma selectBest_stray (r : RegionsInfo) (source : Nat) (hzero : 0 ∉ present) (ht : cl.here present ns t)
  (hnew : t ∉ x.storeIds) (n i : Nat) (stores : List StoreView) : ∃ u, cl.here present ns u ∧ u ∉ x.storeIds ∧ u ≠ 0 ∧
    (selectBestReplacementStore (strayNamespace r cl present ns source x).opt (fun _ => none)
      ((strayNamespace r cl present ns source x).getStores (straySetting n).choices i)
      (strayNamespace r cl present ns source x).getRegionStores x source
      [distinctScoreFilter [] stores (scored source source), .blacklistTarget []]).1 = u := by
  have hcand : scored source t ∈ (strayNamespace r cl present ns source x).stores.values :=
    mem_values.mpr ⟨t, getStore_stray t ht⟩
  let staying := (strayNamespace r cl present ns source x).getRegionStores (x.withRemoveStorePeer source)
  obtain ⟨w, hw⟩ := isSome_iff_exists.mp (selectBy_isSome (fun best st => decide (0 <
      compareStoreScore st (distinctScore [] staying st) best (distinctScore [] staying best)))
    none (.inr ⟨scored source t, hcand, scored_target stores hnew⟩))
  obtain ⟨hmem, hpass⟩ := (selectBy_mem hw).resolve_left nofun
  obtain ⟨u, hu, rfl⟩ := mem_values_stray hmem
  have hout : (scored source u).getID ∉ x.storeIds := passesTarget_excluded (by simp) hpass
  refine ⟨u, hu, hout, fun e => hzero (e ▸ hu.1), ?_⟩
  have hown : passesTarget noLimits replicaFilters (scored source u) = true := wellStore_own
  exact selectBestReplacementStore_eq (filter_eq_some_iff.mpr ⟨hw, hown⟩)

lemma transferPeer_stray (hzero : 0 ∉ present) (hsource : cl.here present ns source) (hpeer : source ∈ x.storeIds)
  (ht : cl.here present ns t) (hnew : t ∉ x.storeIds) (n i : Nat) (influence : OpInfluence) :
  ∃ op, transferPeer (straySetting n) (strayNamespace r cl present ns source x)
    ((strayNamespace r cl present ns source x).getStores (straySetting n).choices (i+1)) influence (fun _ => []) i x
    source = some (some op) := by
  obtain ⟨u, hu, hout, hne, hbest⟩ := selectBest_stray r source hzero ht hnew n (i+1)
    ((strayNamespace r cl present ns source x).getRegionStores x)
  have hstores : scored source source ∈ (strayNamespace r cl present ns source x).getRegionStores x :=
    mem_filterMap.mpr ⟨source, hpeer, by
      show (storesOf (scored source) present).lookup source = _
      rw [lookup_storesOf, if_pos hsource.1]⟩
  have hbalance : shouldBalance (straySetting n).measures (scored source source) (scored source u) x false influence =
      true := by
    have husource : u ≠ source := fun e => hout (e ▸ hpeer)
    show scoreLt (scored source u).regionScore (scored source source).regionScore = true
    rw [scored_regionScore, scored_regionScore, if_pos rfl, if_neg husource]
    rfl
  have hsuitable : suitableFollower ((strayNamespace r cl present ns source x).toCluster
      ((straySetting n).choices.allocID i)) u = true := by
    show Option.any _ (((strayNamespace r cl present ns source x).getStore u).map StoreView.getMeta) = true
    rw [getStore_stray u hu]
    rfl
  obtain ⟨op, hop⟩ := createMovePeerOperator_ok "balance-region" x .opBalance source 1
    ((straySetting n).choices.removal i (regionFollowerIDs x)) hsuitable
  exact ⟨op, transferPeer_eq (ne_nil_of_mem hstores) (getStore_stray source hsource) hbest hne
    (getStore_stray u hu) hbalance rfl hop⟩

lemma exists_stray (hr : r.Held) (hzero : 0 ∉ present) (h : Movable r cl present ns source x)
  (influence : Nat → OpInfluence) : ∃ n op,
    (strayNamespace r cl present ns source x).randPendingRegion source healthRegionAllowPending
      ((straySetting n).choices.draw 0 .pending 0) = some x ∧
    transferPeer (straySetting n) (strayNamespace r cl present ns source x)
      ((strayNamespace r cl present ns source x).getStores (straySetting n).choices 1) (influence n) (fun _ => []) 0 x
      (((x.getStorePeer source).map Peer.storeId).getD 0) = some (some op) := by
  obtain ⟨id, hid⟩ := h.pending
  obtain ⟨n, -, hn⟩ := RegionMap.exists_draw (at_wf (hr.sound.wf.maps .pending) source) hid
  obtain ⟨t, ht, hnew⟩ := h.target
  obtain ⟨op, hop⟩ := transferPeer_stray (r := r) hzero h.source h.peer ht hnew n 0 (influence n)
  refine ⟨n, op, ?_, ?_⟩
  · show pickUntil (fun _ => ((r.index .pending).at source).randomRegion n) healthRegionAllowPending
      randomRegionMaxRetry = some x
    rw [randomRegionMaxRetry, pickUntil, hn]
    exact if_pos h.healthy
  cases hp : x.getStorePeer source with
  | none => exact absurd h.peer (RegionInfo.getStorePeer_eq_none.mp hp)
  | some =>
    rw [map_some, getD_some, (RegionInfo.getStorePeer_some hp).2]
    exact hop

/-- A region that may be drawn for its pending peer is moved, whichever other regions the balance draws. -/
lemma movable_balanced (hr : r.Held) (hzero : 0 ∉ present) (h : Movable r cl present ns source x)
  (rand : Role → Nat → (Nat → Nat → Nat) → Option RegionInfo) : ∃ n op, balanceRegion (straySetting n)
    ⟨strayNamespace r cl present ns source x, (strayNamespace r cl present ns source x).getStores, rand⟩ []
    (fun _ => []) = some (some op) ∧ op.regionID = x.getID := by
  obtain ⟨n, op, hpending, hop⟩ := exists_stray hr hzero h
    fun n => (strayNamespace r cl present ns source x).opInfluence (straySetting n)
  refine ⟨n, op, balanceRegion_eq (selectSource_stray h.source n) ?_ rfl rfl rfl hop, (transferPeer_spec hop).1⟩
  have hgetID : (scored source source).getID = source := rfl
  unfold balanceRegionPick
  rw [hgetID, hpending, some_or]

/-- **Isolation** holds exactly if no region strays. -/
theorem balanceRegion_isolated_iff (r : RegionsInfo) (hr : r.Held) (cl : Classifier) (present : List Nat)
  (hzero : 0 ∉ present) (ns : String) : Isolates r cl present ns ↔ ∀ source x, ¬ Strays r cl present ns source x := by
  constructor
  · intro h source x hstray
    obtain ⟨n, op, hop, hid⟩ := movable_balanced hr hzero hstray.toMovable _
    obtain ⟨y, hy, hinside, -⟩ := h (strayCluster r present source x) rfl strayCluster_stored _ _ _ op hop
    obtain ⟨id, hpending⟩ := hstray.pending
    have hx : r.getRegion id = some x := hr.held .pending source id x hpending
    have hself : r.getRegion x.getID = some x := by
      rw [hr.sound.ids id x ((getRegion_eq r id).symm.trans hx)]
      exact hx
    rw [hid, hself] at hy
    exact hstray.outside (some.inj hy ▸ hinside)
  rintro hno c rfl hst s hitSources hitTargets op h
  exact balanceRegion_isolated hr hst hzero hno h

end

def twoUsers (region : String) : Classifier :=
  ⟨["a", "b"], fun id => if id = 3 then "b" else "a", fun _ => region, fun _ _ => true⟩

def withPending (leader : Nat) : RegionInfo :=
  ⟨⟨5, [], [], some ⟨1, 1⟩, [⟨51, leader, false⟩, ⟨52, 1, false⟩]⟩, some ⟨51, leader, false⟩, [], [⟨52, 1, false⟩],
    0, 0, 0, 0⟩

lemma withPending_cached (leader : Nat) : ∃ r, (RegionsInfo.new.setRegion (withPending leader)).map Prod.fst = some r ∧
  r.Held ∧ r.getRegion 5 = some (withPending leader) ∧ ∀ id x, r.getRegion id = some x → x = withPending leader := by
  have hpending : (withPending leader).PendingOk := fun p hp => by
    rw [mem_singleton.mp hp]
    exact mem_cons_of_mem _ (mem_singleton.mpr rfl)
  have hrange : (withPending leader).getMeta.Nonempty := .inr rfl
  obtain ⟨r, hset, hsound, -, hindexed⟩ := setRegion_sound sound_new hrange
  have hinv : r.Inv := ⟨hsound, hindexed inv_new.indexed hpending⟩
  obtain ⟨-, hself, hothers, -⟩ := setRegion_keyed sound_new.toKeyed hset
  refine ⟨r, by rw [hset]; rfl, hinv.toHeld, ?_, fun id x hx => ?_⟩
  · rw [getRegion_eq]
    exact hself
  rw [getRegion_eq] at hx
  by_cases hid : id = (withPending leader).getID
  · rw [hid, hself] at hx
    exact (some.inj hx).symm
  · cases hothers id x hid hx

theorem balanceRegion_isolated_iff_inside : ∃ r, (RegionsInfo.new.setRegion (withPending 2)).map Prod.fst = some r ∧
  Isolates r (twoUsers "a") [1, 2, 3] "a" := by
  obtain ⟨r, hset, hr, -, honly⟩ := withPending_cached 2
  have hinside : (twoUsers "a").inside [1, 2, 3] "a" (withPending 2) := by
    unfold Classifier.inside Classifier.here
    decide
  refine ⟨r, hset, (balanceRegion_isolated_iff r hr _ _ (by decide) _).mpr fun source x hstray => ?_⟩
  obtain ⟨id, hpending⟩ := hstray.pending
  have hx : x = withPending 2 := honly id x (hr.held .pending source id x hpending)
  exact hstray.outside (hx ▸ hinside)

theorem pending_region_crosses : ∃ r op, (RegionsInfo.new.setRegion (withPending 3)).map Prod.fst = some r ∧
  balanceRegion (straySetting 0) (newNamespaceCluster (strayCluster r [1, 2, 3] 1 (withPending 3)) (twoUsers "b") "a")
    [] (fun _ => []) = some (some op) ∧
  op.regionID = 5 ∧ op.steps = [.addPeer 2 1, .removePeer 1] ∧ ¬ Isolated r (twoUsers "b") [1, 2, 3] "a" op := by
  obtain ⟨r, hset, -, hget, -⟩ := withPending_cached 3
  have hrun : ((RegionsInfo.new.setRegion (withPending 3)).map Prod.fst).map (fun r => (balanceRegion (straySetting 0)
      (newNamespaceCluster (strayCluster r [1, 2, 3] 1 (withPending 3)) (twoUsers "b") "a") [] (fun _ => [])).map
      (Option.map fun op => (op.regionID, op.steps))) = some (some (some (5, [.addPeer 2 1, .removePeer 1]))) := by
    decide +kernel
  rw [hset, map_some, Option.some.injEq] at hrun
  obtain ⟨found, hfound, hop⟩ := map_eq_some_iff.mp hrun
  obtain ⟨op, rfl, hop⟩ := map_eq_some_iff.mp hop
  obtain ⟨hid, hsteps⟩ := Prod.mk.inj (some.inj hop)
  refine ⟨r, op, hset, hfound, hid, hsteps, ?_⟩
  rintro ⟨x, hx, ⟨hns, -⟩, -⟩
  exact absurd hns (show ¬ "b" = "a" by decide)

end PD
