import PD.Schedule.RangeCluster
import PD.Schedulers.NamespaceBalance

/-! # The scatter-range scheduler -/

namespace PD
open Option StoreView

/-- `GetStores` gives updated stores; `GetStore` and `GetRegionStores` discard what `updateStoreInfo` returns. -/
structure RangeView where
  cluster : NamespaceCluster
  regions : RegionsInfo
  updateStoreInfo : StoreView → StoreView
  updateStoreInfo_meta : ∀ s, (updateStoreInfo s).getMeta = s.getMeta

namespace RangeView

/-- `RandLeaderRegion` and `RandFollowerRegion` draw from the collected regions, in one round. -/
def toView (rc : RangeView) : BalanceView where
  cluster := rc.cluster
  getStores := fun ch i => ch.listing i (rc.cluster.stores.mapVal rc.updateStoreInfo).values
  randRoleRegion := fun role storeID draw => randRegion ((rc.regions.index role).at storeID) healthRegion (draw 0)

def ranged (desc : String) (op : Operator) : Operator := { op with desc := desc, kind := op.kind ||| .opRange }

def schedule (rangeName : String) (s s' : Setting) (rc : RangeView) (taint hitSources : List Nat)
  (hitTargets : Nat → List Nat) : Option (List Nat × Option Operator) :=
  match balanceLeader s rc.toView taint with
  | none => none
  | some (taint, some op) => some (taint, some (ranged ("scatter-range-leader-" ++ rangeName) op))
  | some (taint, none) => (balanceRegion s' rc.toView hitSources hitTargets).map fun op =>
      (taint, op.map (ranged ("scatter-range-region-" ++ rangeName)))

def Drawn (rc : RangeView) (r : RegionsInfo) (cl : Classifier) (present : List Nat) (ns : String) (x : RegionInfo) :
    Prop := (∃ id, rc.regions.getRegion id = some x) ∨ ∃ source, Movable r cl present ns source x

/-- For every cluster with these regions and stores, every operator is for a region that starts in the range. -/
def StaysInRange (r range : RegionsInfo) (cl : Classifier) (present : List Nat) (ns : String) (startKey endKey : Key) :
    Prop :=
  ∀ c : ClusterView, c.regions = r → c.Stored present →
    ∀ update hupdate rangeName s s' taint hitSources hitTargets taint' op,
      schedule rangeName s s' ⟨newNamespaceCluster c cl ns, range, update, hupdate⟩ taint hitSources hitTargets =
        some (taint', some op) →
      ∃ x, r.getRegion op.regionID = some x ∧ inRange startKey endKey x.getMeta.startKey

section
variable {s : Setting} {rc : RangeView} {op : Operator} {x : RegionInfo} {source : StoreView} {i : Nat}
variable {taint taint' : List Nat} {hitTargets : Nat → List Nat}
variable {r : RegionsInfo} {cl : Classifier} {present : List Nat} {ns : String}

lemma randRoleRegion_drawn (hr : rc.regions.Inv) {role : Role} {storeID : Nat} {draw : Nat → Nat → Nat}
  (h : rc.toView.randRoleRegion role storeID draw = some x) : rc.Drawn r cl present ns x := by
  obtain ⟨id, hid⟩ := randRegion_some h
  exact .inl ⟨id, hr.toHeld.held role storeID id x hid⟩

lemma here_of_listed {c : ClusterView} (hst : c.Stored present) (hcluster : rc.cluster = newNamespaceCluster c cl ns)
  (h : source ∈ rc.toView.getStores s.choices i) : cl.here present ns source.getID := by
  obtain ⟨id, hid⟩ := SortedMap.mem_values.mp ((s.choices.listing_perm i _).mem_iff.mp h)
  rw [SortedMap.lookup_mapVal, hcluster] at hid
  obtain ⟨st, hlookup, rfl⟩ := map_eq_some_iff.mp hid
  have hst' := hlookup
  change (c.stores.keep fun st => cl.storeNamespace st.getID == ns).lookup id = some st at hst'
  rw [SortedMap.lookup_keep] at hst'
  have hgetID : (rc.updateStoreInfo st).getID = id := by
    unfold getID
    rw [rc.updateStoreInfo_meta]
    exact hst.keyed id st (filter_eq_some_iff.mp hst').1
  rw [hgetID]
  exact (getStore_isSome hst id).mp (isSome_iff_exists.mpr ⟨st, hlookup⟩)

lemma schedule_drawn {c : ClusterView} (hst : c.Stored present) (hzero : 0 ∉ present)
  (hcluster : rc.cluster = newNamespaceCluster c cl ns) {rangeName : String} {s' : Setting} {hitSources : List Nat}
  (hr : rc.regions.Inv) (h : schedule rangeName s s' rc taint hitSources hitTargets = some (taint', some op)) :
  ∃ x, rc.Drawn c.regions cl present ns x ∧ op.regionID = x.getID := by
  unfold schedule at h
  split at h
  · cases h
  next hleader =>
    cases h
    obtain ⟨x, -, hx, hid, -⟩ := balanceLeader_passed (fun _ _ _ _ => randRoleRegion_drawn hr) hleader
    exact ⟨x, hx, hid⟩
  · obtain ⟨res, hregion, hres⟩ := map_eq_some_iff.mp h
    obtain ⟨op', rfl, rfl⟩ := map_eq_some_iff.mp (Prod.mk.inj hres).2
    obtain ⟨source, hmem, x, j, hx, -, hmove⟩ := balanceRegion_spec hregion
    have hid : op'.regionID = x.getID := (transferPeer_spec hmove).1
    refine ⟨x, ?_, hid⟩
    rcases or_eq_some_iff.mp hx with hpending | ⟨-, hx⟩
    · change rc.cluster.randPendingRegion _ _ _ = _ at hpending
      change transferPeer s' rc.cluster _ _ _ _ _ _ = _ at hmove
      rw [hcluster] at hpending hmove
      exact .inr ⟨_, movable_of_transfer hst hzero (here_of_listed hst hcluster hmem) hpending hmove⟩
    rcases or_eq_some_iff.mp hx with hfollower | ⟨-, hleader⟩
    · exact randRoleRegion_drawn hr hfollower
    · exact randRoleRegion_drawn hr hleader

lemma balanceLeader_tainted (h : ∀ store ∈ rc.toView.getStores s.choices 0, store.getID ∈ taint) :
  balanceLeader s rc.toView taint = some ([], none) := by
  have hnone : BalanceSelector.selectSource leaderScore rc.toView.cluster.opt (balanceLeaderFilters taint)
      (rc.toView.getStores s.choices 0) = none := by
    refine eq_none_iff_forall_ne_some.mpr fun store hselect => ?_
    obtain ⟨hmem, hpass⟩ := (selectBy_mem hselect).resolve_left nofun
    simp [passesSource, balanceLeaderFilters, StoreFilter.source, h store hmem] at hpass
  simp only [balanceLeader, hnone]

/-- A region that may be drawn for its pending peer is moved, whatever the range is. -/
lemma movable_scheduled {source : Nat} (hr : r.Held) (hzero : 0 ∉ present) (h : Movable r cl present ns source x)
  (range : RegionsInfo) : ∃ n op, schedule "" (straySetting n) (straySetting n)
      ⟨strayNamespace r cl present ns source x, range, id, fun _ => rfl⟩ present [] (fun _ => []) =
    some ([], some op) ∧ op.regionID = x.getID := by
  let rc : RangeView := ⟨strayNamespace r cl present ns source x, range, id, fun _ => rfl⟩
  have hlisted : rc.toView.getStores = rc.cluster.getStores := by
    have hid : rc.cluster.stores.mapVal id = rc.cluster.stores :=
      SortedMap.ext_lookup fun k => by rw [SortedMap.lookup_mapVal, map_id, id]
    funext ch i
    exact congrArg (fun stores => ch.listing i stores.values) hid
  obtain ⟨n, op, hop, hid⟩ := movable_balanced hr hzero h rc.toView.randRoleRegion
  refine ⟨n, ranged ("scatter-range-region-" ++ "") op, ?_, hid⟩
  have hleader : balanceLeader (straySetting n) rc.toView present = some ([], none) :=
    balanceLeader_tainted fun store hstore => (here_of_listed strayCluster_stored rfl hstore).1
  have hregion : balanceRegion (straySetting n) rc.toView [] (fun _ => []) = some (some op) := by
    have hview : rc.toView = ⟨rc.cluster, rc.cluster.getStores, rc.toView.randRoleRegion⟩ := by
      rw [← hlisted]
      rfl
    rw [hview]
    exact hop
  show schedule "" (straySetting n) (straySetting n) rc present [] _ = _
  unfold schedule
  rw [hleader]
  dsimp only
  rw [hregion]
  rfl

end

/-- **Scatter-range and its range.**  `GenRangeCluster` collects the regions of the range exactly if the range is
bounded or no region starts in it; the operators stay in the range exactly if every region does that can be drawn for
a pending peer. -/
theorem scatterRange_inside_iff (ops : List RegionsInfo.Op) (hops : ∀ op ∈ ops, op.Valid) (r : RegionsInfo)
  (hc : Runs.exec RegionsInfo.step .new ops = some r) (cl : Classifier) (present : List Nat) (hzero : 0 ∉ present)
  (ns : String) (startKey endKey : Key) (fuel : Nat) (hfuel : r.tree.length < fuel) :
  ∃ range, RangeCluster.genRangeCluster r startKey endKey fuel = some range ∧
    ((∀ id x, range.getRegion id = some x ↔ r.getRegion id = some x ∧ inRange startKey endKey x.getMeta.startKey) ↔
      (endKey = [] → ∀ id x, r.getRegion id = some x → x.getMeta.startKey < startKey)) ∧
    (StaysInRange r range cl present ns startKey endKey ↔
      ∀ source x, Movable r cl present ns source x → inRange startKey endKey x.getMeta.startKey) := by
  have hinv := RegionsInfo.inv_exec hops hc
  obtain ⟨range, hrange, hr, hmem⟩ := RangeCluster.genRangeCluster_spec hinv startKey endKey hfuel
  have hcached : ∀ source x, Movable r cl present ns source x → r.getRegion x.getID = some x := by
    intro source x h
    obtain ⟨id, hget⟩ := h.pending
    have hx := hinv.toHeld.held .pending source id x hget
    exact (RegionsInfo.getID_of_getRegion hinv.sound hx).symm ▸ hx
  refine ⟨range, hrange, ⟨?_, ?_⟩, ?_, ?_⟩
  · rintro hexact rfl id x hx
    by_contra hle
    have hin := (hexact id x).mpr ⟨hx, not_lt.mp hle, .inl rfl⟩
    exact absurd ((hmem id x).mp hin).2.2 (List.not_lt_nil _)
  · intro hnone id x
    rw [hmem]
    refine and_congr_right fun hx => and_congr_right fun hstart => ⟨.inr, ?_⟩
    rintro (rfl | hlt)
    · exact absurd hstart (not_le.mpr (hnone rfl id x hx))
    · exact hlt
  · intro hstays source x hmovable
    obtain ⟨n, op, hop, hid⟩ := movable_scheduled hinv.toHeld hzero hmovable range
    obtain ⟨y, hy, hin⟩ := hstays _ rfl strayCluster_stored _ _ _ _ _ _ _ _ _ op hop
    rw [hid, hcached source x hmovable, Option.some.injEq] at hy
    exact hy ▸ hin
  intro hpending c hregions hst update hupdate rangeName s s' taint hitSources hitTargets taint' op hop
  obtain ⟨x, hx, hid⟩ := schedule_drawn hst hzero rfl hr hop
  rw [hregions] at hx
  rw [hid]
  rcases hx with ⟨id, hx⟩ | ⟨source, hx⟩
  · obtain ⟨hx, hstart, hend⟩ := (hmem id x).mp hx
    exact ⟨x, (RegionsInfo.getID_of_getRegion hinv.sound hx).symm ▸ hx, hstart, .inr hend⟩
  · exact ⟨x, hcached source x hx, hpending source x hx⟩

def oneNamespace (c : RegionsInfo) (leader : Nat) : NamespaceCluster :=
  newNamespaceCluster (strayCluster c [1, 2, 3] 1 (withPending leader)) ⟨["a"], fun _ => "a", fun _ => "a",
    fun _ _ => true⟩ "a"

theorem scatterRange_inside_iff_pending : ∃ r range, Runs.exec RegionsInfo.step .new [.set (withPending 2)] = some r ∧
  RangeCluster.genRangeCluster r [] [10] (r.tree.length + 1) = some range ∧
  (∃ x, Movable r ⟨["a"], fun _ => "a", fun _ => "a", fun _ _ => true⟩ [1, 2, 3] "a" 1 x) ∧
  StaysInRange r range ⟨["a"], fun _ => "a", fun _ => "a", fun _ _ => true⟩ [1, 2, 3] "a" [] [10] := by
  obtain ⟨r, hset, hheld, -, honly⟩ := withPending_cached 2
  have hc : Runs.exec RegionsInfo.step .new [.set (withPending 2)] = some r := by
    show ((RegionsInfo.new.setRegion (withPending 2)).map Prod.fst).bind some = _
    rw [hset]
    rfl
  have hpending : ((RegionsInfo.new.setRegion (withPending 2)).map Prod.fst).map
      (fun r => ((r.index .pending).at 1).get 5) = some (some (withPending 2)) := by decide +kernel
  rw [hset, map_some, Option.some.injEq] at hpending
  obtain ⟨range, hrange, -, hiff⟩ := scatterRange_inside_iff [.set (withPending 2)] (by decide) r hc
    ⟨["a"], fun _ => "a", fun _ => "a", fun _ _ => true⟩ [1, 2, 3] (by decide) "a" [] [10] (r.tree.length + 1)
    (Nat.lt_succ_self _)
  refine ⟨r, range, hc, hrange, ⟨withPending 2, ⟨by decide, rfl⟩, ⟨5, hpending⟩, by decide, by decide, 3,
    ⟨by decide, rfl⟩, by decide⟩, hiff.mpr fun source x hmovable => ?_⟩
  obtain ⟨id, hget⟩ := hmovable.pending
  rw [honly id x (hheld.held .pending source id x hget)]
  exact ⟨le_refl _, .inr (by decide)⟩

theorem scatterRange_outside : ∃ c range unbounded op,
  Runs.exec RegionsInfo.step .new [.set (withPending 3)] = some c ∧ c.getRegion 5 = some (withPending 3) ∧
  RangeCluster.genRangeCluster c [9] [10] 2 = some range ∧
  (schedule "r" (straySetting 0) (straySetting 0) ⟨oneNamespace c 3, range, id, fun _ => rfl⟩ [] []
    (fun _ => [])).map Prod.snd = some (some op) ∧
  op.regionID = 5 ∧ ¬ inRange [9] [10] (withPending 3).getMeta.startKey ∧
  RangeCluster.genRangeCluster c [] [] 2 = some unbounded ∧ unbounded.getRegion 5 = none ∧
  inRange [] [] (withPending 3).getMeta.startKey := by
  have hrun : ((Runs.exec RegionsInfo.step .new [.set (withPending 3)]).bind fun c =>
      (RangeCluster.genRangeCluster c [9] [10] 2).bind fun range =>
      (RangeCluster.genRangeCluster c [] [] 2).bind fun unbounded =>
      (schedule "r" (straySetting 0) (straySetting 0) ⟨oneNamespace c 3, range, id, fun _ => rfl⟩ [] []
        (fun _ => [])).bind fun res => res.2.map fun op =>
        (c.getRegion 5, unbounded.getRegion 5, op.regionID)) = some (some (withPending 3), none, 5) := by decide +kernel
  obtain ⟨c, hc, hrun⟩ := bind_eq_some_iff.mp hrun
  obtain ⟨range, hrange, hrun⟩ := bind_eq_some_iff.mp hrun
  obtain ⟨unbounded, hunbounded, hrun⟩ := bind_eq_some_iff.mp hrun
  obtain ⟨res, hres, hrun⟩ := bind_eq_some_iff.mp hrun
  obtain ⟨op, hop, hvalues⟩ := map_eq_some_iff.mp hrun
  obtain ⟨hget, hvalues⟩ := Prod.mk.inj hvalues
  obtain ⟨hnone, hid⟩ := Prod.mk.inj hvalues
  refine ⟨c, range, unbounded, op, hc, hget, hrange, ?_, hid, ?_, hunbounded, hnone, le_refl _, .inl rfl⟩
  · rw [hres, map_some, hop]
  rintro ⟨hle, -⟩
  exact absurd hle (by decide)

end RangeView
end PD
