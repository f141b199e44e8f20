import PD.Schedulers.Balance

/-! # The scheduler hot-region -/

namespace PD
open List

structure RegionStat where
  regionID : Nat
  flowBytes : Nat
  hotDegree : Int
  median : Nat
  deriving DecidableEq

structure HotStat where
  regionID : Nat
  flowBytes : Nat
  deriving DecidableEq

structure HotRegionsStat where
  totalFlowBytes : Nat
  regionsStat : List HotStat
  deriving DecidableEq

abbrev StoreHotRegionsStat := SortedMap Nat HotRegionsStat

def addHotStat (r : RegionStat) (stats : StoreHotRegionsStat) (storeID : Nat) : StoreHotRegionsStat :=
  let storeStat := (stats.lookup storeID).getD ⟨0, []⟩
  stats.insert storeID
    ⟨(storeStat.totalFlowBytes + r.flowBytes) % 2 ^ 64, storeStat.regionsStat ++ [⟨r.regionID, r.median⟩]⟩

def calcScore (items : List RegionStat) (nc : NamespaceCluster) (threshold : Int) (leader : Bool) :
  StoreHotRegionsStat :=
  items.foldl (fun stats r =>
    if r.hotDegree < threshold then stats
    else
      match nc.getRegion r.regionID with
      | none => stats
      | some region =>
        (if leader then [region.leaderStore] else region.storeIds.dedup).foldl (addHotStat r) stats) .empty

structure HotMeasures where
  scheduleFactor : Nat → Nat
  limit : Nat → Nat → Nat → Nat

structure HotSetting extends Setting where
  hot : HotMeasures
  threshold : Int
  readStats : List RegionStat
  writeStats : List RegionStat
  hotRegionCount : Nat
  leaderCount : Nat
  hotRegionScheduleLimit : Nat
  leaderScheduleLimit : Nat
  shuffle : Nat → List HotStat → List HotStat
  shuffle_perm : ∀ i l, (shuffle i l).Perm l

structure HotLimits where
  leaderLimit : Nat
  peerLimit : Nat
  deriving DecidableEq

def allowBalanceLeader (h : HotSetting) (l : HotLimits) : Bool :=
  decide (h.hotRegionCount < min l.leaderLimit h.hotRegionScheduleLimit) &&
    decide (h.leaderCount < h.leaderScheduleLimit)

def allowBalanceRegion (h : HotSetting) (l : HotLimits) : Bool :=
  decide (h.hotRegionCount < min l.peerLimit h.hotRegionScheduleLimit)

structure SrcStore where
  maxFlowBytes : Nat
  maxCount : Nat
  storeID : Nat

def selectSrcStore (stats : StoreHotRegionsStat) (order : List Nat) : Nat :=
  (order.foldl (fun (best : SrcStore) storeID =>
    match stats.lookup storeID with
    | none => best
    | some s =>
      let count := s.regionsStat.length
      if 2 ≤ count ∧ (best.maxCount < count ∨ (count = best.maxCount ∧ best.maxFlowBytes < s.totalFlowBytes)) then
        ⟨s.totalFlowBytes, count, storeID⟩
      else best) ⟨0, 0, 0⟩).storeID

structure DestStore where
  minFlowBytes : Nat
  minCount : Nat
  storeID : Nat

def destLoop (hm : HotMeasures) (flow : Nat) (src : HotRegionsStat) (stats : StoreHotRegionsStat) :
    DestStore → List Nat → Nat
  | best, [] => best.storeID
  | best, storeID :: rest =>
    match stats.lookup storeID with
    | none => storeID
    | some s =>
      let count := s.regionsStat.length
      if count + 1 < src.regionsStat.length ∧ count < best.minCount then
        destLoop hm flow src stats ⟨s.totalFlowBytes, count, storeID⟩ rest
      else if best.minCount = count ∧ s.totalFlowBytes < best.minFlowBytes ∧
          (s.totalFlowBytes + 2 * flow) % 2 ^ 64 < hm.scheduleFactor src.totalFlowBytes then
        destLoop hm flow src stats ⟨s.totalFlowBytes, best.minCount, storeID⟩ rest
      else destLoop hm flow src stats best rest

def selectDestStore (hm : HotMeasures) (candidates : List Nat) (flow : Nat) (src : HotRegionsStat)
  (stats : StoreHotRegionsStat) : Nat :=
  destLoop hm flow src stats ⟨2 ^ 64 - 1, 2 ^ 31 - 1, 0⟩ candidates

def adjustBalanceLimit (hm : HotMeasures) (src : HotRegionsStat) (stats : StoreHotRegionsStat) : Nat :=
  max (hm.limit src.regionsStat.length (stats.values.map fun s => s.regionsStat.length).sum stats.size) 1

def isRegionUnhealthy (region : RegionInfo) : Bool := !region.downPeers.isEmpty || !region.getLearners.isEmpty
abbrev PeerMove := RegionInfo × Nat × Peer

def peerLoop (h : HotSetting) (nc : NamespaceCluster) (stats : StoreHotRegionsStat) (i srcStoreID : Nat)
    (src : HotRegionsStat) (l : HotLimits) : List HotStat → Option (HotLimits × Option PeerMove)
  | [] => some (l, none)
  | rs :: rest =>
    match nc.getRegion rs.regionID with
    | none => peerLoop h nc stats i srcStoreID src l rest
    | some srcRegion =>
      if isRegionUnhealthy srcRegion then peerLoop h nc stats i srcStoreID src l rest
      else if (srcRegion.getPeers.length : Int) ≠ nc.getMaxReplicas then peerLoop h nc stats i srcStoreID src l rest
      else
        match nc.getRegionStores srcRegion, nc.getStore srcStoreID with
        | [], _ => none
        | _, none => none
        | stores, some srcStore =>
          let filters : List StoreFilter := [.storeState false true, .excluded srcRegion.storeIds srcRegion.storeIds,
            distinctScoreFilter nc.opt.locationLabels stores srcStore]
          let candidates := ((nc.getStores h.choices i).filter (passesTarget nc.opt filters)).map StoreView.getID
          let destStoreID := selectDestStore h.hot candidates rs.flowBytes src stats
          if destStoreID = 0 then peerLoop h nc stats i srcStoreID src l rest
          else
            let l' := { l with peerLimit := adjustBalanceLimit h.hot src stats }
            match srcRegion.getStorePeer srcStoreID, h.choices.allocID i 0 with
            | none, _ => some (l', none)
            | _, .error _ => some (l', none)
            | some srcPeer, .ok peerID =>
              some (l', some (srcRegion, srcPeer.storeId, ⟨peerID, destStoreID, false⟩))

def balanceByPeer (h : HotSetting) (nc : NamespaceCluster) (stats : StoreHotRegionsStat) (i : Nat) (l : HotLimits) :
  Option (HotLimits × Option PeerMove) :=
  if !allowBalanceRegion h l then some (l, none)
  else
    let srcStoreID := selectSrcStore stats (h.choices.ids i stats.keys)
    match stats.lookup srcStoreID with
    | none => some (l, none)
    | some src =>
      if srcStoreID = 0 then some (l, none)
      else peerLoop h nc stats i srcStoreID src l (h.shuffle i src.regionsStat)

def leaderLoop (h : HotSetting) (nc : NamespaceCluster) (stats : StoreHotRegionsStat) (i : Nat)
    (src : HotRegionsStat) (l : HotLimits) : List HotStat → Option (HotLimits × Option (RegionInfo × Peer))
  | [] => some (l, none)
  | rs :: rest =>
    match nc.getRegion rs.regionID with
    | none => leaderLoop h nc stats i src l rest
    | some srcRegion =>
      if isRegionUnhealthy srcRegion then leaderLoop h nc stats i src l rest
      else if srcRegion.getPeers.isEmpty then none
      else
        let candidates := ((nc.getFollowerStores h.choices i srcRegion).filter
          (passesTarget nc.opt [.storeState true false])).map StoreView.getID
        if candidates.isEmpty then leaderLoop h nc stats i src l rest
        else
          let destStoreID := selectDestStore h.hot candidates rs.flowBytes src stats
          if destStoreID = 0 then leaderLoop h nc stats i src l rest
          else
            match srcRegion.getStoreVoter destStoreID with
            | none => leaderLoop h nc stats i src l rest
            | some destPeer =>
              some ({ l with leaderLimit := adjustBalanceLimit h.hot src stats }, some (srcRegion, destPeer))

def balanceByLeader (h : HotSetting) (nc : NamespaceCluster) (stats : StoreHotRegionsStat) (i : Nat)
  (l : HotLimits) : Option (HotLimits × Option (RegionInfo × Peer)) :=
  if !allowBalanceLeader h l then some (l, none)
  else
    let srcStoreID := selectSrcStore stats (h.choices.ids i stats.keys)
    match stats.lookup srcStoreID with
    | none => some (l, none)
    | some src =>
      if srcStoreID = 0 then some (l, none)
      else leaderLoop h nc stats i src l (h.shuffle i src.regionsStat)

inductive HotResult where
  | done (op : Option Operator)
  | next

def hotLeader (h : HotSetting) (nc : NamespaceCluster) (desc : String) (stats : StoreHotRegionsStat) (i k : Nat)
  (l : HotLimits) : Option (HotLimits × HotResult) :=
  match balanceByLeader h nc stats i l with
  | none => none
  | some (l, none) => some (l, .next)
  | some (l, some (srcRegion, newLeader)) =>
    match ruleFiltered h.toSetting nc k true srcRegion with
    | none => none
    | some true => some (l, .next)
    | some false =>
      some (l, .done (some { createTransferLeaderOperator desc srcRegion srcRegion.leaderStore newLeader.storeId
        .opHotRegion with level := .highPriority }))

def hotPeer (h : HotSetting) (nc : NamespaceCluster) (desc : String) (stats : StoreHotRegionsStat) (i k : Nat)
  (l : HotLimits) : Option (HotLimits × HotResult) :=
  match balanceByPeer h nc stats i l with
  | none => none
  | some (l, none) => some (l, .next)
  | some (l, some (srcRegion, srcStore, destPeer)) =>
    match ruleFiltered h.toSetting nc k false srcRegion with
    | none => none
    | some true => some (l, .next)
    | some false =>
      match createMovePeerOperator desc (nc.toCluster (h.choices.allocID i)) srcRegion .opHotRegion srcStore
          destPeer.storeId destPeer.id (h.choices.removal i (regionFollowerIDs srcRegion)) with
      | .error _ => some (l, .done none)
      | .ok op => some (l, .done (some { op with level := .highPriority }))

def balanceHotReadRegions (h : HotSetting) (nc : NamespaceCluster) (l : HotLimits) :
  Option (HotLimits × Option Operator) :=
  let stats := calcScore h.readStats nc h.threshold true
  match hotLeader h nc "transfer-hot-read-leader" stats 0 0 l with
  | none => none
  | some (l, .done op) => some (l, op)
  | some (l, .next) =>
    match hotPeer h nc "move-hot-read-region" stats 1 1 l with
    | none => none
    | some (l, .done op) => some (l, op)
    | some (l, .next) => some (l, none)

def balanceHotRetryLimit : Nat := 10

def hotWriteAttempt (h : HotSetting) (nc : NamespaceCluster) (asPeer asLeader : StoreHotRegionsStat) (i : Nat)
  (l : HotLimits) : Option (HotLimits × Option (Option Operator)) :=
  let result := if h.choices.coin i % 2 = 0 then hotPeer h nc "move-hot-write-region" asPeer i i l
    else hotLeader h nc "transfer-hot-write-leader" asLeader i i l
  match result with
  | none => none
  | some (l, .done op) => some (l, some op)
  | some (l, .next) => some (l, none)

def balanceHotWriteRegions (h : HotSetting) (nc : NamespaceCluster) (l : HotLimits) :
  Option (HotLimits × Option Operator) :=
  let items := h.writeStats.filter fun r => (nc.getRegion r.regionID).isSome
  let asLeader := calcScore items nc h.threshold true
  let asPeer := calcScore items nc h.threshold false
  match retry (hotWriteAttempt h nc asPeer asLeader) balanceHotRetryLimit 0 l with
  | none => none
  | some (l, some op) => some (l, op)
  | some (l, none) => some (l, none)

def hotRegion (h : HotSetting) (nc : NamespaceCluster) (l : HotLimits) : Option (HotLimits × Option Operator) :=
  if h.choices.coin balanceHotRetryLimit % 2 = 0 then balanceHotWriteRegions h nc l
  else balanceHotReadRegions h nc l

def Operator.movesPeer (op : Operator) : Bool := op.steps.any fun s => match s with
    | .removePeer _ => true
    | _ => false

def HotPassed (h : HotSetting) (nc : NamespaceCluster) (op : Operator) : Prop :=
  Passed h.toSetting nc nc.Cached (!op.movesPeer) op

section
variable {h : HotSetting} {nc : NamespaceCluster} {stats : StoreHotRegionsStat} {op : Operator}
variable {c : Cluster} {kind : OperatorKind} {desc : String} {x : RegionInfo} {i store k : Nat} {src : HotRegionsStat}
variable {l l' : HotLimits} {items : List HotStat} {p : Peer}

lemma removePeerSteps_any {region : RegionInfo} {storeID : Nat} {ids : List Nat} {steps : List OperatorStep}
  (hsteps : removePeerSteps c region storeID ids = .ok (kind, steps)) : .removePeer storeID ∈ steps := by
  unfold removePeerSteps at hsteps
  split at hsteps
  · split at hsteps
    · cases hsteps
      simp
    · cases hsteps
  cases hsteps
  simp

lemma createMovePeerOperator_movesPeer {oldStore newStore peerID : Nat} {followers : List Nat}
  (hop : createMovePeerOperator desc c x kind oldStore newStore peerID followers = .ok op) : op.movesPeer = true := by
  unfold createMovePeerOperator at hop
  split at hop
  · cases hop
  next _ _ hsteps =>
    cases hop
    exact any_eq_true.mpr ⟨_, mem_append_right _ (removePeerSteps_any hsteps), rfl⟩

lemma leaderLoop_some (hfound : leaderLoop h nc stats i src l items = some (l', some (x, p))) :
  ∃ id, nc.regions.getRegion id = some x := by
  induction items with
  | nil => cases hfound
  | cons rs _ ih =>
    simp only [leaderLoop] at hfound
    split at hfound
    · exact ih hfound
    next y hy =>
      split at hfound
      · exact ih hfound
      split at hfound
      · cases hfound
      split at hfound
      · exact ih hfound
      split at hfound
      · exact ih hfound
      split at hfound
      · exact ih hfound
      cases hfound
      exact ⟨rs.regionID, getRegion_some hy⟩

lemma balanceByLeader_some (hfound : balanceByLeader h nc stats i l = some (l', some (x, p))) :
  ∃ id, nc.regions.getRegion id = some x := by
  simp only [balanceByLeader] at hfound
  split at hfound
  · cases hfound
  split at hfound
  · cases hfound
  split at hfound
  · cases hfound
  · exact leaderLoop_some hfound

lemma peerLoop_some {srcStoreID : Nat}
  (hfound : peerLoop h nc stats i srcStoreID src l items = some (l', some (x, store, p))) :
  ∃ id, nc.regions.getRegion id = some x := by
  induction items with
  | nil => cases hfound
  | cons rs _ ih =>
    simp only [peerLoop] at hfound
    split at hfound
    · exact ih hfound
    next y hy =>
      split at hfound
      · exact ih hfound
      split at hfound
      · exact ih hfound
      split at hfound
      · cases hfound
      · cases hfound
      split at hfound
      · exact ih hfound
      split at hfound
      · cases hfound
      · cases hfound
      cases hfound
      exact ⟨rs.regionID, getRegion_some hy⟩

lemma balanceByPeer_some (hfound : balanceByPeer h nc stats i l = some (l', some (x, store, p))) :
  ∃ id, nc.regions.getRegion id = some x := by
  simp only [balanceByPeer] at hfound
  split at hfound
  · cases hfound
  split at hfound
  · cases hfound
  split at hfound
  · cases hfound
  · exact peerLoop_some hfound

lemma hotLeader_passed (hdone : hotLeader h nc desc stats i k l = some (l', .done (some op))) : HotPassed h nc op := by
  unfold hotLeader at hdone
  split at hdone
  · cases hdone
  · cases hdone
  next x _ hfound =>
    split at hdone
    · cases hdone
    · cases hdone
    next hpass =>
      cases hdone
      exact ⟨x, k, balanceByLeader_some hfound, rfl, hpass⟩

lemma hotPeer_passed (hdone : hotPeer h nc desc stats i k l = some (l', .done (some op))) : HotPassed h nc op := by
  unfold hotPeer at hdone
  split at hdone
  · cases hdone
  · cases hdone
  next x _ _ hfound =>
    split at hdone
    · cases hdone
    · cases hdone
    next hpass =>
      split at hdone
      · cases hdone
      next o hop =>
        cases hdone
        have hmoves : o.movesPeer = true := createMovePeerOperator_movesPeer hop
        have hid : o.regionID = x.getID := createMovePeerOperator_regionID hop
        refine ⟨x, k, balanceByPeer_some hfound, hid, ?_⟩
        show ruleFiltered h.toSetting nc k (!o.movesPeer) x = some false
        rw [hmoves]
        exact hpass

lemma balanceHotReadRegions_passed
  (hcall : balanceHotReadRegions h nc l = some (l', some op)) : HotPassed h nc op := by
  simp only [balanceHotReadRegions] at hcall
  split at hcall
  · cases hcall
  next hdone =>
    cases hcall
    exact hotLeader_passed hdone
  · split at hcall
    · cases hcall
    next hdone =>
      cases hcall
      exact hotPeer_passed hdone
    · cases hcall

lemma hotWriteAttempt_passed {asPeer asLeader : StoreHotRegionsStat}
  (hround : hotWriteAttempt h nc asPeer asLeader i l = some (l', some (some op))) : HotPassed h nc op := by
  simp only [hotWriteAttempt] at hround
  split at hround
  · cases hround
  next hdone =>
    cases hround
    split at hdone
    · exact hotPeer_passed hdone
    · exact hotLeader_passed hdone
  · cases hround

lemma hotRegion_passed (hcall : hotRegion h nc l = some (l', some op)) : HotPassed h nc op := by
  unfold hotRegion at hcall
  split at hcall
  · simp only [balanceHotWriteRegions] at hcall
    split at hcall
    · cases hcall
    next hretry =>
      cases hcall
      obtain ⟨j, t, t', hj⟩ := retry_some hretry
      exact hotWriteAttempt_passed hj
    · cases hcall
  · exact balanceHotReadRegions_passed hcall

end

def hotCount (stats : StoreHotRegionsStat) (storeID : Nat) : Nat :=
  ((stats.lookup storeID).map fun s => s.regionsStat.length).getD 0

section
variable {hm : HotMeasures} {flow : Nat} {src : HotRegionsStat} {stats : StoreHotRegionsStat}
variable {best : DestStore} {seen rest : List Nat}

lemma destLoop_free (h : ∃ id ∈ rest, stats.lookup id = none) :
  destLoop hm flow src stats best rest ∈ rest ∧ stats.lookup (destLoop hm flow src stats best rest) = none := by
  induction rest generalizing best with
  | nil => simp at h
  | cons id rest ih =>
    rw [destLoop]
    cases hs : stats.lookup id with
    | none => simp [hs]
    | some =>
      have hrest : ∃ id ∈ rest, stats.lookup id = none := by simpa [hs] using h
      simp only
      split
      · exact (ih hrest).imp_left (mem_cons_of_mem _)
      split <;> exact (ih hrest).imp_left (mem_cons_of_mem _)

structure BestOf (src : HotRegionsStat) (stats : StoreHotRegionsStat) (seen : List Nat) (best : DestStore) : Prop where
  least : ∀ id ∈ seen, hotCount stats id + 1 < src.regionsStat.length → best.minCount ≤ hotCount stats id
  found : best.storeID = 0 ∧ best.minCount = 2 ^ 31 - 1 ∨
    best.storeID ∈ seen ∧ hotCount stats best.storeID = best.minCount ∧ best.minCount + 1 < src.regionsStat.length

lemma BestOf.snoc (h : BestOf src stats seen best) (id flow : Nat) {b : DestStore}
  (hb : (hotCount stats id + 1 < src.regionsStat.length ∧ hotCount stats id < best.minCount ∧
      b = ⟨flow, hotCount stats id, id⟩) ∨
    (hotCount stats id < 2 ^ 31 - 1 ∧ best.minCount = hotCount stats id ∧ b = ⟨flow, best.minCount, id⟩) ∨
    (¬ (hotCount stats id + 1 < src.regionsStat.length ∧ hotCount stats id < best.minCount) ∧ b = best)) :
  BestOf src stats (seen ++ [id]) b := by
  obtain ⟨least, found⟩ := h
  rcases hb with ⟨hlow, hlt, rfl⟩ | ⟨hsmall, heq, rfl⟩ | ⟨hno, rfl⟩
  · refine ⟨fun id' hid' hlow' => ?_, .inr ⟨by simp, rfl, hlow⟩⟩
    rcases mem_append.mp hid' with h | h
    · have := least id' h hlow'
      simp only
      omega
    · simp [mem_singleton.mp h]
  · refine ⟨fun id' hid' hlow' => ?_, .inr ⟨by simp, heq.symm, ?_⟩⟩
    · rcases mem_append.mp hid' with h | h
      · exact least id' h hlow'
      · simp [mem_singleton.mp h, heq]
    rcases found with ⟨-, hmax⟩ | ⟨-, -, hlow⟩
    · omega
    · exact hlow
  refine ⟨fun id' hid' hlow' => ?_, found.imp_right fun ⟨hin, hrest⟩ => ⟨by simp [hin], hrest⟩⟩
  rcases mem_append.mp hid' with h | h
  · exact least id' h hlow'
  rw [mem_singleton.mp h] at hlow' ⊢
  omega

lemma destLoop_best (hall : ∀ id ∈ rest, stats.lookup id ≠ none)
  (hcounts : ∀ id ∈ rest, hotCount stats id < 2 ^ 31 - 1) (h : BestOf src stats seen best) :
  ∃ b, BestOf src stats (seen ++ rest) b ∧ destLoop hm flow src stats best rest = b.storeID := by
  induction rest generalizing best seen with
  | nil => exact ⟨best, by simpa using h, rfl⟩
  | cons id rest ih =>
    have hrest : ∀ {b}, BestOf src stats (seen ++ [id]) b →
        ∃ b', BestOf src stats (seen ++ id :: rest) b' ∧ destLoop hm flow src stats b rest = b'.storeID := by
      intro b hb
      have hb' := ih (fun id' hid' => hall id' (by simp [hid'])) (fun id' hid' => hcounts id' (by simp [hid'])) hb
      simpa using hb'
    have hsmall := hcounts id (by simp)
    rw [destLoop]
    cases hs : stats.lookup id with
    | none => exact absurd hs (hall id (by simp))
    | some s =>
      have hcount : hotCount stats id = s.regionsStat.length := by simp [hotCount, hs]
      simp only
      split
      next _ => exact hrest (h.snoc id _ (.inl ⟨by omega, by omega, by rw [hcount]⟩))
      next _ =>
        split
        next _ => exact hrest (h.snoc id _ (.inr (.inl ⟨hsmall, by omega, rfl⟩)))
        · exact hrest (h.snoc id 0 (.inr (.inr ⟨by omega, rfl⟩)))

/-- **The destination of a hot region** -/
theorem selectDestStore_least (hm : HotMeasures) (candidates : List Nat) (flow srcStoreID : Nat)
    (hsrc : stats.lookup srcStoreID = some src) (hcounts : ∀ id, hotCount stats id < 2 ^ 31 - 1) :
    let dest := selectDestStore hm candidates flow src stats
    let c := hotCount stats srcStoreID
    ((∃ id ∈ candidates, stats.lookup id = none) → dest ∈ candidates ∧ stats.lookup dest = none) ∧
      ((∀ id ∈ candidates, stats.lookup id ≠ none) →
        ((∃ id ∈ candidates, hotCount stats id + 1 < c) → dest ∈ candidates ∧
          ∀ id ∈ candidates, hotCount stats dest ≤ hotCount stats id) ∧
        ((∀ id ∈ candidates, c ≤ hotCount stats id + 1) → dest = 0)) ∧
      (2 ≤ c → dest ≠ 0 → hotCount stats dest + 1 < c) := by
  intro dest c
  have hc : c = src.regionsStat.length := by simp [c, hotCount, hsrc]
  have hbest : (∀ id ∈ candidates, stats.lookup id ≠ none) →
      ∃ b, BestOf src stats candidates b ∧ dest = b.storeID := by
    intro hall
    have hstart : BestOf src stats [] ⟨2 ^ 64 - 1, 2 ^ 31 - 1, 0⟩ := ⟨by simp, .inl ⟨rfl, rfl⟩⟩
    exact destLoop_best hall (fun id _ => hcounts id) hstart
  refine ⟨fun h => destLoop_free h, fun hall => ?_, fun hc2 hdest => ?_⟩
  · obtain ⟨b, ⟨least, found⟩, hb⟩ := hbest hall
    rw [hb]
    refine ⟨fun ⟨id, hid, hlow⟩ => ?_, fun hhigh => ?_⟩
    · have hle := least id hid (by omega)
      have hsmall := hcounts id
      rcases found with ⟨-, hmax⟩ | ⟨hin, heq, hlow⟩
      · omega
      refine ⟨hin, fun id' hid' => ?_⟩
      by_cases hlow' : hotCount stats id' + 1 < src.regionsStat.length
      · have := least id' hid' hlow'
        omega
      · omega
    rcases found with ⟨hzero, -⟩ | ⟨hin, heq, hlow⟩
    · exact hzero
    have := hhigh _ hin
    omega
  by_cases hfree : ∃ id ∈ candidates, stats.lookup id = none
  · have hnone : stats.lookup dest = none := (destLoop_free hfree).2
    have hzero : hotCount stats dest = 0 := by simp [hotCount, hnone]
    omega
  obtain ⟨b, ⟨-, found⟩, hb⟩ := hbest (by simpa using hfree)
  rw [hb] at hdest ⊢
  rcases found with ⟨hzero, -⟩ | ⟨-, heq, hlow⟩
  · exact absurd hzero hdest
  · omega

def twoHot : StoreHotRegionsStat := (SortedMap.empty.insert 1 ⟨9, [⟨1, 3⟩, ⟨2, 3⟩, ⟨3, 3⟩]⟩).insert 2 ⟨3, [⟨4, 3⟩]⟩

theorem selectDestStore_least_second :
  selectDestStore ⟨id, fun _ _ _ => 0⟩ [2] 3 ⟨9, [⟨1, 3⟩, ⟨2, 3⟩, ⟨3, 3⟩]⟩ twoHot ∈ [2] ∧
    hotCount twoHot 2 + 1 < hotCount twoHot 1 := by
  have hcounts : ∀ id, hotCount twoHot id < 2 ^ 31 - 1 := by
    intro id
    simp only [hotCount, twoHot, SortedMap.lookup_insert]
    split
    · decide
    split
    · decide
    show 0 < 2 ^ 31 - 1
    decide
  have hspec := selectDestStore_least ⟨id, fun _ _ _ => 0⟩ [2] 3 1
    (show twoHot.lookup 1 = some ⟨9, [⟨1, 3⟩, ⟨2, 3⟩, ⟨3, 3⟩]⟩ by decide) hcounts
  exact ⟨((hspec.2.1 (by decide)).1 (by decide)).1, by decide⟩

theorem selectDestStore_one :
    let stats : StoreHotRegionsStat := SortedMap.empty.insert 1 ⟨3, [⟨1, 3⟩]⟩
    let dest := selectDestStore ⟨id, fun _ _ _ => 0⟩ [2] 3 ⟨3, [⟨1, 3⟩]⟩ stats
    dest = 2 ∧ hotCount stats dest + 1 = hotCount stats 1 := by
  decide

end
end PD
