import PD.Schedule.MatchPeers

/-! # Operators that an administrator adds -/

namespace PD

inductive HandlerError where
  | notBootstrapped
  | addOperator
  | regionNotAdjacent
  | regionNotFound (regionID : Nat)
  | regionAbnormalPeer (regionID : Nat)
  | noPeer (storeID : Nat)
  | storeNotFound (storeID : Nat)
  | storeTombstoned (storeID : Nat)
  | create (text : String)
  deriving DecidableEq

def abnormalPeer (c : Cluster) (region : RegionInfo) : Bool :=
  !region.downPeers.isEmpty || !region.pendingPeers.isEmpty || !region.getLearners.isEmpty ||
    (region.getPeers.length : Int) != c.maxReplicas

def notAdjacent (region target : Region) : Bool := (region.startKey == target.endKey || region.startKey.isEmpty) &&
    (region.endKey == target.startKey || region.endKey.isEmpty)

variable (coordinator : Option Cluster)

def checkMergeRegions (regionID targetID : Nat) : Except HandlerError (Cluster × RegionInfo × RegionInfo) :=
  match coordinator with
  | none => .error .notBootstrapped
  | some c =>
    match c.getRegion regionID with
    | none => .error (.regionNotFound regionID)
    | some region =>
      match c.getRegion targetID with
      | none => .error (.regionNotFound targetID)
      | some target =>
        if abnormalPeer c region then .error (.regionAbnormalPeer regionID)
        else if abnormalPeer c target then .error (.regionAbnormalPeer targetID)
        else if notAdjacent region.getMeta target.getMeta then .error .regionNotAdjacent
        else .ok (c, region, target)

def addMergeRegionOperator (regionID targetID : Nat) (order : List Nat)
  (addOperator : List Operator → Bool) : Option (Except HandlerError Unit) :=
  match checkMergeRegions coordinator regionID targetID with
  | .error e => some (.error e)
  | .ok (c, region, target) =>
    (createMergeRegionOperator "admin-merge-region" c region target .opAdmin order).map fun r =>
      match r with
      | .error e => .error (.create e)
      | .ok (op₁, op₂) => if addOperator [op₁, op₂] then .ok () else .error .addOperator

variable (regionID fromStoreID toStoreID : Nat)

def transferPeerOperator (followers : List Nat) : Except HandlerError Operator :=
  match coordinator with
  | none => .error .notBootstrapped
  | some c =>
    match c.getRegion regionID with
    | none => .error (.regionNotFound regionID)
    | some region =>
      if region.getStorePeer fromStoreID = none then .error (.noPeer fromStoreID)
      else
        match c.getStore toStoreID with
        | none => .error (.storeNotFound toStoreID)
        | some toStore =>
          if toStore.state = .tombstone then .error (.storeTombstoned toStoreID)
          else
            match c.allocPeer 0 toStoreID with
            | .error e => .error (.create e)
            | .ok newPeer =>
              match createMovePeerOperator "admin-move-peer" c region .opAdmin fromStoreID toStoreID
                  newPeer.id followers with
              | .error e => .error (.create e)
              | .ok op => .ok op

def addTransferPeerOperator (followers : List Nat) (addOperator : List Operator → Bool) : Except HandlerError Unit :=
  match transferPeerOperator coordinator regionID fromStoreID toStoreID followers with
  | .error e => .error e
  | .ok op => if addOperator [op] then .ok () else .error .addOperator

def checkStores (c : Cluster) : List Nat → Except HandlerError Unit
  | [] => .ok ()
  | id :: rest =>
    match c.getStore id with
    | none => .error (.storeNotFound id)
    | some store => if store.state = .tombstone then .error (.storeTombstoned id) else checkStores c rest

def transferRegionOperator (regionID : Nat) (storeIDs adds targets : List Nat) : Except HandlerError Operator :=
  match coordinator with
  | none => .error .notBootstrapped
  | some c =>
    match c.getRegion regionID with
    | none => .error (.regionNotFound regionID)
    | some region =>
      if (storeIDs.length : Int) > c.maxReplicas then
        .error (.create s!"the number of stores is {storeIDs.length}, beyond the max replicas")
      else
        match checkStores c storeIDs with
        | .error e => .error e
        | .ok _ =>
          match createMoveRegionOperator "admin-move-region" c region .opAdmin adds targets with
          | .error e => .error (.create e)
          | .ok op => .ok op

def Region.Adjacent (r t : Region) : Prop :=
  (r.endKey = t.startKey ∧ r.endKey ≠ []) ∨ (t.endKey = r.startKey ∧ r.startKey ≠ [])

instance adjacentDecidable (r t : Region) : Decidable (r.Adjacent t) := inferInstanceAs (Decidable (_ ∨ _))

section
variable {r t : Region}

lemma notAdjacent_iff : notAdjacent r t = true ↔
  (r.startKey = t.endKey ∨ r.startKey = []) ∧ (r.endKey = t.startKey ∨ r.endKey = []) := by
  simp [notAdjacent]

lemma not_whole (ht : t.Nonempty) (hdis : ¬ r.Overlaps t) : ¬ (r.startKey = [] ∧ r.endKey = []) := by
  rintro ⟨hstart, hend⟩
  refine hdis ⟨t.startKey, ?_, ?_⟩
  · rw [Region.contains, hstart, hend]
    simpa using not_lt.mp (List.not_lt_nil t.startKey)
  rw [Region.contains_iff]
  exact ⟨le_refl _, Region.nonempty_span.mpr ht⟩

lemma not_overlaps_of_end_le (hne : r.endKey ≠ []) (h : r.endKey ≤ t.startKey) : ¬ r.Overlaps t := by
  rintro ⟨k, hr, ht⟩
  have h1 : k < r.endKey := (Region.lt_upper.mp (Region.contains_iff.mp hr).2).resolve_left hne
  have h2 : t.startKey ≤ k := (Region.contains_iff.mp ht).1
  exact lt_irrefl k (h1.trans_le (h.trans h2))

lemma not_both_follow (hr : r.Nonempty) (ht : t.Nonempty) :
  ¬ ((r.endKey = t.startKey ∧ r.endKey ≠ []) ∧ (t.endKey = r.startKey ∧ r.startKey ≠ [])) := by
  rintro ⟨⟨hrt, hrend⟩, htr, hrstart⟩
  have h1 : r.startKey < r.endKey := hr.resolve_right hrend
  have h2 : t.startKey < t.endKey := ht.resolve_right (htr ▸ hrstart)
  rw [← hrt, htr] at h2
  exact lt_asymm h1 h2

lemma adjacent_check_iff (hr : r.Nonempty) (ht : t.Nonempty) (hdis : ¬ r.Overlaps t) :
  (¬ notAdjacent r t = true ↔ r.Adjacent t) ↔ r.Adjacent t ∧ r.startKey ≠ [] ∧ r.endKey ≠ [] := by
  have hboth := not_both_follow hr ht
  rw [notAdjacent_iff, eq_comm (a := r.startKey) (b := t.endKey)]
  unfold Region.Adjacent
  by_cases hstart : r.startKey = []
  · -- the first region: the check lets through what does not follow it
    have hend : r.endKey ≠ [] := fun hend => not_whole ht hdis ⟨hstart, hend⟩
    simp [hstart, hend]
  by_cases hend : r.endKey = []
  · simp [hstart, hend]
  have hnot : ¬ (t.endKey = r.startKey ∧ r.endKey = t.startKey) := fun h => hboth ⟨⟨h.2, hend⟩, h.1, hstart⟩
  simp [hstart, hend, hnot]

lemma checkMergeRegions_eq {c : Cluster} {region target : RegionInfo} {regionID targetID : Nat}
  (hr : c.getRegion regionID = some region) (ht : c.getRegion targetID = some target)
  (hor : abnormalPeer c region = false) (hot : abnormalPeer c target = false) :
  checkMergeRegions (some c) regionID targetID =
    if notAdjacent region.getMeta target.getMeta then .error .regionNotAdjacent else .ok (c, region, target) := by
  simp only [checkMergeRegions, hr, ht, hor, hot]
  rfl

end

/-- **Adjacency** is tested right only for adjacent regions inside the key space. -/
theorem merge_admits_adjacent_iff (c : Cluster) (regionID targetID : Nat) (region target : RegionInfo)
  (hr : c.getRegion regionID = some region) (ht : c.getRegion targetID = some target)
  (hor : abnormalPeer c region = false) (hot : abnormalPeer c target = false)
  (hner : region.getMeta.Nonempty) (hnet : target.getMeta.Nonempty) (hdis : ¬ region.getMeta.Overlaps target.getMeta) :
  (checkMergeRegions (some c) regionID targetID ≠ .error .regionNotAdjacent ↔ region.getMeta.Adjacent target.getMeta) ↔
    region.getMeta.Adjacent target.getMeta ∧ region.getMeta.startKey ≠ [] ∧ region.getMeta.endKey ≠ [] := by
  rw [← adjacent_check_iff hner hnet hdis, checkMergeRegions_eq hr ht hor hot]
  cases notAdjacent region.getMeta target.getMeta with
  | _ => simp

theorem merge_admits_adjacent_inner : checkMergeRegions (some smallCluster) 2 3 ≠ .error .regionNotAdjacent ↔
  (loadedRegion 2 [1] [2] [1, 2, 3]).getMeta.Adjacent (loadedRegion 3 [2] [3] [4, 5, 6]).getMeta := by
  exact (merge_admits_adjacent_iff smallCluster 2 3 _ _ rfl rfl (by decide) (by decide) (by decide)
    (by decide) (not_overlaps_of_end_le (by decide) (by decide))).mpr (by decide)

theorem merge_check_misjudges : (checkMergeRegions (some smallCluster) 2 4 =
      .ok (smallCluster, loadedRegion 2 [1] [2] [1, 2, 3], loadedRegion 4 [4] [5] [1, 2, 3]) ∧
    ¬ (loadedRegion 2 [1] [2] [1, 2, 3]).getMeta.Adjacent (loadedRegion 4 [4] [5] [1, 2, 3]).getMeta) ∧
  checkMergeRegions (some smallCluster) 1 2 = .error .regionNotAdjacent ∧
    (loadedRegion 1 [] [1] [1, 2, 3]).getMeta.Adjacent (loadedRegion 2 [1] [2] [1, 2, 3]).getMeta :=
  ⟨⟨rfl, by decide⟩, rfl, by decide⟩

theorem merge_loaded_panics : addMergeRegionOperator (some smallCluster) 2 3 [] (fun _ => true) = none := by decide

end PD
