import Mathlib.Data.Finset.Card
import Mathlib.Data.Finset.Union
import PD.Plugin.UserSchedulers

/-! # The target stores of a region rule -/

namespace PD
open List Option
namespace UserScheduler
variable (nc : NamespaceCluster)

def usable (t : Nat) : Bool := filterTarget nc.opt (nc.getStore t) [.storeState false true] == some false
def unmet (storeIDs : List Nat) (x : RegionInfo) : Bool := !(storeIDs.all fun id => x.storeIds.contains id)

def offered (storeIDs : List Nat) (id : Nat) : Finset Nat :=
  match nc.getRegion id with
  | none => ∅
  | some x => if unmet storeIDs x then (x.storeIds.filter (usable nc)).toFinset else ∅

def collected (storeIDs ids : List Nat) : Finset Nat := storeIDs.toFinset ∪ ids.toFinset.biUnion (offered nc storeIDs)

def handed (nc : NamespaceCluster) (d : Draws) (storeIDs : List Nat) :
    List Nat → List Nat → Option (RegionInfo × List Nat × Operator)
  | [], _ => none
  | id :: rest, storeMap =>
    match moveRegionOf nc d storeIDs id storeMap with
    | none => none
    | some (storeMap, []) => handed nc d storeIDs rest storeMap
    | some (storeMap, op :: _) => (nc.getRegion id).map fun x => (x, storeMap, op)

structure Filled (replicas : Int) (old new : List Nat) (offer : Finset Nat) : Prop where
  nodup : new.Nodup
  grows : ∀ t ∈ old, t ∈ new
  within : ∀ t ∈ new, t ∈ old ∨ t ∈ offer ∧ (old.length : Int) < replicas
  few : (new.length : Int) ≤ max replicas old.length
  all : ((old.toFinset ∪ offer).card : Int) < replicas → ∀ t ∈ offer, t ∈ new
  full : replicas ≤ ((old.toFinset ∪ offer).card : Int) → replicas ≤ new.length

section
variable {nc : NamespaceCluster} {d : Draws} {storeIDs : List Nat} {replicas : Int}
variable {t id : Nat} {ids order storeMap : List Nat} {x : RegionInfo}

lemma filterTarget_of_some (h : (nc.getStore t).isSome) :
  filterTarget nc.opt (nc.getStore t) [.storeState false true] = some (!usable nc t) := by
  obtain ⟨store, hstore⟩ := isSome_iff_exists.mp h
  unfold usable
  rw [hstore, filterTarget, map_some]
  cases [StoreFilter.storeState false true].any fun f => f.target nc.opt store <;> rfl

lemma filterStores_eq (h : ∀ t ∈ ids, (nc.getStore t).isSome) :
  filterStores nc ids = some (ids.filter (usable nc)) := by
  induction ids with
  | nil => rfl
  | cons t _ ih =>
    rw [filterStores, filterTarget_of_some (h t mem_cons_self), ih fun t' h' => h t' (mem_cons_of_mem _ h'),
      filter_cons]
    cases usable nc t <;> rfl

lemma fillStores_eq (replicas : Int) (h : ∀ t ∈ order, (nc.getStore t).isSome)
  (hnodup : order.Nodup) (storeMap : List Nat) : fillStores nc replicas order storeMap = some (storeMap ++
    (order.filter fun t => usable nc t && !storeMap.contains t).take (replicas.toNat - storeMap.length)) := by
  induction order generalizing storeMap with
  | nil => simp [fillStores]
  | cons t rest ih =>
    obtain ⟨ht, hnodup⟩ := nodup_cons.mp hnodup
    have ih' := ih (fun t' h' => h t' (mem_cons_of_mem _ h')) hnodup
    rw [fillStores]
    split
    next _ => rw [Nat.sub_eq_zero_of_le (by omega), take_zero, append_nil]
    next hfew =>
    split
    next hin => rw [ih', filter_cons_of_neg (by rw [hin]; simp)]
    next hnew =>
    rw [filterTarget_of_some (h t mem_cons_self)]
    cases hu : usable nc t with
    | false =>
      rw [filter_cons_of_neg (by rw [hu]; simp)]
      exact ih' storeMap
    | true =>
      -- the order has no repetition, so the store is not offered again
      have hrest : (rest.filter fun a => usable nc a && !(storeMap ++ [t]).contains a) =
          rest.filter fun a => usable nc a && !storeMap.contains a := by
        refine filter_congr fun a ha => ?_
        have hne : a ≠ t := fun e => ht (e ▸ ha)
        simp [hne]
      have hcount : replicas.toNat - storeMap.length = replicas.toNat - (storeMap ++ [t]).length + 1 := by
        rw [length_append, length_singleton]; omega
      have hstep := ih' (storeMap ++ [t])
      rw [hrest, append_assoc, singleton_append] at hstep
      rw [filter_cons_of_pos (by rw [hu, Bool.eq_false_of_not_eq_true hnew]; rfl), hcount, take_succ_cons]
      exact hstep

lemma filled_append (nc : NamespaceCluster) (replicas : Int) (hnodup : order.Nodup) (hmap : storeMap.Nodup) :
  Filled replicas storeMap (storeMap ++
      (order.filter fun t => usable nc t && !storeMap.contains t).take (replicas.toNat - storeMap.length))
    (order.filter (usable nc)).toFinset := by
  have hextra : ∀ t, t ∈ (order.filter fun t => usable nc t && !storeMap.contains t) ↔
      t ∈ order.filter (usable nc) ∧ t ∉ storeMap := by
    intro t
    rw [mem_filter, mem_filter, Bool.and_eq_true, Bool.not_eq_true', ← Bool.not_eq_true, contains_iff_mem, and_assoc]
  have hfnodup : (order.filter fun t => usable nc t && !storeMap.contains t).Nodup := hnodup.filter _
  generalize (order.filter fun t => usable nc t && !storeMap.contains t) = extra at hextra hfnodup
  have hunion : (storeMap.toFinset ∪ (order.filter (usable nc)).toFinset).card = storeMap.length + extra.length := by
    have hsame : storeMap.toFinset ∪ (order.filter (usable nc)).toFinset = (storeMap ++ extra).toFinset := by
      ext t
      simp only [Finset.mem_union, List.mem_toFinset, mem_append, hextra]
      tauto
    have hdisj : List.Disjoint storeMap extra := fun t ht ht' => ((hextra t).mp ht').2 ht
    rw [hsame, toFinset_card_of_nodup (hmap.append hfnodup hdisj), length_append]
  have htake : ∀ t ∈ extra.take (replicas.toNat - storeMap.length), t ∈ extra := fun t ht => mem_of_mem_take ht
  refine ⟨?_, fun t ht => mem_append_left _ ht, ?_, ?_, ?_, ?_⟩
  · exact hmap.append (hfnodup.sublist (take_sublist _ _)) fun t ht ht' => ((hextra t).mp (htake t ht')).2 ht
  · intro t ht
    rcases mem_append.mp ht with ht | ht
    · exact .inl ht
    refine .inr ⟨List.mem_toFinset.mpr ((hextra t).mp (htake t ht)).1, ?_⟩
    have hpos := length_pos_of_mem ht
    rw [length_take] at hpos
    omega
  · rw [length_append, length_take]
    omega
  · intro hlt t ht
    rw [hunion] at hlt
    rw [take_of_length_le (by omega), mem_append]
    by_cases hin : t ∈ storeMap
    · exact .inl hin
    · exact .inr ((hextra t).mpr ⟨List.mem_toFinset.mp ht, hin⟩)
  intro hle
  rw [hunion] at hle
  rw [length_append, length_take]
  omega

lemma getStore_of_peer (hx : nc.getRegion id = some x) : ∀ t ∈ x.storeIds, (nc.getStore t).isSome := by
  intro t ht
  obtain ⟨-, hcheck⟩ := filter_eq_some_iff.mp hx
  obtain ⟨p, hp, rfl⟩ := List.mem_map.mp ht
  exact List.all_eq_true.mp (Bool.and_eq_true_iff.mp hcheck).2 p hp

lemma moveRegionOf_met (storeMap : List Nat) (h : ∀ x, nc.getRegion id = some x → unmet storeIDs x = false) :
  moveRegionOf nc d storeIDs id storeMap = some (storeMap, []) ∧ offered nc storeIDs id = ∅ := by
  unfold moveRegionOf offered
  cases hx : nc.getRegion id with
  | none => exact ⟨rfl, rfl⟩
  | some x =>
    have hmet := h x hx
    have hall : (storeIDs.all fun id => x.storeIds.contains id) = true := by simpa [unmet] using hmet
    simp only [hall, hmet, if_true]
    exact ⟨trivial, rfl⟩

lemma moveRegionOf_unmet (hd : d.Valid) (hx : nc.getRegion id = some x)
  (hunmet : unmet storeIDs x = true) (hmap : storeMap.Nodup) :
  ∃ new, fillStores nc nc.getMaxReplicas (d.peers id x.storeIds.dedup) storeMap = some new ∧
    Filled nc.getMaxReplicas storeMap new (offered nc storeIDs id) ∧
    moveRegionOf nc d storeIDs id storeMap = if (new.length : Int) < nc.getMaxReplicas then some (new, []) else
        match createMoveRegionOperator "move-region-user" (nc.toCluster (d.allocID id)) x .opAdmin
            (d.adds id new) (d.targets id new) with
        | .error _ => some (new, [])
        | .ok op => some (new, [op]) := by
  have hperm := hd.peers id x.storeIds.dedup
  have hnodup : (d.peers id x.storeIds.dedup).Nodup := hperm.nodup_iff.mpr (nodup_dedup _)
  have hmem : ∀ t, t ∈ d.peers id x.storeIds.dedup ↔ t ∈ x.storeIds := fun t => hperm.mem_iff.trans mem_dedup
  have hfill := fillStores_eq nc.getMaxReplicas
    (fun t ht => getStore_of_peer hx t ((hmem t).mp ht)) hnodup storeMap
  have hfilled := filled_append nc nc.getMaxReplicas hnodup hmap
  have hoffer : offered nc storeIDs id = ((d.peers id x.storeIds.dedup).filter (usable nc)).toFinset := by
    unfold offered
    rw [hx]
    simp only [hunmet, if_true]
    ext t
    rw [List.mem_toFinset, List.mem_toFinset, mem_filter, mem_filter, hmem]
  refine ⟨_, hfill, hoffer ▸ hfilled, ?_⟩
  have hall : (storeIDs.all fun id => x.storeIds.contains id) = false := by simpa [unmet] using hunmet
  unfold moveRegionOf
  simp only [hx, hall, hfill]
  rfl

lemma filled_refl (hmap : storeMap.Nodup) : Filled replicas storeMap storeMap ∅ where
  nodup := hmap
  grows := fun _ ht => ht
  within := fun _ ht => .inl ht
  few := le_max_right _ _
  all := fun _ t ht => absurd ht (Finset.notMem_empty t)
  full := fun h => by rwa [Finset.union_empty, toFinset_card_of_nodup hmap] at h

lemma moveRegionOf_spec (hd : d.Valid) (storeIDs : List Nat) (id : Nat) (hmap : storeMap.Nodup) :
  ∃ new ops, moveRegionOf nc d storeIDs id storeMap = some (new, ops) ∧
    Filled nc.getMaxReplicas storeMap new (offered nc storeIDs id) ∧
    (ops = [] ∨ ∃ x op, ops = [op] ∧ nc.getRegion id = some x ∧ unmet storeIDs x = true ∧
      nc.getMaxReplicas ≤ new.length) := by
  by_cases hmet : ∀ x, nc.getRegion id = some x → unmet storeIDs x = false
  · obtain ⟨hmove, hoffer⟩ := moveRegionOf_met (d := d) storeMap hmet
    exact ⟨storeMap, [], hmove, hoffer ▸ filled_refl hmap, .inl rfl⟩
  obtain ⟨x, hx, hunmet⟩ : ∃ x, nc.getRegion id = some x ∧ unmet storeIDs x = true := by
    by_contra hno
    refine hmet fun x hx => ?_
    by_contra hne
    exact hno ⟨x, hx, Bool.eq_true_of_not_eq_false hne⟩
  obtain ⟨new, -, hfilled, hmove⟩ := moveRegionOf_unmet hd hx hunmet hmap
  rw [hmove]
  split
  · exact ⟨new, [], rfl, hfilled, .inl rfl⟩
  next hfull =>
    split
    · exact ⟨new, [], rfl, hfilled, .inl rfl⟩
    · exact ⟨new, _, rfl, hfilled, .inr ⟨x, _, rfl, hx, hunmet, not_lt.mp hfull⟩⟩

lemma mem_offered : t ∈ offered nc storeIDs id ↔
  ∃ x, nc.getRegion id = some x ∧ unmet storeIDs x = true ∧ t ∈ x.storeIds ∧ usable nc t = true := by
  unfold offered
  cases nc.getRegion id with
  | none => simp
  | some x => by_cases h : unmet storeIDs x = true <;> simp [h]

lemma collected_append (ids : List Nat) (id : Nat) :
  collected nc storeIDs (ids ++ [id]) = collected nc storeIDs ids ∪ offered nc storeIDs id := by
  ext t
  simp only [collected, Finset.mem_union, Finset.mem_biUnion, List.mem_toFinset, mem_append, mem_singleton]
  constructor
  · rintro (h | ⟨a, ha | rfl, h⟩)
    · exact .inl (.inl h)
    · exact .inl (.inr ⟨a, ha, h⟩)
    · exact .inr h
  rintro ((h | ⟨a, ha, h⟩) | h)
  · exact .inl h
  · exact .inr ⟨a, .inl ha, h⟩
  · exact .inr ⟨id, .inr rfl, h⟩

lemma collected_mono {ids' : List Nat} (h : ∀ id ∈ ids, id ∈ ids') :
  collected nc storeIDs ids ⊆ collected nc storeIDs ids' := by
  refine Finset.union_subset_union_right (Finset.biUnion_subset_biUnion_of_subset_left _ fun id hid => ?_)
  exact List.mem_toFinset.mpr (h id (List.mem_toFinset.mp hid))

end

structure Collected (nc : NamespaceCluster) (storeIDs done storeMap : List Nat) : Prop where
  nodup : storeMap.Nodup
  rules : ∀ t ∈ storeIDs, t ∈ storeMap
  few : (storeMap.length : Int) ≤ max nc.getMaxReplicas storeIDs.dedup.length
  all : ((collected nc storeIDs done).card : Int) < nc.getMaxReplicas → storeMap.toFinset = collected nc storeIDs done
  full : nc.getMaxReplicas ≤ ((collected nc storeIDs done).card : Int) → nc.getMaxReplicas ≤ storeMap.length
  source : ∀ t ∈ storeMap, t ∈ storeIDs ∨ ∃ before j behind y, done = before ++ j :: behind ∧
    nc.getRegion j = some y ∧ unmet storeIDs y = true ∧
    ((collected nc storeIDs before).card : Int) < nc.getMaxReplicas ∧ t ∈ y.storeIds ∧ usable nc t = true

section
variable {nc : NamespaceCluster} {d : Draws} {storeIDs done storeMap : List Nat}

lemma collected_start (nc : NamespaceCluster) (storeIDs : List Nat) : Collected nc storeIDs [] storeIDs.dedup where
  nodup := nodup_dedup _
  rules := fun t ht => mem_dedup.mpr ht
  few := le_max_right _ _
  all := fun _ => by
    ext t
    simp [collected]
  full := fun h => by
    have hcard : (collected nc storeIDs []).card = storeIDs.dedup.length := by
      rw [collected, toFinset_nil, Finset.biUnion_empty, Finset.union_empty, List.card_toFinset]
    rwa [hcard] at h
  source := fun t ht => .inl (mem_dedup.mp ht)

lemma Collected.step (h : Collected nc storeIDs done storeMap) {id : Nat} {new : List Nat}
  (hf : Filled nc.getMaxReplicas storeMap new (offered nc storeIDs id)) :
  Collected nc storeIDs (done ++ [id]) new where
  nodup := hf.nodup
  rules := fun t ht => hf.grows t (h.rules t ht)
  few := le_trans hf.few (max_le (le_max_left _ _) h.few)
  all := by
    intro hlt
    rw [collected_append] at hlt ⊢
    have hold : ((collected nc storeIDs done).card : Int) < nc.getMaxReplicas := by
      refine lt_of_le_of_lt (Int.ofNat_le.mpr (Finset.card_le_card Finset.subset_union_left)) hlt
    rw [← h.all hold] at hlt ⊢
    ext t
    rw [List.mem_toFinset, Finset.mem_union, List.mem_toFinset]
    constructor
    · intro ht
      exact (hf.within t ht).imp_right And.left
    rintro (ht | ht)
    · exact hf.grows t ht
    · exact hf.all hlt t ht
  full := by
    intro hle
    by_cases hold : ((collected nc storeIDs done).card : Int) < nc.getMaxReplicas
    · rw [collected_append, ← h.all hold] at hle
      exact hf.full hle
    have hsub : storeMap.length ≤ new.length := (subperm_of_subset h.nodup hf.grows).length_le
    have hfull := h.full (not_lt.mp hold)
    omega
  source := by
    intro t ht
    rcases hf.within t ht with ht | ⟨ht, hroom⟩
    · rcases h.source t ht with ht | ⟨before, j, behind, y, hdone, hrest⟩
      · exact .inl ht
      · exact .inr ⟨before, j, behind ++ [id], y, by rw [hdone, append_assoc, cons_append], hrest⟩
    obtain ⟨y, hy, hunmet, hty, husable⟩ := mem_offered.mp ht
    refine .inr ⟨done, id, [], y, rfl, hy, hunmet, ?_, hty, husable⟩
    by_contra hfull
    exact absurd (h.full (not_lt.mp hfull)) (not_le.mpr hroom)

lemma Collected.length_eq (h : Collected nc storeIDs done storeMap)
  (hlt : ((collected nc storeIDs done).card : Int) < nc.getMaxReplicas) :
  storeMap.length = (collected nc storeIDs done).card := by
  rw [← h.all hlt, toFinset_card_of_nodup h.nodup]

lemma handed_spec (hd : d.Valid) {rest : List Nat} (h : Collected nc storeIDs done storeMap) {x : RegionInfo}
  {targets : List Nat} {op : Operator} (hh : handed nc d storeIDs rest storeMap = some (x, targets, op)) :
  ∃ before k behind, rest = before ++ k :: behind ∧ nc.getRegion k = some x ∧ unmet storeIDs x = true ∧
    nc.getMaxReplicas ≤ targets.length ∧ Collected nc storeIDs (done ++ (before ++ [k])) targets := by
  induction rest generalizing done storeMap with
  | nil => cases hh
  | cons id rest ih =>
    obtain ⟨new, ops, hmove, hfilled, hops⟩ := moveRegionOf_spec hd storeIDs id h.nodup
    have hnew := h.step hfilled
    rw [handed, hmove] at hh
    rcases hops with rfl | ⟨y, op', rfl, hy, hunmet, hfull⟩
    · obtain ⟨before, k, behind, rfl, hk, hunmet, hfull, hcoll⟩ := ih hnew hh
      refine ⟨id :: before, k, behind, rfl, hk, hunmet, hfull, ?_⟩
      rwa [append_assoc, singleton_append] at hcoll
    simp only [hy, map_some, Option.some.injEq, Prod.mk.injEq] at hh
    obtain ⟨rfl, rfl, rfl⟩ := hh
    exact ⟨[], id, rest, rfl, hy, hunmet, hfull, hnew⟩

end

section
variable {c : Cluster} {region : RegionInfo}

lemma addStores_ok (region : RegionInfo) (h : ∀ n, ∃ peerID, c.allocID n = .ok peerID) (n : Nat) (ids : List Nat) :
  ∃ steps, addStores c region n ids = .ok steps := by
  induction ids generalizing n with
  | nil => exact ⟨[], rfl⟩
  | cons _ _ ih =>
    rw [addStores]
    split
    · exact ih n
    obtain ⟨peerID, hid⟩ := h n
    obtain ⟨steps, hsteps⟩ := ih (n+1)
    rw [Cluster.allocPeer, hid, hsteps]
    exact ⟨_, rfl⟩

lemma addStores_error (h : ∀ n, ∃ e, c.allocID n = .error e) (n : Nat) {ids : List Nat} {t : Nat} (ht : t ∈ ids)
  (hnone : t ∉ region.storeIds) : ∃ e, addStores c region n ids = .error e := by
  induction ids with
  | nil => cases ht
  | cons _ _ ih =>
    rw [addStores]
    split
    next hpeer =>
      rcases mem_cons.mp ht with rfl | ht
      · rw [RegionInfo.getStorePeer_eq_none.mpr hnone] at hpeer
        cases hpeer
      · exact ih ht
    obtain ⟨e, he⟩ := h n
    rw [Cluster.allocPeer, he]
    exact ⟨_, rfl⟩

end

def onlyFor (k t : Nat) (now : Int) : Draws where
  now := now
  rules := fun _ l => l
  peers := fun _ l => if t ∈ l then t :: l.erase t else l
  adds := fun _ l => l
  targets := fun _ l => l
  allocID := fun id _ => if id = k then .ok 1 else .error "alloc id failed"

lemma onlyFor_valid (k t : Nat) (now : Int) : (onlyFor k t now).Valid where
  rules := fun _ _ => .refl _
  peers := fun _ l => by
    show (if t ∈ l then t :: l.erase t else l).Perm l
    split
    next ht => exact (perm_cons_erase ht).symm
    · exact .refl _
  adds := fun _ _ => .refl _
  targets := fun _ _ => .refl _

section
variable {nc : NamespaceCluster} {storeIDs done storeMap : List Nat} {k t : Nat} {now : Int}
variable {x y : RegionInfo} {j : Nat}

lemma moveRegionOf_other (t : Nat) (now : Int) {id : Nat} (hid : id ≠ k) (h : Collected nc storeIDs done storeMap) :
  ∃ new, moveRegionOf nc (onlyFor k t now) storeIDs id storeMap = some (new, []) ∧
    Filled nc.getMaxReplicas storeMap new (offered nc storeIDs id) := by
  obtain ⟨new, ops, hmove, hfilled, hops⟩ := moveRegionOf_spec (onlyFor_valid k t now) storeIDs id h.nodup
  rcases hops with rfl | ⟨x, op, rfl, hx, hunmet, hfull⟩
  · exact ⟨new, hmove, hfilled⟩
  obtain ⟨new', -, hfilled', hmove'⟩ := moveRegionOf_unmet (onlyFor_valid k t now) hx hunmet h.nodup
  obtain ⟨u, hu, hlacks⟩ : ∃ u ∈ storeIDs, u ∉ x.storeIds := by simpa [unmet] using hunmet
  have hu' : u ∈ (onlyFor k t now).adds id new' := hfilled'.grows u (h.rules u hu)
  have halloc : ∀ n, ∃ e, (nc.toCluster ((onlyFor k t now).allocID id)).allocID n = .error e := by
    intro n
    refine ⟨"alloc id failed", ?_⟩
    show (if id = k then Except.ok 1 else Except.error _) = _
    rw [if_neg hid]
  obtain ⟨e, he⟩ := addStores_error halloc 0 hu' hlacks
  refine ⟨new', ?_, hfilled'⟩
  rw [hmove', createMoveRegionOperator, he]
  split <;> rfl

lemma moveRegionOf_this (t : Nat) (now : Int) (hx : nc.getRegion k = some x)
  (hunmet : unmet storeIDs x = true) (h : Collected nc storeIDs done storeMap) :
  ∃ new ops, moveRegionOf nc (onlyFor k t now) storeIDs k storeMap = some (new, ops) ∧
    Filled nc.getMaxReplicas storeMap new (offered nc storeIDs k) ∧
    (ops = [] ∧ (new.length : Int) < nc.getMaxReplicas ∨ ∃ op, ops = [op]) := by
  obtain ⟨new, -, hfilled, hmove⟩ := moveRegionOf_unmet (onlyFor_valid k t now) hx hunmet h.nodup
  have halloc : ∀ n, ∃ peerID, (nc.toCluster ((onlyFor k t now).allocID k)).allocID n = .ok peerID := by
    intro n
    refine ⟨1, ?_⟩
    show (if k = k then Except.ok 1 else Except.error _) = _
    rw [if_pos rfl]
  obtain ⟨steps, hsteps⟩ := addStores_ok x halloc 0 ((onlyFor k t now).adds k new)
  rw [hmove, createMoveRegionOperator, hsteps]
  split
  next hfew => exact ⟨new, [], rfl, hfilled, .inl ⟨rfl, hfew⟩⟩
  · exact ⟨new, _, rfl, hfilled, .inr ⟨_, rfl⟩⟩

lemma handed_skip {d : Draws} (hd : d.Valid) (before rest : List Nat) (h : Collected nc storeIDs done storeMap)
  (hlt : ((collected nc storeIDs (done ++ before)).card : Int) < nc.getMaxReplicas) :
  ∃ new, handed nc d storeIDs (before ++ rest) storeMap = handed nc d storeIDs rest new ∧
    Collected nc storeIDs (done ++ before) new := by
  induction before generalizing done storeMap with
  | nil => exact ⟨storeMap, rfl, by rwa [append_nil]⟩
  | cons id before ih =>
    obtain ⟨new, ops, hmove, hfilled, hops⟩ := moveRegionOf_spec hd storeIDs id h.nodup
    have hnew := h.step hfilled
    rw [append_cons] at hlt
    have hfew : ((collected nc storeIDs (done ++ [id])).card : Int) < nc.getMaxReplicas :=
      lt_of_le_of_lt (Int.ofNat_le.mpr (Finset.card_le_card
        (collected_mono fun a ha => mem_append_left before ha))) hlt
    have hnone : ops = [] := by
      refine hops.resolve_right ?_
      rintro ⟨x, op, -, -, -, hfull⟩
      rw [hnew.length_eq hfew] at hfull
      omega
    obtain ⟨new', hrest, hcoll⟩ := ih hnew hlt
    refine ⟨new', ?_, by rwa [append_cons]⟩
    rw [cons_append, handed, hmove, hnone]
    exact hrest

lemma handed_reaches (t : Nat) (now : Int) (hx : nc.getRegion k = some x) (hunmet : unmet storeIDs x = true)
  {between : List Nat} (behind : List Nat) {u : Nat} (h : Collected nc storeIDs done storeMap) (hu : u ∈ storeMap)
  (hle : nc.getMaxReplicas ≤ ((collected nc storeIDs (done ++ (between ++ [k]))).card : Int)) :
  ∃ targets op, handed nc (onlyFor k t now) storeIDs (between ++ k :: behind) storeMap = some (x, targets, op) ∧
    u ∈ targets := by
  induction between generalizing done storeMap with
  | nil =>
    obtain ⟨new, ops, hmove, hfilled, hops⟩ := moveRegionOf_this t now hx hunmet h
    have hfull := (h.step hfilled).full hle
    obtain ⟨op, rfl⟩ := hops.resolve_left fun hfew => by omega
    refine ⟨new, op, ?_, hfilled.grows u hu⟩
    rw [nil_append, handed, hmove, hx]
    rfl
  | cons id _ ih =>
    rw [cons_append, append_cons] at hle
    by_cases hid : id = k
    · -- the region comes up before
      subst hid
      obtain ⟨new, ops, hmove, hfilled, hops⟩ := moveRegionOf_this t now hx hunmet h
      rcases hops with ⟨rfl, -⟩ | ⟨op, rfl⟩
      · obtain ⟨targets, op, hh, hin⟩ := ih (h.step hfilled) (hfilled.grows u hu) hle
        refine ⟨targets, op, ?_, hin⟩
        rw [cons_append, handed, hmove]
        exact hh
      refine ⟨new, op, ?_, hfilled.grows u hu⟩
      rw [cons_append, handed, hmove, hx]
      rfl
    obtain ⟨new, hmove, hfilled⟩ := moveRegionOf_other t now hid h
    obtain ⟨targets, op, hh, hin⟩ := ih (h.step hfilled) (hfilled.grows u hu) hle
    refine ⟨targets, op, ?_, hin⟩
    rw [cons_append, handed, hmove]
    exact hh

lemma mem_fillStores_first (hy : nc.getRegion j = some y) (hty : t ∈ y.storeIds)
  (husable : usable nc t = true) (hroom : (storeMap.length : Int) < nc.getMaxReplicas) {new : List Nat}
  (hfill : fillStores nc nc.getMaxReplicas ((onlyFor k t now).peers j y.storeIds.dedup) storeMap = some new) :
  t ∈ new := by
  have hperm := (onlyFor_valid k t now).peers j y.storeIds.dedup
  have hpresent : ∀ u ∈ (onlyFor k t now).peers j y.storeIds.dedup, (nc.getStore u).isSome := fun u hu =>
    getStore_of_peer hy u (mem_dedup.mp (hperm.mem_iff.mp hu))
  rw [fillStores_eq nc.getMaxReplicas hpresent (hperm.nodup_iff.mpr (nodup_dedup _)), Option.some.injEq] at hfill
  have hfirst : (onlyFor k t now).peers j y.storeIds.dedup = t :: y.storeIds.dedup.erase t :=
    if_pos (mem_dedup.mpr hty)
  rw [← hfill, hfirst, mem_append]
  by_cases hin : t ∈ storeMap
  · exact .inl hin
  obtain ⟨n, hn⟩ : ∃ n, nc.getMaxReplicas.toNat - storeMap.length = n + 1 :=
    ⟨nc.getMaxReplicas.toNat - storeMap.length - 1, by omega⟩
  rw [filter_cons_of_pos (by simp [husable, hin]), hn, take_succ_cons]
  exact .inr mem_cons_self

lemma handed_leaves (now : Int) (hj : j ≠ k) (hy : nc.getRegion j = some y) (hunmet : unmet storeIDs y = true)
  (hty : t ∈ y.storeIds) (husable : usable nc t = true) (h : Collected nc storeIDs done storeMap)
  (hlt : ((collected nc storeIDs done).card : Int) < nc.getMaxReplicas) (rest : List Nat) :
  ∃ new, handed nc (onlyFor k t now) storeIDs (j :: rest) storeMap = handed nc (onlyFor k t now) storeIDs rest new ∧
    Collected nc storeIDs (done ++ [j]) new ∧ t ∈ new := by
  obtain ⟨new, hmove, hfilled⟩ := moveRegionOf_other t now hj h
  obtain ⟨new', hfill, -, hmove'⟩ := moveRegionOf_unmet (onlyFor_valid k t now) hy hunmet h.nodup
  have hsame : new = new' := by
    rw [hmove] at hmove'
    split at hmove'
    · exact (Prod.mk.inj (some.inj hmove')).1
    split at hmove'
    · exact (Prod.mk.inj (some.inj hmove')).1
    · cases hmove'
  have hroom : (storeMap.length : Int) < nc.getMaxReplicas := by rw [h.length_eq hlt]; exact hlt
  refine ⟨new, ?_, h.step hfilled, hsame ▸ mem_fillStores_first hy hty husable hroom hfill⟩
  rw [handed, hmove]

end

def Makes (s : UserScheduler) (nc : NamespaceCluster) (m : PluginsMap) (d : Draws) (x : RegionInfo)
  (targets : List Nat) (op : Operator) : Prop :=
  ∃ s' ids storeIDs, s.schedule nc m d = some (s', [op]) ∧
    getRegionIDs nc.regions s.keyStart s.keyEnd = some ids ∧ filterStores nc s.storeIDs = some storeIDs ∧
    handed nc d storeIDs ids storeIDs.dedup = some (x, targets, op)

def RightTargets (s : UserScheduler) (nc : NamespaceCluster) : Prop :=
  ∀ (m : PluginsMap) (d : Draws), d.Valid → ∀ x targets op, s.Makes nc m d x targets op →
    (∀ t ∈ s.storeIDs, usable nc t = true → t ∈ targets) ∧
    (∀ t ∈ targets, t ∈ s.storeIDs ∧ usable nc t = true ∨ t ∈ x.storeIds) ∧
    targets.Nodup ∧ (targets.length : Int) = max nc.getMaxReplicas (s.storeIDs.filter (usable nc)).dedup.length

def Undisturbed (nc : NamespaceCluster) (storeIDs ids : List Nat) : Prop :=
  ∀ before j between k behind y x, ids = before ++ j :: (between ++ k :: behind) →
    nc.getRegion j = some y → unmet storeIDs y = true → nc.getRegion k = some x → unmet storeIDs x = true →
    ((collected nc storeIDs before).card : Int) < nc.getMaxReplicas →
    nc.getMaxReplicas ≤ ((collected nc storeIDs (before ++ j :: (between ++ [k]))).card : Int) →
    ∀ t ∈ y.storeIds, usable nc t = true → t ∈ storeIDs ∨ t ∈ x.storeIds

section
variable {s : UserScheduler} {nc : NamespaceCluster} {i : Nat}
variable {ids storeIDs targets before behind : List Nat} {d : Draws} {x : RegionInfo} {op : Operator} {m : PluginsMap}
variable {k t : Nat}

lemma schedule_eq (hname : s.name = .region i) (m : PluginsMap) (d : Draws) (hactive : s.active d.now = true)
  (hids : getRegionIDs nc.regions s.keyStart s.keyEnd = some ids) (hne : s.storeIDs ≠ []) :
  s.schedule nc m d = ({ s with regionIDs := ids } : UserScheduler).scheduleRegions nc d := by
  exact schedule_region nc hactive hids hne hname

lemma moveRegions_of_handed {storeMap : List Nat} (hd : d.Valid) (hmap : storeMap.Nodup)
  (h : handed nc d storeIDs ids storeMap = some (x, targets, op)) :
  moveRegions nc d storeIDs ids storeMap = some [op] := by
  induction ids generalizing storeMap with
  | nil => cases h
  | cons id _ ih =>
    obtain ⟨new, ops, hmove, hfilled, hops⟩ := moveRegionOf_spec hd storeIDs id hmap
    rw [handed, hmove] at h
    rw [moveRegions, hmove]
    rcases hops with rfl | ⟨y, op', rfl, hy, -, -⟩
    · exact ih hfilled.nodup h
    simp only [hy, map_some, Option.some.injEq, Prod.mk.injEq] at h
    rw [h.2.2]

lemma makes_of_handed (hname : s.name = .region i) (m : PluginsMap) (hd : d.Valid) (hactive : s.active d.now = true)
  (hids : getRegionIDs nc.regions s.keyStart s.keyEnd = some ids) (hpresent : ∀ t ∈ s.storeIDs, (nc.getStore t).isSome)
  (hne : s.storeIDs.filter (usable nc) ≠ [])
  (h : handed nc d (s.storeIDs.filter (usable nc)) ids (s.storeIDs.filter (usable nc)).dedup =
    some (x, targets, op)) : s.Makes nc m d x targets op := by
  have hfilter := filterStores_eq hpresent
  have hne' : s.storeIDs ≠ [] := fun e => hne (by rw [e]; rfl)
  refine ⟨{ s with regionIDs := ids }, ids, _, ?_, hids, hfilter, h⟩
  rw [schedule_eq hname m d hactive hids hne']
  have hmoves := moveRegions_of_handed hd (nodup_dedup _) h
  unfold scheduleRegions
  simp only [hfilter]
  generalize s.storeIDs.filter (usable nc) = storeIDs at hne hmoves
  cases storeIDs with
  | nil => exact absurd rfl hne
  | cons =>
    rw [hmoves]
    rfl

lemma active_of_makes
  (h : s.Makes nc m d x targets op) : s.active d.now = true ∧ ∀ t ∈ s.storeIDs, (nc.getStore t).isSome := by
  obtain ⟨s', ids, storeIDs, hsch, -, hfilter, -⟩ := h
  refine ⟨Bool.eq_true_of_not_eq_false fun hoff => ?_, fun t ht => isSome_iff_ne_none.mpr fun hnone => ?_⟩
  · unfold schedule at hsch
    rw [if_pos hoff] at hsch
    cases hsch
  rw [filterStores_panics ht hnone] at hfilter
  cases hfilter

lemma exists_leftover {now : Int} {between : List Nat} {j : Nat} {y : RegionInfo}
  (hname : s.name = .region i) (hactive : s.active now = true)
  (hids : getRegionIDs nc.regions s.keyStart s.keyEnd = some (before ++ j :: (between ++ k :: behind)))
  (hpresent : ∀ t ∈ s.storeIDs, (nc.getStore t).isSome) (hy : nc.getRegion j = some y)
  (hyunmet : unmet (s.storeIDs.filter (usable nc)) y = true) (hx : nc.getRegion k = some x)
  (hxunmet : unmet (s.storeIDs.filter (usable nc)) x = true)
  (hlt : ((collected nc (s.storeIDs.filter (usable nc)) before).card : Int) < nc.getMaxReplicas)
  (hle : nc.getMaxReplicas ≤
    ((collected nc (s.storeIDs.filter (usable nc)) (before ++ j :: (between ++ [k]))).card : Int))
  (hty : t ∈ y.storeIds) (husable : usable nc t = true) (htx : t ∉ x.storeIds) :
  ∃ targets op, s.Makes nc .empty (onlyFor k t now) x targets op ∧ t ∈ targets := by
  have hjk : j ≠ k := by
    rintro rfl
    rw [hx, Option.some.injEq] at hy
    exact htx (hy ▸ hty)
  have hne : s.storeIDs.filter (usable nc) ≠ [] := by
    intro e
    rw [e] at hxunmet
    cases hxunmet
  have hd := onlyFor_valid k t now
  obtain ⟨map1, hrun1, hcoll1⟩ := handed_skip hd before (j :: (between ++ k :: behind))
    (collected_start nc (s.storeIDs.filter (usable nc))) hlt
  rw [nil_append] at hcoll1
  obtain ⟨map2, hrun2, hcoll2, hin⟩ := handed_leaves now hjk hy hyunmet hty husable hcoll1 hlt (between ++ k :: behind)
  rw [append_cons] at hle
  obtain ⟨targets, op, hrun3, htargets⟩ := handed_reaches t now hx hxunmet behind hcoll2 hin hle
  exact ⟨targets, op,
    makes_of_handed hname .empty hd hactive hids hpresent hne (hrun1.trans (hrun2.trans hrun3)), htargets⟩

lemma Undisturbed.source (h : Undisturbed nc storeIDs (before ++ k :: behind)) (hk : nc.getRegion k = some x)
  (hunmet : unmet storeIDs x = true) (hfull : nc.getMaxReplicas ≤ targets.length)
  (hcoll : Collected nc storeIDs (before ++ [k]) targets) (ht : t ∈ targets) : t ∈ storeIDs ∨ t ∈ x.storeIds := by
  rcases hcoll.source t ht with ht | ⟨b, j, c, y, hdone, hy, hyunmet, hlt, hty, husable⟩
  · exact .inl ht
  rcases eq_nil_or_concat c with rfl | ⟨c, last, rfl⟩
  · obtain ⟨-, hjk⟩ := append_inj' hdone rfl
    injection hjk with hjk
    subst hjk
    rw [hk, Option.some.injEq] at hy
    exact .inr (hy ▸ hty)
  rw [concat_eq_append, ← cons_append, ← append_assoc] at hdone
  obtain ⟨hbefore, hlast⟩ := append_inj' hdone rfl
  injection hlast with hlast
  subst hlast
  have hle : nc.getMaxReplicas ≤ ((collected nc storeIDs (b ++ j :: (c ++ [k]))).card : Int) := by
    by_contra hfew
    rw [← cons_append, ← append_assoc, ← hbefore] at hfew
    have hlen := hcoll.length_eq (not_le.mp hfew)
    omega
  have hsplit : before ++ k :: behind = b ++ j :: (c ++ k :: behind) := by rw [hbefore, append_assoc, cons_append]
  exact h b j c k behind y x hsplit hy hyunmet hk hunmet hlt hle t hty husable

end

/-- **Target stores.**  The operators of a region rule use the right stores exactly if no region that is passed over
leaves a store in the map that a later region of the rule takes. -/
theorem rightTargets_iff (s : UserScheduler) (i : Nat) (hname : s.name = .region i) (nc : NamespaceCluster) :
  s.RightTargets nc ↔ ∀ now ids, s.active now = true → getRegionIDs nc.regions s.keyStart s.keyEnd = some ids →
    (∀ t ∈ s.storeIDs, (nc.getStore t).isSome) → Undisturbed nc (s.storeIDs.filter (usable nc)) ids := by
  constructor
  · intro hright now ids hactive hids hpresent before j between k behind y x hsplit hy hyunmet hx hxunmet hlt hle t hty
      husable
    by_contra hnot
    obtain ⟨htrule, htx⟩ := not_or.mp hnot
    rw [hsplit] at hids
    obtain ⟨targets, op, hmakes, ht⟩ := exists_leftover hname hactive hids hpresent hy hyunmet hx hxunmet hlt hle hty
      husable htx
    rcases (hright _ _ (onlyFor_valid k t now) _ _ _ hmakes).2.1 t ht with ht | ht
    · exact htrule (mem_filter.mpr ht)
    · exact htx ht
  intro hcond m d hd x targets op hmakes
  obtain ⟨hactive, hpresent⟩ := active_of_makes hmakes
  obtain ⟨s', ids, storeIDs, -, hids, hfilter, hhanded⟩ := hmakes
  have hund := hcond d.now ids hactive hids hpresent
  rw [filterStores_eq hpresent, Option.some.injEq] at hfilter
  subst hfilter
  obtain ⟨before, k, behind, rfl, hk, hunmet, hfull, hcoll⟩ := handed_spec hd (collected_start nc _) hhanded
  rw [nil_append] at hcoll
  refine ⟨fun t ht husable => hcoll.rules t (mem_filter.mpr ⟨ht, husable⟩), fun t ht => ?_, hcoll.nodup, ?_⟩
  · rcases hund.source hk hunmet hfull hcoll ht with ht | ht
    · exact .inl (mem_filter.mp ht)
    · exact .inr ht
  have hrules : (s.storeIDs.filter (usable nc)).dedup.length ≤ targets.length :=
    (subperm_of_subset (nodup_dedup _) fun t ht => hcoll.rules t (mem_dedup.mp ht)).length_le
  have hfew := hcoll.few
  omega

def toStore5 : UserScheduler := ⟨.region 0, [], [5], "6d", "", 0, some ⟨0, 100⟩⟩

def regionFromT : RegionInfo :=
  newRegionInfo ⟨3, [116], [], some ⟨1, 1⟩, [⟨31, 2, false⟩, ⟨32, 3, false⟩]⟩ (some ⟨31, 2, false⟩)

def upIn (r : RegionsInfo) (present : List Nat) : NamespaceCluster :=
  newNamespaceCluster (clusterIn r .up present) globalOnly "global"

lemma makes_of_eval (loaded : Option RegionsInfo) (present ids targets : List Nat) (t : Nat) (op : Operator)
  (hsch : loaded.map (fun r => toStore5.schedule (upIn r present) .empty (onlyFor 3 t 50)) =
    some (some (toStore5.inState ids 0, [op])))
  (hhanded : loaded.map (fun r => handed (upIn r present) (onlyFor 3 t 50) [5] ids [5]) =
    some (some (regionFromT, targets, op)))
  (hlists : loaded.map (fun r => (getRegionIDs r "6d" "", filterStores (upIn r present) [5])) =
    some (some ids, some [5])) :
  ∃ r, loaded = some r ∧ getRegionIDs r "6d" "" = some ids ∧
    toStore5.Makes (upIn r present) .empty (onlyFor 3 t 50) regionFromT targets op := by
  obtain ⟨r, rfl, he⟩ := map_eq_some_iff.mp hlists
  obtain ⟨hids, hfilter⟩ := Prod.mk.inj he
  rw [map_some, Option.some.injEq] at hsch hhanded
  exact ⟨r, rfl, hids, _, _, _, hsch, hids, hfilter, hhanded⟩

def onlyFromT : Option RegionsInfo := (RegionsInfo.new.setRegion regionFromT).map Prod.fst
def toRuleStore : Operator := newOperator "move-region-user" 3 (some ⟨1, 1⟩) (.opAdmin ||| .opRegion) [.addPeer 5 1]

theorem rightTargets_iff_added : ∃ r, onlyFromT = some r ∧
  toStore5.Makes (upIn r [2, 3, 5]) .empty (onlyFor 3 2 50) regionFromT [5, 2, 3] toRuleStore ∧
  toStore5.RightTargets (upIn r [2, 3, 5]) := by
  obtain ⟨r, hr, hthree, hmakes⟩ := makes_of_eval onlyFromT [2, 3, 5] [3] [5, 2, 3] 2
    toRuleStore (by decide +kernel) (by decide +kernel) (by decide +kernel)
  refine ⟨r, hr, hmakes, (rightTargets_iff toStore5 0 rfl _).mpr ?_⟩
  intro now ids _ hids _ before j between k behind y x hsplit
  -- region 3 is the only region of the rule
  change getRegionIDs r "6d" "" = some ids at hids
  rw [hthree, Option.some.injEq, hsplit] at hids
  have hlength := congrArg length hids
  simp only [length_append, length_cons, length_nil] at hlength
  omega

def behindSingle : Option RegionsInfo := (RegionsInfo.new.setRegion
    (newRegionInfo ⟨2, [109], [116], some ⟨1, 1⟩, [⟨21, 1, false⟩]⟩ (some ⟨21, 1, false⟩))).bind fun r =>
    (r.1.setRegion regionFromT).map Prod.fst

def toLeftover : Operator :=
  newOperator "move-region-user" 3 (some ⟨1, 1⟩) (.opAdmin ||| .opRegion) [.addPeer 5 1, .addPeer 1 1, .removePeer 3]

/-- Region 2 leaves its store 1 in the map, and region 3 is then sent there. -/
theorem leftover_store_is_target : ∃ r, behindSingle = some r ∧ (onlyFor 3 1 50).Valid ∧
  toStore5.Makes (upIn r [1, 2, 3, 5]) .empty (onlyFor 3 1 50) regionFromT [5, 1, 2] toLeftover ∧
  1 ∉ toStore5.storeIDs ∧ 1 ∉ regionFromT.storeIds := by
  obtain ⟨r, hr, -, hmakes⟩ := makes_of_eval behindSingle [1, 2, 3, 5] [2, 3] [5, 1, 2] 1
    toLeftover (by decide +kernel) (by decide +kernel) (by decide +kernel)
  exact ⟨r, hr, onlyFor_valid 3 1 50, hmakes, by decide, by decide⟩

end UserScheduler
end PD
