import PD.Schedule.Exchanges
import PD.Schedule.MatchPeers

/-! # Carrying out the matching of peers -/

namespace PD
open RegionInfo Peer
open List hiding beq_eq_decide

def Adder (c : Cluster) (adds : List OperatorStep) (peer : Peer) : Prop :=
  ∃ n id, c.allocID n = .ok id ∧ adds = createAddPeerSteps peer.storeId id c

def exchanges : List (List OperatorStep) → List Peer → List Peer → List Exchange
  | adds :: groups, new :: news, old :: olds => ⟨adds, new.storeId, old.storeId⟩ :: exchanges groups news olds
  | _, _, _ => []

section
variable {c : Cluster} {order : List Nat} {acc acc' : Adds} {peers : List Peer}

lemma addMissing_groups (h : addMissing c order acc peers = .ok acc') :
  ∃ groups, acc'.toAdds = acc.toAdds ++ groups ∧ List.Forall₂ (Adder c) groups (missing order peers) := by
  induction peers generalizing acc with
  | nil =>
    obtain rfl := Except.ok.inj h
    exact ⟨[], (append_nil _).symm, List.Forall₂.nil⟩
  | cons q _ ih =>
    rw [addMissing] at h
    split at h
    next hmem =>
      rw [missing_cons_of_mem hmem]
      exact ih h
    next hmem =>
      rw [missing_cons_of_not hmem]
      unfold Cluster.allocPeer at h
      cases halloc : c.allocID acc.allocs with
      | error =>
        rw [halloc] at h
        cases h
      | ok id =>
        rw [halloc] at h
        obtain ⟨groups, hgroups, hadders⟩ := ih h
        refine ⟨createAddPeerSteps q.storeId id c :: groups, ?_, ?_⟩
        · rw [hgroups]
          simp
        · exact List.Forall₂.cons ⟨acc.allocs, id, halloc, rfl⟩ hadders

lemma addMissing_targetLeader (h : addMissing c order acc peers = .ok acc') (hne : ∀ q ∈ peers, q.storeId ≠ 0) :
  acc'.targetLeader = if acc.targetLeader = 0 then ((missing order peers).head?.map storeId).getD 0
    else acc.targetLeader := by
  induction peers generalizing acc with
  | nil =>
    obtain rfl := Except.ok.inj h
    by_cases h0 : acc.targetLeader = 0
    · rw [if_pos h0, h0]
      rfl
    · rw [if_neg h0]
  | cons q peers ih =>
    have hq : q.storeId ≠ 0 := hne q mem_cons_self
    have hrest : ∀ q ∈ peers, q.storeId ≠ 0 := fun q hq => hne q (mem_cons_of_mem _ hq)
    rw [addMissing] at h
    split at h
    next hmem =>
      rw [missing_cons_of_mem hmem]
      exact ih h hrest
    next hmem =>
      rw [missing_cons_of_not hmem]
      split at h
      · cases h
      rw [ih h hrest]
      by_cases h0 : acc.targetLeader = 0
      · simp [h0, hq]
      · simp [h0]

end

section
variable {order : List Nat} {toAdds : List (List OperatorStep)} {leaderID targetLeader : Nat}
  {acc acc' : Removes} {peers : List Peer}

lemma removeRedundant_steps (h : removeRedundant order toAdds leaderID targetLeader acc peers = some acc') :
  acc'.steps = acc.steps ++ (zipWith (fun adds (q : Peer) => adds ++ [OperatorStep.removePeer q.storeId])
      (toAdds.drop acc.index) (redundant order leaderID targetLeader peers)).flatten ∧
    acc'.index = acc.index + (redundant order leaderID targetLeader peers).length := by
  rw [removeRedundant_eq] at h
  generalize redundant order leaderID targetLeader peers = olds at h ⊢
  induction olds generalizing acc with
  | nil =>
    cases h
    exact ⟨by simp, rfl⟩
  | cons _ _ ih =>
    obtain ⟨_, hone, h⟩ := Option.bind_eq_some_iff.mp h
    obtain ⟨_, hget, rfl⟩ := Option.map_eq_some_iff.mp hone
    obtain ⟨hsteps, hindex⟩ := ih h
    obtain ⟨hlt, hadds⟩ := List.getElem?_eq_some_iff.mp hget
    refine ⟨?_, ?_⟩
    · rw [hsteps, drop_eq_getElem_cons hlt, hadds]
      simp
    rw [hindex, length_cons]
    show acc.index + 1 + _ = _
    omega

end

section
variable {c : Cluster} {groups : List (List OperatorStep)} {news olds : List Peer} {pending : Finset Nat}

section
variable (h : List.Forall₂ (Adder c) groups news) (olds : List Peer)
include h

lemma flatMap_exchanges : (exchanges groups news olds).flatMap Exchange.steps =
    (zipWith (fun adds (q : Peer) => adds ++ [OperatorStep.removePeer q.storeId]) groups olds).flatten := by
  induction h generalizing olds with
  | nil => rfl
  | cons _ _ ih =>
    cases olds with
    | nil => rfl
    | cons _ olds =>
      rw [exchanges, flatMap_cons, ih olds]
      rfl

lemma map_new_exchanges : (exchanges groups news olds).map Exchange.new = (news.take olds.length).map storeId := by
  induction h generalizing olds with
  | nil => simp [exchanges]
  | cons _ _ ih =>
    cases olds with
    | nil => rfl
    | cons => simp [exchanges, ih]

lemma map_old_exchanges
  (hlen : olds.length ≤ news.length) : (exchanges groups news olds).map Exchange.old = olds.map storeId := by
  induction h generalizing olds with
  | nil =>
    rw [length_nil, Nat.le_zero, length_eq_zero_iff] at hlen
    rw [hlen]
    rfl
  | cons _ _ ih =>
    cases olds with
    | nil => rfl
    | cons _ olds =>
      rw [exchanges, map_cons, ih olds (by simpa using hlen)]
      rfl

lemma mem_exchanges {x : Exchange}
  (hx : x ∈ exchanges groups news olds) : ∃ n id, c.allocID n = .ok id ∧ x.adds = createAddPeerSteps x.new id c := by
  induction h generalizing olds with
  | nil => cases hx
  | cons hadds _ ih =>
    cases olds with
    | nil => cases hx
    | cons _ olds =>
      rcases mem_cons.mp hx with rfl | hx
      · exact hadds
      · exact ih olds hx

lemma addsOn_exchanges (hfresh : ∀ n id, c.allocID n = .ok id → id ∉ pending) :
  ∀ x ∈ exchanges groups news olds, AddsOn pending x.adds x.new := by
  intro x hx
  obtain ⟨n, id, halloc, hadds⟩ := mem_exchanges h olds hx
  rw [hadds]
  exact addsOn_addPeerSteps c _ (hfresh n id halloc)

end

end

section
variable {c : Cluster} {source target : RegionInfo} {order : List Nat} {adds : Adds}

lemma overlapLeader_eq (leaderID targetLeader : Nat) (order : List Nat) : overlapLeader leaderID targetLeader order =
  if leaderID ∈ order then 0 else order.getLast?.getD targetLeader := by
  induction order generalizing targetLeader with
  | nil => rfl
  | cons s order ih =>
    rw [overlapLeader]
    by_cases hs : s = leaderID
    · rw [if_pos hs, if_pos (mem_cons.mpr (.inl hs.symm))]
    rw [if_neg hs, ih, getLast?_cons]
    by_cases hmem : leaderID ∈ order
    · rw [if_pos hmem, if_pos (mem_cons_of_mem _ hmem)]
    have hmem' : leaderID ∉ s :: order := fun h => (mem_cons.mp h).elim (fun e => hs e.symm) hmem
    rw [if_neg hmem, if_neg hmem']
    rfl

def sharedTransfer (source : RegionInfo) (order : List Nat) : List OperatorStep :=
  if source.leaderStore ∈ order then [] else order.getLast?.toList.map (.transferLeader source.leaderStore)

lemma matchStart_steps (h0 : 0 ∉ order) (adds : Adds) :
  (matchStart source order adds).steps = sharedTransfer source order := by
  unfold matchStart sharedTransfer
  rw [overlapLeader_eq]
  by_cases hmem : source.leaderStore ∈ order
  · simp [hmem]
  rw [if_neg hmem, if_neg hmem]
  cases hlast : order.getLast? with
  | none =>
    rw [getLast?_eq_none_iff.mp hlast]
    simp
  | some s =>
    have hs : s ∈ order := mem_of_getLast? hlast
    have hs0 : s ≠ 0 := fun e => h0 (e ▸ hs)
    have hne : order ≠ [] := ne_nil_of_mem hs
    simp [hne, hs0]

/-- Two regions with as many peers, and the steps `adds` that add those of `target` outside of `order`. -/
structure Matching (c : Cluster) (source target : RegionInfo) (order : List Nat) (adds : Adds) : Prop where
  nodup : source.storeIds.Nodup
  targets : target.storeIds.Nodup
  length : source.getPeers.length = target.getPeers.length
  zero : 0 ∉ target.storeIds
  leader : source.leaderStore ∈ source.storeIds
  shared : ∀ s, s ∈ order ↔ s ∈ source.storeIds ∧ s ∈ target.storeIds
  added : addMissing c order ⟨[], 0, 0, 0⟩ target.getPeers = .ok adds
  fresh : ∀ n id, c.allocID n = .ok id → id ∉ source.placement.pending

lemma Matching.disjoint (h : Matching c source target [] adds) : ∀ s ∈ source.storeIds, s ∉ target.storeIds :=
  fun s hs ht => absurd ((h.shared s).mpr ⟨hs, ht⟩) not_mem_nil

lemma matchPeerSteps_of_adds {removes : Removes} (h : Matching c source target order adds)
  (hremoves : matchAdds source order adds = some removes) (hindex : removes.index = adds.toAdds.length) :
  matchPeerSteps c source target order = some (.ok (removes.steps, removes.kind)) := by
  unfold matchPeerSteps
  rw [if_neg (not_not.mpr h.length), h.added]
  simp only [hremoves, Option.map_some, hindex, ne_eq, not_true_eq_false, if_false]

lemma matchPeerSteps_shared (h : Matching c source target order adds) (hne : order ≠ []) :
  ∃ groups kind, List.Forall₂ (Adder c) groups (missing order target.getPeers) ∧
    matchPeerSteps c source target order = some (.ok (sharedTransfer source order ++
      (exchanges groups (missing order target.getPeers) (missing order source.getPeers)).flatMap
        Exchange.steps, kind)) := by
  obtain ⟨groups, hgroups, hadders⟩ := addMissing_groups h.added
  rw [nil_append] at hgroups
  have hfinal : finalLeader order adds.targetLeader = 0 := if_neg hne
  have hcount : adds.toAdds.length =
      (redundant order source.leaderStore (finalLeader order adds.targetLeader) source.getPeers).length +
        (if finalLeader order adds.targetLeader ≠ 0 then 1 else 0) := by
    rw [hfinal, redundant_zero, if_neg (not_not.mpr rfl), Nat.add_zero, hgroups, hadders.length_eq]
    exact length_missing h.nodup h.targets h.length h.shared
  obtain ⟨removes, hremoves, hindex⟩ := matchAdds_index hcount
  refine ⟨groups, removes.kind, hadders, ?_⟩
  rw [matchPeerSteps_of_adds h hremoves hindex]
  rw [matchAdds_eq, hfinal] at hremoves
  obtain ⟨acc, hacc, hlast⟩ := Option.bind_eq_some_iff.mp hremoves
  obtain rfl : acc = removes := by exact Option.some.inj hlast
  rw [(removeRedundant_steps hacc).1, matchStart_steps (fun h0 => h.zero ((h.shared 0).mp h0).2), matchStart_index,
    redundant_zero, hgroups, flatMap_exchanges hadders]
  rfl

def nonLeaders (source : RegionInfo) : List Peer := source.getPeers.filter fun q => q.storeId != source.leaderStore

lemma redundant_nil {targetLeader : Nat} (h0 : targetLeader ≠ 0) (source : RegionInfo) :
  redundant [] source.leaderStore targetLeader source.getPeers = nonLeaders source := by
  rw [redundant, missing_nil]
  refine filter_congr fun q _ => ?_
  simp [h0, bne, beq_eq_decide]

lemma length_nonLeaders (hs : source.storeIds.Nodup) (hleader : source.leaderStore ∈ source.storeIds) :
  (nonLeaders source).length + 1 = source.getPeers.length := by
  have h := length_redundant_nil hs (Nat.one_ne_zero)
  rw [redundant_nil Nat.one_ne_zero, if_pos hleader] at h
  exact h

lemma matchPeerSteps_disjoint (h : Matching c source target [] adds) :
  ∃ groups adds kind first last, List.Forall₂ (Adder c) groups target.getPeers ∧
    target.storeIds.head? = some first ∧ target.getPeers[(nonLeaders source).length]? = some last ∧ Adder c adds last ∧
    matchPeerSteps c source target [] = some (.ok
      ((exchanges groups target.getPeers (nonLeaders source)).flatMap Exchange.steps ++ adds ++
        [.transferLeader source.leaderStore first, .removePeer source.leaderStore], kind)) := by
  obtain ⟨groups, hgroups, hadders⟩ := addMissing_groups h.added
  rw [nil_append] at hgroups
  rw [missing_nil] at hadders
  have hlen := h.length
  have hn := length_nonLeaders h.nodup h.leader
  obtain ⟨first, hfirst, hfirst0⟩ : ∃ first, target.storeIds.head? = some first ∧ first ≠ 0 := by
    cases hpeers : target.getPeers with
    | nil =>
      rw [hpeers, length_nil] at hlen
      omega
    | cons q =>
      refine ⟨q.storeId, by rw [storeIds, hpeers]; rfl, fun e => h.zero ?_⟩
      rw [← e, storeIds, hpeers]
      exact mem_cons_self
  have htarget : adds.targetLeader = first := by
    have hlead := addMissing_targetLeader h.added fun q hq e => h.zero (e ▸ mem_map_of_mem hq)
    rw [if_pos rfl, missing_nil, ← head?_map] at hlead
    rw [hlead]
    exact congrArg (fun o : Option Nat => o.getD 0) hfirst
  have hfinal : finalLeader [] adds.targetLeader = first := (if_pos rfl).trans htarget
  have hcount : adds.toAdds.length =
      (redundant [] source.leaderStore (finalLeader [] adds.targetLeader) source.getPeers).length +
        (if finalLeader [] adds.targetLeader ≠ 0 then 1 else 0) := by
    rw [hfinal, redundant_nil hfirst0, if_pos hfirst0, hgroups, hadders.length_eq, ← hlen, hn]
  obtain ⟨removes, hremoves, hindex⟩ := matchAdds_index hcount
  have hsteps := matchPeerSteps_of_adds h hremoves hindex
  rw [matchAdds_eq, hfinal] at hremoves
  obtain ⟨acc, hacc, hlast⟩ := Option.bind_eq_some_iff.mp hremoves
  obtain ⟨haccSteps, haccIndex⟩ := removeRedundant_steps hacc
  rw [matchStart_index, redundant_nil hfirst0] at haccSteps
  rw [matchStart_index, redundant_nil hfirst0, Nat.zero_add] at haccIndex
  have hlt : (nonLeaders source).length < target.getPeers.length := by omega
  have hlt' : (nonLeaders source).length < groups.length := hadders.length_eq ▸ hlt
  have hget : adds.toAdds[acc.index]? = some (groups.get ⟨_, hlt'⟩) := by
    rw [hgroups, haccIndex]
    exact getElem?_eq_getElem hlt'
  unfold removeLeader at hlast
  rw [if_pos hfirst0, hget] at hlast
  cases hlast
  refine ⟨groups, groups.get ⟨_, hlt'⟩, acc.kind ||| (.opLeader ||| .opRegion), first,
    target.getPeers.get ⟨_, hlt⟩, hadders, hfirst, getElem?_eq_getElem hlt,
    (forall₂_iff_get.mp hadders).2 _ hlt' hlt, ?_⟩
  rw [hsteps, haccSteps, flatMap_exchanges hadders, hgroups]
  rfl

end

def matchedLeader (source target : RegionInfo) (order : List Nat) : Nat :=
  if source.leaderStore ∈ target.storeIds then source.leaderStore
  else order.getLast?.getD (target.storeIds.head?.getD 0)

section
variable {c : Cluster} {source target : RegionInfo} {order : List Nat} {adds : Adds} {k : Nat}
variable {peers : List Peer} {s : Nat} {groups : List (List OperatorStep)} {last : Peer}

lemma mem_missing_stores : s ∈ (missing order peers).map storeId ↔ s ∈ peers.map storeId ∧ s ∉ order := by
  simp only [missing, mem_map, mem_filter]
  constructor
  · rintro ⟨q, ⟨hq, hout⟩, rfl⟩
    exact ⟨⟨q, hq, rfl⟩, by simpa using hout⟩
  rintro ⟨⟨q, hq, rfl⟩, hout⟩
  exact ⟨q, ⟨hq, by simpa using hout⟩, rfl⟩

lemma nodup_missing_stores (h : (peers.map storeId).Nodup) : ((missing order peers).map storeId).Nodup :=
  h.sublist ((filter_sublist (p := _) (l := peers)).map storeId)

lemma reaches_sharedTransfer (h : Matching c source target order adds) (hne : order ≠ [])
  (hsafe : source.placement.Safe k) :
  ∃ p, Runs.Reaches Placement.place (Placement.Safe k) source.placement (sharedTransfer source order) p ∧
    p.stores = source.placement.stores ∧ p.pending = source.placement.pending ∧ p.leader ∈ order ∧
    p.leader = matchedLeader source target order := by
  unfold sharedTransfer matchedLeader
  by_cases hmem : source.leaderStore ∈ order
  · rw [if_pos hmem, if_pos ((h.shared _).mp hmem).2]
    exact ⟨source.placement, Runs.Reaches.nil hsafe, rfl, rfl, hmem, rfl⟩
  have hout : source.leaderStore ∉ target.storeIds := fun hin => hmem ((h.shared _).mpr ⟨h.leader, hin⟩)
  rw [if_neg hmem, if_neg hout]
  cases hlast : order.getLast? with
  | none => exact absurd (getLast?_eq_none_iff.mp hlast) hne
  | some s =>
    have hs : s ∈ order := mem_of_getLast? hlast
    have hstore : s ∈ source.placement.stores := mem_placement_stores.mpr ((h.shared s).mp hs).1
    exact ⟨source.placement.lead s, reaches_transferLeader source.leaderStore hstore hsafe, rfl, rfl, hs, rfl⟩

lemma reaches_shared (h : Matching c source target order adds) (hne : order ≠ [])
  (hgroups : List.Forall₂ (Adder c) groups (missing order target.getPeers)) (hsafe : source.placement.Safe k) :
  ∃ q, Runs.Reaches Placement.place (Placement.Safe k) source.placement (sharedTransfer source order ++
      (exchanges groups (missing order target.getPeers) (missing order source.getPeers)).flatMap Exchange.steps) q ∧
    (∀ s, s ∈ q.stores ↔ s ∈ target.storeIds) ∧ q.leader = matchedLeader source target order := by
  obtain ⟨p, hp, hstores, hpending, hshared, hfinal⟩ := reaches_sharedTransfer h hne hsafe
  have hcount := length_missing h.nodup h.targets h.length h.shared
  have hold := map_old_exchanges hgroups (missing order source.getPeers) hcount.ge
  have hnew := map_new_exchanges hgroups (missing order source.getPeers)
  rw [← hcount, take_length] at hnew
  have hin : ∀ s, s ∈ p.stores ↔ s ∈ source.storeIds := fun s => hstores ▸ mem_placement_stores
  have hnews : ∀ x ∈ exchanges groups (missing order target.getPeers) (missing order source.getPeers),
      x.new ∈ target.storeIds ∧ x.new ∉ order := fun x hx => by
    have h : x.new ∈ (missing order target.getPeers).map storeId := hnew ▸ mem_map_of_mem hx
    exact mem_missing_stores.mp h
  have holds : ∀ x ∈ exchanges groups (missing order target.getPeers) (missing order source.getPeers),
      x.old ∈ source.storeIds ∧ x.old ∉ order := fun x hx => by
    have h : x.old ∈ (missing order source.getPeers).map storeId := hold ▸ mem_map_of_mem hx
    exact mem_missing_stores.mp h
  obtain ⟨q, hq, hq', hlead, -, -⟩ := reaches_exchanges
    (addsOn_exchanges hgroups (missing order source.getPeers) (hpending ▸ h.fresh))
    (hnew ▸ nodup_missing_stores h.targets)
    (fun x hx hp => (hnews x hx).2 ((h.shared _).mpr ⟨(hin _).mp hp, (hnews x hx).1⟩))
    (hold ▸ nodup_missing_stores h.nodup) (fun x hx => (hin _).mpr (holds x hx).1)
    (fun x hx e => (holds x hx).2 (e ▸ hshared)) hp.last
  refine ⟨q, hp.append hq, fun s => ?_, hlead.trans hfinal⟩
  rw [hq' s, hin s, hold, hnew, mem_missing_stores, mem_missing_stores]
  rw [h.shared s]
  tauto

lemma mem_nonLeaders_stores : s ∈ (nonLeaders source).map storeId ↔ s ∈ source.storeIds ∧ s ≠ source.leaderStore := by
  simp only [nonLeaders, mem_map, mem_filter]
  constructor
  · rintro ⟨q, ⟨hq, hne⟩, rfl⟩
    exact ⟨mem_map_of_mem hq, by simpa using hne⟩
  rintro ⟨hs, hne⟩
  obtain ⟨q, hq, rfl⟩ := mem_map.mp hs
  exact ⟨q, ⟨hq, by simpa using hne⟩, rfl⟩

lemma storeIds_eq_take_last {n : Nat} (hlast : target.getPeers[n]? = some last)
  (hlen : target.getPeers.length = n + 1) :
  target.storeIds = (target.getPeers.take n).map storeId ++ [last.storeId] := by
  obtain ⟨hlt, hget⟩ := List.getElem?_eq_some_iff.mp hlast
  have htake : target.getPeers = target.getPeers.take n ++ [last] := by
    rw [← hget, take_append_getElem hlt, take_of_length_le (by omega)]
  show target.getPeers.map storeId = _
  rw [← map_singleton, ← map_append, ← htake]

lemma reaches_nonLeaders (h : Matching c source target [] adds)
  (hgroups : List.Forall₂ (Adder c) groups target.getPeers) (hsafe : source.placement.Safe k) :
  ∃ q, Runs.Reaches Placement.place (Placement.Safe k) source.placement
      ((exchanges groups target.getPeers (nonLeaders source)).flatMap Exchange.steps) q ∧
    (∀ s, s ∈ q.stores ↔ s = source.leaderStore ∨ s ∈ (target.getPeers.take (nonLeaders source).length).map storeId) ∧
    q.pending = source.placement.pending := by
  have hle : (nonLeaders source).length ≤ target.getPeers.length := by
    have hcount := length_nonLeaders h.nodup h.leader
    have hlen := h.length
    omega
  have hold := map_old_exchanges hgroups (nonLeaders source) hle
  have hnew := map_new_exchanges hgroups (nonLeaders source)
  have hnews : ∀ s, s ∈ (exchanges groups target.getPeers (nonLeaders source)).map Exchange.new →
      s ∈ target.storeIds := fun s h => by
    rw [hnew] at h
    exact ((take_sublist _ _).map storeId).subset h
  have holds : ∀ x ∈ exchanges groups target.getPeers (nonLeaders source),
      x.old ∈ source.storeIds ∧ x.old ≠ source.leaderStore := fun x hx => by
    have h : x.old ∈ (nonLeaders source).map storeId := hold ▸ mem_map_of_mem hx
    exact mem_nonLeaders_stores.mp h
  obtain ⟨q, hq, hq', -, hpending, -⟩ := reaches_exchanges
    (addsOn_exchanges hgroups (nonLeaders source) h.fresh) (hnew ▸ h.targets.sublist ((take_sublist _ _).map storeId))
    (fun x hx hp => h.disjoint _ (mem_placement_stores.mp hp) (hnews _ (mem_map_of_mem hx)))
    (hold ▸ h.nodup.sublist ((filter_sublist (p := _) (l := source.getPeers)).map storeId))
    (fun x hx => mem_placement_stores.mpr (holds x hx).1) (fun x hx => (holds x hx).2) hsafe
  refine ⟨q, hq, fun s => ?_, hpending⟩
  rw [hq' s, hold, hnew, mem_nonLeaders_stores, mem_placement_stores]
  constructor
  · exact fun h => h.imp_left fun h => by tauto
  rintro (e | h)
  · exact .inl ⟨e ▸ h.leader, fun h => h.2 e⟩
  · exact .inr h

lemma reaches_disjoint {group : List OperatorStep} {first : Nat} (h : Matching c source target [] adds)
  (hgroups : List.Forall₂ (Adder c) groups target.getPeers) (hfirst : target.storeIds.head? = some first)
  (hlast : target.getPeers[(nonLeaders source).length]? = some last) (hadds : Adder c group last)
  (hsafe : source.placement.Safe k) : ∃ q, Runs.Reaches Placement.place (Placement.Safe k) source.placement
      ((exchanges groups target.getPeers (nonLeaders source)).flatMap Exchange.steps ++ group ++
        [.transferLeader source.leaderStore first, .removePeer source.leaderStore]) q ∧
    (∀ s, s ∈ q.stores ↔ s ∈ target.storeIds) ∧ q.leader = first := by
  have hlen := h.length
  have hcount := length_nonLeaders h.nodup h.leader
  have hsplit := storeIds_eq_take_last hlast (by omega)
  obtain ⟨-, -, hapart⟩ := nodup_append.mp (hsplit ▸ h.targets)
  obtain ⟨q, hq, hmem, hpending⟩ := reaches_nonLeaders h hgroups hsafe
  have hout : source.leaderStore ∉ target.storeIds := h.disjoint _ h.leader
  -- the last store is added, the leader goes to the first one, and its peer is removed
  have hnewLast : last.storeId ∉ q.stores := fun h => by
    rcases (hmem _).mp h with e | h
    · exact hout (e ▸ hsplit ▸ mem_append_right _ mem_cons_self)
    · exact hapart _ h _ mem_cons_self rfl
  obtain ⟨n, id, halloc, rfl⟩ := hadds
  have hadd := reaches_addPeerSteps c hnewLast (hpending ▸ h.fresh n id halloc) hq.last
  have hstores : ∀ s, s ∈ (q.add last.storeId).stores ↔ s = source.leaderStore ∨ s ∈ target.storeIds := by
    intro s
    show s ∈ insert last.storeId q.stores ↔ _
    rw [Finset.mem_insert, hmem s, hsplit, mem_append, mem_singleton]
    tauto
  have hfirst' : first ∈ target.storeIds := mem_of_head? hfirst
  have hroom : k + 1 ≤ (q.add last.storeId).stores.card := by
    show k + 1 ≤ (insert last.storeId q.stores).card
    rw [Finset.card_insert_of_notMem hnewLast]
    exact Nat.succ_le_succ hq.last.1
  have hne : first ≠ source.leaderStore := fun e => hout (e ▸ hfirst')
  have hover := reaches_handOver source.leaderStore ((hstores first).mpr (.inr hfirst')) hne hroom hadd.last
  refine ⟨_, (hq.append hadd).append hover, fun s => ?_, rfl⟩
  show s ∈ (q.add last.storeId).stores.erase source.leaderStore ↔ _
  rw [Finset.mem_erase, hstores s]
  exact ⟨fun h => h.2.resolve_left h.1, fun h => ⟨fun e => hout (e ▸ h), .inr h⟩⟩

lemma reaches_matchPeerSteps (h : Matching c source target order adds) :
  ∃ steps kind q, matchPeerSteps c source target order = some (.ok (steps, kind)) ∧
    Runs.Reaches Placement.place (Placement.Safe source.getPeers.length) source.placement steps q ∧
    (∀ s, s ∈ q.stores ↔ s ∈ target.storeIds) ∧ q.leader = matchedLeader source target order := by
  have hsafe := safe_placement h.nodup h.leader (Nat.le_refl _)
  by_cases hne : order = []
  · subst hne
    obtain ⟨groups, adds, kind, first, last, hgroups, hfirst, hlast, hadds, hsteps⟩ := matchPeerSteps_disjoint h
    obtain ⟨q, hq, hstores, hlead⟩ := reaches_disjoint h hgroups hfirst hlast hadds hsafe
    refine ⟨_, kind, q, hsteps, hq, hstores, ?_⟩
    rw [hlead, matchedLeader, if_neg (h.disjoint _ h.leader), hfirst]
    rfl
  obtain ⟨groups, kind, hgroups, hsteps⟩ := matchPeerSteps_shared h hne
  obtain ⟨q, hq, hstores, hlead⟩ := reaches_shared h hne hgroups hsafe
  exact ⟨_, kind, q, hsteps, hq, hstores, hlead⟩

lemma matchedLeader_mem (h : Matching c source target order adds) :
  matchedLeader source target order ∈ target.storeIds := by
  unfold matchedLeader
  split
  next h => exact h
  · cases hlast : order.getLast? with
    | some s => exact ((h.shared s).mp (mem_of_getLast? hlast)).2
    | none =>
      cases hpeers : target.getPeers with
      | nil =>
        have hlen := h.length
        have hleader := h.leader
        rw [hpeers, length_nil, length_eq_zero_iff] at hlen
        rw [storeIds, hlen] at hleader
        cases hleader
      | cons =>
        rw [storeIds, hpeers]
        exact mem_cons_self

end

/-- **Matching** ends on the stores of the target. -/
theorem matchPeers_executes (c : Cluster) (source target : RegionInfo) (order : List Nat)
  (hs : source.storeIds.Nodup) (ht : target.storeIds.Nodup)
  (hlen : source.getPeers.length = target.getPeers.length) (h0 : 0 ∉ target.storeIds)
  (hleader : source.leaderStore ∈ source.storeIds)
  (horder : order.Perm (intersectionStores source.getPeers target.getPeers))
  (halloc : ∀ n < target.getPeers.length, ∃ id, c.allocID n = .ok id)
  (hfresh : ∀ n id, c.allocID n = .ok id → ∀ p ∈ source.pendingPeers, p.id ≠ id) :
  ∃ steps kind, matchPeerSteps c source target order = some (.ok (steps, kind)) ∧
    ∀ op : Operator, op.rest = steps → ∃ source', Executes source op source' ∧
      source'.storeIds.Perm target.storeIds ∧ source'.leaderStore ∈ target.storeIds ∧
      ∀ n r o, applyOperator n source op = some (r, o) → source.getPeers.length ≤ r.getPeers.length := by
  obtain ⟨adds, hadd⟩ : ∃ adds, addMissing c order ⟨[], 0, 0, 0⟩ target.getPeers = .ok adds :=
    addMissing_isOk.mpr fun i hi => by
      rw [Nat.zero_add]
      exact halloc i (Nat.lt_of_lt_of_le hi (length_filter_le _ _))
  have hmatching : Matching c source target order adds := ⟨hs, ht, hlen, h0, hleader,
    fun s => horder.mem_iff.trans mem_intersectionStores, hadd, fun n id h => not_mem_pending (hfresh n id h)⟩
  obtain ⟨steps, kind, q, hsteps, hq, hstores, hlead⟩ := reaches_matchPeerSteps hmatching
  refine ⟨steps, kind, hsteps, fun op hop => ?_⟩
  subst hop
  obtain ⟨source', hexec, hnodup, hmem, hleader', halong⟩ := executes_safely hs hq
  refine ⟨source', hexec, ?_, ?_, fun n r o h => (halong n r o h).2⟩
  · exact (perm_ext_iff_of_nodup hnodup ht).mpr fun s => (hmem s).trans (hstores s)
  rw [hleader', hlead]
  exact matchedLeader_mem hmatching

theorem matchPeers_executes_apart :
  ∃ steps kind, matchPeerSteps smallCluster ((loadedRegion 2 [1] [2] [1, 2, 3]).withLeader (some ⟨21, 1, false⟩))
      (loadedRegion 3 [2] [3] [4, 5, 6]) [] = some (.ok (steps, kind)) ∧ steps.length = 10 := by
  obtain ⟨steps, kind, hsteps, -⟩ := matchPeers_executes smallCluster
    ((loadedRegion 2 [1] [2] [1, 2, 3]).withLeader (some ⟨21, 1, false⟩)) (loadedRegion 3 [2] [3] [4, 5, 6]) []
    (by decide) (by decide) rfl (by decide) (by decide) (by decide) (fun n _ => ⟨100 + n, rfl⟩)
    (fun n id _ p hp => by cases hp)
  refine ⟨steps, kind, hsteps, ?_⟩
  have e : some (Except.ok (steps, kind)) = some (Except.ok (_, _)) := hsteps.symm.trans rfl
  rw [(Prod.mk.inj (Except.ok.inj (Option.some.inj e))).1]
  rfl

end PD
