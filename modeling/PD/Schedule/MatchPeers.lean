import Mathlib.Data.List.Dedup
import PD.Schedule.CreateOperator

/-! # Indexes in the matching of peers -/

namespace PD
open List hiding beq_eq_decide

def missing (order : List Nat) (peers : List Peer) : List Peer := peers.filter fun p => !order.contains p.storeId

def redundant (order : List Nat) (leaderID targetLeader : Nat) (peers : List Peer) : List Peer :=
  (missing order peers).filter fun p => !decide (targetLeader ≠ 0 ∧ p.storeId = leaderID)

section
variable {c : Cluster} {order : List Nat} {acc acc' : Adds} {peers : List Peer}

lemma missing_nil (peers : List Peer) : missing [] peers = peers := filter_eq_self.mpr fun _ _ => rfl

lemma missing_cons_of_mem {p : Peer} (h : order.contains p.storeId = true) :
  missing order (p :: peers) = missing order peers := by
  rw [missing, filter_cons, h]
  rfl

lemma missing_cons_of_not {p : Peer} (h : ¬ order.contains p.storeId = true) :
  missing order (p :: peers) = p :: missing order peers := by
  rw [missing, filter_cons, if_pos (by simpa using h)]
  rfl

lemma addMissing_isOk : (∃ acc', addMissing c order acc peers = .ok acc') ↔
  ∀ i < (missing order peers).length, ∃ id, c.allocID (acc.allocs + i) = .ok id := by
  induction peers generalizing acc with
  | nil => exact ⟨fun _ i hi => (by cases hi), fun _ => ⟨acc, rfl⟩⟩
  | cons p _ ih =>
    rw [addMissing]
    split
    next hmem => rw [missing_cons_of_mem hmem, ih]
    next hmem =>
      rw [missing_cons_of_not hmem, length_cons]
      cases halloc : c.allocID acc.allocs with
      | error =>
        simp only [Cluster.allocPeer, halloc, Except.map]
        refine ⟨fun h => (by obtain ⟨_, h⟩ := h; cases h), fun h => ?_⟩
        obtain ⟨id, hid⟩ := h 0 (Nat.succ_pos _)
        rw [Nat.add_zero, halloc] at hid
        cases hid
      | ok id =>
        simp only [Cluster.allocPeer, halloc, Except.map]
        rw [ih]
        constructor
        · intro h i hi
          cases i with
          | zero => exact ⟨id, halloc⟩
          | succ i =>
            have := h i (by omega)
            rwa [Nat.add_assoc, Nat.add_comm 1 i] at this
        intro h i hi
        have := h (i+1) (by omega)
        rwa [Nat.add_assoc, Nat.add_comm 1 i]

lemma addMissing_ok (h : addMissing c order acc peers = .ok acc') :
  acc'.toAdds.length = acc.toAdds.length + (missing order peers).length ∧
    (acc'.targetLeader = 0 ↔ acc.targetLeader = 0 ∧ ∀ p ∈ missing order peers, p.storeId = 0) := by
  induction peers generalizing acc with
  | nil =>
    obtain rfl := Except.ok.inj h
    exact ⟨rfl, fun h => ⟨h, fun p hp => (by cases hp)⟩, And.left⟩
  | cons p _ ih =>
    rw [addMissing] at h
    split at h
    next hmem =>
      rw [missing_cons_of_mem hmem]
      exact ih h
    next hmem =>
      rw [missing_cons_of_not hmem]
      split at h
      · cases h
      obtain ⟨hlen, hleader⟩ := ih h
      refine ⟨?_, hleader.trans ?_⟩
      · simp only [length_append, length_cons, length_nil] at hlen ⊢
        omega
      simp only [forall_mem_cons]
      split
      next h0 => simp [h0]
      next h0 => simp [h0]

end

section
variable {order : List Nat} {toAdds : List (List OperatorStep)} {leaderID targetLeader : Nat}
  {acc acc' : Removes} {peers : List Peer}

lemma redundant_cons_of_skip {p : Peer} (h : order.contains p.storeId = true ∨
  (targetLeader ≠ 0 ∧ p.storeId = leaderID)) :
  redundant order leaderID targetLeader (p :: peers) = redundant order leaderID targetLeader peers := by
  unfold redundant
  by_cases hmem : order.contains p.storeId = true
  · rw [missing_cons_of_mem hmem]
  rw [missing_cons_of_not hmem, filter_cons, decide_eq_true (h.resolve_left hmem)]
  rfl

lemma redundant_cons_of_not {p : Peer} (hmem : ¬ order.contains p.storeId = true)
  (hleader : ¬ (targetLeader ≠ 0 ∧ p.storeId = leaderID)) :
  redundant order leaderID targetLeader (p :: peers) = p :: redundant order leaderID targetLeader peers := by
  unfold redundant
  rw [missing_cons_of_not hmem, filter_cons, decide_eq_false hleader]
  rfl

def removeOne (toAdds : List (List OperatorStep)) (acc : Removes) (p : Peer) : Option Removes :=
  (toAdds[acc.index]?).map fun adds =>
    ⟨acc.index + 1, acc.steps ++ adds ++ [.removePeer p.storeId], acc.kind ||| .opRegion⟩

lemma removeRedundant_eq : removeRedundant order toAdds leaderID targetLeader acc peers =
  (redundant order leaderID targetLeader peers).foldlM (removeOne toAdds) acc := by
  induction peers generalizing acc with
  | nil => rfl
  | cons p _ ih =>
    unfold removeRedundant
    by_cases hmem : order.contains p.storeId = true
    · rw [if_pos hmem, redundant_cons_of_skip (.inl hmem), ih]
    rw [if_neg hmem]
    by_cases hleader : targetLeader ≠ 0 ∧ p.storeId = leaderID
    · rw [if_pos hleader, redundant_cons_of_skip (.inr hleader), ih]
    rw [if_neg hleader, redundant_cons_of_not hmem hleader, foldlM_cons, removeOne]
    cases toAdds[acc.index]? with
    | none => rfl
    | some => exact ih

def Counted (total n : Nat) : Option Removes → Prop
  | none => total < n
  | some acc => acc.index = n ∧ n ≤ total

lemma Counted.eq_none_iff {total n : Nat} {o : Option Removes} (h : Counted total n o) : o = none ↔ total < n := by
  cases o with
  | none => exact ⟨fun _ => h, fun _ => rfl⟩
  | some => exact ⟨fun e => (by cases e), fun hlt => absurd h.2 (Nat.not_le_of_lt hlt)⟩

lemma removeRedundant_counted (order : List Nat) (leaderID targetLeader : Nat) (peers : List Peer)
  (hle : acc.index ≤ toAdds.length) :
  Counted toAdds.length (acc.index + (redundant order leaderID targetLeader peers).length)
    (removeRedundant order toAdds leaderID targetLeader acc peers) := by
  rw [removeRedundant_eq]
  induction redundant order leaderID targetLeader peers generalizing acc with
  | nil => exact ⟨rfl, hle⟩
  | cons p _ ih =>
    rw [foldlM_cons, removeOne, length_cons]
    cases hget : toAdds[acc.index]? with
    | none =>
      have := getElem?_eq_none_iff.mp hget
      show toAdds.length < _
      omega
    | some =>
      obtain ⟨hlt, _⟩ := List.getElem?_eq_some_iff.mp hget
      rw [← Nat.add_assoc, Nat.add_right_comm]
      exact ih hlt

lemma removes_counted (order : List Nat) (leaderID targetLeader : Nat) (peers : List Peer)
  (hle : acc.index ≤ toAdds.length) :
  Counted toAdds.length (acc.index + (redundant order leaderID targetLeader peers).length +
      (if targetLeader ≠ 0 then 1 else 0)) ((removeRedundant order toAdds leaderID targetLeader acc peers).bind
      (removeLeader toAdds leaderID targetLeader)) := by
  have h := removeRedundant_counted order leaderID targetLeader peers hle
  revert h
  generalize acc.index + (redundant order leaderID targetLeader peers).length = n
  cases removeRedundant order toAdds leaderID targetLeader acc peers with
  | none =>
    intro h
    exact Nat.lt_add_right _ h
  | some acc' =>
    rintro ⟨rfl, hle'⟩
    rw [Option.bind_some, removeLeader]
    by_cases h0 : targetLeader ≠ 0
    · rw [if_pos h0, if_pos h0]
      cases hget : toAdds[acc'.index]? with
      | none => exact Nat.lt_succ_of_le (getElem?_eq_none_iff.mp hget)
      | some =>
        obtain ⟨hlt, _⟩ := List.getElem?_eq_some_iff.mp hget
        exact ⟨rfl, hlt⟩
    rw [if_neg h0, if_neg h0]
    exact ⟨rfl, hle'⟩

end

section
variable {c : Cluster} {source target : RegionInfo} {order : List Nat} {adds : Adds}

def finalLeader (order : List Nat) (targetLeader : Nat) : Nat := if order = [] then targetLeader else 0

def matchStart (source : RegionInfo) (order : List Nat) (adds : Adds) : Removes :=
  let targetLeader := overlapLeader source.leaderStore adds.targetLeader order
  if order ≠ [] ∧ targetLeader ≠ 0 then
    ⟨0, [.transferLeader source.leaderStore targetLeader], adds.kind ||| .opLeader⟩
  else ⟨0, [], adds.kind⟩

lemma matchStart_index (source : RegionInfo) (order : List Nat) (adds : Adds) :
  (matchStart source order adds).index = 0 := by
  unfold matchStart
  dsimp only
  split <;> rfl

lemma matchAdds_eq (source : RegionInfo) (order : List Nat) (adds : Adds) : matchAdds source order adds =
  (removeRedundant order adds.toAdds source.leaderStore (finalLeader order adds.targetLeader)
    (matchStart source order adds) source.getPeers).bind
    (removeLeader adds.toAdds source.leaderStore (finalLeader order adds.targetLeader)) := by
  unfold matchAdds finalLeader matchStart
  cases order with
  | nil => rfl
  | cons s order =>
    by_cases h0 : overlapLeader source.leaderStore adds.targetLeader (s :: order) = 0
    · simp only [h0, ne_eq, not_true, and_false, if_false, reduceCtorEq]
    · simp only [h0, ne_eq, not_false_eq_true, and_self, if_true, reduceCtorEq, if_false]

lemma matchAdds_counted (source : RegionInfo) (order : List Nat) (adds : Adds) : Counted adds.toAdds.length
  ((redundant order source.leaderStore (finalLeader order adds.targetLeader) source.getPeers).length +
    (if finalLeader order adds.targetLeader ≠ 0 then 1 else 0)) (matchAdds source order adds) := by
  have h0 := matchStart_index source order adds
  have h := removes_counted order source.leaderStore (finalLeader order adds.targetLeader) source.getPeers
    (h0 ▸ Nat.zero_le adds.toAdds.length)
  rwa [h0, Nat.zero_add, ← matchAdds_eq] at h

lemma mem_intersectionStores {a b : List Peer} {s : Nat} :
  s ∈ intersectionStores a b ↔ s ∈ a.map Peer.storeId ∧ s ∈ b.map Peer.storeId := by
  rw [intersectionStores, mem_dedup, mem_filter, contains_iff_mem, and_comm]

lemma length_missing (hs : source.storeIds.Nodup) (ht : target.storeIds.Nodup)
  (hlen : source.getPeers.length = target.getPeers.length)
  (horder : ∀ s, s ∈ order ↔ s ∈ source.storeIds ∧ s ∈ target.storeIds) :
  (missing order target.getPeers).length = (missing order source.getPeers).length := by
  have hsplit : ∀ peers : List Peer, peers.length =
      ((peers.map Peer.storeId).filter (order.contains ·)).length + (missing order peers).length := by
    intro peers
    rw [filter_map, length_map]
    exact length_eq_length_filter_add _
  have hperm : (source.storeIds.filter (order.contains ·)).Perm
      (target.storeIds.filter (order.contains ·)) := by
    refine (perm_ext_iff_of_nodup (hs.filter _) (ht.filter _)).mpr fun s => ?_
    rw [mem_filter, mem_filter, contains_iff_mem, horder]
    tauto
  have h1 := hsplit source.getPeers
  have h2 := hsplit target.getPeers
  have h3 : ((source.getPeers.map Peer.storeId).filter (order.contains ·)).length =
      ((target.getPeers.map Peer.storeId).filter (order.contains ·)).length := hperm.length_eq
  omega

lemma length_redundant_nil (hs : source.storeIds.Nodup) {targetLeader : Nat} (h0 : targetLeader ≠ 0) :
  (redundant [] source.leaderStore targetLeader source.getPeers).length +
    (if source.leaderStore ∈ source.storeIds then 1 else 0) = source.getPeers.length := by
  have hcount : (source.getPeers.filter fun p => p.storeId == source.leaderStore).length =
      if source.leaderStore ∈ source.storeIds then 1 else 0 := by
    rw [← hs.count, count_eq_countP, RegionInfo.storeIds, countP_map, countP_eq_length_filter]
    rfl
  have hrest : redundant [] source.leaderStore targetLeader source.getPeers =
      source.getPeers.filter fun p => !(p.storeId == source.leaderStore) := by
    rw [redundant, missing_nil]
    exact filter_congr fun p _ => by rw [beq_eq_decide]; simp [h0]
  have hsplit : source.getPeers.length = _ := length_eq_length_filter_add fun p => p.storeId == source.leaderStore
  rw [hrest]
  omega

end

section
variable {order : List Nat} {toAdds : List (List OperatorStep)} {leaderID targetLeader : Nat}
  {acc acc' : Removes} {peers : List Peer}

lemma removeRedundant_removes (h : removeRedundant order toAdds leaderID targetLeader acc peers = some acc') :
  acc.steps ⊆ acc'.steps ∧ ∀ p ∈ redundant order leaderID targetLeader peers, .removePeer p.storeId ∈ acc'.steps := by
  rw [removeRedundant_eq] at h
  generalize redundant order leaderID targetLeader peers = olds at h ⊢
  induction olds generalizing acc with
  | nil =>
    cases h
    exact ⟨List.Subset.refl _, fun p hp => (by cases hp)⟩
  | cons _ _ ih =>
    obtain ⟨_, hone, h⟩ := Option.bind_eq_some_iff.mp h
    obtain ⟨_, -, rfl⟩ := Option.map_eq_some_iff.mp hone
    obtain ⟨hsub, hrest⟩ := ih h
    refine ⟨fun st hst => hsub (by simp [hst]), fun q hq => ?_⟩
    rcases mem_cons.mp hq with rfl | hq
    · exact hsub (by simp)
    · exact hrest q hq

lemma removeLeader_removes (h : removeLeader toAdds leaderID targetLeader acc = some acc') :
  acc.steps ⊆ acc'.steps ∧ (targetLeader ≠ 0 → .removePeer leaderID ∈ acc'.steps) := by
  unfold removeLeader at h
  split at h
  · split at h
    · cases h
    cases h
    exact ⟨fun st hst => by simp [hst], fun _ => by simp⟩
  next h0 =>
    cases h
    exact ⟨List.Subset.refl _, fun hne => absurd hne h0⟩

end

section
variable {c : Cluster} {source target : RegionInfo} {order : List Nat} {adds : Adds} {removes : Removes}

lemma matchAdds_removes (h : matchAdds source order adds = some removes) {s : Nat} (hs : s ∈ source.storeIds)
  (hout : s ∉ order) : .removePeer s ∈ removes.steps := by
  rw [matchAdds_eq] at h
  obtain ⟨acc, hacc, hlast⟩ := Option.bind_eq_some_iff.mp h
  obtain ⟨hsub, hleader⟩ := removeLeader_removes hlast
  obtain ⟨p, hp, rfl⟩ := RegionInfo.mem_storeIds.mp hs
  have hmissing : p ∈ missing order source.getPeers := mem_filter.mpr ⟨hp, by simpa using hout⟩
  by_cases hlead : finalLeader order adds.targetLeader ≠ 0 ∧ p.storeId = source.leaderStore
  · rw [hlead.2]
    exact hleader hlead.1
  · exact hsub ((removeRedundant_removes hacc).2 p (mem_filter.mpr ⟨hmissing, by rw [decide_eq_false hlead]; rfl⟩))

lemma matchAdds_index (hadds : adds.toAdds.length =
  (redundant order source.leaderStore (finalLeader order adds.targetLeader) source.getPeers).length +
    (if finalLeader order adds.targetLeader ≠ 0 then 1 else 0)) :
  ∃ removes, matchAdds source order adds = some removes ∧ removes.index = adds.toAdds.length := by
  have hcounted := matchAdds_counted source order adds
  rw [← hadds] at hcounted
  cases hres : matchAdds source order adds with
  | none =>
    rw [hres] at hcounted
    exact absurd hcounted (lt_irrefl _)
  | some removes =>
    rw [hres] at hcounted
    exact ⟨removes, rfl, hcounted.1⟩

lemma redundant_zero (order : List Nat) (leaderID : Nat) (peers : List Peer) :
    redundant order leaderID 0 peers = missing order peers := filter_eq_self.mpr fun p _ => by simp

lemma matchPeerSteps_removes (hlen : source.getPeers.length = target.getPeers.length)
  (hcount : (missing order target.getPeers).length = (missing order source.getPeers).length)
  (hshare : order ≠ [] ∨ ∀ p ∈ target.getPeers, p.storeId = 0) (halloc : ∀ n, ∃ id, c.allocID n = .ok id) :
  ∃ steps kind, matchPeerSteps c source target order = some (.ok (steps, kind)) ∧
    ∀ s ∈ source.storeIds, s ∉ order → .removePeer s ∈ steps := by
  obtain ⟨adds, hadd⟩ : ∃ adds, addMissing c order ⟨[], 0, 0, 0⟩ target.getPeers = .ok adds :=
    addMissing_isOk.mpr fun i _ => halloc _
  obtain ⟨hadds, htarget⟩ := addMissing_ok hadd
  rw [length_nil, Nat.zero_add, hcount] at hadds
  have hfinal : finalLeader order adds.targetLeader = 0 := by
    unfold finalLeader
    split
    next hnil =>
      have hnone := hshare.resolve_left (not_not.mpr hnil)
      exact htarget.mpr ⟨rfl, fun p hp => hnone p (mem_filter.mp hp).1⟩
    · rfl
  have hused : adds.toAdds.length =
      (redundant order source.leaderStore (finalLeader order adds.targetLeader) source.getPeers).length +
        (if finalLeader order adds.targetLeader ≠ 0 then 1 else 0) := by
    rw [hfinal, redundant_zero, if_neg (not_not.mpr rfl), Nat.add_zero]
    exact hadds
  obtain ⟨removes, hremoves, hindex⟩ := matchAdds_index hused
  refine ⟨removes.steps, removes.kind, ?_, fun s hs hout => matchAdds_removes hremoves hs hout⟩
  unfold matchPeerSteps
  rw [if_neg (not_not.mpr hlen), hadd]
  simp only [hremoves, Option.map_some, hindex, ne_eq, not_true_eq_false, if_false]

end

structure LeaderLost (c : Cluster) (source target : RegionInfo) : Prop where
  sameCount : source.getPeers.length = target.getPeers.length
  disjoint : ∀ s ∈ source.storeIds, s ∉ target.storeIds
  someStore : ∃ s ∈ target.storeIds, s ≠ 0
  allocated : ∀ n < target.getPeers.length, ∃ id, c.allocID n = .ok id
  noLeader : source.leaderStore ∉ source.storeIds

section
variable {c : Cluster} {source target : RegionInfo} {order : List Nat}

lemma matchAdds_of_shared {adds : Adds} (hs : source.storeIds.Nodup) (ht : target.storeIds.Nodup)
  (hlen : source.getPeers.length = target.getPeers.length)
  (horder : ∀ s, s ∈ order ↔ s ∈ source.storeIds ∧ s ∈ target.storeIds) (hne : order ≠ [])
  (hadds : adds.toAdds.length = (missing order target.getPeers).length) : matchAdds source order adds ≠ none := by
  have hfinal : finalLeader order adds.targetLeader = 0 := if_neg hne
  rw [Ne, (matchAdds_counted ..).eq_none_iff, hfinal, redundant_zero, hadds, length_missing hs ht hlen horder]
  simp

lemma matchAdds_of_disjoint {adds : Adds} (hs : source.storeIds.Nodup)
  (hlen : source.getPeers.length = target.getPeers.length) (hadds : adds.toAdds.length = target.getPeers.length) :
  matchAdds source [] adds = none ↔ adds.targetLeader ≠ 0 ∧ source.leaderStore ∉ source.storeIds := by
  rw [(matchAdds_counted ..).eq_none_iff, hadds, ← hlen]
  show _ < (redundant [] source.leaderStore adds.targetLeader source.getPeers).length +
    (if adds.targetLeader ≠ 0 then 1 else 0) ↔ _
  by_cases h0 : adds.targetLeader = 0
  · have hle : (redundant [] source.leaderStore adds.targetLeader source.getPeers).length ≤
        source.getPeers.length := (length_filter_le _ _).trans (length_filter_le _ _)
    rw [if_neg (not_not.mpr h0)]
    exact ⟨fun h => (by omega), fun h => absurd h0 h.1⟩
  have hcount := length_redundant_nil hs h0
  rw [if_pos h0]
  by_cases hmem : source.leaderStore ∈ source.storeIds
  · rw [if_pos hmem] at hcount
    exact ⟨fun h => (by omega), fun h => absurd hmem h.2⟩
  rw [if_neg hmem] at hcount
  exact ⟨fun _ => ⟨h0, hmem⟩, fun _ => (by omega)⟩

lemma matchAdds_none_iff {adds : Adds} (hs : source.storeIds.Nodup) (ht : target.storeIds.Nodup)
  (hlen : source.getPeers.length = target.getPeers.length)
  (horder : ∀ s, s ∈ order ↔ s ∈ source.storeIds ∧ s ∈ target.storeIds)
  (hadd : addMissing c order ⟨[], 0, 0, 0⟩ target.getPeers = .ok adds) :
  matchAdds source order adds = none ↔ LeaderLost c source target := by
  obtain ⟨hcount, hleader⟩ := addMissing_ok hadd
  rw [length_nil, Nat.zero_add] at hcount
  by_cases hne : order = []
  · subst hne
    rw [missing_nil] at hcount hleader
    have halloc := addMissing_isOk.mp ⟨adds, hadd⟩
    rw [missing_nil] at halloc
    rw [matchAdds_of_disjoint hs hlen hcount]
    constructor
    · rintro ⟨h0, hno⟩
      refine ⟨hlen, fun s hs ht => ?_, ?_, fun n hn => ?_, hno⟩
      · exact absurd ((horder s).mpr ⟨hs, ht⟩) not_mem_nil
      · by_contra hzero
        push Not at hzero
        exact h0 (hleader.mpr ⟨rfl, fun p hp => hzero p.storeId (mem_map_of_mem hp)⟩)
      obtain ⟨id, hid⟩ := halloc n hn
      exact ⟨id, by rwa [Nat.zero_add] at hid⟩
    intro hlost
    refine ⟨fun h0 => ?_, hlost.noLeader⟩
    obtain ⟨s, hs, hne⟩ := hlost.someStore
    obtain ⟨p, hp, rfl⟩ := mem_map.mp hs
    exact hne ((hleader.mp h0).2 p hp)
  refine ⟨fun h => absurd h (matchAdds_of_shared hs ht hlen horder hne hcount), fun hlost => ?_⟩
  obtain ⟨s, hs⟩ := exists_mem_of_ne_nil order hne
  obtain ⟨hs, ht⟩ := (horder s).mp hs
  exact absurd ht (hlost.disjoint s hs)

/-- **Matching returns** exactly if no leader is lost. -/
theorem matchPeerSteps_returns_iff (c : Cluster) (source target : RegionInfo) (order : List Nat)
  (hs : source.storeIds.Nodup) (ht : target.storeIds.Nodup)
  (horder : order.Perm (intersectionStores source.getPeers target.getPeers)) :
  (∃ r, matchPeerSteps c source target order = some r) ↔ ¬ LeaderLost c source target := by
  have hmem : ∀ s, s ∈ order ↔ s ∈ source.storeIds ∧ s ∈ target.storeIds := fun s =>
    horder.mem_iff.trans mem_intersectionStores
  unfold matchPeerSteps
  by_cases hlen : source.getPeers.length = target.getPeers.length
  · rw [if_neg (not_not.mpr hlen)]
    cases hadd : addMissing c order ⟨[], 0, 0, 0⟩ target.getPeers with
    | error =>
      refine ⟨fun _ hlost => ?_, fun _ => ⟨_, rfl⟩⟩
      have hok : ∃ acc', addMissing c order ⟨[], 0, 0, 0⟩ target.getPeers = .ok acc' := by
        refine addMissing_isOk.mpr fun i hi => ?_
        have hi' := hlost.allocated i (Nat.lt_of_lt_of_le hi (length_filter_le _ _))
        rwa [← Nat.zero_add i] at hi'
      obtain ⟨acc', hok⟩ := hok
      rw [hadd] at hok
      cases hok
    | ok =>
      rw [← matchAdds_none_iff hs ht hlen hmem hadd]
      rw [← Option.isSome_iff_exists, Option.isSome_map]
      exact Option.isSome_iff_ne_none
  rw [if_pos hlen]
  exact ⟨fun _ hlost => hlen hlost.sameCount, fun _ => ⟨_, rfl⟩⟩

def loadedRegion (id : Nat) (startKey endKey : Key) (stores : List Nat) : RegionInfo :=
  newRegionInfo ⟨id, startKey, endKey, some ⟨1, 1⟩, stores.map fun s => ⟨10 * id + s, s, false⟩⟩ none

def fourRegions : List RegionInfo :=
  [loadedRegion 1 [] [1] [1, 2, 3], loadedRegion 2 [1] [2] [1, 2, 3], loadedRegion 3 [2] [3] [4, 5, 6],
    loadedRegion 4 [4] [5] [1, 2, 3]]

def sixStores (id : Nat) : Option StoreProto :=
  if 1 ≤ id ∧ id ≤ 6 then some ⟨id, "", .up, [], ""⟩ else none

def smallCluster : Cluster where
  getRegion id := fourRegions.find? fun r => r.getID == id
  getStore := sixStores
  maxReplicas := 3
  isRaftLearnerEnabled := true
  rejectLeader := []
  allocID n := .ok (100 + n)

theorem matchPeerSteps_returns_led :
  ∃ r, matchPeerSteps smallCluster ((loadedRegion 2 [1] [2] [1, 2, 3]).withLeader (some ⟨21, 1, false⟩))
    (loadedRegion 3 [2] [3] [4, 5, 6]) [] = some r :=
  (matchPeerSteps_returns_iff smallCluster _ _ [] (by decide) (by decide) (by decide)).mpr
    fun hlost => hlost.noLeader (by decide)

end
end PD
