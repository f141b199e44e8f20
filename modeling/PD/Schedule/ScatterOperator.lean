import PD.Schedule.Exchanges
import PD.Schedule.MatchPeers

/-! # Scatter operators -/

set_option linter.unusedSectionVars false

namespace PD
open List Option RegionInfo Peer

structure ScatterSteps where
  steps : List OperatorStep
  deferSteps : List OperatorStep
  kind : OperatorKind

def scatterFirst (c : Cluster) (origin : RegionInfo) (replacedPeers : List Peer) (i : Nat) (targetLeader : Peer) :
  Option ScatterSteps :=
  if origin.storeIds.contains targetLeader.storeId then
    if targetLeader.storeId = origin.leaderStore then some ⟨[], [], 0⟩
    else some ⟨[.transferLeader origin.leaderStore targetLeader.storeId], [], .opLeader⟩
  else
    -- the leader is not transferred to the newly added peer at once
    (replacedPeers[i]?).map fun replaced =>
      ⟨createAddLightPeerSteps targetLeader.storeId targetLeader.id c,
        [.transferLeader origin.leaderStore targetLeader.storeId, .removePeer replaced.storeId],
        .opLeader ||| .opRegion⟩

def scatterOthers (c : Cluster) (origin : RegionInfo) (targetLeader : Peer) (replacedPeers : List Peer) :
    Nat → ScatterSteps → List Peer → Option ScatterSteps
  | _, acc, [] => some acc
  | j, acc, peer :: rest =>
    if peer.id = targetLeader.id then scatterOthers c origin targetLeader replacedPeers (j+1) acc rest
    else if origin.storeIds.contains peer.storeId then
      scatterOthers c origin targetLeader replacedPeers (j+1) acc rest
    else
      match replacedPeers[j]? with
      | none => none
      | some replaced =>
        let st := createAddLightPeerSteps peer.storeId peer.id c ++ [.removePeer replaced.storeId]
        if replaced.storeId = origin.leaderStore then
          scatterOthers c origin targetLeader replacedPeers (j+1)
            { acc with deferSteps := acc.deferSteps ++ st, kind := acc.kind ||| (.opRegion ||| .opLeader) } rest
        else
          scatterOthers c origin targetLeader replacedPeers (j+1)
            { acc with steps := acc.steps ++ st, kind := acc.kind ||| .opRegion } rest

def createScatterRegionOperator (desc : String) (c : Cluster) (origin : RegionInfo)
  (replacedPeers targetPeers : List Peer) (i : Nat) : Option (Option Operator) :=
  match targetPeers[i]? with
  | none => none
  | some targetLeader =>
    if targetLeader.storeId == origin.leaderStore && targetPeers.all fun p => origin.storeIds.contains p.storeId then
      some none
    else
      (scatterFirst c origin replacedPeers i targetLeader).bind fun first =>
        (scatterOthers c origin targetLeader replacedPeers 0 first targetPeers).map fun acc =>
          some (newOperator desc origin.getID origin.getMeta.regionEpoch acc.kind (acc.steps ++ acc.deferSteps))

section
variable (c : Cluster) (origin : RegionInfo) (targetLeader : Peer)

def exchangeOf (z : Peer × Peer) : Exchange := ⟨createAddLightPeerSteps z.1.storeId z.1.id c, z.1.storeId, z.2.storeId⟩

def scatterExchanges (deferred : Bool) (pairs : List (Peer × Peer)) : List Exchange :=
  (pairs.filter fun z => decide (z.1.id ≠ targetLeader.id) && !origin.storeIds.contains z.1.storeId &&
    decide (z.2.storeId = origin.leaderStore) == deferred).map (exchangeOf c)

section
variable {c origin targetLeader} {deferred : Bool} {z : Peer × Peer} {pairs : List (Peer × Peer)}

lemma scatterExchanges_skip (h : z.1.id = targetLeader.id ∨ z.1.storeId ∈ origin.storeIds ∨
  decide (z.2.storeId = origin.leaderStore) ≠ deferred) :
  scatterExchanges c origin targetLeader deferred (z :: pairs) =
    scatterExchanges c origin targetLeader deferred pairs := by
  unfold scatterExchanges
  rw [filter_cons, if_neg]
  rcases h with h | h | h <;> simp [h]

lemma scatterExchanges_take (hid : z.1.id ≠ targetLeader.id) (hin : z.1.storeId ∉ origin.storeIds)
  (hlead : decide (z.2.storeId = origin.leaderStore) = deferred) :
  scatterExchanges c origin targetLeader deferred (z :: pairs) =
    exchangeOf c z :: scatterExchanges c origin targetLeader deferred pairs := by
  unfold scatterExchanges
  rw [filter_cons, if_pos, map_cons]
  simp [hid, hin, hlead]

lemma mem_scatterExchanges {x : Exchange} : x ∈ scatterExchanges c origin targetLeader deferred pairs ↔
  ∃ z ∈ pairs, (z.1.id ≠ targetLeader.id ∧ z.1.storeId ∉ origin.storeIds ∧
    decide (z.2.storeId = origin.leaderStore) = deferred) ∧ exchangeOf c z = x := by
  simp [scatterExchanges, and_assoc]

end

lemma scatterOthers_eq {replacedPeers targets : List Peer} {j : Nat} {acc : ScatterSteps}
  (hlen : j + targets.length ≤ replacedPeers.length) :
  ∃ kind, scatterOthers c origin targetLeader replacedPeers j acc targets = some
    ⟨acc.steps ++ (scatterExchanges c origin targetLeader false
        (targets.zip (replacedPeers.drop j))).flatMap Exchange.steps,
      acc.deferSteps ++ (scatterExchanges c origin targetLeader true
        (targets.zip (replacedPeers.drop j))).flatMap Exchange.steps, kind⟩ := by
  induction targets generalizing j acc with
  | nil => exact ⟨acc.kind, by simp [scatterOthers, scatterExchanges]⟩
  | cons t targets ih =>
    rw [length_cons] at hlen
    have hj : j < replacedPeers.length := by omega
    obtain ⟨s, hget, hdrop⟩ : ∃ s, replacedPeers[j]? = some s ∧ replacedPeers.drop j = s :: replacedPeers.drop (j+1) :=
      ⟨_, List.getElem?_eq_getElem hj, drop_eq_getElem_cons hj⟩
    have hlen' : j + 1 + targets.length ≤ replacedPeers.length := by omega
    rw [scatterOthers, hdrop, zip_cons_cons]
    by_cases hid : t.id = targetLeader.id
    · rw [if_pos hid, scatterExchanges_skip (.inl hid), scatterExchanges_skip (.inl hid)]
      exact ih hlen'
    rw [if_neg hid]
    by_cases hin : origin.storeIds.contains t.storeId = true
    · have hin' : t.storeId ∈ origin.storeIds := by simpa using hin
      rw [if_pos hin, scatterExchanges_skip (.inr (.inl hin')), scatterExchanges_skip (.inr (.inl hin'))]
      exact ih hlen'
    have hin' : t.storeId ∉ origin.storeIds := by simpa using hin
    rw [if_neg hin, hget]
    by_cases hlead : s.storeId = origin.leaderStore
    · have hskip : decide (s.storeId = origin.leaderStore) ≠ false := by simp [hlead]
      rw [scatterExchanges_skip (.inr (.inr hskip)),
        scatterExchanges_take hid hin' (decide_eq_true hlead), flatMap_cons, ← append_assoc]
      obtain ⟨kind, h⟩ := @ih (j+1) ⟨acc.steps, acc.deferSteps ++ (exchangeOf c (t, s)).steps,
        acc.kind ||| (.opRegion ||| .opLeader)⟩ hlen'
      exact ⟨kind, (if_pos hlead).trans h⟩
    have hskip : decide (s.storeId = origin.leaderStore) ≠ true := by simp [hlead]
    rw [scatterExchanges_take hid hin' (decide_eq_false hlead), scatterExchanges_skip (.inr (.inr hskip)),
      flatMap_cons, ← append_assoc]
    obtain ⟨kind, h⟩ := @ih (j+1) ⟨acc.steps ++ (exchangeOf c (t, s)).steps, acc.deferSteps,
      acc.kind ||| .opRegion⟩ hlen'
    exact ⟨kind, (if_neg hlead).trans h⟩

end

structure Scattering (origin : RegionInfo) (targets : List Peer) : Prop where
  nodup : origin.storeIds.Nodup
  leader : origin.leaderStore ∈ origin.storeIds
  pairs : List.Forall₂ (fun t s => t = s ∨
    t.storeId ∉ origin.storeIds ∧ ∀ p ∈ origin.pendingPeers, p.id ≠ t.id) targets origin.getPeers
  stores : (targets.map storeId).Nodup
  ids : (targets.map Peer.id).Nodup

namespace Scattering

section
variable {origin : RegionInfo} {targets : List Peer} {z z' : Peer × Peer} (h : Scattering origin targets)
include h

lemma pair (hz : z ∈ targets.zip origin.getPeers) :
  z.1 = z.2 ∨ z.1.storeId ∉ origin.storeIds ∧ ∀ p ∈ origin.pendingPeers, p.id ≠ z.1.id :=
  (forall₂_iff_zip.mp h.pairs).2 hz

lemma map_fst : (targets.zip origin.getPeers).map Prod.fst = targets := map_fst_zip h.pairs.length_eq.le
lemma map_snd : (targets.zip origin.getPeers).map Prod.snd = origin.getPeers := map_snd_zip h.pairs.length_eq.ge

section
variable (hz : z ∈ targets.zip origin.getPeers) (hz' : z' ∈ targets.zip origin.getPeers)
include hz hz'

lemma new_inj (e : z.1.storeId = z'.1.storeId) : z = z' := by
  have hnodup : ((targets.zip origin.getPeers).map fun z => z.1.storeId).Nodup := by
    have := h.stores
    rwa [← h.map_fst, List.map_map] at this
  exact inj_on_of_nodup_map hnodup hz hz' e

lemma old_inj (e : z.2.storeId = z'.2.storeId) : z = z' := by
  have hnodup : ((targets.zip origin.getPeers).map fun z => z.2.storeId).Nodup := by
    have : (origin.getPeers.map storeId).Nodup := h.nodup
    rwa [← h.map_snd, List.map_map] at this
  exact inj_on_of_nodup_map hnodup hz hz' e

lemma id_inj (e : z.1.id = z'.1.id) : z = z' := by
  have hnodup : ((targets.zip origin.getPeers).map fun z => z.1.id).Nodup := by
    have := h.ids
    rwa [← h.map_fst, List.map_map] at this
  exact inj_on_of_nodup_map hnodup hz hz' e

end

lemma old_mem (hz : z ∈ targets.zip origin.getPeers) : z.2.storeId ∈ origin.storeIds := by
  have hmem : z.2 ∈ (targets.zip origin.getPeers).map Prod.snd := List.mem_map_of_mem hz
  rw [h.map_snd] at hmem
  exact List.mem_map_of_mem hmem

lemma mem_targets (s : Nat) : s ∈ targets.map storeId ↔
  (s ∈ origin.storeIds ∧ ¬ ∃ z ∈ targets.zip origin.getPeers, z.1.storeId ∉ origin.storeIds ∧ z.2.storeId = s) ∨
    ∃ z ∈ targets.zip origin.getPeers, z.1.storeId ∉ origin.storeIds ∧ z.1.storeId = s := by
  constructor
  · intro hs
    rw [← h.map_fst, List.map_map] at hs
    obtain ⟨z, hz, rfl⟩ := List.mem_map.mp hs
    by_cases hout : z.1.storeId ∈ origin.storeIds
    · refine .inl ⟨hout, fun hex => ?_⟩
      obtain ⟨z', hz', hout', e⟩ := hex
      have hsame : z.1 = z.2 := (h.pair hz).resolve_right fun h => h.1 hout
      have e' : z'.2.storeId = z.2.storeId := e.trans (congrArg storeId hsame)
      exact hout' (h.old_inj hz' hz e' ▸ hout)
    · exact .inr ⟨z, hz, hout, rfl⟩
  rintro (⟨hs, hkept⟩ | ⟨z, hz, -, rfl⟩)
  · have hs' : s ∈ origin.getPeers.map storeId := hs
    rw [← h.map_snd, List.map_map] at hs'
    obtain ⟨z, hz, rfl⟩ := List.mem_map.mp hs'
    have hsame : z.1 = z.2 := (h.pair hz).resolve_right fun hout => hkept ⟨z, hz, hout.1, rfl⟩
    have hmem : z.1.storeId ∈ targets.map storeId := by
      rw [← h.map_fst, List.map_map]
      exact List.mem_map_of_mem hz
    rw [hsame] at hmem
    exact hmem
  rw [← h.map_fst, List.map_map]
  exact List.mem_map_of_mem hz

end
end Scattering

section
variable {c : Cluster} {origin : RegionInfo} {targets : List Peer} {zi : Peer × Peer} {k : Nat} {p : Placement}
variable {targetLeader : Peer} {deferred : Bool} {s : Nat}

def ExchangedOf (f : Peer × Peer → Nat) (origin : RegionInfo) (targets : List Peer) (targetLeader : Peer)
  (deferred : Bool) (s : Nat) : Prop :=
  ∃ z ∈ targets.zip origin.getPeers, (z.1.id ≠ targetLeader.id ∧ z.1.storeId ∉ origin.storeIds ∧
    decide (z.2.storeId = origin.leaderStore) = deferred) ∧ f z = s

abbrev NewOf := ExchangedOf fun z => z.1.storeId
abbrev OldOf := ExchangedOf fun z => z.2.storeId

lemma mem_map_scatterExchanges {f : Exchange → Nat} :
  s ∈ (scatterExchanges c origin targetLeader deferred (targets.zip origin.getPeers)).map f ↔
    ExchangedOf (fun z => f (exchangeOf c z)) origin targets targetLeader deferred s := by
  rw [List.mem_map]
  constructor
  · rintro ⟨x, hx, rfl⟩
    obtain ⟨z, hz, hcond, rfl⟩ := mem_scatterExchanges.mp hx
    exact ⟨z, hz, hcond, rfl⟩
  rintro ⟨z, hz, hcond, rfl⟩
  exact ⟨exchangeOf c z, mem_scatterExchanges.mpr ⟨z, hz, hcond, rfl⟩, rfl⟩

lemma reaches_scatterExchanges (h : Scattering origin targets) (targetLeader : Peer) (deferred : Bool)
  (hpending : p.pending = origin.placement.pending)
  (hout : ∀ s, NewOf origin targets targetLeader deferred s → s ∉ p.stores)
  (hin : ∀ s, OldOf origin targets targetLeader deferred s → s ∈ p.stores ∧ s ≠ p.leader) (hsafe : p.Safe k) :
  ∃ q, Runs.Reaches Placement.place (Placement.Safe k) p
      ((scatterExchanges c origin targetLeader deferred (targets.zip origin.getPeers)).flatMap Exchange.steps) q ∧
    (∀ s, s ∈ q.stores ↔ (s ∈ p.stores ∧ ¬ OldOf origin targets targetLeader deferred s) ∨
      NewOf origin targets targetLeader deferred s) ∧
    q.leader = p.leader ∧ q.pending = p.pending ∧ q.stores.card = p.stores.card := by
  have hnew : ∀ x ∈ scatterExchanges c origin targetLeader deferred (targets.zip origin.getPeers),
      NewOf origin targets targetLeader deferred x.new := fun x hx =>
    (mem_map_scatterExchanges (f := Exchange.new)).mp (List.mem_map_of_mem hx)
  have hold : ∀ x ∈ scatterExchanges c origin targetLeader deferred (targets.zip origin.getPeers),
      OldOf origin targets targetLeader deferred x.old := fun x hx =>
    (mem_map_scatterExchanges (f := Exchange.old)).mp (List.mem_map_of_mem hx)
  have hadds : ∀ x ∈ scatterExchanges c origin targetLeader deferred (targets.zip origin.getPeers),
      AddsOn p.pending x.adds x.new := fun x hx => by
    obtain ⟨z, hz, hcond, rfl⟩ := mem_scatterExchanges.mp hx
    rcases h.pair hz with e | hfresh
    · exact absurd (e ▸ h.old_mem hz) hcond.2.1
    · exact addsOn_addLightPeerSteps c _ (hpending ▸ not_mem_pending hfresh.2)
  have hnodup : ((scatterExchanges c origin targetLeader deferred (targets.zip origin.getPeers)).map
      Exchange.new).Nodup ∧ ((scatterExchanges c origin targetLeader deferred (targets.zip origin.getPeers)).map
      Exchange.old).Nodup := by
    unfold scatterExchanges
    rw [List.map_map, List.map_map]
    constructor
    · have hs := h.stores
      rw [← h.map_fst, List.map_map] at hs
      exact hs.sublist (filter_sublist.map _)
    have hs : (origin.getPeers.map storeId).Nodup := h.nodup
    rw [← h.map_snd, List.map_map] at hs
    exact hs.sublist (filter_sublist.map _)
  obtain ⟨q, hq, hstores, hkeep⟩ := reaches_exchanges hadds hnodup.1 (fun x hx => hout _ (hnew x hx)) hnodup.2
    (fun x hx => (hin _ (hold x hx)).1) (fun x hx => (hin _ (hold x hx)).2) hsafe
  refine ⟨q, hq, fun s => ?_, hkeep⟩
  rw [hstores s, mem_map_scatterExchanges, mem_map_scatterExchanges]
  exact Iff.rfl

section
variable (h : Scattering origin targets) (hzi : zi ∈ targets.zip origin.getPeers) {deferred : Bool} {s : Nat}
include h hzi

lemma NewOf.out (hs : NewOf origin targets zi.1 deferred s) : s ∉ origin.storeIds ∧ s ≠ zi.1.storeId := by
  obtain ⟨z, hz, hcond, rfl⟩ := hs
  exact ⟨hcond.2.1, fun e => hcond.1 (congrArg (fun z => z.1.id) (h.new_inj hz hzi e))⟩

lemma OldOf.inside (hs : OldOf origin targets zi.1 deferred s) : s ∈ origin.storeIds ∧ s ≠ zi.2.storeId := by
  obtain ⟨z, hz, hcond, rfl⟩ := hs
  exact ⟨h.old_mem hz, fun e => hcond.1 (congrArg (fun z => z.1.id) (h.old_inj hz hzi e))⟩

lemma OldOf.leader (hs : OldOf origin targets zi.1 deferred s) : decide (s = origin.leaderStore) = deferred := by
  obtain ⟨z, hz, hcond, rfl⟩ := hs
  exact hcond.2.2

lemma NewOf.apart (hs : NewOf origin targets zi.1 true s) : ¬ NewOf origin targets zi.1 false s := by
  obtain ⟨z, hz, hcond, rfl⟩ := hs
  rintro ⟨z', hz', hcond', e⟩
  rw [h.new_inj hz' hz e, hcond.2.2] at hcond'
  exact absurd hcond'.2.2 (by simp)

lemma exchanged_iff (f : Peer × Peer → Nat) :
  (∃ z ∈ targets.zip origin.getPeers, z.1.storeId ∉ origin.storeIds ∧ f z = s) ↔
  ExchangedOf f origin targets zi.1 false s ∨ ExchangedOf f origin targets zi.1 true s ∨
    zi.1.storeId ∉ origin.storeIds ∧ f zi = s := by
  constructor
  · rintro ⟨z, hz, hout, rfl⟩
    by_cases hid : z.1.id = zi.1.id
    · rw [← h.id_inj hz hzi hid]
      exact .inr (.inr ⟨hout, rfl⟩)
    by_cases hlead : z.2.storeId = origin.leaderStore
    · exact .inr (.inl ⟨z, hz, ⟨hid, hout, decide_eq_true hlead⟩, rfl⟩)
    · exact .inl ⟨z, hz, ⟨hid, hout, decide_eq_false hlead⟩, rfl⟩
  rintro (⟨z, hz, hcond, rfl⟩ | ⟨z, hz, hcond, rfl⟩ | ⟨hout, rfl⟩)
  · exact ⟨z, hz, hcond.2.1, rfl⟩
  · exact ⟨z, hz, hcond.2.1, rfl⟩
  · exact ⟨zi, hzi, hout, rfl⟩

lemma mem_targets_kept (hin : zi.1.storeId ∈ origin.storeIds) : s ∈ targets.map storeId ↔
  (((s ∈ origin.storeIds ∧ ¬ OldOf origin targets zi.1 false s) ∨ NewOf origin targets zi.1 false s) ∧
    ¬ OldOf origin targets zi.1 true s) ∨ NewOf origin targets zi.1 true s := by
  rw [h.mem_targets s, exchanged_iff h hzi fun z => z.2.storeId, exchanged_iff h hzi fun z => z.1.storeId]
  have h1 : NewOf origin targets zi.1 false s → ¬ OldOf origin targets zi.1 true s := fun hs hs' =>
    (hs.out h hzi).1 (hs'.inside h hzi).1
  simp only [hin, not_true_eq_false, false_and, or_false]
  tauto

lemma mem_targets_moved (hout : zi.1.storeId ∉ origin.storeIds) : s ∈ targets.map storeId ↔
  ((s ≠ zi.2.storeId ∧ (((s = zi.1.storeId ∨ s ∈ origin.storeIds) ∧ ¬ OldOf origin targets zi.1 false s) ∨
    NewOf origin targets zi.1 false s)) ∧ ¬ OldOf origin targets zi.1 true s) ∨ NewOf origin targets zi.1 true s := by
  rw [h.mem_targets s, exchanged_iff h hzi fun z => z.2.storeId, exchanged_iff h hzi fun z => z.1.storeId]
  simp only [hout, not_false_eq_true, true_and, eq_comm]
  by_cases hs : s ∈ origin.storeIds
  · have h1 : ¬ NewOf origin targets zi.1 false s := fun hn => (hn.out h hzi).1 hs
    have h2 : ¬ NewOf origin targets zi.1 true s := fun hn => (hn.out h hzi).1 hs
    have h3 : s ≠ zi.1.storeId := fun e => hout (e ▸ hs)
    simp only [hs, h1, h2, h3]
    tauto
  have h1 : ¬ OldOf origin targets zi.1 false s := fun ho => hs (ho.inside h hzi).1
  have h2 : ¬ OldOf origin targets zi.1 true s := fun ho => hs (ho.inside h hzi).1
  have h3 : s ≠ zi.2.storeId := fun e => hs (e ▸ h.old_mem hzi)
  simp only [hs, h1, h2]
  tauto

lemma reaches_kept (hin : zi.1.storeId ∈ origin.storeIds) (hsafe : origin.placement.Safe k) :
  ∃ q, Runs.Reaches Placement.place (Placement.Safe k) origin.placement
      ((if zi.1.storeId = origin.leaderStore then ([] : List OperatorStep)
          else [.transferLeader origin.leaderStore zi.1.storeId]) ++
        (scatterExchanges c origin zi.1 false (targets.zip origin.getPeers)).flatMap Exchange.steps ++
        (scatterExchanges c origin zi.1 true (targets.zip origin.getPeers)).flatMap Exchange.steps) q ∧
    (∀ s, s ∈ q.stores ↔ s ∈ targets.map storeId) ∧ q.leader = zi.1.storeId := by
  have hsame : zi.1 = zi.2 := (h.pair hzi).resolve_right fun hout => hout.1 hin
  obtain ⟨p, hp, hstores, hpending, hleader⟩ : ∃ p, Runs.Reaches Placement.place (Placement.Safe k)
      origin.placement (if zi.1.storeId = origin.leaderStore then ([] : List OperatorStep)
        else [.transferLeader origin.leaderStore zi.1.storeId]) p ∧ p.stores = origin.placement.stores ∧
      p.pending = origin.placement.pending ∧ p.leader = zi.1.storeId := by
    split
    next e => exact ⟨origin.placement, Runs.Reaches.nil hsafe, rfl, rfl, e.symm⟩
    · exact ⟨_, reaches_transferLeader origin.leaderStore (mem_placement_stores.mpr hin) hsafe, rfl, rfl, rfl⟩
  have hmem : ∀ s, s ∈ p.stores ↔ s ∈ origin.storeIds := fun s => hstores ▸ mem_placement_stores
  obtain ⟨q, hq, hqs, hql, hqp, -⟩ := reaches_scatterExchanges (c := c) h zi.1 false hpending
    (fun s hs hs' => (hs.out h hzi).1 ((hmem s).mp hs'))
    (fun s hs => ⟨(hmem s).mpr (hs.inside h hzi).1, by
      rw [hleader, hsame]
      exact (hs.inside h hzi).2⟩) hp.last
  obtain ⟨q', hq', hqs', hql', -, -⟩ := reaches_scatterExchanges (c := c) h zi.1 true (hqp.trans hpending)
    (fun s hs hs' => by
      rcases (hqs s).mp hs' with hs' | hs'
      · exact (hs.out h hzi).1 ((hmem s).mp hs'.1)
      · exact hs.apart h hzi hs')
    (fun s hs => ⟨(hqs s).mpr (.inl ⟨(hmem s).mpr (hs.inside h hzi).1, fun hs' => by
        have h1 := hs.leader h hzi
        rw [hs'.leader h hzi] at h1
        cases h1⟩), by
      rw [hql, hleader, hsame]
      exact (hs.inside h hzi).2⟩) hq.last
  refine ⟨q', (hp.append hq).append hq', fun s => ?_, hql'.trans (hql.trans hleader)⟩
  rw [hqs' s, hqs s, hmem s]
  exact (mem_targets_kept h hzi hin).symm

lemma reaches_moved (hout : zi.1.storeId ∉ origin.storeIds) (hsafe : origin.placement.Safe k) :
  ∃ q, Runs.Reaches Placement.place (Placement.Safe k) origin.placement
      (createAddLightPeerSteps zi.1.storeId zi.1.id c ++
        (scatterExchanges c origin zi.1 false (targets.zip origin.getPeers)).flatMap Exchange.steps ++
        ([.transferLeader origin.leaderStore zi.1.storeId, .removePeer zi.2.storeId] ++
        (scatterExchanges c origin zi.1 true (targets.zip origin.getPeers)).flatMap Exchange.steps)) q ∧
    (∀ s, s ∈ q.stores ↔ s ∈ targets.map storeId) ∧ q.leader = zi.1.storeId := by
  have hfresh : zi.1.id ∉ origin.placement.pending := by
    rcases h.pair hzi with e | hfresh
    · exact absurd (e ▸ h.old_mem hzi) hout
    · exact not_mem_pending hfresh.2
  have hnew : zi.1.storeId ∉ origin.placement.stores := fun hs => hout (mem_placement_stores.mp hs)
  have hadd := reaches_addLightPeerSteps c hnew hfresh hsafe
  have hmem : ∀ s, s ∈ (origin.placement.add zi.1.storeId).stores ↔ s = zi.1.storeId ∨ s ∈ origin.storeIds := by
    intro s
    show s ∈ insert zi.1.storeId origin.placement.stores ↔ _
    rw [Finset.mem_insert, mem_placement_stores]
  have hcard : (origin.placement.add zi.1.storeId).stores.card = origin.placement.stores.card + 1 :=
    Finset.card_insert_of_notMem hnew
  obtain ⟨q, hq, hqs, hql, hqp, hqc⟩ := reaches_scatterExchanges (c := c)
    (p := origin.placement.add zi.1.storeId) h zi.1 false rfl
    (fun s hs hs' => ((hmem s).mp hs').elim (hs.out h hzi).2 (hs.out h hzi).1)
    (fun s hs => ⟨(hmem s).mpr (.inr (hs.inside h hzi).1), fun e => by
      have hlead := hs.leader h hzi
      rw [decide_eq_false_iff_not] at hlead
      exact hlead e⟩) hadd.last
  have hti : zi.1.storeId ∈ q.stores :=
    (hqs _).mpr (.inl ⟨(hmem _).mpr (.inl rfl), fun hs => hout (hs.inside h hzi).1⟩)
  have hne : zi.1.storeId ≠ zi.2.storeId := fun e => hout (e ▸ h.old_mem hzi)
  have hroom : k + 1 ≤ q.stores.card := by
    rw [hqc, hcard]
    exact Nat.succ_le_succ hsafe.1
  have hover := reaches_handOver origin.leaderStore hti hne hroom hq.last
  have hmem' : ∀ s, s ∈ ((q.lead zi.1.storeId).drop zi.2.storeId).stores ↔ s ≠ zi.2.storeId ∧ s ∈ q.stores := by
    intro s
    exact Finset.mem_erase
  obtain ⟨q', hq', hqs', hql', -, -⟩ := reaches_scatterExchanges (c := c)
    (p := (q.lead zi.1.storeId).drop zi.2.storeId) h zi.1 true hqp
    (fun s hs hs' => by
      rcases (hqs s).mp ((hmem' s).mp hs').2 with hs' | hs'
      · exact ((hmem s).mp hs'.1).elim (hs.out h hzi).2 (hs.out h hzi).1
      · exact hs.apart h hzi hs')
    (fun s hs => ⟨(hmem' s).mpr ⟨(hs.inside h hzi).2, (hqs s).mpr (.inl
        ⟨(hmem s).mpr (.inr (hs.inside h hzi).1), fun hs' => by
          have h1 := hs.leader h hzi
          rw [hs'.leader h hzi] at h1
          cases h1⟩)⟩, fun e : s = zi.1.storeId => hout (e ▸ (hs.inside h hzi).1)⟩) hover.last
  refine ⟨q', (hadd.append hq).append (hover.append hq'), fun s => ?_, hql'⟩
  rw [hqs' s, hmem' s, hqs s, hmem s]
  exact (mem_targets_moved h hzi hout).symm

end
end

section
variable {c : Cluster} {origin : RegionInfo} {targets : List Peer} {zi : Peer × Peer} {i k : Nat}

lemma createScatterRegionOperator_some (desc : String) (c : Cluster) (zi : Peer × Peer)
  (hlen : targets.length = origin.getPeers.length)
  (hget : targets[i]? = some zi.1) (hold : origin.getPeers[i]? = some zi.2)
  (hmove : ¬ (zi.1.storeId == origin.leaderStore && targets.all fun p => origin.storeIds.contains p.storeId) = true) :
  ∃ first op, scatterFirst c origin origin.getPeers i zi.1 = some first ∧
    createScatterRegionOperator desc c origin origin.getPeers targets i = some (some op) ∧ op.rest = (first.steps ++
        (scatterExchanges c origin zi.1 false (targets.zip origin.getPeers)).flatMap Exchange.steps) ++
      (first.deferSteps ++
        (scatterExchanges c origin zi.1 true (targets.zip origin.getPeers)).flatMap Exchange.steps) := by
  obtain ⟨first, hfirst⟩ : ∃ first, scatterFirst c origin origin.getPeers i zi.1 = some first := by
    unfold scatterFirst
    rw [hold]
    split
    · split <;> exact ⟨_, rfl⟩
    · exact ⟨_, rfl⟩
  have hle : 0 + targets.length ≤ origin.getPeers.length := by omega
  obtain ⟨kind, hothers⟩ := @scatterOthers_eq c origin zi.1 origin.getPeers targets 0 first hle
  rw [drop_zero] at hothers
  unfold createScatterRegionOperator
  rw [hget]
  dsimp only
  rw [if_neg hmove, hfirst, bind_some, hothers]
  exact ⟨first, _, rfl, rfl, rfl⟩

lemma reaches_scatter {first : ScatterSteps} (h : Scattering origin targets)
  (hzi : zi ∈ targets.zip origin.getPeers) (hold : origin.getPeers[i]? = some zi.2)
  (hfirst : scatterFirst c origin origin.getPeers i zi.1 = some first) (hsafe : origin.placement.Safe k) :
  ∃ q, Runs.Reaches Placement.place (Placement.Safe k) origin.placement ((first.steps ++
        (scatterExchanges c origin zi.1 false (targets.zip origin.getPeers)).flatMap Exchange.steps) ++
      (first.deferSteps ++
        (scatterExchanges c origin zi.1 true (targets.zip origin.getPeers)).flatMap Exchange.steps)) q ∧
    (∀ s, s ∈ q.stores ↔ s ∈ targets.map storeId) ∧ q.leader = zi.1.storeId := by
  unfold scatterFirst at hfirst
  rw [hold] at hfirst
  split at hfirst
  next hin =>
    have hin : zi.1.storeId ∈ origin.storeIds := by simpa using hin
    have hsteps : first.deferSteps = [] ∧ first.steps = if zi.1.storeId = origin.leaderStore then []
        else [.transferLeader origin.leaderStore zi.1.storeId] := by
      split at hfirst
      next e =>
        cases hfirst
        exact ⟨rfl, (if_pos e).symm⟩
      next e =>
        cases hfirst
        exact ⟨rfl, (if_neg e).symm⟩
    rw [hsteps.1, hsteps.2, nil_append]
    exact reaches_kept h hzi hin hsafe
  next hout =>
    cases hfirst
    exact reaches_moved h hzi (by simpa using hout) hsafe

end

/-- **Scattering** ends on the targets, with no fewer peers on the way. -/
theorem scatter_executes (desc : String) (c : Cluster) (origin : RegionInfo) (targets : List Peer) (i : Nat)
  (h : Scattering origin targets) (hi : i < targets.length) : ∃ result chosen, targets[i]? = some chosen ∧
    createScatterRegionOperator desc c origin origin.getPeers targets i = some result ∧
    (∀ op, result = some op → ∃ origin', Executes origin op origin' ∧
      origin'.storeIds.Perm (targets.map storeId) ∧ origin'.leaderStore = chosen.storeId ∧
      ∀ n r o, applyOperator n origin op = some (r, o) → origin.getPeers.length ≤ r.getPeers.length) ∧
    (result = none → origin.storeIds.Perm (targets.map storeId) ∧ origin.leaderStore = chosen.storeId) := by
  have hlen := h.pairs.length_eq
  have hi' : i < origin.getPeers.length := hlen ▸ hi
  obtain ⟨t, hget⟩ : ∃ t, targets[i]? = some t := ⟨_, List.getElem?_eq_getElem hi⟩
  obtain ⟨s, hold⟩ : ∃ s, origin.getPeers[i]? = some s := ⟨_, List.getElem?_eq_getElem hi'⟩
  have hzi : (t, s) ∈ targets.zip origin.getPeers := List.mem_of_getElem? (List.getElem?_zip_eq_some.mpr ⟨hget, hold⟩)
  by_cases hsame : (t.storeId == origin.leaderStore && targets.all fun p => origin.storeIds.contains p.storeId) = true
  · -- nothing is to be done
    refine ⟨none, t, hget, ?_, fun op hop => (by cases hop), fun _ => ?_⟩
    · unfold createScatterRegionOperator
      rw [hget]
      exact if_pos hsame
    obtain ⟨hlead, hall⟩ := Bool.and_eq_true_iff.mp hsame
    have hin : ∀ z ∈ targets.zip origin.getPeers, z.1.storeId ∈ origin.storeIds := fun z hz => by
      have hmem : z.1 ∈ targets := by
        rw [← h.map_fst]
        exact List.mem_map_of_mem hz
      simpa using List.all_eq_true.mp hall z.1 hmem
    refine ⟨(perm_ext_iff_of_nodup h.nodup h.stores).mpr fun a => ?_, (beq_iff_eq.mp hlead).symm⟩
    rw [h.mem_targets a]
    constructor
    · exact fun ha => .inl ⟨ha, fun ⟨z, hz, hout, _⟩ => hout (hin z hz)⟩
    rintro (ha | ⟨z, hz, hout, -⟩)
    · exact ha.1
    · exact absurd (hin z hz) hout
  obtain ⟨first, op, hfirst, hop, hrest⟩ := createScatterRegionOperator_some desc c (t, s) hlen hget hold hsame
  refine ⟨some op, t, hget, hop, fun op' hop' => ?_, fun hnone => (by cases hnone)⟩
  cases hop'
  obtain ⟨q, hq, hstores, hlead⟩ := reaches_scatter h hzi hold hfirst
    (safe_placement h.nodup h.leader (Nat.le_refl _))
  rw [← hrest] at hq
  obtain ⟨origin', hexec, hnodup, hmem, hleader, halong⟩ := executes_safely h.nodup hq
  refine ⟨origin', hexec, ?_, hleader.trans hlead, fun n r o hn => (halong n r o hn).2⟩
  exact (perm_ext_iff_of_nodup hnodup h.stores).mpr fun a => (hmem a).trans (hstores a)

theorem scatter_executes_moved : ∃ op origin', createScatterRegionOperator "" smallCluster
    ((loadedRegion 2 [1] [2] [1, 2, 3]).withLeader (some ⟨21, 1, false⟩))
    ((loadedRegion 2 [1] [2] [1, 2, 3]).withLeader (some ⟨21, 1, false⟩)).getPeers
    [⟨101, 5, false⟩, ⟨102, 4, false⟩, ⟨23, 3, false⟩] 1 = some (some op) ∧
  Executes ((loadedRegion 2 [1] [2] [1, 2, 3]).withLeader (some ⟨21, 1, false⟩)) op origin' ∧
  origin'.storeIds.Perm [5, 4, 3] ∧ origin'.leaderStore = 4 := by
  obtain ⟨result, chosen, hchosen, hresult, hop, -⟩ := scatter_executes "" smallCluster
    ((loadedRegion 2 [1] [2] [1, 2, 3]).withLeader (some ⟨21, 1, false⟩))
    [⟨101, 5, false⟩, ⟨102, 4, false⟩, ⟨23, 3, false⟩] 1
    ⟨by decide, by decide,
      List.Forall₂.cons (.inr ⟨by decide, fun p hp => by cases hp⟩)
        (List.Forall₂.cons (.inr ⟨by decide, fun p hp => by cases hp⟩)
          (List.Forall₂.cons (.inl rfl) List.Forall₂.nil)), by decide, by decide⟩ (by decide)
  obtain rfl : (⟨102, 4, false⟩ : Peer) = chosen := some.inj hchosen
  obtain ⟨origin', hexec, hperm, hleader, -⟩ := hop _ (some.inj hresult).symm
  exact ⟨_, origin', rfl, hexec, hperm, hleader⟩

end PD
