import PD.Lib.PairSums
import PD.Schedule.RegionScatterer

/-! # The isolation of scattered regions -/

namespace PD
open List Option
open PairSums
open ScatterCall (storeIds)

def ScatterCall.alone (r : SelectedStores × ScatterCall) (input : ScatterInput) :
    Option (SelectedStores × ScatterCall) := r.2.step r.1 input

namespace ScatterView
variable (v : ScatterView)

def Ends (r : SelectedStores × ScatterCall) (targets : List Peer) : Prop :=
  ∃ inputs selected' c, (∀ i ∈ inputs, i.view = v) ∧ Runs.exec ScatterCall.alone r inputs = some (selected', c) ∧
    c.isDone = true ∧ c.targetPeers = targets

def Placed (region : RegionInfo) (selected : SelectedStores) (stores : List StoreView) (peer target : Peer) : Prop :=
  target = peer ∨ peer.storeId ∈ selected.stores ∧ ∃ guard, v.scoreGuard region peer = some guard ∧
    ∃ s ∈ stores, guard.target v.opt s = false ∧ ∃ id, target = ⟨id, s.getID, false⟩

end ScatterView

namespace ScatterCall

def given (c : ScatterCall) : List Peer :=
  match c.phase with
  | .mark newPeer => c.targetPeers ++ [newPeer]
  | _ => c.targetPeers

structure Since (v : ScatterView) (region : RegionInfo) (selected : SelectedStores) (r : SelectedStores × ScatterCall) :
    Prop where
  inv : r.2.Inv r.1
  region_eq : r.2.region = region
  placed : ∃ done, region.getPeers = done ++ r.2.rest ∧
    Forall₂ (v.Placed region selected (v.collectAvailableStores selected region)) done r.2.given
  selected_before : ∀ id ∈ storeIds r.2.rest, id ∈ r.1.stores → id ∈ selected.stores
  first : r.2.phase = .collect → r.1 = selected
  cleared : r.2.phase = .recollect ∨ r.2.phase = .ready → ∀ id ∈ storeIds r.2.rest, id ∉ r.1.stores
  available : r.2.phase ≠ .collect → (∃ id ∈ storeIds r.2.rest, id ∈ r.1.stores) →
    ∀ s ∈ r.2.stores, s ∈ v.collectAvailableStores selected region

section
variable {v : ScatterView} {region : RegionInfo} {selected : SelectedStores} {r r' : SelectedStores × ScatterCall}
  {input : ScatterInput}
variable {rest : List Peer} {peer newPeer : Peer} {c : ScatterCall} {selected₀ : SelectedStores}

lemma placed_snoc {R : Peer → Peer → Prop} {peers rest' targets : List Peer} {target : Peer}
  (h : ∃ done, peers = done ++ rest ∧ Forall₂ R done targets) (hrest : rest = peer :: rest')
  (hpeer : R peer target) : ∃ done, peers = done ++ rest' ∧ Forall₂ R done (targets ++ [target]) := by
  obtain ⟨done, hpeers, hdone⟩ := h
  refine ⟨done ++ [peer], ?_, rel_append hdone (.cons hpeer .nil)⟩
  rw [hpeers, hrest, append_assoc]
  rfl

lemma given_of_placing (h : c.Placing) : c.given = c.targetPeers := by
  unfold given
  rcases h with ⟨hphase, -⟩ | hphase <;> rw [hphase]

section
variable (h : Since v region selected₀ (selected, c))
include h

lemma Since.keep {selected₁ : SelectedStores} (hplacing : c.Placing)
  (hrest : c.rest = peer :: rest) {stores : List StoreView} (hstores : ∀ s ∈ stores, s ∈ c.stores)
  (hselected : ∀ id ∈ selected₁.stores, id ∈ selected.stores ∨ id = peer.storeId) :
  Since v region selected₀ (selected₁, ⟨c.region, .next, rest, stores, c.targetPeers ++ [peer]⟩) := by
  have hids : storeIds c.rest = peer.storeId :: storeIds rest := congrArg storeIds hrest
  have hnodup := h.inv.rest_nodup
  rw [hids, nodup_cons] at hnodup
  have hmem : ∀ id ∈ storeIds rest, id ∈ storeIds c.rest := fun id hid => hids ▸ mem_cons_of_mem _ hid
  have hbefore : ∀ id ∈ storeIds rest, id ∈ selected₁.stores → id ∈ selected.stores := fun id hid hsel =>
    (hselected id hsel).resolve_right fun e => hnodup.1 (e ▸ hid)
  have hplaced := h.placed
  rw [given_of_placing hplacing] at hplaced
  refine ⟨h.inv.keep hrest hstores hselected, h.region_eq, placed_snoc hplaced hrest (.inl rfl), ?_, nofun, ?_, ?_⟩
  · exact fun id hid hsel => h.selected_before id (hmem id hid) (hbefore id hid hsel)
  · intro hphase
    rcases hphase with hphase | hphase <;> cases hphase
  rintro - ⟨id, hid, hsel⟩ s hs
  rcases hplacing with ⟨hphase, -⟩ | hphase
  · have hphase' : c.phase ≠ .collect := by rw [hphase]; exact nofun
    exact h.available hphase' ⟨id, hmem id hid, hbefore id hid hsel⟩ s (hstores s hs)
  · exact absurd (hbefore id hid hsel) (h.cleared (.inr hphase) id (hmem id hid))

lemma Since.collect
    {phase : ScatterPhase} (hphase : c.phase = .collect ∧ phase = .next ∨ c.phase = .recollect ∧ phase = .ready)
    (hinv : ({ c with phase := phase, stores := v.collectAvailableStores selected c.region } : ScatterCall).Inv
      selected) :
    Since v region selected₀
      (selected, { c with phase := phase, stores := v.collectAvailableStores selected c.region }) := by
  have hgiven : given { c with phase := phase, stores := v.collectAvailableStores selected c.region } = c.given := by
    unfold given
    rcases hphase with ⟨hphase, rfl⟩ | ⟨hphase, rfl⟩ <;> rw [hphase]
  refine ⟨hinv, h.region_eq, hgiven ▸ h.placed, h.selected_before, ?_, ?_, ?_⟩
  · rintro rfl
    rcases hphase with ⟨-, e⟩ | ⟨-, e⟩ <;> cases e
  · intro hready
    rcases hphase with ⟨-, rfl⟩ | ⟨hphase, -⟩
    · rcases hready with e | e <;> cases e
    · exact h.cleared (.inl hphase)
  rintro - ⟨id, hid, hsel⟩ s hs
  rcases hphase with ⟨hphase, -⟩ | ⟨hphase, -⟩
  · rw [← h.first hphase, ← h.region_eq]
    exact hs
  · exact absurd hsel (h.cleared (.inl hphase) id hid)

lemma Since.replace {draw : Nat} {allocID : Except String Nat}
  (hplacing : c.Placing) (hrest : c.rest = peer :: rest) (hput : peer.storeId ∈ selected.stores)
  (hselect : v.selectPeerToReplace c.stores c.region peer draw allocID = some (some newPeer))
  (hinv : (⟨c.region, .mark newPeer, rest, c.delete newPeer.storeId, c.targetPeers⟩ : ScatterCall).Inv selected) :
  Since v region selected₀ (selected, ⟨c.region, .mark newPeer, rest, c.delete newPeer.storeId, c.targetPeers⟩) := by
  have hids : storeIds c.rest = peer.storeId :: storeIds rest := congrArg storeIds hrest
  have hpeer : peer.storeId ∈ storeIds c.rest := hids ▸ mem_cons_self
  have hmem : ∀ id ∈ storeIds rest, id ∈ storeIds c.rest := fun id hid => hids ▸ mem_cons_of_mem _ hid
  have hphase : c.phase = .next := by
    rcases hplacing with ⟨hphase, -⟩ | hphase
    · exact hphase
    · exact absurd hput (h.cleared (.inr hphase) _ hpeer)
  have havailable := h.available (by rw [hphase]; exact nofun)
  obtain ⟨guard, hguard, target, htarget, hpass, hnew⟩ := ScatterView.selectPeerToReplace_some hselect
  rw [h.region_eq] at hguard
  have hplaced := h.placed
  rw [given_of_placing hplacing] at hplaced
  refine ⟨hinv, h.region_eq, placed_snoc hplaced hrest (.inr ⟨h.selected_before _ hpeer hput, guard, hguard, target,
    havailable ⟨_, hpeer, hput⟩ target htarget, hpass, hnew⟩), ?_, nofun, ?_, ?_⟩
  · exact fun id hid => h.selected_before id (hmem id hid)
  · intro e
    rcases e with e | e <;> cases e
  rintro - ⟨id, hid, hsel⟩ s hs
  exact havailable ⟨id, hmem id hid, hsel⟩ s (mem_delete.mp hs).1

lemma Since.mark (hphase : c.phase = .mark newPeer)
    (hinv : ({ c with phase := .next, targetPeers := c.targetPeers ++ [newPeer] } : ScatterCall).Inv
      (selected.put newPeer.storeId).2) :
    Since v region selected₀ ((selected.put newPeer.storeId).2,
      { c with phase := .next, targetPeers := c.targetPeers ++ [newPeer] }) := by
  have hgiven : c.given = c.targetPeers ++ [newPeer] := by
    unfold given
    rw [hphase]
  have hrest : ∀ id ∈ storeIds c.rest, id ∈ (selected.put newPeer.storeId).2.stores → id ∈ selected.stores := by
    intro id hid hsel
    refine (SelectedStores.mem_put.mp hsel).resolve_right fun e => ?_
    exact (h.inv.marked newPeer hphase).1 (h.inv.rest_region _ (e ▸ hid))
  refine ⟨hinv, h.region_eq, hgiven ▸ h.placed, ?_, nofun, ?_, ?_⟩
  · exact fun id hid hsel => h.selected_before id hid (hrest id hid hsel)
  · intro e
    rcases e with e | e <;> cases e
  rintro - ⟨id, hid, hsel⟩
  have hphase' : c.phase ≠ .collect := by rw [hphase]; exact nofun
  exact h.available hphase' ⟨id, hid, hrest id hid hsel⟩

end

lemma Since.moves {c' : ScatterCall} {selected' : SelectedStores} (hview : input.view = v)
  (h : Since v region selected₀ (selected, c)) (hmoves : c.Moves selected input selected' c') :
  Since v region selected₀ (selected', c') := by
  subst hview
  have hinv := h.inv.moves hmoves
  cases hmoves with
  | stays => exact h
  | collects _ hphase => exact h.collect hphase hinv
  | resets hphase =>
    have hgiven : given { c with phase := .recollect } = c.given := by
      unfold given
      rw [hphase]
    refine ⟨hinv, h.region_eq, hgiven ▸ h.placed, ?_, nofun, ?_, ?_⟩
    · exact fun id _ hid => absurd hid not_mem_nil
    · exact fun _ id _ hid => absurd hid not_mem_nil
    rintro - ⟨id, -, hid⟩
    cases hid
  | puts hplacing hrest =>
    exact h.keep hplacing hrest (fun s hs => (mem_delete.mp hs).1) fun id hid => (mem_cons.mp hid).symm
  | keeps hplacing hrest => exact h.keep hplacing hrest (fun s hs => hs) fun id hid => .inl hid
  | replaces hplacing hrest hput hselect => exact h.replace hplacing hrest hput hselect hinv
  | marks hphase => exact h.mark hphase hinv

end
end ScatterCall

section
variable {v : ScatterView} {region : RegionInfo} {selected : SelectedStores} {targets : List Peer}

end

lemma ScatterView.Ends.cons {v : ScatterView} {selected selected' : SelectedStores} {c c' : ScatterCall}
  {input : ScatterInput} {targets : List Peer} (hmoves : c.Moves selected input selected' c') (hview : input.view = v)
  (h : v.Ends (selected', c') targets) : v.Ends (selected, c) targets := by
  obtain ⟨inputs, selected'', c'', hviews, hexec, hend⟩ := h
  refine ⟨input :: inputs, selected'', c'', ?_, Runs.exec_cons_some.mpr ⟨_, hmoves.step_eq, hexec⟩, hend⟩
  intro i hi
  rcases mem_cons.mp hi with rfl | hi
  · exact hview
  · exact hviews i hi

section
variable {v : ScatterView} {region : RegionInfo}
variable {c : ScatterCall} {selected : SelectedStores} {peer : Peer} {rest targets : List Peer}

section
variable (hphase : c.phase = .next) (hrest : c.rest = peer :: rest)
include hphase hrest

end

end

section
variable {α : Type*} {f : Peer → Option α}

def movedBy (f : Peer → Option α) (peers targets : List Peer) : List (α × α) := (peers.zip targets).filterMap fun z =>
    if z.2 = z.1 then none else (f z.1).bind fun s => (f z.2).map fun t => (s, t)

end

section
variable (v : ScatterView) (region : RegionInfo)

namespace ScatterView

def Keyed : Prop := ∀ id s, v.stores.lookup id = some s → s.getID = id
def moved (targets : List Peer) : List (StoreView × StoreView) :=
  movedBy (fun p => v.stores.lookup p.storeId) region.getPeers targets

variable (selected : SelectedStores)

def Fits (targets : List Peer) : Prop :=
  Forall₂ (v.Placed region selected (v.collectAvailableStores selected region)) region.getPeers targets ∧
    (storeIds targets).Nodup

end ScatterView
end

section
variable {v : ScatterView} {region : RegionInfo} {selected : SelectedStores} {targets : List Peer}
  {m : StoreView × StoreView} {a b x y : StoreView}

end

end PD
