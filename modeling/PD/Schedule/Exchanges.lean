import PD.Schedule.Placements

/-! # Exchanges of peers -/

namespace PD
open List

def AddsOn (pending : Finset Nat) (adds : List OperatorStep) (s : Nat) : Prop :=
  ∀ (p : Placement) (k : Nat), p.pending = pending → s ∉ p.stores → p.Safe k →
    Runs.Reaches Placement.place (Placement.Safe k) p adds (p.add s)

structure Exchange where
  adds : List OperatorStep
  new : Nat
  old : Nat

def Exchange.steps (x : Exchange) : List OperatorStep := x.adds ++ [.removePeer x.old]

section
variable {pending : Finset Nat} {s id k : Nat} {p : Placement}

lemma addsOn_addPeerSteps (c : Cluster) (s : Nat) (hid : id ∉ pending) :
  AddsOn pending (createAddPeerSteps s id c) s := by
  intro p k hp hs hsafe
  exact reaches_addPeerSteps c hs (hp ▸ hid) hsafe

lemma addsOn_addLightPeerSteps (c : Cluster) (s : Nat) (hid : id ∉ pending) :
  AddsOn pending (createAddLightPeerSteps s id c) s := by
  intro p k hp hs hsafe
  exact reaches_addLightPeerSteps c hs (hp ▸ hid) hsafe

lemma reaches_exchange {x : Exchange} (hadds : AddsOn p.pending x.adds x.new) (hnew : x.new ∉ p.stores)
  (hold : x.old ∈ p.stores) (hleader : x.old ≠ p.leader) (hsafe : p.Safe k) :
  Runs.Reaches Placement.place (Placement.Safe k) p x.steps ((p.add x.new).drop x.old) ∧
    ((p.add x.new).drop x.old).stores.card = p.stores.card := by
  have hcard : (p.add x.new).stores.card = p.stores.card + 1 := Finset.card_insert_of_notMem hnew
  constructor
  · refine (hadds p k rfl hnew hsafe).append (reaches_removePeer hleader.symm ?_ (hsafe.add x.new))
    rw [hcard]
    exact Nat.succ_le_succ hsafe.1
  have hmem : x.old ∈ (p.add x.new).stores := Finset.mem_insert_of_mem hold
  show ((p.add x.new).stores.erase x.old).card = _
  rw [Finset.card_erase_of_mem hmem, hcard]
  rfl

lemma reaches_exchanges {xs : List Exchange} (hadds : ∀ x ∈ xs, AddsOn p.pending x.adds x.new)
  (hnews : (xs.map Exchange.new).Nodup) (hout : ∀ x ∈ xs, x.new ∉ p.stores) (holds : (xs.map Exchange.old).Nodup)
  (hin : ∀ x ∈ xs, x.old ∈ p.stores) (hleader : ∀ x ∈ xs, x.old ≠ p.leader) (hsafe : p.Safe k) :
  ∃ q, Runs.Reaches Placement.place (Placement.Safe k) p (xs.flatMap Exchange.steps) q ∧
    (∀ s, s ∈ q.stores ↔ (s ∈ p.stores ∧ s ∉ xs.map Exchange.old) ∨ s ∈ xs.map Exchange.new) ∧
    q.leader = p.leader ∧ q.pending = p.pending ∧ q.stores.card = p.stores.card := by
  induction xs generalizing p with
  | nil => exact ⟨p, Runs.Reaches.nil hsafe, fun s => by simp, rfl, rfl, rfl⟩
  | cons x xs ih =>
    obtain ⟨hnew, hnews⟩ := nodup_cons.mp hnews
    obtain ⟨hold, holds⟩ := nodup_cons.mp holds
    obtain ⟨hx, hcard⟩ := reaches_exchange (hadds x mem_cons_self) (hout x mem_cons_self)
      (hin x mem_cons_self) (hleader x mem_cons_self) hsafe
    have hne : x.new ≠ x.old := fun e => hout x mem_cons_self (e ▸ hin x mem_cons_self)
    have hmem : ∀ s, s ∈ ((p.add x.new).drop x.old).stores ↔ s ≠ x.old ∧ (s = x.new ∨ s ∈ p.stores) := by
      intro s
      show s ∈ (insert x.new p.stores).erase x.old ↔ _
      rw [Finset.mem_erase, Finset.mem_insert]
    obtain ⟨q, hq, hstores, hlead, hpending, hcount⟩ := ih (p := (p.add x.new).drop x.old)
      (fun y hy => hadds y (mem_cons_of_mem _ hy)) hnews
      (fun y hy hmem' => by
        rcases ((hmem y.new).mp hmem').2 with e | h
        · exact hnew (e ▸ List.mem_map_of_mem hy)
        · exact hout y (mem_cons_of_mem _ hy) h)
      holds
      (fun y hy => (hmem y.old).mpr ⟨fun e => hold (e ▸ List.mem_map_of_mem hy), .inr (hin y (mem_cons_of_mem _ hy))⟩)
      (fun y hy => hleader y (mem_cons_of_mem _ hy)) hx.last
    refine ⟨q, hx.append hq, fun s => ?_, hlead, hpending, hcount.trans hcard⟩
    -- the new store of the first exchange is not an old one of the others
    have hkeep : x.new ∉ xs.map Exchange.old := by
      intro h
      obtain ⟨y, hy, e⟩ := List.mem_map.mp h
      exact hout x mem_cons_self (e ▸ hin y (mem_cons_of_mem _ hy))
    rw [hstores s, hmem s, map_cons, map_cons, mem_cons, mem_cons]
    by_cases hs : s = x.new
    · subst hs
      simp [hne, hkeep]
    simp [hs]
    tauto

end
end PD
