import PD.Server.StoreCalls

/-! # The addresses of the stores -/

namespace PD
namespace Shared
namespace StoreCluster

def UniqueAddresses (c : StoreCluster) : Prop :=
  ∀ id id' x y, c.shows id = some x → c.shows id' = some y → id ≠ id' → x.state ≠ .tombstone →
    y.state ≠ .tombstone → x.address ≠ y.address

def keepsTombstones {V : Type} (c : StoreCluster) : Label V → Prop
  | .call _ (.setStoreState storeID state) => ∀ old, c.shows storeID = some old →
      old.state = .tombstone → state ≠ .tombstone → ¬ c.Taken storeID old.address
  | _ => True

section
variable {V : Type} {semver : Semver V} {equalFold : String → String → Bool}
variable {c c' : StoreCluster} {id : Nat} {x : StoreProto}

lemma shows_id (ho : c.Owned) (h : c.shows id = some x) : x.id = id := by
  rw [shows_eq] at h
  obtain ⟨e, he, rfl⟩ := Option.map_eq_some_iff.mp h
  exact (ho.owns id e he).keyed

lemma taken_iff (ho : c.Owned) (id : Nat) (address : String) :
  c.Taken id address ↔ ∃ id' y, id' ≠ id ∧ c.shows id' = some y ∧ y.state ≠ .tombstone ∧ y.address = address := by
  constructor
  · rintro ⟨id', y, hy, htomb, hne, haddr⟩
    exact ⟨id', y, shows_id ho hy ▸ hne, hy, htomb, haddr⟩
  rintro ⟨id', y, hne, hy, htomb, haddr⟩
  exact ⟨id', y, hy, htomb, (shows_id ho hy).symm ▸ hne, haddr⟩

lemma unique_of_sub (hu : c.UniqueAddresses) (h : ∀ i x, c'.shows i = some x → c.shows i = some x) :
  c'.UniqueAddresses :=
  fun i j x y hx hy => hu i j x y (h i x hx) (h j y hy)

section
variable (ho : c.Owned) (hu : c.UniqueAddresses)
include ho hu

lemma unique_update (h : c'.shows = Function.update c.shows id (some x)) :
  c'.UniqueAddresses ↔ (x.state ≠ .tombstone → ¬ c.Taken id x.address) := by
  have hself : c'.shows id = some x := by rw [h, Function.update_self]
  have hother : ∀ i, i ≠ id → c'.shows i = c.shows i := fun i hi => by rw [h, Function.update_of_ne hi]
  rw [taken_iff ho]
  constructor
  · rintro hu' htomb ⟨i, y, hne, hy, hty, haddr⟩
    exact hu' id i x y hself ((hother i hne).trans hy) (Ne.symm hne) htomb hty haddr.symm
  intro hfree i j y z hy hz hne hty htz haddr
  by_cases hi : i = id
  · subst hi
    obtain rfl := Option.some.inj (hself.symm.trans hy)
    exact hfree hty ⟨j, z, Ne.symm hne, (hother j (Ne.symm hne)).symm.trans hz, htz, haddr.symm⟩
  rw [hother i hi] at hy
  by_cases hj : j = id
  · subst hj
    obtain rfl := Option.some.inj (hself.symm.trans hz)
    exact hfree htz ⟨i, y, hi, hy, hty, haddr⟩
  rw [hother j hj] at hz
  exact hu i j y z hy hz hne hty htz haddr

lemma free_of_unique (h : c.shows id = some x)
  (htomb : x.state ≠ .tombstone) : ¬ c.Taken id x.address := by
  rw [taken_iff ho]
  rintro ⟨i, y, hne, hy, hty, haddr⟩
  exact hu i id y x hy h hne hty htomb haddr

lemma unique_putStoreRequest (env : Env V) (request : StoreProto) :
  (c.putStoreRequest semver equalFold env request).2.UniqueAddresses := by
  obtain ⟨_, hout⟩ := putStoreRequest_outcome semver equalFold env ho request
  generalize c.putStoreRequest semver equalFold env request = r at hout
  cases hout with
  | refused _ hsame | notAdded _ _ hsame => exact unique_of_sub hu fun i x hx => hsame ▸ hx
  | added hcheck _ hshows | changed hcheck _ hshows =>
    exact (unique_update ho hu hshows).mpr fun _ => not_taken_of_checkPut semver env hcheck

lemma unique_updateStoreLabels (env : Env V) (storeID : Nat)
  (labels : List StoreLabel) : (c.updateStoreLabels semver equalFold env storeID labels).2.UniqueAddresses := by
  unfold updateStoreLabels
  split
  · exact hu
  · exact unique_putStoreRequest ho hu env _

lemma unique_finish (saves : Nat → Bool) (state : StoreState)
  {check : Except StoreError (Option StoreInfo)} (hcheck : ∀ s, check = .ok (some s) → c.stores.lookup id = some s)
  (hstate : ∀ s, check = .ok (some s) → state ≠ .tombstone → c.objects.getState s ≠ .tombstone) :
  (c.finish saves state check).2.UniqueAddresses := by
  obtain ⟨_, ⟨e, _, heq⟩ | ⟨_, heq⟩ | ⟨old, ⟨s, hs, rfl⟩, hold, _, hshows⟩⟩ := finish_cases saves ho state hcheck
  · rw [heq]; exact hu
  · rw [heq]; exact hu
  refine (unique_update ho hu hshows).mpr fun htomb => ?_
  have hfree := free_of_unique ho hu hold (hstate s hs htomb)
  exact hfree

lemma unique_setStoreState_iff (saves : Nat → Bool)
  (storeID : Nat) (state : StoreState) : (c.finish saves state (c.setStateCheck storeID)).2.UniqueAddresses ↔
    ∀ old, c.shows storeID = some old → old.state = .tombstone → state ≠ .tombstone →
      ¬ c.Taken storeID old.address := by
  unfold setStateCheck
  cases hs : c.stores.lookup storeID with
  | none =>
    refine iff_of_true hu fun old hold => ?_
    rw [shows, hs] at hold
    cases hold
  | some s =>
    obtain ⟨_, _, _, hshows⟩ := writeState_spec saves ho hs rfl state
    have hold := shows_of_lookup hs
    show (c.writeState saves s state).2.UniqueAddresses ↔ _
    rw [unique_update ho hu hshows]
    constructor
    · intro hfree old hold' _ hst
      obtain rfl := Option.some.inj (hold.symm.trans hold')
      exact hfree hst
    intro hkeep hst
    by_cases htomb : (c.objects.view s).state = .tombstone
    · exact hkeep (c.objects.view s) hold htomb hst
    have hfree := free_of_unique ho hu hold htomb
    exact hfree

lemma unique_step_iff {l : Label V}
  (h : c.step semver equalFold l = some c') : c'.UniqueAddresses ↔ c.keepsTombstones l := by
  cases l with
  | removeTombStoneRecords env order =>
    simp only [step] at h
    split at h
    · cases h
      exact iff_of_true (unique_of_sub hu (removeTombStoneRecords_spec env.saves ho order).2) trivial
    · cases h
  | call env k =>
    cases h
    cases k with
    | putStore request => exact iff_of_true (unique_putStoreRequest ho hu env request) trivial
    | updateStoreLabels storeID labels =>
      exact iff_of_true (unique_updateStoreLabels ho hu env storeID labels) trivial
    | removeStore =>
      refine iff_of_true ?_ trivial
      refine unique_finish ho hu env.saves .offline (fun s h => (removeCheck_some h).1) fun s h _ => ?_
      rw [(removeCheck_some h).2]
      exact StoreState.noConfusion
    | buryStore =>
      refine iff_of_true ?_ trivial
      exact unique_finish ho hu env.saves .tombstone (fun s h => (buryCheck_some h).1)
        fun _ _ htomb => absurd rfl htomb
    | setStoreState storeID state => exact unique_setStoreState_iff ho hu env.saves storeID state

end

/-- **Addresses stay unique** exactly if no tombstone comes back. -/
theorem unique_iff_keepsTombstones (semver : Semver V) (equalFold : String → String → Bool)
  (store : StoreProto) (ls : List (Label V)) :
  Runs.Steps (step semver equalFold) (fun _ _ c => c.UniqueAddresses) (bootstrapped store) ls ↔
    Runs.Steps (step semver equalFold) (fun c l _ => c.keepsTombstones l) (bootstrapped store) ls := by
  obtain ⟨ho, hshows⟩ := loadStores_spec [(store, defaultWeight, defaultWeight)]
  have hu : (bootstrapped store).UniqueAddresses := by
    intro i j x y hx hy hne
    have hone : ∀ i x, (bootstrapped store).shows i = some x → i = store.id := by
      intro i x hi
      by_contra hne
      rw [bootstrapped, hshows, List.foldl_cons, List.foldl_nil, Function.update_of_ne hne] at hi
      cases hi
    exact absurd ((hone i x hx).trans (hone j y hy).symm) hne
  refine Runs.steps_iff (fun c => c.Owned ∧ c.UniqueAddresses) (fun c l c' hi h => ?_) ⟨ho, hu⟩
  exact ⟨unique_step_iff hi.1 hi.2 h, fun hu' => ⟨owned_step semver equalFold hi.1 h, hu'⟩⟩

end

def revived : List (Label (Nat × Nat)) := [.call plainEnv (.buryStore 1 true),
    .call plainEnv (.putStore ⟨2, "tikv:20160", .up, [], ""⟩),
    .call plainEnv (.setStoreState 1 .up)]

/-- Store 1 is buried, store 2 takes its address, `SetStoreState` revives store 1. -/
theorem address_twice :
  (Runs.exec (step baseVersion asciiFold) (bootstrapped ⟨1, "tikv:20160", .up, [], ""⟩) revived).map
    (fun c => (c.shows 1, c.shows 2)) =
      some (some ⟨1, "tikv:20160", .up, [], ""⟩, some ⟨2, "tikv:20160", .up, [], ""⟩) := by
  decide +kernel

end StoreCluster
end Shared
end PD
