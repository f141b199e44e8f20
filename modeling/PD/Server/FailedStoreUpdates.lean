import PD.Server.StoreCalls

/-! # Store updates that fail -/

namespace PD
namespace Shared
namespace StoreCluster

section
variable {V : Type} (semver : Semver V) (equalFold : String → String → Bool) (env : Env V)

def putChangesNothing (c : StoreCluster) (request : StoreProto) : Prop :=
  (∃ e, c.checkPut semver env request = .error e) ∨
    ∀ old, c.shows request.id = some old → request.address = old.address ∧
      request.version = old.version ∧ keepsLabels equalFold old.labels request.labels = true

def changesNothing (c : StoreCluster) : Call → Prop
  | .putStore store => c.putChangesNothing semver equalFold env store
  | .updateStoreLabels storeID labels => ∀ old, c.shows storeID = some old →
      c.putChangesNothing semver equalFold env { old with labels := labels }
  | .removeStore storeID => ∀ old, c.shows storeID = some old → old.state ≠ .up
  | .buryStore storeID force => ∀ old, c.shows storeID = some old →
      old.state = .tombstone ∨ (old.state = .up ∧ force = false)
  | .setStoreState storeID state => ∀ old, c.shows storeID = some old → old.state = state

end

section
variable {V : Type} {semver : Semver V} {equalFold : String → String → Bool} {env : Env V}
variable {c c' : StoreCluster} {id : Nat} {e : StoreError}

lemma update_shows_iff {old x : StoreProto} (hold : c.shows id = some old)
  (h : c'.shows = Function.update c.shows id (some x)) : c'.shows = c.shows ↔ x = old := by
  rw [h, Function.update_eq_self_iff, hold, Option.some.injEq]

lemma failed_put_iff (ho : c.Owned) {request : StoreProto}
  (h : c.putStoreRequest semver equalFold env request = (.error e, c')) :
  c'.shows = c.shows ↔ c.putChangesNothing semver equalFold env request := by
  obtain ⟨_, hout⟩ := putStoreRequest_outcome semver equalFold env ho request
  rw [h] at hout
  cases hout with
  | refused hcheck hsame => exact iff_of_true hsame (.inl ⟨e, hcheck⟩)
  | notAdded _ hnew hsame =>
    refine iff_of_true hsame (.inr fun old hold => ?_)
    rw [hnew] at hold
    cases hold
  | @changed _ _ old hcheck hold hshows =>
    have hokay : ¬ ∃ e, c.checkPut semver env request = .error e := by
      rintro ⟨e, he⟩
      rw [hcheck] at he
      cases he
    rw [update_shows_iff hold hshows, putChangesNothing, or_iff_right hokay]
    constructor
    · intro heq old' hold'
      obtain rfl := Option.some.inj (hold.symm.trans hold')
      have haddr := congrArg StoreProto.address heq
      have hversion := congrArg StoreProto.version heq
      have hlabels := congrArg StoreProto.labels heq
      exact ⟨haddr, hversion, (mergeValues_eq_self _ _).mp hlabels⟩
    intro hkeep
    obtain ⟨haddr, hversion, hlabels⟩ := hkeep old hold
    rw [haddr, hversion, (mergeValues_eq_self _ _).mpr hlabels]

lemma failed_finish_iff (ho : c.Owned) {state : StoreState} {check : Except StoreError (Option StoreInfo)}
  (hcheck : ∀ s, check = .ok (some s) → c.stores.lookup id = some s)
  (h : c.finish env.saves state check = (.error e, c')) :
  c'.shows = c.shows ↔ ∀ s, check = .ok (some s) → c.objects.getState s = state := by
  obtain ⟨_, ⟨e', herr, heq⟩ | ⟨_, heq⟩ | ⟨old, ⟨s, hs, rfl⟩, hold, _, hshows⟩⟩ :=
    finish_cases env.saves ho state hcheck
  · rw [heq] at h
    obtain ⟨_, rfl⟩ := Prod.mk.inj h
    refine iff_of_true rfl fun s hs => ?_
    rw [herr] at hs
    cases hs
  · rw [heq] at h
    cases (Prod.mk.inj h).1
  rw [h] at hshows
  rw [update_shows_iff hold hshows]
  constructor
  · intro heq s' hs'
    obtain rfl : s = s' := Option.some.inj (Except.ok.inj (hs.symm.trans hs'))
    exact (congrArg StoreProto.state heq).symm
  intro hst
  rw [← hst s hs]
  rfl

lemma forall_shows {P : StoreProto → Prop} :
  (∀ old, c.shows id = some old → P old) ↔ ∀ s, c.stores.lookup id = some s → P (c.objects.view s) := by
  constructor
  · exact fun h s hs => h _ (shows_of_lookup hs)
  intro h old hold
  obtain ⟨s, hs, rfl⟩ := Option.map_eq_some_iff.mp hold
  exact h s hs

lemma failed_update_iff (ho : c.Owned) {storeID : Nat} {labels : List StoreLabel}
  (h : c.updateStoreLabels semver equalFold env storeID labels = (.error e, c')) :
  c'.shows = c.shows ↔ ∀ old, c.shows storeID = some old →
    c.putChangesNothing semver equalFold env { old with labels := labels } := by
  unfold updateStoreLabels at h
  rw [forall_shows]
  cases hs : c.stores.lookup storeID with
  | none =>
    rw [hs] at h
    obtain ⟨_, rfl⟩ := Prod.mk.inj h
    exact iff_of_true rfl fun s hs => by cases hs
  | some s =>
    rw [hs] at h
    rw [failed_put_iff ho h]
    constructor
    · intro hkeep s' hs'
      cases hs'
      exact hkeep
    · exact fun hkeep => hkeep s rfl

/-- **Failed updates** show exactly if the call would change something. -/
theorem failed_unchanged_iff (semver : Semver V) (equalFold : String → String → Bool)
  (stored : List (StoreProto × UInt64 × UInt64)) (ls : List (Label V)) (c c' : StoreCluster)
  (hrun : Runs.exec (step semver equalFold) (loadStores stored) ls = some c) (env : Env V) (k : Call)
  (e : StoreError) (hfail : c.call semver equalFold env k = (.error e, c')) :
  (∀ id, c'.shows id = c.shows id) ↔ c.changesNothing semver equalFold env k := by
  have ho : c.Owned := Runs.exec_inv Owned
    (fun _ _ _ ho _ h => owned_step semver equalFold ho h) (loadStores_spec stored).1
    (Runs.along_of_forall (P := fun _ => True) _ fun _ _ => trivial) hrun
  rw [← funext_iff]
  cases k with
  | putStore => exact failed_put_iff ho hfail
  | updateStoreLabels => exact failed_update_iff ho hfail
  | removeStore =>
    rw [failed_finish_iff ho (fun s h => (removeCheck_some h).1) hfail, changesNothing, forall_shows]
    constructor
    · intro h s hs hup
      have hoff := h s (removeCheck_of_up hs hup)
      rw [show c.objects.getState s = .up from hup] at hoff
      cases hoff
    intro h s hs
    obtain ⟨hs, hup⟩ := removeCheck_some hs
    exact absurd hup (h s hs)
  | buryStore _ force =>
    rw [failed_finish_iff ho (fun s h => (buryCheck_some h).1) hfail, changesNothing, forall_shows]
    constructor
    · intro h s hs
      by_cases htomb : c.objects.getState s = .tombstone
      · exact .inl htomb
      by_cases hup : c.objects.getState s = .up → force = true
      · exact absurd (h s (buryCheck_of hs htomb hup)) htomb
      obtain ⟨hup, hforce⟩ := Classical.not_imp.mp hup
      exact .inr ⟨hup, Bool.eq_false_iff.mpr hforce⟩
    intro h s hs
    obtain ⟨hs, htomb, hup⟩ := buryCheck_some hs
    rcases h s hs with htomb' | ⟨hup', hforce⟩
    · exact htomb'
    · exact absurd hup' (hup hforce)
  | setStoreState =>
    rw [failed_finish_iff ho (fun s h => setStateCheck_some h) hfail, changesNothing, forall_shows]
    constructor
    · intro h s hs
      exact h s (by rw [setStateCheck, hs])
    · exact fun h s hs => h s (setStateCheck_some hs)

def failingEnv : Env (Nat × Nat) := ⟨(1, 0), ["zone"], true, fun _ => false⟩
def labelledStore : StoreProto := ⟨1, "tikv:20160", .up, [⟨"zone", "z1"⟩], ""⟩

theorem failed_call_shows : ((bootstrapped labelledStore).call baseVersion asciiFold failingEnv (.putStore
    ⟨1, "tikv:20161", .up, [⟨"Zone", "z2"⟩, ⟨"disk", "ssd"⟩], ""⟩)).1 = .error (.unknownLabel "disk") ∧
  ((bootstrapped labelledStore).call baseVersion asciiFold failingEnv (.putStore
    ⟨1, "tikv:20161", .up, [⟨"Zone", "z2"⟩, ⟨"disk", "ssd"⟩], ""⟩)).2.shows 1 =
      some ⟨1, "tikv:20161", .up, [⟨"zone", "z2"⟩, ⟨"disk", "ssd"⟩], ""⟩ := by
  decide +kernel

def offlineStore : StoreCluster :=
  ((bootstrapped labelledStore).call baseVersion asciiFold plainEnv (.removeStore 1)).2

theorem failed_unchanged_offline :
  (offlineStore.call baseVersion asciiFold failingEnv (.setStoreState 1 .offline)).2.shows = offlineStore.shows := by
  have hfail : (offlineStore.call baseVersion asciiFold failingEnv (.setStoreState 1 .offline)).1 =
      .error .storage := by decide +kernel
  have hshows : offlineStore.shows 1 = some { labelledStore with state := .offline } := by decide +kernel
  funext id
  refine (failed_unchanged_iff baseVersion asciiFold [(labelledStore, defaultWeight, defaultWeight)]
    [.call plainEnv (.removeStore 1)] offlineStore _ rfl failingEnv (.setStoreState 1 .offline) .storage
    (Prod.ext hfail rfl)).mpr (fun old hold => ?_) id
  rw [hshows] at hold
  exact (Option.some.inj hold) ▸ rfl

end
end StoreCluster
end Shared
end PD
