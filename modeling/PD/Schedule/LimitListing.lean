import PD.Schedule.StoreBuckets

/-! # The list of the store limits -/

namespace PD.StoreBuckets
open List Option SortedMap
open Shared

inductive ListingLabel (F : Type) where
  | setStoreLimit (now storeID : Nat) (rate : F)
  | addOperator (env : Env F) (ops order : List Nat)
  | buryStore (saves : Nat → Bool) (storeID : Nat) (force : Bool)
  | removeTombStoneRecords (saves : Nat → Bool) (order : List Shared.StoreInfo)

section
variable {F β : Type} (lib : RateLimit F β)

def listingStep (s : State β) : ListingLabel F → Option (State β)
  | .setStoreLimit now storeID rate => some (setStoreLimit lib now s storeID rate)
  | .addOperator env ops order => addOperator lib env s ops order
  | .buryStore saves storeID force => some { s with cluster := (s.cluster.buryStore saves storeID force).2 }
  | .removeTombStoneRecords saves order =>
    if order.isPerm s.cluster.stores.values then
      some { s with cluster := (s.cluster.removeTombStoneRecords saves order).2 }
    else none

def collect (c : StoreCluster) : List (Nat × β) → SortedMap Nat F → Option (SortedMap Nat F)
  | [], ret => some ret
  | (storeID, limit) :: rest, ret =>
    match c.stores.lookup storeID with
    | none => none
    | some store =>
      if c.objects.isTombstone store then collect c rest ret
      else collect c rest (ret.insert storeID (lib.unscale (lib.rate limit)))

def getAllStoresLimit (s : State β) (order : List (Nat × β)) : Option (SortedMap Nat F) :=
  collect lib s.cluster order .empty

def Lists (s : State β) : Prop :=
  ∀ order, order.Perm s.storesLimit.entries → ∃ ret, getAllStoresLimit lib s order = some ret ∧
    ∀ id rate, ret.lookup id = some rate ↔ ∃ bucket store, s.storesLimit.lookup id = some bucket ∧
      s.cluster.stores.lookup id = some store ∧ s.cluster.objects.isTombstone store = false ∧
      lib.unscale (lib.rate bucket) = rate

end

def Known {F β : Type} (s : State β) : ListingLabel F → Prop
  | .setStoreLimit _ storeID _ => s.cluster.stores.lookup storeID ≠ none
  | .addOperator env ops _ => ∀ id ∈ (influenceOf env.world s.oc ops).keys,
      (influenceOf env.world s.oc ops).stepCost id ≠ 0 → s.cluster.stores.lookup id ≠ none
  | .buryStore .. => True
  | .removeTombStoneRecords .. => ∀ store ∈ s.cluster.stores.values, s.cluster.objects.isTombstone store = true →
      (s.storesLimit.lookup (s.cluster.objects.getID store)).isNone

instance knownDecidable {F β : Type} (s : State β) : ∀ l : ListingLabel F, Decidable (Known s l)
  | .setStoreLimit _ storeID _ => inferInstanceAs (Decidable (s.cluster.stores.lookup storeID ≠ none))
  | .addOperator env ops _ => inferInstanceAs (Decidable (∀ id ∈ (influenceOf env.world s.oc ops).keys, _ → _ ≠ none))
  | .buryStore .. => .isTrue trivial
  | .removeTombStoneRecords .. => inferInstanceAs (Decidable (∀ store ∈ s.cluster.stores.values, _ → _))

def Stored {β : Type} (s : State β) : Prop := ∀ id, s.storesLimit.lookup id ≠ none → s.cluster.stores.lookup id ≠ none

section
variable {F β : Type} {lib : RateLimit F β} {s t : State β} {c : StoreCluster} {id : Nat}

lemma collect_eq {order : List (Nat × β)} (h : ∀ e ∈ order, c.stores.lookup e.1 ≠ none) (ret : SortedMap Nat F) :
  collect lib c order ret = some (ret.insertAll ((order.filter fun e =>
    (c.stores.lookup e.1).any fun store => !c.objects.isTombstone store).map fun e =>
      (e.1, lib.unscale (lib.rate e.2)))) := by
  induction order generalizing ret with
  | nil => rfl
  | cons e _ ih =>
    obtain ⟨store, hstore⟩ := ne_none_iff_exists'.mp (h e mem_cons_self)
    have hrest := ih fun e' he' => h e' (mem_cons_of_mem _ he')
    unfold collect
    rw [hstore, filter_cons, hstore]
    dsimp only
    rw [any_some]
    split
    next ht =>
      rw [ht, hrest]
      rfl
    next ht =>
      rw [Bool.eq_false_iff.mpr ht, hrest]
      rfl

lemma Stored.lists (h : Stored s) : Lists lib s := by
  intro order hperm
  have hmem : ∀ e, e ∈ order ↔ s.storesLimit.lookup e.1 = some e.2 := by
    intro e
    rw [hperm.mem_iff]
    exact mem_entries
  have hknown : ∀ e ∈ order, s.cluster.stores.lookup e.1 ≠ none := by
    intro e he
    refine h e.1 ?_
    rw [(hmem e).mp he]
    exact some_ne_none e.2
  refine ⟨_, collect_eq hknown .empty, ?_⟩
  intro id rate
  have hnodup : (order.map Prod.fst).Nodup := (hperm.map Prod.fst).nodup_iff.mpr s.storesLimit.keys_nodup
  rw [lookup_insertAll_empty, List.mem_map]
  · constructor
    · intro ⟨e, he, heq⟩
      obtain ⟨rfl, rfl⟩ := Prod.mk.inj heq
      obtain ⟨hin, hany⟩ := mem_filter.mp he
      obtain ⟨store, hstore, ht⟩ := (Option.any_eq_true ..).mp hany
      exact ⟨e.2, store, (hmem e).mp hin, hstore, by simpa using ht, rfl⟩
    intro ⟨bucket, store, hbucket, hstore, ht, hrate⟩
    refine ⟨(id, bucket), mem_filter.mpr ⟨(hmem _).mpr hbucket, ?_⟩, Prod.ext rfl hrate⟩
    rw [hstore, any_some, ht]
    rfl
  rw [List.map_map]
  exact hnodup.sublist (filter_sublist.map Prod.fst)

lemma Stored.create (env : Env F) (hid : s.cluster.stores.lookup id ≠ none) (h : Stored s) :
  Stored (getOrCreateStoreLimit lib env s id).2 := by
  unfold getOrCreateStoreLimit
  split
  · exact h
  intro x hx
  rw [newStoreLimit, lookup_insert] at hx
  rw [StoreUpdates.attachOverloadStatus_eq, StoreUpdates.lookup_touch]
  split
  · simpa using hid
  next hne =>
    rw [if_neg hne] at hx
    exact h x hx

lemma lookup_create (env : Env F) {x : Nat} (hx : s.cluster.stores.lookup x ≠ none) :
  (getOrCreateStoreLimit lib env s id).2.cluster.stores.lookup x ≠ none := by
  unfold getOrCreateStoreLimit
  split
  · exact hx
  rw [StoreUpdates.attachOverloadStatus_eq, StoreUpdates.lookup_touch]
  split
  next he => simpa [← he] using hx
  · exact hx

lemma lookup_buryStore (saves : Nat → Bool) (storeID : Nat) (force : Bool) (h : c.stores.lookup id ≠ none) :
  (c.buryStore saves storeID force).2.stores.lookup id ≠ none := by
  unfold StoreCluster.buryStore StoreCluster.finish
  split
  · exact h
  · exact h
  unfold StoreCluster.writeState StoreCluster.putStoreLocked
  dsimp only
  split
  · rw [lookup_insert]
    split
    · exact some_ne_none _
    · exact h
  · exact h

lemma lookup_removeTombStoneRecords (saves : Nat → Bool) {order : List Shared.StoreInfo}
  (h : ∀ store ∈ order, c.objects.isTombstone store = true → c.objects.getID store ≠ id) :
  (c.removeTombStoneRecords saves order).2.stores.lookup id = c.stores.lookup id := by
  induction order generalizing c with
  | nil => rfl
  | cons store rest ih =>
    have hrest : ∀ store ∈ rest, c.objects.isTombstone store = true → c.objects.getID store ≠ id :=
      fun x hx => h x (mem_cons_of_mem _ hx)
    unfold StoreCluster.removeTombStoneRecords
    split
    next ht =>
      split
      · have herased := ih (c := { c with stores := c.stores.erase (c.objects.getID store) }) hrest
        exact herased.trans (lookup_erase_of_ne _ (h store mem_cons_self ht).symm)
      · rfl
    · exact ih hrest

lemma stored_step {l : ListingLabel F} (h : Stored s) (hk : Known s l) (hs : listingStep lib s l = some t) :
  Stored t := by
  cases l with
  | setStoreLimit =>
    cases hs
    intro id hid
    rw [setStoreLimit, newStoreLimit, lookup_insert] at hid
    split at hid
    next he => exact he ▸ hk
    · exact h id hid
  | addOperator env ops =>
    -- the stores that the operators cost something stay in the cache
    let P : State β → Prop := fun u => Stored u ∧
      ∀ id, (influenceOf env.world s.oc ops).stepCost id ≠ 0 → u.cluster.stores.lookup id ≠ none
    have hwithin : ∀ u v, Within u v → P u → P v := by
      intro u v hw hp
      obtain ⟨hu, hcosts⟩ := hp
      unfold P Stored
      rw [hw.cluster_eq]
      exact ⟨fun id hid => hu id (hw.limits id hid), hcosts⟩
    have hcreate : ∀ u id, (influenceOf env.world s.oc ops).stepCost id ≠ 0 → P u →
        P (getOrCreateStoreLimit lib env u id).2 := by
      intro u id hcost hp
      obtain ⟨hu, hcosts⟩ := hp
      exact ⟨hu.create env (hcosts id hcost), fun x hx => lookup_create env (hcosts x hx)⟩
    have hstart : P s := ⟨h, fun id hcost => hk id (StoreLimit.mem_keys_of_stepCost hcost) hcost⟩
    exact (addOperator_inv P hwithin hcreate hstart hs).1
  | buryStore saves storeID force =>
    cases hs
    exact fun id hid => lookup_buryStore saves storeID force (h id hid)
  | removeTombStoneRecords saves =>
    simp only [listingStep] at hs
    split at hs
    next hperm =>
      cases hs
      intro id hid
      refine ne_of_eq_of_ne (lookup_removeTombStoneRecords saves ?_) (h id hid)
      intro store hstore ht he
      have hnone := hk store ((isPerm_iff.mp hperm).mem_iff.mp hstore) ht
      rw [he] at hnone
      exact hid (isNone_iff_eq_none.mp hnone)
    · cases hs

end

/-- **The list of the store limits** -/
theorem lists_of_known {F β : Type} (lib : RateLimit F β) (oc : OperatorController)
  (stored : List (StoreProto × UInt64 × UInt64)) (ls : List (ListingLabel F))
  (hknown : Runs.Along (listingStep lib) Known (init oc stored) ls) :
  Runs.Steps (listingStep lib) (fun _ _ t => Lists lib t) (init oc stored) ls := by
  refine Runs.steps_of_inv Stored ?_ (fun _ hid => absurd rfl hid) hknown
  intro s l t h hk hs
  have ht := stored_step h hk hs
  exact ⟨ht, ht.lists⟩

def addsListed : ListingLabel Nat := .addOperator ⟨⟨fun _ => some (StoreLimit.sizedRegion 30), 0, 0⟩, 1⟩ [0] [4]

theorem lists_of_known_buried :
  ∃ s : State (Nat × Int), Runs.exec (listingStep plainBuckets) (init (.new [StoreLimit.addsPeer]) storeFour)
      [addsListed, .setStoreLimit 0 4 2, .buryStore (fun _ => true) 4 true] = some s ∧
    Runs.Steps (listingStep plainBuckets) (fun _ _ t => Lists plainBuckets t)
      (init (.new [StoreLimit.addsPeer]) storeFour)
      [addsListed, .setStoreLimit 0 4 2, .buryStore (fun _ => true) 4 true] ∧
    (getAllStoresLimit plainBuckets s s.storesLimit.entries).map SortedMap.entries = some [] := by
  refine ⟨_, rfl, lists_of_known plainBuckets _ storeFour _ ?_, by decide⟩
  decide

/-- The cluster has no store 7. -/
theorem listing_crashes : ∃ s : State (Nat × Int), Runs.exec (listingStep plainBuckets) (init (.new []) storeFour)
        [.setStoreLimit 0 7 1] = some s ∧
      getAllStoresLimit plainBuckets s s.storesLimit.entries = none := ⟨_, rfl, by decide⟩

lemma record_removed : ∃ s : State (Nat × Int), Runs.exec (listingStep plainBuckets) (init (.new []) storeFour)
        [.setStoreLimit 0 4 1, .buryStore (fun _ => true) 4 true, .removeTombStoneRecords (fun _ => true)
          (StoreCluster.loadStores storeFour).stores.values] = some s ∧
      getAllStoresLimit plainBuckets s s.storesLimit.entries = none := ⟨_, rfl, by decide⟩

end PD.StoreBuckets
