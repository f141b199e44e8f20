import PD.Schedule.StoreLimit
import PD.Server.StoreUpdates

/-! # Buckets of the store limits and the stores they belong to -/

namespace PD
open Option SortedMap
open Shared

structure RateLimit (F β : Type) where
  newBucketWithRate : F → Int → Nat → β
  available : β → Nat → Int
  take : β → Int → Nat → β
  rate : β → F
  aboveOne : F → Bool
  scale : F → F
  unscale : F → F
  toInt64 : F → Int

namespace StoreBuckets

structure State (β : Type) where
  oc : OperatorController
  storesLimit : SortedMap Nat β
  cluster : StoreCluster

structure Env (F : Type) where
  world : World
  rate : F

section
variable {F β : Type} (lib : RateLimit F β)
variable (now : Nat)

def newBucket (rate : F) : β :=
  let capacity := if lib.aboveOne rate then lib.toInt64 (lib.scale rate) else regionInfluence
  lib.newBucketWithRate (lib.scale rate) capacity now

def newStoreLimit (rate : F) (s : State β) (storeID : Nat) : State β :=
  { s with storesLimit := s.storesLimit.insert storeID (newBucket lib now rate) }

def setStoreLimit (s : State β) (storeID : Nat) (rate : F) : State β := newStoreLimit lib now rate s storeID
def setAllStoresLimit (s : State β) (rate : F) : State β := s.storesLimit.keys.foldl (newStoreLimit lib now rate) s

def getOrCreateStoreLimit (env : Env F) (s : State β) (storeID : Nat) : β × State β :=
  match s.storesLimit.lookup storeID with
  | some bucket => (bucket, s)
  | none =>
    let made := newStoreLimit lib env.world.now env.rate s storeID
    (newBucket lib env.world.now env.rate, { made with cluster := s.cluster.attachOverloadStatus storeID storeID })

def exceedStoreLimit (env : Env F) (influence : OpInfluence) : List Nat → State β → Bool × State β
  | [], s => (false, s)
  | storeID :: rest, s =>
    if influence.stepCost storeID = 0 then exceedStoreLimit env influence rest s
    else
      let r := getOrCreateStoreLimit lib env s storeID
      if lib.available r.1 env.world.now < influence.stepCost storeID then (true, r.2)
      else exceedStoreLimit env influence rest r.2

def takeCosts (now : Nat) (influence : OpInfluence) : List Nat → SortedMap Nat β → Option (SortedMap Nat β)
  | [], limits => some limits
  | storeID :: rest, limits =>
    if influence.stepCost storeID = 0 then takeCosts now influence rest limits
    else (limits.lookup storeID).bind fun bucket =>
      takeCosts now influence rest (limits.insert storeID (lib.take bucket (influence.stepCost storeID) now))

def influenceOf (w : World) (oc : OperatorController) (ops : List Nat) : OpInfluence :=
  newTotalOpInfluence (ops.map fun o => (oc.op o, w.getRegion (oc.regionOf o)))

def addOperatorLocked (w : World) (s : State β) (o : Nat) : Option (State β) :=
  let influence := influenceOf w s.oc [o]
  (takeCosts lib w.now influence influence.keys s.storesLimit).map fun limits =>
    { s with oc := OperatorController.addOperatorLocked w s.oc o, storesLimit := limits }

def checkGroup (env : Env F) (s : State β) (ops order : List Nat) : Bool × State β :=
  let r := exceedStoreLimit lib env (influenceOf env.world s.oc ops) order s
  (!r.1 && s.oc.checkAddOperator env.world ops, r.2)

def addOperator (env : Env F) (s : State β) (ops order : List Nat) : Option (State β) :=
  if order.isPerm (influenceOf env.world s.oc ops).keys then
    let r := checkGroup lib env s ops order
    if r.1 then ops.foldlM (addOperatorLocked lib env.world) r.2
    else some { r.2 with oc := s.oc.recordAll .cancel ops }
  else none

def promoteWaitingOperator (env : Env F) : List (Option PriorityLevel × List Nat) → State β → Option (State β)
  | [], s => some s
  | (bucket, order) :: draws, s =>
    match s.oc.getOperator bucket with
    | none => none
    | some ([], oc) => some { s with oc := oc }
    | some (o :: rest, oc) =>
      if order.isPerm (influenceOf env.world oc (o :: rest)).keys then
        let r := checkGroup lib env { s with oc := oc } (o :: rest) order
        if r.1 then (o :: rest).foldlM (addOperatorLocked lib env.world) { r.2 with oc := oc.taken o }
        else promoteWaitingOperator env draws { r.2 with oc := (oc.recordAll .cancel (o :: rest)).taken o }
      else none

end

section
variable {F β : Type} {lib : RateLimit F β} {env : Env F} {s t : State β}
variable {influence : OpInfluence} {ops : List Nat}

structure Within (s t : State β) : Prop where
  cluster_eq : t.cluster = s.cluster
  limits : ∀ id, t.storesLimit.lookup id ≠ none → s.storesLimit.lookup id ≠ none

lemma within_takeCosts {now : Nat} {stores : List Nat} {limits limits' : SortedMap Nat β}
  (h : takeCosts lib now influence stores limits = some limits') {id : Nat} (hid : limits'.lookup id ≠ none) :
  limits.lookup id ≠ none := by
  induction stores generalizing limits with
  | nil =>
    cases h
    exact hid
  | cons storeID _ ih =>
    unfold takeCosts at h
    split at h
    · exact ih h
    obtain ⟨bucket, hbucket, hrest⟩ := bind_eq_some_iff.mp h
    by_cases he : id = storeID
    · rw [he, hbucket]
      exact some_ne_none bucket
    have hinsert := ih hrest
    rwa [lookup_insert_of_ne _ _ he] at hinsert

lemma within_addAll {w : World} (h : ops.foldlM (addOperatorLocked lib w) s = some t) : Within s t := by
  induction ops generalizing s with
  | nil =>
    cases h
    exact ⟨rfl, fun _ hid => hid⟩
  | cons o _ ih =>
    rw [List.foldlM_cons] at h
    obtain ⟨u, hu, hrest⟩ := bind_eq_some_iff.mp h
    obtain ⟨limits, hlimits, rfl⟩ := map_eq_some_iff.mp hu
    have hwithin := ih hrest
    exact ⟨hwithin.cluster_eq, fun id hid => within_takeCosts hlimits (hwithin.limits id hid)⟩

variable (P : State β → Prop)

lemma exceedStoreLimit_inv (order : List Nat)
  (hcreate : ∀ s id, influence.stepCost id ≠ 0 → P s → P (getOrCreateStoreLimit lib env s id).2) (h : P s) :
  P (exceedStoreLimit lib env influence order s).2 := by
  induction order generalizing s with
  | nil => exact h
  | cons id _ ih =>
    unfold exceedStoreLimit
    split
    · exact ih h
    next hcost =>
      dsimp only
      split
      · exact hcreate s id hcost h
      · exact ih (hcreate s id hcost h)

lemma addOperator_inv {order : List Nat} (hwithin : ∀ s t, Within s t → P s → P t)
  (hcreate : ∀ s' id, (influenceOf env.world s.oc ops).stepCost id ≠ 0 → P s' →
    P (getOrCreateStoreLimit lib env s' id).2) (h : P s) (hs : addOperator lib env s ops order = some t) : P t := by
  unfold addOperator at hs
  have hchecked := exceedStoreLimit_inv P order hcreate h
  split at hs
  · dsimp only at hs
    split at hs
    · exact hwithin _ t (within_addAll hs) hchecked
    cases hs
    exact hwithin (checkGroup lib env s ops order).2 _ ⟨rfl, fun _ hid => hid⟩ hchecked
  · cases hs

lemma promoteWaitingOperator_inv (hwithin : ∀ s t, Within s t → P s → P t)
  (hcreate : ∀ s id, P s → P (getOrCreateStoreLimit lib env s id).2)
  {draws : List (Option PriorityLevel × List Nat)} (h : P s)
  (hs : promoteWaitingOperator lib env draws s = some t) : P t := by
  induction draws generalizing s with
  | nil =>
    cases hs
    exact h
  | cons draw _ ih =>
    unfold promoteWaitingOperator at hs
    split at hs
    · cases hs
    · cases hs
      exact hwithin s _ ⟨rfl, fun _ hid => hid⟩ h
    next o rest oc _ =>
      have hchecked : ∀ oc', P { (checkGroup lib env { s with oc := oc } (o :: rest) draw.2).2 with oc := oc' } := by
        intro oc'
        have hstart : P { s with oc := oc } := hwithin s _ ⟨rfl, fun _ hid => hid⟩ h
        exact hwithin (checkGroup lib env { s with oc := oc } (o :: rest) draw.2).2 _ ⟨rfl, fun _ hid => hid⟩
          (exceedStoreLimit_inv P draw.2 (fun s id _ => hcreate s id) hstart)
      split at hs
      · dsimp only at hs
        split at hs
        · exact hwithin _ t (within_addAll hs) (hchecked _)
        · exact ih (hchecked _) hs
      · cases hs

end

inductive Label (F : Type) where
  | setStoreLimit (now storeID : Nat) (rate : F)
  | setAllStoresLimit (now : Nat) (rate : F)
  | addOperator (env : Env F) (ops order : List Nat)
  | addWaitingOperator (w : World) (ops : List Nat)
  | promoteWaitingOperator (env : Env F) (draws : List (Option PriorityLevel × List Nat))
  | storeHeartbeat (stats : StoreStats) (now : Int)

def init {β : Type} (oc : OperatorController) (stored : List (StoreProto × UInt64 × UInt64)) : State β :=
  ⟨oc, .empty, .loadStores stored⟩

section
variable {F β : Type} (lib : RateLimit F β)

def isOverloaded (s : State β) (store : Shared.StoreInfo) (now : Nat) : Option Bool :=
  match store.overloaded with
  | none => some false
  | some storeID => (s.storesLimit.lookup storeID).map fun bucket => decide (lib.available bucket now < regionInfluence)

def step (s : State β) : Label F → Option (State β)
  | .setStoreLimit now storeID rate => some (setStoreLimit lib now s storeID rate)
  | .setAllStoresLimit now rate => some (setAllStoresLimit lib now s rate)
  | .addOperator env ops order => addOperator lib env s ops order
  | .addWaitingOperator w ops => (s.oc.addWaitingLocked w ops).map fun r => { s with oc := r.2 }
  | .promoteWaitingOperator env draws => promoteWaitingOperator lib env draws s
  | .storeHeartbeat stats now => some { s with cluster := (s.cluster.handleStoreHeartbeat stats now).2 }

def Follows (s : State β) : Prop :=
  ∀ id bucket store, s.storesLimit.lookup id = some bucket → s.cluster.stores.lookup id = some store →
    ∀ now, isOverloaded lib s store now = some (decide (lib.available bucket now < regionInfluence))

end

def Limited {F β : Type} (s : State β) : Label F → Prop
  | .setStoreLimit _ storeID _ => (s.cluster.stores.lookup storeID).isSome → (s.storesLimit.lookup storeID).isSome
  | _ => True

instance limitedDecidable {F β : Type} (s : State β) : ∀ l : Label F, Decidable (Limited s l)
  | .setStoreLimit _ storeID _ => inferInstanceAs (Decidable ((s.cluster.stores.lookup storeID).isSome → _))
  | .setAllStoresLimit .. => .isTrue trivial
  | .addOperator .. => .isTrue trivial
  | .addWaitingOperator .. => .isTrue trivial
  | .promoteWaitingOperator .. => .isTrue trivial
  | .storeHeartbeat .. => .isTrue trivial

structure Linked {β : Type} (s : State β) : Prop where
  keyed : StoreUpdates.Keyed s.cluster
  linked : ∀ id, s.storesLimit.lookup id ≠ none → ∀ store, s.cluster.stores.lookup id = some store →
    store.overloaded = some id

section
variable {F β : Type} {lib : RateLimit F β} {s t : State β}

lemma Linked.within (hw : Within s t) (h : Linked s) : Linked t := by
  refine ⟨hw.cluster_eq ▸ h.keyed, ?_⟩
  rw [hw.cluster_eq]
  exact fun id hid => h.linked id (hw.limits id hid)

lemma Linked.create (env : Env F) (id : Nat) (h : Linked s) : Linked (getOrCreateStoreLimit lib env s id).2 := by
  unfold getOrCreateStoreLimit
  split
  · exact h
  dsimp only
  rw [StoreUpdates.attachOverloadStatus_eq]
  refine ⟨StoreUpdates.keyed_touch h.keyed fun _ => rfl, ?_⟩
  intro id' hid' store hstore
  rw [StoreUpdates.lookup_touch] at hstore
  split at hstore
  next he =>
    obtain ⟨_, -, rfl⟩ := map_eq_some_iff.mp hstore
    rw [he]
  next hne =>
    refine h.linked id' ?_ store hstore
    rwa [newStoreLimit, lookup_insert_of_ne _ _ hne] at hid'

lemma within_setAll (now : Nat) (rate : F) {stores : List Nat} (h : ∀ id ∈ stores, s.storesLimit.lookup id ≠ none) :
  Within s (stores.foldl (newStoreLimit lib now rate) s) := by
  induction stores generalizing s with
  | nil => exact ⟨rfl, fun _ hid => hid⟩
  | cons id _ ih =>
    have hkeys : ∀ x, (newStoreLimit lib now rate s id).storesLimit.lookup x ≠ none ↔
        s.storesLimit.lookup x ≠ none := by
      intro x
      rw [newStoreLimit, lookup_insert]
      split
      next he => exact iff_of_true (some_ne_none _) (he ▸ h id List.mem_cons_self)
      · exact Iff.rfl
    have hrest := ih fun x hx => (hkeys x).mpr (h x (List.mem_cons_of_mem _ hx))
    exact ⟨hrest.cluster_eq, fun x hx => (hkeys x).mp (hrest.limits x hx)⟩

lemma linked_step {l : Label F} (h : Linked s) (hl : Limited s l) (hs : step lib s l = some t) : Linked t := by
  cases l with
  | setStoreLimit _ storeID =>
    cases hs
    refine ⟨h.keyed, ?_⟩
    intro id hid store hstore
    refine h.linked id ?_ store hstore
    by_cases he : id = storeID
    · have hsome := hl (isSome_iff_exists.mpr ⟨store, he ▸ hstore⟩)
      rw [he]
      exact isSome_iff_ne_none.mp hsome
    · rwa [setStoreLimit, newStoreLimit, lookup_insert_of_ne _ _ he] at hid
  | setAllStoresLimit now rate =>
    cases hs
    refine h.within (within_setAll now rate ?_)
    intro id hid
    obtain ⟨bucket, hbucket⟩ := SortedMap.mem_keys.mp hid
    rw [hbucket]
    exact some_ne_none bucket
  | addOperator env =>
    exact addOperator_inv Linked (fun _ _ => Linked.within) (fun _ id _ => Linked.create env id) h hs
  | addWaitingOperator =>
    obtain ⟨_, -, rfl⟩ := map_eq_some_iff.mp hs
    exact ⟨h.keyed, h.linked⟩
  | promoteWaitingOperator env =>
    exact promoteWaitingOperator_inv Linked (fun _ _ => Linked.within) (fun _ id => Linked.create env id) h hs
  | storeHeartbeat =>
    cases hs
    rw [StoreUpdates.handleStoreHeartbeat_eq h.keyed]
    refine ⟨StoreUpdates.keyed_touch h.keyed fun _ => rfl, ?_⟩
    intro id hid store hstore
    rw [StoreUpdates.lookup_touch] at hstore
    split at hstore
    next he =>
      obtain ⟨store', hstore', rfl⟩ := map_eq_some_iff.mp hstore
      exact h.linked id hid store' (he ▸ hstore')
    · exact h.linked id hid store hstore

lemma Linked.follows (h : Linked s) : Follows lib s := by
  intro id bucket store hbucket hstore now
  have hlinked := h.linked id (by rw [hbucket]; exact some_ne_none bucket) store hstore
  rw [isOverloaded, hlinked]
  dsimp only
  rw [hbucket, map_some]

end

/-- **The overload status follows the store limit** -/
theorem follows_of_limited {F β : Type} (lib : RateLimit F β) (oc : OperatorController)
  (stored : List (StoreProto × UInt64 × UInt64)) (ls : List (Label F))
  (hlimited : Runs.Along (step lib) Limited (init oc stored) ls) :
  Runs.Steps (step lib) (fun _ _ t => Follows lib t) (init oc stored) ls := by
  have hkeyed : StoreUpdates.Keyed (.loadStores stored) := StoreUpdates.keyed_loadStores stored
  refine Runs.steps_of_inv Linked ?_ ⟨hkeyed, fun _ hid => absurd rfl hid⟩ hlimited
  intro s l t h hl hs
  have ht := linked_step h hl hs
  exact ⟨ht, ht.follows⟩

def plainBuckets : RateLimit Nat (Nat × Int) where
  newBucketWithRate rate capacity _ := (rate, capacity)
  available bucket _ := bucket.2
  take bucket count _ := (bucket.1, bucket.2 - count)
  rate := Prod.fst
  aboveOne rate := decide (1 < rate)
  scale rate := rate * 1000
  unscale rate := rate / 1000
  toInt64 rate := rate

def addsPeer : Label Nat := .addOperator ⟨⟨fun _ => some (StoreLimit.sizedRegion 30), 0, 0⟩, 1⟩ [0] [4]
def storeFour : List (StoreProto × UInt64 × UInt64) := [(⟨4, "", .up, [], ""⟩, 0, 0)]

theorem follows_of_limited_set :
  ∃ s : State (Nat × Int), Runs.exec (step plainBuckets) (init (.new [StoreLimit.addsPeer]) storeFour)
      [addsPeer, .setStoreLimit 0 4 2] = some s ∧ Runs.Steps (step plainBuckets) (fun _ _ t => Follows plainBuckets t)
      (init (.new [StoreLimit.addsPeer]) storeFour) [addsPeer, .setStoreLimit 0 4 2] ∧
    (s.cluster.stores.lookup 4).map (fun store => isOverloaded plainBuckets s store 0) = some (some false) := by
  refine ⟨_, rfl, follows_of_limited plainBuckets _ storeFour _ ?_, by decide⟩
  decide

theorem status_missing :
  ∃ s : State (Nat × Int), Runs.exec (step plainBuckets) (init (.new [StoreLimit.addsPeer]) storeFour)
      [.setStoreLimit 0 4 1, addsPeer] = some s ∧
    (s.storesLimit.lookup 4).map (fun bucket => plainBuckets.available bucket 0) = some 0 ∧
    (s.cluster.stores.lookup 4).map (fun store => isOverloaded plainBuckets s store 0) = some (some false) ∧
    ¬Follows plainBuckets s := by
  refine ⟨_, rfl, by decide, by decide, ?_⟩
  intro hf
  have hfour := hf 4 (1000, 0) _ (by decide) rfl 0
  revert hfour
  decide

end StoreBuckets
end PD
