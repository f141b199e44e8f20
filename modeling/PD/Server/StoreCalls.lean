import PD.Core.StoreMeta
import PD.Lib.Runs

/-! # The calls of `RaftCluster` that change stores

`Owned`: stores share no labels, so that a write to one is not seen through another. -/

namespace PD
namespace Shared
open List Option SortedMap Function

structure Semver (V : Type) where
  newVersion : String → Except String V
  lessThan : V → V → Bool
  major : V → Nat
  minor : V → Nat
  base : V

section
variable {V : Type} (semver : Semver V)

def parseVersion (v : String) : Except String V :=
  match v.toList with
  | [] => .ok semver.base
  | 'v' :: rest => semver.newVersion (String.ofList rest)
  | _ => semver.newVersion v

def isCompatible (clusterVersion v : V) : Bool := semver.lessThan clusterVersion v ||
    (semver.major clusterVersion == semver.major v && semver.minor clusterVersion == semver.minor v)

end

structure Env (V : Type) where
  clusterVersion : V
  locationLabels : List String
  strictlyMatchLabel : Bool
  saves : Nat → Bool

inductive StoreError where
  | storeNotFound (storeID : Nat)
  | invalidStoreID (storeID : Nat)
  | invalidPutStore (store : StoreProto)
  | invalidVersion (store : StoreProto) (err : String)
  | incompatibleVersion (version : String)
  | duplicatedAddress (store : StoreProto)
  | needLabel (key : String)
  | unknownLabel (key : String)
  | storeTombstoned (storeID : Nat)
  | stillUp
  | storage
  deriving DecidableEq

structure StoreCluster where
  objects : Objects
  stores : SortedMap Nat StoreInfo

abbrev Result := Except StoreError Unit × StoreCluster

namespace StoreCluster

def shows (c : StoreCluster) (storeID : Nat) : Option StoreProto := (c.stores.lookup storeID).map c.objects.view

section
variable {V : Type} (semver : Semver V) (equalFold : String → String → Bool) (env : Env V)
variable (saves : Nat → Bool)
variable (c : StoreCluster)

def putStoreLocked (s : StoreInfo) : Result :=
  if saves (c.objects.getID s) then
    (.ok (), { c with stores := c.stores.insert (c.objects.getID s) s })
  else (.error .storage, c)

def checkPut (store : StoreProto) : Except StoreError Unit :=
  if store.id = 0 then .error (.invalidPutStore store)
  else match parseVersion semver store.version with
    | .error err => .error (.invalidVersion store err)
    | .ok v =>
      if !isCompatible semver env.clusterVersion v then .error (.incompatibleVersion store.version)
      else if c.stores.values.any fun s => !c.objects.isTombstone s &&
          (c.objects.getID s != store.id && c.objects.getAddress s == store.address) then
        .error (.duplicatedAddress store)
      else .ok ()

def checkLabels (labels : List StoreLabel) : Except StoreError Unit :=
  if env.strictlyMatchLabel then
    match env.locationLabels.find? fun k => (labelValue equalFold labels k).isEmpty with
    | some k => .error (.needLabel k)
    | none => match labels.find? fun label => !env.locationLabels.contains label.key with
      | some label => .error (.unknownLabel label.key)
      | none => .ok ()
  else .ok ()

def prepareStore (store : Nat) : Objects × StoreInfo :=
  let request := c.objects.metas.get store
  match c.stores.lookup request.id with
  | none => newStoreInfo c.objects store []
  | some s =>
    let merged := mergeLabels equalFold c.objects.labels (c.objects.getMeta s).labels request.labels
    clone ⟨c.objects.metas, merged.1⟩ s
      [setStoreAddress request.address, setStoreVersion request.version, setStoreLabels merged.2]

def putStore (store : Nat) : Result :=
  match c.checkPut semver env (c.objects.value (c.objects.metas.get store)) with
  | .error e => (.error e, c)
  | .ok () =>
    let prepared := c.prepareStore equalFold store
    let c' : StoreCluster := ⟨prepared.1, c.stores⟩
    match checkLabels equalFold env (prepared.1.view prepared.2).labels with
    | .error e => (.error e, c')
    | .ok () => c'.putStoreLocked env.saves prepared.2

def putStoreRequest (store : StoreProto) : Result :=
  let received := c.objects.receive store
  StoreCluster.putStore semver equalFold env ⟨received.1, c.stores⟩ received.2

variable (storeID : Nat)

def updateStoreLabels (labels : List StoreLabel) : Result :=
  match c.stores.lookup storeID with
  | none => (.error (.invalidStoreID storeID), c)
  | some store => c.putStoreRequest semver equalFold env
      { c.objects.view store with labels := labels }

def removeCheck : Except StoreError (Option StoreInfo) :=
  match c.stores.lookup storeID with
  | none => .error (.storeNotFound storeID)
  | some store =>
    if c.objects.isOffline store then .ok none
    else if c.objects.isTombstone store then .error (.storeTombstoned storeID)
    else .ok (some store)

def buryCheck (force : Bool) : Except StoreError (Option StoreInfo) :=
  match c.stores.lookup storeID with
  | none => .error (.storeNotFound storeID)
  | some store =>
    if c.objects.isTombstone store then .ok none
    else if c.objects.isUp store && !force then .error .stillUp
    else .ok (some store)

def setStateCheck : Except StoreError (Option StoreInfo) :=
  match c.stores.lookup storeID with
  | none => .error (.storeNotFound storeID)
  | some store => .ok (some store)

def writeState (store : StoreInfo) (state : StoreState) : Result :=
  let cloned := clone c.objects store [setStoreState state]
  StoreCluster.putStoreLocked saves ⟨cloned.1, c.stores⟩ cloned.2

def finish (state : StoreState) : Except StoreError (Option StoreInfo) → Result
  | .error e => (.error e, c)
  | .ok none => (.ok (), c)
  | .ok (some store) => c.writeState saves store state

def removeStore : Result := c.finish saves .offline (c.removeCheck storeID)
def buryStore (force : Bool) : Result := c.finish saves .tombstone (c.buryCheck storeID force)
def setStoreState (state : StoreState) : Result := c.finish saves state (c.setStateCheck storeID)

def removeTombStoneRecords (c : StoreCluster) : List StoreInfo → Result
  | [] => (.ok (), c)
  | store :: rest =>
    if c.objects.isTombstone store then
      if saves (c.objects.getID store) then
        removeTombStoneRecords { c with stores := c.stores.erase (c.objects.getID store) } rest
      else (.error .storage, c)
    else removeTombStoneRecords c rest

end

inductive Call where
  | putStore (store : StoreProto)
  | updateStoreLabels (storeID : Nat) (labels : List StoreLabel)
  | removeStore (storeID : Nat)
  | buryStore (storeID : Nat) (force : Bool)
  | setStoreState (storeID : Nat) (state : StoreState)

section
variable {V : Type} (semver : Semver V) (equalFold : String → String → Bool)

def call (env : Env V) (c : StoreCluster) : Call → Result
  | .putStore store => c.putStoreRequest semver equalFold env store
  | .updateStoreLabels storeID labels => c.updateStoreLabels semver equalFold env storeID labels
  | .removeStore storeID => c.removeStore env.saves storeID
  | .buryStore storeID force => c.buryStore env.saves storeID force
  | .setStoreState storeID state => c.setStoreState env.saves storeID state

inductive Label (V : Type) where
  | call (env : Env V) (k : Call)
  | removeTombStoneRecords (env : Env V) (order : List StoreInfo)

def step (c : StoreCluster) : Label V → Option StoreCluster
  | .call env k => some (c.call semver equalFold env k).2
  | .removeTombStoneRecords env order =>
    if order.isPerm c.stores.values then some (c.removeTombStoneRecords env.saves order).2 else none

end

def loadStores (stored : List (StoreProto × UInt64 × UInt64)) : StoreCluster := stored.foldl (fun c e =>
    let received := c.objects.receive e.1
    let loaded := newStoreInfo received.1 received.2 [setLeaderWeight e.2.1, setRegionWeight e.2.2]
    ⟨loaded.1, c.stores.insert (loaded.1.getID loaded.2) loaded.2⟩) ⟨⟨.empty, .empty⟩, .empty⟩

def bootstrapped (store : StoreProto) : StoreCluster := loadStores [(store, defaultWeight, defaultWeight)]

def baseVersion : Semver (Nat × Nat) where
  newVersion v := .error v
  lessThan a b := decide (a.1 < b.1 ∨ (a.1 = b.1 ∧ a.2 < b.2))
  major := Prod.fst
  minor := Prod.snd
  base := (1, 0)

def asciiFold (a b : String) : Bool := a.toList.map Char.toLower == b.toList.map Char.toLower
def plainEnv : Env (Nat × Nat) := ⟨(1, 0), [], false, fun _ => true⟩

def own (c : StoreCluster) (id : Nat) : Option (Nat × StoreMeta) :=
  (c.stores.lookup id).map fun s => (s.metaRef, c.objects.getMeta s)

structure Owns (o : Objects) (id : Nat) (e : Nat × StoreMeta) : Prop where
  live : e.1 < o.metas.next
  keyed : e.2.id = id
  nodup : e.2.labels.Nodup
  labelsLive : ∀ r ∈ e.2.labels, r < o.labels.next

structure Owned (c : StoreCluster) : Prop where
  owns : ∀ id e, c.own id = some e → Owns c.objects id e
  apart : ∀ id e id' e', c.own id = some e → c.own id' = some e' → id ≠ id' → ∀ r ∈ e.2.labels, r ∉ e'.2.labels

section
variable {c c' : StoreCluster} {id store : Nat} {s : StoreInfo}
variable {s' : StoreInfo} {e : Nat × StoreMeta}

lemma own_of_lookup (h : c.stores.lookup id = some s) : c.own id = some (s.metaRef, c.objects.getMeta s) := by
  rw [own, h, map_some]

lemma shows_of_lookup (h : c.stores.lookup id = some s) : c.shows id = some (c.objects.view s) := by
  rw [shows, h, map_some]

lemma shows_eq (c : StoreCluster) (id : Nat) : c.shows id = (c.own id).map fun e => c.objects.value e.2 := by
  rw [shows, own, Option.map_map]
  rfl

lemma shows_congr (hown : c'.own = c.own)
  (hval : ∀ id e, c.own id = some e → c'.objects.value e.2 = c.objects.value e.2) : c'.shows = c.shows := by
  funext id
  rw [shows_eq, shows_eq, hown]
  cases he : c.own id with
  | none => rfl
  | some e => exact congrArg some (hval id e he)

lemma Owned.ref_ne (ho : c.Owned) (hs : c.stores.lookup id = some s) {id' : Nat}
  (hs' : c.stores.lookup id' = some s') (hne : id' ≠ id) : s'.metaRef ≠ s.metaRef := by
  intro e
  have h' := (ho.owns id' _ (own_of_lookup hs')).keyed
  have h := (ho.owns id _ (own_of_lookup hs)).keyed
  refine hne (h'.symm.trans (Eq.trans ?_ h))
  exact congrArg (fun r => (c.objects.metas.get r).id) e

lemma Owns.mono {o o' : Objects} (h : Owns o id e)
  (hm : o.metas.next ≤ o'.metas.next) (hl : o.labels.next ≤ o'.labels.next) : Owns o' id e :=
  ⟨lt_of_lt_of_le h.live hm, h.keyed, h.nodup, fun r hr => lt_of_lt_of_le (h.labelsLive r hr) hl⟩

lemma Owned.update (ho : c.Owned) (hown : c'.own = Function.update c.own id (some e)) (he : Owns c'.objects id e)
  (hm : c.objects.metas.next ≤ c'.objects.metas.next) (hl : c.objects.labels.next ≤ c'.objects.labels.next)
  (hother : ∀ id' e', id' ≠ id → c.own id' = some e' → ∀ r ∈ e'.2.labels,
    r ∉ e.2.labels ∧ c'.objects.labels.get r = c.objects.labels.get r) :
  c'.Owned ∧ c'.shows = Function.update c.shows id (some (c'.objects.value e.2)) := by
  have hcases : ∀ id' e', c'.own id' = some e' → (id' = id ∧ e' = e) ∨ (id' ≠ id ∧ c.own id' = some e') := by
    intro id' e' h
    rw [hown] at h
    by_cases hid : id' = id
    · rw [hid, update_self] at h
      exact .inl ⟨hid, (some.inj h).symm⟩
    rw [update_of_ne hid] at h
    exact .inr ⟨hid, h⟩
  refine ⟨⟨fun id' e' h => ?_, fun i1 e1 i2 e2 h1 h2 hne r hr hr' => ?_⟩, ?_⟩
  · rcases hcases id' e' h with ⟨rfl, rfl⟩ | ⟨-, h⟩
    · exact he
    · exact (ho.owns id' e' h).mono hm hl
  · rcases hcases i1 e1 h1 with ⟨rfl, rfl⟩ | ⟨hne1, h1⟩
    · rcases hcases i2 e2 h2 with ⟨rfl, rfl⟩ | ⟨hne2, h2⟩
      · exact hne rfl
      · exact (hother i2 e2 hne2 h2 r hr').1 hr
    rcases hcases i2 e2 h2 with ⟨rfl, rfl⟩ | ⟨-, h2⟩
    · exact (hother i1 e1 hne1 h1 r hr).1 hr'
    · exact ho.apart i1 e1 i2 e2 h1 h2 hne r hr hr'
  funext id'
  rw [shows_eq, hown]
  by_cases hid : id' = id
  · rw [hid, update_self, update_self, map_some]
  rw [update_of_ne hid, update_of_ne hid, shows_eq]
  cases h : c.own id' with
  | none => rfl
  | some e' =>
    show some (StoreProto.mk _ _ _ (e'.2.labels.map c'.objects.labels.get) _) = some (StoreProto.mk ..)
    rw [map_congr_left fun r hr => (hother id' e' hid h r hr).2]

lemma own_set (ho : c.Owned) (hs : c.stores.lookup id = some s) (m : StoreMeta) (labels : Heap StoreLabel) :
  (⟨⟨c.objects.metas.set s.metaRef m, labels⟩, c.stores⟩ : StoreCluster).own =
    Function.update c.own id (some (s.metaRef, m)) := by
  funext id'
  by_cases hid : id' = id
  · rw [hid, update_self]
    show (c.stores.lookup id).map _ = _
    rw [hs]
    show some (_, (c.objects.metas.set s.metaRef m).get s.metaRef) = _
    rw [Heap.get_set_self (ho.owns id _ (own_of_lookup hs)).live]
  rw [update_of_ne hid]
  show (c.stores.lookup id').map _ = (c.stores.lookup id').map _
  cases hs' : c.stores.lookup id' with
  | none => rfl
  | some s' =>
    show some (_, (c.objects.metas.set s.metaRef m).get s'.metaRef) = _
    rw [Heap.get_set_of_ne (ho.ref_ne hs hs' hid)]
    rfl

lemma Owned.modify (ho : c.Owned) (hs : c.stores.lookup id = some s) (f : StoreMeta → StoreMeta)
  (hid : ∀ m, (f m).id = m.id) (hlabels : ∀ m, (f m).labels = m.labels) :
  (⟨⟨c.objects.metas.modify s.metaRef f, c.objects.labels⟩, c.stores⟩ : StoreCluster).Owned ∧
    (⟨⟨c.objects.metas.modify s.metaRef f, c.objects.labels⟩, c.stores⟩ : StoreCluster).shows =
      Function.update c.shows id (some (c.objects.value (f (c.objects.getMeta s)))) := by
  have how := ho.owns id _ (own_of_lookup hs)
  refine ho.update (own_set ho hs (f (c.objects.getMeta s)) c.objects.labels) ⟨?_, ?_, ?_, ?_⟩
    Heap.next_set.ge le_rfl fun id' e' hne he' r hr => ⟨?_, rfl⟩
  · exact lt_of_lt_of_eq how.live Heap.next_set.symm
  · exact (hid _).trans how.keyed
  · exact (hlabels _).symm ▸ how.nodup
  · exact (hlabels _).symm ▸ how.labelsLive
  rw [hlabels]
  exact ho.apart id' e' id _ he' (own_of_lookup hs) hne r hr

lemma own_insert (hs : c.stores.lookup id = some s) (href : s'.metaRef = s.metaRef) :
  (⟨c.objects, c.stores.insert id s'⟩ : StoreCluster).own = c.own := by
  funext i
  show ((c.stores.insert id s').lookup i).map _ = (c.stores.lookup i).map _
  rw [lookup_insert]
  split
  next e =>
    rw [e, hs]
    exact congrArg (fun r => some (r, c.objects.metas.get r)) href
  · rfl

lemma Owned.of_own (ho : c.Owned) (hown : c'.own = c.own) (hobj : c'.objects = c.objects) :
  c'.Owned ∧ c'.shows = c.shows := by
  refine ⟨⟨fun i e h => ?_, fun i e j e' h h' => ?_⟩, shows_congr hown fun i e _ => by rw [hobj]⟩
  · rw [hobj]
    exact ho.owns i e (hown ▸ h)
  · exact ho.apart i e j e' (hown ▸ h) (hown ▸ h')

structure Incoming (c : StoreCluster) (store : Nat) : Prop where
  owns : Owns c.objects (c.objects.metas.get store).id (store, c.objects.metas.get store)
  apart : ∀ id e, c.own id = some e → ∀ r ∈ e.2.labels, r ∉ (c.objects.metas.get store).labels

lemma own_receive (ho : c.Owned) (request : StoreProto) :
  (⟨(c.objects.receive request).1, c.stores⟩ : StoreCluster).own = c.own := by
  funext id
  show (c.stores.lookup id).map _ = (c.stores.lookup id).map _
  cases hs : c.stores.lookup id with
  | none => rfl
  | some s =>
    show some (_, (c.objects.metas.alloc _).1.get s.metaRef) = _
    rw [Heap.get_alloc_of_lt (ho.owns id _ (own_of_lookup hs)).live]
    rfl

lemma Owned.receive (ho : c.Owned) (request : StoreProto) :
  (⟨(c.objects.receive request).1, c.stores⟩ : StoreCluster).Owned ∧
    (⟨(c.objects.receive request).1, c.stores⟩ : StoreCluster).shows = c.shows ∧
    (⟨(c.objects.receive request).1, c.stores⟩ : StoreCluster).Incoming (c.objects.receive request).2 ∧
    (c.objects.receive request).1.value ((c.objects.receive request).1.metas.get
      (c.objects.receive request).2) = request := by
  have hown := own_receive ho request
  have hnew : (c.objects.receive request).1.metas.get (c.objects.receive request).2 =
      ⟨request.id, request.address, request.state, (c.objects.labels.allocAll request.labels).2,
        request.version⟩ := Heap.get_alloc_self
  have hmetas : (c.objects.receive request).1.metas.next = c.objects.metas.next + 1 := Heap.next_alloc
  have hlabels : (c.objects.receive request).1.labels.next =
      c.objects.labels.next + request.labels.length := Heap.next_allocAll _
  refine ⟨⟨fun i e h => ?_, fun i e j e' h h' => ?_⟩, ?_, ⟨⟨?_, rfl, ?_, ?_⟩, ?_⟩, ?_⟩
  · exact (ho.owns i e (hown ▸ h)).mono (by show _ ≤ (c.objects.receive request).1.metas.next; omega)
      (by show _ ≤ (c.objects.receive request).1.labels.next; omega)
  · exact ho.apart i e j e' (hown ▸ h) (hown ▸ h')
  · refine shows_congr hown fun i e h => ?_
    show StoreProto.mk _ _ _ (e.2.labels.map (c.objects.labels.allocAll request.labels).1.get) _ = _
    rw [map_congr_left fun r hr => Heap.get_allocAll_of_lt _ ((ho.owns i e h).labelsLive r hr)]
    rfl
  · rw [hmetas]
    exact Nat.lt_succ_self _
  · rw [hnew]
    exact Heap.nodup_allocAll _
  · intro r hr
    rw [hnew] at hr
    rw [hlabels]
    exact (Heap.mem_allocAll.mp hr).2
  · intro i e h r hr hr'
    rw [hnew] at hr'
    exact absurd ((ho.owns i e (hown ▸ h)).labelsLive r hr) (not_lt.mpr (Heap.mem_allocAll.mp hr').1)
  rw [hnew]
  show StoreProto.mk _ _ _ ((c.objects.labels.allocAll request.labels).2.map
    (c.objects.labels.allocAll request.labels).1.get) _ = _
  rw [Heap.map_get_allocAll]

lemma Owned.add (ho : c.Owned) (hin : c.Incoming s.metaRef) (hid : c.objects.getID s = id) :
  (⟨c.objects, c.stores.insert id s⟩ : StoreCluster).Owned ∧ (⟨c.objects, c.stores.insert id s⟩ : StoreCluster).shows =
      Function.update c.shows id (some (c.objects.view s)) := by
  refine ho.update (e := (s.metaRef, c.objects.getMeta s)) ?_ (hid ▸ hin.owns) le_rfl le_rfl
    fun id' e' _ he' r hr => ⟨hin.apart id' e' he' r hr, rfl⟩
  funext i
  show ((c.stores.insert id s).lookup i).map _ = _
  by_cases e : i = id
  · rw [e, lookup_insert_self, update_self, map_some]
  rw [lookup_insert_of_ne _ _ e, update_of_ne e]
  rfl

lemma Owned.erase (ho : c.Owned) (id : Nat) : (⟨c.objects, c.stores.erase id⟩ : StoreCluster).Owned ∧
  (⟨c.objects, c.stores.erase id⟩ : StoreCluster).shows = Function.update c.shows id none := by
  have hown : (⟨c.objects, c.stores.erase id⟩ : StoreCluster).own = Function.update c.own id none := by
    funext i
    show ((c.stores.erase id).lookup i).map _ = _
    rw [lookup_erase]
    by_cases e : i = id
    · rw [if_pos e, e, update_self, map_none]
    rw [if_neg e, update_of_ne e]
    rfl
  have hold : ∀ i e, (⟨c.objects, c.stores.erase id⟩ : StoreCluster).own i = some e → c.own i = some e := by
    intro i e h
    rw [hown] at h
    by_cases hi : i = id
    · rw [hi, update_self] at h
      cases h
    · rwa [update_of_ne hi] at h
  refine ⟨⟨fun i e h => ho.owns i e (hold i e h),
    fun i e j e' h h' => ho.apart i e j e' (hold i e h) (hold j e' h')⟩, ?_⟩
  funext i
  rw [shows_eq, hown]
  by_cases hi : i = id
  · rw [hi, update_self, update_self, map_none]
  · rw [update_of_ne hi, update_of_ne hi, shows_eq]

end

section
variable {V : Type} (semver : Semver V) (equalFold : String → String → Bool) (env : Env V)
variable (saves : Nat → Bool) {c : StoreCluster} {id store : Nat} {s : StoreInfo}
variable {s' : StoreInfo} {c' : StoreCluster} {request : StoreProto} {force : Bool}

def saved (id : Nat) : Except StoreError Unit :=
  if saves id then .ok () else .error .storage

lemma putStoreLocked_spec (ho : c.Owned) (hs : c.stores.lookup id = some s) (href : s'.metaRef = s.metaRef) :
  (c.putStoreLocked saves s').1 = saved saves id ∧ (c.putStoreLocked saves s').2.own = c.own ∧
    (c.putStoreLocked saves s').2.objects = c.objects := by
  have hid : c.objects.getID s' = id := by
    show (c.objects.metas.get s'.metaRef).id = id
    rw [href]
    exact (ho.owns id _ (own_of_lookup hs)).keyed
  unfold putStoreLocked saved
  rw [hid]
  split
  · exact ⟨rfl, own_insert hs href, rfl⟩
  · exact ⟨rfl, rfl, rfl⟩

lemma writeState_spec (ho : c.Owned) (hs : c.stores.lookup id = some s)
    (href : s'.metaRef = s.metaRef) (state : StoreState) :
    (c.writeState saves s' state).1 = saved saves id ∧ (c.writeState saves s' state).2.own =
        Function.update c.own id (some (s.metaRef, { c.objects.getMeta s with state := state })) ∧
      (c.writeState saves s' state).2.Owned ∧
      (c.writeState saves s' state).2.shows =
        Function.update c.shows id (some { c.objects.view s with state := state }) := by
  obtain ⟨ho', hshows⟩ := ho.modify hs (fun m => { m with state := state }) (fun _ => rfl) fun _ => rfl
  obtain ⟨hres, hown, hobj⟩ := putStoreLocked_spec saves ho' hs href
  obtain ⟨ho'', hsame⟩ := ho'.of_own hown hobj
  rw [← href] at hres hown ho'' hsame hshows
  refine ⟨hres, hown.trans ?_, ho'', hsame.trans hshows⟩
  rw [href]
  exact own_set ho hs _ _

lemma prepareStore_cached (hlive : s.metaRef < c.objects.metas.next)
    (hs : c.stores.lookup (c.objects.metas.get store).id = some s) {labels : Heap StoreLabel} {refs : List Nat}
    (hm : mergeLabels equalFold c.objects.labels (c.objects.getMeta s).labels
      (c.objects.metas.get store).labels = (labels, refs)) :
    c.prepareStore equalFold store = (⟨c.objects.metas.set s.metaRef { c.objects.getMeta s with
      address := (c.objects.metas.get store).address
      version := (c.objects.metas.get store).version
      labels := refs }, labels⟩, s) := by
  unfold prepareStore clone setStoreAddress setStoreVersion setStoreLabels setMeta
  simp only [hs, hm, foldl_cons, foldl_nil, Heap.modify_modify _ _ hlive]
  rfl

lemma prepareStore_spec (ho : c.Owned) (hin : c.Incoming store)
    (hs : c.stores.lookup (c.objects.metas.get store).id = some s) :
    (c.prepareStore equalFold store).2 = s ∧ (⟨(c.prepareStore equalFold store).1, c.stores⟩ : StoreCluster).Owned ∧
      (⟨(c.prepareStore equalFold store).1, c.stores⟩ : StoreCluster).shows =
        Function.update c.shows (c.objects.metas.get store).id (some { c.objects.view s with
          address := (c.objects.metas.get store).address
          version := (c.objects.metas.get store).version
          labels := mergeValues equalFold (c.objects.view s).labels
            (c.objects.value (c.objects.metas.get store)).labels }) := by
  have how := ho.owns _ _ (own_of_lookup hs)
  obtain ⟨labels, refs, hm⟩ : ∃ labels refs, mergeLabels equalFold c.objects.labels
      (c.objects.getMeta s).labels (c.objects.metas.get store).labels = (labels, refs) := ⟨_, _, rfl⟩
  obtain ⟨hval, hnext, hframe, hsub⟩ := mergeLabels_spec hm
    (nodup_append.mpr ⟨how.nodup, hin.owns.nodup, fun a ha b hb e =>
      hin.apart _ _ (own_of_lookup hs) a ha (e ▸ hb)⟩)
    (fun r hr => (mem_append.mp hr).elim (how.labelsLive r) (hin.owns.labelsLive r))
  have hnd : refs.Nodup := (nodup_append.mpr ⟨how.nodup, hin.owns.nodup, fun a ha b hb e =>
      hin.apart _ _ (own_of_lookup hs) a ha (e ▸ hb)⟩).sublist hsub
  have hlive : ∀ r ∈ refs, r < labels.next := fun r hr => by
    rw [hnext]
    exact (mem_append.mp (hsub.subset hr)).elim (how.labelsLive r) (hin.owns.labelsLive r)
  -- the labels of the other stores are neither of this store nor of the request
  have hother : ∀ id' e', id' ≠ (c.objects.metas.get store).id → c.own id' = some e' →
      ∀ r ∈ e'.2.labels, r ∉ (c.objects.getMeta s).labels ++ (c.objects.metas.get store).labels :=
    fun id' e' hne he' r hr hr' => (mem_append.mp hr').elim
      (ho.apart id' e' _ _ he' (own_of_lookup hs) hne r hr) (hin.apart id' e' he' r hr)
  rw [prepareStore_cached equalFold how.live hs hm]
  refine ⟨rfl, ?_⟩
  obtain ⟨ho', hshows⟩ := ho.update (own_set ho hs { c.objects.getMeta s with
      address := (c.objects.metas.get store).address
      version := (c.objects.metas.get store).version
      labels := refs } labels)
    ⟨lt_of_lt_of_eq how.live Heap.next_set.symm, how.keyed, hnd, hlive⟩ Heap.next_set.ge hnext.ge
    fun id' e' hne he' r hr => ⟨fun hr' => hother id' e' hne he' r hr (hsub.subset hr'),
      hframe r (hother id' e' hne he' r hr)⟩
  refine ⟨ho', hshows.trans ?_⟩
  show Function.update c.shows _ (some (StoreProto.mk _ _ _ (refs.map labels.get) _)) = _
  rw [hval]
  rfl

def Taken (c : StoreCluster) (id : Nat) (address : String) : Prop :=
  ∃ id' other, c.shows id' = some other ∧ other.state ≠ .tombstone ∧ other.id ≠ id ∧ other.address = address

lemma any_taken (c : StoreCluster) (request : StoreProto) : (c.stores.values.any fun s => !c.objects.isTombstone s &&
    (c.objects.getID s != request.id && c.objects.getAddress s == request.address)) = true ↔
      c.Taken request.id request.address := by
  rw [List.any_eq_true]
  constructor
  · rintro ⟨s, hs, h⟩
    obtain ⟨id, hid⟩ := mem_values.mp hs
    simp only [Bool.and_eq_true, Bool.not_eq_true', bne_iff_ne, beq_iff_eq, Objects.isTombstone,
      beq_eq_false_iff_ne] at h
    exact ⟨id, c.objects.view s, shows_of_lookup hid, h.1, h.2.1, h.2.2⟩
  rintro ⟨id, other, hshows, htomb, hne, haddr⟩
  obtain ⟨s, hs, rfl⟩ := map_eq_some_iff.mp hshows
  refine ⟨s, mem_values.mpr ⟨id, hs⟩, ?_⟩
  simp only [Bool.and_eq_true, Bool.not_eq_true', bne_iff_ne, beq_iff_eq, Objects.isTombstone, beq_eq_false_iff_ne]
  exact ⟨htomb, hne, haddr⟩

lemma checkPut_congr (h : c'.shows = c.shows) (request : StoreProto) :
  c'.checkPut semver env request = c.checkPut semver env request := by
  have htaken : c'.Taken request.id request.address ↔ c.Taken request.id request.address := by
    unfold Taken
    rw [h]
  unfold checkPut
  rw [Bool.eq_iff_iff.mpr ((any_taken c' request).trans (htaken.trans (any_taken c request).symm))]

lemma not_taken_of_checkPut (h : c.checkPut semver env request = .ok ()) : ¬ c.Taken request.id request.address := by
  rw [← any_taken]
  unfold checkPut at h
  split at h
  · cases h
  split at h
  · cases h
  split at h
  · cases h
  split at h
  · cases h
  next h' => exact h'

inductive PutOutcome (semver : Semver V) (equalFold : String → String → Bool) (env : Env V)
    (c : StoreCluster) (request : StoreProto) : Result → Prop where
  | refused {e : StoreError} {c' : StoreCluster} (hcheck : c.checkPut semver env request = .error e)
      (hsame : c'.shows = c.shows) : PutOutcome semver equalFold env c request (.error e, c')
  | notAdded {e : StoreError} {c' : StoreCluster} (hcheck : c.checkPut semver env request = .ok ())
      (hnew : c.shows request.id = none) (hsame : c'.shows = c.shows) :
      PutOutcome semver equalFold env c request (.error e, c')
  | added {c' : StoreCluster} (hcheck : c.checkPut semver env request = .ok ())
      (hnew : c.shows request.id = none)
      (hshows : c'.shows = Function.update c.shows request.id (some request)) :
      PutOutcome semver equalFold env c request (.ok (), c')
  | changed {res : Except StoreError Unit} {c' : StoreCluster} {old : StoreProto}
      (hcheck : c.checkPut semver env request = .ok ()) (hold : c.shows request.id = some old)
      (hshows : c'.shows = Function.update c.shows request.id (some { old with
        address := request.address
        version := request.version
        labels := mergeValues equalFold old.labels request.labels })) :
      PutOutcome semver equalFold env c request (res, c')

lemma putStore_outcome (ho : c.Owned) (hin : c.Incoming store)
  (hval : c.objects.value (c.objects.metas.get store) = request) : (c.putStore semver equalFold env store).2.Owned ∧
    PutOutcome semver equalFold env c request (c.putStore semver equalFold env store) := by
  subst hval
  unfold putStore
  cases hcheck : c.checkPut semver env (c.objects.value (c.objects.metas.get store)) with
  | error => exact ⟨ho, .refused hcheck rfl⟩
  | ok =>
    cases hs : c.stores.lookup (c.objects.metas.get store).id with
    | none =>
      have hprep : c.prepareStore equalFold store = newStoreInfo c.objects store [] := by
        unfold prepareStore
        simp only [hs]
      have hnew : c.shows (c.objects.metas.get store).id = none := by rw [shows, hs, map_none]
      simp only [hprep]
      split
      · exact ⟨ho, .notAdded hcheck hnew rfl⟩
      unfold putStoreLocked
      split
      · obtain ⟨ho', hshows⟩ := ho.add (s := (newStoreInfo c.objects store []).2) hin rfl
        exact ⟨ho', .added hcheck hnew hshows⟩
      · exact ⟨ho, .notAdded hcheck hnew rfl⟩
    | some =>
      obtain ⟨hstore, ho', hshows⟩ := prepareStore_spec equalFold ho hin hs
      dsimp only
      split
      · exact ⟨ho', .changed hcheck (shows_of_lookup hs) hshows⟩
      obtain ⟨_, hown, hobj⟩ := putStoreLocked_spec env.saves ho' hs (congrArg StoreInfo.metaRef hstore)
      obtain ⟨ho'', hsame⟩ := ho'.of_own hown hobj
      exact ⟨ho'', .changed hcheck (shows_of_lookup hs) (hsame.trans hshows)⟩

lemma putStoreRequest_outcome (ho : c.Owned) (request : StoreProto) :
  (c.putStoreRequest semver equalFold env request).2.Owned ∧
    PutOutcome semver equalFold env c request (c.putStoreRequest semver equalFold env request) := by
  obtain ⟨ho', hsame, hin, hval⟩ := ho.receive request
  obtain ⟨howned, hout⟩ := putStore_outcome semver equalFold env ho' hin hval
  refine ⟨howned, ?_⟩
  unfold putStoreRequest
  generalize StoreCluster.putStore semver equalFold env ⟨(c.objects.receive request).1, c.stores⟩
    (c.objects.receive request).2 = r at hout
  have hcongr := checkPut_congr semver env hsame request
  cases hout with
  | refused hcheck h => exact .refused (hcongr ▸ hcheck) (h.trans hsame)
  | notAdded hcheck hnew h => exact .notAdded (hcongr ▸ hcheck) (hsame ▸ hnew) (h.trans hsame)
  | added hcheck hnew h => exact .added (hcongr ▸ hcheck) (hsame ▸ hnew) (hsame ▸ h)
  | changed hcheck hold h => exact .changed (hcongr ▸ hcheck) (hsame ▸ hold) (hsame ▸ h)

lemma finish_cases (ho : c.Owned) (state : StoreState) {check : Except StoreError (Option StoreInfo)}
  (hcheck : ∀ s, check = .ok (some s) → c.stores.lookup id = some s) :
  (c.finish saves state check).2.Owned ∧ ((∃ e, check = .error e ∧ c.finish saves state check = (.error e, c)) ∨
      (check = .ok none ∧ c.finish saves state check = (.ok (), c)) ∨
      (∃ old, (∃ s, check = .ok (some s) ∧ c.objects.view s = old) ∧ c.shows id = some old ∧
        (c.finish saves state check).1 = saved saves id ∧ (c.finish saves state check).2.shows =
          Function.update c.shows id (some { old with state := state }))) := by
  cases check with
  | error e => exact ⟨ho, .inl ⟨e, rfl, rfl⟩⟩
  | ok o =>
    cases o with
    | none => exact ⟨ho, .inr (.inl ⟨rfl, rfl⟩)⟩
    | some s =>
      obtain ⟨hres, _, ho', hshows⟩ := writeState_spec saves ho (hcheck s rfl) rfl state
      exact ⟨ho', .inr (.inr ⟨_, ⟨s, rfl, rfl⟩, shows_of_lookup (hcheck s rfl), hres, hshows⟩)⟩

lemma removeCheck_some (h : c.removeCheck id = .ok (some s)) :
  c.stores.lookup id = some s ∧ c.objects.getState s = .up := by
  unfold removeCheck at h
  split at h
  · cases h
  next _ hs =>
    split at h
    · cases h
    next hoff =>
      split at h
      · cases h
      next htomb =>
        cases h
        refine ⟨hs, ?_⟩
        cases hst : c.objects.getState s with
        | up => rfl
        | offline => exact absurd (beq_iff_eq.mpr hst) hoff
        | tombstone => exact absurd (beq_iff_eq.mpr hst) htomb

lemma removeCheck_of_up (hs : c.stores.lookup id = some s) (hup : c.objects.getState s = .up) :
  c.removeCheck id = .ok (some s) := by
  unfold removeCheck Objects.isOffline Objects.isTombstone
  rw [hs]
  show ite _ _ _ = _
  rw [hup]
  rfl

lemma buryCheck_some (h : c.buryCheck id force = .ok (some s)) :
  c.stores.lookup id = some s ∧ c.objects.getState s ≠ .tombstone ∧ (force = false → c.objects.getState s ≠ .up) := by
  unfold buryCheck at h
  split at h
  · cases h
  next _ hs =>
    split at h
    · cases h
    next htomb =>
      split at h
      · cases h
      next hup =>
        cases h
        refine ⟨hs, fun e => htomb (beq_iff_eq.mpr e), fun hf e => hup ?_⟩
        rw [hf, Objects.isUp, e]
        rfl

lemma buryCheck_of (hs : c.stores.lookup id = some s) (htomb : c.objects.getState s ≠ .tombstone)
  (hup : c.objects.getState s = .up → force = true) : c.buryCheck id force = .ok (some s) := by
  unfold buryCheck Objects.isUp Objects.isTombstone
  rw [hs]
  show ite _ _ _ = _
  cases hst : c.objects.getState s with
  | up => rw [hup hst]; rfl
  | offline => rfl
  | tombstone => exact absurd hst htomb

lemma setStateCheck_some (h : c.setStateCheck id = .ok (some s)) : c.stores.lookup id = some s := by
  unfold setStateCheck at h
  split at h
  · cases h
  next _ hs =>
    cases h
    exact hs

lemma removeTombStoneRecords_spec (ho : c.Owned) (order : List StoreInfo) :
  (c.removeTombStoneRecords saves order).2.Owned ∧
    ∀ i x, (c.removeTombStoneRecords saves order).2.shows i = some x → c.shows i = some x := by
  induction order generalizing c with
  | nil => exact ⟨ho, fun _ _ h => h⟩
  | cons store _ ih =>
    unfold removeTombStoneRecords
    split
    · split
      · obtain ⟨ho', hshows⟩ := ho.erase (c.objects.getID store)
        obtain ⟨ho'', hsub⟩ := ih ho'
        refine ⟨ho'', fun i x h => ?_⟩
        have h' := hsub i x h
        rw [hshows] at h'
        by_cases hi : i = c.objects.getID store
        · rw [hi, update_self] at h'
          cases h'
        · rwa [update_of_ne hi] at h'
      · exact ⟨ho, fun _ _ h => h⟩
    · exact ih ho

lemma loadStores_spec (stored : List (StoreProto × UInt64 × UInt64)) :
  (loadStores stored).Owned ∧ (loadStores stored).shows =
    stored.foldl (fun (f : Nat → Option StoreProto) e => Function.update f e.1.id (some e.1)) fun _ => none := by
  unfold loadStores
  have hempty : (⟨⟨.empty, .empty⟩, .empty⟩ : StoreCluster).Owned :=
    ⟨fun id e h => (by cases h), fun id e id' e' h => (by cases h)⟩
  have hnone : (⟨⟨.empty, .empty⟩, .empty⟩ : StoreCluster).shows = fun _ => none := rfl
  rw [← hnone]
  generalize (⟨⟨.empty, .empty⟩, .empty⟩ : StoreCluster) = c at hempty
  induction stored generalizing c with
  | nil => exact ⟨hempty, rfl⟩
  | cons e stored ih =>
    obtain ⟨ho, hsame, hin, hval⟩ := hempty.receive e.1
    obtain ⟨ho', hshows⟩ := ho.add (s := (newStoreInfo _ (c.objects.receive e.1).2
      [setLeaderWeight e.2.1, setRegionWeight e.2.2]).2) hin rfl
    obtain ⟨howned, hload⟩ := ih _ ho'
    refine ⟨howned, hload.trans ?_⟩
    rw [foldl_cons, hshows, hsame]
    have hid : (c.objects.receive e.1).1.getID (newStoreInfo (c.objects.receive e.1).1
        (c.objects.receive e.1).2 [setLeaderWeight e.2.1, setRegionWeight e.2.2]).2 = e.1.id :=
      congrArg StoreProto.id hval
    rw [hid]
    exact congrArg (fun x => stored.foldl _ (Function.update c.shows e.1.id (some x))) hval

lemma owned_call (ho : c.Owned) (k : Call) : (c.call semver equalFold env k).2.Owned := by
  cases k with
  | putStore request => exact (putStoreRequest_outcome semver equalFold env ho request).1
  | updateStoreLabels storeID labels =>
    show (c.updateStoreLabels semver equalFold env storeID labels).2.Owned
    unfold updateStoreLabels
    split
    · exact ho
    · exact (putStoreRequest_outcome semver equalFold env ho _).1
  | removeStore => exact (finish_cases env.saves ho .offline fun s h => (removeCheck_some h).1).1
  | buryStore => exact (finish_cases env.saves ho .tombstone fun s h => (buryCheck_some h).1).1
  | setStoreState _ state => exact (finish_cases env.saves ho state fun s h => setStateCheck_some h).1

lemma owned_step {l : Label V} (ho : c.Owned) (h : c.step semver equalFold l = some c') : c'.Owned := by
  cases l with
  | call env k =>
    cases h
    exact owned_call semver equalFold env ho k
  | removeTombStoneRecords env order =>
    simp only [step] at h
    split at h
    · cases h
      exact (removeTombStoneRecords_spec env.saves ho order).1
    · cases h

end
end StoreCluster
end Shared
end PD
