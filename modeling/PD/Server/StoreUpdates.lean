import PD.Server.StoreCalls

/-! # Updates of the cached stores under concurrent calls -/

namespace PD.Shared
open Option SortedMap
namespace StoreCluster
variable (c : StoreCluster)

def setStore (store : StoreInfo) (opts : List StoreCreateOption) : StoreCluster :=
  let cloned := clone c.objects store opts
  ⟨cloned.1, c.stores.insert (cloned.1.getID cloned.2) cloned.2⟩

def handleStoreHeartbeat (stats : StoreStats) (now : Int) : Result :=
  match c.stores.lookup stats.storeId with
  | none => (.error (.storeNotFound stats.storeId), c)
  | some store => (.ok (), c.setStore store [setStoreStats stats, setLastHeartbeatTS now])

structure RegionCounts where
  leaderCount : Nat
  regionCount : Nat
  pendingPeerCount : Nat
  leaderSize : Int
  regionSize : Int

variable (storeID : Nat)

def updateStoreStatusLocked (n : RegionCounts) : StoreCluster :=
  match c.stores.lookup storeID with
  | none => c
  | some store => c.setStore store [setLeaderCount n.leaderCount, setRegionCount n.regionCount,
      setPendingPeerCount n.pendingPeerCount, setLeaderSize n.leaderSize, setRegionSize n.regionSize]

def RegionCounts.shown (n : RegionCounts) (s : StoreInfo) : StoreInfo :=
  { s with
    leaderCount := n.leaderCount
    regionCount := n.regionCount
    pendingPeerCount := n.pendingPeerCount
    leaderSize := n.leaderSize
    regionSize := n.regionSize }

inductive BlockError where
  | storeNotFound (storeID : Nat)
  | storeBlocked (storeID : Nat)

def blockStore : Except BlockError Unit × StoreCluster :=
  match c.stores.lookup storeID with
  | none => (.error (.storeNotFound storeID), c)
  | some store =>
    if store.blocked then (.error (.storeBlocked storeID), c)
    else
      let cloned := clone c.objects store [setStoreBlock]
      (.ok (), ⟨cloned.1, c.stores.insert storeID cloned.2⟩)

def unblockStore : Option StoreCluster := (c.stores.lookup storeID).map fun store =>
    let cloned := clone c.objects store [setStoreUnBlock]
    ⟨cloned.1, c.stores.insert storeID cloned.2⟩

def attachOverloadStatus (f : Nat) : StoreCluster :=
  match c.stores.lookup storeID with
  | none => c
  | some store =>
    let cloned := clone c.objects store [setOverloadStatus f]
    ⟨cloned.1, c.stores.insert storeID cloned.2⟩

end StoreCluster

namespace StoreUpdates

inductive Work where
  | state (state : StoreState)
  | weights (leaderWeight regionWeight : UInt64)
  | put (request : StoreProto)

def Work.sets : Work → StoreInfo → StoreInfo
  | .weights leaderWeight regionWeight, s => { s with leaderWeight := leaderWeight, regionWeight := regionWeight }
  | _, s => s

section
variable {V : Type} (semver : Semver V) (equalFold : String → String → Bool)

def putCheck (env : Env V) (c : StoreCluster) (request : StoreProto) : Except StoreError (Option StoreInfo) :=
  (c.checkPut semver env request).map fun _ => c.stores.lookup request.id

def updated (o : Objects) (s : StoreInfo) (request : StoreProto) : Objects × StoreInfo :=
  let labels := o.labels.allocAll request.labels
  let merged := mergeLabels equalFold labels.1 (o.getMeta s).labels labels.2
  clone ⟨o.metas, merged.1⟩ s
    [setStoreAddress request.address, setStoreVersion request.version, setStoreLabels merged.2]

def write (env : Env V) (savesWeight : Bool) (c : StoreCluster) (store : StoreInfo) : Work → Result
  | .state state => c.writeState env.saves store state
  | .weights leaderWeight regionWeight =>
    if savesWeight then
      let cloned := clone c.objects store [setLeaderWeight leaderWeight, setRegionWeight regionWeight]
      StoreCluster.putStoreLocked env.saves ⟨cloned.1, c.stores⟩ cloned.2
    else (.error .storage, c)
  | .put request =>
    let cloned := updated equalFold c.objects store request
    let c' : StoreCluster := ⟨cloned.1, c.stores⟩
    match StoreCluster.checkLabels equalFold env (cloned.1.view cloned.2).labels with
    | .error e => (.error e, c')
    | .ok () => c'.putStoreLocked env.saves cloned.2

structure System where
  cluster : StoreCluster
  calls : SortedMap Nat (StoreInfo × Work)
  latest : SortedMap Nat StoreInfo

inductive Label (V : Type) where
  | removeStore (n storeID : Nat)
  | buryStore (n storeID : Nat) (force : Bool)
  | setStoreState (n storeID : Nat) (state : StoreState)
  | setStoreWeight (n storeID : Nat) (leaderWeight regionWeight : UInt64)
  | putStore (n : Nat) (env : Env V) (request : StoreProto)
  | write (n : Nat) (env : Env V) (savesWeight : Bool)
  | handleStoreHeartbeat (stats : StoreStats) (now : Int)
  | updateStoreStatusLocked (storeID : Nat) (counts : StoreCluster.RegionCounts)
  | blockStore (storeID : Nat)
  | unblockStore (storeID : Nat)
  | attachOverloadStatus (storeID f : Nat)

def init (cluster : StoreCluster) : System := ⟨cluster, .empty, cluster.stores⟩

variable (s : System)

def System.read (n : Nat) (work : Work) (check : Except StoreError (Option StoreInfo)) : Option System :=
  if s.calls.lookup n = none then
    match check with
    | .ok (some store) => some { s with calls := s.calls.insert n (store, work) }
    | _ => some s
  else none

def touch (m : SortedMap Nat StoreInfo) (storeID : Nat) (f : StoreInfo → StoreInfo) : SortedMap Nat StoreInfo :=
  match m.lookup storeID with
  | none => m
  | some s => m.insert storeID (f s)

def touchIf {ε : Type} (e : Except ε Unit) (m : SortedMap Nat StoreInfo) (storeID : Nat)
  (f : StoreInfo → StoreInfo) : SortedMap Nat StoreInfo :=
  match e with
  | .ok () => touch m storeID f
  | .error _ => m

def step : Label V → Option System
  | .removeStore n storeID => s.read n (.state .offline) (s.cluster.removeCheck storeID)
  | .buryStore n storeID force => s.read n (.state .tombstone) (s.cluster.buryCheck storeID force)
  | .setStoreState n storeID state => s.read n (.state state) (s.cluster.setStateCheck storeID)
  | .setStoreWeight n storeID leaderWeight regionWeight =>
    s.read n (.weights leaderWeight regionWeight) (s.cluster.setStateCheck storeID)
  | .putStore n env request =>
    if s.cluster.stores.lookup request.id = none then none
    else s.read n (.put request) (putCheck semver env s.cluster request)
  | .write n env savesWeight =>
    (s.calls.lookup n).map fun (store, work) =>
      let r := write equalFold env savesWeight s.cluster store work
      ⟨r.2, s.calls.erase n, touchIf r.1 s.latest (s.cluster.objects.getID store) work.sets⟩
  | .handleStoreHeartbeat stats now =>
    let r := s.cluster.handleStoreHeartbeat stats now
    some { s with
      cluster := r.2
      latest := touchIf r.1 s.latest stats.storeId fun st => { st with stats := stats, lastHeartbeatTS := now } }
  | .updateStoreStatusLocked storeID n => some { s with
      cluster := s.cluster.updateStoreStatusLocked storeID n
      latest := touch s.latest storeID n.shown }
  | .blockStore storeID =>
    let r := s.cluster.blockStore storeID
    some { s with
      cluster := r.2, latest := touchIf r.1 s.latest storeID fun st => { st with blocked := true } }
  | .unblockStore storeID => (s.cluster.unblockStore storeID).map fun cluster =>
    { s with cluster := cluster, latest := touch s.latest storeID fun st => { st with blocked := false } }
  | .attachOverloadStatus storeID f => some { s with
      cluster := s.cluster.attachOverloadStatus storeID f
      latest := touch s.latest storeID fun st => { st with overloaded := some f } }

def Fresh : Prop := s.cluster.stores = s.latest

def Unchanged : Label V → Prop
  | .write n env savesWeight => ∀ store work, s.calls.lookup n = some (store, work) →
      (write equalFold env savesWeight s.cluster store work).1 = .ok () →
      ∃ cached, s.cluster.stores.lookup (s.cluster.objects.getID store) = some cached ∧
        work.sets cached = work.sets store
  | _ => True

end

def Keyed (c : StoreCluster) : Prop := ∀ id s, c.stores.lookup id = some s → c.objects.getID s = id
def SameIDs (o o' : Objects) : Prop := ∀ s, o'.getID s = o.getID s

structure Puts (c : StoreCluster) (store : StoreInfo) (r : Result) : Prop where
  keyed : Keyed r.2
  stores_eq : r.2.stores = match r.1 with
    | .ok () => c.stores.insert (c.objects.getID store) store
    | .error _ => c.stores

section
variable {V : Type} {semver : Semver V} {equalFold : String → String → Bool} {c : StoreCluster} {o : Objects}
variable {s t : System} {store : StoreInfo} {storeID : Nat} {f : StoreInfo → StoreInfo}

lemma Keyed.sameIDs (hk : Keyed c) (ho : SameIDs c.objects o) : Keyed ⟨o, c.stores⟩ :=
  fun id s hs => (ho s).trans (hk id s hs)

lemma Keyed.insert (hk : Keyed c) (ho : SameIDs c.objects o) (hid : c.objects.getID store = storeID) :
  Keyed ⟨o, c.stores.insert storeID store⟩ :=
  forall_insert (P := fun id s => o.getID s = id) ((ho store).trans hid) (hk.sameIDs ho)

lemma puts_putStoreLocked (saves : Nat → Bool) (hk : Keyed c) (ho : SameIDs c.objects o) (store : StoreInfo) :
  Puts c store (StoreCluster.putStoreLocked saves ⟨o, c.stores⟩ store) := by
  unfold StoreCluster.putStoreLocked
  split
  · rw [show o.getID store = c.objects.getID store from ho store]
    exact ⟨hk.insert ho rfl, rfl⟩
  · exact ⟨hk.sameIDs ho, rfl⟩

lemma puts_writeState (saves : Nat → Bool) (hk : Keyed c) (store : StoreInfo) (state : StoreState) :
  Puts c store (c.writeState saves store state) := by
  refine puts_putStoreLocked saves hk ?_ store
  intro x
  refine Heap.apply_get_modify StoreMeta.id ?_
  intro m
  rfl

lemma puts_write (equalFold : String → String → Bool) (env : Env V) (savesWeight : Bool) (hk : Keyed c)
  (store : StoreInfo) (work : Work) : Puts c (work.sets store) (write equalFold env savesWeight c store work) := by
  cases work with
  | state state => exact puts_writeState env.saves hk store state
  | weights =>
    simp only [write]
    split
    · exact puts_putStoreLocked env.saves hk (fun _ => rfl) _
    · exact ⟨hk, rfl⟩
  | put request =>
    have ho : SameIDs c.objects (updated equalFold c.objects store request).1 := by
      intro x
      refine (Heap.apply_get_modify StoreMeta.id ?_).trans
        ((Heap.apply_get_modify StoreMeta.id ?_).trans (Heap.apply_get_modify StoreMeta.id ?_))
      all_goals
        intro m
        rfl
    simp only [write]
    split
    · exact ⟨hk.sameIDs ho, rfl⟩
    · exact puts_putStoreLocked env.saves hk ho store

lemma touch_of_lookup {m : SortedMap Nat StoreInfo} (h : m.lookup storeID = some store) :
  touch m storeID f = m.insert storeID (f store) := by
  rw [touch, h]

lemma lookup_touch (m : SortedMap Nat StoreInfo) (storeID : Nat) (f : StoreInfo → StoreInfo) (id : Nat) :
  (touch m storeID f).lookup id = if id = storeID then (m.lookup storeID).map f else m.lookup id := by
  unfold touch
  split
  next hl =>
    split
    next h => rw [h, hl, map_none]
    · rfl
  next _ hl => rw [lookup_insert, hl, map_some]

lemma insert_eq_touch {m : SortedMap Nat StoreInfo} : m.insert storeID (f store) = touch m storeID f ↔
  ∃ cached, m.lookup storeID = some cached ∧ f cached = f store := by
  constructor
  · intro h
    have hself := congrArg (fun m => m.lookup storeID) h
    rw [lookup_insert_self] at hself
    unfold touch at hself
    cases hl : m.lookup storeID with
    | none =>
      rw [hl] at hself
      exact absurd (hself.trans hl) (some_ne_none _)
    | some cached =>
      rw [hl, lookup_insert_self] at hself
      exact ⟨cached, rfl, (some.inj hself).symm⟩
  intro ⟨cached, hl, he⟩
  rw [touch_of_lookup hl, he]

lemma keyed_touch (hk : Keyed c) (href : ∀ s, (f s).metaRef = s.metaRef) :
  Keyed ⟨c.objects, touch c.stores storeID f⟩ := by
  unfold touch
  split
  · exact hk
  next store hl =>
    refine hk.insert (fun _ => rfl) ?_
    unfold Objects.getID Objects.getMeta
    rw [href store]
    exact hk storeID store hl

lemma setStore_eq (hk : Keyed c) (hl : c.stores.lookup storeID = some store) {opts : List StoreCreateOption}
  (hclone : clone c.objects store opts = (c.objects, f store)) (href : (f store).metaRef = store.metaRef) :
  c.setStore store opts = ⟨c.objects, touch c.stores storeID f⟩ := by
  have hid : c.objects.getID (f store) = storeID := by
    unfold Objects.getID Objects.getMeta
    rw [href]
    exact hk storeID store hl
  unfold StoreCluster.setStore
  rw [hclone, touch_of_lookup hl]
  show StoreCluster.mk c.objects (c.stores.insert (c.objects.getID (f store)) (f store)) = _
  rw [hid]

lemma handleStoreHeartbeat_eq (hk : Keyed c) (stats : StoreStats) (now : Int) :
  (c.handleStoreHeartbeat stats now).2 = ⟨c.objects, touch c.stores stats.storeId fun st =>
    { st with stats := stats, lastHeartbeatTS := now }⟩ := by
  unfold StoreCluster.handleStoreHeartbeat
  split
  next hl => rw [touch, hl]
  next _ hl => exact setStore_eq hk hl rfl rfl

lemma attachOverloadStatus_eq (c : StoreCluster) (storeID f : Nat) : c.attachOverloadStatus storeID f =
    ⟨c.objects, touch c.stores storeID fun st => { st with overloaded := some f }⟩ := by
  unfold StoreCluster.attachOverloadStatus touch
  split <;> rfl

lemma keyed_loadStores (stored : List (StoreProto × UInt64 × UInt64)) : Keyed (.loadStores stored) :=
  fun id _ hs => ((StoreCluster.loadStores_spec stored).1.owns id _ (StoreCluster.own_of_lookup hs)).keyed

lemma fresh_read {n : Nat} {work : Work} {check : Except StoreError (Option StoreInfo)} (hf : Fresh s)
  (hk : Keyed s.cluster) (h : s.read n work check = some t) : Fresh t ∧ Keyed t.cluster := by
  unfold System.read at h
  split at h
  · split at h
    · cases h
      exact ⟨hf, hk⟩
    cases h
    exact ⟨hf, hk⟩
  · cases h

lemma fresh_step {l : Label V} (hf : Fresh s) (hk : Keyed s.cluster) (h : step semver equalFold s l = some t) :
  (Fresh t ↔ Unchanged equalFold s l) ∧ Keyed t.cluster := by
  have hread : ∀ {n work check}, s.read n work check = some t → (Fresh t ↔ True) ∧ Keyed t.cluster := by
    intro n work check h
    obtain ⟨hf', hk'⟩ := fresh_read hf hk h
    exact ⟨iff_of_true hf' trivial, hk'⟩
  unfold Fresh at hf ⊢
  cases l with
  | putStore =>
    simp only [step] at h
    split at h
    · cases h
    · exact hread h
  | write n env savesWeight =>
    obtain ⟨⟨store, work⟩, hcall, rfl⟩ := map_eq_some_iff.mp h
    obtain ⟨hkeyed, hstores⟩ := puts_write equalFold env savesWeight hk store work
    refine ⟨?_, hkeyed⟩
    have hunchanged : Unchanged equalFold s (.write n env savesWeight) ↔
        ((write equalFold env savesWeight s.cluster store work).1 = .ok () →
          ∃ cached, s.cluster.stores.lookup (s.cluster.objects.getID store) = some cached ∧
            work.sets cached = work.sets store) := by
      constructor
      · intro hu
        exact hu store work hcall
      intro hu store' work' hcall'
      obtain ⟨rfl, rfl⟩ := Prod.mk.inj (some.inj (hcall.symm.trans hcall'))
      exact hu
    rw [hunchanged]
    show _ = touchIf _ s.latest _ _ ↔ _
    have hid : s.cluster.objects.getID (work.sets store) = s.cluster.objects.getID store := by cases work <;> rfl
    rw [hstores, ← hf, hid]
    cases hres : (write equalFold env savesWeight s.cluster store work).1 with
    | error => exact iff_of_true rfl nofun
    | ok u =>
      rw [show touchIf (Except.ok u) s.cluster.stores _ work.sets = touch _ _ _ from rfl, insert_eq_touch]
      exact ⟨fun hu _ => hu, fun hu => hu rfl⟩
  | handleStoreHeartbeat stats =>
    cases h
    dsimp only
    rw [handleStoreHeartbeat_eq hk, ← hf]
    refine ⟨iff_of_true ?_ trivial, keyed_touch hk fun _ => rfl⟩
    cases hl : s.cluster.stores.lookup stats.storeId with
    | none => simp only [StoreCluster.handleStoreHeartbeat, hl, touchIf, touch]
    | some => simp only [StoreCluster.handleStoreHeartbeat, hl, touchIf]
  | updateStoreStatusLocked storeID n =>
    cases h
    have he : s.cluster.updateStoreStatusLocked storeID n =
        ⟨s.cluster.objects, touch s.cluster.stores storeID n.shown⟩ := by
      unfold StoreCluster.updateStoreStatusLocked
      split
      next hl => rw [touch, hl]
      next _ hl => exact setStore_eq hk hl rfl rfl
    dsimp only
    rw [he, ← hf]
    exact ⟨iff_of_true rfl trivial, keyed_touch hk fun _ => rfl⟩
  | blockStore storeID =>
    cases h
    simp only [StoreCluster.blockStore]
    cases hl : s.cluster.stores.lookup storeID with
    | none => exact ⟨iff_of_true hf trivial, hk⟩
    | some store =>
      dsimp only
      split
      · exact ⟨iff_of_true hf trivial, hk⟩
      rw [← hf, touchIf, touch_of_lookup hl]
      refine ⟨iff_of_true rfl trivial, ?_⟩
      exact hk.insert (fun _ => rfl) (hk storeID store hl)
  | unblockStore storeID =>
    obtain ⟨_, hc, rfl⟩ := map_eq_some_iff.mp h
    obtain ⟨store, hl, rfl⟩ := map_eq_some_iff.mp hc
    dsimp only
    rw [← hf, touch_of_lookup hl]
    refine ⟨iff_of_true rfl trivial, ?_⟩
    exact hk.insert (fun _ => rfl) (hk storeID store hl)
  | attachOverloadStatus =>
    cases h
    dsimp only
    rw [attachOverloadStatus_eq, ← hf]
    exact ⟨iff_of_true rfl trivial, keyed_touch hk fun _ => rfl⟩
  | _ => exact hread h

end

section
variable {V : Type} (semver : Semver V) (equalFold : String → String → Bool)

/-- **Concurrent updates**: none is lost exactly if each write finds the store as read. -/
theorem fresh_iff (stored : List (StoreProto × UInt64 × UInt64)) (ls : List (Label V)) :
  Runs.Steps (step semver equalFold) (fun _ _ t => Fresh t) (init (.loadStores stored)) ls ↔
    Runs.Steps (step semver equalFold) (fun s l _ => Unchanged equalFold s l) (init (.loadStores stored)) ls := by
  refine Runs.steps_iff (fun s => Fresh s ∧ Keyed s.cluster) ?_ ⟨rfl, keyed_loadStores stored⟩
  intro s l t ⟨hf, hk⟩ h
  obtain ⟨hiff, hk'⟩ := fresh_step hf hk h
  exact ⟨hiff, fun hf' => ⟨hf', hk'⟩⟩

end

def weightsAround (stats : StoreStats) : List (Label (Nat × Nat)) :=
  [.setStoreWeight 0 1 0 0, .handleStoreHeartbeat stats 7, .write 0 StoreCluster.plainEnv true]

theorem heartbeat_lost : ∃ s, Runs.exec (step StoreCluster.baseVersion StoreCluster.asciiFold)
      (init (.bootstrapped ⟨1, "", .up, [], ""⟩)) (weightsAround ⟨1, 100, 40, 60, 0, 0, 0, false⟩) = some s ∧
    (s.latest.lookup 1).map (fun st => (st.stats.usedSize, st.lastHeartbeatTS)) = some (60, 7) ∧
    (s.cluster.stores.lookup 1).map (fun st => (st.stats.usedSize, st.lastHeartbeatTS)) = some (0, 0) ∧ ¬Fresh s := by
  refine ⟨_, rfl, by decide, by decide, ?_⟩
  intro hf
  exact absurd (congrArg (fun m => (m.lookup 1).map StoreInfo.lastHeartbeatTS) hf) (by decide)

end StoreUpdates
end PD.Shared
