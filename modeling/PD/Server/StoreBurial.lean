import PD.Core.StoreRegions
import PD.Server.RegionHeartbeat
import PD.Server.StoreUpdates

/-! # Burials by `checkStores` -/

namespace PD.Shared.StoreBurial
open SortedMap RegionsInfo ClusterInfo StoreCluster
open StoreUpdates (Keyed SameIDs)

inductive Pc where
  | idle
  | looking (rest : List StoreInfo)
  | counting (store : StoreInfo) (rest : List StoreInfo)
  | burying (storeID : Nat) (rest : List StoreInfo)
  | writing (store : StoreInfo) (rest : List StoreInfo)

structure State (V : Type) where
  info : ClusterInfo V
  cluster : StoreCluster
  pc : Pc
  calls : SortedMap Nat (StoreInfo × StoreState)

inductive Label where
  | heartbeat (hb : Heartbeat)
  | removeStore (n storeID : Nat)
  | setStoreState (n storeID : Nat) (state : StoreState)
  | write (n : Nat) (saves : Nat → Bool)
  | checkStores (order : List StoreInfo)
  | next (saves : Nat → Bool)

section
variable {V : Type} (codec : Codec V) (bad : Key → Bool) (opts : StatisticsOptions)

def init (storage : Option (Storage V)) (regionStats : Option RegionStatistics)
  (stored : List (StoreProto × UInt64 × UInt64)) : State V :=
  ⟨newClusterInfo .empty storage regionStats, .loadStores stored, .idle, .empty⟩

def State.read (s : State V) (n : Nat) (state : StoreState) (check : Except StoreError (Option StoreInfo)) :
  Option (State V) :=
  if s.calls.lookup n = none then
    match check with
    | .ok (some store) => some { s with calls := s.calls.insert n (store, state) }
    | _ => some s
  else none

def next (s : State V) (saves : Nat → Bool) : Pc → Option (State V)
  | .idle => none
  | .looking [] => some { s with pc := .idle }
  | .looking (store :: rest) =>
    if s.cluster.objects.isTombstone store || s.cluster.objects.isUp store then some { s with pc := .looking rest }
    else some { s with pc := .counting store rest }
  | .counting store rest =>
    let storeID := s.cluster.objects.getID store
    if s.info.regions.getStoreRegionCount storeID = 0 then some { s with pc := .burying storeID rest }
    else some { s with pc := .looking rest }
  | .burying storeID rest =>
    match s.cluster.buryCheck storeID false with
    | .ok (some store) => some { s with pc := .writing store rest }
    | _ => some { s with pc := .looking rest }
  | .writing store rest =>
    some { s with cluster := (s.cluster.writeState saves store .tombstone).2, pc := .looking rest }

def step (s : State V) : Label → Option (State V)
  | .heartbeat hb => (s.info.heartbeat codec bad opts hb).map fun info => { s with info := info }
  | .removeStore n storeID => s.read n .offline (s.cluster.removeCheck storeID)
  | .setStoreState n storeID state => s.read n state (s.cluster.setStateCheck storeID)
  | .write n saves => (s.calls.lookup n).map fun (store, state) =>
    { s with cluster := (s.cluster.writeState saves store state).2, calls := s.calls.erase n }
  | .checkStores order =>
    match s.pc with
    | .idle => if order.isPerm s.cluster.stores.values then some { s with pc := .looking order } else none
    | _ => none
  | .next saves => next s saves s.pc

end

section
variable {V : Type}
variable (s : State V)

def Vacant (storeID : Nat) : Prop := ∀ id x, s.info.regions.getRegion id = some x → storeID ∉ x.storeIds

def Buries : Label → Prop
  | .next _ => ∀ store rest, s.pc = .writing store rest →
      (s.cluster.shows (s.cluster.objects.getID store)).map StoreProto.state = some .offline ∧
        Vacant s (s.cluster.objects.getID store)
  | _ => True

def State.burial : Option Nat :=
  match s.pc with
  | .burying storeID _ => some storeID
  | .writing store _ => some (s.cluster.objects.getID store)
  | _ => none

def Undisturbed : Label → Prop
  | .heartbeat hb => ∀ call, s.info.checkHeartbeat hb = .ok call → call.flags.saveCache = true →
      ∀ storeID, s.burial = some storeID → storeID ∉ hb.region.storeIds
  | .write n _ => ∀ store state, s.calls.lookup n = some (store, state) → state ≠ .offline →
      ∀ store' rest, s.pc = .writing store' rest → s.cluster.objects.getID store ≠ s.cluster.objects.getID store'
  | _ => True

def Cached (c : StoreCluster) (store : StoreInfo) : Prop :=
  ∃ cached, c.stores.lookup (c.objects.getID store) = some cached ∧ cached.metaRef = store.metaRef

structure Inv (s : State V) : Prop where
  seats : s.info.regions.Seats
  keyed : Keyed s.cluster
  calls : ∀ n store state, s.calls.lookup n = some (store, state) → Cached s.cluster store
  vacant : ∀ storeID, s.burial = some storeID → Vacant s storeID
  writing : ∀ store rest, s.pc = .writing store rest →
    Cached s.cluster store ∧ s.cluster.objects.getState store = .offline

end

section
variable {V : Type} {codec : Codec V} {bad : Key → Bool} {opts : StatisticsOptions}
variable {s t : State V} {c : StoreCluster} {store store' : StoreInfo} {saves : Nat → Bool} {state : StoreState}

lemma cached_of_lookup (hk : Keyed c) {id : Nat} (h : c.stores.lookup id = some store) : Cached c store :=
  ⟨store, by rw [hk id store h]; exact h, rfl⟩

lemma objects_writeState (c : StoreCluster) (saves : Nat → Bool) (store : StoreInfo) (state : StoreState) :
  (c.writeState saves store state).2.objects =
    ⟨c.objects.metas.modify store.metaRef fun m => { m with state := state }, c.objects.labels⟩ := by
  unfold writeState putStoreLocked
  dsimp only
  split <;> rfl

lemma sameIDs_writeState (c : StoreCluster) (saves : Nat → Bool) (store : StoreInfo) (state : StoreState) :
  SameIDs c.objects (c.writeState saves store state).2.objects := by
  rw [objects_writeState]
  intro x
  refine Heap.apply_get_modify StoreMeta.id ?_
  intro m
  rfl

lemma getState_writeState (c : StoreCluster) (saves : Nat → Bool) (store : StoreInfo) (state : StoreState)
  (x : StoreInfo) : (c.writeState saves store state).2.objects.getState x = c.objects.getState x ∨
    c.objects.getID store = c.objects.getID x ∧ (c.writeState saves store state).2.objects.getState x = state := by
  unfold Objects.getState Objects.getID Objects.getMeta
  rw [objects_writeState]
  refine (Heap.get_modify_cases c.objects.metas store.metaRef x.metaRef _).imp (congrArg StoreMeta.state) ?_
  intro ⟨href, hget⟩
  exact ⟨by rw [href], congrArg StoreMeta.state hget⟩

lemma cached_writeState (hk : Keyed c) (hs : Cached c store) (saves : Nat → Bool) (state : StoreState)
  (hx : Cached c store') : Cached (c.writeState saves store state).2 store' := by
  obtain ⟨cached, hlookup, href⟩ := hx
  unfold Cached
  rw [sameIDs_writeState c saves store state store']
  rw [(StoreUpdates.puts_writeState saves hk store state).stores_eq]
  split
  · by_cases he : c.objects.getID store' = c.objects.getID store
    · obtain ⟨cached', hlookup', href'⟩ := hs
      rw [he, hlookup'] at hlookup
      cases hlookup
      exact ⟨store, by rw [he, lookup_insert_self], href'.symm.trans href⟩
    · exact ⟨cached, by rw [lookup_insert_of_ne _ _ he]; exact hlookup, href⟩
  · exact ⟨cached, hlookup, href⟩

lemma shows_state (h : Cached c store) :
  (c.shows (c.objects.getID store)).map StoreProto.state = some (c.objects.getState store) := by
  obtain ⟨cached, hlookup, href⟩ := h
  rw [shows_of_lookup hlookup, Option.map_some]
  show some (c.objects.metas.get cached.metaRef).state = _
  rw [href]
  rfl

lemma inv_read (hi : Inv s) {n : Nat} {check : Except StoreError (Option StoreInfo)}
  (hcheck : ∀ store, check = .ok (some store) → Cached s.cluster store) (h : s.read n state check = some t) :
  Inv t := by
  unfold State.read at h
  split at h
  · split at h
    next _ =>
      cases h
      refine ⟨hi.seats, hi.keyed, ?_, hi.vacant, hi.writing⟩
      intro m x st hm
      rcases lookup_insert_some.mp hm with ⟨rfl, he⟩ | ⟨-, hold⟩
      · obtain ⟨rfl, rfl⟩ := Prod.mk.inj he
        exact hcheck _ rfl
      · exact hi.calls m x st hold
    · cases h
      exact hi
  · cases h

lemma vacant_heartbeat (hi : Inv s) {hb : Heartbeat} {info : ClusterInfo V}
  (h : s.info.heartbeat codec bad opts hb = some info) {storeID : Nat} (hburial : s.burial = some storeID)
  (hd : Undisturbed s (.heartbeat hb)) : Vacant { s with info := info } storeID := by
  have hv := hi.vacant storeID hburial
  intro id x hx
  rcases heartbeat_regions h with heq | ⟨call, _, hcall, hcache, hset⟩
  · rw [heq] at hx
    exact hv id x hx
  obtain ⟨-, hself, hother, -⟩ := setRegion_keyed hi.seats.toKeyed hset
  rw [getRegion_eq] at hx
  by_cases hid : id = hb.region.getID
  · rw [hid, hself] at hx
    exact Option.some.inj hx ▸ hd call hcall hcache storeID hburial
  refine hv id x ?_
  rw [getRegion_eq]
  exact hother id x hid hx

lemma inv_write (hi : Inv s) {n : Nat} (hd : Undisturbed s (.write n saves))
  (hcall : s.calls.lookup n = some (store, state)) :
  Inv { s with cluster := (s.cluster.writeState saves store state).2, calls := s.calls.erase n } := by
  have hcached := hi.calls n store state hcall
  refine ⟨hi.seats, (StoreUpdates.puts_writeState saves hi.keyed store state).keyed, ?_, ?_, ?_⟩
  · intro m x st hm
    exact cached_writeState hi.keyed hcached saves state (hi.calls m x st (lookup_erase_some.mp hm).2)
  · intro storeID hb
    refine hi.vacant storeID (Eq.trans ?_ hb)
    unfold State.burial
    dsimp only
    split
    · rfl
    · exact congrArg some (sameIDs_writeState s.cluster saves store state _).symm
    · rfl
  intro x rest hpc
  obtain ⟨hx, hoffline⟩ := hi.writing x rest hpc
  refine ⟨cached_writeState hi.keyed hcached saves state hx, ?_⟩
  rcases getState_writeState s.cluster saves store state x with hsame | ⟨hid, hstate⟩
  · exact hsame.trans hoffline
  by_cases hne : state = .offline
  · exact hstate.trans hne
  · exact absurd hid (hd store state hcall hne x rest hpc)

lemma Inv.quiet (hi : Inv s) {pc : Pc} (hb : State.burial { s with pc := pc } = none) : Inv { s with pc := pc } := by
  refine ⟨hi.seats, hi.keyed, hi.calls, ?_, ?_⟩
  · intro storeID h
    rw [hb] at h
    cases h
  intro store rest h
  dsimp only at h hb
  rw [h] at hb
  cases hb

lemma inv_next (hi : Inv s) (h : next s saves s.pc = some t) : Inv t := by
  cases hpc : s.pc with
  | idle =>
    rw [hpc] at h
    cases h
  | looking rest =>
    rw [hpc] at h
    cases rest with
    | nil =>
      cases h
      exact hi.quiet rfl
    | cons =>
      simp only [next] at h
      split at h
      · cases h
        exact hi.quiet rfl
      cases h
      exact hi.quiet rfl
  | counting =>
    simp only [hpc, next] at h
    split at h
    next hcount =>
      cases h
      refine ⟨hi.seats, hi.keyed, hi.calls, ?_, nofun⟩
      intro storeID hb id x hx
      cases hb
      exact not_mem_of_regionCount hi.seats hcount hx
    · cases h
      exact hi.quiet rfl
  | burying storeID =>
    have hvacant : Vacant s storeID := hi.vacant storeID (by rw [State.burial, hpc])
    simp only [hpc, next] at h
    split at h
    next store hcheck =>
      cases h
      obtain ⟨hlookup, hstate⟩ := buryCheck_some hcheck
      have hid := hi.keyed storeID store hlookup
      refine ⟨hi.seats, hi.keyed, hi.calls, ?_, ?_⟩
      · intro id hb
        cases hb
        rw [hid]
        exact hvacant
      intro x rest' he
      obtain ⟨rfl, -⟩ := Pc.writing.inj he
      refine ⟨cached_of_lookup hi.keyed hlookup, ?_⟩
      cases hs : s.cluster.objects.getState store with
      | up => exact absurd hs (hstate.2 rfl)
      | offline => rfl
      | tombstone => exact absurd hs hstate.1
    · cases h
      exact hi.quiet rfl
  | writing store rest =>
    simp only [hpc, next] at h
    cases h
    have hcached := (hi.writing store rest hpc).1
    refine ⟨hi.seats, (StoreUpdates.puts_writeState saves hi.keyed store .tombstone).keyed, ?_, nofun, nofun⟩
    intro m x st hm
    exact cached_writeState hi.keyed hcached saves .tombstone (hi.calls m x st hm)

lemma inv_step {l : Label} (hi : Inv s) (hd : Undisturbed s l) (h : step codec bad opts s l = some t) : Inv t := by
  cases l with
  | heartbeat =>
    obtain ⟨info, hinfo, rfl⟩ := Option.map_eq_some_iff.mp h
    refine ⟨?_, hi.keyed, hi.calls, ?_, hi.writing⟩
    · rcases heartbeat_regions hinfo with heq | ⟨_, _, _, _, hset⟩
      · exact heq ▸ hi.seats
      · exact seats_setRegion hi.seats hset
    intro storeID hburial
    exact vacant_heartbeat hi hinfo hburial hd
  | removeStore =>
    refine inv_read hi ?_ h
    intro store hcheck
    exact cached_of_lookup hi.keyed (removeCheck_some hcheck).1
  | setStoreState =>
    refine inv_read hi ?_ h
    intro store hcheck
    exact cached_of_lookup hi.keyed (setStateCheck_some hcheck)
  | write =>
    obtain ⟨⟨store, state⟩, hcall, rfl⟩ := Option.map_eq_some_iff.mp h
    exact inv_write hi hd hcall
  | checkStores =>
    simp only [step] at h
    split at h
    · split at h
      · cases h
        exact hi.quiet rfl
      · cases h
    · cases h
  | next => exact inv_next hi h

lemma Inv.buries (hi : Inv s) (l : Label) : Buries s l := by
  cases l with
  | next =>
    intro store rest hpc
    obtain ⟨hcached, hoffline⟩ := hi.writing store rest hpc
    refine ⟨by rw [shows_state hcached, hoffline], hi.vacant _ ?_⟩
    rw [State.burial, hpc]
  | _ => trivial

end

section
variable {V : Type} (codec : Codec V) (bad : Key → Bool) (opts : StatisticsOptions)

/-- **Only empty stores are buried** -/
theorem buries_of_undisturbed (storage : Option (Storage V)) (regionStats : Option RegionStatistics)
  (stored : List (StoreProto × UInt64 × UInt64)) (ls : List Label)
  (hd : Runs.Along (step codec bad opts) Undisturbed (init storage regionStats stored) ls) :
  Runs.Steps (step codec bad opts) (fun s l _ => Buries s l) (init storage regionStats stored) ls := by
  have hinit : Inv (init storage regionStats stored) :=
    ⟨seats_new, StoreUpdates.keyed_loadStores stored, nofun, nofun, nofun⟩
  refine Runs.steps_of_inv Inv ?_ hinit hd
  intro s l t hi hl h
  exact ⟨inv_step hi hl h, hi.buries l⟩

end

def offlineStore (storeID : Nat) : List (StoreProto × UInt64 × UInt64) := [(⟨storeID, "", .offline, [], ""⟩, 0, 0)]
def plainStep : State Region → Label → Option (State Region) := step Codec.plain noFaults plainOptions
def goOn : Label := .next fun _ => true

def counted (storeID : Nat) : List Label :=
  [.checkStores (loadStores (offlineStore storeID)).stores.values, goOn, goOn]

def staleOn2 : Heartbeat :=
  ⟨⟨⟨1, [], [], some ⟨1, 0⟩, [⟨12, 2, false⟩]⟩, some ⟨12, 2, false⟩, [], [], 0, 0, 10, 100⟩, false, false⟩

theorem buries_of_undisturbed_empty : Runs.Steps plainStep (fun s l _ => Buries s l) (init none none (offlineStore 2))
      (.heartbeat (report 1 [] [] 1) :: counted 2 ++ [.heartbeat staleOn2, goOn, goOn]) ∧
    (Runs.exec plainStep (init none none (offlineStore 2))
      (.heartbeat (report 1 [] [] 1) :: counted 2 ++ [.heartbeat staleOn2, goOn, goOn])).map
        (fun s => (s.cluster.shows 2).map StoreProto.state) = some (some .tombstone) := by
  refine ⟨buries_of_undisturbed Codec.plain noFaults plainOptions none none _ _ ?_, by decide +kernel⟩
  refine ⟨fun _ _ _ => nofun, fun s₁ h₁ => ⟨trivial, fun s₂ h₂ => ⟨trivial, fun s₃ h₃ => ⟨trivial, fun s₄ h₄ => ?_⟩⟩⟩⟩
  have hstale : s₄.info.checkHeartbeat staleOn2 =
      .error (.regionIsStale staleOn2.region.getMeta (report 1 [] [] 1).region.getMeta) := by
    obtain rfl := Option.some.inj h₁
    obtain rfl := Option.some.inj h₂
    obtain rfl := Option.some.inj h₃
    obtain rfl := Option.some.inj h₄
    rfl
  refine ⟨fun call hcall => ?_, fun _ _ => ⟨trivial, fun _ _ => ⟨trivial, fun _ _ => trivial⟩⟩⟩
  rw [hstale] at hcall
  cases hcall

theorem buried_with_region : ∃ s, Runs.exec plainStep (init none none (offlineStore 1))
  (counted 1 ++ [.heartbeat (report 1 [] [] 1), goOn]) = some s ∧ ¬Buries s goOn := by
  refine ⟨_, rfl, ?_⟩
  intro hb
  exact (hb _ _ rfl).2 1 _ rfl (by decide)

lemma buried_up : ∃ s, Runs.exec plainStep (init none none (offlineStore 1))
  (counted 1 ++ [goOn, .setStoreState 0 1 .up, .write 0 fun _ => true]) = some s ∧ ¬Buries s goOn := by
  refine ⟨_, rfl, ?_⟩
  intro hb
  exact absurd (hb _ _ rfl).1 (by decide)

end PD.Shared.StoreBurial
