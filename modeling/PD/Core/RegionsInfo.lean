import PD.Core.RegionTree
import PD.Core.RegionMap

/-! # The region cache

`Sound` ties the map, the tree and the indexes by store together; `setRegion` keeps it. -/

namespace PD
open List Option SortedMap RegionTree RegionMap Peer

inductive Role where
  | leader
  | follower
  | learner
  | pending
  deriving DecidableEq

def RegionInfo.on (x : RegionInfo) : Role → Nat → Bool
  | .leader, s => x.getVoters.any fun p => decide (p.storeId = s) && decide (p.id = x.leaderId)
  | .follower, s => x.getVoters.any fun p => decide (p.storeId = s) && !decide (p.id = x.leaderId)
  | .learner, s => x.getLearners.any fun p => decide (p.storeId = s)
  | .pending, s => x.pendingPeers.any fun p => decide (p.storeId = s)

abbrev StoreIndex := SortedMap Nat RegionMap
def StoreIndex.at (m : StoreIndex) (storeID : Nat) : RegionMap := (m.lookup storeID).getD .new

def StoreIndex.delete (m : StoreIndex) (storeID id : Nat) : Option StoreIndex :=
  match m.lookup storeID with
  | none => some m
  | some rm => (rm.delete id).map fun rm' => m.insert storeID rm'

def StoreIndex.put (region : RegionInfo) (m : StoreIndex) (storeID : Nat) : StoreIndex :=
  m.insert storeID ((m.at storeID).put region)

structure RegionsInfo where
  tree : RegionTree
  regions : RegionMap
  leaders : StoreIndex
  followers : StoreIndex
  learners : StoreIndex
  pendingPeers : StoreIndex

namespace RegionsInfo

def new : RegionsInfo := ⟨.new, .new, .empty, .empty, .empty, .empty⟩

variable (r : RegionsInfo)

def getRegion (regionID : Nat) : Option RegionInfo := r.regions.get regionID
def getOverlaps (r : RegionsInfo) (region : RegionInfo) : List Region := r.tree.getOverlaps region.getMeta

def removePeer (id : Nat) (r : RegionsInfo) (peer : Peer) : Option RegionsInfo :=
  (r.leaders.delete peer.storeId id).bind fun leaders =>
  (r.followers.delete peer.storeId id).bind fun followers =>
  (r.learners.delete peer.storeId id).bind fun learners =>
  (r.pendingPeers.delete peer.storeId id).bind fun pendingPeers =>
  some { r with
    leaders := leaders
    followers := followers
    learners := learners
    pendingPeers := pendingPeers }

def removeRegion (region : RegionInfo) : Option RegionsInfo := (r.regions.delete region.getID).bind fun regions =>
    region.getPeers.foldlM (removePeer region.getID)
      { r with tree := r.tree.remove region.getMeta, regions := regions }

def evict (item : Region) : Option RegionsInfo := (r.getRegion item.id).bind r.removeRegion

variable (region : RegionInfo)

def addVoter (r : RegionsInfo) (peer : Peer) : RegionsInfo :=
  if peer.id = region.leaderId then { r with leaders := r.leaders.put region peer.storeId }
  else { r with followers := r.followers.put region peer.storeId }

def addLearner (r : RegionsInfo) (peer : Peer) : RegionsInfo :=
  { r with learners := r.learners.put region peer.storeId }

def addPending (r : RegionsInfo) (peer : Peer) : RegionsInfo :=
  { r with pendingPeers := r.pendingPeers.put region peer.storeId }

def enter (r : RegionsInfo) : RegionsInfo :=
  let r := { r with regions := r.regions.put region }
  let r := region.getVoters.foldl (addVoter region) r
  let r := region.getLearners.foldl (addLearner region) r
  region.pendingPeers.foldl (addPending region) r

def addRegion (region : RegionInfo) : Option (RegionsInfo × List Region) :=
  let update := r.tree.update region.getMeta
  (update.2.foldlM evict { r with tree := update.1 }).map fun r => (enter region r, update.2)

def setRegion (region : RegionInfo) : Option (RegionsInfo × List Region) :=
  match r.regions.get region.getID with
  | some origin => (r.removeRegion origin).bind fun r => r.addRegion region
  | none => r.addRegion region

variable (storeID : Nat)

def getStoreLeaderCount : Nat := (r.leaders.at storeID).len
def getStoreFollowerCount : Nat := (r.followers.at storeID).len
def getStoreLearnerCount : Nat := (r.learners.at storeID).len
def getStorePendingPeerCount : Nat := (r.pendingPeers.at storeID).len

def getStoreRegionCount : Nat :=
  r.getStoreLeaderCount storeID + r.getStoreFollowerCount storeID + r.getStoreLearnerCount storeID

def getStoreLeaderRegionSize : Int := (r.leaders.at storeID).getTotalSize
def getStoreFollowerRegionSize : Int := (r.followers.at storeID).getTotalSize
def getStoreLearnerRegionSize : Int := (r.learners.at storeID).getTotalSize

def getStoreRegionSize : Int :=
  Words.wrap (Words.wrap (r.getStoreLeaderRegionSize storeID + r.getStoreFollowerRegionSize storeID) +
    r.getStoreLearnerRegionSize storeID)

def cached : SortedMap Nat RegionInfo := r.regions.view

def index : Role → StoreIndex
  | .leader => r.leaders
  | .follower => r.followers
  | .learner => r.learners
  | .pending => r.pendingPeers

def AllWf (m : StoreIndex) : Prop := ∀ s rm, m.lookup s = some rm → rm.Wf

structure MapsWf (r : RegionsInfo) : Prop where
  regions : r.regions.Wf
  maps : ∀ role, AllWf (r.index role)

end RegionsInfo

def RegionInfo.PendingOk (x : RegionInfo) : Prop := ∀ p ∈ x.pendingPeers, p.storeId ∈ x.getPeers.map storeId

structure RegionInfo.Valid (x : RegionInfo) : Prop where
  range : x.getMeta.Nonempty
  pending : x.PendingOk

instance (x : RegionInfo) : Decidable x.PendingOk :=
  inferInstanceAs (Decidable (∀ p ∈ x.pendingPeers, p.storeId ∈ x.getPeers.map storeId))

instance (x : RegionInfo) : Decidable x.Valid :=
  decidable_of_iff (x.getMeta.Nonempty ∧ x.PendingOk) ⟨fun h => ⟨h.1, h.2⟩, fun h => ⟨h.1, h.2⟩⟩

namespace RegionsInfo

structure Keyed (r : RegionsInfo) : Prop where
  wf : r.MapsWf
  ids : ∀ id x, r.cached.lookup id = some x → x.getID = id

structure Sound (r : RegionsInfo) : Prop extends Keyed r where
  tiles : r.tree.Disjoint
  range : ∀ id x, r.cached.lookup id = some x → x.getMeta.Nonempty
  same : ∀ m, m ∈ r.tree.items ↔ ∃ x, r.cached.lookup m.id = some x ∧ x.getMeta = m

structure Indexed (r : RegionsInfo) : Prop where
  exact : ∀ role s, ((r.index role).at s).view = r.cached.keep fun x => x.on role s
  pending : ∀ id x, r.cached.lookup id = some x → x.PendingOk

structure Inv (r : RegionsInfo) : Prop where
  sound : r.Sound
  indexed : r.Indexed

lemma getRegion_eq (r : RegionsInfo) (id : Nat) : r.getRegion id = r.cached.lookup id := get_eq _ _

section
variable {m : StoreIndex}

lemma at_wf (h : AllWf m) (s : Nat) : (m.at s).Wf := by
  unfold StoreIndex.at
  cases hm : m.lookup s with
  | none => exact new_wf
  | some rm => exact h s rm hm

lemma at_insert (m : StoreIndex) (s : Nat) (rm : RegionMap) (s' : Nat) :
  StoreIndex.at (m.insert s rm) s' = if s' = s then rm else m.at s' := by
  unfold StoreIndex.at
  rw [lookup_insert]
  split <;> rfl

lemma allWf_insert (h : AllWf m) (s : Nat) {rm : RegionMap} (hrm : rm.Wf) : AllWf (m.insert s rm) :=
  forall_insert (P := fun _ (rm : RegionMap) => rm.Wf) hrm h

lemma delete_spec (h : AllWf m) (s id : Nat) : ∃ m', m.delete s id = some m' ∧ AllWf m' ∧
  ∀ s', (m'.at s').view = if s' = s then (m.at s').view.erase id else (m.at s').view := by
  unfold StoreIndex.delete
  cases hm : m.lookup s with
  | none =>
    refine ⟨m, rfl, h, fun s' => ?_⟩
    split
    next e =>
      have hat : m.at s' = .new := by unfold StoreIndex.at; rw [e, hm]; rfl
      rw [hat]
      rfl
    · rfl
  | some rm =>
    obtain ⟨rm', hd, hwf, hview⟩ := RegionMap.delete_spec (h s rm hm) id
    refine ⟨m.insert s rm', ?_, allWf_insert h s hwf, fun s' => ?_⟩
    · show (rm.delete id).map _ = _
      rw [hd]
      rfl
    rw [at_insert]
    split
    next e =>
      have hat : m.at s' = rm := by unfold StoreIndex.at; rw [e, hm]; rfl
      rw [hview, hat]
    · rfl

lemma foldl_put_spec (stores : List Nat) (h : AllWf m) (region : RegionInfo) :
  AllWf (stores.foldl (StoreIndex.put region) m) ∧
    ∀ s, (StoreIndex.at (stores.foldl (StoreIndex.put region) m) s).view =
      if s ∈ stores then (m.at s).view.insert region.getID region else (m.at s).view := by
  induction stores generalizing m with
  | nil => exact ⟨h, fun s => by rw [if_neg not_mem_nil]; rfl⟩
  | cons s0 stores ih =>
    have hput : AllWf (m.put region s0) := allWf_insert h s0 (put_wf (at_wf h s0) region)
    have hat : ∀ s, (StoreIndex.at (m.put region s0) s).view =
        if s = s0 then (m.at s).view.insert region.getID region else (m.at s).view := by
      intro s
      unfold StoreIndex.put
      rw [at_insert]
      split
      next e => rw [view_put, e]
      · rfl
    obtain ⟨h1, h2⟩ := ih hput
    refine ⟨h1, fun s => ?_⟩
    rw [foldl_cons, h2 s, hat s]
    by_cases e : s = s0
    · have hmem : s ∈ s0 :: stores := by rw [e]; exact mem_cons_self
      rw [if_pos e, if_pos hmem]
      split
      · rw [insert_insert_self]
      · rfl
    rw [if_neg e]
    by_cases e' : s ∈ stores
    · rw [if_pos e', if_pos (mem_cons_of_mem _ e')]
    · rw [if_neg e', if_neg (fun hm => (mem_cons.mp hm).elim e e')]

end

section
variable {r : RegionsInfo}
variable {x region : RegionInfo} {role : Role} {s id : Nat} {overlaps : List Region} {m : Region} {r' : RegionsInfo}

lemma removePeer_spec (h : ∀ role, AllWf (r.index role)) (id : Nat) (peer : Peer) :
  ∃ r', removePeer id r peer = some r' ∧ r'.tree = r.tree ∧ r'.regions = r.regions ∧ (∀ role, AllWf (r'.index role)) ∧
    ∀ role s, ((r'.index role).at s).view = if s = peer.storeId then
      ((r.index role).at s).view.erase id else ((r.index role).at s).view := by
  obtain ⟨m1, e1, w1, v1⟩ := delete_spec (h .leader) peer.storeId id
  obtain ⟨m2, e2, w2, v2⟩ := delete_spec (h .follower) peer.storeId id
  obtain ⟨m3, e3, w3, v3⟩ := delete_spec (h .learner) peer.storeId id
  obtain ⟨m4, e4, w4, v4⟩ := delete_spec (h .pending) peer.storeId id
  change r.leaders.delete peer.storeId id = some m1 at e1
  change r.followers.delete peer.storeId id = some m2 at e2
  change r.learners.delete peer.storeId id = some m3 at e3
  change r.pendingPeers.delete peer.storeId id = some m4 at e4
  refine ⟨⟨r.tree, r.regions, m1, m2, m3, m4⟩, ?_, rfl, rfl, ?_, ?_⟩
  · unfold removePeer
    rw [e1, bind_some, e2, bind_some, e3, bind_some, e4, bind_some]
  · intro role
    cases role with
    | leader => exact w1
    | follower => exact w2
    | learner => exact w3
    | pending => exact w4
  intro role
  cases role with
  | leader => exact v1
  | follower => exact v2
  | learner => exact v3
  | pending => exact v4

lemma removePeers_spec (peers : List Peer) (h : ∀ role, AllWf (r.index role)) (id : Nat) :
  ∃ r', peers.foldlM (removePeer id) r = some r' ∧ r'.tree = r.tree ∧ r'.regions = r.regions ∧
    (∀ role, AllWf (r'.index role)) ∧ ∀ role s, ((r'.index role).at s).view = if s ∈ peers.map storeId then
      ((r.index role).at s).view.erase id else ((r.index role).at s).view := by
  induction peers generalizing r with
  | nil => exact ⟨r, rfl, rfl, rfl, h, fun role s => by rw [if_neg (by simp)]⟩
  | cons p peers ih =>
    obtain ⟨r1, e1, t1, g1, w1, v1⟩ := removePeer_spec h id p
    obtain ⟨r2, e2, t2, g2, w2, v2⟩ := ih w1
    refine ⟨r2, ?_, t2.trans t1, g2.trans g1, w2, fun role s => ?_⟩
    · rw [foldlM_cons, e1]
      exact e2
    rw [v2 role s, v1 role s]
    rw [map_cons]
    by_cases e : s = p.storeId
    · have hmem : s ∈ p.storeId :: peers.map storeId := by rw [e]; exact mem_cons_self
      rw [if_pos e, if_pos hmem]
      split
      · rw [erase_erase_self]
      · rfl
    rw [if_neg e]
    by_cases e' : s ∈ peers.map storeId
    · rw [if_pos e', if_pos (mem_cons_of_mem _ e')]
    · rw [if_neg e', if_neg (fun hm => (mem_cons.mp hm).elim e e')]

lemma mem_of_seat (hrole : role ≠ .pending) (h : x.on role s = true) : s ∈ x.getPeers.map storeId := by
  have hfilter : ∀ {f : Peer → Bool} {g : Peer → Bool},
      ((x.getPeers.filter f).any fun p => decide (p.storeId = s) && g p) = true → s ∈ x.getPeers.map storeId := by
    intro f g hany
    obtain ⟨p, hp, hs⟩ := List.any_eq_true.mp hany
    have hs' : p.storeId = s := of_decide_eq_true (Bool.and_eq_true_iff.mp hs).1
    exact List.mem_map.mpr ⟨p, (mem_filter.mp hp).1, hs'⟩
  cases role with
  | learner =>
    refine hfilter (f := fun p => p.isLearner) (g := fun _ => true) ?_
    simp only [Bool.and_true]
    exact h
  | pending => exact absurd rfl hrole
  | _ => exact hfilter h

lemma exists_seat (h : s ∈ x.storeIds) : ∃ role, role ≠ .pending ∧ x.on role s = true := by
  obtain ⟨p, hp, rfl⟩ := List.mem_map.mp h
  have hon : ∀ {f : Peer → Bool} {g : Peer → Bool}, f p = true → g p = true →
      ((x.getPeers.filter f).any fun q => decide (q.storeId = p.storeId) && g q) = true :=
    fun hf hg => List.any_eq_true.mpr ⟨p, mem_filter.mpr ⟨hp, hf⟩, by rw [hg]; simp⟩
  by_cases hl : p.isLearner = true
  · refine ⟨.learner, nofun, ?_⟩
    have hany := hon (f := fun q => q.isLearner) (g := fun _ => true) hl rfl
    simp only [Bool.and_true] at hany
    exact hany
  have hv : (!p.isLearner) = true := by simpa using hl
  by_cases hlead : p.id = x.leaderId
  · exact ⟨.leader, nofun, hon (g := fun q => decide (q.id = x.leaderId)) hv (decide_eq_true hlead)⟩
  · exact ⟨.follower, nofun, hon (g := fun q => !decide (q.id = x.leaderId)) hv (by simpa using hlead)⟩

lemma mem_of_on (hp : x.PendingOk) (h : x.on role s = true) : s ∈ x.getPeers.map storeId := by
  by_cases hrole : role = .pending
  · subst hrole
    obtain ⟨p, hm, hs⟩ := List.any_eq_true.mp h
    have hs' : p.storeId = s := of_decide_eq_true hs
    exact hs' ▸ hp p hm
  · exact mem_of_seat hrole h

lemma removeRegion_index (h : r.MapsWf) (x : RegionInfo) :
  ∃ r', r.removeRegion x = some r' ∧ r'.MapsWf ∧ r'.tree = r.tree.remove x.getMeta ∧
    r'.cached = r.cached.erase x.getID ∧ ∀ role s, ((r'.index role).at s).view = if s ∈ x.getPeers.map storeId then
      ((r.index role).at s).view.erase x.getID else ((r.index role).at s).view := by
  obtain ⟨regions, hd, hwf, hview⟩ := RegionMap.delete_spec h.regions x.getID
  obtain ⟨r', e, ht, hg, hw, hv⟩ := removePeers_spec x.getPeers
    (r := { r with tree := r.tree.remove x.getMeta, regions := regions }) h.maps x.getID
  refine ⟨r', ?_, ⟨by rw [hg]; exact hwf, hw⟩, ht, ?_, hv⟩
  · unfold removeRegion
    rw [hd]
    exact e
  show r'.regions.view = _
  rw [hg]
  exact hview

lemma removeRegion_spec (h : r.MapsWf) (x : RegionInfo) :
  ∃ r', r.removeRegion x = some r' ∧ r'.MapsWf ∧ r'.tree = r.tree.remove x.getMeta ∧
    r'.cached = r.cached.erase x.getID ∧ (r.Indexed → r.cached.lookup x.getID = some x → r'.Indexed) := by
  obtain ⟨r', e, hw, ht, hcached, hv⟩ := removeRegion_index h x
  refine ⟨r', e, hw, ht, hcached, fun hi hx => ⟨fun role s => ?_, ?_⟩⟩
  · rw [hv role s, hcached, hi.exact role s]
    split
    · rw [keep_erase]
    next hs =>
      have hoff : x.on role s = false := by
        rw [Bool.eq_false_iff]
        exact fun hon => hs (mem_of_on (hi.pending _ x hx) hon)
      rw [keep_erase_of_not _ hx hoff]
  intro id y hy
  rw [hcached] at hy
  exact hi.pending id y (lookup_erase_some.mp hy).2

lemma evictAll_spec (items : List Region) (h : r.MapsWf)
  (hx : ∀ o ∈ items, ∃ x, r.cached.lookup o.id = some x ∧ x.getID = o.id)
  (hn : (items.map Region.id).Nodup) (ht : ∀ m ∈ r.tree.items, ∀ o ∈ items, m.id ≠ o.id) :
  ∃ r', items.foldlM evict r = some r' ∧ r'.MapsWf ∧ r'.tree = r.tree ∧
    r'.cached = items.foldl (fun c o => c.erase o.id) r.cached ∧ (r.Indexed → r'.Indexed) := by
  induction items generalizing r with
  | nil => exact ⟨r, rfl, h, rfl, rfl, id⟩
  | cons o _ ih =>
    obtain ⟨x, hlook, hid⟩ := hx o mem_cons_self
    obtain ⟨hno, hn'⟩ := nodup_cons.mp hn
    obtain ⟨r1, e1, h1, t1, c1, i1⟩ := removeRegion_spec h x
    have ht1 : r1.tree = r.tree := by
      rw [t1]
      refine remove_of_other fun m hm => ?_
      show m.id ≠ x.getID
      rw [hid]
      exact ht m hm o mem_cons_self
    rw [hid] at c1 i1
    obtain ⟨r2, e2, h2, t2, c2, i2⟩ := ih h1 (by
      intro o' ho'
      obtain ⟨x', hlook', hx'⟩ := hx o' (mem_cons_of_mem _ ho')
      refine ⟨x', ?_, hx'⟩
      have hne : o'.id ≠ o.id := fun e => hno (e ▸ List.mem_map_of_mem ho')
      rw [c1, lookup_erase_of_ne _ hne]
      exact hlook') hn' (by
        rw [ht1]
        exact fun m hm o' ho' => ht m hm o' (mem_cons_of_mem _ ho'))
    refine ⟨r2, ?_, h2, t2.trans ht1, ?_, fun hi => i2 (i1 hi hlook)⟩
    · rw [foldlM_cons]
      unfold evict
      rw [show r.getRegion o.id = some x from (getRegion_eq _ _).trans hlook, bind_some, e1]
      exact e2
    · rw [foldl_cons, c2, c1]

lemma foldl_addVoter (region : RegionInfo) (voters : List Peer) (r : RegionsInfo) :
    voters.foldl (addVoter region) r = { r with
      leaders := ((voters.filter fun p => decide (p.id = region.leaderId)).map storeId).foldl
        (StoreIndex.put region) r.leaders
      followers := ((voters.filter fun p => !decide (p.id = region.leaderId)).map storeId).foldl
        (StoreIndex.put region) r.followers } := by
  induction voters generalizing r with
  | nil => rfl
  | cons p _ ih =>
    rw [foldl_cons, ih]
    unfold addVoter
    by_cases e : p.id = region.leaderId
    · rw [if_pos e, filter_cons_of_pos (by simpa using e), filter_cons_of_neg (by simpa using e)]
      rfl
    rw [if_neg e, filter_cons_of_neg (by simpa using e), filter_cons_of_pos (by simpa using e)]
    rfl

lemma foldl_addLearner (region : RegionInfo) (ps : List Peer) (r : RegionsInfo) :
  ps.foldl (addLearner region) r = { r with
    learners := (ps.map storeId).foldl (StoreIndex.put region) r.learners } := by
  induction ps generalizing r with
  | nil => rfl
  | cons p _ ih => rw [foldl_cons, ih]; rfl

lemma foldl_addPending (region : RegionInfo) (ps : List Peer) (r : RegionsInfo) :
  ps.foldl (addPending region) r = { r with
    pendingPeers := (ps.map storeId).foldl (StoreIndex.put region) r.pendingPeers } := by
  induction ps generalizing r with
  | nil => rfl
  | cons p _ ih => rw [foldl_cons, ih]; rfl

def storesOf (x : RegionInfo) : Role → List Nat
  | .leader => (x.getVoters.filter fun p => decide (p.id = x.leaderId)).map storeId
  | .follower => (x.getVoters.filter fun p => !decide (p.id = x.leaderId)).map storeId
  | .learner => x.getLearners.map storeId
  | .pending => x.pendingPeers.map storeId

lemma mem_storesOf : s ∈ storesOf x role ↔ x.on role s = true := by
  cases role with
  | learner | pending => simp [storesOf, RegionInfo.on]
  | _ => simp [storesOf, RegionInfo.on, and_comm, and_left_comm]

lemma enter_eq (region : RegionInfo) (r : RegionsInfo) :
  (enter region r).tree = r.tree ∧ (enter region r).regions = r.regions.put region ∧
    ∀ role, (enter region r).index role = (storesOf region role).foldl (StoreIndex.put region) (r.index role) := by
  unfold enter
  simp only [foldl_addVoter, foldl_addLearner, foldl_addPending]
  refine ⟨trivial, trivial, fun role => ?_⟩
  cases role with
  | _ => rfl

lemma enter_index (h : r.MapsWf) (region : RegionInfo) (role : Role) (s : Nat) :
  (((enter region r).index role).at s).view = if region.on role s = true then
    ((r.index role).at s).view.insert region.getID region else ((r.index role).at s).view := by
  rw [(enter_eq region r).2.2 role, (foldl_put_spec _ (h.maps role) region).2 s]
  simp only [mem_storesOf]

lemma enter_spec (h : r.MapsWf) (region : RegionInfo) : (enter region r).MapsWf ∧ (enter region r).tree = r.tree ∧
  (enter region r).cached = r.cached.insert region.getID region ∧
  (r.Indexed → r.cached.lookup region.getID = none → region.PendingOk → (enter region r).Indexed) := by
  obtain ⟨ht, hg, hi⟩ := enter_eq region r
  have hcached : (enter region r).cached = r.cached.insert region.getID region := by
    show (enter region r).regions.view = _
    rw [hg]
    exact view_put _ _
  refine ⟨⟨by rw [hg]; exact put_wf h.regions region, fun role => ?_⟩,
    ht, hcached, fun hx hnone hp => ⟨fun role s => ?_, fun id x hl => ?_⟩⟩
  · rw [hi role]
    exact (foldl_put_spec _ (h.maps role) region).1
  · rw [enter_index h, hcached, hx.exact role s, keep_insert _ _ _ hnone]
  rw [hcached] at hl
  rcases lookup_insert_some.mp hl with ⟨_, rfl⟩ | ⟨_, hl⟩
  · exact hp
  · exact hx.pending id x hl

lemma Sound.eq_of_id (h : r.Sound) {a b : Region} (ha : a ∈ r.tree.items) (hb : b ∈ r.tree.items)
  (e : a.id = b.id) : a = b := by
  obtain ⟨x, hx, ex⟩ := (h.same a).mp ha
  obtain ⟨y, hy, ey⟩ := (h.same b).mp hb
  rw [e, hy] at hx
  rw [← ex, ← ey, some.inj hx]

lemma overlaps_nodup (h : r.Sound) (region : Region) : ((r.tree.getOverlaps region).map Region.id).Nodup := by
  have hitems : r.tree.items.Nodup := values_nodup_of_keyed Region.startKey r.tree.keyed
  rw [getOverlaps_eq h.tiles]
  refine pairwise_map.mpr ((hitems.filter _).imp_of_mem fun ha hb hne e => hne ?_)
  exact h.eq_of_id (mem_filter.mp ha).1 (mem_filter.mp hb).1 e

def setCached (r : RegionsInfo) (region : RegionInfo) (overlaps : List Region) : SortedMap Nat RegionInfo :=
  (overlaps.foldl (fun c o => c.erase o.id) r.cached).insert region.getID region

lemma setCached_some : (r.setCached region overlaps).lookup id = some x ↔ (id = region.getID ∧ x = region) ∨
  (id ≠ region.getID ∧ r.cached.lookup id = some x ∧ ∀ o ∈ overlaps, o.id ≠ id) := by
  unfold setCached
  rw [lookup_insert]
  by_cases e : id = region.getID
  · rw [if_pos e]
    exact ⟨fun hx => .inl ⟨e, (some.inj hx).symm⟩, fun hx => hx.elim (fun hx => by rw [hx.2]) fun hx => absurd e hx.1⟩
  rw [if_neg e, lookup_foldl_erase]
  constructor
  · intro hx
    split at hx
    · cases hx
    next hno => exact .inr ⟨e, hx, fun o ho eo => hno ⟨o, ho, eo⟩⟩
  intro hx
  obtain ⟨_, hx, hno⟩ := hx.resolve_left fun hx => e hx.1
  rw [if_neg fun ⟨o, ho, eo⟩ => hno o ho eo, hx]

lemma same_update (h : r.Sound) (hr : region.getMeta.Nonempty)
  (hnone : r.cached.lookup region.getID = none) (m : Region) : m ∈ (r.tree.update region.getMeta).1.items ↔
    ∃ x, (r.setCached region (r.tree.getOverlaps region.getMeta)).lookup m.id = some x ∧ x.getMeta = m := by
  rw [mem_update h.tiles hr]
  constructor
  · rintro (rfl | ⟨hm, hno⟩)
    · exact ⟨region, setCached_some.mpr (.inl ⟨rfl, rfl⟩), rfl⟩
    obtain ⟨x, hx, ex⟩ := (h.same m).mp hm
    refine ⟨x, setCached_some.mpr (.inr ⟨fun e => ?_, hx, fun o ho eo => ?_⟩), ex⟩
    · rw [e, hnone] at hx
      cases hx
    obtain ⟨hmem, hov⟩ := (mem_getOverlaps h.tiles hr).mp ho
    exact hno (h.eq_of_id hmem hm eo ▸ hov)
  rintro ⟨x, hx, rfl⟩
  rcases setCached_some.mp hx with ⟨_, rfl⟩ | ⟨_, hx, hno⟩
  · exact .inl rfl
  have hm := (h.same x.getMeta).mpr ⟨x, hx, rfl⟩
  refine .inr ⟨hm, fun ho => hno x.getMeta ?_ rfl⟩
  exact (mem_getOverlaps h.tiles hr).mpr ⟨hm, ho⟩

lemma addRegion_spec (h : r.Sound) (hr : region.getMeta.Nonempty) (hnone : r.cached.lookup region.getID = none) :
  ∃ r', r.addRegion region = some (r', r.tree.getOverlaps region.getMeta) ∧ r'.Sound ∧
    r'.cached = r.setCached region (r.tree.getOverlaps region.getMeta) ∧
    (r.Indexed → region.PendingOk → r'.Indexed) := by
  have hmem : ∀ o ∈ r.tree.getOverlaps region.getMeta, o ∈ r.tree.items ∧
      region.getMeta.Overlaps o := fun o ho => (mem_getOverlaps h.tiles hr).mp ho
  have hne : ∀ m ∈ r.tree.items, m.id ≠ region.getID := by
    intro m hm e
    obtain ⟨x, hx, _⟩ := (h.same m).mp hm
    rw [e, hnone] at hx
    cases hx
  obtain ⟨r1, e1, h1, t1, c1, i1⟩ := evictAll_spec (r.tree.getOverlaps region.getMeta)
    (r := { r with tree := (r.tree.update region.getMeta).1 })
    ⟨h.wf.regions, h.wf.maps⟩ (by
      intro o ho
      obtain ⟨x, hx, ex⟩ := (h.same o).mp (hmem o ho).1
      exact ⟨x, hx, h.ids _ x hx⟩) (overlaps_nodup h _) (by
        intro m hm o ho e
        rcases (mem_update h.tiles hr).mp hm with rfl | ⟨hm', hno⟩
        · exact hne o (hmem o ho).1 e.symm
        · exact hno (h.eq_of_id hm' (hmem o ho).1 e ▸ (hmem o ho).2))
  have hnone1 : r1.cached.lookup region.getID = none := by
    rw [c1, lookup_foldl_erase]
    split
    · rfl
    · exact hnone
  obtain ⟨h2, t2, c2, i2⟩ := enter_spec h1 region
  have hcached : (enter region r1).cached =
      r.setCached region (r.tree.getOverlaps region.getMeta) := by rw [c2, c1]; rfl
  refine ⟨enter region r1, ?_, ?_, hcached, fun hi hp => i2 (i1 ⟨hi.exact, hi.pending⟩) hnone1 hp⟩
  · show Option.map _ (List.foldlM evict _ (r.tree.getOverlaps region.getMeta)) = _
    rw [e1]
    rfl
  exact {
    wf := h2
    tiles := by
      rw [t2, t1]
      exact disjoint_update h.tiles hr
    ids := by
      intro id x hx
      rw [hcached] at hx
      rcases setCached_some.mp hx with ⟨e, rfl⟩ | ⟨_, hx, _⟩
      · exact e.symm
      · exact h.ids id x hx
    range := by
      intro id x hx
      rw [hcached] at hx
      rcases setCached_some.mp hx with ⟨_, rfl⟩ | ⟨_, hx, _⟩
      · exact hr
      · exact h.range id x hx
    same := by
      intro m
      rw [t2, t1, hcached]
      exact same_update h hr hnone m }

lemma removeRegion_sound (h : r.Sound) (hx : r.cached.lookup x.getID = some x) :
  ∃ r', r.removeRegion x = some r' ∧ r'.Sound ∧ r'.cached = r.cached.erase x.getID ∧
    r'.tree = r.tree.remove x.getMeta ∧ (r.Indexed → r'.Indexed) := by
  obtain ⟨r', e, hw, ht, hc, hi⟩ := removeRegion_spec h.wf x
  have hmem : x.getMeta ∈ r.tree.items := (h.same _).mpr ⟨x, hx, rfl⟩
  have hlook : ∀ id y, r'.cached.lookup id = some y → id ≠ x.getID ∧ r.cached.lookup id = some y := by
    intro id y hy
    rw [hc] at hy
    exact lookup_erase_some.mp hy
  refine ⟨r', e, ?_, hc, ht, fun hix => hi hix hx⟩
  exact {
    wf := hw
    ids := fun id y hy => h.ids id y (hlook id y hy).2
    tiles := by rw [ht]; exact disjoint_remove h.tiles _
    range := fun id y hy => h.range id y (hlook id y hy).2
    same := by
      intro m
      rw [ht, mem_remove h.tiles hmem]
      constructor
      · rintro ⟨hm, hne⟩
        obtain ⟨y, hy, ey⟩ := (h.same m).mp hm
        refine ⟨y, ?_, ey⟩
        have hid : m.id ≠ x.getID := fun eid => hne (h.eq_of_id hm hmem eid)
        rw [hc, lookup_erase_of_ne _ hid]
        exact hy
      rintro ⟨y, hy, ey⟩
      obtain ⟨hne, hy'⟩ := hlook _ y hy
      exact ⟨(h.same m).mpr ⟨y, hy', ey⟩, fun em => hne (by rw [em]; rfl)⟩ }

def evicted (r : RegionsInfo) (region : RegionInfo) : List Region :=
  match r.regions.get region.getID with
  | some origin => (r.tree.remove origin.getMeta).getOverlaps region.getMeta
  | none => r.tree.getOverlaps region.getMeta

section
variable (h : r.Sound) (hr : region.getMeta.Nonempty)
include h hr

lemma mem_evicted : m ∈ r.evicted region ↔ m ∈ r.tree.items ∧ m.id ≠ region.getID ∧ region.getMeta.Overlaps m := by
  unfold evicted
  cases ho : r.regions.get region.getID with
  | none =>
    rw [get_eq] at ho
    rw [mem_getOverlaps h.tiles hr]
    refine ⟨fun ⟨h1, h2⟩ => ⟨h1, fun e => ?_, h2⟩, fun ⟨h1, _, h2⟩ => ⟨h1, h2⟩⟩
    obtain ⟨x, hx, _⟩ := (h.same m).mp h1
    rw [e] at hx
    exact absurd (hx.symm.trans ho) (by simp)
  | some origin =>
    rw [get_eq] at ho
    have hid := h.ids _ origin ho
    have hom : origin.getMeta ∈ r.tree.items := (h.same _).mpr ⟨origin, by
      show r.cached.lookup origin.getID = _
      rw [hid]; exact ho, rfl⟩
    rw [mem_getOverlaps (disjoint_remove h.tiles _) hr, mem_remove h.tiles hom]
    constructor
    · rintro ⟨⟨h1, hne⟩, h2⟩
      exact ⟨h1, fun e => hne (h.eq_of_id h1 hom (e.trans hid.symm)), h2⟩
    rintro ⟨h1, hne, h2⟩
    refine ⟨⟨h1, fun e => hne ?_⟩, h2⟩
    rw [e]
    exact hid

lemma setRegion_sound : ∃ r', r.setRegion region = some (r', r.evicted region) ∧ r'.Sound ∧
    r'.cached = r.setCached region (r.evicted region) ∧ (r.Indexed → region.PendingOk → r'.Indexed) := by
  unfold setRegion evicted
  cases ho : r.regions.get region.getID with
  | none =>
    rw [get_eq] at ho
    exact addRegion_spec h hr ho
  | some origin =>
    rw [get_eq] at ho
    have hid : origin.getID = region.getID := h.ids _ origin ho
    obtain ⟨r1, e1, h1, c1, t1, i1⟩ := removeRegion_sound h (x := origin) (by rw [hid]; exact ho)
    rw [hid] at c1
    obtain ⟨r2, e2, h2, c2, i2⟩ := addRegion_spec h1 hr (by
      rw [c1]
      exact lookup_erase_self ..)
    rw [t1] at e2 c2
    refine ⟨r2, ?_, h2, ?_, fun hi hp => i2 (i1 hi) hp⟩
    · show (r.removeRegion origin).bind _ = _
      rw [e1]
      exact e2
    rw [c2]
    unfold setCached
    apply ext_lookup
    intro k
    rw [lookup_insert, lookup_insert, lookup_foldl_erase, lookup_foldl_erase, c1]
    by_cases e : k = region.getID
    · rw [if_pos e, if_pos e]
    · rw [if_neg e, if_neg e, lookup_erase_of_ne _ e]

lemma lookup_setCached
  : (r.setCached region (r.evicted region)).lookup id = some x ↔ (id = region.getID ∧ x = region) ∨
      (id ≠ region.getID ∧ r.cached.lookup id = some x ∧ ¬ region.getMeta.Overlaps x.getMeta) := by
  rw [setCached_some]
  refine or_congr Iff.rfl (and_congr_right fun hne => and_congr_right fun hx => ?_)
  have hid : x.getMeta.id = id := h.ids id x hx
  have hmem : x.getMeta ∈ r.tree.items := (h.same _).mpr ⟨x, by rw [hid]; exact hx, rfl⟩
  constructor
  · exact fun hno hov => hno x.getMeta ((mem_evicted h hr).mpr ⟨hmem, by rw [hid]; exact hne, hov⟩) hid
  intro hov o ho eo
  obtain ⟨homem, _, hov'⟩ := (mem_evicted h hr).mp ho
  rw [h.eq_of_id hmem homem (hid.trans eo.symm)] at hov
  exact hov hov'

lemma mem_items_setRegion (h' : r'.Sound)
  (hc : r'.cached = r.setCached region (r.evicted region)) : m ∈ r'.tree.items ↔
    m = region.getMeta ∨ (m ∈ r.tree.items ∧ m.id ≠ region.getID ∧ ¬ region.getMeta.Overlaps m) := by
  rw [h'.same, h.same, hc]
  constructor
  · intro ⟨x, hx, ex⟩
    rcases (lookup_setCached h hr).mp hx with ⟨_, e⟩ | ⟨hne, hx, hov⟩
    · exact .inl (by rw [← ex, e])
    · exact .inr ⟨⟨x, hx, ex⟩, hne, by rw [← ex]; exact hov⟩
  intro hm
  rcases hm with rfl | ⟨⟨x, hx, ex⟩, hne, hov⟩
  · exact ⟨region, (lookup_setCached h hr).mpr (.inl ⟨rfl, rfl⟩), rfl⟩
  · exact ⟨x, (lookup_setCached h hr).mpr (.inr ⟨hne, hx, by rw [ex]; exact hov⟩), ex⟩

end

lemma evictAll_keyed (items : List Region) (h : r.Keyed) (he : items.foldlM evict r = some r') :
  r'.Keyed ∧ (∀ id x, r'.cached.lookup id = some x → r.cached.lookup id = some x) ∧
    ∀ o ∈ items, (∃ x, r.cached.lookup o.id = some x) ∧ r'.cached.lookup o.id = none := by
  induction items generalizing r with
  | nil =>
    cases he
    exact ⟨h, fun _ _ hx => hx, fun o ho => absurd ho not_mem_nil⟩
  | cons o _ ih =>
    rw [foldlM_cons] at he
    obtain ⟨r1, h1, hrest⟩ := bind_eq_some_iff.mp he
    obtain ⟨y, hy, hrem⟩ := bind_eq_some_iff.mp h1
    have hy' : r.cached.lookup o.id = some y := (getRegion_eq _ _).symm.trans hy
    obtain ⟨r2, e2, hw, _, hc, _⟩ := removeRegion_spec h.wf y
    obtain rfl := some.inj (e2.symm.trans hrem)
    rw [h.ids _ y hy'] at hc
    have hsub : ∀ id x, r2.cached.lookup id = some x → id ≠ o.id ∧ r.cached.lookup id = some x := by
      intro id x hx
      rw [hc] at hx
      exact lookup_erase_some.mp hx
    obtain ⟨hk, hkeeps, hgone⟩ := ih ⟨hw, fun id x hx => h.ids id x (hsub id x hx).2⟩ hrest
    refine ⟨hk, fun id x hx => (hsub id x (hkeeps id x hx)).2, fun o' ho' => ?_⟩
    rcases mem_cons.mp ho' with rfl | ho'
    · refine ⟨⟨y, hy'⟩, eq_none_iff_forall_ne_some.mpr fun x hx => ?_⟩
      exact (hsub _ x (hkeeps _ x hx)).1 rfl
    obtain ⟨⟨x, hx⟩, hnone⟩ := hgone o' ho'
    exact ⟨⟨x, (hsub _ x hx).2⟩, hnone⟩

lemma addRegion_keyed (h : r.Keyed)
  (hnone : r.cached.lookup region.getID = none) (ha : r.addRegion region = some (r', overlaps)) :
  r'.Keyed ∧ r'.cached.lookup region.getID = some region ∧
    (∀ id x, id ≠ region.getID → r'.cached.lookup id = some x → r.cached.lookup id = some x) ∧
    overlaps = r.tree.getOverlaps region.getMeta ∧
    ∀ o ∈ overlaps, (∃ x, r.cached.lookup o.id = some x) ∧ r'.cached.lookup o.id = none := by
  obtain ⟨r1, h1, e⟩ := map_eq_some_iff.mp ha
  obtain ⟨rfl, rfl⟩ := Prod.mk.inj e
  obtain ⟨hk, hkeeps, hgone⟩ := evictAll_keyed _
    (r := { r with tree := (r.tree.update region.getMeta).1 }) ⟨⟨h.wf.regions, h.wf.maps⟩, h.ids⟩ h1
  obtain ⟨hw', _, hc, _⟩ := enter_spec hk.wf region
  have hother : ∀ id, id ≠ region.getID → (enter region r1).cached.lookup id = r1.cached.lookup id :=
    fun id hne => by rw [hc, lookup_insert_of_ne _ _ hne]
  refine ⟨⟨hw', fun id x hx => ?_⟩, by rw [hc]; exact lookup_insert_self ..,
    fun id x hne hx => hkeeps id x (by rw [← hother id hne]; exact hx), rfl, fun o ho => ?_⟩
  · rw [hc] at hx
    exact forall_insert (P := fun id (x : RegionInfo) => x.getID = id) rfl hk.ids id x hx
  obtain ⟨⟨x, hx⟩, hnone1⟩ := hgone o ho
  have hne : o.id ≠ region.getID := fun e => by
    change r.cached.lookup o.id = some x at hx
    rw [e, hnone] at hx
    cases hx
  exact ⟨⟨x, hx⟩, by rw [hother _ hne]; exact hnone1⟩

lemma setRegion_keyed (h : r.Keyed) (hs : r.setRegion region = some (r', overlaps)) :
  r'.Keyed ∧ r'.cached.lookup region.getID = some region ∧
    (∀ id x, id ≠ region.getID → r'.cached.lookup id = some x → r.cached.lookup id = some x) ∧
    overlaps = r.evicted region ∧
    ∀ o ∈ overlaps, (∃ x, r.cached.lookup o.id = some x) ∧ r'.cached.lookup o.id = none := by
  unfold setRegion at hs
  unfold evicted
  cases ho : r.regions.get region.getID with
  | none =>
    rw [ho] at hs
    rw [get_eq] at ho
    exact addRegion_keyed h ho hs
  | some origin =>
    rw [ho] at hs
    rw [get_eq] at ho
    obtain ⟨r1, h1, ha⟩ := bind_eq_some_iff.mp hs
    obtain ⟨r2, e2, hw, ht, hc, _⟩ := removeRegion_spec h.wf origin
    obtain rfl := some.inj (e2.symm.trans h1)
    rw [h.ids _ origin ho] at hc
    have hsub : ∀ id x, r2.cached.lookup id = some x → r.cached.lookup id = some x := by
      intro id x hx
      rw [hc] at hx
      exact (lookup_erase_some.mp hx).2
    obtain ⟨hk, hself, hother, hov, hgone⟩ := addRegion_keyed ⟨hw, fun id x hx => h.ids id x (hsub id x hx)⟩
      (by rw [hc]; exact lookup_erase_self ..) ha
    refine ⟨hk, hself, fun id x hne hx => hsub id x (hother id x hne hx), by rw [hov, ht], fun o ho' => ?_⟩
    obtain ⟨⟨x, hx⟩, hnone⟩ := hgone o ho'
    exact ⟨⟨x, hsub _ x hx⟩, hnone⟩

end
end RegionsInfo
end PD
