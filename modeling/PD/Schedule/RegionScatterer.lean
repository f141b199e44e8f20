import PD.Schedule.ScatterOperator
import PD.Schedule.Selectors
import PD.Server.NamespaceCluster

/-! # The region scatterer -/

namespace PD
open List Option

structure SelectedStores where
  stores : List Nat
  deriving DecidableEq

namespace SelectedStores

def new : SelectedStores := ⟨[]⟩

def put (s : SelectedStores) (id : Nat) : Bool × SelectedStores :=
  if id ∈ s.stores then (false, s) else (true, ⟨id :: s.stores⟩)

def reset (_ : SelectedStores) : SelectedStores := ⟨[]⟩
def newFilter (s : SelectedStores) : StoreFilter := .excluded [] s.stores

lemma mem_put {s : SelectedStores} {id x : Nat} : x ∈ (s.put id).2.stores ↔ x ∈ s.stores ∨ x = id := by
  unfold put
  split
  next h => exact ⟨.inl, fun hx => hx.elim (fun hx => hx) fun e => e ▸ h⟩
  · exact mem_cons.trans or_comm

end SelectedStores

/-- `float` is the `float64` nearest to a number; `DistinctScore` adds up in it. -/
structure ScatterView where
  opt : ScheduleOptions
  maxReplicas : Int
  stores : SortedMap Nat StoreView
  isRegionHot : Nat → Bool
  classifier : Classifier
  float : Nat → Nat

namespace ScatterView
variable (v : ScatterView)

def floatScore (stores : List StoreView) (other : StoreView) : Nat :=
  stores.foldl (fun score s =>
    let more := distinctFrom v.opt.locationLabels other s
    if more = 0 then score else v.float (score + v.float more)) 0

/-- In peer order, as `clusterInfo` has it. -/
def getRegionStores (region : RegionInfo) : List StoreView := region.storeIds.filterMap v.stores.lookup

def collectAvailableStores (selected : SelectedStores) (region : RegionInfo) : List StoreView :=
  let filters := [selected.newFilter, .excluded [] region.storeIds,
    .namespace v.classifier.storeNamespace (v.classifier.regionNamespace region), .storeState false false]
  v.stores.values.filter fun s => passesTarget v.opt filters s && !s.isBusy

/-- Without its store the peer has no guard: `NewDistinctScoreFilter` reads the id of a nil store, or makes a slice of
capacity -1 where no store of the region is known. -/
def scoreGuard (region : RegionInfo) (oldPeer : Peer) : Option StoreFilter :=
  (v.stores.lookup oldPeer.storeId).map fun source =>
    let others := (v.getRegionStores region).filter fun s => s.getID != source.getID
    .distinctScore (v.floatScore others) (v.floatScore others source)

def selectPeerToReplace (stores : List StoreView) (region : RegionInfo) (oldPeer : Peer)
  (draw : Nat) (allocID : Except String Nat) : Option (Option Peer) :=
  (v.scoreGuard region oldPeer).map fun guard =>
    let candidates := stores.filter fun s => !guard.target v.opt s
    match candidates[draw % candidates.length]? with
    | none => none
    | some target =>
      match allocID with
      | .error _ => none
      | .ok id => some ⟨id, target.getID, false⟩

section
variable {v : ScatterView} {selected : SelectedStores} {region : RegionInfo} {stores : List StoreView}
  {oldPeer newPeer : Peer} {draw : Nat} {allocID : Except String Nat}

lemma mem_collectAvailableStores {s : StoreView} (h : s ∈ v.collectAvailableStores selected region) :
  s ∈ v.stores.values ∧ s.getID ∉ region.storeIds := by
  obtain ⟨hmem, hpass⟩ := mem_filter.mp h
  refine ⟨hmem, fun hin => ?_⟩
  have hrefused : (StoreFilter.excluded [] region.storeIds).target v.opt s = true := contains_iff_mem.mpr hin
  rw [passesTarget_eq_false (by simp) hrefused] at hpass
  cases hpass

lemma selectPeerToReplace_some (h : v.selectPeerToReplace stores region oldPeer draw allocID = some (some newPeer)) :
  ∃ guard, v.scoreGuard region oldPeer = some guard ∧
    ∃ target ∈ stores, guard.target v.opt target = false ∧ ∃ id, newPeer = ⟨id, target.getID, false⟩ := by
  obtain ⟨guard, hguard, h⟩ := map_eq_some_iff.mp h
  refine ⟨guard, hguard, ?_⟩
  dsimp only at h
  split at h
  · cases h
  next target htarget =>
    split at h
    · cases h
    next id _ =>
      obtain ⟨hmem, hpass⟩ := mem_filter.mp (List.mem_of_getElem? htarget)
      exact ⟨target, hmem, by simpa using hpass, id, (some.inj h).symm⟩

end
end ScatterView

inductive ScatterPhase where
  | collect
  | next
  | recollect
  | ready
  | mark (newPeer : Peer)
  deriving DecidableEq

structure ScatterCall where
  region : RegionInfo
  phase : ScatterPhase
  rest : List Peer
  stores : List StoreView
  targetPeers : List Peer
  deriving DecidableEq

def ScatterCall.start (region : RegionInfo) : ScatterCall := ⟨region, .collect, region.getPeers, [], []⟩

def ScatterView.scatter (v : ScatterView) (region : RegionInfo) : Except String ScatterCall :=
  if v.isRegionHot region.getID then .error ("region " ++ toString region.getID ++ " is a hot region")
  else if (region.getPeers.length : Int) ≠ v.maxReplicas then
    .error ("the number replicas of region " ++ toString region.getID ++ " is not expected")
  else if region.leader = none then .error ("region " ++ toString region.getID ++ " has no leader")
  else .ok (.start region)

structure ScatterInput where
  view : ScatterView
  draw : Nat
  allocID : Except String Nat

namespace ScatterCall
variable (c : ScatterCall)

def delete (id : Nat) : List StoreView := c.stores.filter fun s => s.getID != id

variable (selected : SelectedStores)

def place (input : ScatterInput) (peer : Peer) (rest : List Peer) : Option (SelectedStores × ScatterCall) :=
  match selected.put peer.storeId with
  | (true, selected) =>
    some (selected, ⟨c.region, .next, rest, c.delete peer.storeId, c.targetPeers ++ [peer]⟩)
  | (false, selected) =>
    (input.view.selectPeerToReplace c.stores c.region peer input.draw input.allocID).map fun
      | none => (selected, ⟨c.region, .next, rest, c.stores, c.targetPeers ++ [peer]⟩)
      | some newPeer => (selected, ⟨c.region, .mark newPeer, rest, c.delete newPeer.storeId, c.targetPeers⟩)

def loop (input : ScatterInput) (peer : Peer) (rest : List Peer) : Option (SelectedStores × ScatterCall) :=
  if c.stores = [] then some (selected.reset, { c with phase := .recollect })
  else c.place selected input peer rest

def step (input : ScatterInput) : Option (SelectedStores × ScatterCall) :=
  match c.phase, c.rest with
  | .collect, _ =>
    some (selected, { c with phase := .next, stores := input.view.collectAvailableStores selected c.region })
  | .next, [] => some (selected, c)
  | .next, peer :: rest => c.loop selected input peer rest
  | .recollect, _ =>
    some (selected, { c with phase := .ready, stores := input.view.collectAvailableStores selected c.region })
  | .ready, [] => some (selected, c)
  | .ready, peer :: rest => c.place selected input peer rest
  | .mark newPeer, _ =>
    some ((selected.put newPeer.storeId).2, { c with phase := .next, targetPeers := c.targetPeers ++ [newPeer] })

def isDone : Bool := c.phase == .next && c.rest.isEmpty

def operator (cluster : Cluster) (i : Nat) : Option (Option Operator) :=
  (createScatterRegionOperator "scatter-region" cluster c.region c.region.getPeers c.targetPeers i).map fun op =>
    op.map fun op => { op with level := .highPriority }

end ScatterCall

structure RegionScatterer where
  selected : SelectedStores
  calls : SortedMap Nat ScatterCall

inductive ScatterLabel where
  | scatter (n : Nat) (view : ScatterView) (region : RegionInfo)
  | step (n : Nat) (input : ScatterInput)

namespace RegionScatterer

def new : RegionScatterer := ⟨.new, .empty⟩

def step (s : RegionScatterer) : ScatterLabel → Option RegionScatterer
  | .scatter n view region =>
    if s.calls.lookup n = none then
      match view.scatter region with
      | .error _ => some s
      | .ok c => some { s with calls := s.calls.insert n c }
    else none
  | .step n input =>
    match s.calls.lookup n with
    | none => none
    | some c => (c.step s.selected input).map fun r => ⟨r.1, s.calls.insert n r.2⟩

end RegionScatterer

namespace ScatterCall

def Placing (c : ScatterCall) : Prop := c.phase = .next ∧ c.stores ≠ [] ∨ c.phase = .ready

inductive Moves (c : ScatterCall) (selected : SelectedStores) (input : ScatterInput) :
    SelectedStores → ScatterCall → Prop
  | stays (hphase : c.phase = .next ∨ c.phase = .ready) (hrest : c.rest = []) : Moves c selected input selected c
  | collects (phase : ScatterPhase)
      (hphase : c.phase = .collect ∧ phase = .next ∨ c.phase = .recollect ∧ phase = .ready) :
      Moves c selected input selected
        { c with phase := phase, stores := input.view.collectAvailableStores selected c.region }
  | resets (hphase : c.phase = .next) (hstores : c.stores = []) (hrest : c.rest ≠ []) :
      Moves c selected input selected.reset { c with phase := .recollect }
  | puts {peer : Peer} {rest : List Peer} (hplacing : c.Placing) (hrest : c.rest = peer :: rest)
      (hput : peer.storeId ∉ selected.stores) :
      Moves c selected input ⟨peer.storeId :: selected.stores⟩
        ⟨c.region, .next, rest, c.delete peer.storeId, c.targetPeers ++ [peer]⟩
  | keeps {peer : Peer} {rest : List Peer} (hplacing : c.Placing) (hrest : c.rest = peer :: rest)
      (hput : peer.storeId ∈ selected.stores)
      (hselect : input.view.selectPeerToReplace c.stores c.region peer input.draw input.allocID = some none) :
      Moves c selected input selected ⟨c.region, .next, rest, c.stores, c.targetPeers ++ [peer]⟩
  | replaces {peer newPeer : Peer} {rest : List Peer} (hplacing : c.Placing) (hrest : c.rest = peer :: rest)
      (hput : peer.storeId ∈ selected.stores)
      (hselect : input.view.selectPeerToReplace c.stores c.region peer input.draw input.allocID =
        some (some newPeer)) :
      Moves c selected input selected ⟨c.region, .mark newPeer, rest, c.delete newPeer.storeId, c.targetPeers⟩
  | marks {newPeer : Peer} (hphase : c.phase = .mark newPeer) :
      Moves c selected input (selected.put newPeer.storeId).2
        { c with phase := .next, targetPeers := c.targetPeers ++ [newPeer] }

section
variable {c c' : ScatterCall} {selected selected' : SelectedStores} {input : ScatterInput} {peer : Peer}
  {rest : List Peer}

lemma moves_of_place (hplacing : c.Placing) (hrest : c.rest = peer :: rest)
  (h : c.place selected input peer rest = some (selected', c')) : c.Moves selected input selected' c' := by
  unfold place SelectedStores.put at h
  by_cases hput : peer.storeId ∈ selected.stores
  · rw [if_pos hput] at h
    obtain ⟨o, ho, h⟩ := map_eq_some_iff.mp h
    cases o with
    | none =>
      obtain ⟨rfl, rfl⟩ := Prod.mk.inj h
      exact .keeps hplacing hrest hput ho
    | some =>
      obtain ⟨rfl, rfl⟩ := Prod.mk.inj h
      exact .replaces hplacing hrest hput ho
  rw [if_neg hput] at h
  cases h
  exact .puts hplacing hrest hput

lemma moves_of_loop (hphase : c.phase = .next) (hrest : c.rest = peer :: rest)
  (h : c.loop selected input peer rest = some (selected', c')) : c.Moves selected input selected' c' := by
  unfold loop at h
  by_cases hstores : c.stores = []
  · rw [if_pos hstores] at h
    cases h
    exact .resets hphase hstores (hrest ▸ cons_ne_nil _ _)
  rw [if_neg hstores] at h
  exact moves_of_place (.inl ⟨hphase, hstores⟩) hrest h

lemma moves_of_step (h : c.step selected input = some (selected', c')) : c.Moves selected input selected' c' := by
  obtain ⟨region, phase, rest, stores, targetPeers⟩ := c
  cases phase with
  | collect =>
    cases h
    exact .collects .next (.inl ⟨rfl, rfl⟩)
  | next =>
    cases rest with
    | nil =>
      cases h
      exact .stays (.inl rfl) rfl
    | cons => exact moves_of_loop rfl rfl h
  | recollect =>
    cases h
    exact .collects .ready (.inr ⟨rfl, rfl⟩)
  | ready =>
    cases rest with
    | nil =>
      cases h
      exact .stays (.inr rfl) rfl
    | cons => exact moves_of_place (.inr rfl) rfl h
  | mark =>
    cases h
    exact .marks rfl

lemma Placing.step_eq (h : c.Placing) (hrest : c.rest = peer :: rest) :
  c.step selected input = c.place selected input peer rest := by
  rcases h with ⟨hphase, hstores⟩ | hphase
  · simp only [step, hphase, hrest, loop, if_neg hstores]
  · simp only [step, hphase, hrest]

lemma Moves.step_eq (h : c.Moves selected input selected' c') : c.step selected input = some (selected', c') := by
  cases h with
  | stays hphase hrest => rcases hphase with hphase | hphase <;> simp only [step, hphase, hrest]
  | collects _ hphase => rcases hphase with ⟨hphase, rfl⟩ | ⟨hphase, rfl⟩ <;> simp only [step, hphase]
  | resets hphase hstores hrest =>
    obtain ⟨peer, rest, hrest⟩ := exists_cons_of_ne_nil hrest
    simp only [step, hphase, hrest, loop, if_pos hstores]
  | puts hplacing hrest hput => simp only [hplacing.step_eq hrest, place, SelectedStores.put, if_neg hput]
  | keeps hplacing hrest hput hselect | replaces hplacing hrest hput hselect =>
    simp only [hplacing.step_eq hrest, place, SelectedStores.put, if_pos hput, hselect, map_some]
  | marks hphase => simp only [step, hphase]

end

def storeIds (peers : List Peer) : List Nat := peers.map Peer.storeId

def Exposed (c : ScatterCall) : Prop := (c.phase = .recollect ∧ ∃ p ∈ c.targetPeers, p.storeId ∉ c.region.storeIds) ∨
    ∃ p ∈ c.targetPeers, ∃ s ∈ c.stores, s.getID = p.storeId

instance (c : ScatterCall) : Decidable c.Exposed := inferInstanceAs (Decidable (_ ∨ _))

def selects (c : ScatterCall) (selected : SelectedStores) : Option Nat :=
  match c.phase, c.rest with
  | .next, peer :: _ => if c.stores ≠ [] ∧ peer.storeId ∉ selected.stores then some peer.storeId else none
  | .ready, peer :: _ => if peer.storeId ∉ selected.stores then some peer.storeId else none
  | .mark newPeer, _ => some newPeer.storeId
  | _, _ => none

structure Inv (c : ScatterCall) (selected : SelectedStores) : Prop where
  rest_nodup : (storeIds c.rest).Nodup
  rest_region : ∀ id ∈ storeIds c.rest, id ∈ c.region.storeIds
  stores_apart : ∀ s ∈ c.stores, s.getID ∉ c.region.storeIds
  targets_nodup : (storeIds c.targetPeers).Nodup
  targets_rest : ∀ id ∈ storeIds c.targetPeers, id ∉ storeIds c.rest
  start : c.phase = .collect → c.targetPeers = []
  marked : ∀ newPeer, c.phase = .mark newPeer → newPeer.storeId ∉ c.region.storeIds ∧
    newPeer.storeId ∉ storeIds c.targetPeers ∧ ∀ s ∈ c.stores, s.getID ≠ newPeer.storeId
  clear : c.Exposed → ∀ id ∈ storeIds c.rest, id ∉ selected.stores

section
variable {c c' : ScatterCall} {selected selected' : SelectedStores} {input : ScatterInput} {peer : Peer}
  {rest : List Peer} {view : ScatterView} {region : RegionInfo}
variable {id : Nat} {peers : List Peer} {p newPeer : Peer}

lemma inv_start (hnodup : region.storeIds.Nodup) : (start region).Inv selected := by
  refine ⟨hnodup, fun _ hid => hid, fun s hs => absurd hs not_mem_nil, nodup_nil,
    fun id hid => absurd hid not_mem_nil, fun _ => rfl, fun _ hphase => ?_, fun hexposed => ?_⟩
  · cases hphase
  rcases hexposed with ⟨hphase, -⟩ | ⟨_, hp, -⟩
  · cases hphase
  · cases hp

lemma inv_scatter (hnodup : region.storeIds.Nodup) (h : view.scatter region = .ok c) : c.Inv selected := by
  unfold ScatterView.scatter at h
  split at h
  · cases h
  split at h
  · cases h
  split at h
  · cases h
  obtain rfl := Except.ok.inj h
  exact inv_start hnodup

lemma mem_delete {s : StoreView} : s ∈ c.delete id ↔ s ∈ c.stores ∧ s.getID ≠ id := by
  unfold delete
  rw [mem_filter, bne_iff_ne]

lemma storeIds_append (peers : List Peer) (p : Peer) : storeIds (peers ++ [p]) = storeIds peers ++ [p.storeId] :=
  map_append

lemma mem_storeIds_append : id ∈ storeIds (peers ++ [p]) ↔ id ∈ storeIds peers ∨ id = p.storeId := by
  rw [storeIds_append, mem_append, mem_singleton]

lemma nodup_storeIds_append (h : (storeIds peers).Nodup)
  (hp : p.storeId ∉ storeIds peers) : (storeIds (peers ++ [p])).Nodup := by
  rw [storeIds_append]
  exact nodup_append.mpr ⟨h, nodup_singleton _, fun a ha b hb e => by
    rw [e, mem_singleton.mp hb] at ha
    exact hp ha⟩

section
variable (h : c.Inv selected)
include h

lemma Inv.tail (hrest : c.rest = peer :: rest) : peer.storeId ∈ storeIds c.rest ∧
  peer.storeId ∉ storeIds rest ∧ (storeIds rest).Nodup ∧ ∀ id ∈ storeIds rest, id ∈ storeIds c.rest := by
  have hids : storeIds c.rest = peer.storeId :: storeIds rest := congrArg storeIds hrest
  have hnodup := h.rest_nodup
  rw [hids, nodup_cons] at hnodup
  exact ⟨hids ▸ mem_cons_self, hnodup.1, hnodup.2, fun id hid => hids ▸ mem_cons_of_mem _ hid⟩

lemma Inv.keep (hrest : c.rest = peer :: rest) {stores : List StoreView} (hstores : ∀ s ∈ stores, s ∈ c.stores)
  (hselected : ∀ id ∈ selected'.stores, id ∈ selected.stores ∨ id = peer.storeId) :
  (⟨c.region, .next, rest, stores, c.targetPeers ++ [peer]⟩ : ScatterCall).Inv selected' := by
  obtain ⟨hpeer, hout, hnodup, hmem⟩ := h.tail hrest
  refine ⟨hnodup, fun id hid => h.rest_region id (hmem id hid), fun s hs => h.stores_apart s (hstores s hs),
    nodup_storeIds_append h.targets_nodup fun hid => h.targets_rest _ hid hpeer, ?_, nofun, nofun,
    ?_⟩
  · intro id hid hid'
    rcases mem_storeIds_append.mp hid with hid | rfl
    · exact h.targets_rest id hid (hmem id hid')
    · exact hout hid'
  rintro (⟨hphase, -⟩ | ⟨p, hp, s, hs, heq⟩) id hid hsel
  · cases hphase
  -- an available store of a target is none of the region's, so the call was exposed before
  have hexposed : c.Exposed := by
    rcases mem_append.mp hp with hp | hp
    · exact .inr ⟨p, hp, s, hstores s hs, heq⟩
    rw [mem_singleton.mp hp] at heq
    exact absurd (heq ▸ h.rest_region _ hpeer) (h.stores_apart s (hstores s hs))
  rcases hselected id hsel with hsel | rfl
  · exact h.clear hexposed id (hmem id hid) hsel
  · exact hout hid

lemma Inv.collect {phase : ScatterPhase}
    (hphase : c.phase = .collect ∧ phase = .next ∨ c.phase = .recollect ∧ phase = .ready) (view : ScatterView) :
    ({ c with phase := phase, stores := view.collectAvailableStores selected c.region } : ScatterCall).Inv
      selected := by
  have hapart : ∀ s ∈ view.collectAvailableStores selected c.region, s.getID ∉ c.region.storeIds := fun s hs =>
    (ScatterView.mem_collectAvailableStores hs).2
  refine ⟨h.rest_nodup, h.rest_region, hapart, h.targets_nodup, h.targets_rest, ?_, ?_, ?_⟩
  · rintro rfl
    rcases hphase with ⟨-, e⟩ | ⟨-, e⟩ <;> cases e
  · rintro newPeer rfl
    rcases hphase with ⟨-, e⟩ | ⟨-, e⟩ <;> cases e
  intro hexposed
  rcases hexposed with ⟨rfl, -⟩ | ⟨p, hp, s, hs, heq⟩
  · rcases hphase with ⟨-, e⟩ | ⟨-, e⟩ <;> cases e
  rcases hphase with ⟨hphase, -⟩ | ⟨hphase, -⟩
  · rw [h.start hphase] at hp
    cases hp
  · exact h.clear (.inl ⟨hphase, p, hp, heq ▸ hapart s hs⟩)

lemma Inv.replace (hrest : c.rest = peer :: rest)
  (hput : peer.storeId ∈ selected.stores) (hstore : ∃ s ∈ c.stores, newPeer.storeId = s.getID) :
  (⟨c.region, .mark newPeer, rest, c.delete newPeer.storeId, c.targetPeers⟩ : ScatterCall).Inv selected := by
  obtain ⟨hpeer, -, hnodup, hmem⟩ := h.tail hrest
  have hhidden : ¬ c.Exposed := fun hexposed => h.clear hexposed _ hpeer hput
  obtain ⟨s, hs, hnew⟩ := hstore
  refine ⟨hnodup, fun id hid => h.rest_region id (hmem id hid), fun t ht => h.stores_apart t (mem_delete.mp ht).1,
    h.targets_nodup, fun id hid hid' => h.targets_rest id hid (hmem id hid'), nofun, ?_, ?_⟩
  · intro newPeer' e
    obtain rfl := ScatterPhase.mark.inj e
    refine ⟨hnew ▸ h.stores_apart s hs, fun hid => ?_, fun t ht => (mem_delete.mp ht).2⟩
    obtain ⟨p, hp, hpid⟩ := List.mem_map.mp hid
    exact hhidden (.inr ⟨p, hp, s, hs, (hpid.trans hnew).symm⟩)
  intro hexposed
  rcases hexposed with ⟨hphase, -⟩ | ⟨p, hp, t, ht, heq⟩
  · cases hphase
  · exact absurd (.inr ⟨p, hp, t, (mem_delete.mp ht).1, heq⟩) hhidden

lemma Inv.mark (hphase : c.phase = .mark newPeer) :
    ({ c with phase := .next, targetPeers := c.targetPeers ++ [newPeer] } : ScatterCall).Inv
      (selected.put newPeer.storeId).2 := by
  obtain ⟨hregion, htargets, hstores⟩ := h.marked newPeer hphase
  have hrest : newPeer.storeId ∉ storeIds c.rest := fun hid => hregion (h.rest_region _ hid)
  refine ⟨h.rest_nodup, h.rest_region, h.stores_apart, nodup_storeIds_append h.targets_nodup htargets, ?_, nofun, nofun,
    ?_⟩
  · intro id hid
    rcases mem_storeIds_append.mp hid with hid | rfl
    · exact h.targets_rest id hid
    · exact hrest
  intro hexposed id hid hsel
  have hexposed : c.Exposed := by
    rcases hexposed with ⟨hphase, -⟩ | ⟨p, hp, s, hs, heq⟩
    · cases hphase
    rcases mem_append.mp hp with hp | hp
    · exact .inr ⟨p, hp, s, hs, heq⟩
    · exact absurd (mem_singleton.mp hp ▸ heq) (hstores s hs)
  rcases SelectedStores.mem_put.mp hsel with hsel | rfl
  · exact h.clear hexposed id hid hsel
  · exact hrest hid

lemma Inv.moves (hmoves : c.Moves selected input selected' c') : c'.Inv selected' := by
  cases hmoves with
  | stays => exact h
  | collects _ hphase => exact h.collect hphase input.view
  | resets =>
    exact ⟨h.rest_nodup, h.rest_region, h.stores_apart, h.targets_nodup, h.targets_rest, nofun, nofun,
      fun _ id _ hid => absurd hid not_mem_nil⟩
  | puts _ hrest =>
    exact h.keep hrest (fun s hs => (mem_delete.mp hs).1) fun id hid => (mem_cons.mp hid).symm
  | keeps _ hrest => exact h.keep hrest (fun s hs => hs) fun id hid => .inl hid
  | replaces _ hrest hput hselect =>
    obtain ⟨guard, -, target, htarget, -, id, rfl⟩ := ScatterView.selectPeerToReplace_some hselect
    exact h.replace hrest hput ⟨target, htarget, rfl⟩
  | marks hphase => exact h.mark hphase

end

lemma Moves.selected_subset (h : c.Moves selected input selected' c') (hid : id ∈ selected'.stores) :
  id ∈ selected.stores ∨ c.selects selected = some id := by
  cases h with
  | resets => cases hid
  | @puts _ _ hplacing hrest hput =>
    rcases mem_cons.mp hid with rfl | hid
    · refine .inr ?_
      rcases hplacing with ⟨hphase, hstores⟩ | hphase
      · simp [selects, hphase, hrest, hstores, hput]
      · simp [selects, hphase, hrest, hput]
    · exact .inl hid
  | @marks _ hphase =>
    rcases SelectedStores.mem_put.mp hid with hid | rfl
    · exact .inl hid
    · exact .inr (by simp [selects, hphase])
  | _ => exact .inl hid

lemma Inv.other (h : c.Inv selected)
  (hsel : ∀ id ∈ selected'.stores, id ∈ selected.stores ∨ (c.Exposed → id ∉ storeIds c.rest)) : c.Inv selected' :=
  ⟨h.rest_nodup, h.rest_region, h.stores_apart, h.targets_nodup, h.targets_rest, h.start, h.marked,
    fun hexposed id hid hmem => (hsel id hmem).elim (h.clear hexposed id hid) fun hno => hno hexposed hid⟩

end
end ScatterCall

def ScatterLabel.Distinct : ScatterLabel → Prop
  | .scatter _ _ region => region.storeIds.Nodup
  | .step _ _ => True

def RegionScatterer.Undisturbed (s : RegionScatterer) : ScatterLabel → Prop
  | .scatter _ _ _ => True
  | .step n _ => ∀ c ∈ s.calls.lookup n, ∀ id ∈ c.selects s.selected, ∀ e ∈ s.calls.entries, e.1 ≠ n → e.2.Exposed →
      id ∉ ScatterCall.storeIds e.2.rest

instance (l : ScatterLabel) : Decidable l.Distinct :=
  match l with
  | .scatter _ _ region => inferInstanceAs (Decidable region.storeIds.Nodup)
  | .step _ _ => .isTrue trivial

instance (s : RegionScatterer) (l : ScatterLabel) : Decidable (s.Undisturbed l) :=
  match l with
  | .scatter _ _ _ => .isTrue trivial
  | .step n _ => inferInstanceAs (Decidable (∀ c ∈ s.calls.lookup n, _))

section
variable {s s' : RegionScatterer} {l : ScatterLabel}

lemma RegionScatterer.inv_step (h : ∀ n c, s.calls.lookup n = some c → c.Inv s.selected) (hl : l.Distinct)
  (hok : s.Undisturbed l) (hstep : s.step l = some s') : ∀ n c, s'.calls.lookup n = some c → c.Inv s'.selected := by
  cases l with
  | scatter =>
    simp only [RegionScatterer.step] at hstep
    split at hstep
    · split at hstep
      · exact some.inj hstep ▸ h
      next _ hc₀ =>
        cases hstep
        intro n c hc
        rcases SortedMap.lookup_insert_some.mp hc with ⟨-, rfl⟩ | ⟨-, hc⟩
        · exact ScatterCall.inv_scatter hl hc₀
        · exact h n c hc
    · cases hstep
  | step m =>
    simp only [RegionScatterer.step] at hstep
    split at hstep
    · cases hstep
    next c₀ hc₀ =>
      obtain ⟨⟨selected', c₁⟩, hc₁, rfl⟩ := map_eq_some_iff.mp hstep
      have hmoves := ScatterCall.moves_of_step hc₁
      intro n c hc
      rcases SortedMap.lookup_insert_some.mp hc with ⟨-, rfl⟩ | ⟨hne, hc⟩
      · exact (h m c₀ hc₀).moves hmoves
      refine (h n c hc).other fun id hid => (hmoves.selected_subset hid).imp_right fun hsel hexposed => ?_
      exact hok c₀ hc₀ id hsel (n, c) (SortedMap.mem_entries.mpr hc) hne hexposed

end

/-- **Distinct targets**, if no call is disturbed. -/
theorem scatter_distinct (ls : List ScatterLabel) (s : RegionScatterer)
  (hok : Runs.Along RegionScatterer.step (fun s l => l.Distinct ∧ s.Undisturbed l) .new ls)
  (h : Runs.exec RegionScatterer.step .new ls = some s) :
  ∀ n c, s.calls.lookup n = some c → (c.targetPeers.map Peer.storeId).Nodup := by
  have hinv := Runs.exec_inv (fun s => ∀ n c, s.calls.lookup n = some c → c.Inv s.selected)
    (fun s l t hs hl hstep => RegionScatterer.inv_step hs hl.1 hl.2 hstep)
    (fun n c hc => by cases hc) hok h
  exact fun n c hc => (hinv n c hc).targets_nodup

def labelledStore (labels : List StoreLabel) (id : Nat) : StoreView :=
  ⟨⟨id, "", .up, labels, ""⟩, false, false, false, 0, 0, 0, 0, 0, false, none, none⟩

def threeStores : ScatterView := ⟨⟨3, 16, 1800000000000, [], true, []⟩, 2,
    ((SortedMap.empty.insert 1 (labelledStore [] 1)).insert 2 (labelledStore [] 2)).insert 3 (labelledStore [] 3),
    fun _ => false, ⟨["global"], fun _ => "global", fun _ => "global", fun _ _ => true⟩, id⟩

def pairRegion (id : Nat) : RegionInfo :=
  (loadedRegion id [.ofNat id] [.ofNat (id+1)] [1, 2]).withLeader (some ⟨10 * id + 1, 1, false⟩)

def stepOf (n id : Nat) : ScatterLabel := .step n ⟨threeStores, 0, .ok id⟩

def scatterUpToReset : List ScatterLabel :=
  [.scatter 1 threeStores (pairRegion 1), .scatter 2 threeStores (pairRegion 2), stepOf 2 0, stepOf 2 0, stepOf 1 0,
    stepOf 1 100, stepOf 1 0, stepOf 1 0, stepOf 1 0]

def targetsOf (s : RegionScatterer) (n : Nat) : Option (List Nat) :=
  ((s.calls.lookup n).filter fun c => c.isDone).map fun c => c.targetPeers.map Peer.storeId

def scatterInTurn : List ScatterLabel := scatterUpToReset ++ [stepOf 1 0, stepOf 2 200, stepOf 2 0]
def scatterOvertaken : List ScatterLabel := scatterUpToReset ++ [stepOf 2 0, stepOf 1 101, stepOf 1 0]

theorem scatter_distinct_in_turn :
  ∃ s, Runs.exec RegionScatterer.step .new scatterInTurn = some s ∧ targetsOf s 1 = some [3, 2] ∧
    targetsOf s 2 = some [1, 3] ∧ ∀ n c, s.calls.lookup n = some c → (c.targetPeers.map Peer.storeId).Nodup := by
  have heval : (Runs.exec RegionScatterer.step .new scatterInTurn).map (fun s => (targetsOf s 1, targetsOf s 2)) =
      some (some [3, 2], some [1, 3]) := by decide +kernel
  have hok : Runs.Along RegionScatterer.step (fun s l => l.Distinct ∧ s.Undisturbed l) .new scatterInTurn := by
    decide +kernel
  obtain ⟨s, hs, he⟩ := map_eq_some_iff.mp heval
  obtain ⟨h1, h2⟩ := Prod.mk.inj he
  exact ⟨s, hs, h1, h2, scatter_distinct scatterInTurn s hok hs⟩

theorem scatter_same_store : (∀ l ∈ scatterOvertaken, l.Distinct) ∧
  ∃ s, Runs.exec RegionScatterer.step .new scatterOvertaken = some s ∧ targetsOf s 1 = some [3, 3] := by
  have heval : (Runs.exec RegionScatterer.step .new scatterOvertaken).map (fun s => targetsOf s 1) =
      some (some [3, 3]) := by decide +kernel
  exact ⟨by decide +kernel, map_eq_some_iff.mp heval⟩

end PD
