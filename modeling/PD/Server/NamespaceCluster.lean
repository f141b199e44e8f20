import PD.Core.RegionsInfo
import PD.Schedule.CreateOperator
import PD.Schedule.Filters

/-! # The cluster of a namespace -/

namespace PD

structure Classifier where
  allNamespaces : List String
  storeNamespace : Nat → String
  regionNamespace : RegionInfo → String
  allowMerge : RegionInfo → RegionInfo → Bool

structure ClusterView where
  regions : RegionsInfo
  stores : SortedMap Nat StoreView
  opt : ScheduleOptions
  maxReplicas : String → Int
  isRegionHot : Nat → Bool

structure NamespaceCluster where
  cluster : ClusterView
  classifier : Classifier
  ns : String
  stores : SortedMap Nat StoreView

def newNamespaceCluster (c : ClusterView) (classifier : Classifier) (ns : String) : NamespaceCluster :=
  ⟨c, classifier, ns, c.stores.keep fun s => classifier.storeNamespace s.getID == ns⟩

namespace NamespaceCluster

def regions (nc : NamespaceCluster) : RegionsInfo := nc.cluster.regions
def opt (nc : NamespaceCluster) : ScheduleOptions := nc.cluster.opt

variable (nc : NamespaceCluster)

def checkRegion (region : RegionInfo) : Bool := nc.classifier.regionNamespace region == nc.ns &&
    region.getPeers.all fun p => (nc.stores.lookup p.storeId).isSome

def getStore (id : Nat) : Option StoreView := nc.stores.lookup id

def getRegion (nc : NamespaceCluster) (id : Nat) : Option RegionInfo :=
  (nc.regions.getRegion id).filter fun region => nc.checkRegion region

def getMaxReplicas : Int := nc.cluster.maxReplicas nc.ns

def toCluster (allocID : Nat → Except String Nat) : Cluster where
  getRegion := nc.getRegion
  getStore := fun id => (nc.getStore id).map StoreView.getMeta
  maxReplicas := nc.getMaxReplicas
  isRaftLearnerEnabled := nc.opt.isRaftLearnerEnabled
  rejectLeader := nc.opt.rejectLeader
  allocID := allocID

end NamespaceCluster

def scheduleByNamespace {σ : Type} (c : ClusterView) (classifier : Classifier)
    (schedule : σ → NamespaceCluster → Option (σ × List Operator)) :
    List String → σ → Option (σ × List Operator)
  | [], s => some (s, [])
  | ns :: rest, s =>
    match schedule s (newNamespaceCluster c classifier ns) with
    | none => none
    | some (s', []) => scheduleByNamespace c classifier schedule rest s'
    | some (s', op :: ops) => some (s', op :: ops)

structure ClusterView.Stored (c : ClusterView) (present : List Nat) : Prop where
  present : ∀ id, (c.stores.lookup id).isSome ↔ id ∈ present
  keyed : ∀ id s, c.stores.lookup id = some s → s.getID = id

namespace Classifier

def here (cl : Classifier) (present : List Nat) (ns : String) (id : Nat) : Prop :=
  id ∈ present ∧ cl.storeNamespace id = ns

def inside (cl : Classifier) (present : List Nat) (ns : String) (x : RegionInfo) : Prop :=
  cl.regionNamespace x = ns ∧ ∀ p ∈ x.getPeers, cl.here present ns p.storeId

end Classifier

section
variable {c : ClusterView} {cl : Classifier} {present : List Nat} {ns : String}

lemma getStore_isSome (h : c.Stored present) (id : Nat) :
  ((newNamespaceCluster c cl ns).getStore id).isSome ↔ cl.here present ns id := by
  show ((c.stores.keep fun s => cl.storeNamespace s.getID == ns).lookup id).isSome ↔ _
  rw [SortedMap.lookup_keep]
  unfold Classifier.here
  rw [← h.present id]
  cases hs : c.stores.lookup id with
  | none => simp
  | some s => simp [Option.filter_some, h.keyed id s hs]

lemma getRegion_eq_some (h : c.Stored present) {id : Nat} {x : RegionInfo} :
  (newNamespaceCluster c cl ns).getRegion id = some x ↔ c.regions.getRegion id = some x ∧ cl.inside present ns x := by
  unfold NamespaceCluster.getRegion
  rw [Option.filter_eq_some_iff]
  refine and_congr_right fun _ => ?_
  show (cl.regionNamespace x == ns && x.getPeers.all fun p => _) = true ↔ _
  rw [Bool.and_eq_true, beq_iff_eq, List.all_eq_true]
  exact and_congr_right fun _ => forall₂_congr fun p _ => getStore_isSome h p.storeId

lemma scheduleByNamespace_total {σ : Type} {schedule : σ → NamespaceCluster → Option (σ × List Operator)}
  (I : σ → Prop) {order : List String}
  (hone : ∀ ns ∈ order, ∀ s, I s → ∃ s' ops, schedule s (newNamespaceCluster c cl ns) = some (s', ops) ∧ I s')
  {s : σ} (hs : I s) : ∃ s' ops, scheduleByNamespace c cl schedule order s = some (s', ops) ∧ I s' := by
  induction order generalizing s with
  | nil => exact ⟨s, [], rfl, hs⟩
  | cons ns _ ih =>
    obtain ⟨s', ops, hsch, hs'⟩ := hone ns List.mem_cons_self s hs
    cases ops with
    | nil =>
      obtain ⟨t, ops, ht, hI⟩ := ih (fun ns' h' => hone ns' (List.mem_cons_of_mem _ h')) hs'
      refine ⟨t, ops, ?_, hI⟩
      rw [scheduleByNamespace, hsch]
      exact ht
    | cons op ops =>
      refine ⟨s', op :: ops, ?_, hs'⟩
      rw [scheduleByNamespace, hsch]

end
end PD
