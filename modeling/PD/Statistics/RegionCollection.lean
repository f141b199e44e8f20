import PD.Core.Store
import Mathlib.Data.Nat.Bitwise

/-! # Region statistics -/

namespace PD
open Function SortedMap

inductive RegionStatisticType where
  | missPeer
  | extraPeer
  | downPeer
  | pendingPeer
  | offlinePeer
  | incorrectNamespace
  | learnerPeer
  deriving DecidableEq

def RegionStatisticType.bit : RegionStatisticType → Nat
  | .missPeer => 0
  | .extraPeer => 1
  | .downPeer => 2
  | .pendingPeer => 3
  | .offlinePeer => 4
  | .incorrectNamespace => 5
  | .learnerPeer => 6

structure StatisticsOptions where
  getMaxReplicas : String → Int
  getRegionNamespace : RegionInfo → String
  getStoreNamespace : StoreInfo → String

structure RegionStatistics where
  stats : RegionStatisticType → SortedMap Nat RegionInfo
  index : SortedMap Nat Nat

variable (types : List RegionStatisticType)

def mask : Nat := types.foldl (fun peerTypeIndex typ => peerTypeIndex ||| 1 <<< typ.bit) 0

namespace RegionStatistics

def new : RegionStatistics := ⟨fun _ => .empty, .empty⟩

def deleteEntry (r : RegionStatistics) (deleteIndex regionID : Nat) : RegionStatistics :=
  { r with stats := fun typ =>
      if deleteIndex.testBit typ.bit then (r.stats typ).erase regionID else r.stats typ }

def storeMarks (opts : StatisticsOptions) (region : RegionInfo) :
    List StoreInfo → List RegionStatisticType
  | [] => []
  | store :: stores =>
    (if store.isOffline && (region.getStorePeer store.id).isSome then [.offlinePeer] else []) ++
      if opts.getStoreNamespace store = opts.getRegionNamespace region then storeMarks opts region stores
      else [.incorrectNamespace]

def marks (opts : StatisticsOptions) (region : RegionInfo) (stores : List StoreInfo) :
  List RegionStatisticType :=
  let maxReplicas := opts.getMaxReplicas (opts.getRegionNamespace region)
  (if (region.getPeers.length : Int) < maxReplicas then [.missPeer]
    else if (region.getPeers.length : Int) > maxReplicas then [.extraPeer] else []) ++
  (if region.downPeers.length > 0 then [.downPeer] else []) ++
  (if region.pendingPeers.length > 0 then [.pendingPeer] else []) ++
  (if region.getLearners.length > 0 then [.learnerPeer] else []) ++
  storeMarks opts region stores

def record (region : RegionInfo) (r : RegionStatistics) (typ : RegionStatisticType) :
  RegionStatistics :=
  { r with stats := update r.stats typ ((r.stats typ).insert region.getID region) }

def observe (opts : StatisticsOptions) (r : RegionStatistics) (region : RegionInfo)
  (stores : List StoreInfo) : RegionStatistics :=
  let types := marks opts region stores
  let peerTypeIndex := mask types
  let recorded := types.foldl (record region) r
  let deleteIndex := match r.index.lookup region.getID with
    | some oldIndex => oldIndex ^^^ (oldIndex &&& peerTypeIndex)
    | none => 0
  let deleted := recorded.deleteEntry deleteIndex region.getID
  { deleted with index := deleted.index.insert region.getID peerTypeIndex }

def clearDefunctRegion (r : RegionStatistics) (regionID : Nat) : RegionStatistics :=
  match r.index.lookup regionID with
  | some oldIndex => r.deleteEntry oldIndex regionID
  | none => r

end RegionStatistics

structure LabelLevelStatistics where
  regionLabelLevelStats : SortedMap Nat Nat
  labelLevelCounter : SortedMap Nat Int

namespace LabelLevelStatistics

def new : LabelLevelStatistics := ⟨.empty, .empty⟩

def clearDefunctRegion (l : LabelLevelStatistics) (regionID : Nat) : LabelLevelStatistics :=
  match l.regionLabelLevelStats.lookup regionID with
  | some level => ⟨l.regionLabelLevelStats.erase regionID,
      l.labelLevelCounter.insert level ((l.labelLevelCounter.lookup level).getD 0 - 1)⟩
  | none => l

end LabelLevelStatistics

lemma bit_inj {a b : RegionStatisticType} (h : a.bit = b.bit) : a = b := by
  cases a <;> cases b <;> first | rfl | cases h

lemma testBit_mask (typ : RegionStatisticType) : (mask types).testBit typ.bit = true ↔ typ ∈ types := by
  have hacc : ∀ acc : Nat, (types.foldl (fun m t => m ||| 1 <<< t.bit) acc).testBit typ.bit = true ↔
      acc.testBit typ.bit = true ∨ typ ∈ types := by
    induction types with
    | nil => intro acc; simp
    | cons t _ ih =>
      intro acc
      rw [List.foldl_cons, ih, Nat.testBit_or, Bool.or_eq_true, List.mem_cons, Nat.one_shiftLeft,
        Nat.testBit_two_pow, decide_eq_true_eq, or_assoc]
      have hbit : t.bit = typ.bit ↔ typ = t := ⟨fun h => (bit_inj h).symm, fun h => by rw [h]⟩
      rw [hbit]
  have h := hacc 0
  rw [Nat.zero_testBit] at h
  exact h.trans (or_iff_right Bool.false_ne_true)

namespace RegionStatistics
variable (opts : StatisticsOptions) (r : RegionStatistics) (region : RegionInfo)
  (stores : List StoreInfo)

structure Recorded : Prop where
  index : r.index.lookup region.getID = some (mask (marks opts region stores))
  stats : ∀ typ ∈ marks opts region stores, (r.stats typ).lookup region.getID = some region

lemma foldl_record (types : List RegionStatisticType) :
    types.foldl (record region) r = { r with stats := fun typ =>
      if typ ∈ types then (r.stats typ).insert region.getID region else r.stats typ } := by
  induction types generalizing r with
  | nil => simp
  | cons t types ih =>
    rw [List.foldl_cons, ih]
    congr 1
    funext typ
    show (if typ ∈ types then insert (update r.stats t _ typ) _ _ else update r.stats t _ typ) = _
    by_cases e : typ = t
    · subst e
      rw [update_self, if_pos List.mem_cons_self]
      split
      · exact insert_insert_self ..
      · rfl
    rw [update_of_ne e]
    simp only [List.mem_cons, e, false_or]

lemma observe_eq_self : observe opts r region stores = r ↔ Recorded opts r region stores := by
  constructor
  · intro h
    have hindex : (observe opts r region stores).index.lookup region.getID =
        some (mask (marks opts region stores)) := lookup_insert_self ..
    refine ⟨by rw [h] at hindex; exact hindex, fun typ htyp => ?_⟩
    have hstats : ((observe opts r region stores).stats typ).lookup region.getID = some region := by
      unfold observe deleteEntry
      simp only [foldl_record]
      rw [if_neg, if_pos htyp]
      · exact lookup_insert_self ..
      have hbit := (testBit_mask (marks opts region stores) typ).mpr htyp
      split
      · rw [Nat.testBit_xor, Nat.testBit_and, hbit]
        simp
      rw [Nat.zero_testBit]
      exact Bool.false_ne_true
    rw [h] at hstats
    exact hstats
  intro h
  unfold observe
  simp only [foldl_record, h.index, Nat.and_self, Nat.xor_self]
  unfold deleteEntry
  simp only [Nat.zero_testBit, Bool.false_eq_true, if_false]
  have hstats : (fun typ => if typ ∈ marks opts region stores then
      (r.stats typ).insert region.getID region else r.stats typ) = r.stats := by
    funext typ
    split
    next htyp => exact insert_of_lookup (h.stats typ htyp)
    · rfl
  rw [hstats, insert_of_lookup h.index]

end RegionStatistics
end PD
