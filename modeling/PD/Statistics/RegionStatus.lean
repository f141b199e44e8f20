import PD.Statistics.RegionCollection
import Mathlib.Data.List.Induction

/-! # The regions of each status -/

namespace PD.RegionStatistics
open List SortedMap

inductive Call where
  | observe (region : RegionInfo) (stores : List StoreInfo)
  | clearDefunctRegion (regionID : Nat)

def Call.id : Call → Nat
  | .observe region _ => region.getID
  | .clearDefunctRegion regionID => regionID

variable (opts : StatisticsOptions)

def apply (r : RegionStatistics) : Call → RegionStatistics
  | .observe region stores => r.observe opts region stores
  | .clearDefunctRegion regionID => r.clearDefunctRegion regionID

def lastCall (calls : List Call) (id : Nat) : Option Call := calls.reverse.find? fun c => c.id == id

def Status (region : RegionInfo) (stores : List StoreInfo) : RegionStatisticType → Prop
  | .missPeer => (region.getPeers.length : Int) < opts.getMaxReplicas (opts.getRegionNamespace region)
  | .extraPeer => opts.getMaxReplicas (opts.getRegionNamespace region) < region.getPeers.length
  | .downPeer => region.downPeers ≠ []
  | .pendingPeer => region.pendingPeers ≠ []
  | .learnerPeer => region.getLearners ≠ []
  | .offlinePeer => ∃ store ∈ stores, store.isOffline = true ∧ (region.getStorePeer store.id).isSome
  | .incorrectNamespace => ∃ store ∈ stores, opts.getStoreNamespace store ≠ opts.getRegionNamespace region

def visited (region : RegionInfo) (stores : List StoreInfo) : List StoreInfo := stores.take ((stores.takeWhile fun s =>
    opts.getStoreNamespace s = opts.getRegionNamespace region).length + 1)

section
variable {opts : StatisticsOptions} {region : RegionInfo} {stores : List StoreInfo} {typ : RegionStatisticType}

lemma mem_storeMarks : typ ∈ storeMarks opts region stores ↔
  typ = .offlinePeer ∧ Status opts region (visited opts region stores) .offlinePeer ∨
    typ = .incorrectNamespace ∧ Status opts region stores .incorrectNamespace := by
  induction stores with
  | nil => simp [storeMarks, Status, visited]
  | cons s stores ih =>
    have hoff : typ ∈ (if s.isOffline && (region.getStorePeer s.id).isSome then [.offlinePeer] else []) ↔
        typ = .offlinePeer ∧ s.isOffline = true ∧ (region.getStorePeer s.id).isSome := by
      split <;> simp_all
    rw [storeMarks, mem_append, hoff]
    by_cases hns : opts.getStoreNamespace s = opts.getRegionNamespace region
    · have hvisited : visited opts region (s :: stores) = s :: visited opts region stores := by simp [visited, hns]
      rw [if_pos hns, ih, hvisited]
      simp only [Status, exists_mem_cons_iff, hns, ne_eq, not_true_eq_false, false_or]
      rw [← or_assoc, ← and_or_left]
    have hvisited : visited opts region (s :: stores) = [s] := by simp [visited, hns]
    rw [if_neg hns, hvisited]
    simp [Status, hns]

lemma mem_marks : typ ∈ marks opts region stores ↔
  Status opts region (if typ = .offlinePeer then visited opts region stores else stores) typ := by
  have hlist : ∀ (p : Prop) [Decidable p] (t : RegionStatisticType), typ ∈ (if p then [t] else []) ↔ p ∧ typ = t := by
    intro p _ t
    split <;> simp [*]
  have hcount : ∀ (p q : Prop) [Decidable p] [Decidable q] (t u : RegionStatisticType),
      typ ∈ (if p then [t] else if q then [u] else []) ↔ p ∧ typ = t ∨ ¬ p ∧ q ∧ typ = u := by
    intro p q _ _ t u
    split <;> simp [*]
  simp only [marks, mem_append, mem_storeMarks, hlist, hcount, length_pos_iff]
  cases typ <;> simp [Status]
  omega

variable (r : RegionStatistics)

lemma lookup_deleteEntry (deleteIndex regionID id : Nat) : ((r.deleteEntry deleteIndex regionID).stats typ).lookup id =
  if id = regionID ∧ deleteIndex.testBit typ.bit = true then none else (r.stats typ).lookup id := by
  unfold deleteEntry
  by_cases hbit : deleteIndex.testBit typ.bit = true
  · simp [hbit, lookup_erase]
  · simp [hbit]

lemma lookup_observe (id : Nat) : ((r.observe opts region stores).stats typ).lookup id = if id = region.getID then
      if typ ∈ marks opts region stores then some region
      else if ((r.index.lookup id).getD 0).testBit typ.bit then none else (r.stats typ).lookup id
    else (r.stats typ).lookup id := by
  have hbit := testBit_mask (marks opts region stores) typ
  have hrecorded : (((marks opts region stores).foldl (record region) r).stats typ).lookup id =
      if id = region.getID ∧ typ ∈ marks opts region stores then some region else (r.stats typ).lookup id := by
    rw [foldl_record]
    by_cases htyp : typ ∈ marks opts region stores
    · simp [htyp, lookup_insert]
    · simp [htyp]
  show ((deleteEntry _ _ region.getID).stats typ).lookup id = _
  rw [lookup_deleteEntry, hrecorded]
  by_cases hid : id = region.getID
  · subst hid
    cases hold : r.index.lookup region.getID with
    | none => simp
    | some =>
      by_cases htyp : typ ∈ marks opts region stores
      · simp [htyp, hbit.mpr htyp]
      have hnot : (mask (marks opts region stores)).testBit typ.bit = false := by simpa [htyp] using hbit
      simp [htyp, hnot]
  · simp [hid]

lemma lookup_clearDefunctRegion (regionID id : Nat) : ((r.clearDefunctRegion regionID).stats typ).lookup id =
  if id = regionID ∧ ((r.index.lookup id).getD 0).testBit typ.bit = true then none else (r.stats typ).lookup id := by
  unfold clearDefunctRegion
  cases hold : r.index.lookup regionID with
  | none =>
    by_cases hid : id = regionID
    · simp [hid, hold]
    · simp [hid]
  | some =>
    rw [lookup_deleteEntry]
    by_cases hid : id = regionID
    · simp [hid, hold]
    · simp [hid]

structure Tracks (opts : StatisticsOptions) (calls : List Call) (r : RegionStatistics) : Prop where
  stats : ∀ typ id region, (r.stats typ).lookup id = some region ↔
    ∃ stores, lastCall calls id = some (.observe region stores) ∧ typ ∈ marks opts region stores
  index : ∀ id region stores, lastCall calls id = some (.observe region stores) →
    r.index.lookup id = some (mask (marks opts region stores))

lemma lastCall_self (calls : List Call) {c : Call} {id : Nat} (h : id = c.id) :
  lastCall (calls ++ [c]) id = some c := by
  simp [lastCall, h]

lemma lastCall_of_ne (calls : List Call) {c : Call} {id : Nat} (h : id ≠ c.id) :
  lastCall (calls ++ [c]) id = lastCall calls id := by
  simp [lastCall, Ne.symm h]

lemma Tracks.testBit {calls : List Call} {r : RegionStatistics} (h : Tracks opts calls r) {id : Nat}
  (hs : (r.stats typ).lookup id = some region) : ((r.index.lookup id).getD 0).testBit typ.bit = true := by
  obtain ⟨stores, hlast, hin⟩ := (h.stats typ id region).mp hs
  rw [h.index id region stores hlast]
  exact (testBit_mask _ typ).mpr hin

lemma Tracks.snoc {calls : List Call} {r : RegionStatistics} (h : Tracks opts calls r) (c : Call) :
  Tracks opts (calls ++ [c]) (r.apply opts c) := by
  cases c with
  | observe region stores =>
    refine ⟨fun typ id x => ?_, fun id x stores' hlast => ?_⟩
    · rw [apply, lookup_observe]
      by_cases hid : id = region.getID
      · rw [if_pos hid, lastCall_self (c := .observe region stores) calls hid]
        by_cases htyp : typ ∈ marks opts region stores
        · rw [if_pos htyp]
          constructor
          · intro e
            cases e
            exact ⟨stores, rfl, htyp⟩
          rintro ⟨_, e, -⟩
          cases e
          rfl
        rw [if_neg htyp]
        constructor
        · split
          · simp
          next hbit => exact fun hs => absurd (h.testBit hs) hbit
        rintro ⟨_, e, hin⟩
        cases e
        exact absurd hin htyp
      rw [if_neg hid, lastCall_of_ne calls hid]
      exact h.stats typ id x
    show (SortedMap.insert _ region.getID _).lookup id = _
    by_cases hid : id = region.getID
    · rw [lastCall_self (c := .observe region stores) calls hid] at hlast
      cases hlast
      rw [hid, lookup_insert_self]
    rw [lastCall_of_ne calls hid] at hlast
    rw [lookup_insert_of_ne _ _ hid, foldl_record]
    exact h.index id x stores' hlast
  | clearDefunctRegion regionID =>
    have hindex : (r.clearDefunctRegion regionID).index = r.index := by
      unfold clearDefunctRegion deleteEntry
      split <;> rfl
    refine ⟨fun typ id x => ?_, fun id x stores' hlast => ?_⟩
    · rw [apply, lookup_clearDefunctRegion]
      by_cases hid : id = regionID
      · rw [lastCall_self (c := .clearDefunctRegion regionID) calls hid]
        simp only [Option.some.injEq, reduceCtorEq, false_and, exists_false, iff_false]
        split
        · simp
        next hbit => exact fun hs => hbit ⟨hid, h.testBit hs⟩
      rw [if_neg fun e => hid e.1, lastCall_of_ne calls hid]
      exact h.stats typ id x
    by_cases hid : id = regionID
    · rw [lastCall_self (c := .clearDefunctRegion regionID) calls hid] at hlast
      cases hlast
    rw [lastCall_of_ne calls hid] at hlast
    rw [apply, hindex]
    exact h.index id x stores' hlast

lemma tracks_foldl (opts : StatisticsOptions) (calls : List Call) :
  Tracks opts calls (calls.foldl (apply opts) new) := by
  induction calls using reverseRecOn with
  | nil => exact ⟨fun typ id x => by simp [new, lastCall, SortedMap.lookup, SortedMap.empty], by simp [lastCall]⟩
  | append_singleton _ c ih =>
    rw [foldl_append]
    exact ih.snoc c

/-- **Region statuses** are exact if the store of each offline peer is visited. -/
theorem statuses_exact_iff (opts : StatisticsOptions) (calls : List Call) :
  (∀ typ id region, ((calls.foldl (apply opts) new).stats typ).lookup id = some region ↔
      ∃ stores, lastCall calls id = some (.observe region stores) ∧ Status opts region stores typ) ↔
    ∀ id region stores, lastCall calls id = some (.observe region stores) →
      Status opts region stores .offlinePeer → Status opts region (visited opts region stores) .offlinePeer := by
  have h := (tracks_foldl opts calls).stats
  have hsub : ∀ region stores, Status opts region (visited opts region stores) .offlinePeer →
      Status opts region stores .offlinePeer := by
    rintro region stores ⟨s, hs, hrest⟩
    exact ⟨s, mem_of_mem_take hs, hrest⟩
  constructor
  · intro hexact id region stores hlast hstatus
    obtain ⟨stores', hlast', hin⟩ := (h .offlinePeer id region).mp ((hexact _ _ _).mpr ⟨stores, hlast, hstatus⟩)
    rw [hlast] at hlast'
    cases hlast'
    simpa using mem_marks.mp hin
  intro hseen typ id region
  rw [h]
  refine exists_congr fun stores => and_congr_right fun hlast => ?_
  rw [mem_marks]
  by_cases htyp : typ = .offlinePeer
  · subst htyp
    exact ⟨hsub region stores, hseen id region stores hlast⟩
  · rw [if_neg htyp]

def storeOf (id : Nat) (state : StoreState) : StoreInfo := ⟨id, state, 0, 0, 0, 0, 0⟩

theorem offline_peer_missed :
    let opts : StatisticsOptions := ⟨fun _ => 2, fun _ => "global", fun s => if s.id = 1 then "ns1" else "global"⟩
    let region := newRegionInfo ⟨1, [], [], none, [⟨11, 1, false⟩, ⟨12, 2, false⟩]⟩ none
    let r := observe opts new region [storeOf 1 .up, storeOf 2 .offline]
    (r.stats .offlinePeer).lookup 1 = none ∧ (r.stats .incorrectNamespace).lookup 1 = some region := by
  decide +kernel

end
end PD.RegionStatistics
