import PD.Core.RegionsInfo
import PD.Syncer.HistoryBuffer

/-! # Region synchronization of a follower with the leader -/

namespace PD
open List RegionInfo

def maxSyncRegionBatchSize : Nat := 100
def defaultHistoryBufferSize : Int64 := 10000

structure SyncRegionRequest where
  clusterID : Nat
  name : String
  startIndex : UInt64

structure SyncRegionResponse where
  clusterID : Nat
  regions : List Region
  startIndex : UInt64
  deriving DecidableEq

structure RegionSyncer where
  clusterID : Nat
  cluster : Option RegionsInfo
  history : HistoryBuffer

variable (r : RegionsInfo)

def RegionsInfo.getMetaRegions : List Region := r.cached.values.map getMeta

def fullSync (clusterID total : Nat) : Nat → Nat → List Region → List Region → List SyncRegionResponse
  | _, _, _, [] => []
  | syncedIndex, lastIndex, res, r :: rest =>
    if (res ++ [r]).length < maxSyncRegionBatchSize ∧ syncedIndex < total - 1 then
      fullSync clusterID total (syncedIndex+1) lastIndex (res ++ [r]) rest
    else
      ⟨clusterID, res ++ [r], .ofNat lastIndex⟩ ::
        fullSync clusterID total (syncedIndex+1) (lastIndex + (res ++ [r]).length) [] rest

namespace RegionSyncer
variable (s : RegionSyncer)

def getMetaRegions : List Region := (s.cluster.map RegionsInfo.getMetaRegions).getD []

def syncHistoryRegion (regions : List Region) (sendErr : Nat → Option String) (request : SyncRegionRequest) :
  Option (List SyncRegionResponse × Option String) :=
  let startIndex := request.startIndex
  let records := s.history.recordsFrom startIndex
  if records.isEmpty then
    if s.history.nextIndex = startIndex then some ([], none)
    else if startIndex = 0 then some (fullSync s.clusterID regions.length 0 0 [] regions, none)
    else some ([], none)
  else
    (records.mapM (Option.map getMeta)).map fun metas =>
      ([⟨s.clusterID, metas, startIndex⟩], sendErr 0)

def runServer (first : RegionInfo) (waiting : List RegionInfo) (saves : Nat → Bool) :
  RegionSyncer × SyncRegionResponse :=
  let changed := first :: waiting.take maxSyncRegionBatchSize
  ({ s with history := changed.zipIdx.foldl (fun h r => h.record (saves r.2) r.1) s.history },
    ⟨s.clusterID, changed.map getMeta, s.history.nextIndex⟩)

end RegionSyncer

lemma fullSync_regions (clusterID : Nat) {total syncedIndex lastIndex : Nat} {res rest : List Region}
  (htotal : total = syncedIndex + rest.length) (hres : rest = [] → res = []) :
  (fullSync clusterID total syncedIndex lastIndex res rest).flatMap SyncRegionResponse.regions = res ++ rest := by
  induction rest generalizing syncedIndex lastIndex res with
  | nil => rw [hres rfl]; rfl
  | cons r rest ih =>
    have htotal' : total = syncedIndex + 1 + rest.length := by
      rw [htotal, length_cons]
      omega
    rw [fullSync]
    split
    next _ =>
      have hne : rest ≠ [] := by
        rintro rfl
        rw [length_nil] at htotal'
        omega
      rw [ih htotal' fun e => absurd e hne, append_assoc]
      rfl
    · rw [flatMap_cons, ih htotal' fun _ => rfl, append_assoc]
      rfl

lemma HistoryBuffer.recordsFrom_zero (h : HistoryBuffer) :
  h.recordsFrom 0 = if h.index ≠ 0 ∧ h.index = .ofNat h.log.length then h.log.map some else [] := by
  have hfirst : h.firstIndex ≤ 0 ↔ h.index = .ofNat h.log.length := by
    unfold firstIndex
    rw [log_length, UInt64.le_zero_iff, UInt64.sub_eq_iff_eq_add, UInt64.zero_add]
  have hnext : 0 < h.nextIndex ↔ h.index ≠ 0 := UInt64.pos_iff_ne_zero
  rw [recordsFrom_eq]
  by_cases hin : 0 < h.nextIndex ∧ h.firstIndex ≤ 0
  · have hzero : h.firstIndex = 0 := UInt64.le_zero_iff.mp hin.2
    rw [if_pos hin, if_pos ⟨hnext.mp hin.1, hfirst.mp hin.2⟩, hzero]
    rfl
  · rw [if_neg hin, if_neg fun h' => hin ⟨hnext.mpr h'.1, hfirst.mpr h'.2⟩]

lemma mapM_getMeta (l : List RegionInfo) : (l.map some).mapM (Option.map getMeta) = some (l.map getMeta) := by
  induction l with
  | nil => rfl
  | cons r _ ih => simp [ih]

namespace RegionSyncer
variable (s : RegionSyncer)

lemma syncHistoryRegion_zero (regions : List Region) (sendErr : Nat → Option String) {request : SyncRegionRequest}
  (hstart : request.startIndex = 0) : s.syncHistoryRegion regions sendErr request =
  if s.history.index = 0 then some ([], none) else if s.history.index = .ofNat s.history.log.length then
    some ([⟨s.clusterID, s.history.log.map getMeta, 0⟩], sendErr 0)
  else some (fullSync s.clusterID regions.length 0 0 [] regions, none) := by
  have hrecords := s.history.recordsFrom_zero
  have hnext : s.history.nextIndex = s.history.index := rfl
  by_cases hzero : s.history.index = 0
  · rw [if_neg fun h => h.1 hzero] at hrecords
    simp only [syncHistoryRegion, hstart, hrecords, hnext, hzero, isEmpty_nil, if_true]
  by_cases hall : s.history.index = .ofNat s.history.log.length
  · have hne : s.history.log ≠ [] := fun hnil => hzero (by rw [hall, hnil]; rfl)
    have hsome : (s.history.log.map some).isEmpty = false := by simp [hne]
    rw [if_pos ⟨hzero, hall⟩] at hrecords
    simp only [syncHistoryRegion, hstart, hrecords, hsome, mapM_getMeta, if_neg hzero, if_pos hall]
    rfl
  rw [if_neg fun h => hall h.2] at hrecords
  simp only [syncHistoryRegion, hstart, hrecords, hnext, if_neg hzero, if_neg hall, isEmpty_nil, if_true]

def SendsAll : Prop := ∀ regions, regions.Perm s.getMetaRegions → ∀ sendErr request, request.startIndex = 0 →
    ∃ sent err, s.syncHistoryRegion regions sendErr request = some (sent, err) ∧
      ∀ m ∈ s.getMetaRegions, ∃ resp ∈ sent, m ∈ resp.regions

/-- **New followers** get all regions exactly if index 0 means none and a full log has all. -/
theorem sendsAll_iff : s.SendsAll ↔ (s.history.index = 0 → s.getMetaRegions = []) ∧
  (s.history.index = .ofNat s.history.log.length → ∀ m ∈ s.getMetaRegions, m ∈ s.history.log.map getMeta) := by
  constructor
  · intro h
    obtain ⟨sent, err, hsent, hall⟩ := h s.getMetaRegions (List.Perm.refl _) (fun _ => none) ⟨s.clusterID, "", 0⟩ rfl
    rw [s.syncHistoryRegion_zero _ _ rfl] at hsent
    by_cases hzero : s.history.index = 0
    · rw [if_pos hzero] at hsent
      cases hsent
      have hnone : s.getMetaRegions = [] := eq_nil_iff_forall_not_mem.mpr fun m hm => by
        obtain ⟨resp, hresp, -⟩ := hall m hm
        cases hresp
      exact ⟨fun _ => hnone, fun _ m hm => by rw [hnone] at hm; cases hm⟩
    refine ⟨fun e => absurd e hzero, fun hlog m hm => ?_⟩
    rw [if_neg hzero, if_pos hlog] at hsent
    cases hsent
    obtain ⟨resp, hresp, hm⟩ := hall m hm
    rw [mem_singleton.mp hresp] at hm
    exact hm
  rintro ⟨hzero, hlog⟩ regions hperm sendErr request hstart
  rw [s.syncHistoryRegion_zero _ _ hstart]
  split
  next h => exact ⟨[], none, rfl, fun m hm => by rw [hzero h] at hm; cases hm⟩
  · split
    next h => exact ⟨_, _, rfl, fun m hm => ⟨_, mem_singleton_self _, hlog h m hm⟩⟩
    · refine ⟨_, none, rfl, fun m hm => ?_⟩
      have hmem : m ∈ (fullSync s.clusterID regions.length 0 0 [] regions).flatMap SyncRegionResponse.regions := by
        rw [fullSync_regions s.clusterID (Nat.zero_add _).symm fun _ => rfl]
        exact hperm.mem_iff.mpr hm
      exact mem_flatMap.mp hmem

end RegionSyncer

def halfRegion (id : Nat) (startKey endKey : Key) : RegionInfo :=
  newRegionInfo ⟨id, startKey, endKey, some ⟨1, 1⟩, [⟨id, 1, false⟩]⟩ (some ⟨id, 1, false⟩)

def twoHalves : Option RegionsInfo := (RegionsInfo.new.setRegion (halfRegion 1 [] [109])).bind fun r =>
    (r.1.setRegion (halfRegion 2 [109] [])).map Prod.fst

def freshLeader : RegionSyncer := ⟨1, some r, .newHistoryBuffer defaultHistoryBufferSize none⟩
def changedLeader : RegionSyncer := ((freshLeader r).runServer (halfRegion 2 [109] []) [] fun _ => true).1

lemma changedLeader_log : (changedLeader r).history.log = [halfRegion 2 [109] []] := by
  have hsize : (freshLeader r).history.size = HistoryBuffer.slotCount defaultHistoryBufferSize := length_replicate
  have hpos := HistoryBuffer.slotCount_pos defaultHistoryBufferSize
  show ((freshLeader r).history.record true (halfRegion 2 [109] [])).log = _
  rw [HistoryBuffer.log_record, hsize]
  show List.rtake ((HistoryBuffer.newHistoryBuffer defaultHistoryBufferSize none).log ++ [_]) _ = _
  rw [HistoryBuffer.log_new, nil_append, List.rtake, length_singleton, Nat.sub_eq_zero_of_le (by omega), drop_zero]

theorem loaded_regions_not_sent : ∃ r, twoHalves = some r ∧
  r.getMetaRegions = [(halfRegion 1 [] [109]).getMeta, (halfRegion 2 [109] []).getMeta] ∧
  (freshLeader r).syncHistoryRegion r.getMetaRegions (fun _ => none) ⟨1, "pd2", 0⟩ = some ([], none) ∧
  (changedLeader r).syncHistoryRegion r.getMetaRegions (fun _ => none) ⟨1, "pd2", 0⟩ =
    some ([⟨1, [(halfRegion 2 [109] []).getMeta], 0⟩], none) ∧
  ¬ (freshLeader r).SendsAll ∧ ¬ (changedLeader r).SendsAll := by
  obtain ⟨r, hr, hmetas⟩ := Option.map_eq_some_iff.mp (show twoHalves.map RegionsInfo.getMetaRegions =
    some [(halfRegion 1 [] [109]).getMeta, (halfRegion 2 [109] []).getMeta] by decide +kernel)
  have hfresh : (freshLeader r).syncHistoryRegion r.getMetaRegions (fun _ => none) ⟨1, "pd2", 0⟩ =
      some ([], none) := by
    have hindex : (freshLeader r).history.index = 0 := rfl
    rw [RegionSyncer.syncHistoryRegion_zero _ _ _ rfl, if_pos hindex]
  have hchanged : (changedLeader r).syncHistoryRegion r.getMetaRegions (fun _ => none) ⟨1, "pd2", 0⟩ =
      some ([⟨1, [(halfRegion 2 [109] []).getMeta], 0⟩], none) := by
    have hindex : (changedLeader r).history.index = 1 := rfl
    rw [RegionSyncer.syncHistoryRegion_zero _ _ _ rfl, hindex, changedLeader_log, if_neg (by decide)]
    exact if_pos rfl
  have hfirst : (halfRegion 1 [] [109]).getMeta ∈ r.getMetaRegions := by
    rw [hmetas]
    exact mem_cons_self
  refine ⟨r, hr, hmetas, hfresh, hchanged, fun h => ?_, fun h => ?_⟩
  · obtain ⟨sent, err, hsent, hall⟩ := h r.getMetaRegions (List.Perm.refl _) (fun _ => none) ⟨1, "pd2", 0⟩ rfl
    rw [hfresh] at hsent
    cases hsent
    obtain ⟨resp, hresp, -⟩ := hall _ hfirst
    cases hresp
  obtain ⟨sent, err, hsent, hall⟩ := h r.getMetaRegions (List.Perm.refl _) (fun _ => none) ⟨1, "pd2", 0⟩ rfl
  rw [hchanged] at hsent
  cases hsent
  obtain ⟨resp, hresp, hmem⟩ := hall _ hfirst
  rw [mem_singleton.mp hresp] at hmem
  exact absurd hmem (by decide)

end PD
