import PD.Core.Region
import PD.Lib.RingBuffer
import Mathlib.Data.List.ReduceOption

/-! # The history buffer of the region syncer -/

namespace PD
open List

def defaultFlushCount : Int := 100

structure HistoryBuffer extends RingBuffer (Option RegionInfo) where
  index : UInt64
  flushCount : Int
  saved : Option UInt64
  size_lt : toRingBuffer.size < 2 ^ 63
  filled : ∀ o ∈ toRingBuffer.contents, o.isSome

namespace HistoryBuffer
variable (size : Int64)

def slotCount : Nat := if (size+1).toInt < 2 then 2 else (size+1).toInt.toNat

lemma slotCount_pos : 1 < slotCount size := by
  unfold slotCount
  split <;> omega

lemma slotCount_lt : slotCount size < 2 ^ 63 := by
  have hlt := (size+1).toInt_lt
  unfold slotCount
  split <;> omega

def newHistoryBuffer (saved : Option UInt64) : HistoryBuffer where
  slots := List.replicate (slotCount size) none
  head := 0
  tail := 0
  head_lt := by
    rw [length_replicate]
    exact Nat.lt_of_succ_lt (slotCount_pos size)
  tail_lt := by
    rw [length_replicate]
    exact Nat.lt_of_succ_lt (slotCount_pos size)
  index := saved.getD 0
  flushCount := defaultFlushCount
  saved := saved
  size_lt := by
    show (List.replicate (slotCount size) none).length < 2 ^ 63
    rw [length_replicate]
    exact slotCount_lt size
  filled := fun o ho => by
    rw [RingBuffer.contents_eq_nil _ rfl] at ho
    cases ho

variable (h : HistoryBuffer)

def nextIndex : UInt64 := h.index
def firstIndex : UInt64 := h.index - .ofNat h.len

def record (saves : Bool) (r : RegionInfo) : HistoryBuffer where
  toRingBuffer := h.toRingBuffer.push (some r)
  index := h.index + 1
  flushCount := if h.flushCount - 1 ≤ 0 then defaultFlushCount else h.flushCount - 1
  saved := if h.flushCount - 1 ≤ 0 ∧ saves = true then some (h.index + 1) else h.saved
  size_lt := by
    rw [RingBuffer.push_size]
    exact h.size_lt
  filled := fun o ho => by
    rw [RingBuffer.contents_push] at ho
    rcases mem_append.mp (mem_of_mem_drop ho) with ho | ho
    · exact h.filled o ho
    rw [mem_singleton.mp ho]
    rfl

variable (index : UInt64)

def recordsFrom : List (Option RegionInfo) :=
  if index < h.nextIndex ∧ h.firstIndex ≤ index then
    h.loop h.size ((h.head + (index - h.firstIndex).toNat) % h.size)
  else []

def resetWithIndex : HistoryBuffer where
  slots := h.slots
  head := 0
  tail := 0
  head_lt := Nat.lt_of_le_of_lt (Nat.zero_le _) h.head_lt
  tail_lt := Nat.lt_of_le_of_lt (Nat.zero_le _) h.tail_lt
  index := index
  flushCount := defaultFlushCount
  saved := h.saved
  size_lt := h.size_lt
  filled := fun o ho => by
    rw [RingBuffer.contents_eq_nil _ rfl] at ho
    cases ho

def get : Option RegionInfo :=
  if index < h.nextIndex ∧ h.firstIndex ≤ index then
    (h.slots[(h.head + (index - h.firstIndex).toNat) % h.size]?).join
  else none

def log : List RegionInfo := h.contents.reduceOption

lemma map_log : h.log.map some = h.contents := by
  have hall := h.filled
  unfold log
  generalize h.contents = l at hall
  induction l with
  | nil => rfl
  | cons o _ ih =>
    obtain ⟨r, rfl⟩ := Option.isSome_iff_exists.mp (hall o mem_cons_self)
    rw [reduceOption_cons_of_some, map_cons, ih fun p hp => hall p (mem_cons_of_mem _ hp)]

lemma log_length : h.log.length = h.len := by rw [← h.contents_length, ← h.map_log, length_map]

lemma log_record (saves : Bool) (r : RegionInfo) : (h.record saves r).log = (h.log ++ [r]).rtake (h.size - 1) := by
  have hcontents : (h.record saves r).contents = (h.contents ++ [some r]).rtake (h.size - 1) :=
    h.toRingBuffer.contents_push (some r)
  refine map_injective_iff.mpr (Option.some_injective _) ?_
  rw [map_log, hcontents, ← map_log]
  simp [List.rtake, map_drop]

lemma log_resetWithIndex : (h.resetWithIndex index).log = [] := eq_nil_of_length_eq_zero (log_length _)

lemma log_new (saved : Option UInt64) : (newHistoryBuffer size saved).log = [] :=
  eq_nil_of_length_eq_zero (log_length _)

lemma len_lt_word : h.len < 2 ^ 64 := by
  have hlen := h.len_lt
  have hsize := h.size_lt
  omega

lemma offset_lt {index : UInt64} (hnext : index < h.nextIndex) (hfirst : h.firstIndex ≤ index) :
  (index - h.firstIndex).toNat < h.len := by
  have hlen : (UInt64.ofNat h.len).toNat = h.len := UInt64.toNat_ofNat_of_lt' h.len_lt_word
  have hword := h.index.toNat_lt
  rw [UInt64.lt_iff_toNat_lt] at hnext
  rw [UInt64.le_iff_toNat_le] at hfirst
  unfold nextIndex at hnext
  unfold firstIndex at hfirst ⊢
  rw [UInt64.toNat_sub, UInt64.toNat_sub, hlen]
  rw [UInt64.toNat_sub, hlen] at hfirst
  omega

lemma recordsFrom_eq : h.recordsFrom index = if index < h.nextIndex ∧ h.firstIndex ≤ index then
    (h.log.drop (index - h.firstIndex).toNat).map some else [] := by
  unfold recordsFrom
  split
  next hin => rw [h.contents_drop (Nat.le_of_lt (h.offset_lt hin.1 hin.2)), map_drop, map_log]
  · rfl

lemma get_eq : h.get index =
  if index < h.nextIndex ∧ h.firstIndex ≤ index then h.log[(index - h.firstIndex).toNat]? else none := by
  unfold get
  split
  next hin =>
    have hlt := h.offset_lt hin.1 hin.2
    have hslot := h.contents_getElem? (index - h.firstIndex).toNat
    rw [if_pos hlt, ← map_log, List.getElem?_map] at hslot
    rw [← hslot]
    cases h.log[(index - h.firstIndex).toNat]? <;> rfl
  · rfl

inductive Op where
  | record (saves : Bool) (r : RegionInfo)
  | resetWithIndex (index : UInt64)

def apply : Op → HistoryBuffer
  | .record saves r => h.record saves r
  | .resetWithIndex index => h.resetWithIndex index

structure Recorded where
  base : Nat
  regions : List RegionInfo

def Recorded.apply (l : Recorded) : Op → Recorded
  | .record _ r => ⟨l.base, l.regions ++ [r]⟩
  | .resetWithIndex index => ⟨index.toNat, []⟩

def Recorded.next (l : Recorded) : Nat := l.base + l.regions.length

def Fits : Recorded → List Op → Prop
  | _, [] => True
  | l, op :: ops => (l.apply op).next < 2 ^ 64 ∧ Fits (l.apply op) ops

structure Refines (n : Nat) (l : Recorded) : Prop where
  size : h.size = n + 1
  next : h.nextIndex.toNat = l.next
  log : h.log = l.regions.rtake n

variable {h} {n : Nat} {l : Recorded}

lemma rtake_snoc (l : List RegionInfo) (r : RegionInfo) : (l.rtake n ++ [r]).rtake n = (l ++ [r]).rtake n := by
  simp only [List.rtake, length_append, length_drop, length_singleton, drop_append, drop_drop]
  by_cases hle : n ≤ l.length
  · have h1 : l.length - n + (l.length - (l.length - n) + 1 - n) = l.length + 1 - n := by omega
    rw [h1]
    congr 2
    omega
  have h1 : l.length - n = 0 := by omega
  simp [h1]

lemma Refines.apply (hr : h.Refines n l) (op : Op) (hfit : (l.apply op).next < 2 ^ 64) :
  (h.apply op).Refines n (l.apply op) := by
  cases op with
  | record saves r =>
    refine ⟨(h.toRingBuffer.push_size (some r)).trans hr.size, ?_, ?_⟩
    · have hnext := hr.next
      simp only [Recorded.next, Recorded.apply, length_append, length_singleton] at hnext hfit ⊢
      show (h.nextIndex + 1).toNat = _
      rw [UInt64.toNat_add, hnext]
      show (_+1) % 2 ^ 64 = _
      omega
    show (h.record saves r).log = _
    rw [log_record, hr.size, hr.log, Nat.add_sub_cancel]
    exact rtake_snoc l.regions r
  | resetWithIndex index =>
    refine ⟨hr.size, ?_, ?_⟩
    · simp [Recorded.next, Recorded.apply, HistoryBuffer.apply, resetWithIndex, nextIndex]
    show (h.resetWithIndex index).log = _
    rw [log_resetWithIndex]
    simp [Recorded.apply, List.rtake]

lemma Refines.foldl (hr : h.Refines n l) (ops : List Op) (hfits : Fits l ops) :
  (ops.foldl HistoryBuffer.apply h).Refines n (ops.foldl Recorded.apply l) := by
  induction ops generalizing h l with
  | nil => exact hr
  | cons op _ ih => exact ih (hr.apply op hfits.1) hfits.2

lemma Refines.firstIndex_eq (hr : h.Refines n l) :
  h.firstIndex.toNat + (l.regions.rtake n).length = h.nextIndex.toNat := by
  have hlen : (UInt64.ofNat h.len).toNat = h.len := UInt64.toNat_ofNat_of_lt' h.len_lt_word
  have hlog := h.log_length
  have hnext := hr.next
  have hle : (l.regions.rtake n).length ≤ l.regions.length := by simp [List.rtake]
  rw [hr.log] at hlog
  unfold firstIndex nextIndex Recorded.next at *
  rw [UInt64.toNat_sub, hlen]
  have hword := h.index.toNat_lt
  omega

lemma refines_new {size : Int64} (hpos : 1 ≤ size.toInt) (hmax : size.toInt < 2 ^ 63 - 1) (saved : Option UInt64) :
  (newHistoryBuffer size saved).Refines size.toInt.toNat ⟨(saved.getD 0).toNat, []⟩ where
  size := by
    have hadd : (size+1).toInt = size.toInt + 1 := by
      rw [Int64.toInt_add]
      exact Int.bmod_eq_of_le (by show _ ≤ size.toInt + 1; omega) (by show size.toInt + 1 < _; omega)
    show (List.replicate (slotCount size) none).length = _
    rw [length_replicate, slotCount, hadd, if_neg (by omega)]
    omega
  next := rfl
  log := by
    rw [log_new]
    simp [List.rtake]

/-- **The history buffer is a bounded log.** -/
theorem history_refines (size : Int64) (hpos : 1 ≤ size.toInt) (hmax : size.toInt < 2 ^ 63 - 1) (saved : Option UInt64)
    (ops : List Op) (hfits : Fits ⟨(saved.getD 0).toNat, []⟩ ops) :
    let h := ops.foldl apply (newHistoryBuffer size saved)
    let l := ops.foldl Recorded.apply ⟨(saved.getD 0).toNat, []⟩
    let S := l.regions.rtake size.toInt.toNat
    h.nextIndex.toNat = l.base + l.regions.length ∧
      S.length = min size.toInt.toNat l.regions.length ∧ h.firstIndex.toNat = h.nextIndex.toNat - S.length ∧
      ∀ i : UInt64, h.recordsFrom i = (if h.firstIndex ≤ i ∧ i < h.nextIndex then
          (S.drop (i.toNat - h.firstIndex.toNat)).map some else []) ∧
        h.get i = if h.firstIndex ≤ i ∧ i < h.nextIndex then S[i.toNat - h.firstIndex.toNat]? else none := by
  intro h l S
  have hr : h.Refines size.toInt.toNat l := (refines_new hpos hmax saved).foldl ops hfits
  have hfirst : h.firstIndex.toNat + S.length = h.nextIndex.toNat := hr.firstIndex_eq
  have hlog : h.log = S := hr.log
  refine ⟨hr.next, by simp only [S, List.rtake, length_drop]; omega, by omega, fun i => ?_⟩
  simp only [recordsFrom_eq, get_eq, and_comm, hlog]
  split
  next hin =>
    have hsub : (i - h.firstIndex).toNat = i.toNat - h.firstIndex.toNat := UInt64.toNat_sub_of_le _ _ hin.1
    rw [hsub]
    exact ⟨rfl, rfl⟩
  · exact ⟨rfl, rfl⟩

def emptyRegion (id : Nat) : RegionInfo := newRegionInfo ⟨id, [], [], none, []⟩ none

theorem history_refines_two :
    let h := [Op.record true (emptyRegion 1), .record true (emptyRegion 2)].foldl apply (newHistoryBuffer 1 none)
    h.nextIndex.toNat = 2 ∧ h.firstIndex.toNat = 1 ∧ h.get 1 = some (emptyRegion 2) := by
  have hspec := history_refines 1 (by decide) (by decide) none
    [Op.record true (emptyRegion 1), .record true (emptyRegion 2)] ⟨by decide, by decide, trivial⟩
  refine ⟨hspec.1, ?_, (hspec.2.2.2 1).2⟩
  exact hspec.2.2.1

theorem largest_size_keeps_one :
    let h := [Op.record true (emptyRegion 1), .record true (emptyRegion 2)].foldl apply
      (newHistoryBuffer 9223372036854775807 none)
    (9223372036854775807 : Int64).toInt = 2 ^ 63 - 1 ∧ h.nextIndex = 2 ∧ h.firstIndex = 1 ∧ h.recordsFrom 0 = [] := by
  decide +kernel

end HistoryBuffer
end PD
