import PD.Core.Storage
import PD.Lib.Runs

/-! # The region storage as a key-value map -/

namespace PD
open List SortedMap

section
variable {V : Type} (codec : Codec V)

namespace RegionStorage
variable (s : RegionStorage V)

def effective (regionID : Nat) : Option V := ((s.batchRegions.lookup (regionPath regionID)).map codec.marshal).or
    (s.levelDB.lookup (regionPath regionID))

def Batched (regionID : Nat) : Prop := s.batchRegions.lookup (regionPath regionID) ≠ none

lemma flush_noFaults : s.flush codec noFaults = (⟨s.levelDB.insertAll (s.batchRegions.mapVal codec.marshal).entries,
  .empty, s.batchSize, 0⟩, true) := by
  have hany : s.batchRegions.keys.any noFaults = false := by
    rw [List.any_eq_false]
    exact fun _ _ => Bool.false_ne_true
  unfold flush Kv.saveRegions
  rw [if_neg (by rw [hany]; exact Bool.false_ne_true)]

lemma lookup_flush (id : Nat) : (s.flush codec noFaults).1.levelDB.lookup (regionPath id) = s.effective codec id := by
  rw [flush_noFaults]
  rw [lookup_insertAll, lookup_mapVal]
  rfl

lemma effective_flush (id : Nat) : (s.flush codec noFaults).1.effective codec id = s.effective codec id := by
  rw [← lookup_flush codec s, flush_noFaults]
  rfl

lemma effective_saveRegion (region : Region) {id : Nat} (hr : region.id < 10^20) (hid : id < 10^20) :
  (s.saveRegion codec noFaults region).1.effective codec id =
    if id = region.id then some (codec.marshal region) else s.effective codec id := by
  have hbatch : (s.saveRegion codec noFaults region).1.effective codec id = effective codec
      { s with batchRegions := s.batchRegions.insert (regionPath region.id) region } id := by
    unfold saveRegion
    split
    · rfl
    · exact effective_flush codec _ id
  rw [hbatch]
  unfold effective
  rw [lookup_insert]
  by_cases e : id = region.id
  · rw [if_pos (by rw [e]), if_pos e]
    rfl
  · rw [if_neg (fun h => e (regionPath_inj hid hr h)), if_neg e]

lemma effective_delete (region : Region) {id : Nat} (hr : region.id < 10^20) (hid : id < 10^20) :
    effective codec { s with levelDB := s.levelDB.erase (regionPath region.id) } id =
      if id = region.id then (s.batchRegions.lookup (regionPath id)).map codec.marshal
      else s.effective codec id := by
  unfold effective
  rw [lookup_erase]
  by_cases e : id = region.id
  · rw [if_pos (by rw [e]), if_pos e, Option.or_none]
  · rw [if_neg (fun h => e (regionPath_inj hid hr h)), if_neg e]

end RegionStorage

namespace Storage

inductive Op where
  | save (region : Region)
  | delete (region : Region)
  | flush
  deriving DecidableEq

def Op.on (id : Nat) : Op → Bool
  | .save region => region.id == id
  | .delete region => region.id == id
  | .flush => false

def Op.Bounded : Op → Prop
  | .save region => region.id < 2^64
  | .delete region => region.id < 2^64
  | .flush => True

instance : ∀ op : Op, Decidable op.Bounded
  | .save region => inferInstanceAs (Decidable (region.id < 2^64))
  | .delete region => inferInstanceAs (Decidable (region.id < 2^64))
  | .flush => .isTrue trivial

def step (s : Storage V) : Op → Option (Storage V)
  | .save region => (s.saveRegion codec noFaults region).map Prod.fst
  | .delete region => (s.deleteRegion noFaults region).map Prod.fst
  | .flush => some (s.flush codec noFaults).1

def start (base levelDB : Kv V) : Storage V := ⟨base, some (newRegionStorage levelDB), true⟩

def expected (ops : List Op) (old : Option V) (id : Nat) : Option V :=
  match (ops.filter (Op.on id)).getLast? with
  | some (.save region) => some (codec.marshal region)
  | some (.delete _) => none
  | some .flush => old
  | none => old

def Batched (s : Storage V) (regionID : Nat) : Prop := ∃ rs, s.regionStorage = some rs ∧ rs.Batched regionID

variable (rs : RegionStorage V)

def apply : Op → RegionStorage V
  | .save region => (rs.saveRegion codec noFaults region).1
  | .delete region => { rs with levelDB := rs.levelDB.erase (regionPath region.id) }
  | .flush => (rs.flush codec noFaults).1

variable {ops pre post : List Op} {id : Nat}

lemma exec_eq (base : Kv V) (rs : RegionStorage V) (ops : List Op) :
  Runs.exec (step codec) ⟨base, some rs, true⟩ ops = some ⟨base, some (ops.foldl (apply codec) rs), true⟩ := by
  induction ops generalizing rs with
  | nil => rfl
  | cons op _ ih =>
    have hstep : step codec ⟨base, some rs, true⟩ op = some ⟨base, some (apply codec rs op), true⟩ := by
      cases op with
      | _ => rfl
    rw [Runs.exec_cons, hstep]
    exact ih _

lemma effective_off (hb : ∀ op ∈ ops, op.Bounded) (hid : id < 2^64) (hoff : ∀ op ∈ ops, op.on id = false) :
  (ops.foldl (apply codec) rs).effective codec id = rs.effective codec id := by
  induction ops generalizing rs with
  | nil => rfl
  | cons op _ ih =>
    rw [foldl_cons, ih _ (fun o ho => hb o (mem_cons_of_mem _ ho)) fun o ho => hoff o (mem_cons_of_mem _ ho)]
    have hop := hoff op mem_cons_self
    have hbo := hb op mem_cons_self
    cases op with
    | save region =>
      have hne : id ≠ region.id := fun e => ne_of_beq_false hop e.symm
      show ((rs.saveRegion codec noFaults region).1).effective codec id = _
      rw [RegionStorage.effective_saveRegion codec rs region (lt_pow hbo) (lt_pow hid), if_neg hne]
    | delete region =>
      have hne : id ≠ region.id := fun e => ne_of_beq_false hop e.symm
      show RegionStorage.effective codec { rs with levelDB := _ } id = _
      rw [RegionStorage.effective_delete codec rs region (lt_pow hbo) (lt_pow hid), if_neg hne]
    | flush => exact RegionStorage.effective_flush codec rs id

lemma filter_last (op : Op) (hop : op.on id = true) (hoff : ∀ o ∈ post, o.on id = false) :
  ((pre ++ op :: post).filter (Op.on id)).getLast? = some op := by
  have hpost : post.filter (Op.on id) = [] := by
    rw [filter_eq_nil_iff]
    exact fun o ho hon => absurd (hoff o ho) (by rw [hon]; exact Bool.noConfusion)
  rw [filter_append, filter_cons_of_pos hop, hpost, List.getLast?_concat]

lemma effective_delete_last {region : Region}
  (hb : ∀ op ∈ pre ++ .delete region :: post, op.Bounded) (hoff : ∀ op ∈ post, op.on region.id = false) :
  ((pre ++ .delete region :: post).foldl (apply codec) rs).effective codec region.id =
    ((pre.foldl (apply codec) rs).batchRegions.lookup (regionPath region.id)).map codec.marshal := by
  have hr : region.id < 2^64 := hb (.delete region) (by simp)
  rw [foldl_append, foldl_cons, effective_off codec _ (fun o ho => hb o (by simp [ho])) hr hoff]
  show RegionStorage.effective codec { pre.foldl (apply codec) rs with levelDB := _ } region.id = _
  rw [RegionStorage.effective_delete codec _ region (lt_pow hr) (lt_pow hr), if_pos rfl]

lemma effective_expected (hb : ∀ op ∈ ops, op.Bounded) (hid : id < 2^64)
  (hclean : ∀ pre region post, ops = pre ++ .delete region :: post → region.id = id →
    (∀ op ∈ post, op.on region.id = false) → ¬ (pre.foldl (apply codec) rs).Batched region.id) :
  (ops.foldl (apply codec) rs).effective codec id = expected codec ops (rs.effective codec id) id := by
  by_cases hon : ∃ op ∈ ops, op.on id = true
  · obtain ⟨pre, op, post, rfl, hop, hoff⟩ := Runs.split_last (Op.on id) hon
    unfold expected
    rw [filter_last _ hop hoff]
    cases op with
    | save region =>
      obtain rfl : region.id = id := eq_of_beq hop
      rw [foldl_append, foldl_cons, effective_off codec _ (fun o ho => hb o (by simp [ho])) hid hoff]
      show ((RegionStorage.saveRegion codec noFaults _ region).1).effective codec region.id = _
      rw [RegionStorage.effective_saveRegion codec _ region (lt_pow hid) (lt_pow hid), if_pos rfl]
    | delete region =>
      obtain rfl : region.id = id := eq_of_beq hop
      have hnone := not_not.mp (hclean pre region post rfl rfl hoff)
      rw [effective_delete_last codec rs hb hoff, hnone]
      rfl
    | flush => exact absurd hop Bool.false_ne_true
  have hoff : ∀ op ∈ ops, op.on id = false := fun op hop => Bool.eq_false_iff.mpr fun h => hon ⟨op, hop, h⟩
  have hnil : ops.filter (Op.on id) = [] := by
    rw [filter_eq_nil_iff]
    exact fun op hop h => hon ⟨op, hop, h⟩
  unfold expected
  rw [hnil, effective_off codec rs hb hid hoff]
  rfl

/-- **The region storage is a key-value map exactly when no last deletion finds its region in the
batch.** -/
theorem levelDB_expected_iff (base levelDB : Kv V) (ops : List Op) (hb : ∀ op ∈ ops, op.Bounded) :
  ∃ s, Runs.exec (step codec) (start base levelDB) ops = some s ∧
    ((∀ id < 2^64, (s.flush codec noFaults).1.regionKv.bind (fun kv => kv.lookup (regionPath id)) =
        expected codec ops (levelDB.lookup (regionPath id)) id) ↔
      ∀ pre region post, ops = pre ++ .delete region :: post → (∀ op ∈ post, op.on region.id = false) →
          ∀ t, Runs.exec (step codec) (start base levelDB) pre = some t → ¬ t.Batched region.id) := by
  refine ⟨_, exec_eq codec base (newRegionStorage levelDB) ops, ?_⟩
  have hlook : ∀ id, (Storage.flush codec noFaults ⟨base, some (ops.foldl (apply codec)
      (newRegionStorage levelDB)), true⟩).1.regionKv.bind (fun kv => kv.lookup (regionPath id)) =
      (ops.foldl (apply codec) (newRegionStorage levelDB)).effective codec id :=
    fun id => RegionStorage.lookup_flush codec _ id
  have hbatched : ∀ pre id t, Runs.exec (step codec) (start base levelDB) pre = some t →
      (t.Batched id ↔ (pre.foldl (apply codec) (newRegionStorage levelDB)).Batched id) := by
    intro pre id t ht
    obtain rfl := Option.some.inj ((exec_eq codec base (newRegionStorage levelDB) pre).symm.trans ht)
    constructor
    · intro ⟨rs, hrs, h⟩
      cases hrs
      exact h
    · exact fun h => ⟨_, rfl, h⟩
  constructor
  · intro hall pre region post e hoff t ht hmem
    subst e
    have hr : region.id < 2^64 := hb (.delete region) (by simp)
    have h := hall region.id hr
    rw [hlook, effective_delete_last codec _ hb hoff] at h
    unfold expected at h
    rw [filter_last (.delete region) (beq_self_eq_true region.id) hoff] at h
    exact (hbatched pre region.id t ht).mp hmem (Option.map_eq_none_iff.mp h)
  intro hclean id hid
  rw [hlook]
  refine effective_expected codec (newRegionStorage levelDB) hb hid fun pre region post e _ hoff hmem => ?_
  have hpre := exec_eq codec base (newRegionStorage levelDB) pre
  exact hclean pre region post e hoff _ hpre ((hbatched pre region.id _ hpre).mpr hmem)

def solo : Region := ⟨1, [], [], some ⟨1, 1⟩, [⟨11, 1, false⟩]⟩

theorem levelDB_expected_flushed :
  ∃ s, Runs.exec (step Codec.plain) (start .empty .empty) [.save solo, .flush, .delete solo] = some s ∧
    ∀ id < 2^64, (s.flush Codec.plain noFaults).1.regionKv.bind
      (fun kv => kv.lookup (regionPath id)) = expected Codec.plain [.save solo, .flush, .delete solo] none id := by
  obtain ⟨s, hs, hiff⟩ := levelDB_expected_iff Codec.plain .empty .empty
    [.save solo, .flush, .delete solo] (by decide)
  refine ⟨s, hs, hiff.mpr fun pre region post e hoff t ht => ?_⟩
  match pre, e with
  | [_, _], e =>
    cases e
    unfold start at ht
    rw [exec_eq] at ht
    cases ht
    intro ⟨rs, hrs, hb⟩
    cases hrs
    exact hb (by decide +kernel)
  | _ :: _ :: _ :: pre, e => exact absurd (congrArg List.length e) (by simp)

/-- The save waits in the batch, the delete does not. -/
theorem levelDB_deleted_region_back :
  ∃ s, Runs.exec (step Codec.plain) (start .empty .empty) [.save solo, .delete solo] = some s ∧
    (s.flush Codec.plain noFaults).1.regionKv.bind (fun kv => kv.lookup (regionPath 1)) = some solo ∧
    expected Codec.plain [.save solo, .delete solo] none 1 = none := by
  refine ⟨_, exec_eq _ _ _ _, ?_, rfl⟩
  decide +kernel

end Storage
end
end PD
