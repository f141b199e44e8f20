import PD.Core.Region

/-! # The storage of the region metadata -/

namespace PD
open List SortedMap Words

structure Codec (V : Type) where
  marshal : Region → V
  unmarshal : V → Option Region
  roundTrip : ∀ r, unmarshal (marshal r) = some r

def Codec.plain : Codec Region := ⟨id, some, fun _ => rfl⟩
def regionPrefix : Key := [114, 97, 102, 116, 47, 114, 47]
def regionPath (regionID : Nat) : Key := regionPrefix ++ (digits 10 20 regionID).map fun d => (48 + d).toUInt8

lemma digit_lt (x y : Nat) (hy : y < 10) (h : x < y) : (48 + x).toUInt8 < (48 + y).toUInt8 := by
  rw [UInt8.lt_iff_toNat_lt]
  show (48 + x) % 256 < (48 + y) % 256
  omega

lemma regionPath_lt {a b : Nat} (h : a < b) (hb : b < 10^20) : regionPath a < regionPath b := by
  have hlt : (digits 10 20 a).map (fun d => (48 + d).toUInt8) < (digits 10 20 b).map fun d => (48 + d).toUInt8 :=
    map_lt_map _ (fun d => d < 10) (fun x y _ hy hxy => digit_lt x y hy hxy)
      (digits_bound 10 20 a (by norm_num)) (digits_bound 10 20 b (by norm_num))
      (digits_lt 10 20 a b h hb)
  unfold regionPath regionPrefix
  simp only [cons_append, nil_append, cons_lt_cons_iff, lt_irrefl, false_or, true_and]
  exact hlt

lemma regionPath_lt_iff {a b : Nat} (ha : a < 10^20) (hb : b < 10^20) : regionPath a < regionPath b ↔ a < b := by
  constructor
  · intro h
    rcases lt_trichotomy a b with hab | hab | hab
    · exact hab
    · rw [hab] at h; exact absurd h (lt_irrefl _)
    · exact absurd h (lt_asymm (regionPath_lt hab ha))
  · exact fun h => regionPath_lt h hb

lemma regionPath_inj {a b : Nat} (ha : a < 10^20) (hb : b < 10^20) (h : regionPath a = regionPath b) : a = b := by
  rcases lt_trichotomy a b with hab | hab | hab
  · exact absurd h (ne_of_lt (regionPath_lt hab hb))
  · exact hab
  · exact absurd h (ne_of_gt (regionPath_lt hab ha))

lemma isPrefix_regionPath (id : Nat) : regionPrefix <+: regionPath id := prefix_append ..

lemma isPrefix_of_between {p a b k : Key} (h1 : p ++ a ≤ k) (h2 : k ≤ p ++ b) : p <+: k := by
  induction p generalizing k with
  | nil => exact nil_prefix
  | cons c p ih =>
    cases k with
    | nil => exact absurd (nil_lt_cons c (p ++ a)) (not_lt.mpr h1)
    | cons d k =>
      have hc : ¬ (d < c ∨ d = c ∧ k < p ++ a) := fun h => not_lt.mpr h1 (cons_lt_cons_iff.mpr h)
      have hd : ¬ (c < d ∨ c = d ∧ p ++ b < k) := fun h => not_lt.mpr h2 (cons_lt_cons_iff.mpr h)
      have e : c = d := le_antisymm (not_lt.mp fun h => hc (.inl h)) (not_lt.mp fun h => hd (.inl h))
      subst e
      exact (prefix_cons_inj c).mpr (ih (not_lt.mp fun h => hc (.inr ⟨rfl, h⟩))
        (not_lt.mp fun h => hd (.inr ⟨rfl, h⟩)))

abbrev Kv (V : Type) := SortedMap Key V
def noFaults : Key → Bool := fun _ => false

section
variable {V : Type} (codec : Codec V) (bad : Key → Bool)

namespace Kv
variable (kv : Kv V)

def save (key : Key) (value : V) : Option (Kv V) :=
  if bad key then none else some (kv.insert key value)

def remove (key : Key) : Option (Kv V) :=
  if bad key then none else some (kv.erase key)

def loadRange (key endKey : Key) (limit : Nat) : List V :=
  (((kv.ascend key).takeWhile fun e => e.1 < endKey).take limit).map Prod.snd

def saveRegions (regions : SortedMap Key Region) : Option (Kv V) :=
  if regions.keys.any bad then none else some (kv.insertAll (regions.mapVal codec.marshal).entries)

def deleteRegion (region : Region) : Option (Kv V) := Kv.remove bad kv (regionPath region.id)

end Kv

structure RegionStorage (V : Type) where
  levelDB : Kv V
  batchRegions : SortedMap Key Region
  batchSize : Nat
  cacheSize : Nat

def defaultBatchSize : Nat := 100
def newRegionStorage (levelDB : Kv V) : RegionStorage V := ⟨levelDB, .empty, defaultBatchSize, 0⟩

namespace RegionStorage

def flush (s : RegionStorage V) : RegionStorage V × Bool :=
  match Kv.saveRegions codec bad s.levelDB s.batchRegions with
  | none => (s, false)
  | some levelDB => ({ s with levelDB := levelDB, cacheSize := 0, batchRegions := .empty }, true)

def saveRegion (s : RegionStorage V) (region : Region) : RegionStorage V × Bool :=
  let batched := { s with batchRegions := s.batchRegions.insert (regionPath region.id) region }
  if s.cacheSize < s.batchSize - 1 then ({ batched with cacheSize := s.cacheSize + 1 }, true)
  else batched.flush codec bad

end RegionStorage

structure Storage (V : Type) where
  base : Kv V
  regionStorage : Option (RegionStorage V)
  useRegionStorage : Bool

namespace Storage

def saveBase (s : Storage V) (region : Region) : Storage V × Bool :=
  match Kv.save bad s.base (regionPath region.id) (codec.marshal region) with
  | none => (s, false)
  | some base => ({ s with base := base }, true)

def saveRegion (s : Storage V) (region : Region) : Option (Storage V × Bool) :=
  if s.useRegionStorage then s.regionStorage.map fun rs =>
    let saved := rs.saveRegion codec bad region
    ({ s with regionStorage := some saved.1 }, saved.2)
  else some (s.saveBase codec bad region)

def regionKv (s : Storage V) : Option (Kv V) :=
  if s.useRegionStorage then s.regionStorage.map RegionStorage.levelDB else some s.base

def setRegionKv (s : Storage V) (kv : Kv V) : Storage V :=
  if s.useRegionStorage then
    { s with regionStorage := s.regionStorage.map fun rs => { rs with levelDB := kv } }
  else { s with base := kv }

def deleteRegion (s : Storage V) (region : Region) : Option (Storage V × Bool) := s.regionKv.map fun kv =>
    match Kv.deleteRegion bad kv region with
    | none => (s, false)
    | some kv' => (s.setRegionKv kv', true)

def flush (s : Storage V) : Storage V × Bool :=
  match s.regionStorage with
  | none => (s, true)
  | some rs =>
    let flushed := rs.flush codec bad
    ({ s with regionStorage := some flushed.1 }, flushed.2)

end Storage
end

section
variable {V : Type} (codec : Codec V)
variable {id n : Nat}

structure Holds (kv : Kv V) (S : SortedMap Nat Region) : Prop where
  ids : ∀ id r, S.lookup id = some r → r.id = id ∧ id < 2^64
  content : ∀ key v, regionPrefix <+: key →
    (kv.lookup key = some v ↔ ∃ id r, S.lookup id = some r ∧ regionPath id = key ∧ codec.marshal r = v)

def maxUint64 : Nat := 2^64 - 1

def loadable (S : SortedMap Nat Region) (n : Nat) : List Region :=
  S.values.filter fun r => decide (n ≤ r.id) && decide (r.id < maxUint64)

lemma lt_pow (h : id < 2^64) : id < 10^20 := lt_of_lt_of_le h (by norm_num)

variable {codec} {kv : Kv V} {S : SortedMap Nat Region}

lemma holds_empty : Holds codec .empty .empty :=
  ⟨fun _ _ h => (by cases h), fun _ _ _ => ⟨fun h => (by cases h), fun ⟨_, _, h, _⟩ => (by cases h)⟩⟩

lemma Holds.erase (h : Holds codec kv S) (hid : id < 2^64) : Holds codec (kv.erase (regionPath id)) (S.erase id) := by
  have hS : ∀ i r, (S.erase id).lookup i = some r ↔ i ≠ id ∧ S.lookup i = some r := fun i r => lookup_erase_some
  refine ⟨fun i r hr => h.ids i r ((hS i r).mp hr).2, fun key v hk => ?_⟩
  rw [lookup_erase]
  by_cases e : key = regionPath id
  · rw [if_pos e]
    refine ⟨fun h => (by cases h), fun ⟨i, r, hr, hi, _⟩ => ?_⟩
    obtain ⟨hne, hr⟩ := (hS i r).mp hr
    exact absurd (regionPath_inj (lt_pow (h.ids i r hr).2) (lt_pow hid) (hi.trans e)) hne
  rw [if_neg e, h.content key v hk]
  constructor
  · intro ⟨i, r, hr, hi, hv⟩
    exact ⟨i, r, (hS i r).mpr ⟨fun ei => e (by rw [← hi, ei]), hr⟩, hi, hv⟩
  intro ⟨i, r, hr, hi, hv⟩
  exact ⟨i, r, ((hS i r).mp hr).2, hi, hv⟩

lemma Holds.insert (h : Holds codec kv S) {region : Region} (hid : region.id < 2^64) :
  Holds codec (kv.insert (regionPath region.id) (codec.marshal region)) (S.insert region.id region) := by
  have hids : ∀ i r, (S.insert region.id region).lookup i = some r → r.id = i ∧ i < 2^64 :=
    forall_insert (P := fun i (r : Region) => r.id = i ∧ i < 2^64) ⟨rfl, hid⟩ h.ids
  refine ⟨hids, fun key v hk => ?_⟩
  rw [lookup_insert]
  by_cases e : key = regionPath region.id
  · rw [if_pos e]
    constructor
    · intro hv
      exact ⟨region.id, region, lookup_insert_self .., e.symm, Option.some.inj hv⟩
    intro ⟨i, r, hr, hi, hv⟩
    obtain rfl := regionPath_inj (lt_pow (hids i r hr).2) (lt_pow hid) (hi.trans e)
    rw [lookup_insert_self] at hr
    rw [← hv, Option.some.inj hr]
  rw [if_neg e, h.content key v hk]
  have hne : ∀ i, regionPath i = key → i ≠ region.id := fun i hi ei => e (by rw [← hi, ei])
  constructor
  · intro ⟨i, r, hr, hi, hv⟩
    exact ⟨i, r, by rw [lookup_insert_of_ne _ _ (hne i hi)]; exact hr, hi, hv⟩
  intro ⟨i, r, hr, hi, hv⟩
  rw [lookup_insert_of_ne _ _ (hne i hi)] at hr
  exact ⟨i, r, hr, hi, hv⟩

lemma Holds.entries_range (h : Holds codec kv S) (hn : n ≤ maxUint64) :
  (kv.ascend (regionPath n)).takeWhile (fun e => e.1 < regionPath maxUint64) =
    (S.entries.filter fun e => decide (n ≤ e.1) && decide (e.1 < maxUint64)).map
      fun e => (regionPath e.1, codec.marshal e.2) := by
  have hmax : maxUint64 < 10^20 := by decide
  have hasc : (kv.ascend (regionPath n)).Pairwise fun a b => a.1 < b.1 := kv.sorted.filter _
  rw [takeWhile_eq_filter hasc fun a _ b _ hab hb => decide_eq_true (lt_trans hab (of_decide_eq_true hb))]
  refine sorted_ext (hasc.filter _) ?_ fun e => ?_
  · refine pairwise_map.mpr ((S.sorted.filter _).imp_of_mem fun {a b} _ hb hab => ?_)
    have hb' := (Bool.and_eq_true_iff.mp (mem_filter.mp hb).2).2
    exact regionPath_lt hab (lt_trans (of_decide_eq_true hb') hmax)
  obtain ⟨key, v⟩ := e
  rw [mem_filter, mem_ascend, mem_entries, decide_eq_true_eq, List.mem_map]
  constructor
  · intro ⟨⟨hv, hle⟩, hlt⟩
    have hk : regionPrefix <+: key := isPrefix_of_between hle (le_of_lt hlt)
    obtain ⟨i, r, hr, rfl, rfl⟩ := (h.content key v hk).mp hv
    have hi := lt_pow (h.ids i r hr).2
    have h1 : n ≤ i := not_lt.mp fun hlt' => absurd (regionPath_lt hlt' (lt_of_le_of_lt hn hmax)) (not_lt.mpr hle)
    have h2 : i < maxUint64 := (regionPath_lt_iff hi hmax).mp hlt
    exact ⟨(i, r), mem_filter.mpr ⟨mem_entries.mpr hr, by simp [h1, h2]⟩, rfl⟩
  intro ⟨⟨i, r⟩, he, heq⟩
  obtain ⟨rfl, rfl⟩ := Prod.mk.inj heq
  obtain ⟨hr, hcond⟩ := mem_filter.mp he
  obtain ⟨h1, h2⟩ := Bool.and_eq_true_iff.mp hcond
  have h1' : n ≤ i := of_decide_eq_true h1
  have h2' : i < maxUint64 := of_decide_eq_true h2
  refine ⟨⟨(h.content _ _ (isPrefix_regionPath i)).mpr
    ⟨i, r, mem_entries.mp hr, rfl, rfl⟩, ?_⟩, regionPath_lt h2' hmax⟩
  rcases lt_or_eq_of_le h1' with hlt | rfl
  · exact le_of_lt (regionPath_lt hlt (lt_trans h2' hmax))
  · exact le_refl _

lemma Holds.loadRange (h : Holds codec kv S) (hn : n ≤ maxUint64) (limit : Nat) :
  Kv.loadRange kv (regionPath n) (regionPath maxUint64) limit = ((loadable S n).take limit).map codec.marshal := by
  have hload : loadable S n = (S.entries.filter fun e => decide (n ≤ e.1) &&
      decide (e.1 < maxUint64)).map Prod.snd := by
    unfold loadable SortedMap.values
    rw [List.filter_map]
    congr 1
    refine filter_congr fun e he => ?_
    show (decide (n ≤ e.2.id) && decide (e.2.id < maxUint64)) = _
    rw [(h.ids e.1 e.2 (mem_entries.mp he)).1]
  unfold Kv.loadRange
  rw [h.entries_range hn, hload, ← map_take, ← map_take, List.map_map, List.map_map]
  rfl

end
end PD
