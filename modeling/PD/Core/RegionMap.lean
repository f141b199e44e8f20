import Mathlib.Data.List.Nodup
import Mathlib.Data.List.Perm.Subperm
import PD.Core.Region

/-! # The region map -/

namespace PD
open List Option SortedMap RegionInfo Words

structure RegionEntry where
  region : RegionInfo
  pos : Nat
  deriving DecidableEq

structure RegionMap where
  m : SortedMap Nat RegionEntry
  ids : List Nat
  totalSize : Int
  totalKeys : Int
  deriving DecidableEq

namespace RegionMap

def new : RegionMap := ⟨.empty, [], 0, 0⟩

variable (rm : RegionMap)

def len : Nat := rm.m.size
def get (id : Nat) : Option RegionInfo := (rm.m.lookup id).map RegionEntry.region

def put (region : RegionInfo) : RegionMap :=
  match rm.m.lookup region.getID with
  | some old =>
    { rm with
      m := rm.m.insert region.getID { old with region := region }
      totalSize := Words.wrap (rm.totalSize + Words.wrap (region.approximateSize - old.region.approximateSize))
      totalKeys := Words.wrap (rm.totalKeys + Words.wrap (region.approximateKeys - old.region.approximateKeys)) }
  | none =>
    { m := rm.m.insert region.getID ⟨region, rm.ids.length⟩
      ids := rm.ids ++ [region.getID]
      totalSize := Words.wrap (rm.totalSize + region.approximateSize)
      totalKeys := Words.wrap (rm.totalKeys + region.approximateKeys) }

def delete (id : Nat) : Option RegionMap :=
  match rm.m.lookup id with
  | none => some rm
  | some old =>
    (rm.ids[rm.len - 1]?).bind fun lastID =>
    (rm.m.lookup lastID).bind fun last =>
    if old.pos < rm.ids.length then
      some {
        m := (rm.m.insert lastID { last with pos := old.pos }).erase id
        ids := (rm.ids.set old.pos last.region.getID).take (rm.len - 1)
        totalSize := Words.wrap (rm.totalSize - old.region.approximateSize)
        totalKeys := Words.wrap (rm.totalKeys - old.region.approximateKeys) }
    else none

def getTotalSize : Int := if rm.len = 0 then 0 else rm.totalSize
def view : SortedMap Nat RegionInfo := rm.m.mapVal RegionEntry.region

structure Wf (rm : RegionMap) : Prop where
  nodup : rm.ids.Nodup
  length : rm.ids.length = rm.m.size
  pos : ∀ id e, rm.m.lookup id = some e → rm.ids[e.pos]? = some id
  id : ∀ id e, rm.m.lookup id = some e → e.region.getID = id
  size : rm.totalSize = Words.wrap (rm.view.total approximateSize)
  keys : rm.totalKeys = Words.wrap (rm.view.total approximateKeys)

lemma get_eq (id : Nat) : rm.get id = rm.view.lookup id := by
  unfold get view
  rw [lookup_mapVal]

lemma len_eq : rm.len = rm.view.size := (size_mapVal _ _).symm

lemma new_wf : new.Wf where
  nodup := nodup_nil
  length := rfl
  pos := fun _ _ h => by cases h
  id := fun _ _ h => by cases h
  size := wrap_zero.symm
  keys := wrap_zero.symm

section
variable {rm : RegionMap}

lemma Wf.mem_ids (h : rm.Wf) {id : Nat} : id ∈ rm.ids ↔ ∃ e, rm.m.lookup id = some e := by
  have hsub : rm.m.keys ⊆ rm.ids := by
    intro k hk
    obtain ⟨e, he⟩ := SortedMap.mem_keys.mp hk
    exact List.mem_of_getElem? (h.pos k e he)
  have hlen : rm.ids.length ≤ rm.m.keys.length := by
    rw [h.length]
    unfold SortedMap.keys
    rw [length_map]
    exact le_refl _
  have hperm := (subperm_of_subset (keys_nodup rm.m) hsub).perm_of_length_le hlen
  rw [← hperm.mem_iff, SortedMap.mem_keys]

lemma view_put (rm : RegionMap) (region : RegionInfo) : (rm.put region).view = rm.view.insert region.getID region := by
  unfold put view
  split <;> rw [mapVal_insert]

lemma wrap_total_insert (f : RegionInfo → Int) (v : SortedMap Nat RegionInfo) (region : RegionInfo) :
  Words.wrap ((v.insert region.getID region).total f) = match v.lookup region.getID with
    | some old => Words.wrap (Words.wrap (v.total f) + Words.wrap (f region - f old))
    | none => Words.wrap (Words.wrap (v.total f) + f region) := by
  rw [total_insert]
  cases hv : v.lookup region.getID with
  | none =>
    rw [erase_of_lookup_none hv]
    rw [wrap_wrap_add, add_comm]
  | some =>
    show _ = Words.wrap _
    rw [wrap_wrap_add, wrap_add_wrap, total_erase f hv]
    congr 1
    ring

lemma wrap_total_erase (f : RegionInfo → Int) {v : SortedMap Nat RegionInfo} {id : Nat}
  {old : RegionInfo} (hv : v.lookup id = some old) :
  Words.wrap ((v.erase id).total f) = Words.wrap (Words.wrap (v.total f) - f old) := by
  rw [wrap_wrap_sub, total_erase f hv]
  congr 1
  ring

lemma put_wf (h : rm.Wf) (region : RegionInfo) : (rm.put region).Wf := by
  have hview := view_put rm region
  have hlook : rm.view.lookup region.getID = (rm.m.lookup region.getID).map RegionEntry.region := lookup_mapVal ..
  have hsize := wrap_total_insert approximateSize rm.view region
  have hkeys := wrap_total_insert approximateKeys rm.view region
  rw [hlook, ← h.size] at hsize
  rw [hlook, ← h.keys] at hkeys
  unfold put at hview ⊢
  cases hm : rm.m.lookup region.getID with
  | some old =>
    rw [hm] at hsize hkeys hview
    exact {
      nodup := h.nodup
      length := by
        rw [size_insert, ← size_erase hm]
        exact h.length
      pos := forall_insert (P := fun id (e : RegionEntry) => rm.ids[e.pos]? = some id) (h.pos _ old hm) h.pos
      id := forall_insert (P := fun id (e : RegionEntry) => e.region.getID = id) rfl h.id
      size := by rw [hview, hsize]; rfl
      keys := by rw [hview, hkeys]; rfl }
  | none =>
    rw [hm] at hsize hkeys hview
    have hfresh : region.getID ∉ rm.ids := by
      intro hmem
      obtain ⟨e, he⟩ := h.mem_ids.mp hmem
      rw [hm] at he
      cases he
    exact {
      nodup := by
        exact nodup_append.mpr ⟨h.nodup, pairwise_singleton _ _, fun x hx y hy e =>
          hfresh (by rw [← mem_singleton.mp hy, ← e]; exact hx)⟩
      length := by
        rw [size_insert, erase_of_lookup_none hm, length_append, h.length]
        rfl
      pos := by
        refine forall_insert (P := fun id (e : RegionEntry) => (rm.ids ++ [region.getID])[e.pos]? = some id)
          List.getElem?_concat_length fun id e he => ?_
        have hp := h.pos id e he
        rw [List.getElem?_append_left (List.getElem?_eq_some_iff.mp hp).1]
        exact hp
      id := forall_insert (P := fun id (e : RegionEntry) => e.region.getID = id) rfl h.id
      size := by rw [hview, hsize]; rfl
      keys := by rw [hview, hkeys]; rfl }

lemma getElem?_moved {ids : List Nat} {p n lastID : Nat} (hl : ids[n]? = some lastID) (i : Nat)
  (hi : i < n) : ((ids.set p lastID).take n)[i]? = ids[if i = p then n else i]? := by
  have hn : n < ids.length := (List.getElem?_eq_some_iff.mp hl).1
  rw [List.getElem?_take_of_lt hi, List.getElem?_set]
  by_cases e : p = i
  · rw [if_pos e, if_pos (by omega), if_pos e.symm, hl]
  · rw [if_neg e, if_neg (Ne.symm e)]

lemma nodup_moved {ids : List Nat} {p n lastID : Nat} (h : ids.Nodup)
  (hl : ids[n]? = some lastID) : ((ids.set p lastID).take n).Nodup := by
  have hn : n < ids.length := (List.getElem?_eq_some_iff.mp hl).1
  have hlen : ((ids.set p lastID).take n).length = n := by
    rw [length_take, length_set]
    omega
  have hinj : ∀ i j, i < ids.length → j < ids.length → ids[i]? = ids[j]? → i = j := by
    intro i j hi hj e
    rw [List.getElem?_eq_getElem hi, List.getElem?_eq_getElem hj] at e
    exact (List.Nodup.getElem_inj_iff h).mp (some.inj e)
  rw [List.nodup_iff_getElem?_ne_getElem?]
  intro i j hij hj e
  rw [hlen] at hj
  rw [getElem?_moved hl i (by omega), getElem?_moved hl j hj] at e
  have e' := hinj _ _ (by split <;> omega) (by split <;> omega) e
  split at e' <;> split at e' <;> omega

lemma Wf.last (h : rm.Wf) {id : Nat} {old : RegionEntry} (hm : rm.m.lookup id = some old) :
  ∃ lastID last, rm.ids[rm.len - 1]? = some lastID ∧ rm.m.lookup lastID = some last := by
  have hsize := size_erase hm
  have hlt : rm.len - 1 < rm.ids.length := by
    rw [h.length]
    unfold len
    omega
  have hlast : rm.ids[rm.len - 1]? = some rm.ids[rm.len - 1] := List.getElem?_eq_getElem hlt
  obtain ⟨last, hml⟩ := h.mem_ids.mp (List.mem_of_getElem? hlast)
  exact ⟨_, last, hlast, hml⟩

lemma view_moved {lastID : Nat} {last : RegionEntry} (hml : rm.m.lookup lastID = some last) (id p : Nat) :
  ((rm.m.insert lastID { last with pos := p }).erase id).mapVal RegionEntry.region = rm.view.erase id := by
  rw [mapVal_erase, mapVal_insert]
  congr 1
  refine insert_of_lookup ?_
  rw [lookup_mapVal, hml]
  rfl

lemma size_moved {id lastID : Nat} {old last : RegionEntry} (hm : rm.m.lookup id = some old)
  (hml : rm.m.lookup lastID = some last) (p : Nat) :
  ((rm.m.insert lastID { last with pos := p }).erase id).size = rm.m.size - 1 := by
  have hins : (rm.m.insert lastID { last with pos := p }).size = rm.m.size := by rw [size_insert, ← size_erase hml]
  obtain ⟨e, he⟩ : ∃ e, (rm.m.insert lastID { last with pos := p }).lookup id = some e := by
    rw [lookup_insert]
    split
    · exact ⟨_, rfl⟩
    · exact ⟨old, hm⟩
  have hers := size_erase he
  omega

lemma pos_moved (h : rm.Wf) {id lastID : Nat} {old last : RegionEntry} (hm : rm.m.lookup id = some old)
    (hlast : rm.ids[rm.len - 1]? = some lastID) {id' : Nat} {e : RegionEntry}
    (he : ((rm.m.insert lastID { last with pos := old.pos }).erase id).lookup id' = some e) :
    ((rm.ids.set old.pos lastID).take (rm.len - 1))[e.pos]? = some id' := by
  have hpos := h.pos id old hm
  have hplt : old.pos < rm.ids.length := (List.getElem?_eq_some_iff.mp hpos).1
  obtain ⟨hne, he⟩ := lookup_erase_some.mp he
  rw [lookup_insert] at he
  split at he
  next el =>
    cases he
    subst el
    have hp : old.pos ≠ rm.len - 1 := by
      intro ep
      rw [ep, hlast] at hpos
      exact hne (some.inj hpos)
    rw [getElem?_moved hlast old.pos (by rw [h.length] at hplt; unfold len at *; omega), if_pos rfl]
    exact hlast
  next el =>
    have hpe := h.pos id' e he
    have hlt := (List.getElem?_eq_some_iff.mp hpe).1
    have h1 : e.pos ≠ rm.len - 1 := by
      intro ep
      rw [ep, hlast] at hpe
      exact el (some.inj hpe).symm
    have h2 : e.pos ≠ old.pos := by
      intro ep
      rw [ep, hpos] at hpe
      exact hne (some.inj hpe).symm
    rw [getElem?_moved hlast e.pos (by rw [h.length] at hlt; unfold len at *; omega), if_neg h2]
    exact hpe

lemma delete_spec (h : rm.Wf) (id : Nat) : ∃ rm', rm.delete id = some rm' ∧ rm'.Wf ∧ rm'.view = rm.view.erase id := by
  unfold delete
  cases hm : rm.m.lookup id with
  | none =>
    refine ⟨rm, rfl, h, (erase_of_lookup_none ?_).symm⟩
    rw [← get_eq]
    unfold get
    rw [hm]
    rfl
  | some old =>
    have hplt : old.pos < rm.ids.length := (List.getElem?_eq_some_iff.mp (h.pos id old hm)).1
    obtain ⟨lastID, last, hlast, hml⟩ := h.last hm
    have hid := h.id lastID last hml
    have hvid : rm.view.lookup id = some old.region := by
      unfold view
      rw [lookup_mapVal, hm]
      rfl
    show ∃ rm', ((rm.ids[rm.len - 1]?).bind fun lastID => _) = some rm' ∧ _
    rw [hlast, bind_some, hml, bind_some, if_pos hplt]
    refine ⟨_, rfl, ?_, view_moved hml id old.pos⟩
    exact {
      nodup := by
        rw [hid]
        exact nodup_moved h.nodup hlast
      length := by
        rw [length_take, length_set, h.length, size_moved hm hml]
        exact Nat.min_eq_left (Nat.sub_le _ _)
      pos := by
        intro id' e he
        rw [hid]
        exact pos_moved h hm hlast he
      id := by
        intro id' e he
        obtain ⟨_, he⟩ := lookup_erase_some.mp he
        rcases lookup_insert_some.mp he with ⟨rfl, rfl⟩ | ⟨_, he⟩
        · exact hid
        · exact h.id id' e he
      size := by
        show Words.wrap _ = Words.wrap (SortedMap.total _ (mapVal _ _))
        rw [view_moved hml, wrap_total_erase _ hvid, h.size]
      keys := by
        show Words.wrap _ = Words.wrap (SortedMap.total _ (mapVal _ _))
        rw [view_moved hml, wrap_total_erase _ hvid, h.keys] }

lemma totalSize_eq (h : rm.Wf) : rm.getTotalSize = Words.wrap (rm.view.total approximateSize) := by
  unfold getTotalSize
  split
  next hlen =>
    have hnil : rm.view.entries = [] := by
      rw [len_eq] at hlen
      exact eq_nil_of_length_eq_zero hlen
    unfold SortedMap.total values
    rw [hnil]
    exact wrap_zero.symm
  · exact h.size

end
end RegionMap
end PD
