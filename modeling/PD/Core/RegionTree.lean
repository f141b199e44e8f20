import PD.Core.Region

/-! # The region tree -/

namespace PD
open List Option SortedMap Region

structure RegionTree where
  tree : SortedMap Key Region
  keyed : ∀ k r, tree.lookup k = some r → r.startKey = k

namespace RegionTree

def new : RegionTree := ⟨.empty, fun _ _ h => by cases h⟩

variable (t : RegionTree)

def items : List Region := t.tree.values
def length : Nat := t.tree.size

def delete (item : Region) : RegionTree where
  tree := t.tree.erase item.startKey
  keyed := by
    intro k r h
    rw [lookup_erase] at h
    split at h
    · cases h
    · exact t.keyed k r h

variable (region : Region)

def replaceOrInsert : RegionTree where
  tree := t.tree.insert region.startKey region
  keyed := by
    intro k r h
    rw [lookup_insert] at h
    split at h
    next e => cases h; exact e.symm
    · exact t.keyed k r h

def find : Option Region :=
  match t.tree.floor region.startKey with
  | none => none
  | some (_, result) => if result.contains region.startKey then some result else none

def getOverlaps : List Region :=
  let result := (t.find region).getD region
  ((t.tree.ascend result.startKey).takeWhile fun item =>
    !(!region.endKey.isEmpty && decide (region.endKey ≤ item.2.startKey))).map Prod.snd

def update : RegionTree × List Region :=
  let overlaps := t.getOverlaps region
  ((overlaps.foldl delete t).replaceOrInsert region, overlaps)

def remove : RegionTree :=
  match t.find region with
  | none => t
  | some result => if result.id ≠ region.id then t else t.delete result

def Disjoint : Prop := Tiles Region.span t.tree

lemma lookup_foldl_delete (items : List Region) (t : RegionTree) (k : Key) : (items.foldl delete t).tree.lookup k =
  if ∃ item ∈ items, item.startKey = k then none else t.tree.lookup k := by
  have htree : (items.foldl delete t).tree = items.foldl (fun m item => m.erase item.startKey) t.tree :=
    (foldl_hom tree fun _ _ => rfl).symm
  rw [htree, lookup_foldl_erase]
  congr

lemma disjoint_delete {t : RegionTree} (h : t.Disjoint) (item : Region) :
    (t.delete item).Disjoint := Tiles.erase h item.startKey

lemma disjoint_foldl_delete (items : List Region) {t : RegionTree} (h : t.Disjoint) :
  (items.foldl delete t).Disjoint := by
  induction items generalizing t with
  | nil => exact h
  | cons item _ ih => exact ih (disjoint_delete h item)

section
variable {t : RegionTree}
variable {r a b region : Region}

lemma mem_items : r ∈ t.items ↔ t.tree.lookup r.startKey = some r := by
  unfold items
  rw [mem_values]
  exact ⟨fun ⟨k, h⟩ => by rw [t.keyed k r h]; exact h, fun h => ⟨_, h⟩⟩

lemma nonempty_of_mem (h : t.Disjoint) (hr : r ∈ t.items) : r.Nonempty :=
  nonempty_span.mp (Tiles.nonempty h _ r (mem_items.mp hr))

lemma eq_of_overlaps (h : t.Disjoint) (ha : a ∈ t.items) (hb : b ∈ t.items) (ho : a.Overlaps b) : a = b := by
  obtain ⟨k, h1, h2⟩ := ho
  have e := Tiles.eq_of_contains h (mem_items.mp ha) (mem_items.mp hb)
    (Region.contains_iff.mp h1) (Region.contains_iff.mp h2)
  have ha' := mem_items.mp ha
  rw [e] at ha'
  exact some.inj (ha'.symm.trans (mem_items.mp hb))

lemma items_sorted (t : RegionTree) : t.items.Pairwise fun a b => a.startKey < b.startKey := by
  refine pairwise_map.mpr (t.tree.sorted.imp_of_mem fun {a b} ha hb hlt => ?_)
  rw [t.keyed a.1 a.2 (mem_entries.mp ha), t.keyed b.1 b.2 (mem_entries.mp hb)]
  exact hlt

lemma end_le_start (h : t.Disjoint) (ha : a ∈ t.items) (hb : b ∈ t.items)
  (hlt : a.startKey < b.startKey) : a.endKey ≠ [] ∧ a.endKey ≤ b.startKey := by
  have hle : a.upper ≤ (b.startKey : WithTop Key) := Tiles.hi_le h (mem_items.mp ha) (mem_items.mp hb) hlt
  have hnot := not_lt.mpr hle
  rw [lt_upper, not_or] at hnot
  exact ⟨hnot.1, not_lt.mp hnot.2⟩

lemma find_some (h : t.find region = some r) : r ∈ t.items ∧ r.contains region.startKey = true := by
  unfold find at h
  split at h
  · cases h
  next k _ hf =>
    split at h
    next hc =>
      cases h
      have hmem := (floor_some hf).1
      exact ⟨mem_values.mpr ⟨k, mem_entries.mp hmem⟩, hc⟩
    · cases h

lemma find_eq (h : t.Disjoint) (hr : r ∈ t.items)
  (hc : r.contains region.startKey = true) : t.find region = some r := by
  unfold find
  rw [Tiles.floor_eq h (mem_items.mp hr) (Region.contains_iff.mp hc)]
  exact if_pos hc

lemma start_eq (region : Region) :
  ((t.find region).getD region).startKey = Tiles.start Region.span t.tree region.span := by
  have hlo : region.span.lo = region.startKey := rfl
  unfold find Tiles.start
  rw [hlo]
  cases hf : t.tree.floor region.startKey with
  | none => rfl
  | some f =>
    obtain ⟨k, result⟩ := f
    have hk := t.keyed k result (mem_entries.mp (floor_some hf).1)
    by_cases hc : result.contains region.startKey = true
    · have hc' : result.span.Contains region.startKey := Region.contains_iff.mp hc
      simp only [hc, hc', if_true, getD_some, hk]
    have hc' : ¬ result.span.Contains region.startKey := fun h => hc (Region.contains_iff.mpr h)
    simp only [hc, hc', if_false, getD_none, Bool.false_eq_true]

lemma stop_iff (region item : Region) : (!(!region.endKey.isEmpty && decide (region.endKey ≤ item.startKey))) = true ↔
  (item.startKey : WithTop Key) < region.upper := by
  rw [lt_upper, Bool.not_eq_true', Bool.and_eq_false_iff, Bool.not_eq_false',
    List.isEmpty_iff, decide_eq_false_iff_not, not_le]

lemma getOverlaps_eq (h : t.Disjoint) (region : Region) :
  t.getOverlaps region = t.items.filter fun r => decide (region.span.Overlaps r.span) := by
  unfold getOverlaps items SortedMap.values
  show List.map Prod.snd (List.takeWhile _ _) = _
  rw [start_eq, Tiles.query h region.span, List.filter_map]
  · rfl
  intro e he
  rw [stop_iff, t.keyed e.1 e.2 (mem_entries.mp he)]
  exact Iff.rfl

lemma mem_getOverlaps (h : t.Disjoint) (hn : region.Nonempty) :
  r ∈ t.getOverlaps region ↔ r ∈ t.items ∧ region.Overlaps r := by
  rw [getOverlaps_eq h, mem_filter, decide_eq_true_eq]
  constructor
  · rintro ⟨hr, ho⟩
    exact ⟨hr, (overlaps_span hn (nonempty_of_mem h hr)).mp ho⟩
  rintro ⟨hr, ho⟩
  exact ⟨hr, (overlaps_span hn (nonempty_of_mem h hr)).mpr ho⟩

lemma mem_update (h : t.Disjoint) (hn : region.Nonempty) :
  r ∈ (t.update region).1.items ↔ r = region ∨ (r ∈ t.items ∧ ¬ region.Overlaps r) := by
  rw [mem_items]
  show ((List.foldl delete t _).tree.insert region.startKey region).lookup r.startKey = some r ↔ _
  rw [lookup_insert, lookup_foldl_delete]
  have hself : region.contains region.startKey = true := Region.contains_iff.mpr ⟨le_refl _, nonempty_span.mpr hn⟩
  split
  next e =>
    constructor
    · intro he
      exact .inl (some.inj he).symm
    rintro (rfl | ⟨hr, hno⟩)
    · rfl
    have hr' : r.contains r.startKey = true := Region.contains_iff.mpr
      ⟨le_refl _, nonempty_span.mpr (nonempty_of_mem h hr)⟩
    exact absurd ⟨region.startKey, hself, e ▸ hr'⟩ hno
  next e =>
    have hne : r ≠ region := fun he => e (he ▸ rfl)
    split
    next hx =>
      obtain ⟨x, hx, ex⟩ := hx
      obtain ⟨hx1, hx2⟩ := (mem_getOverlaps h hn).mp hx
      refine ⟨fun he => (by cases he), ?_⟩
      rintro (he | ⟨hr, hno⟩)
      · exact absurd he hne
      have hlr := mem_items.mp hr
      rw [← ex] at hlr
      have exr : x = r := some.inj ((mem_items.mp hx1).symm.trans hlr)
      exact absurd (exr ▸ hx2) hno
    next hx =>
      constructor
      · intro he
        have hr := mem_items.mpr he
        exact .inr ⟨hr, fun ho => hx ⟨r, (mem_getOverlaps h hn).mpr ⟨hr, ho⟩, rfl⟩⟩
      rintro (he | ⟨hr, _⟩)
      · exact absurd he hne
      · exact mem_items.mp hr

lemma disjoint_update (h : t.Disjoint) (hn : region.Nonempty) : (t.update region).1.Disjoint := by
  refine Tiles.insert (disjoint_foldl_delete _ h) (nonempty_span.mpr hn) ?_
  intro k w _ hw ho
  rw [lookup_foldl_delete] at hw
  split at hw
  · cases hw
  next hx =>
    have hk := t.keyed k w hw
    have hmem : w ∈ t.items := mem_items.mpr (by rw [hk]; exact hw)
    refine hx ⟨w, ?_, hk⟩
    rw [getOverlaps_eq h]
    exact mem_filter.mpr ⟨hmem, decide_eq_true ho⟩

lemma mem_remove (h : t.Disjoint) (hr : region ∈ t.items) :
  r ∈ (t.remove region).items ↔ r ∈ t.items ∧ r ≠ region := by
  have hn := nonempty_of_mem h hr
  have hf : t.find region = some region := find_eq h hr
    (Region.contains_iff.mpr ⟨le_refl _, nonempty_span.mpr hn⟩)
  have he : t.remove region = t.delete region := by
    unfold remove
    rw [hf]
    exact if_neg (fun hne => hne rfl)
  rw [he, mem_items, mem_items]
  show (t.tree.erase region.startKey).lookup r.startKey = some r ↔ _
  rw [lookup_erase_some]
  constructor
  · exact fun ⟨hne, hr'⟩ => ⟨hr', fun he' => hne (he' ▸ rfl)⟩
  intro ⟨hr', hne⟩
  refine ⟨fun e => hne ?_, hr'⟩
  rw [e] at hr'
  exact some.inj (hr'.symm.trans (mem_items.mp hr))

lemma remove_of_other (h : ∀ r ∈ t.items, r.id ≠ region.id) : t.remove region = t := by
  unfold remove
  split
  · rfl
  next result hf => exact if_pos (h result (find_some hf).1)

lemma tree_inj {t' : RegionTree} (h : t.tree = t'.tree) : t = t' := by cases t; cases t'; cases h; rfl

lemma remove_replaceOrInsert (h : region ∈ t.items) : (t.remove region).replaceOrInsert region = t := by
  have hlook := mem_items.mp h
  have hsame : t.replaceOrInsert region = t := tree_inj (insert_of_lookup hlook)
  unfold remove
  cases hf : t.find region with
  | none => exact hsame
  | some result =>
    show (if result.id ≠ region.id then t else t.delete result).replaceOrInsert region = t
    split
    · exact hsame
    -- the item that contains the start key of an item is the item itself
    have hresult : result.startKey = region.startKey := by
      unfold find at hf
      split at hf
      · cases hf
      next k f hfloor =>
        split at hf
        · cases hf
          obtain ⟨hmem, hle, hmax⟩ := floor_some hfloor
          rw [t.keyed k result (mem_entries.mp hmem)]
          exact le_antisymm hle (hmax _ (mem_entries.mpr hlook) (le_refl _))
        · cases hf
    apply tree_inj
    show (t.tree.erase result.startKey).insert region.startKey region = t.tree
    rw [hresult, insert_erase, insert_of_lookup hlook]

lemma disjoint_remove (h : t.Disjoint) (region : Region) : (t.remove region).Disjoint := by
  unfold remove
  split
  · exact h
  split
  · exact h
  · exact disjoint_delete h _

end
end RegionTree
end PD
