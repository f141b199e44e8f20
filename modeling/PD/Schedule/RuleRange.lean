import PD.Core.RegionCache
import PD.Schedule.UserRules

/-! # The regions of a rule's range -/

namespace PD
open List Option RegionsInfo

def RegionsInfo.Covers (r : RegionsInfo) : Prop :=
  ∀ key : Key, ∃ x ∈ r.ordered, x.getMeta.startKey ≤ key ∧ (x.getMeta.endKey = [] ∨ key < x.getMeta.endKey)

instance decidableInRange (startKey endKey key : Key) : Decidable (inRange startKey endKey key) :=
  inferInstanceAs (Decidable (_ ∧ _))

def startingIn (r : RegionsInfo) (startKey endKey : Key) : List RegionInfo :=
  r.ordered.filter fun x => inRange startKey endKey x.getMeta.startKey

section
variable {r : RegionsInfo} {startKey endKey : Key}

lemma exists_start (h : r.Sound) (hcov : r.Covers) {x : RegionInfo} (hx : x ∈ r.ordered)
  (hend : x.getMeta.endKey ≠ []) : ∃ y ∈ r.ordered, y.getMeta.startKey = x.getMeta.endKey := by
  obtain ⟨y, hy, hle, hlt⟩ := hcov x.getMeta.endKey
  refine ⟨y, hy, le_antisymm hle (not_lt.mp fun hbefore => ?_)⟩
  have hxne : x.getMeta.startKey < x.getMeta.endKey := (nonempty_ordered h hx).resolve_right hend
  have hover : ¬ (y.getMeta.endKey ≠ [] ∧ y.getMeta.endKey ≤ x.getMeta.endKey) := by
    rintro ⟨hne, hle'⟩
    exact absurd (hlt.resolve_left hne) (not_lt.mpr hle')
  rcases lt_trichotomy x.getMeta.startKey y.getMeta.startKey with hxy | hxy | hxy
  · exact absurd (end_le_start h hx hy hxy).2 (not_le.mpr hbefore)
  · have hmeta : x.getMeta = y.getMeta := by
      have hx' := RegionTree.mem_items.mp (getMeta_mem_items h hx)
      have hy' := RegionTree.mem_items.mp (getMeta_mem_items h hy)
      rw [hxy, hy'] at hx'
      exact (some.inj hx').symm
    exact hover (hmeta ▸ ⟨hend, le_refl _⟩)
  obtain ⟨hne, hle'⟩ := end_le_start h hy hx hxy
  exact hover ⟨hne, le_trans hle' (le_of_lt hxne)⟩

lemma startingAt_chain (h : r.Sound) (hcov : r.Covers) (key : Key) :
  (startingAt r key).IsChain fun x y => x.getMeta.endKey ≠ [] ∧ y.getMeta.startKey = x.getMeta.endKey := by
  refine isChain_iff_forall_rel_of_append_cons_cons.mpr fun {x y before behind} hsplit => ?_
  have hsorted := startingAt_sorted h key
  rw [hsplit, pairwise_append] at hsorted
  obtain ⟨-, hxy, hcross⟩ := hsorted
  obtain ⟨hxall, hyall⟩ := pairwise_cons.mp hxy
  have hmem : ∀ z ∈ x :: y :: behind, z ∈ startingAt r key := fun z hz => hsplit ▸ mem_append_right _ hz
  obtain ⟨hx, hkey⟩ := mem_startingAt.mp (hmem x mem_cons_self)
  have hy := (mem_startingAt.mp (hmem y (mem_cons_of_mem _ mem_cons_self))).1
  have hlt := hxall y mem_cons_self
  obtain ⟨hend, hle⟩ := end_le_start h hx hy hlt
  refine ⟨hend, le_antisymm (not_lt.mp fun hbehind => ?_) hle⟩
  -- the region that starts at the end of `x` would stand between the two
  obtain ⟨z, hz, hzstart⟩ := exists_start h hcov hx hend
  have hxz : x.getMeta.startKey < z.getMeta.startKey := by
    rw [hzstart]
    exact (nonempty_ordered h hx).resolve_right hend
  have hzmem : z ∈ startingAt r key := mem_startingAt.mpr ⟨hz, le_trans hkey (le_of_lt hxz)⟩
  rw [hsplit, mem_append, mem_cons, mem_cons] at hzmem
  rcases hzmem with hz' | rfl | rfl | hz'
  · exact absurd (hcross z hz' x mem_cons_self) (not_lt.mpr (le_of_lt hxz))
  · exact lt_irrefl _ hxz
  · exact absurd hzstart (ne_of_gt hbehind)
  · exact absurd ((pairwise_cons.mp hyall).1 z hz') (not_lt.mpr (le_of_lt (hzstart ▸ hbehind)))

lemma upTo_eq_takeWhile (hend : endKey ≠ []) (x : RegionInfo) (xs : List RegionInfo)
  (hchain : (x :: xs).IsChain fun x y => x.getMeta.endKey ≠ [] ∧ y.getMeta.startKey = x.getMeta.endKey)
  (hx : x.getMeta.startKey < endKey) : upTo (fun x => endsBefore endKey x.getMeta) (x :: xs) =
    (x :: xs).takeWhile fun x => x.getMeta.startKey < endKey := by
  induction xs generalizing x with
  | nil =>
    rw [upTo, takeWhile_cons, if_pos (decide_eq_true hx)]
    split <;> rfl
  | cons y _ ih =>
    obtain ⟨⟨hne, hnext⟩, hchain⟩ := isChain_cons_cons.mp hchain
    have hends : endsBefore endKey x.getMeta = decide (y.getMeta.startKey < endKey) := by
      rw [endsBefore, hnext, isEmpty_eq_false_iff.mpr hend, isEmpty_eq_false_iff.mpr hne,
        Bool.false_or, Bool.not_false, Bool.true_and]
    rw [upTo, takeWhile_cons, if_pos (decide_eq_true hx), hends]
    by_cases hy : y.getMeta.startKey < endKey
    · rw [if_pos (decide_eq_true hy), ih y hchain hy]
    · rw [if_neg (by simpa using hy), takeWhile_cons, if_neg (by simpa using hy)]

lemma filter_eq_takeWhile {xs : List RegionInfo}
  (hs : xs.Pairwise fun x y => x.getMeta.startKey < y.getMeta.startKey) (key : Key) :
  (xs.filter fun x => x.getMeta.startKey < key) = xs.takeWhile fun x => x.getMeta.startKey < key := by
  induction xs with
  | nil => rfl
  | cons x _ ih =>
    obtain ⟨hx, hs⟩ := pairwise_cons.mp hs
    rw [filter_cons, takeWhile_cons]
    split
    · rw [ih hs]
    next hge =>
      refine filter_eq_nil_iff.mpr fun y hy => ?_
      have hle : key ≤ x.getMeta.startKey := by simpa using hge
      simpa using le_trans hle (le_of_lt (hx y hy))

lemma startingIn_eq (h : r.Sound) (startKey : Key) (hend : endKey ≠ []) :
  startingIn r startKey endKey = (startingAt r startKey).takeWhile fun x => x.getMeta.startKey < endKey := by
  rw [← filter_eq_takeWhile (startingAt_sorted h startKey), startingAt, List.filter_filter]
  refine filter_congr fun x _ => ?_
  simp [inRange, hend, Bool.and_comm]

lemma startingIn_unbounded (r : RegionsInfo) (startKey : Key) : startingIn r startKey [] = startingAt r startKey :=
  filter_congr fun x _ => by simp [inRange]

lemma rangeRegions_eq (h : r.Sound) (htwo : 2 ≤ r.tree.items.length) : rangeRegions endKey (startingAt r startKey) =
  upTo (fun x => endsBefore endKey x.getMeta) (startingAt r startKey) := by
  cases hat : startingAt r startKey with
  | nil => rfl
  | cons x =>
    have hx : x ∈ r.ordered := (mem_startingAt.mp (hat ▸ mem_cons_self : x ∈ startingAt r startKey)).1
    rw [rangeRegions]
    split
    · rfl
    next hends =>
      rw [if_neg (by rw [isWhole_eq_false h htwo hx]; exact Bool.false_ne_true), upTo, if_neg hends]

lemma upTo_of_all {α : Type*} {p : α → Bool} (hp : ∀ a, p a = true) (as : List α) : upTo p as = as := by
  induction as with
  | nil => rfl
  | cons a _ ih => rw [upTo, if_pos (hp a), ih]

lemma upTo_eq_startingIn_iff (h : r.Sound) (hcov : r.Covers) (hrange : startKey < endKey ∨ endKey = []) :
  upTo (fun x => endsBefore endKey x.getMeta) (startingAt r startKey) = startingIn r startKey endKey ↔
    endKey = [] ∨ (∃ x ∈ r.ordered, inRange startKey endKey x.getMeta.startKey) ∨
      ∀ x ∈ r.ordered, x.getMeta.startKey < endKey := by
  by_cases hend : endKey = []
  · subst hend
    have hall : ∀ x : RegionInfo, endsBefore [] x.getMeta = true := fun _ => rfl
    rw [startingIn_unbounded, upTo_of_all hall]
    exact iff_of_true rfl (.inl rfl)
  rw [startingIn_eq h startKey hend]
  have hstart : startKey < endKey := hrange.resolve_right hend
  have hsorted := startingAt_sorted h startKey
  have hchain := startingAt_chain h hcov startKey
  cases hat : startingAt r startKey with
  | nil =>
    refine ⟨fun _ => .inr (.inr fun x hx => ?_), fun _ => rfl⟩
    by_contra hge
    have hx' : x ∈ startingAt r startKey := mem_startingAt.mpr ⟨hx, le_trans (le_of_lt hstart) (not_lt.mp hge)⟩
    rw [hat] at hx'
    cases hx'
  | cons x xs =>
    rw [hat] at hsorted hchain
    obtain ⟨hx, hxs⟩ := mem_startingAt.mp (hat ▸ mem_cons_self : x ∈ startingAt r startKey)
    by_cases hlt : x.getMeta.startKey < endKey
    · rw [upTo_eq_takeWhile hend x xs hchain hlt]
      exact iff_of_true rfl (.inr (.inl ⟨x, hx, hxs, .inr hlt⟩))
    -- the first region behind the start key starts behind the range, and is taken all the same
    refine iff_of_false ?_ ?_
    · rw [takeWhile_cons, if_neg (by simpa using hlt), upTo]
      split <;> exact cons_ne_nil _ _
    rintro (hempty | ⟨y, hy, hys, hye⟩ | hall)
    · exact hend hempty
    · have hy' : y ∈ startingAt r startKey := mem_startingAt.mpr ⟨hy, hys⟩
      have hylt := hye.resolve_left hend
      rw [hat] at hy'
      rcases mem_cons.mp hy' with rfl | hy'
      · exact hlt hylt
      · exact hlt (lt_trans ((pairwise_cons.mp hsorted).1 y hy') hylt)
    · exact hlt (hall x hx)

lemma ids_nodup (h : r.Sound) : (r.ordered.map RegionInfo.getID).Nodup := by
  refine pairwise_map.mpr ((ordered_sorted h).imp_of_mem fun {x y} hx hy hlt hid => ?_)
  have hx' := getRegion_ordered h hx
  have hy' := getRegion_ordered h hy
  rw [hid, hy'] at hx'
  rw [some.inj hx'] at hlt
  exact lt_irrefl _ hlt

lemma map_getID_inj (h : r.Sound) {xs ys : List RegionInfo} (hxs : ∀ x ∈ xs, x ∈ r.ordered)
  (hys : ∀ y ∈ ys, y ∈ r.ordered) (he : xs.map RegionInfo.getID = ys.map RegionInfo.getID) : xs = ys := by
  have hback : ∀ zs : List RegionInfo, (∀ z ∈ zs, z ∈ r.ordered) →
      (zs.map RegionInfo.getID).map r.getRegion = zs.map some := by
    intro zs hzs
    rw [List.map_map]
    exact map_congr_left fun z hz => getRegion_ordered h (hzs z hz)
  have hsome : xs.map some = ys.map some := by rw [← hback xs hxs, he, hback ys hys]
  exact map_injective_iff.mpr (some_injective _) hsome

end

/-- **The regions of a range** are exact unless none starts in it and one behind it. -/
theorem getRegionIDs_exact_iff (r : RegionsInfo) (h : r.Sound) (hcov : r.Covers) (htwo : 2 ≤ r.tree.items.length)
  (keyStart keyEnd : String) (startKey endKey : Key) (hs : decodeString keyStart = some startKey)
  (he : decodeString keyEnd = some endKey) (hrange : startKey < endKey ∨ endKey = []) :
  (getRegionIDs r keyStart keyEnd = some ((startingIn r startKey endKey).map RegionInfo.getID) ∧
      ((startingIn r startKey endKey).map RegionInfo.getID).Nodup) ↔
    endKey = [] ∨ (∃ x ∈ r.ordered, inRange startKey endKey x.getMeta.startKey) ∨
      ∀ x ∈ r.ordered, x.getMeta.startKey < endKey := by
  have hnodup : ((startingIn r startKey endKey).map RegionInfo.getID).Nodup :=
    (ids_nodup h).sublist (filter_sublist.map _)
  have hfound : ∀ x ∈ upTo (fun x => endsBefore endKey x.getMeta) (startingAt r startKey), x ∈ r.ordered := by
    intro x hx
    rw [upTo_eq, mem_append] at hx
    rcases hx with hx | hx
    · exact (mem_startingAt.mp (takeWhile_subset _ hx)).1
    · exact (mem_startingAt.mp (dropWhile_subset _ (mem_of_mem_take hx))).1
  rw [and_iff_left hnodup, getRegionIDs_eq h hs he, rangeRegions_eq h htwo, Option.some.injEq,
    ← upTo_eq_startingIn_iff h hcov hrange]
  exact ⟨map_getID_inj h hfound fun x hx => mem_of_mem_filter hx, fun e => by rw [e]⟩

def halves : Option RegionsInfo :=
  (RegionsInfo.new.setRegion (newRegionInfo ⟨1, [], [109], some ⟨1, 1⟩, []⟩ none)).bind fun r =>
    (r.1.setRegion (newRegionInfo ⟨2, [109], [], some ⟨1, 1⟩, []⟩ none)).map Prod.fst

lemma halves_spec {r : RegionsInfo} (hr : halves = some r) : r.Sound ∧ r.Covers ∧ 2 ≤ r.tree.items.length := by
  have hsound : r.Sound := by
    have hleft : (newRegionInfo ⟨1, [], [109], some ⟨1, 1⟩, []⟩ none).getMeta.Nonempty := by decide
    have hright : (newRegionInfo ⟨2, [109], [], some ⟨1, 1⟩, []⟩ none).getMeta.Nonempty := by decide
    obtain ⟨r1, h1, hsound1, -, -⟩ := setRegion_sound sound_new hleft
    obtain ⟨r2, h2, hsound2, -, -⟩ := setRegion_sound hsound1 hright
    rw [halves, h1, bind_some, h2, map_some] at hr
    exact some.inj hr ▸ hsound2
  have hitems : halves.map (fun r => r.tree.items) =
      some [⟨1, [], [109], some ⟨1, 1⟩, []⟩, ⟨2, [109], [], some ⟨1, 1⟩, []⟩] := by decide +kernel
  rw [hr, map_some, Option.some.injEq] at hitems
  refine ⟨hsound, fun key => ?_, by rw [hitems]; decide⟩
  have hmem : ∀ m ∈ r.tree.items, ∃ x ∈ r.ordered, x.getMeta = m := by
    intro m hm
    rw [← map_getMeta_ordered hsound] at hm
    exact List.mem_map.mp hm
  rcases lt_or_ge key [109] with hlt | hge
  · obtain ⟨x, hx, hmeta⟩ := hmem ⟨1, [], [109], some ⟨1, 1⟩, []⟩ (by rw [hitems]; exact mem_cons_self)
    refine ⟨x, hx, ?_⟩
    rw [hmeta]
    exact ⟨not_lt.mp (not_lt_nil key), .inr hlt⟩
  obtain ⟨x, hx, hmeta⟩ := hmem ⟨2, [109], [], some ⟨1, 1⟩, []⟩ (by rw [hitems]; exact mem_cons_of_mem _ mem_cons_self)
  refine ⟨x, hx, ?_⟩
  rw [hmeta]
  exact ⟨hge, .inl rfl⟩

theorem getRegionIDs_exact_iff_endless : ∃ r, halves = some r ∧
  getRegionIDs r "61" "" = some ((startingIn r [97] []).map RegionInfo.getID) := by
  obtain ⟨r, hr⟩ := isSome_iff_exists.mp (by decide +kernel : halves.isSome = true)
  obtain ⟨hsound, hcov, htwo⟩ := halves_spec hr
  exact ⟨r, hr, ((getRegionIDs_exact_iff r hsound hcov htwo "61" "" [97] [] (by decide +kernel) (by decide +kernel)
    (.inr rfl)).mpr (.inl rfl)).1⟩

theorem range_inside_region : ∃ r, halves = some r ∧ (r.Sound ∧ r.Covers ∧ 2 ≤ r.tree.items.length) ∧
  decodeString "61" = some [97] ∧ decodeString "62" = some [98] ∧ ([97] : Key) < [98] ∧
  startingIn r [97] [98] = [] ∧ getRegionIDs r "61" "62" = some [2] := by
  have heval : halves.map (fun r => (startingIn r [97] [98], getRegionIDs r "61" "62")) = some ([], some [2]) := by
    decide +kernel
  obtain ⟨r, hr, hpair⟩ := map_eq_some_iff.mp heval
  injection hpair with hempty hids
  exact ⟨r, hr, halves_spec hr, by decide +kernel, by decide +kernel, by decide, hempty, hids⟩

end PD
