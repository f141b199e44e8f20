import Mathlib.Data.List.TakeWhile
import PD.Core.ScanRange
import PD.Core.StoreMeta

/-! # User rules and the regions they are about -/

namespace PD
open List RegionsInfo

def fromHexChar (c : Char) : Option UInt8 :=
  if '0' ≤ c ∧ c ≤ '9' then some (UInt8.ofNat (c.toNat - '0'.toNat))
  else if 'a' ≤ c ∧ c ≤ 'f' then some (UInt8.ofNat (c.toNat - 'a'.toNat + 10))
  else if 'A' ≤ c ∧ c ≤ 'F' then some (UInt8.ofNat (c.toNat - 'A'.toNat + 10))
  else none

def decodeHex : List Char → Option Key
  | [] => some []
  | [_] => none
  | a :: b :: rest =>
    match fromHexChar a, fromHexChar b, decodeHex rest with
    | some high, some low, some key => some ((high <<< 4 ||| low) :: key)
    | _, _, _ => none

def decodeString (s : String) : Option Key := decodeHex s.toList

structure TimeInterval where
  beginTime : Int
  endTime : Int
  deriving DecidableEq

def TimeInterval.active (i : TimeInterval) (now : Int) : Bool :=
  !(decide (i.endTime < now) || decide (now < i.beginTime))

structure PluginInfo where
  persist : Bool
  keyStart : String
  keyEnd : String
  interval : Option TimeInterval
  stores : List (List StoreLabel)
  storeIDs : List Nat
  deriving DecidableEq

def PluginInfo.active (p : PluginInfo) (now : Int) : Bool := p.interval.all fun i => i.active now

variable (r : RegionsInfo)

def withNext (regions : List RegionInfo) (key : Key) : Option (List Nat) :=
  match r.scanRange key 1 with
  | some [] => some (regions.map RegionInfo.getID)
  | some (some next :: _) => some (regions.map RegionInfo.getID ++ [next.getID])
  | _ => none

def Region.isWhole (region : Region) : Bool := region.startKey.isEmpty && region.endKey.isEmpty

def onlyNext (key : Key) : Option (List Nat) :=
  match r.scanRange key 1 with
  | some [] => some []
  | some (some next :: _) => if next.getMeta.isWhole then some [] else some [next.getID]
  | _ => none

def getRegionIDs (keyStart keyEnd : String) : Option (List Nat) :=
  match decodeString keyStart, decodeString keyEnd with
  | some startKey, some endKey =>
    let regions := r.scanRangeWithEndKey startKey endKey
    match regions.getLast? with
    | none => onlyNext r startKey
    | some last =>
      if last.getMeta.endKey.isEmpty then some (regions.map RegionInfo.getID)
      else withNext r regions last.getMeta.endKey
  | _, _ => some []

def upTo {α : Type*} (p : α → Bool) : List α → List α
  | [] => []
  | a :: as => if p a then a :: upTo p as else [a]

lemma upTo_eq {α : Type*} (p : α → Bool) (as : List α) : upTo p as = as.takeWhile p ++ (as.dropWhile p).take 1 := by
  induction as with
  | nil => rfl
  | cons a _ ih =>
    by_cases h : p a = true
    · simp [upTo, h, ih]
    · simp [upTo, h]

lemma mem_upTo {α : Type*} {p : α → Bool} {lt : α → α → Prop} {as : List α} {a : α} (hs : as.Pairwise lt)
  (ha : a ∈ as) (h : ∀ b ∈ as, lt b a → p b = true) : a ∈ upTo p as := by
  induction as with
  | nil => cases ha
  | cons b _ ih =>
    obtain ⟨hb, hs⟩ := pairwise_cons.mp hs
    unfold upTo
    rcases mem_cons.mp ha with rfl | ha
    · split
      · exact mem_cons_self
      · exact mem_singleton_self a
    rw [if_pos (h b mem_cons_self (hb a ha))]
    exact mem_cons_of_mem _ (ih hs ha fun c hc => h c (mem_cons_of_mem _ hc))

section
variable {r : RegionsInfo} {startKey endKey : Key} {x : RegionInfo}
variable {before behind : List RegionInfo} {keyStart keyEnd : String}

def startingAt (r : RegionsInfo) (key : Key) : List RegionInfo := r.ordered.filter fun x => key ≤ x.getMeta.startKey

lemma startingAt_sorted (h : r.Sound) (key : Key) :
  (startingAt r key).Pairwise fun x y => x.getMeta.startKey < y.getMeta.startKey :=
  (ordered_sorted h).filter _

lemma mem_startingAt : x ∈ startingAt r startKey ↔ x ∈ r.ordered ∧ startKey ≤ x.getMeta.startKey := by
  unfold startingAt
  rw [mem_filter, decide_eq_true_eq]

lemma scanOne_eq (h : r.Sound) (key : Key) : r.scanRange key 1 = some (((startingAt r key).take 1).map some) := by
  rw [scanRange_eq h]
  rfl

lemma withNext_eq (h : r.Sound) (regions : List RegionInfo) (key : Key) :
  withNext r regions key = some ((regions ++ (startingAt r key).take 1).map RegionInfo.getID) := by
  unfold withNext
  rw [scanOne_eq h, map_append]
  cases startingAt r key with
  | nil => simp
  | cons => rfl

lemma startingAt_end (h : r.Sound) (hsplit : startingAt r startKey = before ++ x :: behind)
  (hend : x.getMeta.endKey ≠ []) : startingAt r x.getMeta.endKey = behind := by
  have hsorted := startingAt_sorted h startKey
  rw [hsplit, pairwise_append] at hsorted
  obtain ⟨-, hx, hcross⟩ := hsorted
  have hbehind := (pairwise_cons.mp hx).1
  have hmem : x ∈ startingAt r startKey := hsplit ▸ mem_append_right _ mem_cons_self
  obtain ⟨hxo, hxs⟩ := mem_startingAt.mp hmem
  have hstart : x.getMeta.startKey < x.getMeta.endKey := (nonempty_ordered h hxo).resolve_right hend
  -- a region that starts there or later starts at the start key or later
  have hsub : startingAt r x.getMeta.endKey =
      (startingAt r startKey).filter fun y => x.getMeta.endKey ≤ y.getMeta.startKey := by
    unfold startingAt
    rw [List.filter_filter]
    refine filter_congr fun y _ => ?_
    by_cases hy : x.getMeta.endKey ≤ y.getMeta.startKey
    · simp [hy, le_trans hxs (le_of_lt (lt_of_lt_of_le hstart hy))]
    · simp [hy]
  rw [hsub, hsplit, filter_append, filter_cons_of_neg (by simpa using hstart),
    filter_eq_nil_iff.mpr fun y hy => ?_, nil_append, filter_eq_self.mpr fun y hy => ?_]
  · have hyo : y ∈ r.ordered := (mem_startingAt.mp (hsplit ▸ mem_append_right _ (mem_cons_of_mem _ hy))).1
    exact decide_eq_true (end_le_start h hxo hyo (hbehind y hy)).2
  have hlt := hcross y hy x mem_cons_self
  simpa using lt_trans hlt hstart

def rangeRegions (endKey : Key) : List RegionInfo → List RegionInfo
  | [] => []
  | x :: xs =>
    if endsBefore endKey x.getMeta then
      upTo (fun x => endsBefore endKey x.getMeta) (x :: xs)
    else if x.getMeta.isWhole then []
    else [x]

lemma eq_nil_of_endless (h : r.Sound)
  (hsplit : startingAt r startKey = before ++ x :: behind) (hend : x.getMeta.endKey = []) : behind = [] := by
  have hsorted := startingAt_sorted h startKey
  rw [hsplit, pairwise_append] at hsorted
  obtain ⟨-, hx, -⟩ := hsorted
  have hmem : ∀ y ∈ x :: behind, y ∈ r.ordered := fun y hy => (mem_startingAt.mp (hsplit ▸ mem_append_right _ hy)).1
  refine eq_nil_iff_forall_not_mem.mpr fun y hy => ?_
  have hlt := (pairwise_cons.mp hx).1 y hy
  exact (end_le_start h (hmem x mem_cons_self) (hmem y (mem_cons_of_mem _ hy)) hlt).1 hend

lemma getRegionIDs_eq (h : r.Sound) (hs : decodeString keyStart = some startKey)
  (he : decodeString keyEnd = some endKey) :
  getRegionIDs r keyStart keyEnd = some ((rangeRegions endKey (startingAt r startKey)).map RegionInfo.getID) := by
  have hscan : r.scanRangeWithEndKey startKey endKey =
      (startingAt r startKey).takeWhile fun x => endsBefore endKey x.getMeta :=
    scanRangeWithEndKey_eq h startKey endKey
  have hparts := takeWhile_append_dropWhile (p := fun x : RegionInfo => endsBefore endKey x.getMeta)
    (l := startingAt r startKey)
  unfold getRegionIDs
  simp only [hs, he, hscan]
  cases hlast : ((startingAt r startKey).takeWhile fun x => endsBefore endKey x.getMeta).getLast? with
  | none =>
    unfold onlyNext
    rw [scanOne_eq h]
    cases hstarting : startingAt r startKey with
    | nil => rfl
    | cons x =>
      have hx : ¬ endsBefore endKey x.getMeta = true := by
        intro hx
        rw [hstarting, List.getLast?_eq_none_iff] at hlast
        simp [hx] at hlast
      rw [rangeRegions, if_neg hx]
      show (if _ then _ else _) = _
      split <;> rfl
  | some last =>
    obtain ⟨before, hbefore⟩ := List.getLast?_eq_some_iff.mp hlast
    rw [hbefore, append_assoc, singleton_append] at hparts
    have hrange : rangeRegions endKey (startingAt r startKey) =
        before ++ [last] ++ ((startingAt r startKey).dropWhile fun x =>
          endsBefore endKey x.getMeta).take 1 := by
      rw [← hbefore, ← upTo_eq]
      cases hstarting : startingAt r startKey with
      | nil => rfl
      | cons x =>
        have hx : endsBefore endKey x.getMeta = true := by
          by_contra hx
          rw [hstarting, takeWhile_cons, if_neg hx] at hlast
          cases hlast
        rw [rangeRegions, if_pos hx]
    simp only [hbefore]
    rw [hrange]
    split
    next hend =>
      rw [eq_nil_of_endless h hparts.symm (List.isEmpty_iff.mp hend)]
      simp
    next hend => rw [withNext_eq h, startingAt_end h hparts.symm fun e => hend (List.isEmpty_iff.mpr e)]

lemma getRegionIDs_isSome (h : r.Sound) (keyStart keyEnd : String) :
  ∃ ids, getRegionIDs r keyStart keyEnd = some ids := by
  cases hs : decodeString keyStart with
  | none => exact ⟨[], by unfold getRegionIDs; rw [hs]⟩
  | some =>
    cases he : decodeString keyEnd with
    | none => exact ⟨[], by unfold getRegionIDs; rw [hs, he]⟩
    | some => exact ⟨_, getRegionIDs_eq h hs he⟩

lemma mem_getRegionIDs (h : r.Sound) (hs : decodeString keyStart = some startKey)
  (he : decodeString keyEnd = some endKey) (hx : x ∈ startingAt r startKey)
  (hbefore : ∀ y ∈ startingAt r startKey, y.getMeta.startKey < x.getMeta.startKey → endsBefore endKey y.getMeta = true)
  (hwhole : x.getMeta.isWhole = false ∨ endKey = []) :
  ∃ ids, getRegionIDs r keyStart keyEnd = some ids ∧ x.getID ∈ ids := by
  refine ⟨_, getRegionIDs_eq h hs he, List.mem_map_of_mem ?_⟩
  have hsorted := startingAt_sorted h startKey
  have hmem := mem_upTo (p := fun x => endsBefore endKey x.getMeta) hsorted hx hbefore
  cases hstarting : startingAt r startKey with
  | nil => rw [hstarting] at hx; cases hx
  | cons y =>
    rw [hstarting] at hmem hbefore hx hsorted
    rw [rangeRegions]
    split
    · exact hmem
    next hy =>
      -- the first region does not end in the range, so it is the one
      have hxy : x = y := by
        rcases mem_cons.mp hx with hxy | hxs
        · exact hxy
        · exact absurd (hbefore y mem_cons_self ((pairwise_cons.mp hsorted).1 x hxs)) hy
      subst hxy
      rcases hwhole with hwhole | hend
      · rw [if_neg (by rw [hwhole]; exact Bool.false_ne_true)]
        exact mem_singleton_self x
      refine absurd ?_ hy
      rw [hend]
      rfl

lemma isWhole_eq_false (h : r.Sound) (htwo : 2 ≤ r.tree.items.length) (hx : x ∈ r.ordered) :
  x.getMeta.isWhole = false := by
  have hsorted := ordered_sorted h
  rw [← map_getMeta_ordered h, length_map] at htwo
  by_contra hne
  obtain ⟨hstart, hend⟩ : x.getMeta.startKey = [] ∧ x.getMeta.endKey = [] := by simpa [Region.isWhole] using hne
  match hl : r.ordered, htwo with
  | a :: b :: rest, _ =>
    rw [hl] at hsorted hx
    rcases mem_cons.mp hx with rfl | hmem
    · have hlt := (pairwise_cons.mp hsorted).1 b mem_cons_self
      exact (end_le_start h (hl ▸ mem_cons_self) (hl ▸ mem_cons_of_mem _ mem_cons_self) hlt).1 hend
    have hlt := (pairwise_cons.mp hsorted).1 x hmem
    rw [hstart] at hlt
    exact not_lt_nil _ hlt

def inRange (startKey endKey key : Key) : Prop := startKey ≤ key ∧ (endKey = [] ∨ key < endKey)

lemma mem_getRegionIDs_of_inRange (h : r.Sound)
  (hs : decodeString keyStart = some startKey) (he : decodeString keyEnd = some endKey) (hx : x ∈ r.ordered)
  (hrange : inRange startKey endKey x.getMeta.startKey) (hwhole : x.getMeta.isWhole = false ∨ endKey = []) :
  ∃ ids, getRegionIDs r keyStart keyEnd = some ids ∧ x.getID ∈ ids := by
  refine mem_getRegionIDs h hs he (mem_startingAt.mpr ⟨hx, hrange.1⟩) (fun y hy hlt => ?_) hwhole
  obtain ⟨hend, hle⟩ := end_le_start h (mem_startingAt.mp hy).1 hx hlt
  unfold endsBefore
  rcases hrange.2 with hempty | hin
  · rw [hempty]
    rfl
  · simp [hend, lt_of_le_of_lt hle hin]

end
end PD
