import PD.Core.RegionCache
import PD.Schedule.UserRules

/-! # User configurations and their conflicts -/

namespace PD
open RegionsInfo

structure MoveRule where
  persist : Bool
  keyStart : String
  keyEnd : String
  stores : List (List StoreLabel)
  startTime : Int
  endTime : Int
  deriving DecidableEq

structure DispatchConfig where
  leaders : List MoveRule
  regions : List MoveRule
  deriving DecidableEq

namespace MoveRule

def keysOverlap (a b : MoveRule) : Bool := (decide (a.keyStart ≤ b.keyStart) && decide (b.keyStart < a.keyEnd)) ||
    (decide (b.keyStart ≤ a.keyStart) && decide (a.keyStart < b.keyEnd))

def timesOverlap (a b : MoveRule) : Bool :=
  ((decide (a.startTime < b.startTime) || decide (a.startTime = b.startTime)) && decide (b.startTime < a.endTime)) ||
    ((decide (b.startTime < a.startTime) || decide (b.startTime = a.startTime)) && decide (a.startTime < b.endTime))

def overlaps (a b : MoveRule) : Bool := keysOverlap a b && timesOverlap a b

end MoveRule

def anyPair {α : Type*} (p : α → α → Bool) : List α → Bool
  | [] => false
  | a :: as => as.any (p a) || anyPair p as

namespace DispatchConfig

def ifConflict (cfg : DispatchConfig) (maxReplicas : Int) : Bool :=
  anyPair MoveRule.overlaps cfg.leaders || anyPair MoveRule.overlaps cfg.regions ||
    cfg.regions.any fun r => decide (maxReplicas < r.stores.length)

def ifNeedCheckStore (cfg : DispatchConfig) : List (Nat × Nat) := cfg.leaders.zipIdx.flatMap fun l =>
    (cfg.regions.zipIdx.filter fun r => l.1.overlaps r.1).map fun r => (l.2, r.2)

end DispatchConfig

namespace MoveRule

def interval (a : MoveRule) : TimeInterval := ⟨a.startTime, a.endTime⟩
def regionIDs (r : RegionsInfo) (a : MoveRule) : List Nat := (getRegionIDs r a.keyStart a.keyEnd).getD []
def ValidKeys (a : MoveRule) : Prop := (decodeString a.keyStart).isSome ∧ (decodeString a.keyEnd).isSome
instance validKeysDecidable (a : MoveRule) : Decidable a.ValidKeys := inferInstanceAs (Decidable (_ ∧ _))

def NoShared (r : RegionsInfo) (now : Int) (a b : MoveRule) : Prop :=
  a.interval.active now = true → b.interval.active now = true → ∀ id ∈ a.regionIDs r, id ∉ b.regionIDs r

def Apart (a b : MoveRule) : Prop :=
  a.endTime < a.startTime ∨ b.endTime < b.startTime ∨ a.endTime < b.startTime ∨ b.endTime < a.startTime

end MoveRule

namespace DispatchConfig

def ValidKeys (cfg : DispatchConfig) : Prop := (∀ a ∈ cfg.leaders, a.ValidKeys) ∧ ∀ a ∈ cfg.regions, a.ValidKeys

def Exclusive (cfg : DispatchConfig) (r : RegionsInfo) (now : Int) : Prop :=
  cfg.leaders.Pairwise (MoveRule.NoShared r now) ∧ cfg.regions.Pairwise (MoveRule.NoShared r now)

def Apart (cfg : DispatchConfig) : Prop := cfg.leaders.Pairwise MoveRule.Apart ∧ cfg.regions.Pairwise MoveRule.Apart
instance validKeysDecidable (cfg : DispatchConfig) : Decidable cfg.ValidKeys := inferInstanceAs (Decidable (_ ∧ _))

end DispatchConfig

section
variable {a b : MoveRule} {now : Int}

lemma active_iff : a.interval.active now = true ↔ a.startTime ≤ now ∧ now ≤ a.endTime := by
  unfold TimeInterval.active MoveRule.interval
  simp only [Bool.not_eq_true', Bool.or_eq_false_iff, decide_eq_false_iff_not, not_lt]
  exact and_comm

lemma apart_iff : a.Apart b ↔ ∀ now, ¬ (a.interval.active now = true ∧ b.interval.active now = true) := by
  simp only [active_iff]
  unfold MoveRule.Apart
  constructor
  · intro h now hnow
    omega
  intro h
  have h' := h (max a.startTime b.startTime)
  omega

def tailRegion (key : Key) : RegionInfo := newRegionInfo ⟨1, key, [], some ⟨1, 1⟩, []⟩ none

lemma tailOnly (key : Key) : ∃ r : RegionsInfo, r.Sound ∧ ∀ x, x ∈ r.ordered ↔ x = tailRegion key := by
  have hne : (tailRegion key).getMeta.Nonempty := .inr rfl
  obtain ⟨r, -, hsound, hcached, -⟩ := setRegion_sound sound_new hne
  refine ⟨r, hsound, fun x => ?_⟩
  rw [mem_ordered hsound]
  simp only [getRegion_eq, hcached, lookup_setCached sound_new hne]
  constructor
  · rintro ⟨id, ⟨-, hx⟩ | ⟨-, hx, -⟩⟩
    · exact hx
    · cases hx
  intro hx
  exact ⟨_, .inl ⟨rfl, hx⟩⟩

lemma mem_regionIDs_tail {r : RegionsInfo} {key startKey : Key} (hsound : r.Sound)
  (honly : ∀ x, x ∈ r.ordered ↔ x = tailRegion key) (hvalid : a.ValidKeys)
  (hstart : decodeString a.keyStart = some startKey) (hle : startKey ≤ key) (hkey : key ≠ []) : 1 ∈ a.regionIDs r := by
  obtain ⟨endKey, hend⟩ := Option.isSome_iff_exists.mp hvalid.2
  have hmem : tailRegion key ∈ startingAt r startKey := mem_startingAt.mpr ⟨(honly _).mpr rfl, hle⟩
  have hwhole : (tailRegion key).getMeta.isWhole = false := by
    unfold Region.isWhole tailRegion newRegionInfo
    simp [hkey]
  obtain ⟨ids, hids, hin⟩ := mem_getRegionIDs hsound hstart hend hmem (fun y hy hlt => by
    rw [(honly y).mp (mem_startingAt.mp hy).1] at hlt
    exact absurd hlt (lt_irrefl _)) (.inl hwhole)
  unfold MoveRule.regionIDs
  rw [hids]
  exact hin

lemma exists_shared (ha : a.ValidKeys) (hb : b.ValidKeys) :
  ∃ r : RegionsInfo, r.Sound ∧ 1 ∈ a.regionIDs r ∧ 1 ∈ b.regionIDs r := by
  obtain ⟨ka, hka⟩ := Option.isSome_iff_exists.mp ha.1
  obtain ⟨kb, hkb⟩ := Option.isSome_iff_exists.mp hb.1
  -- a key that is not empty and not before the two start keys
  obtain ⟨key, hkey, hle⟩ : ∃ key : Key, key ≠ [] ∧ max ka kb ≤ key := by
    by_cases h : max ka kb = []
    · exact ⟨[0], List.cons_ne_nil _ _, by rw [h]; decide⟩
    · exact ⟨max ka kb, h, le_refl _⟩
  obtain ⟨r, hsound, honly⟩ := tailOnly key
  exact ⟨r, hsound, mem_regionIDs_tail hsound honly ha hka (le_trans (le_max_left _ _) hle) hkey,
    mem_regionIDs_tail hsound honly hb hkb (le_trans (le_max_right _ _) hle) hkey⟩

lemma pairwise_exclusive_iff {rules : List MoveRule} (hvalid : ∀ a ∈ rules, a.ValidKeys) :
  (∀ r : RegionsInfo, r.Sound → ∀ now, rules.Pairwise (MoveRule.NoShared r now)) ↔ rules.Pairwise MoveRule.Apart := by
  constructor
  · intro h
    refine List.pairwise_iff_getElem.mpr fun i j hi hj hij => apart_iff.mpr fun now hnow => ?_
    obtain ⟨r, hsound, hin, hin'⟩ := exists_shared (hvalid _ (List.getElem_mem hi)) (hvalid _ (List.getElem_mem hj))
    exact List.pairwise_iff_getElem.mp (h r hsound now) i j hi hj hij hnow.1 hnow.2 1 hin hin'
  intro h r _ now
  exact h.imp fun hapart ha hb => absurd ⟨ha, hb⟩ (apart_iff.mp hapart now)

end

/-- **Accepted rules** exclude each other exactly if their times are apart. -/
theorem rules_exclusive_iff (cfg : DispatchConfig) (maxReplicas : Int) (hvalid : cfg.ValidKeys)
  (_hok : cfg.ifConflict maxReplicas = false) :
  (∀ r : RegionsInfo, r.Sound → ∀ now, cfg.Exclusive r now) ↔ cfg.Apart := by
  unfold DispatchConfig.Exclusive DispatchConfig.Apart
  rw [← pairwise_exclusive_iff hvalid.1, ← pairwise_exclusive_iff hvalid.2]
  exact ⟨fun h => ⟨fun r hr now => (h r hr now).1, fun r hr now => (h r hr now).2⟩,
    fun h r hr now => ⟨h.1 r hr now, h.2 r hr now⟩⟩

def twoLeaderRules (startTime : Int) : DispatchConfig :=
  ⟨[⟨false, "61", "62", [], 0, 100⟩, ⟨false, "63", "64", [], startTime, 200⟩], []⟩

theorem rules_exclusive_iff_later :
  (∀ r : RegionsInfo, r.Sound → ∀ now, (twoLeaderRules 101).Exclusive r now) ↔ (twoLeaderRules 101).Apart :=
  rules_exclusive_iff (twoLeaderRules 101) 3 (by decide +kernel) (by decide +kernel)

def splitAtM : Option RegionsInfo :=
  (RegionsInfo.new.setRegion (newRegionInfo ⟨1, [], [109], some ⟨1, 1⟩, []⟩ none)).bind fun r =>
    (r.1.setRegion (newRegionInfo ⟨2, [109], [], some ⟨1, 1⟩, []⟩ none)).map Prod.fst

/-- The last region starts behind both keys, and both rules list it. -/
theorem disjoint_rules_share_region : (twoLeaderRules 50).ValidKeys ∧ (twoLeaderRules 50).ifConflict 3 = false ∧
    splitAtM.map (fun r => (twoLeaderRules 50).leaders.map fun a => (a.interval.active 60, a.regionIDs r)) =
      some [(true, [2]), (true, [2])] := by
  decide +kernel

end PD
