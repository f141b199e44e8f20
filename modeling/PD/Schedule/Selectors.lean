import PD.Core.RegionOption
import PD.Schedule.Filters

/-! # The selection of stores -/

namespace PD
open List Option

def scoreLt : Option Int → Option Int → Bool
  | some a, some b => decide (a < b)
  | _, _ => false

def selectBy (pass : StoreView → Bool) (better : StoreView → StoreView → Bool) :
    Option StoreView → List StoreView → Option StoreView
  | best, [] => best
  | none, s :: rest => selectBy pass better (if pass s then some s else none) rest
  | some best, s :: rest => selectBy pass better (if pass s && better best s then some s else some best) rest

variable {pass : StoreView → Bool} {better : StoreView → StoreView → Bool} {best : Option StoreView}
variable {stores : List StoreView} {s : StoreView}

lemma selectBy_mem (h : selectBy pass better best stores = some s) : best = some s ∨ s ∈ stores ∧ pass s = true := by
  induction stores generalizing best with
  | nil => exact .inl h
  | cons a _ ih =>
    cases best with
    | none =>
      rcases ih h with hbest | ⟨hmem, hpass⟩
      · split at hbest
        next ha => cases hbest; exact .inr ⟨mem_cons_self, ha⟩
        · cases hbest
      · exact .inr ⟨mem_cons_of_mem _ hmem, hpass⟩
    | some =>
      rcases ih h with hbest | ⟨hmem, hpass⟩
      · split at hbest
        next ha => cases hbest; exact .inr ⟨mem_cons_self, (Bool.and_eq_true_iff.mp ha).1⟩
        · exact .inl hbest
      · exact .inr ⟨mem_cons_of_mem _ hmem, hpass⟩

lemma selectBy_eq (hpass : pass s = true)
  (hwins : ∀ t ∈ stores, t ≠ s → pass t = true → better s t = false ∧ better t s = true)
  (hbest : ∀ b, best = some b → b ≠ s → better b s = true) (hin : s ∈ stores ∨ best = some s) :
  selectBy pass better best stores = some s := by
  induction stores generalizing best with
  | nil => exact hin.resolve_left not_mem_nil
  | cons a _ ih =>
    have hrest := fun t ht => hwins t (mem_cons_of_mem _ ht)
    cases best with
    | none =>
      rw [selectBy]
      by_cases ha : a = s
      · rw [ha, if_pos hpass]
        exact ih hrest (fun b hb hne => absurd (some.inj hb).symm hne) (.inr rfl)
      refine ih hrest (fun b hb hne => ?_) (.inl ?_)
      · split at hb
        next hpa =>
          cases hb
          exact (hwins a mem_cons_self ha hpa).2
        · cases hb
      · exact (mem_cons.mp (hin.resolve_right nofun)).resolve_left fun h => ha h.symm
    | some b =>
      rw [selectBy]
      by_cases hb : b = s
      · -- the best one so far stays, or is replaced by itself
        subst hb
        have hstays : (if (pass a && better b a) = true then some a else some b) = some b := by
          by_cases ha : a = b
          · rw [ha]
            split <;> rfl
          refine if_neg fun hboth => ?_
          obtain ⟨hpa, hba⟩ := Bool.and_eq_true_iff.mp hboth
          rw [(hwins a mem_cons_self ha hpa).1] at hba
          cases hba
        rw [hstays]
        exact ih hrest hbest (.inr rfl)
      by_cases ha : a = s
      · rw [ha, hpass, hbest b rfl hb]
        exact ih hrest (fun c hc hne => absurd (some.inj hc).symm hne) (.inr rfl)
      refine ih hrest (fun c hc hne => ?_) (.inl ?_)
      · split at hc
        next hboth =>
          cases hc
          exact (hwins a mem_cons_self ha (Bool.and_eq_true_iff.mp hboth).1).2
        · cases hc
          exact hbest b rfl hb
      · exact (mem_cons.mp (hin.resolve_right fun h => hb (some.inj h))).resolve_left fun h => ha h.symm

variable (opt : ScheduleOptions)
variable (filters : List StoreFilter)

def passesSource (s : StoreView) : Bool := !filters.any fun f => f.source opt s
def passesTarget (s : StoreView) : Bool := !filters.any fun f => f.target opt s

lemma passesTarget_eq_false {opt : ScheduleOptions} {filters : List StoreFilter} {f : StoreFilter}
  (hf : f ∈ filters) (h : f.target opt s = true) : passesTarget opt filters s = false := by
  unfold passesTarget
  rw [List.any_eq_true.mpr ⟨f, hf, h⟩]
  rfl

variable (score : StoreView → Option Int)

def BalanceSelector.selectSource (opt : ScheduleOptions) (filters : List StoreFilter)
  (stores : List StoreView) : Option StoreView :=
  selectBy (passesSource opt filters) (fun best s => scoreLt (score best) (score s)) none stores

def BalanceSelector.selectTarget (opt : ScheduleOptions) (filters : List StoreFilter)
  (stores : List StoreView) : Option StoreView :=
  selectBy (passesTarget opt filters) (fun best s => scoreLt (score s) (score best)) none stores

/-- `strings.EqualFold` on the labels that `ValidateLabelString` admits: letters, digits and `-`, `_`, `.`, `/`. -/
def equalFoldASCII (a b : String) : Bool := a.toList.map Char.toLower == b.toList.map Char.toLower

def StoreView.getLabelValue (s : StoreView) (key : String) : String :=
  ((s.getMeta.labels.find? fun l => equalFoldASCII l.key key).map StoreLabel.value).getD ""

def compareLocation (s other : StoreView) (labels : List String) : Option Nat := labels.findIdx? fun key =>
    s.getLabelValue key != "" && other.getLabelValue key != "" &&
      !equalFoldASCII (s.getLabelValue key) (other.getLabelValue key)

def replicaBaseScore : Nat := 100

variable (labels : List String)

def distinctFrom (other s : StoreView) : Nat :=
  if s.getID = other.getID then 0
  else
    match compareLocation s other labels with
    | some index => replicaBaseScore ^ (labels.length - index - 1)
    | none => 0

lemma compareLocation_comm (a b : StoreView) (labels : List String) :
  compareLocation a b labels = compareLocation b a labels := by
  unfold compareLocation
  congr 1
  funext key
  have hfold : equalFoldASCII (a.getLabelValue key) (b.getLabelValue key) =
      equalFoldASCII (b.getLabelValue key) (a.getLabelValue key) := BEq.comm
  rw [hfold, Bool.and_comm (a.getLabelValue key != "")]

lemma distinctFrom_comm (a b : StoreView) : distinctFrom labels a b = distinctFrom labels b a := by
  unfold distinctFrom
  by_cases h : b.getID = a.getID
  · rw [if_pos h, if_pos h.symm]
  · rw [if_neg h, if_neg fun e => h e.symm, compareLocation_comm]

lemma distinctFrom_le (a b : StoreView) : distinctFrom labels a b ≤ replicaBaseScore ^ (labels.length - 1) := by
  unfold distinctFrom
  split
  · exact Nat.zero_le _
  split
  next _ _ => exact Nat.pow_le_pow_right (by decide) (by omega)
  · exact Nat.zero_le _

lemma distinctFrom_self (a : StoreView) : distinctFrom labels a a = 0 := if_pos rfl
def distinctScore (stores : List StoreView) (other : StoreView) : Nat := (stores.map (distinctFrom labels other)).sum

def compareStoreScore (a : StoreView) (scoreA : Nat) (b : StoreView) (scoreB : Nat) : Int :=
  if scoreB < scoreA then 1
  else if scoreA < scoreB then -1
  else if scoreLt a.regionScore b.regionScore then 1
  else if scoreLt b.regionScore a.regionScore then -1
  else 0

def ReplicaSelector.selectSource (regionStores : List StoreView) (filters : List StoreFilter)
  (stores : List StoreView) : Option StoreView :=
  let score := distinctScore opt.locationLabels regionStores
  (selectBy (fun _ => true) (fun best s => decide (compareStoreScore s (score s) best (score best) < 0))
    none stores).filter (passesSource opt filters)

def ReplicaSelector.selectTarget (regionStores : List StoreView)
  (own filters : List StoreFilter) (stores : List StoreView) : Option StoreView :=
  let score := distinctScore opt.locationLabels regionStores
  (selectBy (passesTarget opt filters)
    (fun best s => decide (0 < compareStoreScore s (score s) best (score best))) none stores).filter
    (passesTarget opt own)

def distinctScoreFilter (stores : List StoreView) (source : StoreView) : StoreFilter :=
  let others := stores.filter fun s => s.getID != source.getID
  .distinctScore (distinctScore labels others) (distinctScore labels others source)

def RandomSelector.selectTarget (stores : List StoreView) (n : Nat) : Option StoreView :=
  let candidates := stores.filter (passesTarget opt filters)
  candidates[n % candidates.length]?

def replicaFilters : List StoreFilter := [.overload, .health, .snapshotCount]

variable (ns : RegionInfo → Option StoreFilter)

def selectBestStoreToAddReplica
  (listed : List StoreView) (getRegionStores : RegionInfo → List StoreView) (region : RegionInfo)
  (filters : List StoreFilter) : Nat × Nat :=
  let filters := filters ++ replicaFilters ++ [.state, .pendingPeerCount, .excluded [] region.storeIds] ++
    (ns region).toList
  let regionStores := getRegionStores region
  match ReplicaSelector.selectTarget opt regionStores replicaFilters filters listed with
  | none => (0, 0)
  | some target => (target.getID, distinctScore opt.locationLabels regionStores target)

def selectBestReplacementStore
  (listed : List StoreView) (getRegionStores : RegionInfo → List StoreView) (region : RegionInfo) (oldStore : Nat)
  (filters : List StoreFilter) : Nat × Nat :=
  selectBestStoreToAddReplica opt ns listed getRegionStores (region.withRemoveStorePeer oldStore)
    (filters ++ [.excluded [] region.storeIds])

end PD
