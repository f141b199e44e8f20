import Mathlib.Data.String.Basic
import PD.Core.StoreMeta

/-! # Configuration updates and their undo -/

namespace PD
open SortedMap

structure SchedulerConfig where
  type : String
  args : Option (List String)
  disable : Bool
  deriving DecidableEq

structure ScheduleConfig where
  maxSnapshotCount : Nat
  maxPendingPeerCount : Nat
  maxMergeRegionSize : Nat
  maxMergeRegionKeys : Nat
  splitMergeInterval : Int
  enableOneWayMerge : Bool
  patrolRegionInterval : Int
  maxStoreDownTime : Int
  leaderScheduleLimit : Nat
  regionScheduleLimit : Nat
  replicaScheduleLimit : Nat
  mergeScheduleLimit : Nat
  hotRegionScheduleLimit : Nat
  hotRegionCacheHitsThreshold : Nat
  storeBalanceRate : Rat
  tolerantSizeRatio : Rat
  lowSpaceRatio : Rat
  highSpaceRatio : Rat
  schedulerMaxWaitingOperator : Nat
  disableLearner : Bool
  disableRemoveDownReplica : Bool
  disableReplaceOfflineReplica : Bool
  disableMakeUpReplica : Bool
  disableRemoveExtraReplica : Bool
  disableLocationReplacement : Bool
  disableNamespaceRelocation : Bool
  schedulers : List SchedulerConfig
  deriving DecidableEq

structure ReplicationConfig where
  maxReplicas : Nat
  locationLabels : List String
  strictlyMatchLabel : Bool
  deriving DecidableEq

structure PDServerConfig where
  useRegionStorage : Bool
  deriving DecidableEq

structure NamespaceConfig where
  leaderScheduleLimit : Nat
  regionScheduleLimit : Nat
  replicaScheduleLimit : Nat
  mergeScheduleLimit : Nat
  hotRegionScheduleLimit : Nat
  maxReplicas : Nat
  deriving DecidableEq

structure Version where
  major : Int
  minor : Int
  patch : Int
  preRelease : String
  metadata : String
  deriving DecidableEq

abbrev LabelPropertyConfig := SortedMap String (List StoreLabel)

structure OptionEnv where
  isSchedulerRegistered : String → Bool
  parseVersion : String → Except String Version

def ScheduleConfig.validate (env : OptionEnv) (c : ScheduleConfig) : Except String Unit :=
  if c.tolerantSizeRatio < 0 then .error "tolerant-size-ratio should be nonnegative"
  else if c.lowSpaceRatio < 0 ∨ 1 < c.lowSpaceRatio then .error "low-space-ratio should between 0 and 1"
  else if c.highSpaceRatio < 0 ∨ 1 < c.highSpaceRatio then .error "high-space-ratio should between 0 and 1"
  else if c.lowSpaceRatio ≤ c.highSpaceRatio then
    .error "low-space-ratio should be larger than high-space-ratio"
  else
    match c.schedulers.find? fun s => !env.isSchedulerRegistered s.type with
    | some s => .error ("create func of " ++ s.type ++ " is not registered, maybe misspelled")
    | none => .ok ()

def matchesLabelRule (s : String) : Bool :=
  match s.toList with
  | [] => false
  | c :: rest =>
    c.isAlphanum && rest.getLast?.all Char.isAlphanum &&
      rest.all fun d => d.isAlphanum || d == '-' || d == '_' || d == '.' || d == '/'

def validateLabelString (s : String) : Except String Unit :=
  if matchesLabelRule s then .ok () else .error ("invalid label: " ++ s)

def ReplicationConfig.validate (c : ReplicationConfig) : Except String Unit :=
  c.locationLabels.forM validateLabelString

namespace LabelPropertyConfig
variable (cfg : LabelPropertyConfig)

def labels (typ : String) : List StoreLabel := (cfg.lookup typ).getD []

def set (typ : String) (label : StoreLabel) : LabelPropertyConfig :=
  if label ∈ cfg.labels typ then cfg else cfg.insert typ (cfg.labels typ ++ [label])

def delete (typ : String) (label : StoreLabel) : LabelPropertyConfig :=
  if (cfg.labels typ).filter (· ≠ label) = [] then cfg.erase typ
  else cfg.insert typ ((cfg.labels typ).filter (· ≠ label))

end LabelPropertyConfig

structure ScheduleOption where
  schedule : ScheduleConfig
  rep : ReplicationConfig
  ns : SortedMap String NamespaceConfig
  labelProperty : LabelPropertyConfig
  clusterVersion : Version
  pdServerConfig : PDServerConfig

namespace ScheduleOption

def setLabelProperty (o : ScheduleOption) (typ labelKey labelValue : String) : ScheduleOption :=
  { o with labelProperty := o.labelProperty.set typ ⟨labelKey, labelValue⟩ }

def deleteLabelProperty (o : ScheduleOption) (typ labelKey labelValue : String) : ScheduleOption :=
  { o with labelProperty := o.labelProperty.delete typ ⟨labelKey, labelValue⟩ }

end ScheduleOption

inductive Update where
  | setScheduleConfig (cfg : ScheduleConfig)
  | setReplicationConfig (cfg : ReplicationConfig)
  | setPDServerConfig (cfg : PDServerConfig)
  | setNamespaceConfig (name : String) (cfg : NamespaceConfig)
  | deleteNamespaceConfig (name : String)
  | setLabelProperty (typ labelKey labelValue : String)
  | deleteLabelProperty (typ labelKey labelValue : String)
  | setClusterVersion (v : String)

namespace Update

def persisting (failure : Option String) (changed : ScheduleOption) (undo : ScheduleOption → ScheduleOption) :
  Except String Unit × ScheduleOption :=
  match failure with
  | none => (.ok (), changed)
  | some e => (.error e, undo changed)

def run (env : OptionEnv) (failure : Option String) (o : ScheduleOption) : Update → Except String Unit × ScheduleOption
  | setScheduleConfig cfg =>
    match cfg.validate env with
    | .error e => (.error e, o)
    | .ok () => persisting failure { o with schedule := cfg } fun o' => { o' with schedule := o.schedule }
  | setReplicationConfig cfg =>
    match cfg.validate with
    | .error e => (.error e, o)
    | .ok () => persisting failure { o with rep := cfg } fun o' => { o' with rep := o.rep }
  | setPDServerConfig cfg =>
    persisting failure { o with pdServerConfig := cfg } fun o' => { o' with pdServerConfig := o.pdServerConfig }
  | setNamespaceConfig name cfg =>
    match o.ns.lookup name with
    | some old =>
      persisting failure { o with ns := o.ns.insert name cfg } fun o' => { o' with ns := o'.ns.insert name old }
    | none =>
      persisting failure { o with ns := o.ns.insert name cfg } fun o' => { o' with ns := o'.ns.erase name }
  | deleteNamespaceConfig name =>
    match o.ns.lookup name with
    | some cfg =>
      persisting failure { o with ns := o.ns.erase name } fun o' => { o' with ns := o'.ns.insert name cfg }
    | none => (.ok (), o)
  | setLabelProperty typ labelKey labelValue =>
    persisting failure (o.setLabelProperty typ labelKey labelValue) fun o' =>
      o'.deleteLabelProperty typ labelKey labelValue
  | deleteLabelProperty typ labelKey labelValue =>
    persisting failure (o.deleteLabelProperty typ labelKey labelValue) fun o' =>
      o'.setLabelProperty typ labelKey labelValue
  | setClusterVersion v =>
    match env.parseVersion v with
    | .error e => (.error e, o)
    | .ok version =>
      persisting failure { o with clusterVersion := version } fun o' => { o' with clusterVersion := o.clusterVersion }

def Undoable (o : ScheduleOption) : Update → Prop
  | setLabelProperty typ labelKey labelValue =>
    ⟨labelKey, labelValue⟩ ∉ o.labelProperty.labels typ ∧ o.labelProperty.lookup typ ≠ some []
  | deleteLabelProperty typ labelKey labelValue =>
    ∃ before, o.labelProperty.lookup typ = some (before ++ [⟨labelKey, labelValue⟩]) ∧ ⟨labelKey, labelValue⟩ ∉ before
  | _ => True

end Update

namespace LabelPropertyConfig

section
variable {cfg : LabelPropertyConfig} {typ : String} {label : StoreLabel}

lemma labels_insert (cfg : LabelPropertyConfig) (typ : String) (ls : List StoreLabel) :
  labels (cfg.insert typ ls) typ = ls := by
  unfold labels
  rw [lookup_insert_self]
  rfl

lemma filter_of_not_mem {ls : List StoreLabel} (h : label ∉ ls) : ls.filter (· ≠ label) = ls := by
  refine List.filter_eq_self.mpr fun l hl => decide_eq_true ?_
  rintro rfl
  exact h hl

lemma lookup_delete (cfg : LabelPropertyConfig) (typ : String) (label : StoreLabel) :
  (cfg.delete typ label).lookup typ =
    if (cfg.labels typ).filter (· ≠ label) = [] then none else some ((cfg.labels typ).filter (· ≠ label)) := by
  unfold delete
  split
  · exact lookup_erase_self _ _
  · exact lookup_insert_self _ _ _

lemma labels_delete (cfg : LabelPropertyConfig) (typ : String) (label : StoreLabel) :
  (cfg.delete typ label).labels typ = (cfg.labels typ).filter (· ≠ label) := by
  unfold labels
  rw [lookup_delete]
  split
  next h => exact h.symm
  · rfl

lemma eq_iff_lookup {cfg' : LabelPropertyConfig} (h : ∀ t, t ≠ typ → cfg'.lookup t = cfg.lookup t) :
  cfg' = cfg ↔ cfg'.lookup typ = cfg.lookup typ := by
  refine ⟨fun e => by rw [e], fun e => ext_lookup fun t => ?_⟩
  by_cases ht : t = typ
  · rw [ht, e]
  · exact h t ht

lemma lookup_delete_of_ne {t : String} (h : t ≠ typ) : (cfg.delete typ label).lookup t = cfg.lookup t := by
  unfold delete
  split
  · exact lookup_erase_of_ne _ h
  · exact lookup_insert_of_ne _ _ h

lemma lookup_set_of_ne {t : String} (h : t ≠ typ) : (cfg.set typ label).lookup t = cfg.lookup t := by
  unfold set
  split
  · rfl
  · exact lookup_insert_of_ne _ _ h

lemma delete_set_iff :
  (cfg.set typ label).delete typ label = cfg ↔ label ∉ cfg.labels typ ∧ cfg.lookup typ ≠ some [] := by
  by_cases hmem : label ∈ cfg.labels typ
  · -- nothing is set, and the property is lost
    refine iff_of_false (fun h => ?_) fun h => h.1 hmem
    have hlabels := labels_delete cfg typ label
    rw [set, if_pos hmem] at h
    rw [h] at hlabels
    rw [hlabels] at hmem
    exact absurd rfl (of_decide_eq_true (List.mem_filter.mp hmem).2)
  have hfilter : (cfg.labels typ ++ [label]).filter (· ≠ label) = cfg.labels typ := by
    rw [List.filter_append, filter_of_not_mem hmem]
    simp
  rw [eq_iff_lookup fun t ht => (lookup_delete_of_ne ht).trans (lookup_set_of_ne ht), lookup_delete, set,
    if_neg hmem, labels_insert, hfilter]
  unfold labels at hmem ⊢
  cases hlook : cfg.lookup typ with
  | none => simp
  | some ls =>
    rw [hlook] at hmem
    cases ls with
    | nil => simp
    | cons => simpa using hmem

lemma set_delete_iff : (cfg.delete typ label).set typ label = cfg ↔
  ∃ before, cfg.lookup typ = some (before ++ [label]) ∧ label ∉ before := by
  have hnot : label ∉ (cfg.labels typ).filter (· ≠ label) := fun h =>
    absurd rfl (of_decide_eq_true (List.mem_filter.mp h).2)
  rw [eq_iff_lookup fun t ht => (lookup_set_of_ne ht).trans (lookup_delete_of_ne ht)]
  unfold set
  rw [labels_delete, if_neg hnot, lookup_insert_self]
  constructor
  · intro h
    exact ⟨_, h.symm, hnot⟩
  rintro ⟨before, hlook, hbefore⟩
  have hlabels : cfg.labels typ = before ++ [label] := by
    unfold labels
    rw [hlook]
    rfl
  rw [hlook, hlabels, List.filter_append, filter_of_not_mem hbefore]
  simp

end
end LabelPropertyConfig

/-- **Failed updates** are taken back exactly if they are `Undoable`. -/
theorem failed_update_restored_iff (env : OptionEnv) (o : ScheduleOption) (e : String) (u : Update) :
  (u.run env (some e) o).2 = o ↔ u.Undoable o := by
  cases u with
  | setScheduleConfig | setReplicationConfig | setClusterVersion =>
    refine iff_of_true ?_ trivial
    simp only [Update.run]
    split <;> rfl
  | setPDServerConfig => exact iff_of_true rfl trivial
  | setNamespaceConfig name cfg =>
    refine iff_of_true ?_ trivial
    simp only [Update.run]
    split
    next old hold =>
      have hns : (o.ns.insert name cfg).insert name old = o.ns := by rw [insert_insert, insert_of_lookup hold]
      simp only [Update.persisting, hns]
    next hnone =>
      have hns : (o.ns.insert name cfg).erase name = o.ns := by rw [erase_insert, erase_of_lookup_none hnone]
      simp only [Update.persisting, hns]
  | deleteNamespaceConfig name =>
    refine iff_of_true ?_ trivial
    simp only [Update.run]
    split
    next cfg hcfg =>
      have hns : (o.ns.erase name).insert name cfg = o.ns := by rw [insert_erase, insert_of_lookup hcfg]
      simp only [Update.persisting, hns]
    · rfl
  | setLabelProperty =>
    refine Iff.trans ?_ LabelPropertyConfig.delete_set_iff
    exact ⟨fun h => congrArg ScheduleOption.labelProperty h,
      fun h => congrArg (fun p => { o with labelProperty := p }) h⟩
  | deleteLabelProperty =>
    refine Iff.trans ?_ LabelPropertyConfig.set_delete_iff
    exact ⟨fun h => congrArg ScheduleOption.labelProperty h,
      fun h => congrArg (fun p => { o with labelProperty := p }) h⟩

def rejectZone : ScheduleOption where
  schedule := ⟨3, 16, 20, 200000, 3600000000000, false, 100000000, 1800000000000, 4, 64, 64, 8, 4, 3, 15, 0, 4 / 5,
    3 / 5, 3, false, false, false, false, false, false, false, []⟩
  rep := ⟨3, [], false⟩
  ns := .empty
  labelProperty := SortedMap.insert .empty "reject-leader" [⟨"zone", "z1"⟩]
  clusterVersion := ⟨3, 0, 0, "", ""⟩
  pdServerConfig := ⟨false⟩

/-- The rollback deletes what was there before the call. -/
theorem failed_set_deletes_property :
  ((Update.setLabelProperty "reject-leader" "zone" "z1").run ⟨fun _ => true, fun _ => .error ""⟩ (some "etcd is down")
    rejectZone).2.labelProperty.lookup "reject-leader" = none ∧
  rejectZone.labelProperty.lookup "reject-leader" = some [⟨"zone", "z1"⟩] := by
  decide +kernel

end PD
