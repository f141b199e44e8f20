import PD.Plugin.UserConfig

/-! # Reloads of the user configuration -/

namespace PD
open List Option SortedMap

inductive RuleKey where
  | leader (i : Nat)
  | region (i : Nat)

namespace RuleKey

def code : RuleKey → Nat
  | leader i => 2 * i
  | region i => 2 * i + 1

lemma code_injective : Function.Injective code := by
  intro a b h
  cases a with
  | leader =>
    cases b with
    | leader => exact congrArg leader (by simp only [code] at h; omega)
    | region => simp only [code] at h; omega
  | region =>
    cases b with
    | leader => simp only [code] at h; omega
    | region => exact congrArg region (by simp only [code] at h; omega)

instance linearOrder : LinearOrder RuleKey := LinearOrder.lift' code code_injective

end RuleKey

abbrev PluginsMap := SortedMap RuleKey PluginInfo

structure UserScheduler where
  name : RuleKey
  regionIDs : List Nat
  storeIDs : List Nat
  keyStart : String
  keyEnd : String
  storeSeq : Nat
  timeInterval : Option TimeInterval
  deriving DecidableEq

def newUserScheduler (name : RuleKey) (keyStart keyEnd : String) (storeIDs : List Nat)
  (interval : Option TimeInterval) : UserScheduler :=
  ⟨name, [], storeIDs, keyStart, keyEnd, 0, interval⟩

namespace DispatchConfig
variable (cfg : DispatchConfig)

def rule : RuleKey → Option MoveRule
  | .leader i => cfg.leaders[i]?
  | .region i => cfg.regions[i]?

def rules : List (RuleKey × MoveRule) :=
  (cfg.leaders.zipIdx.map fun x => (.leader x.2, x.1)) ++ cfg.regions.zipIdx.map fun x => (.region x.2, x.1)

def getInterval (k : RuleKey) : Option TimeInterval := (cfg.rule k).map MoveRule.interval

end DispatchConfig

def MoveRule.pluginInfo (a : MoveRule) : PluginInfo where
  persist := a.persist
  keyStart := a.keyStart
  keyEnd := a.keyEnd
  interval := some a.interval
  stores := a.stores
  storeIDs := []

def matchingLabels (labels storeLabel : List StoreLabel) : Nat :=
  (labels.map fun label => storeLabel.countP fun my => my.key == label.key && my.value == label.value).sum

def getStoreByLabel (stores : List StoreProto) (storeLabel : List StoreLabel) : Option StoreProto :=
  stores.find? fun store => matchingLabels store.labels storeLabel == storeLabel.length

abbrev Listing := RuleKey → Nat → List StoreProto

def findStores (listing : Nat → List StoreProto) (stores : List (List StoreLabel)) : List Nat :=
  stores.zipIdx.filterMap fun x => (getStoreByLabel (listing x.2) x.1).map StoreProto.id

variable (cfg : DispatchConfig)

def DispatchConfig.getStoreId (listing : Listing) : SortedMap RuleKey (List Nat) := SortedMap.empty.insertAll
    ((cfg.rules.map fun x => (x.1, findStores (listing x.1) x.2.stores)).filter fun x => !x.2.isEmpty)

def PluginInfo.updateStoreIDs (p : PluginInfo) (listing : Nat → List StoreProto) : PluginInfo :=
  { p with storeIDs := findStores listing p.stores }

def DispatchConfig.pluginsMap : PluginsMap := SortedMap.empty.insertAll (cfg.rules.map fun x => (x.1, x.2.pluginInfo))
def ifOverlap (first second : List Nat) : List Nat := first.flatMap fun i => second.filter fun j => i == j

variable (storeMap : SortedMap RuleKey (List Nat))

def storesMeet : Bool := cfg.ifNeedCheckStore.all fun pair =>
    !(ifOverlap ((storeMap.lookup (.leader pair.1)).getD []) ((storeMap.lookup (.region pair.2)).getD [])).isEmpty

def PluginsMap.updateStoreIDs (m : PluginsMap) (listing : Listing) (k : RuleKey) : PluginsMap :=
  match m.lookup k with
  | some info => m.insert k (info.updateStoreIDs (listing k))
  | none => m

def schedulerFor (k : RuleKey) (info : Option PluginInfo) : UserScheduler :=
  newUserScheduler k ((info.map PluginInfo.keyStart).getD "") ((info.map PluginInfo.keyEnd).getD "")
    ((storeMap.lookup k).getD []) (cfg.getInterval k)

def produceLoop (cfg : DispatchConfig) (storeMap : SortedMap RuleKey (List Nat)) (listing : Listing) :
    List RuleKey → PluginsMap → PluginsMap × List UserScheduler
  | [], m => (m, [])
  | k :: ks, m =>
    let m' := m.updateStoreIDs listing k
    let (m'', rest) := produceLoop cfg storeMap listing ks m'
    (m'', schedulerFor cfg storeMap k (m'.lookup k) :: rest)

def produceScheduler (found updated : Listing) (order : List RuleKey) (m : PluginsMap) :
  PluginsMap × List UserScheduler :=
  let storeMap := cfg.getStoreId found
  if storesMeet cfg storeMap then produceLoop cfg storeMap updated order m else (SortedMap.empty, [])

def addUserScheduler (schedulers : SortedMap RuleKey UserScheduler) (s : UserScheduler) :
  SortedMap RuleKey UserScheduler :=
  (schedulers.erase s.name).insert s.name s

namespace Reload

structure Accepted where
  cfg : DispatchConfig
  storeIDs : RuleKey → List Nat

inductive UserType where
  | moveLeaderUser
  | moveRegionUser
  deriving DecidableEq

/-- `nameless` is the user scheduler with the empty name, no stores and no interval: `coordinator.run` makes it from a
persisted `{type, no args}` once the plugin has registered the type.  No rule has its name, so no round removes it. -/
structure State where
  cfg : Option DispatchConfig
  pluginsMap : PluginsMap
  schedulers : SortedMap RuleKey UserScheduler
  nameless : Option UserType
  accepted : Option Accepted

/-- The state before the start-up load: `PluginsMap` is a variable of the package and outlives a coordinator. -/
def init (pluginsMap : PluginsMap) (nameless : Option UserType) : State := ⟨none, pluginsMap, .empty, nameless, none⟩

structure Round where
  file : Option DispatchConfig
  maxReplicas : Int
  found : Listing
  updated : Listing
  order : List RuleKey

variable (s : State)
variable (r : Round)

def loadConfig : Bool × State :=
  match r.file with
  | none => (false, s)
  | some cfg =>
    if cfg.ifConflict r.maxReplicas then (false, { s with cfg := some cfg })
    else (true, { s with cfg := some cfg, pluginsMap := cfg.pluginsMap })

def note (cfg : DispatchConfig) (r : Round) (last : Option Accepted) : Option Accepted :=
  if storesMeet cfg (cfg.getStoreId r.found) then
    some ⟨cfg, fun k => ((cfg.getStoreId r.found).lookup k).getD []⟩
  else last

def produce (cfg : DispatchConfig) : State :=
  let (m, schedulers) := produceScheduler cfg r.found r.updated r.order s.pluginsMap
  { s with
    pluginsMap := m
    schedulers := schedulers.foldl addUserScheduler s.schedulers
    accepted := note cfg r s.accepted }

def Ordered : Prop := ∀ cfg ∈ r.file, r.order.Perm (cfg.getStoreId r.found).keys

instance orderedDecidable (r : Round) : Decidable (Ordered r) :=
  match h : r.file with
  | none => .isTrue fun _ hcfg => by rw [h] at hcfg; cases hcfg
  | some cfg => decidable_of_iff (r.order.Perm (cfg.getStoreId r.found).keys)
      ⟨fun hperm _ hcfg => by rw [h] at hcfg; cases hcfg; exact hperm, fun hall => hall cfg h⟩

def step : Option State :=
  if Ordered r then
    match loadConfig s r with
    | (true, s') => some ((s'.cfg.map (produce s' r)).getD s')
    | (false, s') => some s'
  else none

structure RunningRule where
  name : RuleKey
  keyStart : String
  keyEnd : String
  storeIDs : List Nat
  interval : Option TimeInterval
  deriving DecidableEq

def describe (s : UserScheduler) : RunningRule := ⟨s.name, s.keyStart, s.keyEnd, s.storeIDs, s.timeInterval⟩

def Accepted.scheduler (a : Accepted) (k : RuleKey) : Option RunningRule :=
  (a.cfg.rule k).map fun rule => ⟨k, rule.keyStart, rule.keyEnd, a.storeIDs k, some rule.interval⟩

def Accepted.info (a : Accepted) (k : RuleKey) : Option PluginInfo :=
  (a.cfg.rule k).map fun rule => { rule.pluginInfo with storeIDs := a.storeIDs k }

structure Describes (s : State) : Prop where
  nameless : s.nameless = none
  schedulers : ∀ k, (s.schedulers.lookup k).map describe = s.accepted.bind fun a => a.scheduler k
  pluginsMap : ∀ k, s.pluginsMap.lookup k = s.accepted.bind fun a => a.info k

def FitsFile (cfg : DispatchConfig) : Prop :=
  if storesMeet cfg (cfg.getStoreId r.found) then
    (∀ k, s.schedulers.lookup k ≠ none → cfg.rule k ≠ none) ∧
      ∀ k rule, cfg.rule k = some rule → findStores (r.found k) rule.stores ≠ [] ∧
        findStores (r.updated k) rule.stores = findStores (r.found k) rule.stores
  else ∀ k, (s.accepted.bind fun a => a.cfg.rule k) = none

structure Fits (s : State) (r : Round) : Prop where
  nameless : s.nameless = none
  rejected : (∀ cfg ∈ r.file, cfg.ifConflict r.maxReplicas = true) → s.accepted = none →
    ∀ k, s.pluginsMap.lookup k = none
  loaded : ∀ cfg ∈ r.file, cfg.ifConflict r.maxReplicas = false → FitsFile s r cfg

structure Current (s : State) : Prop where
  supplied : ∀ k sch, s.schedulers.lookup k = some sch → sch.storeIDs ≠ []
  schedulers : ∀ k, (s.schedulers.lookup k).map describe = s.accepted.bind fun a => a.scheduler k
  pluginsMap : s.accepted ≠ none → ∀ k, s.pluginsMap.lookup k = s.accepted.bind fun a => a.info k

end Reload

section
variable {cfg : DispatchConfig} {k : RuleKey}
variable {rule : MoveRule} {listing : Listing} {ks : List RuleKey}

lemma mem_rules : (k, rule) ∈ cfg.rules ↔ cfg.rule k = some rule := by
  unfold DispatchConfig.rules
  rw [mem_append, List.mem_map, List.mem_map]
  simp only [Prod.exists, List.mem_zipIdx_iff_getElem?, Prod.mk.injEq]
  cases k with
  | leader i =>
    simp only [reduceCtorEq, false_and, and_false, exists_false, or_false, RuleKey.leader.injEq]
    exact ⟨fun ⟨_, _, h, hi, hr⟩ => hi ▸ hr ▸ h, fun h => ⟨rule, i, h, rfl, rfl⟩⟩
  | region i =>
    simp only [reduceCtorEq, false_and, and_false, exists_false, false_or, RuleKey.region.injEq]
    exact ⟨fun ⟨_, _, h, hi, hr⟩ => hi ▸ hr ▸ h, fun h => ⟨rule, i, h, rfl, rfl⟩⟩

lemma rules_nodup (cfg : DispatchConfig) : (cfg.rules.map Prod.fst).Nodup := by
  have hidx (f : Nat → RuleKey) (hf : Function.Injective f) (l : List MoveRule) :
      ((l.zipIdx.map fun x => (f x.2, x.1)).map Prod.fst).Nodup := by
    rw [List.map_map]
    show (l.zipIdx.map (f ∘ Prod.snd)).Nodup
    rw [← List.map_map, zipIdx_map_snd]
    exact (nodup_range' ..).map hf
  unfold DispatchConfig.rules
  rw [map_append, nodup_append]
  refine ⟨hidx .leader (fun _ _ => RuleKey.leader.inj) _, hidx .region (fun _ _ => RuleKey.region.inj) _, ?_⟩
  intro a ha b hb hab
  obtain ⟨⟨_, _⟩, hx, rfl⟩ := List.mem_map.mp ha
  obtain ⟨⟨_, _⟩, hy, rfl⟩ := List.mem_map.mp hb
  obtain ⟨_, -, hx⟩ := List.mem_map.mp hx
  obtain ⟨_, -, hy⟩ := List.mem_map.mp hy
  cases hx
  cases hy
  cases hab

lemma lookup_pluginsMap (cfg : DispatchConfig) (k : RuleKey) :
  cfg.pluginsMap.lookup k = (cfg.rule k).map MoveRule.pluginInfo := by
  refine (lookup_insertAll_iff .empty ?_ fun info => ?_).trans (or_none)
  · rw [List.map_map]
    exact rules_nodup cfg
  simp only [List.mem_map, Prod.exists, Prod.mk.injEq, mem_rules, map_eq_some_iff]
  exact ⟨fun ⟨_, rule, h, hk, hi⟩ => ⟨rule, hk ▸ h, hi⟩, fun ⟨rule, h, hi⟩ => ⟨k, rule, h, rfl, hi⟩⟩

lemma lookup_getStoreId {ids : List Nat} : (cfg.getStoreId listing).lookup k = some ids ↔
  ∃ rule, cfg.rule k = some rule ∧ findStores (listing k) rule.stores = ids ∧ ids ≠ [] := by
  have hlookup : (cfg.getStoreId listing).lookup k =
      ((cfg.rule k).map fun rule => findStores (listing k) rule.stores).filter fun ids => !ids.isEmpty := by
    refine (lookup_insertAll_iff .empty ?_ fun ids => ?_).trans (or_none)
    · refine List.Nodup.sublist (filter_sublist.map _) ?_
      rw [List.map_map]
      exact rules_nodup cfg
    simp only [mem_filter, List.mem_map, Prod.exists, Prod.mk.injEq, mem_rules, filter_eq_some_iff, map_eq_some_iff]
    constructor
    · rintro ⟨⟨_, rule, h, rfl, hids⟩, hne⟩
      exact ⟨⟨rule, h, hids⟩, hne⟩
    rintro ⟨⟨rule, h, hids⟩, hne⟩
    exact ⟨⟨k, rule, h, rfl, hids⟩, hne⟩
  rw [hlookup, filter_eq_some_iff, map_eq_some_iff]
  constructor
  · rintro ⟨⟨rule, h, hids⟩, hne⟩
    exact ⟨rule, h, hids, by simpa using hne⟩
  rintro ⟨rule, h, hids, hne⟩
  exact ⟨⟨rule, h, hids⟩, by simpa using hne⟩

lemma storeIDs_eq (listing : Listing) (h : cfg.rule k = some rule) :
  ((cfg.getStoreId listing).lookup k).getD [] = findStores (listing k) rule.stores := by
  cases hids : (cfg.getStoreId listing).lookup k with
  | some =>
    obtain ⟨rule', h', hfind, -⟩ := lookup_getStoreId.mp hids
    cases h.symm.trans h'
    exact hfind.symm
  | none =>
    by_contra hne
    have hsome := lookup_getStoreId.mpr ⟨rule, h, rfl, fun e => hne e.symm⟩
    cases hids.symm.trans hsome

lemma lookup_updateStoreIDs (m : PluginsMap) (listing : Listing) (k k' : RuleKey) :
  (m.updateStoreIDs listing k).lookup k' =
    if k' = k then (m.lookup k').map fun info => info.updateStoreIDs (listing k') else m.lookup k' := by
  unfold PluginsMap.updateStoreIDs
  cases hm : m.lookup k with
  | some =>
    rw [lookup_insert]
    split
    next h => rw [h, hm]; rfl
    · rfl
  | none =>
    show m.lookup k' = _
    split
    next h => rw [h, hm]; rfl
    · rfl

lemma produceLoop_lookup {storeMap : SortedMap RuleKey (List Nat)} (hks : ks.Nodup) (m : PluginsMap) (k : RuleKey) :
  (produceLoop cfg storeMap listing ks m).1.lookup k =
    if k ∈ ks then (m.lookup k).map fun info => info.updateStoreIDs (listing k) else m.lookup k := by
  induction ks generalizing m with
  | nil => rfl
  | cons j ks ih =>
    obtain ⟨hj, hks⟩ := nodup_cons.mp hks
    show (produceLoop cfg storeMap listing ks (m.updateStoreIDs listing j)).1.lookup k = _
    rw [ih hks, lookup_updateStoreIDs]
    by_cases hk : k = j
    · subst hk
      rw [if_neg hj, if_pos rfl, if_pos mem_cons_self]
    · simp [hk]

lemma produceLoop_schedulers {storeMap : SortedMap RuleKey (List Nat)} (hks : ks.Nodup) (m : PluginsMap) :
  (produceLoop cfg storeMap listing ks m).2 = ks.map fun k => schedulerFor cfg storeMap k (m.lookup k) := by
  induction ks generalizing m with
  | nil => rfl
  | cons j ks ih =>
    obtain ⟨hj, hks⟩ := nodup_cons.mp hks
    show schedulerFor cfg storeMap j ((m.updateStoreIDs listing j).lookup j) ::
      (produceLoop cfg storeMap listing ks (m.updateStoreIDs listing j)).2 = _
    rw [ih hks, map_cons, lookup_updateStoreIDs, if_pos rfl]
    congr 1
    · unfold schedulerFor
      rw [Option.map_map, Option.map_map]
      rfl
    refine map_congr_left fun k hk => ?_
    rw [lookup_updateStoreIDs, if_neg fun (h : k = j) => hj (h ▸ hk)]

lemma addUserSchedulers_eq (schedulers : List UserScheduler) (running : SortedMap RuleKey UserScheduler) :
  schedulers.foldl addUserScheduler running = running.insertAll (schedulers.map fun s => (s.name, s)) := by
  induction schedulers generalizing running with
  | nil => rfl
  | cons s schedulers ih =>
    show schedulers.foldl addUserScheduler ((running.erase s.name).insert s.name s) = _
    rw [ih, insert_erase]
    rfl

lemma lookup_addUserSchedulers (make : RuleKey → UserScheduler) (hname : ∀ k, (make k).name = k)
  (hks : ks.Nodup) (running : SortedMap RuleKey UserScheduler) (k : RuleKey) :
  ((ks.map make).foldl addUserScheduler running).lookup k = if k ∈ ks then some (make k) else running.lookup k := by
  have hkeys : (((ks.map make).map fun s => (s.name, s)).map Prod.fst) = ks := by
    rw [List.map_map, List.map_map]
    exact map_id'' hname ks
  rw [addUserSchedulers_eq]
  split
  next hk =>
    refine lookup_insertAll_of_mem _ (hkeys.symm ▸ hks) ?_
    exact List.mem_map.mpr ⟨make k, List.mem_map_of_mem hk, by rw [hname]⟩
  next hk => exact lookup_insertAll_of_not_mem _ (hkeys.symm ▸ hk)

end

namespace Reload

section
variable {s t : State} {r : Round} {cfg : DispatchConfig}

lemma step_some (h : step s r = some t) : Ordered r ∧ (r.file = none ∧ t = s ∨
      ∃ cfg, r.file = some cfg ∧ (cfg.ifConflict r.maxReplicas = true ∧ t = { s with cfg := some cfg } ∨
        cfg.ifConflict r.maxReplicas = false ∧
          t = produce { s with cfg := some cfg, pluginsMap := cfg.pluginsMap } r cfg)) := by
  unfold step at h
  split at h
  next hord =>
    refine ⟨hord, ?_⟩
    unfold loadConfig at h
    cases hfile : r.file with
    | none =>
      simp only [hfile, Option.some.injEq] at h
      exact .inl ⟨rfl, h.symm⟩
    | some cfg =>
      refine .inr ⟨cfg, rfl, ?_⟩
      cases hconf : cfg.ifConflict r.maxReplicas with
      | true =>
        simp only [hfile, hconf, if_true, Option.some.injEq] at h
        exact .inl ⟨rfl, h.symm⟩
      | false =>
        simp only [hfile, hconf, Bool.false_eq_true, if_false, Option.some.injEq] at h
        exact .inr ⟨rfl, h.symm⟩
  · cases h

lemma mem_order (hord : Ordered r) (hfile : r.file = some cfg) {k : RuleKey} :
  k ∈ r.order ↔ ∃ rule, cfg.rule k = some rule ∧ findStores (r.found k) rule.stores ≠ [] := by
  rw [(hord cfg hfile).mem_iff, SortedMap.mem_keys]
  constructor
  · rintro ⟨ids, h⟩
    obtain ⟨rule, hrule, hids, hne⟩ := lookup_getStoreId.mp h
    exact ⟨rule, hrule, hids ▸ hne⟩
  rintro ⟨rule, hrule, hne⟩
  exact ⟨_, lookup_getStoreId.mpr ⟨rule, hrule, rfl, hne⟩⟩

lemma order_nodup (hord : Ordered r) (hfile : r.file = some cfg) : r.order.Nodup :=
  (hord cfg hfile).nodup_iff.mpr (keys_nodup _)

structure Installs (s t : State) (r : Round) (cfg : DispatchConfig) : Prop where
  schedulers : ∀ k, t.schedulers.lookup k =
    if k ∈ r.order then some (schedulerFor cfg (cfg.getStoreId r.found) k (cfg.pluginsMap.lookup k))
    else s.schedulers.lookup k
  pluginsMap : ∀ k, t.pluginsMap.lookup k =
    if k ∈ r.order then (cfg.pluginsMap.lookup k).map fun info => info.updateStoreIDs (r.updated k)
    else cfg.pluginsMap.lookup k
  nameless : t.nameless = s.nameless
  accepted : t.accepted = some ⟨cfg, fun k => ((cfg.getStoreId r.found).lookup k).getD []⟩

lemma produce_installs (hord : Ordered r) (hfile : r.file = some cfg)
  (hmeet : storesMeet cfg (cfg.getStoreId r.found) = true) :
  Installs s (produce { s with cfg := some cfg, pluginsMap := cfg.pluginsMap } r cfg) r cfg := by
  have hnodup := order_nodup hord hfile
  unfold produce produceScheduler note
  simp only [hmeet, if_true]
  refine ⟨fun k => ?_, fun k => produceLoop_lookup hnodup _ k, rfl, rfl⟩
  rw [produceLoop_schedulers hnodup]
  exact lookup_addUserSchedulers _ (fun _ => rfl) hnodup _ k

lemma produce_refuses (hmeet : storesMeet cfg (cfg.getStoreId r.found) = false) :
    produce { s with cfg := some cfg, pluginsMap := cfg.pluginsMap } r cfg =
      { s with cfg := some cfg, pluginsMap := .empty } := by
  unfold produce produceScheduler note
  simp only [hmeet, Bool.false_eq_true, if_false]
  rfl

section
variable (h : Installs s t r cfg) (hord : Ordered r) (hfile : r.file = some cfg)
include h hord hfile

lemma describes_at (hc : Current s) {k : RuleKey} {rule : MoveRule} (hrule : cfg.rule k = some rule) :
  ((t.schedulers.lookup k).map describe = (t.accepted.bind fun a => a.scheduler k) ∧
    t.pluginsMap.lookup k = t.accepted.bind fun a => a.info k) ↔ findStores (r.found k) rule.stores ≠ [] ∧
    findStores (r.updated k) rule.stores = findStores (r.found k) rule.stores := by
  have hids := storeIDs_eq r.found hrule
  rw [h.schedulers, h.pluginsMap, h.accepted, lookup_pluginsMap, hrule]
  simp only [bind_some, Accepted.scheduler, Accepted.info, hrule, map_some, hids]
  by_cases hne : findStores (r.found k) rule.stores = []
  · -- no scheduler is made, and one that runs has stores
    rw [if_neg fun hk => ?_]
    · refine iff_of_false (fun hd => ?_) fun hd => hd.1 hne
      obtain ⟨sch, hsch, hdesc⟩ := map_eq_some_iff.mp hd.1
      refine hc.supplied k sch hsch ?_
      rw [← hne]
      exact congrArg RunningRule.storeIDs hdesc
    obtain ⟨rule', hrule', hne'⟩ := (mem_order hord hfile).mp hk
    cases hrule.symm.trans hrule'
    exact hne' hne
  have hk : k ∈ r.order := (mem_order hord hfile).mpr ⟨rule, hrule, hne⟩
  rw [if_pos hk, if_pos hk]
  have hsch : describe (schedulerFor cfg (cfg.getStoreId r.found) k (some rule.pluginInfo)) =
      ⟨k, rule.keyStart, rule.keyEnd, findStores (r.found k) rule.stores, some rule.interval⟩ := by
    unfold schedulerFor DispatchConfig.getInterval
    rw [hids, hrule]
    rfl
  simp only [map_some, hsch, true_and, Option.some.injEq, ne_eq, hne, not_false_eq_true]
  constructor
  · intro he
    exact congrArg PluginInfo.storeIDs he
  intro he
  rw [← he]
  rfl

lemma describes_off {k : RuleKey} (hrule : cfg.rule k = none) :
  ((t.schedulers.lookup k).map describe = (t.accepted.bind fun a => a.scheduler k) ∧
    t.pluginsMap.lookup k = t.accepted.bind fun a => a.info k) ↔ s.schedulers.lookup k = none := by
  have hk : k ∉ r.order := fun hk => by
    obtain ⟨rule, hrule', -⟩ := (mem_order hord hfile).mp hk
    cases hrule.symm.trans hrule'
  rw [h.schedulers, h.pluginsMap, h.accepted, lookup_pluginsMap, if_neg hk, if_neg hk, hrule]
  simp [Accepted.scheduler, Accepted.info, hrule]

lemma installs_describes_iff (hc : Current s) :
  Describes t ↔ s.nameless = none ∧ (∀ k, s.schedulers.lookup k ≠ none → cfg.rule k ≠ none) ∧
    ∀ k rule, cfg.rule k = some rule → findStores (r.found k) rule.stores ≠ [] ∧
      findStores (r.updated k) rule.stores = findStores (r.found k) rule.stores := by
  constructor
  · intro hd
    refine ⟨h.nameless ▸ hd.nameless, fun k hrun hrule => hrun ?_, fun k rule hrule => ?_⟩
    · exact (describes_off h hord hfile hrule).mp ⟨hd.schedulers k, hd.pluginsMap k⟩
    · exact (describes_at h hord hfile hc hrule).mp ⟨hd.schedulers k, hd.pluginsMap k⟩
  rintro ⟨hnameless, hnames, hstores⟩
  have hall : ∀ k, (t.schedulers.lookup k).map describe = (t.accepted.bind fun a => a.scheduler k) ∧
      t.pluginsMap.lookup k = t.accepted.bind fun a => a.info k := by
    intro k
    cases hrule : cfg.rule k with
    | none => exact (describes_off h hord hfile hrule).mpr (by_contra fun hrun => hnames k hrun hrule)
    | some rule => exact (describes_at h hord hfile hc hrule).mpr (hstores k rule hrule)
  exact ⟨h.nameless.trans hnameless, fun k => (hall k).1, fun k => (hall k).2⟩

lemma installs_supplied (hc : Current s) :
  ∀ k sch, t.schedulers.lookup k = some sch → sch.storeIDs ≠ [] := by
  intro k sch hsch
  rw [h.schedulers] at hsch
  split at hsch
  next hk =>
    obtain ⟨rule, hrule, hne⟩ := (mem_order hord hfile).mp hk
    cases hsch
    show ((cfg.getStoreId r.found).lookup k).getD [] ≠ []
    rw [storeIDs_eq r.found hrule]
    exact hne
  · exact hc.supplied k sch hsch

end

lemma Fits.iff_loaded (hfile : r.file = some cfg) (hconf : cfg.ifConflict r.maxReplicas = false) :
  Fits s r ↔ s.nameless = none ∧ FitsFile s r cfg := by
  refine ⟨fun h => ⟨h.nameless, h.loaded cfg hfile hconf⟩, fun ⟨hnameless, h⟩ => ⟨hnameless, fun hno => ?_, ?_⟩⟩
  · cases hconf.symm.trans (hno cfg hfile)
  intro cfg' hcfg _
  cases hfile.symm.trans hcfg
  exact h

lemma describes_iff_rejected (hc : Current s) (hno : ∀ cfg ∈ r.file, cfg.ifConflict r.maxReplicas = true) :
  Describes s ↔ Fits s r := by
  constructor
  · intro hd
    refine ⟨hd.nameless, fun _ hnone k => ?_, fun cfg hcfg hconf => ?_⟩
    · rw [hd.pluginsMap k, hnone]
      rfl
    · cases hconf.symm.trans (hno cfg hcfg)
  intro hf
  refine ⟨hf.nameless, hc.schedulers, ?_⟩
  by_cases haccepted : s.accepted = none
  · intro k
    rw [hf.rejected hno haccepted k, haccepted]
    rfl
  · exact hc.pluginsMap haccepted

lemma describes_iff_refused (hc : Current s) (hmeet : storesMeet cfg (cfg.getStoreId r.found) = false) :
  Describes { s with cfg := some cfg, pluginsMap := .empty } ↔ s.nameless = none ∧ FitsFile s r cfg := by
  have hrule : ∀ k, (none = s.accepted.bind fun a => a.info k) ↔ (s.accepted.bind fun a => a.cfg.rule k) = none := by
    intro k
    cases s.accepted with
    | none => exact ⟨fun _ => rfl, fun _ => rfl⟩
    | some => exact eq_comm.trans map_eq_none_iff
  unfold FitsFile
  rw [hmeet, if_neg Bool.false_ne_true]
  refine ⟨fun hd => ⟨hd.nameless, fun k => (hrule k).mp (hd.pluginsMap k)⟩, fun h => ?_⟩
  exact ⟨h.1, hc.schedulers, fun k => (hrule k).mpr (h.2 k)⟩

lemma step_describes_iff (hc : Current s) (h : step s r = some t) :
  (Describes t ↔ Fits s r) ∧ ∀ k sch, t.schedulers.lookup k = some sch → sch.storeIDs ≠ [] := by
  obtain ⟨hord, ⟨hfile, rfl⟩ | ⟨cfg, hfile, ⟨hconf, rfl⟩ | ⟨hconf, rfl⟩⟩⟩ := step_some h
  · refine ⟨describes_iff_rejected hc fun cfg hcfg => ?_, hc.supplied⟩
    cases hfile.symm.trans hcfg
  · have hno : ∀ cfg ∈ r.file, cfg.ifConflict r.maxReplicas = true := by
      intro cfg' hcfg
      cases hfile.symm.trans hcfg
      exact hconf
    rw [← describes_iff_rejected hc hno]
    refine ⟨⟨fun hd => ?_, fun hd => ?_⟩, hc.supplied⟩ <;> exact ⟨hd.nameless, hd.schedulers, hd.pluginsMap⟩
  rw [Fits.iff_loaded hfile hconf]
  cases hmeet : storesMeet cfg (cfg.getStoreId r.found) with
  | true =>
    have hinst := produce_installs (s := s) hord hfile hmeet
    refine ⟨?_, installs_supplied hinst hord hfile hc⟩
    unfold FitsFile
    rw [hmeet, if_pos rfl]
    exact installs_describes_iff hinst hord hfile hc
  | false =>
    rw [produce_refuses hmeet]
    exact ⟨describes_iff_refused hc hmeet, hc.supplied⟩

end

/-- **Reloads.**  Whatever runs before the start-up load, the schedulers and `PluginsMap` describe the last accepted
file after every round exactly if every round fits. -/
theorem reload_describes_iff (pluginsMap : PluginsMap) (nameless : Option UserType) (rounds : List Round) :
  Runs.Steps step (fun _ _ t => Describes t) (init pluginsMap nameless) rounds ↔
    Runs.Steps step (fun s r _ => Fits s r) (init pluginsMap nameless) rounds := by
  refine Runs.steps_iff Current (fun s r t hc h => ?_) ?_
  · obtain ⟨hiff, hsupplied⟩ := step_describes_iff hc h
    exact ⟨hiff, fun hd => ⟨hsupplied, hd.schedulers, fun _ => hd.pluginsMap⟩⟩
  · exact ⟨nofun, fun _ => rfl, fun h => absurd rfl h⟩

variable (ranges : List (String × String))

def leaderFile : DispatchConfig := ⟨ranges.map fun x => ⟨false, x.1, x.2, [[⟨"zone", "z1"⟩]], 0, 100⟩, []⟩

def leaderRound : Round where
  file := some (leaderFile ranges)
  maxReplicas := 3
  found := fun _ _ => [⟨1, "tikv1", .up, [⟨"zone", "z1"⟩], "3.0.0"⟩]
  updated := fun _ _ => [⟨1, "tikv1", .up, [⟨"zone", "z1"⟩], "3.0.0"⟩]
  order := (List.range ranges.length).map .leader

/-- The second file has one rule less. -/
theorem dropped_rule_runs :
  (Runs.exec step (init .empty none)
    [leaderRound [("61", "62"), ("63", "64")], leaderRound [("61", "62")]]).map (fun s =>
      ((s.schedulers.lookup (.leader 1)).map describe, s.accepted.bind fun a => a.scheduler (.leader 1))) =
    some (some ⟨.leader 1, "63", "64", [1], some ⟨0, 100⟩⟩, none) := by
  decide +kernel

end Reload
end PD
