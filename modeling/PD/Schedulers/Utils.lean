import PD.Plugin.Reload
import PD.Schedule.Influence
import PD.Schedule.Selectors
import PD.Server.NamespaceCluster

/-! # What the default schedulers share -/

namespace PD

structure Choices where
  now : Int
  draw : Nat → Role → Nat → Nat → Nat
  coin : Nat → Nat
  listing : Nat → List StoreView → List StoreView
  followers : Nat → List Nat → List Nat
  removal : Nat → List Nat → List Nat
  ids : Nat → List Nat → List Nat
  rules : Nat → List RuleKey → List RuleKey
  allocID : Nat → Nat → Except String Nat
  listing_perm : ∀ i l, (listing i l).Perm l
  followers_perm : ∀ i l, (followers i l).Perm l
  removal_perm : ∀ i l, (removal i l).Perm l
  ids_perm : ∀ i l, (ids i l).Perm l
  rules_perm : ∀ i l, (rules i l).Perm l

def plainChoices (now : Int) (n : Nat) : Choices where
  now := now
  draw := fun _ _ _ _ => n
  coin := fun _ => n
  listing := fun _ l => l
  followers := fun _ l => l
  removal := fun _ l => l
  ids := fun _ l => l
  rules := fun _ l => l
  allocID := fun _ i => .ok (i+1)
  listing_perm := fun _ l => .refl l
  followers_perm := fun _ l => .refl l
  removal_perm := fun _ l => .refl l
  ids_perm := fun _ l => .refl l
  rules_perm := fun _ l => .refl l

structure Measures where
  averageRegionSize : Int
  tolerant : Int → Int
  score : Bool → StoreView → Int → Option Int

structure Setting where
  installed : Bool
  plugins : PluginsMap
  measures : Measures
  running : List Operator
  clock : Nat
  choices : Choices

def retry {σ α : Type} (attempt : Nat → σ → Option (σ × Option α)) : Nat → Nat → σ → Option (σ × Option α)
  | 0, _, s => some (s, none)
  | n + 1, i, s =>
    match attempt i s with
    | none => none
    | some (s', some a) => some (s', some a)
    | some (s', none) => retry attempt n (i+1) s'

variable {n : Nat} {pass : RegionInfo → Bool} {x : RegionInfo}

lemma retry_some {σ α : Type} {attempt : Nat → σ → Option (σ × Option α)} {i : Nat} {s s' : σ} {a : α}
  (h : retry attempt n i s = some (s', some a)) : ∃ j t t', attempt j t = some (t', some a) := by
  induction n generalizing i s with
  | zero => cases h
  | succ n ih =>
    rw [retry] at h
    split at h
    · cases h
    next t b hb => cases h; exact ⟨i, s, _, hb⟩
    · exact ih h

def pickUntil (pick : Nat → Option RegionInfo) (pass : RegionInfo → Bool) : Nat → Option RegionInfo
  | 0 => none
  | n + 1 =>
    match pick n with
    | none => none
    | some region => if pass region then some region else pickUntil pick pass n

lemma pickUntil_some {pick : Nat → Option RegionInfo} (h : pickUntil pick pass n = some x) : ∃ i, pick i = some x := by
  induction n with
  | zero => cases h
  | succ n ih =>
    rw [pickUntil] at h
    split at h
    · cases h
    next _ hpick =>
      split at h
      · cases h
        exact ⟨n, hpick⟩
      · exact ih h

def RegionMap.randomRegion (rm : RegionMap) (n : Nat) : Option RegionInfo :=
  if rm.len = 0 then none else (rm.ids[n % rm.len]?).bind rm.get

def randomRegionMaxRetry : Nat := 10

def randRegion (rm : RegionMap) (pass : RegionInfo → Bool) (draw : Nat → Nat) : Option RegionInfo :=
  pickUntil (fun i => rm.randomRegion (draw i)) pass randomRegionMaxRetry

lemma randRegion_some {rm : RegionMap} {draw : Nat → Nat}
  (h : randRegion rm pass draw = some x) : ∃ id, rm.get id = some x := by
  obtain ⟨i, hi⟩ := pickUntil_some h
  unfold RegionMap.randomRegion at hi
  split at hi
  · cases hi
  obtain ⟨id, -, hget⟩ := Option.bind_eq_some_iff.mp hi
  exact ⟨id, hget⟩

def healthRegion (x : RegionInfo) : Bool := x.downPeers.isEmpty && x.pendingPeers.isEmpty && x.getLearners.isEmpty
def healthRegionAllowPending (x : RegionInfo) : Bool := x.downPeers.isEmpty && x.getLearners.isEmpty

namespace NamespaceCluster

def randRegionMaxRetry : Nat := 10

variable (nc : NamespaceCluster)

def randRoleRegion (role : Role) (storeID : Nat) (pass : RegionInfo → Bool)
  (draw : Nat → Nat → Nat) : Option RegionInfo :=
  pickUntil (fun i => randRegion ((nc.regions.index role).at storeID) pass (draw i)) nc.checkRegion
    randRegionMaxRetry

def randPendingRegion (storeID : Nat) (pass : RegionInfo → Bool) (draw : Nat → Nat) : Option RegionInfo :=
  randRegion ((nc.regions.index .pending).at storeID) pass draw

def getStores (ch : Choices) (i : Nat) : List StoreView := ch.listing i nc.stores.values
/-- In peer order, as `clusterInfo` has it. -/
def getRegionStores (region : RegionInfo) : List StoreView := region.storeIds.filterMap nc.cluster.stores.lookup

def getFollowerStores (ch : Choices) (i : Nat) (region : RegionInfo) : List StoreView :=
  (ch.followers i (regionFollowerIDs region)).filterMap nc.cluster.stores.lookup

def opInfluence (s : Setting) : OpInfluence :=
  getOpInfluence s.clock (s.running.map fun o => (o, nc.getRegion o.regionID))

end NamespaceCluster

def RuleKey.isLeader : RuleKey → Bool
  | .leader _ => true
  | .region _ => false

def violentFilter (now : Int) (region : RegionInfo) (info : PluginInfo) (regionIDs : List Nat) : Bool :=
  info.active now && regionIDs.contains region.getID

def ruleFilter (r : RegionsInfo) (m : PluginsMap) (now : Int) (leaderOnly : Bool) (region : RegionInfo) :
    List RuleKey → Option Bool
  | [] => some false
  | k :: rest =>
    match m.lookup k with
    | none => ruleFilter r m now leaderOnly region rest
    | some info =>
      if leaderOnly && !k.isLeader then ruleFilter r m now leaderOnly region rest
      else
        match getRegionIDs r info.keyStart info.keyEnd with
        | none => none
        | some regionIDs =>
          if violentFilter now region info regionIDs then some true
          else ruleFilter r m now leaderOnly region rest

def ruleFiltered (s : Setting) (nc : NamespaceCluster) (i : Nat) (leaderOnly : Bool) (region : RegionInfo) :
  Option Bool :=
  if s.installed then
    ruleFilter nc.regions s.plugins s.choices.now leaderOnly region (s.choices.rules i s.plugins.keys)
  else some false

def shouldBalance (ms : Measures) (source target : StoreView) (region : RegionInfo) (leader : Bool)
  (influence : OpInfluence) : Bool :=
  let regionSize := ms.tolerant (max region.approximateSize ms.averageRegionSize)
  let sourceDelta := (influence.getStoreInfluence source.getID).resourceSize leader - regionSize
  let targetDelta := (influence.getStoreInfluence target.getID).resourceSize leader + regionSize
  scoreLt (ms.score leader target targetDelta) (ms.score leader source sourceDelta)

def Guarded (m : PluginsMap) (now : Int) (leaderOnly : Bool) (key : Key) : Prop :=
  ∃ k info startKey endKey, m.lookup k = some info ∧ (leaderOnly = true → k.isLeader = true) ∧
    info.active now = true ∧ decodeString info.keyStart = some startKey ∧
    decodeString info.keyEnd = some endKey ∧ inRange startKey endKey key

structure RegionsInfo.Held (r : RegionsInfo) : Prop where
  sound : r.Sound
  held : ∀ role s id x, ((r.index role).at s).get id = some x → r.getRegion id = some x

lemma RegionsInfo.Inv.toHeld {r : RegionsInfo} (h : r.Inv) : r.Held :=
  ⟨h.sound, fun role s id x hx => ((h.consistent.roles role s id x).mp hx).1⟩

section
variable {r : RegionsInfo} {m : PluginsMap} {now : Int} {leaderOnly : Bool} {x : RegionInfo}
variable {order : List RuleKey} {k : RuleKey} {info : PluginInfo}

lemma ruleFilter_passed (h : ruleFilter r m now leaderOnly x order = some false) (hk : k ∈ order)
  (hinfo : m.lookup k = some info) (hlead : leaderOnly = true → k.isLeader = true) :
  ∃ ids, getRegionIDs r info.keyStart info.keyEnd = some ids ∧ violentFilter now x info ids = false := by
  induction order with
  | nil => cases hk
  | cons _ _ ih =>
    rw [ruleFilter] at h
    rcases List.mem_cons.mp hk with rfl | hrest
    · rw [hinfo] at h
      have hasked : ¬ (leaderOnly && !k.isLeader) = true := by
        cases leaderOnly with
        | false => simp
        | true => simp [hlead rfl]
      simp only [if_neg hasked] at h
      split at h
      · cases h
      next ids hids =>
        split at h
        · cases h
        next hpass => exact ⟨ids, hids, Bool.eq_false_iff.mpr hpass⟩
    split at h
    · exact ih h hrest
    split at h
    · exact ih h hrest
    split at h
    · cases h
    split at h
    · cases h
    · exact ih h hrest

lemma ruleFilter_isSome (hr : r.Sound) : ruleFilter r m now leaderOnly x order ≠ none := by
  induction order with
  | nil => exact Option.some_ne_none _
  | cons k _ ih =>
    rw [ruleFilter]
    split
    · exact ih
    next info _ =>
      obtain ⟨ids, hids⟩ := getRegionIDs_isSome hr info.keyStart info.keyEnd
      rw [hids]
      split
      · exact ih
      simp only
      split
      · exact Option.some_ne_none _
      · exact ih

lemma ruleFilter_refuses (hr : r.Sound) (hx : x ∈ r.ordered) {startKey endKey : Key} (hk : k ∈ order)
  (hinfo : m.lookup k = some info) (hlead : leaderOnly = true → k.isLeader = true)
  (hactive : info.active now = true) (hstart : decodeString info.keyStart = some startKey)
  (hend : decodeString info.keyEnd = some endKey) (hrange : inRange startKey endKey x.getMeta.startKey)
  (hwhole : x.getMeta.isWhole = false ∨ endKey = []) : ruleFilter r m now leaderOnly x order = some true := by
  cases hf : ruleFilter r m now leaderOnly x order with
  | none => exact absurd hf (ruleFilter_isSome hr)
  | some refused =>
    cases refused with
    | true => rfl
    | false =>
      obtain ⟨ids, hids, hpass⟩ := ruleFilter_passed hf hk hinfo hlead
      obtain ⟨ids', hids', hfound⟩ := mem_getRegionIDs_of_inRange hr hstart hend hx hrange hwhole
      rw [hids] at hids'
      cases hids'
      unfold violentFilter at hpass
      rw [hactive, List.contains_iff_mem.mpr hfound] at hpass
      cases hpass

lemma not_guarded {s : Setting} {nc : NamespaceCluster} {i : Nat} (hr : nc.regions.Sound)
  (htwo : 2 ≤ nc.regions.tree.items.length) (hs : s.installed = true) {id : Nat}
  (hx : nc.regions.getRegion id = some x) (h : ruleFiltered s nc i leaderOnly x = some false) :
  ¬ Guarded s.plugins s.choices.now leaderOnly x.getMeta.startKey := by
  rintro ⟨k, info, startKey, endKey, hinfo, hlead, hactive, hstart, hend, hrange⟩
  rw [ruleFiltered, if_pos hs] at h
  have hk : k ∈ s.choices.rules i s.plugins.keys :=
    (s.choices.rules_perm i _).mem_iff.mpr (SortedMap.mem_keys.mpr ⟨info, hinfo⟩)
  have hmem : x ∈ nc.regions.ordered := (RegionsInfo.mem_ordered hr).mpr ⟨id, hx⟩
  rw [ruleFilter_refuses hr hmem hk hinfo hlead hactive hstart hend hrange (.inl (isWhole_eq_false hr htwo hmem))] at h
  cases h

end

section
variable {nc : NamespaceCluster} {x : RegionInfo}
variable {storeID : Nat} {pass : RegionInfo → Bool}

lemma randRoleRegion_some (hr : nc.regions.Held) {role : Role} {draw : Nat → Nat → Nat}
  (h : nc.randRoleRegion role storeID pass draw = some x) : ∃ id, nc.regions.getRegion id = some x := by
  obtain ⟨i, hi⟩ := pickUntil_some h
  obtain ⟨id, hid⟩ := randRegion_some hi
  exact ⟨id, hr.held role storeID id x hid⟩

lemma randPendingRegion_some (hr : nc.regions.Held) {draw : Nat → Nat}
  (h : nc.randPendingRegion storeID pass draw = some x) : ∃ id, nc.regions.getRegion id = some x := by
  obtain ⟨id, hid⟩ := randRegion_some h
  exact ⟨id, hr.held .pending storeID id x hid⟩

lemma getRegion_some {id : Nat} (h : nc.getRegion id = some x) : nc.regions.getRegion id = some x :=
  (Option.filter_eq_some_iff.mp h).1

end
end PD
